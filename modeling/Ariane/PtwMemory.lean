import Ariane.Ptw

set_option autoImplicit false

/- The memory port of the walker: which request each response answers. -/
namespace Ariane.Ptw

open Rtl (Machine)

/-- A request that the memory has accepted. -/
structure Request where
  number : Nat
  address : BitVec 56
  deriving DecidableEq

/-- History of the port: the accepted requests without a response, oldest first, the request
whose response is in the input register, the request accepted last, and whether the walker was
flushed since. -/
structure Port where
  accepted : Nat := 0
  pending : List Request := []
  answered : Option Request := none
  last : Option Request := none
  flushed : Bool := false
  deriving DecidableEq

/-- The walker and the history of its memory port. -/
structure Walker (w : Nat) where
  ptw : State w := reset
  port : Port := {}
  deriving DecidableEq

section Next

variable {w : Nat} (s : Walker w) (i : Input w)

/-- The request of this cycle. The index is sent with the request and the tag in the next cycle,
together with `tag_valid`. -/
def request : Request where
  number := s.port.accepted
  address := (next s.ptw i).ptwPptr.extractLsb' 12 44 ++ s.ptw.ptwPptr.extractLsb' 0 12

def Port.next : Port where
  accepted := if granted s.ptw i then s.port.accepted + 1 else s.port.accepted
  pending := (if i.dataRvalid then s.port.pending.tail else s.port.pending) ++
    if granted s.ptw i then [request s i] else []
  answered := if i.dataRvalid then s.port.pending.head? else none
  last := if granted s.ptw i then some (request s i) else s.port.last
  flushed := i.flush || (s.port.flushed && !granted s.ptw i)

def Walker.next : Walker w where
  ptw := Ptw.next s.ptw i
  port := Port.next s i

/-- The memory answers nothing but accepted requests. -/
def Answers : Prop := i.dataRvalid = true → s.port.pending ≠ []

instance decidableAnswers : Decidable (Answers s i) := inferInstanceAs (Decidable (_ → _))

/-- No flush meets `WAIT_RVALID` before the outstanding response has arrived. -/
def SingleFlush : Prop :=
  s.ptw.state = .waitRvalid → i.flush = true → s.ptw.dataRvalid = true ∨ i.dataRvalid = true

instance decidableSingleFlush : Decidable (SingleFlush s i) :=
  inferInstanceAs (Decidable (_ → _ → _))

end Next

def walker (w : Nat) : Machine (Walker w) (Input w) := ⟨{}, Walker.next⟩

/-- The entry that the walker evaluates answers the request accepted last, for the address in the
pointer register and without a flush in between. -/
structure OwnResponse {w : Nat} (s : Walker w) : Prop where
  evaluated : s.ptw.state = .pteLookup → s.ptw.dataRvalid = true →
    ∃ r, s.port.answered = some r ∧ s.port.last = some r ∧ r.address = s.ptw.ptwPptr ∧
      s.port.flushed = false
  installed : ∀ i : Input w, (itlbUpdate s.ptw i).valid = true ∨ (dtlbUpdate s.ptw i).valid = true →
    s.ptw.state = .pteLookup ∧ s.ptw.dataRvalid = true

/-- One request is outstanding, or its response is in the input register. -/
inductive Outstanding {w : Nat} (s : Walker w) (r : Request) : Prop where
  | pending (one : s.port.pending = [r]) (noData : s.ptw.dataRvalid = false)
  | arrived (none : s.port.pending = []) (data : s.ptw.dataRvalid = true)
      (own : s.port.answered = some r)

/-- The outstanding responses in each state of the walker. -/
def Accounted {w : Nat} (s : Walker w) : Prop :=
  match s.ptw.state with
  | .idle | .propagateError => s.port.pending = []
  | .waitGrant => s.port.pending = [] ∧ s.ptw.dataRvalid = false
  | .pteLookup => ∃ r, Outstanding s r ∧ s.port.last = some r ∧ r.address = s.ptw.ptwPptr ∧
      s.port.flushed = false
  | .waitRvalid => ∃ r, Outstanding s r

section Preserved

variable {w : Nat} {s : Walker w} {i : Input w}

theorem Answers.quiet (answers : Answers s i) (empty : s.port.pending = []) :
    i.dataRvalid = false :=
  Bool.eq_false_iff.mpr (fun arrives => answers arrives empty)

theorem port_waiting (noGrant : granted s.ptw i = false) :
    Port.next s i =
      { s.port with
        pending := if i.dataRvalid then s.port.pending.tail else s.port.pending
        answered := if i.dataRvalid then s.port.pending.head? else none
        flushed := i.flush || s.port.flushed } := by
  simp [Port.next, noGrant]

theorem Outstanding.step {r : Request} (out : Outstanding s r)
    (noGrant : granted s.ptw i = false) (noData : s.ptw.dataRvalid = false) :
    Outstanding (s.next i) r := by
  cases out with
  | arrived _ data _ =>
      rw [noData] at data
      exact absurd data Bool.false_ne_true
  | pending one _ =>
      have port : (s.next i).port = Port.next s i := rfl
      rw [port_waiting noGrant] at port
      cases arrives : i.dataRvalid with
      | false =>
          apply Outstanding.pending
          · rw [port, arrives, one]
            rfl
          · exact arrives
      | true =>
          apply Outstanding.arrived
          · rw [port, arrives, one]
            rfl
          · exact arrives
          · rw [port, arrives, one]
            rfl

/-- A granted request is the only one outstanding, and its index and tag form one pointer. -/
theorem granted_request (phase : s.ptw.state = .waitGrant) (grant : i.dataGnt = true)
    (answers : Answers s i) (empty : s.port.pending = []) :
    Outstanding (s.next i) (request s i) ∧ (s.next i).port.last = some (request s i) ∧
      (request s i).address = s.ptw.ptwPptr ∧ (s.next i).port.flushed = i.flush := by
  have accepted : granted s.ptw i = true := by
    rw [granted_iff, phase, grant]
    rfl
  have quiet := answers.quiet empty
  have pointer : (next s.ptw i).ptwPptr = s.ptw.ptwPptr := by
    rw [next_waitGrant s.ptw i phase]
    rfl
  refine ⟨Outstanding.pending ?_ quiet, ?_, ?_, ?_⟩
  · show (Port.next s i).pending = _
    rw [Port.next, quiet, accepted, empty]
    rfl
  · show (Port.next s i).last = _
    rw [Port.next, accepted]
    rfl
  · rw [request, pointer]
    exact @BitVec.extractLsb'_append_extractLsb' 44 12 s.ptw.ptwPptr
  · show (Port.next s i).flushed = _
    rw [Port.next, accepted]
    simp

theorem accounted_of_empty (empty : s.port.pending = []) (noData : s.ptw.dataRvalid = false)
    (phase : s.ptw.state = .idle ∨ s.ptw.state = .waitGrant ∨ s.ptw.state = .propagateError) :
    Accounted s := by
  rw [Accounted]
  rcases phase with phase | phase | phase <;> rw [phase]
  · exact empty
  · exact ⟨empty, noData⟩
  · exact empty

theorem empty_step (noGrant : granted s.ptw i = false) (empty : s.port.pending = [])
    (answers : Answers s i) :
    (s.next i).port.pending = [] ∧ (s.next i).ptw.dataRvalid = false := by
  have quiet := answers.quiet empty
  refine ⟨?_, quiet⟩
  show (Port.next s i).pending = []
  rw [port_waiting noGrant, quiet]
  exact empty

theorem Accounted.step (accounted : Accounted s) (answers : Answers s i)
    (single : SingleFlush s i) : Accounted (s.next i) := by
  rw [Accounted] at accounted
  cases phase : s.ptw.state with
  | idle =>
      rw [phase] at accounted
      have noGrant : granted s.ptw i = false := by
        rw [granted_iff, phase]
        rfl
      obtain ⟨empty, noData⟩ := empty_step noGrant accounted answers
      have state := next_idle_state s.ptw i phase
      apply accounted_of_empty empty noData
      show (Ptw.next s.ptw i).state = _ ∨ (Ptw.next s.ptw i).state = _ ∨ _
      rw [state]
      split
      · exact Or.inr (Or.inl rfl)
      · exact Or.inl rfl
  | propagateError =>
      rw [phase] at accounted
      have noGrant : granted s.ptw i = false := by
        rw [granted_iff, phase]
        rfl
      obtain ⟨empty, noData⟩ := empty_step noGrant accounted answers
      apply accounted_of_empty empty noData
      left
      show (Ptw.next s.ptw i).state = .idle
      rw [next_propagateError s.ptw i phase]
      rfl
  | waitGrant =>
      rw [phase] at accounted
      have step : (s.next i).ptw = _ := next_waitGrant s.ptw i phase
      cases grant : i.dataGnt with
      | true =>
          obtain ⟨out, last, address, flushed⟩ :=
            granted_request phase grant answers accounted.1
          rw [grant, if_pos rfl, if_pos rfl] at step
          rw [Accounted]
          cases flush : i.flush with
          | true =>
              rw [flush, if_pos rfl] at step
              rw [step]
              exact ⟨_, out⟩
          | false =>
              rw [flush, if_neg Bool.false_ne_true] at step
              have pointer : (s.next i).ptw.ptwPptr = s.ptw.ptwPptr := by
                rw [step]
                rfl
              have state : (s.next i).ptw.state = .pteLookup := by
                rw [step]
                rfl
              rw [state]
              exact ⟨_, out, last, by rw [pointer]; exact address, flushed.trans flush⟩
      | false =>
          have noGrant : granted s.ptw i = false := by
            rw [granted_iff, grant, Bool.and_false]
          obtain ⟨empty, noData⟩ := empty_step noGrant accounted.1 answers
          apply accounted_of_empty empty noData
          rw [step, grant]
          cases i.flush with
          | true => exact Or.inl rfl
          | false => exact Or.inr (Or.inl rfl)
  | pteLookup =>
      rw [phase] at accounted
      obtain ⟨r, out, last, address, flushed⟩ := accounted
      have noGrant : granted s.ptw i = false := by
        rw [granted_iff, phase]
        rfl
      cases data : s.ptw.dataRvalid with
      | false =>
          have later := out.step noGrant data
          have step : (s.next i).ptw = _ := next_pteLookup_waiting s.ptw i phase data
          rw [Accounted]
          cases flush : i.flush with
          | true =>
              rw [flush, if_pos rfl] at step
              rw [step]
              exact ⟨r, later⟩
          | false =>
              rw [flush, if_neg Bool.false_ne_true] at step
              have pointer : (s.next i).ptw.ptwPptr = s.ptw.ptwPptr := by
                rw [step]
                rfl
              have state : (s.next i).ptw.state = .pteLookup := by
                rw [step]
                rfl
              have port : (s.next i).port = _ := port_waiting noGrant
              rw [state]
              refine ⟨r, later, ?_, address.trans pointer.symm, ?_⟩
              · rw [port]
                exact last
              · rw [port, flush]
                exact flushed
      | true =>
          have empty : s.port.pending = [] := by
            cases out with
            | pending _ noData =>
                rw [data] at noData
                exact absurd noData (by decide)
            | arrived none _ _ => exact none
          obtain ⟨after, noData⟩ := empty_step noGrant empty answers
          have state := next_evaluated_state s.ptw i phase data
          apply accounted_of_empty after noData
          show (Ptw.next s.ptw i).state = _ ∨ (Ptw.next s.ptw i).state = _ ∨
            (Ptw.next s.ptw i).state = _
          rw [state, evaluatedState]
          repeat' split
          all_goals simp
  | waitRvalid =>
      rw [phase] at accounted
      obtain ⟨r, out⟩ := accounted
      have noGrant : granted s.ptw i = false := by
        rw [granted_iff, phase]
        rfl
      have step : (s.next i).ptw = _ := next_waitRvalid s.ptw i phase
      cases data : s.ptw.dataRvalid with
      | true =>
          have empty : s.port.pending = [] := by
            cases out with
            | pending _ noData =>
                rw [data] at noData
                exact absurd noData (by decide)
            | arrived none _ _ => exact none
          obtain ⟨after, noData⟩ := empty_step noGrant empty answers
          apply accounted_of_empty after noData
          left
          rw [step, data, Bool.or_true]
          rfl
      | false =>
          have later := out.step noGrant data
          rw [Accounted]
          cases flush : i.flush with
          | false =>
              rw [flush, data] at step
              rw [step]
              exact ⟨r, later⟩
          | true =>
              -- the response arrives in this very cycle
              have arrives : i.dataRvalid = true := by
                rcases single phase flush with now | now
                · rw [data] at now
                  exact absurd now Bool.false_ne_true
                · exact now
              have idle : (s.next i).ptw.state = .idle := by
                rw [step, flush]
                rfl
              rw [idle]
              cases later with
              | pending _ noData =>
                  have same : (s.next i).ptw.dataRvalid = i.dataRvalid := rfl
                  rw [same, arrives] at noData
                  exact absurd noData (by decide)
              | arrived none _ _ => exact none

end Preserved

theorem accounted_reset (w : Nat) : Accounted (walker w).reset := rfl

theorem accounted_run {w : Nat} (inputs : List (Input w)) (s : Walker w) (start : Accounted s)
    (legal : (walker w).Legal (fun s i => Answers s i ∧ SingleFlush s i) s inputs) :
    Accounted ((walker w).runFrom s inputs) := by
  induction inputs generalizing s with
  | nil => exact start
  | cons i rest ih =>
      obtain ⟨⟨answers, single⟩, later⟩ := legal
      exact ih _ (start.step answers single) later

/-- An entry that is evaluated answers the request of its own walk. -/
theorem Accounted.ownResponse {w : Nat} {s : Walker w} (accounted : Accounted s) :
    OwnResponse s := by
  constructor
  · intro phase data
    rw [Accounted, phase] at accounted
    obtain ⟨r, out, last, address, flushed⟩ := accounted
    cases out with
    | pending _ noData =>
        rw [data] at noData
        exact absurd noData (by decide)
    | arrived _ _ own => exact ⟨r, own, last, address, flushed⟩
  · intro i valid
    rw [itlbUpdate_valid, dtlbUpdate_valid] at valid
    simp only [Bool.and_eq_true, beq_iff_eq] at valid
    rcases valid with itlb | dtlb
    · exact itlb.1.1
    · exact dtlb.1.1

/-- In every run in which no flush meets `WAIT_RVALID` before its response, the walker evaluates
only the response to its own last request. -/
theorem responses_own (w : Nat) (inputs : List (Input w))
    (legal : (walker w).Legal (fun s i => Answers s i ∧ SingleFlush s i) (walker w).reset inputs) :
    OwnResponse ((walker w).run inputs) :=
  (accounted_run inputs (walker w).reset (accounted_reset w) legal).ownResponse

/-- A load misses. -/
def missAt (va : BitVec 64) : Input 1 :=
  { enLdStTranslation := true, dtlbAccess := true, dtlbVaddr := va, satpPpn := 1 }

def grant : Input 1 := { dataGnt := true }
def flush : Input 1 := { flush := true }
def response : Input 1 := { dataRvalid := true, dataRdata := 0xcf }

/-- One flush, and the next walk gets its own response. -/
def flushedOnce : List (Input 1) :=
  [missAt 0, grant, flush, response, {}, missAt 0x40000000, grant, response]

theorem responses_own_flushed : OwnResponse ((walker 1).run flushedOnce) := by
  apply responses_own 1 flushedOnce
  decide

/-- After a second flush the response to the first request is taken for the second walk. -/
theorem second_flush_stale :
    ¬ ∀ inputs, (walker 1).Legal Answers (walker 1).reset inputs →
      OwnResponse ((walker 1).run inputs) := by
  intro own
  have stale := (own [missAt 0, grant, flush, flush, missAt 0x40000000, grant, response]
    (by decide)).evaluated (by decide +kernel) (by decide +kernel)
  obtain ⟨r, answered, last, _⟩ := stale
  have first : r.number = 0 := by
    have same := congrArg (Option.map Request.number) answered
    exact (Option.some.inj (same.symm.trans (by decide :
      ((walker 1).run [missAt 0, grant, flush, flush, missAt 0x40000000, grant,
        response]).port.answered.map Request.number = some 0)))
  have second : r.number = 1 := by
    have same := congrArg (Option.map Request.number) last
    exact (Option.some.inj (same.symm.trans (by decide :
      ((walker 1).run [missAt 0, grant, flush, flush, missAt 0x40000000, grant,
        response]).port.last.map Request.number = some 1)))
  omega

end Ariane.Ptw
