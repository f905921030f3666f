import Ariane.PtwMemory
import Ariane.Rtl.Stream
import Mathlib.Tactic.IntervalCases

set_option autoImplicit false

/- The walker against the Sv39 walk: the requests and the outcome of one walk, for every memory
content and every latency. -/
namespace Ariane.Ptw

open Rtl (Machine)
open Sv39 (Pte Access Leaf permits find reads pteAddress)

/-- What the walker shows to its surroundings. -/
inductive Event (w : Nat) where
  | read (address : BitVec 56)
  | itlb (update : TlbUpdate w)
  | dtlb (update : TlbUpdate w)
  | error (instr : Bool)
  deriving DecidableEq

/-- The events of one cycle. -/
def emit {w : Nat} (s : Walker w) (i : Input w) : List (Event w) :=
  (if granted s.ptw i then [.read (request s i).address] else []) ++
    (if (itlbUpdate s.ptw i).valid then [.itlb (itlbUpdate s.ptw i)] else []) ++
    (if (dtlbUpdate s.ptw i).valid then [.dtlb (dtlbUpdate s.ptw i)] else []) ++
    (if (ptw s.ptw i).ptwError then [.error s.ptw.isInstrPtw] else [])

/-- What the walk is about. -/
structure Task (w : Nat) where
  mem : BitVec 56 → Pte
  kind : Access
  mxr : Bool
  va : BitVec 64
  asid : BitVec w
  root : BitVec 44

/-- The update that installs a leaf. -/
def Task.update {w : Nat} (k : Task w) (l : Leaf) : TlbUpdate w where
  valid := true
  is2M := l.level == 1
  is1G := l.level == 2
  vpn := k.va.extractLsb' 12 27
  asid := k.asid
  content := l.content

/-- How a walk ends. -/
def Task.outcome {w : Nat} (k : Task w) : Option Leaf → Event w
  | none => .error (k.kind == .fetch)
  | some l => if k.kind = .fetch then .itlb (k.update l) else .dtlb (k.update l)

/-- The events of the walk from level `i` down. -/
def Task.trace {w : Nat} (k : Task w) (i : Nat) (a : BitVec 44) (g : Bool) : List (Event w) :=
  (reads k.mem k.va i a).map .read ++
    [k.outcome ((find k.mem k.va i a g).filter (fun l => permits k.mxr k.kind l.pte))]

theorem Task.trace_eq {w : Nat} (k : Task w) (i : Nat) (a : BitVec 44) (g : Bool) :
    k.trace i a g =
      let p := k.mem (pteAddress a k.va i)
      .read (pteAddress a k.va i) ::
        if p.invalid then [k.outcome none]
        else if p.isLeaf then
          if permits k.mxr k.kind p && !Sv39.misaligned p i then
            [k.outcome (some ⟨p, i, g || p.g⟩)]
          else [k.outcome none]
        else match i with
          | 0 => [k.outcome none]
          | j + 1 => k.trace j p.ppn (g || p.g) := by
  rw [trace, Sv39.reads_eq, Sv39.find_eq]
  generalize entry : k.mem (pteAddress a k.va i) = p
  dsimp only
  cases valid : p.invalid with
  | true => rfl
  | false =>
      cases leaf : p.isLeaf with
      | true =>
          cases Sv39.misaligned p i <;> cases allowed : permits k.mxr k.kind p <;>
            simp [Option.filter, allowed]
      | false => cases i <;> rfl

section Run

variable {w : Nat} (s : Walker w) (inputs : Nat → Input w)

/-- The registers and the port in cycle `t`. -/
def walkerAt (t : Nat) : Walker w := (walker w).stateAt s inputs t

/-- The events before cycle `t`. -/
def eventsBefore (t : Nat) : List (Event w) := (walker w).log s inputs emit t

/-- The walk that starts in cycle 0 has not ended before cycle `t`. -/
def InWalk (t : Nat) : Prop := ∀ u, 0 < u → u ≤ t → (walkerAt s inputs u).ptw.state ≠ .idle

/-- A miss of the TLB for the access `k`, while nothing is outstanding. -/
structure Misses (k : Task w) : Prop where
  idle : s.ptw.state = .idle
  quiet : s.port.pending = []
  asid : k.asid = (inputs 0).asid
  root : k.root = (inputs 0).satpPpn
  fetch : k.kind = .fetch → itlbMisses (inputs 0) = true ∧ k.va = (inputs 0).itlbVaddr
  data : k.kind ≠ .fetch → dtlbMisses (inputs 0) = true ∧ k.va = (inputs 0).dtlbVaddr

/-- During the walk there is no flush, the kind of the access and `mxr` stay, every request is
granted and answered at some time, and the memory answers with its content. -/
structure Serves (k : Task w) : Prop where
  noFlush : ∀ t, InWalk s inputs t → (inputs t).flush = false
  store : ∀ t, 0 < t → InWalk s inputs t → k.kind ≠ .fetch →
    (inputs t).lsuIsStore = (k.kind == .store)
  mxr : ∀ t, 0 < t → InWalk s inputs t → (inputs t).mxr = k.mxr
  content : ∀ t, InWalk s inputs t → (inputs t).dataRvalid = true →
    ∃ r rest, (walkerAt s inputs t).port.pending = r :: rest ∧
      (inputs t).dataRdata = k.mem r.address
  grants : ∀ t, InWalk s inputs t → (walkerAt s inputs t).ptw.state = .waitGrant →
    ∃ u, t ≤ u ∧ (inputs u).dataGnt = true
  responds : ∀ t, InWalk s inputs t → (walkerAt s inputs t).port.pending ≠ [] →
    ∃ u, t ≤ u ∧ (inputs u).dataRvalid = true

end Run

/-- The level register for level `i` of the walk. -/
def lvlOf : Nat → Lvl
  | 2 => .lvl1
  | 1 => .lvl2
  | _ => .lvl3

/-- The walk for `k` has reached the table of level `i` at page `a`, with the global bits `g`. -/
structure Descends {w : Nat} (k : Task w) (q : State w) (i : Nat) (a : BitVec 44) (g : Bool) :
    Prop where
  level : q.ptwLvl = lvlOf i
  pointer : q.ptwPptr = pteAddress a k.va i
  global : q.globalMapping = g
  isInstr : q.isInstrPtw = (k.kind == .fetch)
  asid : q.tlbUpdateAsid = k.asid
  vaddr : q.vaddr = k.va

section Emit

variable {w : Nat} {s : Walker w} {i : Input w}

theorem emit_waitGrant (phase : s.ptw.state = .waitGrant) :
    emit s i = if i.dataGnt then [.read (request s i).address] else [] := by
  rw [emit, itlbUpdate_valid, dtlbUpdate_valid, ptwError_iff, granted_iff, phase]
  cases i.dataGnt <;> rfl

theorem emit_waiting (phase : s.ptw.state = .pteLookup) (noData : s.ptw.dataRvalid = false) :
    emit s i = [] := by
  rw [emit, itlbUpdate_valid, dtlbUpdate_valid, ptwError_iff, granted_iff, phase, noData]
  rfl

theorem emit_idle (phase : s.ptw.state = .idle) : emit s i = [] := by
  rw [emit, itlbUpdate_valid, dtlbUpdate_valid, ptwError_iff, granted_iff, phase]
  rfl

theorem emit_error (phase : s.ptw.state = .propagateError) :
    emit s i = [.error s.ptw.isInstrPtw] := by
  rw [emit, itlbUpdate_valid, dtlbUpdate_valid, ptwError_iff, granted_iff, phase]
  rfl

theorem emit_evaluated (phase : s.ptw.state = .pteLookup) (data : s.ptw.dataRvalid = true) :
    emit s i =
      if installs s.ptw i then
        if s.ptw.isInstrPtw then [.itlb (update s.ptw true)] else [.dtlb (update s.ptw true)]
      else [] := by
  have itlb := itlbUpdate_valid s.ptw i
  have dtlb := dtlbUpdate_valid s.ptw i
  rw [phase, data] at itlb dtlb
  rw [emit, itlb, dtlb, ptwError_iff, granted_iff, phase]
  have itlbData : itlbUpdate s.ptw i = update s.ptw (itlbUpdate s.ptw i).valid := rfl
  have dtlbData : dtlbUpdate s.ptw i = update s.ptw (dtlbUpdate s.ptw i).valid := rfl
  rw [itlbData, dtlbData, itlb, dtlb]
  cases s.ptw.isInstrPtw <;> cases installs s.ptw i <;> rfl

end Emit

section Checks

variable {w : Nat} {k : Task w} {q : State w} {lvl : Nat} {a : BitVec 44} {g : Bool}

theorem Descends.permitted (i : Input w) (here : Descends k q lvl a g) (valid : (pte q).invalid = false)
    (store : k.kind ≠ .fetch → i.lsuIsStore = (k.kind == .store)) (mxr : i.mxr = k.mxr) :
    permitted q i = permits k.mxr k.kind (pte q) := by
  have readable : (pte q).w = true → (pte q).r = true := by
    intro writable
    rw [Pte.invalid, writable, Bool.and_true, Bool.or_eq_false_iff, Bool.not_eq_false'] at valid
    exact Bool.not_eq_false' .. ▸ valid.2
  rw [Ptw.permitted, here.isInstr, mxr]
  cases kind : k.kind with
  | fetch => rfl
  | load =>
      rw [store (by rw [kind]; decide), kind]
      show ((pte q).a && ((pte q).r || ((pte q).x && k.mxr)) && true) = _
      rw [Bool.and_true, Bool.and_comm]
      rfl
  | store =>
      rw [store (by rw [kind]; decide), kind]
      show ((pte q).a && ((pte q).r || ((pte q).x && k.mxr)) && !(!(pte q).w || !(pte q).d)) =
        ((pte q).w && (pte q).a && (pte q).d)
      cases writable : (pte q).w with
      | false => rw [Bool.not_false, Bool.true_or, Bool.not_true, Bool.and_false]; rfl
      | true =>
          rw [readable writable]
          cases (pte q).a <;> cases (pte q).d <;> rfl

/-- The alignment check covers the parts of the page number below the level. -/
theorem Descends.misaligned (here : Descends k q lvl a g) (bound : lvl ≤ 2) :
    misaligned q = Sv39.misaligned (pte q) lvl := by
  have low : ∀ n, ((pte q).ppn.extractLsb' 0 n != 0) = ((pte q).ppn.toNat % 2 ^ n != 0) := by
    intro n
    rw [Bool.eq_iff_iff, bne_iff_ne, bne_iff_ne, ne_eq, ne_eq, not_iff_not]
    constructor
    · intro same
      have value := congrArg BitVec.toNat same
      rw [BitVec.extractLsb'_toNat] at value
      simpa using value
    · intro value
      apply BitVec.eq_of_toNat_eq
      rw [BitVec.extractLsb'_toNat]
      simpa using value
  rw [Ptw.misaligned, here.level, low, low, Sv39.misaligned]
  match lvl, bound with
  | 0, _ => rw [Nat.mul_zero, Nat.pow_zero, Nat.mod_one]; rfl
  | 1, _ => rfl
  | 2, _ => exact Bool.or_false _

theorem Descends.update (here : Descends k q lvl a g) (bound : lvl ≤ 2) :
    update q true = k.update ⟨pte q, lvl, g || (pte q).g⟩ := by
  have content : pte q ||| (BitVec.ofBool q.globalMapping).setWidth 64 <<< 5 =
      (pte q).setG (g || (pte q).g) := by
    rw [Pte.setG_own, here.global]
    rfl
  have level2 : (q.ptwLvl == .lvl2) = (lvl == 1) := by
    rw [here.level]
    match lvl, bound with
    | 0, _ => rfl
    | 1, _ => rfl
    | 2, _ => rfl
  have level1 : (q.ptwLvl == .lvl1) = (lvl == 2) := by
    rw [here.level]
    match lvl, bound with
    | 0, _ => rfl
    | 1, _ => rfl
    | 2, _ => rfl
  rw [Ptw.update, content, level1, level2, here.asid, here.vaddr]
  rfl

/-- A pointer leads to the table of the level below. -/
theorem Descends.below {i : Nat} {j : Input w} (here : Descends k q (i + 1) a g)
    (bound : i + 1 ≤ 2) (phase : q.state = .pteLookup) (data : q.dataRvalid = true)
    (noFlush : j.flush = false) (valid : (pte q).invalid = false)
    (notLeaf : (pte q).isLeaf = false) :
    (next q j).state = .waitGrant ∧
      Descends k (next q j) i (pte q).ppn (g || (pte q).g) := by
  have notLast : q.ptwLvl ≠ .lvl3 := by
    rw [here.level]
    match i, bound with
    | 0, _ => decide
    | 1, _ => decide
  have step := next_pointer q j phase data noFlush valid notLeaf notLast
  rw [here.level, here.vaddr, here.global] at step
  rw [step]
  match i, bound with
  | 0, _ => exact ⟨rfl, rfl, rfl, rfl, here.isInstr, here.asid, here.vaddr⟩
  | 1, _ => exact ⟨rfl, rfl, rfl, rfl, here.isInstr, here.asid, here.vaddr⟩

end Checks

section Walk

variable {w : Nat} {s : Walker w} {inputs : Nat → Input w} {k : Task w} {i : Nat} {a : BitVec 44}
  {g : Bool}

/-- The walk waits in cycle `t` for the entry of level `i`. -/
structure Waits (s : Walker w) (inputs : Nat → Input w) (k : Task w) (i : Nat) (a : BitVec 44)
    (g : Bool) (t : Nat) : Prop where
  inWalk : InWalk s inputs t
  descends : Descends k (walkerAt s inputs t).ptw i a g

/-- The walk goes on where it does not fall back to `IDLE`. -/
theorem InWalk.succ {t : Nat} (walks : InWalk s inputs t)
    (busy : (walkerAt s inputs (t + 1)).ptw.state ≠ .idle) : InWalk s inputs (t + 1) := by
  intro u positive bound
  rcases Nat.lt_or_eq_of_le bound with below | last
  · exact walks u positive (Nat.le_of_lt_succ below)
  · rw [last]
    exact busy

theorem Descends.waiting {q : State w} {j : Input w} (here : Descends k q i a g) (phase : Phase) :
    Descends k (waiting q j phase) i a g :=
  ⟨here.level, here.pointer, here.global, here.isInstr, here.asid, here.vaddr⟩

/-- The memory of a served walk answers nothing but accepted requests. -/
theorem Serves.answers (serves : Serves s inputs k) {t : Nat} (walks : InWalk s inputs t) :
    Answers (walkerAt s inputs t) (inputs t) := by
  intro arrives
  obtain ⟨r, rest, some, _⟩ := serves.content t walks arrives
  rw [some]
  exact List.cons_ne_nil r rest

theorem Serves.wait_grant (serves : Serves s inputs k) {t : Nat}
    (waits : Waits s inputs k i a g t) (phase : (walkerAt s inputs t).ptw.state = .waitGrant)
    (empty : (walkerAt s inputs t).port.pending = []) (noGrant : (inputs t).dataGnt = false) :
    Waits s inputs k i a g (t + 1) ∧ (walkerAt s inputs (t + 1)).ptw.state = .waitGrant ∧
      (walkerAt s inputs (t + 1)).port.pending = [] ∧
      eventsBefore s inputs (t + 1) = eventsBefore s inputs t := by
  have noFlush := serves.noFlush t waits.inWalk
  have step : (walkerAt s inputs (t + 1)).ptw = _ :=
    next_waitGrant (walkerAt s inputs t).ptw (inputs t) phase
  rw [noFlush, noGrant, if_neg Bool.false_ne_true, if_neg Bool.false_ne_true] at step
  have accepted : granted (walkerAt s inputs t).ptw (inputs t) = false := by
    rw [granted_iff, noGrant, Bool.and_false]
  have answers := serves.answers waits.inWalk
  have state : (walkerAt s inputs (t + 1)).ptw.state = .waitGrant := by
    rw [step]
    rfl
  refine ⟨⟨waits.inWalk.succ ?_, ?_⟩, state, (empty_step accepted empty answers).1, ?_⟩
  · rw [state]
    decide
  · rw [step]
    exact waits.descends.waiting .waitGrant
  · show eventsBefore s inputs t ++ emit (walkerAt s inputs t) (inputs t) = _
    rw [emit_waitGrant phase, noGrant]
    exact List.append_nil _

/-- The grant sends the address of the entry. -/
theorem Serves.take_grant (serves : Serves s inputs k) {t : Nat}
    (waits : Waits s inputs k i a g t) (phase : (walkerAt s inputs t).ptw.state = .waitGrant)
    (empty : (walkerAt s inputs t).port.pending = []) (grant : (inputs t).dataGnt = true) :
    Waits s inputs k i a g (t + 1) ∧ (walkerAt s inputs (t + 1)).ptw.state = .pteLookup ∧
      (∃ r, (walkerAt s inputs (t + 1)).port.pending = [r] ∧ r.address = pteAddress a k.va i) ∧
      (walkerAt s inputs (t + 1)).ptw.dataRvalid = false ∧
      eventsBefore s inputs (t + 1) =
        eventsBefore s inputs t ++ [.read (pteAddress a k.va i)] := by
  have noFlush := serves.noFlush t waits.inWalk
  have step : (walkerAt s inputs (t + 1)).ptw = _ :=
    next_waitGrant (walkerAt s inputs t).ptw (inputs t) phase
  rw [noFlush, grant, if_neg Bool.false_ne_true, if_pos rfl] at step
  have answers := serves.answers waits.inWalk
  obtain ⟨out, _, address, _⟩ := granted_request phase grant answers empty
  have quiet : (walkerAt s inputs (t + 1)).ptw.dataRvalid = false := answers.quiet empty
  have pointer : (request (walkerAt s inputs t) (inputs t)).address = pteAddress a k.va i := by
    rw [address, waits.descends.pointer]
  have state : (walkerAt s inputs (t + 1)).ptw.state = .pteLookup := by
    rw [step]
    rfl
  refine ⟨⟨waits.inWalk.succ ?_, ?_⟩, state, ?_, quiet, ?_⟩
  · rw [state]
    decide
  · rw [step]
    exact waits.descends.waiting .pteLookup
  · cases out with
    | pending one _ => exact ⟨_, one, pointer⟩
    | arrived _ data _ => exact absurd (data.symm.trans quiet) (by decide)
  · show eventsBefore s inputs t ++ emit (walkerAt s inputs t) (inputs t) = _
    rw [emit_waitGrant phase, grant, if_pos rfl, pointer]

/-- The entry of level `i` is requested and has not been evaluated. -/
structure Looks (s : Walker w) (inputs : Nat → Input w) (k : Task w) (i : Nat) (a : BitVec 44)
    (g : Bool) (events : List (Event w)) (t : Nat) : Prop extends Waits s inputs k i a g t where
  phase : (walkerAt s inputs t).ptw.state = .pteLookup
  outstanding : (walkerAt s inputs t).ptw.dataRvalid = false →
    ∃ r, (walkerAt s inputs t).port.pending = [r] ∧ r.address = pteAddress a k.va i
  arrived : (walkerAt s inputs t).ptw.dataRvalid = true →
    (walkerAt s inputs t).port.pending = [] ∧
      pte (walkerAt s inputs t).ptw = k.mem (pteAddress a k.va i)
  events : eventsBefore s inputs t = events

theorem Looks.step {events : List (Event w)} {t : Nat} (looks : Looks s inputs k i a g events t)
    (serves : Serves s inputs k) (noData : (walkerAt s inputs t).ptw.dataRvalid = false) :
    Looks s inputs k i a g events (t + 1) := by
  have noFlush := serves.noFlush t looks.inWalk
  have step : (walkerAt s inputs (t + 1)).ptw = _ :=
    next_pteLookup_waiting (walkerAt s inputs t).ptw (inputs t) looks.phase noData
  rw [noFlush, if_neg Bool.false_ne_true] at step
  have noGrant : granted (walkerAt s inputs t).ptw (inputs t) = false := by
    rw [granted_iff, looks.phase]
    rfl
  have pending : (walkerAt s inputs (t + 1)).port.pending =
      if (inputs t).dataRvalid then (walkerAt s inputs t).port.pending.tail
      else (walkerAt s inputs t).port.pending := by
    show (Port.next (walkerAt s inputs t) (inputs t)).pending = _
    rw [port_waiting noGrant]
  have latch : (walkerAt s inputs (t + 1)).ptw.dataRvalid = (inputs t).dataRvalid := rfl
  have value : pte (walkerAt s inputs (t + 1)).ptw = (inputs t).dataRdata := rfl
  obtain ⟨r, one, address⟩ := looks.outstanding noData
  have state : (walkerAt s inputs (t + 1)).ptw.state = .pteLookup := by
    rw [step]
    rfl
  refine ⟨⟨looks.inWalk.succ ?_, ?_⟩, state, ?_, ?_, ?_⟩
  · rw [state]
    decide
  · rw [step]
    exact looks.descends.waiting .pteLookup
  · intro waits
    rw [latch] at waits
    refine ⟨r, ?_, address⟩
    rw [pending, waits]
    exact one
  · intro arrives
    rw [latch] at arrives
    obtain ⟨first, rest, head, content⟩ := serves.content t looks.inWalk arrives
    rw [one] at head
    cases head
    refine ⟨?_, ?_⟩
    · rw [pending, arrives, one]
      rfl
    · rw [value, content, address]
  · show eventsBefore s inputs t ++ emit (walkerAt s inputs t) (inputs t) = _
    rw [emit_waiting looks.phase noData, List.append_nil]
    exact looks.events

/-- The entry of the level arrives. -/
theorem Serves.fetched (serves : Serves s inputs k) {t : Nat} (waits : Waits s inputs k i a g t)
    (phase : (walkerAt s inputs t).ptw.state = .waitGrant)
    (empty : (walkerAt s inputs t).port.pending = []) :
    ∃ v, t < v ∧ Looks s inputs k i a g
      (eventsBefore s inputs t ++ [.read (pteAddress a k.va i)]) v ∧
      (walkerAt s inputs v).ptw.dataRvalid = true := by
  obtain ⟨u, later, grant⟩ := serves.grants t waits.inWalk phase
  -- wait for the grant
  obtain ⟨v, afterT, ⟨waitsV, phaseV, emptyV, eventsV⟩, grantV⟩ :=
    @Machine.wait_until (fun v => (inputs v).dataGnt = true)
      (fun v => Waits s inputs k i a g v ∧
        (walkerAt s inputs v).ptw.state = .waitGrant ∧ (walkerAt s inputs v).port.pending = [] ∧
        eventsBefore s inputs v = eventsBefore s inputs t)
      t u ⟨waits, phase, empty, rfl⟩ later grant
      (by
        intro v _ ⟨waitsV, phaseV, emptyV, eventsV⟩ noGrant
        obtain ⟨next, state, pending, events⟩ :=
          serves.wait_grant waitsV phaseV emptyV (Bool.eq_false_iff.mpr noGrant)
        exact ⟨next, state, pending, events.trans eventsV⟩)
  obtain ⟨waitsN, phaseN, ⟨r, one, address⟩, quiet, eventsN⟩ :=
    serves.take_grant waitsV phaseV emptyV grantV
  have looks : Looks s inputs k i a g
      (eventsBefore s inputs t ++ [.read (pteAddress a k.va i)]) (v + 1) := by
    refine ⟨waitsN, phaseN, fun _ => ⟨r, one, address⟩, ?_, ?_⟩
    · intro data
      rw [quiet] at data
      exact absurd data (by decide)
    · rw [eventsN, eventsV]
  -- wait for the response
  have busy : (walkerAt s inputs (v + 1)).port.pending ≠ [] := by
    rw [one]
    exact List.cons_ne_nil r []
  obtain ⟨x, afterV, arrives⟩ := serves.responds (v + 1) waitsN.inWalk busy
  have latched : (walkerAt s inputs (x + 1)).ptw.dataRvalid = true := arrives
  obtain ⟨y, afterX, looksY, dataY⟩ :=
    @Machine.wait_until (fun y => (walkerAt s inputs y).ptw.dataRvalid = true)
      (Looks s inputs k i a g (eventsBefore s inputs t ++ [.read (pteAddress a k.va i)]))
      (v + 1) (x + 1) looks (Nat.le_succ_of_le afterV) latched
      (fun y _ looksY noData => looksY.step serves (Bool.eq_false_iff.mpr noData))
  exact ⟨y, by omega, looksY, dataY⟩

/-- The walk ends with exactly these events. -/
def Ends (s : Walker w) (inputs : Nat → Input w) (events : List (Event w)) : Prop :=
  ∃ n, 0 < n ∧ (∀ u, 0 < u → u < n → (walkerAt s inputs u).ptw.state ≠ .idle) ∧
    (walkerAt s inputs n).ptw.state = .idle ∧ eventsBefore s inputs n = events

/-- The evaluation of the entry takes one cycle. -/
theorem Looks.evaluate {events : List (Event w)} {t : Nat}
    (looks : Looks s inputs k i a g events t) (serves : Serves s inputs k)
    (data : (walkerAt s inputs t).ptw.dataRvalid = true) :
    (walkerAt s inputs (t + 1)).ptw.state =
        evaluatedState (walkerAt s inputs t).ptw (inputs t) ∧
      eventsBefore s inputs (t + 1) =
        events ++ emit (walkerAt s inputs t) (inputs t) := by
  constructor
  · show (next (walkerAt s inputs t).ptw (inputs t)).state = _
    rw [next_evaluated_state _ _ looks.phase data, serves.noFlush t looks.inWalk,
      if_neg Bool.false_ne_true]
  · show eventsBefore s inputs t ++ emit (walkerAt s inputs t) (inputs t) = _
    rw [looks.events]

theorem Looks.finish {events : List (Event w)} {t : Nat}
    (looks : Looks s inputs k i a g events t) (serves : Serves s inputs k) (bound : i ≤ 2)
    (data : (walkerAt s inputs t).ptw.dataRvalid = true)
    (installed : installs (walkerAt s inputs t).ptw (inputs t) = true) :
    Ends s inputs
      (events ++ [k.outcome (some ⟨k.mem (pteAddress a k.va i), i,
        g || (k.mem (pteAddress a k.va i)).g⟩)]) := by
  obtain ⟨state, eventsNext⟩ := looks.evaluate serves data
  have all := installed
  rw [installs, Bool.and_eq_true, Bool.and_eq_true, Bool.and_eq_true, Bool.not_eq_true'] at all
  obtain ⟨⟨⟨valid, leaf⟩, permits⟩, aligned⟩ := all
  refine ⟨t + 1, Nat.succ_pos t, ?_, ?_, ?_⟩
  · intro u positive before
    exact looks.inWalk u positive (Nat.le_of_lt_succ before)
  · rw [state, evaluatedState, if_neg (Bool.eq_false_iff.mp valid), if_pos leaf, permits, aligned]
    rfl
  · rw [eventsNext, emit_evaluated looks.phase data, if_pos installed, looks.descends.isInstr,
      looks.descends.update bound, (looks.arrived data).2]
    cases kind : k.kind <;> rw [Task.outcome, kind] <;> rfl

theorem Looks.fail {events : List (Event w)} {t : Nat}
    (looks : Looks s inputs k i a g events t) (serves : Serves s inputs k)
    (data : (walkerAt s inputs t).ptw.dataRvalid = true)
    (fails : evaluatedState (walkerAt s inputs t).ptw (inputs t) = .propagateError)
    (refused : installs (walkerAt s inputs t).ptw (inputs t) = false) :
    Ends s inputs (events ++ [k.outcome none]) := by
  obtain ⟨state, eventsNext⟩ := looks.evaluate serves data
  rw [fails] at state
  rw [emit_evaluated looks.phase data, refused, if_neg Bool.false_ne_true, List.append_nil]
    at eventsNext
  have busy : (walkerAt s inputs t).ptw.state ≠ .idle := by
    rw [looks.phase]
    decide
  have walks : InWalk s inputs (t + 1) := looks.inWalk.succ (by rw [state]; decide)
  have instr : (walkerAt s inputs (t + 1)).ptw.isInstrPtw = (k.kind == .fetch) :=
    (next_isInstrPtw _ _ busy).trans looks.descends.isInstr
  refine ⟨t + 2, Nat.succ_pos _, ?_, ?_, ?_⟩
  · intro u positive before
    exact walks u positive (Nat.le_of_lt_succ before)
  · show (next (walkerAt s inputs (t + 1)).ptw (inputs (t + 1))).state = .idle
    rw [next_propagateError _ _ state]
    rfl
  · show eventsBefore s inputs (t + 1) ++ emit (walkerAt s inputs (t + 1)) (inputs (t + 1)) = _
    rw [eventsNext, emit_error state, instr]
    rfl

theorem Looks.descend {events : List (Event w)} {t : Nat}
    (looks : Looks s inputs k (i + 1) a g events t) (serves : Serves s inputs k)
    (bound : i + 1 ≤ 2) (data : (walkerAt s inputs t).ptw.dataRvalid = true)
    (valid : (k.mem (pteAddress a k.va (i + 1))).invalid = false)
    (notLeaf : (k.mem (pteAddress a k.va (i + 1))).isLeaf = false) :
    Waits s inputs k i (k.mem (pteAddress a k.va (i + 1))).ppn
        (g || (k.mem (pteAddress a k.va (i + 1))).g) (t + 1) ∧
      (walkerAt s inputs (t + 1)).ptw.state = .waitGrant ∧
      (walkerAt s inputs (t + 1)).port.pending = [] ∧
      eventsBefore s inputs (t + 1) = events := by
  obtain ⟨empty, value⟩ := looks.arrived data
  have noFlush := serves.noFlush t looks.inWalk
  obtain ⟨state, below⟩ := looks.descends.below bound looks.phase data noFlush (value ▸ valid)
    (value ▸ notLeaf)
  rw [value] at below
  have noGrant : granted (walkerAt s inputs t).ptw (inputs t) = false := by
    rw [granted_iff, looks.phase]
    rfl
  have refused : installs (walkerAt s inputs t).ptw (inputs t) = false := by
    rw [installs, value, notLeaf, Bool.and_false]
    rfl
  have waits : (walkerAt s inputs (t + 1)).ptw.state = .waitGrant := state
  refine ⟨⟨looks.inWalk.succ (by rw [waits]; decide), below⟩, waits,
    (empty_step noGrant empty (serves.answers looks.inWalk)).1, ?_⟩
  rw [(looks.evaluate serves data).2, emit_evaluated looks.phase data, refused,
    if_neg Bool.false_ne_true, List.append_nil]

/-- An entry that is no pointer ends the walk. -/
theorem Looks.settle {events : List (Event w)} {t : Nat}
    (looks : Looks s inputs k i a g events t) (serves : Serves s inputs k) (bound : i ≤ 2)
    (data : (walkerAt s inputs t).ptw.dataRvalid = true) (later : 0 < t) :
    let p := k.mem (pteAddress a k.va i)
    (p.invalid = true → Ends s inputs (events ++ [k.outcome none])) ∧
      (p.invalid = false → p.isLeaf = true →
        Ends s inputs (events ++
          if permits k.mxr k.kind p && !Sv39.misaligned p i then
            [k.outcome (some ⟨p, i, g || p.g⟩)]
          else [k.outcome none])) := by
  intro p
  obtain ⟨_, value⟩ := looks.arrived data
  constructor
  · intro fault
    apply looks.fail serves data
    · rw [evaluatedState, value, if_pos fault]
    · rw [installs, value, show (k.mem (pteAddress a k.va i)).invalid = true from fault]
      rfl
  · intro valid leaf
    have allowed : permitted (walkerAt s inputs t).ptw (inputs t) = permits k.mxr k.kind p := by
      rw [looks.descends.permitted (inputs t) (value ▸ valid)
        (serves.store t later looks.inWalk) (serves.mxr t later looks.inWalk), value]
    have aligned : misaligned (walkerAt s inputs t).ptw = Sv39.misaligned p i := by
      rw [looks.descends.misaligned bound, value]
    have installed : installs (walkerAt s inputs t).ptw (inputs t) =
        (permits k.mxr k.kind p && !Sv39.misaligned p i) := by
      rw [installs, allowed, aligned, value,
        show (k.mem (pteAddress a k.va i)).invalid = false from valid,
        show (k.mem (pteAddress a k.va i)).isLeaf = true from leaf]
      rfl
    cases checks : permits k.mxr k.kind p && !Sv39.misaligned p i with
    | true =>
        rw [if_pos rfl]
        exact looks.finish serves bound data (installed.trans checks)
    | false =>
        rw [if_neg Bool.false_ne_true]
        apply looks.fail serves data
        · rw [evaluatedState, value, if_neg (Bool.eq_false_iff.mp valid), if_pos leaf, allowed,
            aligned, checks]
          rfl
        · exact installed.trans checks

/-- From every level the walk ends with the events of the Sv39 walk. -/
theorem Serves.walks (serves : Serves s inputs k) {t : Nat} (bound : i ≤ 2) (later : 0 < t)
    (waits : Waits s inputs k i a g t)
    (phase : (walkerAt s inputs t).ptw.state = .waitGrant)
    (empty : (walkerAt s inputs t).port.pending = []) :
    Ends s inputs (eventsBefore s inputs t ++ k.trace i a g) := by
  induction i generalizing a g t with
  | zero =>
      obtain ⟨v, after, looks, data⟩ := serves.fetched waits phase empty
      obtain ⟨_, value⟩ := looks.arrived data
      obtain ⟨fault, page⟩ := looks.settle serves bound data (Nat.lt_trans later after)
      rw [k.trace_eq, List.append_cons]
      dsimp only
      cases valid : (k.mem (pteAddress a k.va 0)).invalid with
      | true => exact fault valid
      | false =>
          cases leaf : (k.mem (pteAddress a k.va 0)).isLeaf with
          | true => exact page valid leaf
          | false =>
              -- a pointer in the last table
              apply looks.fail serves data
              · rw [evaluatedState, value, valid, leaf, looks.descends.level]
                rfl
              · rw [installs, value, leaf, Bool.and_false]
                rfl
  | succ j ih =>
      obtain ⟨v, after, looks, data⟩ := serves.fetched waits phase empty
      obtain ⟨fault, page⟩ := looks.settle serves bound data (Nat.lt_trans later after)
      rw [k.trace_eq, List.append_cons]
      dsimp only
      cases valid : (k.mem (pteAddress a k.va (j + 1))).invalid with
      | true => exact fault valid
      | false =>
          cases leaf : (k.mem (pteAddress a k.va (j + 1))).isLeaf with
          | true => exact page valid leaf
          | false =>
              obtain ⟨below, state, none, events⟩ := looks.descend serves bound data valid leaf
              have rest := ih (Nat.le_of_succ_le bound) (Nat.succ_pos v) below state none
              rw [events] at rest
              exact rest

theorem Misses.start (misses : Misses s inputs k) (serves : Serves s inputs k) :
    Waits s inputs k 2 k.root false 1 ∧ (walkerAt s inputs 1).ptw.state = .waitGrant ∧
      (walkerAt s inputs 1).port.pending = [] ∧ eventsBefore s inputs 1 = [] := by
  have idle : InWalk s inputs 0 := fun u positive bound => absurd positive (by omega)
  have noFlush := serves.noFlush 0 idle
  have noGrant : granted (walkerAt s inputs 0).ptw (inputs 0) = false := by
    rw [granted_iff, show (walkerAt s inputs 0).ptw.state = .idle from misses.idle]
    rfl
  have started : (walkerAt s inputs 1).ptw.state = .waitGrant ∧
      Descends k (walkerAt s inputs 1).ptw 2 k.root false := by
    by_cases kind : k.kind = .fetch
    · obtain ⟨miss, va⟩ := misses.fetch kind
      have step : (walkerAt s inputs 1).ptw = _ :=
        next_itlbMiss s.ptw (inputs 0) misses.idle noFlush miss
      rw [step]
      refine ⟨rfl, rfl, ?_, rfl, ?_, misses.asid.symm, va.symm⟩
      · rw [misses.root, va]
        rfl
      · rw [kind]
        rfl
    · obtain ⟨miss, va⟩ := misses.data kind
      have step : (walkerAt s inputs 1).ptw = _ :=
        next_dtlbMiss s.ptw (inputs 0) misses.idle noFlush miss
      rw [step]
      refine ⟨rfl, rfl, ?_, rfl, ?_, misses.asid.symm, va.symm⟩
      · rw [misses.root, va]
        rfl
      · exact (beq_eq_false_iff_ne.mpr kind).symm
  obtain ⟨state, descends⟩ := started
  refine ⟨⟨?_, descends⟩, state, (empty_step noGrant misses.quiet (serves.answers idle)).1, ?_⟩
  · intro u positive bound
    have one : u = 1 := by omega
    rw [one, state]
    decide
  · show ([] : List (Event w)) ++ emit s (inputs 0) = []
    rw [emit_idle misses.idle]
    rfl

end Walk

/-- For every memory content, root, address, kind of access and latency, a walk that starts with a
miss ends, after at most three reads, with exactly the reads and the outcome of the Sv39 walk: the
update of the TLB that missed, or the error. -/
theorem walk_sv39 {w : Nat} (k : Task w) (s : Walker w) (inputs : Nat → Input w)
    (misses : Misses s inputs k) (serves : Serves s inputs k) :
    (reads k.mem k.va 2 k.root).length ≤ 3 ∧
      Ends s inputs ((reads k.mem k.va 2 k.root).map .read ++
        [k.outcome (Sv39.walk k.mem k.va k.mxr k.kind k.root)]) := by
  refine ⟨Sv39.reads_length 2 k.root, ?_⟩
  obtain ⟨waits, state, empty, events⟩ := misses.start serves
  have ends := serves.walks (Nat.le_refl 2) Nat.one_pos waits state empty
  rw [events] at ends
  exact ends

/-- A load from a gigapage, granted and answered at once. -/
def gigapage : Task 1 where
  mem := fun _ => 0xcf
  kind := .load
  mxr := false
  va := 0
  asid := 0
  root := 1

def gigapageInputs : Nat → Input 1
  | 0 => missAt 0
  | 1 => grant
  | 2 => response
  | _ => {}

theorem gigapage_walks {t : Nat} (walks : InWalk {} gigapageInputs t) : t < 4 := by
  apply Classical.byContradiction
  intro late
  exact walks 4 (by decide) (Nat.le_of_not_lt late) (by decide)

theorem walk_sv39_gigapage :
    Ends {} gigapageInputs
      [.read 0x1000, .dtlb { valid := true, is1G := true, content := 0xcf }] := by
  have misses : Misses {} gigapageInputs gigapage :=
    ⟨rfl, rfl, rfl, rfl, fun fetch => absurd fetch (by decide), fun _ => ⟨by decide, rfl⟩⟩
  have serves : Serves {} gigapageInputs gigapage := by
    refine ⟨?_, ?_, ?_, ?_, ?_, ?_⟩ <;> intro t
    · intro walks
      have bound := gigapage_walks walks
      interval_cases t <;> rfl
    · intro _ walks _
      have bound := gigapage_walks walks
      interval_cases t <;> rfl
    · intro _ walks
      have bound := gigapage_walks walks
      interval_cases t <;> rfl
    · intro walks arrives
      have bound := gigapage_walks walks
      interval_cases t
      · exact absurd arrives (by decide)
      · exact absurd arrives (by decide)
      · exact ⟨⟨0, 0x1000⟩, [], by decide, rfl⟩
      · exact absurd arrives (by decide)
    · intro walks state
      have bound := gigapage_walks walks
      interval_cases t
      · exact absurd state (by decide)
      · exact ⟨1, Nat.le_refl 1, rfl⟩
      · exact absurd state (by decide)
      · exact absurd state (by decide)
    · intro walks busy
      have bound := gigapage_walks walks
      interval_cases t
      · exact absurd (by decide) busy
      · exact absurd (by decide) busy
      · exact ⟨2, Nat.le_refl 2, rfl⟩
      · exact absurd (by decide) busy
  exact (walk_sv39 gigapage {} gigapageInputs misses serves).2

end Ariane.Ptw
