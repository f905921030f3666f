import Ariane.DmiJtag

set_option autoImplicit false

/- The debug transport module behind its clock crossing: requests and responses travel in order
and with any delay, and every request is answered once. -/
namespace Ariane.DmiJtag

open Rtl (Machine)
open Dm (DmiReq dtmRead dtmWrite)

/-- A response, with the number of the request that it belongs to. -/
structure Response where
  index : Nat
  data : BitVec 32
  deriving DecidableEq

/-- The registers and what is under way, with the history of the session: the updates of the
debugger, the requests that the crossing took, and whether nothing else was under way when it
took the last one. -/
structure Link where
  jtag : State := { passChk := true }
  requests : List Nat := []
  responses : List Response := []
  issued : List DmiReq := []
  updates : List DmiReq := []
  clean : Bool := true

/-- One edge of the test clock: the pads, the crossing, and what the debug module answered since
the edge before. -/
structure LinkInput where
  tms : Bool := false
  tdi : Bool := false
  reqReady : Bool := false
  deliver : Bool := false
  served : List (BitVec 32) := []

section Cycle

variable (s : Link) (i : LinkInput)

/-- The responses that are under way. -/
def arrived : List Response := s.responses ++ List.zipWith Response.mk s.requests i.served

/-- `dmi_resp`, when it is valid. It is always taken. -/
def response : Option Response := if i.deliver then (arrived s i).head? else none

def pads : Input where
  tms := i.tms
  tdi := i.tdi
  dmiReqReady := i.reqReady
  dmiRespValid := (response s i).isSome
  dmiResp := ((response s i).map Response.data).getD 0

/-- The crossing takes the request. -/
def handsOver : Bool := dmiReqValid s.jtag && i.reqReady

def keptResponses : List Response :=
  if (response s i).isSome then (arrived s i).tail else arrived s i

def keptRequests : List Nat :=
  s.requests.drop i.served.length ++ if handsOver s i then [s.issued.length] else []

/-- An access of the debugger. -/
def update : List DmiReq :=
  if s.jtag.tap.updateDr && s.jtag.tap.dmiAccess &&
      ((dmi s.jtag).op == dtmRead || (dmi s.jtag).op == dtmWrite) then
    [⟨(dmi s.jtag).address, (dmi s.jtag).op, (dmi s.jtag).data⟩]
  else []

def link : Link where
  jtag := clock s.jtag (pads s i)
  requests := keptRequests s i
  responses := keptResponses s i
  issued := s.issued ++ if handsOver s i then [dmiReq s.jtag] else []
  updates := s.updates ++ update s
  clean :=
    if handsOver s i then (keptResponses s i).length + (keptRequests s i).length == 1
    else s.clean

/-- A read gets its data. -/
def completes : Bool := s.jtag.fsm == .waitReadValid && (response s i).isSome

/-- The data are the answer to that read, which is the last request. -/
def ownAnswer : Bool :=
  (response s i).any fun r =>
    r.index + 1 == s.issued.length && s.issued[r.index]?.map DmiReq.op == some dtmRead &&
      (link s i).jtag.data == r.data

end Cycle

/-- The request that the machine is offering. -/
def offered (s : State) : List DmiReq := if dmiReqValid s then [dmiReq s] else []

/-- Every access was handed over once and in order, except the one that is offered. -/
def Performed (s : Link) : Prop := s.updates = s.issued ++ offered s.jtag

/-- An unlocked session that starts at `s`. -/
def session (s : Link) : Machine Link LinkInput := ⟨s, link⟩

/-- The start of a session: unlocked, idle, without an error and with nothing under way. -/
structure Unlocked (s : Link) : Prop where
  passChk : s.jtag.passChk = true
  fsm : s.jtag.fsm = .idle
  requests : s.requests = []
  responses : s.responses = []
  issued : s.issued = []
  updates : s.updates = []

/-- No busy error is reported. -/
def NoError (s : Link) (inputs : List LinkInput) : Prop :=
  s.jtag.error = dmiNoError ∧
    (session s).Legal (fun s _ => nextError s.jtag = dmiNoError) s inputs

/-- The requests that have no response yet, oldest first. -/
def outstanding (s : Link) : List Nat := s.responses.map Response.index ++ s.requests

/-- The numbers `queue` are the last ones below `count`, in order. -/
structure Latest (count : Nat) (queue : List Nat) : Prop where
  bounded : queue.length ≤ count
  range : queue = List.range' (count - queue.length) queue.length

theorem Latest.drop {count : Nat} {queue : List Nat} (latest : Latest count queue) (m : Nat)
    (inside : m ≤ queue.length) : Latest count (queue.drop m) := by
  have bounded := latest.bounded
  constructor
  · rw [List.length_drop]
    omega
  · rw [List.length_drop]
    calc queue.drop m
        = (List.range' (count - queue.length) queue.length).drop m := by rw [← latest.range]
      _ = List.range' (count - (queue.length - m)) (queue.length - m) := by
        rw [List.drop_range', Nat.mul_one]
        congr 1
        omega

theorem Latest.push {count : Nat} {queue : List Nat} (latest : Latest count queue) :
    Latest (count + 1) (queue ++ [count]) := by
  have bounded := latest.bounded
  have length : (queue ++ [count]).length = queue.length + 1 := List.length_append
  constructor
  · omega
  · rw [length, List.range'_1_concat]
    have first : count + 1 - (queue.length + 1) = count - queue.length := by omega
    have last : count - queue.length + queue.length = count := by omega
    rw [first, last, ← latest.range]

/-- What every session keeps: the outstanding requests are the last ones, and while the machine
waits for a read it was the last request, alone if it was handed over clean. -/
structure InOrder (s : Link) : Prop where
  last : Latest s.issued.length (outstanding s)
  waiting : s.jtag.fsm = .waitReadValid →
    (s.clean = true ↔ (outstanding s).length = 1) ∧ 0 < (outstanding s).length ∧
      s.issued.getLast?.map DmiReq.op = some dtmRead

section Step

variable {s : Link} {i : LinkInput}

theorem map_index_zipWith (requests : List Nat) (served : List (BitVec 32)) :
    (List.zipWith Response.mk requests served).map Response.index =
      requests.take served.length := by
  induction requests generalizing served with
  | nil => simp
  | cons request rest ih =>
      cases served with
      | nil => rfl
      | cons data served => simp only [List.zipWith_cons_cons, List.map_cons, ih, List.length_cons,
          List.take_succ_cons]

theorem arrived_outstanding (s : Link) (i : LinkInput) :
    (arrived s i).map Response.index ++ s.requests.drop i.served.length = outstanding s := by
  rw [arrived, List.map_append, map_index_zipWith, List.append_assoc, List.take_append_drop]
  rfl

/-- A response leaves at the front, a request enters at the back. -/
theorem outstanding_link (s : Link) (i : LinkInput) :
    outstanding (link s i) = (outstanding s).drop (response s i).toList.length ++
      if handsOver s i then [s.issued.length] else [] := by
  have before := arrived_outstanding s i
  show (keptResponses s i).map Response.index ++ keptRequests s i = _
  rw [keptRequests, ← List.append_assoc, ← before]
  congr 1
  cases answer : response s i with
  | none =>
      rw [keptResponses, answer]
      rfl
  | some r =>
      have nonempty : arrived s i ≠ [] := by
        intro empty
        rw [response, empty] at answer
        simp at answer
      obtain ⟨first, rest, split⟩ := List.exists_cons_of_ne_nil nonempty
      rw [keptResponses, answer, split]
      rfl

/-- The response is the oldest one. -/
theorem response_first {r : Response} (answer : response s i = some r) :
    (outstanding s).head? = some r.index := by
  rw [← arrived_outstanding s i]
  unfold response at answer
  split at answer
  · obtain ⟨rest, split⟩ := List.head?_eq_some_iff.mp answer
    rw [split]
    rfl
  · cases answer

theorem taken_le (s : Link) (i : LinkInput) :
    (response s i).toList.length ≤ (outstanding s).length := by
  cases answer : response s i with
  | none => exact Nat.zero_le _
  | some r =>
      have first := response_first answer
      cases queue : outstanding s with
      | nil => rw [queue] at first; cases first
      | cons head rest => exact Nat.succ_le_succ (Nat.zero_le _)

/-- The machine waits because a read was handed over, or because no response came. -/
theorem nextFsm_waits (waits : nextFsm s.jtag (pads s i) = .waitReadValid) :
    (s.jtag.fsm = .read ∧ handsOver s i = true) ∨
      (s.jtag.fsm = .waitReadValid ∧ handsOver s i = false ∧ response s i = none) := by
  cases state : s.jtag.fsm with
  | idle => simp only [nextFsm, state] at waits; grind
  | read =>
      simp only [nextFsm, state] at waits
      refine .inl ⟨rfl, ?_⟩
      simp only [handsOver, dmiReqValid, state]
      grind [pads]
  | waitReadValid =>
      simp only [nextFsm, state] at waits
      refine .inr ⟨rfl, ?_, ?_⟩
      · simp only [handsOver, dmiReqValid, state]
        rfl
      · split at waits
        · cases waits
        · rename_i silent
          exact Option.not_isSome_iff_eq_none.mp silent
  | write => simp only [nextFsm, state] at waits; grind
  | waitWriteValid => simp only [nextFsm, state] at waits; grind

theorem Latest.link (latest : Latest s.issued.length (outstanding s)) :
    Latest (link s i).issued.length (outstanding (link s i)) := by
  have dropped := latest.drop (response s i).toList.length (taken_le s i)
  rw [outstanding_link]
  by_cases hands : handsOver s i
  · have issued : (DmiJtag.link s i).issued.length = s.issued.length + 1 := by
      simp only [DmiJtag.link, hands, ↓reduceIte, List.length_append, List.length_singleton]
    rw [issued, if_pos hands]
    exact dropped.push
  · have issued : (DmiJtag.link s i).issued.length = s.issued.length := by
      simp only [DmiJtag.link, hands, Bool.false_eq_true, ↓reduceIte, List.append_nil]
    rw [issued, if_neg hands, List.append_nil]
    exact dropped

theorem InOrder.step (inOrder : InOrder s) (i : LinkInput) : InOrder (link s i) := by
  refine ⟨inOrder.last.link, fun waits => ?_⟩
  have shape := outstanding_link s i
  obtain ⟨state, hands⟩ | ⟨state, quiet, none⟩ := nextFsm_waits waits
  · have total : (outstanding (link s i)).length =
        (keptResponses s i).length + (keptRequests s i).length := by
      rw [outstanding, List.length_append, List.length_map]
      rfl
    have clean : (link s i).clean = ((outstanding (link s i)).length == 1) := by
      rw [total]
      simp only [link, hands, ↓reduceIte]
    have issued : (link s i).issued = s.issued ++ [dmiReq s.jtag] := by
      simp only [link, hands, ↓reduceIte]
    refine ⟨by rw [clean, beq_iff_eq], ?_, ?_⟩
    · rw [shape, hands, List.length_append]
      exact Nat.succ_pos _
    · rw [issued, List.getLast?_concat]
      simp only [dmiReq, state, Option.map_some, reduceCtorEq, ↓reduceIte]
  · have same : outstanding (link s i) = outstanding s := by
      rw [shape, none, quiet]
      exact List.append_nil _
    have clean : (link s i).clean = s.clean := by
      simp only [link, quiet, Bool.false_eq_true, ↓reduceIte]
    have issued : (link s i).issued = s.issued := by
      simp only [link, quiet, Bool.false_eq_true, ↓reduceIte, List.append_nil]
    rw [same, clean, issued]
    exact inOrder.waiting state

/-- A read that completes gets its own answer exactly if it was handed over clean. -/
theorem InOrder.ownAnswer_iff (inOrder : InOrder s) (done : completes s i = true) :
    ownAnswer s i = true ↔ s.clean = true := by
  obtain ⟨state, some⟩ : s.jtag.fsm = .waitReadValid ∧ (response s i).isSome = true := by
    simpa only [completes, Bool.and_eq_true, beq_iff_eq] using done
  obtain ⟨r, answer⟩ := Option.isSome_iff_exists.mp some
  obtain ⟨clean, nonempty, last⟩ := inOrder.waiting state
  have bounded := inOrder.last.bounded
  have oldest : r.index = s.issued.length - (outstanding s).length := by
    have first := response_first answer
    rw [inOrder.last.range, List.head?_range', if_neg (by omega)] at first
    exact (Option.some.inj first).symm
  have data : (link s i).jtag.data = r.data := by
    show nextData s.jtag (pads s i) = r.data
    have busy : accepts s.jtag = false := by
      rw [accepts, state]
      rfl
    simp only [nextData, busy, state, pads, answer]
    rfl
  rw [List.getLast?_eq_getElem?] at last
  rw [ownAnswer, answer, clean]
  simp only [Option.any_some, data, beq_self_eq_true, Bool.and_true, Bool.and_eq_true, beq_iff_eq]
  constructor
  · intro own
    omega
  · intro alone
    have index : r.index = s.issued.length - 1 := by omega
    refine ⟨by omega, ?_⟩
    rw [index]
    exact last

/-- While no error is reported, an update meets an idle machine. -/
theorem update_idle (noError : nextError s.jtag = dmiNoError)
    (before : s.jtag.error = dmiNoError) {u : DmiReq} (updated : update s = [u]) :
    accepts s.jtag = true ∧ ((dmi s.jtag).op = dtmRead ∨ (dmi s.jtag).op = dtmWrite) ∧
      u = ⟨(dmi s.jtag).address, (dmi s.jtag).op, (dmi s.jtag).data⟩ := by
  have other : irDmiaccess ≠ irDtmcsr := by decide
  have busy : dmiBusy ≠ dmiNoError := by decide
  simp only [update] at updated
  simp only [nextError, errorDmiBusy, Tap.dtmcsSelect, Tap.dmiAccess] at noError updated
  simp only [accepts, before, Tap.dmiAccess]
  grind

/-- What holds as long as no error is reported. -/
structure Accurate (s : Link) : Prop where
  passChk : s.jtag.passChk = true
  error : s.jtag.error = dmiNoError
  performed : Performed s

/-- The offered request after one edge: what was updated, or what the crossing did not take. -/
theorem Accurate.offered (accurate : Accurate s) (noError : nextError s.jtag = dmiNoError)
    (i : LinkInput) :
    DmiJtag.offered s.jtag ++ update s =
      (if handsOver s i then [dmiReq s.jtag] else []) ++ DmiJtag.offered (link s i).jtag := by
  have next : (link s i).jtag = clock s.jtag (pads s i) := rfl
  cases updates : update s with
  | cons u rest =>
      have alone : rest = [] := by
        simp only [update] at updates
        grind
      rw [alone] at updates ⊢
      obtain ⟨accepted, op, request⟩ := update_idle noError accurate.error updates
      have idle : s.jtag.fsm = .idle := by
        simp only [accepts, Bool.and_eq_true, beq_iff_eq] at accepted
        exact accepted.1.1.1
      have passChk := accurate.passChk
      have distinct : dtmRead ≠ dtmWrite := by decide
      simp only [next, DmiJtag.offered, handsOver, dmiReqValid, dmiReq, clock, nextFsm, nextData,
        idle, accepted, passChk, request]
      grind
  | nil =>
      have nothing : accepts s.jtag = true →
          (dmi s.jtag).op ≠ dtmRead ∧ (dmi s.jtag).op ≠ dtmWrite := by
        intro accepted
        simp only [accepts, Bool.and_eq_true] at accepted
        simp only [update] at updates
        grind
      rw [List.append_nil, next]
      cases state : s.jtag.fsm with
      | idle =>
          have still : nextFsm s.jtag (pads s i) = .idle := by
            simp only [nextFsm, state]
            grind
          simp only [DmiJtag.offered, handsOver, dmiReqValid, clock, state, still]
          rfl
      | read | write | waitReadValid | waitWriteValid =>
          have busy : accepts s.jtag = false := by
            simp only [accepts, state]
            rfl
          simp only [DmiJtag.offered, handsOver, dmiReqValid, dmiReq, clock, nextFsm, nextData,
            busy, state, pads]
          grind

theorem Accurate.step (accurate : Accurate s) (i : LinkInput)
    (noError : nextError s.jtag = dmiNoError) : Accurate (link s i) := by
  refine ⟨?_, noError, ?_⟩
  · show (s.jtag.passChk || unlocks s.jtag) = true
    rw [accurate.passChk, Bool.true_or]
  · have before : s.updates = s.issued ++ DmiJtag.offered s.jtag := accurate.performed
    have moved := accurate.offered noError i
    show s.updates ++ update s = (s.issued ++ _) ++ DmiJtag.offered (link s i).jtag
    rw [before, List.append_assoc, moved, List.append_assoc]

end Step

section Session

variable {s : Link} (start : Unlocked s) (inputs : List LinkInput)

include start

theorem Unlocked.inOrder : InOrder ((session s).run inputs) := by
  have first : InOrder s := by
    have empty : outstanding s = [] := by
      rw [outstanding, start.responses, start.requests]
      rfl
    refine ⟨?_, fun waits => ?_⟩
    · rw [empty]
      exact ⟨Nat.zero_le _, rfl⟩
    · rw [start.fsm] at waits
      cases waits
  exact (session s).run_invariant first (fun t i inOrder _ => inOrder.step i)
    ((session s).legal_true s inputs)

theorem Unlocked.performed (noError : NoError s inputs) :
    Performed ((session s).run inputs) := by
  have first : Accurate s := by
    refine ⟨start.passChk, noError.1, ?_⟩
    rw [Performed, start.updates, start.issued, offered, dmiReqValid, start.fsm]
    rfl
  exact ((session s).run_invariant first (fun t i accurate quiet => accurate.step i quiet)
    noError.2).performed

end Session

/-- In every unlocked session, a read that completes has its own answer exactly if nothing else
was under way when it was handed over; and without a busy error every access was performed once
and in order. -/
theorem read_answered_iff_clean (s : Link) (start : Unlocked s) (inputs : List LinkInput)
    (i : LinkInput) (done : completes ((session s).run inputs) i = true) :
    (ownAnswer ((session s).run inputs) i = true ∧
        (NoError s inputs → Performed ((session s).run inputs))) ↔
      ((session s).run inputs).clean = true := by
  have own := (start.inOrder inputs).ownAnswer_iff done
  constructor
  · intro answered
    exact own.mp answered.1
  · intro clean
    exact ⟨own.mpr clean, start.performed inputs⟩

/-- The crossing takes every request and delivers no response. -/
def scans (bits : List Bits) : List LinkInput :=
  bits.map fun b => { tms := b.tms, tdi := b.tdi, reqReady := true }

/-- A read of register 5, until the crossing has it. -/
def readOnly : List LinkInput :=
  scans (selectDmi ++ scanDr (5#7 ++ 0#32 ++ dtmRead) ++ [{ tms := false }, { tms := false }])

/-- A write of register 4 and a read of register 5, while the responses are slow. -/
def writeThenRead : List LinkInput :=
  scans (selectDmi ++ scanDr (4#7 ++ 7#32 ++ dtmWrite) ++ scanDr (5#7 ++ 0#32 ++ dtmRead) ++
    [{ tms := false }, { tms := false }])

theorem unlocked_default : Unlocked {} := ⟨rfl, rfl, rfl, rfl, rfl, rfl⟩

theorem read_answered_alone :
    (ownAnswer ((session {}).run readOnly) { deliver := true, served := [22] } = true ∧
        (NoError {} readOnly → Performed ((session {}).run readOnly))) ↔
      ((session {}).run readOnly).clean = true :=
  read_answered_iff_clean {} unlocked_default readOnly { deliver := true, served := [22] }
    (by decide +kernel)

/-- The read takes the response of the write before it. -/
theorem write_answers_read :
    ¬ ∀ (s : Link) (inputs : List LinkInput) (i : LinkInput), Unlocked s →
      completes ((session s).run inputs) i = true →
      ownAnswer ((session s).run inputs) i = true := by
  intro always
  have own := always {} writeThenRead { deliver := true, served := [11, 22] } unlocked_default
    (by decide +kernel)
  have foreign : ownAnswer ((session {}).run writeThenRead)
      { deliver := true, served := [11, 22] } = false := by
    decide +kernel
  rw [foreign] at own
  exact absurd own (by decide)

end Ariane.DmiJtag
