import Ariane.LoadUnit

set_option autoImplicit false

/- Loads that go through `lsu_bypass` to the load unit, and the answers that they get. -/
namespace Ariane.LoadUnit

open Rtl (Machine Queue)
open Rtl.Queue (Represents)

/-- A load with its place in the sequence of loads. -/
structure Load where
  number : Nat
  ctrl : LsuCtrl
  deriving DecidableEq

/-- What the load unit keeps about a load. -/
def Load.data (l : Load) : LoadData where
  transId := l.ctrl.transId
  addressOffset := l.ctrl.vaddr.extractLsb' 0 3
  operator := l.ctrl.operator

/-- The circuit and the history of its ports. -/
structure System where
  bypass : Queue LsuCtrl := LsuBypass.emptyQueue
  unit : State := {}
  /-- `ready_o` in the last cycle. -/
  ready : Bool := true
  /-- The number of loads presented so far. -/
  count : Nat := 0
  /-- The loads in `lsu_bypass`. -/
  queued : List Load := []
  /-- The load whose request the data cache granted and neither answered nor saw killed. -/
  requested : Option Load := none
  /-- The load that was last translated. -/
  asked : Option Load := none
  /-- The loads presented since the last flush and not answered. -/
  unanswered : List Load := []

/-- The inputs of one cycle. -/
structure SystemInput where
  flush : Bool := false
  req : LsuCtrl := {}
  ex : Exception := {}
  dtlbHit : Bool := false
  pageOffsetMatches : Bool := false
  dataGnt : Bool := false
  dataRvalid : Bool := false
  dataRdata : BitVec 64 := 0

namespace System

variable (s : System) (i : SystemInput)

/-- The load that arrives. -/
def presented : List Load := if i.req.valid then [⟨s.count, i.req⟩] else []

/-- The loads that wait for the load unit. -/
def waiting : List Load := s.queued ++ s.presented i

/-- The load at the load unit. -/
def head : Option Load := (s.waiting i).head?

/-- The inputs of `lsu_bypass` apart from the pops. -/
def bypassInput : LsuBypass.Input where
  flush := i.flush
  lsuReq := i.req

/-- The inputs of the load unit. `which_op` lets it see only loads. -/
def unitInput : Input where
  flush := i.flush
  valid := (LsuBypass.lsuCtrl s.bypass (bypassInput i)).fu == .load &&
    (LsuBypass.lsuCtrl s.bypass (bypassInput i)).valid
  lsuCtrl := LsuBypass.lsuCtrl s.bypass (bypassInput i)
  ex := i.ex
  dtlbHit := i.dtlbHit
  pageOffsetMatches := i.pageOffsetMatches
  dataGnt := i.dataGnt
  dataRvalid := i.dataRvalid
  dataRdata := i.dataRdata

/-- The outputs of the load unit. -/
def control : Control := loadControl s.unit (s.unitInput i)

/-- The inputs of `lsu_bypass`. -/
def bypassPops : LsuBypass.Input := { bypassInput i with popLd := (s.control i).popLd }

/-- A load is answered. -/
def answers : Bool := valid s.unit (s.unitInput i)

/-- Whose answer it is: the exception belongs to the load that was translated, the data to the load
that was requested. -/
def answered : Option Load := if i.ex.valid then s.asked else s.requested

/-- The loads that are still without an answer. -/
def remaining : List Load :=
  match s.answered i with
  | some l => if s.answers i then s.unanswered.erase l else s.unanswered
  | none => s.unanswered

/-- One cycle. -/
def next : System where
  bypass := LsuBypass.next s.bypass (s.bypassPops i)
  unit := LoadUnit.next s.unit (s.unitInput i)
  ready := LsuBypass.ready s.bypass
  count := s.count + (s.presented i).length
  queued :=
    if i.flush then []
    else if (s.control i).popLd then (s.waiting i).tail
    else s.waiting i
  requested :=
    if i.dataGnt then s.head i
    else if i.dataRvalid || (s.control i).killReq then none
    else s.requested
  asked := if (s.control i).translationReq then s.head i else s.asked
  unanswered := if i.flush then [] else s.remaining i ++ s.presented i

end System

def system : Machine System SystemInput := ⟨{}, System.next⟩

section Contracts

variable (s : System) (i : SystemInput)

/-- The neighbours: the issue stage sends loads to a unit that was ready, the data cache grants one
request at a time and answers granted requests. In the cycle of a kill it may answer at once. -/
structure Ports : Prop where
  ready : i.req.valid = true → s.ready = true
  load : i.req.valid = true → i.req.fu = .load
  granted : i.dataGnt = true → (s.control i).dataReq = true
  single : i.dataGnt = true → s.requested = none ∨ i.dataRvalid = true
  answers : i.dataRvalid = true → (s.control i).killReq = true ∨ s.requested ≠ none

/-- On an exception the load unit kills its request in this state. -/
def System.Kills : Prop := s.unit.state = .sendTag ∨ s.unit.state = .waitFlush

/-- A translation exception finds the data cache quiet: it grants nothing and answers nothing but
the kill, and the load at the load unit is the one that was translated. After a flush no load may
be there. -/
structure Undisturbed : Prop where
  noGrant : i.ex.valid = true → i.flush = false → i.dataGnt = false
  killed : i.ex.valid = true → s.Kills →
    i.dataRvalid = true ∨ s.unit.state = .waitFlush ∧ s.head i = none
  quiet : i.ex.valid = true → ¬ s.Kills → i.dataRvalid = false
  asker : i.ex.valid = true → ¬ s.Kills → s.head i ≠ none → s.head i = s.asked

instance : Decidable s.Kills := inferInstanceAs (Decidable (_ ∨ _))

instance decidablePorts : Decidable (Ports s i) :=
  decidable_of_iff
    ((i.req.valid = true → s.ready = true) ∧ (i.req.valid = true → i.req.fu = .load) ∧
      (i.dataGnt = true → (s.control i).dataReq = true) ∧
      (i.dataGnt = true → s.requested = none ∨ i.dataRvalid = true) ∧
      (i.dataRvalid = true → (s.control i).killReq = true ∨ s.requested ≠ none))
    ⟨fun ⟨ready, load, granted, single, answers⟩ => ⟨ready, load, granted, single, answers⟩,
      fun ports => ⟨ports.ready, ports.load, ports.granted, ports.single, ports.answers⟩⟩

instance decidableUndisturbed : Decidable (Undisturbed s i) :=
  decidable_of_iff
    ((i.ex.valid = true → i.flush = false → i.dataGnt = false) ∧
      (i.ex.valid = true → s.Kills →
        i.dataRvalid = true ∨ s.unit.state = .waitFlush ∧ s.head i = none) ∧
      (i.ex.valid = true → ¬ s.Kills → i.dataRvalid = false) ∧
      (i.ex.valid = true → ¬ s.Kills → s.head i ≠ none → s.head i = s.asked))
    ⟨fun ⟨noGrant, killed, quiet, asker⟩ => ⟨noGrant, killed, quiet, asker⟩,
      fun calm => ⟨calm.noGrant, calm.killed, calm.quiet, calm.asker⟩⟩

/-- The answer of a cycle: it carries the identity of a load that waits for one, an exception is
the load's own, and data is the result of the load's own request, in order. -/
def Right : Prop :=
  s.answers i = true → ∃ l, s.answered i = some l ∧ l ∈ s.unanswered ∧
    transId s.unit (s.unitInput i) = l.ctrl.transId ∧
      (i.ex.valid = false → s.unanswered.head? = some l ∧
        result s.unit (s.unitInput i) = loadResult l.data i.dataRdata)

/-- The loads whose requests the load unit does not give up. -/
def System.inFlight : List Load :=
  if s.unit.state = .abortTransaction ∨ s.unit.state = .waitFlush then [] else s.requested.toList

/-- Every load that waits for an answer has been requested or is in `lsu_bypass`. -/
structure Held : Prop where
  unanswered : s.unanswered = s.inFlight ++ s.queued
  queued : Represents 2 LsuCtrl.valid s.bypass (s.queued.map Load.ctrl)

end Contracts

/-- What holds between two cycles. -/
structure Inv (s : System) : Prop where
  held : Held s
  loads : ∀ l ∈ s.queued, l.ctrl.fu = .load ∧ l.number < s.count
  room : s.ready = true → s.queued.length ≤ 1
  prepared : Prepared s.unit
  busy : Busy s.unit.state → s.queued ≠ []
  own : ∀ l, s.requested = some l → s.unit.state ≠ .abortTransaction → s.unit.state ≠ .waitFlush →
    s.unit.loadData = l.data
  translated : s.unit.state = .sendTag → s.requested ≠ none ∧ s.asked = s.requested
  translating : s.unit.state = .waitTranslation → s.requested = none
  asked : ∀ l, s.asked = some l → l.number < s.count

section Cycle

variable {s : System} {i : SystemInput}

theorem waiting_map :
    (s.waiting i).map Load.ctrl =
      LsuBypass.waiting (s.queued.map Load.ctrl) (System.bypassInput i) := by
  rw [System.waiting, System.presented, LsuBypass.waiting, List.map_append]
  cases valid : i.req.valid <;> rw [System.bypassInput, valid] <;> rfl

theorem Inv.lsuCtrl (inv : Inv s) {h : Load} {rest : List Load}
    (oldest : s.waiting i = h :: rest) : (s.unitInput i).lsuCtrl = h.ctrl := by
  have mapped := waiting_map (s := s) (i := i)
  rw [oldest] at mapped
  exact LsuBypass.lsuCtrl_head inv.held.queued mapped.symm

/-- Every waiting load is a load, and it is older than those to come. -/
theorem Inv.member (inv : Inv s) (ports : Ports s i) {l : Load} (member : l ∈ s.waiting i) :
    l.ctrl.fu = .load ∧ l.number < s.count + (s.presented i).length := by
  rw [System.waiting, List.mem_append] at member
  rcases member with old | new
  · obtain ⟨load, number⟩ := inv.loads l old
    exact ⟨load, Nat.lt_of_lt_of_le number (Nat.le_add_right _ _)⟩
  · rw [System.presented] at new ⊢
    cases valid : i.req.valid with
    | false =>
        rw [valid] at new
        cases new
    | true =>
        rw [valid, if_pos rfl, List.mem_singleton] at new
        rw [new]
        exact ⟨ports.load valid, Nat.lt_succ_self _⟩

theorem Inv.valid (inv : Inv s) (ports : Ports s i) :
    (s.unitInput i).valid = true ↔ s.waiting i ≠ [] := by
  have seen := LsuBypass.lsuCtrl_valid (i := System.bypassInput i) inv.held.queued
  rw [← waiting_map, Ne, List.map_eq_nil_iff] at seen
  show (_ && _) = true ↔ _
  rw [Bool.and_eq_true]
  constructor
  · intro both
    exact seen.mp both.2
  · intro some
    refine ⟨?_, seen.mpr some⟩
    obtain ⟨h, rest, oldest⟩ := List.exists_cons_of_ne_nil some
    have member : h ∈ s.waiting i := oldest ▸ List.mem_cons_self
    have ctrl : LsuBypass.lsuCtrl s.bypass (System.bypassInput i) = h.ctrl :=
      inv.lsuCtrl oldest
    rw [ctrl, (inv.member ports member).1]
    rfl

theorem Inv.waits (inv : Inv s) (busy : Busy s.unit.state) : s.waiting i ≠ [] := by
  intro none
  rw [System.waiting, List.append_eq_nil_iff] at none
  exact inv.busy busy none.1

/-- The data cache grants only a request of a waiting load. -/
theorem Inv.grant (inv : Inv s) (ports : Ports s i) (gnt : i.dataGnt = true) :
    Granted (s.unitInput i) (stateControl s.unit (s.unitInput i)) ∧ s.waiting i ≠ [] ∧
      s.unit.state ≠ .abortTransaction ∧ s.unit.state ≠ .waitFlush ∧
      s.unit.state ≠ .waitTranslation := by
  have req : (stateControl s.unit (s.unitInput i)).dataReq = true :=
    loadControl_dataReq.symm.trans (ports.granted gnt)
  obtain ⟨granted, here, phases⟩ := stateControl_granted req gnt
  refine ⟨granted, ?_, phases⟩
  rcases here with here | here
  · exact (inv.valid ports).mp here
  · exact inv.waits here

theorem Inv.pops (inv : Inv s) (ports : Ports s i) (pop : (s.control i).popLd = true) :
    s.waiting i ≠ [] := by
  rcases loadControl_popLd pop with pop | valid
  · cases gnt : i.dataGnt with
    | true => exact (inv.grant ports gnt).2.1
    | false =>
        have waits := stateControl_waiting (q := s.unit) (i := s.unitInput i) gnt
        exact absurd (waits.pop.symm.trans pop) Bool.false_ne_true
  · exact (inv.valid ports).mp valid

theorem queued_subset {l : Load} (member : l ∈ (s.next i).queued) : l ∈ s.waiting i := by
  have queued : (s.next i).queued = if i.flush then [] else
      if (s.control i).popLd then (s.waiting i).tail else s.waiting i := rfl
  rw [queued] at member
  cases flush : i.flush <;> rw [flush] at member
  · cases pop : (s.control i).popLd <;> rw [pop] at member
    · exact member
    · exact List.mem_of_mem_tail member
  · cases member

theorem Inv.bypass_next (inv : Inv s) (ports : Ports s i) :
    Represents 2 LsuCtrl.valid (s.next i).bypass ((s.next i).queued.map Load.ctrl) := by
  have room : i.req.valid = true → (s.queued.map Load.ctrl).length ≤ 1 := by
    intro valid
    rw [List.length_map]
    exact inv.room (ports.ready valid)
  have pops : (false || (s.control i).popLd) = true →
      LsuBypass.waiting (s.queued.map Load.ctrl) (s.bypassPops i) ≠ [] := by
    intro pop none
    apply inv.pops ports pop
    rw [← List.map_eq_nil_iff (f := Load.ctrl), waiting_map]
    exact none
  have rep := LsuBypass.next_represents (i := s.bypassPops i) inv.held.queued room
    (Bool.false_and _) pops
  have queued : (s.next i).queued.map Load.ctrl = if i.flush then [] else
      if (s.control i).popLd then ((s.waiting i).map Load.ctrl).tail
      else (s.waiting i).map Load.ctrl := by
    show (if i.flush then [] else
      if (s.control i).popLd then (s.waiting i).tail else s.waiting i).map Load.ctrl = _
    cases i.flush <;> cases (s.control i).popLd
    · rfl
    · exact List.map_tail
    · rfl
    · rfl
  rw [queued, waiting_map]
  exact rep

theorem Inv.room_next (inv : Inv s) (ready : (s.next i).ready = true) :
    (s.next i).queued.length ≤ 1 := by
  have empty : s.queued = [] := by
    have count : s.bypass.count = 0 := eq_of_beq ready
    exact List.map_eq_nil_iff.mp (inv.held.queued.count_zero.mp count)
  have small : (s.waiting i).length ≤ 1 := by
    rw [System.waiting, empty, System.presented]
    cases i.req.valid
    · exact Nat.zero_le 1
    · exact Nat.le_refl 1
  show (if i.flush then [] else
    if (s.control i).popLd then (s.waiting i).tail else s.waiting i).length ≤ 1
  cases i.flush <;> cases (s.control i).popLd
  · exact small
  · rw [if_neg Bool.false_ne_true, if_pos rfl, List.length_tail]
    exact Nat.le_trans (Nat.sub_le _ _) small
  · exact Nat.zero_le 1
  · exact Nat.zero_le 1

theorem Inv.asked_next (inv : Inv s) (ports : Ports s i) {l : Load}
    (asked : (s.next i).asked = some l) : l.number < (s.next i).count := by
  have asked' : (if (s.control i).translationReq then s.head i else s.asked) = some l := asked
  cases req : (s.control i).translationReq <;> rw [req] at asked'
  · exact Nat.lt_of_lt_of_le (inv.asked l asked') (Nat.le_add_right _ _)
  · exact (inv.member ports (List.mem_of_head? asked')).2

end Cycle

section Answers

variable {s : System} {i : SystemInput}

/-- Data answers a load unless the request is killed. -/
theorem answers_data (noEx : i.ex.valid = false) :
    s.answers i = true ↔ i.dataRvalid = true ∧ s.unit.state ≠ .abortTransaction ∧
      s.unit.state ≠ .waitFlush ∧ s.unit.state ≠ .waitTranslation := by
  have noEx' : (s.unitInput i).ex.valid = false := noEx
  have kill : (loadControl s.unit (s.unitInput i)).killReq =
      (s.unit.state == .abortTransaction || s.unit.state == .waitFlush) := by
    rw [loadControl_killReq, stateControl_killReq, noEx', Bool.and_false, Bool.or_false]
  rw [System.answers, valid, kill, noEx', Bool.and_false, Bool.false_and,
    if_neg Bool.false_ne_true]
  show (if _ then _ else i.dataRvalid && _ && _) = true ↔ _
  cases i.dataRvalid <;> cases s.unit.state <;> decide

/-- With an exception, a load is answered at the load unit, or together with the kill. -/
theorem answers_exception (ex : i.ex.valid = true) :
    s.answers i = true ↔ (i.dataRvalid = false ∧ (s.unitInput i).valid = true) ∨
      (i.dataRvalid = true ∧ s.unit.state ≠ .waitFlush ∧ s.unit.state ≠ .waitTranslation) := by
  have ex' : (s.unitInput i).ex.valid = true := ex
  have rvalid : (s.unitInput i).dataRvalid = i.dataRvalid := rfl
  rw [System.answers, valid, ex', rvalid, Bool.and_true, Bool.or_true, Bool.and_true]
  cases i.dataRvalid <;> cases (s.unitInput i).valid <;> cases s.unit.state <;> decide

/-- The response of a request that is not killed belongs to the load that is kept. -/
theorem Inv.responds (inv : Inv s) (ports : Ports s i) (noEx : i.ex.valid = false)
    (rvalid : i.dataRvalid = true) (noAbort : s.unit.state ≠ .abortTransaction)
    (notFlushed : s.unit.state ≠ .waitFlush) :
    ∃ l, s.requested = some l ∧ s.unit.state ≠ .waitTranslation ∧ s.unit.loadData = l.data ∧
      s.unanswered = l :: s.queued := by
  have noEx' : (s.unitInput i).ex.valid = false := noEx
  have noKill : (s.control i).killReq = false := by
    show (loadControl s.unit (s.unitInput i)).killReq = false
    rw [loadControl_killReq, stateControl_killReq, noEx', Bool.and_false, Bool.or_false,
      beq_false_of_ne noAbort, beq_false_of_ne notFlushed]
    rfl
  have some := (ports.answers rvalid).resolve_left
    (fun kill => Bool.false_ne_true (noKill.symm.trans kill))
  obtain ⟨l, requested⟩ := Option.ne_none_iff_exists'.mp some
  refine ⟨l, requested, fun translating => some (inv.translating translating),
    inv.own l requested noAbort notFlushed, ?_⟩
  have neither : ¬ (s.unit.state = .abortTransaction ∨ s.unit.state = .waitFlush) :=
    fun killed => killed.elim noAbort notFlushed
  rw [inv.held.unanswered, System.inFlight, if_neg neither, requested]
  rfl

/-- A waiting load that was translated before is in `lsu_bypass`. -/
theorem Inv.asked_queued (inv : Inv s) {h : Load} {rest : List Load}
    (oldest : s.waiting i = h :: rest) (asked : s.asked = some h) :
    ∃ tail, s.queued = h :: tail ∧ rest = tail ++ s.presented i := by
  cases queued : s.queued with
  | nil =>
      rw [System.waiting, queued, List.nil_append, System.presented] at oldest
      cases valid : i.req.valid with
      | false =>
          rw [valid] at oldest
          cases oldest
      | true =>
          rw [valid, if_pos rfl] at oldest
          have number := inv.asked h asked
          rw [← (List.cons.inj oldest).1] at number
          exact absurd number (Nat.lt_irrefl _)
  | cons first tail =>
      rw [System.waiting, queued, List.cons_append] at oldest
      obtain ⟨same, rest'⟩ := List.cons.inj oldest
      exact ⟨tail, by rw [same], rest'.symm⟩

theorem Inv.kill_answers (inv : Inv s) (ports : Ports s i) (calm : Undisturbed s i)
    (ex : i.ex.valid = true) (kills : s.Kills) (answers : s.answers i = true) :
    i.dataRvalid = true ∧ s.unit.state ≠ .waitFlush := by
  rcases (answers_exception ex).mp answers with ⟨silent, valid⟩ | ⟨rvalid, notFlushed, _⟩
  · rcases calm.killed ex kills with rvalid | ⟨_, none⟩
    · exact absurd (silent.symm.trans rvalid) Bool.false_ne_true
    · exact absurd (List.head?_eq_none_iff.mp none) ((inv.valid ports).mp valid)
  · exact ⟨rvalid, notFlushed⟩

theorem Inv.right (inv : Inv s) (ports : Ports s i) (calm : Undisturbed s i) : Right s i := by
  intro answers
  cases ex : i.ex.valid with
  | false =>
      obtain ⟨rvalid, noAbort, notFlushed, _⟩ := (answers_data ex).mp answers
      obtain ⟨l, requested, _, data, unanswered⟩ :=
        inv.responds ports ex rvalid noAbort notFlushed
      have ex' : (s.unitInput i).ex.valid = false := ex
      refine ⟨l, ?_, ?_, ?_, fun _ => ⟨?_, ?_⟩⟩
      · rw [System.answered, ex, if_neg Bool.false_ne_true, requested]
      · rw [unanswered]
        exact List.mem_cons_self
      · rw [transId, ex', Bool.and_false, Bool.false_and, if_neg Bool.false_ne_true, data]
        rfl
      · rw [unanswered]
        rfl
      · rw [inv.prepared.result, data]
        rfl
  | true =>
      have ex' : (s.unitInput i).ex.valid = true := ex
      by_cases kills : s.Kills
      · -- the answer comes with the kill of the load's own request
        obtain ⟨rvalid, notFlushed⟩ := inv.kill_answers ports calm ex kills answers
        have rvalid' : (s.unitInput i).dataRvalid = true := rvalid
        have tag := kills.resolve_right notFlushed
        obtain ⟨some, asked⟩ := inv.translated tag
        obtain ⟨l, requested⟩ := Option.ne_none_iff_exists'.mp some
        have noAbort : s.unit.state ≠ .abortTransaction := by
          rw [tag]
          decide
        refine ⟨l, ?_, ?_, ?_, fun noEx => absurd noEx Bool.noConfusion⟩
        · rw [System.answered, ex, if_pos rfl, asked, requested]
        · have neither : ¬ (s.unit.state = .abortTransaction ∨ s.unit.state = .waitFlush) :=
            fun killed => killed.elim noAbort notFlushed
          rw [inv.held.unanswered, System.inFlight, if_neg neither, requested]
          exact List.mem_cons_self
        · rw [transId, rvalid', Bool.not_true, Bool.and_false, if_neg Bool.false_ne_true,
            inv.own l requested noAbort notFlushed]
          rfl
      · -- the answer is given at the load unit
        have quiet := calm.quiet ex kills
        have quiet' : (s.unitInput i).dataRvalid = false := quiet
        rcases (answers_exception ex).mp answers with ⟨_, valid⟩ | ⟨rvalid, _⟩
        · obtain ⟨h, rest, oldest⟩ := List.exists_cons_of_ne_nil ((inv.valid ports).mp valid)
          have head : s.head i = some h := by
            rw [System.head, oldest]
            rfl
          have asked : s.asked = some h := by
            rw [← calm.asker ex kills (by rw [head]; exact Option.some_ne_none h), head]
          obtain ⟨tail, queued, _⟩ := inv.asked_queued oldest asked
          refine ⟨h, ?_, ?_, ?_, fun noEx => absurd noEx Bool.noConfusion⟩
          · rw [System.answered, ex, if_pos rfl, asked]
          · rw [inv.held.unanswered, queued]
            exact List.mem_append_right _ List.mem_cons_self
          · rw [transId, valid, ex', quiet', Bool.and_self, Bool.not_false, Bool.and_self,
              if_pos rfl, inv.lsuCtrl oldest]
        · exact absurd (quiet.symm.trans rvalid) Bool.false_ne_true

/-- A response leaves the loads in `lsu_bypass`. -/
theorem Inv.remaining_response (inv : Inv s) (ports : Ports s i) (noEx : i.ex.valid = false)
    (rvalid : i.dataRvalid = true) : s.remaining i = s.queued := by
  by_cases killed : s.unit.state = .abortTransaction ∨ s.unit.state = .waitFlush
  · have silent : s.answers i = false := by
      apply Bool.eq_false_iff.mpr
      intro answers
      obtain ⟨_, noAbort, notFlushed, _⟩ := (answers_data noEx).mp answers
      exact killed.elim noAbort notFlushed
    have all : s.unanswered = s.queued := by
      rw [inv.held.unanswered, System.inFlight, if_pos killed, List.nil_append]
    rw [System.remaining, silent, all]
    split <;> rfl
  · obtain ⟨noAbort, notFlushed⟩ := not_or.mp killed
    obtain ⟨l, requested, noTranslation, _, unanswered⟩ :=
      inv.responds ports noEx rvalid noAbort notFlushed
    have answers := (answers_data noEx).mpr ⟨rvalid, noAbort, notFlushed, noTranslation⟩
    rw [System.remaining, System.answered, noEx, if_neg Bool.false_ne_true, requested, answers,
      unanswered]
    exact List.erase_cons_head ..

theorem remaining_silent (silent : s.answers i = false) : s.remaining i = s.unanswered := by
  rw [System.remaining, silent]
  split <;> rfl

theorem answers_wait (noEx : i.ex.valid = false) (noRvalid : i.dataRvalid = false) :
    s.answers i = false := by
  apply Bool.eq_false_iff.mpr
  intro answers
  exact Bool.false_ne_true (noRvalid.symm.trans ((answers_data noEx).mp answers).1)

theorem queued_next (noFlush : i.flush = false) :
    (s.next i).queued = if (s.control i).popLd then (s.waiting i).tail else s.waiting i := by
  show (if i.flush then [] else _) = _
  rw [noFlush, if_neg Bool.false_ne_true]

theorem unanswered_next (noFlush : i.flush = false) :
    (s.next i).unanswered = s.remaining i ++ s.presented i := by
  show (if i.flush then [] else _) = _
  rw [noFlush, if_neg Bool.false_ne_true]

theorem requested_next : (s.next i).requested = if i.dataGnt then s.head i else
    if i.dataRvalid || (s.control i).killReq then none else s.requested := rfl

/-- What the state of the load unit says about the loads. -/
structure Tracks (s : System) : Prop where
  unanswered : s.unanswered = s.inFlight ++ s.queued
  busy : Busy s.unit.state → s.queued ≠ []
  own : ∀ l, s.requested = some l → s.unit.state ≠ .abortTransaction → s.unit.state ≠ .waitFlush →
    s.unit.loadData = l.data
  translated : s.unit.state = .sendTag → s.requested ≠ none ∧ s.asked = s.requested
  translating : s.unit.state = .waitTranslation → s.requested = none

theorem tracks_flush (flush : i.flush = true) : Tracks (s.next i) := by
  have state : (s.next i).unit.state = .waitFlush := loadControl_flush flush
  have queued : (s.next i).queued = [] := by
    show (if i.flush then [] else _) = _
    rw [flush, if_pos rfl]
  constructor
  · show (if i.flush then [] else _) = _
    rw [flush, if_pos rfl, System.inFlight, if_pos (Or.inr state), queued]
    rfl
  · intro busy
    rw [state] at busy
    rcases busy with busy | busy | busy | busy <;> cases busy
  · intro _ _ _ notFlushed
    exact absurd state notFlushed
  · intro tag
    rw [state] at tag
    cases tag
  · intro translating
    rw [state] at translating
    cases translating

/-- The load of a granted request is in flight, unless it is not translated yet. -/
theorem Inv.tracks_grant (inv : Inv s) (ports : Ports s i) (noFlush : i.flush = false)
    (noEx : i.ex.valid = false) (gnt : i.dataGnt = true) : Tracks (s.next i) := by
  obtain ⟨granted, some, noAbort, notFlushed, noTranslation⟩ := inv.grant ports gnt
  obtain ⟨h, rest, oldest⟩ := List.exists_cons_of_ne_nil some
  have plain : loadControl s.unit (s.unitInput i) = stateControl s.unit (s.unitInput i) :=
    loadControl_plain noFlush noEx
  have head : s.head i = Option.some h := by
    rw [System.head, oldest]
    rfl
  have state : (s.next i).unit.state = if i.dtlbHit then .sendTag else .abortTransaction := by
    show (loadControl s.unit (s.unitInput i)).state = _
    rw [plain]
    exact granted.state
  have pop : (s.control i).popLd = i.dtlbHit := by
    show (loadControl s.unit (s.unitInput i)).popLd = _
    rw [plain]
    exact granted.pop
  have requested : (s.next i).requested = Option.some h := by
    rw [requested_next, gnt, if_pos rfl, head]
  have remaining : s.remaining i = s.queued := by
    cases rvalid : i.dataRvalid with
    | true => exact inv.remaining_response ports noEx rvalid
    | false =>
        have none : s.requested = none := (ports.single gnt).resolve_right
          (fun responds => Bool.false_ne_true (rvalid.symm.trans responds))
        have neither : ¬ (s.unit.state = .abortTransaction ∨ s.unit.state = .waitFlush) :=
          fun killed => killed.elim noAbort notFlushed
        rw [remaining_silent (answers_wait noEx rvalid), inv.held.unanswered, System.inFlight,
          if_neg neither, none]
        rfl
  have waiting : s.queued ++ s.presented i = h :: rest := oldest
  have unanswered : (s.next i).unanswered = h :: rest := by
    rw [unanswered_next noFlush, remaining, waiting]
  have queued := queued_next (s := s) noFlush
  rw [pop, oldest] at queued
  cases hit : i.dtlbHit with
  | true =>
      rw [hit] at state queued pop
      have tag : (s.next i).unit.state = .sendTag := state
      have neither : ¬ ((s.next i).unit.state = .abortTransaction ∨
          (s.next i).unit.state = .waitFlush) := by
        rw [tag]
        decide
      have data : (s.next i).unit.loadData = h.data := by
        have noEx' : (s.unitInput i).ex.valid = false := noEx
        have pop' : (loadControl s.unit (s.unitInput i)).popLd = true := pop
        show loadDataNext s.unit (s.unitInput i) = h.data
        rw [loadDataNext, pop', noEx', Bool.not_false, Bool.and_true, if_pos rfl, inData,
          inv.lsuCtrl oldest]
        rfl
      have asked : (s.next i).asked = Option.some h := by
        show (if (loadControl s.unit (s.unitInput i)).translationReq then s.head i else _) = _
        rw [plain, granted.translated, if_pos rfl, head]
      constructor
      · rw [unanswered, System.inFlight, if_neg neither, requested, queued]
        rfl
      · intro busy
        rw [tag] at busy
        rcases busy with busy | busy | busy | busy <;> cases busy
      · intro l own _ _
        rw [data, Option.some.inj (requested.symm.trans own)]
      · intro _
        rw [requested, asked]
        exact ⟨Option.some_ne_none h, rfl⟩
      · intro translating
        rw [tag] at translating
        cases translating
  | false =>
      rw [hit] at state queued
      have abort : (s.next i).unit.state = .abortTransaction := state
      constructor
      · rw [unanswered, System.inFlight, if_pos (Or.inl abort), queued]
        rfl
      · intro _
        rw [queued]
        exact List.cons_ne_nil h rest
      · intro _ _ noAbort
        exact absurd abort noAbort
      · intro tag
        rw [abort] at tag
        cases tag
      · intro translating
        rw [abort] at translating
        cases translating

/-- Without a grant nothing new is in flight. -/
theorem Inv.tracks_wait (inv : Inv s) (ports : Ports s i) (noFlush : i.flush = false)
    (noEx : i.ex.valid = false) (noGnt : i.dataGnt = false) : Tracks (s.next i) := by
  have noEx' : (s.unitInput i).ex.valid = false := noEx
  have plain : loadControl s.unit (s.unitInput i) = stateControl s.unit (s.unitInput i) :=
    loadControl_plain noFlush noEx
  have waits := stateControl_waiting (q := s.unit) (i := s.unitInput i) noGnt
  rw [← plain] at waits
  have kill : (s.control i).killReq =
      (s.unit.state == .abortTransaction || s.unit.state == .waitFlush) := by
    show (loadControl s.unit (s.unitInput i)).killReq = _
    rw [loadControl_killReq, stateControl_killReq, noEx', Bool.and_false, Bool.or_false]
  have pop : (s.control i).popLd = false := waits.pop
  have queued := queued_next (s := s) noFlush
  rw [pop, if_neg Bool.false_ne_true] at queued
  have requested := requested_next (s := s) (i := i)
  rw [noGnt, if_neg Bool.false_ne_true, kill] at requested
  have neither : ¬ ((s.next i).unit.state = .abortTransaction ∨
      (s.next i).unit.state = .waitFlush) :=
    fun killed => killed.elim waits.noAbort waits.noFlush
  have data : (s.next i).unit.loadData = s.unit.loadData := by
    show loadDataNext s.unit (s.unitInput i) = _
    rw [loadDataNext, waits.pop, Bool.false_and, if_neg Bool.false_ne_true]
  have left : s.remaining i = (s.next i).requested.toList ++ s.queued := by
    cases rvalid : i.dataRvalid with
    | true =>
        rw [requested, rvalid, Bool.true_or, if_pos rfl]
        exact inv.remaining_response ports noEx rvalid
    | false =>
        rw [requested, rvalid, Bool.false_or, remaining_silent (answers_wait noEx rvalid),
          inv.held.unanswered, System.inFlight]
        by_cases killed : s.unit.state = .abortTransaction ∨ s.unit.state = .waitFlush
        · rw [if_pos killed]
          rcases killed with abort | flushed
          · rw [abort]
            rfl
          · rw [flushed]
            rfl
        · obtain ⟨noAbort, notFlushed⟩ := not_or.mp killed
          rw [if_neg killed, beq_false_of_ne noAbort, beq_false_of_ne notFlushed]
          rfl
  constructor
  · rw [unanswered_next noFlush, left, System.inFlight, if_neg neither, queued,
      List.append_assoc]
    rfl
  · intro busy
    rw [queued]
    rcases waits.busy busy with valid | before
    · exact (inv.valid ports).mp valid
    · exact inv.waits before
  · intro l own _ _
    rw [data]
    rw [requested] at own
    by_cases killed : s.unit.state = .abortTransaction ∨ s.unit.state = .waitFlush
    · have gone : (s.unit.state == .abortTransaction || s.unit.state == .waitFlush) = true := by
        rcases killed with abort | flushed
        · rw [abort]
          rfl
        · rw [flushed]
          rfl
      rw [gone, Bool.or_true, if_pos rfl] at own
      cases own
    · obtain ⟨noAbort, notFlushed⟩ := not_or.mp killed
      cases rvalid : i.dataRvalid with
      | true =>
          rw [rvalid, Bool.true_or, if_pos rfl] at own
          cases own
      | false =>
          rw [rvalid, beq_false_of_ne noAbort, beq_false_of_ne notFlushed] at own
          exact inv.own l own noAbort notFlushed
  · intro tag
    exact absurd tag waits.noTag
  · intro translating
    rw [requested]
    rcases waits.translation translating with abort | before
    · rw [abort]
      cases i.dataRvalid <;> rfl
    · rw [inv.translating before]
      exact ite_self none

/-- In the idle state only the loads matter. -/
theorem tracks_idle (state : (s.next i).unit.state = .idle)
    (unanswered : (s.next i).unanswered = (s.next i).requested.toList ++ (s.next i).queued)
    (own : ∀ l, (s.next i).requested = some l → (s.next i).unit.loadData = l.data) :
    Tracks (s.next i) := by
  have neither : ¬ ((s.next i).unit.state = .abortTransaction ∨
      (s.next i).unit.state = .waitFlush) := by
    rw [state]
    decide
  constructor
  · rw [unanswered, System.inFlight, if_neg neither]
  · intro busy
    rw [state] at busy
    rcases busy with busy | busy | busy | busy <;> cases busy
  · intro l requested _ _
    exact own l requested
  · intro tag
    rw [state] at tag
    cases tag
  · intro translating
    rw [state] at translating
    cases translating

theorem Inv.kill_keeps (inv : Inv s) (ports : Ports s i) (calm : Undisturbed s i)
    (ex : i.ex.valid = true) (kills : s.Kills) :
    ((s.unitInput i).valid && !i.dataRvalid) = false := by
  rcases calm.killed ex kills with rvalid | ⟨_, none⟩
  · rw [rvalid, Bool.not_true, Bool.and_false]
  · have empty : ¬ (s.unitInput i).valid = true :=
      fun valid => (inv.valid ports).mp valid (List.head?_eq_none_iff.mp none)
    rw [Bool.eq_false_iff.mpr empty, Bool.false_and]

/-- The load in flight is answered with the kill; after a flush there is none. -/
theorem Inv.remaining_kill (inv : Inv s) (ports : Ports s i) (calm : Undisturbed s i)
    (ex : i.ex.valid = true) (kills : s.Kills) : s.remaining i = s.queued := by
  rcases kills with tag | flushed
  · obtain ⟨some, asked⟩ := inv.translated tag
    obtain ⟨l, request⟩ := Option.ne_none_iff_exists'.mp some
    have rvalid : i.dataRvalid = true := by
      apply (calm.killed ex (Or.inl tag)).resolve_right
      intro ⟨flushed, _⟩
      rw [tag] at flushed
      cases flushed
    have answers : s.answers i = true := by
      rw [answers_exception ex, tag]
      exact Or.inr ⟨rvalid, by decide, by decide⟩
    have neither : ¬ (s.unit.state = .abortTransaction ∨ s.unit.state = .waitFlush) := by
      rw [tag]
      decide
    rw [System.remaining, System.answered, ex, if_pos rfl, asked, request, answers,
      inv.held.unanswered, System.inFlight, if_neg neither, request]
    exact List.erase_cons_head ..
  · have silent : s.answers i = false := by
      apply Bool.eq_false_iff.mpr
      intro answers
      exact (inv.kill_answers ports calm ex (Or.inr flushed) answers).2 flushed
    rw [remaining_silent silent, inv.held.unanswered, System.inFlight, if_pos (Or.inr flushed),
      List.nil_append]

/-- The exception of the load in flight. The load behind it is not touched. -/
theorem Inv.tracks_kill (inv : Inv s) (ports : Ports s i) (calm : Undisturbed s i)
    (noFlush : i.flush = false) (ex : i.ex.valid = true) (kills : s.Kills) :
    Tracks (s.next i) := by
  have noGnt := calm.noGrant ex noFlush
  have here : Busy s.unit.state → (s.unitInput i).valid = true :=
    fun busy => (inv.valid ports).mpr (inv.waits busy)
  obtain ⟨idle, pop⟩ := loadControl_exception (q := s.unit) (i := s.unitInput i) noFlush ex
    noGnt here
  have pop' : (s.control i).popLd = false := pop.trans (inv.kill_keeps ports calm ex kills)
  have queued := queued_next (s := s) noFlush
  rw [pop', if_neg Bool.false_ne_true] at queued
  have requested : (s.next i).requested = none := by
    have gone : (i.dataRvalid || (s.control i).killReq) = true := by
      have kill : (s.control i).killReq = true := by
        have ex' : (s.unitInput i).ex.valid = true := ex
        show (loadControl s.unit (s.unitInput i)).killReq = true
        rw [loadControl_killReq, stateControl_killReq, ex']
        rcases kills with tag | flushed
        · rw [tag]
          rfl
        · rw [flushed]
          rfl
      rw [kill, Bool.or_true]
    rw [requested_next, noGnt, if_neg Bool.false_ne_true, gone, if_pos rfl]
  apply tracks_idle idle
  · rw [unanswered_next noFlush, inv.remaining_kill ports calm ex kills, requested, queued]
    rfl
  · intro l own
    rw [requested] at own
    cases own

theorem erase_behind {α : Type} [DecidableEq α] (front : Option α) (x : α) (rest : List α) :
    (front.toList ++ x :: rest).erase x = front.toList ++ rest := by
  cases front with
  | none => exact List.erase_cons_head ..
  | some y =>
      by_cases same : y = x
      · subst same
        exact List.erase_cons_head ..
      · rw [Option.toList_some, List.singleton_append, List.erase_cons_tail, List.erase_cons_head]
        · rfl
        · rw [beq_false_of_ne same]
          exact Bool.false_ne_true

/-- The exception of the load at the load unit. The load in flight is not touched. -/
theorem Inv.tracks_exception (inv : Inv s) (ports : Ports s i) (calm : Undisturbed s i)
    (noFlush : i.flush = false) (ex : i.ex.valid = true) (noKill : ¬ s.Kills) :
    Tracks (s.next i) := by
  have ex' : (s.unitInput i).ex.valid = true := ex
  have noGnt := calm.noGrant ex noFlush
  have quiet := calm.quiet ex noKill
  have quiet' : (s.unitInput i).dataRvalid = false := quiet
  have here : Busy s.unit.state → (s.unitInput i).valid = true :=
    fun busy => (inv.valid ports).mpr (inv.waits busy)
  obtain ⟨idle, pop⟩ := loadControl_exception (q := s.unit) (i := s.unitInput i) noFlush ex'
    noGnt here
  rw [quiet', Bool.not_false, Bool.and_true] at pop
  obtain ⟨noTag, notFlushed⟩ := not_or.mp noKill
  have requested := requested_next (s := s) (i := i)
  have kill : (s.control i).killReq = (s.unit.state == .abortTransaction) := by
    show (loadControl s.unit (s.unitInput i)).killReq = _
    rw [loadControl_killReq, stateControl_killReq, beq_false_of_ne notFlushed,
      beq_false_of_ne noTag, Bool.or_false, Bool.false_and, Bool.or_false]
  rw [noGnt, if_neg Bool.false_ne_true, quiet, Bool.false_or, kill] at requested
  have flight : s.inFlight = (s.next i).requested.toList := by
    rw [System.inFlight, requested]
    by_cases abort : s.unit.state = .abortTransaction
    · rw [abort]
      rfl
    · rw [if_neg (fun killed => killed.elim abort notFlushed), beq_false_of_ne abort,
        if_neg Bool.false_ne_true]
  have data : (s.next i).unit.loadData = s.unit.loadData := by
    show loadDataNext s.unit (s.unitInput i) = _
    rw [loadDataNext, ex', Bool.not_true, Bool.and_false, if_neg Bool.false_ne_true]
  apply tracks_idle idle
  · cases valid : (s.unitInput i).valid with
    | false =>
        rw [valid] at pop
        have pop' : (s.control i).popLd = false := pop
        have silent : s.answers i = false := by
          apply Bool.eq_false_iff.mpr
          intro answers
          rcases (answers_exception ex).mp answers with ⟨_, set⟩ | ⟨rvalid, _⟩
          · exact Bool.false_ne_true (valid.symm.trans set)
          · exact Bool.false_ne_true (quiet.symm.trans rvalid)
        rw [unanswered_next noFlush, remaining_silent silent, inv.held.unanswered, flight,
          queued_next noFlush, pop', if_neg Bool.false_ne_true, List.append_assoc]
        rfl
    | true =>
        rw [valid] at pop
        have pop' : (s.control i).popLd = true := pop
        obtain ⟨h, rest, oldest⟩ := List.exists_cons_of_ne_nil ((inv.valid ports).mp valid)
        have head : s.head i = some h := by
          rw [System.head, oldest]
          rfl
        have asked : s.asked = some h := by
          rw [← calm.asker ex noKill (by rw [head]; exact Option.some_ne_none h), head]
        obtain ⟨tail, queued, rest'⟩ := inv.asked_queued oldest asked
        have answers : s.answers i = true := (answers_exception ex).mpr (Or.inl ⟨quiet, valid⟩)
        have left : s.remaining i = (s.next i).requested.toList ++ tail := by
          rw [System.remaining, System.answered, ex, if_pos rfl, asked, answers,
            inv.held.unanswered, flight, queued]
          exact erase_behind _ _ _
        rw [unanswered_next noFlush, left, queued_next noFlush, pop', if_pos rfl, oldest,
          List.tail_cons, rest', List.append_assoc]
  · intro l own
    rw [data]
    rw [requested] at own
    by_cases abort : s.unit.state = .abortTransaction
    · rw [abort] at own
      cases own
    · rw [beq_false_of_ne abort, if_neg Bool.false_ne_true] at own
      exact inv.own l own abort notFlushed

theorem Inv.tracks (inv : Inv s) (ports : Ports s i) (calm : Undisturbed s i) :
    Tracks (s.next i) := by
  cases flush : i.flush with
  | true => exact tracks_flush flush
  | false =>
      cases ex : i.ex.valid with
      | true =>
          by_cases kills : s.Kills
          · exact inv.tracks_kill ports calm flush ex kills
          · exact inv.tracks_exception ports calm flush ex kills
      | false =>
          cases gnt : i.dataGnt with
          | true => exact inv.tracks_grant ports flush ex gnt
          | false => exact inv.tracks_wait ports flush ex gnt

theorem Inv.step (inv : Inv s) (ports : Ports s i) (calm : Undisturbed s i) : Inv (s.next i) := by
  have tracks := inv.tracks ports calm
  refine ⟨⟨tracks.unanswered, inv.bypass_next ports⟩, ?_, inv.room_next, prepared_next _ _,
    tracks.busy, tracks.own, tracks.translated, tracks.translating,
    fun _ asked => inv.asked_next ports asked⟩
  intro l member
  exact inv.member ports (queued_subset member)

theorem inv_reset : Inv {} := by
  refine ⟨⟨rfl, LsuBypass.emptyQueue_represents⟩, ?_, ?_, prepared_reset, ?_, ?_, ?_, ?_, ?_⟩
  · intro l member
    cases member
  · intro _
    exact Nat.zero_le 1
  · intro busy
    rcases busy with busy | busy | busy | busy <;> cases busy
  · intro l requested
    cases requested
  · intro tag
    cases tag
  · intro translating
    cases translating
  · intro l asked
    cases asked

end Answers

end Ariane.LoadUnit
