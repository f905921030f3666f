import Ariane.FlowProcess
import Mathlib.Tactic.MkIffOfInductiveProp

set_option autoImplicit false

/- The monitor of `remop_redirec.vhd` against its reference automaton: one decision for each
transaction of the bus. -/
namespace Ariane.FlowProcess

open Rtl (Machine)

/-- A transaction: the request, the cycles until the response if it does not come with the request,
and the idle cycles after it, of which there is at least one. What the bus carries besides is
arbitrary. -/
structure Transaction where
  request : Bus := {}
  late : Option (List Bus × Bus) := none
  gap : Bus := {}
  idle : List Bus := []
  deriving DecidableEq

/-- A cycle without a request. -/
def Bus.silent (b : Bus) : Bus := { b with valid := false }

/-- A cycle in which a response is missing. -/
def Bus.waiting (b : Bus) : Bus := { b with valid := false, ready := false }

/-- A cycle with a response only. -/
def Bus.answering (b : Bus) : Bus := { b with valid := false, ready := true }

namespace Transaction

variable (t : Transaction)

/-- The cycle of the request. -/
def head : Bus := { t.request with valid := true, ready := t.late.isNone }

/-- The cycles until the response. -/
def answer : List Bus :=
  match t.late with
  | none => []
  | some (waits, response) => waits.map Bus.waiting ++ [response.answering]

def cycles : List Bus := t.head :: (t.answer ++ t.gap.silent :: t.idle.map Bus.silent)

/-- The data of the response. -/
def rdata : BitVec 32 :=
  match t.late with
  | none => t.request.rdata
  | some (_, response) => response.rdata

/-- The field that `sel_nextA` names. -/
def field (select : BitVec 2) : BitVec 32 :=
  if select = 0 then t.request.addr
  else if select = 1 then t.rdata
  else if select = 2 then t.request.wdata
  else 0

end Transaction

section Reference

variable (program : Flow → Instr) (registers : BitVec 3 → BitVec 32)

/-- The transaction has the direction and the field that the word asks for. -/
def accepts (w : Instr) (t : Transaction) : Bool :=
  t.request.write == !w.rwSelect && comp w.compMode (t.field w.selNextA) (registers w.selNextB)

/-- The reference automaton. -/
def reference (f : Flow) (t : Transaction) : Flow :=
  if accepts registers (program f) t then (program f).nextFc else f

/-- The flow states that a transaction leaves. -/
def leaves (f : Flow) (t : Transaction) : List Flow :=
  if accepts registers (program f) t then [f] else []

/-- What the process reads while nothing is redirected. -/
def observed (b : Bus) : Input := { toBus := b, registers := registers }

/-- The monitor decides on the transaction. -/
def decides (s : State) : Bool := !s.delay && transactEvent s

/-- The monitor, with a history variable: a transaction has begun that it has not decided on. -/
def monitor (held : Bus) : Machine (State × Bool) Bus where
  reset := ((machine program held).reset, false)
  next s b := (next s.1 (observed registers b) program, b.valid || (s.2 && !decides s.1))

/-- The flow states that are left in a cycle. -/
def moves (s : State × Bool) (b : Bus) : List Flow :=
  if advances s.1 (observed registers b) || redirects s.1 (observed registers b) then [s.1.fc]
  else []

/-- The steps of the condition: a state is left only for a transaction not yet decided on, which fails in
a state that watches requests only in the first cycle, for a copy from before the reset; one that watches
responses is left in its own direction; and one that watches requests compares read data only if the
response came with the request. -/
@[mk_iff]
structure Watched (s : State × Bool) (b : Bus) : Prop where
  pending : advances s.1 (observed registers b) = true → s.2 = true
  response : advances s.1 (observed registers b) = true →
    s.1.currentInstr.transactSelect = true → s.1.rIWrite = !s.1.currentInstr.rwSelect
  request : s.2 = true → s.1.delay = false → s.1.rIValid = true →
    s.1.currentInstr.transactSelect = false →
      s.1.rIWrite = (!s.1.currentInstr.rwSelect) → s.1.currentInstr.selNextA = 1 →
        s.1.rIReady = true

instance (s : State × Bool) (b : Bus) : Decidable (Watched registers s b) :=
  decidable_of_iff _ (watched_iff registers s b).symm

/-- Between two transactions. -/
structure Settled (f : Flow) (s : State × Bool) : Prop where
  fc : s.1.fc = f
  normal : s.1.redirectionControl = false
  decided : s.2 = false
  instr : s.1.delay = false → s.1.currentInstr = program f

/-- A transaction on which the monitor has not decided. -/
structure Undecided (f : Flow) (t : Transaction) (s : State × Bool) : Prop where
  fc : s.1.fc = f
  normal : s.1.redirectionControl = false
  delay : s.1.delay = false
  instr : s.1.currentInstr = program f
  pending : s.2 = true
  valid : (program f).transactSelect = false → s.1.rIValid = true
  addr : s.1.rIAddr = t.request.addr
  write : s.1.rIWrite = t.request.write
  wdata : s.1.rIWdata = t.request.wdata
  rdata : s.1.rIReady = true → s.1.rIRdata = t.rdata

end Reference

section Step

variable {program : Flow → Instr} {registers : BitVec 3 → BitVec 32} {held : Bus} {f : Flow}
  {t : Transaction} {s : State × Bool} {b : Bus}

theorem moves_eq (normal : s.1.redirectionControl = false) :
    moves registers s b = if advances s.1 (observed registers b) then [s.1.fc] else [] := by
  rw [moves, redirects, normal, Bool.false_and, Bool.or_false]

variable (program registers held b) in
/-- What a cycle without redirection does to the flow state and the registers around it. -/
theorem next_normal (normal : s.1.redirectionControl = false) :
    ((monitor program registers held).next s b).1.fc =
        (if advances s.1 (observed registers b) then s.1.currentInstr.nextFc else s.1.fc) ∧
      ((monitor program registers held).next s b).1.delay =
        (!s.1.delay && advances s.1 (observed registers b)) ∧
      ((monitor program registers held).next s b).1.redirectionControl = false ∧
      ((monitor program registers held).next s b).1.currentInstr = program s.1.fc := by
  have never : redirects s.1 (observed registers b) = false := by
    rw [redirects, normal, Bool.false_and]
  refine ⟨?_, ?_, ?_, rfl⟩
  · simp only [monitor, next, never, Bool.or_false]
  · simp only [monitor, next, observed, Bool.or_false]
  · simp [monitor, next, observed, normal]

/-- Between two transactions the monitor does not move. -/
theorem Settled.still (settled : Settled program f s) (watched : Watched registers s b) :
    advances s.1 (observed registers b) = false := by
  rw [Bool.eq_false_iff]
  intro advance
  have pending := watched.pending advance
  rw [settled.decided] at pending
  cases pending

variable (held) in
theorem Settled.step (settled : Settled program f s) (watched : Watched registers s b)
    (silent : b.valid = false) :
    Settled program f ((monitor program registers held).next s b) ∧
      moves registers s b = [] := by
  have still := settled.still watched
  obtain ⟨fc, delay, normal, instr⟩ :=
    next_normal program registers held b settled.normal
  rw [moves_eq settled.normal, still]
  rw [still] at fc
  refine ⟨⟨fc.trans settled.fc, normal, ?_, fun _ => instr.trans (by rw [settled.fc])⟩, rfl⟩
  simp only [monitor, silent, settled.decided, Bool.false_and, Bool.or_false]

variable (held) in
theorem Settled.request (settled : Settled program f s) (watched : Watched registers s t.head) :
    Undecided program f t ((monitor program registers held).next s t.head) ∧
      moves registers s t.head = [] := by
  have still := settled.still watched
  obtain ⟨fc, delay, normal, instr⟩ :=
    next_normal program registers held t.head settled.normal
  rw [moves_eq settled.normal, still]
  rw [still] at fc delay
  refine ⟨⟨fc.trans settled.fc, normal, ?_, instr.trans (by rw [settled.fc]), rfl, fun _ => rfl,
    rfl, rfl, rfl, ?_⟩, rfl⟩
  · rw [delay, Bool.and_false]
  · intro ready
    have atOnce : t.late.isNone = true := ready
    rw [Option.isNone_iff_eq_none] at atOnce
    simp [monitor, next, observed, Transaction.head, Transaction.rdata, atOnce]

variable (registers held) in
/-- A monitor that does not decide keeps the transaction. -/
theorem Undecided.wait (undecided : Undecided program f t s) (silent : b.valid = false)
    (later : decides s.1 = false) (data : b.ready = true → b.rdata = t.rdata) :
    Undecided program f t ((monitor program registers held).next s b) ∧
      moves registers s b = [] := by
  have event : transactEvent s.1 = false := by
    simpa only [decides, undecided.delay, Bool.not_false, Bool.true_and] using later
  have still : advances s.1 (observed registers b) = false := by
    rw [Bool.eq_false_iff]
    intro advance
    have high := (advances_iff.mp advance).2.2.2.2.1
    rw [event] at high
    cases high
  have responses : (program f).transactSelect ≠ false := by
    intro requests
    rw [transactEvent, undecided.instr, requests, if_neg Bool.false_ne_true,
      undecided.valid requests] at event
    cases event
  obtain ⟨fc, delay, normal, instr⟩ :=
    next_normal program registers held b undecided.normal
  rw [moves_eq undecided.normal, still]
  rw [still] at fc delay
  have kept {α : Type} (new old : α) : (if b.valid then new else old) = old := by
    rw [silent, if_neg Bool.false_ne_true]
  refine ⟨⟨fc.trans undecided.fc, normal, ?_, instr.trans (by rw [undecided.fc]), ?_,
    fun requests => absurd requests responses, (kept _ _).trans undecided.addr,
    (kept _ _).trans undecided.write, (kept _ _).trans undecided.wdata, ?_⟩, rfl⟩
  · rw [delay, Bool.and_false]
  · simp only [monitor, undecided.pending, later, Bool.not_false, Bool.and_self, Bool.or_true]
  · intro ready
    exact (if_pos ready).trans (data ready)

variable (registers b) in
/-- The comparison sees the field of the transaction. -/
theorem Undecided.compared (undecided : Undecided program f t s)
    (answered : (program f).selNextA = 1 → s.1.rIReady = true) :
    c0n s.1 (observed registers b) =
      comp (program f).compMode (t.field (program f).selNextA)
        (registers (program f).selNextB) := by
  have side : nextCompA s.1 (observed registers b) = t.field (program f).selNextA := by
    simp only [nextCompA, Transaction.field, undecided.instr, undecided.normal,
      Bool.false_eq_true, ↓reduceIte, undecided.addr, undecided.wdata]
    by_cases data : (program f).selNextA = 1
    · rw [if_pos data, if_pos data, undecided.rdata (answered data)]
    · rw [if_neg data, if_neg data]
  rw [c0n, nextCompB, side, undecided.instr]
  rfl

/-- The decision is that of the reference. -/
theorem Undecided.advances_eq (undecided : Undecided program f t s)
    (watched : Watched registers s b) (now : decides s.1 = true) :
    advances s.1 (observed registers b) = accepts registers (program f) t := by
  have event : transactEvent s.1 = true := by
    simpa only [decides, undecided.delay, Bool.not_false, Bool.true_and] using now
  have unfolded : advances s.1 (observed registers b) =
      (c0n s.1 (observed registers b) &&
        ((program f).transactSelect || t.request.write == !(program f).rwSelect)) := by
    have direction : rwEvent s.1 = (t.request.write == !(program f).rwSelect) := by
      rw [rwEvent, undecided.instr, undecided.write]
      cases (program f).rwSelect <;> cases t.request.write <;> rfl
    simp only [advances, satisfied, undecided.delay, event, undecided.normal, observed,
      Bool.not_false, Bool.and_true, Bool.true_and, undecided.instr, direction]
  cases select : (program f).transactSelect with
  | false =>
      -- a request of the wrong direction is refused whatever its data
      by_cases direction : t.request.write = !(program f).rwSelect
      · have compared := undecided.compared registers b fun data =>
          watched.request undecided.pending undecided.delay (undecided.valid select)
            (undecided.instr ▸ select) (undecided.write.trans (undecided.instr ▸ direction)) (undecided.instr ▸ data)
        rw [unfolded, compared, accepts, select, Bool.false_or, Bool.and_comm]
      · have mismatch : (t.request.write == !(program f).rwSelect) = false :=
          beq_eq_false_iff_ne.mpr direction
        rw [unfolded, accepts, select, mismatch, Bool.false_or, Bool.and_false, Bool.false_and]
  | true =>
      have ready : s.1.rIReady = true := by
        simpa only [transactEvent, undecided.instr, select, ↓reduceIte] using event
      have compared := undecided.compared registers b fun _ => ready
      cases outcome : c0n s.1 (observed registers b) with
      | false =>
          rw [unfolded, accepts, ← compared, outcome, Bool.false_and, Bool.and_false]
      | true =>
          have advance : advances s.1 (observed registers b) = true := by
            rw [unfolded, outcome, select]
            rfl
          have direction := watched.response advance (undecided.instr ▸ select)
          rw [undecided.write, undecided.instr] at direction
          rw [advance, accepts, ← compared, outcome, direction, beq_self_eq_true]
          rfl

variable (held) in
theorem Undecided.decide (undecided : Undecided program f t s) (watched : Watched registers s b)
    (silent : b.valid = false) (now : decides s.1 = true) :
    Settled program (reference program registers f t)
        ((monitor program registers held).next s b) ∧
      moves registers s b = leaves program registers f t := by
  have advance := undecided.advances_eq watched now
  obtain ⟨fc, delay, normal, instr⟩ :=
    next_normal program registers held b undecided.normal
  rw [advance, undecided.instr, undecided.fc] at fc
  rw [advance, undecided.delay, Bool.not_false, Bool.true_and] at delay
  constructor
  · refine ⟨fc, normal, ?_, ?_⟩
    · simp only [monitor, silent, now, Bool.not_true, Bool.and_false, Bool.or_false]
    · intro still
      rw [delay] at still
      rw [instr, reference, still, if_neg Bool.false_ne_true, undecided.fc]
  · rw [moves_eq undecided.normal, advance, undecided.fc, leaves]

end Step

section Run

variable {program : Flow → Instr} {registers : BitVec 3 → BitVec 32} {held : Bus} {f : Flow}
  {t : Transaction} {s : State × Bool}

/-- After its request a transaction is either decided on, or nothing has moved since. -/
def Underway (program : Flow → Instr) (registers : BitVec 3 → BitVec 32) (f : Flow)
    (t : Transaction) (s : State × Bool) (left : List Flow) : Prop :=
  (Undecided program f t s ∧ left = []) ∨
    (Settled program (reference program registers f t) s ∧ left = leaves program registers f t)

variable (held) in
theorem Underway.step {left : List Flow} {b : Bus} (underway : Underway program registers f t s left)
    (watched : Watched registers s b) (silent : b.valid = false)
    (data : b.ready = true → b.rdata = t.rdata) :
    Underway program registers f t ((monitor program registers held).next s b)
      (left ++ moves registers s b) := by
  rcases underway with ⟨undecided, rfl⟩ | ⟨settled, rfl⟩
  · cases now : decides s.1 with
    | false =>
        obtain ⟨still, none⟩ := undecided.wait registers held silent now data
        exact .inl ⟨still, by rw [none, List.nil_append]⟩
    | true =>
        obtain ⟨settled, left⟩ := undecided.decide held watched silent now
        exact .inr ⟨settled, by rw [left, List.nil_append]⟩
  · obtain ⟨settled, none⟩ := settled.step held watched silent
    exact .inr ⟨settled, by rw [none, List.append_nil]⟩

variable (held) in
/-- With the response at hand the next cycle decides. -/
theorem Underway.gap {left : List Flow} {b : Bus} (underway : Underway program registers f t s left)
    (ready : s.1.rIReady = true) (watched : Watched registers s b) (silent : b.valid = false) :
    Settled program (reference program registers f t)
        ((monitor program registers held).next s b) ∧
      left ++ moves registers s b = leaves program registers f t := by
  rcases underway with ⟨undecided, rfl⟩ | ⟨settled, rfl⟩
  · have now : decides s.1 = true := by
      rw [decides, undecided.delay, transactEvent, undecided.instr]
      cases select : (program f).transactSelect with
      | false => exact undecided.valid select
      | true => exact ready
    exact undecided.decide held watched silent now
  · obtain ⟨settled, none⟩ := settled.step held watched silent
    exact ⟨settled, by rw [none, List.append_nil]⟩

/-- Cycles without a request between two transactions. -/
theorem Settled.idle (bs : List Bus) (settled : Settled program f s)
    (watched : (monitor program registers held).Legal (Watched registers) s (bs.map Bus.silent)) :
    Settled program f ((monitor program registers held).runFrom s (bs.map Bus.silent)) ∧
      (monitor program registers held).collect (moves registers) s (bs.map Bus.silent) = [] := by
  induction bs generalizing s with
  | nil => exact ⟨settled, rfl⟩
  | cons b rest ih =>
      obtain ⟨next, none⟩ := settled.step held watched.1 rfl
      obtain ⟨later, silent⟩ := ih next watched.2
      refine ⟨later, ?_⟩
      rw [List.map_cons, Machine.collect_cons, none, silent, List.nil_append]

/-- The cycles in which the response is missing. -/
theorem Underway.waits (bs : List Bus) {left : List Flow}
    (underway : Underway program registers f t s left)
    (watched : (monitor program registers held).Legal (Watched registers) s
      (bs.map Bus.waiting)) :
    Underway program registers f t
      ((monitor program registers held).runFrom s (bs.map Bus.waiting))
      (left ++
        (monitor program registers held).collect (moves registers) s (bs.map Bus.waiting)) := by
  induction bs generalizing s left with
  | nil =>
      rw [List.map_nil, Machine.collect_nil, Machine.runFrom_nil, List.append_nil]
      exact underway
  | cons b rest ih =>
      have next := underway.step held watched.1 rfl
        fun ready => (Bool.false_ne_true ready).elim
      have later := ih next watched.2
      rwa [List.append_assoc] at later

/-- The cycles up to the response. -/
theorem Undecided.answered (undecided : Undecided program f t s)
    (first : s.1.rIReady = t.late.isNone)
    (watched : (monitor program registers held).Legal (Watched registers) s t.answer) :
    Underway program registers f t ((monitor program registers held).runFrom s t.answer)
        ((monitor program registers held).collect (moves registers) s t.answer) ∧
      ((monitor program registers held).runFrom s t.answer).1.rIReady = true := by
  have start : Underway program registers f t s [] := .inl ⟨undecided, rfl⟩
  cases late : t.late with
  | none =>
      have none : t.answer = [] := by rw [Transaction.answer, late]
      rw [none]
      refine ⟨start, ?_⟩
      rw [Machine.runFrom_nil, first, late]
      rfl
  | some cycles =>
      obtain ⟨waits, response⟩ := cycles
      have split : t.answer = waits.map Bus.waiting ++ [response.answering] := by
        rw [Transaction.answer, late]
      rw [split, Machine.legal_append] at watched
      have waited := start.waits waits watched.1
      have data : response.answering.rdata = t.rdata := by
        rw [Transaction.rdata, late]
        rfl
      have answered := waited.step held watched.2.1 rfl fun _ => data
      rw [List.nil_append] at answered
      rw [split, Machine.runFrom_append, Machine.collect_append, Machine.collect_cons,
        Machine.collect_nil, List.append_nil]
      exact ⟨answered, rfl⟩

/-- A transaction moves the monitor as it moves the reference, once or not at all. -/
theorem Settled.transaction (settled : Settled program f s)
    (watched : (monitor program registers held).Legal (Watched registers) s t.cycles) :
    Settled program (reference program registers f t)
        ((monitor program registers held).runFrom s t.cycles) ∧
      (monitor program registers held).collect (moves registers) s t.cycles =
        leaves program registers f t := by
  obtain ⟨first, rest⟩ := watched
  obtain ⟨undecided, none⟩ := settled.request held first
  rw [Machine.legal_append, Machine.legal_cons] at rest
  obtain ⟨toAnswer, gap, idle⟩ := rest
  obtain ⟨underway, ready⟩ := undecided.answered rfl toAnswer
  obtain ⟨decided, left⟩ := underway.gap held ready gap rfl
  obtain ⟨after, silent⟩ := decided.idle t.idle idle
  rw [Transaction.cycles, Machine.runFrom_cons, Machine.runFrom_append, Machine.runFrom_cons,
    Machine.collect_cons, Machine.collect_append, Machine.collect_cons, none, silent,
    List.append_nil, List.nil_append]
  exact ⟨after, left⟩

end Run

/-- The agreement of a run: the idle cycles before the first transaction move nothing, and after
any number of transactions the flow state is that of the reference and the next transaction leaves
a state exactly when the reference does. -/
def Follows (program : Flow → Instr) (registers : BitVec 3 → BitVec 32) (held : Bus)
    (lead : List Bus) (ts : List Transaction) : Prop :=
  let M := monitor program registers held
  M.collect (moves registers) M.reset (lead.map Bus.silent) = [] ∧
    (∀ before, before <+: ts →
      (M.run (lead.map Bus.silent ++ before.flatMap Transaction.cycles)).1.fc =
        before.foldl (reference program registers) 0) ∧
    ∀ before t, before ++ [t] <+: ts →
      M.collect (moves registers)
          (M.run (lead.map Bus.silent ++ before.flatMap Transaction.cycles)) t.cycles =
        leaves program registers (before.foldl (reference program registers) 0) t

end Ariane.FlowProcess
