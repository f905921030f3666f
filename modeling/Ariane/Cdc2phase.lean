import Ariane.Rtl.Stream
import Mathlib.Algebra.Group.Nat.Defs

set_option autoImplicit false

/- `cdc_2phase.sv`: items cross from one clock to another, with a level change for each request and
each acknowledgement. The edges of the two clocks come in any order, and a wire that is sampled while
it may still change is read as it was or as it is. -/
namespace Ariane.Cdc2phase

open Rtl (Machine)

variable {α : Type}

/-- The registers of `cdc_2phase_src`. -/
structure Src (α : Type) where
  reqSrc : Bool := false
  dataSrc : α
  ackSrc : Bool := false
  ack : Bool := false

/-- The registers of `cdc_2phase_dst`. -/
structure Dst (α : Type) where
  reqDst : Bool := false
  req0 : Bool := false
  req1 : Bool := false
  ackDst : Bool := false
  dataDst : α

/-- `ready_o`. -/
def Src.ready (q : Src α) : Bool := q.reqSrc == q.ack

/-- An edge of `clk_i` in the source domain. -/
def Src.next (q : Src α) (data : α) (valid asyncAck : Bool) : Src α where
  reqSrc := if valid && q.ready then !q.reqSrc else q.reqSrc
  dataSrc := if valid && q.ready then data else q.dataSrc
  ackSrc := asyncAck
  ack := q.ackSrc

/-- `valid_o`. -/
def Dst.valid (q : Dst α) : Bool := q.ackDst != q.req1

/-- An edge of `clk_i` in the destination domain. -/
def Dst.next (q : Dst α) (ready asyncReq : Bool) (asyncData : α) : Dst α where
  ackDst := if q.valid && ready then !q.ackDst else q.ackDst
  dataDst := if q.req0 != q.req1 && !q.valid then asyncData else q.dataDst
  reqDst := asyncReq
  req0 := q.reqDst
  req1 := q.req0

/-- The two halves, and the items that were taken and given. `moved` marks that the wires to the
destination may have changed since its last edge, `acked` the wire back. -/
structure Crossing (α : Type) where
  src : Src α
  dst : Dst α
  moved : Bool := false
  acked : Bool := false
  sent : List α := []
  received : List α := []

/-- An edge of one of the clocks. `old` reads a changing wire as it was; `unsettled` is what is read
from data wires that change. -/
inductive Edge (α : Type)
  | src (data : α) (valid old : Bool)
  | dst (ready old : Bool) (unsettled : α)

namespace Crossing

variable (c : Crossing α)

/-- What is sampled from the acknowledgement. -/
def sampledAck (old : Bool) : Bool := if c.acked && old then !c.dst.ackDst else c.dst.ackDst

/-- What is sampled from the request and the data. -/
def sampledReq (old : Bool) : Bool := if c.moved && old then !c.src.reqSrc else c.src.reqSrc

def sampledData (unsettled : α) : α := if c.moved then unsettled else c.src.dataSrc

def next : Edge α → Crossing α
  | .src data valid old =>
      { c with
        src := c.src.next data valid (c.sampledAck old)
        moved := c.moved || valid && c.src.ready
        acked := false
        sent := if valid && c.src.ready then c.sent ++ [data] else c.sent }
  | .dst ready old unsettled =>
      { c with
        dst := c.dst.next ready (c.sampledReq old) (c.sampledData unsettled)
        moved := false
        acked := c.acked || c.dst.valid && ready
        received := if c.dst.valid && ready then c.received ++ [c.dst.dataDst] else c.received }

end Crossing

/-- Both halves after reset. -/
def machine (zero : α) : Machine (Crossing α) (Edge α) :=
  ⟨{ src := { dataSrc := zero }, dst := { dataDst := zero } }, Crossing.next⟩

/-- A level change on its way: it has passed the first `p` of the six registers behind `req_src_q`. -/
structure Passed (c : Crossing α) (p : Nat) : Prop where
  bound : p ≤ 6
  reqDst : c.dst.reqDst = (c.src.reqSrc ^^ decide (p < 1))
  req0 : c.dst.req0 = (c.src.reqSrc ^^ decide (p < 2))
  req1 : c.dst.req1 = (c.src.reqSrc ^^ decide (p < 3))
  ackDst : c.dst.ackDst = (c.src.reqSrc ^^ decide (p < 4))
  ackSrc : c.src.ackSrc = (c.src.reqSrc ^^ decide (p < 5))
  ack : c.src.ack = (c.src.reqSrc ^^ decide (p < 6))
  moved : c.moved = true → p = 0
  acked : c.acked = true → p = 4
  /-- The item is not given before the change reaches `ack_dst_q`. -/
  history : c.sent = if p < 4 then c.received ++ [c.src.dataSrc] else c.received
  captured : p = 3 → c.dst.dataDst = c.src.dataSrc

section Step

variable {c : Crossing α} {p : Nat}

theorem Passed.ready_iff (passed : Passed c p) : c.src.ready = true ↔ p = 6 := by
  have bound := passed.bound
  rw [Src.ready, passed.ack, beq_iff_eq]
  by_cases last : p < 6
  · rw [decide_eq_true last]
    cases c.src.reqSrc <;> simp <;> omega
  · rw [decide_eq_false last]
    cases c.src.reqSrc <;> simp <;> omega

theorem Passed.valid_iff (passed : Passed c p) : c.dst.valid = true ↔ p = 3 := by
  rw [Dst.valid, passed.ackDst, passed.req1]
  by_cases first : p < 3
  · have second : p < 4 := by omega
    rw [decide_eq_true first, decide_eq_true second]
    cases c.src.reqSrc <;> simp <;> omega
  · rw [decide_eq_false first]
    by_cases second : p < 4
    · rw [decide_eq_true second]
      cases c.src.reqSrc <;> simp <;> omega
    · rw [decide_eq_false second]
      cases c.src.reqSrc <;> simp <;> omega

/-- Where the change is after an edge. -/
def after (c : Crossing α) (p : Nat) : Edge α → Nat
  | .src _ valid old =>
      if p = 4 then if c.acked && old then 4 else 5
      else if p = 5 then 6
      else if p = 6 then if valid then 0 else 6
      else p
  | .dst ready old _ =>
      if p = 0 then if c.moved && old then 0 else 1
      else if p = 1 then 2
      else if p = 2 then 3
      else if p = 3 then if ready then 4 else 3
      else p

/-- The source takes an item at the end of the way, and moves the change through its two registers. -/
theorem Passed.src_next (passed : Passed c p) (data : α) (valid old : Bool) :
    Passed (c.next (.src data valid old)) (after c p (.src data valid old)) := by
  obtain ⟨bound, reqDst, req0, req1, ackDst, ackSrc, ack, moved, acked, history, captured⟩ := passed
  have place : p = 0 ∨ p = 1 ∨ p = 2 ∨ p = 3 ∨ p = 4 ∨ p = 5 ∨ p = 6 := by omega
  rcases place with rfl | rfl | rfl | rfl | rfl | rfl | rfl
  case inr.inr.inr.inr.inl =>
    cases wire : c.acked <;> cases old <;> constructor <;>
      simp_all [Crossing.next, Src.next, Src.ready, Crossing.sampledAck, after]
  case inr.inr.inr.inr.inr.inr =>
    cases valid <;> constructor <;>
      simp_all [Crossing.next, Src.next, Src.ready, Crossing.sampledAck, after]
  all_goals
    constructor <;> simp_all [Crossing.next, Src.next, Src.ready, Crossing.sampledAck, after]

/-- The destination moves the change through its four registers, and captures the item on the way. -/
theorem Passed.dst_next (passed : Passed c p) (ready old : Bool) (unsettled : α) :
    Passed (c.next (.dst ready old unsettled)) (after c p (.dst ready old unsettled)) := by
  obtain ⟨bound, reqDst, req0, req1, ackDst, ackSrc, ack, moved, acked, history, captured⟩ := passed
  have place : p = 0 ∨ p = 1 ∨ p = 2 ∨ p = 3 ∨ p = 4 ∨ p = 5 ∨ p = 6 := by omega
  rcases place with rfl | rfl | rfl | rfl | rfl | rfl | rfl
  case inl =>
    cases wire : c.moved <;> cases old <;> constructor <;>
      simp_all [Crossing.next, Dst.next, Dst.valid, Crossing.sampledReq, after]
  case inr.inr.inr.inl =>
    cases ready <;> constructor <;>
      simp_all [Crossing.next, Dst.next, Dst.valid, Crossing.sampledReq, after]
  all_goals
    constructor <;>
      simp_all [Crossing.next, Dst.next, Dst.valid, Crossing.sampledReq, Crossing.sampledData, after]

theorem Passed.next (passed : Passed c p) (edge : Edge α) :
    Passed (c.next edge) (after c p edge) := by
  cases edge with
  | src data valid old => exact passed.src_next data valid old
  | dst ready old unsettled => exact passed.dst_next ready old unsettled

/-- What is offered stays, with its item, until it is taken. -/
theorem Passed.offer_stays (passed : Passed c p) (offered : c.dst.valid = true) {edge : Edge α}
    (waits : ∀ old unsettled, edge ≠ .dst true old unsettled) :
    (c.next edge).dst.valid = true ∧ (c.next edge).dst.dataDst = c.dst.dataDst := by
  have place := passed.valid_iff.mp offered
  have next := passed.next edge
  cases edge with
  | src data valid old =>
      have still : after c p (.src data valid old) = 3 := by simp [after, place]
      rw [still] at next
      exact ⟨next.valid_iff.mpr rfl, rfl⟩
  | dst ready old unsettled =>
      have idle : ready = false := by
        cases ready with
        | false => rfl
        | true => exact absurd rfl (waits old unsettled)
      have still : after c p (.dst ready old unsettled) = 3 := by simp [after, place, idle]
      rw [still] at next
      refine ⟨next.valid_iff.mpr rfl, ?_⟩
      simp [Crossing.next, Dst.next, offered]

theorem passed_reset (zero : α) : Passed (machine zero).reset 6 := by
  constructor <;> simp [machine]

end Step

/-- Whatever the order of the edges, and however the changing wires are read, a level change is on
its way. -/
theorem passed_run (zero : α) (edges : List (Edge α)) :
    ∃ p, Passed ((machine zero).run edges) p := by
  have step : ∀ c edge, (∃ p, Passed c p) → True → ∃ p, Passed ((machine zero).next c edge) p := by
    intro c edge found _
    obtain ⟨p, passed⟩ := found
    exact ⟨after c p edge, passed.next edge⟩
  exact (machine zero).run_invariant ⟨6, passed_reset zero⟩ step
    ((machine zero).legal_true _ edges)

/-- Nothing is lost, repeated, reordered or read while it changes: what was taken is what was given,
then the one item that is offered or on its way, and no item is on its way when the source is ready.
An offered item stays until it is taken. -/
theorem crossing_lossless (zero : α) (edges : List (Edge α)) :
    let c := (machine zero).run edges
    (c.sent = c.received ∨ c.sent = c.received ++ [c.src.dataSrc]) ∧
      (c.src.ready = true → c.sent = c.received) ∧
      (c.dst.valid = true → c.sent = c.received ++ [c.dst.dataDst]) ∧
      ∀ edge, c.dst.valid = true → (∀ old unsettled, edge ≠ .dst true old unsettled) →
        (c.next edge).dst.valid = true ∧ (c.next edge).dst.dataDst = c.dst.dataDst := by
  intro c
  obtain ⟨p, passed⟩ := passed_run zero edges
  have history := passed.history
  refine ⟨?_, ?_, ?_, fun edge offered waits => passed.offer_stays offered waits⟩
  · by_cases early : p < 4
    · rw [if_pos early] at history
      exact .inr history
    · rw [if_neg early] at history
      exact .inl history
  · intro ready
    have place := passed.ready_iff.mp ready
    rw [if_neg (show ¬ p < 4 by omega)] at history
    exact history
  · intro valid
    have place := passed.valid_iff.mp valid
    rw [if_pos (show p < 4 by omega), ← passed.captured place] at history
    exact history

section Progress

variable (zero : α) (edges : Nat → Edge α)

def Edge.ofSrc : Edge α → Bool
  | .src .. => true
  | .dst .. => false

def Edge.ofDst : Edge α → Bool
  | .src .. => false
  | .dst .. => true

def Edge.taking : Edge α → Bool
  | .src .. => false
  | .dst ready .. => ready

/-- Both clocks go on, and the destination does not refuse for ever. -/
structure Going : Prop where
  src : ∀ t, ∃ u, t ≤ u ∧ (edges u).ofSrc = true
  dst : ∀ t, ∃ u, t ≤ u ∧ (edges u).taking = true

/-- The crossing before edge `t`. -/
def crossingAt (t : Nat) : Crossing α :=
  (machine zero).stateAt (machine zero).reset edges t

def At (t p : Nat) : Prop := Passed (crossingAt zero edges t) p

variable {zero edges}

theorem At.succ {t p : Nat} (here : At zero edges t p) :
    At zero edges (t + 1) (after (crossingAt zero edges t) p (edges t)) :=
  Passed.next here (edges t)

variable (zero edges) in
theorem at_some (t : Nat) : ∃ p, At zero edges t p := by
  induction t with
  | zero => exact ⟨6, passed_reset zero⟩
  | succ t ih =>
      obtain ⟨p, here⟩ := ih
      exact ⟨_, here.succ⟩

/-- A place that only a `signal` ends is kept until there is one. -/
theorem At.wait {signal : Edge α → Bool} {t p : Nat} (here : At zero edges t p)
    (extra : Crossing α → Prop) (start : extra (crossingAt zero edges t))
    (fair : ∀ t, ∃ u, t ≤ u ∧ signal (edges u) = true)
    (stays : ∀ (c : Crossing α) edge, Passed c p → extra c → signal edge = false →
      after c p edge = p ∧ extra (c.next edge)) :
    ∃ u, t ≤ u ∧ (At zero edges u p ∧ extra (crossingAt zero edges u)) ∧ signal (edges u) = true := by
  obtain ⟨w, later, fires⟩ := fair t
  have step : ∀ v, t ≤ v → (At zero edges v p ∧ extra (crossingAt zero edges v)) →
      ¬ signal (edges v) = true →
      At zero edges (v + 1) p ∧ extra (crossingAt zero edges (v + 1)) := by
    intro v _ holds quiet
    obtain ⟨same, kept⟩ := stays _ (edges v) holds.1 holds.2 (Bool.eq_false_iff.mpr quiet)
    have next := holds.1.succ
    rw [same] at next
    exact ⟨next, kept⟩
  exact Machine.wait_until ⟨here, start⟩ later fires step

theorem At.advance {signal : Edge α → Bool} {t p q : Nat} (here : At zero edges t p)
    (fair : ∀ t, ∃ u, t ≤ u ∧ signal (edges u) = true)
    (moves : ∀ (c : Crossing α) edge, signal edge = true → after c p edge = q)
    (stays : ∀ (c : Crossing α) edge, signal edge = false → after c p edge = p) :
    ∃ u, t ≤ u ∧ At zero edges u q := by
  obtain ⟨v, later, holds, signals⟩ := here.wait (fun _ => True) trivial fair
    fun c edge _ _ quiet => ⟨stays c edge quiet, trivial⟩
  have next := holds.1.succ
  rw [moves _ _ signals] at next
  exact ⟨v + 1, by omega, next⟩

theorem Going.anyDst (going : Going edges) (t : Nat) :
    ∃ u, t ≤ u ∧ (edges u).ofDst = true := by
  obtain ⟨u, later, taking⟩ := going.dst t
  refine ⟨u, later, ?_⟩
  cases edge : edges u with
  | src data valid old => simp [edge, Edge.taking] at taking
  | dst ready old unsettled => rfl

/-- The first edge may read a changing wire as it was; the second one does not. -/
theorem At.into {signal : Edge α → Bool} {t p : Nat} (here : At zero edges t p)
    (changing : Crossing α → Bool) (fair : ∀ t, ∃ u, t ≤ u ∧ signal (edges u) = true)
    (keeps : ∀ (c : Crossing α) edge, signal edge = false → after c p edge = p)
    (still : ∀ (c : Crossing α) edge, Passed c p → changing c = false →
      changing (c.next edge) = false)
    (reads : ∀ (c : Crossing α) edge, signal edge = true →
      after c p edge = p + 1 ∨
        (changing c = true ∧ after c p edge = p ∧ changing (c.next edge) = false)) :
    ∃ u, t ≤ u ∧ At zero edges u (p + 1) := by
  obtain ⟨v, later, holds, signals⟩ := here.wait (fun _ => True) trivial fair
    fun c edge _ _ quiet => ⟨keeps c edge quiet, trivial⟩
  have next := holds.1.succ
  rcases reads _ _ signals with first | ⟨_, same, settled⟩
  · rw [first] at next
    exact ⟨v + 1, by omega, next⟩
  · rw [same] at next
    obtain ⟨w, after_v, holds, signals⟩ := next.wait (fun c => changing c = false)
      settled fair
      fun c edge passed quiet silent => ⟨keeps c edge silent, still c edge passed quiet⟩
    have second := holds.1.succ
    rcases reads _ _ signals with passes | ⟨unsettled, _⟩
    · rw [passes] at second
      exact ⟨w + 1, by omega, second⟩
    · rw [holds.2] at unsettled
      exact Bool.noConfusion unsettled

/-- From every place the change goes on. -/
theorem At.next {t p : Nat} (here : At zero edges t p) (going : Going edges) (busy : p < 6) :
    ∃ u, t ≤ u ∧ At zero edges u (p + 1) := by
  have place : p = 0 ∨ p = 1 ∨ p = 2 ∨ p = 3 ∨ p = 4 ∨ p = 5 := by omega
  rcases place with rfl | rfl | rfl | rfl | rfl | rfl
  · apply here.into Crossing.moved going.anyDst
    · intro c edge quiet
      cases edge <;> simp_all [after, Edge.ofDst]
    · intro c edge passed settled
      have idle : c.src.ready = false := by
        apply Bool.eq_false_iff.mpr
        intro ready
        exact absurd (passed.ready_iff.mp ready) (by omega)
      cases edge <;> simp [Crossing.next, settled, idle]
    · intro c edge signals
      cases edge with
      | src data valid old => simp [Edge.ofDst] at signals
      | dst ready old unsettled =>
          cases wire : c.moved <;> cases old <;> simp [after, Crossing.next, wire]
  · apply here.advance going.anyDst <;> intro c edge quiet <;> cases edge <;>
      simp_all [after, Edge.ofDst]
  · apply here.advance going.anyDst <;> intro c edge quiet <;> cases edge <;>
      simp_all [after, Edge.ofDst]
  · apply here.advance going.dst <;> intro c edge quiet <;> cases edge <;>
      simp_all [after, Edge.taking]
  · apply here.into Crossing.acked going.src
    · intro c edge quiet
      cases edge <;> simp_all [after, Edge.ofSrc]
    · intro c edge passed settled
      have idle : c.dst.valid = false := by
        apply Bool.eq_false_iff.mpr
        intro valid
        exact absurd (passed.valid_iff.mp valid) (by omega)
      cases edge <;> simp [Crossing.next, settled, idle]
    · intro c edge signals
      cases edge with
      | dst ready old unsettled => simp [Edge.ofSrc] at signals
      | src data valid old =>
          cases wire : c.acked <;> cases old <;> simp [after, Crossing.next, wire]
  · apply here.advance going.src <;> intro c edge quiet <;> cases edge <;>
      simp_all [after, Edge.ofSrc]

theorem At.arrives {t p d : Nat} (here : At zero edges t p) (going : Going edges)
    (distance : p + d = 6) : ∃ u, t ≤ u ∧ At zero edges u 6 := by
  induction d generalizing t p with
  | zero =>
      have last : p = 6 := distance
      rw [last] at here
      exact ⟨t, Nat.le_refl t, here⟩
  | succ d ih =>
      obtain ⟨v, later, next⟩ := here.next going (by omega)
      obtain ⟨u, after_v, last⟩ := ih next (by omega)
      exact ⟨u, by omega, last⟩

/-- While both clocks go on and the destination takes, the source is ready again at one of its later
edges, with every item it gave received. -/
theorem crossing_progress (going : Going edges) (t : Nat) :
    ∃ u, t ≤ u ∧ (edges u).ofSrc = true ∧ (crossingAt zero edges u).src.ready = true ∧
      (crossingAt zero edges u).received = (crossingAt zero edges u).sent := by
  obtain ⟨p, here⟩ := at_some zero edges t
  obtain ⟨v, later, last⟩ := here.arrives going (Nat.add_sub_cancel' here.bound)
  obtain ⟨u, after_v, holds, signals⟩ := last.wait (fun _ => True) trivial going.src (by
    intro c edge _ _ quiet
    cases edge <;> simp_all [after, Edge.ofSrc])
  have history := holds.1.history
  exact ⟨u, by omega, signals, holds.1.ready_iff.mpr rfl, history.symm⟩

end Progress

/-- The source offers an item at each even edge, the destination takes at each odd one. -/
theorem crossing_progress_alternating :
    let edges : Nat → Edge Nat := fun t =>
      if t % 2 = 0 then .src t true true else .dst true true 99
    ∃ u, 7 ≤ u ∧ (edges u).ofSrc = true ∧ (crossingAt 0 edges u).src.ready = true ∧
      (crossingAt 0 edges u).received = (crossingAt 0 edges u).sent := by
  intro edges
  apply crossing_progress
  constructor
  · intro t
    refine ⟨2 * t, by omega, ?_⟩
    have even : 2 * t % 2 = 0 := by omega
    simp [edges, even, Edge.ofSrc]
  · intro t
    refine ⟨2 * t + 1, by omega, ?_⟩
    have odd : ¬ (2 * t + 1) % 2 = 0 := by omega
    simp only [edges, if_neg odd, Edge.taking]

end Ariane.Cdc2phase
