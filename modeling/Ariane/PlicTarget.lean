import Ariane.Plic
import Ariane.Rtl.Tournament

set_option autoImplicit false

/- `plic_target_slice.sv` with `plic_find_max.sv` for any number of gateways: what a target is told
against the pending and enabled gateways. -/
namespace Ariane.Plic

open Rtl (Tournament.rounds Tournament.Wins Tournament.rounds_wins Tournament.rounds_map)
open Rtl.Ring (clog2 le_two_pow_clog2)

/-- The parameters and inputs of a target slice. The gateways are ordered by their identifiers. -/
structure TargetSlice where
  priorityBitwidth : Nat
  idBitwidth : Nat
  numGateways : Nat
  pending : Nat → Bool
  priority : Nat → BitVec priorityBitwidth
  id : Nat → BitVec idBitwidth
  enable : Nat → Bool
  threshold : BitVec priorityBitwidth
  some : 0 < numGateways
  ascending : ∀ g h, g < h → h < numGateways → id g < id h

namespace TargetSlice

variable (s : TargetSlice)

/-- A priority with the identifier it belongs to. -/
abbrev Candidate := BitVec (s.priorityBitwidth + 1) × BitVec s.idBitwidth

/-- `interrupt_priority_masked`. -/
def masked (g : Nat) : s.Candidate :=
  (if s.enable g && s.pending g then (s.priority g).setWidth _ + 1 else 0, s.id g)

/-- `plic_comparator`. -/
def compare (left right : s.Candidate) : s.Candidate := if right.1 ≤ left.1 then left else right

/-- `best_priority` and `best_id`. -/
def best : s.Candidate :=
  Tournament.rounds s.compare (clog2 s.numGateways)
    (fun g => if g < s.numGateways then s.masked g else (0, 0)) 0

/-- `best_priority - 1 > threshold_i`: the 1 has 32 bits. -/
def above : Bool :=
  decide (s.threshold.setWidth (max (s.priorityBitwidth + 1) 32) < s.best.1.setWidth _ - 1)

/-- `ext_interrupt_present_o`. -/
def present : Bool := s.above && s.best.1 != 0

/-- `identifier_of_largest_o`. -/
def identifierOfLargest : BitVec s.idBitwidth :=
  if s.above && s.best.1 != 0 then s.best.2
  else if !s.above && s.best.1 != 0 then s.best.2
  else 0

/-- A gateway that is pending and enabled. -/
structure Asks (g : Nat) : Prop where
  inside : g < s.numGateways
  pending : s.pending g = true
  enabled : s.enable g = true

/-- The target is told of the first gateway with the largest priority, and is interrupted for a
priority above the threshold. -/
structure Selects : Prop where
  present : s.present = true ↔ ∃ g, s.Asks g ∧ s.threshold < s.priority g
  largest : (∃ g, s.Asks g) → ∃ g, s.Asks g ∧ s.identifierOfLargest = s.id g ∧
    ∀ h, s.Asks h → s.priority h ≤ s.priority g ∧ (s.priority h = s.priority g → s.id g ≤ s.id h)
  none : (∀ g, ¬ s.Asks g) → s.identifierOfLargest = 0

variable {s}

theorem Asks.masked {g : Nat} (asks : s.Asks g) :
    (s.masked g).1.toNat = (s.priority g).toNat + 1 := by
  have bound := (s.priority g).isLt
  have wide : 2 ^ (s.priorityBitwidth + 1) = 2 * 2 ^ s.priorityBitwidth := by
    rw [Nat.pow_succ, Nat.mul_comm]
  have one : (1 : BitVec (s.priorityBitwidth + 1)).toNat = 1 := by
    show 1 % 2 ^ (s.priorityBitwidth + 1) = 1
    exact Nat.mod_eq_of_lt (by omega)
  rw [TargetSlice.masked, asks.enabled, asks.pending, Bool.and_self, if_pos rfl, BitVec.toNat_add,
    BitVec.toNat_setWidth, one]
  rw [Nat.mod_eq_of_lt (by omega : (s.priority g).toNat < 2 ^ (s.priorityBitwidth + 1))]
  exact Nat.mod_eq_of_lt (by omega)

theorem masked_of_silent {g : Nat} (inside : g < s.numGateways) (silent : ¬ s.Asks g) :
    (s.masked g).1 = 0 := by
  rw [TargetSlice.masked]
  apply if_neg
  intro both
  rw [Bool.and_eq_true] at both
  exact silent ⟨inside, both.2, both.1⟩

/-- The operands of the tree. -/
theorem operand_asks {g : Nat}
    (some : (if g < s.numGateways then s.masked g else (0, 0)).1.toNat ≠ 0) : s.Asks g := by
  by_contra silent
  apply some
  by_cases inside : g < s.numGateways
  · rw [if_pos inside, masked_of_silent inside silent]
    rfl
  · rw [if_neg inside]
    rfl

/-- The comparator takes the left operand unless the right one has a larger priority. -/
theorem best_wins :
    Tournament.Wins (fun c : s.Candidate => c.1.toNat)
      (fun g => if g < s.numGateways then s.masked g else (0, 0)) 0 (2 ^ clog2 s.numGateways)
      s.best := by
  have left : ∀ a b : s.Candidate, s.compare a b = if b.1.toNat ≤ a.1.toNat then a else b :=
    fun _ _ => rfl
  have wins := Tournament.rounds_wins left (clog2 s.numGateways)
    (fun g => if g < s.numGateways then s.masked g else (0, 0)) 0
  rwa [Nat.zero_mul] at wins

/-- The best priority is that of the first gateway with the largest one. -/
theorem best_of_asks (some : ∃ g, s.Asks g) : ∃ g, s.Asks g ∧ s.best = s.masked g ∧
    ∀ h, s.Asks h → s.priority h ≤ s.priority g ∧ (s.priority h = s.priority g → g ≤ h) := by
  obtain ⟨j, -, -, winner, most, strict⟩ := s.best_wins
  have wide := le_two_pow_clog2 s.numGateways
  have at_most : ∀ h, s.Asks h → (s.priority h).toNat + 1 ≤ s.best.1.toNat := by
    intro h asks
    have here := most h (Nat.zero_le h) (by have := asks.inside; omega)
    simp only [asks.inside, if_true, asks.masked] at here
    exact here
  obtain ⟨g, first⟩ := some
  have positive := at_most g first
  have asks : s.Asks j := by
    apply operand_asks
    have value := congrArg (fun c : s.Candidate => c.1.toNat) winner
    simp only at value
    omega
  have winner : s.best = s.masked j := winner.trans (if_pos asks.inside)
  refine ⟨j, asks, winner, ?_⟩
  intro h other
  have below := at_most h other
  rw [winner, asks.masked] at below
  refine ⟨BitVec.le_def.mpr (by omega), ?_⟩
  intro same
  by_contra earlier
  have less := strict h (Nat.zero_le h) (by omega)
  simp only [other.inside, if_true, other.masked] at less
  rw [winner, asks.masked, same] at less
  exact Nat.lt_irrefl _ less

theorem best_of_silent (silent : ∀ g, ¬ s.Asks g) : s.best.1 = 0 := by
  obtain ⟨j, -, -, winner, -, -⟩ := s.best_wins
  by_contra some
  apply silent j
  apply operand_asks
  have value := congrArg (fun c : s.Candidate => c.1.toNat) winner
  intro zero
  exact some (BitVec.eq_of_toNat_eq (value.trans zero))

/-- The comparison with the threshold does not wrap for a gateway that asks. -/
theorem above_iff {g : Nat} (asks : s.Asks g) (winner : s.best = s.masked g) :
    s.above = true ↔ s.threshold < s.priority g := by
  have value := asks.masked
  have bound := (s.masked g).1.isLt
  have small := s.threshold.isLt
  have wide : 2 ^ (s.priorityBitwidth + 1) ≤ 2 ^ max (s.priorityBitwidth + 1) 32 :=
    Nat.pow_le_pow_right Nat.two_pos (Nat.le_max_left _ _)
  have shorter : 2 ^ s.priorityBitwidth < 2 ^ (s.priorityBitwidth + 1) :=
    Nat.pow_lt_pow_right Nat.one_lt_two (Nat.lt_succ_self _)
  have positive := Nat.two_pow_pos s.priorityBitwidth
  have one : (1 : BitVec (max (s.priorityBitwidth + 1) 32)).toNat = 1 := by
    show 1 % 2 ^ max (s.priorityBitwidth + 1) 32 = 1
    exact Nat.mod_eq_of_lt (by omega)
  rw [above, decide_eq_true_iff, BitVec.lt_def, BitVec.lt_def, winner, BitVec.toNat_sub_of_le,
    BitVec.toNat_setWidth, BitVec.toNat_setWidth, one, Nat.mod_eq_of_lt (by omega),
    Nat.mod_eq_of_lt (by omega), value]
  · omega
  · rw [BitVec.le_def, one, BitVec.toNat_setWidth, Nat.mod_eq_of_lt (by omega), value]
    omega

theorem identifierOfLargest_eq :
    s.identifierOfLargest = if s.best.1 = 0 then 0 else s.best.2 := by
  rw [identifierOfLargest]
  by_cases zero : s.best.1 = 0
  · simp [zero]
  · cases s.above <;> simp

theorem id_le {g h : Nat} (order : g ≤ h) (inside : h < s.numGateways) : s.id g ≤ s.id h := by
  rcases Nat.eq_or_lt_of_le order with same | less
  · rw [same]
    exact BitVec.le_refl _
  · exact BitVec.le_of_lt (s.ascending g h less inside)

theorem selects (s : TargetSlice) : s.Selects := by
  constructor
  · constructor
    · intro present
      rw [TargetSlice.present, Bool.and_eq_true, bne_iff_ne] at present
      have some : ∃ g, s.Asks g := by
        by_contra none
        exact present.2 (best_of_silent fun g asks => none ⟨g, asks⟩)
      obtain ⟨g, asks, winner, -⟩ := best_of_asks some
      exact ⟨g, asks, (above_iff asks winner).mp present.1⟩
    · rintro ⟨h, other, more⟩
      obtain ⟨g, asks, winner, largest⟩ := best_of_asks ⟨h, other⟩
      have most := (largest h other).1
      rw [BitVec.lt_def] at more
      rw [BitVec.le_def] at most
      have above := (above_iff asks winner).mpr (BitVec.lt_def.mpr (Nat.lt_of_lt_of_le more most))
      have value := asks.masked
      rw [TargetSlice.present, above, Bool.true_and, bne_iff_ne, winner]
      intro zero
      rw [zero] at value
      exact absurd value (Nat.succ_ne_zero _).symm
  · intro some
    obtain ⟨g, asks, winner, largest⟩ := best_of_asks some
    have value := asks.masked
    have positive : s.best.1 ≠ 0 := by
      rw [winner]
      intro zero
      rw [zero] at value
      exact absurd value (Nat.succ_ne_zero _).symm
    refine ⟨g, asks, ?_, fun h other => ⟨(largest h other).1, fun same => ?_⟩⟩
    · rw [identifierOfLargest_eq, if_neg positive, winner]
      rfl
    · exact id_le ((largest h other).2 same) other.inside
  · intro silent
    rw [identifierOfLargest_eq, if_pos (best_of_silent silent)]

end TargetSlice

section Controller

variable {p : Parameters} (s : State p) (i : Input)

/-- The slice of target `t`. -/
def targetSlice (t : Nat) : TargetSlice where
  priorityBitwidth := p.parameterBitwidth
  idBitwidth := p.idBitwidth
  numGateways := p.numSources
  pending g := gatewayIrqPending s i g
  priority := s.priorities
  id g := BitVec.ofNat _ (g + 1)
  enable g := irqEnabled s g t
  threshold := s.thresholds t
  some := p.numSources_pos
  ascending := by
    intro g h less inside
    have room := p.numbers
    rw [BitVec.lt_def, BitVec.toNat_ofNat, BitVec.toNat_ofNat, Nat.mod_eq_of_lt (by omega),
      Nat.mod_eq_of_lt (by omega)]
    omega

theorem stages_rounds (k : Nat) (operands : Nat → Operand p) (j : Nat) :
    stages k operands j = Tournament.rounds comparator k operands j := by
  induction k generalizing operands with
  | zero => rfl
  | succ k ih => exact ih fun j => comparator (operands (2 * j)) (operands (2 * j + 1))

theorem best_targetSlice (t : Nat) :
    (targetSlice s i t).best = ((best s i t).priority, (best s i t).identifier) := by
  have agree : ∀ a b : Operand p,
      ((comparator a b).priority, (comparator a b).identifier) =
        (targetSlice s i t).compare (a.priority, a.identifier) (b.priority, b.identifier) := by
    intro a b
    rw [comparator]
    by_cases larger : b.priority ≤ a.priority
    · rw [if_pos larger]
      exact (if_pos larger).symm
    · rw [if_neg larger]
      exact (if_neg larger).symm
  rw [best, findMax, stages_rounds, TargetSlice.best,
    Tournament.rounds_map (fun o : Operand p => (o.priority, o.identifier)) agree]
  congr 1
  funext g
  by_cases inside : g < p.numSources
  · rw [if_pos inside]
    exact if_pos inside
  · rw [if_neg inside]
    exact if_neg inside

/-- All widths are below 32 here. -/
theorem aboveThreshold_targetSlice (t : Nat) :
    aboveThreshold s i t = (targetSlice s i t).above := by
  have width : max (p.parameterBitwidth + 1) 32 = 32 := by
    have := p.parameterBitwidth_lt
    omega
  have same : ∀ w, w = 32 → aboveThreshold s i t =
      decide ((s.thresholds t).setWidth w < (best s i t).priority.setWidth w - 1) := by
    rintro w rfl
    rfl
  rw [TargetSlice.above, best_targetSlice]
  exact same _ width

theorem eipTarget_targetSlice (t : Nat) : eipTarget s i t = (targetSlice s i t).present := by
  rw [eipTarget, TargetSlice.present, aboveThreshold_targetSlice, best_targetSlice]
  rfl

theorem identifierOfLargest_targetSlice (t : Nat) :
    identifierOfLargest s i t = (targetSlice s i t).identifierOfLargest := by
  rw [identifierOfLargest, TargetSlice.identifierOfLargest, aboveThreshold_targetSlice,
    best_targetSlice]
  rfl

end Controller

/-- For any number of gateways a target slice selects the first one with the largest priority, and
the controller drives each of its targets with such a slice. -/
theorem target_selection :
    (∀ slice : TargetSlice, slice.Selects) ∧
      ∀ (p : Parameters) (s : State p) (i : Input) (t : Nat),
        eipTarget s i t = (targetSlice s i t).present ∧
          identifierOfLargest s i t = (targetSlice s i t).identifierOfLargest :=
  ⟨fun slice => slice.selects, fun _ s i t =>
    ⟨eipTarget_targetSlice s i t, identifierOfLargest_targetSlice s i t⟩⟩

end Ariane.Plic
