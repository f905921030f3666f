import Ariane.Rtl.Gray
import Mathlib.Algebra.Group.Nat.Defs

set_option autoImplicit false

/- A counter that another clock domain follows: its Gray code goes through two registers of the other
domain. The wires that the last edge changed may be read before they settle. -/
namespace Rtl.Gray

/-- The counter and its code, the code before the last edge where that may still be read, and the
two registers in the other domain. -/
structure Pointer (w : Nat) where
  bin : BitVec w
  gray : BitVec w
  was : BitVec w
  first : BitVec w
  second : BitVec w

/-- How far each register of a pointer is. -/
structure Counts where
  now : Nat
  was : Nat
  first : Nat
  second : Nat

variable {w : Nat}

/-- Counters less than a turn apart are equal for equal counts only. -/
theorem ofNat_add_eq_iff {m d e : Nat} (first : d < 2 ^ w) (second : e < 2 ^ w) :
    BitVec.ofNat w (m + d) = BitVec.ofNat w (m + e) ↔ d = e := by
  constructor
  · intro same
    rw [BitVec.ofNat_add, BitVec.ofNat_add, BitVec.add_right_inj] at same
    have value := congrArg BitVec.toNat same
    rw [BitVec.toNat_ofNat, BitVec.toNat_ofNat, Nat.mod_eq_of_lt first,
      Nat.mod_eq_of_lt second] at value
    exact value
  · intro same
    rw [same]

namespace Pointer

/-- An edge of the own clock. -/
def own (q : Pointer w) (go : Bool) : Pointer w :=
  { q with
    bin := if go then q.bin + 1 else q.bin
    gray := if go then encode (q.bin + 1) else q.gray
    was := q.gray }

/-- An edge of the other clock: bit `i` of the code is read as it was where the mask says so. -/
def other (q : Pointer w) (mask : BitVec w) : Pointer w :=
  { q with
    was := q.gray
    first := sample q.was q.gray mask
    second := q.first }

/-- The code before the last edge is read. -/
def late (q : Pointer w) (mask : BitVec w) : Bool := sample q.was q.gray mask == q.was

end Pointer

namespace Counts

def own (k : Counts) (go : Bool) : Counts :=
  { k with now := if go then k.now + 1 else k.now, was := k.now }

def other (k : Counts) (late : Bool) : Counts :=
  { k with was := k.now, first := if late then k.was else k.now, second := k.first }

end Counts

/-- The registers hold the codes of the counts, and the other domain follows behind. -/
structure Tracks (q : Pointer w) (k : Counts) : Prop where
  bin : q.bin = BitVec.ofNat w k.now
  gray : q.gray = encode (BitVec.ofNat w k.now)
  was : q.was = encode (BitVec.ofNat w k.was)
  first : q.first = encode (BitVec.ofNat w k.first)
  second : q.second = encode (BitVec.ofNat w k.second)
  was_le : k.was ≤ k.now
  now_le : k.now ≤ k.was + 1
  first_le : k.first ≤ k.was
  second_le : k.second ≤ k.first

namespace Tracks

variable {q : Pointer w} {k : Counts}

theorem zero : Tracks (⟨0, 0, 0, 0, 0⟩ : Pointer w) ⟨0, 0, 0, 0⟩ := by
  have code : (0 : BitVec w) = encode (BitVec.ofNat w 0) := by simp [encode]
  exact ⟨rfl, code, code, code, code, Nat.le_refl 0, Nat.zero_le 1, Nat.le_refl 0, Nat.le_refl 0⟩

theorem first_le_now (tracks : Tracks q k) : k.first ≤ k.now :=
  Nat.le_trans tracks.first_le tracks.was_le

theorem second_le_now (tracks : Tracks q k) : k.second ≤ k.now :=
  Nat.le_trans tracks.second_le tracks.first_le_now

/-- The other domain reads the counter back. -/
theorem decode_second (tracks : Tracks q k) : decode q.second = BitVec.ofNat w k.second := by
  rw [tracks.second, decode_encode]

theorem own (tracks : Tracks q k) (go : Bool) : Tracks (q.own go) (k.own go) := by
  cases go with
  | false =>
      exact ⟨tracks.bin, tracks.gray, tracks.gray, tracks.first, tracks.second,
        Nat.le_refl _, Nat.le_succ _, tracks.first_le_now, tracks.second_le⟩
  | true =>
      have bin : q.bin + 1 = BitVec.ofNat w (k.now + 1) := by
        rw [tracks.bin, BitVec.ofNat_add]
        rfl
      refine ⟨bin, ?_, tracks.gray, tracks.first, tracks.second, Nat.le_succ _, Nat.le_refl _,
        tracks.first_le_now, tracks.second_le⟩
      change encode (q.bin + 1) = _
      rw [bin]
      rfl

/-- What is read is the code before or after the last edge, whatever is read of each wire. -/
theorem sample (tracks : Tracks q k) (mask : BitVec w) :
    Gray.sample q.was q.gray mask = q.was ∨ Gray.sample q.was q.gray mask = q.gray := by
  have was_le := tracks.was_le
  have now_le := tracks.now_le
  rw [tracks.was, tracks.gray]
  by_cases moved : k.now = k.was + 1
  · have sum : BitVec.ofNat w k.now = BitVec.ofNat w k.was + 1 := by
      rw [moved, BitVec.ofNat_add]
      rfl
    rw [sum]
    exact sample_encode _ mask
  · have same : k.now = k.was := by omega
    rw [same, sample_same]
    exact .inl rfl

theorem other (tracks : Tracks q k) (mask : BitVec w) :
    Tracks (q.other mask) (k.other (q.late mask)) := by
  have was_le := tracks.was_le
  have first_le := tracks.first_le
  by_cases old : Gray.sample q.was q.gray mask = q.was
  · have late : q.late mask = true := beq_iff_eq.mpr old
    rw [late]
    refine ⟨tracks.bin, tracks.gray, tracks.gray, ?_, tracks.first, Nat.le_refl _,
      Nat.le_succ _, was_le, first_le⟩
    change Gray.sample q.was q.gray mask = _
    rw [old, tracks.was]
    rfl
  · have late : q.late mask = false := beq_eq_false_iff_ne.mpr old
    have new := (tracks.sample mask).resolve_left old
    rw [late]
    refine ⟨tracks.bin, tracks.gray, tracks.gray, ?_, tracks.first, Nat.le_refl _,
      Nat.le_succ _, Nat.le_refl _, tracks.first_le_now⟩
    change Gray.sample q.was q.gray mask = _
    rw [new, tracks.gray]
    rfl

end Tracks

section Follow

/-- The counts over all edges, `other` those of the other clock. -/
structure Goes (k : Nat → Counts) (other : Nat → Prop) : Prop where
  second_le : ∀ t, (k t).second ≤ (k t).first
  first_le : ∀ t, (k t).first ≤ (k t).was
  was_le : ∀ t, (k t).was ≤ (k t).now
  own : ∀ t, ¬ other t → ∃ go, k (t + 1) = (k t).own go
  other : ∀ t, other t → ∃ late, k (t + 1) = (k t).other late

namespace Goes

variable {k : Nat → Counts} {other : Nat → Prop} (goes : Goes k other)

include goes

/-- Every register goes forward, and an edge of the other clock hands its count on. -/
theorem step (t : Nat) :
    (k t).now ≤ (k (t + 1)).now ∧ (k t).was ≤ (k (t + 1)).was ∧
      (k t).first ≤ (k (t + 1)).first ∧ (k t).second ≤ (k (t + 1)).second ∧
      (other t → (k t).now ≤ (k (t + 1)).was ∧ (k t).was ≤ (k (t + 1)).first ∧
        (k t).first ≤ (k (t + 1)).second) := by
  have second_le := goes.second_le t
  have first_le := goes.first_le t
  have was_le := goes.was_le t
  by_cases edge : other t
  · obtain ⟨late, next⟩ := goes.other t edge
    cases late <;> simp [next, Counts.other] <;> omega
  · obtain ⟨go, next⟩ := goes.own t edge
    cases go <;> simp [next, Counts.own, edge, was_le]

theorem now_mono {t u : Nat} (later : t ≤ u) : (k t).now ≤ (k u).now := by
  induction later with
  | refl => exact Nat.le_refl _
  | step _ ih => exact Nat.le_trans ih (goes.step _).1

theorem second_mono {t u : Nat} (later : t ≤ u) : (k t).second ≤ (k u).second := by
  induction later with
  | refl => exact Nat.le_refl _
  | step _ ih => exact Nat.le_trans ih (goes.step _).2.2.2.1

/-- The other domain reaches every count. -/
theorem reaches (fair : ∀ t, ∃ u, t ≤ u ∧ other u) (t : Nat) :
    ∃ u, t ≤ u ∧ (k t).now ≤ (k u).second := by
  have was_mono {u v : Nat} (later : u ≤ v) : (k u).was ≤ (k v).was := by
    induction later with
    | refl => exact Nat.le_refl _
    | step _ ih => exact Nat.le_trans ih (goes.step _).2.1
  have first_mono {u v : Nat} (later : u ≤ v) : (k u).first ≤ (k v).first := by
    induction later with
    | refl => exact Nat.le_refl _
    | step _ ih => exact Nat.le_trans ih (goes.step _).2.2.1
  obtain ⟨a, first, edge_a⟩ := fair t
  obtain ⟨b, second, edge_b⟩ := fair (a + 1)
  obtain ⟨c, third, edge_c⟩ := fair (b + 1)
  have now := goes.now_mono first
  have was := was_mono second
  have register := first_mono third
  have handed_a := ((goes.step a).2.2.2.2 edge_a).1
  have handed_b := ((goes.step b).2.2.2.2 edge_b).2.1
  have handed_c := ((goes.step c).2.2.2.2 edge_c).2.2
  exact ⟨c + 1, by omega, by omega⟩

end Goes

end Follow

end Rtl.Gray
