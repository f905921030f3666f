import Mathlib.Logic.Basic

set_option autoImplicit false

/- Packed structures: a register is a bit vector, and a member of it is a field, a run of
neighbouring bits that can be read and replaced. -/
namespace Rtl

/-- A member of a packed structure of `w` bits. -/
structure Field (w : Nat) where
  lo : Nat
  len : Nat
  inside : lo + len ≤ w

namespace Field

variable {w : Nat}

/-- The bits of the field. -/
def mask (f : Field w) : BitVec w := (BitVec.allOnes f.len).setWidth w <<< f.lo

/-- Bit `i` belongs to the field. -/
def Has (f : Field w) (i : Nat) : Prop := f.lo ≤ i ∧ i < f.lo + f.len

instance decidableHas (f : Field w) (i : Nat) : Decidable (f.Has i) :=
  inferInstanceAs (Decidable (_ ∧ _))

/-- Two fields without a common bit. -/
def Disjoint (f g : Field w) : Prop := f.lo + f.len ≤ g.lo ∨ g.lo + g.len ≤ f.lo

instance decidableDisjoint (f g : Field w) : Decidable (f.Disjoint g) :=
  inferInstanceAs (Decidable (_ ∨ _))

end Field

/-- Read member `f`. -/
def member {w : Nat} (x : BitVec w) (f : Field w) : BitVec f.len := x.extractLsb' f.lo f.len

/-- Replace member `f`. -/
def assign {w : Nat} (x : BitVec w) (f : Field w) (v : BitVec f.len) : BitVec w :=
  (x &&& ~~~f.mask) ||| (v.setWidth w <<< f.lo)

/-- Write the bits of `m`, keep the others. -/
def merge {w : Nat} (m old new : BitVec w) : BitVec w := (old &&& ~~~m) ||| (new &&& m)

section Lemmas

variable {w : Nat} (x y m : BitVec w) (f g : Field w) (v : BitVec f.len) (i : Nat)

theorem getLsbD_mask : f.mask.getLsbD i = decide (f.Has i) := by
  have inside := f.inside
  simp only [Field.mask, Field.Has, BitVec.getLsbD_shiftLeft, BitVec.getLsbD_setWidth,
    BitVec.getLsbD_allOnes]
  grind

theorem getLsbD_member : (member x f).getLsbD i = (decide (i < f.len) && x.getLsbD (f.lo + i)) :=
  BitVec.getLsbD_extractLsb' ..

theorem getLsbD_assign :
    (assign x f v).getLsbD i = if f.Has i then v.getLsbD (i - f.lo) else x.getLsbD i := by
  have inside := f.inside
  by_cases small : i < w
  · simp only [assign, BitVec.getLsbD_or, BitVec.getLsbD_and, BitVec.getLsbD_not, getLsbD_mask,
      BitVec.getLsbD_shiftLeft, BitVec.getLsbD_setWidth, Field.Has, small]
    by_cases low : i < f.lo
    · grind
    · by_cases high : i - f.lo < f.len
      · grind
      · have beyond : v.getLsbD (i - f.lo) = false := BitVec.getLsbD_of_ge v _ (by omega)
        grind
  · have outside : ¬ f.Has i := by
      unfold Field.Has
      omega
    rw [if_neg outside, BitVec.getLsbD_of_ge _ _ (by omega), BitVec.getLsbD_of_ge _ _ (by omega)]

theorem getLsbD_merge :
    (merge m x y).getLsbD i = if m.getLsbD i then y.getLsbD i else x.getLsbD i := by
  by_cases small : i < w
  · simp only [merge, BitVec.getLsbD_or, BitVec.getLsbD_and, BitVec.getLsbD_not, small,
      decide_true, Bool.true_and]
    cases m.getLsbD i with
    | true => simp
    | false => simp
  · rw [BitVec.getLsbD_of_ge _ _ (by omega), BitVec.getLsbD_of_ge m _ (by omega),
      BitVec.getLsbD_of_ge x _ (by omega)]
    rfl

@[simp] theorem member_assign_self : member (assign x f v) f = v := by
  apply BitVec.eq_of_getLsbD_eq
  intro i inside
  have here : f.Has (f.lo + i) := ⟨by omega, by omega⟩
  rw [getLsbD_member, getLsbD_assign, if_pos here, decide_eq_true inside, Bool.true_and,
    Nat.add_sub_cancel_left]

theorem member_assign_of_disjoint (apart : f.Disjoint g) : member (assign x f v) g = member x g := by
  apply BitVec.eq_of_getLsbD_eq
  intro i inside
  have away : ¬ f.Has (g.lo + i) := by
    unfold Field.Disjoint at apart
    unfold Field.Has
    omega
  rw [getLsbD_member, getLsbD_assign, if_neg away, getLsbD_member]

/-- Writing the value that a field has changes nothing. -/
theorem assign_of_member (same : member x f = v) : assign x f v = x := by
  apply BitVec.eq_of_getLsbD_eq
  intro i inside
  rw [getLsbD_assign]
  by_cases here : f.Has i
  · obtain ⟨low, high⟩ := here
    rw [if_pos ⟨low, high⟩, ← same, getLsbD_member, Nat.add_sub_cancel' low]
    have short : i - f.lo < f.len := by omega
    rw [decide_eq_true short, Bool.true_and]
  · rw [if_neg here]

/-- Replacing a field replaces one summand. -/
theorem assign_add_field : assign x f v + (x &&& f.mask) = x + v.setWidth w <<< f.lo := by
  have apart : (x &&& ~~~f.mask) &&& (v.setWidth w <<< f.lo) = 0#w := by
    apply BitVec.eq_of_getLsbD_eq
    intro i inside
    simp only [BitVec.getLsbD_and, BitVec.getLsbD_not, getLsbD_mask, BitVec.getLsbD_shiftLeft,
      BitVec.getLsbD_setWidth, inside, decide_true, Bool.true_and, BitVec.getLsbD_zero]
    by_cases here : f.Has i
    · rw [decide_eq_true here, Bool.not_true, Bool.and_false, Bool.false_and]
    · unfold Field.Has at here
      by_cases low : i < f.lo
      · rw [decide_eq_true low, Bool.not_true, Bool.false_and, Bool.and_false]
      · have beyond : v.getLsbD (i - f.lo) = false := BitVec.getLsbD_of_ge v _ (by omega)
        rw [beyond, Bool.and_false, Bool.and_false, Bool.and_false]
  have halves : (x &&& ~~~f.mask) &&& (x &&& f.mask) = 0#w := by
    apply BitVec.eq_of_getLsbD_eq
    intro i inside
    simp only [BitVec.getLsbD_and, BitVec.getLsbD_not, inside, decide_true, Bool.true_and,
      BitVec.getLsbD_zero]
    cases x.getLsbD i <;> cases f.mask.getLsbD i <;> rfl
  have whole : (x &&& ~~~f.mask) ||| (x &&& f.mask) = x := by
    apply BitVec.eq_of_getLsbD_eq
    intro i inside
    simp only [BitVec.getLsbD_or, BitVec.getLsbD_and, BitVec.getLsbD_not, inside, decide_true,
      Bool.true_and]
    cases x.getLsbD i <;> cases f.mask.getLsbD i <;> rfl
  rw [← BitVec.add_eq_or_of_and_eq_zero _ _ halves] at whole
  rw [assign, ← BitVec.add_eq_or_of_and_eq_zero _ _ apart, BitVec.add_assoc,
    BitVec.add_comm (v.setWidth w <<< f.lo), ← BitVec.add_assoc, whole]

/-- A field that no bit of the mask touches is kept by a masked write. -/
theorem member_merge_of_clear (clear : member m f = 0#f.len) : member (merge m x y) f = member x f := by
  apply BitVec.eq_of_getLsbD_eq
  intro i inside
  have off : m.getLsbD (f.lo + i) = false := by
    have bit := congrArg (fun b => b.getLsbD i) clear
    simpa only [getLsbD_member, inside, decide_true, Bool.true_and, BitVec.getLsbD_zero] using bit
  rw [getLsbD_member, getLsbD_merge, off, getLsbD_member]
  rfl

/-- A masked write of the value that is there changes nothing. -/
theorem merge_self : merge m x x = x := by
  apply BitVec.eq_of_getLsbD_eq
  intro i inside
  rw [getLsbD_merge, ite_self]

/-- A register without a bit outside the mask takes the masked value. -/
theorem merge_of_masked (masked : x &&& ~~~m = 0#w) : merge m x y = y &&& m := by
  rw [merge, masked]
  exact BitVec.zero_or

/-- A masked write of a view that shows the mask changes nothing. -/
theorem merge_and_self (view : BitVec w) (shown : m &&& ~~~view = 0#w) :
    merge m x (x &&& view) = x := by
  apply BitVec.eq_of_getLsbD_eq
  intro i inside
  have bit := congrArg (fun b => b.getLsbD i) shown
  simp only [BitVec.getLsbD_and, BitVec.getLsbD_not, inside, decide_true, Bool.true_and,
    BitVec.getLsbD_zero] at bit
  rw [getLsbD_merge]
  cases on : m.getLsbD i with
  | true =>
      rw [on, Bool.true_and, Bool.not_eq_false'] at bit
      rw [if_pos rfl, BitVec.getLsbD_and, bit, Bool.and_true]
  | false => rw [if_neg Bool.false_ne_true]

/-- A masked write of a value that was masked before sets no other bit. -/
theorem merge_and_not_self : merge m x y &&& ~~~m = x &&& ~~~m := by
  apply BitVec.eq_of_getLsbD_eq
  intro i inside
  simp only [BitVec.getLsbD_and, BitVec.getLsbD_not, getLsbD_merge, inside, decide_true,
    Bool.true_and]
  cases m.getLsbD i with
  | true => simp
  | false => simp

/-- A masked write inside `outer` stays inside `outer`. -/
theorem merge_within (outer : BitVec w) (mask : m &&& ~~~outer = 0#w)
    (old : x &&& ~~~outer = 0#w) : merge m x y &&& ~~~outer = 0#w := by
  apply BitVec.eq_of_getLsbD_eq
  intro i inside
  have maskBit := congrArg (fun b => b.getLsbD i) mask
  have oldBit := congrArg (fun b => b.getLsbD i) old
  simp only [BitVec.getLsbD_and, BitVec.getLsbD_not, inside, decide_true, Bool.true_and,
    BitVec.getLsbD_zero] at maskBit oldBit ⊢
  rw [getLsbD_merge]
  cases on : m.getLsbD i with
  | true =>
      rw [on, Bool.true_and] at maskBit
      rw [maskBit, Bool.and_false]
  | false => exact oldBit

end Lemmas

/-- The two vectors differ at most in the listed fields. -/
def AgreeOutside {w : Nat} (fields : List (Field w)) (x y : BitVec w) : Prop :=
  ∀ i, (∀ f ∈ fields, ¬ f.Has i) → x.getLsbD i = y.getLsbD i

section Agree

variable {w : Nat} {fields : List (Field w)} {x y : BitVec w} {f : Field w}

theorem AgreeOutside.refl (fields : List (Field w)) (x : BitVec w) : AgreeOutside fields x x :=
  fun _ _ => rfl

theorem AgreeOutside.of_eq (same : x = y) : AgreeOutside fields x y := by
  rw [same]
  exact AgreeOutside.refl _ _

/-- A listed field may be written. -/
theorem AgreeOutside.assign (agree : AgreeOutside fields x y) (listed : f ∈ fields)
    (v : BitVec f.len) : AgreeOutside fields (assign x f v) y := by
  intro i outside
  rw [getLsbD_assign, if_neg (outside f listed)]
  exact agree i outside

theorem AgreeOutside.assign_if (agree : AgreeOutside fields x y) (listed : f ∈ fields)
    (v : BitVec f.len) (c : Prop) [Decidable c] :
    AgreeOutside fields (if c then Rtl.assign x f v else x) y := by
  split
  · exact agree.assign listed v
  · exact agree

/-- The same write on both sides keeps the agreement. -/
theorem AgreeOutside.assign_both (agree : AgreeOutside fields x y) (g : Field w)
    (v : BitVec g.len) : AgreeOutside fields (Rtl.assign x g v) (Rtl.assign y g v) := by
  intro i outside
  rw [getLsbD_assign, getLsbD_assign]
  split
  · rfl
  · exact agree i outside

theorem AgreeOutside.and (agree : AgreeOutside fields x y) (m : BitVec w) :
    AgreeOutside fields (x &&& m) (y &&& m) := by
  intro i outside
  rw [BitVec.getLsbD_and, BitVec.getLsbD_and, agree i outside]

theorem AgreeOutside.symm (agree : AgreeOutside fields x y) : AgreeOutside fields y x :=
  fun i outside => (agree i outside).symm

/-- A field apart from all listed ones has the same value. -/
theorem AgreeOutside.member (agree : AgreeOutside fields x y)
    (apart : ∀ g ∈ fields, g.Disjoint f) : member x f = member y f := by
  apply BitVec.eq_of_getLsbD_eq
  intro i inside
  rw [getLsbD_member, getLsbD_member]
  congr 1
  apply agree
  intro g listed here
  have away := apart g listed
  unfold Field.Disjoint at away
  unfold Field.Has at here
  omega

end Agree

end Rtl
