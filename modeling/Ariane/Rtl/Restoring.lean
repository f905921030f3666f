import Mathlib.Data.BitVec

set_option autoImplicit false

/- Restoring division: a dividend gives up a multiple of the divisor, one bit of the quotient
after the other. Values of either sign are kept as magnitudes. -/
namespace Rtl

/-- `a` is divided by `b` down to position `k`: the quotient so far and the rest. -/
structure Partial (a b k quotient rest : Nat) : Prop where
  sum : a = quotient * (b * 2 ^ k) + rest
  bound : rest < b * 2 ^ k

namespace Partial

variable {a b k quotient rest : Nat}

/-- Nothing is divided yet. -/
theorem start (small : a < b * 2 ^ k) : Partial a b k 0 a where
  sum := by rw [Nat.zero_mul, Nat.zero_add]
  bound := small

/-- One position down. -/
theorem step (h : Partial a b (k + 1) quotient rest) :
    if b * 2 ^ k ≤ rest then Partial a b k (2 * quotient + 1) (rest - b * 2 ^ k)
    else Partial a b k (2 * quotient) rest := by
  obtain ⟨sum, bound⟩ := h
  have double : b * 2 ^ (k + 1) = 2 * (b * 2 ^ k) := by
    rw [Nat.pow_succ, ← Nat.mul_assoc, Nat.mul_comm]
  rw [double] at sum bound
  have twice : quotient * (2 * (b * 2 ^ k)) = 2 * quotient * (b * 2 ^ k) := by
    rw [← Nat.mul_assoc, Nat.mul_comm quotient 2]
  rw [twice] at sum
  split
  · refine ⟨?_, by omega⟩
    rw [Nat.add_mul, Nat.one_mul]
    omega
  · exact ⟨sum, by omega⟩

theorem rest_le (h : Partial a b k quotient rest) : rest ≤ a := by
  rw [h.sum]
  exact Nat.le_add_left _ _

/-- At the last position the division is complete. -/
theorem finished (h : Partial a b 0 quotient rest) : quotient = a / b ∧ rest = a % b := by
  obtain ⟨sum, bound⟩ := h
  rw [Nat.pow_zero, Nat.mul_one] at sum bound
  have unique := (Nat.div_mod_unique (Nat.zero_lt_of_lt bound)).mpr
    ⟨(Nat.add_comm _ _).trans ((congrArg (· + rest) (Nat.mul_comm _ _)).trans sum.symm), bound⟩
  exact ⟨unique.1.symm, unique.2.symm⟩

end Partial

/-- A magnitude with a sign, in two's complement. -/
def signedMag (w : Nat) (neg : Bool) (x : Nat) : BitVec w :=
  if neg then -BitVec.ofNat w x else BitVec.ofNat w x

section SignedMag

variable {w : Nat} {neg : Bool} {x y : Nat}

theorem signedMag_toNat_pos (small : x < 2 ^ w) : (signedMag w false x).toNat = x := by
  rw [signedMag, if_neg Bool.false_ne_true, BitVec.toNat_ofNat, Nat.mod_eq_of_lt small]

theorem signedMag_toNat_neg (bound : x ≤ 2 ^ w) (positive : 0 < x) :
    (signedMag w true x).toNat = 2 ^ w - x := by
  rw [signedMag, if_pos rfl, BitVec.toNat_neg, BitVec.toNat_ofNat]
  rcases Nat.lt_or_eq_of_le bound with less | full
  · rw [Nat.mod_eq_of_lt less, Nat.mod_eq_of_lt (by omega)]
  · rw [full, Nat.mod_self, Nat.sub_zero, Nat.mod_self, Nat.sub_self]

theorem signedMag_zero : signedMag w neg 0 = 0#w := by
  cases neg with
  | true => rw [signedMag, if_pos rfl, BitVec.neg_zero]
  | false => rw [signedMag, if_neg Bool.false_ne_true]

theorem signedMag_sub (le : y ≤ x) :
    signedMag w neg x - signedMag w neg y = signedMag w neg (x - y) := by
  have split : BitVec.ofNat w x = BitVec.ofNat w (x - y) + BitVec.ofNat w y := by
    rw [← BitVec.ofNat_add, Nat.sub_add_cancel le]
  unfold signedMag
  rw [split]
  cases neg with
  | true =>
      simp only [↓reduceIte]
      rw [neg_sub_neg, sub_add_cancel_right]
  | false =>
      simp only [Bool.false_eq_true, ↓reduceIte]
      rw [add_sub_cancel_right]

theorem signedMag_shiftLeft (k : Nat) :
    signedMag w neg x <<< k = signedMag w neg (x * 2 ^ k) := by
  have shifted : BitVec.ofNat w x <<< k = BitVec.ofNat w (x * 2 ^ k) := by
    apply BitVec.eq_of_toNat_eq
    simp [Nat.shiftLeft_eq]
  unfold signedMag
  cases neg with
  | true => rw [if_pos rfl, if_pos rfl, BitVec.shiftLeft_neg, shifted]
  | false => rw [if_neg Bool.false_ne_true, if_neg Bool.false_ne_true, shifted]

theorem ofInt_signed :
    BitVec.ofInt w (if neg then -(x : Int) else x) = signedMag w neg x := by
  cases neg with
  | true =>
      rw [if_pos rfl, BitVec.ofInt_neg, BitVec.ofInt_natCast]
      rfl
  | false => exact BitVec.ofInt_natCast w x

theorem neg_signedMag : -signedMag w neg x = signedMag w (!neg) x := by
  cases neg with
  | true => rw [signedMag, if_pos rfl, BitVec.neg_neg]; rfl
  | false => rfl

end SignedMag

/-- The size of a number that is read with or without a sign. -/
def magnitude {w : Nat} (signed : Bool) (x : BitVec w) : Nat :=
  if signed && x.msb then 2 ^ w - x.toNat else x.toNat

/-- A number read with or without a sign. -/
def signedValue {w : Nat} (signed : Bool) (x : BitVec w) : Int :=
  if signed then x.toInt else x.toNat

section Magnitude

variable {w : Nat} (signed : Bool) (x : BitVec w)

theorem signedMag_magnitude : signedMag w (signed && x.msb) (magnitude signed x) = x := by
  unfold signedMag magnitude
  cases signed && x.msb with
  | true =>
      simp only [↓reduceIte]
      have flipped : BitVec.ofNat w (2 ^ w - x.toNat) = -x := by
        apply BitVec.eq_of_toNat_eq
        rw [BitVec.toNat_neg, BitVec.toNat_ofNat]
      rw [flipped, BitVec.neg_neg]
  | false =>
      simp only [Bool.false_eq_true, ↓reduceIte]
      rw [BitVec.ofNat_toNat, BitVec.setWidth_eq]

theorem magnitude_lt : magnitude signed x < 2 ^ w := by
  have bound := x.isLt
  unfold magnitude
  split
  · next neg =>
      have high := BitVec.msb_eq_true_iff_two_mul_ge.mp (Bool.and_eq_true_iff.mp neg).2
      have positive := Nat.two_pow_pos w
      omega
  · exact bound

theorem signedValue_eq :
    signedValue signed x =
      if signed && x.msb then -(magnitude signed x : Int) else (magnitude signed x : Int) := by
  unfold signedValue magnitude
  have bound := x.isLt
  cases signed with
  | true =>
      simp only [Bool.true_and, ↓reduceIte]
      rw [BitVec.toInt_eq_msb_cond]
      split
      · omega
      · rfl
  | false => rfl

end Magnitude

end Rtl
