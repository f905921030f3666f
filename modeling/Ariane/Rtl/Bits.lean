import Mathlib.Logic.Basic

set_option autoImplicit false

/- A bit vector assembled from single wires. -/
namespace Rtl

/-- Bit `i` of the vector is `f i`. -/
def ofBits : (n : Nat) → (Nat → Bool) → BitVec n
  | 0, _ => 0
  | n + 1, f => BitVec.cons (f n) (ofBits n f)

theorem getLsbD_ofBits (n : Nat) (f : Nat → Bool) (i : Nat) :
    (ofBits n f).getLsbD i = (decide (i < n) && f i) := by
  induction n with
  | zero => simp [ofBits]
  | succ n ih =>
      rw [ofBits, BitVec.getLsbD_cons, ih]
      by_cases last : i = n
      · simp [last]
      · by_cases small : i < n
        · simp [last, small, Nat.lt_succ_of_lt small]
        · have large : ¬ i < n + 1 := by omega
          simp [last, small, large]

/-- A field of a word that is put together from two parts. -/
theorem extract_append_low {n m : Nat} (x : BitVec n) (y : BitVec m) (start len : Nat)
    (inside : start + len ≤ m) : (x ++ y).extractLsb' start len = y.extractLsb' start len := by
  apply BitVec.eq_of_getLsbD_eq
  intro j small
  have below : start + j < m := by omega
  rw [BitVec.getLsbD_extractLsb', BitVec.getLsbD_extractLsb', BitVec.getLsbD_append, if_pos below]

theorem extract_append_high {n m : Nat} (x : BitVec n) (y : BitVec m) (start len : Nat)
    (above : m ≤ start) : (x ++ y).extractLsb' start len = x.extractLsb' (start - m) len := by
  apply BitVec.eq_of_getLsbD_eq
  intro j small
  have beyond : ¬ start + j < m := by omega
  rw [BitVec.getLsbD_extractLsb', BitVec.getLsbD_extractLsb', BitVec.getLsbD_append,
    if_neg beyond, Nat.sub_add_comm above]

/-- A field of a field. -/
theorem extract_extract {n : Nat} (x : BitVec n) (start len inner count : Nat)
    (inside : inner + count ≤ len) :
    (x.extractLsb' start len).extractLsb' inner count = x.extractLsb' (start + inner) count := by
  apply BitVec.eq_of_getLsbD_eq
  intro k low
  rw [BitVec.getLsbD_extractLsb', BitVec.getLsbD_extractLsb', BitVec.getLsbD_extractLsb',
    decide_eq_true low, decide_eq_true (show inner + k < len by omega), Bool.true_and,
    Bool.true_and, Bool.true_and, Nat.add_assoc]

end Rtl
