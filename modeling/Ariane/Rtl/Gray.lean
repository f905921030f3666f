import Ariane.Rtl.Bits

set_option autoImplicit false

/- The reflected Gray code of any width, and words that are sampled while they change. -/
namespace Rtl.Gray

/-- The code of a counter. -/
def encode {w : Nat} (x : BitVec w) : BitVec w := x ^^^ (x >>> 1)

/-- The parity of `k` wires from wire `i` on. -/
def parity (f : Nat → Bool) : Nat → Nat → Bool
  | 0, _ => false
  | k + 1, i => f i ^^ parity f k (i + 1)

/-- The counter of a code: bit `i` is the parity of the bits from `i` on. -/
def decode {w : Nat} (a : BitVec w) : BitVec w := ofBits w fun i => parity a.getLsbD (w - i) i

theorem getLsbD_encode {w : Nat} (x : BitVec w) (i : Nat) :
    (encode x).getLsbD i = (x.getLsbD i ^^ x.getLsbD (i + 1)) := by
  rw [encode, BitVec.getLsbD_xor, BitVec.getLsbD_ushiftRight, Nat.add_comm]

/-- The parity of the differences of neighbours telescopes. -/
theorem parity_differences (f : Nat → Bool) (k i : Nat) :
    parity (fun j => f j ^^ f (j + 1)) k i = (f i ^^ f (i + k)) := by
  induction k generalizing i with
  | zero => simp [parity]
  | succ k ih =>
      have last : i + 1 + k = i + (k + 1) := by omega
      rw [parity, ih, last, Bool.xor_assoc, ← Bool.xor_assoc (f (i + 1)), Bool.xor_self,
        Bool.false_xor]

theorem decode_encode {w : Nat} (x : BitVec w) : decode (encode x) = x := by
  have bits : (encode x).getLsbD = fun j => x.getLsbD j ^^ x.getLsbD (j + 1) :=
    funext (getLsbD_encode x)
  apply BitVec.eq_of_getLsbD_eq
  intro i inside
  have top : i + (w - i) = w := by omega
  rw [decode, getLsbD_ofBits, bits, parity_differences, top,
    BitVec.getLsbD_of_ge x w (Nat.le_refl w)]
  simp [inside]

section Adjacent

variable {w : Nat} (x : BitVec w)

/-- The bits that change when a counter goes on. -/
def changes (i : Nat) : Bool := x.getLsbD i ^^ (x + 1).getLsbD i

theorem changes_eq_carry {i : Nat} (inside : i < w) :
    changes x i = ((1#w).getLsbD i ^^ BitVec.carry i x 1#w false) := by
  have sum := BitVec.getLsbD_add inside x 1#w
  change (x.getLsbD i ^^ (x + 1#w).getLsbD i) = _
  rw [sum, ← Bool.xor_assoc, Bool.xor_self, Bool.false_xor]

/-- A bit changes only where the bits below it are set and change. -/
theorem changes_succ {i : Nat} (inside : i + 1 < w) :
    changes x (i + 1) = (x.getLsbD i && changes x i) := by
  rw [changes_eq_carry x inside, changes_eq_carry x (show i < w by omega), BitVec.carry_succ]
  cases i with
  | zero =>
      have positive : 0 < w := by omega
      simp [BitVec.getLsbD_one, positive, Bool.atLeastTwo]
  | succ i => simp [BitVec.getLsbD_one, Bool.atLeastTwo]

theorem changes_below {i j : Nat} (inside : i < w) (below : j ≤ i) (change : changes x i = true) :
    changes x j = true := by
  induction i with
  | zero =>
      have first : j = 0 := by omega
      rw [first]
      exact change
  | succ i ih =>
      by_cases last : j = i + 1
      · rw [last]
        exact change
      · rw [changes_succ x inside, Bool.and_eq_true] at change
        exact ih (by omega) (by omega) change.2

/-- The codes of neighbours differ where the changes end. -/
theorem differs_iff {i : Nat} :
    (encode x).getLsbD i ≠ (encode (x + 1)).getLsbD i ↔
      (changes x i ^^ changes x (i + 1)) = true := by
  simp only [getLsbD_encode, changes]
  cases x.getLsbD i <;> cases x.getLsbD (i + 1) <;> cases (x + 1).getLsbD i <;>
    cases (x + 1).getLsbD (i + 1) <;> decide

theorem changes_outside {i : Nat} (outside : w ≤ i) : changes x i = false := by
  rw [changes, BitVec.getLsbD_of_ge x i outside, BitVec.getLsbD_of_ge (x + 1) i outside]
  rfl

/-- The codes of neighbours differ in one bit at most. -/
theorem differs_once {i j : Nat} (first : (encode x).getLsbD i ≠ (encode (x + 1)).getLsbD i)
    (second : (encode x).getLsbD j ≠ (encode (x + 1)).getLsbD j) : i = j := by
  have last (k : Nat) (differs : (encode x).getLsbD k ≠ (encode (x + 1)).getLsbD k) :
      k < w ∧ changes x k = true ∧ changes x (k + 1) = false := by
    rw [differs_iff] at differs
    by_cases inside : k + 1 < w
    · rw [changes_succ x inside] at differs ⊢
      refine ⟨by omega, ?_⟩
      cases bit : x.getLsbD k <;> cases change : changes x k <;> simp [bit, change] at differs ⊢
    · rw [changes_outside x (show w ≤ k + 1 by omega), Bool.xor_false] at differs
      refine ⟨?_, differs, changes_outside x (by omega)⟩
      apply Nat.lt_of_not_le
      intro outside
      rw [changes_outside x outside] at differs
      cases differs
  obtain ⟨below, change, ends⟩ := last i first
  obtain ⟨below', change', ends'⟩ := last j second
  apply Nat.le_antisymm
  · apply Nat.le_of_not_lt
    intro after
    have early := changes_below x below after change
    rw [ends'] at early
    cases early
  · apply Nat.le_of_not_lt
    intro after
    have early := changes_below x below' after change'
    rw [ends] at early
    cases early

end Adjacent

/-- A word that is sampled while it changes: each bit is old or new. -/
def sample {w : Nat} (old new mask : BitVec w) : BitVec w := (old &&& mask) ||| (new &&& ~~~mask)

theorem getLsbD_sample {w : Nat} (old new mask : BitVec w) {i : Nat} (inside : i < w) :
    (sample old new mask).getLsbD i =
      if mask.getLsbD i then old.getLsbD i else new.getLsbD i := by
  simp only [sample, BitVec.getLsbD_or, BitVec.getLsbD_and, BitVec.getLsbD_not,
    decide_eq_true inside, Bool.true_and]
  cases mask.getLsbD i <;> simp

theorem sample_same {w : Nat} (x mask : BitVec w) : sample x x mask = x := by
  apply BitVec.eq_of_getLsbD_eq
  intro i inside
  rw [getLsbD_sample x x mask inside, ite_self]

/-- A code that is sampled while its counter goes on is the code before or after. -/
theorem sample_encode {w : Nat} (x mask : BitVec w) :
    sample (encode x) (encode (x + 1)) mask = encode x ∨
      sample (encode x) (encode (x + 1)) mask = encode (x + 1) := by
  by_cases same : ∀ i, (encode x).getLsbD i = (encode (x + 1)).getLsbD i
  · left
    rw [← BitVec.eq_of_getLsbD_eq fun i _ => same i, sample_same]
  · obtain ⟨k, differs⟩ := Classical.not_forall.mp same
    have agree (i : Nat) (other : i ≠ k) :
        (encode x).getLsbD i = (encode (x + 1)).getLsbD i := by
      apply Classical.byContradiction
      intro apart
      exact other (differs_once x apart differs)
    cases choice : mask.getLsbD k with
    | true =>
        left
        apply BitVec.eq_of_getLsbD_eq
        intro i inside
        rw [getLsbD_sample _ _ mask inside]
        by_cases here : i = k
        · rw [here, if_pos choice]
        · rw [← agree i here, ite_self]
    | false =>
        right
        apply BitVec.eq_of_getLsbD_eq
        intro i inside
        rw [getLsbD_sample _ _ mask inside]
        by_cases here : i = k
        · rw [here, choice, if_neg Bool.false_ne_true]
        · rw [agree i here, ite_self]

end Rtl.Gray
