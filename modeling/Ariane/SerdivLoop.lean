import Ariane.Rtl.Restoring
import Ariane.Serdiv

set_option autoImplicit false

/- The loop of the divider is a restoring division of magnitudes: both registers carry the sign
of the divisor, which the comparison inverts and the shift extends. -/
namespace Ariane.Serdiv

open Rtl

variable {w : Nat}

section Registers

variable {q : State w} {r d k b : Nat}

/-- The comparison in numbers. -/
theorem abComp_toNat (nonzero : q.opBZero = false) :
    abComp q = true ↔
      (q.opA.toNat = q.opB.toNat ∨ (q.opB.toNat < q.opA.toNat ↔ q.compInv = false)) ∧
        q.opA.toNat ≠ 0 := by
  have same : q.opA = q.opB ↔ q.opA.toNat = q.opB.toNat := BitVec.toNat_inj.symm
  have some : (q.opA != 0) = true ↔ q.opA.toNat ≠ 0 := by
    rw [bne_iff_ne, Ne, BitVec.ofNat_eq_ofNat, ← BitVec.toNat_inj, BitVec.toNat_zero]
  unfold abComp
  rw [nonzero, Bool.or_false, Bool.and_eq_true, Bool.or_eq_true, beq_iff_eq, some, same]
  refine and_congr (or_congr Iff.rfl ?_) Iff.rfl
  rw [BitVec.ult_eq_decide]
  cases q.compInv with
  | true => simp
  | false => simp

/-- The comparison decides if the divisor goes into the rest, for either sign. -/
theorem abComp_iff (positive : 0 < d) (nonzero : q.opBZero = false)
    (bound : if q.compInv then d ≤ 2 ^ w else d < 2 ^ w) (small : r < 2 ^ w)
    (rest : q.opA = signedMag w q.compInv r) (divisor : q.opB = signedMag w q.compInv d) :
    abComp q = true ↔ d ≤ r := by
  rw [abComp_toNat nonzero, rest, divisor]
  cases sign : q.compInv with
  | true =>
      rw [sign, if_pos rfl] at bound
      rw [signedMag_toNat_neg bound positive]
      rcases Nat.eq_zero_or_pos r with rfl | some
      · rw [signedMag_zero, BitVec.toNat_zero]
        omega
      · rw [signedMag_toNat_neg (Nat.le_of_lt small) some]
        simp only [Bool.true_eq_false, iff_false]
        omega
  | false =>
      rw [sign, if_neg Bool.false_ne_true] at bound
      rw [signedMag_toNat_pos bound, signedMag_toNat_pos small]
      simp only [iff_true]
      omega

/-- The shift halves the divisor. -/
theorem shiftedB_eq (positive : 0 < d)
    (bound : if q.compInv then 2 * d ≤ 2 ^ w else 2 * d < 2 ^ w)
    (divisor : q.opB = signedMag w q.compInv (2 * d)) :
    shiftedB q = signedMag w q.compInv d := by
  unfold shiftedB
  apply BitVec.eq_of_toNat_eq
  rw [divisor]
  cases sign : q.compInv with
  | true =>
      rw [sign, if_pos rfl] at bound
      have half : 2 ^ w = 2 * 2 ^ (w - 1) := by
        cases w with
        | zero => omega
        | succ n => rw [Nat.add_sub_cancel, Nat.pow_succ, Nat.mul_comm]
      have shifted : (signedMag w true (2 * d) >>> 1).toNat = 2 ^ (w - 1) - d := by
        rw [BitVec.toNat_ushiftRight, signedMag_toNat_neg bound (by omega), Nat.shiftRight_one]
        omega
      rw [if_pos rfl, BitVec.toNat_or, shifted, BitVec.toNat_twoPow,
        signedMag_toNat_neg (by omega) positive, Nat.mod_eq_of_lt (by omega),
        Nat.or_two_pow_eq_add_of_lt (by omega)]
      omega
  | false =>
      rw [sign, if_neg Bool.false_ne_true] at bound
      rw [if_neg Bool.false_ne_true, BitVec.toNat_ushiftRight, signedMag_toNat_pos bound,
        signedMag_toNat_pos (by omega), Nat.shiftRight_one]
      omega

end Registers

section Alignment

variable (i : Input w)

/-- The sign of the divisor, which `comp_inv_q` keeps. -/
def Input.negative : Bool := i.signed && i.opB.msb

def Input.dividend : Nat := magnitude i.signed i.opA

def Input.divisor : Nat := magnitude i.signed i.opB

/-- Minus one, the only dividend whose leading zeros come out wrong. -/
def Input.minusOne : Prop := i.signed = true ∧ i.opA = BitVec.allOnes w

instance : Decidable i.minusOne := inferInstanceAs (Decidable (_ ∧ _))

theorem clz_lt {x : BitVec w} (nonzero : x ≠ 0) : x.clz.toNat < w := by
  have less := BitVec.clz_lt_iff_ne_zero.mpr nonzero
  rwa [BitVec.lt_def, BitVec.natCast_eq_ofNat, BitVec.toNat_ofNat,
    Nat.mod_eq_of_lt Nat.lt_two_pow_self] at less

theorem eq_allOnes_of_not {x : BitVec w} (zero : ~~~x = 0) : x = BitVec.allOnes w := by
  rw [← BitVec.not_not (b := x), zero]
  exact BitVec.not_zero

theorem shiftA_le : shiftA i ≤ w := by
  unfold shiftA
  split
  · exact Nat.le_refl w
  · next some => exact Nat.le_of_lt (clz_lt fun zero => some (beq_iff_eq.mpr zero))

theorem magnitude_neg {signed : Bool} {x : BitVec w} (neg : (signed && x.msb) = true) :
    magnitude signed x = (~~~x).toNat + 1 ∧ 2 * (~~~x).toNat < 2 ^ w := by
  have bound := x.isLt
  have high := BitVec.msb_eq_true_iff_two_mul_ge.mp (Bool.and_eq_true_iff.mp neg).2
  unfold magnitude
  rw [if_pos neg, BitVec.toNat_not]
  omega

theorem magnitude_pos {signed : Bool} {x : BitVec w} (pos : (signed && x.msb) = false) :
    magnitude signed x = x.toNat := by
  unfold magnitude
  rw [if_neg (Bool.eq_false_iff.mp pos)]

theorem dividend_lt (other : ¬ i.minusOne) : i.dividend < 2 ^ (w - shiftA i) := by
  unfold Input.dividend shiftA
  cases neg : i.signed && i.opA.msb with
  | true =>
      obtain ⟨size, low⟩ := magnitude_neg neg
      have cut : lzcAInput i = ~~~i.opA <<< 1 := if_pos neg
      have doubled : (lzcAInput i).toNat = 2 * (~~~i.opA).toNat := by
        rw [cut, BitVec.toNat_shiftLeft, Nat.shiftLeft_eq, Nat.pow_one, Nat.mul_comm,
          Nat.mod_eq_of_lt low]
      have nonzero : lzcAInput i ≠ 0 := by
        intro zero
        apply other
        refine ⟨(Bool.and_eq_true_iff.mp neg).1, eq_allOnes_of_not ?_⟩
        rw [zero, BitVec.ofNat_eq_ofNat, BitVec.toNat_zero] at doubled
        apply BitVec.eq_of_toNat_eq
        rw [BitVec.ofNat_eq_ofNat, BitVec.toNat_zero]
        omega
      have less := BitVec.toNat_lt_two_pow_sub_clz (x := lzcAInput i)
      have inside := clz_lt nonzero
      rw [if_neg (by rwa [beq_iff_eq]), size]
      have half : w - (lzcAInput i).clz.toNat = w - (lzcAInput i).clz.toNat - 1 + 1 := by omega
      rw [half, Nat.pow_succ] at less ⊢
      omega
  | false =>
      have same : lzcAInput i = i.opA := if_neg (Bool.eq_false_iff.mp neg)
      rw [magnitude_pos neg, same]
      split
      · next zero =>
          rw [beq_iff_eq.mp zero, BitVec.ofNat_eq_ofNat, BitVec.toNat_zero]
          exact Nat.two_pow_pos _
      · exact BitVec.toNat_lt_two_pow_sub_clz

theorem dividend_minusOne (positive : 0 < w) (one : i.minusOne) :
    i.dividend = 1 ∧ shiftA i = w := by
  obtain ⟨signed, ones⟩ := one
  have neg : (i.signed && i.opA.msb) = true := by
    rw [signed, ones, Bool.true_and, BitVec.msb_allOnes positive]
  have cut : lzcAInput i = 0 := by
    rw [lzcAInput, if_pos neg, ones, BitVec.not_allOnes, BitVec.zero_shiftLeft]
    rfl
  unfold Input.dividend shiftA
  rw [(magnitude_neg neg).1, ones, BitVec.not_allOnes, BitVec.toNat_zero, cut]
  exact ⟨rfl, if_pos BEq.rfl⟩

theorem divisor_allOnes (zero : lzcBInput i = 0) (nonzero : i.opB ≠ 0) :
    i.negative = true ∧ i.divisor = 1 := by
  unfold lzcBInput at zero
  unfold Input.negative Input.divisor
  cases neg : i.signed && i.opB.msb with
  | true =>
      rw [if_pos neg] at zero
      refine ⟨rfl, ?_⟩
      rw [(magnitude_neg neg).1, zero, BitVec.ofNat_eq_ofNat, BitVec.toNat_zero]
  | false =>
      rw [if_neg (Bool.eq_false_iff.mp neg)] at zero
      exact absurd zero nonzero

theorem divisor_bounds (some : lzcBInput i ≠ 0) :
    2 ^ (w - 1 - (lzcBInput i).clz.toNat) ≤ i.divisor ∧
      if i.negative then i.divisor ≤ 2 ^ (w - (lzcBInput i).clz.toNat)
      else i.divisor < 2 ^ (w - (lzcBInput i).clz.toNat) := by
  have inside := clz_lt some
  have least := BitVec.two_pow_sub_clz_le_toNat_of_ne_zero (Nat.zero_lt_of_lt inside) some
  have less := BitVec.toNat_lt_two_pow_sub_clz (x := lzcBInput i)
  unfold Input.negative Input.divisor
  unfold lzcBInput at least less ⊢
  cases neg : i.signed && i.opB.msb with
  | true =>
      simp only [neg, ↓reduceIte] at least less ⊢
      rw [(magnitude_neg neg).1]
      omega
  | false =>
      simp only [neg, Bool.false_eq_true, ↓reduceIte] at least less ⊢
      rw [magnitude_pos neg]
      exact ⟨least, less⟩

theorem divisor_pos (nonzero : i.opB ≠ 0) : 0 < i.divisor := by
  by_cases zero : lzcBInput i = 0
  · rw [(divisor_allOnes i zero nonzero).2]
    exact Nat.one_pos
  · exact Nat.lt_of_lt_of_le (Nat.two_pow_pos _) (divisor_bounds i zero).1

theorem divShift_eq (some : lzcBInput i ≠ 0) :
    divShift i = ((lzcBInput i).clz.toNat : Int) - shiftA i := by
  unfold divShift
  rw [if_neg (by rwa [beq_iff_eq])]

theorem divShift_le : divShift i ≤ w := by
  by_cases zero : lzcBInput i = 0
  · rw [divShift, if_pos (beq_iff_eq.mpr zero)]
  · rw [divShift_eq i zero]
    have inside := clz_lt zero
    omega

/-- The divisor keeps its sign when it is aligned. -/
theorem aligned_fits (nonzero : i.opB ≠ 0) (reaches : 0 ≤ divShift i) :
    if i.negative then i.divisor * 2 ^ (divShift i).toNat ≤ 2 ^ w
    else i.divisor * 2 ^ (divShift i).toNat < 2 ^ w := by
  by_cases zero : lzcBInput i = 0
  · obtain ⟨negative, one⟩ := divisor_allOnes i zero nonzero
    have all : divShift i = w := if_pos (beq_iff_eq.mpr zero)
    rw [if_pos negative, one, all, Int.toNat_natCast, Nat.one_mul]
  · obtain ⟨-, bound⟩ := divisor_bounds i zero
    have inside := clz_lt zero
    have distance := divShift_eq i zero
    have place : 2 ^ (w - (lzcBInput i).clz.toNat) * 2 ^ (divShift i).toNat ≤ 2 ^ w := by
      rw [← Nat.pow_add]
      exact Nat.pow_le_pow_right Nat.two_pos (by omega)
    split
    · next negative =>
        rw [if_pos negative] at bound
        exact Nat.le_trans (Nat.mul_le_mul_right _ bound) place
    · next positive =>
        rw [if_neg positive] at bound
        exact Nat.lt_of_lt_of_le (Nat.mul_lt_mul_of_pos_right bound (Nat.two_pow_pos _)) place

/-- One position above the alignment the divisor is larger than the dividend. -/
theorem dividend_lt_aligned (positive : 0 < w) (nonzero : i.opB ≠ 0)
    (reaches : 0 ≤ divShift i) : i.dividend < i.divisor * 2 ^ ((divShift i).toNat + 1) := by
  by_cases one : i.minusOne
  · rw [(dividend_minusOne i positive one).1]
    have two : 2 ≤ 2 ^ ((divShift i).toNat + 1) := Nat.le_self_pow (Nat.succ_ne_zero _) 2
    exact Nat.lt_of_lt_of_le two (Nat.le_mul_of_pos_left _ (divisor_pos i nonzero))
  · refine Nat.lt_of_lt_of_le (dividend_lt i one) ?_
    have shifted := shiftA_le i
    by_cases zero : lzcBInput i = 0
    · obtain ⟨-, divisor⟩ := divisor_allOnes i zero nonzero
      have all : divShift i = w := if_pos (beq_iff_eq.mpr zero)
      rw [divisor, all, Int.toNat_natCast, Nat.one_mul]
      exact Nat.pow_le_pow_right Nat.two_pos (by omega)
    · obtain ⟨bound, -⟩ := divisor_bounds i zero
      have inside := clz_lt zero
      have distance := divShift_eq i zero
      refine Nat.le_trans ?_ (Nat.mul_le_mul_right _ bound)
      rw [← Nat.pow_add]
      exact Nat.pow_le_pow_right Nat.two_pos (by omega)

/-- A divisor that would have to be shifted down is larger than the dividend. -/
theorem dividend_lt_divisor (below : divShift i < 0)
    (other : ¬ i.minusOne) : i.dividend < i.divisor := by
  have some : lzcBInput i ≠ 0 := by
    intro zero
    have all : divShift i = w := if_pos (beq_iff_eq.mpr zero)
    omega
  obtain ⟨bound, -⟩ := divisor_bounds i some
  have distance := divShift_eq i some
  refine Nat.lt_of_lt_of_le (dividend_lt i other) (Nat.le_trans ?_ bound)
  exact Nat.pow_le_pow_right Nat.two_pos (by omega)

end Alignment

section Load

variable (i : Input w)

/-- The sign of the dividend. -/
def Input.negativeA : Bool := i.signed && i.opA.msb

theorem signed_signsDiffer : (i.signed && signsDiffer i) = (i.negativeA ^^ i.negative) := by
  unfold signsDiffer Input.negativeA Input.negative
  cases i.signed <;> rfl

/-- The dividend is negated if it does not have the sign of the divisor. -/
theorem load_opA : (load i).opA = signedMag w i.negative i.dividend := by
  have kept : signedMag w i.negativeA i.dividend = i.opA := signedMag_magnitude i.signed i.opA
  unfold load
  simp only
  rw [signed_signsDiffer, zero_sub, zero_add, ← kept, neg_signedMag]
  cases i.negativeA <;> cases i.negative <;> rfl

/-- The aligned divisor. -/
theorem load_opB (reaches : 0 ≤ divShift i) :
    (load i).opB = signedMag w i.negative (i.divisor * 2 ^ (divShift i).toNat) := by
  have kept : signedMag w i.negative i.divisor = i.opB := signedMag_magnitude i.signed i.opB
  have aligned : alignedB i = i.opB <<< (divShift i).toNat := if_neg (Int.not_lt.mpr reaches)
  unfold load
  simp only
  rw [aligned, ← signedMag_shiftLeft, kept]

end Load

/-- The registers that keep the request. -/
structure Keeps (i : Input w) (q : State w) : Prop where
  id : q.id = i.id
  remSel : q.remSel = i.rem
  compInv : q.compInv = i.negative
  resInv : q.resInv = ((i.opB != 0 || i.rem) && (i.negativeA ^^ i.negative))
  opBZero : q.opBZero = (i.opB == 0)

/-- The quotient so far and the rest of the dividend, with `k` positions left. A divisor of zero
goes into everything. -/
def Progress (i : Input w) (k quotient rest : Nat) : Prop :=
  if i.opB = 0 then quotient + 1 = 2 ^ (w + 1 - k) ∧ rest = i.dividend
  else Partial i.dividend i.divisor k quotient rest

/-- In the middle of a division: the divisor stands at position `k`. -/
structure Dividing (i : Input w) (k : Nat) (q : State w) : Prop extends Keeps i q where
  state : q.state = .divide
  divResZero : q.divResZero = false
  cnt : q.cnt = k
  place : (k : Int) ≤ divShift i
  opB : q.opB = signedMag w i.negative (i.divisor * 2 ^ k)
  progress : ∃ quotient rest, Progress i (k + 1) quotient rest ∧
    q.opA = signedMag w i.negative rest ∧ q.res = BitVec.ofNat w quotient

section Step

variable {i x : Input w} {q : State w} {k : Nat}

theorem next_dividing (dividing : q.state = .divide) (some : q.divResZero = false)
    (running : x.flush = false) :
    next q x =
      { q with
        state := if q.cnt == 0 then .finish else .divide
        cnt := q.cnt - 1
        opA := if abComp q then q.opA - q.opB else q.opA
        opB := shiftedB q
        res := q.res <<< 1 ||| (BitVec.ofBool (abComp q)).setWidth w } := by
  unfold next loadEn stateNext
  simp [dividing, some, running]

/-- One more bit of the quotient. -/
theorem res_bit (quotient : Nat) (bit : Bool) :
    BitVec.ofNat w quotient <<< 1 ||| (BitVec.ofBool bit).setWidth w =
      BitVec.ofNat w (2 * quotient + bit.toNat) := by
  have concat : BitVec.ofNat w quotient <<< 1 ||| (BitVec.ofBool bit).setWidth w =
      (BitVec.ofNat w quotient).shiftConcat bit := by
    apply BitVec.eq_of_getLsbD_eq
    intro n inside
    rw [BitVec.getLsbD_shiftConcat, BitVec.getLsbD_or, BitVec.getLsbD_shiftLeft,
      BitVec.getLsbD_setWidth]
    cases n with
    | zero => simp [inside]
    | succ n => simp [inside]
  rw [concat]
  apply BitVec.eq_of_toNat_eq
  rw [BitVec.toNat_shiftConcat, BitVec.toNat_ofNat, BitVec.toNat_ofNat, Nat.shiftLeft_eq,
    Nat.pow_one, Nat.mul_comm, Nat.add_mod, Nat.mul_mod_mod, ← Nat.add_mod]

theorem fits_below (nonzero : i.opB ≠ 0) (place : (k : Int) ≤ divShift i) :
    if i.negative then i.divisor * 2 ^ k ≤ 2 ^ w else i.divisor * 2 ^ k < 2 ^ w := by
  have top := aligned_fits i nonzero (by omega)
  have less : i.divisor * 2 ^ k ≤ i.divisor * 2 ^ (divShift i).toNat :=
    Nat.mul_le_mul_left _ (Nat.pow_le_pow_right Nat.two_pos (by omega))
  split
  · next negative =>
      rw [if_pos negative] at top
      exact Nat.le_trans less top
  · next positive =>
      rw [if_neg positive] at top
      exact Nat.lt_of_le_of_lt less top

/-- The largest shift stands for a divisor of zero, so that every bit is found. -/
theorem divisor_zero (zero : i.opB = 0) : i.divisor = 0 ∧ i.negative = false ∧ divShift i = w := by
  unfold Input.divisor Input.negative
  have plain : (i.signed && i.opB.msb) = false := by simp [zero]
  refine ⟨?_, plain, if_pos ?_⟩
  · rw [magnitude_pos plain, zero]
    rfl
  · rw [beq_iff_eq, lzcBInput, if_neg (Bool.eq_false_iff.mp plain), zero]

theorem progress_zero (h : Dividing i k q) (running : x.flush = false) (zero : i.opB = 0) :
    ∃ quotient rest, Progress i k quotient rest ∧
      (next q x).opA = signedMag w i.negative rest ∧
      (next q x).res = BitVec.ofNat w quotient := by
  obtain ⟨quotient, rest, progress, opA, res⟩ := h.progress
  rw [Progress, if_pos zero] at progress
  obtain ⟨divisor, negative, shift⟩ := divisor_zero zero
  have place := h.place
  have nothing : q.opB = 0 := by
    rw [h.opB, divisor, Nat.zero_mul, signedMag_zero]
    rfl
  have opBZero : q.opBZero = true := by rw [h.opBZero, beq_iff_eq]; exact zero
  have compInv : q.compInv = false := h.compInv.trans negative
  have goes : abComp q = true := by
    unfold abComp
    rw [nothing, opBZero, compInv, Bool.or_true, Bool.and_true, Bool.xor_false, BitVec.ult_eq_decide,
      BitVec.ofNat_eq_ofNat, BitVec.toNat_zero]
    rcases Nat.eq_zero_or_pos q.opA.toNat with none | some
    · have empty : q.opA = 0#w := BitVec.eq_of_toNat_eq (by rw [none, BitVec.toNat_zero])
      rw [empty, BEq.rfl, Bool.true_or]
    · rw [decide_eq_true some, Bool.or_true]
  rw [next_dividing h.state h.divResZero running]
  simp only [Progress, if_pos zero, res, res_bit, goes, ↓reduceIte, nothing]
  refine ⟨_, rest, ⟨?_, progress.2⟩, ?_, rfl⟩
  · have count : w + 1 - k = w + 1 - (k + 1) + 1 := by omega
    rw [count, Nat.pow_succ, ← progress.1, Bool.toNat_true]
    omega
  · rw [opA, sub_zero]

theorem progress_some (h : Dividing i k q) (running : x.flush = false) (some : i.opB ≠ 0) :
    ∃ quotient rest, Progress i k quotient rest ∧
      (next q x).opA = signedMag w i.negative rest ∧
      (next q x).res = BitVec.ofNat w quotient := by
  obtain ⟨quotient, rest, progress, opA, res⟩ := h.progress
  rw [Progress, if_neg some] at progress
  have positive : 0 < i.divisor * 2 ^ k :=
    Nat.mul_pos (divisor_pos i some) (Nat.two_pow_pos k)
  have opBZero : q.opBZero = false := by rw [h.opBZero, beq_eq_false_iff_ne]; exact some
  have bound := fits_below some h.place
  rw [← h.compInv] at bound
  have small : rest < 2 ^ w :=
    Nat.lt_of_le_of_lt progress.rest_le (magnitude_lt i.signed i.opA)
  have goes : abComp q = true ↔ i.divisor * 2 ^ k ≤ rest :=
    abComp_iff positive opBZero bound small (by rw [opA, h.compInv]) (by rw [h.opB, h.compInv])
  have step := progress.step
  rw [next_dividing h.state h.divResZero running]
  simp only [Progress, if_neg some, res, res_bit]
  cases fits : abComp q with
  | true =>
      have le := goes.mp fits
      rw [if_pos le] at step
      refine ⟨_, _, step, ?_, rfl⟩
      rw [if_pos rfl, opA, h.opB, signedMag_sub le]
  | false =>
      have more : ¬ i.divisor * 2 ^ k ≤ rest := fun le => by simp [fits] at goes; omega
      rw [if_neg more] at step
      refine ⟨_, _, step, ?_, rfl⟩
      rw [if_neg Bool.false_ne_true, opA]

/-- One cycle of the loop finds one bit. -/
theorem progress_step (h : Dividing i k q) (running : x.flush = false) :
    ∃ quotient rest, Progress i k quotient rest ∧
      (next q x).opA = signedMag w i.negative rest ∧
      (next q x).res = BitVec.ofNat w quotient := by
  by_cases zero : i.opB = 0
  · exact progress_zero h running zero
  · exact progress_some h running zero

theorem shiftedB_dividing (h : Dividing i (k + 1) q) :
    shiftedB q = signedMag w i.negative (i.divisor * 2 ^ k) := by
  have place := h.place
  have double : i.divisor * 2 ^ (k + 1) = 2 * (i.divisor * 2 ^ k) := by
    rw [Nat.pow_succ, ← Nat.mul_assoc, Nat.mul_comm]
  have aligned := h.opB
  rw [double, ← h.compInv] at aligned
  by_cases zero : i.opB = 0
  · obtain ⟨divisor, negative, -⟩ := divisor_zero zero
    rw [divisor, Nat.zero_mul, Nat.mul_zero, signedMag_zero] at aligned
    rw [divisor, Nat.zero_mul, signedMag_zero]
    unfold shiftedB
    rw [h.compInv, negative, if_neg Bool.false_ne_true, aligned, BitVec.zero_ushiftRight]
  · have bound := fits_below zero h.place
    rw [double, ← h.compInv] at bound
    rw [← h.compInv]
    exact shiftedB_eq (Nat.mul_pos (divisor_pos i zero) (Nat.two_pow_pos k)) bound aligned

/-- The loop goes one position down. -/
theorem dividing_next (h : Dividing i (k + 1) q) (running : x.flush = false) :
    Dividing i k (next q x) := by
  have found := progress_step h running
  have place := h.place
  rw [next_dividing h.state h.divResZero running] at found ⊢
  have more : (q.cnt == 0) = false := by rw [h.cnt]; rfl
  exact
    { id := h.id
      remSel := h.remSel
      compInv := h.compInv
      resInv := h.resInv
      opBZero := h.opBZero
      state := by simp [more]
      divResZero := h.divResZero
      cnt := by simp [h.cnt]
      place := by omega
      opB := shiftedB_dividing h
      progress := found }

end Step

end Ariane.Serdiv
