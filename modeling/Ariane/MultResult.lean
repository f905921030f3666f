import Ariane.DecoderIsa
import Ariane.Mult
import Ariane.Rv64Exec

set_option autoImplicit false

/- The results of the multiplier and of the divider against the instruction set. -/
namespace Ariane.Mult

open Rv64 (MulOp signedQuotient unsignedQuotient signedRemainder unsignedRemainder)
open Decoder (mulFuOp)
open Rtl (signedMag)
open Serdiv (quotient remainder answer)

section Product

theorem extended_eq (sign : Bool) (x : BitVec 64) :
    Multiplier.extended sign x = if sign then x.signExtend 128 else x.setWidth 128 := by
  apply BitVec.eq_of_getLsbD_eq
  intro k inside
  have msb : (BitVec.ofBool (x.msb && sign) ++ x).msb = (x.msb && sign) := by
    rw [BitVec.msb_append]
    simp
  cases sign with
  | true =>
      rw [if_pos rfl, Multiplier.extended, BitVec.getLsbD_signExtend, BitVec.getLsbD_signExtend, msb,
        BitVec.getLsbD_append]
      by_cases low : k < 64
      · simp [low, show k < 1 + 64 by omega]
      · by_cases top : k < 1 + 64
        · have last : k - 64 = 0 := by omega
          simp [low, top, last]
        · simp [low, top]
  | false =>
      rw [if_neg Bool.false_ne_true, Multiplier.extended, BitVec.getLsbD_signExtend, msb,
        BitVec.getLsbD_append, BitVec.getLsbD_setWidth]
      by_cases low : k < 64
      · simp [low, show k < 1 + 64 by omega]
      · rw [BitVec.getLsbD_of_ge x k (by omega)]
        by_cases top : k < 1 + 64 <;> simp [low, top]

theorem product_low (op : FuOp) (a b : BitVec 64) {n : Nat} (inside : n ≤ 64) :
    (Multiplier.product op a b).setWidth n = a.setWidth n * b.setWidth n := by
  have low (sign : Bool) (x : BitVec 64) : (Multiplier.extended sign x).setWidth n = x.setWidth n := by
    rw [extended_eq]
    cases sign with
    | true =>
        rw [if_pos rfl]
        apply BitVec.eq_of_getLsbD_eq
        intro k below
        rw [BitVec.getLsbD_setWidth, BitVec.getLsbD_setWidth, BitVec.getLsbD_signExtend,
          if_pos (show k < 64 by omega), decide_eq_true (show k < 128 by omega), Bool.true_and]
    | false =>
        rw [if_neg Bool.false_ne_true, BitVec.setWidth_setWidth_of_le x (by omega)]
  rw [Multiplier.product, BitVec.setWidth_mul _ _ (by omega), low, low]

/-- The next state of the multiplier answers for its instruction. -/
theorem multiplier_result {pkg : Pkg} (law : pkg.Extends) {op : MulOp} {d : FuData}
    (operator : d.operator = mulFuOp op) (operates : Multiplier.operates d.operator = true)
    (valid : Bool) :
    (Multiplier.next d valid).result pkg = op.result d.operandA d.operandB := by
  rw [operator] at operates
  have whole : (Multiplier.product (mulFuOp op) d.operandA d.operandB).setWidth 64 =
      d.operandA * d.operandB := by
    rw [product_low _ _ _ (Nat.le_refl 64), BitVec.setWidth_eq, BitVec.setWidth_eq]
  have word := product_low (mulFuOp op) d.operandA d.operandB (show 32 ≤ 64 by omega)
  cases op with
  | mul =>
      rw [Multiplier.next, operator]
      exact whole
  | mulw =>
      rw [Multiplier.next, operator]
      exact (law _).trans (congrArg (BitVec.signExtend 64) word)
  | mulh | mulhsu | mulhu =>
      rw [Multiplier.next, operator, MulOp.result]
      simp only [Multiplier.State.result, mulFuOp, Multiplier.product, extended_eq]
      rfl
  | _ => exact absurd operates (by decide)

end Product

section Division

variable {w : Nat}

theorem ofInt_tdiv (a b : BitVec w) :
    BitVec.ofInt w ((a.toNat : Int).tdiv (b.toNat : Int)) = a / b := by
  have natural : (a.toNat : Int).tdiv (b.toNat : Int) = ((a.toNat / b.toNat : Nat) : Int) := rfl
  rw [natural, BitVec.ofInt_natCast]
  apply BitVec.eq_of_toNat_eq
  rw [BitVec.toNat_ofNat, BitVec.toNat_udiv]
  exact Nat.mod_eq_of_lt (Nat.lt_of_le_of_lt (Nat.div_le_self _ _) a.isLt)

theorem ofInt_tmod (a b : BitVec w) :
    BitVec.ofInt w ((a.toNat : Int).tmod (b.toNat : Int)) = a % b := by
  have natural : (a.toNat : Int).tmod (b.toNat : Int) = ((a.toNat % b.toNat : Nat) : Int) := rfl
  rw [natural, BitVec.ofInt_natCast]
  apply BitVec.eq_of_toNat_eq
  rw [BitVec.toNat_ofNat, BitVec.toNat_umod]
  exact Nat.mod_eq_of_lt (Nat.lt_of_le_of_lt (Nat.mod_le _ _) a.isLt)

variable {i : Serdiv.Input w}

theorem quotient_signed (signed : i.signed = true) : quotient i = signedQuotient i.opA i.opB := by
  rw [quotient, signedQuotient]
  by_cases zero : i.opB = 0
  · rw [if_pos zero, if_pos zero]
  · rw [if_neg zero, if_neg zero]
    apply BitVec.eq_of_toInt_eq
    rw [BitVec.toInt_ofInt, BitVec.toInt_sdiv, signed]
    rfl

theorem quotient_unsigned (signed : i.signed = false) :
    quotient i = unsignedQuotient i.opA i.opB := by
  rw [quotient, unsignedQuotient]
  by_cases zero : i.opB = 0
  · rw [if_pos zero, if_pos zero]
  · rw [if_neg zero, if_neg zero, signed]
    exact ofInt_tdiv i.opA i.opB

theorem remainder_signed (signed : i.signed = true) :
    remainder i = signedRemainder i.opA i.opB := by
  rw [remainder, signedRemainder]
  by_cases zero : i.opB = 0
  · rw [if_pos zero, if_pos zero]
  · rw [if_neg zero, if_neg zero, signed]
    have same : (i.opA.srem i.opB).toInt = i.opA.toInt.tmod i.opB.toInt := BitVec.toInt_srem _ _
    change BitVec.ofInt w (i.opA.toInt.tmod i.opB.toInt) = _
    rw [← same, BitVec.ofInt_toInt]

theorem remainder_unsigned (signed : i.signed = false) :
    remainder i = unsignedRemainder i.opA i.opB := by
  rw [remainder, unsignedRemainder]
  by_cases zero : i.opB = 0
  · rw [if_pos zero, if_pos zero]
  · rw [if_neg zero, if_neg zero, signed]
    exact ofInt_tmod i.opA i.opB

/-- What the divider shows in the end. -/
def served (i : Serdiv.Input w) : BitVec w :=
  if Serdiv.divShift i < 0 then Serdiv.result (Serdiv.load i) else answer i

/-- Minus one divided by one shows a quotient of zero, and minus one as the remainder. -/
theorem served_eq (large : 2 ≤ w) :
    served i =
      if i.signed = true ∧ i.opA = BitVec.allOnes w ∧ i.opB = 1 then
        if i.rem then BitVec.allOnes w else 0
      else answer i := by
  rw [served]
  by_cases bad : i.signed = true ∧ i.opA = BitVec.allOnes w ∧ i.opB = 1
  · obtain ⟨below, dividend, -, negative, -⟩ := Serdiv.below_of_minusOne large bad
    have minusOne : signedMag w true 1 = BitVec.allOnes w := BitVec.neg_one_eq_allOnes
    rw [if_pos bad, if_pos below, (Serdiv.load_result i below).2, negative, dividend, minusOne]
  · rw [if_neg bad]
    by_cases below : Serdiv.divShift i < 0
    · rw [if_pos below, (Serdiv.load_answers large below).mpr bad]
    · rw [if_neg below]

end Division

section Words

variable (a b : BitVec 32)

theorem signExtend_eq_zero : b.signExtend 64 = 0 ↔ b = 0 := by
  rw [← BitVec.toInt_inj, ← BitVec.toInt_inj, BitVec.toInt_signExtend_of_le (by omega)]
  rfl

theorem setWidth_eq_zero : b.setWidth 64 = 0 ↔ b = 0 := by
  rw [← BitVec.toNat_inj, ← BitVec.toNat_inj, BitVec.toNat_setWidth_of_le (by omega)]
  rfl

/-- The low word, as a number. -/
theorem toInt_low (x : BitVec 64) : (x.setWidth 32).toInt = x.toInt.bmod (2 ^ 32) := by
  rw [BitVec.toInt_setWidth, BitVec.toInt_eq_toNat_bmod, Int.bmod_bmod_of_dvd (by decide)]

theorem signedQuotient_word :
    (signedQuotient (a.signExtend 64) (b.signExtend 64)).setWidth 32 = signedQuotient a b := by
  rw [signedQuotient, signedQuotient]
  by_cases zero : b = 0
  · rw [if_pos ((signExtend_eq_zero b).mpr zero), if_pos zero]
    decide
  · rw [if_neg fun none => zero ((signExtend_eq_zero b).mp none), if_neg zero]
    apply BitVec.eq_of_toInt_eq
    rw [toInt_low, BitVec.toInt_sdiv, BitVec.toInt_sdiv, BitVec.toInt_signExtend_of_le (by omega),
      BitVec.toInt_signExtend_of_le (by omega), Int.bmod_bmod_of_dvd (by decide)]

theorem signedRemainder_word :
    (signedRemainder (a.signExtend 64) (b.signExtend 64)).setWidth 32 = signedRemainder a b := by
  have back (x : BitVec 32) : (x.signExtend 64).setWidth 32 = x := by
    apply BitVec.eq_of_toInt_eq
    rw [toInt_low, BitVec.toInt_signExtend_of_le (by omega)]
    exact BitVec.toInt_bmod_cancel x
  rw [signedRemainder, signedRemainder]
  by_cases zero : b = 0
  · rw [if_pos ((signExtend_eq_zero b).mpr zero), if_pos zero, back]
  · rw [if_neg fun none => zero ((signExtend_eq_zero b).mp none), if_neg zero]
    have same : (a.signExtend 64).srem (b.signExtend 64) = (a.srem b).signExtend 64 := by
      apply BitVec.eq_of_toInt_eq
      rw [BitVec.toInt_srem, BitVec.toInt_signExtend_of_le (by omega),
        BitVec.toInt_signExtend_of_le (by omega), BitVec.toInt_signExtend_of_le (by omega),
        BitVec.toInt_srem]
    rw [same, back]

theorem unsignedQuotient_word :
    (unsignedQuotient (a.setWidth 64) (b.setWidth 64)).setWidth 32 = unsignedQuotient a b := by
  rw [unsignedQuotient, unsignedQuotient]
  by_cases zero : b = 0
  · rw [if_pos ((setWidth_eq_zero b).mpr zero), if_pos zero]
    decide
  · rw [if_neg fun none => zero ((setWidth_eq_zero b).mp none), if_neg zero]
    apply BitVec.eq_of_toNat_eq
    have bound := Nat.div_le_self a.toNat b.toNat
    have small := a.isLt
    rw [BitVec.toNat_setWidth, BitVec.toNat_udiv, BitVec.toNat_udiv,
      BitVec.toNat_setWidth_of_le (by omega), BitVec.toNat_setWidth_of_le (by omega)]
    exact Nat.mod_eq_of_lt (Nat.lt_of_le_of_lt bound small)

theorem unsignedRemainder_word :
    (unsignedRemainder (a.setWidth 64) (b.setWidth 64)).setWidth 32 = unsignedRemainder a b := by
  rw [unsignedRemainder, unsignedRemainder]
  by_cases zero : b = 0
  · rw [if_pos ((setWidth_eq_zero b).mpr zero), if_pos zero, BitVec.setWidth_setWidth_of_le a (by omega),
      BitVec.setWidth_eq]
  · rw [if_neg fun none => zero ((setWidth_eq_zero b).mp none), if_neg zero]
    apply BitVec.eq_of_toNat_eq
    have bound := Nat.mod_le a.toNat b.toNat
    have small := a.isLt
    rw [BitVec.toNat_setWidth, BitVec.toNat_umod, BitVec.toNat_umod,
      BitVec.toNat_setWidth_of_le (by omega), BitVec.toNat_setWidth_of_le (by omega)]
    exact Nat.mod_eq_of_lt (Nat.lt_of_le_of_lt bound small)

end Words

section Unit

variable (pkg : Pkg)

/-- The request that the divider gets for an instruction. -/
def request (d : FuData) : Serdiv.Input 64 where
  id := d.transId
  opA := operand pkg d.operator d.operandA
  opB := operand pkg d.operator d.operandB
  opcode := BitVec.ofBool (rem d.operator) ++ BitVec.ofBool (divSigned d.operator)

/-- A signed division of minus one by one, of words or of double words. -/
def minusOneByOne (a b : BitVec 64) : MulOp → Bool
  | .div | .rem => a == BitVec.allOnes 64 && b == 1
  | .divw | .remw => a.setWidth 32 == BitVec.allOnes 32 && b.setWidth 32 == 1#32
  | _ => false

/-- The result of the unit: that of the instruction set, but for the division of minus one by one. -/
def unitResult (op : MulOp) (a b : BitVec 64) : BitVec 64 :=
  if minusOneByOne a b op then if rem (mulFuOp op) then BitVec.allOnes 64 else 0
  else op.result a b

/-- The output for the value that the divider shows. -/
def shown (op : FuOp) (x : BitVec 64) : BitVec 64 :=
  if wordOp op then pkg.sext32 (x.setWidth 32) else x

theorem opcode_bits (r s : Bool) :
    (BitVec.ofBool r ++ BitVec.ofBool s).getLsbD 0 = s ∧
      (BitVec.ofBool r ++ BitVec.ofBool s).getLsbD 1 = r := by
  cases r <;> cases s <;> decide

theorem request_signed (d : FuData) : (request pkg d).signed = divSigned d.operator := (opcode_bits _ _).1

theorem request_rem (d : FuData) : (request pkg d).rem = rem d.operator := (opcode_bits _ _).2

variable {pkg} {op : MulOp} {d : FuData} (law : pkg.Extends)

include law

theorem shown_word {op : FuOp} (word : wordOp op = true) (x : BitVec 64) :
    shown pkg op x = (x.setWidth 32).signExtend 64 := (if_pos word).trans (law _)

/-- A word goes to a signed division with its sign. -/
theorem operand_word {op : FuOp} (word : wordOp op = true) (signed : divSigned op = true)
    (x : BitVec 64) : operand pkg op x = (x.setWidth 32).signExtend 64 := by
  rw [operand, if_pos word, if_pos signed]
  exact law _

/-- Divisions of words go through the divider with extended operands. -/
theorem shown_answer (operator : d.operator = mulFuOp op) (divide : divides d.operator = true) :
    shown pkg d.operator (answer (request pkg d)) = op.result d.operandA d.operandB := by
  have signed : (request pkg d).signed = divSigned d.operator := request_signed pkg d
  have remains : (request pkg d).rem = rem d.operator := request_rem pkg d
  have first : (request pkg d).opA = operand pkg d.operator d.operandA := rfl
  have second : (request pkg d).opB = operand pkg d.operator d.operandB := rfl
  rw [operator] at signed remains first second divide
  rw [operator, answer, remains]
  cases op with
  | div => exact (quotient_signed signed).trans (by rw [first, second]; rfl)
  | divu => exact (quotient_unsigned signed).trans (by rw [first, second]; rfl)
  | rem => exact (remainder_signed signed).trans (by rw [first, second]; rfl)
  | remu => exact (remainder_unsigned signed).trans (by rw [first, second]; rfl)
  | divw =>
      have word := signedQuotient_word (d.operandA.setWidth 32) (d.operandB.setWidth 32)
      rw [shown_word law rfl]
      change ((quotient (request pkg d)).setWidth 32).signExtend 64 = _
      rw [quotient_signed signed, first, second, operand_word law rfl rfl,
        operand_word law rfl rfl]
      exact congrArg (BitVec.signExtend 64) word
  | divuw =>
      have word := unsignedQuotient_word (d.operandA.setWidth 32) (d.operandB.setWidth 32)
      rw [shown_word law rfl]
      change ((quotient (request pkg d)).setWidth 32).signExtend 64 = _
      rw [quotient_unsigned signed, first, second]
      exact congrArg (BitVec.signExtend 64) word
  | remw =>
      have word := signedRemainder_word (d.operandA.setWidth 32) (d.operandB.setWidth 32)
      rw [shown_word law rfl]
      change ((remainder (request pkg d)).setWidth 32).signExtend 64 = _
      rw [remainder_signed signed, first, second, operand_word law rfl rfl,
        operand_word law rfl rfl]
      exact congrArg (BitVec.signExtend 64) word
  | remuw =>
      have word := unsignedRemainder_word (d.operandA.setWidth 32) (d.operandB.setWidth 32)
      rw [shown_word law rfl]
      change ((remainder (request pkg d)).setWidth 32).signExtend 64 = _
      rw [remainder_unsigned signed, first, second]
      exact congrArg (BitVec.signExtend 64) word
  | mul | mulh | mulhsu | mulhu | mulw => exact absurd divide (by decide)

/-- The divider divides minus one by one for the instructions of the unit that do. -/
theorem request_minusOne (operator : d.operator = mulFuOp op) (divide : divides d.operator = true) :
    ((request pkg d).signed = true ∧ (request pkg d).opA = BitVec.allOnes 64 ∧ (request pkg d).opB = 1) ↔
      minusOneByOne d.operandA d.operandB op = true := by
  have signed : (request pkg d).signed = divSigned d.operator := request_signed pkg d
  have first : (request pkg d).opA = operand pkg d.operator d.operandA := rfl
  have second : (request pkg d).opB = operand pkg d.operator d.operandB := rfl
  rw [operator] at signed first second divide
  rw [signed, first, second]
  have ones (a : BitVec 64) : (a.setWidth 32).signExtend 64 = BitVec.allOnes 64 ↔
      a.setWidth 32 = BitVec.allOnes 32 := by
    rw [← BitVec.toInt_inj, ← BitVec.toInt_inj, BitVec.toInt_signExtend_of_le (by omega)]
    rfl
  have one (a : BitVec 64) : (a.setWidth 32).signExtend 64 = 1 ↔ a.setWidth 32 = 1#32 := by
    rw [← BitVec.toInt_inj, ← BitVec.toInt_inj, BitVec.toInt_signExtend_of_le (by omega)]
    rfl
  cases op with
  | div | rem => simp [divSigned, operand, wordOp, mulFuOp, minusOneByOne]
  | divw | remw =>
      rw [operand_word law rfl rfl, operand_word law rfl rfl, minusOneByOne, Bool.and_eq_true,
        beq_iff_eq, beq_iff_eq, ← ones, ← one]
      exact ⟨fun both => both.2, fun both => ⟨rfl, both⟩⟩
  | divu | remu | divuw | remuw => simp [divSigned, mulFuOp, minusOneByOne]
  | mul | mulh | mulhsu | mulhu | mulw => exact absurd divide (by decide)

omit law in
/-- The result is that of the instruction set but for minus one divided by one. -/
theorem unitResult_iff (op : MulOp) (a b : BitVec 64) :
    unitResult op a b = op.result a b ↔ ¬minusOneByOne a b op = true := by
  rw [unitResult]
  by_cases bad : minusOneByOne a b op = true
  · rw [if_pos bad]
    refine ⟨fun same => absurd same ?_, fun good => absurd bad good⟩
    cases op with
    | div | rem =>
        simp only [minusOneByOne, Bool.and_eq_true, beq_iff_eq] at bad
        rw [bad.1, bad.2]
        decide
    | divw | remw =>
        simp only [minusOneByOne, Bool.and_eq_true, beq_iff_eq] at bad
        rw [MulOp.result, bad.1, bad.2]
        decide
    | _ => exact absurd bad Bool.false_ne_true
  · rw [if_neg bad]
    exact ⟨fun _ => bad, fun _ => rfl⟩

/-- What the unit answers for a division. -/
theorem shown_served (operator : d.operator = mulFuOp op) (divide : divides d.operator = true) :
    shown pkg d.operator (served (request pkg d)) = unitResult op d.operandA d.operandB := by
  have minusOne := request_minusOne law operator divide
  rw [served_eq (show 2 ≤ 64 by omega), unitResult]
  by_cases bad : minusOneByOne d.operandA d.operandB op = true
  · rw [if_pos (minusOne.mpr bad), if_pos bad, request_rem, operator]
    cases rem (mulFuOp op) <;> cases word : wordOp (mulFuOp op) <;> simp [shown, word, law _]
  · rw [if_neg fun both => bad (minusOne.mp both), if_neg bad, shown_answer law operator divide]

/-- What the unit answers for a multiplication. -/
theorem multiplier_served (operator : d.operator = mulFuOp op)
    (operates : Multiplier.operates d.operator = true) (valid : Bool) :
    (Multiplier.next d valid).result pkg = unitResult op d.operandA d.operandB := by
  rw [multiplier_result law operator operates, unitResult, if_neg]
  rw [operator] at operates
  cases op with
  | mul | mulh | mulhsu | mulhu | mulw => exact Bool.false_ne_true
  | _ => exact absurd operates (by decide)

end Unit

end Ariane.Mult
