import Ariane.Pkg
import Mathlib.Data.BitVec

set_option autoImplicit false

/- `alu.sv`: additions, shifts, comparisons and bitwise operations, in one cycle. One adder serves
additions, subtractions and equality, and one right shifter serves all shifts. -/
namespace Ariane

/-- `fu_data_t`, what the issue stage hands to the functional units. -/
structure FuData where
  fu : Fu := .none
  operator : FuOp := .add
  operandA : BitVec 64 := 0
  operandB : BitVec 64 := 0
  imm : BitVec 64 := 0
  transId : Nat := 0
  deriving DecidableEq, Inhabited

end Ariane

namespace Ariane.Alu

variable (d : FuData)

def adderOpBNegate : Bool := d.operator ∈ [.eq, .ne, .sub, .subw]

def adderInA : BitVec 65 := d.operandA ++ 1#1

def operandBNeg : BitVec 65 :=
  (d.operandB ++ 0#1) ^^^ (if adderOpBNegate d then BitVec.allOnes 65 else 0)

def adderResultExt : BitVec 66 := (adderInA d).setWidth 66 + (operandBNeg d).setWidth 66

def adderResult : BitVec 64 := (adderResultExt d).extractLsb' 1 64

def adderZFlag : Bool := adderResult d == 0

def shiftLeft : Bool := d.operator ∈ [.sll, .sllw]

def shiftArithmetic : Bool := d.operator ∈ [.sra, .sraw]

def shiftOpA : BitVec 64 := if shiftLeft d then d.operandA.reverse else d.operandA

def shiftOpA32 : BitVec 32 :=
  if shiftLeft d then (d.operandA.setWidth 32).reverse else d.operandA.setWidth 32

def shiftRightResult : BitVec 65 :=
  (BitVec.ofBool (shiftArithmetic d && (shiftOpA d).msb) ++ shiftOpA d).sshiftRight
    (d.operandB.setWidth 6).toNat

def shiftRightResult32 : BitVec 33 :=
  (BitVec.ofBool (shiftArithmetic d && (shiftOpA d).getLsbD 31) ++ shiftOpA32 d).sshiftRight
    (d.operandB.setWidth 5).toNat

def shiftResult : BitVec 64 :=
  let right := (shiftRightResult d).setWidth 64
  if shiftLeft d then right.reverse else right

def shiftResult32 : BitVec 32 :=
  let right := (shiftRightResult32 d).setWidth 32
  if shiftLeft d then right.reverse else right

def sgn : Bool := d.operator ∈ [.slts, .lts, .ges]

/-- Both operands are extended by one bit, which is the sign or zero. -/
def less : Bool :=
  (BitVec.ofBool (sgn d && d.operandA.msb) ++ d.operandA).slt
    (BitVec.ofBool (sgn d && d.operandB.msb) ++ d.operandB)

/-- `alu_branch_res_o`. -/
def branchRes : Bool :=
  match d.operator with
  | .eq => adderZFlag d
  | .ne => !adderZFlag d
  | .lts | .ltu => less d
  | .ges | .geu => !less d
  | _ => true

/-- `result_o`. -/
def result : BitVec 64 :=
  match d.operator with
  | .andl => d.operandA &&& d.operandB
  | .orl => d.operandA ||| d.operandB
  | .xorl => d.operandA ^^^ d.operandB
  | .add | .sub => adderResult d
  | .addw | .subw => ((adderResult d).setWidth 32).signExtend 64
  | .sll | .srl | .sra => shiftResult d
  | .sllw | .srlw | .sraw => (shiftResult32 d).signExtend 64
  | .slts | .sltu => (BitVec.ofBool (less d)).setWidth 64
  | _ => 0

/-- What the instructions define for the operands, by the operator. -/
def isaResult (op : FuOp) (a b : BitVec 64) : Option (BitVec 64) :=
  match op with
  | .add => some (a + b)
  | .sub => some (a - b)
  | .addw => some ((a.setWidth 32 + b.setWidth 32).signExtend 64)
  | .subw => some ((a.setWidth 32 - b.setWidth 32).signExtend 64)
  | .andl => some (a &&& b)
  | .orl => some (a ||| b)
  | .xorl => some (a ^^^ b)
  | .sll => some (a <<< (b.toNat % 64))
  | .srl => some (a >>> (b.toNat % 64))
  | .sra => some (a.sshiftRight (b.toNat % 64))
  | .sllw => some ((a.setWidth 32 <<< (b.toNat % 32)).signExtend 64)
  | .srlw => some ((a.setWidth 32 >>> (b.toNat % 32)).signExtend 64)
  | .sraw => some (((a.setWidth 32).sshiftRight (b.toNat % 32)).signExtend 64)
  | .slts => some (if a.slt b then 1 else 0)
  | .sltu => some (if a.ult b then 1 else 0)
  | _ => none

/-- The condition of a branch, by the operator. -/
def isaBranch (op : FuOp) (a b : BitVec 64) : Option Bool :=
  match op with
  | .eq => some (a == b)
  | .ne => some (a != b)
  | .lts => some (a.slt b)
  | .ltu => some (a.ult b)
  | .ges => some (b.sle a)
  | .geu => some (b.ule a)
  | _ => none

section Adder

theorem toNat_append_bit (b : BitVec 64) (low : BitVec 1) :
    (b ++ low).toNat = 2 * b.toNat + low.toNat := by
  rw [BitVec.toNat_append, ← Nat.shiftLeft_add_eq_or_of_lt low.isLt, Nat.shiftLeft_eq]
  omega

theorem operandBNeg_toNat :
    (operandBNeg d).toNat =
      if adderOpBNegate d then 2 ^ 65 - 1 - 2 * d.operandB.toNat else 2 * d.operandB.toNat := by
  have value : (d.operandB ++ 0#1).toNat = 2 * d.operandB.toNat := toNat_append_bit d.operandB 0#1
  rw [operandBNeg]
  by_cases negate : adderOpBNegate d
  · simp only [negate, ↓reduceIte, BitVec.xor_allOnes, BitVec.toNat_not, value]
  · have plain : d.operandB ++ 0#1 ^^^ 0 = d.operandB ++ 0#1 := BitVec.xor_zero
    simp only [negate, Bool.false_eq_true, ↓reduceIte, plain, value]

/-- The carry that the low bits make completes the two's complement. -/
theorem adderResult_eq :
    adderResult d =
      if adderOpBNegate d then d.operandA - d.operandB else d.operandA + d.operandB := by
  have boundA := d.operandA.isLt
  have boundB := d.operandB.isLt
  have first : (adderInA d).toNat = 2 * d.operandA.toNat + 1 := toNat_append_bit d.operandA 1#1
  have second := operandBNeg_toNat d
  apply BitVec.eq_of_toNat_eq
  rw [adderResult, adderResultExt, BitVec.extractLsb'_toNat, BitVec.toNat_add,
    BitVec.toNat_setWidth, BitVec.toNat_setWidth, first, second, Nat.shiftRight_eq_div_pow]
  by_cases negate : adderOpBNegate d
  · simp only [negate, ↓reduceIte, BitVec.toNat_sub]
    omega
  · simp only [negate, Bool.false_eq_true, ↓reduceIte, BitVec.toNat_add]
    omega

end Adder

section Shifter

variable {w : Nat} (x : BitVec w) (n : Nat)

/-- A right shift behind a sign bit. -/
theorem getLsbD_shiftRight_signed (sign : Bool) {k : Nat} (inside : k < w) :
    ((BitVec.ofBool sign ++ x).sshiftRight n).getLsbD k =
      if n + k < w then x.getLsbD (n + k) else sign := by
  have low : ¬ 1 + w ≤ k := by omega
  have msb : (BitVec.ofBool sign ++ x).msb = sign := by simp [BitVec.msb_append]
  rw [BitVec.getLsbD_sshiftRight, msb, decide_eq_false low, BitVec.getLsbD_append]
  by_cases here : n + k < w
  · have more : n + k < 1 + w := by omega
    simp [here, more]
  · by_cases last : n + k = w
    · simp [last]
    · have beyond : ¬ n + k < 1 + w := by omega
      simp [here, beyond]

theorem shiftRight_logical :
    ((BitVec.ofBool false ++ x).sshiftRight n).setWidth w = x >>> n := by
  ext k inside
  rw [BitVec.getElem_setWidth, getLsbD_shiftRight_signed x n false inside, BitVec.getElem_ushiftRight]
  split
  · rfl
  · exact (BitVec.getLsbD_of_ge _ _ (by omega)).symm

theorem shiftRight_arithmetic :
    ((BitVec.ofBool x.msb ++ x).sshiftRight n).setWidth w = x.sshiftRight n := by
  ext k inside
  have low : ¬ w ≤ k := by omega
  rw [BitVec.getElem_setWidth, getLsbD_shiftRight_signed x n _ inside, ← BitVec.getLsbD_eq_getElem,
    BitVec.getLsbD_sshiftRight, decide_eq_false low]
  rfl

/-- A left shift is a right shift of the reversed bits. -/
theorem reverse_shiftRight : (x.reverse >>> n).reverse = x <<< n := by
  ext k inside
  rw [BitVec.getElem_reverse, BitVec.getMsbD_eq_getLsbD, BitVec.getLsbD_ushiftRight,
    BitVec.getLsbD_reverse, BitVec.getMsbD_eq_getLsbD, BitVec.getElem_shiftLeft]
  by_cases low : k < n
  · have beyond : ¬ n + (w - 1 - k) < w := by omega
    simp [low, beyond]
  · have within : n + (w - 1 - k) < w := by omega
    have index : w - 1 - (n + (w - 1 - k)) = k - n := by omega
    simp only [low, within, index, inside, decide_false, decide_true, Bool.not_false, Bool.true_and]
    exact BitVec.getLsbD_eq_getElem _

end Shifter

section Shifts

variable {d}

theorem shiftResult_left (left : shiftLeft d = true) (plain : shiftArithmetic d = false) :
    shiftResult d = d.operandA <<< (d.operandB.toNat % 64) := by
  have right : (shiftRightResult d).setWidth 64 = d.operandA.reverse >>> (d.operandB.toNat % 64) := by
    rw [shiftRightResult, shiftOpA, left, plain, if_pos rfl, Bool.false_and, shiftRight_logical,
      BitVec.toNat_setWidth]
  rw [shiftResult, right, left, if_pos rfl, reverse_shiftRight]

theorem shiftResult_logical (right : shiftLeft d = false) (plain : shiftArithmetic d = false) :
    shiftResult d = d.operandA >>> (d.operandB.toNat % 64) := by
  rw [shiftResult, shiftRightResult, shiftOpA, right, plain, if_neg Bool.false_ne_true,
    if_neg Bool.false_ne_true, Bool.false_and, shiftRight_logical, BitVec.toNat_setWidth]

theorem shiftResult_arithmetic (right : shiftLeft d = false) (signed : shiftArithmetic d = true) :
    shiftResult d = d.operandA.sshiftRight (d.operandB.toNat % 64) := by
  rw [shiftResult, shiftRightResult, shiftOpA, right, signed, if_neg Bool.false_ne_true,
    if_neg Bool.false_ne_true, Bool.true_and, shiftRight_arithmetic, BitVec.toNat_setWidth]

theorem shiftResult32_left (left : shiftLeft d = true) (plain : shiftArithmetic d = false) :
    shiftResult32 d = d.operandA.setWidth 32 <<< (d.operandB.toNat % 32) := by
  have right : (shiftRightResult32 d).setWidth 32 =
      (d.operandA.setWidth 32).reverse >>> (d.operandB.toNat % 32) := by
    rw [shiftRightResult32, shiftOpA32, left, plain, if_pos rfl, Bool.false_and,
      shiftRight_logical, BitVec.toNat_setWidth]
  rw [shiftResult32, right, left, if_pos rfl, reverse_shiftRight]

theorem shiftResult32_logical (right : shiftLeft d = false) (plain : shiftArithmetic d = false) :
    shiftResult32 d = d.operandA.setWidth 32 >>> (d.operandB.toNat % 32) := by
  rw [shiftResult32, shiftRightResult32, shiftOpA32, right, plain, if_neg Bool.false_ne_true,
    if_neg Bool.false_ne_true, Bool.false_and, shiftRight_logical, BitVec.toNat_setWidth]

theorem shiftResult32_arithmetic (right : shiftLeft d = false)
    (signed : shiftArithmetic d = true) :
    shiftResult32 d = (d.operandA.setWidth 32).sshiftRight (d.operandB.toNat % 32) := by
  have sign : (shiftOpA d).getLsbD 31 = (d.operandA.setWidth 32).msb := by
    rw [shiftOpA, right, if_neg Bool.false_ne_true, BitVec.msb_eq_getLsbD_last,
      BitVec.getLsbD_setWidth]
    rfl
  rw [shiftResult32, shiftRightResult32, sign, shiftOpA32, right, signed, if_neg Bool.false_ne_true,
    if_neg Bool.false_ne_true, Bool.true_and, shiftRight_arithmetic, BitVec.toNat_setWidth]

end Shifts

section Comparison

variable {d}

theorem toInt_extended (sign : Bool) (a : BitVec 64) :
    (BitVec.ofBool sign ++ a : BitVec (1 + 64)).toInt =
      a.toNat - if sign then 2 ^ 64 else 0 := by
  have value : (BitVec.ofBool sign ++ a : BitVec (1 + 64)).toNat =
      sign.toNat * 2 ^ 64 + a.toNat := by
    rw [BitVec.toNat_append, ← Nat.shiftLeft_add_eq_or_of_lt a.isLt, Nat.shiftLeft_eq,
      BitVec.toNat_ofBool]
  have bound := a.isLt
  rw [BitVec.toInt_eq_toNat_cond, value]
  cases sign with
  | false => simp only [Bool.toNat_false, Bool.false_eq_true, ↓reduceIte]; omega
  | true => simp only [Bool.toNat_true, ↓reduceIte]; omega

theorem less_signed (signed : sgn d = true) : less d = d.operandA.slt d.operandB := by
  rw [less, BitVec.slt_eq_decide, BitVec.slt_eq_decide, toInt_extended, toInt_extended, signed,
    Bool.true_and, Bool.true_and, BitVec.toInt_eq_msb_cond, BitVec.toInt_eq_msb_cond]
  grind

theorem less_unsigned (unsigned : sgn d = false) : less d = d.operandA.ult d.operandB := by
  rw [less, BitVec.slt_eq_decide, toInt_extended, toInt_extended, unsigned, Bool.false_and,
    Bool.false_and, BitVec.ult_eq_decide]
  simp only [Bool.false_eq_true, ↓reduceIte, Int.sub_zero, Int.ofNat_lt]

/-- The equality test through the adder. -/
theorem adderZFlag_eq (negate : adderOpBNegate d = true) :
    adderZFlag d = (d.operandA == d.operandB) := by
  rw [adderZFlag, adderResult_eq, negate, if_pos rfl, Bool.eq_iff_iff, beq_iff_eq, beq_iff_eq]
  constructor
  · intro zero
    have value := congrArg BitVec.toNat zero
    rw [BitVec.toNat_sub] at value
    have boundA := d.operandA.isLt
    have boundB := d.operandB.isLt
    apply BitVec.eq_of_toNat_eq
    change _ = 0 at value
    omega
  · intro same
    rw [same]
    exact BitVec.sub_self _

theorem setWidth_sub (a b : BitVec 64) :
    (a - b).setWidth 32 = a.setWidth 32 - b.setWidth 32 := by
  apply BitVec.eq_of_toNat_eq
  simp only [BitVec.toNat_setWidth, BitVec.toNat_sub]
  have boundB := b.isLt
  omega

end Comparison

section Operators

theorem result_isa : result d = (isaResult d.operator d.operandA d.operandB).getD 0 := by
  have adder := adderResult_eq d
  unfold result isaResult
  cases op : d.operator
  case add =>
    rw [adderOpBNegate, op] at adder
    exact adder
  case sub =>
    rw [adderOpBNegate, op] at adder
    exact adder
  case addw =>
    rw [adderOpBNegate, op] at adder
    rw [adder]
    exact congrArg (BitVec.signExtend 64) (BitVec.setWidth_add _ _ (by decide))
  case subw =>
    rw [adderOpBNegate, op] at adder
    rw [adder]
    exact congrArg (BitVec.signExtend 64) (setWidth_sub _ _)
  case sll => exact shiftResult_left (by rw [shiftLeft, op]; rfl) (by rw [shiftArithmetic, op]; rfl)
  case srl =>
    exact shiftResult_logical (by rw [shiftLeft, op]; rfl) (by rw [shiftArithmetic, op]; rfl)
  case sra =>
    exact shiftResult_arithmetic (by rw [shiftLeft, op]; rfl) (by rw [shiftArithmetic, op]; rfl)
  case sllw =>
    have shift : shiftResult32 d = _ :=
      shiftResult32_left (by rw [shiftLeft, op]; rfl) (by rw [shiftArithmetic, op]; rfl)
    exact congrArg (BitVec.signExtend 64) shift
  case srlw =>
    have shift : shiftResult32 d = _ :=
      shiftResult32_logical (by rw [shiftLeft, op]; rfl) (by rw [shiftArithmetic, op]; rfl)
    exact congrArg (BitVec.signExtend 64) shift
  case sraw =>
    have shift : shiftResult32 d = _ :=
      shiftResult32_arithmetic (by rw [shiftLeft, op]; rfl) (by rw [shiftArithmetic, op]; rfl)
    exact congrArg (BitVec.signExtend 64) shift
  case slts =>
    have order : less d = d.operandA.slt d.operandB := less_signed (by rw [sgn, op]; rfl)
    simp only [order, Option.getD_some]
    cases d.operandA.slt d.operandB <;> rfl
  case sltu =>
    have order : less d = d.operandA.ult d.operandB := less_unsigned (by rw [sgn, op]; rfl)
    simp only [order, Option.getD_some]
    cases d.operandA.ult d.operandB <;> rfl
  all_goals rfl

theorem branchRes_isa :
    branchRes d = (isaBranch d.operator d.operandA d.operandB).getD true := by
  unfold branchRes isaBranch
  cases op : d.operator
  case eq => exact adderZFlag_eq (by rw [adderOpBNegate, op]; rfl)
  case ne =>
    have equal : adderZFlag d = _ := adderZFlag_eq (by rw [adderOpBNegate, op]; rfl)
    exact congrArg not equal
  case lts => exact less_signed (by rw [sgn, op]; rfl)
  case ltu => exact less_unsigned (by rw [sgn, op]; rfl)
  case ges =>
    have order : less d = _ := less_signed (by rw [sgn, op]; rfl)
    exact (congrArg not order).trans BitVec.sle_eq_not_slt.symm
  case geu =>
    have order : less d = _ := less_unsigned (by rw [sgn, op]; rfl)
    exact (congrArg not order).trans (BitVec.ule_eq_not_ult _ _).symm
  all_goals rfl

end Operators

/-- For all operands and every operator the results are those of the instructions, and without an
instruction they are 0 and true. -/
theorem alu_isa (d : FuData) :
    result d = (isaResult d.operator d.operandA d.operandB).getD 0 ∧
      branchRes d = (isaBranch d.operator d.operandA d.operandB).getD true :=
  ⟨result_isa d, branchRes_isa d⟩

end Ariane.Alu
