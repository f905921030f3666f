import Ariane.AxiMemory
import Ariane.MissHandler

set_option autoImplicit false

/- What an atomic operation does to the bytes at its address: `amo_alu.sv` between the lanes of the
bus. -/
namespace Ariane.Amo

open AmoBuffer (AmoT)
open AxiAdapter (byteAt byteOf wordOf byteOf_lt)
open MissHandler (Geometry Address Align AmoReq amoAlu operands amoStoreData)

/-- What an operation stores, on words of `w` bits. -/
def operate {w : Nat} (op : AmoT) (old operand : BitVec w) : BitVec w :=
  match op with
  | .sc | .swap => operand
  | .add => old + operand
  | .and => old &&& operand
  | .or => old ||| operand
  | .xor => old ^^^ operand
  | .max => if old.slt operand then operand else old
  | .min => if operand.slt old then operand else old
  | .maxu => if old.ult operand then operand else old
  | .minu => if operand.ult old then operand else old
  | .none | .lr => old

section Alu

variable (a b : BitVec 64)

/-- The sign of the wide difference compares signed numbers. -/
theorem difference_signed : (a.signExtend 65 + -(b.signExtend 65)).msb = a.slt b := by
  have ha := a.toInt_lt
  have hb := b.toInt_lt
  have la := a.le_toInt
  have lb := b.le_toInt
  have exact : (a.toInt - b.toInt).bmod (2 ^ 65) = a.toInt - b.toInt := by
    apply Int.bmod_eq_of_le <;> omega
  rw [← BitVec.sub_eq_add_neg, BitVec.msb_eq_toInt, BitVec.toInt_sub,
    BitVec.toInt_signExtend_of_le (by omega), BitVec.toInt_signExtend_of_le (by omega), exact,
    BitVec.slt]
  congr 1
  apply propext
  omega

/-- The sign of the wide difference compares unsigned numbers. -/
theorem difference_unsigned : (a.setWidth 65 + -(b.setWidth 65)).msb = a.ult b := by
  have ha := a.isLt
  have hb := b.isLt
  rw [← BitVec.sub_eq_add_neg, BitVec.msb_eq_decide, BitVec.toNat_sub, BitVec.toNat_setWidth,
    BitVec.toNat_setWidth, BitVec.ult]
  congr 1
  apply propext
  omega

theorem slt_asymm {w : Nat} {x y : BitVec w} (less : x.slt y = true) : y.slt x = false := by
  rw [BitVec.slt_iff_toInt_lt] at less
  rw [Bool.eq_false_iff, Ne, BitVec.slt_iff_toInt_lt]
  omega

theorem eq_of_not_slt {w : Nat} {x y : BitVec w} (first : x.slt y = false)
    (second : y.slt x = false) : x = y := by
  rw [Bool.eq_false_iff, Ne, BitVec.slt_iff_toInt_lt] at first second
  apply BitVec.eq_of_toInt_eq
  omega

/-- The unit computes what is to be stored. -/
theorem amoAlu_eq {op : AmoT} (none : op ≠ .none) (lr : op ≠ .lr) :
    amoAlu op a b = operate op a b := by
  cases op with
  | none => exact absurd rfl none
  | lr => exact absurd rfl lr
  | sc | swap | add | and | or | xor => rfl
  | max =>
      rw [amoAlu, difference_signed]
      rfl
  | maxu =>
      rw [amoAlu, difference_unsigned]
      rfl
  | min =>
      rw [amoAlu, difference_signed, operate]
      cases less : a.slt b with
      | true => simp [slt_asymm less]
      | false =>
          cases greater : b.slt a with
          | true => simp
          | false => simp [eq_of_not_slt less greater]
  | minu =>
      rw [amoAlu, difference_unsigned, operate]
      simp only [BitVec.ult_iff_lt]
      by_cases less : a < b
      · have below : ¬ b < a := by bv_omega
        rw [if_pos less, if_neg below]
      · by_cases greater : b < a
        · rw [if_neg less, if_pos greater]
        · rw [if_neg less, if_neg greater]
          bv_omega

end Alu

section Word

variable (a b : BitVec 32)

theorem low_signExtend : (a.signExtend 64).setWidth 32 = a := by
  apply BitVec.eq_of_getLsbD_eq
  intro k low
  simp [BitVec.getLsbD_signExtend, low]
  omega

theorem slt_signExtend : (a.signExtend 64).slt (b.signExtend 64) = a.slt b := by
  rw [BitVec.slt, BitVec.slt, BitVec.toInt_signExtend_of_le (by omega),
    BitVec.toInt_signExtend_of_le (by omega)]

/-- The extension keeps the order of unsigned words. -/
theorem ult_signExtend : (a.signExtend 64).ult (b.signExtend 64) = a.ult b := by
  have ha := a.isLt
  have hb := b.isLt
  rw [BitVec.ult, BitVec.ult, BitVec.toNat_signExtend, BitVec.toNat_signExtend,
    BitVec.msb_eq_decide, BitVec.msb_eq_decide, BitVec.toNat_setWidth, BitVec.toNat_setWidth]
  congr 1
  apply propext
  by_cases ma : 2 ^ (32 - 1) ≤ a.toNat <;> by_cases mb : 2 ^ (32 - 1) ≤ b.toNat <;>
    simp only [ma, mb, decide_true, decide_false, if_true, if_false, Bool.false_eq_true] <;> omega

/-- An operation on words is done on their extensions. -/
theorem operate_word (op : AmoT) :
    (operate op (a.signExtend 64) (b.signExtend 64)).setWidth 32 = operate op a b := by
  have la := low_signExtend a
  have lb := low_signExtend b
  cases op with
  | none | lr => exact la
  | sc | swap => exact lb
  | add => rw [operate, BitVec.setWidth_add _ _ (by omega), la, lb, operate]
  | and => rw [operate, BitVec.setWidth_and, la, lb, operate]
  | or => rw [operate, BitVec.setWidth_or, la, lb, operate]
  | xor => rw [operate, BitVec.setWidth_xor, la, lb, operate]
  | max =>
      rw [operate, slt_signExtend, operate]
      split <;> assumption
  | min =>
      rw [operate, slt_signExtend, operate]
      split <;> assumption
  | maxu =>
      rw [operate, ult_signExtend, operate]
      split <;> assumption
  | minu =>
      rw [operate, ult_signExtend, operate]
      split <;> assumption

end Word

/-- What the functions of the package do. -/
structure Lawful (align : Align) : Prop where
  rotates : ∀ off word, align.dataAlign off word = word.rotateLeft (8 * off.toNat)
  lanes : ∀ (off : BitVec 3) (size : BitVec 2), off.toNat % 2 ^ size.toNat = 0 → ∀ k, k < 8 →
    (align.beGen off size).getLsbD k = decide (off.toNat ≤ k ∧ k < off.toNat + 2 ^ size.toNat)
  extended : ∀ word, align.sext32 word = word.signExtend 64

/-- The accesses that the instructions make: words and doublewords at their own multiples. -/
structure Natural {g : Geometry} (a : AmoReq g) : Prop where
  size : a.size = 2 ∨ a.size = 3
  aligned : a.operandA.byte.toNat % 2 ^ a.size.toNat = 0

/-- The value at an address, as an instruction gets it. -/
def value (mem : AxiAdapter.Memory) (addr : BitVec 64) (size : BitVec 2) : BitVec 64 :=
  if size = 2 then ((mem (wordOf addr)).extractLsb' (8 * byteOf addr) 32).signExtend 64
  else mem (wordOf addr)

/-- What is stored at an address. -/
def stored (op : AmoT) (size : BitVec 2) (old operand : BitVec 64) : BitVec 64 :=
  if size = 2 then (operate op (old.setWidth 32) (operand.setWidth 32)).setWidth 64
  else operate op old operand

section Lanes

/-- Byte `k` of a rotated word. -/
theorem byteAt_rotateLeft (word : BitVec 64) {off k : Nat} (inside : off ≤ k) (high : k < 8) :
    byteAt (word.rotateLeft (8 * off)) k = byteAt word (k - off) := by
  apply BitVec.eq_of_getLsbD_eq
  intro j low
  have less : 8 * off % 64 = 8 * off := by omega
  rw [byteAt, byteAt, BitVec.getLsbD_extractLsb', BitVec.getLsbD_extractLsb',
    BitVec.getLsbD_rotateLeft, less, decide_eq_false (show ¬8 * k + j < 8 * off by omega),
    decide_eq_true (show 8 * k + j < 64 by omega),
    show 8 * k + j - 8 * off = 8 * (k - off) + j by omega]
  rfl

theorem rotateLeft_zero (word : BitVec 64) : word.rotateLeft 0 = word := by
  apply BitVec.eq_of_getLsbD_eq
  intro j low
  rw [BitVec.getLsbD_rotateLeft, decide_eq_false (show ¬j < 0 % 64 by omega), decide_eq_true low]
  rfl

/-- The low half of a rotated doubleword. -/
theorem low_rotateLeft (word : BitVec 64) {off : Nat} (aligned : off = 0 ∨ off = 4) :
    (word.rotateLeft (8 * off)).extractLsb' 0 32 = word.extractLsb' (8 * off) 32 := by
  apply BitVec.eq_of_getLsbD_eq
  intro j low
  rw [BitVec.getLsbD_extractLsb', BitVec.getLsbD_extractLsb', BitVec.getLsbD_rotateLeft,
    decide_eq_true low, Bool.true_and, Bool.true_and, Nat.zero_add]
  rcases aligned with rfl | rfl
  · rw [decide_eq_false (show ¬j < 8 * 0 % 64 by omega), decide_eq_true (show j < 64 by omega),
      Nat.mul_zero, Nat.zero_add]
    rfl
  · rw [decide_eq_true (show j < 8 * 4 % 64 by omega)]
    rfl

theorem byteAt_setWidth (word : BitVec 64) {k : Nat} (low : k < 4) :
    byteAt ((word.setWidth 32).setWidth 64) k = byteAt word k := by
  apply BitVec.eq_of_getLsbD_eq
  intro j small
  rw [byteAt, byteAt, BitVec.getLsbD_extractLsb', BitVec.getLsbD_extractLsb',
    BitVec.getLsbD_setWidth, BitVec.getLsbD_setWidth,
    decide_eq_true (show 8 * k + j < 32 by omega), decide_eq_true (show 8 * k + j < 64 by omega),
    Bool.true_and, Bool.true_and]

theorem extract_zero (word : BitVec 64) : word.extractLsb' 0 32 = word.setWidth 32 := by
  apply BitVec.eq_of_getLsbD_eq
  intro j low
  rw [BitVec.getLsbD_extractLsb', BitVec.getLsbD_setWidth, Nat.zero_add]

variable {g : Geometry} {align : Align} {a : AmoReq g}

theorem Natural.offset_word (natural : Natural a) (size : a.size = 2) :
    a.operandA.byte.toNat = 0 ∨ a.operandA.byte.toNat = 4 := by
  have aligned := natural.aligned
  have small := a.operandA.byte.isLt
  rw [size] at aligned
  have aligned : a.operandA.byte.toNat % 4 = 0 := aligned
  omega

theorem Natural.offset_double (natural : Natural a) (size : a.size ≠ 2) :
    a.operandA.byte.toNat = 0 := by
  have aligned := natural.aligned
  have small := a.operandA.byte.isLt
  rw [natural.size.resolve_left size] at aligned
  have aligned : a.operandA.byte.toNat % 8 = 0 := aligned
  omega

variable (lawful : Lawful align) (natural : Natural a) {mem : AxiAdapter.Memory}
  {addr : BitVec 64} (byte : byteOf addr = a.operandA.byte.toNat)

include lawful natural byte

/-- The first operand is the value at the address. -/
theorem operands_value :
    (operands align a (mem (wordOf addr))).1 = value mem addr a.size := by
  rw [operands, value, lawful.rotates]
  by_cases size : a.size = 2
  · rw [if_pos size, if_pos size, lawful.extended, low_rotateLeft _ (natural.offset_word size), byte]
  · rw [if_neg size, if_neg size, natural.offset_double size, Nat.mul_zero, rotateLeft_zero]

/-- The bytes that are stored. -/
theorem store_bytes (none : a.op ≠ .none) (lr : a.op ≠ .lr) {k : Nat}
    (low : a.operandA.byte.toNat ≤ k) (high : k < a.operandA.byte.toNat + 2 ^ a.size.toNat)
    (inside : k < 8) :
    byteAt (amoStoreData align a (mem (wordOf addr))).1 k =
      byteAt (stored a.op a.size (value mem addr a.size) a.operandB)
        (k - a.operandA.byte.toNat) := by
  rw [amoStoreData, lawful.rotates, byteAt_rotateLeft _ low inside, amoAlu_eq _ _ none lr,
    operands_value lawful natural byte, stored]
  by_cases size : a.size = 2
  · have second : (operands align a (mem (wordOf addr))).2 =
        (a.operandB.setWidth 32).signExtend 64 := by
      rw [operands, if_pos size]
      show align.sext32 (a.operandB.extractLsb' 0 32) = _
      rw [lawful.extended, extract_zero]
    have first : value mem addr a.size =
        ((mem (wordOf addr)).extractLsb' (8 * byteOf addr) 32).signExtend 64 := by
      rw [value, if_pos size]
    rw [size] at high
    have high : k < a.operandA.byte.toNat + 4 := high
    rw [if_pos size, second, first, low_signExtend, ← operate_word,
      byteAt_setWidth _ (show k - a.operandA.byte.toNat < 4 by omega)]
  · rw [if_neg size]
    have second : (operands align a (mem (wordOf addr))).2 = a.operandB := by
      rw [operands, if_neg size]
    rw [second]

omit lawful in
/-- The value, byte by byte. -/
theorem value_byte {k : Nat} (inside : k < 2 ^ a.size.toNat) :
    byteAt (value mem addr a.size) k = mem.byte (addr + BitVec.ofNat 64 k) := by
  have small := a.operandA.byte.isLt
  have first : byteOf addr = addr.toNat % 8 := rfl
  have fits : byteOf addr + k < 8 := by
    by_cases size : a.size = 2
    · have offset := natural.offset_word size
      rw [size] at inside
      have inside : k < 4 := inside
      omega
    · have offset := natural.offset_double size
      rw [natural.size.resolve_left size] at inside
      have inside : k < 8 := inside
      omega
  have bound := addr.isLt
  have sum : (addr + BitVec.ofNat 64 k).toNat = addr.toNat + k := by
    rw [BitVec.toNat_add, BitVec.toNat_ofNat]
    omega
  have word : wordOf (addr + BitVec.ofNat 64 k) = wordOf addr := by
    apply BitVec.eq_of_toNat_eq
    rw [wordOf, wordOf, BitVec.extractLsb'_toNat, BitVec.extractLsb'_toNat,
      Nat.shiftRight_eq_div_pow, Nat.shiftRight_eq_div_pow, sum]
    omega
  have place : byteOf (addr + BitVec.ofNat 64 k) = byteOf addr + k := by
    rw [byteOf, sum]
    omega
  rw [AxiAdapter.Memory.byte, word, place, value]
  by_cases size : a.size = 2
  · rw [size] at inside
    have inside : k < 4 := inside
    rw [if_pos size]
    apply BitVec.eq_of_getLsbD_eq
    intro j low
    rw [byteAt, byteAt, BitVec.getLsbD_extractLsb', BitVec.getLsbD_extractLsb',
      BitVec.getLsbD_signExtend, if_pos (show 8 * k + j < 32 by omega),
      BitVec.getLsbD_extractLsb', decide_eq_true low,
      decide_eq_true (show 8 * k + j < 64 by omega), decide_eq_true (show 8 * k + j < 32 by omega),
      show 8 * byteOf addr + (8 * k + j) = 8 * (byteOf addr + k) + j by omega]
    rfl
  · rw [if_neg size, byte, natural.offset_double size, Nat.zero_add]

end Lanes

end Ariane.Amo
