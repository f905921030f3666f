import Ariane.CompressedDecoder

set_option autoImplicit false

/- The compressed decoder against the expansions of RV64DC. -/
namespace Ariane.CompressedDecoder

open Rv64 Rvc

section Immediates

variable (i : BitVec 32)

theorem shamt6_eq : (shamt6 i).setWidth 64 = shamt (i.setWidth 16) :=
  unsigned_setWidth (.append (.slice (by decide)) (.slice (by decide))) (by decide) (by decide)

theorem imm6_eq : (imm6 i).signExtend 64 = immediate (i.setWidth 16) :=
  signed_eq
    (.append (.append (.repeated (by decide)) (.slice (by decide))) (.slice (by decide)))
    (by decide) (by decide)

theorem addi4spn_eq :
    (0#2 ++ i.extractLsb 10 7 ++ i.extractLsb 12 11 ++ i.extractLsb 5 5 ++ i.extractLsb 6 6 ++
      0#2 : BitVec 12).signExtend 64 =
      unsigned (i.setWidth 16) [(12, [5, 4, 9, 8, 7, 6, 2, 3])] :=
  unsigned_eq
    (.append (.append (.append (.append (.append .zeros (.slice (by decide)))
      (.slice (by decide))) (.slice (by decide))) (.slice (by decide))) .zeros)
    (by decide) (by decide) (by decide)

theorem wordOffset_eq :
    (0#5 ++ i.extractLsb 5 5 ++ i.extractLsb 12 10 ++ i.extractLsb 6 6 ++ 0#2 :
      BitVec 12).signExtend 64 = wordOffset (i.setWidth 16) :=
  unsigned_eq
    (.append (.append (.append (.append .zeros (.slice (by decide))) (.slice (by decide)))
      (.slice (by decide))) .zeros)
    (by decide) (by decide) (by decide)

theorem doubleOffset_eq :
    (0#4 ++ i.extractLsb 6 5 ++ i.extractLsb 12 10 ++ 0#3 : BitVec 12).signExtend 64 =
      doubleOffset (i.setWidth 16) :=
  unsigned_eq
    (.append (.append (.append .zeros (.slice (by decide))) (.slice (by decide))) .zeros)
    (by decide) (by decide) (by decide)

/-- A store has its immediate in two pieces. -/
theorem doubleOffset_store :
    ((0#4 ++ i.extractLsb 6 5 ++ i.extractLsb 12 12 : BitVec 7) ++
      (i.extractLsb 11 10 ++ 0#3 : BitVec 5)).signExtend 64 = doubleOffset (i.setWidth 16) :=
  unsigned_eq
    (.append (.append (.append .zeros (.slice (by decide))) (.slice (by decide)))
      (.append (.slice (by decide)) .zeros))
    (by decide) (by decide) (by decide)

theorem wordOffset_store :
    ((0#5 ++ i.extractLsb 5 5 ++ i.extractLsb 12 12 : BitVec 7) ++
      (i.extractLsb 11 10 ++ i.extractLsb 6 6 ++ 0#2 : BitVec 5)).signExtend 64 =
      wordOffset (i.setWidth 16) :=
  unsigned_eq
    (.append (.append (.append .zeros (.slice (by decide))) (.slice (by decide)))
      (.append (.append (.slice (by decide)) (.slice (by decide))) .zeros))
    (by decide) (by decide) (by decide)

theorem addi16sp_eq :
    ((i.extractLsb 12 12).replicate 3 ++ i.extractLsb 4 3 ++ i.extractLsb 5 5 ++
      i.extractLsb 2 2 ++ i.extractLsb 6 6 ++ 0#4 : BitVec 12).signExtend 64 =
      signed (i.setWidth 16) 9 [(12, [9]), (6, [4, 6, 8, 7, 5])] :=
  signed_eq
    (.append (.append (.append (.append (.append (.repeated (by decide)) (.slice (by decide)))
      (.slice (by decide))) (.slice (by decide))) (.slice (by decide))) .zeros)
    (by decide) (by decide)

theorem lui_eq :
    (((i.extractLsb 12 12).replicate 15 ++ i.extractLsb 6 2 : BitVec 20) ++ 0#12).signExtend 64 =
      signed (i.setWidth 16) 17 [(12, [17]), (6, [16, 15, 14, 13, 12])] :=
  signed_eq (.append (.append (.repeated (by decide)) (.slice (by decide))) .zeros) (by decide)
    (by decide)

/-- The upper bits of a jump. -/
def jumpUpper : BitVec 20 :=
  i.extractLsb 12 12 ++ i.extractLsb 8 8 ++ i.extractLsb 10 9 ++ i.extractLsb 6 6 ++
    i.extractLsb 7 7 ++ i.extractLsb 2 2 ++ i.extractLsb 11 11 ++ i.extractLsb 5 3 ++
    (i.extractLsb 12 12).replicate 9

theorem jumpOffset_eq :
    ((jumpUpper i).extractLsb' 19 1 ++ (jumpUpper i).extractLsb' 0 8 ++
      (jumpUpper i).extractLsb' 8 1 ++ (jumpUpper i).extractLsb' 9 10 ++ 0#1).signExtend 64 =
      jumpOffset (i.setWidth 16) :=
  have wired : Wired (i.setWidth 16) _ (jumpUpper i) :=
    .append (.append (.append (.append (.append (.append (.append (.append (.slice (by decide))
      (.slice (by decide))) (.slice (by decide))) (.slice (by decide))) (.slice (by decide)))
      (.slice (by decide))) (.slice (by decide))) (.slice (by decide))) (.repeated (by decide))
  signed_eq
    (.append (.append (.append (.append (wired.extract (by decide)) (wired.extract (by decide)))
      (wired.extract (by decide))) (wired.extract (by decide))) .zeros)
    (by decide) (by decide)

/-- A branch has its offset in two pieces, too. -/
def branchHigh : BitVec 7 :=
  (i.extractLsb 12 12).replicate 4 ++ i.extractLsb 6 5 ++ i.extractLsb 2 2

def branchLow : BitVec 5 := i.extractLsb 11 10 ++ i.extractLsb 4 3 ++ i.extractLsb 12 12

theorem branchOffset_eq :
    ((branchHigh i).extractLsb' 6 1 ++ (branchLow i).extractLsb' 0 1 ++
      (branchHigh i).extractLsb' 0 6 ++ (branchLow i).extractLsb' 1 4 ++ 0#1).signExtend 64 =
      branchOffset (i.setWidth 16) :=
  have high : Wired (i.setWidth 16) _ (branchHigh i) :=
    .append (.append (.repeated (by decide)) (.slice (by decide))) (.slice (by decide))
  have low : Wired (i.setWidth 16) _ (branchLow i) :=
    .append (.append (.slice (by decide)) (.slice (by decide))) (.slice (by decide))
  signed_eq
    (.append (.append (.append (.append (high.extract (by decide)) (low.extract (by decide)))
      (high.extract (by decide))) (low.extract (by decide))) .zeros)
    (by decide) (by decide)

theorem doubleStackLoad_eq :
    (0#3 ++ i.extractLsb 4 2 ++ i.extractLsb 12 12 ++ i.extractLsb 6 5 ++ 0#3 :
      BitVec 12).signExtend 64 = doubleStackLoad (i.setWidth 16) :=
  unsigned_eq
    (.append (.append (.append (.append .zeros (.slice (by decide))) (.slice (by decide)))
      (.slice (by decide))) .zeros)
    (by decide) (by decide) (by decide)

theorem lwsp_eq :
    (0#4 ++ i.extractLsb 3 2 ++ i.extractLsb 12 12 ++ i.extractLsb 6 4 ++ 0#2 :
      BitVec 12).signExtend 64 = unsigned (i.setWidth 16) [(12, [5]), (6, [4, 3, 2, 7, 6])] :=
  unsigned_eq
    (.append (.append (.append (.append .zeros (.slice (by decide))) (.slice (by decide)))
      (.slice (by decide))) .zeros)
    (by decide) (by decide) (by decide)

theorem doubleStackStore_eq :
    ((0#3 ++ i.extractLsb 9 7 ++ i.extractLsb 12 12 : BitVec 7) ++
      (i.extractLsb 11 10 ++ 0#3 : BitVec 5)).signExtend 64 =
      doubleStackStore (i.setWidth 16) :=
  unsigned_eq
    (.append (.append (.append .zeros (.slice (by decide))) (.slice (by decide)))
      (.append (.slice (by decide)) .zeros))
    (by decide) (by decide) (by decide)

theorem swsp_eq :
    ((0#4 ++ i.extractLsb 8 7 ++ i.extractLsb 12 12 : BitVec 7) ++
      (i.extractLsb 11 9 ++ 0#2 : BitVec 5)).signExtend 64 =
      unsigned (i.setWidth 16) [(12, [5, 4, 3, 2, 7, 6])] :=
  unsigned_eq
    (.append (.append (.append .zeros (.slice (by decide))) (.slice (by decide)))
      (.append (.slice (by decide)) .zeros))
    (by decide) (by decide) (by decide)

theorem half_slice {lo len : Nat} (inside : lo + len ≤ 16) :
    (i.setWidth 16).extractLsb' lo len = i.extractLsb' lo len := by
  apply BitVec.eq_of_getLsbD_eq
  intro p small
  rw [BitVec.getLsbD_extractLsb', BitVec.getLsbD_extractLsb', Wired.getLsbD_half (by omega)]

theorem short_eq (field : BitVec 3) : 0b01#2 ++ field = 8 + field.setWidth 5 := by
  revert field
  decide

theorem short_two : 0b01#2 ++ i.extractLsb 4 2 = short (i.setWidth 16) 2 := by
  rw [short, half_slice i (by decide)]
  exact short_eq _

theorem short_seven : 0b01#2 ++ i.extractLsb 9 7 = short (i.setWidth 16) 7 := by
  rw [short, half_slice i (by decide)]
  exact short_eq _

end Immediates

/-- Legal instructions of quadrant 1 that are rejected: loads of `x0` and shifts by zero, all of
them hints. -/
def Rejected1 (i : BitVec 32) : Prop :=
  (i.extractLsb 15 13 = opcodeC1Li ∧ i.extractLsb 11 7 = 0) ∨
    (i.extractLsb 15 13 = opcodeC1LuiAddi16sp ∧ i.extractLsb 11 7 = 0 ∧ shamt6 i ≠ 0) ∨
    (i.extractLsb 15 13 = opcodeC1MiscAlu ∧ i.extractLsb 11 11 = 0 ∧ shamt6 i = 0)

/-- Those of quadrant 2: the hints of a shift and of an addition, and a load of `f0`. -/
def Rejected2 (i : BitVec 32) : Prop :=
  (i.extractLsb 15 13 = opcodeC2Slli ∧ (i.extractLsb 11 7 = 0 ∨ shamt6 i = 0)) ∨
    (i.extractLsb 15 13 = opcodeC2Fldsp ∧ i.extractLsb 11 7 = 0) ∨
    (i.extractLsb 15 13 = opcodeC2JalrMvAdd ∧ i.extractLsb 12 12 = 1 ∧ i.extractLsb 11 7 = 0 ∧
      i.extractLsb 6 2 ≠ 0)

section Agreement

/-- The decoder does what the architecture says: only what stands for nothing is illegal. -/
def Agrees (spec : Option Instr) (out : Decoded) : Prop :=
  (out.illegal = true ↔ spec = none) ∧ ∀ e, spec = some e → decode out.instr = some e

variable {e : Instr} {out : Decoded}

theorem agrees_some (legal : out.illegal = false) (expands : decode out.instr = some e) :
    Agrees (some e) out := by
  refine ⟨by simp [legal], ?_⟩
  intro other same
  rw [← same, expands]

theorem agrees_none (illegal : out.illegal = true) : Agrees none out := by
  refine ⟨by simp [illegal], ?_⟩
  intro other same
  exact absurd same.symm (Option.some_ne_none other)

/-- A check that is exactly the one of the architecture. -/
theorem agrees_unless {reserved : Prop} [Decidable reserved] {illegal : Bool} {word : BitVec 32}
    (same : illegal = true ↔ reserved) (expands : decode word = some e) :
    Agrees (if reserved then none else some e) ⟨word, illegal⟩ := by
  split
  · next yes => exact agrees_none (same.mpr yes)
  · next no => exact agrees_some (Bool.eq_false_iff.mpr fun bad => no (same.mp bad)) expands

theorem agrees_reserved {reserved : Prop} [Decidable reserved] {word other : BitVec 32}
    (expands : decode word = some e) :
    Agrees (if reserved then none else some e)
      (if ¬ reserved then { instr := word } else { instr := other, illegal := true }) := by
  by_cases yes : reserved
  · rw [if_pos yes, if_neg (not_not.mpr yes)]
    exact agrees_none rfl
  · rw [if_neg yes, if_pos yes]
    exact agrees_some rfl expands

/-- A check that the architecture does not have. -/
theorem agrees_iff {illegal : Bool} {word : BitVec 32} (expands : decode word = some e) :
    Agrees (some e) ⟨word, illegal⟩ ↔ illegal = false := by
  constructor
  · intro agrees
    rw [Bool.eq_false_iff]
    exact fun bad => Option.some_ne_none e (agrees.1.mp bad)
  · exact fun legal => agrees_some legal expands

theorem not_agrees (illegal : out.illegal = true) : ¬ Agrees (some e) out := by
  intro agrees
  exact Option.some_ne_none e (agrees.1.mp illegal)

variable (i : BitVec 32)

theorem funct3_cases (f3 : BitVec 3) :
    f3 = 0b000 ∨ f3 = 0b001 ∨ f3 = 0b010 ∨ f3 = 0b011 ∨ f3 = 0b100 ∨ f3 = 0b101 ∨ f3 = 0b110 ∨
      f3 = 0b111 := by
  revert f3
  decide

theorem c0_agrees : Agrees (expand0 (i.setWidth 16)) (decodeC0 i) := by
  have field : (i.setWidth 16).extractLsb' 13 3 = i.extractLsb 15 13 := half_slice i (by decide)
  have imm : (i.setWidth 16).extractLsb' 5 8 = i.extractLsb 12 5 := half_slice i (by decide)
  unfold expand0 decodeC0
  rw [field, imm, ← short_two, ← short_seven]
  rcases funct3_cases (i.extractLsb 15 13) with f3 | f3 | f3 | f3 | f3 | f3 | f3 | f3 <;>
    simp only [f3, opcodeC0Addi4spn, opcodeC0Fld, opcodeC0Lw, opcodeC0Ld, opcodeC0Fsd, opcodeC0Sw,
      opcodeC0Sd, BitVec.ofNat_eq_ofNat, BitVec.reduceEq, ↓reduceIte]
  · rw [← addi4spn_eq]
    exact agrees_unless beq_iff_eq (decode_opImm _ _ _ _)
  · rw [← doubleOffset_eq]
    exact agrees_some rfl (decode_loadFp _ _ _ _)
  · rw [← wordOffset_eq]
    exact agrees_some rfl (decode_load _ _ _ _)
  · rw [← doubleOffset_eq]
    exact agrees_some rfl (decode_load _ _ _ _)
  · exact agrees_none rfl
  · rw [← doubleOffset_store]
    exact agrees_some rfl (decode_storeFp _ _ _ _ _)
  · rw [← wordOffset_store]
    exact agrees_some rfl (decode_store _ _ _ _ _)
  · rw [← doubleOffset_store]
    exact agrees_some rfl (decode_store _ _ _ _ _)

theorem bit_cases (b : BitVec 1) : b = 0 ∨ b = 1 := by
  revert b
  decide

theorem pair_cases (b : BitVec 2) : b = 0b00 ∨ b = 0b01 ∨ b = 0b10 ∨ b = 0b11 := by
  revert b
  decide

theorem alu_agrees : Agrees (expandAlu (i.setWidth 16)) (decodeAlu i) := by
  have high : (i.setWidth 16).extractLsb' 12 1 = i.extractLsb 12 12 := half_slice i (by decide)
  have low : (i.setWidth 16).extractLsb' 5 2 = i.extractLsb 6 5 := half_slice i (by decide)
  unfold expandAlu decodeAlu
  rw [high, low, ← short_two, ← short_seven]
  rcases bit_cases (i.extractLsb 12 12) with first | first <;>
    rcases pair_cases (i.extractLsb 6 5) with second | second | second | second <;>
    rw [first, second]
  · exact agrees_some rfl (decode_op _ _ _ _ _)
  · exact agrees_some rfl (decode_op _ _ _ _ _)
  · exact agrees_some rfl (decode_op _ _ _ _ _)
  · exact agrees_some rfl (decode_op _ _ _ _ _)
  · exact agrees_some rfl (decode_op32 _ _ _ _ _)
  · exact agrees_some rfl (decode_op32 _ _ _ _ _)
  · exact agrees_none rfl
  · exact agrees_none rfl

theorem shamt6_zero : shamt6 i = 0 ↔ i.extractLsb 12 12 = 0 ∧ i.extractLsb 6 2 = 0 := by
  unfold shamt6
  constructor
  · intro zero
    have left := congrArg (BitVec.extractLsb' 5 1) zero
    have right := congrArg (BitVec.extractLsb' 0 5) zero
    exact ⟨BitVec.extractLsb'_append_eq_left.symm.trans left,
      BitVec.extractLsb'_append_eq_right.symm.trans right⟩
  · rintro ⟨left, right⟩
    rw [left, right]
    rfl

theorem kind_split : i.extractLsb 11 10 = i.extractLsb 11 11 ++ i.extractLsb 10 10 :=
  (BitVec.extractLsb'_append_extractLsb'_eq_extractLsb' rfl).symm

theorem misc_agrees_iff :
    Agrees (expandMisc (i.setWidth 16)) (decodeMiscAlu i) ↔
      ¬ (i.extractLsb 11 11 = 0 ∧ shamt6 i = 0) := by
  have kind : (i.setWidth 16).extractLsb' 10 2 = i.extractLsb 11 10 := half_slice i (by decide)
  unfold expandMisc decodeMiscAlu
  rw [kind, kind_split, ← short_seven, ← shamt6_eq, ← imm6_eq]
  rcases bit_cases (i.extractLsb 11 11) with high | high <;>
    rcases bit_cases (i.extractLsb 10 10) with low | low <;> rw [high, low]
  · refine (agrees_iff ((decode_opImm _ _ _ _).trans (srli_eq _ _ _))).trans ?_
    rw [beq_eq_false_iff_ne]
    simp
  · refine (agrees_iff ((decode_opImm _ _ _ _).trans (srai_eq _ _ _))).trans ?_
    rw [beq_eq_false_iff_ne]
    simp
  · refine iff_of_true (agrees_some rfl (decode_opImm _ _ _ _)) ?_
    simp
  · refine iff_of_true (alu_agrees i) ?_
    simp

/-- The two instructions that share the encoding of `c.lui`. -/
theorem upper_agrees_iff :
    Agrees (expandUpper (i.setWidth 16))
      { instr :=
          if i.extractLsb 11 7 = 0x02 then
            iFormat ((i.extractLsb 12 12).replicate 3 ++ i.extractLsb 4 3 ++ i.extractLsb 5 5 ++
              i.extractLsb 2 2 ++ i.extractLsb 6 6 ++ 0#4) 0x02 0b000 0x02 opcodeOpImm
          else
            uFormat ((i.extractLsb 12 12).replicate 15 ++ i.extractLsb 6 2) (i.extractLsb 11 7)
              opcodeLui
        illegal := i.extractLsb 11 7 == 0 || shamt6 i == 0 } ↔
      ¬ (i.extractLsb 11 7 = 0 ∧ shamt6 i ≠ 0) := by
  have rd : full (i.setWidth 16) 7 = i.extractLsb 11 7 := half_slice i (by decide)
  have high : (i.setWidth 16).extractLsb' 12 1 = i.extractLsb 12 12 := half_slice i (by decide)
  have low : (i.setWidth 16).extractLsb' 2 5 = i.extractLsb 6 2 := half_slice i (by decide)
  unfold expandUpper
  rw [rd, high, low]
  by_cases zero : shamt6 i = 0
  · rw [if_pos ((shamt6_zero i).mp zero)]
    refine iff_of_true (agrees_none ?_) fun bad => bad.2 zero
    exact Bool.or_eq_true_iff.mpr (.inr (beq_iff_eq.mpr zero))
  · rw [if_neg fun parts => zero ((shamt6_zero i).mpr parts), beq_eq_false_iff_ne.mpr zero,
      Bool.or_false]
    by_cases stack : i.extractLsb 11 7 = 0x02
    · rw [if_pos stack, if_pos (show i.extractLsb 11 7 = sp from stack), ← addi16sp_eq]
      refine (agrees_iff (decode_opImm _ _ _ _)).trans ?_
      rw [beq_eq_false_iff_ne]
      exact ⟨fun other bad => other bad.1, fun good none => good ⟨none, zero⟩⟩
    · rw [if_neg stack, if_neg (show ¬ i.extractLsb 11 7 = sp from stack), ← lui_eq]
      refine (agrees_iff (decode_lui _ _)).trans ?_
      rw [beq_eq_false_iff_ne]
      exact ⟨fun other bad => other bad.1, fun good none => good ⟨none, zero⟩⟩

/-- The two bits of the encoding that become bits of the instruction. -/
theorem funct3_high : i.extractLsb 15 15 = (i.extractLsb 15 13).extractLsb' 2 1 := by
  apply BitVec.eq_of_getLsbD_eq
  intro p small
  have first : p = 0 := by omega
  rw [first, BitVec.getLsbD_extractLsb, BitVec.getLsbD_extractLsb', BitVec.getLsbD_extractLsb]
  rfl

theorem funct3_low : i.extractLsb 13 13 = (i.extractLsb 15 13).extractLsb' 0 1 := by
  apply BitVec.eq_of_getLsbD_eq
  intro p small
  have first : p = 0 := by omega
  rw [first, BitVec.getLsbD_extractLsb, BitVec.getLsbD_extractLsb', BitVec.getLsbD_extractLsb]
  rfl

theorem c1_agrees_iff : Agrees (expand1 (i.setWidth 16)) (decodeC1 i) ↔ ¬ Rejected1 i := by
  have field : (i.setWidth 16).extractLsb' 13 3 = i.extractLsb 15 13 := half_slice i (by decide)
  have rd : full (i.setWidth 16) 7 = i.extractLsb 11 7 := half_slice i (by decide)
  unfold expand1 decodeC1 Rejected1
  rw [field, rd, ← imm6_eq, ← short_seven, ← jumpOffset_eq, ← branchOffset_eq]
  rcases funct3_cases (i.extractLsb 15 13) with f3 | f3 | f3 | f3 | f3 | f3 | f3 | f3 <;>
    simp only [f3, opcodeC1Addi, opcodeC1Addiw, opcodeC1Li, opcodeC1LuiAddi16sp, opcodeC1MiscAlu,
      opcodeC1J, BitVec.ofNat_eq_ofNat, BitVec.reduceEq, ↓reduceIte, false_and, true_and, false_or,
      or_false, not_false_eq_true, iff_true]
  · exact agrees_some rfl (decode_opImm _ _ _ _)
  · exact agrees_reserved (decode_opImm32 _ _ _ _)
  · exact (agrees_iff (decode_opImm _ _ _ _)).trans beq_eq_false_iff_ne
  · exact upper_agrees_iff i
  · exact misc_agrees_iff i
  · have link : 0#4 ++ ~~~i.extractLsb 15 15 = 0#5 := by
      rw [funct3_high, f3]
      rfl
    rw [link]
    exact agrees_some rfl (decode_jal _ _)
  · have equal : 0b00#2 ++ i.extractLsb 13 13 = 0#3 := by
      rw [funct3_low, f3]
      rfl
    rw [equal]
    exact agrees_some rfl (decode_branch _ _ _ _ _)
  · have unequal : 0b00#2 ++ i.extractLsb 13 13 = 1#3 := by
      rw [funct3_low, f3]
      rfl
    rw [unequal]
    exact agrees_some rfl (decode_branch _ _ _ _ _)

theorem move_agrees_iff :
    Agrees (expandMove (i.setWidth 16)) (decodeJalrMvAdd i) ↔
      ¬ (i.extractLsb 12 12 = 1 ∧ i.extractLsb 11 7 = 0 ∧ i.extractLsb 6 2 ≠ 0) := by
  have rd : full (i.setWidth 16) 7 = i.extractLsb 11 7 := half_slice i (by decide)
  have rs2 : full (i.setWidth 16) 2 = i.extractLsb 6 2 := half_slice i (by decide)
  have high : (i.setWidth 16).extractLsb' 12 1 = i.extractLsb 12 12 := half_slice i (by decide)
  unfold expandMove decodeJalrMvAdd
  simp only [rd, rs2, high]
  rcases bit_cases (i.extractLsb 12 12) with bit | bit
  · refine iff_of_true ?_ fun bad => absurd (bit.symm.trans bad.1) (by decide)
    rw [if_pos bit, if_pos bit]
    by_cases none : i.extractLsb 6 2 = 0
    · rw [if_pos none, if_pos none]
      exact agrees_unless beq_iff_eq (decode_jalr _ _ _)
    · rw [if_neg none, if_neg none]
      exact agrees_some rfl (decode_op _ _ _ _ _)
  · have set : ¬ i.extractLsb 12 12 = 0 := by
      rw [bit]
      decide
    rw [if_neg set, if_neg set]
    by_cases none : i.extractLsb 6 2 = 0
    · refine iff_of_true ?_ fun bad => bad.2.2 none
      rw [if_pos none]
      by_cases zero : i.extractLsb 11 7 = 0
      · rw [if_pos zero, if_pos zero]
        exact agrees_some (bne_eq_false_iff_eq.mpr none) decode_ebreak
      · rw [if_neg zero, if_neg zero, if_pos none]
        exact agrees_some rfl (decode_jalr _ _ _)
    · rw [if_neg none]
      by_cases zero : i.extractLsb 11 7 = 0
      · rw [if_pos zero]
        exact iff_of_false (not_agrees (bne_iff_ne.mpr none)) (not_not.mpr ⟨bit, zero, none⟩)
      · rw [if_neg zero, if_neg none]
        exact iff_of_true (agrees_some rfl (decode_op _ _ _ _ _)) fun bad => zero bad.2.1

theorem c2_agrees_iff : Agrees (expand2 (i.setWidth 16)) (decodeC2 i) ↔ ¬ Rejected2 i := by
  have field : (i.setWidth 16).extractLsb' 13 3 = i.extractLsb 15 13 := half_slice i (by decide)
  have rd : full (i.setWidth 16) 7 = i.extractLsb 11 7 := half_slice i (by decide)
  have rs2 : full (i.setWidth 16) 2 = i.extractLsb 6 2 := half_slice i (by decide)
  unfold expand2 decodeC2 Rejected2
  rw [field, rd, rs2, ← shamt6_eq, ← doubleStackLoad_eq, ← doubleStackStore_eq, ← lwsp_eq,
    ← swsp_eq]
  rcases funct3_cases (i.extractLsb 15 13) with f3 | f3 | f3 | f3 | f3 | f3 | f3 | f3 <;>
    simp only [f3, opcodeC2Slli, opcodeC2Fldsp, opcodeC2Lwsp, opcodeC2Ldsp, opcodeC2JalrMvAdd,
      opcodeC2Fsdsp, opcodeC2Swsp, BitVec.ofNat_eq_ofNat, BitVec.reduceEq, ↓reduceIte, false_and,
      true_and, false_or, or_false, not_false_eq_true, iff_true]
  · refine (agrees_iff ((decode_opImm _ _ _ _).trans (slli_eq _ _ _))).trans ?_
    rw [Bool.or_eq_false_iff, beq_eq_false_iff_ne, beq_eq_false_iff_ne, not_or]
  · exact (agrees_iff (decode_loadFp _ _ _ _)).trans beq_eq_false_iff_ne
  · exact agrees_unless beq_iff_eq (decode_load _ _ _ _)
  · exact agrees_unless beq_iff_eq (decode_load _ _ _ _)
  · exact move_agrees_iff i
  · exact agrees_some rfl (decode_storeFp _ _ _ _ _)
  · exact agrees_some rfl (decode_store _ _ _ _ _)
  · exact agrees_some rfl (decode_store _ _ _ _ _)

end Agreement

/-- The outputs for a compressed instruction are those of the architecture. -/
def Exact (i : BitVec 32) : Prop :=
  ((compressedDecoder i).illegal = true ↔ expand (i.setWidth 16) = none) ∧
    ∀ e, expand (i.setWidth 16) = some e → decode (compressedDecoder i).instr = some e

/-- A legal instruction that is reported as illegal: a hint (a load of `x0`, a shift of `x0` or by
zero, an addition to `x0`), or a load of `f0` from the stack. -/
def Rejected (i : BitVec 32) : Prop :=
  (i.extractLsb 1 0 = opcodeC1 ∧ Rejected1 i) ∨ (i.extractLsb 1 0 = opcodeC2 ∧ Rejected2 i)

theorem exact_iff_agrees {spec : Option Instr} {out : Decoded} {i : BitVec 32}
    (expands : expand (i.setWidth 16) = spec)
    (decodes : compressedDecoder i =
      { instr := if out.illegal then i else out.instr
        illegal := out.illegal
        isCompressed := true }) : Exact i ↔ Agrees spec out := by
  rw [Exact, Agrees, expands, decodes]
  refine and_congr_right fun same => forall_congr' fun e => ?_
  refine imp_congr_right fun found => ?_
  have legal : ¬ out.illegal = true := by
    rw [same, found]
    exact Option.some_ne_none e
  rw [if_neg legal]

section Quadrants

variable {i : BitVec 32}

theorem low_bits : (i.setWidth 16).extractLsb' 0 2 = i.extractLsb 1 0 := half_slice i (by decide)

theorem exact_quadrant0 (quadrant : i.extractLsb 1 0 = 0b00) : Exact i ↔ ¬ Rejected i := by
  have expands : expand (i.setWidth 16) = expand0 (i.setWidth 16) := by
    rw [expand, low_bits, quadrant]
    rfl
  refine iff_of_true ?_ ?_
  · refine (exact_iff_agrees expands ?_).mpr (c0_agrees i)
    rw [compressedDecoder, quadrant]
    rfl
  · rw [Rejected, quadrant]
    rintro (⟨one, -⟩ | ⟨two, -⟩)
    · exact absurd one (by decide)
    · exact absurd two (by decide)

theorem exact_quadrant1 (quadrant : i.extractLsb 1 0 = 0b01) : Exact i ↔ ¬ Rejected i := by
  have expands : expand (i.setWidth 16) = expand1 (i.setWidth 16) := by
    rw [expand, low_bits, quadrant]
    rfl
  have rejected : Rejected i ↔ Rejected1 i := by
    rw [Rejected, quadrant]
    constructor
    · rintro (⟨-, bad⟩ | ⟨two, -⟩)
      · exact bad
      · exact absurd two (by decide)
    · exact fun bad => .inl ⟨rfl, bad⟩
  rw [rejected, ← c1_agrees_iff]
  apply exact_iff_agrees expands
  rw [compressedDecoder, quadrant]
  rfl

theorem exact_quadrant2 (quadrant : i.extractLsb 1 0 = 0b10) : Exact i ↔ ¬ Rejected i := by
  have expands : expand (i.setWidth 16) = expand2 (i.setWidth 16) := by
    rw [expand, low_bits, quadrant]
    rfl
  have rejected : Rejected i ↔ Rejected2 i := by
    rw [Rejected, quadrant]
    constructor
    · rintro (⟨one, -⟩ | ⟨-, bad⟩)
      · exact absurd one (by decide)
      · exact bad
    · exact fun bad => .inr ⟨rfl, bad⟩
  rw [rejected, ← c2_agrees_iff]
  apply exact_iff_agrees expands
  rw [compressedDecoder, quadrant]
  rfl

end Quadrants

/-- Every compressed instruction is expanded as the architecture says, except the legal ones that
are rejected. -/
theorem exact_iff (i : BitVec 32) (compressed : i.extractLsb 1 0 ≠ 0b11) :
    Exact i ↔ ¬ Rejected i := by
  rcases pair_cases (i.extractLsb 1 0) with quadrant | quadrant | quadrant | quadrant
  · exact exact_quadrant0 quadrant
  · exact exact_quadrant1 quadrant
  · exact exact_quadrant2 quadrant
  · exact absurd quadrant compressed

/-- `c.addi4spn` of `x8`, with bits above the halfword. -/
theorem exact_iff_addi4spn : BitVec.extractLsb 1 0 0xffff0800#32 ≠ 0b11 ∧ Exact 0xffff0800 := by
  refine ⟨by decide, (exact_iff 0xffff0800 (by decide)).mpr ?_⟩
  rintro (⟨one, -⟩ | ⟨two, -⟩)
  · exact absurd one (by decide)
  · exact absurd two (by decide)

/-- `c.fldsp f0, 0`. -/
theorem fldsp_rejected :
    ¬ ∀ i : BitVec 32, i.extractLsb 1 0 ≠ 0b11 → Exact i := by
  intro all
  have same := (all 0x2002 (by decide)).1
  exact absurd (same.mp (by decide)) (by decide)

end Ariane.CompressedDecoder
