import Ariane.Rtl.Bits
import Mathlib.Data.BitVec

set_option autoImplicit false

/- The 32-bit instructions of RV64I that a compressed instruction can stand for, with the loads
and stores of RV64D. Nothing here depends on a particular design. -/
namespace Rv64

open Rtl (extract_append_low extract_append_high)

abbrev Reg := BitVec 5

inductive LoadOp where
  | lb | lh | lw | ld | lbu | lhu | lwu | flw | fld
  deriving DecidableEq

inductive StoreOp where
  | sb | sh | sw | sd | fsw | fsd
  deriving DecidableEq

inductive AluOp where
  | add | sub | sll | slt | sltu | xor | srl | sra | or | and
  | addw | subw | sllw | srlw | sraw
  deriving DecidableEq

inductive BranchOp where
  | beq | bne | blt | bge | bltu | bgeu
  deriving DecidableEq

/-- Operation, registers and immediate of an instruction. -/
inductive Instr where
  | load (op : LoadOp) (rd rs1 : Reg) (imm : BitVec 64)
  | store (op : StoreOp) (rs1 rs2 : Reg) (imm : BitVec 64)
  | aluImm (op : AluOp) (rd rs1 : Reg) (imm : BitVec 64)
  | alu (op : AluOp) (rd rs1 rs2 : Reg)
  | lui (rd : Reg) (imm : BitVec 64)
  | auipc (rd : Reg) (imm : BitVec 64)
  | jal (rd : Reg) (imm : BitVec 64)
  | jalr (rd rs1 : Reg) (imm : BitVec 64)
  | branch (op : BranchOp) (rs1 rs2 : Reg) (imm : BitVec 64)
  | ecall
  | ebreak
  deriving DecidableEq

/-! The fields of a word. -/

section Fields

variable (word : BitVec 32)

def opcode : BitVec 7 := word.extractLsb' 0 7
def rd : Reg := word.extractLsb' 7 5
def funct3 : BitVec 3 := word.extractLsb' 12 3
def rs1 : Reg := word.extractLsb' 15 5
def rs2 : Reg := word.extractLsb' 20 5
def funct7 : BitVec 7 := word.extractLsb' 25 7

def immI : BitVec 12 := word.extractLsb' 20 12
def immS : BitVec 12 := word.extractLsb' 25 7 ++ word.extractLsb' 7 5
def immU : BitVec 32 := word.extractLsb' 12 20 ++ 0#12

def immB : BitVec 13 :=
  word.extractLsb' 31 1 ++ word.extractLsb' 7 1 ++ word.extractLsb' 25 6 ++
    word.extractLsb' 8 4 ++ 0#1

def immJ : BitVec 21 :=
  word.extractLsb' 31 1 ++ word.extractLsb' 12 8 ++ word.extractLsb' 20 1 ++
    word.extractLsb' 21 10 ++ 0#1

end Fields

/-! The operations that an opcode selects with its function fields. -/

def loadOp (funct3 : BitVec 3) : Option LoadOp :=
  match funct3 with
  | 0b000 => some .lb
  | 0b001 => some .lh
  | 0b010 => some .lw
  | 0b011 => some .ld
  | 0b100 => some .lbu
  | 0b101 => some .lhu
  | 0b110 => some .lwu
  | _ => none

def loadFpOp (funct3 : BitVec 3) : Option LoadOp :=
  match funct3 with
  | 0b010 => some .flw
  | 0b011 => some .fld
  | _ => none

def storeOp (funct3 : BitVec 3) : Option StoreOp :=
  match funct3 with
  | 0b000 => some .sb
  | 0b001 => some .sh
  | 0b010 => some .sw
  | 0b011 => some .sd
  | _ => none

def storeFpOp (funct3 : BitVec 3) : Option StoreOp :=
  match funct3 with
  | 0b010 => some .fsw
  | 0b011 => some .fsd
  | _ => none

def branchOp (funct3 : BitVec 3) : Option BranchOp :=
  match funct3 with
  | 0b000 => some .beq
  | 0b001 => some .bne
  | 0b100 => some .blt
  | 0b101 => some .bge
  | 0b110 => some .bltu
  | 0b111 => some .bgeu
  | _ => none

def op (funct7 : BitVec 7) (funct3 : BitVec 3) : Option AluOp :=
  match funct7, funct3 with
  | 0b0000000, 0b000 => some .add
  | 0b0000000, 0b001 => some .sll
  | 0b0000000, 0b010 => some .slt
  | 0b0000000, 0b011 => some .sltu
  | 0b0000000, 0b100 => some .xor
  | 0b0000000, 0b101 => some .srl
  | 0b0000000, 0b110 => some .or
  | 0b0000000, 0b111 => some .and
  | 0b0100000, 0b000 => some .sub
  | 0b0100000, 0b101 => some .sra
  | _, _ => none

def op32 (funct7 : BitVec 7) (funct3 : BitVec 3) : Option AluOp :=
  match funct7, funct3 with
  | 0b0000000, 0b000 => some .addw
  | 0b0000000, 0b001 => some .sllw
  | 0b0000000, 0b101 => some .srlw
  | 0b0100000, 0b000 => some .subw
  | 0b0100000, 0b101 => some .sraw
  | _, _ => none

/-- A shift by an immediate has six bits of it, the others select the operation. -/
def shift (rd rs1 : Reg) (funct3 : BitVec 3) (imm : BitVec 12) : Option Instr :=
  let shamt := (imm.extractLsb' 0 6).setWidth 64
  match imm.extractLsb' 6 6, funct3 with
  | 0b000000, 0b001 => some (.aluImm .sll rd rs1 shamt)
  | 0b000000, 0b101 => some (.aluImm .srl rd rs1 shamt)
  | 0b010000, 0b101 => some (.aluImm .sra rd rs1 shamt)
  | _, _ => none

def opImm (rd rs1 : Reg) (funct3 : BitVec 3) (imm : BitVec 12) : Option Instr :=
  match funct3 with
  | 0b000 => some (.aluImm .add rd rs1 (imm.signExtend 64))
  | 0b010 => some (.aluImm .slt rd rs1 (imm.signExtend 64))
  | 0b011 => some (.aluImm .sltu rd rs1 (imm.signExtend 64))
  | 0b100 => some (.aluImm .xor rd rs1 (imm.signExtend 64))
  | 0b110 => some (.aluImm .or rd rs1 (imm.signExtend 64))
  | 0b111 => some (.aluImm .and rd rs1 (imm.signExtend 64))
  | _ => shift rd rs1 funct3 imm

def opImm32 (rd rs1 : Reg) (funct3 : BitVec 3) (imm : BitVec 12) : Option Instr :=
  let shamt := (imm.extractLsb' 0 5).setWidth 64
  match imm.extractLsb' 5 7, funct3 with
  | _, 0b000 => some (.aluImm .addw rd rs1 (imm.signExtend 64))
  | 0b0000000, 0b001 => some (.aluImm .sllw rd rs1 shamt)
  | 0b0000000, 0b101 => some (.aluImm .srlw rd rs1 shamt)
  | 0b0100000, 0b101 => some (.aluImm .sraw rd rs1 shamt)
  | _, _ => none

def opcodeLoad : BitVec 7 := 0b0000011
def opcodeLoadFp : BitVec 7 := 0b0000111
def opcodeOpImm : BitVec 7 := 0b0010011
def opcodeAuipc : BitVec 7 := 0b0010111
def opcodeOpImm32 : BitVec 7 := 0b0011011
def opcodeStore : BitVec 7 := 0b0100011
def opcodeStoreFp : BitVec 7 := 0b0100111
def opcodeOp : BitVec 7 := 0b0110011
def opcodeLui : BitVec 7 := 0b0110111
def opcodeOp32 : BitVec 7 := 0b0111011
def opcodeBranch : BitVec 7 := 0b1100011
def opcodeJalr : BitVec 7 := 0b1100111
def opcodeJal : BitVec 7 := 0b1101111
def opcodeSystem : BitVec 7 := 0b1110011

/-- The instruction of a word, if the word is one. -/
def decode (word : BitVec 32) : Option Instr :=
  if opcode word = opcodeLoad then
    (loadOp (funct3 word)).map fun op =>
      .load op (rd word) (rs1 word) ((immI word).signExtend 64)
  else if opcode word = opcodeLoadFp then
    (loadFpOp (funct3 word)).map fun op =>
      .load op (rd word) (rs1 word) ((immI word).signExtend 64)
  else if opcode word = opcodeStore then
    (storeOp (funct3 word)).map fun op =>
      .store op (rs1 word) (rs2 word) ((immS word).signExtend 64)
  else if opcode word = opcodeStoreFp then
    (storeFpOp (funct3 word)).map fun op =>
      .store op (rs1 word) (rs2 word) ((immS word).signExtend 64)
  else if opcode word = opcodeOpImm then opImm (rd word) (rs1 word) (funct3 word) (immI word)
  else if opcode word = opcodeOpImm32 then opImm32 (rd word) (rs1 word) (funct3 word) (immI word)
  else if opcode word = opcodeOp then
    (op (funct7 word) (funct3 word)).map fun op => .alu op (rd word) (rs1 word) (rs2 word)
  else if opcode word = opcodeOp32 then
    (op32 (funct7 word) (funct3 word)).map fun op => .alu op (rd word) (rs1 word) (rs2 word)
  else if opcode word = opcodeLui then some (.lui (rd word) ((immU word).signExtend 64))
  else if opcode word = opcodeAuipc then some (.auipc (rd word) ((immU word).signExtend 64))
  else if opcode word = opcodeJal then some (.jal (rd word) ((immJ word).signExtend 64))
  else if opcode word = opcodeJalr then
    if funct3 word = 0 then
      some (.jalr (rd word) (rs1 word) ((immI word).signExtend 64))
    else none
  else if opcode word = opcodeBranch then
    (branchOp (funct3 word)).map fun op =>
      .branch op (rs1 word) (rs2 word) ((immB word).signExtend 64)
  else if word = 0x00000073 then some .ecall
  else if word = 0x00100073 then some .ebreak
  else none

/-! The layouts of a word. -/

def rFormat (funct7 : BitVec 7) (rs2 rs1 : Reg) (funct3 : BitVec 3) (rd : Reg)
    (opcode : BitVec 7) : BitVec 32 :=
  funct7 ++ rs2 ++ rs1 ++ funct3 ++ rd ++ opcode

def iFormat (imm : BitVec 12) (rs1 : Reg) (funct3 : BitVec 3) (rd : Reg) (opcode : BitVec 7) :
    BitVec 32 :=
  imm ++ rs1 ++ funct3 ++ rd ++ opcode

def uFormat (imm : BitVec 20) (rd : Reg) (opcode : BitVec 7) : BitVec 32 := imm ++ rd ++ opcode

section Layout

variable (f7 opc : BitVec 7) (source2 source1 dest : Reg) (f3 : BitVec 3) (imm : BitVec 12)
  (upper : BitVec 20)

@[simp] theorem opcode_rFormat : opcode (rFormat f7 source2 source1 f3 dest opc) = opc := by
  simp (disch := decide) only [opcode, rFormat, extract_append_low,
    BitVec.extractLsb'_eq_self]

@[simp] theorem rd_rFormat : rd (rFormat f7 source2 source1 f3 dest opc) = dest := by
  simp (disch := decide) only [rd, rFormat, extract_append_low, extract_append_high, Nat.reduceSub,
    BitVec.extractLsb'_eq_self]

@[simp] theorem funct3_rFormat : funct3 (rFormat f7 source2 source1 f3 dest opc) = f3 := by
  simp (disch := decide) only [funct3, rFormat, extract_append_low, extract_append_high, Nat.reduceSub,
    BitVec.extractLsb'_eq_self]

@[simp] theorem rs1_rFormat : rs1 (rFormat f7 source2 source1 f3 dest opc) = source1 := by
  simp (disch := decide) only [rs1, rFormat, extract_append_low, extract_append_high, Nat.reduceSub,
    BitVec.extractLsb'_eq_self]

@[simp] theorem rs2_rFormat : rs2 (rFormat f7 source2 source1 f3 dest opc) = source2 := by
  simp (disch := decide) only [rs2, rFormat, extract_append_low, extract_append_high, Nat.reduceSub,
    BitVec.extractLsb'_eq_self]

@[simp] theorem funct7_rFormat : funct7 (rFormat f7 source2 source1 f3 dest opc) = f7 := by
  simp (disch := decide) only [funct7, rFormat, extract_append_high, Nat.reduceSub,
    BitVec.extractLsb'_eq_self]

@[simp] theorem immS_rFormat : immS (rFormat f7 source2 source1 f3 dest opc) = f7 ++ dest := by
  simp (disch := decide) only [immS, rFormat, extract_append_low, extract_append_high, Nat.reduceSub,
    BitVec.extractLsb'_eq_self]

@[simp] theorem opcode_iFormat : opcode (iFormat imm source1 f3 dest opc) = opc := by
  simp (disch := decide) only [opcode, iFormat, extract_append_low,
    BitVec.extractLsb'_eq_self]

@[simp] theorem rd_iFormat : rd (iFormat imm source1 f3 dest opc) = dest := by
  simp (disch := decide) only [rd, iFormat, extract_append_low, extract_append_high, Nat.reduceSub,
    BitVec.extractLsb'_eq_self]

@[simp] theorem funct3_iFormat : funct3 (iFormat imm source1 f3 dest opc) = f3 := by
  simp (disch := decide) only [funct3, iFormat, extract_append_low, extract_append_high, Nat.reduceSub,
    BitVec.extractLsb'_eq_self]

@[simp] theorem rs1_iFormat : rs1 (iFormat imm source1 f3 dest opc) = source1 := by
  simp (disch := decide) only [rs1, iFormat, extract_append_low, extract_append_high, Nat.reduceSub,
    BitVec.extractLsb'_eq_self]

@[simp] theorem immI_iFormat : immI (iFormat imm source1 f3 dest opc) = imm := by
  simp (disch := decide) only [immI, iFormat, extract_append_high, Nat.reduceSub,
    BitVec.extractLsb'_eq_self]

@[simp] theorem opcode_uFormat : opcode (uFormat upper dest opc) = opc := by
  simp (disch := decide) only [opcode, uFormat, extract_append_low,
    BitVec.extractLsb'_eq_self]

@[simp] theorem rd_uFormat : rd (uFormat upper dest opc) = dest := by
  simp (disch := decide) only [rd, uFormat, extract_append_low, extract_append_high, Nat.reduceSub,
    BitVec.extractLsb'_eq_self]

@[simp] theorem immU_uFormat : immU (uFormat upper dest opc) = upper ++ 0#12 := by
  simp (disch := decide) only [immU, uFormat, extract_append_high, Nat.reduceSub,
    BitVec.extractLsb'_eq_self]

/-- The offset of a branch. -/
@[simp] theorem immB_rFormat :
    immB (rFormat f7 source2 source1 f3 dest opc) =
      f7.extractLsb' 6 1 ++ dest.extractLsb' 0 1 ++ f7.extractLsb' 0 6 ++ dest.extractLsb' 1 4 ++
        0#1 := by
  simp (disch := decide) only [immB, rFormat, extract_append_low, extract_append_high,
    Nat.reduceSub]

/-- The offset of a jump. -/
@[simp] theorem immJ_uFormat :
    immJ (uFormat upper dest opc) =
      upper.extractLsb' 19 1 ++ upper.extractLsb' 0 8 ++ upper.extractLsb' 8 1 ++
        upper.extractLsb' 9 10 ++ 0#1 := by
  simp (disch := decide) only [immJ, uFormat, extract_append_high, Nat.reduceSub]

theorem decode_load :
    decode (iFormat imm source1 f3 dest opcodeLoad) =
      (loadOp f3).map fun op => .load op dest source1 (imm.signExtend 64) := by
  simp [decode, opcodeLoad]

theorem decode_loadFp :
    decode (iFormat imm source1 f3 dest opcodeLoadFp) =
      (loadFpOp f3).map fun op => .load op dest source1 (imm.signExtend 64) := by
  simp [decode, opcodeLoadFp, opcodeLoad]

theorem decode_store :
    decode (rFormat f7 source2 source1 f3 dest opcodeStore) =
      (storeOp f3).map fun op => .store op source1 source2 ((f7 ++ dest).signExtend 64) := by
  simp [decode, opcodeStore, opcodeLoadFp, opcodeLoad]

theorem decode_storeFp :
    decode (rFormat f7 source2 source1 f3 dest opcodeStoreFp) =
      (storeFpOp f3).map fun op => .store op source1 source2 ((f7 ++ dest).signExtend 64) := by
  simp [decode, opcodeLoad, opcodeLoadFp, opcodeStore, opcodeStoreFp]

theorem decode_opImm :
    decode (iFormat imm source1 f3 dest opcodeOpImm) = opImm dest source1 f3 imm := by
  simp [decode, opcodeLoad, opcodeLoadFp, opcodeStore, opcodeStoreFp, opcodeOpImm]

/-- The operation and the amount of a shift. -/
theorem shift_high (high low : BitVec 6) : (high ++ low : BitVec 12).extractLsb' 6 6 = high :=
  BitVec.extractLsb'_append_eq_left

theorem shift_low (high low : BitVec 6) : (high ++ low : BitVec 12).extractLsb' 0 6 = low :=
  BitVec.extractLsb'_append_eq_right

theorem slli_eq (amount : BitVec 6) :
    opImm dest source1 0b001 (0#6 ++ amount) =
      some (.aluImm .sll dest source1 (amount.setWidth 64)) := by
  simp [opImm, shift, shift_high, shift_low]

theorem srli_eq (amount : BitVec 6) :
    opImm dest source1 0b101 (0#6 ++ amount) =
      some (.aluImm .srl dest source1 (amount.setWidth 64)) := by
  simp [opImm, shift, shift_high, shift_low]

theorem srai_eq (amount : BitVec 6) :
    opImm dest source1 0b101 (0b010000#6 ++ amount) =
      some (.aluImm .sra dest source1 (amount.setWidth 64)) := by
  simp [opImm, shift, shift_high, shift_low]

theorem decode_opImm32 :
    decode (iFormat imm source1 f3 dest opcodeOpImm32) = opImm32 dest source1 f3 imm := by
  simp [decode, opcodeLoad, opcodeLoadFp, opcodeStore, opcodeStoreFp, opcodeOpImm, opcodeOpImm32]

theorem decode_op :
    decode (rFormat f7 source2 source1 f3 dest opcodeOp) =
      (op f7 f3).map fun op => .alu op dest source1 source2 := by
  simp [decode, opcodeLoad, opcodeLoadFp, opcodeStore, opcodeStoreFp, opcodeOpImm, opcodeOpImm32,
    opcodeOp]

theorem decode_op32 :
    decode (rFormat f7 source2 source1 f3 dest opcodeOp32) =
      (op32 f7 f3).map fun op => .alu op dest source1 source2 := by
  simp [decode, opcodeLoad, opcodeLoadFp, opcodeStore, opcodeStoreFp, opcodeOpImm, opcodeOpImm32,
    opcodeOp, opcodeOp32]

theorem decode_lui :
    decode (uFormat upper dest opcodeLui) =
      some (.lui dest ((upper ++ 0#12).signExtend 64)) := by
  simp [decode, opcodeLoad, opcodeLoadFp, opcodeStore, opcodeStoreFp, opcodeOpImm, opcodeOpImm32,
    opcodeOp, opcodeOp32, opcodeLui]

theorem decode_jal :
    decode (uFormat upper dest opcodeJal) =
      some (.jal dest ((upper.extractLsb' 19 1 ++ upper.extractLsb' 0 8 ++ upper.extractLsb' 8 1 ++
        upper.extractLsb' 9 10 ++ 0#1).signExtend 64)) := by
  simp [decode, opcodeLoad, opcodeLoadFp, opcodeStore, opcodeStoreFp, opcodeOpImm, opcodeOpImm32,
    opcodeOp, opcodeOp32, opcodeLui, opcodeAuipc, opcodeJal]

theorem decode_jalr :
    decode (iFormat imm source1 0 dest opcodeJalr) =
      some (.jalr dest source1 (imm.signExtend 64)) := by
  simp [decode, opcodeLoad, opcodeLoadFp, opcodeStore, opcodeStoreFp, opcodeOpImm, opcodeOpImm32,
    opcodeOp, opcodeOp32, opcodeLui, opcodeAuipc, opcodeJal, opcodeJalr]

theorem decode_branch :
    decode (rFormat f7 source2 source1 f3 dest opcodeBranch) =
      (branchOp f3).map fun op => .branch op source1 source2
        ((f7.extractLsb' 6 1 ++ dest.extractLsb' 0 1 ++ f7.extractLsb' 0 6 ++
          dest.extractLsb' 1 4 ++ 0#1).signExtend 64) := by
  simp [decode, opcodeLoad, opcodeLoadFp, opcodeStore, opcodeStoreFp, opcodeOpImm, opcodeOpImm32,
    opcodeOp, opcodeOp32, opcodeLui, opcodeAuipc, opcodeJal, opcodeJalr, opcodeBranch]

theorem decode_ebreak : decode 0x00100073 = some .ebreak := by decide

end Layout

end Rv64
