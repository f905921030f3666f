import Ariane.Decoder

set_option autoImplicit false

/- What the ISA prescribes for the entry of an instruction, and what the decoder does with a word of
each opcode. -/
namespace Ariane.Decoder

open Rv64 (Priv Mode Isa Instr AluOp LoadOp StoreOp BranchOp MulOp AmoOp CsrOp opcode rd rs1 rs2
  funct3 funct7 immI immS immB immU immJ isa legal)

/-! The operations of the functional units. -/

def loadFuOp : LoadOp → FuOp
  | .lb => .lb
  | .lh => .lh
  | .lw => .lw
  | .ld => .ld
  | .lbu => .lbu
  | .lhu => .lhu
  | .lwu => .lwu
  | .flw => .flw
  | .fld => .fld

def storeFuOp : StoreOp → FuOp
  | .sb => .sb
  | .sh => .sh
  | .sw => .sw
  | .sd => .sd
  | .fsw => .fsw
  | .fsd => .fsd

def aluFuOp : AluOp → FuOp
  | .add => .add
  | .sub => .sub
  | .sll => .sll
  | .slt => .slts
  | .sltu => .sltu
  | .xor => .xorl
  | .srl => .srl
  | .sra => .sra
  | .or => .orl
  | .and => .andl
  | .addw => .addw
  | .subw => .subw
  | .sllw => .sllw
  | .srlw => .srlw
  | .sraw => .sraw

def branchFuOp : BranchOp → FuOp
  | .beq => .eq
  | .bne => .ne
  | .blt => .lts
  | .bge => .ges
  | .bltu => .ltu
  | .bgeu => .geu

def mulFuOp : MulOp → FuOp
  | .mul => .mul
  | .mulh => .mulh
  | .mulhsu => .mulhsu
  | .mulhu => .mulhu
  | .div => .div
  | .divu => .divu
  | .rem => .rem
  | .remu => .remu
  | .mulw => .mulw
  | .divw => .divw
  | .divuw => .divuw
  | .remw => .remw
  | .remuw => .remuw

def amoFuOp (double : Bool) : AmoOp → FuOp
  | .lr => if double then .amoLrd else .amoLrw
  | .sc => if double then .amoScd else .amoScw
  | .swap => if double then .amoSwapd else .amoSwapw
  | .add => if double then .amoAddd else .amoAddw
  | .xor => if double then .amoXord else .amoXorw
  | .and => if double then .amoAndd else .amoAndw
  | .or => if double then .amoOrd else .amoOrw
  | .min => if double then .amoMind else .amoMinw
  | .max => if double then .amoMaxd else .amoMaxw
  | .minu => if double then .amoMindu else .amoMinwu
  | .maxu => if double then .amoMaxdu else .amoMaxwu

/-- Setting or clearing no bits is a read. -/
def csrFuOp (rs1 : BitVec 5) : CsrOp → FuOp
  | .rw => .csrWrite
  | .rs => if rs1 = 0 then .csrRead else .csrSet
  | .rc => if rs1 = 0 then .csrRead else .csrClear

/-- The fields of an entry that an instruction decides. -/
structure Entry where
  fu : Fu
  op : FuOp
  rs1 : BitVec 5 := 0
  rs2 : BitVec 5 := 0
  rd : BitVec 5 := 0
  result : BitVec 64 := 0
  useImm : Bool := false
  useZimm : Bool := false
  usePc : Bool := false
  deriving DecidableEq

/-- The entry of an instruction. An immediate is that of the format of the word, extended with its
sign; a shift takes its amount from the low bits. `SFENCE.VMA` flushes everything, its second operand
is not read. -/
def entryOf (enableWfi : Bool) (word : BitVec 32) : Isa → Entry
  | .base (.load op rd rs1 _) =>
      { fu := .load, op := loadFuOp op, rs1, rd, result := (immI word).signExtend 64
        useImm := true }
  | .base (.store op rs1 rs2 _) =>
      { fu := .store, op := storeFuOp op, rs1, rs2, result := (immS word).signExtend 64
        useImm := true }
  | .base (.aluImm op rd rs1 _) =>
      { fu := .alu, op := aluFuOp op, rs1, rd, result := (immI word).signExtend 64
        useImm := true }
  | .base (.alu op rd rs1 rs2) => { fu := .alu, op := aluFuOp op, rs1, rs2, rd }
  | .base (.lui rd _) =>
      { fu := .alu, op := .add, rd, result := (immU word).signExtend 64, useImm := true }
  | .base (.auipc rd _) =>
      { fu := .alu, op := .add, rd, result := (immU word).signExtend 64, useImm := true
        usePc := true }
  | .base (.jal rd _) =>
      { fu := .ctrlFlow, op := .add, rd, result := (immJ word).signExtend 64, useImm := true }
  | .base (.jalr rd rs1 _) =>
      { fu := .ctrlFlow, op := .jalr, rs1, rd, result := (immI word).signExtend 64
        useImm := true }
  | .base (.branch op rs1 rs2 _) =>
      { fu := .ctrlFlow, op := branchFuOp op, rs1, rs2, result := (immB word).signExtend 64
        useImm := true }
  | .base .ecall | .base .ebreak => { fu := .csr, op := .add }
  | .mul op rd rs1 rs2 => { fu := .mult, op := mulFuOp op, rs1, rs2, rd }
  | .amo op double rd rs1 rs2 => { fu := .store, op := amoFuOp double op, rs1, rs2, rd }
  | .csr op zimm rd rs1 csr =>
      { fu := .csr, op := csrFuOp rs1 op, rs1, rd, result := csr.signExtend 64, useImm := true
        useZimm := zimm }
  | .fence => { fu := .csr, op := .fence }
  | .fenceI => { fu := .csr, op := .fenceI }
  | .sret => { fu := .csr, op := .sret }
  | .mret => { fu := .csr, op := .mret }
  | .dret => { fu := .csr, op := .dret }
  | .wfi => { fu := .csr, op := if enableWfi then .wfi else .add }
  | .sfenceVma rs1 _ => { fu := .csr, op := .sfenceVma, rs1 }

/-- Fences whose other fields are zero. -/
def plainFence (word : BitVec 32) : Bool :=
  opcode word != Rv64.opcodeMiscMem ||
    (rs1 word == 0 && rd word == 0 &&
      if funct3 word = 0 then word.extractLsb' 28 4 == 0 else immI word == 0)

/-- The privileged words for which the flag is lost: a `DRET` with operands in debug mode, an
`SFENCE.VMA` with a destination, and words that are no instruction. -/
def Lost (mode : Mode) (word : BitVec 32) : Prop :=
  opcode word = Rv64.opcodeSystem ∧ funct3 word = 0 ∧
    (immI word = 0x7b2 ∧ mode.debug = true ∧ (rs1 word ≠ 0 ∨ rd word ≠ 0) ∨
      funct7 word = 0b1001 ∧ rd word ≠ 0 ∧ mode.supervises mode.tvm = true ∨
      immI word ∉ [0x000, 0x001, 0x102, 0x302, 0x7b2, 0x105] ∧ funct7 word ≠ 0b1001 ∧
        rs1 word = 0 ∧ rd word = 0)

/-- The signals in an entry. -/
def Signals.entry (s : Signals) (p : Immediates) (word : BitVec 32) : Entry where
  fu := s.fu
  op := s.op
  rs1 := s.rs1
  rs2 := s.rs2
  rd := s.rd
  result := (signExtend p word s.immSelect).1
  useImm := (signExtend p word s.immSelect).2
  useZimm := s.useZimm
  usePc := s.usePc

/-- The signals of a word: the flag as the ISA has it, and for an instruction its entry. -/
structure Agrees (p : Immediates) (mode : Mode) (word : BitVec 32) (s : Signals) : Prop where
  illegal : s.illegalInstr = !(legal mode word && plainFence word)
  entry : ∀ i, isa word = some i → s.illegalInstr = false →
    s.entry p word = entryOf p.enableWfi word i ∧ s.ecall = decide (i = .base .ecall) ∧
      s.ebreak = decide (i = .base .ebreak)

section Opcodes

variable {p : Immediates} {mode : Mode} {word : BitVec 32}

/-- An instruction that is allowed everywhere. -/
theorem legal_of_isa {i : Isa} (instr : isa word = some i) (allowed : i.allowed mode = true) :
    legal mode word = true := by
  rw [legal, instr, Option.any_some, allowed]

theorem legal_of_none (instr : isa word = none) : legal mode word = false := by
  rw [legal, instr]
  rfl

theorem plainFence_of_opcode (other : opcode word ≠ Rv64.opcodeMiscMem) :
    plainFence word = true := by
  rw [plainFence, bne_iff_ne.mpr other, Bool.true_or]

/-- A word that is no instruction. -/
theorem agrees_none {s : Signals} (instr : isa word = none) (illegal : s.illegalInstr = true) :
    Agrees p mode word s := by
  refine ⟨?_, fun i some => ?_⟩
  · rw [legal_of_none instr, illegal]
    rfl
  · rw [instr] at some
    cases some

/-- An instruction without privileges. -/
theorem agrees_some {s : Signals} {i : Isa} (instr : isa word = some i)
    (allowed : i.allowed mode = true) (plain : plainFence word = true)
    (illegal : s.illegalInstr = false) (entry : s.entry p word = entryOf p.enableWfi word i)
    (ecall : s.ecall = decide (i = .base .ecall)) (ebreak : s.ebreak = decide (i = .base .ebreak)) :
    Agrees p mode word s := by
  refine ⟨?_, fun j some _ => ?_⟩
  · rw [legal_of_isa instr allowed, plain, illegal]
    rfl
  · rw [instr, Option.some.injEq] at some
    subst some
    exact ⟨entry, ecall, ebreak⟩

/-- The opcodes of the base instructions. -/
theorem isa_base (system : opcode word ≠ Rv64.opcodeSystem)
    (miscMem : opcode word ≠ Rv64.opcodeMiscMem) (amo : opcode word ≠ Rv64.opcodeAmo)
    (mul : funct7 word = 1 → opcode word ≠ Rv64.opcodeOp ∧ opcode word ≠ Rv64.opcodeOp32)
    (float : opcode word ≠ Rv64.opcodeLoadFp ∧ opcode word ≠ Rv64.opcodeStoreFp) :
    isa word = (Rv64.decode word).map .base := by
  rw [isa, if_neg system, if_neg miscMem, if_neg amo, if_neg fun both => (mul both.2).1 both.1,
    if_neg fun both => (mul both.2).2 both.1, if_neg (not_or.mpr float)]

end Opcodes

end Ariane.Decoder
