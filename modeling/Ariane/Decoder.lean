import Ariane.Pkg
import Ariane.Rv64Isa

set_option autoImplicit false

/- `decoder.sv`, with the floating-point extensions off: their opcodes and the vector prefix are
illegal. -/
namespace Ariane.Decoder

open Rv64 (Priv Mode opcode rd rs1 rs2 funct3 funct7 immI)

/-- The functions of `ariane_pkg` for the immediates, and `ENABLE_WFI`. -/
structure Immediates where
  iImm : BitVec 32 → BitVec 64
  sbImm : BitVec 32 → BitVec 64
  ujImm : BitVec 32 → BitVec 64
  enableWfi : Bool

/-- The immediates of the formats. -/
structure Immediates.Lawful (p : Immediates) : Prop where
  i : ∀ word, p.iImm word = (immI word).signExtend 64
  sb : ∀ word, p.sbImm word = (Rv64.immB word).signExtend 64
  uj : ∀ word, p.ujImm word = (Rv64.immJ word).signExtend 64

structure Input where
  pc : BitVec 64 := 0
  isCompressed : Bool := false
  compressedInstr : BitVec 16 := 0
  isIllegal : Bool := false
  instruction : BitVec 32
  branchPredict : BranchpredictSbe := {}
  ex : Exception := {}
  mode : Mode

/-- `imm_select`. -/
inductive ImmSelect where
  | noimm | iimm | simm | sbimm | uimm | jimm
  deriving DecidableEq

/-- What the process `decoder` assigns. -/
structure Signals where
  immSelect : ImmSelect := .noimm
  isControlFlowInstr : Bool := false
  illegalInstr : Bool := false
  fu : Fu := .none
  op : FuOp := .add
  rs1 : BitVec 5 := 0
  rs2 : BitVec 5 := 0
  rd : BitVec 5 := 0
  usePc : Bool := false
  useZimm : Bool := false
  ecall : Bool := false
  ebreak : Bool := false
  deriving DecidableEq

/-- The signals with the operation of a table; without one the instruction is illegal. -/
def Signals.select (s : Signals) (op : Option FuOp) : Signals :=
  match op with
  | some op => { s with op := op }
  | none => { s with illegalInstr := true }

/-! The tables. -/

def opTable (funct7 : BitVec 7) (funct3 : BitVec 3) : Option FuOp :=
  match funct7, funct3 with
  | 0b0000000, 0b000 => some .add
  | 0b0100000, 0b000 => some .sub
  | 0b0000000, 0b010 => some .slts
  | 0b0000000, 0b011 => some .sltu
  | 0b0000000, 0b100 => some .xorl
  | 0b0000000, 0b110 => some .orl
  | 0b0000000, 0b111 => some .andl
  | 0b0000000, 0b001 => some .sll
  | 0b0000000, 0b101 => some .srl
  | 0b0100000, 0b101 => some .sra
  | 0b0000001, 0b000 => some .mul
  | 0b0000001, 0b001 => some .mulh
  | 0b0000001, 0b010 => some .mulhsu
  | 0b0000001, 0b011 => some .mulhu
  | 0b0000001, 0b100 => some .div
  | 0b0000001, 0b101 => some .divu
  | 0b0000001, 0b110 => some .rem
  | 0b0000001, 0b111 => some .remu
  | _, _ => none

def op32Table (funct7 : BitVec 7) (funct3 : BitVec 3) : Option FuOp :=
  match funct7, funct3 with
  | 0b0000000, 0b000 => some .addw
  | 0b0100000, 0b000 => some .subw
  | 0b0000000, 0b001 => some .sllw
  | 0b0000000, 0b101 => some .srlw
  | 0b0100000, 0b101 => some .sraw
  | 0b0000001, 0b000 => some .mulw
  | 0b0000001, 0b100 => some .divw
  | 0b0000001, 0b101 => some .divuw
  | 0b0000001, 0b110 => some .remw
  | 0b0000001, 0b111 => some .remuw
  | _, _ => none

/-- The six upper bits select a shift. -/
def opImmTable (funct3 : BitVec 3) (upper : BitVec 6) : Signals → Signals := fun s =>
  match funct3 with
  | 0b000 => { s with op := .add }
  | 0b010 => { s with op := .slts }
  | 0b011 => { s with op := .sltu }
  | 0b100 => { s with op := .xorl }
  | 0b110 => { s with op := .orl }
  | 0b111 => { s with op := .andl }
  | 0b001 => { s with op := .sll, illegalInstr := s.illegalInstr || upper != 0 }
  | _ =>
      if upper = 0 then { s with op := .srl }
      else if upper = 0b010000 then { s with op := .sra }
      else { s with illegalInstr := true }

def opImm32Table (funct3 : BitVec 3) (funct7 : BitVec 7) : Signals → Signals := fun s =>
  match funct3 with
  | 0b000 => { s with op := .addw }
  | 0b001 => { s with op := .sllw, illegalInstr := s.illegalInstr || funct7 != 0 }
  | 0b101 =>
      if funct7 = 0 then { s with op := .srlw }
      else if funct7 = 0b0100000 then { s with op := .sraw }
      else { s with illegalInstr := true }
  | _ => { s with illegalInstr := true }

def storeTable (funct3 : BitVec 3) : Option FuOp :=
  match funct3 with
  | 0b000 => some .sb
  | 0b001 => some .sh
  | 0b010 => some .sw
  | 0b011 => some .sd
  | _ => none

def loadTable (funct3 : BitVec 3) : Option FuOp :=
  match funct3 with
  | 0b000 => some .lb
  | 0b001 => some .lh
  | 0b010 => some .lw
  | 0b100 => some .lbu
  | 0b101 => some .lhu
  | 0b110 => some .lwu
  | 0b011 => some .ld
  | _ => none

def branchTable (funct3 : BitVec 3) : Option FuOp :=
  match funct3 with
  | 0b000 => some .eq
  | 0b001 => some .ne
  | 0b100 => some .lts
  | 0b101 => some .ges
  | 0b110 => some .ltu
  | 0b111 => some .geu
  | _ => none

/-- The atomic operations on words. -/
def amoWTable (funct5 : BitVec 5) : Option FuOp :=
  match funct5 with
  | 0x00 => some .amoAddw
  | 0x01 => some .amoSwapw
  | 0x02 => some .amoLrw
  | 0x03 => some .amoScw
  | 0x04 => some .amoXorw
  | 0x08 => some .amoOrw
  | 0x0C => some .amoAndw
  | 0x10 => some .amoMinw
  | 0x14 => some .amoMaxw
  | 0x18 => some .amoMinwu
  | 0x1C => some .amoMaxwu
  | _ => none

/-- The atomic operations on double words. -/
def amoDTable (funct5 : BitVec 5) : Option FuOp :=
  match funct5 with
  | 0x00 => some .amoAddd
  | 0x01 => some .amoSwapd
  | 0x02 => some .amoLrd
  | 0x03 => some .amoScd
  | 0x04 => some .amoXord
  | 0x08 => some .amoOrd
  | 0x0C => some .amoAndd
  | 0x10 => some .amoMind
  | 0x14 => some .amoMaxd
  | 0x18 => some .amoMindu
  | 0x1C => some .amoMaxdu
  | _ => none

/-- The second operand of a load-reserved has to be zero. -/
def amoLr (funct5 : BitVec 5) (rs2 : BitVec 5) (s : Signals) : Signals :=
  if funct5 = 0x02 ∧ rs2 ≠ 0 then { s with illegalInstr := true } else s

section Opcodes

variable (p : Immediates) (mode : Mode) (word : BitVec 32)

/-- The privileged instructions. Some of them assign the flag anew. -/
def privileged (s : Signals) : Signals :=
  let s := if rs1 word ≠ 0 ∨ rd word ≠ 0 then { s with illegalInstr := true } else s
  match (immI word).toNat with
  | 0b0 => { s with ecall := true }
  | 0b1 => { s with ebreak := true }
  | 0b100000010 =>
      let s := { s with op := .sret }
      let s := if mode.priv = .u then { s with illegalInstr := true, op := .add } else s
      if mode.priv = .s ∧ mode.tsr = true then { s with illegalInstr := true, op := .add } else s
  | 0b1100000010 =>
      let s := { s with op := .mret }
      if mode.priv = .u ∨ mode.priv = .s then { s with illegalInstr := true } else s
  | 0b11110110010 => { s with op := .dret, illegalInstr := !mode.debug }
  | 0b100000101 =>
      let s := if p.enableWfi then { s with op := .wfi } else s
      let s :=
        if mode.priv = .s ∧ mode.tw = true then { s with illegalInstr := true, op := .add } else s
      if mode.priv = .u then { s with illegalInstr := true, op := .add } else s
  | _ =>
      if funct7 word = 0b1001 then
        let s :=
          { s with
            illegalInstr := !(mode.priv == .m || mode.priv == .s)
            op := .sfenceVma }
        if mode.priv = .s ∧ mode.tvm = true then { s with illegalInstr := true } else s
      else s

def system : Signals :=
  let s : Signals := { fu := .csr, rs1 := rs1 word, rd := rd word }
  let read (op : FuOp) : FuOp := if rs1 word = 0 then .csrRead else op
  match funct3 word with
  | 0b000 => privileged p mode word s
  | 0b001 => { s with immSelect := .iimm, op := .csrWrite }
  | 0b010 => { s with immSelect := .iimm, op := read .csrSet }
  | 0b011 => { s with immSelect := .iimm, op := read .csrClear }
  | 0b101 => { s with immSelect := .iimm, useZimm := true, op := .csrWrite }
  | 0b110 => { s with immSelect := .iimm, useZimm := true, op := read .csrSet }
  | 0b111 => { s with immSelect := .iimm, useZimm := true, op := read .csrClear }
  | _ => { s with illegalInstr := true }

def miscMem : Signals :=
  let s : Signals := { fu := .csr }
  let s : Signals :=
    match funct3 word with
    | 0b000 => { s with op := .fence }
    | 0b001 => { s with op := .fenceI, illegalInstr := immI word != 0 }
    | _ => { s with illegalInstr := true }
  if rs1 word ≠ 0 ∨ rd word ≠ 0 ∨ word.extractLsb' 28 4 ≠ 0 then { s with illegalInstr := true }
  else s

def opReg : Signals :=
  -- the prefix of the vectorial floating-point operations
  if word.extractLsb' 30 2 = 0b10 then { illegalInstr := true }
  else
    let s : Signals :=
      { fu := if funct7 word = 1 then .mult else .alu
        rs1 := rs1 word
        rs2 := rs2 word
        rd := rd word }
    s.select (opTable (funct7 word) (funct3 word))

def op32Reg : Signals :=
  let s : Signals :=
    { fu := if funct7 word = 1 then .mult else .alu
      rs1 := rs1 word
      rs2 := rs2 word
      rd := rd word }
  s.select (op32Table (funct7 word) (funct3 word))

def amo (rva : Bool) : Signals :=
  let s : Signals := { fu := .store, rs1 := rs1 word, rs2 := rs2 word, rd := rd word }
  let funct5 := word.extractLsb' 27 5
  if rva && funct3 word == 2 then amoLr funct5 (rs2 word) (s.select (amoWTable funct5))
  else if rva && funct3 word == 3 then amoLr funct5 (rs2 word) (s.select (amoDTable funct5))
  else { s with illegalInstr := true }

/-- A branch that is illegal is no control flow. -/
def branch : Signals :=
  let s : Signals :=
    { immSelect := .sbimm, fu := .ctrlFlow, rs1 := rs1 word, rs2 := rs2 word }
  let op := branchTable (funct3 word)
  { s.select op with isControlFlowInstr := op.isSome }

/-- The process `decoder`, by opcode. -/
def signals (rva : Bool) : Signals :=
  if opcode word = Rv64.opcodeSystem then system p mode word
  else if opcode word = Rv64.opcodeMiscMem then miscMem word
  else if opcode word = Rv64.opcodeOp then opReg word
  else if opcode word = Rv64.opcodeOp32 then op32Reg word
  else if opcode word = Rv64.opcodeOpImm then
    opImmTable (funct3 word) (word.extractLsb' 26 6)
      { fu := .alu, immSelect := .iimm, rs1 := rs1 word, rd := rd word }
  else if opcode word = Rv64.opcodeOpImm32 then
    opImm32Table (funct3 word) (funct7 word)
      { fu := .alu, immSelect := .iimm, rs1 := rs1 word, rd := rd word }
  else if opcode word = Rv64.opcodeStore then
    let s : Signals := { fu := .store, immSelect := .simm, rs1 := rs1 word, rs2 := rs2 word }
    s.select (storeTable (funct3 word))
  else if opcode word = Rv64.opcodeLoad then
    let s : Signals := { fu := .load, immSelect := .iimm, rs1 := rs1 word, rd := rd word }
    s.select (loadTable (funct3 word))
  else if opcode word = Rv64.opcodeAmo then amo word rva
  else if opcode word = Rv64.opcodeBranch then branch word
  else if opcode word = Rv64.opcodeJalr then
    { fu := .ctrlFlow, op := .jalr, rs1 := rs1 word, immSelect := .iimm, rd := rd word
      isControlFlowInstr := true, illegalInstr := funct3 word != 0 }
  else if opcode word = Rv64.opcodeJal then
    { fu := .ctrlFlow, immSelect := .jimm, rd := rd word, isControlFlowInstr := true }
  else if opcode word = Rv64.opcodeAuipc then
    { fu := .alu, immSelect := .uimm, usePc := true, rd := rd word }
  else if opcode word = Rv64.opcodeLui then
    { immSelect := .uimm, fu := .alu, rd := rd word }
  else { illegalInstr := true }

/-- The process `sign_extend`: `result` and `use_imm`. -/
def signExtend : ImmSelect → BitVec 64 × Bool
  | .iimm => (p.iImm word, true)
  | .simm => ((word.extractLsb' 25 7 ++ word.extractLsb' 7 5 : BitVec 12).signExtend 64, true)
  | .sbimm => (p.sbImm word, true)
  | .uimm => ((word.extractLsb' 12 20 ++ 0#12 : BitVec 32).signExtend 64, true)
  | .jimm => (p.ujImm word, true)
  | .noimm => (0, false)

end Opcodes

/-- The causes. -/
def illegalInstr : BitVec 64 := 2
def breakpoint : BitVec 64 := 3

def envCall : Priv → BitVec 64
  | .m => 11
  | .s => 9
  | .u => 8

/-- The process `exception_handling`. -/
def exceptionHandling (i : Input) (s : Signals) : Exception :=
  if i.ex.valid then i.ex
  else
    let ex : Exception :=
      { i.ex with
        tval := if i.isCompressed then i.compressedInstr.setWidth 64
          else i.instruction.setWidth 64 }
    if s.illegalInstr || i.isIllegal then { ex with valid := true, cause := illegalInstr }
    else if s.ecall then { ex with valid := true, cause := envCall i.mode.priv }
    else if s.ebreak then { ex with valid := true, cause := breakpoint }
    else ex

variable (pkg : Pkg) (p : Immediates) (i : Input)

/-- The signals; an exception from before leaves the defaults. -/
def decode : Signals := if i.ex.valid then {} else signals p i.mode i.instruction pkg.rva

/-- `instruction_o`. -/
def instruction : ScoreboardEntry :=
  let s := decode pkg p i
  let imm := signExtend p i.instruction s.immSelect
  let ex := exceptionHandling i s
  { pc := i.pc
    transId := 0
    fu := s.fu
    op := s.op
    rs1 := s.rs1.setWidth 6
    rs2 := s.rs2.setWidth 6
    rd := s.rd.setWidth 6
    result := imm.1
    valid := ex.valid
    useImm := imm.2
    useZimm := s.useZimm
    usePc := s.usePc
    ex := ex
    bp := i.branchPredict
    isCompressed := i.isCompressed }

/-- `is_control_flow_instr_o`. -/
def isControlFlowInstr : Bool := (decode pkg p i).isControlFlowInstr

end Ariane.Decoder
