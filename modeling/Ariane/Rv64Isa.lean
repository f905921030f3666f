import Ariane.Rv64

set_option autoImplicit false

/- The instructions of RV64IMA with Zicsr, Zifencei and the privileged ones, and where they are
allowed. Nothing here depends on a particular design. -/
namespace Rv64

inductive MulOp where
  | mul | mulh | mulhsu | mulhu | div | divu | rem | remu | mulw | divw | divuw | remw | remuw
  deriving DecidableEq

inductive AmoOp where
  | lr | sc | swap | add | xor | and | or | min | max | minu | maxu
  deriving DecidableEq

inductive CsrOp where
  | rw | rs | rc
  deriving DecidableEq

/-- An instruction; `base` are those of RV64I but the fences. A fence is one whatever its other fields
hold. -/
inductive Isa where
  | base (i : Instr)
  | mul (op : MulOp) (rd rs1 rs2 : Reg)
  | amo (op : AmoOp) (double : Bool) (rd rs1 rs2 : Reg)
  | csr (op : CsrOp) (zimm : Bool) (rd rs1 : Reg) (csr : BitVec 12)
  | fence
  | fenceI
  | sret
  | mret
  | dret
  | wfi
  | sfenceVma (rs1 rs2 : Reg)
  deriving DecidableEq

def mulOp (funct3 : BitVec 3) : MulOp :=
  match funct3 with
  | 0b000 => .mul
  | 0b001 => .mulh
  | 0b010 => .mulhsu
  | 0b011 => .mulhu
  | 0b100 => .div
  | 0b101 => .divu
  | 0b110 => .rem
  | _ => .remu

def mulOp32 (funct3 : BitVec 3) : Option MulOp :=
  match funct3 with
  | 0b000 => some .mulw
  | 0b100 => some .divw
  | 0b101 => some .divuw
  | 0b110 => some .remw
  | 0b111 => some .remuw
  | _ => none

/-- The five upper bits select an atomic operation; a load has no second source. -/
def amoOp (funct5 : BitVec 5) (rs2 : Reg) : Option AmoOp :=
  match funct5 with
  | 0b00010 => if rs2 = 0 then some .lr else none
  | 0b00011 => some .sc
  | 0b00001 => some .swap
  | 0b00000 => some .add
  | 0b00100 => some .xor
  | 0b01100 => some .and
  | 0b01000 => some .or
  | 0b10000 => some .min
  | 0b10100 => some .max
  | 0b11000 => some .minu
  | 0b11100 => some .maxu
  | _ => none

def csrOp (funct3 : BitVec 3) : Option (CsrOp × Bool) :=
  match funct3 with
  | 0b001 => some (.rw, false)
  | 0b010 => some (.rs, false)
  | 0b011 => some (.rc, false)
  | 0b101 => some (.rw, true)
  | 0b110 => some (.rs, true)
  | 0b111 => some (.rc, true)
  | _ => none

def opcodeMiscMem : BitVec 7 := 0b0001111
def opcodeAmo : BitVec 7 := 0b0101111

section Words

variable (word : BitVec 32)

/-- The instructions without operands are single words. -/
def privileged : Option Isa :=
  if word = 0x00000073 then some (.base .ecall)
  else if word = 0x00100073 then some (.base .ebreak)
  else if word = 0x10200073 then some .sret
  else if word = 0x30200073 then some .mret
  else if word = 0x7b200073 then some .dret
  else if word = 0x10500073 then some .wfi
  else if funct7 word = 0b0001001 ∧ rd word = 0 then some (.sfenceVma (rs1 word) (rs2 word))
  else none

/-- The instruction of a word, if the word is one. -/
def isa : Option Isa :=
  if opcode word = opcodeSystem then
    if funct3 word = 0 then privileged word
    else (csrOp (funct3 word)).map fun c => .csr c.1 c.2 (rd word) (rs1 word) (immI word)
  else if opcode word = opcodeMiscMem then
    if funct3 word = 0 then some .fence else if funct3 word = 1 then some .fenceI else none
  else if opcode word = opcodeAmo then
    if funct3 word = 2 ∨ funct3 word = 3 then
      (amoOp (word.extractLsb' 27 5) (rs2 word)).map fun op =>
        .amo op (funct3 word == 3) (rd word) (rs1 word) (rs2 word)
    else none
  else if opcode word = opcodeOp ∧ funct7 word = 1 then
    some (.mul (mulOp (funct3 word)) (rd word) (rs1 word) (rs2 word))
  else if opcode word = opcodeOp32 ∧ funct7 word = 1 then
    (mulOp32 (funct3 word)).map fun op => .mul op (rd word) (rs1 word) (rs2 word)
  else if opcode word = opcodeLoadFp ∨ opcode word = opcodeStoreFp then none
  else (decode word).map .base

end Words

/-- The privilege levels. -/
inductive Priv where
  | u | s | m
  deriving DecidableEq

/-- What decides whether an instruction is allowed: the level, debug mode, and the trap bits of
`mstatus`. -/
structure Mode where
  priv : Priv
  debug : Bool
  tvm : Bool
  tw : Bool
  tsr : Bool
  deriving DecidableEq

/-- Machine mode, or supervisor mode where it is not trapped. -/
def Mode.supervises (mode : Mode) (trap : Bool) : Bool :=
  mode.priv == .m || mode.priv == .s && !trap

def Isa.allowed (mode : Mode) : Isa → Bool
  | .sret => mode.supervises mode.tsr
  | .mret => mode.priv == .m
  | .dret => mode.debug
  | .wfi => mode.supervises mode.tw
  | .sfenceVma _ _ => mode.supervises mode.tvm
  | _ => true

/-- The word is a legal instruction in this mode. -/
def legal (mode : Mode) (word : BitVec 32) : Bool := (isa word).any (Isa.allowed mode)

end Rv64
