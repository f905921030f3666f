import Ariane.Rv64Isa

set_option autoImplicit false

/- What the instructions without memory accesses and traps do: the value of the destination and the
next program counter. Nothing here depends on a particular design. -/
namespace Rv64

def AluOp.result (a b : BitVec 64) : AluOp → BitVec 64
  | .add => a + b
  | .sub => a - b
  | .sll => a <<< (b.toNat % 64)
  | .slt => if a.slt b then 1 else 0
  | .sltu => if a.ult b then 1 else 0
  | .xor => a ^^^ b
  | .srl => a >>> (b.toNat % 64)
  | .sra => a.sshiftRight (b.toNat % 64)
  | .or => a ||| b
  | .and => a &&& b
  | .addw => (a.setWidth 32 + b.setWidth 32).signExtend 64
  | .subw => (a.setWidth 32 - b.setWidth 32).signExtend 64
  | .sllw => (a.setWidth 32 <<< (b.toNat % 32)).signExtend 64
  | .srlw => (a.setWidth 32 >>> (b.toNat % 32)).signExtend 64
  | .sraw => ((a.setWidth 32).sshiftRight (b.toNat % 32)).signExtend 64

def BranchOp.taken (a b : BitVec 64) : BranchOp → Bool
  | .beq => a == b
  | .bne => a != b
  | .blt => a.slt b
  | .bge => b.sle a
  | .bltu => a.ult b
  | .bgeu => b.ule a

section Divide

variable {w : Nat} (a b : BitVec w)

/-- A division by zero answers all ones, its remainder is the dividend. -/
def signedQuotient : BitVec w := if b = 0 then BitVec.allOnes w else a.sdiv b

def unsignedQuotient : BitVec w := if b = 0 then BitVec.allOnes w else a / b

def signedRemainder : BitVec w := if b = 0 then a else a.srem b

def unsignedRemainder : BitVec w := if b = 0 then a else a % b

end Divide

def MulOp.result (a b : BitVec 64) : MulOp → BitVec 64
  | .mul => a * b
  | .mulh => (a.signExtend 128 * b.signExtend 128).extractLsb' 64 64
  | .mulhsu => (a.signExtend 128 * b.setWidth 128).extractLsb' 64 64
  | .mulhu => (a.setWidth 128 * b.setWidth 128).extractLsb' 64 64
  | .mulw => (a.setWidth 32 * b.setWidth 32).signExtend 64
  | .div => signedQuotient a b
  | .divu => unsignedQuotient a b
  | .rem => signedRemainder a b
  | .remu => unsignedRemainder a b
  | .divw => (signedQuotient (a.setWidth 32) (b.setWidth 32)).signExtend 64
  | .divuw => (unsignedQuotient (a.setWidth 32) (b.setWidth 32)).signExtend 64
  | .remw => (signedRemainder (a.setWidth 32) (b.setWidth 32)).signExtend 64
  | .remuw => (unsignedRemainder (a.setWidth 32) (b.setWidth 32)).signExtend 64

/-- What an instruction leaves: the register it writes with the value, if any, and the next program
counter. -/
structure Effect where
  write : Option (Reg × BitVec 64)
  next : BitVec 64
  deriving DecidableEq

/-- The effect of an instruction of `size` bytes at `pc`, with the registers `x`. -/
def Instr.effect (x : Reg → BitVec 64) (pc size : BitVec 64) : Instr → Option Effect
  | .aluImm op rd rs1 imm => some ⟨some (rd, op.result (x rs1) imm), pc + size⟩
  | .alu op rd rs1 rs2 => some ⟨some (rd, op.result (x rs1) (x rs2)), pc + size⟩
  | .lui rd imm => some ⟨some (rd, imm), pc + size⟩
  | .auipc rd imm => some ⟨some (rd, pc + imm), pc + size⟩
  | .jal rd imm => some ⟨some (rd, pc + size), pc + imm⟩
  | .jalr rd rs1 imm => some ⟨some (rd, pc + size), (x rs1 + imm) &&& ~~~1⟩
  | .branch op rs1 rs2 imm =>
      some ⟨none, if op.taken (x rs1) (x rs2) then pc + imm else pc + size⟩
  | .load .. | .store .. | .ecall | .ebreak => none

def Isa.effect (x : Reg → BitVec 64) (pc size : BitVec 64) : Isa → Option Effect
  | .base i => i.effect x pc size
  | .mul op rd rs1 rs2 => some ⟨some (rd, op.result (x rs1) (x rs2)), pc + size⟩
  | _ => none

end Rv64
