import Ariane.RvcExpand

set_option autoImplicit false

/- `compressed_decoder.sv`: the 32-bit instruction of a compressed one. The opcodes are those of
`riscv_pkg`. -/
namespace Ariane.CompressedDecoder

open Rv64 (rFormat iFormat uFormat opcodeLoad opcodeLoadFp opcodeStore opcodeStoreFp opcodeOpImm
  opcodeOpImm32 opcodeOp opcodeOp32 opcodeLui opcodeJal opcodeJalr opcodeBranch)

def opcodeC0 : BitVec 2 := 0b00
def opcodeC1 : BitVec 2 := 0b01
def opcodeC2 : BitVec 2 := 0b10

def opcodeC0Addi4spn : BitVec 3 := 0b000
def opcodeC0Fld : BitVec 3 := 0b001
def opcodeC0Lw : BitVec 3 := 0b010
def opcodeC0Ld : BitVec 3 := 0b011
def opcodeC0Fsd : BitVec 3 := 0b101
def opcodeC0Sw : BitVec 3 := 0b110
def opcodeC0Sd : BitVec 3 := 0b111

def opcodeC1Addi : BitVec 3 := 0b000
def opcodeC1Addiw : BitVec 3 := 0b001
def opcodeC1Li : BitVec 3 := 0b010
def opcodeC1LuiAddi16sp : BitVec 3 := 0b011
def opcodeC1MiscAlu : BitVec 3 := 0b100
def opcodeC1J : BitVec 3 := 0b101

def opcodeC2Slli : BitVec 3 := 0b000
def opcodeC2Fldsp : BitVec 3 := 0b001
def opcodeC2Lwsp : BitVec 3 := 0b010
def opcodeC2Ldsp : BitVec 3 := 0b011
def opcodeC2JalrMvAdd : BitVec 3 := 0b100
def opcodeC2Fsdsp : BitVec 3 := 0b101
def opcodeC2Swsp : BitVec 3 := 0b110

/-- `instr_o` and `illegal_instr_o`. -/
structure Decoded where
  instr : BitVec 32
  illegal : Bool := false
  deriving DecidableEq

/-- `instr_o`, `illegal_instr_o` and `is_compressed_o`. -/
structure Output where
  instr : BitVec 32
  illegal : Bool
  isCompressed : Bool
  deriving DecidableEq

section Quadrants

variable (i : BitVec 32)

/-- The immediate of the six bits 12 and 6 to 2, sign-extended. -/
def imm6 : BitVec 12 := (i.extractLsb 12 12).replicate 6 ++ i.extractLsb 12 12 ++ i.extractLsb 6 2

/-- `{instr_i[12], instr_i[6:2]}`. -/
def shamt6 : BitVec 6 := i.extractLsb 12 12 ++ i.extractLsb 6 2

def decodeC0 : Decoded :=
  let rd := 0b01#2 ++ i.extractLsb 4 2
  let rs1 := 0b01#2 ++ i.extractLsb 9 7
  let funct3 := i.extractLsb 15 13
  if funct3 = opcodeC0Addi4spn then
    { instr :=
        iFormat (0#2 ++ i.extractLsb 10 7 ++ i.extractLsb 12 11 ++ i.extractLsb 5 5 ++
          i.extractLsb 6 6 ++ 0#2) 0x02 0b000 rd opcodeOpImm
      illegal := i.extractLsb 12 5 == 0 }
  else if funct3 = opcodeC0Fld then
    { instr :=
        iFormat (0#4 ++ i.extractLsb 6 5 ++ i.extractLsb 12 10 ++ 0#3) rs1 0b011 rd
          opcodeLoadFp }
  else if funct3 = opcodeC0Lw then
    { instr :=
        iFormat (0#5 ++ i.extractLsb 5 5 ++ i.extractLsb 12 10 ++ i.extractLsb 6 6 ++ 0#2) rs1
          0b010 rd opcodeLoad }
  else if funct3 = opcodeC0Ld then
    { instr :=
        iFormat (0#4 ++ i.extractLsb 6 5 ++ i.extractLsb 12 10 ++ 0#3) rs1 0b011 rd opcodeLoad }
  else if funct3 = opcodeC0Fsd then
    { instr :=
        rFormat (0#4 ++ i.extractLsb 6 5 ++ i.extractLsb 12 12) rd rs1 0b011
          (i.extractLsb 11 10 ++ 0#3) opcodeStoreFp }
  else if funct3 = opcodeC0Sw then
    { instr :=
        rFormat (0#5 ++ i.extractLsb 5 5 ++ i.extractLsb 12 12) rd rs1 0b010
          (i.extractLsb 11 10 ++ i.extractLsb 6 6 ++ 0#2) opcodeStore }
  else if funct3 = opcodeC0Sd then
    { instr :=
        rFormat (0#4 ++ i.extractLsb 6 5 ++ i.extractLsb 12 12) rd rs1 0b011
          (i.extractLsb 11 10 ++ 0#3) opcodeStore }
  else { instr := i, illegal := true }

/-- `c.sub` to `c.addw`. -/
def decodeAlu : Decoded :=
  let rd := 0b01#2 ++ i.extractLsb 9 7
  let rs2 := 0b01#2 ++ i.extractLsb 4 2
  match i.extractLsb 12 12 ++ i.extractLsb 6 5 with
  | 0b000 => { instr := rFormat 0b0100000 rs2 rd 0b000 rd opcodeOp }
  | 0b001 => { instr := rFormat 0 rs2 rd 0b100 rd opcodeOp }
  | 0b010 => { instr := rFormat 0 rs2 rd 0b110 rd opcodeOp }
  | 0b011 => { instr := rFormat 0 rs2 rd 0b111 rd opcodeOp }
  | 0b100 => { instr := rFormat 0b0100000 rs2 rd 0b000 rd opcodeOp32 }
  | 0b101 => { instr := rFormat 0 rs2 rd 0b000 rd opcodeOp32 }
  | _ => { instr := i, illegal := true }

def decodeMiscAlu : Decoded :=
  let rd := 0b01#2 ++ i.extractLsb 9 7
  match i.extractLsb 11 10 with
  | 0b10 => { instr := iFormat (imm6 i) rd 0b111 rd opcodeOpImm }
  | 0b11 => decodeAlu i
  | _ =>
    { instr :=
        iFormat (0#1 ++ i.extractLsb 10 10 ++ 0#4 ++ shamt6 i) rd 0b101 rd opcodeOpImm
      illegal := shamt6 i == 0 }

def decodeC1 : Decoded :=
  let rd := i.extractLsb 11 7
  let funct3 := i.extractLsb 15 13
  if funct3 = opcodeC1Addi then { instr := iFormat (imm6 i) rd 0 rd opcodeOpImm }
  else if funct3 = opcodeC1Addiw then
    if rd ≠ 0 then { instr := iFormat (imm6 i) rd 0 rd opcodeOpImm32 }
    else { instr := i, illegal := true }
  else if funct3 = opcodeC1Li then
    { instr := iFormat (imm6 i) 0 0 rd opcodeOpImm
      illegal := rd == 0 }
  else if funct3 = opcodeC1LuiAddi16sp then
    { instr :=
        if rd = 0x02 then
          iFormat ((i.extractLsb 12 12).replicate 3 ++ i.extractLsb 4 3 ++ i.extractLsb 5 5 ++
            i.extractLsb 2 2 ++ i.extractLsb 6 6 ++ 0#4) 0x02 0b000 0x02 opcodeOpImm
        else uFormat ((i.extractLsb 12 12).replicate 15 ++ i.extractLsb 6 2) rd opcodeLui
      illegal := rd == 0 || shamt6 i == 0 }
  else if funct3 = opcodeC1MiscAlu then decodeMiscAlu i
  else if funct3 = opcodeC1J then
    { instr :=
        uFormat (i.extractLsb 12 12 ++ i.extractLsb 8 8 ++ i.extractLsb 10 9 ++
          i.extractLsb 6 6 ++ i.extractLsb 7 7 ++ i.extractLsb 2 2 ++ i.extractLsb 11 11 ++
          i.extractLsb 5 3 ++ (i.extractLsb 12 12).replicate 9) (0#4 ++ ~~~i.extractLsb 15 15)
          opcodeJal }
  else
    { instr :=
        rFormat ((i.extractLsb 12 12).replicate 4 ++ i.extractLsb 6 5 ++ i.extractLsb 2 2) 0
          (0b01#2 ++ i.extractLsb 9 7) (0b00#2 ++ i.extractLsb 13 13)
          (i.extractLsb 11 10 ++ i.extractLsb 4 3 ++ i.extractLsb 12 12) opcodeBranch }

/-- `c.jr` to `c.add`. -/
def decodeJalrMvAdd : Decoded :=
  let rd := i.extractLsb 11 7
  let rs2 := i.extractLsb 6 2
  if i.extractLsb 12 12 = 0 then
    if rs2 = 0 then
      { instr := iFormat 0 rd 0 0 opcodeJalr
        illegal := rd == 0 }
    else { instr := rFormat 0 rs2 0 0 rd opcodeOp }
  else if rd = 0 then
    { instr := 0x00100073
      illegal := rs2 != 0 }
  else if rs2 = 0 then { instr := iFormat 0 rd 0 1 opcodeJalr }
  else { instr := rFormat 0 rs2 rd 0 rd opcodeOp }

def decodeC2 : Decoded :=
  let rd := i.extractLsb 11 7
  let rs2 := i.extractLsb 6 2
  let funct3 := i.extractLsb 15 13
  let storeImm := i.extractLsb 11 10 ++ 0#3
  if funct3 = opcodeC2Slli then
    { instr := iFormat (0#6 ++ shamt6 i) rd 0b001 rd opcodeOpImm
      illegal := rd == 0 || shamt6 i == 0 }
  else if funct3 = opcodeC2Fldsp then
    { instr :=
        iFormat (0#3 ++ i.extractLsb 4 2 ++ i.extractLsb 12 12 ++ i.extractLsb 6 5 ++ 0#3) 0x02
          0b011 rd opcodeLoadFp
      illegal := rd == 0 }
  else if funct3 = opcodeC2Lwsp then
    { instr :=
        iFormat (0#4 ++ i.extractLsb 3 2 ++ i.extractLsb 12 12 ++ i.extractLsb 6 4 ++ 0#2) 0x02
          0b010 rd opcodeLoad
      illegal := rd == 0 }
  else if funct3 = opcodeC2Ldsp then
    { instr :=
        iFormat (0#3 ++ i.extractLsb 4 2 ++ i.extractLsb 12 12 ++ i.extractLsb 6 5 ++ 0#3) 0x02
          0b011 rd opcodeLoad
      illegal := rd == 0 }
  else if funct3 = opcodeC2JalrMvAdd then decodeJalrMvAdd i
  else if funct3 = opcodeC2Fsdsp then
    { instr :=
        rFormat (0#3 ++ i.extractLsb 9 7 ++ i.extractLsb 12 12) rs2 0x02 0b011 storeImm
          opcodeStoreFp }
  else if funct3 = opcodeC2Swsp then
    { instr :=
        rFormat (0#4 ++ i.extractLsb 8 7 ++ i.extractLsb 12 12) rs2 0x02 0b010
          (i.extractLsb 11 9 ++ 0#2) opcodeStore }
  else
    { instr :=
        rFormat (0#3 ++ i.extractLsb 9 7 ++ i.extractLsb 12 12) rs2 0x02 0b011 storeImm
          opcodeStore }

end Quadrants

/-- `compressed_decoder`; an illegal instruction is passed on as it is. -/
def compressedDecoder (i : BitVec 32) : Output :=
  let quadrant := i.extractLsb 1 0
  if quadrant = opcodeC0 ∨ quadrant = opcodeC1 ∨ quadrant = opcodeC2 then
    let decoded :=
      if quadrant = opcodeC0 then decodeC0 i
      else if quadrant = opcodeC1 then decodeC1 i
      else decodeC2 i
    { instr := if decoded.illegal then i else decoded.instr
      illegal := decoded.illegal
      isCompressed := true }
  else { instr := i, illegal := false, isCompressed := false }

end Ariane.CompressedDecoder
