import Ariane.AbstractCommands
import Mathlib.Logic.Function.Basic

set_option autoImplicit false

/- A hart in debug mode that executes what the debug module serves: the program of an abstract
command and the entry and the exception code of `debug_rom.S`. -/
namespace Ariane.DebugHart

open Dm (Fixed State MemInput)

variable {φ : Type} {nrHarts : Nat}

/-- The instructions of that code. -/
inductive Instr where
  | jal (rd : BitVec 5) (offset : BitVec 21)
  | jalr (rd rs1 : BitVec 5) (offset : BitVec 12)
  | addi (rd rs1 : BitVec 5) (imm : BitVec 12)
  | fence
  | load (size : BitVec 3) (rd rs1 : BitVec 5) (offset : BitVec 12)
  | store (size : BitVec 3) (rs2 rs1 : BitVec 5) (offset : BitVec 12)
  | floatLoad (size : BitVec 3) (rd rs1 : BitVec 5) (offset : BitVec 12)
  | floatStore (size : BitVec 3) (rs2 rs1 : BitVec 5) (offset : BitVec 12)
  | csrrw (rd : BitVec 5) (csr : BitVec 12) (rs1 : BitVec 5)
  | csrrs (rd : BitVec 5) (csr : BitVec 12) (rs1 : BitVec 5)
  | ebreak
  | illegal
  deriving DecidableEq

/-- The encoding of the manual. Accesses to memory are no wider than 64 bits and extend the sign. -/
def decode (w : BitVec 32) : Instr :=
  let rd := w.extractLsb' 7 5
  let size := w.extractLsb' 12 3
  let rs1 := w.extractLsb' 15 5
  let rs2 := w.extractLsb' 20 5
  let imm := w.extractLsb' 20 12
  let immS := w.extractLsb' 25 7 ++ w.extractLsb' 7 5
  let immJ :=
    w.extractLsb' 31 1 ++ w.extractLsb' 12 8 ++ w.extractLsb' 20 1 ++ w.extractLsb' 21 10 ++ 0#1
  match (w.extractLsb' 0 7).toNat with
  | 0x6F => .jal rd immJ
  | 0x67 => if size = 0 then .jalr rd rs1 imm else .illegal
  | 0x13 => if size = 0 then .addi rd rs1 imm else .illegal
  | 0x0F => .fence
  | 0x03 => if size < 4 then .load size rd rs1 imm else .illegal
  | 0x23 => if size < 4 then .store size rs2 rs1 immS else .illegal
  | 0x07 => if size < 4 then .floatLoad size rd rs1 imm else .illegal
  | 0x27 => if size < 4 then .floatStore size rs2 rs1 immS else .illegal
  | 0x73 =>
      if size = 1 then .csrrw rd imm rs1
      else if size = 2 then .csrrs rd imm rs1
      else if w = 0x100073 then .ebreak
      else .illegal
  | _ => .illegal

/-- The hart apart from its integer and floating point registers and `dscratch0`: which accesses
to its other CSRs and to the floating point registers are legal and what they do. -/
structure Core (φ : Type) where
  readCsr : φ → BitVec 12 → Option (BitVec 64)
  writeCsr : φ → BitVec 12 → BitVec 64 → Option φ
  floatLegal : φ → BitVec 3 → Bool
  floatWritten : φ → φ

structure Hart (φ : Type) where
  pc : BitVec 64
  x : BitVec 5 → BitVec 64
  f : BitVec 5 → BitVec 64
  dscratch0 : BitVec 64
  csrs : φ

/-- The number of `dscratch0`, and the register that the ROM saves there. -/
def csrDscratch0 : BitVec 12 := 0x7b2
def s0 : BitVec 5 := 8

/-- `dm_pkg`: where a hart goes when it enters debug mode and after an exception there. -/
def haltAddress : BitVec 64 := 0x800
def exceptionAddress : BitVec 64 := haltAddress + 8

/-- The label `entry_loop`, at which the hart is parked. -/
def entryLoop : BitVec 64 := haltAddress + 0x14

/-- The first word of the program buffer. -/
def progBuf : BitVec 64 := Dm.progBufBase.setWidth 64

def whereTo : BitVec 64 := Dm.whereTo.setWidth 64

section Values

/-- The width of an access. -/
def bits (size : BitVec 3) : Nat := 8 * 2 ^ (size.toNat % 4)

def signed (size : BitVec 3) (word : BitVec 64) : BitVec 64 :=
  (word.setWidth (bits size)).signExtend 64

/-- A narrow floating point value is boxed. -/
def boxed (size : BitVec 3) (word : BitVec 64) : BitVec 64 :=
  word ||| BitVec.allOnes 64 <<< bits size

/-- The data registers after a store of that width. -/
def merged (size : BitVec 3) (value data : BitVec 64) : BitVec 64 :=
  Rtl.ofBits 64 fun j => if j < bits size then value.getLsbD j else data.getLsbD j

end Values

namespace Hart

variable (h : Hart φ)

def reg (r : BitVec 5) : BitVec 64 := if r = 0 then 0 else h.x r

def setReg (r : BitVec 5) (value : BitVec 64) : Hart φ :=
  if r = 0 then h else { h with x := Function.update h.x r value }

def advance : Hart φ := { h with pc := h.pc + 4 }

/-- In debug mode an exception changes no register. -/
def trap : Hart φ := { h with pc := exceptionAddress }

def csrRead (C : Core φ) (csr : BitVec 12) : Option (BitVec 64) :=
  if csr = csrDscratch0 then some h.dscratch0 else C.readCsr h.csrs csr

def csrWrite (C : Core φ) (csr : BitVec 12) (value : BitVec 64) : Option (Hart φ) :=
  if csr = csrDscratch0 then some { h with dscratch0 := value }
  else (C.writeCsr h.csrs csr value).map fun csrs => { h with csrs := csrs }

end Hart

theorem setReg_zero (h : Hart φ) (value : BitVec 64) : h.setReg 0 value = h := if_pos rfl

theorem reg_zero (h : Hart φ) : h.reg 0 = 0 := if_pos rfl

theorem reg_s0 (h : Hart φ) : h.reg s0 = h.x s0 := if_neg (by decide)

/-! `debug_rom.sv`. -/

def rom : List (BitVec 64) :=
  [0x04C0006F00C0006F, 0x0FF0000F0340006F, 0xF14024737B241073, 0x4004440310802023,
    0x0204106300147413, 0x40044403F1402473, 0xFC0418E300247413, 0x10002623FDDFF06F,
    0x7B20247300100073, 0x3000006710002223, 0x10802423F1402473, 0x7B2000737B202473, 0]

/-- The answer of the ROM. -/
def romWord (addr : BitVec 64) : BitVec 64 := rom.getD (addr.extractLsb' 3 4).toNat 0

section Access

variable (F : Fixed) (dm : State nrHarts)

/-- A cycle of the debug module with an access of the hart and no request of the debugger. -/
def access (m : MemInput) : State nrHarts := Dm.next F dm { mem := m }

def readAt (addr : BitVec 64) : MemInput := { req := true, addr := addr }

/-- `rdata_o` in the cycle after a read. -/
def served (addr : BitVec 64) : BitVec 64 :=
  if haltAddress.extractLsb' 0 12 ≤ addr.extractLsb' 0 12 then romWord addr
  else (access F dm (readAt addr)).mem.rdata

/-- A store: the value and its byte enables in the lanes of the address. -/
def storeAt (addr : BitVec 64) (size : BitVec 3) (value : BitVec 64) : MemInput where
  req := true
  we := true
  addr := addr
  wdata := value <<< (8 * (addr.toNat % 8))
  be := BitVec.ofNat 8 (2 ^ 2 ^ (size.toNat % 4) - 1) <<< (addr.toNat % 8)

/-- The double word that holds an instruction. -/
def wordAddress (pc : BitVec 64) : BitVec 64 := pc &&& ~~~7

/-- The instruction at an address. -/
def fetched (pc : BitVec 64) : BitVec 32 :=
  (served F dm (wordAddress pc)).extractLsb' (if pc.getLsbD 2 then 32 else 0) 32

end Access

section Step

variable (C : Core φ) (F : Fixed)

/-- The data of a load in the lanes of its address. -/
def lane (word addr : BitVec 64) : BitVec 64 := word >>> (8 * (addr.toNat % 8))

/-- One instruction of a hart that has fetched it. -/
def execute (i : Instr) (h : Hart φ) (dm : State nrHarts) : Hart φ × State nrHarts :=
  match i with
  | .jal rd offset =>
      ({ h.setReg rd (h.pc + 4) with pc := h.pc + offset.signExtend 64 }, dm)
  | .jalr rd rs1 offset =>
      ({ h.setReg rd (h.pc + 4) with pc := h.reg rs1 + offset.signExtend 64 }, dm)
  | .addi rd rs1 imm => ((h.setReg rd (h.reg rs1 + imm.signExtend 64)).advance, dm)
  | .fence => (h.advance, dm)
  | .load size rd rs1 offset =>
      let addr := h.reg rs1 + offset.signExtend 64
      ((h.setReg rd (signed size (lane (served F dm addr) addr))).advance,
        access F dm (readAt addr))
  | .store size rs2 rs1 offset =>
      let addr := h.reg rs1 + offset.signExtend 64
      (h.advance, access F dm (storeAt addr size (h.reg rs2)))
  | .floatLoad size rd rs1 offset =>
      let addr := h.reg rs1 + offset.signExtend 64
      if C.floatLegal h.csrs size then
        ({ h with
            f := Function.update h.f rd (boxed size (lane (served F dm addr) addr))
            csrs := C.floatWritten h.csrs
            pc := h.pc + 4 },
          access F dm (readAt addr))
      else (h.trap, dm)
  | .floatStore size rs2 rs1 offset =>
      let addr := h.reg rs1 + offset.signExtend 64
      if C.floatLegal h.csrs size then
        (h.advance, access F dm (storeAt addr size (h.f rs2)))
      else (h.trap, dm)
  | .csrrw rd csr rs1 =>
      match if rd = 0 then some 0 else h.csrRead C csr, h.csrWrite C csr (h.reg rs1) with
      | some old, some h' => ((h'.setReg rd old).advance, dm)
      | _, _ => (h.trap, dm)
  | .csrrs rd csr rs1 =>
      match h.csrRead C csr with
      | none => (h.trap, dm)
      | some old =>
          match if rs1 = 0 then some h else h.csrWrite C csr (old ||| h.reg rs1) with
          | none => (h.trap, dm)
          | some h' => ((h'.setReg rd old).advance, dm)
  | .ebreak => ({ h with pc := haltAddress }, dm)
  | .illegal => (h.trap, dm)

/-- One instruction with its fetch. -/
def step (σ : Hart φ × State nrHarts) : Hart φ × State nrHarts :=
  execute C F (decode (fetched F σ.2 σ.1.pc)) σ.1 (access F σ.2 (readAt (wordAddress σ.1.pc)))

/-- The hart is about to execute the program buffer, or it is parked. -/
def stopped (σ : Hart φ × State nrHarts) : Bool := σ.1.pc == progBuf || σ.1.pc == entryLoop

/-- The run up to the first such state. -/
def runs : Nat → Hart φ × State nrHarts → Option (Hart φ × State nrHarts)
  | 0, σ => if stopped σ then some σ else none
  | n + 1, σ => if stopped σ then some σ else runs n (step C F σ)

end Step

end Ariane.DebugHart
