import Ariane.DmCsrs

set_option autoImplicit false

/- `dm_mem.sv`: what the harts see of the debug module, and the control of a command. -/
namespace Ariane.Dm

open Rtl (ofBits)

/-- The instruction words that `riscv_pkg` builds. -/
structure Instructions where
  illegal : BitVec 32
  nop : BitVec 32
  ebreak : BitVec 32
  jalr : (rd rs1 : BitVec 5) → (offset : BitVec 12) → BitVec 32
  load : (size : BitVec 3) → (dest base : BitVec 5) → (offset : BitVec 12) → BitVec 32
  store : (size : BitVec 3) → (src base : BitVec 5) → (offset : BitVec 12) → BitVec 32
  floatLoad : (size : BitVec 3) → (dest base : BitVec 5) → (offset : BitVec 12) → BitVec 32
  floatStore : (size : BitVec 3) → (src base : BitVec 5) → (offset : BitVec 12) → BitVec 32
  csrw : (csr : BitVec 12) → (rs1 : BitVec 5) → BitVec 32
  csrr : (csr : BitVec 12) → (dest : BitVec 5) → BitVec 32
  csrDscratch0 : BitVec 12

/-- The encodings of the RISC-V manual. -/
def Instructions.riscv : Instructions where
  illegal := 0
  nop := 0x13
  ebreak := 0x100073
  jalr rd rs1 offset := offset ++ rs1 ++ 0#3 ++ rd ++ 0x67#7
  load size dest base offset := offset ++ base ++ size ++ dest ++ 0x03#7
  store size src base offset :=
    offset.extractLsb' 5 7 ++ src ++ base ++ size ++ offset.extractLsb' 0 5 ++ 0x23#7
  floatLoad size dest base offset := offset ++ base ++ size ++ dest ++ 0x07#7
  floatStore size src base offset :=
    offset.extractLsb' 5 7 ++ src ++ base ++ size ++ offset.extractLsb' 0 5 ++ 0x27#7
  csrw csr rs1 := csr ++ rs1 ++ 1#3 ++ 0#5 ++ 0x73#7
  csrr csr dest := csr ++ 0#5 ++ 2#3 ++ dest ++ 0x73#7
  csrDscratch0 := 0x7b2

/-- `DataAddr`, and below it the program buffer and the abstract command. -/
def dataAddr : BitVec 12 := 0x380
def dataEnd : BitVec 12 := 0x388
def progBufBase : BitVec 12 := 0x368
def abstractCmdBase : BitVec 12 := 0x350
def whereTo : BitVec 12 := 0x300
def flagsBase : BitVec 12 := 0x400
def flagsEnd : BitVec 12 := 0x7FF
def resumeAddress : BitVec 12 := 0x804

/-- `command_t`. -/
def cmdtype (command : BitVec 32) : BitVec 8 := command.extractLsb' 24 8

/-! `ac_ar_cmd_t`, the control field of an access to a register. -/

def aarsize (command : BitVec 32) : BitVec 3 := command.extractLsb' 20 3
def postexec (command : BitVec 32) : Bool := command.getLsbD 18
def transfer (command : BitVec 32) : Bool := command.getLsbD 17
def isWrite (command : BitVec 32) : Bool := command.getLsbD 16
def regno (command : BitVec 32) : BitVec 16 := command.extractLsb' 0 16

inductive MemState
  | idle | go | resume | cmdExecuting
  deriving DecidableEq

/-- The registers. -/
structure Mem (nrHarts : Nat) where
  state : MemState := .idle
  halted : BitVec nrHarts := 0
  resuming : BitVec nrHarts := 0
  rdata : BitVec 64 := 0
  deriving DecidableEq

/-- One access of a hart. -/
structure MemInput where
  req : Bool := false
  we : Bool := false
  addr : BitVec 64 := 0
  wdata : BitVec 64 := 0
  be : BitVec 8 := 0
  deriving DecidableEq

/-- What comes from `dm_csrs`. -/
structure FromCsrs (nrHarts : Nat) where
  hartsel : BitVec 20 := 0
  haltreq : BitVec nrHarts := 0
  resumereq : BitVec nrHarts := 0
  cmdValid : Bool := false
  cmd : BitVec 32 := 0
  progbuf : BitVec 192 := 0
  data : BitVec 64 := 0

namespace MemInput

variable (i : MemInput)

def offset : BitVec 12 := i.addr.extractLsb' 0 12

def writesTo (register : BitVec 12) : Bool := i.req && i.we && i.offset == register

/-- The registers that a hart writes. -/
def halted : Bool := i.writesTo 0x100
def going : Bool := i.writesTo 0x104
def resuming : Bool := i.writesTo 0x108
def exception : Bool := i.writesTo 0x10C

/-- `data_valid_o`. -/
def dataValid : Bool :=
  i.req && i.we && decide (dataAddr ≤ i.offset) && decide (i.offset ≤ dataEnd)

/-- `data_bits`, the data registers with the bytes that are written. -/
def dataBits (data : BitVec 64) : BitVec 64 :=
  if i.dataValid then
    ofBits 64 fun j => if i.be.getLsbD (j / 8) then i.wdata.getLsbD j else data.getLsbD j
  else data

end MemInput

/-- A vector with bit `k` replaced. -/
def setBit {m : Nat} (x : BitVec m) (k : Nat) (value : Bool) : BitVec m :=
  ofBits m fun j => if j = k then value else x.getLsbD j

/-- `unsupported_command`. -/
def unsupportedCommand (command : BitVec 32) : Bool := cmdtype command != accessRegister

/-- `abstract_cmd_rom`: the program that carries out the command, from its first word. -/
def abstractCmd (I : Instructions) (command : BitVec 32) : List (BitVec 32) :=
  let plain := [I.illegal, I.nop, I.nop, I.nop, I.nop]
  let size := aarsize command
  let reg := (regno command).extractLsb' 0 5
  let csr := (regno command).extractLsb' 0 12
  let float := (regno command).getLsbD 5
  let front :=
    if unsupportedCommand command then plain
    else if decide (size < 4) && transfer command && isWrite command then
      if (regno command).extractLsb' 14 2 != 0 then plain
      else if (regno command).getLsbD 12 then
        (if float then I.floatLoad size reg 0 dataAddr else I.load size reg 0 dataAddr) ::
          plain.tail
      else
        [I.csrw I.csrDscratch0 8, I.load size 8 0 dataAddr, I.csrw csr 8,
          I.csrr I.csrDscratch0 8, I.nop]
    else if decide (size < 4) && transfer command then
      if (regno command).extractLsb' 14 2 != 0 then plain
      else if (regno command).getLsbD 12 then
        (if float then I.floatStore size reg 0 dataAddr else I.store size reg 0 dataAddr) ::
          plain.tail
      else
        [I.csrw I.csrDscratch0 8, I.csrr csr 8, I.store size 8 0 dataAddr,
          I.csrr I.csrDscratch0 8, I.nop]
    else plain
  front ++ [if !unsupportedCommand command && postexec command then I.nop else I.ebreak]

variable {nrHarts : Nat} (s : Mem nrHarts)

/-- `cmdbusy_o`. -/
def Mem.cmdbusy : Bool := s.state != .idle

/-- A resume that is obeyed: no hart is asked to halt and none has a resume to acknowledge. -/
def Mem.resumes (c : FromCsrs nrHarts) : Bool :=
  c.resumereq != 0 && s.resuming == 0 && c.haltreq == 0 && s.halted != 0

/-- The hart control queue. In `Idle` a resume goes before a command. -/
def Mem.stateD (c : FromCsrs nrHarts) (i : MemInput) : MemState :=
  match s.state with
  | .idle =>
      if s.resumes c then .resume
      else if c.cmdValid && s.halted != 0 then .go
      else .idle
  | .go => if i.going then .cmdExecuting else .go
  | .resume => if s.resuming != 0 then .idle else .resume
  | .cmdExecuting => if i.halted then .idle else .cmdExecuting

/-- A command for which no hart is halted. -/
def Mem.notHalted (c : FromCsrs nrHarts) : Bool :=
  s.state == .idle && c.cmdValid && s.halted == 0

/-- `cmderror_valid_o`. -/
def Mem.cmderrorValid (c : FromCsrs nrHarts) (i : MemInput) : Bool :=
  s.notHalted c || i.exception || unsupportedCommand c.cmd

/-- `cmderror_o`. -/
def Mem.cmderror (c : FromCsrs nrHarts) (i : MemInput) : BitVec 3 :=
  if unsupportedCommand c.cmd then cmdErrNotSupported
  else if i.exception then cmdErrorException
  else if s.notHalted c then cmdErrorHaltResume
  else cmdErrNone

/-- `rdata_d`: the answer to a hart that reads outside the ROM. -/
def Mem.rdataD (I : Instructions) (c : FromCsrs nrHarts) (i : MemInput) : BitVec 64 :=
  let addr := i.offset
  let low (instr : BitVec 32) : BitVec 64 := instr.setWidth 64
  if !i.req || i.we then s.rdata
  else if addr = whereTo then
    if s.cmdbusy then
      if transfer c.cmd then low (I.jalr 0 0 abstractCmdBase) else low (I.jalr 0 0 progBufBase)
    else if c.resumereq != 0 then low (I.jalr 0 0 resumeAddress)
    else s.rdata
  else if dataAddr ≤ addr ∧ addr ≤ dataEnd then c.data
  else if progBufBase ≤ addr ∧ addr < dataAddr then
    if addr = progBufBase + 16 then c.progbuf.extractLsb' 128 64
    else if addr = progBufBase + 8 then c.progbuf.extractLsb' 64 64
    else if addr = progBufBase then c.progbuf.extractLsb' 0 64
    else s.rdata
  else if abstractCmdBase ≤ addr ∧ addr < progBufBase then
    let k := 2 * (addr.toNat / 8 - abstractCmdBase.toNat / 8)
    (abstractCmd I c.cmd).getD (k + 1) 0 ++ (abstractCmd I c.cmd).getD k 0
  else if flagsBase ≤ addr ∧ addr ≤ flagsEnd then
    let hart := c.hartsel.extractLsb' 0 12
    if addr.toNat / 8 * 8 - flagsBase.toNat = hart.toNat / 8 * 8 then
      let flags := 0#6 ++ BitVec.ofBool (s.state == .resume) ++ BitVec.ofBool (s.state == .go)
      flags.setWidth 64 <<< (8 * (hart.toNat % 8))
    else 0
  else s.rdata

/-- The registers after a cycle. -/
def Mem.next (I : Instructions) (c : FromCsrs nrHarts) (i : MemInput) : Mem nrHarts :=
  let hart := i.wdata.toNat % 2 ^ hartSelLen nrHarts
  let acknowledged := if c.resumereq = 0 then setBit s.resuming hart false else s.resuming
  { state := s.stateD c i
    halted :=
      if i.halted then setBit s.halted hart true
      else if i.resuming then setBit s.halted hart false
      else s.halted
    resuming := if i.resuming then setBit acknowledged hart true else acknowledged
    rdata := s.rdataD I c i }

end Ariane.Dm
