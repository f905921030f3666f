import Ariane.AxiMemory
import Ariane.DmCsrs

set_option autoImplicit false

/- `dm_sba.sv`: the accesses of the debugger to the system bus, with the registers of `dm_csrs.sv`
and a memory on the bus. -/
namespace Ariane.Dm

open AxiAdapter (Params Request Bench Memory firstLane byteAt byteOf wordOf)
open Rtl (Machine)

/-- The adapter of one word, with its default parameters. -/
abbrev sbaPort : Params := ⟨0, false, 10, 8⟩

/-- The states of the machine. -/
inductive SbaState where
  | idle | read | write | waitRead | waitWrite
  deriving DecidableEq

/-- What comes from the registers. -/
structure SbaInput where
  sbaddress : BitVec 64
  sbaddressWriteValid : Bool
  sbreadonaddr : Bool
  sbautoincrement : Bool
  sbaccess : BitVec 3
  sbreadondata : Bool
  sbdata : BitVec 64
  sbdataReadValid : Bool
  sbdataWriteValid : Bool

section Sba

variable (state : SbaState) (i : SbaInput)

/-- The byte enables of a write. -/
def sbaBe : BitVec 8 :=
  match i.sbaccess.toNat with
  | 0 => 1 <<< byteOf i.sbaddress
  | 1 => 3 <<< (byteOf i.sbaddress / 2 * 2)
  | 2 => 15 <<< (byteOf i.sbaddress / 4 * 4)
  | 3 => 255
  | _ => 0

/-- The access is larger than the bus. -/
def sbaTooLarge : Bool := decide (3 < i.sbaccess.toNat) && state != .idle

/-- `req`. -/
def sbaReq : Bool := (state == .read || state == .write) && !sbaTooLarge state i

/-- The request at the adapter. -/
def sbaRequest : Request sbaPort where
  single := true
  addr := i.sbaddress
  we := state == .write
  wdata := fun _ => i.sbdata
  be := fun _ => if state = .write then sbaBe i else 0
  size := i.sbaccess.setWidth 2
  id := 0

/-- `sbbusy_o`. -/
def sbaBusy : Bool := state != .idle

variable (gnt valid : Bool)

def sbaNext : SbaState :=
  if sbaTooLarge state i then .idle
  else
    match state with
    | .idle =>
        if i.sbdataReadValid && i.sbreadondata then .read
        else if i.sbdataWriteValid then .write
        else if i.sbaddressWriteValid && i.sbreadonaddr then .read
        else .idle
    | .read => if gnt then .waitRead else .read
    | .write => if gnt then .waitWrite else .write
    | .waitRead => if valid then .idle else .waitRead
    | .waitWrite => if valid then .idle else .waitWrite

/-- `sbaddress_o`. -/
def sbaAddress : BitVec 64 :=
  if (state == .waitRead || state == .waitWrite) && valid && i.sbautoincrement then
    i.sbaddress + 1 <<< i.sbaccess.toNat
  else i.sbaddress

end Sba

/-- A register of the system bus. -/
def Register.systemBus : Register → Bool
  | .sbcs | .sbAddress0 | .sbAddress1 | .sbData0 | .sbData1 => true
  | _ => false

/-- What the debugger asked for. -/
structure Job where
  we : Bool
  addr : BitVec 64
  data : BitVec 64
  size : BitVec 3
  deriving DecidableEq

/-- The registers, the machine, its adapter and the memory. `programmed` is the size that was
written last to `sbaccess`, and `job` the access that was asked for and is not done. -/
structure System (nrHarts : Nat) where
  csrs : Csrs nrHarts
  sba : SbaState := .idle
  bus : Bench sbaPort := {}
  mem : Memory
  programmed : BitVec 3 := 0
  job : Option Job := none

/-- The access from the debug module interface that is taken, if any, and the signals of the
slave. -/
structure SystemInput (nrHarts : Nat) where
  fromMem : FromMem nrHarts := {}
  request : Option DmiReq := none
  awReady : Bool := false
  wReady : Bool := false
  arReady : Bool := false
  bValid : Bool := false
  bId : BitVec 10 := 0
  rValid : Bool := false
  rLast : Bool := false
  rId : BitVec 10 := 0

namespace System

variable {nrHarts : Nat} (s : System nrHarts) (i : SystemInput nrHarts)

/-- The register that is written or read. -/
def accessed (op : BitVec 2) (register : Register) : Bool :=
  i.request.any fun r => r.op == op && decode r.addr == register

/-- No bus error is pending. -/
def fine : Bool := s.csrs.sbcs.sberror == 0

/-- The size never leaves the registers: `sbaccess` is tied to zero. -/
def sbaInput : SbaInput where
  sbaddress := s.csrs.sbaddr
  sbaddressWriteValid := accessed i dtmWrite .sbAddress0 && s.fine
  sbreadonaddr := s.csrs.sbcs.sbreadonaddr
  sbautoincrement := s.csrs.sbcs.sbautoincrement
  sbaccess := 0
  sbreadondata := s.csrs.sbcs.sbreadondata
  sbdata := s.csrs.sbdata
  sbdataReadValid := accessed i dtmRead .sbData0 && s.fine
  sbdataWriteValid := accessed i dtmWrite .sbData0 && s.fine

/-- The request and the slave at the adapter. The memory gives the words. -/
def busInput : AxiAdapter.Input sbaPort where
  req := sbaReq s.sba (s.sbaInput i)
  request := sbaRequest s.sba (s.sbaInput i)
  awReady := i.awReady
  wReady := i.wReady
  arReady := i.arReady
  bValid := i.bValid
  bId := i.bId
  rValid := i.rValid
  rLast := i.rLast
  rData := s.bus.log.nextWord s.mem
  rId := i.rId

def output : AxiAdapter.Output sbaPort := s.bus.output (s.busInput i)

/-- What the registers get back. -/
def csrsInput : CsrsInput where
  sbaddress := sbaAddress s.sba (s.sbaInput i) (s.output i).valid
  sbdata := (s.output i).rdata (firstLane sbaPort)
  sbdataValid := (s.output i).valid
  sbbusy := sbaBusy s.sba
  sberrorValid := sbaTooLarge s.sba (s.sbaInput i)
  sberror := 3

/-- The access that this cycle triggers, with the registers as they are after it. -/
def trigger : Option Job :=
  if s.job.isSome || !s.fine then none
  else
    i.request.bind fun r =>
      if r.op = dtmWrite ∧ decode r.addr = .sbAddress0 ∧ s.csrs.sbcs.sbreadonaddr = true then
        some ⟨false, setWord s.csrs.sbaddr 0 r.data, s.csrs.sbdata, s.programmed⟩
      else if r.op = dtmWrite ∧ decode r.addr = .sbData0 then
        some ⟨true, s.csrs.sbaddr, setWord s.csrs.sbdata 0 r.data, s.programmed⟩
      else if r.op = dtmRead ∧ decode r.addr = .sbData0 ∧ s.csrs.sbcs.sbreadondata = true then
        some ⟨false, s.csrs.sbaddr, s.csrs.sbdata, s.programmed⟩
      else none

def next : System nrHarts where
  csrs := s.csrs.next i.fromMem (s.csrsInput i) i.request
  sba := sbaNext s.sba (s.sbaInput i) (s.output i).gnt (s.output i).valid
  bus := s.bus.next (s.busInput i)
  mem :=
    if (s.output i).valid && (s.output i).bReady then
      (s.bus.record (s.busInput i)).commit s.mem
    else s.mem
  programmed :=
    (i.request.bind fun r =>
      if r.op = dtmWrite ∧ decode r.addr = .sbcs then some (r.data.extractLsb' 17 3)
      else none).getD s.programmed
  job := if (s.output i).valid then none else (s.trigger i).or s.job

end System

end Ariane.Dm
