import Ariane.AmoBuffer
import Ariane.Rtl.Bits

set_option autoImplicit false

/- `dm_csrs.sv`: the registers of the debug module behind the debug module interface. -/
namespace Ariane.Dm

open Rtl (Queue ofBits)
open Rtl.Ring (clog2)

/-- `cmderr_t`. -/
def cmdErrNone : BitVec 3 := 0
def cmdErrBusy : BitVec 3 := 1
def cmdErrNotSupported : BitVec 3 := 2
def cmdErrorException : BitVec 3 := 3
def cmdErrorHaltResume : BitVec 3 := 4

/-- `cmd_t`, as far as it is supported. -/
def accessRegister : BitVec 8 := 0

/-- `dtm_op_t`. -/
def dtmRead : BitVec 2 := 1
def dtmWrite : BitVec 2 := 2

/-- A packed array of words with word `k` replaced; an index outside writes nothing. -/
def setWord {m : Nat} (x : BitVec m) (k : Nat) (word : BitVec 32) : BitVec m :=
  ofBits m fun j => if j / 32 = k then word.getLsbD (j % 32) else x.getLsbD j

/-- The registers by the address of the access. Both ranges end one past the last word. -/
inductive Register
  | data | dmControl | dmStatus | hartinfo | abstractCS | command | abstractAuto | progBuf
  | haltSum0 | haltSum1 | haltSum2 | haltSum3
  | sbcs | sbAddress0 | sbAddress1 | sbData0 | sbData1 | other
  deriving DecidableEq

def decode (addr : BitVec 7) : Register :=
  if 0x04 ≤ addr.toNat ∧ addr.toNat ≤ 0x06 then .data
  else if 0x20 ≤ addr.toNat ∧ addr.toNat ≤ 0x26 then .progBuf
  else
    match addr.toNat with
    | 0x10 => .dmControl
    | 0x11 => .dmStatus
    | 0x12 => .hartinfo
    | 0x13 => .haltSum1
    | 0x16 => .abstractCS
    | 0x17 => .command
    | 0x18 => .abstractAuto
    | 0x34 => .haltSum2
    | 0x35 => .haltSum3
    | 0x38 => .sbcs
    | 0x39 => .sbAddress0
    | 0x3A => .sbAddress1
    | 0x3C => .sbData0
    | 0x3D => .sbData1
    | 0x40 => .haltSum0
    | _ => .other

/-- `dmcontrol_t` without the fields that are tied to zero. -/
structure DmControl where
  haltreq : Bool := false
  resumereq : Bool := false
  hartsello : BitVec 10 := 0
  hartselhi : BitVec 10 := 0
  ndmreset : Bool := false
  dmactive : Bool := false
  deriving DecidableEq

namespace DmControl

def unpack (x : BitVec 32) : DmControl where
  haltreq := x.getLsbD 31
  resumereq := x.getLsbD 30
  hartsello := x.extractLsb' 16 10
  hartselhi := x.extractLsb' 6 10
  ndmreset := x.getLsbD 1
  dmactive := x.getLsbD 0

def pack (c : DmControl) : BitVec 32 :=
  BitVec.ofBool c.haltreq ++ BitVec.ofBool c.resumereq ++ 0#4 ++ c.hartsello ++ c.hartselhi ++
    0#4 ++ BitVec.ofBool c.ndmreset ++ BitVec.ofBool c.dmactive

/-- `hartsel_o`. -/
def hartsel (c : DmControl) : BitVec 20 := c.hartselhi ++ c.hartsello

end DmControl

/-- `sbcs_t` without the fields that are tied to constants. -/
structure Sbcs where
  sbbusyerror : Bool := false
  sbbusy : Bool := false
  sbreadonaddr : Bool := false
  sbautoincrement : Bool := false
  sbreadondata : Bool := false
  sberror : BitVec 3 := 0
  deriving DecidableEq

namespace Sbcs

def unpack (x : BitVec 32) : Sbcs where
  sbbusyerror := x.getLsbD 22
  sbbusy := x.getLsbD 21
  sbreadonaddr := x.getLsbD 20
  sbautoincrement := x.getLsbD 16
  sbreadondata := x.getLsbD 15
  sberror := x.extractLsb' 12 3

end Sbcs

/-- The registers. `data_q` and `progbuf_q` are packed, two and six words. -/
structure Csrs (nrHarts : Nat) where
  dmcontrol : DmControl := {}
  havereset : BitVec nrHarts := BitVec.allOnes nrHarts
  cmderr : BitVec 3 := cmdErrNone
  command : BitVec 32 := 0
  abstractauto : BitVec 32 := 0
  progbuf : BitVec 192 := 0
  data : BitVec 64 := 0
  sbcs : Sbcs := {}
  sbaddr : BitVec 64 := 0
  sbdata : BitVec 64 := 0
  deriving DecidableEq

/-- `dmi_req_i`. -/
structure DmiReq where
  addr : BitVec 7 := 0
  op : BitVec 2 := 0
  data : BitVec 32 := 0
  deriving DecidableEq

/-- What comes from the debug module interface and from `dm_sba`. -/
structure CsrsInput where
  dmiReqValid : Bool := false
  dmiReq : DmiReq := {}
  dmiRespReady : Bool := false
  sbaddress : BitVec 64 := 0
  sbdata : BitVec 64 := 0
  sbdataValid : Bool := false
  sbbusy : Bool := false
  sberrorValid : Bool := false
  sberror : BitVec 3 := 0
  deriving DecidableEq

/-- What comes from `dm_mem`. -/
structure FromMem (nrHarts : Nat) where
  halted : BitVec nrHarts := 0
  resumeack : BitVec nrHarts := 0
  cmdbusy : Bool := false
  cmderrorValid : Bool := false
  cmderror : BitVec 3 := 0
  data : BitVec 64 := 0
  dataValid : Bool := false

variable {nrHarts : Nat} (s : Csrs nrHarts)

/-- `HartSelLen`. -/
def hartSelLen (nrHarts : Nat) : Nat := if nrHarts = 1 then 1 else clog2 nrHarts

def Csrs.selectedHart : Nat := s.dmcontrol.hartsel.toNat % 2 ^ hartSelLen nrHarts

/-- Whether an access to this data register executes the command again. -/
def Csrs.autoexecdata (addr : BitVec 7) : Bool := s.abstractauto.getLsbD (addr.toNat % 16 - 4)

/-- The same for a register of the program buffer. -/
def Csrs.autoexecprogbuf (addr : BitVec 7) : Bool := s.abstractauto.getLsbD (addr.toNat % 16 + 16)

/-- `cmd_valid_o` for a request that is taken. -/
def Csrs.cmdValid (busy : Bool) (r : DmiReq) : Bool :=
  !busy && (r.op == dtmRead || r.op == dtmWrite) &&
    match decode r.addr with
    | .data => s.autoexecdata r.addr
    | .progBuf => s.autoexecprogbuf r.addr
    | .command => r.op == dtmWrite
    | _ => false

/-- The reads that leave a mark: those of the system bus registers. -/
def Csrs.reads (sbbusy : Bool) (r : DmiReq) : Csrs nrHarts :=
  let marked := { s.sbcs with sbbusyerror := true }
  match decode r.addr with
  | .sbcs | .sbAddress0 | .sbAddress1 | .sbData0 | .sbData1 =>
      if sbbusy then { s with sbcs := marked } else s
  | _ => s

/-- `W1C`: the part of `cmderr` that is not written with ones stays. -/
def clearCmderr (cmderr : BitVec 3) (data : BitVec 32) : BitVec 3 :=
  ~~~data.extractLsb' 8 3 &&& cmderr

/-- An access that is not allowed while a command executes. -/
def Csrs.refused : Csrs nrHarts :=
  if s.cmderr = cmdErrNone then { s with cmderr := cmdErrBusy } else s

/-- The writes, by register. Those of the system bus registers take place although the bus is
busy. -/
def Csrs.writes (busy sbbusy : Bool) (r : DmiReq) : Csrs nrHarts :=
  let marked := { s.sbcs with sbbusyerror := sbbusy || s.sbcs.sbbusyerror }
  match decode r.addr with
  | .data => if busy then s else { s with data := setWord s.data (r.addr.toNat - 4) r.data }
  | .dmControl =>
      { s with
        havereset :=
          if r.data.getLsbD 28 then
            ofBits nrHarts fun j => s.havereset.getLsbD j && j != s.selectedHart
          else s.havereset
        dmcontrol := DmControl.unpack r.data }
  | .abstractCS => if busy then s.refused else { s with cmderr := clearCmderr s.cmderr r.data }
  | .command => if busy then s.refused else { s with command := r.data }
  | .abstractAuto =>
      if busy then s.refused
      else { s with abstractauto := r.data.extractLsb' 16 16 ++ 0#4 ++ r.data.extractLsb' 0 12 }
  | .progBuf =>
      if busy then s else { s with progbuf := setWord s.progbuf (r.addr.toNat % 32) r.data }
  | .sbcs =>
      let sbcs := Sbcs.unpack r.data
      { s with
        sbcs :=
          { sbcs with
            sbbusyerror := s.sbcs.sbbusyerror && !sbcs.sbbusyerror
            sberror := s.sbcs.sberror &&& ~~~sbcs.sberror } }
  | .sbAddress0 => { s with sbcs := marked, sbaddr := setWord s.sbaddr 0 r.data }
  | .sbAddress1 => { s with sbcs := marked, sbaddr := setWord s.sbaddr 1 r.data }
  | .sbData0 => { s with sbcs := marked, sbdata := setWord s.sbdata 0 r.data }
  | .sbData1 => { s with sbcs := marked, sbdata := setWord s.sbdata 1 r.data }
  | _ => s

/-- What the debug module interface makes of the registers, if it has a request. -/
def Csrs.access (busy sbbusy : Bool) : Option DmiReq → Csrs nrHarts
  | none => s
  | some r =>
      if r.op = dtmRead then s.reads sbbusy r
      else if r.op = dtmWrite then s.writes busy sbbusy r
      else s

/-- The hart has precedence over the writes from the bus. -/
def Csrs.hart (m : FromMem nrHarts) : Csrs nrHarts :=
  { s with
    cmderr := if m.cmderrorValid then m.cmderror else s.cmderr
    data := if m.dataValid then m.data else s.data }

/-- The system bus, the bits tied to the bus and the reset of the harts. -/
def Csrs.bus (ndmreset : Bool) (i : CsrsInput) : Csrs nrHarts :=
  { s with
    havereset := if ndmreset then BitVec.allOnes nrHarts else s.havereset
    sbcs :=
      { s.sbcs with
        sberror := if i.sberrorValid then i.sberror else s.sbcs.sberror
        sbbusy := i.sbbusy }
    sbdata := if i.sbdataValid then i.sbdata else s.sbdata }

/-- `csr_read_write`: the registers to be stored. -/
def Csrs.update (m : FromMem nrHarts) (i : CsrsInput) (request : Option DmiReq) : Csrs nrHarts :=
  ((({ s with sbaddr := i.sbaddress } : Csrs nrHarts).access m.cmdbusy i.sbbusy request).hart
    m).bus s.dmcontrol.ndmreset i

/-- The registers after a cycle. Unless `dmactive` is set the module is held in reset. -/
def Csrs.next (m : FromMem nrHarts) (i : CsrsInput) (request : Option DmiReq) : Csrs nrHarts :=
  let d := s.update m i request
  if s.dmcontrol.dmactive then d
  else { havereset := d.havereset, dmcontrol := { dmactive := d.dmcontrol.dmactive } }

/-- A stage of the tree that tells whether all of 32 harts are halted. -/
def reduction (halted : Nat → Bool) (words : Nat) (k : Nat) : Bool :=
  decide (k < words) && (List.range 32).all fun j => halted (32 * k + j)

def word (bits : Nat → Bool) (k : Nat) : BitVec 32 := ofBits 32 fun j => bits (32 * k + j)

section Responses

variable (m : FromMem nrHarts)

/-- `dmstatus`. -/
def Csrs.dmstatus (unavailable : BitVec nrHarts) : BitVec 32 :=
  let twice b := BitVec.ofBool b ++ BitVec.ofBool b
  let hart := s.selectedHart
  0#12 ++ twice (s.havereset.getLsbD hart) ++ twice (m.resumeack.getLsbD hart) ++
    twice (decide (nrHarts - 1 < s.dmcontrol.hartsel.toNat)) ++
    twice (unavailable.getLsbD hart) ++ twice (!m.halted.getLsbD hart) ++
    twice (m.halted.getLsbD hart) ++ 1#1 ++ 0#3 ++ 2#4

/-- `abstractcs`. -/
def Csrs.abstractcs : BitVec 32 :=
  0#3 ++ 6#5 ++ 0#11 ++ BitVec.ofBool m.cmdbusy ++ 0#1 ++ s.cmderr ++ 0#4 ++ 2#4

def Csrs.haltsum (k : Nat) : BitVec 32 :=
  let halted0 := m.halted.getLsbD
  let halted1 := reduction halted0 (nrHarts / 2 ^ 5)
  let halted2 := reduction halted1 (nrHarts / 2 ^ 10)
  let hart := s.dmcontrol.hartsel.toNat
  match k with
  | 0 => word halted0 (hart / 2 ^ 5)
  | 1 => word halted1 (hart / 2 ^ 10)
  | 2 => word halted2 (hart / 2 ^ 15)
  | _ => word (reduction halted2 (nrHarts / 2 ^ 15)) 0

/-- `resp_queue_data`. -/
def Csrs.respQueueData (hartinfo : Nat → BitVec 32) (unavailable : BitVec nrHarts)
    (r : DmiReq) : BitVec 32 :=
  if r.op = dtmRead then
    match decode r.addr with
    | .data => s.data.extractLsb' (32 * (r.addr.toNat - 4)) 32
    | .dmControl => s.dmcontrol.pack
    | .dmStatus => s.dmstatus m unavailable
    | .hartinfo => hartinfo s.selectedHart
    | .abstractCS => s.abstractcs m
    | .abstractAuto => s.abstractauto
    | .command => 0
    | .progBuf => s.progbuf.extractLsb' (32 * (r.addr.toNat % 32)) 32
    | .haltSum0 => s.haltsum m 0
    | .haltSum1 => s.haltsum m 1
    | .haltSum2 => s.haltsum m 2
    | .haltSum3 => s.haltsum m 3
    | .sbAddress0 => s.sbaddr.extractLsb' 0 32
    | .sbAddress1 => s.sbaddr.extractLsb' 32 32
    | .sbData0 => s.sbdata.extractLsb' 0 32
    | .sbData1 => s.sbdata.extractLsb' 32 32
    | _ => 0
  else 0

end Responses

end Ariane.Dm
