import Ariane.WriteBuffer

set_option autoImplicit false

/- `serpent_dcache_missunit.sv`: the miss unit of the OpenPiton data cache. -/
namespace Ariane.MissUnit

open RrArbiter (lzc count anyBit)
open WriteBuffer (Geometry LineIndex)
open Rtl.Ring (clog2)

/-- The parameters: the geometry of the cache, the ports that read, and the functions of the
package. The last port is that of the write buffer. -/
structure Cache extends Geometry where
  readPorts : Nat
  idWidth : Nat
  /-- `paddrSizeAlign` moves an address within its line. -/
  align : BitVec 64 → BitVec 3 → BitVec 64
  wayed : 0 < ways
  readable : 0 < readPorts
  align_line : ∀ paddr size, align paddr size >>> offsetWidth = paddr >>> offsetWidth

variable {c : Cache}

instance neZeroWays : NeZero c.ways := ⟨by have wayed := c.wayed; omega⟩

instance (priority := high) neZeroPorts : NeZero (c.readPorts + 1) := ⟨Nat.succ_ne_zero _⟩

variable (c)

abbrev Port := Fin (c.readPorts + 1)

abbrev Ways := Fin c.ways → Bool

abbrev Id := BitVec c.idWidth

abbrev Line := BitVec (8 * 2 ^ c.offsetWidth)

variable {c}

def writePort : Port c := Fin.last c.readPorts

/-- The address of a line. -/
def lineOf (c : Cache) (paddr : BitVec 64) : BitVec 64 := paddr >>> c.offsetWidth

def indexOf (c : Cache) (paddr : BitVec 64) : LineIndex c.toGeometry :=
  paddr.extractLsb' c.offsetWidth (c.indexWidth - c.offsetWidth)

def tagOf (c : Cache) (paddr : BitVec 64) : BitVec c.tagWidth :=
  paddr.extractLsb' c.indexWidth c.tagWidth

def offsetOf (c : Cache) (paddr : BitVec 64) : BitVec c.offsetWidth :=
  paddr.extractLsb' 0 c.offsetWidth

inductive Fsm
  | idle | drain | amo | flush | storeWait | loadWait | amoWait
  deriving DecidableEq

/-- `mshr_t`. -/
structure Mshr (c : Cache) where
  paddr : BitVec 64 := 0
  size : BitVec 3 := 0
  vldBits : Ways c := fun _ => false
  id : Id c := 0
  nc : Bool := false
  replWay : Fin c.ways := 0
  missPortIdx : Port c := 0

/-- The registers, with that of the replacement unit. -/
structure State (c : Cache) where
  state : Fsm := .flush
  cnt : LineIndex c.toGeometry := 0
  enable : Bool := false
  flushAck : Bool := false
  mshr : Mshr c := {}
  mshrVld : Bool := false
  mshrVld1 : Bool := false
  rdrdCollision : Port c → Bool := fun _ => false
  missReqMasked : Port c → Bool := fun _ => false
  lfsr : BitVec 8 := 0

/-- What a port asks for. -/
structure Request (c : Cache) where
  req : Bool := false
  nc : Bool := false
  we : Bool := false
  wdata : BitVec 64 := 0
  paddr : BitVec 64 := 0
  vldBits : Ways c := fun _ => false
  size : BitVec 3 := 0
  id : Id c := 0

/-- `amo_req_t`. -/
structure AmoReq where
  req : Bool := false
  amoOp : BitVec 4 := 0
  size : BitVec 2 := 0
  operandA : BitVec 64 := 0
  operandB : BitVec 64 := 0

/-- The type of a response. -/
inductive Rtrn
  | loadAck | storeAck | atomicAck | invReq | other
  deriving DecidableEq

/-- `dcache_rtrn_t`. -/
structure MemRtrn (c : Cache) where
  rtype : Rtrn := .other
  invVld : Bool := false
  invAll : Bool := false
  invIdx : LineIndex c.toGeometry := 0
  invWay : Fin c.ways := 0
  data : Line c := 0
  tid : Id c := 0

/-- The inputs of one cycle. -/
structure Input (c : Cache) where
  enable : Bool := false
  flush : Bool := false
  wbufferEmpty : Bool := true
  amoReq : AmoReq := {}
  miss : Port c → Request c := fun _ => {}
  txPaddr : Fin c.maxTx → BitVec 64 := fun _ => 0
  txVld : Fin c.maxTx → Bool := fun _ => false
  memRtrn : Option (MemRtrn c) := none
  memDataAck : Bool := false

/-- The type of a request to the memory. -/
inductive Req
  | load | store | atomic
  deriving DecidableEq

/-- `dcache_req_t`. -/
structure MemData (c : Cache) where
  rtype : Req
  tid : Id c
  nc : Bool
  way : Fin c.ways
  data : BitVec 64
  size : BitVec 3
  amoOp : BitVec 4
  paddr : BitVec 64

/-- What `p_fsm` assigns. -/
structure Ctrl where
  next : Fsm
  flushAckD : Bool
  enableD : Bool
  rtype : Req := .load
  req : Bool := false
  replay : Bool := false
  flushAck : Bool := false
  amoAck : Bool := false
  updateLfsr : Bool := false
  mshrAllocate : Bool := false

section Cycle

variable (q : State c) (i : Input c)

def lockReqs : Bool := q.state == .storeWait || q.state == .loadWait

def maskReads : Bool := q.mshrVld || q.state == .drain

def amoSel : Bool := q.state == .amo || q.state == .amoWait

def flushEn : Bool := q.state == .flush

def flushDone : Bool := q.cnt == BitVec.allOnes _

/-- `miss_req_masked_d`. -/
def missReqMasked : Port c → Bool :=
  if lockReqs q then q.missReqMasked
  else if maskReads q then fun k => (i.miss k).we && (i.miss k).req
  else fun k => (i.miss k).req

/-- The first port that asks. -/
def missPortIdx : Port c := count (missReqMasked q i)

/-- The request of that port. -/
def missRequest : Request c := i.miss (missPortIdx q i)

def allWaysValid : Bool := !anyBit fun w => !(missRequest q i).vldBits w

def rndWay : Fin c.ways := Fin.ofNat c.ways (q.lfsr.toNat % 2 ^ clog2 c.ways)

def replWay : Fin c.ways :=
  if allWaysValid q i then rndWay q else count fun w => !(missRequest q i).vldBits w

/-- `mshr_rdrd_collision`. -/
def rdrdCollides (k : Port c) : Bool :=
  lineOf c q.mshr.paddr == lineOf c (i.miss k).paddr && (q.mshrVld || q.mshrVld1)

/-- `mshr_rdrd_collision_d`. -/
def rdrdCollision (k : Port c) : Bool :=
  (i.miss k).req && (q.rdrdCollision k || rdrdCollides q i k)

/-- `mshr_rdwr_collision`. -/
def rdwrCollision : Bool :=
  lineOf c q.mshr.paddr == lineOf c (i.miss writePort).paddr && q.mshrVld

/-- `tx_rdwr_collision`. -/
def txCollision : Bool :=
  anyBit fun k => lineOf c (missRequest q i).paddr == lineOf c (i.txPaddr k) && i.txVld k

def returns (rtype : Rtrn) : Bool := i.memRtrn.any fun r => r.rtype == rtype

def loadAck : Bool := returns i .loadAck

def invVld : Bool := i.memRtrn.any fun r => r.rtype == .invReq && (r.invVld || r.invAll)

def invVldAll : Bool := i.memRtrn.any fun r => r.rtype == .invReq && r.invAll

def clWriteEn : Bool := loadAck i && !q.mshr.nc

/-- The assignments before the `case`. -/
def defaults : Ctrl :=
  { next := q.state, flushAckD := q.flushAck, enableD := q.enable && i.enable }

/-- `IDLE`. A read needs the MSHR, a write only that its line is not being read. -/
def idleCtrl : Ctrl :=
  let d := defaults q i
  let quiet := i.wbufferEmpty && !q.mshrVld
  if i.flush || (i.enable && !q.enable) then
    if quiet then { d with flushAckD := i.flush, next := .flush } else { d with next := .drain }
  else if i.amoReq.req then { d with next := if quiet then .amo else .drain }
  else if anyBit (missReqMasked q i) then
    if (missRequest q i).we then
      if rdwrCollision q i then d
      else
        { d with
          req := true, rtype := .store, next := if i.memDataAck then .idle else .storeWait }
    else if !q.mshrVld || loadAck i then
      if rdrdCollision q i (missPortIdx q i) then { d with replay := true }
      else if txCollision q i then d
      else
        { d with
          req := true
          updateLfsr := allWaysValid q i && i.memDataAck
          mshrAllocate := i.memDataAck
          next := if i.memDataAck then .idle else .loadWait }
    else d
  else d

/-- `p_fsm`. -/
def fsm : Ctrl :=
  let d := defaults q i
  match q.state with
  | .idle => idleCtrl q i
  | .storeWait =>
      { d with req := true, rtype := .store, next := if i.memDataAck then .idle else .storeWait }
  | .loadWait =>
      { d with
        req := true
        updateLfsr := allWaysValid q i && i.memDataAck
        mshrAllocate := i.memDataAck
        next := if i.memDataAck then .idle else .loadWait }
  | .drain =>
      let sends := anyBit (missReqMasked q i) && !rdwrCollision q i
      { d with
        req := sends
        rtype := if sends then .store else .load
        next := if i.wbufferEmpty && !q.mshrVld then .idle else .drain }
  | .flush =>
      if flushDone q then
        { d with next := .idle, flushAck := q.flushAck, flushAckD := false, enableD := i.enable }
      else d
  | .amo =>
      { d with req := true, rtype := .atomic, next := if i.memDataAck then .amoWait else .amo }
  | .amoWait =>
      if returns i .atomicAck then { d with amoAck := true, next := .idle } else d

/-- `mem_data_o`. Atomic memory operations are not cached. -/
def memData : MemData c :=
  let r := missRequest q i
  let size := if amoSel q then i.amoReq.size.setWidth 3 else r.size
  let word := i.amoReq.operandB.extractLsb' 0 32
  { rtype := (fsm q i).rtype
    tid := if amoSel q then 1 else r.id
    nc := amoSel q || r.nc
    way := if amoSel q then 0 else replWay q i
    data :=
      if amoSel q then if i.amoReq.size = 2 then word ++ word else i.amoReq.operandB
      else r.wdata
    size := size
    amoOp := if amoSel q then i.amoReq.amoOp else 0
    paddr := c.align (if amoSel q then i.amoReq.operandA else r.paddr) size }

/-- `amo_resp_o.result`: the doubleword of the line, or its word with the sign. -/
def amoResult : BitVec 64 :=
  let line := (i.memRtrn.getD {}).data
  let base := (i.amoReq.operandA.toNat % 2 ^ c.offsetWidth) / 8
  let double : BitVec 64 := line.extractLsb' (64 * base) 64
  if i.amoReq.size = 2 then
    (double.extractLsb' (if i.amoReq.operandA.getLsbD 2 then 32 else 0) 32).signExtend 64
  else double

/-- `miss_ack_o`. -/
def missAck (k : Port c) : Bool :=
  !amoSel q && k == missPortIdx q i && i.memDataAck && (fsm q i).req

/-- `miss_replay_o`. -/
def missReplay (k : Port c) : Bool := k == missPortIdx q i && (fsm q i).replay

/-- `miss_rtrn_vld_o`. -/
def missRtrnVld (k : Port c) : Bool :=
  (loadAck i && k == q.mshr.missPortIdx) || (returns i .storeAck && k == writePort)

/-- The write port of the cache memory. -/
structure WrCl (c : Cache) where
  vld : Bool
  nc : Bool
  we : Ways c
  tag : BitVec c.tagWidth
  idx : LineIndex c.toGeometry
  off : BitVec c.offsetWidth
  data : Line c
  dataBe : Bool
  vldBits : Ways c

/-- `wr_cl_*_o`: a flush goes before an invalidation, and that before a refill. -/
def wrCl : WrCl c :=
  let oneHot (w : Fin c.ways) : Ways c := fun k => k == w
  let r := i.memRtrn.getD {}
  let we : Ways c :=
    if flushEn q then fun _ => true
    else if invVldAll i then fun _ => true
    else if invVld i then oneHot r.invWay
    else if clWriteEn q i then oneHot q.mshr.replWay
    else fun _ => false
  { vld := loadAck i || anyBit we
    nc := q.mshr.nc
    we := we
    tag := tagOf c q.mshr.paddr
    idx := if flushEn q then q.cnt else if invVld i then r.invIdx else indexOf c q.mshr.paddr
    off := offsetOf c q.mshr.paddr
    data := r.data
    dataBe := clWriteEn q i
    vldBits :=
      if flushEn q then fun _ => false
      else if invVld i then fun _ => false
      else if clWriteEn q i then oneHot q.mshr.replWay
      else fun _ => false }

/-- `shift_d` of the replacement unit. -/
def nextLfsr (x : BitVec 8) : BitVec 8 :=
  x.extractLsb' 0 7 ++
    BitVec.ofBool (!(x.getLsbD 7 ^^ x.getLsbD 3 ^^ x.getLsbD 2 ^^ x.getLsbD 1))

/-- What the MSHR takes from a port. -/
def allocated : Mshr c :=
  let r := missRequest q i
  { paddr := r.paddr
    size := r.size
    vldBits := r.vldBits
    id := r.id
    nc := r.nc
    replWay := replWay q i
    missPortIdx := missPortIdx q i }

/-- The registers after a cycle. -/
def next : State c :=
  let f := fsm q i
  { state := f.next
    cnt := if flushEn q then q.cnt + 1 else 0
    enable := f.enableD
    flushAck := f.flushAckD
    mshr := if f.mshrAllocate then allocated q i else q.mshr
    mshrVld := if f.mshrAllocate then true else if loadAck i then false else q.mshrVld
    mshrVld1 := q.mshrVld
    rdrdCollision := rdrdCollision q i
    missReqMasked := missReqMasked q i
    lfsr := if f.updateLfsr then nextLfsr q.lfsr else q.lfsr }

end Cycle

end Ariane.MissUnit
