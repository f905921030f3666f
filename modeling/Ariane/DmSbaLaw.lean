import Ariane.DmSbaAccess

set_option autoImplicit false

/- An access of the debugger to the system bus: what it has to do, and where it does. -/
namespace Ariane.Dm

open AxiAdapter (Params Request Bench Memory Phase firstLane byteAt byteOf wordOf)

variable {nrHarts : Nat}

/-- What an access does when it ends. -/
structure Done (s : System nrHarts) (i : SystemInput nrHarts) (j : Job) : Prop where
  /-- The bus saw one access, at the address and of the size that were asked for. -/
  once : ∃ r, (s.bus.record (s.busInput i)).granted = [r] ∧
    (s.bus.record (s.busInput i)).aws = (if j.we then [r.aw] else []) ∧
    (s.bus.record (s.busInput i)).ars = (if j.we then [] else [r.ar]) ∧
    r.single = true ∧ r.we = j.we ∧ r.addr = j.addr ∧ r.size.toNat = j.size.toNat
  /-- A write stores the low bytes at their addresses and nothing else. -/
  store : ∀ a, (s.next i).mem.byte a =
    if j.we = true ∧ (a - j.addr).toNat < 2 ^ j.size.toNat then
      byteAt j.data (a - j.addr).toNat
    else s.mem.byte a
  /-- A read returns the bytes in the low bits. -/
  load : j.we = false → ∀ k, k < 2 ^ j.size.toNat →
    byteAt (s.next i).csrs.sbdata k = s.mem.byte (j.addr + BitVec.ofNat 64 k)
  address : (s.next i).csrs.sbaddr =
    if s.csrs.sbcs.sbautoincrement then j.addr + BitVec.ofNat 64 (2 ^ j.size.toNat) else j.addr

/-- What the debugger can rely on in a cycle. -/
structure Law (s : System nrHarts) (i : SystemInput nrHarts) : Prop where
  busy : sbaBusy s.sba = s.job.isSome
  /-- A trigger starts an access, with the address and the data as they are now. -/
  started : ∀ j, s.trigger i = some j → (s.next i).job = some j ∧
    (s.next i).csrs.sbaddr = j.addr ∧ (s.next i).csrs.sbdata = j.data
  /-- It goes on until its response, whatever is accessed. -/
  running : ∀ j, s.job = some j → (s.output i).valid = false → (s.next i).job = some j ∧
    (s.next i).mem = s.mem ∧ (s.next i).csrs.sbaddr = j.addr ∧ (s.next i).csrs.sbdata = j.data
  done : (s.output i).valid = true → ∃ j, s.job = some j ∧ (s.next i).job = none ∧ Done s i j
  rest : s.job = none → (s.next i).mem = s.mem
  /-- An access to the registers while the bus is busy only leaves its mark. -/
  refused : s.job.isSome = true → ∀ r, i.request = some r → (decode r.addr).systemBus = true →
    r.op = dtmRead ∨ r.op = dtmWrite →
    (s.next i).csrs.sbcs = { s.csrs.sbcs with sbbusyerror := true, sbbusy := true }

/-- The byte on the lane of the address is the one in the lowest lane. -/
def Job.Lanes (j : Job) (mem : Memory) : Prop :=
  if j.we then byteAt j.data (byteOf j.addr) = byteAt j.data 0
  else mem.byte j.addr = byteAt (mem (wordOf j.addr)) 0

/-- Bytes in the lowest lane, and no writes of the registers while the bus is busy. -/
structure Condition (s : System nrHarts) (i : SystemInput nrHarts) : Prop where
  bytes : ∀ j, s.trigger i = some j → j.size = 0 ∧ j.Lanes s.mem
  quiet : s.job.isSome = true → ∀ r, i.request = some r → r.op = dtmWrite →
    (decode r.addr).systemBus = false

/-- The slave answers what it took, and the debug module stays active. -/
structure Environment (s : System nrHarts) (i : SystemInput nrHarts) : Prop where
  slave : AxiAdapter.Slave s.bus (s.busInput i)
  active : ∀ r, i.request = some r → r.op = dtmWrite → decode r.addr = .dmControl →
    r.data.getLsbD 0 = true

/-- The request that the adapter gets for a byte. -/
def Job.request (j : Job) : Request sbaPort where
  single := true
  addr := j.addr
  we := j.we
  wdata := fun _ => j.data
  be := fun _ => if j.we then 1 <<< byteOf j.addr else 0
  size := 0
  id := 0

/-- The registers hold the access. -/
structure Holds (s : System nrHarts) (j : Job) : Prop where
  job : s.job = some j
  addr : s.csrs.sbaddr = j.addr
  data : s.csrs.sbdata = j.data
  size : j.size = 0
  lanes : j.Lanes s.mem

/-- Where an access is. -/
inductive Stage (s : System nrHarts) : Prop
  | idle (state : s.sba = .idle) (job : s.job = none) (granted : s.bus.log.granted = [])
      (pending : s.bus.pending = none)
  | asking (j : Job) (state : s.sba = if j.we then .write else .read) (holds : Holds s j)
      (granted : s.bus.log.granted = [])
      (pending : s.bus.pending = none ∨ s.bus.pending = some j.request)
  | waiting (j : Job) (state : s.sba = if j.we then .waitWrite else .waitRead) (holds : Holds s j)
      (granted : s.bus.log.granted = [j.request]) (pending : s.bus.pending = none)

structure Inv (s : System nrHarts) : Prop where
  on : s.csrs.dmcontrol.dmactive = true
  phase : Phase s.bus
  served : s.bus.log.ReadFrom s.mem
  stage : Stage s

end Ariane.Dm
