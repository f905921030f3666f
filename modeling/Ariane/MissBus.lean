import Ariane.AmoOperation
import Ariane.MissMemory

set_option autoImplicit false

/- The miss handler with the adapter of its refills and the memory behind the bus. The lines of the
cache are inputs. -/
namespace Ariane.MissBus

open AxiAdapter (Params Request Bench Log Memory byteAt wordOf)
open MissHandler (Geometry Address Align Victim State Input Output MissReq AmoReq MissAxi LineData
  CacheLine cacheManagement noStore operates)
open Rtl (Machine)

variable {g : Geometry}

/-- The adapter of the refills. -/
abbrev port (g : Geometry) : Params := ⟨g.wordBits, false, 4, g.wordBits + 3⟩

/-- The bits of an address. -/
def bits (a : Address g) : BitVec 64 := (a.tag ++ (a.set ++ (a.word ++ a.byte))).setWidth 64

/-- The widths for which the parts fit together: lines have at least two words and one burst moves
them, and an address has 64 bits. -/
structure Fits (g : Geometry) : Prop where
  line : 0 < g.wordBits
  burst : g.wordBits ≤ 8
  address : g.tagWidth + (g.setBits + (g.wordBits + 3)) ≤ 64

/-- `req_fsm_miss_*`: only the accesses of atomic operations are single. -/
def request (axi : MissAxi g) (size : BitVec 2) : Request (port g) where
  single := axi.single
  addr := bits axi.addr
  we := axi.we
  wdata := fun k => axi.wdata (BitVec.ofNat _ k.val)
  be := fun k => if axi.single ∧ k.val ≠ 0 then 0 else axi.be
  size := if axi.single then size else 3
  id := 0xC

/-- `data_miss_fsm`. -/
def lineData (words : AxiAdapter.Words (port g)) : LineData g := fun w => words ⟨w.toNat, w.isLt⟩

/-- The handler, the adapter, the memory and the operations that were acknowledged. -/
structure System (g : Geometry) where
  handler : State g := {}
  bus : Bench (port g) := {}
  mem : Memory
  /-- The operation that ran in the last cycle and was not acknowledged. -/
  running : Option (AmoReq g) := none
  done : List (AmoReq g) := []

/-- The requests of the core, the lines of the cache and the signals of the slave. -/
structure SystemInput (g : Geometry) where
  flush : Bool := false
  busy : Bool := false
  missReq : List (MissReq g) := []
  amo : AmoReq g := {}
  lfsr : Fin g.ways
  dataI : Fin g.ways → CacheLine g := fun _ => {}
  awReady : Bool := false
  wReady : Bool := false
  arReady : Bool := false
  bValid : Bool := false
  bId : BitVec 4 := 0
  rValid : Bool := false
  rLast : Bool := false
  rId : BitVec 4 := 0

namespace System

variable (victim : Victim g) (align : Align) (s : System g) (i : SystemInput g)

/-- The inputs of the handler. -/
def handlerInput (gnt valid : Bool) (data : LineData g) : Input g where
  flush := i.flush
  busy := i.busy
  missReq := i.missReq
  amo := i.amo
  gnt := gnt
  valid := valid
  data := data
  lfsr := i.lfsr
  dataI := i.dataI

/-- The request of the handler, which does not depend on the answer. -/
def axi : MissAxi g :=
  (cacheManagement victim align s.handler (handlerInput i false false fun _ => 0)).axi

/-- The request and the slave at the adapter. The memory gives the words. -/
def busInput : AxiAdapter.Input (port g) where
  req := (s.axi victim align i).valid
  request := request (s.axi victim align i) i.amo.size
  awReady := i.awReady
  wReady := i.wReady
  arReady := i.arReady
  bValid := i.bValid
  bId := i.bId
  rValid := i.rValid
  rLast := i.rLast
  rData := s.bus.log.nextWord s.mem
  rId := i.rId

/-- What the adapter answers. -/
def adapter : AxiAdapter.Output (port g) := s.bus.output (s.busInput victim align i)

/-- The inputs of the handler with that answer. -/
def answered : Input g :=
  handlerInput i (s.adapter victim align i).gnt (s.adapter victim align i).valid
    (lineData (s.adapter victim align i).rdata)

/-- What the handler does. -/
def output : Output g := cacheManagement victim align s.handler (s.answered victim align i)

/-- What happened on the bus since the last response, with this cycle. -/
def record : Log (port g) := s.bus.record (s.busInput victim align i)

/-- One cycle. -/
def next : System g where
  handler := (s.output victim align i).next
  bus :=
    { regs := (s.adapter victim align i).regs
      -- while it waits for the response of a write, the adapter does not look at the request
      pending :=
        if (s.axi victim align i).valid && !(s.adapter victim align i).gnt &&
            s.bus.regs.state != .waitBValid then
          some (request (s.axi victim align i) i.amo.size)
        else none
      log := if (s.adapter victim align i).valid then {} else s.record victim align i }
  mem :=
    if (s.adapter victim align i).valid && (s.adapter victim align i).bReady then
      (s.record victim align i).commit s.mem
    else s.mem
  running :=
    if operates s.handler.state && !(s.output victim align i).amoAck then some i.amo else none
  done := if (s.output victim align i).amoAck then s.done ++ [i.amo] else s.done

end System

/-- The handler after reset, in front of a memory. -/
def system (victim : Victim g) (align : Align) (mem : Memory) :
    Machine (System g) (SystemInput g) :=
  ⟨{ mem := mem }, System.next victim align⟩

/-- The slave answers what it took, and an operation is held while it runs. -/
structure Environment (victim : Victim g) (align : Align) (s : System g) (i : SystemInput g) :
    Prop where
  slave : AxiAdapter.Slave s.bus (s.busInput victim align i)
  held : ∀ a, s.running = some a → i.amo = a

/-- The last reservation before a store conditional is for its doubleword, and no other store
conditional came in between. -/
def Reserved (done : List (AmoReq g)) (a : Address g) : Prop :=
  ∃ before lr after, done = before ++ lr :: after ∧ lr.op = .lr ∧
    wordOf (bits lr.operandA) = wordOf (bits a) ∧
    ∀ x ∈ after, x.op ≠ .sc ∧ (x.op = .lr → wordOf (bits x.operandA) = wordOf (bits a))

/-- What an operation did when it is acknowledged. -/
structure Done (victim : Victim g) (align : Align) (s : System g) (i : SystemInput g) :
    Prop where
  /-- It returns the old value, or whether the store failed. -/
  result : (s.output victim align i).amoResult =
    if i.amo.op = .sc then if noStore s.handler.reservation i.amo then 1 else 0
    else Amo.value s.mem (bits i.amo.operandA) i.amo.size
  /-- The value is made of the bytes at the address. -/
  value : ∀ k, k < 2 ^ i.amo.size.toNat →
    byteAt (Amo.value s.mem (bits i.amo.operandA) i.amo.size) k =
      s.mem.byte (bits i.amo.operandA + BitVec.ofNat 64 k)
  /-- The bytes at the address get the result, the others stay. -/
  memory : ∀ b, (s.next victim align i).mem.byte b =
    if noStore s.handler.reservation i.amo = false ∧
        (b - bits i.amo.operandA).toNat < 2 ^ i.amo.size.toNat then
      byteAt (Amo.stored i.amo.op i.amo.size
        (Amo.value s.mem (bits i.amo.operandA) i.amo.size) i.amo.operandB)
        (b - bits i.amo.operandA).toNat
    else s.mem.byte b
  /-- The bus saw one write, or none. -/
  writes : (s.record victim align i).aws.length =
      (if noStore s.handler.reservation i.amo then 0 else 1) ∧
    (s.record victim align i).beats.length =
      (if noStore s.handler.reservation i.amo then 0 else 1)

/-- What holds in every cycle. -/
structure Law (victim : Victim g) (align : Align) (s : System g) (i : SystemInput g) :
    Prop where
  /-- An operation that runs leaves the memory alone until it is acknowledged. Before its load, a line
  that was written back may still arrive. -/
  kept : operates s.handler.state = true → (s.output victim align i).amoAck = false →
    (s.next victim align i).mem = s.mem ∨ s.handler.state = .amoLoad ∧
      ∃ r, s.bus.log.granted = [r] ∧ r.single = false ∧ r.we = true
  /-- It ends with its acknowledgement. -/
  ends : (s.output victim align i).amoAck = true →
    s.handler.state = .amoStore ∧ (s.next victim align i).handler.state = .idle
  done : (s.output victim align i).amoAck = true → Amo.Natural i.amo → i.amo.op ≠ .none →
    Done victim align s i
  /-- When a store conditional succeeds. -/
  conditional : (s.output victim align i).amoAck = true → i.amo.op = .sc →
    ((s.output victim align i).amoResult = 0 ↔ Reserved s.done i.amo.operandA)

end Ariane.MissBus
