import Ariane.CachePorts
import Mathlib.Data.List.Nodup
import Mathlib.Logic.Function.Basic
import Mathlib.Tactic.MkIffOfInductiveProp

set_option autoImplicit false

/- The AXI port of the caches with a slave at it, and the requests, transactions and packets of a
run. -/
namespace Ariane.CachePorts

open AxiAdapter2 (AxiAddr AxiBeat AxiReq AxiResp)
open Rtl (Machine)

/-- A request of one of the caches. -/
inductive Request (p : Params) where
  | icache (r : IcacheReq p)
  | dcache (r : DcacheReq p)
  deriving DecidableEq

/-- A transaction that the slave has completed: a read with its words, or a write. -/
structure Completion where
  write : Bool
  number : Nat
  words : List (BitVec 64)
  deriving DecidableEq

/-- The slave: the addresses and the write data that it has taken, the beats that it has sent for
each read, and what it has completed. -/
structure Slave (p : Params) where
  ars : List (AxiAddr p.axiIdWidth) := []
  sent : Nat → List (BitVec 64) := fun _ => []
  aws : List (AxiAddr p.axiIdWidth) := []
  ws : List AxiBeat := []
  completed : List Completion := []

/-- What the slave wants to do in a cycle: a beat of any read, the response of any write. What it
drives on a channel that is not valid is arbitrary. -/
structure Move (p : Params) where
  awReady : Bool := false
  wReady : Bool := false
  arReady : Bool := false
  beat : Option (Nat × BitVec 64) := none
  answer : Option Nat := none
  invalid : AxiResp p.axiIdWidth := {}

attribute [local instance] twoPorts

variable {p : Params}

namespace Slave

variable (v : Slave p) (m : Move p)

/-- The beats of a read. -/
def burst (k : Nat) : Nat := (v.ars[k]?.map fun ar => ar.len.toNat + 1).getD 0

/-- The beat that is sent: of a read that has been taken and is not complete. -/
def beat : Option (Nat × BitVec 64) :=
  m.beat.filter fun b => decide ((v.sent b.1).length < v.burst b.1)

def lastBeat (k : Nat) : Bool := decide ((v.sent k).length + 1 = v.burst k)

/-- The response that is offered: of a write of which address and data have been taken, and which
has not been answered. -/
def answer : Option Nat :=
  m.answer.filter fun k => decide (k < v.aws.length) && decide (k < v.ws.length) &&
    decide (⟨true, k, []⟩ ∉ v.completed)

/-- `axi_resp_i`. -/
def resp : AxiResp p.axiIdWidth where
  awReady := m.awReady
  wReady := m.wReady
  bValid := (v.answer m).isSome
  bId := ((v.answer m).bind fun k => v.aws[k]?.map AxiAddr.id).getD m.invalid.bId
  arReady := m.arReady
  rValid := (v.beat m).isSome
  rId := ((v.beat m).bind fun b => v.ars[b.1]?.map AxiAddr.id).getD m.invalid.rId
  rData := ((v.beat m).map Prod.snd).getD m.invalid.rData
  rLast := ((v.beat m).map fun b => v.lastBeat b.1).getD m.invalid.rLast

/-- The write that is answered. -/
def answered (a : AxiReq p.axiIdWidth) : List Completion :=
  if a.bReady then (v.answer m).toList.map fun k => ⟨true, k, []⟩ else []

/-- The beat that is taken. -/
def taken (a : AxiReq p.axiIdWidth) : Option (Nat × BitVec 64) :=
  if a.rReady then v.beat m else none

/-- The read that is complete with the beat. -/
def finished (a : AxiReq p.axiIdWidth) : List Completion :=
  ((v.taken m a).filter fun b => v.lastBeat b.1).toList.map fun b =>
    ⟨false, b.1, v.sent b.1 ++ [b.2]⟩

/-- The slave after a cycle. -/
def next (a : AxiReq p.axiIdWidth) : Slave p where
  ars := v.ars ++ if a.arValid && m.arReady then [a.ar] else []
  sent k := v.sent k ++ ((v.taken m a).filter fun b => b.1 == k).toList.map Prod.snd
  aws := v.aws ++ if a.awValid && m.awReady then [a.aw] else []
  ws := v.ws ++ if a.wValid && m.wReady then [a.w] else []
  completed := v.completed ++ v.answered m a ++ v.finished m a

end Slave

/-- A cycle: the requests of the caches and the move of the slave. -/
structure Cycle (p : Params) extends Requests p where
  move : Move p := {}

/-- The port and the slave, with the requests taken from the caches, those acknowledged on the way
to AXI, and the packets that reached the caches. -/
structure Traffic (p : Params) where
  regs : State p := {}
  slave : Slave p := {}
  accepted : List (Request p) := []
  acked : List (Request p) := []
  returned : List (Return p) := []

namespace Traffic

variable (t : Traffic p) (i : Cycle p)

def resp : AxiResp p.axiIdWidth := t.slave.resp i.move

/-- The request at the output of the arbiter. -/
def granted (s : State p) : Request p :=
  if arbIdx s = 0 then .icache (icacheData s) else .dcache (dcacheData s)

/-- The next cycle. -/
def next : Traffic p where
  regs := CachePorts.next t.regs i.toRequests (t.resp i)
  slave := t.slave.next i.move (axiReq t.regs (t.resp i))
  accepted := t.accepted ++ (icacheAccepted t.regs i.toRequests).map .icache ++
    (dcacheAccepted t.regs i.toRequests).map .dcache
  acked := t.acked ++ if l15Ack t.regs (t.resp i) then [granted t.regs] else []
  returned := t.returned ++ CachePorts.returned t.regs

end Traffic

/-- Runs from reset. -/
def traffic (p : Params) : Machine (Traffic p) (Cycle p) where
  reset := {}
  next := Traffic.next

namespace Request

def icache? : Request p → Option (IcacheReq p)
  | .icache r => some r
  | .dcache _ => none

def dcache? : Request p → Option (DcacheReq p)
  | .icache _ => none
  | .dcache r => some r

def isRead : Request p → Bool
  | .icache _ => true
  | .dcache r => r.rtype == .loadReq

def isStore : Request p → Bool
  | .icache _ => false
  | .dcache r => r.rtype == .storeReq

def paddr : Request p → BitVec 64
  | .icache r => r.paddr
  | .dcache r => r.paddr

def nc : Request p → Bool
  | .icache r => r.nc
  | .dcache r => r.nc

def tid : Request p → BitVec p.tidWidth
  | .icache r => r.tid
  | .dcache r => r.tid

/-- The words of a read: a line, or one word. -/
def words : Request p → Nat
  | .icache r => if r.nc then 1 else p.icacheLineWidth / 64
  | .dcache r => if r.size.getLsbD 2 then p.dcacheLineWidth / 64 else 1

/-- The size of a beat. Instructions come in words of 64 bits. -/
def beatSize : Request p → BitVec 2
  | .icache _ => 3
  | .dcache r => r.size.setWidth 2

/-- The read transaction of a request. -/
def readAddr (r : Request p) : AxiAddr p.axiIdWidth where
  id := axiId p r.tid r.icache?.isSome r.nc
  addr := r.paddr
  len := BitVec.ofNat 8 (r.words - 1)
  size := r.beatSize.setWidth 3
  burst := if r.words = 1 then 0 else 1

/-- The address of the write transaction of a request. -/
def writeAddr (r : Request p) : AxiAddr p.axiIdWidth where
  id := axiId p r.tid false r.nc
  addr := r.paddr
  len := 0
  size := r.beatSize.setWidth 3
  burst := 0

/-- The data of the write transaction of a request. -/
def writeBeat (r : Request p) : AxiBeat where
  data := endian p (r.dcache?.getD {}).data
  strb := p.toByteEnable8 (r.paddr.setWidth 3) r.beatSize
  last := true

end Request

/-- The acknowledge of a request type. -/
def DcacheOut.ack : DcacheOut → DcacheIn
  | .storeReq => .storeAck
  | .loadReq => .loadAck
  | .atomicReq => .atomicAck

/-- The packet answers the request: at the cache that issued it, with its type, its transaction
identifier, its flag, and the words that the packet has room for. -/
def Answers (words : List (BitVec 64)) : Request p → Return p → Prop
  | .icache r, .icache packet =>
      packet.rtype = .ifillAck ∧ packet.tid = r.tid ∧ packet.nc = r.nc ∧
        ∀ (k : Fin 4) (word : BitVec 64), words[k.val]? = some word →
          packet.data k = endian p word
  | .dcache r, .dcache packet =>
      packet.rtype = r.rtype.ack ∧ packet.tid = r.tid ∧ packet.nc = r.nc ∧
        ∀ (k : Fin 2) (word : BitVec 64), words[k.val]? = some word →
          packet.data k = endian p word
  | _, _ => False

namespace Traffic

variable (t : Traffic p)

def reads : List (Request p) := t.acked.filter Request.isRead

def stores : List (Request p) := t.acked.filter Request.isStore

/-- The packet answers the request of the transaction. -/
def Matches (c : Completion) (packet : Return p) : Prop :=
  ∃ r, (if c.write then t.stores else t.reads)[c.number]? = some r ∧ Answers c.words r packet

end Traffic

/-- Every request is answered once: what is taken from a cache is acknowledged in order or waits,
what is acknowledged is one transaction, and what the slave has completed is one packet at the
cache, but for two packets at most that are on their way. -/
structure Answered (t : Traffic p) : Prop where
  icache : t.accepted.filterMap Request.icache? =
    t.acked.filterMap Request.icache? ++ t.regs.icache
  dcache : t.accepted.filterMap Request.dcache? =
    t.acked.filterMap Request.dcache? ++ t.regs.dcache
  kinds : ∀ r ∈ t.acked, r.isRead = true ∨ r.isStore = true
  ars : t.slave.ars = t.reads.map Request.readAddr
  writes : ∃ addressed written : List (Request p),
    t.slave.aws = (t.stores ++ addressed).map Request.writeAddr ∧
      t.slave.ws = (t.stores ++ written).map Request.writeBeat ∧
      (addressed ++ written = [] ∨
        ∃ r rest, t.regs.dcache = r :: rest ∧ addressed ++ written = [.dcache r])
  once : (t.slave.completed.map fun c => (c.write, c.number)).Nodup
  returned : ∃ late : List (Return p), late.length ≤ 2 ∧
    List.Forall₂ t.Matches t.slave.completed (t.returned ++ late)

/-- The steps of the condition: no atomic request is taken, addresses fit into the request of the
adapter, and within a burst the slave does not drive `r.last` in a cycle without a beat. -/
@[mk_iff]
structure Supported (t : Traffic p) (i : Cycle p) : Prop where
  icache : ∀ r ∈ icacheAccepted t.regs i.toRequests, r.paddr.toNat < 2 ^ p.l15AddressWidth
  dcache : ∀ r ∈ dcacheAccepted t.regs i.toRequests,
    r.rtype ≠ .atomicReq ∧ r.paddr.toNat < 2 ^ p.l15AddressWidth
  last : (t.resp i).rValid = false → (t.resp i).rLast = true → t.regs.axi.rdCnt = 0

instance (t : Traffic p) (i : Cycle p) : Decidable (Supported t i) :=
  decidable_of_iff _ (supported_iff t i).symm

/-- The identifiers fit, lines have up to eight words, and the return FIFO has two entries. -/
structure Params.Fits (p : Params) : Prop where
  ids : p.tidWidth + 2 ≤ p.axiIdWidth
  icacheLine : 64 ≤ p.icacheLineWidth ∧ p.icacheLineWidth ≤ 512
  dcacheLine : 64 ≤ p.dcacheLineWidth ∧ p.dcacheLineWidth ≤ 512
  rtrnFifo : 2 ≤ p.adapterRtrnFifoDepth

end Ariane.CachePorts
