import Ariane.FifoContents
import Ariane.RrArbiter
import Mathlib.Data.Fintype.Basic

set_option autoImplicit false

/- `serpent_dcache_wbuffer.sv`: the coalescing write buffer of the OpenPiton data cache. -/
namespace Ariane.WriteBuffer

open RrArbiter (anyBit count)
open Rtl (Queue Machine)

/-- The parameters of the cache and of the buffer. The arbiters need two requesters, a line has
two words. -/
structure Geometry where
  tagWidth : Nat
  indexWidth : Nat
  offsetWidth : Nat
  ways : Nat
  depth : Nat
  maxTx : Nat
  cachedAddrBeg : BitVec 64
  cachedAddrEnd : BitVec 64
  entries : 2 ≤ depth
  slots : 2 ≤ maxTx
  words : 4 ≤ offsetWidth
  lines : offsetWidth ≤ indexWidth
  fits : tagWidth + indexWidth ≤ 64

variable {g : Geometry}

instance neZeroDepth : NeZero g.depth := ⟨by have entries := g.entries; omega⟩

instance neZeroMaxTx : NeZero g.maxTx := ⟨by have slots := g.slots; omega⟩

scoped instance neZeroLanes : NeZero 8 := ⟨by decide⟩

/-- One bit for each byte of a word. -/
abbrev Bytes := Fin 8 → Bool

/-- The bytes of a word. -/
abbrev Data := Fin 8 → BitVec 8

/-- The address of a word: the tag and the index above the byte offset. -/
abbrev WordTag (g : Geometry) := BitVec (g.tagWidth + (g.indexWidth - 3))

/-- The index of a line. -/
abbrev LineIndex (g : Geometry) := BitVec (g.indexWidth - g.offsetWidth)

/-- `wtag << 3`. -/
def paddr (wtag : WordTag g) : BitVec 64 := wtag.setWidth 64 <<< 3

/-- `wbuffer_t`. -/
structure Entry (g : Geometry) where
  wtag : WordTag g := 0
  data : Data := fun _ => 0
  dirty : Bytes := fun _ => false
  valid : Bytes := fun _ => false
  txblock : Bytes := fun _ => false
  checked : Bool := false
  hitOh : Fin g.ways → Bool := fun _ => false

/-- `tx_stat_t`. -/
structure TxStat (g : Geometry) where
  vld : Bool := false
  be : Bytes := fun _ => false
  ptr : Fin g.depth := 0

/-- The functions of the cache package that choose and shape a transfer: a run of dirty bytes that
starts at the first one, in its own lanes. -/
structure Transfers where
  toSize64 : Bytes → BitVec 3
  toByteEnable8 : Fin 8 → BitVec 2 → Bytes
  repData64 : Data → Fin 8 → BitVec 2 → Data
  covers : ∀ (dirty : Bytes) (j : Fin 8), anyBit dirty = true →
    toByteEnable8 (count dirty) ((toSize64 dirty).setWidth 2) j =
      decide (count dirty ≤ j ∧ j.val < (count dirty).val + 2 ^ (toSize64 dirty).toNat)
  ready : ∀ (dirty : Bytes) (j : Fin 8), anyBit dirty = true →
    toByteEnable8 (count dirty) ((toSize64 dirty).setWidth 2) j = true → dirty j = true
  lanes : ∀ (dirty : Bytes) (data : Data) (j : Fin 8), anyBit dirty = true →
    toByteEnable8 (count dirty) ((toSize64 dirty).setWidth 2) j = true →
      repData64 data (count dirty) ((toSize64 dirty).setWidth 2) j = data j

/-- The registers. -/
structure State (g : Geometry) where
  wbuffer : Fin g.depth → Entry g := fun _ => {}
  txStat : Fin g.maxTx → TxStat g := fun _ => {}
  ncPending : Bool := false
  checkPtr : Fin g.depth := 0
  checkPtr1 : Fin g.depth := 0
  checkEn : Bool := false
  checkEn1 : Bool := false
  rdTag : BitVec g.tagWidth := 0
  rdHitOh : Fin g.ways → Bool := fun _ => false
  wrClVld : Bool := false
  wrClIdx : LineIndex g := 0
  rtrnIdFifo : Queue (Fin g.maxTx) := ⟨fun _ => 0, 0, 0, 0⟩
  txIdRr : RrArbiter.State g.maxTx := RrArbiter.reset
  dirtyRr : RrArbiter.State g.depth := RrArbiter.reset
  cleanRr : RrArbiter.State g.depth := RrArbiter.reset

/-- The inputs of one cycle. -/
structure Input (g : Geometry) where
  cacheEn : Bool := true
  dataReq : Bool := false
  addressTag : BitVec g.tagWidth := 0
  addressIndex : BitVec g.indexWidth := 0
  dataBe : Bytes := fun _ => false
  dataWdata : Data := fun _ => 0
  missAck : Bool := false
  missRtrnVld : Bool := false
  missRtrnId : Fin g.maxTx := 0
  rdAck : Bool := false
  rdHitOh : Fin g.ways → Bool := fun _ => false
  wrClVld : Bool := false
  wrClIdx : LineIndex g := 0
  wrAck : Bool := false

section Cycle

variable (t : Transfers) (q : State g) (i : Input g)

/-- `addr_is_nc`. -/
def addrIsNc : Bool :=
  decide (i.addressTag.toNat < (g.cachedAddrBeg >>> g.indexWidth).toNat) ||
    decide ((g.cachedAddrEnd >>> g.indexWidth).toNat ≤ i.addressTag.toNat) || !i.cacheEn

/-- Dirty bytes that may be sent: nothing is resent while the word is in flight. -/
def bdirty (k : Fin g.depth) : Bytes := fun j =>
  !anyBit (q.wbuffer k).txblock && ((q.wbuffer k).dirty j && (q.wbuffer k).valid j)

def dirty (k : Fin g.depth) : Bool := anyBit (bdirty q k)

def valid (k : Fin g.depth) : Bool := anyBit (q.wbuffer k).valid

/-- The address of the request. -/
def requestTag : WordTag g :=
  i.addressTag ++ i.addressIndex.extractLsb' 3 (g.indexWidth - 3)

def wbufferHitOh (k : Fin g.depth) : Bool :=
  valid q k && decide ((q.wbuffer k).wtag = requestTag i)

/-- The word is the one at the start of the line: the comparison of `inval_hit`. -/
def hitsLine (wtag : WordTag g) (idx : LineIndex g) : Bool :=
  decide (wtag.setWidth g.indexWidth <<< 3 = idx.setWidth g.indexWidth <<< g.offsetWidth)

def invalHit (k : Fin g.depth) : Bool :=
  (i.wrClVld && valid q k && hitsLine (q.wbuffer k).wtag i.wrClIdx) ||
    (q.wrClVld && valid q k && hitsLine (q.wbuffer k).wtag q.wrClIdx)

def tocheck (k : Fin g.depth) : Bool := !(q.wbuffer k).checked && valid q k

/-- `tx_vld_o`. -/
def txVld (s : Fin g.maxTx) : Bool := (q.txStat s).vld

def freeTxSlots : Bool := anyBit fun s => !txVld q s

def txId : Fin g.maxTx := RrArbiter.idx true q.txIdRr fun s => !txVld q s

def dirtyPtr : Fin g.depth := RrArbiter.idx true q.dirtyRr (dirty q)

def checkPtrD : Fin g.depth := RrArbiter.idx false q.cleanRr (tocheck q)

def missReq : Bool := anyBit (dirty q) && freeTxSlots q

def bdirtyOff : Fin 8 := count (bdirty q (dirtyPtr q))

def missSize : BitVec 3 := t.toSize64 (bdirty q (dirtyPtr q))

def missWdata : Data :=
  t.repData64 (q.wbuffer (dirtyPtr q)).data (bdirtyOff q) ((missSize t q).setWidth 2)

/-- `miss_paddr_o`. -/
def missPaddr : BitVec 64 :=
  paddr (q.wbuffer (dirtyPtr q)).wtag ||| BitVec.ofNat 64 (bdirtyOff q).val

def txBe : Bytes := t.toByteEnable8 (bdirtyOff q) ((missSize t q).setWidth 2)

def dirtyRdEn : Bool := missReq q && i.missAck

/-- `rtrn_id`, `rtrn_empty` and `rtrn_ptr`. -/
def rtrnId : Fin g.maxTx := FifoV3.front q.rtrnIdFifo

def rtrnEmpty : Bool := FifoV3.empty q.rtrnIdFifo

def rtrnPtr : Fin g.depth := (q.txStat (rtrnId q)).ptr

/-- The clean bytes that go to the cache. -/
def wrDataBe : Bytes := fun j =>
  (q.txStat (rtrnId q)).be j && !(q.wbuffer (rtrnPtr q)).dirty j

/-- The word that returned is written to the cache, if the cache holds it. -/
def updates : Bool := anyBit (wrDataBe q) && anyBit (q.wbuffer (rtrnPtr q)).hitOh

def wrReq : Fin g.ways → Bool := fun w =>
  !rtrnEmpty q && (q.wbuffer (rtrnPtr q)).checked && updates q && (q.wbuffer (rtrnPtr q)).hitOh w

/-- The word write port to the cache. -/
def wrIdx : LineIndex g :=
  (paddr (q.wbuffer (rtrnPtr q)).wtag).extractLsb' g.offsetWidth (g.indexWidth - g.offsetWidth)

def wrOff : BitVec g.offsetWidth := (paddr (q.wbuffer (rtrnPtr q)).wtag).setWidth g.offsetWidth

def wrData : Data := (q.wbuffer (rtrnPtr q)).data

def evict : Bool :=
  !rtrnEmpty q && (q.wbuffer (rtrnPtr q)).checked && (!updates q || i.wrAck)

def rdReq : Bool := anyBit (tocheck q)

def checkEnD : Bool := rdReq q && i.rdAck

/-- `rd_paddr`. -/
def rdPaddr : BitVec 64 := paddr (q.wbuffer (checkPtrD q)).wtag

def rdIdx : LineIndex g :=
  (rdPaddr q).extractLsb' g.offsetWidth (g.indexWidth - g.offsetWidth)

def rdOff : BitVec g.offsetWidth := (rdPaddr q).setWidth g.offsetWidth

/-- `tx_paddr_o`. -/
def txPaddr (s : Fin g.maxTx) : BitVec 64 := paddr (q.wbuffer (q.txStat s).ptr).wtag

def emptyO : Bool := !anyBit (valid q)

def full : Bool := !anyBit fun k => !valid q k

def wrPtr : Fin g.depth :=
  if anyBit (wbufferHitOh q i) then count (wbufferHitOh q i) else count fun k => !valid q k

def rdy : Bool := anyBit (wbufferHitOh q i) || !full q

/-- `wbuffer_wren`, also `data_gnt`. -/
def wbufferWren : Bool :=
  i.dataReq && rdy q i && (emptyO q || !(addrIsNc i || q.ncPending))

/-- The tag lookup returns. -/
def Entry.mark (e : Entry g) (hitOh : Fin g.ways → Bool) : Entry g :=
  { e with checked := true, hitOh := hitOh }

/-- A transaction is answered. The cache status goes with the last byte. -/
def Entry.release (e : Entry g) (be : Bytes) : Entry g :=
  let e' := { e with
    txblock := fun j => e.txblock j && !be j
    valid := fun j => e.valid j && !(be j && !e.dirty j) }
  { e' with checked := e'.checked && anyBit e'.valid }

/-- Bytes are sent to the memory. -/
def Entry.send (e : Entry g) (be : Bytes) : Entry g :=
  { e with dirty := fun j => e.dirty j && !be j, txblock := fun j => e.txblock j || be j }

/-- The core writes. -/
def Entry.write (e : Entry g) (wtag : WordTag g) (be : Bytes) (wdata : Data) : Entry g :=
  { e with
    checked := false
    wtag := wtag
    valid := fun j => e.valid j || be j
    dirty := fun j => e.dirty j || be j
    data := fun j => if be j then wdata j else e.data j }

/-- `p_buffer` for one entry. -/
def nextEntry (k : Fin g.depth) : Entry g :=
  let e := q.wbuffer k
  let e := if q.checkEn1 && decide (k = q.checkPtr1) && valid q k then e.mark q.rdHitOh else e
  let e := if invalHit q i k then { e with checked := false } else e
  let e := if evict q i && decide (k = rtrnPtr q) then e.release (q.txStat (rtrnId q)).be else e
  let e := if dirtyRdEn q i && decide (k = dirtyPtr q) then e.send (txBe t q) else e
  if wbufferWren q i && decide (k = wrPtr q i) then
    e.write (requestTag i) i.dataBe i.dataWdata
  else e

/-- `p_tx_stat` for one slot. -/
def nextTxStat (s : Fin g.maxTx) : TxStat g :=
  let st := q.txStat s
  let st := if evict q i && decide (s = rtrnId q) then { st with vld := false } else st
  if dirtyRdEn q i && decide (s = txId q) then ⟨true, txBe t q, dirtyPtr q⟩ else st

def next : State g where
  wbuffer := nextEntry t q i
  txStat := nextTxStat t q i
  ncPending := if wbufferWren q i then addrIsNc i else q.ncPending
  checkPtr := checkPtrD q
  checkPtr1 := q.checkPtr
  checkEn := checkEnD q i
  checkEn1 := q.checkEn
  rdTag := (rdPaddr q >>> g.indexWidth).setWidth g.tagWidth
  rdHitOh := i.rdHitOh
  wrClVld := i.wrClVld
  wrClIdx := i.wrClIdx
  rtrnIdFifo := FifoV3.next g.maxTx q.rtrnIdFifo
    { data := i.missRtrnId, push := i.missRtrnVld, pop := evict q i }
  txIdRr := RrArbiter.next true q.txIdRr (fun s => !txVld q s) (dirtyRdEn q i)
  dirtyRr := RrArbiter.next true q.dirtyRr (dirty q) (dirtyRdEn q i)
  cleanRr := RrArbiter.next false q.cleanRr (tocheck q) (checkEnD q i)

end Cycle

/-- A byte that the core wrote, with the cycle of the write. -/
structure Write where
  time : Nat
  value : BitVec 8
  deriving DecidableEq

/-- What was written last to each byte. -/
abbrev Bytewise (g : Geometry) := WordTag g → Fin 8 → Option Write

/-- A transaction as the memory receives it, with the cycles in which its bytes were written. -/
structure Transaction (g : Geometry) where
  wtag : WordTag g
  off : Fin 8
  size : BitVec 3
  wdata : Data
  nc : Bool
  time : Fin 8 → Nat

/-- The bytes of the memory that a transaction writes. -/
def Transaction.covers (x : Transaction g) (wtag : WordTag g) (j : Fin 8) : Bool :=
  decide (wtag = x.wtag ∧ x.off ≤ j ∧ j.val < x.off.val + 2 ^ x.size.toNat)

/-- The memory after a transaction. -/
def Transaction.apply (x : Transaction g) (memory : Bytewise g) : Bytewise g := fun wtag j =>
  if x.covers wtag j then some ⟨x.time j, x.wdata j⟩ else memory wtag j

/-- The buffer with the history of the writes and of the transactions. -/
structure System (g : Geometry) where
  buffer : State g := {}
  time : Nat := 0
  /-- What the core wrote last. -/
  written : Bytewise g := fun _ _ => none
  /-- What the memory was sent last, in the order of the responses. -/
  answered : Bytewise g := fun _ _ => none
  /-- The transaction that was sent last under each identifier. -/
  sent : Fin g.maxTx → Transaction g :=
    fun _ => ⟨0, 0, 0, fun _ => 0, false, fun _ => 0⟩
  /-- The response is still to come. -/
  waits : Fin g.maxTx → Bool := fun _ => false
  /-- The last write that was accepted was not cacheable. -/
  lastNc : Bool := false

namespace System

variable (t : Transfers) (s : System g) (i : Input g)

/-- The transactions with the one that is sent in this cycle. -/
def nextSent : Fin g.maxTx → Transaction g := fun x =>
  if dirtyRdEn s.buffer i && decide (x = txId s.buffer) then
    let word := (s.buffer.wbuffer (dirtyPtr s.buffer)).wtag
    { wtag := word
      off := bdirtyOff s.buffer
      size := missSize t s.buffer
      wdata := missWdata t s.buffer
      nc := s.buffer.ncPending
      time := fun j => ((s.written word j).map Write.time).getD 0 }
  else s.sent x

/-- The response to the transaction is outstanding. -/
def outstanding (x : Fin g.maxTx) : Bool :=
  s.waits x || (dirtyRdEn s.buffer i && decide (x = txId s.buffer))

def next : System g where
  buffer := WriteBuffer.next t s.buffer i
  time := s.time + 1
  written := fun wtag j =>
    if wbufferWren s.buffer i && decide (wtag = requestTag i) && i.dataBe j then
      some ⟨s.time, i.dataWdata j⟩
    else s.written wtag j
  answered :=
    if i.missRtrnVld then (s.nextSent t i i.missRtrnId).apply s.answered else s.answered
  sent := s.nextSent t i
  waits := fun x =>
    s.outstanding i x && !(i.missRtrnVld && decide (x = i.missRtrnId))
  lastNc := if wbufferWren s.buffer i then addrIsNc i else s.lastNc

end System

/-- There is one response for each transaction. -/
def Responds (s : System g) (i : Input g) : Prop :=
  i.missRtrnVld = true → s.outstanding i i.missRtrnId = true

instance decidableResponds (s : System g) (i : Input g) : Decidable (Responds s i) :=
  inferInstanceAs (Decidable (_ → _))

def system (t : Transfers) : Machine (System g) (Input g) := ⟨{}, System.next t⟩

end Ariane.WriteBuffer
