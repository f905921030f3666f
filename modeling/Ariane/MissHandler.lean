import Ariane.AmoBuffer
import Mathlib.Logic.Function.Basic

set_option autoImplicit false

/- `miss_handler.sv` with `amo_alu.sv`: refills, evictions, flushes and atomic memory operations of
the data cache. The bypass arbiter shares no state with them. -/
namespace Ariane.MissHandler

open AmoBuffer (AmoT)

/-- The parameters of the cache: `DCACHE_TAG_WIDTH`, the widths of the set index and of the word
index in a line, `DCACHE_SET_ASSOC` and `INVALIDATE_ON_FLUSH`. -/
structure Geometry where
  tagWidth : Nat
  setBits : Nat
  wordBits : Nat
  ways : Nat
  invalidateOnFlush : Bool

/-- A physical address, split as the cache splits it. -/
structure Address (g : Geometry) where
  tag : BitVec g.tagWidth := 0
  set : BitVec g.setBits := 0
  word : BitVec g.wordBits := 0
  byte : BitVec 3 := 0
  deriving DecidableEq, Inhabited

/-- The words of a line. -/
abbrev LineData (g : Geometry) := BitVec g.wordBits → BitVec 64

/-- One bit for each way. -/
abbrev WayMask (g : Geometry) := Fin g.ways → Bool

/-- `cache_line_t`. -/
structure CacheLine (g : Geometry) where
  tag : BitVec g.tagWidth := 0
  data : LineData g := fun _ => 0
  valid : Bool := false
  dirty : Bool := false
  deriving Inhabited

/-- The functions of the cache package that pick a way: the first bit that is set. -/
structure Victim (g : Geometry) where
  getVictimCl : WayMask g → WayMask g
  oneHotToBin : WayMask g → Fin g.ways
  set : ∀ mask : WayMask g, (∃ k, mask k = true) → mask (oneHotToBin mask) = true
  only : ∀ mask : WayMask g, (∃ k, mask k = true) →
    getVictimCl mask = fun k => decide (k = oneHotToBin mask)

/-- The functions of the core's package that shape the operands of an atomic operation. -/
structure Align where
  dataAlign : BitVec 3 → BitVec 64 → BitVec 64
  beGen : BitVec 3 → BitVec 2 → BitVec 8
  sext32 : BitVec 32 → BitVec 64

/-- The bits of the bytes that are enabled. -/
def byteMask (be : BitVec 8) : BitVec 64 :=
  (List.range 8).foldl (fun mask k => if be.getLsbD k then mask ||| (0xff <<< (8 * k)) else mask) 0

/-- A word after a write with byte enables. -/
def mergeWord (old new : BitVec 64) (be : BitVec 8) : BitVec 64 :=
  (old &&& ~~~byteMask be) ||| (new &&& byteMask be)

/-- `amo_alu`: `MAX` and `MIN` compare through the sign of a 65-bit difference. -/
def amoAlu (op : AmoT) (a b : BitVec 64) : BitVec 64 :=
  match op with
  | .sc | .swap => b
  | .add => a + b
  | .and => a &&& b
  | .or => a ||| b
  | .xor => a ^^^ b
  | .max => if (a.signExtend 65 + -(b.signExtend 65)).msb then b else a
  | .min => if (a.signExtend 65 + -(b.signExtend 65)).msb then a else b
  | .maxu => if (a.setWidth 65 + -(b.setWidth 65)).msb then b else a
  | .minu => if (a.setWidth 65 + -(b.setWidth 65)).msb then a else b
  | .none | .lr => 0

/-- `miss_req_t`. -/
structure MissReq (g : Geometry) where
  valid : Bool := false
  bypass : Bool := false
  addr : Address g := {}
  we : Bool := false
  wdata : BitVec 64 := 0
  be : BitVec 8 := 0
  deriving DecidableEq

/-- `amo_req_t`. -/
structure AmoReq (g : Geometry) where
  req : Bool := false
  op : AmoT := .none
  operandA : Address g := {}
  operandB : BitVec 64 := 0
  size : BitVec 2 := 0
  deriving DecidableEq

/-- The states that are reached. -/
inductive FsmState where
  | idle | flushing | wbCachelineFlush | flushReqStatus | wbCachelineMiss | miss | reqCacheline
  | missRepl | saveCacheline | init | amoLoad | amoSaveLoad | amoStore
  deriving DecidableEq, Inhabited

/-- `mshr_t`. -/
structure Mshr (g : Geometry) where
  valid : Bool := false
  we : Bool := false
  id : Nat := 0
  addr : Address g := {}
  wdata : BitVec 64 := 0
  be : BitVec 8 := 0
  deriving DecidableEq

/-- The registers. `cnt` is `cnt_q` above the byte offset: the bits below are never read. -/
structure State (g : Geometry) where
  state : FsmState := .init
  mshr : Mshr g := {}
  cnt : BitVec g.setBits := 0
  evictWay : WayMask g := fun _ => false
  evictTag : BitVec g.tagWidth := 0
  evictData : LineData g := fun _ => 0
  serveAmo : Bool := false
  /-- The doubleword that is reserved. -/
  reservation : Option (Address g) := none

/-- The inputs of one cycle. `data` is `data_miss_fsm`, `lfsr` both outputs of the replacement
unit. -/
structure Input (g : Geometry) where
  flush : Bool
  busy : Bool
  missReq : List (MissReq g)
  amo : AmoReq g
  gnt : Bool
  valid : Bool
  data : LineData g
  lfsr : Fin g.ways
  /-- The line of every way that was read one cycle before. -/
  dataI : Fin g.ways → CacheLine g

/-- The port to the SRAMs. `line` enables the tag and all bytes of the data. -/
structure SramReq (g : Geometry) where
  req : WayMask g := fun _ => false
  set : BitVec g.setBits := 0
  we : Bool := false
  vldrty : WayMask g := fun _ => false
  line : Bool := false
  data : CacheLine g := {}

/-- The port to the AXI adapter. -/
structure MissAxi (g : Geometry) where
  valid : Bool := false
  addr : Address g := {}
  we : Bool := false
  wdata : LineData g := fun _ => 0
  be : BitVec 8 := 0
  single : Bool := false

/-- What `cache_management` assigns. -/
structure Output (g : Geometry) where
  next : State g
  sram : SramReq g := {}
  axi : MissAxi g := {}
  flushAck : Bool := false
  missGnt : Option Nat := none
  amoAck : Bool := false
  amoResult : BitVec 64 := 0
  lfsrEnable : Bool := false

/-- All ways. -/
def allWays {g : Geometry} : WayMask g := fun _ => true

/-- The way 0. -/
def firstWay {g : Geometry} : WayMask g := fun k => decide (k.val = 0)

/-- A bit of the mask is set. -/
def anyWay {g : Geometry} (mask : WayMask g) : Bool := decide (∃ k, mask k = true)

/-- The first request that is a miss, with its port. -/
def firstMiss {g : Geometry} (reqs : List (MissReq g)) : Option (MissReq g × Nat) :=
  reqs.zipIdx.find? fun r => r.1.valid && !r.1.bypass

/-- The doubleword of an address. -/
def Address.doubleword {g : Geometry} (a : Address g) : Address g := { a with byte := 0 }

section Cycle

variable {g : Geometry} (victim : Victim g) (align : Align) (q : State g) (i : Input g)

/-- The assignments before the `case`. -/
def defaultOutput : Output g := { next := q }

def idleState : Output g :=
  let o := defaultOutput q
  let o := if i.amo.req && !i.busy then
      if !q.serveAmo then
        { o with next := { o.next with state := .flushReqStatus, serveAmo := true } }
      else { o with next := { o.next with state := .amoLoad, serveAmo := false } }
    else o
  let o := if i.flush && !i.busy then
      { o with next := { o.next with state := .flushReqStatus, cnt := 0 } }
    else o
  match firstMiss i.missReq with
  | some (m, id) =>
      { o with
        next := { o.next with
          state := .miss
          serveAmo := false
          mshr := ⟨true, m.we, id, m.addr, m.wdata, m.be⟩ } }
  | none => o

def missState : Output g :=
  { defaultOutput q with
    next := { q with state := .missRepl }
    sram := { req := allWays, set := q.mshr.addr.set } }

/-- `valid_way`. -/
def validWay : WayMask g := fun k => (i.dataI k).valid

/-- `evict_way`. -/
def dirtyWay : WayMask g := fun k => (i.dataI k).valid && (i.dataI k).dirty

def missReplState : Output g :=
  let o := defaultOutput q
  if !anyWay (fun k => !validWay i k) then
    let o := { o with
      lfsrEnable := true
      next := { o.next with evictWay := fun k => decide (k = i.lfsr) } }
    if (i.dataI i.lfsr).dirty then
      { o with
        next := { o.next with
          state := .wbCachelineMiss
          evictTag := (i.dataI i.lfsr).tag
          evictData := (i.dataI i.lfsr).data
          cnt := q.mshr.addr.set } }
    else { o with next := { o.next with state := .reqCacheline } }
  else
    { o with
      next := { o.next with
        evictWay := victim.getVictimCl fun k => !validWay i k
        state := .reqCacheline } }

def reqCachelineState : Output g :=
  let o := { defaultOutput q with axi := { valid := true, addr := q.mshr.addr } }
  if i.gnt then
    { o with next := { q with state := .saveCacheline }, missGnt := some q.mshr.id }
  else o

/-- The refilled line, with the bytes of a store that missed. -/
def refill (mshr : Mshr g) (data : LineData g) : LineData g :=
  if mshr.we then
    Function.update data mshr.addr.word (mergeWord (data mshr.addr.word) mshr.wdata mshr.be)
  else data

def saveCachelineState : Output g :=
  let o := defaultOutput q
  if i.valid then
    { o with
      sram :=
        { req := q.evictWay
          set := q.mshr.addr.set
          we := true
          line := true
          vldrty := q.evictWay
          data := ⟨q.mshr.addr.tag, refill q.mshr i.data, true, q.mshr.we⟩ }
      next := { q with mshr := { q.mshr with valid := false }, state := .idle } }
  else o

/-- Write a line back. `back` is the state after the grant. -/
def wbCachelineState (back : FsmState) : Output g :=
  let o := { defaultOutput q with
    axi :=
      { valid := true
        addr := { tag := q.evictTag, set := q.cnt }
        we := true
        be := 0xff
        wdata := q.evictData } }
  if i.gnt then
    { o with
      sram :=
        { req := firstWay
          set := q.cnt
          we := true
          vldrty := q.evictWay
          data := { valid := !g.invalidateOnFlush } }
      next := { q with state := back } }
  else o

def flushReqStatusState : Output g :=
  { defaultOutput q with
    next := { q with state := .flushing }
    sram := { req := allWays, set := q.cnt } }

def flushingState : Output g :=
  let o := defaultOutput q
  if anyWay (dirtyWay i) then
    let line := i.dataI (victim.oneHotToBin (dirtyWay i))
    { o with
      next := { q with
        evictWay := victim.getVictimCl (dirtyWay i)
        evictTag := line.tag
        evictData := line.data
        state := .wbCachelineFlush } }
  else
    let last := q.cnt == BitVec.allOnes g.setBits
    { o with
      sram :=
        { req := firstWay, set := q.cnt, we := true
          vldrty := fun _ => g.invalidateOnFlush }
      flushAck := last && !q.serveAmo
      next := { q with
        cnt := q.cnt + 1
        state := if last then .idle else .flushReqStatus } }

def initState : Output g :=
  { defaultOutput q with
    sram := { req := firstWay, set := q.cnt, we := true, vldrty := allWays }
    next := { q with
      cnt := q.cnt + 1
      state := if q.cnt == BitVec.allOnes g.setBits then .idle else .init } }

def amoLoadState : Output g :=
  let o := { defaultOutput q with
    axi := { valid := true, addr := i.amo.operandA, single := true } }
  if i.gnt then { o with next := { q with state := .amoSaveLoad } } else o

def amoSaveLoadState : Output g :=
  let o := defaultOutput q
  if i.valid then
    { o with next := { q with mshr := { q.mshr with wdata := i.data 0 }, state := .amoStore } }
  else o

/-- `amo_operand_a` and `amo_operand_b`, for the word that was loaded. -/
def operands (a : AmoReq g) (word : BitVec 64) : BitVec 64 × BitVec 64 :=
  let load := align.dataAlign a.operandA.byte word
  if a.size = 2 then
    (align.sext32 (load.extractLsb' 0 32), align.sext32 (a.operandB.extractLsb' 0 32))
  else (load, a.operandB)

/-- The operation needs no store: a load reserved, or a store conditional that fails. -/
def noStore (reservation : Option (Address g)) (a : AmoReq g) : Bool :=
  a.op == .lr || (a.op == .sc && !(reservation == some a.operandA.doubleword))

/-- The word and the byte enables of the store. -/
def amoStoreData (a : AmoReq g) (word : BitVec 64) : BitVec 64 × BitVec 8 :=
  let ops := operands align a word
  (align.dataAlign a.operandA.byte (amoAlu a.op ops.1 ops.2),
    align.beGen a.operandA.byte a.size)

def amoStoreState : Output g :=
  let o := defaultOutput q
  let operandA := (operands align i.amo q.mshr.wdata).1
  let skip := noStore q.reservation i.amo
  let store := amoStoreData align i.amo q.mshr.wdata
  let o := if skip then
      { o with
        amoAck := true
        amoResult := if i.amo.op == .sc then 1 else operandA
        next := { o.next with
          state := .idle
          reservation := if i.amo.op == .sc then none else o.next.reservation } }
    else o
  let o := { o with
    axi :=
      { valid := !skip, we := true, single := true, addr := i.amo.operandA
        wdata := fun _ => store.1, be := store.2 } }
  let o := if i.amo.op == .lr then
      { o with next := { o.next with reservation := some i.amo.operandA.doubleword } }
    else o
  if i.valid then
    { o with
      amoAck := true
      amoResult := if i.amo.op == .sc then 0 else operandA
      next := { o.next with
        state := .idle
        reservation := if i.amo.op == .sc then none else o.next.reservation } }
  else o

/-- `cache_management`. -/
def cacheManagement : Output g :=
  match q.state with
  | .idle => idleState q i
  | .miss => missState q
  | .missRepl => missReplState victim q i
  | .reqCacheline => reqCachelineState q i
  | .saveCacheline => saveCachelineState q i
  | .wbCachelineFlush => wbCachelineState q i .flushReqStatus
  | .wbCachelineMiss => wbCachelineState q i .miss
  | .flushReqStatus => flushReqStatusState q
  | .flushing => flushingState victim q i
  | .init => initState q
  | .amoLoad => amoLoadState q i
  | .amoSaveLoad => amoSaveLoadState q i
  | .amoStore => amoStoreState align q i

end Cycle

/-- The lines of the cache: the tag, data and valid/dirty SRAMs. -/
abbrev Array (g : Geometry) := BitVec g.setBits → Fin g.ways → CacheLine g

/-- The SRAMs after a write: the valid and dirty bits of all ways share one SRAM. -/
def SramReq.write {g : Geometry} (r : SramReq g) (array : Array g) : Array g := fun set k =>
  let line := array set k
  if r.we ∧ set = r.set then
    let line := if r.req k && r.line then
        { line with tag := r.data.tag, data := r.data.data }
      else line
    if anyWay r.req && r.vldrty k then
      { line with valid := r.data.valid, dirty := r.data.dirty }
    else line
  else array set k

end Ariane.MissHandler
