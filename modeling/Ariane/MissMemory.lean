import Ariane.MissHandler
import Ariane.Rtl.Machine
import Mathlib.Data.Fintype.Basic

set_option autoImplicit false

/- The miss handler with its SRAMs, the memory behind them and the stores of the cache ports. -/
namespace Ariane.MissHandler

open Rtl (Machine)

variable {g : Geometry}

/-- The memory, line by line. -/
abbrev Memory (g : Geometry) := BitVec g.tagWidth → BitVec g.setBits → LineData g

/-- One word of the memory is written. -/
def Memory.writeWord (m : Memory g) (a : Address g) (word : BitVec 64) : Memory g :=
  fun tag set =>
    if tag = a.tag ∧ set = a.set then Function.update (m tag set) a.word word else m tag set

/-- One line of the memory is written. -/
def Memory.writeLine (m : Memory g) (a : Address g) (line : LineData g) : Memory g :=
  fun tag set => if tag = a.tag ∧ set = a.set then line else m tag set

/-- A word of the memory. -/
def Memory.word (m : Memory g) (a : Address g) : BitVec 64 := m a.tag a.set a.word

/-- A store that hit in the cache and is granted in this cycle. -/
structure Store (g : Geometry) where
  way : Fin g.ways
  addr : Address g
  wdata : BitVec 64
  be : BitVec 8
  deriving DecidableEq

/-- `STORE_REQ` of a cache port. -/
def Store.write (st : Store g) (array : Array g) : Array g := fun set k =>
  if set = st.addr.set ∧ k = st.way then
    { array set k with
      data := Function.update (array set k).data st.addr.word
        (mergeWord ((array set k).data st.addr.word) st.wdata st.be)
      valid := true
      dirty := true }
  else array set k

/-- A line that was written back. -/
structure WrittenLine (g : Geometry) where
  tag : BitVec g.tagWidth
  set : BitVec g.setBits
  data : LineData g

/-- The handler, the SRAMs, the memory and the history. -/
structure System (g : Geometry) where
  handler : State g := {}
  array : Array g
  dataI : Fin g.ways → CacheLine g := fun _ => {}
  memory : Memory g
  /-- The memory as the granted stores and the atomic operations leave it. -/
  view : Memory g
  /-- The atomic operation that was requested in the last cycle and not answered. -/
  pendingAmo : Option (AmoReq g) := none
  /-- The flush that runs was accepted for `flush_i`. -/
  byFlush : Bool := false
  /-- The lines when the flush was accepted. -/
  start : Array g
  /-- The sets that the flush has passed. -/
  visited : List (BitVec g.setBits) := []
  /-- The lines that the flush has written back. -/
  written : List (WrittenLine g) := []

/-- The inputs of one cycle. -/
structure SystemInput (g : Geometry) where
  flush : Bool := false
  busy : Bool := false
  missReq : List (MissReq g) := []
  amo : AmoReq g := {}
  gnt : Bool := false
  valid : Bool := false
  lfsr : Fin g.ways
  store : Option (Store g) := none

namespace System

variable (victim : Victim g) (align : Align) (s : System g) (i : SystemInput g)

/-- What the memory answers. -/
def response : LineData g :=
  match s.handler.state with
  | .amoSaveLoad => fun _ => s.memory.word i.amo.operandA
  | _ => s.memory s.handler.mshr.addr.tag s.handler.mshr.addr.set

/-- The inputs of the handler. -/
def handlerInput : Input g where
  flush := i.flush
  busy := i.busy
  missReq := i.missReq
  amo := i.amo
  gnt := i.gnt
  valid := i.valid
  data := s.response i
  lfsr := i.lfsr
  dataI := s.dataI

/-- The outputs of the handler. -/
def output : Output g := cacheManagement victim align s.handler (s.handlerInput i)

/-- The SRAMs after the cycle. -/
def nextArray : Array g :=
  let array := (s.output victim align i).sram.write s.array
  match i.store with
  | some st => st.write array
  | none => array

/-- The memory after the cycle: a line is written with the grant, a word with the response. -/
def nextMemory : Memory g :=
  let axi := (s.output victim align i).axi
  if axi.valid && axi.we then
    if axi.single then
      if i.valid then
        s.memory.writeWord axi.addr (mergeWord (s.memory.word axi.addr) (axi.wdata 0) axi.be)
      else s.memory
    else if i.gnt then s.memory.writeLine axi.addr axi.wdata
    else s.memory
  else s.memory

/-- The view after the stores that are granted in this cycle and the operation that is answered. -/
def nextView : Memory g :=
  let o := s.output victim align i
  let view := match i.store with
    | some st => s.view.writeWord st.addr (mergeWord (s.view.word st.addr) st.wdata st.be)
    | none => s.view
  let mshr := s.handler.mshr
  let view := if o.missGnt.isSome && mshr.we then
      view.writeWord mshr.addr (mergeWord (view.word mshr.addr) mshr.wdata mshr.be)
    else view
  if o.amoAck && !noStore s.handler.reservation i.amo then
    let store := amoStoreData align i.amo (view.word i.amo.operandA)
    view.writeWord i.amo.operandA (mergeWord (view.word i.amo.operandA) store.1 store.2)
  else view

/-- A flush is accepted. -/
def accepts : Bool :=
  s.handler.state == .idle && (s.output victim align i).next.state == .flushReqStatus

/-- One cycle. -/
def next : System g :=
  let o := s.output victim align i
  let accepted := s.accepts victim align i
  { handler := o.next
    array := s.nextArray victim align i
    dataI := if anyWay o.sram.req && !o.sram.we then s.array o.sram.set else s.dataI
    memory := s.nextMemory victim align i
    view := s.nextView victim align i
    pendingAmo := if i.amo.req && !o.amoAck then some i.amo else none
    byFlush := if accepted then i.flush && !i.busy else s.byFlush
    start := if accepted then s.nextArray victim align i else s.start
    visited := if accepted then [] else if s.handler.state = .flushing ∧
        o.next.state ≠ .wbCachelineFlush then s.visited ++ [s.handler.cnt] else s.visited
    written := if accepted then [] else if s.handler.state = .wbCachelineFlush ∧ i.gnt = true then
        s.written ++ [⟨o.axi.addr.tag, o.axi.addr.set, o.axi.wdata⟩] else s.written }

end System

/-- A flush runs, for `flush_i` or before an atomic operation. -/
def flushes (state : FsmState) : Bool :=
  state == .flushReqStatus || state == .flushing || state == .wbCachelineFlush

/-- An atomic operation runs. -/
def operates (state : FsmState) : Bool :=
  state == .amoLoad || state == .amoSaveLoad || state == .amoStore

/-- What the cache ports, the store buffer and the adapter promise. -/
structure Ports (victim : Victim g) (align : Align) (s : System g) (i : SystemInput g) :
    Prop where
  /-- The handler has priority at the SRAMs. -/
  port : i.store.isSome = true → anyWay (s.output victim align i).sram.req = false
  /-- A store writes the way that it hit. -/
  hits : ∀ st, i.store = some st →
    (s.array st.addr.set st.way).valid = true ∧ (s.array st.addr.set st.way).tag = st.addr.tag
  /-- A store waits while its set is served. -/
  mshr : ∀ st, i.store = some st → s.handler.mshr.valid = true →
    st.addr.set ≠ s.handler.mshr.addr.set
  /-- No store is pending when a flush or an atomic operation is requested. -/
  drained : i.store.isSome = true → i.flush = false ∧ i.amo.req = false
  /-- A miss is for a line that the cache does not hold. -/
  absent : ∀ r, s.handler.state = .idle → firstMiss i.missReq = some r →
    ∀ k, (s.array r.1.addr.set k).valid = true → (s.array r.1.addr.set k).tag ≠ r.1.addr.tag
  /-- Without a request there is no response. -/
  asked : s.handler.state = .amoStore → noStore s.handler.reservation i.amo = true →
    i.valid = false
  /-- The operands stay while the operation is requested. -/
  stable : ∀ a, s.pendingAmo = some a → i.amo.req = true → i.amo = a

/-- The controller requests a flush until it ends. -/
structure Contract (victim : Victim g) (align : Align) (s : System g) (i : SystemInput g) :
    Prop extends Ports victim align s i where
  held : flushes s.handler.state = true → s.byFlush = true → i.flush = true

instance decidablePorts (victim : Victim g) (align : Align) (s : System g) (i : SystemInput g) :
    Decidable (Ports victim align s i) :=
  decidable_of_iff
    ((i.store.isSome = true → anyWay (s.output victim align i).sram.req = false) ∧
      (∀ st ∈ i.store, (s.array st.addr.set st.way).valid = true ∧
        (s.array st.addr.set st.way).tag = st.addr.tag) ∧
      (∀ st ∈ i.store, s.handler.mshr.valid = true → st.addr.set ≠ s.handler.mshr.addr.set) ∧
      (i.store.isSome = true → i.flush = false ∧ i.amo.req = false) ∧
      (∀ r ∈ firstMiss i.missReq, s.handler.state = .idle →
        ∀ k, (s.array r.1.addr.set k).valid = true →
          (s.array r.1.addr.set k).tag ≠ r.1.addr.tag) ∧
      (s.handler.state = .amoStore → noStore s.handler.reservation i.amo = true →
        i.valid = false) ∧
      (∀ a ∈ s.pendingAmo, i.amo.req = true → i.amo = a))
    ⟨fun ⟨port, hits, mshr, drained, absent, asked, stable⟩ =>
        ⟨port, hits, mshr, drained, fun r idle some => absent r some idle, asked, stable⟩,
      fun ports => ⟨ports.port, ports.hits, ports.mshr, ports.drained,
        fun r some idle => ports.absent r idle some, ports.asked, ports.stable⟩⟩

instance decidableContract (victim : Victim g) (align : Align) (s : System g)
    (i : SystemInput g) : Decidable (Contract victim align s i) :=
  decidable_of_iff
    (Ports victim align s i ∧
      (flushes s.handler.state = true → s.byFlush = true → i.flush = true))
    ⟨fun ⟨ports, held⟩ => ⟨ports, held⟩, fun contract => ⟨contract.toPorts, contract.held⟩⟩

def system (victim : Victim g) (align : Align) (array : Array g) (memory : Memory g) :
    Machine (System g) (SystemInput g) :=
  ⟨{ array := array, memory := memory, view := memory, start := array },
    System.next victim align⟩

end Ariane.MissHandler
