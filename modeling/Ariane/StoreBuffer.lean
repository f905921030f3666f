import Ariane.Rtl.Machine
import Ariane.Rtl.Queue

set_option autoImplicit false

/- `store_buffer.sv`: stores wait in a speculative queue until they commit, and in a
commit queue until the data cache grants them. -/
namespace Ariane.StoreBuffer

open Rtl (Machine Queue)
open Rtl.Ring (clog2 ptrBits write)

/-- `DEPTH_SPEC`, `DEPTH_COMMIT` and the widths of the data cache address. -/
structure Config where
  depthSpec : Nat
  depthCommit : Nat
  indexWidth : Nat
  tagWidth : Nat

/-- One element of either queue. -/
structure Entry where
  address : BitVec 64 := 0
  data : BitVec 64 := 0
  be : BitVec 8 := 0
  dataSize : BitVec 2 := 0
  valid : Bool := false
  deriving DecidableEq, Inhabited

/-- The registers: queue, pointers and status counter of either stage. -/
structure State where
  speculative : Queue Entry
  commit : Queue Entry

/-- The inputs of one cycle. -/
structure Input where
  flush : Bool := false
  pageOffset : BitVec 12 := 0
  commit : Bool := false
  valid : Bool := false
  validWithoutFlush : Bool := false
  paddr : BitVec 64 := 0
  data : BitVec 64 := 0
  be : BitVec 8 := 0
  dataSize : BitVec 2 := 0
  dataGnt : Bool := false
  deriving DecidableEq, Inhabited

/-- The payload of `req_port_o`. -/
structure Request (cfg : Config) where
  addressIndex : BitVec cfg.indexWidth
  addressTag : BitVec cfg.tagWidth
  dataWdata : BitVec 64
  dataBe : BitVec 8
  dataSize : BitVec 2
  deriving DecidableEq

def emptyQueue : Queue Entry := ⟨fun _ => {}, 0, 0, 0⟩

def reset : State := ⟨emptyQueue, emptyQueue⟩

/-- Addition in a pointer of a queue of `depth` slots. -/
def ptrInc (depth p : Nat) : Nat := (p + 1) % 2 ^ ptrBits depth

/-- Counting up and down in the local counter of `depth + 1` bits. -/
def cntInc (depth c : Nat) : Nat := (c + 1) % 2 ^ (depth + 1)

def cntDec (depth c : Nat) : Nat := (c + (2 ^ (depth + 1) - 1)) % 2 ^ (depth + 1)

/-- The local counter is stored in a register of `$clog2(depth) + 1` bits. -/
def cntReg (depth c : Nat) : Nat := c % 2 ^ (clog2 depth + 1)

def Entry.invalidate (e : Entry) : Entry := { e with valid := false }

/-- The entry written for the store at the inputs. -/
def Input.entry (i : Input) : Entry where
  address := i.paddr
  data := i.data
  be := i.be
  dataSize := i.dataSize
  valid := true

/-- `ready_o`. -/
def ready (cfg : Config) (s : State) (i : Input) : Bool :=
  s.speculative.count < cfg.depthSpec - 1 || i.commit

/-- `commit_ready_o`. -/
def commitReady (cfg : Config) (s : State) : Bool := s.commit.count < cfg.depthCommit

/-- `no_st_pending_o`. -/
def noStPending (s : State) : Bool := s.commit.count == 0

/-- The entry at the head of the commit queue. -/
def commitHead (s : State) : Entry := s.commit.mem s.commit.readPointer

/-- `req_port_o.data_req`. -/
def dataReq (s : State) : Bool := (commitHead s).valid

/-- What the port carries for entry `e`. -/
def Entry.request (cfg : Config) (e : Entry) : Request cfg where
  addressIndex := e.address.extractLsb' 0 cfg.indexWidth
  addressTag := e.address.extractLsb' cfg.indexWidth cfg.tagWidth
  dataWdata := e.data
  dataBe := e.be
  dataSize := e.dataSize

/-- `req_port_o`. -/
def reqPort (cfg : Config) (s : State) : Request cfg := (commitHead s).request cfg

/-- Bits 11 to 3, which select the aligned doubleword inside a page. -/
def pageDoubleword {w : Nat} (a : BitVec w) : BitVec 9 := a.extractLsb' 3 9

/-- The loops of `address_checker`. -/
def queueMatches (depth : Nat) (q : Queue Entry) (offset : BitVec 12) : Bool :=
  (List.range depth).any fun j =>
    pageDoubleword offset == pageDoubleword (q.mem j).address && (q.mem j).valid

/-- `page_offset_matches_o`. -/
def pageOffsetMatches (cfg : Config) (s : State) (i : Input) : Bool :=
  queueMatches cfg.depthCommit s.commit i.pageOffset ||
    queueMatches cfg.depthSpec s.speculative i.pageOffset ||
      (pageDoubleword i.pageOffset == pageDoubleword i.paddr && i.validWithoutFlush)

/-- Put the store at the inputs into the speculative queue. -/
def putSpeculative (depth : Nat) (i : Input) (q : Queue Entry) : Queue Entry :=
  if i.valid then
    { q with
      mem := write depth q.mem q.writePointer i.entry
      writePointer := ptrInc depth q.writePointer
      count := cntInc depth q.count }
  else q

/-- Evict the entry at `head` when it commits. -/
def evictSpeculative (depth head : Nat) (i : Input) (q : Queue Entry) : Queue Entry :=
  if i.commit then
    { q with
      mem := write depth q.mem head (q.mem head).invalidate
      readPointer := ptrInc depth head
      count := cntDec depth q.count }
  else q

/-- A flush resets the write pointer to the old read pointer. -/
def flushSpeculative (head : Nat) (i : Input) (q : Queue Entry) : Queue Entry :=
  if i.flush then
    { q with
      mem := fun j => (q.mem j).invalidate
      writePointer := head
      count := 0 }
  else q

/-- `core_if`. -/
def coreIf (cfg : Config) (s : State) (i : Input) : Queue Entry :=
  let depth := cfg.depthSpec
  let head := s.speculative.readPointer
  let q := evictSpeculative depth head i (putSpeculative depth i s.speculative)
  flushSpeculative head i { q with count := cntReg depth q.count }

/-- Evict the entry at the head when the cache grants it. -/
def evictCommit (depth : Nat) (i : Input) (q : Queue Entry) : Queue Entry :=
  if (q.mem q.readPointer).valid && i.dataGnt then
    { q with
      mem := write depth q.mem q.readPointer (q.mem q.readPointer).invalidate
      readPointer := ptrInc depth q.readPointer
      count := cntDec depth q.count }
  else q

/-- Shift `e` from the speculative to the commit queue. -/
def putCommit (depth : Nat) (e : Entry) (i : Input) (q : Queue Entry) : Queue Entry :=
  if i.commit then
    { q with
      mem := write depth q.mem q.writePointer e
      writePointer := ptrInc depth q.writePointer
      count := cntInc depth q.count }
  else q

/-- `store_if`. -/
def storeIf (cfg : Config) (s : State) (i : Input) : Queue Entry :=
  let depth := cfg.depthCommit
  let head := s.speculative.mem s.speculative.readPointer
  let q := putCommit depth head i (evictCommit depth i s.commit)
  { q with count := cntReg depth q.count }

def next (cfg : Config) (s : State) (i : Input) : State where
  speculative := coreIf cfg s i
  commit := storeIf cfg s i

def machine (cfg : Config) : Machine State Input := ⟨reset, next cfg⟩

end Ariane.StoreBuffer
