import Ariane.AxiAdapter

set_option autoImplicit false

/- The cache line adapter between its requester and a slave, with a record of each access. -/
namespace Ariane.AxiAdapter

open Rtl (Machine)

variable {p : Params}

/-- What happened since the last response: the requests that were granted, the handshakes on the
five channels, and the critical words. -/
structure Log (p : Params) where
  granted : List (Request p) := []
  aws : List (AxiAddr p.idWidth) := []
  beats : List AxiBeat := []
  ars : List (AxiAddr p.idWidth) := []
  words : List (BitVec 64) := []
  critical : List (BitVec 64) := []

/-- The record with one cycle more. -/
def Log.add (l : Log p) (i : Input p) (o : Output p) : Log p where
  granted := l.granted ++ if o.gnt then [i.request] else []
  aws := l.aws ++ if o.awValid && i.awReady then [o.aw] else []
  beats := l.beats ++ if o.wValid && i.wReady then [o.w] else []
  ars := l.ars ++ if o.arValid && i.arReady then [o.ar] else []
  words := l.words ++ if o.rReady && i.rValid then [i.rData] else []
  critical := l.critical ++ if o.criticalWordValid then [o.criticalWord] else []

/-- The adapter, the request that waits for its grant, and the record. -/
structure Bench (p : Params) where
  regs : Regs p := {}
  pending : Option (Request p) := none
  log : Log p := {}

namespace Bench

variable (s : Bench p) (i : Input p)

def output : Output p := axiFsm s.regs i

/-- The record with this cycle. -/
def record : Log p := s.log.add i (s.output i)

def next : Bench p where
  regs := (s.output i).regs
  pending := if i.req && !(s.output i).gnt then some i.request else none
  log := if (s.output i).valid then {} else s.record i

end Bench

def machine (p : Params) : Machine (Bench p) (Input p) := ⟨{}, Bench.next⟩

/-- The slave answers the addresses that it accepted. -/
structure Slave (s : Bench p) (i : Input p) : Prop where
  b : i.bValid = true → ∃ a, s.log.aws = [a] ∧ i.bId = a.id
  r : i.rValid = true → ∃ a, s.log.ars = [a] ∧ s.log.words.length ≤ a.len.toNat ∧
    (i.rLast = true ↔ s.log.words.length = a.len.toNat) ∧ i.rId = a.id

/-- The requester holds a request until its grant. -/
structure Contract (s : Bench p) (i : Input p) : Prop extends Slave s i where
  held : ∀ r, s.pending = some r → i.req = true ∧ i.request = r
  /-- Lines have at least two words. -/
  line : i.req = true → i.request.single = false → 0 < p.wordBits

/-! The bursts of the bus. -/

/-- The words of a memory. -/
abbrev Memory := BitVec 61 → BitVec 64

/-- The address of a beat. -/
def AxiAddr.beatAddr {idWidth : Nat} (a : AxiAddr idWidth) (j : Nat) : Nat :=
  let bytes := 2 ^ a.size.toNat
  match a.burst with
  | .fixed => a.addr.toNat
  | .incr => a.addr.toNat / bytes * bytes + j * bytes
  | .wrap =>
      let total := bytes * (a.len.toNat + 1)
      a.addr.toNat / total * total + (a.addr.toNat + j * bytes) % total

/-- The word of memory that a beat accesses. -/
def AxiAddr.beatWord {idWidth : Nat} (a : AxiAddr idWidth) (j : Nat) : BitVec 61 :=
  BitVec.ofNat 61 (a.beatAddr j / 8)

/-- The words come from a memory. -/
def ReadFrom {idWidth : Nat} (mem : Memory) (a : AxiAddr idWidth) (words : List (BitVec 64)) :
    Prop :=
  ∀ j (h : j < words.length), words[j] = mem (a.beatWord j)

/-! What a request asks for. -/

section Request

variable (r : Request p)

/-- The number of words. -/
def Request.count : Nat := if r.single then 1 else 2 ^ p.wordBits

def Request.aw : AxiAddr p.idWidth where
  id := r.id
  addr := r.addr
  len := if r.single then 0 else BitVec.ofNat 8 (burstSize p)
  size := r.size.setWidth 3
  burst := if r.single then .fixed else .incr

/-- The beat of word `k`. -/
def Request.beat (k : Nat) : AxiBeat where
  data := r.wdata ⟨k % 2 ^ p.wordBits, Nat.mod_lt _ (Nat.two_pow_pos _)⟩
  strb := r.be ⟨k % 2 ^ p.wordBits, Nat.mod_lt _ (Nat.two_pow_pos _)⟩
  last := decide (k + 1 = r.count)

def Request.ar : AxiAddr p.idWidth where
  id := r.id
  addr := if p.criticalWordFirst || r.single then r.addr else lineAddr p r.addr
  len := if r.single then 0 else BitVec.ofNat 8 (burstSize p)
  size := r.size.setWidth 3
  burst := if r.single then .fixed else if p.criticalWordFirst then .wrap else .incr

/-- The word at the address. -/
def Request.word : BitVec 61 := r.addr.extractLsb' 3 61

/-- Word `k` of the line at the address. -/
def Request.lineWord (k : Lane p) : BitVec 61 :=
  BitVec.ofNat 61 (r.addr.toNat / 8 / 2 ^ p.wordBits * 2 ^ p.wordBits + k.val)

end Request

/-- A write sent its address once and its words in order. -/
structure Written (r : Request p) (l : Log p) : Prop where
  aws : l.aws = [r.aw]
  beats : l.beats = (List.range r.count).map r.beat
  ars : l.ars = []
  words : l.words = []
  critical : l.critical = []

/-- A read returned the words that the slave sent for its address. -/
structure Returned (r : Request p) (l : Log p) (rdata : Words p) : Prop where
  aws : l.aws = []
  beats : l.beats = []
  ars : l.ars = [r.ar]
  words : l.words.length = r.count
  /-- A single word. -/
  single : r.single = true → ∀ mem, ReadFrom mem r.ar l.words → rdata (firstLane p) = mem r.word
  /-- A line, in words of eight bytes, and its critical word. -/
  line : r.single = false → r.size = 3 → p.criticalWordFirst = true ∨ p.byteOffset = p.wordBits + 3 →
    ∀ mem, ReadFrom mem r.ar l.words →
      (∀ k, rdata k = mem (r.lineWord k)) ∧ l.critical = [mem r.word]

/-- What the adapter does in a cycle. -/
structure Law (s : Bench p) (i : Input p) : Prop where
  /-- A grant answers a request, and no response is left to give. -/
  grant : (s.output i).gnt = true → i.req = true ∧ s.log.granted = []
  /-- A response ends the access of one grant. -/
  response : (s.output i).valid = true → ∃ r,
    (s.record i).granted = [r] ∧ (s.output i).id = r.id ∧
      if r.we then Written r (s.record i) else Returned r (s.record i) (s.output i).rdata

end Ariane.AxiAdapter
