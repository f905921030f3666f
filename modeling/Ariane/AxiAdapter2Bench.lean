import Ariane.AxiAdapter2
import Ariane.Rtl.Stream

set_option autoImplicit false

/- The adapter with separate channels between its requester and a slave, with what was sent and what
came back. -/
namespace Ariane.AxiAdapter2

open Rtl (Machine)

/-- What is asked of the write channel. -/
structure WriteReq (wordBits idWidth : Nat) where
  addr : BitVec 64
  data : BitVec wordBits → BitVec 64
  be : BitVec wordBits → BitVec 8
  blen : BitVec wordBits
  size : BitVec 2
  id : BitVec idWidth

/-- What is asked of the read channel. -/
structure ReadReq (wordBits idWidth : Nat) where
  addr : BitVec 64
  blen : BitVec wordBits
  size : BitVec 2
  id : BitVec idWidth
  deriving DecidableEq

variable {wordBits idWidth : Nat}

def Input.write (i : Input wordBits idWidth) : WriteReq wordBits idWidth where
  addr := i.wrAddr
  data := i.wrData
  be := i.wrBe
  blen := i.wrBlen
  size := i.wrSize
  id := i.wrId

def Input.read (i : Input wordBits idWidth) : ReadReq wordBits idWidth where
  addr := i.rdAddr
  blen := i.rdBlen
  size := i.rdSize
  id := i.rdId

namespace WriteReq

variable (w : WriteReq wordBits idWidth)

/-- The number of words. -/
def count : Nat := w.blen.toNat + 1

def aw : AxiAddr idWidth where
  id := w.id
  addr := w.addr
  len := w.blen.setWidth 8
  size := w.size.setWidth 3
  burst := if w.blen = 0 then 0 else 1

/-- Word `k`. -/
def beat (k : Nat) : AxiBeat where
  data := w.data (BitVec.ofNat _ k)
  strb := w.be (BitVec.ofNat _ k)
  last := decide (k + 1 = w.count)

end WriteReq

def ReadReq.ar (a : ReadReq wordBits idWidth) : AxiAddr idWidth where
  id := a.id
  addr := a.addr
  len := a.blen.setWidth 8
  size := a.size.setWidth 3
  burst := if a.blen = 0 then 0 else 1

/-- The adapter; the write that waits for its grant, and what was sent since the last one; the read
that is served, with its words so far; and the read that the last cycle completed. -/
structure Bench (wordBits idWidth : Nat) where
  regs : State wordBits idWidth := {}
  pending : Option (WriteReq wordBits idWidth) := none
  aws : List (AxiAddr idWidth) := []
  beats : List AxiBeat := []
  read : Option (ReadReq wordBits idWidth) := none
  words : List (BitVec 64) := []
  due : Option (ReadReq wordBits idWidth × List (BitVec 64)) := none

namespace Bench

variable (s : Bench wordBits idWidth) (i : Input wordBits idWidth) (r : AxiResp idWidth)

def axiReq : AxiReq idWidth := AxiAdapter2.axiReq s.regs i r

def wrGnt : Bool := AxiAdapter2.wrGnt s.regs i r

/-- The addresses and the words that were sent, with this cycle. -/
def awsAfter : List (AxiAddr idWidth) :=
  s.aws ++ if (s.axiReq i r).awValid && r.awReady then [(s.axiReq i r).aw] else []

def beatsAfter : List AxiBeat :=
  s.beats ++ if (s.axiReq i r).wValid && r.wReady then [(s.axiReq i r).w] else []

/-- The read that gets its last word. -/
def completed : Option (ReadReq wordBits idWidth × List (BitVec 64)) :=
  s.read.bind fun a =>
    if r.rValid = true ∧ s.words.length = a.blen.toNat then some (a, s.words ++ [r.rData]) else none

def next : Bench wordBits idWidth where
  regs := AxiAdapter2.next s.regs i r
  pending := if i.wrReq && !s.wrGnt i r then some i.write else none
  aws := if s.wrGnt i r then [] else s.awsAfter i r
  beats := if s.wrGnt i r then [] else s.beatsAfter i r
  read :=
    if rdGnt i r then some i.read else if (s.completed r).isSome then none else s.read
  words :=
    if (s.completed r).isSome then [] else if r.rValid then s.words ++ [r.rData] else s.words
  due := s.completed r

end Bench

section Contract

variable (s : Bench wordBits idWidth) (i : Input wordBits idWidth) (r : AxiResp idWidth)

/-- Writes are held until their grant, the read data is always taken, there is one read at a time,
and the slave answers the address that it took. What it drives on `r.last` without `r.valid` is
left open. -/
structure Contract : Prop where
  held : ∀ w, s.pending = some w → i.wrReq = true ∧ i.write = w
  ready : i.rdRdy = true
  one : i.rdReq = true → s.read = none
  slave : r.rValid = true → ∃ a, s.read = some a ∧ s.words.length ≤ a.ar.len.toNat ∧
    (r.rLast = true ↔ s.words.length = a.ar.len.toNat) ∧ r.rId = a.id

/-- What the adapter does in a cycle. -/
structure Law : Prop where
  /-- The address is offered until it is taken, and word after word. -/
  offers : i.wrReq = true → (s.axiReq i r).awValid = s.aws.isEmpty ∧
    (s.axiReq i r).wValid = decide (s.beats.length < i.write.count)
  quiet : i.wrReq = false → (s.axiReq i r).awValid = false ∧ (s.axiReq i r).wValid = false
  /-- What is sent is the start of what is asked for. -/
  sends : i.wrReq = true → s.awsAfter i r <+: [i.write.aw] ∧
    s.beatsAfter i r <+: (List.range i.write.count).map i.write.beat
  /-- The grant comes with the end of both. -/
  grant : s.wrGnt i r = true ↔ i.wrReq = true ∧ s.awsAfter i r = [i.write.aw] ∧
    s.beatsAfter i r = (List.range i.write.count).map i.write.beat
  asks : (s.axiReq i r).arValid = i.rdReq ∧ (s.axiReq i r).ar = i.read.ar
  /-- A read is answered in the cycle after its last word. -/
  answers : s.regs.rdValid = s.due.isSome
  returns : ∀ a words, s.due = some (a, words) → s.regs.rdId = a.id ∧
    words.length = a.blen.toNat + 1 ∧
    ∀ k (inside : k < words.length), s.regs.rdData (BitVec.ofNat _ k) = words[k]

/-- `r.last` stays low between the words of a read, and its length fits `ar.len`. -/
structure Condition : Prop where
  last : s.words ≠ [] → r.rValid = false → r.rLast = false
  fits : i.rdReq = true → i.rdBlen.toNat < 256

end Contract

def machine (wordBits idWidth : Nat) :
    Machine (Bench wordBits idWidth) (Input wordBits idWidth × AxiResp idWidth) :=
  ⟨{}, fun s x => s.next x.1 x.2⟩

/-- The bench before cycle `t`. -/
def benchAt (inputs : Nat → Input wordBits idWidth × AxiResp idWidth) (t : Nat) :
    Bench wordBits idWidth :=
  (machine wordBits idWidth).stateAt {} inputs t

end Ariane.AxiAdapter2
