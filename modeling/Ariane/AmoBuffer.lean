import Ariane.Pkg
import Ariane.Rtl.Machine
import Ariane.Rtl.Queue

set_option autoImplicit false

/- `fifo_v3.sv`, the queue of the common cells: `depth` slots, no valid bits. -/
namespace Ariane.FifoV3

open Rtl (Queue)
open Rtl.Ring (clog2 write)

/-- `ADDR_DEPTH`. -/
def addrDepth (depth : Nat) : Nat := if 1 < depth then clog2 depth else 1

/-- The inputs of one cycle. -/
structure Input (α : Type) where
  flush : Bool := false
  data : α
  push : Bool := false
  pop : Bool := false

/-- `full_o`: the counter is compared with the depth cut to `ADDR_DEPTH + 1` bits. -/
def full {α : Type} (depth : Nat) (q : Queue α) : Bool :=
  q.count == depth % 2 ^ (addrDepth depth + 1)

/-- `empty_o` without fall-through. -/
def empty {α : Type} (q : Queue α) : Bool := q.count == 0

/-- `data_o`. -/
def front {α : Type} (q : Queue α) : α := q.mem q.readPointer

/-- Advance a pointer and wrap at the end of the array. -/
def advance (depth p : Nat) : Nat :=
  if p + 1 = depth % 2 ^ addrDepth depth then 0 else (p + 1) % 2 ^ addrDepth depth

/-- Counting in the status counter of `ADDR_DEPTH + 1` bits. -/
def cntInc (depth c : Nat) : Nat := (c + 1) % 2 ^ (addrDepth depth + 1)

def cntDec (depth c : Nat) : Nat :=
  (c + (2 ^ (addrDepth depth + 1) - 1)) % 2 ^ (addrDepth depth + 1)

/-- `read_write_comb` followed by the registers. -/
def next {α : Type} (depth : Nat) (q : Queue α) (i : Input α) : Queue α :=
  let pushes := i.push && !full depth q
  let pops := i.pop && !empty q
  let mem := if pushes then write depth q.mem q.writePointer i.data else q.mem
  if i.flush then ⟨mem, 0, 0, 0⟩
  else
    { mem := mem
      readPointer := if pops then advance depth q.readPointer else q.readPointer
      writePointer := if pushes then advance depth q.writePointer else q.writePointer
      count :=
        if pushes && pops then q.count
        else if pops then cntDec depth q.count
        else if pushes then cntInc depth q.count
        else q.count }

/-- A queue of one slot: both pointers stay at the slot. -/
structure Single {α : Type} (q : Queue α) : Prop where
  readPointer : q.readPointer = 0
  writePointer : q.writePointer = 0
  count : q.count ≤ 1

/-- What a queue of one slot holds. -/
def held {α : Type} (q : Queue α) : Option α := if q.count = 0 then none else some (front q)

section Single

variable {α : Type} (q : Queue α) (i : Input α)

theorem next_single (single : Single q) : Single (next 1 q i) := by
  have small := single.count
  have split : q.count = 0 ∨ q.count = 1 := by omega
  unfold next
  cases i.flush with
  | true => exact ⟨rfl, rfl, Nat.zero_le 1⟩
  | false =>
      rcases split with count | count
      · simp only [empty, full, single.readPointer, single.writePointer, count]
        cases i.push with
        | true => cases i.pop <;> exact ⟨rfl, rfl, Nat.le_of_ble_eq_true rfl⟩
        | false => cases i.pop <;> exact ⟨rfl, rfl, Nat.le_of_ble_eq_true rfl⟩
      · simp only [empty, full, single.readPointer, single.writePointer, count]
        cases i.push with
        | true => cases i.pop <;> exact ⟨rfl, rfl, Nat.le_of_ble_eq_true rfl⟩
        | false => cases i.pop <;> exact ⟨rfl, rfl, Nat.le_of_ble_eq_true rfl⟩

/-- One cycle of a queue of one slot. A push into the full slot is ignored, also when the
slot is popped. -/
theorem next_held (single : Single q) :
    held (next 1 q i) =
      if i.flush then none
      else match held q with
        | none => if i.push then some i.data else none
        | some x => if i.pop then none else some x := by
  have small := single.count
  have split : q.count = 0 ∨ q.count = 1 := by omega
  unfold next
  cases i.flush with
  | true => rfl
  | false =>
      rcases split with count | count
      · simp only [held, front, empty, full, single.readPointer, single.writePointer, count]
        cases i.push with
        | true => cases i.pop <;> rfl
        | false => cases i.pop <;> rfl
      · simp only [held, front, empty, full, single.readPointer, single.writePointer, count]
        cases i.push with
        | true => cases i.pop <;> rfl
        | false => cases i.pop <;> rfl

end Single

end Ariane.FifoV3

/- `amo_buffer.sv`: holds one atomic memory operation until the commit stage lets it go
to the cache. -/
namespace Ariane.AmoBuffer

open Rtl (Queue)

/-- `amo_t`. -/
inductive AmoT where
  | none | lr | sc | swap | add | and | or | xor | max | maxu | min | minu
  deriving DecidableEq, Inhabited

/-- `amo_op_t`. -/
structure AmoOp where
  op : AmoT := .none
  paddr : BitVec 64 := 0
  data : BitVec 64 := 0
  size : BitVec 2 := 0
  deriving DecidableEq, Inhabited

/-- The inputs of one cycle. -/
structure Input where
  flush : Bool := false
  valid : Bool := false
  amoOp : AmoT := .none
  paddr : BitVec 64 := 0
  data : BitVec 64 := 0
  dataSize : BitVec 2 := 0
  amoResp : AmoResp := {}
  amoValidCommit : Bool := false
  noStPending : Bool := false
  deriving DecidableEq, Inhabited

/-- The register of the buffer is a `fifo_v2` of depth one. -/
abbrev State := Queue AmoOp

def reset : State := ⟨fun _ => {}, 0, 0, 0⟩

/-- `amo_valid`: the fifo is full. -/
def amoValid (s : State) : Bool := FifoV3.full 1 s

/-- `ready_o`: the fifo is empty. -/
def ready (s : State) : Bool := FifoV3.empty s

/-- `amo_req_o.req`. -/
def req (s : State) (i : Input) : Bool := i.noStPending && i.amoValidCommit && amoValid s

/-- The payload of `amo_req_o`. -/
def amoDataOut (s : State) : AmoOp := FifoV3.front s

/-- `flush_amo_buffer`: an operation in the commit stage is no longer speculative. -/
def flushAmoBuffer (i : Input) : Bool := i.flush && !i.amoValidCommit

/-- `amo_data_in`. -/
def Input.dataIn (i : Input) : AmoOp := ⟨i.amoOp, i.paddr, i.data, i.dataSize⟩

def next (s : State) (i : Input) : State :=
  FifoV3.next 1 s ⟨flushAmoBuffer i, i.dataIn, i.valid, i.amoResp.ack⟩

theorem reset_single : FifoV3.Single reset := ⟨rfl, rfl, Nat.zero_le 1⟩

theorem next_single (s : State) (i : Input) (single : FifoV3.Single s) :
    FifoV3.Single (next s i) :=
  FifoV3.next_single s _ single

/-- A flush while the commit stage holds no operation empties the buffer. -/
theorem next_flushed (s : State) (i : Input) (single : FifoV3.Single s) (flush : i.flush = true)
    (speculative : i.amoValidCommit = false) : FifoV3.held (next s i) = none := by
  unfold next
  rw [FifoV3.next_held s _ single]
  simp only [flushAmoBuffer, flush, speculative, Bool.not_false, Bool.and_self, ↓reduceIte]

end Ariane.AmoBuffer
