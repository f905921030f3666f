import Ariane.Riscv
import Ariane.Rtl.Machine

set_option autoImplicit false

/- `instr_realigner.sv`: splits fetched words into compressed and 32-bit instructions. -/
namespace Ariane.InstrRealigner

open Rtl (Machine)
open Riscv

/-- The members of `branchpredict_sbe_t` that the module looks at. -/
structure BranchPredict where
  valid : Bool := false
  predictTaken : Bool := false
  deriving DecidableEq, Inhabited

/-- `frontend_fetch_t`. -/
structure FrontendFetch where
  address : BitVec 64 := 0
  instruction : BitVec 32 := 0
  branchPredict : BranchPredict := {}
  bpTaken : BitVec 2 := 0
  pageFault : Bool := false
  deriving DecidableEq, Inhabited

/-- `fetch_entry_t`. -/
structure FetchEntry where
  address : BitVec 64 := 0
  instruction : BitVec 32 := 0
  branchPredict : BranchPredict := {}
  ex : Exception := {}
  deriving DecidableEq, Inhabited

/-- The registers. -/
structure State where
  unaligned : Bool := false
  unalignedInstr : BitVec 16 := 0
  unalignedAddress : BitVec 64 := 0
  compressed : Bool := false
  deriving DecidableEq, Inhabited

/-- The inputs of one cycle. -/
structure Input where
  flush : Bool := false
  fetchEntry : FrontendFetch := {}
  fetchEntryValid : Bool := false
  fetchAck : Bool := false
  deriving DecidableEq, Inhabited

/-- What `realign_instr` assigns: the next registers and the outputs. -/
structure Output where
  regs : State
  entry : FetchEntry
  valid : Bool
  ack : Bool
  jumpUnalignedHalfWord : Bool := false

def reset : State := {}

section Block

variable (q : State) (i : Input)

/-- The lower half of the entry. -/
def lower : BitVec 16 := i.fetchEntry.instruction.extractLsb' 0 16

/-- The upper half of the entry. -/
def upper : BitVec 16 := i.fetchEntry.instruction.extractLsb' 16 16

/-- `{fetch_entry_i.address[63:2], 2'b10}`. -/
def upperAddress : BitVec 64 := i.fetchEntry.address.extractLsb' 2 62 ++ 2#2

/-- `instruction[1:0] != 2'b11`. -/
def lowerCompressed : Bool := i.fetchEntry.instruction.extractLsb' 0 2 != 3

/-- `instruction[17:16] != 2'b11`. -/
def upperCompressed : Bool := i.fetchEntry.instruction.extractLsb' 16 2 != 3

/-- `kill_upper_16_bit`: the compressed instruction in the lower half is predicted taken. -/
def killUpper16Bit : Bool :=
  i.fetchEntry.branchPredict.valid && i.fetchEntry.branchPredict.predictTaken &&
    i.fetchEntry.bpTaken.getLsbD 0

/-- The entry passes through. -/
def defaults : Output where
  regs := q
  entry := {
    address := i.fetchEntry.address
    instruction := i.fetchEntry.instruction
    branchPredict := i.fetchEntry.branchPredict
    ex := {
      valid := i.fetchEntry.pageFault
      tval := if i.fetchEntry.pageFault then i.fetchEntry.address else 0
      cause := if i.fetchEntry.pageFault then instrPageFault else 0 } }
  valid := i.fetchEntryValid
  ack := i.fetchAck

/-- The prediction belongs to the upper instruction. -/
def killLowerPrediction (o : Output) : Output :=
  if i.fetchEntry.branchPredict.valid && !i.fetchEntry.bpTaken.getLsbD 0 then
    { o with entry.branchPredict.valid := false }
  else o

/-- Save the first half of an unaligned instruction. -/
def saveUpper (o : Output) : Output :=
  { o with
    regs.unalignedInstr := upper i
    regs.unalignedAddress := upperAddress i
    regs.unaligned := true }

/-- An access on a word boundary. -/
def wordBoundary (o : Output) : Output :=
  let o := { o with regs.unaligned := false }
  if lowerCompressed i then
    let o := killLowerPrediction i { o with entry.instruction := (lower i).setWidth 32 }
    if !killUpper16Bit i then
      if upperCompressed i then { o with regs.compressed := true, ack := false }
      else saveUpper i o
    else o
  else o

/-- The entry completes an unaligned instruction. -/
def outstanding (o : Output) : Output :=
  let o := { o with
    entry.address := q.unalignedAddress
    entry.instruction := lower i ++ q.unalignedInstr }
  if !killUpper16Bit i then
    if upperCompressed i then
      killLowerPrediction i
        { o with regs.compressed := true, regs.unaligned := false, ack := false }
    else saveUpper i o
  else if i.fetchEntry.branchPredict.valid then { o with regs.unaligned := false }
  else o

/-- An access on a half-word boundary. -/
def halfWordBoundary (o : Output) : Output :=
  let o := { o with regs.unaligned := false }
  if upperCompressed i then { o with entry.instruction := (upper i).setWidth 32 }
  else { saveUpper i o with valid := false, ack := true, jumpUnalignedHalfWord := true }

/-- The upper half of the entry is the next instruction. -/
def nextCompressed (o : Output) : Output :=
  { o with
    ack := i.fetchAck
    regs.compressed := false
    entry.instruction := (upper i).setWidth 32
    entry.address := upperAddress i
    valid := true }

/-- Without an acknowledge the registers stay. -/
def stable (o : Output) : Output :=
  if !i.fetchAck && !o.jumpUnalignedHalfWord then { o with regs := q } else o

def flushed (o : Output) : Output :=
  if i.flush then { o with regs.unaligned := false, regs.compressed := false } else o

/-- The assignments before the handshake. -/
def aligned : Output :=
  let o := defaults q i
  let o :=
    if i.fetchEntryValid && !q.compressed then
      if !i.fetchEntry.address.getLsbD 1 then
        if !q.unaligned then wordBoundary i o else outstanding q i o
      else halfWordBoundary i o
    else o
  if q.compressed then nextCompressed i o else o

/-- `realign_instr`. -/
def realignInstr : Output :=
  let o := flushed i (stable q i (aligned q i))
  { o with entry.ex.tval := o.entry.address }

/-- All registers after one cycle. -/
def next : State := (realignInstr q i).regs

/-- The decoder takes the instruction. -/
def accepted : Bool := (realignInstr q i).valid && i.fetchAck

/-- The entry leaves the fetch FIFO. -/
def consumed : Bool := i.fetchEntryValid && (realignInstr q i).ack

/-- The address and the instruction at the output. -/
def output : BitVec 64 × BitVec 32 :=
  ((realignInstr q i).entry.address, (realignInstr q i).entry.instruction)

end Block

section Prediction

variable (i : Input) (o : Output)

/-! Killing a prediction changes nothing else. -/

@[simp] theorem killLowerPrediction_regs : (killLowerPrediction i o).regs = o.regs := by
  rw [killLowerPrediction]
  split <;> rfl

@[simp] theorem killLowerPrediction_valid : (killLowerPrediction i o).valid = o.valid := by
  rw [killLowerPrediction]
  split <;> rfl

@[simp] theorem killLowerPrediction_ack : (killLowerPrediction i o).ack = o.ack := by
  rw [killLowerPrediction]
  split <;> rfl

@[simp] theorem killLowerPrediction_jump :
    (killLowerPrediction i o).jumpUnalignedHalfWord = o.jumpUnalignedHalfWord := by
  rw [killLowerPrediction]
  split <;> rfl

@[simp] theorem killLowerPrediction_address :
    (killLowerPrediction i o).entry.address = o.entry.address := by
  rw [killLowerPrediction]
  split <;> rfl

@[simp] theorem killLowerPrediction_instruction :
    (killLowerPrediction i o).entry.instruction = o.entry.instruction := by
  rw [killLowerPrediction]
  split <;> rfl

end Prediction

end Ariane.InstrRealigner
