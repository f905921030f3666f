import Ariane.RemopRedirec

set_option autoImplicit false

/- `remop_redirec.vhd`: the flow process, with the comparison that drives it and the flow memory. -/
namespace Ariane.FlowProcess

open Rtl (Machine)
open RemopRedirec (addressLength Stored)

/-- An address of the flow memory. -/
abbrev Flow := BitVec addressLength

/-- A word of the flow memory: `DW` is 13. -/
abbrev Instr := BitVec 13

/-- An element of the arrays: the data, and above it 1 for a write. -/
abbrev Element := BitVec 33

namespace Instr

variable (w : Instr)

def nextFc : Flow := w.extractLsb' 9 4

def compMode : BitVec 2 := w.extractLsb' 7 2

def selNextA : BitVec 2 := w.extractLsb' 5 2

def selNextB : BitVec 3 := w.extractLsb' 2 3

/-- Watch the responses of the bus and not its requests. -/
def transactSelect : Bool := w.getLsbD 1

/-- Look for a read and not for a write. -/
def rwSelect : Bool := w.getLsbD 0

end Instr

/-- The comparator with the multiplexer behind it: the modes are `GT`, `LT`, `ET` and `NE`. -/
def comp (mode : BitVec 2) (a b : BitVec 32) : Bool :=
  if mode = 0 then decide (b < a)
  else if mode = 1 then decide (a < b)
  else if mode = 2 then a == b
  else a != b

/-- The bus as the monitor sees it in one cycle. -/
structure Bus where
  addr : BitVec 32 := 0
  write : Bool := false
  rdata : BitVec 32 := 0
  wdata : BitVec 32 := 0
  valid : Bool := false
  ready : Bool := false
  deriving DecidableEq, Inhabited

/-- What the process reads in one cycle. The registers `r00` to `r011` belong to the assertion side,
`save_value` to the redirection process. -/
structure Input extends Bus where
  overrideIn : Bool := false
  registers : BitVec 3 → BitVec 32 := fun _ => 0
  saveValue : Stored := fun _ => 0

/-- The registers of the process, the array that it writes, and the output `current_instr` of the
flow memory. -/
structure State where
  fc : Flow := 0
  delay : Bool := false
  storedCounter : Flow := 0
  wdataOverride : Bool := false
  rdataOverride : Bool := false
  check : Bool := false
  red00 : BitVec 32 := 0xAAA
  red01 : BitVec 32 := 0x10
  rIAddr : BitVec 32 := 0
  rIRdata : BitVec 32 := 0
  rIWdata : BitVec 32 := 0
  rIValid : Bool := false
  rIReady : Bool := false
  rIWrite : Bool := false
  redirectionControl : Bool := false
  storeValue : Stored := fun _ => 0
  currentInstr : Instr

section Cycle

variable (s : State) (i : Input)

/-- `next_compA`. In redirection mode it looks at what the monitor drives itself. -/
def nextCompA : BitVec 32 :=
  let addr := if s.redirectionControl then s.red01 else s.rIAddr
  let rdata :=
    if s.redirectionControl then (if s.wdataOverride then i.rdata else s.red00) else s.rIRdata
  let wdata :=
    if s.redirectionControl then (if s.wdataOverride then s.red00 else i.wdata) else s.rIWdata
  if s.currentInstr.selNextA = 0 then addr
  else if s.currentInstr.selNextA = 1 then rdata
  else if s.currentInstr.selNextA = 2 then wdata
  else 0

def nextCompB : BitVec 32 := i.registers s.currentInstr.selNextB

def c0n : Bool := comp s.currentInstr.compMode (nextCompA s i) (nextCompB s i)

/-- `transact_event` outside of redirection mode; the flow process reads it nowhere else. -/
def transactEvent : Bool := if s.currentInstr.transactSelect then s.rIReady else s.rIValid

/-- `rw_event`, likewise. -/
def rwEvent : Bool := if s.currentInstr.rwSelect then !s.rIWrite else s.rIWrite

/-- The step of redirection mode. -/
def redirects : Bool := s.redirectionControl && (c0n s i && !s.check)

/-- The condition of normal mode is met. -/
def satisfied : Bool :=
  !s.delay && (c0n s i && transactEvent s && !i.overrideIn && !s.redirectionControl)

/-- The step of normal mode. In a state that watches responses the direction is not looked at. -/
def advances : Bool := satisfied s i && (s.currentInstr.transactSelect || rwEvent s)

/-- The steps of normal mode that store the transaction. -/
def records : Bool := satisfied s i && (!s.currentInstr.transactSelect && rwEvent s)

/-- The transaction as it is stored. -/
def transaction : Element :=
  if s.currentInstr.rwSelect then 0#1 ++ s.rIRdata else 1#1 ++ s.rIWdata

/-- The element that redirection mode fetches. -/
def fetched : Element := i.saveValue s.storedCounter

def next (program : Flow → Instr) : State where
  fc := if advances s i || redirects s i then s.currentInstr.nextFc else s.fc
  delay := !s.delay && (advances s i || i.overrideIn)
  storedCounter :=
    if advances s i then s.storedCounter + 1
    else if redirects s i then s.currentInstr.nextFc
    else s.storedCounter
  wdataOverride := redirects s i && (fetched s i).getLsbD 32
  rdataOverride := redirects s i && !(fetched s i).getLsbD 32
  check := if s.redirectionControl then redirects s i else s.check
  red00 := if s.redirectionControl then (fetched s i).setWidth 32 else s.red00
  red01 := if s.redirectionControl then nextCompB s i else s.rIAddr
  rIAddr := if i.valid then i.addr else s.rIAddr
  rIRdata := if i.ready then i.rdata else s.rIRdata
  rIWdata := if i.valid then i.wdata else s.rIWdata
  rIValid := i.valid
  rIReady := i.ready
  rIWrite := if i.valid then i.write else s.rIWrite
  redirectionControl :=
    if !s.delay && i.overrideIn then true
    else s.redirectionControl && s.storedCounter != 13
  storeValue :=
    if records s i then Function.update s.storeValue s.storedCounter (transaction s)
    else s.storeValue
  currentInstr := program s.fc

def oWrite : Bool := if s.wdataOverride then true else i.write

def oRdata : BitVec 32 := if s.rdataOverride then s.red00 else i.rdata

def oWdata : BitVec 32 := if s.wdataOverride then s.red00 else i.wdata

def oValid : Bool := if s.rdataOverride || s.wdataOverride then true else i.valid

def oReady : Bool := if s.rdataOverride then true else i.ready

end Cycle

/-- After reset the flow memory shows its first word. The reset does not reach the copies of the
bus: they hold anything. -/
def machine (program : Flow → Instr) (held : Bus) : Machine State Input where
  reset :=
    { currentInstr := program 0
      rIAddr := held.addr
      rIRdata := held.rdata
      rIWdata := held.wdata
      rIValid := held.valid
      rIReady := held.ready
      rIWrite := held.write }
  next s i := next s i program

section Step

variable {s : State} {i : Input}

/-- What a step of normal mode has looked at. -/
theorem advances_iff :
    advances s i = true ↔
      s.delay = false ∧ i.overrideIn = false ∧ s.redirectionControl = false ∧ c0n s i = true ∧
        transactEvent s = true ∧ (s.currentInstr.transactSelect = true ∨ rwEvent s = true) := by
  simp only [advances, satisfied, Bool.and_eq_true, Bool.not_eq_true', Bool.or_eq_true]
  grind

theorem records_iff :
    records s i = true ↔ advances s i = true ∧ s.currentInstr.transactSelect = false := by
  simp only [records, advances, Bool.and_eq_true, Bool.not_eq_true', Bool.or_eq_true]
  grind

/-- A step of normal mode that watches requests has seen one, in the direction it looks for. -/
theorem request_of_records (record : records s i = true) :
    s.rIValid = true ∧ s.rIWrite = !s.currentInstr.rwSelect := by
  obtain ⟨advance, requests⟩ := records_iff.mp record
  obtain ⟨-, -, -, -, event, direction⟩ := advances_iff.mp advance
  constructor
  · simpa only [transactEvent, requests, Bool.false_eq_true, ↓reduceIte] using event
  · simp only [requests, Bool.false_eq_true, false_or, rwEvent] at direction
    grind

end Step

end Ariane.FlowProcess
