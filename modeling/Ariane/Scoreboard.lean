import Ariane.Pkg
import Ariane.Rtl.Machine
import Ariane.Rtl.Ring

set_option autoImplicit false

/- `scoreboard.sv`: the issue queue that tracks every instruction from issue to
commit, and the operand lookup of the issue stage. -/
namespace Ariane.Scoreboard

open Rtl (Machine)
open Rtl.Ring (write slot ptrBits)

/-- One element of `mem_q`. -/
structure Slot where
  issued : Bool := false
  sbe : ScoreboardEntry := {}
  deriving Inhabited

/-- The registers of the scoreboard. -/
structure State where
  mem : Nat → Slot
  issueCnt : Nat
  issuePointer : Nat
  commitPointer : Nat

/-- One write-back port: `trans_id_i`, `wbdata_i`, `ex_i` and `wb_valid_i`. -/
structure WbPort where
  transId : Nat := 0
  data : BitVec 64 := 0
  ex : Exception := {}
  valid : Bool := false
  deriving DecidableEq, Inhabited

/-- The inputs of one cycle. Of `resolved_branch_i` only the target address is used. -/
structure Input where
  flushUnissuedInstr : Bool := false
  flush : Bool := false
  unresolvedBranch : Bool := false
  commitAck0 : Bool := false
  commitAck1 : Bool := false
  decodedInstr : ScoreboardEntry := {}
  decodedInstrValid : Bool := false
  issueAck : Bool := false
  resolvedTarget : BitVec 64 := 0
  wb : List WbPort := []

/-- `mem_q <= '{default: 0}` and all pointers zero. -/
def reset : State where
  mem _ := {}
  issueCnt := 0
  issuePointer := 0
  commitPointer := 0

/-- Addition in a pointer of `BITS_ENTRIES` bits. -/
def ptrAdd (n a b : Nat) : Nat := (a + b) % 2 ^ ptrBits n

/-- `issue_full`. -/
def issueFull (n : Nat) (s : State) : Bool := s.issueCnt == n - 1

/-- `commit_instr_o[k]`. -/
def commitInstr (n : Nat) (s : State) (k : Nat) : ScoreboardEntry :=
  (s.mem (ptrAdd n s.commitPointer k)).sbe

/-- `issue_instr_o`: the decoded instruction with its transaction id. -/
def issueInstr (s : State) (i : Input) : ScoreboardEntry :=
  { i.decodedInstr with transId := s.issuePointer }

/-- `issue_instr_valid_o`. -/
def issueInstrValid (n : Nat) (s : State) (i : Input) : Bool :=
  i.decodedInstrValid && !i.unresolvedBranch && !issueFull n s

/-- `decoded_instr_ack_o`. -/
def decodedInstrAck (n : Nat) (s : State) (i : Input) : Bool :=
  i.issueAck && !issueFull n s

/-- An instruction enters the queue in this cycle. -/
def enters (n : Nat) (s : State) (i : Input) : Bool :=
  i.decodedInstrValid && decodedInstrAck n s i && !i.flushUnissuedInstr

/-- First part of `issue_fifo`: put the acknowledged instruction into the queue. -/
def enqueue (n : Nat) (s : State) (i : Input) : State :=
  if enters n s i then
    { s with
      mem := write n s.mem s.issuePointer { issued := true, sbe := i.decodedInstr }
      issueCnt := ptrAdd n s.issueCnt 1
      issuePointer := ptrAdd n s.issuePointer 1 }
  else s

/-- What a write-back stores into the entry. -/
def writeBackEntry (target : BitVec 64) (p : WbPort) (e : ScoreboardEntry) : ScoreboardEntry :=
  let done := { e with
    valid := true
    result := p.data
    bp := { e.bp with predictAddress := target } }
  if p.ex.valid then { done with ex := p.ex }
  -- the FPU reports its flags in the cause of an exception that is not valid
  else if e.fu = .fpu ∨ e.fu = .fpuVec then { done with ex := { e.ex with cause := p.ex.cause } }
  else done

/-- One iteration of the write-back loop. A transaction id past the end of the array
selects no entry. -/
def writeBackPort (n : Nat) (target : BitVec 64) (mem : Nat → Slot) (p : WbPort) :
    Nat → Slot :=
  if p.valid ∧ p.transId < n ∧ (mem p.transId).issued then
    Function.update mem p.transId
      { mem p.transId with sbe := writeBackEntry target p (mem p.transId).sbe }
  else mem

/-- Second part of `issue_fifo`: the write-back ports, in order. -/
def writeBack (n : Nat) (i : Input) (s : State) : State :=
  { s with mem := i.wb.foldl (writeBackPort n i.resolvedTarget) s.mem }

/-- A slot after commit. -/
def Slot.retire (e : Slot) : Slot :=
  { issued := false, sbe := { e.sbe with valid := false } }

/-- One iteration of the commit loop; `base` is `commit_pointer_q`. -/
def commitPort (n base k : Nat) (ack : Bool) (s : State) : State :=
  if ack then
    { s with
      mem := write n s.mem (ptrAdd n base k) (s.mem (ptrAdd n base k)).retire
      issueCnt := ptrAdd n s.issueCnt (2 ^ ptrBits n - 1)
      commitPointer := ptrAdd n s.commitPointer 1 }
  else s

/-- A slot after a flush. -/
def Slot.clear (e : Slot) : Slot :=
  { issued := false
    sbe := { e.sbe with valid := false, ex := { e.sbe.ex with valid := false } } }

/-- Last part of `issue_fifo`: a flush empties the queue. -/
def flushAll (i : Input) (s : State) : State :=
  if i.flush then
    { mem := fun j => (s.mem j).clear
      issueCnt := 0
      issuePointer := 0
      commitPointer := 0 }
  else s

/-- `issue_fifo`: everything that changes the queue in one cycle. -/
def next (n : Nat) (s : State) (i : Input) : State :=
  flushAll i
    (commitPort n s.commitPointer 1 i.commitAck1
      (commitPort n s.commitPointer 0 i.commitAck0
        (writeBack n i (enqueue n s i))))

/-- The scoreboard with `n = NR_ENTRIES` slots. -/
def machine (n : Nat) : Machine State Input := ⟨reset, next n⟩

/-- One iteration of the loop of `clobber_output`. -/
def clobberSlot (fpr : FuOp → Bool) (s : State) (clobber : BitVec 6 → Fu) (j : Nat) :
    BitVec 6 → Fu :=
  if (s.mem j).issued ∧ fpr (s.mem j).sbe.op then
    Function.update clobber (s.mem j).sbe.rd (s.mem j).sbe.fu
  else clobber

/-- `rd_clobber_gpr_o`. -/
def rdClobberGpr (pkg : Pkg) (n : Nat) (s : State) : BitVec 6 → Fu :=
  Function.update
    ((List.range n).foldl (clobberSlot (fun op => !pkg.isRdFpr op) s) fun _ => .none) 0 .none

/-- `rd_clobber_fpr_o`. -/
def rdClobberFpr (pkg : Pkg) (n : Nat) (s : State) : BitVec 6 → Fu :=
  (List.range n).foldl (clobberSlot pkg.isRdFpr s) fun _ => .none

/-- The outputs of `read_operands`. -/
structure Operands where
  rs1 : BitVec 64 := 0
  rs1Valid : Bool := false
  rs2 : BitVec 64 := 0
  rs2Valid : Bool := false
  rs3 : BitVec 64 := 0
  rs3Valid : Bool := false

/-- The registers that `read_operands` looks for, on behalf of operation `op`. -/
structure Lookup where
  op : FuOp
  rs1 : BitVec 6
  rs2 : BitVec 6
  rs3 : BitVec 6

/-- The entry writes the register `r` of the register file that `fpr` selects. -/
def writesReg (pkg : Pkg) (e : ScoreboardEntry) (r : BitVec 6) (fpr : Bool) : Bool :=
  e.rd == r && pkg.isRdFpr e.op == fpr

/-- One iteration of the first loop of `read_operands`. An entry serves one operand. -/
def readSlot (pkg : Pkg) (s : State) (l : Lookup) (o : Operands) (j : Nat) : Operands :=
  let e := (s.mem j).sbe
  if (s.mem j).issued then
    if writesReg pkg e l.rs1 (pkg.isRs1Fpr l.op) then
      { o with rs1 := e.result, rs1Valid := e.valid }
    else if writesReg pkg e l.rs2 (pkg.isRs2Fpr l.op) then
      { o with rs2 := e.result, rs2Valid := e.valid }
    else if writesReg pkg e l.rs3 (pkg.isImmFpr l.op) then
      { o with rs3 := (e.result.setWidth pkg.flen).setWidth 64, rs3Valid := e.valid }
    else o
  else o

/-- The forwarding loop of `read_operands`; the first port that matches ends it. -/
def forwardPorts (pkg : Pkg) (n : Nat) (s : State) (l : Lookup) :
    List WbPort → Operands → Operands
  | [], o => o
  | p :: rest, o =>
      let e := (s.mem p.transId).sbe
      let usable := p.transId < n && p.valid && !p.ex.valid
      if usable && writesReg pkg e l.rs1 (pkg.isRs1Fpr l.op) then
        { o with rs1 := p.data, rs1Valid := p.valid }
      else if usable && writesReg pkg e l.rs2 (pkg.isRs2Fpr l.op) then
        { o with rs2 := p.data, rs2Valid := p.valid }
      else if usable && writesReg pkg e l.rs3 (pkg.isImmFpr l.op) then
        { o with rs3 := (p.data.setWidth pkg.flen).setWidth 64, rs3Valid := p.valid }
      else forwardPorts pkg n s l rest o

/-- `read_operands`. Register zero of the integer file is never forwarded. -/
def readOperands (pkg : Pkg) (n : Nat) (s : State) (l : Lookup) (wb : List WbPort) :
    Operands :=
  let o := forwardPorts pkg n s l wb ((List.range n).foldl (readSlot pkg s l) {})
  { o with
    rs1Valid := o.rs1Valid && !(l.rs1 == 0 && !pkg.isRs1Fpr l.op)
    rs2Valid := o.rs2Valid && !(l.rs2 == 0 && !pkg.isRs2Fpr l.op) }

end Ariane.Scoreboard
