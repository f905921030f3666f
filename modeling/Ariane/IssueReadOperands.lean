import Ariane.ReName
import Ariane.Scoreboard

set_option autoImplicit false

/- `issue_read_operands.sv`: decides whether an instruction can be issued, selects its operands
from the register files, the scoreboard or the instruction, and latches them for execution. -/
namespace Ariane.IssueReadOperands

open ReName (arch)
open Scoreboard (Operands)

/-- One port of the commit stage into the register files. -/
structure WritePort where
  waddr : BitVec 5 := 0
  wdata : BitVec 64 := 0
  weGpr : Bool := false
  weFpr : Bool := false
  deriving DecidableEq, Inhabited

/-- The inputs of one cycle. The floating-point register file is read from outside. -/
structure Input where
  flush : Bool := false
  issueInstr : ScoreboardEntry := {}
  issueInstrValid : Bool := false
  operands : Operands := {}
  rdClobberGpr : BitVec 6 → Fu := fun _ => .none
  rdClobberFpr : BitVec 6 → Fu := fun _ => .none
  fluReady : Bool := false
  fpuReady : Bool := false
  lsuReady : Bool := false
  fprdata0 : BitVec 64 := 0
  fprdata1 : BitVec 64 := 0
  fprdata2 : BitVec 64 := 0
  port0 : WritePort := {}
  port1 : WritePort := {}

/-- The registers: the integer register file and the latches towards execution. The format and
rounding mode of the floating-point unit are left out. -/
structure State where
  gpr : BitVec 5 → BitVec 64 := fun _ => 0
  operandA : BitVec 64 := 0
  operandB : BitVec 64 := 0
  imm : BitVec 64 := 0
  aluValid : Bool := false
  branchValid : Bool := false
  multValid : Bool := false
  fpuValid : Bool := false
  lsuValid : Bool := false
  csrValid : Bool := false
  fu : Fu := .none
  operator : FuOp := .add
  transId : Nat := 0
  pc : BitVec 64 := 0
  isCompressed : Bool := false
  branchPredict : BranchpredictSbe := {}

def reset : State := {}

/-- `rs3_o`, the third register of floating-point operations. -/
def rs3 (e : ScoreboardEntry) : BitVec 6 := e.result.setWidth 6

/-- `fu_busy`. -/
def fuBusy (i : Input) : Bool :=
  match i.issueInstr.fu with
  | .none => false
  | .alu | .ctrlFlow | .csr | .mult => !i.fluReady
  | .fpu | .fpuVec => !i.fpuReady
  | .load | .store => !i.lsuReady

/-- The unit that is going to write register `r` of the selected register file. -/
def clobber (i : Input) (fpr : Bool) (r : BitVec 6) : Fu :=
  if fpr then i.rdClobberFpr r else i.rdClobberGpr r

/-- The register will be written by an instruction in flight. -/
def pending (i : Input) (fpr : Bool) (r : BitVec 6) : Bool := clobber i fpr r != .none

/-- A valid scoreboard value may be forwarded, unless a CSR instruction writes the register. -/
def available (i : Input) (fpr : Bool) (r : BitVec 6) (valid : Bool) : Bool :=
  valid && (fpr || i.rdClobberGpr r != .csr)

section Operands

variable (pkg : Pkg) (i : Input)

/-- The first operand has to wait for an instruction in flight. -/
def pendingRs1 : Bool :=
  !i.issueInstr.useZimm && pending i (pkg.isRs1Fpr i.issueInstr.op) i.issueInstr.rs1

def pendingRs2 : Bool := pending i (pkg.isRs2Fpr i.issueInstr.op) i.issueInstr.rs2

def pendingRs3 : Bool :=
  pkg.isImmFpr i.issueInstr.op && i.rdClobberFpr (rs3 i.issueInstr) != .none

/-- `forward_rs1` and its siblings. -/
def forwardRs1 : Bool :=
  pendingRs1 pkg i &&
    available i (pkg.isRs1Fpr i.issueInstr.op) i.issueInstr.rs1 i.operands.rs1Valid

def forwardRs2 : Bool :=
  pendingRs2 pkg i &&
    available i (pkg.isRs2Fpr i.issueInstr.op) i.issueInstr.rs2 i.operands.rs2Valid

def forwardRs3 : Bool := pendingRs3 pkg i && i.operands.rs3Valid

/-- `stall`: an operand is pending and not available. -/
def stall : Bool :=
  (pendingRs1 pkg i && !forwardRs1 pkg i) || (pendingRs2 pkg i && !forwardRs2 pkg i) ||
    (pendingRs3 pkg i && !forwardRs3 pkg i)

/-- `operand_a_n`. -/
def operandA (q : State) : BitVec 64 :=
  let a := if pkg.isRs1Fpr i.issueInstr.op then i.fprdata0 else q.gpr (arch i.issueInstr.rs1)
  let a := if forwardRs1 pkg i then i.operands.rs1 else a
  let a := if i.issueInstr.usePc then i.issueInstr.pc else a
  if i.issueInstr.useZimm then (arch i.issueInstr.rs1).setWidth 64 else a

/-- The second operand is the immediate, but not for stores and control flow. -/
def immediateB : Bool :=
  i.issueInstr.useImm && i.issueInstr.fu != .store && i.issueInstr.fu != .ctrlFlow &&
    !pkg.isRs2Fpr i.issueInstr.op

/-- `operand_b_n`. -/
def operandB (q : State) : BitVec 64 :=
  let b := if pkg.isRs2Fpr i.issueInstr.op then i.fprdata1 else q.gpr (arch i.issueInstr.rs2)
  let b := if forwardRs2 pkg i then i.operands.rs2 else b
  if immediateB pkg i then i.issueInstr.result else b

/-- `imm_n`. -/
def imm : BitVec 64 :=
  let m := if pkg.isImmFpr i.issueInstr.op then i.fprdata2 else i.issueInstr.result
  if forwardRs3 pkg i then i.operands.rs3 else m

/-- No instruction in flight has the same destination name. -/
def destinationFree : Bool :=
  clobber i (pkg.isRdFpr i.issueInstr.op) i.issueInstr.rd == .none

/-- The port writes the destination in this cycle; the address has no name bit. -/
def destinationWritten (p : WritePort) : Bool :=
  (if pkg.isRdFpr i.issueInstr.op then p.weFpr else p.weGpr) &&
    p.waddr.setWidth 6 == i.issueInstr.rd

/-- `issue_ack_o`. -/
def issueAck (q : State) : Bool :=
  let ack :=
    i.issueInstrValid &&
      ((!stall pkg i && !fuBusy i &&
        (destinationFree pkg i || destinationWritten pkg i i.port0 ||
          destinationWritten pkg i i.port1)) ||
        i.issueInstr.ex.valid || i.issueInstr.fu == .none)
  ack && !(q.multValid && i.issueInstr.fu != .mult)

/-- The instruction starts in one of the units `fus`. -/
def starts (q : State) (fus : List Fu) : Bool :=
  !i.issueInstr.ex.valid && i.issueInstrValid && issueAck pkg i q && i.issueInstr.fu ∈ fus &&
    !i.flush

/-- The integer register file after the writes of one port. -/
def writeGpr (p : WritePort) (gpr : BitVec 5 → BitVec 64) : BitVec 5 → BitVec 64 :=
  if p.weGpr then Function.update gpr p.waddr p.wdata else gpr

def next (q : State) : State where
  gpr := Function.update (writeGpr i.port1 (writeGpr i.port0 q.gpr)) 0 0
  operandA := operandA pkg i q
  operandB := operandB pkg i q
  imm := imm pkg i
  aluValid := starts pkg i q [.alu]
  branchValid := starts pkg i q [.ctrlFlow]
  multValid := starts pkg i q [.mult]
  fpuValid := starts pkg i q [.fpu, .fpuVec]
  lsuValid := starts pkg i q [.load, .store]
  csrValid := starts pkg i q [.csr]
  fu := i.issueInstr.fu
  operator := i.issueInstr.op
  transId := i.issueInstr.transId
  pc := i.issueInstr.pc
  isCompressed := i.issueInstr.isCompressed
  branchPredict := i.issueInstr.bp

end Operands

end Ariane.IssueReadOperands
