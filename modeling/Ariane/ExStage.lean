import Ariane.BranchUnit
import Ariane.IssueReadOperands
import Ariane.MultUnit
import Ariane.Rtl.Machine

set_option autoImplicit false

/- `ex_stage.sv` behind the registers of `issue_read_operands.sv`: the units that share the port of
fixed latency, which are the ALU, the branch unit, the CSR buffer and the multiplier with the
divider. -/
namespace Ariane

namespace CsrBuffer

/-- `csr_reg_q` of `csr_buffer.sv`. -/
structure State where
  csrAddress : BitVec 12 := 0
  valid : Bool := false
  deriving DecidableEq, Inhabited

variable (q : State) (csrValid csrCommit : Bool)

/-- `csr_ready_o` -/
def csrReady : Bool := !((q.valid || csrValid) && !csrCommit)

def next (flush : Bool) (d : FuData) : State where
  csrAddress := if csrValid then d.operandB.setWidth 12 else q.csrAddress
  valid := !flush && (csrValid || q.valid && !csrCommit)

end CsrBuffer

namespace ExStage

open Rtl (Machine)

/-- The registers between issue and execution and those of the units. -/
structure State where
  issue : IssueReadOperands.State := {}
  mult : Mult.State := {}
  csr : CsrBuffer.State := {}

/-- The inputs of a cycle; `fluReady` of the issue stage is wired to the units. -/
structure Input where
  issue : IssueReadOperands.Input := {}
  flush : Bool := false
  csrCommit : Bool := false

section Cycle

variable (pkg : Pkg) (q : State) (i : Input)

/-- `fu_data_o` of the issue stage. -/
def fuData (r : IssueReadOperands.State) : FuData where
  fu := r.fu
  operator := r.operator
  operandA := r.operandA
  operandB := r.operandB
  imm := r.imm
  transId := r.transId

/-- `alu_data`, silenced without an instruction for it. -/
def aluData (r : IssueReadOperands.State) : FuData :=
  if r.aluValid || r.branchValid then fuData r else {}

def multInput : Mult.Input where
  flush := i.flush
  fuData := if q.issue.multValid then fuData q.issue else {}
  multValid := q.issue.multValid

def branchInput (r : IssueReadOperands.State) : BranchUnit.Input where
  fuData := fuData r
  pc := r.pc
  isCompressedInstr := r.isCompressed
  fuValid := r.aluValid || r.lsuValid || r.csrValid || r.multValid || r.fpuValid
  branchValid := r.branchValid
  branchCompRes := Alu.branchRes (aluData r)
  branchPredict := r.branchPredict

/-- `flu_ready_o` -/
def fluReady : Bool :=
  CsrBuffer.csrReady q.csr q.issue.csrValid i.csrCommit && Mult.multReady pkg q.mult (multInput q i)

/-- `flu_valid_o` -/
def fluValid : Bool :=
  q.issue.aluValid || q.issue.branchValid || q.issue.csrValid ||
    Mult.multValid pkg q.mult (multInput q i)

/-- `flu_result_o` and `flu_trans_id_o`. -/
def fluResult : BitVec 64 :=
  if q.issue.aluValid then Alu.result (aluData q.issue)
  else if q.issue.csrValid then q.issue.operandA
  else if Mult.multValid pkg q.mult (multInput q i) then Mult.result pkg q.mult
  else BranchUnit.branchResult (branchInput q.issue)

def fluTransId : Nat :=
  if q.issue.aluValid || q.issue.csrValid then q.issue.transId
  else if Mult.multValid pkg q.mult (multInput q i) then Mult.multTransId q.mult
  else q.issue.transId

/-- The inputs of the issue stage with the ready signal of the units. -/
def issueInput : IssueReadOperands.Input := { i.issue with fluReady := fluReady pkg q i }

def next : State where
  issue := IssueReadOperands.next pkg (issueInput pkg q i) q.issue
  mult := Mult.next pkg q.mult (multInput q i)
  csr := CsrBuffer.next q.csr q.issue.csrValid i.csrCommit i.flush (fuData q.issue)

end Cycle

def machine (pkg : Pkg) : Machine State Input := ⟨{}, next pkg⟩

end ExStage

end Ariane
