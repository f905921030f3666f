import Ariane.CommitStage
import Ariane.Controller
import Ariane.CsrUpdate

set_option autoImplicit false

/- The commit stage, the CSR file and the controller, wired as in the core. The commit stage
and the CSR file answer each other within one cycle; the answers form no loop, since the
operation the commit stage presents does not depend on the exception it receives. -/
namespace Ariane.CommitUnit

open Rtl (Machine Field member assign)
open Riscv
open CommitStage
open CsrRegfile (csrException csrRdataO eret flushO setDebugPc)

/-- The registers. -/
structure State where
  csr : CsrRegfile.State := CsrRegfile.reset
  controller : Controller.State := Controller.reset
  deriving DecidableEq, Inhabited

/-- The signals of one cycle that come from other parts of the core. -/
structure Input where
  instr0 : ScoreboardEntry := {}
  instr1 : ScoreboardEntry := {}
  amoResp : AmoResp := {}
  commitLsuReady : Bool := false
  noStPending : Bool := false
  debugReqI : Bool := false
  timeIrq : Bool := false
  irq0 : Bool := false
  irq1 : Bool := false
  ipi : Bool := false
  bootAddr : BitVec 64 := 0
  hartId : BitVec 64 := 0
  csrAddr : BitVec 12 := 0
  perfData : BitVec 64 := 0
  flushDcacheAck : Bool := false
  isMispredict : Bool := false
  deriving DecidableEq, Inhabited

def reset : State := {}

/-- `halt_o` of the controller; the CSR file halts the core while it waits for an interrupt. -/
def halt (s : State) : Bool := Controller.halt s.controller { haltCsr := s.csr.wfi }

/-- The inputs of the commit stage that come from registers or from outside. -/
def presented (s : State) (i : Input) : CommitStage.Input where
  halt := halt s
  flushDcache := s.controller.flushDcache
  debugMode := s.csr.debugMode
  singleStep := member s.csr.dcsr Dcsr.step == 1#1
  instr0 := i.instr0
  instr1 := i.instr1
  amoResp := i.amoResp
  commitLsuReady := i.commitLsuReady
  noStPending := i.noStPending

/-- `debug_req`: an atomic operation that goes ahead is not interrupted. -/
def debugReq (pkg : Pkg) (s : State) (i : Input) : Bool :=
  i.debugReqI && !(commit pkg (presented s i)).amoValidCommit

/-- The same inputs with the debug request. -/
def requested (pkg : Pkg) (s : State) (i : Input) : CommitStage.Input :=
  { presented s i with debugReq := debugReq pkg s i }

/-- The inputs of the CSR file that do not depend on its exception. -/
def csrRequest (pkg : Pkg) (s : State) (i : Input) : CsrRegfile.Input where
  timeIrq := i.timeIrq
  instr0 := i.instr0
  bootAddr := i.bootAddr
  hartId := i.hartId
  csrOp := (commit pkg (requested pkg s i)).csrOp
  csrAddr := i.csrAddr
  pc := i.instr0.pc
  irq0 := i.irq0
  irq1 := i.irq1
  ipi := i.ipi
  debugReq := debugReq pkg s i
  perfData := i.perfData

/-- The inputs of the commit stage. -/
def commitInput (pkg : Pkg) (s : State) (i : Input) : CommitStage.Input :=
  { requested pkg s i with
    csrRdata := csrRdataO pkg s.csr (csrRequest pkg s i)
    csrException := csrException pkg s.csr (csrRequest pkg s i) }

/-- The outputs of the commit stage. -/
def commitOutput (pkg : Pkg) (s : State) (i : Input) : CommitStage.Output :=
  commit pkg (commitInput pkg s i)

/-- `exception_o` of the commit stage. -/
def exCommit (pkg : Pkg) (s : State) (i : Input) : Exception := exception (commitInput pkg s i)

/-- The inputs of the CSR file. -/
def csrInput (pkg : Pkg) (s : State) (i : Input) : CsrRegfile.Input :=
  { csrRequest pkg s i with
    commitAck0 := (commitOutput pkg s i).commitAck0
    commitAck1 := (commitOutput pkg s i).commitAck1
    ex := exCommit pkg s i
    csrOp := (commitOutput pkg s i).csrOp
    csrWdata := (commitOutput pkg s i).csrWdata
    dirtyFpState := dirtyFpState (commitOutput pkg s i)
    csrWriteFflags := (commitOutput pkg s i).csrWriteFflags }

/-- The inputs of the controller. -/
def controllerInput (pkg : Pkg) (s : State) (i : Input) : Controller.Input where
  flushDcacheAck := i.flushDcacheAck
  haltCsr := s.csr.wfi
  eret := eret (csrInput pkg s i)
  exValid := (exCommit pkg s i).valid
  setDebugPc := setDebugPc s.csr (csrInput pkg s i)
  isMispredict := i.isMispredict
  flushCsr := flushO pkg s.csr (csrInput pkg s i)
  fenceI := (commitOutput pkg s i).fenceI
  fence := (commitOutput pkg s i).fence
  sfenceVma := (commitOutput pkg s i).sfenceVma
  flushCommit := (commitOutput pkg s i).flushCommit

/-- The outputs of the controller. -/
def controllerOutput (pkg : Pkg) (s : State) (i : Input) : Controller.Output :=
  Controller.flushCtrl s.controller (controllerInput pkg s i)

def next (pkg : Pkg) (s : State) (i : Input) : State where
  csr := CsrRegfile.next pkg s.csr (csrInput pkg s i)
  controller := Controller.next s.controller (controllerInput pkg s i)

def machine (pkg : Pkg) : Machine State Input := ⟨reset, next pkg⟩

/-- The debugger enters, sets `dcsr.step` and resumes. -/
def enableStep : List Input :=
  [{ instr0 := { valid := true }, debugReqI := true },
    { instr0 := { fu := .csr, op := .csrWrite, result := 4, valid := true }, csrAddr := 0x7b0 },
    { instr0 := { fu := .csr, op := .dret, valid := true } }]

section Wiring

variable (pkg : Pkg) (s : State) (i : Input)

theorem commitOutput_csrOp :
    (commitOutput pkg s i).csrOp = (commit pkg (requested pkg s i)).csrOp := by
  rw [commitOutput, commit_csrOp, commit_csrOp]
  rfl

theorem commitOutput_amoValidCommit :
    (commitOutput pkg s i).amoValidCommit = (commit pkg (presented s i)).amoValidCommit := by
  rw [commitOutput, commit_amoValidCommit, commit_amoValidCommit]
  rfl

theorem csrException_csrInput :
    csrException pkg s.csr (csrInput pkg s i) = csrException pkg s.csr (csrRequest pkg s i) := by
  simp only [csrException, CsrRegfile.accessIllegal, CsrRegfile.written_updateAccessException,
    csrInput, commitOutput_csrOp]
  rfl

/-- The commit stage receives the exception and the value that the CSR file reports for its
outputs, and the debug request that its atomic branch masks. -/
theorem wired :
    (commitInput pkg s i).csrException = csrException pkg s.csr (csrInput pkg s i) ∧
      (commitInput pkg s i).csrRdata = csrRdataO pkg s.csr (csrInput pkg s i) ∧
      (commitInput pkg s i).debugReq =
        (i.debugReqI && !(commitOutput pkg s i).amoValidCommit) := by
  refine ⟨?_, ?_, ?_⟩
  · rw [csrException_csrInput]
    rfl
  · simp only [csrInput, commitOutput_csrOp]
    rfl
  · rw [commitOutput_amoValidCommit]
    rfl

/-- Without a CSR access the CSR file reports nothing but interrupts. -/
theorem csrException_idle (q : CsrRegfile.State) (j : CsrRegfile.Input) (idle : j.csrOp = .add) :
    csrException pkg q j = CsrRegfile.interrupt q { irq1 := j.irq1 } := by
  have written : (CsrRegfile.written pkg q j).updateAccessException = false := by
    rw [CsrRegfile.written_updateAccessException, idle]
    rfl
  have legal : CsrRegfile.accessIllegal pkg q j = false := by
    rw [CsrRegfile.accessIllegal, written, CsrRegfile.readAccessException, idle]
    rfl
  rw [csrException, legal]
  rfl

theorem csrOp_plain (unit : i.instr0.fu ≠ .csr) : (commitOutput pkg s i).csrOp = .add := by
  have other : (i.instr0.fu == .csr) = false := beq_eq_false_iff_ne.mpr unit
  rw [commitOutput, commit_csrOp]
  show (if _ && i.instr0.fu == .csr then i.instr0.op else FuOp.add) = .add
  rw [other, Bool.and_false]
  rfl

theorem exCommit_plain (unit : i.instr0.fu ≠ .csr) :
    (exCommit pkg s i).valid = (live (commitInput pkg s i) &&
      (i.instr0.ex.valid || (CsrRegfile.interrupt s.csr { irq1 := i.irq1 }).valid)) := by
  have idle : (csrRequest pkg s i).csrOp = .add := by
    show (commit pkg (requested pkg s i)).csrOp = .add
    rw [← commitOutput_csrOp, csrOp_plain pkg s i unit]
  have other : ((commitInput pkg s i).instr0.fu == .csr) = false :=
    beq_eq_false_iff_ne.mpr unit
  have answer : (commitInput pkg s i).csrException = CsrRegfile.interrupt s.csr { irq1 := i.irq1 } :=
    csrException_idle pkg s.csr (csrRequest pkg s i) idle
  rw [exCommit, exception_valid, other, answer, Bool.and_false, Bool.not_false, Bool.and_true]
  rfl

/-- An instruction that is not atomic leaves the debug request as it is. -/
theorem debugReq_plain (plain : pkg.isAmo i.instr0.op = false) :
    debugReq pkg s i = i.debugReqI := by
  have branch : takesAmo pkg (presented s i) = false := by
    show (pkg.rva && pkg.isAmo i.instr0.op && !i.instr0.ex.valid) = false
    rw [plain, Bool.and_false, Bool.false_and]
  rw [debugReq, commit_amoValidCommit, branch, Bool.and_false, Bool.not_false, Bool.and_true]

end Wiring

end Ariane.CommitUnit
