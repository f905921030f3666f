import Ariane.CommitStage
import Ariane.Controller
import Ariane.IssueReadOperands

set_option autoImplicit false

/- `issue_stage.sv`, the commit stage and the controller, wired as in the core: instructions are
renamed, tracked by the scoreboard, read their operands, and retire in order. -/
namespace Ariane.IssueStage

open Rtl (Machine)
open CommitStage (commit exception waddr)
open Scoreboard (WbPort commitInstr readOperands rdClobberGpr rdClobberFpr)
open IssueReadOperands (WritePort)

/-- The registers. -/
structure State where
  reName : ReName.State := ReName.reset
  scoreboard : Scoreboard.State := Scoreboard.reset
  operands : IssueReadOperands.State := IssueReadOperands.reset
  controller : Controller.State := Controller.reset

/-- The signals of one cycle that come from other parts of the core. Fields of the commit stage
and of the controller that the wiring drives are ignored. -/
structure Input where
  decodedInstr : ScoreboardEntry := {}
  decodedInstrValid : Bool := false
  fluReady : Bool := false
  fpuReady : Bool := false
  lsuReady : Bool := false
  fprdata0 : BitVec 64 := 0
  fprdata1 : BitVec 64 := 0
  fprdata2 : BitVec 64 := 0
  wb : List WbPort := []
  resolvedTarget : BitVec 64 := 0
  commit : CommitStage.Input := {}
  controller : Controller.Input := {}

def reset : State := {}

section Signals

variable (pkg : Pkg) (n : Nat) (s : State) (i : Input)

/-- The inputs of the commit stage. -/
def commitInput : CommitStage.Input :=
  { i.commit with
    halt := Controller.halt s.controller i.controller
    flushDcache := s.controller.flushDcache
    instr0 := commitInstr n s.scoreboard 0
    instr1 := commitInstr n s.scoreboard 1 }

/-- The outputs of the commit stage. -/
def commitOutput : CommitStage.Output := commit pkg (commitInput n s i)

/-- `exception_o.valid`. -/
def traps : Bool := (exception (commitInput n s i)).valid

/-- The inputs of the controller. -/
def controllerInput : Controller.Input :=
  { i.controller with
    exValid := traps n s i
    fenceI := (commitOutput pkg n s i).fenceI
    fence := (commitOutput pkg n s i).fence
    sfenceVma := (commitOutput pkg n s i).sfenceVma
    flushCommit := (commitOutput pkg n s i).flushCommit }

/-- The outputs of the controller. -/
def controllerOutput : Controller.Output :=
  Controller.flushCtrl s.controller (controllerInput pkg n s i)

/-- The renamed instruction. -/
def renamed : ScoreboardEntry := ReName.issueInstr pkg s.reName i.decodedInstr

/-- The inputs of the scoreboard except for the acknowledge; no branch counts as unresolved. -/
def offered : Scoreboard.Input where
  flushUnissuedInstr := (controllerOutput pkg n s i).flushUnissuedInstr
  flush := (controllerOutput pkg n s i).flushId
  commitAck0 := (commitOutput pkg n s i).commitAck0
  commitAck1 := (commitOutput pkg n s i).commitAck1
  decodedInstr := renamed pkg s i
  decodedInstrValid := i.decodedInstrValid
  resolvedTarget := i.resolvedTarget
  wb := i.wb

/-- `issue_instr_o` of the scoreboard. -/
def issueInstr : ScoreboardEntry := Scoreboard.issueInstr s.scoreboard (offered pkg n s i)

/-- The inputs of the operand stage. -/
def readInput : IssueReadOperands.Input where
  flush := (controllerOutput pkg n s i).flushUnissuedInstr
  issueInstr := issueInstr pkg n s i
  issueInstrValid := Scoreboard.issueInstrValid n s.scoreboard (offered pkg n s i)
  operands := readOperands pkg n s.scoreboard
    { op := (issueInstr pkg n s i).op
      rs1 := (issueInstr pkg n s i).rs1
      rs2 := (issueInstr pkg n s i).rs2
      rs3 := IssueReadOperands.rs3 (issueInstr pkg n s i) } i.wb
  rdClobberGpr := rdClobberGpr pkg n s.scoreboard
  rdClobberFpr := rdClobberFpr pkg n s.scoreboard
  fluReady := i.fluReady
  fpuReady := i.fpuReady
  lsuReady := i.lsuReady
  fprdata0 := i.fprdata0
  fprdata1 := i.fprdata1
  fprdata2 := i.fprdata2
  port0 :=
    { waddr := waddr (commitInstr n s.scoreboard 0)
      wdata := (commitOutput pkg n s i).wdata0
      weGpr := (commitOutput pkg n s i).weGpr0
      weFpr := (commitOutput pkg n s i).weFpr0 }
  port1 :=
    { waddr := waddr (commitInstr n s.scoreboard 1)
      wdata := (commitOutput pkg n s i).wdata1
      weGpr := (commitOutput pkg n s i).weGpr1
      weFpr := (commitOutput pkg n s i).weFpr1 }

/-- `issue_ack_o` of the operand stage. -/
def issueAck : Bool := IssueReadOperands.issueAck pkg (readInput pkg n s i) s.operands

/-- The inputs of the scoreboard. -/
def scoreboardInput : Scoreboard.Input := { offered pkg n s i with issueAck := issueAck pkg n s i }

/-- The decoded instruction enters the scoreboard in this cycle. -/
def enters : Bool := Scoreboard.enters n s.scoreboard (scoreboardInput pkg n s i)

/-- `flush_i` of the issue stage. -/
def flushes : Bool := (controllerOutput pkg n s i).flushId

def next : State where
  reName := ReName.next pkg s.reName i.decodedInstr
    (Scoreboard.decodedInstrAck n s.scoreboard (scoreboardInput pkg n s i))
    (controllerOutput pkg n s i).flushUnissuedInstr (flushes pkg n s i)
  scoreboard := Scoreboard.next n s.scoreboard (scoreboardInput pkg n s i)
  operands := IssueReadOperands.next pkg (readInput pkg n s i) s.operands
  controller := Controller.next s.controller (controllerInput pkg n s i)

end Signals

/-- The issue stage with `n = NR_SB_ENTRIES` slots. -/
def machine (pkg : Pkg) (n : Nat) : Machine State Input := ⟨reset, next pkg n⟩

end Ariane.IssueStage
