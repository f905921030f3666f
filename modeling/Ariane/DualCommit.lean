import Ariane.CommitUnit
import Ariane.IssueReadOperands

set_option autoImplicit false

/- Two instructions that retire in one cycle, compared with the same instructions one after the
other. -/
namespace Ariane.CommitUnit

open Rtl (Field member assign member_assign_self member_assign_of_disjoint)
open Riscv
open CommitStage
open IssueReadOperands (WritePort writeGpr)

/-- The register files. The floating-point registers have `FLEN` bits. -/
structure Files where
  gpr : BitVec 5 → BitVec 64 := fun _ => 0
  fpr : BitVec 5 → BitVec 64 := fun _ => 0

/-- What port `k` of the floating-point register file takes from `wdata_pack`: the packed data of
both ports, cut into pieces of `FLEN` bits. -/
def fpPortData (flen k : Nat) (wdata0 wdata1 : BitVec 64) : BitVec 64 :=
  (((wdata1 ++ wdata0) >>> (k * flen)).setWidth flen).setWidth 64

def writeFpr (p : WritePort) (wdata : BitVec 64) (fpr : BitVec 5 → BitVec 64) :
    BitVec 5 → BitVec 64 :=
  if p.weFpr then Function.update fpr p.waddr wdata else fpr

/-- The commit ports into the register files. -/
def port0 (c : CommitStage.Input) (o : CommitStage.Output) : WritePort :=
  ⟨waddr c.instr0, o.wdata0, o.weGpr0, o.weFpr0⟩

def port1 (c : CommitStage.Input) (o : CommitStage.Output) : WritePort :=
  ⟨waddr c.instr1, o.wdata1, o.weGpr1, o.weFpr1⟩

/-- The writes of both ports, in order. -/
def Files.write (pkg : Pkg) (p0 p1 : WritePort) (f : Files) : Files where
  gpr := Function.update (writeGpr p1 (writeGpr p0 f.gpr)) 0 0
  fpr :=
    if pkg.fpPresent then
      writeFpr p1 (fpPortData pkg.flen 1 p0.wdata p1.wdata)
        (writeFpr p0 (fpPortData pkg.flen 0 p0.wdata p1.wdata) f.fpr)
    else f.fpr

/-- The instructions that retire. -/
def retired (c : CommitStage.Input) (o : CommitStage.Output) : List ScoreboardEntry :=
  (if o.commitAck0 then [c.instr0] else []) ++ (if o.commitAck1 then [c.instr1] else [])

/-- The register files after a cycle. -/
def filesNext (pkg : Pkg) (s : State) (i : Input) (f : Files) : Files :=
  f.write pkg (port0 (commitInput pkg s i) (commitOutput pkg s i))
    (port1 (commitInput pkg s i) (commitOutput pkg s i))

/-- The same cycle before slot 1 has finished. -/
def alone (i : Input) : Input := { i with instr1 := { i.instr1 with valid := false } }

/-- The cycle after slot 0 has retired alone: slot 1 has moved up, and no interrupt and no debug
request is pending. -/
structure Follows (pkg : Pkg) (s : State) (i j : Input) : Prop where
  first : j.instr0 = i.instr1
  second : j.instr1.valid = false
  noAmo : j.amoResp.ack = false
  noRequest : j.debugReqI = true → s.csr.debugMode = true
  noInterrupt : (CsrRegfile.interrupt s.csr (csrRequest pkg s j)).valid = false

/-- What the decoder guarantees of the two instructions. -/
structure Decoded (pkg : Pkg) (i : Input) : Prop where
  fence0 : namesFence i.instr0.op = true → i.instr0.fu = .csr
  fence1 : namesFence i.instr1.op = true → i.instr1.fu = .csr
  amo1 : pkg.isAmo i.instr1.op = true → i.instr1.fu = .store

/-- Retiring both instructions at once has the effects of retiring them in two cycles. -/
structure Sequential (pkg : Pkg) (s : State) (i j : Input) (f : Files) : Prop where
  gpr : (filesNext pkg s i f).gpr =
    (filesNext pkg (next pkg s (alone i)) j (filesNext pkg s (alone i) f)).gpr
  fpr : (filesNext pkg s i f).fpr =
    (filesNext pkg (next pkg s (alone i)) j (filesNext pkg s (alone i) f)).fpr
  fflags : member (next pkg s i).csr.fcsr Fcsr.fflags =
    member (next pkg (next pkg s (alone i)) j).csr.fcsr Fcsr.fflags
  fs : member (next pkg s i).csr.mstatus Status.fs =
    member (next pkg (next pkg s (alone i)) j).csr.mstatus Status.fs
  instret : (next pkg s i).csr.instret = (next pkg (next pkg s (alone i)) j).csr.instret
  retired : retired (commitInput pkg s i) (commitOutput pkg s i) =
    retired (commitInput pkg s (alone i)) (commitOutput pkg s (alone i)) ++
      retired (commitInput pkg (next pkg s (alone i)) j)
        (commitOutput pkg (next pkg s (alone i)) j)

/-- The floating-point register file takes the data of port 1 from its place in `wdata_pack`. -/
def FprIntact (pkg : Pkg) (i : Input) : Prop :=
  pkg.fpPresent = true → pkg.isRdFpr i.instr1.op = true →
    fpPortData pkg.flen 1 (if i.amoResp.ack then i.amoResp.result else i.instr0.result)
      i.instr1.result = (i.instr1.result.setWidth pkg.flen).setWidth 64

/-- Slot 0 has finished, does not trap and does not serialise. -/
structure Passable (pkg : Pkg) (s : State) (i : Input) : Prop where
  ack0 : (commitOutput pkg s i).commitAck0 = true
  finished : i.instr0.valid = true
  noTrap : (exCommit pkg s i).valid = false
  noCsr : i.instr0.fu ≠ .csr
  noFence : namesFence i.instr0.op = false

section Pair

variable {pkg : Pkg} {s : State} {i : Input}

/-- Everything that port 1 asks for. -/
structure Dual (pkg : Pkg) (s : State) (i : Input) : Prop where
  ack0 : (commitOutput pkg s i).commitAck0 = true
  valid1 : i.instr1.valid = true
  running : halt s = false
  noCsr : i.instr0.fu ≠ .csr
  noFlush : s.controller.flushDcache = false
  noStep : member s.csr.dcsr Dcsr.step ≠ 1#1
  noTrap : (exCommit pkg s i).valid = false
  clean1 : i.instr1.ex.valid = false
  unit1 : onSecondPort i.instr1.fu = true

theorem dual_of_ack1 (ack : (commitOutput pkg s i).commitAck1 = true) : Dual pkg s i := by
  have taken : secondPortTaken (commitInput pkg s i) (commitOutput pkg s i) = true := by
    rw [commitOutput, commit_commitAck1] at ack
    exact ack
  simp only [secondPortTaken, Bool.and_eq_true, Bool.not_eq_true', bne_iff_ne] at taken
  obtain ⟨⟨⟨⟨⟨⟨⟨⟨ack0, valid1⟩, running⟩, noCsr⟩, noFlush⟩, noStep⟩, noTrap⟩, clean1⟩, unit1⟩ := taken
  refine ⟨ack0, valid1, running, noCsr, noFlush, ?_, noTrap, clean1, unit1⟩
  have step : (member s.csr.dcsr Dcsr.step == 1#1) = false := noStep
  exact beq_eq_false_iff_ne.mp step

/-- Slot 0 sees the same inputs, whatever slot 1 holds. -/
theorem alone_commitInput :
    commitInput pkg s (alone i) =
      { commitInput pkg s i with instr1 := { i.instr1 with valid := false } } := by
  have debug : debugReq pkg s (alone i) = debugReq pkg s i := by
    rw [debugReq, debugReq, commit_amoValidCommit, commit_amoValidCommit]
    rfl
  have request : csrRequest pkg s (alone i) = csrRequest pkg s i := by
    have op : (commit pkg (requested pkg s (alone i))).csrOp =
        (commit pkg (requested pkg s i)).csrOp := by
      rw [commit_csrOp, commit_csrOp]
      unfold requested
      rw [debug]
      rfl
    unfold csrRequest
    rw [op, debug]
    rfl
  rw [commitInput, request, requested, debug]
  rfl

theorem alone_exCommit : exCommit pkg s (alone i) = exCommit pkg s i := by
  rw [exCommit, alone_commitInput]
  rfl

/-- Slot 0 alone gives the outputs of port 0, and nothing on port 1. -/
theorem alone_outputs :
    (commitOutput pkg s (alone i)).commitAck0 = (commitOutput pkg s i).commitAck0 ∧
      (commitOutput pkg s (alone i)).wdata0 = (commitOutput pkg s i).wdata0 ∧
      (commitOutput pkg s (alone i)).weGpr0 = (commitOutput pkg s i).weGpr0 ∧
      (commitOutput pkg s (alone i)).weFpr0 = (commitOutput pkg s i).weFpr0 := by
  simp only [commitOutput, alone_commitInput, commit_commitAck0, commit_wdata0, commit_weGpr0,
    commit_weFpr0]
  exact ⟨rfl, rfl, rfl, rfl⟩

theorem unfinished_outputs (idle : i.instr1.valid = false) :
    (commitOutput pkg s i).commitAck1 = false ∧ (commitOutput pkg s i).weGpr1 = false ∧
      (commitOutput pkg s i).weFpr1 = false := by
  have missing : secondPortTaken (commitInput pkg s i) (commitOutput pkg s i) = false := by
    show ((commitOutput pkg s i).commitAck0 && i.instr1.valid && _ && _ && _ && _ && _ && _ && _) =
      false
    rw [idle]
    simp only [Bool.and_false, Bool.false_and]
  rw [commitOutput] at missing
  rw [commitOutput, commit_commitAck1, commit_weGpr1, commit_weFpr1, missing]
  exact ⟨rfl, rfl, rfl⟩

section Dual

variable (dual : Dual pkg s i)

include dual

/-- A debug request does not reach a cycle that retires. -/
theorem Dual.clear : debugReq pkg s i = true → s.csr.debugMode = true := by
  intro request
  have acked := dual.ack0
  rw [commitOutput, commit_commitAck0, Bool.and_eq_true] at acked
  obtain ⟨alive, acked⟩ := acked
  cases amo : takesAmo pkg (commitInput pkg s i) with
  | true =>
      rw [debugReq, commit_amoValidCommit] at request
      have masked : (live (presented s i) && takesAmo pkg (presented s i)) = true := by
        rw [Bool.and_eq_true]
        exact ⟨alive, amo⟩
      rw [masked, Bool.not_true, Bool.and_false] at request
      exact absurd request (by decide)
  | false =>
      rw [amo] at acked
      simp only [Bool.false_eq_true, ↓reduceIte, Bool.and_eq_true] at acked
      have clear : (!debugReq pkg s i || s.csr.debugMode) = true := acked.1
      rw [request] at clear
      exact clear

theorem Dual.plain : CsrRegfile.Plain (csrInput pkg s i) :=
  ⟨csrOp_plain pkg s i dual.noCsr, dual.noTrap⟩

theorem Dual.plain_alone : CsrRegfile.Plain (csrInput pkg s (alone i)) := by
  refine ⟨csrOp_plain pkg s (alone i) dual.noCsr, ?_⟩
  show (exCommit pkg s (alone i)).valid = false
  rw [alone_exCommit]
  exact dual.noTrap

/-- A cycle that retires both instructions does not enter debug mode. -/
theorem Dual.debugMode : (next pkg s (alone i)).csr.debugMode = s.csr.debugMode := by
  show (CsrRegfile.next pkg s.csr _).debugMode = _
  rw [CsrRegfile.next_debugMode, dual.plain_alone.noReturn.2.2, Bool.not_false, Bool.true_and]
  cases inside : s.csr.debugMode with
  | true => rfl
  | false =>
      have noBreak : CsrRegfile.isBreakpoint (csrInput pkg s (alone i)) = false := by
        rw [CsrRegfile.isBreakpoint, dual.plain_alone.noTrap, Bool.false_and]
      have noRequest : CsrRegfile.debugRequested (csrInput pkg s (alone i)) = false := by
        have masked : debugReq pkg s i = false := by
          rw [← Bool.not_eq_true]
          intro request
          rw [dual.clear request] at inside
          exact absurd inside (by decide)
        have same : debugReq pkg s (alone i) = debugReq pkg s i :=
          congrArg CommitStage.Input.debugReq alone_commitInput
        show (debugReq pkg s (alone i) && _) = false
        rw [same, masked, Bool.false_and]
      have noStep : CsrRegfile.stepped s.csr (csrInput pkg s (alone i)) = false := by
        rw [CsrRegfile.stepped, beq_eq_false_iff_ne.mpr dual.noStep, Bool.false_and]
      rw [CsrRegfile.setDebugPc, inside, noBreak, noRequest, noStep]
      rfl

theorem Dual.awake : s.csr.wfi = false ∧ s.controller.fenceActive = false := by
  have running := dual.running
  rw [halt, Controller.halt, Bool.or_eq_false_iff] at running
  exact running

variable (decoded : Decoded pkg i)

include decoded

theorem Dual.noFence : takesFence (commitInput pkg s i) = false := by
  have named : namesFence i.instr0.op = false := by
    rw [← Bool.not_eq_true]
    intro fence
    exact dual.noCsr (decoded.fence0 fence)
  simp only [namesFence, Bool.or_eq_false_iff] at named
  show (i.instr0.op == .sfenceVma || (i.instr0.op == .fenceI ||
    (s.controller.flushDcache && i.instr0.fu != .store)) || i.instr0.op == .fence) = false
  rw [named.1.1, named.1.2, named.2, dual.noFlush]
  rfl

/-- The second instruction finds the core running. -/
theorem Dual.running_next :
    halt (next pkg s (alone i)) = false ∧
      (next pkg s (alone i)).controller.flushDcache = false := by
  have fence := dual.noFence decoded
  simp only [takesFence, Bool.or_eq_false_iff] at fence
  obtain ⟨⟨_, noFenceI⟩, noFence⟩ := fence
  have outputs : (commitOutput pkg s (alone i)).fence = false ∧
      (commitOutput pkg s (alone i)).fenceI = false := by
    have noFence : ((commitInput pkg s (alone i)).instr0.op == .fence) = false := noFence
    have noFenceI : takesFenceI (commitInput pkg s (alone i)) = false := noFenceI
    rw [commitOutput, commit_fence, commit_fenceI, noFence, noFenceI]
    simp only [Bool.and_false, Bool.false_and, and_self]
  have idle : (next pkg s (alone i)).controller = {} :=
    Controller.next_idle _ _ dual.awake.2 outputs.1 outputs.2
  have awake : (next pkg s (alone i)).csr.wfi = false := by
    show CsrRegfile.waits s.csr (csrInput pkg s (alone i)) = false
    rw [CsrRegfile.waits, dual.plain_alone.op, dual.awake.1]
    split
    · rfl
    · simp
  refine ⟨?_, ?_⟩
  · rw [halt, Controller.halt, awake, idle]
    rfl
  · rw [idle]

end Dual

/-- Port 1 retires its instruction into one of the register files. -/
theorem Dual.port1 (dual : Dual pkg s i) (ack : (commitOutput pkg s i).commitAck1 = true) :
    (commitOutput pkg s i).weGpr1 = !pkg.isRdFpr i.instr1.op ∧
      (commitOutput pkg s i).weFpr1 = pkg.isRdFpr i.instr1.op ∧
      (commitOutput pkg s i).wdata1 = i.instr1.result ∧
      (commitOutput pkg s i).wdata0 =
        if i.amoResp.ack then i.amoResp.result else i.instr0.result := by
  rw [commitOutput, commit_commitAck1] at ack
  have other : ((commitInput pkg s i).instr0.fu == .csr) = false :=
    beq_eq_false_iff_ne.mpr dual.noCsr
  rw [commitOutput, commit_weGpr1, commit_weFpr1, commit_wdata1, commit_wdata0, ack, other,
    Bool.and_false, if_neg (by decide)]
  exact ⟨rfl, rfl, rfl, rfl⟩

end Pair

section Second

variable {pkg : Pkg} {s : State} {i j : Input} (dual : Dual pkg s i) (decoded : Decoded pkg i)
  (follows : Follows pkg (next pkg s (alone i)) i j)

include dual

theorem Dual.noCsr1 : i.instr1.fu ≠ .csr := by
  intro unit
  have second := dual.unit1
  rw [unit] at second
  exact absurd second (by decide)

include follows

/-- The second instruction does not trap in its own cycle either. -/
theorem second_plain : CsrRegfile.Plain (csrInput pkg (next pkg s (alone i)) j) := by
  have unit : j.instr0.fu ≠ .csr := by
    rw [follows.first]
    exact dual.noCsr1
  have quiet : (CsrRegfile.interrupt (next pkg s (alone i)).csr { irq1 := j.irq1 }).valid =
      false := follows.noInterrupt
  refine ⟨csrOp_plain _ _ _ unit, ?_⟩
  show (exCommit pkg (next pkg s (alone i)) j).valid = false
  rw [exCommit_plain _ _ _ unit, follows.first, dual.clean1, quiet, Bool.or_self, Bool.and_false]

include decoded

theorem second_retires : retires (commitInput pkg (next pkg s (alone i)) j) = true := by
  have alive : live (commitInput pkg (next pkg s (alone i)) j) = true := by
    show (j.instr0.valid && !halt (next pkg s (alone i))) = true
    rw [follows.first, dual.valid1, (dual.running_next decoded).1]
    rfl
  have noAmo : pkg.isAmo j.instr0.op = false := by
    rw [follows.first, ← Bool.not_eq_true]
    intro amo
    have second := dual.unit1
    rw [decoded.amo1 amo] at second
    exact absurd second (by decide)
  have clear : debugClear (commitInput pkg (next pkg s (alone i)) j) = true := by
    show (!debugReq pkg (next pkg s (alone i)) j || (next pkg s (alone i)).csr.debugMode) = true
    rw [debugReq_plain _ _ _ noAmo]
    cases request : j.debugReqI with
    | false => rfl
    | true =>
        rw [follows.noRequest request]
        rfl
  have quiet : (exception (commitInput pkg (next pkg s (alone i)) j)).valid = false :=
    (second_plain dual follows).noTrap
  rw [retires, alive, clear, quiet]
  rfl

/-- The second instruction retires on port 0 with the writes that port 1 would have made. -/
theorem second_outputs :
    (commitOutput pkg (next pkg s (alone i)) j).commitAck0 = true ∧
      (commitOutput pkg (next pkg s (alone i)) j).weGpr0 = !pkg.isRdFpr i.instr1.op ∧
      (commitOutput pkg (next pkg s (alone i)) j).weFpr0 = pkg.isRdFpr i.instr1.op ∧
      (commitOutput pkg (next pkg s (alone i)) j).wdata0 = i.instr1.result := by
  have retiring := second_retires dual decoded follows
  simp only [retires, Bool.and_eq_true, Bool.not_eq_true'] at retiring
  obtain ⟨⟨alive, clear⟩, quiet⟩ := retiring
  have second := dual.unit1
  have amo : pkg.isAmo j.instr0.op = false := by
    rw [follows.first, ← Bool.not_eq_true]
    intro amo
    rw [decoded.amo1 amo] at second
    exact absurd second (by decide)
  have noAmo : takesAmo pkg (commitInput pkg (next pkg s (alone i)) j) = false := by
    show (pkg.rva && pkg.isAmo j.instr0.op && _) = false
    rw [amo, Bool.and_false, Bool.false_and]
  have noStore : takesStore pkg (commitInput pkg (next pkg s (alone i)) j) = false := by
    show (j.instr0.fu == .store && _) = false
    have other : (j.instr0.fu == .store) = false := by
      rw [beq_eq_false_iff_ne, follows.first]
      intro store
      rw [store] at second
      exact absurd second (by decide)
    rw [other, Bool.false_and]
  have noFence : takesFence (commitInput pkg (next pkg s (alone i)) j) = false := by
    have named : namesFence j.instr0.op = false := by
      rw [follows.first, ← Bool.not_eq_true]
      intro fence
      exact dual.noCsr1 (decoded.fence1 fence)
    simp only [namesFence, Bool.or_eq_false_iff] at named
    show (j.instr0.op == .sfenceVma || (j.instr0.op == .fenceI ||
      ((next pkg s (alone i)).controller.flushDcache && j.instr0.fu != .store)) ||
      j.instr0.op == .fence) = false
    rw [named.1.1, named.1.2, named.2, (dual.running_next decoded).2]
    rfl
  have noCsr : ((commitInput pkg (next pkg s (alone i)) j).instr0.fu == .csr) = false := by
    show (j.instr0.fu == .csr) = false
    rw [follows.first]
    exact beq_eq_false_iff_ne.mpr dual.noCsr1
  have answer : (commitInput pkg (next pkg s (alone i)) j).amoResp.ack = false := follows.noAmo
  have op : (commitInput pkg (next pkg s (alone i)) j).instr0 = i.instr1 := follows.first
  rw [commitOutput, commit_commitAck0, commit_weGpr0, commit_weFpr0, commit_wdata0, alive, clear,
    quiet, noAmo, noStore, noFence, noCsr, answer, op]
  simp only [Bool.and_false, Bool.false_eq_true, ↓reduceIte, Bool.not_false, Bool.or_true,
    Bool.true_or, Bool.and_self, Bool.true_and, and_self]

end Second

/-- The zero register may be cleared between two writes. -/
theorem writeGpr_zero (p : WritePort) (gpr : BitVec 5 → BitVec 64) :
    Function.update (writeGpr p (Function.update gpr 0 0)) 0 0 =
      Function.update (writeGpr p gpr) 0 0 := by
  funext r
  by_cases zero : r = 0
  · rw [zero, Function.update_self, Function.update_self]
  · rw [Function.update_of_ne zero, Function.update_of_ne zero]
    unfold writeGpr
    split
    · by_cases here : r = p.waddr
      · rw [here, Function.update_self, Function.update_self]
      · rw [Function.update_of_ne here, Function.update_of_ne here, Function.update_of_ne zero]
    · exact Function.update_of_ne zero ..

/-- Port 0 takes the low end of the packed data. -/
theorem fpPortData_zero (flen : Nat) (small : flen ≤ 64) (wdata0 wdata1 : BitVec 64) :
    fpPortData flen 0 wdata0 wdata1 = (wdata0.setWidth flen).setWidth 64 := by
  have low : ((wdata1 ++ wdata0) >>> (0 * flen)).setWidth flen = wdata0.setWidth flen := by
    rw [Nat.zero_mul, BitVec.ushiftRight_zero, BitVec.setWidth_append, dif_pos small]
  rw [fpPortData, low]

/-- Registers of 64 bits take the data of their port. -/
theorem fprIntact_of_flen (pkg : Pkg) (i : Input) (wide : pkg.flen = 64) : FprIntact pkg i := by
  intro _ _
  have high : ∀ x y : BitVec 64, ((y ++ x) >>> (1 * 64)).setWidth 64 = y := by
    intro x y
    apply BitVec.eq_of_getLsbD_eq
    intro k below
    have place : ¬ 1 * 64 + k < 64 := by omega
    rw [BitVec.getLsbD_setWidth, BitVec.getLsbD_ushiftRight, BitVec.getLsbD_append, if_neg place,
      decide_eq_true below, Bool.true_and]
    congr 1
    omega
  rw [fpPortData, wide, high, BitVec.setWidth_eq, BitVec.setWidth_eq]

section Both

variable {pkg : Pkg} {s : State} {i j : Input} (f : Files) (dual : Dual pkg s i)
  (ack1 : (commitOutput pkg s i).commitAck1 = true) (decoded : Decoded pkg i)
  (follows : Follows pkg (next pkg s (alone i)) i j)

/-- Slot 0 alone writes through port 0 only. -/
theorem alone_ports :
    port0 (commitInput pkg s (alone i)) (commitOutput pkg s (alone i)) =
        port0 (commitInput pkg s i) (commitOutput pkg s i) ∧
      (port1 (commitInput pkg s (alone i)) (commitOutput pkg s (alone i))).weGpr = false ∧
      (port1 (commitInput pkg s (alone i)) (commitOutput pkg s (alone i))).weFpr = false := by
  obtain ⟨_, wdata, weGpr, weFpr⟩ := @alone_outputs pkg s i
  refine ⟨?_, (unfinished_outputs rfl).2⟩
  rw [port0, port0, wdata, weGpr, weFpr, alone_commitInput]

include dual ack1 decoded follows

/-- The second instruction writes through port 0 what port 1 would have written. -/
theorem second_ports :
    port0 (commitInput pkg (next pkg s (alone i)) j) (commitOutput pkg (next pkg s (alone i)) j) =
        port1 (commitInput pkg s i) (commitOutput pkg s i) ∧
      (port1 (commitInput pkg (next pkg s (alone i)) j)
        (commitOutput pkg (next pkg s (alone i)) j)).weGpr = false ∧
      (port1 (commitInput pkg (next pkg s (alone i)) j)
        (commitOutput pkg (next pkg s (alone i)) j)).weFpr = false := by
  obtain ⟨weGpr1, weFpr1, wdata1, _⟩ := dual.port1 ack1
  obtain ⟨_, weGpr2, weFpr2, wdata2⟩ := second_outputs dual decoded follows
  refine ⟨?_, (unfinished_outputs follows.second).2⟩
  have target : (commitInput pkg (next pkg s (alone i)) j).instr0 =
      (commitInput pkg s i).instr1 := follows.first
  rw [port0, port1, target, weGpr1, weFpr1, wdata1, weGpr2, weFpr2, wdata2]

theorem dual_gpr : (filesNext pkg s i f).gpr =
    (filesNext pkg (next pkg s (alone i)) j (filesNext pkg s (alone i) f)).gpr := by
  obtain ⟨first, idle, _⟩ := @alone_ports pkg s i
  obtain ⟨second, idle2, _⟩ := second_ports dual ack1 decoded follows
  have skip : ∀ (p : WritePort) (g : BitVec 5 → BitVec 64), p.weGpr = false →
      writeGpr p g = g := by
    intro p g off
    rw [writeGpr, off]
    rfl
  show Function.update (writeGpr (port1 _ _) (writeGpr (port0 _ _) f.gpr)) 0 0 =
    Function.update (writeGpr (port1 (commitInput pkg (next pkg s (alone i)) j) _)
      (writeGpr (port0 _ _) (Function.update (writeGpr (port1 (commitInput pkg s (alone i)) _)
        (writeGpr (port0 _ _) f.gpr)) 0 0))) 0 0
  rw [skip _ _ idle2, skip _ _ idle, writeGpr_zero, first, second]

/-- The floating-point registers agree exactly when port 1 delivers the data of slot 1. -/
theorem dual_fpr (small : pkg.flen ≤ 64) : (filesNext pkg s i f).fpr =
    (filesNext pkg (next pkg s (alone i)) j (filesNext pkg s (alone i) f)).fpr ↔
      FprIntact pkg i := by
  obtain ⟨first, _, idle⟩ := @alone_ports pkg s i
  obtain ⟨second, _, idle2⟩ := second_ports dual ack1 decoded follows
  obtain ⟨_, weFpr1, wdata1, wdata0⟩ := dual.port1 ack1
  have skip : ∀ (p : WritePort) (x : BitVec 64) (g : BitVec 5 → BitVec 64), p.weFpr = false →
      writeFpr p x g = g := by
    intro p x g off
    rw [writeFpr, off]
    rfl
  have put : ∀ (p : WritePort) (x : BitVec 64) (g : BitVec 5 → BitVec 64), p.weFpr = true →
      writeFpr p x g = Function.update g p.waddr x := by
    intro p x g on
    rw [writeFpr, on]
    rfl
  have data0 : (port0 (commitInput pkg s i) (commitOutput pkg s i)).wdata =
      if i.amoResp.ack then i.amoResp.result else i.instr0.result := wdata0
  have data1 : (port1 (commitInput pkg s i) (commitOutput pkg s i)).wdata = i.instr1.result :=
    wdata1
  have enable1 : (port1 (commitInput pkg s i) (commitOutput pkg s i)).weFpr =
      pkg.isRdFpr i.instr1.op := weFpr1
  unfold FprIntact
  show (if pkg.fpPresent then writeFpr (port1 _ _) (fpPortData pkg.flen 1 (port0 _ _).wdata _)
      (writeFpr (port0 _ _) _ f.fpr) else f.fpr) =
    (if pkg.fpPresent then writeFpr (port1 (commitInput pkg (next pkg s (alone i)) j) _) _
      (writeFpr (port0 _ _) _
        (if pkg.fpPresent then writeFpr (port1 (commitInput pkg s (alone i)) _) _
          (writeFpr (port0 _ _) _ f.fpr) else f.fpr))
      else (if pkg.fpPresent then writeFpr (port1 (commitInput pkg s (alone i)) _) _
          (writeFpr (port0 _ _) _ f.fpr) else f.fpr)) ↔ _
  cases present : pkg.fpPresent with
  | false => exact iff_of_true rfl fun on => absurd on (by decide)
  | true =>
      simp only [↓reduceIte]
      rw [skip _ _ _ idle2, skip _ _ _ idle, first, second, fpPortData_zero _ small,
        fpPortData_zero _ small, fpPortData_zero _ small, data0, data1]
      cases enable : pkg.isRdFpr i.instr1.op with
      | false =>
          rw [enable] at enable1
          rw [skip _ _ _ enable1, skip _ _ _ enable1]
          exact iff_of_true rfl fun _ on => absurd on (by decide)
      | true =>
          rw [enable] at enable1
          rw [put _ _ _ enable1, put _ _ _ enable1]
          constructor
          · intro same _ _
            have here := congrFun same (port1 (commitInput pkg s i) (commitOutput pkg s i)).waddr
            rw [Function.update_self, Function.update_self] at here
            exact here
          · intro intact
            rw [intact trivial rfl]

/-- The flags accumulate in either order. -/
theorem dual_fflags : member (next pkg s i).csr.fcsr Fcsr.fflags =
    member (next pkg (next pkg s (alone i)) j).csr.fcsr Fcsr.fflags := by
  have first := (Dual.plain dual).fflags pkg s.csr
  have second := (Dual.plain_alone dual).fflags pkg s.csr
  have third := (second_plain dual follows).fflags pkg (next pkg s (alone i)).csr
  have quiet : secondPortTaken (commitInput pkg s (alone i)) (commitOutput pkg s (alone i)) =
      false := by
    rw [commitOutput, ← commit_commitAck1]
    exact (unfinished_outputs rfl).1
  have quiet2 : secondPortTaken (commitInput pkg (next pkg s (alone i)) j)
      (commitOutput pkg (next pkg s (alone i)) j) = false := by
    rw [commitOutput, ← commit_commitAck1]
    exact (unfinished_outputs follows.second).1
  have taken : secondPortTaken (commitInput pkg s i) (commitOutput pkg s i) = true := by
    rw [commitOutput, ← commit_commitAck1]
    exact ack1
  have unit : j.instr0.fu ≠ .csr := by
    rw [follows.first]
    exact dual.noCsr1
  have both := commit_flags pkg (commitInput pkg s i) dual.noCsr
  have one := commit_flags pkg (commitInput pkg s (alone i)) dual.noCsr
  have two := commit_flags pkg (commitInput pkg (next pkg s (alone i)) j) unit
  rw [commitOutput] at quiet quiet2 taken
  rw [taken, Bool.true_and] at both
  rw [quiet, Bool.false_and, if_neg (show ¬ false = true by decide)] at one
  rw [quiet2, second_retires dual decoded follows, Bool.true_and, Bool.false_and,
    if_neg (show ¬ false = true by decide)] at two
  have same : retires (commitInput pkg s (alone i)) = retires (commitInput pkg s i) := by
    rw [alone_commitInput]
    rfl
  have op : (commitInput pkg (next pkg s (alone i)) j).instr0 = (commitInput pkg s i).instr1 :=
    follows.first
  have op0 : (commitInput pkg s (alone i)).instr0 = (commitInput pkg s i).instr0 := rfl
  rw [same, op0, BitVec.ofNat_eq_ofNat, BitVec.or_zero] at one
  rw [op, BitVec.ofNat_eq_ofNat, BitVec.or_zero] at two
  calc member (next pkg s i).csr.fcsr Fcsr.fflags
      = member s.csr.fcsr Fcsr.fflags ||| flags (commit pkg (commitInput pkg s i)) := first
    _ = member s.csr.fcsr Fcsr.fflags ||| (flags (commit pkg (commitInput pkg s (alone i))) |||
          flags (commit pkg (commitInput pkg (next pkg s (alone i)) j))) := by
        rw [both, one, two]
        rfl
    _ = (member s.csr.fcsr Fcsr.fflags ||| flags (commit pkg (commitInput pkg s (alone i)))) |||
          flags (commit pkg (commitInput pkg (next pkg s (alone i)) j)) := by
        rw [BitVec.or_assoc]
    _ = member (next pkg (next pkg s (alone i)) j).csr.fcsr Fcsr.fflags := by
        have accrued : member (next pkg s (alone i)).csr.fcsr Fcsr.fflags =
            member s.csr.fcsr Fcsr.fflags ||| flags (commit pkg (commitInput pkg s (alone i))) :=
          second
        rw [← accrued]
        exact third.symm

theorem dual_fs : member (next pkg s i).csr.mstatus Status.fs =
    member (next pkg (next pkg s (alone i)) j).csr.mstatus Status.fs := by
  have first := (Dual.plain dual).fs pkg s.csr
  have second := (Dual.plain_alone dual).fs pkg s.csr
  have third := (second_plain dual follows).fs pkg (next pkg s (alone i)).csr
  obtain ⟨_, weFpr1, _⟩ := dual.port1 ack1
  obtain ⟨_, _, weFpr2, _⟩ := second_outputs dual decoded follows
  obtain ⟨_, _, _, weFpr0⟩ := @alone_outputs pkg s i
  have idle := (@unfinished_outputs pkg s (alone i) rfl).2.2
  have idle2 := (@unfinished_outputs pkg (next pkg s (alone i)) _ follows.second).2.2
  have dirty0 : (csrInput pkg s i).dirtyFpState =
      ((commitOutput pkg s i).weFpr0 || pkg.isRdFpr i.instr1.op) := by
    rw [← weFpr1]
    rfl
  have dirty1 : (csrInput pkg s (alone i)).dirtyFpState = (commitOutput pkg s i).weFpr0 := by
    show ((commitOutput pkg s (alone i)).weFpr0 || (commitOutput pkg s (alone i)).weFpr1) = _
    rw [weFpr0, idle, Bool.or_false]
  have dirty2 : (csrInput pkg (next pkg s (alone i)) j).dirtyFpState =
      pkg.isRdFpr i.instr1.op := by
    show ((commitOutput pkg (next pkg s (alone i)) j).weFpr0 ||
      (commitOutput pkg (next pkg s (alone i)) j).weFpr1) = _
    rw [weFpr2, idle2, Bool.or_false]
  rw [dirty0] at first
  rw [dirty1] at second
  rw [dirty2] at third
  have second : member (next pkg s (alone i)).csr.mstatus Status.fs = _ := second
  rw [second] at third
  refine first.trans (Eq.trans ?_ third.symm)
  cases pkg.fpPresent <;> cases (commitOutput pkg s i).weFpr0 <;>
    cases pkg.isRdFpr i.instr1.op <;> rfl

theorem dual_instret : (next pkg s i).csr.instret =
    (next pkg (next pkg s (alone i)) j).csr.instret := by
  have first := (Dual.plain dual).instret pkg s.csr
  have second := (Dual.plain_alone dual).instret pkg s.csr
  have third := (second_plain dual follows).instret pkg (next pkg s (alone i)).csr
  have ports : (csrInput pkg s i).commitAck0 = true ∧ (csrInput pkg s i).commitAck1 = true :=
    ⟨dual.ack0, ack1⟩
  have ports1 : (csrInput pkg s (alone i)).commitAck0 = true ∧
      (csrInput pkg s (alone i)).commitAck1 = false :=
    ⟨alone_outputs.1.trans dual.ack0, (unfinished_outputs rfl).1⟩
  have ports2 : (csrInput pkg (next pkg s (alone i)) j).commitAck0 = true ∧
      (csrInput pkg (next pkg s (alone i)) j).commitAck1 = false :=
    ⟨(second_outputs dual decoded follows).1, (unfinished_outputs follows.second).1⟩
  rw [ports.1, ports.2] at first
  rw [ports1.1, ports1.2] at second
  rw [ports2.1, ports2.2, dual.debugMode] at third
  have second : (next pkg s (alone i)).csr.instret = _ := second
  rw [second] at third
  refine first.trans (Eq.trans ?_ third.symm)
  cases s.csr.debugMode with
  | true => exact (BitVec.add_zero _).symm
  | false => exact (BitVec.add_assoc s.csr.instret 1 1).symm

theorem dual_retired : retired (commitInput pkg s i) (commitOutput pkg s i) =
    retired (commitInput pkg s (alone i)) (commitOutput pkg s (alone i)) ++
      retired (commitInput pkg (next pkg s (alone i)) j)
        (commitOutput pkg (next pkg s (alone i)) j) := by
  have op : (commitInput pkg (next pkg s (alone i)) j).instr0 = (commitInput pkg s i).instr1 :=
    follows.first
  rw [retired, retired, retired, dual.ack0, ack1, alone_outputs.1.trans dual.ack0,
    (unfinished_outputs (i := alone i) rfl).1, (second_outputs dual decoded follows).1,
    (unfinished_outputs follows.second).1, op]
  rfl

end Both

/-- Whenever both slots are acknowledged, slot 0 has finished, does not trap and does not
serialise; and the effects are those of two cycles exactly when the floating-point register file
receives the data of slot 1. -/
theorem dual_commit_sequential (pkg : Pkg) (s : State) (i j : Input) (f : Files)
    (small : pkg.flen ≤ 64) (decoded : Decoded pkg i)
    (ack1 : (commitOutput pkg s i).commitAck1 = true)
    (follows : Follows pkg (next pkg s (alone i)) i j) :
    Passable pkg s i ∧ (Sequential pkg s i j f ↔ FprIntact pkg i) := by
  have dual := dual_of_ack1 ack1
  refine ⟨⟨dual.ack0, ?_, dual.noTrap, dual.noCsr, ?_⟩, ?_⟩
  · have acked := dual.ack0
    rw [commitOutput, commit_commitAck0, live, Bool.and_eq_true, Bool.and_eq_true] at acked
    exact acked.1.1
  · rw [← Bool.not_eq_true]
    intro fence
    exact dual.noCsr (decoded.fence0 fence)
  · have fpr := dual_fpr f dual ack1 decoded follows small
    constructor
    · intro both
      exact fpr.mp both.fpr
    · intro intact
      exact ⟨dual_gpr f dual ack1 decoded follows, fpr.mpr intact,
        dual_fflags dual ack1 decoded follows, dual_fs dual ack1 decoded follows,
        dual_instret dual ack1 decoded follows, dual_retired dual ack1 decoded follows⟩

/-- A configuration with floating-point registers of `flen` bits. -/
def withFpu (flen : Nat) : Pkg :=
  { Pkg.rv64ima with
    fpPresent := true
    flen := flen
    isRdFpr := fun op => op == .fadd }

/-- An integer operation and a floating-point operation retire together. -/
def intThenFloat : Input where
  instr0 := { fu := .alu, rd := 1, result := 0x100000000, valid := true }
  instr1 := { fu := .fpu, op := .fadd, rd := 2, result := 7, valid := true }

/-- The floating-point operation in its own cycle. -/
def floatAlone : Input := { instr0 := intThenFloat.instr1 }

theorem intThenFloat_decoded (flen : Nat) : Decoded (withFpu flen) intThenFloat :=
  ⟨fun fence => absurd fence (by decide), fun fence => absurd fence (by decide),
    fun amo => absurd amo (show ¬ FuOp.amoNamed .fadd = true by decide)⟩

theorem floatAlone_follows {pkg : Pkg}
    (quiet : (CsrRegfile.interrupt (next pkg reset (alone intThenFloat)).csr
      (csrRequest pkg (next pkg reset (alone intThenFloat)) floatAlone)).valid = false) :
    Follows pkg (next pkg reset (alone intThenFloat)) intThenFloat floatAlone :=
  ⟨rfl, rfl, rfl, fun request => absurd request (by decide), quiet⟩

theorem dual_commit_sequential_wide :
    (commitOutput (withFpu 64) reset intThenFloat).commitAck1 = true ∧
      Sequential (withFpu 64) reset intThenFloat floatAlone {} := by
  have ack1 : (commitOutput (withFpu 64) reset intThenFloat).commitAck1 = true := by decide
  have follows : Follows (withFpu 64) (next (withFpu 64) reset (alone intThenFloat)) intThenFloat
      floatAlone := floatAlone_follows (by decide)
  refine ⟨ack1, ?_⟩
  exact (dual_commit_sequential (withFpu 64) reset intThenFloat floatAlone {} (by decide)
    (intThenFloat_decoded 64) ack1 follows).2.mpr (fprIntact_of_flen _ _ rfl)

/-- With 32-bit registers, port 1 takes the upper half of the data of port 0. -/
theorem narrow_port1_misplaced :
    ¬ ∀ (pkg : Pkg) (s : State) (i j : Input) (f : Files), pkg.flen ≤ 64 → Decoded pkg i →
      (commitOutput pkg s i).commitAck1 = true → Follows pkg (next pkg s (alone i)) i j →
      Sequential pkg s i j f := by
  intro sequential
  have both := sequential (withFpu 32) reset intThenFloat floatAlone {} (by decide)
    (intThenFloat_decoded 32) (by decide) (floatAlone_follows (by decide +kernel))
  exact absurd (congrFun both.fpr 2) (by decide)

end Ariane.CommitUnit
