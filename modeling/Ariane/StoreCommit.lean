import Ariane.CommitUnit

set_option autoImplicit false

/- Committing a store and flushing the execute stage: the eight causes of the flush, and the
two of them that a retiring store does not exclude. -/
namespace Ariane.CommitUnit

open Rtl (Machine member)
open Riscv
open CommitStage
open CsrRegfile (interrupt csrException setDebugPc)

/-- `flush_ex_o` of the controller. -/
def flushEx (pkg : Pkg) (s : State) (i : Input) : Bool := (controllerOutput pkg s i).flushEx

/-- What the store buffer asserts as `commit_and_flush`. -/
def Exclusive (pkg : Pkg) (s : State) (i : Input) : Prop :=
  ¬ ((commitOutput pkg s i).commitLsu = true ∧ flushEx pkg s i = true)

/-- Slot 0 holds a finished store, nothing stops it and the store buffer takes it. -/
def storeRetires (pkg : Pkg) (s : State) (i : Input) : Bool :=
  i.instr0.valid && !halt s && i.instr0.fu == .store && !pkg.isAmo i.instr0.op &&
    !i.instr0.ex.valid && !(interrupt s.csr { irq1 := i.irq1 }).valid &&
    (!i.debugReqI || s.csr.debugMode) && i.commitLsuReady

/-- The core single-steps. -/
def singleStepping (s : State) : Bool :=
  !s.csr.debugMode && member s.csr.dcsr Dcsr.step == 1#1

/-- No store retires while the core single-steps, and a store that is named a fence waits. -/
def Unflushed (pkg : Pkg) (s : State) (i : Input) : Prop :=
  storeRetires pkg s i = true →
    if namesFence i.instr0.op then i.noStPending = false else singleStepping s = false

instance decidableUnflushed (pkg : Pkg) (s : State) (i : Input) :
    Decidable (Unflushed pkg s i) :=
  inferInstanceAs (Decidable (_ → _))

section Causes

variable (pkg : Pkg) (s : State) (i : Input)

theorem commitLsu_eq : (commitOutput pkg s i).commitLsu = storeRetires pkg s i := by
  rw [commitOutput, commit_commitLsu]
  by_cases unit : i.instr0.fu = .store
  · cases plain : pkg.isAmo i.instr0.op with
    | true =>
        have other : takesStore pkg (commitInput pkg s i) = false := by
          show (i.instr0.fu == .store && !pkg.isAmo i.instr0.op) = false
          rw [plain, Bool.not_true, Bool.and_false]
        rw [other, storeRetires, plain]
        simp only [Bool.not_true, Bool.and_false, Bool.false_and]
    | false =>
        have store : takesStore pkg (commitInput pkg s i) = true := by
          show (i.instr0.fu == .store && !pkg.isAmo i.instr0.op) = true
          rw [unit, plain]
          rfl
        have clear : debugClear (commitInput pkg s i) = (!i.debugReqI || s.csr.debugMode) := by
          show (!debugReq pkg s i || s.csr.debugMode) = _
          rw [debugReq_plain pkg s i plain]
        have alive : live (commitInput pkg s i) = (i.instr0.valid && !halt s) := rfl
        have raised := exCommit_plain pkg s i (by rw [unit]; decide)
        rw [exCommit, alive] at raised
        have ready : (commitInput pkg s i).commitLsuReady = i.commitLsuReady := rfl
        rw [store, clear, raised, alive, ready, storeRetires, unit, plain]
        cases i.instr0.valid <;> cases halt s <;> cases i.instr0.ex.valid <;>
          cases (interrupt s.csr { irq1 := i.irq1 }).valid <;> simp
  · have other : takesStore pkg (commitInput pkg s i) = false := by
      show (i.instr0.fu == .store && !pkg.isAmo i.instr0.op) = false
      rw [beq_eq_false_iff_ne.mpr unit, Bool.false_and]
    rw [other, storeRetires, beq_eq_false_iff_ne.mpr unit]
    simp only [Bool.and_false, Bool.false_and]

/-- Of the eight causes only the fences and the single step remain next to a retiring store. -/
theorem flushEx_store (retires : storeRetires pkg s i = true) :
    flushEx pkg s i = if namesFence i.instr0.op then i.noStPending else singleStepping s := by
  simp only [storeRetires, Bool.and_eq_true, Bool.not_eq_true', Bool.or_eq_true,
    beq_iff_eq] at retires
  obtain ⟨⟨⟨⟨⟨⟨⟨finished, running⟩, unit⟩, plain⟩, clean⟩, quiet⟩, clear⟩, ready⟩ := retires
  have alive : live (commitInput pkg s i) = true := by
    show (i.instr0.valid && !halt s) = true
    rw [finished, running]
    rfl
  have noTrap : (exCommit pkg s i).valid = false := by
    rw [exCommit_plain pkg s i (by rw [unit]; decide), clean, quiet, Bool.or_self, Bool.and_false]
  have op : (csrInput pkg s i).csrOp = .add := csrOp_plain pkg s i (by rw [unit]; decide)
  have noReturn : CsrRegfile.eret (csrInput pkg s i) = false := by
    simp only [CsrRegfile.eret, CsrRegfile.mret, CsrRegfile.sret, CsrRegfile.dret, op]
    rfl
  have noCsrFlush : CsrRegfile.flushO pkg s.csr (csrInput pkg s i) = false := by
    rw [CsrRegfile.flushO, CsrRegfile.written_idle pkg s.csr _ (by rw [op]; rfl), Bool.false_and]
  have noRequest : debugReq pkg s i = false ∨ s.csr.debugMode = true := by
    rw [debugReq_plain pkg s i plain]
    exact clear
  have answered : debugClear (commitInput pkg s i) = true := by
    show (!debugReq pkg s i || s.csr.debugMode) = true
    rcases noRequest with none | inside
    · rw [none]
      rfl
    · rw [inside, Bool.or_true]
  have notAmo : takesAmo pkg (commitInput pkg s i) = false := by
    show (pkg.rva && pkg.isAmo i.instr0.op && !i.instr0.ex.valid) = false
    rw [plain, Bool.and_false, Bool.false_and]
  have fenceI : takesFenceI (commitInput pkg s i) = (i.instr0.op == .fenceI) := by
    show (i.instr0.op == .fenceI || (s.controller.flushDcache && i.instr0.fu != .store)) = _
    rw [unit, bne_self_eq_false, Bool.and_false, Bool.or_false]
  have fences : takesFence (commitInput pkg s i) = namesFence i.instr0.op := by
    rw [takesFence, fenceI]
    rfl
  have ack : (commitOutput pkg s i).commitAck0 =
      if namesFence i.instr0.op then i.noStPending else true := by
    have accepted : (commitInput pkg s i).commitLsuReady = true := ready
    rw [commitOutput, commit_commitAck0, alive, answered, notAmo, fences, accepted]
    simp only [Bool.true_and, Bool.or_true, Bool.false_eq_true, ↓reduceIte]
    rfl
  have debug : setDebugPc s.csr (csrInput pkg s i) =
      (singleStepping s && (commitOutput pkg s i).commitAck0) := by
    have noBreak : CsrRegfile.isBreakpoint (csrInput pkg s i) = false := by
      show ((exCommit pkg s i).valid && _) = false
      rw [noTrap, Bool.false_and]
    rw [setDebugPc, noBreak, singleStepping]
    rcases noRequest with none | inside
    · have unasked : CsrRegfile.debugRequested (csrInput pkg s i) = false := by
        show (debugReq pkg s i && i.instr0.valid) = false
        rw [none, Bool.false_and]
      rw [unasked]
      cases s.csr.debugMode <;> rfl
    · rw [inside]
      rfl
  have asked : controllerInput pkg s i =
      { flushDcacheAck := i.flushDcacheAck
        haltCsr := s.csr.wfi
        setDebugPc := singleStepping s && (commitOutput pkg s i).commitAck0
        isMispredict := i.isMispredict
        fenceI := i.instr0.op == .fenceI && i.noStPending
        fence := i.instr0.op == .fence && i.noStPending
        sfenceVma := i.instr0.op == .sfenceVma && i.noStPending } := by
    unfold controllerInput
    rw [noReturn, noTrap, noCsrFlush, debug]
    simp only [commitOutput, commit_fenceI, commit_fence, commit_sfenceVma, commit_flushCommit,
      alive, answered, fenceI, Bool.true_and]
    rfl
  have anyFence : (i.instr0.op == .fence && i.noStPending ||
      i.instr0.op == .fenceI && i.noStPending || i.instr0.op == .sfenceVma && i.noStPending) =
      (namesFence i.instr0.op && i.noStPending) := by
    rw [namesFence, ← Bool.and_or_distrib_right, ← Bool.and_or_distrib_right]
    congr 1
    rw [Bool.or_comm, Bool.or_comm (i.instr0.op == .fence), Bool.or_assoc]
  rw [flushEx, controllerOutput, Controller.flushCtrl_flushEx, asked, ack]
  simp only [Controller.flushes, Bool.or_false, anyFence]
  cases namesFence i.instr0.op <;> cases i.noStPending <;> simp

end Causes

/-- In every state and for every input, committing a store and flushing the execute stage
exclude each other exactly when no store retires during a single step or as a fence; so a run
keeps the assertion of the store buffer in all of its cycles exactly when all of them do. -/
theorem commit_and_flush_exclusive (pkg : Pkg) :
    (∀ s i, Exclusive pkg s i ↔ Unflushed pkg s i) ∧
      ∀ inputs, (machine pkg).Legal (Exclusive pkg) reset inputs ↔
        (machine pkg).Legal (Unflushed pkg) reset inputs := by
  have cycle : ∀ s i, Exclusive pkg s i ↔ Unflushed pkg s i := by
    intro s i
    rw [Exclusive, commitLsu_eq, Unflushed, not_and]
    apply forall_congr'
    intro retires
    rw [flushEx_store pkg s i retires, Bool.not_eq_true]
    split <;> rfl
  refine ⟨cycle, ?_⟩
  intro inputs
  constructor
  · exact Machine.Legal.mono fun s i => (cycle s i).mp
  · exact Machine.Legal.mono fun s i => (cycle s i).mpr

/-- The first instruction of the step is a store, and the store buffer has space. -/
def steppedStore : Input :=
  { instr0 := { fu := .store, op := .sd, valid := true }, commitLsuReady := true }

/-- The single step retires the store and flushes the store buffer in the same cycle. -/
theorem stepped_store_is_flushed :
    ¬ ∀ inputs i, Exclusive .rv64ima ((machine .rv64ima).run inputs) i := by
  intro exclusive
  apply exclusive enableStep steppedStore
  decide

end Ariane.CommitUnit
