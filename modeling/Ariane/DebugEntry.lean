import Ariane.CommitUnit

set_option autoImplicit false

/- Debug entry: what a debug request, or a breakpoint that enters debug mode, leaves of the
program that it stops. -/
namespace Ariane.CsrRegfile

open Rtl (Field member assign member_assign_self member_assign_of_disjoint)
open Riscv

/-- The registers that a trap writes, and the stack of `mstatus` on which it pushes. -/
structure TrapRegs where
  mepc : BitVec 64
  mcause : BitVec 64
  mtval : BitVec 64
  sepc : BitVec 64
  scause : BitVec 64
  stval : BitVec 64
  mie : BitVec 1
  mpie : BitVec 1
  mpp : BitVec 2
  sie : BitVec 1
  spie : BitVec 1
  spp : BitVec 1
  deriving DecidableEq

def trapRegs (q : State) : TrapRegs where
  mepc := q.mepc
  mcause := q.mcause
  mtval := q.mtval
  sepc := q.sepc
  scause := q.scause
  stval := q.stval
  mie := member q.mstatus Status.mie
  mpie := member q.mstatus Status.mpie
  mpp := member q.mstatus Status.mpp
  sie := member q.mstatus Status.sie
  spie := member q.mstatus Status.spie
  spp := member q.mstatus Status.spp

/-- A trap to the supervisor level. -/
def TrapRegs.pushS (f : TrapRegs) (pc cause value : BitVec 64) (lvl : PrivLvl) : TrapRegs :=
  { f with
    sepc := pc
    scause := cause
    stval := value
    sie := 0
    spie := f.sie
    spp := lvl.extractLsb' 0 1 }

/-- A trap to the machine level. -/
def TrapRegs.pushM (f : TrapRegs) (pc cause value : BitVec 64) (lvl : PrivLvl) : TrapRegs :=
  { f with
    mepc := pc
    mcause := cause
    mtval := value
    mie := 0
    mpie := f.mie
    mpp := lvl }

/-- A push to the supervisor level changes nothing when its values are already there. -/
theorem TrapRegs.pushS_iff (f : TrapRegs) (pc cause value : BitVec 64) (lvl : PrivLvl) :
    f.pushS pc cause value lvl = f ↔
      f.sepc = pc ∧ f.scause = cause ∧ f.stval = value ∧ f.sie = 0 ∧ f.spie = 0 ∧
        f.spp = lvl.extractLsb' 0 1 := by
  obtain ⟨mepc, mcause, mtval, sepc, scause, stval, mie, mpie, mpp, sie, spie, spp⟩ := f
  simp only [pushS, TrapRegs.mk.injEq, true_and]
  constructor
  · intro ⟨pcEq, causeEq, valueEq, sieEq, spieEq, sppEq⟩
    exact ⟨pcEq.symm, causeEq.symm, valueEq.symm, sieEq.symm, (sieEq.trans spieEq).symm, sppEq.symm⟩
  · intro ⟨pcEq, causeEq, valueEq, sieEq, spieEq, sppEq⟩
    exact ⟨pcEq.symm, causeEq.symm, valueEq.symm, sieEq.symm, sieEq.trans spieEq.symm, sppEq.symm⟩

theorem TrapRegs.pushM_iff (f : TrapRegs) (pc cause value : BitVec 64) (lvl : PrivLvl) :
    f.pushM pc cause value lvl = f ↔
      f.mepc = pc ∧ f.mcause = cause ∧ f.mtval = value ∧ f.mie = 0 ∧ f.mpie = 0 ∧
        f.mpp = lvl := by
  obtain ⟨mepc, mcause, mtval, sepc, scause, stval, mie, mpie, mpp, sie, spie, spp⟩ := f
  simp only [pushM, TrapRegs.mk.injEq, true_and, and_true]
  constructor
  · intro ⟨pcEq, causeEq, valueEq, mieEq, mpieEq, mppEq⟩
    exact ⟨pcEq.symm, causeEq.symm, valueEq.symm, mieEq.symm, (mieEq.trans mpieEq).symm, mppEq.symm⟩
  · intro ⟨pcEq, causeEq, valueEq, mieEq, mpieEq, mppEq⟩
    exact ⟨pcEq.symm, causeEq.symm, valueEq.symm, mieEq.symm, mieEq.trans mpieEq.symm, mppEq.symm⟩

section Frame

variable (pkg : Pkg) (q : State) (i : Input)

/-- What a cycle without a CSR operation leaves of the frame. -/
def pushed : TrapRegs :=
  if trapsToS q i then
    (trapRegs q).pushS i.pc i.ex.cause (trapValue pkg i.ex) q.privLvl
  else if trapsToM q i then
    (trapRegs q).pushM i.pc i.ex.cause (trapValue pkg i.ex) q.privLvl
  else trapRegs q

theorem counters_frame :
    trapRegs (counters pkg q i) = trapRegs q := by
  unfold counters
  dsimp only
  split <;> rfl

theorem trapRegs_status (u : Written) : trapRegs (status pkg q i u) = trapRegs u.d := by
  have kept : ∀ f : Field 64, f.Disjoint Status.sxl → f.Disjoint Status.uxl →
      f.Disjoint Status.fs →
      member (status pkg q i u).mstatus f = member u.d.mstatus f := by
    intro f sxl uxl fs
    dsimp only [status]
    split
    · rw [member_assign_of_disjoint _ _ _ _ (Or.symm fs), member_assign_of_disjoint _ _ _ _ (Or.symm uxl),
        member_assign_of_disjoint _ _ _ _ (Or.symm sxl)]
    · rw [member_assign_of_disjoint _ _ _ _ (Or.symm uxl), member_assign_of_disjoint _ _ _ _ (Or.symm sxl)]
  simp (disch := decide) only [trapRegs, kept]
  rfl

theorem trapRegs_trapEntry (d : State) (same : trapRegs d = trapRegs q) :
    trapRegs (trapEntry pkg q i d) = pushed pkg q i := by
  simp only [trapRegs, TrapRegs.mk.injEq] at same
  obtain ⟨mepc, mcause, mtval, sepc, scause, stval, mie, mpie, mpp, sie, spie, spp⟩ := same
  unfold trapEntry pushed trapsToS trapsToM
  by_cases trap : takesTrap q i = true
  · by_cases target : trapToPrivLvl q i = privLvlS
    · rw [if_pos trap, if_pos (beq_iff_eq.mpr target), trap, target]
      simp (disch := decide) only [trapRegs, TrapRegs.pushS, TrapRegs.mk.injEq,
        member_assign_self, member_assign_of_disjoint, beq_self_eq_true, Bool.and_self,
        ↓reduceIte, mepc, mcause, mtval, mie, mpie, mpp, and_self]
      trivial
    · have other : ¬ (trapToPrivLvl q i == privLvlS) = true := fun h => target (beq_iff_eq.mp h)
      have missed : (trapToPrivLvl q i == privLvlS) = false := beq_eq_false_iff_ne.mpr target
      rw [if_pos trap, if_neg other, trap, bne, missed]
      simp (disch := decide) only [trapRegs, TrapRegs.pushM, TrapRegs.mk.injEq,
        member_assign_self, member_assign_of_disjoint, Bool.and_false, Bool.not_false,
        Bool.and_self, Bool.false_eq_true, ↓reduceIte, sepc, scause, stval, sie, spie, spp,
        and_self]
      trivial
  · have quiet : takesTrap q i = false := Bool.eq_false_iff.mpr trap
    rw [quiet]
    simp only [Bool.false_and, Bool.false_eq_true, ↓reduceIte, trapRegs, mepc, mcause, mtval,
      sepc, scause, stval, mie, mpie, mpp, sie, spie, spp]

theorem trapRegs_debugEntry (d : State) : trapRegs (debugEntry pkg q i d) = trapRegs d := by
  unfold debugEntry
  cases q.debugMode with
  | true => rfl
  | false =>
      cases isBreakpoint i <;> cases debugRequested i <;> cases stepped q i <;> rfl

theorem trapRegs_next (idle : i.csrOp = .add) : trapRegs (next pkg q i) = pushed pkg q i := by
  have noMret : mret i = false := by
    rw [mret, idle]
    rfl
  have noSret : sret i = false := by
    rw [sret, idle]
    rfl
  have noDret : dret i = false := by
    rw [dret, idle]
    rfl
  have start : trapRegs (externalInterrupts i (status pkg q i (written pkg q i))) =
      trapRegs q := by
    have noWrite : csrWe i.csrOp = false := by
      rw [idle]
      rfl
    rw [written_idle pkg q i noWrite]
    show trapRegs (status pkg q i { d := counters pkg q i }) = _
    rw [trapRegs_status, counters_frame]
  have kept : ∀ d : State, trapRegs (xret q i (translation q d)) = trapRegs d := by
    intro d
    rw [xret, noMret, noSret, noDret]
    rfl
  show trapRegs (xret q i (translation q (debugEntry pkg q i _))) = _
  rw [kept, trapRegs_debugEntry, trapRegs_trapEntry pkg q i _ start]

theorem next_dpc_entered (outside : q.debugMode = false) (still : stepped q i = false)
    (cause : isBreakpoint i = true ∨ debugRequested i = true) : (next pkg q i).dpc = i.pc := by
  have entry : ∀ d : State, (debugEntry pkg q i d).dpc = i.pc := by
    intro d
    rw [debugEntry, if_neg (by rw [outside]; decide), still]
    rcases cause with breaks | requested
    · rw [breaks]
      cases debugRequested i <;> rfl
    · rw [requested]
      cases isBreakpoint i <;> rfl
  have kept : ∀ d : State, (xret q i (translation q d)).dpc = d.dpc := by
    intro d
    simp only [xret, translation, apply_ite State.dpc, ite_self]
  show (xret q i (translation q (debugEntry pkg q i _))).dpc = _
  rw [kept, entry]

end Frame

end Ariane.CsrRegfile

namespace Ariane.CommitUnit

open Rtl (Machine member)
open Riscv
open CommitStage
open CsrRegfile (TrapRegs trapRegs pushed interrupt isBreakpoint ebreakEnters debugRequested
  stepped trapToPrivLvl trapVectorBase trapValue csrWe)

section Entry

variable (pkg : Pkg) (s : State) (i : Input)

/-- The CSR file enters debug mode for an external request, or for a breakpoint whose bit in
`dcsr` is set. -/
structure EntersDebug : Prop where
  outside : s.csr.debugMode = false
  cause : debugRequested (csrInput pkg s i) = true ∨
    (isBreakpoint (csrInput pkg s i) = true ∧ ebreakEnters s.csr = true)

/-- What the decoder guarantees: a breakpoint is no CSR access, fences belong to the CSR unit and
atomic operations to the store unit. -/
structure EntryDecoded (pkg : Pkg) (i : Input) : Prop where
  breakpoint : i.instr0.ex.valid = true → i.instr0.ex.cause = breakpoint →
    i.instr0.fu = .csr ∧ i.instr0.op = .add
  fence : namesFence i.instr0.op = true → i.instr0.fu = .csr
  amo : pkg.isAmo i.instr0.op = true → i.instr0.fu = .store

/-- The same finished instruction waits in slot 0. -/
structure WaitsWith (pkg : Pkg) (e : ScoreboardEntry) (s : State) (i : Input) : Prop where
  same : i.instr0 = e
  noAck : (commitOutput pkg s i).commitAck0 = false

/-- In one of the cycles the commit stage asks for the atomic operation. -/
def amoSent (pkg : Pkg) : State → List Input → Bool
  | _, [] => false
  | s, i :: rest => (commitOutput pkg s i).amoValidCommit || amoSent pkg (next pkg s i) rest

/-- The cycle writes no register, commits no store and asks for no atomic operation. -/
structure Effectless : Prop where
  gpr : (commitOutput pkg s i).weGpr0 = false ∧ (commitOutput pkg s i).weGpr1 = false
  fpr : (commitOutput pkg s i).weFpr0 = false ∧ (commitOutput pkg s i).weFpr1 = false
  csr : csrWe (csrInput pkg s i).csrOp = false
  store : (commitOutput pkg s i).commitLsu = false
  amo : (commitOutput pkg s i).amoValidCommit = false

/-- The entry into debug mode in state `s`, after the cycles `waits` with the same instruction,
leaves the program as it was. -/
structure ProgramKept (start : State) (waits : List Input) : Prop where
  frame : trapRegs (next pkg s i).csr = trapRegs s.csr
  prv : member (next pkg s i).csr.dcsr Dcsr.prv = s.csr.privLvl
  dpc : (next pkg s i).csr.dpc = i.instr0.pc
  effectless : Effectless pkg s i
  neverSent : amoSent pkg start waits = false

/-- The exception that meets the entry: an interrupt, or the exception of the instruction. -/
def pendingTrap : Exception :=
  let irq := interrupt s.csr { irq1 := i.irq1 }
  if !i.instr0.valid || halt s then {}
  else if irq.valid && i.instr0.fu != .csr then { irq with tval := i.instr0.ex.tval }
  else if i.instr0.ex.valid then i.instr0.ex
  else {}

/-- The trap finds what it writes already in the registers. -/
structure Coincides (pkg : Pkg) (s : State) (i : Input) : Prop where
  supervisor : trapToPrivLvl s.csr { ex := pendingTrap s i } = privLvlS →
    s.csr.sepc = i.instr0.pc ∧ s.csr.scause = (pendingTrap s i).cause ∧
      s.csr.stval = trapValue pkg (pendingTrap s i) ∧
      member s.csr.mstatus Status.sie = 0 ∧ member s.csr.mstatus Status.spie = 0 ∧
      member s.csr.mstatus Status.spp = s.csr.privLvl.extractLsb' 0 1
  machine : trapToPrivLvl s.csr { ex := pendingTrap s i } ≠ privLvlS →
    s.csr.mepc = i.instr0.pc ∧ s.csr.mcause = (pendingTrap s i).cause ∧
      s.csr.mtval = trapValue pkg (pendingTrap s i) ∧
      member s.csr.mstatus Status.mie = 0 ∧ member s.csr.mstatus Status.mpie = 0 ∧
      member s.csr.mstatus Status.mpp = s.csr.privLvl
  -- a breakpoint that retires under single step leaves the trap vector in `dpc`
  step : i.debugReqI = false → member s.csr.dcsr Dcsr.step = 1#1 →
    (s.controller.flushDcache = true → i.noStPending = true) →
    trapVectorBase pkg s.csr { ex := pendingTrap s i, irq1 := i.irq1 } = i.instr0.pc

end Entry

theorem csrException_cause (pkg : Pkg) (q : CsrRegfile.State) (j : CsrRegfile.Input)
    (raised : (CsrRegfile.csrException pkg q j).valid = true) :
    (CsrRegfile.csrException pkg q j).cause ≠ breakpoint := by
  intro cause
  rw [CsrRegfile.csrException] at raised cause
  split at cause
  · have illegal : illegalInstr = breakpoint := cause
    exact absurd illegal (by decide)
  · rename_i legal
    rw [if_neg legal] at raised
    have high := CsrRegfile.interrupt_cause q j raised
    rw [cause] at high
    exact absurd high (by decide)

section Entering

variable {pkg : Pkg} {s : State} {i : Input}

theorem breakpoint_own (breaks : isBreakpoint (csrInput pkg s i) = true) :
    (exCommit pkg s i).valid = true ∧ i.instr0.ex.valid = true ∧
      i.instr0.ex.cause = breakpoint := by
  have both : (exCommit pkg s i).valid = true ∧ (exCommit pkg s i).cause = breakpoint := by
    have raised : ((exCommit pkg s i).valid && (exCommit pkg s i).cause == breakpoint) = true :=
      breaks
    rw [Bool.and_eq_true, beq_iff_eq] at raised
    exact raised
  obtain ⟨raised, cause⟩ := both
  have alive := exception_live _ raised
  rw [live, Bool.and_eq_true, Bool.not_eq_true'] at alive
  obtain ⟨finished, running⟩ := alive
  have foreign : (commitInput pkg s i).csrException.valid = true →
      (commitInput pkg s i).csrException.cause ≠ breakpoint :=
    csrException_cause pkg s.csr (csrRequest pkg s i)
  have own : (commitInput pkg s i).instr0.ex.valid = true ∧
      (commitInput pkg s i).instr0.ex.cause = breakpoint := by
    rw [exCommit, exception, finished, running] at raised cause
    simp only [↓reduceIte, Bool.false_eq_true] at raised cause
    split at cause
    · rename_i interrupts
      simp only [Bool.and_eq_true] at interrupts
      exact absurd cause (foreign interrupts.1.1)
    · rename_i quiet
      rw [if_neg quiet] at raised
      split at cause
      · rename_i valid
        exact ⟨valid, cause⟩
      · rename_i clean
        rw [if_neg clean] at raised
        split at cause
        · rename_i synchronous
          rw [Bool.and_eq_true] at synchronous
          exact absurd cause (foreign synchronous.1)
        · exact absurd cause (by decide)
  exact ⟨raised, own⟩

theorem requested_blocks (outside : s.csr.debugMode = false)
    (requested : debugRequested (csrInput pkg s i) = true) :
    (commitOutput pkg s i).commitAck0 = false ∧ (csrInput pkg s i).csrOp = .add ∧
      Effectless pkg s i := by
  have request : (i.debugReqI && !(commitOutput pkg s i).amoValidCommit) = true ∧
      i.instr0.valid = true := by
    have same : (debugReq pkg s i && i.instr0.valid) = true := requested
    rw [debugReq, ← commitOutput_amoValidCommit, Bool.and_eq_true] at same
    exact same
  have noAmo : (commitOutput pkg s i).amoValidCommit = false := by
    have both := request.1
    rw [Bool.and_eq_true, Bool.not_eq_true'] at both
    exact both.2
  have masked : debugClear (commitInput pkg s i) = false := by
    have asked : (commitInput pkg s i).debugReq = true := (wired pkg s i).2.2.trans request.1
    have mode : (commitInput pkg s i).debugMode = false := outside
    rw [debugClear, asked, mode]
    rfl
  have branch : (live (commitInput pkg s i) && takesAmo pkg (commitInput pkg s i)) = false := by
    rw [← commit_amoValidCommit]
    exact noAmo
  have noAck : (commit pkg (commitInput pkg s i)).commitAck0 = false := by
    rw [commit_commitAck0, masked, Bool.false_and]
    cases alive : live (commitInput pkg s i) with
    | false => rfl
    | true =>
        rw [alive, Bool.true_and] at branch
        rw [branch]
        rfl
  have second : secondPortTaken (commitInput pkg s i) (commit pkg (commitInput pkg s i)) =
      false := by
    simp only [secondPortTaken, noAck, Bool.false_and]
  have idle : (commit pkg (commitInput pkg s i)).csrOp = .add := by
    rw [commit_csrOp, masked, Bool.and_false, Bool.false_and]
    rfl
  refine ⟨noAck, idle, ⟨?_, ?_⟩, ⟨?_, ?_⟩, ?_, ?_, noAmo⟩
  · rw [commitOutput, commit_weGpr0, masked]
    cases alive : live (commitInput pkg s i) with
    | false => rfl
    | true =>
        rw [alive, Bool.true_and] at branch
        rw [branch]
        rfl
  · rw [commitOutput, commit_weGpr1, second, Bool.false_and]
  · rw [commitOutput, commit_weFpr0, masked, Bool.and_false, Bool.false_and, Bool.false_and]
  · rw [commitOutput, commit_weFpr1, second, Bool.false_and]
  · show csrWe (commit pkg (commitInput pkg s i)).csrOp = false
    rw [idle]
    rfl
  · rw [commitOutput, commit_commitLsu, masked]
    simp only [Bool.and_false, Bool.false_and]

/-- A breakpoint traps, and has no other effect. -/
theorem breakpoint_traps (decoded : EntryDecoded pkg i)
    (breaks : isBreakpoint (csrInput pkg s i) = true) :
    (csrInput pkg s i).csrOp = .add ∧ Effectless pkg s i := by
  obtain ⟨raised, own, cause⟩ := breakpoint_own breaks
  have noAmo : takesAmo pkg (commitInput pkg s i) = false := by
    show (pkg.rva && pkg.isAmo i.instr0.op && !i.instr0.ex.valid) = false
    rw [own, Bool.not_true, Bool.and_false]
  have second := secondPort_idle pkg (commitInput pkg s i) raised
  have trapped : (exception (commitInput pkg s i)).valid = true := raised
  have idle : (commit pkg (commitInput pkg s i)).csrOp = .add := by
    rw [commit_csrOp]
    split
    · exact (decoded.breakpoint own cause).2
    · rfl
  refine ⟨idle, ⟨?_, ?_⟩, ⟨?_, ?_⟩, ?_, ?_, ?_⟩
  · rw [commitOutput, commit_weGpr0, noAmo, trapped]
    simp only [Bool.false_eq_true, ↓reduceIte, Bool.not_true, Bool.and_false, Bool.false_and]
  · rw [commitOutput, commit_weGpr1, second, Bool.false_and]
  · rw [commitOutput, commit_weFpr0, trapped]
    simp only [Bool.not_true, Bool.and_false, Bool.false_and]
  · rw [commitOutput, commit_weFpr1, second, Bool.false_and]
  · show csrWe (commit pkg (commitInput pkg s i)).csrOp = false
    rw [idle]
    rfl
  · rw [commitOutput, commit_commitLsu, trapped]
    simp only [Bool.not_true, Bool.and_false, Bool.false_and]
  · rw [commitOutput, commit_amoValidCommit, noAmo, Bool.and_false]

theorem exCommit_pending (idle : (csrInput pkg s i).csrOp = .add) :
    (exCommit pkg s i).valid = (pendingTrap s i).valid ∧
      ((exCommit pkg s i).valid = true → exCommit pkg s i = pendingTrap s i) := by
  have answer : (commitInput pkg s i).csrException = interrupt s.csr { irq1 := i.irq1 } := by
    rw [(wired pkg s i).1]
    exact csrException_idle pkg s.csr (csrInput pkg s i) idle
  have told : (interrupt s.csr { irq1 := i.irq1 }).valid = true →
      (interrupt s.csr { irq1 := i.irq1 }).isInterrupt = true :=
    CsrRegfile.interrupt_cause s.csr { irq1 := i.irq1 }
  have running : (commitInput pkg s i).halt = halt s := rfl
  have first : (commitInput pkg s i).instr0 = i.instr0 := rfl
  rw [exCommit, exception, answer, running, first, pendingTrap]
  generalize interrupt s.csr { irq1 := i.irq1 } = irq at told ⊢
  cases halted : halt s with
  | true =>
      have quiet : (!i.instr0.valid || true) = true := Bool.or_true _
      rw [if_pos rfl, if_pos quiet]
      exact ⟨rfl, fun raised => absurd raised Bool.false_ne_true⟩
  | false =>
      rw [if_neg Bool.false_ne_true, Bool.or_false]
      cases i.instr0.valid with
      | false => exact ⟨rfl, fun raised => absurd raised Bool.false_ne_true⟩
      | true =>
          rw [if_pos rfl, Bool.not_true, if_neg Bool.false_ne_true]
          cases pending : irq.valid with
          | true =>
              rw [told pending]
              cases i.instr0.fu != .csr <;> cases i.instr0.ex.valid <;> simp [pending]
          | false => cases i.instr0.ex.valid <;> simp

theorem entered_dpc (decoded : EntryDecoded pkg i) (enters : EntersDebug pkg s i) :
    (next pkg s i).csr.dpc =
      if stepped s.csr (csrInput pkg s i) then trapVectorBase pkg s.csr (csrInput pkg s i)
      else i.instr0.pc := by
  show (CsrRegfile.next pkg s.csr (csrInput pkg s i)).dpc = _
  cases step : stepped s.csr (csrInput pkg s i) with
  | false =>
      rw [if_neg Bool.false_ne_true]
      apply CsrRegfile.next_dpc_entered _ _ _ enters.outside step
      rcases enters.cause with requested | breaks
      · exact Or.inr requested
      · exact Or.inl breaks.1
  | true =>
      rw [if_pos rfl, CsrRegfile.next_dpc_stepped _ _ _ enters.outside step]
      rcases enters.cause with requested | breaks
      · have acked : (csrInput pkg s i).commitAck0 = true := by
          rw [stepped, Bool.and_eq_true] at step
          exact step.2
        have blocked : (csrInput pkg s i).commitAck0 = false :=
          (requested_blocks enters.outside requested).1
        rw [acked] at blocked
        exact absurd blocked (by decide)
      · obtain ⟨raised, own, cause⟩ := breakpoint_own breaks.1
        have unit : ((csrInput pkg s i).instr0.fu == .ctrlFlow) = false := by
          show (i.instr0.fu == .ctrlFlow) = false
          rw [(decoded.breakpoint own cause).1]
          rfl
        have trapped : (csrInput pkg s i).ex.valid = true := raised
        rw [CsrRegfile.steppedPc, unit, trapped]
        rfl

/-- Without a request a breakpoint retires, unless a pending flush holds it back. -/
theorem breakpoint_ack (decoded : EntryDecoded pkg i)
    (breaks : isBreakpoint (csrInput pkg s i) = true) (noRequest : i.debugReqI = false) :
    (commitOutput pkg s i).commitAck0 = (!s.controller.flushDcache || i.noStPending) := by
  obtain ⟨raised, own, cause⟩ := breakpoint_own breaks
  obtain ⟨unit, op⟩ := decoded.breakpoint own cause
  have alive := exception_live _ raised
  have noAmo : takesAmo pkg (commitInput pkg s i) = false := by
    show (pkg.rva && pkg.isAmo i.instr0.op && !i.instr0.ex.valid) = false
    rw [own, Bool.not_true, Bool.and_false]
  have clear : debugClear (commitInput pkg s i) = true := by
    rw [debugClear, (wired pkg s i).2.2, noRequest]
    rfl
  have fence : takesFence (commitInput pkg s i) = s.controller.flushDcache := by
    show (i.instr0.op == .sfenceVma || (i.instr0.op == .fenceI ||
      (s.controller.flushDcache && i.instr0.fu != .store)) || i.instr0.op == .fence) = _
    rw [op, unit]
    cases s.controller.flushDcache <;> rfl
  have trapped : (exception (commitInput pkg s i)).valid = true := raised
  rw [commitOutput, commit_commitAck0, alive, noAmo, clear, fence, trapped]
  cases s.controller.flushDcache <;> rfl

theorem EntersDebug.breaks (enters : EntersDebug pkg s i) (noRequest : i.debugReqI = false) :
    isBreakpoint (csrInput pkg s i) = true := by
  rcases enters.cause with requested | breaks
  · have asked : (debugReq pkg s i && i.instr0.valid) = true := requested
    rw [debugReq, noRequest] at asked
    exact absurd asked Bool.false_ne_true
  · exact breaks.1

theorem stepped_iff (decoded : EntryDecoded pkg i) (enters : EntersDebug pkg s i) :
    stepped s.csr (csrInput pkg s i) = true ↔
      i.debugReqI = false ∧ member s.csr.dcsr Dcsr.step = 1#1 ∧
        (s.controller.flushDcache = true → i.noStPending = true) := by
  have split : stepped s.csr (csrInput pkg s i) = true ↔
      member s.csr.dcsr Dcsr.step = 1#1 ∧ (commitOutput pkg s i).commitAck0 = true := by
    rw [stepped, Bool.and_eq_true, beq_iff_eq]
    rfl
  have waits : (!s.controller.flushDcache || i.noStPending) = true ↔
      (s.controller.flushDcache = true → i.noStPending = true) := by
    cases s.controller.flushDcache <;> simp
  rw [split]
  cases request : i.debugReqI with
  | true =>
      have blocked : (commitOutput pkg s i).commitAck0 = false := by
        apply And.left (requested_blocks enters.outside _)
        rcases enters.cause with requested | breaks
        · exact requested
        · have finished := exception_live _ (breakpoint_own breaks.1).1
          rw [live, Bool.and_eq_true] at finished
          have noAmo := (breakpoint_traps decoded breaks.1).2.amo
          show (debugReq pkg s i && i.instr0.valid) = true
          rw [debugReq, ← commitOutput_amoValidCommit, noAmo, request]
          exact finished.1
      rw [blocked]
      exact iff_of_false (fun both => Bool.false_ne_true both.2) (fun both => by cases both.1)
  | false =>
      rw [breakpoint_ack decoded (enters.breaks request) request, waits]
      exact ⟨fun both => ⟨rfl, both⟩, fun all => all.2⟩

/-- While an atomic operation waits in slot 0, the core does not come to a halt. -/
theorem halt_next (running : halt s = false) (amo : pkg.isAmo i.instr0.op = true)
    (decoded : EntryDecoded pkg i) : halt (next pkg s i) = false := by
  have unit := decoded.amo amo
  have notCsr : i.instr0.fu ≠ .csr := by
    rw [unit]
    decide
  have awake : s.csr.wfi = false ∧ s.controller.fenceActive = false := by
    rw [halt, Controller.halt, Bool.or_eq_false_iff] at running
    exact running
  have wfi : (next pkg s i).csr.wfi = false := by
    have idle : (csrInput pkg s i).csrOp = .add := csrOp_plain pkg s i notCsr
    show CsrRegfile.waits s.csr (csrInput pkg s i) = false
    rw [CsrRegfile.waits, idle, awake.1]
    simp
  have notFence : namesFence i.instr0.op = false :=
    Bool.eq_false_iff.mpr (fun fence => notCsr (decoded.fence fence))
  rw [namesFence, Bool.or_eq_false_iff, Bool.or_eq_false_iff] at notFence
  have noFence : (commit pkg (commitInput pkg s i)).fence = false := by
    have op : ((commitInput pkg s i).instr0.op == .fence) = false := notFence.2
    rw [commit_fence, op, Bool.and_false, Bool.false_and]
  have noFenceI : (commit pkg (commitInput pkg s i)).fenceI = false := by
    have op : takesFenceI (commitInput pkg s i) = false := by
      show (i.instr0.op == .fenceI || (s.controller.flushDcache && i.instr0.fu != .store)) = false
      rw [notFence.1.2, unit]
      exact Bool.and_false _
    rw [commit_fenceI, op, Bool.and_false, Bool.false_and]
  have idle : (next pkg s i).controller = {} :=
    Controller.next_idle s.controller (controllerInput pkg s i) awake.2 noFence noFenceI
  rw [halt, Controller.halt, wfi, idle]
  rfl

/-- The core keeps running while the operation waits. -/
theorem halt_runFrom (waits : List Input) (decoded : EntryDecoded pkg i)
    (amo : pkg.isAmo i.instr0.op = true) (running : halt s = false)
    (same : (machine pkg).Legal (WaitsWith pkg i.instr0) s waits) :
    halt ((machine pkg).runFrom s waits) = false := by
  induction waits generalizing s with
  | nil => exact running
  | cons j rest ih =>
      obtain ⟨now, later⟩ := same
      have shown : j.instr0 = i.instr0 := now.same
      have op : pkg.isAmo j.instr0.op = true := by rw [shown]; exact amo
      have promise : EntryDecoded pkg j := by
        refine ⟨?_, ?_, ?_⟩ <;> rw [shown]
        · exact decoded.breakpoint
        · exact decoded.fence
        · exact decoded.amo
      exact ih (halt_next running op promise) later

/-- An operation that was sent still occupies the atomic branch when the waiting ends. -/
theorem amo_live (waits : List Input) (decoded : EntryDecoded pkg i)
    (same : (machine pkg).Legal (WaitsWith pkg i.instr0) s waits)
    (sent : amoSent pkg s waits = true) :
    (commitOutput pkg ((machine pkg).runFrom s waits) i).amoValidCommit = true := by
  induction waits generalizing s with
  | nil => exact absurd sent Bool.false_ne_true
  | cons j rest ih =>
      obtain ⟨now, later⟩ := same
      have shown : j.instr0 = i.instr0 := now.same
      rw [amoSent, Bool.or_eq_true] at sent
      rcases sent with here | after
      · rw [commitOutput, commit_amoValidCommit, Bool.and_eq_true] at here
        obtain ⟨alive, branch⟩ := here
        have taken : takesAmo pkg (commitInput pkg ((machine pkg).runFrom s (j :: rest)) i) = true := by
          have first : takesAmo pkg (commitInput pkg s j) =
              (pkg.rva && pkg.isAmo j.instr0.op && !j.instr0.ex.valid) := rfl
          rw [first, shown] at branch
          exact branch
        have amo : pkg.isAmo i.instr0.op = true := by
          have both : (pkg.rva && pkg.isAmo i.instr0.op && !i.instr0.ex.valid) = true := taken
          simp only [Bool.and_eq_true] at both
          exact both.1.2
        have unhalted : (j.instr0.valid && !halt s) = true := alive
        rw [Bool.and_eq_true, Bool.not_eq_true'] at unhalted
        have running := halt_runFrom (j :: rest) decoded amo unhalted.2 ⟨now, later⟩
        have finished : live (commitInput pkg ((machine pkg).runFrom s (j :: rest)) i) = true := by
          show (i.instr0.valid && !halt ((machine pkg).runFrom s (j :: rest))) = true
          rw [running, ← shown, unhalted.1]
          rfl
        rw [commitOutput, commit_amoValidCommit, finished, taken]
        rfl
      · exact ih later after

/-- No debug entry waits behind an atomic operation that was sent. -/
theorem amoSent_of_enters (waits : List Input) (decoded : EntryDecoded pkg i)
    (same : (machine pkg).Legal (WaitsWith pkg i.instr0) s waits)
    (enters : EntersDebug pkg ((machine pkg).runFrom s waits) i) :
    amoSent pkg s waits = false := by
  apply Bool.eq_false_iff.mpr
  intro sent
  have going := amo_live waits decoded same sent
  have idle : (commitOutput pkg ((machine pkg).runFrom s waits) i).amoValidCommit = false := by
    rcases enters.cause with requested | breaks
    · exact (requested_blocks enters.outside requested).2.2.amo
    · exact (breakpoint_traps decoded breaks.1).2.amo
  rw [going] at idle
  exact Bool.false_ne_true idle.symm

theorem pushed_iff (q : CsrRegfile.State) (j : CsrRegfile.Input) (outside : q.debugMode = false) :
    pushed pkg q j = trapRegs q ↔
      (j.ex.valid = true →
        (trapToPrivLvl q j = privLvlS →
          q.sepc = j.pc ∧ q.scause = j.ex.cause ∧ q.stval = trapValue pkg j.ex ∧
            member q.mstatus Status.sie = 0 ∧ member q.mstatus Status.spie = 0 ∧
            member q.mstatus Status.spp = q.privLvl.extractLsb' 0 1) ∧
        (trapToPrivLvl q j ≠ privLvlS →
          q.mepc = j.pc ∧ q.mcause = j.ex.cause ∧ q.mtval = trapValue pkg j.ex ∧
            member q.mstatus Status.mie = 0 ∧ member q.mstatus Status.mpie = 0 ∧
            member q.mstatus Status.mpp = q.privLvl)) := by
  have taken : CsrRegfile.takesTrap q j = j.ex.valid := by
    rw [CsrRegfile.takesTrap, outside]
    rfl
  rw [pushed, CsrRegfile.trapsToS, CsrRegfile.trapsToM, taken]
  cases raised : j.ex.valid with
  | false => exact iff_of_true rfl (fun absurdity => absurd absurdity Bool.false_ne_true)
  | true =>
      by_cases target : trapToPrivLvl q j = privLvlS
      · have hit : (true && trapToPrivLvl q j == privLvlS) = true := by
          rw [target]
          rfl
        rw [if_pos hit, TrapRegs.pushS_iff]
        exact ⟨fun same _ => ⟨fun _ => same, fun other => absurd target other⟩,
          fun both => (both rfl).1 target⟩
      · have missed : (trapToPrivLvl q j == privLvlS) = false := beq_eq_false_iff_ne.mpr target
        have first : ¬ (true && trapToPrivLvl q j == privLvlS) = true := by
          rw [missed]
          exact Bool.false_ne_true
        have second : (true && trapToPrivLvl q j != privLvlS) = true := by
          rw [bne, missed]
          rfl
        rw [if_neg first, if_pos second, TrapRegs.pushM_iff]
        exact ⟨fun same _ => ⟨fun here => absurd here target, fun _ => same⟩,
          fun both => (both rfl).2 target⟩

theorem trapVectorBase_idle (q : CsrRegfile.State) (j : CsrRegfile.Input) (idle : j.csrOp = .add) :
    trapVectorBase pkg q j = trapVectorBase pkg q { ex := j.ex, irq1 := j.irq1 } := by
  rw [trapVectorBase, trapVectorBase, csrException_idle pkg q j idle,
    csrException_idle pkg q { ex := j.ex, irq1 := j.irq1 } rfl]
  rfl

/-- The entry disturbs nothing exactly when no trap meets it, or one that finds its values in the
registers. -/
theorem undisturbed_iff (waits : List Input) (decoded : EntryDecoded pkg i)
    (same : (machine pkg).Legal (WaitsWith pkg i.instr0) s waits)
    (enters : EntersDebug pkg ((machine pkg).runFrom s waits) i) :
    ProgramKept pkg ((machine pkg).runFrom s waits) i s waits ↔
      ((pendingTrap ((machine pkg).runFrom s waits) i).valid = true →
        Coincides pkg ((machine pkg).runFrom s waits) i) := by
  have neverSent := amoSent_of_enters waits decoded same enters
  generalize (machine pkg).runFrom s waits = t at enters ⊢
  have facts : (csrInput pkg t i).csrOp = .add ∧ Effectless pkg t i := by
    rcases enters.cause with requested | breaks
    · exact (requested_blocks enters.outside requested).2
    · exact breakpoint_traps decoded breaks.1
  obtain ⟨idle, effectless⟩ := facts
  obtain ⟨validSame, exSame⟩ := exCommit_pending idle
  have frame : trapRegs (next pkg t i).csr = pushed pkg t.csr (csrInput pkg t i) :=
    CsrRegfile.trapRegs_next pkg t.csr (csrInput pkg t i) idle
  have push := @pushed_iff pkg t.csr (csrInput pkg t i) enters.outside
  have dpc := entered_dpc decoded enters
  have step := stepped_iff decoded enters
  have prv : member (next pkg t i).csr.dcsr Dcsr.prv = t.csr.privLvl := by
    show member (CsrRegfile.next pkg t.csr (csrInput pkg t i)).dcsr Dcsr.prv = _
    rw [CsrRegfile.next_dcsr_prv, enters.outside, if_neg Bool.false_ne_true, CsrRegfile.privLvlO,
      enters.outside, if_neg Bool.false_ne_true]
  have vector := @trapVectorBase_idle pkg t.csr (csrInput pkg t i) idle
  constructor
  · intro undisturbed raised
    have taken : (csrInput pkg t i).ex.valid = true := validSame.trans raised
    have pending : (csrInput pkg t i).ex = pendingTrap t i := exSame taken
    have target : trapToPrivLvl t.csr (csrInput pkg t i) =
        trapToPrivLvl t.csr { ex := pendingTrap t i } := by
      rw [← pending]
      rfl
    obtain ⟨toS, toM⟩ := push.mp (frame.symm.trans undisturbed.frame) taken
    rw [target, pending] at toS toM
    refine ⟨toS, toM, ?_⟩
    intro noRequest stepping flushed
    have retired := step.mpr ⟨noRequest, stepping, flushed⟩
    rw [undisturbed.dpc, if_pos retired, vector, pending] at dpc
    exact dpc.symm
  · intro coincides
    have values : pushed pkg t.csr (csrInput pkg t i) = trapRegs t.csr := by
      apply push.mpr
      intro taken
      have pending : (csrInput pkg t i).ex = pendingTrap t i := exSame taken
      have target : trapToPrivLvl t.csr (csrInput pkg t i) =
          trapToPrivLvl t.csr { ex := pendingTrap t i } := by
        rw [← pending]
        rfl
      have right := coincides (validSame.symm.trans taken)
      rw [target, pending]
      exact ⟨right.supervisor, right.machine⟩
    refine ⟨frame.trans values, prv, ?_, effectless, neverSent⟩
    cases retired : stepped t.csr (csrInput pkg t i) with
    | false =>
        rw [retired, if_neg Bool.false_ne_true] at dpc
        exact dpc
    | true =>
        obtain ⟨noRequest, stepping, flushed⟩ := step.mp retired
        have taken := (breakpoint_own (enters.breaks noRequest)).1
        have pending : (csrInput pkg t i).ex = pendingTrap t i := exSame taken
        rw [dpc, retired, if_pos rfl, vector, pending]
        exact (coincides (validSame.symm.trans taken)).step noRequest stepping flushed

end Entering

/-- For every wait of an instruction in slot 0 and every debug entry that ends it, the program is
left as it was exactly when no trap is taken together with the entry, or the trap finds all its
values already in the registers. -/
theorem debug_entry_undisturbed (pkg : Pkg) (s : State) (waits : List Input) (i : Input)
    (decoded : EntryDecoded pkg i) (same : (machine pkg).Legal (WaitsWith pkg i.instr0) s waits)
    (enters : EntersDebug pkg ((machine pkg).runFrom s waits) i) :
    ProgramKept pkg ((machine pkg).runFrom s waits) i s waits ↔
      ((pendingTrap ((machine pkg).runFrom s waits) i).valid = true →
        Coincides pkg ((machine pkg).runFrom s waits) i) :=
  undisturbed_iff waits decoded same enters

/-- A store that waits for room in the store buffer, and the debug request that meets it. -/
def waitingStore : Input := { instr0 := { fu := .store, op := .sd, pc := 0x80, valid := true } }

theorem debug_entry_undisturbed_store :
    ProgramKept .rv64ima ((machine .rv64ima).runFrom reset [waitingStore])
      { waitingStore with debugReqI := true } reset [waitingStore] := by
  refine (debug_entry_undisturbed .rv64ima reset [waitingStore]
    { waitingStore with debugReqI := true } ⟨?_, ?_, ?_⟩ ⟨⟨rfl, ?_⟩, trivial⟩ ⟨?_, ?_⟩).mpr ?_
  · intro own
    exact absurd own (by decide)
  · intro fence
    exact absurd fence (by decide)
  · intro _
    rfl
  · decide
  · decide
  · exact Or.inl (by decide)
  · intro raised
    exact absurd raised (by decide)

/-- The debugger sets `dcsr.ebreakm` and resumes. -/
def enableEbreak : List Input :=
  [{ instr0 := { valid := true }, debugReqI := true },
    { instr0 := { fu := .csr, op := .csrWrite, result := 0x8000, valid := true }, csrAddr := 0x7b0 },
    { instr0 := { fu := .csr, op := .dret, valid := true } }]

/-- An EBREAK at address `0x80`. -/
def ebreakAt : Input :=
  { instr0 := { fu := .csr, pc := 0x80, valid := true, ex := { cause := breakpoint, valid := true } } }

/-- A breakpoint that enters debug mode overwrites `mepc` and `mcause`. -/
theorem breakpoint_overwrites_mepc :
    ¬ ∀ inputs i, EntryDecoded .rv64ima i →
      EntersDebug .rv64ima ((machine .rv64ima).run inputs) i →
      ProgramKept .rv64ima ((machine .rv64ima).run inputs) i
        ((machine .rv64ima).run inputs) [] := by
  intro undisturbed
  have frame := (undisturbed enableEbreak ebreakAt ⟨fun _ _ => ⟨rfl, rfl⟩, fun _ => rfl,
    fun amo => absurd amo (by decide)⟩ ⟨by decide, Or.inr (by decide +kernel)⟩).frame
  exact absurd frame (by decide)

end Ariane.CommitUnit
