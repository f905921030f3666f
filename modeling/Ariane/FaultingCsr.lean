import Ariane.CommitUnit
import Ariane.CsrIsolation
import Ariane.LegalState

set_option autoImplicit false

/- Faulting CSR instructions: which registers may change in the cycle of the trap, and when
the write case assigns a register all the same. -/
namespace Ariane.CsrRegfile

open Rtl (Machine Field member assign merge AgreeOutside member_assign_self
  member_assign_of_disjoint assign_of_member)
open Riscv

/-- The first cycle after reset is over: `mtvec` is loaded and the widths are fixed. -/
structure Settled (q : State) : Prop where
  vector : q.mtvecRstLoad = false
  sxl : member q.mstatus Status.sxl = xlen64
  uxl : member q.mstatus Status.uxl = xlen64

/-- The case item at the address assigns a register or a performance counter. -/
def Writes (pkg : Pkg) (q : State) (i : Input) : Prop :=
  csrWe i.csrOp = true ∧
    ((written pkg q i).perfWe = true ∨
      ∃ d, (writeReg pkg q d (csrWdata pkg q i) (decode pkg i.csrAddr)).d ≠ d)

/-- The fields of `mstatus` that the trap of this cycle sets. -/
def trapFields (q : State) (i : Input) : List (Field 64) :=
  if trapsToS q i then [Status.sie, Status.spie, Status.spp]
  else if trapsToM q i then [Status.mie, Status.mpie, Status.mpp]
  else []

/-- The pending bits that follow external signals. -/
def pendingInputs : List (Field 64) := [Mip.msip, Mip.mtip, Mip.meip]

/-- Debug mode begins with the next cycle. -/
def entersDebug (pkg : Pkg) (q : State) (i : Input) : Bool :=
  !q.debugMode && (next pkg q i).debugMode

/-- Every register has its old value but the trap registers of the target level, the counters
and the pending inputs. Debug mode has trap registers of its own, and `dcsr.prv` follows the
privilege level. -/
structure TrapFrame (pkg : Pkg) (q : State) (i : Input) : Prop where
  supervisor : trapsToS q i = false → (next pkg q i).sepc = q.sepc ∧
    (next pkg q i).scause = q.scause ∧ (next pkg q i).stval = q.stval
  machine : trapsToM q i = false → (next pkg q i).mepc = q.mepc ∧
    (next pkg q i).mcause = q.mcause ∧ (next pkg q i).mtval = q.mtval
  debug : entersDebug pkg q i = false → (next pkg q i).dpc = q.dpc ∧
    AgreeOutside [Dcsr.prv] (next pkg q i).dcsr q.dcsr
  dcsr : AgreeOutside [Dcsr.prv, Dcsr.cause] (next pkg q i).dcsr q.dcsr
  status : AgreeOutside (trapFields q i) (next pkg q i).mstatus q.mstatus
  pending : AgreeOutside pendingInputs (next pkg q i).mip q.mip
  interrupts : (next pkg q i).medeleg = q.medeleg ∧ (next pkg q i).mideleg = q.mideleg ∧
    (next pkg q i).mie = q.mie
  vectors : (next pkg q i).mtvec = q.mtvec ∧ (next pkg q i).stvec = q.stvec
  scratch : (next pkg q i).mscratch = q.mscratch ∧ (next pkg q i).sscratch = q.sscratch ∧
    (next pkg q i).dscratch0 = q.dscratch0 ∧ (next pkg q i).dscratch1 = q.dscratch1
  translation : (next pkg q i).satp = q.satp
  caches : (next pkg q i).dcache = q.dcache ∧ (next pkg q i).icache = q.icache
  floating : (next pkg q i).fcsr = q.fcsr

/-- The value names a translation mode that `satp` supports. -/
def satpMode (w : BitVec 64) : Bool :=
  member w Satp.mode == modeOff || member w Satp.mode == modeSv39

/-- The value that the operation makes of its operand for `satp`. -/
def satpOperand (q : State) (op : FuOp) (operand : BitVec 64) : BitVec 64 :=
  match op with
  | .csrSet => operand ||| q.satp
  | .csrClear => ~~~operand &&& q.satp
  | _ => operand

/-- The case item of the register has an assignment, and its own checks admit it; `w` is the value that
`satp` would get. -/
def assigns (q : State) (w : BitVec 64) : Option CsrReg → Bool
  | some .tselect | some .tdata1 | some .tdata2 | some .tdata3 | some .scounteren | some .misa
  | some .mcounteren | some .minstret => false
  | some .satp => !satpTrapped q && satpMode w
  | r => !refuses q r

theorem writeReg_mtvecRstLoad (pkg : Pkg) (q d : State) (w : BitVec 64) (r : Option CsrReg) :
    (writeReg pkg q d w r).d.mtvecRstLoad = d.mtvecRstLoad := by
  rcases r with _ | r
  · rfl
  · cases r with
    | fflags | frm | fcsr | ftran => simp only [writeReg, writeFp]; split <;> rfl
    | satp => simp only [writeReg]; split <;> rfl
    | _ => rfl

theorem next_mtvecRstLoad (pkg : Pkg) (q : State) (i : Input) :
    (next pkg q i).mtvecRstLoad = false := by
  have counted : (counters pkg q i).mtvecRstLoad = false := by
    simp only [counters, apply_ite State.mtvecRstLoad, ite_self]
  have kept : (written pkg q i).d.mtvecRstLoad = false := by
    unfold written
    split
    · rw [writeReg_mtvecRstLoad, counted]
    · exact counted
  simp only [next, xret, translation, debugEntry, trapEntry, externalInterrupts, status,
    apply_ite State.mtvecRstLoad, ite_self, kept]

section Writing

variable (pkg : Pkg) (q d : State) (w : BitVec 64) (r : Option CsrReg)

/-- `satp` with the address space identifier cut. -/
def cutSatp : BitVec 64 :=
  assign w Satp.asid (member w Satp.asid &&& (BitVec.allOnes pkg.asidWidth).setWidth 16)

variable {w} in
theorem writeSatp_supported (old : BitVec 64) (supported : satpMode w = true) :
    writeSatp pkg old w = cutSatp pkg w := by
  unfold writeSatp
  dsimp only
  rw [member_assign_of_disjoint _ _ _ _ (by decide)]
  exact if_pos supported

variable {w} in
theorem writeSatp_unsupported (old : BitVec 64) (unsupported : satpMode w = false) :
    writeSatp pkg old w = old := by
  unfold writeSatp
  dsimp only
  rw [member_assign_of_disjoint _ _ _ _ (by decide)]
  exact if_neg (Bool.eq_false_iff.mp unsupported)

/-- An item without assignment leaves every register. -/
theorem writeReg_of_not_assigns (silent : assigns q w r = false) :
    (writeReg pkg q d w r).d = d ∧ (writeReg pkg q d w r).perfWe = false ∧
      (writeReg pkg q d w r).dirtyFpStateCsr = false := by
  rcases r with _ | r
  · exact ⟨rfl, rfl, rfl⟩
  · cases r with
    | fflags | frm | fcsr | ftran =>
        have refused : fpOff q = true := by simpa [assigns, refuses] using silent
        simp only [writeReg, writeFp, refused, ↓reduceIte, and_self]
    | satp =>
        rcases Bool.and_eq_false_iff.mp silent with free | unsupported
        · have refused : satpTrapped q = true := by simpa using free
          simp only [writeReg, refused, ↓reduceIte, and_self]
        · rw [writeReg, writeSatp_unsupported pkg _ unsupported]
          split <;> exact ⟨rfl, rfl, rfl⟩
    | tselect | tdata1 | tdata2 | tdata3 | scounteren | misa | mcounteren | minstret | mvendorid
    | marchid | mimpid | mhartid | cycle | instret => exact ⟨rfl, rfl, rfl⟩
    | _ => exact absurd (show true = false from silent) Bool.noConfusion

/-- Two states that differ in every register of the write case. -/
def cleared : State := { dcache := 0, icache := 0 }

def filled : State where
  mstatus := 2
  satp := 2
  dcsr := 2
  dpc := 2
  dscratch0 := 2
  dscratch1 := 2
  mtvec := 2
  medeleg := 2
  mideleg := 2
  mip := 2
  mie := 2
  mscratch := 2
  mepc := 2
  mcause := 2
  mtval := 2
  stvec := 2
  sscratch := 2
  sepc := 2
  scause := 2
  stval := 2
  dcache := 2
  icache := 2
  cycle := 2
  fcsr := 2

/-- An assignment does not depend on the value it replaces, so it is no identity. -/
theorem writeReg_of_assigns (loud : assigns q w r = true) :
    (writeReg pkg q d w r).perfWe = true ∨ ∃ d', (writeReg pkg q d' w r).d ≠ d' := by
  apply Classical.byContradiction
  intro silent
  rw [not_or, not_exists] at silent
  obtain ⟨noPerf, identity⟩ := silent
  have low := not_not.mp (identity cleared)
  have high := not_not.mp (identity filled)
  rcases r with _ | r
  · exact absurd (show false = true from loud) Bool.noConfusion
  · cases r with
    | fflags | frm | fcsr | ftran =>
        have free : fpOff q = false := by simpa [assigns, refuses] using loud
        have zero := congrArg State.fcsr low
        have two := congrArg State.fcsr high
        simp only [writeReg, writeFp, free, Bool.false_eq_true, ↓reduceIte] at zero two
        exact absurd (zero.symm.trans two) (by decide)
    | satp =>
        have both : (!satpTrapped q && satpMode w) = true := loud
        obtain ⟨free, supported⟩ := Bool.and_eq_true_iff.mp both
        rw [Bool.not_eq_true'] at free
        have zero := congrArg State.satp low
        have two := congrArg State.satp high
        simp only [writeReg, free, Bool.false_eq_true, ↓reduceIte,
          writeSatp_supported pkg _ supported] at zero two
        exact absurd (zero.symm.trans two) (by decide)
    | tselect | tdata1 | tdata2 | tdata3 | scounteren | misa | mcounteren | minstret | mvendorid
    | marchid | mimpid | mhartid | cycle | instret =>
        exact absurd (show false = true from loud) Bool.noConfusion
    | perf => exact noPerf rfl
    | _ =>
        simp only [writeReg, cleared, filled, State.mk.injEq] at low high
        grind

end Writing

section Frame

variable (pkg : Pkg) (q : State) (i : Input)

/-- What is written to `satp` depends on its old value only. -/
theorem assigns_csrWdata (write : csrWe i.csrOp = true) :
    assigns q (csrWdata pkg q i) (decode pkg i.csrAddr) =
      assigns q (satpOperand q i.csrOp i.csrWdata) (decode pkg i.csrAddr) := by
  cases item : decode pkg i.csrAddr with
  | none => rfl
  | some r =>
      cases r with
      | satp =>
          cases trapped : satpTrapped q with
          | true => rw [assigns, assigns, trapped]; rfl
          | false =>
              have reads : csrRead i.csrOp = true := by rw [csrRead, write, Bool.true_or]
              have old : csrRdata pkg q i = q.satp := by
                rw [csrRdata, if_pos reads, readAddr, item]
                show (readReg pkg q i .satp).getD 0 = q.satp
                rw [readReg, trapped]
                rfl
              have same : csrWdata pkg q i = satpOperand q i.csrOp i.csrWdata := by
                unfold csrWdata satpOperand
                cases i.csrOp <;> simp only [old]
              rw [same]
      | _ => rfl

theorem writes_iff :
    Writes pkg q i ↔ csrWe i.csrOp = true ∧
      assigns q (satpOperand q i.csrOp i.csrWdata) (decode pkg i.csrAddr) = true := by
  unfold Writes written
  apply and_congr_right
  intro write
  rw [if_pos write, ← assigns_csrWdata pkg q i write]
  constructor
  · intro effect
    rw [← Bool.not_eq_false]
    intro silent
    rcases effect with perf | ⟨d, moved⟩
    · rw [(writeReg_of_not_assigns pkg q _ _ _ silent).2.1] at perf
      exact absurd perf Bool.noConfusion
    · exact moved (writeReg_of_not_assigns pkg q _ _ _ silent).1
  · exact writeReg_of_assigns pkg q _ _ _

/-- Without a write the registers count on, and the floating-point state stays clean. -/
theorem written_silent (silent : ¬ Writes pkg q i) :
    (written pkg q i).d = counters pkg q i ∧ (written pkg q i).dirtyFpStateCsr = false := by
  rw [writes_iff, not_and, Bool.not_eq_true] at silent
  unfold written
  cases write : csrWe i.csrOp with
  | false => exact ⟨rfl, rfl⟩
  | true =>
      have identity := writeReg_of_not_assigns pkg q (counters pkg q i) (csrWdata pkg q i)
        (decode pkg i.csrAddr) ((assigns_csrWdata pkg q i write).trans (silent write))
      exact ⟨identity.1, identity.2.2⟩

/-- A breakpoint that does not enter debug mode finds its debug registers as it leaves them. -/
def BreakpointKept : Prop :=
  isBreakpoint i = true → q.debugMode = false → setDebugPc q i = false →
    q.dpc = i.pc ∧ member q.dcsr Dcsr.cause = causeBreakpoint

/-- A trap without floating-point effects that the write case does not disturb. -/
structure Undisturbed : Prop where
  settled : Settled q
  raised : i.ex.valid = true
  clean : i.dirtyFpState = false
  noFlags : i.csrWriteFflags = false
  silent : ¬ Writes pkg q i

theorem debugEntry_dcsr (d : State) :
    AgreeOutside [Dcsr.prv, Dcsr.cause] (debugEntry pkg q i d).dcsr d.dcsr := by
  have old : AgreeOutside [Dcsr.prv, Dcsr.cause] d.dcsr d.dcsr := AgreeOutside.refl _ _
  have cause : Dcsr.cause ∈ [Dcsr.prv, Dcsr.cause] := by simp
  simp only [debugEntry, apply_ite State.dcsr]
  split
  · exact old
  · apply AgreeOutside.assign_if _ cause
    apply AgreeOutside.assign_if _ cause
    apply AgreeOutside.assign_if _ cause
    exact old.assign (by simp) _

/-- Debug entry when debug mode is not entered. -/
theorem debugEntry_quiet (d : State) (outside : q.debugMode = false)
    (quiet : setDebugPc q i = false) :
    let prv := assign d.dcsr Dcsr.prv (privLvlO q)
    (debugEntry pkg q i d).dpc = (if isBreakpoint i then i.pc else d.dpc) ∧
      (debugEntry pkg q i d).dcsr =
        if isBreakpoint i then assign prv Dcsr.cause causeBreakpoint else prv := by
  rw [setDebugPc, outside] at quiet
  simp only [Bool.false_eq_true, ↓reduceIte, Bool.or_eq_false_iff] at quiet
  obtain ⟨⟨_, unasked⟩, free⟩ := quiet
  unfold debugEntry
  rw [outside, unasked, free]
  cases isBreakpoint i <;> exact ⟨rfl, rfl⟩

theorem entry_debugMode :
    (trapEntry pkg q i (externalInterrupts i (counters pkg q i))).debugMode = q.debugMode := by
  simp only [trapEntry, externalInterrupts, counters, apply_ite State.debugMode, ite_self]

theorem entry_dpc :
    (trapEntry pkg q i (externalInterrupts i (counters pkg q i))).dpc = q.dpc := by
  simp only [trapEntry, externalInterrupts, counters, apply_ite State.dpc, ite_self]

theorem entry_dcsr :
    (trapEntry pkg q i (externalInterrupts i (counters pkg q i))).dcsr = q.dcsr := by
  simp only [trapEntry, externalInterrupts, counters, apply_ite State.dcsr, ite_self]

section Trap

variable {pkg q i} (trap : Undisturbed pkg q i)

include trap

theorem Undisturbed.status : status pkg q i (written pkg q i) = counters pkg q i := by
  obtain ⟨same, noDirty⟩ := written_silent pkg q i trap.silent
  have sxl : assign q.mstatus Status.sxl xlen64 = q.mstatus :=
    assign_of_member _ _ _ trap.settled.sxl
  have uxl : assign q.mstatus Status.uxl xlen64 = q.mstatus :=
    assign_of_member _ _ _ trap.settled.uxl
  have kept := counters_mstatus pkg q i
  simp only [CsrRegfile.status, same, noDirty, trap.clean, trap.noFlags, kept, sxl, uxl,
    Bool.or_self, Bool.and_false, Bool.false_eq_true, ↓reduceIte]
  rw [← kept]

/-- Next to a trap nothing but the counters, the trap and debug mode changes registers. -/
theorem Undisturbed.next :
    next pkg q i =
      { translation q (debugEntry pkg q i (trapEntry pkg q i
          (externalInterrupts i (counters pkg q i)))) with wfi := waits q i } := by
  obtain ⟨noMret, noSret, noDret⟩ := noReturn_of_trap i trap.raised
  simp only [CsrRegfile.next, trap.status, xret, noMret, noSret, noDret, Bool.false_eq_true,
    ↓reduceIte]

theorem Undisturbed.mstatus : AgreeOutside (trapFields q i) (CsrRegfile.next pkg q i).mstatus
    q.mstatus := by
  have entry : (CsrRegfile.next pkg q i).mstatus = trapStatus q i q.mstatus := by
    rw [trap.next]
    show (debugEntry pkg q i _).mstatus = _
    rw [debugEntry_mstatus, trapEntry_mstatus]
    exact congrArg _ (counters_mstatus pkg q i)
  rw [entry, trapStatus, trapFields]
  split
  · apply AgreeOutside.assign _ (by simp)
    apply AgreeOutside.assign _ (by simp)
    apply AgreeOutside.assign _ (by simp)
    exact AgreeOutside.refl _ _
  · split
    · apply AgreeOutside.assign _ (by simp)
      apply AgreeOutside.assign _ (by simp)
      apply AgreeOutside.assign _ (by simp)
      exact AgreeOutside.refl _ _
    · exact AgreeOutside.refl _ _

theorem Undisturbed.mip : AgreeOutside pendingInputs (CsrRegfile.next pkg q i).mip q.mip := by
  have external : (CsrRegfile.next pkg q i).mip = (externalInterrupts i (counters pkg q i)).mip := by
    rw [trap.next]
    simp only [translation, debugEntry, trapEntry, apply_ite State.mip, ite_self]
  have same : (counters pkg q i).mip = q.mip := by
    simp only [counters, apply_ite State.mip, ite_self]
  rw [external, externalInterrupts]
  simp only [same]
  apply AgreeOutside.assign _ (by simp [pendingInputs, irqMTimer])
  apply AgreeOutside.assign _ (by simp [pendingInputs, irqMSoft])
  apply AgreeOutside.assign _ (by simp [pendingInputs, irqMExt])
  exact AgreeOutside.refl _ _

/-- Debug entry meets the old registers. -/
theorem Undisturbed.debug : ∃ d : State,
    (d.debugMode = q.debugMode ∧ d.dpc = q.dpc ∧ d.dcsr = q.dcsr) ∧
      CsrRegfile.next pkg q i =
        { translation q (debugEntry pkg q i d) with wfi := waits q i } := by
  exact ⟨_, ⟨entry_debugMode pkg q i, entry_dpc pkg q i, entry_dcsr pkg q i⟩, trap.next⟩

theorem Undisturbed.dcsr :
    AgreeOutside [Dcsr.prv, Dcsr.cause] (CsrRegfile.next pkg q i).dcsr q.dcsr := by
  obtain ⟨d, ⟨_, _, old⟩, new⟩ := trap.debug
  rw [new, ← old]
  exact debugEntry_dcsr pkg q i d

/-- Debug mode changes its registers without being entered at a breakpoint only. -/
theorem Undisturbed.debug_iff :
    (entersDebug pkg q i = false → (CsrRegfile.next pkg q i).dpc = q.dpc ∧
      AgreeOutside [Dcsr.prv] (CsrRegfile.next pkg q i).dcsr q.dcsr) ↔ BreakpointKept q i := by
  obtain ⟨d, ⟨mode, dpc, dcsr⟩, new⟩ := trap.debug
  have mode' : (CsrRegfile.next pkg q i).debugMode = (debugEntry pkg q i d).debugMode := by
    rw [new, translation]
  have dpc' : (CsrRegfile.next pkg q i).dpc = (debugEntry pkg q i d).dpc := by
    rw [new, translation]
  have dcsr' : (CsrRegfile.next pkg q i).dcsr = (debugEntry pkg q i d).dcsr := by
    rw [new, translation]
  have enters : entersDebug pkg q i = (!q.debugMode && setDebugPc q i) := by
    rw [entersDebug, mode', debugEntry_debugMode pkg q i d mode]
    cases q.debugMode <;> rfl
  rw [enters, dpc', dcsr', BreakpointKept]
  cases inside : q.debugMode with
  | true =>
      refine iff_of_true ?_ ?_
      · intro _
        rw [debugEntry, if_pos inside, dpc, dcsr]
        exact ⟨rfl, AgreeOutside.refl _ _⟩
      · intro _ outside
        exact absurd outside (by decide)
  | false =>
      cases debugPc : setDebugPc q i with
      | true =>
          refine iff_of_true ?_ ?_
          · intro quiet
            exact absurd quiet (by decide)
          · intro _ _ quiet
            exact absurd quiet (by decide)
      | false =>
          obtain ⟨pcs, causes⟩ := debugEntry_quiet pkg q i d inside debugPc
          rw [pcs, causes]
          cases stop : isBreakpoint i with
          | false =>
              refine iff_of_true ?_ ?_
              · intro _
                refine ⟨dpc, ?_⟩
                rw [← dcsr]
                exact (AgreeOutside.refl _ _).assign (by simp) _
              · intro none
                exact absurd none (by decide)
          | true =>
              simp only [↓reduceIte, Bool.not_false, Bool.and_false, true_implies]
              constructor
              · intro kept
                obtain ⟨pc, cause⟩ := kept
                refine ⟨pc.symm, ?_⟩
                have same := cause.member (f := Dcsr.cause) (by decide)
                rw [← same, member_assign_self]
              · intro kept
                obtain ⟨pc, cause⟩ := kept
                refine ⟨pc.symm, ?_⟩
                rw [assign_of_member]
                · rw [← dcsr]
                  exact (AgreeOutside.refl _ _).assign (by simp) _
                · rw [member_assign_of_disjoint _ _ _ _ (by decide), dcsr]
                  exact cause

/-- The trap registers of the level that is not the target. -/
theorem Undisturbed.trapRegisters :
    (trapsToS q i = false → (CsrRegfile.next pkg q i).sepc = q.sepc ∧
      (CsrRegfile.next pkg q i).scause = q.scause ∧ (CsrRegfile.next pkg q i).stval = q.stval) ∧
    (trapsToM q i = false → (CsrRegfile.next pkg q i).mepc = q.mepc ∧
      (CsrRegfile.next pkg q i).mcause = q.mcause ∧
      (CsrRegfile.next pkg q i).mtval = q.mtval) := by
  rw [trap.next, trapsToS, trapsToM, bne]
  simp only [translation, debugEntry, trapEntry, externalInterrupts, counters,
    apply_ite State.sepc, apply_ite State.scause, apply_ite State.stval, apply_ite State.mepc,
    apply_ite State.mcause, apply_ite State.mtval, ite_self]
  cases takesTrap q i with
  | false => exact ⟨fun _ => ⟨rfl, rfl, rfl⟩, fun _ => ⟨rfl, rfl, rfl⟩⟩
  | true =>
      cases trapToPrivLvl q i == privLvlS with
      | false => exact ⟨fun _ => ⟨rfl, rfl, rfl⟩, fun other => absurd other (by decide)⟩
      | true => exact ⟨fun other => absurd other (by decide), fun _ => ⟨rfl, rfl, rfl⟩⟩

theorem Undisturbed.frame_iff : TrapFrame pkg q i ↔ BreakpointKept q i := by
  rw [← trap.debug_iff]
  constructor
  · exact TrapFrame.debug
  · intro debug
    have vector := trap.settled.vector
    have levels := trap.trapRegisters
    refine ⟨levels.1, levels.2, debug, trap.dcsr, trap.mstatus, trap.mip, ?_, ?_, ?_, ?_, ?_, ?_⟩
    all_goals
      rw [trap.next]
      simp only [translation, debugEntry, trapEntry, externalInterrupts, counters, vector,
        apply_ite State.medeleg, apply_ite State.mideleg, apply_ite State.mie,
        apply_ite State.mtvec, apply_ite State.stvec, apply_ite State.mscratch,
        apply_ite State.sscratch, apply_ite State.dscratch0, apply_ite State.dscratch1,
        apply_ite State.satp, apply_ite State.dcache, apply_ite State.icache,
        apply_ite State.fcsr, ite_self, Bool.false_eq_true, ↓reduceIte, and_self]

end Trap

end Frame

end Ariane.CsrRegfile

namespace Ariane.CommitUnit

open Rtl (Machine Field member assign)
open Riscv
open CommitStage
open CsrRegfile (csrException setDebugPc isBreakpoint IllegalRaised Settled TrapFrame Writes
  BreakpointKept Undisturbed assigns satpOperand csrWe ebreakEnters)

/-- Slot 0 holds a CSR instruction that traps in this cycle: the CSR file reports it as illegal,
or it carries an exception of its own. -/
structure Faults (pkg : Pkg) (s : State) (i : Input) : Prop where
  finished : i.instr0.valid = true
  running : halt s = false
  unit : i.instr0.fu = .csr
  fault : IllegalRaised pkg s.csr (csrInput pkg s i) ∨ i.instr0.ex.valid = true

/-- The cycle changes the trap state only, and the named register is not written. -/
def Atomic (pkg : Pkg) (s : State) (i : Input) : Prop :=
  TrapFrame pkg s.csr (csrInput pkg s i) ∧ ¬ Writes pkg s.csr (csrInput pkg s i)

/-- No debug request outside debug mode hides the CSR operation. -/
def presents (pkg : Pkg) (s : State) (i : Input) : Bool :=
  !debugReq pkg s i || s.csr.debugMode

/-- The instruction is no write to a register whose case item assigns it; and a breakpoint that
does not enter debug mode finds `dpc` and the cause in `dcsr` as it leaves them. -/
structure Harmless (pkg : Pkg) (s : State) (i : Input) : Prop where
  unwritten : presents pkg s i = true → csrWe i.instr0.op = true →
    assigns s.csr (satpOperand s.csr i.instr0.op i.instr0.result) (decode pkg i.csrAddr) = false
  breakpoint : i.instr0.ex.valid = true → i.instr0.ex.cause = breakpoint →
    s.csr.debugMode = false → ebreakEnters s.csr = false → debugReq pkg s i = false →
    (member s.csr.dcsr Dcsr.step = 1#1 →
      takesFence (presented s i) = true ∧ i.noStPending = false) →
    s.csr.dpc = i.instr0.pc ∧ member s.csr.dcsr Dcsr.cause = causeBreakpoint

section Fault

variable {pkg : Pkg} {s : State} {i : Input} (faults : Faults pkg s i)

include faults

theorem Faults.live : live (commitInput pkg s i) = true := by
  show (i.instr0.valid && !halt s) = true
  rw [faults.finished, faults.running]
  rfl

/-- The exception is the one of the instruction, or an illegal instruction. -/
theorem Faults.raised : (exCommit pkg s i).valid = true ∧
    (exCommit pkg s i).cause =
      if i.instr0.ex.valid then i.instr0.ex.cause else illegalInstr := by
  rw [exCommit, exception_csr _ faults.live faults.unit, (wired pkg s i).1]
  show (ite (i.instr0.ex.valid = true) i.instr0.ex _).valid = true ∧
    (ite (i.instr0.ex.valid = true) i.instr0.ex _).cause = _
  cases own : i.instr0.ex.valid with
  | true => exact ⟨own, rfl⟩
  | false =>
      obtain ⟨raised, cause⟩ := faults.fault.resolve_right (by rw [own]; decide)
      have synchronous : (csrException pkg s.csr (csrInput pkg s i)).isInterrupt = false := by
        rw [Exception.isInterrupt, cause]
        rfl
      rw [raised, synchronous]
      exact ⟨raised, cause⟩

/-- The write case sees the operation unless a debug request hides it. -/
theorem Faults.writes_iff : Writes pkg s.csr (csrInput pkg s i) ↔
    presents pkg s i = true ∧ csrWe i.instr0.op = true ∧
      assigns s.csr (satpOperand s.csr i.instr0.op i.instr0.result)
        (decode pkg i.csrAddr) = true := by
  have op : (csrInput pkg s i).csrOp = if presents pkg s i then i.instr0.op else .add := by
    have clear : debugClear (commitInput pkg s i) = presents pkg s i := rfl
    have unit : ((commitInput pkg s i).instr0.fu == .csr) = true := by
      show (i.instr0.fu == .csr) = true
      rw [faults.unit]
      rfl
    show (commitOutput pkg s i).csrOp = _
    rw [commitOutput, commit_csrOp, faults.live, clear, unit, Bool.true_and, Bool.and_true]
    rfl
  have address : (csrInput pkg s i).csrAddr = i.csrAddr := rfl
  rw [CsrRegfile.writes_iff, op, address]
  cases clear : presents pkg s i with
  | true =>
      have operand : (csrInput pkg s i).csrWdata = i.instr0.result := by
        have live := faults.live
        have unit : (commitInput pkg s i).instr0.fu = .csr := faults.unit
        have shown : (CommitStage.live (commitInput pkg s i) &&
            debugClear (commitInput pkg s i)) = true := by
          rw [live, Bool.true_and]
          exact clear
        exact commit_csrOperand pkg _ unit shown
      rw [operand]
      simp
  | false => simp [csrWe]

/-- Nothing but the write case can disturb the trap. -/
theorem Faults.undisturbed (settled : Settled s.csr)
    (silent : ¬ Writes pkg s.csr (csrInput pkg s i)) :
    Undisturbed pkg s.csr (csrInput pkg s i) := by
  have raised : (exception (commitInput pkg s i)).valid = true := faults.raised.1
  have alone := secondPort_idle pkg (commitInput pkg s i) raised
  refine ⟨settled, raised, ?_, ?_, silent⟩
  · show ((commit pkg (commitInput pkg s i)).weFpr0 ||
      (commit pkg (commitInput pkg s i)).weFpr1) = false
    rw [commit_weFpr0, commit_weFpr1, raised, alone]
    simp
  · show (commit pkg (commitInput pkg s i)).csrWriteFflags = false
    rw [commit_csrWriteFflags, raised, alone]
    simp

/-- An instruction with an exception of its own leaves at once, unless a fence waits. -/
theorem Faults.commitAck0 (own : i.instr0.ex.valid = true) :
    (commitOutput pkg s i).commitAck0 =
      (presents pkg s i && if takesFence (presented s i) then i.noStPending else true) := by
  have notAmo : takesAmo pkg (commitInput pkg s i) = false := by
    show (pkg.rva && pkg.isAmo i.instr0.op && !i.instr0.ex.valid) = false
    rw [own, Bool.not_true, Bool.and_false]
  have raised : (exception (commitInput pkg s i)).valid = true := faults.raised.1
  rw [commitOutput, commit_commitAck0, faults.live, notAmo, raised]
  simp only [Bool.true_or, Bool.true_and, Bool.false_eq_true, ↓reduceIte]
  rfl

/-- Debug mode is entered for the breakpoint, the request or the step. -/
theorem Faults.setDebugPc_eq (own : i.instr0.ex.valid = true)
    (cause : i.instr0.ex.cause = breakpoint) (outside : s.csr.debugMode = false) :
    setDebugPc s.csr (csrInput pkg s i) = false ↔
      ebreakEnters s.csr = false ∧ debugReq pkg s i = false ∧
        (member s.csr.dcsr Dcsr.step = 1#1 →
          takesFence (presented s i) = true ∧ i.noStPending = false) := by
  have stop : isBreakpoint (csrInput pkg s i) = true := by
    show ((exCommit pkg s i).valid && (exCommit pkg s i).cause == breakpoint) = true
    rw [faults.raised.1, faults.raised.2, if_pos own, cause]
    rfl
  have asked : CsrRegfile.debugRequested (csrInput pkg s i) = debugReq pkg s i := by
    show (debugReq pkg s i && i.instr0.valid) = _
    rw [faults.finished, Bool.and_true]
  have steps : CsrRegfile.stepped s.csr (csrInput pkg s i) =
      (member s.csr.dcsr Dcsr.step == 1#1 && (commitOutput pkg s i).commitAck0) := rfl
  rw [setDebugPc, if_neg (by rw [outside]; decide), stop, asked, steps,
    faults.commitAck0 own, presents, outside]
  by_cases step : member s.csr.dcsr Dcsr.step = 1#1
  · rw [step]
    cases ebreakEnters s.csr <;> cases debugReq pkg s i <;>
      cases takesFence (presented s i) <;> cases i.noStPending <;> decide
  · rw [beq_eq_false_iff_ne.mpr step]
    cases ebreakEnters s.csr <;> cases debugReq pkg s i <;> simp [step]

theorem Faults.breakpointKept_iff : BreakpointKept s.csr (csrInput pkg s i) ↔
    (i.instr0.ex.valid = true → i.instr0.ex.cause = breakpoint →
      s.csr.debugMode = false → ebreakEnters s.csr = false → debugReq pkg s i = false →
      (member s.csr.dcsr Dcsr.step = 1#1 →
        takesFence (presented s i) = true ∧ i.noStPending = false) →
      s.csr.dpc = i.instr0.pc ∧ member s.csr.dcsr Dcsr.cause = causeBreakpoint) := by
  have stops : isBreakpoint (csrInput pkg s i) = true ↔
      i.instr0.ex.valid = true ∧ i.instr0.ex.cause = breakpoint := by
    show ((exCommit pkg s i).valid && (exCommit pkg s i).cause == breakpoint) = true ↔ _
    rw [faults.raised.1, faults.raised.2, Bool.true_and, beq_iff_eq]
    cases i.instr0.ex.valid with
    | true => simp
    | false =>
        refine iff_of_false ?_ ?_
        · rw [if_neg (by decide)]
          decide
        · intro own
          exact absurd own.1 (by decide)
  constructor
  · intro kept own cause outside closed unasked waits
    have quiet := (faults.setDebugPc_eq own cause outside).mpr ⟨closed, unasked, waits⟩
    exact kept (stops.mpr ⟨own, cause⟩) outside quiet
  · intro kept stop outside quiet
    obtain ⟨own, cause⟩ := stops.mp stop
    obtain ⟨closed, unasked, waits⟩ := (faults.setDebugPc_eq own cause outside).mp quiet
    exact kept own cause outside closed unasked waits

end Fault

/-- Every state after the first cycle is settled. -/
theorem next_settled (pkg : Pkg) (s : State) (i : Input) : Settled (next pkg s i).csr := by
  obtain ⟨sxl, uxl⟩ := CsrRegfile.next_widths pkg s.csr (csrInput pkg s i)
  exact ⟨CsrRegfile.next_mtvecRstLoad pkg s.csr (csrInput pkg s i), sxl, uxl⟩

/-- After the first cycle of any run the states are settled. In such a state a faulting CSR
instruction changes nothing but the trap state exactly when it is harmless. -/
theorem faulting_csr_atomic (pkg : Pkg) :
    (∀ s i, Settled (next pkg s i).csr) ∧
      ∀ s i, Settled s.csr → Faults pkg s i → (Atomic pkg s i ↔ Harmless pkg s i) := by
  refine ⟨next_settled pkg, ?_⟩
  intro s i settled faults
  have unwritten : ¬ Writes pkg s.csr (csrInput pkg s i) ↔
      (presents pkg s i = true → csrWe i.instr0.op = true →
        assigns s.csr (satpOperand s.csr i.instr0.op i.instr0.result)
          (decode pkg i.csrAddr) = false) := by
    rw [faults.writes_iff]
    simp only [not_and, Bool.not_eq_true]
  constructor
  · intro atomic
    obtain ⟨frame, silent⟩ := atomic
    have kept := (faults.undisturbed settled silent).frame_iff.mp frame
    exact ⟨unwritten.mp silent, faults.breakpointKept_iff.mp kept⟩
  · intro harmless
    have silent := unwritten.mpr harmless.unwritten
    have kept := faults.breakpointKept_iff.mpr harmless.breakpoint
    exact ⟨(faults.undisturbed settled silent).frame_iff.mpr kept, silent⟩

instance decidableFaults (pkg : Pkg) (s : State) (i : Input) : Decidable (Faults pkg s i) :=
  decidable_of_iff
    (i.instr0.valid = true ∧ halt s = false ∧ i.instr0.fu = .csr ∧
      (((csrException pkg s.csr (csrInput pkg s i)).valid = true ∧
        (csrException pkg s.csr (csrInput pkg s i)).cause = illegalInstr) ∨
        i.instr0.ex.valid = true))
    ⟨fun ⟨finished, running, unit, fault⟩ => ⟨finished, running, unit, fault⟩,
      fun faults => ⟨faults.finished, faults.running, faults.unit, faults.fault⟩⟩

/-- Machine code returns to user mode. -/
def toUser : List Input := [{ instr0 := { fu := .csr, op := .mret, valid := true } }]

/-- User code accesses `mscratch`. -/
def accessMscratch (op : FuOp) : Input :=
  { instr0 := { fu := .csr, op := op, result := 5, valid := true }, csrAddr := 0x340 }

theorem settled_toUser : Settled ((machine .rv64ima).run toUser).csr :=
  next_settled .rv64ima reset _

/-- A read of a machine register in user mode. -/
theorem faulting_csr_atomic_read :
    let s := (machine .rv64ima).run toUser
    Settled (next .rv64ima s {}).csr ∧
      (Atomic .rv64ima s (accessMscratch .csrRead) ↔
        Harmless .rv64ima s (accessMscratch .csrRead)) :=
  ⟨(faulting_csr_atomic .rv64ima).1 _ {},
    (faulting_csr_atomic .rv64ima).2 _ (accessMscratch .csrRead)
      settled_toUser (by decide)⟩

/-- The write of user code to `mscratch` raises an illegal instruction and is performed. -/
theorem faulting_write_is_performed :
    let s := (machine .rv64ima).run toUser
    let write := accessMscratch .csrWrite
    s.csr.privLvl = privLvlU ∧ Faults .rv64ima s write ∧
      (exCommit .rv64ima s write).valid = true ∧ s.csr.mscratch = 0 ∧
      (next .rv64ima s write).csr.mscratch = 5 ∧ ¬ Atomic .rv64ima s write := by
  intro s write
  have old : s.csr.mscratch = 0 := by decide
  have written : (next .rv64ima s write).csr.mscratch = 5 := by decide
  refine ⟨by decide, by decide +kernel, by decide +kernel, old, written, ?_⟩
  intro atomic
  have kept := atomic.1.scratch.1
  exact absurd (written.symm.trans (kept.trans old)) (by decide)

end Ariane.CommitUnit
