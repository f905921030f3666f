import Ariane.CsrRegfile

set_option autoImplicit false

/- What one cycle does to each register of the CSR file: the value after the write case, and
what traps, returns and debug entry make of it. -/
namespace Ariane.CsrRegfile

open Rtl (Machine Field member assign merge member_assign_self member_assign_of_disjoint)
open Riscv

section Layers

variable (pkg : Pkg) (q : State) (i : Input)

/-- `mstatus` after the fixed widths and the dirty marking. -/
def markStatus (u : Written) : BitVec 64 :=
  let m := assign (assign u.d.mstatus Status.sxl xlen64) Status.uxl xlen64
  if pkg.fpPresent && (u.dirtyFpStateCsr || i.dirtyFpState) then assign m Status.fs dirty else m

/-- `mstatus` after a trap to the supervisor level. -/
def trapStatusS (m : BitVec 64) : BitVec 64 :=
  assign (assign (assign m Status.sie 0#1) Status.spie (member q.mstatus Status.sie))
    Status.spp (q.privLvl.extractLsb' 0 1)

/-- `mstatus` after a trap to the machine level. -/
def trapStatusM (m : BitVec 64) : BitVec 64 :=
  assign (assign (assign m Status.mie 0#1) Status.mpie (member q.mstatus Status.mie))
    Status.mpp q.privLvl

/-- The trap of this cycle goes to the supervisor level. -/
def trapsToS : Bool := takesTrap q i && trapToPrivLvl q i == privLvlS

/-- The trap of this cycle goes to the machine level. -/
def trapsToM : Bool := takesTrap q i && trapToPrivLvl q i != privLvlS

def trapStatus (m : BitVec 64) : BitVec 64 :=
  if trapsToS q i then trapStatusS q m else if trapsToM q i then trapStatusM q m else m

def mretStatus (m : BitVec 64) : BitVec 64 :=
  assign (assign (assign m Status.mie (member q.mstatus Status.mpie)) Status.mpp privLvlU)
    Status.mpie 1#1

def sretStatus (m : BitVec 64) : BitVec 64 :=
  assign (assign (assign m Status.sie (member q.mstatus Status.spie)) Status.spp 0#1)
    Status.spie 1#1

def xretStatus (m : BitVec 64) : BitVec 64 :=
  let m := if mret i then mretStatus q m else m
  if sret i then sretStatus q m else m

theorem trapEntry_mstatus (d : State) :
    (trapEntry pkg q i d).mstatus = trapStatus q i d.mstatus := by
  unfold trapEntry trapStatus trapsToS trapsToM trapStatusS trapStatusM
  by_cases trap : takesTrap q i = true
  · by_cases target : trapToPrivLvl q i = privLvlS
    · simp only [trap, target, beq_self_eq_true, Bool.and_self, ↓reduceIte]
    · simp only [trap, beq_eq_false_iff_ne.mpr target, bne, Bool.and_false, Bool.not_false,
        Bool.and_self, Bool.false_eq_true, ↓reduceIte]
  · simp only [trap, Bool.false_and, Bool.false_eq_true, ↓reduceIte]

theorem debugEntry_mstatus (d : State) : (debugEntry pkg q i d).mstatus = d.mstatus := by
  simp only [debugEntry, apply_ite State.mstatus, ite_self]

theorem xret_mstatus (d : State) : (xret q i d).mstatus = xretStatus q i d.mstatus := by
  unfold xret xretStatus mretStatus sretStatus
  cases mret i <;> cases sret i <;> cases dret i <;> rfl

theorem xretStatus_quiet (m : BitVec 64) (noMret : mret i = false) (noSret : sret i = false) :
    xretStatus q i m = m := by
  simp only [xretStatus, noMret, noSret, Bool.false_eq_true, ↓reduceIte]

/-- A trap suppresses returns. -/
theorem noReturn_of_trap (valid : i.ex.valid = true) :
    mret i = false ∧ sret i = false ∧ dret i = false := by
  simp only [mret, sret, dret, valid, Bool.not_true, Bool.and_false, and_self]

theorem next_mstatus :
    (next pkg q i).mstatus =
      xretStatus q i (trapStatus q i (markStatus pkg i (written pkg q i))) := by
  unfold next
  simp only [xret_mstatus, translation, debugEntry_mstatus, trapEntry_mstatus]
  rfl

/-- The privilege level follows traps and returns. -/
theorem next_privLvl :
    (next pkg q i).privLvl =
      if dret i then member q.dcsr Dcsr.prv
      else if sret i then (member q.mstatus Status.spp).setWidth 2
      else if mret i then member q.mstatus Status.mpp
      else if takesTrap q i then trapToPrivLvl q i
      else (written pkg q i).d.privLvl := by
  simp only [next, xret, translation, debugEntry, trapEntry, externalInterrupts, status,
    apply_ite State.privLvl, ite_self]

theorem next_mideleg : (next pkg q i).mideleg = (written pkg q i).d.mideleg := by
  simp only [next, xret, translation, debugEntry, trapEntry, externalInterrupts, status,
    apply_ite State.mideleg, ite_self]

theorem next_mie : (next pkg q i).mie = (written pkg q i).d.mie := by
  simp only [next, xret, translation, debugEntry, trapEntry, externalInterrupts, status,
    apply_ite State.mie, ite_self]

theorem next_satp : (next pkg q i).satp = (written pkg q i).d.satp := by
  simp only [next, xret, translation, debugEntry, trapEntry, externalInterrupts, status,
    apply_ite State.satp, ite_self]

theorem next_mepc :
    (next pkg q i).mepc = if trapsToM q i then i.pc else (written pkg q i).d.mepc := by
  simp only [next, xret, translation, debugEntry, trapEntry, externalInterrupts, status,
    apply_ite State.mepc, ite_self, trapsToM, bne]
  grind

theorem next_sepc :
    (next pkg q i).sepc = if trapsToS q i then i.pc else (written pkg q i).d.sepc := by
  simp only [next, xret, translation, debugEntry, trapEntry, externalInterrupts, status,
    apply_ite State.sepc, ite_self, trapsToS]
  grind

theorem debugEntry_debugMode (d : State) (same : d.debugMode = q.debugMode) :
    (debugEntry pkg q i d).debugMode = (q.debugMode || setDebugPc q i) := by
  cases inside : q.debugMode with
  | true => rw [debugEntry, if_pos inside, same, inside, Bool.true_or]
  | false =>
      rw [inside] at same
      have entered : (if privLvlO q ∈ [privLvlM, privLvlS, privLvlU] then ebreakEnters q
          else false) = ebreakEnters q := by
        split
        · rfl
        · rename_i unimplemented
          simp only [List.mem_cons, List.not_mem_nil, or_false, not_or] at unimplemented
          obtain ⟨notM, notS, notU⟩ := unimplemented
          simp only [ebreakEnters, beq_eq_false_iff_ne.mpr notM, beq_eq_false_iff_ne.mpr notS,
            beq_eq_false_iff_ne.mpr notU, Bool.false_eq_true, ↓reduceIte]
      unfold debugEntry setDebugPc
      rw [inside]
      cases stepped q i <;> cases debugRequested i <;> cases isBreakpoint i <;>
        simp only [entered, same, Bool.false_eq_true, ↓reduceIte, Bool.or_false, Bool.or_true,
          Bool.false_and, Bool.true_and, Bool.false_or]

theorem debugEntry_prv (d : State) :
    member (debugEntry pkg q i d).dcsr Dcsr.prv =
      if q.debugMode then member d.dcsr Dcsr.prv else privLvlO q := by
  unfold debugEntry
  cases q.debugMode with
  | true => rfl
  | false =>
      cases isBreakpoint i <;> cases debugRequested i <;> cases stepped q i <;>
        simp (disch := decide) only [Bool.false_eq_true, ↓reduceIte, member_assign_of_disjoint,
          member_assign_self]

theorem next_dcsr_prv :
    member (next pkg q i).dcsr Dcsr.prv =
      if q.debugMode then member (written pkg q i).d.dcsr Dcsr.prv else privLvlO q := by
  have same : (next pkg q i).dcsr = (debugEntry pkg q i
      (trapEntry pkg q i (externalInterrupts i (status pkg q i (written pkg q i))))).dcsr := by
    simp only [next, xret, translation, apply_ite State.dcsr, ite_self]
  have kept : (trapEntry pkg q i (externalInterrupts i
      (status pkg q i (written pkg q i)))).dcsr = (written pkg q i).d.dcsr := by
    simp only [trapEntry, externalInterrupts, status, apply_ite State.dcsr, ite_self]
  rw [same, debugEntry_prv, kept]

end Layers

theorem counters_mstatus (pkg : Pkg) (q : State) (i : Input) :
    (counters pkg q i).mstatus = q.mstatus := by
  unfold counters
  dsimp only
  split <;> rfl

theorem counters_mepc (pkg : Pkg) (q : State) (i : Input) :
    (counters pkg q i).mepc = q.mepc := by
  unfold counters
  dsimp only
  split <;> rfl

theorem counters_sepc (pkg : Pkg) (q : State) (i : Input) :
    (counters pkg q i).sepc = q.sepc := by
  unfold counters
  dsimp only
  split <;> rfl

theorem counters_satp (pkg : Pkg) (q : State) (i : Input) :
    (counters pkg q i).satp = q.satp := by
  unfold counters
  dsimp only
  split <;> rfl

/-- Without a CSR write no register leaves its counting value. -/
theorem written_idle (pkg : Pkg) (q : State) (i : Input) (idle : csrWe i.csrOp = false) :
    written pkg q i = { d := counters pkg q i } := by
  simp only [written, idle, Bool.false_eq_true, ↓reduceIte]

section Writes

variable (pkg : Pkg) (q d : State) (w : BitVec 64) (r : Option CsrReg)

/-- The registers that mark the floating-point state as dirty. -/
def isFpReg : Option CsrReg → Bool
  | some .fflags | some .frm | some .fcsr | some .ftran => true
  | _ => false

/-- The case item of the register reports an access exception. -/
def refuses (q : State) : Option CsrReg → Bool
  | some .fflags | some .frm | some .fcsr | some .ftran => fpOff q
  | some .satp => satpTrapped q
  | some .mvendorid | some .marchid | some .mimpid | some .mhartid | some .cycle
  | some .instret | none => true
  | _ => false

/-- What the case statement leaves in the registers. -/
structure CaseWrites (u : Written) : Prop where
  privLvl : u.d.privLvl = d.privLvl
  debugMode : u.d.debugMode = d.debugMode
  mideleg : u.d.mideleg =
    if r = some .mideleg then merge supervisorMask q.mideleg w else d.mideleg
  mie : u.d.mie =
    if r = some .mie then merge mieMask q.mie w
    else if r = some .sie then merge q.mideleg q.mie w
    else d.mie
  satp : u.d.satp =
    if r = some .satp ∧ satpTrapped q = false then writeSatp pkg d.satp w else d.satp
  mstatus : u.d.mstatus =
    if r = some .mstatus then writeMstatus pkg q w
    else if r = some .sstatus then writeSstatus pkg q w
    else d.mstatus
  dcsr : u.d.dcsr = if r = some .dcsr then writeDcsr q w else d.dcsr
  dirtyFpStateCsr : u.dirtyFpStateCsr = (isFpReg r && !fpOff q)
  updateAccessException : u.updateAccessException = refuses q r

theorem writeReg_writes : CaseWrites pkg q d w r (writeReg pkg q d w r) := by
  rcases r with _ | r
  · constructor <;> rfl
  · cases r with
    | fflags | frm | fcsr | ftran =>
        simp only [writeReg, writeFp]
        cases off : fpOff q <;> constructor <;>
          first | rfl | simp only [isFpReg, refuses, off]; rfl
    | satp =>
        simp only [writeReg]
        cases trapped : satpTrapped q <;> constructor <;>
          first | rfl | simp only [refuses, trapped]; rfl
    | _ => constructor <;> rfl

theorem writeReg_privLvl : (writeReg pkg q d w r).d.privLvl = d.privLvl :=
  (writeReg_writes pkg q d w r).privLvl

theorem writeReg_debugMode : (writeReg pkg q d w r).d.debugMode = d.debugMode :=
  (writeReg_writes pkg q d w r).debugMode

end Writes

theorem written_updateAccessException (pkg : Pkg) (q : State) (i : Input) :
    (written pkg q i).updateAccessException =
      (csrWe i.csrOp && refuses q (decode pkg i.csrAddr)) := by
  unfold written
  cases csrWe i.csrOp with
  | false => rfl
  | true => exact (writeReg_writes ..).updateAccessException

theorem written_debugMode (pkg : Pkg) (q : State) (i : Input) :
    (written pkg q i).d.debugMode = q.debugMode := by
  have counting : (counters pkg q i).debugMode = q.debugMode := by
    simp only [counters, apply_ite State.debugMode, ite_self]
  unfold written
  split
  · rw [writeReg_debugMode, counting]
  · exact counting

/-- Debug mode is entered with a jump to the debugger, and left by `dret`. -/
theorem next_debugMode (pkg : Pkg) (q : State) (i : Input) :
    (next pkg q i).debugMode = (!dret i && (q.debugMode || setDebugPc q i)) := by
  have old : (trapEntry pkg q i (externalInterrupts i
      (status pkg q i (written pkg q i)))).debugMode = q.debugMode := by
    simp only [trapEntry, externalInterrupts, status, apply_ite State.debugMode, ite_self,
      written_debugMode]
  have entry := debugEntry_debugMode pkg q i _ old
  simp only [next, xret, translation, apply_ite State.debugMode, ite_self]
  rw [entry]
  cases dret i <;> rfl

theorem next_fcsr (pkg : Pkg) (q : State) (i : Input) :
    (next pkg q i).fcsr =
      if i.csrWriteFflags then assign (written pkg q i).d.fcsr Fcsr.fflags
        (i.csrWdata.setWidth 5 ||| member q.fcsr Fcsr.fflags)
      else (written pkg q i).d.fcsr := by
  simp only [next, xret, translation, debugEntry, trapEntry, externalInterrupts, status,
    apply_ite State.fcsr, ite_self]

theorem next_instret (pkg : Pkg) (q : State) (i : Input) :
    (next pkg q i).instret = (written pkg q i).d.instret := by
  simp only [next, xret, translation, debugEntry, trapEntry, externalInterrupts, status,
    apply_ite State.instret, ite_self]

/-- An interrupt is told from a synchronous exception by its cause. -/
theorem interrupt_cause (q : State) (i : Input) (raised : (interrupt q i).valid = true) :
    (interrupt q i).cause.getLsbD 63 = true := by
  unfold interrupt at raised ⊢
  dsimp only at raised ⊢
  split at raised
  · rename_i taken
    rw [if_pos taken]
    exact (Bool.and_eq_true _ _ ▸ taken).1
  · exact absurd raised (by decide)

/-- A step leaves the address at which it resumes. -/
theorem next_dpc_stepped (pkg : Pkg) (q : State) (i : Input) (outside : q.debugMode = false)
    (step : stepped q i = true) : (next pkg q i).dpc = steppedPc pkg q i := by
  have entry : ∀ d : State, (debugEntry pkg q i d).dpc = steppedPc pkg q i := by
    intro d
    rw [debugEntry, if_neg (by rw [outside]; decide), if_pos step]
  have kept : ∀ d : State, (xret q i (translation q d)).dpc = d.dpc := by
    intro d
    simp only [xret, translation, apply_ite State.dpc, ite_self]
  show (xret q i (translation q (debugEntry pkg q i _))).dpc = _
  rw [kept, entry]

/-- A cycle without a CSR operation and without a trap. -/
structure Plain (i : Input) : Prop where
  op : i.csrOp = .add
  noTrap : i.ex.valid = false

section Plain

variable (pkg : Pkg) (q : State) {i : Input} (plain : Plain i)

include plain

theorem Plain.written : written pkg q i = { d := counters pkg q i } := by
  apply written_idle
  rw [plain.op]
  rfl

theorem Plain.noReturn : mret i = false ∧ sret i = false ∧ dret i = false := by
  simp only [mret, sret, dret, plain.op]
  exact ⟨rfl, rfl, rfl⟩

theorem Plain.counting :
    (CsrRegfile.written pkg q i).d.fcsr = q.fcsr ∧
      (CsrRegfile.written pkg q i).d.instret = (counters pkg q i).instret := by
  rw [plain.written pkg q]
  refine ⟨?_, rfl⟩
  simp only [counters, apply_ite State.fcsr, ite_self]

/-- The flags of the retired floating-point operations accumulate. -/
theorem Plain.fflags :
    member (next pkg q i).fcsr Fcsr.fflags =
      member q.fcsr Fcsr.fflags ||| (if i.csrWriteFflags then i.csrWdata.setWidth 5 else 0) := by
  rw [next_fcsr, (plain.counting pkg q).1]
  cases i.csrWriteFflags with
  | true =>
      rw [if_pos rfl, if_pos rfl, member_assign_self]
      exact BitVec.or_comm _ _
  | false =>
      rw [if_neg (by decide), if_neg (by decide)]
      exact BitVec.or_zero.symm

theorem Plain.fs :
    member (next pkg q i).mstatus Status.fs =
      if pkg.fpPresent && i.dirtyFpState then dirty else member q.mstatus Status.fs := by
  have quiet : takesTrap q i = false := by
    rw [takesTrap, plain.noTrap, Bool.and_false]
  rw [next_mstatus, xretStatus_quiet q i _ plain.noReturn.1 plain.noReturn.2.1, trapStatus,
    trapsToS, trapsToM, quiet, markStatus, plain.written pkg q]
  simp only [Bool.false_and, Bool.false_eq_true, ↓reduceIte, Bool.false_or, counters_mstatus]
  split
  · rw [member_assign_self]
  · simp (disch := decide) only [member_assign_of_disjoint]

/-- Every commit port counts. -/
theorem Plain.instret :
    (next pkg q i).instret = q.instret +
      if q.debugMode then 0 else BitVec.ofNat 64 (i.commitAck0.toNat + i.commitAck1.toNat) := by
  have one : ∀ x : BitVec 64, x + 0 = x := fun x => BitVec.add_zero x
  rw [next_instret, (plain.counting pkg q).2, counters, plain.noTrap]
  cases q.debugMode with
  | true => exact (one _).symm
  | false =>
      cases i.commitAck0 with
      | true =>
          cases i.commitAck1 with
          | true => exact BitVec.add_assoc q.instret 1 1
          | false => rfl
      | false =>
          cases i.commitAck1 with
          | true => rfl
          | false => exact (one _).symm

end Plain

end Ariane.CsrRegfile
