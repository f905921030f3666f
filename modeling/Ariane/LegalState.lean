import Ariane.CsrUpdate

set_option autoImplicit false

/- Legal machine states: what every run of the CSR file keeps, and which writes break it. -/
namespace Ariane.CsrRegfile

open Rtl (Machine Field member assign merge member_assign_self member_assign_of_disjoint
  member_merge_of_clear merge_and_not_self merge_within)
open Riscv

/-- An implemented privilege level. -/
def Implemented (p : PrivLvl) : Prop := p = privLvlU ∨ p = privLvlS ∨ p = privLvlM

instance decidableImplemented (p : PrivLvl) : Decidable (Implemented p) :=
  inferInstanceAs (Decidable (_ ∨ _))

/-- The mask of `sstatus` writes is a view for the supervisor level: it has neither the
previous machine level nor the read-only extension state. -/
structure SupervisorView (pkg : Pkg) : Prop where
  mpp : member pkg.smodeStatusWriteMask Status.mpp = 0#2
  xs : member pkg.smodeStatusWriteMask Status.xs = 0#2

/-- The legal states of the register file. -/
structure Legal (q : State) : Prop where
  privLvl : Implemented q.privLvl
  mpp : Implemented (member q.mstatus Status.mpp)
  prv : Implemented (member q.dcsr Dcsr.prv)
  sd : member q.mstatus Status.sd = 1#1 ↔
    member q.mstatus Status.fs = dirty ∨ member q.mstatus Status.xs = dirty
  mideleg : q.mideleg &&& ~~~supervisorMask = 0
  mie : q.mie &&& ~~~mieMask = 0
  satp : member q.satp Satp.mode = modeOff ∨ member q.satp Satp.mode = modeSv39

/-- The instruction writes register `r`. -/
def writesTo (pkg : Pkg) (i : Input) (r : CsrReg) : Bool :=
  csrWe i.csrOp && decode pkg i.csrAddr == some r

/-- The floating-point state is marked dirty in this cycle. -/
def dirties (pkg : Pkg) (q : State) (i : Input) : Bool :=
  pkg.fpPresent &&
    ((csrWe i.csrOp && isFpReg (decode pkg i.csrAddr) && !fpOff q) || i.dirtyFpState)

/-- The field `fs` that the instruction leaves, before any marking. -/
def fsWritten (pkg : Pkg) (q : State) (i : Input) : BitVec 2 :=
  if writesTo pkg i .mstatus then
    if pkg.fpPresent then member (csrWdata pkg q i) Status.fs else off
  else if writesTo pkg i .sstatus then
    if pkg.fpPresent then
      member (merge pkg.smodeStatusWriteMask q.mstatus (csrWdata pkg q i)) Status.fs
    else off
  else member q.mstatus Status.fs

/-- The steps that stay clear of the two unguarded updates of `mstatus`. -/
structure Guarded (pkg : Pkg) (q : State) (i : Input) : Prop where
  /-- No write puts the unimplemented level into `mpp`, unless a trap replaces it. -/
  mpp : writesTo pkg i .mstatus = true → trapsToM q i = false →
    member (csrWdata pkg q i) Status.mpp ≠ 0b10#2
  /-- The step leaves `fs` dirty exactly if it was dirty before. -/
  fs : (dirties pkg q i = true ∨ fsWritten pkg q i = dirty) ↔ member q.mstatus Status.fs = dirty

/-- A field of `mstatus` that traps and returns do not touch. -/
def TrapFree (g : Field 64) : Prop :=
  (Status.sie.Disjoint g ∧ Status.spie.Disjoint g ∧ Status.spp.Disjoint g) ∧
    Status.mie.Disjoint g ∧ Status.mpie.Disjoint g ∧ Status.mpp.Disjoint g

instance decidableTrapFree (g : Field 64) : Decidable (TrapFree g) :=
  inferInstanceAs (Decidable (_ ∧ _))

section Members

variable (pkg : Pkg) (q : State) (i : Input) (m : BitVec 64) (g : Field 64)

theorem trapStatus_member (free : TrapFree g) : member (trapStatus q i m) g = member m g := by
  obtain ⟨⟨sie, spie, spp⟩, mie, mpie, mpp⟩ := free
  unfold trapStatus trapStatusS trapStatusM
  split
  · rw [member_assign_of_disjoint _ _ _ _ spp, member_assign_of_disjoint _ _ _ _ spie,
      member_assign_of_disjoint _ _ _ _ sie]
  · split
    · rw [member_assign_of_disjoint _ _ _ _ mpp, member_assign_of_disjoint _ _ _ _ mpie,
        member_assign_of_disjoint _ _ _ _ mie]
    · rfl

theorem xretStatus_member (free : TrapFree g) : member (xretStatus q i m) g = member m g := by
  obtain ⟨⟨sie, spie, spp⟩, mie, mpie, mpp⟩ := free
  have fromMret : member (mretStatus q m) g = member m g := by
    rw [mretStatus, member_assign_of_disjoint _ _ _ _ mpie, member_assign_of_disjoint _ _ _ _ mpp,
      member_assign_of_disjoint _ _ _ _ mie]
  have fromSret : ∀ m', member (sretStatus q m') g = member m' g := by
    intro m'
    rw [sretStatus, member_assign_of_disjoint _ _ _ _ spie, member_assign_of_disjoint _ _ _ _ spp,
      member_assign_of_disjoint _ _ _ _ sie]
  unfold xretStatus
  dsimp only
  split
  · rw [fromSret]
    split
    · exact fromMret
    · rfl
  · split
    · exact fromMret
    · rfl

/-- The members that the marking of a cycle does not touch. -/
theorem markStatus_member (u : Written) (sxl : Status.sxl.Disjoint g) (uxl : Status.uxl.Disjoint g)
    (fs : Status.fs.Disjoint g) : member (markStatus pkg i u) g = member u.d.mstatus g := by
  unfold markStatus
  dsimp only
  split
  · rw [member_assign_of_disjoint _ _ _ _ fs, member_assign_of_disjoint _ _ _ _ uxl,
      member_assign_of_disjoint _ _ _ _ sxl]
  · rw [member_assign_of_disjoint _ _ _ _ uxl, member_assign_of_disjoint _ _ _ _ sxl]

theorem markStatus_fs (u : Written) :
    member (markStatus pkg i u) Status.fs =
      if pkg.fpPresent && (u.dirtyFpStateCsr || i.dirtyFpState) then dirty
      else member u.d.mstatus Status.fs := by
  unfold markStatus
  dsimp only
  split
  · exact member_assign_self _ _ _
  · simp (disch := decide) only [member_assign_of_disjoint]

theorem written_mstatus :
    (written pkg q i).d.mstatus =
      if writesTo pkg i .mstatus then writeMstatus pkg q (csrWdata pkg q i)
      else if writesTo pkg i .sstatus then writeSstatus pkg q (csrWdata pkg q i)
      else q.mstatus := by
  unfold written writesTo
  cases csrWe i.csrOp with
  | false => simp only [Bool.false_eq_true, ↓reduceIte, Bool.false_and, counters_mstatus]
  | true =>
      simp only [↓reduceIte, Bool.true_and, (writeReg_writes ..).mstatus, counters_mstatus,
        beq_iff_eq]

theorem written_dirtyFpStateCsr :
    (written pkg q i).dirtyFpStateCsr =
      (csrWe i.csrOp && isFpReg (decode pkg i.csrAddr) && !fpOff q) := by
  unfold written
  cases csrWe i.csrOp with
  | false => simp only [Bool.false_eq_true, ↓reduceIte, Bool.false_and]
  | true => simp only [↓reduceIte, (writeReg_writes ..).dirtyFpStateCsr, Bool.true_and]

theorem hardwireFs_member (fs : Status.fs.Disjoint g) :
    member (hardwireFs pkg m) g = member m g := by
  unfold hardwireFs
  split
  · rfl
  · exact member_assign_of_disjoint _ _ _ _ fs

theorem hardwireFs_fs :
    member (hardwireFs pkg m) Status.fs = if pkg.fpPresent then member m Status.fs else off := by
  unfold hardwireFs
  split
  · rfl
  · exact member_assign_self _ _ _

theorem writeMstatus_mpp (w : BitVec 64) :
    member (writeMstatus pkg q w) Status.mpp = member w Status.mpp := by
  simp (disch := decide) only [writeMstatus, member_assign_of_disjoint, hardwireFs_member]

theorem writeMstatus_xs (w : BitVec 64) : member (writeMstatus pkg q w) Status.xs = off := by
  simp (disch := decide) only [writeMstatus, member_assign_of_disjoint, hardwireFs_member,
    member_assign_self]

theorem writeMstatus_sd (w : BitVec 64) : member (writeMstatus pkg q w) Status.sd = sdOf q := by
  simp (disch := decide) only [writeMstatus, member_assign_of_disjoint, hardwireFs_member,
    member_assign_self]

theorem writeMstatus_fs (w : BitVec 64) :
    member (writeMstatus pkg q w) Status.fs =
      if pkg.fpPresent then member w Status.fs else off := by
  simp (disch := decide) only [writeMstatus, member_assign_of_disjoint, hardwireFs_fs]

theorem writeSstatus_sd (w : BitVec 64) : member (writeSstatus pkg q w) Status.sd = sdOf q := by
  simp only [writeSstatus, member_assign_self]

theorem writeSstatus_fs (w : BitVec 64) :
    member (writeSstatus pkg q w) Status.fs =
      if pkg.fpPresent then member (merge pkg.smodeStatusWriteMask q.mstatus w) Status.fs
      else off := by
  simp (disch := decide) only [writeSstatus, member_assign_of_disjoint, hardwireFs_fs]

/-- A write to `sstatus` keeps what the supervisor view does not show. -/
theorem writeSstatus_member (w : BitVec 64) (fs : Status.fs.Disjoint g)
    (sd : Status.sd.Disjoint g) (clear : member pkg.smodeStatusWriteMask g = 0#g.len) :
    member (writeSstatus pkg q w) g = member q.mstatus g := by
  rw [writeSstatus, member_assign_of_disjoint _ _ _ _ sd, hardwireFs_member _ _ _ fs,
    member_merge_of_clear _ _ _ _ clear]

end Members

/-- What a run keeps besides: no extension is ever marked. -/
structure Kept (q : State) : Prop extends Legal q where
  xs : member q.mstatus Status.xs = off

theorem reset_kept : Kept reset := by
  refine ⟨⟨?_, ?_, ?_, ?_, ?_, ?_, ?_⟩, ?_⟩ <;> decide

section Step

variable (pkg : Pkg) (q : State) (i : Input)

theorem trapToPrivLvl_implemented : Implemented (trapToPrivLvl q i) := by
  unfold trapToPrivLvl
  split
  · split
    · exact Or.inr (Or.inr rfl)
    · exact Or.inr (Or.inl rfl)
  · exact Or.inr (Or.inr rfl)

theorem spp_implemented (b : BitVec 1) : Implemented (b.setWidth 2) := by
  revert b
  decide

theorem written_privLvl : (written pkg q i).d.privLvl = q.privLvl := by
  unfold written counters
  dsimp only
  split
  · rw [writeReg_privLvl]
    split <;> rfl
  · split <;> rfl

theorem next_implemented (legal : Legal q) : Implemented (next pkg q i).privLvl := by
  rw [next_privLvl, written_privLvl]
  split
  · exact legal.prv
  · split
    · exact spp_implemented _
    · split
      · exact legal.mpp
      · split
        · exact trapToPrivLvl_implemented q i
        · exact legal.privLvl

/-- Every path that assigns `mpp`. -/
theorem next_mpp (view : SupervisorView pkg) :
    member (next pkg q i).mstatus Status.mpp =
      if mret i then privLvlU
      else if trapsToM q i then q.privLvl
      else if writesTo pkg i .mstatus then member (csrWdata pkg q i) Status.mpp
      else member q.mstatus Status.mpp := by
  have fromTrap : ∀ m, member (trapStatus q i m) Status.mpp =
      if trapsToM q i then q.privLvl else member m Status.mpp := by
    intro m
    unfold trapStatus trapStatusS trapStatusM trapsToS trapsToM
    cases takesTrap q i with
    | false => rfl
    | true =>
        by_cases target : trapToPrivLvl q i = privLvlS
        · simp (disch := decide) only [target, bne_self_eq_false, beq_self_eq_true, Bool.and_self,
            Bool.and_false, Bool.false_eq_true, ↓reduceIte, member_assign_of_disjoint]
        · simp only [beq_eq_false_iff_ne.mpr target, bne_iff_ne.mpr target, Bool.and_self,
            Bool.and_false, Bool.false_eq_true, ↓reduceIte, member_assign_self]
  have fromReturn : ∀ m, member (xretStatus q i m) Status.mpp =
      if mret i then privLvlU else member m Status.mpp := by
    intro m
    unfold xretStatus mretStatus sretStatus
    cases mret i with
    | false => cases sret i <;> simp (disch := decide) only [Bool.false_eq_true, ↓reduceIte,
        member_assign_of_disjoint]
    | true => cases sret i <;> simp (disch := decide) only [Bool.false_eq_true, ↓reduceIte,
        member_assign_of_disjoint, member_assign_self]
  rw [next_mstatus, fromReturn, fromTrap, markStatus_member _ _ _ _ (by decide) (by decide)
    (by decide), written_mstatus]
  congr 2
  split
  · exact writeMstatus_mpp pkg q _
  · split
    · exact writeSstatus_member pkg q _ _ (by decide) (by decide) view.mpp
    · rfl

theorem next_xs (view : SupervisorView pkg) (xs : member q.mstatus Status.xs = off) :
    member (next pkg q i).mstatus Status.xs = off := by
  rw [next_mstatus, xretStatus_member _ _ _ _ (by decide), trapStatus_member _ _ _ _ (by decide),
    markStatus_member _ _ _ _ (by decide) (by decide) (by decide), written_mstatus]
  split
  · exact writeMstatus_xs pkg q _
  · split
    · exact (writeSstatus_member pkg q _ _ (by decide) (by decide) view.xs).trans xs
    · exact xs

/-- `fs` after one cycle: marked dirty, or what the write left. -/
theorem next_fs :
    member (next pkg q i).mstatus Status.fs =
      if dirties pkg q i then dirty else fsWritten pkg q i := by
  rw [next_mstatus, xretStatus_member _ _ _ _ (by decide), trapStatus_member _ _ _ _ (by decide),
    markStatus_fs, written_dirtyFpStateCsr]
  unfold dirties fsWritten
  congr 1
  rw [written_mstatus]
  split
  · exact writeMstatus_fs pkg q _
  · split
    · exact writeSstatus_fs pkg q _
    · rfl

/-- In a legal state `sd` is the summary. -/
theorem sdOf_eq (legal : Legal q) : sdOf q = member q.mstatus Status.sd := by
  have current := legal.sd
  have bit : ∀ b : BitVec 1, b ≠ 1#1 → b = 0#1 := by decide
  unfold sdOf
  by_cases marked : member q.mstatus Status.fs = dirty ∨ member q.mstatus Status.xs = dirty
  · rw [current.mpr marked]
    rcases marked with fs | xs
    · rw [fs, beq_self_eq_true, Bool.or_true]
      rfl
    · rw [xs, beq_self_eq_true, Bool.true_or]
      rfl
  · rw [bit _ (fun set => marked (current.mp set))]
    rw [not_or] at marked
    rw [beq_eq_false_iff_ne.mpr marked.1, beq_eq_false_iff_ne.mpr marked.2]
    rfl

/-- `sd` after one cycle sums up the state before the cycle. -/
theorem next_sd (legal : Legal q) :
    member (next pkg q i).mstatus Status.sd = sdOf q := by
  rw [next_mstatus, xretStatus_member _ _ _ _ (by decide), trapStatus_member _ _ _ _ (by decide),
    markStatus_member _ _ _ _ (by decide) (by decide) (by decide), written_mstatus]
  split
  · exact writeMstatus_sd pkg q _
  · split
    · exact writeSstatus_sd pkg q _
    · exact (sdOf_eq q legal).symm

theorem next_mideleg_masked (legal : Legal q) :
    (next pkg q i).mideleg &&& ~~~supervisorMask = 0 := by
  rw [next_mideleg]
  unfold written
  have base : (counters pkg q i).mideleg = q.mideleg := by
    unfold counters
    dsimp only
    split <;> rfl
  split
  · rw [(writeReg_writes ..).mideleg, base]
    split
    · exact (merge_and_not_self _ _ _).trans legal.mideleg
    · exact legal.mideleg
  · rw [base]
    exact legal.mideleg

/-- Everything delegable may also be enabled. -/
theorem enabled_of_delegated (x : BitVec 64) (masked : x &&& ~~~supervisorMask = 0) :
    x &&& ~~~mieMask = 0 := by
  have inside : (~~~supervisorMask) &&& ~~~mieMask = ~~~mieMask := by decide
  rw [← inside, ← BitVec.and_assoc, masked]
  exact BitVec.zero_and

theorem next_mie_masked (legal : Legal q) : (next pkg q i).mie &&& ~~~mieMask = 0 := by
  rw [next_mie]
  unfold written
  have base : (counters pkg q i).mie = q.mie := by
    unfold counters
    dsimp only
    split <;> rfl
  split
  · rw [(writeReg_writes ..).mie, base]
    split
    · exact (merge_and_not_self _ _ _).trans legal.mie
    · split
      · exact merge_within _ _ _ _ (enabled_of_delegated q.mideleg legal.mideleg) legal.mie
      · exact legal.mie
  · rw [base]
    exact legal.mie

theorem writeSatp_mode (w : BitVec 64)
    (old : member q.satp Satp.mode = modeOff ∨ member q.satp Satp.mode = modeSv39) :
    member (writeSatp pkg q.satp w) Satp.mode = modeOff ∨
      member (writeSatp pkg q.satp w) Satp.mode = modeSv39 := by
  unfold writeSatp
  dsimp only
  split
  · rename_i supported
    simpa only [Bool.or_eq_true, beq_iff_eq] using supported
  · exact old

theorem next_satp_mode (legal : Legal q) :
    member (next pkg q i).satp Satp.mode = modeOff ∨
      member (next pkg q i).satp Satp.mode = modeSv39 := by
  rw [next_satp]
  unfold written
  have base : (counters pkg q i).satp = q.satp := counters_satp pkg q i
  split
  · rw [(writeReg_writes ..).satp, base]
    split
    · exact writeSatp_mode pkg q _ legal.satp
    · exact legal.satp
  · rw [base]
    exact legal.satp

theorem writeDcsr_prv (w : BitVec 64) : member (writeDcsr q w) Dcsr.prv = q.privLvl := by
  simp (disch := decide) only [writeDcsr, member_assign_of_disjoint, member_assign_self]

theorem next_prv_implemented (legal : Legal q) :
    Implemented (member (next pkg q i).dcsr Dcsr.prv) := by
  rw [next_dcsr_prv]
  split
  · unfold written
    have base : (counters pkg q i).dcsr = q.dcsr := by
      unfold counters
      dsimp only
      split <;> rfl
    split
    · rw [(writeReg_writes ..).dcsr, base]
      split
      · rw [writeDcsr_prv]
        exact legal.privLvl
      · exact legal.prv
    · rw [base]
      exact legal.prv
  · unfold privLvlO
    split
    · exact Or.inr (Or.inr rfl)
    · exact legal.privLvl

/-- Every code of two bits but `2'b10` is a level. -/
theorem implemented_of_ne (p : PrivLvl) (other : p ≠ 0b10#2) : Implemented p := by
  revert p
  decide

theorem next_kept (view : SupervisorView pkg) (kept : Kept q) (guarded : Guarded pkg q i) :
    Kept (next pkg q i) := by
  have legal := kept.toLegal
  have xs := next_xs pkg q i view kept.xs
  refine ⟨⟨next_implemented pkg q i legal, ?_, next_prv_implemented pkg q i legal, ?_,
    next_mideleg_masked pkg q i legal, next_mie_masked pkg q i legal,
    next_satp_mode pkg q i legal⟩, xs⟩
  · rw [next_mpp pkg q i view]
    split
    · exact Or.inl rfl
    · split
      · exact legal.privLvl
      · rename_i stays
        rw [Bool.not_eq_true] at stays
        split
        · rename_i write
          exact implemented_of_ne _ (guarded.mpp write stays)
        · exact legal.mpp
  · have none : off ≠ dirty := by decide
    rw [next_sd pkg q i legal, xs, next_fs]
    have marked : (if dirties pkg q i then dirty else fsWritten pkg q i) = dirty ↔
        member q.mstatus Status.fs = dirty := by
      rw [← guarded.fs]
      cases dirties pkg q i <;> simp
    rw [marked, or_iff_left none]
    unfold sdOf
    rw [kept.xs, beq_eq_false_iff_ne.mpr none, Bool.false_or]
    by_cases set : member q.mstatus Status.fs = dirty
    · rw [set]
      decide
    · rw [beq_eq_false_iff_ne.mpr set]
      exact iff_of_false (by decide) set

/-- The widths are fixed from the first cycle on. -/
theorem next_widths :
    member (next pkg q i).mstatus Status.sxl = xlen64 ∧
      member (next pkg q i).mstatus Status.uxl = xlen64 := by
  rw [next_mstatus, xretStatus_member _ _ _ _ (by decide), xretStatus_member _ _ _ _ (by decide),
    trapStatus_member _ _ _ _ (by decide), trapStatus_member _ _ _ _ (by decide)]
  unfold markStatus
  dsimp only
  split <;> simp (disch := decide) only [member_assign_of_disjoint, member_assign_self, and_self]

end Step

/-- In every run whose steps are guarded every state is legal; the extension widths are
fixed after the first cycle of any run. -/
theorem legal_states (pkg : Pkg) (inputs : List Input) (view : SupervisorView pkg)
    (guarded : (machine pkg).Legal (Guarded pkg) reset inputs) :
    Legal ((machine pkg).run inputs) ∧
      (inputs ≠ [] → member ((machine pkg).run inputs).mstatus Status.sxl = xlen64 ∧
        member ((machine pkg).run inputs).mstatus Status.uxl = xlen64) := by
  constructor
  · exact ((machine pkg).run_invariant reset_kept
      (fun q i kept step => next_kept pkg q i view kept step) guarded).toLegal
  · intro some
    have split := List.dropLast_concat_getLast some
    rw [← split, Machine.run_append]
    exact next_widths pkg _ _

instance decidableGuarded (pkg : Pkg) (q : State) (i : Input) : Decidable (Guarded pkg q i) :=
  decidable_of_iff
    ((writesTo pkg i .mstatus = true → trapsToM q i = false →
        member (csrWdata pkg q i) Status.mpp ≠ 0b10#2) ∧
      ((dirties pkg q i = true ∨ fsWritten pkg q i = dirty) ↔
        member q.mstatus Status.fs = dirty))
    ⟨fun ⟨mpp, fs⟩ => ⟨mpp, fs⟩, fun guarded => ⟨guarded.mpp, guarded.fs⟩⟩

/-- Machine code selects user level in `mpp` and returns. -/
def enterUser : List Input :=
  [{ csrOp := .csrWrite, csrAddr := 0x300#12, csrWdata := 0x80#64 }, { csrOp := .mret }]

theorem legal_states_enterUser :
    Legal ((machine .rv64ima).run enterUser) ∧
      (enterUser ≠ [] →
        member ((machine .rv64ima).run enterUser).mstatus Status.sxl = xlen64 ∧
        member ((machine .rv64ima).run enterUser).mstatus Status.uxl = xlen64) :=
  legal_states .rv64ima enterUser ⟨by decide, by decide⟩ (by decide)

/-- A write of `2'b10` to `mpp` sticks, and a return makes it the privilege level. With floating
point a write that makes `fs` dirty leaves `sd` clear. -/
theorem illegal_states :
    (let write : Input := { csrOp := .csrWrite, csrAddr := 0x300#12, csrWdata := 0x1000#64 }
     let q := (machine .rv64ima).run [write, { csrOp := .mret }]
     member ((machine .rv64ima).run [write]).mstatus Status.mpp = 0b10#2 ∧
      q.privLvl = 0b10#2 ∧ ¬ Legal q) ∧
    (let pkg := { Pkg.rv64ima with fpPresent := true }
     let write : Input := { csrOp := .csrWrite, csrAddr := 0x300#12, csrWdata := 0x6000#64 }
     let q := (machine pkg).run [write]
     member q.mstatus Status.fs = dirty ∧ member q.mstatus Status.sd = 0#1 ∧ ¬ Legal q) := by
  have level : ∀ q : State, q.privLvl = 0b10#2 → ¬ Legal q := by
    intro q unimplemented legal
    have implemented := legal.privLvl
    rw [unimplemented] at implemented
    exact absurd implemented (by decide)
  have summary : ∀ q : State, member q.mstatus Status.fs = dirty →
      member q.mstatus Status.sd = 0#1 → ¬ Legal q := by
    intro q fs sd legal
    have set := legal.sd.mpr (Or.inl fs)
    rw [sd] at set
    exact absurd set (by decide)
  refine ⟨⟨by decide, by decide +kernel, level _ (by decide +kernel)⟩, ?_⟩
  exact ⟨by decide, by decide +kernel, summary _ (by decide +kernel) (by decide +kernel)⟩

end Ariane.CsrRegfile
