import Ariane.FaultingCsr

set_option autoImplicit false

/- The values that each CSR may hold: what the write case leaves in a register is the legal
form of the value written, and the read case shows it. -/
namespace Ariane.CsrRegfile

open Rtl (Machine Field member assign merge AgreeOutside member_assign_self
  member_assign_of_disjoint assign_of_member)
open Riscv

/-- Software may read and write the register. The performance counters are not registers of
this file. -/
def readWrite : CsrReg → Bool
  | .mvendorid | .marchid | .mimpid | .mhartid | .cycle | .instret | .perf _ => false
  | _ => true

/-- `mstatus` with its hardwired members; `sd` sums up the extension state. -/
def legalStatus (pkg : Pkg) (w : BitVec 64) : BitVec 64 :=
  let m := hardwireFs pkg (assign w Status.xs off)
  let m := assign (assign m Status.upie 0#1) Status.uie 0#1
  let m := assign (assign m Status.sxl xlen64) Status.uxl xlen64
  assign m Status.sd (BitVec.ofBool (member m Status.fs == dirty))

/-- `dcsr` with its hardwired members. -/
def legalDcsr (level : PrivLvl) (w : BitVec 32) : BitVec 32 :=
  let r := assign (assign w Dcsr.xdebugver 4#4) Dcsr.prv level
  assign (assign (assign r Dcsr.nmip 0#1) Dcsr.stopcount 0#1) Dcsr.stoptime 0#1

/-- The value that the register holds after a write of `v`: the implemented bits of `v`, and
the others as they are hardwired. -/
def legalise (pkg : Pkg) (q : State) (r : CsrReg) (v : BitVec 64) : BitVec 64 :=
  match r with
  | .fflags => v &&& 0x1f
  | .frm => v &&& 0x7
  | .fcsr => v &&& 0xff
  | .ftran => v &&& 0x7f
  | .dcsr => (legalDcsr q.privLvl (v.setWidth 32)).setWidth 64
  | .tselect | .tdata1 | .tdata2 | .tdata3 | .scounteren | .mcounteren => 0
  | .misa => pkg.isaCode
  | .mstatus => legalStatus pkg v
  | .sstatus =>
      legalStatus pkg (merge pkg.smodeStatusWriteMask q.mstatus v) &&& pkg.smodeStatusReadMask
  | .mie => v &&& mieMask
  | .sie => v &&& q.mideleg
  | .mip => merge supervisorMask q.mip v
  | .sip => merge (mipBit irqSSoft &&& q.mideleg) (q.mip &&& q.mideleg) v
  | .medeleg => v &&& medelegMask
  | .mideleg => v &&& supervisorMask
  | .stvec => v &&& ~~~2
  -- a vectored table is aligned to 64 entries
  | .mtvec => if v.getLsbD 0 then v &&& ~~~0xfe else v &&& ~~~2
  | .sepc | .mepc => v &&& ~~~1
  | .satp =>
      if member v Satp.mode == modeOff || member v Satp.mode == modeSv39 then
        assign v Satp.asid (member v Satp.asid &&& (BitVec.allOnes pkg.asidWidth).setWidth 16)
      else q.satp
  | .dcache | .icache => v &&& 1
  | _ => v

/-- The derived member of the status views. -/
def summary : CsrReg → List (Field 64)
  | .mstatus | .sstatus => [Status.sd]
  | _ => []

/-- Hardware assigns the register in this cycle, or shows the external interrupt in it. -/
def driven (pkg : Pkg) (q : State) (i : Input) : CsrReg → Bool
  | .mstatus | .sstatus => pkg.fpPresent && i.dirtyFpState
  | .fflags | .fcsr => i.csrWriteFflags
  | .mtvec => q.mtvecRstLoad
  | .mip => i.irq1 || (externalInterrupts i q).mip != q.mip
  | .sip => i.irq1
  | _ => false

/-- The masks of the supervisor view: what can be written can be read and is not hardwired. -/
structure StatusView (pkg : Pkg) : Prop extends SupervisorView pkg where
  uie : member pkg.smodeStatusWriteMask Status.uie = 0#1
  upie : member pkg.smodeStatusWriteMask Status.upie = 0#1
  within : pkg.smodeStatusWriteMask &&& ~~~pkg.smodeStatusReadMask = 0

/-- A legal state whose delegation register and hardwired members of `mstatus` are legal too. -/
structure Lawful (pkg : Pkg) (q : State) : Prop extends Kept q where
  uie : member q.mstatus Status.uie = 0#1
  upie : member q.mstatus Status.upie = 0#1
  noFp : pkg.fpPresent = false → member q.mstatus Status.fs = off
  medeleg : q.medeleg &&& ~~~medelegMask = 0

section Quiet

variable (pkg : Pkg) (q : State) (i : Input)

/-- The registers before traps, debug entry and returns. -/
def settled : State := externalInterrupts i (status pkg q i (written pkg q i))

/-- Without a trap only debug entry follows the write case. -/
theorem next_of_access (noTrap : i.ex.valid = false) (access : csrRead i.csrOp = true) :
    next pkg q i =
      { translation q (debugEntry pkg q i (settled pkg q i)) with wfi := waits q i } := by
  have noReturn : mret i = false ∧ sret i = false ∧ dret i = false := by
    simp only [csrRead, csrWe, Bool.or_eq_true, beq_iff_eq] at access
    unfold mret sret dret
    rcases access with ((op | op) | op) | op <;> rw [op] <;> exact ⟨rfl, rfl, rfl⟩
  have quiet : takesTrap q i = false := by
    rw [takesTrap, noTrap, Bool.and_false]
  have unchanged : ∀ d, xret q i d = d := by
    intro d
    simp only [xret, noReturn.1, noReturn.2.1, noReturn.2.2, Bool.false_eq_true, ↓reduceIte]
  have calm : ∀ d, trapEntry pkg q i d = d := by
    intro d
    rw [trapEntry, quiet, if_neg Bool.false_ne_true]
  unfold next settled
  simp only [unchanged, calm]

/-- Debug entry touches no register but its own. -/
theorem debugEntry_registers (d : State) :
    ∃ mode pc control,
      debugEntry pkg q i d = { d with debugMode := mode, dpc := pc, dcsr := control } ∧
      (q.debugMode = true → pc = d.dpc ∧ control = d.dcsr) := by
  unfold debugEntry
  cases q.debugMode with
  | true => exact ⟨_, _, _, rfl, fun _ => ⟨rfl, rfl⟩⟩
  | false =>
      cases isBreakpoint i <;> cases debugRequested i <;> cases stepped q i <;>
        exact ⟨_, _, _, rfl, fun inside => absurd inside Bool.false_ne_true⟩

theorem readReg_next (noTrap : i.ex.valid = false) (access : csrRead i.csrOp = true) (j : Input)
    (r : CsrReg) (inDebug : r = .dcsr ∨ r = .dpc → q.debugMode = true) (other : r ≠ .satp) :
    readReg pkg (next pkg q i) j r = readReg pkg (settled pkg q i) j r := by
  obtain ⟨mode, pc, control, same, kept⟩ := debugEntry_registers pkg q i (settled pkg q i)
  rw [next_of_access pkg q i noTrap access, same]
  cases r with
  | dcsr =>
      exact congrArg (fun c : BitVec 32 => some (c.setWidth 64)) (kept (inDebug (Or.inl rfl))).2
  | dpc => exact congrArg some (kept (inDebug (Or.inr rfl))).1
  | satp => exact absurd rfl other
  | _ => rfl

end Quiet

section Values

variable (v : BitVec 64)

/-- A masked value whose mask is described bit by bit. -/
theorem eq_and_of_bits (x mask : BitVec 64) (bits : Nat → Bool)
    (is : ∀ i < 64, mask.getLsbD i = bits i)
    (same : ∀ i < 64, x.getLsbD i = (bits i && v.getLsbD i)) : x = v &&& mask := by
  apply BitVec.eq_of_getLsbD_eq
  intro i small
  rw [BitVec.getLsbD_and, is i small, same i small, Bool.and_comm]

theorem setWidth_eq_and (n : Nat) (mask : BitVec 64)
    (is : ∀ i < 64, mask.getLsbD i = decide (i < n)) :
    (v.setWidth n).setWidth 64 = v &&& mask := by
  apply eq_and_of_bits v _ _ _ is
  intro i small
  rw [BitVec.getLsbD_setWidth, BitVec.getLsbD_setWidth, decide_eq_true small, Bool.true_and]

theorem fcsr_eq (x : BitVec 32) :
    let y := assign (assign x Fcsr.fflags (v.setWidth 5)) Fcsr.frm (v.extractLsb' 5 3)
    (member y Fcsr.frm ++ member y Fcsr.fflags).setWidth 64 = v &&& 0xff := by
  dsimp only
  rw [member_assign_self, member_assign_of_disjoint _ _ _ _ (by decide), member_assign_self]
  apply eq_and_of_bits v _ _ (fun i => decide (i < 8)) (by decide)
  intro i small
  simp only [BitVec.getLsbD_append, BitVec.getLsbD_extractLsb', BitVec.getLsbD_setWidth]
  grind

theorem tvecOf_eq : tvecOf v = v &&& ~~~2 := by
  apply eq_and_of_bits v _ _ (fun i => decide (i ≠ 1)) (by decide)
  intro i small
  simp only [tvecOf, BitVec.getLsbD_append, BitVec.getLsbD_extractLsb']
  grind

theorem epcOf_eq : epcOf v = v &&& ~~~1 := by
  apply eq_and_of_bits v _ _ (fun i => decide (i ≠ 0)) (by decide)
  intro i small
  simp only [epcOf, BitVec.getLsbD_append, BitVec.getLsbD_extractLsb']
  grind

theorem mtvecOf_eq : mtvecOf v = if v.getLsbD 0 then v &&& ~~~0xfe else v &&& ~~~2 := by
  unfold mtvecOf
  split
  · apply eq_and_of_bits v _ _ (fun i => decide (i = 0 ∨ 8 ≤ i)) (by decide)
    intro i small
    simp only [BitVec.getLsbD_append, BitVec.getLsbD_extractLsb']
    grind
  · exact tvecOf_eq v

theorem enable_eq : (v.extractLsb' 0 1).setWidth 64 = v &&& 1 := by
  apply eq_and_of_bits v _ _ (fun i => decide (i < 1)) (by decide)
  intro i small
  simp only [BitVec.getLsbD_extractLsb', BitVec.getLsbD_setWidth]
  grind

/-- What the enable register shows through the delegation. -/
theorem sie_eq (delegated old : BitVec 64) : merge delegated old v &&& delegated = v &&& delegated := by
  apply BitVec.eq_of_getLsbD_eq
  intro i small
  simp only [BitVec.getLsbD_and, Rtl.getLsbD_merge]
  grind

end Values

section Status

variable (pkg : Pkg) (q : State)

theorem agree_hardwireFs {x y : BitVec 64} {fields : List (Field 64)}
    (agree : AgreeOutside fields x y) :
    AgreeOutside fields (hardwireFs pkg x) (hardwireFs pkg y) := by
  unfold hardwireFs
  split
  · exact agree
  · exact agree.assign_both _ _

/-- A written `mstatus` is legal but for its summary. -/
theorem mstatus_agrees (w : BitVec 64) :
    AgreeOutside [Status.sd]
      (assign (assign (writeMstatus pkg q w) Status.sxl xlen64) Status.uxl xlen64)
      (legalStatus pkg w) := by
  have listed : Status.sd ∈ [Status.sd] := List.mem_singleton_self _
  have start : AgreeOutside [Status.sd] (assign w Status.sd (sdOf q)) w :=
    (AgreeOutside.refl _ w).assign listed _
  have body := (agree_hardwireFs pkg (start.assign_both Status.xs off)).assign_both Status.upie 0#1
  have widths := ((body.assign_both Status.uie 0#1).assign_both Status.sxl xlen64).assign_both
    Status.uxl xlen64
  exact (widths.symm.assign listed _).symm

/-- A written `sstatus` leaves a legal `mstatus` but for its summary. -/
theorem sstatus_agrees (w : BitVec 64) (view : StatusView pkg) (lawful : Lawful pkg q) :
    AgreeOutside [Status.sd]
      (assign (assign (writeSstatus pkg q w) Status.sxl xlen64) Status.uxl xlen64)
      (legalStatus pkg (merge pkg.smodeStatusWriteMask q.mstatus w)) := by
  have listed : Status.sd ∈ [Status.sd] := List.mem_singleton_self _
  have clear : ∀ g : Field 64, member pkg.smodeStatusWriteMask g = 0#g.len →
      member (merge pkg.smodeStatusWriteMask q.mstatus w) g = member q.mstatus g :=
    fun g none => Rtl.member_merge_of_clear _ _ _ _ none
  unfold writeSstatus
  have xs := (clear Status.xs view.xs).trans lawful.xs
  have upie := (clear Status.upie view.upie).trans lawful.upie
  have uie := (clear Status.uie view.uie).trans lawful.uie
  generalize merge pkg.smodeStatusWriteMask q.mstatus w = m at xs upie uie
  have plain : assign (assign (hardwireFs pkg (assign m Status.xs off)) Status.upie 0#1)
      Status.uie 0#1 = hardwireFs pkg m := by
    rw [assign_of_member m Status.xs off xs]
    have keeps : ∀ g : Field 64, Status.fs.Disjoint g →
        member (hardwireFs pkg m) g = member m g := fun g apart => hardwireFs_member pkg m g apart
    rw [assign_of_member _ Status.upie _ ((keeps _ (by decide)).trans upie),
      assign_of_member _ Status.uie _ ((keeps _ (by decide)).trans uie)]
  have start : AgreeOutside [Status.sd] (assign (hardwireFs pkg m) Status.sd (sdOf q))
      (hardwireFs pkg m) := (AgreeOutside.refl _ _).assign listed _
  have widths := (start.assign_both Status.sxl xlen64).assign_both Status.uxl xlen64
  unfold legalStatus
  dsimp only
  rw [plain]
  exact (widths.symm.assign listed _).symm

end Status

section Reading

variable (pkg : Pkg) (q : State) (i j : Input) (w : BitVec 64)

/-- The registers after the write case of `r`, before debug entry. -/
def storing (r : CsrReg) : State :=
  externalInterrupts i (status pkg q i (writeReg pkg q (counters pkg q i) w (some r)))

/-- A floating-point register stays accessible after it was written. -/
theorem fpOff_storing (r : CsrReg) (fp : isFpReg (some r) = true) (free : fpOff q = false) :
    fpOff (storing pkg q i w r) = false := by
  have marked : (storing pkg q i w r).mstatus =
      markStatus pkg i (writeReg pkg q (counters pkg q i) w (some r)) := rfl
  have writes := writeReg_writes pkg q (counters pkg q i) w (some r)
  have noStatus : some r ≠ some CsrReg.mstatus ∧ some r ≠ some CsrReg.sstatus := by
    constructor
    · intro same
      rw [same] at fp
      exact absurd fp Bool.false_ne_true
    · intro same
      rw [same] at fp
      exact absurd fp Bool.false_ne_true
  have old := writes.mstatus
  rw [if_neg noStatus.1, if_neg noStatus.2, counters_mstatus] at old
  unfold fpOff at free ⊢
  rw [marked, markStatus_fs, old]
  split
  · decide
  · exact free

theorem storing_fcsr (r : CsrReg) (x : BitVec 32)
    (stored : (writeReg pkg q (counters pkg q i) w (some r)).d.fcsr = x) :
    (storing pkg q i w r).fcsr = if i.csrWriteFflags then
      assign x Fcsr.fflags (i.csrWdata.setWidth 5 ||| member q.fcsr Fcsr.fflags) else x := by
  rw [← stored]
  rfl

/-- Accruing flags leaves the other members. -/
theorem storing_fcsr_member (r : CsrReg) (x : BitVec 32)
    (stored : (writeReg pkg q (counters pkg q i) w (some r)).d.fcsr = x) (g : Field 32)
    (apart : Fcsr.fflags.Disjoint g) : member (storing pkg q i w r).fcsr g = member x g := by
  rw [storing_fcsr pkg q i w r x stored]
  split
  · exact member_assign_of_disjoint _ _ _ _ apart
  · rfl

theorem writeFp_fcsr (d : State) (x : BitVec 32) (free : fpOff q = false) :
    (writeFp q d x).d.fcsr = x := by
  rw [writeFp, free, if_neg Bool.false_ne_true]

/-- With steady lines the pending bits take the written value. -/
theorem mip_settles (free : driven pkg q i .mip = false) :
    (storing pkg q i w .mip).mip = merge supervisorMask q.mip w := by
  have steady : (externalInterrupts i q).mip = q.mip := by
    simp only [driven, Bool.or_eq_false_iff, bne_eq_false_iff_eq] at free
    exact free.2
  have shape : ∀ m : BitVec 64, (externalInterrupts i { q with mip := m }).mip =
      assign (assign (assign m Mip.meip (BitVec.ofBool i.irq0)) Mip.msip (BitVec.ofBool i.ipi))
        Mip.mtip (BitVec.ofBool i.timeIrq) := fun _ => rfl
  have lines := (shape q.mip).symm.trans steady
  have meip : member q.mip Mip.meip = BitVec.ofBool i.irq0 := by
    rw [← lines, member_assign_of_disjoint _ _ _ _ (by decide),
      member_assign_of_disjoint _ _ _ _ (by decide), member_assign_self]
  have msip : member q.mip Mip.msip = BitVec.ofBool i.ipi := by
    rw [← lines, member_assign_of_disjoint _ _ _ _ (by decide), member_assign_self]
  have mtip : member q.mip Mip.mtip = BitVec.ofBool i.timeIrq := by
    rw [← lines, member_assign_self]
  have outside : ∀ g : Field 64, member supervisorMask g = 0#g.len →
      member (merge supervisorMask q.mip w) g = member q.mip g :=
    fun g none => Rtl.member_merge_of_clear _ _ _ _ none
  show assign (assign (assign (merge supervisorMask q.mip w) Mip.meip (BitVec.ofBool i.irq0))
    Mip.msip (BitVec.ofBool i.ipi)) Mip.mtip (BitVec.ofBool i.timeIrq) = _
  rw [assign_of_member _ Mip.meip _ ((outside _ (by decide)).trans meip),
    assign_of_member _ Mip.msip _ ((outside _ (by decide)).trans msip),
    assign_of_member _ Mip.mtip _ ((outside _ (by decide)).trans mtip)]

/-- The machine lines never show in the supervisor view. -/
theorem sip_settles (masked : q.mideleg &&& ~~~supervisorMask = 0) :
    (storing pkg q i w .sip).mip &&& q.mideleg =
      merge (mipBit irqSSoft &&& q.mideleg) (q.mip &&& q.mideleg) w := by
  show assign (assign (assign (merge (mipBit irqSSoft &&& q.mideleg) q.mip w) Mip.meip
    (BitVec.ofBool i.irq0)) Mip.msip (BitVec.ofBool i.ipi)) Mip.mtip (BitVec.ofBool i.timeIrq)
      &&& q.mideleg = _
  apply BitVec.eq_of_getLsbD_eq
  intro k small
  have machine : ∀ k < 64, supervisorMask.getLsbD k = true →
      ¬ Mip.meip.Has k ∧ ¬ Mip.msip.Has k ∧ ¬ Mip.mtip.Has k := by decide
  have bit := congrArg (fun b => b.getLsbD k)
    (show q.mideleg &&& ~~~supervisorMask = 0#64 from masked)
  simp only [BitVec.getLsbD_and, BitVec.getLsbD_not, small, decide_true, Bool.true_and,
    BitVec.getLsbD_zero] at bit
  rw [BitVec.getLsbD_and, Rtl.getLsbD_merge, BitVec.getLsbD_and, BitVec.getLsbD_and]
  cases delegated : q.mideleg.getLsbD k with
  | false => simp only [Bool.and_false, Bool.false_eq_true, ↓reduceIte]
  | true =>
      rw [delegated, Bool.true_and, Bool.not_eq_false'] at bit
      obtain ⟨meip, msip, mtip⟩ := machine k small bit
      rw [Rtl.getLsbD_assign, if_neg mtip, Rtl.getLsbD_assign, if_neg msip, Rtl.getLsbD_assign,
        if_neg meip, Rtl.getLsbD_merge, BitVec.getLsbD_and, delegated, Bool.and_true,
        Bool.and_true, Bool.and_true]

/-- A write of a status view marks nothing. -/
theorem storing_mstatus (r : CsrReg) (clean : isFpReg (some r) = false)
    (free : (pkg.fpPresent && i.dirtyFpState) = false) :
    (storing pkg q i w r).mstatus =
      assign (assign (writeReg pkg q (counters pkg q i) w (some r)).d.mstatus Status.sxl xlen64)
        Status.uxl xlen64 := by
  have writes := writeReg_writes pkg q (counters pkg q i) w (some r)
  show markStatus pkg i (writeReg pkg q (counters pkg q i) w (some r)) = _
  unfold markStatus
  dsimp only
  rw [writes.dirtyFpStateCsr, clean, Bool.false_and, Bool.false_or, free,
    if_neg Bool.false_ne_true]

theorem counters_mideleg : (counters pkg q i).mideleg = q.mideleg := by
  simp only [counters, apply_ite State.mideleg, ite_self]

/-- What a register shows after the write case. -/
theorem storing_reads (view : StatusView pkg) (lawful : Lawful pkg q) (r : CsrReg)
    (software : readWrite r = true) (counted : r ≠ .minstret) (other : r ≠ .satp)
    (granted : refuses q (some r) = false) (free : driven pkg q i r = false) :
    ∃ x, readReg pkg (storing pkg q i w r) j r = some x ∧
      AgreeOutside (summary r) x (legalise pkg q r w) := by
  have shows : isFpReg (some r) = true → ¬ fpOff (storing pkg q i w r) = true := by
    intro fp
    have accessible : fpOff q = false := by
      revert fp granted
      cases r <;> intro granted fp <;>
        first | exact granted | exact absurd fp Bool.false_ne_true
    rw [fpOff_storing pkg q i w r fp accessible]
    exact Bool.false_ne_true
  cases r with
  | fflags =>
      have stored := storing_fcsr pkg q i w .fflags _ (writeFp_fcsr q _ _ granted)
      rw [show i.csrWriteFflags = false from free, if_neg Bool.false_ne_true] at stored
      refine ⟨_, if_neg (shows rfl), AgreeOutside.of_eq ?_⟩
      rw [stored, member_assign_self]
      exact setWidth_eq_and w 5 _ (by decide)
  | frm =>
      have stored := storing_fcsr_member pkg q i w .frm _ (writeFp_fcsr q _ _ granted) Fcsr.frm
        (by decide)
      refine ⟨_, if_neg (shows rfl), AgreeOutside.of_eq ?_⟩
      rw [stored, member_assign_self]
      exact setWidth_eq_and w 3 _ (by decide)
  | fcsr =>
      have stored := storing_fcsr pkg q i w .fcsr _ (writeFp_fcsr q _ _ granted)
      rw [show i.csrWriteFflags = false from free, if_neg Bool.false_ne_true] at stored
      refine ⟨_, if_neg (shows rfl), AgreeOutside.of_eq ?_⟩
      rw [stored]
      exact fcsr_eq w q.fcsr
  | ftran =>
      have stored := storing_fcsr_member pkg q i w .ftran _ (writeFp_fcsr q _ _ granted) Fcsr.fprec
        (by decide)
      refine ⟨_, if_neg (shows rfl), AgreeOutside.of_eq ?_⟩
      rw [stored, member_assign_self]
      exact setWidth_eq_and w 7 _ (by decide)
  | dpc | dscratch0 | dscratch1 | sscratch | scause | stval | mscratch | mcause | mtval | mcycle =>
      exact ⟨w, rfl, AgreeOutside.refl _ _⟩
  | tselect | tdata1 | tdata2 | tdata3 | scounteren | mcounteren | misa =>
      exact ⟨_, rfl, AgreeOutside.refl _ _⟩
  | dcsr => exact ⟨_, rfl, AgreeOutside.refl _ _⟩
  | stvec => exact ⟨_, rfl, AgreeOutside.of_eq (tvecOf_eq w)⟩
  | mtvec => exact ⟨_, rfl, AgreeOutside.of_eq (mtvecOf_eq w)⟩
  | sepc | mepc => exact ⟨_, rfl, AgreeOutside.of_eq (epcOf_eq w)⟩
  | dcache | icache => exact ⟨_, rfl, AgreeOutside.of_eq (enable_eq w)⟩
  | medeleg => exact ⟨_, rfl, AgreeOutside.of_eq (Rtl.merge_of_masked _ _ _ lawful.medeleg)⟩
  | mideleg => exact ⟨_, rfl, AgreeOutside.of_eq (Rtl.merge_of_masked _ _ _ lawful.mideleg)⟩
  | mie => exact ⟨_, rfl, AgreeOutside.of_eq (Rtl.merge_of_masked _ _ _ lawful.mie)⟩
  | sie =>
      refine ⟨_, rfl, AgreeOutside.of_eq ?_⟩
      show merge q.mideleg q.mie w &&& (counters pkg q i).mideleg = w &&& q.mideleg
      rw [counters_mideleg]
      exact sie_eq w q.mideleg q.mie
  | mip => exact ⟨_, rfl, AgreeOutside.of_eq (mip_settles pkg q i w free)⟩
  | sip =>
      refine ⟨_, rfl, AgreeOutside.of_eq ?_⟩
      show (storing pkg q i w .sip).mip &&& (counters pkg q i).mideleg = _
      rw [counters_mideleg]
      exact sip_settles pkg q i w lawful.mideleg
  | mstatus =>
      refine ⟨_, rfl, ?_⟩
      rw [storing_mstatus pkg q i w .mstatus rfl free]
      exact mstatus_agrees pkg q w
  | sstatus =>
      refine ⟨_, rfl, ?_⟩
      rw [storing_mstatus pkg q i w .sstatus rfl free]
      exact (sstatus_agrees pkg q w view lawful).and _
  | satp => exact absurd rfl other
  | minstret => exact absurd rfl counted
  | _ => exact absurd software Bool.false_ne_true

end Reading

end Ariane.CsrRegfile
