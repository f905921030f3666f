import Ariane.LegalValues

set_option autoImplicit false

/- Reading what a CSR instruction wrote: every register but `minstret` obeys, and a write of
the value just read leaves the state as the read does. -/
namespace Ariane.CsrRegfile

open Rtl (Machine Field member assign merge AgreeOutside member_assign_self
  member_assign_of_disjoint assign_of_member)
open Riscv

/-- The instruction combines its operand with the value it finds. -/
def operand (i : Input) (old : BitVec 64) : BitVec 64 :=
  match i.csrOp with
  | .csrSet => old ||| i.csrWdata
  | .csrClear => old &&& ~~~i.csrWdata
  | _ => i.csrWdata

/-- The instruction accesses register `r` without a fault, and hardware leaves `r` alone. -/
structure Executes (pkg : Pkg) (q : State) (i : Input) (r : CsrReg) : Prop where
  item : decode pkg i.csrAddr = some r
  noTrap : i.ex.valid = false
  legal : accessIllegal pkg q i = false
  free : driven pkg q i r = false

/-- A later read of the register. -/
structure Reads (pkg : Pkg) (j : Input) (r : CsrReg) : Prop where
  item : decode pkg j.csrAddr = some r
  read : csrRead j.csrOp = true
  shown : r = .mip ∨ r = .sip → j.irq1 = false

/-- The state after a write of the value just read, next to the state `d` after a mere read:
a counter keeps what was written, and the floating-point registers mark `fs`. -/
def writtenBack (pkg : Pkg) (q : State) (r : CsrReg) (d : State) : State :=
  match r with
  | .mcycle => { d with cycle := q.cycle }
  | .fflags | .frm | .fcsr | .ftran =>
      { d with mstatus := if pkg.fpPresent then assign d.mstatus Status.fs dirty else d.mstatus }
  | _ => d

section Law

variable {pkg : Pkg} {q : State} {i : Input} {r : CsrReg}

theorem Executes.granted (exec : Executes pkg q i r) (write : csrWe i.csrOp = true) :
    refuses q (some r) = false := by
  have legal := exec.legal
  unfold accessIllegal at legal
  rw [Bool.or_eq_false_iff, Bool.or_eq_false_iff, written_updateAccessException, write,
    Bool.true_and, exec.item] at legal
  exact legal.1.2

theorem Executes.inDebug (exec : Executes pkg q i r) (write : csrWe i.csrOp = true)
    (debug : r = .dcsr ∨ r = .dpc) : q.debugMode = true := by
  have legal := exec.legal
  unfold accessIllegal at legal
  rw [Bool.or_eq_false_iff, Bool.or_eq_false_iff, write, Bool.true_or, Bool.true_and,
    Bool.or_eq_false_iff] at legal
  have inside := legal.1.1.2
  have address := address_of_decode pkg i.csrAddr r exec.item
  unfold debugViolation at inside
  rw [← address] at inside
  rcases debug with rfl | rfl <;> simpa [CsrReg.address] using inside

/-- The value that the instruction finds in the register. -/
theorem Executes.found (exec : Executes pkg q i r) (write : csrWe i.csrOp = true) :
    ∃ old, readReg pkg q i r = some old ∧ csrWdata pkg q i = operand i old := by
  have legal := exec.legal
  unfold accessIllegal at legal
  rw [Bool.or_eq_false_iff] at legal
  have reading : csrRead i.csrOp = true := by
    rw [csrRead, write, Bool.true_or]
  have some := legal.2
  unfold readAccessException at some
  rw [reading, Bool.true_and, readAddr, exec.item, Option.bind_some] at some
  rw [Option.isNone_eq_false_iff] at some
  obtain ⟨old, found⟩ := Option.isSome_iff_exists.mp some
  refine ⟨old, found, ?_⟩
  have data : csrRdata pkg q i = old := by
    rw [csrRdata, if_pos reading, readAddr, exec.item, Option.bind_some, found, Option.getD_some]
  unfold csrWdata operand
  rw [data]
  cases i.csrOp with
  | csrSet => exact BitVec.or_comm _ _
  | csrClear => exact BitVec.and_comm _ _
  | _ => rfl

theorem settled_eq (exec : Executes pkg q i r) (write : csrWe i.csrOp = true) :
    settled pkg q i = storing pkg q i (csrWdata pkg q i) r := by
  rw [settled, written, if_pos write, exec.item]
  rfl

theorem writeSatp_eq (w : BitVec 64) : writeSatp pkg q.satp w = legalise pkg q .satp w := by
  unfold writeSatp legalise
  dsimp only
  rw [member_assign_of_disjoint _ _ _ _ (by decide)]

/-- A write to `satp` does not close the register. -/
theorem Executes.satp_stays (exec : Executes pkg q i .satp) (write : csrWe i.csrOp = true) :
    satpTrapped (next pkg q i) = false := by
  have reading : csrRead i.csrOp = true := by
    rw [csrRead, write, Bool.true_or]
  have granted : satpTrapped q = false := exec.granted write
  have layers := next_of_access pkg q i exec.noTrap reading
  obtain ⟨mode, pc, control, same, kept⟩ := debugEntry_registers pkg q i (settled pkg q i)
  rw [same] at layers
  have tvm : member (next pkg q i).mstatus Status.tvm = member q.mstatus Status.tvm := by
    rw [layers]
    show member (markStatus pkg i (written pkg q i)) Status.tvm = _
    rw [markStatus_member _ _ _ _ (by decide) (by decide) (by decide), written_mstatus]
    unfold writesTo
    rw [exec.item, write]
    rfl
  have level : (next pkg q i).privLvl = q.privLvl := by
    rw [layers]
    exact written_privLvl pkg q i
  unfold satpTrapped privLvlO at granted ⊢
  rw [tvm, level]
  cases inside : (next pkg q i).debugMode with
  | true => rfl
  | false =>
      have outside : q.debugMode = false := by
        rw [next_debugMode, Bool.and_eq_false_iff] at inside
        rcases inside with left | none
        · simp only [csrWe, Bool.or_eq_true, beq_iff_eq] at write
          rcases write with (op | op) | op <;> rw [dret, op] at left <;>
            exact absurd (show true = false from left) Bool.noConfusion
        · exact (Bool.or_eq_false_iff.mp none).1
      rwa [outside] at granted

/-- The law of reading what was written. -/
theorem Executes.reads (exec : Executes pkg q i r) (write : csrWe i.csrOp = true)
    (view : StatusView pkg) (lawful : Lawful pkg q) (software : readWrite r = true)
    (counted : r ≠ .minstret) (j : Input) :
    ∃ x, readReg pkg (next pkg q i) j r = some x ∧
      AgreeOutside (summary r) x (legalise pkg q r (csrWdata pkg q i)) := by
  have reading : csrRead i.csrOp = true := by
    rw [csrRead, write, Bool.true_or]
  by_cases satp : r = .satp
  · subst satp
    have open' := exec.satp_stays write
    refine ⟨(next pkg q i).satp, if_neg (by rw [open']; exact Bool.false_ne_true), ?_⟩
    rw [next_satp, written, if_pos write, exec.item, (writeReg_writes ..).satp,
      if_pos ⟨rfl, exec.granted write⟩, counters_satp, writeSatp_eq]
    exact AgreeOutside.refl _ _
  · rw [readReg_next pkg q i exec.noTrap reading j r (exec.inDebug write) satp,
      settled_eq exec write]
    exact storing_reads pkg q i j _ view lawful r software counted satp (exec.granted write)
      exec.free

/-- The register as the read port shows it. -/
theorem Reads.shows {j : Input} (reads : Reads pkg j r) (x : BitVec 64)
    (found : readReg pkg q j r = some x) : csrRdataO pkg q j = x := by
  have data : csrRdata pkg q j = x := by
    rw [csrRdata, if_pos reads.read, readAddr, reads.item, Option.bind_some, found,
      Option.getD_some]
  unfold csrRdataO
  rw [data, reads.item]
  cases r with
  | mip =>
      rw [reads.shown (Or.inl rfl)]
      exact BitVec.or_zero
  | sip =>
      rw [reads.shown (Or.inr rfl)]
      exact BitVec.or_zero
  | _ => rfl

end Law

section WriteBack

variable (pkg : Pkg) (q : State) (i : Input) (old : BitVec 64)

theorem hardwireFs_eq (m : BitVec 64) (noFp : pkg.fpPresent = false → member m Status.fs = off) :
    hardwireFs pkg m = m := by
  unfold hardwireFs
  split
  · rfl
  · rename_i absent
    exact assign_of_member _ _ _ (noFp (by simpa using absent))

/-- The status views leave a legal `mstatus` as it is. -/
theorem writeMstatus_self (lawful : Lawful pkg q) : writeMstatus pkg q q.mstatus = q.mstatus := by
  unfold writeMstatus
  dsimp only
  rw [assign_of_member _ _ _ (sdOf_eq q lawful.toLegal).symm, assign_of_member _ _ _ lawful.xs,
    hardwireFs_eq pkg _ lawful.noFp, assign_of_member _ _ _ lawful.upie,
    assign_of_member _ _ _ lawful.uie]

theorem writeSstatus_self (lawful : Lawful pkg q) (view : StatusView pkg) :
    writeSstatus pkg q (q.mstatus &&& pkg.smodeStatusReadMask) = q.mstatus := by
  unfold writeSstatus
  rw [Rtl.merge_and_self _ _ _ view.within, hardwireFs_eq pkg _ lawful.noFp,
    assign_of_member _ _ _ (sdOf_eq q lawful.toLegal).symm]

theorem writeSatp_self (own : legalise pkg q .satp q.satp = q.satp) :
    writeSatp pkg q.satp q.satp = q.satp := by
  unfold writeSatp
  unfold legalise at own
  dsimp only at own ⊢
  rw [member_assign_of_disjoint _ _ _ _ (by decide)]
  split
  · rename_i supported
    rw [if_pos supported] at own
    exact own
  · rfl

theorem writeDcsr_self
    (own : legalise pkg q .dcsr (q.dcsr.setWidth 64) = q.dcsr.setWidth 64) :
    writeDcsr q (q.dcsr.setWidth 64) = q.dcsr := by
  have narrow := congrArg (BitVec.setWidth 32) own
  have round : ∀ x : BitVec 32, (x.setWidth 64).setWidth 32 = x := by
    intro x
    rw [BitVec.setWidth_setWidth_of_le _ (by decide), BitVec.setWidth_eq]
  unfold legalise at narrow
  rw [round, round] at narrow
  unfold writeDcsr
  rw [round]
  exact narrow

/-- The members of `fcsr` that `fcsr` shows. -/
theorem fcsr_members (x : BitVec 32) :
    let v : BitVec 64 := (member x Fcsr.frm ++ member x Fcsr.fflags).setWidth 64
    assign (assign x Fcsr.fflags (v.setWidth 5)) Fcsr.frm (v.extractLsb' 5 3) = x := by
  dsimp only
  have flags : ((member x Fcsr.frm ++ member x Fcsr.fflags).setWidth 64).setWidth 5 =
      member x Fcsr.fflags := by
    apply BitVec.eq_of_getLsbD_eq
    intro k small
    simp only [BitVec.getLsbD_setWidth, BitVec.getLsbD_append]
    grind
  have rounding : ((member x Fcsr.frm ++ member x Fcsr.fflags).setWidth 64).extractLsb' 5 3 =
      member x Fcsr.frm := by
    apply BitVec.eq_of_getLsbD_eq
    intro k small
    simp only [BitVec.getLsbD_setWidth, BitVec.getLsbD_append, BitVec.getLsbD_extractLsb']
    grind
  rw [flags, rounding, assign_of_member x Fcsr.fflags _ rfl, assign_of_member x Fcsr.frm _ rfl]

theorem member_round {w : Nat} (x : BitVec w) (g : Field w) (short : g.len ≤ 64) :
    member x g = ((member x g).setWidth 64).setWidth g.len := by
  rw [BitVec.setWidth_setWidth_of_le _ short, BitVec.setWidth_eq]

/-- Counting and the load of `mtvec` are all that happens by itself. -/
theorem counters_shape : ∃ retired cycles, counters pkg q i =
    { q with
      mtvecRstLoad := false
      mtvec := if q.mtvecRstLoad then i.bootAddr + 0x40 else q.mtvec
      instret := retired
      cycle := cycles } := by
  unfold counters
  cases q.debugMode with
  | true => exact ⟨_, _, rfl⟩
  | false => exact ⟨_, _, rfl⟩

/-- A register that takes its own value leaves the counting registers. -/
theorem rewrites (r : CsrReg) (lawful : Lawful pkg q) (view : StatusView pkg)
    (found : readReg pkg q i r = some old) (own : legalise pkg q r old = old)
    (free : driven pkg q i r = false) (counting : r ≠ .mcycle) :
    (writeReg pkg q (counters pkg q i) old (some r)).d = counters pkg q i := by
  obtain ⟨retired, cycles, shape⟩ := counters_shape pkg q i
  have flags : ∀ x, x = q.fcsr →
      (writeFp q (counters pkg q i) x).d = counters pkg q i := by
    intro x same
    rw [same, shape]
    unfold writeFp
    cases fpOff q <;> rfl
  cases r with
  | fflags =>
      obtain ⟨-, ⟨⟩⟩ := Option.ite_none_left_eq_some.mp found
      exact flags _ (assign_of_member _ _ _ (member_round _ Fcsr.fflags (by decide)))
  | frm =>
      obtain ⟨-, ⟨⟩⟩ := Option.ite_none_left_eq_some.mp found
      exact flags _ (assign_of_member _ _ _ (member_round _ Fcsr.frm (by decide)))
  | fcsr =>
      obtain ⟨-, ⟨⟩⟩ := Option.ite_none_left_eq_some.mp found
      exact flags _ (fcsr_members q.fcsr)
  | ftran =>
      obtain ⟨-, ⟨⟩⟩ := Option.ite_none_left_eq_some.mp found
      exact flags _ (assign_of_member _ _ _ (member_round _ Fcsr.fprec (by decide)))
  | satp =>
      obtain ⟨accessible, ⟨⟩⟩ := Option.ite_none_left_eq_some.mp found
      rw [shape, writeReg, if_neg accessible, writeSatp_self pkg q own]
  | mcycle => exact absurd rfl counting
  | tselect | tdata1 | tdata2 | tdata3 | scounteren | mcounteren | misa | minstret => rfl
  | mvendorid | marchid | mimpid | mhartid | cycle | instret | perf => rfl
  | dpc | dscratch0 | dscratch1 | sscratch | scause | stval | mscratch | mcause | mtval =>
      cases found
      rw [shape]
      rfl
  | medeleg | mideleg | mie | mip =>
      cases found
      rw [shape, writeReg, Rtl.merge_self]
  | sie =>
      cases found
      rw [shape, writeReg, Rtl.merge_and_self _ _ _ (BitVec.and_not_self _)]
  | sip =>
      cases found
      have shown : (mipBit irqSSoft &&& q.mideleg) &&& ~~~q.mideleg = 0#64 := by
        rw [BitVec.and_assoc, BitVec.and_not_self]
        exact BitVec.and_zero
      rw [shape, writeReg, Rtl.merge_and_self _ _ _ shown]
  | dcsr =>
      cases found
      rw [shape, writeReg, writeDcsr_self pkg q own]
  | mstatus =>
      cases found
      rw [shape, writeReg, writeMstatus_self pkg q lawful]
  | sstatus =>
      cases found
      rw [shape, writeReg, writeSstatus_self pkg q lawful view]
  | stvec =>
      cases found
      rw [shape, writeReg, (tvecOf_eq q.stvec).trans own]
  | mtvec =>
      cases found
      rw [shape, writeReg, (mtvecOf_eq q.mtvec).trans own, show q.mtvecRstLoad = false from free]
      rfl
  | sepc =>
      cases found
      rw [shape, writeReg, (epcOf_eq q.sepc).trans own]
  | mepc =>
      cases found
      rw [shape, writeReg, (epcOf_eq q.mepc).trans own]
  | dcache =>
      cases found
      rw [shape, writeReg, (enable_eq q.dcache).trans own]
  | icache =>
      cases found
      rw [shape, writeReg, (enable_eq q.icache).trans own]

/-- The registers of a cycle that only reads. -/
def resting : State := externalInterrupts i (status pkg q i { d := counters pkg q i })

/-- A write of the value just read leaves what a read leaves. -/
theorem storing_self (r : CsrReg) (lawful : Lawful pkg q) (view : StatusView pkg)
    (found : readReg pkg q i r = some old) (own : legalise pkg q r old = old)
    (free : driven pkg q i r = false) (granted : refuses q (some r) = false) :
    storing pkg q i old r = writtenBack pkg q r (resting pkg q i) := by
  by_cases counting : r = .mcycle
  · subst counting
    cases found
    rfl
  · have same := rewrites pkg q i old r lawful view found own free counting
    have flag := (writeReg_writes pkg q (counters pkg q i) old (some r)).dirtyFpStateCsr
    by_cases fp : isFpReg (some r) = true
    · have free : fpOff q = false := by
        revert fp granted
        cases r <;> intro granted fp <;>
          first | exact granted | exact absurd fp Bool.false_ne_true
      have effect : writtenBack pkg q r (resting pkg q i) =
          { resting pkg q i with
            mstatus := if pkg.fpPresent then assign (resting pkg q i).mstatus Status.fs dirty
              else (resting pkg q i).mstatus } := by
        revert fp
        cases r <;> intro fp <;> first | rfl | exact absurd fp Bool.false_ne_true
      rw [fp, free] at flag
      rw [effect]
      unfold storing resting status
      rw [same, flag]
      cases pkg.fpPresent with
      | false => rfl
      | true =>
          cases i.dirtyFpState with
          | false => rfl
          | true =>
              have twice : ∀ m, assign m Status.fs dirty =
                  assign (assign m Status.fs dirty) Status.fs dirty :=
                fun m => (assign_of_member _ _ _ (member_assign_self _ _ _)).symm
              exact congrArg (fun m => { resting pkg q i with mstatus := m }) (twice _)
    · rw [Bool.not_eq_true] at fp
      have effect : writtenBack pkg q r (resting pkg q i) = resting pkg q i := by
        revert fp counting
        cases r <;> intro counting fp <;>
          first | rfl | exact absurd rfl counting | exact absurd fp Bool.noConfusion
      rw [fp, Bool.false_and] at flag
      rw [effect]
      unfold storing resting status
      rw [same, flag]

theorem next_of_read (noTrap : i.ex.valid = false) (write : csrWe i.csrOp = true) :
    next pkg q { i with csrOp := .csrRead } =
      { translation q (debugEntry pkg q i (resting pkg q i)) with wfi := waits q i } := by
  have entry : ∀ d, debugEntry pkg q { i with csrOp := .csrRead } d = debugEntry pkg q i d := by
    intro d
    have resumes : steppedPc pkg q { i with csrOp := .csrRead } = steppedPc pkg q i := by
      unfold steppedPc
      rw [noTrap]
      rfl
    unfold debugEntry
    rw [resumes]
    rfl
  have sleeps : waits q { i with csrOp := .csrRead } = waits q i := by
    simp only [csrWe, Bool.or_eq_true, beq_iff_eq] at write
    unfold waits
    rcases write with (op | op) | op <;> rw [op] <;> rfl
  rw [next_of_access pkg q { i with csrOp := .csrRead } noTrap rfl, entry, sleeps]
  rfl

/-- Debug entry and translation do not look at what a write back may change. -/
theorem layers_writtenBack (r : CsrReg) (d : State) :
    ({ translation q (debugEntry pkg q i (writtenBack pkg q r d)) with wfi := waits q i } : State) =
      writtenBack pkg q r
        { translation q (debugEntry pkg q i d) with wfi := waits q i } := by
  have counter : ∀ c : BitVec 64, debugEntry pkg q i { d with cycle := c } =
      { debugEntry pkg q i d with cycle := c } := by
    intro c
    unfold debugEntry
    cases q.debugMode <;> cases isBreakpoint i <;> cases debugRequested i <;>
      cases stepped q i <;> rfl
  have marked : ∀ m : BitVec 64, debugEntry pkg q i { d with mstatus := m } =
      { debugEntry pkg q i d with mstatus := m } := by
    intro m
    unfold debugEntry
    cases q.debugMode <;> cases isBreakpoint i <;> cases debugRequested i <;>
      cases stepped q i <;> rfl
  have kept := debugEntry_mstatus pkg q i d
  cases r with
  | mcycle =>
      show ({ translation q (debugEntry pkg q i { d with cycle := q.cycle }) with
        wfi := waits q i } : State) = _
      rw [counter]
      rfl
  | fflags | frm | fcsr | ftran =>
      show ({ translation q (debugEntry pkg q i { d with
          mstatus := if pkg.fpPresent then assign d.mstatus Status.fs dirty else d.mstatus }) with
        wfi := waits q i } : State) = _
      rw [marked, ← kept]
      rfl
  | _ => rfl

end WriteBack

/-- Every register but `minstret` reads what was written, as far as it is implemented, and
takes its own value without any effect but the marks of a floating-point write and the pause
of a written counter. -/
theorem registers_obey {pkg : Pkg} {q : State} {i : Input} {r : CsrReg} (view : StatusView pkg)
    (lawful : Lawful pkg q) (software : readWrite r = true) (counted : r ≠ .minstret)
    (write : csrWe i.csrOp = true) (exec : Executes pkg q i r) :
    ∃ old, readReg pkg q i r = some old ∧
      (∀ j, Reads pkg j r → AgreeOutside (summary r) (csrRdataO pkg (next pkg q i) j)
        (legalise pkg q r (operand i old))) ∧
      (operand i old = old → legalise pkg q r old = old →
        next pkg q i = writtenBack pkg q r (next pkg q { i with csrOp := .csrRead })) := by
  obtain ⟨old, found, data⟩ := exec.found write
  refine ⟨old, found, ?_, ?_⟩
  · intro j reads
    obtain ⟨x, shown, agree⟩ := exec.reads write view lawful software counted j
    rw [reads.shows x shown, ← data]
    exact agree
  · intro same own
    have reading : csrRead i.csrOp = true := by
      rw [csrRead, write, Bool.true_or]
    rw [next_of_access pkg q i exec.noTrap reading, next_of_read pkg q i exec.noTrap write,
      settled_eq exec write, data, same,
      storing_self pkg q i old r lawful view found own exec.free (exec.granted write),
      layers_writtenBack]

section Runs

variable (pkg : Pkg) (q : State) (i : Input)

theorem written_medeleg : (written pkg q i).d.medeleg =
    if writesTo pkg i .medeleg then merge medelegMask q.medeleg (csrWdata pkg q i)
    else q.medeleg := by
  have counting : (counters pkg q i).medeleg = q.medeleg := by
    simp only [counters, apply_ite State.medeleg, ite_self]
  have item : ∀ d w r, (writeReg pkg q d w r).d.medeleg =
      if r == some .medeleg then merge medelegMask q.medeleg w else d.medeleg := by
    intro d w r
    rcases r with _ | r
    · rfl
    · cases r with
      | fflags | frm | fcsr | ftran => simp only [writeReg, writeFp]; split <;> rfl
      | satp => simp only [writeReg]; split <;> rfl
      | _ => rfl
  unfold written writesTo
  split
  · rename_i write
    rw [item, write, Bool.true_and, counting]
  · rename_i idle
    rw [Bool.not_eq_true] at idle
    rw [idle, Bool.false_and, if_neg Bool.false_ne_true]
    exact counting

theorem next_medeleg : (next pkg q i).medeleg = (written pkg q i).d.medeleg := by
  simp only [next, xret, translation, debugEntry, trapEntry, externalInterrupts, status,
    apply_ite State.medeleg, ite_self]

theorem next_status_clear (g : Field 64) (free : TrapFree g) (sxl : Status.sxl.Disjoint g)
    (uxl : Status.uxl.Disjoint g) (fs : Status.fs.Disjoint g) (sd : Status.sd.Disjoint g)
    (hardwired : ∀ w, member (writeMstatus pkg q w) g = 0#g.len)
    (view : member pkg.smodeStatusWriteMask g = 0#g.len)
    (old : member q.mstatus g = 0#g.len) : member (next pkg q i).mstatus g = 0#g.len := by
  rw [next_mstatus, xretStatus_member _ _ _ _ free, trapStatus_member _ _ _ _ free,
    markStatus_member _ _ _ _ sxl uxl fs, written_mstatus]
  split
  · exact hardwired _
  · split
    · rw [writeSstatus_member pkg q g _ fs sd view, old]
    · exact old

theorem next_lawful (view : StatusView pkg) (lawful : Lawful pkg q)
    (guarded : Guarded pkg q i) : Lawful pkg (next pkg q i) := by
  refine ⟨next_kept pkg q i view.toSupervisorView lawful.toKept guarded, ?_, ?_, ?_, ?_⟩
  · apply next_status_clear pkg q i Status.uie (by decide) (by decide) (by decide) (by decide)
      (by decide) _ view.uie lawful.uie
    intro w
    exact member_assign_self _ _ _
  · apply next_status_clear pkg q i Status.upie (by decide) (by decide) (by decide) (by decide)
      (by decide) _ view.upie lawful.upie
    intro w
    rw [writeMstatus, member_assign_of_disjoint _ _ _ _ (by decide)]
    exact member_assign_self _ _ _
  · intro absent
    have clean : dirties pkg q i = false := by
      rw [dirties, absent, Bool.false_and]
    rw [next_fs, clean, if_neg Bool.false_ne_true, fsWritten, absent]
    split
    · rfl
    · split
      · rfl
      · exact lawful.noFp absent
  · rw [next_medeleg, written_medeleg]
    split
    · exact (Rtl.merge_and_not_self _ _ _).trans lawful.medeleg
    · exact lawful.medeleg

/-- Every guarded run stays in the states that the law is about. -/
theorem lawful_states (inputs : List Input) (view : StatusView pkg)
    (guarded : (machine pkg).Legal (Guarded pkg) reset inputs) :
    Lawful pkg ((machine pkg).run inputs) := by
  have start : Lawful pkg reset := by
    refine ⟨reset_kept, ?_, ?_, fun _ => ?_, ?_⟩ <;> decide
  exact (machine pkg).run_invariant start
    (fun q i lawful step => next_lawful pkg q i view lawful step) guarded

end Runs

/-- Machine level after the first cycle, without floating point. -/
def booted : State where
  mtvecRstLoad := false
  mstatus := 0xa00000000

theorem booted_lawful (pkg : Pkg) : Lawful pkg booted := by
  refine ⟨⟨⟨?_, ?_, ?_, ?_, ?_, ?_, ?_⟩, ?_⟩, ?_, ?_, fun _ => ?_, ?_⟩ <;> decide

theorem registers_obey_mie :
    let i : Input := { csrOp := .csrSet, csrAddr := 0x304#12, csrWdata := 0xffff }
    ∃ old, readReg .rv64ima booted i .mie = some old ∧
      (∀ j, Reads .rv64ima j .mie → AgreeOutside (summary .mie)
        (csrRdataO .rv64ima (next .rv64ima booted i) j)
        (legalise .rv64ima booted .mie (operand i old))) ∧
      (operand i old = old → legalise .rv64ima booted .mie old = old →
        next .rv64ima booted i =
          writtenBack .rv64ima booted .mie (next .rv64ima booted { i with csrOp := .csrRead })) :=
  registers_obey ⟨⟨by decide, by decide⟩, by decide, by decide, by decide⟩ (booted_lawful _) rfl
    (by decide) rfl ⟨by decide, rfl, by decide, rfl⟩

/-- A written `minstret` is lost. A write of the value just read marks the floating-point state,
and `sd` lags behind a written `fs`. -/
theorem writes_that_differ :
    (let i : Input := { csrOp := .csrWrite, csrAddr := 0xb02#12, csrWdata := 5 }
     let j : Input := { csrOp := .csrRead, csrAddr := 0xb02#12 }
     accessIllegal .rv64ima booted i = false ∧
      csrRdataO .rv64ima (next .rv64ima booted i) j = 0) ∧
    (let pkg := { Pkg.rv64ima with fpPresent := true }
     let q := { booted with mstatus := assign booted.mstatus Status.fs 1 }
     let i : Input := { csrOp := .csrWrite, csrAddr := 0x001#12, csrWdata := 0 }
     let j : Input := { csrOp := .csrRead, csrAddr := 0x001#12 }
     accessIllegal pkg q i = false ∧ csrRdataO pkg q j = 0 ∧
      member (next pkg q i).mstatus Status.fs = dirty ∧
      member (next pkg q j).mstatus Status.fs = 1) ∧
    (let pkg := { Pkg.rv64ima with fpPresent := true }
     let i : Input := { csrOp := .csrWrite, csrAddr := 0x300#12, csrWdata := 0x6000 }
     let j : Input := { csrOp := .csrRead, csrAddr := 0x300#12 }
     accessIllegal pkg booted i = false ∧
      csrRdataO pkg (next pkg booted i) j ≠ legalise pkg booted .mstatus 0x6000) := by
  decide

end Ariane.CsrRegfile
