import Ariane.LegalState

set_option autoImplicit false

/- A trap and the matching return: the level, the interrupt enable and the program counter
before the trap come back. -/
namespace Ariane.CsrRegfile

open Rtl (Machine Field member assign merge member_assign_self member_assign_of_disjoint)
open Riscv

/-- A cycle in which no CSR instruction, return or trap happens. -/
structure Quiet (i : Input) : Prop where
  write : csrWe i.csrOp = false
  noReturn : mret i = false ∧ sret i = false ∧ dret i = false
  noTrap : i.ex.valid = false

/-- The return that matches the trap of cycle `i`. -/
def Matches (q : State) (i j : Input) : Prop :=
  if trapsToS q i then sret j = true else mret j = true

/-- The registers in which a trap leaves its traces. -/
structure SameTrapState (q r : State) : Prop where
  privLvl : r.privLvl = q.privLvl
  sie : member r.mstatus Status.sie = member q.mstatus Status.sie
  spie : member r.mstatus Status.spie = member q.mstatus Status.spie
  spp : member r.mstatus Status.spp = member q.mstatus Status.spp
  mie : member r.mstatus Status.mie = member q.mstatus Status.mie
  mpie : member r.mstatus Status.mpie = member q.mstatus Status.mpie
  mpp : member r.mstatus Status.mpp = member q.mstatus Status.mpp
  mepc : r.mepc = q.mepc
  sepc : r.sepc = q.sepc

theorem SameTrapState.refl (q : State) : SameTrapState q q :=
  ⟨rfl, rfl, rfl, rfl, rfl, rfl, rfl, rfl, rfl⟩

theorem SameTrapState.trans {q r s : State} (first : SameTrapState q r)
    (second : SameTrapState r s) : SameTrapState q s where
  privLvl := second.privLvl.trans first.privLvl
  sie := second.sie.trans first.sie
  spie := second.spie.trans first.spie
  spp := second.spp.trans first.spp
  mie := second.mie.trans first.mie
  mpie := second.mpie.trans first.mpie
  mpp := second.mpp.trans first.mpp
  mepc := second.mepc.trans first.mepc
  sepc := second.sepc.trans first.sepc

section Quiet

variable (pkg : Pkg) (q : State) (i : Input)

theorem trapStatus_quiet (m : BitVec 64) (noTrap : i.ex.valid = false) :
    trapStatus q i m = m := by
  simp only [trapStatus, trapsToS, trapsToM, takesTrap, noTrap, Bool.and_false, Bool.false_and,
    Bool.false_eq_true, ↓reduceIte]

/-- A field outside the widths and `fs` is what the write case left. -/
theorem next_member_quiet (g : Field 64) (quiet : Quiet i) (sxl : Status.sxl.Disjoint g)
    (uxl : Status.uxl.Disjoint g) (fs : Status.fs.Disjoint g) :
    member (next pkg q i).mstatus g = member q.mstatus g := by
  rw [next_mstatus, xretStatus_quiet _ _ _ quiet.noReturn.1 quiet.noReturn.2.1,
    trapStatus_quiet _ _ _ quiet.noTrap, markStatus_member _ _ _ _ sxl uxl fs,
    written_idle _ _ _ quiet.write]
  exact congrArg (fun m => member m g) (counters_mstatus pkg q i)

theorem next_quiet (quiet : Quiet i) : SameTrapState q (next pkg q i) := by
  have field : ∀ g : Field 64, Status.sxl.Disjoint g → Status.uxl.Disjoint g →
      Status.fs.Disjoint g → member (next pkg q i).mstatus g = member q.mstatus g :=
    fun g => next_member_quiet pkg q i g quiet
  refine ⟨?_, field _ (by decide) (by decide) (by decide), field _ (by decide) (by decide)
    (by decide), field _ (by decide) (by decide) (by decide), field _ (by decide) (by decide)
    (by decide), field _ (by decide) (by decide) (by decide), field _ (by decide) (by decide)
    (by decide), ?_, ?_⟩
  · rw [next_privLvl, written_privLvl]
    simp only [quiet.noReturn, takesTrap, quiet.noTrap, Bool.and_false, Bool.false_eq_true,
      ↓reduceIte]
  · rw [next_mepc, written_idle _ _ _ quiet.write]
    simp only [trapsToM, takesTrap, quiet.noTrap, Bool.and_false, Bool.false_and,
      Bool.false_eq_true, ↓reduceIte, counters_mepc]
  · rw [next_sepc, written_idle _ _ _ quiet.write]
    simp only [trapsToS, takesTrap, quiet.noTrap, Bool.and_false, Bool.false_and,
      Bool.false_eq_true, ↓reduceIte, counters_sepc]

end Quiet

/-- Nothing that a trap left changes before the return. -/
theorem run_quiet (pkg : Pkg) (q : State) (rest : List Input) (quiet : ∀ i ∈ rest, Quiet i) :
    SameTrapState q ((machine pkg).runFrom q rest) := by
  have legal : (machine pkg).Legal (fun _ i => True ∧ Quiet i) q rest :=
    Machine.Legal.and_inputs ((machine pkg).legal_true q rest) quiet
  have step : ∀ r i, SameTrapState q r → True ∧ Quiet i → SameTrapState q (next pkg r i) := by
    intro r i same contract
    exact same.trans (next_quiet pkg r i contract.2)
  exact (machine pkg).runFrom_invariant step (SameTrapState.refl q) legal

section Trap

variable (pkg : Pkg) (q : State) (i : Input)

/-- The interrupt enable of the supervisor level that the instruction leaves. -/
def sieWritten : BitVec 1 :=
  if writesTo pkg i .mstatus then member (csrWdata pkg q i) Status.sie
  else if writesTo pkg i .sstatus then
    member (merge pkg.smodeStatusWriteMask q.mstatus (csrWdata pkg q i)) Status.sie
  else member q.mstatus Status.sie

theorem written_sie : member (written pkg q i).d.mstatus Status.sie = sieWritten pkg q i := by
  unfold sieWritten
  rw [written_mstatus]
  split
  · simp (disch := decide) only [writeMstatus, member_assign_of_disjoint, hardwireFs_member]
  · split
    · simp (disch := decide) only [writeSstatus, member_assign_of_disjoint, hardwireFs_member]
    · rfl

/-- What a trap to the supervisor level saves. -/
theorem next_trapS (trap : trapsToS q i = true) :
    (next pkg q i).privLvl = privLvlS ∧ (next pkg q i).sepc = i.pc ∧
      member (next pkg q i).mstatus Status.spie = member q.mstatus Status.sie ∧
      member (next pkg q i).mstatus Status.spp = q.privLvl.extractLsb' 0 1 := by
  have both := trap
  simp only [trapsToS, Bool.and_eq_true, beq_iff_eq] at both
  obtain ⟨takes, target⟩ := both
  have valid : i.ex.valid = true := by
    simp only [takesTrap, Bool.and_eq_true] at takes
    exact takes.2
  have noReturn := noReturn_of_trap i valid
  refine ⟨?_, ?_, ?_, ?_⟩
  · rw [next_privLvl]
    simp only [noReturn, takes, target, Bool.false_eq_true, ↓reduceIte]
  · rw [next_sepc, if_pos trap]
  · rw [next_mstatus, xretStatus_quiet _ _ _ noReturn.1 noReturn.2.1, trapStatus, if_pos trap,
      trapStatusS]
    simp (disch := decide) only [member_assign_of_disjoint, member_assign_self]
  · rw [next_mstatus, xretStatus_quiet _ _ _ noReturn.1 noReturn.2.1, trapStatus, if_pos trap,
      trapStatusS, member_assign_self]

/-- What a trap to the machine level saves; it leaves the supervisor enable alone. -/
theorem next_trapM (takes : takesTrap q i = true) (trap : trapsToS q i = false) :
    (next pkg q i).privLvl = privLvlM ∧ (next pkg q i).mepc = i.pc ∧
      member (next pkg q i).mstatus Status.mpie = member q.mstatus Status.mie ∧
      member (next pkg q i).mstatus Status.mpp = q.privLvl ∧
      member (next pkg q i).mstatus Status.sie = sieWritten pkg q i := by
  have valid : i.ex.valid = true := by
    simp only [takesTrap, Bool.and_eq_true] at takes
    exact takes.2
  have noReturn := noReturn_of_trap i valid
  have other : trapToPrivLvl q i ≠ privLvlS := by
    simpa only [trapsToS, takes, Bool.true_and, beq_eq_false_iff_ne] using trap
  have machineLevel : trapToPrivLvl q i = privLvlM := by
    unfold trapToPrivLvl at other ⊢
    split
    · split
      · rfl
      · rename_i delegated lower
        rw [if_pos delegated, if_neg lower] at other
        exact absurd rfl other
    · rfl
  have toM : trapsToM q i = true := by
    simp only [trapsToM, takes, bne_iff_ne.mpr other, Bool.and_self]
  refine ⟨?_, ?_, ?_, ?_, ?_⟩
  · rw [next_privLvl]
    simp only [noReturn, takes, machineLevel, Bool.false_eq_true, ↓reduceIte]
  · rw [next_mepc, if_pos toM]
  · rw [next_mstatus, xretStatus_quiet _ _ _ noReturn.1 noReturn.2.1, trapStatus, trap, toM,
      trapStatusM]
    simp (disch := decide) only [Bool.false_eq_true, ↓reduceIte, member_assign_of_disjoint,
      member_assign_self]
  · rw [next_mstatus, xretStatus_quiet _ _ _ noReturn.1 noReturn.2.1, trapStatus, trap, toM,
      trapStatusM]
    simp only [Bool.false_eq_true, ↓reduceIte, member_assign_self]
  · rw [next_mstatus, xretStatus_quiet _ _ _ noReturn.1 noReturn.2.1, trapStatus, trap, toM,
      trapStatusM]
    simp (disch := decide) only [Bool.false_eq_true, ↓reduceIte, member_assign_of_disjoint,
      markStatus_member, written_sie]

end Trap

section Return

variable (pkg : Pkg) (r : State) (j : Input)

theorem next_mret (returns : mret j = true) :
    (next pkg r j).privLvl = member r.mstatus Status.mpp ∧
      member (next pkg r j).mstatus Status.mie = member r.mstatus Status.mpie ∧
      member (next pkg r j).mstatus Status.sie = member r.mstatus Status.sie ∧
      epcO r j = r.mepc := by
  have parts := returns
  simp only [mret, Bool.and_eq_true, beq_iff_eq, Bool.not_eq_true'] at parts
  obtain ⟨op, noTrap⟩ := parts
  have noSret : sret j = false := by simp only [sret, op, noTrap]; decide
  have noDret : dret j = false := by simp only [dret, op, noTrap]; decide
  have noWrite : csrWe j.csrOp = false := by rw [op]; decide
  refine ⟨?_, ?_, ?_, ?_⟩
  · rw [next_privLvl]
    simp only [noDret, noSret, returns, Bool.false_eq_true, ↓reduceIte]
  · rw [next_mstatus, xretStatus]
    simp (disch := decide) only [noSret, returns, Bool.false_eq_true, ↓reduceIte, mretStatus,
      member_assign_of_disjoint, member_assign_self]
  · rw [next_mstatus, xretStatus, trapStatus_quiet _ _ _ noTrap]
    simp (disch := decide) only [noSret, returns, Bool.false_eq_true, ↓reduceIte, mretStatus,
      member_assign_of_disjoint, markStatus_member, written_idle _ _ _ noWrite, counters_mstatus]
  · simp only [epcO, noDret, noSret, Bool.false_eq_true, ↓reduceIte]

theorem next_sret (returns : sret j = true) :
    (next pkg r j).privLvl = (member r.mstatus Status.spp).setWidth 2 ∧
      member (next pkg r j).mstatus Status.sie = member r.mstatus Status.spie ∧
      epcO r j = r.sepc := by
  have parts := returns
  simp only [sret, Bool.and_eq_true, beq_iff_eq, Bool.not_eq_true'] at parts
  obtain ⟨op, noTrap⟩ := parts
  have noDret : dret j = false := by simp only [dret, op, noTrap]; decide
  refine ⟨?_, ?_, ?_⟩
  · rw [next_privLvl]
    simp only [noDret, returns, Bool.false_eq_true, ↓reduceIte]
  · rw [next_mstatus, xretStatus]
    simp (disch := decide) only [returns, ↓reduceIte, sretStatus, member_assign_of_disjoint,
      member_assign_self]
  · simp only [epcO, noDret, returns, Bool.false_eq_true, ↓reduceIte]

end Return

/-- A trap in cycle `i` of state `q`, quiet cycles `rest` and the return in cycle `j`. -/
structure Inverse (pkg : Pkg) (q : State) (i : Input) (rest : List Input) (j : Input) :
    Prop where
  target : (next pkg q i).privLvl =
    if delegated q i.ex.cause = true ∧ (q.privLvl = privLvlS ∨ q.privLvl = privLvlU) then
      privLvlS
    else privLvlM
  ordered : q.privLvl.toNat ≤ (next pkg q i).privLvl.toNat
  level : ((machine pkg).runFrom q (i :: (rest ++ [j]))).privLvl = q.privLvl
  enableM : q.privLvl = privLvlM →
    member ((machine pkg).runFrom q (i :: (rest ++ [j]))).mstatus Status.mie =
      member q.mstatus Status.mie
  enableS : q.privLvl = privLvlS →
    member ((machine pkg).runFrom q (i :: (rest ++ [j]))).mstatus Status.sie =
      member q.mstatus Status.sie
  epc : epcO ((machine pkg).runFrom q (i :: rest)) j = i.pc

/-- The trap is not delegated from the unimplemented level, and a trap from the supervisor to
the machine level does not meet a write that changes the supervisor's interrupt enable. -/
structure Invertible (pkg : Pkg) (q : State) (i : Input) : Prop where
  level : q.privLvl = 0b10#2 → delegated q i.ex.cause = false
  enable : q.privLvl = privLvlS → delegated q i.ex.cause = false →
    sieWritten pkg q i = member q.mstatus Status.sie

section Inverse

variable (pkg : Pkg) (q : State) (i j : Input) (rest : List Input)

theorem runFrom_return :
    (machine pkg).runFrom q (i :: (rest ++ [j])) =
      next pkg ((machine pkg).runFrom (next pkg q i) rest) j := by
  rw [Machine.runFrom_cons, Machine.runFrom_append]
  rfl

theorem trapsToS_iff (outside : q.debugMode = false) (valid : i.ex.valid = true) :
    trapsToS q i = true ↔ delegated q i.ex.cause = true ∧ q.privLvl ≠ privLvlM := by
  have takes : takesTrap q i = true := by
    simp only [takesTrap, outside, valid, Bool.not_false, Bool.and_self]
  have lower : privLvlS ≠ privLvlM := by decide
  simp only [trapsToS, takes, Bool.true_and, beq_iff_eq, trapToPrivLvl, privLvlO, outside,
    Bool.false_eq_true, ↓reduceIte]
  cases delegated q i.ex.cause with
  | false => simp only [Bool.false_eq_true, ↓reduceIte, false_and, iff_false]
             exact fun same => lower same.symm
  | true =>
      by_cases level : q.privLvl = privLvlM
      · simp only [level, ↓reduceIte, ne_eq, not_true_eq_false, and_false, iff_false]
        exact fun same => lower same.symm
      · simp only [level, ↓reduceIte, ne_eq, not_false_eq_true, and_self]

/-- A delegated trap from the unimplemented level returns to user level. -/
theorem inverse_of_trapS (quiet : ∀ c ∈ rest, Quiet c) (trap : trapsToS q i = true)
    (returns : sret j = true) (outside : q.debugMode = false) (valid : i.ex.valid = true) :
    Inverse pkg q i rest j ↔ q.privLvl ≠ 0b10#2 := by
  obtain ⟨deleg, notM⟩ := (trapsToS_iff q i outside valid).mp trap
  obtain ⟨toS, sepc, spie, spp⟩ := next_trapS pkg q i trap
  have same := run_quiet pkg (next pkg q i) rest quiet
  obtain ⟨level, sie, epc⟩ :=
    next_sret pkg ((machine pkg).runFrom (next pkg q i) rest) j returns
  have back : (next pkg ((machine pkg).runFrom (next pkg q i) rest) j).privLvl =
      (q.privLvl.extractLsb' 0 1).setWidth 2 := by
    rw [level, same.spp, spp]
  constructor
  · intro inverse unimplemented
    have kept := inverse.level
    rw [runFrom_return, back, unimplemented] at kept
    exact absurd kept (by decide)
  · intro implemented
    have two : q.privLvl = privLvlS ∨ q.privLvl = privLvlU := by
      rcases implemented_of_ne _ implemented with user | supervisor | machineLevel
      · exact Or.inr user
      · exact Or.inl supervisor
      · exact absurd machineLevel notM
    refine ⟨?_, ?_, ?_, ?_, ?_, ?_⟩
    · rw [toS, if_pos ⟨deleg, two⟩]
    · rw [toS]
      rcases two with supervisor | user
      · exact Nat.le_of_eq (by rw [supervisor])
      · rw [user]
        decide
    · rw [runFrom_return, back]
      rcases two with supervisor | user
      · rw [supervisor]
        decide
      · rw [user]
        decide
    · exact fun machineLevel => absurd machineLevel notM
    · intro _
      rw [runFrom_return, sie, same.spie, spie]
    · rw [Machine.runFrom_cons]
      change epcO ((machine pkg).runFrom (next pkg q i) rest) j = i.pc
      rw [epc, same.sepc, sepc]

theorem inverse_of_trapM (quiet : ∀ c ∈ rest, Quiet c) (takes : takesTrap q i = true)
    (trap : trapsToS q i = false) (returns : mret j = true) (outside : q.debugMode = false)
    (valid : i.ex.valid = true) :
    Inverse pkg q i rest j ↔
      (q.privLvl = privLvlS → sieWritten pkg q i = member q.mstatus Status.sie) := by
  have target := trapsToS_iff q i outside valid
  rw [trap, Bool.false_eq_true, false_iff] at target
  obtain ⟨toM, mepc, mpie, mpp, sie⟩ := next_trapM pkg q i takes trap
  have same := run_quiet pkg (next pkg q i) rest quiet
  obtain ⟨level, mie, keptSie, epc⟩ :=
    next_mret pkg ((machine pkg).runFrom (next pkg q i) rest) j returns
  have enable : member (next pkg ((machine pkg).runFrom (next pkg q i) rest) j).mstatus
      Status.sie = sieWritten pkg q i := by
    rw [keptSie, same.sie, sie]
  constructor
  · intro inverse supervisor
    have kept := inverse.enableS supervisor
    rwa [runFrom_return, enable] at kept
  · intro keeps
    refine ⟨?_, ?_, ?_, ?_, ?_, ?_⟩
    · rw [toM, if_neg]
      intro both
      apply target
      refine ⟨both.1, ?_⟩
      rcases both.2 with supervisor | user
      · rw [supervisor]
        decide
      · rw [user]
        decide
    · rw [toM]
      have top : ∀ p : PrivLvl, p.toNat ≤ privLvlM.toNat := by decide
      exact top _
    · rw [runFrom_return, level, same.mpp, mpp]
    · intro _
      rw [runFrom_return, mie, same.mpie, mpie]
    · intro supervisor
      rw [runFrom_return, enable, keeps supervisor]
    · rw [Machine.runFrom_cons]
      change epcO ((machine pkg).runFrom (next pkg q i) rest) j = i.pc
      rw [epc, same.mepc, mepc]

end Inverse

/-- A trap outside debug mode and the matching return are inverse, and the trap never lowers
the level, exactly when the trap is invertible. -/
theorem trap_return_inverse (pkg : Pkg) (q : State) (i j : Input) (rest : List Input)
    (outside : q.debugMode = false) (valid : i.ex.valid = true) (quiet : ∀ c ∈ rest, Quiet c)
    (returns : Matches q i j) : Inverse pkg q i rest j ↔ Invertible pkg q i := by
  have target := trapsToS_iff q i outside valid
  unfold Matches at returns
  cases trap : trapsToS q i with
  | true =>
      obtain ⟨deleg, _⟩ := target.mp trap
      rw [if_pos trap] at returns
      rw [inverse_of_trapS pkg q i j rest quiet trap returns outside valid]
      constructor
      · intro implemented
        refine ⟨fun level => absurd level implemented, ?_⟩
        intro _ direct
        rw [deleg] at direct
        exact absurd direct (by decide)
      · intro invertible level
        have direct := invertible.level level
        rw [deleg] at direct
        exact absurd direct (by decide)
  | false =>
      have takes : takesTrap q i = true := by
        simp only [takesTrap, outside, valid, Bool.not_false, Bool.and_self]
      rw [trap, Bool.false_eq_true, false_iff] at target
      have direct : ∀ p, q.privLvl = p → p ≠ privLvlM → delegated q i.ex.cause = false := by
        intro p level lower
        rw [← Bool.not_eq_true]
        exact fun deleg => target ⟨deleg, level ▸ lower⟩
      rw [trap, if_neg (by decide)] at returns
      rw [inverse_of_trapM pkg q i j rest quiet takes trap returns outside valid]
      constructor
      · intro keeps
        exact ⟨fun level => direct _ level (by decide), fun supervisor _ => keeps supervisor⟩
      · intro invertible supervisor
        exact invertible.enable supervisor (direct _ supervisor (by decide))

/-- A user-level environment call at `pc`. -/
def userCall (pc : BitVec 64) : Input :=
  { ex := { cause := envCallUmode, valid := true }, pc := pc }

theorem trap_return_inverse_userCall :
    Inverse .rv64ima { privLvl := privLvlU } (userCall 0x80#64) [{}] { csrOp := .mret } ↔
      Invertible .rv64ima { privLvl := privLvlU } (userCall 0x80#64) :=
  trap_return_inverse .rv64ima { privLvl := privLvlU } (userCall 0x80#64) { csrOp := .mret } [{}]
    rfl rfl (by
      intro c member
      rw [List.mem_singleton.mp member]
      exact ⟨rfl, ⟨rfl, rfl, rfl⟩, rfl⟩)
    (by
      rw [Matches, if_neg (by decide)]
      rfl)

/-- Delegate user-level environment calls, put `2'b10` into `mpp` and return to it. -/
def enterUnimplemented : List Input :=
  [{ csrOp := .csrWrite, csrAddr := 0x302#12, csrWdata := 0x100#64 },
    { csrOp := .csrWrite, csrAddr := 0x300#12, csrWdata := 0x1000#64 }, { csrOp := .mret }]

/-- Enter the supervisor level with interrupts enabled. -/
def enterSupervisor : List Input :=
  [{ csrOp := .csrWrite, csrAddr := 0x300#12, csrWdata := 0x802#64 }, { csrOp := .mret }]

/-- An illegal `mstatus` access of the supervisor that clears `sie`, as it traps. -/
def clearSie : Input :=
  { csrOp := .csrClear, csrAddr := 0x300#12, csrWdata := 2#64
    ex := { cause := illegalInstr, valid := true }, pc := 0x80#64 }

/-- From the unimplemented level a delegated trap lowers the level and returns to user level; a
trap of the supervisor to the machine level loses the interrupt enable to the write of the
instruction that trapped. -/
theorem trap_return_differs :
    (let q := (machine .rv64ima).run enterUnimplemented
     let back := (machine .rv64ima).runFrom q [userCall 0x80#64, { csrOp := .sret }]
     q.privLvl = 0b10#2 ∧ (next .rv64ima q (userCall 0x80#64)).privLvl = privLvlS ∧
      back.privLvl = privLvlU) ∧
    (let q := (machine .rv64ima).run enterSupervisor
     let back := (machine .rv64ima).runFrom q [clearSie, { csrOp := .mret }]
     q.privLvl = privLvlS ∧ (csrException .rv64ima q clearSie).valid = true ∧
      member q.mstatus Status.sie = 1#1 ∧ back.privLvl = privLvlS ∧
      member back.mstatus Status.sie = 0#1) := by
  decide

end Ariane.CsrRegfile
