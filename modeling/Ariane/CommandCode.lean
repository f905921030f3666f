import Ariane.CommandRuns

set_option autoImplicit false

/- What the generated programs transfer and what they leave as it was: `abstract_cmd_rom` and the
debug ROM together. -/
namespace Ariane.DebugHart

open Dm (Fixed State MemInput Instructions aarsize transfer isWrite postexec)

variable {φ : Type} {nrHarts : Nat}

section Purpose

variable (C : Core φ) (command : BitVec 32) (h : Hart φ) (data : BitVec 64)

/-- The value of the named register, unless the access is illegal. -/
def Hart.readNamed : Option (BitVec 64) :=
  match named command with
  | .csr number => C.readCsr h.csrs number
  | .gpr r => some (h.reg r)
  | .fpr r => if C.floatLegal h.csrs (aarsize command) then some (h.f r) else none

/-- The registers after a write of the data to the named one. -/
def Hart.writeNamed : Option (Hart φ) :=
  match named command with
  | .csr number =>
      (C.writeCsr h.csrs number (signed (aarsize command) data)).map fun csrs =>
        { h with csrs := csrs }
  | .gpr r => some (h.setReg r (signed (aarsize command) data))
  | .fpr r =>
      if C.floatLegal h.csrs (aarsize command) then
        some
          { h with
            f := Function.update h.f r (boxed (aarsize command) data)
            csrs := C.floatWritten h.csrs }
      else none

/-- What a command is for: registers and data after the transfer, none if the access traps. -/
def outcome : Option (Hart φ × BitVec 64) :=
  if transfer command then
    if isWrite command then (h.writeNamed C command data).map fun h' => (h', data)
    else (h.readNamed C command).map fun value => (h, merged (aarsize command) value data)
  else some (h, data)

/-- The registers apart from `dscratch0`, in which the debug ROM saves `s0`. -/
structure SameRegisters (h h' : Hart φ) : Prop where
  x : h'.x = h.x
  f : h'.f = h.f
  csrs : h'.csrs = h.csrs

/-- The code did what the command is for, if the hart stops with these registers and data: the
transfer and nothing else, nothing at all if the access trapped, and the program buffer next just
when it is to be executed. -/
structure Faithful (h' : Hart φ) (data' : BitVec 64) : Prop where
  registers : SameRegisters ((outcome C command h data).getD (h, data)).1 h'
  transferred : data' = ((outcome C command h data).getD (h, data)).2
  buffer : h'.pc = progBuf ↔ postexec command = true ∧ (outcome C command h data).isSome = true
  saved : h'.pc = entryLoop → h'.dscratch0 = h'.x s0

/-- The commands for which the code does so: one with nothing to do is not among them, nor is a
write to a CSR that traps, unless the data are what `s0` holds. -/
structure Kept : Prop where
  work : transfer command = true ∨ postexec command = true
  s0 : transfer command = true → isWrite command = true → ∀ number,
    named command = .csr number →
      C.writeCsr h.csrs number (signed (aarsize command) data) = none →
        h.x s0 = signed (aarsize command) data

end Purpose
section Program

variable {C : Core φ} {F : Fixed} {command : BitVec 32} {h : Hart φ} {data : BitVec 64}

section Verdict

variable {h' : Hart φ} {data' : BitVec 64}

/-- The last state after a completed transfer. -/
theorem faithful_final {h1 : Hart φ} {data1 : BitVec 64}
    (done : outcome C command h data = some (h1, data1)) (same : SameRegisters h1 h') :
    Faithful C command h data (final command h') data1 where
  registers := by
    rw [done, Option.getD_some, final]
    split <;> exact ⟨same.x, same.f, same.csrs⟩
  transferred := by rw [done, Option.getD_some]
  buffer := by
    rw [done, final]
    cases postexec command with
    | true => exact ⟨fun _ => ⟨rfl, rfl⟩, fun _ => rfl⟩
    | false =>
        have apart : entryLoop ≠ progBuf := by decide
        exact ⟨fun here => absurd here apart, fun both => (Bool.false_ne_true both.1).elim⟩
  saved := by
    rw [final]
    cases postexec command with
    | true =>
        have apart : progBuf ≠ entryLoop := by decide
        exact fun here => absurd here apart
    | false => exact fun _ => rfl

/-- The last state after a trap. It is as it should be just when the registers are. -/
theorem faithful_trapped (traps : outcome C command h data = none) (f : h'.f = h.f)
    (csrs : h'.csrs = h.csrs) :
    Faithful C command h data { h' with pc := entryLoop, dscratch0 := h'.x s0 } data ↔
      h'.x = h.x := by
  have apart : entryLoop ≠ progBuf := by decide
  constructor
  · intro faithful
    have same := faithful.registers.x
    rw [traps] at same
    exact same
  · intro x
    constructor
    · rw [traps]
      exact ⟨x, f, csrs⟩
    · rw [traps]
      rfl
    · rw [traps]
      exact ⟨fun here => absurd here apart, fun both => (Bool.false_ne_true both.2).elim⟩
    · exact fun _ => rfl

/-- A transfer that is not a refused write to a CSR is among the commands of the condition. -/
theorem kept_of_legal (moves : transfer command = true)
    (legal : isWrite command = true → ∀ number, named command = .csr number →
      C.writeCsr h.csrs number (signed (aarsize command) data) ≠ none) :
    Kept C command h data where
  work := .inl moves
  s0 _ writes number name refused := absurd refused (legal writes number name)

/-- From the first word of the program the hart stops, as the condition says. -/
def Ends (C : Core φ) (F : Fixed) (nrHarts : Nat) (command : BitVec 32) (h : Hart φ)
    (data : BitVec 64) : Prop :=
  ∃ h' data', Reaches C F nrHarts command { h with pc := slot 0 } data h' data' ∧
    (h'.pc = progBuf ∨ h'.pc = entryLoop) ∧
    (Faithful C command h data h' data' ↔ Kept C command h data)

theorem ends_done (h' : Hart φ) {h1 : Hart φ} {data1 : BitVec 64}
    (moves : transfer command = true)
    (done : outcome C command h data = some (h1, data1)) (same : SameRegisters h1 h')
    (legal : isWrite command = true → ∀ number, named command = .csr number →
      C.writeCsr h.csrs number (signed (aarsize command) data) ≠ none)
    (reaches : Reaches C F nrHarts command { h with pc := slot 0 } data (final command h') data1) :
    Ends C F nrHarts command h data := by
  refine ⟨_, _, reaches, ?_, ?_⟩
  · rw [final]
    split
    · exact .inl rfl
    · exact .inr rfl
  · exact ⟨fun _ => kept_of_legal moves legal, fun _ => faithful_final done same⟩

theorem ends_trapped (h' : Hart φ) (traps : outcome C command h data = none) (f : h'.f = h.f)
    (csrs : h'.csrs = h.csrs) (verdict : h'.x = h.x ↔ Kept C command h data)
    (reaches : Reaches C F nrHarts command { h with pc := slot 0 } data
      { h' with pc := entryLoop, dscratch0 := h'.x s0 } data) :
    Ends C F nrHarts command h data :=
  ⟨_, _, reaches, .inr rfl, (faithful_trapped traps f csrs).trans verdict⟩

end Verdict

theorem outcome_write (C : Core φ) (h : Hart φ) (data : BitVec 64)
    (moves : transfer command = true)
    (writes : isWrite command = true) :
    outcome C command h data = (h.writeNamed C command data).map fun h' => (h', data) := by
  rw [outcome, if_pos moves, if_pos writes]

theorem outcome_read (C : Core φ) (h : Hart φ) (data : BitVec 64)
    (moves : transfer command = true)
    (reads : isWrite command = false) :
    outcome C command h data =
      (h.readNamed C command).map fun value => (h, merged (aarsize command) value data) := by
  rw [outcome, if_pos moves, reads, if_neg Bool.false_ne_true]

section Ending

variable (encodes : Encodes F.instructions) (accepted : Accepted command)
  (moves : transfer command = true)

include encodes accepted moves

theorem write_ends (nrHarts : Nat) (writes : isWrite command = true) :
    Ends C F nrHarts command h data := by
  have result := outcome_write C h data moves writes
  cases name : named command with
  | gpr r =>
      rw [Hart.writeNamed, name] at result
      exact ends_done _ moves result ⟨rfl, rfl, rfl⟩ (by simp [name])
        (reaches_gpr_written encodes accepted moves h name writes)
  | fpr r =>
      rw [Hart.writeNamed, name] at result
      cases legal : C.floatLegal h.csrs (aarsize command) with
      | true =>
          rw [legal] at result
          exact ends_done _ moves result ⟨rfl, rfl, rfl⟩ (by simp [name])
            (reaches_fpr_written encodes accepted moves h name writes legal)
      | false =>
          rw [legal] at result
          have kept : Kept C command h data := kept_of_legal moves (by simp [name])
          exact ends_trapped h result rfl rfl ⟨fun _ => kept, fun _ => rfl⟩
            (reaches_fpr_refused encodes accepted moves h name legal)
  | csr number =>
      rw [Hart.writeNamed, name] at result
      cases legal : C.writeCsr h.csrs number (signed (aarsize command) data) with
      | some csrs =>
          simp only [legal] at result
          exact ends_done { h with csrs := csrs, dscratch0 := h.x s0 } moves result ⟨rfl, rfl, rfl⟩
            (by
              intro _ other same
              rw [name] at same
              cases same
              simp [legal])
            (reaches_csr_written encodes accepted moves h name writes legal)
      | none =>
          simp only [legal] at result
          apply ends_trapped
            { h with x := Function.update h.x s0 (signed (aarsize command) data) } result rfl rfl _
            (reaches_csr_refused encodes accepted moves h name writes legal)
          show Function.update h.x s0 (signed (aarsize command) data) = h.x ↔ _
          rw [Function.update_eq_self_iff]
          constructor
          · intro same
            refine ⟨.inl moves, fun _ _ other named' _ => same.symm⟩
          · intro kept
            exact (kept.s0 moves writes number name legal).symm

theorem read_ends (nrHarts : Nat) (reads : isWrite command = false) :
    Ends C F nrHarts command h data := by
  have result := outcome_read C h data moves reads
  have noWrite : isWrite command = true → ∀ number, named command = .csr number →
      C.writeCsr h.csrs number (signed (aarsize command) data) ≠ none := by
    rw [reads]
    exact fun high => (Bool.false_ne_true high).elim
  have kept : Kept C command h data := kept_of_legal moves noWrite
  cases name : named command with
  | gpr r =>
      rw [Hart.readNamed, name] at result
      exact ends_done h moves result ⟨rfl, rfl, rfl⟩ noWrite
        (reaches_gpr_read encodes accepted moves h name reads)
  | fpr r =>
      rw [Hart.readNamed, name] at result
      cases legal : C.floatLegal h.csrs (aarsize command) with
      | true =>
          rw [legal] at result
          exact ends_done h moves result ⟨rfl, rfl, rfl⟩ noWrite
            (reaches_fpr_read encodes accepted moves h name reads legal)
      | false =>
          rw [legal] at result
          exact ends_trapped h result rfl rfl ⟨fun _ => kept, fun _ => rfl⟩
            (reaches_fpr_refused encodes accepted moves h name legal)
  | csr number =>
      rw [Hart.readNamed, name] at result
      cases legal : C.readCsr h.csrs number with
      | some value =>
          simp only [legal] at result
          exact ends_done { h with dscratch0 := h.x s0 } moves result ⟨rfl, rfl, rfl⟩ noWrite
            (reaches_csr_read encodes accepted moves h name reads legal)
      | none =>
          simp only [legal] at result
          exact ends_trapped h result rfl rfl ⟨fun _ => kept, fun _ => rfl⟩
            (reaches_csr_unread encodes accepted moves h name reads legal)

end Ending

end Program

theorem reg_zero_add (h : Hart φ) (offset : BitVec 12) :
    h.reg 0 + offset.signExtend 64 = offset.signExtend 64 := by
  rw [reg_zero]
  exact BitVec.zero_add _

/-- Without a transfer the hart goes to the program buffer at once. -/
theorem reaches_buffer (C : Core φ) {F : Fixed} (encodes : Encodes F.instructions) (nrHarts : Nat)
    {command : BitVec 32} (nothing : transfer command = false) (h : Hart φ) (data : BitVec 64) :
    Reaches C F nrHarts command { h with pc := whereTo } data { h with pc := progBuf } data := by
  apply Reaches.pure whereTo rfl (by decide) (i := .jalr 0 0 Dm.progBufBase)
  · intro dm running
    rw [fetched_whereTo running, nothing, if_neg Bool.false_ne_true, encodes.jalr]
  · intro dm
    rw [execute, setReg_zero, reg_zero_add]
    rfl

theorem reaches_program (C : Core φ) {F : Fixed} (encodes : Encodes F.instructions)
    (nrHarts : Nat) {command : BitVec 32} (moves : transfer command = true) (h : Hart φ)
    (data : BitVec 64) :
    Reaches C F nrHarts command { h with pc := whereTo } data { h with pc := slot 0 } data := by
  apply Reaches.pure whereTo rfl (by decide) (i := .jalr 0 0 Dm.abstractCmdBase)
  · intro dm running
    rw [fetched_whereTo running, moves, if_pos rfl, encodes.jalr]
  · intro dm
    rw [execute, setReg_zero, reg_zero_add]
    rfl

/-- For every accepted command, all registers and all data the hart comes to the program buffer or
is parked, and the generated code has done what the command is for exactly under the condition. -/
theorem code_faithful_iff (C : Core φ) (F : Fixed) (encodes : Encodes F.instructions)
    {command : BitVec 32} (accepted : Accepted command) (h : Hart φ) (start : h.pc = whereTo)
    (dm : State nrHarts) (running : Running command dm) :
    ∃ n h' dm', runs C F n (h, dm) = some (h', dm') ∧
      (Faithful C command h dm.csrs.data h' dm'.csrs.data ↔ Kept C command h dm.csrs.data) := by
  have ends : ∃ h' data', Reaches C F nrHarts command h dm.csrs.data h' data' ∧
      (h'.pc = progBuf ∨ h'.pc = entryLoop) ∧
      (Faithful C command h dm.csrs.data h' data' ↔ Kept C command h dm.csrs.data) := by
    have here : { h with pc := whereTo } = h := by rw [← start]
    cases moves : transfer command with
    | true =>
        have first := reaches_program C encodes nrHarts moves h dm.csrs.data
        rw [here] at first
        have rest : Ends C F nrHarts command h dm.csrs.data := by
          cases direction : isWrite command with
          | true => exact write_ends encodes accepted moves nrHarts direction
          | false => exact read_ends encodes accepted moves nrHarts direction
        obtain ⟨h', data', reaches, stops, verdict⟩ := rest
        exact ⟨h', data', first.trans reaches, stops, verdict⟩
    | false =>
        have jump := reaches_buffer C encodes nrHarts moves h dm.csrs.data
        rw [here] at jump
        refine ⟨_, _, jump, .inl rfl, ?_⟩
        have done : outcome C command h dm.csrs.data = some (h, dm.csrs.data) := by
          rw [outcome, moves, if_neg Bool.false_ne_true]
        constructor
        · intro faithful
          refine ⟨.inr (faithful.buffer.mp rfl).1, ?_⟩
          rw [moves]
          exact fun high => (Bool.false_ne_true high).elim
        · intro kept
          have executes : postexec command = true := by
            rcases kept.work with high | executes
            · rw [moves] at high
              cases high
            · exact executes
          have stop : Faithful C command h dm.csrs.data (final command h) dm.csrs.data :=
            faithful_final done ⟨rfl, rfl, rfl⟩
          rw [final, executes, if_pos rfl] at stop
          exact stop
  obtain ⟨h', data', reaches, stops, verdict⟩ := ends
  obtain ⟨⟨last, dm'⟩, leads, same, -, kept⟩ := reaches (h, dm) ⟨rfl, running, rfl⟩
  have stop : stopped (last, dm') = true := by
    rw [stopped, show last = h' from same]
    rcases stops with here | here <;> rw [here] <;> decide
  obtain ⟨n, reached⟩ := leads.runs stop
  refine ⟨n, last, dm', reached, ?_⟩
  rw [show last = h' from same, kept]
  exact verdict

/-- A hart with one CSR, `mscratch`, and no floating point registers. -/
def plainCore : Core (BitVec 64) where
  readCsr value number := if number = 0x340 then some value else none
  writeCsr _ number value := if number = 0x340 then some value else none
  floatLegal _ _ := false
  floatWritten value := value

def plainHart : Hart (BitVec 64) where
  pc := whereTo
  x _ := 1
  f _ := 0
  dscratch0 := 1
  csrs := 0

/-- The debug module of one hart that executes a command with 5 in its data registers. -/
def executing (command : BitVec 32) : State 1 where
  csrs := { dmcontrol := { dmactive := true }, command := command, data := 5 }
  mem := { state := .cmdExecuting }

theorem executing_running (command : BitVec 32) : Running command (executing command) :=
  ⟨rfl, rfl, rfl⟩

/-- The data are written to `mscratch`. -/
theorem code_faithful_mscratch :
    ∃ n h' dm', runs plainCore Dm.fixed n (plainHart, executing 0x00330340) = some (h', dm') ∧
      (Faithful plainCore 0x00330340 plainHart 5 h' dm'.csrs.data ↔
        Kept plainCore 0x00330340 plainHart 5) :=
  code_faithful_iff plainCore Dm.fixed encodes_riscv
    ⟨by decide, by decide, by decide, by decide⟩ plainHart rfl (executing 0x00330340)
    (executing_running _)

theorem runs_stopped {φ : Type} {nrHarts : Nat} {C : Core φ} {F : Fixed}
    {σ : Hart φ × State nrHarts} (stop : stopped σ = true) (n : Nat) :
    runs C F n σ = some σ := by
  cases n <;> rw [runs, if_pos stop]

/-- There is only one stop. -/
theorem runs_unique {φ : Type} {nrHarts : Nat} {C : Core φ} {F : Fixed} {n m : Nat}
    {σ τ υ : Hart φ × State nrHarts} (first : runs C F n σ = some τ)
    (second : runs C F m σ = some υ) : τ = υ := by
  induction n generalizing m σ with
  | zero =>
      cases stop : stopped σ with
      | false =>
          rw [runs, stop, if_neg Bool.false_ne_true] at first
          cases first
      | true =>
          rw [runs_stopped stop] at first second
          exact Option.some.inj (first.symm.trans second)
  | succ n ih =>
      cases stop : stopped σ with
      | false =>
          cases m with
          | zero =>
              rw [runs, stop, if_neg Bool.false_ne_true] at second
              cases second
          | succ m =>
              rw [runs, stop, if_neg Bool.false_ne_true] at first second
              exact ih first second
      | true =>
          rw [runs_stopped stop] at first second
          exact Option.some.inj (first.symm.trans second)

/-- A write to `pmpcfg0`, which the CSR file does not have, leaves the data in `s0`. -/
theorem s0_lost :
    ¬ ∀ (φ : Type) (C : Core φ) (F : Fixed) (nrHarts : Nat) (command : BitVec 32) (h : Hart φ)
      (dm : State nrHarts), Encodes F.instructions → Accepted command → h.pc = whereTo →
        Running command dm → ∃ n h' dm', runs C F n (h, dm) = some (h', dm') ∧
          Faithful C command h dm.csrs.data h' dm'.csrs.data := by
  intro always
  obtain ⟨n, h', dm', reached, faithful⟩ := always _ plainCore Dm.fixed 1 0x003303a0 plainHart
    (executing 0x003303a0) encodes_riscv ⟨by decide, by decide, by decide, by decide⟩ rfl
    (executing_running _)
  have lost : ((runs plainCore Dm.fixed 10 (plainHart, executing 0x003303a0)).map
      fun σ => σ.1.x s0) = some 5 := by decide
  cases stop : runs plainCore Dm.fixed 10 (plainHart, executing 0x003303a0) with
  | none =>
      rw [stop] at lost
      cases lost
  | some σ =>
      rw [stop, runs_unique stop reached] at lost
      have value : h'.x s0 = 5 := Option.some.inj lost
      have kept := congrFun faithful.registers.x s0
      rw [value] at kept
      exact absurd kept (by decide)

end Ariane.DebugHart
