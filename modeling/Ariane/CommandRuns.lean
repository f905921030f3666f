import Ariane.ServedCode

set_option autoImplicit false

/- Runs of the hart through the code that it is served, from the first word of a command to the
program buffer or to the place where it is parked. -/
namespace Ariane.DebugHart

open Dm (Fixed State MemInput aarsize transfer isWrite postexec)

variable {φ : Type} {nrHarts : Nat}

section Runs

variable {C : Core φ} {F : Fixed}

/-- One state of the hart leads to another, and none before it is a stop. -/
inductive Leads (C : Core φ) (F : Fixed) :
    Hart φ × State nrHarts → Hart φ × State nrHarts → Prop
  | refl (σ : Hart φ × State nrHarts) : Leads C F σ σ
  | step {σ τ : Hart φ × State nrHarts} (going : stopped σ = false)
      (rest : Leads C F (step C F σ) τ) : Leads C F σ τ

theorem Leads.trans {σ τ υ : Hart φ × State nrHarts} (first : Leads C F σ τ)
    (second : Leads C F τ υ) : Leads C F σ υ := by
  induction first with
  | refl => exact second
  | step going _ ih => exact .step going (ih second)

theorem Leads.runs {σ τ : Hart φ × State nrHarts} (leads : Leads C F σ τ)
    (stop : stopped τ = true) : ∃ n, runs C F n σ = some τ := by
  induction leads with
  | refl σ => exact ⟨0, if_pos stop⟩
  | step going _ ih =>
      obtain ⟨n, reached⟩ := ih stop
      refine ⟨n + 1, ?_⟩
      rw [DebugHart.runs, going, if_neg Bool.false_ne_true]
      exact reached

/-- The hart and the data registers, during a command. -/
structure At (command : BitVec 32) (h : Hart φ) (data : BitVec 64)
    (σ : Hart φ × State nrHarts) : Prop where
  hart : σ.1 = h
  running : Running command σ.2
  data : σ.2.csrs.data = data

/-- From these registers and data the hart comes to those. -/
def Reaches (C : Core φ) (F : Fixed) (nrHarts : Nat) (command : BitVec 32) (h : Hart φ)
    (data : BitVec 64) (h' : Hart φ) (data' : BitVec 64) : Prop :=
  ∀ σ : Hart φ × State nrHarts, At command h data σ → ∃ τ, Leads C F σ τ ∧ At command h' data' τ

variable {command : BitVec 32} {h h' h'' : Hart φ} {data data' data'' : BitVec 64} {i : Instr}
theorem Reaches.trans (first : Reaches C F nrHarts command h data h' data')
    (second : Reaches C F nrHarts command h' data' h'' data'') :
    Reaches C F nrHarts command h data h'' data'' := by
  intro σ start
  obtain ⟨τ, toMiddle, middle⟩ := first σ start
  obtain ⟨υ, toEnd, done⟩ := second τ middle
  exact ⟨υ, toMiddle.trans toEnd, done⟩

/-- One instruction. -/
theorem Reaches.instr (pc : BitVec 64) (here : h.pc = pc)
    (going : (pc == progBuf || pc == entryLoop) = false)
    (code : ∀ dm : State nrHarts, Running command dm → decode (fetched F dm pc) = i)
    (effect : ∀ dm : State nrHarts, Running command dm → dm.csrs.data = data →
      (execute C F i h dm).1 = h' ∧ Running command (execute C F i h dm).2 ∧
        (execute C F i h dm).2.csrs.data = data') :
    Reaches C F nrHarts command h data h' data' := by
  rintro ⟨start, dm⟩ ⟨at_, running, same⟩
  have hart : start = h := at_
  rw [hart]
  obtain ⟨fetching, kept⟩ := running.read (F := F) (wordAddress pc)
  obtain ⟨executed, after, written⟩ := effect _ fetching (kept.trans same)
  refine ⟨step C F (h, dm), .step ?_ (.refl _), ?_⟩
  · rw [stopped, here]
    exact going
  · rw [step, here, code dm running]
    exact ⟨executed, after, written⟩

/-- One instruction that leaves the debug module alone. -/
theorem Reaches.pure (pc : BitVec 64) (here : h.pc = pc)
    (going : (pc == progBuf || pc == entryLoop) = false)
    (code : ∀ dm : State nrHarts, Running command dm → decode (fetched F dm pc) = i)
    (effect : ∀ dm : State nrHarts, execute C F i h dm = (h', dm)) :
    Reaches C F nrHarts command h data h' data := by
  apply Reaches.instr pc here going code
  intro dm running same
  rw [effect dm]
  exact ⟨rfl, running, same⟩

/-! The debug ROM. -/

/-- The instruction of the ROM at an address. -/
def romInstr (pc : BitVec 64) : Instr :=
  decode ((romWord (wordAddress pc)).extractLsb' (if pc.getLsbD 2 then 32 else 0) 32)

theorem decode_rom (pc : BitVec 64)
    (above : haltAddress.extractLsb' 0 12 ≤ (wordAddress pc).extractLsb' 0 12)
    (dm : State nrHarts) (_ : Running command dm) : decode (fetched F dm pc) = romInstr pc := by
  rw [fetched, served, if_pos above, romInstr]

/-- The entry code saves `s0` and parks the hart. -/
theorem reaches_parked (h : Hart φ) :
    Reaches C F nrHarts command { h with pc := haltAddress } data
      { h with pc := entryLoop, dscratch0 := h.x s0 } data := by
  have entry : Reaches C F nrHarts command { h with pc := haltAddress } data
      { h with pc := haltAddress + 0xC } data := by
    apply Reaches.pure haltAddress rfl (by decide) (decode_rom haltAddress (by decide))
    intro dm
    have code : romInstr haltAddress = .jal 0 0xC := by decide
    rw [code, execute, setReg_zero]
    rfl
  have fence : Reaches C F nrHarts command { h with pc := haltAddress + 0xC } data
      { h with pc := haltAddress + 0x10 } data := by
    apply Reaches.pure (haltAddress + 0xC) rfl (by decide) (decode_rom (haltAddress + 0xC) (by decide))
    intro dm
    have code : romInstr (haltAddress + 0xC) = .fence := by decide
    rw [code]
    rfl
  have save : Reaches C F nrHarts command { h with pc := haltAddress + 0x10 } data
      { h with pc := entryLoop, dscratch0 := h.x s0 } data := by
    apply Reaches.pure (haltAddress + 0x10) rfl (by decide) (decode_rom (haltAddress + 0x10) (by decide))
    intro dm
    have code : romInstr (haltAddress + 0x10) = .csrrw 0 csrDscratch0 s0 := by decide
    rw [code]
    rfl
  exact (entry.trans fence).trans save

/-- The exception code tells the debug module and goes back to the entry. -/
theorem reaches_after_trap (h : Hart φ) :
    Reaches C F nrHarts command h.trap data
      { h with pc := entryLoop, dscratch0 := h.x s0 } data := by
  have jump : Reaches C F nrHarts command h.trap data
      { h with pc := haltAddress + 0x3C } data := by
    apply Reaches.pure exceptionAddress rfl (by decide) (decode_rom exceptionAddress (by decide))
    intro dm
    have code : romInstr exceptionAddress = .jal 0 0x34 := by decide
    rw [code, execute, setReg_zero]
    rfl
  have tell : Reaches C F nrHarts command { h with pc := haltAddress + 0x3C } data
      { h with pc := haltAddress + 0x40 } data := by
    apply Reaches.instr (haltAddress + 0x3C) rfl (by decide) (decode_rom (haltAddress + 0x3C) (by decide))
    intro dm running same
    have code : romInstr (haltAddress + 0x3C) = .store 2 0 0 0x10C := by decide
    have other : (storeAt (0x10C : BitVec 64) 2 0).halted = false := by decide
    have nothing : (storeAt (0x10C : BitVec 64) 2 0).dataValid = false := by decide
    obtain ⟨after, kept⟩ := running.access (F := F) _ other
    rw [MemInput.dataBits, nothing, if_neg Bool.false_ne_true] at kept
    rw [code]
    exact ⟨rfl, after, kept.trans same⟩
  have back : Reaches C F nrHarts command { h with pc := haltAddress + 0x40 } data
      { h with pc := haltAddress } data := by
    apply Reaches.pure (haltAddress + 0x40) rfl (by decide) (decode_rom (haltAddress + 0x40) (by decide))
    intro dm
    have code : romInstr (haltAddress + 0x40) = .ebreak := by decide
    rw [code]
    rfl
  exact ((jump.trans tell).trans back).trans (reaches_parked h)

end Runs
section Program

variable {C : Core φ} {F : Fixed} {command : BitVec 32} {h : Hart φ} {data : BitVec 64}

/-- After the transfer the program buffer or the parked state. -/
def final (command : BitVec 32) (h : Hart φ) : Hart φ :=
  if postexec command then { h with pc := progBuf }
  else { h with pc := entryLoop, dscratch0 := h.x s0 }

theorem execute_csrw {number : BitVec 12} (other : number ≠ csrDscratch0) {csrs : φ}
    {dm : State nrHarts} (legal : C.writeCsr h.csrs number (h.x s0) = some csrs) :
    execute C F (.csrrw 0 number s0) h dm = ({ h with csrs := csrs, pc := h.pc + 4 }, dm) := by
  have written : h.csrWrite C number (h.reg s0) = some { h with csrs := csrs } := by
    rw [reg_s0, Hart.csrWrite, if_neg other, legal]
    rfl
  rw [execute, written]
  rfl

theorem execute_csrw_refused {number : BitVec 12} (other : number ≠ csrDscratch0)
    {dm : State nrHarts} (traps : C.writeCsr h.csrs number (h.x s0) = none) :
    execute C F (.csrrw 0 number s0) h dm = (h.trap, dm) := by
  have refused : h.csrWrite C number (h.reg s0) = none := by
    rw [reg_s0, Hart.csrWrite, if_neg other, traps]
    rfl
  rw [execute, refused]
  rfl

theorem execute_csrr {number : BitVec 12} (other : number ≠ csrDscratch0) {value : BitVec 64}
    {dm : State nrHarts} (legal : C.readCsr h.csrs number = some value) :
    execute C F (.csrrs s0 number 0) h dm =
      ({ h with x := Function.update h.x s0 value, pc := h.pc + 4 }, dm) := by
  have read : h.csrRead C number = some value := by rw [Hart.csrRead, if_neg other, legal]
  rw [execute, read]
  rfl

theorem execute_csrr_refused {number : BitVec 12} (other : number ≠ csrDscratch0)
    {dm : State nrHarts} (traps : C.readCsr h.csrs number = none) :
    execute C F (.csrrs s0 number 0) h dm = (h.trap, dm) := by
  have refused : h.csrRead C number = none := by rw [Hart.csrRead, if_neg other, traps]
  rw [execute, refused]

section Slots

variable (encodes : Encodes F.instructions) (accepted : Accepted command)
  (moves : transfer command = true)

include encodes accepted moves

/-- An instruction of the program. -/
theorem reaches_slot (k : Nat) (h : Hart φ) {i : Instr} {h' : Hart φ} {data' : BitVec 64}
    (small : k < 6) (here : (code command).getD k .illegal = i)
    (effect : ∀ dm : State nrHarts, Running command dm → dm.csrs.data = data →
      (execute C F i { h with pc := slot k } dm).1 = h' ∧
        Running command (execute C F i { h with pc := slot k } dm).2 ∧
          (execute C F i { h with pc := slot k } dm).2.csrs.data = data') :
    Reaches C F nrHarts command { h with pc := slot k } data h' data' := by
  apply Reaches.instr (slot k) rfl (slot_going small) _ effect
  intro dm running
  rw [decode_slot encodes accepted moves small dm running, here]

/-- An instruction that only changes registers. -/
theorem reaches_registers (k : Nat) (h h' : Hart φ) {i : Instr} (small : k < 6)
    (here : (code command).getD k .illegal = i)
    (effect : ∀ dm : State nrHarts, execute C F i { h with pc := slot k } dm =
      ({ h' with pc := slot k + 4 }, dm)) :
    Reaches C F nrHarts command { h with pc := slot k } data
      { h' with pc := slot (k + 1) } data := by
  apply reaches_slot encodes accepted moves k h small here
  intro dm running same
  rw [effect dm, slot_succ]
  exact ⟨rfl, running, same⟩

theorem reaches_nop (k : Nat) (h : Hart φ) (small : k < 6)
    (here : (code command).getD k .illegal = nop) :
    Reaches C F nrHarts command { h with pc := slot k } data
      { h with pc := slot (k + 1) } data := by
  apply reaches_registers encodes accepted moves k h h small here
  intro dm
  rw [nop, execute, setReg_zero]
  rfl

/-- A jump to the exception code ends with the hart parked. -/
theorem reaches_trap (k : Nat) (h : Hart φ) {i : Instr} (small : k < 6)
    (here : (code command).getD k .illegal = i)
    (traps : ∀ dm : State nrHarts, execute C F i { h with pc := slot k } dm = (h.trap, dm)) :
    Reaches C F nrHarts command { h with pc := slot k } data
      { h with pc := entryLoop, dscratch0 := h.x s0 } data := by
  have jump : Reaches C F nrHarts command { h with pc := slot k } data h.trap data := by
    apply reaches_slot encodes accepted moves k h small here
    intro dm running same
    rw [traps dm]
    exact ⟨rfl, running, same⟩
  exact jump.trans (reaches_after_trap h)

/-- A load from the data registers. -/
theorem reaches_load (k : Nat) (h : Hart φ) {size : BitVec 3} {r : BitVec 5} (small : k < 6)
    (here : (code command).getD k .illegal = .load size r 0 Dm.dataAddr) :
    Reaches C F nrHarts command { h with pc := slot k } data
      { h.setReg r (signed size data) with pc := slot (k + 1) } data := by
  apply reaches_slot encodes accepted moves k h small here
  intro dm running same
  obtain ⟨after, kept⟩ := running.read (F := F) (Dm.dataAddr.setWidth 64)
  rw [execute, data_address, served_data, same, lane_data]
  refine ⟨?_, after, kept.trans same⟩
  rw [← slot_succ, Hart.setReg, Hart.setReg]
  split <;> rfl

/-- A store to them. -/
theorem reaches_store (k : Nat) (h : Hart φ) {size : BitVec 3} {r : BitVec 5} {value : BitVec 64}
    (small : k < 6) (held : h.reg r = value)
    (here : (code command).getD k .illegal = .store size r 0 Dm.dataAddr) :
    Reaches C F nrHarts command { h with pc := slot k } data
      { h with pc := slot (k + 1) } (merged size value data) := by
  apply reaches_slot encodes accepted moves k h small here
  intro dm running same
  obtain ⟨after, kept⟩ := running.access (F := F) _ (store_other size value)
  have register : Hart.reg { h with pc := slot k } r = value := held
  rw [stored, same] at kept
  rw [execute, data_address, register, ← slot_succ]
  exact ⟨rfl, after, kept⟩

/-- The end of the program. -/
theorem reaches_final (h : Hart φ) :
    Reaches C F nrHarts command { h with pc := slot 5 } data (final command h) data := by
  have last : (code command).getD 5 .illegal = if postexec command then nop else .ebreak := by
    rw [code, transferCode]
    cases named command <;> cases isWrite command <;> rfl
  cases executed : postexec command with
  | true =>
      rw [final, executed, if_pos rfl]
      rw [executed, if_pos rfl] at last
      exact reaches_nop encodes accepted moves 5 h (by decide) last
  | false =>
      rw [final, executed, if_neg Bool.false_ne_true]
      rw [executed, if_neg Bool.false_ne_true] at last
      have leaves : Reaches C F nrHarts command { h with pc := slot 5 } data
          { h with pc := haltAddress } data := by
        apply reaches_slot encodes accepted moves 5 h (by decide) last
        intro dm running same
        exact ⟨rfl, running, same⟩
      exact leaves.trans (reaches_parked h)

/-- The words after a transfer of one instruction. -/
theorem reaches_nops (h : Hart φ)
    (nops : ∀ k, 1 ≤ k → k < 5 → (code command).getD k .illegal = nop) :
    Reaches C F nrHarts command { h with pc := slot 1 } data (final command h) data := by
  have skip (k : Nat) (first : 1 ≤ k) (last : k < 5) :
      Reaches C F nrHarts command { h with pc := slot k } data { h with pc := slot (k + 1) } data :=
    reaches_nop encodes accepted moves k h (by omega) (nops k first last)
  have skipped := (((skip 1 (by decide) (by decide)).trans (skip 2 (by decide) (by decide))).trans
    (skip 3 (by decide) (by decide))).trans (skip 4 (by decide) (by decide))
  exact skipped.trans (reaches_final encodes accepted moves h)

variable {number : BitVec 12} {r : BitVec 5}

omit encodes moves in
theorem csr_other (name : named command = .csr number) : number ≠ csrDscratch0 := by
  have other := accepted.other
  rw [named] at name
  split at name
  · cases name
    intro same
    have value := congrArg BitVec.toNat same
    rw [BitVec.toNat_setWidth, Nat.mod_eq_of_lt (by omega)] at value
    exact other value
  · split at name <;> cases name

/-- The beginning of an access to a CSR. -/
theorem reaches_saved (h : Hart φ) (name : named command = .csr number) :
    Reaches C F nrHarts command { h with pc := slot 0 } data
      { h with pc := slot 1, dscratch0 := h.x s0 } data := by
  have here : (code command).getD 0 .illegal = .csrrw 0 csrDscratch0 s0 := by
    rw [code, transferCode, name]
    cases isWrite command <;> rfl
  exact reaches_registers encodes accepted moves 0 h { h with dscratch0 := h.x s0 } (by decide) here
    fun dm => rfl

/-- The end of it. -/
theorem reaches_restored (h : Hart φ) (name : named command = .csr number) (value : BitVec 64) :
    Reaches C F nrHarts command
      { h with pc := slot 3, x := Function.update h.x s0 value, dscratch0 := h.x s0 } data
      (final command { h with dscratch0 := h.x s0 }) data := by
  have third : (code command).getD 3 .illegal = .csrrs s0 csrDscratch0 0 := by
    rw [code, transferCode, name]
    cases isWrite command <;> rfl
  have fourth : (code command).getD 4 .illegal = nop := by
    rw [code, transferCode, name]
    cases isWrite command <;> rfl
  have back : Function.update (Function.update h.x s0 value) s0 (h.x s0) = h.x := by
    rw [Function.update_idem, Function.update_eq_self]
  have restore : Reaches C F nrHarts command
      { h with pc := slot 3, x := Function.update h.x s0 value, dscratch0 := h.x s0 } data
      { h with pc := slot 4, dscratch0 := h.x s0 } data := by
    apply reaches_registers encodes accepted moves 3
      { h with x := Function.update h.x s0 value, dscratch0 := h.x s0 }
      { h with dscratch0 := h.x s0 } (by decide) third
    intro dm
    show (({ h with
        pc := slot 3 + 4
        x := Function.update (Function.update h.x s0 value) s0 (h.x s0)
        dscratch0 := h.x s0 } : Hart φ), dm) = _
    rw [back]
  have skip : Reaches C F nrHarts command { h with pc := slot 4, dscratch0 := h.x s0 } data
      { h with pc := slot 5, dscratch0 := h.x s0 } data :=
    reaches_nop encodes accepted moves 4 { h with dscratch0 := h.x s0 } (by decide) fourth
  exact (restore.trans skip).trans
    (reaches_final encodes accepted moves { h with dscratch0 := h.x s0 })

/-- A write to a CSR up to the write itself. -/
theorem reaches_loaded (h : Hart φ) (name : named command = .csr number)
    (writes : isWrite command = true) :
    Reaches C F nrHarts command { h with pc := slot 0 } data
      { h with
        pc := slot 2
        x := Function.update h.x s0 (signed (aarsize command) data)
        dscratch0 := h.x s0 } data := by
  have first : (code command).getD 1 .illegal = .load (aarsize command) s0 0 Dm.dataAddr := by
    rw [code, transferCode, name, writes]
    rfl
  exact (reaches_saved encodes accepted moves h name).trans
    (reaches_load encodes accepted moves 1 { h with dscratch0 := h.x s0 } (by decide) first)

theorem reaches_csr_written (h : Hart φ) (name : named command = .csr number)
    (writes : isWrite command = true) {csrs : φ}
    (legal : C.writeCsr h.csrs number (signed (aarsize command) data) = some csrs) :
    Reaches C F nrHarts command { h with pc := slot 0 } data
      (final command { h with csrs := csrs, dscratch0 := h.x s0 }) data := by
  have second : (code command).getD 2 .illegal = .csrrw 0 number s0 := by
    rw [code, transferCode, name, writes]
    rfl
  have write : Reaches C F nrHarts command
      { h with
        pc := slot 2
        x := Function.update h.x s0 (signed (aarsize command) data)
        dscratch0 := h.x s0 } data
      { h with
        pc := slot 3
        x := Function.update h.x s0 (signed (aarsize command) data)
        dscratch0 := h.x s0
        csrs := csrs } data := by
    apply reaches_registers encodes accepted moves 2
      { h with
        x := Function.update h.x s0 (signed (aarsize command) data)
        dscratch0 := h.x s0 }
      { h with
        x := Function.update h.x s0 (signed (aarsize command) data)
        dscratch0 := h.x s0
        csrs := csrs } (by decide) second
    intro dm
    apply execute_csrw (csr_other accepted name)
    show C.writeCsr h.csrs number (Function.update h.x s0 _ s0) = some csrs
    rw [Function.update_self]
    exact legal
  exact ((reaches_loaded encodes accepted moves h name writes).trans write).trans
    (reaches_restored encodes accepted moves { h with csrs := csrs } name _)

/-- A write that traps leaves the data in `s0`, which the entry code saves. -/
theorem reaches_csr_refused (h : Hart φ) (name : named command = .csr number)
    (writes : isWrite command = true)
    (traps : C.writeCsr h.csrs number (signed (aarsize command) data) = none) :
    Reaches C F nrHarts command { h with pc := slot 0 } data
      { h with
        pc := entryLoop
        x := Function.update h.x s0 (signed (aarsize command) data)
        dscratch0 := Function.update h.x s0 (signed (aarsize command) data) s0 } data := by
  have second : (code command).getD 2 .illegal = .csrrw 0 number s0 := by
    rw [code, transferCode, name, writes]
    rfl
  refine (reaches_loaded encodes accepted moves h name writes).trans ?_
  apply reaches_trap encodes accepted moves 2
    { h with
      x := Function.update h.x s0 (signed (aarsize command) data)
      dscratch0 := h.x s0 } (by decide) second
  intro dm
  apply execute_csrw_refused (csr_other accepted name)
  show C.writeCsr h.csrs number (Function.update h.x s0 _ s0) = none
  rw [Function.update_self]
  exact traps

theorem reaches_csr_read (h : Hart φ) (name : named command = .csr number)
    (reads : isWrite command = false) {value : BitVec 64}
    (legal : C.readCsr h.csrs number = some value) :
    Reaches C F nrHarts command { h with pc := slot 0 } data
      (final command { h with dscratch0 := h.x s0 }) (merged (aarsize command) value data) := by
  have first : (code command).getD 1 .illegal = .csrrs s0 number 0 := by
    rw [code, transferCode, name, reads]
    rfl
  have second : (code command).getD 2 .illegal = .store (aarsize command) s0 0 Dm.dataAddr := by
    rw [code, transferCode, name, reads]
    rfl
  have read : Reaches C F nrHarts command { h with pc := slot 1, dscratch0 := h.x s0 } data
      { h with pc := slot 2, x := Function.update h.x s0 value, dscratch0 := h.x s0 } data := by
    apply reaches_registers encodes accepted moves 1 { h with dscratch0 := h.x s0 }
      { h with x := Function.update h.x s0 value, dscratch0 := h.x s0 } (by decide) first
    intro dm
    exact execute_csrr (csr_other accepted name) legal
  have written : Reaches C F nrHarts command
      { h with pc := slot 2, x := Function.update h.x s0 value, dscratch0 := h.x s0 } data
      { h with pc := slot 3, x := Function.update h.x s0 value, dscratch0 := h.x s0 }
      (merged (aarsize command) value data) := by
    apply reaches_store encodes accepted moves 2
      { h with x := Function.update h.x s0 value, dscratch0 := h.x s0 } (by decide) _ second
    rw [reg_s0]
    exact Function.update_self s0 value h.x
  exact (((reaches_saved encodes accepted moves h name).trans read).trans written).trans
    (reaches_restored encodes accepted moves h name value)

theorem reaches_csr_unread (h : Hart φ) (name : named command = .csr number)
    (reads : isWrite command = false) (traps : C.readCsr h.csrs number = none) :
    Reaches C F nrHarts command { h with pc := slot 0 } data
      { h with pc := entryLoop, dscratch0 := h.x s0 } data := by
  have first : (code command).getD 1 .illegal = .csrrs s0 number 0 := by
    rw [code, transferCode, name, reads]
    rfl
  refine (reaches_saved encodes accepted moves h name).trans ?_
  apply reaches_trap encodes accepted moves 1 { h with dscratch0 := h.x s0 } (by decide) first
  intro dm
  exact execute_csrr_refused (csr_other accepted name) traps

/-- After the first word of such a program come four that do nothing. -/
theorem reaches_rest (h : Hart φ) (plain : ∀ number, named command ≠ .csr number) :
    Reaches C F nrHarts command { h with pc := slot 1 } data (final command h) data := by
  apply reaches_nops encodes accepted moves h
  intro k first last
  have cases : k = 1 ∨ k = 2 ∨ k = 3 ∨ k = 4 := by omega
  cases name : named command with
  | csr number => exact absurd name (plain number)
  | gpr r => rcases cases with rfl | rfl | rfl | rfl <;> simp [code, transferCode, name]
  | fpr r => rcases cases with rfl | rfl | rfl | rfl <;> simp [code, transferCode, name]

theorem reaches_gpr_written (h : Hart φ) (name : named command = .gpr r)
    (writes : isWrite command = true) :
    Reaches C F nrHarts command { h with pc := slot 0 } data
      (final command (h.setReg r (signed (aarsize command) data))) data := by
  have first : (code command).getD 0 .illegal = .load (aarsize command) r 0 Dm.dataAddr := by
    rw [code, transferCode, name, writes]
    rfl
  exact (reaches_load encodes accepted moves 0 h (by decide) first).trans
    (reaches_rest encodes accepted moves _ (by simp [name]))

theorem reaches_gpr_read (h : Hart φ) (name : named command = .gpr r)
    (reads : isWrite command = false) :
    Reaches C F nrHarts command { h with pc := slot 0 } data (final command h)
      (merged (aarsize command) (h.reg r) data) := by
  have first : (code command).getD 0 .illegal = .store (aarsize command) r 0 Dm.dataAddr := by
    rw [code, transferCode, name, reads]
    rfl
  exact (reaches_store encodes accepted moves 0 h (by decide) rfl first).trans
    (reaches_rest encodes accepted moves h (by simp [name]))

theorem reaches_fpr_written (h : Hart φ) (name : named command = .fpr r)
    (writes : isWrite command = true) (legal : C.floatLegal h.csrs (aarsize command) = true) :
    Reaches C F nrHarts command { h with pc := slot 0 } data
      (final command
        { h with
          f := Function.update h.f r (boxed (aarsize command) data)
          csrs := C.floatWritten h.csrs }) data := by
  have first : (code command).getD 0 .illegal = .floatLoad (aarsize command) r 0 Dm.dataAddr := by
    rw [code, transferCode, name, writes]
    rfl
  have load : Reaches C F nrHarts command { h with pc := slot 0 } data
      { h with
        pc := slot 1
        f := Function.update h.f r (boxed (aarsize command) data)
        csrs := C.floatWritten h.csrs } data := by
    apply reaches_slot encodes accepted moves 0 h (by decide) first
    intro dm running same
    obtain ⟨after, kept⟩ := running.read (F := F) (Dm.dataAddr.setWidth 64)
    rw [execute, data_address, served_data, same, lane_data, legal, if_pos rfl]
    exact ⟨rfl, after, kept.trans same⟩
  exact load.trans
    (reaches_rest encodes accepted moves
      { h with
        f := Function.update h.f r (boxed (aarsize command) data)
        csrs := C.floatWritten h.csrs } (by simp [name]))

theorem reaches_fpr_read (h : Hart φ) (name : named command = .fpr r)
    (reads : isWrite command = false) (legal : C.floatLegal h.csrs (aarsize command) = true) :
    Reaches C F nrHarts command { h with pc := slot 0 } data (final command h)
      (merged (aarsize command) (h.f r) data) := by
  have first : (code command).getD 0 .illegal = .floatStore (aarsize command) r 0 Dm.dataAddr := by
    rw [code, transferCode, name, reads]
    rfl
  have store : Reaches C F nrHarts command { h with pc := slot 0 } data
      { h with pc := slot 1 } (merged (aarsize command) (h.f r) data) := by
    apply reaches_slot encodes accepted moves 0 h (by decide) first
    intro dm running same
    obtain ⟨after, kept⟩ := running.access (F := F) _ (store_other (aarsize command) (h.f r))
    rw [stored, same] at kept
    rw [execute, data_address, legal, if_pos rfl]
    exact ⟨rfl, after, kept⟩
  exact store.trans (reaches_rest encodes accepted moves h (by simp [name]))

theorem reaches_fpr_refused (h : Hart φ) (name : named command = .fpr r)
    (traps : C.floatLegal h.csrs (aarsize command) = false) :
    Reaches C F nrHarts command { h with pc := slot 0 } data
      { h with pc := entryLoop, dscratch0 := h.x s0 } data := by
  cases direction : isWrite command with
  | true =>
      have first : (code command).getD 0 .illegal =
          .floatLoad (aarsize command) r 0 Dm.dataAddr := by
        rw [code, transferCode, name, direction]
        rfl
      apply reaches_trap encodes accepted moves 0 h (by decide) first
      intro dm
      rw [execute, traps, if_neg Bool.false_ne_true]
      rfl
  | false =>
      have first : (code command).getD 0 .illegal =
          .floatStore (aarsize command) r 0 Dm.dataAddr := by
        rw [code, transferCode, name, direction]
        rfl
      apply reaches_trap encodes accepted moves 0 h (by decide) first
      intro dm
      rw [execute, traps, if_neg Bool.false_ne_true]
      rfl

end Slots
end Program

end Ariane.DebugHart
