import Ariane.AbstractCommands
import Mathlib.Logic.Function.Basic

set_option autoImplicit false

/- Which hart the run control of the debug module concerns: `dm_mem.sv` behind `dm_csrs.sv`, with
the harts that write to it and poll it. -/
namespace Ariane.Dm

open Rtl (Machine getLsbD_ofBits)

variable {nrHarts : Nat}

theorem getLsbD_setBit {m : Nat} (x : BitVec m) (k : Nat) (value : Bool) (j : Nat) :
    (setBit x k value).getLsbD j = if j = k ∧ j < m then value else x.getLsbD j := by
  rw [setBit, getLsbD_ofBits]
  by_cases inside : j < m
  · simp only [inside, decide_true, Bool.true_and, and_true]
  · simp [inside, BitVec.getLsbD_of_ge x j (Nat.le_of_not_lt inside)]

/-- The inputs of a cycle with the hart that makes the access. -/
structure HartInput (nrHarts : Nat) extends Input nrHarts where
  hart : Nat := 0

/-- A history: the last notification of every hart, and the hart that took the command. -/
structure Notices where
  lastHalted : Nat → Bool := fun _ => false
  executor : Option Nat := none

def Notices.update (s : State nrHarts) (i : HartInput nrHarts) (h : Notices) : Notices where
  lastHalted :=
    if i.mem.halted then Function.update h.lastHalted i.hart true
    else if i.mem.resuming then Function.update h.lastHalted i.hart false
    else h.lastHalted
  executor := if s.mem.state == .go && i.mem.going then some i.hart else h.executor

/-- The debug module with the harts around it. -/
def withHarts (F : Fixed) (nrHarts : Nat) : Machine (State nrHarts × Notices) (HartInput nrHarts) where
  reset := ({}, {})
  next s i := (next F s.1 i.toInput, s.2.update s.1 i)

/-- The index that the bus shows, whatever the access is. -/
def HartInput.index (i : HartInput nrHarts) : Nat := i.mem.wdata.toNat % 2 ^ hartSelLen nrHarts

/-- What the debug ROM promises: the accesses are those of the harts, and a hart writes its own
number to `Halted` and `Resuming`. -/
@[mk_iff genuine_iff]
structure Genuine (s : State nrHarts × Notices) (i : HartInput nrHarts) : Prop where
  hart : i.mem.req = true → i.hart < nrHarts
  number : i.mem.halted = true ∨ i.mem.resuming = true → i.index = i.hart

/-- The hart polls its flag. -/
def Polls (i : HartInput nrHarts) : Prop :=
  i.mem.req = true ∧ i.mem.we = false ∧ i.mem.offset.toNat = flagsBase.toNat + i.hart ∧
    i.mem.offset ≤ flagsEnd

/-- The byte of a hart in the word that it reads. -/
def flag (rdata : BitVec 64) (hart : Nat) : BitVec 8 := rdata.extractLsb' (8 * (hart % 8)) 8

section Cycle

variable (F : Fixed) (s : State nrHarts × Notices) (i : HartInput nrHarts)

/-- One cycle of run control concerns the selected hart only. -/
structure Concerns : Prop where
  halted : ∀ k < nrHarts,
    (next F s.1 i.toInput).mem.halted.getLsbD k = (s.2.update s.1 i).lastHalted k
  cleared : ∀ k < nrHarts, s.1.mem.resuming.getLsbD k = true →
    (next F s.1 i.toInput).mem.resuming.getLsbD k = false →
      (fromCsrs s.1 i.toInput).resumereq.getLsbD k = false
  kept : ∀ k < nrHarts, i.mem.req = true → i.mem.we = true →
    ¬ (i.mem.resuming = true ∧ i.hart = k) →
      (next F s.1 i.toInput).mem.resuming.getLsbD k = s.1.mem.resuming.getLsbD k
  starts : s.1.mem.state = .idle → (next F s.1 i.toInput).mem.state ≠ .idle →
    selectedHalted s.1 = true
  flags : Polls i → flag (next F s.1 i.toInput).mem.rdata i.hart ≠ 0 →
    i.hart = s.1.csrs.dmcontrol.hartsel.toNat
  ends : s.1.mem.state = .cmdExecuting → (next F s.1 i.toInput).mem.state ≠ .cmdExecuting →
    i.mem.halted = true ∧ s.2.executor = some i.hart

/-- The cycles in which it does: no write but a resume notification shows the index of a set
resuming bit while no resume is requested; what starts finds the selected hart halted; no hart
polls while its number is only the low part of the selected one; and during a command only its
hart notifies that it halted. -/
@[mk_iff exclusive_iff]
structure Exclusive : Prop where
  kept : i.mem.req = true → i.mem.we = true → i.mem.resuming = false →
    (fromCsrs s.1 i.toInput).resumereq = 0 → s.1.mem.resuming.getLsbD i.index = false
  starts : s.1.mem.state = .idle →
    s.1.mem.resumes (fromCsrs s.1 i.toInput) = true ∨
        (issued s.1 i.toInput = true ∧ s.1.mem.halted ≠ 0) →
      selectedHalted s.1 = true
  flags : Polls i → s.1.mem.state = .go ∨ s.1.mem.state = .resume →
    i.hart = s.1.csrs.dmcontrol.hartsel.toNat % 2 ^ 12 →
      i.hart = s.1.csrs.dmcontrol.hartsel.toNat
  ends : s.1.mem.state = .cmdExecuting → i.mem.halted = true → s.2.executor = some i.hart

end Cycle

/-- The halted bits are the last notifications. -/
def Noticed (s : State nrHarts × Notices) : Prop :=
  ∀ k < nrHarts, s.1.mem.halted.getLsbD k = s.2.lastHalted k

section Step

variable {F : Fixed} {s : State nrHarts × Notices} {i : HartInput nrHarts}

theorem next_halted (F : Fixed) (s : State nrHarts) (i : HartInput nrHarts) (k : Nat) :
    (next F s i.toInput).mem.halted.getLsbD k =
      if i.mem.halted = true ∧ k = i.index ∧ k < nrHarts then true
      else if i.mem.halted = false ∧ i.mem.resuming = true ∧ k = i.index ∧ k < nrHarts then false
      else s.mem.halted.getLsbD k := by
  have vector : (next F s i.toInput).mem.halted =
      if i.mem.halted then setBit s.mem.halted i.index true
      else if i.mem.resuming then setBit s.mem.halted i.index false
      else s.mem.halted := rfl
  rw [vector]
  cases i.mem.halted <;> cases i.mem.resuming <;> simp [getLsbD_setBit]

theorem next_resuming (F : Fixed) (s : State nrHarts) (i : HartInput nrHarts) (k : Nat) :
    (next F s i.toInput).mem.resuming.getLsbD k =
      if k = i.index ∧ k < nrHarts then
        i.mem.resuming ||
          (decide ((fromCsrs s i.toInput).resumereq ≠ 0) && s.mem.resuming.getLsbD k)
      else s.mem.resuming.getLsbD k := by
  have vector : (next F s i.toInput).mem.resuming =
      let acknowledged :=
        if (fromCsrs s i.toInput).resumereq = 0 then setBit s.mem.resuming i.index false
        else s.mem.resuming
      if i.mem.resuming then setBit acknowledged i.index true else acknowledged := rfl
  rw [vector]
  by_cases withdrawn : (fromCsrs s i.toInput).resumereq = 0 <;> cases i.mem.resuming <;>
    simp only [withdrawn, getLsbD_setBit, ↓reduceIte, Bool.false_eq_true] <;> grind

theorem noticed_next (noticed : Noticed s) (genuine : Genuine s i) (F : Fixed) :
    Noticed ((withHarts F nrHarts).next s i) := by
  intro k small
  have before := noticed k small
  have update : ((withHarts F nrHarts).next s i).2.lastHalted k =
      if i.mem.halted then Function.update s.2.lastHalted i.hart true k
      else if i.mem.resuming then Function.update s.2.lastHalted i.hart false k
      else s.2.lastHalted k := by
    simp only [withHarts, Notices.update]
    split
    · rfl
    · split <;> rfl
  have number := genuine.number
  rw [update]
  refine (next_halted F s.1 i k).trans ?_
  simp only [Function.update_apply]
  grind

/-- A bit that is cleared has no resume request. -/
theorem resuming_cleared {k : Nat} (set : s.1.mem.resuming.getLsbD k = true)
    (cleared : (next F s.1 i.toInput).mem.resuming.getLsbD k = false) :
    (fromCsrs s.1 i.toInput).resumereq.getLsbD k = false := by
  have withdrawn : (fromCsrs s.1 i.toInput).resumereq = 0 := by
    rw [next_resuming, set] at cleared
    grind
  rw [withdrawn]
  exact BitVec.getLsbD_zero

theorem kept_iff (genuine : Genuine s i) :
    (∀ k < nrHarts, i.mem.req = true → i.mem.we = true →
        ¬ (i.mem.resuming = true ∧ i.hart = k) →
          (next F s.1 i.toInput).mem.resuming.getLsbD k = s.1.mem.resuming.getLsbD k) ↔
      (i.mem.req = true → i.mem.we = true → i.mem.resuming = false →
        (fromCsrs s.1 i.toInput).resumereq = 0 → s.1.mem.resuming.getLsbD i.index = false) := by
  constructor
  · intro kept req we other withdrawn
    by_cases inside : i.index < nrHarts
    · have same := kept i.index inside req we (by simp [other])
      rw [next_resuming, if_pos ⟨rfl, inside⟩, other] at same
      simpa [withdrawn] using same.symm
    · exact BitVec.getLsbD_of_ge _ _ (Nat.le_of_not_lt inside)
  · intro clear k small req we other
    have number := genuine.number
    have quiet := clear req we
    rw [next_resuming]
    split
    · next here =>
        have silent : i.mem.resuming = false := by
          rw [Bool.eq_false_iff]
          intro resuming
          exact other ⟨resuming, (here.1.trans (number (.inr resuming))).symm⟩
        rw [silent, Bool.false_or]
        by_cases withdrawn : (fromCsrs s.1 i.toInput).resumereq = 0
        · rw [here.1, quiet silent withdrawn, Bool.and_false]
        · rw [decide_eq_true withdrawn, Bool.true_and]
    · rfl

/-- What leaves the idle state. -/
theorem starts_iff (idle : s.1.mem.state = .idle) :
    (next F s.1 i.toInput).mem.state ≠ .idle ↔
      s.1.mem.resumes (fromCsrs s.1 i.toInput) = true ∨
        (issued s.1 i.toInput = true ∧ s.1.mem.halted ≠ 0) := by
  have state : (next F s.1 i.toInput).mem.state =
      if s.1.mem.resumes (fromCsrs s.1 i.toInput) then .resume
      else if issued s.1 i.toInput && s.1.mem.halted != 0 then .go
      else .idle := by
    show s.1.mem.stateD _ _ = _
    rw [Mem.stateD, idle]
    rfl
  rw [state]
  grind

/-- What ends a command. -/
theorem ends_iff (executing : s.1.mem.state = .cmdExecuting) :
    (next F s.1 i.toInput).mem.state ≠ .cmdExecuting ↔ i.mem.halted = true := by
  have state : (next F s.1 i.toInput).mem.state =
      if i.mem.halted then .idle else .cmdExecuting := by
    show s.1.mem.stateD _ _ = _
    rw [Mem.stateD, executing]
  rw [state]
  grind

/-- A byte in its lane. -/
theorem extract_lane (flags : BitVec 8) (a b : Nat) (small : b < 8) :
    (flags.setWidth 64 <<< (8 * b)).extractLsb' (8 * a) 8 = if a = b then flags else 0 := by
  apply BitVec.eq_of_getLsbD_eq
  intro j inside
  rw [BitVec.getLsbD_extractLsb', BitVec.getLsbD_shiftLeft, BitVec.getLsbD_setWidth]
  by_cases same : a = b
  · subst same
    have lane : 8 * a + j < 64 := by omega
    have above : ¬ 8 * a + j < 8 * a := by omega
    have width : j < 64 := by omega
    simp [inside, lane, above, width]
  · by_cases below : 8 * a + j < 8 * b
    · simp [same, below]
    · have beyond : 8 ≤ 8 * a + j - 8 * b := by omega
      simp [same, BitVec.getLsbD_of_ge flags _ beyond]

/-- What a hart that polls is shown. -/
theorem polled_flag (polls : Polls i) :
    flag (next F s.1 i.toInput).mem.rdata i.hart =
      if i.hart = s.1.csrs.dmcontrol.hartsel.toNat % 2 ^ 12 then
        0#6 ++ BitVec.ofBool (s.1.mem.state == .resume) ++ BitVec.ofBool (s.1.mem.state == .go)
      else 0 := by
  obtain ⟨req, we, address, inside⟩ := polls
  have base : flagsBase.toNat = 1024 := rfl
  have small : i.hart < 1024 := by
    have last : i.mem.offset.toNat ≤ 2047 := inside
    omega
  have selected : ((s.1.csrs.dmcontrol.hartsel.extractLsb' 0 12).toNat) =
      s.1.csrs.dmcontrol.hartsel.toNat % 2 ^ 12 := by
    rw [BitVec.extractLsb'_toNat, Nat.shiftRight_zero]
  have low (bound : BitVec 12) (below : bound.toNat < 1024) : ¬ i.mem.offset ≤ bound := by
    rw [BitVec.le_def]
    omega
  have other (register : BitVec 12) (below : register.toNat < 1024) :
      i.mem.offset ≠ register := by
    intro same
    rw [same] at address
    omega
  have above : flagsBase ≤ i.mem.offset := by
    rw [BitVec.le_def]
    omega
  have word : (next F s.1 i.toInput).mem.rdata =
      if i.mem.offset.toNat / 8 * 8 - flagsBase.toNat =
          s.1.csrs.dmcontrol.hartsel.toNat % 2 ^ 12 / 8 * 8 then
        (0#6 ++ BitVec.ofBool (s.1.mem.state == .resume) ++
          BitVec.ofBool (s.1.mem.state == .go)).setWidth 64 <<<
            (8 * (s.1.csrs.dmcontrol.hartsel.toNat % 2 ^ 12 % 8))
      else 0 := by
    show s.1.mem.rdataD F.instructions (fromCsrs s.1 i.toInput) i.mem = _
    have notBelow : ¬ (abstractCmdBase ≤ i.mem.offset ∧ i.mem.offset < progBufBase) := by
      rw [BitVec.lt_def]
      intro range
      have bound : progBufBase.toNat = 872 := rfl
      omega
    have notProgBuf : ¬ (progBufBase ≤ i.mem.offset ∧ i.mem.offset < dataAddr) := by
      rw [BitVec.lt_def]
      intro range
      have bound : dataAddr.toNat = 896 := rfl
      omega
    have notData : ¬ (dataAddr ≤ i.mem.offset ∧ i.mem.offset ≤ dataEnd) :=
      fun range => low dataEnd (by decide) range.2
    simp only [Mem.rdataD, req, we, Bool.not_true, Bool.or_false, Bool.false_eq_true,
      other whereTo (by decide), notData, notProgBuf, notBelow, ↓reduceIte, above, inside,
      and_self, fromCsrs, selected]
  rw [word, flag, address]
  by_cases row : (flagsBase.toNat + i.hart) / 8 * 8 - flagsBase.toNat =
      s.1.csrs.dmcontrol.hartsel.toNat % 2 ^ 12 / 8 * 8
  · rw [if_pos row, extract_lane _ _ _ (Nat.mod_lt _ (by decide))]
    have lanes : (i.hart % 8 = s.1.csrs.dmcontrol.hartsel.toNat % 2 ^ 12 % 8) ↔
        i.hart = s.1.csrs.dmcontrol.hartsel.toNat % 2 ^ 12 := by omega
    simp only [lanes]
  · have apart : i.hart ≠ s.1.csrs.dmcontrol.hartsel.toNat % 2 ^ 12 := by omega
    rw [if_neg row, if_neg apart]
    apply BitVec.eq_of_getLsbD_eq
    simp

theorem flags_iff (polls : Polls i) :
    flag (next F s.1 i.toInput).mem.rdata i.hart ≠ 0 ↔
      (s.1.mem.state = .go ∨ s.1.mem.state = .resume) ∧
        i.hart = s.1.csrs.dmcontrol.hartsel.toNat % 2 ^ 12 := by
  have bits (m : MemState) : (0#6 ++ BitVec.ofBool (m == .resume) ++ BitVec.ofBool (m == .go)) ≠ 0 ↔
      m = .go ∨ m = .resume := by
    cases m <;> decide
  rw [polled_flag polls]
  by_cases selected : i.hart = s.1.csrs.dmcontrol.hartsel.toNat % 2 ^ 12
  · rw [if_pos selected, and_iff_left selected]
    exact bits s.1.mem.state
  · rw [if_neg selected]
    exact ⟨fun shown => absurd rfl shown, fun both => absurd both.2 selected⟩

/-- One cycle concerns the selected hart only exactly when it is exclusive. -/
theorem concerns_iff (noticed : Noticed s) (genuine : Genuine s i) :
    Concerns F s i ↔ Exclusive s i := by
  constructor
  · intro concerns
    constructor
    · exact (kept_iff genuine).mp concerns.kept
    · intro idle start
      exact concerns.starts idle ((starts_iff idle).mpr start)
    · intro polls busy selected
      exact concerns.flags polls ((flags_iff polls).mpr ⟨busy, selected⟩)
    · intro executing halted
      exact (concerns.ends executing ((ends_iff executing).mpr halted)).2
  · intro exclusive
    constructor
    · exact noticed_next noticed genuine F
    · exact fun k _ => resuming_cleared
    · exact (kept_iff genuine).mpr exclusive.kept
    · intro idle start
      exact exclusive.starts idle ((starts_iff idle).mp start)
    · intro polls shown
      obtain ⟨busy, selected⟩ := (flags_iff polls).mp shown
      exact exclusive.flags polls busy selected
    · intro executing ended
      have halted := (ends_iff executing).mp ended
      exact ⟨halted, exclusive.ends executing halted⟩

theorem legal_concerns_iff (F : Fixed) {s : State nrHarts × Notices}
    (inputs : List (HartInput nrHarts)) (noticed : Noticed s)
    (genuine : (withHarts F nrHarts).Legal Genuine s inputs) :
    (withHarts F nrHarts).Legal (Concerns F) s inputs ↔
      (withHarts F nrHarts).Legal Exclusive s inputs := by
  induction inputs generalizing s with
  | nil => exact Iff.rfl
  | cons i rest ih =>
      rw [Machine.legal_cons, Machine.legal_cons, concerns_iff noticed genuine.1,
        ih (noticed_next noticed genuine.1 F) genuine.2]

end Step

/-- Run control concerns the selected hart only in exactly the runs whose cycles are exclusive. -/
theorem run_control_iff (F : Fixed) (nrHarts : Nat) (inputs : List (HartInput nrHarts))
    (genuine : (withHarts F nrHarts).Legal Genuine (withHarts F nrHarts).reset inputs) :
    (withHarts F nrHarts).Legal (Concerns F) (withHarts F nrHarts).reset inputs ↔
      (withHarts F nrHarts).Legal Exclusive (withHarts F nrHarts).reset inputs :=
  legal_concerns_iff F inputs (fun _ _ => BitVec.getLsbD_zero) genuine

instance (s : State nrHarts × Notices) (i : HartInput nrHarts) : Decidable (Genuine s i) :=
  decidable_of_iff _ (genuine_iff s i).symm

instance (i : HartInput nrHarts) : Decidable (Polls i) := inferInstanceAs (Decidable (_ ∧ _))

instance (s : State nrHarts × Notices) (i : HartInput nrHarts) : Decidable (Exclusive s i) :=
  decidable_of_iff _ (exclusive_iff s i).symm

/-- A cycle in which the debugger of two harts writes, and one in which a hart does. -/
def debugger (addr : BitVec 7) (data : BitVec 32) : HartInput 2 :=
  { csrs := { dmiReqValid := true, dmiReq := ⟨addr, dtmWrite, data⟩, dmiRespReady := true } }

def notify (hart : Nat) (register data : BitVec 64) : HartInput 2 :=
  { csrs := { dmiRespReady := true }
    mem := { req := true, we := true, addr := register, wdata := data }
    hart := hart }

/-- Of two harts the second halts and stays selected while it executes a command. -/
def selectedCommand : List (HartInput 2) :=
  [debugger 0x10 1, debugger 0x10 0x80010001, notify 1 0x100 1, debugger 0x17 0x00221000,
    notify 1 0x104 0, notify 1 0x100 1]

theorem run_control_selected :
    (withHarts fixed 2).Legal (Concerns fixed) (withHarts fixed 2).reset selectedCommand :=
  (run_control_iff fixed 2 selectedCommand (by decide)).mpr (by decide +kernel)

/-- A command for the first hart is started because the second one is halted. -/
theorem other_hart_halted :
    ¬ ∀ (nrHarts : Nat) (F : Fixed) (inputs : List (HartInput nrHarts)),
      (withHarts F nrHarts).Legal Genuine (withHarts F nrHarts).reset inputs →
        (withHarts F nrHarts).Legal (Concerns F) (withHarts F nrHarts).reset inputs := by
  intro always
  have concerns := always 2 fixed
    [debugger 0x10 0x00000001, notify 1 0x100 1, debugger 0x17 0x00221000] (by decide)
  have starts := concerns.2.2.1.starts (by decide) (by decide +kernel)
  exact absurd starts (by decide)

end Ariane.Dm
