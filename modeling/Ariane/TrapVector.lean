import Ariane.CommitUnit

set_option autoImplicit false

/- The vector of a trap, against the rule of the architecture: the base of the register of the
target level and, if that register is in vectored mode, the number of the interrupt taken. -/
namespace Ariane.CsrRegfile

open Rtl (Field assign assign_add_field)
open Riscv

/-- The base in a `tvec` register. Its low bits are the mode. -/
def tvecBase (tvec : BitVec 64) : BitVec 64 := tvec.extractLsb' 2 62 ++ 0#2

/-- The `tvec` register of the trap: that of the supervisor level if the trap is delegated and
not taken at machine level. -/
def trapTvec (q : State) (i : Input) : BitVec 64 :=
  if delegated q i.ex.cause = true ∧ q.privLvl ≠ privLvlM then q.stvec else q.mtvec

/-- The cause of an exception without the bit that marks interrupts. -/
def exceptionCode (ex : Exception) : BitVec 64 := (ex.cause.setWidth 63).setWidth 64

/-- The trap goes through its vector table: its own `tvec` register is in vectored mode and it is an
interrupt. -/
def Vectored (q : State) (i : Input) : Prop :=
  (trapTvec q i).getLsbD 0 = true ∧ i.ex.isInterrupt = true

instance (q : State) (i : Input) : Decidable (Vectored q i) :=
  inferInstanceAs (Decidable (_ ∧ _))

/-- What is added to the base. -/
def vectorOffset (q : State) (i : Input) : BitVec 64 :=
  if Vectored q i then exceptionCode i.ex <<< 2 else 0

/-- The vector of the architecture. -/
def architecturalVector (q : State) (i : Input) : BitVec 64 :=
  tvecBase (trapTvec q i) + vectorOffset q i

/-- The bits of the base that are replaced by the number of an interrupt. -/
def vectorField : Field 64 := ⟨2, 6, Nat.le_of_ble_eq_true rfl⟩

/-- An interrupt is pending and enabled, and one of the `tvec` registers is in vectored mode. -/
def replacesVector (pkg : Pkg) (q : State) (i : Input) : Bool :=
  (q.mtvec.getLsbD 0 || q.stvec.getLsbD 0) && (csrException pkg q i).isInterrupt

/-- Bits 7:2 of the base. -/
def baseBits (q : State) (i : Input) : BitVec 6 := (trapTvec q i).extractLsb' 2 6

/-- The number of the interrupt that the register file names. -/
def namedInterrupt (pkg : Pkg) (q : State) (i : Input) : BitVec 6 :=
  (csrException pkg q i).cause.setWidth 6

/-- When the vector is that of the architecture. A vectored trap needs a named interrupt whose number
is that of the trap, counted from bits 7:2 of the base; without one the number of the trap has to be
zero. For any other trap the interrupt that is named, if there is one and one of the registers is in
vectored mode, is the one in bits 7:2 of the base. -/
def VectorFits (pkg : Pkg) (q : State) (i : Input) : Prop :=
  if Vectored q i then
    if (csrException pkg q i).isInterrupt then
      (namedInterrupt pkg q i).setWidth 62 =
        (baseBits q i).setWidth 62 + i.ex.cause.setWidth 62
    else i.ex.cause.setWidth 62 = 0
  else replacesVector pkg q i = true → namedInterrupt pkg q i = baseBits q i

instance (pkg : Pkg) (q : State) (i : Input) : Decidable (VectorFits pkg q i) :=
  inferInstanceAs (Decidable (if Vectored q i then
    (if (csrException pkg q i).isInterrupt then _ else _) else _))

section Spec

variable {pkg : Pkg} {q : State} {i : Input}

/-- The level that the trap goes to decides on the register. -/
theorem trapTvec_eq (outside : q.debugMode = false) (taken : i.ex.valid = true) :
    trapTvec q i = if trapToPrivLvl q i == privLvlS then q.stvec else q.mtvec := by
  have level : privLvlO q = q.privLvl := by rw [privLvlO, outside]; rfl
  have apart : (privLvlM == privLvlS) = false := by decide
  rw [trapTvec, trapToPrivLvl, takesTrap, outside, taken, level]
  cases delegated q i.ex.cause with
  | false =>
      rw [if_neg fun both => Bool.false_ne_true both.1]
      simp only [Bool.and_false, Bool.false_eq_true, if_false, apart]
  | true =>
      by_cases machine : q.privLvl = privLvlM
      · rw [if_neg fun both => both.2 machine]
        simp only [machine, beq_self_eq_true, Bool.not_false, Bool.and_self, if_true, apart,
          Bool.false_eq_true, if_false]
      · have below : (q.privLvl == privLvlM) = false := beq_eq_false_iff_ne.mpr machine
        rw [if_pos ⟨rfl, machine⟩]
        simp only [below, Bool.not_false, Bool.and_self, if_true, Bool.false_eq_true, if_false,
          beq_self_eq_true]

theorem trapVectorBase_eq (outside : q.debugMode = false) (taken : i.ex.valid = true) :
    trapVectorBase pkg q i =
      if replacesVector pkg q i then
        assign (tvecBase (trapTvec q i)) vectorField ((csrException pkg q i).cause.setWidth 6)
      else tvecBase (trapTvec q i) := by
  have base : (if trapToPrivLvl q i == privLvlS then tvecBase q.stvec else tvecBase q.mtvec) =
      tvecBase (trapTvec q i) := by
    rw [trapTvec_eq outside taken, apply_ite tvecBase]
  rw [← base]
  simp only [trapVectorBase, outside, Bool.false_eq_true, if_false]
  rfl

/-- Words shifted by two places are those of their low bits. -/
theorem shift_two_inj (a b : BitVec 64) : a <<< 2 = b <<< 2 ↔ a.setWidth 62 = b.setWidth 62 := by
  constructor
  · intro same
    apply BitVec.eq_of_getLsbD_eq
    intro k below
    have bit := congrArg (·.getLsbD (k + 2)) same
    simpa only [BitVec.getLsbD_shiftLeft, BitVec.getLsbD_setWidth, below, show k + 2 < 64 by omega,
      show ¬k + 2 < 2 by omega, decide_true, decide_false, Bool.true_and, Bool.not_false,
      Nat.add_sub_cancel] using bit
  · intro same
    apply BitVec.eq_of_getLsbD_eq
    intro k below
    rw [BitVec.getLsbD_shiftLeft, BitVec.getLsbD_shiftLeft]
    by_cases low : k < 2
    · simp [low]
    · have bit := congrArg (·.getLsbD (k - 2)) same
      simp only [BitVec.getLsbD_setWidth, show k - 2 < 62 by omega, decide_true,
        Bool.true_and] at bit
      rw [bit]

theorem tvecBase_field (tvec : BitVec 64) :
    tvecBase tvec &&& vectorField.mask = (tvec.extractLsb' 2 6).setWidth 64 <<< 2 := by
  apply BitVec.eq_of_getLsbD_eq
  intro k below
  rw [BitVec.getLsbD_and, Rtl.getLsbD_mask, BitVec.getLsbD_shiftLeft, BitVec.getLsbD_setWidth,
    BitVec.getLsbD_extractLsb', tvecBase, BitVec.getLsbD_append, BitVec.getLsbD_extractLsb']
  by_cases low : k < 2
  · simp [low, Field.Has, vectorField]
  · by_cases high : k < 8
    · simp [low, high, below, Field.Has, vectorField, show 2 ≤ k by omega, show k - 2 < 6 by omega,
        show k - 2 < 62 by omega, show k - 2 < 64 by omega]
    · simp [high, Field.Has, vectorField, show ¬k - 2 < 6 by omega]

/-- What is replaced comes to what is to be added. -/
theorem vector_iff_replaced (outside : q.debugMode = false) (taken : i.ex.valid = true) :
    trapVectorBase pkg q i = architecturalVector q i ↔
      if replacesVector pkg q i then
        (namedInterrupt pkg q i).setWidth 64 <<< 2 =
          (baseBits q i).setWidth 64 <<< 2 + vectorOffset q i
      else vectorOffset q i = 0 := by
  rw [trapVectorBase_eq outside taken, architecturalVector, baseBits, ← tvecBase_field,
    namedInterrupt]
  split
  · have sum : assign (tvecBase (trapTvec q i)) vectorField
          ((csrException pkg q i).cause.setWidth 6) +
          (tvecBase (trapTvec q i) &&& vectorField.mask) =
        tvecBase (trapTvec q i) + ((csrException pkg q i).cause.setWidth 6).setWidth 64 <<< 2 :=
      assign_add_field (tvecBase (trapTvec q i)) vectorField _
    constructor
    · intro same
      rw [same, BitVec.add_assoc, BitVec.add_right_inj, BitVec.add_comm] at sum
      exact sum.symm
    · intro fits
      rw [fits, BitVec.add_comm (_ &&& _), ← BitVec.add_assoc, BitVec.add_left_inj] at sum
      exact sum
  · constructor
    · intro same
      have zero : tvecBase (trapTvec q i) + 0#64 = tvecBase (trapTvec q i) + vectorOffset q i := by
        rw [BitVec.add_zero]
        exact same
      exact ((BitVec.add_right_inj _).mp zero).symm
    · intro none
      rw [none]
      exact (BitVec.add_zero _).symm

theorem exceptionCode_low (ex : Exception) : (exceptionCode ex).setWidth 62 = ex.cause.setWidth 62 := by
  rw [exceptionCode, BitVec.setWidth_setWidth_of_le _ (by omega),
    BitVec.setWidth_setWidth_of_le _ (by omega)]

/-- The vector is that of the architecture exactly if the interrupt that is named fits. -/
theorem vector_iff_fits (outside : q.debugMode = false) (taken : i.ex.valid = true) :
    trapVectorBase pkg q i = architecturalVector q i ↔ VectorFits pkg q i := by
  have wide (x : BitVec 6) : (x.setWidth 64).setWidth 62 = x.setWidth 62 :=
    BitVec.setWidth_setWidth_of_le x (by omega)
  rw [vector_iff_replaced outside taken, VectorFits]
  by_cases vectored : Vectored q i
  · have offset : vectorOffset q i = exceptionCode i.ex <<< 2 := if_pos vectored
    have replaces : replacesVector pkg q i = (csrException pkg q i).isInterrupt := by
      have own : q.mtvec.getLsbD 0 = true ∨ q.stvec.getLsbD 0 = true := by
        have mode := vectored.1
        rw [trapTvec] at mode
        split at mode
        · exact .inr mode
        · exact .inl mode
      rw [replacesVector]
      rcases own with own | own <;> rw [own] <;> simp
    rw [if_pos vectored, replaces, offset]
    split
    · rw [← BitVec.shiftLeft_add_distrib, shift_two_inj, BitVec.setWidth_add _ _ (by omega), wide, wide,
        exceptionCode_low]
    · rw [show (0 : BitVec 64) = 0#64 <<< 2 by decide, shift_two_inj, exceptionCode_low]
      rfl
  · have offset : vectorOffset q i = 0 := if_neg vectored
    rw [if_neg vectored, offset]
    split
    · next replaced =>
        rw [show (_ : BitVec 64) + (0 : BitVec 64) = _ from BitVec.add_zero _, shift_two_inj, wide, wide]
        refine ⟨fun same _ => ?_, fun fits => congrArg _ (fits replaced)⟩
        have low := congrArg (BitVec.setWidth 6) same
        rwa [BitVec.setWidth_setWidth_of_le _ (by omega), BitVec.setWidth_setWidth_of_le _ (by omega),
          BitVec.setWidth_eq, BitVec.setWidth_eq] at low
    · next kept => exact ⟨fun _ replaced => absurd replaced kept, fun _ => rfl⟩

end Spec

/-- At user level a timer interrupt of the machine is pending; `mtvec` is vectored. -/
def machineTimer : State where
  privLvl := privLvlU
  mtvecRstLoad := false
  mtvec := 0x80000001
  mie := mipBit irqMTimer
  mip := mipBit irqMTimer

theorem vector_iff_fits_timer :
    trapVectorBase .rv64ima machineTimer { ex := ⟨interruptCause irqMTimer, 0, true⟩ } =
      architecturalVector machineTimer { ex := ⟨interruptCause irqMTimer, 0, true⟩ } :=
  (vector_iff_fits rfl rfl).mpr (by decide)

/-- At supervisor level a delegated timer interrupt is pending; `stvec` is direct, `mtvec`
vectored. -/
def mixedVectors : CommitUnit.State where
  csr :=
    { privLvl := privLvlS
      mtvecRstLoad := false
      mstatus := assign 0 Status.sie 1#1
      mtvec := 0x80000001
      stvec := 0x1000
      mideleg := mipBit irqSTimer
      mie := mipBit irqSTimer
      mip := mipBit irqSTimer }

/-- The vector depends on the mode of the other register. -/
theorem direct_trap_vectored :
    let i : CommitUnit.Input := { instr0 := { valid := true, fu := .alu, pc := 0x2000 } }
    (CommitUnit.exCommit .rv64ima mixedVectors i).valid = true ∧
      trapVectorBase .rv64ima mixedVectors.csr (CommitUnit.csrInput .rv64ima mixedVectors i) =
        0x1014 ∧
      architecturalVector mixedVectors.csr (CommitUnit.csrInput .rv64ima mixedVectors i) =
        0x1000 := by
  decide

end Ariane.CsrRegfile
