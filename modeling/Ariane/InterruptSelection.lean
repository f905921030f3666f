import Ariane.CsrRegfile

set_option autoImplicit false

/- Which interrupt the CSR file raises, against the rule of the architecture: the one of highest
priority among those that are pending, enabled and may be taken. -/
namespace Ariane.CsrRegfile

open Rtl (member)
open Riscv

/-- The implemented interrupts, highest priority first. -/
def interrupts : List Nat := [irqMExt, irqMSoft, irqMTimer, irqSExt, irqSSoft, irqSTimer]

variable (pkg : Pkg) (q : State) (i : Input) (irq : Nat)

/-- The interrupt is pending and enabled. The supervisor external interrupt also comes from
outside. -/
def interruptPending : Bool :=
  q.mie.getLsbD irq && (q.mip.getLsbD irq || (irq == irqSExt && i.irq1))

/-- The current level lets the interrupt through. -/
def interruptTakeable : Bool :=
  if q.mideleg.getLsbD irq then
    privLvlO q == privLvlU || (privLvlO q == privLvlS && member q.mstatus Status.sie == 1#1)
  else privLvlO q != privLvlM || member q.mstatus Status.mie == 1#1

/-- Interrupts are not held back by a single step. -/
def stepAllows : Bool := !(member q.dcsr Dcsr.step == 1#1) || member q.dcsr Dcsr.stepie == 1#1

/-- The architecture's choice. -/
def interruptChoice : Option Nat :=
  interrupts.find? fun irq => interruptPending q i irq && interruptTakeable q irq

/-- The interrupt of highest priority, whether it may be taken or not. -/
def firstPending : Option Nat := interrupts.find? (interruptPending q i)

/-- An interrupt is raised exactly if one is pending, enabled and takeable, and it is the one of
highest priority among these. -/
def SelectsInterrupt : Prop :=
  ((csrException pkg q i).valid = true ↔
      ∃ irq ∈ interrupts, interruptPending q i irq = true ∧ interruptTakeable q irq = true) ∧
    ((csrException pkg q i).valid = true →
      ∃ irq, interruptChoice q i = some irq ∧ (csrException pkg q i).cause = interruptCause irq)

/-- The interrupt of highest priority hides none that may be taken. -/
def Unhidden : Prop :=
  (∀ irq ∈ interrupts, interruptPending q i irq = true → interruptTakeable q irq = false) ∨
    (stepAllows q = true ∧ ∃ irq, firstPending q i = some irq ∧ interruptTakeable q irq = true)

theorem interruptCause_pending (member : irq ∈ interrupts) :
    (interruptCause irq).getLsbD 63 = true ∧ ((interruptCause irq).setWidth 6).toNat = irq := by
  revert irq
  decide

theorem interruptPending_external :
    interruptPending q i irqSExt =
      (q.mie.getLsbD irqSExt && (q.mip.getLsbD irqSExt || i.irq1)) := by
  rw [interruptPending, beq_self_eq_true, Bool.true_and]

theorem interruptPending_internal (internal : irq ≠ irqSExt) :
    interruptPending q i irq = (q.mie.getLsbD irq && q.mip.getLsbD irq) := by
  rw [interruptPending, beq_false_of_ne internal, Bool.false_and, Bool.or_false]

/-- The assignments of `exception_ctrl` find the first pending interrupt. -/
theorem interruptCauseOf_eq :
    interruptCauseOf q i = ((firstPending q i).map interruptCause).getD 0 := by
  have internal := interruptPending_internal q i
  simp only [interruptCauseOf, ← interruptPending_external, ← internal irqMExt (by decide),
    ← internal irqMSoft (by decide), ← internal irqMTimer (by decide),
    ← internal irqSSoft (by decide), ← internal irqSTimer (by decide), firstPending, interrupts,
    List.find?_cons, List.find?_nil]
  generalize interruptPending q i irqMExt = a
  generalize interruptPending q i irqMSoft = b
  generalize interruptPending q i irqMTimer = c
  generalize interruptPending q i irqSExt = d
  generalize interruptPending q i irqSSoft = e
  generalize interruptPending q i irqSTimer = f
  cases a <;> cases b <;> cases c <;> cases d <;> cases e <;> cases f <;> rfl

theorem firstPending_spec (first : firstPending q i = some irq) :
    irq ∈ interrupts ∧ interruptPending q i irq = true :=
  ⟨List.mem_of_find?_eq_some first, List.find?_some first⟩

/-- Without an interrupt that may be pending the cause is zero. -/
theorem interrupt_none (none : firstPending q i = none) : (interrupt q i).valid = false := by
  have noCause : interruptCauseOf q i = 0 := by rw [interruptCauseOf_eq, none]; rfl
  have bit : (0 : BitVec 64).getLsbD 63 = false := by decide
  rw [interrupt, noCause, bit, Bool.false_and]
  rfl

/-- Outside debug mode the first pending interrupt is raised if it may be taken. -/
theorem interrupt_some (outside : q.debugMode = false) (first : firstPending q i = some irq) :
    (interrupt q i).valid = (stepAllows q && interruptTakeable q irq) ∧
      ((interrupt q i).valid = true → (interrupt q i).cause = interruptCause irq) := by
  obtain ⟨top, index⟩ := interruptCause_pending irq (firstPending_spec q i irq first).1
  have cause : interruptCauseOf q i = interruptCause irq := by rw [interruptCauseOf_eq, first]; rfl
  have levels : privLvlU ≠ privLvlM ∧ privLvlS ≠ privLvlM := by decide
  simp only [interrupt, cause, top, index, interruptGlobalEnable, outside, stepAllows,
    interruptTakeable]
  grind

theorem csrException_legal (legal : accessIllegal pkg q i = false) :
    csrException pkg q i = interrupt q i := by
  rw [csrException, legal]
  rfl

theorem interruptChoice_first (first : firstPending q i = some irq)
    (takeable : interruptTakeable q irq = true) : interruptChoice q i = some irq := by
  unfold firstPending at first
  unfold interruptChoice
  rw [List.find?_eq_some_iff_append] at first ⊢
  obtain ⟨pending, before, after, split, none⟩ := first
  refine ⟨by rw [pending, takeable]; rfl, before, after, split, fun other member => ?_⟩
  have quiet := none other member
  grind

/-- The interrupt that the register file raises is the architecture's choice exactly in the
states in which the first pending interrupt hides none. -/
theorem selects_iff_unhidden (outside : q.debugMode = false)
    (legal : accessIllegal pkg q i = false) : SelectsInterrupt pkg q i ↔ Unhidden q i := by
  unfold SelectsInterrupt Unhidden
  rw [csrException_legal pkg q i legal]
  cases first : firstPending q i with
  | none =>
      have silent := interrupt_none q i first
      have quiet : ∀ irq ∈ interrupts, interruptPending q i irq = false := by
        intro irq member
        have none := List.find?_eq_none.mp first irq member
        simpa only [Bool.not_eq_true] using none
      grind
  | some irq =>
      obtain ⟨raised, cause⟩ := interrupt_some q i irq outside first
      obtain ⟨member, pending⟩ := firstPending_spec q i irq first
      have chosen := interruptChoice_first q i irq first
      grind

/-- Supervisor external interrupts are delegated and disabled, a pending timer interrupt is
not delegated. -/
def maskedTimer : State where
  privLvl := privLvlS
  mideleg := mipBit irqSExt
  mie := mipBit irqSExt ||| mipBit irqSTimer
  mip := mipBit irqSExt ||| mipBit irqSTimer

theorem hidden_timer :
    ¬ (∀ (pkg : Pkg) (q : State) (i : Input), q.debugMode = false →
      accessIllegal pkg q i = false → SelectsInterrupt pkg q i) := by
  intro always
  have selects := (always .rv64ima maskedTimer {} rfl (by decide)).1
  have silent : (csrException .rv64ima maskedTimer {}).valid = false := by decide
  have timer : ∃ irq ∈ interrupts, interruptPending maskedTimer {} irq = true ∧
      interruptTakeable maskedTimer irq = true := by decide
  rw [silent] at selects
  exact absurd (selects.mpr timer) (by decide)

/-- The same interrupts with SIE set: the delegated one is taken. -/
def enabledExternal : State := { maskedTimer with mstatus := 2 }

theorem selects_iff_unhidden_delegated :
    SelectsInterrupt .rv64ima enabledExternal {} :=
  (selects_iff_unhidden .rv64ima enabledExternal {} rfl (by decide)).mpr
    (.inr ⟨by decide, irqSExt, by decide, by decide⟩)

end Ariane.CsrRegfile
