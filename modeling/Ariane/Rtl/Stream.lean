import Ariane.Rtl.Machine

set_option autoImplicit false

/- Endless runs of a clocked circuit: one function from cycles to inputs, and the events that the
cycles emit. Nothing here depends on a particular design. -/
namespace Rtl.Machine

variable {σ ι ε : Type} (M : Machine σ ι) (s : σ) (inputs : Nat → ι)

/-- The registers in cycle `t`. -/
def stateAt : Nat → σ
  | 0 => s
  | t + 1 => M.next (stateAt t) (inputs t)

/-- The events of the cycles before `t`. -/
def log (emit : σ → ι → List ε) : Nat → List ε
  | 0 => []
  | t + 1 => log emit t ++ emit (M.stateAt s inputs t) (inputs t)

/-- A phase that lasts until a signal comes leads to a cycle in which the signal meets it. -/
theorem wait_until {signal lasts : Nat → Prop} {t u : Nat} (start : lasts t) (later : t ≤ u)
    (fires : signal u) (step : ∀ v, t ≤ v → lasts v → ¬ signal v → lasts (v + 1)) :
    ∃ v, t ≤ v ∧ lasts v ∧ signal v := by
  obtain ⟨d, rfl⟩ := Nat.exists_eq_add_of_le later
  induction d generalizing t with
  | zero => exact ⟨t, Nat.le_refl t, start, fires⟩
  | succ d ih =>
      by_cases now : signal t
      · exact ⟨t, Nat.le_refl t, start, now⟩
      · have shifted : signal (t + 1 + d) := by
          rw [Nat.add_right_comm]
          exact fires
        obtain ⟨v, after, holds, signals⟩ := ih (step t (Nat.le_refl t) start now)
          (fun v after => step v (Nat.le_of_succ_le after)) (Nat.le_add_right (t + 1) d) shifted
        exact ⟨v, Nat.le_of_succ_le after, holds, signals⟩

end Rtl.Machine
