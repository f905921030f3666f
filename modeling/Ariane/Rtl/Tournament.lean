import Mathlib.Algebra.Group.Nat.Defs
import Mathlib.Tactic.Cases

set_option autoImplicit false

/- Trees of comparators: of two neighbours one goes on to the next round, until one is left. -/
namespace Rtl.Tournament

variable {α β : Type}

/-- The winner of `2 ^ k` neighbours, those with the numbers from `i * 2 ^ k` on. -/
def rounds (op : α → α → α) : Nat → (Nat → α) → Nat → α
  | 0, f => f
  | k + 1, f => rounds op k fun i => op (f (2 * i)) (f (2 * i + 1))

/-- A map between two kinds of operands, under which both comparators agree. -/
theorem rounds_map {op : α → α → α} {op' : β → β → β} (m : α → β)
    (agree : ∀ a b, m (op a b) = op' (m a) (m b)) (k : Nat) (f : Nat → α) (i : Nat) :
    m (rounds op k f i) = rounds op' k (fun j => m (f j)) i := by
  induction k generalizing f with
  | zero => rfl
  | succ k ih =>
      rw [rounds, ih, rounds]
      simp only [agree]

/-- Among the operands with the numbers from `first` on, `x` is the first one with the largest
key. -/
def Wins (key : α → Nat) (f : Nat → α) (first count : Nat) (x : α) : Prop :=
  ∃ j, first ≤ j ∧ j < first + count ∧ x = f j ∧
    (∀ m, first ≤ m → m < first + count → key (f m) ≤ key x) ∧
    ∀ m, first ≤ m → m < j → key (f m) < key x

/-- A comparator that takes the left operand unless the right one has a larger key. -/
theorem rounds_wins {op : α → α → α} {key : α → Nat}
    (left : ∀ a b, op a b = if key b ≤ key a then a else b) (k : Nat) (f : Nat → α) (i : Nat) :
    Wins key f (i * 2 ^ k) (2 ^ k) (rounds op k f i) := by
  induction k generalizing f with
  | zero =>
      refine ⟨i, by omega, by omega, rfl, ?_, ?_⟩
      · intro m lower upper
        have same : m = i := by omega
        rw [same]
        exact Nat.le_refl _
      · intro m lower upper
        omega
  | succ k ih =>
      obtain ⟨j, lower, upper, winner, most, strict⟩ :=
        ih fun i => op (f (2 * i)) (f (2 * i + 1))
      rw [← rounds] at winner most strict
      generalize rounds op (k + 1) f i = x at winner most strict ⊢
      have power : 2 ^ (k + 1) = 2 * 2 ^ k := by rw [Nat.pow_succ, Nat.mul_comm]
      have start : i * 2 ^ (k + 1) = 2 * (i * 2 ^ k) := by rw [power, Nat.mul_left_comm]
      have below : ∀ m, key (f m) ≤ key (op (f (2 * (m / 2))) (f (2 * (m / 2) + 1))) := by
        intro m
        rw [left]
        rcases Nat.mod_two_eq_zero_or_one m with even | odd
        · have index : 2 * (m / 2) = m := by omega
          rw [index]
          split <;> omega
        · have index : 2 * (m / 2) + 1 = m := by omega
          rw [index]
          split <;> omega
      have bounded : ∀ m, i * 2 ^ (k + 1) ≤ m → m < i * 2 ^ (k + 1) + 2 ^ (k + 1) →
          key (f m) ≤ key x := by
        intro m low high
        exact Nat.le_trans (below m) (most (m / 2) (by omega) (by omega))
      have earlier : ∀ m, i * 2 ^ (k + 1) ≤ m → m < 2 * j → key (f m) < key x := by
        intro m low high
        exact Nat.lt_of_le_of_lt (below m) (strict (m / 2) (by omega) (by omega))
      have winner : x = op (f (2 * j)) (f (2 * j + 1)) := winner
      rw [left] at winner
      by_cases first : key (f (2 * j + 1)) ≤ key (f (2 * j))
      · rw [if_pos first] at winner
        exact ⟨2 * j, by omega, by omega, winner, bounded, earlier⟩
      · rw [if_neg first] at winner
        refine ⟨2 * j + 1, by omega, by omega, winner, bounded, ?_⟩
        intro m low high
        by_cases neighbour : m = 2 * j
        · rw [neighbour, winner]
          omega
        · exact earlier m low (by omega)

end Rtl.Tournament
