import Mathlib.Data.Finset.Card
import Mathlib.Data.Finset.Range
import Mathlib.Data.Nat.ModEq
import Mathlib.Logic.Function.Basic

set_option autoImplicit false

/- Circular queues kept in an array of `n` slots: a read pointer, a count, and the
window of occupied slots that starts at the read pointer and may wrap around. -/
namespace Rtl.Ring

variable {α : Type}

/-- `$clog2`, the number of bits that count up to `n - 1`. -/
def clog2 (n : Nat) : Nat := if n ≤ 1 then 0 else Nat.log2 (n - 1) + 1

theorem clog2_two_pow (k : Nat) : clog2 (2 ^ k) = k := by
  cases k with
  | zero => rfl
  | succ k =>
      have positive : 0 < 2 ^ k := Nat.two_pow_pos k
      have large : ¬ 2 ^ (k + 1) ≤ 1 := by rw [Nat.pow_succ]; omega
      have log : Nat.log2 (2 ^ (k + 1) - 1) = k := by
        rw [Nat.log2_eq_iff (by rw [Nat.pow_succ]; omega)]
        constructor
        · rw [Nat.pow_succ]; omega
        · exact Nat.sub_lt (Nat.two_pow_pos _) Nat.one_pos
      simp only [clog2, large, ↓reduceIte, log]

theorem le_two_pow_clog2 (m : Nat) : m ≤ 2 ^ clog2 m := by
  unfold clog2
  split
  · assumption
  · have low : m - 1 < 2 ^ ((m - 1).log2 + 1) := Nat.lt_log2_self
    omega

/-- The width of a vector declared `[$clog2(n)-1:0]`: the range `[-1:0]` of a
one-slot array has two bits. -/
def ptrBits (n : Nat) : Nat := if clog2 n = 0 then 2 else clog2 n

/-- On a power of two from 2 on, a pointer wraps exactly at the end of the array. -/
theorem two_pow_ptrBits (n k : Nat) (power : n = 2 ^ k) (large : 2 ≤ n) :
    2 ^ ptrBits n = n := by
  have positive : k ≠ 0 := by
    rintro rfl
    simp only [power, Nat.pow_zero] at large
    omega
  simp only [ptrBits, power, clog2_two_pow, positive, ↓reduceIte]

/-- The `k`-th slot counted from `base`. -/
def slot (n base k : Nat) : Nat := (base + k) % n

/-- Slot `j` is one of the `count` slots that start at `base`. -/
def InWindow (n base count j : Nat) : Prop := ∃ k < count, slot n base k = j

instance decidableInWindow (n base count j : Nat) : Decidable (InWindow n base count j) :=
  inferInstanceAs (Decidable (∃ k < count, slot n base k = j))

/-- The stored values from `base` on, in queue order. -/
def contents (n : Nat) (mem : Nat → α) (base count : Nat) : List α :=
  (List.range count).map fun k => mem (slot n base k)

/-- A write to an array of `n` slots; a write past the end has no effect. -/
def write (n : Nat) (mem : Nat → α) (j : Nat) (x : α) : Nat → α :=
  if j < n then Function.update mem j x else mem

theorem write_of_lt (n : Nat) (mem : Nat → α) (j : Nat) (x : α) (inside : j < n) :
    write n mem j x = Function.update mem j x := by
  simp only [write, inside, ↓reduceIte]

theorem slot_lt (n base k : Nat) (positive : 0 < n) : slot n base k < n :=
  Nat.mod_lt _ positive

theorem slot_zero (n base : Nat) (inside : base < n) : slot n base 0 = base := by
  simp only [slot, Nat.add_zero, Nat.mod_eq_of_lt inside]

theorem slot_succ (n base k : Nat) : slot n ((base + 1) % n) k = slot n base (k + 1) := by
  simp only [slot, Nat.mod_add_mod]
  congr 1
  omega

/-- Fewer than `n` steps never return to the same slot. -/
theorem slot_injective (n base i j : Nat) (hi : i < n) (hj : j < n)
    (same : slot n base i = slot n base j) : i = j := by
  have congruent : base + i ≡ base + j [MOD n] := same
  have residues := Nat.ModEq.add_left_cancel' base congruent
  rwa [Nat.ModEq, Nat.mod_eq_of_lt hi, Nat.mod_eq_of_lt hj] at residues

theorem slot_eq_iff (n base i j : Nat) (hi : i < n) (hj : j < n) :
    slot n base i = slot n base j ↔ i = j :=
  ⟨slot_injective n base i j hi hj, congrArg _⟩

@[simp] theorem inWindow_zero (n base j : Nat) : ¬ InWindow n base 0 j := by
  rintro ⟨k, below, _⟩
  omega

theorem inWindow_slot (n base count k : Nat) (bounded : count ≤ n) (inside : k < n) :
    InWindow n base count (slot n base k) ↔ k < count := by
  constructor
  · rintro ⟨i, below, same⟩
    rw [slot_injective n base i k (by omega) inside same] at below
    exact below
  · exact fun below => ⟨k, below, rfl⟩

theorem inWindow_base (n base count : Nat) (inside : base < n) (occupied : 0 < count) :
    InWindow n base count base :=
  ⟨0, occupied, slot_zero n base inside⟩

/-- Pushing at the end of the window adds exactly one slot. -/
theorem inWindow_push (n base count j : Nat) :
    InWindow n base (count + 1) j ↔ InWindow n base count j ∨ j = slot n base count := by
  constructor
  · rintro ⟨k, below, same⟩
    by_cases last : k = count
    · exact Or.inr (last ▸ same.symm)
    · exact Or.inl ⟨k, by omega, same⟩
  · rintro (⟨k, below, same⟩ | rfl)
    · exact ⟨k, by omega, same⟩
    · exact ⟨count, by omega, rfl⟩

/-- Popping moves the base and drops exactly the base slot. -/
theorem inWindow_pop (n base count j : Nat) (inside : base < n) (bounded : count + 1 ≤ n) :
    InWindow n ((base + 1) % n) count j ↔ InWindow n base (count + 1) j ∧ j ≠ base := by
  constructor
  · rintro ⟨k, below, rfl⟩
    refine ⟨⟨k + 1, by omega, (slot_succ n base k).symm⟩, ?_⟩
    rw [slot_succ]
    nth_rewrite 2 [← slot_zero n base inside]
    rw [Ne, slot_eq_iff n base _ _ (by omega) (by omega)]
    omega
  · rintro ⟨⟨k, below, rfl⟩, other⟩
    cases k with
    | zero => exact absurd (slot_zero n base inside) other
    | succ k => exact ⟨k, by omega, slot_succ n base k⟩

@[simp] theorem contents_length (n : Nat) (mem : Nat → α) (base count : Nat) :
    (contents n mem base count).length = count := by
  simp only [contents, List.length_map, List.length_range]

theorem contents_succ (n : Nat) (mem : Nat → α) (base count : Nat) :
    contents n mem base (count + 1) =
      contents n mem base count ++ [mem (slot n base count)] := by
  simp only [contents, List.range_succ, List.map_append, List.map_cons, List.map_nil]

/-- Only the slots of the window matter. -/
theorem contents_congr (n : Nat) (mem mem' : Nat → α) (base count : Nat)
    (same : ∀ k < count, mem (slot n base k) = mem' (slot n base k)) :
    contents n mem base count = contents n mem' base count := by
  apply List.map_congr_left
  intro k member
  exact same k (List.mem_range.mp member)

/-- A write outside the window is not seen by the queue. -/
theorem contents_update_outside (n : Nat) (mem : Nat → α) (base count j : Nat) (x : α)
    (outside : ¬ InWindow n base count j) :
    contents n (Function.update mem j x) base count = contents n mem base count := by
  apply contents_congr
  intro k below
  exact Function.update_of_ne (fun same => outside ⟨k, below, same⟩) x mem

theorem contents_push (n : Nat) (mem : Nat → α) (base count : Nat) (x : α)
    (room : count < n) :
    contents n (Function.update mem (slot n base count) x) base (count + 1) =
      contents n mem base count ++ [x] := by
  have fresh : ¬ InWindow n base count (slot n base count) := by
    rw [inWindow_slot n base count count (by omega) room]
    omega
  rw [contents_succ, contents_update_outside n mem base count _ x fresh,
    Function.update_self]

theorem contents_pop (n : Nat) (mem : Nat → α) (base count : Nat) (inside : base < n) :
    contents n mem base (count + 1) =
      mem base :: contents n mem ((base + 1) % n) count := by
  simp only [contents, List.range_succ_eq_map, List.map_cons, List.map_map,
    slot_zero n base inside, slot_succ, Function.comp_def, Nat.succ_eq_add_one]

theorem contents_getElem? (n : Nat) (mem : Nat → α) (base count k : Nat) (below : k < count) :
    (contents n mem base count)[k]? = some (mem (slot n base k)) := by
  simp [contents, below]

theorem mem_contents (n : Nat) (mem : Nat → α) (base count : Nat) (x : α) :
    x ∈ contents n mem base count ↔ ∃ k < count, mem (slot n base k) = x := by
  simp only [contents, List.mem_map, List.mem_range]

/-- A window of `count` slots has `count` slots. -/
theorem card_window (n base count : Nat) (bounded : count ≤ n) (p : Nat → Bool)
    (marked : ∀ j < n, p j = true ↔ InWindow n base count j) :
    ((Finset.range n).filter fun j => p j = true).card = count := by
  have image : ((Finset.range n).filter fun j => p j = true) =
      (Finset.range count).image (slot n base) := by
    ext j
    simp only [Finset.mem_filter, Finset.mem_range, Finset.mem_image]
    constructor
    · rintro ⟨inside, set⟩
      exact (marked j inside).mp set
    · rintro ⟨k, below, rfl⟩
      have inside := slot_lt n base k (by omega)
      exact ⟨inside, (marked _ inside).mpr ⟨k, below, rfl⟩⟩
  rw [image, Finset.card_image_of_injOn, Finset.card_range]
  intro i hi j hj same
  simp only [Finset.coe_range, Set.mem_Iio] at hi hj
  exact slot_injective n base i j (by omega) (by omega) same

end Rtl.Ring
