import Mathlib.Algebra.Group.Nat.Defs

set_option autoImplicit false

/- The Sv39 page table walk over a memory of page table entries. Nothing here depends on a
particular walker. -/
namespace Sv39

/-! Members of a page table entry. -/

abbrev Pte := BitVec 64

namespace Pte

def v (p : Pte) : Bool := p.getLsbD 0
def r (p : Pte) : Bool := p.getLsbD 1
def w (p : Pte) : Bool := p.getLsbD 2
def x (p : Pte) : Bool := p.getLsbD 3
def u (p : Pte) : Bool := p.getLsbD 4
def g (p : Pte) : Bool := p.getLsbD 5
def a (p : Pte) : Bool := p.getLsbD 6
def d (p : Pte) : Bool := p.getLsbD 7
def ppn (p : Pte) : BitVec 44 := p.extractLsb' 10 44

/-- Invalid, or writable without being readable. -/
def invalid (p : Pte) : Bool := !p.v || (!p.r && p.w)

/-- The entry maps a page; otherwise it points to the next table. -/
def isLeaf (p : Pte) : Bool := p.r || p.x

/-- Mark the mapping as global. -/
def setG (p : Pte) (global : Bool) : Pte := p ||| (BitVec.ofBool global).setWidth 64 <<< 5

theorem getLsbD_setG (p : Pte) (global : Bool) (i : Nat) :
    (p.setG global).getLsbD i = (p.getLsbD i || (decide (i = 5) && global)) := by
  have bit : ((BitVec.ofBool global).setWidth 64 <<< 5).getLsbD i = (decide (i = 5) && global) := by
    by_cases here : i = 5
    · subst here
      cases global <;> rfl
    · rw [decide_eq_false here, Bool.false_and, BitVec.getLsbD_shiftLeft, BitVec.getLsbD_setWidth,
        BitVec.getLsbD_ofBool]
      by_cases low : i < 5
      · simp [low]
      · have high : ¬ i - 5 = 0 := by omega
        simp [high]
  rw [setG, BitVec.getLsbD_or, bit]

/-- The entry's own global bit is already there. -/
theorem setG_own (p : Pte) (global : Bool) : p.setG (global || p.g) = p.setG global := by
  apply BitVec.eq_of_getLsbD_eq
  intro i _
  rw [getLsbD_setG, getLsbD_setG]
  by_cases here : i = 5
  · subst here
    have own : p.getLsbD 5 = p.g := rfl
    rw [own]
    cases global <;> cases p.g <;> rfl
  · rw [decide_eq_false here, Bool.false_and, Bool.false_and]

end Pte

/-- The kinds of memory accesses. -/
inductive Access where
  | fetch | load | store
  deriving DecidableEq, Inhabited

/-- The entry permits the access, apart from the privilege level. -/
def permits (mxr : Bool) : Access → Pte → Bool
  | .fetch, p => p.x && p.a
  | .load, p => (p.r || (p.x && mxr)) && p.a
  | .store, p => p.w && p.a && p.d

/-- Part `i` of the virtual page number. -/
def vpn (va : BitVec 64) (i : Nat) : BitVec 9 := va.extractLsb' (12 + 9 * i) 9

/-- The address of the entry for `va` in the table of level `i` at page `a`. -/
def pteAddress (a : BitVec 44) (va : BitVec 64) (i : Nat) : BitVec 56 := a ++ vpn va i ++ 0#3

/-- A superpage of level `i` does not start at a multiple of its size. -/
def misaligned (p : Pte) (i : Nat) : Bool := p.ppn.toNat % 2 ^ (9 * i) != 0

/-- The entry that maps a page, the level it was found at, and whether the mapping is global. -/
structure Leaf where
  pte : Pte
  level : Nat
  global : Bool
  deriving DecidableEq

/-- The entry with the global bit of the whole path. -/
def Leaf.content (l : Leaf) : Pte := l.pte.setG l.global

section Walk

variable (mem : BitVec 56 → Pte) (va : BitVec 64)

/-- Look for the leaf from level `i` down. -/
def find : Nat → BitVec 44 → Bool → Option Leaf
  | 0, a, g =>
      let p := mem (pteAddress a va 0)
      if p.invalid || !p.isLeaf || misaligned p 0 then none else some ⟨p, 0, g || p.g⟩
  | i + 1, a, g =>
      let p := mem (pteAddress a va (i + 1))
      if p.invalid then none
      else if p.isLeaf then
        if misaligned p (i + 1) then none else some ⟨p, i + 1, g || p.g⟩
      else find i p.ppn (g || p.g)

/-- The addresses that the walk reads from level `i` down. -/
def reads : Nat → BitVec 44 → List (BitVec 56)
  | 0, a => [pteAddress a va 0]
  | i + 1, a =>
      let p := mem (pteAddress a va (i + 1))
      pteAddress a va (i + 1) ::
        if p.invalid || p.isLeaf then [] else reads i p.ppn

/-- The translation of `va` with the root table at page `root`. -/
def lookup (root : BitVec 44) : Option Leaf := find mem va 2 root false

/-- The walk for an access. It faults where there is no leaf or the leaf does not permit it. -/
def walk (mxr : Bool) (kind : Access) (root : BitVec 44) : Option Leaf :=
  (lookup mem va root).filter (fun l => permits mxr kind l.pte)

end Walk

section Lemmas

variable {mem : BitVec 56 → Pte} {va : BitVec 64}

/-- One step of the walk. -/
theorem find_eq (i : Nat) (a : BitVec 44) (g : Bool) :
    find mem va i a g =
      let p := mem (pteAddress a va i)
      if p.invalid then none
      else if p.isLeaf then if misaligned p i then none else some ⟨p, i, g || p.g⟩
      else match i with
        | 0 => none
        | j + 1 => find mem va j p.ppn (g || p.g) := by
  cases i with
  | zero =>
      rw [find]
      generalize mem (pteAddress a va 0) = p
      dsimp only
      cases p.invalid <;> cases p.isLeaf <;> rfl
  | succ j => rw [find]

theorem reads_eq (i : Nat) (a : BitVec 44) :
    reads mem va i a =
      let p := mem (pteAddress a va i)
      pteAddress a va i ::
        if p.invalid || p.isLeaf then []
        else match i with
          | 0 => []
          | j + 1 => reads mem va j p.ppn := by
  cases i with
  | zero => simp [reads]
  | succ j => rw [reads]

theorem reads_length (i : Nat) (a : BitVec 44) : (reads mem va i a).length ≤ i + 1 := by
  induction i generalizing a with
  | zero => exact Nat.le_refl 1
  | succ i ih =>
      rw [reads]
      split
      · exact Nat.le_add_left 1 (i + 1)
      · exact Nat.succ_le_succ (ih _)

/-- A leaf is found at or below the level of the table. -/
theorem find_level {i : Nat} {a : BitVec 44} {g : Bool} {l : Leaf}
    (found : find mem va i a g = some l) : l.level ≤ i := by
  induction i generalizing a g with
  | zero =>
      rw [find] at found
      split at found
      · cases found
      · cases found
        exact Nat.le_refl 0
  | succ i ih =>
      rw [find] at found
      split at found
      · cases found
      · split at found
        · split at found
          · cases found
          · cases found
            exact Nat.le_refl (i + 1)
        · exact Nat.le_succ_of_le (ih found)

/-- Every entry found is a valid leaf. -/
theorem find_isLeaf {i : Nat} {a : BitVec 44} {g : Bool} {l : Leaf}
    (found : find mem va i a g = some l) : l.pte.invalid = false ∧ l.pte.isLeaf = true := by
  induction i generalizing a g with
  | zero =>
      rw [find] at found
      split at found
      · cases found
      · rename_i fine
        cases found
        simp only [Bool.or_eq_true, Bool.not_eq_true', not_or, Bool.not_eq_true,
          Bool.not_eq_false] at fine
        exact fine.1
  | succ i ih =>
      rw [find] at found
      split at found
      · cases found
      · rename_i valid
        split at found
        · rename_i leaf
          split at found
          · cases found
          · cases found
            exact ⟨Bool.eq_false_iff.mpr valid, leaf⟩
        · exact ih found

/-- All addresses of a page have the same translation. -/
theorem find_same_page {i : Nat} {a : BitVec 44} {g : Bool} {l : Leaf} {other : BitVec 64}
    (found : find mem va i a g = some l)
    (same : ∀ j, l.level ≤ j → j ≤ i → vpn va j = vpn other j) :
    find mem other i a g = some l := by
  induction i generalizing a g with
  | zero =>
      have level := find_level found
      have address : pteAddress a other 0 = pteAddress a va 0 := by
        rw [pteAddress, pteAddress, same 0 level (Nat.le_refl 0)]
      rw [find, address]
      exact found
  | succ i ih =>
      have level := find_level found
      have address : pteAddress a other (i + 1) = pteAddress a va (i + 1) := by
        rw [pteAddress, pteAddress, same (i + 1) level (Nat.le_refl _)]
      rw [find, address]
      rw [find] at found
      split at found
      · cases found
      · rename_i valid
        rw [if_neg valid]
        split at found
        · rename_i leaf
          rw [if_pos leaf]
          exact found
        · rename_i pointer
          rw [if_neg pointer]
          exact ih found (fun j low high => same j low (Nat.le_succ_of_le high))

end Lemmas

end Sv39
