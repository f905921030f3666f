import Ariane.Mmu
import Ariane.PtwWalk

set_option autoImplicit false

/- The contents of the TLBs: every entry is a current translation, and no two entries match the
same address. -/
namespace Ariane.Tlb

open Sv39 (Pte Leaf vpn)
open Ptw (Task TlbUpdate)

/-- The page tables of every address space. -/
structure Tables (w : Nat) where
  mem : BitVec 56 → Pte
  root : BitVec w → BitVec 44

/-- The current translation. -/
def Tables.lookup {w : Nat} (t : Tables w) (asid : BitVec w) (va : BitVec 64) : Option Leaf :=
  Sv39.lookup t.mem va (t.root asid)

section Tags

variable {w : Nat}

/-- Part `j` of the virtual page number of a tag. -/
def Tag.vpn (t : Tag w) : Nat → BitVec 9
  | 2 => t.vpn2
  | 1 => t.vpn1
  | _ => t.vpn0

/-- The page size flags of a tag belong to a leaf of this level. -/
def Tag.Sized (t : Tag w) (level : Nat) : Prop :=
  t.is2M = (level == 1) ∧ t.is1G = (level == 2)

theorem Tag.hits_iff {t : Tag w} {level : Nat} (bound : level ≤ 2) (sized : t.Sized level)
    (asid : BitVec w) (va : BitVec 64) :
    t.hits asid va = true ↔
      t.valid = true ∧ asid = t.asid ∧ ∀ j, level ≤ j → j ≤ 2 → Sv39.vpn va j = t.vpn j := by
  have parts : (∀ j, level ≤ j → j ≤ 2 → Sv39.vpn va j = t.vpn j) ↔
      (level ≤ 2 → va.extractLsb' 30 9 = t.vpn2) ∧ (level ≤ 1 → va.extractLsb' 21 9 = t.vpn1) ∧
        (level ≤ 0 → va.extractLsb' 12 9 = t.vpn0) := by
    constructor
    · intro all
      exact ⟨fun low => all 2 low (by omega), fun low => all 1 low (by omega),
        fun low => all 0 low (by omega)⟩
    · intro ⟨two, one, zero⟩ j low high
      have split : j = 0 ∨ j = 1 ∨ j = 2 := by omega
      rcases split with rfl | rfl | rfl
      · exact zero low
      · exact one low
      · exact two low
  rw [parts, hits, sized.1, sized.2]
  simp only [Bool.and_eq_true, Bool.or_eq_true, beq_iff_eq]
  have split : level = 0 ∨ level = 1 ∨ level = 2 := by omega
  rcases split with rfl | rfl | rfl
  · simp [and_assoc]
  · simp [and_assoc]
  · simp [and_assoc]

/-- The tag of an installed leaf belongs to the page of the address. -/
theorem sized_update (k : Task w) (l : Leaf) : (tagOf (k.update l)).Sized l.level := ⟨rfl, rfl⟩

theorem vpn_update (k : Task w) (l : Leaf) {j : Nat} (bound : j ≤ 2) :
    (tagOf (k.update l)).vpn j = Sv39.vpn k.va j := by
  have part : ∀ lo, lo + 9 ≤ 27 →
      (k.va.extractLsb' 12 27).extractLsb' lo 9 = k.va.extractLsb' (12 + lo) 9 := by
    intro lo inside
    apply BitVec.eq_of_getLsbD_eq
    intro i low
    have within : lo + i < 27 := by omega
    rw [BitVec.getLsbD_extractLsb', BitVec.getLsbD_extractLsb', BitVec.getLsbD_extractLsb',
      decide_eq_true within, Bool.true_and, Nat.add_assoc]
  match j, bound with
  | 0, _ => exact part 0 (by decide)
  | 1, _ => exact part 9 (by decide)
  | 2, _ => exact part 18 (by decide)

end Tags

section Lookup

variable {w : Nat} {t : Tables w} {asid : BitVec w} {va other : BitVec 64} {l : Leaf}

theorem Tables.level (found : t.lookup asid va = some l) : l.level ≤ 2 := Sv39.find_level found

theorem Tables.same_page (found : t.lookup asid va = some l)
    (same : ∀ j, l.level ≤ j → j ≤ 2 → vpn va j = vpn other j) : t.lookup asid other = some l :=
  Sv39.find_same_page found same

end Lookup

/-- Entry `j` is a current translation of every address that it matches. -/
def EntrySound {n w : Nat} (q : State n w) (t : Tables w) (j : Fin n) : Prop :=
  ∀ asid va, (q.tags j).hits asid va = true →
    ∃ l, t.lookup asid va = some l ∧ q.content j = l.content ∧ (q.tags j).Sized l.level

/-- No two entries match the same address. -/
def Unique {n w : Nat} (q : State n w) : Prop :=
  ∀ asid va j k, (q.tags j).hits asid va = true → (q.tags k).hits asid va = true → j = k

/-- What holds between two cycles. -/
structure Sound {n w : Nat} (q : State n w) (t : Tables w) : Prop where
  entries : ∀ j, EntrySound q t j
  unique : Unique q

section Steps

variable {n w : Nat} {q : State n w} {t : Tables w} {i : Input w}

theorem reset_sound (t : Tables w) : Sound (reset : State n w) t := by
  have none : ∀ (asid : BitVec w) (va : BitVec 64) (j : Fin n),
      ¬ ((reset : State n w).tags j).hits asid va = true := by
    intro asid va j hit
    exact Bool.false_ne_true hit
  exact ⟨fun j asid va hit => absurd hit (none asid va j),
    fun asid va j _ hit => absurd hit (none asid va j)⟩

theorem Sound.idle (sound : Sound q t) (noFlush : i.flush = false)
    (noUpdate : i.update.valid = false) : Sound (next q i) t := by
  have tags : (next q i).tags = q.tags := by
    funext j
    show tagNext q i j = q.tags j
    rw [tagNext, noFlush, noUpdate]
    rfl
  have content : (next q i).content = q.content := by
    funext j
    show contentNext q i j = q.content j
    rw [contentNext, noFlush, noUpdate]
    rfl
  refine ⟨?_, ?_⟩
  · intro j asid va hit
    rw [tags] at hit ⊢
    rw [content]
    exact sound.entries j asid va hit
  · intro asid va j k first second
    rw [tags] at first second
    exact sound.unique asid va j k first second

/-- An entry that survives a flush was there before. -/
theorem hits_of_flush (flush : i.flush = true) {j : Fin n} {asid : BitVec w} {va : BitVec 64}
    (hit : ((next q i).tags j).hits asid va = true) :
    (q.tags j).hits asid va = true ∧ (next q i).tags j = q.tags j ∧ i.luAsid ≠ 0 ∧
      asid ≠ i.luAsid := by
  have step : (next q i).tags j = tagNext q i j := rfl
  rw [tagNext, if_pos flush] at step
  have alive : ((next q i).tags j).valid = true ∧ asid = ((next q i).tags j).asid := by
    rw [Tag.hits] at hit
    simp only [Bool.and_eq_true, beq_iff_eq] at hit
    exact hit.1.1
  split at step
  · rw [step] at alive
    exact absurd alive.1 Bool.false_ne_true
  · rename_i some
    split at step
    · rw [step] at alive
      exact absurd alive.1 Bool.false_ne_true
    · rename_i other
      rw [step] at hit alive
      refine ⟨hit, step, ?_, ?_⟩
      · intro zero
        exact some (beq_iff_eq.mpr zero)
      · intro same
        exact other (beq_iff_eq.mpr (same.symm.trans alive.2))

/-- A flush keeps the TLB sound for tables that changed only in the flushed address spaces. -/
theorem Sound.flush (sound : Sound q t) (flush : i.flush = true) {t' : Tables w}
    (same : i.luAsid ≠ 0 → ∀ asid va, asid ≠ i.luAsid → t'.lookup asid va = t.lookup asid va) :
    Sound (next q i) t' := by
  have content : (next q i).content = q.content := by
    funext j
    show contentNext q i j = q.content j
    rw [contentNext, if_pos flush]
  refine ⟨?_, ?_⟩
  · intro j asid va hit
    obtain ⟨old, tag, some, other⟩ := hits_of_flush flush hit
    obtain ⟨l, found, entry, sized⟩ := sound.entries j asid va old
    rw [tag, content, same some asid va other]
    exact ⟨l, found, entry, sized⟩
  · intro asid va j k first second
    exact sound.unique asid va j k (hits_of_flush flush first).1 (hits_of_flush flush second).1

theorem next_update {u : TlbUpdate w} (noFlush : i.flush = false) (update : i.update = u)
    (valid : u.valid = true) (j : Fin n) :
    ((next q i).tags j = if replaceEn q j then tagOf u else q.tags j) ∧
      (next q i).content j = if replaceEn q j then u.content else q.content j := by
  constructor
  · show tagNext q i j = _
    rw [tagNext, noFlush, update, valid]
    rfl
  · show contentNext q i j = _
    rw [contentNext, noFlush, update, valid]
    rfl

/-- The entry of a walk after a miss keeps the TLB sound. -/
theorem Sound.install (sound : Sound q t) (noFlush : i.flush = false) {k : Task w} {l : Leaf}
    (update : i.update = k.update l) (found : t.lookup k.asid k.va = some l)
    (missing : ∀ j, (q.tags j).hits k.asid k.va = false) : Sound (next q i) t := by
  have bound := Tables.level found
  have written := @next_update _ _ q _ _ noFlush update rfl
  -- the new entry translates its whole page
  have fresh : ∀ asid va, (tagOf (k.update l)).hits asid va = true →
      asid = k.asid ∧ (∀ j, l.level ≤ j → j ≤ 2 → vpn va j = vpn k.va j) ∧
        t.lookup asid va = some l := by
    intro asid va hit
    obtain ⟨_, same, page⟩ := (Tag.hits_iff bound (sized_update k l) asid va).mp hit
    have pages : ∀ j, l.level ≤ j → j ≤ 2 → vpn va j = vpn k.va j := by
      intro j low high
      rw [page j low high, vpn_update k l high]
    have space : asid = k.asid := same
    refine ⟨space, pages, ?_⟩
    rw [space]
    exact Tables.same_page found (fun j low high => (pages j low high).symm)
  -- an old entry for the same address would have hit
  have apart : ∀ asid va j, (tagOf (k.update l)).hits asid va = true →
      ¬ (q.tags j).hits asid va = true := by
    intro asid va j new old
    obtain ⟨space, pages, current⟩ := fresh asid va new
    obtain ⟨l', found', _, sized⟩ := sound.entries j asid va old
    have same : l' = l := Option.some.inj (found'.symm.trans current)
    rw [same] at sized
    obtain ⟨valid, tagSpace, tagPages⟩ := (Tag.hits_iff bound sized asid va).mp old
    have hit : (q.tags j).hits k.asid k.va = true := by
      refine (Tag.hits_iff bound sized k.asid k.va).mpr ⟨valid, space ▸ tagSpace, ?_⟩
      intro m low high
      rw [← pages m low high, tagPages m low high]
    rw [missing j] at hit
    exact Bool.false_ne_true hit
  refine ⟨?_, ?_⟩
  · intro j asid va hit
    obtain ⟨tag, content⟩ := written j
    rw [tag] at hit ⊢
    rw [content]
    split at hit
    · rename_i replaced
      rw [if_pos replaced, if_pos replaced]
      exact ⟨l, (fresh asid va hit).2.2, rfl, sized_update k l⟩
    · rename_i kept
      rw [if_neg kept, if_neg kept]
      exact sound.entries j asid va hit
  · intro asid va j m first second
    rw [(written j).1] at first
    rw [(written m).1] at second
    split at first
    · rename_i replaced
      split at second
      · rename_i also
        exact replaceEn_unique replaced also
      · exact absurd second (apart asid va m first)
    · split at second
      · exact absurd first (apart asid va j second)
      · exact sound.unique asid va j m first second

theorem Sound.lookup (sound : Sound q t) {asid : BitVec w} {va : BitVec 64}
    (hit : (translation q asid va).hit = true) :
    ∃ l, t.lookup asid va = some l ∧ (translation q asid va).content = l.content ∧
      (translation q asid va).is2M = (l.level == 1) ∧
      (translation q asid va).is1G = (l.level == 2) := by
  obtain ⟨j, entry⟩ := hits_of_hit hit
  have result := translation_hit entry (fun k other => sound.unique asid va k j other entry)
  obtain ⟨l, found, content, sized⟩ := sound.entries j asid va entry
  refine ⟨l, found, ?_⟩
  rw [result, sized.1, sized.2, content]
  by_cases giga : l.level = 2
  · rw [giga]
    exact ⟨rfl, rfl, rfl⟩
  · have small : (l.level == 2) = false := beq_eq_false_iff_ne.mpr giga
    rw [small]
    exact ⟨rfl, rfl, rfl⟩

end Steps

end Ariane.Tlb
