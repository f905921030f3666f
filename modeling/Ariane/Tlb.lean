import Ariane.Ptw
import Mathlib.Data.List.FinRange

set_option autoImplicit false

/- `tlb.sv`: a fully associative TLB with `n` entries. -/
namespace Ariane.Tlb

open Sv39 (Pte)
open Ptw (TlbUpdate)

/-- A tag of `tags_q`. -/
structure Tag (w : Nat) where
  asid : BitVec w := 0
  vpn2 : BitVec 9 := 0
  vpn1 : BitVec 9 := 0
  vpn0 : BitVec 9 := 0
  is2M : Bool := false
  is1G : Bool := false
  valid : Bool := false
  deriving DecidableEq, Inhabited

/-- The registers. -/
structure State (n w : Nat) where
  tags : Fin n → Tag w := fun _ => {}
  content : Fin n → Pte := fun _ => 0
  plruTree : Nat → Bool := fun _ => false

/-- The inputs of one cycle. -/
structure Input (w : Nat) where
  flush : Bool := false
  update : TlbUpdate w := {}
  luAccess : Bool := false
  luAsid : BitVec w := 0
  luVaddr : BitVec 64 := 0

/-- What a lookup returns. -/
structure Lookup where
  content : Pte := 0
  is2M : Bool := false
  is1G : Bool := false
  hit : Bool := false
  deriving DecidableEq, Inhabited

def reset {n w : Nat} : State n w := {}

section Block

variable {n w : Nat}

/-- `lu_hit[i]`. -/
def Tag.hits (t : Tag w) (asid : BitVec w) (va : BitVec 64) : Bool :=
  t.valid && asid == t.asid && va.extractLsb' 30 9 == t.vpn2 &&
    (t.is1G || (va.extractLsb' 21 9 == t.vpn1 && (t.is2M || va.extractLsb' 12 9 == t.vpn0)))

/-- One round of the loop in `translation`. -/
def matchEntry (q : State n w) (asid : BitVec w) (va : BitVec 64) (o : Lookup) (i : Fin n) :
    Lookup :=
  if (q.tags i).hits asid va then
    if (q.tags i).is1G then { o with is1G := true, content := q.content i, hit := true }
    else { o with is2M := (q.tags i).is2M, content := q.content i, hit := true }
  else o

/-- `translation`. -/
def translation (q : State n w) (asid : BitVec w) (va : BitVec 64) : Lookup :=
  (List.finRange n).foldl (matchEntry q asid va) {}

/-- `$clog2`. -/
def clog2 (m : Nat) : Nat := if m ≤ 1 then 0 else (m - 1).log2 + 1

/-- The node that entry `i` passes at level `lvl` of the tree. -/
def node (n lvl i : Nat) : Nat := 2 ^ lvl - 1 + i >>> (clog2 n - lvl)

/-- The direction that entry `i` takes at level `lvl`. -/
def direction (n lvl i : Nat) : Bool := (i >>> (clog2 n - lvl - 1)) % 2 == 1

/-- A hit of entry `i` turns the nodes on its path away. -/
def touch (n : Nat) (tree : Nat → Bool) (i : Nat) : Nat → Bool :=
  (List.range (clog2 n)).foldl
    (fun tree lvl => fun k => if k = node n lvl i then !direction n lvl i else tree k) tree

/-- `plru_tree_n`. -/
def plruNext (q : State n w) (i : Input w) : Nat → Bool :=
  (List.finRange n).foldl
    (fun tree j =>
      if (q.tags j).hits i.luAsid i.luVaddr && i.luAccess then touch n tree j else tree)
    q.plruTree

/-- `replace_en[i]`. -/
def replaceEn (q : State n w) (i : Fin n) : Bool :=
  (List.range (clog2 n)).all (fun lvl => q.plruTree (node n lvl i) == direction n lvl i)

/-- The tag of an update. -/
def tagOf (u : TlbUpdate w) : Tag w where
  asid := u.asid
  vpn2 := u.vpn.extractLsb' 18 9
  vpn1 := u.vpn.extractLsb' 9 9
  vpn0 := u.vpn.extractLsb' 0 9
  is1G := u.is1G
  is2M := u.is2M
  valid := true

/-- `update_flush`: a flush has precedence over an update. -/
def tagNext (q : State n w) (i : Input w) (j : Fin n) : Tag w :=
  if i.flush then
    if i.luAsid == 0 then { q.tags j with valid := false }
    else if i.luAsid == (q.tags j).asid then { q.tags j with valid := false }
    else q.tags j
  else if i.update.valid && replaceEn q j then tagOf i.update
  else q.tags j

def contentNext (q : State n w) (i : Input w) (j : Fin n) : Pte :=
  if i.flush then q.content j
  else if i.update.valid && replaceEn q j then i.update.content
  else q.content j

/-- All registers after one cycle. -/
def next (q : State n w) (i : Input w) : State n w where
  tags := tagNext q i
  content := contentNext q i
  plruTree := plruNext q i

end Block

section Replace

theorem le_two_pow_clog2 (m : Nat) : m ≤ 2 ^ clog2 m := by
  unfold clog2
  split
  · assumption
  · have low : m - 1 < 2 ^ ((m - 1).log2 + 1) := Nat.lt_log2_self
    omega

/-- The descent from the root: what the tree points to at level `lvl`. -/
def pointer (tree : Nat → Bool) : Nat → Nat
  | 0 => 0
  | lvl + 1 => 2 * pointer tree lvl + (tree (2 ^ lvl - 1 + pointer tree lvl)).toNat

/-- The leaf that the tree points to. -/
def victim (n : Nat) (tree : Nat → Bool) : Nat := pointer tree (clog2 n)

theorem pointer_lt (tree : Nat → Bool) (lvl : Nat) : pointer tree lvl < 2 ^ lvl := by
  induction lvl with
  | zero => exact Nat.one_pos
  | succ lvl ih =>
      have bit := Bool.toNat_le (tree (2 ^ lvl - 1 + pointer tree lvl))
      rw [pointer, Nat.pow_succ]
      omega

/-- The levels of the descent are the prefixes of the leaf. -/
theorem pointer_shift (tree : Nat → Bool) (lvl d : Nat) :
    pointer tree (lvl + d) >>> d = pointer tree lvl := by
  induction d with
  | zero => rfl
  | succ d ih =>
      have bit := Bool.toNat_le (tree (2 ^ (lvl + d) - 1 + pointer tree (lvl + d)))
      have half : pointer tree (lvl + d + 1) >>> 1 = pointer tree (lvl + d) := by
        rw [pointer, Nat.shiftRight_eq_div_pow]
        omega
      rw [← Nat.add_assoc, Nat.add_comm d 1, Nat.shiftRight_add, half, ih]

theorem victim_path (n : Nat) (tree : Nat → Bool) {lvl : Nat} (bound : lvl < clog2 n) :
    tree (node n lvl (victim n tree)) = direction n lvl (victim n tree) := by
  have here := pointer_shift tree lvl (clog2 n - lvl)
  have below := pointer_shift tree (lvl + 1) (clog2 n - lvl - 1)
  rw [show lvl + (clog2 n - lvl) = clog2 n by omega] at here
  rw [show lvl + 1 + (clog2 n - lvl - 1) = clog2 n by omega] at below
  unfold node direction victim
  rw [here, below, pointer]
  cases tree (2 ^ lvl - 1 + pointer tree lvl) with
  | true => simp
  | false => simp

/-- No other leaf lies on the side of every node of its path. -/
theorem eq_victim {n j : Nat} {tree : Nat → Bool} (small : j < 2 ^ clog2 n)
    (path : ∀ lvl, lvl < clog2 n → tree (node n lvl j) = direction n lvl j) :
    j = victim n tree := by
  have prefixes : ∀ lvl, lvl ≤ clog2 n → j >>> (clog2 n - lvl) = pointer tree lvl := by
    intro lvl
    induction lvl with
    | zero =>
        intro _
        rw [Nat.sub_zero, Nat.shiftRight_eq_div_pow, Nat.div_eq_of_lt small, pointer]
    | succ lvl ih =>
        intro bound
        have above := ih (Nat.le_of_succ_le bound)
        have side := path lvl bound
        rw [node, above, direction] at side
        have shift : clog2 n - lvl = clog2 n - (lvl + 1) + 1 := by omega
        rw [shift, Nat.shiftRight_succ] at above
        rw [pointer, side, Nat.sub_sub]
        cases odd : j >>> (clog2 n - (lvl + 1)) % 2 == 1 with
        | true =>
            rw [beq_iff_eq] at odd
            rw [Bool.toNat_true]
            omega
        | false =>
            rw [beq_eq_false_iff_ne] at odd
            rw [Bool.toNat_false]
            omega
  have all := prefixes (clog2 n) (Nat.le_refl _)
  rwa [Nat.sub_self, Nat.shiftRight_zero] at all

theorem replaceEn_iff {n w : Nat} {q : State n w} {j : Fin n} :
    replaceEn q j = true ↔ j.val = victim n q.plruTree := by
  simp only [replaceEn, List.all_eq_true, List.mem_range, beq_iff_eq]
  constructor
  · exact eq_victim (Nat.lt_of_lt_of_le j.isLt (le_two_pow_clog2 n))
  · intro here lvl bound
    rw [here]
    exact victim_path n q.plruTree bound

theorem replaceEn_unique {n w : Nat} {q : State n w} {i j : Fin n}
    (first : replaceEn q i = true) (second : replaceEn q j = true) : i = j :=
  Fin.ext ((replaceEn_iff.mp first).trans (replaceEn_iff.mp second).symm)

end Replace

section Lookup

/-- A loop in which only one round acts. -/
theorem foldl_single {α β : Type} {f : β → α → β} {x : α} {l : List α} (b : β)
    (once : l.Nodup) (mem : x ∈ l) (idle : ∀ y ∈ l, y ≠ x → ∀ c, f c y = c) :
    l.foldl f b = f b x := by
  have skip : ∀ (l : List α) (c : β), (∀ y ∈ l, ∀ c, f c y = c) → l.foldl f c = c := by
    intro l
    induction l with
    | nil => exact fun _ _ => rfl
    | cons y l ih =>
        intro c quiet
        rw [List.foldl_cons, quiet y List.mem_cons_self]
        exact ih c (fun z inside => quiet z (List.mem_cons_of_mem y inside))
  induction l generalizing b with
  | nil => cases mem
  | cons y l ih =>
      obtain ⟨fresh, rest⟩ := List.nodup_cons.mp once
      rw [List.foldl_cons]
      by_cases here : y = x
      · subst here
        apply skip
        intro z inside
        apply idle z (List.mem_cons_of_mem y inside)
        intro same
        exact fresh (same ▸ inside)
      · rw [idle y List.mem_cons_self here]
        rcases List.mem_cons.mp mem with same | inside
        · exact absurd same.symm here
        · exact ih b rest inside (fun z member => idle z (List.mem_cons_of_mem y member))

variable {n w : Nat} {q : State n w} {asid : BitVec w} {va : BitVec 64}

theorem translation_miss (none : ∀ j, (q.tags j).hits asid va = false) :
    translation q asid va = {} := by
  have idle : ∀ (l : List (Fin n)) (o : Lookup), l.foldl (matchEntry q asid va) o = o := by
    intro l
    induction l with
    | nil => exact fun _ => rfl
    | cons j l ih =>
        intro o
        rw [List.foldl_cons, matchEntry, none j, if_neg Bool.false_ne_true]
        exact ih o
  exact idle _ _

theorem translation_hit {j : Fin n} (hit : (q.tags j).hits asid va = true)
    (unique : ∀ k, (q.tags k).hits asid va = true → k = j) :
    translation q asid va =
      if (q.tags j).is1G then { is1G := true, content := q.content j, hit := true }
      else { is2M := (q.tags j).is2M, content := q.content j, hit := true } := by
  have single := @foldl_single _ _ (matchEntry q asid va) j _ {} (List.nodup_finRange n)
    (List.mem_finRange j) (by
      intro k _ other c
      have missed : (q.tags k).hits asid va = false :=
        Bool.eq_false_iff.mpr (fun hits => other (unique k hits))
      rw [matchEntry, missed, if_neg Bool.false_ne_true])
  rw [translation, single, matchEntry, if_pos hit]

theorem hits_of_miss (miss : (translation q asid va).hit = false) (j : Fin n) :
    (q.tags j).hits asid va = false := by
  have grows : ∀ (l : List (Fin n)) (o : Lookup),
      (l.foldl (matchEntry q asid va) o).hit = (o.hit || l.any (fun k => (q.tags k).hits asid va)) := by
    intro l
    induction l with
    | nil => exact fun o => (Bool.or_false o.hit).symm
    | cons k l ih =>
        intro o
        rw [List.foldl_cons, ih, List.any_cons, matchEntry]
        cases (q.tags k).hits asid va with
        | false => rw [if_neg Bool.false_ne_true, Bool.false_or]
        | true =>
            rw [if_pos rfl, Bool.true_or, Bool.or_true]
            split <;> rfl
  rw [translation, grows, Bool.false_or, List.any_eq_false] at miss
  exact Bool.eq_false_iff.mpr (miss j (List.mem_finRange j))

theorem hits_of_hit (hit : (translation q asid va).hit = true) :
    ∃ j, (q.tags j).hits asid va = true := by
  apply Classical.byContradiction
  intro none
  have quiet : ∀ j, (q.tags j).hits asid va = false :=
    fun j => Bool.eq_false_iff.mpr (fun hits => none ⟨j, hits⟩)
  rw [translation_miss quiet] at hit
  exact Bool.false_ne_true hit

end Lookup

section Flush

variable {n w : Nat} (q : State n w) (i : Input w)

/-- A flush without an address space identifier empties the TLB, whatever is updated. -/
theorem flush_all (flush : i.flush = true) (all : i.luAsid = 0) (j : Fin n) :
    ((next q i).tags j).valid = false := by
  show (tagNext q i j).valid = false
  rw [tagNext, if_pos flush, all, if_pos (beq_self_eq_true _)]

/-- A flush with an identifier removes the entries of that address space. -/
theorem flush_asid (flush : i.flush = true) (j : Fin n)
    (same : ((next q i).tags j).asid = i.luAsid) : ((next q i).tags j).valid = false := by
  have step : (next q i).tags j = tagNext q i j := rfl
  rw [step, tagNext, if_pos flush] at same ⊢
  split
  · rfl
  · rename_i some
    rw [if_neg some] at same
    split
    · rfl
    · rename_i other
      rw [if_neg other] at same
      exact absurd (beq_iff_eq.mpr same.symm) other

end Flush

end Ariane.Tlb
