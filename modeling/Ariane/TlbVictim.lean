import Ariane.Tlb
import Ariane.Rtl.Machine
import Mathlib.Order.Basic

set_option autoImplicit false

/- The victim of a replacement: the tree has `2 ^ clog2 n` leaves, and those from `n` on have no
entry behind them. -/
namespace Ariane.Tlb

open Rtl (Machine)

/-- The tree after a sequence of hits. -/
def treeAfter {n : Nat} (hits : List (Fin n)) : Nat → Bool :=
  hits.foldl (fun tree (i : Fin n) => touch n tree i) (fun _ => false)

/-- A sequence of hits leads to the tree of the state. -/
def Reached {n w : Nat} (q : State n w) : Prop :=
  ∃ hits : List (Fin n), q.plruTree = treeAfter hits

/-- The replacement has exactly one victim, and an entry that was just hit is spared. At most
one entry hits at a time. -/
structure OneVictim {n w : Nat} (q : State n w) : Prop where
  selected : ∃ j, replaceEn q j = true ∧ ∀ k, replaceEn q k = true → k = j
  installed : ∀ i : Input w, i.update.valid = true → i.flush = false →
    ∃ j, (next q i).tags j = tagOf i.update ∧ (next q i).content j = i.update.content ∧
      ∀ k, k ≠ j → (next q i).tags k = q.tags k ∧ (next q i).content k = q.content k
  spared : ∀ (i : Input w) (e : Fin n), i.luAccess = true →
    (q.tags e).hits i.luAsid i.luVaddr = true →
    (∀ k, (q.tags k).hits i.luAsid i.luVaddr = true → k = e) → replaceEn (next q i) e = false

section Tree

variable {n : Nat}

theorem clog2_pos (many : 1 < n) : 0 < clog2 n := by
  rw [clog2, if_neg (by omega)]
  omega

theorem two_pow_clog2_lt (many : 1 < n) : 2 ^ (clog2 n - 1) < n := by
  rw [clog2, if_neg (by omega), Nat.add_sub_cancel]
  have low := Nat.log2_self_le (n := n - 1) (by omega)
  omega

theorem full_iff (many : 1 < n) : n = 2 ^ clog2 n ↔ ∃ k, n = 2 ^ k := by
  constructor
  · exact fun full => ⟨_, full⟩
  · rintro ⟨k, power⟩
    have wide := le_two_pow_clog2 n
    have low := two_pow_clog2_lt many
    generalize clog2 n = c at wide low ⊢
    subst power
    have above := (Nat.pow_le_pow_iff_right Nat.one_lt_two).mp wide
    have below := (Nat.pow_lt_pow_iff_right Nat.one_lt_two).mp low
    rw [show c = k by omega]

theorem node_bounds {lvl i : Nat} (bound : lvl ≤ clog2 n) (small : i < 2 ^ clog2 n) :
    2 ^ lvl - 1 ≤ node n lvl i ∧ node n lvl i < 2 ^ (lvl + 1) - 1 := by
  have split : 2 ^ (clog2 n - lvl) * 2 ^ lvl = 2 ^ clog2 n := by
    rw [← Nat.pow_add]
    congr 1
    omega
  have side : i >>> (clog2 n - lvl) < 2 ^ lvl := by
    rw [Nat.shiftRight_eq_div_pow]
    apply Nat.div_lt_of_lt_mul
    rwa [split]
  have positive := Nat.two_pow_pos lvl
  unfold node
  rw [Nat.pow_succ]
  generalize i >>> (clog2 n - lvl) = part at side ⊢
  omega

theorem level_unique {a b k : Nat} (aLow : 2 ^ a - 1 ≤ k) (aHigh : k < 2 ^ (a + 1) - 1)
    (bLow : 2 ^ b - 1 ≤ k) (bHigh : k < 2 ^ (b + 1) - 1) : a = b := by
  rcases Nat.lt_trichotomy a b with less | equal | more
  · have powers := Nat.pow_le_pow_right Nat.two_pos less
    omega
  · exact equal
  · have powers := Nat.pow_le_pow_right Nat.two_pos more
    omega

/-- The first levels of a hit: the nodes on the path turn away from the entry, the others keep
their values. -/
theorem touch_levels {i m : Nat} (small : i < 2 ^ clog2 n) (bound : m ≤ clog2 n)
    (tree : Nat → Bool) :
    let touched := (List.range m).foldl
      (fun tree lvl => fun k => if k = node n lvl i then !direction n lvl i else tree k) tree
    (∀ lvl, lvl < m → touched (node n lvl i) = !direction n lvl i) ∧
      ∀ k, (∀ lvl, lvl < m → k ≠ node n lvl i) → touched k = tree k := by
  induction m with
  | zero => exact ⟨fun lvl none => absurd none (Nat.not_lt_zero _), fun _ _ => rfl⟩
  | succ m ih =>
      obtain ⟨path, other⟩ := ih (by omega)
      dsimp only at path other ⊢
      rw [List.range_succ, List.foldl_append, List.foldl_cons, List.foldl_nil]
      constructor
      · intro lvl below
        by_cases last : lvl = m
        · rw [last, if_pos rfl]
        · have apart : node n lvl i ≠ node n m i := by
            intro same
            have here := node_bounds (n := n) (show lvl ≤ clog2 n by omega) small
            have there := node_bounds (n := n) (show m ≤ clog2 n by omega) small
            rw [same] at here
            exact last (level_unique here.1 here.2 there.1 there.2)
          rw [if_neg apart]
          exact path lvl (by omega)
      · intro k off
        rw [if_neg (off m (by omega))]
        exact other k (fun lvl below => off lvl (by omega))

theorem touch_path {i lvl : Nat} (small : i < 2 ^ clog2 n) (bound : lvl < clog2 n)
    (tree : Nat → Bool) : touch n tree i (node n lvl i) = !direction n lvl i :=
  (touch_levels small (Nat.le_refl _) tree).1 lvl bound

theorem touch_other {i k : Nat} (small : i < 2 ^ clog2 n) (tree : Nat → Bool)
    (off : ∀ lvl, lvl < clog2 n → k ≠ node n lvl i) : touch n tree i k = tree k :=
  (touch_levels small (Nat.le_refl _) tree).2 k off

theorem touch_spares {i : Nat} (many : 1 < n) (small : i < 2 ^ clog2 n) (tree : Nat → Bool) :
    i ≠ victim n (touch n tree i) := by
  intro same
  have points := victim_path n (touch n tree i) (clog2_pos many)
  rw [← same, touch_path small (clog2_pos many)] at points
  exact absurd points (by cases direction n 0 i <;> decide)

end Tree

section Beyond

variable {n : Nat}

/-- The first entry to the right of all nodes that a descent to the last leaf passes above
level `j`. -/
def corner (n j : Nat) : Nat := (2 ^ j - 1) * 2 ^ (clog2 n - j)

/-- The node of level `lvl` on the descent to the last leaf. -/
def lastNode (lvl : Nat) : Nat := 2 ^ lvl - 1 + (2 ^ lvl - 1)

theorem corner_shift {j lvl : Nat} (below : j ≤ lvl) (bound : lvl ≤ clog2 n) :
    corner n j >>> (clog2 n - lvl) = (2 ^ j - 1) * 2 ^ (lvl - j) := by
  have split : 2 ^ (clog2 n - j) = 2 ^ (lvl - j) * 2 ^ (clog2 n - lvl) := by
    rw [← Nat.pow_add]
    congr 1
    omega
  rw [corner, split, ← Nat.mul_assoc, Nat.shiftRight_eq_div_pow,
    Nat.mul_div_cancel _ (Nat.two_pow_pos _)]

theorem corner_node {j lvl : Nat} (below : j ≤ lvl) (bound : lvl ≤ clog2 n) :
    node n lvl (corner n j) = 2 ^ lvl - 1 + (2 ^ j - 1) * 2 ^ (lvl - j) := by
  rw [node, corner_shift below bound]

/-- A hit of the corner entry of level `j` opens the descent at that level. -/
theorem touch_corner {j : Nat} (bound : j < clog2 n) (small : corner n j < 2 ^ clog2 n)
    (tree : Nat → Bool) : touch n tree (corner n j) (lastNode j) = true := by
  have here : node n j (corner n j) = lastNode j := by
    rw [corner_node (Nat.le_refl _) (by omega), Nat.sub_self, Nat.pow_zero, Nat.mul_one, lastNode]
  have left : direction n j (corner n j) = false := by
    have shift := corner_shift (n := n) (Nat.le_succ j) bound
    rw [show j.succ - j = 1 by omega, Nat.pow_one] at shift
    rw [direction, Nat.sub_sub, shift, Nat.mul_mod_left]
    rfl
  rw [← here, touch_path small bound, left, Bool.not_false]

/-- The descent below stays as it is. -/
theorem touch_corner_below {j lvl : Nat} (below : j < lvl) (bound : lvl < clog2 n)
    (small : corner n j < 2 ^ clog2 n) (tree : Nat → Bool) :
    touch n tree (corner n j) (lastNode lvl) = tree (lastNode lvl) := by
  apply touch_other small
  intro m inside same
  have there := node_bounds (Nat.le_of_lt inside) small
  have positive := Nat.two_pow_pos lvl
  have level : lvl = m := by
    rw [← same] at there
    refine level_unique ?_ ?_ there.1 there.2
    · exact Nat.le_add_right _ _
    · rw [lastNode, Nat.pow_succ]
      omega
  subst level
  rw [corner_node (Nat.le_of_lt below) (Nat.le_of_lt bound), lastNode, Nat.add_left_cancel_iff,
    show lvl - j = lvl - j - 1 + 1 by omega, Nat.pow_succ, ← Nat.mul_assoc] at same
  have even : 2 ^ lvl = 2 * 2 ^ (lvl - 1) := by
    rw [← Nat.pow_succ']
    congr 1
    omega
  omega

/-- Hits of the corner entries from level `m - 1` up to the root open the descent to level `m`. -/
theorem opened {m : Nat} (bound : m ≤ clog2 n) (entries : ∀ j, j < m → corner n j < n) :
    ∃ hits : List (Fin n), ∀ lvl, lvl < m → treeAfter hits (lastNode lvl) = true := by
  have wide := le_two_pow_clog2 n
  have upward : ∀ d, d ≤ m → ∃ hits : List (Fin n), ∀ lvl, m - d ≤ lvl → lvl < m →
      treeAfter hits (lastNode lvl) = true := by
    intro d
    induction d with
    | zero => exact fun _ => ⟨[], fun lvl low high => absurd high (by omega)⟩
    | succ d ih =>
        intro more
        obtain ⟨hits, lower⟩ := ih (by omega)
        have entry := entries (m - (d + 1)) (by omega)
        have small := Nat.lt_of_lt_of_le entry wide
        refine ⟨hits ++ [⟨_, entry⟩], ?_⟩
        intro lvl low high
        rw [treeAfter, List.foldl_append, List.foldl_cons, List.foldl_nil]
        by_cases top : lvl = m - (d + 1)
        · rw [top]
          exact touch_corner (by omega) small _
        · rw [touch_corner_below (by omega) (by omega) small]
          exact lower lvl (by omega) high
  obtain ⟨hits, all⟩ := upward m (Nat.le_refl _)
  exact ⟨hits, fun lvl high => all lvl (by omega) high⟩

/-- An open descent ends to the right of the corner entry. -/
theorem corner_le_victim {m : Nat} {tree : Nat → Bool} (bound : m ≤ clog2 n)
    (right : ∀ lvl, lvl < m → tree (lastNode lvl) = true) : corner n m ≤ victim n tree := by
  have descent : ∀ lvl, lvl ≤ m → pointer tree lvl = 2 ^ lvl - 1 := by
    intro lvl
    induction lvl with
    | zero => exact fun _ => rfl
    | succ lvl ih =>
        intro inside
        have side := right lvl inside
        have positive := Nat.two_pow_pos lvl
        rw [pointer, ih (by omega)]
        rw [lastNode] at side
        rw [side, Bool.toNat_true, Nat.pow_succ]
        omega
  have shift := pointer_shift tree m (clog2 n - m)
  rw [show m + (clog2 n - m) = clog2 n by omega, descent m (Nat.le_refl _),
    Nat.shiftRight_eq_div_pow] at shift
  rw [corner, victim, ← shift]
  exact Nat.div_mul_le_self _ _

/-- A tree with leaves beyond the entries can be led to one of them. -/
theorem points_beyond (gap : n < 2 ^ clog2 n) :
    ∃ hits : List (Fin n), n ≤ victim n (treeAfter hits) := by
  have some : ∃ m, n ≤ corner n m := by
    refine ⟨clog2 n, ?_⟩
    rw [corner, Nat.sub_self, Nat.pow_zero, Nat.mul_one]
    omega
  have last : Nat.find some ≤ clog2 n := by
    apply Nat.find_min'
    rw [corner, Nat.sub_self, Nat.pow_zero, Nat.mul_one]
    omega
  obtain ⟨hits, right⟩ := opened last (fun j below => Nat.lt_of_not_le (Nat.find_min some below))
  exact ⟨hits, Nat.le_trans (Nat.find_spec some) (corner_le_victim last right)⟩

end Beyond

section Machine

variable {n w : Nat}

/-- The TLB as a machine. -/
def machine (n w : Nat) : Machine (State n w) (Input w) := ⟨reset, next⟩

theorem plruNext_hits (q : State n w) (i : Input w) :
    ∃ hits : List (Fin n), plruNext q i = hits.foldl (fun tree (j : Fin n) => touch n tree j) q.plruTree := by
  refine ⟨(List.finRange n).filter
    (fun j => (q.tags j).hits i.luAsid i.luVaddr && i.luAccess), ?_⟩
  rw [List.foldl_filter]
  rfl

/-- Every run leads to the tree of a sequence of hits. -/
theorem run_reached (inputs : List (Input w)) : Reached ((machine n w).run inputs) := by
  refine (machine n w).run_invariant ⟨[], rfl⟩ ?_ ((machine n w).legal_true reset inputs)
  rintro q i ⟨hits, before⟩ -
  obtain ⟨more, after⟩ := plruNext_hits q i
  refine ⟨hits ++ more, ?_⟩
  rw [treeAfter, List.foldl_append]
  show plruNext q i = _
  rw [after, before, treeAfter]

end Machine

section Victims

variable {n w : Nat} {q : State n w}

/-- A victim among the entries is the only one, and takes the update. -/
theorem oneVictim_of_lt (many : 1 < n) (inside : victim n q.plruTree < n) : OneVictim q where
  selected := ⟨⟨_, inside⟩, replaceEn_iff.mpr rfl,
    fun _ other => Fin.ext (replaceEn_iff.mp other)⟩
  installed := by
    intro i valid noFlush
    have chosen : replaceEn q ⟨_, inside⟩ = true := replaceEn_iff.mpr rfl
    refine ⟨⟨_, inside⟩, ?_, ?_, ?_⟩
    · show tagNext q i _ = _
      rw [tagNext, noFlush, if_neg Bool.false_ne_true, valid, chosen]
      rfl
    · show contentNext q i _ = _
      rw [contentNext, noFlush, if_neg Bool.false_ne_true, valid, chosen]
      rfl
    · intro k other
      have kept : replaceEn q k = false := by
        rw [Bool.eq_false_iff]
        intro also
        exact other (replaceEn_unique also chosen)
      constructor
      · show tagNext q i k = _
        rw [tagNext, noFlush, if_neg Bool.false_ne_true, kept, Bool.and_false,
          if_neg Bool.false_ne_true]
      · show contentNext q i k = _
        rw [contentNext, noFlush, if_neg Bool.false_ne_true, kept, Bool.and_false,
          if_neg Bool.false_ne_true]
  spared := by
    intro i e access hit only
    have touched : (next q i).plruTree = touch n q.plruTree e := by
      show plruNext q i = _
      rw [plruNext, foldl_single q.plruTree (List.nodup_finRange n) (List.mem_finRange e), hit,
        access]
      · rfl
      · intro k _ other tree
        have quiet : (q.tags k).hits i.luAsid i.luVaddr = false := by
          rw [Bool.eq_false_iff]
          exact fun also => other (only k also)
        rw [quiet, Bool.false_and, if_neg Bool.false_ne_true]
    rw [Bool.eq_false_iff, Ne, replaceEn_iff, touched]
    exact touch_spares many (Nat.lt_of_lt_of_le e.isLt (le_two_pow_clog2 n)) _

/-- Every tree that hits lead to has exactly one victim if and only if the number of entries is
a power of two. -/
theorem one_victim_iff (many : 1 < n) :
    (∀ (w : Nat) (q : State n w), Reached q → OneVictim q) ↔ ∃ k, n = 2 ^ k := by
  rw [← full_iff many]
  constructor
  · intro always
    apply Classical.byContradiction
    intro partly
    have gap : n < 2 ^ clog2 n := Nat.lt_of_le_of_ne (le_two_pow_clog2 n) partly
    obtain ⟨hits, beyond⟩ := points_beyond gap
    obtain ⟨j, chosen, -⟩ := (always 0 { plruTree := treeAfter hits } ⟨hits, rfl⟩).selected
    have here := replaceEn_iff.mp chosen
    have bound := j.isLt
    rw [here] at bound
    exact absurd bound (Nat.not_lt.mpr beyond)
  · intro full w q _
    apply oneVictim_of_lt many
    have inside : victim n q.plruTree < 2 ^ clog2 n := pointer_lt _ _
    rwa [← full] at inside

end Victims

theorem one_victim_iff_sixteen :
    (∀ (w : Nat) (q : State 16 w), Reached q → OneVictim q) ↔ ∃ k, 16 = 2 ^ k :=
  one_victim_iff (by decide)

/-- The pages 1, 2 and 3 are installed and accessed in turn. -/
def threePages : List (Input 1) :=
  [1, 2, 3].flatMap fun page =>
    [{ update := { valid := true, vpn := page } },
      { luAccess := true, luVaddr := page.setWidth 64 <<< 12 }]

/-- Of six entries none is selected then, and the next update is lost. -/
theorem no_victim_of_six :
    let q := (machine 6 1).run threePages
    let i : Input 1 := { update := { valid := true, vpn := 4 } }
    (∀ j, replaceEn q j = false) ∧ ∀ j, (next q i).tags j = q.tags j := by
  decide

end Ariane.Tlb
