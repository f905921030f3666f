import Ariane.MmuCoherence

set_option autoImplicit false

/- Page faults of TLB hits against page faults of a fresh walk. -/
namespace Ariane.Mmu

open Riscv
open Sv39 (Pte Leaf Access permits)
open Ptw (Task)
open Tlb (tagOf)

/-- Entry `e` holds what a walk that found `l` installs. -/
structure Installed {n w : Nat} (q : Tlb.State n w) (k : Task w) (l : Leaf) (e : Fin n) : Prop where
  walked : Sv39.walk k.mem k.va k.mxr k.kind k.root = some l
  tag : q.tags e = tagOf (k.update l)
  content : q.content e = l.content

/-- The installed entry is the one that matches. -/
structure HitsInstalled {n w : Nat} (q : Tlb.State n w) (k : Task w) (l : Leaf) (asid : BitVec w)
    (va : BitVec 64) (e : Fin n) : Prop extends Installed q k l e where
  hit : (q.tags e).hits asid va = true
  alone : ∀ f, (q.tags f).hits asid va = true → f = e

/-- A load or store page fault is raised. -/
def LsuOutput.pageFault (o : LsuOutput) : Bool :=
  o.exception.valid && (o.exception.cause == loadPageFault || o.exception.cause == storePageFault)

/-- An instruction page fault is raised. -/
def FetchOutput.pageFault (o : FetchOutput) : Bool :=
  o.exception.valid && o.exception.cause == instrPageFault

/-- The kind of a data access. -/
def dataKind (isStore : Bool) : Access := if isStore then .store else .load

section Fresh

variable {w : Nat} (k : Task w) (i : Input w)

/-- A fresh walk for the data access, and the check of the hit after it. -/
def freshDataFault (isStore : Bool) (va : BitVec 64) : Bool :=
  match Sv39.walk k.mem va i.mxr (dataKind isStore) k.root with
  | none => true
  | some l => hitFault i isStore l.content

/-- A fresh walk for the fetch, and the check of the hit after it. -/
def freshFetchFault : Bool :=
  match Sv39.walk k.mem i.fetchVaddr i.mxr .fetch k.root with
  | none => true
  | some l => iaccessErr i l.content

end Fresh

section Bits

variable (l : Leaf)

/-- The global bit is the only one that the path changes. -/
theorem content_bits :
    l.content.u = l.pte.u ∧ l.content.w = l.pte.w ∧ l.content.d = l.pte.d := by
  refine ⟨?_, ?_, ?_⟩
  · rw [Leaf.content, Pte.u, Pte.u, Pte.getLsbD_setG]
    exact Bool.or_false _
  · rw [Leaf.content, Pte.w, Pte.w, Pte.getLsbD_setG]
    exact Bool.or_false _
  · rw [Leaf.content, Pte.d, Pte.d, Pte.getLsbD_setG]
    exact Bool.or_false _

theorem hitFault_content {w : Nat} (i : Input w) (isStore : Bool) :
    hitFault i isStore l.content = hitFault i isStore l.pte := by
  obtain ⟨u, w, d⟩ := content_bits l
  rw [hitFault, hitFault, daccessErr, daccessErr, u, w, d]

end Bits

section Installed

variable {n w : Nat} {q : Tlb.State n w} {k : Task w} {l : Leaf} {asid : BitVec w}
  {va : BitVec 64} {e : Fin n}

/-- The outcome of a walk reaches the entry that is replaced. -/
theorem installed_update {i : Tlb.Input w} (noFlush : i.flush = false)
    (walked : Sv39.walk k.mem k.va k.mxr k.kind k.root = some l) (update : i.update = k.update l)
    (replaced : Tlb.replaceEn q e = true) : Installed (Tlb.next q i) k l e := by
  obtain ⟨tag, content⟩ := Tlb.next_update noFlush update rfl e
  rw [if_pos replaced] at tag content
  exact ⟨walked, tag, content⟩

theorem Installed.kept (h : Installed q k l e) {i : Tlb.Input w} (noFlush : i.flush = false)
    (kept : (i.update.valid && Tlb.replaceEn q e) = false) : Installed (Tlb.next q i) k l e where
  walked := h.walked
  tag := by
    show Tlb.tagNext q i e = _
    rw [Tlb.tagNext, noFlush, if_neg Bool.false_ne_true, kept, if_neg Bool.false_ne_true]
    exact h.tag
  content := by
    show Tlb.contentNext q i e = _
    rw [Tlb.contentNext, noFlush, if_neg Bool.false_ne_true, kept, if_neg Bool.false_ne_true]
    exact h.content

theorem HitsInstalled.found (h : HitsInstalled q k l asid va e) :
    Sv39.lookup k.mem k.va k.root = some l ∧ permits k.mxr k.kind l.pte = true := by
  have walked := h.walked
  rw [Sv39.walk, Option.filter_eq_some_iff] at walked
  exact walked

theorem HitsInstalled.lookup (h : HitsInstalled q k l asid va e) :
    (Tlb.translation q asid va).hit = true ∧ (Tlb.translation q asid va).content = l.content := by
  rw [Tlb.translation_hit h.hit h.alone, ← h.content]
  split <;> exact ⟨rfl, rfl⟩

theorem HitsInstalled.fresh (h : HitsInstalled q k l asid va e) :
    Sv39.lookup k.mem va k.root = some l := by
  have bound := Sv39.find_level h.found.1
  have hit := h.hit
  rw [h.tag] at hit
  obtain ⟨_, _, page⟩ := (Tlb.Tag.hits_iff bound (Tlb.sized_update k l) asid va).mp hit
  apply Sv39.find_same_page h.found.1
  intro j low high
  rw [page j low high, Tlb.vpn_update k l high]

theorem HitsInstalled.accessed (h : HitsInstalled q k l asid va e) : l.pte.a = true := by
  have allowed := h.found.2
  cases kind : k.kind <;> rw [kind] at allowed <;>
    simp only [permits, Bool.and_eq_true] at allowed
  · exact allowed.2
  · exact allowed.2
  · exact allowed.1.2

theorem HitsInstalled.walk (h : HitsInstalled q k l asid va e) (mxr : Bool) (kind : Access) :
    Sv39.walk k.mem va mxr kind k.root = if permits mxr kind l.pte then some l else none := by
  rw [Sv39.walk, h.fresh, Option.filter_some]

end Installed

section Data

variable {n m w : Nat} {s : State n m w} {k : Task w} {l : Leaf} {i j : Input w} {e : Fin m}

theorem dataInterface_pageFault (h : HitsInstalled s.dtlb k l i.asid i.lsuVaddr e)
    (req : i.lsuReq = true) (aligned : i.misalignedEx.valid = false)
    (translated : j.enLdStTranslation = true) :
    (dataInterface (next s i) j).pageFault = hitFault j i.lsuIsStore l.pte := by
  obtain ⟨hit, content⟩ := h.lookup
  have hit' : (next s i).dtlbHit = true := hit
  have content' : (next s i).dtlbPte = l.content := content
  have req' : (next s i).lsuReq = true := req
  have aligned' : (next s i).misalignedEx.valid = false := by
    show (i.misalignedEx.valid && i.lsuReq) = false
    rw [aligned, Bool.false_and]
  have store : (next s i).lsuIsStore = i.lsuIsStore := rfl
  rw [dataInterface, translated, aligned', hit', req', content', hitFault_content, store]
  cases hitFault j i.lsuIsStore l.pte with
  | false => exact congrArg (· && _) aligned'
  | true => cases i.lsuIsStore <;> rfl

theorem HitsInstalled.executable (h : HitsInstalled s.dtlb k l i.asid i.lsuVaddr e)
    (unreadable : l.pte.r = false) : l.pte.x = true := by
  have leaf := (Sv39.find_isLeaf h.found.1).2
  rw [Pte.isLeaf, unreadable, Bool.false_or] at leaf
  exact leaf

theorem HitsInstalled.store (h : HitsInstalled s.dtlb k l i.asid i.lsuVaddr e) :
    freshDataFault k j true i.lsuVaddr = hitFault j true l.pte := by
  have accessed := h.accessed
  have walk := h.walk j.mxr .store
  rw [permits, accessed, Bool.and_true] at walk
  rw [freshDataFault, dataKind, if_pos rfl, walk]
  cases write : l.pte.w with
  | false =>
      show true = hitFault j true l.pte
      rw [hitFault, write]
      rfl
  | true =>
      cases dirty : l.pte.d with
      | false =>
          show true = hitFault j true l.pte
          rw [hitFault, dirty, Bool.not_false, Bool.or_true, if_pos rfl]
      | true => exact hitFault_content l j true

/-- The walk for a load also asks for a readable page. -/
theorem HitsInstalled.load (h : HitsInstalled s.dtlb k l i.asid i.lsuVaddr e) :
    freshDataFault k j false i.lsuVaddr =
      (!(l.pte.r || j.mxr) || hitFault j false l.pte) := by
  have walk := h.walk j.mxr .load
  rw [permits, h.accessed, Bool.and_true] at walk
  rw [freshDataFault, dataKind, if_neg Bool.false_ne_true, walk]
  cases read : l.pte.r with
  | true => exact hitFault_content l j false
  | false =>
      rw [h.executable read]
      cases j.mxr with
      | false => rfl
      | true => exact hitFault_content l j false

end Data

section Fetch

variable {n m w : Nat} {s : State n m w} {k : Task w} {l : Leaf} {i : Input w} {e : Fin n}

theorem instrInterface_pageFault (h : HitsInstalled s.itlb k l i.asid i.fetchVaddr e)
    (translated : i.enableTranslation = true) :
    (instrInterface s i).pageFault = iaccessErr i l.content := by
  obtain ⟨hit, content⟩ := h.lookup
  have hit' : (itlbLookup s i).hit = true := hit
  have content' : (itlbLookup s i).content = l.content := content
  rw [instrInterface, translated, if_pos rfl]
  dsimp only
  rw [hit', content', if_pos rfl]
  cases iaccessErr i l.content with
  | true => rfl
  | false =>
      cases i.fetchReq && notCanonical i.fetchVaddr <;> rfl

/-- The walk for a fetch does not depend on `mxr`. -/
theorem HitsInstalled.fetch (h : HitsInstalled s.itlb k l i.asid i.fetchVaddr e)
    (kind : k.kind = .fetch) : freshFetchFault k i = iaccessErr i l.content := by
  have allowed := h.found.2
  rw [kind] at allowed
  have walk := h.walk i.mxr .fetch
  have same : permits i.mxr .fetch l.pte = permits k.mxr .fetch l.pte := rfl
  rw [same, if_pos allowed] at walk
  rw [freshFetchFault, walk]

end Fetch

/-- A hit faults where a fresh walk does, except for a load from a page that was readable only
through `mxr`. -/
theorem hit_faults_as_walk {n m w : Nat} (s : State n m w) (k : Task w) (l : Leaf)
    (i j : Input w) :
    (∀ e, HitsInstalled s.dtlb k l i.asid i.lsuVaddr e → i.lsuReq = true →
      i.misalignedEx.valid = false → j.enLdStTranslation = true →
      ((dataInterface (next s i) j).pageFault = freshDataFault k j i.lsuIsStore i.lsuVaddr ↔
        i.lsuIsStore = true ∨ l.pte.r = true ∨ j.mxr = true ∨ daccessErr j l.pte = true)) ∧
    (∀ e, HitsInstalled s.itlb k l i.asid i.fetchVaddr e → k.kind = .fetch →
      i.enableTranslation = true → (instrInterface s i).pageFault = freshFetchFault k i) := by
  constructor
  · intro e h req aligned translated
    rw [dataInterface_pageFault h req aligned translated]
    cases kind : i.lsuIsStore with
    | true => exact ⟨fun _ => Or.inl rfl, fun _ => h.store.symm⟩
    | false =>
        rw [h.load, hitFault, if_neg Bool.false_ne_true]
        cases l.pte.r <;> cases j.mxr <;> cases daccessErr j l.pte <;> simp
  · intro e h kind translated
    rw [instrInterface_pageFault h translated, h.fetch kind]

/-- A load from a gigapage that may be executed and not read. -/
def executeOnly : Task 1 where
  mem := fun _ => 0x49
  kind := .load
  mxr := true
  va := 0
  asid := 0
  root := 1

def executeOnlyLeaf : Leaf := ⟨0x49, 2, false⟩

/-- The load misses, and the walk under `mxr` installs the page. -/
def executeOnlyWalk : List (Input 1) :=
  [{ loadAt 0 with mxr := true }, { grantWalk with mxr := true },
    { answerWalk with mxr := true, dataRdata := 0x49 }, { idleCycle with mxr := true }]

/-- The MMU after the walk, with one entry in each TLB. -/
def executeOnlyInstalled : State 1 1 1 := (machine 1 1 1).run executeOnlyWalk

theorem execute_only_hits :
    HitsInstalled executeOnlyInstalled.dtlb executeOnly executeOnlyLeaf 0 0 0 where
  walked := by decide
  tag := by decide
  content := by decide
  hit := by decide
  alone := fun f _ => Subsingleton.elim f 0

/-- The page belongs to the supervisor, and the next load is a user's. -/
theorem hit_faults_as_walk_user :
    (dataInterface (next executeOnlyInstalled (loadAt 0))
      { enLdStTranslation := true, ldStPrivLvl := privLvlU }).pageFault =
        freshDataFault executeOnly { enLdStTranslation := true, ldStPrivLvl := privLvlU } false 0 := by
  apply ((hit_faults_as_walk executeOnlyInstalled executeOnly executeOnlyLeaf (loadAt 0)
    { enLdStTranslation := true, ldStPrivLvl := privLvlU }).1 0 execute_only_hits rfl rfl rfl).mpr
  exact Or.inr (Or.inr (Or.inr (by decide)))

/-- After `mxr` is cleared, a hit still reads the page. -/
theorem execute_only_read :
    ¬ ∀ (s : State 1 1 1) (k : Task 1) (l : Leaf) (i j : Input 1) (e : Fin 1),
      HitsInstalled s.dtlb k l i.asid i.lsuVaddr e → i.lsuReq = true →
      i.misalignedEx.valid = false → j.enLdStTranslation = true →
      (dataInterface (next s i) j).pageFault = freshDataFault k j i.lsuIsStore i.lsuVaddr := by
  intro agree
  have same := agree executeOnlyInstalled executeOnly executeOnlyLeaf (loadAt 0)
    { enLdStTranslation := true, ldStPrivLvl := privLvlS } 0 execute_only_hits rfl rfl rfl
  exact absurd same (by decide)

end Ariane.Mmu
