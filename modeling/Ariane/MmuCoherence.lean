import Ariane.TlbSoundness

set_option autoImplicit false

/- Whole runs of the MMU: the TLBs hold current translations while the walker fills them. -/
namespace Ariane.Mmu

open Rtl (Machine)
open Sv39 (Pte Leaf find pteAddress)
open Tlb (Tables Sound)
open Ptw (Walker Port Answers SingleFlush Accounted Descends Task Outstanding)

/-- The MMU, the history of its memory port and the page tables. -/
structure System (n m w : Nat) where
  mmu : State n m w := reset
  port : Port := {}
  tables : Tables w

/-- The inputs of a cycle, and the page tables after it where they change. -/
structure SystemInput (w : Nat) where
  mmu : Input w
  change : Option (Tables w) := none

section System

variable {n m w : Nat}

/-- The walker and its memory port. -/
def System.walker (s : System n m w) : Walker w := ⟨s.mmu.ptw, s.port⟩

def System.next (s : System n m w) (i : SystemInput w) : System n m w where
  mmu := Mmu.next s.mmu i.mmu
  port := Port.next s.walker (ptwInput s.mmu i.mmu)
  tables := i.change.getD s.tables

def system (n m : Nat) (tables : Tables w) : Machine (System n m w) (SystemInput w) :=
  ⟨{ tables := tables }, System.next⟩

/-- The memory answers accepted requests with the page table entry, the root table is that of the
address space on the lookup port, and the pipeline is flushed together with the TLBs. -/
structure Ports (s : System n m w) (i : SystemInput w) : Prop where
  answers : Answers s.walker (ptwInput s.mmu i.mmu)
  content : i.mmu.dataRvalid = true → s.port.flushed = false →
    ∀ r ∈ s.port.pending.head?, i.mmu.dataRdata = s.tables.mem r.address
  root : i.mmu.satpPpn = s.tables.root i.mmu.asid
  flushes : i.mmu.flushTlb = true → i.mmu.flush = true
  unchanged : i.mmu.flushTlb = false → i.change.isNone = true

instance decidablePorts (s : System n m w) (i : SystemInput w) : Decidable (Ports s i) :=
  decidable_of_iff
    (Answers s.walker (ptwInput s.mmu i.mmu) ∧
      (i.mmu.dataRvalid = true → s.port.flushed = false →
        ∀ r ∈ s.port.pending.head?, i.mmu.dataRdata = s.tables.mem r.address) ∧
      i.mmu.satpPpn = s.tables.root i.mmu.asid ∧
      (i.mmu.flushTlb = true → i.mmu.flush = true) ∧
      (i.mmu.flushTlb = false → i.change.isNone = true))
    ⟨fun ⟨answers, content, root, flushes, unchanged⟩ =>
        ⟨answers, content, root, flushes, unchanged⟩,
      fun ports => ⟨ports.answers, ports.content, ports.root, ports.flushes, ports.unchanged⟩⟩

/-- The page tables change only with a flush, and with a flush of one address space only there. -/
def ChangesFlushed (s : System n m w) (i : SystemInput w) : Prop :=
  ∀ t ∈ i.change, i.mmu.asid ≠ 0 →
    ∀ asid va, asid ≠ i.mmu.asid → t.lookup asid va = s.tables.lookup asid va

/-- What the surroundings of the MMU guarantee. -/
def Environment (s : System n m w) (i : SystemInput w) : Prop := Ports s i ∧ ChangesFlushed s i

/-- No flush meets `WAIT_RVALID` before the outstanding response has arrived. -/
def FlushesOnce (s : System n m w) (i : SystemInput w) : Prop :=
  SingleFlush s.walker (ptwInput s.mmu i.mmu)

instance decidableFlushesOnce (s : System n m w) (i : SystemInput w) :
    Decidable (FlushesOnce s i) :=
  inferInstanceAs (Decidable (SingleFlush _ _))

/-- One entry matches an address at most, and a hit is the current translation. -/
structure Coherent {n w : Nat} (q : Tlb.State n w) (t : Tables w) : Prop where
  unique : ∀ asid va j k, (q.tags j).hits asid va = true → (q.tags k).hits asid va = true → j = k
  current : ∀ asid va, (Tlb.translation q asid va).hit = true →
    ∃ l, t.lookup asid va = some l ∧ (Tlb.translation q asid va).content = l.content ∧
      (Tlb.translation q asid va).is2M = (l.level == 1) ∧
      (Tlb.translation q asid va).is1G = (l.level == 2)

/-- A flush leaves no entry of the flushed address spaces, whatever is updated with it. -/
structure Flushes {n w : Nat} (q : Tlb.State n w) (i : Tlb.Input w) : Prop where
  all : i.luAsid = 0 → ∀ j, ((Tlb.next q i).tags j).valid = false
  one : i.luAsid ≠ 0 → ∀ j, ((Tlb.next q i).tags j).asid = i.luAsid →
    ((Tlb.next q i).tags j).valid = false

/-- Both TLBs are right. -/
structure TlbsRight (s : System n m w) : Prop where
  itlb : Coherent s.mmu.itlb s.tables
  dtlb : Coherent s.mmu.dtlb s.tables
  flush : ∀ i : Input w, i.flushTlb = true →
    Flushes s.mmu.itlb (itlbInput s.mmu i) ∧ Flushes s.mmu.dtlb (dtlbInput s.mmu i)

/-- The walk that the walker is in. -/
def System.task (s : System n m w) : Task w where
  mem := s.tables.mem
  kind := if s.mmu.ptw.isInstrPtw then .fetch else .load
  mxr := false
  va := s.mmu.ptw.vaddr
  asid := s.mmu.ptw.tlbUpdateAsid
  root := s.tables.root s.mmu.ptw.tlbUpdateAsid

/-- The walker is on the path to the translation, and the TLB that missed still misses. -/
structure OnPath (s : System n m w) (lvl : Nat) (a : BitVec 44) (g : Bool) : Prop where
  bound : lvl ≤ 2
  descends : Descends s.task s.mmu.ptw lvl a g
  path : s.tables.lookup s.task.asid s.task.va = find s.tables.mem s.task.va lvl a g
  itlb : s.mmu.ptw.isInstrPtw = true → ∀ j, (s.mmu.itlb.tags j).hits s.task.asid s.task.va = false
  dtlb : s.mmu.ptw.isInstrPtw = false →
    ∀ j, (s.mmu.dtlb.tags j).hits s.task.asid s.task.va = false
  data : s.mmu.ptw.state = .pteLookup → s.mmu.ptw.dataRvalid = true →
    Ptw.pte s.mmu.ptw = s.tables.mem s.mmu.ptw.ptwPptr

/-- What holds between two cycles. -/
structure Inv (s : System n m w) : Prop where
  accounted : Accounted s.walker
  walking : s.mmu.ptw.state = .waitGrant ∨ s.mmu.ptw.state = .pteLookup →
    ∃ lvl a g, OnPath s lvl a g
  itlb : Sound s.mmu.itlb s.tables
  dtlb : Sound s.mmu.dtlb s.tables

end System

section Steps

variable {n m w : Nat} {s : System n m w} {i : SystemInput w} {lvl : Nat} {a : BitVec 44} {g : Bool}

/-- A leaf that the walker installs is the current translation. -/
theorem OnPath.leaf (path : OnPath s lvl a g) (phase : s.mmu.ptw.state = .pteLookup)
    (data : s.mmu.ptw.dataRvalid = true)
    (installs : Ptw.installs s.mmu.ptw (ptwInput s.mmu i.mmu) = true) :
    ∃ l, s.tables.lookup s.task.asid s.task.va = some l ∧
      Ptw.update s.mmu.ptw true = s.task.update l := by
  have entry : Ptw.pte s.mmu.ptw = s.tables.mem (pteAddress a s.task.va lvl) := by
    rw [path.data phase data, path.descends.pointer]
  simp only [Ptw.installs, Bool.and_eq_true, Bool.not_eq_true'] at installs
  obtain ⟨⟨⟨valid, leaf⟩, _⟩, aligned⟩ := installs
  have found : find s.tables.mem s.task.va lvl a g =
      some ⟨Ptw.pte s.mmu.ptw, lvl, g || (Ptw.pte s.mmu.ptw).g⟩ := by
    rw [path.descends.misaligned path.bound] at aligned
    rw [Sv39.find_eq]
    dsimp only
    rw [← entry, valid, leaf, aligned]
    rfl
  exact ⟨_, path.path.trans found, path.descends.update path.bound⟩

theorem ptwInput_flush (q : State n m w) (j : Input w) : (ptwInput q j).flush = j.flush := rfl

theorem Ports.keeps (ports : Ports s i) (noFlush : i.mmu.flushTlb = false) :
    (s.next i).tables = s.tables := by
  have none := ports.unchanged noFlush
  rw [Option.isNone_iff_eq_none] at none
  show i.change.getD s.tables = s.tables
  rw [none]
  rfl

/-- A flush leaves sound entries under the new tables. -/
theorem Environment.same (env : Environment s i) :
    i.mmu.asid ≠ 0 → ∀ asid va, asid ≠ i.mmu.asid →
      (s.next i).tables.lookup asid va = s.tables.lookup asid va := by
  intro some asid va other
  show (i.change.getD s.tables).lookup asid va = _
  cases change : i.change with
  | none => rfl
  | some t => exact env.2 t change some asid va other

theorem Inv.itlb_step (inv : Inv s) (env : Environment s i) :
    Sound (s.next i).mmu.itlb (s.next i).tables := by
  show Sound (Tlb.next s.mmu.itlb (itlbInput s.mmu i.mmu)) _
  cases flush : i.mmu.flushTlb with
  | true => exact inv.itlb.flush flush env.same
  | false =>
      rw [env.1.keeps flush]
      cases valid : (Ptw.itlbUpdate s.mmu.ptw (ptwInput s.mmu i.mmu)).valid with
      | false => exact inv.itlb.idle flush valid
      | true =>
          have facts := valid
          rw [Ptw.itlbUpdate_valid] at facts
          simp only [Bool.and_eq_true, beq_iff_eq] at facts
          obtain ⟨⟨⟨phase, data⟩, instr⟩, installs⟩ := facts
          obtain ⟨lvl, a, g, path⟩ := inv.walking (Or.inr phase)
          obtain ⟨l, found, update⟩ := path.leaf phase data installs
          refine inv.itlb.install flush ?_ found (path.itlb instr)
          show Ptw.update s.mmu.ptw (Ptw.itlbUpdate s.mmu.ptw (ptwInput s.mmu i.mmu)).valid = _
          rw [valid, update]

theorem Inv.dtlb_step (inv : Inv s) (env : Environment s i) :
    Sound (s.next i).mmu.dtlb (s.next i).tables := by
  show Sound (Tlb.next s.mmu.dtlb (dtlbInput s.mmu i.mmu)) _
  cases flush : i.mmu.flushTlb with
  | true => exact inv.dtlb.flush flush env.same
  | false =>
      rw [env.1.keeps flush]
      cases valid : (Ptw.dtlbUpdate s.mmu.ptw (ptwInput s.mmu i.mmu)).valid with
      | false => exact inv.dtlb.idle flush valid
      | true =>
          have facts := valid
          rw [Ptw.dtlbUpdate_valid] at facts
          simp only [Bool.and_eq_true, beq_iff_eq, Bool.not_eq_true'] at facts
          obtain ⟨⟨⟨phase, data⟩, instr⟩, installs⟩ := facts
          obtain ⟨lvl, a, g, path⟩ := inv.walking (Or.inr phase)
          obtain ⟨l, found, update⟩ := path.leaf phase data installs
          refine inv.dtlb.install flush ?_ found (path.dtlb instr)
          show Ptw.update s.mmu.ptw (Ptw.dtlbUpdate s.mmu.ptw (ptwInput s.mmu i.mmu)).valid = _
          rw [valid, update]

theorem tags_kept (noFlush : i.mmu.flushTlb = false)
    (busy : s.mmu.ptw.state ≠ .pteLookup ∨ s.mmu.ptw.dataRvalid = false ∨
      Ptw.installs s.mmu.ptw (ptwInput s.mmu i.mmu) = false) :
    (s.next i).mmu.itlb.tags = s.mmu.itlb.tags ∧ (s.next i).mmu.dtlb.tags = s.mmu.dtlb.tags := by
  have idle : (Ptw.itlbUpdate s.mmu.ptw (ptwInput s.mmu i.mmu)).valid = false ∧
      (Ptw.dtlbUpdate s.mmu.ptw (ptwInput s.mmu i.mmu)).valid = false := by
    rw [Ptw.itlbUpdate_valid, Ptw.dtlbUpdate_valid]
    rcases busy with phase | data | refused
    · rw [beq_eq_false_iff_ne.mpr phase]
      exact ⟨rfl, rfl⟩
    · rw [data, Bool.and_false]
      exact ⟨rfl, rfl⟩
    · rw [refused, Bool.and_false, Bool.and_false]
      exact ⟨rfl, rfl⟩
  constructor
  · funext j
    show Tlb.tagNext s.mmu.itlb (itlbInput s.mmu i.mmu) j = _
    rw [Tlb.tagNext, show (itlbInput s.mmu i.mmu).flush = false from noFlush,
      show (itlbInput s.mmu i.mmu).update.valid = false from idle.1]
    rfl
  · funext j
    show Tlb.tagNext s.mmu.dtlb (dtlbInput s.mmu i.mmu) j = _
    rw [Tlb.tagNext, show (dtlbInput s.mmu i.mmu).flush = false from noFlush,
      show (dtlbInput s.mmu i.mmu).update.valid = false from idle.2]
    rfl

/-- A cycle in which the walker waits keeps it on the path. -/
theorem OnPath.waiting (path : OnPath s lvl a g) (ports : Ports s i)
    (noFlush : i.mmu.flushTlb = false)
    (busy : s.mmu.ptw.state ≠ .pteLookup ∨ s.mmu.ptw.dataRvalid = false)
    {phase : Ptw.Phase}
    (step : (s.next i).mmu.ptw = Ptw.waiting s.mmu.ptw (ptwInput s.mmu i.mmu) phase)
    (data : phase = .pteLookup → i.mmu.dataRvalid = true →
      i.mmu.dataRdata = s.tables.mem s.mmu.ptw.ptwPptr) :
    OnPath (s.next i) lvl a g := by
  have tables := ports.keeps noFlush
  have tags : (s.next i).mmu.itlb.tags = s.mmu.itlb.tags ∧
      (s.next i).mmu.dtlb.tags = s.mmu.dtlb.tags := by
    apply tags_kept noFlush
    rcases busy with other | noData
    · exact Or.inl other
    · exact Or.inr (Or.inl noData)
  have task : (s.next i).task = s.task := by
    rw [System.task, tables, step]
    rfl
  have pointer : (s.next i).mmu.ptw.ptwPptr = s.mmu.ptw.ptwPptr := by
    rw [step]
    rfl
  have instr : (s.next i).mmu.ptw.isInstrPtw = s.mmu.ptw.isInstrPtw := by
    rw [step]
    rfl
  refine ⟨path.bound, ?_, ?_, ?_, ?_, ?_⟩
  · rw [task, step]
    exact path.descends.waiting phase
  · rw [task, tables]
    exact path.path
  · rw [task, tags.1, instr]
    exact path.itlb
  · rw [task, tags.2, instr]
    exact path.dtlb
  · intro state arrives
    have latched : Ptw.pte (s.next i).mmu.ptw = i.mmu.dataRdata := rfl
    rw [step] at state
    rw [tables, pointer, latched]
    exact data state arrives

/-- A miss starts on the path. -/
theorem path_of_miss (ports : Ports s i) (noFlush : i.mmu.flush = false)
    (noFlushTlb : i.mmu.flushTlb = false) (phase : s.mmu.ptw.state = .idle)
    (misses : Ptw.itlbMisses (ptwInput s.mmu i.mmu) = true ∨
      Ptw.dtlbMisses (ptwInput s.mmu i.mmu) = true) :
    OnPath (s.next i) 2 (s.tables.root i.mmu.asid) false := by
  have tables := ports.keeps noFlushTlb
  have busy : s.mmu.ptw.state ≠ .pteLookup := by
    rw [phase]
    decide
  obtain ⟨itlbTags, dtlbTags⟩ := tags_kept noFlushTlb (Or.inl busy)
  have root : (ptwInput s.mmu i.mmu).satpPpn = s.tables.root i.mmu.asid := ports.root
  cases itlb : Ptw.itlbMisses (ptwInput s.mmu i.mmu) with
  | true =>
      have step : (s.next i).mmu.ptw = _ := Ptw.next_itlbMiss _ _ phase noFlush itlb
      have missed : ∀ j, (s.mmu.itlb.tags j).hits i.mmu.asid i.mmu.fetchVaddr = false := by
        apply Tlb.hits_of_miss
        simp only [Ptw.itlbMisses, Bool.and_eq_true, Bool.not_eq_true'] at itlb
        exact itlb.1.2
      refine ⟨Nat.le_refl 2, ?_, ?_, ?_, ?_, ?_⟩
      · rw [System.task, step]
        exact ⟨rfl, by rw [root]; rfl, rfl, rfl, rfl, rfl⟩
      · rw [System.task, step, tables]
        rfl
      · intro _ j
        rw [System.task, step, itlbTags]
        exact missed j
      · intro data
        rw [step] at data
        exact absurd data.symm Bool.false_ne_true
      · intro lookup
        rw [step] at lookup
        have other : Ptw.Phase.waitGrant = .pteLookup := lookup
        exact absurd other (by decide)
  | false =>
      have dtlb : Ptw.dtlbMisses (ptwInput s.mmu i.mmu) = true := by
        rcases misses with instr | data
        · rw [itlb] at instr
          exact absurd instr Bool.false_ne_true
        · exact data
      have step : (s.next i).mmu.ptw = _ := Ptw.next_dtlbMiss _ _ phase noFlush dtlb
      have missed : ∀ j, (s.mmu.dtlb.tags j).hits i.mmu.asid i.mmu.lsuVaddr = false := by
        apply Tlb.hits_of_miss
        simp only [Ptw.dtlbMisses, Bool.and_eq_true, Bool.not_eq_true'] at dtlb
        exact dtlb.2
      refine ⟨Nat.le_refl 2, ?_, ?_, ?_, ?_, ?_⟩
      · rw [System.task, step]
        exact ⟨rfl, by rw [root]; rfl, rfl, rfl, rfl, rfl⟩
      · rw [System.task, step, tables]
        rfl
      · intro instr
        rw [step] at instr
        exact absurd instr Bool.false_ne_true
      · intro _ j
        rw [System.task, step, dtlbTags]
        exact missed j
      · intro lookup
        rw [step] at lookup
        have other : Ptw.Phase.waitGrant = .pteLookup := lookup
        exact absurd other (by decide)

theorem OnPath.pointer (path : OnPath s lvl a g) (ports : Ports s i)
    (noFlush : i.mmu.flush = false) (noFlushTlb : i.mmu.flushTlb = false)
    (phase : s.mmu.ptw.state = .pteLookup) (data : s.mmu.ptw.dataRvalid = true)
    (busy : (s.next i).mmu.ptw.state = .waitGrant ∨ (s.next i).mmu.ptw.state = .pteLookup) :
    ∃ lvl a g, OnPath (s.next i) lvl a g := by
  have state : (s.next i).mmu.ptw.state = _ := Ptw.next_evaluated_state _ _ phase data
  rw [ptwInput_flush, noFlush, if_neg Bool.false_ne_true, Ptw.evaluatedState] at state
  have step : (Ptw.pte s.mmu.ptw).invalid = false ∧ (Ptw.pte s.mmu.ptw).isLeaf = false ∧
      s.mmu.ptw.ptwLvl ≠ .lvl3 := by
    rw [state] at busy
    split at busy
    · exact absurd busy (by decide)
    · rename_i valid
      split at busy
      · split at busy <;> exact absurd busy (by decide)
      · rename_i leaf
        split at busy
        · exact absurd busy (by decide)
        · rename_i last
          exact ⟨Bool.eq_false_iff.mpr valid, Bool.eq_false_iff.mpr leaf,
            fun same => last (beq_iff_eq.mpr same)⟩
  obtain ⟨valid, leaf, notLast⟩ := step
  have entry : Ptw.pte s.mmu.ptw = s.tables.mem (pteAddress a s.task.va lvl) := by
    rw [path.data phase data, path.descends.pointer]
  have tables := ports.keeps noFlushTlb
  obtain ⟨itlbTags, dtlbTags⟩ := tags_kept noFlushTlb (Or.inr (Or.inr (by
    rw [Ptw.installs, leaf, Bool.and_false]
    rfl)))
  cases lvl with
  | zero => exact absurd path.descends.level notLast
  | succ lvl =>
      have flushInput : (ptwInput s.mmu i.mmu).flush = false := noFlush
      obtain ⟨waits, below⟩ := path.descends.below path.bound phase data flushInput valid leaf
      have next : (s.next i).mmu.ptw = Ptw.next s.mmu.ptw (ptwInput s.mmu i.mmu) := rfl
      have same : (s.next i).mmu.ptw.vaddr = s.mmu.ptw.vaddr ∧
          (s.next i).mmu.ptw.tlbUpdateAsid = s.mmu.ptw.tlbUpdateAsid ∧
          (s.next i).mmu.ptw.isInstrPtw = s.mmu.ptw.isInstrPtw := by
        rw [next]
        exact ⟨below.vaddr, below.asid,
          Ptw.next_isInstrPtw _ _ (by rw [phase]; decide)⟩
      have task : (s.next i).task = s.task := by
        rw [System.task, same.1, same.2.1, same.2.2, tables]
        rfl
      have descends : find s.tables.mem s.task.va (lvl + 1) a g =
          find s.tables.mem s.task.va lvl (Ptw.pte s.mmu.ptw).ppn (g || (Ptw.pte s.mmu.ptw).g) := by
        rw [Sv39.find_eq]
        dsimp only
        rw [← entry, valid, leaf]
        rfl
      refine ⟨lvl, (Ptw.pte s.mmu.ptw).ppn, g || (Ptw.pte s.mmu.ptw).g,
        Nat.le_of_succ_le path.bound, ?_, ?_, ?_, ?_, ?_⟩
      · rw [task]
        exact below
      · rw [task, tables, path.path, descends]
      · rw [task, itlbTags, same.2.2]
        exact path.itlb
      · rw [task, dtlbTags, same.2.2]
        exact path.dtlb
      · intro lookup
        have waiting : (s.next i).mmu.ptw.state = .waitGrant := waits
        rw [waiting] at lookup
        exact absurd lookup (by decide)

theorem Inv.walking_step (inv : Inv s) (ports : Ports s i)
    (busy : (s.next i).mmu.ptw.state = .waitGrant ∨ (s.next i).mmu.ptw.state = .pteLookup) :
    ∃ lvl a g, OnPath (s.next i) lvl a g := by
  have noFlush : i.mmu.flush = false := by
    apply Bool.eq_false_iff.mpr
    intro flush
    have ended : (s.next i).mmu.ptw.state = .idle ∨ (s.next i).mmu.ptw.state = .waitRvalid :=
      Ptw.next_flush_state s.mmu.ptw (ptwInput s.mmu i.mmu) flush
    rcases ended with ended | ended <;> rw [ended] at busy <;> exact absurd busy (by decide)
  have noFlushTlb : i.mmu.flushTlb = false := by
    apply Bool.eq_false_iff.mpr
    intro flush
    rw [ports.flushes flush] at noFlush
    exact absurd noFlush (by decide)
  have accounted := inv.accounted
  rw [Accounted] at accounted
  cases phase : s.mmu.ptw.state with
  | idle =>
      have state : (s.next i).mmu.ptw.state = _ := Ptw.next_idle_state _ _ phase
      cases misses : Ptw.itlbMisses (ptwInput s.mmu i.mmu) ||
          Ptw.dtlbMisses (ptwInput s.mmu i.mmu) with
      | true =>
          rw [Bool.or_eq_true] at misses
          exact ⟨2, _, false, path_of_miss ports noFlush noFlushTlb phase misses⟩
      | false =>
          rw [misses, Bool.and_false] at state
          rw [state] at busy
          exact absurd busy (by decide)
  | propagateError =>
      have step : (s.next i).mmu.ptw = _ := Ptw.next_propagateError _ _ phase
      have ended : (s.next i).mmu.ptw.state = .idle := by
        rw [step]
        rfl
      rw [ended] at busy
      exact absurd busy (by decide)
  | waitRvalid =>
      have step : (s.next i).mmu.ptw = _ := Ptw.next_waitRvalid _ _ phase
      have ended : (s.next i).mmu.ptw.state = .idle ∨ (s.next i).mmu.ptw.state = .waitRvalid := by
        rw [step, Ptw.waiting]
        split
        · exact Or.inl rfl
        · exact Or.inr rfl
      rcases ended with ended | ended <;> rw [ended] at busy <;> exact absurd busy (by decide)
  | waitGrant =>
      obtain ⟨lvl, a, g, path⟩ := inv.walking (Or.inl phase)
      have step : (s.next i).mmu.ptw = _ := Ptw.next_waitGrant _ _ phase
      have answers := ports.answers
      have other : s.mmu.ptw.state ≠ .pteLookup := by
        rw [phase]
        decide
      have quiet : i.mmu.dataRvalid = false := by
        have phase' : s.walker.ptw.state = .waitGrant := phase
        rw [phase'] at accounted
        exact answers.quiet accounted.1
      refine ⟨lvl, a, g, path.waiting ports noFlushTlb (Or.inl other) step ?_⟩
      intro _ arrives
      rw [quiet] at arrives
      exact absurd arrives Bool.false_ne_true
  | pteLookup =>
      obtain ⟨lvl, a, g, path⟩ := inv.walking (Or.inr phase)
      have phase' : s.walker.ptw.state = .pteLookup := phase
      rw [phase'] at accounted
      obtain ⟨r, out, last, address, flushed⟩ := accounted
      cases data : s.mmu.ptw.dataRvalid with
      | false =>
          have step : (s.next i).mmu.ptw = _ := Ptw.next_pteLookup_waiting _ _ phase data
          refine ⟨lvl, a, g, path.waiting ports noFlushTlb (Or.inr data) step ?_⟩
          intro _ arrives
          cases out with
          | pending one _ =>
              have own : s.port.pending.head? = some r := by
                rw [show s.port.pending = [r] from one]
                rfl
              rw [ports.content arrives flushed r own]
              exact congrArg s.tables.mem address
          | arrived _ latched _ =>
              have same : s.mmu.ptw.dataRvalid = true := latched
              rw [data] at same
              exact absurd same Bool.false_ne_true
      | true => exact path.pointer ports noFlush noFlushTlb phase data busy

theorem Inv.step (inv : Inv s) (env : Environment s i) (once : FlushesOnce s i) :
    Inv (s.next i) where
  accounted := inv.accounted.step env.1.answers once
  walking := inv.walking_step env.1
  itlb := inv.itlb_step env
  dtlb := inv.dtlb_step env

theorem Inv.right (inv : Inv s) : TlbsRight s where
  itlb := ⟨inv.itlb.unique, fun _ _ hit => inv.itlb.lookup hit⟩
  dtlb := ⟨inv.dtlb.unique, fun _ _ hit => inv.dtlb.lookup hit⟩
  flush := by
    intro j flush
    exact ⟨⟨Tlb.flush_all _ _ flush, fun _ => Tlb.flush_asid _ _ flush⟩,
      ⟨Tlb.flush_all _ _ flush, fun _ => Tlb.flush_asid _ _ flush⟩⟩

end Steps

section Run

variable {n m w : Nat}

theorem inv_reset (tables : Tables w) : Inv (system n m tables).reset where
  accounted := rfl
  walking := by
    intro busy
    exact absurd busy (by
      rintro (busy | busy) <;> exact Ptw.Phase.noConfusion busy)
  itlb := Tlb.reset_sound tables
  dtlb := Tlb.reset_sound tables

end Run

/-- In every run in which no flush meets `WAIT_RVALID` before its response, no address matches two
entries of a TLB, every hit is the current translation, and flushes leave nothing behind. -/
theorem tlbs_coherent {w : Nat} (n m : Nat) (tables : Tables w) (inputs : List (SystemInput w))
    (legal : (system n m tables).Legal (fun s i => Environment s i ∧ FlushesOnce s i)
      (system n m tables).reset inputs) :
    TlbsRight ((system n m tables).run inputs) := by
  have inv : Inv ((system n m tables).run inputs) :=
    (system n m tables).run_invariant (inv_reset tables)
      (fun s i inv pre => inv.step pre.1 pre.2) legal
  exact inv.right

theorem legal_unchanged {n m w : Nat} {tables : Tables w}
    {extra : System n m w → SystemInput w → Prop} {s : System n m w} {inputs : List (Input w)}
    (legal : (system n m tables).Legal (fun s i => Ports s i ∧ extra s i) s
      (inputs.map (fun i => { mmu := i }))) :
    (system n m tables).Legal (fun s i => Environment s i ∧ extra s i) s
      (inputs.map (fun i => { mmu := i })) := by
  induction inputs generalizing s with
  | nil => trivial
  | cons i rest ih =>
      obtain ⟨⟨ports, more⟩, later⟩ := legal
      exact ⟨⟨⟨ports, fun t change => by cases change⟩, more⟩, ih later⟩

/-- Two gigapages. -/
def gigapages : Tables 1 where
  mem := fun a => if a = 0x1000 then 0xcf else 0x100000cf
  root := fun _ => 1

/-- A load at `va`. -/
def loadAt (va : BitVec 64) : Input 1 :=
  { enLdStTranslation := true, lsuReq := true, lsuVaddr := va, satpPpn := 1 }

def grantWalk : Input 1 := { dataGnt := true, satpPpn := 1 }
def flushPipeline : Input 1 := { flush := true, satpPpn := 1 }
def answerWalk : Input 1 := { dataRvalid := true, dataRdata := 0xcf, satpPpn := 1 }
def idleCycle : Input 1 := { satpPpn := 1 }

/-- A walk that is flushed once, and a second walk. -/
def flushedWalk : List (Input 1) :=
  [loadAt 0, grantWalk, flushPipeline, answerWalk, idleCycle, loadAt 0, grantWalk, answerWalk,
    idleCycle]

theorem tlbs_coherent_flushed :
    TlbsRight ((system 2 2 gigapages).run (flushedWalk.map (fun i => { mmu := i }))) := by
  apply tlbs_coherent 2 2 gigapages
  apply legal_unchanged
  decide

/-- A second flush lets the response for the first gigapage into the entry of the second. -/
def flushedTwice : List (Input 1) :=
  [loadAt 0, grantWalk, flushPipeline, flushPipeline, loadAt 0x40000000, grantWalk, answerWalk,
    idleCycle]

theorem flushed_twice_stale :
    ¬ ∀ (tables : Tables 1) inputs, (system 2 2 tables).Legal Environment
      (system 2 2 tables).reset inputs → TlbsRight ((system 2 2 tables).run inputs) := by
  intro right
  have ports : (system 2 2 gigapages).Legal (fun s i => Ports s i ∧ True)
      (system 2 2 gigapages).reset (flushedTwice.map (fun i => { mmu := i })) := by
    decide
  have legal := (legal_unchanged ports).mono (fun _ _ both => both.1)
  obtain ⟨l, found, content, _⟩ :=
    (right gigapages _ legal).dtlb.current 0 0x40000000 (by decide)
  have leaf : ((system 2 2 gigapages).run
      (flushedTwice.map (fun i => { mmu := i }))).tables.lookup 0 0x40000000 =
        some ⟨0x100000cf, 2, false⟩ := by
    decide
  have same := Option.some.inj (found.symm.trans leaf)
  rw [same] at content
  exact absurd content (by decide)

end Ariane.Mmu
