import Ariane.StoreBuffer

set_option autoImplicit false

/- The store buffer refines a list of stores in program order with two marks: how many
of them are committed and how many of these the data cache has granted. -/
namespace Ariane.StoreBuffer

open Rtl (Machine Queue)
open Rtl.Ring
open Rtl.Queue (Represents)

/-- The handshake of the neighbours, which the assertions of the source demand. -/
structure Contract (cfg : Config) (s : State) (i : Input) : Prop where
  room : i.valid = true → s.speculative.count < cfg.depthSpec
  waiting : i.commit = true → 0 < s.speculative.count
  ready : i.commit = true → commitReady cfg s = true
  exclusive : i.commit = true → i.flush = false

instance decidableContract (cfg : Config) (s : State) (i : Input) :
    Decidable (Contract cfg s i) :=
  decidable_of_iff
    ((i.valid = true → s.speculative.count < cfg.depthSpec) ∧
      (i.commit = true → 0 < s.speculative.count) ∧
      (i.commit = true → commitReady cfg s = true) ∧
      (i.commit = true → i.flush = false))
    ⟨fun ⟨room, waiting, ready, exclusive⟩ => ⟨room, waiting, ready, exclusive⟩,
      fun contract => ⟨contract.room, contract.waiting, contract.ready, contract.exclusive⟩⟩

/-- A queue depth for which the declared pointers wrap at the end of the array. -/
def Deep (depth : Nat) : Prop := 2 ≤ depth ∧ ∃ k, depth = 2 ^ k

theorem ptrInc_eq (depth p : Nat) (deep : Deep depth) : ptrInc depth p = (p + 1) % depth := by
  obtain ⟨large, k, power⟩ := deep
  rw [ptrInc, two_pow_ptrBits depth k power large]

theorem cntInc_eq (depth c : Nat) (room : c < depth) : cntInc depth c = c + 1 := by
  have wide : depth + 1 < 2 ^ (depth + 1) := Nat.lt_two_pow_self
  rw [cntInc, Nat.mod_eq_of_lt (by omega)]

theorem cntDec_eq (depth c : Nat) (some : 0 < c) (bounded : c ≤ depth) :
    cntDec depth c = c - 1 := by
  have wide : depth + 1 < 2 ^ (depth + 1) := Nat.lt_two_pow_self
  rw [cntDec, show c + (2 ^ (depth + 1) - 1) = c - 1 + 2 ^ (depth + 1) by omega,
    Nat.add_mod_right, Nat.mod_eq_of_lt (by omega)]

theorem cntReg_eq (depth c : Nat) (deep : Deep depth) (bounded : c ≤ depth) :
    cntReg depth c = c := by
  obtain ⟨large, k, power⟩ := deep
  have wide : 2 ^ (clog2 depth + 1) = 2 * depth := by
    rw [Nat.pow_succ, power, clog2_two_pow, Nat.mul_comm]
  rw [cntReg, wide, Nat.mod_eq_of_lt (by omega)]

section Speculative

variable {depth : Nat} {q : Queue Entry} {held : List Entry}

/-- The list after a push. -/
def pushed (i : Input) : List Entry := if i.valid then [i.entry] else []

theorem putSpeculative_represents (deep : Deep depth) (i : Input)
    (rep : Represents depth Entry.valid q held) (room : i.valid = true → q.count < depth) :
    Represents depth Entry.valid (putSpeculative depth i q) (held ++ pushed i) := by
  unfold putSpeculative pushed
  by_cases push : i.valid = true
  · have place : q.writePointer < depth := rep.tail ▸ slot_lt depth _ _ rep.positive
    simp only [push, ↓reduceIte, write_of_lt depth _ _ _ place, ptrInc_eq depth _ deep,
      cntInc_eq depth _ (room push)]
    exact rep.push i.entry rfl (room push)
  · simp only [push, Bool.false_eq_true, ↓reduceIte, List.append_nil]
    exact rep

theorem evictSpeculative_represents (deep : Deep depth) (i : Input)
    (rep : Represents depth Entry.valid q held) (some : i.commit = true → 0 < q.count) :
    Represents depth Entry.valid (evictSpeculative depth q.readPointer i q)
      (if i.commit then held.tail else held) := by
  unfold evictSpeculative
  by_cases evict : i.commit = true
  · have positive := some evict
    obtain ⟨first, rest, rfl⟩ : ∃ first rest, held = first :: rest := by
      apply List.exists_cons_of_length_pos
      rw [rep.length]
      exact positive
    simp only [evict, ↓reduceIte, write_of_lt depth _ _ _ rep.inside, ptrInc_eq depth _ deep,
      cntDec_eq depth _ positive rep.bounded, List.tail_cons]
    exact rep.pop _ rfl
  · simp only [evict, Bool.false_eq_true, ↓reduceIte]
    exact rep

theorem flushSpeculative_represents (head : Nat) (i : Input)
    (rep : Represents depth Entry.valid q held)
    (same : i.flush = true → q.readPointer = head) :
    Represents depth Entry.valid (flushSpeculative head i q)
      (if i.flush then [] else held) := by
  unfold flushSpeculative
  by_cases flush : i.flush = true
  · simp only [flush, ↓reduceIte, ← same flush]
    exact rep.clear _ fun _ => rfl
  · simp only [flush, Bool.false_eq_true, ↓reduceIte]
    exact rep

end Speculative

/-- Pushes, commits and flushes of the speculative queue in one cycle. -/
theorem coreIf_represents (cfg : Config) (s : State) (i : Input) (held : List Entry)
    (deep : Deep cfg.depthSpec) (rep : Represents cfg.depthSpec Entry.valid s.speculative held)
    (contract : Contract cfg s i) :
    Represents cfg.depthSpec Entry.valid (coreIf cfg s i)
      (if i.flush then [] else
        if i.commit then (held ++ pushed i).tail else held ++ pushed i) := by
  have put := putSpeculative_represents deep i rep contract.room
  have pointer : (putSpeculative cfg.depthSpec i s.speculative).readPointer =
      s.speculative.readPointer := by
    unfold putSpeculative
    split <;> rfl
  have more : s.speculative.count ≤ (putSpeculative cfg.depthSpec i s.speculative).count := by
    have longer := put.length
    rw [List.length_append, rep.length] at longer
    omega
  have evicted := evictSpeculative_represents deep i put
    fun commit => Nat.lt_of_lt_of_le (contract.waiting commit) more
  rw [pointer] at evicted
  unfold coreIf
  apply flushSpeculative_represents
  · rw [cntReg_eq _ _ deep evicted.bounded]
    exact evicted
  · intro flush
    have idle : i.commit = false := by
      cases commit : i.commit with
      | false => rfl
      | true => exact absurd flush (by simp [contract.exclusive commit])
    simp only [evictSpeculative, idle, Bool.false_eq_true, ↓reduceIte, pointer]

section Commit

variable {depth : Nat} {q : Queue Entry} {held : List Entry}

theorem evictCommit_represents (deep : Deep depth) (i : Input)
    (rep : Represents depth Entry.valid q held) :
    Represents depth Entry.valid (evictCommit depth i q)
      (if i.dataGnt then held.tail else held) := by
  unfold evictCommit
  by_cases grant : i.dataGnt = true
  · simp only [grant, Bool.and_true, ↓reduceIte]
    cases held with
    | nil =>
        have idle : (q.mem q.readPointer).valid = false := by
          rw [Bool.eq_false_iff]
          exact fun set => rep.head_valid.mp set rfl
        simp only [idle, Bool.false_eq_true, ↓reduceIte, List.tail_nil]
        exact rep
    | cons first rest =>
        have set : (q.mem q.readPointer).valid = true :=
          rep.head_valid.mpr (List.cons_ne_nil _ _)
        have positive : 0 < q.count := by
          rw [← rep.length, List.length_cons]
          exact Nat.succ_pos _
        simp only [set, ↓reduceIte, write_of_lt depth _ _ _ rep.inside,
          ptrInc_eq depth _ deep, cntDec_eq depth _ positive rep.bounded, List.tail_cons]
        exact rep.pop _ rfl
  · simp only [grant, Bool.and_false, Bool.false_eq_true, ↓reduceIte]
    exact rep

theorem putCommit_represents (deep : Deep depth) (e : Entry) (i : Input)
    (rep : Represents depth Entry.valid q held) (room : i.commit = true → q.count < depth)
    (mark : i.commit = true → e.valid = true) :
    Represents depth Entry.valid (putCommit depth e i q)
      (held ++ if i.commit then [e] else []) := by
  unfold putCommit
  by_cases put : i.commit = true
  · have place : q.writePointer < depth := rep.tail ▸ slot_lt depth _ _ rep.positive
    simp only [put, ↓reduceIte, write_of_lt depth _ _ _ place, ptrInc_eq depth _ deep,
      cntInc_eq depth _ (room put)]
    exact rep.push e (mark put) (room put)
  · simp only [put, Bool.false_eq_true, ↓reduceIte, List.append_nil]
    exact rep

end Commit

/-- Grants and commits of the commit queue in one cycle. -/
theorem storeIf_represents (cfg : Config) (s : State) (i : Input) (waiting held : List Entry)
    (deep : Deep cfg.depthCommit)
    (source : Represents cfg.depthSpec Entry.valid s.speculative waiting)
    (rep : Represents cfg.depthCommit Entry.valid s.commit held)
    (contract : Contract cfg s i) :
    Represents cfg.depthCommit Entry.valid (storeIf cfg s i)
      ((if i.dataGnt then held.tail else held) ++ if i.commit then waiting.take 1 else []) := by
  have evicted := evictCommit_represents deep i rep
  have fewer : (evictCommit cfg.depthCommit i s.commit).count ≤ s.commit.count := by
    rw [← evicted.length, ← rep.length]
    split
    · rw [List.length_tail]
      omega
    · exact Nat.le_refl _
  have head : i.commit = true →
      ∃ e rest, waiting = e :: rest ∧ s.speculative.mem s.speculative.readPointer = e := by
    intro commit
    obtain ⟨e, rest, rfl⟩ : ∃ e rest, waiting = e :: rest := by
      apply List.exists_cons_of_length_pos
      rw [source.length]
      exact contract.waiting commit
    exact ⟨e, rest, rfl, source.head⟩
  have put := putCommit_represents deep (s.speculative.mem s.speculative.readPointer) i evicted
    (fun commit => by
      have room := contract.ready commit
      simp only [commitReady, decide_eq_true_eq] at room
      omega)
    (fun commit => by
      obtain ⟨e, rest, rfl, first⟩ := head commit
      rw [first]
      exact source.valid_of_mem List.mem_cons_self)
  unfold storeIf
  dsimp only
  rw [cntReg_eq _ _ deep put.bounded]
  convert put using 2
  by_cases commit : i.commit = true
  · obtain ⟨e, rest, rfl, first⟩ := head commit
    simp only [commit, ↓reduceIte, first, List.take_succ_cons, List.take_zero]
  · simp only [commit, Bool.false_eq_true, ↓reduceIte]

/-- Abstract view: the stores in program order that no flush has dropped, how many of them
are committed, and what the data cache has granted so far. -/
structure Ledger (cfg : Config) where
  program : List Entry := []
  committed : Nat := 0
  granted : List (Request cfg) := []

/-- What one cycle at the ports means for the ledger. -/
def record (cfg : Config) (s : State) (i : Input) (h : Ledger cfg) : Ledger cfg where
  program := if i.flush then h.program.take h.committed else h.program ++ pushed i
  committed := if i.commit then h.committed + 1 else h.committed
  granted := if dataReq s && i.dataGnt then h.granted ++ [reqPort cfg s] else h.granted

/-- Both queues hold their part of the ledger. -/
structure Refines (cfg : Config) (s : State) (h : Ledger cfg)
    (performed pending waiting : List Entry) : Prop where
  program : h.program = performed ++ pending ++ waiting
  committed : h.committed = (performed ++ pending).length
  granted : h.granted = performed.map (Entry.request cfg)
  commit : Represents cfg.depthCommit Entry.valid s.commit pending
  speculative : Represents cfg.depthSpec Entry.valid s.speculative waiting

theorem emptyQueue_represents (depth : Nat) (deep : Deep depth) :
    Represents depth Entry.valid emptyQueue [] :=
  Represents.of_invalid _ 0 (Nat.lt_of_lt_of_le Nat.zero_lt_two deep.1) fun _ => rfl

theorem reset_refines (cfg : Config) (deepSpec : Deep cfg.depthSpec)
    (deepCommit : Deep cfg.depthCommit) : Refines cfg reset {} [] [] [] :=
  ⟨rfl, rfl, rfl, emptyQueue_represents _ deepCommit, emptyQueue_represents _ deepSpec⟩

/-- What the port carries in a granted cycle is the oldest pending store. -/
theorem record_granted (cfg : Config) (s : State) (i : Input) (h : Ledger cfg)
    (performed pending waiting : List Entry) (refines : Refines cfg s h performed pending waiting) :
    (record cfg s i h).granted =
      (performed ++ if i.dataGnt then pending.take 1 else []).map (Entry.request cfg) := by
  unfold record
  dsimp only
  cases pending with
  | nil =>
      have idle : dataReq s = false := by
        rw [Bool.eq_false_iff]
        exact fun set => refines.commit.head_valid.mp set rfl
      simp only [idle, Bool.false_and, Bool.false_eq_true, ↓reduceIte, refines.granted,
        List.take_nil, ite_self, List.append_nil]
  | cons first rest =>
      have set : dataReq s = true := refines.commit.head_valid.mpr (List.cons_ne_nil _ _)
      have head : commitHead s = first := refines.commit.head
      simp only [set, Bool.true_and, reqPort, head, refines.granted]
      split
      · rw [List.map_append]
        rfl
      · rw [List.append_nil]

/-- One cycle of the buffer is one cycle of the ledger. -/
theorem next_refines (cfg : Config) (s : State) (i : Input) (h : Ledger cfg)
    (performed pending waiting : List Entry) (deepSpec : Deep cfg.depthSpec)
    (deepCommit : Deep cfg.depthCommit) (contract : Contract cfg s i)
    (refines : Refines cfg s h performed pending waiting) :
    ∃ performed' pending' waiting',
      Refines cfg (next cfg s i) (record cfg s i h) performed' pending' waiting' := by
  have spec := coreIf_represents cfg s i waiting deepSpec refines.speculative contract
  have commit := storeIf_represents cfg s i waiting pending deepCommit refines.speculative
    refines.commit contract
  have granted := record_granted cfg s i h performed pending waiting refines
  -- a grant moves the boundary between performed and pending
  have moved : (performed ++ if i.dataGnt then pending.take 1 else []) ++
      (if i.dataGnt then pending.tail else pending) = performed ++ pending := by
    cases i.dataGnt with
    | false => simp
    | true =>
        cases pending with
        | nil => simp
        | cons first rest => simp
  refine ⟨_, _, _, ⟨?_, ?_, granted, commit, spec⟩⟩
  · rw [← List.append_assoc, moved]
    unfold record
    dsimp only
    cases commits : i.commit with
    | false =>
        cases i.flush with
        | false => simp [refines.program]
        | true =>
            have kept : h.program.take h.committed = performed ++ pending := by
              rw [refines.program, refines.committed, List.take_left']
              rfl
            simp [kept]
    | true =>
        obtain ⟨first, rest, rfl⟩ : ∃ first rest, waiting = first :: rest := by
          apply List.exists_cons_of_length_pos
          rw [refines.speculative.length]
          exact contract.waiting commits
        simp [contract.exclusive commits, refines.program]
  · rw [← List.append_assoc, moved, List.length_append, ← refines.committed]
    unfold record
    dsimp only
    cases commits : i.commit with
    | false => simp
    | true =>
        have long : 0 < waiting.length := by
          rw [refines.speculative.length]
          exact contract.waiting commits
        simp only [↓reduceIte, List.length_take]
        omega

/-- The buffer together with its ledger. -/
def ledgered (cfg : Config) : Machine (State × Ledger cfg) Input :=
  (machine cfg).watched {} (record cfg)

theorem run_refines (cfg : Config) (inputs : List Input) (deepSpec : Deep cfg.depthSpec)
    (deepCommit : Deep cfg.depthCommit)
    (legal : (machine cfg).Legal (Contract cfg) reset inputs) :
    ∃ performed pending waiting,
      Refines cfg ((ledgered cfg).run inputs).1 ((ledgered cfg).run inputs).2
        performed pending waiting := by
  have init : ∃ performed pending waiting,
      Refines cfg (ledgered cfg).reset.1 (ledgered cfg).reset.2 performed pending waiting :=
    ⟨[], [], [], reset_refines cfg deepSpec deepCommit⟩
  have step : ∀ (t : State × Ledger cfg) (i : Input),
      (∃ performed pending waiting, Refines cfg t.1 t.2 performed pending waiting) →
      Contract cfg t.1 i →
      ∃ performed pending waiting, Refines cfg ((ledgered cfg).next t i).1
        ((ledgered cfg).next t i).2 performed pending waiting := by
    intro t i held contract
    obtain ⟨performed, pending, waiting, refines⟩ := held
    exact next_refines cfg t.1 i t.2 performed pending waiting deepSpec deepCommit contract
      refines
  have watched : (ledgered cfg).Legal (fun t i => Contract cfg t.1 i) (reset, {}) inputs :=
    (machine cfg).watched_legal ({} : Ledger cfg) (record cfg) (Contract cfg) legal
  exact (ledgered cfg).run_invariant init step watched

theorem queueMatches_iff (depth : Nat) (q : Queue Entry) (held : List Entry)
    (offset : BitVec 12) (rep : Represents depth Entry.valid q held) :
    queueMatches depth q offset = true ↔
      ∃ e ∈ held, pageDoubleword offset = pageDoubleword e.address := by
  rw [← rep.found_iff fun e => pageDoubleword offset = pageDoubleword e.address]
  unfold queueMatches
  simp only [List.any_eq_true, List.mem_range, Bool.and_eq_true, beq_iff_eq]
  constructor
  · intro hit
    obtain ⟨j, inside, here, set⟩ := hit
    exact ⟨j, inside, set, here⟩
  · intro hit
    obtain ⟨j, inside, set, here⟩ := hit
    exact ⟨j, inside, here, set⟩

/-- The store buffer is a two-stage queue. In every run the cache is granted the committed
stores in program order, each once; a flush cuts the program back to the committed stores;
the counters count the valid entries; and the outputs report exactly what is outstanding. -/
theorem refines_two_stage_fifo (cfg : Config) (inputs : List Input)
    (deepSpec : Deep cfg.depthSpec) (deepCommit : Deep cfg.depthCommit)
    (legal : (machine cfg).Legal (Contract cfg) reset inputs) :
    let s := (machine cfg).run inputs
    let h := ((ledgered cfg).run inputs).2
    (h.granted.length ≤ h.committed ∧ h.committed ≤ h.program.length ∧
      h.granted = (h.program.take h.granted.length).map (Entry.request cfg)) ∧
    (((Finset.range cfg.depthCommit).filter fun j => (s.commit.mem j).valid = true).card =
        s.commit.count ∧ s.commit.count = h.committed - h.granted.length) ∧
    (((Finset.range cfg.depthSpec).filter fun j => (s.speculative.mem j).valid = true).card =
        s.speculative.count ∧ s.speculative.count = h.program.length - h.committed) ∧
    (noStPending s = true ↔ h.granted.length = h.committed) ∧
    (dataReq s = true ↔ h.granted.length < h.committed) ∧
    (∀ i, (pageOffsetMatches cfg s i = true ↔
      (∃ e ∈ h.program.drop h.granted.length,
        pageDoubleword i.pageOffset = pageDoubleword e.address) ∨
      (pageDoubleword i.pageOffset = pageDoubleword i.paddr ∧ i.validWithoutFlush = true))) := by
  intro s h
  have same : ((ledgered cfg).run inputs).1 = s := (machine cfg).watched_run _ _ inputs
  obtain ⟨performed, pending, waiting, refines⟩ :=
    run_refines cfg inputs deepSpec deepCommit legal
  rw [same] at refines
  change Refines cfg s h performed pending waiting at refines
  have count : h.granted.length = performed.length := by
    rw [refines.granted, List.length_map]
  have total : h.committed = performed.length + pending.length := by
    rw [refines.committed, List.length_append]
  have longest : h.program.length = performed.length + pending.length + waiting.length := by
    rw [refines.program, List.length_append, List.length_append]
  have held := refines.commit.length
  have heldSpec := refines.speculative.length
  refine ⟨⟨by omega, by omega, ?_⟩, ⟨refines.commit.card, by omega⟩,
    ⟨refines.speculative.card, by omega⟩, ?_, ?_, ?_⟩
  · rw [count, refines.program, List.append_assoc, List.take_left', refines.granted]
    rfl
  · simp only [noStPending, beq_iff_eq]
    omega
  · rw [dataReq, commitHead, refines.commit.head_valid, ← List.length_pos_iff]
    omega
  · intro i
    have outstanding : h.program.drop h.granted.length = pending ++ waiting := by
      rw [count, refines.program, List.append_assoc, List.drop_left']
      rfl
    simp only [pageOffsetMatches, Bool.or_eq_true, Bool.and_eq_true, beq_iff_eq,
      queueMatches_iff _ _ _ _ refines.commit, queueMatches_iff _ _ _ _ refines.speculative,
      outstanding, List.mem_append, or_and_right, exists_or]

/-- The depths and cache widths of the shipped configuration. -/
def defaultConfig : Config where
  depthSpec := 4
  depthCommit := 8
  indexWidth := 12
  tagWidth := 44

/-- Two stores, one of which commits and is granted before a flush drops the other. -/
def twoStores : List Input :=
  [{ valid := true, paddr := 0x80#64, data := 1 }, { valid := true, paddr := 0x88#64, data := 2 },
    { commit := true }, { dataGnt := true }, { flush := true }]

theorem refines_two_stage_fifo_twoStores :
    let h := ((ledgered defaultConfig).run twoStores).2
    h.granted.length ≤ h.committed ∧ h.committed ≤ h.program.length ∧
      h.granted = (h.program.take h.granted.length).map (Entry.request defaultConfig) :=
  (refines_two_stage_fifo defaultConfig twoStores ⟨by decide, 2, rfl⟩ ⟨by decide, 3, rfl⟩
    (by decide)).1

/-- The handshake without the overflow assertion: a push also while the speculative queue
is full and its head commits. -/
def LooseContract (cfg : Config) (s : State) (i : Input) : Prop :=
  (i.valid = true → s.speculative.count < cfg.depthSpec ∨ i.commit = true) ∧
    (i.commit = true → 0 < s.speculative.count ∧ commitReady cfg s = true ∧ i.flush = false)

instance decidableLooseContract (cfg : Config) (s : State) (i : Input) :
    Decidable (LooseContract cfg s i) :=
  inferInstanceAs (Decidable (_ ∧ _))

/-- Four stores fill the queue; the fifth arrives in the cycle in which the first commits. -/
def pushWhileFull : List Input :=
  [{ valid := true, paddr := 0x80#64 }, { valid := true, paddr := 0x88#64 },
    { valid := true, paddr := 0x90#64 }, { valid := true, paddr := 0x98#64 },
    { valid := true, paddr := 0xa0#64, commit := true }]

/-- Then everything commits and the cache grants every request. -/
def drained : List Input :=
  pushWhileFull ++ List.replicate 4 { commit := true } ++ List.replicate 8 { dataGnt := true }

/-- One slot has pointers of two bits: the second store is written past the array. -/
def singleSlot : List Input :=
  [{ valid := true, paddr := 0x80#64 }, { commit := true }, { valid := true, paddr := 0x88#64 }]

/-- Pushing into a full queue that commits loses the store: its entry is not valid, the
address checker does not see it, and once committed it blocks the commit queue for good.
With a single slot the counter disagrees with the valid bits under every handshake. -/
theorem loose_handshake_loses_store :
    ((machine defaultConfig).Legal (LooseContract defaultConfig) reset drained ∧
      (let s := (machine defaultConfig).run pushWhileFull
       s.speculative.count = 4 ∧
        ((List.range 4).filter fun j => (s.speculative.mem j).valid).length = 3 ∧
        pageOffsetMatches defaultConfig s { pageOffset := 0xa0#12 } = false) ∧
      (let h := ((ledgered defaultConfig).run drained).2
       h.committed = 5 ∧ h.granted.length = 4 ∧
        dataReq ((machine defaultConfig).run drained) = false)) ∧
    (let cfg := { defaultConfig with depthSpec := 1 }
     (machine cfg).Legal (Contract cfg) reset singleSlot ∧
      (let s := (machine cfg).run singleSlot
       s.speculative.count = 1 ∧
        ((List.range 1).filter fun j => (s.speculative.mem j).valid).length = 0)) := by
  decide +kernel

end Ariane.StoreBuffer
