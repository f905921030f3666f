import Ariane.AmoFlush

set_option autoImplicit false

/- What a current cache is, and that a store that hits keeps it current. -/
namespace Ariane.MissHandler

variable {g : Geometry} {victim : Victim g} {align : Align}

/-- One way. -/
def only (w : Fin g.ways) : WayMask g := fun k => decide (k = w)

/-- A way of the set holds the line. -/
def Holds (array : Array g) (tag : BitVec g.tagWidth) (set : BitVec g.setBits) (k : Fin g.ways) :
    Prop :=
  (array set k).valid = true ∧ (array set k).tag = tag

/-- The memory of a line, with the store that waits for the line. -/
def System.settled (s : System g) (tag : BitVec g.tagWidth) (set : BitVec g.setBits) :
    LineData g :=
  if s.handler.state = .saveCacheline ∧ tag = s.handler.mshr.addr.tag ∧
      set = s.handler.mshr.addr.set then
    refill s.handler.mshr (s.memory tag set)
  else s.memory tag set

/-- A load finds the current value, in the cache or in the memory. -/
structure Coherent (s : System g) : Prop where
  unique : ∀ tag set k k', Holds s.array tag set k → Holds s.array tag set k' → k = k'
  cached : ∀ tag set k, Holds s.array tag set k → (s.array set k).data = s.view tag set
  clean : ∀ tag set k, Holds s.array tag set k → (s.array set k).dirty = false →
    s.memory tag set = s.view tag set
  absent : ∀ tag set, (∀ k, ¬ Holds s.array tag set k) → s.settled tag set = s.view tag set

/-- A miss is served. -/
def serving (state : FsmState) : Bool :=
  state == .miss || state == .missRepl || state == .wbCachelineMiss || state == .reqCacheline ||
    state == .saveCacheline

/-- What the registers of the handler say about the lines. -/
structure Phase (s : System g) : Prop where
  mshr : s.handler.mshr.valid = serving s.handler.state
  line : serving s.handler.state = true →
    ∀ k, ¬ Holds s.array s.handler.mshr.addr.tag s.handler.mshr.addr.set k
  replaces : s.handler.state = .missRepl → s.dataI = s.array s.handler.mshr.addr.set
  frees : s.handler.state = .reqCacheline ∨ s.handler.state = .saveCacheline →
    ∃ w, s.handler.evictWay = only w ∧
      ((s.array s.handler.mshr.addr.set w).valid &&
        (s.array s.handler.mshr.addr.set w).dirty) = false
  evicts : s.handler.state = .wbCachelineMiss ∨ s.handler.state = .wbCachelineFlush →
    ∃ w, s.handler.evictWay = only w ∧
      Holds s.array s.handler.evictTag s.handler.cnt w ∧
      (s.array s.handler.cnt w).data = s.handler.evictData
  same : s.handler.state = .wbCachelineMiss → s.handler.cnt = s.handler.mshr.addr.set
  loaded : s.handler.state = .amoStore →
    ∃ a, s.pendingAmo = some a ∧ s.handler.mshr.wdata = s.memory.word a.operandA

/-- What holds between two cycles. -/
structure Current (s : System g) : Prop where
  starting : s.handler.state = .init →
    s.view = s.memory ∧ ∀ set < s.handler.cnt, ∀ k, (s.array set k).valid = false
  coherent : s.handler.state ≠ .init → Coherent s
  phase : Phase s

section Store

variable {s : System g} {i : SystemInput g} {st : Store g}

/-- The system after a store that is granted. -/
def System.stored (s : System g) (st : Store g) : System g :=
  { s with
    array := st.write s.array
    view := s.view.writeWord st.addr (mergeWord (s.view.word st.addr) st.wdata st.be) }

/-- A cycle with a store is the store and then the cycle. -/
theorem next_stored (store : i.store = some st)
    (port : anyWay (s.output victim align i).sram.req = false)
    (read : (s.output victim align i).sram.we = false) :
    s.next victim align i = (s.stored st).next victim align { i with store := none } := by
  have same : (s.stored st).output victim align { i with store := none } =
      s.output victim align i := rfl
  have array : s.nextArray victim align i =
      (s.stored st).nextArray victim align { i with store := none } := by
    rw [System.nextArray, store, System.nextArray, same, write_read read, write_read read]
    rfl
  have view : s.nextView victim align i =
      (s.stored st).nextView victim align { i with store := none } := by
    rw [System.nextView, store, System.nextView, same]
    rfl
  have accepts : (s.stored st).accepts victim align { i with store := none } =
      s.accepts victim align i := rfl
  have memory : (s.stored st).nextMemory victim align { i with store := none } =
      s.nextMemory victim align i := rfl
  rw [System.next, System.next, array, view, accepts, memory, same, port]
  rfl

/-- The line that a store hits is written, the others stay. -/
theorem stored_array (set : BitVec g.setBits) (k : Fin g.ways) :
    (s.stored st).array set k =
      if set = st.addr.set ∧ k = st.way then
        { s.array set k with
          data := Function.update (s.array set k).data st.addr.word
            (mergeWord ((s.array set k).data st.addr.word) st.wdata st.be)
          valid := true
          dirty := true }
      else s.array set k := rfl

theorem holds_stored (hit : Holds s.array st.addr.tag st.addr.set st.way)
    (tag : BitVec g.tagWidth) (set : BitVec g.setBits) (k : Fin g.ways) :
    Holds (s.stored st).array tag set k ↔ Holds s.array tag set k := by
  rw [Holds, Holds, stored_array]
  by_cases here : set = st.addr.set ∧ k = st.way
  · rw [if_pos here, here.1, here.2, hit.1]
  · rw [if_neg here]

/-- A store keeps the cache current: it writes the only copy. -/
theorem Coherent.stored (coherent : Coherent s)
    (hit : Holds s.array st.addr.tag st.addr.set st.way) : Coherent (s.stored st) := by
  have view (tag : BitVec g.tagWidth) (set : BitVec g.setBits) :
      (s.stored st).view tag set =
        if tag = st.addr.tag ∧ set = st.addr.set then
          Function.update (s.view tag set) st.addr.word
            (mergeWord (s.view.word st.addr) st.wdata st.be)
        else s.view tag set := rfl
  have sole {tag : BitVec g.tagWidth} {set : BitVec g.setBits} {k : Fin g.ways}
      (holds : Holds s.array tag set k) (same : tag = st.addr.tag ∧ set = st.addr.set) :
      k = st.way := by
    rw [same.1, same.2] at holds
    exact coherent.unique _ _ _ _ holds hit
  constructor
  · intro tag set k k' first second
    rw [holds_stored hit] at first second
    exact coherent.unique tag set k k' first second
  · intro tag set k holds
    rw [holds_stored hit] at holds
    rw [stored_array, view]
    by_cases same : tag = st.addr.tag ∧ set = st.addr.set
    · have way := sole holds same
      have data := coherent.cached _ _ _ holds
      rw [if_pos ⟨same.2, way⟩, if_pos same]
      show Function.update (s.array set k).data _ _ = _
      rw [data, same.1, same.2]
      rfl
    · have other : ¬ (set = st.addr.set ∧ k = st.way) := by
        rintro ⟨rfl, rfl⟩
        exact same ⟨holds.2.symm.trans hit.2, rfl⟩
      rw [if_neg other, if_neg same]
      exact coherent.cached tag set k holds
  · intro tag set k holds clean
    rw [holds_stored hit] at holds
    rw [stored_array] at clean
    rw [view]
    by_cases same : tag = st.addr.tag ∧ set = st.addr.set
    · rw [if_pos ⟨same.2, sole holds same⟩] at clean
      exact absurd clean.symm Bool.false_ne_true
    · have other : ¬ (set = st.addr.set ∧ k = st.way) := by
        rintro ⟨rfl, rfl⟩
        exact same ⟨holds.2.symm.trans hit.2, rfl⟩
      rw [if_neg other] at clean
      rw [if_neg same]
      exact coherent.clean tag set k holds clean
  · intro tag set absent
    have before : ∀ k, ¬ Holds s.array tag set k := by
      intro k holds
      exact absent k ((holds_stored hit tag set k).mpr holds)
    rw [view, if_neg]
    · exact coherent.absent tag set before
    · rintro ⟨rfl, rfl⟩
      exact before st.way hit

/-- A store leaves the set that is served alone. -/
theorem Phase.stored (phase : Phase s) (hit : Holds s.array st.addr.tag st.addr.set st.way)
    (apart : s.handler.mshr.valid = true → st.addr.set ≠ s.handler.mshr.addr.set)
    (quiet : flushes s.handler.state = false) : Phase (s.stored st) := by
  have away : serving s.handler.state = true →
      (s.stored st).array s.handler.mshr.addr.set = s.array s.handler.mshr.addr.set := by
    intro serves
    funext k
    rw [stored_array, if_neg]
    rintro ⟨set, -⟩
    exact apart (phase.mshr.trans serves) set.symm
  constructor
  · exact phase.mshr
  · intro serves k
    rw [holds_stored hit]
    exact phase.line serves k
  · intro state
    show s.dataI = (s.stored st).array s.handler.mshr.addr.set
    have state : s.handler.state = .missRepl := state
    rw [away (by rw [state]; rfl)]
    exact phase.replaces state
  · intro state
    have serves : serving s.handler.state = true := by
      rcases state with state | state
      · exact (congrArg serving state).trans rfl
      · exact (congrArg serving state).trans rfl
    obtain ⟨w, mask, free⟩ := phase.frees state
    refine ⟨w, mask, ?_⟩
    show (((s.stored st).array s.handler.mshr.addr.set w).valid &&
      ((s.stored st).array s.handler.mshr.addr.set w).dirty) = false
    rw [away serves]
    exact free
  · intro state
    obtain ⟨w, mask, holds, data⟩ := phase.evicts state
    have miss : s.handler.state = .wbCachelineMiss := by
      rcases state with state | state
      · exact state
      · have state : s.handler.state = .wbCachelineFlush := state
        rw [state] at quiet
        exact absurd quiet.symm Bool.false_ne_true
    have set : s.handler.cnt = s.handler.mshr.addr.set := phase.same miss
    have kept : (s.stored st).array s.handler.cnt = s.array s.handler.cnt := by
      rw [set]
      exact away (by rw [miss]; rfl)
    refine ⟨w, mask, ?_, ?_⟩
    · exact (holds_stored hit _ _ _).mpr holds
    · show ((s.stored st).array s.handler.cnt w).data = _
      rw [kept]
      exact data
  · exact phase.same
  · exact phase.loaded

end Store

section Write

variable {array : Array g} {w : Fin g.ways} {row : BitVec g.setBits}

theorem anyWay_only : anyWay (only w) = true := decide_eq_true ⟨w, decide_eq_true rfl⟩

theorem anyWay_first (w : Fin g.ways) : anyWay (firstWay (g := g)) = true :=
  decide_eq_true ⟨⟨0, Nat.lt_of_le_of_lt (Nat.zero_le _) w.isLt⟩, rfl⟩

/-- A refill replaces one line. -/
theorem write_refill (line : CacheLine g) (set : BitVec g.setBits) (k : Fin g.ways) :
    SramReq.write
        { req := only w, set := row, we := true, line := true, vldrty := only w, data := line }
        array set k = if set = row ∧ k = w then line else array set k := by
  by_cases here : set = row
  · by_cases way : k = w
    · simp [SramReq.write, here, way, anyWay_only, only]
    · simp [SramReq.write, here, way, only]
  · simp [SramReq.write, here]

/-- A write back clears the bits of one line. -/
theorem write_status (valid : Bool) (set : BitVec g.setBits) (k : Fin g.ways) :
    SramReq.write
        { req := firstWay, set := row, we := true, vldrty := only w, data := { valid := valid } }
        array set k =
      if set = row ∧ k = w then { array set k with valid := valid, dirty := false }
      else array set k := by
  by_cases here : set = row
  · by_cases way : k = w
    · simp [SramReq.write, here, way, anyWay_first w, only]
    · simp [SramReq.write, here, way, only]
  · simp [SramReq.write, here]

end Write

section Step

variable {s : System g} {i : SystemInput g}

theorem Coherent.kept {t : System g} (coherent : Coherent s) (array : t.array = s.array)
    (memory : t.memory = s.memory) (view : t.view = s.view)
    (before : s.handler.state ≠ .saveCacheline) (after : t.handler.state ≠ .saveCacheline) :
    Coherent t := by
  constructor
  · rw [array]
    exact coherent.unique
  · rw [array, view]
    exact coherent.cached
  · rw [array, memory, view]
    exact coherent.clean
  · intro tag set absent
    rw [array] at absent
    have settled := coherent.absent tag set absent
    rw [System.settled, if_neg (fun save => before save.1)] at settled
    rw [System.settled, if_neg (fun save => after save.1), memory, view]
    exact settled

/-- Between the operations of the handler there is nothing to show. -/
theorem phase_quiet (mshr : s.handler.mshr.valid = false)
    (idle : serving s.handler.state = false) (flush : s.handler.state ≠ .wbCachelineFlush)
    (store : s.handler.state ≠ .amoStore) : Phase s := by
  have other {state : FsmState} (serves : serving state = true) : s.handler.state ≠ state := by
    intro same
    rw [same, serves] at idle
    exact absurd idle.symm Bool.false_ne_true
  constructor
  · rw [mshr, idle]
  · exact fun serves => absurd (idle.symm.trans serves) Bool.false_ne_true
  · exact fun state => absurd state (other rfl)
  · rintro (state | state)
    · exact absurd state (other rfl)
    · exact absurd state (other rfl)
  · rintro (state | state)
    · exact absurd state (other rfl)
    · exact absurd state flush
  · exact fun state => absurd state (other rfl)
  · exact fun state => absurd state store

theorem nextMemory_read (read : (s.output victim align i).axi.we = false) :
    (s.next victim align i).memory = s.memory := by
  show s.nextMemory victim align i = _
  rw [System.nextMemory, read, Bool.and_false]
  rfl

theorem nextView_kept (none : i.store = none)
    (miss : (s.output victim align i).missGnt = Option.none)
    (ack : (s.output victim align i).amoAck = false) :
    (s.next victim align i).view = s.view := by
  show s.nextView victim align i = _
  rw [System.nextView, none, miss, ack]
  rfl

end Step

end Ariane.MissHandler
