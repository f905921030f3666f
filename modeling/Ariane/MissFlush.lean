import Ariane.MissRefill

set_option autoImplicit false

/- Evictions, flushes and the initialization keep the cache current. -/
namespace Ariane.MissHandler

variable {g : Geometry} {victim : Victim g} {align : Align}

section Step

variable {s : System g} {i : SystemInput g}

theorem Coherent.writeBack {t : System g} {w : Fin g.ways} {tag : BitVec g.tagWidth}
    {row : BitVec g.setBits} (coherent : Coherent s) (holds : Holds s.array tag row w)
    (array : ∀ set k, t.array set k =
      if set = row ∧ k = w then { s.array set k with valid := false, dirty := false }
      else s.array set k)
    (memory : t.memory = s.memory.writeLine { tag := tag, set := row } (s.array row w).data)
    (view : t.view = s.view) (before : s.handler.state ≠ .saveCacheline)
    (after : t.handler.state ≠ .saveCacheline) : Coherent t := by
  have line (tag' : BitVec g.tagWidth) (set : BitVec g.setBits) :
      t.memory tag' set = if tag' = tag ∧ set = row then s.view tag row else s.memory tag' set := by
    rw [memory, ← coherent.cached tag row w holds]
    rfl
  have still {tag' : BitVec g.tagWidth} {set : BitVec g.setBits} {k : Fin g.ways}
      (present : Holds t.array tag' set k) :
      ¬ (set = row ∧ k = w) ∧ Holds s.array tag' set k := by
    rw [Holds, array] at present
    by_cases here : set = row ∧ k = w
    · rw [if_pos here] at present
      exact absurd present.1 Bool.false_ne_true
    · rw [if_neg here] at present
      exact ⟨here, present⟩
  constructor
  · intro tag' set k k' first second
    exact coherent.unique tag' set k k' (still first).2 (still second).2
  · intro tag' set k present
    obtain ⟨other, present⟩ := still present
    rw [array, if_neg other, view]
    exact coherent.cached tag' set k present
  · intro tag' set k present clean
    obtain ⟨other, present⟩ := still present
    rw [array, if_neg other] at clean
    rw [line, view, if_neg]
    · exact coherent.clean tag' set k present clean
    · rintro ⟨rfl, rfl⟩
      exact other ⟨rfl, coherent.unique _ _ _ _ present holds⟩
  · intro tag' set absent
    rw [System.settled, if_neg (fun save => after save.1), line, view]
    by_cases here : tag' = tag ∧ set = row
    · rw [if_pos here, here.1, here.2]
    · rw [if_neg here]
      have none : ∀ k, ¬ Holds s.array tag' set k := by
        intro k present
        by_cases way : set = row ∧ k = w
        · obtain ⟨rfl, rfl⟩ := way
          exact here ⟨present.2.symm.trans holds.2, rfl⟩
        · apply absent k
          rw [Holds, array, if_neg way]
          exact present
      have same := coherent.absent tag' set none
      rw [System.settled, if_neg (fun save => before save.1)] at same
      exact same

theorem Current.writeBack (current : Current s) (none : i.store = none)
    (flag : g.invalidateOnFlush = true)
    (state : s.handler.state = .wbCachelineMiss ∨ s.handler.state = .wbCachelineFlush) :
    Current (s.next victim align i) := by
  have output : s.output victim align i = wbCachelineState s.handler (s.handlerInput i)
      (if s.handler.state = .wbCachelineMiss then .miss else .flushReqStatus) := by
    rw [System.output, cacheManagement]
    rcases state with state | state <;> rw [state] <;> rfl
  obtain ⟨w, mask, holds, data⟩ := current.phase.evicts state
  have unsaved : s.handler.state ≠ .saveCacheline := by
    rcases state with state | state <;> simp [state]
  have coherent : Coherent s := by
    apply current.coherent
    rcases state with state | state <;> simp [state]
  rw [wbCachelineState] at output
  have view : (s.next victim align i).view = s.view := by
    apply nextView_kept none <;> rw [output] <;> split <;> rfl
  cases granted : i.gnt with
  | false =>
      have late : (s.handlerInput i).gnt = false := granted
      rw [late, if_neg Bool.false_ne_true] at output
      have array : (s.next victim align i).array = s.array :=
        nextArray_kept none (by rw [output]; rfl)
      have memory : (s.next victim align i).memory = s.memory := by
        show s.nextMemory victim align i = _
        rw [System.nextMemory, output, granted]
        rfl
      have handler : (s.next victim align i).handler = s.handler := by
        rw [next_handler, output]
        rfl
      constructor
      · rw [handler]
        rcases state with state | state <;> rw [state] <;>
          exact fun init => FsmState.noConfusion init
      · intro
        apply coherent.kept array memory view unsaved
        rw [handler]
        exact unsaved
      · constructor
        · rw [handler]
          exact current.phase.mshr
        · rw [array, handler]
          exact current.phase.line
        · rw [handler]
          rcases state with state | state <;> rw [state] <;>
            exact fun replaces => FsmState.noConfusion replaces
        · rw [handler]
          rcases state with state | state <;> rw [state] <;>
            rintro (frees | frees) <;> exact FsmState.noConfusion frees
        · rw [array, handler]
          exact current.phase.evicts
        · rw [handler]
          exact current.phase.same
        · rw [handler]
          rcases state with state | state <;> rw [state] <;>
            exact fun loaded => FsmState.noConfusion loaded
  | true =>
      have now : (s.handlerInput i).gnt = true := granted
      rw [now, if_pos rfl] at output
      have handler : (s.next victim align i).handler =
          { s.handler with
            state := if s.handler.state = .wbCachelineMiss then .miss else .flushReqStatus } := by
        rw [next_handler, output]
      have array (set : BitVec g.setBits) (k : Fin g.ways) :
          (s.next victim align i).array set k =
            if set = s.handler.cnt ∧ k = w then
              { s.array set k with valid := false, dirty := false }
            else s.array set k := by
        show s.nextArray victim align i set k = _
        rw [nextArray_of_none none, output, mask, flag]
        exact write_status false set k
      have memory : (s.next victim align i).memory = s.memory.writeLine
          { tag := s.handler.evictTag, set := s.handler.cnt } (s.array s.handler.cnt w).data := by
        show s.nextMemory victim align i = _
        rw [System.nextMemory, output, granted, data]
        rfl
      constructor
      · rw [handler]
        rcases state with state | state <;> rw [state] <;>
          exact fun init => FsmState.noConfusion init
      · intro
        apply coherent.writeBack holds array memory view unsaved
        rw [handler]
        rcases state with state | state <;> simp [state]
      · rcases state with state | state
        · have serves : serving s.handler.state = true := by
            rw [state]
            rfl
          rw [state, if_pos rfl] at handler
          constructor
          · rw [handler]
            exact current.phase.mshr.trans serves
          · rw [handler]
            intro _ k present
            rw [Holds, array] at present
            by_cases here : s.handler.mshr.addr.set = s.handler.cnt ∧ k = w
            · rw [if_pos here] at present
              exact absurd present.1 Bool.false_ne_true
            · rw [if_neg here] at present
              exact current.phase.line serves k present
          · rw [handler]
            exact fun replaces => FsmState.noConfusion replaces
          · rw [handler]
            rintro (frees | frees) <;> exact FsmState.noConfusion frees
          · rw [handler]
            rintro (evicts | evicts) <;> exact FsmState.noConfusion evicts
          · rw [handler]
            exact fun same => FsmState.noConfusion same
          · rw [handler]
            exact fun loaded => FsmState.noConfusion loaded
        · have invalid : s.handler.mshr.valid = false := by
            rw [current.phase.mshr, state]
            rfl
          rw [state, if_neg (fun same => FsmState.noConfusion same)] at handler
          apply phase_quiet <;> rw [handler]
          · exact invalid
          · rfl
          · exact fun flush => FsmState.noConfusion flush
          · exact fun store => FsmState.noConfusion store

theorem Current.reqStatus (current : Current s) (none : i.store = none)
    (state : s.handler.state = .flushReqStatus) : Current (s.next victim align i) := by
  have output : s.output victim align i = flushReqStatusState s.handler := by
    rw [System.output, cacheManagement, state]
  have coherent := current.coherent (by rw [state]; exact fun h => FsmState.noConfusion h)
  have array : (s.next victim align i).array = s.array :=
    nextArray_kept none (by rw [output]; rfl)
  have memory : (s.next victim align i).memory = s.memory :=
    nextMemory_read (by rw [output]; rfl)
  have view : (s.next victim align i).view = s.view :=
    nextView_kept none (by rw [output]; rfl) (by rw [output]; rfl)
  have handler : (s.next victim align i).handler = { s.handler with state := .flushing } := by
    rw [next_handler, output]
    rfl
  have invalid : s.handler.mshr.valid = false := by
    rw [current.phase.mshr, state]
    rfl
  constructor
  · rw [handler]
    exact fun init => FsmState.noConfusion init
  · intro
    apply coherent.kept array memory view
    · simp [state]
    · simp [handler]
  · apply phase_quiet <;> rw [handler]
    · exact invalid
    · rfl
    · exact fun flush => FsmState.noConfusion flush
    · exact fun store => FsmState.noConfusion store

theorem Coherent.invalidate {t : System g} {row : BitVec g.setBits} (coherent : Coherent s)
    (clean : ∀ k, ((s.array row k).valid && (s.array row k).dirty) = false)
    (row_gone : ∀ k, (t.array row k).valid = false)
    (others : ∀ set, set ≠ row → t.array set = s.array set)
    (memory : t.memory = s.memory) (view : t.view = s.view)
    (before : s.handler.state ≠ .saveCacheline) (after : t.handler.state ≠ .saveCacheline) :
    Coherent t := by
  have still {tag : BitVec g.tagWidth} {set : BitVec g.setBits} {k : Fin g.ways}
      (present : Holds t.array tag set k) : set ≠ row ∧ Holds s.array tag set k := by
    have other : set ≠ row := by
      rintro rfl
      exact absurd ((row_gone k).symm.trans present.1) Bool.false_ne_true
    rw [Holds, others set other] at present
    exact ⟨other, present⟩
  constructor
  · intro tag set k k' first second
    exact coherent.unique tag set k k' (still first).2 (still second).2
  · intro tag set k present
    obtain ⟨other, present⟩ := still present
    rw [others set other, view]
    exact coherent.cached tag set k present
  · intro tag set k present spotless
    obtain ⟨other, present⟩ := still present
    rw [others set other] at spotless
    rw [memory, view]
    exact coherent.clean tag set k present spotless
  · intro tag set absent
    rw [System.settled, if_neg (fun save => after save.1), memory, view]
    by_cases held : ∃ k, Holds s.array tag set k
    · obtain ⟨k, present⟩ := held
      by_cases here : set = row
      · subst here
        have spotless := clean k
        rw [present.1, Bool.true_and] at spotless
        exact coherent.clean tag set k present spotless
      · refine absurd ?_ (absent k)
        rw [Holds, others set here]
        exact present
    · rw [not_exists] at held
      have same := coherent.absent tag set held
      rw [System.settled, if_neg (fun save => before save.1)] at same
      exact same

/-- The flush looks for a dirty line, or passes on. -/
theorem Current.flushing (current : Current s) (sweeping : Sweeping s) (none : i.store = none)
    (flag : g.invalidateOnFlush = true) (state : s.handler.state = .flushing) :
    Current (s.next victim align i) := by
  have output : s.output victim align i = flushingState victim s.handler (s.handlerInput i) := by
    rw [System.output, cacheManagement, state]
  have coherent := current.coherent (by rw [state]; exact fun h => FsmState.noConfusion h)
  have lines : (s.handlerInput i).dataI = s.array s.handler.cnt := sweeping.fresh state
  have invalid : s.handler.mshr.valid = false := by
    rw [current.phase.mshr, state]
    rfl
  have memory : (s.next victim align i).memory = s.memory := by
    apply nextMemory_read
    rw [output, flushingState]
    split <;> rfl
  have view : (s.next victim align i).view = s.view := by
    apply nextView_kept none <;> rw [output, flushingState] <;> split <;> rfl
  cases dirty : anyWay (dirtyWay (s.handlerInput i)) with
  | true =>
      rw [flushingState, dirty, if_pos rfl] at output
      have array : (s.next victim align i).array = s.array :=
        nextArray_kept none (by rw [output]; rfl)
      have some : ∃ k, dirtyWay (s.handlerInput i) k = true := of_decide_eq_true dirty
      have chosen := victim.set _ some
      have handler : (s.next victim align i).handler =
          { s.handler with
            evictWay := only (victim.oneHotToBin (dirtyWay (s.handlerInput i)))
            evictTag :=
              (s.array s.handler.cnt (victim.oneHotToBin (dirtyWay (s.handlerInput i)))).tag
            evictData :=
              (s.array s.handler.cnt (victim.oneHotToBin (dirtyWay (s.handlerInput i)))).data
            state := .wbCachelineFlush } := by
        rw [next_handler, output, victim.only _ some, ← lines]
        rfl
      constructor
      · rw [handler]
        exact fun init => FsmState.noConfusion init
      · intro
        apply coherent.kept array memory view
        · simp [state]
        · simp [handler]
      · constructor
        · rw [handler]
          exact invalid
        · rw [handler]
          exact fun serves => absurd serves Bool.false_ne_true
        · rw [handler]
          exact fun replaces => FsmState.noConfusion replaces
        · rw [handler]
          rintro (frees | frees) <;> exact FsmState.noConfusion frees
        · intro
          rw [array, handler]
          refine ⟨_, rfl, ⟨?_, rfl⟩, rfl⟩
          rw [← lines]
          rw [dirtyWay, Bool.and_eq_true] at chosen
          exact chosen.1
        · rw [handler]
          exact fun same => FsmState.noConfusion same
        · rw [handler]
          exact fun loaded => FsmState.noConfusion loaded
  | false =>
      rw [flushingState, dirty, if_neg Bool.false_ne_true] at output
      have clean : ∀ k, ((s.array s.handler.cnt k).valid &&
          (s.array s.handler.cnt k).dirty) = false := by
        intro k
        rw [← lines]
        have every := of_decide_eq_false dirty
        rw [not_exists] at every
        exact Bool.eq_false_iff.mpr (every k)
      have array : (s.next victim align i).array = _ := nextArray_of_none none
      rw [output] at array
      have next : (s.next victim align i).handler.state = .idle ∨
          (s.next victim align i).handler.state = .flushReqStatus := by
        rw [next_handler, output]
        show (if _ then _ else _) = _ ∨ (if _ then _ else _) = _
        split
        · exact Or.inl rfl
        · exact Or.inr rfl
      have mshr : (s.next victim align i).handler.mshr.valid = false := by
        rw [next_handler, output]
        exact invalid
      constructor
      · rcases next with next | next <;> rw [next] <;>
          exact fun init => FsmState.noConfusion init
      · intro
        apply coherent.invalidate clean _ _ memory view
        · simp [state]
        · rcases next with next | next <;> simp [next]
        · rw [array]
          exact (swept_passed clean).gone flag
        · intro set other
          rw [array]
          exact write_other other
      · apply phase_quiet mshr <;> rcases next with next | next <;> rw [next] <;> first
          | rfl
          | exact fun flush => FsmState.noConfusion flush

/-- The status bits are cleared after reset. -/
theorem Current.init (current : Current s) (none : i.store = none)
    (state : s.handler.state = .init) : Current (s.next victim align i) := by
  have output : s.output victim align i = initState s.handler := by
    rw [System.output, cacheManagement, state]
  obtain ⟨same, low⟩ := current.starting state
  have memory : (s.next victim align i).memory = s.memory :=
    nextMemory_read (by rw [output]; rfl)
  have view : (s.next victim align i).view = s.view :=
    nextView_kept none (by rw [output]; rfl) (by rw [output]; rfl)
  have invalid : s.handler.mshr.valid = false := by
    rw [current.phase.mshr, state]
    rfl
  have handler : (s.next victim align i).handler = (initState s.handler).next := by
    rw [next_handler, output]
  have cleared : ∀ set, set ≤ s.handler.cnt → ∀ k,
      ((s.next victim align i).array set k).valid = false := by
    intro set below k
    have array : (s.next victim align i).array = _ := nextArray_of_none none
    rw [output] at array
    rw [array]
    by_cases here : set = s.handler.cnt
    · subst here
      simp [initState, SramReq.write, anyWay_first k, allWays]
    · have before : set < s.handler.cnt := by
        rw [BitVec.lt_def]
        rw [BitVec.le_def] at below
        exact Nat.lt_of_le_of_ne below (fun equal => here (BitVec.eq_of_toNat_eq equal))
      have kept : (initState s.handler).sram.write s.array set = s.array set :=
        write_other (by exact here)
      rw [kept]
      exact low set before k
  cases last : s.handler.cnt == BitVec.allOnes g.setBits with
  | true =>
      have next : (s.next victim align i).handler.state = .idle := by
        rw [handler, initState, last]
        rfl
      have empty : ∀ tag set k, ¬ Holds (s.next victim align i).array tag set k := by
        intro tag set k present
        have below : set ≤ s.handler.cnt := by
          rw [beq_iff_eq.mp last, BitVec.le_def, BitVec.toNat_allOnes]
          have bound := set.isLt
          omega
        exact absurd ((cleared set below k).symm.trans present.1) Bool.false_ne_true
      constructor
      · rw [next]
        exact fun init => FsmState.noConfusion init
      · intro
        constructor
        · exact fun tag set k _ present => absurd present (empty tag set k)
        · exact fun tag set k present => absurd present (empty tag set k)
        · exact fun tag set k present => absurd present (empty tag set k)
        · intro tag set _
          rw [System.settled, if_neg (fun save => by simp [next] at save), memory, view, same]
      · apply phase_quiet
        · rw [handler]
          exact invalid
        · rw [next]
          rfl
        · simp [next]
        · simp [next]
  | false =>
      have next : (s.next victim align i).handler.state = .init := by
        rw [handler, initState, last]
        rfl
      constructor
      · intro
        rw [memory, view]
        refine ⟨same, ?_⟩
        intro set below
        apply cleared
        rw [handler] at below
        exact le_of_lt_succ (beq_eq_false_iff_ne.mp last) below
      · exact fun other => absurd next other
      · apply phase_quiet
        · rw [handler]
          exact invalid
        · rw [next]
          rfl
        · simp [next]
        · simp [next]

end Step

end Ariane.MissHandler
