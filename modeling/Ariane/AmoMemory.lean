import Ariane.MissFlush

set_option autoImplicit false

/- An atomic operation works on the memory that the granted stores have left. -/
namespace Ariane.MissHandler

variable {g : Geometry} {victim : Victim g} {align : Align}

section Step

variable {s : System g} {i : SystemInput g}

/-- Where nothing is cached, the memory is current. -/
theorem Coherent.memory_eq (coherent : Coherent s)
    (gone : ∀ set k, (s.array set k).valid = false)
    (unsaved : s.handler.state ≠ .saveCacheline) : s.memory = s.view := by
  funext tag set
  have same := coherent.absent tag set
    (fun k present => absurd ((gone set k).symm.trans present.1) Bool.false_ne_true)
  rw [System.settled, if_neg (fun save => unsaved save.1)] at same
  exact same

/-- A cache without lines is coherent with a memory that is current. -/
theorem coherent_of_gone (gone : ∀ set k, (s.array set k).valid = false)
    (same : s.memory = s.view) (unsaved : s.handler.state ≠ .saveCacheline) : Coherent s := by
  have empty : ∀ tag set k, ¬ Holds s.array tag set k :=
    fun tag set k present => absurd ((gone set k).symm.trans present.1) Bool.false_ne_true
  constructor
  · exact fun tag set k _ present => absurd present (empty tag set k)
  · exact fun tag set k present => absurd present (empty tag set k)
  · exact fun tag set k present => absurd present (empty tag set k)
  · intro tag set _
    rw [System.settled, if_neg (fun save => unsaved save.1), same]

/-- What `AMO_STORE` does, for an adapter that answers only what it was asked. -/
theorem amoStore_parts (state : s.handler.state = .amoStore) :
    (s.output victim align i).sram.we = false ∧
      (s.output victim align i).missGnt = none ∧
      (s.output victim align i).next.mshr = s.handler.mshr ∧
      (s.output victim align i).axi =
        { valid := !noStore s.handler.reservation i.amo
          we := true
          single := true
          addr := i.amo.operandA
          wdata := fun _ => (amoStoreData align i.amo s.handler.mshr.wdata).1
          be := (amoStoreData align i.amo s.handler.mshr.wdata).2 } ∧
      (s.output victim align i).amoAck = (noStore s.handler.reservation i.amo || i.valid) ∧
      ((s.output victim align i).amoAck = true →
        (noStore s.handler.reservation i.amo = true → i.valid = false) →
        (s.output victim align i).amoResult =
          if i.amo.op = .sc then if noStore s.handler.reservation i.amo then 1 else 0
          else (operands align i.amo s.handler.mshr.wdata).1) ∧
      (s.output victim align i).next.state =
        if noStore s.handler.reservation i.amo || i.valid then .idle else .amoStore := by
  have output : s.output victim align i = amoStoreState align s.handler (s.handlerInput i) := by
    rw [System.output, cacheManagement, state]
  rw [output, amoStoreState]
  have input : (s.handlerInput i).amo = i.amo ∧ (s.handlerInput i).valid = i.valid := ⟨rfl, rfl⟩
  rw [input.1, input.2]
  cases skip : noStore s.handler.reservation i.amo <;> cases answer : i.valid <;>
    cases reserves : i.amo.op == .lr <;> refine ⟨rfl, rfl, rfl, rfl, rfl, ?_, ?_⟩ <;>
    first
      | rfl
      | exact state
      | exact fun _ asked => absurd (asked rfl).symm Bool.false_ne_true
      | exact fun ack => absurd ack Bool.false_ne_true
      | (intro; simp)

/-- An atomic operation loads and stores in the memory, while the cache is empty. -/
theorem Current.operation (current : Current s) (sweeping : Sweeping s)
    (contract : Contract victim align s i) (undisturbed : Undisturbed victim align s i)
    (none : i.store = none) (flag : g.invalidateOnFlush = true)
    (operate : operates s.handler.state = true) : Current (s.next victim align i) := by
  have requested : i.amo.req = true := undisturbed.kept (Or.inr operate)
  have other {state : FsmState} (differs : operates state = false) : s.handler.state ≠ state := by
    intro same
    rw [same] at operate
    exact absurd (differs.symm.trans operate) Bool.false_ne_true
  have gone : ∀ set k, (s.array set k).valid = false :=
    fun set => (sweeping.clean operate set).gone flag
  have same := (current.coherent (other rfl)).memory_eq gone (other rfl)
  have invalid : s.handler.mshr.valid = false := by
    rw [current.phase.mshr]
    cases state : s.handler.state <;> first | rfl | exact absurd state (other rfl)
  have finish (read : (s.output victim align i).sram.we = false)
      (memory : (s.next victim align i).memory = (s.next victim align i).view)
      (next : (s.output victim align i).next.state = .idle ∨
        operates (s.output victim align i).next.state = true)
      (phase : Phase (s.next victim align i)) : Current (s.next victim align i) := by
    have array := nextArray_kept none read
    have apart {state : FsmState} (differs : operates state = false) (busy : FsmState.idle ≠ state) :
        (s.next victim align i).handler.state ≠ state := by
      rcases next with next | next
      · rw [next_handler, next]
        exact busy
      · intro equal
        rw [next_handler] at equal
        rw [equal] at next
        exact absurd (differs.symm.trans next) Bool.false_ne_true
    constructor
    · exact fun init => absurd init (apart rfl (by simp))
    · intro
      apply coherent_of_gone _ memory (apart rfl (by simp))
      rw [array]
      exact gone
    · exact phase
  cases state : s.handler.state with
  | amoLoad =>
      have output : s.output victim align i = amoLoadState s.handler (s.handlerInput i) := by
        rw [System.output, cacheManagement, state]
      rw [amoLoadState] at output
      have memory : (s.next victim align i).memory = s.memory := by
        apply nextMemory_read
        rw [output]
        split <;> rfl
      have view : (s.next victim align i).view = s.view := by
        apply nextView_kept none <;> rw [output] <;> split <;> rfl
      have next : (s.next victim align i).handler.state = .amoSaveLoad ∨
          (s.next victim align i).handler.state = .amoLoad := by
        rw [next_handler, output]
        split
        · exact Or.inl rfl
        · exact Or.inr state
      apply finish
      · rw [output]
        split <;> rfl
      · rw [memory, view, same]
      · right
        rcases next with next | next <;> exact congrArg operates next
      · apply phase_quiet
        · rw [next_handler, output]
          split <;> exact invalid
        · rcases next with next | next <;> exact congrArg serving next
        · rcases next with next | next <;> simp [next]
        · rcases next with next | next <;> simp [next]
  | amoSaveLoad =>
      have output : s.output victim align i = amoSaveLoadState s.handler (s.handlerInput i) := by
        rw [System.output, cacheManagement, state]
      rw [amoSaveLoadState] at output
      have memory : (s.next victim align i).memory = s.memory := by
        apply nextMemory_read
        rw [output]
        split <;> rfl
      have view : (s.next victim align i).view = s.view := by
        apply nextView_kept none <;> rw [output] <;> split <;> rfl
      have read : (s.output victim align i).sram.we = false := by
        rw [output]
        split <;> rfl
      cases arrives : i.valid with
      | false =>
          have late : (s.handlerInput i).valid = false := arrives
          rw [late, if_neg Bool.false_ne_true] at output
          have next : (s.next victim align i).handler.state = .amoSaveLoad := by
            rw [next_handler, output]
            exact state
          apply finish read
          · rw [memory, view, same]
          · exact Or.inr (congrArg operates next)
          · apply phase_quiet
            · rw [next_handler, output]
              exact invalid
            · exact congrArg serving next
            · simp [next]
            · simp [next]
      | true =>
          have now : (s.handlerInput i).valid = true := arrives
          rw [now, if_pos rfl] at output
          have handler : (s.next victim align i).handler =
              { s.handler with
                mshr := { s.handler.mshr with wdata := s.memory.word i.amo.operandA }
                state := .amoStore } := by
            have data : (s.handlerInput i).data 0 = s.memory.word i.amo.operandA := by
              show s.response i 0 = _
              rw [System.response, state]
            rw [next_handler, output, data]
          have pending : (s.next victim align i).pendingAmo = some i.amo := by
            show (if i.amo.req && !(s.output victim align i).amoAck then _ else _) = _
            rw [requested, output]
            rfl
          apply finish read
          · rw [memory, view, same]
          · right
            exact congrArg (fun q => operates q.state) handler
          · constructor
            · rw [handler]
              exact invalid
            · rw [handler]
              exact fun serves => absurd serves Bool.false_ne_true
            · rw [handler]
              exact fun replaces => FsmState.noConfusion replaces
            · rw [handler]
              rintro (frees | frees) <;> exact FsmState.noConfusion frees
            · rw [handler]
              rintro (evicts | evicts) <;> exact FsmState.noConfusion evicts
            · rw [handler]
              exact fun back => FsmState.noConfusion back
            · rw [handler, memory]
              exact fun _ => ⟨i.amo, pending, rfl⟩
  | amoStore =>
      obtain ⟨a, pending, loaded⟩ := current.phase.loaded state
      have held : i.amo = a := contract.stable a pending requested
      rw [← held] at loaded
      have parts := @amoStore_parts _ victim align s i state
      obtain ⟨read, miss, mshr, axi, ack, -, next⟩ := parts
      have both : (s.next victim align i).memory = (s.next victim align i).view := by
        show s.nextMemory victim align i = s.nextView victim align i
        rw [System.nextMemory, System.nextView, axi, none, miss, ack, loaded, same]
        cases noStore s.handler.reservation i.amo <;> cases i.valid <;> rfl
      apply finish read both
      · rw [next]
        cases noStore s.handler.reservation i.amo || i.valid with
        | false => exact Or.inr rfl
        | true => exact Or.inl rfl
      · have valid : (s.next victim align i).handler.mshr.valid = false := by
          rw [next_handler, mshr]
          exact invalid
        cases done : noStore s.handler.reservation i.amo || i.valid with
        | true =>
            rw [done, if_pos rfl] at next
            have idle : (s.next victim align i).handler.state = .idle := next
            apply phase_quiet valid
            · exact congrArg serving idle
            · simp [idle]
            · simp [idle]
        | false =>
            rw [done, if_neg Bool.false_ne_true] at next
            have stays : (s.next victim align i).handler.state = .amoStore := next
            have kept : (s.next victim align i).memory = s.memory := by
              show s.nextMemory victim align i = _
              rw [System.nextMemory, axi, (Bool.or_eq_false_iff.mp done).2]
              exact ite_self _
            have waits : (s.next victim align i).pendingAmo = some i.amo := by
              show (if i.amo.req && !(s.output victim align i).amoAck then _ else _) = _
              rw [requested, ack, done]
              rfl
            constructor
            · rw [valid, stays]
              rfl
            · rw [stays]
              exact fun serves => absurd serves Bool.false_ne_true
            · rw [stays]
              exact fun replaces => FsmState.noConfusion replaces
            · rw [stays]
              rintro (frees | frees) <;> exact FsmState.noConfusion frees
            · rw [stays]
              rintro (evicts | evicts) <;> exact FsmState.noConfusion evicts
            · rw [stays]
              exact fun back => FsmState.noConfusion back
            · rw [next_handler, mshr, kept, loaded]
              exact fun _ => ⟨i.amo, waits, rfl⟩
  | _ =>
      rw [state] at operate
      exact absurd operate Bool.false_ne_true

/-- One cycle without a store. -/
theorem Current.handled (current : Current s) (sweeping : Sweeping s)
    (contract : Contract victim align s i) (undisturbed : Undisturbed victim align s i)
    (flag : g.invalidateOnFlush = true) (none : i.store = none) :
    Current (s.next victim align i) := by
  cases state : s.handler.state with
  | idle => exact current.idle contract none state
  | miss => exact current.miss none state
  | missRepl => exact current.missRepl none state
  | reqCacheline => exact current.reqCacheline none state
  | saveCacheline => exact current.saveCacheline none state
  | wbCachelineMiss => exact current.writeBack none flag (Or.inl state)
  | wbCachelineFlush => exact current.writeBack none flag (Or.inr state)
  | flushReqStatus => exact current.reqStatus none state
  | flushing => exact current.flushing sweeping none flag state
  | init => exact current.init none state
  | amoLoad | amoSaveLoad | amoStore =>
      exact current.operation sweeping contract undisturbed none flag (by rw [state]; rfl)

/-- Every write of the handler takes the SRAMs. -/
theorem writes_take (current : Current s) (w : Fin g.ways)
    (write : (s.output victim align i).sram.we = true) :
    anyWay (s.output victim align i).sram.req = true := by
  cases state : s.handler.state with
  | idle =>
      have output : s.output victim align i = idleState s.handler (s.handlerInput i) := by
        rw [System.output, cacheManagement, state]
      rw [output, idleState_eq _ _ state] at write
      exact absurd write Bool.false_ne_true
  | missRepl =>
      rw [System.output, cacheManagement, state] at write
      simp only [missReplState] at write
      split at write
      · split at write <;> exact absurd write Bool.false_ne_true
      · exact absurd write Bool.false_ne_true
  | reqCacheline =>
      rw [System.output, cacheManagement, state] at write
      simp only [reqCachelineState] at write
      split at write <;> exact absurd write Bool.false_ne_true
  | saveCacheline =>
      obtain ⟨v, mask, -⟩ := current.phase.frees (Or.inr state)
      rw [System.output, cacheManagement, state] at write ⊢
      simp only [saveCachelineState] at write ⊢
      split at write
      · rename_i arrives
        rw [if_pos arrives, mask]
        exact anyWay_only
      · exact absurd write Bool.false_ne_true
  | wbCachelineMiss | wbCachelineFlush =>
      rw [System.output, cacheManagement, state] at write ⊢
      simp only [wbCachelineState] at write ⊢
      split at write
      · rename_i granted
        rw [if_pos granted]
        exact anyWay_first w
      · exact absurd write Bool.false_ne_true
  | flushing =>
      rw [System.output, cacheManagement, state] at write ⊢
      simp only [flushingState] at write ⊢
      split at write
      · exact absurd write Bool.false_ne_true
      · rename_i clean
        rw [if_neg clean]
        exact anyWay_first w
  | init =>
      rw [System.output, cacheManagement, state]
      exact anyWay_first w
  | miss | flushReqStatus =>
      rw [System.output, cacheManagement, state] at write
      exact absurd write Bool.false_ne_true
  | amoLoad =>
      rw [System.output, cacheManagement, state] at write
      simp only [amoLoadState] at write
      split at write <;> exact absurd write Bool.false_ne_true
  | amoSaveLoad =>
      rw [System.output, cacheManagement, state] at write
      simp only [amoSaveLoadState] at write
      split at write <;> exact absurd write Bool.false_ne_true
  | amoStore =>
      rw [System.output, cacheManagement, state] at write
      simp only [amoStoreState] at write
      split at write <;> split at write <;> split at write <;>
        exact absurd write Bool.false_ne_true

theorem Current.step (current : Current s) (sweeping : Sweeping s)
    (contract : Contract victim align s i) (undisturbed : Undisturbed victim align s i)
    (flag : g.invalidateOnFlush = true) : Current (s.next victim align i) := by
  cases store : i.store with
  | none => exact current.handled sweeping contract undisturbed flag store
  | some st =>
      have given : i.store ≠ none := by
        rw [store]
        exact Option.some_ne_none st
      have port := contract.port (Option.isSome_iff_ne_none.mpr given)
      have hit : Holds s.array st.addr.tag st.addr.set st.way := contract.hits st store
      have quiet : ¬ (s.handler.serveAmo = true ∨ flushes s.handler.state = true ∨
          operates s.handler.state = true) :=
        fun under => given (sweeping.no_store contract undisturbed under)
      rw [not_or, not_or, Bool.not_eq_true, Bool.not_eq_true, Bool.not_eq_true] at quiet
      obtain ⟨serve, flush, operate⟩ := quiet
      have read : (s.output victim align i).sram.we = false := by
        by_contra write
        exact absurd (port.symm.trans (writes_take current st.way (eq_true_of_ne_false write)))
          Bool.false_ne_true
      have started : s.handler.state ≠ .init := by
        intro state
        rw [System.output, cacheManagement, state] at read
        exact absurd read.symm Bool.false_ne_true
      rw [next_stored store port read]
      have stored : Current (s.stored st) := by
        constructor
        · exact fun init => absurd init started
        · exact fun _ => (current.coherent started).stored hit
        · exact current.phase.stored hit (contract.mshr st store) flush
      apply stored.handled
      · exact sweeping_quiet serve flush operate
      · refine ⟨?_, contract.held⟩
        constructor
        · exact fun some => absurd some Bool.false_ne_true
        · exact fun st' some => absurd some (Option.some_ne_none st').symm
        · exact fun st' some => absurd some (Option.some_ne_none st').symm
        · exact fun some => absurd some Bool.false_ne_true
        · intro r idle miss k valid tag
          have before := (holds_stored hit _ _ k).mp ⟨valid, tag⟩
          exact contract.absent r idle miss k before.1 before.2
        · exact contract.asked
        · exact contract.stable
      · exact ⟨undisturbed.first, undisturbed.kept⟩
      · exact flag
      · rfl

end Step

/-- What an operation meets, and what a load meets in every state. -/
structure Exact (s : System g) : Prop where
  /-- While the operation runs, no way of any set is dirty. -/
  clean : operates s.handler.state = true → ∀ set k,
    ((s.array set k).valid && (s.array set k).dirty) = false
  /-- No set holds a copy of its line. -/
  gone : g.invalidateOnFlush = true → operates s.handler.state = true → ∀ set k,
    (s.array set k).valid = false
  /-- The memory holds the values of the last granted stores. -/
  memory : g.invalidateOnFlush = true → operates s.handler.state = true → s.memory = s.view
  /-- A load sees the last granted store, or the operation after it. -/
  loads : g.invalidateOnFlush = true → s.handler.state ≠ .init → Coherent s

/-- The operation is answered with the value before it, and leaves its result. -/
structure Answered (victim : Victim g) (align : Align) (s : System g) (i : SystemInput g) :
    Prop where
  result : (s.output victim align i).amoResult =
    if i.amo.op = .sc then if noStore s.handler.reservation i.amo then 1 else 0
    else (operands align i.amo (s.view.word i.amo.operandA)).1
  view : (s.next victim align i).view =
    if noStore s.handler.reservation i.amo then s.view
    else s.view.writeWord i.amo.operandA
      (mergeWord (s.view.word i.amo.operandA)
        (amoStoreData align i.amo (s.view.word i.amo.operandA)).1
        (amoStoreData align i.amo (s.view.word i.amo.operandA)).2)
  memory : (s.next victim align i).memory = (s.next victim align i).view
  gone : ∀ set k, ((s.next victim align i).array set k).valid = false

section Run

variable {s : System g} {i : SystemInput g} {array : Array g} {memory : Memory g}

/-- What holds in every state that an undisturbed run reaches. -/
structure Inv (s : System g) : Prop where
  sweeping : Sweeping s
  current : g.invalidateOnFlush = true → Current s

theorem inv_reset : Inv (system victim align array memory).reset := by
  refine ⟨sweeping_quiet rfl rfl rfl, fun _ => ⟨fun _ => ⟨rfl, ?_⟩, ?_, ?_⟩⟩
  · exact fun set low => absurd low BitVec.not_lt_zero
  · exact fun started => absurd rfl started
  · apply phase_quiet
    · rfl
    · rfl
    · exact fun flush => FsmState.noConfusion flush
    · exact fun store => FsmState.noConfusion store

theorem Inv.step (inv : Inv s) (contract : Contract victim align s i)
    (undisturbed : Undisturbed victim align s i) : Inv (s.next victim align i) :=
  ⟨inv.sweeping.step contract undisturbed,
    fun flag => (inv.current flag).step inv.sweeping contract undisturbed flag⟩

theorem inv_run {inputs : List (SystemInput g)}
    (legal : (system victim align array memory).Legal
      (fun s i => Contract victim align s i ∧ Undisturbed victim align s i)
      (system victim align array memory).reset inputs) :
    Inv ((system victim align array memory).run inputs) :=
  (system victim align array memory).run_invariant inv_reset
    (fun _ _ inv both => inv.step both.1 both.2) legal

theorem Inv.exact (inv : Inv s) : Exact s := by
  constructor
  · exact fun operate set => (inv.sweeping.clean operate set).clean
  · exact fun flag operate set => (inv.sweeping.clean operate set).gone flag
  · intro flag operate
    have started : s.handler.state ≠ .init := by
      intro state
      rw [state] at operate
      exact absurd operate Bool.false_ne_true
    apply ((inv.current flag).coherent started).memory_eq
    · exact fun set => (inv.sweeping.clean operate set).gone flag
    · intro state
      rw [state] at operate
      exact absurd operate Bool.false_ne_true
  · exact fun flag started => (inv.current flag).coherent started

/-- Only the end of an operation is acknowledged. -/
theorem amoStore_of_ack (ack : (s.output victim align i).amoAck = true) :
    s.handler.state = .amoStore := by
  by_contra other
  by_cases idle : s.handler.state = .idle
  · rw [System.output, cacheManagement, idle] at ack
    rw [idleState_eq _ _ idle] at ack
    exact absurd ack Bool.false_ne_true
  · have none := (@output_routine _ victim align s i idle).amoAck other
    exact absurd (none.symm.trans ack) Bool.false_ne_true

theorem Inv.answered (inv : Inv s) (contract : Contract victim align s i)
    (undisturbed : Undisturbed victim align s i) (flag : g.invalidateOnFlush = true)
    (ack : (s.output victim align i).amoAck = true) : Answered victim align s i := by
  have state := amoStore_of_ack ack
  have operate : operates s.handler.state = true := by
    rw [state]
    rfl
  have requested : i.amo.req = true := undisturbed.kept (Or.inr operate)
  have none := inv.sweeping.no_store contract undisturbed (Or.inr (Or.inr operate))
  have same := inv.exact.memory flag operate
  obtain ⟨a, pending, loaded⟩ := (inv.current flag).phase.loaded state
  rw [← contract.stable a pending requested, same] at loaded
  obtain ⟨read, miss, -, axi, done, result, -⟩ :=
    @amoStore_parts _ victim align s i state
  have view : (s.next victim align i).view =
      if noStore s.handler.reservation i.amo then s.view
      else s.view.writeWord i.amo.operandA
        (mergeWord (s.view.word i.amo.operandA)
          (amoStoreData align i.amo (s.view.word i.amo.operandA)).1
          (amoStoreData align i.amo (s.view.word i.amo.operandA)).2) := by
    show s.nextView victim align i = _
    rw [System.nextView, none, miss, ack]
    cases noStore s.handler.reservation i.amo <;> rfl
  have memory : (s.next victim align i).memory = (s.next victim align i).view := by
    rw [view]
    show s.nextMemory victim align i = _
    rw [System.nextMemory, axi, loaded, same]
    rw [done] at ack
    cases skip : noStore s.handler.reservation i.amo with
    | true => rfl
    | false =>
        rw [skip, Bool.false_or] at ack
        rw [ack]
        rfl
  constructor
  · rw [result ack (contract.asked state), loaded]
  · exact view
  · exact memory
  · rw [nextArray_kept none read]
    exact inv.exact.gone flag operate

end Run

/-- In every run in which the flush of an operation starts at the first set and the operation stays
requested until it ends, an operation meets a clean cache and the current memory, and a later load
meets its result. -/
theorem amo_sees_memory (victim : Victim g) (align : Align) (array : Array g)
    (memory : Memory g) (inputs : List (SystemInput g))
    (legal : (system victim align array memory).Legal
      (fun s i => Contract victim align s i ∧ Undisturbed victim align s i)
      (system victim align array memory).reset inputs) :
    Exact ((system victim align array memory).run inputs) ∧
      ∀ i, Contract victim align ((system victim align array memory).run inputs) i →
        Undisturbed victim align ((system victim align array memory).run inputs) i →
        g.invalidateOnFlush = true →
        (((system victim align array memory).run inputs).output victim align i).amoAck = true →
        Answered victim align ((system victim align array memory).run inputs) i :=
  ⟨(inv_run legal).exact, fun _ contract undisturbed flag ack =>
    (inv_run legal).answered contract undisturbed flag ack⟩

/-- Two ways of two sets. -/
abbrev small : Geometry where
  tagWidth := 2
  setBits := 1
  wordBits := 1
  ways := 2
  invalidateOnFlush := true

/-- The first bit of two. -/
def firstOfTwo : Victim small where
  getVictimCl mask k := decide (k = if mask 0 then 0 else 1)
  oneHotToBin mask := if mask 0 then 0 else 1
  set := by
    rintro mask ⟨k, some⟩
    by_cases first : mask 0 = true
    · rw [if_pos first]
      exact first
    · rw [if_neg first]
      match k with
      | 0 => exact absurd some first
      | 1 => exact some
  only _ _ := rfl

/-- Doublewords need no shaping. -/
def doublewords : Align where
  dataAlign _ word := word
  beGen _ _ := 0xff
  sext32 word := word.signExtend 64

def smallSystem : Rtl.Machine (System small) (SystemInput small) :=
  system firstOfTwo doublewords (fun _ _ => {}) (fun _ _ _ => 0)

/-- A store that misses. -/
def storeMiss (tag : BitVec 2) (set : BitVec 1) (wdata : BitVec 64) : SystemInput small where
  lfsr := 0
  missReq := [{ valid := true, addr := { tag := tag, set := set }, we := true
                wdata := wdata, be := 0xff }]

/-- An atomic addition of 1. -/
def addOne : AmoReq small where
  req := true
  op := .add
  operandA := {}
  operandB := 1
  size := 3

/-- The adapter grants and answers at once. -/
def serves (amo : AmoReq small) : SystemInput small where
  lfsr := 0
  gnt := true
  valid := true
  amo := amo

/-- A store of 5 to set 0, and an atomic addition to the same word. -/
def storeThenAdd : List (SystemInput small) :=
  List.replicate 2 (serves {}) ++ [storeMiss 0 0 5] ++ List.replicate 4 (serves {}) ++
    List.replicate 11 (serves addOne)

theorem amo_sees_memory_add :
    Exact (smallSystem.run storeThenAdd) ∧
      Answered firstOfTwo doublewords (smallSystem.run storeThenAdd) (serves addOne) := by
  have holds := amo_sees_memory firstOfTwo doublewords (fun _ _ => {}) (fun _ _ _ => 0)
    storeThenAdd (by decide)
  exact ⟨holds.1, holds.2 (serves addOne) (by decide) (by decide) rfl (by decide)⟩

/-- Three stores to set 1, the last one with an eviction, then a store of 5 to set 0 and an atomic
addition to the same word. -/
def evictThenAdd : List (SystemInput small) :=
  List.replicate 2 (serves {}) ++ [storeMiss 0 1 1] ++ List.replicate 4 (serves {}) ++
    [storeMiss 1 1 2] ++ List.replicate 4 (serves {}) ++
    [storeMiss 2 1 3] ++ List.replicate 7 (serves {}) ++
    [storeMiss 0 0 5] ++ List.replicate 4 (serves {}) ++ List.replicate 10 (serves addOne)

/-- The flush of the operation starts at the set of the eviction: set 0 stays dirty, and the operation
loads the old word. -/
theorem amo_meets_dirty :
    (smallSystem.run evictThenAdd).memory.word {} = 0 ∧
      (smallSystem.run evictThenAdd).view.word {} = 5 ∧
      ¬ ∀ inputs, smallSystem.Legal (Contract firstOfTwo doublewords) smallSystem.reset inputs →
        Exact (smallSystem.run inputs) := by
  refine ⟨by decide, by decide, ?_⟩
  intro exact
  have clean := (exact evictThenAdd (by decide)).clean (by decide) 0 0
  exact absurd clean (by decide)

end Ariane.MissHandler
