import Ariane.MissCoherence

set_option autoImplicit false

/- A miss keeps the cache current, from `IDLE` to the refill. -/
namespace Ariane.MissHandler

variable {g : Geometry} {victim : Victim g} {align : Align}

section Step

variable {s : System g} {i : SystemInput g}

theorem Current.idle (current : Current s) (contract : Contract victim align s i)
    (none : i.store = none) (state : s.handler.state = .idle) :
    Current (s.next victim align i) := by
  have output : s.output victim align i = idleState s.handler (s.handlerInput i) := by
    rw [System.output, cacheManagement, state]
  rw [idleState_eq _ _ state] at output
  have array : (s.next victim align i).array = s.array :=
    nextArray_kept none (congrArg (fun o => o.sram.we) output)
  have memory : (s.next victim align i).memory = s.memory :=
    nextMemory_read (congrArg (fun o => o.axi.we) output)
  have view : (s.next victim align i).view = s.view :=
    nextView_kept none (congrArg Output.missGnt output) (congrArg Output.amoAck output)
  have handler := congrArg Output.next output
  have coherent := current.coherent (by rw [state]; exact fun h => FsmState.noConfusion h)
  have invalid : s.handler.mshr.valid = false := by
    rw [current.phase.mshr, state]
    rfl
  cases miss : firstMiss i.missReq with
  | some r =>
      have some : firstMiss (s.handlerInput i).missReq = Option.some r := miss
      rw [some] at handler
      have next : (s.next victim align i).handler.state = .miss := by
        rw [next_handler, handler]
        rfl
      have mshr : (s.next victim align i).handler.mshr =
          ⟨true, r.1.we, r.2, r.1.addr, r.1.wdata, r.1.be⟩ := by
        rw [next_handler, handler]
      have other {st : FsmState} (differs : FsmState.miss ≠ st) :
          (s.next victim align i).handler.state ≠ st := by
        rw [next]
        exact differs
      constructor
      · exact fun init => absurd init (other (by simp))
      · exact fun _ => coherent.kept array memory view (by simp [state]) (other (by simp))
      · constructor
        · rw [mshr, next]
          rfl
        · intro _ k holds
          rw [array, mshr] at holds
          exact contract.absent r state miss k holds.1 holds.2
        · exact fun replaces => absurd replaces (other (by simp))
        · rintro (frees | frees)
          · exact absurd frees (other (by simp))
          · exact absurd frees (other (by simp))
        · rintro (evicts | evicts)
          · exact absurd evicts (other (by simp))
          · exact absurd evicts (other (by simp))
        · exact fun same => absurd same (other (by simp))
        · exact fun loaded => absurd loaded (other (by simp))
  | none =>
      have nothing : firstMiss (s.handlerInput i).missReq = Option.none := miss
      rw [nothing] at handler
      have next : (s.next victim align i).handler.state = .flushReqStatus ∨
          (s.next victim align i).handler.state = .amoLoad ∨
          (s.next victim align i).handler.state = .idle := by
        rw [next_handler, handler]
        show (if _ then _ else if _ then _ else _) = _ ∨ _
        split
        · exact Or.inl rfl
        · split
          · split
            · exact Or.inr (Or.inl rfl)
            · exact Or.inl rfl
          · exact Or.inr (Or.inr rfl)
      have mshr : (s.next victim align i).handler.mshr.valid = false := by
        rw [next_handler, handler]
        exact invalid
      have other {st : FsmState} (flush : FsmState.flushReqStatus ≠ st)
          (load : FsmState.amoLoad ≠ st) (idle : FsmState.idle ≠ st) :
          (s.next victim align i).handler.state ≠ st := by
        rcases next with next | next | next <;> rw [next] <;> assumption
      constructor
      · exact fun init => absurd init (other (by simp) (by simp) (by simp))
      · exact fun _ => coherent.kept array memory view (by simp [state])
          (other (by simp) (by simp) (by simp))
      · apply phase_quiet mshr
        · rcases next with next | next | next <;> rw [next] <;> rfl
        · exact other (by simp) (by simp) (by simp)
        · exact other (by simp) (by simp) (by simp)

theorem Current.miss (current : Current s) (none : i.store = none)
    (state : s.handler.state = .miss) : Current (s.next victim align i) := by
  have output : s.output victim align i = missState s.handler := by
    rw [System.output, cacheManagement, state]
  have array : (s.next victim align i).array = s.array :=
    nextArray_kept none (by rw [output]; rfl)
  have memory : (s.next victim align i).memory = s.memory :=
    nextMemory_read (by rw [output]; rfl)
  have view : (s.next victim align i).view = s.view :=
    nextView_kept none (by rw [output]; rfl) (by rw [output]; rfl)
  have coherent := current.coherent (by rw [state]; exact fun h => FsmState.noConfusion h)
  have handler : (s.next victim align i).handler = { s.handler with state := .missRepl } := by
    rw [next_handler, output]
    rfl
  have serves : serving s.handler.state = true := by
    rw [state]
    rfl
  constructor
  · rw [handler]
    exact fun init => FsmState.noConfusion init
  · intro
    apply coherent.kept array memory view
    · simp [state]
    · simp [handler]
  · constructor
    · rw [handler]
      exact current.phase.mshr.trans serves
    · rw [array, handler]
      exact fun _ => current.phase.line serves
    · intro
      rw [array, handler]
      exact next_dataI (by rw [output]; rfl)
    · rw [handler]
      rintro (frees | frees) <;> exact FsmState.noConfusion frees
    · rw [handler]
      rintro (evicts | evicts) <;> exact FsmState.noConfusion evicts
    · rw [handler]
      exact fun same => FsmState.noConfusion same
    · rw [handler]
      exact fun loaded => FsmState.noConfusion loaded

theorem Current.missRepl (current : Current s) (none : i.store = none)
    (state : s.handler.state = .missRepl) : Current (s.next victim align i) := by
  have output : s.output victim align i = missReplState victim s.handler (s.handlerInput i) := by
    rw [System.output, cacheManagement, state]
  have fresh := current.phase.replaces state
  have lines : (s.handlerInput i).dataI = s.array s.handler.mshr.addr.set := fresh
  have serves : serving s.handler.state = true := by
    rw [state]
    rfl
  have coherent := current.coherent (by rw [state]; exact fun h => FsmState.noConfusion h)
  rw [missReplState, lines] at output
  have parts : (s.output victim align i).sram.we = false ∧
      (s.output victim align i).axi.we = false ∧
      (s.output victim align i).missGnt = Option.none ∧
      (s.output victim align i).amoAck = false ∧
      (s.output victim align i).next.mshr = s.handler.mshr := by
    rw [output]
    split
    · split <;> exact ⟨rfl, rfl, rfl, rfl, rfl⟩
    · exact ⟨rfl, rfl, rfl, rfl, rfl⟩
  obtain ⟨sram, axi, miss, ack, mshr⟩ := parts
  have array := nextArray_kept none sram
  have memory := nextMemory_read axi
  have view := nextView_kept none miss ack
  have keeps : ∀ {st : FsmState}, (s.next victim align i).handler.state = st →
      serving st = true → st ≠ .saveCacheline → st ≠ .missRepl →
      (st = .reqCacheline → ∃ w, (s.output victim align i).next.evictWay = only w ∧
        ((s.array s.handler.mshr.addr.set w).valid &&
          (s.array s.handler.mshr.addr.set w).dirty) = false) →
      (st = .wbCachelineMiss → (s.output victim align i).next.cnt = s.handler.mshr.addr.set ∧
        ∃ w, (s.output victim align i).next.evictWay = only w ∧
          (s.array s.handler.mshr.addr.set w).valid = true ∧
          (s.array s.handler.mshr.addr.set w).tag = (s.output victim align i).next.evictTag ∧
          (s.array s.handler.mshr.addr.set w).data = (s.output victim align i).next.evictData) →
      Current (s.next victim align i) := by
    intro st next serves' unsaved unread frees evicts
    subst next
    constructor
    · intro init
      rw [init] at serves'
      exact absurd serves' Bool.false_ne_true
    · exact fun _ => coherent.kept array memory view (by simp [state]) unsaved
    · constructor
      · rw [serves', next_handler, mshr]
        exact current.phase.mshr.trans serves
      · rw [array, next_handler, mshr]
        exact fun _ => current.phase.line serves
      · exact fun replaces => absurd replaces unread
      · rw [array, next_handler, mshr]
        rintro (req | save)
        · exact frees req
        · exact absurd save unsaved
      · rintro (back | back)
        · obtain ⟨cnt, w, mask, valid, tag, data⟩ := evicts back
          refine ⟨w, mask, ?_, ?_⟩
          · rw [array, next_handler, cnt]
            exact ⟨valid, tag⟩
          · rw [array, next_handler, cnt]
            exact data
        · rw [back] at serves'
          exact absurd serves' Bool.false_ne_true
      · intro back
        rw [next_handler, mshr]
        exact (evicts back).1
      · intro loaded
        rw [loaded] at serves'
        exact absurd serves' Bool.false_ne_true
  cases free : anyWay fun k => !validWay (s.handlerInput i) k with
  | false =>
      have full : (s.array s.handler.mshr.addr.set i.lfsr).valid = true := by
        have every := of_decide_eq_false free
        rw [not_exists] at every
        rw [← lines]
        by_contra invalid
        exact every i.lfsr (congrArg Bool.not (Bool.eq_false_iff.mpr invalid))
      rw [free] at output
      cases dirty : (s.array s.handler.mshr.addr.set i.lfsr).dirty with
      | true =>
          have dirty' : (s.array s.handler.mshr.addr.set (s.handlerInput i).lfsr).dirty = true :=
            dirty
          rw [dirty'] at output
          apply @keeps .wbCachelineMiss
          · rw [next_handler, output]
            rfl
          · rfl
          · simp
          · simp
          · exact fun req => FsmState.noConfusion req
          · intro
            rw [output]
            exact ⟨rfl, i.lfsr, rfl, full, rfl, rfl⟩
      | false =>
          have dirty' : (s.array s.handler.mshr.addr.set (s.handlerInput i).lfsr).dirty = false :=
            dirty
          rw [dirty'] at output
          apply @keeps .reqCacheline
          · rw [next_handler, output]
            rfl
          · rfl
          · simp
          · simp
          · intro
            rw [output]
            exact ⟨i.lfsr, rfl, by rw [dirty, Bool.and_false]⟩
          · exact fun back => FsmState.noConfusion back
  | true =>
      rw [free] at output
      have some := of_decide_eq_true free
      apply @keeps .reqCacheline
      · rw [next_handler, output]
        rfl
      · rfl
      · simp
      · simp
      · intro
        rw [output]
        refine ⟨_, victim.only _ some, ?_⟩
        rw [← lines]
        have invalid := (Bool.not_eq_true' _).mp (victim.set _ some)
        exact congrArg (· && _) invalid
      · exact fun back => FsmState.noConfusion back

/-- The read of the line is granted; with it a store that missed. -/
theorem Current.reqCacheline (current : Current s) (none : i.store = none)
    (state : s.handler.state = .reqCacheline) : Current (s.next victim align i) := by
  have output : s.output victim align i = reqCachelineState s.handler (s.handlerInput i) := by
    rw [System.output, cacheManagement, state]
  have serves : serving s.handler.state = true := by
    rw [state]
    rfl
  have coherent := current.coherent (by rw [state]; exact fun h => FsmState.noConfusion h)
  rw [reqCachelineState] at output
  have array : (s.next victim align i).array = s.array := by
    apply nextArray_kept none
    rw [output]
    split <;> rfl
  have memory : (s.next victim align i).memory = s.memory := by
    apply nextMemory_read
    rw [output]
    split <;> rfl
  cases granted : i.gnt with
  | false =>
      have late : (s.handlerInput i).gnt = false := granted
      rw [late, if_neg Bool.false_ne_true] at output
      have view : (s.next victim align i).view = s.view :=
        nextView_kept none (by rw [output]; rfl) (by rw [output]; rfl)
      have handler : (s.next victim align i).handler = s.handler := by
        rw [next_handler, output]
        rfl
      constructor
      · rw [handler, state]
        exact fun init => FsmState.noConfusion init
      · intro
        apply coherent.kept array memory view
        · simp [state]
        · simp [handler, state]
      · constructor
        · rw [handler]
          exact current.phase.mshr
        · rw [array, handler]
          exact current.phase.line
        · rw [handler, state]
          exact fun replaces => FsmState.noConfusion replaces
        · rw [array, handler]
          exact current.phase.frees
        · rw [handler, state]
          rintro (evicts | evicts) <;> exact FsmState.noConfusion evicts
        · rw [handler, state]
          exact fun same => FsmState.noConfusion same
        · rw [handler, state]
          exact fun loaded => FsmState.noConfusion loaded
  | true =>
      have now : (s.handlerInput i).gnt = true := granted
      rw [now, if_pos rfl] at output
      have handler : (s.next victim align i).handler =
          { s.handler with state := .saveCacheline } := by
        rw [next_handler, output]
      have line := current.phase.line serves
      have view : (s.next victim align i).view =
          if s.handler.mshr.we then s.view.writeWord s.handler.mshr.addr
            (mergeWord (s.view.word s.handler.mshr.addr) s.handler.mshr.wdata s.handler.mshr.be)
          else s.view := by
        show s.nextView victim align i = _
        rw [System.nextView, none, output]
        rfl
      have apart (tag : BitVec g.tagWidth) (set : BitVec g.setBits)
          (other : ¬ (tag = s.handler.mshr.addr.tag ∧ set = s.handler.mshr.addr.set)) :
          (s.next victim align i).view tag set = s.view tag set := by
        rw [view]
        split
        · exact if_neg other
        · rfl
      constructor
      · rw [handler]
        exact fun init => FsmState.noConfusion init
      · intro
        constructor
        · rw [array]
          exact coherent.unique
        · rw [array]
          intro tag set k holds
          rw [apart tag set]
          · exact coherent.cached tag set k holds
          · rintro ⟨rfl, rfl⟩
            exact line k holds
        · rw [array, memory]
          intro tag set k holds clean
          rw [apart tag set]
          · exact coherent.clean tag set k holds clean
          · rintro ⟨rfl, rfl⟩
            exact line k holds
        · rw [array]
          intro tag set absent
          have before := coherent.absent tag set absent
          rw [System.settled, if_neg (fun save => by simp [state] at save)] at before
          rw [System.settled, memory, handler]
          by_cases here : tag = s.handler.mshr.addr.tag ∧ set = s.handler.mshr.addr.set
          · rw [if_pos ⟨rfl, here⟩, view]
            obtain ⟨rfl, rfl⟩ := here
            rw [refill, before]
            cases s.handler.mshr.we with
            | false => rfl
            | true => exact (if_pos ⟨rfl, rfl⟩).symm
          · rw [if_neg (fun save => here save.2), apart tag set here]
            exact before
      · constructor
        · rw [handler]
          exact current.phase.mshr.trans serves
        · rw [array, handler]
          exact fun _ => line
        · rw [handler]
          exact fun replaces => FsmState.noConfusion replaces
        · rw [array, handler]
          exact fun _ => current.phase.frees (Or.inl state)
        · rw [handler]
          rintro (evicts | evicts) <;> exact FsmState.noConfusion evicts
        · rw [handler]
          exact fun same => FsmState.noConfusion same
        · rw [handler]
          exact fun loaded => FsmState.noConfusion loaded

theorem Current.saveCacheline (current : Current s) (none : i.store = none)
    (state : s.handler.state = .saveCacheline) : Current (s.next victim align i) := by
  have output : s.output victim align i = saveCachelineState s.handler (s.handlerInput i) := by
    rw [System.output, cacheManagement, state]
  have serves : serving s.handler.state = true := by
    rw [state]
    rfl
  have coherent := current.coherent (by rw [state]; exact fun h => FsmState.noConfusion h)
  rw [saveCachelineState] at output
  have memory : (s.next victim align i).memory = s.memory := by
    apply nextMemory_read
    rw [output]
    split <;> rfl
  have view : (s.next victim align i).view = s.view := by
    apply nextView_kept none <;> rw [output] <;> split <;> rfl
  cases arrives : i.valid with
  | false =>
      have late : (s.handlerInput i).valid = false := arrives
      rw [late, if_neg Bool.false_ne_true] at output
      have array : (s.next victim align i).array = s.array :=
        nextArray_kept none (by rw [output]; rfl)
      have handler : (s.next victim align i).handler = s.handler := by
        rw [next_handler, output]
        rfl
      constructor
      · rw [handler, state]
        exact fun init => FsmState.noConfusion init
      · intro
        constructor
        · rw [array]
          exact coherent.unique
        · rw [array, view]
          exact coherent.cached
        · rw [array, memory, view]
          exact coherent.clean
        · rw [array, view]
          intro tag set absent
          rw [System.settled, handler, memory]
          exact coherent.absent tag set absent
      · constructor
        · rw [handler]
          exact current.phase.mshr
        · rw [array, handler]
          exact current.phase.line
        · rw [handler, state]
          exact fun replaces => FsmState.noConfusion replaces
        · rw [array, handler]
          exact current.phase.frees
        · rw [handler, state]
          rintro (evicts | evicts) <;> exact FsmState.noConfusion evicts
        · rw [handler, state]
          exact fun same => FsmState.noConfusion same
        · rw [handler, state]
          exact fun loaded => FsmState.noConfusion loaded
  | true =>
      have now : (s.handlerInput i).valid = true := arrives
      have data : (s.handlerInput i).data =
          s.memory s.handler.mshr.addr.tag s.handler.mshr.addr.set := by
        show s.response i = _
        rw [System.response, state]
      rw [now, if_pos rfl, data] at output
      have line := current.phase.line serves
      have settled := coherent.absent _ _ line
      rw [System.settled, if_pos ⟨state, rfl, rfl⟩] at settled
      obtain ⟨w, mask, free⟩ := current.phase.frees (Or.inr state)
      have handler : (s.next victim align i).handler =
          { s.handler with mshr := { s.handler.mshr with valid := false }, state := .idle } := by
        rw [next_handler, output]
      have array (set : BitVec g.setBits) (k : Fin g.ways) :
          (s.next victim align i).array set k =
            if set = s.handler.mshr.addr.set ∧ k = w then
              ⟨s.handler.mshr.addr.tag,
                s.view s.handler.mshr.addr.tag s.handler.mshr.addr.set, true, s.handler.mshr.we⟩
            else s.array set k := by
        show s.nextArray victim align i set k = _
        rw [nextArray_of_none none, output, mask, settled]
        exact write_refill _ set k
      have holds {tag : BitVec g.tagWidth} {set : BitVec g.setBits} {k : Fin g.ways}
          (after : Holds (s.next victim align i).array tag set k) :
          (set = s.handler.mshr.addr.set ∧ k = w ∧ tag = s.handler.mshr.addr.tag) ∨
            (¬ (set = s.handler.mshr.addr.set ∧ k = w) ∧ Holds s.array tag set k) := by
        rw [Holds, array] at after
        by_cases here : set = s.handler.mshr.addr.set ∧ k = w
        · rw [if_pos here] at after
          exact Or.inl ⟨here.1, here.2, after.2.symm⟩
        · rw [if_neg here] at after
          exact Or.inr ⟨here, after⟩
      constructor
      · rw [handler]
        exact fun init => FsmState.noConfusion init
      · intro
        constructor
        · intro tag set k k' first second
          rcases holds first with ⟨rfl, rfl, rfl⟩ | ⟨other, first⟩
          · rcases holds second with ⟨-, way, -⟩ | ⟨-, second⟩
            · exact way.symm
            · exact absurd second (line k')
          · rcases holds second with ⟨rfl, rfl, rfl⟩ | ⟨-, second⟩
            · exact absurd first (line k)
            · exact coherent.unique tag set k k' first second
        · intro tag set k after
          rw [array, view]
          rcases holds after with ⟨rfl, rfl, rfl⟩ | ⟨other, before⟩
          · rw [if_pos ⟨rfl, rfl⟩]
          · rw [if_neg other]
            exact coherent.cached tag set k before
        · intro tag set k after clean
          rw [array] at clean
          rw [memory, view]
          rcases holds after with ⟨rfl, rfl, rfl⟩ | ⟨other, before⟩
          · rw [if_pos ⟨rfl, rfl⟩] at clean
            have load : s.handler.mshr.we = false := clean
            rw [refill, load] at settled
            exact settled
          · rw [if_neg other] at clean
            exact coherent.clean tag set k before clean
        · intro tag set absent
          have apart : ¬ (tag = s.handler.mshr.addr.tag ∧ set = s.handler.mshr.addr.set) := by
            rintro ⟨rfl, rfl⟩
            apply absent w
            rw [Holds, array, if_pos ⟨rfl, rfl⟩]
            exact ⟨rfl, rfl⟩
          rw [System.settled, if_neg (fun save => by simp [handler] at save), memory, view]
          by_cases old : Holds s.array tag set w ∧ set = s.handler.mshr.addr.set
          · obtain ⟨old, rfl⟩ := old
            rw [old.1, Bool.true_and] at free
            exact coherent.clean tag _ w old free
          · have before : ∀ k, ¬ Holds s.array tag set k := by
              intro k present
              by_cases here : set = s.handler.mshr.addr.set ∧ k = w
              · obtain ⟨rfl, rfl⟩ := here
                exact old ⟨present, rfl⟩
              · apply absent k
                rw [Holds, array, if_neg here]
                exact present
            have same := coherent.absent tag set before
            rw [System.settled, if_neg (fun save => apart save.2)] at same
            exact same
      · apply phase_quiet <;> rw [handler]
        · rfl
        · exact fun flush => FsmState.noConfusion flush
        · exact fun store => FsmState.noConfusion store

end Step

end Ariane.MissHandler
