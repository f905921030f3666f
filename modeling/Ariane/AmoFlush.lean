import Ariane.MissMemory

set_option autoImplicit false

/- The flush before an atomic operation: after it the cache is clean and the memory is current. -/
namespace Ariane.MissHandler

open Rtl (Machine)

variable {g : Geometry} {victim : Victim g} {align : Align}

section Sram

variable {r : SramReq g} {array : Array g}

theorem write_read (read : r.we = false) : r.write array = array := by
  funext set k
  rw [SramReq.write, read]
  rfl

theorem write_other {set : BitVec g.setBits} (other : set ≠ r.set) :
    r.write array set = array set := by
  funext k
  exact if_neg fun both => other both.2

end Sram

/-- No line of the set is dirty, and none is valid where a flush invalidates. -/
structure Swept (array : Array g) (set : BitVec g.setBits) : Prop where
  clean : ∀ k, ((array set k).valid && (array set k).dirty) = false
  gone : g.invalidateOnFlush = true → ∀ k, (array set k).valid = false

/-- How far the flush before an atomic operation is. -/
structure Sweeping (s : System g) : Prop where
  serves : s.handler.serveAmo = true →
    s.handler.state = .idle ∨ flushes s.handler.state = true
  cause : flushes s.handler.state = true → s.handler.serveAmo = true ∨ s.byFlush = true
  swept : flushes s.handler.state = true → ∀ set < s.handler.cnt, Swept s.array set
  fresh : s.handler.state = .flushing → s.dataI = s.array s.handler.cnt
  done : s.handler.state = .idle → s.handler.serveAmo = true → ∀ set, Swept s.array set
  clean : operates s.handler.state = true → ∀ set, Swept s.array set

/-- The flush before an atomic operation starts at the first set, and the operation stays requested
from then on until it ends. -/
structure Undisturbed (victim : Victim g) (align : Align) (s : System g) (i : SystemInput g) :
    Prop where
  first : s.accepts victim align i = true → (i.flush && !i.busy) = false → s.handler.cnt = 0
  kept : s.handler.serveAmo = true ∨ operates s.handler.state = true → i.amo.req = true

instance decidableUndisturbed (victim : Victim g) (align : Align) (s : System g)
    (i : SystemInput g) : Decidable (Undisturbed victim align s i) :=
  decidable_of_iff
    ((s.accepts victim align i = true → (i.flush && !i.busy) = false → s.handler.cnt = 0) ∧
      (s.handler.serveAmo = true ∨ operates s.handler.state = true → i.amo.req = true))
    ⟨fun ⟨first, kept⟩ => ⟨first, kept⟩,
      fun undisturbed => ⟨undisturbed.first, undisturbed.kept⟩⟩

section Cycle

variable {s : System g} {i : SystemInput g}

theorem next_handler : (s.next victim align i).handler = (s.output victim align i).next := rfl

/-- What the states after `IDLE` leave alone. -/
structure Routine (q : State g) (o : Output g) : Prop where
  serveAmo : o.next.serveAmo = q.serveAmo
  flushAck : q.state ≠ .flushing → o.flushAck = false
  amoAck : q.state ≠ .amoStore → o.amoAck = false

/-- Only `IDLE` changes `serve_amo_q`, only `FLUSHING` and `AMO_STORE` acknowledge. -/
theorem output_routine (busy : s.handler.state ≠ .idle) :
    Routine s.handler (s.output victim align i) := by
  rw [System.output, cacheManagement]
  cases state : s.handler.state with
  | idle => exact absurd state busy
  | miss | flushReqStatus | init => exact ⟨rfl, fun _ => rfl, fun _ => rfl⟩
  | missRepl =>
      simp only [missReplState]
      split
      · split <;> exact ⟨rfl, fun _ => rfl, fun _ => rfl⟩
      · exact ⟨rfl, fun _ => rfl, fun _ => rfl⟩
  | reqCacheline =>
      simp only [reqCachelineState]
      split <;> exact ⟨rfl, fun _ => rfl, fun _ => rfl⟩
  | saveCacheline =>
      simp only [saveCachelineState]
      split <;> exact ⟨rfl, fun _ => rfl, fun _ => rfl⟩
  | wbCachelineFlush | wbCachelineMiss =>
      simp only [wbCachelineState]
      split <;> exact ⟨rfl, fun _ => rfl, fun _ => rfl⟩
  | flushing =>
      simp only [flushingState]
      split <;> exact ⟨rfl, fun other => absurd state other, fun _ => rfl⟩
  | amoLoad =>
      simp only [amoLoadState]
      split <;> exact ⟨rfl, fun _ => rfl, fun _ => rfl⟩
  | amoSaveLoad =>
      simp only [amoSaveLoadState]
      split <;> exact ⟨rfl, fun _ => rfl, fun _ => rfl⟩
  | amoStore =>
      simp only [amoStoreState]
      split <;> split <;> split <;>
        exact ⟨rfl, fun _ => rfl, fun other => absurd state other⟩

theorem next_serveAmo (busy : s.handler.state ≠ .idle) :
    (s.next victim align i).handler.serveAmo = s.handler.serveAmo :=
  (output_routine busy).serveAmo

/-- Where nothing is flushed and no operation runs or waits, there is nothing to show. -/
theorem sweeping_quiet (serve : s.handler.serveAmo = false)
    (flush : flushes s.handler.state = false) (operate : operates s.handler.state = false) :
    Sweeping s := by
  constructor
  · intro high
    exact absurd (serve.symm.trans high) Bool.false_ne_true
  · intro high
    exact absurd (flush.symm.trans high) Bool.false_ne_true
  · intro high
    exact absurd (flush.symm.trans high) Bool.false_ne_true
  · intro state
    rw [state] at flush
    exact absurd flush.symm Bool.false_ne_true
  · intro _ high
    exact absurd (serve.symm.trans high) Bool.false_ne_true
  · intro high
    exact absurd (operate.symm.trans high) Bool.false_ne_true

theorem flushes_of_operates {state : FsmState} (operate : operates state = true) :
    flushes state = false := by
  cases state <;> first | rfl | exact absurd operate Bool.false_ne_true

theorem sweeping_flush (flush : flushes s.handler.state = true)
    (cause : s.handler.serveAmo = true ∨ s.byFlush = true)
    (swept : ∀ set < s.handler.cnt, Swept s.array set)
    (fresh : s.handler.state = .flushing → s.dataI = s.array s.handler.cnt) : Sweeping s := by
  constructor
  · exact fun _ => Or.inr flush
  · exact fun _ => cause
  · exact fun _ => swept
  · exact fresh
  · intro idle
    rw [idle] at flush
    exact absurd flush Bool.false_ne_true
  · intro operate
    rw [flushes, Bool.or_eq_true, Bool.or_eq_true, beq_iff_eq, beq_iff_eq, beq_iff_eq] at flush
    rcases flush with (state | state) | state <;> rw [state] at operate <;>
      exact absurd operate Bool.false_ne_true

theorem sweeping_idle (idle : s.handler.state = .idle)
    (done : s.handler.serveAmo = true → ∀ set, Swept s.array set) : Sweeping s := by
  have quiet : flushes s.handler.state = false := by
    rw [idle]
    rfl
  constructor
  · exact fun _ => Or.inl idle
  · exact fun flush => absurd (quiet.symm.trans flush) Bool.false_ne_true
  · exact fun flush => absurd (quiet.symm.trans flush) Bool.false_ne_true
  · intro flushing
    exact FsmState.noConfusion (idle.symm.trans flushing)
  · exact fun _ => done
  · intro operate
    rw [idle] at operate
    exact absurd operate Bool.false_ne_true

theorem sweeping_operate (operate : operates s.handler.state = true)
    (serve : s.handler.serveAmo = false) (clean : ∀ set, Swept s.array set) : Sweeping s := by
  have quiet := flushes_of_operates operate
  constructor
  · exact fun high => absurd (serve.symm.trans high) Bool.false_ne_true
  · exact fun flush => absurd (quiet.symm.trans flush) Bool.false_ne_true
  · exact fun flush => absurd (quiet.symm.trans flush) Bool.false_ne_true
  · intro flushing
    rw [flushing] at quiet
    exact absurd quiet.symm Bool.false_ne_true
  · exact fun _ high => absurd (serve.symm.trans high) Bool.false_ne_true
  · exact fun _ => clean

/-- No store is granted while a flush or an operation is under way. -/
theorem Sweeping.no_store (sweeping : Sweeping s) (contract : Contract victim align s i)
    (undisturbed : Undisturbed victim align s i)
    (under : s.handler.serveAmo = true ∨ flushes s.handler.state = true ∨
      operates s.handler.state = true) : i.store = none := by
  have requested : i.amo.req = true ∨ i.flush = true := by
    rcases under with serve | flush | operate
    · exact Or.inl (undisturbed.kept (Or.inl serve))
    · rcases sweeping.cause flush with serve | accepted
      · exact Or.inl (undisturbed.kept (Or.inl serve))
      · exact Or.inr (contract.held flush accepted)
    · exact Or.inl (undisturbed.kept (Or.inr operate))
  by_contra some
  obtain ⟨noFlush, noAmo⟩ := contract.drained (Option.isSome_iff_ne_none.mpr some)
  rcases requested with amo | flush
  · exact absurd (noAmo.symm.trans amo) Bool.false_ne_true
  · exact absurd (noFlush.symm.trans flush) Bool.false_ne_true

theorem nextArray_of_none (none : i.store = none) :
    s.nextArray victim align i = (s.output victim align i).sram.write s.array := by
  rw [System.nextArray, none]

/-- The SRAMs stay where the handler writes nothing and no store is granted. -/
theorem nextArray_kept (none : i.store = none) (read : (s.output victim align i).sram.we = false) :
    (s.next victim align i).array = s.array :=
  (nextArray_of_none none).trans (write_read read)

/-- What `IDLE` decides: a miss goes before a flush, a flush before an operation. -/
theorem idleState_eq (q : State g) (j : Input g) (state : q.state = .idle) :
    idleState q j =
      { defaultOutput q with
        next := { q with
          state := if (firstMiss j.missReq).isSome then .miss
            else if j.flush && !j.busy then .flushReqStatus
            else if j.amo.req && !j.busy then
              if q.serveAmo then .amoLoad else .flushReqStatus
            else .idle
          serveAmo := if (firstMiss j.missReq).isSome then false
            else if j.amo.req && !j.busy then !q.serveAmo else q.serveAmo
          cnt := if j.flush && !j.busy then 0 else q.cnt
          mshr := match firstMiss j.missReq with
            | some (m, id) => ⟨true, m.we, id, m.addr, m.wdata, m.be⟩
            | none => q.mshr } } := by
  obtain ⟨st, mshr, cnt, evictWay, evictTag, evictData, serveAmo, reservation⟩ := q
  subst state
  rw [idleState]
  cases firstMiss j.missReq with
  | some r => cases j.amo.req && !j.busy <;> cases j.flush && !j.busy <;> cases serveAmo <;> rfl
  | none => cases j.amo.req && !j.busy <;> cases j.flush && !j.busy <;> cases serveAmo <;> rfl

/-- Without a miss, `IDLE` starts a flush, an operation, or nothing. -/
theorem idle_next (state : s.handler.state = .idle)
    (miss : (firstMiss i.missReq).isSome = false) :
    (s.output victim align i).next.state =
        (if i.flush && !i.busy then .flushReqStatus
        else if i.amo.req && !i.busy then
          if s.handler.serveAmo then .amoLoad else .flushReqStatus
        else .idle) ∧
      (s.output victim align i).next.serveAmo =
        (if i.amo.req && !i.busy then !s.handler.serveAmo else s.handler.serveAmo) ∧
      (s.output victim align i).next.cnt =
        if i.flush && !i.busy then 0 else s.handler.cnt := by
  have output : s.output victim align i = idleState s.handler (s.handlerInput i) := by
    rw [System.output, cacheManagement, state]
  rw [idleState_eq _ _ state] at output
  rw [output]
  refine ⟨?_, ?_, rfl⟩
  · simp only [System.handlerInput, miss]
    rfl
  · simp only [System.handlerInput, miss]
    rfl

/-- From `IDLE`, a flush or an operation starts. -/
theorem Sweeping.idle (sweeping : Sweeping s) (contract : Contract victim align s i)
    (undisturbed : Undisturbed victim align s i) (state : s.handler.state = .idle) :
    Sweeping (s.next victim align i) := by
  have output : s.output victim align i = idleState s.handler (s.handlerInput i) := by
    rw [System.output, cacheManagement, state]
  rw [idleState_eq _ _ state] at output
  have read : (s.output victim align i).sram.we = false := congrArg (fun o => o.sram.we) output
  cases miss : (firstMiss i.missReq).isSome with
  | true =>
      have handler := congrArg Output.next output
      apply sweeping_quiet <;> rw [next_handler, handler] <;>
        simp only [System.handlerInput, miss] <;> rfl
  | false =>
      obtain ⟨next, serve, cnt⟩ := @idle_next _ victim align s i state miss
      have accepts : (s.output victim align i).next.state = .flushReqStatus →
          (s.next victim align i).byFlush = (i.flush && !i.busy) := by
        intro starts
        show (if s.accepts victim align i then _ else _) = _
        rw [System.accepts, state, starts]
        rfl
      cases flush : i.flush && !i.busy with
      | true =>
          rw [flush, if_pos rfl] at next cnt
          apply sweeping_flush
          · rw [next_handler, next]
            rfl
          · exact Or.inr ((accepts next).trans flush)
          · rw [next_handler, cnt]
            intro set low
            exact absurd low (BitVec.not_lt_zero)
          · rw [next_handler, next]
            exact fun flushing => FsmState.noConfusion flushing
      | false =>
          rw [flush, if_neg Bool.false_ne_true] at next cnt
          cases amo : i.amo.req && !i.busy with
          | false =>
              rw [amo, if_neg Bool.false_ne_true] at next serve
              apply sweeping_idle next
              intro serves
              rw [next_handler, serve] at serves
              have none := sweeping.no_store contract undisturbed (Or.inl serves)
              rw [nextArray_kept none read]
              exact sweeping.done state serves
          | true =>
              rw [amo, if_pos rfl] at next serve
              cases serves : s.handler.serveAmo with
              | false =>
                  rw [serves, if_neg Bool.false_ne_true] at next
                  rw [serves] at serve
                  apply sweeping_flush
                  · rw [next_handler, next]
                    rfl
                  · exact Or.inl serve
                  · have first : s.handler.cnt = 0 := by
                      apply undisturbed.first _ flush
                      rw [System.accepts, state, next]
                      rfl
                    rw [next_handler, cnt, first]
                    intro set low
                    exact absurd low BitVec.not_lt_zero
                  · rw [next_handler, next]
                    exact fun flushing => FsmState.noConfusion flushing
              | true =>
                  rw [serves, if_pos rfl] at next
                  rw [serves] at serve
                  apply sweeping_operate
                  · rw [next_handler, next]
                    rfl
                  · exact serve
                  · have none := sweeping.no_store contract undisturbed (Or.inl serves)
                    rw [nextArray_kept none read]
                    exact sweeping.done state serves

theorem next_byFlush (busy : s.handler.state ≠ .idle) :
    (s.next victim align i).byFlush = s.byFlush := by
  show (if s.accepts victim align i then _ else _) = _
  rw [System.accepts, beq_eq_false_iff_ne.mpr busy, Bool.false_and]
  rfl

/-- The lines that the handler reads are there in the next cycle. -/
theorem next_dataI {set : BitVec g.setBits}
    (sram : (s.output victim align i).sram = { req := allWays, set := set }) :
    (s.next victim align i).dataI = s.array set := by
  funext k
  show (if anyWay (s.output victim align i).sram.req && !(s.output victim align i).sram.we then
    s.array (s.output victim align i).sram.set else s.dataI) k = _
  rw [sram]
  have some : anyWay (allWays (g := g)) = true := decide_eq_true ⟨k, rfl⟩
  rw [some]
  rfl

/-- The lines of the next set are requested. -/
theorem Sweeping.reqStatus (sweeping : Sweeping s) (contract : Contract victim align s i)
    (undisturbed : Undisturbed victim align s i) (state : s.handler.state = .flushReqStatus) :
    Sweeping (s.next victim align i) := by
  have output : s.output victim align i = flushReqStatusState s.handler := by
    rw [System.output, cacheManagement, state]
  have flush : flushes s.handler.state = true := by
    rw [state]
    rfl
  have busy : s.handler.state ≠ .idle := by simp [state]
  have array : (s.next victim align i).array = s.array :=
    nextArray_kept (sweeping.no_store contract undisturbed (Or.inr (Or.inl flush)))
      (by rw [output]; rfl)
  apply sweeping_flush
  · rw [next_handler, output]
    rfl
  · rw [next_serveAmo busy, next_byFlush busy]
    exact sweeping.cause flush
  · rw [array, next_handler, output]
    exact sweeping.swept flush
  · intro
    rw [array, next_handler, output]
    exact next_dataI (by rw [output]; rfl)

/-- The counter does not wrap before the last set. -/
theorem toNat_succ {n : Nat} {cnt : BitVec n} (more : cnt ≠ BitVec.allOnes n) :
    (cnt + 1).toNat = cnt.toNat + 1 := by
  have bound := cnt.isLt
  have other : cnt.toNat ≠ 2 ^ n - 1 := by
    rw [← BitVec.toNat_allOnes]
    exact fun equal => more (BitVec.eq_of_toNat_eq equal)
  have small : cnt.toNat + 1 < 2 ^ n := by omega
  cases n with
  | zero => omega
  | succ n =>
      have one : (1 : BitVec (n + 1)).toNat = 1 := BitVec.toNat_one (Nat.succ_pos n)
      rw [BitVec.toNat_add, one, Nat.mod_eq_of_lt small]

theorem le_of_lt_succ {n : Nat} {cnt set : BitVec n} (more : cnt ≠ BitVec.allOnes n)
    (low : set < cnt + 1) : set ≤ cnt := by
  rw [BitVec.lt_def, toNat_succ more] at low
  rw [BitVec.le_def]
  exact Nat.le_of_lt_succ low

/-- The write at the end of a set leaves nothing that is dirty, or nothing that is valid. -/
theorem swept_passed {array : Array g} {set : BitVec g.setBits}
    (clean : ∀ k, ((array set k).valid && (array set k).dirty) = false) :
    Swept (SramReq.write
      { req := firstWay, set := set, we := true, vldrty := fun _ => g.invalidateOnFlush } array)
      set := by
  have first (k : Fin g.ways) : anyWay (firstWay (g := g)) = true :=
    decide_eq_true ⟨⟨0, Nat.lt_of_le_of_lt (Nat.zero_le _) k.isLt⟩, rfl⟩
  constructor
  · intro k
    rw [SramReq.write, if_pos ⟨rfl, rfl⟩, first k]
    cases flag : g.invalidateOnFlush with
    | true => rfl
    | false =>
        simp only [Bool.and_false]
        exact clean k
  · intro flag k
    rw [SramReq.write, if_pos ⟨rfl, rfl⟩, first k, flag]
    rfl

/-- A dirty line is found, or the flush passes on to the next set. -/
theorem Sweeping.flushing (sweeping : Sweeping s) (contract : Contract victim align s i)
    (undisturbed : Undisturbed victim align s i) (state : s.handler.state = .flushing) :
    Sweeping (s.next victim align i) := by
  have output : s.output victim align i = flushingState victim s.handler (s.handlerInput i) := by
    rw [System.output, cacheManagement, state]
  have flush : flushes s.handler.state = true := by
    rw [state]
    rfl
  have busy : s.handler.state ≠ .idle := by simp [state]
  have none := sweeping.no_store contract undisturbed (Or.inr (Or.inl flush))
  have cause : (s.next victim align i).handler.serveAmo = true ∨
      (s.next victim align i).byFlush = true := by
    rw [next_serveAmo busy, next_byFlush busy]
    exact sweeping.cause flush
  cases dirty : anyWay (dirtyWay (s.handlerInput i)) with
  | true =>
      rw [flushingState, dirty, if_pos rfl] at output
      have array : (s.next victim align i).array = s.array :=
        nextArray_kept none (by rw [output]; rfl)
      apply sweeping_flush
      · rw [next_handler, output]
        rfl
      · exact cause
      · rw [array, next_handler, output]
        exact sweeping.swept flush
      · rw [next_handler, output]
        exact fun flushing => FsmState.noConfusion flushing
  | false =>
      rw [flushingState, dirty, if_neg Bool.false_ne_true] at output
      have array : (s.next victim align i).array = (s.output victim align i).sram.write s.array :=
        nextArray_of_none none
      have passed : ∀ set, set ≤ s.handler.cnt → Swept (s.next victim align i).array set := by
        intro set low
        rw [array]
        by_cases here : set = s.handler.cnt
        · subst here
          have clean : ∀ k, ((s.array s.handler.cnt k).valid &&
              (s.array s.handler.cnt k).dirty) = false := by
            intro k
            rw [← sweeping.fresh state]
            have every := of_decide_eq_false dirty
            rw [not_exists] at every
            exact Bool.eq_false_iff.mpr (every k)
          rw [output]
          exact swept_passed clean
        · have before : set < s.handler.cnt := by
            rw [BitVec.lt_def]
            rw [BitVec.le_def] at low
            exact Nat.lt_of_le_of_ne low (fun equal => here (BitVec.eq_of_toNat_eq equal))
          have swept := sweeping.swept flush set before
          have same : (s.output victim align i).sram.write s.array set = s.array set := by
            apply write_other
            rw [output]
            exact here
          constructor
          · rw [same]
            exact swept.clean
          · rw [same]
            exact swept.gone
      have next : (s.next victim align i).handler.state =
          if s.handler.cnt == BitVec.allOnes g.setBits then .idle else .flushReqStatus := by
        rw [next_handler, output]
      have cnt : (s.next victim align i).handler.cnt = s.handler.cnt + 1 := by
        rw [next_handler, output]
      cases last : s.handler.cnt == BitVec.allOnes g.setBits with
      | true =>
          rw [last, if_pos rfl] at next
          apply sweeping_idle next
          intro _ set
          apply passed
          rw [beq_iff_eq.mp last, BitVec.le_def, BitVec.toNat_allOnes]
          have bound := set.isLt
          omega
      | false =>
          rw [last, if_neg Bool.false_ne_true] at next
          apply sweeping_flush
          · rw [next]
            rfl
          · exact cause
          · intro set low
            apply passed
            rw [cnt] at low
            exact le_of_lt_succ (beq_eq_false_iff_ne.mp last) low
          · rw [next]
            exact fun flushing => FsmState.noConfusion flushing

/-- A dirty line goes back to the memory. -/
theorem Sweeping.writeBack (sweeping : Sweeping s) (contract : Contract victim align s i)
    (undisturbed : Undisturbed victim align s i) (state : s.handler.state = .wbCachelineFlush) :
    Sweeping (s.next victim align i) := by
  have output : s.output victim align i =
      wbCachelineState s.handler (s.handlerInput i) .flushReqStatus := by
    rw [System.output, cacheManagement, state]
  have flush : flushes s.handler.state = true := by
    rw [state]
    rfl
  have busy : s.handler.state ≠ .idle := by simp [state]
  have none := sweeping.no_store contract undisturbed (Or.inr (Or.inl flush))
  have cause : (s.next victim align i).handler.serveAmo = true ∨
      (s.next victim align i).byFlush = true := by
    rw [next_serveAmo busy, next_byFlush busy]
    exact sweeping.cause flush
  rw [wbCachelineState] at output
  cases granted : i.gnt with
  | false =>
      have quiet : (s.handlerInput i).gnt = false := granted
      rw [quiet, if_neg Bool.false_ne_true] at output
      have array : (s.next victim align i).array = s.array :=
        nextArray_kept none (by rw [output]; rfl)
      have kept : (s.next victim align i).handler = s.handler := by
        rw [next_handler, output]
        rfl
      apply sweeping_flush
      · rw [kept]
        exact flush
      · exact cause
      · rw [array, kept]
        exact sweeping.swept flush
      · rw [kept, state]
        exact fun flushing => FsmState.noConfusion flushing
  | true =>
      have now : (s.handlerInput i).gnt = true := granted
      rw [now, if_pos rfl] at output
      have array : (s.next victim align i).array = (s.output victim align i).sram.write s.array :=
        nextArray_of_none none
      apply sweeping_flush
      · rw [next_handler, output]
        rfl
      · exact cause
      · rw [next_handler, output]
        intro set low
        have low : set < s.handler.cnt := low
        have swept := sweeping.swept flush set low
        have same : (s.next victim align i).array set = s.array set := by
          rw [array]
          apply write_other
          rw [output]
          exact BitVec.ne_of_lt low
        constructor
        · rw [same]
          exact swept.clean
        · rw [same]
          exact swept.gone
      · rw [next_handler, output]
        exact fun flushing => FsmState.noConfusion flushing

/-- An operation leaves the lines alone. -/
theorem Sweeping.operation (sweeping : Sweeping s) (contract : Contract victim align s i)
    (undisturbed : Undisturbed victim align s i) (operate : operates s.handler.state = true) :
    Sweeping (s.next victim align i) := by
  have serve : s.handler.serveAmo = false := by
    by_contra serves
    rcases sweeping.serves (eq_true_of_ne_false serves) with state | flush
    · rw [state] at operate
      exact absurd operate Bool.false_ne_true
    · exact absurd ((flushes_of_operates operate).symm.trans flush) Bool.false_ne_true
  have none := sweeping.no_store contract undisturbed (Or.inr (Or.inr operate))
  have busy : s.handler.state ≠ .idle := by
    intro state
    rw [state] at operate
    exact absurd operate Bool.false_ne_true
  have serve' := (@next_serveAmo _ victim align s i busy).trans serve
  have finish (read : (s.output victim align i).sram.we = false)
      (next : (s.output victim align i).next.state = .idle ∨
        operates (s.output victim align i).next.state = true) :
      Sweeping (s.next victim align i) := by
    rcases next with idle | operate'
    · apply sweeping_idle idle
      exact fun serves => absurd (serve'.symm.trans serves) Bool.false_ne_true
    · apply sweeping_operate operate' serve'
      rw [nextArray_kept none read]
      exact sweeping.clean operate
  cases state : s.handler.state with
  | amoLoad =>
      have output : s.output victim align i = amoLoadState s.handler (s.handlerInput i) := by
        rw [System.output, cacheManagement, state]
      rw [amoLoadState] at output
      apply finish
      · rw [output]
        split <;> rfl
      · rw [output]
        right
        split
        · rfl
        · show operates s.handler.state = true
          exact operate
  | amoSaveLoad =>
      have output : s.output victim align i = amoSaveLoadState s.handler (s.handlerInput i) := by
        rw [System.output, cacheManagement, state]
      rw [amoSaveLoadState] at output
      apply finish
      · rw [output]
        split <;> rfl
      · rw [output]
        right
        split
        · rfl
        · show operates s.handler.state = true
          exact operate
  | amoStore =>
      have output : s.output victim align i =
          amoStoreState align s.handler (s.handlerInput i) := by
        rw [System.output, cacheManagement, state]
      apply finish
      · rw [output, amoStoreState]
        split <;> split <;> split <;> rfl
      · rw [output, amoStoreState]
        split <;> split <;> split <;> first | exact Or.inl rfl | exact Or.inr operate
  | _ =>
      rw [state] at operate
      exact absurd operate Bool.false_ne_true

/-- Only `IDLE` starts a flush or an operation. -/
theorem next_flushes (busy : s.handler.state ≠ .idle) (quiet : flushes s.handler.state = false) :
    flushes (s.next victim align i).handler.state = false ∧
      (operates s.handler.state = false →
        operates (s.next victim align i).handler.state = false) := by
  rw [next_handler, System.output, cacheManagement]
  cases state : s.handler.state with
  | idle => exact absurd state busy
  | miss => exact ⟨rfl, fun _ => rfl⟩
  | missRepl =>
      simp only [missReplState]
      split
      · split <;> exact ⟨rfl, fun _ => rfl⟩
      · exact ⟨rfl, fun _ => rfl⟩
  | reqCacheline =>
      simp only [reqCachelineState]
      split
      · exact ⟨rfl, fun _ => rfl⟩
      · exact ⟨quiet, fun _ => by rw [defaultOutput, state]; rfl⟩
  | saveCacheline =>
      simp only [saveCachelineState]
      split
      · exact ⟨rfl, fun _ => rfl⟩
      · exact ⟨quiet, fun _ => by rw [defaultOutput, state]; rfl⟩
  | wbCachelineMiss =>
      simp only [wbCachelineState]
      split
      · exact ⟨rfl, fun _ => rfl⟩
      · exact ⟨quiet, fun _ => by rw [defaultOutput, state]; rfl⟩
  | init =>
      simp only [initState]
      split <;> exact ⟨rfl, fun _ => rfl⟩
  | amoLoad =>
      simp only [amoLoadState]
      split
      · exact ⟨rfl, fun operate => absurd operate.symm Bool.false_ne_true⟩
      · exact ⟨quiet, fun operate => absurd operate.symm Bool.false_ne_true⟩
  | amoSaveLoad =>
      simp only [amoSaveLoadState]
      split
      · exact ⟨rfl, fun operate => absurd operate.symm Bool.false_ne_true⟩
      · exact ⟨quiet, fun operate => absurd operate.symm Bool.false_ne_true⟩
  | amoStore =>
      simp only [amoStoreState]
      constructor
      · split <;> split <;> split <;> first | rfl | exact quiet
      · exact fun operate => absurd operate.symm Bool.false_ne_true
  | flushReqStatus | flushing | wbCachelineFlush =>
      rw [state] at quiet
      exact absurd quiet.symm Bool.false_ne_true

/-- A miss, or the initialization, goes on. -/
theorem Sweeping.other (sweeping : Sweeping s) (busy : s.handler.state ≠ .idle)
    (flush : flushes s.handler.state = false) (operate : operates s.handler.state = false) :
    Sweeping (s.next victim align i) := by
  have serve : s.handler.serveAmo = false := by
    by_contra serves
    rcases sweeping.serves (eq_true_of_ne_false serves) with state | high
    · exact busy state
    · exact absurd (flush.symm.trans high) Bool.false_ne_true
  have serve' := (@next_serveAmo _ victim align s i busy).trans serve
  obtain ⟨flush', operate'⟩ :=
    @next_flushes _ victim align s i busy flush
  exact sweeping_quiet serve' flush' (operate' operate)

theorem Sweeping.step (sweeping : Sweeping s) (contract : Contract victim align s i)
    (undisturbed : Undisturbed victim align s i) : Sweeping (s.next victim align i) := by
  cases state : s.handler.state with
  | idle => exact sweeping.idle contract undisturbed state
  | flushReqStatus => exact sweeping.reqStatus contract undisturbed state
  | flushing => exact sweeping.flushing contract undisturbed state
  | wbCachelineFlush => exact sweeping.writeBack contract undisturbed state
  | amoLoad | amoSaveLoad | amoStore =>
      exact sweeping.operation contract undisturbed (by rw [state]; rfl)
  | miss | missRepl | reqCacheline | saveCacheline | wbCachelineMiss | init =>
      exact sweeping.other (by simp [state]) (by rw [state]; rfl) (by rw [state]; rfl)

end Cycle

end Ariane.MissHandler
