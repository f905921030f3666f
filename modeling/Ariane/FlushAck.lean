import Ariane.Controller
import Ariane.AmoMemory

set_option autoImplicit false

/- The flush for a fence: the miss handler with the controller that waits for it. -/
namespace Ariane.MissHandler

open Rtl (Machine)

variable {g : Geometry} {victim : Victim g} {align : Align}

/-- The data cache and the controller. -/
structure Fenced (g : Geometry) where
  cache : System g
  controller : Controller.State := Controller.reset

/-- The inputs of one cycle. The flush and its acknowledge are wired between the two. -/
structure FencedInput (g : Geometry) where
  cache : SystemInput g
  controller : Controller.Input := {}

namespace Fenced

variable (victim : Victim g) (align : Align) (f : Fenced g) (i : FencedInput g)

def cacheInput : SystemInput g := { i.cache with flush := f.controller.flushDcache }

/-- `flush_ack_o`. -/
def flushAck : Bool := (f.cache.output victim align (f.cacheInput i)).flushAck

def controllerInput : Controller.Input :=
  { i.controller with flushDcacheAck := f.flushAck victim align i }

def next : Fenced g where
  cache := f.cache.next victim align (f.cacheInput i)
  controller := Controller.next f.controller (f.controllerInput victim align i)

/-- A flush that was accepted for `flush_i` returns to `IDLE`. -/
def ends : Bool :=
  flushes f.cache.handler.state && f.cache.byFlush &&
    (f.next victim align i).cache.handler.state == .idle

end Fenced

def fenced (victim : Victim g) (align : Align) (array : Array g) (memory : Memory g) :
    Machine (Fenced g) (FencedInput g) :=
  ⟨{ cache := (system victim align array memory).reset }, Fenced.next victim align⟩

/-- The commit stage starts a fence when no other is active and no store is pending. -/
structure Promises (victim : Victim g) (align : Align) (f : Fenced g) (i : FencedInput g) :
    Prop where
  drained : i.cache.store.isSome = true → f.controller.flushDcache = false
  idle : Controller.StartsIdle f.controller (f.controllerInput victim align i)

instance decidablePromises (victim : Victim g) (align : Align) (f : Fenced g)
    (i : FencedInput g) : Decidable (Promises victim align f i) :=
  decidable_of_iff
    ((i.cache.store.isSome = true → f.controller.flushDcache = false) ∧
      (f.controller.fenceActive = true →
        (f.controllerInput victim align i).fence = false ∧
          (f.controllerInput victim align i).fenceI = false))
    ⟨fun ⟨drained, idle⟩ => ⟨drained, idle⟩, fun promises => ⟨promises.drained, promises.idle⟩⟩

/-- Where `flush_i` is accepted, an atomic operation is requested exactly if its own flush has
ended. -/
def Unclaimed (f : Fenced g) (i : FencedInput g) : Prop :=
  f.cache.handler.state = .idle → (f.controller.flushDcache && !i.cache.busy) = true →
    (firstMiss i.cache.missReq).isSome = false → i.cache.amo.req = f.cache.handler.serveAmo

instance decidableUnclaimed (f : Fenced g) (i : FencedInput g) : Decidable (Unclaimed f i) :=
  inferInstanceAs (Decidable (_ → _ → _ → _))

/-- Every set was visited, and every line that was dirty at the start was written back. -/
structure Complete (s : System g) : Prop where
  visited : ∀ set, set ∈ s.visited
  written : ∀ set k, ((s.start set k).valid && (s.start set k).dirty) = true →
    ⟨(s.start set k).tag, set, (s.start set k).data⟩ ∈ s.written

/-- How far a flush for `flush_i` is. -/
structure Passing (s : System g) : Prop where
  visited : ∀ set < s.handler.cnt, set ∈ s.visited
  written : ∀ set k, ((s.start set k).valid && (s.start set k).dirty) = true →
    (s.handler.cnt ≤ set ∧ s.array set k = s.start set k) ∨
      ⟨(s.start set k).tag, set, (s.start set k).data⟩ ∈ s.written
  fresh : s.handler.state = .flushing → s.dataI = s.array s.handler.cnt
  evicts : s.handler.state = .wbCachelineFlush →
    ∃ w, s.handler.evictWay = only w ∧ s.handler.evictTag = (s.array s.handler.cnt w).tag ∧
      s.handler.evictData = (s.array s.handler.cnt w).data

/-- What holds between two cycles. -/
structure Waiting (f : Fenced g) : Prop where
  halted : Controller.Halted f.controller
  /-- A flush before an atomic operation is known by its flag. -/
  serves : flushes f.cache.handler.state = true → f.cache.byFlush = false →
    f.cache.handler.serveAmo = true
  held : flushes f.cache.handler.state = true → f.cache.byFlush = true →
    f.controller.flushDcache = true
  passing : flushes f.cache.handler.state = true → f.cache.byFlush = true → Passing f.cache

section Cycle

variable {s : System g} {i : SystemInput g}

/-- Only the end of a flush is acknowledged. -/
theorem flushing_of_ack (ack : (s.output victim align i).flushAck = true) :
    s.handler.state = .flushing := by
  by_contra other
  by_cases idle : s.handler.state = .idle
  · rw [System.output, cacheManagement, idle] at ack
    rw [idleState_eq _ _ idle] at ack
    exact absurd ack Bool.false_ne_true
  · have none := (@output_routine _ victim align s i idle).flushAck other
    exact absurd (none.symm.trans ack) Bool.false_ne_true

theorem not_accepts (busy : s.handler.state ≠ .idle) : s.accepts victim align i = false := by
  rw [System.accepts, beq_eq_false_iff_ne.mpr busy, Bool.false_and]

theorem next_start (busy : s.handler.state ≠ .idle) :
    (s.next victim align i).start = s.start := by
  show (if s.accepts victim align i then _ else _) = _
  rw [not_accepts busy]
  rfl

theorem next_visited (busy : s.handler.state ≠ .idle) :
    (s.next victim align i).visited =
      if s.handler.state = .flushing ∧
          (s.output victim align i).next.state ≠ .wbCachelineFlush then
        s.visited ++ [s.handler.cnt]
      else s.visited := by
  show (if s.accepts victim align i then _ else _) = _
  rw [not_accepts busy]
  rfl

theorem next_written (busy : s.handler.state ≠ .idle) :
    (s.next victim align i).written =
      if s.handler.state = .wbCachelineFlush ∧ i.gnt = true then
        s.written ++ [⟨(s.output victim align i).axi.addr.tag,
          (s.output victim align i).axi.addr.set, (s.output victim align i).axi.wdata⟩]
      else s.written := by
  show (if s.accepts victim align i then _ else _) = _
  rw [not_accepts busy]
  rfl

/-- The lines of the next set are requested. -/
theorem Passing.reqStatus (passing : Passing s) (none : i.store = none)
    (state : s.handler.state = .flushReqStatus) : Passing (s.next victim align i) := by
  have output : s.output victim align i = flushReqStatusState s.handler := by
    rw [System.output, cacheManagement, state]
  have busy : s.handler.state ≠ .idle := by simp [state]
  have array : (s.next victim align i).array = s.array :=
    nextArray_kept none (by rw [output]; rfl)
  have visited := @next_visited _ victim align s i busy
  have written := @next_written _ victim align s i busy
  rw [if_neg (by simp [state])] at visited written
  constructor
  · rw [visited, next_handler, output]
    exact passing.visited
  · rw [array, next_start busy, written, next_handler, output]
    exact passing.written
  · intro
    rw [array, next_handler, output]
    exact next_dataI (by rw [output]; rfl)
  · rw [next_handler, output]
    exact fun evicts => FsmState.noConfusion evicts

/-- A dirty line is found. -/
theorem Passing.finds (passing : Passing s) (none : i.store = none)
    (state : s.handler.state = .flushing)
    (dirty : anyWay (dirtyWay (s.handlerInput i)) = true) : Passing (s.next victim align i) := by
  have output : s.output victim align i = flushingState victim s.handler (s.handlerInput i) := by
    rw [System.output, cacheManagement, state]
  rw [flushingState, dirty, if_pos rfl] at output
  have lines : (s.handlerInput i).dataI = s.array s.handler.cnt := passing.fresh state
  have busy : s.handler.state ≠ .idle := by simp [state]
  have array : (s.next victim align i).array = s.array :=
    nextArray_kept none (by rw [output]; rfl)
  have visited := @next_visited _ victim align s i busy
  have written := @next_written _ victim align s i busy
  rw [if_neg (by rw [output]; exact fun both => both.2 rfl)] at visited
  rw [if_neg (by simp [state])] at written
  constructor
  · rw [visited, next_handler, output]
    exact passing.visited
  · rw [array, next_start busy, written, next_handler, output]
    exact passing.written
  · rw [next_handler, output]
    exact fun flushing => FsmState.noConfusion flushing
  · intro
    have some : ∃ k, dirtyWay (s.handlerInput i) k = true := of_decide_eq_true dirty
    rw [array, next_handler, output, victim.only _ some, lines]
    exact ⟨_, rfl, rfl, rfl⟩

/-- A set without a dirty line is passed. -/
theorem Passing.passes (passing : Passing s) (none : i.store = none)
    (state : s.handler.state = .flushing)
    (dirty : anyWay (dirtyWay (s.handlerInput i)) = false) :
    (∀ set ≤ s.handler.cnt, set ∈ (s.next victim align i).visited) ∧
      ∀ set k, ((s.start set k).valid && (s.start set k).dirty) = true →
        (s.handler.cnt < set ∧ (s.next victim align i).array set k = s.start set k) ∨
          ⟨(s.start set k).tag, set, (s.start set k).data⟩ ∈ (s.next victim align i).written := by
  have output : s.output victim align i = flushingState victim s.handler (s.handlerInput i) := by
    rw [System.output, cacheManagement, state]
  rw [flushingState, dirty, if_neg Bool.false_ne_true] at output
  have busy : s.handler.state ≠ .idle := by simp [state]
  have visited := @next_visited _ victim align s i busy
  have written := @next_written _ victim align s i busy
  have leaves : (s.output victim align i).next.state ≠ .wbCachelineFlush := by
    rw [output]
    show (if _ then FsmState.idle else FsmState.flushReqStatus) ≠ _
    split
    · exact fun evicts => FsmState.noConfusion evicts
    · exact fun evicts => FsmState.noConfusion evicts
  rw [if_pos ⟨state, leaves⟩] at visited
  rw [if_neg (by simp [state])] at written
  constructor
  · intro set low
    rw [visited, List.mem_append, List.mem_singleton]
    by_cases here : set = s.handler.cnt
    · exact Or.inr here
    · exact Or.inl (passing.visited set (BitVec.lt_of_le_ne low here))
  · intro set k start
    rw [written]
    rcases passing.written set k start with ⟨low, kept⟩ | back
    · left
      have other : s.handler.cnt ≠ set := by
        rintro rfl
        have every := of_decide_eq_false dirty
        rw [not_exists] at every
        apply every k
        rw [dirtyWay]
        show ((s.dataI k).valid && (s.dataI k).dirty) = true
        rw [passing.fresh state, kept]
        exact start
      constructor
      · exact BitVec.lt_of_le_ne low other
      · rw [← kept]
        show s.nextArray victim align i set k = _
        rw [nextArray_of_none none, write_other]
        rw [output]
        exact other.symm
    · exact Or.inr back

/-- The line that was found goes back to the memory. -/
theorem Passing.writeBack (passing : Passing s) (none : i.store = none)
    (state : s.handler.state = .wbCachelineFlush) : Passing (s.next victim align i) := by
  have output : s.output victim align i =
      wbCachelineState s.handler (s.handlerInput i) .flushReqStatus := by
    rw [System.output, cacheManagement, state]
  have busy : s.handler.state ≠ .idle := by simp [state]
  have visited := @next_visited _ victim align s i busy
  have written := @next_written _ victim align s i busy
  rw [if_neg (by simp [state])] at visited
  obtain ⟨w, mask, tag, data⟩ := passing.evicts state
  rw [wbCachelineState] at output
  cases granted : i.gnt with
  | false =>
      have late : (s.handlerInput i).gnt = false := granted
      rw [late, if_neg Bool.false_ne_true] at output
      rw [granted, if_neg (fun both => Bool.false_ne_true both.2)] at written
      have array : (s.next victim align i).array = s.array :=
        nextArray_kept none (by rw [output]; rfl)
      have handler : (s.next victim align i).handler = s.handler := by
        rw [next_handler, output]
        rfl
      constructor
      · rw [visited, handler]
        exact passing.visited
      · rw [array, next_start busy, written, handler]
        exact passing.written
      · rw [handler, state]
        exact fun flushing => FsmState.noConfusion flushing
      · rw [array, handler]
        exact passing.evicts
  | true =>
      have now : (s.handlerInput i).gnt = true := granted
      rw [now, if_pos rfl] at output
      rw [if_pos ⟨state, granted⟩] at written
      have back : (s.next victim align i).written =
          s.written ++ [⟨(s.array s.handler.cnt w).tag, s.handler.cnt,
            (s.array s.handler.cnt w).data⟩] := by
        rw [written, output, ← tag, ← data]
      have array (set : BitVec g.setBits) (k : Fin g.ways) :
          (s.next victim align i).array set k =
            if set = s.handler.cnt ∧ k = w then
              { s.array set k with valid := !g.invalidateOnFlush, dirty := false }
            else s.array set k := by
        show s.nextArray victim align i set k = _
        rw [nextArray_of_none none, output, mask]
        exact write_status _ set k
      constructor
      · rw [visited, next_handler, output]
        exact passing.visited
      · rw [next_start busy, back, next_handler, output]
        intro set k start
        rcases passing.written set k start with ⟨low, kept⟩ | before
        · by_cases here : set = s.handler.cnt ∧ k = w
          · right
            rw [List.mem_append, List.mem_singleton, ← here.1, ← here.2, kept]
            exact Or.inr rfl
          · left
            rw [array, if_neg here]
            exact ⟨low, kept⟩
        · right
          exact List.mem_append_left _ before
      · rw [next_handler, output]
        exact fun flushing => FsmState.noConfusion flushing
      · rw [next_handler, output]
        exact fun evicts => FsmState.noConfusion evicts

/-- A flush that is under way goes on, or it ends with every line written back. -/
theorem Passing.step (passing : Passing s) (none : i.store = none)
    (flush : flushes s.handler.state = true) :
    (Passing (s.next victim align i) ∧ flushes (s.next victim align i).handler.state = true ∧
        (s.output victim align i).flushAck = false) ∨
      (Complete (s.next victim align i) ∧ (s.next victim align i).handler.state = .idle ∧
        (s.output victim align i).flushAck = !s.handler.serveAmo) := by
  cases state : s.handler.state with
  | flushReqStatus =>
      left
      have output : s.output victim align i = flushReqStatusState s.handler := by
        rw [System.output, cacheManagement, state]
      refine ⟨passing.reqStatus none state, ?_, ?_⟩
      · rw [next_handler, output]
        rfl
      · rw [output]
        rfl
  | wbCachelineFlush =>
      left
      have output : s.output victim align i =
          wbCachelineState s.handler (s.handlerInput i) .flushReqStatus := by
        rw [System.output, cacheManagement, state]
      rw [wbCachelineState] at output
      refine ⟨passing.writeBack none state, ?_, ?_⟩
      · rw [next_handler, output]
        split
        · rfl
        · exact flush
      · rw [output]
        split <;> rfl
  | flushing =>
      have output : s.output victim align i =
          flushingState victim s.handler (s.handlerInput i) := by
        rw [System.output, cacheManagement, state]
      cases dirty : anyWay (dirtyWay (s.handlerInput i)) with
      | true =>
          left
          rw [flushingState, dirty, if_pos rfl] at output
          refine ⟨passing.finds none state dirty, ?_, ?_⟩
          · rw [next_handler, output]
            rfl
          · rw [output]
            rfl
      | false =>
          rw [flushingState, dirty, if_neg Bool.false_ne_true] at output
          have start : (s.next victim align i).start = s.start := next_start (by simp [state])
          obtain ⟨visited, written⟩ :=
            @Passing.passes _ victim align s i passing none state dirty
          cases last : s.handler.cnt == BitVec.allOnes g.setBits with
          | true =>
              right
              rw [last] at output
              have every (set : BitVec g.setBits) : set ≤ s.handler.cnt := by
                rw [beq_iff_eq.mp last, BitVec.le_def, BitVec.toNat_allOnes]
                have bound := set.isLt
                omega
              refine ⟨⟨fun set => visited set (every set), ?_⟩, ?_, ?_⟩
              · rw [start]
                intro set k dirtyStart
                rcases written set k dirtyStart with ⟨beyond, -⟩ | back
                · exact absurd (every set) (BitVec.not_le.mpr beyond)
                · exact back
              · rw [next_handler, output]
                rfl
              · rw [output]
                rfl
          | false =>
              left
              rw [last] at output
              have more : s.handler.cnt ≠ BitVec.allOnes g.setBits :=
                beq_eq_false_iff_ne.mp last
              have cnt : (s.next victim align i).handler.cnt = s.handler.cnt + 1 := by
                rw [next_handler, output]
              have next : (s.next victim align i).handler.state = .flushReqStatus := by
                rw [next_handler, output]
                rfl
              refine ⟨⟨?_, ?_, ?_, ?_⟩, ?_, ?_⟩
              · rw [cnt]
                exact fun set low => visited set (le_of_lt_succ more low)
              · rw [start, cnt]
                intro set k dirtyStart
                rcases written set k dirtyStart with ⟨beyond, kept⟩ | back
                · left
                  rw [BitVec.le_def, toNat_succ more]
                  exact ⟨BitVec.lt_def.mp beyond, kept⟩
                · exact Or.inr back
              · rw [next]
                exact fun flushing => FsmState.noConfusion flushing
              · rw [next]
                exact fun evicts => FsmState.noConfusion evicts
              · rw [next]
                rfl
              · rw [output]
                rfl
  | _ =>
      rw [state] at flush
      exact absurd flush Bool.false_ne_true

end Cycle

section Run

variable {f : Fenced g} {i : FencedInput g}

theorem Fenced.next_cache :
    (f.next victim align i).cache = f.cache.next victim align (f.cacheInput i) := rfl

/-- While the acknowledge is missing, the controller asks for the flush. -/
theorem Waiting.asks (waiting : Waiting f) (high : f.controller.flushDcache = true)
    (unacked : f.flushAck victim align i = false) :
    (f.next victim align i).controller = ⟨true, true⟩ :=
  Controller.next_waits _ _ (waiting.halted high) unacked

/-- What starts a flush in `IDLE`. -/
theorem starts_flush (s : System g) (i : SystemInput g) (state : s.handler.state = .idle)
    (flush : flushes (s.next victim align i).handler.state = true) :
    (firstMiss i.missReq).isSome = false ∧
      (s.next victim align i).handler.state = .flushReqStatus ∧
      (if i.flush && !i.busy then (s.next victim align i).handler.cnt = 0
        else s.handler.serveAmo = false ∧ i.amo.req = true ∧ i.busy = false) ∧
      (s.next victim align i).handler.serveAmo =
        if i.amo.req && !i.busy then !s.handler.serveAmo else s.handler.serveAmo := by
  cases miss : (firstMiss i.missReq).isSome with
  | true =>
      rw [next_handler, System.output, cacheManagement, state] at flush
      change flushes (idleState _ _).next.state = true at flush
      rw [idleState_eq _ _ state] at flush
      simp only [System.handlerInput, miss] at flush
      exact absurd flush Bool.false_ne_true
  | false =>
      obtain ⟨next, serve, cnt⟩ := @idle_next _ victim align s i state miss
      rw [← next_handler] at next serve cnt
      rw [next] at flush
      by_cases asked : (i.flush && !i.busy) = true
      · rw [if_pos asked] at next cnt ⊢
        exact ⟨rfl, next, cnt, serve⟩
      · rw [if_neg asked] at flush next ⊢
        by_cases amo : (i.amo.req && !i.busy) = true
        · rw [if_pos amo] at flush next
          have free : s.handler.serveAmo = false := by
            by_contra high
            rw [if_pos (eq_true_of_ne_false high)] at flush
            exact absurd flush Bool.false_ne_true
          rw [free] at next
          have both := amo
          rw [Bool.and_eq_true, Bool.not_eq_true'] at both
          exact ⟨rfl, next, ⟨free, both.1, both.2⟩, serve⟩
        · rw [if_neg amo] at flush
          exact absurd flush Bool.false_ne_true

theorem accepted (state : f.cache.handler.state = .idle)
    (flush : flushes (f.next victim align i).cache.handler.state = true) :
    f.cache.accepts victim align (f.cacheInput i) = true := by
  rw [System.accepts, state]
  show (_ && (f.next victim align i).cache.handler.state == _) = true
  rw [Fenced.next_cache, (starts_flush _ _ state flush).2.1]
  rfl

/-- A flush belongs to the fence if it was accepted for `flush_i`. -/
theorem accepted_byFlush (state : f.cache.handler.state = .idle)
    (flush : flushes (f.next victim align i).cache.handler.state = true) :
    (f.next victim align i).cache.byFlush = (f.controller.flushDcache && !i.cache.busy) := by
  show (if f.cache.accepts victim align (f.cacheInput i) then _ else _) = _
  rw [accepted state flush]
  rfl

/-- The flush for a fence is accepted, or another operation starts. -/
theorem Waiting.idle (waiting : Waiting f) (promises : Promises victim align f i)
    (state : f.cache.handler.state = .idle) : Waiting (f.next victim align i) := by
  have unacked : f.flushAck victim align i = false := by
    rw [Fenced.flushAck, System.output, cacheManagement, state]
    show (idleState _ _).flushAck = false
    rw [idleState_eq _ _ state]
    rfl
  constructor
  · exact Controller.next_halted _ _ promises.idle
  · intro flush other
    rw [accepted_byFlush state flush] at other
    obtain ⟨-, -, cause, serve⟩ := starts_flush _ _ state flush
    have other : ((f.cacheInput i).flush && !(f.cacheInput i).busy) = false := other
    rw [other, if_neg Bool.false_ne_true] at cause
    rw [Fenced.next_cache, serve, cause.1, cause.2.1, cause.2.2]
    rfl
  · intro flush asked
    rw [accepted_byFlush state flush, Bool.and_eq_true] at asked
    rw [waiting.asks asked.1 unacked]
  · intro flush asked
    rw [accepted_byFlush state flush] at asked
    obtain ⟨-, next, cause, -⟩ := starts_flush _ _ state flush
    have asked : ((f.cacheInput i).flush && !(f.cacheInput i).busy) = true := asked
    rw [asked, if_pos rfl] at cause
    rw [← Fenced.next_cache] at next cause
    have start : (f.next victim align i).cache.start = (f.next victim align i).cache.array := by
      show (if f.cache.accepts victim align (f.cacheInput i) then _ else _) = _
      rw [accepted state flush]
      rfl
    constructor
    · rw [cause]
      exact fun set low => absurd low BitVec.not_lt_zero
    · rw [cause, start]
      exact fun set k _ => Or.inl ⟨Nat.zero_le set.toNat, rfl⟩
    · rw [next]
      exact fun flushing => FsmState.noConfusion flushing
    · rw [next]
      exact fun evicts => FsmState.noConfusion evicts

/-- No store is granted while a flush for a fence is under way. -/
theorem Waiting.no_store (waiting : Waiting f) (promises : Promises victim align f i)
    (flush : flushes f.cache.handler.state = true) (asked : f.cache.byFlush = true) :
    (f.cacheInput i).store = none := by
  by_contra some
  have quiet := promises.drained (Option.isSome_iff_ne_none.mpr some)
  exact absurd (quiet.symm.trans (waiting.held flush asked)) Bool.false_ne_true

theorem Waiting.step (waiting : Waiting f) (promises : Promises victim align f i) :
    Waiting (f.next victim align i) := by
  by_cases state : f.cache.handler.state = .idle
  · exact waiting.idle promises state
  · have byFlush : (f.next victim align i).cache.byFlush = f.cache.byFlush := next_byFlush state
    have halted : Controller.Halted (f.next victim align i).controller :=
      Controller.next_halted _ _ promises.idle
    cases flush : flushes f.cache.handler.state with
    | false =>
        have quiet : flushes (f.next victim align i).cache.handler.state = false :=
          (next_flushes state flush).1
        constructor
        · exact halted
        · exact fun high => absurd (quiet.symm.trans high) Bool.false_ne_true
        · exact fun high => absurd (quiet.symm.trans high) Bool.false_ne_true
        · exact fun high => absurd (quiet.symm.trans high) Bool.false_ne_true
    | true =>
        cases asked : f.cache.byFlush with
        | false =>
            rw [asked] at byFlush
            constructor
            · exact halted
            · intro _ _
              rw [Fenced.next_cache, next_serveAmo state]
              exact waiting.serves flush asked
            · exact fun _ high => absurd (byFlush.symm.trans high) Bool.false_ne_true
            · exact fun _ high => absurd (byFlush.symm.trans high) Bool.false_ne_true
        | true =>
            rw [asked] at byFlush
            have none := waiting.no_store promises flush asked
            rcases @Passing.step _ victim align _ _ (waiting.passing flush asked) none flush with
              ⟨passing, -, unacked⟩ | ⟨-, idle, -⟩
            · constructor
              · exact halted
              · exact fun _ other => absurd (other.symm.trans byFlush) Bool.false_ne_true
              · intro _ _
                rw [waiting.asks (waiting.held flush asked) unacked]
              · exact fun _ _ => passing
            · have quiet : flushes (f.next victim align i).cache.handler.state = false := by
                rw [Fenced.next_cache, idle]
                rfl
              constructor
              · exact halted
              · exact fun high => absurd (quiet.symm.trans high) Bool.false_ne_true
              · exact fun high => absurd (quiet.symm.trans high) Bool.false_ne_true
              · exact fun high => absurd (quiet.symm.trans high) Bool.false_ne_true

/-- The flush for a fence is not taken for the flush of an atomic operation. -/
def Owned (f : Fenced g) : Prop :=
  flushes f.cache.handler.state = true → f.cache.byFlush = true →
    f.cache.handler.serveAmo = false

theorem Owned.step (owned : Owned f) (unclaimed : Unclaimed f i) :
    Owned (f.next victim align i) := by
  intro flush asked
  by_cases state : f.cache.handler.state = .idle
  · rw [accepted_byFlush state flush] at asked
    obtain ⟨miss, -, -, serve⟩ := starts_flush _ _ state flush
    have same := unclaimed state asked miss
    have busy : (f.cacheInput i).busy = false := by
      rw [Bool.and_eq_true, Bool.not_eq_true'] at asked
      exact asked.2
    have same : (f.cacheInput i).amo.req = f.cache.handler.serveAmo := same
    rw [Fenced.next_cache, serve, same, busy]
    cases f.cache.handler.serveAmo <;> rfl
  · have before : flushes f.cache.handler.state = true := by
      by_contra quiet
      have quiet := eq_false_of_ne_true quiet
      exact absurd ((next_flushes state quiet).1.symm.trans flush) Bool.false_ne_true
    rw [Fenced.next_cache, next_byFlush state] at asked
    rw [Fenced.next_cache, next_serveAmo state]
    exact owned before asked

variable {array : Array g} {memory : Memory g} {inputs : List (FencedInput g)}

theorem waiting_run
    (legal : (fenced victim align array memory).Legal (Promises victim align)
      (fenced victim align array memory).reset inputs) :
    Waiting ((fenced victim align array memory).run inputs) := by
  refine (fenced victim align array memory).run_invariant ⟨?_, ?_, ?_, ?_⟩
    (fun _ _ waiting promises => waiting.step promises) legal
  · exact fun high => absurd high Bool.false_ne_true
  · exact fun high => absurd high Bool.false_ne_true
  · exact fun high => absurd high Bool.false_ne_true
  · exact fun high => absurd high Bool.false_ne_true

theorem owned_run
    (legal : (fenced victim align array memory).Legal Unclaimed
      (fenced victim align array memory).reset inputs) :
    Owned ((fenced victim align array memory).run inputs) :=
  (fenced victim align array memory).run_invariant
    (fun high => absurd high Bool.false_ne_true)
    (fun _ _ owned unclaimed => owned.step unclaimed) legal

/-- An acknowledge ends a flush for the fence that has written every line back. -/
theorem Waiting.complete (waiting : Waiting f) (promises : Promises victim align f i)
    (ack : f.flushAck victim align i = true) :
    f.cache.byFlush = true ∧ Complete (f.next victim align i).cache := by
  have state := flushing_of_ack ack
  have flush : flushes f.cache.handler.state = true := by
    rw [state]
    rfl
  have asked : f.cache.byFlush = true := by
    by_contra other
    have serve := waiting.serves flush (eq_false_of_ne_true other)
    rw [Fenced.flushAck, System.output, cacheManagement, state] at ack
    simp only [flushingState] at ack
    split at ack
    · exact absurd ack Bool.false_ne_true
    · rw [serve, Bool.not_true, Bool.and_false] at ack
      exact absurd ack Bool.false_ne_true
  refine ⟨asked, ?_⟩
  rcases @Passing.step _ victim align _ _ (waiting.passing flush asked)
    (waiting.no_store promises flush asked) flush with ⟨-, -, unacked⟩ | ⟨complete, -, -⟩
  · exact absurd (unacked.symm.trans ack) Bool.false_ne_true
  · exact complete

/-- A flush for the fence that ends is acknowledged, and ends the fence. -/
theorem Waiting.acknowledges (waiting : Waiting f) (owned : Owned f)
    (promises : Promises victim align f i) (ends : f.ends victim align i = true) :
    f.flushAck victim align i = true ∧ (f.next victim align i).controller = {} := by
  rw [Fenced.ends, Bool.and_eq_true, Bool.and_eq_true, beq_iff_eq] at ends
  obtain ⟨⟨flush, asked⟩, idle⟩ := ends
  have ack : f.flushAck victim align i = true := by
    rcases @Passing.step _ victim align _ _ (waiting.passing flush asked)
      (waiting.no_store promises flush asked) flush with ⟨-, goes, -⟩ | ⟨-, -, ack⟩
    · rw [← Fenced.next_cache, idle] at goes
      exact absurd goes Bool.false_ne_true
    · rw [owned flush asked] at ack
      exact ack
  exact ⟨ack, Controller.next_done _ _ (waiting.halted (waiting.held flush asked)) ack
    promises.idle⟩

end Run

/-- In every run, an acknowledge means that the flush for the fence is complete. Where no flush for
a fence is accepted while an atomic operation claims it, every such flush that ends is acknowledged
and ends the fence. -/
theorem flush_acknowledged (victim : Victim g) (align : Align) (array : Array g)
    (memory : Memory g) (inputs : List (FencedInput g)) (i : FencedInput g)
    (legal : (fenced victim align array memory).Legal (Promises victim align)
      (fenced victim align array memory).reset (inputs ++ [i])) :
    (((fenced victim align array memory).run inputs).flushAck victim align i = true →
      ((fenced victim align array memory).run inputs).cache.byFlush = true ∧
        Complete ((fenced victim align array memory).run (inputs ++ [i])).cache) ∧
      ((fenced victim align array memory).Legal Unclaimed
          (fenced victim align array memory).reset inputs →
        ((fenced victim align array memory).run inputs).ends victim align i = true →
        ((fenced victim align array memory).run inputs).flushAck victim align i = true ∧
          ((fenced victim align array memory).run (inputs ++ [i])).controller.fenceActive =
            false) := by
  rw [Machine.legal_append, Machine.legal_cons] at legal
  obtain ⟨before, promises, -⟩ := legal
  have waiting := waiting_run before
  rw [Machine.run_append, Machine.runFrom_cons, Machine.runFrom_nil]
  refine ⟨waiting.complete promises, ?_⟩
  intro unclaimed ends
  obtain ⟨ack, done⟩ := waiting.acknowledges (owned_run unclaimed) promises ends
  exact ⟨ack, congrArg Controller.State.fenceActive done⟩

/-- A cycle in which the adapter grants and answers, with a fence or an atomic operation. -/
def cycle (fence : Bool) (amo : AmoReq small) : FencedInput small where
  cache := serves amo
  controller := { fence := fence }

def smallFenced : Machine (Fenced small) (FencedInput small) :=
  fenced firstOfTwo doublewords (fun _ _ => {}) (fun _ _ _ => 0)

/-- A store of 5 to set 0, and a fence. -/
def storeThenFence : List (FencedInput small) :=
  List.replicate 2 (cycle false {}) ++ [⟨storeMiss 0 0 5, {}⟩] ++
    List.replicate 4 (cycle false {}) ++ [cycle true {}] ++ List.replicate 7 (cycle false {})

theorem flush_acknowledged_store :
    Complete (smallFenced.run (storeThenFence ++ [cycle false {}])).cache ∧
      (smallFenced.run (storeThenFence ++ [cycle false {}])).controller.fenceActive = false := by
  have holds := flush_acknowledged firstOfTwo doublewords (fun _ _ => {}) (fun _ _ _ => 0)
    storeThenFence (cycle false {}) (by decide)
  exact ⟨(holds.1 (by decide)).2, (holds.2 (by decide) (by decide)).2⟩

/-- An atomic operation that is withdrawn after its flush, and a fence. -/
def withdrawnThenFence : List (FencedInput small) :=
  List.replicate 2 (cycle false {}) ++ List.replicate 5 (cycle false addOne) ++
    [cycle true {}] ++ List.replicate 4 (cycle false {})

/-- The flush for the fence ends without an acknowledge: `serve_amo_q` is left over. -/
theorem flush_ends_silent :
    (smallFenced.run (withdrawnThenFence ++ [cycle false {}])).controller.fenceActive = true ∧
      ¬ ∀ inputs i, smallFenced.Legal (Promises firstOfTwo doublewords) smallFenced.reset
          (inputs ++ [i]) →
        (smallFenced.run inputs).ends firstOfTwo doublewords i = true →
        (smallFenced.run inputs).flushAck firstOfTwo doublewords i = true := by
  refine ⟨by decide, ?_⟩
  intro acknowledged
  have ack := acknowledged withdrawnThenFence (cycle false {}) (by decide) (by decide)
  exact absurd ack (by decide)

end Ariane.MissHandler
