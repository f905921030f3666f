import Ariane.MissBusStep

set_option autoImplicit false

/- The accesses of the miss handler, and an atomic operation from its load to its store. -/
namespace Ariane.MissBus

open AxiAdapter (Params Request Bench Log Memory Phase firstLane byteAt byteOf wordOf)
open MissHandler (Geometry Address Align Victim State Input Output FsmState AmoReq MissAxi
  CacheLine cacheManagement noStore operates operands amoStoreData)

variable {g : Geometry} {victim : Victim g} {align : Align}

/-- The accesses: a line that is refilled, the load of an operation and its store. -/
def lineAxi (q : State g) : MissAxi g := { valid := true, addr := q.mshr.addr }

def loadAxi (a : AmoReq g) : MissAxi g := { valid := true, addr := a.operandA, single := true }

def storeAxi (align : Align) (q : State g) (a : AmoReq g) : MissAxi g where
  valid := true
  we := true
  single := true
  addr := a.operandA
  wdata := fun _ => (amoStoreData align a q.mshr.wdata).1
  be := (amoStoreData align a q.mshr.wdata).2

/-- Where the handler and its adapter are. A line that is written back may still be on its way when
the handler goes on. -/
inductive Stage (align : Align) (s : System g) : Prop
  | behind (state : awaits s.handler.state = false)
      (granted : ∀ r ∈ s.bus.log.granted, r.we = true ∧ r.single = false)
  | refill (state : s.handler.state = .saveCacheline)
      (granted : s.bus.log.granted = [request (lineAxi s.handler) 3])
  | load (a : AmoReq g) (state : s.handler.state = .amoSaveLoad) (running : s.running = some a)
      (granted : s.bus.log.granted = [request (loadAxi a) a.size])
  | store (a : AmoReq g) (state : s.handler.state = .amoStore) (running : s.running = some a)
      (loaded : s.handler.mshr.wdata = s.mem (wordOf (bits a.operandA)))
      (granted : s.bus.log.granted = [] ∨ noStore s.handler.reservation a = false ∧
        s.bus.log.granted = [request (storeAxi align s.handler a) a.size])

structure Inv (align : Align) (s : System g) : Prop where
  phase : Phase s.bus
  served : s.bus.log.ReadFrom s.mem
  pending : ∀ r, s.bus.pending = some r →
    ∃ a, (operates s.handler.state = true → s.running = some a) ∧
      (asked align s.handler a).valid = true ∧ r = request (asked align s.handler a) a.size
  blind : s.bus.regs.state = .waitBValid → s.bus.pending = none
  stage : Stage align s
  reservation : s.handler.reservation = s.done.foldl nextReservation none

section Contract

variable {s : System g} {i : SystemInput g}

theorem asked_own (q : State g) (still : operates q.state = false) (a b : AmoReq g) :
    asked align q a = asked align q b ∧
      request (asked align q a) a.size = request (asked align q b) b.size := by
  have load : q.state ≠ .amoLoad := by
    intro state
    rw [state] at still
    cases still
  have store : q.state ≠ .amoStore := by
    intro state
    rw [state] at still
    cases still
  unfold asked
  rw [if_neg load, if_neg load, if_neg store, if_neg store]
  refine ⟨rfl, ?_⟩
  split
  · rfl
  · split <;> rfl

/-- The handler keeps to the contract of the adapter. -/
theorem Inv.contract (inv : Inv align s) (fits : Fits g) (environment : Environment victim align s i) :
    AxiAdapter.Contract s.bus (seen victim align s i) := by
  refine ⟨⟨environment.slave.b, environment.slave.r⟩, ?_, fun _ _ => fits.line⟩
  intro r pending
  obtain ⟨a, running, valid, same⟩ := inv.pending r pending
  have looks : s.bus.regs.state ≠ .waitBValid := by
    intro waits
    rw [inv.blind waits] at pending
    cases pending
  have own : asked align s.handler i.amo = asked align s.handler a ∧
      request (asked align s.handler i.amo) i.amo.size = request (asked align s.handler a) a.size := by
    cases still : operates s.handler.state with
    | true =>
        rw [environment.held a (running still)]
        exact ⟨rfl, rfl⟩
    | false => exact asked_own s.handler still i.amo a
  constructor
  · show ((s.axi victim align i).valid && s.bus.regs.state != .waitBValid) = true
    rw [axi_eq, own.1, valid, Bool.true_and]
    exact bne_iff_ne.mpr looks
  · show request (s.axi victim align i) i.amo.size = r
    rw [axi_eq, own.2, same]

theorem Inv.bus (inv : Inv align s) (fits : Fits g) (environment : Environment victim align s i) :
    BusStep victim align s i :=
  bus_step fits inv.phase inv.served (inv.contract fits environment)

end Contract

section Steps

variable {s : System g} {i : SystemInput g}

theorem handler_next : (s.next victim align i).handler = (s.output victim align i).next := rfl

theorem running_next (operate : operates s.handler.state = true)
    (none : (s.output victim align i).amoAck = false) :
    (s.next victim align i).running = some i.amo := by
  show (if (operates s.handler.state && !(s.output victim align i).amoAck) = true then some i.amo
    else Option.none) = _
  rw [operate, none]
  rfl

/-- The end of an operation, or another cycle of its store. -/
theorem store_output (state : s.handler.state = .amoStore)
    (silent : noStore s.handler.reservation i.amo = true →
      (s.adapter victim align i).valid = false) :
    (s.output victim align i).amoAck =
        (noStore s.handler.reservation i.amo || (s.adapter victim align i).valid) ∧
      if noStore s.handler.reservation i.amo || (s.adapter victim align i).valid then
        (s.output victim align i).next.state = .idle ∧
          (s.output victim align i).next.reservation =
            nextReservation s.handler.reservation i.amo ∧
          (s.output victim align i).amoResult =
            (if i.amo.op == .sc then if noStore s.handler.reservation i.amo then 1 else 0
              else (operands align i.amo s.handler.mshr.wdata).1)
      else (s.output victim align i).next = s.handler :=
  (@amoStore_step _ victim align s.handler (s.answered victim align i) state silent).2

variable (bus : BusStep victim align s i)

include bus

theorem BusStep.no_grant (none : (asked align s.handler i.amo).valid = false) :
    (s.adapter victim align i).gnt = false := by
  rw [Bool.eq_false_iff]
  exact fun gnt => absurd (none.symm.trans (bus.grant gnt).1) Bool.false_ne_true

/-- What was granted and not answered stays, unless something is granted. -/
theorem BusStep.granted_of_quiet (none : (s.adapter victim align i).gnt = false) :
    (s.next victim align i).bus.log.granted =
      if (s.adapter victim align i).valid then [] else s.bus.log.granted := by
  cases valid : (s.adapter victim align i).valid with
  | true =>
      obtain ⟨r, -, ends, -⟩ := bus.response valid
      exact ends
  | false =>
      rw [(bus.waits valid).2, none, if_neg Bool.false_ne_true, List.append_nil]
      rfl

theorem BusStep.granted_of_grant (gnt : (s.adapter victim align i).gnt = true) :
    (s.next victim align i).bus.log.granted =
      [request (asked align s.handler i.amo) i.amo.size] := by
  obtain ⟨-, first, none⟩ := bus.grant gnt
  rw [(bus.waits none).2, first, gnt, if_pos rfl, List.nil_append]

theorem BusStep.behind_of_quiet (none : (s.adapter victim align i).gnt = false)
    (granted : ∀ r ∈ s.bus.log.granted, r.we = true ∧ r.single = false) :
    ∀ r ∈ (s.next victim align i).bus.log.granted, r.we = true ∧ r.single = false := by
  intro r member
  rw [bus.granted_of_quiet none] at member
  split at member
  · cases member
  · exact granted r member

/-- The stage after a state that asks in vain. -/
theorem BusStep.behind_of_ask {after : FsmState} (state : awaits s.handler.state = false)
    (step : AskStep s.handler (s.adapter victim align i).gnt (s.output victim align i) after)
    (granted : ∀ r ∈ s.bus.log.granted, r.we = true ∧ r.single = false)
    (none : (s.adapter victim align i).gnt = false) : Stage align (s.next victim align i) := by
  refine .behind ?_ (bus.behind_of_quiet none granted)
  rw [handler_next, step.next, none, if_neg Bool.false_ne_true]
  exact state

theorem BusStep.writeBack_stage
    (state : s.handler.state = .wbCachelineFlush ∨ s.handler.state = .wbCachelineMiss)
    (granted : ∀ r ∈ s.bus.log.granted, r.we = true ∧ r.single = false) :
    Stage align (s.next victim align i) := by
  obtain ⟨⟨back, still, step⟩, axi⟩ := @wbCacheline_step _ victim align s.handler
    (s.answered victim align i) state
  have free : awaits s.handler.state = false := by
    rcases state with state | state
    · rw [state]
      rfl
    · rw [state]
      rfl
  cases gnt : (s.adapter victim align i).gnt with
  | false => exact bus.behind_of_ask free step granted gnt
  | true =>
      refine .behind ?_ ?_
      · rw [handler_next]
        show awaits (cacheManagement victim align s.handler _).next.state = false
        rw [step.next]
        show awaits (if (s.adapter victim align i).gnt = true then
          { s.handler with state := back } else s.handler).state = false
        rw [gnt, if_pos rfl]
        show awaits back = false
        cases back <;> first | rfl | cases still
      · intro r member
        rw [bus.granted_of_grant gnt, asked, if_pos state] at member
        rw [if_neg] at member
        · cases member with
          | head => exact ⟨rfl, rfl⟩
          | tail _ rest => cases rest
        · rcases state with state | state <;> rw [state] <;> exact FsmState.noConfusion

theorem BusStep.behind_stage (state : awaits s.handler.state = false)
    (granted : ∀ r ∈ s.bus.log.granted, r.we = true ∧ r.single = false) :
    Stage align (s.next victim align i) := by
  by_cases still : quiet s.handler.state = true
  · have step : QuietStep s.handler (s.output victim align i) := quiet_step still
    have none := bus.no_grant (by rw [asked_none i.amo (.inl still)])
    exact .behind step.next (bus.behind_of_quiet none granted)
  · cases here : s.handler.state with
    | reqCacheline =>
        have step : AskStep s.handler (s.adapter victim align i).gnt (s.output victim align i) _ :=
          (@reqCacheline_step _ victim align s.handler (s.answered victim align i) here).1
        cases gnt : (s.adapter victim align i).gnt with
        | false => exact bus.behind_of_ask state step granted gnt
        | true =>
            have next := step.next
            rw [gnt, if_pos rfl] at next
            refine .refill ?_ ?_
            · rw [handler_next, next]
            · rw [bus.granted_of_grant gnt, handler_next, next, asked, if_pos here]
              rfl
    | amoLoad =>
        have step : AskStep s.handler (s.adapter victim align i).gnt (s.output victim align i) _ :=
          (@amoLoad_step _ victim align s.handler (s.answered victim align i) here).1
        cases gnt : (s.adapter victim align i).gnt with
        | false => exact bus.behind_of_ask state step granted gnt
        | true =>
            have next := step.next
            rw [gnt, if_pos rfl] at next
            refine .load i.amo ?_ (running_next (by rw [here]; rfl) step.amoAck) ?_
            · rw [handler_next, next]
            · rw [bus.granted_of_grant gnt, asked, here]
              rfl
    | wbCachelineFlush => exact bus.writeBack_stage (.inl here) granted
    | wbCachelineMiss => exact bus.writeBack_stage (.inr here) granted
    | saveCacheline | amoSaveLoad | amoStore =>
        rw [here] at state
        cases state
    | idle | miss | missRepl | flushReqStatus | flushing | init =>
        rw [here] at still
        exact absurd rfl still

theorem BusStep.refill_stage (state : s.handler.state = .saveCacheline)
    (granted : s.bus.log.granted = [request (lineAxi s.handler) 3]) :
    Stage align (s.next victim align i) := by
  obtain ⟨axi, -, -, next⟩ := @saveCacheline_step _ victim align s.handler
    (s.answered victim align i) state
  have none := bus.no_grant (by rw [asked_none i.amo (.inr (.inl state))])
  have after := bus.granted_of_quiet none
  have next : if (s.adapter victim align i).valid then
      (s.output victim align i).next.state = .idle
    else (s.output victim align i).next = s.handler := next
  cases valid : (s.adapter victim align i).valid with
  | true =>
      rw [valid, if_pos rfl] at next after
      refine .behind ?_ ?_
      · rw [handler_next, next]
        rfl
      · rw [after]
        intro r member
        cases member
  | false =>
      rw [valid, if_neg Bool.false_ne_true] at next after
      refine .refill ?_ ?_
      · rw [handler_next, next, state]
      · rw [after, granted, handler_next, next]

theorem BusStep.load_stage {a : AmoReq g} (state : s.handler.state = .amoSaveLoad)
    (held : i.amo = a) (granted : s.bus.log.granted = [request (loadAxi a) a.size]) :
    Stage align (s.next victim align i) := by
  obtain ⟨-, ack, next⟩ := @amoSaveLoad_step _ victim align s.handler
    (s.answered victim align i) state
  have none := bus.no_grant (by rw [asked_none i.amo (.inr (.inr state))])
  have after := bus.granted_of_quiet none
  have running : (s.next victim align i).running = some a := by
    rw [← held]
    exact running_next (by rw [state]; rfl) ack
  have next : (s.output victim align i).next = if (s.adapter victim align i).valid then
      { s.handler with
        mshr := { s.handler.mshr with wdata := (s.adapter victim align i).rdata (firstLane _) }
        state := .amoStore }
    else s.handler := next
  cases valid : (s.adapter victim align i).valid with
  | true =>
      rw [valid, if_pos rfl] at next after
      obtain ⟨r, own, -, -, -, ends⟩ := bus.response valid
      rw [granted, List.cons.injEq] at own
      obtain ⟨rfl, -⟩ := own
      rw [if_neg (show ¬(request (loadAxi a) a.size).we = true from Bool.false_ne_true)] at ends
      refine .store a ?_ running ?_ (.inl after)
      · rw [handler_next, next]
      · rw [handler_next, next, ends.2]
        exact ends.1.single_word rfl bus.read
  | false =>
      rw [valid, if_neg Bool.false_ne_true] at next after
      refine .load a ?_ running ?_
      · rw [handler_next, next, state]
      · rw [after, granted]

theorem BusStep.store_answers
    (granted : s.bus.log.granted = [] ∨ noStore s.handler.reservation i.amo = false ∧
      s.bus.log.granted = [request (storeAxi align s.handler i.amo) i.amo.size]) :
    (noStore s.handler.reservation i.amo = true → s.bus.log.granted = [] ∧
        (s.adapter victim align i).valid = false) ∧
      ((s.adapter victim align i).valid = true →
        s.bus.log.granted = [request (storeAxi align s.handler i.amo) i.amo.size]) := by
  have answered : (s.adapter victim align i).valid = true → s.bus.log.granted ≠ [] := by
    intro valid none
    obtain ⟨r, own, -⟩ := bus.response valid
    rw [none] at own
    cases own
  rcases granted with granted | ⟨store, granted⟩
  · refine ⟨fun _ => ⟨granted, ?_⟩, fun valid => absurd granted (answered valid)⟩
    rw [Bool.eq_false_iff]
    exact fun valid => answered valid granted
  · exact ⟨fun skip => absurd (skip.symm.trans store) Bool.noConfusion, fun _ => granted⟩

/-- The store of an operation, or its end without one. -/
theorem BusStep.store_stage (state : s.handler.state = .amoStore)
    (loaded : s.handler.mshr.wdata = s.mem (wordOf (bits i.amo.operandA)))
    (granted : s.bus.log.granted = [] ∨ noStore s.handler.reservation i.amo = false ∧
      s.bus.log.granted = [request (storeAxi align s.handler i.amo) i.amo.size]) :
    Stage align (s.next victim align i) := by
  obtain ⟨silent, answers⟩ := bus.store_answers granted
  have asks : asked align s.handler i.amo =
      { storeAxi align s.handler i.amo with valid := !noStore s.handler.reservation i.amo } := by
    rw [asked, state]
    rfl
  obtain ⟨ack, next⟩ := @store_output _ victim align s i state (fun skip => (silent skip).2)
  cases ends : noStore s.handler.reservation i.amo || (s.adapter victim align i).valid with
  | true =>
      rw [ends, if_pos rfl] at next
      refine .behind ?_ ?_
      · rw [handler_next, next.1]
        rfl
      · intro r member
        cases skip : noStore s.handler.reservation i.amo with
        | true =>
            have none := bus.no_grant (by rw [asks, skip]; rfl)
            rw [bus.granted_of_quiet none, (silent skip).1, ite_self] at member
            cases member
        | false =>
            rw [skip, Bool.false_or] at ends
            obtain ⟨r, -, none, -⟩ := bus.response ends
            rw [none] at member
            cases member
  | false =>
      rw [ends, if_neg Bool.false_ne_true] at next
      obtain ⟨store, waits⟩ := Bool.or_eq_false_iff.mp ends
      have running : (s.next victim align i).running = some i.amo :=
        running_next (by rw [state]; rfl) (ack.trans ends)
      refine .store i.amo ?_ running ?_ ?_
      · rw [handler_next, next, state]
      · rw [handler_next, next, (bus.waits waits).1, loaded]
      · rw [handler_next, next]
        cases gnt : (s.adapter victim align i).gnt with
        | true =>
            refine .inr ⟨store, ?_⟩
            rw [bus.granted_of_grant gnt, asks]
            rfl
        | false =>
            rw [bus.granted_of_quiet gnt, waits, if_neg Bool.false_ne_true]
            exact granted

end Steps

end Ariane.MissBus
