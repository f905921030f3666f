import Ariane.MissBus
import Ariane.AxiAdapterAnswers

set_option autoImplicit false

/- One cycle of the miss handler and its adapter. -/
namespace Ariane.MissBus

open AxiAdapter (Params Request Bench Log Memory Phase firstLane byteAt byteOf wordOf)
open MissHandler (Geometry Address Align Victim State Input Output FsmState AmoReq MissAxi
  CacheLine cacheManagement noStore operates operands amoStoreData)

variable {g : Geometry} {victim : Victim g} {align : Align}

section Handler

/-- What the handler asks for in each state. -/
def asked (align : Align) (q : State g) (a : AmoReq g) : MissAxi g :=
  if q.state = .reqCacheline then { valid := true, addr := q.mshr.addr }
  else if q.state = .wbCachelineFlush ∨ q.state = .wbCachelineMiss then
    { valid := true, addr := { tag := q.evictTag, set := q.cnt }, we := true, be := 0xff
      wdata := q.evictData }
  else if q.state = .amoLoad then { valid := true, addr := a.operandA, single := true }
  else if q.state = .amoStore then
    { valid := !noStore q.reservation a, we := true, single := true, addr := a.operandA
      wdata := fun _ => (amoStoreData align a q.mshr.wdata).1
      be := (amoStoreData align a q.mshr.wdata).2 }
  else {}

/-- A response is awaited. -/
def awaits (state : FsmState) : Bool :=
  state == .saveCacheline || state == .amoSaveLoad || state == .amoStore

/-- A state without the bus. -/
def quiet (state : FsmState) : Bool :=
  state == .idle || state == .miss || state == .missRepl || state == .flushReqStatus ||
    state == .flushing || state == .init

variable {q : State g} {i : Input g}

/-- A step of a state without the bus. -/
structure QuietStep (q : State g) (o : Output g) : Prop where
  axi : o.axi = {}
  next : awaits o.next.state = false
  amoAck : o.amoAck = false
  reservation : o.next.reservation = q.reservation

theorem quiet_step (state : quiet q.state = true) :
    QuietStep q (cacheManagement victim align q i) := by
  rw [cacheManagement]
  cases here : q.state with
  | idle =>
      simp only [MissHandler.idleState, MissHandler.defaultOutput]
      split <;> split <;> split <;> (try split) <;>
        first
          | exact ⟨rfl, rfl, rfl, rfl⟩
          | exact ⟨rfl, by rw [here]; rfl, rfl, rfl⟩
  | missRepl =>
      simp only [MissHandler.missReplState]
      split
      · split <;> exact ⟨rfl, rfl, rfl, rfl⟩
      · exact ⟨rfl, rfl, rfl, rfl⟩
  | flushing =>
      simp only [MissHandler.flushingState]
      split
      · exact ⟨rfl, rfl, rfl, rfl⟩
      · refine ⟨rfl, ?_, rfl, rfl⟩
        show awaits (if _ then _ else _) = false
        split <;> rfl
  | init =>
      refine ⟨rfl, ?_, rfl, rfl⟩
      show awaits (if _ then _ else _) = false
      split <;> rfl
  | miss | flushReqStatus => exact ⟨rfl, rfl, rfl, rfl⟩
  | reqCacheline | saveCacheline | wbCachelineFlush | wbCachelineMiss | amoLoad | amoSaveLoad
  | amoStore =>
      rw [here] at state
      cases state

/-- A step of a state that asks until the grant. -/
structure AskStep (q : State g) (gnt : Bool) (o : Output g) (after : FsmState) : Prop where
  next : o.next = if gnt then { q with state := after } else q
  amoAck : o.amoAck = false

theorem reqCacheline_step (state : q.state = .reqCacheline) :
    AskStep q i.gnt (cacheManagement victim align q i) .saveCacheline ∧
      (cacheManagement victim align q i).axi = asked align q i.amo := by
  rw [cacheManagement, asked, state]
  simp only [MissHandler.reqCachelineState]
  cases i.gnt <;> exact ⟨⟨rfl, rfl⟩, rfl⟩

theorem wbCacheline_step (state : q.state = .wbCachelineFlush ∨ q.state = .wbCachelineMiss) :
    (∃ back, quiet back = true ∧ AskStep q i.gnt (cacheManagement victim align q i) back) ∧
      (cacheManagement victim align q i).axi = asked align q i.amo := by
  rw [asked, if_pos state]
  rcases state with state | state
  · rw [cacheManagement, state]
    simp only [MissHandler.wbCachelineState]
    cases i.gnt <;> exact ⟨⟨.flushReqStatus, rfl, rfl, rfl⟩, rfl⟩
  · rw [cacheManagement, state]
    simp only [MissHandler.wbCachelineState]
    cases i.gnt <;> exact ⟨⟨.miss, rfl, rfl, rfl⟩, rfl⟩

theorem amoLoad_step (state : q.state = .amoLoad) :
    AskStep q i.gnt (cacheManagement victim align q i) .amoSaveLoad ∧
      (cacheManagement victim align q i).axi = asked align q i.amo := by
  rw [cacheManagement, asked, state]
  simp only [MissHandler.amoLoadState]
  cases i.gnt <;> exact ⟨⟨rfl, rfl⟩, rfl⟩

theorem saveCacheline_step (state : q.state = .saveCacheline) :
    let o := cacheManagement victim align q i
    o.axi = {} ∧ o.amoAck = false ∧ o.next.reservation = q.reservation ∧
      if i.valid then o.next.state = .idle else o.next = q := by
  rw [cacheManagement, state]
  simp only [MissHandler.saveCachelineState]
  cases i.valid <;> exact ⟨rfl, rfl, rfl, rfl⟩

theorem amoSaveLoad_step (state : q.state = .amoSaveLoad) :
    let o := cacheManagement victim align q i
    o.axi = {} ∧ o.amoAck = false ∧
      o.next = if i.valid then
        { q with mshr := { q.mshr with wdata := i.data 0 }, state := .amoStore } else q := by
  rw [cacheManagement, state]
  simp only [MissHandler.amoSaveLoadState]
  cases i.valid <;> exact ⟨rfl, rfl, rfl⟩

/-- `reservation_d`. -/
def nextReservation (reservation : Option (Address g)) (a : AmoReq g) : Option (Address g) :=
  if a.op == .lr then some a.operandA.doubleword else if a.op == .sc then none else reservation

/-- The store phase: without a store it ends at once, otherwise with the response. -/
theorem amoStore_step (state : q.state = .amoStore)
    (answer : noStore q.reservation i.amo = true → i.valid = false) :
    let o := cacheManagement victim align q i
    let ends := noStore q.reservation i.amo || i.valid
    o.axi = asked align q i.amo ∧ o.amoAck = ends ∧
      (if ends then o.next.state = .idle ∧
          o.next.reservation = nextReservation q.reservation i.amo ∧
          o.amoResult = (if i.amo.op == .sc then if noStore q.reservation i.amo then 1 else 0
            else (operands align i.amo q.mshr.wdata).1)
        else o.next = q) := by
  have reserves : noStore q.reservation i.amo = false → (i.amo.op == .lr) = false := by
    intro store
    rw [noStore, Bool.or_eq_false_iff] at store
    exact store.1
  rw [cacheManagement, asked, state]
  simp only [MissHandler.amoStoreState, nextReservation]
  cases skip : noStore q.reservation i.amo with
  | true =>
      rw [answer skip]
      cases i.amo.op == .lr <;> cases i.amo.op == .sc <;> exact ⟨rfl, rfl, rfl, rfl, rfl⟩
  | false =>
      rw [reserves skip]
      cases i.valid with
      | true => cases i.amo.op == .sc <;> exact ⟨rfl, rfl, rfl, rfl, rfl⟩
      | false => exact ⟨rfl, rfl, rfl⟩

/-- States that do not ask. -/
theorem asked_none (a : AmoReq g)
    (state : quiet q.state = true ∨ q.state = .saveCacheline ∨ q.state = .amoSaveLoad) :
    asked align q a = {} := by
  rw [asked]
  rcases state with still | state | state
  · cases here : q.state <;> first | rfl | (rw [here] at still; cases still)
  · rw [state]
    rfl
  · rw [state]
    rfl

/-- The request does not depend on the answer. -/
theorem management_axi : (cacheManagement victim align q i).axi = asked align q i.amo := by
  by_cases still : quiet q.state = true
  · rw [(quiet_step still).axi, asked_none i.amo (.inl still)]
  · cases here : q.state with
    | reqCacheline => exact (reqCacheline_step here).2
    | wbCachelineFlush => exact (wbCacheline_step (.inl here)).2
    | wbCachelineMiss => exact (wbCacheline_step (.inr here)).2
    | amoLoad => exact (amoLoad_step here).2
    | saveCacheline => rw [(saveCacheline_step here).1, asked_none i.amo (.inr (.inl here))]
    | amoSaveLoad => rw [(amoSaveLoad_step here).1, asked_none i.amo (.inr (.inr here))]
    | amoStore =>
        rw [cacheManagement, asked, here]
        simp only [MissHandler.amoStoreState]
        split <;> split <;> split <;> rfl
    | idle | miss | missRepl | flushReqStatus | flushing | init =>
        rw [here] at still
        exact absurd rfl still

end Handler

section Bus

variable {s : System g} {i : SystemInput g}

theorem axi_eq : s.axi victim align i = asked align s.handler i.amo := management_axi

/-- The request as the adapter looks at it. -/
def seen (victim : Victim g) (align : Align) (s : System g) (i : SystemInput g) :
    AxiAdapter.Input (port g) :=
  { s.busInput victim align i with
    req := (s.axi victim align i).valid && s.bus.regs.state != .waitBValid }

theorem output_seen : s.bus.output (seen victim align s i) = s.adapter victim align i := by
  show AxiAdapter.axiFsm s.bus.regs (seen victim align s i) =
    AxiAdapter.axiFsm s.bus.regs (s.busInput victim align i)
  by_cases waits : s.bus.regs.state = .waitBValid
  · rw [AxiAdapter.axiFsm, AxiAdapter.axiFsm, waits]
    rfl
  · have same : seen victim align s i = s.busInput victim align i := by
      have looks : (s.bus.regs.state != .waitBValid) = true := bne_iff_ne.mpr waits
      rw [seen, looks, Bool.and_true]
      rfl
    rw [same]

theorem record_seen : s.bus.record (seen victim align s i) = s.record victim align i := by
  rw [Bench.record, output_seen]
  rfl

theorem next_bus : (s.next victim align i).bus = s.bus.next (seen victim align s i) := by
  rw [Bench.next, output_seen, record_seen]
  show Bench.mk _ _ _ = Bench.mk _ _ _
  rw [Bool.and_right_comm]
  rfl

/-- What the bus does in a cycle. -/
structure BusStep (victim : Victim g) (align : Align) (s : System g) (i : SystemInput g) :
    Prop where
  phase : Phase (s.next victim align i).bus
  served : (s.next victim align i).bus.log.ReadFrom (s.next victim align i).mem
  read : (s.record victim align i).ReadFrom s.mem
  /-- A response is for what was granted. -/
  response : (s.adapter victim align i).valid = true → ∃ r, s.bus.log.granted = [r] ∧
    (s.next victim align i).bus.log.granted = [] ∧ (s.adapter victim align i).gnt = false ∧
    (r.we = true → (s.next victim align i).bus.pending = none) ∧
    (if r.we then AxiAdapter.Written r (s.record victim align i) ∧
        (s.next victim align i).mem = (s.record victim align i).commit s.mem
      else AxiAdapter.Returned r (s.record victim align i) (s.adapter victim align i).rdata ∧
        (s.next victim align i).mem = s.mem)
  waits : (s.adapter victim align i).valid = false →
    (s.next victim align i).mem = s.mem ∧
    (s.next victim align i).bus.log.granted = s.bus.log.granted ++
      if (s.adapter victim align i).gnt then
        [request (asked align s.handler i.amo) i.amo.size] else []
  grant : (s.adapter victim align i).gnt = true →
    (asked align s.handler i.amo).valid = true ∧ s.bus.log.granted = [] ∧
      (s.adapter victim align i).valid = false
  pending : ∀ r, (s.next victim align i).bus.pending = some r →
    (asked align s.handler i.amo).valid = true ∧ (s.adapter victim align i).gnt = false ∧
      r = request (asked align s.handler i.amo) i.amo.size
  blind : (s.next victim align i).bus.regs.state = .waitBValid →
    (s.next victim align i).bus.pending = none

theorem bus_step (fits : Fits g) (phase : Phase s.bus) (served : s.bus.log.ReadFrom s.mem)
    (contract : AxiAdapter.Contract s.bus (seen victim align s i)) : BusStep victim align s i := by
  obtain ⟨law, after⟩ := phase.step fits.burst contract
  have waits : (s.adapter victim align i).valid = false →
      (s.next victim align i).mem = s.mem := by
    intro none
    show (if _ then _ else s.mem) = s.mem
    rw [none, Bool.false_and, if_neg Bool.false_ne_true]
  have silent : (s.adapter victim align i).valid = true →
      (s.adapter victim align i).gnt = false := AxiAdapter.gnt_of_valid
  have log : (s.next victim align i).bus.log =
      if (s.adapter victim align i).valid then {} else s.record victim align i := rfl
  constructor
  · rw [next_bus]
    exact after
  · cases valid : (s.adapter victim align i).valid with
    | true =>
        rw [log, valid, if_pos rfl]
        intro a none
        cases none
    | false =>
        rw [waits valid, next_bus]
        exact phase.readFrom_next served rfl
  · rw [← record_seen]
    exact phase.readFrom_record served rfl
  · intro valid
    have valid' : (s.bus.output (seen victim align s i)).valid = true := by
      rw [output_seen]
      exact valid
    obtain ⟨r, granted, -, ends⟩ := law.response valid'
    obtain ⟨r', granted', bReady⟩ := phase.responds contract valid'
    rw [output_seen] at bReady ends
    rw [record_seen] at granted ends
    have same : s.bus.log.granted ++ (if (s.adapter victim align i).gnt = true then _ else []) =
        [r] := granted
    rw [silent valid, if_neg Bool.false_ne_true, List.append_nil] at same
    rw [same, List.cons.injEq] at granted'
    have own : r = r' := granted'.1
    subst own
    have mem : (s.next victim align i).mem =
        if r.we then (s.record victim align i).commit s.mem else s.mem := by
      show (if _ then _ else s.mem) = _
      rw [valid, bReady, Bool.true_and]
    refine ⟨r, same, ?_, silent valid, ?_, ?_⟩
    · rw [log, valid, if_pos rfl]
    · intro we
      rcases AxiAdapter.state_of_valid valid with state | state
      · show (if (_ && s.bus.regs.state != .waitBValid) = true then _ else none) = none
        rw [state, bne_self_eq_false, Bool.and_false, if_neg Bool.false_ne_true]
      · have reads : (s.adapter victim align i).bReady = false := by
          show (AxiAdapter.axiFsm s.bus.regs (s.busInput victim align i)).bReady = false
          rw [AxiAdapter.axiFsm, state]
          rfl
        exact absurd (reads.symm.trans (bReady.trans we)) Bool.false_ne_true
    · rw [mem]
      cases we : r.we with
      | true =>
          rw [we] at ends
          exact ⟨ends, rfl⟩
      | false =>
          rw [we] at ends
          exact ⟨ends, rfl⟩
  · intro none
    refine ⟨waits none, ?_⟩
    rw [log, none, if_neg Bool.false_ne_true, ← @axi_eq _ victim]
    rfl
  · intro gnt
    have gnt' : (s.bus.output (seen victim align s i)).gnt = true := by
      rw [output_seen]
      exact gnt
    obtain ⟨req, first⟩ := law.grant gnt'
    rw [← @axi_eq _ victim]
    have asks : ((s.axi victim align i).valid && s.bus.regs.state != .waitBValid) = true := req
    rw [Bool.and_eq_true] at asks
    refine ⟨asks.1, first, ?_⟩
    cases valid : (s.adapter victim align i).valid with
    | true => exact absurd (silent valid) (by rw [gnt]; exact Bool.noConfusion)
    | false => rfl
  · intro r pending
    have pending : (if ((s.axi victim align i).valid && !(s.adapter victim align i).gnt &&
        s.bus.regs.state != .waitBValid) = true then
          some (request (s.axi victim align i) i.amo.size) else none) = some r := pending
    split at pending
    · next asks =>
        rw [Bool.and_eq_true, Bool.and_eq_true, Bool.not_eq_true'] at asks
        cases pending
        rw [← @axi_eq _ victim]
        exact ⟨asks.1.1, asks.1.2, rfl⟩
    · cases pending
  · intro waiting
    show (if (_ && !(s.adapter victim align i).gnt && s.bus.regs.state != .waitBValid) = true
      then _ else none) = none
    rcases AxiAdapter.gnt_of_waitBValid waiting with before | gnt
    · rw [before, bne_self_eq_false, Bool.and_false, if_neg Bool.false_ne_true]
    · have gnt : (s.adapter victim align i).gnt = true := gnt
      rw [gnt, Bool.not_true, Bool.and_false, Bool.false_and, if_neg Bool.false_ne_true]

end Bus

end Ariane.MissBus
