import Ariane.AmoReservation

set_option autoImplicit false

/- An atomic operation on the memory behind the bus, in every run of the miss handler. -/
namespace Ariane.MissBus

open AmoBuffer (AmoT)
open AxiAdapter (Params Request Bench Log Memory Phase firstLane byteAt byteOf wordOf)
open MissHandler (Geometry Address Align Victim State Input Output FsmState AmoReq MissAxi
  CacheLine cacheManagement noStore operates operands amoStoreData)
open Rtl (Machine)

variable {g : Geometry} {victim : Victim g} {align : Align}

section Place

/-- The bytes of an access that stays in its doubleword. -/
theorem inside_iff {a b : BitVec 64} {n : Nat} (fits : byteOf a + n ≤ 8) :
    wordOf b = wordOf a ∧ byteOf a ≤ byteOf b ∧ byteOf b < byteOf a + n ↔ (b - a).toNat < n := by
  have first := a.isLt
  have second := b.isLt
  have word : wordOf b = wordOf a ↔ b.toNat / 8 = a.toNat / 8 := by
    rw [← BitVec.toNat_inj, wordOf, wordOf, BitVec.extractLsb'_toNat, BitVec.extractLsb'_toNat,
      Nat.shiftRight_eq_div_pow, Nat.shiftRight_eq_div_pow]
    omega
  rw [word, BitVec.toNat_sub]
  unfold byteOf at *
  omega

theorem offset_eq {a b : BitVec 64} (word : wordOf b = wordOf a) (above : byteOf a ≤ byteOf b) :
    (b - a).toNat = byteOf b - byteOf a := by
  have first := a.isLt
  have second := b.isLt
  rw [← BitVec.toNat_inj, wordOf, wordOf, BitVec.extractLsb'_toNat, BitVec.extractLsb'_toNat,
    Nat.shiftRight_eq_div_pow, Nat.shiftRight_eq_div_pow] at word
  rw [BitVec.toNat_sub]
  unfold byteOf at *
  omega

/-- A natural access stays in its doubleword. -/
theorem natural_fits {a : AmoReq g} (natural : Amo.Natural a) :
    byteOf (bits a.operandA) + 2 ^ a.size.toNat ≤ 8 := by
  rw [byteOf_bits]
  by_cases size : a.size = 2
  · have offset := natural.offset_word size
    rw [size]
    show _ + 4 ≤ 8
    omega
  · have offset := natural.offset_double size
    rw [offset, natural.size.resolve_left size]
    exact Nat.le_refl 8

end Place

section Step

variable {s : System g} {i : SystemInput g}

/-- Without a request and without an access nothing happens on the bus. -/
theorem silent_record (inv : Inv align s) (none : (asked align s.handler i.amo).valid = false)
    (pending : ∀ r, s.bus.pending ≠ some r) (granted : s.bus.log.granted = []) :
    s.record victim align i = {} := by
  have idle : AxiAdapter.Idle s.bus := by
    cases inv.phase with
    | idle idle => exact idle
    | write r sent k write =>
        by_cases waits : s.bus.regs.state = .waitBValid
        · have log := write.log.granted
          rw [granted, if_pos (write.sending.waits_iff.mp waits)] at log
          cases log
        · exact absurd (write.pending waits) (pending r)
    | read r read =>
        have log := read.log.granted
        rw [granted] at log
        cases log
    | complete r done =>
        have log := done.log.granted
        rw [granted] at log
        cases log
  have req : (seen victim align s i).req = false := by
    show ((s.axi victim align i).valid && _) = false
    rw [axi_eq, none, Bool.false_and]
  have after := (idle.quiet req).2.log
  have valid : (s.bus.output (seen victim align s i)).valid = false := by
    rw [Bool.eq_false_iff]
    intro valid
    rcases AxiAdapter.state_of_valid valid with state | state
    · rw [idle.state] at state
      cases state
    · rw [idle.state] at state
      cases state
  rw [AxiAdapter.next_log valid, record_seen] at after
  exact after

/-- What an operation did when it is acknowledged. -/
theorem store_done (inv : Inv align s) (lawful : Amo.Lawful align) (bus : BusStep victim align s i)
    (state : s.handler.state = .amoStore) (running : s.running = some i.amo)
    (loaded : s.handler.mshr.wdata = s.mem (wordOf (bits i.amo.operandA)))
    (silent : noStore s.handler.reservation i.amo = true → s.bus.log.granted = [] ∧
      (s.adapter victim align i).valid = false)
    (answers : (s.adapter victim align i).valid = true →
      s.bus.log.granted = [request (storeAxi align s.handler i.amo) i.amo.size])
    (ack : (s.output victim align i).amoAck = true) (natural : Amo.Natural i.amo)
    (op : i.amo.op ≠ .none) : Done victim align s i := by
  obtain ⟨acks, ends⟩ := @store_output _ victim align s i state (fun skip => (silent skip).2)
  rw [ack] at acks
  rw [← acks, if_pos rfl] at ends
  have byte : byteOf (bits i.amo.operandA) = i.amo.operandA.byte.toNat := byteOf_bits
  have result := ends.2.2
  rw [loaded, Amo.operands_value lawful natural byte] at result
  have value : ∀ k, k < 2 ^ i.amo.size.toNat →
      byteAt (Amo.value s.mem (bits i.amo.operandA) i.amo.size) k =
        s.mem.byte (bits i.amo.operandA + BitVec.ofNat 64 k) :=
    fun k inside => Amo.value_byte natural byte inside
  cases skip : noStore s.handler.reservation i.amo with
  | true =>
      obtain ⟨granted, waits⟩ := silent skip
      have quiet : (asked align s.handler i.amo).valid = false := by
        rw [asked, state]
        show (!noStore s.handler.reservation i.amo) = false
        rw [skip]
        rfl
      have record : s.record victim align i = {} := by
        refine silent_record inv quiet ?_ granted
        intro r pending
        obtain ⟨a, own, valid, -⟩ := inv.pending r pending
        have same := own (by rw [state]; rfl)
        rw [running, Option.some.injEq] at same
        rw [← same, quiet] at valid
        cases valid
      refine ⟨?_, value, ?_, ?_⟩
      · rw [result]
        simp
      · intro b
        rw [(bus.waits waits).1, if_neg fun both => absurd (skip.symm.trans both.1) Bool.noConfusion]
      · rw [record, skip]
        exact ⟨rfl, rfl⟩
  | false =>
      rw [skip, Bool.false_or] at acks
      obtain ⟨r, own, -, -, -, written⟩ := bus.response acks.symm
      rw [answers acks.symm, List.cons.injEq] at own
      obtain ⟨rfl, -⟩ := own
      rw [if_pos (show (request (storeAxi align s.handler i.amo) i.amo.size).we = true from rfl)]
        at written
      obtain ⟨written, memory⟩ := written
      have stores : i.amo.op ≠ .lr := by
        intro lr
        rw [noStore, lr] at skip
        cases skip
      refine ⟨?_, value, ?_, ?_⟩
      · rw [result]
        simp
      · intro b
        have be : (request (storeAxi align s.handler i.amo) i.amo.size).be (firstLane _) =
            align.beGen i.amo.operandA.byte i.amo.size := rfl
        have data : (request (storeAxi align s.handler i.amo) i.amo.size).wdata (firstLane _) =
            (amoStoreData align i.amo (s.mem (wordOf (bits i.amo.operandA)))).1 := by
          rw [← loaded]
          rfl
        have lane : (align.beGen i.amo.operandA.byte i.amo.size).getLsbD (byteOf b) = true ↔
            byteOf (bits i.amo.operandA) ≤ byteOf b ∧
              byteOf b < byteOf (bits i.amo.operandA) + 2 ^ i.amo.size.toNat := by
          rw [lawful.lanes _ _ natural.aligned _ (AxiAdapter.byteOf_lt b), decide_eq_true_iff, byte]
        have place := @inside_iff (bits i.amo.operandA) b _ (natural_fits natural)
        rw [memory, written.commit_byte rfl, be, data]
        by_cases inside : (b - bits i.amo.operandA).toNat < 2 ^ i.amo.size.toNat
        · obtain ⟨word, low, high⟩ := place.mpr inside
          rw [if_pos ⟨word, lane.mpr ⟨low, high⟩⟩, if_pos ⟨skip, inside⟩, offset_eq word low, byte]
          rw [byte] at low high
          exact Amo.store_bytes lawful natural byte op stores low high (AxiAdapter.byteOf_lt b)
        · rw [if_neg fun all => inside (place.mp ⟨all.1, lane.mp all.2⟩),
            if_neg fun both => inside both.2]
      · rw [written.aws, written.beats, skip]
        exact ⟨rfl, rfl⟩

/-- What a cycle does to the reservation. -/
theorem next_reservation (bus : BusStep victim align s i) (stage : Stage align s)
    (held : ∀ a, s.running = some a → i.amo = a) :
    (s.output victim align i).next.reservation =
        (if (s.output victim align i).amoAck then nextReservation s.handler.reservation i.amo
          else s.handler.reservation) ∧
      ((s.output victim align i).amoAck = true →
        s.handler.state = .amoStore ∧ (s.output victim align i).next.state = .idle) := by
  have none {ack : Bool} {r : Option (Address g)} (off : ack = false)
      (same : r = s.handler.reservation) : r = (if ack then nextReservation s.handler.reservation i.amo
        else s.handler.reservation) ∧ (ack = true → s.handler.state = .amoStore ∧
          (s.output victim align i).next.state = .idle) := by
    subst off
    exact ⟨same, fun ack => absurd ack Bool.false_ne_true⟩
  have asks {after : FsmState} {gnt : Bool}
      (step : AskStep s.handler gnt (s.output victim align i) after) :
      (s.output victim align i).next.reservation = s.handler.reservation := by
    rw [step.next]
    split <;> rfl
  by_cases still : quiet s.handler.state = true
  · have step : QuietStep s.handler (s.output victim align i) := quiet_step still
    exact none step.amoAck step.reservation
  · cases here : s.handler.state with
    | reqCacheline =>
        have step := (@reqCacheline_step _ victim align s.handler (s.answered victim align i) here).1
        rw [← here]
        exact none step.amoAck (asks step)
    | amoLoad =>
        have step := (@amoLoad_step _ victim align s.handler (s.answered victim align i) here).1
        rw [← here]
        exact none step.amoAck (asks step)
    | wbCachelineFlush =>
        obtain ⟨⟨back, -, step⟩, -⟩ :=
          @wbCacheline_step _ victim align s.handler (s.answered victim align i) (.inl here)
        rw [← here]
        exact none step.amoAck (asks step)
    | wbCachelineMiss =>
        obtain ⟨⟨back, -, step⟩, -⟩ :=
          @wbCacheline_step _ victim align s.handler (s.answered victim align i) (.inr here)
        rw [← here]
        exact none step.amoAck (asks step)
    | saveCacheline =>
        obtain ⟨-, ack, same, -⟩ :=
          @saveCacheline_step _ victim align s.handler (s.answered victim align i) here
        rw [← here]
        exact none ack same
    | amoSaveLoad =>
        obtain ⟨-, ack, next⟩ :=
          @amoSaveLoad_step _ victim align s.handler (s.answered victim align i) here
        rw [← here]
        refine none ack ((congrArg State.reservation next).trans ?_)
        split <;> rfl
    | amoStore =>
        cases stage with
        | behind state granted =>
            rw [here] at state
            cases state
        | refill state granted =>
            rw [here] at state
            cases state
        | load a state running granted =>
            rw [here] at state
            cases state
        | store a state running loaded granted =>
            have own := held a running
            subst own
            obtain ⟨ack, next⟩ := @store_output _ victim align s i state
              (fun skip => ((bus.store_answers granted).1 skip).2)
            rw [← ack] at next
            cases ends : (s.output victim align i).amoAck with
            | true =>
                rw [ends, if_pos rfl] at next
                exact ⟨next.2.1, fun _ => ⟨rfl, next.1⟩⟩
            | false =>
                rw [ends, if_neg Bool.false_ne_true] at next
                refine ⟨congrArg State.reservation next, fun ack => absurd ack Bool.false_ne_true⟩
    | idle | miss | missRepl | flushReqStatus | flushing | init =>
        rw [here] at still
        exact absurd rfl still

/-- A request that waits for its grant keeps the handler where it is. -/
theorem kept_of_pending (bus : BusStep victim align s i) (stage : Stage align s)
    (held : ∀ a, s.running = some a → i.amo = a) {r : Request (port g)}
    (pending : (s.next victim align i).bus.pending = some r) :
    (s.output victim align i).next = s.handler ∧ (s.output victim align i).amoAck = false := by
  obtain ⟨asks, gnt, -⟩ := bus.pending r pending
  have waits {after : FsmState} (step : AskStep s.handler (s.adapter victim align i).gnt
      (s.output victim align i) after) :
      (s.output victim align i).next = s.handler ∧ (s.output victim align i).amoAck = false := by
    refine ⟨?_, step.amoAck⟩
    rw [step.next, gnt]
    rfl
  cases here : s.handler.state with
  | reqCacheline =>
      exact waits (@reqCacheline_step _ victim align s.handler (s.answered victim align i) here).1
  | amoLoad =>
      exact waits (@amoLoad_step _ victim align s.handler (s.answered victim align i) here).1
  | wbCachelineFlush =>
      obtain ⟨⟨back, -, step⟩, -⟩ :=
        @wbCacheline_step _ victim align s.handler (s.answered victim align i) (.inl here)
      exact waits step
  | wbCachelineMiss =>
      obtain ⟨⟨back, -, step⟩, -⟩ :=
        @wbCacheline_step _ victim align s.handler (s.answered victim align i) (.inr here)
      exact waits step
  | amoStore =>
      cases stage with
      | behind state granted | refill state granted | load a state running granted =>
          rw [here] at state
          cases state
      | store a state running loaded granted =>
          have own := held a running
          subst own
          obtain ⟨silent, answers⟩ := bus.store_answers granted
          obtain ⟨ack, next⟩ :=
            @store_output _ victim align s i state (fun skip => (silent skip).2)
          have store : noStore s.handler.reservation i.amo = false := by
            rw [asked, state] at asks
            exact (Bool.not_eq_true' _).mp asks
          have none : (s.adapter victim align i).valid = false := by
            rw [Bool.eq_false_iff]
            intro valid
            obtain ⟨r', own, -, -, quiet, -⟩ := bus.response valid
            rw [answers valid, List.cons.injEq] at own
            rw [quiet (by rw [← own.1]; rfl)] at pending
            cases pending
          rw [store, none] at ack next
          exact ⟨next, ack⟩
  | saveCacheline =>
      rw [asked_none i.amo (.inr (.inl here))] at asks
      cases asks
  | amoSaveLoad =>
      rw [asked_none i.amo (.inr (.inr here))] at asks
      cases asks
  | idle | miss | missRepl | flushReqStatus | flushing | init =>
      rw [asked_none i.amo (.inl (by rw [here]; rfl))] at asks
      cases asks

theorem Inv.stage_step (inv : Inv align s) (bus : BusStep victim align s i)
    (held : ∀ a, s.running = some a → i.amo = a) : Stage align (s.next victim align i) := by
  cases inv.stage with
  | behind state granted => exact bus.behind_stage state granted
  | refill state granted => exact bus.refill_stage state granted
  | load a state running granted => exact bus.load_stage state (held a running) granted
  | store a state running loaded granted =>
      have own := held a running
      subst own
      exact bus.store_stage state loaded granted

theorem Inv.step (inv : Inv align s) (fits : Fits g) (environment : Environment victim align s i) :
    Inv align (s.next victim align i) := by
  have bus := inv.bus fits environment
  refine ⟨bus.phase, bus.served, ?_, bus.blind, inv.stage_step bus environment.held, ?_⟩
  · intro r pending
    obtain ⟨asks, -, same⟩ := bus.pending r pending
    obtain ⟨kept, ack⟩ := kept_of_pending bus inv.stage environment.held pending
    have handler : (s.next victim align i).handler = s.handler := kept
    refine ⟨i.amo, ?_, ?_, ?_⟩
    · rw [handler]
      exact fun operate => running_next operate ack
    · rw [handler]
      exact asks
    · rw [handler]
      exact same
  · have next := (next_reservation bus inv.stage environment.held).1
    show (s.output victim align i).next.reservation =
      reserved (if (s.output victim align i).amoAck then s.done ++ [i.amo] else s.done)
    rw [next, inv.reservation]
    cases (s.output victim align i).amoAck with
    | true => exact (reserved_concat s.done i.amo).symm
    | false => rfl

/-- Before its load an operation waits for nothing of its own. -/
theorem load_of_operates (state : FsmState) :
    operates state = true → awaits state = false → state = .amoLoad := by
  cases state <;> decide

/-- What an operation leaves alone while it runs. -/
theorem Inv.kept (inv : Inv align s) (bus : BusStep victim align s i)
    (held : ∀ a, s.running = some a → i.amo = a) (operate : operates s.handler.state = true)
    (ack : (s.output victim align i).amoAck = false) :
    (s.next victim align i).mem = s.mem ∨ s.handler.state = .amoLoad ∧
      ∃ r, s.bus.log.granted = [r] ∧ r.single = false ∧ r.we = true := by
  cases valid : (s.adapter victim align i).valid with
  | false => exact .inl (bus.waits valid).1
  | true =>
      obtain ⟨r, own, -, -, -, ends⟩ := bus.response valid
      cases inv.stage with
      | behind state granted =>
          obtain ⟨we, single⟩ := granted r (by rw [own]; exact List.mem_singleton_self r)
          exact .inr ⟨load_of_operates _ operate state, r, own, single, we⟩
      | refill state granted =>
          rw [state] at operate
          cases operate
      | load a state running granted =>
          rw [granted, List.cons.injEq] at own
          rw [← own.1] at ends
          rw [if_neg (show ¬(request (loadAxi a) a.size).we = true from Bool.false_ne_true)] at ends
          exact .inl ends.2
      | store a state running loaded granted =>
          have own := held a running
          subst own
          obtain ⟨silent, -⟩ := bus.store_answers granted
          obtain ⟨acks, -⟩ :=
            @store_output _ victim align s i state (fun skip => (silent skip).2)
          rw [ack, valid, Bool.or_true] at acks
          cases acks

theorem Inv.law (inv : Inv align s) (lawful : Amo.Lawful align) (fits : Fits g)
    (environment : Environment victim align s i) : Law victim align s i := by
  have bus := inv.bus fits environment
  have ends := (next_reservation bus inv.stage environment.held).2
  have store (ack : (s.output victim align i).amoAck = true) :
      s.running = some i.amo ∧
        s.handler.mshr.wdata = s.mem (wordOf (bits i.amo.operandA)) ∧
        (s.bus.log.granted = [] ∨ noStore s.handler.reservation i.amo = false ∧
          s.bus.log.granted = [request (storeAxi align s.handler i.amo) i.amo.size]) := by
    have state := (ends ack).1
    cases inv.stage with
    | behind other granted | refill other granted | load a other running granted =>
        rw [state] at other
        cases other
    | store a _ running loaded granted =>
        have own := environment.held a running
        subst own
        exact ⟨running, loaded, granted⟩
  refine ⟨inv.kept bus environment.held, ends, ?_, ?_⟩
  · intro ack natural op
    obtain ⟨running, loaded, granted⟩ := store ack
    obtain ⟨silent, answers⟩ := bus.store_answers granted
    exact store_done inv lawful bus (ends ack).1 running loaded silent answers ack natural op
  · intro ack sc
    obtain ⟨running, loaded, granted⟩ := store ack
    obtain ⟨silent, -⟩ := bus.store_answers granted
    obtain ⟨acks, next⟩ :=
      @store_output _ victim align s i (ends ack).1 (fun skip => (silent skip).2)
    rw [ack] at acks
    rw [← acks, if_pos rfl] at next
    have skips : noStore s.handler.reservation i.amo =
        !(s.handler.reservation == some i.amo.operandA.doubleword) := by
      rw [noStore, sc]
      rfl
    rw [next.2.2, sc, beq_self_eq_true, if_pos rfl, skips, inv.reservation,
      ← reserved_iff fits]
    show _ ↔ List.foldl nextReservation none s.done = _
    by_cases same : List.foldl nextReservation none s.done = some i.amo.operandA.doubleword
    · rw [same, beq_self_eq_true]
      exact ⟨fun _ => rfl, fun _ => rfl⟩
    · rw [beq_eq_false_iff_ne.mpr same]
      exact ⟨fun one => absurd one (by decide), fun equal => absurd equal same⟩

end Step

end Ariane.MissBus
