import Ariane.AxiAdapterRead

set_option autoImplicit false

/- The cache line adapter does one access after the other, each as its request asks. -/
namespace Ariane.AxiAdapter

open Rtl (Machine)

variable {p : Params}

/-- The record of a write that sent its address or not, and `k` words. -/
structure WriteLog (r : Request p) (sent : Bool) (k : Nat) (l : Log p) : Prop where
  granted : l.granted = if allSent r sent k then [r] else []
  aws : l.aws = if sent then [r.aw] else []
  beats : l.beats = (List.range k).map r.beat
  ars : l.ars = []
  words : l.words = []
  critical : l.critical = []

/-- The record of a read that was granted. -/
structure ReadLog (r : Request p) (l : Log p) : Prop where
  granted : l.granted = [r]
  aws : l.aws = []
  beats : l.beats = []
  ars : l.ars = [r.ar]
  critical : r.single = false → l.critical = (l.words.drop r.criticalBeat).take 1

/-- A write that sent its address or not, and `k` words. -/
structure InWrite (r : Request p) (sent : Bool) (k : Nat) (s : Bench p) : Prop where
  we : r.we = true
  wide : r.single = false → 0 < p.wordBits
  sending : Sending r s.regs sent k
  pending : s.regs.state ≠ .waitBValid → s.pending = some r
  log : WriteLog r sent k s.log

/-- A read that waits for words. -/
structure InRead (r : Request p) (s : Bench p) : Prop where
  we : r.we = false
  wide : r.single = false → 0 < p.wordBits
  reading : Reading r s.regs s.log.words
  log : ReadLog r s.log

/-- A read that has all its words. -/
structure ReadDone (r : Request p) (s : Bench p) : Prop where
  we : r.we = false
  state : s.regs.state = .completeRead
  id : s.regs.id = r.id
  all : s.log.words.length = r.count
  stored : Stored r s.regs.cacheLine s.log.words
  log : ReadLog r s.log

/-- Nothing is served. -/
structure Idle (s : Bench p) : Prop where
  state : s.regs.state = .idle
  log : s.log = {}

/-- What the adapter is doing. -/
inductive Phase (s : Bench p) : Prop
  | idle (idle : Idle s)
  | write (r : Request p) (sent : Bool) (k : Nat) (write : InWrite r sent k s)
  | read (r : Request p) (read : InRead r s)
  | complete (r : Request p) (done : ReadDone r s)

section Step

variable {s : Bench p} {i : Input p}

theorem next_log_of_valid (valid : (s.output i).valid = true) : (s.next i).log = {} :=
  if_pos valid

theorem next_log (waits : (s.output i).valid = false) : (s.next i).log = s.record i :=
  if_neg (Bool.eq_false_iff.mp waits)

theorem next_pending {r : Request p} (req : i.req = true) (same : i.request = r)
    (waits : (s.output i).gnt = false) : (s.next i).pending = some r := by
  show (if (i.req && !(s.output i).gnt) = true then some i.request else none) = some r
  rw [req, waits, same]
  rfl

theorem sentAfter_of_count {r : Request p} : sentAfter r i r.count = r.count := by
  rw [sentAfter, if_neg (by omega), Nat.add_zero]

theorem sentAfter_succ {r : Request p} {k : Nat} (more : k < r.count) (ready : i.wReady = true) :
    sentAfter r i k = k + 1 := by
  rw [sentAfter, if_pos ⟨more, ready⟩]

theorem sentAfter_same {r : Request p} {k : Nat} (none : ¬(k < r.count ∧ i.wReady = true)) :
    sentAfter r i k = k := by
  rw [sentAfter, if_neg none, Nat.add_zero]

/-- What is all sent stays so. -/
theorem allSent_after {r : Request p} {sent : Bool} {k : Nat} (all : allSent r sent k = true) :
    allSent r (sent || i.awReady) (sentAfter r i k) = true := by
  rw [allSent, Bool.and_eq_true, decide_eq_true_iff] at all
  obtain ⟨rfl, rfl⟩ := all
  rw [sentAfter_of_count, allSent, Bool.true_or, decide_eq_true rfl]
  rfl

/-- A cycle of a write, in the record. -/
theorem WriteLog.record {r : Request p} {sent : Bool} {k : Nat} (log : WriteLog r sent k s.log)
    (cycle : WriteCycle r i sent k (s.output i)) (same : (s.output i).gnt = true → i.request = r) :
    WriteLog r (sent || i.awReady) (sentAfter r i k) (s.record i) := by
  refine ⟨?_, ?_, ?_, ?_, ?_, ?_⟩
  · show s.log.granted ++ (if (s.output i).gnt = true then [i.request] else []) = _
    have gnt := cycle.gnt
    rw [log.granted]
    cases before : allSent r sent k with
    | true =>
        rw [gnt, before, allSent_after before]
        rfl
    | false =>
        rw [before] at gnt
        cases after : allSent r (sent || i.awReady) (sentAfter r i k) with
        | true =>
            rw [after] at gnt
            rw [same gnt, gnt]
            rfl
        | false =>
            rw [gnt, after]
            rfl
  · show s.log.aws ++ (if ((s.output i).awValid && i.awReady) = true then [(s.output i).aw] else []) =
      _
    rw [log.aws, cycle.awValid]
    cases sent with
    | true => rfl
    | false =>
        rw [cycle.aw rfl]
        rfl
  · show s.log.beats ++ (if ((s.output i).wValid && i.wReady) = true then [(s.output i).w] else []) =
      _
    rw [log.beats, cycle.wValid]
    by_cases more : k < r.count
    · rw [cycle.w more]
      cases ready : i.wReady with
      | true =>
          rw [decide_eq_true more, sentAfter_succ more ready, List.range_succ, List.map_append]
          rfl
      | false =>
          rw [Bool.and_false, sentAfter_same fun both => by rw [ready] at both; cases both.2]
          exact List.append_nil _
    · rw [decide_eq_false more, Bool.false_and, sentAfter_same fun both => more both.1]
      exact List.append_nil _
  · show s.log.ars ++ (if ((s.output i).arValid && i.arReady) = true then [(s.output i).ar] else []) =
      _
    rw [log.ars, cycle.arValid]
    rfl
  · show s.log.words ++ (if ((s.output i).rReady && i.rValid) = true then [i.rData] else []) = _
    rw [log.words, cycle.rReady]
    rfl
  · show s.log.critical ++
        (if (s.output i).criticalWordValid = true then [(s.output i).criticalWord] else []) = _
    rw [log.critical, cycle.critical]
    rfl

/-- A write that waits for its response. -/
theorem output_waitBValid (state : s.regs.state = .waitBValid) (answer : i.bValid = true) :
    (s.output i).id = i.bId ∧ (s.next i).regs.state = .idle := by
  show (axiFsm s.regs i).id = _ ∧ (axiFsm s.regs i).regs.state = _
  rw [axiFsm, state, answer]
  exact ⟨rfl, rfl⟩

theorem Law.quiet (gnt : (s.output i).gnt = false) (valid : (s.output i).valid = false) :
    Law s i :=
  ⟨fun granted => absurd (gnt.symm.trans granted) Bool.false_ne_true,
    fun response => absurd (valid.symm.trans response) Bool.false_ne_true⟩

/-- A cycle of a write: the response ends it, before that it goes on. -/
theorem write_step {r : Request p} {sent : Bool} {k : Nat} (we : r.we = true)
    (wide : r.single = false → 0 < p.wordBits) (sending : Sending r s.regs sent k)
    (asks : s.regs.state ≠ .waitBValid → i.req = true ∧ i.request = r)
    (log : WriteLog r sent k s.log) (contract : Contract s i) :
    Law s i ∧ ((s.output i).valid = true → Idle (s.next i)) ∧
      ((s.output i).valid = false →
        InWrite r (sent || i.awReady) (sentAfter r i k) (s.next i)) := by
  have cycle : WriteCycle r i sent k (s.output i) := sending.cycle asks we wide
  have gnt := cycle.gnt
  have valid := cycle.valid
  have waits := sending.waits_iff
  cases all : allSent r sent k with
  | true =>
      -- the response is awaited, and nothing is granted any more
      have state := waits.mpr all
      have later := allSent_after (i := i) all
      rw [all, Bool.not_true, Bool.false_and] at gnt
      rw [all, Bool.true_and] at valid
      have record := log.record cycle fun granted =>
        absurd (gnt.symm.trans granted) Bool.false_ne_true
      refine ⟨⟨fun granted => absurd (gnt.symm.trans granted) Bool.false_ne_true, ?_⟩, ?_, ?_⟩
      · intro response
        rw [valid] at response
        obtain ⟨a, aws, same⟩ := contract.b response
        have address : s.log.aws = [r.aw] := by
          rw [allSent, Bool.and_eq_true] at all
          rw [log.aws, if_pos all.1]
        rw [address, List.cons.injEq] at aws
        refine ⟨r, ?_, ?_, ?_⟩
        · rw [record.granted, if_pos later]
        · rw [(output_waitBValid state response).1, same, ← aws.1]
          rfl
        · rw [allSent, Bool.and_eq_true, decide_eq_true_iff] at later
          rw [if_pos we]
          refine ⟨?_, ?_, record.ars, record.words, record.critical⟩
          · rw [record.aws, if_pos later.1]
          · rw [record.beats, later.2]
      · intro response
        rw [valid] at response
        exact ⟨(output_waitBValid state response).2, next_log_of_valid (valid.trans response)⟩
      · intro none
        have after := cycle.after none
        rw [← next_log none] at record
        exact ⟨we, wide, after, fun busy => absurd (after.waits_iff.mpr later) busy, record⟩
  | false =>
      obtain ⟨req, same⟩ := asks fun state =>
        absurd (all.symm.trans (waits.mp state)) Bool.false_ne_true
      rw [all, Bool.not_false, Bool.true_and] at gnt
      rw [all, Bool.false_and] at valid
      have record := log.record cycle fun _ => same
      have after := cycle.after valid
      refine ⟨⟨fun _ => ⟨req, ?_⟩, fun response =>
        absurd (valid.symm.trans response) Bool.false_ne_true⟩,
        fun response => absurd (valid.symm.trans response) Bool.false_ne_true, fun _ => ?_⟩
      · rw [log.granted, all]
        rfl
      · rw [← next_log valid] at record
        refine ⟨we, wide, after, fun busy => next_pending req same ?_, record⟩
        rw [gnt, Bool.eq_false_iff]
        exact fun done => busy (after.waits_iff.mpr done)

/-- A write that an idle adapter takes. -/
theorem Idle.write_step (idle : Idle s) (req : i.req = true) (we : i.request.we = true)
    (contract : Contract s i) :
    Law s i ∧ InWrite i.request i.awReady (sentAfter i.request i 0) (s.next i) := by
  have log : WriteLog i.request false 0 s.log := by
    rw [idle.log]
    exact ⟨rfl, rfl, rfl, rfl, rfl, rfl⟩
  have sending : Sending i.request s.regs false 0 := .idle idle.state
  obtain ⟨law, -, goes⟩ := AxiAdapter.write_step we (contract.line req) sending
    (fun _ => ⟨req, rfl⟩) log contract
  have cycle : WriteCycle i.request i false 0 (s.output i) :=
    sending.cycle (fun _ => ⟨req, rfl⟩) we (contract.line req)
  exact ⟨law, goes cycle.valid⟩

/-- A read request at an idle adapter. -/
theorem Idle.read_step (idle : Idle s) (req : i.req = true) (we : i.request.we = false)
    (contract : Contract s i) :
    Law s i ∧ (i.arReady = true → InRead i.request (s.next i)) ∧
      (i.arReady = false → Idle (s.next i) ∧ (s.next i).pending = some i.request) := by
  obtain ⟨state, log⟩ := idle
  have fsm : s.output i = idleRead s.regs i := by
    show axiFsm s.regs i = _
    rw [axiFsm, state, req, we]
    rfl
  have valid : (s.output i).valid = false := by
    rw [fsm, idleRead]
    rfl
  have gnt : (s.output i).gnt = i.arReady := by
    rw [fsm, idleRead]
  have granted : s.log.granted = [] := by rw [log]
  have logged := next_log valid
  have added : s.record i = Log.add {} i (idleRead s.regs i) := by
    rw [Bench.record, log, fsm]
  refine ⟨⟨fun _ => ⟨req, granted⟩, fun response =>
    absurd (valid.symm.trans response) Bool.false_ne_true⟩, ?_, ?_⟩
  · intro ready
    have record : s.record i = { granted := [i.request], ars := [i.request.ar] } := by
      rw [added, Log.add, idleRead, ready]
      cases single : i.request.single <;> simp [defaults, Request.ar, single]
    rw [record] at logged
    refine ⟨we, contract.line req, ?_, ?_⟩
    · rw [logged]
      show Reading i.request (s.output i).regs []
      rw [fsm, idleRead, ready]
      refine ⟨rfl, count_pos _, ?_, rfl, fun j short => absurd short (Nat.not_lt_zero j)⟩
      cases single : i.request.single with
      | true =>
          rw [count_single single]
          rfl
      | false =>
          rw [count_line single]
          rfl
    · rw [logged]
      exact ⟨rfl, rfl, rfl, rfl, fun _ => by rw [List.drop_nil, List.take_nil]⟩
  · intro late
    refine ⟨⟨?_, ?_⟩, next_pending req rfl (gnt.trans late)⟩
    · show (s.output i).regs.state = .idle
      rw [fsm, idleRead, late]
      rfl
    · rw [logged, added, Log.add, idleRead, late]
      rfl

/-- An idle adapter without a request. -/
theorem Idle.quiet (idle : Idle s) (req : i.req = false) : Law s i ∧ Idle (s.next i) := by
  obtain ⟨state, log⟩ := idle
  have fsm : s.output i = { defaults s.regs i with regs := { s.regs with cnt := 0 } } := by
    show axiFsm s.regs i = _
    rw [axiFsm, state]
    dsimp only
    rw [req, if_neg Bool.false_ne_true, state]
  have valid : (s.output i).valid = false := by
    rw [fsm]
    rfl
  have gnt : (s.output i).gnt = false := by
    rw [fsm]
    rfl
  refine ⟨.quiet gnt valid, ?_, ?_⟩
  · show (s.output i).regs.state = .idle
    rw [fsm]
    exact state
  · rw [next_log valid, Bench.record, log, fsm]
    rfl

/-- What a read puts on the bus. -/
theorem waitRead_offers (q : Regs p) (i : Input p) :
    (waitRead q i).awValid = false ∧ (waitRead q i).wValid = false ∧
      (waitRead q i).arValid = false ∧ (waitRead q i).rReady = true ∧
      (waitRead q i).gnt = false ∧ (waitRead q i).valid = false := by
  rw [waitRead]
  cases i.rValid <;> exact ⟨rfl, rfl, rfl, rfl, rfl, rfl⟩

theorem Reading.fsm {r : Request p} {words : List (BitVec 64)}
    (reading : Reading r s.regs words) : s.output i = waitRead s.regs i := by
  show axiFsm s.regs i = _
  rw [axiFsm, reading.state]
  cases r.single <;> rfl

/-- A cycle of a read, in the record. -/
theorem ReadLog.record {r : Request p} (log : ReadLog r s.log)
    (reading : Reading r s.regs s.log.words) (wide : r.single = false → 0 < p.wordBits) :
    ReadLog r (s.record i) := by
  have fsm := reading.fsm (i := i)
  obtain ⟨aw, w, ar, ready, gnt, -⟩ := waitRead_offers s.regs i
  rw [← fsm] at aw w ar ready gnt
  refine ⟨?_, ?_, ?_, ?_, ?_⟩
  · show s.log.granted ++ (if (s.output i).gnt = true then _ else _) = _
    rw [log.granted, gnt]
    rfl
  · show s.log.aws ++ (if ((s.output i).awValid && i.awReady) = true then _ else _) = _
    rw [log.aws, aw]
    rfl
  · show s.log.beats ++ (if ((s.output i).wValid && i.wReady) = true then _ else _) = _
    rw [log.beats, w]
    rfl
  · show s.log.ars ++ (if ((s.output i).arValid && i.arReady) = true then _ else _) = _
    rw [log.ars, ar]
    rfl
  · intro line
    show s.log.critical ++ (if (s.output i).criticalWordValid = true then _ else _) =
      ((s.log.words ++ if ((s.output i).rReady && i.rValid) = true then _ else _).drop _).take 1
    rw [log.critical line, ready, Bool.true_and]
    cases beat : i.rValid with
    | false =>
        have none : (s.output i).criticalWordValid = false := by
          rw [fsm, waitRead, beat]
          rfl
        rw [none, if_neg Bool.false_ne_true, if_neg Bool.false_ne_true, List.append_nil,
          List.append_nil]
    | true =>
        obtain ⟨critical, word⟩ := reading.critical line (wide line) beat
        rw [fsm, critical, word, if_pos rfl]
        by_cases now : s.log.words.length = r.criticalBeat
        · rw [decide_eq_true now, if_pos rfl, ← now, List.drop_length, List.drop_left]
          rfl
        · rw [decide_eq_false now, if_neg Bool.false_ne_true, List.append_nil]
          by_cases early : s.log.words.length < r.criticalBeat
          · have after : (s.log.words ++ [i.rData]).length ≤ r.criticalBeat := by
              rw [List.length_append, List.length_singleton]
              omega
            rw [List.drop_of_length_le (Nat.le_of_lt early), List.drop_of_length_le after]
          · rw [List.drop_append_of_le_length (by omega), List.take_append_of_le_length]
            rw [List.length_drop]
            omega

/-- A cycle of a read: it goes on until the last word has come. -/
theorem InRead.step (fits : p.wordBits ≤ 8) {r : Request p} (read : InRead r s)
    (contract : Contract s i) :
    Law s i ∧
      (s.next i).log.words = s.log.words ++ (if i.rValid = true then [i.rData] else []) ∧
      if i.rValid = true ∧ s.log.words.length + 1 = r.count then ReadDone r (s.next i)
      else InRead r (s.next i) := by
  obtain ⟨we, wide, reading, log⟩ := read
  have fsm := reading.fsm (i := i)
  have record := log.record (i := i) reading wide
  obtain ⟨-, -, -, ready, gnt, valid⟩ := waitRead_offers s.regs i
  rw [← fsm] at ready gnt valid
  have words : (s.next i).log.words =
      s.log.words ++ if i.rValid = true then [i.rData] else [] := by
    rw [next_log valid]
    show s.log.words ++ (if ((s.output i).rReady && i.rValid) = true then _ else _) = _
    rw [ready, Bool.true_and]
  refine ⟨.quiet gnt valid, words, ?_⟩
  rw [← next_log valid] at record
  have regs : (s.next i).regs = (waitRead s.regs i).regs := congrArg Output.regs fsm
  cases beat : i.rValid with
  | false =>
      rw [beat, if_neg Bool.false_ne_true, List.append_nil] at words
      rw [if_neg fun both => absurd both.1 Bool.false_ne_true]
      refine ⟨we, wide, ?_, record⟩
      rw [words, regs, waitRead_quiet beat]
      exact reading
  | true =>
      rw [beat, if_pos rfl] at words
      obtain ⟨a, ars, -, last, id⟩ := contract.r beat
      rw [log.ars, List.cons.injEq] at ars
      rw [← ars.1] at last id
      have len := len_toNat fits r
      have due := reading.due
      by_cases all : s.log.words.length + 1 = r.count
      · have final : i.rLast = true := last.mpr (by omega)
        rw [if_pos ⟨rfl, all⟩]
        refine ⟨we, ?_, ?_, ?_, ?_, record⟩
        · rw [regs, waitRead, beat, final]
          rfl
        · rw [regs, waitRead, beat, final]
          exact id
        · rw [words, List.length_append, List.length_singleton, all]
        · rw [words, regs]
          exact reading.store wide beat
      · have more : i.rLast = false := by
          rw [Bool.eq_false_iff]
          intro final
          have length := last.mp final
          omega
        rw [if_neg fun both => all both.2]
        refine ⟨we, wide, ?_, record⟩
        rw [words, regs]
        exact reading.next wide beat more (by omega)

theorem output_completeRead (state : s.regs.state = .completeRead) :
    s.output i =
      { defaults s.regs i with
        valid := true, id := s.regs.id, regs := { s.regs with state := .idle } } := by
  show axiFsm s.regs i = _
  rw [axiFsm, state]

theorem response_completeRead (state : s.regs.state = .completeRead) :
    (s.output i).valid = true ∧ (s.output i).rdata = s.regs.cacheLine := by
  rw [output_completeRead state]
  exact ⟨rfl, rfl⟩

/-- The response to a read. -/
theorem ReadDone.step (fits : p.wordBits ≤ 8) {r : Request p} (done : ReadDone r s) :
    Law s i ∧ (s.output i).valid = true ∧ Idle (s.next i) := by
  obtain ⟨we, state, id, all, stored, log⟩ := done
  have fsm := output_completeRead (i := i) state
  have gnt : (s.output i).gnt = false := by
    rw [fsm]
    rfl
  have valid : (s.output i).valid = true := by rw [fsm]
  have kept : s.record i = s.log := by
    rw [Bench.record, fsm, Log.add]
    simp [defaults]
  refine ⟨⟨fun granted => absurd (gnt.symm.trans granted) Bool.false_ne_true, fun _ => ?_⟩,
    valid, ?_, next_log_of_valid valid⟩
  · refine ⟨r, ?_, ?_, ?_⟩
    · rw [kept]
      exact log.granted
    · rw [fsm]
      exact id
    · rw [we, kept]
      refine ⟨log.aws, log.beats, log.ars, all, ?_, ?_⟩
      · intro single mem served
        rw [fsm]
        exact (stored.returned fits all mem served).1 single
      · intro line size aligned mem served
        rw [fsm, log.critical line]
        exact (stored.returned fits all mem served).2 line size aligned
  · show (s.output i).regs.state = .idle
    rw [fsm]

theorem Phase.step (fits : p.wordBits ≤ 8) (phase : Phase s) (contract : Contract s i) :
    Law s i ∧ Phase (s.next i) := by
  cases phase with
  | idle idle =>
      cases req : i.req with
      | false =>
          obtain ⟨law, after⟩ := idle.quiet req
          exact ⟨law, .idle after⟩
      | true =>
          cases we : i.request.we with
          | true =>
              obtain ⟨law, after⟩ := idle.write_step req we contract
              exact ⟨law, .write _ _ _ after⟩
          | false =>
              obtain ⟨law, taken, waits⟩ := idle.read_step req we contract
              cases ready : i.arReady with
              | true => exact ⟨law, .read _ (taken ready)⟩
              | false => exact ⟨law, .idle (waits ready).1⟩
  | write r sent k write =>
      obtain ⟨we, wide, sending, pending, log⟩ := write
      obtain ⟨law, ends, goes⟩ :=
        write_step we wide sending (fun busy => contract.held r (pending busy)) log contract
      cases valid : (s.output i).valid with
      | true => exact ⟨law, .idle (ends valid)⟩
      | false => exact ⟨law, .write _ _ _ (goes valid)⟩
  | read r read =>
      obtain ⟨law, -, after⟩ := read.step fits contract
      split at after
      · exact ⟨law, .complete r after⟩
      · exact ⟨law, .read r after⟩
  | complete r done =>
      obtain ⟨law, -, after⟩ := done.step fits
      exact ⟨law, .idle after⟩

end Step

section Runs

variable (inputs : Nat → Input p)

/-- The bench before cycle `t`. -/
def states (t : Nat) : Bench p := (machine p).stateAt {} inputs t

/-- Requester and slave keep to the contract in every cycle. -/
def Legal : Prop := ∀ t, Contract (states inputs t) (inputs t)

variable {inputs}

theorem phase_run (fits : p.wordBits ≤ 8) (legal : Legal inputs) (t : Nat) :
    Phase (states inputs t) := by
  induction t with
  | zero => exact .idle ⟨rfl, rfl⟩
  | succ t ih => exact (ih.step fits (legal t)).2

/-- Every cycle of every run follows the law. -/
theorem law_run (fits : p.wordBits ≤ 8) (legal : Legal inputs) (t : Nat) :
    Law (states inputs t) (inputs t) :=
  ((phase_run fits legal t).step fits (legal t)).1

end Runs

end Ariane.AxiAdapter
