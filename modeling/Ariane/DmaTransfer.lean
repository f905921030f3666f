import Ariane.DmaReports
import Ariane.Rtl.Stream

set_option autoImplicit false

/- Every transfer of the DMA engine ends where the slave answers what is offered, and copies its
words. -/
namespace Ariane.Dma

section Progress

/-- What the adapter offers to the slave, or waits for. -/
structure Offered where
  ar : Bool
  r : Bool
  aw : Bool
  w : Bool
  b : Bool
  deriving DecidableEq

/-- The valid and ready signals of a request. -/
def offered (o : AxiReq) : Offered := ⟨o.arValid, o.rReady, o.awValid, o.wValid, o.bReady⟩

/-- Nothing that is offered is taken. -/
structure Refused (o : AxiReq) (r : AxiResp) : Prop where
  ar : o.arValid = true → r.arReady = false
  read : o.rReady = true → r.rValid = false
  aw : o.awValid = true → r.awReady = false
  w : o.wValid = true → r.wReady = false
  b : o.bReady = true → r.bValid = false

/-- Something is offered. -/
def Offered.some (o : Offered) : Bool := o.ar || o.r || o.aw || o.w || o.b

/-- The adapter waits until what it offers is taken. -/
theorem axiFsm_refused {q : Adapter} {a : AdapterInput} {r : AxiResp}
    (offers : (offered (axiFsm q a r).axi).some = true) (refused : Refused (axiFsm q a r).axi r) :
    (axiFsm q a r).state = q.state ∧ (axiFsm q a r).gnt = false ∧
      (axiFsm q a r).valid = false := by
  obtain ⟨ar, read, aw, w, b⟩ := refused
  cases state : q.state with
  | idle =>
      cases asks : a.req with
      | false =>
          rw [axiFsm_idle state asks] at offers
          exact absurd offers Bool.false_ne_true
      | true =>
          cases writes : a.we with
          | false =>
              rw [axiFsm_read state asks writes] at ar ⊢
              have late := ar rfl
              rw [late]
              exact ⟨rfl, rfl, rfl⟩
          | true =>
              rw [axiFsm_write state asks writes] at aw w ⊢
              have late := aw rfl
              have slow := w rfl
              rw [late, slow, Bool.and_false]
              exact ⟨rfl, rfl, rfl⟩
  | waitBValid =>
      have late : r.bValid = false := b (by rw [axiFsm, state]; cases r.bValid <;> rfl)
      rw [axiFsm, state, late]
      exact ⟨state, rfl, rfl⟩
  | waitAwReady =>
      have late : r.awReady = false := aw (by rw [axiFsm, state]; cases r.awReady <;> rfl)
      rw [axiFsm, state, late]
      exact ⟨state, rfl, rfl⟩
  | waitAwReadyBurst =>
      have late : r.awReady = false := aw (by rw [axiFsm, state]; cases r.awReady <;> rfl)
      rw [axiFsm, state, late]
      exact ⟨state, rfl, rfl⟩
  | waitLastWReady =>
      have slow : r.wReady = false := w (by
        rw [axiFsm, state]
        show (waitWordsState q a r).axi.wValid = true
        rw [waitWordsState]
        cases q.cnt == 0 <;> cases r.wReady <;> rfl)
      rw [axiFsm, state]
      show (waitWordsState q a r).state = _ ∧ (waitWordsState q a r).gnt = _ ∧
        (waitWordsState q a r).valid = _
      rw [waitWordsState, slow]
      cases q.cnt == 0 <;> exact ⟨state, rfl, rfl⟩
  | waitLastWReadyAwReady =>
      have both : (waitBothState q a r).axi.wValid = true ∧
          (waitBothState q a r).axi.awValid = true := by
        rw [waitBothState]
        cases q.cnt == 0 <;> cases r.wReady <;> cases r.awReady <;> exact ⟨rfl, rfl⟩
      have slow : r.wReady = false := w (by rw [axiFsm, state]; exact both.1)
      have late : r.awReady = false := aw (by rw [axiFsm, state]; exact both.2)
      rw [axiFsm, state]
      show (waitBothState q a r).state = _ ∧ (waitBothState q a r).gnt = _ ∧
        (waitBothState q a r).valid = _
      rw [waitBothState, slow, late]
      exact ⟨state, rfl, rfl⟩
  | waitRValid =>
      have late : r.rValid = false := read (by
        rw [axiFsm, state]
        show (readState q a r false).axi.rReady = true
        rw [readState]
        cases r.rValid <;> rfl)
      rw [axiFsm, state]
      show (readState q a r false).state = _ ∧ (readState q a r false).gnt = _ ∧
        (readState q a r false).valid = _
      rw [readState, late]
      exact ⟨state, rfl, rfl⟩
  | waitRValidMultiple =>
      have late : r.rValid = false := read (by
        rw [axiFsm, state]
        show (readState q a r true).axi.rReady = true
        rw [readState]
        cases r.rValid <;> rfl)
      rw [axiFsm, state]
      show (readState q a r true).state = _ ∧ (readState q a r true).gnt = _ ∧
        (readState q a r true).valid = _
      rw [readState, late]
      exact ⟨state, rfl, rfl⟩
  | completeRead =>
      rw [axiFsm, state] at offers
      exact absurd offers Bool.false_ne_true

/-- What the adapter offers in a state. -/
def offers (state : AdapterState) (req we : Bool) : Offered :=
  match state with
  | .idle => ⟨req && !we, false, req && we, req && we, false⟩
  | .waitBValid => ⟨false, false, false, false, true⟩
  | .waitAwReady | .waitAwReadyBurst => ⟨false, false, true, false, false⟩
  | .waitLastWReady => ⟨false, false, false, true, false⟩
  | .waitLastWReadyAwReady => ⟨false, false, true, true, false⟩
  | .waitRValid | .waitRValidMultiple => ⟨false, true, false, false, false⟩
  | .completeRead => ⟨false, false, false, false, false⟩

theorem offered_axiFsm (q : Adapter) (a : AdapterInput) (r : AxiResp) :
    offered (axiFsm q a r).axi = offers q.state a.req a.we := by
  cases state : q.state with
  | idle =>
      cases asks : a.req with
      | false =>
          rw [axiFsm_idle state asks]
          rfl
      | true =>
          cases writes : a.we with
          | false =>
              rw [axiFsm_read state asks writes]
              rfl
          | true =>
              rw [axiFsm_write state asks writes]
              rfl
  | waitBValid =>
      rw [axiFsm, state]
      cases r.bValid <;> rfl
  | waitAwReady | waitAwReadyBurst =>
      rw [axiFsm, state]
      cases r.awReady <;> rfl
  | waitLastWReady =>
      rw [axiFsm, state]
      show offered (waitWordsState q a r).axi = _
      rw [waitWordsState]
      cases q.cnt == 0 <;> cases r.wReady <;> rfl
  | waitLastWReadyAwReady =>
      rw [axiFsm, state]
      show offered (waitBothState q a r).axi = _
      rw [waitBothState]
      cases q.cnt == 0 <;> cases r.wReady <;> cases r.awReady <;> rfl
  | waitRValid =>
      rw [axiFsm, state]
      show offered (readState q a r false).axi = _
      rw [readState]
      cases r.rValid <;> rfl
  | waitRValidMultiple =>
      rw [axiFsm, state]
      show offered (readState q a r true).axi = _
      rw [readState]
      cases r.rValid <;> rfl
  | completeRead =>
      rw [axiFsm, state]
      rfl

variable {s : System} {i : SystemInput}

/-- What the engine offers in a state. -/
def System.offers (s : System) : Offered :=
  Dma.offers s.engine.adapter.state s.engine.request.req s.engine.request.we

/-- A transfer is running. -/
def System.running (s : System) : Prop := s.engine.ctrl ≠ .idle ∧ s.engine.ctrl ≠ .done

/-- How much of the transfer was moved. -/
def Transfer.count (t : Transfer) : Nat :=
  t.reads.length + t.read.length + t.writes.length + t.written.length

theorem offers_busy {state : AdapterState} (busy : state ≠ .idle) (req we req' we' : Bool) :
    offers state req we = offers state req' we' := by
  cases state with
  | idle => exact absurd rfl busy
  | _ => rfl

theorem moved_refused (refused : Refused (s.output i).axi i.resp) : s.moved i = s.current := by
  have silent {valid ready : Bool} (late : valid = true → ready = false) :
      (valid && ready) = false := by
    cases valid with
    | false => rfl
    | true => exact late rfl
  rw [System.moved, silent refused.ar, silent refused.read, silent refused.aw, silent refused.w,
    silent refused.b]
  simp

theorem refused_of_silent (none : s.offers.some = false) : Refused (s.output i).axi i.resp := by
  have none : (offered (s.output i).axi).some = false := by
    rw [System.output, adapterOutput, offered_axiFsm]
    exact none
  rw [Offered.some, Bool.or_eq_false_iff, Bool.or_eq_false_iff, Bool.or_eq_false_iff,
    Bool.or_eq_false_iff] at none
  obtain ⟨⟨⟨⟨ar, read⟩, aw⟩, w⟩, b⟩ := none
  exact ⟨fun high => absurd (ar.symm.trans high) Bool.false_ne_true,
    fun high => absurd (read.symm.trans high) Bool.false_ne_true,
    fun high => absurd (aw.symm.trans high) Bool.false_ne_true,
    fun high => absurd (w.symm.trans high) Bool.false_ne_true,
    fun high => absurd (b.symm.trans high) Bool.false_ne_true⟩

/-- The state of the adapter while words come in. -/
theorem Reading.busy (reading : Reading s) : s.engine.adapter.state ≠ .idle := by
  rcases reading.phase with ⟨state, -⟩ | ⟨state, -⟩
  · rw [state]
    simp
  · rw [state]
    split <;> simp

/-- An offer stands until some of it is taken. -/
theorem Stage.waits (stage : Stage s) (running : s.running) (some : s.offers.some = true)
    (refused : Refused (s.output i).axi i.resp) :
    (s.next i).running ∧ (s.next i).offers = s.offers ∧ (s.next i).current = s.current := by
  have stays := axiFsm_refused (by rw [offered_axiFsm]; exact some) refused
  obtain ⟨state, gnt, valid⟩ := stays
  have same : (s.next i).engine.adapter.state = s.engine.adapter.state := state
  have current := (next_current (i := i) running.1).trans (moved_refused refused)
  have ctrl : (s.next i).engine.ctrl = s.engine.ctrl := by
    rw [next_ctrl, nextCtrl, adapterOutput, gnt, valid]
    cases ctrl : s.engine.ctrl with
    | idle => exact absurd ctrl running.1
    | done => exact absurd ctrl running.2
    | startLoad | load | startStore | store => rfl
  refine ⟨⟨?_, ?_⟩, ?_, current⟩
  · rw [ctrl]
    exact running.1
  · rw [ctrl]
    exact running.2
  · rw [System.offers, System.offers, same]
    by_cases idle : s.engine.adapter.state = .idle
    · rw [System.offers, idle] at some
      have req : s.engine.request.req = true := by
        by_contra none
        rw [Bool.eq_false_iff.mpr none] at some
        exact absurd some Bool.false_ne_true
      rw [next_request, nextRequest]
      rw [Stage] at stage
      cases ctrl : s.engine.ctrl with
      | idle => exact absurd ctrl running.1
      | done => exact absurd ctrl running.2
      | startLoad =>
          rw [ctrl] at stage
          obtain ⟨-, -, -, -, -, request⟩ := stage
          rw [request req]
          rfl
      | load =>
          rw [ctrl] at stage
          exact absurd idle stage.2.busy
      | startStore =>
          rw [ctrl] at stage
          obtain ⟨-, -, -, request, -⟩ := stage
          rw [request req]
          rfl
      | store =>
          rw [ctrl] at stage
          obtain ⟨-, -, state, -⟩ := stage
          exact AdapterState.noConfusion (idle.symm.trans state)
    · exact offers_busy idle _ _ _ _

/-- Where nothing is offered, the engine goes on by itself. -/
theorem Stage.goes (stage : Stage s) (running : s.running) (none : s.offers.some = false) :
    (s.next i).running ∧ (s.next i).current = s.current ∧
      ((s.next i).offers.some = true ∨
        s.engine.ctrl = .load ∧ (s.next i).engine.ctrl = .startStore) := by
  have current := (next_current (i := i) running.1).trans
    (moved_refused (refused_of_silent none))
  rw [Stage] at stage
  cases ctrl : s.engine.ctrl with
  | idle => exact absurd ctrl running.1
  | done => exact absurd ctrl running.2
  | startLoad =>
      rw [ctrl] at stage
      obtain ⟨-, idle, -, -, -, request⟩ := stage
      have silent : s.engine.request.req = false := by
        by_contra asks
        rw [System.offers, idle, request (eq_true_of_ne_false asks)] at none
        exact absurd none.symm Bool.false_ne_true
      have output : s.output i =
          { defaultOutput s.engine.adapter s.engine.request with cnt := 0 } :=
        axiFsm_idle idle silent
      have after : (s.next i).engine.ctrl = .startLoad := by
        rw [next_ctrl, nextCtrl, ctrl]
        show (if (s.output i).gnt then _ else _) = _
        rw [output]
        rfl
      have kept : (s.next i).engine.adapter.state = .idle := by
        rw [next_state, output]
        exact idle
      refine ⟨⟨?_, ?_⟩, current, Or.inl ?_⟩
      · rw [after]
        simp
      · rw [after]
        simp
      · rw [System.offers, kept, next_request, nextRequest, ctrl]
        rfl
  | load =>
      rw [ctrl] at stage
      obtain ⟨-, reading⟩ := stage
      have state : s.engine.adapter.state = .completeRead := by
        rcases reading.phase with ⟨state, -⟩ | ⟨state, -⟩
        · exact state
        · rw [System.offers, state] at none
          split at none <;> exact absurd none.symm Bool.false_ne_true
      have after : (s.next i).engine.ctrl = .startStore := by
        rw [next_ctrl, nextCtrl, ctrl, adapterOutput, axiFsm, state]
        rfl
      refine ⟨⟨?_, ?_⟩, current, Or.inr ⟨rfl, after⟩⟩
      · rw [after]
        simp
      · rw [after]
        simp
  | startStore =>
      rw [ctrl] at stage
      obtain ⟨-, -, writing, request, quiet⟩ := stage
      have silent : s.engine.request.req = false := by
        by_contra asks
        rw [Writing] at writing
        rw [System.offers, request (eq_true_of_ne_false asks)] at none
        cases state : s.engine.adapter.state with
        | waitBValid | waitRValid | waitRValidMultiple | completeRead =>
            rw [state] at writing
            exact writing
        | _ =>
            rw [state] at none
            exact absurd none.symm Bool.false_ne_true
      have idle := quiet silent
      have output : s.output i =
          { defaultOutput s.engine.adapter s.engine.request with cnt := 0 } :=
        axiFsm_idle idle silent
      have after : (s.next i).engine.ctrl = .startStore := by
        rw [next_ctrl, nextCtrl, ctrl]
        show (if (s.output i).gnt then _ else _) = _
        rw [output]
        rfl
      have kept : (s.next i).engine.adapter.state = .idle := by
        rw [next_state, output]
        exact idle
      refine ⟨⟨?_, ?_⟩, current, Or.inl ?_⟩
      · rw [after]
        simp
      · rw [after]
        simp
      · rw [System.offers, kept, next_request, nextRequest, ctrl]
        rfl
  | store =>
      rw [ctrl] at stage
      obtain ⟨-, -, state, -⟩ := stage
      rw [System.offers, state] at none
      exact absurd none.symm Bool.false_ne_true

/-- Only the end of a write waits for a response. -/
theorem Stage.store_of_waitBValid (stage : Stage s) (running : s.running)
    (state : s.engine.adapter.state = .waitBValid) : s.engine.ctrl = .store := by
  rw [Stage] at stage
  cases ctrl : s.engine.ctrl with
  | idle => exact absurd ctrl running.1
  | done => exact absurd ctrl running.2
  | startLoad =>
      rw [ctrl] at stage
      exact AdapterState.noConfusion (state.symm.trans stage.2.1)
  | load =>
      rw [ctrl] at stage
      rcases stage.2.phase with ⟨other, -⟩ | ⟨other, -⟩
      · exact AdapterState.noConfusion (state.symm.trans other)
      · rw [state] at other
        split at other <;> exact AdapterState.noConfusion other
  | startStore =>
      rw [ctrl] at stage
      have writing := stage.2.2.1
      rw [Writing, state] at writing
      exact writing.elim
  | store => rfl

/-- What is taken is moved. -/
theorem Stage.takes (stage : Stage s) (running : s.running)
    (taken : ¬ Refused (s.output i).axi i.resp) :
    s.ends i = true ∨ (s.next i).running ∧ s.current.count < (s.next i).current.count := by
  by_cases ends : s.ends i = true
  · exact Or.inl ends
  right
  have after : (s.next i).running := by
    rw [System.running, next_ctrl]
    rw [System.ends, Bool.and_eq_true, beq_iff_eq, beq_iff_eq] at ends
    cases ctrl : s.engine.ctrl with
    | idle => exact absurd ctrl running.1
    | done => exact absurd ctrl running.2
    | startLoad | load | startStore =>
        simp only [nextCtrl, ctrl]
        split <;> simp
    | store =>
        refine ⟨?_, fun last => ends ⟨ctrl, last⟩⟩
        simp only [nextCtrl, ctrl]
        split <;> simp
  refine ⟨after, ?_⟩
  rw [next_current running.1]
  by_contra still
  apply taken
  have lengths : (s.moved i).count = s.current.count +
      (if (s.output i).axi.arValid && i.resp.arReady then 1 else 0) +
      (if (s.output i).axi.rReady && i.resp.rValid then 1 else 0) +
      (if (s.output i).axi.awValid && i.resp.awReady then 1 else 0) +
      (if (s.output i).axi.wValid && i.resp.wReady then 1 else 0) := by
    simp only [System.moved, Transfer.count, List.length_append, apply_ite List.length,
      List.length_singleton, List.length_nil]
    omega
  have unmoved {valid ready : Bool} (none : (if valid && ready then 1 else 0) = 0)
      (high : valid = true) : ready = false := by
    rw [high, Bool.true_and] at none
    cases ready with
    | false => rfl
    | true => exact absurd none Nat.one_ne_zero
  constructor
  · exact unmoved (by omega)
  · exact unmoved (by omega)
  · exact unmoved (by omega)
  · exact unmoved (by omega)
  · intro high
    by_contra answered
    have responds : i.resp.bValid = true := eq_true_of_ne_false answered
    have offered : s.offers.b = true := by
      rw [System.offers, ← offered_axiFsm _ _ i.resp]
      exact high
    have state : s.engine.adapter.state = .waitBValid := by
      rw [System.offers] at offered
      cases state : s.engine.adapter.state with
      | waitBValid => rfl
      | _ =>
          rw [state] at offered
          exact absurd offered Bool.false_ne_true
    have ctrl := stage.store_of_waitBValid running state
    apply ends
    rw [System.ends, nextCtrl, ctrl, adapterOutput, axiFsm, state, responds]
    rfl

theorem Stage.count_le (stage : Stage s) (running : s.running) :
    s.current.count ≤ 2 * s.engine.length.toNat + 4 := by
  rw [Stage] at stage
  cases ctrl : s.engine.ctrl with
  | idle => exact absurd ctrl running.1
  | done => exact absurd ctrl running.2
  | startLoad =>
      rw [ctrl] at stage
      obtain ⟨-, -, reads, read, unwritten, -⟩ := stage
      rw [Transfer.count, reads, read, unwritten.writes, unwritten.written]
      exact Nat.zero_le _
  | load =>
      rw [ctrl] at stage
      obtain ⟨-, reading⟩ := stage
      have short : s.current.read.length ≤ s.engine.length.toNat + 1 := by
        rcases reading.phase with ⟨-, -, all⟩ | ⟨-, some, -⟩
        · exact Nat.le_of_eq all
        · exact Nat.le_succ_of_le some
      rw [Transfer.count, reading.reads, reading.unwritten.writes, reading.unwritten.written,
        List.length_singleton, List.length_nil, List.length_nil]
      omega
  | startStore =>
      rw [ctrl] at stage
      obtain ⟨-, buffered, writing, -⟩ := stage
      have sent {k : Nat} (sent : Sent s k) : s.current.written.length = k := by
        rw [sent, beats, List.length_map, List.length_range]
      obtain ⟨address, words⟩ : s.current.writes.length ≤ 1 ∧
          s.current.written.length ≤ s.engine.length.toNat + 1 := by
        rw [Writing] at writing
        cases state : s.engine.adapter.state with
        | idle =>
            rw [state] at writing
            rw [writing.1, sent writing.2]
            exact ⟨Nat.zero_le _, Nat.zero_le _⟩
        | waitAwReady =>
            rw [state] at writing
            rw [writing.1, sent writing.2.1]
            exact ⟨Nat.zero_le _, Nat.le_refl _⟩
        | waitAwReadyBurst =>
            rw [state] at writing
            rw [writing.1, sent writing.2]
            exact ⟨Nat.zero_le _, Nat.le_refl _⟩
        | waitLastWReady =>
            rw [state] at writing
            obtain ⟨writes, k, due, words, -⟩ := writing
            rw [writes, sent words]
            exact ⟨Nat.le_refl _, Nat.le_succ_of_le due⟩
        | waitLastWReadyAwReady =>
            rw [state] at writing
            obtain ⟨writes, k, due, words, -⟩ := writing
            rw [writes, sent words]
            exact ⟨Nat.zero_le _, Nat.le_succ_of_le due⟩
        | waitBValid | waitRValid | waitRValidMultiple | completeRead =>
            rw [state] at writing
            exact writing.elim
      rw [Transfer.count, buffered.reads, buffered.read, List.length_singleton]
      omega
  | store =>
      rw [ctrl] at stage
      obtain ⟨-, buffered, -, writes, sent⟩ := stage
      rw [Transfer.count, buffered.reads, buffered.read, writes, sent, beats, List.length_map,
        List.length_range, List.length_singleton, List.length_singleton]
      omega

/-- What stays while a transfer runs. -/
structure Carries (s t : System) : Prop where
  past : t.past = s.past
  source : t.current.source = s.current.source
  dest : t.current.dest = s.current.dest
  current : t.current.length = s.current.length
  length : t.engine.length = s.engine.length

theorem Carries.refl (s : System) : Carries s s := ⟨rfl, rfl, rfl, rfl, rfl⟩

theorem Carries.trans {s t u : System} (first : Carries s t) (second : Carries t u) :
    Carries s u :=
  ⟨second.past.trans first.past, second.source.trans first.source, second.dest.trans first.dest,
    second.current.trans first.current, second.length.trans first.length⟩

theorem carries_next (running : s.running) (after : (s.next i).running) :
    Carries s (s.next i) := by
  have open' : s.ends i = false := by
    rw [System.ends, Bool.and_eq_false_iff]
    exact Or.inr (beq_eq_false_iff_ne.mpr after.2)
  have current := next_current (i := i) running.1
  constructor
  · show (if s.ends i then s.moved i :: s.past else s.past) = s.past
    rw [open']
    rfl
  · rw [current]
    rfl
  · rw [current]
    rfl
  · rw [current]
    rfl
  · exact (next_saved running.1 running.2).1

section Endless

variable {inputs : Nat → SystemInput}

/-- The state in cycle `t` of an endless run. -/
abbrev states (inputs : Nat → SystemInput) (t : Nat) : System :=
  system.stateAt system.reset inputs t

/-- Every signal that is offered is answered in some later cycle, whatever the others do. -/
structure Answers (inputs : Nat → SystemInput) : Prop where
  legal : ∀ t, Contract (states inputs t) (inputs t)
  ar : ∀ t, (states inputs t).offers.ar = true → ∃ u, t ≤ u ∧ (inputs u).resp.arReady = true
  r : ∀ t, (states inputs t).offers.r = true → ∃ u, t ≤ u ∧ (inputs u).resp.rValid = true
  aw : ∀ t, (states inputs t).offers.aw = true → ∃ u, t ≤ u ∧ (inputs u).resp.awReady = true
  w : ∀ t, (states inputs t).offers.w = true → ∃ u, t ≤ u ∧ (inputs u).resp.wReady = true
  b : ∀ t, (states inputs t).offers.b = true → ∃ u, t ≤ u ∧ (inputs u).resp.bValid = true

theorem Answers.inv (answers : Answers inputs) (t : Nat) : Inv (states inputs t) := by
  induction t with
  | zero => exact inv_reset
  | succ t ih => exact ⟨ih.stage.step (answers.legal t), ih.reports.step ih.stage⟩

/-- What is offered in a cycle is what the adapter puts on the bus. -/
theorem offers_eq (s : System) (i : SystemInput) : s.offers = offered (s.output i).axi :=
  (offered_axiFsm _ _ _).symm

/-- Some of what is offered is taken. -/
theorem Answers.some_taken (answers : Answers inputs) {t : Nat}
    (running : (states inputs t).running) (some : (states inputs t).offers.some = true) :
    ∃ u, t ≤ u ∧ (states inputs u).running ∧
      (states inputs u).current = (states inputs t).current ∧
      Carries (states inputs t) (states inputs u) ∧
      ¬ Refused ((states inputs u).output (inputs u)).axi (inputs u).resp := by
  by_contra never
  have waits : ∀ d, (states inputs (t + d)).running ∧
      (states inputs (t + d)).offers = (states inputs t).offers ∧
      (states inputs (t + d)).current = (states inputs t).current ∧
      Carries (states inputs t) (states inputs (t + d)) := by
    intro d
    induction d with
    | zero => exact ⟨running, rfl, rfl, Carries.refl _⟩
    | succ d ih =>
        obtain ⟨on, same, current, carries⟩ := ih
        have refused : Refused ((states inputs (t + d)).output (inputs (t + d))).axi
            (inputs (t + d)).resp := by
          by_contra taken
          exact never ⟨t + d, Nat.le_add_right t d, on, current, carries, taken⟩
        obtain ⟨after, kept, still⟩ :=
          (answers.inv (t + d)).stage.waits on (by rw [same]; exact some) refused
        exact ⟨after, kept.trans same, still.trans current, carries.trans (carries_next on after)⟩
  have silent : ∀ u, t ≤ u →
      Refused ((states inputs u).output (inputs u)).axi (inputs u).resp ∧
        offered ((states inputs u).output (inputs u)).axi = (states inputs t).offers := by
    intro u later
    obtain ⟨d, rfl⟩ := Nat.exists_eq_add_of_le later
    obtain ⟨on, same, current, carries⟩ := waits d
    refine ⟨?_, (offers_eq _ _).symm.trans same⟩
    by_contra taken
    exact never ⟨t + d, later, on, current, carries, taken⟩
  rw [Offered.some, Bool.or_eq_true, Bool.or_eq_true, Bool.or_eq_true, Bool.or_eq_true] at some
  rcases some with (((ar | r) | aw) | w) | b
  · obtain ⟨u, later, answered⟩ := answers.ar t ar
    obtain ⟨refused, same⟩ := silent u later
    exact absurd ((refused.ar ((congrArg Offered.ar same).trans ar)).symm.trans answered) Bool.false_ne_true
  · obtain ⟨u, later, answered⟩ := answers.r t r
    obtain ⟨refused, same⟩ := silent u later
    exact absurd ((refused.read ((congrArg Offered.r same).trans r)).symm.trans answered) Bool.false_ne_true
  · obtain ⟨u, later, answered⟩ := answers.aw t aw
    obtain ⟨refused, same⟩ := silent u later
    exact absurd ((refused.aw ((congrArg Offered.aw same).trans aw)).symm.trans answered) Bool.false_ne_true
  · obtain ⟨u, later, answered⟩ := answers.w t w
    obtain ⟨refused, same⟩ := silent u later
    exact absurd ((refused.w ((congrArg Offered.w same).trans w)).symm.trans answered) Bool.false_ne_true
  · obtain ⟨u, later, answered⟩ := answers.b t b
    obtain ⟨refused, same⟩ := silent u later
    exact absurd ((refused.b ((congrArg Offered.b same).trans b)).symm.trans answered) Bool.false_ne_true

/-- After at most two cycles the engine offers something. -/
theorem Answers.some_offered (answers : Answers inputs) {t : Nat}
    (running : (states inputs t).running) :
    ∃ u, t ≤ u ∧ (states inputs u).running ∧
      (states inputs u).current = (states inputs t).current ∧
      Carries (states inputs t) (states inputs u) ∧ (states inputs u).offers.some = true := by
  cases first : (states inputs t).offers.some with
  | true => exact ⟨t, Nat.le_refl t, running, rfl, Carries.refl _, first⟩
  | false =>
      obtain ⟨after, current, offers | ⟨-, store⟩⟩ :=
        (answers.inv t).stage.goes (i := inputs t) running first
      · exact ⟨t + 1, Nat.le_succ t, after, current, carries_next running after, offers⟩
      · cases second : (states inputs (t + 1)).offers.some with
        | true => exact ⟨t + 1, Nat.le_succ t, after, current, carries_next running after, second⟩
        | false =>
            obtain ⟨later, same, offers | ⟨load, -⟩⟩ :=
              (answers.inv (t + 1)).stage.goes (i := inputs (t + 1)) after second
            · exact ⟨t + 2, Nat.le_add_right t 2, later, same.trans current,
                (carries_next running after).trans (carries_next after later), offers⟩
            · exact Ctrl.noConfusion (store.symm.trans load)

/-- A running transfer ends, or more of it is moved. -/
theorem Answers.advances (answers : Answers inputs) {t : Nat}
    (running : (states inputs t).running) :
    (∃ u, t ≤ u ∧ (states inputs u).running ∧ Carries (states inputs t) (states inputs u) ∧
      (states inputs u).ends (inputs u) = true) ∨
    ∃ u, t ≤ u ∧ (states inputs u).running ∧ Carries (states inputs t) (states inputs u) ∧
      (states inputs t).current.count < (states inputs u).current.count := by
  obtain ⟨u, first, on, current, carries, some⟩ := answers.some_offered running
  obtain ⟨v, second, still, same, carries', taken⟩ := answers.some_taken on some
  have later := Nat.le_trans first second
  have carried := carries.trans carries'
  rcases (answers.inv v).stage.takes still taken with ends | ⟨after, more⟩
  · exact Or.inl ⟨v, later, still, carried, ends⟩
  · refine Or.inr ⟨v + 1, Nat.le_succ_of_le later, after,
      carried.trans (carries_next still after), ?_⟩
    rw [← current, ← same]
    exact more

/-- A running transfer ends. The induction is on what is left to be moved. -/
theorem Answers.ends (answers : Answers inputs) (left : Nat) {t : Nat}
    (running : (states inputs t).running)
    (bound : 2 * (states inputs t).engine.length.toNat + 4 ≤
      (states inputs t).current.count + left) :
    ∃ u, t ≤ u ∧ (states inputs u).running ∧ Carries (states inputs t) (states inputs u) ∧
      (states inputs u).ends (inputs u) = true := by
  induction left generalizing t with
  | zero =>
      rcases answers.advances running with done | ⟨u, -, on, carries, more⟩
      · exact done
      · have most := (answers.inv u).stage.count_le on
        rw [carries.length] at most
        omega
  | succ left ih =>
      rcases answers.advances running with done | ⟨u, later, on, carries, more⟩
      · exact done
      · obtain ⟨v, after, still, carries', ends⟩ := ih on (by rw [carries.length]; omega)
        exact ⟨v, Nat.le_trans later after, still, carries.trans carries', ends⟩

end Endless

end Progress

/-- In every run the transfers that are reported have copied their words, the last one is reported
after its response, and a second one starts only after a cycle in which `CTRL_DONE` is reported and
the saved command clears it. Where the slave answers what is offered, every start is reported. -/
theorem dma_copies :
    (∀ inputs : List SystemInput, system.Legal Contract system.reset inputs →
      Reports (system.run inputs)) ∧
    ∀ inputs : Nat → SystemInput, Answers inputs → ∀ t, (states inputs t).begins = true →
      ∃ u, t < u ∧ (states inputs u).engine.ctrl = .done ∧
        ∃ transfer, (states inputs u).past = transfer :: (states inputs t).past ∧
          transfer.source = (states inputs t).regs.sourceAddr ∧
          transfer.dest = (states inputs t).regs.destAddr ∧
          transfer.length = (states inputs t).regs.length ∧ Copies transfer := by
  constructor
  · intro inputs legal
    exact (inv_run legal).reports
  · intro inputs answers t begins
    have current : (states inputs (t + 1)).current = (states inputs t).begun := by
      show (if (states inputs t).begins then _ else _) = _
      rw [begins]
      rfl
    have idle : (states inputs t).engine.ctrl = .idle := by
      rw [System.begins, Bool.and_eq_true, beq_iff_eq] at begins
      exact begins.1
    have ctrl : (states inputs (t + 1)).engine.ctrl = .startLoad := by
      rw [System.begins, Bool.and_eq_true] at begins
      show nextCtrl (states inputs t).engine _ = _
      rw [nextCtrl, idle, begins.2]
      rfl
    have running : (states inputs (t + 1)).running := by
      rw [System.running, ctrl]
      simp
    have past : (states inputs (t + 1)).past = (states inputs t).past := by
      show (if (states inputs t).ends (inputs t) then _ else _) = _
      rw [System.ends, idle]
      rfl
    obtain ⟨u, later, on, carries, ends⟩ := answers.ends _ running (Nat.le_add_left _ _)
    have done : (states inputs (u + 1)).engine.ctrl = .done := by
      rw [System.ends, Bool.and_eq_true, beq_iff_eq, beq_iff_eq] at ends
      exact ends.2
    refine ⟨u + 1, Nat.lt_succ_of_le (Nat.le_of_succ_le later), done,
      (states inputs u).moved (inputs u), ?_, ?_, ?_, ?_, (answers.inv u).stage.copies ends⟩
    · show (if (states inputs u).ends (inputs u) then _ else _) = _
      rw [ends, ← past, ← carries.past]
      rfl
    · show (states inputs u).current.source = _
      rw [carries.source, current]
      rfl
    · show (states inputs u).current.dest = _
      rw [carries.dest, current]
      rfl
    · show (states inputs u).current.length = _
      rw [carries.current, current]
      rfl

/-- Software starts one transfer of four words, and the slave takes and answers everything at once. -/
def burst (t : Nat) : SystemInput where
  write :=
    if t = 0 then some ⟨1, 3⟩ else if t = 1 then some ⟨2, 0x80000fe0⟩
    else if t = 2 then some ⟨3, 0x80002000⟩ else if t = 3 then some ⟨0, 1⟩ else none
  resp :=
    { awReady := true, arReady := true, wReady := true, bValid := true, rValid := true
      rLast := decide (t = 11), rData := BitVec.ofNat 64 t }

theorem burst_rests (d : Nat) :
    (states burst (19 + d)).engine.ctrl = .done ∧
      (states burst (19 + d)).engine.adapter.state = .idle ∧
      (states burst (19 + d)).engine.request.req = false ∧
      clrDone (states burst (19 + d)).engine = false ∧
      (states burst (19 + d)).regs.config = 1 := by
  induction d with
  | zero => decide
  | succ d ih =>
      obtain ⟨ctrl, state, none, uncleared, config⟩ := ih
      have rest := axiFsm_idle (r := (burst (19 + d)).resp) state none
      have saves : saves (states burst (19 + d)).engine = true := by
        rw [Dma.saves, ctrl]
        rfl
      have unwritten : (burst (19 + d)).write = Option.none := by
        rw [burst, if_neg (by omega), if_neg (by omega), if_neg (by omega), if_neg (by omega)]
      refine ⟨?_, ?_, ?_, ?_, ?_⟩
      · show nextCtrl (states burst (19 + d)).engine _ = _
        rw [nextCtrl, ctrl, uncleared]
        rfl
      · exact (congrArg AdapterOutput.state rest).trans state
      · show (nextRequest (states burst (19 + d)).engine).req = _
        rw [nextRequest, ctrl]
        exact none
      · show (if Dma.saves (states burst (19 + d)).engine then
          (states burst (19 + d)).regs.config else _).getLsbD 1 = false
        rw [saves, if_pos rfl, config]
        rfl
      · show ((states burst (19 + d)).regs.next (burst (19 + d)).write).config = _
        rw [unwritten]
        exact config

theorem burst_silent {t : Nat} (later : 19 ≤ t) :
    (states burst t).engine.ctrl = .done ∧
      (states burst t).offers = ⟨false, false, false, false, false⟩ := by
  obtain ⟨d, rfl⟩ := Nat.exists_eq_add_of_le later
  obtain ⟨ctrl, state, none, -⟩ := burst_rests d
  refine ⟨ctrl, ?_⟩
  rw [System.offers, state, none]
  rfl

theorem burst_answers : Answers burst := by
  have legal (t : Nat) : Contract (states burst t) (burst t) := by
    by_cases late : t < 19
    · have early : ∀ t < 19, Contract (states burst t) (burst t) := by decide
      exact early t late
    · obtain ⟨ctrl, offers⟩ := burst_silent (Nat.le_of_not_lt late)
      have silent : ((states burst t).output (burst t)).axi.rReady = false :=
        congrArg Offered.r ((offers_eq _ _).symm.trans offers)
      constructor
      · rw [System.begins, ctrl]
        simp
      · rw [silent]
        simp
      · rw [silent]
        simp
  exact ⟨legal, fun t _ => ⟨t, Nat.le_refl t, rfl⟩, fun t _ => ⟨t, Nat.le_refl t, rfl⟩,
    fun t _ => ⟨t, Nat.le_refl t, rfl⟩, fun t _ => ⟨t, Nat.le_refl t, rfl⟩,
    fun t _ => ⟨t, Nat.le_refl t, rfl⟩⟩

theorem dma_copies_burst :
    Reports (system.run ((List.range 20).map burst)) ∧
      ∃ u, 5 < u ∧ (states burst u).engine.ctrl = .done ∧
        ∃ transfer, (states burst u).past = transfer :: (states burst 5).past ∧
          transfer.source = (states burst 5).regs.sourceAddr ∧
          transfer.dest = (states burst 5).regs.destAddr ∧
          transfer.length = (states burst 5).regs.length ∧ Copies transfer :=
  ⟨dma_copies.1 _ (by decide), dma_copies.2 burst burst_answers 5 (by decide +kernel)⟩

/-- The slave answers every word of a transfer at once. -/
def answered (t : Nat) : AxiResp :=
  match t with
  | 4 => { arReady := true }
  | 5 => { rValid := true, rLast := true, rData := 7 }
  | 8 => { awReady := true, wReady := true }
  | 9 => { bValid := true }
  | _ => {}

/-- Software takes `CLR_DONE` back while the first transfer runs. -/
def takenBack (t : Nat) : SystemInput where
  write := if t = 0 then some ⟨0, 3⟩ else if t = 5 then some ⟨0, 1⟩ else none
  resp := answered t

/-- A second transfer starts although the configuration register did not have `CLR_DONE` in any
cycle in which `CTRL_DONE` was reported. -/
theorem starts_uncleared :
    ¬ ∀ inputs : List SystemInput, system.Legal Contract system.reset inputs →
      2 ≤ (system.run inputs).starts →
        ∃ k < inputs.length, (system.run (inputs.take k)).engine.ctrl = .done ∧
          (system.run (inputs.take k)).regs.config.getLsbD 1 = true := by
  intro clears
  obtain ⟨k, short, done, cleared⟩ :=
    clears ((List.range 12).map takenBack) (by decide) (by decide)
  have never : ∀ k < 12, (system.run (((List.range 12).map takenBack).take k)).engine.ctrl = .done →
      (system.run (((List.range 12).map takenBack).take k)).regs.config.getLsbD 1 = false := by
    decide
  exact absurd ((never k short done).symm.trans cleared) Bool.false_ne_true

end Ariane.Dma
