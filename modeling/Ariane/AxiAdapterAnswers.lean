import Ariane.AxiAdapterLines

set_option autoImplicit false

/- Every request to the cache line adapter is granted and answered where the slave takes what is
offered. -/
namespace Ariane.AxiAdapter

open Rtl (Machine)

variable {p : Params} (inputs : Nat → Input p)

/-- The outputs in cycle `t`. -/
def outputAt (t : Nat) : Output p := (states inputs t).output (inputs t)

/-- What is offered is taken, and what is waited for comes, some time. -/
structure Answers : Prop where
  aw : ∀ t, (outputAt inputs t).awValid = true → ∃ u, t ≤ u ∧ (inputs u).awReady = true
  w : ∀ t, (outputAt inputs t).wValid = true → ∃ u, t ≤ u ∧ (inputs u).wReady = true
  b : ∀ t, (outputAt inputs t).bReady = true → ∃ u, t ≤ u ∧ (inputs u).bValid = true
  ar : ∀ t, (outputAt inputs t).arValid = true → ∃ u, t ≤ u ∧ (inputs u).arReady = true
  r : ∀ t, (outputAt inputs t).rReady = true → ∃ u, t ≤ u ∧ (inputs u).rValid = true

/-- There is a response from cycle `t` on. -/
def Responds (t : Nat) : Prop := ∃ u, t ≤ u ∧ (outputAt inputs u).valid = true

variable {inputs}

theorem states_succ (t : Nat) : states inputs (t + 1) = (states inputs t).next (inputs t) := rfl

theorem Responds.earlier {t u : Nat} (responds : Responds inputs u) (later : t ≤ u) :
    Responds inputs t := by
  obtain ⟨v, after, valid⟩ := responds
  exact ⟨v, by omega, valid⟩

section Write

variable {r : Request p} {sent : Bool} {k t : Nat}

theorem InWrite.asks (legal : Legal inputs) (write : InWrite r sent k (states inputs t)) :
    (states inputs t).regs.state ≠ .waitBValid → (inputs t).req = true ∧ (inputs t).request = r :=
  fun busy => (legal t).held r (write.pending busy)

theorem InWrite.cycle (legal : Legal inputs) (write : InWrite r sent k (states inputs t)) :
    WriteCycle r (inputs t) sent k (outputAt inputs t) :=
  write.sending.cycle (write.asks legal) write.we write.wide

theorem InWrite.next (legal : Legal inputs) (write : InWrite r sent k (states inputs t))
    (none : (outputAt inputs t).valid = false) :
    InWrite r (sent || (inputs t).awReady) (sentAfter r (inputs t) k) (states inputs (t + 1)) :=
  (write_step write.we write.wide write.sending (write.asks legal) write.log (legal t)).2.2 none

theorem InWrite.answered (legal : Legal inputs) (answers : Answers inputs)
    (write : InWrite r sent k (states inputs t)) (all : allSent r sent k = true) :
    Responds inputs t := by
  have waits : (outputAt inputs t).bReady = true := (write.cycle legal).bReady.trans all
  obtain ⟨u, later, answer⟩ := answers.b t waits
  have sent' : sent = true ∧ k = r.count := by
    rw [allSent, Bool.and_eq_true, decide_eq_true_iff] at all
    exact all
  obtain ⟨v, after, still, answer⟩ := @Machine.wait_until (fun v => (inputs v).bValid = true)
    (fun v => InWrite r sent k (states inputs v)) t u write later answer (by
      intro v _ still none
      have valid := (still.cycle legal).valid
      rw [Bool.eq_false_iff.mpr none, Bool.and_false] at valid
      have goes := still.next legal valid
      rw [sent'.1, sent'.2, Bool.true_or, sentAfter_of_count] at goes
      rw [sent'.1, sent'.2]
      exact goes)
  refine ⟨v, after, ?_⟩
  rw [(still.cycle legal).valid, all, answer]
  rfl

/-- The address and the words that are still to be sent. -/
def toSend (r : Request p) (sent : Bool) (k : Nat) : Nat :=
  r.count - k + if sent then 0 else 1

/-- Some of what is still to be sent is taken. -/
theorem InWrite.advances (legal : Legal inputs) (answers : Answers inputs)
    (write : InWrite r sent k (states inputs t)) (short : allSent r sent k = false) :
    ∃ v sent' k', t ≤ v ∧ InWrite r sent' k' (states inputs v) ∧
      toSend r sent' k' < toSend r sent k := by
  have cycle := write.cycle legal
  have le := write.sending.le
  have fires : ∃ u, t ≤ u ∧ (sent = false ∧ (inputs u).awReady = true ∨
      k < r.count ∧ (inputs u).wReady = true) := by
    by_cases unsent : sent = false
    · obtain ⟨u, later, ready⟩ := answers.aw t (by rw [cycle.awValid, unsent]; rfl)
      exact ⟨u, later, .inl ⟨unsent, ready⟩⟩
    · rw [Bool.not_eq_false] at unsent
      rw [allSent, unsent, Bool.true_and, decide_eq_false_iff_not] at short
      have more : k < r.count := by omega
      obtain ⟨u, later, ready⟩ := answers.w t (by rw [cycle.wValid]; exact decide_eq_true more)
      exact ⟨u, later, .inr ⟨more, ready⟩⟩
  obtain ⟨u, later, fires⟩ := fires
  obtain ⟨v, after, still, fires⟩ := @Machine.wait_until
    (fun v => sent = false ∧ (inputs v).awReady = true ∨ k < r.count ∧ (inputs v).wReady = true)
    (fun v => InWrite r sent k (states inputs v)) t u write later fires (by
      intro v _ still none
      obtain ⟨noAddress, noWord⟩ := not_or.mp none
      have valid := (still.cycle legal).valid
      rw [short, Bool.false_and] at valid
      have goes := still.next legal valid
      have same : (sent || (inputs v).awReady) = sent := by
        cases sent with
        | true => rfl
        | false =>
            cases ready : (inputs v).awReady with
            | false => rfl
            | true => exact absurd ⟨rfl, ready⟩ noAddress
      rw [same, sentAfter_same noWord] at goes
      exact goes)
  have valid := (still.cycle legal).valid
  rw [short, Bool.false_and] at valid
  refine ⟨v + 1, _, _, by omega, still.next legal valid, ?_⟩
  rw [toSend, toSend, sentAfter]
  rcases fires with ⟨unsent, ready⟩ | ⟨more, ready⟩
  · rw [unsent, ready]
    simp only [Bool.or_true, ↓reduceIte, Bool.false_eq_true]
    omega
  · rw [if_pos ⟨more, ready⟩]
    cases sent <;> cases (inputs v).awReady <;>
      simp only [Bool.or_true, Bool.or_false, ↓reduceIte, Bool.false_eq_true] <;> omega

theorem InWrite.responds (legal : Legal inputs) (answers : Answers inputs)
    (write : InWrite r sent k (states inputs t)) : Responds inputs t := by
  induction left : toSend r sent k using Nat.strongRecOn generalizing t sent k with
  | ind left ih =>
      subst left
      cases all : allSent r sent k with
      | true => exact write.answered legal answers all
      | false =>
          obtain ⟨v, sent', k', after, further, fewer⟩ := write.advances legal answers all
          exact (ih _ fewer further rfl).earlier after

end Write

section Read

variable {r : Request p} {t : Nat} (fits : p.wordBits ≤ 8)

include fits

theorem ReadDone.responds (done : ReadDone r (states inputs t)) : Responds inputs t :=
  ⟨t, Nat.le_refl t, (done.step fits).2.1⟩

theorem InRead.advances (legal : Legal inputs) (answers : Answers inputs)
    (read : InRead r (states inputs t)) :
    ∃ v, t ≤ v ∧ (ReadDone r (states inputs v) ∨
      InRead r (states inputs v) ∧
        (states inputs t).log.words.length < (states inputs v).log.words.length) := by
  have ready : (outputAt inputs t).rReady = true := by
    have fsm : outputAt inputs t = waitRead (states inputs t).regs (inputs t) := read.reading.fsm
    rw [fsm]
    exact (waitRead_offers _ _).2.2.2.1
  obtain ⟨u, later, word⟩ := answers.r t ready
  obtain ⟨v, after, ⟨still, same⟩, word⟩ := @Machine.wait_until
    (fun v => (inputs v).rValid = true)
    (fun v => InRead r (states inputs v) ∧
      (states inputs v).log.words = (states inputs t).log.words) t u ⟨read, rfl⟩ later word (by
      rintro v - ⟨still, same⟩ none
      obtain ⟨-, words, goes⟩ := still.step fits (legal v)
      rw [if_neg fun both => none both.1] at goes
      rw [if_neg none, List.append_nil] at words
      exact ⟨goes, words.trans same⟩)
  obtain ⟨-, words, goes⟩ := still.step fits (legal v)
  refine ⟨v + 1, by omega, ?_⟩
  split at goes
  · exact .inl goes
  · refine .inr ⟨goes, ?_⟩
    rw [states_succ, words, word, if_pos rfl, same, List.length_append, List.length_singleton]
    omega

theorem InRead.responds (legal : Legal inputs) (answers : Answers inputs)
    (read : InRead r (states inputs t)) : Responds inputs t := by
  induction left : r.count - (states inputs t).log.words.length using Nat.strongRecOn
    generalizing t with
  | ind left ih =>
      subst left
      have due := read.reading.due
      obtain ⟨v, after, done | ⟨further, more⟩⟩ := read.advances fits legal answers
      · exact (done.responds fits).earlier after
      · exact (ih _ (by omega) further rfl).earlier after

end Read

theorem state_of_valid {q : Regs p} {i : Input p} (valid : (axiFsm q i).valid = true) :
    q.state = .waitBValid ∨ q.state = .completeRead := by
  cases state : q.state with
  | waitBValid => exact .inl rfl
  | completeRead => exact .inr rfl
  | idle =>
      rw [axiFsm, state] at valid
      cases req : i.req <;> cases we : i.request.we <;> cases single : i.request.single <;>
        simp [req, we, single, idleWrite, idleRead, defaults] at valid
  | waitAwReady | waitAwReadyBurst =>
      rw [axiFsm, state] at valid
      cases ready : i.awReady <;> simp [ready, defaults] at valid
  | waitLastWReady =>
      rw [axiFsm, state, waitWords_eq] at valid
      cases valid
  | waitLastWReadyAwReady =>
      rw [axiFsm, state, waitBoth_eq] at valid
      cases valid
  | waitRValid | waitRValidMultiple =>
      rw [axiFsm, state] at valid
      exact absurd ((waitRead_offers q i).2.2.2.2.2.symm.trans valid) Bool.false_ne_true

theorem gnt_of_valid {q : Regs p} {i : Input p} (valid : (axiFsm q i).valid = true) :
    (axiFsm q i).gnt = false := by
  rcases state_of_valid valid with state | state
  · rw [axiFsm, state]
    cases i.bValid <;> rfl
  · rw [axiFsm, state]
    rfl

section Request

variable {t : Nat} (fits : p.wordBits ≤ 8)

include fits

/-- A request at an idle adapter is answered. -/
theorem Idle.responds (legal : Legal inputs) (answers : Answers inputs)
    (idle : Idle (states inputs t)) (req : (inputs t).req = true) : Responds inputs t := by
  cases we : (inputs t).request.we with
  | true =>
      obtain ⟨-, write⟩ := idle.write_step req we (legal t)
      exact (InWrite.responds legal answers (t := t + 1) write).earlier (Nat.le_succ t)
  | false =>
      have offered : (outputAt inputs t).arValid = true := by
        show (axiFsm (states inputs t).regs (inputs t)).arValid = true
        rw [axiFsm, idle.state, req, we]
        rfl
      obtain ⟨u, later, ready⟩ := answers.ar t offered
      obtain ⟨v, after, ⟨idle, asks, same⟩, ready⟩ := @Machine.wait_until
        (fun v => (inputs v).arReady = true)
        (fun v => Idle (states inputs v) ∧ (inputs v).req = true ∧
          (inputs v).request = (inputs t).request) t u ⟨idle, req, rfl⟩ later ready (by
          rintro v - ⟨idle, asks, same⟩ late
          have reads : (inputs v).request.we = false := by rw [same, we]
          obtain ⟨-, -, waits⟩ := idle.read_step asks reads (legal v)
          obtain ⟨idle', pending⟩ := waits (Bool.eq_false_iff.mpr late)
          obtain ⟨asks', same'⟩ := (legal (v + 1)).held _ pending
          exact ⟨idle', asks', same'.trans same⟩)
      have reads : (inputs v).request.we = false := by rw [same, we]
      obtain ⟨-, taken, -⟩ := idle.read_step asks reads (legal v)
      exact (InRead.responds fits legal answers (t := v + 1) (taken ready)).earlier (by omega)

/-- A response comes as long as something is asked or served. -/
theorem responds (legal : Legal inputs) (answers : Answers inputs)
    (busy : (inputs t).req = true ∨ (states inputs t).log.granted ≠ []) : Responds inputs t := by
  cases phase_run fits legal t with
  | idle idle =>
      rcases busy with req | served
      · exact idle.responds fits legal answers req
      · rw [idle.log] at served
        exact absurd rfl served
  | write r sent k write => exact write.responds legal answers
  | read r read => exact read.responds fits legal answers
  | complete r done => exact done.responds fits

/-- What was granted stays so until the response. -/
theorem answered_granted (legal : Legal inputs) (answers : Answers inputs) {r : Request p}
    (granted : (states inputs t).log.granted = [r]) :
    ∃ u, t ≤ u ∧ (outputAt inputs u).valid = true ∧ (states inputs u).log.granted = [r] := by
  obtain ⟨u, later, valid⟩ := responds fits legal answers
    (.inr (by rw [granted]; exact List.cons_ne_nil _ _) : _ ∨ (states inputs t).log.granted ≠ [])
  obtain ⟨v, after, still, valid⟩ := @Machine.wait_until
    (fun v => (outputAt inputs v).valid = true)
    (fun v => (states inputs v).log.granted = [r]) t u granted later valid (by
      intro v _ still none
      have logged := next_log (s := states inputs v) (i := inputs v) (Bool.eq_false_iff.mpr none)
      have silent : ¬(outputAt inputs v).gnt = true := by
        intro gnt
        have first := ((law_run fits legal v).grant gnt).2
        rw [still] at first
        cases first
      rw [states_succ, logged]
      show (states inputs v).log.granted ++ (if (outputAt inputs v).gnt = true then _ else _) = _
      rw [if_neg silent, List.append_nil, still])
  exact ⟨v, after, valid, still⟩

/-- After a grant comes the response to it. -/
theorem answered (legal : Legal inputs) (answers : Answers inputs)
    (gnt : (outputAt inputs t).gnt = true) :
    ∃ u, t < u ∧ (outputAt inputs u).valid = true ∧
      (states inputs u).log.granted = [(inputs t).request] := by
  have first := ((law_run fits legal t).grant gnt).2
  have waits : (outputAt inputs t).valid = false := by
    rw [Bool.eq_false_iff]
    exact fun valid => absurd ((gnt_of_valid valid).symm.trans gnt) Bool.false_ne_true
  have granted : (states inputs (t + 1)).log.granted = [(inputs t).request] := by
    rw [states_succ, next_log waits]
    show (states inputs t).log.granted ++ (if (outputAt inputs t).gnt = true then _ else _) = _
    rw [gnt, first]
    rfl
  obtain ⟨u, later, valid, still⟩ := answered_granted fits legal answers granted
  exact ⟨u, by omega, valid, still⟩

omit fits in
theorem asks_again (legal : Legal inputs) (req : (inputs t).req = true)
    (none : (outputAt inputs t).gnt = false) :
    (inputs (t + 1)).req = true ∧ (inputs (t + 1)).request = (inputs t).request :=
  (legal (t + 1)).held _ (next_pending req rfl none)

/-- Some request is granted while one is made. -/
theorem some_granted (legal : Legal inputs) (answers : Answers inputs)
    (req : (inputs t).req = true) : ∃ u, t ≤ u ∧ (outputAt inputs u).gnt = true := by
  apply Classical.byContradiction
  intro never
  have none : ∀ u, t ≤ u → (outputAt inputs u).gnt = false := by
    intro u later
    rw [Bool.eq_false_iff]
    exact fun gnt => never ⟨u, later, gnt⟩
  have asks : ∀ d, (inputs (t + d)).req = true := by
    intro d
    induction d with
    | zero => exact req
    | succ d ih => exact (asks_again legal ih (none _ (Nat.le_add_right t d))).1
  -- after the response to what was served before, nothing is ever granted again
  obtain ⟨u, later, valid⟩ := responds fits legal answers
    (.inl req : _ ∨ (states inputs t).log.granted ≠ [])
  have empty : ∀ d, (states inputs (u + 1 + d)).log.granted = [] := by
    intro d
    induction d with
    | zero =>
        rw [Nat.add_zero, states_succ, next_log_of_valid valid]
    | succ d ih =>
        rw [← Nat.add_assoc, states_succ]
        cases ends : (outputAt inputs (u + 1 + d)).valid with
        | true => rw [next_log_of_valid ends]
        | false =>
            rw [next_log ends]
            show (states inputs (u + 1 + d)).log.granted ++
              (if (outputAt inputs (u + 1 + d)).gnt = true then _ else _) = _
            rw [ih, none _ (by omega)]
            rfl
  have still : (inputs (u + 1)).req = true := by
    have at' := asks (u + 1 - t)
    rw [Nat.add_sub_cancel' (by omega)] at at'
    exact at'
  obtain ⟨v, after, ends⟩ := responds fits legal answers
    (.inl still : _ ∨ (states inputs (u + 1)).log.granted ≠ [])
  obtain ⟨r, granted, -⟩ := (law_run fits legal v).response ends
  have silent : (states inputs v).log.granted = [] := by
    have at' := empty (v - (u + 1))
    rw [Nat.add_sub_cancel' after] at at'
    exact at'
  have granted : (states inputs v).log.granted ++
      (if (outputAt inputs v).gnt = true then [(inputs v).request] else []) = [r] := granted
  rw [silent, none v (by omega)] at granted
  cases granted

theorem granted (legal : Legal inputs) (answers : Answers inputs) (req : (inputs t).req = true) :
    ∃ u, t ≤ u ∧ (outputAt inputs u).gnt = true ∧ (inputs u).request = (inputs t).request := by
  obtain ⟨u, later, gnt⟩ := some_granted fits legal answers req
  obtain ⟨v, after, ⟨-, same⟩, gnt⟩ := @Machine.wait_until
    (fun v => (outputAt inputs v).gnt = true)
    (fun v => (inputs v).req = true ∧ (inputs v).request = (inputs t).request) t u ⟨req, rfl⟩ later
    gnt (by
      rintro v - ⟨asks, same⟩ none
      obtain ⟨asks', same'⟩ := asks_again legal asks (Bool.eq_false_iff.mpr none)
      exact ⟨asks', same'.trans same⟩)
  exact ⟨v, after, gnt, same⟩

end Request

/-- Up to the longest burst of the bus, every access follows the law; every request is granted as it
was made, and answered after that, where the slave answers. -/
theorem lines_transferred (fits : p.wordBits ≤ 8) (legal : Legal inputs) :
    (∀ t, Law (states inputs t) (inputs t)) ∧
      (Answers inputs → ∀ t,
        ((inputs t).req = true → ∃ u, t ≤ u ∧ (outputAt inputs u).gnt = true ∧
          (inputs u).request = (inputs t).request) ∧
        ((outputAt inputs t).gnt = true → ∃ u, t < u ∧ (outputAt inputs u).valid = true ∧
          (states inputs u).log.granted = [(inputs t).request])) :=
  ⟨law_run fits legal, fun answers _ =>
    ⟨granted fits legal answers, answered fits legal answers⟩⟩

/-- A write of a line of two words, to a slave that is always ready. -/
def shortWrite (t : Nat) : Input ⟨1, false, 1, 4⟩ where
  req := decide (t < 2)
  request :=
    { single := false
      addr := 64
      we := true
      wdata := fun k => BitVec.ofNat 64 k.val
      be := fun _ => 0xff
      size := 3
      id := 1 }
  awReady := true
  wReady := true
  bValid := decide (t = 2)
  bId := 1

theorem shortWrite_quiet (t : Nat) : shortWrite (t + 4) = shortWrite 4 := by
  simp only [shortWrite, show ¬ t + 4 < 2 by omega, show ¬ t + 4 = 2 by omega]
  rfl

theorem shortWrite_ends (t : Nat) : states shortWrite (t + 4) = states shortWrite 4 := by
  induction t with
  | zero => rfl
  | succ t ih =>
      show (states shortWrite (t + 4)).next (shortWrite (t + 4)) = _
      rw [ih, shortWrite_quiet]
      rfl

/-- Every cycle is like one of the first five. -/
theorem shortWrite_cases (t : Nat) :
    t < 4 ∨ states shortWrite t = states shortWrite 4 ∧ shortWrite t = shortWrite 4 := by
  by_cases early : t < 4
  · exact .inl early
  · obtain ⟨d, rfl⟩ := Nat.exists_eq_add_of_le' (Nat.le_of_not_lt early)
    exact .inr ⟨shortWrite_ends d, shortWrite_quiet d⟩

theorem shortWrite_held (t : Nat) : Contract (states shortWrite t) (shortWrite t) := by
  have line : ∀ t, (shortWrite t).req = true → (shortWrite t).request.single = false → 0 < 1 :=
    fun _ _ _ => Nat.one_pos
  have none : ∀ r, (none : Option (Request ⟨1, false, 1, 4⟩)) ≠ some r :=
    fun r => (Option.some_ne_none r).symm
  rcases shortWrite_cases t with early | ⟨state, input⟩
  · have first : t = 0 ∨ t = 1 ∨ t = 2 ∨ t = 3 := by omega
    rcases first with rfl | rfl | rfl | rfl
    · exact ⟨⟨Bool.noConfusion, Bool.noConfusion⟩, fun r held => absurd held (none r), line 0⟩
    · exact ⟨⟨Bool.noConfusion, Bool.noConfusion⟩,
        fun r held => ⟨rfl, Option.some.inj held⟩, line 1⟩
    · exact ⟨⟨fun _ => ⟨_, rfl, rfl⟩, Bool.noConfusion⟩,
        fun r held => absurd held (none r), line 2⟩
    · exact ⟨⟨Bool.noConfusion, Bool.noConfusion⟩, fun r held => absurd held (none r), line 3⟩
  · rw [state, input]
    exact ⟨⟨Bool.noConfusion, Bool.noConfusion⟩, fun r held => absurd held (none r), line 4⟩

/-- The write has no use for the read channel, and waits for its response in cycle 2. -/
theorem shortWrite_output (t : Nat) :
    (outputAt shortWrite t).arValid = false ∧ (outputAt shortWrite t).rReady = false ∧
      ((outputAt shortWrite t).bReady = true → t = 2) := by
  rcases shortWrite_cases t with early | ⟨state, input⟩
  · have first : t = 0 ∨ t = 1 ∨ t = 2 ∨ t = 3 := by omega
    rcases first with rfl | rfl | rfl | rfl
    · exact ⟨rfl, rfl, Bool.noConfusion⟩
    · exact ⟨rfl, rfl, Bool.noConfusion⟩
    · exact ⟨rfl, rfl, fun _ => rfl⟩
    · exact ⟨rfl, rfl, Bool.noConfusion⟩
  · rw [outputAt, state, input]
    exact ⟨rfl, rfl, Bool.noConfusion⟩

theorem shortWrite_answers : Answers shortWrite := by
  refine ⟨fun t _ => ⟨t, Nat.le_refl t, rfl⟩, fun t _ => ⟨t, Nat.le_refl t, rfl⟩, ?_, ?_, ?_⟩
  · intro t waits
    rw [(shortWrite_output t).2.2 waits]
    exact ⟨2, Nat.le_refl 2, rfl⟩
  · intro t asks
    exact absurd ((shortWrite_output t).1.symm.trans asks) Bool.false_ne_true
  · intro t waits
    exact absurd ((shortWrite_output t).2.1.symm.trans waits) Bool.false_ne_true

/-- The line is written, granted and answered. -/
theorem shortWrite_transferred :
    Law (states shortWrite 2) (shortWrite 2) ∧
      ∃ u, 0 ≤ u ∧ (outputAt shortWrite u).gnt = true ∧
        (shortWrite u).request = (shortWrite 0).request := by
  obtain ⟨law, serves⟩ :=
    lines_transferred (show (⟨1, false, 1, 4⟩ : Params).wordBits ≤ 8 by decide) shortWrite_held
  exact ⟨law 2, (serves shortWrite_answers 0).1 rfl⟩

end Ariane.AxiAdapter
