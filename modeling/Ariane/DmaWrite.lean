import Ariane.DmaRead

set_option autoImplicit false

/- The cycles of the DMA engine in which the buffer is written, for every order in which the slave
takes the address and the words. -/
namespace Ariane.Dma

section Cycle

variable {s : System} {i : SystemInput}

/-- What every cycle of the write keeps. -/
theorem Buffered.next (buffered : Buffered s) (busy : s.engine.ctrl ≠ .idle)
    (running : s.engine.ctrl ≠ .done)
    (reads : (s.moved i).reads = s.current.reads) (read : (s.moved i).read = s.current.read)
    (responses : (s.moved i).responses = s.current.responses)
    (memory : (s.output i).memWen = false) : Buffered (s.next i) := by
  have current := next_current (i := i) busy
  obtain ⟨length, source, dest⟩ := next_saved (i := i) busy running
  have kept : (s.next i).engine.adapter.mem = s.engine.adapter.mem := by
    show (if (s.output i).memWen then _ else s.engine.adapter.mem) = _
    rw [memory]
    rfl
  constructor
  · rw [current, reads, buffered.reads, command, command, source, length, burstLength, burstLength,
      length]
  · rw [current, read, length]
    exact buffered.read
  · rw [current, responses]
    exact buffered.responses
  · rw [Stored, current, read, kept]
    exact buffered.stored

/-- The word of index `k`, as it is sent. -/
def beat (words : List (BitVec 64)) (n k : Nat) : AxiBeat := ⟨words.getD k 0, 0xff, decide (k = n)⟩

theorem beats_succ (words : List (BitVec 64)) (n k : Nat) :
    beats words n (k + 1) = beats words n k ++ [beat words n k] := by
  rw [beats, List.range_succ, List.map_append]
  rfl

/-- What the adapter offers while it writes: the address, the word `k`, or both. -/
structure Offers (s : System) (i : SystemInput) (address word : Bool) (k : Nat) : Prop where
  arValid : (s.output i).axi.arValid = false
  rReady : (s.output i).axi.rReady = false
  bReady : (s.output i).axi.bReady = false
  memWen : (s.output i).memWen = false
  awValid : (s.output i).axi.awValid = address
  aw : address = true → (s.output i).axi.aw = command s.engine s.engine.destAddr
  wValid : (s.output i).axi.wValid = word
  w : word = true → (s.output i).axi.w = beat s.current.read s.engine.length.toNat k

section Offers

variable {address word : Bool} {k : Nat}

theorem Offers.writes (offers : Offers s i address word k) :
    (s.moved i).writes = s.current.writes ++
      if address && i.resp.awReady then [command s.engine s.engine.destAddr] else [] := by
  show s.current.writes ++ (if (s.output i).axi.awValid && i.resp.awReady then
    [(s.output i).axi.aw] else []) = _
  rw [offers.awValid]
  cases address with
  | false => rfl
  | true => rw [offers.aw rfl]

theorem Offers.written (offers : Offers s i address word k) (sent : Sent s k) :
    (s.moved i).written =
      beats s.current.read s.engine.length.toNat
        (if word && i.resp.wReady then k + 1 else k) := by
  show s.current.written ++ (if (s.output i).axi.wValid && i.resp.wReady then
    [(s.output i).axi.w] else []) = _
  rw [offers.wValid, sent]
  cases word with
  | false => exact List.append_nil _
  | true =>
      rw [offers.w rfl, Bool.true_and]
      cases i.resp.wReady with
      | false => exact List.append_nil _
      | true => exact (beats_succ ..).symm

theorem Offers.reads (offers : Offers s i address word k) :
    (s.moved i).reads = s.current.reads := by
  show s.current.reads ++ (if (s.output i).axi.arValid && _ then _ else []) = _
  rw [offers.arValid]
  exact List.append_nil _

theorem Offers.read (offers : Offers s i address word k) :
    (s.moved i).read = s.current.read := by
  show s.current.read ++ (if (s.output i).axi.rReady && _ then _ else []) = _
  rw [offers.rReady]
  exact List.append_nil _

theorem Offers.responses (offers : Offers s i address word k) :
    (s.moved i).responses = s.current.responses := by
  show s.current.responses + (if (s.output i).axi.bReady && _ then _ else 0) = _
  rw [offers.bReady]
  rfl

theorem Offers.buffered (offers : Offers s i address word k)
    (ctrl : s.engine.ctrl = .startStore) (buffered : Buffered s) : Buffered (s.next i) := by
  have busy : s.engine.ctrl ≠ .idle := by simp [ctrl]
  have running : s.engine.ctrl ≠ .done := by simp [ctrl]
  exact buffered.next busy running offers.reads offers.read offers.responses offers.memWen

/-- The words and the address that are sent after the cycle. -/
theorem Offers.sent (offers : Offers s i address word k) (ctrl : s.engine.ctrl = .startStore)
    (sent : Sent s k) : Sent (s.next i) (if word && i.resp.wReady then k + 1 else k) := by
  have busy : s.engine.ctrl ≠ .idle := by simp [ctrl]
  have running : s.engine.ctrl ≠ .done := by simp [ctrl]
  rw [Sent, next_current busy, offers.written sent, offers.read, (next_saved busy running).1]

theorem Offers.command (offers : Offers s i address word k) (ctrl : s.engine.ctrl = .startStore) :
    (s.next i).current.writes = s.current.writes ++
      if address && i.resp.awReady then
        [Dma.command (s.next i).engine (s.next i).engine.destAddr] else [] := by
  have busy : s.engine.ctrl ≠ .idle := by simp [ctrl]
  have running : s.engine.ctrl ≠ .done := by simp [ctrl]
  obtain ⟨length, source, dest⟩ := next_saved (i := i) busy running
  have same : Dma.command (s.next i).engine (s.next i).engine.destAddr =
      Dma.command s.engine s.engine.destAddr := by
    rw [Dma.command, Dma.command, dest, length, burstLength, burstLength, length]
  rw [next_current busy, offers.writes, same]

end Offers

/-- The write goes on, or all of it was accepted. -/
theorem stage_startStore (ctrl : s.engine.ctrl = .startStore) (captured : Captured s)
    (buffered : Buffered (s.next i))
    (goes : (s.output i).gnt = false → Writing (s.next i))
    (ends : (s.output i).gnt = true →
      (s.output i).state = .waitBValid ∧
        (s.next i).current.writes =
          [command (s.next i).engine (s.next i).engine.destAddr] ∧
        Sent (s.next i) (s.engine.length.toNat + 1)) : Stage (s.next i) := by
  have busy : s.engine.ctrl ≠ .idle := by simp [ctrl]
  have running : s.engine.ctrl ≠ .done := by simp [ctrl]
  have later := captured.next (i := i) busy running
  obtain ⟨length, source, dest⟩ := next_saved (i := i) busy running
  have stores : storeRequest (s.next i).engine = storeRequest s.engine := by
    rw [storeRequest, storeRequest, dest, length, burstLength, burstLength, length]
  have asked : (s.next i).engine.request = storeRequest s.engine := by
    rw [next_request, nextRequest, ctrl]
    rfl
  have after : (s.next i).engine.ctrl =
      if (s.output i).gnt then .store else .startStore := by
    rw [next_ctrl, nextCtrl, ctrl]
    rfl
  cases gnt : (s.output i).gnt with
  | false =>
      rw [gnt, if_neg Bool.false_ne_true] at after
      rw [Stage, after]
      refine ⟨later, buffered, goes gnt, fun _ => asked.trans stores.symm, ?_⟩
      rw [asked]
      exact fun high => absurd high.symm Bool.false_ne_true
  | true =>
      rw [gnt, if_pos rfl] at after
      rw [Stage, after]
      obtain ⟨state, writes, sent⟩ := ends gnt
      refine ⟨later, buffered, state, writes, ?_⟩
      rw [length]
      exact sent

/-- What the buffer holds at the word that is due. -/
theorem Buffered.word (buffered : Buffered s) {k : Nat} (due : k ≤ s.engine.length.toNat) :
    s.engine.adapter.mem (BitVec.ofNat 8 k) = s.current.read.getD k 0 :=
  buffered.stored k (by rw [buffered.read]; omega)

/-- The burst offers the word that is due. -/
theorem burstBeat_eq (captured : Captured s) (buffered : Buffered s) {k : Nat}
    (request : s.engine.request = storeRequest s.engine) (due : k ≤ s.engine.length.toNat)
    (count : s.engine.adapter.cnt = burstLength s.engine - BitVec.ofNat 8 k) :
    burstBeat s.engine.adapter s.engine.request =
      beat s.current.read s.engine.length.toNat k := by
  have last : (s.engine.adapter.cnt == 0) = decide (k = s.engine.length.toNat) := by
    rw [Bool.eq_iff_iff, beq_iff_eq, decide_eq_true_iff, count,
      remaining_eq_zero captured.bounded due]
  have data : (if s.engine.request.single then s.engine.adapter.mem 0
      else s.engine.adapter.mem (s.engine.request.len - s.engine.adapter.cnt)) =
        s.current.read.getD k 0 := by
    have single : (storeRequest s.engine).single = (s.engine.length == 0) := rfl
    rw [← buffered.word due, request, count]
    by_cases zero : s.engine.length = 0
    · have first : k = 0 := by
        rw [zero] at due
        exact Nat.le_zero.mp due
      rw [if_pos (single.trans (beq_iff_eq.mpr zero)), first]
      rfl
    · rw [if_neg (fun equal => zero (beq_iff_eq.mp (single.symm.trans equal)))]
      show s.engine.adapter.mem (burstLength s.engine - _) = _
      rw [due_index]
  rw [burstBeat, data, last, request]
  rfl

/-- The first cycle of the write, with the address and the first word on the bus together. -/
theorem stage_offer (ctrl : s.engine.ctrl = .startStore) (captured : Captured s)
    (buffered : Buffered s) (state : s.engine.adapter.state = .idle)
    (writes : s.current.writes = []) (sent : Sent s 0)
    (request : s.engine.request.req = true → s.engine.request = storeRequest s.engine) :
    Stage (s.next i) := by
  cases req : s.engine.request.req with
  | false =>
      have output : s.output i = { defaultOutput s.engine.adapter s.engine.request with cnt := 0 } :=
        axiFsm_idle state req
      have offers : Offers s i false false 0 := by
        constructor <;> rw [output] <;> first | rfl | exact fun high => absurd high Bool.false_ne_true
      have gap : (s.output i).gnt = false := congrArg AdapterOutput.gnt output
      apply stage_startStore ctrl captured (offers.buffered ctrl buffered)
      · intro
        have kept : (s.next i).engine.adapter.state = .idle := by
          rw [next_state, output]
          exact state
        rw [Writing, kept]
        refine ⟨?_, offers.sent ctrl sent⟩
        rw [offers.command ctrl, writes]
        rfl
      · rw [gap]
        exact fun high => absurd high Bool.false_ne_true
  | true =>
      have registers := request req
      have busy : s.engine.ctrl ≠ .idle := by simp [ctrl]
      have running : s.engine.ctrl ≠ .done := by simp [ctrl]
      obtain ⟨length, source, dest⟩ := next_saved (i := i) busy running
      have output := axiFsm_write (r := i.resp) state req (by rw [registers]; rfl)
      have single : s.engine.request.single = (s.engine.length == 0) := by
        rw [registers]
        rfl
      have len : s.engine.request.len = burstLength s.engine := by
        rw [registers]
        rfl
      have last : s.engine.request.single = decide (0 = s.engine.length.toNat) := by
        rw [single, Bool.eq_iff_iff, beq_iff_eq, decide_eq_true_iff, ← BitVec.toNat_inj]
        exact eq_comm
      have first : (⟨s.engine.adapter.mem 0, s.engine.request.be, s.engine.request.single⟩ :
          AxiBeat) = beat s.current.read s.engine.length.toNat 0 := by
        rw [beat, ← buffered.word (Nat.zero_le _), last, registers]
        rfl
      have offers : Offers s i true true 0 := by
        constructor
        · exact congrArg (fun o => o.axi.arValid) output
        · exact congrArg (fun o => o.axi.rReady) output
        · exact congrArg (fun o => o.axi.bReady) output
        · exact congrArg AdapterOutput.memWen output
        · exact congrArg (fun o => o.axi.awValid) output
        · intro
          refine (congrArg (fun o => o.axi.aw) output).trans ?_
          show burstCommand s.engine.request = _
          rw [registers]
          exact burstCommand_eq _ rfl rfl rfl rfl
        · exact congrArg (fun o => o.axi.wValid) output
        · intro
          exact (congrArg (fun o => o.axi.w) output).trans first
      have gnt : (s.output i).gnt = (s.engine.request.single && i.resp.awReady && i.resp.wReady) :=
        congrArg AdapterOutput.gnt output
      have after : (s.output i).state =
          offeredState s.engine.request.single i.resp.awReady i.resp.wReady :=
        congrArg AdapterOutput.state output
      have count : (s.next i).engine.adapter.cnt = (if s.engine.request.single then 0
          else if i.resp.wReady then s.engine.request.len - 1 else s.engine.request.len) :=
        congrArg AdapterOutput.cnt output
      have address := offers.command ctrl
      have words := offers.sent ctrl sent
      have zero : burstLength (s.next i).engine - BitVec.ofNat 8 0 = burstLength s.engine := by
        rw [burstLength, length]
        exact BitVec.sub_zero _
      have sending : (i.resp.wReady = true → s.engine.length ≠ 0) → Sending (s.next i) := by
        intro more
        refine ⟨_, ?_, words, ?_⟩
        · rw [length, Bool.true_and]
          split
          case isTrue ready =>
            have some : s.engine.length.toNat ≠ 0 := fun equal =>
              more ready (BitVec.eq_of_toNat_eq equal)
            omega
          case isFalse => exact Nat.zero_le _
        · rw [count, single, len, Bool.true_and]
          by_cases alone : s.engine.length = 0
          · have slow : i.resp.wReady = false := by
              by_contra ready
              exact more (Bool.not_eq_false _ ▸ ready) alone
            rw [if_pos (beq_iff_eq.mpr alone), slow, if_neg Bool.false_ne_true, zero,
              burstLength_zero alone]
          · rw [if_neg (fun equal => alone (beq_iff_eq.mp equal))]
            cases i.resp.wReady with
            | false =>
                rw [if_neg Bool.false_ne_true, if_neg Bool.false_ne_true, zero]
            | true =>
                rw [if_pos rfl, if_pos rfl, ← remaining_pred, zero]
      rw [writes] at address
      apply stage_startStore ctrl captured (offers.buffered ctrl buffered)
      · intro waits
        rw [gnt, single] at waits
        rw [single] at after
        rw [Writing, next_state]
        cases addressed : i.resp.awReady with
        | false =>
            rw [addressed] at address after
            cases worded : i.resp.wReady with
            | false =>
                rw [worded] at words after
                rw [after]
                exact ⟨address, words⟩
            | true =>
                rw [worded] at words after
                by_cases alone : s.engine.length = 0
                · simp only [alone, beq_self_eq_true] at after
                  rw [after]
                  refine ⟨address, ?_, length.trans alone⟩
                  rw [length, alone]
                  exact words
                · simp only [beq_eq_false_iff_ne.mpr alone] at after
                  rw [after]
                  exact ⟨address, sending fun _ => alone⟩
        | true =>
            rw [addressed] at address after waits
            cases worded : i.resp.wReady with
            | false =>
                rw [worded] at after
                rw [after]
                exact ⟨address, sending fun ready => absurd (worded.symm.trans ready) Bool.false_ne_true⟩
            | true =>
                rw [worded, Bool.and_true, Bool.and_true] at waits
                rw [worded, waits] at after
                rw [after]
                exact ⟨address, sending fun _ => beq_eq_false_iff_ne.mp waits⟩
      · intro granted
        rw [gnt, Bool.and_eq_true, Bool.and_eq_true, single] at granted
        obtain ⟨⟨alone, addressed⟩, worded⟩ := granted
        rw [addressed] at address after
        rw [worded] at words after
        rw [single, alone] at after
        refine ⟨after, address, ?_⟩
        rw [beq_iff_eq.mp alone]
        exact words

/-- The words go out behind the address. -/
theorem stage_words (ctrl : s.engine.ctrl = .startStore) (captured : Captured s)
    (buffered : Buffered s) (state : s.engine.adapter.state = .waitLastWReady)
    (writes : s.current.writes = [command s.engine s.engine.destAddr]) {k : Nat}
    (due : k ≤ s.engine.length.toNat) (sent : Sent s k)
    (count : s.engine.adapter.cnt = burstLength s.engine - BitVec.ofNat 8 k)
    (request : s.engine.request = storeRequest s.engine) : Stage (s.next i) := by
  have busy : s.engine.ctrl ≠ .idle := by simp [ctrl]
  have running : s.engine.ctrl ≠ .done := by simp [ctrl]
  obtain ⟨length, source, dest⟩ := next_saved (i := i) busy running
  have output : s.output i = waitWordsState s.engine.adapter s.engine.request i.resp := by
    rw [System.output, adapterOutput, axiFsm, state]
  have final : (s.engine.adapter.cnt == 0) = decide (k = s.engine.length.toNat) := by
    rw [Bool.eq_iff_iff, beq_iff_eq, decide_eq_true_iff, count,
      remaining_eq_zero captured.bounded due]
  have offers : Offers s i false true k := by
    have word := burstBeat_eq captured buffered request due count
    constructor <;> rw [output, waitWordsState] <;>
      cases s.engine.adapter.cnt == 0 <;> cases i.resp.wReady <;>
      first | rfl | exact fun _ => word |
        exact fun high => absurd high Bool.false_ne_true
  have words := offers.sent ctrl sent
  have address : (s.next i).current.writes =
      [command (s.next i).engine (s.next i).engine.destAddr] := by
    rw [next_current busy, offers.writes, writes, command, command, dest, length, burstLength,
      burstLength, length]
    exact List.append_nil _
  apply stage_startStore ctrl captured (offers.buffered ctrl buffered)
  · intro waits
    cases ready : i.resp.wReady with
    | false =>
        rw [ready] at words
        have after : (s.next i).engine.adapter.state = .waitLastWReady := by
          rw [next_state, output, waitWordsState, ready, ← state]
          cases s.engine.adapter.cnt == 0 <;> rfl
        have same : (s.next i).engine.adapter.cnt = s.engine.adapter.cnt := by
          show (s.output i).cnt = _
          rw [output, waitWordsState, ready]
          cases s.engine.adapter.cnt == 0 <;> rfl
        rw [Writing, after]
        refine ⟨address, k, ?_, words, ?_⟩
        · rw [length]
          exact due
        · rw [same, count, burstLength, burstLength, length]
    | true =>
        rw [ready] at words
        by_cases last : k = s.engine.length.toNat
        · rw [output, waitWordsState, final, decide_eq_true last, ready] at waits
          exact absurd waits.symm Bool.false_ne_true
        · have after : (s.next i).engine.adapter.state = .waitLastWReady := by
            rw [next_state, output, waitWordsState, ready, ← state, final, decide_eq_false last]
            rfl
          have fewer : (s.next i).engine.adapter.cnt = s.engine.adapter.cnt - 1 := by
            show (s.output i).cnt = _
            rw [output, waitWordsState, ready, final, decide_eq_false last]
            rfl
          rw [Writing, after]
          refine ⟨address, k + 1, ?_, words, ?_⟩
          · rw [length]
            omega
          · rw [fewer, count, remaining_pred, burstLength, burstLength, length]
  · intro granted
    rw [output, waitWordsState, final] at granted
    by_cases last : k = s.engine.length.toNat
    · rw [decide_eq_true last] at granted
      cases ready : i.resp.wReady with
      | false =>
          rw [ready] at granted
          exact absurd granted Bool.false_ne_true
      | true =>
          rw [ready] at words
          refine ⟨?_, address, ?_⟩
          · rw [output, waitWordsState, final, decide_eq_true last, ready]
            rfl
          · rw [← last]
            exact words
    · rw [decide_eq_false last] at granted
      cases ready : i.resp.wReady <;> rw [ready] at granted <;> exact absurd granted Bool.false_ne_true

/-- The write states carry the length even where it is zero. -/
theorem lengthCommand_eq (request : s.engine.request = storeRequest s.engine) :
    { defaultCommand s.engine.request with len := s.engine.request.len } =
      command s.engine s.engine.destAddr := by
  have single : (storeRequest s.engine).single = (s.engine.length == 0) := rfl
  rw [request, defaultCommand, command]
  by_cases zero : s.engine.length = 0
  · rw [if_pos zero, if_pos (single.trans (beq_iff_eq.mpr zero))]
    rfl
  · rw [if_neg zero, if_neg (fun equal => zero (beq_iff_eq.mp (single.symm.trans equal)))]
    rfl

/-- The words go out before the address is accepted. -/
theorem stage_both (ctrl : s.engine.ctrl = .startStore) (captured : Captured s)
    (buffered : Buffered s) (state : s.engine.adapter.state = .waitLastWReadyAwReady)
    (writes : s.current.writes = []) {k : Nat}
    (due : k ≤ s.engine.length.toNat) (sent : Sent s k)
    (count : s.engine.adapter.cnt = burstLength s.engine - BitVec.ofNat 8 k)
    (request : s.engine.request = storeRequest s.engine) : Stage (s.next i) := by
  have busy : s.engine.ctrl ≠ .idle := by simp [ctrl]
  have running : s.engine.ctrl ≠ .done := by simp [ctrl]
  obtain ⟨length, source, dest⟩ := next_saved (i := i) busy running
  have output : s.output i = waitBothState s.engine.adapter s.engine.request i.resp := by
    rw [System.output, adapterOutput, axiFsm, state]
  have final : (s.engine.adapter.cnt == 0) = decide (k = s.engine.length.toNat) := by
    rw [Bool.eq_iff_iff, beq_iff_eq, decide_eq_true_iff, count,
      remaining_eq_zero captured.bounded due]
  have offers : Offers s i true true k := by
    have word := burstBeat_eq captured buffered request due count
    have offered := lengthCommand_eq request
    constructor <;> rw [output, waitBothState] <;>
      cases s.engine.adapter.cnt == 0 <;> cases i.resp.wReady <;> cases i.resp.awReady <;>
      first | rfl | exact fun _ => word | exact fun _ => offered
  have words := offers.sent ctrl sent
  have address := offers.command ctrl
  rw [writes] at address
  apply stage_startStore ctrl captured (offers.buffered ctrl buffered)
  · intro waits
    have sending : (i.resp.wReady = true → k ≠ s.engine.length.toNat) → Sending (s.next i) := by
      intro more
      refine ⟨_, ?_, words, ?_⟩
      · rw [length, Bool.true_and]
        split
        case isTrue ready => exact Nat.lt_of_le_of_ne due (more ready)
        case isFalse => exact due
      · show (s.output i).cnt = _
        rw [output, waitBothState, final, burstLength, length, Bool.true_and]
        cases ready : i.resp.wReady with
        | false =>
            cases i.resp.awReady <;> exact count
        | true =>
            rw [decide_eq_false (more ready), if_pos rfl]
            have fewer := (congrArg (· - 1) count).trans remaining_pred
            cases i.resp.awReady <;> exact fewer
    rw [Writing, next_state]
    cases addressed : i.resp.awReady with
    | false =>
        rw [addressed] at address
        cases ready : i.resp.wReady with
        | false =>
            have after : (s.output i).state = .waitLastWReadyAwReady := by
              rw [output, waitBothState, addressed, ready]
              exact state
            rw [after]
            exact ⟨address, sending fun now => absurd (ready.symm.trans now) Bool.false_ne_true⟩
        | true =>
            by_cases last : k = s.engine.length.toNat
            · have after : (s.output i).state = .waitAwReadyBurst := by
                rw [output, waitBothState, addressed, ready, final, decide_eq_true last]
                rfl
              rw [after]
              refine ⟨address, ?_⟩
              rw [length, ← last]
              rw [ready] at words
              exact words
            · have after : (s.output i).state = .waitLastWReadyAwReady := by
                rw [output, waitBothState, addressed, ready, final, decide_eq_false last]
                exact state
              rw [after]
              exact ⟨address, sending fun _ => last⟩
    | true =>
        rw [addressed] at address
        have more : i.resp.wReady = true → k ≠ s.engine.length.toNat := by
          intro ready last
          rw [output, waitBothState, addressed, ready, final, decide_eq_true last] at waits
          exact absurd waits.symm Bool.false_ne_true
        have after : (s.output i).state = .waitLastWReady := by
          cases ready : i.resp.wReady with
          | false =>
              rw [output, waitBothState, addressed, ready]
          | true =>
              rw [output, waitBothState, addressed, ready, final, decide_eq_false (more ready)]
              rfl
        rw [after]
        exact ⟨address, sending more⟩
  · intro granted
    rw [output, waitBothState, final] at granted
    cases addressed : i.resp.awReady with
    | false =>
        rw [addressed] at granted
        cases ready : i.resp.wReady <;> cases last : decide (k = s.engine.length.toNat) <;>
          rw [ready, last] at granted <;> exact absurd granted Bool.false_ne_true
    | true =>
        cases ready : i.resp.wReady with
        | false =>
            rw [addressed, ready] at granted
            exact absurd granted Bool.false_ne_true
        | true =>
            rw [addressed, ready] at granted
            rw [addressed] at address
            by_cases last : k = s.engine.length.toNat
            · refine ⟨?_, address, ?_⟩
              · rw [output, waitBothState, addressed, ready, final, decide_eq_true last]
                rfl
              · rw [← last]
                rw [ready] at words
                exact words
            · rw [decide_eq_false last] at granted
              exact absurd granted Bool.false_ne_true

/-- Only the address is still to be accepted. -/
theorem stage_address (ctrl : s.engine.ctrl = .startStore) (captured : Captured s)
    (buffered : Buffered s) (writes : s.current.writes = [])
    (state : s.engine.adapter.state = .waitAwReady ∧ s.engine.length = 0 ∨
      s.engine.adapter.state = .waitAwReadyBurst)
    (sent : Sent s (s.engine.length.toNat + 1))
    (request : s.engine.request = storeRequest s.engine) : Stage (s.next i) := by
  have busy : s.engine.ctrl ≠ .idle := by simp [ctrl]
  have running : s.engine.ctrl ≠ .done := by simp [ctrl]
  obtain ⟨length, source, dest⟩ := next_saved (i := i) busy running
  have output : s.output i =
      { defaultOutput s.engine.adapter s.engine.request with
        axi := { (defaultOutput s.engine.adapter s.engine.request).axi with
          awValid := true, aw := command s.engine s.engine.destAddr }
        gnt := i.resp.awReady
        state := if i.resp.awReady then .waitBValid else s.engine.adapter.state } := by
    rcases state with ⟨single, zero⟩ | burst
    · have offered : defaultCommand s.engine.request = command s.engine s.engine.destAddr := by
        rw [← lengthCommand_eq request, request]
        show _ = { defaultCommand _ with len := burstLength s.engine }
        rw [burstLength_zero zero]
        rfl
      rw [System.output, adapterOutput, axiFsm, single, ← offered]
      cases i.resp.awReady with
      | false => rw [defaultOutput, single]; rfl
      | true => rfl
    · rw [System.output, adapterOutput, axiFsm, burst, ← lengthCommand_eq request]
      cases i.resp.awReady with
      | false => rw [defaultOutput, burst]; rfl
      | true => rfl
  have offers : Offers s i true false (s.engine.length.toNat + 1) := by
    constructor <;> rw [output] <;> first | rfl | exact fun _ => rfl |
      exact fun high => absurd high Bool.false_ne_true
  have words := offers.sent ctrl sent
  have address := offers.command ctrl
  have gnt : (s.output i).gnt = i.resp.awReady := congrArg AdapterOutput.gnt output
  have after := congrArg AdapterOutput.state output
  rw [writes] at address
  apply stage_startStore ctrl captured (offers.buffered ctrl buffered)
  · intro waits
    rw [gnt] at waits
    rw [waits] at address after
    have kept : (s.next i).engine.adapter.state = s.engine.adapter.state := after
    rw [Writing, kept]
    rcases state with ⟨single, zero⟩ | burst
    · rw [single]
      refine ⟨address, ?_, length.trans zero⟩
      rw [length]
      exact words
    · rw [burst]
      refine ⟨address, ?_⟩
      rw [length]
      exact words
  · intro granted
    rw [gnt] at granted
    rw [granted] at address after
    exact ⟨after, address, words⟩

/-- The response to the write ends the transfer. -/
theorem stage_store (ctrl : s.engine.ctrl = .store) (captured : Captured s)
    (buffered : Buffered s) (state : s.engine.adapter.state = .waitBValid)
    (writes : s.current.writes = [command s.engine s.engine.destAddr])
    (sent : Sent s (s.engine.length.toNat + 1)) : Stage (s.next i) := by
  have busy : s.engine.ctrl ≠ .idle := by simp [ctrl]
  have running : s.engine.ctrl ≠ .done := by simp [ctrl]
  have later := captured.next (i := i) busy running
  have current := next_current (i := i) busy
  obtain ⟨length, source, dest⟩ := next_saved (i := i) busy running
  have after : (s.next i).engine.ctrl = if (s.output i).valid then .done else .store := by
    rw [next_ctrl, nextCtrl, ctrl]
    rfl
  have asked : (s.next i).engine.request.req = false := by
    rw [next_request, nextRequest, ctrl]
  cases responds : i.resp.bValid with
  | false =>
      have output : s.output i =
          { defaultOutput s.engine.adapter s.engine.request with
            axi := { (defaultOutput s.engine.adapter s.engine.request).axi with
              bReady := true } } := by
        rw [System.output, adapterOutput, axiFsm, state, responds]
        rfl
      have moved : s.moved i = s.current := by
        rw [System.moved, output, responds]
        simp [defaultOutput]
      have valid : (s.output i).valid = false := congrArg AdapterOutput.valid output
      rw [valid, if_neg Bool.false_ne_true] at after
      rw [Stage, after]
      refine ⟨later, buffered.next busy running ?_ ?_ ?_ ?_, ?_, ?_, ?_⟩
      · rw [moved]
      · rw [moved]
      · rw [moved]
      · rw [output]
        rfl
      · rw [next_state, output]
        exact state
      · rw [current, moved, writes, command, command, dest, length, burstLength, burstLength, length]
      · rw [Sent, current, moved, length]
        exact sent
  | true =>
      have output : s.output i =
          { defaultOutput s.engine.adapter s.engine.request with
            axi := { (defaultOutput s.engine.adapter s.engine.request).axi with bReady := true }
            state := .idle
            valid := true } := by
        rw [System.output, adapterOutput, axiFsm, state, responds]
        rfl
      have valid : (s.output i).valid = true := congrArg AdapterOutput.valid output
      rw [valid, if_pos rfl] at after
      rw [Stage, after]
      exact ⟨congrArg AdapterOutput.state output, asked⟩

/-- The state of the adapter decides how far the write is. -/
theorem stage_write (ctrl : s.engine.ctrl = .startStore) (captured : Captured s)
    (buffered : Buffered s) (writing : Writing s)
    (request : s.engine.request.req = true → s.engine.request = storeRequest s.engine)
    (quiet : s.engine.request.req = false → s.engine.adapter.state = .idle) :
    Stage (s.next i) := by
  have asked : s.engine.adapter.state ≠ .idle → s.engine.request = storeRequest s.engine := by
    intro works
    apply request
    by_contra none
    exact works (quiet (Bool.eq_false_iff.mpr none))
  rw [Writing] at writing
  cases state : s.engine.adapter.state with
  | idle =>
      rw [state] at writing
      exact stage_offer ctrl captured buffered state writing.1 writing.2 request
  | waitAwReady =>
      rw [state] at writing asked
      exact stage_address ctrl captured buffered writing.1 (Or.inl ⟨state, writing.2.2⟩)
        writing.2.1 (asked (by simp))
  | waitAwReadyBurst =>
      rw [state] at writing asked
      exact stage_address ctrl captured buffered writing.1 (Or.inr state) writing.2 (asked (by simp))
  | waitLastWReady =>
      rw [state] at writing asked
      obtain ⟨writes, k, due, sent, count⟩ := writing
      exact stage_words ctrl captured buffered state writes due sent count (asked (by simp))
  | waitLastWReadyAwReady =>
      rw [state] at writing asked
      obtain ⟨writes, k, due, sent, count⟩ := writing
      exact stage_both ctrl captured buffered state writes due sent count (asked (by simp))
  | waitBValid | waitRValid | waitRValidMultiple | completeRead =>
      rw [state] at writing
      exact writing.elim

theorem Stage.step (stage : Stage s) (contract : Contract s i) : Stage (s.next i) := by
  rw [Stage] at stage
  cases ctrl : s.engine.ctrl with
  | idle =>
      rw [ctrl] at stage
      exact stage_idle ctrl stage.1 stage.2 contract
  | startLoad =>
      rw [ctrl] at stage
      obtain ⟨captured, idle, reads, read, unwritten, request⟩ := stage
      exact stage_startLoad ctrl captured idle reads read unwritten request
  | load =>
      rw [ctrl] at stage
      exact stage_load ctrl stage.1 stage.2 contract
  | startStore =>
      rw [ctrl] at stage
      obtain ⟨captured, buffered, writing, request, quiet⟩ := stage
      exact stage_write ctrl captured buffered writing request quiet
  | store =>
      rw [ctrl] at stage
      obtain ⟨captured, buffered, state, writes, sent⟩ := stage
      exact stage_store ctrl captured buffered state writes sent
  | done =>
      rw [ctrl] at stage
      exact stage_done ctrl stage.1 stage.2

end Cycle

end Ariane.Dma
