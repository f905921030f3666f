import Ariane.DmaStage

set_option autoImplicit false

/- The cycles of the DMA engine from the start of a transfer to the last word of the read burst. -/
namespace Ariane.Dma

section Cycle

variable {s : System} {i : SystemInput}

theorem stage_idle (ctrl : s.engine.ctrl = .idle) (idle : s.engine.adapter.state = .idle)
    (none : s.engine.request.req = false) (contract : Contract s i) : Stage (s.next i) := by
  have rest : s.output i = { defaultOutput s.engine.adapter s.engine.request with cnt := 0 } :=
    axiFsm_idle idle none
  have state : (s.next i).engine.adapter.state = .idle := by
    rw [next_state, rest]
    exact idle
  have request : (s.next i).engine.request = s.engine.request := by
    rw [next_request, nextRequest, ctrl]
  have kept : saves s.engine = true := by
    rw [saves, ctrl]
    rfl
  have later : (s.next i).engine.ctrl = if start s.engine then .startLoad else .idle := by
    rw [next_ctrl, nextCtrl, ctrl]
  cases starts : start s.engine with
  | false =>
      rw [starts, if_neg Bool.false_ne_true] at later
      rw [Stage, later, request]
      exact ⟨state, none⟩
  | true =>
      rw [starts, if_pos rfl] at later
      have begins : s.begins = true := by
        rw [System.begins, ctrl, starts]
        rfl
      have current : (s.next i).current = s.begun := by
        rw [System.next, begins]
        rfl
      have length : (s.next i).engine.length = s.regs.length := if_pos kept
      have source : (s.next i).engine.sourceAddr = s.regs.sourceAddr := if_pos kept
      have dest : (s.next i).engine.destAddr = s.regs.destAddr := if_pos kept
      rw [Stage, later, request]
      refine ⟨⟨?_, ?_, ?_, ?_⟩, state, ?_, ?_, ⟨?_, ?_, ?_⟩, ?_⟩
      · rw [current, source]
        rfl
      · rw [current, dest]
        rfl
      · rw [current, length]
        rfl
      · rw [length]
        exact contract.bounded begins
      · rw [current]
        rfl
      · rw [current]
        rfl
      · rw [current]
        rfl
      · rw [current]
        rfl
      · rw [current]
        rfl
      · rw [none]
        exact fun high => absurd high Bool.false_ne_true

theorem stage_done (ctrl : s.engine.ctrl = .done) (idle : s.engine.adapter.state = .idle)
    (none : s.engine.request.req = false) : Stage (s.next i) := by
  have rest : s.output i = { defaultOutput s.engine.adapter s.engine.request with cnt := 0 } :=
    axiFsm_idle idle none
  have state : (s.next i).engine.adapter.state = .idle := by
    rw [next_state, rest]
    exact idle
  have request : (s.next i).engine.request = s.engine.request := by
    rw [next_request, nextRequest, ctrl]
  have later : (s.next i).engine.ctrl = if clrDone s.engine then .idle else .done := by
    rw [next_ctrl, nextCtrl, ctrl]
  rw [Stage, later, request]
  cases clrDone s.engine with
  | false => exact ⟨state, none⟩
  | true => exact ⟨state, none⟩

/-- The read command is accepted, or it is offered on. -/
theorem stage_startLoad (ctrl : s.engine.ctrl = .startLoad) (captured : Captured s)
    (idle : s.engine.adapter.state = .idle) (reads : s.current.reads = [])
    (read : s.current.read = []) (unwritten : Unwritten s.current)
    (request : s.engine.request.req = true → s.engine.request = loadRequest s.engine) :
    Stage (s.next i) := by
  have busy : s.engine.ctrl ≠ .idle := by simp [ctrl]
  have running : s.engine.ctrl ≠ .done := by simp [ctrl]
  have later := captured.next (i := i) busy running
  have current := next_current (i := i) busy
  obtain ⟨length, source, dest⟩ := next_saved (i := i) busy running
  have loads : loadRequest (s.next i).engine = loadRequest s.engine := by
    rw [loadRequest, loadRequest, source, length, burstLength, burstLength, length]
  have asked : (s.next i).engine.request = loadRequest s.engine := by
    rw [next_request, nextRequest, ctrl]
    rfl
  have after : (s.next i).engine.ctrl = if (s.output i).gnt then .load else .startLoad := by
    rw [next_ctrl, nextCtrl, ctrl]
    rfl
  have waits : (s.output i).gnt = false → (s.output i).state = .idle → s.moved i = s.current →
      Stage (s.next i) := by
    intro gnt state still
    rw [gnt, if_neg Bool.false_ne_true] at after
    rw [Stage, after]
    refine ⟨later, state, ?_, ?_, ?_, fun _ => asked.trans loads.symm⟩
    · rw [current, still]
      exact reads
    · rw [current, still]
      exact read
    · rw [current, still]
      exact unwritten
  cases req : s.engine.request.req with
  | false =>
      have rest : s.output i = { defaultOutput s.engine.adapter s.engine.request with cnt := 0 } :=
        axiFsm_idle idle req
      apply waits
      · rw [rest]
        rfl
      · rw [rest]
        exact idle
      · rw [System.moved, rest]
        simp [defaultOutput]
  | true =>
      have registers := request req
      have output := axiFsm_read (r := i.resp) idle req (by rw [registers]; rfl)
      have offered : burstCommand s.engine.request = command s.engine s.engine.sourceAddr := by
        rw [registers]
        exact burstCommand_eq _ rfl rfl rfl rfl
      have moved : s.moved i = { s.current with
          reads := if i.resp.arReady then [command s.engine s.engine.sourceAddr] else [] } := by
        rw [System.moved, System.output, adapterOutput, output, offered, reads]
        simp [defaultOutput]
      have gnt : (s.output i).gnt = i.resp.arReady := congrArg AdapterOutput.gnt output
      have state := congrArg AdapterOutput.state output
      have count := congrArg AdapterOutput.cnt output
      cases ready : i.resp.arReady with
      | false =>
          rw [ready] at moved gnt state
          apply waits gnt state
          rw [moved]
          exact congrArg (fun sent => { s.current with reads := sent }) reads.symm
      | true =>
          rw [ready] at moved gnt state
          have commands : command (s.next i).engine (s.next i).engine.sourceAddr =
              command s.engine s.engine.sourceAddr := by
            rw [command, command, source, length, burstLength, burstLength, length]
          rw [gnt, if_pos rfl] at after
          rw [Stage, after]
          refine ⟨later, ?_, ?_, ?_, ?_, ?_⟩
          · rw [current, moved, commands]
            rfl
          · rw [current, moved]
            exact ⟨unwritten.writes, unwritten.written, unwritten.responses⟩
          · rw [asked, loads]
          · intro j short
            rw [current, moved] at short
            rw [read] at short
            exact absurd short (Nat.not_lt_zero j)
          · right
            have single : s.engine.request.single = (s.engine.length == 0) := by
              rw [registers]
              rfl
            have len : s.engine.request.len = burstLength s.engine := by
              rw [registers]
              rfl
            have zero : burstLength (s.next i).engine - BitVec.ofNat 8 0 = burstLength s.engine := by
              rw [burstLength, length]
              exact BitVec.sub_zero _
            have begun : (s.next i).current.read = [] := by
              rw [current, moved]
              exact read
            rw [begun, List.length_nil, zero, length]
            refine ⟨state.trans ?_, Nat.zero_le _, count.trans ?_⟩
            · show (if s.engine.request.single then _ else _) = _
              simp only [single, beq_iff_eq]
            · show (if s.engine.request.single then _ else _) = _
              simp only [single, len, beq_iff_eq]
              by_cases empty : s.engine.length = 0
              · rw [if_pos empty, burstLength_zero empty]
              · exact if_neg empty

/-- The word that arrives is stored behind the words of the buffer. -/
theorem stored_append {mem : BitVec 8 → BitVec 64} {words : List (BitVec 64)} {word : BitVec 64}
    (stored : ∀ j < words.length, mem (BitVec.ofNat 8 j) = words.getD j 0)
    (short : words.length ≤ 255) :
    ∀ j < (words ++ [word]).length,
      Function.update mem (BitVec.ofNat 8 words.length) word (BitVec.ofNat 8 j) =
        (words ++ [word]).getD j 0 := by
  intro j within
  rw [List.length_append, List.length_singleton] at within
  by_cases here : j = words.length
  · rw [here, Function.update_self, List.getD_eq_getElem?_getD,
      List.getElem?_append_right (Nat.le_refl _), Nat.sub_self]
    rfl
  · have before : j < words.length := by omega
    have other : BitVec.ofNat 8 j ≠ BitVec.ofNat 8 words.length := by
      intro equal
      have values := congrArg BitVec.toNat equal
      rw [BitVec.toNat_ofNat, BitVec.toNat_ofNat] at values
      omega
    rw [Function.update_of_ne other, stored j before, List.getD_eq_getElem?_getD,
      List.getD_eq_getElem?_getD, List.getElem?_append_left before]

/-- A word arrives, or the last one was stored. -/
theorem stage_load (ctrl : s.engine.ctrl = .load) (captured : Captured s) (reading : Reading s)
    (contract : Contract s i) : Stage (s.next i) := by
  have busy : s.engine.ctrl ≠ .idle := by simp [ctrl]
  have running : s.engine.ctrl ≠ .done := by simp [ctrl]
  have later := captured.next (i := i) busy running
  have current := next_current (i := i) busy
  obtain ⟨length, source, dest⟩ := next_saved (i := i) busy running
  have bounded := captured.bounded
  have loads : loadRequest (s.next i).engine = loadRequest s.engine := by
    rw [loadRequest, loadRequest, source, length, burstLength, burstLength, length]
  have commands : command (s.next i).engine (s.next i).engine.sourceAddr =
      command s.engine s.engine.sourceAddr := by
    rw [command, command, source, length, burstLength, burstLength, length]
  have asked : (s.next i).engine.request = { loadRequest s.engine with req := false } := by
    rw [next_request, nextRequest, ctrl]
    show { s.engine.request with req := false } = _
    rw [reading.request]
  have after : (s.next i).engine.ctrl = if (s.output i).valid then .startStore else .load := by
    rw [next_ctrl, nextCtrl, ctrl]
    rfl
  rcases reading.phase with ⟨state, -, complete⟩ | ⟨state, due, count⟩
  · have output : s.output i =
        { defaultOutput s.engine.adapter s.engine.request with valid := true, state := .idle } := by
      rw [System.output, adapterOutput, axiFsm, state]
    have moved : s.moved i = s.current := by
      rw [System.moved, output]
      simp [defaultOutput]
    have valid : (s.output i).valid = true := congrArg AdapterOutput.valid output
    have idle : (s.next i).engine.adapter.state = .idle := congrArg AdapterOutput.state output
    have memory : (s.next i).engine.adapter.mem = s.engine.adapter.mem := by
      show (if (s.output i).memWen then _ else s.engine.adapter.mem) = _
      rw [output]
      rfl
    rw [valid, if_pos rfl] at after
    rw [Stage, after]
    refine ⟨later, ⟨?_, ?_, ?_, ?_⟩, ?_, ?_, fun _ => idle⟩
    · rw [current, moved, commands]
      exact reading.reads
    · rw [current, moved, length]
      exact complete
    · rw [current, moved]
      exact reading.unwritten.responses
    · intro j short
      rw [current, moved] at short
      rw [current, moved, memory]
      exact reading.stored j short
    · rw [Writing, idle]
      refine ⟨?_, ?_⟩
      · rw [current, moved]
        exact reading.unwritten.writes
      · rw [Sent, current, moved]
        exact reading.unwritten.written
    · rw [asked]
      exact fun high => absurd high Bool.false_ne_true
  · have waits : s.engine.adapter.state =
        if (s.engine.length != 0) then .waitRValidMultiple else .waitRValid := by
      rw [state]
      by_cases zero : s.engine.length = 0
      · rw [if_pos zero, zero]
        rfl
      · rw [if_neg zero, if_pos (bne_iff_ne.mpr zero)]
    have output : s.output i =
        readState s.engine.adapter s.engine.request i.resp (s.engine.length != 0) :=
      axiFsm_receive _ waits
    have ready : (s.output i).axi.rReady = true := by
      rw [output, readState]
      cases i.resp.rValid <;> rfl
    have gap : (s.output i).valid = false := by
      rw [output, readState]
      cases i.resp.rValid <;> rfl
    rw [gap, if_neg Bool.false_ne_true] at after
    have owed : s.current.owed = s.engine.length.toNat + 1 - s.current.read.length := by
      rw [Transfer.owed, reading.reads]
      show 0 + ((burstLength s.engine).toNat + 1) - _ = _
      rw [toNat_burstLength bounded, Nat.zero_add]
    have registers : (s.next i).engine.request =
        { loadRequest (s.next i).engine with req := (s.next i).engine.request.req } := by
      rw [asked, loads]
    have len : s.engine.request.len = burstLength s.engine := by
      rw [reading.request]
      rfl
    rw [Stage, after]
    refine ⟨later, ?_⟩
    cases arrives : i.resp.rValid with
    | false =>
        have moved : s.moved i = s.current := by
          rw [System.moved, output, readState, arrives]
          simp [defaultOutput]
        have kept : (s.next i).engine.adapter.state = s.engine.adapter.state := by
          rw [next_state, output, readState, arrives]
          rfl
        have counted : (s.next i).engine.adapter.cnt = s.engine.adapter.cnt := by
          show (s.output i).cnt = _
          rw [output, readState, arrives]
          rfl
        have memory : (s.next i).engine.adapter.mem = s.engine.adapter.mem := by
          show (if (s.output i).memWen then _ else s.engine.adapter.mem) = _
          rw [output, readState, arrives]
          rfl
        refine ⟨?_, ?_, registers, ?_, Or.inr ⟨?_, ?_, ?_⟩⟩
        · rw [current, moved, commands]
          exact reading.reads
        · rw [current, moved]
          exact reading.unwritten
        · rw [Stored, current, moved, memory]
          exact reading.stored
        · rw [kept, length]
          exact state
        · rw [current, moved, length]
          exact due
        · rw [counted, current, moved, burstLength, length]
          exact count
    | true =>
        have moved : s.moved i =
            { s.current with read := s.current.read ++ [i.resp.rData] } := by
          rw [System.moved, output, readState, arrives]
          simp [defaultOutput]
        have index : (if s.engine.length != 0 then s.engine.request.len - s.engine.adapter.cnt
            else 0) = BitVec.ofNat 8 s.current.read.length := by
          by_cases zero : s.engine.length = 0
          · have first : s.current.read.length = 0 := by
              rw [zero] at due
              exact Nat.le_zero.mp due
            rw [if_neg (by simp [zero]), first]
            rfl
          · rw [if_pos (bne_iff_ne.mpr zero), len, count, due_index]
        have memory : (s.next i).engine.adapter.mem =
            Function.update s.engine.adapter.mem (BitVec.ofNat 8 s.current.read.length)
              i.resp.rData := by
          show (if (s.output i).memWen then Function.update s.engine.adapter.mem
            (s.output i).memWaddr (s.output i).memWdata else s.engine.adapter.mem) = _
          rw [output, readState, arrives, ← index]
          rfl
        have last := contract.last ready arrives
        rw [owed] at last
        have longer : (s.next i).current.read = s.current.read ++ [i.resp.rData] := by
          rw [current, moved]
        have count' : (s.next i).engine.adapter.cnt = s.engine.adapter.cnt - 1 := by
          show (s.output i).cnt = _
          rw [output, readState, arrives]
          rfl
        have state' : (s.next i).engine.adapter.state =
            if i.resp.rLast then .completeRead else s.engine.adapter.state := by
          rw [next_state, output, readState, arrives]
          rfl
        refine ⟨?_, ?_, registers, ?_, ?_⟩
        · rw [current, moved, commands]
          exact reading.reads
        · rw [current, moved]
          exact ⟨reading.unwritten.writes, reading.unwritten.written, reading.unwritten.responses⟩
        · rw [Stored, longer, memory]
          exact stored_append reading.stored (by omega)
        · rw [longer, List.length_append, List.length_singleton, length]
          by_cases final : s.current.read.length = s.engine.length.toNat
          · left
            rw [state', last, decide_eq_true (by omega)]
            refine ⟨rfl, ?_, congrArg (· + 1) final⟩
            rw [asked]
          · right
            rw [state', last, decide_eq_false (by omega)]
            refine ⟨state, by omega, ?_⟩
            rw [count', count, remaining_pred, burstLength, burstLength, length]

end Cycle

end Ariane.Dma
