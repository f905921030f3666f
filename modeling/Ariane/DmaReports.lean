import Ariane.DmaWrite

set_option autoImplicit false

/- What the DMA engine has done when it reports that a transfer is over. -/
namespace Ariane.Dma

section Cycle

variable {s : System} {i : SystemInput}

theorem map_data_beats {words : List (BitVec 64)} {n : Nat} (length : words.length = n) (m : Nat) :
    (beats words m n).map AxiBeat.data = words := by
  rw [beats, List.map_map]
  apply List.ext_getElem
  · rw [List.length_map, List.length_range, length]
  · intro j _ within
    rw [List.getElem_map, List.getElem_range]
    exact (List.getElem_eq_getD 0).symm

/-- The transfer that ends has copied its words. -/
theorem Stage.copies (stage : Stage s) (ends : s.ends i = true) : Copies (s.moved i) := by
  rw [System.ends, Bool.and_eq_true, beq_iff_eq] at ends
  obtain ⟨ctrl, last⟩ := ends
  rw [Stage, ctrl] at stage
  obtain ⟨captured, buffered, state, writes, sent⟩ := stage
  have responds : i.resp.bValid = true := by
    by_contra late
    rw [nextCtrl, ctrl, adapterOutput, axiFsm, state, Bool.eq_false_iff.mpr late] at last
    exact absurd last Bool.false_ne_true
  have output : s.output i =
      { defaultOutput s.engine.adapter s.engine.request with
        axi := { (defaultOutput s.engine.adapter s.engine.request).axi with bReady := true }
        state := .idle
        valid := true } := by
    rw [System.output, adapterOutput, axiFsm, state, responds]
    rfl
  have moved : s.moved i = { s.current with responses := 1 } := by
    rw [System.moved, output, responds, buffered.responses]
    simp [defaultOutput]
  have words := buffered.read
  rw [moved]
  constructor
  · show s.current.reads.flatMap _ = consecutive s.current.source (s.current.length.toNat + 1)
    rw [buffered.reads, captured.source, captured.length, ← addresses_command captured.bounded]
    exact List.append_nil _
  · show s.current.read.length = s.current.length.toNat + 1
    rw [captured.length]
    exact words
  · show s.current.writes.flatMap _ = consecutive s.current.dest (s.current.length.toNat + 1)
    rw [writes, captured.dest, captured.length, ← addresses_command captured.bounded]
    exact List.append_nil _
  · show s.current.written.map _ = s.current.read
    rw [sent]
    exact map_data_beats words _
  · show ∀ c ∈ s.current.reads ++ s.current.writes, _
    rw [buffered.reads, writes]
    intro c member
    rcases List.mem_cons.mp member with rfl | member
    · rfl
    · rw [List.mem_singleton.mp member]
      rfl
  · show ∀ b ∈ s.current.written, _
    rw [sent]
    intro b member
    obtain ⟨j, -, rfl⟩ := List.mem_map.mp member
    rfl
  · rfl

/-- The transfers and the reports of a run. -/
structure Reports (s : System) : Prop where
  /-- Every transfer that was reported as done has copied its words. -/
  copied : ∀ t ∈ s.past, Copies t
  /-- The report is about the transfer that was started last. -/
  reported : s.engine.ctrl = .done → s.past.head? = some s.current
  /-- Every transfer that was started is reported once, or it is running. -/
  started : s.starts = s.past.length +
    if s.engine.ctrl = .idle ∨ s.engine.ctrl = .done then 0 else 1
  /-- A transfer starts only after the last one was reported and cleared. -/
  cleared : s.starts = s.clears + if s.engine.ctrl = .idle then 0 else 1

theorem Reports.step (reports : Reports s) (stage : Stage s) : Reports (s.next i) := by
  have copied : ∀ t ∈ (s.next i).past, Copies t := by
    intro t member
    have member : t ∈ if s.ends i then s.moved i :: s.past else s.past := member
    cases ends : s.ends i with
    | false =>
        rw [ends] at member
        exact reports.copied t member
    | true =>
        rw [ends] at member
        rcases List.mem_cons.mp member with rfl | earlier
        · exact stage.copies ends
        · exact reports.copied t earlier
  constructor
  · exact copied
  · intro done
    rw [next_ctrl] at done
    show (if s.ends i then s.moved i :: s.past else s.past).head? = some (s.next i).current
    cases ctrl : s.engine.ctrl with
    | store =>
        have ends : s.ends i = true := by
          rw [System.ends, ctrl, done]
          rfl
        rw [ends, next_current (by simp [ctrl])]
        rfl
    | done =>
        rw [Stage, ctrl] at stage
        have rest : s.output i =
            { defaultOutput s.engine.adapter s.engine.request with cnt := 0 } :=
          axiFsm_idle stage.1 stage.2
        have moved : s.moved i = s.current := by
          rw [System.moved, rest]
          simp [defaultOutput]
        have goes : s.ends i = false := by
          rw [System.ends, ctrl]
          rfl
        rw [goes, next_current (by simp [ctrl]), moved]
        exact reports.reported ctrl
    | idle | startLoad | load | startStore =>
        simp only [nextCtrl, ctrl] at done
        split at done <;> cases done
  · have started := reports.started
    rw [next_ctrl]
    show s.starts + (if s.begins then 1 else 0) =
      (if s.ends i then s.moved i :: s.past else s.past).length + _
    rw [started]
    cases ctrl : s.engine.ctrl with
    | idle =>
        cases starts : start s.engine <;>
          simp [System.begins, System.ends, nextCtrl, ctrl, starts]
    | startLoad | startStore =>
        cases gnt : (adapterOutput s.engine i.resp).gnt <;>
          simp [System.begins, System.ends, nextCtrl, ctrl, gnt]
    | load | store =>
        cases valid : (adapterOutput s.engine i.resp).valid <;>
          simp [System.begins, System.ends, nextCtrl, ctrl, valid]
    | done =>
        cases clears : clrDone s.engine <;>
          simp [System.begins, System.ends, nextCtrl, ctrl, clears]
  · have cleared := reports.cleared
    rw [next_ctrl]
    show s.starts + (if s.begins then 1 else 0) =
      s.clears + (if s.engine.ctrl == .done && clrDone s.engine then 1 else 0) + _
    rw [cleared]
    cases ctrl : s.engine.ctrl with
    | idle =>
        cases starts : start s.engine <;> simp [System.begins, nextCtrl, ctrl, starts]
    | startLoad | startStore =>
        cases gnt : (adapterOutput s.engine i.resp).gnt <;>
          simp [System.begins, nextCtrl, ctrl, gnt]
    | load | store =>
        cases valid : (adapterOutput s.engine i.resp).valid <;>
          simp [System.begins, nextCtrl, ctrl, valid]
    | done =>
        cases clears : clrDone s.engine <;> simp [System.begins, nextCtrl, ctrl, clears]

end Cycle

/-- What holds in every state that a legal run reaches. -/
structure Inv (s : System) : Prop where
  stage : Stage s
  reports : Reports s

theorem inv_reset : Inv system.reset := by
  refine ⟨⟨rfl, rfl⟩, ?_, ?_, rfl, rfl⟩
  · exact fun t member => absurd member List.not_mem_nil
  · exact fun done => Ctrl.noConfusion done

theorem inv_run {inputs : List SystemInput} (legal : system.Legal Contract system.reset inputs) :
    Inv (system.run inputs) :=
  system.run_invariant inv_reset
    (fun _ _ inv contract => ⟨inv.stage.step contract, inv.reports.step inv.stage⟩) legal

end Ariane.Dma
