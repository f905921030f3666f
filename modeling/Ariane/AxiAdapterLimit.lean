import Ariane.AxiAdapterAnswers

set_option autoImplicit false

/- A line of 512 words is longer than a burst of the bus. -/
namespace Ariane.AxiAdapter

/-- Lines of 512 words. -/
abbrev longLines : Params := ⟨9, false, 1, 12⟩

/-- A read of the first line. -/
def longRead : Request longLines where
  single := false
  addr := 0
  we := false
  wdata := fun _ => 0
  be := fun _ => 0
  size := 3
  id := 0

/-- The slave takes the request at once and sends the words of its burst, all one. -/
def longInputs (t : Nat) : Input longLines where
  req := decide (t = 0)
  request := longRead
  arReady := true
  rValid := decide (1 ≤ t ∧ t ≤ 256)
  rLast := decide (t = 256)
  rData := 1

/-- The state after `j` words. -/
structure LongState (j : Nat) (s : Bench longLines) : Prop where
  read : InRead longRead s
  words : s.log.words = List.replicate j 1
  /-- The last word of the line is still that of reset. -/
  last : s.regs.cacheLine ⟨511, by decide⟩ = 0

theorem long_pending (t : Nat) : (states longInputs (t + 1)).pending = none := by
  cases t with
  | zero => rfl
  | succ t =>
      show (if ((longInputs (t + 1)).req && !(outputAt longInputs (t + 1)).gnt) = true then
        some (longInputs (t + 1)).request else none) = _
      rw [show (longInputs (t + 1)).req = false from decide_eq_false (Nat.succ_ne_zero t)]
      rfl

/-- Nothing happened before the first cycle. -/
theorem long_contract_zero : Contract (states longInputs 0) (longInputs 0) := by
  refine ⟨⟨Bool.noConfusion, Bool.noConfusion⟩, ?_, fun _ _ => Nat.succ_pos 8⟩
  intro r held
  exact absurd (show (none : Option (Request longLines)) = some r from held)
    (Option.some_ne_none r).symm

theorem long_contract {t : Nat} {s : Bench longLines} (state : LongState t s)
    (short : t ≤ 255) (pending : s.pending = none) : Contract s (longInputs (t + 1)) := by
  refine ⟨⟨Bool.noConfusion, ?_⟩, ?_, fun _ _ => Nat.succ_pos 8⟩
  · intro _
    have length : s.log.words.length = t := by rw [state.words, List.length_replicate]
    have len : longRead.ar.len.toNat = 255 := rfl
    refine ⟨_, state.read.log.ars, ?_, ?_, rfl⟩
    · omega
    · rw [length, len]
      show decide (t + 1 = 256) = true ↔ _
      rw [decide_eq_true_iff]
      omega
  · intro r held
    rw [pending] at held
    cases held

theorem long_beat {t : Nat} (short : t ≤ 255) : (longInputs (t + 1)).rValid = true :=
  decide_eq_true (by omega)

/-- A word that comes is not stored as the last one of the line. -/
theorem long_last {t : Nat} {s : Bench longLines} (state : LongState t s) (short : t ≤ 255) :
    (waitRead s.regs (longInputs (t + 1))).regs.cacheLine ⟨511, by decide⟩ = 0 := by
  rw [waitRead, long_beat short]
  show (if s.regs.state = .waitRValidMultiple then _ else _ : Words longLines) _ = _
  rw [state.read.reading.multiple rfl, if_pos rfl]
  have index := state.read.reading.readIndex rfl (by decide)
  have length : s.log.words.length = t := by rw [state.words, List.length_replicate]
  have place : (longRead.slot t).val = t := by
    show (0 + t) % 512 = t
    omega
  rw [length, place] at index
  rw [index, if_neg (by show ¬ 511 = t; omega)]
  exact state.last

/-- The word goes into the record. -/
theorem long_record {t : Nat} (state : LongState t (states longInputs (t + 1))) (short : t ≤ 255) :
    ReadLog longRead (states longInputs (t + 2)).log ∧
      (states longInputs (t + 2)).log.words = List.replicate (t + 1) 1 ∧
      (states longInputs (t + 2)).regs =
        (waitRead (states longInputs (t + 1)).regs (longInputs (t + 1))).regs := by
  have fsm : outputAt longInputs (t + 1) =
      waitRead (states longInputs (t + 1)).regs (longInputs (t + 1)) := state.read.reading.fsm
  have valid : (outputAt longInputs (t + 1)).valid = false := by
    rw [fsm]
    exact (waitRead_offers _ _).2.2.2.2.2
  refine ⟨?_, ?_, congrArg Output.regs fsm⟩
  · rw [states_succ, next_log valid]
    exact state.read.log.record state.read.reading state.read.wide
  · rw [states_succ, next_log valid]
    show (states longInputs (t + 1)).log.words ++
      (if ((outputAt longInputs (t + 1)).rReady && (longInputs (t + 1)).rValid) = true
        then [(longInputs (t + 1)).rData] else []) = _
    rw [fsm, (waitRead_offers _ _).2.2.2.1, long_beat short, state.words, List.replicate_succ']
    rfl

/-- The words come one after the other, and none is the last word of the line. -/
theorem long_state {j : Nat} (short : j ≤ 255) : LongState j (states longInputs (j + 1)) := by
  induction j with
  | zero =>
      have idle : Idle (states longInputs 0) := ⟨rfl, rfl⟩
      exact ⟨(idle.read_step rfl rfl long_contract_zero).2.1 rfl, rfl, rfl⟩
  | succ j ih =>
      have before := ih (by omega)
      obtain ⟨record, words, regs⟩ := long_record before (by omega)
      have length : (states longInputs (j + 1)).log.words.length = j := by
        rw [before.words, List.length_replicate]
      have more : (longInputs (j + 1)).rLast = false := decide_eq_false (by omega)
      refine ⟨⟨rfl, before.read.wide, ?_, record⟩, words, ?_⟩
      · have grown : List.replicate (j + 1) 1 =
            (states longInputs (j + 1)).log.words ++ [(longInputs (j + 1)).rData] := by
          rw [before.words, List.replicate_succ']
          rfl
        rw [words, regs, grown]
        apply before.read.reading.next before.read.wide (long_beat (by omega)) more
        rw [length]
        show j + 1 < 512
        omega
      · rw [regs]
        exact long_last before (by omega)

theorem long_legal : Legal longInputs := by
  intro t
  cases t with
  | zero =>
      exact long_contract_zero
  | succ t =>
      by_cases short : t ≤ 255
      · exact long_contract (long_state short) short (long_pending t)
      · refine ⟨⟨Bool.noConfusion, ?_⟩, ?_, fun _ _ => Nat.succ_pos 8⟩
        · intro beat
          have none : (longInputs (t + 1)).rValid = false := decide_eq_false (by omega)
          rw [none] at beat
          cases beat
        · intro r held
          rw [long_pending] at held
          cases held

/-- The response comes after 256 words, and the last word of the line is not that of the memory. -/
theorem lines_cut_short :
    ¬ ∀ (p : Params) (inputs : Nat → Input p), 1 ≤ p.wordBits → p.byteOffset = p.wordBits + 3 →
      Legal inputs → ∀ t r, (outputAt inputs t).valid = true →
        (states inputs t).log.granted = [r] → r.we = false → r.single = false → r.size = 3 →
          ∀ mem, ReadFrom mem r.ar (states inputs t).log.words →
            ∀ k, (outputAt inputs t).rdata k = mem (r.lineWord k) := by
  intro always
  have before := long_state (j := 255) (Nat.le_refl _)
  obtain ⟨record, words, regs⟩ := long_record before (Nat.le_refl _)
  have state : (states longInputs 257).regs.state = .completeRead := by
    rw [regs, waitRead, long_beat (Nat.le_refl _)]
    rfl
  obtain ⟨valid, given⟩ := response_completeRead (i := longInputs 257) state
  have ones : ReadFrom (fun _ => 1) longRead.ar (states longInputs 257).log.words := by
    intro j inside
    simp only [words, List.getElem_replicate]
  have one := always longLines longInputs (by decide) rfl long_legal 257 longRead
    valid record.granted rfl rfl rfl (fun _ => 1) ones ⟨511, by decide⟩
  have zero : (states longInputs 257).regs.cacheLine ⟨511, by decide⟩ = 0 := by
    rw [regs]
    exact long_last before (Nat.le_refl _)
  rw [outputAt, given, zero] at one
  exact absurd one (by decide)

end Ariane.AxiAdapter
