import Ariane.RemopRedirec
import Mathlib.Algebra.Group.Nat.Defs

set_option autoImplicit false

/- A transfer between two connected monitors: sender and receiver count in step, but the data
register is one word behind. -/
namespace Ariane.RemopRedirec

open Rtl (Machine)

/-- The index of the last word. -/
def lastIndex : BitVec addressLength := BitVec.allOnes addressLength

/-- What holds between two cycles: the receiver stays one index behind the sender. -/
structure Aligned (s : System) : Prop where
  sending : s.source.startToRedirect = s.source.overrideOut
  counters : s.target.saveCounter = s.source.storedCounter2 - 1
  parked : s.source.overrideOut = false → s.source.storedCounter2 = 0

/-- What holds after `k` words of a transfer that started in `s`. -/
structure Moved (values : Stored) (s : System) (k : Nat) (t : System) : Prop where
  counter : t.source.storedCounter2 = BitVec.ofNat addressLength k
  overrideOut : t.source.overrideOut = decide (k < 2 ^ addressLength)
  carried : t.source.overrideDataout =
    if k = 0 then s.source.overrideDataout else values (BitVec.ofNat addressLength (k - 1))
  saved : ∀ n, t.target.saveValue n =
    if n.toNat + 1 < k then values n
    else if 0 < k ∧ n = lastIndex then s.source.overrideDataout
    else s.target.saveValue n

section Cycle

variable {s t : System} {i : SystemInput} {values : Stored} {k : Nat}

theorem next_source_overrideOut :
    (s.next i).source.overrideOut =
      (!finishes s.source && (s.source.overrideOut || fires i.source)) :=
  next_overrideOut i.source s.source

theorem next_target_saveCounter :
    (s.next i).target.saveCounter =
      if s.source.overrideOut then s.target.saveCounter + 1 else s.target.saveCounter :=
  next_saveCounter (s.targetInput i) s.target

theorem Aligned.step (aligned : Aligned s) : Aligned (s.next i) := by
  have counter : (s.next i).source.storedCounter2 =
      if s.source.overrideOut then s.source.storedCounter2 + 1 else s.source.storedCounter2 := by
    rw [← aligned.sending]
    exact next_storedCounter2 i.source s.source
  constructor
  · rw [next_source_overrideOut, ← aligned.sending]
    exact next_startToRedirect i.source s.source
  · rw [next_target_saveCounter, counter, aligned.counters]
    cases s.source.overrideOut with
    | false => rfl
    | true =>
        rw [if_pos rfl, if_pos rfl, BitVec.sub_add_cancel, BitVec.add_sub_cancel]
  · intro low
    rw [next_source_overrideOut] at low
    rw [counter]
    cases high : s.source.overrideOut with
    | false =>
        rw [if_neg Bool.false_ne_true]
        exact aligned.parked high
    | true =>
        rw [high, Bool.true_or, Bool.and_true, Bool.not_eq_false'] at low
        rw [finishes, Bool.and_eq_true, beq_iff_eq] at low
        rw [if_pos rfl, low.2]
        rfl

theorem aligned_reset : Aligned {} := ⟨rfl, rfl, fun _ => rfl⟩

theorem aligned_run (inputs : List SystemInput) : Aligned (system.run inputs) :=
  system.run_invariant aligned_reset (fun _ _ aligned _ => aligned.step)
    (system.legal_true system.reset inputs)

/-- The cycle of the trigger. -/
theorem Aligned.start (aligned : Aligned s) (idle : s.source.overrideOut = false)
    (trigger : fires i.source = true) : Moved values s 0 (s.next i) := by
  have start : s.source.startToRedirect = false := aligned.sending.trans idle
  constructor
  · show (RemopRedirec.next i.source s.source).storedCounter2 = _
    rw [next_storedCounter2, start, if_neg Bool.false_ne_true]
    exact aligned.parked idle
  · rw [next_source_overrideOut, finishes, start, trigger, Bool.or_true]
    rfl
  · show (RemopRedirec.next i.source s.source).overrideDataout = _
    rw [next_overrideDataout, start, if_neg Bool.false_ne_true, if_pos rfl]
  · intro n
    show (RemopRedirec.next (s.targetInput i) s.target).saveValue n = _
    rw [next_saveValue, System.targetInput, idle, if_neg Bool.false_ne_true,
      if_neg (Nat.not_lt_zero _), if_neg (fun some => Nat.lt_irrefl 0 some.1)]

/-- The receiver writes the word that the sender handed over one cycle earlier. -/
theorem Moved.step (aligned : Aligned t) (moved : Moved values s k t)
    (short : k < 2 ^ addressLength) (same : i.source.storeValue = values) :
    Moved values s (k + 1) (t.next i) := by
  have high : t.source.overrideOut = true := by
    rw [moved.overrideOut]
    exact decide_eq_true short
  have start : t.source.startToRedirect = true := aligned.sending.trans high
  constructor
  · show (RemopRedirec.next i.source t.source).storedCounter2 = _
    rw [next_storedCounter2, start, if_pos rfl, moved.counter, BitVec.ofNat_add]
    rfl
  · rw [next_source_overrideOut, finishes, start, high, moved.counter, Bool.true_and,
      Bool.true_or, Bool.and_true]
    have small : k < 16 := short
    have last : (BitVec.ofNat addressLength k == BitVec.allOnes addressLength) =
        decide (k = 15) := by
      rw [Bool.eq_iff_iff, beq_iff_eq, decide_eq_true_iff]
      constructor
      · intro equal
        have value : k % 16 = 15 := congrArg BitVec.toNat equal
        omega
      · intro equal
        rw [equal]
        rfl
    rw [last]
    by_cases final : k = 15
    · subst final
      rfl
    · rw [decide_eq_false final, Bool.not_false]
      symm
      exact decide_eq_true (show k + 1 < 16 by omega)
  · show (RemopRedirec.next i.source t.source).overrideDataout = _
    rw [next_overrideDataout, start, if_pos rfl, same, moved.counter,
      if_neg (Nat.succ_ne_zero k), Nat.add_sub_cancel]
  · intro n
    show (RemopRedirec.next (t.targetInput i) t.target).saveValue n = _
    have small : k < 16 := short
    have bound := n.isLt
    have here : n = t.target.saveCounter ↔ n.toNat = (k + 15) % 16 := by
      rw [aligned.counters, moved.counter, ← BitVec.toNat_inj]
      have value : (BitVec.ofNat addressLength k - 1).toNat = (k + 15) % 16 := by
        rw [BitVec.toNat_sub, BitVec.toNat_ofNat]
        show (16 - 1 + k % 16) % 16 = _
        omega
      rw [value]
    have last : n = lastIndex ↔ n.toNat = 15 := by
      rw [← BitVec.toNat_inj]
      rfl
    rw [next_saveValue, System.targetInput, high, if_pos rfl, Function.update_apply,
      moved.saved n, moved.carried]
    by_cases write : n = t.target.saveCounter
    · rw [if_pos write]
      have value := here.mp write
      by_cases first : k = 0
      · subst first
        rw [if_pos rfl, if_neg (by omega), if_pos ⟨Nat.one_pos, last.mpr (by omega)⟩]
      · have index : BitVec.ofNat addressLength (k - 1) = n := by
          rw [← BitVec.toNat_inj, BitVec.toNat_ofNat]
          show (k - 1) % 16 = _
          omega
        rw [if_neg first, index, if_pos (by omega)]
    · rw [if_neg write]
      have other : n.toNat ≠ (k + 15) % 16 := fun value => write (here.mpr value)
      by_cases done : n.toNat + 1 < k
      · rw [if_pos done, if_pos (Nat.lt_succ_of_lt done)]
      · have later : ¬ n.toNat + 1 < k + 1 := by omega
        rw [if_neg done, if_neg later]
        by_cases final : n = lastIndex
        · have value := last.mp final
          have some : 0 < k := by omega
          rw [if_pos ⟨some, final⟩, if_pos ⟨Nat.succ_pos k, final⟩]
        · rw [if_neg (fun both => final both.2), if_neg (fun both => final both.2)]

end Cycle

/-- What holds after the cycles of a transfer. -/
theorem moved_run {s t : System} {values : Stored} (inputs : List SystemInput) (k : Nat)
    (aligned : Aligned t) (moved : Moved values s k t)
    (short : k + inputs.length ≤ 2 ^ addressLength)
    (same : ∀ i ∈ inputs, i.source.storeValue = values) :
    Moved values s (k + inputs.length) (system.runFrom t inputs) := by
  induction inputs generalizing k t with
  | nil => exact moved
  | cons i rest ih =>
      rw [List.length_cons] at short
      have longer : k + 1 + rest.length ≤ 2 ^ addressLength := by omega
      have more : k < 2 ^ addressLength := by omega
      have stepped := moved.step aligned more (same i List.mem_cons_self)
      have ran := ih (k + 1) aligned.step stepped longer
        (fun j member => same j (List.mem_cons_of_mem _ member))
      rw [List.length_cons, Nat.add_comm rest.length 1, ← Nat.add_assoc]
      exact ran

/-- The cycles of a transfer: the trigger, and all cycles until `override_out` falls. -/
structure Transfer (s : System) (i : SystemInput) (during : List SystemInput) : Prop where
  idle : s.source.overrideOut = false
  trigger : fires i.source = true
  high : ∀ k < during.length,
    (system.runFrom s (i :: during.take k)).source.overrideOut = true
  falls : (system.runFrom s (i :: during)).source.overrideOut = false

/-- The target holds the recorded values, and its counter is back at the start. -/
structure Copied (values : Stored) (t : System) : Prop where
  saved : ∀ n, t.target.saveValue n = values n
  counter : t.target.saveCounter = BitVec.allOnes addressLength

/-- A transfer takes one cycle for each word. -/
theorem Transfer.length {s : System} {i : SystemInput} {during : List SystemInput}
    {values : Stored} (aligned : Aligned s) (transfer : Transfer s i during)
    (same : ∀ j ∈ during, j.source.storeValue = values) :
    during.length = 2 ^ addressLength := by
  have start : Moved values s 0 (s.next i) := aligned.start transfer.idle transfer.trigger
  by_cases short : during.length < 2 ^ addressLength
  · have ran := moved_run during 0 aligned.step start (by omega) same
    rw [Nat.zero_add] at ran
    have high := ran.overrideOut
    rw [decide_eq_true short] at high
    have falls : (system.runFrom (s.next i) during).source.overrideOut = false := transfer.falls
    exact absurd (falls.symm.trans high) Bool.false_ne_true
  · by_cases long : 2 ^ addressLength < during.length
    · have taken : (during.take (2 ^ addressLength)).length = 2 ^ addressLength := by
        rw [List.length_take]
        omega
      have ran := moved_run (during.take (2 ^ addressLength)) 0 aligned.step start (by omega)
        (fun j member => same j (List.mem_of_mem_take member))
      rw [Nat.zero_add, taken] at ran
      have low := ran.overrideOut
      rw [decide_eq_false (Nat.lt_irrefl _)] at low
      have high : (system.runFrom (s.next i)
          (during.take (2 ^ addressLength))).source.overrideOut = true := transfer.high _ long
      exact absurd (low.symm.trans high) Bool.false_ne_true
    · omega

/-- After every history, a transfer of recorded values that stay as they are copies them all if and
only if the data register already holds the last of them when the transfer starts. -/
theorem redirection_copies (history : List SystemInput) (i : SystemInput)
    (during : List SystemInput) (values : Stored)
    (transfer : Transfer (system.run history) i during)
    (same : ∀ j ∈ during, j.source.storeValue = values) :
    Copied values (system.runFrom (system.run history) (i :: during)) ↔
      (system.run history).source.overrideDataout = values lastIndex := by
  have aligned := aligned_run history
  have length := transfer.length aligned same
  have start : Moved values (system.run history) 0 ((system.run history).next i) :=
    aligned.start transfer.idle transfer.trigger
  have ran := moved_run during 0 aligned.step start (by omega) same
  rw [Nat.zero_add, length] at ran
  have counter : (system.runFrom (system.run history) (i :: during)).target.saveCounter =
      BitVec.allOnes addressLength := by
    have after := aligned_run (history ++ (i :: during))
    rw [system.run_append] at after
    rw [after.counters, after.parked transfer.falls]
    rfl
  have final := ran.saved lastIndex
  rw [if_neg (show ¬ lastIndex.toNat + 1 < 2 ^ addressLength by decide),
    if_pos ⟨Nat.two_pow_pos _, rfl⟩] at final
  constructor
  · intro copied
    exact final.symm.trans (copied.saved lastIndex)
  · intro equal
    refine ⟨?_, counter⟩
    intro n
    by_cases last : n = lastIndex
    · rw [last]
      exact final.trans equal
    · have saved := ran.saved n
      have inside : n.toNat + 1 < 2 ^ addressLength := by
        have bound := n.isLt
        have other : n.toNat ≠ 15 := fun value => last (BitVec.eq_of_toNat_eq value)
        show n.toNat + 1 < 16
        have bound' : n.toNat < 16 := bound
        omega
      rw [if_pos inside] at saved
      exact saved

/-- Word `n` of the source holds `n`. -/
def recorded : Stored := fun n => n.setWidth 33

/-- The source holds these words, and no rule matches. -/
def holding : SystemInput := { source := { storeValue := recorded } }

/-- A rule of the source starts a transfer. -/
def trigger : SystemInput := { source := { red := true, redEvent := true, redRwEvent := true } }

/-- A whole transfer. -/
def firstTransfer : List SystemInput := trigger :: List.replicate 16 holding

theorem transfer_of_reset : Transfer (system.run []) trigger (List.replicate 16 holding) := by
  refine ⟨rfl, rfl, ?_, ?_⟩
  · decide
  · decide

/-- A second transfer of the same words copies them all. -/
theorem redirection_copies_again :
    Copied recorded
      (system.runFrom (system.run firstTransfer) (trigger :: List.replicate 16 holding)) := by
  apply (redirection_copies firstTransfer trigger (List.replicate 16 holding) recorded ?_ ?_).mpr
  · decide
  · refine ⟨?_, rfl, ?_, ?_⟩
    · decide
    · decide
    · decide
  · intro j member
    rw [List.eq_of_mem_replicate member]
    rfl

/-- After the first transfer, the last word of the target is what the data register held at reset. -/
theorem last_word_lost :
    ¬ ∀ history i during values, Transfer (system.run history) i during →
      (∀ j ∈ during, j.source.storeValue = values) →
      Copied values (system.runFrom (system.run history) (i :: during)) := by
  intro all
  have copied := all [] trigger (List.replicate 16 holding) recorded transfer_of_reset ?_
  · have last := copied.saved lastIndex
    exact absurd last (by decide)
  · intro j member
    rw [List.eq_of_mem_replicate member]
    rfl

end Ariane.RemopRedirec
