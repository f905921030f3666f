import Ariane.Scoreboard

set_option autoImplicit false

namespace Ariane.Scoreboard

open Rtl (Machine)
open Rtl.Ring

/-- The handshake the neighbours keep: an issue acknowledge answers a valid request,
a commit acknowledge a valid entry, and port 1 never commits without port 0. -/
structure Contract (n : Nat) (s : State) (i : Input) : Prop where
  issue : i.issueAck = true → issueInstrValid n s i = true
  commit0 : i.commitAck0 = true → (commitInstr n s 0).valid = true
  commit1 : i.commitAck1 = true → (commitInstr n s 1).valid = true
  order : i.commitAck1 = true → i.commitAck0 = true

/-- The issued slots are the window of `issueCnt` slots from the commit pointer on. -/
structure Window (n : Nat) (s : State) : Prop where
  inside : s.commitPointer < n
  bounded : s.issueCnt ≤ n - 1
  tail : s.issuePointer = slot n s.commitPointer s.issueCnt
  issued : ∀ j < n, (s.mem j).issued = true ↔ InWindow n s.commitPointer s.issueCnt j
  valid : ∀ j, (s.mem j).sbe.valid = true → InWindow n s.commitPointer s.issueCnt j

theorem ptrAdd_eq (n k a b : Nat) (power : n = 2 ^ k) (large : 2 ≤ n) :
    ptrAdd n a b = (a + b) % n := by
  simp only [ptrAdd, two_pow_ptrBits n k power large]

theorem reset_window (n : Nat) (positive : 0 < n) : Window n reset := by
  refine ⟨positive, Nat.zero_le _, ?_, ?_, ?_⟩
  · exact (slot_zero n 0 positive).symm
  · intro j inside
    simp [reset]
  · intro j set
    simp [reset] at set

/-- An instruction only enters when a slot besides the reserved one is free. -/
theorem room_of_enters (n : Nat) (s : State) (i : Input) (window : Window n s)
    (enter : enters n s i = true) : s.issueCnt + 1 ≤ n - 1 := by
  have bound := window.bounded
  simp only [enters, decodedInstrAck, issueFull, Bool.and_eq_true, Bool.not_eq_true',
    beq_eq_false_iff_ne] at enter
  omega

/-- The slot a new instruction is written to is free. -/
theorem issue_slot_free (n : Nat) (s : State) (window : Window n s)
    (room : s.issueCnt + 1 ≤ n - 1) : (s.mem s.issuePointer).issued = false := by
  have inside : s.issuePointer < n := by
    rw [window.tail]
    exact slot_lt n _ _ (by omega)
  have outside : ¬ InWindow n s.commitPointer s.issueCnt s.issuePointer := by
    rw [window.tail, inWindow_slot n _ _ _ (by omega) (by omega)]
    omega
  cases free : (s.mem s.issuePointer).issued with
  | false => rfl
  | true => exact absurd ((window.issued _ inside).mp free) outside

theorem enqueue_entered (n k : Nat) (s : State) (i : Input) (power : n = 2 ^ k)
    (window : Window n s) (enter : enters n s i = true) :
    enqueue n s i =
      { s with
        mem := Function.update s.mem (slot n s.commitPointer s.issueCnt)
          { issued := true, sbe := i.decodedInstr }
        issueCnt := s.issueCnt + 1
        issuePointer := slot n s.commitPointer (s.issueCnt + 1) } := by
  have room := room_of_enters n s i window enter
  have large : 2 ≤ n := by omega
  have place : slot n s.commitPointer s.issueCnt < n := slot_lt n _ _ (by omega)
  simp only [enqueue, enter, ↓reduceIte, ptrAdd_eq n k _ _ power large, window.tail,
    write_of_lt n _ _ _ place, Nat.mod_eq_of_lt (show s.issueCnt + 1 < n by omega)]
  simp only [slot, Nat.mod_add_mod, Nat.add_assoc]

theorem enqueue_window (n k : Nat) (s : State) (i : Input) (power : n = 2 ^ k)
    (window : Window n s) : Window n (enqueue n s i) := by
  by_cases enter : enters n s i = true
  · have room := room_of_enters n s i window enter
    rw [enqueue_entered n k s i power window enter]
    refine ⟨window.inside, by simpa using room, rfl, ?_, ?_⟩
    · intro j inside
      simp only [inWindow_push, Function.update_apply]
      split
      · rename_i here
        exact iff_of_true rfl (Or.inr here)
      · rename_i away
        simpa only [away, or_false] using window.issued j inside
    · intro j
      simp only [inWindow_push, Function.update_apply]
      split
      · rename_i here
        exact fun _ => Or.inr here
      · exact fun set => Or.inl (window.valid j set)
  · simpa only [enqueue, enter, Bool.false_eq_true, ↓reduceIte] using window

theorem writeBackPort_issued (n : Nat) (target : BitVec 64) (mem : Nat → Slot) (p : WbPort)
    (j : Nat) : (writeBackPort n target mem p j).issued = (mem j).issued := by
  unfold writeBackPort
  split
  · simp only [Function.update_apply]
    split
    · rename_i here
      rw [here]
    · rfl
  · rfl

/-- A write-back marks only issued entries valid. -/
theorem writeBackPort_valid (n : Nat) (target : BitVec 64) (mem : Nat → Slot) (p : WbPort)
    (j : Nat) (set : (writeBackPort n target mem p j).sbe.valid = true) :
    (mem j).sbe.valid = true ∨ (j < n ∧ (mem j).issued = true) := by
  unfold writeBackPort at set
  split at set
  · rename_i hit
    by_cases here : j = p.transId
    · exact Or.inr (here ▸ hit.2)
    · rw [Function.update_of_ne here] at set
      exact Or.inl set
  · exact Or.inl set

theorem writeBackPorts_issued (n : Nat) (target : BitVec 64) (wb : List WbPort)
    (mem : Nat → Slot) (j : Nat) :
    (wb.foldl (writeBackPort n target) mem j).issued = (mem j).issued := by
  induction wb generalizing mem with
  | nil => rfl
  | cons p rest ih => rw [List.foldl_cons, ih, writeBackPort_issued]

theorem writeBackPorts_valid (n : Nat) (target : BitVec 64) (wb : List WbPort)
    (mem : Nat → Slot) (j : Nat)
    (set : (wb.foldl (writeBackPort n target) mem j).sbe.valid = true) :
    (mem j).sbe.valid = true ∨ (j < n ∧ (mem j).issued = true) := by
  induction wb generalizing mem with
  | nil => exact Or.inl set
  | cons p rest ih =>
      rcases ih _ set with valid | issued
      · exact writeBackPort_valid n target mem p j valid
      · rw [writeBackPort_issued] at issued
        exact Or.inr issued

theorem writeBack_window (n : Nat) (s : State) (i : Input) (window : Window n s) :
    Window n (writeBack n i s) := by
  refine ⟨window.inside, window.bounded, window.tail, ?_, ?_⟩
  · intro j inside
    simp only [writeBack, writeBackPorts_issued]
    exact window.issued j inside
  · intro j set
    rcases writeBackPorts_valid n i.resolvedTarget i.wb s.mem j set with valid | issued
    · exact window.valid j valid
    · exact (window.issued j issued.1).mp issued.2

/-- A commit takes the oldest instruction out of the window. -/
theorem commitPort_acked (n k base port : Nat) (s : State) (power : n = 2 ^ k)
    (window : Window n s) (occupied : 0 < s.issueCnt)
    (head : ptrAdd n base port = s.commitPointer) :
    commitPort n base port true s =
      { s with
        mem := Function.update s.mem s.commitPointer (s.mem s.commitPointer).retire
        issueCnt := s.issueCnt - 1
        commitPointer := (s.commitPointer + 1) % n } := by
  have bound := window.bounded
  have large : 2 ≤ n := by omega
  have count : ptrAdd n s.issueCnt (n - 1) = s.issueCnt - 1 := by
    rw [ptrAdd_eq n k _ _ power large, show s.issueCnt + (n - 1) = s.issueCnt - 1 + n by omega,
      Nat.add_mod_right, Nat.mod_eq_of_lt (by omega)]
  simp only [commitPort, ↓reduceIte, head, write_of_lt n _ _ _ window.inside,
    two_pow_ptrBits n k power large, count, ptrAdd_eq n k _ _ power large]

theorem commitPort_window (n k base port : Nat) (ack : Bool) (s : State) (power : n = 2 ^ k)
    (window : Window n s) (occupied : ack = true → 0 < s.issueCnt)
    (head : ack = true → ptrAdd n base port = s.commitPointer) :
    Window n (commitPort n base port ack s) := by
  cases ack with
  | false => exact window
  | true =>
      have bound := window.bounded
      have some := occupied rfl
      obtain ⟨rest, count⟩ : ∃ rest, s.issueCnt = rest + 1 := ⟨s.issueCnt - 1, by omega⟩
      have smaller : rest + 1 ≤ n := by omega
      rw [commitPort_acked n k base port s power window some (head rfl)]
      refine ⟨Nat.mod_lt _ (by omega), by dsimp only; omega, ?_, ?_, ?_⟩
      · simp only [window.tail, slot_succ, count, Nat.add_sub_cancel]
      · intro j inside
        simp only [count, Nat.add_sub_cancel,
          inWindow_pop n s.commitPointer rest j window.inside smaller, Function.update_apply]
        split
        · rename_i here
          exact iff_of_false (by simp [Slot.retire]) (fun both => both.2 here)
        · rename_i away
          rw [window.issued j inside, count]
          exact (and_iff_left away).symm
      · intro j
        simp only [count, Nat.add_sub_cancel,
          inWindow_pop n s.commitPointer rest j window.inside smaller, Function.update_apply]
        split
        · simp [Slot.retire]
        · rename_i away
          intro set
          exact ⟨count ▸ window.valid j set, away⟩

theorem flushAll_window (n : Nat) (s : State) (i : Input) (window : Window n s) :
    Window n (flushAll i s) := by
  unfold flushAll
  split
  · refine ⟨Nat.zero_lt_of_lt window.inside, Nat.zero_le _, ?_, ?_, ?_⟩
    · exact (slot_zero n 0 (Nat.zero_lt_of_lt window.inside)).symm
    · intro j inside
      simp [Slot.clear]
    · intro j set
      simp [Slot.clear] at set
  · exact window

theorem enqueue_count (n k : Nat) (s : State) (i : Input) (power : n = 2 ^ k)
    (window : Window n s) : s.issueCnt ≤ (enqueue n s i).issueCnt := by
  by_cases enter : enters n s i = true
  · rw [enqueue_entered n k s i power window enter]
    exact Nat.le_succ _
  · simp only [enqueue, enter, Bool.false_eq_true, ↓reduceIte, Nat.le_refl]

@[simp] theorem enqueue_commitPointer (n : Nat) (s : State) (i : Input) :
    (enqueue n s i).commitPointer = s.commitPointer := by
  unfold enqueue
  split <;> rfl

/-- A valid entry on commit port `port` is the `port`-th instruction of the window. -/
theorem occupied_of_valid (n k : Nat) (s : State) (port : Nat) (power : n = 2 ^ k)
    (window : Window n s) (small : port < 2)
    (valid : (commitInstr n s port).valid = true) : 2 ≤ n ∧ port < s.issueCnt := by
  have bound := window.bounded
  have member := window.valid _ valid
  by_cases large : 2 ≤ n
  · rw [ptrAdd_eq n k _ _ power large] at member
    exact ⟨large, (inWindow_slot n _ _ port (by omega) (by omega)).mp member⟩
  · -- a single slot is the reserved one, so nothing is ever issued
    have empty : s.issueCnt = 0 := by omega
    rw [empty] at member
    exact absurd member (inWindow_zero n _ _)

/-- The queue between write-back and commit. -/
def beforeCommit (n : Nat) (s : State) (i : Input) : State := writeBack n i (enqueue n s i)

/-- The queue between the two commit ports. -/
def betweenCommits (n : Nat) (s : State) (i : Input) : State :=
  commitPort n s.commitPointer 0 i.commitAck0 (beforeCommit n s i)

theorem next_eq (n : Nat) (s : State) (i : Input) :
    next n s i =
      flushAll i (commitPort n s.commitPointer 1 i.commitAck1 (betweenCommits n s i)) := rfl

theorem beforeCommit_window (n k : Nat) (s : State) (i : Input) (power : n = 2 ^ k)
    (window : Window n s) : Window n (beforeCommit n s i) :=
  writeBack_window n _ i (enqueue_window n k s i power window)

/-- Port 0 finds its instruction at the head of the queue. -/
theorem port0_ready (n k : Nat) (s : State) (i : Input) (power : n = 2 ^ k)
    (window : Window n s) (contract : Contract n s i) (ack : i.commitAck0 = true) :
    0 < (beforeCommit n s i).issueCnt ∧
      ptrAdd n s.commitPointer 0 = (beforeCommit n s i).commitPointer := by
  obtain ⟨large, occupied⟩ :=
    occupied_of_valid n k s 0 power window (by decide) (contract.commit0 ack)
  have grown := enqueue_count n k s i power window
  refine ⟨Nat.lt_of_lt_of_le occupied grown, ?_⟩
  rw [ptrAdd_eq n k _ _ power large]
  exact (slot_zero n _ window.inside).trans (enqueue_commitPointer n s i).symm

theorem betweenCommits_window (n k : Nat) (s : State) (i : Input) (power : n = 2 ^ k)
    (window : Window n s) (contract : Contract n s i) : Window n (betweenCommits n s i) := by
  apply commitPort_window n k _ _ _ _ power (beforeCommit_window n k s i power window)
  · exact fun ack => (port0_ready n k s i power window contract ack).1
  · exact fun ack => (port0_ready n k s i power window contract ack).2

/-- The queue once port 0 has taken its instruction. -/
theorem betweenCommits_acked (n k : Nat) (s : State) (i : Input) (power : n = 2 ^ k)
    (window : Window n s) (contract : Contract n s i) (ack : i.commitAck0 = true) :
    betweenCommits n s i =
      { beforeCommit n s i with
        mem := Function.update (beforeCommit n s i).mem s.commitPointer
          ((beforeCommit n s i).mem s.commitPointer).retire
        issueCnt := (beforeCommit n s i).issueCnt - 1
        commitPointer := (s.commitPointer + 1) % n } := by
  have head := port0_ready n k s i power window contract ack
  have same : (beforeCommit n s i).commitPointer = s.commitPointer :=
    enqueue_commitPointer n s i
  rw [betweenCommits, ack, commitPort_acked n k _ _ _ power
    (beforeCommit_window n k s i power window) head.1 head.2, same]

/-- Port 1 finds its instruction at the head once port 0 has committed. -/
theorem port1_ready (n k : Nat) (s : State) (i : Input) (power : n = 2 ^ k)
    (window : Window n s) (contract : Contract n s i) (ack : i.commitAck1 = true) :
    0 < (betweenCommits n s i).issueCnt ∧
      ptrAdd n s.commitPointer 1 = (betweenCommits n s i).commitPointer := by
  obtain ⟨large, occupied⟩ :=
    occupied_of_valid n k s 1 power window (by decide) (contract.commit1 ack)
  have grown : s.issueCnt ≤ (beforeCommit n s i).issueCnt :=
    enqueue_count n k s i power window
  rw [betweenCommits_acked n k s i power window contract (contract.order ack)]
  exact ⟨by dsimp only; omega, ptrAdd_eq n k _ _ power large⟩

theorem next_window (n k : Nat) (s : State) (i : Input) (power : n = 2 ^ k)
    (window : Window n s) (contract : Contract n s i) : Window n (next n s i) := by
  rw [next_eq]
  apply flushAll_window
  apply commitPort_window n k _ _ _ _ power
    (betweenCommits_window n k s i power window contract)
  · exact fun ack => (port1_ready n k s i power window contract ack).1
  · exact fun ack => (port1_ready n k s i power window contract ack).2

/-- The window survives every legal run. -/
theorem run_window (n k : Nat) (inputs : List Input) (power : n = 2 ^ k)
    (legal : (machine n).Legal (Contract n) reset inputs) :
    Window n ((machine n).run inputs) :=
  (machine n).run_invariant (reset_window n (power ▸ Nat.two_pow_pos k))
    (fun s i => next_window n k s i power) legal

end Ariane.Scoreboard
