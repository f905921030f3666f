import Ariane.ScoreboardWindow

set_option autoImplicit false

/- The scoreboard as a queue: instructions leave in the order in which they entered,
each exactly once, and only a flush drops any. -/
namespace Ariane.Scoreboard

open Rtl (Machine)
open Rtl.Ring

/-- What an entry keeps from issue to commit: everything but the fields a write-back sets. -/
def identity (e : ScoreboardEntry) : ScoreboardEntry :=
  { e with
    valid := false
    result := 0
    ex := {}
    bp := { e.bp with predictAddress := 0 } }

/-- The instructions in flight, oldest first. -/
def inFlight (n : Nat) (s : State) : List ScoreboardEntry :=
  contents n (fun j => identity (s.mem j).sbe) s.commitPointer s.issueCnt

/-- The instruction that enters in this cycle. -/
def accepted (n : Nat) (s : State) (i : Input) : List ScoreboardEntry :=
  if enters n s i then [identity i.decodedInstr] else []

/-- The instructions that commit in this cycle, in port order. -/
def retired (n : Nat) (s : State) (i : Input) : List ScoreboardEntry :=
  (if i.commitAck0 then [identity (commitInstr n s 0)] else []) ++
    (if i.commitAck1 then [identity (commitInstr n s 1)] else [])

theorem writeBackEntry_identity (target : BitVec 64) (p : WbPort) (e : ScoreboardEntry) :
    identity (writeBackEntry target p e) = identity e := by
  unfold writeBackEntry
  dsimp only
  split
  · rfl
  · split <;> rfl

theorem writeBackPort_identity (n : Nat) (target : BitVec 64) (mem : Nat → Slot) (p : WbPort)
    (j : Nat) : identity (writeBackPort n target mem p j).sbe = identity (mem j).sbe := by
  unfold writeBackPort
  split
  · by_cases here : j = p.transId
    · rw [here, Function.update_self]
      exact writeBackEntry_identity target p _
    · rw [Function.update_of_ne here]
  · rfl

theorem writeBackPorts_identity (n : Nat) (target : BitVec 64) (wb : List WbPort)
    (mem : Nat → Slot) (j : Nat) :
    identity (wb.foldl (writeBackPort n target) mem j).sbe = identity (mem j).sbe := by
  induction wb generalizing mem with
  | nil => rfl
  | cons p rest ih => rw [List.foldl_cons, ih, writeBackPort_identity]

theorem writeBack_inFlight (n : Nat) (s : State) (i : Input) :
    inFlight n (writeBack n i s) = inFlight n s := by
  apply contents_congr
  intro j _
  exact writeBackPorts_identity n i.resolvedTarget i.wb s.mem _

theorem enqueue_inFlight (n k : Nat) (s : State) (i : Input) (power : n = 2 ^ k)
    (window : Window n s) : inFlight n (enqueue n s i) = inFlight n s ++ accepted n s i := by
  by_cases enter : enters n s i = true
  · have room := room_of_enters n s i window enter
    have pushed := contents_push n (fun j => identity (s.mem j).sbe) s.commitPointer
      s.issueCnt (identity i.decodedInstr) (by omega)
    rw [enqueue_entered n k s i power window enter, accepted, if_pos enter, inFlight, inFlight,
      ← pushed]
    apply contents_congr
    intro j _
    simp only [Function.update_apply]
    split <;> rfl
  · simp only [enqueue, accepted, enter, Bool.false_eq_true, ↓reduceIte, List.append_nil]

theorem beforeCommit_inFlight (n k : Nat) (s : State) (i : Input) (power : n = 2 ^ k)
    (window : Window n s) :
    inFlight n (beforeCommit n s i) = inFlight n s ++ accepted n s i := by
  rw [beforeCommit, writeBack_inFlight, enqueue_inFlight n k s i power window]

/-- A commit removes the oldest instruction. -/
theorem commitPort_inFlight (n k base port : Nat) (s : State) (power : n = 2 ^ k)
    (window : Window n s) (occupied : 0 < s.issueCnt)
    (head : ptrAdd n base port = s.commitPointer) :
    inFlight n s =
      identity (s.mem s.commitPointer).sbe :: inFlight n (commitPort n base port true s) := by
  have bound := window.bounded
  obtain ⟨rest, count⟩ : ∃ rest, s.issueCnt = rest + 1 := ⟨s.issueCnt - 1, by omega⟩
  rw [commitPort_acked n k base port s power window occupied head]
  simp only [inFlight, count, Nat.add_sub_cancel, contents_pop n _ _ _ window.inside]
  congr 1
  -- the freed slot has left the window
  apply contents_congr
  intro j below
  have away : slot n ((s.commitPointer + 1) % n) j ≠ s.commitPointer :=
    ((inWindow_pop n s.commitPointer rest _ window.inside (by omega)).mp ⟨j, below, rfl⟩).2
  rw [Function.update_of_ne away]

/-- What a commit port shows is the instruction that leaves. -/
theorem commitInstr_inFlight (n k : Nat) (s : State) (port : Nat) (power : n = 2 ^ k)
    (window : Window n s) (small : port < 2) (valid : (commitInstr n s port).valid = true) :
    (inFlight n s)[port]? = some (identity (commitInstr n s port)) := by
  obtain ⟨large, occupied⟩ := occupied_of_valid n k s port power window small valid
  rw [inFlight, contents_getElem? n _ _ _ _ occupied, commitInstr,
    ptrAdd_eq n k _ _ power large]
  rfl

theorem beforeCommit_head (n k : Nat) (s : State) (i : Input) (port : Nat) (power : n = 2 ^ k)
    (window : Window n s) (small : port < 2) (valid : (commitInstr n s port).valid = true) :
    (inFlight n (beforeCommit n s i))[port]? = some (identity (commitInstr n s port)) := by
  have shown := commitInstr_inFlight n k s port power window small valid
  rw [beforeCommit_inFlight n k s i power window]
  obtain ⟨below, _⟩ := List.getElem?_eq_some_iff.mp shown
  rw [List.getElem?_append_left below, shown]

/-- Port 0 takes the head of the queue. -/
theorem betweenCommits_inFlight (n k : Nat) (s : State) (i : Input) (power : n = 2 ^ k)
    (window : Window n s) (contract : Contract n s i) :
    inFlight n (beforeCommit n s i) =
      (if i.commitAck0 then [identity (commitInstr n s 0)] else []) ++
        inFlight n (betweenCommits n s i) := by
  cases ack : i.commitAck0 with
  | false => simp only [betweenCommits, ack, commitPort, Bool.false_eq_true, ↓reduceIte,
      List.nil_append]
  | true =>
      have head := beforeCommit_head n k s i 0 power window (by decide) (contract.commit0 ack)
      have ready := port0_ready n k s i power window contract ack
      have popped := commitPort_inFlight n k _ 0 _ power
        (beforeCommit_window n k s i power window) ready.1 ready.2
      rw [popped, List.getElem?_cons_zero, Option.some.injEq] at head
      rw [popped, head, betweenCommits, ack]
      rfl

/-- Port 1 takes the next instruction. -/
theorem afterCommits_inFlight (n k : Nat) (s : State) (i : Input) (power : n = 2 ^ k)
    (window : Window n s) (contract : Contract n s i) :
    inFlight n (betweenCommits n s i) =
      (if i.commitAck1 then [identity (commitInstr n s 1)] else []) ++
        inFlight n (commitPort n s.commitPointer 1 i.commitAck1 (betweenCommits n s i)) := by
  cases ack : i.commitAck1 with
  | false => simp only [commitPort, Bool.false_eq_true, ↓reduceIte, List.nil_append]
  | true =>
      have first := betweenCommits_inFlight n k s i power window contract
      have head := beforeCommit_head n k s i 1 power window (by decide) (contract.commit1 ack)
      have ready := port1_ready n k s i power window contract ack
      have popped := commitPort_inFlight n k _ 1 _ power
        (betweenCommits_window n k s i power window contract) ready.1 ready.2
      rw [first, contract.order ack, popped] at head
      have same := Option.some.inj head
      rw [popped]
      exact congrArg (· :: _) same

/-- The queue before the commits is what leaves followed by what stays. -/
theorem retired_split (n k : Nat) (s : State) (i : Input) (power : n = 2 ^ k)
    (window : Window n s) (contract : Contract n s i) :
    inFlight n s ++ accepted n s i = retired n s i ++
      inFlight n (commitPort n s.commitPointer 1 i.commitAck1 (betweenCommits n s i)) := by
  rw [← beforeCommit_inFlight n k s i power window,
    betweenCommits_inFlight n k s i power window contract,
    afterCommits_inFlight n k s i power window contract, retired, List.append_assoc]

/-- Only instructions that were in flight before the cycle leave, and they leave in order. -/
theorem retired_prefix (n k : Nat) (s : State) (i : Input) (power : n = 2 ^ k)
    (window : Window n s) (contract : Contract n s i) :
    retired n s i <+: inFlight n s := by
  have split := retired_split n k s i power window contract
  have short : (retired n s i).length ≤ (inFlight n s).length := by
    have length : (inFlight n s).length = s.issueCnt := contents_length n _ _ _
    rw [length]
    cases ack1 : i.commitAck1 with
    | true =>
        have occupied := occupied_of_valid n k s 1 power window (by decide)
          (contract.commit1 ack1)
        simp only [retired, ack1, contract.order ack1, ↓reduceIte, List.length_append,
          List.length_cons, List.length_nil]
        omega
    | false =>
        cases ack0 : i.commitAck0 with
        | true =>
            have occupied := occupied_of_valid n k s 0 power window (by decide)
              (contract.commit0 ack0)
            simp only [retired, ack0, ack1, ↓reduceIte, List.length_append, List.length_cons,
              List.length_nil, Bool.false_eq_true]
            omega
        | false => simp [retired, ack0, ack1]
  exact List.prefix_of_prefix_length_le ⟨_, split.symm⟩ ⟨_, rfl⟩ short

/-- One cycle without a flush conserves the instructions. -/
theorem next_conserves (n k : Nat) (s : State) (i : Input) (power : n = 2 ^ k)
    (window : Window n s) (contract : Contract n s i) (keep : i.flush = false) :
    inFlight n s ++ accepted n s i = retired n s i ++ inFlight n (next n s i) := by
  rw [retired_split n k s i power window contract, next_eq, flushAll, keep]
  rfl

/-- A flush drops whatever has not left. -/
theorem next_flushed (n : Nat) (s : State) (i : Input) (flush : i.flush = true) :
    inFlight n (next n s i) = [] := by
  rw [next_eq, flushAll, if_pos flush]
  rfl

instance decidableContract (n : Nat) (s : State) (i : Input) : Decidable (Contract n s i) :=
  decidable_of_iff
    ((i.issueAck = true → issueInstrValid n s i = true) ∧
      (i.commitAck0 = true → (commitInstr n s 0).valid = true) ∧
      (i.commitAck1 = true → (commitInstr n s 1).valid = true) ∧
      (i.commitAck1 = true → i.commitAck0 = true))
    ⟨fun ⟨issue, commit0, commit1, order⟩ => ⟨issue, commit0, commit1, order⟩,
      fun contract => ⟨contract.issue, contract.commit0, contract.commit1, contract.order⟩⟩

/-- The scoreboard is a queue. After every legal run from reset the issued slots are the
window, a new instruction meets a free slot, and from there on every accepted instruction
leaves exactly once and in issue order unless a flush drops it. -/
theorem fifo_integrity (n k : Nat) (inputs : List Input) (power : n = 2 ^ k)
    (legal : (machine n).Legal (Contract n) reset inputs) :
    let s := (machine n).run inputs
    ((∀ j < n, (s.mem j).issued = true ↔ InWindow n s.commitPointer s.issueCnt j) ∧
      s.issuePointer = (s.commitPointer + s.issueCnt) % n ∧
      s.issueCnt ≤ n - 1 ∧
      ∀ j < n, ¬ InWindow n s.commitPointer s.issueCnt j → (s.mem j).sbe.valid = false) ∧
    (∀ i, Contract n s i →
      (enters n s i = true → (s.mem s.issuePointer).issued = false) ∧
      retired n s i <+: inFlight n s ∧
      (i.flush = true → inFlight n (next n s i) = [])) ∧
    ∀ rest, (machine n).Legal (Contract n) s rest → (∀ i ∈ rest, i.flush = false) →
      inFlight n s ++ (machine n).collect (accepted n) s rest =
        (machine n).collect (retired n) s rest ++ inFlight n ((machine n).runFrom s rest) := by
  intro s
  have window : Window n s := run_window n k inputs power legal
  refine ⟨⟨window.issued, window.tail, window.bounded, ?_⟩, ?_, ?_⟩
  · intro j _ outside
    rw [Bool.eq_false_iff]
    exact fun valid => outside (window.valid j valid)
  · intro i contract
    refine ⟨?_, retired_prefix n k s i power window contract, next_flushed n s i⟩
    exact fun enter => issue_slot_free n s window (room_of_enters n s i window enter)
  · intro rest continued keep
    exact (machine n).collect_conservation (inFlight n) (accepted n) (retired n)
      (fun t i inv pre => next_window n k t i power inv pre.1)
      (fun t i inv pre => next_conserves n k t i power inv pre.1 pre.2) window (continued.and_inputs keep)

/-- Three issues, a write-back and a commit on a scoreboard of four slots. -/
def shortRun : List Input :=
  let issue : Input := { decodedInstrValid := true, issueAck := true }
  [issue, { issue with wb := [{ transId := 0, data := 7, valid := true }] },
    { issue with commitAck0 := true }, { flushUnissuedInstr := true }]

theorem fifo_integrity_shortRun :
    let s := (machine 4).run shortRun
    (∀ j < 4, (s.mem j).issued = true ↔ InWindow 4 s.commitPointer s.issueCnt j) ∧
      s.issuePointer = (s.commitPointer + s.issueCnt) % 4 ∧
      s.issueCnt ≤ 4 - 1 ∧
      ∀ j < 4, ¬ InWindow 4 s.commitPointer s.issueCnt j → (s.mem j).sbe.valid = false :=
  (fifo_integrity 4 2 shortRun rfl (by decide)).1

end Ariane.Scoreboard
