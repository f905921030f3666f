import Ariane.OperandHistory
import Mathlib.Data.List.GetD

set_option autoImplicit false

/- What one cycle of the issue stage commits, and how it moves the instructions in flight. -/
namespace Ariane.IssueStage

open Rtl (Machine)
open Rtl.Ring (slot slot_lt slot_zero slot_injective)
open ReName (arch named named_inj arch_named)
open Scoreboard (entry Window Contract commitInstr finished Finishes)
open CommitStage

section Commit

variable {pkg : Pkg} {n b : Nat} {s : State} {h : History} {i : Input} (power : n = 2 ^ b)
  (consistent : Consistent pkg n s h) (env : Environment pkg n s i) (amoOps : AmoOps pkg)

theorem live_of_ack0 (ack : (commitOutput pkg n s i).commitAck0 = true) :
    live (commitInput n s i) = true := by
  rw [commitOutput, commit_commitAck0, Bool.and_eq_true] at ack
  exact ack.1

theorem valid_of_live (alive : live (commitInput n s i) = true) :
    (commitInstr n s.scoreboard 0).valid = true := by
  rw [live, Bool.and_eq_true] at alive
  exact alive.1

theorem ack1_taken (ack : (commitOutput pkg n s i).commitAck1 = true) :
    secondPortTaken (commitInput n s i) (commitOutput pkg n s i) = true := by
  rw [commitOutput, commit_commitAck1] at ack
  exact ack

/-- What port 1 asks of the two instructions. -/
theorem ack1_facts (ack : (commitOutput pkg n s i).commitAck1 = true) :
    (commitOutput pkg n s i).commitAck0 = true ∧
      (commitInstr n s.scoreboard 1).valid = true ∧
      (commitInstr n s.scoreboard 0).fu ≠ .csr ∧ traps n s i = false ∧
      (commitInstr n s.scoreboard 1).ex.valid = false ∧
      onSecondPort (commitInstr n s.scoreboard 1).fu = true := by
  have taken := ack1_taken ack
  simp only [secondPortTaken, Bool.and_eq_true, Bool.not_eq_true', bne_iff_ne] at taken
  obtain ⟨⟨⟨⟨⟨⟨⟨⟨first, valid⟩, _⟩, unit⟩, _⟩, _⟩, noTrap⟩, clean⟩, second⟩ := taken
  exact ⟨first, valid, unit, noTrap, clean, second⟩

/-- The neighbours of the scoreboard keep its handshake. -/
theorem contract : Contract n s.scoreboard (scoreboardInput pkg n s i) := by
  refine ⟨?_, ?_, ?_, ?_⟩
  · intro ack
    have acked : issueAck pkg n s i = true := ack
    simp only [issueAck, IssueReadOperands.issueAck, Bool.and_eq_true] at acked
    exact acked.1.1
  · intro ack
    exact valid_of_live (live_of_ack0 ack)
  · intro ack
    exact (ack1_facts ack).2.1
  · intro ack
    exact (ack1_facts ack).1

include power consistent

/-- The commit ports show the oldest instructions in flight. -/
theorem commitInstr_entry (k : Nat) (small : k < 2)
    (valid : (commitInstr n s.scoreboard k).valid = true) :
    k < s.scoreboard.issueCnt ∧ commitInstr n s.scoreboard k = entry n s.scoreboard k := by
  obtain ⟨large, occupied⟩ :=
    Scoreboard.occupied_of_valid n b s.scoreboard k power consistent.window small valid
  refine ⟨occupied, ?_⟩
  rw [commitInstr, Scoreboard.ptrAdd_eq n b _ _ power large]
  rfl

/-- The instruction on a port that commits is a finished one in flight. -/
theorem leaving (k : Nat) (leaves : k < acks pkg n s i) :
    k < s.scoreboard.issueCnt ∧ commitInstr n s.scoreboard k = entry n s.scoreboard k ∧
      (entry n s.scoreboard k).valid = true ∧
      (k = 0 ∧ (commitOutput pkg n s i).commitAck0 = true ∨
        k = 1 ∧ (commitOutput pkg n s i).commitAck1 = true) := by
  have count : acks pkg n s i = (commitOutput pkg n s i).commitAck0.toNat +
      (commitOutput pkg n s i).commitAck1.toNat := rfl
  have order := @ack1_facts pkg n s i
  have port : k = 0 ∧ (commitOutput pkg n s i).commitAck0 = true ∨
      k = 1 ∧ (commitOutput pkg n s i).commitAck1 = true := by
    cases ack1 : (commitOutput pkg n s i).commitAck1 with
    | true =>
        have ack0 := (order ack1).1
        rw [ack0, ack1] at count
        have two : k < 2 := by
          rw [count] at leaves
          exact leaves
        rcases Nat.lt_or_ge k 1 with low | high
        · exact Or.inl ⟨by omega, ack0⟩
        · exact Or.inr ⟨by omega, rfl⟩
    | false =>
        rw [ack1] at count
        cases ack0 : (commitOutput pkg n s i).commitAck0 with
        | true =>
            rw [ack0] at count
            have one : k < 1 := by
              rw [count] at leaves
              exact leaves
            exact Or.inl ⟨by omega, rfl⟩
        | false =>
            rw [ack0] at count
            rw [count] at leaves
            exact absurd leaves (Nat.not_lt_zero k)
  have valid : (commitInstr n s.scoreboard k).valid = true := by
    rcases port with ⟨rfl, ack⟩ | ⟨rfl, ack⟩
    · exact valid_of_live (live_of_ack0 ack)
    · exact (order ack).2.1
  have small : k < 2 := by
    rcases port with first | second
    · omega
    · omega
  obtain ⟨below, same⟩ := commitInstr_entry power consistent k small valid
  rw [same] at valid
  exact ⟨below, same, valid, port⟩

include env

/-- What an instruction that will be found finished writes when it leaves without a trap. -/
theorem producer_written (k : Nat) (leaves : k < acks pkg n s i) (noTrap : traps n s i = false)
    (value : BitVec 64) (final : Final pkg (entry n s.scoreboard k) value) :
    writtenNext pkg n s h i (h.flight.getD k {}).serial = some value := by
  obtain ⟨below, same, _, port⟩ := leaving power consistent k leaves
  rcases port with ⟨rfl, ack0⟩ | ⟨rfl, ack1⟩
  · have plain : takesAmo pkg (commitInput n s i) = false := by
      show (pkg.rva && pkg.isAmo (commitInstr n s.scoreboard 0).op && _) = false
      rw [same, final.plain, Bool.and_false, Bool.false_and]
    have clear : debugClear (commitInput n s i) = true := by
      have acked := ack0
      rw [commitOutput, commit_commitAck0, plain] at acked
      simp only [Bool.and_eq_true, Bool.false_eq_true, ↓reduceIte] at acked
      exact acked.2.1
    have writes : (commitOutput pkg n s i).weGpr0 = true := by
      have file : pkg.isRdFpr (commitInput n s i).instr0.op = false := by
        show pkg.isRdFpr (commitInstr n s.scoreboard 0).op = false
        rw [same]
        exact final.file
      have quiet : (exception (commitInput n s i)).valid = false := noTrap
      rw [commitOutput, commit_weGpr0, live_of_ack0 ack0, plain, clear, quiet, file]
      rfl
    have silent : i.commit.amoResp.ack = false := by
      rw [← Bool.not_eq_true]
      intro answered
      have asked := env.amo answered
      rw [commitOutput, commit_amoValidCommit, plain, Bool.and_false] at asked
      exact absurd asked (by decide)
    have data : (commitOutput pkg n s i).wdata0 = value := by
      have unit : ((commitInput n s i).instr0.fu == Fu.csr) = false := by
        rw [beq_eq_false_iff_ne]
        show (commitInstr n s.scoreboard 0).fu ≠ .csr
        rw [same]
        exact final.unit
      have quiet : (commitInput n s i).amoResp.ack = false := silent
      rw [commitOutput, commit_wdata0, unit, quiet, Bool.and_false, if_neg (by decide),
        if_neg (by decide)]
      show (commitInstr n s.scoreboard 0).result = value
      rw [same]
      exact final.result
    rw [writtenNext, ack0, writes, data, Bool.and_self, if_pos (show true = true from rfl)]
    split
    · rename_i second
      rw [Bool.and_eq_true] at second
      have count : 1 < acks pkg n s i := by
        show 1 < (commitOutput pkg n s i).commitAck0.toNat +
          (commitOutput pkg n s i).commitAck1.toNat
        rw [ack0, second.1]
        decide
      have other := (leaving power consistent 1 count).1
      have first := consistent.serials 0 below
      have next := consistent.serials 1 other
      rw [Function.update_of_ne (by omega), Function.update_self]
    · exact Function.update_self ..
  · have writes : (commitOutput pkg n s i).weGpr1 = true := by
      have file : pkg.isRdFpr (commitInput n s i).instr1.op = false := by
        show pkg.isRdFpr (commitInstr n s.scoreboard 1).op = false
        rw [same]
        exact final.file
      have taken := ack1_taken ack1
      rw [commitOutput] at taken
      rw [commitOutput, commit_weGpr1, taken, file]
      rfl
    have data : (commitOutput pkg n s i).wdata1 = value := by
      rw [commitOutput, commit_wdata1]
      show (commitInstr n s.scoreboard 1).result = value
      rw [same]
      exact final.result
    rw [writtenNext, ack1, writes, data]
    exact Function.update_self ..

omit env

theorem written_kept (serial : Nat) (older : serial + s.scoreboard.issueCnt < h.serial) :
    writtenNext pkg n s h i serial = h.written serial := by
  have count : acks pkg n s i = (commitOutput pkg n s i).commitAck0.toNat +
      (commitOutput pkg n s i).commitAck1.toNat := rfl
  have other : ∀ k < acks pkg n s i, serial ≠ (h.flight.getD k {}).serial := by
    intro k leaves
    have inFlight := consistent.serials k (leaving power consistent k leaves).1
    omega
  have first : ∀ w : Nat → Option (BitVec 64), ∀ v, (commitOutput pkg n s i).commitAck0 = true →
      Function.update w (h.flight.getD 0 {}).serial v serial = w serial := by
    intro w v ack0
    rw [ack0, Bool.toNat_true] at count
    exact Function.update_of_ne (other 0 (by omega)) ..
  have second : ∀ w : Nat → Option (BitVec 64), ∀ v, (commitOutput pkg n s i).commitAck1 = true →
      Function.update w (h.flight.getD 1 {}).serial v serial = w serial := by
    intro w v ack1
    rw [ack1, (ack1_facts ack1).1] at count
    exact Function.update_of_ne (other 1 (by rw [count]; decide)) ..
  unfold writtenNext
  split
  · rename_i port1
    rw [Bool.and_eq_true] at port1
    rw [second _ _ port1.1]
    split
    · rename_i port0
      rw [Bool.and_eq_true] at port0
      exact first _ _ port0.1
    · rfl
  · split
    · rename_i port0
      rw [Bool.and_eq_true] at port0
      exact first _ _ port0.1
    · rfl

theorem first_unblocked (ack1 : (commitOutput pkg n s i).commitAck1 = true) :
    blocks (entry n s.scoreboard 0) = false := by
  obtain ⟨ack0, _, unit, noTrap, _, _⟩ := ack1_facts ack1
  have alive := live_of_ack0 ack0
  obtain ⟨below, same⟩ := commitInstr_entry power consistent 0 (by decide) (valid_of_live alive)
  have clean : (entry n s.scoreboard 0).ex.valid = false := by
    have quiet := noTrap
    rw [traps, exception_valid, alive, Bool.true_and, Bool.or_eq_false_iff] at quiet
    have own : (commitInstr n s.scoreboard 0).ex.valid = false := quiet.1
    rw [same] at own
    exact own
  rw [blocks, clean, Bool.false_or, ← Bool.not_eq_true]
  intro fence
  rw [same] at unit
  exact unit ((consistent.decoded 0 below).fence fence)

include amoOps

theorem leaving_unblocked (keep : flushes pkg n s i = false) (k : Nat)
    (leaves : k < acks pkg n s i) : blocks (entry n s.scoreboard k) = false := by
  have quiet : Controller.flushes (controllerInput pkg n s i) = false := by
    rw [← Controller.flushCtrl_flushId]
    exact keep
  simp only [Controller.flushes, Bool.or_eq_false_iff] at quiet
  obtain ⟨⟨⟨⟨⟨⟨⟨noFence, noFenceI⟩, noSfence⟩, _⟩, _⟩, noTrap⟩, _⟩, _⟩ := quiet
  obtain ⟨below, same, _, port⟩ := leaving power consistent k leaves
  rcases port with ⟨rfl, ack0⟩ | ⟨rfl, ack1⟩
  · have alive := live_of_ack0 ack0
    have clean : (entry n s.scoreboard 0).ex.valid = false := by
      have quiet : traps n s i = false := noTrap
      rw [traps, exception_valid, alive, Bool.true_and, Bool.or_eq_false_iff] at quiet
      have own : (commitInstr n s.scoreboard 0).ex.valid = false := quiet.1
      rw [same] at own
      exact own
    rw [blocks, clean, Bool.false_or, ← Bool.not_eq_true]
    intro fence
    have named : namesFence (commitInput n s i).instr0.op = true := by
      show namesFence (commitInstr n s.scoreboard 0).op = true
      rw [same]
      exact fence
    have noAmo : takesAmo pkg (commitInput n s i) = false := by
      rw [← Bool.not_eq_true]
      intro amo
      simp only [takesAmo, Bool.and_eq_true] at amo
      have atomic := (amoOps _ amo.1.2).1
      cases op : (commitInput n s i).instr0.op <;> rw [op] at named atomic <;>
        first | exact absurd named (by decide) | exact absurd atomic (by decide)
    simp only [namesFence, Bool.or_eq_true, beq_iff_eq] at named
    have waits : takesFence (commitInput n s i) = true := by
      simp only [takesFence, takesFenceI, Bool.or_eq_true, Bool.and_eq_true, beq_iff_eq]
      rcases named with (sfence | fenceI) | fence
      · exact Or.inl (Or.inl sfence)
      · exact Or.inl (Or.inr (Or.inl fenceI))
      · exact Or.inr fence
    have drained := ack0
    rw [commitOutput, commit_commitAck0, noAmo, waits, alive] at drained
    simp only [Bool.true_and, Bool.false_eq_true, ↓reduceIte, Bool.and_eq_true] at drained
    obtain ⟨clear, drained⟩ := drained
    rcases named with (sfence | fenceI) | fence
    · have output : (commitOutput pkg n s i).sfenceVma = false := noSfence
      rw [commitOutput, commit_sfenceVma, alive, clear, sfence, drained] at output
      exact absurd output (by decide)
    · have output : (commitOutput pkg n s i).fenceI = false := noFenceI
      rw [commitOutput, commit_fenceI, alive, clear, takesFenceI, fenceI, drained] at output
      exact absurd output (by simp)
    · have output : (commitOutput pkg n s i).fence = false := noFence
      rw [commitOutput, commit_fence, alive, clear, fence, drained] at output
      exact absurd output (by decide)
  · obtain ⟨_, _, _, _, clean, second⟩ := ack1_facts ack1
    rw [same] at clean second
    rw [blocks, clean, Bool.false_or, ← Bool.not_eq_true]
    intro fence
    rw [(consistent.decoded 1 below).fence fence] at second
    exact absurd second (by decide)

end Commit

theorem trap_of_flushes {pkg : Pkg} {n : Nat} {s : State} {i : Input}
    (keep : flushes pkg n s i = false) : traps n s i = false := by
  rw [flushes, controllerOutput, Controller.flushCtrl_flushId] at keep
  simp only [Controller.flushes, Bool.or_eq_false_iff] at keep
  exact keep.1.1.2

theorem clean_of_finishes {e f : ScoreboardEntry} (finishes : Finishes e f)
    (clean : f.ex.valid = false) : e.ex.valid = false := by
  rw [← Bool.not_eq_true]
  intro raised
  rw [finishes.excepts raised] at clean
  exact absurd clean (by decide)

/-- What the decoder promised still holds of the finished instruction. -/
theorem Decoded.finishes {pkg : Pkg} {e f : ScoreboardEntry} (decoded : Decoded pkg e)
    (finishes : Finishes e f) : Decoded pkg f := by
  refine ⟨?_, ?_, ?_, ?_⟩
  · intro raised
    rcases finishes.raised raised with before | done
    · exact finishes.valid (decoded.finished before)
    · exact done
  · intro none
    rw [finishes.fu] at none
    exact finishes.excepts (decoded.unit none)
  · intro store plain clean
    rw [finishes.fu] at store
    rw [finishes.op] at plain
    rw [finishes.rd]
    exact decoded.store store plain (clean_of_finishes finishes clean)
  · intro fence
    rw [finishes.op] at fence
    rw [finishes.fu]
    exact decoded.fence fence

theorem unblocked_of_finishes {e f : ScoreboardEntry} (finishes : Finishes e f)
    (free : blocks f = false) : blocks e = false := by
  rw [blocks, Bool.or_eq_false_iff] at free ⊢
  refine ⟨clean_of_finishes finishes free.1, ?_⟩
  rw [← finishes.op]
  exact free.2

theorem renamed_decoded {pkg : Pkg} {s : State} {i : Input} (decoded : Decoded pkg i.decodedInstr) :
    Decoded pkg (renamed pkg s i) := by
  refine ⟨decoded.finished, decoded.unit, ?_, decoded.fence⟩
  intro store plain clean
  show arch (named _ i.decodedInstr.rd) = 0
  rw [arch_named]
  exact decoded.store store plain clean

theorem writesGpr_iff (pkg : Pkg) (e : ScoreboardEntry) (r : BitVec 5) :
    writesGpr pkg e r = true ↔ pkg.isRdFpr e.op = false ∧ arch e.rd = r ∧ r ≠ 0 := by
  simp only [writesGpr, Bool.and_eq_true, Bool.not_eq_true', beq_iff_eq, bne_iff_ne, and_assoc]

theorem writesGpr_finishes {pkg : Pkg} {e f : ScoreboardEntry} (finishes : Finishes e f)
    (r : BitVec 5) : writesGpr pkg f r = writesGpr pkg e r := by
  rw [writesGpr, finishes.op, finishes.rd]
  rfl

section Step

variable {pkg : Pkg} {n b : Nat} {s : State} {h : History} {i : Input} (power : n = 2 ^ b)
  (consistent : Consistent pkg n s h) (amoOps : AmoOps pkg)

include power consistent

theorem next_issueCnt (keep : flushes pkg n s i = false) :
    (next pkg n s i).scoreboard.issueCnt + acks pkg n s i =
      s.scoreboard.issueCnt + (enters pkg n s i).toNat := by
  have count := Scoreboard.next_issueCnt n b s.scoreboard (scoreboardInput pkg n s i) power
    consistent.window contract keep
  rw [Scoreboard.beforeCommit_issueCnt n b _ _ power consistent.window] at count
  exact count

theorem next_entry (keep : flushes pkg n s i = false) (k : Nat)
    (below : k < (next pkg n s i).scoreboard.issueCnt) :
    entry n (next pkg n s i).scoreboard k =
      finished n s.scoreboard (scoreboardInput pkg n s i) (k + acks pkg n s i) := by
  have moved := Scoreboard.next_slotAt n b s.scoreboard (scoreboardInput pkg n s i) power
    consistent.window contract keep k below
  exact congrArg Scoreboard.Slot.sbe moved

omit power in
theorem next_flight (keep : flushes pkg n s i = false) (k : Nat) :
    (historyNext pkg n s h i).flight.getD k {} =
      if k + acks pkg n s i < s.scoreboard.issueCnt then h.flight.getD (k + acks pkg n s i) {}
      else (entering pkg n s h i).getD (k + acks pkg n s i - s.scoreboard.issueCnt) {} := by
  show (if flushes pkg n s i then [] else _ : List Issue).getD k {} = _
  rw [keep, if_neg (by decide), List.getD_eq_getElem?_getD, List.getElem?_drop, Nat.add_comm,
    ← List.getD_eq_getElem?_getD, ← consistent.length]
  split
  · rename_i old
    exact List.getD_append _ _ _ _ old
  · rename_i new
    exact List.getD_append_right _ _ _ _ (Nat.le_of_not_lt new)

/-- What is in flight after a cycle: an older instruction, or the instruction that entered, either
of them perhaps finished. -/
theorem next_cases (keep : flushes pkg n s i = false) (k : Nat)
    (below : k < (next pkg n s i).scoreboard.issueCnt) :
    (k + acks pkg n s i < s.scoreboard.issueCnt ∧
        Finishes (entry n s.scoreboard (k + acks pkg n s i))
          (entry n (next pkg n s i).scoreboard k) ∧
        (historyNext pkg n s h i).flight.getD k {} = h.flight.getD (k + acks pkg n s i) {}) ∨
      (k + acks pkg n s i = s.scoreboard.issueCnt ∧ enters pkg n s i = true ∧
        Finishes (renamed pkg s i) (entry n (next pkg n s i).scoreboard k) ∧
        (historyNext pkg n s h i).flight.getD k {} =
          { serial := h.serial, reads := reads pkg n s h i }) := by
  have count := next_issueCnt power consistent keep
  have moved := next_entry power consistent keep k below
  have record := next_flight consistent keep k
  rcases Nat.lt_or_ge (k + acks pkg n s i) s.scoreboard.issueCnt with old | new
  · left
    rw [if_pos old] at record
    refine ⟨old, ?_, record⟩
    rw [moved]
    exact Scoreboard.finished_finishes n b s.scoreboard _ power consistent.window _ old
  · right
    have enter : enters pkg n s i = true := by
      cases enter : enters pkg n s i with
      | true => rfl
      | false =>
          rw [enter, Bool.toNat_false] at count
          omega
    rw [enter, Bool.toNat_true] at count
    have last : k + acks pkg n s i = s.scoreboard.issueCnt := by omega
    refine ⟨last, enter, ?_, ?_⟩
    · rw [moved, last]
      exact Scoreboard.finished_entered n b s.scoreboard (scoreboardInput pkg n s i) power
        consistent.window enter
    · rw [record, if_neg (by omega), last, Nat.sub_self, entering, enter]
      rfl

theorem next_old {k : Nat} (stays : Stays pkg n s i k) :
    k - acks pkg n s i < (next pkg n s i).scoreboard.issueCnt ∧
      Finishes (entry n s.scoreboard k)
        (entry n (next pkg n s i).scoreboard (k - acks pkg n s i)) ∧
      (historyNext pkg n s h i).flight.getD (k - acks pkg n s i) {} = h.flight.getD k {} := by
  obtain ⟨keep, stays, below⟩ := stays
  have count := next_issueCnt power consistent keep
  have position : k - acks pkg n s i + acks pkg n s i = k := Nat.sub_add_cancel stays
  have inside : k - acks pkg n s i < (next pkg n s i).scoreboard.issueCnt := by omega
  rcases next_cases power consistent keep _ inside with old | new
  · rw [position] at old
    exact ⟨inside, old.2⟩
  · omega

theorem next_new (keep : flushes pkg n s i = false) (enter : enters pkg n s i = true) :
    s.scoreboard.issueCnt - acks pkg n s i < (next pkg n s i).scoreboard.issueCnt ∧
      Finishes (renamed pkg s i)
        (entry n (next pkg n s i).scoreboard (s.scoreboard.issueCnt - acks pkg n s i)) := by
  have count := next_issueCnt power consistent keep
  have few : acks pkg n s i ≤ s.scoreboard.issueCnt := by
    rw [← Nat.not_lt]
    intro many
    exact Nat.lt_irrefl _ (leaving power consistent _ many).1
  rw [enter, Bool.toNat_true] at count
  have inside : s.scoreboard.issueCnt - acks pkg n s i <
      (next pkg n s i).scoreboard.issueCnt := by omega
  rcases next_cases power consistent keep _ inside with old | new
  · omega
  · exact ⟨inside, new.2.2.1⟩

include amoOps

/-- When nothing in flight blocks after a cycle, nothing did before it. -/
theorem unblocked_before (keep : flushes pkg n s i = false) (m : Nat)
    (free : ∀ j < m, blocks (entry n (next pkg n s i).scoreboard j) = false)
    (k : Nat) (below : k < s.scoreboard.issueCnt) (first : k < m + acks pkg n s i) :
    blocks (entry n s.scoreboard k) = false := by
  rcases Nat.lt_or_ge k (acks pkg n s i) with leaves | stays
  · exact leaving_unblocked power consistent amoOps keep k leaves
  · obtain ⟨_, finishes, _⟩ := next_old power consistent ⟨keep, stays, below⟩
    exact unblocked_of_finishes finishes (free _ (by omega))

end Step

end Ariane.IssueStage
