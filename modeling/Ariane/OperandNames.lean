import Ariane.OperandCommit

set_option autoImplicit false

/- Register renames keeps the destinations of the instructions in flight apart. -/
namespace Ariane.IssueStage

open Rtl.Ring (slot slot_lt slot_zero slot_injective)
open ReName (arch named named_inj arch_named)
open Scoreboard (entry Window commitInstr Finishes)
open IssueReadOperands (destinationFree destinationWritten stall)
open CommitStage

section Issue

variable {pkg : Pkg} {n b : Nat} {s : State} {h : History} {i : Input} (power : n = 2 ^ b)
  (consistent : Consistent pkg n s h) (amoOps : AmoOps pkg)

/-- An instruction that enters without an exception has its operands, and its destination is free
or written in this cycle. -/
theorem issue_conditions (enter : enters pkg n s i = true)
    (clean : i.decodedInstr.ex.valid = false) (unit : i.decodedInstr.fu ≠ .none) :
    stall pkg (readInput pkg n s i) = false ∧
      (destinationFree pkg (readInput pkg n s i) = true ∨
        destinationWritten pkg (readInput pkg n s i) (readInput pkg n s i).port0 = true ∨
        destinationWritten pkg (readInput pkg n s i) (readInput pkg n s i).port1 = true) := by
  have acked : issueAck pkg n s i = true := by
    simp only [enters, Scoreboard.enters, Scoreboard.decodedInstrAck, Bool.and_eq_true] at enter
    exact enter.1.2.1
  have own : (readInput pkg n s i).issueInstr.ex.valid = false := clean
  have some : ((readInput pkg n s i).issueInstr.fu == .none) = false :=
    beq_eq_false_iff_ne.mpr unit
  rw [issueAck, IssueReadOperands.issueAck, own, some] at acked
  simp only [Bool.or_false, Bool.and_eq_true, Bool.or_eq_true, Bool.not_eq_true'] at acked
  obtain ⟨⟨_, ⟨ready, _⟩, (free | first) | second⟩, _⟩ := acked
  · exact ⟨ready, Or.inl free⟩
  · exact ⟨ready, Or.inr (Or.inl first)⟩
  · exact ⟨ready, Or.inr (Or.inr second)⟩

theorem arch_of_waddr (a : BitVec 5) (r : BitVec 6) (same : (a.setWidth 6 == r) = true) :
    a = arch r := by
  rw [beq_iff_eq] at same
  rw [← same, arch]
  simp

include power consistent

/-- A port that writes the destination commits its instruction. -/
theorem port0_leaves (file : pkg.isRdFpr i.decodedInstr.op = false)
    (register : arch i.decodedInstr.rd ≠ 0) (amoOps : AmoOps pkg)
    (clean : ∀ k < s.scoreboard.issueCnt, blocks (entry n s.scoreboard k) = false)
    (written : destinationWritten pkg (readInput pkg n s i) (readInput pkg n s i).port0 = true) :
    0 < acks pkg n s i ∧
      writesGpr pkg (entry n s.scoreboard 0) (arch i.decodedInstr.rd) = true := by
  have target : pkg.isRdFpr (readInput pkg n s i).issueInstr.op = false := file
  rw [destinationWritten, target, if_neg (by decide), Bool.and_eq_true] at written
  obtain ⟨enabled, address⟩ := written
  have place := arch_of_waddr _ _ address
  have place : arch (commitInstr n s.scoreboard 0).rd = arch i.decodedInstr.rd := by
    rw [← arch_named (pkg.enableRename && ReName.nameBitRd pkg s.reName i.decodedInstr)
      i.decodedInstr.rd]
    exact place
  have enabled : (commit pkg (commitInput n s i)).weGpr0 = true := enabled
  rw [commit_weGpr0, Bool.and_eq_true] at enabled
  obtain ⟨alive, enabled⟩ := enabled
  obtain ⟨below, same⟩ := commitInstr_entry power consistent 0 (by decide) (valid_of_live alive)
  have free := clean 0 below
  rw [blocks, Bool.or_eq_false_iff, ← same] at free
  rw [same] at place
  have idle : s.controller.flushDcache = false := by
    rw [← Bool.not_eq_true]
    intro flushing
    have active := consistent.halted flushing
    simp only [live, Bool.and_eq_true, Bool.not_eq_true'] at alive
    have running : Controller.halt s.controller i.controller = false := alive.2
    rw [Controller.halt, active, Bool.or_true] at running
    exact absurd running (by decide)
  have noFence : takesFence (commitInput n s i) = false := by
    have fence : namesFence (commitInput n s i).instr0.op = false := free.2
    have quiet : (commitInput n s i).flushDcache = false := idle
    simp only [namesFence, Bool.or_eq_false_iff] at fence
    rw [takesFence, takesFenceI, quiet, fence.1.1, fence.1.2, fence.2]
    rfl
  have acked : (commitOutput pkg n s i).commitAck0 = true ∧
      pkg.isRdFpr (commitInstr n s.scoreboard 0).op = false := by
    rw [commitOutput, commit_commitAck0, alive, noFence]
    cases amo : takesAmo pkg (commitInput n s i) with
    | true =>
        rw [amo] at enabled
        refine ⟨enabled, (amoOps _ ?_).2⟩
        simp only [takesAmo, Bool.and_eq_true] at amo
        exact amo.1.2
    | false =>
        rw [amo] at enabled
        simp only [Bool.false_eq_true, ↓reduceIte, Bool.and_eq_true, Bool.not_eq_true']
          at enabled
        have noStore : takesStore pkg (commitInput n s i) = false := by
          rw [← Bool.not_eq_true]
          intro store
          simp only [takesStore, Bool.and_eq_true, Bool.not_eq_true', beq_iff_eq] at store
          have kind : (commitInstr n s.scoreboard 0).fu = .store ∧
              pkg.isAmo (commitInstr n s.scoreboard 0).op = false := store
          rw [same] at kind free
          have zero := (consistent.decoded 0 below).store kind.1 kind.2 free.1
          exact register (place.symm.trans zero)
        rw [enabled.1.1, noStore]
        refine ⟨?_, enabled.2⟩
        simp only [Bool.false_eq_true, ↓reduceIte, Bool.not_false, Bool.or_true, Bool.true_or,
          Bool.and_self]
  refine ⟨?_, ?_⟩
  · show 0 < (commitOutput pkg n s i).commitAck0.toNat + _
    rw [acked.1, Bool.toNat_true]
    omega
  · rw [writesGpr_iff, ← same]
    rw [← same] at place
    exact ⟨acked.2, place, register⟩

theorem port1_leaves (file : pkg.isRdFpr i.decodedInstr.op = false)
    (register : arch i.decodedInstr.rd ≠ 0)
    (written : destinationWritten pkg (readInput pkg n s i) (readInput pkg n s i).port1 = true) :
    1 < acks pkg n s i ∧
      writesGpr pkg (entry n s.scoreboard 1) (arch i.decodedInstr.rd) = true := by
  have target : pkg.isRdFpr (readInput pkg n s i).issueInstr.op = false := file
  rw [destinationWritten, target, if_neg (by decide), Bool.and_eq_true] at written
  obtain ⟨enabled, address⟩ := written
  have place := arch_of_waddr _ _ address
  have place : arch (commitInstr n s.scoreboard 1).rd = arch i.decodedInstr.rd := by
    rw [← arch_named (pkg.enableRename && ReName.nameBitRd pkg s.reName i.decodedInstr)
      i.decodedInstr.rd]
    exact place
  have enabled : (commit pkg (commitInput n s i)).weGpr1 = true := enabled
  rw [commit_weGpr1, ← commit_commitAck1, Bool.and_eq_true, Bool.not_eq_true'] at enabled
  have ack1 : (commitOutput pkg n s i).commitAck1 = true := enabled.1
  obtain ⟨ack0, valid, _⟩ := ack1_facts ack1
  have same := (commitInstr_entry power consistent 1 (by decide) valid).2
  refine ⟨?_, ?_⟩
  · show 1 < (commitOutput pkg n s i).commitAck0.toNat + (commitOutput pkg n s i).commitAck1.toNat
    rw [ack0, ack1]
    decide
  · rw [writesGpr_iff, ← same]
    exact ⟨enabled.2, place, register⟩

end Issue

/-- Of two writers of a register in flight, the younger one has the name in the table. -/
theorem Named.second {pkg : Pkg} {n : Nat} {s : State} (names : Named pkg n s) (r : BitVec 5)
    (p m : Nat) (order : p < m) (below : m < s.scoreboard.issueCnt)
    (writesP : writesGpr pkg (entry n s.scoreboard p) r = true)
    (writesM : writesGpr pkg (entry n s.scoreboard m) r = true) :
    (entry n s.scoreboard m).rd ≠
      named (pkg.enableRename && !s.reName.gpr r) (entry n s.scoreboard m).rd := by
  obtain ⟨fileP, archP, zero⟩ := (writesGpr_iff pkg _ r).mp writesP
  obtain ⟨fileM, archM, _⟩ := (writesGpr_iff pkg _ r).mp writesM
  have apart : ∀ bit, (entry n s.scoreboard p).rd = named bit (entry n s.scoreboard p).rd →
      ∀ k < s.scoreboard.issueCnt, p < k → writesGpr pkg (entry n s.scoreboard k) r = true →
      (entry n s.scoreboard k).rd ≠ named bit (entry n s.scoreboard k).rd := by
    intro bit nameP k inside later writesK nameK
    obtain ⟨fileK, archK, _⟩ := (writesGpr_iff pkg _ r).mp writesK
    have same : (entry n s.scoreboard p).rd = (entry n s.scoreboard k).rd := by
      rw [nameP, nameK, named_inj]
      exact ⟨rfl, archP.trans archK.symm⟩
    have equal := names.distinct p (by omega) k inside fileP fileK same (by rw [archP]; exact zero)
    omega
  intro taken
  cases renames : pkg.enableRename with
  | false =>
      exact apart false (names.plain renames p (by omega)) m below order writesM
        (names.plain renames m below)
  | true =>
      rw [renames, Bool.true_and] at taken
      cases youngest : youngestWriter pkg n s.scoreboard r s.scoreboard.issueCnt with
      | none =>
          have silent := youngestWriter_none pkg n s.scoreboard r _ youngest m below
          rw [writesM] at silent
          exact absurd silent (by decide)
      | some y =>
          obtain ⟨inside, writesY, later⟩ := youngestWriter_some pkg n s.scoreboard r _ y youngest
          have nameY := names.newest y inside r writesY later
          rw [renames, Bool.true_and] at nameY
          rcases Nat.lt_trichotomy m y with older | rfl | younger
          · -- three writers, but only two names
            have nameP := (ReName.named_msb (entry n s.scoreboard p).rd).symm
            rcases Bool.eq_or_eq_not (entry n s.scoreboard p).rd.msb (s.reName.gpr r)
              with bit | bit
            · exact apart _ nameP y inside (by omega) writesY (by rw [bit]; exact nameY)
            · exact apart _ nameP m below order writesM (by rw [bit]; exact taken)
          · rw [taken, named_inj] at nameY
            exact absurd nameY.1 (by simp)
          · rw [later m below younger] at writesM
            exact absurd writesM (by decide)

section Step

variable {pkg : Pkg} {n b : Nat} {s : State} {h : History} {i : Input} (power : n = 2 ^ b)
  (consistent : Consistent pkg n s h) (env : Environment pkg n s i) (amoOps : AmoOps pkg)
  (clean : ∀ k < s.scoreboard.issueCnt, blocks (entry n s.scoreboard k) = false)

/-- The name table turns exactly for the instructions that enter. -/
theorem ticks_eq_enters :
    (Scoreboard.decodedInstrAck n s.scoreboard (scoreboardInput pkg n s i) &&
      !(controllerOutput pkg n s i).flushUnissuedInstr) = enters pkg n s i := by
  show _ = (i.decodedInstrValid && _ && _)
  cases acked : issueAck pkg n s i with
  | false =>
      have idle : Scoreboard.decodedInstrAck n s.scoreboard (scoreboardInput pkg n s i) = false := by
        show (issueAck pkg n s i && _) = false
        rw [acked, Bool.false_and]
      rw [idle, Bool.and_false, Bool.false_and, Bool.false_and]
  | true =>
      have requested := contract.issue acked
      simp only [Scoreboard.issueInstrValid, Bool.and_eq_true] at requested
      have valid : i.decodedInstrValid = true := requested.1.1
      rw [valid, Bool.true_and]
      rfl

theorem next_name (keep : flushes pkg n s i = false) (r : BitVec 5) (register : r ≠ 0) :
    (next pkg n s i).reName.gpr r =
      if enters pkg n s i = true ∧ writesGpr pkg (renamed pkg s i) r = true then
        !s.reName.gpr r
      else s.reName.gpr r := by
  have turned := ReName.next_gpr pkg s.reName i.decodedInstr
    (Scoreboard.decodedInstrAck n s.scoreboard (scoreboardInput pkg n s i))
    (controllerOutput pkg n s i).flushUnissuedInstr r register
  rw [ticks_eq_enters] at turned
  have file : (renamed pkg s i).op = i.decodedInstr.op := rfl
  have place : arch (renamed pkg s i).rd = arch i.decodedInstr.rd := arch_named _ _
  have condition : writesGpr pkg (renamed pkg s i) r = true ↔
      pkg.isRdFpr i.decodedInstr.op = false ∧ arch i.decodedInstr.rd = r := by
    rw [writesGpr_iff, file, place, and_iff_left register]
  rw [if_congr (and_congr_right' condition) rfl rfl, ← turned, ← keep]
  rfl

include power consistent amoOps clean

/-- The new name is not the name of an instruction that stays in flight. -/
theorem new_name_free (enter : enters pkg n s i = true)
    (own : i.decodedInstr.ex.valid = false) (unit : i.decodedInstr.fu ≠ .none)
    (file : pkg.isRdFpr i.decodedInstr.op = false) (register : arch i.decodedInstr.rd ≠ 0)
    (m : Nat) (stays : acks pkg n s i ≤ m) (below : m < s.scoreboard.issueCnt)
    (fileM : pkg.isRdFpr (entry n s.scoreboard m).op = false) :
    (entry n s.scoreboard m).rd ≠ (renamed pkg s i).rd := by
  intro same
  have names := consistent.names clean
  have place : arch (renamed pkg s i).rd = arch i.decodedInstr.rd := arch_named _ _
  have writesM : writesGpr pkg (entry n s.scoreboard m) (arch i.decodedInstr.rd) = true := by
    rw [writesGpr_iff, same]
    exact ⟨fileM, place, register⟩
  have leavingWriter : ∀ p < acks pkg n s i,
      writesGpr pkg (entry n s.scoreboard p) (arch i.decodedInstr.rd) = true → False := by
    intro p leaves writesP
    apply names.second _ p m (by omega) below writesP writesM
    rw [← ReName.nameBitRd_gpr pkg s.reName i.decodedInstr file register, same]
    show named _ i.decodedInstr.rd = named _ (renamed pkg s i).rd
    rw [named_inj]
    exact ⟨rfl, place.symm⟩
  have conditions := (issue_conditions enter own unit).2
  rcases conditions with free | first | second
  · have none : Scoreboard.rdClobberGpr pkg n s.scoreboard (renamed pkg s i).rd = .none := by
      have target : pkg.isRdFpr (readInput pkg n s i).issueInstr.op = false := file
      rw [destinationFree, target, beq_iff_eq] at free
      exact free
    have some : (renamed pkg s i).rd ≠ 0 := by
      intro zero
      rw [← place, zero] at register
      exact register rfl
    have inside := Scoreboard.slot_inside n s.scoreboard consistent.window m
    have issued := Scoreboard.slotAt_issued n s.scoreboard consistent.window m below
    rcases Scoreboard.rdClobberGpr_cases pkg n s.scoreboard _ some with silent | found
    · apply silent.1 _ inside
      refine ⟨issued, ?_⟩
      rw [Scoreboard.writesReg, Bool.and_eq_true, beq_iff_eq, beq_iff_eq]
      exact ⟨same, fileM⟩
    · obtain ⟨j, inside, writer, value⟩ := found
      obtain ⟨k, inWindow, rfl⟩ := (consistent.window.issued j inside).mp writer.1
      have idle : (entry n s.scoreboard k).fu = .none := by
        rw [← none, value]
        rfl
      have raised := (consistent.decoded k inWindow).unit idle
      have free := clean k inWindow
      rw [blocks, raised] at free
      exact absurd free (by simp)
  · obtain ⟨leaves, writes⟩ :=
      port0_leaves power consistent file register amoOps clean first
    exact leavingWriter 0 leaves writes
  · obtain ⟨leaves, writes⟩ := port1_leaves power consistent file register second
    exact leavingWriter 1 leaves writes

omit clean

include env

theorem next_named (keep : flushes pkg n s i = false)
    (free : ∀ k < (next pkg n s i).scoreboard.issueCnt,
      blocks (entry n (next pkg n s i).scoreboard k) = false) :
    Named pkg n (next pkg n s i) := by
  have count := next_issueCnt power consistent keep
  have clean : ∀ k < s.scoreboard.issueCnt, blocks (entry n s.scoreboard k) = false := by
    intro k below
    exact unblocked_before power consistent amoOps keep _ free k below (by omega)
  have names := consistent.names clean
  have cases := next_cases power consistent keep
  -- an instruction that entered is apart from those that stay
  have apart : ∀ j < (next pkg n s i).scoreboard.issueCnt,
      ∀ k < (next pkg n s i).scoreboard.issueCnt,
      Finishes (entry n s.scoreboard (j + acks pkg n s i))
        (entry n (next pkg n s i).scoreboard j) →
      j + acks pkg n s i < s.scoreboard.issueCnt →
      Finishes (renamed pkg s i) (entry n (next pkg n s i).scoreboard k) →
      enters pkg n s i = true →
      pkg.isRdFpr (entry n (next pkg n s i).scoreboard j).op = false →
      pkg.isRdFpr (entry n (next pkg n s i).scoreboard k).op = false →
      arch (entry n (next pkg n s i).scoreboard k).rd ≠ 0 →
      (entry n (next pkg n s i).scoreboard j).rd ≠
        (entry n (next pkg n s i).scoreboard k).rd := by
    intro j _ k inside finishes below new enter fileJ fileK register
    have own := free k inside
    rw [new.op] at fileK
    rw [new.rd] at register ⊢
    rw [finishes.op] at fileJ
    rw [finishes.rd]
    have own := unblocked_of_finishes new own
    rw [blocks, Bool.or_eq_false_iff] at own
    have valid : i.decodedInstrValid = true := by
      simp only [enters, Scoreboard.enters, Bool.and_eq_true] at enter
      exact enter.1.1
    have place : arch (renamed pkg s i).rd = arch i.decodedInstr.rd := arch_named _ _
    rw [place] at register
    have unit : i.decodedInstr.fu ≠ .none := by
      intro none
      have raised := (env.decoded valid).1.unit none
      rw [show (renamed pkg s i).ex = i.decodedInstr.ex from rfl, raised] at own
      exact absurd own.1 (by decide)
    exact new_name_free power consistent amoOps clean enter own.1 unit fileK register _
      (Nat.le_add_left _ _) below fileJ
  refine ⟨?_, ?_, ?_⟩
  · intro j insideJ k insideK fileJ fileK same register
    rcases cases j insideJ with ⟨belowJ, finJ, _⟩ | ⟨lastJ, enter, newJ, _⟩
    · rcases cases k insideK with ⟨belowK, finK, _⟩ | ⟨lastK, enter, newK, _⟩
      · rw [finJ.rd, finK.rd] at same
        rw [finJ.op] at fileJ
        rw [finK.op] at fileK
        rw [finJ.rd] at register
        have equal := names.distinct _ belowJ _ belowK fileJ fileK same register
        omega
      · rw [same] at register
        exact absurd same (apart j insideJ k insideK finJ belowJ newK enter fileJ fileK register)
    · rcases cases k insideK with ⟨belowK, finK, _⟩ | ⟨lastK, _⟩
      · exact absurd same.symm
          (apart k insideK j insideJ finK belowK newJ enter fileK fileJ register)
      · omega
  · intro k inside r writes later
    have register := ((writesGpr_iff pkg _ r).mp writes).2.2
    rw [next_name keep r register]
    rcases cases k inside with ⟨below, finishes, _⟩ | ⟨last, enter, new, _⟩
    · have still : ¬ (enters pkg n s i = true ∧ writesGpr pkg (renamed pkg s i) r = true) := by
        intro turn
        obtain ⟨youngest, new⟩ := next_new power consistent keep turn.1
        have silent := later _ youngest (by omega)
        rw [writesGpr_finishes new, turn.2] at silent
        exact absurd silent (by decide)
      rw [if_neg still, finishes.rd]
      apply names.newest _ below r
      · rw [← writesGpr_finishes finishes]
        exact writes
      · intro j belowJ above
        obtain ⟨insideJ, finJ, _⟩ := next_old power consistent (h := h) ⟨keep, by omega, belowJ⟩
        rw [← writesGpr_finishes finJ]
        exact later _ insideJ (by omega)
    · rw [writesGpr_finishes new] at writes
      rw [new.rd, if_pos ⟨enter, writes⟩]
      obtain ⟨file, place, _⟩ := (writesGpr_iff pkg _ r).mp writes
      have place : arch i.decodedInstr.rd = r := (arch_named _ _).symm.trans place
      rw [← place] at register
      have bit := ReName.nameBitRd_gpr pkg s.reName i.decodedInstr file register
      rw [place] at bit
      show named (_ && ReName.nameBitRd pkg s.reName i.decodedInstr) i.decodedInstr.rd =
        named _ (named _ i.decodedInstr.rd)
      rw [bit, named_inj, arch_named]
      exact ⟨rfl, rfl⟩
  · intro off k inside
    rcases cases k inside with ⟨below, finishes, _⟩ | ⟨_, _, new, _⟩
    · rw [finishes.rd]
      exact names.plain off _ below
    · rw [new.rd]
      show named (pkg.enableRename && _) i.decodedInstr.rd = named _ (named _ i.decodedInstr.rd)
      rw [off, Bool.false_and, named_inj, arch_named]
      exact ⟨rfl, rfl⟩

end Step

end Ariane.IssueStage
