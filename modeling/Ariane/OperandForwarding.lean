import Ariane.OperandNames

set_option autoImplicit false

/- Forwarding gives every instruction the operands that in-order execution gives it, unless an
atomic memory operation is the source. -/
namespace Ariane.IssueStage

open Rtl (Machine)
open Rtl.Ring (slot slot_lt slot_zero slot_injective)
open ReName (arch named named_inj arch_named)
open Scoreboard (entry Window finished Finishes Hits Supplies Writes rdClobberGpr)
open IssueReadOperands (stall)

/-- A writer that has finished keeps its result while it is read. -/
theorem Fresh.stays {pkg : Pkg} {n b : Nat} {s : State} {h : History} {i : Input}
    {name : BitVec 6} {w : Nat} (fresh : Fresh pkg n s i name w) (power : n = 2 ^ b)
    (consistent : Consistent pkg n s h) (below : w < s.scoreboard.issueCnt)
    (done : (entry n s.scoreboard w).valid = true) :
    finished n s.scoreboard (scoreboardInput pkg n s i) w = entry n s.scoreboard w := by
  apply Scoreboard.finished_missed n b s.scoreboard _ power consistent.window w below
  intro p member hit
  have unfinished := fresh.unfinished p member hit
  rw [done] at unfinished
  exact absurd unfinished (by decide)

section Lookup

variable {pkg : Pkg} {n b : Nat} {s : State} {h : History} {i : Input} (power : n = 2 ^ b)
  (consistent : Consistent pkg n s h)
  (clean : ∀ k < s.scoreboard.issueCnt, blocks (entry n s.scoreboard k) = false)

include consistent clean

theorem fu_of_unblocked (k : Nat) (below : k < s.scoreboard.issueCnt) :
    (entry n s.scoreboard k).fu ≠ .none := by
  intro none
  have raised := (consistent.decoded k below).unit none
  have free := clean k below
  rw [blocks, raised] at free
  exact absurd free (by simp)

omit clean in
theorem unwritten_free (rs : BitVec 6) (none : writerOf pkg n s (arch rs) = none) :
    rdClobberGpr pkg n s.scoreboard (readName pkg s rs) = .none := by
  have place : arch (readName pkg s rs) = arch rs := arch_named _ _
  by_cases zero : arch rs = 0
  · have free : readName pkg s rs = 0 := by
      rw [readName, zero, consistent.zero, Bool.and_false, named, zero]
      rfl
    rw [free]
    exact Function.update_self ..
  · have some : readName pkg s rs ≠ 0 := by
      intro free
      rw [← place, free] at zero
      exact zero rfl
    rcases Scoreboard.rdClobberGpr_cases pkg n s.scoreboard _ some with silent | found
    · exact silent.2
    · obtain ⟨j, inside, ⟨issued, writes⟩, _⟩ := found
      obtain ⟨k, below, rfl⟩ := (consistent.window.issued j inside).mp issued
      simp only [Scoreboard.writesReg, Bool.and_eq_true, beq_iff_eq] at writes
      have writer : writesGpr pkg (entry n s.scoreboard k) (arch rs) = true := by
        rw [writesGpr_iff, ← place, ← writes.1]
        exact ⟨writes.2, rfl, by rw [writes.1, place]; exact zero⟩
      rw [youngestWriter_none pkg n s.scoreboard _ _ none k below] at writer
      exact absurd writer (by decide)

/-- The youngest writer in flight is the only one under the name that is looked up. -/
theorem writer_unique (rs : BitVec 6) (w : Nat) (some : writerOf pkg n s (arch rs) = some w)
    (k : Nat) (below : k < s.scoreboard.issueCnt)
    (writes : Scoreboard.writesReg pkg (entry n s.scoreboard k) (readName pkg s rs) false = true) :
    k = w := by
  obtain ⟨inside, writer, later⟩ := youngestWriter_some pkg n s.scoreboard _ _ w some
  obtain ⟨file, place, register⟩ := (writesGpr_iff pkg _ _).mp writer
  have names := consistent.names clean
  have name := names.newest w inside _ writer later
  simp only [Scoreboard.writesReg, Bool.and_eq_true, beq_iff_eq] at writes
  have same : (entry n s.scoreboard k).rd = (entry n s.scoreboard w).rd := by
    rw [writes.1, name, readName, named_inj]
    exact ⟨rfl, place.symm⟩
  exact names.distinct k below w inside writes.2 file same (by rw [same, place]; exact register)

theorem written_pending (rs : BitVec 6) (w : Nat) (some : writerOf pkg n s (arch rs) = some w) :
    w < s.scoreboard.issueCnt ∧
      rdClobberGpr pkg n s.scoreboard (readName pkg s rs) = (entry n s.scoreboard w).fu := by
  obtain ⟨inside, writer, later⟩ := youngestWriter_some pkg n s.scoreboard _ _ w some
  obtain ⟨file, place, register⟩ := (writesGpr_iff pkg _ _).mp writer
  refine ⟨inside, ?_⟩
  have name := (consistent.names clean).newest w inside _ writer later
  have read : readName pkg s rs ≠ 0 := by
    intro free
    have zero : arch (readName pkg s rs) = 0 := by
      rw [free]
      rfl
    rw [readName, arch_named] at zero
    exact register zero
  rcases Scoreboard.rdClobberGpr_cases pkg n s.scoreboard _ read with silent | found
  · exfalso
    apply silent.1 _ (Scoreboard.slot_inside n s.scoreboard consistent.window w)
    refine ⟨Scoreboard.slotAt_issued n s.scoreboard consistent.window w inside, ?_⟩
    rw [Scoreboard.writesReg, Bool.and_eq_true, beq_iff_eq, beq_iff_eq]
    refine ⟨?_, file⟩
    show (entry n s.scoreboard w).rd = _
    rw [name, readName, named_inj]
    exact ⟨rfl, place⟩
  · obtain ⟨j, inArray, ⟨issued, writes⟩, value⟩ := found
    obtain ⟨k, below, rfl⟩ := (consistent.window.issued j inArray).mp issued
    have only := writer_unique consistent clean rs w some k below writes
    rw [value, ← only]
    rfl

include power

/-- A supplied value is the one that the youngest writer is going to write. -/
theorem supplied_final (rs : BitVec 6) (w : Nat) (some : writerOf pkg n s (arch rs) = some w)
    (unit : (entry n s.scoreboard w).fu ≠ .csr)
    (plain : pkg.isAmo (entry n s.scoreboard w).op = false)
    (fresh : Fresh pkg n s i (readName pkg s rs) w)
    (v : BitVec 64) (j : Nat) (inArray : j < n)
    (supplies : Supplies pkg s.scoreboard i.wb false (readName pkg s rs) v j) :
    isKnown pkg n s i w = true ∧
      Final pkg (finished n s.scoreboard (scoreboardInput pkg n s i) w) v := by
  obtain ⟨inside, writer, _⟩ := youngestWriter_some pkg n s.scoreboard _ _ w some
  obtain ⟨file, _, _⟩ := (writesGpr_iff pkg _ _).mp writer
  obtain ⟨writes, supply⟩ := supplies
  have own : (entry n s.scoreboard w).ex.valid = false := by
    have free := clean w inside
    rw [blocks, Bool.or_eq_false_iff] at free
    exact free.1
  have issued : (s.scoreboard.mem j).issued = true := by
    rcases supply with stored | ⟨p, member, hit, quiet, _⟩
    · exact stored.1
    · obtain ⟨valid, rfl⟩ := hit
      exact fresh.occupied p member valid quiet inArray writes
  obtain ⟨k, below, rfl⟩ := (consistent.window.issued j inArray).mp issued
  have only := writer_unique consistent clean rs w some k below writes
  subst only
  have known : isKnown pkg n s i k =
      ((entry n s.scoreboard k).valid || i.wb.any fun p => p.valid && !p.ex.valid &&
        p.transId == slot n s.scoreboard.commitPointer k) := by
    have other : ((entry n s.scoreboard k).fu != .csr) = true := bne_iff_ne.mpr unit
    rw [isKnown, other, plain, own]
    rfl
  rw [known]
  rcases supply with ⟨_, valid, value⟩ | ⟨p, member, hit, quiet, value⟩
  · have valid : (entry n s.scoreboard k).valid = true := valid
    refine ⟨by rw [valid, Bool.true_or], ?_⟩
    rw [fresh.stays power consistent below valid]
    exact ⟨valid, value.symm, own, unit, plain, file⟩
  · refine ⟨?_, ?_⟩
    · rw [Bool.or_eq_true, List.any_eq_true]
      refine Or.inr ⟨p, member, ?_⟩
      rw [hit.1, quiet, hit.2, beq_self_eq_true]
      rfl
    · have done : finished n s.scoreboard (scoreboardInput pkg n s i) k =
          Scoreboard.writeBackEntry i.resolvedTarget p (entry n s.scoreboard k) :=
        Scoreboard.finished_hit n b s.scoreboard (scoreboardInput pkg n s i) power
          consistent.window k below fresh.single p member hit
      rw [done, Scoreboard.writeBackEntry, quiet, if_neg (by decide)]
      split
      · exact ⟨rfl, value.symm, own, unit, plain, file⟩
      · exact ⟨rfl, value.symm, own, unit, plain, file⟩

end Lookup

/-- A register operand is forwarded: it is pending, and a valid value may be used for it. -/
def forwarded (pkg : Pkg) (n : Nat) (s : State) (rs : BitVec 6) (valid : Bool) : Bool :=
  rdClobberGpr pkg n s.scoreboard (readName pkg s rs) != .none &&
    (valid && rdClobberGpr pkg n s.scoreboard (readName pkg s rs) != .csr)

/-- An operand latched in this cycle is the content of the register file, or the value that an
instruction in flight is going to write. -/
def Read.Latched (pkg : Pkg) (n : Nat) (s : State) (h : History) (i : Input) (r : Read) : Prop :=
  r.known = true ∧
    match r.source with
    | .inFlight serial =>
        ∃ w < s.scoreboard.issueCnt, (h.flight.getD w {}).serial = serial ∧
          Final pkg (finished n s.scoreboard (scoreboardInput pkg n s i) w) r.value ∧
          ((entry n s.scoreboard w).valid = true →
            finished n s.scoreboard (scoreboardInput pkg n s i) w = entry n s.scoreboard w)
    | .registerFile content => r.value = content

section Operand

variable {pkg : Pkg} {n b : Nat} {s : State} {h : History} {i : Input} (power : n = 2 ^ b)
  (consistent : Consistent pkg n s h) (env : Environment pkg n s i)
  (clean : ∀ k < s.scoreboard.issueCnt, blocks (entry n s.scoreboard k) = false)

theorem named_readName {fpr : Bool} (integer : fpr = false) (rs : BitVec 6) :
    named (pkg.enableRename && ReName.nameBit s.reName fpr rs) rs = readName pkg s rs := by
  rw [ReName.nameBit, integer, if_neg Bool.false_ne_true]
  rfl

theorem pending_readName {fpr : Bool} (integer : fpr = false) (rs : BitVec 6) :
    IssueReadOperands.pending (readInput pkg n s i) fpr (readName pkg s rs) =
      (rdClobberGpr pkg n s.scoreboard (readName pkg s rs) != .none) := by
  rw [IssueReadOperands.pending, IssueReadOperands.clobber, integer, if_neg Bool.false_ne_true]
  rfl

theorem available_readName {fpr : Bool} (integer : fpr = false) (rs : BitVec 6) (valid : Bool) :
    (rdClobberGpr pkg n s.scoreboard (readName pkg s rs) != .none &&
      IssueReadOperands.available (readInput pkg n s i) fpr (readName pkg s rs) valid) =
        forwarded pkg n s rs valid := by
  rw [IssueReadOperands.available, integer, Bool.false_or]
  rfl

/-- A register that is pending in an instruction that does not stall is forwarded. -/
theorem forwarded_of_ready {pends used : Bool} (ready : (pends && !used) = false)
    (pending : pends = true) : used = true := by
  rw [pending, Bool.true_and, Bool.not_eq_false'] at ready
  exact ready

theorem operandA_selected (reads : readsA pkg n s i = true) :
    let o := (readInput pkg n s i).operands
    let used := forwarded pkg n s i.decodedInstr.rs1 o.rs1Valid
    IssueReadOperands.operandA pkg (readInput pkg n s i) s.operands =
        (if used then o.rs1 else s.operands.gpr (arch i.decodedInstr.rs1)) ∧
      (stall pkg (readInput pkg n s i) = false →
        rdClobberGpr pkg n s.scoreboard (readName pkg s i.decodedInstr.rs1) ≠ .none →
          used = true) ∧
      (o.rs1Valid = true → ∃ j < n, Supplies pkg s.scoreboard i.wb false
        (readName pkg s i.decodedInstr.rs1) o.rs1 j) := by
  intro o used
  simp only [readsA, Bool.and_eq_true, Bool.not_eq_true'] at reads
  obtain ⟨⟨noPc, noZimm⟩, file⟩ := reads
  have noPc : (readInput pkg n s i).issueInstr.usePc = false := noPc
  have noZimm : (readInput pkg n s i).issueInstr.useZimm = false := noZimm
  have file : pkg.isRs1Fpr (readInput pkg n s i).issueInstr.op = false := file
  have place : arch (readInput pkg n s i).issueInstr.rs1 = arch i.decodedInstr.rs1 :=
    arch_named _ _
  have name : (readInput pkg n s i).issueInstr.rs1 = readName pkg s i.decodedInstr.rs1 :=
    named_readName file _
  have waits : IssueReadOperands.pendingRs1 pkg (readInput pkg n s i) =
      (rdClobberGpr pkg n s.scoreboard (readName pkg s i.decodedInstr.rs1) != .none) := by
    rw [IssueReadOperands.pendingRs1, noZimm, name, pending_readName file, Bool.not_false,
      Bool.true_and]
  have selected : IssueReadOperands.forwardRs1 pkg (readInput pkg n s i) = used := by
    rw [IssueReadOperands.forwardRs1, waits, name]
    exact available_readName file _ _
  refine ⟨?_, fun ready pends => ?_, fun valid => ?_⟩
  · simp only [IssueReadOperands.operandA, noPc, noZimm, file, place, selected,
      Bool.false_eq_true, ↓reduceIte]
    rfl
  · simp only [stall, Bool.or_eq_false_iff, waits, selected] at ready
    exact forwarded_of_ready ready.1.1 (bne_iff_ne.mpr pends)
  · have supplied : ∃ j < n, Supplies pkg s.scoreboard i.wb
        (pkg.isRs1Fpr (issueInstr pkg n s i).op) (issueInstr pkg n s i).rs1 o.rs1 j :=
      (Scoreboard.readOperands_supplied pkg n s.scoreboard _ i.wb).rs1 valid
    have file : pkg.isRs1Fpr (issueInstr pkg n s i).op = false := file
    have name : (issueInstr pkg n s i).rs1 = readName pkg s i.decodedInstr.rs1 := name
    rw [file, name] at supplied
    exact supplied

theorem operandB_selected (reads : readsB pkg n s i = true) :
    let o := (readInput pkg n s i).operands
    let used := forwarded pkg n s i.decodedInstr.rs2 o.rs2Valid
    IssueReadOperands.operandB pkg (readInput pkg n s i) s.operands =
        (if used then o.rs2 else s.operands.gpr (arch i.decodedInstr.rs2)) ∧
      (stall pkg (readInput pkg n s i) = false →
        rdClobberGpr pkg n s.scoreboard (readName pkg s i.decodedInstr.rs2) ≠ .none →
          used = true) ∧
      (o.rs2Valid = true → ∃ j < n, Supplies pkg s.scoreboard i.wb false
        (readName pkg s i.decodedInstr.rs2) o.rs2 j) := by
  intro o used
  simp only [readsB, Bool.and_eq_true, Bool.not_eq_true'] at reads
  obtain ⟨noImm, file⟩ := reads
  have file : pkg.isRs2Fpr (readInput pkg n s i).issueInstr.op = false := file
  have place : arch (readInput pkg n s i).issueInstr.rs2 = arch i.decodedInstr.rs2 :=
    arch_named _ _
  have name : (readInput pkg n s i).issueInstr.rs2 = readName pkg s i.decodedInstr.rs2 :=
    named_readName file _
  have waits : IssueReadOperands.pendingRs2 pkg (readInput pkg n s i) =
      (rdClobberGpr pkg n s.scoreboard (readName pkg s i.decodedInstr.rs2) != .none) := by
    rw [IssueReadOperands.pendingRs2, name, pending_readName file]
  have selected : IssueReadOperands.forwardRs2 pkg (readInput pkg n s i) = used := by
    rw [IssueReadOperands.forwardRs2, waits, name]
    exact available_readName file _ _
  refine ⟨?_, fun ready pends => ?_, fun valid => ?_⟩
  · simp only [IssueReadOperands.operandB, noImm, file, place, selected, Bool.false_eq_true,
      ↓reduceIte]
    rfl
  · simp only [stall, Bool.or_eq_false_iff, waits, selected] at ready
    exact forwarded_of_ready ready.1.2 (bne_iff_ne.mpr pends)
  · have supplied : ∃ j < n, Supplies pkg s.scoreboard i.wb
        (pkg.isRs2Fpr (issueInstr pkg n s i).op) (issueInstr pkg n s i).rs2 o.rs2 j :=
      (Scoreboard.readOperands_supplied pkg n s.scoreboard _ i.wb).rs2 valid
    have file : pkg.isRs2Fpr (issueInstr pkg n s i).op = false := file
    have name : (issueInstr pkg n s i).rs2 = readName pkg s i.decodedInstr.rs2 := name
    rw [file, name] at supplied
    exact supplied

include power consistent clean

theorem record_latched (rs : BitVec 6) (valid : Bool) (v : BitVec 64)
    (ready : rdClobberGpr pkg n s.scoreboard (readName pkg s rs) ≠ .none →
      forwarded pkg n s rs valid = true)
    (supplied : valid = true → ∃ j < n, Supplies pkg s.scoreboard i.wb false (readName pkg s rs) v j)
    (plain : ∀ k, writerOf pkg n s (arch rs) = some k →
      pkg.isAmo (entry n s.scoreboard k).op = false)
    (fresh : ∀ k, writerOf pkg n s (arch rs) = some k →
      Fresh pkg n s i (readName pkg s rs) k) :
    (record pkg n s h i (arch rs)
      (if forwarded pkg n s rs valid then v else s.operands.gpr (arch rs))).Latched pkg n s h i := by
  unfold record
  cases writer : writerOf pkg n s (arch rs) with
  | none =>
      have free := unwritten_free consistent rs writer
      have unused : forwarded pkg n s rs valid = false := by
        rw [forwarded, free]
        rfl
      rw [unused]
      exact ⟨rfl, rfl⟩
  | some w =>
      obtain ⟨inside, unit⟩ := written_pending consistent clean rs w writer
      have used := ready (by rw [unit]; exact fu_of_unblocked consistent clean w inside)
      have facts := used
      rw [forwarded, unit] at facts
      simp only [Bool.and_eq_true, bne_iff_ne] at facts
      obtain ⟨j, inArray, supplies⟩ := supplied facts.2.1
      obtain ⟨known, final⟩ := supplied_final power consistent clean rs w writer facts.2.2
        (plain w writer) (fresh w writer) v j inArray supplies
      rw [used]
      exact ⟨known, w, inside, rfl, final, (fresh w writer).stays power consistent inside⟩

include env

/-- Every register operand that an instruction latches without an exception. -/
theorem reads_latched (avoids : NoAmoSource pkg n s i) (timely : Timely pkg n s h i)
    (enter : enters pkg n s i = true)
    (own : i.decodedInstr.ex.valid = false) (r : Read) (member : r ∈ reads pkg n s h i) :
    r.Latched pkg n s h i := by
  have valid : i.decodedInstrValid = true := by
    simp only [enters, Scoreboard.enters, Bool.and_eq_true] at enter
    exact enter.1.1
  have unit : i.decodedInstr.fu ≠ .none := by
    intro none
    rw [(env.decoded valid).1.unit none] at own
    exact absurd own (by decide)
  have ready := (issue_conditions enter own unit).1
  rw [reads, List.mem_append] at member
  rcases member with first | second
  · split at first
    · rename_i used
      rw [List.mem_singleton] at first
      obtain ⟨value, available, supplied⟩ := operandA_selected used
      rw [first, value]
      exact record_latched power consistent clean _ _ _ (available ready) supplied
        (avoids.operandA enter used) (timely.operandA enter used)
    · exact absurd first List.not_mem_nil
  · split at second
    · rename_i used
      rw [List.mem_singleton] at second
      obtain ⟨value, available, supplied⟩ := operandB_selected used
      rw [second, value]
      exact record_latched power consistent clean _ _ _ (available ready) supplied
        (avoids.operandB enter used) (timely.operandB enter used)
    · exact absurd second List.not_mem_nil

end Operand

theorem next_flushed {pkg : Pkg} {n : Nat} {s : State} {i : Input}
    (flush : flushes pkg n s i = true) : (next pkg n s i).scoreboard.issueCnt = 0 := by
  show (Scoreboard.flushAll (scoreboardInput pkg n s i) _).issueCnt = 0
  have cleared : (scoreboardInput pkg n s i).flush = true := flush
  rw [Scoreboard.flushAll, if_pos cleared]

/-- A fence waits until the core runs again. -/
theorem startsIdle (pkg : Pkg) (n : Nat) (s : State) (i : Input) :
    Controller.StartsIdle s.controller (controllerInput pkg n s i) := by
  intro active
  have dead : CommitStage.live (commitInput n s i) = false := by
    show (_ && !Controller.halt s.controller i.controller) = false
    rw [Controller.halt, active, Bool.or_true, Bool.not_true, Bool.and_false]
  constructor
  · show (CommitStage.commit pkg (commitInput n s i)).fence = false
    rw [CommitStage.commit_fence, dead]
    rfl
  · show (CommitStage.commit pkg (commitInput n s i)).fenceI = false
    rw [CommitStage.commit_fenceI, dead]
    rfl

section Step

variable {pkg : Pkg} {n b : Nat} {s : State} {h : History} {i : Input} (power : n = 2 ^ b)
  (consistent : Consistent pkg n s h) (env : Environment pkg n s i) (amoOps : AmoOps pkg)

include power consistent

theorem next_length (keep : flushes pkg n s i = false) :
    (historyNext pkg n s h i).flight.length = (next pkg n s i).scoreboard.issueCnt := by
  have count := next_issueCnt power consistent keep
  have new : (entering pkg n s h i).length = (enters pkg n s i).toNat := by
    unfold entering
    split
    · rename_i enter
      rw [enter]
      rfl
    · rename_i idle
      rw [Bool.not_eq_true] at idle
      rw [idle]
      rfl
  show (if flushes pkg n s i then [] else _ : List Issue).length = _
  rw [keep, if_neg (by decide), List.length_drop, List.length_append, consistent.length, new]
  omega

omit power in
theorem getD_mem_flight {k : Nat} (below : k < s.scoreboard.issueCnt) :
    h.flight.getD k {} ∈ h.flight := by
  have inside : k < h.flight.length := by
    rw [consistent.length]
    exact below
  rw [List.getD_eq_getElem _ _ inside]
  exact List.getElem_mem inside

theorem next_serials (keep : flushes pkg n s i = false) (k : Nat)
    (below : k < (next pkg n s i).scoreboard.issueCnt) :
    ((historyNext pkg n s h i).flight.getD k {}).serial +
        (next pkg n s i).scoreboard.issueCnt = (historyNext pkg n s h i).serial + k := by
  have count := next_issueCnt power consistent keep
  show _ = h.serial + (enters pkg n s i).toNat + k
  rcases next_cases power consistent keep k below with ⟨old, _, same⟩ | ⟨last, _, _, new⟩
  · have before := consistent.serials _ old
    rw [same]
    omega
  · rw [new]
    show h.serial + _ = _
    omega

include env amoOps

theorem old_reads (timely : Timely pkg n s h i) (keep : flushes pkg n s i = false) (k : Nat)
    (below : k + acks pkg n s i < s.scoreboard.issueCnt)
    (free : ∀ j < k, blocks (entry n (next pkg n s i).scoreboard j) = false)
    (own : (entry n s.scoreboard (k + acks pkg n s i)).ex.valid = false) (r : Read)
    (member : r ∈ (h.flight.getD (k + acks pkg n s i) {}).reads) :
    r.Holds pkg n (next pkg n s i) (historyNext pkg n s h i) k := by
  have count := next_issueCnt power consistent keep
  have clean : ∀ j < k + acks pkg n s i, blocks (entry n s.scoreboard j) = false := by
    intro j early
    exact unblocked_before power consistent amoOps keep k free j (by omega) early
  have quiet : traps n s i = false := trap_of_flushes keep
  obtain ⟨known, held⟩ := consistent.reads _ below clean own r member
  refine ⟨known, ?_⟩
  cases source : r.source with
  | registerFile content =>
      rw [source] at held
      exact held
  | inFlight serial =>
      rw [source] at held
      rcases held with ⟨written, older⟩ | ⟨j, early, same, final⟩
      · left
        refine ⟨(written_kept power consistent serial older).trans written, ?_⟩
        show serial + (next pkg n s i).scoreboard.issueCnt < h.serial + (enters pkg n s i).toNat
        omega
      · have place := consistent.serials j (by omega)
        rcases Nat.lt_or_ge j (acks pkg n s i) with leaves | stays
        · left
          rw [← same]
          refine ⟨producer_written power consistent env j leaves quiet r.value final, ?_⟩
          show _ + (next pkg n s i).scoreboard.issueCnt < h.serial + (enters pkg n s i).toNat
          omega
        · right
          have remains : Stays pkg n s i j := ⟨keep, stays, by omega⟩
          obtain ⟨inside, _, moved⟩ := next_old (h := h) power consistent remains
          have missed := timely.kept j remains
            ⟨h.flight.getD (k + acks pkg n s i) {}, getD_mem_flight consistent below, r, member,
              by rw [source, same]⟩
          refine ⟨j - acks pkg n s i, by omega, by rw [moved]; exact same, ?_⟩
          rw [next_entry power consistent keep _ inside, Nat.sub_add_cancel stays,
            Scoreboard.finished_missed n b s.scoreboard _ power consistent.window j (by omega) missed]
          exact final

theorem new_reads (avoids : NoAmoSource pkg n s i) (timely : Timely pkg n s h i)
    (keep : flushes pkg n s i = false) (k : Nat)
    (last : k + acks pkg n s i = s.scoreboard.issueCnt) (enter : enters pkg n s i = true)
    (free : ∀ j < k, blocks (entry n (next pkg n s i).scoreboard j) = false)
    (own : i.decodedInstr.ex.valid = false) (r : Read) (member : r ∈ reads pkg n s h i) :
    r.Holds pkg n (next pkg n s i) (historyNext pkg n s h i) k := by
  have count := next_issueCnt power consistent keep
  have clean : ∀ j < s.scoreboard.issueCnt, blocks (entry n s.scoreboard j) = false := by
    intro j below
    exact unblocked_before power consistent amoOps keep k free j below (by omega)
  have quiet : traps n s i = false := trap_of_flushes keep
  obtain ⟨known, latched⟩ := reads_latched power consistent env clean avoids timely enter own r
    member
  refine ⟨known, ?_⟩
  cases source : r.source with
  | registerFile content =>
      rw [source] at latched
      exact latched
  | inFlight serial =>
      rw [source] at latched
      obtain ⟨w, below, same, final, unchanged⟩ := latched
      have place := consistent.serials w below
      rcases Nat.lt_or_ge w (acks pkg n s i) with leaves | stays
      · left
        have done := (leaving power consistent w leaves).2.2.1
        rw [unchanged done] at final
        rw [← same]
        refine ⟨producer_written power consistent env w leaves quiet r.value final, ?_⟩
        show _ + (next pkg n s i).scoreboard.issueCnt < h.serial + (enters pkg n s i).toNat
        omega
      · right
        obtain ⟨inside, _, moved⟩ := next_old (h := h) power consistent ⟨keep, stays, below⟩
        refine ⟨w - acks pkg n s i, by omega, by rw [moved]; exact same, ?_⟩
        rw [next_entry power consistent keep _ inside, Nat.sub_add_cancel stays]
        exact final

theorem next_consistent (avoids : NoAmoSource pkg n s i) (timely : Timely pkg n s h i) :
    Consistent pkg n (next pkg n s i) (historyNext pkg n s h i) := by
  have window := Scoreboard.next_window n b s.scoreboard (scoreboardInput pkg n s i) power
    consistent.window contract
  have halted := Controller.next_halted s.controller (controllerInput pkg n s i)
    (startsIdle pkg n s i)
  have zero := ReName.next_gpr_zero pkg s.reName i.decodedInstr
    (Scoreboard.decodedInstrAck n s.scoreboard (scoreboardInput pkg n s i))
    (controllerOutput pkg n s i).flushUnissuedInstr (flushes pkg n s i)
  cases keep : flushes pkg n s i with
  | true =>
      have empty := next_flushed keep
      have flight : (historyNext pkg n s h i).flight = [] := by
        show (if flushes pkg n s i then [] else _ : List Issue) = []
        rw [keep, if_pos rfl]
      have none : ∀ {p : Prop} (k : Nat), k < (next pkg n s i).scoreboard.issueCnt → p := by
        intro p k below
        omega
      refine ⟨window, halted, zero, fun k => none k, ?_, fun k => none k, ?_, fun k => none k⟩
      · rw [flight, empty]
        rfl
      · intro _
        exact ⟨fun j => none j, fun k => none k, fun _ k => none k⟩
  | false =>
      refine ⟨window, halted, zero, ?_, next_length power consistent keep,
        next_serials power consistent keep, next_named power consistent env amoOps keep, ?_⟩
      · intro k below
        rcases next_cases power consistent keep k below with ⟨old, finishes, _⟩ | new
        · exact (consistent.decoded _ old).finishes finishes
        · obtain ⟨_, enter, same, _⟩ := new
          have valid : i.decodedInstrValid = true := by
            simp only [enters, Scoreboard.enters, Bool.and_eq_true] at enter
            exact enter.1.1
          exact (renamed_decoded (env.decoded valid).1).finishes same
      · intro k below free own r member
        rcases next_cases power consistent keep k below with ⟨old, finishes, same⟩ | new
        · rw [same] at member
          have before := clean_of_finishes finishes own
          exact old_reads power consistent env amoOps timely keep k old free before r member
        · obtain ⟨last, enter, new, same⟩ := new
          rw [same] at member
          have before : (renamed pkg s i).ex.valid = false := clean_of_finishes new own
          exact new_reads power consistent env amoOps avoids timely keep k last enter free before r
            member

end Step

theorem reset_consistent (pkg : Pkg) (n : Nat) (positive : 0 < n) :
    Consistent pkg n reset {} := by
  have none : ∀ {p : Prop} (k : Nat), k < reset.scoreboard.issueCnt → p := by
    intro p k below
    exact absurd below (Nat.not_lt_zero k)
  refine ⟨Scoreboard.reset_window n positive, ?_, rfl, fun k => none k, rfl, fun k => none k, ?_,
    fun k => none k⟩
  · intro flushing
    exact absurd flushing (by decide)
  · intro _
    exact ⟨fun j => none j, fun k => none k, fun _ k => none k⟩

/-- In a consistent state, the instructions that commit have the right operands. -/
theorem operandsCorrect_of_consistent {pkg : Pkg} {n b : Nat} {s : State} {h : History} {i : Input}
    (power : n = 2 ^ b) (consistent : Consistent pkg n s h) (env : Environment pkg n s i) :
    OperandsCorrect pkg n s h i := by
  constructor
  · intro ack0 own r member
    obtain ⟨below, same⟩ := commitInstr_entry power consistent 0 (by decide)
      (valid_of_live (live_of_ack0 ack0))
    rw [same] at own
    obtain ⟨known, held⟩ := consistent.reads 0 below (fun j early => by omega) own r member
    refine ⟨known, ?_⟩
    cases source : r.source with
    | registerFile content =>
        rw [source] at held
        exact held
    | inFlight serial =>
        rw [source] at held
        rcases held with ⟨written, older⟩ | ⟨j, early, _⟩
        · exact (written_kept power consistent serial older).trans written
        · omega
  · intro ack1 r member
    obtain ⟨ack0, valid, _, noTrap, own, _⟩ := ack1_facts ack1
    obtain ⟨below, same⟩ := commitInstr_entry power consistent 1 (by decide) valid
    rw [same] at own
    have clean : ∀ j < 1, blocks (entry n s.scoreboard j) = false := by
      intro j early
      rw [Nat.lt_one_iff.mp early]
      exact first_unblocked power consistent ack1
    obtain ⟨known, held⟩ := consistent.reads 1 below clean own r member
    refine ⟨known, ?_⟩
    cases source : r.source with
    | registerFile content =>
        rw [source] at held
        exact held
    | inFlight serial =>
        rw [source] at held
        rcases held with ⟨written, older⟩ | ⟨j, early, place, final⟩
        · exact (written_kept power consistent serial older).trans written
        · have leaves : j < acks pkg n s i := by
            have count : 0 < acks pkg n s i := by
              show 0 < (commitOutput pkg n s i).commitAck0.toNat + _
              rw [ack0, Bool.toNat_true]
              omega
            omega
          rw [← place]
          exact producer_written power consistent env j leaves noTrap r.value final

/-- In every run that never takes an operand from an atomic memory operation, and in which no
answer to a flushed instruction reaches an operand, every instruction commits with the operands of
in-order execution. -/
theorem operands_in_order (pkg : Pkg) (n b : Nat) (inputs : List Input) (i : Input)
    (power : n = 2 ^ b) (amoOps : AmoOps pkg)
    (legal : (recorded pkg n).Legal
      (fun t i => Environment pkg n t.1 i ∧ NoAmoSource pkg n t.1 i ∧ Timely pkg n t.1 t.2 i)
      (reset, {}) (inputs ++ [i])) :
    OperandsCorrect pkg n ((recorded pkg n).run inputs).1 ((recorded pkg n).run inputs).2 i := by
  obtain ⟨before, after⟩ := ((recorded pkg n).legal_append _ _ _ _).mp legal
  have start : Consistent pkg n (recorded pkg n).reset.1 (recorded pkg n).reset.2 :=
    reset_consistent pkg n (power ▸ Nat.two_pow_pos b)
  have step : ∀ t : State × History, ∀ i, Consistent pkg n t.1 t.2 →
      Environment pkg n t.1 i ∧ NoAmoSource pkg n t.1 i ∧ Timely pkg n t.1 t.2 i →
      Consistent pkg n ((recorded pkg n).next t i).1 ((recorded pkg n).next t i).2 := by
    intro t i consistent ⟨env, avoids, timely⟩
    exact next_consistent power consistent env amoOps avoids timely
  have consistent := (recorded pkg n).run_invariant start step before
  exact operandsCorrect_of_consistent power consistent after.1.1

instance decidableDecoded (pkg : Pkg) (e : ScoreboardEntry) : Decidable (Decoded pkg e) :=
  decidable_of_iff
    ((e.ex.valid = true → e.valid = true) ∧ (e.fu = .none → e.ex.valid = true) ∧
      (e.fu = .store → pkg.isAmo e.op = false → e.ex.valid = false → arch e.rd = 0) ∧
      (CommitStage.namesFence e.op = true → e.fu = .csr))
    ⟨fun ⟨a, b, c, d⟩ => ⟨a, b, c, d⟩, fun h => ⟨h.finished, h.unit, h.store, h.fence⟩⟩

instance decidableEnvironment (pkg : Pkg) (n : Nat) (s : State) (i : Input) :
    Decidable (Environment pkg n s i) :=
  decidable_of_iff
    ((i.decodedInstrValid = true →
        Decoded pkg i.decodedInstr ∧ i.decodedInstr.rd.getLsbD 5 = false) ∧
      (i.commit.amoResp.ack = true → (commitOutput pkg n s i).amoValidCommit = true))
    ⟨fun ⟨a, b⟩ => ⟨a, b⟩, fun h => ⟨h.decoded, h.amo⟩⟩

instance decidableNoAmoSource (pkg : Pkg) (n : Nat) (s : State) (i : Input) :
    Decidable (NoAmoSource pkg n s i) :=
  decidable_of_iff
    ((enters pkg n s i = true → readsA pkg n s i = true →
        ∀ k ∈ writerOf pkg n s (arch i.decodedInstr.rs1),
          pkg.isAmo (entry n s.scoreboard k).op = false) ∧
      (enters pkg n s i = true → readsB pkg n s i = true →
        ∀ k ∈ writerOf pkg n s (arch i.decodedInstr.rs2),
          pkg.isAmo (entry n s.scoreboard k).op = false))
    ⟨fun ⟨a, b⟩ => ⟨a, b⟩, fun h => ⟨h.operandA, h.operandB⟩⟩

instance decidableFresh (pkg : Pkg) (n : Nat) (s : State) (i : Input) (name : BitVec 6) (w : Nat) :
    Decidable (Fresh pkg n s i name w) :=
  decidable_of_iff
    ((∀ p ∈ i.wb, p.valid = true → p.ex.valid = false → p.transId < n →
        Scoreboard.writesReg pkg (s.scoreboard.mem p.transId).sbe name false = true →
          (s.scoreboard.mem p.transId).issued = true) ∧
      (∀ p ∈ i.wb, Hits p (slot n s.scoreboard.commitPointer w) →
        (entry n s.scoreboard w).valid = false) ∧
      i.wb.Pairwise fun p q => ¬ (Hits p (slot n s.scoreboard.commitPointer w) ∧
        Hits q (slot n s.scoreboard.commitPointer w)))
    ⟨fun ⟨a, b, c⟩ => ⟨a, b, c⟩, fun h => ⟨h.occupied, h.unfinished, h.single⟩⟩

instance decidableTaken (h : History) (serial : Nat) : Decidable (h.Taken serial) :=
  inferInstanceAs (Decidable (∃ _ ∈ _, ∃ _ ∈ _, _))

instance decidableTimely (pkg : Pkg) (n : Nat) (s : State) (h : History) (i : Input) :
    Decidable (Timely pkg n s h i) :=
  decidable_of_iff
    ((enters pkg n s i = true → readsA pkg n s i = true →
        ∀ w ∈ writerOf pkg n s (arch i.decodedInstr.rs1),
          Fresh pkg n s i (readName pkg s i.decodedInstr.rs1) w) ∧
      (enters pkg n s i = true → readsB pkg n s i = true →
        ∀ w ∈ writerOf pkg n s (arch i.decodedInstr.rs2),
          Fresh pkg n s i (readName pkg s i.decodedInstr.rs2) w) ∧
      ∀ k < s.scoreboard.issueCnt, flushes pkg n s i = false → acks pkg n s i ≤ k →
        h.Taken (h.flight.getD k {}).serial →
          ∀ p ∈ i.wb, ¬ Hits p (slot n s.scoreboard.commitPointer k))
    ⟨fun ⟨a, b, c⟩ => ⟨a, b, fun k stays => c k stays.2.2 stays.1 stays.2.1⟩,
      fun h => ⟨h.operandA, h.operandB, fun k below keep stays => h.kept k ⟨keep, stays, below⟩⟩⟩

/-- A load is flushed, and answered when its slot is empty. Then `x5` is written and read by the
next instruction, in the cycle in which it is computed. -/
def dependent : List Input :=
  [{ decodedInstr := { fu := .load, op := .ld, rd := 5, useImm := true }
     decodedInstrValid := true
     lsuReady := true },
    { controller := { flushCsr := true } },
    { wb := [{ transId := 0, data := 99, valid := true }] },
    { decodedInstr := { fu := .alu, rd := 5, useImm := true, result := 7 }
      decodedInstrValid := true
      fluReady := true },
    { decodedInstr := { fu := .alu, rs1 := 5, rd := 6, useImm := true, result := 1 }
      decodedInstrValid := true
      fluReady := true
      wb := [{ transId := 0, data := 7, valid := true }] },
    { wb := [{ transId := 1, data := 8, valid := true }] }]

theorem operands_in_order_dependent :
    AmoOps .rv64ima ∧ OperandsCorrect .rv64ima 4 ((recorded .rv64ima 4).run dependent).1
      ((recorded .rv64ima 4).run dependent).2 {} := by
  have amoOps : AmoOps .rv64ima := fun op amo => ⟨amo, rfl⟩
  exact ⟨amoOps, operands_in_order .rv64ima 4 2 dependent {} rfl amoOps (by decide)⟩

/-- `amoadd.d` writes `x5`; the next instruction reads it once the store unit has answered. The
memory holds 7. -/
def amoDependent : List Input :=
  [{ decodedInstr := { fu := .store, op := .amoAddd, rd := 5 }
     decodedInstrValid := true
     lsuReady := true },
    { decodedInstr := { fu := .alu, rs1 := 5, rd := 6, useImm := true, result := 1 }
      decodedInstrValid := true
      fluReady := true
      wb := [{ transId := 0, data := 0, valid := true }] },
    { wb := [{ transId := 1, data := 1, valid := true }]
      commit := { amoResp := { ack := true, result := 7 } } }]

/-- The dependent instruction commits with the zero of the store unit instead of the 7. -/
theorem amo_operand_stale :
    ¬ ∀ inputs i,
      (machine .rv64ima 4).Legal (fun s i => Environment .rv64ima 4 s i) reset (inputs ++ [i]) →
      OperandsCorrect .rv64ima 4 ((recorded .rv64ima 4).run inputs).1
        ((recorded .rv64ima 4).run inputs).2 i := by
  intro correct
  have port := (correct amoDependent {} (by decide)).port0 (by decide +kernel)
    (by decide)
  have value : writtenNext .rv64ima 4 ((recorded .rv64ima 4).run amoDependent).1
      ((recorded .rv64ima 4).run amoDependent).2 {} 0 = some 0 :=
    (port ⟨0, .inFlight 0, false⟩ (by decide)).2
  exact absurd value (by decide)

/-- The load in the third slot is flushed. Its answer comes when `x5` is looked up that the
instruction in the first slot is going to write. -/
def lateDependent : List Input :=
  [{ decodedInstr := { fu := .alu, rd := 1, useImm := true }
     decodedInstrValid := true
     fluReady := true },
    { decodedInstr := { fu := .alu, rd := 2, useImm := true }
      decodedInstrValid := true
      fluReady := true },
    { decodedInstr := { fu := .load, op := .ld, rd := 5, useImm := true }
      decodedInstrValid := true
      lsuReady := true },
    { controller := { flushCsr := true } },
    { decodedInstr := { fu := .alu, rd := 5, useImm := true, result := 7 }
      decodedInstrValid := true
      fluReady := true },
    { decodedInstr := { fu := .alu, rs1 := 5, rd := 6, useImm := true, result := 1 }
      decodedInstrValid := true
      fluReady := true
      wb := [{ transId := 2, data := 99, valid := true }] },
    { wb := [{ transId := 0, data := 7, valid := true }] },
    { wb := [{ transId := 1, data := 100, valid := true }] }]

/-- The data of the flushed load is taken for the operand: the ports are searched without a look at
the slot being empty. -/
theorem late_answer_stale :
    ¬ ∀ inputs i, (recorded .rv64ima 4).Legal
        (fun t i => Environment .rv64ima 4 t.1 i ∧ NoAmoSource .rv64ima 4 t.1 i)
        (reset, {}) (inputs ++ [i]) →
      OperandsCorrect .rv64ima 4 ((recorded .rv64ima 4).run inputs).1
        ((recorded .rv64ima 4).run inputs).2 i := by
  intro correct
  have port := (correct lateDependent {} (by decide)).port0 (by decide +kernel)
    (by decide)
  have value : writtenNext .rv64ima 4 ((recorded .rv64ima 4).run lateDependent).1
      ((recorded .rv64ima 4).run lateDependent).2 {} 3 = some 99 :=
    (port ⟨99, .inFlight 3, false⟩ (by decide)).2
  exact absurd value (by decide)

end Ariane.IssueStage
