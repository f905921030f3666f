import Ariane.IssueStage
import Ariane.ScoreboardEntries

set_option autoImplicit false

/- The history of the issue stage: which value every instruction in flight read, from which
older instruction it should come, and what every instruction wrote when it committed. -/
namespace Ariane.IssueStage

open Rtl (Machine)
open Rtl.Ring (slot slot_lt slot_zero slot_injective)
open ReName (arch named)
open Scoreboard (entry Hits commitInstr)

/-- Where the value of a register belongs to: the youngest older instruction in flight that
writes the register, by its serial number, or the register file with its content. -/
inductive Source where
  | inFlight (serial : Nat)
  | registerFile (content : BitVec 64)
  deriving DecidableEq, Inhabited

/-- An integer register operand that was latched; `known` says that the entry it came from
already had its final register value. -/
structure Read where
  value : BitVec 64
  source : Source
  known : Bool
  deriving DecidableEq, Inhabited

/-- An instruction in flight. -/
structure Issue where
  serial : Nat := 0
  reads : List Read := []
  deriving DecidableEq, Inhabited

/-- The instructions in flight, oldest first, and the values written at commit. -/
structure History where
  serial : Nat := 0
  flight : List Issue := []
  written : Nat → Option (BitVec 64) := fun _ => none

/-- The value of an instruction is an operand of an instruction in flight. -/
def History.Taken (h : History) (serial : Nat) : Prop :=
  ∃ o ∈ h.flight, ∃ r ∈ o.reads, r.source = .inFlight serial

/-- The operand is the value that its source wrote when it committed, or the content of the
register file, and it was not taken before it was known. -/
def Read.Correct (written : Nat → Option (BitVec 64)) (r : Read) : Prop :=
  r.known = true ∧
    match r.source with
    | .inFlight serial => written serial = some r.value
    | .registerFile content => r.value = content

/-- The instruction writes the integer register `r`; `x0` is no register. -/
def writesGpr (pkg : Pkg) (e : ScoreboardEntry) (r : BitVec 5) : Bool :=
  !pkg.isRdFpr e.op && arch e.rd == r && r != 0

/-- The youngest of the `m` oldest instructions in flight that writes `r`. -/
def youngestWriter (pkg : Pkg) (n : Nat) (s : Scoreboard.State) (r : BitVec 5) : Nat → Option Nat
  | 0 => none
  | m + 1 => if writesGpr pkg (entry n s m) r then some m else youngestWriter pkg n s r m

theorem youngestWriter_none (pkg : Pkg) (n : Nat) (s : Scoreboard.State) (r : BitVec 5) (m : Nat)
    (none : youngestWriter pkg n s r m = none) (k : Nat) (below : k < m) :
    writesGpr pkg (entry n s k) r = false := by
  induction m with
  | zero => omega
  | succ m ih =>
      unfold youngestWriter at none
      split at none
      · exact absurd none (by simp)
      · rename_i silent
        rcases Nat.lt_or_ge k m with older | last
        · exact ih none older
        · have here : k = m := by omega
          rw [here, ← Bool.not_eq_true]
          exact silent

/-- The youngest writer writes, and nothing after it does. -/
theorem youngestWriter_some (pkg : Pkg) (n : Nat) (s : Scoreboard.State) (r : BitVec 5) (m w : Nat)
    (found : youngestWriter pkg n s r m = some w) :
    w < m ∧ writesGpr pkg (entry n s w) r = true ∧
      ∀ k < m, w < k → writesGpr pkg (entry n s k) r = false := by
  induction m with
  | zero => exact absurd found (by simp [youngestWriter])
  | succ m ih =>
      unfold youngestWriter at found
      split at found
      · rename_i writes
        rw [Option.some.injEq] at found
        rw [← found]
        refine ⟨Nat.lt_succ_self m, writes, ?_⟩
        intro k below above
        omega
      · rename_i silent
        obtain ⟨older, writes, later⟩ := ih found
        refine ⟨Nat.lt_succ_of_lt older, writes, ?_⟩
        intro k below above
        rcases Nat.lt_or_ge k m with inside | last
        · exact later k inside above
        · have here : k = m := by omega
          rw [here, ← Bool.not_eq_true]
          exact silent

section History

variable (pkg : Pkg) (n : Nat) (s : State) (h : History) (i : Input)

/-- The writer of `r` that an instruction issued in this cycle depends on. -/
def writerOf (r : BitVec 5) : Option Nat :=
  youngestWriter pkg n s.scoreboard r s.scoreboard.issueCnt

/-- The value that the instruction will write is in the scoreboard or on a write-back port, and
neither the commit stage nor an exception replaces it. -/
def isKnown (k : Nat) : Bool :=
  let e := entry n s.scoreboard k
  e.fu != .csr && !pkg.isAmo e.op && !e.ex.valid &&
    (e.valid || i.wb.any fun p => p.valid && !p.ex.valid &&
      p.transId == slot n s.scoreboard.commitPointer k)

/-- The record of an operand that was read from register `r`. -/
def record (r : BitVec 5) (value : BitVec 64) : Read :=
  match writerOf pkg n s r with
  | some k =>
      { value := value
        source := .inFlight (h.flight.getD k {}).serial
        known := isKnown pkg n s i k }
  | none => { value := value, source := .registerFile (s.operands.gpr r), known := true }

/-- `operand_a_n` comes from an integer register. -/
def readsA : Bool :=
  let e := issueInstr pkg n s i
  !e.usePc && !e.useZimm && !pkg.isRs1Fpr e.op

/-- `operand_b_n` comes from an integer register. -/
def readsB : Bool :=
  !IssueReadOperands.immediateB pkg (readInput pkg n s i) &&
    !pkg.isRs2Fpr (issueInstr pkg n s i).op

/-- The integer register operands that are latched in this cycle. -/
def reads : List Read :=
  (if readsA pkg n s i then
    [record pkg n s h i (arch i.decodedInstr.rs1)
      (IssueReadOperands.operandA pkg (readInput pkg n s i) s.operands)] else []) ++
  (if readsB pkg n s i then
    [record pkg n s h i (arch i.decodedInstr.rs2)
      (IssueReadOperands.operandB pkg (readInput pkg n s i) s.operands)] else [])

/-- What the two commit ports write in this cycle. -/
def writtenNext : Nat → Option (BitVec 64) :=
  let o := commitOutput pkg n s i
  let w := if o.commitAck0 && o.weGpr0 then
      Function.update h.written (h.flight.getD 0 {}).serial (some o.wdata0)
    else h.written
  if o.commitAck1 && o.weGpr1 then
    Function.update w (h.flight.getD 1 {}).serial (some o.wdata1)
  else w

/-- The instruction that enters in this cycle. -/
def entering : List Issue :=
  if enters pkg n s i then [{ serial := h.serial, reads := reads pkg n s h i }] else []

/-- The instructions that commit in this cycle. -/
def acks : Nat := Scoreboard.acks (scoreboardInput pkg n s i)

def historyNext : History where
  serial := h.serial + (enters pkg n s i).toNat
  flight := if flushes pkg n s i then []
    else (h.flight ++ entering pkg n s h i).drop (acks pkg n s i)
  written := writtenNext pkg n s h i

/-- Every operand of the instruction that commits on port `k` is correct. -/
def PortCorrect (k : Nat) : Prop :=
  ∀ r ∈ (h.flight.getD k {}).reads, r.Correct (writtenNext pkg n s h i)

/-- Instructions that commit, on port 0 without an exception of their own, have correct
operands. -/
structure OperandsCorrect : Prop where
  port0 : (commitOutput pkg n s i).commitAck0 = true →
    (commitInstr n s.scoreboard 0).ex.valid = false → PortCorrect pkg n s h i 0
  port1 : (commitOutput pkg n s i).commitAck1 = true → PortCorrect pkg n s h i 1

/-- What the decoder gives. Instructions with an exception are marked as finished, the others
need a unit; stores have no destination, and fences go to the CSR unit. -/
structure Decoded (e : ScoreboardEntry) : Prop where
  finished : e.ex.valid = true → e.valid = true
  unit : e.fu = .none → e.ex.valid = true
  store : e.fu = .store → pkg.isAmo e.op = false → e.ex.valid = false → arch e.rd = 0
  fence : CommitStage.namesFence e.op = true → e.fu = .csr

/-- The signals from the decoder, the functional units and the cache. -/
structure Environment : Prop where
  decoded : i.decodedInstrValid = true →
    Decoded pkg i.decodedInstr ∧ i.decodedInstr.rd.getLsbD 5 = false
  amo : i.commit.amoResp.ack = true → (commitOutput pkg n s i).amoValidCommit = true

/-- No instruction is acknowledged that reads a register whose youngest writer in flight is an
atomic memory operation. -/
structure NoAmoSource : Prop where
  operandA : enters pkg n s i = true → readsA pkg n s i = true →
    ∀ k, writerOf pkg n s (arch i.decodedInstr.rs1) = some k →
      pkg.isAmo (entry n s.scoreboard k).op = false
  operandB : enters pkg n s i = true → readsB pkg n s i = true →
    ∀ k, writerOf pkg n s (arch i.decodedInstr.rs2) = some k →
      pkg.isAmo (entry n s.scoreboard k).op = false

/-- The name under which the register `rs` is looked up. -/
def readName (rs : BitVec 6) : BitVec 6 :=
  named (pkg.enableRename && s.reName.gpr (arch rs)) rs

/-- The `k`-th oldest instruction stays in flight. -/
def Stays (k : Nat) : Prop :=
  flushes pkg n s i = false ∧ acks pkg n s i ≤ k ∧ k < s.scoreboard.issueCnt

/-- What the write-back ports do to an operand whose name is looked up and that instruction `w`
is going to write: no port answers an empty slot that still holds the name, and the ports answer
the instruction at most once, and only if it is not finished. -/
structure Fresh (name : BitVec 6) (w : Nat) : Prop where
  occupied : ∀ p ∈ i.wb, p.valid = true → p.ex.valid = false → p.transId < n →
    Scoreboard.writesReg pkg (s.scoreboard.mem p.transId).sbe name false = true →
      (s.scoreboard.mem p.transId).issued = true
  unfinished : ∀ p ∈ i.wb, Hits p (slot n s.scoreboard.commitPointer w) →
    (entry n s.scoreboard w).valid = false
  single : i.wb.Pairwise fun p q => ¬ (Hits p (slot n s.scoreboard.commitPointer w) ∧
    Hits q (slot n s.scoreboard.commitPointer w))

/-- An answer to an instruction that was flushed does not reach an operand: not an operand of the
instruction that is acknowledged, and not one that an instruction in flight has already got. -/
structure Timely : Prop where
  operandA : enters pkg n s i = true → readsA pkg n s i = true →
    ∀ w, writerOf pkg n s (arch i.decodedInstr.rs1) = some w →
      Fresh pkg n s i (readName pkg s i.decodedInstr.rs1) w
  operandB : enters pkg n s i = true → readsB pkg n s i = true →
    ∀ w, writerOf pkg n s (arch i.decodedInstr.rs2) = some w →
      Fresh pkg n s i (readName pkg s i.decodedInstr.rs2) w
  kept : ∀ k, Stays pkg n s i k →
    h.Taken (h.flight.getD k {}).serial →
      ∀ p ∈ i.wb, ¬ Hits p (slot n s.scoreboard.commitPointer k)

end History

/-- `is_amo` holds of the atomic memory operations only, and `is_rd_fpr` of none of them. -/
def AmoOps (pkg : Pkg) : Prop :=
  ∀ op, pkg.isAmo op = true → op.amoNamed = true ∧ pkg.isRdFpr op = false

/-- The issue stage with its history. -/
def recorded (pkg : Pkg) (n : Nat) : Machine (State × History) Input :=
  (machine pkg n).watched {} fun s i h => historyNext pkg n s h i

/-- The instruction never lets a younger one commit: it traps, or it is a fence, which flushes. -/
def blocks (e : ScoreboardEntry) : Bool := e.ex.valid || CommitStage.namesFence e.op

/-- The value that an instruction in flight will write. -/
structure Final (pkg : Pkg) (e : ScoreboardEntry) (value : BitVec 64) : Prop where
  finished : e.valid = true
  result : e.result = value
  clean : e.ex.valid = false
  unit : e.fu ≠ .csr
  plain : pkg.isAmo e.op = false
  file : pkg.isRdFpr e.op = false

/-- The names of the destinations, as long as no instruction in flight blocks. -/
structure Named (pkg : Pkg) (n : Nat) (s : State) : Prop where
  distinct : ∀ j < s.scoreboard.issueCnt, ∀ k < s.scoreboard.issueCnt,
    pkg.isRdFpr (entry n s.scoreboard j).op = false →
    pkg.isRdFpr (entry n s.scoreboard k).op = false →
    (entry n s.scoreboard j).rd = (entry n s.scoreboard k).rd →
    arch (entry n s.scoreboard j).rd ≠ 0 → j = k
  newest : ∀ k < s.scoreboard.issueCnt, ∀ r, writesGpr pkg (entry n s.scoreboard k) r = true →
    (∀ j < s.scoreboard.issueCnt, k < j → writesGpr pkg (entry n s.scoreboard j) r = false) →
    (entry n s.scoreboard k).rd =
      ReName.named (pkg.enableRename && s.reName.gpr r) (entry n s.scoreboard k).rd
  plain : pkg.enableRename = false → ∀ k < s.scoreboard.issueCnt,
    (entry n s.scoreboard k).rd = ReName.named false (entry n s.scoreboard k).rd

/-- The operand is in the register file, or its source has written it, or its source is older,
in flight, and going to write it. -/
def Read.Holds (pkg : Pkg) (n : Nat) (s : State) (h : History) (k : Nat) (r : Read) : Prop :=
  r.known = true ∧
    match r.source with
    | .inFlight serial =>
        (h.written serial = some r.value ∧ serial + s.scoreboard.issueCnt < h.serial) ∨
          ∃ j < k, (h.flight.getD j {}).serial = serial ∧
            Final pkg (entry n s.scoreboard j) r.value
    | .registerFile content => r.value = content

/-- The state and its history fit together. -/
structure Consistent (pkg : Pkg) (n : Nat) (s : State) (h : History) : Prop where
  window : Scoreboard.Window n s.scoreboard
  halted : Controller.Halted s.controller
  zero : s.reName.gpr 0 = false
  decoded : ∀ k < s.scoreboard.issueCnt, Decoded pkg (entry n s.scoreboard k)
  length : h.flight.length = s.scoreboard.issueCnt
  serials : ∀ k < s.scoreboard.issueCnt,
    (h.flight.getD k {}).serial + s.scoreboard.issueCnt = h.serial + k
  names : (∀ k < s.scoreboard.issueCnt, blocks (entry n s.scoreboard k) = false) → Named pkg n s
  reads : ∀ k < s.scoreboard.issueCnt,
    (∀ j < k, blocks (entry n s.scoreboard j) = false) →
    (entry n s.scoreboard k).ex.valid = false →
    ∀ r ∈ (h.flight.getD k {}).reads, r.Holds pkg n s h k

end Ariane.IssueStage
