import Ariane.CompressedExpansion
import Ariane.DecoderPrivileged
import Ariane.FluPort

set_option autoImplicit false

/- From the word to its effect: decoding, renaming, operand selection and the units together do what
the instruction set prescribes. -/
namespace Ariane.ExStage

open Rv64 (Instr Isa AluOp BranchOp MulOp Effect isa opcode rd rs1 rs2 funct3 funct7 immI immB immU immJ)
open Decoder (aluFuOp branchFuOp mulFuOp entryOf)
open ReName (arch)

section Immediates

variable {word : BitVec 32}

/-- The low bits of an extended immediate are those of the immediate. -/
theorem extended_low (imm : BitVec 12) {k : Nat} (inside : k ≤ 12) :
    (imm.signExtend 64).toNat % 2 ^ k = ((imm.extractLsb' 0 k).setWidth 64).toNat % 2 ^ k := by
  have low : (imm.signExtend 64).setWidth k = ((imm.extractLsb' 0 k).setWidth 64).setWidth k := by
    apply BitVec.eq_of_getLsbD_eq
    intro j below
    have small : j < 64 := by omega
    have short : j < 12 := by omega
    rw [BitVec.getLsbD_setWidth, BitVec.getLsbD_setWidth, BitVec.getLsbD_setWidth,
      BitVec.getLsbD_signExtend, BitVec.getLsbD_extractLsb', if_pos short]
    simp [below, small]
  have nat := congrArg BitVec.toNat low
  rwa [BitVec.toNat_setWidth, BitVec.toNat_setWidth] at nat

/-- The operands of an instruction are those of the format of its word; of a shift amount only the low
bits count. -/
def Formed (word : BitVec 32) : Isa → Prop
  | .base (.aluImm op _ _ imm) => ∀ a, op.result a ((immI word).signExtend 64) = op.result a imm
  | .base (.lui _ imm) | .base (.auipc _ imm) => (immU word).signExtend 64 = imm
  | .base (.jal _ imm) => (immJ word).signExtend 64 = imm
  | .base (.jalr _ _ imm) => (immI word).signExtend 64 = imm
  | .base (.branch _ _ _ imm) => (immB word).signExtend 64 = imm
  | _ => True

theorem shift_formed {instr : Instr}
    (decodes : Rv64.shift (rd word) (rs1 word) (funct3 word) (immI word) = some instr) :
    Formed word (.base instr) := by
  have low : ((immI word).signExtend 64).toNat % 64 =
      (((immI word).extractLsb' 0 6).setWidth 64).toNat % 64 :=
    extended_low (immI word) (show 6 ≤ 12 by omega)
  unfold Rv64.shift at decodes
  split at decodes <;> cases decodes <;> intro a <;> simp only [AluOp.result, low]

theorem opImm_formed {instr : Instr}
    (decodes : Rv64.opImm (rd word) (rs1 word) (funct3 word) (immI word) = some instr) :
    Formed word (.base instr) := by
  unfold Rv64.opImm at decodes
  split at decodes
  case h_7 => exact shift_formed decodes
  all_goals
    cases decodes
    intro a
    rfl

theorem opImm32_formed {instr : Instr}
    (decodes : Rv64.opImm32 (rd word) (rs1 word) (funct3 word) (immI word) = some instr) :
    Formed word (.base instr) := by
  have low : ((immI word).signExtend 64).toNat % 32 =
      (((immI word).extractLsb' 0 5).setWidth 64).toNat % 32 :=
    extended_low (immI word) (show 5 ≤ 12 by omega)
  unfold Rv64.opImm32 at decodes
  split at decodes <;> cases decodes <;> intro a <;> simp only [AluOp.result, low]

/-- A word with an instruction has one of the opcodes. -/
theorem isa_opcode {instr : Isa} (decodes : isa word = some instr) :
    opcode word ∈ [Rv64.opcodeSystem, Rv64.opcodeMiscMem, Rv64.opcodeOp, Rv64.opcodeOp32,
      Rv64.opcodeOpImm, Rv64.opcodeOpImm32, Rv64.opcodeStore, Rv64.opcodeLoad, Rv64.opcodeAmo,
      Rv64.opcodeBranch, Rv64.opcodeJalr, Rv64.opcodeJal, Rv64.opcodeAuipc, Rv64.opcodeLui] := by
  by_cases known : opcode word ∈ [Rv64.opcodeSystem, Rv64.opcodeMiscMem, Rv64.opcodeOp,
    Rv64.opcodeOp32, Rv64.opcodeOpImm, Rv64.opcodeOpImm32, Rv64.opcodeStore, Rv64.opcodeLoad,
    Rv64.opcodeAmo, Rv64.opcodeBranch, Rv64.opcodeJalr, Rv64.opcodeJal, Rv64.opcodeAuipc,
    Rv64.opcodeLui]
  · exact known
  · have none := Decoder.isa_none fun opc member (same : opcode word = opc) => known (same ▸ member)
    rw [none] at decodes
    cases decodes

/-- The units of the port execute no system instruction and no fence. -/
theorem isa_plain {instr : Isa} (decodes : isa word = some instr) {x : Rv64.Reg → BitVec 64}
    {pc size : BitVec 64} {eff : Effect} (effect : instr.effect x pc size = some eff) :
    opcode word ≠ Rv64.opcodeSystem ∧ opcode word ≠ Rv64.opcodeMiscMem := by
  constructor
  · intro system
    rw [Decoder.isa_system system] at decodes
    split at decodes
    · unfold Rv64.privileged at decodes
      split_ifs at decodes <;> cases decodes <;> cases effect
    · obtain ⟨c, -, rfl⟩ := Option.map_eq_some_iff.mp decodes
      cases effect
  · intro miscMem
    rw [Decoder.isa_miscMem miscMem] at decodes
    split_ifs at decodes <;> cases decodes <;> cases effect

theorem isa_formed {instr : Isa} (decodes : isa word = some instr) : Formed word instr := by
  have opc := isa_opcode decodes
  simp only [List.mem_cons, List.not_mem_nil, or_false] at opc
  rcases opc with opc | opc | opc | opc | opc | opc | opc | opc | opc | opc | opc | opc | opc | opc
  · rw [Decoder.isa_system opc] at decodes
    split at decodes
    · unfold Rv64.privileged at decodes
      split_ifs at decodes <;> cases decodes <;> trivial
    · obtain ⟨c, -, rfl⟩ := Option.map_eq_some_iff.mp decodes
      trivial
  · rw [Decoder.isa_miscMem opc] at decodes
    split_ifs at decodes <;> cases decodes <;> trivial
  · rw [Decoder.isa_op opc] at decodes
    split at decodes
    · cases decodes
      trivial
    · obtain ⟨op, -, rfl⟩ := Option.map_eq_some_iff.mp decodes
      trivial
  · rw [Decoder.isa_op32 opc] at decodes
    split at decodes <;> obtain ⟨op, -, rfl⟩ := Option.map_eq_some_iff.mp decodes <;> trivial
  · rw [Decoder.isa_opImm opc] at decodes
    obtain ⟨i, form, rfl⟩ := Option.map_eq_some_iff.mp decodes
    exact opImm_formed form
  · rw [Decoder.isa_opImm32 opc] at decodes
    obtain ⟨i, form, rfl⟩ := Option.map_eq_some_iff.mp decodes
    exact opImm32_formed form
  · rw [Decoder.isa_store opc] at decodes
    obtain ⟨op, -, rfl⟩ := Option.map_eq_some_iff.mp decodes
    trivial
  · rw [Decoder.isa_load opc] at decodes
    obtain ⟨op, -, rfl⟩ := Option.map_eq_some_iff.mp decodes
    trivial
  · rw [Decoder.isa_amo opc] at decodes
    split at decodes
    · obtain ⟨op, -, rfl⟩ := Option.map_eq_some_iff.mp decodes
      trivial
    · cases decodes
  · rw [Decoder.isa_branch opc] at decodes
    obtain ⟨op, -, rfl⟩ := Option.map_eq_some_iff.mp decodes
    rfl
  · rw [Decoder.isa_jalr opc] at decodes
    split at decodes <;> cases decodes
    rfl
  · rw [Decoder.isa_jal opc] at decodes
    cases decodes
    rfl
  · rw [Decoder.isa_auipc opc] at decodes
    cases decodes
    rfl
  · rw [Decoder.isa_lui opc] at decodes
    cases decodes
    rfl

end Immediates

/-- The operators of the units at the port. -/
def IntegerOp (op : FuOp) : Prop :=
  (∃ a, op = aluFuOp a) ∨ (∃ b, op = branchFuOp b) ∨ (∃ m, op = mulFuOp m) ∨ op = .jalr

/-- They work on the integer registers. -/
structure IntegerFile (pkg : Pkg) : Prop where
  rs1 : ∀ op, IntegerOp op → pkg.isRs1Fpr op = false
  rs2 : ∀ op, IntegerOp op → pkg.isRs2Fpr op = false
  imm : ∀ op, IntegerOp op → pkg.isImmFpr op = false

section Issue

variable (pkg : Pkg) (p : Decoder.Immediates) (d : Decoder.Input)

/-- The entry of a word under the name `n`, with the names that its registers have. -/
def issuedEntry (r : ReName.State) (n : Nat) : ScoreboardEntry :=
  { ReName.issueInstr pkg r (Decoder.instruction pkg p d) with transId := n }

/-- The entry starts at the end of the cycle. -/
structure Issues (r : ReName.State) (n : Nat) (q : State) (i : Input) : Prop where
  entry : i.issue.issueInstr = issuedEntry pkg p d r n
  valid : i.issue.issueInstrValid = true
  ack : IssueReadOperands.issueAck pkg (issueInput pkg q i) q.issue = true
  flush : i.issue.flush = false

/-- The operands come from the registers `x` of the program, forwarded or not. -/
structure Reads (x : Rv64.Reg → BitVec 64) (s : IssueReadOperands.Input)
    (r : IssueReadOperands.State) : Prop where
  zero : x 0 = 0
  rs1 : (if IssueReadOperands.forwardRs1 pkg s then s.operands.rs1
    else r.gpr (arch s.issueInstr.rs1)) = x (arch s.issueInstr.rs1)
  rs2 : (if IssueReadOperands.forwardRs2 pkg s then s.operands.rs2
    else r.gpr (arch s.issueInstr.rs2)) = x (arch s.issueInstr.rs2)

/-- The registers between issue and execution hold the entry `e` of the word. -/
structure Latched (e : Decoder.Entry) (x : Rv64.Reg → BitVec 64) (n : Nat)
    (r : IssueReadOperands.State) : Prop where
  operator : r.operator = e.op
  transId : r.transId = n
  pc : r.pc = d.pc
  isCompressed : r.isCompressed = d.isCompressed
  operandA : r.operandA = if e.usePc then d.pc else x e.rs1
  operandB : r.operandB = if e.useImm && e.fu != .ctrlFlow then e.result else x e.rs2
  imm : r.imm = e.result
  alu : r.aluValid = decide (e.fu = .alu)
  branch : r.branchValid = decide (e.fu = .ctrlFlow)
  csr : r.csrValid = decide (e.fu = .csr)
  mult : r.multValid = decide (e.fu = .mult)

variable {pkg p d} {q : State} {i : Input} {instr : Isa} {x : Rv64.Reg → BitVec 64}
  {eff : Effect} {size : BitVec 64}

theorem integerOp_entryOf (p : Decoder.Immediates) (word : BitVec 32)
    (effect : instr.effect x d.pc size = some eff) :
    IntegerOp (entryOf p.enableWfi word instr).op ∧
      (entryOf p.enableWfi word instr).fu ≠ .store ∧
      (entryOf p.enableWfi word instr).useZimm = false := by
  cases instr with
  | base instr =>
      cases instr with
      | aluImm op | alu op => exact ⟨.inl ⟨op, rfl⟩, Fu.noConfusion, rfl⟩
      | lui | auipc | jal => exact ⟨.inl ⟨.add, rfl⟩, Fu.noConfusion, rfl⟩
      | jalr => exact ⟨.inr (.inr (.inr rfl)), Fu.noConfusion, rfl⟩
      | branch op => exact ⟨.inr (.inl ⟨op, rfl⟩), Fu.noConfusion, rfl⟩
      | load | store | ecall | ebreak => cases effect
  | mul op => exact ⟨.inr (.inr (.inl ⟨op, rfl⟩)), Fu.noConfusion, rfl⟩
  | _ => cases effect

theorem arch_setWidth (r : Rv64.Reg) : arch (r.setWidth 6) = r := by
  rw [arch, BitVec.setWidth_setWidth_of_le r (by omega), BitVec.setWidth_eq]

/-- The decoder accepts the word and gives its entry. -/
theorem decode_entry (pkg : Pkg) (lawful : p.Lawful) (atomics : pkg.rva = true)
    (fresh : d.ex.valid = false) (expanded : d.isIllegal = false) (decodes : isa d.instruction = some instr)
    (effect : instr.effect x d.pc size = some eff) :
    (Decoder.decode pkg p d).entry p d.instruction = entryOf p.enableWfi d.instruction instr ∧
      (Decoder.instruction pkg p d).ex.valid = false := by
  have signals : Decoder.decode pkg p d = Decoder.signals p d.mode d.instruction true := by
    rw [Decoder.decode, fresh, atomics]
    rfl
  obtain ⟨noSystem, noFence⟩ := isa_plain decodes effect
  obtain ⟨illegal, entry⟩ :=
    @Decoder.agrees p d.mode d.instruction lawful fun lost => noSystem lost.1
  rw [← signals] at illegal entry
  have allowed : instr.allowed d.mode = true := by
    cases instr <;> first | rfl | cases effect
  have accepted : (Decoder.decode pkg p d).illegalInstr = false := by
    rw [illegal, Decoder.legal_of_isa decodes allowed, Decoder.plainFence_of_opcode noFence]
    rfl
  obtain ⟨fields, ecall, ebreak⟩ := entry instr decodes accepted
  refine ⟨fields, Decoder.raises_nothing fresh expanded accepted (ecall.trans (decide_eq_false ?_))
    (ebreak.trans (decide_eq_false ?_))⟩
  · rintro rfl
    cases effect
  · rintro rfl
    cases effect

theorem next_latched {r : ReName.State} {n : Nat} (file : IntegerFile pkg) (lawful : p.Lawful)
    (atomics : pkg.rva = true) (fresh : d.ex.valid = false) (expanded : d.isIllegal = false)
    (decodes : isa d.instruction = some instr) (effect : instr.effect x d.pc size = some eff)
    (issues : Issues pkg p d r n q i) (reads : Reads pkg x (issueInput pkg q i) q.issue) :
    Latched d (entryOf p.enableWfi d.instruction instr) x n (next pkg q i).issue := by
  obtain ⟨fields, plain⟩ := decode_entry pkg lawful atomics fresh expanded decodes effect
  obtain ⟨integer, noStore, noZimm⟩ := integerOp_entryOf p d.instruction effect
  rw [← fields] at integer noStore noZimm ⊢
  have entry : (issueInput pkg q i).issueInstr = issuedEntry pkg p d r n := issues.entry
  have fp1 : pkg.isRs1Fpr (issuedEntry pkg p d r n).op = false := file.rs1 _ integer
  have fp2 : pkg.isRs2Fpr (issuedEntry pkg p d r n).op = false := file.rs2 _ integer
  have fp3 : pkg.isImmFpr (issuedEntry pkg p d r n).op = false := file.imm _ integer
  have first : arch (issuedEntry pkg p d r n).rs1 =
      ((Decoder.decode pkg p d).entry p d.instruction).rs1 :=
    (ReName.arch_named _ _).trans (arch_setWidth _)
  have second : arch (issuedEntry pkg p d r n).rs2 =
      ((Decoder.decode pkg p d).entry p d.instruction).rs2 :=
    (ReName.arch_named _ _).trans (arch_setWidth _)
  have result : (issuedEntry pkg p d r n).result =
      ((Decoder.decode pkg p d).entry p d.instruction).result := by
    have named := fp3
    exact if_neg (Bool.eq_false_iff.mp named)
  have store : (issuedEntry pkg p d r n).fu ≠ .store := noStore
  have zimm : (issuedEntry pkg p d r n).useZimm = false := noZimm
  have starts (fu : Fu) : IssueReadOperands.starts pkg (issueInput pkg q i) q.issue [fu] =
      decide (((Decoder.decode pkg p d).entry p d.instruction).fu = fu) := by
    have valid : (issueInput pkg q i).issueInstrValid = true := issues.valid
    have flush : (issueInput pkg q i).flush = false := issues.flush
    have quiet : (issuedEntry pkg p d r n).ex.valid = false := plain
    rw [IssueReadOperands.starts, issues.ack, valid, flush, entry, quiet]
    simp only [Bool.not_false, Bool.true_and, Bool.and_true, List.mem_singleton]
    rfl
  have operandA := reads.rs1
  have operandB := reads.rs2
  rw [entry, first] at operandA
  rw [entry, second] at operandB
  refine ⟨congrArg ScoreboardEntry.op entry, congrArg ScoreboardEntry.transId entry,
    congrArg ScoreboardEntry.pc entry, congrArg ScoreboardEntry.isCompressed entry, ?_, ?_, ?_,
    starts .alu, starts .ctrlFlow, starts .csr, starts .mult⟩
  · change IssueReadOperands.operandA pkg (issueInput pkg q i) q.issue = _
    rw [IssueReadOperands.operandA, entry, fp1, zimm, first, if_neg Bool.false_ne_true,
      if_neg Bool.false_ne_true, operandA]
    rfl
  · change IssueReadOperands.operandB pkg (issueInput pkg q i) q.issue = _
    rw [IssueReadOperands.operandB, IssueReadOperands.immediateB, entry, fp2, second,
      if_neg Bool.false_ne_true, operandB, result, bne_iff_ne.mpr store, Bool.and_true,
      Bool.not_false, Bool.and_true]
    rfl
  · change IssueReadOperands.imm pkg (issueInput pkg q i) = _
    rw [IssueReadOperands.imm, IssueReadOperands.forwardRs3, IssueReadOperands.pendingRs3, entry, fp3,
      result]
    rfl

end Issue

section Units

variable {pkg : Pkg} {d : Decoder.Input} {e : Decoder.Entry} {x : Rv64.Reg → BitVec 64} {n : Nat}
  {r : IssueReadOperands.State}

theorem isaResult_aluFuOp (op : AluOp) (a b : BitVec 64) :
    Alu.isaResult (aluFuOp op) a b = some (op.result a b) := by
  cases op <;> rfl

theorem isaBranch_branchFuOp (op : BranchOp) (a b : BitVec 64) :
    Alu.isaBranch (branchFuOp op) a b = some (op.taken a b) := by
  cases op <;> rfl

theorem Latched.alu_result (latched : Latched d e x n r) (op : AluOp) (unit : e.fu = .alu)
    (operator : e.op = aluFuOp op) : executing pkg r = [(n, op.result r.operandA r.operandB)] := by
  have alu : r.aluValid = true := latched.alu.trans (decide_eq_true unit)
  have other : single r = true := by
    rw [single, alu]
    rfl
  rw [executing, starting, other, Bool.true_or, if_pos rfl, List.map_cons, answer, expected, other,
    if_pos rfl, prescribed, alu, if_pos rfl, latched.transId, latched.operator, operator,
    isaResult_aluFuOp]
  rfl

theorem Latched.link (latched : Latched d e x n r) (unit : e.fu = .ctrlFlow) :
    executing pkg r = [(n, BranchUnit.nextPc d.pc d.isCompressed)] := by
  have alu : r.aluValid = false := latched.alu.trans (by rw [unit]; rfl)
  have branch : r.branchValid = true := latched.branch.trans (decide_eq_true unit)
  have other : single r = true := by
    rw [single, branch, Bool.or_true]
    rfl
  rw [executing, starting, other, Bool.true_or, if_pos rfl, List.map_cons, answer, expected, other,
    if_pos rfl, prescribed, alu, branch, if_neg Bool.false_ne_true, if_pos rfl, latched.transId,
    latched.pc, latched.isCompressed]
  rfl

theorem Latched.mult_result (latched : Latched d e x n r) (law : pkg.Extends) (op : MulOp)
    (unit : e.fu = .mult) (operator : e.op = mulFuOp op) :
    executing pkg r = [(n, Mult.unitResult op r.operandA r.operandB)] := by
  have alu : r.aluValid = false := latched.alu.trans (by rw [unit]; rfl)
  have branch : r.branchValid = false := latched.branch.trans (by rw [unit]; rfl)
  have csr : r.csrValid = false := latched.csr.trans (by rw [unit]; rfl)
  have mult : r.multValid = true := latched.mult.trans (decide_eq_true unit)
  have other : single r = false := by
    rw [single, alu, branch, csr]
    rfl
  have data : (fuData r).operator = mulFuOp op := latched.operator.trans operator
  rw [executing, starting, other, mult, Bool.false_or, if_pos rfl, List.map_cons, answer, expected,
    other, if_neg Bool.false_ne_true, answerOf_eq law data, latched.transId]
  rfl

/-- No transfer: whatever was predicted, the front end goes on behind the instruction. -/
theorem Latched.goes_on (latched : Latched d e x n r) (unit : e.fu = .alu ∨ e.fu = .mult) :
    BranchUnit.continues (branchInput r) = BranchUnit.nextPc d.pc d.isCompressed ∧
      (BranchUnit.branchException (branchInput r)).valid = false := by
  have branch : r.branchValid = false := by
    rw [latched.branch]
    rcases unit with unit | unit <;> rw [unit] <;> rfl
  have other : (branchInput r).fuValid = true := by
    rcases unit with unit | unit
    · simp [branchInput, latched.alu, unit]
    · simp [branchInput, latched.mult, unit]
  refine ⟨?_, ?_⟩
  · rw [BranchUnit.continues_other branch other, BranchUnit.branchResult, ← latched.pc,
      ← latched.isCompressed]
    rfl
  · rw [BranchUnit.branchException, show (branchInput r).branchValid = false from branch]
    rfl

/-- A transfer to an even address. -/
theorem Latched.transfers (latched : Latched d e x n r) (unit : e.fu = .ctrlFlow)
    (aligned : BranchUnit.misaligned (branchInput r) = false) :
    BranchUnit.continues (branchInput r) =
        (if (Alu.isaBranch e.op r.operandA r.operandB).getD true then
          BranchUnit.targetAddress (branchInput r)
        else BranchUnit.nextPc d.pc d.isCompressed) ∧
      (BranchUnit.branchException (branchInput r)).valid = false := by
  have branch : r.branchValid = true := latched.branch.trans (decide_eq_true unit)
  have result : (branchInput r).branchCompRes =
      (Alu.isaBranch e.op r.operandA r.operandB).getD true := by
    have data : aluData r = fuData r := by rw [aluData, branch, Bool.or_true, if_pos rfl]
    rw [branchInput, data, Alu.branchRes_isa, ← latched.operator]
    rfl
  refine ⟨?_, ?_⟩
  · rw [BranchUnit.continues_branch branch aligned, result, BranchUnit.branchResult, ← latched.pc,
      ← latched.isCompressed]
    rfl
  · rw [BranchUnit.branchException, aligned, Bool.and_false]

end Units

section Targets

variable {word : BitVec 32}

theorem even_add {a b : BitVec 64} (first : a.getLsbD 0 = false) (second : b.getLsbD 0 = false) :
    (a + b).getLsbD 0 = false := by
  rw [BitVec.getLsbD_add (by omega), first, second, BitVec.carry_zero]
  rfl

theorem immJ_even : ((immJ word).signExtend 64).getLsbD 0 = false := by
  rw [BitVec.getLsbD_signExtend, immJ, if_pos (by omega), BitVec.getLsbD_append]
  simp

theorem immB_even : ((immB word).signExtend 64).getLsbD 0 = false := by
  rw [BitVec.getLsbD_signExtend, immB, if_pos (by omega), BitVec.getLsbD_append]
  simp

variable {d : Decoder.Input} {e : Decoder.Entry} {x : Rv64.Reg → BitVec 64} {n : Nat}
  {r : IssueReadOperands.State}

/-- A transfer relative to the program counter. -/
theorem Latched.target_relative (latched : Latched d e x n r) (direct : e.op ≠ .jalr) :
    BranchUnit.targetAddress (branchInput r) = d.pc + e.result := by
  have operator : (branchInput r).fuData.operator ≠ .jalr := fun same =>
    direct (latched.operator.symm.trans same)
  rw [BranchUnit.targetAddress, if_neg operator, BranchUnit.jumpBase, if_neg operator, ← latched.pc,
    ← latched.imm]
  rfl

/-- An even offset from an even program counter. -/
theorem Latched.aligned_relative (latched : Latched d e x n r) (direct : e.op ≠ .jalr)
    {imm : BitVec 64} (formed : e.result = imm) (even : imm.getLsbD 0 = false)
    (aligned : d.pc.getLsbD 0 = false) :
    BranchUnit.targetAddress (branchInput r) = d.pc + imm ∧
      BranchUnit.misaligned (branchInput r) = false := by
  have target : BranchUnit.targetAddress (branchInput r) = d.pc + imm :=
    (latched.target_relative direct).trans (congrArg (d.pc + ·) formed)
  refine ⟨target, ?_⟩
  rw [BranchUnit.misaligned, target]
  exact even_add aligned even

/-- A transfer relative to a register. -/
theorem Latched.target_indirect (latched : Latched d e x n r) (indirect : e.op = .jalr) :
    BranchUnit.targetAddress (branchInput r) = (r.operandA + e.result) &&& ~~~1 := by
  have operator : (branchInput r).fuData.operator = .jalr := latched.operator.trans indirect
  rw [BranchUnit.targetAddress, if_pos operator, BranchUnit.jumpBase, if_pos operator, ← latched.imm]
  rfl

end Targets

/-- A signed division of minus one by one. -/
def DividesMinusOne (x : Rv64.Reg → BitVec 64) : Isa → Prop
  | .mul op _ rs1 rs2 => Mult.minusOneByOne (x rs1) (x rs2) op = true
  | _ => False

/-- The bytes of an instruction. -/
def size (isCompressed : Bool) : BitVec 64 := if isCompressed then 2 else 4

/-- What the registers between issue and execution lead to. -/
structure Executed (pkg : Pkg) (x : Rv64.Reg → BitVec 64) (instr : Isa) (eff : Effect) (n : Nat)
    (rd : Rv64.Reg) (r : IssueReadOperands.State) : Prop where
  result : ∀ dest v, eff.write = some (dest, v) → rd = dest ∧
    (executing pkg r = [(n, v)] ↔ ¬DividesMinusOne x instr)
  nothing : eff.write = none → rd = 0
  continues : BranchUnit.continues (branchInput r) = eff.next
  quiet : (BranchUnit.branchException (branchInput r)).valid = false

/-- What an instruction other than a division writes. -/
theorem Executed.of_write {pkg : Pkg} {x : Rv64.Reg → BitVec 64} {instr : Isa} {n : Nat}
    {rd : Rv64.Reg} {v pc : BitVec 64} {r : IssueReadOperands.State}
    (plain : ¬DividesMinusOne x instr) (executes : executing pkg r = [(n, v)])
    (goes : BranchUnit.continues (branchInput r) = pc)
    (quiet : (BranchUnit.branchException (branchInput r)).valid = false) :
    Executed pkg x instr ⟨some (rd, v), pc⟩ n rd r where
  result _ _ same := by
    cases same
    exact ⟨rfl, fun _ => plain, fun _ => executes⟩
  nothing none := absurd none (Option.some_ne_none _)
  continues := goes
  quiet := quiet

theorem Latched.executed {pkg : Pkg} (law : pkg.Extends) {d : Decoder.Input}
    {x : Rv64.Reg → BitVec 64} {n : Nat} {r : IssueReadOperands.State} {enableWfi : Bool}
    {instr : Isa} {eff : Effect}
    (latched : Latched d (entryOf enableWfi d.instruction instr) x n r)
    (formed : Formed d.instruction instr) (zero : x 0 = 0) (aligned : d.pc.getLsbD 0 = false)
    (effect : instr.effect x d.pc (size d.isCompressed) = some eff) :
    Executed pkg x instr eff n (entryOf enableWfi d.instruction instr).rd r := by
  have a := latched.operandA
  have b := latched.operandB
  cases instr with
  | base instr =>
      cases instr with
      | aluImm op rd rs1 imm =>
          cases effect
          obtain ⟨goes, quiet⟩ := latched.goes_on (.inl rfl)
          have executes : executing pkg r = [(n, op.result (x rs1) imm)] := by
            rw [latched.alu_result op rfl rfl, a, b]
            exact congrArg (fun v => [(n, v)]) (formed (x rs1))
          exact .of_write id executes goes quiet
      | alu op rd rs1 rs2 =>
          cases effect
          obtain ⟨goes, quiet⟩ := latched.goes_on (.inl rfl)
          have executes : executing pkg r = [(n, op.result (x rs1) (x rs2))] := by
            rw [latched.alu_result op rfl rfl, a, b]
            rfl
          exact .of_write id executes goes quiet
      | lui rd imm =>
          cases effect
          obtain ⟨goes, quiet⟩ := latched.goes_on (.inl rfl)
          have executes : executing pkg r = [(n, imm)] := by
            have sum : x 0 + imm = imm := by
              rw [zero]
              exact BitVec.zero_add imm
            rw [latched.alu_result .add rfl rfl, a, b]
            exact congrArg (fun v => [(n, v)]) ((congrArg (x 0 + ·) formed).trans sum)
          exact .of_write id executes goes quiet
      | auipc rd imm =>
          cases effect
          obtain ⟨goes, quiet⟩ := latched.goes_on (.inl rfl)
          have executes : executing pkg r = [(n, d.pc + imm)] := by
            rw [latched.alu_result .add rfl rfl, a, b]
            exact congrArg (fun v => [(n, v)]) (congrArg (d.pc + ·) formed)
          exact .of_write id executes goes quiet
      | jal rd imm =>
          cases effect
          have offset : (immJ d.instruction).signExtend 64 = imm := formed
          obtain ⟨target, even⟩ := latched.aligned_relative FuOp.noConfusion formed
            (offset ▸ immJ_even) aligned
          obtain ⟨goes, quiet⟩ := latched.transfers rfl even
          exact .of_write id (latched.link rfl) (goes.trans target) quiet
      | jalr rd rs1 imm =>
          cases effect
          have target : BranchUnit.targetAddress (branchInput r) = (x rs1 + imm) &&& ~~~1 := by
            rw [latched.target_indirect rfl, a]
            exact congrArg (fun v => (x rs1 + v) &&& ~~~1) formed
          have even : BranchUnit.misaligned (branchInput r) = false := by
            rw [BranchUnit.misaligned, target]
            simp
          obtain ⟨goes, quiet⟩ := latched.transfers rfl even
          exact .of_write id (latched.link rfl) (goes.trans target) quiet
      | branch op rs1 rs2 imm =>
          cases effect
          have direct : branchFuOp op ≠ .jalr := by cases op <;> exact FuOp.noConfusion
          have offset : (immB d.instruction).signExtend 64 = imm := formed
          obtain ⟨target, even⟩ := latched.aligned_relative direct formed (offset ▸ immB_even) aligned
          obtain ⟨goes, quiet⟩ := latched.transfers rfl even
          refine ⟨fun _ _ same => absurd same.symm (Option.some_ne_none _), fun _ => rfl, ?_, quiet⟩
          have taken : Alu.isaBranch (entryOf enableWfi d.instruction
              (.base (.branch op rs1 rs2 imm))).op r.operandA r.operandB =
                some (op.taken (x rs1) (x rs2)) := by
            rw [a, b]
            exact isaBranch_branchFuOp op _ _
          rw [goes, taken, target]
          rfl
      | load | store | ecall | ebreak => cases effect
  | mul op rd rs1 rs2 =>
      cases effect
      obtain ⟨goes, quiet⟩ := latched.goes_on (.inr rfl)
      have executes : executing pkg r = [(n, Mult.unitResult op (x rs1) (x rs2))] := by
        rw [latched.mult_result law op rfl rfl, a, b]
        rfl
      refine ⟨fun dest v same => ?_, fun none => absurd none (Option.some_ne_none _), goes, quiet⟩
      cases same
      refine ⟨rfl, Iff.trans ?_ (Mult.unitResult_iff op (x rs1) (x rs2))⟩
      rw [executes]
      simp
  | _ => cases effect

/-- A decoded word that is issued. -/
theorem Issues.executed {pkg : Pkg} {p : Decoder.Immediates} {d : Decoder.Input} {instr : Isa}
    {x : Rv64.Reg → BitVec 64} {eff : Effect} {r : ReName.State} {n : Nat} {q : State} {i : Input}
    (issues : Issues pkg p d r n q i) (law : pkg.Extends) (file : IntegerFile pkg)
    (lawful : p.Lawful) (atomics : pkg.rva = true) (fresh : d.ex.valid = false)
    (expanded : d.isIllegal = false)
    (aligned : d.pc.getLsbD 0 = false) (decodes : isa d.instruction = some instr)
    (effect : instr.effect x d.pc (size d.isCompressed) = some eff)
    (reads : Reads pkg x (issueInput pkg q i) q.issue) :
    Executed pkg x instr eff n (arch i.issue.issueInstr.rd) (next pkg q i).issue := by
  have stored := next_latched file lawful atomics fresh expanded decodes effect issues reads
  have executed := stored.executed law (isa_formed decodes) reads.zero aligned effect
  have dest : arch i.issue.issueInstr.rd = (entryOf p.enableWfi d.instruction instr).rd := by
    obtain ⟨fields, -⟩ := decode_entry pkg lawful atomics fresh expanded decodes effect
    rw [issues.entry, ← fields]
    exact (ReName.arch_named _ _).trans (arch_setWidth _)
  rw [dest]
  exact executed

section Fetch

open CompressedDecoder (compressedDecoder Rejected)

/-- The input of the decoder in `id_stage.sv` for a fetched word without an exception. -/
def decoderInput (word : BitVec 32) (pc : BitVec 64) (bp : BranchpredictSbe) (mode : Rv64.Mode) :
    Decoder.Input where
  pc := pc
  isCompressed := (compressedDecoder word).isCompressed
  compressedInstr := word.setWidth 16
  isIllegal := (compressedDecoder word).illegal
  instruction := (compressedDecoder word).instr
  branchPredict := bp
  mode := mode

/-- The instruction that a fetched word stands for; of a compressed one the upper half belongs to the
next. -/
def fetched (word : BitVec 32) : Option Isa :=
  if word.extractLsb 1 0 = 0b11 then isa word else (Rvc.expand (word.setWidth 16)).map .base

/-- The bytes that it takes in memory. -/
def bytes (word : BitVec 32) : BitVec 64 := if word.extractLsb 1 0 = 0b11 then 4 else 2

variable {word : BitVec 32}

/-- `is_compressed_o` tells the instructions of two bytes from those of four. -/
theorem isCompressed_iff :
    (compressedDecoder word).isCompressed = true ↔ word.extractLsb 1 0 ≠ 0b11 := by
  rw [compressedDecoder]
  rcases CompressedDecoder.pair_cases (word.extractLsb 1 0) with quadrant | quadrant | quadrant |
    quadrant <;> rw [quadrant]
  · rw [if_pos (.inl rfl)]
    exact ⟨fun _ => by decide, fun _ => rfl⟩
  · rw [if_pos (.inr (.inl rfl))]
    exact ⟨fun _ => by decide, fun _ => rfl⟩
  · rw [if_pos (.inr (.inr rfl))]
    exact ⟨fun _ => by decide, fun _ => rfl⟩
  · rw [if_neg (by decide)]
    exact ⟨fun compressed => Bool.noConfusion compressed, fun half => absurd rfl half⟩

theorem size_isCompressed : size (compressedDecoder word).isCompressed = bytes word := by
  rw [size, bytes]
  by_cases whole : word.extractLsb 1 0 = 0b11
  · rw [if_pos whole, if_neg fun half => isCompressed_iff.mp half whole]
  · rw [if_neg whole, if_pos (isCompressed_iff.mpr whole)]

theorem op_mul : ∀ f3 : BitVec 3, Rv64.op 1 f3 = none ∧ Rv64.op32 1 f3 = none := by
  decide

/-- An instruction with an effect is one of the base opcodes. -/
theorem isa_of_decode {instr : Instr} {x : Rv64.Reg → BitVec 64} {pc size : BitVec 64} {eff : Effect}
    (decodes : Rv64.decode word = some instr) (effect : instr.effect x pc size = some eff) :
    isa word = some (.base instr) := by
  -- the words that are left without a base opcode are the two calls
  have other {opc : BitVec 7} (member : opc ∈ [Rv64.opcodeSystem, Rv64.opcodeMiscMem, Rv64.opcodeAmo]) :
      opcode word ≠ opc := by
    intro same
    rw [Rv64.decode, same] at decodes
    simp only [List.mem_cons, List.not_mem_nil, or_false] at member
    rcases member with rfl | rfl | rfl <;>
      simp only [Rv64.opcodeSystem, Rv64.opcodeMiscMem, Rv64.opcodeAmo, Rv64.opcodeLoad,
        Rv64.opcodeLoadFp, Rv64.opcodeStore, Rv64.opcodeStoreFp, Rv64.opcodeOpImm,
        Rv64.opcodeOpImm32, Rv64.opcodeOp, Rv64.opcodeOp32, Rv64.opcodeLui, Rv64.opcodeAuipc,
        Rv64.opcodeJal, Rv64.opcodeJalr, Rv64.opcodeBranch, BitVec.reduceEq, if_false] at decodes <;>
      split_ifs at decodes <;> cases decodes <;> cases effect
  have noMul (mul : funct7 word = 1) :
      opcode word ≠ Rv64.opcodeOp ∧ opcode word ≠ Rv64.opcodeOp32 := by
    refine ⟨fun opc => ?_, fun opc => ?_⟩
    · rw [Rv64.decode, opc, mul, (op_mul (funct3 word)).1] at decodes
      exact absurd decodes (Option.some_ne_none _).symm
    · rw [Rv64.decode, opc, mul, (op_mul (funct3 word)).2] at decodes
      exact absurd decodes (Option.some_ne_none _).symm
  have noFloat : opcode word ≠ Rv64.opcodeLoadFp ∧ opcode word ≠ Rv64.opcodeStoreFp := by
    refine ⟨fun opc => ?_, fun opc => ?_⟩
    · rw [Rv64.decode, opc] at decodes
      obtain ⟨op, -, rfl⟩ := Option.map_eq_some_iff.mp decodes
      cases effect
    · rw [Rv64.decode, opc] at decodes
      obtain ⟨op, -, rfl⟩ := Option.map_eq_some_iff.mp decodes
      cases effect
  rw [Decoder.isa_base (other (by simp)) (other (by simp)) (other (by simp)) noMul noFloat, decodes]
  rfl

theorem fetched_isa {instr : Isa} {x : Rv64.Reg → BitVec 64} {pc size : BitVec 64} {eff : Effect}
    (kept : ¬Rejected word) (fetch : fetched word = some instr)
    (effect : instr.effect x pc size = some eff) :
    isa (compressedDecoder word).instr = some instr ∧ (compressedDecoder word).illegal = false := by
  rw [fetched] at fetch
  split at fetch
  · next whole =>
      have same : compressedDecoder word = { instr := word, illegal := false, isCompressed := false } := by
        rw [compressedDecoder, whole]
        rfl
      rw [same]
      exact ⟨fetch, rfl⟩
  · next half =>
      obtain ⟨e, expands, rfl⟩ := Option.map_eq_some_iff.mp fetch
      have exact : CompressedDecoder.Exact word := by
        rcases CompressedDecoder.pair_cases (word.extractLsb 1 0) with quadrant | quadrant | quadrant |
          quadrant
        · exact (CompressedDecoder.exact_quadrant0 quadrant).mpr kept
        · exact (CompressedDecoder.exact_quadrant1 quadrant).mpr kept
        · exact (CompressedDecoder.exact_quadrant2 quadrant).mpr kept
        · exact absurd quadrant half
      refine ⟨isa_of_decode (exact.2 e expands) effect, Bool.eq_false_iff.mpr fun illegal => ?_⟩
      rw [exact.1.mp illegal] at expands
      cases expands

/-- Every fetched word with an instruction of the ALU, the branch unit, the multiplier or the divider,
compressed or not, but for the hints that the expansion rejects: for all registers, program counters and
predictions, issued in any state of the pipeline, it starts for its destination with the result that the
instruction set prescribes, unless it divides minus one by one; it raises nothing, and behind it the
front end goes on at the next program counter. -/
theorem execution_isa (pkg : Pkg) (p : Decoder.Immediates) (law : pkg.Extends) (file : IntegerFile pkg)
    (lawful : p.Lawful) (atomics : pkg.rva = true) (word : BitVec 32) (pc : BitVec 64)
    (aligned : pc.getLsbD 0 = false) (bp : BranchpredictSbe) (mode : Rv64.Mode)
    (kept : ¬Rejected word) (instr : Isa) (fetch : fetched word = some instr)
    (x : Rv64.Reg → BitVec 64) (eff : Effect)
    (effect : instr.effect x pc (bytes word) = some eff)
    (r : ReName.State) (n : Nat) (q : State) (i : Input)
    (issues : Issues pkg p (decoderInput word pc bp mode) r n q i)
    (reads : Reads pkg x (issueInput pkg q i) q.issue) :
    Executed pkg x instr eff n (arch i.issue.issueInstr.rd) (next pkg q i).issue := by
  obtain ⟨decodes, legal⟩ := fetched_isa kept fetch effect
  rw [← size_isCompressed] at effect
  exact issues.executed law file lawful atomics rfl legal aligned decodes effect reads

/-- The register `x8` holds six. -/
def sixInX8 : State where
  issue := { gpr := fun r => if r = 8 then 6 else 0 }

/-- `c.addi x8, 1`. -/
def addi : Input :=
  { issue :=
      { issueInstrValid := true
        issueInstr := issuedEntry .rv64ima Decoder.immediates
          (decoderInput 0x0405 0x80000000 {} ⟨.m, false, false, false, false⟩) {} 3 } }

/-- The sum goes to `x8`, and the next instruction is two bytes behind. -/
theorem execution_isa_addi :
    Executed .rv64ima (fun r => if r = 8 then 6 else 0) (.base (.aluImm .add 8 8 1))
      ⟨some (8, 7), 0x80000002⟩ 3 8 (next .rv64ima sixInX8 addi).issue :=
  execution_isa .rv64ima Decoder.immediates (fun _ => rfl)
    ⟨fun _ _ => rfl, fun _ _ => rfl, fun _ _ => rfl⟩ ⟨fun _ => rfl, fun _ => rfl, fun _ => rfl⟩ rfl
    0x0405 0x80000000 (by decide) {} ⟨.m, false, false, false, false⟩
    (by
      rintro (⟨-, (⟨li, -⟩ | ⟨lui, -⟩ | ⟨misc, -⟩)⟩ | ⟨two, -⟩)
      · exact absurd li (by decide)
      · exact absurd lui (by decide)
      · exact absurd misc (by decide)
      · exact absurd two (by decide))
    (.base (.aluImm .add 8 8 1)) (by decide +kernel) (fun r => if r = 8 then 6 else 0)
    ⟨some (8, 7), 0x80000002⟩ (by decide) {} 3 sixInX8 addi ⟨rfl, rfl, by decide +kernel, rfl⟩
    ⟨rfl, by decide, by decide +kernel⟩

end Fetch

end Ariane.ExStage
