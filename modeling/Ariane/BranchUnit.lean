import Ariane.Alu

set_option autoImplicit false

/- `branch_unit.sv`: resolves control transfers and checks what the front end predicted. -/
namespace Ariane.BranchUnit

/-- `branchpredict_t`, the report to the front end. The kind of transfer is passed through and
left out. -/
structure Branchpredict where
  pc : BitVec 64 := 0
  targetAddress : BitVec 64 := 0
  isMispredict : Bool := false
  isTaken : Bool := false
  valid : Bool := false
  clear : Bool := false
  deriving DecidableEq, Inhabited

structure Input where
  fuData : FuData := {}
  pc : BitVec 64 := 0
  isCompressedInstr : Bool := false
  fuValid : Bool := false
  branchValid : Bool := false
  branchCompRes : Bool := false
  branchPredict : BranchpredictSbe := {}
  deriving DecidableEq, Inhabited

/-- `next_pc`, where the instruction after this one is. -/
def nextPc (pc : BitVec 64) (isCompressed : Bool) : BitVec 64 :=
  pc + if isCompressed then 2 else 4

variable (i : Input)

def jumpBase : BitVec 64 := if i.fuData.operator = .jalr then i.fuData.operandA else i.pc

/-- `target_address`; an indirect jump clears the lowest bit. -/
def targetAddress : BitVec 64 :=
  let target := jumpBase i + i.fuData.imm
  if i.fuData.operator = .jalr then target &&& ~~~1 else target

/-- `target_address[0]`. -/
def misaligned : Bool := (targetAddress i).getLsbD 0

/-- `branch_result_o`. -/
def branchResult : BitVec 64 := nextPc i.pc i.isCompressedInstr

/-- `resolved_branch_o.pc`: the prediction belongs to the word that the instruction ends in. -/
def resolvedPc : BitVec 64 :=
  if i.isCompressedInstr || !i.pc.getLsbD 1 then i.pc
  else (i.pc.extractLsb' 2 62 ++ 0#2) + 4

/-- A control transfer went elsewhere than the front end. -/
def wrong : Bool :=
  !misaligned i &&
    if i.branchPredict.valid then
      (i.branchPredict.predictTaken != i.branchCompRes) ||
        (i.branchPredict.predictTaken &&
          targetAddress i != i.branchPredict.predictAddress)
    -- without a prediction the front end went on behind the instruction
    else i.branchCompRes

/-- `resolved_branch_o`. -/
def resolvedBranch : Branchpredict :=
  if i.branchValid then
    { pc := resolvedPc i
      targetAddress := if i.branchCompRes then targetAddress i else branchResult i
      isMispredict := wrong i
      isTaken := i.branchCompRes
      valid := true }
  -- a prediction of a transfer on an instruction that is none
  else if i.fuValid && i.branchPredict.valid && i.branchPredict.predictTaken then
    { pc := resolvedPc i
      targetAddress := branchResult i
      isMispredict := true
      valid := true
      clear := true }
  else { pc := resolvedPc i }

/-- `resolve_branch_o`. -/
def resolveBranch : Bool :=
  i.branchValid || (i.fuValid && i.branchPredict.valid && i.branchPredict.predictTaken)

/-- `branch_exception_o`. -/
def branchException : Exception where
  cause := 0
  tval := i.pc
  valid := i.branchValid && misaligned i

/-- Where the front end went on behind the instruction. -/
def fetchedNext : BitVec 64 :=
  if i.branchPredict.valid && i.branchPredict.predictTaken then i.branchPredict.predictAddress
  else branchResult i

/-- Where it goes on when it has seen the report. -/
def continues : BitVec 64 :=
  if (resolvedBranch i).isMispredict then (resolvedBranch i).targetAddress else fetchedNext i

variable {i : Input}

/-- Whatever was predicted, a transfer goes on where it leads. -/
theorem continues_branch (branch : i.branchValid = true) (aligned : misaligned i = false) :
    continues i = if i.branchCompRes then targetAddress i else branchResult i := by
  rw [continues, resolvedBranch, if_pos branch]
  cases away : wrong i with
  | true => rfl
  | false =>
      rw [wrong, aligned, Bool.not_false, Bool.true_and] at away
      rw [if_neg Bool.false_ne_true, fetchedNext]
      cases valid : i.branchPredict.valid with
      | false =>
          rw [valid, if_neg Bool.false_ne_true] at away
          rw [away]
          rfl
      | true =>
          rw [valid, if_pos rfl, Bool.or_eq_false_iff, bne_eq_false_iff_eq] at away
          rw [← away.1]
          cases taken : i.branchPredict.predictTaken with
          | false => rfl
          | true =>
              have same := away.2
              rw [taken, Bool.true_and, bne_eq_false_iff_eq] at same
              exact same.symm

/-- A prediction on another instruction is undone. -/
theorem continues_other (branch : i.branchValid = false) (other : i.fuValid = true) :
    continues i = branchResult i := by
  rw [continues, resolvedBranch, branch, other, if_neg Bool.false_ne_true, Bool.true_and, fetchedNext]
  cases predicted : i.branchPredict.valid && i.branchPredict.predictTaken <;> simp

end Ariane.BranchUnit
