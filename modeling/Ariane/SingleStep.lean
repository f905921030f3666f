import Ariane.CommitUnit

set_option autoImplicit false

/- Single step: where the debugger finds the program after one instruction. -/
namespace Ariane.CommitUnit

open Rtl (member assign)
open Riscv
open CommitStage
open CsrRegfile (mret sret dret eret epcO privLvlO trapToPrivLvl trapVectorBase takesTrap stepped)

section Step

variable (pkg : Pkg) (s : State) (i : Input)

/-- An instruction retires, with or without a trap, while `dcsr.step` is set outside debug mode. -/
structure Steps : Prop where
  step : member s.csr.dcsr Dcsr.step = 1#1
  outside : s.csr.debugMode = false
  ack0 : (commitOutput pkg s i).commitAck0 = true

/-- Outside debug mode the decoder marks `dret` as illegal. -/
def DretIllegal (i : Input) : Prop := i.instr0.op = .dret → i.instr0.ex.valid = true

/-- The address behind the instruction. -/
def consecutivePc (e : ScoreboardEntry) : BitVec 64 := e.pc + (if e.isCompressed then 2 else 4)

/-- The address of the next instruction in program order. The execute stage leaves the target of
a control transfer in the prediction, also when the branch is not taken. -/
def nextPc : BitVec 64 :=
  if (exCommit pkg s i).valid then trapVectorBase pkg s.csr (csrInput pkg s i)
  else if mret (csrInput pkg s i) then s.csr.mepc
  else if sret (csrInput pkg s i) then s.csr.sepc
  else if i.instr0.fu == .ctrlFlow then i.instr0.bp.predictAddress
  else consecutivePc i.instr0

/-- The privilege level at which the next instruction executes. -/
def nextPriv : PrivLvl :=
  if (exCommit pkg s i).valid then trapToPrivLvl s.csr (csrInput pkg s i)
  else if mret (csrInput pkg s i) then member s.csr.mstatus Status.mpp
  else if sret (csrInput pkg s i) then (member s.csr.mstatus Status.spp).setWidth 2
  else s.csr.privLvl

/-- The debugger is entered with the next instruction in `dpc` and its level in `dcsr.prv`. -/
structure StopsAtNext : Prop where
  debugMode : (next pkg s i).csr.debugMode = true
  dpc : (next pkg s i).csr.dpc = nextPc pkg s i
  prv : member (next pkg s i).csr.dcsr Dcsr.prv = nextPriv pkg s i

/-- The retired instruction is one of those for which the step is right: a trap stays at its
level and does not hit a control transfer to somewhere else, a return leads to the consecutive
address at the same level. -/
structure StepsRight : Prop where
  trap : (exCommit pkg s i).valid = true →
    trapToPrivLvl s.csr (csrInput pkg s i) = s.csr.privLvl ∧
      (i.instr0.fu = .ctrlFlow →
        i.instr0.bp.predictAddress = trapVectorBase pkg s.csr (csrInput pkg s i))
  mret : mret (csrInput pkg s i) = true →
    member s.csr.mstatus Status.mpp = s.csr.privLvl ∧ s.csr.mepc = consecutivePc i.instr0
  sret : sret (csrInput pkg s i) = true →
    (member s.csr.mstatus Status.spp).setWidth 2 = s.csr.privLvl ∧
      s.csr.sepc = consecutivePc i.instr0

end Step

/-- Only a CSR instruction returns. -/
theorem fu_of_csrOp {pkg : Pkg} {s : State} {i : Input} {op : FuOp}
    (presents : (csrInput pkg s i).csrOp = op) (some : op ≠ .add) : i.instr0.fu = .csr := by
  apply Classical.byContradiction
  intro other
  have idle : (csrInput pkg s i).csrOp = .add := csrOp_plain pkg s i other
  rw [idle] at presents
  exact some presents.symm

theorem mret_facts {pkg : Pkg} {s : State} {i : Input} (returns : mret (csrInput pkg s i) = true) :
    (exCommit pkg s i).valid = false ∧ sret (csrInput pkg s i) = false ∧ i.instr0.fu = .csr := by
  simp only [mret, Bool.and_eq_true, beq_iff_eq, Bool.not_eq_true'] at returns
  refine ⟨returns.2, ?_, fu_of_csrOp returns.1 (by decide)⟩
  rw [sret, returns.1]
  rfl

theorem sret_facts {pkg : Pkg} {s : State} {i : Input} (returns : sret (csrInput pkg s i) = true) :
    (exCommit pkg s i).valid = false ∧ mret (csrInput pkg s i) = false ∧ i.instr0.fu = .csr := by
  simp only [sret, Bool.and_eq_true, beq_iff_eq, Bool.not_eq_true'] at returns
  refine ⟨returns.2, ?_, fu_of_csrOp returns.1 (by decide)⟩
  rw [mret, returns.1]
  rfl

section Stop

variable {pkg : Pkg} {s : State} {i : Input} (steps : Steps pkg s i) (decoded : DretIllegal i)

include steps

theorem Steps.stepped : stepped s.csr (csrInput pkg s i) = true := by
  have acked : (csrInput pkg s i).commitAck0 = true := steps.ack0
  rw [CsrRegfile.stepped, steps.step, acked]
  rfl

/-- What the debug block leaves in the registers. -/
theorem Steps.registers :
    (next pkg s i).csr.dpc =
        (if i.instr0.fu == .ctrlFlow then i.instr0.bp.predictAddress
        else if (exCommit pkg s i).valid then trapVectorBase pkg s.csr (csrInput pkg s i)
        else consecutivePc i.instr0) ∧
      member (next pkg s i).csr.dcsr Dcsr.prv = s.csr.privLvl := by
  constructor
  · show (CsrRegfile.next pkg s.csr (csrInput pkg s i)).dpc = _
    rw [CsrRegfile.next_dpc_stepped _ _ _ steps.outside steps.stepped]
    rfl
  · show member (CsrRegfile.next pkg s.csr (csrInput pkg s i)).dcsr Dcsr.prv = _
    rw [CsrRegfile.next_dcsr_prv, steps.outside, if_neg (by decide), privLvlO, steps.outside,
      if_neg (by decide)]

include decoded

theorem Steps.debugMode : (next pkg s i).csr.debugMode = true := by
  have noDret : dret (csrInput pkg s i) = false := by
    rw [← Bool.not_eq_true]
    intro returns
    simp only [dret, Bool.and_eq_true, beq_iff_eq, Bool.not_eq_true'] at returns
    have unit := fu_of_csrOp returns.1 (by decide)
    have acked := steps.ack0
    rw [commitOutput, commit_commitAck0, Bool.and_eq_true] at acked
    have op : i.instr0.op = .dret := by
      have presented := returns.1
      have same : (csrInput pkg s i).csrOp =
          if live (commitInput pkg s i) && debugClear (commitInput pkg s i) &&
            i.instr0.fu == .csr then i.instr0.op else .add := commit_csrOp pkg (commitInput pkg s i)
      rw [same] at presented
      split at presented
      · exact presented
      · exact absurd presented (by decide)
    have raised : (exCommit pkg s i).valid = true := by
      have own : (commitInput pkg s i).instr0.ex.valid = true := decoded op
      rw [exCommit, exception_valid, acked.1, own]
      rfl
    have quiet : (exCommit pkg s i).valid = false := returns.2
    rw [raised] at quiet
    exact absurd quiet (by decide)
  show (CsrRegfile.next pkg s.csr (csrInput pkg s i)).debugMode = true
  rw [CsrRegfile.next_debugMode, noDret, CsrRegfile.setDebugPc, steps.outside, if_neg (by decide),
    steps.stepped, Bool.or_true]
  rfl

/-- A step stops at the next instruction exactly for the instructions named above. -/
theorem stops_iff : StopsAtNext pkg s i ↔ StepsRight pkg s i := by
  obtain ⟨dpc, prv⟩ := steps.registers
  have entered := steps.debugMode decoded
  constructor
  · intro stops
    have pc := dpc.symm.trans stops.dpc
    have level := prv.symm.trans stops.prv
    rw [nextPc] at pc
    rw [nextPriv] at level
    refine ⟨?_, ?_, ?_⟩
    · intro raised
      rw [if_pos raised] at level
      refine ⟨level.symm, ?_⟩
      intro unit
      rw [if_pos (beq_iff_eq.mpr unit), if_pos raised] at pc
      exact pc
    · intro returns
      obtain ⟨quiet, _, unit⟩ := mret_facts returns
      have other : ¬ (i.instr0.fu == .ctrlFlow) = true := by
        rw [unit]
        decide
      rw [quiet, if_neg (by decide), if_pos returns] at level
      rw [quiet, if_neg other, if_neg (by decide), if_neg (by decide), if_pos returns] at pc
      exact ⟨level.symm, pc.symm⟩
    · intro returns
      obtain ⟨quiet, noMret, unit⟩ := sret_facts returns
      have other : ¬ (i.instr0.fu == .ctrlFlow) = true := by
        rw [unit]
        decide
      rw [quiet, noMret, if_neg (by decide), if_neg (by decide), if_pos returns] at level
      rw [quiet, noMret, if_neg other, if_neg (by decide), if_neg (by decide), if_neg (by decide),
        if_pos returns] at pc
      exact ⟨level.symm, pc.symm⟩
  · intro right
    refine ⟨entered, ?_, ?_⟩
    · rw [dpc, nextPc]
      cases raised : (exCommit pkg s i).valid with
      | true =>
          rw [if_pos rfl, if_pos rfl]
          split
          · rename_i unit
            exact (right.trap raised).2 (beq_iff_eq.mp unit)
          · rfl
      | false =>
          rw [if_neg Bool.false_ne_true, if_neg Bool.false_ne_true]
          cases first : mret (csrInput pkg s i) with
          | true =>
              have other : ¬ (i.instr0.fu == .ctrlFlow) = true := by
                rw [(mret_facts first).2.2]
                decide
              rw [if_neg other, if_pos rfl]
              exact (right.mret first).2.symm
          | false =>
              cases second : sret (csrInput pkg s i) with
              | true =>
                  have other : ¬ (i.instr0.fu == .ctrlFlow) = true := by
                    rw [(sret_facts second).2.2]
                    decide
                  rw [if_neg other, if_neg Bool.false_ne_true, if_pos rfl]
                  exact (right.sret second).2.symm
              | false => rw [if_neg Bool.false_ne_true, if_neg Bool.false_ne_true]
    · rw [prv, nextPriv]
      split
      · rename_i raised
        exact (right.trap raised).1.symm
      · split
        · rename_i returns
          exact (right.mret returns).1.symm
        · split
          · rename_i returns
            exact (right.sret returns).1.symm
          · rfl

end Stop

/-- In every state, the debugger finds the next instruction after a step, unless the instruction
traps to another level, traps although it transfers control, or returns from a trap. -/
theorem single_step_stops (pkg : Pkg) (s : State) (i : Input) (steps : Steps pkg s i)
    (decoded : DretIllegal i) : StopsAtNext pkg s i ↔ StepsRight pkg s i :=
  stops_iff steps decoded

/-- A taken jump, and a return from a machine trap. -/
def jump : Input :=
  { instr0 := { fu := .ctrlFlow, pc := 0x80, bp := { predictAddress := 0x1000 }, valid := true } }

def machineReturn : Input := { instr0 := { fu := .csr, op := .mret, pc := 0x80, valid := true } }

theorem single_step_stops_jump :
    StopsAtNext .rv64ima ((machine .rv64ima).run enableStep) jump := by
  have steps : Steps .rv64ima ((machine .rv64ima).run enableStep) jump :=
    ⟨by decide, by decide +kernel, by decide +kernel⟩
  have decoded : DretIllegal jump := fun dret => absurd dret (by decide)
  apply (single_step_stops .rv64ima _ jump steps decoded).mpr
  refine ⟨?_, ?_, ?_⟩
  · intro raised
    exact absurd raised (by decide)
  · intro returns
    exact absurd returns (by decide)
  · intro returns
    exact absurd returns (by decide)

/-- After a step over `mret`, the debugger finds the address behind it at the machine level. -/
theorem stepped_return_misplaced :
    ¬ ∀ inputs i, Steps .rv64ima ((machine .rv64ima).run inputs) i → DretIllegal i →
      StopsAtNext .rv64ima ((machine .rv64ima).run inputs) i := by
  intro stops
  have right := stops enableStep machineReturn
    ⟨by decide, by decide +kernel, by decide +kernel⟩ (fun dret => absurd dret (by decide))
  exact absurd right.dpc (by decide)

end Ariane.CommitUnit
