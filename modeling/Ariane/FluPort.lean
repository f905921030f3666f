import Ariane.ExStage
import Mathlib.Data.List.Forall2
import Mathlib.Data.List.Induction

set_option autoImplicit false

/- The port of fixed latency: never two units write back at once, and each instruction that starts
there writes back once, in order, with its own name and result. -/
namespace Ariane.ExStage

open Rtl (Machine)
open Rv64 (MulOp)
open Decoder (mulFuOp)
open Mult (Outstanding answerOf)

/-- The operation of the multiplier or divider that an operator names. -/
def mulOpOf : FuOp → Option MulOp
  | .mul => some .mul
  | .mulh => some .mulh
  | .mulhsu => some .mulhsu
  | .mulhu => some .mulhu
  | .mulw => some .mulw
  | .div => some .div
  | .divu => some .divu
  | .rem => some .rem
  | .remu => some .remu
  | .divw => some .divw
  | .divuw => some .divuw
  | .remw => some .remw
  | .remuw => some .remuw
  | _ => none

/-- The result that the instruction set prescribes for the instruction in the registers. -/
def prescribed (r : IssueReadOperands.State) : BitVec 64 :=
  if r.aluValid then (Alu.isaResult r.operator r.operandA r.operandB).getD 0
  else if r.branchValid then BranchUnit.nextPc r.pc r.isCompressed
  else if r.csrValid then r.operandA
  else ((mulOpOf r.operator).map (·.result r.operandA r.operandB)).getD 0

/-- An instruction of the ALU, the branch unit or the CSR buffer is in the registers. -/
def single (r : IssueReadOperands.State) : Bool := r.aluValid || r.branchValid || r.csrValid

/-- A signed division of minus one by one is in the registers. -/
def minusOneByOne (r : IssueReadOperands.State) : Bool :=
  !single r && (mulOpOf r.operator).any (Mult.minusOneByOne r.operandA r.operandB)

/-- The result that the units have for the instruction in the registers. -/
def expected (pkg : Pkg) (r : IssueReadOperands.State) : BitVec 64 :=
  if single r then prescribed r else (answerOf pkg (fuData r)).2

/-- The instruction in the registers, if it is one for the port. -/
def starting (r : IssueReadOperands.State) : List IssueReadOperands.State :=
  if single r || r.multValid then [r] else []

/-- The name and the result that the instruction writes back. -/
def answer (pkg : Pkg) (r : IssueReadOperands.State) : Nat × BitVec 64 := (r.transId, expected pkg r)

def executing (pkg : Pkg) (r : IssueReadOperands.State) : List (Nat × BitVec 64) :=
  (starting r).map (answer pkg)

/-- What is written back for an instruction: its own name, and the result that the instruction set
prescribes, unless minus one is divided by one. -/
structure Completes (r : IssueReadOperands.State) (w : Nat × BitVec 64) : Prop where
  transId : w.1 = r.transId
  result : w.2 = prescribed r ↔ minusOneByOne r = false

section Signals

variable (pkg : Pkg) (q : State) (i : Input)

/-- What is written back in a cycle. -/
def written : List (Nat × BitVec 64) :=
  if fluValid pkg q i then [(fluTransId pkg q i, fluResult pkg q i)] else []

/-- What starts at the end of a cycle. -/
def started : List IssueReadOperands.State := starting (next pkg q i).issue

/-- The sources of the port. -/
def sources : List Bool :=
  [q.issue.aluValid, q.issue.branchValid, q.issue.csrValid, q.mult.mul.multValid,
    Serdiv.outVld q.mult.div (Mult.divInput pkg q.mult (multInput q i))]

/-- The multiplier gets its own operations only, as the decoder provides. -/
def Decoded (_ : State) (i : Input) : Prop :=
  i.issue.issueInstr.ex.valid = false → i.issue.issueInstr.fu = .mult →
    ∃ op, i.issue.issueInstr.op = mulFuOp op

end Signals

/-- The instruction in the registers is for one unit; a busy divider and a product at the output keep
the others away. -/
structure Inv (pkg : Pkg) (q : State) (u : List (Nat × BitVec 64)) (c : Nat) : Prop where
  alu : q.issue.aluValid = true → q.issue.fu = .alu
  branch : q.issue.branchValid = true → q.issue.fu = .ctrlFlow
  csr : q.issue.csrValid = true → q.issue.fu = .csr
  mult : q.issue.multValid = true → q.issue.fu = .mult ∧ ∃ op, q.issue.operator = mulFuOp op
  unit : Outstanding pkg q.mult u c
  bound : c ≤ 65
  alone : u ≠ [] → q.issue.aluValid = false ∧ q.issue.branchValid = false ∧
    q.issue.csrValid = false
  idle : q.mult.div.state ≠ .idle → q.issue.multValid = false

section Issue

variable {pkg : Pkg} {q : State} {i : Input}

/-- What starts is acknowledged, and for one of the units. -/
theorem starts_fu {s : IssueReadOperands.Input} {r : IssueReadOperands.State} {fus : List Fu}
    (starts : IssueReadOperands.starts pkg s r fus = true) : s.issueInstr.fu ∈ fus := by
  simp only [IssueReadOperands.starts, Bool.and_eq_true, decide_eq_true_eq] at starts
  exact starts.1.2

theorem starts_ack {s : IssueReadOperands.Input} {r : IssueReadOperands.State} {fus : List Fu}
    (starts : IssueReadOperands.starts pkg s r fus = true) :
    s.issueInstr.ex.valid = false ∧ IssueReadOperands.issueAck pkg s r = true := by
  simp only [IssueReadOperands.starts, Bool.and_eq_true, Bool.not_eq_true'] at starts
  exact ⟨starts.1.1.1.1, starts.1.1.2⟩

/-- Behind an instruction of the multiplier only another one starts. -/
theorem starts_behind_mult {s : IssueReadOperands.Input} {r : IssueReadOperands.State} {fu : Fu}
    (behind : r.multValid = true) (other : fu ≠ .mult) :
    IssueReadOperands.starts pkg s r [fu] = false := by
  apply Bool.eq_false_iff.mpr
  intro starts
  have unit := List.mem_singleton.mp (starts_fu starts)
  have ack := (starts_ack starts).2
  rw [IssueReadOperands.issueAck, behind, unit, bne_iff_ne.mpr other, Bool.and_true, Bool.not_true,
    Bool.and_false] at ack
  exact Bool.noConfusion ack

theorem starts_ready {s : IssueReadOperands.Input} {r : IssueReadOperands.State} {fu : Fu}
    (port : fu = .alu ∨ fu = .ctrlFlow ∨ fu = .csr ∨ fu = .mult)
    (starts : IssueReadOperands.starts pkg s r [fu] = true) : s.fluReady = true := by
  have unit := List.mem_singleton.mp (starts_fu starts)
  obtain ⟨plain, ack⟩ := starts_ack starts
  cases ready : s.fluReady with
  | true => rfl
  | false =>
      have busy : IssueReadOperands.fuBusy s = true := by
        rcases port with rfl | rfl | rfl | rfl <;> simp [IssueReadOperands.fuBusy, unit, ready]
      have some : fu ≠ .none := by
        rcases port with rfl | rfl | rfl | rfl <;> decide
      have none : (s.issueInstr.fu == .none) = false := by
        rw [unit]
        exact beq_false_of_ne some
      simp [IssueReadOperands.issueAck, busy, plain, none] at ack

/-- The units are ready for what starts only if the divider stays idle. -/
theorem idle_of_starts {fu : Fu} (port : fu = .alu ∨ fu = .ctrlFlow ∨ fu = .csr ∨ fu = .mult)
    (starts : IssueReadOperands.starts pkg (issueInput pkg q i) q.issue [fu] = true) :
    (next pkg q i).mult.div.state = .idle := by
  have ready : fluReady pkg q i = true := starts_ready port starts
  rw [fluReady, Bool.and_eq_true] at ready
  have rdy : Serdiv.inRdy q.mult.div (Mult.divInput pkg q.mult (multInput q i)) = true := ready.2
  simp only [Serdiv.inRdy, Bool.and_eq_true, Bool.not_eq_true', beq_iff_eq] at rdy
  exact Serdiv.idle_next rdy.1.1 rdy.1.2

end Issue

section Step

variable {pkg : Pkg} {q : State} {i : Input} {u u' : List (Nat × BitVec 64)} {c c' : Nat}

/-- Each operation is one of the multiplier or one of the divider. -/
theorem operates_or_divides (op : MulOp) :
    Multiplier.operates (mulFuOp op) = true ∨ Mult.divides (mulFuOp op) = true := by
  cases op <;> decide

theorem multInput_operator (valid : q.issue.multValid = true) :
    (multInput q i).fuData = fuData q.issue := by
  rw [multInput, if_pos valid]

theorem multInput_offers (inv : Inv pkg q u c) : Mult.Offers q.mult (multInput q i) := by
  refine ⟨fun valid => ?_, inv.idle⟩
  obtain ⟨op, operator⟩ := (inv.mult valid).2
  have data : (multInput q i).fuData.operator = mulFuOp op := by
    rw [multInput_operator valid]
    exact operator
  rw [data]
  exact operates_or_divides op

/-- The registers and the units after a cycle, whatever is outstanding in the multiplier then. -/
theorem Inv.of_unit (decoded : Decoded q i) (unit : Outstanding pkg (next pkg q i).mult u' c')
    (bound : c' ≤ 65) : Inv pkg (next pkg q i) u' c' := by
  have member {fu : Fu} (starts : IssueReadOperands.starts pkg (issueInput pkg q i) q.issue [fu] = true) :
      i.issue.issueInstr.fu = fu := by
    have unit := starts_fu starts
    exact List.mem_singleton.mp unit
  -- a product at the output comes from an instruction behind which no other unit starts
  have blocked {fu : Fu} (port : fu = .alu ∨ fu = .ctrlFlow ∨ fu = .csr) (some : u' ≠ []) :
      IssueReadOperands.starts pkg (issueInput pkg q i) q.issue [fu] = false := by
    apply Bool.eq_false_iff.mpr
    intro starts
    have other : fu ≠ .mult := by rcases port with rfl | rfl | rfl <;> decide
    have ready := idle_of_starts (by tauto) starts
    cases unit with
    | none mul idle => exact some rfl
    | div mul divide word stage => exact stage.busy ready
    | mul mul idle =>
        have behind : q.issue.multValid = true := by
          have valid : Mult.mulValidOp (multInput q i) = true := by
            change (Mult.mulValidOp _ && _) = true at mul
            exact (Bool.and_eq_true _ _ ▸ mul).1
          simp only [Mult.mulValidOp, Bool.and_eq_true] at valid
          exact valid.1.2
        rw [starts_behind_mult behind other] at starts
        exact Bool.noConfusion starts
  have operation (starts : IssueReadOperands.starts pkg (issueInput pkg q i) q.issue [.mult] = true) :
      ∃ op, i.issue.issueInstr.op = mulFuOp op := decoded (starts_ack starts).1 (member starts)
  refine ⟨member, member, member, fun starts => ⟨member starts, operation starts⟩, unit, bound,
    fun some => ⟨blocked (.inl rfl) some, blocked (.inr (.inl rfl)) some,
      blocked (.inr (.inr rfl)) some⟩, fun busy => ?_⟩
  apply Bool.eq_false_iff.mpr
  intro starts
  exact busy (idle_of_starts (by tauto) starts)

theorem Inv.next_flush (decoded : Decoded q i) (flush : i.flush = true) :
    Inv pkg (next pkg q i) [] 0 :=
  .of_unit decoded (Mult.flushed flush) (Nat.zero_le _)

theorem answerOf_eq (law : pkg.Extends) {op : MulOp} {d : FuData}
    (operator : d.operator = mulFuOp op) :
    answerOf pkg d = (d.transId, Mult.unitResult op d.operandA d.operandB) := by
  rw [answerOf]
  cases divide : Mult.divides d.operator with
  | true => rw [if_pos rfl, Mult.shown_served law operator divide]
  | false =>
      have operates : Multiplier.operates d.operator = true := by
        rw [operator] at divide ⊢
        exact (operates_or_divides op).resolve_right (Bool.eq_false_iff.mp divide)
      rw [if_neg Bool.false_ne_true, Mult.multiplier_served law operator operates]

theorem mulOpOf_mulFuOp (op : MulOp) : mulOpOf (mulFuOp op) = some op := by
  cases op <;> rfl

/-- Without an instruction of another unit the multiplier's input is what executes. -/
theorem executing_mult (other : single q.issue = false) :
    executing pkg q.issue = Mult.taken pkg (multInput q i) := by
  have valid : (multInput q i).multValid = q.issue.multValid := rfl
  rw [executing, starting, Mult.taken, valid, other, Bool.false_or]
  cases mult : q.issue.multValid with
  | false => rfl
  | true =>
      have expects : expected pkg q.issue = (answerOf pkg (fuData q.issue)).2 := by
        rw [expected, other, if_neg Bool.false_ne_true]
      rw [if_pos rfl, if_pos rfl, multInput_operator mult, List.map_cons, answer, expects]
      rfl

theorem answer_completes (law : pkg.Extends) {r : IssueReadOperands.State}
    (starts : (single r || r.multValid) = true)
    (mult : r.multValid = true → ∃ op, r.operator = mulFuOp op) :
    Completes r (answer pkg r) := by
  refine ⟨rfl, ?_⟩
  cases other : single r with
  | true =>
      rw [answer, expected, minusOneByOne, other, if_pos rfl]
      exact ⟨fun _ => rfl, fun _ => rfl⟩
  | false =>
      rw [other, Bool.false_or] at starts
      obtain ⟨op, operator⟩ := mult starts
      have data : (fuData r).operator = mulFuOp op := operator
      have units := other
      simp only [single, Bool.or_eq_false_iff] at units
      have value : prescribed r = op.result r.operandA r.operandB := by
        rw [prescribed, units.1.1, units.1.2, units.2, operator, mulOpOf_mulFuOp]
        rfl
      have divides : minusOneByOne r = Mult.minusOneByOne r.operandA r.operandB op := by
        rw [minusOneByOne, other, operator, mulOpOf_mulFuOp]
        rfl
      rw [answer, expected, other, if_neg Bool.false_ne_true, answerOf_eq law data, value, divides]
      exact (Mult.unitResult_iff op _ _).trans (Bool.not_eq_true _ ▸ Iff.rfl)

theorem written_mult (other : single q.issue = false) :
    written pkg q i = Mult.given pkg q.mult (multInput q i) := by
  simp only [single, Bool.or_eq_false_iff] at other
  rw [written, Mult.given, fluValid, fluTransId, fluResult, other.1.1, other.1.2, other.2,
    Bool.false_or, Bool.false_or, Bool.false_or]
  cases valid : Mult.multValid pkg q.mult (multInput q i) <;> simp

/-- An instruction of another unit is alone at the port. -/
theorem Inv.single_alone (inv : Inv pkg q u c) (other : single q.issue = true) :
    u = [] ∧ q.issue.multValid = false := by
  constructor
  · cases u with
    | nil => rfl
    | cons a rest =>
        obtain ⟨alu, branch, csr⟩ := inv.alone (List.cons_ne_nil a rest)
        simp [single, alu, branch, csr] at other
  · cases mult : q.issue.multValid with
    | false => rfl
    | true =>
        have unit := (inv.mult mult).1
        simp only [single, Bool.or_eq_true] at other
        rcases other with (alu | branch) | csr
        · exact Fu.noConfusion (unit.symm.trans (inv.alu alu))
        · exact Fu.noConfusion (unit.symm.trans (inv.branch branch))
        · exact Fu.noConfusion (unit.symm.trans (inv.csr csr))

theorem written_single (inv : Inv pkg q u c) (other : single q.issue = true)
    (silent : Mult.multValid pkg q.mult (multInput q i) = false) :
    written pkg q i = executing pkg q.issue := by
  have valid : fluValid pkg q i = true := by
    rw [fluValid, silent, Bool.or_false]
    exact other
  have name : fluTransId pkg q i = q.issue.transId := by
    rw [fluTransId, silent]
    simp
  have result : fluResult pkg q i = expected pkg q.issue := by
    rw [fluResult, expected, other, if_pos rfl, prescribed, silent]
    cases alu : q.issue.aluValid with
    | true =>
        rw [if_pos rfl, if_pos rfl, aluData, alu, Bool.true_or, if_pos rfl, Alu.result_isa]
        rfl
    | false =>
        rw [if_neg Bool.false_ne_true, if_neg Bool.false_ne_true]
        cases branch : q.issue.branchValid with
        | true =>
            have csr : q.issue.csrValid = false := by
              apply Bool.eq_false_iff.mpr
              intro csr
              exact Fu.noConfusion ((inv.branch branch).symm.trans (inv.csr csr))
            rw [csr, if_neg Bool.false_ne_true, if_neg Bool.false_ne_true, if_pos rfl]
            rfl
        | false =>
            have csr : q.issue.csrValid = true := by simpa [single, alu, branch] using other
            rw [csr, if_pos rfl, if_pos rfl]
            rfl
  have executes : starting q.issue = [q.issue] := by
    rw [starting, other, Bool.true_or, if_pos rfl]
  rw [written, executing, executes, valid, name, result]
  rfl

/-- One cycle without a flush: what is written back comes first, and the rest stays. -/
theorem Inv.next_run (inv : Inv pkg q u c) (decoded : Decoded q i) (running : i.flush = false) :
    ∃ u' c', Inv pkg (next pkg q i) u' c' ∧ u ++ executing pkg q.issue = written pkg q i ++ u' ∧
      (q.issue.multValid = false → u' = [] ∨ c' + 1 = c) := by
  obtain ⟨u', c', unit, conserved, bound, nearer⟩ :=
    inv.unit.step inv.bound (multInput_offers (i := i) inv) running
  refine ⟨u', c', .of_unit decoded unit bound, ?_, nearer⟩
  cases other : single q.issue with
  | false => rw [executing_mult other, written_mult other, conserved]
  | true =>
      obtain ⟨empty, noMult⟩ := inv.single_alone other
      have nothing : Mult.taken pkg (multInput q i) = [] := by
        rw [Mult.taken, show (multInput q i).multValid = false from noMult,
          if_neg Bool.false_ne_true]
      rw [empty, nothing, List.append_nil] at conserved
      obtain ⟨silent, rest⟩ := List.append_eq_nil_iff.mp conserved.symm
      have quiet : Mult.multValid pkg q.mult (multInput q i) = false := by
        rw [Mult.given] at silent
        cases valid : Mult.multValid pkg q.mult (multInput q i) with
        | false => rfl
        | true =>
            rw [valid, if_pos rfl] at silent
            exact absurd silent (List.cons_ne_nil _ _)
      rw [empty, rest, written_single inv other quiet, List.append_nil, List.nil_append]

theorem Inv.exclusive (inv : Inv pkg q u c) : (sources pkg q i).count true ≤ 1 := by
  cases other : single q.issue with
  | true =>
      obtain ⟨empty, noMult⟩ := inv.single_alone other
      have unit := inv.unit
      rw [empty] at unit
      cases unit with
      | none mul idle =>
          rw [sources, mul, Mult.outVld_idle idle]
          -- the three units are told apart by the kind of the instruction in the registers
          cases alu : q.issue.aluValid with
          | false =>
              cases branch : q.issue.branchValid with
              | false => cases q.issue.csrValid <;> decide
              | true =>
                  cases csr : q.issue.csrValid with
                  | false => decide
                  | true => exact Fu.noConfusion ((inv.branch branch).symm.trans (inv.csr csr))
          | true =>
              cases branch : q.issue.branchValid with
              | true => exact Fu.noConfusion ((inv.alu alu).symm.trans (inv.branch branch))
              | false =>
                  cases csr : q.issue.csrValid with
                  | false => decide
                  | true => exact Fu.noConfusion ((inv.alu alu).symm.trans (inv.csr csr))
  | false =>
      simp only [single, Bool.or_eq_false_iff] at other
      rw [sources, other.1.1, other.1.2, other.2]
      cases inv.unit with
      | none mul idle | mul mul idle =>
          rw [mul, Mult.outVld_idle idle]
          decide
      | div mul divide word stage =>
          rw [mul]
          cases Serdiv.outVld q.mult.div (Mult.divInput pkg q.mult (multInput q i)) <;> decide

end Step

section Run

variable {pkg : Pkg} {q : State} {u : List (Nat × BitVec 64)} {c : Nat}

theorem reset_inv : Inv pkg {} [] 0 where
  alu valid := Bool.noConfusion valid
  branch valid := Bool.noConfusion valid
  csr valid := Bool.noConfusion valid
  mult valid := Bool.noConfusion valid
  unit := .none rfl rfl
  bound := Nat.zero_le _
  alone some := absurd rfl some
  idle busy := absurd rfl busy

theorem run_inv {inputs : List Input} (legal : (machine pkg).Legal Decoded (machine pkg).reset inputs) :
    ∃ u c, Inv pkg ((machine pkg).run inputs) u c := by
  apply @Machine.run_invariant _ _ (machine pkg) Decoded (fun s => ∃ u c, Inv pkg s u c) ⟨[], 0, reset_inv⟩
    ?_ inputs legal
  rintro s i ⟨u, c, inv⟩ decoded
  cases flush : i.flush with
  | true => exact ⟨[], 0, .next_flush decoded flush⟩
  | false =>
      obtain ⟨u', c', inv, -⟩ := inv.next_run decoded flush
      exact ⟨u', c', inv⟩

/-- A cycle without a flush of the units. -/
def Running (q : State) (i : Input) : Prop := Decoded q i ∧ i.flush = false

theorem Inv.run_conserves (inv : Inv pkg q u c) {inputs : List Input}
    (legal : (machine pkg).Legal Running q inputs) :
    ∃ u' c', Inv pkg ((machine pkg).runFrom q inputs) u' c' ∧
      u ++ executing pkg q.issue ++ ((machine pkg).collect (started pkg) q inputs).map (answer pkg) =
        (machine pkg).collect (written pkg) q inputs ++
          (u' ++ executing pkg ((machine pkg).runFrom q inputs).issue) := by
  induction inputs generalizing q u c with
  | nil => exact ⟨u, c, inv, List.append_nil _⟩
  | cons i inputs ih =>
      obtain ⟨u₁, c₁, inv₁, step, -⟩ := inv.next_run legal.1.1 legal.1.2
      obtain ⟨u', c', inv', rest⟩ := ih inv₁ legal.2
      refine ⟨u', c', inv', ?_⟩
      calc u ++ executing pkg q.issue ++
            ((machine pkg).collect (started pkg) q (i :: inputs)).map (answer pkg)
          = (u ++ executing pkg q.issue) ++ (executing pkg (next pkg q i).issue ++
              ((machine pkg).collect (started pkg) (next pkg q i) inputs).map (answer pkg)) := by
            rw [Machine.collect_cons, List.map_append]
            rfl
        _ = written pkg q i ++ (u₁ ++ executing pkg (next pkg q i).issue ++
              ((machine pkg).collect (started pkg) (next pkg q i) inputs).map (answer pkg)) := by
            rw [step]
            simp only [List.append_assoc]
        _ = (machine pkg).collect (written pkg) q (i :: inputs) ++
              (u' ++ executing pkg ((machine pkg).runFrom q (i :: inputs)).issue) := by
            rw [rest, Machine.collect_cons, List.append_assoc]
            rfl

/-- What starts is for one of the units, and for the multiplier one of its operations. -/
theorem Inv.started_named (inv : Inv pkg q u c) {inputs : List Input}
    (legal : (machine pkg).Legal Running q inputs) :
    ∀ r ∈ (machine pkg).collect (started pkg) q inputs, (single r || r.multValid) = true ∧
      (r.multValid = true → ∃ op, r.operator = mulFuOp op) := by
  induction inputs generalizing q u c with
  | nil =>
      intro r none
      cases none
  | cons i inputs ih =>
      obtain ⟨u₁, c₁, inv₁, -⟩ := inv.next_run legal.1.1 legal.1.2
      intro r member
      rw [Machine.collect_cons, List.mem_append, started, starting] at member
      rcases member with now | later
      · split at now
        · next starts =>
            rw [List.mem_singleton.mp now]
            exact ⟨starts, fun mult => (inv₁.mult mult).2⟩
        · cases now
      · exact ih inv₁ legal.2 r later

/-- Nothing is offered to the units. -/
def Quiet (i : Input) : Prop := i.issue.issueInstrValid = false

theorem executing_idle {i : Input}
    (idle : ∀ fus, IssueReadOperands.starts pkg (issueInput pkg q i) q.issue fus = false) :
    executing pkg (next pkg q i).issue = [] := by
  simp [executing, starting, single, next, IssueReadOperands.next, idle]

theorem executing_flush {i : Input} (flush : i.issue.flush = true) :
    executing pkg (next pkg q i).issue = [] := by
  apply executing_idle
  intro fus
  have off : (issueInput pkg q i).flush = true := flush
  rw [IssueReadOperands.starts, off, Bool.not_true, Bool.and_false]

theorem executing_quiet (pkg : Pkg) (q : State) {i : Input} (quiet : Quiet i) :
    executing pkg (next pkg q i).issue = [] ∧ (next pkg q i).issue.multValid = false := by
  have idle (fus : List Fu) : IssueReadOperands.starts pkg (issueInput pkg q i) q.issue fus = false := by
    have invalid : (issueInput pkg q i).issueInstrValid = false := quiet
    rw [IssueReadOperands.starts, invalid, Bool.and_false]
    rfl
  exact ⟨executing_idle idle, idle [.mult]⟩

theorem Inv.drains (inv : Inv pkg q u c) (idle : executing pkg q.issue = [])
    (silent : q.issue.multValid = false) {inputs : List Input}
    (legal : (machine pkg).Legal Running q inputs) (quiet : ∀ i ∈ inputs, Quiet i)
    (long : u = [] ∨ c < inputs.length) :
    ∃ c', Inv pkg ((machine pkg).runFrom q inputs) [] c' ∧
      executing pkg ((machine pkg).runFrom q inputs).issue = [] := by
  induction inputs generalizing q u c with
  | nil =>
      have empty : u = [] := long.resolve_right (Nat.not_lt_zero c)
      rw [empty] at inv
      exact ⟨c, inv, idle⟩
  | cons i inputs ih =>
      obtain ⟨u₁, c₁, inv₁, -, nearer⟩ := inv.next_run legal.1.1 legal.1.2
      obtain ⟨idle₁, silent₁⟩ := executing_quiet pkg q (quiet i List.mem_cons_self)
      refine ih inv₁ idle₁ silent₁ legal.2 (fun j member => quiet j (List.mem_cons_of_mem i member)) ?_
      rcases nearer silent with empty | count
      · exact .inl empty
      · rcases long with empty | long
        · have unit := inv.unit
          rw [empty] at unit
          cases unit
          exact absurd count (Nat.succ_ne_zero c₁)
        · rw [List.length_cons] at long
          exact .inr (by omega)

/-- Whatever is issued and flushed, in no cycle do two of the ALU, the branch unit, the CSR buffer, the
multiplier and the divider write back. -/
theorem port_exclusive (pkg : Pkg) (inputs : List Input)
    (legal : (machine pkg).Legal Decoded (machine pkg).reset inputs) (i : Input) :
    (sources pkg ((machine pkg).run inputs) i).count true ≤ 1 := by
  obtain ⟨u, c, inv⟩ := run_inv legal
  exact inv.exclusive

/-- Seven and two are written to `x5` and `x6`; then `x5` is divided by `x6`, and behind the division
a multiplication of the two is offered until the units take it. -/
def divThenMul : List Input :=
  [{ issue :=
      { port0 := { waddr := 5, wdata := 7, weGpr := true }
        port1 := { waddr := 6, wdata := 2, weGpr := true } } },
    { issue :=
      { issueInstrValid := true
        issueInstr := { fu := .mult, op := .div, rs1 := 5, rs2 := 6, transId := 3 } } }] ++
    List.replicate 5
      { issue :=
        { issueInstrValid := true
          issueInstr := { fu := .mult, op := .mul, rs1 := 5, rs2 := 6, transId := 4 } } } ++
    List.replicate 2 { issue := {} }

theorem divThenMul_decoded (q : State) : ∀ i ∈ divThenMul, Decoded q i ∧ i.flush = false := by
  intro i member
  simp only [divThenMul, List.mem_append, List.mem_cons, List.not_mem_nil, or_false,
    List.mem_replicate] at member
  rcases member with ((rfl | rfl) | ⟨-, rfl⟩) | ⟨-, rfl⟩
  · exact ⟨fun _ unit => Fu.noConfusion unit, rfl⟩
  · exact ⟨fun _ _ => ⟨.div, rfl⟩, rfl⟩
  · exact ⟨fun _ _ => ⟨.mul, rfl⟩, rfl⟩
  · exact ⟨fun _ unit => Fu.noConfusion unit, rfl⟩

theorem legal_of_forall {pre : State → Input → Prop} {pkg : Pkg} {q : State} {inputs : List Input}
    (every : ∀ q, ∀ i ∈ inputs, pre q i) : (machine pkg).Legal pre q inputs := by
  induction inputs generalizing q with
  | nil => trivial
  | cons i inputs ih =>
      exact ⟨every q i List.mem_cons_self, ih fun q j member => every q j (List.mem_cons_of_mem i member)⟩

/-- The product is at the output. -/
theorem port_exclusive_divThenMul :
    sources .rv64ima ((machine .rv64ima).run (divThenMul.take 8)) { issue := {} } =
        [false, false, false, true, false] ∧
      (sources .rv64ima ((machine .rv64ima).run (divThenMul.take 8)) { issue := {} }).count true ≤ 1 :=
  ⟨by decide, port_exclusive .rv64ima (divThenMul.take 8)
    (legal_of_forall fun q i member => (divThenMul_decoded q i (List.mem_of_mem_take member)).1)
    { issue := {} }⟩

/-- From reset or a flush of both stages on, the instructions that start at the port write back in
order, once, each with its own name and the result that the instruction set prescribes, unless it
divides minus one by one; at most two of them are under way, and none after 67 cycles without a new
one. -/
theorem port_in_order (pkg : Pkg) (law : pkg.Extends) (before after : List Input)
    (legal : (machine pkg).Legal Decoded (machine pkg).reset before)
    (cleared : ∀ last ∈ before.getLast?, last.flush = true ∧ last.issue.flush = true)
    (running : (machine pkg).Legal Running ((machine pkg).run before) after) :
    ∃ done rest, (machine pkg).collect (started pkg) ((machine pkg).run before) after = done ++ rest ∧
      List.Forall₂ Completes done
        ((machine pkg).collect (written pkg) ((machine pkg).run before) after) ∧
      rest.length ≤ 2 ∧
      ∀ early quiet, after = early ++ quiet → 67 ≤ quiet.length → (∀ i ∈ quiet, Quiet i) →
        rest = [] := by
  obtain ⟨u, c, inv⟩ := run_inv legal
  -- nothing is outstanding and nothing executes where the run starts
  have fresh : ∃ c, Inv pkg ((machine pkg).run before) [] c ∧
      executing pkg ((machine pkg).run before).issue = [] := by
    induction before using List.reverseRecOn with
    | nil => exact ⟨0, reset_inv, rfl⟩
    | append_singleton earlier last ih =>
        obtain ⟨flush, unissued⟩ := cleared last (by simp)
        have decoded := ((Machine.legal_append _ _ _ _ _).mp legal).2.1
        rw [Machine.run_append]
        exact ⟨0, .next_flush decoded flush, executing_flush unissued⟩
  obtain ⟨c, inv, idle⟩ := fresh
  obtain ⟨u', c', inv', conserved⟩ := inv.run_conserves running
  rw [idle, List.append_nil, List.nil_append] at conserved
  obtain ⟨done, rest, starts, writes, remains⟩ := List.map_eq_append_iff.mp conserved
  refine ⟨done, rest, starts, ?_, ?_, ?_⟩
  · rw [← writes, List.forall₂_map_right_iff, List.forall₂_same]
    intro r member
    obtain ⟨some, mult⟩ := inv.started_named running r (starts ▸ List.mem_append_left rest member)
    exact answer_completes law some mult
  · have one : u'.length ≤ 1 := by cases inv'.unit <;> simp
    have other :
        (executing pkg ((machine pkg).runFrom ((machine pkg).run before) after).issue).length ≤ 1 := by
      rw [executing, starting]
      split <;> simp
    rw [← List.length_map (f := answer pkg), remains, List.length_append]
    omega
  · intro early quiet split long silent
    rw [split] at running inv' remains
    have parts := (Machine.legal_append _ _ _ _ _).mp running
    obtain ⟨u₁, c₁, inv₁, -⟩ := inv.run_conserves parts.1
    -- the first quiet cycle empties the registers, the others the units
    cases quiet with
    | nil => exact absurd long (by decide)
    | cons first quiet =>
        obtain ⟨u₂, c₂, inv₂, -, -⟩ := inv₁.next_run parts.2.1.1 parts.2.1.2
        obtain ⟨idle₂, silent₂⟩ := executing_quiet pkg
          ((machine pkg).runFrom ((machine pkg).run before) early) (silent first List.mem_cons_self)
        have bound := inv₂.bound
        rw [List.length_cons] at long
        obtain ⟨c₃, inv₃, idle₃⟩ := inv₂.drains idle₂ silent₂ parts.2.2
          (fun i member => silent i (List.mem_cons_of_mem first member)) (.inr (by omega))
        have state : (machine pkg).runFrom ((machine pkg).run before) (early ++ first :: quiet) =
            (machine pkg).runFrom (next pkg ((machine pkg).runFrom ((machine pkg).run before) early) first)
              quiet := by
          rw [Machine.runFrom_append]
          rfl
        rw [← state] at inv₃ idle₃
        rw [inv₃.unit.at_rest inv'.unit, idle₃] at remains
        exact List.map_eq_nil_iff.mp remains

/-- The quotient and the product are written back. -/
theorem port_in_order_divThenMul :
    (machine .rv64ima).collect (written .rv64ima) {} divThenMul = [(3, 3), (4, 14)] ∧
      ∃ done rest, (machine .rv64ima).collect (started .rv64ima) {} divThenMul = done ++ rest ∧
        List.Forall₂ Completes done
          ((machine .rv64ima).collect (written .rv64ima) {} divThenMul) ∧ rest.length ≤ 2 := by
  refine ⟨by decide, ?_⟩
  obtain ⟨done, rest, starts, completes, few, -⟩ := port_in_order .rv64ima (fun _ => rfl) []
    divThenMul trivial (fun last member => Option.noConfusion rfl (heq_of_eq member))
    (legal_of_forall divThenMul_decoded)
  exact ⟨done, rest, starts, completes, few⟩

end Run

end Ariane.ExStage
