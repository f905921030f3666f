import Ariane.Pkg
import Mathlib.Logic.Function.Basic

set_option autoImplicit false

/- `re_name.sv`: one bit of name for each architectural register, so that two instructions in
flight may write the same register. -/
namespace Ariane.ReName

/-- The registers: `re_name_table_gpr_q` and `re_name_table_fpr_q`. -/
structure State where
  gpr : BitVec 5 → Bool := fun _ => false
  fpr : BitVec 5 → Bool := fun _ => false

def reset : State := {}

/-- The architectural register behind a name, `name[4:0]`. -/
def arch (r : BitVec 6) : BitVec 5 := r.setWidth 5

/-- `{bit, r[4:0]}`. -/
def named (bit : Bool) (r : BitVec 6) : BitVec 6 := BitVec.ofBool bit ++ arch r

/-- The bit that the table of the selected register file holds. -/
def nameBit (s : State) (fpr : Bool) (r : BitVec 6) : Bool :=
  if fpr then s.fpr (arch r) else s.gpr (arch r)

/-- `name_bit_rd`, the bit after this instruction has been renamed; `x0` keeps its name. -/
def nameBitRd (pkg : Pkg) (s : State) (e : ScoreboardEntry) : Bool :=
  if pkg.isRdFpr e.op then !s.fpr (arch e.rd) else s.gpr (arch e.rd) ^^ (e.rd != 0)

/-- `issue_instr_o`. -/
def issueInstr (pkg : Pkg) (s : State) (e : ScoreboardEntry) : ScoreboardEntry :=
  { e with
    rs1 := named (pkg.enableRename && nameBit s (pkg.isRs1Fpr e.op) e.rs1) e.rs1
    rs2 := named (pkg.enableRename && nameBit s (pkg.isRs2Fpr e.op) e.rs2) e.rs2
    rd := named (pkg.enableRename && nameBitRd pkg s e) e.rd
    result :=
      if pkg.isImmFpr e.op then
        (named (pkg.enableRename && nameBit s true (e.result.setWidth 6))
          (e.result.setWidth 6)).setWidth 64
      else e.result }

/-- The next tables: an acknowledged instruction turns the bit of its destination. -/
def next (pkg : Pkg) (s : State) (e : ScoreboardEntry) (ack flushUnissued flush : Bool) : State :=
  let ticked : State :=
    if ack && !flushUnissued then
      if pkg.isRdFpr e.op then
        { s with fpr := Function.update s.fpr (arch e.rd) (!s.fpr (arch e.rd)) }
      else { s with gpr := Function.update s.gpr (arch e.rd) (!s.gpr (arch e.rd)) }
    else s
  if flush then {} else { ticked with gpr := Function.update ticked.gpr 0 false }

theorem arch_named (bit : Bool) (r : BitVec 6) : arch (named bit r) = arch r := by
  unfold arch named
  rw [BitVec.setWidth_append]
  simp [arch]

/-- A name is determined by its bit and its register. -/
theorem named_inj (bit bit' : Bool) (r r' : BitVec 6) :
    named bit r = named bit' r' ↔ bit = bit' ∧ arch r = arch r' := by
  constructor
  · intro same
    have regs := congrArg arch same
    rw [arch_named, arch_named] at regs
    refine ⟨?_, regs⟩
    have top := congrArg (fun x : BitVec 6 => x.getLsbD 5) same
    simpa only [named, BitVec.getLsbD_append, Nat.lt_irrefl, ↓reduceIte, Nat.sub_self,
      BitVec.getLsbD_ofBool, decide_true, Bool.true_and] using top
  · intro both
    rw [both.1, named, named, both.2]

/-- A register together with its name bit. -/
theorem named_msb (r : BitVec 6) : named r.msb r = r := BitVec.cons_msb_setWidth r

/-- The new name of a register other than `x0` differs from the name in the table. -/
theorem nameBitRd_gpr (pkg : Pkg) (s : State) (e : ScoreboardEntry)
    (file : pkg.isRdFpr e.op = false) (register : arch e.rd ≠ 0) :
    nameBitRd pkg s e = !s.gpr (arch e.rd) := by
  have some : (e.rd != 0) = true := by
    rw [bne_iff_ne]
    intro zero
    rw [zero] at register
    exact register rfl
  rw [nameBitRd, file, if_neg (by decide), some, Bool.xor_true]

/-- Only the bit of the destination turns. -/
theorem next_gpr (pkg : Pkg) (s : State) (e : ScoreboardEntry) (ack flushUnissued : Bool)
    (r : BitVec 5) (register : r ≠ 0) :
    (next pkg s e ack flushUnissued false).gpr r =
      if (ack && !flushUnissued) = true ∧ pkg.isRdFpr e.op = false ∧ arch e.rd = r then !s.gpr r
      else s.gpr r := by
  simp only [next, Bool.false_eq_true, ↓reduceIte, Function.update_of_ne register]
  by_cases tick : (ack && !flushUnissued) = true
  · rw [if_pos tick]
    cases file : pkg.isRdFpr e.op with
    | true => simp
    | false =>
        rw [if_neg (by decide)]
        by_cases here : arch e.rd = r
        · rw [if_pos ⟨tick, rfl, here⟩, here]
          exact Function.update_self r (!s.gpr r) s.gpr
        · rw [if_neg fun all => here all.2.2]
          exact Function.update_of_ne (Ne.symm here) (!s.gpr (arch e.rd)) s.gpr
  · rw [if_neg tick, if_neg fun all => tick all.1]

theorem next_gpr_zero (pkg : Pkg) (s : State) (e : ScoreboardEntry)
    (ack flushUnissued flush : Bool) : (next pkg s e ack flushUnissued flush).gpr 0 = false := by
  cases flush with
  | true => rfl
  | false =>
      simp only [next, Bool.false_eq_true, ↓reduceIte, Function.update_self]

end Ariane.ReName
