import Ariane.MultResult

set_option autoImplicit false

/- The multiplier and the divider behind one output: what is outstanding from cycle to cycle. -/
namespace Ariane.Mult

open Serdiv (Dividing Answering)

variable {pkg : Pkg} {q : State} {i : Input}

section Divider

variable {w : Nat}

/-- A division that comes to its answer in `c` more cycles. -/
inductive DivStage (r : Serdiv.Input w) (s : Serdiv.State w) (c : Nat) : Prop
  | loop {k : Nat} (left : c = k + 1) (reaches : 0 ≤ Serdiv.divShift r) (dividing : Dividing r k s)
  | answer (left : c = 0) (waits : Serdiv.done s = true) (busy : s.state ≠ .idle) (id : s.id = r.id)
      (value : Serdiv.result s = served r)

theorem load_stage (positive : 0 < w) (r : Serdiv.Input w) :
    ∃ c ≤ w + 1, DivStage r (Serdiv.load r) c := by
  by_cases below : Serdiv.divShift r < 0
  · refine ⟨0, Nat.zero_le _, .answer rfl (Serdiv.load_result r below).1
      (fun idle => Serdiv.Fsm.noConfusion idle) rfl ?_⟩
    rw [served, if_pos below]
  · have reaches : 0 ≤ Serdiv.divShift r := Int.not_lt.mp below
    have bound := Serdiv.divShift_le r
    exact ⟨(Serdiv.divShift r).toNat + 1, by omega,
      .loop rfl reaches (Serdiv.load_dividing r positive reaches)⟩

theorem DivStage.busy {r : Serdiv.Input w} {s : Serdiv.State w} {c : Nat} (stage : DivStage r s c) :
    s.state ≠ .idle := by
  cases stage with
  | loop left reaches dividing =>
      rw [dividing.state]
      decide
  | answer left waits busy id value => exact busy

/-- The loop goes on without a flush. -/
theorem DivStage.next {r x : Serdiv.Input w} {s : Serdiv.State w} {c : Nat}
    (stage : DivStage r s (c + 1)) (running : x.flush = false) :
    Serdiv.done s = false ∧ DivStage r (Serdiv.next s x) c := by
  cases stage with
  | answer left waits busy id value => exact absurd left (Nat.succ_ne_zero c)
  | loop left reaches dividing =>
      rename_i k
      have silent : Serdiv.done s = false := by
        rw [Serdiv.done, dividing.state]
        exact dividing.divResZero
      refine ⟨silent, ?_⟩
      have same : c = k := Nat.succ.inj left
      rw [same]
      cases k with
      | zero =>
          have last := Serdiv.dividing_last dividing running
          refine .answer rfl last.waits ?_ last.id ?_
          · intro idle
            have waits := last.waits
            rw [Serdiv.done, idle] at waits
            exact Bool.noConfusion waits
          · rw [last.value, served, if_neg (Int.not_lt.mpr reaches)]
      | succ k => exact .loop rfl reaches (Serdiv.dividing_next dividing running)

end Divider

/-- What an instruction is answered with. -/
def answerOf (pkg : Pkg) (d : FuData) : Nat × BitVec 64 :=
  (d.transId, if divides d.operator then shown pkg d.operator (served (request pkg d))
    else (Multiplier.next d true).result pkg)

/-- The answers that are outstanding in the unit, and the cycles until the last one is at the
output. -/
inductive Outstanding (pkg : Pkg) (q : State) : List (Nat × BitVec 64) → Nat → Prop
  | none (mul : q.mul.multValid = false) (div : q.div.state = .idle) : Outstanding pkg q [] 0
  | mul (mul : q.mul.multValid = true) (div : q.div.state = .idle) :
      Outstanding pkg q [(q.mul.transId, q.mul.result pkg)] 0
  | div {d : FuData} {c : Nat} (mul : q.mul.multValid = false) (divide : divides d.operator = true)
      (word : q.wordOp = wordOp d.operator) (stage : DivStage (request pkg d) q.div c) :
      Outstanding pkg q [answerOf pkg d] c

/-- The answer at the output. -/
def given (pkg : Pkg) (q : State) (i : Input) : List (Nat × BitVec 64) :=
  if multValid pkg q i then [(multTransId q, result pkg q)] else []

/-- The answer of the instruction at the input. -/
def taken (pkg : Pkg) (i : Input) : List (Nat × BitVec 64) :=
  if i.multValid then [answerOf pkg i.fuData] else []

/-- What the issue stage offers: an instruction of the unit, and none while a division is busy. -/
structure Offers (q : State) (i : Input) : Prop where
  known : i.multValid = true →
    Multiplier.operates i.fuData.operator = true ∨ divides i.fuData.operator = true
  idle : q.div.state ≠ .idle → i.multValid = false

section Step

theorem divides_of_operates {op : FuOp} (operates : Multiplier.operates op = true) :
    divides op = false := by
  cases op <;> first | rfl | exact absurd operates (by decide)

theorem operates_of_divides {op : FuOp} (divide : divides op = true) :
    Multiplier.operates op = false := by
  cases op <;> first | rfl | exact absurd divide (by decide)

theorem divInput_silent (silent : divValidOp i = false) (idle : q.div.state = .idle) :
    (next pkg q i).div.state = .idle := Serdiv.idle_next idle silent

/-- An idle unit takes the instruction at its input. -/
theorem next_idle (offers : Offers q i) (running : i.flush = false) (idle : q.div.state = .idle) :
    ∃ c ≤ 65, Outstanding pkg (next pkg q i) (taken pkg i) c := by
  cases valid : i.multValid with
  | false =>
      have nothing : taken pkg i = [] := by rw [taken, valid, if_neg Bool.false_ne_true]
      have noMul : (next pkg q i).mul.multValid = false := by
        simp [next, Multiplier.next, mulValidOp, valid]
      have noDiv : divValidOp i = false := by simp [divValidOp, valid]
      rw [nothing]
      exact ⟨0, Nat.zero_le _, .none noMul (divInput_silent noDiv idle)⟩
  | true =>
      have some : taken pkg i = [answerOf pkg i.fuData] := by rw [taken, valid, if_pos rfl]
      rw [some]
      rcases offers.known valid with operates | divide
      · have noDiv : divValidOp i = false := by
          simp [divValidOp, divides_of_operates operates]
        have go : mulValidOp i = true := by simp [mulValidOp, running, valid, operates]
        have isMul : (next pkg q i).mul.multValid = true := by
          simp [next, Multiplier.next, go, operates]
        have shape : answerOf pkg i.fuData = ((next pkg q i).mul.transId, (next pkg q i).mul.result pkg) := by
          rw [answerOf, divides_of_operates operates, if_neg Bool.false_ne_true]
          rfl
        rw [shape]
        exact ⟨0, Nat.zero_le _, .mul isMul (divInput_silent noDiv idle)⟩
      · have offered : offered i = true := by simp [offered, valid, divide]
        have accepted : Serdiv.loadEn q.div (divInput pkg q i) = true := by
          simp [Serdiv.loadEn, idle, divInput, divValidOp, running, valid, divide]
        have loads : (next pkg q i).div = Serdiv.load (request pkg i.fuData) := by
          change Serdiv.next q.div (divInput pkg q i) = _
          rw [Serdiv.next_load accepted, divInput, if_pos offered, if_pos offered]
          rfl
        have noMul : (next pkg q i).mul.multValid = false := by
          simp [next, Multiplier.next, operates_of_divides divide]
        have word : (next pkg q i).wordOp = wordOp i.fuData.operator := by
          simp [next, offered]
        obtain ⟨c, bound, stage⟩ := load_stage (show 0 < 64 by omega) (request pkg i.fuData)
        rw [← loads] at stage
        exact ⟨c, bound, .div noMul divide word stage⟩

theorem outVld_idle (idle : q.div.state = .idle) :
    Serdiv.outVld q.div (divInput pkg q i) = false := by
  rw [Serdiv.outVld, Serdiv.done, idle, Bool.false_and]

/-- One cycle: what is at the output is given, and the rest comes nearer. -/
theorem Outstanding.step {p : List (Nat × BitVec 64)} {c : Nat} (outstanding : Outstanding pkg q p c)
    (bound : c ≤ 65) (offers : Offers q i) (running : i.flush = false) :
    ∃ p' c', Outstanding pkg (next pkg q i) p' c' ∧ p ++ taken pkg i = given pkg q i ++ p' ∧ c' ≤ 65 ∧
      (i.multValid = false → p' = [] ∨ c' + 1 = c) := by
  have quiet (silent : i.multValid = false) : taken pkg i = [] := by
    rw [taken, silent, if_neg Bool.false_ne_true]
  cases outstanding with
  | none mul idle =>
      obtain ⟨c', small, outstanding⟩ := next_idle offers running idle
      have nothing : given pkg q i = [] := by
        rw [given, multValid, outVld_idle idle, mul, Bool.or_false, if_neg Bool.false_ne_true]
      rw [nothing]
      exact ⟨taken pkg i, c', outstanding, rfl, small, fun silent => .inl (quiet silent)⟩
  | mul mul idle =>
      obtain ⟨c', small, outstanding⟩ := next_idle offers running idle
      have output : given pkg q i = [(q.mul.transId, q.mul.result pkg)] := by
        rw [given, multValid, mul, Bool.or_true, if_pos rfl, multTransId, result, if_pos mul,
          if_pos mul]
      rw [output]
      exact ⟨taken pkg i, c', outstanding, rfl, small, fun silent => .inl (quiet silent)⟩
  | div mul divide word stage =>
      rename_i d
      have silent := offers.idle stage.busy
      have flow : (divInput pkg q i).flush = false := running
      have noMul : (next pkg q i).mul.multValid = false := by
        simp [next, Multiplier.next, mulValidOp, silent]
      have keeps : (next pkg q i).wordOp = q.wordOp := by simp [next, offered, silent]
      rw [quiet silent, List.append_nil]
      cases c with
      | zero =>
          cases stage with
          | loop left reaches dividing => exact absurd left (Nat.succ_ne_zero _).symm
          | answer left waits busy id value =>
              have output : given pkg q i = [answerOf pkg d] := by
                rw [given, multValid, Serdiv.outVld, waits, flow, if_pos (by rfl), multTransId,
                  result, mul, if_neg Bool.false_ne_true, if_neg Bool.false_ne_true, id, divResult,
                  value, word, answerOf, if_pos divide]
                rfl
              have leaves : (next pkg q i).div.state = .idle := by
                have ready : (divInput pkg q i).outRdy = true := by
                  change (!q.mul.multValid) = true
                  rw [mul]
                  rfl
                change (Serdiv.next q.div (divInput pkg q i)).state = .idle
                rw [Serdiv.next_done waits flow, ready]
                rfl
              rw [output]
              exact ⟨[], 0, .none noMul leaves, rfl, Nat.zero_le _, fun _ => .inl rfl⟩
      | succ c =>
          obtain ⟨waits, stage⟩ := stage.next flow
          have nothing : given pkg q i = [] := by
            rw [given, multValid, Serdiv.outVld, waits, Bool.false_and, mul, Bool.or_false,
              if_neg Bool.false_ne_true]
          rw [nothing]
          exact ⟨[answerOf pkg d], c, .div noMul divide (keeps.trans word) stage, rfl, by omega,
            fun _ => .inr rfl⟩

/-- A unit at rest has nothing outstanding. -/
theorem Outstanding.at_rest {u : List (Nat × BitVec 64)} {c c' : Nat}
    (rest : Outstanding pkg q [] c) (other : Outstanding pkg q u c') : u = [] := by
  cases rest with
  | none mul idle =>
      cases other with
      | none => rfl
      | mul valid => exact Bool.noConfusion (mul.symm.trans valid)
      | div _ _ _ stage => exact absurd idle stage.busy

/-- A flush leaves nothing. -/
theorem flushed (flush : i.flush = true) : Outstanding pkg (next pkg q i) [] 0 := by
  refine .none ?_ (Serdiv.flush_idle flush)
  simp [next, Multiplier.next, mulValidOp, flush]

end Step

end Ariane.Mult
