import Ariane.Pkg
import Ariane.Rtl.Machine
import Ariane.Rtl.Queue

set_option autoImplicit false

/- `lsu_bypass` of `load_store_unit.sv`: two slots for requests that the load unit or the store unit
does not take at once. -/
namespace Ariane

/-- `lsu_ctrl_t`. -/
structure LsuCtrl where
  valid : Bool := false
  vaddr : BitVec 64 := 0
  data : BitVec 64 := 0
  be : BitVec 8 := 0
  fu : Fu := .none
  operator : FuOp := .add
  transId : Nat := 0
  deriving DecidableEq, Inhabited

namespace LsuBypass

open Rtl (Queue)
open Rtl.Queue (Represents)

/-- The inputs of one cycle. The load/store unit drives `lus_req_valid_i` and the valid bit of
`lsu_req_i` with the same signal. -/
structure Input where
  flush : Bool := false
  lsuReq : LsuCtrl := {}
  popLd : Bool := false
  popSt : Bool := false

def emptyQueue : Queue LsuCtrl := ⟨fun _ => {}, 0, 0, 0⟩

section Block

variable (q : Queue LsuCtrl) (i : Input)

/-- `ready_o`. -/
def ready : Bool := q.count == 0

/-- `lsu_ctrl_o`. -/
def lsuCtrl : LsuCtrl := if q.count == 0 then i.lsuReq else q.mem q.readPointer

/-- Sample a request. -/
def sample (v : Queue LsuCtrl) : Queue LsuCtrl :=
  if i.lsuReq.valid then
    { v with
      mem := Function.update v.mem q.writePointer i.lsuReq
      writePointer := (v.writePointer + 1) % 2
      count := (v.count + 1) % 4 }
  else v

/-- The load unit or the store unit takes a request. -/
def take (pop : Bool) (v : Queue LsuCtrl) : Queue LsuCtrl :=
  if pop then
    { v with
      mem := Function.update v.mem q.readPointer { v.mem q.readPointer with valid := false }
      readPointer := (v.readPointer + 1) % 2
      count := (v.count + 3) % 4 }
  else v

/-- All registers after one cycle. -/
def next : Queue LsuCtrl :=
  let v := take q i.popSt (take q i.popLd (sample q i q))
  let v := if i.popSt && i.popLd then { v with mem := fun _ => {} } else v
  if i.flush then emptyQueue else v

end Block

section Contents

variable {q : Queue LsuCtrl} {i : Input} {held : List LsuCtrl}

/-- The requests at the units: those that were sampled, and the one that arrives. -/
def waiting (held : List LsuCtrl) (i : Input) : List LsuCtrl :=
  held ++ if i.lsuReq.valid then [i.lsuReq] else []

theorem emptyQueue_represents : Represents 2 LsuCtrl.valid emptyQueue [] :=
  Represents.of_invalid _ 0 Nat.two_pos fun _ => rfl

/-- The units see the oldest request. -/
theorem lsuCtrl_head (rep : Represents 2 LsuCtrl.valid q held) {c : LsuCtrl}
    {rest : List LsuCtrl} (oldest : waiting held i = c :: rest) : lsuCtrl q i = c := by
  rw [lsuCtrl]
  cases held with
  | nil =>
      have empty : q.count = 0 := rep.count_zero.mpr rfl
      rw [empty]
      cases valid : i.lsuReq.valid with
      | false =>
          rw [waiting, valid] at oldest
          cases oldest
      | true =>
          rw [waiting, valid] at oldest
          exact (List.cons.inj oldest).1
  | cons first held =>
      have some : ¬ q.count = 0 := fun empty => List.cons_ne_nil _ _ (rep.count_zero.mp empty)
      rw [beq_false_of_ne some, if_neg Bool.false_ne_true, rep.head]
      exact (List.cons.inj oldest).1

theorem lsuCtrl_valid (rep : Represents 2 LsuCtrl.valid q held) :
    (lsuCtrl q i).valid = true ↔ waiting held i ≠ [] := by
  cases held with
  | nil =>
      have empty : q.count = 0 := rep.count_zero.mpr rfl
      rw [lsuCtrl, empty, waiting]
      cases valid : i.lsuReq.valid with
      | false => exact ⟨fun set => absurd (valid.symm.trans set) Bool.false_ne_true,
          fun some => absurd rfl some⟩
      | true => exact ⟨fun _ => List.cons_ne_nil _ _, fun _ => valid⟩
  | cons first held =>
      have head := lsuCtrl_head (i := i) rep (List.cons_append ..)
      rw [head]
      exact ⟨fun _ => List.cons_ne_nil _ _, fun _ => rep.valid_of_mem List.mem_cons_self⟩

theorem sample_represents (rep : Represents 2 LsuCtrl.valid q held)
    (room : i.lsuReq.valid = true → held.length ≤ 1) :
    Represents 2 LsuCtrl.valid (sample q i q) (waiting held i) := by
  rw [sample, waiting]
  cases valid : i.lsuReq.valid with
  | false =>
      rw [if_neg Bool.false_ne_true, if_neg Bool.false_ne_true, List.append_nil]
      exact rep
  | true =>
      have small := room valid
      rw [rep.length] at small
      have count : (q.count + 1) % 4 = q.count + 1 := Nat.mod_eq_of_lt (by omega)
      rw [if_pos rfl, if_pos rfl, count]
      exact rep.push i.lsuReq valid (Nat.lt_succ_of_le small)

theorem take_represents {v : Queue LsuCtrl} {c : LsuCtrl} {rest : List LsuCtrl}
    (rep : Represents 2 LsuCtrl.valid v (c :: rest)) (same : v.readPointer = q.readPointer) :
    Represents 2 LsuCtrl.valid (take q true v) rest := by
  have length := rep.length
  have bounded := rep.bounded
  rw [List.length_cons] at length
  have count : (v.count + 3) % 4 = v.count - 1 := by omega
  rw [take, if_pos rfl, count, ← same]
  exact rep.pop _ rfl

theorem sample_readPointer : (sample q i q).readPointer = q.readPointer := by
  rw [sample]
  split <;> rfl

/-- One cycle in which at most one unit takes a request, and only a request that is there. -/
theorem next_represents (rep : Represents 2 LsuCtrl.valid q held)
    (room : i.lsuReq.valid = true → held.length ≤ 1)
    (one : (i.popSt && i.popLd) = false)
    (some : (i.popSt || i.popLd) = true → waiting held i ≠ []) :
    Represents 2 LsuCtrl.valid (next q i)
      (if i.flush then [] else
        if i.popSt || i.popLd then (waiting held i).tail else waiting held i) := by
  have sampled := sample_represents rep room
  rw [next, one, if_neg Bool.false_ne_true]
  cases i.flush with
  | true => exact emptyQueue_represents
  | false =>
      rw [if_neg Bool.false_ne_true, if_neg Bool.false_ne_true]
      cases popSt : i.popSt with
      | false =>
          cases popLd : i.popLd with
          | false => exact sampled
          | true =>
              rw [popLd, Bool.or_true] at some
              obtain ⟨c, rest, oldest⟩ := List.exists_cons_of_ne_nil (some rfl)
              rw [oldest] at sampled ⊢
              exact take_represents sampled sample_readPointer
      | true =>
          rw [popSt, Bool.true_and] at one
          rw [popSt, Bool.true_or] at some
          rw [one]
          obtain ⟨c, rest, oldest⟩ := List.exists_cons_of_ne_nil (some rfl)
          rw [oldest] at sampled ⊢
          exact take_represents sampled sample_readPointer

end Contents

end LsuBypass

end Ariane
