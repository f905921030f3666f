import Ariane.AmoBuffer
import Mathlib.Algebra.Group.Nat.Defs

set_option autoImplicit false

/- `fifo_v3.sv` of any depth holds a list, oldest first. -/
namespace Ariane.FifoV3

open Rtl (Queue)
open Rtl.Ring (clog2 write slot contents)

variable {α : Type} {depth : Nat} {q : Queue α} {held : List α}

/-- The pointers and the counter agree with the list that is held. -/
structure Holds (depth : Nat) (q : Queue α) (held : List α) : Prop where
  inside : q.readPointer < depth
  tail : q.writePointer = slot depth q.readPointer q.count
  bounded : q.count ≤ depth
  stored : contents depth q.mem q.readPointer q.count = held

theorem le_addrDepth (depth : Nat) : depth ≤ 2 ^ addrDepth depth := by
  rw [addrDepth]
  split
  · next large =>
      rw [clog2, if_neg (by omega)]
      have log := Nat.lt_log2_self (n := depth - 1)
      omega
  · next small => omega

/-- A pointer wraps at the end of the array. -/
theorem advance_eq {p : Nat} (inside : p < depth) : advance depth p = (p + 1) % depth := by
  have large := le_addrDepth depth
  rw [advance]
  by_cases whole : depth = 2 ^ addrDepth depth
  · have zero : depth % 2 ^ addrDepth depth = 0 := by
      rw [← whole]
      exact Nat.mod_self depth
    rw [zero, if_neg (Nat.succ_ne_zero p), ← whole]
  · have less : depth < 2 ^ addrDepth depth := by omega
    rw [Nat.mod_eq_of_lt less]
    by_cases last : p + 1 = depth
    · rw [if_pos last, last, Nat.mod_self]
    · rw [if_neg last, Nat.mod_eq_of_lt (by omega), Nat.mod_eq_of_lt (by omega)]

theorem lt_counter (depth : Nat) : depth < 2 ^ (addrDepth depth + 1) := by
  have large := le_addrDepth depth
  have positive := Nat.two_pow_pos (addrDepth depth)
  rw [Nat.pow_succ]
  omega

namespace Holds

theorem length (holds : Holds depth q held) : held.length = q.count := by
  rw [← holds.stored, Rtl.Ring.contents_length]

theorem full_iff (holds : Holds depth q held) : full depth q = true ↔ held.length = depth := by
  rw [full, beq_iff_eq, Nat.mod_eq_of_lt (lt_counter depth), holds.length]

theorem empty_iff (holds : Holds depth q held) : empty q = true ↔ held = [] := by
  rw [empty, beq_iff_eq, ← holds.length, List.length_eq_zero_iff]

/-- `data_o` is the oldest element. -/
theorem front {x : α} {rest : List α} (holds : Holds depth q (x :: rest)) :
    FifoV3.front q = x := by
  have length := holds.length
  obtain ⟨count, some⟩ : ∃ count, q.count = count + 1 := ⟨rest.length, length.symm⟩
  have stored := holds.stored
  rw [some, Rtl.Ring.contents_pop depth q.mem _ _ holds.inside] at stored
  exact (List.cons.inj stored).1

/-- A push into a queue with room. -/
theorem push (holds : Holds depth q held) (x : α) (room : held.length < depth) :
    Holds depth
      { mem := write depth q.mem q.writePointer x
        readPointer := q.readPointer
        writePointer := advance depth q.writePointer
        count := q.count + 1 } (held ++ [x]) := by
  have positive : 0 < depth := Nat.zero_lt_of_lt room
  have inside : q.writePointer < depth := by
    rw [holds.tail]
    exact Rtl.Ring.slot_lt depth _ _ positive
  rw [holds.length] at room
  refine ⟨holds.inside, ?_, room, ?_⟩
  · show advance depth q.writePointer = slot depth q.readPointer (q.count + 1)
    rw [advance_eq inside, holds.tail, slot, slot, Nat.mod_add_mod, Nat.add_assoc]
  · show contents depth (write depth q.mem q.writePointer x) q.readPointer (q.count + 1) = _
    rw [Rtl.Ring.write_of_lt _ _ _ _ inside, holds.tail,
      Rtl.Ring.contents_push depth q.mem _ _ x room, holds.stored]

/-- The oldest element is taken. -/
theorem pop {x : α} {rest : List α} (holds : Holds depth q (x :: rest)) :
    Holds depth
      { mem := q.mem
        readPointer := advance depth q.readPointer
        writePointer := q.writePointer
        count := q.count - 1 } rest := by
  have length := holds.length
  obtain ⟨count, some⟩ : ∃ count, q.count = count + 1 := ⟨rest.length, length.symm⟩
  have stored := holds.stored
  have positive : 0 < depth := Nat.zero_lt_of_lt holds.inside
  rw [some, Rtl.Ring.contents_pop depth q.mem _ _ holds.inside] at stored
  refine ⟨?_, ?_, ?_, ?_⟩
  · show advance depth q.readPointer < depth
    rw [advance_eq holds.inside]
    exact Nat.mod_lt _ positive
  · show q.writePointer = slot depth (advance depth q.readPointer) (q.count - 1)
    rw [advance_eq holds.inside, Rtl.Ring.slot_succ, holds.tail, some, Nat.add_sub_cancel]
  · have bounded := holds.bounded
    show q.count - 1 ≤ depth
    omega
  · show contents depth q.mem (advance depth q.readPointer) (q.count - 1) = rest
    rw [advance_eq holds.inside, some, Nat.add_sub_cancel]
    exact (List.cons.inj stored).2

/-- One cycle: the oldest element leaves, the new one is queued behind the others. -/
theorem next (holds : Holds depth q held) (i : Input α) (running : i.flush = false)
    (room : i.push = true → held.length < depth) (some : i.pop = true → held ≠ []) :
    Holds depth (FifoV3.next depth q i)
      ((if i.pop then held.tail else held) ++ if i.push then [i.data] else []) := by
  have full (push : i.push = true) : FifoV3.full depth q = false := by
    have other : ¬ FifoV3.full depth q = true := by
      rw [holds.full_iff]
      exact Nat.ne_of_lt (room push)
    exact eq_false_of_ne_true other
  have empty (pop : i.pop = true) : FifoV3.empty q = false := by
    have other : ¬ FifoV3.empty q = true := by
      rw [holds.empty_iff]
      exact some pop
    exact eq_false_of_ne_true other
  have counter := lt_counter depth
  have inc (less : q.count < depth) : cntInc depth q.count = q.count + 1 := by
    rw [cntInc, Nat.mod_eq_of_lt (by omega)]
  have dec (positive : 0 < q.count) : cntDec depth q.count = q.count - 1 := by
    have bounded := holds.bounded
    have split : q.count + (2 ^ (addrDepth depth + 1) - 1) =
        q.count - 1 + 2 ^ (addrDepth depth + 1) := by omega
    rw [cntDec, split, Nat.add_mod_right, Nat.mod_eq_of_lt (by omega)]
  have length := holds.length
  rw [FifoV3.next, running, if_neg Bool.false_ne_true]
  cases push : i.push with
  | false =>
      cases pop : i.pop with
      | false =>
          simp only [Bool.false_and, Bool.false_eq_true, ↓reduceIte, List.append_nil]
          exact holds
      | true =>
          have positive : 0 < q.count := by
            rw [← length]
            exact List.length_pos_iff.mpr (some pop)
          simp only [Bool.false_and, Bool.true_and, empty pop, Bool.not_false,
            Bool.false_eq_true, ↓reduceIte, List.append_nil, dec positive]
          obtain ⟨x, rest, rfl⟩ := List.exists_cons_of_ne_nil (some pop)
          exact holds.pop
  | true =>
      have less := room push
      cases pop : i.pop with
      | false =>
          rw [length] at less
          simp only [Bool.false_and, Bool.true_and, full push, Bool.not_false, Bool.and_false,
            Bool.false_eq_true, ↓reduceIte, inc less]
          exact holds.push i.data (room push)
      | true =>
          simp only [Bool.true_and, full push, empty pop, Bool.not_false, ↓reduceIte]
          obtain ⟨x, rest, rfl⟩ := List.exists_cons_of_ne_nil (some pop)
          exact (holds.push i.data less).pop

end Holds

/-- After reset the queue is empty. -/
theorem holds_reset (positive : 0 < depth) (mem : Nat → α) : Holds depth ⟨mem, 0, 0, 0⟩ [] :=
  ⟨positive, (Rtl.Ring.slot_zero depth 0 positive).symm, Nat.zero_le _, rfl⟩

end Ariane.FifoV3
