import Ariane.Rtl.Ring

set_option autoImplicit false

open Rtl.Ring

/- Circular queues whose entries carry a valid bit: a read pointer, a write pointer,
a status counter, and an abstract list of the entries held, oldest first. -/
namespace Rtl

/-- The registers of a circular queue. -/
structure Queue (α : Type) where
  mem : Nat → α
  readPointer : Nat
  writePointer : Nat
  count : Nat

namespace Queue

variable {α : Type}

/-- Queue `q` of `n` slots holds exactly `held`, oldest first; pointers, counter and
valid bits all agree with that list. -/
structure Represents (n : Nat) (valid : α → Bool) (q : Queue α) (held : List α) : Prop where
  inside : q.readPointer < n
  tail : q.writePointer = slot n q.readPointer q.count
  bounded : q.count ≤ n
  stored : contents n q.mem q.readPointer q.count = held
  marked : ∀ j < n, valid (q.mem j) = true ↔ InWindow n q.readPointer q.count j

/-- Store `x` behind the youngest entry. -/
def push (n : Nat) (q : Queue α) (x : α) : Queue α where
  mem := Function.update q.mem q.writePointer x
  readPointer := q.readPointer
  writePointer := (q.writePointer + 1) % n
  count := q.count + 1

/-- Replace the oldest entry by `x` and step over it. -/
def pop (n : Nat) (q : Queue α) (x : α) : Queue α where
  mem := Function.update q.mem q.readPointer x
  readPointer := (q.readPointer + 1) % n
  writePointer := q.writePointer
  count := q.count - 1

/-- Forget all entries; `mem` is what the slots hold afterwards. -/
def clear (q : Queue α) (mem : Nat → α) : Queue α where
  mem := mem
  readPointer := q.readPointer
  writePointer := q.readPointer
  count := 0

namespace Represents

variable {n : Nat} {valid : α → Bool} {q : Queue α} {held : List α}

theorem length (rep : Represents n valid q held) : held.length = q.count := by
  rw [← rep.stored, contents_length]

theorem positive (rep : Represents n valid q held) : 0 < n :=
  Nat.zero_lt_of_lt rep.inside

/-- The oldest entry is at the read pointer. -/
theorem head {x : α} {rest : List α} (rep : Represents n valid q (x :: rest)) :
    q.mem q.readPointer = x := by
  have length := rep.length
  obtain ⟨count, some⟩ : ∃ count, q.count = count + 1 := ⟨rest.length, length.symm⟩
  have stored := rep.stored
  rw [some, contents_pop n q.mem _ _ rep.inside] at stored
  exact (List.cons.inj stored).1

/-- The valid bit at the read pointer says whether the queue holds anything. -/
theorem head_valid (rep : Represents n valid q held) :
    valid (q.mem q.readPointer) = true ↔ held ≠ [] := by
  rw [rep.marked _ rep.inside]
  constructor
  · intro member empty
    have length := rep.length
    rw [empty, List.length_nil] at length
    rw [← length] at member
    exact inWindow_zero n _ _ member
  · intro some
    have length := rep.length
    have long := List.length_pos_iff.mpr some
    exact inWindow_base n _ _ rep.inside (by omega)

/-- Every entry that is held is marked valid. -/
theorem valid_of_mem {x : α} (rep : Represents n valid q held) (member : x ∈ held) :
    valid x = true := by
  rw [← rep.stored, mem_contents] at member
  obtain ⟨k, below, rfl⟩ := member
  exact (rep.marked _ (slot_lt n _ _ rep.positive)).mpr ⟨k, below, rfl⟩

/-- Looking through all slots for a valid entry looks through the entries held. -/
theorem found_iff (rep : Represents n valid q held) (p : α → Prop) :
    (∃ j < n, valid (q.mem j) = true ∧ p (q.mem j)) ↔ ∃ x ∈ held, p x := by
  constructor
  · intro hit
    obtain ⟨j, inside, set, here⟩ := hit
    obtain ⟨k, below, rfl⟩ := (rep.marked j inside).mp set
    refine ⟨_, ?_, here⟩
    rw [← rep.stored, mem_contents]
    exact ⟨k, below, rfl⟩
  · intro hit
    obtain ⟨x, member, here⟩ := hit
    rw [← rep.stored, mem_contents] at member
    obtain ⟨k, below, rfl⟩ := member
    have inside := slot_lt n q.readPointer k rep.positive
    exact ⟨_, inside, (rep.marked _ inside).mpr ⟨k, below, rfl⟩, here⟩

/-- The status counter is the number of valid entries. -/
theorem card (rep : Represents n valid q held) :
    ((Finset.range n).filter fun j => valid (q.mem j) = true).card = q.count :=
  card_window n q.readPointer q.count rep.bounded _ rep.marked

theorem count_zero (rep : Represents n valid q held) : q.count = 0 ↔ held = [] := by
  rw [← rep.length, List.length_eq_zero_iff]

/-- An empty queue whose slots are all invalid. -/
theorem of_invalid (mem : Nat → α) (base : Nat) (inside : base < n)
    (invalid : ∀ j, valid (mem j) = false) :
    Represents n valid ⟨mem, base, base, 0⟩ [] := by
  refine ⟨inside, (slot_zero n base inside).symm, Nat.zero_le _, rfl, ?_⟩
  intro j _
  simp only [invalid j, Bool.false_eq_true, false_iff]
  exact inWindow_zero n base j

theorem push (rep : Represents n valid q held) (x : α) (mark : valid x = true)
    (room : q.count < n) : Represents n valid (q.push n x) (held ++ [x]) := by
  refine ⟨rep.inside, ?_, room, ?_, ?_⟩
  · simp only [Queue.push, rep.tail, slot, Nat.mod_add_mod, Nat.add_assoc]
  · simp only [Queue.push, rep.tail, contents_push n q.mem _ _ x room, rep.stored]
  · intro j inside
    simp only [Queue.push, inWindow_push, Function.update_apply, rep.tail]
    by_cases here : j = slot n q.readPointer q.count
    · simp only [here, ↓reduceIte, mark, or_true]
    · simp only [here, ↓reduceIte, or_false]
      exact rep.marked j inside

theorem pop {x : α} {rest : List α} (rep : Represents n valid q (x :: rest)) (y : α)
    (mark : valid y = false) : Represents n valid (q.pop n y) rest := by
  have length := rep.length
  obtain ⟨count, some⟩ : ∃ count, q.count = count + 1 := ⟨rest.length, length.symm⟩
  have bounded : count + 1 ≤ n := some ▸ rep.bounded
  have stored := rep.stored
  rw [some, contents_pop n q.mem _ _ rep.inside] at stored
  refine ⟨Nat.mod_lt _ rep.positive, ?_, ?_, ?_, ?_⟩
  · simp only [Queue.pop, rep.tail, some, Nat.add_sub_cancel, slot_succ]
  · simp only [Queue.pop, some]
    omega
  · rw [← (List.cons.inj stored).2]
    simp only [Queue.pop, some, Nat.add_sub_cancel]
    -- the slot of the popped entry is no longer in the window
    apply contents_update_outside
    intro member
    exact ((inWindow_pop n _ count _ rep.inside bounded).mp member).2 rfl
  · intro j inside
    simp only [Queue.pop, some, Nat.add_sub_cancel,
      inWindow_pop n _ count j rep.inside bounded, Function.update_apply]
    by_cases here : j = q.readPointer
    · simp only [here, ↓reduceIte, mark, Bool.false_eq_true, ne_eq, not_true_eq_false,
        and_false]
    · simp only [here, ↓reduceIte, ne_eq, not_false_eq_true, and_true, ← some]
      exact rep.marked j inside

theorem clear (rep : Represents n valid q held) (mem : Nat → α)
    (invalid : ∀ j, valid (mem j) = false) : Represents n valid (q.clear mem) [] :=
  of_invalid mem q.readPointer rep.inside invalid

end Represents

end Queue

end Rtl
