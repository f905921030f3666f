import Ariane.LsuBypass
import Mathlib.Data.List.Basic

set_option autoImplicit false

/- `lsu_bypass` over whole runs: a queue that loses nothing, although it is ready only while it is
empty and a request comes one cycle after it was. -/
namespace Ariane.LsuBypass

open Rtl (Queue Machine)
open Rtl.Queue (Represents)

/-- The block with its history since the last flush. -/
structure Bypass where
  queue : Queue LsuCtrl := emptyQueue
  /-- `ready_o` in the cycle before. -/
  wasReady : Bool := true
  arrived : List LsuCtrl := []
  popped : List LsuCtrl := []

/-- A unit takes the request. -/
def pops (i : Input) : Bool := i.popSt || i.popLd

namespace Bypass

variable (s : Bypass) (i : Input)

/-- The requests since the last flush, with that of this cycle. -/
def arrivals : List LsuCtrl := waiting s.arrived i

def next : Bypass where
  queue := LsuBypass.next s.queue i
  wasReady := ready s.queue
  arrived := if i.flush then [] else s.arrivals i
  popped := if i.flush then [] else s.popped ++ if pops i then [lsuCtrl s.queue i] else []

end Bypass

def bypass : Machine Bypass Input := ⟨{}, Bypass.next⟩

/-- A request comes one cycle after `ready_o`; one unit at most takes a request, and only one that
it sees. -/
structure Contract (s : Bypass) (i : Input) : Prop where
  arrives : i.lsuReq.valid = true → s.wasReady = true
  one : (i.popSt && i.popLd) = false
  sees : pops i = true → (lsuCtrl s.queue i).valid = true

instance decidableContract (s : Bypass) (i : Input) : Decidable (Contract s i) :=
  decidable_of_iff
    ((i.lsuReq.valid = true → s.wasReady = true) ∧ (i.popSt && i.popLd) = false ∧
      (pops i = true → (lsuCtrl s.queue i).valid = true))
    ⟨fun ⟨arrives, one, sees⟩ => ⟨arrives, one, sees⟩,
      fun contract => ⟨contract.arrives, contract.one, contract.sees⟩⟩

/-- A queue without loss. -/
structure Lossless (s : Bypass) (i : Input) : Prop where
  /-- The requests leave in the order of their arrival, each of them once. -/
  order : s.popped <+: s.arrived
  /-- At most two are held. -/
  held : s.arrived.length = s.popped.length + s.queue.count ∧ s.queue.count ≤ 2
  /-- The units see the first request that was not taken, as it came. -/
  shown : (s.arrivals i)[s.popped.length]? =
    if (lsuCtrl s.queue i).valid then some (lsuCtrl s.queue i) else none
  /-- It stays until it is taken. -/
  stays : (lsuCtrl s.queue i).valid = true → pops i = false → i.flush = false →
    ∀ later, lsuCtrl (s.next i).queue later = lsuCtrl s.queue i
  /-- After a flush only a new request is seen. -/
  flushed : i.flush = true → ∀ later, lsuCtrl (s.next i).queue later = later.lsuReq

/-- The queue holds what arrived and was not taken, and a cycle after `ready_o` it has room. -/
def Holds (s : Bypass) (held : List LsuCtrl) : Prop :=
  Represents 2 LsuCtrl.valid s.queue held ∧ s.arrived = s.popped ++ held ∧
    (s.wasReady = true → held.length ≤ 1)

section Run

variable {s : Bypass} {i : Input} {held : List LsuCtrl}

theorem Holds.arrivals (holds : Holds s held) : s.arrivals i = s.popped ++ waiting held i := by
  rw [Bypass.arrivals, waiting, waiting, holds.2.1, List.append_assoc]

/-- The registers after one cycle. -/
theorem Holds.represents (holds : Holds s held) (contract : Contract s i) :
    Represents 2 LsuCtrl.valid (LsuBypass.next s.queue i)
      (if i.flush then [] else if pops i then (waiting held i).tail else waiting held i) := by
  apply next_represents holds.1
  · intro arrives
    exact holds.2.2 (contract.arrives arrives)
  · exact contract.one
  · intro taken
    exact (lsuCtrl_valid holds.1).mp (contract.sees taken)

/-- The requests that are held after one cycle. -/
theorem Holds.next (holds : Holds s held) (contract : Contract s i) :
    Holds (s.next i)
      (if i.flush then [] else if pops i then (waiting held i).tail else waiting held i) := by
  refine ⟨holds.represents contract, ?_, ?_⟩
  · cases flush : i.flush with
    | true => simp only [Bypass.next, flush, if_true, List.append_nil]
    | false =>
        simp only [Bypass.next, flush, Bool.false_eq_true, if_false, holds.arrivals]
        cases taken : pops i with
        | false => simp only [Bool.false_eq_true, if_false, List.append_nil]
        | true =>
            have some := (lsuCtrl_valid holds.1).mp (contract.sees taken)
            obtain ⟨c, rest, oldest⟩ := List.exists_cons_of_ne_nil some
            rw [lsuCtrl_head holds.1 oldest, oldest]
            simp only [if_true, List.tail_cons, List.append_assoc, List.singleton_append]
  · intro before
    have empty : held = [] := holds.1.count_zero.mp (beq_iff_eq.mp before)
    have one : (waiting held i).length ≤ 1 := by
      rw [empty, waiting, List.nil_append]
      split
      · exact Nat.le_refl 1
      · exact Nat.zero_le 1
    split
    · exact Nat.zero_le 1
    · split
      · rw [List.length_tail]
        omega
      · exact one

theorem holds_run {inputs : List Input} (legal : bypass.Legal Contract bypass.reset inputs) :
    ∃ held, Holds (bypass.run inputs) held := by
  have start : ∃ held, Holds bypass.reset held :=
    ⟨[], emptyQueue_represents, rfl, fun _ => Nat.zero_le 1⟩
  have step : ∀ s i, (∃ held, Holds s held) → Contract s i → ∃ held, Holds (s.next i) held := by
    rintro s i ⟨held, holds⟩ contract
    exact ⟨_, holds.next contract⟩
  exact bypass.run_invariant start step legal

theorem Holds.shown (holds : Holds s held) :
    (s.arrivals i)[s.popped.length]? =
      if (lsuCtrl s.queue i).valid then some (lsuCtrl s.queue i) else none := by
  rw [holds.arrivals, List.getElem?_append_right (Nat.le_refl _), Nat.sub_self]
  cases oldest : waiting held i with
  | nil =>
      have unseen : ¬ (lsuCtrl s.queue i).valid = true :=
        fun valid => (lsuCtrl_valid holds.1).mp valid oldest
      rw [if_neg unseen]
      rfl
  | cons c rest =>
      have seen : (lsuCtrl s.queue i).valid = true := by
        rw [lsuCtrl_valid holds.1, oldest]
        exact List.cons_ne_nil _ _
      rw [if_pos seen, lsuCtrl_head holds.1 oldest]
      rfl

/-- A request that is not taken is the oldest one in the next cycle. -/
theorem Holds.stays (holds : Holds s held) (contract : Contract s i)
    (seen : (lsuCtrl s.queue i).valid = true) (kept : pops i = false) (open' : i.flush = false)
    (later : Input) : lsuCtrl (s.next i).queue later = lsuCtrl s.queue i := by
  obtain ⟨c, rest, oldest⟩ := List.exists_cons_of_ne_nil ((lsuCtrl_valid holds.1).mp seen)
  have after := holds.represents contract
  rw [open', kept, if_neg Bool.false_ne_true, if_neg Bool.false_ne_true, oldest] at after
  rw [lsuCtrl_head holds.1 oldest]
  exact lsuCtrl_head after (List.cons_append ..)

theorem Holds.lossless (holds : Holds s held) (contract : Contract s i) : Lossless s i := by
  constructor
  · exact ⟨held, holds.2.1.symm⟩
  · rw [holds.2.1, List.length_append, holds.1.length]
    exact ⟨rfl, holds.1.bounded⟩
  · exact holds.shown
  · exact fun seen kept open' later => holds.stays contract seen kept open' later
  · intro flush later
    have empty : (s.next i).queue = emptyQueue := by
      show LsuBypass.next s.queue i = _
      rw [LsuBypass.next, flush, if_pos rfl]
    rw [empty]
    rfl

end Run

/-- In every run in which requests come one cycle after `ready_o` and only what is seen is taken, the
block is a queue without loss. -/
theorem bypass_lossless (inputs : List Input) (i : Input)
    (legal : bypass.Legal Contract bypass.reset inputs) (contract : Contract (bypass.run inputs) i) :
    Lossless (bypass.run inputs) i := by
  obtain ⟨held, holds⟩ := holds_run legal
  exact holds.lossless contract

/-- Two requests in a row: the second one comes after `ready_o`, when the first one is stored. -/
def twoRequests : List Input :=
  [{ lsuReq := { valid := true, vaddr := 8 } }, { lsuReq := { valid := true, vaddr := 16 } }]

theorem bypass_lossless_two :
    (bypass.run twoRequests).queue.count = 2 ∧ Lossless (bypass.run twoRequests) { popLd := true } :=
  ⟨by decide, bypass_lossless twoRequests { popLd := true } (by decide) (by decide)⟩

end Ariane.LsuBypass
