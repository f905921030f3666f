import Ariane.MissBusStages
import Mathlib.Data.List.Induction

set_option autoImplicit false

/- The reservation of the miss handler, and the operations that it comes from. -/
namespace Ariane.MissBus

open AmoBuffer (AmoT)
open AxiAdapter (Memory byteOf wordOf)
open MissHandler (Geometry Address AmoReq noStore)

variable {g : Geometry}

section Bits

variable {a b : Address g}

theorem byteOf_bits : byteOf (bits a) = a.byte.toNat := by
  have low : (bits a).setWidth 3 = a.byte := by
    apply BitVec.eq_of_getLsbD_eq
    intro j small
    rw [BitVec.getLsbD_setWidth, bits, BitVec.getLsbD_setWidth, BitVec.getLsbD_append,
      BitVec.getLsbD_append, BitVec.getLsbD_append, if_pos (by omega), if_pos (by omega),
      if_pos small, decide_eq_true small, decide_eq_true (show j < 64 by omega)]
    rfl
  rw [← low, BitVec.toNat_setWidth]
  rfl

/-- The bits of the doubleword. -/
theorem wordOf_bits_getLsbD {j : Nat} (inside : j < 61) :
    (wordOf (bits a)).getLsbD j =
      if j < g.wordBits then a.word.getLsbD j
      else if j - g.wordBits < g.setBits then a.set.getLsbD (j - g.wordBits)
      else a.tag.getLsbD (j - g.wordBits - g.setBits) := by
  rw [wordOf, BitVec.getLsbD_extractLsb', decide_eq_true inside, Bool.true_and, bits,
    BitVec.getLsbD_setWidth, decide_eq_true (show 3 + j < 64 by omega), Bool.true_and,
    BitVec.getLsbD_append, BitVec.getLsbD_append, BitVec.getLsbD_append]
  by_cases word : j < g.wordBits
  · rw [if_pos word, if_pos (by omega), if_pos (by omega), if_neg (by omega),
      show 3 + j - 3 = j by omega]
  · rw [if_neg word]
    by_cases set : j - g.wordBits < g.setBits
    · rw [if_pos set, if_pos (by omega), if_neg (by omega),
        show 3 + j - (g.wordBits + 3) = j - g.wordBits by omega]
    · rw [if_neg set, if_neg (by omega),
        show 3 + j - (g.setBits + (g.wordBits + 3)) = j - g.wordBits - g.setBits by omega]

/-- Addresses of one doubleword differ in the byte only. -/
theorem wordOf_bits_iff (fits : Fits g) :
    wordOf (bits a) = wordOf (bits b) ↔ a.doubleword = b.doubleword := by
  have room := fits.address
  constructor
  · intro same
    have bit : ∀ j, j < 61 → _ = _ := fun j inside =>
      (@wordOf_bits_getLsbD _ a j inside).symm.trans
        ((congrArg (fun w => w.getLsbD j) same).trans (@wordOf_bits_getLsbD _ b j inside))
    have word : a.word = b.word := by
      apply BitVec.eq_of_getLsbD_eq
      intro j small
      have equal := bit j (by omega)
      rw [if_pos small, if_pos small] at equal
      exact equal
    have set : a.set = b.set := by
      apply BitVec.eq_of_getLsbD_eq
      intro j small
      have equal := bit (g.wordBits + j) (by omega)
      have beyond : ¬g.wordBits + j < g.wordBits := by omega
      rw [if_neg beyond, if_neg beyond, Nat.add_sub_cancel_left, if_pos small, if_pos small] at equal
      exact equal
    have tag : a.tag = b.tag := by
      apply BitVec.eq_of_getLsbD_eq
      intro j small
      have equal := bit (g.wordBits + (g.setBits + j)) (by omega)
      have beyond : ¬g.wordBits + (g.setBits + j) < g.wordBits := by omega
      have above : ¬g.setBits + j < g.setBits := by omega
      rw [if_neg beyond, if_neg beyond, Nat.add_sub_cancel_left, if_neg above, if_neg above,
        Nat.add_sub_cancel_left] at equal
      exact equal
    rw [Address.doubleword, Address.doubleword, word, set, tag]
  · intro same
    rw [Address.doubleword, Address.doubleword, Address.mk.injEq] at same
    apply BitVec.eq_of_getLsbD_eq
    intro j inside
    rw [wordOf_bits_getLsbD inside, wordOf_bits_getLsbD inside, same.1, same.2.1, same.2.2.1]

end Bits

/-- What the operations so far leave reserved. -/
def reserved (done : List (AmoReq g)) : Option (Address g) := done.foldl nextReservation none

theorem reserved_concat (done : List (AmoReq g)) (a : AmoReq g) :
    reserved (done ++ [a]) = nextReservation (reserved done) a := List.foldl_concat ..

/-- With one operation more, the last reservation is that operation or an older one. -/
theorem reserved_concat_iff {done : List (AmoReq g)} {x : AmoReq g} {a : Address g} :
    Reserved (done ++ [x]) a ↔
      (x.op = .lr ∧ wordOf (bits x.operandA) = wordOf (bits a)) ∨
        Reserved done a ∧ x.op ≠ .sc ∧ (x.op = .lr → wordOf (bits x.operandA) = wordOf (bits a)) := by
  constructor
  · rintro ⟨before, lr, after, split, op, same, since⟩
    rcases List.eq_nil_or_concat after with rfl | ⟨rest, last, rfl⟩
    · obtain ⟨-, rfl⟩ := List.append_inj' split rfl |>.imp id List.singleton_inj.mp
      exact .inl ⟨op, same⟩
    · rw [List.concat_eq_append] at split since
      rw [← List.cons_append, ← List.append_assoc] at split
      obtain ⟨rfl, one⟩ := List.append_inj' split rfl
      rw [List.cons.injEq] at one
      obtain ⟨rfl, -⟩ := one
      refine .inr ⟨⟨before, lr, rest, rfl, op, same, fun y member => since y ?_⟩, since x ?_⟩
      · exact List.mem_append_left _ member
      · exact List.mem_append_right _ (List.mem_singleton_self x)
  · rintro (⟨op, same⟩ | ⟨⟨before, lr, after, rfl, op, same, since⟩, other⟩)
    · refine ⟨done, x, [], rfl, op, same, fun y member => ?_⟩
      cases member
    · refine ⟨before, lr, after ++ [x], ?_, op, same, fun y member => ?_⟩
      · rw [List.append_assoc, List.cons_append]
      · rw [List.mem_append, List.mem_singleton] at member
        rcases member with member | rfl
        · exact since y member
        · exact other

/-- The register holds the doubleword of the last reservation that still counts. -/
theorem reserved_iff (fits : Fits g) (done : List (AmoReq g)) (a : Address g) :
    reserved done = some a.doubleword ↔ Reserved done a := by
  induction done using List.reverseRecOn with
  | nil =>
      constructor
      · intro none
        cases none
      · rintro ⟨before, lr, after, split, -⟩
        exact absurd split (List.append_ne_nil_of_right_ne_nil _ (List.cons_ne_nil _ _)).symm
  | append_singleton done x ih =>
      rw [reserved_concat, reserved_concat_iff, nextReservation, ← ih, wordOf_bits_iff fits]
      by_cases lr : x.op = .lr
      · rw [lr]
        simp
      · by_cases sc : x.op = .sc
        · rw [sc]
          simp
        · simp [lr, sc]

end Ariane.MissBus
