import Ariane.Rv64
import Mathlib.Data.List.GetD

set_option autoImplicit false

/- The compressed instructions of RV64DC: the 32-bit instruction that a halfword stands for.
Nothing here depends on a particular design. -/
namespace Rvc

open Rtl (ofBits getLsbD_ofBits)
open Rv64

section Fields

variable (half : BitVec 16)

/-- A three-bit field names one of the registers from `x8` on. -/
def short (lo : Nat) : Reg := 8 + (half.extractLsb' lo 3).setWidth 5

def full (lo : Nat) : Reg := half.extractLsb' lo 5

/-- The positions that the bits of a field have in the immediate, from the highest bit down. -/
def places (high : Nat) : List Nat → List (Nat × Nat)
  | [] => []
  | p :: rest => (p, high) :: places (high - 1) rest

/-- Where bit `p` of the immediate stands that is scattered over `fields`: each of them is its
highest bit in the halfword and what its bits are in the immediate. -/
def source (fields : List (Nat × List Nat)) (p : Nat) : Option Nat :=
  (fields.flatMap fun f => places f.1 f.2).lookup p

def bit (fields : List (Nat × List Nat)) (p : Nat) : Bool := (source fields p).any half.getLsbD

def unsigned (fields : List (Nat × List Nat)) : BitVec 64 := ofBits 64 (bit half fields)

/-- A signed immediate repeats its bit `top`. -/
def signed (top : Nat) (fields : List (Nat × List Nat)) : BitVec 64 :=
  ofBits 64 fun p => bit half fields (min p top)

end Fields

/-- The immediate of an addition of `x2`. -/
example : signed 0b0111000101111101 9 [(12, [9]), (6, [4, 6, 8, 7, 5])] = -16 := by
  decide +kernel

section Expand

variable (half : BitVec 16)

def immediate : BitVec 64 := signed half 5 [(12, [5]), (6, [4, 3, 2, 1, 0])]

def shamt : BitVec 64 := unsigned half [(12, [5]), (6, [4, 3, 2, 1, 0])]

def wordOffset : BitVec 64 := unsigned half [(12, [5, 4, 3]), (6, [2, 6])]

def doubleOffset : BitVec 64 := unsigned half [(12, [5, 4, 3]), (6, [7, 6])]

def doubleStackLoad : BitVec 64 := unsigned half [(12, [5]), (6, [4, 3, 8, 7, 6])]

def doubleStackStore : BitVec 64 := unsigned half [(12, [5, 4, 3, 8, 7, 6])]

def jumpOffset : BitVec 64 := signed half 11 [(12, [11, 4, 9, 8, 10, 6, 7, 3, 2, 1, 5])]

def branchOffset : BitVec 64 := signed half 8 [(12, [8, 4, 3]), (6, [7, 6, 2, 1, 5])]

/-- The stack pointer. -/
def sp : Reg := 2

/-- Quadrant 0. -/
def expand0 : Option Instr :=
  match half.extractLsb' 13 3 with
  | 0b000 =>
      if half.extractLsb' 5 8 = 0 then none
      else
        some (.aluImm .add (short half 2) sp (unsigned half [(12, [5, 4, 9, 8, 7, 6, 2, 3])]))
  | 0b001 => some (.load .fld (short half 2) (short half 7) (doubleOffset half))
  | 0b010 => some (.load .lw (short half 2) (short half 7) (wordOffset half))
  | 0b011 => some (.load .ld (short half 2) (short half 7) (doubleOffset half))
  | 0b101 => some (.store .fsd (short half 7) (short half 2) (doubleOffset half))
  | 0b110 => some (.store .sw (short half 7) (short half 2) (wordOffset half))
  | 0b111 => some (.store .sd (short half 7) (short half 2) (doubleOffset half))
  | _ => none

/-- The operations on two of the eight registers. -/
def expandAlu : Option Instr :=
  let both op := some (.alu op (short half 7) (short half 7) (short half 2))
  match half.extractLsb' 12 1, half.extractLsb' 5 2 with
  | 0b0, 0b00 => both .sub
  | 0b0, 0b01 => both .xor
  | 0b0, 0b10 => both .or
  | 0b0, 0b11 => both .and
  | 0b1, 0b00 => both .subw
  | 0b1, 0b01 => both .addw
  | _, _ => none

/-- The operations on one of the eight registers and an immediate. -/
def expandMisc : Option Instr :=
  match half.extractLsb' 10 2 with
  | 0b00 => some (.aluImm .srl (short half 7) (short half 7) (shamt half))
  | 0b01 => some (.aluImm .sra (short half 7) (short half 7) (shamt half))
  | 0b10 => some (.aluImm .and (short half 7) (short half 7) (immediate half))
  | _ => expandAlu half

/-- A load of the upper bits; the one of `x2` adds to it instead. -/
def expandUpper : Option Instr :=
  if half.extractLsb' 12 1 = 0 ∧ half.extractLsb' 2 5 = 0 then none
  else if full half 7 = sp then
    some (.aluImm .add sp sp (signed half 9 [(12, [9]), (6, [4, 6, 8, 7, 5])]))
  else some (.lui (full half 7) (signed half 17 [(12, [17]), (6, [16, 15, 14, 13, 12])]))

/-- Quadrant 1. -/
def expand1 : Option Instr :=
  let rd := full half 7
  match half.extractLsb' 13 3 with
  | 0b000 => some (.aluImm .add rd rd (immediate half))
  | 0b001 => if rd = 0 then none else some (.aluImm .addw rd rd (immediate half))
  | 0b010 => some (.aluImm .add rd 0 (immediate half))
  | 0b011 => expandUpper half
  | 0b100 => expandMisc half
  | 0b101 => some (.jal 0 (jumpOffset half))
  | 0b110 => some (.branch .beq (short half 7) 0 (branchOffset half))
  | _ => some (.branch .bne (short half 7) 0 (branchOffset half))

/-- Jumps to a register, moves and additions. -/
def expandMove : Option Instr :=
  let rd := full half 7
  let rs2 := full half 2
  if half.extractLsb' 12 1 = 0 then
    if rs2 = 0 then if rd = 0 then none else some (.jalr 0 rd 0) else some (.alu .add rd 0 rs2)
  else if rs2 = 0 then if rd = 0 then some .ebreak else some (.jalr 1 rd 0)
  else some (.alu .add rd rd rs2)

/-- Quadrant 2. -/
def expand2 : Option Instr :=
  let rd := full half 7
  let rs2 := full half 2
  match half.extractLsb' 13 3 with
  | 0b000 => some (.aluImm .sll rd rd (shamt half))
  | 0b001 => some (.load .fld rd sp (doubleStackLoad half))
  | 0b010 =>
      if rd = 0 then none
      else some (.load .lw rd sp (unsigned half [(12, [5]), (6, [4, 3, 2, 7, 6])]))
  | 0b011 => if rd = 0 then none else some (.load .ld rd sp (doubleStackLoad half))
  | 0b100 => expandMove half
  | 0b101 => some (.store .fsd sp rs2 (doubleStackStore half))
  | 0b110 => some (.store .sw sp rs2 (unsigned half [(12, [5, 4, 3, 2, 7, 6])]))
  | _ => some (.store .sd sp rs2 (doubleStackStore half))

/-- The instruction that a halfword stands for; reserved and illegal ones stand for none. -/
def expand : Option Instr :=
  match half.extractLsb' 0 2 with
  | 0b00 => expand0 half
  | 0b01 => expand1 half
  | 0b10 => expand2 half
  | _ => none

end Expand

section Bits

variable {half : BitVec 16} {fields : List (Nat × List Nat)} {n p : Nat}

theorem mem_places {high : Nat} {positions : List Nat} {entry : Nat × Nat}
    (member : entry ∈ places high positions) : entry.1 ∈ positions := by
  induction positions generalizing high with
  | nil => exact absurd member List.not_mem_nil
  | cons first rest ih =>
      rcases List.mem_cons.mp member with rfl | later
      · exact List.mem_cons_self
      · exact List.mem_cons_of_mem _ (ih later)

/-- All bits of the immediate are below `n`. -/
def Below (fields : List (Nat × List Nat)) (n : Nat) : Prop := ∀ f ∈ fields, ∀ q ∈ f.2, q < n

instance : Decidable (Below fields n) :=
  inferInstanceAs (Decidable (∀ f ∈ fields, ∀ q ∈ f.2, q < n))

theorem source_beyond (below : Below fields n) (beyond : n ≤ p) : source fields p = none := by
  rw [source, List.lookup_eq_none_iff]
  intro entry member
  obtain ⟨f, inside, placed⟩ := List.mem_flatMap.mp member
  have less := below f inside entry.1 (mem_places placed)
  rw [bne_iff_ne]
  omega

/-- What the bits of `x` are in the halfword, from the lowest on; the others are zero. -/
structure Wired (half : BitVec 16) (layout : List (Option Nat)) (x : BitVec n) : Prop where
  length : layout.length = n
  get : ∀ p < n, x.getLsbD p = (layout.getD p none).any half.getLsbD

namespace Wired

variable {m k : Nat} {layout upper lower : List (Option Nat)} {x : BitVec n} {y : BitVec m}

theorem zeros : Wired half (List.replicate n none) 0#n where
  length := List.length_replicate
  get p small := by
    have none : (List.replicate n (none : Option Nat)).getD p none = none := by simp
    rw [none, BitVec.getLsbD_zero, Option.any_none]

/-- A bit of the low half of a word. -/
theorem getLsbD_half {i : BitVec 32} (inside : p < 16) :
    (i.setWidth 16).getLsbD p = i.getLsbD p := by
  rw [BitVec.getLsbD_setWidth, decide_eq_true inside, Bool.true_and]

theorem slice {i : BitVec 32} {hi lo : Nat} (inside : lo ≤ hi ∧ hi < 16) :
    Wired (i.setWidth 16) ((List.range' lo (hi - lo + 1)).map some) (i.extractLsb hi lo) where
  length := by rw [List.length_map, List.length_range']
  get p small := by
    have placed : ((List.range' lo (hi - lo + 1)).map some).getD p none = some (lo + p) := by
      rw [List.getD_eq_getElem?_getD, List.getElem?_map, List.getElem?_range' small]
      simp
    rw [placed, Option.any_some, getLsbD_half (by omega), BitVec.getLsbD_extractLsb,
      decide_eq_true (by omega), Bool.true_and]

theorem repeated {i : BitVec 32} {b count : Nat} (inside : b < 16) :
    Wired (i.setWidth 16) (List.replicate count (some b)) ((i.extractLsb b b).replicate count) where
  length := by rw [List.length_replicate, Nat.sub_self, Nat.zero_add, Nat.one_mul]
  get p small := by
    rw [Nat.sub_self, Nat.zero_add, Nat.one_mul] at small
    have placed : (List.replicate count (some b)).getD p none = some b := by simp [small]
    rw [placed, Option.any_some, getLsbD_half inside, BitVec.getLsbD_replicate,
      BitVec.getLsbD_extractLsb]
    simp [Nat.mod_one, small]

theorem append (left : Wired half upper x) (right : Wired half lower y) :
    Wired half (lower ++ upper) (x ++ y) where
  length := by rw [List.length_append, left.length, right.length, Nat.add_comm]
  get p small := by
    rw [BitVec.getLsbD_append]
    split
    · next low =>
        rw [right.get p low, List.getD_append _ _ _ _ (by rw [right.length]; exact low)]
    · next high =>
        rw [left.get _ (by omega), List.getD_append_right _ _ _ _ (by rw [right.length]; omega),
          right.length]

/-- A field of a word that is put together from wires. -/
theorem extract {start len : Nat} (wired : Wired half layout x) (inside : start + len ≤ n) :
    Wired half ((layout.drop start).take len) (x.extractLsb' start len) where
  length := by
    rw [List.length_take, List.length_drop, wired.length]
    omega
  get p small := by
    have placed : ((layout.drop start).take len).getD p none = layout.getD (start + p) none := by
      rw [List.getD_eq_getElem?_getD, List.getElem?_take_of_lt small, List.getElem?_drop,
        ← List.getD_eq_getElem?_getD]
    rw [placed, BitVec.getLsbD_extractLsb', decide_eq_true small, Bool.true_and,
      wired.get _ (by omega)]

end Wired

variable {layout : List (Option Nat)} {x : BitVec n}

/-- An immediate whose upper bits repeat the sign. -/
theorem signed_eq {top : Nat} (wired : Wired half layout x) (inside : top < n)
    (agree : ∀ p < n, layout.getD p none = source fields (min p top)) :
    x.signExtend 64 = signed half top fields := by
  apply BitVec.eq_of_getLsbD_eq
  intro p small
  rw [BitVec.getLsbD_signExtend, signed, getLsbD_ofBits, bit]
  split
  · next low => rw [wired.get p low, agree p low]
  · next high =>
      rw [BitVec.msb_eq_getLsbD_last, wired.get (n - 1) (by omega), agree (n - 1) (by omega),
        Nat.min_eq_right (by omega), Nat.min_eq_right (by omega)]

theorem unsigned_setWidth (wired : Wired half layout x) (below : Below fields n)
    (agree : ∀ p < n, layout.getD p none = source fields p) :
    x.setWidth 64 = unsigned half fields := by
  apply BitVec.eq_of_getLsbD_eq
  intro p small
  rw [BitVec.getLsbD_setWidth, unsigned, getLsbD_ofBits, bit]
  by_cases low : p < n
  · rw [wired.get p low, agree p low]
  · rw [source_beyond below (Nat.not_lt.mp low), BitVec.getLsbD_of_ge _ _ (Nat.not_lt.mp low),
      Option.any_none]

/-- The sign of an unsigned immediate has no bit of the halfword. -/
theorem unsigned_eq (wired : Wired half layout x) (positive : 0 < n)
    (below : Below fields (n - 1)) (agree : ∀ p < n, layout.getD p none = source fields p) :
    x.signExtend 64 = unsigned half fields := by
  have sign : x.msb = false := by
    rw [BitVec.msb_eq_getLsbD_last, wired.get (n - 1) (by omega), agree (n - 1) (by omega),
      source_beyond below (Nat.le_refl _), Option.any_none]
  rw [BitVec.signExtend_eq_setWidth_of_msb_false sign]
  refine unsigned_setWidth wired (fun f inside q member => ?_) agree
  exact Nat.lt_of_lt_of_le (below f inside q member) (Nat.sub_le n 1)

end Bits

end Rvc
