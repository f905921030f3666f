import Mathlib.Logic.Basic

set_option autoImplicit false

/- Streams of halfwords that hold 16-bit and 32-bit instructions. Nothing here depends on a
particular design. -/
namespace Rvc

/-- The low bits of a 32-bit instruction are both set. -/
def compressed (half : BitVec 16) : Bool := half.extractLsb' 0 2 != 3

section Stream

variable (half : Nat → BitVec 16)

/-- The number of halfwords of the instruction at `p`. -/
def size (p : Nat) : Nat := if compressed (half p) then 1 else 2

/-- The instruction at `p`. -/
def instruction (p : Nat) : BitVec 32 :=
  if compressed (half p) then (half p).setWidth 32 else half (p + 1) ++ half p

/-- The first `n` instructions from `p` on, each with the address of its first halfword. -/
def parse (address : Nat → BitVec 64) (p : Nat) : Nat → List (BitVec 64 × BitVec 32)
  | 0 => []
  | n + 1 => (address p, instruction half p) :: parse address (p + size half p) n

/-- Where the instruction after the first `n` starts. -/
def position (p : Nat) : Nat → Nat
  | 0 => p
  | n + 1 => position (p + size half p) n

variable {half}

theorem position_succ (p n : Nat) :
    position half p (n + 1) = position half p n + size half (position half p n) := by
  induction n generalizing p with
  | zero => rfl
  | succ n ih => exact ih (p + size half p)

/-- One more instruction. -/
theorem parse_succ (address : Nat → BitVec 64) (p n : Nat) :
    parse half address p (n + 1) =
      parse half address p n ++
        [(address (position half p n), instruction half (position half p n))] := by
  induction n generalizing p with
  | zero => rfl
  | succ n ih =>
      rw [parse, ih (p + size half p)]
      rfl

theorem size_compressed {p : Nat} (short : compressed (half p) = true) : size half p = 1 :=
  if_pos short

theorem size_full {p : Nat} (long : compressed (half p) = false) : size half p = 2 := by
  rw [size, long, if_neg Bool.false_ne_true]

theorem instruction_compressed {p : Nat} (short : compressed (half p) = true) :
    instruction half p = (half p).setWidth 32 := if_pos short

theorem instruction_full {p : Nat} (long : compressed (half p) = false) :
    instruction half p = half (p + 1) ++ half p := by
  rw [instruction, long, if_neg Bool.false_ne_true]

end Stream

section Words

variable (words : Nat → BitVec 32)

/-- The halfwords of a stream of words, the lower half first. -/
def halves (p : Nat) : BitVec 16 := (words (p / 2)).extractLsb' (16 * (p % 2)) 16

theorem halves_even (k : Nat) : halves words (2 * k) = (words k).extractLsb' 0 16 := by
  rw [halves, Nat.mul_mod_right, Nat.mul_div_cancel_left k Nat.two_pos]

theorem halves_odd (k : Nat) : halves words (2 * k + 1) = (words k).extractLsb' 16 16 := by
  have word : (2 * k + 1) / 2 = k := by omega
  have upper : (2 * k + 1) % 2 = 1 := by omega
  rw [halves, word, upper]

/-- The two halves of a word. -/
theorem halves_append (k : Nat) :
    halves words (2 * k + 1) ++ halves words (2 * k) = words k := by
  rw [halves_odd, halves_even]
  apply BitVec.eq_of_getLsbD_eq
  intro j bound
  rw [BitVec.getLsbD_append, BitVec.getLsbD_extractLsb', BitVec.getLsbD_extractLsb']
  by_cases low : j < 16
  · simp [low]
  · have high : j - 16 < 16 := by omega
    have back : 16 + (j - 16) = j := by omega
    simp [low, high, back]

end Words

end Rvc
