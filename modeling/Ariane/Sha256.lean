import Mathlib.Algebra.Group.Nat.Defs

set_option autoImplicit false

/- The secure hash standard's compression function for 32-bit words: the constants are digits of the
roots of the first primes, the schedule and the working variables are recursions. -/
namespace Sha256

abbrev Word := BitVec 32

section Constants

/-- The largest `s` with `s ^ d ≤ x` from its binary digits, of which `r` has those above bit `b`. -/
def root (d x : Nat) : Nat → Nat → Nat
  | 0, r => r
  | b + 1, r => if (r + 2 ^ b) ^ d ≤ x then root d x b (r + 2 ^ b) else root d x b r

theorem root_spec {d x b r : Nat} (below : r ^ d ≤ x) (above : x < (r + 2 ^ b) ^ d) :
    root d x b r ^ d ≤ x ∧ x < (root d x b r + 1) ^ d := by
  induction b generalizing r with
  | zero => exact ⟨below, above⟩
  | succ b ih =>
      have double : r + 2 ^ (b + 1) = r + 2 ^ b + 2 ^ b := by
        rw [Nat.pow_succ]
        omega
      rw [root]
      by_cases digit : (r + 2 ^ b) ^ d ≤ x
      · rw [if_pos digit]
        rw [double] at above
        exact ih digit above
      · rw [if_neg digit]
        exact ih below (Nat.lt_of_not_le digit)

def isPrime (n : Nat) : Bool := decide (2 ≤ n) && (List.range n).all fun m => m < 2 || n % m != 0

/-- The first sixty-four primes. -/
def primes : List Nat := (List.range 312).filter isPrime

example : primes.length = 64 := by decide +kernel

/-- The first 32 bits of the fraction of the cube root of prime `t`. -/
def k (t : Nat) : Word := BitVec.ofNat 32 (root 3 (primes.getD t 0 * 2 ^ 96) 36 0)

theorem getD_primes_lt (t : Nat) : primes.getD t 0 < 312 := by
  by_cases inside : t < primes.length
  · have member := List.getElem_mem inside
    rw [List.getD_eq_getElem?_getD, List.getElem?_eq_getElem inside, Option.getD_some]
    exact List.mem_range.mp ((List.mem_filter.mp member).1)
  · rw [List.getD_eq_getElem?_getD, List.getElem?_eq_none (Nat.le_of_not_lt inside),
      Option.getD_none]
    decide

/-- `k t` is cut from the cube root, scaled to 32 bits of fraction. -/
theorem k_spec (t : Nat) :
    ∃ s, k t = BitVec.ofNat 32 s ∧ s ^ 3 ≤ primes.getD t 0 * 2 ^ 96 ∧
      primes.getD t 0 * 2 ^ 96 < (s + 1) ^ 3 := by
  have small := getD_primes_lt t
  exact ⟨_, rfl, root_spec (Nat.zero_le _) (by omega)⟩

/-- The first 32 bits of the fraction of the square root of prime `i`. -/
def initial (i : Nat) : Word := BitVec.ofNat 32 (root 2 (primes.getD i 0 * 2 ^ 64) 37 0)

theorem initial_spec (i : Nat) :
    ∃ s, initial i = BitVec.ofNat 32 s ∧ s ^ 2 ≤ primes.getD i 0 * 2 ^ 64 ∧
      primes.getD i 0 * 2 ^ 64 < (s + 1) ^ 2 := by
  have small := getD_primes_lt i
  exact ⟨_, rfl, root_spec (Nat.zero_le _) (by omega)⟩

end Constants

def ch (x y z : Word) : Word := (x &&& y) ^^^ (~~~x &&& z)

def maj (x y z : Word) : Word := (x &&& y) ^^^ (x &&& z) ^^^ (y &&& z)

def bigSigma0 (x : Word) : Word := x.rotateRight 2 ^^^ x.rotateRight 13 ^^^ x.rotateRight 22

def bigSigma1 (x : Word) : Word := x.rotateRight 6 ^^^ x.rotateRight 11 ^^^ x.rotateRight 25

def smallSigma0 (x : Word) : Word := x.rotateRight 7 ^^^ x.rotateRight 18 ^^^ (x >>> 3)

def smallSigma1 (x : Word) : Word := x.rotateRight 17 ^^^ x.rotateRight 19 ^^^ (x >>> 10)

/-- The message schedule: the words of the block, then the recurrence. -/
def schedule (m : Nat → Word) (t : Nat) : Word :=
  if t < 16 then m t
  else
    smallSigma1 (schedule m (t - 2)) + schedule m (t - 7) + smallSigma0 (schedule m (t - 15)) +
      schedule m (t - 16)
termination_by t
decreasing_by all_goals omega

theorem schedule_first (m : Nat → Word) {t : Nat} (first : t < 16) : schedule m t = m t := by
  rw [schedule, if_pos first]

theorem schedule_next (m : Nat → Word) (s : Nat) :
    schedule m (s + 16) =
      smallSigma1 (schedule m (s + 14)) + schedule m (s + 9) + smallSigma0 (schedule m (s + 1)) +
        schedule m s := by
  have later : ¬ s + 16 < 16 := by omega
  rw [schedule, if_neg later, show s + 16 - 2 = s + 14 by omega, show s + 16 - 7 = s + 9 by omega,
    show s + 16 - 15 = s + 1 by omega, show s + 16 - 16 = s by omega]

/-- The working variables, and the words of a hash value. -/
structure Vars where
  a : Word
  b : Word
  c : Word
  d : Word
  e : Word
  f : Word
  g : Word
  h : Word
  deriving DecidableEq, Inhabited

namespace Vars

def add (x y : Vars) : Vars where
  a := x.a + y.a
  b := x.b + y.b
  c := x.c + y.c
  d := x.d + y.d
  e := x.e + y.e
  f := x.f + y.f
  g := x.g + y.g
  h := x.h + y.h

/-- The hash value as one word, the first word on top. -/
def bits (x : Vars) : BitVec 256 := x.a ++ x.b ++ x.c ++ x.d ++ x.e ++ x.f ++ x.g ++ x.h

/-- One step with the constant and the word of the schedule. -/
def round (x : Vars) (k w : Word) : Vars :=
  let t1 := x.h + bigSigma1 x.e + ch x.e x.f x.g + k + w
  let t2 := bigSigma0 x.a + maj x.a x.b x.c
  ⟨t1 + t2, x.a, x.b, x.c, x.d + t1, x.e, x.f, x.g⟩

end Vars

/-- The initial hash value. -/
def iv : Vars :=
  ⟨initial 0, initial 1, initial 2, initial 3, initial 4, initial 5, initial 6, initial 7⟩

/-- The working variables after the first steps. -/
def rounds (m : Nat → Word) (hash : Vars) : Nat → Vars
  | 0 => hash
  | t + 1 => (rounds m hash t).round (k t) (schedule m t)

/-- The next hash value. -/
def compress (m : Nat → Word) (hash : Vars) : Vars := hash.add (rounds m hash 64)

/-- The words of a block, the first one on top. -/
def words (block : BitVec 512) (i : Nat) : Word := block.extractLsb' (480 - 32 * i) 32

/-- The hash value of blocks of which some start a new message. -/
def chain (hash : Vars) (blocks : List (Bool × BitVec 512)) : Vars :=
  blocks.foldl (fun hash block => compress (words block.2) (if block.1 then iv else hash)) hash

end Sha256
