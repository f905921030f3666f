import Ariane.Axi2mem

set_option autoImplicit false

/- The addresses of the bursts that the memory adapter serves against those of the bus. -/
namespace Ariane.Axi2mem

open AxiAdapter (AxiAddr AxiBeat)

variable {idWidth n : Nat}

/-- The word of a memory of `2 ^ n` words that a beat accesses. -/
def place (n : Nat) (a : AxiAddr idWidth) (k : Nat) : BitVec n := BitVec.ofNat n (a.beatAddr k / 8)

/-- The address of beat `k`. -/
def beat (a : AxiAddr idWidth) (k : Nat) : BitVec 64 :=
  if k = 0 then a.addr else nextAddr a (BitVec.ofNat 8 k)

/-- The bursts that the adapter addresses as the bus has them: single beats, incrementing bursts, and
wrapping ones of two words, or of four that begin in the first half, not at the end of the
addresses. -/
structure Supported (a : AxiAddr idWidth) : Prop where
  size : a.size = 3
  burst : a.len = 0 ∨ a.burst = .incr ∨
    a.burst = .wrap ∧ a.addr.toNat + 32 < 2 ^ 64 ∧
      (a.len = 1 ∨ a.len = 3 ∧ a.addr.toNat % 32 < 16)

instance (a : AxiAddr idWidth) : Decidable (Supported a) :=
  decidable_of_iff (a.size = 3 ∧ (a.len = 0 ∨ a.burst = .incr ∨
      a.burst = .wrap ∧ a.addr.toNat + 32 < 2 ^ 64 ∧
        (a.len = 1 ∨ a.len = 3 ∧ a.addr.toNat % 32 < 16)))
    ⟨fun both => ⟨both.1, both.2⟩, fun supported => ⟨supported.size, supported.burst⟩⟩

theorem place_eq {x : BitVec 64} {m : Nat} (word : x.toNat / 8 % 2 ^ n = m % 2 ^ n) :
    x.extractLsb' 3 n = BitVec.ofNat n m := by
  apply BitVec.eq_of_toNat_eq
  rw [BitVec.extractLsb'_toNat, BitVec.toNat_ofNat, Nat.shiftRight_eq_div_pow, ← word]

theorem alignedAddress_toNat (a : AxiAddr idWidth) :
    (alignedAddress a).toNat = a.addr.toNat / 8 * 8 := by
  rw [alignedAddress, BitVec.toNat_append, BitVec.extractLsb'_toNat, Nat.shiftRight_eq_div_pow]
  have small := a.addr.isLt
  rw [← Nat.shiftLeft_add_eq_or_of_lt (0#3).isLt, Nat.shiftLeft_eq, Nat.mod_eq_of_lt (by omega)]
  simp

theorem consAddr_toNat (a : AxiAddr idWidth) {k : Nat} (small : k < 256) :
    (consAddr a (BitVec.ofNat 8 k)).toNat = (a.addr.toNat / 8 * 8 + k * 8) % 2 ^ 64 := by
  rw [consAddr, BitVec.toNat_add, alignedAddress_toNat, BitVec.toNat_shiftLeft, BitVec.toNat_setWidth,
    BitVec.toNat_ofNat, Nat.mod_eq_of_lt (show k < 2 ^ 8 from small), Nat.shiftLeft_eq,
    Nat.mod_eq_of_lt (show k < 2 ^ 64 by omega), Nat.mod_eq_of_lt (show k * 2 ^ 3 < 2 ^ 64 by omega)]
  omega

/-- The bits of a word that select it in the memory. -/
theorem mod_word (small : n ≤ 61) (x : Nat) : x % 2 ^ 64 / 8 % 2 ^ n = x / 8 % 2 ^ n := by
  have split : 2 ^ 64 = 8 * 2 ^ 61 := by decide
  rw [split, Nat.mod_mul_right_div_self, Nat.mod_mod_of_dvd _ (Nat.pow_dvd_pow 2 small)]

section Wrap

variable {a : AxiAddr idWidth} (inside : a.addr.toNat + 32 < 2 ^ 64)

theorem wrapBoundary_two (two : a.len = 1) : (wrapBoundary a).toNat = a.addr.toNat / 16 * 16 := by
  have small := a.addr.isLt
  rw [wrapBoundary, if_pos two, BitVec.toNat_append, BitVec.extractLsb'_toNat,
    Nat.shiftRight_eq_div_pow, ← Nat.shiftLeft_add_eq_or_of_lt (0#4).isLt, Nat.shiftLeft_eq,
    Nat.mod_eq_of_lt (by omega)]
  simp

theorem wrapBoundary_four (four : a.len = 3) : (wrapBoundary a).toNat = a.addr.toNat / 32 * 32 := by
  have small := a.addr.isLt
  have other : a.len ≠ 1 := by
    rw [four]
    decide
  rw [wrapBoundary, if_neg other, if_pos four, BitVec.toNat_append, BitVec.extractLsb'_toNat,
    Nat.shiftRight_eq_div_pow, ← Nat.shiftLeft_add_eq_or_of_lt (0#5).isLt, Nat.shiftLeft_eq,
    Nat.mod_eq_of_lt (by omega)]
  simp

theorem nextAddr_wrap (wrap : a.burst = .wrap) {k lower upper : Nat} (due : k < 256)
    (boundary : (wrapBoundary a).toNat = lower) (above : (upperWrapBoundary a).toNat = upper)
    (fits : a.addr.toNat / 8 * 8 + k * 8 ≤ upper) :
    (nextAddr a (BitVec.ofNat 8 k)).toNat =
      if a.addr.toNat / 8 * 8 + k * 8 = upper then lower else a.addr.toNat / 8 * 8 + k * 8 := by
  have bound := (upperWrapBoundary a).isLt
  rw [above] at bound
  have cons := consAddr_toNat a due
  rw [Nat.mod_eq_of_lt (by omega)] at cons
  rw [nextAddr, wrap]
  dsimp only
  by_cases here : a.addr.toNat / 8 * 8 + k * 8 = upper
  · have same : consAddr a (BitVec.ofNat 8 k) = upperWrapBoundary a :=
      BitVec.eq_of_toNat_eq (by omega)
    rw [if_pos same, if_pos here, boundary]
  · have other : consAddr a (BitVec.ofNat 8 k) ≠ upperWrapBoundary a := by
      intro same
      have value := congrArg BitVec.toNat same
      omega
    have below : ¬ upperWrapBoundary a < consAddr a (BitVec.ofNat 8 k) := by
      rw [BitVec.lt_def]
      omega
    rw [if_neg other, if_neg below, if_neg here, cons]


include inside

theorem upper_two (two : a.len = 1) :
    (upperWrapBoundary a).toNat = a.addr.toNat / 16 * 16 + 16 := by
  rw [upperWrapBoundary, BitVec.toNat_add, wrapBoundary_two two, two,
    show (((1 : BitVec 8).setWidth 64 + 1) <<< 3).toNat = 16 from rfl]
  omega

theorem upper_four (four : a.len = 3) :
    (upperWrapBoundary a).toNat = a.addr.toNat / 32 * 32 + 32 := by
  rw [upperWrapBoundary, BitVec.toNat_add, wrapBoundary_four four, four,
    show (((3 : BitVec 8).setWidth 64 + 1) <<< 3).toNat = 32 from rfl]
  omega

end Wrap

/-- Each beat of a supported burst is at its word. -/
theorem beat_place {a : AxiAddr idWidth} (small : n ≤ 61) (supported : Supported a) {k : Nat}
    (due : k ≤ a.len.toNat) : (beat a k).extractLsb' 3 n = place n a k := by
  have bytes : 2 ^ a.size.toNat = 8 := by
    rw [supported.size]
    rfl
  have bound := a.len.isLt
  rw [place, AxiAddr.beatAddr, bytes]
  apply place_eq
  by_cases first : k = 0
  · rw [beat, if_pos first, first]
    cases a.burst with
    | fixed => rfl
    | incr => simp
    | wrap => simp [Nat.div_add_mod']
  · rw [beat, if_neg first]
    have long : a.len ≠ 0 := by
      intro zero
      rw [zero] at due
      exact first (Nat.le_zero.mp due)
    rcases supported.burst.resolve_left long with incr | ⟨wrap, inside, two | ⟨four, low⟩⟩
    · rw [nextAddr, incr]
      dsimp only
      rw [consAddr_toNat a (by omega), mod_word small]
    · have len : a.len.toNat = 1 := by
        rw [two]
        rfl
      have one : k = 1 := by omega
      have next := nextAddr_wrap wrap (show k < 256 by omega) (wrapBoundary_two two)
        (upper_two inside two) (by omega)
      rw [wrap, next, len, one]
      dsimp only
      congr 1
      split <;> omega
    · have len : a.len.toNat = 3 := by
        rw [four]
        rfl
      have next := nextAddr_wrap wrap (show k < 256 by omega) (wrapBoundary_four four)
        (upper_four inside four) (by omega)
      rw [wrap, next, len]
      dsimp only
      congr 1
      split <;> omega

end Ariane.Axi2mem
