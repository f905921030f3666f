import Mathlib.Data.Fin.Basic
import Mathlib.Data.List.FinRange
import Mathlib.Algebra.GroupWithZero.Nat

set_option autoImplicit false

/- `rrarbiter.sv` with `lzc.sv`: a round robin arbiter with look ahead. -/
namespace Ariane.RrArbiter

variable {n : Nat}

/-- `lzc`: the first bit that is set. -/
def lzc (bits : Fin n → Bool) : Option (Fin n) := (List.finRange n).find? bits

/-- `cnt_o` of `lzc`. It is never read where no bit is set. -/
def count [NeZero n] (bits : Fin n → Bool) : Fin n := (lzc bits).getD 0

/-- A bit is set. -/
def anyBit (bits : Fin n → Bool) : Bool := (lzc bits).isSome

theorem bit_of_lzc {bits : Fin n → Bool} {k : Fin n} (first : lzc bits = some k) :
    bits k = true := List.find?_some first

theorem anyBit_iff (bits : Fin n → Bool) : anyBit bits = true ↔ ∃ k, bits k = true := by
  rw [anyBit, lzc, List.find?_isSome]
  constructor
  · rintro ⟨k, -, bit⟩
    exact ⟨k, bit⟩
  · rintro ⟨k, bit⟩
    exact ⟨k, List.mem_finRange k, bit⟩

theorem anyBit_eq_false (bits : Fin n → Bool) : anyBit bits = false ↔ ∀ k, bits k = false := by
  rw [Bool.eq_false_iff, Ne, anyBit_iff, not_exists]
  exact ⟨fun none k => Bool.eq_false_iff.mpr (none k),
    fun none k => Bool.eq_false_iff.mp (none k)⟩

theorem bit_count [NeZero n] {bits : Fin n → Bool} (any : anyBit bits = true) :
    bits (count bits) = true := by
  obtain ⟨k, first⟩ := Option.isSome_iff_exists.mp any
  rw [count, first]
  exact bit_of_lzc first

/-- The registers. -/
structure State (n : Nat) where
  sel : Fin n
  lock : Bool := false
  selLock : Fin n

def reset [NeZero n] : State n where
  sel := 0
  selLock := 0

section Cycle

variable [NeZero n] (lockIn : Bool) (s : State n) (req : Fin n → Bool) (en : Bool)

/-- The next request after the one that was served last. -/
def nextIdx : Fin n :=
  (lzc fun k => decide (s.sel < k) && req k).getD (count fun k => decide (k ≤ s.sel) && req k)

/-- `arb_sel_d`. Two requesters without the lock have a logic of their own. -/
def idx : Fin n :=
  if n = 2 ∧ lockIn = false then
    let first : Fin n := Fin.ofNat n 0
    let second : Fin n := Fin.ofNat n 1
    if (decide (s.sel = second) || (!decide (s.sel = second) && !req first)) && req second then
      second
    else first
  else if s.lock then s.selLock
  else nextIdx s req

/-- `vld_o`. -/
def vld : Bool := anyBit req && en

/-- `ack_o`. -/
def ack (k : Fin n) : Bool :=
  if n = 2 ∧ lockIn = false then
    let first : Fin n := Fin.ofNat n 0
    let second : Fin n := Fin.ofNat n 1
    if k = first then
      (!decide (s.sel = second) || (decide (s.sel = second) && !req second)) && req first && en
    else decide (idx lockIn s req = second) && en
  else decide (idx lockIn s req = k) && vld req en

def next : State n where
  sel := if vld req en then idx lockIn s req else s.sel
  lock := lockIn && anyBit req && !en
  selLock := if lockIn then idx lockIn s req else 0

end Cycle

/-- The request that is locked is still there. -/
def Kept (s : State n) (req : Fin n → Bool) : Prop := s.lock = true → req s.selLock = true

section Spec

variable [NeZero n] {lockIn : Bool} {s : State n} {req : Fin n → Bool} {en : Bool}

theorem nextIdx_requests (any : anyBit req = true) : req (nextIdx s req) = true := by
  rw [nextIdx]
  cases lower : lzc fun k => decide (s.sel < k) && req k with
  | some k =>
      have bit := bit_of_lzc lower
      rw [Bool.and_eq_true] at bit
      exact bit.2
  | none =>
      have upper : anyBit (fun k => decide (k ≤ s.sel) && req k) = true := by
        obtain ⟨k, bit⟩ := (anyBit_iff req).mp any
        rw [anyBit_iff]
        refine ⟨k, ?_⟩
        have quiet : anyBit (fun k => decide (s.sel < k) && req k) = false := by
          rw [anyBit, lower]
          rfl
        have low := (anyBit_eq_false _).mp quiet k
        rw [bit, Bool.and_true, decide_eq_false_iff_not, not_lt] at low
        rw [bit, Bool.and_true, decide_eq_true_iff]
        exact low
      have bit := bit_count upper
      rw [Bool.and_eq_true] at bit
      exact bit.2

/-- The index that is given out requests. -/
theorem idx_requests (kept : Kept s req) (any : anyBit req = true) :
    req (idx lockIn s req) = true := by
  rw [idx]
  split
  · next two =>
      obtain ⟨rfl, -⟩ := two
      show req (if (decide (s.sel = 1) || (!decide (s.sel = 1) && !req 0)) && req 1 then 1
        else 0) = true
      split
      · next chosen =>
          rw [Bool.and_eq_true] at chosen
          exact chosen.2
      · next other =>
          by_contra none
          rw [Bool.not_eq_true] at none
          obtain ⟨k, bit⟩ := (anyBit_iff req).mp any
          have second : req 1 = true := by
            have either : k.val = 0 ∨ k.val = 1 := by omega
            rcases either with first | second
            · rw [show k = 0 from Fin.ext first] at bit
              exact absurd (none.symm.trans bit) Bool.false_ne_true
            · rw [show k = 1 from Fin.ext second] at bit
              exact bit
          apply other
          rw [none, second, Bool.not_false, Bool.and_true, Bool.and_true, Bool.or_not_self]
  · split
    · next lock => exact kept lock
    · exact nextIdx_requests any

/-- What is acknowledged is the index that is given out. -/
theorem idx_of_ack {k : Fin n} (acked : ack lockIn s req en k = true) :
    idx lockIn s req = k ∧ en = true ∧ anyBit req = true := by
  rw [ack] at acked
  split at acked
  · next two =>
      obtain ⟨rfl, rfl⟩ := two
      have apart : (Fin.ofNat 2 0 : Fin 2) ≠ Fin.ofNat 2 1 :=
        fun same => Nat.zero_ne_one (congrArg Fin.val same)
      rw [idx, if_pos ⟨rfl, rfl⟩]
      dsimp only at acked ⊢
      split at acked
      · next first =>
          rw [Bool.and_eq_true, Bool.and_eq_true] at acked
          obtain ⟨⟨chosen, bit⟩, enabled⟩ := acked
          refine ⟨?_, enabled, (anyBit_iff req).mpr ⟨_, bit⟩⟩
          rw [first]
          apply if_neg
          rw [bit]
          revert chosen
          cases decide (s.sel = Fin.ofNat 2 1) <;> cases req (Fin.ofNat 2 1) <;> decide
      · next other =>
          rw [Bool.and_eq_true, decide_eq_true_iff, idx, if_pos ⟨rfl, rfl⟩] at acked
          have second : k = Fin.ofNat 2 1 := by
            have bound := k.isLt
            have nonzero : k.val ≠ 0 := fun zero => other (Fin.ext zero)
            apply Fin.ext
            show k.val = 1
            omega
          refine ⟨acked.1.trans second.symm, acked.2, ?_⟩
          have chosen := acked.1
          revert chosen
          dsimp only
          split
          · next both =>
              rw [Bool.and_eq_true] at both
              exact fun _ => (anyBit_iff req).mpr ⟨_, both.2⟩
          · exact fun first => absurd first apart
  · rw [Bool.and_eq_true, decide_eq_true_iff, vld, Bool.and_eq_true] at acked
    exact ⟨acked.1, acked.2.2, acked.2.1⟩

/-- The index that is given out is acknowledged. -/
theorem ack_idx (served : vld req en = true) : ack lockIn s req en (idx lockIn s req) = true := by
  rw [ack]
  split
  · next two =>
      obtain ⟨rfl, rfl⟩ := two
      have apart : (Fin.ofNat 2 1 : Fin 2) ≠ Fin.ofNat 2 0 :=
        fun same => Nat.zero_ne_one (congrArg Fin.val same).symm
      rw [vld, Bool.and_eq_true, anyBit_iff] at served
      obtain ⟨⟨k, bit⟩, enabled⟩ := served
      have either : req (Fin.ofNat 2 0) = true ∨ req (Fin.ofNat 2 1) = true := by
        have bound := k.isLt
        have either : k.val = 0 ∨ k.val = 1 := by omega
        rcases either with first | second
        · rw [show k = Fin.ofNat 2 0 from Fin.ext first] at bit
          exact .inl bit
        · rw [show k = Fin.ofNat 2 1 from Fin.ext second] at bit
          exact .inr bit
      have index : idx false s req =
          if (decide (s.sel = Fin.ofNat 2 1) ||
            (!decide (s.sel = Fin.ofNat 2 1) && !req (Fin.ofNat 2 0))) && req (Fin.ofNat 2 1) then
            Fin.ofNat 2 1
          else Fin.ofNat 2 0 := if_pos ⟨rfl, rfl⟩
      rw [index, enabled]
      split
      · next chosen => rw [if_neg apart, decide_eq_true rfl, Bool.and_true]
      · next other =>
          rw [if_pos rfl, Bool.and_true]
          revert other either
          cases decide (s.sel = Fin.ofNat 2 1) <;> cases req (Fin.ofNat 2 0) <;>
            cases req (Fin.ofNat 2 1) <;> decide
  · rw [served, Bool.and_true]
    exact decide_eq_true rfl

/-- A request that stays until it is served stays locked. -/
theorem next_kept {req' : Fin n → Bool} (kept : Kept s req)
    (stays : en = false → ∀ k, req k = true → req' k = true) :
    Kept (next lockIn s req en) req' := by
  intro lock
  have lock : (lockIn && anyBit req && !en) = true := lock
  rw [Bool.and_eq_true, Bool.and_eq_true, Bool.not_eq_true'] at lock
  obtain ⟨⟨locks, any⟩, waits⟩ := lock
  show req' (if lockIn then idx lockIn s req else 0) = true
  rw [if_pos locks]
  exact stays waits _ (idx_requests kept any)

end Spec

end Ariane.RrArbiter
