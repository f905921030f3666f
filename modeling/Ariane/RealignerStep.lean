import Ariane.InstrRealigner
import Ariane.Rvc

set_option autoImplicit false

/- One cycle of the re-aligner on a stream of words: the instruction it shows, and where in the
stream it stands afterwards. -/
namespace Ariane.InstrRealigner

open Rtl (Machine)

section Handshake

variable (q : State) (i : Input)

theorem realignInstr_valid : (realignInstr q i).valid = (aligned q i).valid := by
  rw [realignInstr, flushed, stable]
  split <;> split <;> rfl

theorem realignInstr_ack : (realignInstr q i).ack = (aligned q i).ack := by
  rw [realignInstr, flushed, stable]
  split <;> split <;> rfl

theorem output_eq :
    output q i = ((aligned q i).entry.address, (aligned q i).entry.instruction) := by
  rw [output, realignInstr, flushed, stable]
  split <;> split <;> rfl

theorem next_eq (noFlush : i.flush = false) :
    next q i =
      if i.fetchAck || (aligned q i).jumpUnalignedHalfWord then (aligned q i).regs else q := by
  rw [next, realignInstr, flushed, noFlush, if_neg Bool.false_ne_true, stable]
  cases i.fetchAck <;> cases (aligned q i).jumpUnalignedHalfWord <;> rfl

end Handshake

section Cases

variable {q : State} {i : Input}

/-- What the block does with an entry: an instruction or none, whether the entry is used up, and
the registers once that is acknowledged. -/
structure Does (q : State) (i : Input) (out : Option (BitVec 64 × BitVec 32)) (last : Bool)
    (regs : State) : Prop where
  output : ∀ instr, out = some instr →
    ((aligned q i).entry.address, (aligned q i).entry.instruction) = instr
  valid : (aligned q i).valid = out.isSome
  jump : (aligned q i).jumpUnalignedHalfWord = out.isNone
  ack : (aligned q i).ack = (last && (i.fetchAck || out.isNone))
  regs : (aligned q i).regs = regs

/-- The upper half of an entry is served. -/
theorem does_second (second : q.compressed = true) :
    Does q i (some (upperAddress i, (upper i).setWidth 32)) true
      { q with compressed := false } := by
  have out : aligned q i = nextCompressed i (defaults q i) := by
    rw [aligned, second, Bool.not_true, Bool.and_false, if_neg Bool.false_ne_true, if_pos rfl]
  constructor
  · intro instr here
    rw [out, ← Option.some.inj here]
    rfl
  · rw [out]
    rfl
  · rw [out]
    rfl
  · rw [out]
    exact (Bool.or_false _).symm
  · rw [out]
    rfl

variable (valid : i.fetchEntryValid = true) (first : q.compressed = false)
  (noKill : killUpper16Bit i = false)

include valid first

theorem aligned_word (word : i.fetchEntry.address.getLsbD 1 = false)
    (fresh : q.unaligned = false) : aligned q i = wordBoundary i (defaults q i) := by
  rw [aligned, valid, first, word, fresh]
  rfl

theorem aligned_outstanding (word : i.fetchEntry.address.getLsbD 1 = false)
    (saved : q.unaligned = true) : aligned q i = outstanding q i (defaults q i) := by
  rw [aligned, valid, first, word, saved]
  rfl

theorem aligned_half (half : i.fetchEntry.address.getLsbD 1 = true) :
    aligned q i = halfWordBoundary i (defaults q i) := by
  rw [aligned, valid, first, half]
  rfl

/-- The registers that keep the first half of an instruction. -/
def savedState (q : State) (i : Input) : State where
  unaligned := true
  unalignedInstr := upper i
  unalignedAddress := upperAddress i
  compressed := q.compressed

/-- A 32-bit instruction fills the entry. -/
theorem does_full (word : i.fetchEntry.address.getLsbD 1 = false) (fresh : q.unaligned = false)
    (long : lowerCompressed i = false) :
    Does q i (some (i.fetchEntry.address, i.fetchEntry.instruction)) true q := by
  have out : aligned q i = { defaults q i with regs.unaligned := false } := by
    rw [aligned_word valid first word fresh, wordBoundary, long]
    rfl
  constructor
  · intro instr here
    rw [out, ← Option.some.inj here]
    rfl
  · rw [out]
    exact valid
  · rw [out]
    rfl
  · rw [out]
    exact (Bool.or_false _).symm
  · rw [out, ← fresh]
    rfl

/-- A stream that starts in the upper half of its first entry. -/
theorem does_half (half : i.fetchEntry.address.getLsbD 1 = true) (fresh : q.unaligned = false) :
    Does q i
      (if upperCompressed i then some (i.fetchEntry.address, (upper i).setWidth 32) else none)
      true (if upperCompressed i then q else savedState q i) := by
  have out := aligned_half valid first half
  rw [halfWordBoundary] at out
  cases short : upperCompressed i <;> rw [short] at out <;> constructor
  · intro instr here
    cases here
  · rw [out]
    rfl
  · rw [out]
    rfl
  · rw [out]
    exact (Bool.or_true _).symm
  · rw [out]
    rfl
  · intro instr here
    rw [out, ← Option.some.inj here]
    rfl
  · rw [out]
    exact valid
  · rw [out]
    rfl
  · rw [out]
    exact (Bool.or_false _).symm
  · rw [out, ← fresh]
    rfl

include noKill

/-- A compressed instruction in the lower half. -/
theorem does_lower (word : i.fetchEntry.address.getLsbD 1 = false) (fresh : q.unaligned = false)
    (short : lowerCompressed i = true) :
    Does q i (some (i.fetchEntry.address, (lower i).setWidth 32)) (!upperCompressed i)
      (if upperCompressed i then { q with compressed := true } else savedState q i) := by
  have out := aligned_word valid first word fresh
  rw [wordBoundary, short, if_pos rfl, noKill, Bool.not_false, if_pos rfl] at out
  constructor
  · intro instr here
    rw [out, ← Option.some.inj here]
    cases upperCompressed i <;> simp [saveUpper, defaults]
  · rw [out]
    cases upperCompressed i <;> simp [saveUpper, defaults, valid]
  · rw [out]
    cases upperCompressed i <;> simp [saveUpper, defaults]
  · rw [out]
    cases upperCompressed i <;> simp [saveUpper, defaults]
  · rw [out]
    cases upperCompressed i with
    | false => simp [saveUpper, defaults, savedState]
    | true => simp [defaults, fresh.symm]

/-- The entry completes the saved instruction. -/
theorem does_outstanding (word : i.fetchEntry.address.getLsbD 1 = false)
    (saved : q.unaligned = true) :
    Does q i (some (q.unalignedAddress, lower i ++ q.unalignedInstr)) (!upperCompressed i)
      (if upperCompressed i then { q with compressed := true, unaligned := false }
      else savedState q i) := by
  have out := aligned_outstanding valid first word saved
  rw [outstanding, noKill, Bool.not_false, if_pos rfl] at out
  constructor
  · intro instr here
    rw [out, ← Option.some.inj here]
    cases upperCompressed i <;> simp [saveUpper, defaults]
  · rw [out]
    cases upperCompressed i <;> simp [saveUpper, defaults, valid]
  · rw [out]
    cases upperCompressed i <;> simp [saveUpper, defaults]
  · rw [out]
    cases upperCompressed i <;> simp [saveUpper, defaults]
  · rw [out]
    cases upperCompressed i <;> simp [saveUpper, defaults, savedState]

end Cases

/-- A stream of consecutive words. It starts at a halfword. -/
structure Words where
  start : BitVec 64
  word : Nat → BitVec 32
  even : start.getLsbD 0 = false

namespace Words

variable (s : Words)

/-- The address of the word that holds the start. -/
def base : BitVec 64 := s.start.extractLsb' 2 62 ++ 0#2

/-- The address of halfword `p`, counted from the first word. -/
def address (p : Nat) : BitVec 64 := s.base + BitVec.ofNat 64 (2 * p)

/-- The halfword at the start. -/
def offset : Nat := (s.start.getLsbD 1).toNat

/-- The address of entry `k`. -/
def entryAddress (k : Nat) : BitVec 64 := if k = 0 then s.start else s.address (2 * k)

/-- The halfwords of the stream. -/
def half : Nat → BitVec 16 := Rvc.halves s.word

variable {s}

theorem base_toNat : s.base.toNat = s.start.toNat / 4 * 4 := by
  rw [base, BitVec.toNat_append, BitVec.extractLsb'_toNat, Nat.shiftRight_eq_div_pow]
  have bound := s.start.isLt
  have small : s.start.toNat / 2 ^ 2 < 2 ^ 62 := by omega
  rw [Nat.mod_eq_of_lt small, ← Nat.shiftLeft_add_eq_or_of_lt (by decide), Nat.shiftLeft_eq]
  rfl

theorem start_toNat : s.start.toNat = s.base.toNat + 2 * s.offset := by
  have even := s.even
  rw [base_toNat, offset]
  rw [BitVec.getLsbD, Nat.testBit_zero, decide_eq_false_iff_not] at even
  cases odd : s.start.getLsbD 1 with
  | false =>
      rw [BitVec.getLsbD, Nat.testBit_eq_decide_div_mod_eq, decide_eq_false_iff_not] at odd
      show s.start.toNat = _ + 2 * 0
      omega
  | true =>
      rw [BitVec.getLsbD, Nat.testBit_eq_decide_div_mod_eq, decide_eq_true_eq] at odd
      show s.start.toNat = _ + 2 * 1
      omega

theorem offset_le : s.offset ≤ 1 := Bool.toNat_le _

theorem address_offset : s.address s.offset = s.start := by
  apply BitVec.eq_of_toNat_eq
  have start := s.start_toNat
  have bound := s.start.isLt
  rw [address, BitVec.toNat_add, BitVec.toNat_ofNat]
  omega

/-- The address of the first half of an entry. -/
theorem entryAddress_lower {k : Nat} (later : 0 < k ∨ s.offset = 0) :
    s.entryAddress k = s.address (2 * k) := by
  rw [entryAddress]
  split
  · rename_i first
    subst first
    have zero : s.offset = 0 := later.resolve_left (Nat.lt_irrefl 0)
    rw [← s.address_offset, zero]
  · rfl

/-- The address of the second half of an entry. -/
theorem entryAddress_upper (k : Nat) :
    (s.entryAddress k).extractLsb' 2 62 ++ 2#2 = s.address (2 * k + 1) := by
  have start := s.start_toNat
  have base := s.base_toNat
  have odd := s.offset_le
  have bound := s.start.isLt
  have low : (s.entryAddress k).toNat / 4 = (s.base.toNat + 4 * k) % 2 ^ 64 / 4 := by
    rw [entryAddress]
    split
    · rename_i first
      subst first
      omega
    · rw [address, BitVec.toNat_add, BitVec.toNat_ofNat]
      omega
  apply BitVec.eq_of_toNat_eq
  rw [BitVec.toNat_append, BitVec.extractLsb'_toNat, Nat.shiftRight_eq_div_pow, low,
    ← Nat.shiftLeft_add_eq_or_of_lt (by decide), Nat.shiftLeft_eq, address, BitVec.toNat_add]
  simp only [BitVec.toNat_ofNat]
  omega

/-- Only the first entry may be entered in its upper half. -/
theorem entryAddress_bit (k : Nat) :
    (s.entryAddress k).getLsbD 1 = (decide (k = 0) && s.start.getLsbD 1) := by
  rw [entryAddress]
  split
  · rename_i first
    rw [decide_eq_true first, Bool.true_and]
  · rename_i later
    have base := s.base_toNat
    rw [decide_eq_false later, Bool.false_and, BitVec.getLsbD, Nat.testBit_eq_decide_div_mod_eq,
      decide_eq_false_iff_not, address, BitVec.toNat_add, BitVec.toNat_ofNat]
    omega

end Words

section Position

variable (s : Words)

/-- The registers after the entries before `k` were used up and the instructions before halfword
`p` were accepted. -/
inductive At (q : State) (k p : Nat) : Prop where
  /-- The next instruction starts with the next entry. -/
  | fresh (first : q.compressed = false) (whole : q.unaligned = false)
      (here : k = 0 ∧ p = s.offset ∨ 0 < k ∧ p = 2 * k)
  /-- The first half of the next instruction is saved. -/
  | saved (first : q.compressed = false) (split : q.unaligned = true) (here : p + 1 = 2 * k)
      (instr : q.unalignedInstr = s.half p) (address : q.unalignedAddress = s.address p)
      (long : Rvc.compressed (s.half p) = false)
  /-- The upper half of the next entry is the next instruction. -/
  | second (second : q.compressed = true) (whole : q.unaligned = false) (here : p = 2 * k + 1)
      (short : Rvc.compressed (s.half p) = true)

/-- The entry that the fetch FIFO shows while it is valid. No branch in it is predicted taken. -/
structure Presents (k : Nat) (i : Input) : Prop where
  noFlush : i.flush = false
  address : i.fetchEntryValid = true → i.fetchEntry.address = s.entryAddress k
  instruction : i.fetchEntryValid = true → i.fetchEntry.instruction = s.word k
  notTaken : i.fetchEntryValid = true →
    (i.fetchEntry.branchPredict.valid && i.fetchEntry.branchPredict.predictTaken) = false

variable {s} {k p : Nat} {q : State} {i : Input}

theorem Presents.noKill (presents : Presents s k i) (valid : i.fetchEntryValid = true) :
    killUpper16Bit i = false := by
  rw [killUpper16Bit, presents.notTaken valid, Bool.false_and]

theorem Presents.lower (presents : Presents s k i) (valid : i.fetchEntryValid = true) :
    lower i = s.half (2 * k) := by
  rw [InstrRealigner.lower, presents.instruction valid, Words.half, Rvc.halves_even]

theorem Presents.upper (presents : Presents s k i) (valid : i.fetchEntryValid = true) :
    upper i = s.half (2 * k + 1) := by
  rw [InstrRealigner.upper, presents.instruction valid, Words.half, Rvc.halves_odd]

theorem Presents.upperAddress (presents : Presents s k i) (valid : i.fetchEntryValid = true) :
    upperAddress i = s.address (2 * k + 1) := by
  rw [InstrRealigner.upperAddress, presents.address valid, Words.entryAddress_upper]

/-- The low bits of a half are bits of the word. -/
theorem extract_low (x : BitVec 32) (lo : Nat) :
    (x.extractLsb' lo 16).extractLsb' 0 2 = x.extractLsb' lo 2 := by
  apply BitVec.eq_of_getLsbD_eq
  intro j bound
  have inside : 0 + j < 16 := by omega
  rw [BitVec.getLsbD_extractLsb', BitVec.getLsbD_extractLsb', BitVec.getLsbD_extractLsb',
    decide_eq_true inside, Bool.true_and, Nat.zero_add]

theorem lowerCompressed_eq : lowerCompressed i = Rvc.compressed (lower i) := by
  rw [lowerCompressed, Rvc.compressed, lower, extract_low]

theorem upperCompressed_eq : upperCompressed i = Rvc.compressed (upper i) := by
  rw [upperCompressed, Rvc.compressed, upper, extract_low]

end Position

section Steps

variable {s : Words} {k p : Nat} {q : State} {i : Input}

/-- What one cycle does to the position in the stream. -/
structure Advances (s : Words) (q : State) (i : Input) (k p : Nat) : Prop where
  served : accepted q i = true →
    output q i = (s.address p, Rvc.instruction s.half p) ∧
      At s (next q i) (k + (consumed q i).toNat) (p + Rvc.size s.half p)
  waits : accepted q i = false → At s (next q i) (k + (consumed q i).toNat) p
  /-- Only the first entry is taken without an instruction. -/
  progress : i.fetchEntryValid = true → i.fetchAck = true →
    accepted q i = true ∨ k = 0 ∧ consumed q i = true
  takes : consumed q i = true → accepted q i = true ∨ k = 0

/-- The block shows the instruction at `p`. -/
theorem Does.serves {last : Bool} {regs : State}
    (does : Does q i (some (s.address p, Rvc.instruction s.half p)) last regs)
    (noFlush : i.flush = false) (valid : i.fetchEntryValid = true) (here : At s q k p)
    (after : At s regs (k + last.toNat) (p + Rvc.size s.half p)) : Advances s q i k p := by
  have takes : accepted q i = i.fetchAck := by
    rw [accepted, realignInstr_valid, does.valid]
    exact Bool.true_and _
  have uses : consumed q i = (last && i.fetchAck) := by
    rw [consumed, realignInstr_ack, does.ack, valid, Bool.true_and, Option.isNone_some,
      Bool.or_false]
  have regs' := next_eq q i noFlush
  rw [does.jump, Option.isNone_some, Bool.or_false, does.regs] at regs'
  constructor
  · intro accept
    rw [takes] at accept
    rw [accept, if_pos rfl] at regs'
    rw [regs', uses, accept, Bool.and_true]
    exact ⟨(output_eq q i).trans (does.output _ rfl), after⟩
  · intro refuse
    rw [takes] at refuse
    rw [refuse, if_neg Bool.false_ne_true] at regs'
    rw [regs', uses, refuse, Bool.and_false]
    exact here
  · intro _ ack
    exact Or.inl (takes.trans ack)
  · intro used
    rw [uses, Bool.and_eq_true] at used
    exact Or.inl (takes.trans used.2)

/-- The block fetches the second half of an instruction first. -/
theorem Does.fetches {regs : State} (does : Does q i none true regs)
    (noFlush : i.flush = false) (valid : i.fetchEntryValid = true) (start : k = 0)
    (after : At s regs (k + 1) p) : Advances s q i k p := by
  have takes : accepted q i = false := by
    rw [accepted, realignInstr_valid, does.valid]
    exact Bool.false_and _
  have uses : consumed q i = true := by
    rw [consumed, realignInstr_ack, does.ack, valid, Option.isNone_none, Bool.or_true]
    rfl
  have regs' := next_eq q i noFlush
  rw [does.jump, Option.isNone_none, Bool.or_true, if_pos rfl, does.regs] at regs'
  constructor
  · intro accept
    exact absurd (takes.symm.trans accept) Bool.false_ne_true
  · intro _
    rw [regs', uses]
    exact after
  · intro _ _
    exact Or.inr ⟨start, uses⟩
  · intro _
    exact Or.inr start

/-- Nothing is taken and nothing moves. -/
theorem At.rests (here : At s q k p) (valid : i.fetchEntryValid = false)
    (takes : accepted q i = false) (same : next q i = q) : Advances s q i k p := by
  have uses : consumed q i = false := by
    rw [consumed, valid, Bool.false_and]
  constructor
  · intro accept
    exact absurd (takes.symm.trans accept) Bool.false_ne_true
  · intro _
    rw [same, uses]
    exact here
  · intro shown
    exact absurd (valid.symm.trans shown) Bool.false_ne_true
  · intro used
    exact absurd (uses.symm.trans used) Bool.false_ne_true

variable (presents : Presents s k i) (valid : i.fetchEntryValid = true)

include presents valid

/-- A 32-bit instruction starts in the upper half of the entry. -/
theorem Presents.saved (first : q.compressed = false) (long : upperCompressed i = false) :
    At s (savedState q i) (k + 1) (2 * k + 1) := by
  have first' : (savedState q i).compressed = false := first
  refine At.saved first' rfl rfl (presents.upper valid) (presents.upperAddress valid) ?_
  rw [← presents.upper valid, ← upperCompressed_eq]
  exact long

/-- A compressed instruction waits in the upper half of the entry. -/
theorem Presents.second {regs : State} (waits : regs.compressed = true)
    (whole : regs.unaligned = false) (short : upperCompressed i = true) :
    At s regs k (2 * k + 1) := by
  apply At.second waits whole rfl
  rw [← presents.upper valid, ← upperCompressed_eq]
  exact short

/-- What follows an instruction that ends with the lower half of the entry. -/
theorem Presents.after_lower {both : State} (first : q.compressed = false)
    (waits : both.compressed = true) (whole : both.unaligned = false) :
    At s (if upperCompressed i then both else savedState q i) (k + (!upperCompressed i).toNat)
      (2 * k + 1) := by
  cases short : upperCompressed i with
  | false => exact presents.saved valid first short
  | true => exact presents.second valid waits whole short

/-- The next instruction starts in the lower half of the entry. -/
theorem Presents.step_lower (first : q.compressed = false) (whole : q.unaligned = false)
    (word : i.fetchEntry.address.getLsbD 1 = false) (address : i.fetchEntry.address = s.address p)
    (here : p = 2 * k) (at' : At s q k p) : Advances s q i k p := by
  subst here
  have short := (lowerCompressed_eq (i := i)).trans (congrArg _ (presents.lower valid))
  cases low : lowerCompressed i with
  | true =>
      rw [low] at short
      have does := does_lower valid first (presents.noKill valid) word whole low
      rw [address, presents.lower valid, ← Rvc.instruction_compressed short.symm] at does
      apply does.serves presents.noFlush valid at'
      rw [Rvc.size_compressed short.symm]
      exact presents.after_lower valid first rfl whole
  | false =>
      rw [low] at short
      have does := does_full valid first word whole low
      rw [address, presents.instruction valid, ← Rvc.halves_append s.word k] at does
      have full := Rvc.instruction_full short.symm
      rw [Words.half] at full
      rw [← full] at does
      apply does.serves presents.noFlush valid at'
      rw [Rvc.size_full short.symm]
      exact At.fresh first whole (Or.inr ⟨Nat.succ_pos k, rfl⟩)

/-- The stream starts in the upper half of the entry. -/
theorem Presents.step_upper (first : q.compressed = false) (whole : q.unaligned = false)
    (half : i.fetchEntry.address.getLsbD 1 = true) (address : i.fetchEntry.address = s.address p)
    (start : k = 0) (here : p = 2 * k + 1) (at' : At s q k p) : Advances s q i k p := by
  subst here
  have does := does_half valid first half whole
  have short := (upperCompressed_eq (i := i)).trans (congrArg _ (presents.upper valid))
  cases low : upperCompressed i with
  | true =>
      rw [low] at short
      rw [low, if_pos rfl, if_pos rfl, address, presents.upper valid,
        ← Rvc.instruction_compressed short.symm] at does
      apply does.serves presents.noFlush valid at'
      rw [Rvc.size_compressed short.symm]
      exact At.fresh first whole (Or.inr ⟨Nat.succ_pos k, rfl⟩)
  | false =>
      rw [low, if_neg Bool.false_ne_true, if_neg Bool.false_ne_true] at does
      exact does.fetches presents.noFlush valid start (presents.saved valid first low)

/-- The entry completes the saved instruction. -/
theorem Presents.step_saved (first : q.compressed = false) (split : q.unaligned = true)
    (here : p + 1 = 2 * k) (instr : q.unalignedInstr = s.half p)
    (address : q.unalignedAddress = s.address p) (long : Rvc.compressed (s.half p) = false)
    (at' : At s q k p) : Advances s q i k p := by
  have word : i.fetchEntry.address.getLsbD 1 = false := by
    have later : ¬ k = 0 := by omega
    rw [presents.address valid, Words.entryAddress_bit, decide_eq_false later, Bool.false_and]
  have does := does_outstanding valid first (presents.noKill valid) word split
  rw [address, instr, presents.lower valid, ← here, ← Rvc.instruction_full long] at does
  have next : p + Rvc.size s.half p = 2 * k + 1 := by
    rw [Rvc.size_full long]
    omega
  apply does.serves presents.noFlush valid at'
  rw [next]
  exact presents.after_lower valid first rfl rfl

/-- The upper half of the entry is the next instruction. -/
theorem Presents.step_second (second : q.compressed = true) (whole : q.unaligned = false)
    (here : p = 2 * k + 1) (short : Rvc.compressed (s.half p) = true) (at' : At s q k p) :
    Advances s q i k p := by
  subst here
  have does := does_second (i := i) second
  rw [presents.upperAddress valid, presents.upper valid, ← Rvc.instruction_compressed short] at does
  apply does.serves presents.noFlush valid at'
  rw [Rvc.size_compressed short]
  exact At.fresh rfl whole (Or.inr ⟨Nat.succ_pos k, rfl⟩)

omit valid

/-- One cycle serves the instruction at the position or waits there. An upper half that is due is taken
only while its entry is shown. -/
theorem At.step (here : At s q k p)
    (served : q.compressed = true → i.fetchAck = true → i.fetchEntryValid = true) :
    Advances s q i k p := by
  cases valid : i.fetchEntryValid with
  | false =>
      cases second : q.compressed with
      | false =>
          have out : aligned q i = defaults q i := by
            rw [aligned, valid, second]
            rfl
          apply here.rests valid
          · rw [accepted, realignInstr_valid, out]
            show (i.fetchEntryValid && i.fetchAck) = false
            rw [valid, Bool.false_and]
          · rw [next_eq q i presents.noFlush, out]
            exact ite_self q
      | true =>
          have refuse : i.fetchAck = false := by
            cases ack : i.fetchAck with
            | false => rfl
            | true => exact absurd (valid.symm.trans (served second ack)) Bool.false_ne_true
          have does := does_second (i := i) second
          apply here.rests valid
          · rw [accepted, refuse, Bool.and_false]
          · have regs := next_eq q i presents.noFlush
            rw [does.jump, Option.isNone_some, Bool.or_false, refuse, if_neg Bool.false_ne_true] at regs
            exact regs
  | true =>
      cases here with
      | second second whole place short =>
          exact presents.step_second valid second whole place short (At.second second whole place short)
      | saved first split place instr address long =>
          exact presents.step_saved valid first split place instr address long
            (At.saved first split place instr address long)
      | fresh first whole place =>
          have at' := At.fresh first whole place
          have bit := (congrArg (·.getLsbD 1) (presents.address valid)).trans
            (Words.entryAddress_bit k)
          rcases place with ⟨zero, start⟩ | ⟨later, start⟩
          · subst zero
            have entry : i.fetchEntry.address = s.address p := by
              rw [presents.address valid, start, Words.address_offset]
              rfl
            cases odd : s.start.getLsbD 1 with
            | false =>
                rw [odd] at bit
                rw [Words.offset, odd] at start
                exact presents.step_lower valid first whole bit entry start at'
            | true =>
                rw [odd] at bit
                rw [Words.offset, odd] at start
                exact presents.step_upper valid first whole bit entry rfl start at'
          · have notFirst : ¬ k = 0 := by omega
            rw [decide_eq_false notFirst, Bool.false_and] at bit
            have entry : i.fetchEntry.address = s.address p := by
              rw [presents.address valid, start, Words.entryAddress_lower (Or.inl later)]
            exact presents.step_lower valid first whole bit entry start at'

end Steps

end Ariane.InstrRealigner
