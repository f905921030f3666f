import Ariane.Rtl.Stream
import Ariane.SerdivLoop

set_option autoImplicit false

/- The results of the divider against the division of the instruction set, for every pair of
operands and every order of the handshakes. -/
namespace Ariane.Serdiv

open Rtl

variable {w : Nat}

section Answer

variable (i : Input w)

/-- The quotient of the instruction set: rounded towards zero, all ones for a divisor of zero. -/
def quotient : BitVec w :=
  if i.opB = 0 then BitVec.allOnes w
  else BitVec.ofInt w ((signedValue i.signed i.opA).tdiv (signedValue i.signed i.opB))

/-- The remainder of the instruction set, with the sign of the dividend. -/
def remainder : BitVec w :=
  if i.opB = 0 then i.opA
  else BitVec.ofInt w ((signedValue i.signed i.opA).tmod (signedValue i.signed i.opB))

def answer : BitVec w := if i.rem then remainder i else quotient i

/-- The smallest number divided by minus one. -/
example : answer { opA := 0x80, opB := 0xff, opcode := 1 : Input 8 } = 0x80 := by decide

variable {i}

theorem quotient_eq (nonzero : i.opB ≠ 0) :
    quotient i = signedMag w (i.negativeA ^^ i.negative) (i.dividend / i.divisor) := by
  rw [quotient, if_neg nonzero, signedValue_eq, signedValue_eq, ← ofInt_signed]
  unfold Input.negativeA Input.negative Input.dividend Input.divisor
  congr 1
  cases i.signed && i.opA.msb <;> cases i.signed && i.opB.msb <;> simp

theorem remainder_eq (nonzero : i.opB ≠ 0) :
    remainder i = signedMag w i.negativeA (i.dividend % i.divisor) := by
  rw [remainder, if_neg nonzero, signedValue_eq, signedValue_eq, ← ofInt_signed]
  unfold Input.negativeA Input.dividend Input.divisor
  congr 1
  cases i.signed && i.opA.msb <;> cases i.signed && i.opB.msb <;>
    simp [Int.tmod_eq_emod_of_nonneg]

end Answer

section Result

variable {i : Input w} {q : State w} {found rest : Nat}

/-- What the output shows, for either choice of the result. -/
theorem result_eq (keeps : Keeps i q) (opA : q.opA = signedMag w i.negative rest)
    (res : q.res = BitVec.ofNat w found) :
    result q =
      if i.rem then signedMag w i.negativeA rest
      else signedMag w ((i.opB != 0) && (i.negativeA ^^ i.negative)) found := by
  unfold result
  rw [keeps.remSel, keeps.resInv, opA, res]
  cases i.rem with
  | true =>
      simp only [↓reduceIte, Bool.or_true, Bool.true_and]
      rw [neg_signedMag]
      cases i.negativeA <;> cases i.negative <;> rfl
  | false =>
      simp only [Bool.false_eq_true, ↓reduceIte, Bool.or_false]
      rfl

/-- A complete division answers. -/
theorem result_some (keeps : Keeps i q) (some : i.opB ≠ 0)
    (opA : q.opA = signedMag w i.negative (i.dividend % i.divisor))
    (res : q.res = BitVec.ofNat w (i.dividend / i.divisor)) : result q = answer i := by
  rw [result_eq keeps opA res, answer, quotient_eq some, remainder_eq some, bne_iff_ne.mpr some,
    Bool.true_and]

theorem result_zero (keeps : Keeps i q) (zero : i.opB = 0) (all : found + 1 = 2 ^ (w + 1))
    (opA : q.opA = signedMag w i.negative i.dividend) (res : q.res = BitVec.ofNat w found) :
    result q = answer i := by
  have kept : signedMag w i.negativeA i.dividend = i.opA := signedMag_magnitude i.signed i.opA
  have ones : BitVec.ofNat w found = BitVec.allOnes w := by
    apply BitVec.eq_of_toNat_eq
    rw [Nat.pow_succ] at all
    have positive := Nat.two_pow_pos w
    have split : found = 2 ^ w - 1 + 2 ^ w := by omega
    rw [BitVec.toNat_ofNat, BitVec.toNat_allOnes, split, Nat.add_mod_right,
      Nat.mod_eq_of_lt (by omega)]
  rw [result_eq keeps opA res, answer, quotient, remainder, if_pos zero, if_pos zero, kept, zero,
    bne_self_eq_false, Bool.false_and]
  unfold signedMag
  rw [if_neg Bool.false_ne_true, ones]

/-- The answer waits at the output. -/
structure Answering (i : Input w) (q : State w) : Prop where
  waits : done q = true
  id : q.id = i.id
  value : result q = answer i

/-- The last position of the loop completes the division. -/
theorem dividing_last {x : Input w} (h : Dividing i 0 q) (running : x.flush = false) :
    Answering i (next q x) := by
  obtain ⟨found, rest, progress, opA, res⟩ := progress_step h running
  have last : (q.cnt == 0) = true := by rw [h.cnt]; rfl
  have registers := next_dividing h.state h.divResZero running
  have keeps : Keeps i (next q x) := by
    rw [registers]
    exact ⟨h.id, h.remSel, h.compInv, h.resInv, h.opBZero⟩
  refine ⟨?_, keeps.id, ?_⟩
  · rw [registers]
    simp [done, last]
  · by_cases zero : i.opB = 0
    · rw [Progress, if_pos zero] at progress
      rw [progress.2] at opA
      exact result_zero keeps zero progress.1 opA res
    · rw [Progress, if_neg zero] at progress
      obtain ⟨div, mod⟩ := progress.finished
      rw [mod] at opA
      rw [div] at res
      exact result_some keeps zero opA res

end Result

section Load

variable (i : Input w)

theorem load_keeps : Keeps i (load i) where
  id := rfl
  remSel := rfl
  compInv := rfl
  resInv := by
    rw [← signed_signsDiffer, ← Bool.and_assoc]
    rfl
  opBZero := rfl

/-- The loop starts at the position of the aligned divisor. -/
theorem load_dividing (positive : 0 < w) (reaches : 0 ≤ divShift i) :
    Dividing i (divShift i).toNat (load i) where
  toKeeps := load_keeps i
  state := rfl
  divResZero := decide_eq_false (Int.not_lt.mpr reaches)
  cnt := rfl
  place := by omega
  opB := load_opB i reaches
  progress := by
    refine ⟨0, i.dividend, ?_, load_opA i, rfl⟩
    unfold Progress
    split
    · next zero =>
        rw [(divisor_zero zero).2.2, Int.toNat_natCast, Nat.sub_self]
        exact ⟨rfl, rfl⟩
    · next some => exact Partial.start (dividend_lt_aligned i positive some reaches)

/-- A quotient of zero is answered at once. -/
theorem load_result (below : divShift i < 0) :
    done (load i) = true ∧ result (load i) =
      if i.rem then signedMag w i.negativeA i.dividend else 0 := by
  refine ⟨decide_eq_true below, ?_⟩
  have none : (load i).res = BitVec.ofNat w 0 := rfl
  rw [result_eq (load_keeps i) (load_opA i) none, signedMag_zero]
  rfl

variable {i}

theorem some_of_below (below : divShift i < 0) : i.opB ≠ 0 := by
  intro zero
  have all := (divisor_zero zero).2.2
  omega

theorem divisor_one (below : divShift i < 0) (one : i.divisor = 1) : i.opB = 1 := by
  unfold Input.divisor at one
  apply BitVec.eq_of_toNat_eq
  cases neg : i.signed && i.opB.msb with
  | true =>
      have flipped : lzcBInput i = ~~~i.opB := if_pos neg
      rw [(magnitude_neg neg).1] at one
      have zero : lzcBInput i = 0 := by
        rw [flipped]
        exact BitVec.eq_of_toNat_eq (by rw [BitVec.ofNat_eq_ofNat, BitVec.toNat_zero]; omega)
      have all : divShift i = w := if_pos (beq_iff_eq.mpr zero)
      omega
  | false =>
      rw [magnitude_pos neg] at one
      have bound := i.opB.isLt
      rw [one] at bound
      rw [BitVec.ofNat_eq_ofNat, BitVec.toNat_ofNat, one, Nat.mod_eq_of_lt bound]

/-- Minus one divided by one: the dividend counts as zero, so that the divisor is taken to be
larger. -/
def MinusOneByOne (i : Input w) : Prop :=
  i.signed = true ∧ i.opA = BitVec.allOnes w ∧ i.opB = 1

theorem below_of_minusOne (large : 2 ≤ w) (bad : MinusOneByOne i) :
    divShift i < 0 ∧ i.dividend = 1 ∧ i.divisor = 1 ∧ i.negativeA = true ∧ i.negative = false := by
  obtain ⟨signed, ones, one⟩ := bad
  have small : (1 : BitVec w).toNat = 1 := by
    rw [BitVec.ofNat_eq_ofNat, BitVec.toNat_ofNat, Nat.mod_eq_of_lt]
    exact Nat.one_lt_two_pow (by omega)
  have four : 2 ^ 2 ≤ 2 ^ w := Nat.pow_le_pow_right Nat.two_pos large
  have positive : (i.signed && i.opB.msb) = false := by
    have low : i.opB.msb = false := by
      rw [BitVec.msb_eq_false_iff_two_mul_lt, one, small]
      omega
    rw [low, Bool.and_false]
  have negative : (i.signed && i.opA.msb) = true := by
    rw [signed, ones, Bool.true_and, BitVec.msb_allOnes (by omega)]
  have leading : lzcBInput i = 1 := by
    rw [lzcBInput, if_neg (Bool.eq_false_iff.mp positive), one]
  have some : lzcBInput i ≠ 0 := by
    intro zero
    rw [zero, BitVec.ofNat_eq_ofNat, BitVec.ofNat_eq_ofNat] at leading
    have numbers := congrArg BitVec.toNat leading
    rw [BitVec.toNat_zero, ← BitVec.ofNat_eq_ofNat, small] at numbers
    exact Nat.zero_ne_one numbers
  obtain ⟨dividend, shifted⟩ := dividend_minusOne i (by omega) ⟨signed, ones⟩
  refine ⟨?_, dividend, ?_, negative, positive⟩
  · have inside := clz_lt some
    rw [divShift_eq i some, shifted]
    omega
  · rw [Input.divisor, magnitude_pos positive, one, small]

/-- The early answer is right unless minus one is divided by one. -/
theorem load_answers (large : 2 ≤ w) (below : divShift i < 0) :
    result (load i) = answer i ↔ ¬ MinusOneByOne i := by
  have some := some_of_below below
  rw [(load_result i below).2, answer, quotient_eq some, remainder_eq some]
  constructor
  · intro same bad
    obtain ⟨-, dividend, divisor, negativeA, negative⟩ := below_of_minusOne large bad
    rw [dividend, divisor, negativeA, negative, Nat.mod_one, Nat.div_one, signedMag_zero] at same
    have wrong : signedMag w true 1 = 0 := by
      cases rem : i.rem with
      | true =>
          rw [rem, if_pos rfl, if_pos rfl] at same
          exact same
      | false =>
          rw [rem, if_neg Bool.false_ne_true, if_neg Bool.false_ne_true] at same
          exact same.symm
    have numbers := congrArg BitVec.toNat wrong
    have two : 2 ^ 1 < 2 ^ w := Nat.pow_lt_pow_right Nat.one_lt_two (by omega)
    rw [signedMag_toNat_neg (by omega) Nat.one_pos, BitVec.ofNat_eq_ofNat,
      BitVec.toNat_zero] at numbers
    omega
  · intro good
    have less : i.dividend < i.divisor := by
      by_cases one : i.minusOne
      · have dividend := (dividend_minusOne i (by omega) one).1
        have positive := divisor_pos i some
        have more : i.divisor ≠ 1 := fun same => good ⟨one.1, one.2, divisor_one below same⟩
        omega
      · exact dividend_lt_divisor i below one
    rw [Nat.div_eq_of_lt less, Nat.mod_eq_of_lt less, signedMag_zero]
    rfl

end Load

section Run

variable {i : Input w} {q : State w}

/-- The FSM while a result waits. -/
theorem next_done {x : Input w} (waits : done q = true) (running : x.flush = false) :
    next q x =
      { q with state := if x.outRdy then .idle else .finish, cnt := q.cnt - 1 } := by
  unfold done at waits
  unfold next loadEn stateNext
  cases state : q.state with
  | idle => simp [state] at waits
  | divide =>
      have answered : q.divResZero = true := by simpa [state] using waits
      simp [answered, running]
  | finish => simp [running]

/-- Without a flush the answer stays until it is taken. -/
theorem answering_next {x : Input w} (h : Answering i q) (running : x.flush = false) :
    if x.outRdy then (next q x).state = .idle else Answering i (next q x) := by
  rw [next_done h.waits running]
  split
  · rfl
  · exact ⟨rfl, h.id, h.value⟩

theorem idle_next {x : Input w} (idle : q.state = .idle) (quiet : x.inVld = false) :
    (next q x).state = .idle := by
  unfold next loadEn stateNext
  simp [idle, quiet]

/-- Whatever happens, a flush makes room for the next request. -/
theorem flush_idle {x : Input w} (flushed : x.flush = true) : (next q x).state = .idle := by
  unfold next loadEn stateNext
  simp [flushed]

/-- One accepted request: no result before cycle `n`, from then on the answer until it is taken,
and afterwards nothing before the next request. -/
structure Serves (s : State w) (i : Input w) (n : Nat) (inputs : Nat → Input w) : Prop where
  waits : ∀ t < n, outVld ((machine w).stateAt s inputs t) (inputs t) = false
  holds : ∀ t, n ≤ t → (∀ u, n ≤ u → u < t → (inputs u).outRdy = false) →
    outVld ((machine w).stateAt s inputs t) (inputs t) = true ∧
      ((machine w).stateAt s inputs t).id = i.id ∧
      result ((machine w).stateAt s inputs t) = answer i
  once : ∀ t, n ≤ t → (∀ u, n ≤ u → u < t → (inputs u).outRdy = false) →
    (inputs t).outRdy = true → ∀ v, t < v → (∀ u, t < u → u < v → (inputs u).inVld = false) →
    outVld ((machine w).stateAt s inputs v) (inputs v) = false

/-- The request that was loaded into `s` is answered in time, whenever the result is taken. -/
def Divides (s : State w) (i : Input w) : Prop :=
  ∃ n ≤ w + 1, ∀ inputs : Nat → Input w, (∀ t, (inputs t).flush = false) → Serves s i n inputs

variable {s : State w} {n : Nat} {inputs : Nat → Input w}

theorem answering_until (running : ∀ t, (inputs t).flush = false)
    (start : Answering i ((machine w).stateAt s inputs n)) {t : Nat} (later : n ≤ t)
    (kept : ∀ u, n ≤ u → u < t → (inputs u).outRdy = false) :
    Answering i ((machine w).stateAt s inputs t) := by
  induction t, later using Nat.le_induction with
  | base => exact start
  | succ t later ih =>
      have now := answering_next (ih fun u first before => kept u first (by omega)) (running t)
      rwa [if_neg (by rw [kept t later (by omega)]; exact Bool.false_ne_true)] at now

theorem idle_until {t : Nat} (start : ((machine w).stateAt s inputs t).state = .idle) {v : Nat}
    (later : t ≤ v) (quiet : ∀ u, t ≤ u → u < v → (inputs u).inVld = false) :
    ((machine w).stateAt s inputs v).state = .idle := by
  induction v, later using Nat.le_induction with
  | base => exact start
  | succ v later ih =>
      exact idle_next (ih fun u first before => quiet u first (by omega)) (quiet v later (by omega))

/-- A request is served if its answer appears in cycle `n`. -/
theorem serves_of_answering (running : ∀ t, (inputs t).flush = false)
    (busy : ∀ t < n, done ((machine w).stateAt s inputs t) = false)
    (start : Answering i ((machine w).stateAt s inputs n)) : Serves s i n inputs where
  waits t before := by rw [outVld, busy t before, Bool.false_and]
  holds t later kept := by
    have answers := answering_until running start later kept
    refine ⟨?_, answers.id, answers.value⟩
    rw [outVld, answers.waits, running t]
    rfl
  once t later kept taken v after quiet := by
    have answers := answering_until running start later kept
    have leaves := answering_next answers (running t)
    rw [if_pos taken] at leaves
    have left : ((machine w).stateAt s inputs (t + 1)).state = .idle := leaves
    have idle := idle_until left after quiet
    rw [outVld, done, idle, Bool.false_and]

/-- The loop, cycle after cycle. -/
theorem dividing_at (running : ∀ t, (inputs t).flush = false) {k : Nat}
    (start : Dividing i k s) {t : Nat} (before : t ≤ k) :
    Dividing i (k - t) ((machine w).stateAt s inputs t) := by
  induction t with
  | zero => exact start
  | succ t ih =>
      have now := ih (by omega)
      have place : k - t = k - (t + 1) + 1 := by omega
      rw [place] at now
      exact dividing_next now (running t)

/-- A division with a position to start at answers after its last position. -/
theorem divides_of_reaches (positive : 0 < w) (reaches : 0 ≤ divShift i) :
    Divides (load i) i := by
  have start := load_dividing i positive reaches
  have bound := divShift_le i
  refine ⟨(divShift i).toNat + 1, by omega, ?_⟩
  intro inputs running
  refine serves_of_answering running ?_ ?_
  · intro t before
    have now := dividing_at running start (Nat.le_of_lt_succ before)
    rw [done, now.state]
    exact now.divResZero
  · have last := dividing_at running start (Nat.le_refl _)
    rw [Nat.sub_self] at last
    exact dividing_last last (running _)

/-- An early answer is there at once. -/
theorem divides_iff_answers (below : divShift i < 0) :
    Divides (load i) i ↔ result (load i) = answer i := by
  have waits := (load_result i below).1
  constructor
  · intro ⟨n, _, serves⟩
    have serves := serves (fun _ => {}) fun _ => rfl
    have first : n = 0 := by
      rcases Nat.eq_zero_or_pos n with zero | some
      · exact zero
      · have silent := serves.waits 0 some
        rw [outVld, Machine.stateAt, waits] at silent
        simp at silent
    exact (serves.holds 0 (by omega) fun u _ before => absurd before (Nat.not_lt_zero u)).2.2
  · intro same
    refine ⟨0, Nat.zero_le _, fun inputs running => ?_⟩
    exact serves_of_answering running (fun t before => absurd before (Nat.not_lt_zero t))
      ⟨waits, rfl, same⟩

theorem load_divides_iff (large : 2 ≤ w) : Divides (load i) i ↔ ¬ MinusOneByOne i := by
  by_cases below : divShift i < 0
  · rw [divides_iff_answers below, load_answers large below]
  · refine iff_of_true (divides_of_reaches (by omega) (Int.not_lt.mp below)) ?_
    intro bad
    exact below (below_of_minusOne large bad).1

theorem next_load {x : Input w} (accepted : loadEn q x = true) : next q x = load x := by
  rw [next, if_pos accepted]

end Run

/-- Every accepted request is answered as the instruction set says, except minus one divided by
one; after a flush the next request is accepted and nothing is left of the last one. -/
theorem division_iff (large : 2 ≤ w) :
    (∀ (q : State w) (x i : Input w), x.flush = true → i.inVld = true → i.flush = false →
      loadEn (next q x) i = true) ∧
    ∀ (q : State w) (i : Input w), loadEn q i = true →
      (Divides (next q i) i ↔
        ¬ (i.signed = true ∧ i.opA = BitVec.allOnes w ∧ i.opB = 1)) := by
  refine ⟨?_, ?_⟩
  · intro q x i flushed requested running
    rw [loadEn, flush_idle flushed, requested, running]
    rfl
  · intro q i accepted
    rw [next_load accepted]
    exact load_divides_iff large

theorem division_iff_sixtyFour :
    2 ≤ 64 ∧ Divides (next (reset : State 64) { opA := -7, opB := 2, opcode := 1, inVld := true })
      { opA := -7, opB := 2, opcode := 1, inVld := true } :=
  ⟨by decide, ((division_iff (by decide)).2 reset _ (by decide)).mpr (by decide)⟩

/-- DIV of minus one by one shows zero. -/
theorem divides_minusOne_wrong :
    ¬ ∀ (q : State 64) (i : Input 64), loadEn q i = true → Divides (next q i) i := by
  intro all
  have divides := all reset { opA := -1, opB := 1, opcode := 1, inVld := true } (by decide)
  rw [next_load (by decide), load_divides_iff (by decide)] at divides
  exact divides ⟨by decide, by decide, by decide⟩

end Ariane.Serdiv
