import Ariane.AxiAdapterWrite

set_option autoImplicit false

/- The words of a read burst find their places in the line. -/
namespace Ariane.AxiAdapter

variable {p : Params}

/-- The index of the addressed word in its line. -/
def Request.offset (r : Request p) : Nat := r.addr.toNat / 8 % 2 ^ p.wordBits

/-- The index of the first word that is read. -/
def Request.start (r : Request p) : Nat :=
  if r.single then 0 else if p.criticalWordFirst then r.offset else 0

/-- The place of word `j` of the burst. -/
def Request.slot (r : Request p) (j : Nat) : Lane p :=
  ⟨(r.start + j) % 2 ^ p.wordBits, Nat.mod_lt _ (Nat.two_pow_pos _)⟩

/-- The number of the beat with the addressed word. -/
def Request.criticalBeat (r : Request p) : Nat := if p.criticalWordFirst then 0 else r.offset

/-- The words that came are in their places. -/
def Stored (r : Request p) (line : Words p) (words : List (BitVec 64)) : Prop :=
  ∀ j (h : j < words.length), line (r.slot j) = words[j]

/-- The state while `words` have come and more are expected. -/
structure Reading (r : Request p) (q : Regs p) (words : List (BitVec 64)) : Prop where
  state : q.state = if r.single then .waitRValid else .waitRValidMultiple
  due : words.length < r.count
  cnt : q.cnt = cntOf p (r.count - 1 - words.length)
  addrOffset : q.addrOffset = r.addr.extractLsb' 3 (addrIndex p)
  stored : Stored r q.cacheLine words

section Slot

variable {r : Request p}

theorem slot_single (single : r.single = true) : r.slot 0 = firstLane p := by
  apply Fin.ext
  show (r.start + 0) % 2 ^ p.wordBits = 0
  rw [Request.start, if_pos single, Nat.zero_mod]

theorem slot_ne {j k : Nat} (apart : j < k) (due : k < r.count) : r.slot j ≠ r.slot k := by
  intro same
  have same : (r.start + j) % 2 ^ p.wordBits = (r.start + k) % 2 ^ p.wordBits :=
    congrArg Fin.val same
  have count := count_le r
  have size := burstSize_add p
  have close : k - j < 2 ^ p.wordBits := by omega
  have whole : 2 ^ p.wordBits ∣ (r.start + k) - (r.start + j) :=
    Nat.dvd_of_mod_eq_zero (Nat.sub_mod_eq_zero_of_mod_eq same.symm)
  have gap : (r.start + k) - (r.start + j) = k - j := by omega
  rw [gap] at whole
  have none := Nat.eq_zero_of_dvd_of_lt whole close
  omega

theorem exists_slot (line : r.single = false) (k : Lane p) : ∃ j < r.count, r.slot j = k := by
  have size := burstSize_add p
  have bound : r.start < 2 ^ p.wordBits := by
    rw [Request.start, line]
    split
    · exact absurd ‹_› Bool.false_ne_true
    · split
      · exact Nat.mod_lt _ (Nat.two_pow_pos _)
      · exact Nat.two_pow_pos _
  have inside := k.isLt
  rw [count_line line, size]
  by_cases after : r.start ≤ k.val
  · refine ⟨k.val - r.start, by omega, Fin.ext ?_⟩
    show (r.start + (k.val - r.start)) % 2 ^ p.wordBits = k.val
    rw [Nat.add_sub_cancel' after, Nat.mod_eq_of_lt inside]
  · refine ⟨k.val + 2 ^ p.wordBits - r.start, by omega, Fin.ext ?_⟩
    show (r.start + (k.val + 2 ^ p.wordBits - r.start)) % 2 ^ p.wordBits = k.val
    rw [Nat.add_sub_cancel' (by omega), Nat.add_mod_right, Nat.mod_eq_of_lt inside]

/-- A word more in its place. -/
theorem Stored.concat {line line' : Words p} {words : List (BitVec 64)} (stored : Stored r line words)
    (due : words.length < r.count) {data : BitVec 64} (here : line' (r.slot words.length) = data)
    (others : ∀ k, k ≠ r.slot words.length → line' k = line k) :
    Stored r line' (words ++ [data]) := by
  intro j bound
  rw [List.length_append, List.length_singleton] at bound
  by_cases early : j < words.length
  · rw [List.getElem_append_left early, others _ (slot_ne early due)]
    exact stored j early
  · have last : j = words.length := by omega
    subst last
    rw [List.getElem_concat_length rfl]
    exact here

end Slot

section Cycle

variable {r : Request p} {q : Regs p} {words : List (BitVec 64)} {i : Input p}

theorem addrIndex_of_wide (wide : 0 < p.wordBits) : addrIndex p = p.wordBits := if_pos wide

theorem burstCnt_sub {left done : Nat} (all : left + done = burstSize p) :
    burstCnt p - cntOf p left = cntOf p done := by
  have added : burstCnt p = cntOf p left + cntOf p done := by
    rw [burstCnt_eq, ← all]
    exact BitVec.ofNat_add left done
  rw [added, BitVec.add_comm, BitVec.add_sub_cancel]

theorem Reading.readIndex (reading : Reading r q words) (line : r.single = false)
    (wide : 0 < p.wordBits) : (readIndex q).toNat = (r.slot words.length).val := by
  obtain ⟨-, due, cnt, addrOffset, -⟩ := reading
  have size := burstSize_add p
  have count := count_line line
  have index := addrIndex_of_wide wide
  have gone : burstCnt p - q.cnt = cntOf p words.length := by
    rw [cnt]
    exact burstCnt_sub (by omega)
  show _ = (r.start + words.length) % 2 ^ p.wordBits
  rw [AxiAdapter.readIndex, gone, Request.start, line, if_neg Bool.false_ne_true]
  cases p.criticalWordFirst with
  | true =>
      rw [if_pos rfl, if_pos rfl, BitVec.toNat_add, toNat_cntOf (by omega), addrOffset,
        BitVec.extractLsb'_toNat, Nat.shiftRight_eq_div_pow, index]
      rfl
  | false =>
      rw [if_neg Bool.false_ne_true, if_neg Bool.false_ne_true, toNat_cntOf (by omega), Nat.zero_add,
        Nat.mod_eq_of_lt (by omega)]

/-- The critical word is given out with its beat. -/
theorem Reading.critical (reading : Reading r q words) (line : r.single = false)
    (wide : 0 < p.wordBits) (beat : i.rValid = true) :
    (waitRead q i).criticalWordValid = decide (words.length = r.criticalBeat) ∧
      (waitRead q i).criticalWord = i.rData := by
  have index := reading.readIndex line wide
  obtain ⟨state, due, cnt, addrOffset, -⟩ := reading
  have size := burstSize_add p
  have count := count_line line
  rw [line, if_neg Bool.false_ne_true] at state
  rw [waitRead, beat]
  refine ⟨?_, rfl⟩
  show (if p.criticalWordFirst = true then _ else _) = _
  rw [Request.criticalBeat, state]
  cases first : p.criticalWordFirst with
  | true =>
      rw [if_pos rfl, if_pos rfl, beq_self_eq_true, Bool.true_and, Bool.eq_iff_iff, beq_iff_eq,
        decide_eq_true_iff, ← BitVec.toNat_inj, cnt, burstCnt_eq, toNat_cntOf (by omega),
        toNat_cntOf (Nat.le_refl _)]
      omega
  | false =>
      have slot : (r.slot words.length).val = words.length := by
        show (r.start + words.length) % 2 ^ p.wordBits = _
        rw [Request.start, line, first, if_neg Bool.false_ne_true, if_neg Bool.false_ne_true,
          Nat.zero_add, Nat.mod_eq_of_lt (by omega)]
      have offset : q.addrOffset.toNat = r.offset := by
        rw [addrOffset, BitVec.extractLsb'_toNat, Nat.shiftRight_eq_div_pow,
          addrIndex_of_wide wide]
        rfl
      rw [if_neg Bool.false_ne_true, if_neg Bool.false_ne_true, Bool.eq_iff_iff, beq_iff_eq,
        decide_eq_true_iff, ← BitVec.toNat_inj, index, slot, offset]

theorem Reading.multiple (reading : Reading r q words) (line : r.single = false) :
    q.state = .waitRValidMultiple := by
  rw [reading.state, line]
  rfl

theorem Reading.store (reading : Reading r q words) (wide : r.single = false → 0 < p.wordBits)
    (beat : i.rValid = true) :
    Stored r (waitRead q i).regs.cacheLine (words ++ [i.rData]) := by
  rw [waitRead, beat]
  apply reading.stored.concat reading.due
  · show (if q.state = .waitRValidMultiple then _ else _ : Words p) _ = _
    cases single : r.single with
    | true =>
        have first : words.length = 0 := by
          have due := reading.due
          rw [count_single single] at due
          omega
        rw [reading.state, single, first, slot_single single]
        rfl
    | false =>
        rw [reading.multiple single, if_pos rfl]
        rw [reading.readIndex single (wide single), if_pos rfl]
  · intro k other
    show (if q.state = .waitRValidMultiple then _ else _ : Words p) k = _
    cases single : r.single with
    | true =>
        have first : words.length = 0 := by
          have due := reading.due
          rw [count_single single] at due
          omega
        rw [first, slot_single single] at other
        rw [reading.state, single]
        show (if k.val = 0 then _ else _) = _
        rw [if_neg]
        exact fun zero => other (Fin.ext zero)
    | false =>
        rw [reading.multiple single, if_pos rfl]
        rw [reading.readIndex single (wide single), if_neg]
        exact fun same => other (Fin.ext same)

theorem Reading.next (reading : Reading r q words) (wide : r.single = false → 0 < p.wordBits)
    (beat : i.rValid = true) (more : i.rLast = false) (due : words.length + 1 < r.count) :
    Reading r (waitRead q i).regs (words ++ [i.rData]) := by
  have stored := reading.store wide beat
  refine ⟨?_, ?_, ?_, ?_, stored⟩
  · rw [waitRead, beat]
    show (if i.rLast = true then _ else q.state) = _
    rw [more, if_neg Bool.false_ne_true]
    exact reading.state
  · rw [List.length_append]
    exact due
  · rw [waitRead, beat, List.length_append, List.length_singleton]
    show q.cnt - 1 = _
    have left : r.count - 1 - words.length = r.count - 1 - (words.length + 1) + 1 := by omega
    rw [reading.cnt, left, cntOf_sub_one]
  · rw [waitRead, beat]
    exact reading.addrOffset

theorem waitRead_quiet (none : i.rValid = false) : (waitRead q i).regs = q := by
  rw [waitRead, none]
  rfl

end Cycle

section Bus

variable {r : Request p}

/-- The bus counts the words of a burst in eight bits. -/
theorem len_toNat (fits : p.wordBits ≤ 8) (r : Request p) : r.ar.len.toNat + 1 = r.count := by
  have count := count_line (r := r)
  rw [Request.ar]
  cases single : r.single with
  | true =>
      rw [count_single single]
      rfl
  | false =>
      have small : 2 ^ p.wordBits ≤ 2 ^ 8 := Nat.pow_le_pow_right Nat.two_pos fits
      have size := burstSize_add p
      rw [count single]
      show (BitVec.ofNat 8 (burstSize p)).toNat + 1 = _
      rw [BitVec.toNat_ofNat, Nat.mod_eq_of_lt (by omega)]

theorem beatWord_single (single : r.single = true) : r.ar.beatWord 0 = r.word := by
  apply BitVec.eq_of_toNat_eq
  rw [AxiAddr.beatWord, AxiAddr.beatAddr, Request.ar, Request.word, single, BitVec.extractLsb'_toNat,
    BitVec.toNat_ofNat, Nat.shiftRight_eq_div_pow, Bool.or_true]
  rfl

/-- A word of a burst that begins at the line. -/
theorem incr_word {m : Nat} (a j : Nat) : (a / (8 * m) * (8 * m) / 8 * 8 + j * 8) / 8 =
    a / 8 / m * m + j := by
  have base : a / (8 * m) * (8 * m) = a / 8 / m * m * 8 := by
    rw [Nat.div_div_eq_div_mul, Nat.mul_comm 8 m, Nat.mul_assoc]
  rw [base, Nat.mul_div_cancel _ (by omega), ← Nat.add_mul, Nat.mul_div_cancel _ (by omega)]

/-- A word of a burst that wraps at the end of the line. -/
theorem wrap_word {m : Nat} (a j : Nat) :
    (a / (8 * m) * (8 * m) + (a + j * 8) % (8 * m)) / 8 = a / 8 / m * m + (a / 8 % m + j) % m := by
  have base : a / (8 * m) * (8 * m) = 8 * (a / 8 / m * m) := by
    rw [Nat.div_div_eq_div_mul, Nat.mul_left_comm]
  rw [base, Nat.mul_add_div (by omega), Nat.mod_mul_right_div_self,
    Nat.add_mul_div_right _ _ (by omega), Nat.mod_add_mod]

/-- Each beat of a line comes from the word of its place. -/
theorem beatWord_line (fits : p.wordBits ≤ 8) (line : r.single = false) (size : r.size = 3)
    (aligned : p.criticalWordFirst = true ∨ p.byteOffset = p.wordBits + 3) {j : Nat}
    (due : j < r.count) : r.ar.beatWord j = r.lineWord (r.slot j) := by
  have total := burstSize_add p
  have count := count_line line
  have len := len_toNat fits r
  have bytes : 2 ^ r.ar.size.toNat = 8 := by
    rw [Request.ar, size]
    rfl
  rw [AxiAddr.beatWord, Request.lineWord]
  congr 1
  rw [AxiAddr.beatAddr, bytes]
  cases first : p.criticalWordFirst with
  | true =>
      have burst : r.ar.burst = .wrap := by
        rw [Request.ar, line, first]
        rfl
      have addr : r.ar.addr = r.addr := by
        rw [Request.ar, first]
        rfl
      have start : r.start = r.offset := by
        rw [Request.start, line, first]
        rfl
      rw [burst, addr]
      dsimp only
      rw [len, count, total, wrap_word]
      show _ = _ + (r.start + j) % 2 ^ p.wordBits
      rw [start]
      rfl
  | false =>
      have burst : r.ar.burst = .incr := by
        rw [Request.ar, line, first]
        rfl
      have offset : p.byteOffset = p.wordBits + 3 :=
        aligned.resolve_left (first ▸ Bool.false_ne_true)
      have addr : r.ar.addr.toNat = r.addr.toNat / (8 * 2 ^ p.wordBits) * (8 * 2 ^ p.wordBits) := by
        have below := r.addr.isLt
        have cleared := Nat.div_mul_le_self r.addr.toNat (2 ^ (p.wordBits + 3))
        rw [Request.ar, line, first]
        show (lineAddr p r.addr).toNat = _
        rw [lineAddr, offset, BitVec.toNat_shiftLeft, BitVec.toNat_ushiftRight,
          Nat.shiftRight_eq_div_pow, Nat.shiftLeft_eq, Nat.mod_eq_of_lt (by omega), Nat.pow_add,
          Nat.mul_comm (2 ^ p.wordBits)]
      have start : r.start = 0 := by
        rw [Request.start, line, first]
        rfl
      rw [burst]
      dsimp only
      rw [addr, incr_word]
      show _ = _ + (r.start + j) % 2 ^ p.wordBits
      rw [start, Nat.zero_add, Nat.mod_eq_of_lt (by omega)]

theorem criticalBeat_spec (line : r.single = false) :
    r.criticalBeat < r.count ∧ r.lineWord (r.slot r.criticalBeat) = r.word := by
  have size := burstSize_add p
  have count := count_line line
  have bound : r.offset < 2 ^ p.wordBits := Nat.mod_lt _ (Nat.two_pow_pos _)
  have positive := Nat.two_pow_pos p.wordBits
  have place : (r.slot r.criticalBeat).val = r.offset := by
    show (r.start + r.criticalBeat) % 2 ^ p.wordBits = r.offset
    rw [Request.start, Request.criticalBeat, line, if_neg Bool.false_ne_true]
    split
    · exact Nat.mod_eq_of_lt bound
    · rw [Nat.zero_add, Nat.mod_eq_of_lt bound]
  constructor
  · rw [Request.criticalBeat]
    split <;> omega
  · apply BitVec.eq_of_toNat_eq
    rw [Request.lineWord, place, Request.offset, Request.word, BitVec.toNat_ofNat,
      BitVec.extractLsb'_toNat, Nat.shiftRight_eq_div_pow, Nat.div_add_mod']

/-- A read that has all its words returns those of the memory. -/
theorem Stored.returned (fits : p.wordBits ≤ 8) {line : Words p} {words : List (BitVec 64)}
    (stored : Stored r line words) (all : words.length = r.count) (mem : Memory)
    (served : ReadFrom mem r.ar words) :
    (r.single = true → line (firstLane p) = mem r.word) ∧
      (r.single = false → r.size = 3 →
        p.criticalWordFirst = true ∨ p.byteOffset = p.wordBits + 3 →
          (∀ k, line k = mem (r.lineWord k)) ∧
            (words.drop r.criticalBeat).take 1 = [mem r.word]) := by
  constructor
  · intro single
    have first : 0 < words.length := by
      rw [all]
      exact count_pos r
    rw [← slot_single single, stored 0 first, served 0 first, beatWord_single single]
  · intro single size aligned
    constructor
    · intro k
      obtain ⟨j, due, rfl⟩ := exists_slot single k
      rw [stored j (by omega), served j (by omega), beatWord_line fits single size aligned due]
    · obtain ⟨due, word⟩ := criticalBeat_spec single
      have inside : r.criticalBeat < words.length := by omega
      rw [List.drop_eq_getElem_cons inside, List.take_succ_cons, List.take_zero,
        served _ inside, beatWord_line fits single size aligned due, word]

end Bus

end Ariane.AxiAdapter
