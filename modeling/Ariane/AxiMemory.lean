import Ariane.AxiAdapterAnswers
import Ariane.Rtl.Bits

set_option autoImplicit false

/- A memory as the slave of the cache line adapter. -/
namespace Ariane.AxiAdapter

open Rtl (ofBits getLsbD_ofBits)

variable {p : Params}

/-- Byte `k` of a word. -/
def byteAt (word : BitVec 64) (k : Nat) : BitVec 8 := word.extractLsb' (8 * k) 8

/-- A word with the strobed bytes replaced. -/
def mergeBytes (old data : BitVec 64) (strb : BitVec 8) : BitVec 64 :=
  ofBits 64 fun j => if strb.getLsbD (j / 8) then data.getLsbD j else old.getLsbD j

theorem byteAt_mergeBytes (old data : BitVec 64) (strb : BitVec 8) {k : Nat} (inside : k < 8) :
    byteAt (mergeBytes old data strb) k =
      if strb.getLsbD k then byteAt data k else byteAt old k := by
  apply BitVec.eq_of_getLsbD_eq
  intro j low
  have bit : 8 * k + j < 64 := by omega
  have byte : (8 * k + j) / 8 = k := by omega
  rw [byteAt, BitVec.getLsbD_extractLsb', mergeBytes, getLsbD_ofBits, byte, decide_eq_true bit,
    decide_eq_true low, Bool.true_and, Bool.true_and]
  split
  · rw [byteAt, BitVec.getLsbD_extractLsb', decide_eq_true low, Bool.true_and]
  · rw [byteAt, BitVec.getLsbD_extractLsb', decide_eq_true low, Bool.true_and]

/-- The word and the byte of an address. -/
def wordOf (addr : BitVec 64) : BitVec 61 := addr.extractLsb' 3 61

def byteOf (addr : BitVec 64) : Nat := addr.toNat % 8

theorem byteOf_lt (addr : BitVec 64) : byteOf addr < 8 := Nat.mod_lt _ (by decide)

/-- An address is a word and a byte in it. -/
theorem addr_eq_iff (a b : BitVec 64) : a = b ↔ wordOf a = wordOf b ∧ byteOf a = byteOf b := by
  constructor
  · rintro rfl
    exact ⟨rfl, rfl⟩
  · rintro ⟨word, byte⟩
    apply BitVec.eq_of_toNat_eq
    have word := congrArg BitVec.toNat word
    rw [wordOf, wordOf, BitVec.extractLsb'_toNat, BitVec.extractLsb'_toNat,
      Nat.shiftRight_eq_div_pow, Nat.shiftRight_eq_div_pow] at word
    rw [byteOf, byteOf] at byte
    have first := a.isLt
    have second := b.isLt
    omega

/-- The byte at an address. -/
def Memory.byte (mem : Memory) (addr : BitVec 64) : BitVec 8 :=
  byteAt (mem (wordOf addr)) (byteOf addr)

/-- The memory with the beats of a burst from beat `j` on. -/
def AxiAddr.store {idWidth : Nat} (a : AxiAddr idWidth) : Nat → List AxiBeat → Memory → Memory
  | _, [], mem => mem
  | j, w :: rest, mem =>
      a.store (j + 1) rest fun k =>
        if k = a.beatWord j then mergeBytes (mem k) w.data w.strb else mem k

/-- The memory after the write of a record. -/
def Log.commit (l : Log p) (mem : Memory) : Memory :=
  match l.aws with
  | a :: _ => a.store 0 l.beats mem
  | [] => mem

/-- The word that the memory returns next. -/
def Log.nextWord (l : Log p) (mem : Memory) : BitVec 64 :=
  match l.ars with
  | a :: _ => mem (a.beatWord l.words.length)
  | [] => 0

/-- The words of the record come from the memory. -/
def Log.ReadFrom (l : Log p) (mem : Memory) : Prop :=
  ∀ a, l.ars = [a] → AxiAdapter.ReadFrom mem a l.words

theorem ReadFrom.concat {idWidth : Nat} {mem : Memory} {a : AxiAddr idWidth}
    {words : List (BitVec 64)} (served : AxiAdapter.ReadFrom mem a words) :
    AxiAdapter.ReadFrom mem a (words ++ [mem (a.beatWord words.length)]) := by
  intro j inside
  rw [List.length_append, List.length_singleton] at inside
  by_cases early : j < words.length
  · rw [List.getElem_append_left early]
    exact served j early
  · have last : j = words.length := by omega
    subst last
    rw [List.getElem_concat_length rfl]

section Step

variable {s : Bench p} {i : Input p} {mem : Memory}

theorem arValid_of_rReady {q : Regs p} {i : Input p} (ready : (axiFsm q i).rReady = true) :
    (axiFsm q i).arValid = false := by
  cases state : q.state with
  | idle =>
      rw [axiFsm, state] at ready
      cases req : i.req <;> cases we : i.request.we <;> cases single : i.request.single <;>
        simp [req, we, single, idleWrite, idleRead, defaults] at ready
  | waitAwReady | waitAwReadyBurst =>
      rw [axiFsm, state] at ready
      cases aw : i.awReady <;> simp [aw, defaults] at ready
  | waitLastWReady =>
      rw [axiFsm, state, waitWords_eq] at ready
      cases ready
  | waitLastWReadyAwReady =>
      rw [axiFsm, state, waitBoth_eq] at ready
      cases ready
  | waitBValid =>
      rw [axiFsm, state] at ready
      cases b : i.bValid <;> simp [b, defaults] at ready
  | waitRValid | waitRValidMultiple =>
      rw [axiFsm, state]
      exact (waitRead_offers q i).2.2.1
  | completeRead =>
      rw [axiFsm, state] at ready
      cases ready

/-- The response of a write is awaited after the grant. -/
theorem gnt_of_waitBValid {q : Regs p} {i : Input p}
    (waits : (axiFsm q i).regs.state = .waitBValid) :
    q.state = .waitBValid ∨ (axiFsm q i).gnt = true := by
  cases state : q.state with
  | waitBValid => exact .inl rfl
  | idle =>
      right
      rw [axiFsm, state] at waits ⊢
      cases req : i.req <;> cases we : i.request.we <;> cases single : i.request.single <;>
        cases aw : i.awReady <;> cases w : i.wReady <;> cases ar : i.arReady <;>
        simp [req, we, single, aw, w, ar, idleWrite, idleRead, defaults] at waits ⊢
  | waitAwReady | waitAwReadyBurst =>
      right
      rw [axiFsm, state] at waits ⊢
      cases aw : i.awReady <;> simp [aw, defaults, state] at waits ⊢
  | waitLastWReady =>
      right
      rw [axiFsm, state] at waits ⊢
      by_cases last : q.cnt = 0#_ <;> cases w : i.wReady <;>
        simp [last, w, waitWords, defaults, state] at waits ⊢
  | waitLastWReadyAwReady =>
      right
      rw [axiFsm, state] at waits ⊢
      by_cases last : q.cnt = 0#_ <;> cases aw : i.awReady <;> cases w : i.wReady <;>
        simp [last, aw, w, waitBoth, defaults, state] at waits ⊢
  | waitRValid | waitRValidMultiple =>
      rw [axiFsm, state] at waits
      cases r : i.rValid <;> cases last : i.rLast <;>
        simp [r, last, waitRead, defaults, state] at waits
  | completeRead =>
      rw [axiFsm, state] at waits
      cases waits

/-- Words are there only after an address. -/
theorem Phase.words_eq_nil (phase : Phase s) (none : s.log.ars = []) : s.log.words = [] := by
  cases phase with
  | idle idle => rw [idle.log]
  | write r sent k write => exact write.log.words
  | read r read =>
      rw [read.log.ars] at none
      cases none
  | complete r done =>
      rw [done.log.ars] at none
      cases none

/-- A cycle with the memory as the slave. -/
theorem Phase.readFrom_record (phase : Phase s) (served : s.log.ReadFrom mem)
    (word : i.rData = s.log.nextWord mem) : (s.record i).ReadFrom mem := by
  intro a ars
  have ars : s.log.ars ++
      (if ((s.output i).arValid && i.arReady) = true then [(s.output i).ar] else []) = [a] := ars
  show AxiAdapter.ReadFrom mem a
    (s.log.words ++ if ((s.output i).rReady && i.rValid) = true then [i.rData] else [])
  by_cases beat : ((s.output i).rReady && i.rValid) = true
  · rw [if_pos beat]
    rw [Bool.and_eq_true] at beat
    have waits : (s.output i).arValid = false := arValid_of_rReady beat.1
    rw [waits, Bool.false_and, if_neg Bool.false_ne_true, List.append_nil] at ars
    rw [word, Log.nextWord, ars]
    exact (served a ars).concat
  · rw [if_neg beat, List.append_nil]
    cases before : s.log.ars with
    | nil =>
        rw [phase.words_eq_nil before]
        intro j inside
        exact absurd inside (Nat.not_lt_zero j)
    | cons first rest =>
        rw [before, List.cons_append, List.cons.injEq, List.append_eq_nil_iff] at ars
        rw [ars.1, ars.2.1] at before
        exact served a before

theorem Phase.readFrom_next (phase : Phase s) (served : s.log.ReadFrom mem)
    (word : i.rData = s.log.nextWord mem) : (s.next i).log.ReadFrom mem := by
  cases valid : (s.output i).valid with
  | true =>
      rw [next_log_of_valid valid]
      intro a none
      cases none
  | false =>
      rw [next_log valid]
      exact phase.readFrom_record served word

/-- A response is for what was granted; that of a write is taken from the bus. -/
theorem Phase.responds (phase : Phase s) (contract : Contract s i)
    (valid : (s.output i).valid = true) :
    ∃ r, s.log.granted = [r] ∧ (s.output i).bReady = r.we := by
  cases phase with
  | idle idle =>
      rcases state_of_valid valid with state | state
      · cases idle.state.symm.trans state
      · cases idle.state.symm.trans state
  | write r sent k write =>
      obtain ⟨we, wide, sending, pending, log⟩ := write
      have cycle : WriteCycle r i sent k (s.output i) :=
        sending.cycle (fun busy => contract.held r (pending busy)) we wide
      have all : allSent r sent k = true := by
        have waits := cycle.valid.symm.trans valid
        rw [Bool.and_eq_true] at waits
        exact waits.1
      refine ⟨r, ?_, ?_⟩
      · rw [log.granted, if_pos all]
      · rw [cycle.bReady, all, we]
  | read r read =>
      have fsm := read.reading.fsm (i := i)
      rw [fsm, (waitRead_offers s.regs i).2.2.2.2.2] at valid
      cases valid
  | complete r done =>
      refine ⟨r, done.log.granted, ?_⟩
      rw [output_completeRead done.state, done.we]
      rfl

end Step

section Single

variable {r : Request p} {l : Log p}

/-- A single write changes the strobed bytes of its word. -/
theorem Written.commit_single (written : Written r l) (single : r.single = true) (mem : Memory)
    (k : BitVec 61) :
    l.commit mem k =
      if k = r.word then mergeBytes (mem k) (r.wdata (firstLane p)) (r.be (firstLane p))
      else mem k := by
  have first : (⟨0 % 2 ^ p.wordBits, Nat.mod_lt _ (Nat.two_pow_pos _)⟩ : Lane p) = firstLane p :=
    Fin.ext (Nat.zero_mod _)
  have word : r.aw.beatWord 0 = r.word := by
    apply BitVec.eq_of_toNat_eq
    rw [AxiAddr.beatWord, AxiAddr.beatAddr, Request.aw, Request.word, single,
      BitVec.extractLsb'_toNat, BitVec.toNat_ofNat, Nat.shiftRight_eq_div_pow]
    rfl
  rw [Log.commit, written.aws, written.beats, count_single single]
  show (if k = r.aw.beatWord 0 then _ else _) = _
  rw [word, ← first]
  rfl

/-- Byte by byte. -/
theorem Written.commit_byte (written : Written r l) (single : r.single = true) (mem : Memory)
    (a : BitVec 64) :
    (l.commit mem).byte a =
      if wordOf a = wordOf r.addr ∧ (r.be (firstLane p)).getLsbD (byteOf a) = true then
        byteAt (r.wdata (firstLane p)) (byteOf a)
      else mem.byte a := by
  rw [Memory.byte, written.commit_single single]
  by_cases word : wordOf a = r.word
  · have here : wordOf a = wordOf r.addr := word
    rw [if_pos word, byteAt_mergeBytes _ _ _ (byteOf_lt a)]
    by_cases strobed : (r.be (firstLane p)).getLsbD (byteOf a) = true
    · rw [if_pos strobed, if_pos ⟨here, strobed⟩]
    · rw [if_neg strobed, if_neg fun both => strobed both.2]
      rfl
  · rw [if_neg word, if_neg fun both => word both.1]
    rfl

/-- A single read returns its word. -/
theorem Returned.single_word {rdata : Words p} (returned : Returned r l rdata)
    (single : r.single = true) {mem : Memory} (served : l.ReadFrom mem) :
    rdata (firstLane p) = mem r.word :=
  returned.single single mem (served _ returned.ars)

end Single

end Ariane.AxiAdapter
