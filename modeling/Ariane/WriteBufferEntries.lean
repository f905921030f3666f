import Ariane.WriteBuffer
import Mathlib.Data.Fintype.Card

set_option autoImplicit false

/- The bytes of the write buffer and the transaction slots agree in every run. -/
namespace Ariane.WriteBuffer

open RrArbiter (anyBit count)
open Rtl (Machine)

variable {g : Geometry} {t : Transfers}

section Entry

variable {q : State g} {i : Input g} {k : Fin g.depth} {j : Fin 8}

/-- The bytes of an entry whose transaction leaves in this cycle. -/
def released (q : State g) (i : Input g) (k : Fin g.depth) : Bytes := fun j =>
  evict q i && decide (k = rtrnPtr q) && (q.txStat (rtrnId q)).be j

/-- The bytes of an entry that are sent in this cycle. -/
def sends (t : Transfers) (q : State g) (i : Input g) (k : Fin g.depth) : Bytes := fun j =>
  dirtyRdEn q i && decide (k = dirtyPtr q) && txBe t q j

/-- The bytes of an entry that the core writes in this cycle. -/
def writes (q : State g) (i : Input g) (k : Fin g.depth) : Bytes := fun j =>
  wbufferWren q i && decide (k = wrPtr q i) && i.dataBe j

theorem nextEntry_valid : (nextEntry t q i k).valid j =
    (((q.wbuffer k).valid j && !(released q i k j && !(q.wbuffer k).dirty j)) ||
      writes q i k j) := by
  simp only [nextEntry, released, writes, apply_ite Entry.valid, apply_ite Entry.dirty,
    ite_apply, Entry.mark, Entry.release, Entry.send, Entry.write, ite_self]
  cases evict q i && decide (k = rtrnPtr q) <;> cases wbufferWren q i && decide (k = wrPtr q i) <;>
    simp

theorem nextEntry_dirty : (nextEntry t q i k).dirty j =
    (((q.wbuffer k).dirty j && !sends t q i k j) || writes q i k j) := by
  simp only [nextEntry, sends, writes, apply_ite Entry.dirty, ite_apply, Entry.mark,
    Entry.release, Entry.send, Entry.write, ite_self]
  cases dirtyRdEn q i && decide (k = dirtyPtr q) <;>
    cases wbufferWren q i && decide (k = wrPtr q i) <;> simp

theorem nextEntry_txblock : (nextEntry t q i k).txblock j =
    (((q.wbuffer k).txblock j && !released q i k j) || sends t q i k j) := by
  simp only [nextEntry, released, sends, apply_ite Entry.txblock, ite_apply, Entry.mark,
    Entry.release, Entry.send, Entry.write, ite_self]
  cases evict q i && decide (k = rtrnPtr q) <;> cases dirtyRdEn q i && decide (k = dirtyPtr q) <;>
    simp

theorem nextEntry_wtag : (nextEntry t q i k).wtag =
    if wbufferWren q i && decide (k = wrPtr q i) then requestTag i else (q.wbuffer k).wtag := by
  simp only [nextEntry, apply_ite Entry.wtag, Entry.mark, Entry.release, Entry.send, Entry.write,
    ite_self]

theorem nextEntry_data : (nextEntry t q i k).data j =
    if writes q i k j then i.dataWdata j else (q.wbuffer k).data j := by
  simp only [nextEntry, apply_ite Entry.data, ite_apply, Entry.mark, Entry.release, Entry.send,
    Entry.write, ite_self]
  by_cases write : (wbufferWren q i && decide (k = wrPtr q i)) = true
  · have bytes : writes q i k j = i.dataBe j := by rw [writes, write, Bool.true_and]
    rw [if_pos write, bytes]
  · have bytes : writes q i k j = false := by
      rw [writes, eq_false_of_ne_true write, Bool.false_and]
    rw [if_neg write, bytes, if_neg Bool.false_ne_true]

end Entry

/-- Valid, dirty and in flight: the states of a byte. -/
def ByteState (valid dirty txblock : Bool) : Prop :=
  (valid, dirty, txblock) = (false, false, false) ∨ (valid, dirty, txblock) = (true, true, false) ∨
    (valid, dirty, txblock) = (true, false, true) ∨ (valid, dirty, txblock) = (true, true, true)

/-- A byte is valid exactly while it is dirty or in flight. -/
theorem byteState_iff (v d x : Bool) : ByteState v d x ↔ v = (d || x) := by
  unfold ByteState
  cases v <;> cases d <;> cases x <;> simp

/-- What a write, a transmission and a release do to the state of a byte. -/
theorem byteState_next {v d x r e w : Bool} (state : ByteState v d x)
    (leaves : r = true → x = true) (sent : e = true → d = true ∧ x = false) :
    ByteState ((v && !(r && !d)) || w) ((d && !e) || w) ((x && !r) || e) := by
  rw [byteState_iff] at state ⊢
  subst state
  cases e with
  | true =>
      obtain ⟨rfl, rfl⟩ := sent rfl
      cases r <;> simp
  | false =>
      cases r with
      | true =>
          rw [leaves rfl]
          cases d <;> cases w <;> rfl
      | false => cases d <;> cases x <;> cases w <;> rfl

/-- What holds between two cycles. -/
structure Sound (s : System g) : Prop where
  bytes : ∀ k j, ByteState ((s.buffer.wbuffer k).valid j) ((s.buffer.wbuffer k).dirty j)
    ((s.buffer.wbuffer k).txblock j)
  unique : ∀ k k', valid s.buffer k = true → valid s.buffer k' = true →
    (s.buffer.wbuffer k).wtag = (s.buffer.wbuffer k').wtag → k = k'
  points : ∀ x, txVld s.buffer x = true → ∀ j,
    (s.buffer.txStat x).be j = (s.buffer.wbuffer (s.buffer.txStat x).ptr).txblock j
  carries : ∀ x, txVld s.buffer x = true → anyBit (s.buffer.txStat x).be = true
  apart : ∀ x y, txVld s.buffer x = true → txVld s.buffer y = true →
    (s.buffer.txStat x).ptr = (s.buffer.txStat y).ptr → x = y
  covered : ∀ k, anyBit (s.buffer.wbuffer k).txblock = true →
    ∃ x, txVld s.buffer x = true ∧ (s.buffer.txStat x).ptr = k
  waits : ∀ x, s.waits x = true → txVld s.buffer x = true
  queue : ∃ held, FifoV3.Holds g.maxTx s.buffer.rtrnIdFifo held ∧ held.Nodup ∧
    ∀ x, x ∈ held ↔ txVld s.buffer x = true ∧ s.waits x = false
  dirtyKept : RrArbiter.Kept s.buffer.dirtyRr (dirty s.buffer)
  txIdKept : RrArbiter.Kept s.buffer.txIdRr fun x => !txVld s.buffer x

section Step

variable {s : System g} {i : Input g} {k : Fin g.depth} {j : Fin 8}

/-- A transaction in flight keeps its entry valid. -/
theorem Sound.valid_ptr (sound : Sound s) {x : Fin g.maxTx} (vld : txVld s.buffer x = true) :
    valid s.buffer (s.buffer.txStat x).ptr = true := by
  obtain ⟨j, bit⟩ := (RrArbiter.anyBit_iff _).mp (sound.carries x vld)
  rw [sound.points x vld] at bit
  rw [valid, RrArbiter.anyBit_iff]
  refine ⟨j, ?_⟩
  rw [(byteState_iff _ _ _).mp (sound.bytes _ j), bit, Bool.or_true]

/-- The oldest response is for a transaction in flight. -/
theorem Sound.returned (sound : Sound s) (some : rtrnEmpty s.buffer = false) :
    txVld s.buffer (rtrnId s.buffer) = true ∧ s.waits (rtrnId s.buffer) = false := by
  obtain ⟨held, holds, -, ids⟩ := sound.queue
  have filled : held ≠ [] := by
    intro none
    have empty := holds.empty_iff.mpr none
    exact absurd (some.symm.trans empty) Bool.false_ne_true
  obtain ⟨x, rest, rfl⟩ := List.exists_cons_of_ne_nil filled
  apply (ids _).mp
  rw [rtrnId, holds.front]
  exact List.mem_cons_self

theorem not_empty_of_evict {q : State g} (evicts : evict q i = true) : rtrnEmpty q = false := by
  rw [evict, Bool.and_eq_true, Bool.and_eq_true, Bool.not_eq_true'] at evicts
  exact evicts.1.1

/-- The bytes that are released are all that the entry has in flight. -/
theorem Sound.released_eq (sound : Sound s) : released s.buffer i k j =
    (evict s.buffer i && decide (k = rtrnPtr s.buffer) &&
      (s.buffer.wbuffer k).txblock j) := by
  rw [released]
  by_cases leaves : (evict s.buffer i && decide (k = rtrnPtr s.buffer)) = true
  · rw [Bool.and_eq_true, decide_eq_true_iff] at leaves
    obtain ⟨vld, -⟩ := sound.returned (not_empty_of_evict leaves.1)
    rw [sound.points _ vld, leaves.2]
    rfl
  · rw [eq_false_of_ne_true leaves, Bool.false_and, Bool.false_and]

/-- The entry that is sent. -/
structure Sending (q : State g) : Prop where
  any : anyBit (bdirty q (dirtyPtr q)) = true
  idle : ∀ j, (q.wbuffer (dirtyPtr q)).txblock j = false
  free : txVld q (txId q) = false

theorem of_bdirty {q : State g} (bit : bdirty q k j = true) :
    anyBit (q.wbuffer k).txblock = false ∧ (q.wbuffer k).dirty j = true ∧
      (q.wbuffer k).valid j = true := by
  rw [bdirty, Bool.and_eq_true, Bool.and_eq_true, Bool.not_eq_true'] at bit
  exact bit

theorem Sound.sending (sound : Sound s) (sent : dirtyRdEn s.buffer i = true) :
    Sending s.buffer := by
  rw [dirtyRdEn, missReq, Bool.and_eq_true, Bool.and_eq_true] at sent
  have any : anyBit (bdirty s.buffer (dirtyPtr s.buffer)) = true :=
    RrArbiter.idx_requests sound.dirtyKept sent.1.1
  have free := @RrArbiter.idx_requests _ _ true _ _ sound.txIdKept sent.1.2
  rw [Bool.not_eq_true'] at free
  refine ⟨any, ?_, free⟩
  obtain ⟨j, bit⟩ := (RrArbiter.anyBit_iff _).mp any
  exact (RrArbiter.anyBit_eq_false _).mp (of_bdirty bit).1

/-- Dirty bytes of the entry are sent. -/
theorem Sending.ready {q : State g} (sending : Sending q) (bit : txBe t q j = true) :
    (q.wbuffer (dirtyPtr q)).dirty j = true ∧ (q.wbuffer (dirtyPtr q)).valid j = true :=
  (of_bdirty (t.ready _ j sending.any bit)).2

theorem Sending.some {q : State g} (sending : Sending q) : anyBit (txBe t q) = true := by
  rw [RrArbiter.anyBit_iff]
  refine ⟨count (bdirty q (dirtyPtr q)), ?_⟩
  have covers := t.covers _ (count (bdirty q (dirtyPtr q))) sending.any
  have positive := Nat.two_pow_pos (t.toSize64 (bdirty q (dirtyPtr q))).toNat
  refine covers.trans (decide_eq_true ⟨le_refl _, ?_⟩)
  omega

theorem of_sends (sent : sends t s.buffer i k j = true) :
    dirtyRdEn s.buffer i = true ∧ k = dirtyPtr s.buffer ∧ txBe t s.buffer j = true := by
  rw [sends, Bool.and_eq_true, Bool.and_eq_true, decide_eq_true_iff] at sent
  exact ⟨sent.1.1, sent.1.2, sent.2⟩

theorem of_released (leaves : released s.buffer i k j = true) :
    evict s.buffer i = true ∧ k = rtrnPtr s.buffer := by
  rw [released, Bool.and_eq_true, Bool.and_eq_true, decide_eq_true_iff] at leaves
  exact leaves.1

theorem Sound.next_bytes (sound : Sound s) :
    ByteState ((nextEntry t s.buffer i k).valid j) ((nextEntry t s.buffer i k).dirty j)
      ((nextEntry t s.buffer i k).txblock j) := by
  rw [nextEntry_valid, nextEntry_dirty, nextEntry_txblock]
  apply byteState_next (sound.bytes k j)
  · intro leaves
    rw [sound.released_eq, Bool.and_eq_true] at leaves
    exact leaves.2
  · intro sent
    obtain ⟨rdEn, rfl, bit⟩ := of_sends sent
    have sending := sound.sending rdEn
    exact ⟨(sending.ready bit).1, sending.idle j⟩

/-- The core writes to the entry that holds the word, or to a free one. -/
theorem wrPtr_cases {q : State g} (wren : wbufferWren q i = true) :
    (valid q (wrPtr q i) = true ∧ (q.wbuffer (wrPtr q i)).wtag = requestTag i) ∨
      (valid q (wrPtr q i) = false ∧
        ∀ k, valid q k = true → (q.wbuffer k).wtag ≠ requestTag i) := by
  rw [wbufferWren, Bool.and_eq_true, Bool.and_eq_true, rdy] at wren
  rw [wrPtr]
  cases hit : anyBit (wbufferHitOh q i) with
  | true =>
      left
      have bit := RrArbiter.bit_count hit
      rw [wbufferHitOh, Bool.and_eq_true, decide_eq_true_iff] at bit
      rw [if_pos rfl]
      exact bit
  | false =>
      right
      rw [hit, Bool.false_or, full, Bool.not_not] at wren
      have bit := RrArbiter.bit_count wren.1.2
      rw [Bool.not_eq_true'] at bit
      rw [if_neg Bool.false_ne_true]
      refine ⟨bit, ?_⟩
      intro k held same
      have none := (RrArbiter.anyBit_eq_false _).mp hit k
      rw [wbufferHitOh, held, Bool.true_and, decide_eq_false_iff_not] at none
      exact none same

/-- An entry is valid because it was, or because the core writes it. -/
theorem valid_of_next {q : State g} (held : valid (next t q i) k = true) :
    valid q k = true ∨ (wbufferWren q i = true ∧ k = wrPtr q i) := by
  obtain ⟨j, bit⟩ := (RrArbiter.anyBit_iff _).mp held
  have bit : (nextEntry t q i k).valid j = true := bit
  rw [nextEntry_valid, Bool.or_eq_true, Bool.and_eq_true] at bit
  rcases bit with kept | wrote
  · left
    rw [valid, RrArbiter.anyBit_iff]
    exact ⟨j, kept.1⟩
  · right
    rw [writes, Bool.and_eq_true, Bool.and_eq_true, decide_eq_true_iff] at wrote
    exact wrote.1

/-- A valid entry keeps its word. -/
theorem wtag_kept {q : State g} (held : valid q k = true) :
    (nextEntry t q i k).wtag = (q.wbuffer k).wtag := by
  rw [nextEntry_wtag]
  by_cases wrote : (wbufferWren q i && decide (k = wrPtr q i)) = true
  · rw [if_pos wrote]
    rw [Bool.and_eq_true, decide_eq_true_iff] at wrote
    obtain ⟨wren, rfl⟩ := wrote
    rcases wrPtr_cases wren with ⟨-, same⟩ | ⟨free, -⟩
    · exact same.symm
    · exact absurd (free.symm.trans held) Bool.false_ne_true
  · rw [if_neg wrote]

theorem Sound.next_unique (sound : Sound s) {k k' : Fin g.depth}
    (held : valid (next t s.buffer i) k = true) (held' : valid (next t s.buffer i) k' = true)
    (same : (nextEntry t s.buffer i k).wtag = (nextEntry t s.buffer i k').wtag) : k = k' := by
  -- a word that is written anew is held by no other entry
  have fresh {k k' : Fin g.depth} (none : valid s.buffer k = false)
      (held : valid (next t s.buffer i) k = true) (held' : valid s.buffer k' = true)
      (same : (nextEntry t s.buffer i k).wtag = (nextEntry t s.buffer i k').wtag) : False := by
    rcases valid_of_next held with before | ⟨wren, rfl⟩
    · exact Bool.false_ne_true (none.symm.trans before)
    · rw [nextEntry_wtag, wren, Bool.true_and, decide_eq_true rfl, if_pos rfl,
        wtag_kept held'] at same
      rcases wrPtr_cases wren with ⟨before, -⟩ | ⟨-, others⟩
      · exact Bool.false_ne_true (none.symm.trans before)
      · exact others k' held' same.symm
  cases before : valid s.buffer k with
  | true =>
      cases before' : valid s.buffer k' with
      | true =>
          rw [wtag_kept before, wtag_kept before'] at same
          exact sound.unique k k' before before' same
      | false => exact absurd (fresh before' held' before same.symm) not_false
  | false =>
      cases before' : valid s.buffer k' with
      | true => exact absurd (fresh before held before' same) not_false
      | false =>
          rcases valid_of_next held with high | ⟨-, here⟩
          · exact absurd (before.symm.trans high) Bool.false_ne_true
          · rcases valid_of_next held' with high | ⟨-, here'⟩
            · exact absurd (before'.symm.trans high) Bool.false_ne_true
            · rw [here, here']

theorem next_txVld {q : State g} (x : Fin g.maxTx) : txVld (next t q i) x =
    ((txVld q x && !(evict q i && decide (x = rtrnId q))) ||
      (dirtyRdEn q i && decide (x = txId q))) := by
  show (nextTxStat t q i x).vld = _
  rw [nextTxStat, txVld]
  cases dirtyRdEn q i && decide (x = txId q) <;> cases evict q i && decide (x = rtrnId q) <;> simp

/-- A slot is taken because it was and its transaction does not leave, or because a transaction is
sent. -/
theorem slot_of_next {q : State g} {x : Fin g.maxTx} (vld : txVld (next t q i) x = true) :
    (dirtyRdEn q i = true ∧ x = txId q ∧ nextTxStat t q i x = ⟨true, txBe t q, dirtyPtr q⟩) ∨
      (txVld q x = true ∧ ¬ (evict q i = true ∧ x = rtrnId q) ∧
        nextTxStat t q i x = q.txStat x) := by
  by_cases sent : (dirtyRdEn q i && decide (x = txId q)) = true
  · left
    rw [nextTxStat, if_pos sent]
    rw [Bool.and_eq_true, decide_eq_true_iff] at sent
    exact ⟨sent.1, sent.2, rfl⟩
  · right
    rw [next_txVld, eq_false_of_ne_true sent, Bool.or_false, Bool.and_eq_true,
      Bool.not_eq_true'] at vld
    rw [nextTxStat, if_neg sent, vld.2, if_neg Bool.false_ne_true]
    refine ⟨vld.1, ?_, rfl⟩
    rintro ⟨evicts, rfl⟩
    rw [evicts, decide_eq_true rfl] at vld
    exact Bool.false_ne_true vld.2.symm

/-- A slot that is taken already keeps its entry in flight. -/
theorem Sound.txblock_kept (sound : Sound s) {x : Fin g.maxTx} (vld : txVld s.buffer x = true)
    (stays : ¬ (evict s.buffer i = true ∧ x = rtrnId s.buffer)) :
    (nextEntry t s.buffer i (s.buffer.txStat x).ptr).txblock j =
      (s.buffer.wbuffer (s.buffer.txStat x).ptr).txblock j := by
  obtain ⟨j', carried⟩ := (RrArbiter.anyBit_iff _).mp (sound.carries x vld)
  rw [sound.points x vld] at carried
  have unsent : sends t s.buffer i (s.buffer.txStat x).ptr j = false := by
    by_contra sent
    obtain ⟨rdEn, here, -⟩ := of_sends (eq_true_of_ne_false sent)
    have idle := (sound.sending rdEn).idle j'
    rw [← here] at idle
    exact Bool.false_ne_true (idle.symm.trans carried)
  have unreleased : released s.buffer i (s.buffer.txStat x).ptr j = false := by
    by_contra leaves
    obtain ⟨evicts, here⟩ := of_released (eq_true_of_ne_false leaves)
    obtain ⟨returned, -⟩ := sound.returned (not_empty_of_evict evicts)
    exact stays ⟨evicts, sound.apart x _ vld returned here⟩
  rw [nextEntry_txblock, unsent, unreleased, Bool.not_false, Bool.and_true, Bool.or_false]

/-- The entry that is sent has nothing in flight before, and the bytes of the transaction after. -/
theorem Sound.txblock_sent (sound : Sound s) (sent : dirtyRdEn s.buffer i = true) :
    (nextEntry t s.buffer i (dirtyPtr s.buffer)).txblock j = txBe t s.buffer j := by
  rw [nextEntry_txblock, (sound.sending sent).idle j, Bool.false_and, Bool.false_or,
    sends, sent, Bool.true_and, decide_eq_true rfl, Bool.true_and]

theorem Sound.ptr_ne (sound : Sound s) {x : Fin g.maxTx} (vld : txVld s.buffer x = true)
    (sent : dirtyRdEn s.buffer i = true) :
    (s.buffer.txStat x).ptr ≠ dirtyPtr s.buffer := by
  intro here
  obtain ⟨j, carried⟩ := (RrArbiter.anyBit_iff _).mp (sound.carries x vld)
  rw [sound.points x vld, here, (sound.sending sent).idle j] at carried
  exact Bool.false_ne_true carried

theorem Sound.next_points (sound : Sound s) {x : Fin g.maxTx}
    (vld : txVld (next t s.buffer i) x = true) :
    (nextTxStat t s.buffer i x).be j =
      (nextEntry t s.buffer i (nextTxStat t s.buffer i x).ptr).txblock j := by
  rcases slot_of_next vld with ⟨sent, -, stat⟩ | ⟨before, stays, stat⟩
  · rw [stat, sound.txblock_sent sent]
  · rw [stat, sound.txblock_kept before stays, sound.points x before]

theorem Sound.next_carries (sound : Sound s) {x : Fin g.maxTx}
    (vld : txVld (next t s.buffer i) x = true) :
    anyBit (nextTxStat t s.buffer i x).be = true := by
  rcases slot_of_next vld with ⟨sent, -, stat⟩ | ⟨before, -, stat⟩
  · rw [stat]
    exact (sound.sending sent).some
  · rw [stat]
    exact sound.carries x before

theorem Sound.next_apart (sound : Sound s) {x y : Fin g.maxTx}
    (vld : txVld (next t s.buffer i) x = true) (vld' : txVld (next t s.buffer i) y = true)
    (same : (nextTxStat t s.buffer i x).ptr = (nextTxStat t s.buffer i y).ptr) : x = y := by
  rcases slot_of_next vld with ⟨sent, rfl, stat⟩ | ⟨before, -, stat⟩
  · rcases slot_of_next vld' with ⟨-, here, -⟩ | ⟨before', -, stat'⟩
    · exact here.symm
    · rw [stat, stat'] at same
      exact absurd same.symm (sound.ptr_ne before' sent)
  · rcases slot_of_next vld' with ⟨sent, -, stat'⟩ | ⟨before', -, stat'⟩
    · rw [stat, stat'] at same
      exact absurd same (sound.ptr_ne before sent)
    · rw [stat, stat'] at same
      exact sound.apart x y before before' same

theorem Sound.next_covered (sound : Sound s)
    (flight : anyBit (nextEntry t s.buffer i k).txblock = true) :
    ∃ x, txVld (next t s.buffer i) x = true ∧ (nextTxStat t s.buffer i x).ptr = k := by
  obtain ⟨j, bit⟩ := (RrArbiter.anyBit_iff _).mp flight
  rw [nextEntry_txblock, Bool.or_eq_true, Bool.and_eq_true, Bool.not_eq_true'] at bit
  rcases bit with ⟨before, stays⟩ | sent
  · obtain ⟨x, vld, rfl⟩ := sound.covered k ((RrArbiter.anyBit_iff _).mpr ⟨j, before⟩)
    have kept : ¬ (evict s.buffer i = true ∧ x = rtrnId s.buffer) := by
      rintro ⟨evicts, rfl⟩
      rw [sound.released_eq, evicts, Bool.true_and, before, Bool.and_true,
        decide_eq_false_iff_not] at stays
      exact stays rfl
    have vld' : txVld (next t s.buffer i) x = true := by
      rw [next_txVld, vld, Bool.true_and, Bool.or_eq_true, Bool.not_eq_true']
      left
      rw [Bool.and_eq_false_iff, decide_eq_false_iff_not]
      by_cases evicts : evict s.buffer i = true
      · exact Or.inr fun here => kept ⟨evicts, here⟩
      · exact Or.inl (eq_false_of_ne_true evicts)
    refine ⟨x, vld', ?_⟩
    rcases slot_of_next vld' with ⟨sent, rfl, -⟩ | ⟨-, -, stat⟩
    · have free := (sound.sending sent).free
      exact absurd (free.symm.trans vld) Bool.false_ne_true
    · rw [stat]
  · obtain ⟨rdEn, rfl, -⟩ := of_sends sent
    refine ⟨txId s.buffer, ?_, ?_⟩
    · rw [next_txVld, rdEn, decide_eq_true rfl, Bool.true_and, Bool.or_true]
    · rw [nextTxStat, rdEn, decide_eq_true rfl]
      rfl

theorem next_waits (x : Fin g.maxTx) : (s.next t i).waits x =
    (s.outstanding i x && !(i.missRtrnVld && decide (x = i.missRtrnId))) := rfl

/-- An outstanding transaction has its slot, and its response is not queued. -/
theorem Sound.of_outstanding (sound : Sound s) {x : Fin g.maxTx} {held : List (Fin g.maxTx)}
    (ids : ∀ x, x ∈ held ↔ txVld s.buffer x = true ∧ s.waits x = false)
    (pending : s.outstanding i x = true) :
    txVld (next t s.buffer i) x = true ∧ x ∉ held := by
  rw [System.outstanding, Bool.or_eq_true, Bool.and_eq_true, decide_eq_true_iff] at pending
  rw [next_txVld]
  rcases pending with waits | ⟨sent, rfl⟩
  · have vld := sound.waits x waits
    constructor
    · rw [vld, Bool.true_and, Bool.or_eq_true, Bool.not_eq_true', Bool.and_eq_false_iff,
        decide_eq_false_iff_not]
      left
      by_cases evicts : evict s.buffer i = true
      · right
        rintro rfl
        obtain ⟨-, quiet⟩ := sound.returned (not_empty_of_evict evicts)
        exact Bool.false_ne_true (quiet.symm.trans waits)
      · exact Or.inl (eq_false_of_ne_true evicts)
    · intro member
      exact Bool.false_ne_true (((ids x).mp member).2.symm.trans waits)
  · constructor
    · rw [sent, decide_eq_true rfl, Bool.true_and, Bool.or_true]
    · intro member
      exact Bool.false_ne_true ((sound.sending sent).free.symm.trans ((ids _).mp member).1)

/-- The transactions that wait for nothing but their turn to leave. -/
theorem Sound.next_done (sound : Sound s) (responds : Responds s i) (x : Fin g.maxTx) :
    (txVld (next t s.buffer i) x = true ∧ (s.next t i).waits x = false) ↔
      ((txVld s.buffer x = true ∧ s.waits x = false) ∧
          ¬ (evict s.buffer i = true ∧ x = rtrnId s.buffer)) ∨
        (i.missRtrnVld = true ∧ x = i.missRtrnId) := by
  obtain ⟨held, -, -, ids⟩ := sound.queue
  constructor
  · rintro ⟨vld, quiet⟩
    by_cases answer : i.missRtrnVld = true ∧ x = i.missRtrnId
    · exact Or.inr answer
    · left
      have other : (i.missRtrnVld && decide (x = i.missRtrnId)) = false := by
        rw [Bool.eq_false_iff, Ne, Bool.and_eq_true, decide_eq_true_iff]
        exact answer
      rw [next_waits, other, Bool.not_false, Bool.and_true, System.outstanding,
        Bool.or_eq_false_iff] at quiet
      rcases slot_of_next vld with ⟨sent, rfl, -⟩ | ⟨before, stays, -⟩
      · rw [sent, decide_eq_true rfl] at quiet
        exact absurd quiet.2.symm Bool.false_ne_true
      · exact ⟨⟨before, quiet.1⟩, stays⟩
  · rintro (⟨⟨before, quiet⟩, stays⟩ | ⟨push, rfl⟩)
    · constructor
      · rw [next_txVld, before, Bool.true_and, Bool.or_eq_true, Bool.not_eq_true']
        left
        rw [Bool.eq_false_iff, Ne, Bool.and_eq_true, decide_eq_true_iff]
        exact stays
      · rw [next_waits, System.outstanding, quiet, Bool.false_or, Bool.and_eq_false_iff,
          Bool.eq_false_iff, Ne, Bool.and_eq_true, decide_eq_true_iff]
        left
        rintro ⟨sent, rfl⟩
        exact Bool.false_ne_true ((sound.sending sent).free.symm.trans before)
    · refine ⟨(@Sound.of_outstanding _ t _ _ sound _ _ ids (responds push)).1, ?_⟩
      rw [next_waits, push, decide_eq_true rfl, Bool.and_true, Bool.not_true, Bool.and_false]

/-- The responses that are queued are those of the transactions that wait for nothing else. -/
theorem Sound.next_queue (sound : Sound s) (responds : Responds s i) :
    ∃ held, FifoV3.Holds g.maxTx (next t s.buffer i).rtrnIdFifo held ∧ held.Nodup ∧
      ∀ x, x ∈ held ↔
        txVld (next t s.buffer i) x = true ∧ (s.next t i).waits x = false := by
  obtain ⟨held, holds, distinct, ids⟩ := sound.queue
  have fresh (push : i.missRtrnVld = true) : i.missRtrnId ∉ held :=
    (@Sound.of_outstanding _ t _ _ sound _ _ ids (responds push)).2
  have room (push : i.missRtrnVld = true) : held.length < g.maxTx := by
    have longer : (i.missRtrnId :: held).Nodup := List.nodup_cons.mpr ⟨fresh push, distinct⟩
    have bound := List.Nodup.length_le_card longer
    rw [List.length_cons, Fintype.card_fin] at bound
    exact bound
  have filled (pop : evict s.buffer i = true) : held ≠ [] := by
    intro none
    have empty := holds.empty_iff.mpr none
    exact Bool.false_ne_true ((not_empty_of_evict pop).symm.trans empty)
  have left (x : Fin g.maxTx) : x ∈ (if evict s.buffer i then held.tail else held) ↔
      x ∈ held ∧ ¬ (evict s.buffer i = true ∧ x = rtrnId s.buffer) := by
    cases pop : evict s.buffer i with
    | false =>
        rw [if_neg Bool.false_ne_true]
        exact ⟨fun member => ⟨member, fun both => Bool.false_ne_true both.1⟩, And.left⟩
    | true =>
        rw [if_pos rfl]
        obtain ⟨y, rest, rfl⟩ := List.exists_cons_of_ne_nil (filled pop)
        have front : rtrnId s.buffer = y := holds.front
        rw [front, List.tail_cons, List.mem_cons]
        constructor
        · intro member
          refine ⟨Or.inr member, ?_⟩
          rintro ⟨-, rfl⟩
          exact (List.nodup_cons.mp distinct).1 member
        · rintro ⟨rfl | member, other⟩
          · exact absurd ⟨rfl, rfl⟩ other
          · exact member
  have remaining : (if evict s.buffer i then held.tail else held).Nodup := by
    split
    · exact distinct.tail
    · exact distinct
  refine ⟨_, holds.next
    { data := i.missRtrnId, push := i.missRtrnVld, pop := evict s.buffer i } rfl room filled,
    ?_, ?_⟩
  · cases push : i.missRtrnVld with
    | false =>
        rw [if_neg Bool.false_ne_true, List.append_nil]
        exact remaining
    | true =>
        rw [if_pos rfl, List.nodup_append_comm]
        refine List.nodup_cons.mpr ⟨?_, remaining⟩
        intro member
        exact fresh push ((left _).mp member).1
  · intro x
    rw [sound.next_done responds, List.mem_append, left, ids]
    cases i.missRtrnVld with
    | false => simp
    | true => simp

/-- An entry that waits for its turn stays dirty. -/
theorem Sound.dirty_stays (sound : Sound s) (unsent : dirtyRdEn s.buffer i = false)
    (before : dirty s.buffer k = true) : dirty (next t s.buffer i) k = true := by
  obtain ⟨j, bit⟩ := (RrArbiter.anyBit_iff _).mp before
  obtain ⟨idle, isDirty, isValid⟩ := of_bdirty bit
  have quiet := (RrArbiter.anyBit_eq_false _).mp idle
  have none (j : Fin 8) : sends t s.buffer i k j = false := by
    rw [sends, unsent, Bool.false_and, Bool.false_and]
  rw [dirty, RrArbiter.anyBit_iff]
  refine ⟨j, ?_⟩
  rw [bdirty, Bool.and_eq_true, Bool.and_eq_true, Bool.not_eq_true']
  refine ⟨?_, ?_, ?_⟩
  · rw [RrArbiter.anyBit_eq_false]
    intro j
    show (nextEntry t s.buffer i k).txblock j = false
    rw [nextEntry_txblock, quiet j, none j, Bool.false_and, Bool.false_or]
  · show (nextEntry t s.buffer i k).dirty j = true
    rw [nextEntry_dirty, isDirty, none j, Bool.not_false, Bool.true_and, Bool.true_or]
  · show (nextEntry t s.buffer i k).valid j = true
    rw [nextEntry_valid, sound.released_eq, quiet j, isValid, isDirty, Bool.and_false,
      Bool.false_and, Bool.not_false, Bool.true_and, Bool.true_or]

theorem Sound.step (sound : Sound s) (responds : Responds s i) : Sound (s.next t i) := by
  constructor
  · exact fun k j => sound.next_bytes
  · exact fun k k' => sound.next_unique
  · exact fun x vld j => sound.next_points vld
  · exact fun x => sound.next_carries
  · exact fun x y => sound.next_apart
  · exact fun k => sound.next_covered
  · intro x waits
    obtain ⟨held, -, -, ids⟩ := sound.queue
    rw [next_waits, Bool.and_eq_true] at waits
    exact (sound.of_outstanding ids waits.1).1
  · exact sound.next_queue responds
  · apply RrArbiter.next_kept sound.dirtyKept
    exact fun unsent k => sound.dirty_stays unsent
  · apply RrArbiter.next_kept sound.txIdKept
    intro unsent x free
    rw [Bool.not_eq_true'] at free ⊢
    show txVld (next t s.buffer i) x = false
    rw [next_txVld, free, unsent, Bool.false_and, Bool.false_and, Bool.or_false]

end Step

theorem sound_reset : Sound (system (g := g) t).reset := by
  constructor
  · exact fun _ _ => Or.inl rfl
  · intro k k' held
    obtain ⟨j, bit⟩ := (RrArbiter.anyBit_iff _).mp held
    exact absurd bit Bool.false_ne_true
  · exact fun x vld => absurd vld Bool.false_ne_true
  · exact fun x vld => absurd vld Bool.false_ne_true
  · exact fun x y vld => absurd vld Bool.false_ne_true
  · intro k flight
    obtain ⟨j, bit⟩ := (RrArbiter.anyBit_iff _).mp flight
    exact absurd bit Bool.false_ne_true
  · exact fun x waits => absurd waits Bool.false_ne_true
  · refine ⟨[], FifoV3.holds_reset (Nat.lt_of_lt_of_le Nat.two_pos g.slots) _, List.nodup_nil, ?_⟩
    intro x
    constructor
    · exact fun member => absurd member List.not_mem_nil
    · exact fun both => absurd both.1 Bool.false_ne_true
  · exact fun lock => absurd lock Bool.false_ne_true
  · exact fun lock => absurd lock Bool.false_ne_true

theorem sound_run {inputs : List (Input g)}
    (legal : (system t).Legal Responds (system t).reset inputs) :
    Sound ((system t).run inputs) :=
  (system t).run_invariant sound_reset (fun _ _ sound responds => sound.step responds) legal

/-- The entries and the transaction slots agree. -/
structure Consistent (q : State g) : Prop where
  bytes : ∀ k j, ByteState ((q.wbuffer k).valid j) ((q.wbuffer k).dirty j)
    ((q.wbuffer k).txblock j)
  unique : ∀ k k', valid q k = true → valid q k' = true →
    (q.wbuffer k).wtag = (q.wbuffer k').wtag → k = k'
  points : ∀ x, txVld q x = true → valid q (q.txStat x).ptr = true ∧
    ∀ j, (q.txStat x).be j = (q.wbuffer (q.txStat x).ptr).txblock j
  apart : ∀ x y, txVld q x = true → txVld q y = true →
    (q.txStat x).ptr = (q.txStat y).ptr → x = y

/-- In every run with one response for each transaction, in any order, the bytes are in one of the
four states, no word is held twice, and the slots in use own the bytes in flight of distinct valid
entries. -/
theorem wbuffer_consistent (t : Transfers) (inputs : List (Input g))
    (legal : (system t).Legal Responds (system t).reset inputs) :
    Consistent ((system t).run inputs).buffer := by
  have sound := sound_run legal
  exact ⟨sound.bytes, sound.unique, fun x vld => ⟨sound.valid_ptr vld, sound.points x vld⟩,
    sound.apart⟩

/-- The largest aligned transfers: a double word, a word, a half word or the first byte. -/
def sizeOf (be : Bytes) : BitVec 3 :=
  if ∀ j, be j = true then 3
  else if (∀ j, be j = decide (j < 4)) ∨ ∀ j, be j = decide (4 ≤ j) then 2
  else if (∀ j, be j = decide (j < 2)) ∨ (∀ j, be j = decide (2 ≤ j ∧ j < 4)) ∨
      (∀ j, be j = decide (4 ≤ j ∧ j < 6)) ∨ ∀ j, be j = decide (6 ≤ j) then 1
  else 0

def byteEnable (off : Fin 8) (size : BitVec 2) : Bytes := fun j =>
  decide (off ≤ j ∧ j.val < off.val + 2 ^ size.toNat)

/-- A transfer repeats its bytes in all lanes. -/
def replicate (data : Data) (off : Fin 8) (size : BitVec 2) : Data := fun j =>
  data (Fin.ofNat 8 (off.val + j.val % 2 ^ size.toNat))

/-- The bytes of a transfer are dirty and stay in their lanes. -/
theorem sizeOf_run (be : Bytes) (any : anyBit be = true) :
    (sizeOf be).toNat ≤ 3 ∧
      ∀ j, byteEnable (count be) ((sizeOf be).setWidth 2) j = true → be j = true ∧
        (Fin.ofNat 8 ((count be).val + j.val % 2 ^ ((sizeOf be).setWidth 2).toNat) : Fin 8) =
          j := by
  by_cases double : ∀ j, be j = true
  · obtain rfl : be = fun _ => true := funext double
    decide
  by_cases word : (∀ j, be j = decide (j < 4)) ∨ ∀ j, be j = decide (4 ≤ j)
  · rcases word with low | high
    · obtain rfl : be = fun j => decide (j < 4) := funext low
      decide
    · obtain rfl : be = fun j => decide (4 ≤ j) := funext high
      decide
  by_cases half : (∀ j, be j = decide (j < 2)) ∨ (∀ j, be j = decide (2 ≤ j ∧ j < 4)) ∨
      (∀ j, be j = decide (4 ≤ j ∧ j < 6)) ∨ ∀ j, be j = decide (6 ≤ j)
  · rcases half with first | second | third | fourth
    · obtain rfl : be = fun j => decide (j < 2) := funext first
      decide
    · obtain rfl : be = fun j => decide (2 ≤ j ∧ j < 4) := funext second
      decide
    · obtain rfl : be = fun j => decide (4 ≤ j ∧ j < 6) := funext third
      decide
    · obtain rfl : be = fun j => decide (6 ≤ j) := funext fourth
      decide
  have size : sizeOf be = 0 := by
    rw [sizeOf, if_neg double, if_neg word, if_neg half]
  rw [size]
  refine ⟨by decide, ?_⟩
  intro j member
  have bounds : count be ≤ j ∧ j.val < (count be).val + 1 := of_decide_eq_true member
  obtain rfl : j = count be := Fin.ext (by have low : (count be).val ≤ j.val := bounds.1; omega)
  refine ⟨RrArbiter.bit_count any, ?_⟩
  apply Fin.ext
  show ((count be).val + (count be).val % 1) % 8 = (count be).val
  rw [Nat.mod_one, Nat.add_zero, Nat.mod_eq_of_lt (count be).isLt]

def openpiton : Transfers where
  toSize64 := sizeOf
  toByteEnable8 := byteEnable
  repData64 := replicate
  covers be j any := by
    have small := (sizeOf_run be any).1
    have same : ((sizeOf be).setWidth 2).toNat = (sizeOf be).toNat := by
      rw [BitVec.toNat_setWidth, Nat.mod_eq_of_lt (by omega)]
    rw [byteEnable, same]
  ready be j any member := ((sizeOf_run be any).2 j member).1
  lanes be data j any member := congrArg data ((sizeOf_run be any).2 j member).2

scoped instance neZeroTwo : NeZero 2 := ⟨by decide⟩

theorem small_fits : 2 + 6 ≤ 64 := by decide

/-- Two entries, two slots, two ways. -/
abbrev small : Geometry where
  tagWidth := 2
  indexWidth := 6
  offsetWidth := 4
  ways := 2
  depth := 2
  maxTx := 2
  cachedAddrBeg := 0
  cachedAddrEnd := 0xffff
  entries := by decide
  slots := by decide
  words := by decide
  lines := by decide
  fits := small_fits

/-- The core writes the first bytes of a word, and the memory takes what is sent. -/
def writeBytes (tag : BitVec 2) (below : Fin 8) (value : BitVec 8) : Input small where
  dataReq := true
  addressTag := tag
  dataBe j := decide (j < below)
  dataWdata _ := value
  missAck := true

/-- A word is written and sent, one byte is written again before the response. -/
def overwritten : List (Input small) :=
  [writeBytes 1 4 0x11, { missAck := true }, writeBytes 1 1 0x22,
    { missRtrnVld := true, missRtrnId := 1 }]

theorem wbuffer_consistent_overwritten :
    Consistent ((system openpiton).run overwritten).buffer :=
  wbuffer_consistent openpiton overwritten (by decide)

end Ariane.WriteBuffer
