import Ariane.WriteBufferEntries

set_option autoImplicit false

/- The write buffer loses no write and sends the writes to a byte in their order. -/
namespace Ariane.WriteBuffer

open RrArbiter (anyBit count)

variable {g : Geometry} {t : Transfers}

/-- What the entries and the transactions say about the history. -/
structure Faithful (s : System g) : Prop where
  /-- A valid byte is the newest. -/
  current : ∀ k j, (s.buffer.wbuffer k).valid j = true →
    ∃ x, s.written (s.buffer.wbuffer k).wtag j = some x ∧
      x.value = (s.buffer.wbuffer k).data j
  flight : ∀ x, txVld s.buffer x = true →
    (s.sent x).wtag = (s.buffer.wbuffer (s.buffer.txStat x).ptr).wtag ∧
      ∀ j, (s.sent x).covers (s.sent x).wtag j = (s.buffer.txStat x).be j
  /-- A byte that is clean was sent as it is. -/
  newest : ∀ x, txVld s.buffer x = true → ∀ j, (s.buffer.txStat x).be j = true →
    (s.buffer.wbuffer (s.buffer.txStat x).ptr).dirty j = false →
      s.written (s.buffer.wbuffer (s.buffer.txStat x).ptr).wtag j =
        some ⟨(s.sent x).time j, (s.sent x).wdata j⟩
  /-- A byte that no entry holds was answered. -/
  absent : ∀ wtag j,
    (∀ k, (s.buffer.wbuffer k).wtag = wtag → (s.buffer.wbuffer k).valid j = false) →
      s.answered wtag j = s.written wtag j
  returned : ∀ x, txVld s.buffer x = true → s.waits x = false →
    ∀ j, (s.buffer.txStat x).be j = true →
      s.answered (s.buffer.wbuffer (s.buffer.txStat x).ptr).wtag j =
        some ⟨(s.sent x).time j, (s.sent x).wdata j⟩
  nc : s.lastNc = s.buffer.ncPending

section Step

variable {s : System g} {i : Input g} {k : Fin g.depth} {j : Fin 8}

theorem valid_of_byte {q : State g} (bit : (q.wbuffer k).valid j = true) : valid q k = true := by
  rw [valid, RrArbiter.anyBit_iff]
  exact ⟨j, bit⟩

/-- The core writes to the word of a valid entry only through that entry. -/
theorem Sound.written_kept (sound : Sound s) (held : valid s.buffer k = true)
    (quiet : writes s.buffer i k j = false) :
    (s.next t i).written (s.buffer.wbuffer k).wtag j =
      s.written (s.buffer.wbuffer k).wtag j := by
  apply if_neg
  intro wrote
  rw [Bool.and_eq_true, Bool.and_eq_true, decide_eq_true_iff] at wrote
  obtain ⟨⟨wren, here⟩, bit⟩ := wrote
  rcases wrPtr_cases wren with ⟨held', same⟩ | ⟨-, others⟩
  · have ptr := sound.unique _ _ held held' (here.trans same.symm)
    rw [writes, wren, decide_eq_true ptr, bit] at quiet
    exact Bool.false_ne_true quiet.symm
  · exact others k held here

theorem Faithful.next_current (faithful : Faithful s) (sound : Sound s)
    (bit : (nextEntry t s.buffer i k).valid j = true) :
    ∃ x, (s.next t i).written (nextEntry t s.buffer i k).wtag j = some x ∧
      x.value = (nextEntry t s.buffer i k).data j := by
  rw [nextEntry_data]
  cases wrote : writes s.buffer i k j with
  | true =>
      rw [if_pos rfl, nextEntry_wtag]
      rw [writes, Bool.and_eq_true] at wrote
      rw [if_pos wrote.1]
      rw [Bool.and_eq_true] at wrote
      refine ⟨⟨s.time, i.dataWdata j⟩, ?_, rfl⟩
      apply if_pos
      rw [wrote.1.1, wrote.2, decide_eq_true rfl]
      rfl
  | false =>
      rw [nextEntry_valid, wrote, Bool.or_false, Bool.and_eq_true] at bit
      have held := valid_of_byte bit.1
      rw [if_neg Bool.false_ne_true, wtag_kept held, sound.written_kept held wrote]
      exact faithful.current k j bit.1

theorem nextSent_kept (sound : Sound s) {x : Fin g.maxTx} (vld : txVld s.buffer x = true) :
    s.nextSent t i x = s.sent x := by
  apply if_neg
  intro sent
  rw [Bool.and_eq_true, decide_eq_true_iff] at sent
  have free := (sound.sending sent.1).free
  rw [← sent.2] at free
  exact Bool.false_ne_true (free.symm.trans vld)

/-- The transaction that is sent in this cycle. -/
theorem nextSent_new (sent : dirtyRdEn s.buffer i = true) :
    s.nextSent t i (txId s.buffer) =
      { wtag := (s.buffer.wbuffer (dirtyPtr s.buffer)).wtag
        off := bdirtyOff s.buffer
        size := missSize t s.buffer
        wdata := missWdata t s.buffer
        nc := s.buffer.ncPending
        time := fun j => ((s.written (s.buffer.wbuffer (dirtyPtr s.buffer)).wtag j).map
          Write.time).getD 0 } := by
  rw [System.nextSent, sent, decide_eq_true rfl]
  rfl

theorem covers_new (sound : Sound s) (sent : dirtyRdEn s.buffer i = true) (wtag : WordTag g) :
    (s.nextSent t i (txId s.buffer)).covers wtag j =
      (decide (wtag = (s.buffer.wbuffer (dirtyPtr s.buffer)).wtag) && txBe t s.buffer j) := by
  rw [nextSent_new sent, txBe, missSize, bdirtyOff, t.covers _ _ (sound.sending sent).any,
    ← Bool.decide_and]
  rfl

/-- The bytes that an outstanding transaction writes to the memory are held by its entry. -/
theorem Faithful.covers_held (faithful : Faithful s) (sound : Sound s) {x : Fin g.maxTx}
    {wtag : WordTag g} (pending : s.outstanding i x = true)
    (covers : (s.nextSent t i x).covers wtag j = true) :
    ∃ k, (s.buffer.wbuffer k).wtag = wtag ∧ (s.buffer.wbuffer k).valid j = true ∧
      ∀ y, txVld s.buffer y = true → s.waits y = false → (s.buffer.txStat y).ptr ≠ k := by
  rw [System.outstanding, Bool.or_eq_true, Bool.and_eq_true, decide_eq_true_iff] at pending
  rcases pending with waits | ⟨sent, rfl⟩
  · have vld := sound.waits x waits
    obtain ⟨word, bytes⟩ := faithful.flight x vld
    rw [nextSent_kept sound vld] at covers
    have same : wtag = (s.sent x).wtag := (of_decide_eq_true covers).1
    rw [same, bytes j, sound.points x vld] at covers
    refine ⟨(s.buffer.txStat x).ptr, ?_, ?_, ?_⟩
    · rw [same, word]
    · rw [(byteState_iff _ _ _).mp (sound.bytes _ j), covers, Bool.or_true]
    · intro y vld' quiet here
      rw [sound.apart y x vld' vld here] at quiet
      exact Bool.false_ne_true (quiet.symm.trans waits)
  · rw [covers_new sound sent, Bool.and_eq_true, decide_eq_true_iff] at covers
    refine ⟨dirtyPtr s.buffer, covers.1.symm, ((sound.sending sent).ready covers.2).2, ?_⟩
    intro y vld' _
    exact sound.ptr_ne vld' sent

/-- A response changes what the memory knows only about the bytes of its transaction. -/
theorem answered_kept {wtag : WordTag g}
    (other : i.missRtrnVld = true → (s.nextSent t i i.missRtrnId).covers wtag j = false) :
    (s.next t i).answered wtag j = s.answered wtag j := by
  show (if i.missRtrnVld then (s.nextSent t i i.missRtrnId).apply s.answered
    else s.answered) wtag j = _
  cases push : i.missRtrnVld with
  | false => rfl
  | true =>
      rw [if_pos rfl, Transaction.apply, other push, if_neg Bool.false_ne_true]

theorem Faithful.next_flight (faithful : Faithful s) (sound : Sound s) {x : Fin g.maxTx}
    (vld : txVld (next t s.buffer i) x = true) :
    (s.nextSent t i x).wtag = (nextEntry t s.buffer i (nextTxStat t s.buffer i x).ptr).wtag ∧
      ∀ j, (s.nextSent t i x).covers (s.nextSent t i x).wtag j =
        (nextTxStat t s.buffer i x).be j := by
  rcases slot_of_next vld with ⟨sent, rfl, stat⟩ | ⟨before, -, stat⟩
  · obtain ⟨j, bit⟩ := (RrArbiter.anyBit_iff _).mp (sound.sending sent).any
    have held := valid_of_byte (of_bdirty bit).2.2
    have word : (s.nextSent t i (txId s.buffer)).wtag =
        (s.buffer.wbuffer (dirtyPtr s.buffer)).wtag := by
      rw [nextSent_new sent]
    rw [stat, word, wtag_kept held]
    refine ⟨rfl, ?_⟩
    intro j
    rw [covers_new sound sent, decide_eq_true rfl, Bool.true_and]
  · obtain ⟨word, bytes⟩ := faithful.flight x before
    rw [stat, nextSent_kept sound before, wtag_kept (sound.valid_ptr before)]
    exact ⟨word, bytes⟩

theorem Faithful.next_newest (faithful : Faithful s) (sound : Sound s) {x : Fin g.maxTx}
    (vld : txVld (next t s.buffer i) x = true)
    (carried : (nextTxStat t s.buffer i x).be j = true)
    (clean : (nextEntry t s.buffer i (nextTxStat t s.buffer i x).ptr).dirty j = false) :
    (s.next t i).written (nextEntry t s.buffer i (nextTxStat t s.buffer i x).ptr).wtag j =
      some ⟨(s.nextSent t i x).time j, (s.nextSent t i x).wdata j⟩ := by
  rw [nextEntry_dirty, Bool.or_eq_false_iff] at clean
  rcases slot_of_next vld with ⟨sent, rfl, stat⟩ | ⟨before, stays, stat⟩
  · rw [stat] at carried clean ⊢
    have ready := (sound.sending sent).ready carried
    have held := valid_of_byte ready.2
    obtain ⟨x, written, value⟩ := faithful.current _ j ready.2
    have lanes := t.lanes _ (s.buffer.wbuffer (dirtyPtr s.buffer)).data j
      (sound.sending sent).any carried
    rw [wtag_kept held, sound.written_kept held clean.2, nextSent_new sent]
    show s.written (s.buffer.wbuffer (dirtyPtr s.buffer)).wtag j =
      some ⟨((s.written (s.buffer.wbuffer (dirtyPtr s.buffer)).wtag j).map Write.time).getD 0,
        missWdata t s.buffer j⟩
    rw [written, missWdata, missSize, bdirtyOff, lanes, ← value]
    rfl
  · rw [stat] at carried clean ⊢
    have held := sound.valid_ptr before
    have unsent : sends t s.buffer i (s.buffer.txStat x).ptr j = false := by
      rw [Bool.eq_false_iff]
      intro sent
      obtain ⟨rdEn, here, -⟩ := of_sends sent
      exact sound.ptr_ne before rdEn here
    rw [unsent, Bool.not_false, Bool.and_true] at clean
    rw [wtag_kept held, sound.written_kept held clean.2, nextSent_kept sound before]
    exact faithful.newest x before j carried clean.1

theorem Faithful.next_absent (faithful : Faithful s) (sound : Sound s) (responds : Responds s i)
    {wtag : WordTag g}
    (none : ∀ k, (nextEntry t s.buffer i k).wtag = wtag →
      (nextEntry t s.buffer i k).valid j = false) :
    (s.next t i).answered wtag j = (s.next t i).written wtag j := by
  have written : (s.next t i).written wtag j = s.written wtag j := by
    apply if_neg
    intro wrote
    rw [Bool.and_eq_true, Bool.and_eq_true, decide_eq_true_iff] at wrote
    obtain ⟨⟨wren, rfl⟩, bit⟩ := wrote
    have high := none (wrPtr s.buffer i) (by rw [nextEntry_wtag, wren, decide_eq_true rfl]; rfl)
    rw [nextEntry_valid, writes, wren, decide_eq_true rfl, bit, Bool.or_eq_false_iff] at high
    exact Bool.false_ne_true high.2.symm
  -- the byte leaves the buffer in this cycle, or it was not there before
  have before : s.answered wtag j = s.written wtag j ∧
      ∀ k, (s.buffer.wbuffer k).wtag = wtag → (s.buffer.wbuffer k).valid j = true →
        ∃ y, txVld s.buffer y = true ∧ s.waits y = false ∧ (s.buffer.txStat y).ptr = k := by
    by_cases some : ∃ k, (s.buffer.wbuffer k).wtag = wtag ∧
        (s.buffer.wbuffer k).valid j = true
    · obtain ⟨k, rfl, bit⟩ := some
      have held := valid_of_byte bit
      have gone := none k (wtag_kept held)
      rw [nextEntry_valid, bit, Bool.true_and, Bool.or_eq_false_iff, Bool.not_eq_false',
        Bool.and_eq_true, Bool.not_eq_true'] at gone
      obtain ⟨⟨leaves, clean⟩, -⟩ := gone
      obtain ⟨evicts, here⟩ := of_released leaves
      obtain ⟨vld, quiet⟩ := sound.returned (not_empty_of_evict evicts)
      rw [released, Bool.and_eq_true] at leaves
      constructor
      · rw [here] at clean ⊢
        exact (faithful.returned _ vld quiet j leaves.2).trans
          (faithful.newest _ vld j leaves.2 clean).symm
      · intro k' same bit'
        rw [sound.unique k' k (valid_of_byte bit') held same]
        exact ⟨_, vld, quiet, here.symm⟩
    · rw [not_exists] at some
      constructor
      · apply faithful.absent
        intro k same
        exact eq_false_of_ne_true fun bit => some k ⟨same, bit⟩
      · exact fun k same bit => absurd ⟨same, bit⟩ (some k)
  rw [written, ← before.1]
  apply answered_kept
  intro push
  rw [Bool.eq_false_iff]
  intro covers
  obtain ⟨k, same, bit, others⟩ := faithful.covers_held sound (responds push) covers
  obtain ⟨y, vld, quiet, here⟩ := before.2 k same bit
  exact others y vld quiet here

theorem Faithful.next_returned (faithful : Faithful s) (sound : Sound s)
    (responds : Responds s i) {x : Fin g.maxTx} (vld : txVld (next t s.buffer i) x = true)
    (quiet : (s.next t i).waits x = false)
    (carried : (nextTxStat t s.buffer i x).be j = true) :
    (s.next t i).answered (nextEntry t s.buffer i (nextTxStat t s.buffer i x).ptr).wtag j =
      some ⟨(s.nextSent t i x).time j, (s.nextSent t i x).wdata j⟩ := by
  rcases (sound.next_done responds x).mp ⟨vld, quiet⟩ with ⟨⟨before, done⟩, -⟩ | ⟨push, rfl⟩
  · rcases slot_of_next vld with ⟨sent, rfl, -⟩ | ⟨-, -, stat⟩
    · exact absurd ((sound.sending sent).free.symm.trans before) Bool.false_ne_true
    · have held := sound.valid_ptr before
      rw [stat] at carried ⊢
      rw [wtag_kept held, nextSent_kept sound before, answered_kept]
      · exact faithful.returned x before done j carried
      · intro push
        rw [Bool.eq_false_iff]
        intro covers
        obtain ⟨k, same, bit, others⟩ := faithful.covers_held sound (responds push) covers
        apply others x before done
        exact (sound.unique k _ (valid_of_byte bit) held same).symm
  · obtain ⟨word, bytes⟩ := faithful.next_flight sound vld
    rw [← bytes j] at carried
    have answered : (s.next t i).answered =
        (s.nextSent t i i.missRtrnId).apply s.answered := if_pos push
    rw [← word, answered, Transaction.apply, carried, if_pos rfl]

theorem Faithful.step (faithful : Faithful s) (sound : Sound s) (responds : Responds s i) :
    Faithful (s.next t i) := by
  constructor
  · exact fun k j => faithful.next_current sound
  · exact fun x => faithful.next_flight sound
  · exact fun x vld j => faithful.next_newest sound vld
  · exact fun wtag j => faithful.next_absent sound responds
  · exact fun x vld quiet j => faithful.next_returned sound responds vld quiet
  · show (if _ then _ else _) = (if _ then _ else _)
    rw [faithful.nc]

end Step

theorem faithful_reset : Faithful (system (g := g) t).reset := by
  constructor
  · exact fun k j bit => absurd bit Bool.false_ne_true
  · exact fun x vld => absurd vld Bool.false_ne_true
  · exact fun x vld => absurd vld Bool.false_ne_true
  · exact fun wtag j _ => rfl
  · exact fun x vld => absurd vld Bool.false_ne_true
  · rfl

theorem faithful_run {inputs : List (Input g)}
    (legal : (system t).Legal Responds (system t).reset inputs) :
    Sound ((system t).run inputs) ∧ Faithful ((system t).run inputs) :=
  @Rtl.Machine.run_invariant _ _ (system t) Responds (fun s => Sound s ∧ Faithful s)
    ⟨sound_reset, faithful_reset⟩
    (fun _ _ both responds => ⟨both.1.step responds, both.2.step both.1 responds⟩) _ legal

/-- No write is lost and none is overtaken. -/
structure Lossless (s : System g) : Prop where
  /-- What an empty buffer sent last to a byte is what the core wrote last. -/
  drained : emptyO s.buffer = true → s.answered = s.written
  /-- What is not answered is visible in one entry. -/
  held : ∀ wtag j, s.written wtag j ≠ s.answered wtag j →
    ∃ k, (s.buffer.wbuffer k).wtag = wtag ∧ (s.buffer.wbuffer k).valid j = true ∧
      (∃ x, s.written wtag j = some x ∧ x.value = (s.buffer.wbuffer k).data j) ∧
      ∀ k', valid s.buffer k' = true → (s.buffer.wbuffer k').wtag = wtag → k' = k
  /-- No byte is in flight twice. -/
  once : ∀ x y, txVld s.buffer x = true → txVld s.buffer y = true →
    ∀ wtag j, (s.sent x).covers wtag j = true → (s.sent y).covers wtag j = true → x = y
  /-- A write that is not cacheable waits for the buffer to drain. -/
  alone : ∀ i, wbufferWren s.buffer i = true → addrIsNc i = true → emptyO s.buffer = true
  /-- After such a write, the next one waits until it was sent. -/
  first : ∀ i, wbufferWren s.buffer i = true → s.lastNc = true →
    emptyO s.buffer = true ∧ s.answered = s.written

section Lossless

variable {s : System g}

theorem Faithful.drained (faithful : Faithful s) (empty : emptyO s.buffer = true) :
    s.answered = s.written := by
  rw [emptyO, Bool.not_eq_true'] at empty
  funext wtag j
  apply faithful.absent
  intro k _
  exact (RrArbiter.anyBit_eq_false _).mp ((RrArbiter.anyBit_eq_false _).mp empty k) j

theorem Faithful.once (faithful : Faithful s) (sound : Sound s) {x y : Fin g.maxTx}
    (vld : txVld s.buffer x = true) (vld' : txVld s.buffer y = true) {wtag : WordTag g}
    {j : Fin 8} (first : (s.sent x).covers wtag j = true)
    (second : (s.sent y).covers wtag j = true) : x = y := by
  have here : wtag = (s.sent x).wtag := (of_decide_eq_true first).1
  have there : wtag = (s.sent y).wtag := (of_decide_eq_true second).1
  rw [(faithful.flight x vld).1] at here
  rw [(faithful.flight y vld').1] at there
  have ptr := sound.unique _ _ (sound.valid_ptr vld) (sound.valid_ptr vld')
    (here.symm.trans there)
  exact sound.apart x y vld vld' ptr

theorem Faithful.lossless (faithful : Faithful s) (sound : Sound s) : Lossless s := by
  have blocked {i : Input g} (wren : wbufferWren s.buffer i = true)
      (nc : (addrIsNc i || s.buffer.ncPending) = true) : emptyO s.buffer = true := by
    rw [wbufferWren, nc, Bool.not_true, Bool.or_false, Bool.and_eq_true] at wren
    exact wren.2
  constructor
  · exact faithful.drained
  · intro wtag j pending
    by_contra none
    rw [not_exists] at none
    refine pending (faithful.absent wtag j ?_).symm
    intro k same
    rw [Bool.eq_false_iff]
    intro bit
    apply none k
    refine ⟨same, bit, ?_, ?_⟩
    · rw [← same]
      exact faithful.current k j bit
    · intro k' held' same'
      exact sound.unique k' k held' (valid_of_byte bit) (same'.trans same.symm)
  · exact fun x y vld vld' wtag j => faithful.once sound vld vld'
  · intro i wren nc
    exact blocked wren (by rw [nc, Bool.true_or])
  · intro i wren nc
    rw [faithful.nc] at nc
    have empty := blocked wren (by rw [nc, Bool.or_true])
    exact ⟨empty, faithful.drained empty⟩

end Lossless

/-- In every run with one response for each transaction, in any order, the buffer neither loses nor
reorders the writes to a byte. -/
theorem wbuffer_lossless (t : Transfers) (inputs : List (Input g))
    (legal : (system t).Legal Responds (system t).reset inputs) :
    Lossless ((system t).run inputs) :=
  (faithful_run legal).2.lossless (faithful_run legal).1

def pause : Input small := {}

/-- After the response, the clean bytes leave and the byte that was written again is sent once
more. -/
def resent : List (Input small) :=
  overwritten ++ [{ rdAck := true }, pause, pause, { missAck := true }, { missAck := true },
    { missRtrnVld := true }, pause]

theorem wbuffer_lossless_resent :
    emptyO ((system openpiton).run resent).buffer = true ∧
      ((system openpiton).run resent).answered 8 0 = some ⟨2, 0x22⟩ ∧
      ((system openpiton).run resent).answered = ((system openpiton).run resent).written := by
  have lossless := wbuffer_lossless openpiton resent (by decide +kernel)
  exact ⟨by decide +kernel, by decide +kernel, lossless.drained (by decide +kernel)⟩

end Ariane.WriteBuffer
