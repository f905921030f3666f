import Ariane.WriteBufferEntries

set_option autoImplicit false

/- The write buffer with the tag array of `serpent_dcache_mem.sv`. -/
namespace Ariane.WriteBuffer

open RrArbiter (anyBit count)
open Rtl (Machine)

variable {g : Geometry} {n : Nat} [NeZero n] {t : Transfers}

/-- The valid bit and the tag of a line. -/
structure TagLine (g : Geometry) where
  valid : Bool := false
  tag : BitVec g.tagWidth := 0
  deriving DecidableEq

/-- The tag SRAMs. -/
abbrev Tags (g : Geometry) := LineIndex g → Fin g.ways → TagLine g

/-- The registers of the tag part, with the outputs of the SRAMs. -/
structure TagState (g : Geometry) (n : Nat) [NeZero n] where
  tags : Tags g
  rdata : Fin g.ways → TagLine g := fun _ => {}
  vldSel : Fin n := 0
  cmpEn : Bool := false
  arbiter : RrArbiter.State n := RrArbiter.reset

/-- The read requests of the other ports and the line write. -/
structure TagInput (g : Geometry) (n : Nat) where
  rdReq : Fin n → Bool := fun _ => false
  rdPrio : Fin n → Bool := fun _ => false
  rdIdx : Fin n → LineIndex g := fun _ => 0
  rdTag : Fin n → BitVec g.tagWidth := fun _ => 0
  wrClVld : Bool := false
  wrClWe : Fin g.ways → Bool := fun _ => false
  wrClTag : BitVec g.tagWidth := 0
  wrClIdx : LineIndex g := 0
  wrVldBits : Fin g.ways → Bool := fun _ => false

section Mem

variable (m : TagState g n) (i : TagInput g n)

/-- `rd_req_masked`: a request with priority hides those without. -/
def rdReqMasked (k : Fin n) : Bool :=
  if anyBit (fun k => i.rdReq k && i.rdPrio k) then i.rdReq k && i.rdPrio k else i.rdReq k

/-- `vld_sel_d`. -/
def vldSelD : Fin n := RrArbiter.idx false m.arbiter (rdReqMasked i)

def rdAck : Fin n → Bool := RrArbiter.ack false m.arbiter (rdReqMasked i) (!i.wrClVld)

/-- `rd_acked`. -/
def rdAcked : Bool := RrArbiter.vld (rdReqMasked i) (!i.wrClVld)

def vldAddr : LineIndex g := if i.wrClVld then i.wrClIdx else i.rdIdx (vldSelD m i)

def vldReq (w : Fin g.ways) : Bool := if i.wrClVld then i.wrClWe w else rdAcked i

/-- `rd_hit_oh_o`, for the tag that the selected port gives one cycle after its request. -/
def rdHitOh (w : Fin g.ways) : Bool :=
  decide (i.rdTag m.vldSel = (m.rdata w).tag) && (m.rdata w).valid && m.cmpEn

/-- The tag SRAMs after the cycle. -/
def nextTags : Tags g := fun idx w =>
  if vldReq i w && i.wrClVld && decide (idx = vldAddr m i) then ⟨i.wrVldBits w, i.wrClTag⟩
  else m.tags idx w

def TagState.next : TagState g n where
  tags := nextTags m i
  rdata := fun w => if vldReq i w && !i.wrClVld then m.tags (vldAddr m i) w else m.rdata w
  vldSel := vldSelD m i
  cmpEn := anyBit (vldReq i) && !i.wrClVld
  arbiter := RrArbiter.next false m.arbiter (rdReqMasked i) (!i.wrClVld)

end Mem

/-- The buffer and the tag array. -/
structure Looked (g : Geometry) (n : Nat) [NeZero n] where
  buffer : State g := {}
  mem : TagState g n

/-- The inputs of one cycle. What the two give to each other is wired. -/
structure LookedInput (g : Geometry) (n : Nat) where
  buffer : Input g := {}
  mem : TagInput g n := {}

/-- The read port of the write buffer. -/
def lastPort : Fin n :=
  ⟨n - 1, Nat.sub_lt (Nat.pos_of_ne_zero (NeZero.ne n)) Nat.one_pos⟩

namespace Looked

variable (t : Transfers) (f : Looked g n) (i : LookedInput g n)

def memInput : TagInput g n :=
  { i.mem with
    rdReq := fun k => if k = lastPort then WriteBuffer.rdReq f.buffer else i.mem.rdReq k
    rdIdx := fun k => if k = lastPort then WriteBuffer.rdIdx f.buffer else i.mem.rdIdx k
    rdTag := fun k => if k = lastPort then f.buffer.rdTag else i.mem.rdTag k }

def bufferInput : Input g :=
  { i.buffer with
    rdAck := WriteBuffer.rdAck f.mem (f.memInput i) lastPort
    rdHitOh := WriteBuffer.rdHitOh f.mem (f.memInput i)
    wrClVld := i.mem.wrClVld
    wrClIdx := i.mem.wrClIdx }

def next : Looked g n where
  buffer := WriteBuffer.next t f.buffer (f.bufferInput i)
  mem := f.mem.next (f.memInput i)

end Looked

def looked (t : Transfers) (tags : Tags g) : Machine (Looked g n) (LookedInput g n) :=
  ⟨{ mem := { tags := tags } }, Looked.next t⟩

/-- The line and the tag of a word. -/
def lineOf (wtag : WordTag g) : LineIndex g :=
  (paddr wtag).extractLsb' g.offsetWidth (g.indexWidth - g.offsetWidth)

def tagOf (wtag : WordTag g) : BitVec g.tagWidth :=
  (paddr wtag >>> g.indexWidth).setWidth g.tagWidth

/-- The offset of a word in its line. -/
def offsetOf (wtag : WordTag g) : BitVec g.offsetWidth := (paddr wtag).setWidth g.offsetWidth

/-- The ways that hold a word. -/
def hits (tags : Tags g) (wtag : WordTag g) : Fin g.ways → Bool := fun w =>
  (tags (lineOf wtag) w).valid && decide ((tags (lineOf wtag) w).tag = tagOf wtag)

/-- The cache status of a word is known, or it is looked up. -/
def lookedUp (q : State g) (k : Fin g.depth) : Bool :=
  (q.wbuffer k).checked || (q.checkEn && decide (k = q.checkPtr)) ||
    (q.checkEn1 && decide (k = q.checkPtr1))

/-- A line write leaves the words that are looked up, other than the first one of a line, where they
are. -/
def Harmless (f : Looked g n) (i : LookedInput g n) : Prop :=
  ∀ k, valid f.buffer k = true → lookedUp f.buffer k = true →
    offsetOf (f.buffer.wbuffer k).wtag ≠ 0 →
      hits (nextTags f.mem (f.memInput i)) (f.buffer.wbuffer k).wtag =
        hits f.mem.tags (f.buffer.wbuffer k).wtag

instance decidableHarmless (f : Looked g n) (i : LookedInput g n) : Decidable (Harmless f i) :=
  inferInstanceAs (Decidable (∀ _, _))

/-- What is known about the cache is true. -/
def Current (f : Looked g n) : Prop :=
  ∀ k, (f.buffer.wbuffer k).checked = true →
    (f.buffer.wbuffer k).hitOh = hits f.mem.tags (f.buffer.wbuffer k).wtag

/-- The knowledge of the entries and of the two lookups under way. -/
structure Fresh (f : Looked g n) : Prop where
  known : ∀ k, (f.buffer.wbuffer k).checked = true → valid f.buffer k = true ∧
    (f.buffer.wbuffer k).hitOh = hits f.mem.tags (f.buffer.wbuffer k).wtag
  reads : f.buffer.checkEn = true → valid f.buffer f.buffer.checkPtr = true ∧
    ∀ i, rdHitOh f.mem (f.memInput i) =
      hits f.mem.tags (f.buffer.wbuffer f.buffer.checkPtr).wtag
  returns : f.buffer.checkEn1 = true → valid f.buffer f.buffer.checkPtr1 = true →
    f.buffer.rdHitOh = hits f.mem.tags (f.buffer.wbuffer f.buffer.checkPtr1).wtag ∨
      (f.buffer.wrClVld = true ∧
        hitsLine (f.buffer.wbuffer f.buffer.checkPtr1).wtag f.buffer.wrClIdx = true)
  unlocked : f.buffer.cleanRr.lock = false

theorem split_bits {m n : Nat} (order : m ≤ n) (p : BitVec 64)
    (idx : BitVec (n - m)) :
    p.setWidth n = idx.setWidth n <<< m ↔ p.setWidth m = 0 ∧ p.extractLsb' m (n - m) = idx := by
  constructor
  · intro same
    have bits (b : Nat) (inside : b < n) :
        p.getLsbD b = (!decide (b < m) && idx.getLsbD (b - m)) := by
      have both := congrArg (fun x => x.getLsbD b) same
      simp only [BitVec.getLsbD_setWidth, BitVec.getLsbD_shiftLeft, inside, decide_true,
        Bool.true_and] at both
      rw [both, decide_eq_true (by omega : b - m < n), Bool.true_and]
    constructor
    · apply BitVec.eq_of_getLsbD_eq
      intro b inside
      rw [BitVec.getLsbD_setWidth, bits b (by omega), decide_eq_true inside, Bool.not_true,
        Bool.false_and, Bool.and_false]
      exact BitVec.getLsbD_zero.symm
    · apply BitVec.eq_of_getLsbD_eq
      intro b inside
      rw [BitVec.getLsbD_extractLsb', bits (m + b) (by omega), decide_eq_true inside,
        decide_eq_false (by omega : ¬ m + b < m), Nat.add_sub_cancel_left]
      rfl
  · rintro ⟨low, rfl⟩
    apply BitVec.eq_of_getLsbD_eq
    intro b inside
    rw [BitVec.getLsbD_setWidth, BitVec.getLsbD_shiftLeft, BitVec.getLsbD_setWidth,
      BitVec.getLsbD_extractLsb']
    by_cases below : b < m
    · have zero : p.getLsbD b = false := by
        have bit := congrArg (fun x => x.getLsbD b) low
        rw [BitVec.getLsbD_setWidth, decide_eq_true below, Bool.true_and] at bit
        exact bit.trans BitVec.getLsbD_zero
      rw [zero, decide_eq_true below, Bool.not_true, Bool.and_false, Bool.false_and]
    · rw [decide_eq_false below, decide_eq_true inside, decide_eq_true (by omega : b - m < n),
        decide_eq_true (by omega : b - m < n - m), Nat.add_sub_cancel' (by omega)]
      rfl

/-- `inval_hit` finds a word only at the start of its line. -/
theorem hitsLine_iff (wtag : WordTag g) (idx : LineIndex g) :
    hitsLine wtag idx = true ↔ offsetOf wtag = 0 ∧ lineOf wtag = idx := by
  have fits := g.fits
  have shifted : wtag.setWidth g.indexWidth <<< 3 = (paddr wtag).setWidth g.indexWidth := by
    apply BitVec.eq_of_getLsbD_eq
    intro b inside
    rw [BitVec.getLsbD_shiftLeft, BitVec.getLsbD_setWidth, BitVec.getLsbD_setWidth, paddr,
      BitVec.getLsbD_shiftLeft, BitVec.getLsbD_setWidth, decide_eq_true inside,
      decide_eq_true (by omega : b - 3 < g.indexWidth), decide_eq_true (by omega : b < 64),
      decide_eq_true (by omega : b - 3 < 64)]
    rfl
  rw [hitsLine, decide_eq_true_iff, shifted]
  exact split_bits g.lines (paddr wtag) idx

section Step

variable {f : Looked g n} {i : LookedInput g n} {k : Fin g.depth}

theorem hits_kept {wtag : WordTag g}
    (other : ¬ (i.mem.wrClVld = true ∧ lineOf wtag = i.mem.wrClIdx)) :
    hits (nextTags f.mem (f.memInput i)) wtag = hits f.mem.tags wtag := by
  have kept (w : Fin g.ways) :
      nextTags f.mem (f.memInput i) (lineOf wtag) w = f.mem.tags (lineOf wtag) w := by
    apply if_neg
    intro wrote
    rw [Bool.and_eq_true, Bool.and_eq_true, decide_eq_true_iff] at wrote
    obtain ⟨⟨-, write⟩, here⟩ := wrote
    rw [vldAddr, write, if_pos rfl] at here
    exact other ⟨write, here⟩
  funext w
  rw [hits, hits, kept w]

/-- A line write is seen by the buffer, or it leaves the word where it is. -/
theorem hits_or_hitsLine (harmless : Harmless f i) (held : valid f.buffer k = true)
    (known : lookedUp f.buffer k = true) :
    hits (nextTags f.mem (f.memInput i)) (f.buffer.wbuffer k).wtag =
        hits f.mem.tags (f.buffer.wbuffer k).wtag ∨
      (i.mem.wrClVld = true ∧ hitsLine (f.buffer.wbuffer k).wtag i.mem.wrClIdx = true) := by
  by_cases same : i.mem.wrClVld = true ∧ lineOf (f.buffer.wbuffer k).wtag = i.mem.wrClIdx
  · by_cases first : offsetOf (f.buffer.wbuffer k).wtag = 0
    · exact Or.inr ⟨same.1, (hitsLine_iff _ _).mpr ⟨first, same.2⟩⟩
    · exact Or.inl (harmless k held known first)
  · exact Or.inl (hits_kept same)

section Entry

variable {q : State g} {j : Input g}

/-- The tag lookup of the entry returns in this cycle. -/
def marked (q : State g) (k : Fin g.depth) : Bool :=
  q.checkEn1 && decide (k = q.checkPtr1) && valid q k

theorem nextEntry_hitOh : (nextEntry t q j k).hitOh =
    if marked q k then q.rdHitOh else (q.wbuffer k).hitOh := by
  simp only [nextEntry, apply_ite Entry.hitOh, Entry.mark, Entry.release, Entry.send,
    Entry.write, ite_self]
  rfl

/-- What is known of an entry after a cycle was known or was just looked up, no line write was
seen, and the core did not write. -/
theorem of_checked (checked : (nextEntry t q j k).checked = true) :
    (marked q k = true ∨ (q.wbuffer k).checked = true) ∧ invalHit q j k = false ∧
      (wbufferWren q j && decide (k = wrPtr q j)) = false := by
  have mark (e : Entry g) (c : Bool) (hitOh : Fin g.ways → Bool)
      (high : (if c then e.mark hitOh else e).checked = true) : c = true ∨ e.checked = true := by
    cases c with
    | true => exact Or.inl rfl
    | false => exact Or.inr high
  have discard (e : Entry g) (c : Bool)
      (high : (if c then { e with checked := false } else e).checked = true) :
      c = false ∧ e.checked = true := by
    cases c with
    | true => exact absurd high Bool.false_ne_true
    | false => exact ⟨rfl, high⟩
  have release (e : Entry g) (c : Bool) (be : Bytes)
      (high : (if c then e.release be else e).checked = true) : e.checked = true := by
    cases c with
    | true => exact (Bool.and_eq_true_iff.mp high).1
    | false => exact high
  have send (e : Entry g) (c : Bool) (be : Bytes) :
      (if c then e.send be else e).checked = e.checked := by
    cases c <;> rfl
  unfold nextEntry at checked
  dsimp only at checked
  cases wrote : wbufferWren q j && decide (k = wrPtr q j) with
  | true =>
      rw [wrote] at checked
      exact absurd checked Bool.false_ne_true
  | false =>
      rw [wrote, if_neg Bool.false_ne_true, send] at checked
      obtain ⟨hit, before⟩ := discard _ _ (release _ _ _ checked)
      exact ⟨mark _ _ _ before, hit, rfl⟩

theorem valid_of_checked
    (before : (q.wbuffer k).checked = true → anyBit (q.wbuffer k).valid = true)
    (checked : (nextEntry t q j k).checked = true) : valid (next t q j) k = true := by
  have both {c : Bool} {e e' : Entry g}
      (yes : c = true → e.checked = true → anyBit e.valid = true)
      (no : e'.checked = true → anyBit e'.valid = true)
      (high : (if c then e else e').checked = true) :
      anyBit (if c then e else e').valid = true := by
    cases c with
    | true => exact yes rfl high
    | false => exact no high
  revert checked
  show (nextEntry t q j k).checked = true → anyBit (nextEntry t q j k).valid = true
  unfold nextEntry
  dsimp only
  have release (e : Entry g) (be : Bytes) (high : (e.release be).checked = true) :
      anyBit (e.release be).valid = true := (Bool.and_eq_true_iff.mp high).2
  have discard (e : Entry g) (high : ({ e with checked := false } : Entry g).checked = true) :
      anyBit e.valid = true := absurd high Bool.false_ne_true
  have mark (c : Bool) (held : (c && valid q k) = true) : anyBit (q.wbuffer k).valid = true :=
    (Bool.and_eq_true_iff.mp held).2
  refine both (fun _ written => absurd written Bool.false_ne_true) ?_
  refine both (fun _ => both (fun _ => release _ _) (both (fun _ => discard _) ?_))
    (both (fun _ => release _ _) (both (fun _ => discard _) ?_))
  · exact both (fun held _ => mark _ held) before
  · exact both (fun held _ => mark _ held) before

end Entry

theorem Fresh.next_known (fresh : Fresh f) (harmless : Harmless f i)
    (checked : (nextEntry t f.buffer (f.bufferInput i) k).checked = true) :
    valid (next t f.buffer (f.bufferInput i)) k = true ∧
      (nextEntry t f.buffer (f.bufferInput i) k).hitOh =
        hits (nextTags f.mem (f.memInput i))
          (nextEntry t f.buffer (f.bufferInput i) k).wtag := by
  refine ⟨valid_of_checked (fun known => (fresh.known k known).1) checked, ?_⟩
  obtain ⟨known, unseen, unwritten⟩ := of_checked checked
  rw [nextEntry_hitOh, nextEntry_wtag, unwritten, if_neg Bool.false_ne_true]
  have held : valid f.buffer k = true := by
    rcases known with mark | before
    · exact (Bool.and_eq_true_iff.mp mark).2
    · exact (fresh.known k before).1
  rw [invalHit, held, Bool.and_true, Bool.and_true, Bool.or_eq_false_iff] at unseen
  have looked : lookedUp f.buffer k = true := by
    rw [lookedUp, Bool.or_eq_true, Bool.or_eq_true]
    rcases known with mark | before
    · exact Or.inr (Bool.and_eq_true_iff.mp mark).1
    · exact Or.inl (Or.inl before)
  have same : hits (nextTags f.mem (f.memInput i)) (f.buffer.wbuffer k).wtag =
      hits f.mem.tags (f.buffer.wbuffer k).wtag := by
    rcases hits_or_hitsLine harmless held looked with same | ⟨write, line⟩
    · exact same
    · have seen : (i.mem.wrClVld && hitsLine (f.buffer.wbuffer k).wtag i.mem.wrClIdx) = false :=
        unseen.1
      rw [write, line] at seen
      exact absurd seen.symm Bool.false_ne_true
  rw [same]
  cases mark : marked f.buffer k with
  | true =>
      rw [if_pos rfl]
      rw [marked, Bool.and_eq_true, Bool.and_eq_true, decide_eq_true_iff] at mark
      obtain ⟨⟨returns, rfl⟩, -⟩ := mark
      rcases fresh.returns returns held with current | ⟨write, line⟩
      · exact current
      · rw [write, line] at unseen
        exact absurd unseen.2.symm Bool.false_ne_true
  | false =>
      rw [mark] at known
      rw [if_neg Bool.false_ne_true]
      rcases known with high | before
      · exact absurd high Bool.false_ne_true
      · exact (fresh.known k before).2

theorem valid_stays {q : State g} {j : Input g} (held : valid q k = true)
    (unknown : (q.wbuffer k).checked = false) : valid (next t q j) k = true := by
  obtain ⟨b, bit⟩ := (RrArbiter.anyBit_iff _).mp held
  rw [valid, RrArbiter.anyBit_iff]
  refine ⟨b, ?_⟩
  show (nextEntry t q j k).valid b = true
  have stays : released q j k b = false := by
    rw [released, evict, Bool.eq_false_iff]
    intro leaves
    rw [Bool.and_eq_true, Bool.and_eq_true, decide_eq_true_iff, Bool.and_eq_true,
      Bool.and_eq_true] at leaves
    obtain ⟨⟨⟨⟨-, known⟩, -⟩, rfl⟩, -⟩ := leaves
    exact Bool.false_ne_true (unknown.symm.trans known)
  rw [nextEntry_valid, stays, bit]
  rfl

/-- A lookup that is acknowledged reads the tags of its entry. -/
theorem Fresh.next_reads (fresh : Fresh f)
    (reads : checkEnD f.buffer (f.bufferInput i) = true) :
    valid (next t f.buffer (f.bufferInput i)) (checkPtrD f.buffer) = true ∧
      ∀ i', rdHitOh (f.next t i).mem ((f.next t i).memInput i') =
        hits (nextTags f.mem (f.memInput i))
          (nextEntry t f.buffer (f.bufferInput i) (checkPtrD f.buffer)).wtag := by
  rw [checkEnD, Bool.and_eq_true] at reads
  obtain ⟨any, acked⟩ := reads
  have kept : RrArbiter.Kept f.buffer.cleanRr (tocheck f.buffer) :=
    fun lock => absurd (fresh.unlocked.symm.trans lock) Bool.false_ne_true
  have chosen : tocheck f.buffer (checkPtrD f.buffer) = true :=
    RrArbiter.idx_requests kept any
  rw [tocheck, Bool.and_eq_true, Bool.not_eq_true'] at chosen
  obtain ⟨unknown, held⟩ := chosen
  refine ⟨valid_stays held unknown, ?_⟩
  intro i'
  have acked : RrArbiter.ack false f.mem.arbiter (rdReqMasked (f.memInput i))
    (!i.mem.wrClVld) lastPort = true := acked
  obtain ⟨port, quiet, requested⟩ := RrArbiter.idx_of_ack acked
  have port : vldSelD f.mem (f.memInput i) = lastPort := port
  rw [Bool.not_eq_true'] at quiet
  have write : (f.memInput i).wrClVld = false := quiet
  have acks : rdAcked (f.memInput i) = true := by
    rw [rdAcked, RrArbiter.vld, write, requested]
    rfl
  have every (w : Fin g.ways) : vldReq (f.memInput i) w = true := by
    rw [vldReq, write, if_neg Bool.false_ne_true, acks]
  have addr : vldAddr f.mem (f.memInput i) =
      lineOf (f.buffer.wbuffer (checkPtrD f.buffer)).wtag := by
    rw [vldAddr, write, if_neg Bool.false_ne_true, port]
    exact if_pos rfl
  have tag : ((f.next t i).memInput i').rdTag (f.next t i).mem.vldSel =
      tagOf (f.buffer.wbuffer (checkPtrD f.buffer)).wtag := by
    show (if vldSelD f.mem (f.memInput i) = lastPort then _ else _) = _
    rw [port, if_pos rfl]
    rfl
  have same : hits (nextTags f.mem (f.memInput i))
      (f.buffer.wbuffer (checkPtrD f.buffer)).wtag =
        hits f.mem.tags (f.buffer.wbuffer (checkPtrD f.buffer)).wtag :=
    hits_kept fun both => Bool.false_ne_true (quiet.symm.trans both.1)
  rw [wtag_kept held, same]
  funext w
  have rdata : (f.next t i).mem.rdata w =
      f.mem.tags (lineOf (f.buffer.wbuffer (checkPtrD f.buffer)).wtag) w := by
    show (if vldReq (f.memInput i) w && !(f.memInput i).wrClVld then _ else _) = _
    rw [every w, write, addr]
    rfl
  have compares : (f.next t i).mem.cmpEn = true := by
    show (anyBit (vldReq (f.memInput i)) && !(f.memInput i).wrClVld) = true
    rw [write, Bool.not_false, Bool.and_true, RrArbiter.anyBit_iff]
    exact ⟨w, every w⟩
  rw [rdHitOh, tag, rdata, compares, hits, Bool.and_true, Bool.and_comm]
  congr 1
  exact decide_eq_decide.mpr eq_comm

/-- One cycle later the answer is registered, next to the line write of that cycle. -/
theorem Fresh.next_returns (fresh : Fresh f) (harmless : Harmless f i)
    (reads : f.buffer.checkEn = true) :
    rdHitOh f.mem (f.memInput i) =
        hits (nextTags f.mem (f.memInput i))
          (nextEntry t f.buffer (f.bufferInput i) f.buffer.checkPtr).wtag ∨
      (i.mem.wrClVld = true ∧
        hitsLine (nextEntry t f.buffer (f.bufferInput i) f.buffer.checkPtr).wtag
          i.mem.wrClIdx = true) := by
  obtain ⟨held, answer⟩ := fresh.reads reads
  have looked : lookedUp f.buffer f.buffer.checkPtr = true := by
    rw [lookedUp, reads, decide_eq_true rfl, Bool.true_and, Bool.or_true, Bool.true_or]
  rw [wtag_kept held, answer]
  rcases hits_or_hitsLine harmless held looked with same | seen
  · exact Or.inl same.symm
  · exact Or.inr seen

theorem Fresh.step (fresh : Fresh f) (harmless : Harmless f i) : Fresh (f.next t i) := by
  constructor
  · exact fun k => fresh.next_known harmless
  · exact fresh.next_reads
  · exact fun reads _ => fresh.next_returns harmless reads
  · rfl

end Step

theorem fresh_reset (tags : Tags g) : Fresh (looked (n := n) t tags).reset := by
  constructor
  · exact fun k known => absurd known Bool.false_ne_true
  · exact fun reads => absurd reads Bool.false_ne_true
  · exact fun returns => absurd returns Bool.false_ne_true
  · rfl

/-- In every run in which no line write moves a word that is looked up, unless it is the first of
its line, what the buffer knows about the cache is true. -/
theorem tags_current (t : Transfers) (tags : Tags g) (inputs : List (LookedInput g n))
    (legal : (looked t tags).Legal Harmless (looked t tags).reset inputs) :
    Current ((looked t tags).run inputs) := by
  have fresh : Fresh ((looked t tags).run inputs) :=
    (looked t tags).run_invariant (fresh_reset tags)
      (fun _ _ fresh harmless => fresh.step harmless) legal
  exact fun k known => (fresh.known k known).2

/-- The core writes the word at an index. -/
def writeWord (index : BitVec 6) : LookedInput small 3 where
  buffer := { dataReq := true, addressTag := 1, addressIndex := index, dataBe := fun _ => true }

def noWrite : LookedInput small 3 := {}

/-- The line at index 0 is refilled into the first way. -/
def refillLine : LookedInput small 3 where
  mem :=
    { wrClVld := true
      wrClWe := fun w => decide (w = 0)
      wrClTag := 1
      wrVldBits := fun w => decide (w = 0) }

/-- A word is written and looked up, then its line is refilled. -/
def refilled (index : BitVec 6) : List (LookedInput small 3) :=
  [writeWord index] ++ List.replicate 5 noWrite ++ [refillLine]

theorem tags_current_first :
    Current ((looked openpiton fun _ _ => {}).run (refilled 0 ++ List.replicate 5 noWrite)) :=
  tags_current openpiton _ _ (by decide)

/-- The refill of a line is not seen by the second word of the line. -/
theorem second_word_stale :
    (((looked openpiton fun _ _ => {}).run (refilled 8)).buffer.wbuffer 0).checked = true ∧
      ¬ Current ((looked openpiton fun _ _ => {}).run (refilled 8)) := by
  refine ⟨by decide, ?_⟩
  intro current
  have hit := congrFun (current 0 (by decide)) 0
  exact absurd hit (by decide)

end Ariane.WriteBuffer
