import Ariane.MissHazards
import Ariane.ReadController
import Ariane.WriteBufferTags

set_option autoImplicit false

/- A line is at most once in the OpenPiton data cache: the read controllers and the miss unit with
the tag array, wired as in `serpent_dcache.sv`. -/
namespace Ariane.DataCache

open MissUnit (Cache Port writePort lineOf tagOf indexOf)
open WriteBuffer (TagState TagInput Tags LineIndex)
open RrArbiter (anyBit)
open Rtl (Machine)

variable {c : Cache}

/-- The registers, with the addresses of the reads that the memory has not answered. -/
structure State (c : Cache) where
  unit : MissUnit.State c := {}
  ctrl : Fin c.readPorts → ReadController.State c := fun _ => {}
  mem : TagState c.toGeometry (c.readPorts + 1)
  sent : List (BitVec 64) := []

/-- The inputs of a cycle. The requests of the write buffer, to the miss unit and to the tags, are
among them. -/
structure Input (c : Cache) where
  unit : MissUnit.Input c := {}
  reqPorts : Fin c.readPorts → ReadController.ReqPort c := fun _ => {}
  rdReq : Bool := false
  rdIdx : LineIndex c.toGeometry := 0
  rdTag : BitVec c.tagWidth := 0

/-- What each port gives: the read controllers, and last the write buffer. -/
def perPort {α : Type} (reads : Fin c.readPorts → α) (writes : α) (k : Port c) : α :=
  if inside : k.val < c.readPorts then reads ⟨k.val, inside⟩ else writes

section Cycle

variable (s : State c) (i : Input c)

def unitInput : MissUnit.Input c :=
  { i.unit with
    miss := perPort (fun k => ReadController.missRequest (s.ctrl k) s.unit.enable)
      (i.unit.miss writePort) }

/-- The line write of the miss unit. -/
def wrCl : MissUnit.WrCl c := MissUnit.wrCl s.unit (unitInput s i)

/-- The read requests without their indices, on which no grant depends. -/
def requests : TagInput c.toGeometry (c.readPorts + 1) where
  rdReq := perPort (fun k => ReadController.rdReq (s.ctrl k) (i.reqPorts k)) i.rdReq
  rdPrio := perPort (fun _ => true) false
  rdTag := perPort (fun k => ReadController.rdTag (s.ctrl k) (i.reqPorts k)) i.rdTag
  wrClVld := (wrCl s i).vld
  wrClWe := (wrCl s i).we
  wrClTag := (wrCl s i).tag
  wrClIdx := (wrCl s i).idx
  wrVldBits := (wrCl s i).vldBits

def ctrlInput (k : Fin c.readPorts) : ReadController.Input c where
  cacheEn := s.unit.enable
  reqPort := i.reqPorts k
  missAck := MissUnit.missAck s.unit (unitInput s i) k.castSucc
  missReplay := MissUnit.missReplay s.unit (unitInput s i) k.castSucc
  missRtrnVld := MissUnit.missRtrnVld s.unit (unitInput s i) k.castSucc
  wrClVld := (wrCl s i).vld
  rdAck := WriteBuffer.rdAck s.mem (requests s i) k.castSucc
  rdVldBits w := (s.mem.rdata w).valid
  rdHitOh := WriteBuffer.rdHitOh s.mem (requests s i)

def memInput : TagInput c.toGeometry (c.readPorts + 1) :=
  { requests s i with
    rdIdx := perPort (fun k => ReadController.rdIdx (s.ctrl k) (ctrlInput s i k)) i.rdIdx }

/-- The hit vector. -/
def rdHitOh : Fin c.ways → Bool := WriteBuffer.rdHitOh s.mem (memInput s i)

def sendsLoad : Bool :=
  (MissUnit.fsm s.unit (unitInput s i)).req &&
    (MissUnit.fsm s.unit (unitInput s i)).rtype == .load && i.unit.memDataAck

def next : State c where
  unit := MissUnit.next s.unit (unitInput s i)
  ctrl k := ReadController.next (s.ctrl k) (ctrlInput s i k)
  mem := s.mem.next (memInput s i)
  sent :=
    (if MissUnit.loadAck i.unit then s.sent.tail else s.sent) ++
      if sendsLoad s i then [(MissUnit.memData s.unit (unitInput s i)).paddr] else []

end Cycle

/-- The data cache after reset. The tag array holds anything. -/
def dataCache (tags : Tags c.toGeometry) : Machine (State c) (Input c) where
  reset := { mem := { tags := tags } }
  next := next

/-- The write buffer only writes, and the memory answers reads that were sent. -/
@[mk_iff responds_iff]
structure Responds (s : State c) (i : Input c) : Prop where
  writes : (i.unit.miss writePort).we = true
  sent : MissUnit.loadAck i.unit = true → s.sent ≠ []

/-- A port whose killed request still waits in the miss unit is granted no other. -/
def Kept (s : State c) (i : Input c) : Prop :=
  s.unit.state = .loadWait → i.unit.memDataAck = false →
    ∀ k : Fin c.readPorts, MissUnit.missPortIdx s.unit (unitInput s i) = k.castSucc →
      (ReadController.fsm (s.ctrl k) (ctrlInput s i k)).gnt = false

/-- No way holds the line. -/
def Absent (tags : Tags c.toGeometry) (tag : BitVec c.tagWidth) (idx : LineIndex c.toGeometry) :
    Prop :=
  ∀ w, ¬ ((tags idx w).valid = true ∧ (tags idx w).tag = tag)

/-- A refill brings the line that was sent for, into one way, and no way has it. A lookup hits in
one way at most. -/
structure PresentOnce (s : State c) (i : Input c) : Prop where
  refill : MissUnit.clWriteEn s.unit (unitInput s i) = true → ∃ paddr, s.sent = [paddr] ∧
    (wrCl s i).tag = tagOf c paddr ∧ (wrCl s i).idx = indexOf c paddr ∧
    (∃ way, ∀ w, (wrCl s i).we w = true ↔ w = way) ∧
    Absent s.mem.tags (tagOf c paddr) (indexOf c paddr)
  hits : ∀ w w', rdHitOh s i w = true → rdHitOh s i w' = true → w = w'

section Addresses

variable (q : ReadController.State c) {a b : BitVec 64}

theorem getLsbD_lineOf (a : BitVec 64) (j : Nat) :
    (lineOf c a).getLsbD j = a.getLsbD (c.offsetWidth + j) := by
  rw [lineOf, BitVec.getLsbD_ushiftRight]

theorem indexOf_line (same : lineOf c a = lineOf c b) : indexOf c a = indexOf c b := by
  apply BitVec.eq_of_getLsbD_eq
  intro j inside
  have bit := congrArg (fun x => x.getLsbD j) same
  simp only [getLsbD_lineOf] at bit
  simp only [indexOf, BitVec.getLsbD_extractLsb', bit]

theorem tagOf_line (same : lineOf c a = lineOf c b) : tagOf c a = tagOf c b := by
  have lines := c.lines
  apply BitVec.eq_of_getLsbD_eq
  intro j inside
  have bit := congrArg (fun x => x.getLsbD (c.indexWidth - c.offsetWidth + j)) same
  simp only [getLsbD_lineOf] at bit
  rw [show c.offsetWidth + (c.indexWidth - c.offsetWidth + j) = c.indexWidth + j by omega] at bit
  simp only [tagOf, BitVec.getLsbD_extractLsb', bit]

theorem getLsbD_missPaddr (j : Nat) :
    (ReadController.missPaddr q).getLsbD j = (decide (j < 64) &&
      if j < c.offsetWidth then q.addressOff.getLsbD j
      else if j < c.indexWidth then q.addressIdx.getLsbD (j - c.offsetWidth)
      else q.addressTag.getLsbD (j - c.indexWidth)) := by
  have lines := c.lines
  rw [ReadController.missPaddr, BitVec.getLsbD_setWidth, BitVec.getLsbD_append,
    BitVec.getLsbD_append]
  by_cases low : j < c.offsetWidth
  · rw [if_pos low, if_pos low]
  · rw [if_neg low, if_neg low]
    by_cases middle : j < c.indexWidth
    · rw [if_pos (by omega), if_pos middle]
    · rw [if_neg (by omega), if_neg middle]
      rw [show j - c.offsetWidth - (c.indexWidth - c.offsetWidth) = j - c.indexWidth by omega]

theorem indexOf_missPaddr : indexOf c (ReadController.missPaddr q) = q.addressIdx := by
  have lines := c.lines
  have fits := c.fits
  apply BitVec.eq_of_getLsbD_eq
  intro j inside
  rw [indexOf, BitVec.getLsbD_extractLsb', getLsbD_missPaddr, if_neg (by omega),
    if_pos (by omega), decide_eq_true inside, decide_eq_true (by omega), Nat.add_sub_cancel_left]
  simp

theorem tagOf_missPaddr : tagOf c (ReadController.missPaddr q) = q.addressTag := by
  have lines := c.lines
  have fits := c.fits
  apply BitVec.eq_of_getLsbD_eq
  intro j inside
  rw [tagOf, BitVec.getLsbD_extractLsb', getLsbD_missPaddr, if_neg (by omega),
    if_neg (by omega), decide_eq_true inside, decide_eq_true (by omega), Nat.add_sub_cancel_left]
  simp

/-- The tag and the index make up the line of a read controller. -/
theorem lineOf_missPaddr {q' : ReadController.State c} (tags : q.addressTag = q'.addressTag)
    (indices : q.addressIdx = q'.addressIdx) :
    lineOf c (ReadController.missPaddr q) = lineOf c (ReadController.missPaddr q') := by
  apply BitVec.eq_of_getLsbD_eq
  intro j inside
  have above : ¬ c.offsetWidth + j < c.offsetWidth := by omega
  rw [getLsbD_lineOf, getLsbD_lineOf, getLsbD_missPaddr, getLsbD_missPaddr, if_neg above,
    if_neg above, tags, indices]

end Addresses

/-- The tags of an index are those of different lines. -/
def Distinct (lines : Fin c.ways → WriteBuffer.TagLine c.toGeometry) : Prop :=
  ∀ w w', (lines w).valid = true → (lines w').valid = true → (lines w).tag = (lines w').tag →
    w = w'

/-- The line that a read controller asks for may be brought into the cache. -/
def Allowed (s : State c) (k : Fin c.readPorts) : Prop :=
  s.unit.enable = true → Absent s.mem.tags (s.ctrl k).addressTag (s.ctrl k).addressIdx

/-- What ties the read controllers, the miss unit and the tag array together. -/
structure Once (s : State c) : Prop where
  busy : s.unit.mshrVld = true → ∃ paddr, s.sent = [paddr] ∧
    lineOf c paddr = lineOf c s.unit.mshr.paddr
  free : s.unit.mshrVld = false → s.sent = []
  shaped : s.unit.mshrVld = true → ∃ q : ReadController.State c,
    s.unit.mshr.paddr = ReadController.missPaddr q
  absent : s.unit.mshrVld = true → s.unit.mshr.nc = false →
    Absent s.mem.tags (tagOf c s.unit.mshr.paddr) (indexOf c s.unit.mshr.paddr)
  waits : s.unit.state = .loadWait → s.unit.mshrVld = false ∧
    ∃ k : Fin c.readPorts, RrArbiter.count s.unit.missReqMasked = k.castSucc ∧
      ((s.ctrl k).state = .missReq ∨ (s.ctrl k).state = .idle) ∧ Allowed s k
  pending : ∀ k, (s.ctrl k).state = .missReq →
    s.unit.rdrdCollision k.castSucc = true ∨ Allowed s k
  flushing : s.unit.state = .flush → s.unit.mshrVld = false ∧
    ∀ idx w, idx < s.unit.cnt → (s.mem.tags idx w).valid = false
  counts : s.unit.state ≠ .flush → s.unit.cnt = 0
  unique : ∀ idx, Distinct (s.mem.tags idx) ∨ (s.unit.state = .flush ∧ s.unit.cnt ≤ idx)
  compared : s.mem.cmpEn = true → Distinct s.mem.rdata
  looked : ∀ k, (s.ctrl k).rdAck = true → s.mem.cmpEn = true ∧ s.mem.vldSel = k.castSucc ∧
    ∀ w, s.mem.rdata w = s.mem.tags (s.ctrl k).addressIdx w

theorem once_reset (tags : Tags c.toGeometry) : Once (dataCache tags).reset where
  busy vld := absurd vld Bool.false_ne_true
  free _ := rfl
  shaped vld := absurd vld Bool.false_ne_true
  absent vld := absurd vld Bool.false_ne_true
  waits waits := by contradiction
  pending _ waits := by contradiction
  flushing _ := ⟨rfl, fun _ _ below => absurd below (BitVec.not_lt_zero)⟩
  counts other := absurd rfl other
  unique _ := Or.inr ⟨rfl, BitVec.le_def.mpr (Nat.zero_le _)⟩
  compared compares := absurd compares Bool.false_ne_true
  looked _ acked := absurd acked Bool.false_ne_true

section Tags

variable {s : State c} {i : Input c}

/-- A port that is not that of the write buffer is that of a read controller. -/
theorem readPort_of_ne {k : Port c} (other : k ≠ writePort) :
    ∃ r : Fin c.readPorts, k = r.castSucc := by
  have inside : k.val < c.readPorts := by
    have bound := k.isLt
    have last : k.val ≠ c.readPorts := fun same => other (Fin.ext same)
    omega
  exact ⟨⟨k.val, inside⟩, rfl⟩

theorem nextTags_eq (idx : LineIndex c.toGeometry) (w : Fin c.ways) :
    (next s i).mem.tags idx w =
      if (wrCl s i).vld = true ∧ (wrCl s i).we w = true ∧ idx = (wrCl s i).idx then
        ⟨(wrCl s i).vldBits w, (wrCl s i).tag⟩
      else s.mem.tags idx w := by
  simp only [next, TagState.next, WriteBuffer.nextTags, WriteBuffer.vldReq, WriteBuffer.vldAddr,
    memInput, requests]
  cases (wrCl s i).vld with
  | false => simp
  | true => simp [and_comm]

/-- Without a line write the tags stay. -/
theorem nextTags_quiet (quiet : (wrCl s i).vld = false) : (next s i).mem.tags = s.mem.tags := by
  funext idx w
  rw [nextTags_eq, quiet, if_neg]
  rintro ⟨vld, -⟩
  contradiction

/-- What a line write makes of a line: nothing, invalid, or the line of a refill. -/
theorem nextTags_cases (idx : LineIndex c.toGeometry) (w : Fin c.ways) :
    (next s i).mem.tags idx w = s.mem.tags idx w ∨
      ((next s i).mem.tags idx w).valid = false ∨
      (MissUnit.clWriteEn s.unit (unitInput s i) = true ∧ idx = indexOf c s.unit.mshr.paddr ∧
        w = s.unit.mshr.replWay ∧
        (next s i).mem.tags idx w = ⟨true, tagOf c s.unit.mshr.paddr⟩) := by
  rw [nextTags_eq]
  split
  · next wrote =>
      obtain ⟨vld, we, here⟩ := wrote
      right
      cases valid : (wrCl s i).vldBits w with
      | false => exact Or.inl rfl
      | true =>
          right
          simp only [wrCl, MissUnit.wrCl] at we here valid ⊢
          by_cases flush : MissUnit.flushEn s.unit = true
          · simp [flush] at valid
          · by_cases inv : MissUnit.invVld (unitInput s i) = true
            · simp [flush, inv] at valid
            · by_cases write : MissUnit.clWriteEn s.unit (unitInput s i) = true
              · simp only [flush, inv, write, Bool.false_eq_true, ↓reduceIte, beq_iff_eq] at valid here
                exact ⟨write, here, valid, by simp⟩
              · simp [flush, inv, write] at valid
  · exact Or.inl rfl

/-- A line that is absent stays absent, unless it is refilled. -/
theorem Absent.kept {tag : BitVec c.tagWidth} {idx : LineIndex c.toGeometry}
    (absent : Absent s.mem.tags tag idx)
    (other : MissUnit.clWriteEn s.unit (unitInput s i) = true →
      ¬ (tagOf c s.unit.mshr.paddr = tag ∧ indexOf c s.unit.mshr.paddr = idx)) :
    Absent (next s i).mem.tags tag idx := by
  intro w
  rintro ⟨valid, same⟩
  rcases nextTags_cases (s := s) (i := i) idx w with kept | invalid | ⟨write, here, -, line⟩
  · rw [kept] at valid same
    exact absent w ⟨valid, same⟩
  · rw [invalid] at valid
    contradiction
  · rw [line] at same
    exact other write ⟨same, here.symm⟩

/-- In a flush the lines of the counter become invalid. -/
theorem nextTags_flush (flush : s.unit.state = .flush) (idx : LineIndex c.toGeometry)
    (w : Fin c.ways) : ((next s i).mem.tags idx w).valid = false ∨
      (idx ≠ s.unit.cnt ∧ (next s i).mem.tags idx w = s.mem.tags idx w) := by
  have en : MissUnit.flushEn s.unit = true := by rw [MissUnit.flushEn, flush]; rfl
  rw [nextTags_eq]
  split
  · simp [wrCl, MissUnit.wrCl, en]
  · next kept =>
      right
      refine ⟨?_, rfl⟩
      rintro rfl
      apply kept
      have any : anyBit (fun _ : Fin c.ways => true) = true :=
        (RrArbiter.anyBit_iff _).mpr ⟨0, rfl⟩
      simp [wrCl, MissUnit.wrCl, en, any]

/-- A flush writes in every cycle. -/
theorem wrCl_flush (flush : s.unit.state = .flush) : (wrCl s i).vld = true := by
  have en : MissUnit.flushEn s.unit = true := by rw [MissUnit.flushEn, flush]; rfl
  have any : anyBit (fun _ : Fin c.ways => true) = true :=
    (RrArbiter.anyBit_iff _).mpr ⟨0, rfl⟩
  simp [wrCl, MissUnit.wrCl, en, any]

end Tags

section Cycle

variable {s : State c} {i : Input c}

theorem miss_castSucc (k : Fin c.readPorts) : (unitInput s i).miss k.castSucc =
    ReadController.missRequest (s.ctrl k) s.unit.enable := dif_pos k.isLt

theorem miss_writePort : (unitInput s i).miss writePort = i.unit.miss writePort :=
  dif_neg (Nat.lt_irrefl _)

/-- The answer to a read is not an invalidation. -/
theorem loadAck_returns (ack : MissUnit.loadAck i.unit = true) :
    MissUnit.invVld (unitInput s i) = false ∧ MissUnit.invVldAll (unitInput s i) = false := by
  simp only [MissUnit.loadAck, MissUnit.returns, Option.any_eq_true, beq_iff_eq] at ack
  obtain ⟨r, some, rtype⟩ := ack
  simp [MissUnit.invVld, MissUnit.invVldAll, unitInput, some, rtype]

/-- The request of a read controller, as the miss unit sees it. -/
theorem missRequest_of {k : Fin c.readPorts}
    (port : MissUnit.missPortIdx s.unit (unitInput s i) = k.castSucc) :
    MissUnit.missRequest s.unit (unitInput s i) =
      ReadController.missRequest (s.ctrl k) s.unit.enable := by
  rw [MissUnit.missRequest, port, miss_castSucc]

/-- A refill of the line of a read controller shows as a collision. -/
theorem collides_of_refill (q : ReadController.State c) {k : Fin c.readPorts}
    (shaped : s.unit.mshr.paddr = ReadController.missPaddr q) (vld : s.unit.mshrVld = true)
    (tags : tagOf c s.unit.mshr.paddr = (s.ctrl k).addressTag)
    (indices : indexOf c s.unit.mshr.paddr = (s.ctrl k).addressIdx) :
    MissUnit.rdrdCollides s.unit (unitInput s i) k.castSucc = true := by
  rw [shaped, tagOf_missPaddr] at tags
  rw [shaped, indexOf_missPaddr] at indices
  have line : lineOf c s.unit.mshr.paddr =
      lineOf c ((unitInput s i).miss k.castSucc).paddr := by
    rw [shaped, miss_castSucc]
    exact lineOf_missPaddr q tags indices
  rw [MissUnit.rdrdCollides, line, vld, beq_self_eq_true]
  rfl

theorem sends_iff : sendsLoad s i = true ↔
    (MissUnit.fsm s.unit (unitInput s i)).mshrAllocate = true := by
  rw [MissUnit.allocate_iff, sendsLoad, Bool.and_eq_true, Bool.and_eq_true, beq_iff_eq, and_assoc]
  rfl

theorem counts_next (other : (next s i).unit.state ≠ .flush) :
    (next s i).unit.cnt = 0 := by
  have count : (next s i).unit.cnt = if MissUnit.flushEn s.unit then s.unit.cnt + 1 else 0 := rfl
  rw [count]
  cases flushes : MissUnit.flushEn s.unit with
  | true =>
      rw [MissUnit.flushEn, beq_iff_eq] at flushes
      have last := MissUnit.flush_ends flushes other
      rw [MissUnit.flushDone, beq_iff_eq] at last
      rw [if_pos rfl, last, ← BitVec.neg_one_eq_allOnes]
      exact BitVec.add_left_neg 1
  | false => rfl

/-- A read controller that was served sees the lines of its index. -/
theorem looked_next (k : Fin c.readPorts) (acked : ((next s i).ctrl k).rdAck = true) :
    (next s i).mem.cmpEn = true ∧ (next s i).mem.vldSel = k.castSucc ∧
      ∀ w, (next s i).mem.rdata w =
        (next s i).mem.tags ((next s i).ctrl k).addressIdx w := by
  have served : WriteBuffer.rdAck s.mem (memInput s i) k.castSucc = true := acked
  obtain ⟨sel, enabled, any⟩ := RrArbiter.idx_of_ack served
  have quiet : (wrCl s i).vld = false := by
    rw [Bool.not_eq_true'] at enabled
    exact enabled
  have vld : (memInput s i).wrClVld = false := quiet
  have acked : WriteBuffer.rdAcked (memInput s i) = true := by
    rw [WriteBuffer.rdAcked, RrArbiter.vld, any, enabled]
    rfl
  have own : WriteBuffer.vldAddr s.mem (memInput s i) = ((next s i).ctrl k).addressIdx := by
    rw [WriteBuffer.vldAddr, vld, if_neg Bool.false_ne_true, WriteBuffer.vldSelD, sel]
    exact dif_pos k.isLt
  refine ⟨?_, sel, ?_⟩
  · simp only [next, TagState.next, vld, Bool.not_false, Bool.and_true]
    rw [RrArbiter.anyBit_iff]
    exact ⟨0, by simp [WriteBuffer.vldReq, vld, acked]⟩
  · intro w
    rw [nextTags_quiet quiet, ← own]
    simp [next, TagState.next, WriteBuffer.vldReq, vld, acked]

variable (once : Once s)
include once

/-- The cache is enabled only when every line is absent. -/
theorem Once.enable_next (enabled : (next s i).unit.enable = true) :
    s.unit.enable = true ∨ ∀ tag idx, Absent (next s i).mem.tags tag idx := by
  rcases MissUnit.enable_cases enabled with before | ⟨flush, ends⟩
  · exact Or.inl before
  · right
    rintro tag idx w ⟨valid, -⟩
    rcases nextTags_flush (i := i) flush idx w with invalid | ⟨other, same⟩
    · rw [invalid] at valid
      contradiction
    · have last : s.unit.cnt = BitVec.allOnes _ := by
        simpa [MissUnit.flushDone] using ends
      rw [last] at other
      have below : idx < s.unit.cnt := by
        have bound := idx.isLt
        have value : idx.toNat ≠ (BitVec.allOnes (c.indexWidth - c.offsetWidth)).toNat :=
          fun same => other (BitVec.eq_of_toNat_eq same)
        rw [BitVec.toNat_allOnes] at value
        rw [last, BitVec.lt_def, BitVec.toNat_allOnes]
        omega
      rw [same, (once.flushing flush).2 idx w below] at valid
      contradiction

/-- A line that a read controller keeps asking for stays allowed. -/
theorem Once.allowed_next {k : Fin c.readPorts} (other : (s.ctrl k).state ≠ .read)
    (ungranted : (ReadController.fsm (s.ctrl k) (ctrlInput s i k)).gnt = false)
    (absent : s.unit.enable = true →
      Absent (next s i).mem.tags (s.ctrl k).addressTag (s.ctrl k).addressIdx) :
    Allowed (next s i) k := by
  intro enabled
  obtain ⟨tag, idx⟩ := ReadController.next_address other ungranted
  rw [show ((next s i).ctrl k).addressTag = _ from tag,
    show ((next s i).ctrl k).addressIdx = _ from idx]
  rcases once.enable_next enabled with before | all
  · exact absent before
  · exact all _ _

/-- A lookup that misses finds its line in no way. -/
theorem Once.missed {k : Fin c.readPorts} (quiet : (wrCl s i).vld = false)
    (acked : (s.ctrl k).rdAck = true)
    (missed : (anyBit (rdHitOh s i) && s.unit.enable) = false)
    (ungranted : (ReadController.fsm (s.ctrl k) (ctrlInput s i k)).gnt = false) :
    Allowed (next s i) k := by
  obtain ⟨compares, sel, reads⟩ := once.looked k acked
  intro enabled
  have before : s.unit.enable = true := by
    rcases MissUnit.enable_cases enabled with before | ⟨flush, -⟩
    · exact before
    · rw [wrCl_flush flush] at quiet
      contradiction
  rw [before, Bool.and_true] at missed
  have idx : ((next s i).ctrl k).addressIdx = (s.ctrl k).addressIdx := by
    simp [next, ReadController.next, ReadController.rdIdx, ungranted]
  intro w
  rintro ⟨valid, tag⟩
  have hit := (RrArbiter.anyBit_eq_false _).mp missed w
  rw [nextTags_quiet quiet, idx, ← reads w] at valid tag
  have own : (memInput s i).rdTag s.mem.vldSel = ((next s i).ctrl k).addressTag := by
    rw [sel]
    exact dif_pos k.isLt
  rw [rdHitOh, WriteBuffer.rdHitOh, own, tag, valid, compares, decide_eq_true rfl] at hit
  contradiction

theorem Once.flushing_next (flushes : (next s i).unit.state = .flush) :
    (next s i).unit.mshrVld = false ∧
      ∀ idx w, idx < (next s i).unit.cnt → ((next s i).mem.tags idx w).valid = false := by
  obtain ⟨unallocated, states⟩ := MissUnit.flush_cases flushes
  have free : s.unit.mshrVld = false := by
    rcases states with ⟨flush, -⟩ | ⟨-, free⟩
    · exact (once.flushing flush).1
    · exact free
  constructor
  · simp [next, MissUnit.next, unallocated, free]
  · intro idx w below
    rcases states with ⟨flush, -⟩ | ⟨idle, -⟩
    · rcases nextTags_flush (i := i) flush idx w with invalid | ⟨other, same⟩
      · exact invalid
      · rw [same]
        apply (once.flushing flush).2
        have count : (next s i).unit.cnt = s.unit.cnt + 1 := by
          simp [next, MissUnit.next, MissUnit.flushEn, flush]
        have apart : idx.toNat ≠ s.unit.cnt.toNat := fun same => other (BitVec.eq_of_toNat_eq same)
        have one : (1 : LineIndex c.toGeometry).toNat ≤ 1 := by
          show (BitVec.ofNat _ 1).toNat ≤ 1
          rw [BitVec.toNat_ofNat]
          exact Nat.mod_le _ _
        rw [count, BitVec.lt_def, BitVec.toNat_add] at below
        have cut := Nat.mod_le (s.unit.cnt.toNat + (1 : LineIndex c.toGeometry).toNat)
          (2 ^ (c.indexWidth - c.offsetWidth))
        rw [BitVec.lt_def]
        omega
    · have count : (next s i).unit.cnt = 0 := by
        simp [next, MissUnit.next, MissUnit.flushEn, idle]
      rw [count] at below
      exact absurd below BitVec.not_lt_zero

/-- A lookup reads the lines of one index. -/
theorem Once.compared_next (compares : (next s i).mem.cmpEn = true) :
    Distinct (next s i).mem.rdata := by
  simp only [next, TagState.next, Bool.and_eq_true, Bool.not_eq_true'] at compares
  obtain ⟨any, quiet⟩ := compares
  have running : s.unit.state ≠ .flush := by
    intro flush
    have wrote := wrCl_flush (i := i) flush
    exact Bool.false_ne_true (quiet.symm.trans wrote)
  have acked : WriteBuffer.rdAcked (memInput s i) = true := by
    obtain ⟨w, bit⟩ := (RrArbiter.anyBit_iff _).mp any
    simpa [WriteBuffer.vldReq, quiet] using bit
  have reads (w : Fin c.ways) : (next s i).mem.rdata w =
      s.mem.tags (WriteBuffer.vldAddr s.mem (memInput s i)) w := by
    simp [next, TagState.next, WriteBuffer.vldReq, quiet, acked]
  intro w w' valid valid' tags
  rw [reads w] at valid tags
  rw [reads w'] at valid' tags
  rcases once.unique (WriteBuffer.vldAddr s.mem (memInput s i)) with distinct | ⟨flush, -⟩
  · exact distinct w w' valid valid' tags
  · exact absurd flush running

variable (responds : Responds s i)
include responds

/-- The memory answers the read of the MSHR. -/
theorem Once.answered (ack : MissUnit.loadAck i.unit = true) : s.unit.mshrVld = true := by
  by_contra free
  exact responds.sent ack (once.free (Bool.eq_false_of_not_eq_true free))

theorem Once.refilled (write : MissUnit.clWriteEn s.unit (unitInput s i) = true) :
    s.unit.mshrVld = true ∧ s.unit.mshr.nc = false := by
  rw [MissUnit.clWriteEn, Bool.and_eq_true, Bool.not_eq_true'] at write
  exact ⟨once.answered responds write.1, write.2⟩

/-- A read controller without a collision asks for a line that is still absent after the cycle. -/
theorem Once.absent_next {k : Fin c.readPorts} (allowed : Allowed s k)
    (apart : MissUnit.clWriteEn s.unit (unitInput s i) = true →
      MissUnit.rdrdCollides s.unit (unitInput s i) k.castSucc = false)
    (enabled : s.unit.enable = true) :
    Absent (next s i).mem.tags (s.ctrl k).addressTag (s.ctrl k).addressIdx := by
  apply (allowed enabled).kept
  rintro write ⟨tags, indices⟩
  have vld := (once.refilled responds write).1
  obtain ⟨q, shaped⟩ := once.shaped vld
  have collides := collides_of_refill (i := i) q shaped vld tags indices
  rw [apart write] at collides
  contradiction

/-- A read that is presented is that of a read controller, whose line is absent. -/
theorem Once.presented
    (req : (MissUnit.fsm s.unit (unitInput s i)).req = true)
    (load : (MissUnit.fsm s.unit (unitInput s i)).rtype = .load) :
    ∃ k : Fin c.readPorts, MissUnit.missPortIdx s.unit (unitInput s i) = k.castSucc ∧
      ((s.ctrl k).state = .missReq ∨
        (s.unit.state = .loadWait ∧ (s.ctrl k).state = .idle)) ∧
      (s.unit.enable = true →
        Absent (next s i).mem.tags (s.ctrl k).addressTag (s.ctrl k).addressIdx) := by
  rcases MissUnit.load_cases req load with waits | ⟨idle, -, -, apart, any, reads⟩
  · obtain ⟨free, k, port, state, allowed⟩ := once.waits waits
    refine ⟨k, ?_, state.imp_right fun idle => ⟨waits, idle⟩, ?_⟩
    · have locked : MissUnit.lockReqs s.unit = true := by simp [MissUnit.lockReqs, waits]
      rw [MissUnit.missPortIdx, MissUnit.missReqMasked, if_pos locked]
      exact port
    · apply once.absent_next responds allowed
      intro write
      have vld := (once.refilled responds write).1
      rw [free] at vld
      contradiction
  · have other : MissUnit.missPortIdx s.unit (unitInput s i) ≠ writePort := by
      intro same
      rw [MissUnit.missRequest, same] at reads
      have writes : ((unitInput s i).miss writePort).we = true := by
        rw [miss_writePort]
        exact responds.writes
      exact Bool.false_ne_true (reads.symm.trans writes)
    obtain ⟨k, port⟩ := readPort_of_ne other
    have asks : ReadController.missReq (s.ctrl k) = true := by
      have bit : MissUnit.missReqMasked s.unit (unitInput s i) k.castSucc = true := by
        rw [← port]
        exact RrArbiter.bit_count any
      have free : MissUnit.lockReqs s.unit = false := by simp [MissUnit.lockReqs, idle]
      rw [MissUnit.missReqMasked, free, if_neg Bool.false_ne_true] at bit
      split at bit
      · dsimp only at bit
        rw [miss_castSucc, Bool.and_eq_true] at bit
        exact bit.2
      · dsimp only at bit
        rw [miss_castSucc] at bit
        exact bit
    have state : (s.ctrl k).state = .missReq := by
      simpa [ReadController.missReq] using asks
    rw [port, MissUnit.rdrdCollision] at apart
    have req : ((unitInput s i).miss k.castSucc).req = true := by
      rw [miss_castSucc]
      exact asks
    rw [req, Bool.true_and, Bool.or_eq_false_iff] at apart
    refine ⟨k, port, Or.inl state, ?_⟩
    rcases once.pending k state with collided | allowed
    · rw [apart.1] at collided
      contradiction
    · exact once.absent_next responds allowed fun _ => apart.2

theorem Once.sent_next : (next s i).sent = if sendsLoad s i then
      [(MissUnit.memData s.unit (unitInput s i)).paddr]
    else if MissUnit.loadAck i.unit then [] else s.sent := by
  have left : MissUnit.loadAck i.unit = true → s.sent.tail = [] := by
    intro ack
    obtain ⟨paddr, sent, -⟩ := once.busy (once.answered responds ack)
    rw [sent]
    rfl
  rw [next]
  by_cases sends : sendsLoad s i = true
  · rw [if_pos sends, if_pos sends]
    split
    · next ack => rw [left ack, List.nil_append]
    · next quiet =>
        have alloc := sends_iff.mp sends
        rw [MissUnit.allocate_iff] at alloc
        have free : s.unit.mshrVld = false := by
          rcases MissUnit.load_cases alloc.1 alloc.2.1 with waits | ⟨-, free | ack, -⟩
          · exact (once.waits waits).1
          · exact free
          · exact absurd ack quiet
        rw [once.free free, List.nil_append]
  · rw [if_neg sends, if_neg sends, List.append_nil]
    split
    · next ack => exact left ack
    · rfl

/-- The MSHR after a cycle is that of the read that is sent, or it is kept. -/
theorem Once.mshr_next (vld : (next s i).unit.mshrVld = true) :
    (sendsLoad s i = true ∧ ∃ k : Fin c.readPorts,
        MissUnit.missPortIdx s.unit (unitInput s i) = k.castSucc ∧
        (next s i).unit.mshr.paddr = ReadController.missPaddr (s.ctrl k) ∧
        (next s i).unit.mshr.nc = ReadController.missNc (s.ctrl k) s.unit.enable ∧
        (s.unit.enable = true →
          Absent (next s i).mem.tags (s.ctrl k).addressTag (s.ctrl k).addressIdx)) ∨
      (sendsLoad s i = false ∧ MissUnit.loadAck i.unit = false ∧ s.unit.mshrVld = true ∧
        (next s i).unit.mshr = s.unit.mshr) := by
  simp only [next, MissUnit.next] at vld ⊢
  cases alloc : (MissUnit.fsm s.unit (unitInput s i)).mshrAllocate with
  | true =>
      left
      refine ⟨sends_iff.mpr alloc, ?_⟩
      rw [MissUnit.allocate_iff] at alloc
      obtain ⟨k, port, -, absent⟩ := once.presented responds alloc.1 alloc.2.1
      refine ⟨k, port, ?_, ?_, absent⟩
      · rw [if_pos rfl, MissUnit.allocated, missRequest_of port]
        rfl
      · rw [if_pos rfl, MissUnit.allocated, missRequest_of port]
        rfl
  | false =>
      right
      have unsent : sendsLoad s i = false := by
        apply Bool.eq_false_of_not_eq_true
        intro sends
        rw [sends_iff.mp sends] at alloc
        contradiction
      rw [alloc, if_neg Bool.false_ne_true] at vld
      cases ack : MissUnit.loadAck i.unit with
      | true =>
          rw [show MissUnit.loadAck (unitInput s i) = true from ack, if_pos rfl] at vld
          contradiction
      | false =>
          rw [show MissUnit.loadAck (unitInput s i) = false from ack,
            if_neg Bool.false_ne_true] at vld
          exact ⟨unsent, rfl, vld, by rw [if_neg Bool.false_ne_true]⟩

theorem Once.refill (write : MissUnit.clWriteEn s.unit (unitInput s i) = true) :
    MissUnit.flushEn s.unit = false ∧ (wrCl s i).tag = tagOf c s.unit.mshr.paddr ∧
      (wrCl s i).idx = indexOf c s.unit.mshr.paddr ∧
      ∀ w, (wrCl s i).we w = true ↔ w = s.unit.mshr.replWay := by
  have vld := (once.refilled responds write).1
  have quiet : MissUnit.flushEn s.unit = false := by
    rw [MissUnit.flushEn, beq_eq_false_iff_ne]
    intro flush
    rw [(once.flushing flush).1] at vld
    contradiction
  have ack : MissUnit.loadAck i.unit = true := by
    rw [MissUnit.clWriteEn, Bool.and_eq_true] at write
    exact write.1
  obtain ⟨inv, all⟩ := loadAck_returns (s := s) ack
  refine ⟨quiet, rfl, ?_, ?_⟩
  · simp [wrCl, MissUnit.wrCl, quiet, inv]
  · intro w
    simp [wrCl, MissUnit.wrCl, quiet, inv, all, write]

theorem Once.presentOnce : PresentOnce s i := by
  constructor
  · intro write
    obtain ⟨vld, cached⟩ := once.refilled responds write
    obtain ⟨paddr, sent, line⟩ := once.busy vld
    obtain ⟨-, tag, idx, we⟩ := once.refill responds write
    refine ⟨paddr, sent, ?_, ?_, ⟨_, we⟩, ?_⟩
    · rw [tag, tagOf_line line]
    · rw [idx, indexOf_line line]
    · rw [tagOf_line line, indexOf_line line]
      exact once.absent vld cached
  · intro w w' first second
    simp only [rdHitOh, WriteBuffer.rdHitOh, Bool.and_eq_true, decide_eq_true_iff]
      at first second
    apply once.compared first.2 w w' first.1.2 second.1.2
    rw [← first.1.1, second.1.1]

theorem Once.unique_next (idx : LineIndex c.toGeometry) :
    Distinct ((next s i).mem.tags idx) ∨
      ((next s i).unit.state = .flush ∧ (next s i).unit.cnt ≤ idx) := by
  by_cases flush : s.unit.state = .flush
  · by_cases here : idx = s.unit.cnt
    · left
      intro w w' valid
      rcases nextTags_flush (i := i) flush idx w with invalid | ⟨other, -⟩
      · rw [invalid] at valid
        contradiction
      · exact absurd here other
    · rcases once.unique idx with distinct | ⟨-, above⟩
      · left
        have kept (w : Fin c.ways) : ((next s i).mem.tags idx w).valid = true →
            (next s i).mem.tags idx w = s.mem.tags idx w := by
          intro valid
          rcases nextTags_flush (i := i) flush idx w with invalid | ⟨-, same⟩
          · rw [invalid] at valid
            contradiction
          · exact same
        intro w w' valid valid' tags
        rw [kept w valid, kept w' valid'] at tags
        exact distinct w w' (kept w valid ▸ valid) (kept w' valid' ▸ valid') tags
      · right
        have bound := idx.isLt
        have order : s.unit.cnt.toNat ≤ idx.toNat := above
        have apart : s.unit.cnt.toNat ≠ idx.toNat :=
          fun same => here (BitVec.eq_of_toNat_eq same.symm)
        have count : (next s i).unit.cnt = s.unit.cnt + 1 := by
          simp [next, MissUnit.next, MissUnit.flushEn, flush]
        constructor
        · by_contra ends
          have last := MissUnit.flush_ends flush ends
          rw [MissUnit.flushDone, beq_iff_eq] at last
          rw [last, BitVec.toNat_allOnes] at order apart
          omega
        · rw [count, BitVec.le_def, BitVec.toNat_add]
          have one : (1 : LineIndex c.toGeometry).toNat ≤ 1 := by
            show (BitVec.ofNat _ 1).toNat ≤ 1
            rw [BitVec.toNat_ofNat]
            exact Nat.mod_le _ _
          have small : s.unit.cnt.toNat + (1 : LineIndex c.toGeometry).toNat <
              2 ^ (c.indexWidth - c.offsetWidth) := by omega
          rw [Nat.mod_eq_of_lt small]
          omega
  · left
    have distinct : Distinct (s.mem.tags idx) := by
      rcases once.unique idx with distinct | ⟨flushes, -⟩
      · exact distinct
      · exact absurd flushes flush
    intro w w' valid valid' tags
    rcases nextTags_cases (s := s) (i := i) idx w with kept | invalid | ⟨write, here, way, line⟩
    · rcases nextTags_cases (s := s) (i := i) idx w' with kept' | invalid | ⟨write, here, way, line⟩
      · rw [kept, kept'] at tags
        exact distinct w w' (kept ▸ valid) (kept' ▸ valid') tags
      · rw [invalid] at valid'
        contradiction
      · have absent := once.absent (once.refilled responds write).1 (once.refilled responds write).2
        rw [kept, line] at tags
        rw [kept] at valid
        rw [here] at valid tags
        exact absurd ⟨valid, tags⟩ (absent w)
    · rw [invalid] at valid
      contradiction
    · rcases nextTags_cases (s := s) (i := i) idx w' with kept' | invalid | ⟨-, -, way', -⟩
      · have absent := once.absent (once.refilled responds write).1 (once.refilled responds write).2
        rw [line, kept'] at tags
        rw [kept'] at valid'
        rw [here] at valid' tags
        exact absurd ⟨valid', tags.symm⟩ (absent w')
      · rw [invalid] at valid'
        contradiction
      · rw [way, way']

theorem Once.absent_step (vld : (next s i).unit.mshrVld = true)
    (cached : (next s i).unit.mshr.nc = false) :
    Absent (next s i).mem.tags (tagOf c (next s i).unit.mshr.paddr)
      (indexOf c (next s i).unit.mshr.paddr) := by
  rcases once.mshr_next responds vld with ⟨-, k, -, paddr, nc, absent⟩ | ⟨-, quiet, before, same⟩
  · rw [paddr, tagOf_missPaddr, indexOf_missPaddr]
    apply absent
    rw [nc, ReadController.missNc, Bool.or_eq_false_iff] at cached
    exact Bool.eq_true_of_not_eq_false (by simpa using cached.2)
  · rw [same] at cached ⊢
    apply (once.absent before cached).kept
    intro write
    rw [MissUnit.clWriteEn, Bool.and_eq_true] at write
    exact absurd (quiet.symm.trans write.1) Bool.false_ne_true

/-- A read controller that waits to be served shows a collision, or its line is absent. -/
theorem Once.pending_next (k : Fin c.readPorts) (waits : ((next s i).ctrl k).state = .missReq) :
    (next s i).unit.rdrdCollision k.castSucc = true ∨ Allowed (next s i) k := by
  rcases ReadController.missReq_cases waits with
    ⟨state, -, -⟩ | ⟨-, quiet, acked, missed, ungranted⟩
  · have asks : ((unitInput s i).miss k.castSucc).req = true := by
      rw [miss_castSucc]
      simp [ReadController.missRequest, ReadController.missReq, state]
    have collision : (next s i).unit.rdrdCollision k.castSucc =
        (s.unit.rdrdCollision k.castSucc ||
          MissUnit.rdrdCollides s.unit (unitInput s i) k.castSucc) := by
      simp [next, MissUnit.next, MissUnit.rdrdCollision, asks]
    cases collides : MissUnit.rdrdCollides s.unit (unitInput s i) k.castSucc with
    | true =>
        left
        rw [collision, collides, Bool.or_true]
    | false =>
        rcases once.pending k state with collided | allowed
        · left
          rw [collision, collided, Bool.true_or]
        · right
          have other : (s.ctrl k).state ≠ .read := by
            rw [state]
            decide
          exact once.allowed_next other (ReadController.missReq_gnt state)
            (once.absent_next responds allowed fun _ => collides)
  · exact Or.inr (once.missed quiet acked missed ungranted)

/-- A read that begins to wait is that of a read controller that keeps its line. -/
theorem Once.waits_next (kept : Kept s i) (waits : (next s i).unit.state = .loadWait) :
    (next s i).unit.mshrVld = false ∧ ∃ k : Fin c.readPorts,
      RrArbiter.count (next s i).unit.missReqMasked = k.castSucc ∧
        (((next s i).ctrl k).state = .missReq ∨ ((next s i).ctrl k).state = .idle) ∧
        Allowed (next s i) k := by
  obtain ⟨req, load, quiet⟩ := MissUnit.wait_cases.1 waits
  have unacked : i.unit.memDataAck = false := quiet
  obtain ⟨k, port, state, absent⟩ := once.presented responds req load
  have unsent : sendsLoad s i = false := by
    rw [sendsLoad, unacked, Bool.and_false]
  constructor
  · by_contra vld
    rcases once.mshr_next responds (Bool.eq_true_of_not_eq_false vld) with
      ⟨sends, -⟩ | ⟨-, quiet, before, -⟩
    · rw [sends] at unsent
      contradiction
    · rcases MissUnit.load_cases req load with waited | ⟨-, free | ack, -⟩
      · rw [(once.waits waited).1] at before
        contradiction
      · rw [free] at before
        contradiction
      · exact Bool.false_ne_true (quiet.symm.trans ack)
  · refine ⟨k, port, ?_⟩
    have noAck : (ctrlInput s i k).missAck = false := by
      simp [ctrlInput, MissUnit.missAck, unitInput, unacked]
    have noReplay : (ctrlInput s i k).missReplay = false := by
      rw [ctrlInput, MissUnit.missReplay]
      dsimp only
      apply Bool.eq_false_of_not_eq_true
      intro replays
      rw [Bool.and_eq_true] at replays
      rw [(MissUnit.replay_cases replays.2).2] at req
      contradiction
    have other : (s.ctrl k).state ≠ .read := by
      rcases state with state | ⟨-, state⟩
      · rw [state]
        decide
      · rw [state]
        decide
    rcases state with state | ⟨waited, state⟩
    · obtain ⟨stays, ungranted⟩ := ReadController.next_missReq state noAck noReplay
      exact ⟨stays, once.allowed_next other ungranted absent⟩
    · have ungranted := kept waited unacked k port
      exact ⟨Or.inr (ReadController.next_idle state ungranted),
        once.allowed_next other ungranted absent⟩

theorem Once.step (kept : Kept s i) : Once (next s i) where
  busy vld := by
    rcases once.mshr_next responds vld with ⟨sends, k, port, paddr, -⟩ | ⟨unsent, quiet, before, same⟩
    · refine ⟨_, by rw [once.sent_next responds, if_pos sends], ?_⟩
      have accepted := MissUnit.allocate_iff.mp (sends_iff.mp sends)
      rw [MissUnit.memData_line (MissUnit.amoSel_cached (by decide) accepted.1 accepted.2.1),
        missRequest_of port, paddr]
      rfl
    · rw [once.sent_next responds, unsent, quiet, same]
      exact once.busy before
  free vld := by
    have unsent : sendsLoad s i = false := by
      apply Bool.eq_false_of_not_eq_true
      intro sends
      simp [next, MissUnit.next, sends_iff.mp sends] at vld
    rw [once.sent_next responds, unsent, if_neg Bool.false_ne_true]
    split
    · rfl
    · next quiet =>
        apply once.free
        rw [← vld, next]
        have unallocated : (MissUnit.fsm s.unit (unitInput s i)).mshrAllocate = false := by
          apply Bool.eq_false_of_not_eq_true
          intro alloc
          rw [sends_iff.mpr alloc] at unsent
          contradiction
        have left : MissUnit.loadAck (unitInput s i) = false := Bool.eq_false_of_not_eq_true quiet
        simp [MissUnit.next, unallocated, left]
  shaped vld := by
    rcases once.mshr_next responds vld with ⟨-, k, -, paddr, -⟩ | ⟨-, -, before, same⟩
    · exact ⟨s.ctrl k, paddr⟩
    · rw [same]
      exact once.shaped before
  absent := once.absent_step responds
  waits := once.waits_next responds kept
  pending := once.pending_next responds
  flushing := once.flushing_next
  counts := counts_next
  unique := once.unique_next responds
  compared := once.compared_next
  looked := looked_next

end Cycle

/-- In every run in which no port is granted a read while a killed one waits in the miss unit, a
line is brought into the cache only when it is not there, and a lookup hits in one way at most. -/
theorem line_present_once (tags : Tags c.toGeometry) (inputs : List (Input c)) (i : Input c)
    (legal : (dataCache tags).Legal (fun s i => Responds s i ∧ Kept s i) (dataCache tags).reset
      (inputs ++ [i])) : PresentOnce ((dataCache tags).run inputs) i := by
  rw [Machine.legal_append, Machine.legal_cons] at legal
  have once : Once ((dataCache tags).run inputs) :=
    Machine.run_invariant _ (once_reset tags)
      (fun _ _ once ok => once.step ok.1 ok.2) legal.1
  exact once.presentOnce legal.2.1.1

instance decidableResponds (s : State c) (i : Input c) : Decidable (Responds s i) :=
  decidable_of_iff _ (responds_iff s i).symm

instance decidableKept (s : State c) (i : Input c) : Decidable (Kept s i) :=
  inferInstanceAs (Decidable (_ → _ → _))

open MissUnit (small)

/-- A cycle of the first read port. -/
def cycle (p : ReadController.ReqPort small) (ack : Bool) (answer : Bool) : Input small where
  unit :=
    { enable := true
      memDataAck := ack
      memRtrn := if answer then some { rtype := .loadAck } else none
      miss := fun _ => { we := true } }
  reqPorts k := if k.val = 0 then p else {}

def quiet : Input small := cycle {} false false

def asks (index : BitVec 6) : Input small :=
  cycle { dataReq := true, addressIndex := index } false false

/-- The tag of a read, the request to the memory and its answer. -/
def misses : List (Input small) :=
  [cycle { tagValid := true, addressTag := 1 } false false, cycle {} true false,
    cycle {} false true]

/-- A line is read, and a second read of it hits. -/
def readTwice : List (Input small) :=
  List.replicate 4 quiet ++ [asks 0x10] ++ misses ++ [asks 0x10]

theorem line_present_once_hit :
    PresentOnce ((dataCache fun _ _ => {}).run readTwice)
      (cycle { tagValid := true, addressTag := 1 } false false) :=
  line_present_once (fun _ _ => {}) readTwice _ (by decide)

/-- The line is read. A miss of the same tag at another index is killed before the memory accepts
it, and the index of the next request goes out in its place. -/
def killedRead : List (Input small) :=
  List.replicate 4 quiet ++ [asks 0x10] ++ misses ++
    [asks 0x00, cycle { tagValid := true, addressTag := 1 } false false,
      cycle { killReq := true } false false, asks 0x10, quiet, cycle {} true false,
      cycle {} false true, quiet]

theorem line_present_twice :
    ¬ ∀ (tags : Tags small.toGeometry) (inputs : List (Input small)) (i : Input small),
      (dataCache tags).Legal Responds (dataCache tags).reset (inputs ++ [i]) →
        PresentOnce ((dataCache tags).run inputs) i := by
  intro once
  have present := once (fun _ _ => {}) killedRead
    (cycle { tagValid := true, addressTag := 1 } false false) (by decide)
  have same := present.hits ⟨0, by decide⟩ ⟨1, by decide⟩ (by decide) (by decide +kernel)
  exact absurd same (by decide)

end Ariane.DataCache
