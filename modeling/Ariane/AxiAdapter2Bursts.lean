import Ariane.AxiAdapter2Bench
import Mathlib.Algebra.Group.Nat.Defs

set_option autoImplicit false

/- Every burst is transferred as it was asked for. -/
namespace Ariane.AxiAdapter2

open Rtl (Machine)

variable {wordBits idWidth : Nat}

section Write

variable {w : WriteReq wordBits idWidth} {q : State wordBits idWidth} {i : Input wordBits idWidth}
  {r : AxiResp idWidth}

/-- The state while the address is sent or not, and `k` words are. -/
inductive Sending (w : WriteReq wordBits idWidth) (q : State wordBits idWidth) : Bool → Nat → Prop
  | idle (state : q.wrState = .idle) (cnt : q.wrCnt = 0) : Sending w q false 0
  | address (state : q.wrState = .waitAwReady ∨ q.wrState = .waitAwReadyBurst)
      (cnt : q.wrCnt = 0) : Sending w q false w.count
  | both (k : Nat) (state : q.wrState = .waitLastWReadyAwReady) (due : k < w.count)
      (cnt : q.wrCnt = BitVec.ofNat _ k) : Sending w q false k
  | words (k : Nat) (state : q.wrState = .waitLastWReady) (due : k < w.count)
      (cnt : q.wrCnt = BitVec.ofNat _ k) : Sending w q true k

/-- The address and all words are sent. -/
def allSent (w : WriteReq wordBits idWidth) (sent : Bool) (k : Nat) : Bool :=
  sent && decide (k = w.count)

/-- The words that are sent after a cycle. -/
def sentAfter (w : WriteReq wordBits idWidth) (r : AxiResp idWidth) (k : Nat) : Nat :=
  k + if k < w.count ∧ r.wReady = true then 1 else 0

/-- One cycle of a write: what is offered, when it is granted, and what is sent after it. -/
structure WriteCycle (w : WriteReq wordBits idWidth) (q : State wordBits idWidth)
    (i : Input wordBits idWidth) (r : AxiResp idWidth) (sent : Bool) (k : Nat) : Prop where
  awValid : (axiReq q i r).awValid = !sent
  wValid : (axiReq q i r).wValid = decide (k < w.count)
  beat : k < w.count → (axiReq q i r).w = w.beat k
  gnt : wrGnt q i r = allSent w (sent || r.awReady) (sentAfter w r k)
  idle : wrGnt q i r = true → (next q i r).wrState = .idle ∧ (next q i r).wrCnt = 0
  after : wrGnt q i r = false → Sending w (next q i r) (sent || r.awReady) (sentAfter w r k)

theorem count_lt (w : WriteReq wordBits idWidth) {k : Nat} (due : k < w.count) :
    k < 2 ^ wordBits := by
  have bound := w.blen.isLt
  rw [WriteReq.count] at due
  omega

/-- The counter is at the last word. -/
theorem wrCntDone_eq {k : Nat} (same : i.write = w) (due : k < w.count)
    (cnt : q.wrCnt = BitVec.ofNat _ k) : wrCntDone q i = decide (k + 1 = w.count) := by
  have blen : i.wrBlen = w.blen := congrArg WriteReq.blen same
  have small := count_lt w due
  rw [wrCntDone, cnt, blen, decide_eq_decide, ← BitVec.toNat_inj, BitVec.toNat_ofNat,
    Nat.mod_eq_of_lt small, WriteReq.count]
  omega

theorem beat_eq {k : Nat} (same : i.write = w) (due : k < w.count)
    (cnt : q.wrCnt = BitVec.ofNat _ k) : (axiReq q i r).w = w.beat k := by
  have last := wrCntDone_eq same due cnt
  subst same
  show (⟨i.wrData q.wrCnt, i.wrBe q.wrCnt, wrCntDone q i⟩ : AxiBeat) = _
  rw [last, cnt]
  rfl

theorem wrSingleReq_eq (same : i.write = w) : wrSingleReq i = decide (w.count = 1) := by
  have blen : i.wrBlen = w.blen := congrArg WriteReq.blen same
  rw [wrSingleReq, blen, decide_eq_decide, ← BitVec.toNat_inj, WriteReq.count]
  have zero : (0 : BitVec wordBits).toNat = 0 := BitVec.toNat_zero
  omega

theorem sentAfter_taken {k : Nat} (due : k < w.count) (ready : r.wReady = true) :
    sentAfter w r k = k + 1 := by
  rw [sentAfter, if_pos ⟨due, ready⟩]

theorem sentAfter_waits {k : Nat} (waits : r.wReady = false) : sentAfter w r k = k := by
  rw [sentAfter, if_neg fun both => Bool.false_ne_true (waits.symm.trans both.2), Nat.add_zero]

theorem sentAfter_count : sentAfter w r w.count = w.count := by
  rw [sentAfter, if_neg fun both => Nat.lt_irrefl _ both.1, Nat.add_zero]

theorem ofNat_succ (k : Nat) : (BitVec.ofNat wordBits k) + 1 = BitVec.ofNat wordBits (k + 1) :=
  (BitVec.ofNat_add k 1).symm

/-- A write in the idle state. -/
theorem idle_cycle (req : i.wrReq = true) (same : i.write = w) (state : q.wrState = .idle)
    (cnt : q.wrCnt = 0) : WriteCycle w q i r false 0 := by
  have some : 0 < w.count := Nat.succ_pos _
  have single := wrSingleReq_eq same
  have offered : (writeFsm q i r).awValid = true ∧ (writeFsm q i r).wValid = true := by
    rw [writeFsm, state]
    dsimp only
    rw [if_pos req]
    split <;> exact ⟨rfl, rfl⟩
  refine ⟨offered.1, ?_, fun due => beat_eq same due cnt, ?_, ?_, ?_⟩
  · exact offered.2.trans (decide_eq_true some).symm
  · rw [wrGnt, writeFsm, state]
    dsimp only
    rw [if_pos req, single]
    by_cases one : w.count = 1
    · rw [decide_eq_true one, if_pos rfl, allSent, sentAfter, one]
      cases r.awReady <;> cases r.wReady <;> rfl
    · rw [decide_eq_false one, if_neg Bool.false_ne_true, allSent, sentAfter]
      cases r.wReady with
      | true => rw [if_pos ⟨some, rfl⟩, decide_eq_false (by omega), Bool.and_false]
      | false =>
          rw [if_neg fun both => Bool.false_ne_true both.2, decide_eq_false (by omega),
            Bool.and_false]
  · rw [wrGnt, next, writeFsm, state]
    dsimp only
    rw [if_pos req]
    split
    · cases r.awReady <;> cases r.wReady <;> intro gnt
      · cases gnt
      · cases gnt
      · cases gnt
      · exact ⟨rfl, rfl⟩
    · intro gnt
      cases gnt
  · intro none
    by_cases one : w.count = 1
    · rw [decide_eq_true one] at single
      have fsm : (next q i r).wrCnt = 0 := by
        rw [next, writeFsm, state]
        dsimp only
        rw [if_pos req, single]
        rfl
      have after : (next q i r).wrState =
          if r.awReady = r.wReady then .idle
          else if r.wReady then .waitAwReady else .waitLastWReady := by
        rw [next, writeFsm, state]
        dsimp only
        rw [if_pos req, single]
        cases r.awReady <;> cases r.wReady <;> rfl
      have gnt : wrGnt q i r = (r.awReady && r.wReady) := by
        rw [wrGnt, writeFsm, state]
        dsimp only
        rw [if_pos req, single]
        rfl
      cases aw : r.awReady <;> cases ready : r.wReady <;> rw [aw, ready] at after gnt
      · rw [sentAfter_waits ready]
        exact .idle after fsm
      · rw [sentAfter_taken some ready, show 0 + 1 = w.count by omega]
        exact .address (.inl after) fsm
      · rw [sentAfter_waits ready]
        exact .words 0 after some fsm
      · cases none.symm.trans gnt
    · rw [decide_eq_false one] at single
      have fsm : (next q i r).wrCnt = BitVec.ofNat _ (sentAfter w r 0) := by
        rw [next, writeFsm, state]
        dsimp only
        rw [if_pos req, single, cnt]
        cases ready : r.wReady with
        | true =>
            rw [sentAfter_taken some ready, ← ofNat_succ]
            rfl
        | false =>
            rw [sentAfter_waits ready]
            rfl
      have after : (next q i r).wrState =
          if r.awReady then .waitLastWReady
          else if r.wReady then .waitLastWReadyAwReady else .idle := by
        rw [next, writeFsm, state]
        dsimp only
        rw [if_pos req, single]
        cases r.awReady <;> cases r.wReady <;> rfl
      cases aw : r.awReady <;> cases ready : r.wReady <;> rw [aw, ready] at after
      · rw [sentAfter_waits ready] at fsm ⊢
        exact .idle after fsm
      · rw [sentAfter_taken some ready] at fsm ⊢
        exact .both 1 after (by omega) fsm
      · rw [sentAfter_waits ready] at fsm ⊢
        exact .words 0 after some fsm
      · rw [sentAfter_taken some ready] at fsm ⊢
        exact .words 1 after (by omega) fsm

/-- Only the address is missing. -/
theorem address_cycle (state : q.wrState = .waitAwReady ∨ q.wrState = .waitAwReadyBurst)
    (cnt : q.wrCnt = 0) : WriteCycle w q i r false w.count := by
  have fsm : (writeFsm q i r).awValid = true ∧ (writeFsm q i r).wValid = false ∧
      (writeFsm q i r).wrGnt = r.awReady ∧ (writeFsm q i r).wrCntClr = false ∧
      (writeFsm q i r).wrCntEn = false ∧
      (writeFsm q i r).wrState = if r.awReady then .idle else q.wrState := by
    rcases state with state | state
    · rw [writeFsm, state]
      cases r.awReady <;> exact ⟨rfl, rfl, rfl, rfl, rfl, rfl⟩
    · rw [writeFsm, state]
      cases r.awReady <;> exact ⟨rfl, rfl, rfl, rfl, rfl, rfl⟩
  obtain ⟨aw, word, gnt, clr, en, after⟩ := fsm
  have kept : (next q i r).wrCnt = 0 := by
    rw [next, clr, en]
    exact cnt
  refine ⟨aw, ?_, fun due => absurd due (Nat.lt_irrefl _), ?_, ?_, ?_⟩
  · exact word.trans (decide_eq_false (Nat.lt_irrefl _)).symm
  · rw [sentAfter_count, allSent, decide_eq_true rfl, Bool.and_true, Bool.false_or]
    exact gnt
  · intro granted
    have ready : r.awReady = true := gnt.symm.trans granted
    rw [ready, if_pos rfl] at after
    exact ⟨after, kept⟩
  · intro none
    have waits : r.awReady = false := gnt.symm.trans none
    rw [waits, if_neg Bool.false_ne_true] at after
    rw [waits, sentAfter_count]
    refine .address ?_ kept
    rcases state with state | state
    · exact .inl (after.trans state)
    · exact .inr (after.trans state)

/-- The address and words are missing. -/
theorem both_cycle {k : Nat} (same : i.write = w) (state : q.wrState = .waitLastWReadyAwReady)
    (due : k < w.count) (cnt : q.wrCnt = BitVec.ofNat _ k) : WriteCycle w q i r false k := by
  have last := wrCntDone_eq same due cnt
  have offered : (writeFsm q i r).awValid = true ∧ (writeFsm q i r).wValid = true := by
    rw [writeFsm, state]
    cases r.awReady <;> cases r.wReady <;> cases wrCntDone q i <;> exact ⟨rfl, rfl⟩
  have gnt : wrGnt q i r = allSent w (false || r.awReady) (sentAfter w r k) := by
    rw [wrGnt, writeFsm, state, allSent]
    cases r.awReady with
    | false => cases r.wReady <;> cases wrCntDone q i <;> rfl
    | true =>
        cases ready : r.wReady with
        | true =>
            rw [sentAfter_taken due ready, ← last]
            cases wrCntDone q i <;> rfl
        | false =>
            rw [sentAfter_waits ready, decide_eq_false (by omega)]
            rfl
  refine ⟨offered.1, offered.2.trans (decide_eq_true due).symm, fun due => beat_eq same due cnt,
    gnt, ?_, ?_⟩
  · rw [wrGnt, next, writeFsm, state]
    cases r.awReady <;> cases r.wReady <;> cases wrCntDone q i <;> intro granted
    all_goals first | exact ⟨rfl, rfl⟩ | cases granted
  · intro none
    cases aw : r.awReady <;> cases ready : r.wReady
    · rw [sentAfter_waits ready]
      refine .both k ?_ due ?_ <;> rw [next, writeFsm, state, aw, ready]
      exact cnt
    · rw [sentAfter_taken due ready]
      by_cases final : k + 1 = w.count
      · rw [final, Bool.or_false]
        rw [decide_eq_true final] at last
        refine .address (.inr ?_) ?_ <;> rw [next, writeFsm, state, aw, ready, last]
        · rfl
        · rfl
      · rw [decide_eq_false final] at last
        refine .both (k + 1) ?_ (by omega) ?_ <;> rw [next, writeFsm, state, aw, ready, last]
        · rfl
        · rw [← ofNat_succ, ← cnt]
          rfl
    · rw [sentAfter_waits ready]
      refine .words k ?_ due ?_ <;> rw [next, writeFsm, state, aw, ready]
      exact cnt
    · rw [sentAfter_taken due ready]
      by_cases final : k + 1 = w.count
      · rw [none, aw, sentAfter_taken due ready, allSent, decide_eq_true final] at gnt
        cases gnt
      · rw [decide_eq_false final] at last
        refine .words (k + 1) ?_ (by omega) ?_ <;> rw [next, writeFsm, state, aw, ready, last]
        · rfl
        · rw [← ofNat_succ, ← cnt]
          rfl

/-- Only words are missing. -/
theorem words_cycle {k : Nat} (same : i.write = w) (state : q.wrState = .waitLastWReady)
    (due : k < w.count) (cnt : q.wrCnt = BitVec.ofNat _ k) : WriteCycle w q i r true k := by
  have last := wrCntDone_eq same due cnt
  have offered : (writeFsm q i r).awValid = false ∧ (writeFsm q i r).wValid = true := by
    rw [writeFsm, state]
    cases r.wReady <;> cases wrCntDone q i <;> exact ⟨rfl, rfl⟩
  have gnt : wrGnt q i r = allSent w (true || r.awReady) (sentAfter w r k) := by
    rw [wrGnt, writeFsm, state, allSent, Bool.true_or, Bool.true_and]
    cases ready : r.wReady with
    | true =>
        rw [sentAfter_taken due ready, ← last]
        cases wrCntDone q i <;> rfl
    | false =>
        rw [sentAfter_waits ready, decide_eq_false (by omega)]
        cases wrCntDone q i <;> rfl
  refine ⟨offered.1, offered.2.trans (decide_eq_true due).symm, fun due => beat_eq same due cnt,
    gnt, ?_, ?_⟩
  · rw [wrGnt, next, writeFsm, state]
    cases r.wReady <;> cases wrCntDone q i <;> intro granted
    all_goals first | exact ⟨rfl, rfl⟩ | cases granted
  · intro none
    rw [Bool.true_or]
    cases ready : r.wReady with
    | false =>
        rw [sentAfter_waits ready]
        refine .words k ?_ due ?_
        · rw [next, writeFsm, state, ready]
          cases wrCntDone q i <;> rfl
        · rw [next, writeFsm, state, ready]
          cases wrCntDone q i <;> exact cnt
    | true =>
        rw [sentAfter_taken due ready]
        by_cases final : k + 1 = w.count
        · rw [none, sentAfter_taken due ready, allSent, Bool.true_or, decide_eq_true final] at gnt
          cases gnt
        · rw [decide_eq_false final] at last
          refine .words (k + 1) ?_ (by omega) ?_ <;> rw [next, writeFsm, state, ready, last]
          · rfl
          · rw [← ofNat_succ, ← cnt]
            rfl

/-- Every order of handshakes sends the same burst. -/
theorem Sending.cycle {sent : Bool} {k : Nat} (sending : Sending w q sent k)
    (req : i.wrReq = true) (same : i.write = w) : WriteCycle w q i r sent k := by
  cases sending with
  | idle state cnt => exact idle_cycle req same state cnt
  | address state cnt => exact address_cycle state cnt
  | both _ state due cnt => exact both_cycle same state due cnt
  | words _ state due cnt => exact words_cycle same state due cnt

theorem Sending.le {sent : Bool} {k : Nat} (sending : Sending w q sent k) : k ≤ w.count := by
  cases sending with
  | idle state cnt => exact Nat.zero_le _
  | address state cnt => exact Nat.le_refl _
  | both _ state due cnt | words _ state due cnt => exact Nat.le_of_lt due

theorem sentAfter_le {k : Nat} (le : k ≤ w.count) : sentAfter w r k ≤ w.count := by
  rw [sentAfter]
  split <;> omega

end Write

section WriteLog

variable {s : Bench wordBits idWidth} {i : Input wordBits idWidth} {r : AxiResp idWidth}

/-- The write that is sent, and what was sent of it. -/
inductive Writing (s : Bench wordBits idWidth) : Prop
  | quiet (state : s.regs.wrState = .idle) (cnt : s.regs.wrCnt = 0) (aws : s.aws = [])
      (beats : s.beats = [])
  | busy (w : WriteReq wordBits idWidth) (sent : Bool) (k : Nat) (sending : Sending w s.regs sent k)
      (pending : s.pending = some w) (aws : s.aws = if sent then [w.aw] else [])
      (beats : s.beats = (List.range k).map w.beat)

/-- The laws of the write channel. -/
structure WriteLaw (s : Bench wordBits idWidth) (i : Input wordBits idWidth)
    (r : AxiResp idWidth) : Prop where
  offers : i.wrReq = true → (s.axiReq i r).awValid = s.aws.isEmpty ∧
    (s.axiReq i r).wValid = decide (s.beats.length < i.write.count)
  quiet : i.wrReq = false → (s.axiReq i r).awValid = false ∧ (s.axiReq i r).wValid = false
  sends : i.wrReq = true → s.awsAfter i r <+: [i.write.aw] ∧
    s.beatsAfter i r <+: (List.range i.write.count).map i.write.beat
  grant : s.wrGnt i r = true ↔ i.wrReq = true ∧ s.awsAfter i r = [i.write.aw] ∧
    s.beatsAfter i r = (List.range i.write.count).map i.write.beat

/-- The first words of a burst. -/
theorem range_prefix (w : WriteReq wordBits idWidth) {k : Nat} (le : k ≤ w.count) :
    (List.range k).map w.beat <+: (List.range w.count).map w.beat := by
  obtain ⟨d, total⟩ := Nat.exists_eq_add_of_le le
  rw [total, List.range_add, List.map_append]
  exact List.prefix_append _ _

/-- Single words are of the fixed kind. -/
theorem burst_eq (blen : BitVec wordBits) :
    (if decide (blen = 0) = true then (0 : BitVec 2) else 1) = if blen = 0 then 0 else 1 := by
  by_cases single : blen = 0
  · rw [if_pos single, decide_eq_true single]
    rfl
  · rw [if_neg single, decide_eq_false single]
    rfl

/-- A cycle of a write, in what was sent. -/
theorem write_step {w : WriteReq wordBits idWidth} {sent : Bool} {k : Nat}
    (sending : Sending w s.regs sent k) (req : i.wrReq = true) (same : i.write = w)
    (aws : s.aws = if sent then [w.aw] else []) (beats : s.beats = (List.range k).map w.beat) :
    WriteLaw s i r ∧ Writing (s.next i r) := by
  have cycle : WriteCycle w s.regs i r sent k := sending.cycle req same
  have address : (s.axiReq i r).aw = w.aw := by
    rw [← same]
    show (⟨_, _, _, _, if decide (i.wrBlen = 0) = true then 0 else 1⟩ : AxiAddr idWidth) = _
    rw [burst_eq]
    rfl
  have awsAfter : s.awsAfter i r = if sent || r.awReady then [w.aw] else [] := by
    rw [Bench.awsAfter, address, aws, show (s.axiReq i r).awValid = !sent from cycle.awValid]
    cases sent <;> rfl
  have beatsAfter : s.beatsAfter i r = (List.range (sentAfter w r k)).map w.beat := by
    rw [Bench.beatsAfter, beats,
      show (s.axiReq i r).wValid = decide (k < w.count) from cycle.wValid]
    by_cases due : k < w.count
    · rw [decide_eq_true due, Bool.true_and, show (s.axiReq i r).w = w.beat k from cycle.beat due]
      cases ready : r.wReady with
      | true =>
          rw [sentAfter_taken due ready, List.range_succ, List.map_append]
          rfl
      | false =>
          rw [sentAfter_waits ready]
          exact List.append_nil _
    · have all : k = w.count := Nat.le_antisymm sending.le (Nat.le_of_not_lt due)
      rw [decide_eq_false due, all, sentAfter_count]
      exact List.append_nil _
  have granted : s.wrGnt i r = allSent w (sent || r.awReady) (sentAfter w r k) := cycle.gnt
  constructor
  · subst same
    refine ⟨fun _ => ⟨?_, ?_⟩, fun none => absurd (none.symm.trans req) Bool.false_ne_true,
      fun _ => ⟨?_, ?_⟩, ?_⟩
    · rw [show (s.axiReq i r).awValid = !sent from cycle.awValid, aws]
      cases sent <;> rfl
    · rw [show (s.axiReq i r).wValid = decide _ from cycle.wValid, beats, List.length_map,
        List.length_range]
    · rw [awsAfter]
      cases sent || r.awReady
      · exact List.nil_prefix
      · exact List.prefix_refl _
    · rw [beatsAfter]
      exact range_prefix _ (sentAfter_le sending.le)
    · rw [granted, allSent, awsAfter, beatsAfter, Bool.and_eq_true, decide_eq_true_iff]
      constructor
      · rintro ⟨address, words⟩
        rw [address, words]
        exact ⟨req, rfl, rfl⟩
      · rintro ⟨-, address, words⟩
        constructor
        · cases all : sent || r.awReady with
          | true => rfl
          | false =>
              rw [all] at address
              cases address
        · have length := congrArg List.length words
          rw [List.length_map, List.length_map, List.length_range, List.length_range] at length
          exact length
  · cases gnt : s.wrGnt i r with
    | true =>
        obtain ⟨state, cnt⟩ := cycle.idle gnt
        refine .quiet state cnt ?_ ?_
        · show (if s.wrGnt i r = true then [] else _) = []
          rw [if_pos gnt]
        · show (if s.wrGnt i r = true then [] else _) = []
          rw [if_pos gnt]
    | false =>
        refine .busy w _ _ (cycle.after gnt) ?_ ?_ ?_
        · show (if (i.wrReq && !s.wrGnt i r) = true then some i.write else none) = some w
          rw [req, gnt, same]
          rfl
        · show (if s.wrGnt i r = true then [] else s.awsAfter i r) = _
          rw [gnt, awsAfter]
          rfl
        · show (if s.wrGnt i r = true then [] else s.beatsAfter i r) = _
          rw [gnt, beatsAfter]
          rfl

/-- An idle write channel without a request. -/
theorem quiet_step (state : s.regs.wrState = .idle) (cnt : s.regs.wrCnt = 0) (aws : s.aws = [])
    (beats : s.beats = []) (none : i.wrReq = false) :
    WriteLaw s i r ∧ Writing (s.next i r) := by
  have fsm : writeFsm s.regs i r = { wrState := .idle } := by
    rw [writeFsm, state]
    dsimp only
    rw [none, if_neg Bool.false_ne_true]
  have offered : (s.axiReq i r).awValid = false ∧ (s.axiReq i r).wValid = false := by
    show (writeFsm s.regs i r).awValid = false ∧ (writeFsm s.regs i r).wValid = false
    rw [fsm]
    exact ⟨rfl, rfl⟩
  have gnt : s.wrGnt i r = false := by
    show (writeFsm s.regs i r).wrGnt = false
    rw [fsm]
  have asked : ¬i.wrReq = true := Bool.eq_false_iff.mp none
  refine ⟨⟨fun req => absurd req asked, fun _ => offered, fun req => absurd req asked, ?_⟩, ?_⟩
  · rw [gnt]
    exact ⟨fun granted => absurd granted Bool.false_ne_true, fun all => absurd all.1 asked⟩
  · refine .quiet ?_ ?_ ?_ ?_
    · show (writeFsm s.regs i r).wrState = .idle
      rw [fsm]
    · show (if (writeFsm s.regs i r).wrCntClr = true then _
        else if (writeFsm s.regs i r).wrCntEn = true then _ else s.regs.wrCnt) = 0
      rw [fsm]
      exact cnt
    · show (if s.wrGnt i r = true then [] else s.awsAfter i r) = []
      rw [gnt, Bench.awsAfter, offered.1, aws]
      rfl
    · show (if s.wrGnt i r = true then [] else s.beatsAfter i r) = []
      rw [gnt, Bench.beatsAfter, offered.2, beats]
      rfl

/-- Nothing waits where nothing is asked. -/
theorem next_pending_none (none : i.wrReq = false) : (s.next i r).pending = Option.none := by
  show (if (i.wrReq && !s.wrGnt i r) = true then _ else Option.none) = Option.none
  rw [none, Bool.false_and, if_neg Bool.false_ne_true]

theorem Writing.step (writing : Writing s) (contract : Contract s i r) :
    WriteLaw s i r ∧ Writing (s.next i r) := by
  cases writing with
  | quiet state cnt aws beats =>
      cases req : i.wrReq with
      | true => exact write_step (w := i.write) (.idle state cnt) req rfl aws beats
      | false => exact quiet_step state cnt aws beats req
  | busy w sent k sending pending aws beats =>
      obtain ⟨req, same⟩ := contract.held w pending
      exact write_step sending req same aws beats

end WriteLog

section Read

variable {s : Bench wordBits idWidth} {i : Input wordBits idWidth} {r : AxiResp idWidth}

/-- The read that is served, and the one that is shown. -/
structure Reading (s : Bench wordBits idWidth) : Prop where
  cnt : s.regs.rdCnt = BitVec.ofNat _ s.words.length
  stored : ∀ k (inside : k < s.words.length), s.regs.rdData (BitVec.ofNat _ k) = s.words[k]
  empty : s.read = none → s.words = []
  short : ∀ a, s.read = some a → s.words.length ≤ a.blen.toNat ∧ a.blen.toNat < 256
  answers : s.regs.rdValid = s.due.isSome
  returns : ∀ a words, s.due = some (a, words) → s.regs.rdId = a.id ∧
    words.length = a.blen.toNat + 1 ∧
    ∀ k (inside : k < words.length), s.regs.rdData (BitVec.ofNat _ k) = words[k]

/-- The length is announced as it is. -/
theorem len_toNat {a : ReadReq wordBits idWidth} (short : a.blen.toNat < 256) :
    a.ar.len.toNat = a.blen.toNat := by
  show (a.blen.setWidth 8).toNat = _
  rw [BitVec.toNat_setWidth, Nat.mod_eq_of_lt short]

/-- A cycle without a word. -/
theorem Reading.wait (reading : Reading s) (contract : Contract s i r) (condition : Condition s i r)
    (late : r.rValid = false) : Reading (s.next i r) := by
  have completed : s.completed r = none := by
    rw [Bench.completed]
    cases s.read with
    | none => rfl
    | some a => exact if_neg fun both => Bool.false_ne_true (late.symm.trans both.1)
  have words : (s.next i r).words = s.words := by
    show (if (s.completed r).isSome = true then [] else
      if r.rValid = true then _ else s.words) = s.words
    rw [completed, late]
    rfl
  have due : (s.next i r).due = none := completed
  have read : (s.next i r).read = if rdGnt i r then some i.read else s.read := by
    show (if rdGnt i r = true then some i.read
      else if (s.completed r).isSome = true then none else s.read) = _
    rw [completed]
    rfl
  have data : ∀ k, (s.next i r).regs.rdData k = s.regs.rdData k := by
    intro k
    show (if (decide (s.regs.rdCnt = k) && r.rValid) = true then _ else _) = _
    rw [late, Bool.and_false, if_neg Bool.false_ne_true]
  refine ⟨?_, ?_, ?_, ?_, ?_, ?_⟩
  · show (if r.rLast = true then 0 else if r.rValid = true then _ else s.regs.rdCnt) = _
    rw [words, late, if_neg Bool.false_ne_true]
    cases before : s.words with
    | nil =>
        have zero := reading.cnt
        rw [before] at zero
        rw [zero]
        split <;> rfl
    | cons first rest =>
        have low : r.rLast = false :=
          condition.last (by rw [before]; exact List.cons_ne_nil _ _) late
        rw [low, if_neg Bool.false_ne_true, ← before]
        exact reading.cnt
  · intro k inside
    simp only [words] at inside ⊢
    rw [data]
    exact reading.stored k inside
  · intro after
    rw [read] at after
    rw [words]
    split at after
    · cases after
    · exact reading.empty after
  · intro a after
    rw [read] at after
    rw [words]
    split at after
    · next gnt =>
        rw [rdGnt, Bool.and_eq_true] at gnt
        rw [reading.empty (contract.one gnt.1)]
        cases after
        exact ⟨Nat.zero_le _, condition.fits gnt.1⟩
    · exact reading.short a after
  · rw [due]
    show (r.rValid && r.rLast) = false
    rw [late, Bool.false_and]
  · intro a ws shown
    rw [due] at shown
    cases shown

/-- A word is stored behind the ones before it. -/
theorem Reading.store (reading : Reading s) {a : ReadReq wordBits idWidth} (read : s.read = some a)
    (word : r.rValid = true) :
    ∀ k (inside : k < (s.words ++ [r.rData]).length),
      (next s.regs i r).rdData (BitVec.ofNat _ k) = (s.words ++ [r.rData])[k] := by
  intro k inside
  have bound := a.blen.isLt
  have short := (reading.short a read).1
  rw [List.length_append, List.length_singleton] at inside
  have same : s.regs.rdCnt = BitVec.ofNat wordBits k ↔ s.words.length = k := by
    rw [reading.cnt, ← BitVec.toNat_inj, BitVec.toNat_ofNat, BitVec.toNat_ofNat,
      Nat.mod_eq_of_lt (by omega), Nat.mod_eq_of_lt (by omega)]
  show (if (decide (s.regs.rdCnt = BitVec.ofNat wordBits k) && r.rValid) = true then r.rData
    else s.regs.rdData (BitVec.ofNat wordBits k)) = _
  rw [word, Bool.and_true]
  by_cases last : s.words.length = k
  · rw [decide_eq_true (same.mpr last), if_pos rfl]
    subst last
    rw [List.getElem_concat_length rfl]
  · have early : k < s.words.length := by omega
    rw [decide_eq_false (mt same.mp last), if_neg Bool.false_ne_true,
      List.getElem_append_left early]
    exact reading.stored k early

/-- A cycle with a word. -/
theorem Reading.word (reading : Reading s) (contract : Contract s i r) (word : r.rValid = true) :
    Reading (s.next i r) := by
  obtain ⟨a, read, most, last, id⟩ := contract.slave word
  obtain ⟨le, short⟩ := reading.short a read
  have stored := reading.store (i := i) read word
  rw [len_toNat short] at most last
  have gnt : rdGnt i r = false := by
    rw [Bool.eq_false_iff, rdGnt, Ne, Bool.and_eq_true]
    intro both
    cases read.symm.trans (contract.one both.1)
  by_cases final : s.words.length = a.blen.toNat
  · have completed : s.completed r = some (a, s.words ++ [r.rData]) := by
      rw [Bench.completed, read, Option.bind_some, if_pos ⟨word, final⟩]
    have words : (s.next i r).words = [] := by
      show (if (s.completed r).isSome = true then [] else _) = []
      rw [completed]
      rfl
    have due : (s.next i r).due = some (a, s.words ++ [r.rData]) := completed
    have after : (s.next i r).read = none := by
      show (if rdGnt i r = true then _ else if (s.completed r).isSome = true then none else _) = none
      rw [gnt, completed]
      rfl
    refine ⟨?_, ?_, fun _ => words, ?_, ?_, ?_⟩
    · show (if r.rLast = true then 0 else _) = _
      rw [words, if_pos (last.mpr final)]
      rfl
    · intro k inside
      simp only [words] at inside
      exact absurd inside (Nat.not_lt_zero k)
    · intro b some
      rw [after] at some
      cases some
    · rw [due]
      show (r.rValid && r.rLast) = true
      rw [word, last.mpr final]
      rfl
    · intro b ws shown
      rw [due, Option.some.injEq, Prod.mk.injEq] at shown
      obtain ⟨rfl, rfl⟩ := shown
      refine ⟨id, ?_, stored⟩
      rw [List.length_append, List.length_singleton, final]
  · have completed : s.completed r = none := by
      rw [Bench.completed, read, Option.bind_some, if_neg fun both => final both.2]
    have more : r.rLast = false := Bool.eq_false_iff.mpr fun ends => final (last.mp ends)
    have words : (s.next i r).words = s.words ++ [r.rData] := by
      show (if (s.completed r).isSome = true then [] else if r.rValid = true then _ else _) = _
      rw [completed, word]
      rfl
    have due : (s.next i r).due = none := completed
    have after : (s.next i r).read = some a := by
      show (if rdGnt i r = true then _
        else if (s.completed r).isSome = true then none else s.read) = some a
      rw [gnt, completed]
      exact read
    refine ⟨?_, ?_, ?_, ?_, ?_, ?_⟩
    · show (if r.rLast = true then 0 else if r.rValid = true then s.regs.rdCnt + 1 else _) = _
      rw [more, word, if_neg Bool.false_ne_true, if_pos rfl, words, reading.cnt, ofNat_succ,
        List.length_append, List.length_singleton]
    · intro k inside
      simp only [words] at inside ⊢
      exact stored k inside
    · intro none
      rw [after] at none
      cases none
    · intro b some
      rw [after, Option.some.injEq] at some
      subst some
      rw [words, List.length_append, List.length_singleton]
      exact ⟨by omega, short⟩
    · rw [due]
      show (r.rValid && r.rLast) = false
      rw [more, Bool.and_false]
    · intro b ws shown
      rw [due] at shown
      cases shown

theorem Reading.step (reading : Reading s) (contract : Contract s i r)
    (condition : Condition s i r) : Reading (s.next i r) := by
  cases word : r.rValid with
  | true => exact reading.word contract word
  | false => exact reading.wait contract condition word

end Read

section Runs

variable {inputs : Nat → Input wordBits idWidth × AxiResp idWidth}

theorem law_of_inv {s : Bench wordBits idWidth} {i : Input wordBits idWidth} {r : AxiResp idWidth}
    (writes : WriteLaw s i r) (reading : Reading s) : Law s i r := by
  refine ⟨writes.offers, writes.quiet, writes.sends, writes.grant, ⟨rfl, ?_⟩, reading.answers,
    reading.returns⟩
  show (⟨_, _, _, _, if decide (i.rdBlen = 0) = true then 0 else 1⟩ : AxiAddr idWidth) = _
  rw [burst_eq]
  rfl

theorem inv_run
    (contract : ∀ t, Contract (benchAt inputs t) (inputs t).1 (inputs t).2)
    (condition : ∀ t, Condition (benchAt inputs t) (inputs t).1 (inputs t).2) (t : Nat) :
    Writing (benchAt inputs t) ∧ Reading (benchAt inputs t) := by
  induction t with
  | zero =>
      refine ⟨.quiet rfl rfl rfl rfl, rfl, fun k inside => absurd inside (Nat.not_lt_zero k),
        fun _ => rfl, ?_, rfl, ?_⟩
      · intro a some
        cases some
      · intro a words shown
        cases shown
  | succ t ih =>
      exact ⟨(ih.1.step (contract t)).2, ih.2.step (contract t) (condition t)⟩

/-- For every number of words, in every run in which `r.last` stays low between the words of a read
and the lengths fit the bus, every burst is transferred as it was asked for. -/
theorem bursts_transferred
    (contract : ∀ t, Contract (benchAt inputs t) (inputs t).1 (inputs t).2)
    (condition : ∀ t, Condition (benchAt inputs t) (inputs t).1 (inputs t).2) (t : Nat) :
    Law (benchAt inputs t) (inputs t).1 (inputs t).2 := by
  obtain ⟨writing, reading⟩ := inv_run contract condition t
  exact law_of_inv (writing.step (contract t)).1 reading

end Runs

section Example

/-- A write and a read of two words each. Between the words of the read the slave drives `r.last`
high in cycle 2, or not. -/
def twoWords (glitch : Bool) (t : Nat) : Input 1 1 × AxiResp 1 :=
  ({  rdReq := decide (t = 0)
      rdAddr := 64
      rdBlen := 1
      rdSize := 3
      rdId := 1
      rdRdy := true
      wrReq := decide (t < 2)
      wrAddr := 128
      wrData := fun k => k.setWidth 64
      wrBe := fun _ => 0xff
      wrBlen := 1
      wrSize := 3
      wrId := 0
      wrRdy := true },
    { awReady := true
      wReady := true
      arReady := true
      rValid := decide (t = 1 ∨ t = 3)
      rId := 1
      rData := if t = 1 then 5 else 7
      rLast := decide (t = 3) || glitch && decide (t = 2) })

theorem twoWords_contract (glitch : Bool) (t : Nat) :
    Contract (benchAt (twoWords glitch) t) (twoWords glitch t).1 (twoWords glitch t).2 := by
  refine ⟨?_, rfl, ?_, ?_⟩
  · intro w pending
    have early : t = 0 ∨ t = 1 ∨ t = 2 ∨ 3 ≤ t := by omega
    rcases early with rfl | rfl | rfl | later
    · cases pending
    · exact ⟨rfl, Option.some.inj pending⟩
    · cases glitch <;> cases pending
    · obtain ⟨d, rfl⟩ := Nat.exists_eq_add_of_le' later
      have asked : (twoWords glitch (d + 2)).1.wrReq = false :=
        decide_eq_false (show ¬d + 2 < 2 by omega)
      have none : (benchAt (twoWords glitch) (d + 3)).pending = none := next_pending_none asked
      rw [none] at pending
      cases pending
  · intro asks
    have first : t = 0 := of_decide_eq_true asks
    subst first
    rfl
  · intro word
    have cycle : t = 1 ∨ t = 3 := of_decide_eq_true word
    rcases cycle with rfl | rfl
    · cases glitch <;> exact ⟨_, rfl, by decide, by decide, rfl⟩
    · cases glitch <;> exact ⟨_, rfl, by decide, by decide, rfl⟩

/-- The second word of the read overwrites the first. -/
theorem word_overwritten :
    (∀ t, Contract (benchAt (twoWords true) t) (twoWords true t).1 (twoWords true t).2) ∧
      ¬∀ t, Law (benchAt (twoWords true) t) (twoWords true t).1 (twoWords true t).2 := by
  refine ⟨twoWords_contract true, fun law => ?_⟩
  obtain ⟨-, -, returned⟩ := (law 4).returns ⟨64, 1, 3, 1⟩ [5, 7] rfl
  exact absurd (returned 0 (by decide)) (by decide)

/-- Without that both words are returned. -/
theorem twoWords_transferred :
    Law (benchAt (twoWords false) 4) (twoWords false 4).1 (twoWords false 4).2 := by
  refine bursts_transferred (twoWords_contract false) (fun t =>
    ⟨?_, fun _ => (by decide : (1 : BitVec 1).toNat < 256)⟩) 4
  intro _ none
  apply Classical.byContradiction
  intro last
  have third : t = 3 := by
    have last : (decide (t = 3) || false) = true := Bool.not_eq_false _ |>.mp last
    rw [Bool.or_false, decide_eq_true_iff] at last
    exact last
  subst third
  cases none

end Example

end Ariane.AxiAdapter2
