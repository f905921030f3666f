import Ariane.CacheReturns

set_option autoImplicit false

/- Against a slave that is always ready, no request waits for ever at the AXI port of the caches. -/
namespace Ariane.CachePorts

open AxiAdapter2 (AxiResp)
open RrArbiter (anyBit anyBit_iff lzc)
open Rtl (Machine)
open Traffic (granted)

attribute [local instance] twoPorts

variable {p : Params}

/-- Requests that the port can serve. -/
structure Requests.Fit (q : Requests p) : Prop where
  icache : ∀ r ∈ q.icache, r.paddr.toNat < 2 ^ p.l15AddressWidth
  dcache : ∀ r ∈ q.dcache, r.rtype ≠ .atomicReq ∧ r.paddr.toNat < 2 ^ p.l15AddressWidth

section Eager

/-- The first read that the slave has not completed. -/
def Slave.openRead (v : Slave p) : Option Nat :=
  (List.range v.ars.length).find? fun k => decide (v.Open k)

/-- The move of a slave that is always ready. -/
def Traffic.eager (t : Traffic p) : Move p where
  awReady := true
  wReady := true
  arReady := true
  beat := t.slave.openRead.map fun k => (k, 0)

/-- The cycle in which the slave moves so. -/
def Traffic.served (t : Traffic p) (q : Requests p) : Cycle p := { q with move := t.eager }

variable {t : Traffic p} {q : Requests p}

theorem openRead_open {k : Nat} (found : t.slave.openRead = some k) : t.slave.Open k :=
  of_decide_eq_true (List.find?_some (p := fun k => decide (t.slave.Open k)) found)

theorem openRead_of_open {k : Nat} (unfinished : t.slave.Open k)
    (only : ∀ j, t.slave.Open j → j = k) : t.slave.openRead = some k := by
  cases found : t.slave.openRead with
  | some j => rw [only j (openRead_open found)]
  | none =>
      have none := List.find?_eq_none.mp found k (List.mem_range.mpr unfinished.lt)
      exact absurd (decide_eq_true unfinished) none

theorem beat_eager : t.slave.beat t.eager = t.slave.openRead.map fun k => (k, 0) := by
  show (t.slave.openRead.map fun k => (k, (0 : BitVec 64))).filter _ = _
  cases found : t.slave.openRead with
  | none => rfl
  | some k =>
      have unfinished : decide ((t.slave.sent k).length < t.slave.burst k) = true :=
        decide_eq_true (openRead_open found)
      simp only [Option.map_some, Option.filter, unfinished, if_true]

theorem supported_eager (fit : q.Fit) : Supported t (t.served q) where
  icache := by
    intro r member
    rw [icacheAccepted] at member
    split at member
    · cases member
    · exact fit.icache r (Option.mem_toList.mp member)
  dcache := by
    intro r member
    rw [dcacheAccepted] at member
    split at member
    · cases member
    · exact fit.dcache r (Option.mem_toList.mp member)
  last := by
    intro silent last
    have none : t.slave.beat t.eager = none :=
      Option.isNone_iff_eq_none.mp (Option.isSome_eq_false_iff.mp silent)
    have low : (t.resp (t.served q)).rLast = false := by
      show ((t.slave.beat t.eager).map fun b => t.slave.lastBeat b.1).getD false = false
      rw [none]
      rfl
    rw [low] at last
    cases last

/-- The cycles until a read may be granted. -/
def Traffic.delay (t : Traffic p) : Nat :=
  if t.regs.rdPending then
    if t.regs.axi.rdValid then 1
    else (t.slave.openRead.map fun k => t.slave.burst k - (t.slave.sent k).length + 1).getD 0
  else 0

theorem Serving.delay_next (serving : Serving t) (fits : p.Fits) (fit : q.Fit)
    (pending : t.regs.rdPending = true) : (t.next (t.served q)).delay < t.delay := by
  have reading := serving.reading_next fits (supported_eager (t := t) fit)
  have pending' := rdPending_next t (t.served q)
  cases serving.reading with
  | rest free => rw [pending] at free; cases free
  | held _ valid =>
      rw [valid, if_pos rfl] at pending'
      rw [Traffic.delay, pending', Traffic.delay, pending, valid]
      exact Nat.zero_lt_one
  | burst k _ valid unfinished only =>
      rw [valid, pending, if_neg Bool.false_ne_true, Bool.true_or] at pending'
      have found := openRead_of_open unfinished only
      have beat : t.slave.beat (t.served q).move = some (k, 0) := by
        show t.slave.beat t.eager = _
        rw [beat_eager, found]
        rfl
      have before : t.delay = t.slave.burst k - (t.slave.sent k).length + 1 := by
        rw [Traffic.delay, pending, valid, found]
        rfl
      have room : (t.slave.sent k).length < t.slave.burst k := unfinished
      rw [before, Traffic.delay, pending', if_pos rfl]
      cases reading with
      | rest free => rw [pending'] at free; cases free
      | held _ valid' =>
          rw [valid', if_pos rfl]
          omega
      | burst k' _ valid' unfinished' only' =>
          have same : k' = k := by
            by_contra other
            have quiet := not_granted (i := t.served q) pending
            have inside := unfinished'.lt
            have ars : (t.next (t.served q)).slave.ars = t.slave.ars := by
              show t.slave.ars ++ (if axiRdGnt t.regs (t.resp (t.served q)) then _ else _) = _
              rw [quiet, if_neg Bool.false_ne_true, List.append_nil]
            rw [ars] at inside
            exact Slave.closed_next (fun now => other (only k' now)) inside unfinished'
          rw [valid', if_neg Bool.false_ne_true, openRead_of_open unfinished' only',
            Option.map_some, Option.getD_some, same, sent_beat beat, burst_kept unfinished,
            List.length_append, List.length_singleton]
          omega

/-- A slave that is always ready acknowledges a request, unless it is a read that has to wait. -/
theorem Serving.ack_eager (serving : Serving t) (any : anyBit (arbReq t.regs) = true)
    (free : (granted t.regs).isStore = true ∨ t.regs.rdPending = false) :
    l15Ack t.regs (t.resp (t.served q)) = true := by
  rw [l15Ack, Bool.or_eq_true]
  rcases (serving.queued.served any).1 with read | store
  · left
    have idle : t.regs.rdPending = false := by
      rcases free with store | idle
      · have exclusive := (granted t.regs).not_both
        rw [read, store] at exclusive
        cases exclusive
      · exact idle
    show (axiRdReq t.regs && true) = true
    rw [rdReq_eq, any, read, idle]
    rfl
  · right
    have req : axiWrReq t.regs = true := by rw [wrReq_eq, any, store]; rfl
    have last : AxiAdapter2.wrCntDone t.regs.axi (axiInput t.regs) = true :=
      decide_eq_true serving.queued.wrCnt
    rcases serving.queued.writes with ⟨state, -, -⟩ | ⟨state, -, -, -, -⟩ | ⟨state, -, -, -, -⟩
    · show (AxiAdapter2.writeFsm _ _ _).wrGnt = true
      have request : (axiInput t.regs).wrReq = true := req
      have single : AxiAdapter2.wrSingleReq (axiInput t.regs) = true := rfl
      rw [AxiAdapter2.writeFsm, state]
      simp only [request, single, if_true]
      rfl
    · show (AxiAdapter2.writeFsm _ _ _).wrGnt = true
      rw [AxiAdapter2.writeFsm, state]
      simp only [last, if_true]
      rfl
    · show (AxiAdapter2.writeFsm _ _ _).wrGnt = true
      rw [AxiAdapter2.writeFsm, state]
      rfl

end Eager

section Counts

variable {t : Traffic p} {i : Cycle p}

/-- The number of requests of a cache that have been acknowledged. -/
def Traffic.ackedOf (t : Traffic p) (k : Fin 2) : Nat :=
  if k = 0 then (t.acked.filterMap Request.icache?).length
  else (t.acked.filterMap Request.dcache?).length

/-- The number of requests that have been taken from a cache. -/
def Traffic.acceptedOf (t : Traffic p) (k : Fin 2) : Nat :=
  if k = 0 then (t.accepted.filterMap Request.icache?).length
  else (t.accepted.filterMap Request.dcache?).length

/-- A cache whose requests are not all acknowledged requests at the arbiter. -/
theorem Queued.req_iff (queued : Queued t) (k : Fin 2) :
    arbReq t.regs k = true ↔ t.ackedOf k < t.acceptedOf k := by
  rw [arbReq, Traffic.ackedOf, Traffic.acceptedOf]
  split
  · rw [queued.icache, List.length_append, Bool.not_eq_true', List.isEmpty_eq_false_iff,
      ← List.length_pos_iff]
    omega
  · rw [queued.dcache, List.length_append, Bool.not_eq_true', List.isEmpty_eq_false_iff,
      ← List.length_pos_iff]
    omega

/-- An acknowledge counts for the cache at the output of the arbiter. -/
theorem Queued.ackedOf_next (queued : Queued t) (k : Fin 2) :
    (t.next i).ackedOf k =
      t.ackedOf k + if l15Ack t.regs (t.resp i) = true ∧ arbIdx t.regs = k then 1 else 0 := by
  have acked : (t.next i).acked =
      t.acked ++ if l15Ack t.regs (t.resp i) then [granted t.regs] else [] := rfl
  cases ack : l15Ack t.regs (t.resp i) with
  | false =>
      rw [ack, if_neg Bool.false_ne_true, List.append_nil] at acked
      have none : ¬ (false = true ∧ arbIdx t.regs = k) := fun both => Bool.false_ne_true both.1
      rw [Traffic.ackedOf, acked, if_neg none]
      rfl
  | true =>
      rw [ack, if_pos rfl] at acked
      have any := queued.any_of_ack ack
      rw [Traffic.ackedOf, Traffic.ackedOf, acked, List.filterMap_append, List.filterMap_append,
        List.length_append, List.length_append]
      rcases granted_cases queued.kept any with ⟨first, r, -, -, same⟩ | ⟨second, r, -, -, same⟩
      · rw [same, first]
        rcases (show k = 0 ∨ k = 1 by omega) with rfl | rfl <;> rfl
      · rw [same, second]
        rcases (show k = 0 ∨ k = 1 by omega) with rfl | rfl <;> rfl

theorem acceptedOf_next (k : Fin 2) : t.acceptedOf k ≤ (t.next i).acceptedOf k := by
  have accepted : (t.next i).accepted =
      t.accepted ++ (icacheAccepted t.regs i.toRequests).map .icache ++
        (dcacheAccepted t.regs i.toRequests).map .dcache := rfl
  rw [Traffic.acceptedOf, Traffic.acceptedOf, accepted, List.append_assoc]
  split
  · rw [List.filterMap_append, List.length_append]
    exact Nat.le_add_right _ _
  · rw [List.filterMap_append, List.length_append]
    exact Nat.le_add_right _ _

/-- With two requesters the one that was not served last comes first. -/
theorem nextIdx_other {a : RrArbiter.State 2} {req : Fin 2 → Bool} {k : Fin 2}
    (other : a.sel ≠ k) (bit : req k = true) : RrArbiter.nextIdx a req = k := by
  have either : (a.sel = 0 ∧ k = 1) ∨ (a.sel = 1 ∧ k = 0) := by omega
  rcases either with ⟨sel, rfl⟩ | ⟨sel, rfl⟩
  · simp [RrArbiter.nextIdx, lzc, List.finRange_succ, sel, bit]
  · simp [RrArbiter.nextIdx, RrArbiter.count, lzc, List.finRange_succ, sel, bit]

/-- After an acknowledge the arbiter turns to the other cache. -/
theorem arbIdx_other {k : Fin 2} (any : anyBit (arbReq t.regs) = true)
    (ack : l15Ack t.regs (t.resp i) = true) (other : arbIdx t.regs ≠ k)
    (req : arbReq (t.next i).regs k = true) : arbIdx (t.next i).regs = k := by
  have locks : ¬ (2 = 2 ∧ true = false) := fun both => Bool.false_ne_true both.2.symm
  have lock : (t.next i).regs.arbiter.lock = false := by
    show (anyBit (arbReq t.regs) && !l15Ack t.regs (t.resp i)) = false
    rw [ack, Bool.not_true, Bool.and_false]
  have sel : (t.next i).regs.arbiter.sel = arbIdx t.regs := by
    show (if RrArbiter.vld (arbReq t.regs) (l15Ack t.regs (t.resp i)) then arbIdx t.regs else _) = _
    rw [RrArbiter.vld, any, ack]
    rfl
  rw [arbIdx, RrArbiter.idx, if_neg locks, lock, if_neg Bool.false_ne_true]
  exact nextIdx_other (sel ▸ other) req

end Counts

section EagerRun

variable (t : Traffic p) (later : Nat → Requests p)

/-- The run against a slave that is always ready. -/
def eagerRun : Nat → Traffic p
  | 0 => t
  | n + 1 => (eagerRun n).next ((eagerRun n).served (later n))

/-- Its cycles. -/
def eagerCycles (n : Nat) : List (Cycle p) :=
  (List.range n).map fun k => (eagerRun t later k).served (later k)

theorem runFrom_eager (n : Nat) :
    (traffic p).runFrom t (eagerCycles t later n) = eagerRun t later n := by
  induction n with
  | zero => rfl
  | succ n ih =>
      rw [eagerCycles] at ih ⊢
      rw [List.range_succ, List.map_append, Machine.runFrom_append, ih]
      rfl

variable {t later}

theorem legal_eager (fit : ∀ n, (later n).Fit) (n : Nat) :
    (traffic p).Legal Supported t (eagerCycles t later n) := by
  induction n with
  | zero => trivial
  | succ n ih =>
      have run := runFrom_eager t later n
      rw [eagerCycles] at ih run ⊢
      rw [List.range_succ, List.map_append, Machine.legal_append, run]
      exact ⟨ih, supported_eager (fit n), trivial⟩

theorem Serving.eagerRun (serving : Serving t) (fits : p.Fits) (fit : ∀ n, (later n).Fit)
    (n : Nat) : Serving (eagerRun t later n) := by
  induction n with
  | zero => exact serving
  | succ n ih => exact ih.next fits (supported_eager (fit n))

theorem acceptedOf_eager (k : Fin 2) {n m : Nat} (after : n ≤ m) :
    (eagerRun t later n).acceptedOf k ≤ (eagerRun t later m).acceptedOf k := by
  induction m, after using Nat.le_induction with
  | base => exact Nat.le_refl _
  | succ m after ih => exact Nat.le_trans ih (acceptedOf_next k)

theorem ackedOf_eager (serving : Serving t) (fits : p.Fits) (fit : ∀ n, (later n).Fit) (k : Fin 2)
    {n m : Nat} (after : n ≤ m) :
    (eagerRun t later n).ackedOf k ≤ (eagerRun t later m).ackedOf k := by
  induction m, after using Nat.le_induction with
  | base => exact Nat.le_refl _
  | succ m after ih =>
      have step := (serving.eagerRun fits fit m).queued.ackedOf_next
        (i := (eagerRun t later m).served (later m)) k
      refine Nat.le_trans ih ?_
      rw [eagerRun, step]
      exact Nat.le_add_right _ _

/-- The slave acknowledges what is at the output of the arbiter. -/
theorem first_ack (serving : Serving t) (fits : p.Fits) (fit : ∀ n, (later n).Fit) (d n : Nat)
    (delay : (eagerRun t later n).delay ≤ d)
    (any : anyBit (arbReq (eagerRun t later n).regs) = true) :
    ∃ m, n ≤ m ∧ anyBit (arbReq (eagerRun t later m).regs) = true ∧
      l15Ack (eagerRun t later m).regs
        ((eagerRun t later m).resp ((eagerRun t later m).served (later m))) = true ∧
      arbIdx (eagerRun t later m).regs = arbIdx (eagerRun t later n).regs := by
  induction d generalizing n with
  | zero =>
      have now := serving.eagerRun fits fit n
      refine ⟨n, Nat.le_refl n, any, now.ack_eager any ?_, rfl⟩
      right
      rw [Bool.eq_false_iff]
      intro pending
      have shorter := now.delay_next fits (fit n) pending
      omega
  | succ d ih =>
      have now := serving.eagerRun fits fit n
      cases ack : l15Ack (eagerRun t later n).regs
          ((eagerRun t later n).resp ((eagerRun t later n).served (later n))) with
      | true => exact ⟨n, Nat.le_refl n, any, ack, rfl⟩
      | false =>
          have pending : (eagerRun t later n).regs.rdPending = true := by
            by_contra free
            rw [Bool.not_eq_true] at free
            have ready := now.ack_eager (q := later n) any (.inr free)
            rw [ack] at ready
            cases ready
          have shorter := now.delay_next fits (fit n) pending
          obtain ⟨any', idx, -⟩ := granted_waiting (q := later n) now.queued.kept any ack
          obtain ⟨m, after, anyM, ackM, idxM⟩ :=
            ih (n + 1) (by rw [eagerRun]; omega) any'
          exact ⟨m, by omega, anyM, ackM, idxM.trans idx⟩

/-- A cache that requests gets an acknowledge. -/
theorem ack_of_req (serving : Serving t) (fits : p.Fits) (fit : ∀ n, (later n).Fit) {k : Fin 2}
    {n : Nat} (req : arbReq (eagerRun t later n).regs k = true) :
    ∃ m, (eagerRun t later n).ackedOf k < (eagerRun t later m).ackedOf k := by
  have gained {m : Nat} (after : n ≤ m)
      (ack : l15Ack (eagerRun t later m).regs
        ((eagerRun t later m).resp ((eagerRun t later m).served (later m))) = true)
      (idx : arbIdx (eagerRun t later m).regs = k) :
      (eagerRun t later n).ackedOf k < (eagerRun t later (m + 1)).ackedOf k := by
    have step := (serving.eagerRun fits fit m).queued.ackedOf_next
      (i := (eagerRun t later m).served (later m)) k
    rw [if_pos ⟨ack, idx⟩] at step
    have grown := ackedOf_eager serving fits fit k after
    rw [eagerRun, step]
    omega
  obtain ⟨m, after, any, ack, idx⟩ :=
    first_ack serving fits fit _ n (Nat.le_refl _) ((anyBit_iff _).mpr ⟨k, req⟩)
  by_cases here : arbIdx (eagerRun t later m).regs = k
  · exact ⟨m + 1, gained after ack here⟩
  · by_cases done : (eagerRun t later n).ackedOf k < (eagerRun t later (m + 1)).ackedOf k
    · exact ⟨m + 1, done⟩
    · -- the other cache was served, and now it is the turn of this one
      have next := serving.eagerRun fits fit (m + 1)
      have waiting := ((serving.eagerRun fits fit n).queued.req_iff k).mp req
      have grown : (eagerRun t later n).acceptedOf k ≤ (eagerRun t later (m + 1)).acceptedOf k :=
        acceptedOf_eager k (by omega)
      have still : arbReq (eagerRun t later (m + 1)).regs k = true := by
        rw [next.queued.req_iff k]
        omega
      have turn := arbIdx_other any ack here still
      obtain ⟨m', after', -, ack', idx'⟩ := first_ack serving fits fit _ (m + 1) (Nat.le_refl _)
        ((anyBit_iff _).mpr ⟨k, still⟩)
      exact ⟨m' + 1, gained (by omega) ack' (idx'.trans turn)⟩

theorem acks_reach (serving : Serving t) (fits : p.Fits) (fit : ∀ n, (later n).Fit) (k : Fin 2)
    (c : Nat) (room : t.ackedOf k + c ≤ t.acceptedOf k) :
    ∃ m, t.ackedOf k + c ≤ (eagerRun t later m).ackedOf k := by
  induction c with
  | zero => exact ⟨0, Nat.le_refl _⟩
  | succ c ih =>
      obtain ⟨m, reached⟩ := ih (by omega)
      by_cases done : t.ackedOf k + (c + 1) ≤ (eagerRun t later m).ackedOf k
      · exact ⟨m, done⟩
      · have grown : t.acceptedOf k ≤ (eagerRun t later m).acceptedOf k :=
          acceptedOf_eager k (Nat.zero_le m)
        have req : arbReq (eagerRun t later m).regs k = true := by
          rw [(serving.eagerRun fits fit m).queued.req_iff k]
          omega
        obtain ⟨m', more⟩ := ack_of_req serving fits fit req
        exact ⟨m', by omega⟩

theorem accepted_eager (n : Nat) : t.accepted <+: (eagerRun t later n).accepted := by
  induction n with
  | zero => exact List.prefix_refl _
  | succ n ih =>
      refine ih.trans ?_
      rw [eagerRun]
      exact (List.prefix_append _ _).trans (List.prefix_append _ _)

/-- All that has been taken from the caches is acknowledged. -/
theorem all_acked (serving : Serving t) (fits : p.Fits) (fit : ∀ n, (later n).Fit) :
    ∃ n, t.accepted.filterMap Request.icache? <+:
        (eagerRun t later n).acked.filterMap Request.icache? ∧
      t.accepted.filterMap Request.dcache? <+:
        (eagerRun t later n).acked.filterMap Request.dcache? := by
  have bound (k : Fin 2) : t.ackedOf k + (t.acceptedOf k - t.ackedOf k) ≤ t.acceptedOf k := by
    have queues : t.ackedOf k ≤ t.acceptedOf k := by
      by_contra beyond
      have icache := congrArg List.length serving.queued.icache
      have dcache := congrArg List.length serving.queued.dcache
      rw [List.length_append] at icache dcache
      rw [Traffic.ackedOf, Traffic.acceptedOf] at beyond
      split at beyond <;> omega
    omega
  obtain ⟨n, instructions⟩ := acks_reach serving fits fit 0 _ (bound 0)
  obtain ⟨m, data⟩ := acks_reach serving fits fit 1 _ (bound 1)
  have late := serving.eagerRun fits fit (max n m)
  have icacheCount := ackedOf_eager serving fits fit 0 (Nat.le_max_left n m)
  have dcacheCount := ackedOf_eager serving fits fit 1 (Nat.le_max_right n m)
  have taken : t.accepted <+: (eagerRun t later (max n m)).accepted := accepted_eager _
  refine ⟨max n m, ?_, ?_⟩
  · have acked : (eagerRun t later (max n m)).acked.filterMap Request.icache? <+:
        (eagerRun t later (max n m)).accepted.filterMap Request.icache? := by
      rw [late.queued.icache]
      exact List.prefix_append _ _
    refine List.prefix_of_prefix_length_le (taken.filterMap _) acked ?_
    show t.acceptedOf 0 ≤ (eagerRun t later (max n m)).ackedOf 0
    omega
  · have acked : (eagerRun t later (max n m)).acked.filterMap Request.dcache? <+:
        (eagerRun t later (max n m)).accepted.filterMap Request.dcache? := by
      rw [late.queued.dcache]
      exact List.prefix_append _ _
    refine List.prefix_of_prefix_length_le (taken.filterMap _) acked ?_
    show t.acceptedOf 1 ≤ (eagerRun t later (max n m)).ackedOf 1
    omega

end EagerRun

end Ariane.CachePorts
