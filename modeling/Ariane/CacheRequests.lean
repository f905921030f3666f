import Ariane.CacheTraffic

set_option autoImplicit false

/- The request side of the AXI port: the queues, the arbiter and the transactions that a request
becomes. -/
namespace Ariane.CachePorts

open AxiAdapter2 (AxiAddr AxiBeat AxiReq AxiResp WrState)
open RrArbiter (anyBit anyBit_iff)
open Traffic (granted)

attribute [local instance] twoPorts

variable {p : Params}

section Granted

variable {s : State p}

theorem arbIdx_cases (s : State p) : arbIdx s = 0 ∨ arbIdx s = 1 := by
  have bound := (arbIdx s).isLt
  have either : (arbIdx s).val = 0 ∨ (arbIdx s).val = 1 := by omega
  exact either.imp Fin.ext Fin.ext

/-- The arbiter points to a queue that holds something. -/
theorem arbReq_idx (kept : RrArbiter.Kept s.arbiter (arbReq s)) (any : anyBit (arbReq s) = true) :
    arbReq s (arbIdx s) = true := RrArbiter.idx_requests kept any

/-- The queue of the request at the output of the arbiter. -/
theorem granted_cases (kept : RrArbiter.Kept s.arbiter (arbReq s))
    (any : anyBit (arbReq s) = true) :
    (arbIdx s = 0 ∧ ∃ r rest, s.icache = r :: rest ∧ granted s = .icache r) ∨
      (arbIdx s = 1 ∧ ∃ r rest, s.dcache = r :: rest ∧ granted s = .dcache r) := by
  have req := arbReq_idx kept any
  rcases arbIdx_cases s with first | second
  · left
    refine ⟨first, ?_⟩
    rw [first, arbReq, if_pos rfl, Bool.not_eq_true', List.isEmpty_eq_false_iff] at req
    obtain ⟨r, rest, queue⟩ := List.exists_cons_of_ne_nil req
    refine ⟨r, rest, queue, ?_⟩
    rw [granted, if_pos first, icacheData, queue]
    rfl
  · right
    refine ⟨second, ?_⟩
    have other : ¬ ((1 : Fin 2) = 0) := by decide
    rw [second, arbReq, if_neg other, Bool.not_eq_true', List.isEmpty_eq_false_iff] at req
    obtain ⟨r, rest, queue⟩ := List.exists_cons_of_ne_nil req
    refine ⟨r, rest, queue, ?_⟩
    rw [granted, if_neg (by rw [second]; exact other), dcacheData, queue]
    rfl

theorem l15Req_nc (s : State p) : (l15Req s).nc = (granted s).nc := by
  rcases arbIdx_cases s with first | second
  · simp [l15Req, granted, first, Request.nc]
  · simp [l15Req, granted, second, Request.nc]

theorem l15Req_threadid (s : State p) : (l15Req s).threadid = (granted s).tid := by
  rcases arbIdx_cases s with first | second
  · simp [l15Req, granted, first, Request.tid]
  · simp [l15Req, granted, second, Request.tid]

theorem l15Req_address (s : State p) :
    (l15Req s).address = (granted s).paddr.setWidth p.l15AddressWidth := by
  rcases arbIdx_cases s with first | second
  · simp [l15Req, granted, first, Request.paddr]
  · simp [l15Req, granted, second, Request.paddr]

theorem ifill_eq (s : State p) : ifill s = (granted s).icache?.isSome := by
  rcases arbIdx_cases s with first | second
  · simp [ifill, l15Req, l15Rqtype, granted, first, Request.icache?]
  · cases kind : (dcacheData s).rtype <;>
      simp [ifill, l15Req, l15Rqtype, granted, second, Request.icache?, kind]

theorem rdReq_eq (s : State p) :
    axiRdReq s = (anyBit (arbReq s) && (granted s).isRead && !s.rdPending) := by
  have kind : ((l15Req s).rqtype == .loadRq || ifill s) = (granted s).isRead := by
    rcases arbIdx_cases s with first | second
    · simp [ifill, l15Req, l15Rqtype, granted, first, Request.isRead]
    · cases kind : (dcacheData s).rtype <;>
        simp [ifill, l15Req, l15Rqtype, granted, second, Request.isRead, kind]
      all_goals rfl
  rw [axiRdReq, kind]
  rfl

theorem wrReq_eq (s : State p) :
    axiWrReq s = (anyBit (arbReq s) && (granted s).isStore) := by
  have kind : ((l15Req s).rqtype == .storeRq) = (granted s).isStore := by
    rcases arbIdx_cases s with first | second
    · simp [l15Req, l15Rqtype, granted, first, Request.isStore]
    · cases kind : (dcacheData s).rtype <;>
        simp [l15Req, l15Rqtype, granted, second, Request.isStore, kind]
  rw [axiWrReq, kind]
  rfl

theorem setWidth_fits {paddr : BitVec 64} {w : Nat} (fits : paddr.toNat < 2 ^ w) :
    (paddr.setWidth w).setWidth 64 = paddr := by
  apply BitVec.eq_of_toNat_eq
  rw [BitVec.toNat_setWidth, BitVec.toNat_setWidth, Nat.mod_eq_of_lt fits,
    Nat.mod_eq_of_lt paddr.isLt]

theorem setWidth_three {address : BitVec p.l15AddressWidth} {paddr : BitVec 64}
    (whole : address.setWidth 64 = paddr) : address.setWidth 3 = paddr.setWidth 3 := by
  rw [← whole, BitVec.setWidth_setWidth_of_le _ (by decide)]

theorem l15Req_size (s : State p) :
    (l15Req s).size =
      if arbIdx s = 1 then (dcacheData s).size else if (icacheData s).nc then 2 else 7 := rfl

/-- The burst length of a read. -/
theorem axiRdBlen_eq (fits : p.Fits) (s : State p) :
    (axiRdBlen s).setWidth 8 = BitVec.ofNat 8 ((granted s).words - 1) ∧
      (axiRdBlen s = 0 ↔ (granted s).words = 1) := by
  have line {width : Nat} (bounds : 64 ≤ width ∧ width ≤ 512) :
      (BitVec.ofNat 3 (width / 64 - 1)).setWidth 8 = BitVec.ofNat 8 (width / 64 - 1) ∧
        (BitVec.ofNat 3 (width / 64 - 1) = 0 ↔ width / 64 = 1) := by
    obtain ⟨low, high⟩ := bounds
    have small : width / 64 - 1 < 2 ^ 3 := by omega
    constructor
    · apply BitVec.eq_of_toNat_eq
      rw [BitVec.toNat_setWidth, BitVec.toNat_ofNat, BitVec.toNat_ofNat, Nat.mod_eq_of_lt small]
    · rw [← BitVec.toNat_inj, BitVec.toNat_ofNat, Nat.mod_eq_of_lt small]
      show width / 64 - 1 = 0 ↔ _
      omega
  have one : (0 : BitVec 3).setWidth 8 = BitVec.ofNat 8 (1 - 1) ∧
      ((0 : BitVec 3) = 0 ↔ (1 : Nat) = 1) := ⟨rfl, by decide⟩
  rcases arbIdx_cases s with first | second
  · have instruction : granted s = .icache (icacheData s) := by rw [granted, if_pos first]
    have filled : ifill s = true := by rw [ifill_eq, instruction]; rfl
    have other : ¬ arbIdx s = 1 := by rw [first]; decide
    rw [axiRdBlen, filled, if_pos rfl, l15Req_size, if_neg other, instruction, Request.words]
    by_cases nc : (icacheData s).nc = true
    · rw [if_pos nc, if_pos nc, if_neg (by decide)]
      exact one
    · rw [if_neg nc, if_neg nc, if_pos (by decide)]
      exact line fits.icacheLine
  · have other : ¬ arbIdx s = 0 := by rw [second]; decide
    have data : granted s = .dcache (dcacheData s) := by rw [granted, if_neg other]
    have kept : ifill s = false := by rw [ifill_eq, data]; rfl
    rw [axiRdBlen, kept, if_neg Bool.false_ne_true, l15Req_size, if_pos second, data,
      Request.words]
    split
    · exact line fits.dcacheLine
    · exact one

/-- The read address is that of the request. -/
theorem ar_eq (fits : p.Fits) (s : State p) (r : AxiResp p.axiIdWidth)
    (address : (granted s).paddr.toNat < 2 ^ p.l15AddressWidth) :
    (axiReq s r).ar = (granted s).readAddr := by
  obtain ⟨len, single⟩ := axiRdBlen_eq fits s
  have size : (if ifill s then 3 else (l15Req s).size.setWidth 2) = (granted s).beatSize := by
    rw [l15Req_size]
    rcases arbIdx_cases s with first | second
    · simp [ifill_eq, granted, first, Request.icache?, Request.beatSize]
    · simp [ifill_eq, granted, second, Request.icache?, Request.beatSize]
  show AxiAddr.mk (axiId p (l15Req s).threadid (ifill s) (l15Req s).nc)
    ((l15Req s).address.setWidth 64) ((axiRdBlen s).setWidth 8)
    (BitVec.setWidth 3 (if ifill s then 3 else (l15Req s).size.setWidth 2))
    (if decide (axiRdBlen s = 0) then 0 else 1) = _
  rw [size, len, l15Req_threadid, ifill_eq, l15Req_nc, l15Req_address, setWidth_fits address,
    Request.readAddr]
  simp only [single, decide_eq_true_eq]

/-- The address and the data of a write are those of the request. -/
theorem aw_eq (s : State p) (r : AxiResp p.axiIdWidth) (store : (granted s).isStore = true)
    (any : anyBit (arbReq s) = true) (cnt : s.axi.wrCnt = 0)
    (address : (granted s).paddr.toNat < 2 ^ p.l15AddressWidth) :
    (axiReq s r).aw = (granted s).writeAddr ∧ (axiReq s r).w = (granted s).writeBeat := by
  have second : arbIdx s = 1 := by
    rcases arbIdx_cases s with first | second
    · rw [granted, if_pos first] at store
      cases store
    · exact second
  have other : ¬ arbIdx s = 0 := by rw [second]; decide
  have data : granted s = .dcache (dcacheData s) := by rw [granted, if_neg other]
  have size : (l15Req s).size.setWidth 2 = (granted s).beatSize := by
    rw [l15Req_size, if_pos second, data]
    rfl
  have kept : ifill s = false := by rw [ifill_eq, data]; rfl
  have whole : (l15Req s).address.setWidth 64 = (granted s).paddr := by
    rw [l15Req_address, setWidth_fits address]
  have writes : axiWrReq s = true := by rw [wrReq_eq, any, store]; rfl
  constructor
  · show AxiAddr.mk (axiId p (l15Req s).threadid (ifill s) (l15Req s).nc)
      ((l15Req s).address.setWidth 64) 0 ((l15Req s).size.setWidth 2 |>.setWidth 3) 0 = _
    rw [size, whole, kept, l15Req_threadid, l15Req_nc]
    rfl
  · show AxiBeat.mk (if s.axi.wrCnt = 0 then (l15Req s).data else 0)
      (if axiWrReq s && decide (s.axi.wrCnt = 0) then
        p.toByteEnable8 ((l15Req s).address.setWidth 3) ((l15Req s).size.setWidth 2) else 0)
      (decide (s.axi.wrCnt = 0)) = _
    rw [if_pos cnt, decide_eq_true cnt, writes, size, setWidth_three whole, data]
    rfl

end Granted

section Queues

variable (s : State p) (q : Requests p) (r : AxiResp p.axiIdWidth)

theorem arbAck_eq (k : Fin 2) :
    arbAck s r k = (decide (arbIdx s = k) && (anyBit (arbReq s) && l15Ack s r)) := by
  have locks : ¬ (2 = 2 ∧ true = false) := fun both => Bool.false_ne_true both.2.symm
  rw [arbAck, RrArbiter.ack, if_neg locks]
  rfl

variable {s q r}

theorem next_lock : (next s q r).arbiter.lock = (anyBit (arbReq s) && !l15Ack s r) := by
  show (true && anyBit (arbReq s) && !l15Ack s r) = _
  rw [Bool.true_and]

/-- Without an acknowledge the queues only grow. -/
theorem queues_waiting (waits : l15Ack s r = false) :
    (next s q r).icache = s.icache ++ icacheAccepted s q ∧
      (next s q r).dcache = s.dcache ++ dcacheAccepted s q := by
  have quiet (k : Fin 2) : arbAck s r k = false := by
    rw [arbAck_eq, waits, Bool.and_false, Bool.and_false]
  constructor
  · show (if arbAck s r 0 then _ else _) ++ _ = _
    rw [quiet, if_neg Bool.false_ne_true]
  · show (if arbAck s r 1 then _ else _) ++ _ = _
    rw [quiet, if_neg Bool.false_ne_true]

theorem arbReq_waiting (waits : l15Ack s r = false) (k : Fin 2) (req : arbReq s k = true) :
    arbReq (next s q r) k = true := by
  obtain ⟨icache, dcache⟩ := queues_waiting (q := q) waits
  rw [arbReq] at req ⊢
  rw [icache, dcache]
  split at req
  · next first =>
      rw [Bool.not_eq_true', List.isEmpty_eq_false_iff] at req
      rw [if_pos first, Bool.not_eq_true', List.isEmpty_eq_false_iff]
      exact List.append_ne_nil_of_left_ne_nil req _
  · next second =>
      rw [Bool.not_eq_true', List.isEmpty_eq_false_iff] at req
      rw [if_neg second, Bool.not_eq_true', List.isEmpty_eq_false_iff]
      exact List.append_ne_nil_of_left_ne_nil req _

/-- The lock is never on an empty queue. -/
theorem kept_next (kept : RrArbiter.Kept s.arbiter (arbReq s)) :
    RrArbiter.Kept (next s q r).arbiter (arbReq (next s q r)) :=
  RrArbiter.next_kept kept fun waits k req => arbReq_waiting waits k req

/-- A request that is not acknowledged stays at the output of the arbiter. -/
theorem granted_waiting (kept : RrArbiter.Kept s.arbiter (arbReq s))
    (any : anyBit (arbReq s) = true) (waits : l15Ack s r = false) :
    anyBit (arbReq (next s q r)) = true ∧ arbIdx (next s q r) = arbIdx s ∧
      granted (next s q r) = granted s := by
  have idx : arbIdx (next s q r) = arbIdx s := by
    have locks : ¬ (2 = 2 ∧ true = false) := fun both => Bool.false_ne_true both.2.symm
    have lock : (next s q r).arbiter.lock = true := by rw [next_lock, any, waits]; rfl
    rw [arbIdx, RrArbiter.idx, if_neg locks, if_pos lock]
    rfl
  obtain ⟨icache, dcache⟩ := queues_waiting (q := q) waits
  refine ⟨(anyBit_iff _).mpr ⟨_, arbReq_waiting waits _ (arbReq_idx kept any)⟩, idx, ?_⟩
  rcases granted_cases kept any with
    ⟨first, front, rest, queue, same⟩ | ⟨second, front, rest, queue, same⟩
  · rw [same, granted, idx, if_pos first, icacheData, icache, queue]
    rfl
  · rw [same, granted, idx, if_neg (by rw [second]; decide), dcacheData, dcache, queue]
    rfl

/-- An acknowledge takes the request at the output of the arbiter from its queue. -/
theorem queues_acked (kept : RrArbiter.Kept s.arbiter (arbReq s))
    (any : anyBit (arbReq s) = true) (acked : l15Ack s r = true) :
    ((granted s).icache?.toList ++ (next s q r).icache = s.icache ++ icacheAccepted s q) ∧
      ((granted s).dcache?.toList ++ (next s q r).dcache = s.dcache ++ dcacheAccepted s q) := by
  have ack (k : Fin 2) : arbAck s r k = decide (arbIdx s = k) := by
    rw [arbAck_eq, any, acked, Bool.and_self, Bool.and_true]
  have icache : (next s q r).icache =
      (if arbAck s r 0 then s.icache.tail else s.icache) ++ icacheAccepted s q := rfl
  have dcache : (next s q r).dcache =
      (if arbAck s r 1 then s.dcache.tail else s.dcache) ++ dcacheAccepted s q := rfl
  rw [icache, dcache, ack, ack]
  rcases granted_cases kept any with
    ⟨first, front, rest, queue, same⟩ | ⟨second, front, rest, queue, same⟩
  · rw [same, first, queue]
    exact ⟨rfl, rfl⟩
  · rw [same, second, queue]
    exact ⟨rfl, rfl⟩

end Queues

section Writes

variable {t : Traffic p} {i : Cycle p}

/-- The write channel of the adapter: between two stores, or with one half of the store at the
output of the arbiter taken. -/
inductive Writes (t : Traffic p) : Prop where
  | idle : t.regs.axi.wrState = .idle →
      t.slave.aws = t.stores.map Request.writeAddr →
      t.slave.ws = t.stores.map Request.writeBeat → Writes t
  | address : t.regs.axi.wrState = .waitLastWReady → anyBit (arbReq t.regs) = true →
      (granted t.regs).isStore = true →
      t.slave.aws = (t.stores ++ [granted t.regs]).map Request.writeAddr →
      t.slave.ws = t.stores.map Request.writeBeat → Writes t
  | data : t.regs.axi.wrState = .waitAwReady → anyBit (arbReq t.regs) = true →
      (granted t.regs).isStore = true →
      t.slave.aws = t.stores.map Request.writeAddr →
      t.slave.ws = (t.stores ++ [granted t.regs]).map Request.writeBeat → Writes t

/-- The request side: the queues hold what has been taken and not acknowledged, and only what the
port can serve. -/
structure Queued (t : Traffic p) : Prop where
  kept : RrArbiter.Kept t.regs.arbiter (arbReq t.regs)
  icache : t.accepted.filterMap Request.icache? =
    t.acked.filterMap Request.icache? ++ t.regs.icache
  dcache : t.accepted.filterMap Request.dcache? =
    t.acked.filterMap Request.dcache? ++ t.regs.dcache
  icacheFits : ∀ r ∈ t.regs.icache, r.paddr.toNat < 2 ^ p.l15AddressWidth
  dcacheFits : ∀ r ∈ t.regs.dcache,
    r.rtype ≠ .atomicReq ∧ r.paddr.toNat < 2 ^ p.l15AddressWidth
  kinds : ∀ r ∈ t.acked, r.isRead = true ∨ r.isStore = true
  wrCnt : t.regs.axi.wrCnt = 0
  writes : Writes t

theorem Request.not_both (r : Request p) : (r.isRead && r.isStore) = false := by
  cases r with
  | icache r => rfl
  | dcache r => cases kind : r.rtype <;> simp [Request.isRead, Request.isStore, kind]

/-- What waits at the output of the arbiter can be served. -/
theorem Queued.served (queued : Queued t) (any : anyBit (arbReq t.regs) = true) :
    ((granted t.regs).isRead = true ∨ (granted t.regs).isStore = true) ∧
      (granted t.regs).paddr.toNat < 2 ^ p.l15AddressWidth := by
  rcases granted_cases queued.kept any with
    ⟨-, front, rest, queue, same⟩ | ⟨-, front, rest, queue, same⟩
  · rw [same]
    exact ⟨.inl rfl, queued.icacheFits front (queue ▸ List.mem_cons_self)⟩
  · rw [same]
    obtain ⟨served, fits⟩ := queued.dcacheFits front (queue ▸ List.mem_cons_self)
    refine ⟨?_, fits⟩
    cases kind : front.rtype with
    | storeReq => exact .inr (beq_iff_eq.mpr kind)
    | loadReq => exact .inl (beq_iff_eq.mpr kind)
    | atomicReq => exact absurd kind served

theorem rdGnt_granted {s : State p} {r : AxiResp p.axiIdWidth} (grant : axiRdGnt s r = true) :
    anyBit (arbReq s) = true ∧ (granted s).isRead = true ∧ s.rdPending = false ∧
      r.arReady = true := by
  have both : (axiRdReq s && r.arReady) = true := grant
  rw [rdReq_eq, Bool.and_eq_true, Bool.and_eq_true, Bool.and_eq_true, Bool.not_eq_true'] at both
  exact ⟨both.1.1.1, both.1.1.2, both.1.2, both.2⟩

/-- The cycle of the write channel. -/
theorem Queued.singleWrite (queued : Queued t) :
    AxiAdapter2.SingleWrite (axiWrReq t.regs) t.regs.axi.wrState
        ((axiReq t.regs (t.resp i)).awValid && i.move.awReady)
        ((axiReq t.regs (t.resp i)).wValid && i.move.wReady) (axiWrGnt t.regs (t.resp i))
        (t.next i).regs.axi.wrState ∧
      (t.next i).regs.axi.wrCnt = 0 := by
  have reached : t.regs.axi.wrState = .idle ∨ t.regs.axi.wrState = .waitAwReady ∨
      t.regs.axi.wrState = .waitLastWReady := by
    rcases queued.writes with ⟨state, _, _⟩ | ⟨state, _, _, _, _⟩ | ⟨state, _, _, _, _⟩
    · exact .inl state
    · exact .inr (.inr state)
    · exact .inr (.inl state)
  have single : (axiInput t.regs).wrBlen = 0 := rfl
  exact AxiAdapter2.singleWrite (t.resp i) single queued.wrCnt reached

theorem Queued.wrGnt_granted (queued : Queued t)
    (grant : axiWrGnt t.regs (t.resp i) = true) :
    anyBit (arbReq t.regs) = true ∧ (granted t.regs).isStore = true := by
  have cycle := (queued.singleWrite (i := i)).1
  rw [grant] at cycle
  rcases queued.writes with ⟨state, _, _⟩ | ⟨state, any, store, _, _⟩ | ⟨state, any, store, _, _⟩
  · rw [state] at cycle
    have req := cycle.req_of_idle
    rw [wrReq_eq, Bool.and_eq_true] at req
    exact req
  · exact ⟨any, store⟩
  · exact ⟨any, store⟩

theorem Writes.of_idle (writes : Writes t) (state : t.regs.axi.wrState = .idle) :
    t.slave.aws = t.stores.map Request.writeAddr ∧
      t.slave.ws = t.stores.map Request.writeBeat := by
  cases writes with
  | idle _ aws ws => exact ⟨aws, ws⟩
  | address other => rw [state] at other; cases other
  | data other => rw [state] at other; cases other

theorem Writes.of_address (writes : Writes t) (state : t.regs.axi.wrState = .waitLastWReady) :
    anyBit (arbReq t.regs) = true ∧ (granted t.regs).isStore = true ∧
      t.slave.aws = (t.stores ++ [granted t.regs]).map Request.writeAddr ∧
      t.slave.ws = t.stores.map Request.writeBeat := by
  cases writes with
  | address _ any store aws ws => exact ⟨any, store, aws, ws⟩
  | idle other => rw [state] at other; cases other
  | data other => rw [state] at other; cases other

theorem Writes.of_data (writes : Writes t) (state : t.regs.axi.wrState = .waitAwReady) :
    anyBit (arbReq t.regs) = true ∧ (granted t.regs).isStore = true ∧
      t.slave.aws = t.stores.map Request.writeAddr ∧
      t.slave.ws = (t.stores ++ [granted t.regs]).map Request.writeBeat := by
  cases writes with
  | data _ any store aws ws => exact ⟨any, store, aws, ws⟩
  | idle other => rw [state] at other; cases other
  | address other => rw [state] at other; cases other

/-- An acknowledged read or store. -/
theorem Queued.acked_next (queued : Queued t) :
    (t.next i).reads =
        t.reads ++ (if axiRdGnt t.regs (t.resp i) then [granted t.regs] else []) ∧
      (t.next i).stores =
        t.stores ++ if axiWrGnt t.regs (t.resp i) then [granted t.regs] else [] := by
  have acked : (t.next i).acked =
      t.acked ++ if l15Ack t.regs (t.resp i) then [granted t.regs] else [] := rfl
  have exclusive := (granted t.regs).not_both
  rw [Traffic.reads, Traffic.stores, acked, List.filter_append, List.filter_append]
  cases rd : axiRdGnt t.regs (t.resp i) with
  | true =>
      have read := (rdGnt_granted rd).2.1
      have store : (granted t.regs).isStore = false := by
        rwa [read, Bool.true_and] at exclusive
      have wr : axiWrGnt t.regs (t.resp i) = false := by
        rw [Bool.eq_false_iff]
        intro wr
        rw [(queued.wrGnt_granted wr).2] at store
        cases store
      have ack : l15Ack t.regs (t.resp i) = true := by rw [l15Ack, rd]; rfl
      simp [ack, wr, read, store, Traffic.reads, Traffic.stores]
  | false =>
      cases wr : axiWrGnt t.regs (t.resp i) with
      | true =>
          have store := (queued.wrGnt_granted wr).2
          have read : (granted t.regs).isRead = false := by
            rwa [store, Bool.and_true] at exclusive
          have ack : l15Ack t.regs (t.resp i) = true := by rw [l15Ack, rd, wr]; rfl
          simp [ack, read, store, Traffic.reads, Traffic.stores]
      | false =>
          have ack : l15Ack t.regs (t.resp i) = false := by rw [l15Ack, rd, wr]; rfl
          simp [ack, Traffic.reads, Traffic.stores]

/-- What is acknowledged waited at the output of the arbiter. -/
theorem Queued.any_of_ack (queued : Queued t) (ack : l15Ack t.regs (t.resp i) = true) :
    anyBit (arbReq t.regs) = true := by
  rw [l15Ack, Bool.or_eq_true] at ack
  rcases ack with read | write
  · exact (rdGnt_granted read).1
  · exact (queued.wrGnt_granted write).1

/-- A store that is not granted is not acknowledged. -/
theorem Queued.waits (store : (granted t.regs).isStore = true)
    (wr : axiWrGnt t.regs (t.resp i) = false) : l15Ack t.regs (t.resp i) = false := by
  rw [l15Ack, wr, Bool.or_false, Bool.eq_false_iff]
  intro rd
  have exclusive := (granted t.regs).not_both
  rw [(rdGnt_granted rd).2.1, store] at exclusive
  cases exclusive

theorem Queued.writes_next (queued : Queued t) : Writes (t.next i) := by
  obtain ⟨cycle, -⟩ := queued.singleWrite (i := i)
  obtain ⟨-, stores⟩ := queued.acked_next (i := i)
  have aws : (t.next i).slave.aws = t.slave.aws ++
      if (axiReq t.regs (t.resp i)).awValid && i.move.awReady then
        [(axiReq t.regs (t.resp i)).aw] else [] := rfl
  have ws : (t.next i).slave.ws = t.slave.ws ++
      if (axiReq t.regs (t.resp i)).wValid && i.move.wReady then
        [(axiReq t.regs (t.resp i)).w] else [] := rfl
  have whole (any : anyBit (arbReq t.regs) = true) (store : (granted t.regs).isStore = true) :=
    aw_eq t.regs (t.resp i) store any queued.wrCnt (queued.served any).2
  have stays (any : anyBit (arbReq t.regs) = true) (store : (granted t.regs).isStore = true)
      (wr : axiWrGnt t.regs (t.resp i) = false) :
      anyBit (arbReq (t.next i).regs) = true ∧ granted (t.next i).regs = granted t.regs := by
    obtain ⟨any, -, same⟩ :=
      granted_waiting (q := i.toRequests) queued.kept any (Queued.waits store wr)
    exact ⟨any, same⟩
  generalize before : t.regs.axi.wrState = state at cycle
  generalize ((axiReq t.regs (t.resp i)).awValid && i.move.awReady) = aw at cycle aws
  generalize ((axiReq t.regs (t.resp i)).wValid && i.move.wReady) = w at cycle ws
  generalize granting : axiWrGnt t.regs (t.resp i) = gnt at cycle stores
  generalize after : (t.next i).regs.axi.wrState = state' at cycle
  cases cycle with
  | idle =>
      obtain ⟨aws', ws'⟩ := queued.writes.of_idle before
      refine .idle after ?_ ?_
      · simpa [stores, aws'] using aws
      · simpa [stores, ws'] using ws
  | both req =>
      rw [wrReq_eq, Bool.and_eq_true] at req
      obtain ⟨aw, w⟩ := whole req.1 req.2
      obtain ⟨aws', ws'⟩ := queued.writes.of_idle before
      refine .idle after ?_ ?_
      · simpa [stores, aws', aw] using aws
      · simpa [stores, ws', w] using ws
  | data req =>
      rw [wrReq_eq, Bool.and_eq_true] at req
      obtain ⟨aw, w⟩ := whole req.1 req.2
      obtain ⟨any, same⟩ := stays req.1 req.2 granting
      obtain ⟨aws', ws'⟩ := queued.writes.of_idle before
      refine .data after any (same ▸ req.2) ?_ ?_
      · simpa [stores, aws'] using aws
      · simpa [stores, ws', w, same] using ws
  | address req =>
      rw [wrReq_eq, Bool.and_eq_true] at req
      obtain ⟨aw, w⟩ := whole req.1 req.2
      obtain ⟨any, same⟩ := stays req.1 req.2 granting
      obtain ⟨aws', ws'⟩ := queued.writes.of_idle before
      refine .address after any (same ▸ req.2) ?_ ?_
      · simpa [stores, aws', aw, same] using aws
      · simpa [stores, ws'] using ws
  | noAddress =>
      obtain ⟨any, store, aws', ws'⟩ := queued.writes.of_data before
      obtain ⟨any', same⟩ := stays any store granting
      refine .data after any' (same ▸ store) ?_ ?_
      · simpa [stores, aws'] using aws
      · simpa [stores, ws', same] using ws
  | lateAddress =>
      obtain ⟨any, store, aws', ws'⟩ := queued.writes.of_data before
      obtain ⟨aw, w⟩ := whole any store
      refine .idle after ?_ ?_
      · simpa [stores, aws', aw] using aws
      · simpa [stores, ws'] using ws
  | noData =>
      obtain ⟨any, store, aws', ws'⟩ := queued.writes.of_address before
      obtain ⟨any', same⟩ := stays any store granting
      refine .address after any' (same ▸ store) ?_ ?_
      · simpa [stores, aws', same] using aws
      · simpa [stores, ws'] using ws
  | lateData =>
      obtain ⟨any, store, aws', ws'⟩ := queued.writes.of_address before
      obtain ⟨aw, w⟩ := whole any store
      refine .idle after ?_ ?_
      · simpa [stores, aws'] using aws
      · simpa [stores, ws', w] using ws

theorem filterMap_icache (as : List (IcacheReq p)) :
    (as.map Request.icache).filterMap Request.icache? = as := by
  rw [List.filterMap_map]
  exact List.filterMap_some

theorem filterMap_dcache (ds : List (DcacheReq p)) :
    (ds.map Request.dcache).filterMap Request.dcache? = ds := by
  rw [List.filterMap_map]
  exact List.filterMap_some

theorem filterMap_others (as : List (IcacheReq p)) (ds : List (DcacheReq p)) :
    (as.map Request.icache).filterMap Request.dcache? = [] ∧
      (ds.map Request.dcache).filterMap Request.icache? = [] := by
  constructor
  · rw [List.filterMap_map]
    exact List.filterMap_eq_nil_iff.mpr fun _ _ => rfl
  · rw [List.filterMap_map]
    exact List.filterMap_eq_nil_iff.mpr fun _ _ => rfl

/-- What is in the queues was there or has been taken. -/
theorem mem_queues {s : State p} {q : Requests p} {r : AxiResp p.axiIdWidth} :
    (∀ x ∈ (next s q r).icache, x ∈ s.icache ∨ x ∈ icacheAccepted s q) ∧
      (∀ x ∈ (next s q r).dcache, x ∈ s.dcache ∨ x ∈ dcacheAccepted s q) := by
  have icache : (next s q r).icache =
      (if arbAck s r 0 then s.icache.tail else s.icache) ++ icacheAccepted s q := rfl
  have dcache : (next s q r).dcache =
      (if arbAck s r 1 then s.dcache.tail else s.dcache) ++ dcacheAccepted s q := rfl
  rw [icache, dcache]
  constructor
  · intro x member
    refine (List.mem_append.mp member).imp_left fun old => ?_
    split at old
    · exact List.mem_of_mem_tail old
    · exact old
  · intro x member
    refine (List.mem_append.mp member).imp_left fun old => ?_
    split at old
    · exact List.mem_of_mem_tail old
    · exact old

/-- The queues after a cycle, behind the request that is acknowledged in it. -/
theorem Queued.queues_next (queued : Queued t) :
    (if l15Ack t.regs (t.resp i) then [granted t.regs] else []).filterMap Request.icache? ++
        (t.next i).regs.icache = t.regs.icache ++ icacheAccepted t.regs i.toRequests ∧
      (if l15Ack t.regs (t.resp i) then [granted t.regs] else []).filterMap Request.dcache? ++
        (t.next i).regs.dcache = t.regs.dcache ++ dcacheAccepted t.regs i.toRequests := by
  cases ack : l15Ack t.regs (t.resp i) with
  | true =>
      obtain ⟨icache, dcache⟩ :=
        queues_acked (q := i.toRequests) queued.kept (queued.any_of_ack ack) ack
      have one {α : Type} (f : Request p → Option α) :
          [granted t.regs].filterMap f = (f (granted t.regs)).toList := by
        cases image : f (granted t.regs) <;> simp [image]
      rw [if_pos rfl, one, one]
      exact ⟨icache, dcache⟩
  | false => exact queues_waiting ack

theorem Queued.next (queued : Queued t) (supported : Supported t i) : Queued (t.next i) := by
  obtain ⟨icache, dcache⟩ := queued.queues_next (i := i)
  obtain ⟨fromIcache, fromDcache⟩ :=
    mem_queues (s := t.regs) (q := i.toRequests) (r := t.resp i)
  have accepted : (t.next i).accepted =
      t.accepted ++ (icacheAccepted t.regs i.toRequests).map .icache ++
        (dcacheAccepted t.regs i.toRequests).map .dcache := rfl
  have acked : (t.next i).acked =
      t.acked ++ if l15Ack t.regs (t.resp i) then [granted t.regs] else [] := rfl
  obtain ⟨noInstruction, noData⟩ :=
    filterMap_others (icacheAccepted t.regs i.toRequests) (dcacheAccepted t.regs i.toRequests)
  exact
    { kept := kept_next queued.kept
      icache := by
        rw [accepted, acked, List.filterMap_append, List.filterMap_append, List.filterMap_append,
          filterMap_icache, noData, List.append_nil, queued.icache, List.append_assoc,
          List.append_assoc, icache]
      dcache := by
        rw [accepted, acked, List.filterMap_append, List.filterMap_append, List.filterMap_append,
          filterMap_dcache, noInstruction, List.append_nil, queued.dcache, List.append_assoc,
          List.append_assoc, dcache]
      icacheFits := fun r member =>
        (fromIcache r member).elim (queued.icacheFits r) (supported.icache r)
      dcacheFits := fun r member =>
        (fromDcache r member).elim (queued.dcacheFits r) (supported.dcache r)
      kinds := by
        intro r member
        rw [acked, List.mem_append] at member
        rcases member with old | new
        · exact queued.kinds r old
        · split at new
          · next ack =>
              rw [List.mem_singleton.mp new]
              exact (queued.served (queued.any_of_ack ack)).1
          · cases new
      wrCnt := queued.singleWrite.2
      writes := queued.writes_next }

end Writes

end Ariane.CachePorts
