import Ariane.CacheProgress

set_option autoImplicit false

/- The requests of the caches on the AXI port: each is answered once, and none waits for ever,
unless one is atomic. -/
namespace Ariane.CachePorts

open AxiAdapter2 (AxiResp)
open RrArbiter (anyBit anyBit_iff)
open Rtl (Machine)
open Traffic (granted)

attribute [local instance] twoPorts

variable {p : Params} {t : Traffic p}

theorem serving_reset (p : Params) : Serving (traffic p).reset where
  queued :=
    { kept := fun lock => (Bool.false_ne_true lock).elim
      icache := rfl
      dcache := rfl
      icacheFits := fun _ member => absurd member List.not_mem_nil
      dcacheFits := fun _ member => absurd member List.not_mem_nil
      kinds := fun _ member => absurd member List.not_mem_nil
      wrCnt := rfl
      writes := .idle rfl rfl rfl }
  slave :=
    { bounded := fun _ => Nat.le_refl 0
      reads := fun _ member => absurd member List.not_mem_nil
      writes := fun _ member => absurd member List.not_mem_nil
      once := List.nodup_nil }
  ars := rfl
  reading := .rest rfl rfl rfl fun _ => Nat.not_lt_zero 0
  room := .inl rfl
  returned := .nil

theorem serving_run (fits : p.Fits) {inputs : List (Cycle p)}
    (supported : (traffic p).Legal Supported (traffic p).reset inputs) :
    Serving ((traffic p).run inputs) :=
  (traffic p).run_invariant (serving_reset p) (fun _ _ serving now => serving.next fits now)
    supported

theorem Serving.length_late (serving : Serving t) : t.late.length ≤ 2 := by
  have fifo : (t.regs.rtrn.flatMap rtrnLogic).length ≤ 1 := by
    rcases serving.room with empty | ⟨s, r, one⟩
    · rw [empty]
      exact Nat.zero_le 1
    · rw [one, List.flatMap_singleton, length_rtrnLogic]
  rw [Traffic.late, List.length_append]
  split
  · rw [length_rtrnLogic]
    omega
  · rw [List.length_nil]
    omega

theorem Serving.answered (serving : Serving t) : Answered t where
  icache := serving.queued.icache
  dcache := serving.queued.dcache
  kinds := serving.queued.kinds
  ars := serving.ars
  writes := by
    have front (any : anyBit (arbReq t.regs) = true) (store : (granted t.regs).isStore = true) :
        ∃ r rest, t.regs.dcache = r :: rest ∧ [granted t.regs] = [.dcache r] := by
      rcases granted_cases serving.queued.kept any with
        ⟨-, r, rest, -, same⟩ | ⟨-, r, rest, queue, same⟩
      · rw [same] at store
        cases store
      · exact ⟨r, rest, queue, by rw [same]⟩
    rcases serving.queued.writes with ⟨-, aws, ws⟩ | ⟨-, any, store, aws, ws⟩ |
      ⟨-, any, store, aws, ws⟩
    · refine ⟨[], [], ?_, ?_, .inl rfl⟩
      · rw [List.append_nil]
        exact aws
      · rw [List.append_nil]
        exact ws
    · refine ⟨[granted t.regs], [], aws, ?_, .inr (front any store)⟩
      rw [List.append_nil]
      exact ws
    · refine ⟨[], [granted t.regs], ?_, ws, .inr (front any store)⟩
      rw [List.append_nil]
      exact aws
  once := serving.slave.once
  returned := ⟨t.late, serving.length_late, serving.returned⟩

/-- Two cycles after the slave has completed a transaction its packet has reached the cache. -/
theorem Serving.delivered (serving : Serving t) (fits : p.Fits) (i j : Cycle p) :
    t.slave.completed.length ≤ ((t.next i).next j).returned.length := by
  obtain ⟨rtrn, returned⟩ := serving.rtrn_next (i := i) fits
  have last : ((t.next i).next j).returned =
      (t.next i).returned ++ (t.next i).regs.rtrn.head?.toList.flatMap rtrnLogic := rfl
  have count := serving.returned.length_eq
  rw [Traffic.late] at count
  rw [last, returned, rtrn, count]
  simp only [List.length_append]
  cases valid : t.regs.axi.rdValid with
  | false =>
      rw [if_neg Bool.false_ne_true, List.length_nil]
      omega
  | true =>
      have val : l15RtrnVal t.regs (t.resp i) = true := by rw [l15RtrnVal, valid]; rfl
      rw [if_pos rfl, if_pos val, length_rtrnLogic, List.head?_cons, Option.toList_some,
        List.flatMap_singleton, length_rtrnLogic]
      omega

/-- Whatever the caches request later, the slave can behave so that all that has been taken is
acknowledged. -/
def Unblocked (t : Traffic p) : Prop :=
  ∀ later : Nat → Requests p, (∀ n, (later n).Fit) → ∃ rest : List (Cycle p),
    rest.map Cycle.toRequests = (List.range rest.length).map later ∧
      (traffic p).Legal Supported t rest ∧
      t.accepted.filterMap Request.icache? <+:
        ((traffic p).runFrom t rest).acked.filterMap Request.icache? ∧
      t.accepted.filterMap Request.dcache? <+:
        ((traffic p).runFrom t rest).acked.filterMap Request.dcache?

theorem Serving.unblocked (serving : Serving t) (fits : p.Fits) : Unblocked t := by
  intro later fit
  obtain ⟨n, icache, dcache⟩ := all_acked serving fits fit
  refine ⟨eagerCycles t later n, ?_, legal_eager fit n, ?_, ?_⟩
  · rw [eagerCycles, List.map_map, List.length_map, List.length_range]
    rfl
  · rw [runFrom_eager]
    exact icache
  · rw [runFrom_eager]
    exact dcache

/-- In a run of requests that the port can serve every request is answered once, its packet comes
two cycles after the slave has completed the transaction at the latest, and none is blocked. -/
theorem requests_answered (fits : p.Fits) {inputs : List (Cycle p)}
    (supported : (traffic p).Legal Supported (traffic p).reset inputs) :
    Answered ((traffic p).run inputs) ∧
      (∀ i j, ((traffic p).run inputs).slave.completed.length ≤
        ((traffic p).run (inputs ++ [i, j])).returned.length) ∧
      Unblocked ((traffic p).run inputs) := by
  have serving := serving_run fits supported
  refine ⟨serving.answered, fun i j => ?_, serving.unblocked fits⟩
  rw [Machine.run_append]
  exact serving.delivered fits i j

/-- A configuration. -/
def plainParams : Params where
  tidWidth := 2
  l15AddressWidth := 40
  axiIdWidth := 10
  icacheLineWidth := 128
  dcacheLineWidth := 128
  adapterReqFifoDepth := 2
  adapterRtrnFifoDepth := 2
  swapEndianess := false
  swendian64 word := word
  toByteEnable8 _ _ := 0xFF

/-- A load whose read is answered in a cycle in which another request comes. -/
def loadCycles : List (Cycle plainParams) :=
  [{ dcache := some { paddr := 0x80000000, tid := 1 } }, { move := { arReady := true } },
    { icache := some { paddr := 0x80000040 }, move := { beat := some (0, 7) } }]

theorem requests_answered_load :
    plainParams.Fits ∧ (traffic plainParams).Legal Supported (traffic plainParams).reset loadCycles ∧
      ((traffic plainParams).run loadCycles).slave.completed = [⟨false, 0, [7]⟩] ∧
      Answered ((traffic plainParams).run loadCycles) := by
  have fits : plainParams.Fits := ⟨by decide, by decide, by decide, by decide⟩
  have supported : (traffic plainParams).Legal Supported (traffic plainParams).reset loadCycles := by
    decide
  exact ⟨fits, supported, by decide, (requests_answered fits supported).1⟩

/-- An atomic request waits at the output of the arbiter. -/
structure Blocked (t : Traffic p) : Prop where
  kept : RrArbiter.Kept t.regs.arbiter (arbReq t.regs)
  any : anyBit (arbReq t.regs) = true
  read : (granted t.regs).isRead = false
  store : (granted t.regs).isStore = false
  idle : t.regs.axi.wrState = .idle

theorem Blocked.waits (blocked : Blocked t) (i : Cycle p) :
    l15Ack t.regs (t.resp i) = false := by
  have rdReq : axiRdReq t.regs = false := by
    rw [rdReq_eq, blocked.read, Bool.and_false, Bool.false_and]
  have wrReq : (axiInput t.regs).wrReq = false := by
    show axiWrReq t.regs = false
    rw [wrReq_eq, blocked.store, Bool.and_false]
  have rdGnt : axiRdGnt t.regs (t.resp i) = false := by
    show (axiRdReq t.regs && _) = false
    rw [rdReq, Bool.false_and]
  rw [l15Ack, rdGnt, Bool.false_or, axiWrGnt, AxiAdapter2.wrGnt, AxiAdapter2.writeFsm,
    blocked.idle]
  simp only [wrReq, Bool.false_eq_true, if_false]

/-- It blocks the port for ever. -/
theorem Blocked.next (blocked : Blocked t) (i : Cycle p) :
    Blocked (t.next i) ∧ (t.next i).acked = t.acked := by
  have waits := blocked.waits i
  obtain ⟨any, -, same⟩ :=
    granted_waiting (q := i.toRequests) blocked.kept blocked.any waits
  have wrReq : (axiInput t.regs).wrReq = false := by
    show axiWrReq t.regs = false
    rw [wrReq_eq, blocked.store, Bool.and_false]
  have idle : (t.next i).regs.axi.wrState = .idle := by
    show (AxiAdapter2.writeFsm _ _ _).wrState = _
    rw [AxiAdapter2.writeFsm, blocked.idle]
    simp only [wrReq, Bool.false_eq_true, if_false]
  refine ⟨⟨kept_next blocked.kept, any, ?_, ?_, idle⟩, ?_⟩
  · exact (congrArg Request.isRead same).trans blocked.read
  · exact (congrArg Request.isStore same).trans blocked.store
  · show t.acked ++ (if l15Ack t.regs (t.resp i) then _ else _) = _
    rw [waits, if_neg Bool.false_ne_true, List.append_nil]

theorem Blocked.run (blocked : Blocked t) (rest : List (Cycle p)) :
    ((traffic p).runFrom t rest).acked = t.acked := by
  induction rest generalizing t with
  | nil => rfl
  | cons i rest ih =>
      obtain ⟨next, same⟩ := blocked.next i
      rw [Machine.runFrom_cons]
      exact (ih next).trans same

/-- An atomic request that is taken is never acknowledged, nor is any other after it. -/
theorem atomic_never_acknowledged :
    ((traffic plainParams).run [{ dcache := some { rtype := .atomicReq } }]).accepted =
        [.dcache { rtype := .atomicReq }] ∧
      ∀ rest, ((traffic plainParams).run
        ({ dcache := some { rtype := .atomicReq } } :: rest)).acked = [] := by
  refine ⟨rfl, fun rest => ?_⟩
  have blocked : Blocked ((traffic plainParams).run [{ dcache := some { rtype := .atomicReq } }]) :=
    ⟨fun lock => (Bool.false_ne_true lock).elim, by decide, by decide, by decide, rfl⟩
  exact blocked.run rest

end Ariane.CachePorts
