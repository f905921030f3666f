import Ariane.CacheRequests
import Ariane.CacheSlave

set_option autoImplicit false

/- The return side of the AXI port: what the slave completes becomes one packet at a cache. -/
namespace Ariane.CachePorts

open AxiAdapter2 (AxiAddr AxiResp)
open RrArbiter (anyBit)
open Traffic (granted)

attribute [local instance] twoPorts

variable {p : Params}

section Packet

variable {s : State p} {r : AxiResp p.axiIdWidth}

/-- The fields of the identifier survive the way through AXI. -/
theorem axiId_fields (ids : p.tidWidth + 2 ≤ p.axiIdWidth) (tid : BitVec p.tidWidth)
    (filled nc : Bool) :
    ((axiId p tid filled nc).setWidth (p.tidWidth + 2)).getLsbD 0 = nc ∧
      ((axiId p tid filled nc).setWidth (p.tidWidth + 2)).getLsbD 1 = filled ∧
      ((axiId p tid filled nc).setWidth (p.tidWidth + 2) >>> 2).setWidth p.tidWidth = tid := by
  have bit (k : Nat) (small : k < p.tidWidth + 2) :
      ((axiId p tid filled nc).setWidth (p.tidWidth + 2)).getLsbD k =
        (tid ++ BitVec.ofBool filled ++ BitVec.ofBool nc).getLsbD k := by
    have inside : k < p.axiIdWidth := by omega
    rw [BitVec.getLsbD_setWidth, axiId, BitVec.getLsbD_setWidth, decide_eq_true small,
      decide_eq_true inside, Bool.true_and, Bool.true_and]
  refine ⟨?_, ?_, ?_⟩
  · rw [bit 0 (by omega), BitVec.getLsbD_append, if_pos (by decide)]
    cases nc <;> rfl
  · rw [bit 1 (by omega), BitVec.getLsbD_append, if_neg (by decide), BitVec.getLsbD_append,
      if_pos (by decide)]
    cases filled <;> rfl
  · apply BitVec.eq_of_getLsbD_eq
    intro k inside
    rw [BitVec.getLsbD_setWidth, decide_eq_true inside, Bool.true_and, BitVec.getLsbD_ushiftRight,
      bit (2 + k) (by omega), BitVec.getLsbD_append, if_neg (by omega), BitVec.getLsbD_append,
      if_neg (by omega)]
    exact congrArg tid.getLsbD (by omega)

/-- A read that is registered becomes the packet of its request. -/
theorem packet_read (ids : p.tidWidth + 2 ≤ p.axiIdWidth) {g : Request p} (read : g.isRead = true)
    (valid : s.axi.rdValid = true) (id : s.axi.rdId = axiId p g.tid g.icache?.isSome g.nc)
    {words : List (BitVec 64)}
    (data : ∀ k word, words[k]? = some word → s.axi.rdData (BitVec.ofNat 3 k) = word) :
    ∃ packet, rtrnLogic (l15Rtrn s r) = [packet] ∧ Answers words g packet := by
  obtain ⟨nc, filled, tid⟩ := axiId_fields ids g.tid g.icache?.isSome g.nc
  have tmp : idTmp s r = s.axi.rdId.setWidth (p.tidWidth + 2) := by
    rw [idTmp, if_pos valid]
  rw [← id, ← tmp] at nc filled tid
  cases g with
  | icache g =>
      have returntype : (l15Rtrn s r).returntype = .ifillRet := by
        simp only [l15Rtrn, valid, filled]
        rfl
      refine ⟨icacheRtrn (l15Rtrn s r) .ifillAck, ?_, rfl, tid, nc, ?_⟩
      · rw [rtrnLogic, returntype]
      · intro k word get
        exact congrArg (endian p) (data k word get)
  | dcache g =>
      have kind : g.rtype = .loadReq := beq_iff_eq.mp read
      have returntype : (l15Rtrn s r).returntype = .loadRet := by
        simp only [l15Rtrn, valid, filled]
        rfl
      refine ⟨dcacheRtrn (l15Rtrn s r) .loadAck, ?_, ?_, tid, nc, ?_⟩
      · rw [rtrnLogic, returntype]
      · rw [kind]
        rfl
      · intro k word get
        exact congrArg (endian p) (data k word get)

/-- A response on the write channel becomes the packet of its request. -/
theorem packet_write (ids : p.tidWidth + 2 ≤ p.axiIdWidth) {g : Request p}
    (store : g.isStore = true) (valid : s.axi.rdValid = false)
    (id : r.bId = axiId p g.tid false g.nc) :
    ∃ packet, rtrnLogic (l15Rtrn s r) = [packet] ∧ Answers [] g packet := by
  obtain ⟨nc, -, tid⟩ := axiId_fields ids g.tid false g.nc
  have tmp : idTmp s r = r.bId.setWidth (p.tidWidth + 2) := by
    rw [idTmp, valid, if_neg Bool.false_ne_true]
  rw [← id, ← tmp] at nc tid
  cases g with
  | icache g => cases store
  | dcache g =>
      have kind : g.rtype = .storeReq := beq_iff_eq.mp store
      have returntype : (l15Rtrn s r).returntype = .stAck := by
        simp only [l15Rtrn, valid, Bool.false_and, Bool.false_eq_true, if_false]
      refine ⟨dcacheRtrn (l15Rtrn s r) .storeAck, ?_, ?_, tid, nc, ?_⟩
      · rw [rtrnLogic, returntype]
      · rw [kind]
        rfl
      · intro k word get
        cases get

end Packet

section Reading

variable {t : Traffic p} {i : Cycle p}

/-- The read channel of the adapter: without a read, in a burst, or with a read that is complete
and registered. -/
inductive Reading (t : Traffic p) : Prop where
  | rest : t.regs.rdPending = false → t.regs.axi.rdValid = false → t.regs.axi.rdCnt = 0 →
      (∀ k, ¬ t.slave.Open k) → Reading t
  | burst (k : Nat) : t.regs.rdPending = true → t.regs.axi.rdValid = false →
      t.slave.Open k → (∀ j, t.slave.Open j → j = k) →
      t.regs.axi.rdCnt.toNat = (t.slave.sent k).length →
      (∀ j word, (t.slave.sent k)[j]? = some word →
        t.regs.axi.rdData (BitVec.ofNat 3 j) = word) → Reading t
  | held : t.regs.rdPending = true → t.regs.axi.rdValid = true → t.regs.axi.rdCnt = 0 →
      (∀ k, ¬ t.slave.Open k) → Reading t

/-- The packets on their way: those in the return FIFO, and a read that is registered. -/
def Traffic.late (t : Traffic p) : List (Return p) :=
  t.regs.rtrn.flatMap rtrnLogic ++
    if t.regs.axi.rdValid then rtrnLogic (l15Rtrn t.regs {}) else []

/-- What a run keeps. -/
structure Serving (t : Traffic p) : Prop where
  queued : Queued t
  slave : t.slave.Sound
  ars : t.slave.ars = t.reads.map Request.readAddr
  reading : Reading t
  room : t.regs.rtrn = [] ∨ ∃ s r, t.regs.rtrn = [l15Rtrn s r]
  returned : List.Forall₂ t.Matches t.slave.completed (t.returned ++ t.late)

theorem Request.words_bounds (fits : p.Fits) (r : Request p) : 1 ≤ r.words ∧ r.words ≤ 8 := by
  obtain ⟨icacheLow, icacheHigh⟩ := fits.icacheLine
  obtain ⟨dcacheLow, dcacheHigh⟩ := fits.dcacheLine
  cases r with
  | icache r =>
      rw [words]
      split <;> omega
  | dcache r =>
      rw [words]
      split <;> omega

/-- Bursts have up to eight beats. -/
theorem Serving.burst_le (serving : Serving t) (fits : p.Fits) (k : Nat) :
    t.slave.burst k ≤ 8 := by
  by_cases inside : k < t.slave.ars.length
  · obtain ⟨ar, get⟩ : ∃ ar, t.slave.ars[k]? = some ar := ⟨_, List.getElem?_eq_getElem inside⟩
    have mapped := get
    rw [serving.ars, List.getElem?_map, Option.map_eq_some_iff] at mapped
    obtain ⟨g, -, same⟩ := mapped
    have bounds := g.words_bounds fits
    rw [Slave.burst_of_get get, ← same]
    show (BitVec.ofNat 8 (g.words - 1)).toNat + 1 ≤ 8
    rw [BitVec.toNat_ofNat]
    omega
  · rw [Slave.burst_absent (Nat.le_of_not_lt inside)]
    exact Nat.zero_le _

/-- The adapter takes every beat. -/
theorem taken_eq (t : Traffic p) (i : Cycle p) :
    t.slave.taken i.move (axiReq t.regs (t.resp i)) = t.slave.beat i.move :=
  if_pos rfl

/-- Without an open read no beat comes. -/
theorem beat_closed (closed : ∀ k, ¬ t.slave.Open k) : t.slave.beat i.move = none := by
  cases beat : t.slave.beat i.move with
  | none => rfl
  | some b => exact absurd (Slave.beat_open beat) (closed b.1)

theorem resp_silent (silent : t.slave.beat i.move = none) : (t.resp i).rValid = false := by
  show (t.slave.beat i.move).isSome = false
  rw [silent]
  rfl

theorem rdValid_next (t : Traffic p) (i : Cycle p) :
    (t.next i).regs.axi.rdValid = ((t.resp i).rValid && (t.resp i).rLast) := rfl

theorem rdCnt_next (t : Traffic p) (i : Cycle p) :
    (t.next i).regs.axi.rdCnt =
      if (t.resp i).rLast then 0
      else if (t.resp i).rValid then t.regs.axi.rdCnt + 1 else t.regs.axi.rdCnt := rfl

theorem rdData_next (t : Traffic p) (i : Cycle p) (k : BitVec 3) :
    (t.next i).regs.axi.rdData k =
      if decide (t.regs.axi.rdCnt = k) && (t.resp i).rValid then (t.resp i).rData
      else t.regs.axi.rdData k := rfl

theorem rdPending_next (t : Traffic p) (i : Cycle p) :
    (t.next i).regs.rdPending =
      if t.regs.axi.rdValid then false else t.regs.rdPending || axiRdGnt t.regs (t.resp i) := rfl

theorem sent_silent (silent : t.slave.beat i.move = none) (k : Nat) :
    (t.next i).slave.sent k = t.slave.sent k := by
  apply Slave.sent_untaken
  intro word taken
  have beat := Slave.taken_beat taken
  rw [silent] at beat
  cases beat

/-- The reads that the slave has taken after a cycle are those that are acknowledged. -/
theorem Serving.ars_next (serving : Serving t) (fits : p.Fits) :
    (t.next i).slave.ars = (t.next i).reads.map Request.readAddr := by
  have taken : (t.next i).slave.ars = t.slave.ars ++
      if axiRdGnt t.regs (t.resp i) then [(axiReq t.regs (t.resp i)).ar] else [] := rfl
  obtain ⟨reads, -⟩ := serving.queued.acked_next (i := i)
  rw [taken, reads, List.map_append, ← serving.ars]
  congr 1
  split
  · next grant =>
      have any := (rdGnt_granted grant).1
      rw [ar_eq fits t.regs (t.resp i) (serving.queued.served any).2]
      rfl
  · rfl

/-- A read that is granted is the only one that is open. -/
theorem Serving.open_granted (serving : Serving t)
    (closed : ∀ k, ¬ t.slave.Open k) (grant : axiRdGnt t.regs (t.resp i) = true) :
    (t.next i).slave.Open t.slave.ars.length ∧
      ∀ j, (t.next i).slave.Open j → j = t.slave.ars.length := by
  have longer : (t.next i).slave.ars = t.slave.ars ++ [(axiReq t.regs (t.resp i)).ar] := by
    show t.slave.ars ++ (if axiRdGnt t.regs (t.resp i) then _ else _) = _
    rw [grant]
    rfl
  constructor
  · have get : (t.next i).slave.ars[t.slave.ars.length]? =
        some (axiReq t.regs (t.resp i)).ar := by
      rw [longer, List.getElem?_concat_length]
    rw [Slave.Open, Slave.burst_of_get get, sent_silent (beat_closed closed),
      serving.slave.sent_absent (Nat.le_refl _)]
    exact Nat.zero_lt_succ _
  · intro j unfinished
    have inside := unfinished.lt
    rw [longer, List.length_append, List.length_singleton] at inside
    by_contra other
    have old : j < t.slave.ars.length := by omega
    exact Slave.closed_next (closed j) old unfinished

theorem not_granted (pending : t.regs.rdPending = true) :
    axiRdGnt t.regs (t.resp i) = false := by
  rw [Bool.eq_false_iff]
  intro grant
  have free := (rdGnt_granted grant).2.2.1
  rw [pending] at free
  cases free

theorem closed_kept (closed : ∀ k, ¬ t.slave.Open k)
    (quiet : axiRdGnt t.regs (t.resp i) = false) (k : Nat) : ¬ (t.next i).slave.Open k := by
  have same : (t.next i).slave.ars = t.slave.ars := by
    show t.slave.ars ++ (if axiRdGnt t.regs (t.resp i) then _ else _) = _
    rw [quiet, if_neg Bool.false_ne_true, List.append_nil]
  intro unfinished
  have inside := unfinished.lt
  rw [same] at inside
  exact Slave.closed_next (closed k) inside unfinished

/-- A cycle without a beat in which no read is granted. -/
theorem silent_next (supported : Supported t i)
    (silent : t.slave.beat i.move = none) :
    (t.next i).regs.axi.rdValid = false ∧
      (t.next i).regs.axi.rdCnt = t.regs.axi.rdCnt ∧
      ∀ k, (t.next i).regs.axi.rdData k = t.regs.axi.rdData k := by
  have none := resp_silent silent
  refine ⟨?_, ?_, ?_⟩
  · rw [rdValid_next, none]
    rfl
  · rw [rdCnt_next, none]
    cases last : (t.resp i).rLast with
    | true => rw [if_pos rfl, supported.last none last]
    | false => rfl
  · intro k
    rw [rdData_next, none, Bool.and_false]
    rfl

theorem burst_kept {k : Nat} (unfinished : t.slave.Open k) :
    (t.next i).slave.burst k = t.slave.burst k := Slave.burst_next unfinished.lt

/-- The responses of a cycle with a beat. -/
theorem resp_beat {k : Nat} {word : BitVec 64} (beat : t.slave.beat i.move = some (k, word)) :
    (t.resp i).rValid = true ∧ (t.resp i).rLast = t.slave.lastBeat k ∧
      (t.resp i).rData = word := by
  refine ⟨?_, ?_, ?_⟩
  · show (t.slave.beat i.move).isSome = true
    rw [beat]
    rfl
  · show ((t.slave.beat i.move).map fun b => t.slave.lastBeat b.1).getD _ = _
    rw [beat]
    rfl
  · show ((t.slave.beat i.move).map Prod.snd).getD _ = _
    rw [beat]
    rfl

theorem sent_beat {k : Nat} {word : BitVec 64} (beat : t.slave.beat i.move = some (k, word)) :
    (t.next i).slave.sent k = t.slave.sent k ++ [word] :=
  Slave.sent_taken ((taken_eq t i).trans beat)

/-- The words that the adapter has registered after a beat. -/
theorem data_beat {k : Nat} {word : BitVec 64} (beat : t.slave.beat i.move = some (k, word))
    (short : (t.slave.sent k).length < 8)
    (cnt : t.regs.axi.rdCnt.toNat = (t.slave.sent k).length)
    (data : ∀ j word, (t.slave.sent k)[j]? = some word →
      t.regs.axi.rdData (BitVec.ofNat 3 j) = word) {j : Nat} {sent : BitVec 64}
    (get : (t.slave.sent k ++ [word])[j]? = some sent) :
    (t.next i).regs.axi.rdData (BitVec.ofNat 3 j) = sent := by
  obtain ⟨valid, -, rData⟩ := resp_beat beat
  rw [rdData_next, valid, Bool.and_true, rData]
  have inside : j < (t.slave.sent k ++ [word]).length := (List.getElem?_eq_some_iff.mp get).1
  rw [List.length_append, List.length_singleton] at inside
  have small : j % 2 ^ 3 = j := Nat.mod_eq_of_lt (by omega)
  by_cases new : j = (t.slave.sent k).length
  · have here : t.regs.axi.rdCnt = BitVec.ofNat 3 j := by
      apply BitVec.eq_of_toNat_eq
      rw [BitVec.toNat_ofNat, small, cnt, new]
    rw [decide_eq_true here, if_pos rfl]
    rw [new, List.getElem?_concat_length, Option.some.injEq] at get
    exact get
  · have old : j < (t.slave.sent k).length := by omega
    have other : ¬ t.regs.axi.rdCnt = BitVec.ofNat 3 j := by
      intro same
      have number := congrArg BitVec.toNat same
      rw [BitVec.toNat_ofNat, small, cnt] at number
      omega
    rw [decide_eq_false other, if_neg Bool.false_ne_true]
    rw [List.getElem?_append_left old] at get
    exact data j sent get

theorem Serving.reading_next (serving : Serving t) (fits : p.Fits) (supported : Supported t i) :
    Reading (t.next i) := by
  cases serving.reading with
  | rest pending valid cnt closed =>
      have silent := beat_closed (i := i) closed
      obtain ⟨valid', cnt', -⟩ := silent_next supported silent
      rw [cnt] at cnt'
      have pending' := rdPending_next t i
      rw [valid, pending, if_neg Bool.false_ne_true, Bool.false_or] at pending'
      cases grant : axiRdGnt t.regs (t.resp i) with
      | false => exact .rest (pending'.trans grant) valid' cnt' (closed_kept closed grant)
      | true =>
          obtain ⟨unfinished, only⟩ := serving.open_granted closed grant
          have fresh : (t.next i).slave.sent t.slave.ars.length = [] := by
            rw [sent_silent silent, serving.slave.sent_absent (Nat.le_refl _)]
          refine .burst _ (pending'.trans grant) valid' unfinished only ?_ ?_
          · rw [fresh, cnt']
            rfl
          · rw [fresh]
            intro j word get
            cases get
  | held pending valid cnt closed =>
      have silent := beat_closed (i := i) closed
      obtain ⟨valid', cnt', -⟩ := silent_next supported silent
      have pending' := rdPending_next t i
      rw [valid, if_pos rfl] at pending'
      exact .rest pending' valid' (cnt'.trans cnt) (closed_kept closed (not_granted pending))
  | burst k pending valid unfinished only cnt data =>
      have quiet := not_granted (i := i) pending
      have pending' := rdPending_next t i
      rw [valid, pending, if_neg Bool.false_ne_true, Bool.true_or] at pending'
      have ars : (t.next i).slave.ars = t.slave.ars := by
        show t.slave.ars ++ (if axiRdGnt t.regs (t.resp i) then _ else _) = _
        rw [quiet, if_neg Bool.false_ne_true, List.append_nil]
      have others (j : Nat) (later : (t.next i).slave.Open j) : j = k := by
        by_contra other
        have inside := later.lt
        rw [ars] at inside
        exact Slave.closed_next (fun now => other (only j now)) inside later
      cases beat : t.slave.beat i.move with
      | none =>
          obtain ⟨valid', cnt', data'⟩ := silent_next supported beat
          refine .burst k pending' valid' ?_ others ?_ ?_
          · rw [Slave.Open, sent_silent beat, burst_kept unfinished]
            exact unfinished
          · rw [cnt', cnt, sent_silent beat]
          · intro j word get
            rw [sent_silent beat] at get
            rw [data']
            exact data j word get
      | some b =>
          obtain ⟨number, word⟩ := b
          obtain rfl : number = k := only number (Slave.beat_open beat)
          obtain ⟨rValid, rLast, -⟩ := resp_beat beat
          have short : (t.slave.sent number).length < 8 :=
            Nat.lt_of_lt_of_le unfinished (serving.burst_le fits number)
          have valid' := rdValid_next t i
          have cnt' := rdCnt_next t i
          rw [rValid, rLast, Bool.true_and] at valid'
          rw [rValid, rLast] at cnt'
          cases last : t.slave.lastBeat number with
          | true =>
              rw [last, if_pos rfl] at cnt'
              refine .held pending' (valid'.trans last) cnt' fun j later => ?_
              obtain rfl := others j later
              have full : (t.slave.sent j).length + 1 = t.slave.burst j := of_decide_eq_true last
              rw [Slave.Open, sent_beat beat, burst_kept unfinished, List.length_append,
                ← full] at later
              exact Nat.lt_irrefl _ later
          | false =>
              rw [last, if_neg Bool.false_ne_true, if_pos rfl] at cnt'
              have more : (t.slave.sent number).length + 1 ≠ t.slave.burst number :=
                of_decide_eq_false last
              have room : (t.slave.sent number).length < t.slave.burst number := unfinished
              have bound := serving.burst_le fits number
              refine .burst number pending' (valid'.trans last) ?_ others ?_ ?_
              · rw [Slave.Open, sent_beat beat, burst_kept unfinished, List.length_append,
                  List.length_singleton]
                omega
              · rw [cnt', sent_beat beat, BitVec.toNat_add, cnt, List.length_append,
                  List.length_singleton]
                exact Nat.mod_eq_of_lt (show (t.slave.sent number).length + 1 < 8 by omega)
              · intro j sent get
                rw [sent_beat beat] at get
                exact data_beat beat short cnt data get

end Reading

section Packets

variable {t : Traffic p} {i : Cycle p}

/-- A packet that answers a request answers it ever after. -/
theorem Serving.matches_next (serving : Serving t) {c : Completion} {packet : Return p}
    (answers : t.Matches c packet) : (t.next i).Matches c packet := by
  obtain ⟨reads, stores⟩ := serving.queued.acked_next (i := i)
  obtain ⟨g, get, answer⟩ := answers
  refine ⟨g, ?_, answer⟩
  have inside := (List.getElem?_eq_some_iff.mp get).1
  cases write : c.write with
  | true =>
      rw [write, if_pos rfl] at get inside
      rw [if_pos rfl, stores, List.getElem?_append_left inside]
      exact get
  | false =>
      rw [write, if_neg Bool.false_ne_true] at get inside
      rw [if_neg Bool.false_ne_true, reads, List.getElem?_append_left inside]
      exact get

/-- A write of which the slave has address and data belongs to an acknowledged store. -/
theorem Queued.store_of_write (queued : Queued t) {k : Nat} (aw : k < t.slave.aws.length)
    (w : k < t.slave.ws.length) :
    ∃ g, t.stores[k]? = some g ∧ g.isStore = true ∧ t.slave.aws[k]? = some g.writeAddr := by
  have stored : k < t.stores.length ∧ t.slave.aws[k]? = t.stores[k]?.map Request.writeAddr := by
    rcases queued.writes with ⟨-, aws, ws⟩ | ⟨-, -, -, aws, ws⟩ | ⟨-, -, -, aws, ws⟩
    · rw [ws, List.length_map] at w
      rw [aws, List.getElem?_map]
      exact ⟨w, rfl⟩
    · rw [ws, List.length_map] at w
      rw [aws, List.getElem?_map, List.getElem?_append_left w]
      exact ⟨w, rfl⟩
    · rw [aws, List.length_map] at aw
      rw [aws, List.getElem?_map]
      exact ⟨aw, rfl⟩
  obtain ⟨g, get⟩ : ∃ g, t.stores[k]? = some g := ⟨_, List.getElem?_eq_getElem stored.1⟩
  refine ⟨g, get, ?_, ?_⟩
  · exact (List.mem_filter.mp (List.mem_of_getElem? get)).2
  · rw [stored.2, get]
    rfl

/-- The packet of a response on the write channel. -/
theorem Serving.answered_next (serving : Serving t) (fits : p.Fits)
    (valid : t.regs.axi.rdValid = false) :
    List.Forall₂ (t.next i).Matches
      (t.slave.answered i.move (axiReq t.regs (t.resp i)))
      (if (t.resp i).bValid then rtrnLogic (l15Rtrn t.regs (t.resp i)) else []) := by
  have bReady : (axiReq t.regs (t.resp i)).bReady = true := by
    show (!t.regs.axi.rdValid) = true
    rw [valid]
    rfl
  have bValid : (t.resp i).bValid = (t.slave.answer i.move).isSome := rfl
  rcases t.slave.answered_cases i.move (axiReq t.regs (t.resp i)) with
    nothing | ⟨k, offered, only, aw, w, -⟩
  · have quiet : t.slave.answer i.move = none := by
      rw [Slave.answered, bReady, if_pos rfl, List.map_eq_nil_iff,
        Option.toList_eq_nil_iff] at nothing
      exact nothing
    rw [nothing, bValid, quiet]
    exact .nil
  · obtain ⟨g, get, store, address⟩ := serving.queued.store_of_write aw w
    have id : (t.resp i).bId = axiId p g.tid false g.nc := by
      show ((t.slave.answer i.move).bind fun k => t.slave.aws[k]?.map AxiAddr.id).getD _ = _
      rw [offered, Option.bind_some, address]
      rfl
    obtain ⟨packet, only', answer⟩ := packet_write fits.ids store valid id
    rw [only, bValid, offered, Option.isSome_some, if_pos rfl, only']
    exact .cons (serving.matches_next ⟨g, get, answer⟩) .nil

/-- The packet of a read that is complete. -/
theorem Serving.finished_next (serving : Serving t) (fits : p.Fits) :
    List.Forall₂ (t.next i).Matches
      (t.slave.finished i.move (axiReq t.regs (t.resp i)))
      (if (t.next i).regs.axi.rdValid then rtrnLogic (l15Rtrn (t.next i).regs {}) else []) := by
  rw [rdValid_next, Slave.finished, taken_eq]
  cases beat : t.slave.beat i.move with
  | none =>
      rw [resp_silent beat]
      exact .nil
  | some b =>
      obtain ⟨k, word⟩ := b
      obtain ⟨rValid, rLast, -⟩ := resp_beat beat
      rw [rValid, rLast, Bool.true_and]
      cases last : t.slave.lastBeat k with
      | false =>
          simp only [Option.filter, last, Bool.false_eq_true, if_false, Option.toList_none,
            List.map_nil]
          exact .nil
      | true =>
          have unfinished := Slave.beat_open beat
          obtain ⟨ar, get⟩ : ∃ ar, t.slave.ars[k]? = some ar :=
            ⟨_, List.getElem?_eq_getElem unfinished.lt⟩
          have mapped := get
          rw [serving.ars, List.getElem?_map, Option.map_eq_some_iff] at mapped
          obtain ⟨g, known, same⟩ := mapped
          have read : g.isRead = true := (List.mem_filter.mp (List.mem_of_getElem? known)).2
          have id : (t.next i).regs.axi.rdId = axiId p g.tid g.icache?.isSome g.nc := by
            show ((t.slave.beat i.move).bind fun b => t.slave.ars[b.1]?.map AxiAddr.id).getD _ = _
            rw [beat, Option.bind_some, get, ← same]
            rfl
          have valid' : (t.next i).regs.axi.rdValid = true := by
            rw [rdValid_next, rValid, rLast, last]
            rfl
          have short : (t.slave.sent k).length < 8 :=
            Nat.lt_of_lt_of_le unfinished (serving.burst_le fits k)
          cases serving.reading with
          | rest _ _ _ closed => exact absurd unfinished (closed k)
          | held _ _ _ closed => exact absurd unfinished (closed k)
          | burst number _ _ _ only cnt data =>
              obtain rfl := only k unfinished
              have registered (j : Nat) (sent : BitVec 64)
                  (get : (t.slave.sent k ++ [word])[j]? = some sent) :
                  (t.next i).regs.axi.rdData (BitVec.ofNat 3 j) = sent :=
                data_beat beat short cnt data get
              obtain ⟨packet, one, answer⟩ :=
                packet_read (r := {}) fits.ids read valid' id registered
              simp only [Option.filter, last, if_true, Option.toList_some, List.map_singleton, one]
              exact .cons (serving.matches_next ⟨g, known, answer⟩) .nil

/-- What AXI returns is one packet. -/
theorem length_rtrnLogic (s : State p) (r : AxiResp p.axiIdWidth) :
    (rtrnLogic (l15Rtrn s r)).length = 1 := by
  simp only [rtrnLogic, l15Rtrn]
  cases s.axi.rdValid <;> cases (idTmp s r).getLsbD 1 <;> rfl

/-- The entry of the return FIFO after a cycle. -/
theorem Serving.rtrn_next (serving : Serving t) (fits : p.Fits) :
    (t.next i).regs.rtrn =
        (if l15RtrnVal t.regs (t.resp i) then [l15Rtrn t.regs (t.resp i)] else []) ∧
      (t.next i).returned = t.returned ++ t.regs.rtrn.flatMap rtrnLogic := by
  have depth := fits.rtrnFifo
  have rtrn : (t.next i).regs.rtrn = t.regs.rtrn.tail ++
      if l15RtrnVal t.regs (t.resp i) && !rtrnFifoFull t.regs then [l15Rtrn t.regs (t.resp i)]
      else [] := rfl
  have returned : (t.next i).returned =
      t.returned ++ t.regs.rtrn.head?.toList.flatMap rtrnLogic := rfl
  rw [rtrn, returned, rtrnFifoFull]
  rcases serving.room with fifo | ⟨s, r, fifo⟩
  · rw [fifo, List.length_nil, decide_eq_false (by omega), Bool.not_false, Bool.and_true]
    exact ⟨rfl, rfl⟩
  · rw [fifo, List.length_singleton, decide_eq_false (by omega), Bool.not_false, Bool.and_true]
    exact ⟨rfl, rfl⟩

theorem Serving.returned_next (serving : Serving t) (fits : p.Fits) :
    List.Forall₂ (t.next i).Matches (t.next i).slave.completed
      ((t.next i).returned ++ (t.next i).late) := by
  obtain ⟨rtrn, returned⟩ := serving.rtrn_next (i := i) fits
  have completed : (t.next i).slave.completed = t.slave.completed ++
      t.slave.answered i.move (axiReq t.regs (t.resp i)) ++
      t.slave.finished i.move (axiReq t.regs (t.resp i)) := rfl
  have before : List.Forall₂ (t.next i).Matches t.slave.completed (t.returned ++ t.late) :=
    serving.returned.imp fun _ _ answers => serving.matches_next answers
  have finished := serving.finished_next (i := i) fits
  rw [completed, returned, Traffic.late, rtrn]
  cases valid : t.regs.axi.rdValid with
  | true =>
      -- the registered read enters the FIFO, and the write channel is stalled
      have stalled : t.slave.answered i.move (axiReq t.regs (t.resp i)) = [] := by
        have bReady : (axiReq t.regs (t.resp i)).bReady = false := by
          show (!t.regs.axi.rdValid) = false
          rw [valid]
          rfl
        rw [Slave.answered, bReady, if_neg Bool.false_ne_true]
      have same : l15Rtrn t.regs (t.resp i) = l15Rtrn t.regs {} := by
        simp only [l15Rtrn, idTmp, valid, if_true]
      have val : l15RtrnVal t.regs (t.resp i) = true := by rw [l15RtrnVal, valid]; rfl
      rw [Traffic.late, valid, if_pos rfl] at before
      rw [stalled, val, if_pos rfl, same, List.append_nil, List.flatMap_singleton,
        ← List.append_assoc]
      rw [← List.append_assoc] at before
      exact List.rel_append before finished
  | false =>
      have val : l15RtrnVal t.regs (t.resp i) = (t.resp i).bValid := by
        rw [l15RtrnVal, valid, Bool.false_or]
      have answered := serving.answered_next (i := i) fits valid
      rw [Traffic.late, valid, if_neg Bool.false_ne_true, List.append_nil] at before
      have pushed : (if (t.resp i).bValid then [l15Rtrn t.regs (t.resp i)] else []).flatMap
          rtrnLogic = if (t.resp i).bValid then rtrnLogic (l15Rtrn t.regs (t.resp i)) else [] := by
        split
        · exact List.flatMap_singleton ..
        · rfl
      rw [val, pushed, ← List.append_assoc]
      exact List.rel_append (List.rel_append before answered) finished

theorem Serving.next (serving : Serving t) (fits : p.Fits) (supported : Supported t i) :
    Serving (t.next i) where
  queued := serving.queued.next supported
  slave := serving.slave.next
  ars := serving.ars_next fits
  reading := serving.reading_next fits supported
  room := by
    rw [(serving.rtrn_next fits).1]
    split
    · exact .inr ⟨_, _, rfl⟩
    · exact .inl rfl
  returned := serving.returned_next fits

end Packets

end Ariane.CachePorts
