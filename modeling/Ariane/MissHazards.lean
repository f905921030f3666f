import Ariane.MissUnit
import Ariane.WriteBufferEntries
import Mathlib.Tactic.MkIffOfInductiveProp

set_option autoImplicit false

/- Hazards between the reads and the writes that the miss unit sends to the memory. -/
namespace Ariane.MissUnit

open RrArbiter (lzc count anyBit)
open Rtl (Machine)

variable {c : Cache}

section Requests

variable {q : State c} {i : Input c}

/-- A read is presented once it was checked against the MSHR and the writes in flight. -/
theorem load_cases (req : (fsm q i).req = true) (load : (fsm q i).rtype = .load) :
    q.state = .loadWait ∨
      (q.state = .idle ∧ (q.mshrVld = false ∨ loadAck i = true) ∧ txCollision q i = false ∧
        rdrdCollision q i (missPortIdx q i) = false ∧ anyBit (missReqMasked q i) = true ∧
        (missRequest q i).we = false) := by
  rw [fsm] at req load
  cases state : q.state with
  | idle =>
      simp only [state, idleCtrl, defaults] at req load
      grind
  | drain =>
      simp only [state] at req load
      rw [req] at load
      simp at load
  | amo => simp [state] at load
  | flush =>
      simp only [state, defaults] at req
      grind
  | storeWait => simp [state] at load
  | loadWait => exact Or.inl rfl
  | amoWait =>
      simp only [state, defaults] at req
      grind

/-- A write is presented once it was checked against the MSHR. -/
theorem store_cases (req : (fsm q i).req = true) (store : (fsm q i).rtype = .store) :
    q.state = .storeWait ∨
      (lockReqs q = false ∧ rdwrCollision q i = false ∧ anyBit (missReqMasked q i) = true ∧
        ((missRequest q i).we = true ∨ maskReads q = true)) := by
  rw [fsm] at req store
  cases state : q.state with
  | idle =>
      simp only [state, idleCtrl, defaults] at req store
      refine Or.inr ⟨by simp [lockReqs, state], ?_⟩
      grind
  | drain =>
      simp only [state] at req
      rw [Bool.and_eq_true, Bool.not_eq_true'] at req
      exact Or.inr ⟨by simp [lockReqs, state], req.2, req.1, Or.inr (by simp [maskReads, state])⟩
  | amo => simp [state] at store
  | flush =>
      simp only [state, defaults] at req
      grind
  | storeWait => exact Or.inl rfl
  | loadWait => simp [state, defaults] at store
  | amoWait =>
      simp only [state, defaults] at req
      grind

/-- The MSHR takes the read that the memory accepts. -/
theorem allocate_iff : (fsm q i).mshrAllocate = true ↔
    (fsm q i).req = true ∧ (fsm q i).rtype = .load ∧ i.memDataAck = true := by
  rw [fsm]
  cases state : q.state with
  | idle =>
      simp only [idleCtrl, defaults]
      grind
  | drain =>
      simp only [defaults]
      grind
  | amo => simp [defaults]
  | flush =>
      simp only [defaults]
      grind
  | storeWait => simp [defaults]
  | loadWait => simp [defaults]
  | amoWait =>
      simp only [defaults]
      grind

/-- A request waits if it is presented and not accepted. -/
theorem wait_cases :
    ((fsm q i).next = .loadWait →
      (fsm q i).req = true ∧ (fsm q i).rtype = .load ∧ i.memDataAck = false) ∧
    ((fsm q i).next = .storeWait →
      (fsm q i).req = true ∧ (fsm q i).rtype = .store ∧ i.memDataAck = false) := by
  rw [fsm]
  cases state : q.state with
  | idle =>
      simp only [idleCtrl, defaults, state]
      grind
  | drain =>
      simp only
      grind
  | amo =>
      simp only
      grind
  | flush =>
      simp only [defaults, state]
      grind
  | storeWait =>
      simp only
      grind
  | loadWait =>
      simp only [defaults]
      grind
  | amoWait =>
      simp only [defaults, state]
      grind

/-- An atomic memory operation or a flush starts from `IDLE`, with nothing under way. -/
theorem start_cases (starts : (fsm q i).next = .amo ∨ (fsm q i).next = .flush)
    (changes : (fsm q i).next ≠ q.state) :
    q.state = .idle ∧ i.wbufferEmpty = true ∧ q.mshrVld = false := by
  rw [fsm] at starts changes
  cases state : q.state with
  | idle =>
      simp only [state, idleCtrl, defaults] at starts changes
      grind
  | drain =>
      simp only [state] at starts
      grind
  | amo =>
      simp only [state] at starts changes
      grind
  | flush =>
      simp only [state, defaults] at starts changes
      grind
  | storeWait =>
      simp only [state] at starts
      grind
  | loadWait =>
      simp only [state] at starts
      grind
  | amoWait =>
      simp only [state, defaults] at starts
      grind

/-- The cache is enabled at the end of a flush only. -/
theorem enable_cases (enabled : (fsm q i).enableD = true) :
    q.enable = true ∨ (q.state = .flush ∧ flushDone q = true) := by
  rw [fsm] at enabled
  cases state : q.state with
  | idle =>
      simp only [state, idleCtrl, defaults] at enabled
      grind
  | drain =>
      simp only [state, defaults] at enabled
      grind
  | amo =>
      simp only [state, defaults] at enabled
      grind
  | flush =>
      simp only [state, defaults] at enabled
      grind
  | storeWait =>
      simp only [state, defaults] at enabled
      grind
  | loadWait =>
      simp only [state, defaults] at enabled
      grind
  | amoWait =>
      simp only [state, defaults] at enabled
      grind

/-- A flush starts with nothing under way, or goes on. -/
theorem flush_cases (flushes : (fsm q i).next = .flush) :
    (fsm q i).mshrAllocate = false ∧
      ((q.state = .flush ∧ flushDone q = false) ∨ (q.state = .idle ∧ q.mshrVld = false)) := by
  by_cases changes : (fsm q i).next = q.state
  · have state : q.state = .flush := changes.symm.trans flushes
    rw [fsm] at flushes ⊢
    simp only [state, defaults] at flushes ⊢
    grind
  · obtain ⟨idle, empty, free⟩ := start_cases (Or.inr flushes) changes
    refine ⟨?_, Or.inr ⟨idle, free⟩⟩
    rw [fsm] at flushes ⊢
    simp only [idle, idleCtrl, defaults] at flushes ⊢
    grind

theorem flush_ends (flush : q.state = .flush) (ends : (fsm q i).next ≠ .flush) :
    flushDone q = true := by
  rw [fsm] at ends
  simp only [flush, defaults] at ends
  grind

/-- What is repeated is not sent. -/
theorem replay_cases (replays : (fsm q i).replay = true) :
    q.state = .idle ∧ (fsm q i).req = false := by
  rw [fsm] at replays ⊢
  cases state : q.state with
  | idle =>
      simp only [state, idleCtrl, defaults] at replays ⊢
      grind
  | drain => simp [state, defaults] at replays
  | amo => simp [state, defaults] at replays
  | flush =>
      simp only [state, defaults] at replays
      grind
  | storeWait => simp [state, defaults] at replays
  | loadWait => simp [state, defaults] at replays
  | amoWait =>
      simp only [state, defaults] at replays
      grind

theorem memData_line (reading : amoSel q = false) :
    lineOf c (memData q i).paddr = lineOf c (missRequest q i).paddr := by
  simp only [memData, reading, lineOf]
  exact c.align_line _ _

/-- No atomic memory operation is presented as a read or a write. -/
theorem amoSel_cached {rtype : Req} (cached : rtype ≠ .atomic) (req : (fsm q i).req = true)
    (same : (fsm q i).rtype = rtype) : amoSel q = false := by
  by_contra amo
  rw [fsm] at req same
  have state : q.state = .amo ∨ q.state = .amoWait := by
    cases state : q.state <;> simp_all [amoSel]
  rcases state with state | state
  · rw [state] at same
    exact cached same.symm
  · simp only [state, defaults] at req
    grind

end Requests

/-- The miss unit with the transactions that are under way: the writes by slot, the reads that
were sent and not answered, and the line of the request that was checked last. -/
structure System (c : Cache) where
  unit : State c := {}
  tx : Fin c.maxTx → Option (BitVec 64) := fun _ => none
  reads : List (Port c × BitVec 64) := []
  checked : BitVec 64 := 0

/-- The inputs of a cycle: those of the miss unit without the writes in flight, the slot that
takes a write, the slots whose write ends, and the read that is answered. -/
structure SystemInput (c : Cache) where
  unit : Input c := {}
  slot : Fin c.maxTx := 0
  ends : Fin c.maxTx → Bool := fun _ => false
  answered : Nat := 0

section System

variable (s : System c) (i : SystemInput c)

/-- The write buffer shows the writes in flight. -/
def wired : Input c :=
  { i.unit with txPaddr := fun k => (s.tx k).getD 0, txVld := fun k => (s.tx k).isSome }

/-- A request of this type is presented to the memory. -/
def presents (rtype : Req) : Bool :=
  (fsm s.unit (wired s i)).req && (fsm s.unit (wired s i)).rtype == rtype

/-- The memory accepts a request of this type. -/
def sends (rtype : Req) : Bool := presents s i rtype && i.unit.memDataAck

def address : BitVec 64 := (memData s.unit (wired s i)).paddr

def nextSystem : System c where
  unit := next s.unit (wired s i)
  tx k :=
    if sends s i .store && decide (k = i.slot) then some (address s i)
    else if i.ends k then none else s.tx k
  reads :=
    (if loadAck i.unit then s.reads.eraseIdx i.answered else s.reads) ++
      if sends s i .load then [(missPortIdx s.unit (wired s i), address s i)] else []
  checked :=
    if lockReqs s.unit then s.checked else lineOf c (missRequest s.unit (wired s i)).paddr

end System

def system (c : Cache) : Machine (System c) (SystemInput c) where
  reset := {}
  next := nextSystem

/-- The ports that read do not write, as the miss unit asserts, and the memory answers reads that
were sent. -/
@[mk_iff responds_iff]
structure Responds (s : System c) (i : SystemInput c) : Prop where
  reads : ∀ k, k ≠ writePort → (i.unit.miss k).we = false
  sent : loadAck i.unit = true → i.answered < s.reads.length

/-- A request that waits to be accepted keeps its line. -/
def Steady (s : System c) (i : SystemInput c) : Prop :=
  lockReqs s.unit = true → lineOf c (missRequest s.unit (wired s i)).paddr = s.checked

/-- What the miss unit keeps apart in a cycle. -/
structure Hazards (s : System c) (i : SystemInput c) : Prop where
  single : s.reads.length ≤ 1
  delivers : loadAck i.unit = true → ∃ r, s.reads[i.answered]? = some r ∧
    ∀ k, missRtrnVld s.unit (wired s i) k = true ↔ k = r.1
  load : presents s i .load = true → ∀ k paddr, s.tx k = some paddr →
    lineOf c paddr ≠ lineOf c (address s i)
  store : presents s i .store = true → ∀ r ∈ s.reads, lineOf c r.2 ≠ lineOf c (address s i)
  starts : ((nextSystem s i).unit.state = .amo ∨ (nextSystem s i).unit.state = .flush) →
    (nextSystem s i).unit.state ≠ s.unit.state → i.unit.wbufferEmpty = true ∧ s.reads = []

/-- The MSHR describes the read that is under way, and what was checked still holds while a
request waits. -/
structure Sound (s : System c) : Prop where
  busy : s.unit.mshrVld = true → ∃ paddr, s.reads = [(s.unit.mshr.missPortIdx, paddr)] ∧
    lineOf c paddr = lineOf c s.unit.mshr.paddr
  free : s.unit.mshrVld = false → s.reads = []
  loads : s.unit.state = .loadWait →
    s.unit.mshrVld = false ∧ ∀ k paddr, s.tx k = some paddr → lineOf c paddr ≠ s.checked
  stores : s.unit.state = .storeWait →
    s.unit.mshrVld = true → lineOf c s.unit.mshr.paddr ≠ s.checked

section Cycle

variable {s : System c} {i : SystemInput c}

theorem address_line (reading : amoSel s.unit = false) :
    lineOf c (address s i) = lineOf c (missRequest s.unit (wired s i)).paddr :=
  memData_line reading

theorem amoSel_presents {rtype : Req} (cached : rtype ≠ .atomic)
    (present : presents s i rtype = true) : amoSel s.unit = false := by
  rw [presents, Bool.and_eq_true, beq_iff_eq] at present
  exact amoSel_cached cached present.1 present.2

theorem presents_iff {rtype : Req} : presents s i rtype = true ↔
    (fsm s.unit (wired s i)).req = true ∧ (fsm s.unit (wired s i)).rtype = rtype := by
  rw [presents, Bool.and_eq_true, beq_iff_eq]

theorem allocates : (fsm s.unit (wired s i)).mshrAllocate = sends s i .load := by
  rw [Bool.eq_iff_iff, allocate_iff, sends, Bool.and_eq_true, presents_iff, and_assoc]
  rfl

/-- Only the last port writes. -/
theorem Responds.writer (responds : Responds s i) (free : lockReqs s.unit = false)
    (any : anyBit (missReqMasked s.unit (wired s i)) = true)
    (writes : (missRequest s.unit (wired s i)).we = true ∨ maskReads s.unit = true) :
    missPortIdx s.unit (wired s i) = writePort := by
  have we : (missRequest s.unit (wired s i)).we = true := by
    rcases writes with we | masked
    · exact we
    · have bit := RrArbiter.bit_count any
      simp only [missReqMasked, free, masked, Bool.false_eq_true, ↓reduceIte,
        Bool.and_eq_true] at bit
      simpa only [missRequest, missPortIdx, missReqMasked, free, masked, Bool.false_eq_true,
        ↓reduceIte] using bit.1
  by_contra other
  exact Bool.false_ne_true ((responds.reads _ other).symm.trans we)

/-- What is left of the reads after the answer of this cycle. -/
def leftReads (s : System c) (i : SystemInput c) : List (Port c × BitVec 64) :=
  if loadAck i.unit then s.reads.eraseIdx i.answered else s.reads

theorem nextReads : (nextSystem s i).reads = leftReads s i ++
    if sends s i .load then [(missPortIdx s.unit (wired s i), address s i)] else [] := rfl

variable (sound : Sound s) (responds : Responds s i)
include sound

theorem Sound.single : s.reads.length ≤ 1 := by
  cases vld : s.unit.mshrVld with
  | true =>
      obtain ⟨paddr, reads, -⟩ := sound.busy vld
      rw [reads]
      exact Nat.le_refl 1
  | false =>
      rw [sound.free vld]
      exact Nat.zero_le 1

/-- No write in flight touches the line of a read that is presented. -/
theorem Sound.load (steady : Steady s i) (load : presents s i .load = true) {k : Fin c.maxTx}
    {paddr : BitVec 64} (flight : s.tx k = some paddr) :
    lineOf c paddr ≠ lineOf c (missRequest s.unit (wired s i)).paddr := by
  rw [presents_iff] at load
  rcases load_cases load.1 load.2 with waits | ⟨-, -, apart, -, -, -⟩
  · rw [steady (by simp [lockReqs, waits])]
    exact (sound.loads waits).2 k paddr flight
  · have none := (RrArbiter.anyBit_eq_false _).mp apart k
    intro same
    simp [wired, flight, same] at none

include responds

/-- The read that is answered is the one of the MSHR. -/
theorem Sound.answered (ack : loadAck i.unit = true) :
    i.answered = 0 ∧ s.unit.mshrVld = true := by
  have sent := responds.sent ack
  have single := sound.single
  refine ⟨by omega, ?_⟩
  by_contra free
  rw [sound.free (Bool.eq_false_of_not_eq_true free)] at sent
  exact absurd sent (Nat.not_lt_zero _)

theorem Sound.left_of_ack (ack : loadAck i.unit = true) : leftReads s i = [] := by
  obtain ⟨first, vld⟩ := sound.answered responds ack
  obtain ⟨paddr, reads, -⟩ := sound.busy vld
  rw [leftReads, if_pos ack, first, reads]
  rfl

/-- A read is presented when no other is under way after this cycle. -/
theorem Sound.left_of_load (load : presents s i .load = true) : leftReads s i = [] := by
  by_cases ack : loadAck i.unit = true
  · exact sound.left_of_ack responds ack
  · rw [leftReads, if_neg ack]
    rw [presents_iff] at load
    rcases load_cases load.1 load.2 with waits | ⟨-, free | other, -, -, -, -⟩
    · exact sound.free (sound.loads waits).1
    · exact sound.free free
    · exact absurd other ack

variable (steady : Steady s i)
include steady

/-- No read under way touches the line of a write that is presented. -/
theorem Sound.store (store : presents s i .store = true) (vld : s.unit.mshrVld = true) :
    lineOf c s.unit.mshr.paddr ≠ lineOf c (missRequest s.unit (wired s i)).paddr := by
  rw [presents_iff] at store
  rcases store_cases store.1 store.2 with waits | ⟨free, apart, any, writes⟩
  · rw [steady (by simp [lockReqs, waits])]
    exact sound.stores waits vld
  · rw [missRequest, responds.writer free any writes]
    intro same
    simp [rdwrCollision, vld, same] at apart

theorem Sound.hazards : Hazards s i := by
  constructor
  · exact sound.single
  · intro ack
    obtain ⟨first, vld⟩ := sound.answered responds ack
    obtain ⟨paddr, reads, -⟩ := sound.busy vld
    refine ⟨(s.unit.mshr.missPortIdx, paddr), by rw [reads, first]; rfl, ?_⟩
    intro k
    have load : loadAck (wired s i) = true := ack
    have other : returns (wired s i) .storeAck = false := by
      have rtype : returns i.unit .loadAck = true := ack
      simp only [returns, Option.any_eq_true, beq_iff_eq] at rtype
      obtain ⟨r, some, rtype⟩ := rtype
      simp [returns, wired, some, rtype]
    simp [missRtrnVld, load, other]
  · intro load k paddr flight
    rw [address_line (amoSel_presents (by decide) load)]
    exact sound.load steady load flight
  · intro store r member
    rw [address_line (amoSel_presents (by decide) store)]
    cases vld : s.unit.mshrVld with
    | true =>
        obtain ⟨paddr, reads, line⟩ := sound.busy vld
        rw [reads, List.mem_singleton] at member
        rw [member, line]
        exact sound.store responds steady store vld
    | false =>
        rw [sound.free vld] at member
        exact absurd member List.not_mem_nil
  · intro starts changes
    obtain ⟨-, empty, free⟩ := start_cases starts changes
    exact ⟨empty, sound.free free⟩

theorem Sound.step : Sound (nextSystem s i) := by
  have mshr : (nextSystem s i).unit.mshr =
      if sends s i .load then allocated s.unit (wired s i) else s.unit.mshr := by
    rw [← allocates]
    rfl
  have vld : (nextSystem s i).unit.mshrVld =
      if sends s i .load then true else if loadAck i.unit then false else s.unit.mshrVld := by
    rw [← allocates]
    rfl
  have checked : (nextSystem s i).checked = if lockReqs s.unit then s.checked
      else lineOf c (missRequest s.unit (wired s i)).paddr := rfl
  have line : lineOf c (missRequest s.unit (wired s i)).paddr = (nextSystem s i).checked := by
    rw [checked]
    split
    · next locked => exact steady locked
    · rfl
  constructor
  · rw [nextReads, vld, mshr]
    by_cases sent : sends s i .load = true
    · intro _
      rw [if_pos sent, if_pos sent]
      rw [sends, Bool.and_eq_true] at sent
      rw [sound.left_of_load responds sent.1]
      exact ⟨address s i, rfl, address_line (amoSel_presents (by decide) sent.1)⟩
    · rw [if_neg sent, if_neg sent, if_neg sent, List.append_nil, leftReads]
      by_cases ack : loadAck i.unit = true
      · rw [if_pos ack]
        exact fun busy => absurd busy Bool.false_ne_true
      · rw [if_neg ack, if_neg ack]
        exact sound.busy
  · rw [nextReads, vld]
    by_cases sent : sends s i .load = true
    · rw [if_pos sent]
      exact fun free => absurd free.symm Bool.false_ne_true
    · rw [if_neg sent, if_neg sent, List.append_nil]
      by_cases ack : loadAck i.unit = true
      · exact fun _ => sound.left_of_ack responds ack
      · rw [if_neg ack, leftReads, if_neg ack]
        exact sound.free
  · intro waits
    obtain ⟨req, load, quiet⟩ := wait_cases.1 waits
    have present := presents_iff.mpr ⟨req, load⟩
    have unsent : sends s i .load = false := by
      rw [sends, show i.unit.memDataAck = false from quiet, Bool.and_false]
    have unwritten : sends s i .store = false := by
      rw [sends, show i.unit.memDataAck = false from quiet, Bool.and_false]
    constructor
    · rw [vld, unsent, if_neg Bool.false_ne_true]
      split
      · rfl
      · next ack =>
          rcases load_cases req load with waits | ⟨-, free | other, -, -, -, -⟩
          · exact (sound.loads waits).1
          · exact free
          · exact absurd other ack
    · intro k paddr flight
      have before : s.tx k = some paddr := by
        simp only [nextSystem, unwritten, Bool.false_and, Bool.false_eq_true, ↓reduceIte]
          at flight
        split at flight
        · contradiction
        · exact flight
      rw [← line]
      exact sound.load steady present before
  · intro waits busy
    obtain ⟨req, store, quiet⟩ := wait_cases.2 waits
    have unsent : sends s i .load = false := by
      rw [sends, show i.unit.memDataAck = false from quiet, Bool.and_false]
    rw [vld, unsent, if_neg Bool.false_ne_true] at busy
    rw [mshr, unsent, if_neg Bool.false_ne_true, ← line]
    apply sound.store responds steady (presents_iff.mpr ⟨req, store⟩)
    split at busy
    · contradiction
    · exact busy

end Cycle

theorem sound_reset : Sound (system c).reset := by
  constructor
  · exact fun busy => absurd busy Bool.false_ne_true
  · exact fun _ => rfl
  · intro waits
    contradiction
  · intro waits
    contradiction

/-- In every run in which a request that waits keeps its line, one read at most is under way and
answered to its port, reads and writes of a line are kept apart, and an atomic memory operation or
a flush starts with nothing under way. -/
theorem hazards_kept_apart (inputs : List (SystemInput c)) (i : SystemInput c)
    (legal : (system c).Legal (fun s i => Responds s i ∧ Steady s i) (system c).reset
      (inputs ++ [i])) : Hazards ((system c).run inputs) i := by
  rw [Machine.legal_append, Machine.legal_cons] at legal
  have sound : Sound ((system c).run inputs) :=
    Machine.run_invariant _ sound_reset
      (fun _ _ sound steady => sound.step steady.1 steady.2) legal.1
  exact sound.hazards legal.2.1.1 legal.2.1.2

instance decidableResponds (s : System c) (i : SystemInput c) : Decidable (Responds s i) :=
  decidable_of_iff _ (responds_iff s i).symm

instance decidableSteady (s : System c) (i : SystemInput c) : Decidable (Steady s i) :=
  inferInstanceAs (Decidable (_ → _))

/-- Sizes up to a doubleword, or the whole line of 16 bytes. -/
def alignTo (paddr : BitVec 64) (size : BitVec 3) : BitVec 64 :=
  if size.toNat ≤ 3 then paddr >>> size.toNat <<< size.toNat else paddr >>> 4 <<< 4

theorem alignTo_line (paddr : BitVec 64) (size : BitVec 3) :
    alignTo paddr size >>> WriteBuffer.small.offsetWidth =
      paddr >>> WriteBuffer.small.offsetWidth := by
  have shifts (n : Nat) (inside : n ≤ 4) : (paddr >>> n <<< n) >>> 4 = paddr >>> 4 := by
    apply BitVec.eq_of_getLsbD_eq
    intro j small
    have above : ¬ 4 + j < n := by omega
    have same : n + (4 + j - n) = 4 + j := by omega
    simp only [BitVec.getLsbD_ushiftRight, BitVec.getLsbD_shiftLeft, above, same]
    by_cases inside : 4 + j < 64
    · simp [inside]
    · simp [inside, BitVec.getLsbD_of_ge paddr (4 + j) (by omega)]
  rw [alignTo]
  split
  · next doubleword => exact shifts size.toNat (by omega)
  · exact shifts 4 (by omega)

/-- Two ports that read, above the small write buffer. -/
abbrev small : Cache where
  toGeometry := WriteBuffer.small
  readPorts := 2
  idWidth := 1
  align := alignTo
  wayed := Nat.two_pos
  readable := Nat.two_pos
  align_line := alignTo_line

/-- The cache is enabled and nothing happens. -/
def pause : SystemInput small := { unit := { enable := true } }

/-- The write buffer or the first read port has a request. -/
def asks (port : Port small) (paddr : BitVec 64) (ack : Bool) : SystemInput small :=
  { unit :=
      { enable := true
        memDataAck := ack
        miss := fun k =>
          { req := k == port, we := k == writePort, paddr := paddr, size := 7 } } }

/-- The memory answers the read. -/
def answer : SystemInput small :=
  { unit := { enable := true, memRtrn := some { rtype := .loadAck } } }

/-- The ports of the small cache. -/
def firstPort : Port small := ⟨0, by decide⟩

/-- A line is written while another is read, which the memory accepts one cycle later. -/
def readBesideWrite : List (SystemInput small) :=
  List.replicate 4 pause ++
    [asks writePort 0x20 true, asks firstPort 0x40 false, asks firstPort 0x40 true, pause]

theorem hazards_kept_apart_read :
    Hazards ((system small).run readBesideWrite) answer :=
  hazards_kept_apart readBesideWrite answer (by decide)

/-- The port turns to the line that is written while its request waits. -/
theorem line_changed_while_waiting :
    ¬ ∀ (inputs : List (SystemInput small)) (i : SystemInput small),
      (system small).Legal Responds (system small).reset (inputs ++ [i]) →
        Hazards ((system small).run inputs) i := by
  intro apart
  have hazards := apart
    (List.replicate 4 pause ++ [asks writePort 0x20 true, asks firstPort 0x40 false])
    (asks firstPort 0x20 true) (by decide)
  exact absurd (by decide) (hazards.load (by decide) ⟨0, by decide⟩ 0x20 (by decide))

end Ariane.MissUnit
