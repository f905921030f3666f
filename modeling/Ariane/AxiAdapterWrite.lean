import Ariane.AxiAdapterLog

set_option autoImplicit false

/- Every order of handshakes writes the same burst. -/
namespace Ariane.AxiAdapter

variable {p : Params}

section Counter

theorem two_pow_le (p : Params) : 2 ^ p.wordBits ≤ 2 ^ addrIndex p :=
  Nat.pow_le_pow_right Nat.two_pos (wordBits_le p)

theorem burstSize_add (p : Params) : burstSize p + 1 = 2 ^ p.wordBits :=
  Nat.sub_add_cancel (Nat.two_pow_pos _)

/-- The counter with `left` words after the next one. -/
def cntOf (p : Params) (left : Nat) : BitVec (addrIndex p) := BitVec.ofNat _ left

theorem toNat_cntOf {left : Nat} (fits : left ≤ burstSize p) : (cntOf p left).toNat = left := by
  rw [cntOf, BitVec.toNat_ofNat]
  apply Nat.mod_eq_of_lt
  have wide := two_pow_le p
  have size := burstSize_add p
  omega

theorem cntOf_beq {left : Nat} (fits : left ≤ burstSize p) :
    (cntOf p left == 0) = decide (left = 0) := by
  rw [Bool.eq_iff_iff, beq_iff_eq, decide_eq_true_iff, ← BitVec.toNat_inj, toNat_cntOf fits]
  exact Iff.rfl

theorem cntOf_sub_one (left : Nat) : cntOf p (left + 1) - 1 = cntOf p left := by
  have added : cntOf p (left + 1) = cntOf p left + 1 := BitVec.ofNat_add left 1
  rw [added, BitVec.add_sub_cancel]

theorem burstCnt_eq : burstCnt p = cntOf p (burstSize p) := rfl

end Counter

variable {r : Request p} {q : Regs p} {i : Input p}

theorem count_single (single : r.single = true) : r.count = 1 := if_pos single

theorem count_line (line : r.single = false) : r.count = burstSize p + 1 := by
  rw [Request.count, line, burstSize_add]
  rfl

theorem count_pos (r : Request p) : 0 < r.count := by
  rw [Request.count]
  split
  · exact Nat.one_pos
  · exact Nat.two_pow_pos _

theorem count_le (r : Request p) : r.count ≤ burstSize p + 1 := by
  cases single : r.single with
  | true =>
      rw [count_single single]
      omega
  | false => exact Nat.le_of_eq (count_line single)

/-- The state while the address is sent or not, and `k` words are. -/
inductive Sending (r : Request p) (q : Regs p) : Bool → Nat → Prop
  | idle (state : q.state = .idle) : Sending r q false 0
  | address (state : q.state = .waitAwReady) (single : r.single = true) : Sending r q false r.count
  | addressBurst (state : q.state = .waitAwReadyBurst) (line : r.single = false) :
      Sending r q false r.count
  | both (k left : Nat) (state : q.state = .waitLastWReadyAwReady) (line : r.single = false)
      (due : k + left + 1 = r.count) (cnt : q.cnt = cntOf p left) : Sending r q false k
  | words (k left : Nat) (state : q.state = .waitLastWReady) (due : k + left + 1 = r.count)
      (cnt : q.cnt = cntOf p left) : Sending r q true k
  | done (state : q.state = .waitBValid) : Sending r q true r.count

theorem Sending.le {sent : Bool} {k : Nat} (sending : Sending r q sent k) : k ≤ r.count := by
  cases sending with
  | idle state => exact Nat.zero_le _
  | address state single | addressBurst state single => exact Nat.le_refl _
  | both _ left state line due cnt => omega
  | words _ left state due cnt => omega
  | done state => exact Nat.le_refl _

/-- The beat on the bus while `left` words follow it. -/
theorem burstBeat_eq {k left : Nat} (same : i.request = r) (due : k + left + 1 = r.count)
    (cnt : q.cnt = cntOf p left) : burstBeat q i = r.beat k := by
  have size := burstSize_add p
  have count := count_le r
  have last : (q.cnt == 0) = decide (k + 1 = r.count) := by
    rw [cnt, cntOf_beq (by omega), decide_eq_decide]
    omega
  rw [burstBeat, last, same]
  cases single : r.single with
  | true =>
      have only : k = 0 := by
        rw [count_single single] at due
        omega
      have first : (⟨k % 2 ^ p.wordBits, Nat.mod_lt _ (Nat.two_pow_pos _)⟩ : Lane p) =
          firstLane p := by
        rw [only]
        exact Fin.ext (Nat.zero_mod _)
      rw [Request.beat, first]
      rfl
  | false =>
      rw [count_line single] at due
      have index : wordIndex q.cnt = ⟨k % 2 ^ p.wordBits, Nat.mod_lt _ (Nat.two_pow_pos _)⟩ := by
        apply Fin.ext
        show burstSize p - q.cnt.toNat = k % 2 ^ p.wordBits
        rw [cnt, toNat_cntOf (by omega), Nat.mod_eq_of_lt (by omega)]
        omega
      rw [Request.beat, index]
      rfl

/-- The address and all words are sent. -/
def allSent (r : Request p) (sent : Bool) (k : Nat) : Bool := sent && decide (k = r.count)

/-- The words that are sent after a cycle. -/
def sentAfter (r : Request p) (i : Input p) (k : Nat) : Nat :=
  k + if k < r.count ∧ i.wReady = true then 1 else 0

/-- One cycle of a write: what is offered, and what is sent after it. -/
structure WriteCycle (r : Request p) (i : Input p) (sent : Bool) (k : Nat) (o : Output p) :
    Prop where
  awValid : o.awValid = !sent
  aw : sent = false → o.aw = r.aw
  wValid : o.wValid = decide (k < r.count)
  w : k < r.count → o.w = r.beat k
  bReady : o.bReady = allSent r sent k
  arValid : o.arValid = false
  rReady : o.rReady = false
  critical : o.criticalWordValid = false
  gnt : o.gnt = (!allSent r sent k && allSent r (sent || i.awReady) (sentAfter r i k))
  valid : o.valid = (allSent r sent k && i.bValid)
  after : o.valid = false → Sending r o.regs (sent || i.awReady) (sentAfter r i k)

/-- The adapter waits for the response exactly when everything is sent. -/
theorem Sending.waits_iff {sent : Bool} {k : Nat} (sending : Sending r q sent k) :
    q.state = .waitBValid ↔ allSent r sent k = true := by
  rw [allSent, Bool.and_eq_true, decide_eq_true_iff]
  cases sending with
  | idle state | address state single | addressBurst state line | both _ left state line due cnt =>
      simp [state]
  | words _ left state due cnt =>
      rw [state]
      constructor
      · intro other
        cases other
      · rintro ⟨-, all⟩
        omega
  | done state => exact ⟨fun _ => ⟨rfl, rfl⟩, fun _ => state⟩

/-- A single write in `IDLE`. -/
theorem cycle_idle_single (single : r.single = true)
    (same : i.request = r) : WriteCycle r i false 0 (idleWrite q i) := by
  have count := count_single single
  have beat : ({ data := r.wdata (firstLane p), strb := r.be (firstLane p), last := true } :
      AxiBeat) = r.beat 0 := by
    rw [Request.beat, count]
    rfl
  rw [idleWrite, same, single]
  cases aw : i.awReady <;> cases w : i.wReady
  all_goals
    constructor
    all_goals try simp [allSent, sentAfter, defaults, same, single, count, aw, w, Request.aw, beat]
  · exact .idle rfl
  · rw [← count]
    exact .address rfl single
  · exact .words 0 0 rfl (by omega) rfl
  · rw [← count]
    exact .done rfl

/-- A write of a line in `IDLE`. -/
theorem cycle_idle_line (line : r.single = false)
    (wide : 0 < p.wordBits) (same : i.request = r) :
    WriteCycle r i false 0 (idleWrite q i) := by
  have count := count_line line
  have two : 2 ^ 1 ≤ 2 ^ p.wordBits := Nat.pow_le_pow_right Nat.two_pos wide
  have size := burstSize_add p
  obtain ⟨left, more⟩ : ∃ left, burstSize p = left + 1 :=
    Nat.exists_eq_add_of_le' (by omega)
  have beat : ({ data := r.wdata (firstLane p), strb := r.be (firstLane p), last := false } :
      AxiBeat) = r.beat 0 := by
    have first : (⟨0 % 2 ^ p.wordBits, Nat.mod_lt _ (Nat.two_pow_pos _)⟩ : Lane p) =
        firstLane p := Fin.ext (Nat.zero_mod _)
    rw [Request.beat, first, count, decide_eq_false (by omega)]
  have decreased : burstCnt p - 1 = cntOf p left := by
    rw [burstCnt_eq, more, cntOf_sub_one]
  rw [idleWrite, same, line]
  cases aw : i.awReady <;> cases w : i.wReady
  all_goals
    constructor
    all_goals try simp [allSent, sentAfter, defaults, same, line, count, aw, w, Request.aw, beat, more]
  · exact .idle rfl
  · exact .both 1 left rfl line (by omega) decreased
  · exact .words 0 (left + 1) rfl (by omega) (more ▸ burstCnt_eq)
  · exact .words 1 left rfl (by omega) decreased

theorem cycle_address (state : q.state = .waitAwReady) (single : r.single = true)
    (same : i.request = r) : WriteCycle r i false r.count (axiFsm q i) := by
  rw [axiFsm, state]
  cases aw : i.awReady
  all_goals
    constructor
    all_goals try simp [allSent, sentAfter, defaults, same, single, aw, Request.aw]
  · exact .address state single
  · exact .done rfl

theorem cycle_addressBurst (state : q.state = .waitAwReadyBurst) (line : r.single = false)
    (same : i.request = r) : WriteCycle r i false r.count (axiFsm q i) := by
  rw [axiFsm, state]
  cases aw : i.awReady
  all_goals
    constructor
    all_goals try simp [allSent, sentAfter, defaults, same, line, aw, Request.aw]
  · exact .addressBurst state line
  · exact .done rfl

theorem waitBoth_eq (q : Regs p) (i : Input p) :
    waitBoth q i =
      { defaults q i with
        wValid := true
        w := burstBeat q i
        awValid := true
        aw := { (defaults q i).aw with len := BitVec.ofNat 8 (burstSize p) }
        gnt := i.awReady && i.wReady && q.cnt == 0
        regs :=
          { q with
            state :=
              if i.wReady && q.cnt == 0 then if i.awReady then .waitBValid else .waitAwReadyBurst
              else if i.awReady then .waitLastWReady else q.state
            cnt := if i.wReady && !(q.cnt == 0) then q.cnt - 1 else q.cnt } } := by
  rw [waitBoth]
  cases i.awReady <;> cases i.wReady <;> cases q.cnt == 0 <;> rfl

theorem waitWords_eq (q : Regs p) (i : Input p) :
    waitWords q i =
      { defaults q i with
        wValid := true
        w := burstBeat q i
        gnt := i.wReady && q.cnt == 0
        regs :=
          { q with
            state := if i.wReady && q.cnt == 0 then .waitBValid else q.state
            cnt := if i.wReady && !(q.cnt == 0) then q.cnt - 1 else q.cnt } } := by
  rw [waitWords]
  cases i.wReady <;> cases q.cnt == 0 <;> rfl

/-- The address and the last words are still to be sent. -/
theorem cycle_both {k left : Nat} (state : q.state = .waitLastWReadyAwReady)
    (line : r.single = false) (due : k + left + 1 = r.count) (cnt : q.cnt = cntOf p left)
    (same : i.request = r) : WriteCycle r i false k (axiFsm q i) := by
  have more : k < r.count := by omega
  have apart : k ≠ r.count := by omega
  have beat := burstBeat_eq same due cnt
  have fits : left ≤ burstSize p := by
    have count := count_le r
    omega
  have last : (q.cnt == 0) = decide (left = 0) := by rw [cnt, cntOf_beq fits]
  have fsm : axiFsm q i = waitBoth q i := by rw [axiFsm, state]
  rw [fsm, waitBoth_eq, beat, last]
  cases left with
  | zero =>
      have ends : k + 1 = r.count := due
      cases aw : i.awReady <;> cases w : i.wReady
      all_goals
        constructor
        all_goals try simp [allSent, sentAfter, defaults, same, line, more, apart, ends, aw, w, Request.aw]
      · exact .both k 0 state line due cnt
      · exact .addressBurst rfl line
      · exact .words k 0 rfl due cnt
      · exact .done rfl
  | succ left =>
      have goes : k + 1 ≠ r.count := by omega
      have decreased : q.cnt - 1 = cntOf p left := by rw [cnt, cntOf_sub_one]
      cases aw : i.awReady <;> cases w : i.wReady
      all_goals
        constructor
        all_goals try simp [allSent, sentAfter, defaults, same, line, more, apart, goes, aw, w, Request.aw]
      · exact .both k (left + 1) state line due cnt
      · exact .both (k + 1) left state line (by omega) decreased
      · exact .words k (left + 1) rfl due cnt
      · exact .words (k + 1) left rfl (by omega) decreased

/-- The last words are still to be sent. -/
theorem cycle_words {k left : Nat} (state : q.state = .waitLastWReady)
    (due : k + left + 1 = r.count) (cnt : q.cnt = cntOf p left) (same : i.request = r) :
    WriteCycle r i true k (axiFsm q i) := by
  have more : k < r.count := by omega
  have apart : k ≠ r.count := by omega
  have beat := burstBeat_eq same due cnt
  have fits : left ≤ burstSize p := by
    have count := count_le r
    omega
  have last : (q.cnt == 0) = decide (left = 0) := by rw [cnt, cntOf_beq fits]
  have fsm : axiFsm q i = waitWords q i := by rw [axiFsm, state]
  rw [fsm, waitWords_eq, beat, last]
  cases left with
  | zero =>
      have ends : k + 1 = r.count := due
      cases w : i.wReady
      all_goals
        constructor
        all_goals try simp [allSent, sentAfter, defaults, more, apart, ends, w]
      · exact .words k 0 state due cnt
      · exact .done rfl
  | succ left =>
      have goes : k + 1 ≠ r.count := by omega
      have decreased : q.cnt - 1 = cntOf p left := by rw [cnt, cntOf_sub_one]
      cases w : i.wReady
      all_goals
        constructor
        all_goals try simp [allSent, sentAfter, defaults, more, apart, goes, w]
      · exact .words k (left + 1) state due cnt
      · exact .words (k + 1) left state (by omega) decreased

/-- Everything was sent. -/
theorem cycle_done (state : q.state = .waitBValid) :
    WriteCycle r i true r.count (axiFsm q i) := by
  rw [axiFsm, state]
  cases b : i.bValid
  all_goals
    constructor
    all_goals try simp [allSent, sentAfter, defaults, b]
  exact .done state

/-- One cycle, whatever the order of the handshakes. -/
theorem Sending.cycle {sent : Bool} {k : Nat} (sending : Sending r q sent k)
    (asks : q.state ≠ .waitBValid → i.req = true ∧ i.request = r) (we : r.we = true)
    (wide : r.single = false → 0 < p.wordBits) : WriteCycle r i sent k (axiFsm q i) := by
  cases sending with
  | idle state =>
      obtain ⟨req, same⟩ := asks (by simp [state])
      have fsm : axiFsm q i = idleWrite q i := by
        rw [axiFsm, state, req, same, we]
        rfl
      rw [fsm]
      cases single : r.single with
      | true => exact cycle_idle_single single same
      | false => exact cycle_idle_line single (wide single) same
  | address state single => exact cycle_address state single (asks (by simp [state])).2
  | addressBurst state line => exact cycle_addressBurst state line (asks (by simp [state])).2
  | both _ left state line due cnt =>
      exact cycle_both state line due cnt (asks (by simp [state])).2
  | words _ left state due cnt => exact cycle_words state due cnt (asks (by simp [state])).2
  | done state => exact cycle_done state

end Ariane.AxiAdapter
