import Ariane.Frontend

set_option autoImplicit false

/- The credits of the fetch FIFO: one for each word that could still be fetched. -/
namespace Ariane.Frontend

open Rtl (Machine)
open Rtl.Ring (clog2)

variable {depth : Nat}

/-- The front end beside what became of its requests: those that the cache has accepted and
neither answered nor been told to drop, and the words that the FIFO should hold. -/
structure System (depth : Nat) where
  frontend : State depth := {}
  inFlight : Nat := 0
  held : List FrontendFetch := []

section Requests

variable [Immediates]

def nextRequests (s : System depth) (i : Input) : Nat :=
  (if killS2 s.frontend i then 0 else s.inFlight - i.icache.valid.toNat) +
    (issueReq s.frontend i).toNat

def nextHeld (s : System depth) (i : Input) : List FrontendFetch :=
  if i.flush then []
  else (if fifoPop s.frontend i then s.held.tail else s.held) ++
    if s.frontend.icacheValid then [fetchEntry s.frontend i] else []

def system (depth : Nat) : Machine (System depth) Input where
  reset := {}
  next s i :=
    { frontend := next s.frontend i, inFlight := nextRequests s i, held := nextHeld s i }

/-- The cache answers a request at most once, and not in a cycle that kills it. -/
def Answers (s : System depth) (i : Input) : Prop :=
  i.icache.valid = true → 0 < s.inFlight ∧ killS2 s.frontend i = false

instance decidableAnswers (s : System depth) (i : Input) : Decidable (Answers s i) :=
  inferInstanceAs (Decidable (_ → _))

/-- When requests are killed `s2_in_flight_q` tells how many there are. -/
def Counted (s : System depth) (i : Input) : Prop :=
  killS2 s.frontend i = true → i.flush = false → s.frontend.s2InFlight.toNat = s.inFlight

end Requests

/-- Every credit is free, stands for a request, for the word that came last or for a word in
the FIFO, which holds what it should and takes the word that came last. -/
structure Conserved (s : System depth) : Prop where
  holds : FifoV3.Holds fifoDepth s.frontend.fifo s.held
  credits : s.frontend.fifoCredits.toNat + s.held.length + s.frontend.icacheValid.toNat +
    s.inFlight = depth

section Consequences

variable {s : System depth} (conserved : Conserved s)
include conserved

theorem Conserved.credits_le : s.frontend.fifoCredits.toNat ≤ depth := by
  have credits := conserved.credits
  omega

/-- The word that came last finds room in the FIFO. -/
theorem Conserved.room (small : depth ≤ 8) (valid : s.frontend.icacheValid = true) :
    FifoV3.full fifoDepth s.frontend.fifo = false := by
  have credits := conserved.credits
  have full := conserved.holds.full_iff
  rw [valid, Bool.toNat_true] at credits
  rw [← Bool.not_eq_true, full, fifoDepth]
  omega

/-- Where nothing is fetched and nothing waits, a request is made. -/
theorem Conserved.requests (positive : 0 < depth) (empty : s.held = [])
    (silent : s.frontend.icacheValid = false) (none : s.inFlight = 0) :
    fifoReady s.frontend = true := by
  have credits := conserved.credits
  rw [empty, silent, none] at credits
  rw [fifoReady, bne_iff_ne]
  intro zero
  rw [zero] at credits
  simp at credits
  omega

end Consequences

theorem two_pow_credits (depth : Nat) : depth < 2 ^ (clog2 depth + 1) := by
  have wide := FifoV3.lt_counter depth
  rw [FifoV3.addrDepth] at wide
  by_cases large : 1 < depth
  · rwa [if_pos large] at wide
  · have positive := Nat.two_pow_pos (clog2 depth)
    rw [Nat.pow_succ]
    omega

theorem two_le_credits (depth : Nat) : 2 ≤ 2 ^ (clog2 depth + 1) := by
  have positive := Nat.two_pow_pos (clog2 depth)
  rw [Nat.pow_succ]
  omega

theorem toNat_bit {w : Nat} (b : Bool) (wide : 2 ≤ 2 ^ w) : (bit b : BitVec w).toNat = b.toNat := by
  cases b with
  | false => simp [bit]
  | true =>
      show (BitVec.ofNat w 1).toNat = 1
      rw [BitVec.toNat_ofNat]
      exact Nat.mod_eq_of_lt (by omega)

section Step

variable {s : System depth} {i : Input}

theorem pops_some (conserved : Conserved s) (pops : fifoPop s.frontend i = true) :
    s.held ≠ [] := by
  have empty := conserved.holds.empty_iff
  simp only [fifoPop, fetchEntryValid, Bool.and_eq_true, Bool.not_eq_true'] at pops
  intro none
  rw [empty.mpr none] at pops
  simp at pops

theorem issues_credit (issues : issueReq s.frontend i = true) :
    0 < s.frontend.fifoCredits.toNat := by
  simp only [issueReq, ifReady, fifoReady, Bool.and_eq_true, bne_iff_ne] at issues
  have some := issues.1.2
  by_contra zero
  apply some
  apply BitVec.eq_of_toNat_eq
  simp
  omega

variable [Immediates]

/-- Without a flush the credits count up by what is popped and killed and down by what is
requested, in their own width. -/
theorem toNat_nextCredits (running : i.flush = false) :
    (nextCredits s.frontend i).toNat =
      (s.frontend.fifoCredits.toNat + (fifoPop s.frontend i).toNat +
        (s2EffKill s.frontend i).toNat - (issueReq s.frontend i).toNat) %
        2 ^ (clog2 depth + 1) := by
  have two := two_le_credits depth
  have less : (issueReq s.frontend i).toNat ≤ s.frontend.fifoCredits.toNat := by
    cases issues : issueReq s.frontend i with
    | false => simp
    | true => exact issues_credit issues
  have one := Bool.toNat_le (issueReq s.frontend i)
  rw [nextCredits, running, if_neg Bool.false_ne_true, BitVec.toNat_sub, BitVec.toNat_add,
    BitVec.toNat_add, toNat_bit _ two, toNat_bit _ two, toNat_bit _ two, Nat.mod_add_mod,
    Nat.add_mod_mod]
  rw [← Nat.add_mod_right (_ - _)]
  congr 1
  omega

theorem length_nextHeld (conserved : Conserved s) (running : i.flush = false) :
    (nextHeld s i).length + (fifoPop s.frontend i).toNat =
      s.held.length + s.frontend.icacheValid.toNat := by
  rw [nextHeld, running, if_neg Bool.false_ne_true, List.length_append]
  have last : (if s.frontend.icacheValid then [fetchEntry s.frontend i] else []).length =
      s.frontend.icacheValid.toNat := by
    cases s.frontend.icacheValid <;> rfl
  rw [last]
  cases pops : fifoPop s.frontend i with
  | false => simp
  | true =>
      have some := List.length_pos_iff.mpr (pops_some conserved pops)
      simp
      omega

theorem holds_next (conserved : Conserved s) (small : depth ≤ 8) :
    FifoV3.Holds fifoDepth (next s.frontend i).fifo (nextHeld s i) := by
  cases flush : i.flush with
  | true =>
      simp only [next, nextHeld, FifoV3.next, flush, ↓reduceIte]
      exact FifoV3.holds_reset (by decide) _
  | false =>
      simp only [next, nextHeld, flush, Bool.false_eq_true, ↓reduceIte]
      apply conserved.holds.next _ rfl
      · intro valid
        have credits := conserved.credits
        rw [show s.frontend.icacheValid = true from valid, Bool.toNat_true] at credits
        rw [fifoDepth]
        omega
      · exact pops_some conserved

/-- A flush gives all credits back. -/
theorem credits_flush (answers : Answers s i) (flush : i.flush = true) :
    (nextCredits s.frontend i).toNat + (nextHeld s i).length + i.icache.valid.toNat +
      nextRequests s i = depth := by
  have killed : killS1 i = true := by simp [killS1, flush]
  have killed2 : killS2 s.frontend i = true := by simp [killS2, killed]
  have silent : i.icache.valid = false := by
    by_contra valid
    have open_ := (answers (by simpa using valid)).2
    rw [killed2] at open_
    contradiction
  have none : issueReq s.frontend i = false := by simp [issueReq, killed]
  simp only [nextCredits, nextHeld, nextRequests, flush, killed2, silent, none, ↓reduceIte,
    BitVec.toNat_ofNat, Nat.mod_eq_of_lt (two_pow_credits depth)]
  simp

/-- Without a flush one credit goes with each request, and comes back when its word leaves the
FIFO or when it is counted among the killed ones. -/
theorem credits_next (conserved : Conserved s) (answers : Answers s i) (running : i.flush = false) :
    (nextCredits s.frontend i).toNat + (nextHeld s i).length + i.icache.valid.toNat +
      nextRequests s i = depth ↔ Counted s i := by
  have credits := conserved.credits
  have length := length_nextHeld (i := i) conserved running
  have wide := two_pow_credits depth
  have two := two_le_credits depth
  have few := Bool.toNat_le s.frontend.s2InFlight
  have less : (issueReq s.frontend i).toNat ≤ s.frontend.fifoCredits.toNat := by
    cases issues : issueReq s.frontend i with
    | false => simp
    | true => exact issues_credit issues
  have popped : (fifoPop s.frontend i).toNat ≤ s.held.length := by
    cases pops : fifoPop s.frontend i with
    | false => simp
    | true => exact List.length_pos_iff.mpr (pops_some conserved pops)
  rw [toNat_nextCredits running, nextRequests, Counted, s2EffKill]
  cases killed : killS2 s.frontend i with
  | false =>
      have answered : i.icache.valid.toNat ≤ s.inFlight := by
        cases valid : i.icache.valid with
        | false => simp
        | true => exact (answers valid).1
      simp only [Bool.and_false, Bool.toNat_false, Bool.false_eq_true, ↓reduceIte,
        false_implies, iff_true]
      rw [Nat.mod_eq_of_lt (by omega)]
      omega
  | true =>
      have silent : i.icache.valid = false := by
        by_contra valid
        have open_ := (answers (by simpa using valid)).2
        rw [killed] at open_
        contradiction
      simp only [Bool.and_true, silent, Bool.toNat_false, running, ↓reduceIte, true_implies]
      by_cases fits : s.frontend.fifoCredits.toNat + (fifoPop s.frontend i).toNat +
          s.frontend.s2InFlight.toNat - (issueReq s.frontend i).toNat < 2 ^ (clog2 depth + 1)
      · rw [Nat.mod_eq_of_lt fits]
        omega
      · -- one credit too many, in a counter that is full
        have whole : s.frontend.fifoCredits.toNat + (fifoPop s.frontend i).toNat +
            s.frontend.s2InFlight.toNat - (issueReq s.frontend i).toNat =
              2 ^ (clog2 depth + 1) := by omega
        rw [whole, Nat.mod_self]
        omega

theorem conserved_next (conserved : Conserved s) (small : depth ≤ 8) (answers : Answers s i) :
    Conserved ((system depth).next s i) ↔ Counted s i := by
  have total : (nextCredits s.frontend i).toNat + (nextHeld s i).length + i.icache.valid.toNat +
      nextRequests s i = depth ↔ Counted s i := by
    cases flush : i.flush with
    | false => exact credits_next conserved answers flush
    | true =>
        have counted : Counted s i := fun _ running => absurd (flush.symm.trans running) (by simp)
        exact ⟨fun _ => counted, fun _ => credits_flush answers flush⟩
  constructor
  · intro after
    exact total.mp after.credits
  · intro counted
    exact ⟨holds_next conserved small, total.mpr counted⟩

end Step

theorem conserved_reset : Conserved ({} : System depth) where
  holds := FifoV3.holds_reset (by decide) _
  credits := by simp [Nat.mod_eq_of_lt (two_pow_credits depth)]

section Runs

variable [Immediates]

theorem conserved_run (small : depth ≤ 8) {inputs : List Input}
    (legal : (system depth).Legal (fun s i => Answers s i ∧ Counted s i) {} inputs) :
    Conserved ((system depth).run inputs) :=
  (system depth).run_invariant conserved_reset
    (fun _ _ conserved ok => (conserved_next conserved small ok.1).mpr ok.2) legal

/-- In every run whose kills are counted right the credits are conserved, and one more cycle
conserves them exactly when its kill is counted right too. -/
theorem conserved_iff (depth : Nat) (small : depth ≤ 8) (inputs : List Input)
    (legal : (system depth).Legal (fun s i => Answers s i ∧ Counted s i) {} inputs) (i : Input)
    (answers : Answers ((system depth).run inputs) i) :
    Conserved ((system depth).run (inputs ++ [i])) ↔ Counted ((system depth).run inputs) i := by
  rw [(system depth).run_append]
  exact conserved_next (conserved_run small legal) small answers

/-- The controller flushes the front end with every mispredict, and the cache accepts a request
only when it has answered the last one or dropped it. -/
structure Wired (s : System depth) (i : Input) : Prop where
  mispredict : isMispredict i = true → i.flush = true
  ready : i.icache.ready = true → s.inFlight = 0 ∨ i.icache.valid = true ∨
    killS2 s.frontend i = true

instance decidableWired (s : System depth) (i : Input) : Decidable (Wired s i) :=
  decidable_of_iff ((isMispredict i = true → i.flush = true) ∧
      (i.icache.ready = true → s.inFlight = 0 ∨ i.icache.valid = true ∨
        killS2 s.frontend i = true))
    ⟨fun both => ⟨both.1, both.2⟩, fun wired => ⟨wired.mispredict, wired.ready⟩⟩

/-- With this wiring at most one request is in flight. `s2_in_flight_q` may stay set after a
kill, but then there is no word in the re-aligner that could be predicted. -/
structure Tracked (s : System depth) : Prop where
  single : s.inFlight ≤ 1
  flagged : s.inFlight = 1 → s.frontend.s2InFlight = true
  stale : s.frontend.s2InFlight = true → s.inFlight = 0 → s.frontend.icacheValid = false

section Wiring

variable {s : System depth} {i : Input}

/-- Only a word that came from the cache is predicted. -/
theorem predicts_valid (predicts : (decision s.frontend i).bpValid = true) :
    s.frontend.icacheValid = true := by
  by_contra silent
  rw [Bool.not_eq_true] at silent
  simp [decision, reAlign, silent, frontendCtrl, Decision.bpValid] at predicts

theorem Tracked.counted (tracked : Tracked s) (wired : Wired s i) : Counted s i := by
  intro killed running
  have predicted : isMispredict i = false := by
    by_contra wrong
    rw [wired.mispredict (by simpa using wrong)] at running
    contradiction
  have valid : s.frontend.icacheValid = true := by
    apply predicts_valid (i := i)
    simpa [killS2, killS1, predicted, running] using killed
  have single := tracked.single
  cases flag : s.frontend.s2InFlight with
  | true =>
      by_contra other
      have none : s.inFlight = 0 := by
        rw [Bool.toNat_true] at other
        omega
      rw [tracked.stale flag none] at valid
      contradiction
  | false =>
      by_contra other
      rw [tracked.flagged (by rw [Bool.toNat_false] at other; omega)] at flag
      contradiction

theorem Tracked.step (tracked : Tracked s) (answers : Answers s i) (wired : Wired s i) :
    Tracked ((system depth).next s i) := by
  obtain ⟨single, flagged, stale⟩ := tracked
  have one := Bool.toNat_le (issueReq s.frontend i)
  have ready : issueReq s.frontend i = true → i.icache.ready = true := by
    simp only [issueReq, ifReady, Bool.and_eq_true]
    exact fun issues => issues.1.1
  have quiet : i.flush = true → issueReq s.frontend i = false ∧ killS2 s.frontend i = true := by
    intro flush
    simp [issueReq, killS2, killS1, flush]
  have accepts := wired.ready
  have answered := answers
  simp only [Answers] at answered
  show Tracked { frontend := next s.frontend i, inFlight := nextRequests s i, held := nextHeld s i }
  constructor
  · show nextRequests s i ≤ 1
    rw [nextRequests]
    cases issues : issueReq s.frontend i with
    | false => grind
    | true =>
        have free := accepts (ready issues)
        cases killed : killS2 s.frontend i <;> grind
  · show nextRequests s i = 1 → nextInFlight s.frontend i = true
    rw [nextRequests, nextInFlight]
    grind
  · show nextInFlight s.frontend i = true → nextRequests s i = 0 → i.icache.valid = false
    rw [nextRequests, nextInFlight]
    grind

end Wiring

/-- In every run of the front end as it is wired the credits are conserved: they never exceed
the depth, every word finds room in the FIFO, and with nothing under way there is a credit. -/
theorem credits_conserved (depth : Nat) (small : depth ≤ 8) (inputs : List Input)
    (legal : (system depth).Legal (fun s i => Answers s i ∧ Wired s i) {} inputs) :
    let s := (system depth).run inputs
    Conserved s ∧ s.frontend.fifoCredits.toNat ≤ depth ∧
      (s.frontend.icacheValid = true → FifoV3.full fifoDepth s.frontend.fifo = false) ∧
      (0 < depth → s.held = [] → s.frontend.icacheValid = false → s.inFlight = 0 →
        fifoReady s.frontend = true) := by
  have start : Tracked ({} : System depth) := ⟨by simp, by simp, by simp⟩
  have step (s : System depth) (i : Input) (held : Conserved s ∧ Tracked s)
      (ok : Answers s i ∧ Wired s i) :
      Conserved ((system depth).next s i) ∧ Tracked ((system depth).next s i) :=
    ⟨(conserved_next held.1 small ok.1).mpr (held.2.counted ok.2), held.2.step ok.1 ok.2⟩
  have both : Conserved ((system depth).run inputs) ∧ Tracked ((system depth).run inputs) :=
    @Machine.run_invariant _ _ _ _ (fun s => Conserved s ∧ Tracked s) ⟨conserved_reset, start⟩
      step _ legal
  exact ⟨both.1, both.1.credits_le, both.1.room small, both.1.requests⟩

end Runs

/-- A jump is fetched and predicted while the cache is busy with the next request. -/
def predictedJump : List Input :=
  [{ icache := { ready := true } },
    { icache := { ready := true, valid := true, data := 0x6f } },
    {},
    { icache := { ready := true }, fetchAck := true },
    { flush := true, resolvedBranch := { valid := true, isMispredict := true } }]

theorem credits_conserved_jump : Conserved ((system 8).run predictedJump) :=
  (credits_conserved 8 (by decide) predictedJump (by decide)).1

def mispredicts : Input := { resolvedBranch := { valid := true, isMispredict := true } }

/-- Two mispredicts without a flush give the credit of one request back twice. -/
theorem credit_returned_twice : ¬ ∀ (depth : Nat) (inputs : List Input), depth ≤ 8 →
    (system depth).Legal Answers {} inputs → Conserved ((system depth).run inputs) := by
  intro conserved
  have after := conserved 8 [{ icache := { ready := true } }, mispredicts, mispredicts] (by decide)
    (by decide)
  exact absurd after.credits_le (by decide)

end Ariane.Frontend
