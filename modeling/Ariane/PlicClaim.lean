import Ariane.Plic

set_option autoImplicit false

/- Claiming and completing interrupts: what software is told against what the gateways are. -/
namespace Ariane.Plic

open Rtl (Machine)

variable {p : Parameters}

/-- The controller beside what its software knows: `holders id t` when a claim read returned
`id` to target `t`, and `t` has not completed it since. -/
structure System (p : Parameters) where
  plic : State p := {}
  holders : Nat → Nat → Bool := fun _ _ => false

/-- The identifier that a claim read returns. -/
def returnedId (s : State p) (i : Input) : Nat := (rdata s i).toNat

def nextHolders (s : System p) (i : Input) (id t : Nat) : Bool :=
  if targetIrqClaims p i t && id == returnedId s.plic i then true
  else if targetIrqCompletes p i t && id == completeId p i t then false
  else s.holders id t

def system (p : Parameters) : Machine (System p) Input where
  reset := {}
  next s i := { plic := next s.plic i, holders := nextHolders s i }

/-- The same cycle without an access. -/
def Input.withoutAccess (i : Input) : Input := { i with bus := {} }

/-- What software may rely on in one cycle. -/
structure Protocol (s : System p) (i : Input) : Prop where
  /-- The gateways that are claimed are those whose identifier is returned. -/
  claimed : ∀ g, g < p.numSources → (gatewayClaimed (next s.plic i) g = true ↔
    ∃ t, targetIrqClaims p i t = true ∧ returnedId s.plic i = g + 1)
  /-- A claim ends the pending state of its gateway. -/
  cleared : ∀ g t, g < p.numSources → targetIrqClaims p i t = true →
    returnedId s.plic i = g + 1 → gatewayIrqPending s.plic i g = true ∧
      ∀ j, gatewayIrqPending (next s.plic i) j g = false ∧
        ((next (next s.plic i) j).gateways g).irqPending = false
  /-- No other gateway stops being pending. -/
  kept : ∀ g j, gatewayIrqPending s.plic i g = true → gatewayClaimed (next s.plic i) g = false →
    gatewayIrqPending (next s.plic i) j g = true
  /-- What is returned has been completed by the target that had it. -/
  exclusive : ∀ t, targetIrqClaims p i t = true → 0 < returnedId s.plic i →
    ∀ other, s.holders (returnedId s.plic i) other = false
  /-- The completion of the holder reaches its gateway. -/
  accepted : ∀ g t, g < p.numSources → targetIrqCompletes p i t = true →
    completeId p i t = g + 1 → s.holders (g + 1) t = true →
    gatewayCompleted (next s.plic i) g = true
  /-- Any other completion changes nothing. -/
  ignored : ∀ t, targetIrqCompletes p i t = true → s.holders (completeId p i t) t = false →
    next s.plic i = next s.plic i.withoutAccess
  /-- A gateway that waits for its completion has a holder, or the completion is on its way. -/
  returned : ∀ g, g < p.numSources → (s.plic.gateways g).waitCompletion = true →
    (s.plic.gateways g).irqPending = false →
    (∃ t, s.holders (g + 1) t = true) ∨ gatewayCompleted s.plic g = true

/-- A claim read meets the same best interrupt that the cycle before it had. -/
def Steady (s : System p) (i : Input) : Prop :=
  ∀ t, targetIrqClaims p i t = true → identifierOfLargest s.plic i t = s.plic.idOfLargest t

/-- Only the target of the access can claim. -/
instance decidableSteady (s : System p) (i : Input) : Decidable (Steady s i) :=
  decidable_of_iff (targetIrqClaims p i i.bus.target = true →
      identifierOfLargest s.plic i i.bus.target = s.plic.idOfLargest i.bus.target)
    ⟨fun steady t claims => by
      have same : t = i.bus.target := by
        simp only [targetIrqClaims, Bool.and_eq_true, beq_iff_eq] at claims
        exact claims.2
      rw [same] at claims ⊢
      exact steady claims, fun steady => steady _⟩

section Accesses

variable {i : Input} {t : Nat}

theorem claims_iff : targetIrqClaims p i t = true ↔
    funct p i.bus = .ccp ∧ i.bus.readActive = true ∧ t = i.bus.target := by
  simp [targetIrqClaims, and_assoc]

theorem completes_iff : targetIrqCompletes p i t = true ↔
    funct p i.bus = .ccp ∧ i.bus.readActive = false ∧ i.bus.writeActive ≠ 0 ∧
      t = i.bus.target := by
  simp [targetIrqCompletes, and_assoc]

theorem target_lt {b : Bus} (ccp : funct p b = .ccp) : b.target < p.numTargets := by
  rw [funct] at ccp
  split at ccp
  · split at ccp
    · split at ccp <;> simp at ccp
    · split at ccp
      · split at ccp <;> simp at ccp
      · split at ccp
        · split at ccp <;> simp at ccp
        · split at ccp
          · assumption
          · simp at ccp
  · simp at ccp

theorem claims_alone (claims : targetIrqClaims p i t = true) (u : Nat) :
    targetIrqCompletes p i u = false := by
  rw [claims_iff] at claims
  simp [targetIrqCompletes, claims.2.1]

theorem returnedId_eq (s : State p) (claims : targetIrqClaims p i t = true) :
    returnedId s i = (s.idOfLargest t).toNat := by
  obtain ⟨ccp, active, rfl⟩ := claims_iff.mp claims
  have narrow := p.idBitwidth_lt
  have bound := (s.idOfLargest i.bus.target).isLt
  have wide : 2 ^ p.idBitwidth ≤ 2 ^ 32 := Nat.pow_le_pow_right (by omega) (by omega)
  rw [returnedId, rdata, if_pos active, ccp]
  simp only [BitVec.toNat_setWidth]
  exact Nat.mod_eq_of_lt (by omega)

end Accesses

section Claimed

variable {s : State p} {i : Input} {g t : Nat}

theorem nextClaimArray_iff {id : Nat} : nextClaimArray s i id t = true ↔
    targetIrqClaims p i t = true ∧ id = claimedId s i t := by
  have named := claimedId_le s i t
  simp only [nextClaimArray, Bool.and_eq_true, beq_iff_eq, decide_eq_true_eq]
  constructor
  · rintro ⟨⟨claims, rfl⟩, -⟩
    exact ⟨claims, rfl⟩
  · rintro ⟨claims, rfl⟩
    exact ⟨⟨claims, rfl⟩, named⟩

theorem gatewayClaimed_iff : gatewayClaimed (next s i) g = true ↔
    ∃ t, targetIrqClaims p i t = true ∧ claimedId s i t = g + 1 := by
  simp only [gatewayClaimed, next, List.any_eq_true, List.mem_range, nextClaimArray_iff]
  constructor
  · rintro ⟨t, -, claims, named⟩
    exact ⟨t, claims, named.symm⟩
  · rintro ⟨t, claims, named⟩
    obtain ⟨ccp, -, rfl⟩ := claims_iff.mp claims
    exact ⟨_, target_lt ccp, claims, named.symm⟩

theorem gatewayCompleted_iff : gatewayCompleted (next s i) g = true ↔
    ∃ t, targetIrqCompletes p i t = true ∧ completeId p i t = g + 1 ∧
      savedClaim s (g + 1) t = true := by
  simp only [gatewayCompleted, next, List.any_eq_true, List.mem_range, nextCompleteArray,
    Bool.and_eq_true, Bool.not_eq_true', beq_iff_eq]
  constructor
  · rintro ⟨t, -, ⟨⟨-, completes⟩, named⟩, saved⟩
    exact ⟨t, completes, named.symm, saved⟩
  · rintro ⟨t, completes, named, saved⟩
    obtain ⟨ccp, write, -, rfl⟩ := completes_iff.mp completes
    refine ⟨_, target_lt ccp, ⟨⟨?_, completes⟩, named.symm⟩, saved⟩
    simp [targetIrqClaims, write]

/-- A pending gateway stays pending until it is claimed. -/
theorem pending_kept (j : Input) (pending : gatewayIrqPending s i g = true)
    (unclaimed : gatewayClaimed (next s i) g = false) :
    gatewayIrqPending (next s i) j g = true := by
  simp only [gatewayIrqPending, Gateway.irqPendingO, Bool.and_eq_true, Bool.or_eq_true,
    Bool.not_eq_true'] at pending ⊢
  refine ⟨Or.inl ?_, unclaimed⟩
  simp only [next, Gateway.next]
  grind

end Claimed

/-- What links gateway `g` with the claims and completions on their way to it. -/
structure Traced (s : System p) (g : Nat) : Prop where
  waits : (s.plic.gateways g).irqPending = true → (s.plic.gateways g).waitCompletion = true
  held : ∀ t, s.holders (g + 1) t = true → (s.plic.gateways g).waitCompletion = true ∧
    gatewayCompleted s.plic g = false ∧
    ((s.plic.gateways g).irqPending = true → gatewayClaimed s.plic g = true)
  claimed : gatewayClaimed s.plic g = true → ∃ t, s.holders (g + 1) t = true
  completed : gatewayCompleted s.plic g = true →
    (s.plic.gateways g).waitCompletion = true ∧ (s.plic.gateways g).irqPending = false
  owned : (s.plic.gateways g).waitCompletion = true → (s.plic.gateways g).irqPending = false →
    (∃ t, s.holders (g + 1) t = true) ∨ gatewayCompleted s.plic g = true
  single : ∀ t u, s.holders (g + 1) t = true → s.holders (g + 1) u = true → t = u

/-- The registers agree with what software knows. -/
structure Agreed (s : System p) : Prop where
  traced : ∀ g, g < p.numSources → Traced s g
  saved : ∀ id t, savedClaim s.plic id t = (decide (id ≤ p.numSources) && s.holders id t)
  named : ∀ t, (s.plic.idOfLargest t).toNat ≤ p.numSources

theorem agreed_reset : Agreed ({} : System p) where
  traced g inside := by
    constructor <;> simp [gatewayClaimed, gatewayCompleted]
  saved id t := by simp [savedClaim]
  named t := by simp

section Step

variable {s : System p} {i : Input} {g t : Nat}

/-- In a steady cycle the identifier returned is the one that is claimed. -/
theorem Steady.returned (steady : Steady s i) (claims : targetIrqClaims p i t = true) :
    returnedId s.plic i = claimedId s.plic i t := by
  rw [returnedId_eq s.plic claims, claimedId, steady t claims]

theorem Steady.claimed (steady : Steady s i) (g : Nat) :
    gatewayClaimed (next s.plic i) g = true ↔
      ∃ t, targetIrqClaims p i t = true ∧ returnedId s.plic i = g + 1 := by
  rw [gatewayClaimed_iff]
  constructor
  · rintro ⟨t, claims, named⟩
    exact ⟨t, claims, (steady.returned claims).trans named⟩
  · rintro ⟨t, claims, named⟩
    exact ⟨t, claims, (steady.returned claims).symm.trans named⟩

/-- What is claimed is pending. -/
theorem pending_of_claimed (claimed : claimedId s.plic i t = g + 1) :
    gatewayIrqPending s.plic i g = true := by
  have some : identifierOfLargest s.plic i t ≠ 0 := by
    intro none
    rw [claimedId, none] at claimed
    simp at claimed
  obtain ⟨h, inside, named, -, pending⟩ := offered s.plic i t some
  have same : h = g := by omega
  rw [← same]
  exact pending

/-- A pending gateway has no holder. -/
theorem Traced.unheld (traced : Traced s g) (pending : gatewayIrqPending s.plic i g = true)
    (t : Nat) : s.holders (g + 1) t = false := by
  by_contra held
  have holds := traced.held t (by simpa using held)
  simp only [gatewayIrqPending, Gateway.irqPendingO, Gateway.irqTrigger, Bool.and_eq_true,
    Bool.or_eq_true, Bool.not_eq_true'] at pending
  grind

/-- The holders of an identifier change by the claims and completions of that identifier. -/
theorem nextHolders_iff {id : Nat} : nextHolders s i id t = true ↔
    (targetIrqClaims p i t = true ∧ id = returnedId s.plic i) ∨
      (s.holders id t = true ∧ ¬ (targetIrqCompletes p i t = true ∧ id = completeId p i t)) := by
  simp only [nextHolders]
  have alone := @claims_alone p i t
  grind

theorem Agreed.completes (agreed : Agreed s) (inside : g < p.numSources) :
    gatewayCompleted (next s.plic i) g = true ↔
      ∃ t, targetIrqCompletes p i t = true ∧ completeId p i t = g + 1 ∧
        s.holders (g + 1) t = true := by
  rw [gatewayCompleted_iff]
  have small : g + 1 ≤ p.numSources := inside
  simp [agreed.saved, small]

/-- A claimed gateway keeps waiting. -/
theorem Traced.held_next (traced : Traced s g) (held : s.holders (g + 1) t = true) :
    ((next s.plic i).gateways g).waitCompletion = true ∧
      ((next s.plic i).gateways g).irqPending = false := by
  obtain ⟨waiting, uncompleted, claimed⟩ := traced.held t held
  have masked : Gateway.irqTrigger (s.plic.gateways g) (i.irqSources g) false = false := by
    simp [Gateway.irqTrigger, waiting]
  simp only [next, Gateway.next, uncompleted, masked]
  grind

/-- A pending gateway waits from the next cycle on. -/
theorem Traced.pending_next (traced : Traced s g)
    (pending : gatewayIrqPending s.plic i g = true) :
    ((next s.plic i).gateways g).waitCompletion = true := by
  have waits := traced.waits
  have completed := traced.completed
  simp only [gatewayIrqPending, Gateway.irqPendingO, Bool.and_eq_true, Bool.or_eq_true,
    Bool.not_eq_true'] at pending
  simp only [next, Gateway.next]
  grind

theorem Traced.waits_next (traced : Traced s g) :
    ((next s.plic i).gateways g).irqPending = true →
      ((next s.plic i).gateways g).waitCompletion = true := by
  have waits := traced.waits
  have completed := traced.completed
  simp only [next, Gateway.next]
  grind

/-- A gateway that waits and is not pending was claimed, now or before. -/
theorem Traced.owned_next (traced : Traced s g)
    (waiting : ((next s.plic i).gateways g).waitCompletion = true)
    (silent : ((next s.plic i).gateways g).irqPending = false) :
    ∃ t, s.holders (g + 1) t = true := by
  have claimed := traced.claimed
  have owned := traced.owned
  simp only [next, Gateway.next] at waiting silent
  grind

theorem Traced.step (traced : Traced s g) (agreed : Agreed s) (inside : g < p.numSources)
    (steady : Steady s i) : Traced ((system p).next s i) g where
  waits := traced.waits_next
  held t held := by
    have completes := agreed.completes (i := i) inside
    rcases nextHolders_iff.mp held with ⟨claims, named⟩ | ⟨old, unfinished⟩
    · have pending := pending_of_claimed ((steady.returned claims).symm.trans named.symm)
      refine ⟨traced.pending_next pending, ?_, fun _ => ?_⟩
      · by_contra completed
        obtain ⟨u, finishes, -⟩ := completes.mp (Bool.eq_true_of_not_eq_false completed)
        simp [claims_alone claims u] at finishes
      · exact (steady.claimed g).mpr ⟨t, claims, named.symm⟩
    · obtain ⟨waiting, silent⟩ := traced.held_next (i := i) old
      refine ⟨waiting, ?_, fun pending => ?_⟩
      · by_contra completed
        obtain ⟨u, finishes, named, holds⟩ := completes.mp (Bool.eq_true_of_not_eq_false completed)
        apply unfinished
        rw [traced.single t u old holds]
        exact ⟨finishes, named.symm⟩
      · exact absurd (pending.symm.trans silent) (by simp)
  claimed claimed := by
    obtain ⟨t, claims, named⟩ := (steady.claimed g).mp claimed
    exact ⟨t, nextHolders_iff.mpr (Or.inl ⟨claims, named.symm⟩)⟩
  completed completed := by
    obtain ⟨t, -, -, holds⟩ := (agreed.completes inside).mp completed
    exact traced.held_next holds
  owned waiting silent := by
    obtain ⟨t, holds⟩ := traced.owned_next waiting silent
    by_cases finishes : targetIrqCompletes p i t = true ∧ g + 1 = completeId p i t
    · exact Or.inr ((agreed.completes inside).mpr ⟨t, finishes.1, finishes.2.symm, holds⟩)
    · exact Or.inl ⟨t, nextHolders_iff.mpr (Or.inr ⟨holds, finishes⟩)⟩
  single t u first second := by
    rcases nextHolders_iff.mp first with ⟨claims, named⟩ | ⟨old, -⟩
    · have pending := pending_of_claimed ((steady.returned claims).symm.trans named.symm)
      rcases nextHolders_iff.mp second with ⟨claims', -⟩ | ⟨old', -⟩
      · rw [(claims_iff.mp claims).2.2, (claims_iff.mp claims').2.2]
      · rw [traced.unheld pending u] at old'
        contradiction
    · rcases nextHolders_iff.mp second with ⟨claims, named⟩ | ⟨old', -⟩
      · have pending := pending_of_claimed ((steady.returned claims).symm.trans named.symm)
        rw [traced.unheld pending t] at old
        contradiction
      · exact traced.single t u old old'

theorem Agreed.step (agreed : Agreed s) (steady : Steady s i) :
    Agreed ((system p).next s i) where
  traced g inside := (agreed.traced g inside).step agreed inside steady
  saved id t := by
    have saved := agreed.saved id t
    have known := @nextHolders_iff p s i t id
    have claims := @nextClaimArray_iff p s.plic i t id
    have named := claimedId_le s.plic i t
    have returned := @Steady.returned p s i t steady
    have alone := @claims_alone p i t
    simp only [savedClaim] at saved
    simp only [system, savedClaim, next, nextSaveClaims, nextCompleteArray]
    grind
  named t := claimedId_le s.plic i t

end Step

/-- Without an access nothing is claimed or completed and the registers of the map stay. -/
theorem funct_idle : funct p {} = .inv := by
  simp [funct, Bus.wordOffset, Bus.pageAddress, Bus.pageWordOffset]

/-- A completion that the tracker has not saved a claim for is without effect. -/
theorem next_unsaved {s : State p} {i : Input} {t : Nat}
    (completes : targetIrqCompletes p i t = true)
    (unsaved : savedClaim s (completeId p i t) t = false) : next s i = next s i.withoutAccess := by
  obtain ⟨ccp, write, -, rfl⟩ := completes_iff.mp completes
  have idle : funct p i.withoutAccess.bus = .inv := funct_idle
  have noClaims : ∀ j : Input, funct p j.bus = .inv ∨ j.bus.readActive = false →
      nextClaimArray s j = fun _ _ => false := by
    intro j quiet
    funext id u
    rcases quiet with quiet | quiet <;> simp [nextClaimArray, targetIrqClaims, quiet]
  have noCompletes : nextCompleteArray s i = fun _ _ => false := by
    funext id u
    by_contra finishes
    simp only [nextCompleteArray, Bool.not_eq_false, Bool.and_eq_true, beq_iff_eq] at finishes
    obtain ⟨⟨⟨-, completes'⟩, rfl⟩, saved⟩ := finishes
    rw [(completes_iff.mp completes').2.2.2, unsaved] at saved
    contradiction
  have noCompletes' : nextCompleteArray s i.withoutAccess = fun _ _ => false := by
    funext id u
    simp [nextCompleteArray, targetIrqCompletes, idle]
  have priorities : nextPriorities s i = nextPriorities s i.withoutAccess := by
    simp [nextPriorities, ccp, idle]
  have thresholds : nextThresholds s i = nextThresholds s i.withoutAccess := by
    simp [nextThresholds, ccp, idle]
  have bundles : nextEnaBundles s i = nextEnaBundles s i.withoutAccess := by
    funext bundle u byte
    simp [nextEnaBundles, ccp, idle]
  have claims : nextClaimArray s i = nextClaimArray s i.withoutAccess :=
    (noClaims i (Or.inr write)).trans (noClaims _ (Or.inl idle)).symm
  have completions : nextCompleteArray s i = nextCompleteArray s i.withoutAccess :=
    noCompletes.trans noCompletes'.symm
  have saves : nextSaveClaims s i = nextSaveClaims s i.withoutAccess := by
    funext id u
    rw [nextSaveClaims, nextSaveClaims, claims, completions]
  rw [next, priorities, thresholds, bundles, saves, claims, completions]
  rfl

/-- What software may rely on in a cycle, from any agreed state. -/
theorem Agreed.protocol {s : System p} {i : Input} (agreed : Agreed s) (steady : Steady s i) :
    Protocol s i where
  claimed g _ := steady.claimed g
  cleared g t inside claims named := by
    have pending := pending_of_claimed ((steady.returned claims).symm.trans named)
    have claimed := (steady.claimed g).mpr ⟨t, claims, named⟩
    have traced := (agreed.traced g inside).step agreed inside steady
    obtain ⟨u, holds⟩ := traced.claimed claimed
    refine ⟨pending, fun j => ⟨?_, (traced.held_next holds).2⟩⟩
    simp [gatewayIrqPending, Gateway.irqPendingO, claimed]
  kept g j := pending_kept j
  exclusive t claims some other := by
    have named := steady.returned claims
    have inside := claimedId_le s.plic i t
    obtain ⟨g, shape⟩ : ∃ g, returnedId s.plic i = g + 1 := ⟨_, (Nat.sub_add_cancel some).symm⟩
    have pending := pending_of_claimed (named.symm.trans shape)
    rw [shape]
    exact (agreed.traced g (by omega)).unheld pending other
  accepted g t inside completes named holds :=
    (agreed.completes inside).mpr ⟨t, completes, named, holds⟩
  ignored t completes unheld := by
    apply next_unsaved completes
    rw [agreed.saved, unheld, Bool.and_false]
  returned g inside := (agreed.traced g inside).owned

/-- A claim read that meets another best interrupt than the cycle before breaks the protocol. -/
theorem Agreed.steady {s : System p} {i : Input} (agreed : Agreed s) (holds : Protocol s i) :
    Steady s i := by
  intro t claims
  have returned := returnedId_eq s.plic claims
  have small := agreed.named t
  by_contra differ
  have apart : claimedId s.plic i t ≠ returnedId s.plic i := by
    intro same
    exact differ (BitVec.eq_of_toNat_eq (same.trans returned))
  by_cases none : identifierOfLargest s.plic i t = 0
  · -- nothing is claimed, and what is returned is not zero
    have zero : claimedId s.plic i t = 0 := by simp [claimedId, none]
    obtain ⟨g, shape⟩ : ∃ g, returnedId s.plic i = g + 1 :=
      ⟨returnedId s.plic i - 1, by omega⟩
    obtain ⟨u, claims', named⟩ :=
      gatewayClaimed_iff.mp ((holds.claimed g (by omega)).mpr ⟨t, claims, shape⟩)
    have same : u = t := by rw [(claims_iff.mp claims').2.2, (claims_iff.mp claims).2.2]
    rw [same, zero] at named
    omega
  · obtain ⟨g, inside, named, -⟩ := offered s.plic i t none
    obtain ⟨u, -, shape⟩ :=
      (holds.claimed g inside).mp (gatewayClaimed_iff.mpr ⟨t, claims, named⟩)
    omega

theorem agreed_run {inputs : List Input} (legal : (system p).Legal Steady {} inputs) :
    Agreed ((system p).run inputs) :=
  (system p).run_invariant agreed_reset (fun _ _ agreed steady => agreed.step steady) legal

/-- In every run whose claim reads meet the best interrupt of the cycle before, the protocol
holds in a cycle exactly when that is so in this cycle too. -/
theorem claim_complete (p : Parameters) (inputs : List Input)
    (legal : (system p).Legal Steady {} inputs) (i : Input) :
    Protocol ((system p).run inputs) i ↔ Steady ((system p).run inputs) i :=
  ⟨(agreed_run legal).steady, (agreed_run legal).protocol⟩

/-- Two sources and one target. -/
def two : Parameters where
  numSources := 2
  numTargets := 1
  idBitwidth := 2
  parameterBitwidth := 3
  idBitwidth_pos := by decide
  idBitwidth_lt := by decide
  parameterBitwidth_pos := by decide
  parameterBitwidth_lt := by decide
  numSources_pos := by decide
  numSources_lt := by decide
  numTargets_pos := by decide
  numTargets_lt := by decide
  numbers := by decide

def writes (addr wdata : BitVec 32) : Input where
  bus := { valid := true, write := true, addr := addr, wdata := wdata }

/-- Source 1 interrupts. -/
def interrupts : Input where
  irqSources g := g == 1

def claims : Input where
  bus := { valid := true, addr := 0x200004 }

/-- Priorities 2 and 1, both sources enabled, source 1 interrupts. -/
def pendingSecond : List Input := [writes 4 2, writes 8 1, writes 0x2000 3, interrupts]

theorem claim_complete_again :
    Protocol ((system two).run (pendingSecond ++ [claims, {}, writes 0x200004 2, interrupts])) claims :=
  (claim_complete two (pendingSecond ++ [claims, {}, writes 0x200004 2, interrupts]) (by decide)
    claims).mpr (by decide)

/-- Source 0 interrupts in the cycle of the claim read. Software is told of source 1 and the
gateway of source 0 is claimed. -/
theorem other_gateway_claimed :
    ¬ ∀ (p : Parameters) (inputs : List Input) (i : Input), Protocol ((system p).run inputs) i := by
  intro holds
  have agreed : Agreed ((system two).run pendingSecond) := agreed_run (by decide)
  exact absurd (agreed.steady (holds two pendingSecond { claims with irqSources := fun _ => true }))
    (by decide)

end Ariane.Plic
