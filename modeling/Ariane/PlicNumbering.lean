import Ariane.PlicClaim

set_option autoImplicit false

/- Which interrupt line a number stands for in the four groups of registers. -/
namespace Ariane.Plic

variable {p : Parameters}

/-- The priority word with index `k`. -/
def priorityAddr (k : Nat) : BitVec 32 := BitVec.ofNat 32 (4 * k)

/-- A word of pending bits. -/
def pendingAddr (word : Nat) : BitVec 32 := BitVec.ofNat 32 (0x1000 + 4 * word)

/-- A word of enable bits of target `t`. -/
def enableAddr (t word : Nat) : BitVec 32 := BitVec.ofNat 32 (0x2000 + 0x80 * t + 4 * word)

namespace Bus

/-- A read of one address. -/
def Reads (b : Bus) (addr : BitVec 32) : Prop := b.valid = true ∧ b.write = false ∧ b.addr = addr

/-- A write of one address that covers byte `byte`. -/
def Writes (b : Bus) (addr : BitVec 32) (byte : Nat) : Prop :=
  b.valid = true ∧ b.write = true ∧ b.addr = addr ∧ b.wstrb.getLsbD byte = true

end Bus

/-- Priority word `k` is the priority of gateway `g`. -/
structure PriorityNames (p : Parameters) (k g : Nat) : Prop where
  read : ∀ (s : State p) (i : Input), i.bus.Reads (priorityAddr k) →
    rdata s i = (s.priorities g).setWidth 32
  write : ∀ (s : State p) (i : Input), i.bus.Writes (priorityAddr k) 0 →
    (next s i).priorities = Function.update s.priorities g (i.bus.wdata.setWidth _)

/-- Bit `k` of the pending bits tells whether gateway `g` is pending. -/
def PendingNames (p : Parameters) (k g : Nat) : Prop :=
  ∀ (s : State p) (i : Input), i.bus.Reads (pendingAddr (k / 32)) →
    (rdata s i).getLsbD (k % 32) = gatewayIrqPending s i g

/-- Bit `k` of the enable bits of each target enables gateway `g` for it. -/
structure EnableNames (p : Parameters) (k g : Nat) : Prop where
  read : ∀ (s : State p) (i : Input) (t : Nat), t < p.numTargets →
    i.bus.Reads (enableAddr t (k / 32)) → (rdata s i).getLsbD (k % 32) = irqEnabled s g t
  write : ∀ (s : State p) (i : Input) (t : Nat), t < p.numTargets →
    i.bus.Writes (enableAddr t (k / 32)) (k % 32 / 8) →
    irqEnabled (next s i) g t = i.bus.wdata.getLsbD (k % 32)

/-- Identifier `k`, in a claim and in a completion, is gateway `g`. -/
structure IdentifierNames (p : Parameters) (k g : Nat) : Prop where
  offered : ∀ (s : State p) (i : Input) (t : Nat), claimedId s i t = k →
    irqEnabled s g t = true ∧ gatewayIrqPending s i g = true
  claimed : ∀ (s : State p) (i : Input) (t : Nat), targetIrqClaims p i t = true →
    claimedId s i t = k → ∀ h, gatewayClaimed (next s i) h = true ↔ h = g
  completed : ∀ (s : State p) (i : Input) (t : Nat), targetIrqCompletes p i t = true →
    completeId p i t = k → savedClaim s k t = true →
    ∀ h, gatewayCompleted (next s i) h = true ↔ h = g

/-- The number `k` stands for the line of gateway `g` everywhere. -/
structure Names (p : Parameters) (k g : Nat) : Prop where
  priority : PriorityNames p k g
  pending : PendingNames p k g
  enable : EnableNames p k g
  identifier : IdentifierNames p k g

section Decode

variable {b : Bus} {n : Nat}

theorem toNat_extract (lo len : Nat) (small : n < 2 ^ 32) :
    ((BitVec.ofNat 32 n).extractLsb' lo len).toNat = n / 2 ^ lo % 2 ^ len := by
  rw [BitVec.extractLsb'_toNat, BitVec.toNat_ofNat, Nat.mod_eq_of_lt small,
    Nat.shiftRight_eq_div_pow]

theorem Bus.Reads.readActive {addr : BitVec 32} (reads : b.Reads addr) : b.readActive = true := by
  simp [Bus.readActive, reads.1, reads.2.1]

theorem Bus.Writes.readActive {addr : BitVec 32} {byte : Nat} (writes : b.Writes addr byte) :
    b.readActive = false := by
  simp [Bus.readActive, writes.2.1]

theorem Bus.Writes.writeActive {addr : BitVec 32} {byte : Nat} (writes : b.Writes addr byte) :
    b.writeActive.getLsbD byte = true := by
  simp [Bus.writeActive, writes.1, writes.2.1, writes.2.2.2]

/-- The address as it is decoded: a multiple of four below the end of the map. -/
theorem aligned (at_ : b.addr = BitVec.ofNat 32 n) (small : n < 2 ^ 32) (whole : n % 4 = 0) :
    b.wordOffset = 0 := by
  apply BitVec.eq_of_toNat_eq
  rw [Bus.wordOffset, at_, toNat_extract 0 2 small]
  simpa using whole

theorem toNat_pageAddress (at_ : b.addr = BitVec.ofNat 32 n) (small : n < 2 ^ 26) :
    b.pageAddress.toNat = n / 4096 := by
  rw [Bus.pageAddress, at_, toNat_extract 12 14 (by omega)]
  omega

theorem toNat_pageWordOffset (at_ : b.addr = BitVec.ofNat 32 n) (small : n < 2 ^ 32) :
    b.pageWordOffset.toNat = n / 4 % 1024 := by
  rw [Bus.pageWordOffset, at_, toNat_extract 2 10 small]
  omega

theorem toNat_enaBundle (at_ : b.addr = BitVec.ofNat 32 n) (small : n < 2 ^ 32) :
    b.enaBundle.toNat = n / 4 % 32 := by
  rw [Bus.enaBundle, at_, toNat_extract 2 5 small]
  omega

theorem enaTarget_eq (at_ : b.addr = BitVec.ofNat 32 n) (small : n < 2 ^ 21)
    (beyond : 64 ≤ n / 128) : b.enaTarget = n / 128 - 64 := by
  have field := toNat_extract (n := n) 7 14 (by omega)
  rw [Bus.enaTarget, at_, BitVec.toNat_sub, BitVec.toNat_setWidth, field]
  simp only [BitVec.toNat_ofNat]
  omega

theorem funct_priority {k : Nat} (some : 0 < k) (inside : k ≤ p.numSources)
    (at_ : b.addr = priorityAddr k) : funct p b = .pri ∧ b.pageWordOffset.toNat = k := by
  have bound := p.numSources_lt
  have offset := toNat_pageWordOffset at_ (by omega)
  have word : b.pageWordOffset.toNat = k := by omega
  have page : b.pageAddress = 0 := by
    apply BitVec.eq_of_toNat_eq
    rw [toNat_pageAddress at_ (by omega)]
    simp
    omega
  refine ⟨?_, word⟩
  rw [funct, if_pos (aligned at_ (by omega) (by omega)), if_pos page, word]
  exact if_pos ⟨inside, some⟩

theorem funct_pending {word : Nat} (small : word < 1024) (at_ : b.addr = pendingAddr word) :
    funct p b = (if word < numGatewayBundles p then .ipa else .inv) ∧
      b.pageWordOffset.toNat = word := by
  have offset := toNat_pageWordOffset at_ (by omega)
  have same : b.pageWordOffset.toNat = word := by omega
  have number := toNat_pageAddress at_ (by omega)
  have other : ¬ b.pageAddress = 0 := by
    intro zero
    rw [zero] at number
    simp at number
  have page : b.pageAddress = 1 := by
    apply BitVec.eq_of_toNat_eq
    rw [number]
    simp
    omega
  refine ⟨?_, same⟩
  rw [funct, if_pos (aligned at_ (by omega) (by omega)), if_neg other, if_pos page, same]

theorem funct_enable {t word : Nat} (target : t < p.numTargets)
    (small : word < numGatewayBundles p) (at_ : b.addr = enableAddr t word) :
    funct p b = .ieb ∧ b.enaBundle.toNat = word ∧ b.enaTarget = t := by
  have few := p.numSources_lt
  have bound := p.numTargets_lt
  have words : word < 16 := by
    rw [numGatewayBundles] at small
    omega
  have number := toNat_pageAddress at_ (by omega)
  have bundle : b.enaBundle.toNat = word := by
    rw [toNat_enaBundle at_ (by omega)]
    omega
  have own : b.enaTarget = t := by
    rw [enaTarget_eq at_ (by omega) (by omega)]
    omega
  have first : ¬ b.pageAddress = 0 := by
    intro zero
    rw [zero] at number
    simp at number
    omega
  have second : ¬ b.pageAddress = 1 := by
    intro one
    rw [one] at number
    simp at number
    omega
  have page : b.pageAddress.extractLsb' 9 5 = 0 := by
    apply BitVec.eq_of_toNat_eq
    rw [BitVec.extractLsb'_toNat, number, Nat.shiftRight_eq_div_pow]
    simp
    omega
  refine ⟨?_, bundle, own⟩
  rw [funct, if_pos (aligned at_ (by omega) (by omega)), if_neg first, if_neg second,
    if_pos page, bundle, own]
  exact if_pos ⟨small, target⟩

end Decode

section Groups

variable {k : Nat}

/-- A priority word belongs to the gateway below its index. -/
theorem priorityNames (some : 0 < k) (inside : k ≤ p.numSources) : PriorityNames p k (k - 1) where
  read s i reads := by
    obtain ⟨pri, word⟩ := funct_priority some inside reads.2.2
    rw [rdata, if_pos reads.readActive, pri]
    simp only [word]
  write s i writes := by
    obtain ⟨pri, word⟩ := funct_priority some inside writes.2.2.1
    show nextPriorities s i = _
    rw [nextPriorities, if_pos ⟨pri, writes.readActive, writes.writeActive⟩, word]

/-- A pending bit shows the gateway with its own number, and beyond the last one nothing. -/
theorem pending_bit (s : State p) (i : Input) (small : k < 512)
    (reads : i.bus.Reads (pendingAddr (k / 32))) :
    (rdata s i).getLsbD (k % 32) =
      (decide (k < p.numSources) && gatewayIrqPending s i k) := by
  obtain ⟨ipa, word⟩ := funct_pending (p := p) (by omega) reads.2.2
  have number : k / 32 * 32 + k % 32 = k := by omega
  rw [rdata, if_pos reads.readActive, ipa]
  by_cases bundle : k / 32 < numGatewayBundles p
  · have low : k % 32 < 32 := by omega
    rw [if_pos bundle]
    simp only [irqPendingBundle, Rtl.getLsbD_ofBits, word, number, low, decide_true,
      Bool.true_and]
  · have outside : ¬ k < p.numSources := by
      rw [numGatewayBundles] at bundle
      omega
    rw [if_neg bundle]
    simp [outside]

theorem pendingNames (inside : k < p.numSources) : PendingNames p k k := by
  intro s i reads
  have bound := p.numSources_lt
  rw [pending_bit s i (by omega) reads, decide_eq_true inside, Bool.true_and]

theorem enableNames (inside : k < p.numSources) : EnableNames p k k where
  read s i t target reads := by
    have small : k / 32 < numGatewayBundles p := by
      rw [numGatewayBundles]
      omega
    obtain ⟨ieb, bundle, own⟩ := funct_enable target small reads.2.2
    rw [rdata, if_pos reads.readActive, ieb]
    simp only [bundle, own, irqEnabled, BitVec.getLsbD_append]
    have low : k % 8 = k % 32 % 8 := by omega
    rw [low]
    generalize remains : k % 32 = r
    have less : r < 32 := by omega
    by_cases first : r < 8
    · have byte : r / 8 = 0 := by omega
      have bit : r % 8 = r := by omega
      simp [first, byte, bit]
    · by_cases second : r < 16
      · have byte : r / 8 = 1 := by omega
        have bit : r % 8 = r - 8 := by omega
        have inner : r - 8 < 8 := by omega
        simp [first, inner, byte, bit]
      · by_cases third : r < 24
        · have byte : r / 8 = 2 := by omega
          have bit : r % 8 = r - 8 - 8 := by omega
          have inner : r - 8 - 8 < 8 := by omega
          have not : ¬ r - 8 < 8 := by omega
          simp [first, not, inner, byte, bit]
        · have byte : r / 8 = 3 := by omega
          have bit : r % 8 = r - 8 - 8 - 8 := by omega
          have not : ¬ r - 8 < 8 := by omega
          have nor : ¬ r - 8 - 8 < 8 := by omega
          simp [first, not, nor, byte, bit]
  write s i t target writes := by
    have small : k / 32 < numGatewayBundles p := by
      rw [numGatewayBundles]
      omega
    obtain ⟨ieb, bundle, own⟩ := funct_enable target small writes.2.2.1
    have bit : k % 8 < 8 := by omega
    have number : 8 * (k % 32 / 8) + k % 8 = k % 32 := by omega
    show (nextEnaBundles s i (k / 32) t (k % 32 / 8)).getLsbD (k % 8) = _
    rw [nextEnaBundles,
      if_pos ⟨ieb, writes.readActive, bundle.symm, own.symm, writes.writeActive⟩,
      BitVec.getLsbD_extractLsb', decide_eq_true bit, Bool.true_and, number]

/-- An identifier is the gateway below it. -/
theorem identifierNames (some : 0 < k) : IdentifierNames p k (k - 1) where
  offered s i t named := by
    have offers : identifierOfLargest s i t ≠ 0 := by
      intro none
      simp [claimedId, none] at named
      omega
    obtain ⟨g, -, own, enabled, pending⟩ := offered s i t offers
    have same : k - 1 = g := by omega
    rw [same]
    exact ⟨enabled, pending⟩
  claimed s i t claims named h := by
    rw [gatewayClaimed_iff]
    constructor
    · rintro ⟨u, claims', own⟩
      have same : u = t := by rw [(claims_iff.mp claims').2.2, (claims_iff.mp claims).2.2]
      rw [same] at own
      omega
    · intro own
      exact ⟨t, claims, by omega⟩
  completed s i t completes named saved h := by
    rw [gatewayCompleted_iff]
    constructor
    · rintro ⟨u, completes', own, -⟩
      have same : u = t := by
        rw [(completes_iff.mp completes').2.2.2, (completes_iff.mp completes).2.2.2]
      rw [same] at own
      omega
    · intro own
      have number : h + 1 = k := by omega
      exact ⟨t, completes, by omega, number ▸ saved⟩

/-- A source that interrupts for the first time is pending at once. -/
theorem pending_reset (irqs : Nat → Bool) (b : Bus) (g : Nat) :
    gatewayIrqPending ({} : State p) { irqSources := irqs, bus := b } g = irqs g := by
  simp [gatewayIrqPending, Gateway.irqPendingO, Gateway.irqTrigger, gatewayClaimed]

/-- A priority word belongs to one gateway only. -/
theorem PriorityNames.unique {g h : Nat} (first : PriorityNames p k g)
    (second : PriorityNames p k h) : g = h := by
  let b : Bus := { valid := true, write := true, addr := priorityAddr k, wdata := 1 }
  have writes : b.Writes (priorityAddr k) 0 := ⟨rfl, rfl, rfl, by simp [b]⟩
  have same := (first.write {} { bus := b } writes).symm.trans (second.write {} { bus := b } writes)
  have point := congrFun same g
  by_contra differ
  have wide := p.parameterBitwidth_pos
  have zero : (1 : BitVec 32).setWidth p.parameterBitwidth = 0 := by
    simpa [Function.update, differ, b] using point
  have bit := congrArg (fun v => v.getLsbD 0) zero
  simp [wide] at bit

/-- No line has the number `k` in all groups: the priority word and the identifier are of
gateway `k - 1`, the pending bit and the enable bits of gateway `k`, if there is one. -/
theorem numbering (p : Parameters) (k : Nat) (some : 0 < k) (inside : k ≤ p.numSources) :
    (PriorityNames p k (k - 1) ∧ IdentifierNames p k (k - 1)) ∧
      (k < p.numSources → PendingNames p k k ∧ EnableNames p k k) ∧
      ¬ ∃ g, g < p.numSources ∧ Names p k g := by
  refine ⟨⟨priorityNames some inside, identifierNames some⟩,
    fun less => ⟨pendingNames less, enableNames less⟩, ?_⟩
  rintro ⟨g, -, names⟩
  have own : g = k - 1 := names.priority.unique (priorityNames some inside)
  have bound := p.numSources_lt
  -- only the line below `k` interrupts, and bit `k` is read
  let b : Bus := { valid := true, addr := pendingAddr (k / 32) }
  have reads : b.Reads (pendingAddr (k / 32)) := ⟨rfl, rfl, rfl⟩
  have shown := names.pending {} { irqSources := fun h => h == k - 1, bus := b } reads
  have other : (k == k - 1) = false := by
    simp
    omega
  rw [pending_bit _ _ (by omega) reads, pending_reset, pending_reset, own] at shown
  simp [other] at shown

theorem numbering_first : ¬ ∃ g, g < two.numSources ∧ Names two 1 g :=
  (numbering two 1 (by decide) (by decide)).2.2

/-- Priority word 1 is of source 0, enable bit 1 of source 1. -/
theorem numbers_disagree : ¬ ∀ (p : Parameters) (k : Nat), 0 < k → k ≤ p.numSources →
    ∃ g, g < p.numSources ∧ Names p k g := by
  intro agrees
  obtain ⟨g, -, names⟩ := agrees two 1 (by decide) (by decide)
  have priority : g = 0 := names.priority.unique (priorityNames (by decide) (by decide))
  let b : Bus := { valid := true, addr := pendingAddr 0 }
  have shown := names.pending {} { irqSources := fun h => h == 0, bus := b } ⟨rfl, rfl, rfl⟩
  rw [priority] at shown
  revert shown
  decide

end Groups

end Ariane.Plic
