import Ariane.PlicNumbering

set_option autoImplicit false

/- Every access to the controller against the map of its registers: whether it is answered, and what
an error changes. -/
namespace Ariane.Plic

variable {p : Parameters}

/-- The bits of the address that the controller looks at. -/
def Bus.place (b : Bus) : Nat := b.addr.toNat % 2 ^ 26

/-- The address is that of the priority of a gateway. -/
def Bus.AtPriority (p : Parameters) (b : Bus) : Prop :=
  ∃ k, 0 < k ∧ k ≤ p.numSources ∧ b.place = 4 * k

/-- The address is that of a word of pending bits. -/
def Bus.AtPending (p : Parameters) (b : Bus) : Prop :=
  ∃ word, word < numGatewayBundles p ∧ b.place = 0x1000 + 4 * word

/-- The address is that of a word of enable bits. -/
def Bus.AtEnable (p : Parameters) (b : Bus) : Prop :=
  ∃ t word, t < p.numTargets ∧ word < numGatewayBundles p ∧
    b.place = 0x2000 + 0x80 * t + 4 * word

/-- The address is that of a threshold, or of claim and complete. -/
def Bus.AtTarget (p : Parameters) (b : Bus) : Prop :=
  ∃ t, t < p.numTargets ∧ (b.place = 0x200000 + 0x1000 * t ∨ b.place = 0x200004 + 0x1000 * t)

/-- No register belongs to the access, or it writes pending bits. -/
def Bus.Illegal (p : Parameters) (b : Bus) : Prop :=
  ¬ (b.AtPriority p ∨ b.AtPending p ∨ b.AtEnable p ∨ b.AtTarget p) ∨
    (b.write = true ∧ b.AtPending p)

/-- A write of pending bits, or of a priority without its lowest byte. -/
def Bus.Stalls (p : Parameters) (b : Bus) : Prop :=
  b.write = true ∧ (b.AtPending p ∨ (b.AtPriority p ∧ b.wstrb.getLsbD 0 = false))

/-- The access is answered, and changes nothing if the answer is an error. -/
structure Answered (s : State p) (i : Input) : Prop where
  ready : Plic.ready (p := p) i = true
  error : i.bus.Illegal p → Plic.error (p := p) i = true
  unchanged : Plic.error (p := p) i = true → next s i = next s i.withoutAccess

section Map

variable (b : Bus)

theorem place_wordOffset : b.wordOffset.toNat = b.place % 4 := by
  rw [Bus.wordOffset, BitVec.extractLsb'_toNat, Nat.shiftRight_zero, Bus.place]
  omega

theorem place_pageAddress : b.pageAddress.toNat = b.place / 4096 := by
  rw [Bus.pageAddress, BitVec.extractLsb'_toNat, Nat.shiftRight_eq_div_pow, Bus.place]
  omega

theorem place_pageWordOffset : b.pageWordOffset.toNat = b.place / 4 % 1024 := by
  rw [Bus.pageWordOffset, BitVec.extractLsb'_toNat, Nat.shiftRight_eq_div_pow, Bus.place]
  omega

theorem place_enaBundle : b.enaBundle.toNat = b.place / 4 % 32 := by
  rw [Bus.enaBundle, BitVec.extractLsb'_toNat, Nat.shiftRight_eq_div_pow, Bus.place]
  omega

theorem place_enaTarget (behind : 0x2000 ≤ b.place) (before : b.place < 0x200000) :
    b.enaTarget = (b.place - 0x2000) / 128 := by
  rw [Bus.enaTarget, BitVec.toNat_sub, BitVec.toNat_setWidth, BitVec.extractLsb'_toNat,
    Nat.shiftRight_eq_div_pow, BitVec.toNat_ofNat]
  unfold Bus.place at *
  omega

theorem place_target (behind : 0x200000 ≤ b.place) :
    b.target = (b.place - 0x200000) / 4096 := by
  have page := place_pageAddress b
  rw [Bus.target, BitVec.toNat_sub, BitVec.toNat_setWidth, page, BitVec.toNat_ofNat]
  have small : b.place < 2 ^ 26 := Nat.mod_lt _ (by decide)
  omega

theorem place_upper : b.pageAddress.extractLsb' 9 5 = 0 ↔ b.place < 0x200000 := by
  have small : b.place < 2 ^ 26 := Nat.mod_lt _ (by decide)
  rw [← BitVec.toNat_inj, BitVec.extractLsb'_toNat, place_pageAddress, Nat.shiftRight_eq_div_pow]
  show _ = 0 ↔ _
  omega

theorem numGatewayBundles_le (p : Parameters) : numGatewayBundles p ≤ 16 := by
  have few := p.numSources_lt
  unfold numGatewayBundles
  omega

/-- The address map, as the position of the access in it. -/
theorem funct_place (p : Parameters) :
    funct p b =
      if b.place % 4 = 0 then
        if b.place < 0x1000 then
          if b.place / 4 ≤ p.numSources ∧ 0 < b.place / 4 then .pri else .inv
        else if b.place < 0x2000 then
          if b.place / 4 % 1024 < numGatewayBundles p then .ipa else .inv
        else if b.place < 0x200000 then
          if b.place / 4 % 32 < numGatewayBundles p ∧ (b.place - 0x2000) / 128 < p.numTargets then
            .ieb
          else .inv
        else if (b.place - 0x200000) / 4096 < p.numTargets then
          if b.place / 4 % 1024 = 0 then .thr else if b.place / 4 % 1024 = 1 then .ccp else .inv
        else .inv
      else .inv := by
  have aligned : b.wordOffset = 0 ↔ b.place % 4 = 0 := by
    rw [← BitVec.toNat_inj, place_wordOffset]
    exact Iff.rfl
  have first : b.pageAddress = 0 ↔ b.place < 0x1000 := by
    rw [← BitVec.toNat_inj, place_pageAddress]
    show _ = 0 ↔ _
    omega
  have second : b.pageAddress = 1 ↔ 0x1000 ≤ b.place ∧ b.place < 0x2000 := by
    rw [← BitVec.toNat_inj, place_pageAddress]
    show _ = 1 ↔ _
    omega
  have threshold : b.pageWordOffset = 0 ↔ b.place / 4 % 1024 = 0 := by
    rw [← BitVec.toNat_inj, place_pageWordOffset]
    exact Iff.rfl
  have claim : b.pageWordOffset = 1 ↔ b.place / 4 % 1024 = 1 := by
    rw [← BitVec.toNat_inj, place_pageWordOffset]
    exact Iff.rfl
  have upper := place_upper b
  unfold funct
  by_cases low : b.place % 4 = 0
  · rw [if_pos (aligned.mpr low), if_pos low]
    by_cases priorities : b.place < 0x1000
    · have word : b.pageWordOffset.toNat = b.place / 4 := by
        rw [place_pageWordOffset]
        omega
      rw [if_pos (first.mpr priorities), if_pos priorities, word]
    · rw [if_neg fun zero => priorities (first.mp zero), if_neg priorities]
      by_cases pending : b.place < 0x2000
      · have page : b.pageAddress = 1 := second.mpr ⟨by omega, pending⟩
        rw [if_pos page, if_pos pending, place_pageWordOffset]
      · rw [if_neg fun one => pending (second.mp one).2, if_neg pending]
        by_cases enables : b.place < 0x200000
        · rw [if_pos (upper.mpr enables), if_pos enables, place_enaBundle,
            place_enaTarget b (by omega) enables]
        · rw [if_neg fun zero => enables (upper.mp zero), if_neg enables,
            place_target b (by omega)]
          simp only [threshold, claim]
  · rw [if_neg fun zero => low (aligned.mp zero), if_neg low]

end Map

section Registers

variable {b : Bus}

theorem atPriority_iff : b.AtPriority p ↔ funct p b = .pri := by
  have few := p.numSources_lt
  rw [funct_place]
  constructor
  · rintro ⟨k, some, inside, at_⟩
    rw [if_pos (by omega), if_pos (by omega), if_pos (by omega)]
  · intro selected
    refine ⟨b.place / 4, ?_⟩
    split_ifs at selected
    omega

theorem atPending_iff : b.AtPending p ↔ funct p b = .ipa := by
  have few := numGatewayBundles_le p
  rw [funct_place]
  constructor
  · rintro ⟨word, inside, at_⟩
    rw [if_pos (by omega), if_neg (by omega), if_pos (by omega), if_pos (by omega)]
  · intro selected
    refine ⟨b.place / 4 % 1024, ?_⟩
    split_ifs at selected
    omega

theorem atEnable_iff : b.AtEnable p ↔ funct p b = .ieb := by
  have few := numGatewayBundles_le p
  have many := p.numTargets_lt
  rw [funct_place]
  constructor
  · rintro ⟨t, word, target, inside, at_⟩
    rw [if_pos (by omega), if_neg (by omega), if_neg (by omega), if_pos (by omega),
      if_pos (by omega)]
  · intro selected
    refine ⟨(b.place - 0x2000) / 128, b.place / 4 % 32, ?_⟩
    split_ifs at selected
    omega

theorem atTarget_iff : b.AtTarget p ↔ funct p b = .thr ∨ funct p b = .ccp := by
  have many := p.numTargets_lt
  rw [funct_place]
  constructor
  · rintro ⟨t, target, threshold | claim⟩
    · left
      rw [if_pos (by omega), if_neg (by omega), if_neg (by omega), if_neg (by omega),
        if_pos (by omega), if_pos (by omega)]
    · right
      rw [if_pos (by omega), if_neg (by omega), if_neg (by omega), if_neg (by omega),
        if_pos (by omega), if_neg (by omega), if_pos (by omega)]
  · intro selected
    refine ⟨(b.place - 0x200000) / 4096, ?_⟩
    split_ifs at selected
    all_goals first
      | omega
      | simp at selected

theorem illegal_iff : b.Illegal p ↔ funct p b = .inv ∨ (b.write = true ∧ funct p b = .ipa) := by
  rw [Bus.Illegal, atPriority_iff, atPending_iff, atEnable_iff, atTarget_iff]
  cases funct p b <;> simp

theorem stalls_iff : b.Stalls p ↔ b.write = true ∧
    (funct p b = .ipa ∨ (funct p b = .pri ∧ b.wstrb.getLsbD 0 = false)) := by
  rw [Bus.Stalls, atPriority_iff, atPending_iff]

end Registers

section Accesses

variable {s : State p} {i : Input}

/-- An access without a register, and a write of pending bits, change as much as no access. -/
theorem unchanged_of_error (failed : error (p := p) i = true) :
    next s i = next s i.withoutAccess := by
  have idle : funct p i.withoutAccess.bus = .inv := funct_idle
  have selected : funct p i.bus = .inv ∨ funct p i.bus = .ipa := by
    unfold error at failed
    cases group : funct p i.bus with
    | inv => exact .inl rfl
    | ipa => exact .inr rfl
    | pri | ieb | thr | ccp =>
        rw [group] at failed
        exact absurd failed Bool.false_ne_true
  have quiet : ∀ j : Input, funct p j.bus = .inv ∨ funct p j.bus = .ipa →
      nextPriorities s j = s.priorities ∧ nextThresholds s j = s.thresholds ∧
        nextEnaBundles s j = s.enaBundles ∧ (nextClaimArray s j = fun _ _ => false) ∧
        (nextCompleteArray s j = fun _ _ => false) := by
    intro j group
    refine ⟨?_, ?_, ?_, ?_, ?_⟩
    · rcases group with group | group <;> simp [nextPriorities, group]
    · rcases group with group | group <;> simp [nextThresholds, group]
    · funext bundle t byte
      rcases group with group | group <;> simp [nextEnaBundles, group]
    · funext id t
      rcases group with group | group <;> simp [nextClaimArray, targetIrqClaims, group]
    · funext id t
      rcases group with group | group <;> simp [nextCompleteArray, targetIrqCompletes, group]
  obtain ⟨priorities, thresholds, bundles, claims, completions⟩ := quiet i selected
  obtain ⟨priorities', thresholds', bundles', claims', completions'⟩ :=
    quiet i.withoutAccess (.inl idle)
  have saves : nextSaveClaims s i = nextSaveClaims s i.withoutAccess := by
    funext id t
    rw [nextSaveClaims, nextSaveClaims, claims, claims', completions, completions']
  rw [next, next, priorities, priorities', thresholds, thresholds', bundles, bundles', claims,
    claims', completions, completions', saves]
  rfl

/-- Which accesses are answered. -/
theorem ready_iff (valid : i.bus.valid = true) (some : i.bus.write = false ∨ i.bus.wstrb ≠ 0) :
    ready (p := p) i = true ↔ ¬ i.bus.Stalls p := by
  rw [stalls_iff, ready]
  cases write : i.bus.write with
  | false =>
      have reads : i.bus.readActive = true := by rw [Bus.readActive, valid, write]; rfl
      rw [reads]
      cases funct p i.bus <;> simp
  | true =>
      have reads : i.bus.readActive = false := by rw [Bus.readActive, valid, write]; rfl
      have active : i.bus.writeActive = i.bus.wstrb := by
        rw [Bus.writeActive, valid, write]
        rfl
      have strobes : (i.bus.wstrb != 0) = true :=
        bne_iff_ne.mpr (some.resolve_left (by rw [write]; decide))
      rw [reads, active]
      cases funct p i.bus <;> simp only [strobes] <;> simp

theorem error_of_illegal (valid : i.bus.valid = true)
    (some : i.bus.write = false ∨ i.bus.wstrb ≠ 0) (illegal : i.bus.Illegal p) :
    error (p := p) i = true := by
  unfold error
  rcases illegal_iff.mp illegal with none | ⟨write, pending⟩
  · rw [none]
  · have reads : i.bus.readActive = false := by rw [Bus.readActive, valid, write]; rfl
    have active : i.bus.writeActive = i.bus.wstrb := by
      rw [Bus.writeActive, valid, write]
      rfl
    have strobes : (i.bus.wstrb != 0) = true :=
      bne_iff_ne.mpr (some.resolve_left (by rw [write]; decide))
    rw [pending, reads, active]
    exact strobes

end Accesses

/-- A read, or a write with a strobe, is answered exactly if it is not one of those that stall. -/
theorem answered_iff (s : State p) (i : Input) (valid : i.bus.valid = true)
    (some : i.bus.write = false ∨ i.bus.wstrb ≠ 0) : Answered s i ↔ ¬ i.bus.Stalls p := by
  rw [← ready_iff valid some]
  constructor
  · exact fun answered => answered.ready
  · intro ready
    exact ⟨ready, error_of_illegal valid some, unchanged_of_error⟩

/-- A write of the priority of the first gateway that leaves its lowest byte out. -/
def upperBytes : Input where
  bus := { valid := true, write := true, addr := priorityAddr 1, wstrb := 0b1110 }

theorem answered_iff_read :
    Answered (p := two) {} { bus := { valid := true, addr := 0x1000 } } ↔
      ¬ Bus.Stalls two { valid := true, addr := 0x1000 } :=
  answered_iff {} { bus := { valid := true, addr := 0x1000 } } rfl (.inl rfl)

/-- A write of pending bits is an error without an answer, and a write without the lowest byte of a
priority gets none at all. -/
theorem accesses_stall :
    ready (p := two) (writes (pendingAddr 0) 1) = false ∧
      error (p := two) (writes (pendingAddr 0) 1) = true ∧
      ready (p := two) upperBytes = false ∧
      ¬ ∀ i : Input, i.bus.valid = true → i.bus.write = false ∨ i.bus.wstrb ≠ 0 →
        Answered (p := two) {} i := by
  refine ⟨by decide, by decide, by decide, fun answered => ?_⟩
  have ready := (answered upperBytes rfl (.inr (by decide))).ready
  exact absurd ready (by decide)

end Ariane.Plic
