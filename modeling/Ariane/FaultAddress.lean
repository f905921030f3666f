import Ariane.LsuBypass
import Ariane.MmuPermissions

set_option autoImplicit false

/- The address that an exception of the translation reports. -/
namespace Ariane.Mmu

open Riscv

/-! Exception causes of misaligned and of impossible data addresses. -/

def ldAddrMisaligned : BitVec 64 := 4
def ldAccessFault : BitVec 64 := 5
def stAddrMisaligned : BitVec 64 := 6
def stAccessFault : BitVec 64 := 7

/-- `data_misaligned`. -/
def dataMisaligned (c : LsuCtrl) : Bool :=
  c.valid &&
    if c.operator ∈ [.ld, .sd, .fld, .fsd, .amoLrd, .amoScd, .amoSwapd, .amoAddd, .amoAndd,
        .amoOrd, .amoXord, .amoMaxd, .amoMaxdu, .amoMind, .amoMindu] then
      c.vaddr.extractLsb' 0 3 != 0
    else if c.operator ∈ [.lw, .lwu, .sw, .flw, .fsw, .amoLrw, .amoScw, .amoSwapw, .amoAddw,
        .amoAndw, .amoOrw, .amoXorw, .amoMaxw, .amoMaxwu, .amoMinw, .amoMinwu] then
      c.vaddr.extractLsb' 0 2 != 0
    else if c.operator ∈ [.lh, .lhu, .sh, .flh, .fsh] then c.vaddr.getLsbD 0
    else false

/-- `data_misaligned_detection` of the load/store unit. -/
def misalignedException (enLdStTranslation : Bool) (c : LsuCtrl) : Exception :=
  let e : Exception := if dataMisaligned c then
      if c.fu == .load then ⟨ldAddrMisaligned, c.vaddr, true⟩
      else if c.fu == .store then ⟨stAddrMisaligned, c.vaddr, true⟩
      else {}
    else {}
  if enLdStTranslation && notCanonical c.vaddr then
    if c.fu == .load then ⟨ldAccessFault, c.vaddr, true⟩
    else if c.fu == .store then ⟨stAccessFault, c.vaddr, true⟩
    else e
  else e

/-- The load/store unit asks for the translation of access `c`. -/
structure Presents {w : Nat} (i : Input w) (c : LsuCtrl) : Prop where
  kind : c.fu = .load ∨ c.fu = .store
  req : i.lsuReq = true
  vaddr : i.lsuVaddr = c.vaddr
  isStore : i.lsuIsStore = (c.fu == .store)
  misaligned : i.misalignedEx = misalignedException i.enLdStTranslation c

section Block

variable {n m w : Nat} (q : State n m w) (i : Input w)

/-- Access `c` was presented in the cycle before, with translation on. -/
structure Registered (c : LsuCtrl) : Prop where
  kind : c.fu = .load ∨ c.fu = .store
  req : q.lsuReq = true
  vaddr : q.lsuVaddr = c.vaddr
  isStore : q.lsuIsStore = (c.fu == .store)
  misaligned : q.misalignedEx = misalignedException true c

/-- A page fault is reported for the fetch at `va`: on a hit, or at the end of its walk. -/
structure FetchFault (va : BitVec 64) : Prop where
  fetch : i.fetchVaddr = va
  valid : (instrInterface q i).valid = true
  fault : (instrInterface q i).pageFault = true
  walked : (itlbLookup q i).hit = true ∨ q.ptw.vaddr = va

/-- A page fault of the translation is reported for the data access at `va`. -/
structure DataFault (va : BitVec 64) (isStore : Bool) : Prop where
  access : q.lsuVaddr = va
  kind : q.lsuIsStore = isStore
  aligned : q.misalignedEx.valid = false
  valid : (dataInterface q i).valid = true
  fault : (dataInterface q i).pageFault = true
  walked : (q.dtlbHit && q.lsuReq) = true ∨ q.ptw.vaddr = va

/-- Page faults report the whole address and the kind of the access; an address that is not
canonical is answered by an access fault. -/
structure FaultsRight : Prop where
  fetch : ∀ va, FetchFault q i va → notCanonical va = false →
    (instrInterface q i).exception = ⟨instrPageFault, va, true⟩
  data : ∀ va isStore, DataFault q i va isStore → notCanonical va = false →
    (dataInterface q i).exception = lsuFault isStore va
  fetchAccess : i.enableTranslation = true → i.fetchReq = true →
    notCanonical i.fetchVaddr = true → (instrInterface q i).valid = true →
    (instrInterface q i).exception = ⟨instrAccessFault, i.fetchVaddr, true⟩
  dataAccess : ∀ c, Registered q c → notCanonical c.vaddr = true →
    (dataInterface q i).valid = true ∧ (dataInterface q i).exception =
      ⟨if c.fu == .store then stAccessFault else ldAccessFault, c.vaddr, true⟩

/-- A walk for the instruction TLB ends with an error, and the fetch still misses. -/
def fetchWalkFails : Bool :=
  i.enableTranslation && !(itlbLookup q i).hit && q.ptw.isInstrPtw &&
    q.ptw.state == .propagateError

/-- A walk for the data TLB ends with an error, and the access has missed. -/
def dataWalkFails : Bool :=
  i.enLdStTranslation && !q.misalignedEx.valid && !(q.dtlbHit && q.lsuReq) &&
    !q.ptw.isInstrPtw && q.ptw.state == .propagateError

/-- No walk fails for an address whose sign bit is set, and no fetch from an impossible address
gets as far as the check of a hit or the end of a walk. -/
structure Plain : Prop where
  fetch : fetchWalkFails q i = true → q.ptw.vaddr = i.fetchVaddr →
    notCanonical i.fetchVaddr = false → i.fetchVaddr.getLsbD 38 = false
  data : dataWalkFails q i = true → q.ptw.vaddr = q.lsuVaddr →
    notCanonical q.lsuVaddr = false → q.lsuVaddr.getLsbD 38 = false
  fetchAccess : i.enableTranslation = true → i.fetchReq = true →
    notCanonical i.fetchVaddr = true →
    fetchWalkFails q i = false ∧ ((itlbLookup q i).hit && iaccessErr i (itlbLookup q i).content) = false

end Block

/-- A canonical address is its low 39 bits exactly if the sign bit is clear. -/
theorem low_part_iff {va : BitVec 64} (canonical : notCanonical va = false) :
    (va.extractLsb' 0 39).setWidth 64 = va ↔ va.getLsbD 38 = false := by
  have high : ∀ k, 38 ≤ k → k < 64 → va.getLsbD k = va.getLsbD 38 := by
    intro k low bound
    unfold notCanonical at canonical
    rw [Bool.and_eq_false_iff, bne_eq_false_iff_eq, bne_eq_false_iff_eq] at canonical
    have bit : ∀ j, j < 26 → (va.extractLsb' 38 26).getLsbD j = va.getLsbD (38 + j) := by
      intro j small
      rw [BitVec.getLsbD_extractLsb', decide_eq_true small, Bool.true_and]
    have here := bit (k - 38) (by omega)
    have first := bit 0 (by decide)
    rw [show 38 + (k - 38) = k by omega] at here
    rcases canonical with ones | zeros
    · rw [ones, BitVec.getLsbD_allOnes, decide_eq_true (by omega)] at here
      rw [ones, BitVec.getLsbD_allOnes] at first
      exact here.symm.trans first
    · have zero : ∀ j, (0 : BitVec 26).getLsbD j = false := fun _ => BitVec.getLsbD_zero
      rw [zeros, zero] at here first
      exact here.symm.trans first
  constructor
  · intro same
    have bit := congrArg (fun x => x.getLsbD 39) same
    rw [BitVec.getLsbD_setWidth, BitVec.getLsbD_extractLsb'] at bit
    exact (bit.trans (high 39 (by decide) (by decide))).symm
  · intro clear
    apply BitVec.eq_of_getLsbD_eq
    intro k bound
    rw [BitVec.getLsbD_setWidth, BitVec.getLsbD_extractLsb', decide_eq_true bound, Bool.true_and,
      Nat.zero_add]
    by_cases low : k < 39
    · rw [decide_eq_true low, Bool.true_and]
    · rw [decide_eq_false low, Bool.false_and, high k (by omega) bound, clear]

section Fetch

variable {n m w : Nat} {q : State n m w} {i : Input w}

theorem instrInterface_hit (enabled : i.enableTranslation = true)
    (hit : (itlbLookup q i).hit = true) :
    (instrInterface q i).valid = i.fetchReq ∧ (instrInterface q i).exception =
      if iaccessErr i (itlbLookup q i).content then ⟨instrPageFault, i.fetchVaddr, true⟩
      else if i.fetchReq && notCanonical i.fetchVaddr then
        ⟨instrAccessFault, i.fetchVaddr, true⟩
      else {} := by
  unfold instrInterface
  simp only [enabled, hit, ↓reduceIte]
  constructor
  · split <;> rfl
  · split
    · rfl
    · split <;> rfl

/-- The answer of a miss: only the end of a failing walk is valid. -/
theorem instrInterface_miss (enabled : i.enableTranslation = true)
    (miss : (itlbLookup q i).hit = false) :
    (instrInterface q i).valid = fetchWalkFails q i ∧
      (fetchWalkFails q i = true → (instrInterface q i).exception =
        ⟨instrPageFault, (Ptw.updateVaddr q.ptw).setWidth 64, true⟩) := by
  unfold instrInterface fetchWalkFails
  simp only [enabled, miss, ↓reduceIte, Bool.false_eq_true, Ptw.ptwError_iff, Bool.not_false,
    Bool.true_and]
  cases instr : q.ptw.isInstrPtw with
  | false => simp
  | true =>
      cases phase : q.ptw.state <;> simp [Ptw.ptwActive, phase]

theorem walk_of_fails (fails : fetchWalkFails q i = true) :
    i.enableTranslation = true ∧ (itlbLookup q i).hit = false := by
  simp only [fetchWalkFails, Bool.and_eq_true, Bool.not_eq_true'] at fails
  exact ⟨fails.1.1.1, fails.1.1.2⟩

theorem fetchWalkFails_of_hit (hit : (itlbLookup q i).hit = true) :
    fetchWalkFails q i = false := by
  unfold fetchWalkFails
  rw [hit, Bool.not_true, Bool.and_false, Bool.false_and, Bool.false_and]

theorem access_ne_page (va tval : BitVec 64) :
    (⟨instrPageFault, tval, true⟩ : Exception) ≠ ⟨instrAccessFault, va, true⟩ := by
  intro same
  have causes := congrArg Exception.cause same
  exact absurd causes (show instrPageFault ≠ instrAccessFault by decide)

/-- Page faults of fetches report the address, if and only if the walk that raises one is for an
address without sign bit. -/
theorem fetch_fault_iff :
    (∀ va, FetchFault q i va → notCanonical va = false →
        (instrInterface q i).exception = ⟨instrPageFault, va, true⟩) ↔
      (fetchWalkFails q i = true → q.ptw.vaddr = i.fetchVaddr →
        notCanonical i.fetchVaddr = false → i.fetchVaddr.getLsbD 38 = false) := by
  constructor
  · intro right fails walked canonical
    obtain ⟨enabled, miss⟩ := walk_of_fails fails
    have answer := instrInterface_miss enabled miss
    have reported := answer.2 fails
    have fault : FetchFault q i i.fetchVaddr :=
      { fetch := rfl
        valid := answer.1.trans fails
        fault := by rw [FetchOutput.pageFault, reported]; rfl
        walked := Or.inr walked }
    have whole := congrArg Exception.tval (reported.symm.trans (right _ fault canonical))
    dsimp only at whole
    rw [Ptw.updateVaddr, walked] at whole
    exact (low_part_iff canonical).mp whole
  · intro plain va fault canonical
    obtain ⟨rfl, valid, raised, walked⟩ := fault
    cases enabled : i.enableTranslation with
    | false =>
        have none : (instrInterface q i).exception = {} := by
          rw [instrInterface, enabled]
          rfl
        rw [FetchOutput.pageFault, none] at raised
        exact absurd raised Bool.false_ne_true
    | true =>
        cases hit : (itlbLookup q i).hit with
        | true =>
            have answer := (instrInterface_hit enabled hit).2
            rw [canonical, Bool.and_false, if_neg Bool.false_ne_true] at answer
            rw [FetchOutput.pageFault, answer] at raised
            rw [answer]
            split
            · rfl
            · rename_i granted
              rw [if_neg granted] at raised
              exact absurd raised Bool.false_ne_true
        | false =>
            obtain ⟨answer, reported⟩ := instrInterface_miss enabled hit
            have fails : fetchWalkFails q i = true := answer.symm.trans valid
            have same := walked.resolve_left (by rw [hit]; exact Bool.false_ne_true)
            rw [reported fails, Ptw.updateVaddr, same,
              (low_part_iff canonical).mpr (plain fails same canonical)]

/-- An impossible fetch address is answered by an access fault, if and only if no check behind
overrides it. -/
theorem fetch_access_iff :
    (i.enableTranslation = true → i.fetchReq = true → notCanonical i.fetchVaddr = true →
        (instrInterface q i).valid = true →
        (instrInterface q i).exception = ⟨instrAccessFault, i.fetchVaddr, true⟩) ↔
      (i.enableTranslation = true → i.fetchReq = true → notCanonical i.fetchVaddr = true →
        fetchWalkFails q i = false ∧
          ((itlbLookup q i).hit && iaccessErr i (itlbLookup q i).content) = false) := by
  apply forall_congr'
  intro enabled
  apply forall_congr'
  intro req
  apply forall_congr'
  intro impossible
  cases hit : (itlbLookup q i).hit with
  | true =>
      obtain ⟨valid, reported⟩ := instrInterface_hit enabled hit
      rw [fetchWalkFails_of_hit hit, valid, reported, req, impossible, Bool.true_and,
        Bool.true_and, if_pos rfl]
      cases iaccessErr i (itlbLookup q i).content with
      | true => 
          constructor
          · exact fun right => absurd (right rfl) (access_ne_page _ _)
          · exact fun none => absurd none.2 Bool.noConfusion
      | false => exact ⟨fun _ => ⟨rfl, rfl⟩, fun _ _ => rfl⟩
  | false =>
      obtain ⟨valid, reported⟩ := instrInterface_miss enabled hit
      rw [valid, Bool.false_and]
      cases fails : fetchWalkFails q i with
      | true =>
          rw [reported fails]
          constructor
          · exact fun right => absurd (right rfl) (access_ne_page _ _)
          · exact fun none => absurd none.1 Bool.noConfusion
      | false => exact ⟨fun _ => ⟨rfl, rfl⟩, fun _ none => absurd none Bool.false_ne_true⟩

end Fetch

section Data

variable {n m w : Nat} {q : State n m w} {i : Input w}

theorem lsuFault_pageFault (o : LsuOutput) (isStore : Bool) (va : BitVec 64)
    (raised : o.exception = lsuFault isStore va) : o.pageFault = true := by
  rw [LsuOutput.pageFault, raised]
  cases isStore <;> rfl

/-- The answer of a translated access: a hit, the end of a failing walk, or none yet. -/
theorem dataInterface_translated (enabled : i.enLdStTranslation = true)
    (aligned : q.misalignedEx.valid = false) :
    (dataInterface q i).valid = (q.dtlbHit && q.lsuReq || dataWalkFails q i) ∧
      (dataInterface q i).exception =
        if q.dtlbHit && q.lsuReq then
          if hitFault i q.lsuIsStore q.dtlbPte then lsuFault q.lsuIsStore q.lsuVaddr
          else q.misalignedEx
        else if dataWalkFails q i then
          lsuFault q.lsuIsStore ((Ptw.updateVaddr q.ptw).setWidth 64)
        else q.misalignedEx := by
  unfold dataInterface dataWalkFails
  simp only [enabled, aligned, Bool.not_false, Bool.and_self, Bool.true_and, ↓reduceIte,
    Ptw.ptwError_iff]
  cases hit : q.dtlbHit && q.lsuReq with
  | true =>
      simp only [↓reduceIte, Bool.true_or]
      split <;> exact ⟨rfl, rfl⟩
  | false =>
      cases instr : q.ptw.isInstrPtw with
      | true => simp
      | false => cases phase : q.ptw.state <;> simp [Ptw.ptwActive, phase]

theorem dataInterface_direct (off : i.enLdStTranslation = false ∨ q.misalignedEx.valid = true) :
    (dataInterface q i).valid = q.lsuReq ∧ (dataInterface q i).exception = q.misalignedEx := by
  have bypass : (i.enLdStTranslation && !q.misalignedEx.valid) = false := by
    rcases off with off | off <;> simp [off]
  rw [dataInterface, bypass]
  exact ⟨rfl, rfl⟩

theorem not_pageFault_of_invalid (o : LsuOutput) (same : o.exception = q.misalignedEx)
    (aligned : q.misalignedEx.valid = false) : o.pageFault ≠ true := by
  rw [LsuOutput.pageFault, same, aligned, Bool.false_and]
  exact Bool.false_ne_true

/-- Page faults of loads and stores report the address, if and only if the walk that raises one
is for an address without sign bit. -/
theorem data_fault_iff :
    (∀ va isStore, DataFault q i va isStore → notCanonical va = false →
        (dataInterface q i).exception = lsuFault isStore va) ↔
      (dataWalkFails q i = true → q.ptw.vaddr = q.lsuVaddr →
        notCanonical q.lsuVaddr = false → q.lsuVaddr.getLsbD 38 = false) := by
  constructor
  · intro right fails walked canonical
    have parts := fails
    simp only [dataWalkFails, Bool.and_eq_true, Bool.not_eq_true'] at parts
    obtain ⟨⟨⟨⟨enabled, aligned⟩, miss⟩, -⟩, -⟩ := parts
    obtain ⟨valid, reported⟩ := dataInterface_translated enabled aligned
    rw [miss, if_neg Bool.false_ne_true, if_pos fails] at reported
    have fault : DataFault q i q.lsuVaddr q.lsuIsStore :=
      { access := rfl
        kind := rfl
        aligned := aligned
        valid := by rw [valid, fails, Bool.or_true]
        fault := lsuFault_pageFault _ _ _ reported
        walked := Or.inr walked }
    have whole := congrArg Exception.tval (reported.symm.trans (right _ _ fault canonical))
    rw [lsuFault, lsuFault, Ptw.updateVaddr, walked] at whole
    exact (low_part_iff canonical).mp whole
  · intro plain va isStore fault canonical
    obtain ⟨rfl, rfl, aligned, valid, raised, walked⟩ := fault
    cases enabled : i.enLdStTranslation with
    | false =>
        have direct := (dataInterface_direct (q := q) (Or.inl enabled)).2
        exact absurd raised (not_pageFault_of_invalid _ direct aligned)
    | true =>
        obtain ⟨answer, reported⟩ := dataInterface_translated enabled aligned
        cases hit : q.dtlbHit && q.lsuReq with
        | true =>
            rw [hit, if_pos rfl] at reported
            split at reported
            · exact reported
            · exact absurd raised (not_pageFault_of_invalid _ reported aligned)
        | false =>
            rw [hit, Bool.false_or] at answer
            have fails : dataWalkFails q i = true := answer.symm.trans valid
            have same := walked.resolve_left (by rw [hit]; exact Bool.false_ne_true)
            rw [hit, if_neg Bool.false_ne_true, if_pos fails, Ptw.updateVaddr, same,
              (low_part_iff canonical).mpr (plain fails same canonical)] at reported
            exact reported

theorem data_access_fault (c : LsuCtrl) (registered : Registered q c)
    (impossible : notCanonical c.vaddr = true) :
    (dataInterface q i).valid = true ∧ (dataInterface q i).exception =
      ⟨if c.fu == .store then stAccessFault else ldAccessFault, c.vaddr, true⟩ := by
  have raised : q.misalignedEx =
      ⟨if c.fu == .store then stAccessFault else ldAccessFault, c.vaddr, true⟩ := by
    rw [registered.misaligned, misalignedException, impossible]
    rcases registered.kind with load | store
    · rw [load]
      rfl
    · rw [store]
      rfl
  have direct := dataInterface_direct (q := q) (i := i) (Or.inr (by rw [raised]))
  exact ⟨direct.1.trans registered.req, direct.2.trans raised⟩

end Data

theorem registered_next {n m w : Nat} (q : State n m w) (i : Input w) (c : LsuCtrl)
    (presents : Presents i c) (translated : i.enLdStTranslation = true) :
    Registered (next q i) c where
  kind := presents.kind
  req := presents.req
  vaddr := presents.vaddr
  isStore := presents.isStore
  misaligned := by
    show { i.misalignedEx with valid := i.misalignedEx.valid && i.lsuReq } = _
    rw [presents.req, Bool.and_true, presents.misaligned, translated]

theorem faults_right_iff {n m w : Nat} (q : State n m w) (i : Input w) :
    FaultsRight q i ↔ Plain q i := by
  constructor
  · intro right
    exact ⟨fetch_fault_iff.mp right.fetch, data_fault_iff.mp right.data,
      fetch_access_iff.mp right.fetchAccess⟩
  · intro plain
    exact ⟨fetch_fault_iff.mpr plain.fetch, data_fault_iff.mpr plain.data,
      fetch_access_iff.mpr plain.fetchAccess,
      fun c registered impossible => data_access_fault c registered impossible⟩

/-- A load with sign bit whose walk finds an invalid entry. -/
def invalidWalk : List (Input 1) :=
  let load := loadAt 0xffffffffc0000000
  [load, { load with dataGnt := true }, { load with dataRvalid := true }, load]

/-- A fetch in supervisor mode installs a page of the supervisor. -/
def supervisorFetch : List (Input 1) :=
  let fetch : Input 1 := { enableTranslation := true, fetchReq := true, privLvl := privLvlS }
  [fetch, { fetch with dataGnt := true }, { fetch with dataRvalid := true, dataRdata := 0xcf },
    fetch]

/-- The load page fault has lost the upper bits of the address, and a user's fetch from an
impossible address is a page fault. -/
theorem faults_wrong :
    (let q := (machine 1 1 1).run invalidWalk
     let o := dataInterface q (loadAt 0xffffffffc0000000)
     q.lsuVaddr = 0xffffffffc0000000 ∧ q.ptw.vaddr = 0xffffffffc0000000 ∧ o.valid = true ∧
      o.exception = ⟨loadPageFault, 0x7fc0000000, true⟩) ∧
    (let q := (machine 1 1 1).run supervisorFetch
     let i : Input 1 :=
      { enableTranslation := true, fetchReq := true, privLvl := privLvlU,
        fetchVaddr := 0x800000000000 }
     let o := instrInterface q i
     notCanonical i.fetchVaddr = true ∧ o.valid = true ∧
      o.exception = ⟨instrPageFault, 0x800000000000, true⟩) := by
  decide

end Ariane.Mmu
