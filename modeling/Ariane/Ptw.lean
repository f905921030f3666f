import Ariane.Rtl.Machine
import Ariane.Sv39

set_option autoImplicit false

/- `ptw.sv`: the page table walker. The address space identifier has `w` bits. -/
namespace Ariane.Ptw

open Rtl (Machine)
open Sv39 (Pte)

/-- `state_q`. -/
inductive Phase where
  | idle | waitGrant | pteLookup | waitRvalid | propagateError
  deriving DecidableEq, Inhabited

/-- `ptw_lvl_q`. -/
inductive Lvl where
  | lvl1 | lvl2 | lvl3
  deriving DecidableEq, Inhabited

/-- `tlb_update_t`. -/
structure TlbUpdate (w : Nat) where
  valid : Bool := false
  is2M : Bool := false
  is1G : Bool := false
  vpn : BitVec 27 := 0
  asid : BitVec w := 0
  content : Pte := 0
  deriving DecidableEq, Inhabited

/-- The registers. -/
structure State (w : Nat) where
  state : Phase := .idle
  isInstrPtw : Bool := false
  ptwLvl : Lvl := .lvl1
  tagValid : Bool := false
  tlbUpdateAsid : BitVec w := 0
  vaddr : BitVec 64 := 0
  ptwPptr : BitVec 56 := 0
  globalMapping : Bool := false
  dataRdata : BitVec 64 := 0
  dataRvalid : Bool := false
  deriving DecidableEq, Inhabited

/-- The inputs of one cycle. -/
structure Input (w : Nat) where
  flush : Bool := false
  enableTranslation : Bool := false
  enLdStTranslation : Bool := false
  lsuIsStore : Bool := false
  dataGnt : Bool := false
  dataRvalid : Bool := false
  dataRdata : BitVec 64 := 0
  asid : BitVec w := 0
  itlbAccess : Bool := false
  itlbHit : Bool := false
  itlbVaddr : BitVec 64 := 0
  dtlbAccess : Bool := false
  dtlbHit : Bool := false
  dtlbVaddr : BitVec 64 := 0
  satpPpn : BitVec 44 := 0
  mxr : Bool := false
  deriving DecidableEq, Inhabited

/-- The signals that `ptw` assigns. -/
structure Output (w : Nat) where
  tagValid : Bool := false
  dataReq : Bool := false
  ptwError : Bool := false
  itlbUpdateValid : Bool := false
  dtlbUpdateValid : Bool := false
  isInstrPtw : Bool
  ptwLvl : Lvl
  ptwPptr : BitVec 56
  state : Phase
  globalMapping : Bool
  tlbUpdateAsid : BitVec w
  vaddr : BitVec 64
  itlbMiss : Bool := false
  dtlbMiss : Bool := false

def reset {w : Nat} : State w := {}

section Block

variable {w : Nat} (q : State w) (i : Input w)

/-- The default assignments. -/
def defaults : Output w where
  isInstrPtw := q.isInstrPtw
  ptwLvl := q.ptwLvl
  ptwPptr := q.ptwPptr
  state := q.state
  globalMapping := q.globalMapping
  tlbUpdateAsid := q.tlbUpdateAsid
  vaddr := q.vaddr

/-- `pte`. -/
def pte : Pte := q.dataRdata

/-- The instruction TLB misses. The data TLB has precedence. -/
def itlbMisses : Bool := i.enableTranslation && i.itlbAccess && !i.itlbHit && !i.dtlbAccess

/-- The data TLB misses. -/
def dtlbMisses : Bool := i.enLdStTranslation && i.dtlbAccess && !i.dtlbHit

/-- `IDLE`. -/
def idle (o : Output w) : Output w :=
  let o := { o with ptwLvl := .lvl1, globalMapping := false, isInstrPtw := false }
  if itlbMisses i then
    { o with
      ptwPptr := i.satpPpn ++ i.itlbVaddr.extractLsb' 30 9 ++ 0#3
      isInstrPtw := true
      tlbUpdateAsid := i.asid
      vaddr := i.itlbVaddr
      state := .waitGrant
      itlbMiss := true }
  else if dtlbMisses i then
    { o with
      ptwPptr := i.satpPpn ++ i.dtlbVaddr.extractLsb' 30 9 ++ 0#3
      tlbUpdateAsid := i.asid
      vaddr := i.dtlbVaddr
      state := .waitGrant
      dtlbMiss := true }
  else o

/-- `WAIT_GRANT`. -/
def waitGrant (o : Output w) : Output w :=
  let o := { o with dataReq := true }
  if i.dataGnt then { o with tagValid := true, state := .pteLookup } else o

/-- A leaf for the instruction TLB. -/
def updateItlb (o : Output w) : Output w :=
  if !(pte q).x || !(pte q).a then { o with state := .propagateError }
  else { o with itlbUpdateValid := true }

/-- A leaf for the data TLB. -/
def updateDtlb (o : Output w) : Output w :=
  let o := if (pte q).a && ((pte q).r || ((pte q).x && i.mxr)) then
      { o with dtlbUpdateValid := true }
    else { o with state := .propagateError }
  if i.lsuIsStore && (!(pte q).w || !(pte q).d) then
    { o with dtlbUpdateValid := false, state := .propagateError }
  else o

/-- The physical page number of a superpage is not aligned. -/
def misaligned : Bool :=
  (q.ptwLvl == .lvl1 && (pte q).ppn.extractLsb' 0 18 != 0) ||
    (q.ptwLvl == .lvl2 && (pte q).ppn.extractLsb' 0 9 != 0)

/-- A misaligned superpage is not installed. -/
def alignment (o : Output w) : Output w :=
  if misaligned q then
    { o with state := .propagateError, dtlbUpdateValid := false, itlbUpdateValid := false }
  else o

/-- A pointer to the next level. -/
def pointer (o : Output w) : Output w :=
  let o := if q.ptwLvl == .lvl1 then
      { o with
        ptwLvl := .lvl2
        ptwPptr := (pte q).ppn ++ q.vaddr.extractLsb' 21 9 ++ 0#3 }
    else o
  let o := if q.ptwLvl == .lvl2 then
      { o with
        ptwLvl := .lvl3
        ptwPptr := (pte q).ppn ++ q.vaddr.extractLsb' 12 9 ++ 0#3 }
    else o
  let o := { o with state := .waitGrant }
  if q.ptwLvl == .lvl3 then { o with ptwLvl := .lvl3, state := .propagateError } else o

/-- `PTE_LOOKUP`. -/
def pteLookup (o : Output w) : Output w :=
  if q.dataRvalid then
    let o := if (pte q).g then { o with globalMapping := true } else o
    if !(pte q).v || (!(pte q).r && (pte q).w) then { o with state := .propagateError }
    else
      let o := { o with state := .idle }
      if (pte q).r || (pte q).x then
        alignment q (if q.isInstrPtw then updateItlb q o else updateDtlb q i o)
      else pointer q o
  else o

/-- `PROPAGATE_ERROR`. -/
def propagateError (o : Output w) : Output w := { o with state := .idle, ptwError := true }

/-- `WAIT_RVALID`. -/
def waitRvalid (o : Output w) : Output w :=
  if q.dataRvalid then { o with state := .idle } else o

/-- The flush at the end of the block. -/
def flushed (o : Output w) : Output w :=
  if i.flush then
    if (q.state == .pteLookup && !q.dataRvalid) || (q.state == .waitGrant && i.dataGnt) then
      { o with state := .waitRvalid }
    else { o with state := .idle }
  else o

/-- `ptw`. -/
def ptw : Output w :=
  let o := defaults q
  flushed q i <| match q.state with
    | .idle => idle i o
    | .waitGrant => waitGrant i o
    | .pteLookup => pteLookup q i o
    | .propagateError => propagateError o
    | .waitRvalid => waitRvalid q o

/-- All registers after one cycle. -/
def next : State w where
  state := (ptw q i).state
  isInstrPtw := (ptw q i).isInstrPtw
  ptwLvl := (ptw q i).ptwLvl
  tagValid := (ptw q i).tagValid
  tlbUpdateAsid := (ptw q i).tlbUpdateAsid
  vaddr := (ptw q i).vaddr
  ptwPptr := (ptw q i).ptwPptr
  globalMapping := (ptw q i).globalMapping
  dataRdata := i.dataRdata
  dataRvalid := i.dataRvalid

/-- The data that both TLBs receive. -/
def update (valid : Bool) : TlbUpdate w where
  valid := valid
  is2M := q.ptwLvl == .lvl2
  is1G := q.ptwLvl == .lvl1
  vpn := q.vaddr.extractLsb' 12 27
  asid := q.tlbUpdateAsid
  content := pte q ||| (BitVec.ofBool q.globalMapping).setWidth 64 <<< 5

/-- `itlb_update_o`. -/
def itlbUpdate : TlbUpdate w := update q (ptw q i).itlbUpdateValid

/-- `dtlb_update_o`. -/
def dtlbUpdate : TlbUpdate w := update q (ptw q i).dtlbUpdateValid

/-- `update_vaddr_o`. -/
def updateVaddr : BitVec 39 := q.vaddr.extractLsb' 0 39

/-- `ptw_active_o`. -/
def ptwActive : Bool := q.state != .idle

/-- The cache accepts the request of this cycle. -/
def granted : Bool := (ptw q i).dataReq && i.dataGnt

end Block

section Steps

variable {w : Nat} (q : State w) (i : Input w)

/-- Requests leave only while the walker waits for a grant. -/
theorem granted_iff : granted q i = (q.state == .waitGrant && i.dataGnt) := by
  have kept : ∀ o : Output w, (flushed q i o).dataReq = o.dataReq := by
    intro o
    simp only [flushed, apply_ite Output.dataReq, ite_self]
  rw [granted, ptw, kept]
  cases phase : q.state with
  | idle => simp only [idle, defaults, apply_ite Output.dataReq, ite_self]; rfl
  | waitGrant => simp only [waitGrant, defaults, apply_ite Output.dataReq, ite_self]; rfl
  | pteLookup =>
      simp only [pteLookup, alignment, updateItlb, updateDtlb, pointer, defaults,
        apply_ite Output.dataReq, ite_self]
      rfl
  | waitRvalid => simp only [waitRvalid, defaults, apply_ite Output.dataReq, ite_self]; rfl
  | propagateError => rfl

/-- The registers while the walker waits. -/
def waiting (phase : Phase) : State w :=
  { q with
    state := phase
    tagValid := granted q i
    dataRdata := i.dataRdata
    dataRvalid := i.dataRvalid }

theorem next_waitGrant (phase : q.state = .waitGrant) :
    next q i = waiting q i
      (if i.flush then if i.dataGnt then .waitRvalid else .idle
      else if i.dataGnt then .pteLookup else .waitGrant) := by
  rw [waiting, granted_iff, next, ptw, phase]
  cases flush : i.flush <;> cases gnt : i.dataGnt <;>
    simp [flushed, waitGrant, defaults, phase, flush, gnt]

/-- Before the response the walker stays, or leaves the response to `WAIT_RVALID`. -/
theorem next_pteLookup_waiting (phase : q.state = .pteLookup) (noData : q.dataRvalid = false) :
    next q i = waiting q i (if i.flush then .waitRvalid else .pteLookup) := by
  rw [waiting, granted_iff, next, ptw, phase]
  cases flush : i.flush <;> simp [flushed, pteLookup, defaults, phase, noData, flush]

theorem next_waitRvalid (phase : q.state = .waitRvalid) :
    next q i = waiting q i (if i.flush || q.dataRvalid then .idle else .waitRvalid) := by
  rw [waiting, granted_iff, next, ptw, phase]
  cases flush : i.flush <;> cases data : q.dataRvalid <;>
    simp [flushed, waitRvalid, defaults, phase, flush, data]

theorem next_propagateError (phase : q.state = .propagateError) :
    next q i = waiting q i .idle := by
  rw [waiting, granted_iff, next, ptw, phase]
  cases flush : i.flush <;> simp [flushed, propagateError, defaults, phase, flush]

/-- A miss starts a walk. -/
theorem next_idle_state (phase : q.state = .idle) :
    (next q i).state =
      if !i.flush && (itlbMisses i || dtlbMisses i) then .waitGrant else .idle := by
  show (ptw q i).state = _
  rw [ptw, phase]
  cases flush : i.flush <;> cases itlb : itlbMisses i <;> cases dtlb : dtlbMisses i <;>
    simp [flushed, idle, defaults, phase, flush, itlb, dtlb]

/-- A flush ends the walk. -/
theorem next_flush_state (flush : i.flush = true) :
    (next q i).state = .idle ∨ (next q i).state = .waitRvalid := by
  show (ptw q i).state = _ ∨ (ptw q i).state = _
  rw [ptw, flushed, if_pos flush]
  split
  · exact Or.inr rfl
  · exact Or.inl rfl

/-- The leaf permits the access. -/
def permitted : Bool :=
  if q.isInstrPtw then (pte q).x && (pte q).a
  else (pte q).a && ((pte q).r || ((pte q).x && i.mxr)) &&
    !(i.lsuIsStore && (!(pte q).w || !(pte q).d))

/-- The entry is a leaf that goes into a TLB. -/
def installs : Bool :=
  !(pte q).invalid && (pte q).isLeaf && permitted q i && !misaligned q

/-- The state after the evaluation of an entry. -/
def evaluatedState : Phase :=
  if (pte q).invalid then .propagateError
  else if (pte q).isLeaf then if permitted q i && !misaligned q then .idle else .propagateError
  else if q.ptwLvl == .lvl3 then .propagateError else .waitGrant

theorem pteLookup_state (o : Output w) (data : q.dataRvalid = true) :
    (pteLookup q i o).state = evaluatedState q i := by
  rw [pteLookup, if_pos data]
  simp only [alignment, updateItlb, updateDtlb, pointer, apply_ite Output.state, evaluatedState,
    permitted, Pte.invalid, Pte.isLeaf]
  grind

theorem next_evaluated_state (phase : q.state = .pteLookup) (data : q.dataRvalid = true) :
    (next q i).state = if i.flush then .idle else evaluatedState q i := by
  show (ptw q i).state = _
  rw [ptw, phase, flushed, phase, data]
  cases flush : i.flush with
  | true => rfl
  | false => exact pteLookup_state q i (defaults q) data

theorem itlbUpdate_valid :
    (itlbUpdate q i).valid =
      (q.state == .pteLookup && q.dataRvalid && q.isInstrPtw && installs q i) := by
  have kept : ∀ o : Output w, (flushed q i o).itlbUpdateValid = o.itlbUpdateValid := by
    intro o
    simp only [flushed, apply_ite Output.itlbUpdateValid, ite_self]
  show (ptw q i).itlbUpdateValid = _
  rw [ptw, kept]
  cases phase : q.state with
  | idle => simp only [idle, defaults, apply_ite Output.itlbUpdateValid, ite_self]; rfl
  | waitGrant => simp only [waitGrant, defaults, apply_ite Output.itlbUpdateValid, ite_self]; rfl
  | pteLookup =>
      simp only [pteLookup, alignment, updateItlb, updateDtlb, pointer, defaults,
        apply_ite Output.itlbUpdateValid, ite_self, installs, permitted, Pte.invalid, Pte.isLeaf]
      grind
  | waitRvalid => simp only [waitRvalid, defaults, apply_ite Output.itlbUpdateValid, ite_self]; rfl
  | propagateError => rfl

theorem dtlbUpdate_valid :
    (dtlbUpdate q i).valid =
      (q.state == .pteLookup && q.dataRvalid && !q.isInstrPtw && installs q i) := by
  have kept : ∀ o : Output w, (flushed q i o).dtlbUpdateValid = o.dtlbUpdateValid := by
    intro o
    simp only [flushed, apply_ite Output.dtlbUpdateValid, ite_self]
  show (ptw q i).dtlbUpdateValid = _
  rw [ptw, kept]
  cases phase : q.state with
  | idle => simp only [idle, defaults, apply_ite Output.dtlbUpdateValid, ite_self]; rfl
  | waitGrant => simp only [waitGrant, defaults, apply_ite Output.dtlbUpdateValid, ite_self]; rfl
  | pteLookup =>
      simp only [pteLookup, alignment, updateItlb, updateDtlb, pointer, defaults,
        apply_ite Output.dtlbUpdateValid, ite_self, installs, permitted, Pte.invalid, Pte.isLeaf]
      grind
  | waitRvalid => simp only [waitRvalid, defaults, apply_ite Output.dtlbUpdateValid, ite_self]; rfl
  | propagateError => rfl

theorem ptwError_iff : (ptw q i).ptwError = (q.state == .propagateError) := by
  have kept : ∀ o : Output w, (flushed q i o).ptwError = o.ptwError := by
    intro o
    simp only [flushed, apply_ite Output.ptwError, ite_self]
  rw [ptw, kept]
  cases phase : q.state with
  | idle => simp only [idle, defaults, apply_ite Output.ptwError, ite_self]; rfl
  | waitGrant => simp only [waitGrant, defaults, apply_ite Output.ptwError, ite_self]; rfl
  | pteLookup =>
      simp only [pteLookup, alignment, updateItlb, updateDtlb, pointer, defaults,
        apply_ite Output.ptwError, ite_self]
      rfl
  | waitRvalid => simp only [waitRvalid, defaults, apply_ite Output.ptwError, ite_self]; rfl
  | propagateError => rfl

/-- A miss of the instruction TLB latches the address. -/
theorem next_itlbMiss (phase : q.state = .idle) (noFlush : i.flush = false)
    (misses : itlbMisses i = true) :
    next q i =
      { waiting q i .waitGrant with
        ptwLvl := .lvl1
        globalMapping := false
        isInstrPtw := true
        ptwPptr := i.satpPpn ++ i.itlbVaddr.extractLsb' 30 9 ++ 0#3
        tlbUpdateAsid := i.asid
        vaddr := i.itlbVaddr } := by
  rw [waiting, granted_iff, next, ptw, phase]
  simp [flushed, idle, defaults, noFlush, misses]

/-- A miss of the data TLB latches the address. -/
theorem next_dtlbMiss (phase : q.state = .idle) (noFlush : i.flush = false)
    (misses : dtlbMisses i = true) :
    next q i =
      { waiting q i .waitGrant with
        ptwLvl := .lvl1
        globalMapping := false
        isInstrPtw := false
        ptwPptr := i.satpPpn ++ i.dtlbVaddr.extractLsb' 30 9 ++ 0#3
        tlbUpdateAsid := i.asid
        vaddr := i.dtlbVaddr } := by
  have other : itlbMisses i = false := by
    simp only [dtlbMisses, Bool.and_eq_true] at misses
    rw [itlbMisses, misses.1.2, Bool.not_true, Bool.and_false]
  rw [waiting, granted_iff, next, ptw, phase]
  simp [flushed, idle, defaults, noFlush, misses, other]

/-- A pointer leads to the table of the next level. -/
theorem next_pointer (phase : q.state = .pteLookup) (data : q.dataRvalid = true)
    (noFlush : i.flush = false) (valid : (pte q).invalid = false)
    (notLeaf : (pte q).isLeaf = false) (notLast : q.ptwLvl ≠ .lvl3) :
    next q i =
      { waiting q i .waitGrant with
        ptwLvl := if q.ptwLvl == .lvl1 then .lvl2 else .lvl3
        globalMapping := q.globalMapping || (pte q).g
        ptwPptr := (pte q).ppn ++
          (if q.ptwLvl == .lvl1 then q.vaddr.extractLsb' 21 9 else q.vaddr.extractLsb' 12 9) ++
            0#3 } := by
  have fault : (!(pte q).v || (!(pte q).r && (pte q).w)) = false := valid
  have pointerBits : ((pte q).r || (pte q).x) = false := notLeaf
  rw [waiting, granted_iff, next, ptw, phase]
  simp only [flushed, noFlush, pteLookup, data, fault, pointerBits, pointer, Bool.false_eq_true,
    ↓reduceIte, defaults, beq_eq_false_iff_ne.mpr notLast]
  cases level : q.ptwLvl with
  | lvl3 => exact absurd level notLast
  | lvl1 => cases (pte q).g <;> simp
  | lvl2 => cases (pte q).g <;> simp

/-- A walk keeps its kind. -/
theorem next_isInstrPtw (phase : q.state ≠ .idle) : (next q i).isInstrPtw = q.isInstrPtw := by
  have kept : ∀ o : Output w, (flushed q i o).isInstrPtw = o.isInstrPtw := by
    intro o
    simp only [flushed, apply_ite Output.isInstrPtw, ite_self]
  show (ptw q i).isInstrPtw = _
  rw [ptw, kept]
  cases now : q.state with
  | idle => exact absurd now phase
  | waitGrant => simp only [waitGrant, defaults, apply_ite Output.isInstrPtw, ite_self]
  | pteLookup =>
      simp only [pteLookup, alignment, updateItlb, updateDtlb, pointer, defaults,
        apply_ite Output.isInstrPtw, ite_self]
  | waitRvalid => simp only [waitRvalid, defaults, apply_ite Output.isInstrPtw, ite_self]
  | propagateError => rfl

end Steps

end Ariane.Ptw
