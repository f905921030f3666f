import Ariane.Riscv
import Ariane.Tlb

set_option autoImplicit false

/- `mmu.sv`: the two TLBs, the walker, and the translation of fetches, loads and stores. -/
namespace Ariane.Mmu

open Rtl (Machine Field assign)
open Riscv
open Sv39 (Pte)
open Tlb (Lookup)

/-- The registers, for `n` instruction and `m` data entries. -/
structure State (n m w : Nat) where
  itlb : Tlb.State n w := Tlb.reset
  dtlb : Tlb.State m w := Tlb.reset
  ptw : Ptw.State w := Ptw.reset
  lsuVaddr : BitVec 64 := 0
  dtlbPte : Pte := 0
  misalignedEx : Exception := {}
  lsuReq : Bool := false
  lsuIsStore : Bool := false
  dtlbHit : Bool := false
  dtlbIs2M : Bool := false
  dtlbIs1G : Bool := false

/-- The inputs of one cycle. -/
structure Input (w : Nat) where
  flush : Bool := false
  enableTranslation : Bool := false
  enLdStTranslation : Bool := false
  fetchReq : Bool := false
  fetchVaddr : BitVec 64 := 0
  misalignedEx : Exception := {}
  lsuReq : Bool := false
  lsuVaddr : BitVec 64 := 0
  lsuIsStore : Bool := false
  privLvl : PrivLvl := privLvlM
  ldStPrivLvl : PrivLvl := privLvlM
  sum : Bool := false
  mxr : Bool := false
  satpPpn : BitVec 44 := 0
  asid : BitVec w := 0
  flushTlb : Bool := false
  dataGnt : Bool := false
  dataRvalid : Bool := false
  dataRdata : BitVec 64 := 0

/-- `icache_areq_o`. -/
structure FetchOutput where
  valid : Bool := false
  paddr : BitVec 64 := 0
  exception : Exception := {}
  deriving DecidableEq, Inhabited

/-- The answer to the LSU. -/
structure LsuOutput where
  valid : Bool := false
  paddr : BitVec 64 := 0
  exception : Exception := {}
  deriving DecidableEq, Inhabited

def reset {n m w : Nat} : State n m w := {}

section Block

variable {n m w : Nat} (q : State n m w) (i : Input w)

/-- The lookup of the instruction TLB. -/
def itlbLookup : Lookup := Tlb.translation q.itlb i.asid i.fetchVaddr

/-- The lookup of the data TLB. -/
def dtlbLookup : Lookup := Tlb.translation q.dtlb i.asid i.lsuVaddr

/-- The inputs of the walker. -/
def ptwInput : Ptw.Input w where
  flush := i.flush
  enableTranslation := i.enableTranslation
  enLdStTranslation := i.enLdStTranslation
  lsuIsStore := i.lsuIsStore
  dataGnt := i.dataGnt
  dataRvalid := i.dataRvalid
  dataRdata := i.dataRdata
  asid := i.asid
  itlbAccess := i.fetchReq
  itlbHit := (itlbLookup q i).hit
  itlbVaddr := i.fetchVaddr
  dtlbAccess := i.lsuReq
  dtlbHit := (dtlbLookup q i).hit
  dtlbVaddr := i.lsuVaddr
  satpPpn := i.satpPpn
  mxr := i.mxr

/-- The inputs of the instruction TLB. -/
def itlbInput : Tlb.Input w where
  flush := i.flushTlb
  update := Ptw.itlbUpdate q.ptw (ptwInput q i)
  luAccess := i.fetchReq
  luAsid := i.asid
  luVaddr := i.fetchVaddr

/-- The inputs of the data TLB. -/
def dtlbInput : Tlb.Input w where
  flush := i.flushTlb
  update := Ptw.dtlbUpdate q.ptw (ptwInput q i)
  luAccess := i.lsuReq
  luAsid := i.asid
  luVaddr := i.lsuVaddr

/-- The physical address of `va` on the page of `p`. -/
def translate (p : Pte) (is2M is1G : Bool) (va : BitVec 64) : BitVec 64 :=
  let pa := (p.ppn ++ va.extractLsb' 0 12).setWidth 64
  let pa := if is2M then assign pa ⟨12, 9, by decide⟩ (va.extractLsb' 12 9) else pa
  if is1G then assign pa ⟨12, 18, by decide⟩ (va.extractLsb' 12 18) else pa

/-- `iaccess_err`: the privilege level does not match the user bit of the page. -/
def iaccessErr (p : Pte) : Bool :=
  i.fetchReq && ((i.privLvl == privLvlU && !p.u) || (i.privLvl == privLvlS && p.u))

/-- The address is not a sign-extended 39-bit address. -/
def notCanonical (va : BitVec 64) : Bool :=
  va.extractLsb' 38 26 != BitVec.allOnes 26 && va.extractLsb' 38 26 != 0

/-- `instr_interface`. -/
def instrInterface : FetchOutput :=
  let o : FetchOutput := { valid := i.fetchReq, paddr := i.fetchVaddr }
  if i.enableTranslation then
    let l := itlbLookup q i
    let o := if i.fetchReq && notCanonical i.fetchVaddr then
        { o with exception := ⟨instrAccessFault, i.fetchVaddr, true⟩ }
      else o
    let o := { o with valid := false, paddr := translate l.content l.is2M l.is1G i.fetchVaddr }
    if l.hit then
      let o := { o with valid := i.fetchReq }
      if iaccessErr i l.content then
        { o with exception := ⟨instrPageFault, i.fetchVaddr, true⟩ }
      else o
    else if Ptw.ptwActive q.ptw && q.ptw.isInstrPtw then
      { o with
        valid := (Ptw.ptw q.ptw (ptwInput q i)).ptwError
        exception := ⟨instrPageFault, (Ptw.updateVaddr q.ptw).setWidth 64, true⟩ }
    else o
  else o

/-- `daccess_err`: the privilege level does not match the user bit of the page. -/
def daccessErr (p : Pte) : Bool :=
  (i.ldStPrivLvl == privLvlS && !i.sum && p.u) || (i.ldStPrivLvl == privLvlU && !p.u)

/-- The check of a hit. -/
def hitFault (isStore : Bool) (p : Pte) : Bool :=
  if isStore then !p.w || daccessErr i p || !p.d else daccessErr i p

/-- The page fault of the access. -/
def lsuFault (isStore : Bool) (va : BitVec 64) : Exception :=
  ⟨if isStore then storePageFault else loadPageFault, va, true⟩

/-- `data_interface`. -/
def dataInterface : LsuOutput :=
  let o : LsuOutput := { valid := q.lsuReq, paddr := q.lsuVaddr, exception := q.misalignedEx }
  if i.enLdStTranslation && !q.misalignedEx.valid then
    let o := { o with
      valid := false
      paddr := translate q.dtlbPte q.dtlbIs2M q.dtlbIs1G q.lsuVaddr }
    if q.dtlbHit && q.lsuReq then
      let o := { o with valid := true }
      if hitFault i q.lsuIsStore q.dtlbPte then
        { o with exception := lsuFault q.lsuIsStore q.lsuVaddr }
      else o
    else if Ptw.ptwActive q.ptw && !q.ptw.isInstrPtw then
      if (Ptw.ptw q.ptw (ptwInput q i)).ptwError then
        { o with
          valid := true
          exception := lsuFault q.lsuIsStore ((Ptw.updateVaddr q.ptw).setWidth 64) }
      else o
    else o
  else o

/-- `lsu_dtlb_hit_o`. -/
def lsuDtlbHit : Bool := if i.enLdStTranslation then (dtlbLookup q i).hit else true

/-- All registers after one cycle. -/
def next : State n m w where
  itlb := Tlb.next q.itlb (itlbInput q i)
  dtlb := Tlb.next q.dtlb (dtlbInput q i)
  ptw := Ptw.next q.ptw (ptwInput q i)
  lsuVaddr := i.lsuVaddr
  dtlbPte := (dtlbLookup q i).content
  misalignedEx := { i.misalignedEx with valid := i.misalignedEx.valid && i.lsuReq }
  lsuReq := i.lsuReq
  lsuIsStore := i.lsuIsStore
  dtlbHit := (dtlbLookup q i).hit
  dtlbIs2M := (dtlbLookup q i).is2M
  dtlbIs1G := (dtlbLookup q i).is1G

end Block

def machine (n m w : Nat) : Machine (State n m w) (Input w) := ⟨reset, next⟩

end Ariane.Mmu
