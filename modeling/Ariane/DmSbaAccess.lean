import Ariane.DmSba

set_option autoImplicit false

/- What the debugger gets from the system bus, where it stays within what works: bytes in the lowest
lane, and no writes while the bus is busy. -/
namespace Ariane.Dm

open AxiAdapter (Params Request Bench Memory firstLane byteAt byteOf wordOf)
open Rtl (Machine)

variable {nrHarts : Nat}

section Registers

variable (s : Csrs nrHarts)

/-- Accesses that write no register of the system bus and leave the module active. -/
structure Harmless (request : Option DmiReq) : Prop where
  quiet : ∀ r, request = some r → r.op = dtmWrite → (decode r.addr).systemBus = false
  active : ∀ r, request = some r → r.op = dtmWrite → decode r.addr = .dmControl →
    r.data.getLsbD 0 = true

theorem writes_other (busy sbbusy : Bool) {r : DmiReq} (other : (decode r.addr).systemBus = false)
    (active : decode r.addr = .dmControl → r.data.getLsbD 0 = true) :
    (s.writes busy sbbusy r).sbaddr = s.sbaddr ∧ (s.writes busy sbbusy r).sbdata = s.sbdata ∧
      (s.writes busy sbbusy r).sbcs = s.sbcs ∧
      (s.dmcontrol.dmactive = true → (s.writes busy sbbusy r).dmcontrol.dmactive = true) := by
  unfold Csrs.writes
  cases register : decode r.addr with
  | sbcs | sbAddress0 | sbAddress1 | sbData0 | sbData1 =>
      rw [register] at other
      cases other
  | dmControl => exact ⟨rfl, rfl, rfl, fun _ => active register⟩
  | data | progBuf => cases busy <;> exact ⟨rfl, rfl, rfl, id⟩
  | abstractCS | command | abstractAuto =>
      cases busy with
      | false => exact ⟨rfl, rfl, rfl, id⟩
      | true =>
          rw [Csrs.refused]
          dsimp only
          rw [if_pos rfl]
          split <;> exact ⟨rfl, rfl, rfl, id⟩
  | dmStatus | hartinfo | haltSum0 | haltSum1 | haltSum2 | haltSum3 | other =>
      exact ⟨rfl, rfl, rfl, id⟩

/-- The reads mark that they met a busy bus. -/
theorem reads_eq (sbbusy : Bool) (r : DmiReq) :
    s.reads sbbusy r =
      if (decode r.addr).systemBus && sbbusy then
        { s with sbcs := { s.sbcs with sbbusyerror := true } }
      else s := by
  unfold Csrs.reads
  cases decode r.addr <;> rfl

/-- A read of a register of the system bus. -/
def readsBus (request : Option DmiReq) : Bool :=
  request.any fun r => r.op == dtmRead && (decode r.addr).systemBus

theorem access_harmless (busy sbbusy : Bool) {request : Option DmiReq} (harmless : Harmless request) :
    (s.access busy sbbusy request).sbaddr = s.sbaddr ∧
      (s.access busy sbbusy request).sbdata = s.sbdata ∧
      (s.access busy sbbusy request).sbcs =
        (if readsBus request && sbbusy then { s.sbcs with sbbusyerror := true } else s.sbcs) ∧
      (s.dmcontrol.dmactive = true →
        (s.access busy sbbusy request).dmcontrol.dmactive = true) := by
  cases request with
  | none => exact ⟨rfl, rfl, rfl, id⟩
  | some r =>
      rw [Csrs.access]
      by_cases reads : r.op = dtmRead
      · have bus : readsBus (some r) = (decode r.addr).systemBus := by
          rw [readsBus, Option.any_some, reads, beq_self_eq_true, Bool.true_and]
        rw [if_pos reads, reads_eq, bus]
        split <;> exact ⟨rfl, rfl, rfl, id⟩
      · have bus : readsBus (some r) = false := by
          rw [readsBus, Option.any_some, beq_eq_false_iff_ne.mpr reads, Bool.false_and]
        rw [if_neg reads, bus]
        split
        · next writes =>
            exact writes_other s busy sbbusy (harmless.quiet r rfl writes)
              (harmless.active r rfl writes)
        · exact ⟨rfl, rfl, rfl, id⟩

theorem access_active (busy sbbusy : Bool) {request : Option DmiReq}
    (active : ∀ r, request = some r → r.op = dtmWrite → decode r.addr = .dmControl →
      r.data.getLsbD 0 = true) (on : s.dmcontrol.dmactive = true) :
    (s.access busy sbbusy request).dmcontrol.dmactive = true := by
  by_cases harmless : Harmless request
  · exact (access_harmless s busy sbbusy harmless).2.2.2 on
  · cases request with
    | none => exact on
    | some r =>
        rw [Csrs.access]
        split
        · rw [reads_eq]
          split <;> exact on
        · split
          · next writes =>
              by_cases bus : (decode r.addr).systemBus = true
              · unfold Csrs.writes
                cases register : decode r.addr with
                | sbcs | sbAddress0 | sbAddress1 | sbData0 | sbData1 => exact on
                | _ =>
                    rw [register] at bus
                    cases bus
              · exact (writes_other s busy sbbusy (Bool.eq_false_iff.mpr bus)
                  (active r rfl writes)).2.2.2 on
          · exact on

variable {s} {m : FromMem nrHarts} {i : CsrsInput} {request : Option DmiReq}

/-- The registers of an active module take what the access and the bus give. -/
theorem next_eq_update (on : s.dmcontrol.dmactive = true) :
    s.next m i request = s.update m i request := by
  rw [Csrs.next, on]
  rfl

/-- The registers with the address that the machine gives back. -/
def Csrs.addressed (s : Csrs nrHarts) (i : CsrsInput) : Csrs nrHarts :=
  { s with sbaddr := i.sbaddress }

theorem update_active (on : s.dmcontrol.dmactive = true)
    (active : ∀ r, request = some r → r.op = dtmWrite → decode r.addr = .dmControl →
      r.data.getLsbD 0 = true) : (s.next m i request).dmcontrol.dmactive = true := by
  rw [next_eq_update on]
  exact access_active (s.addressed i) m.cmdbusy i.sbbusy active on

theorem update_harmless (on : s.dmcontrol.dmactive = true) (harmless : Harmless request) :
    (s.next m i request).sbaddr = i.sbaddress ∧
      (s.next m i request).sbdata = (if i.sbdataValid then i.sbdata else s.sbdata) ∧
      (i.sberrorValid = false → (s.next m i request).sbcs =
        { s.sbcs with
          sbbusyerror := (readsBus request && i.sbbusy) || s.sbcs.sbbusyerror
          sbbusy := i.sbbusy }) := by
  rw [next_eq_update on]
  obtain ⟨addr, data, sbcs, -⟩ :=
    access_harmless (s.addressed i) m.cmdbusy i.sbbusy harmless
  refine ⟨addr, ?_, ?_⟩
  · show (if i.sbdataValid = true then i.sbdata
      else ((s.addressed i).access m.cmdbusy i.sbbusy request).sbdata) = _
    rw [data]
    rfl
  · intro noError
    show ({ ((s.addressed i).access m.cmdbusy i.sbbusy request).sbcs with
      sberror := if i.sberrorValid = true then i.sberror
        else ((s.addressed i).access m.cmdbusy i.sbbusy request).sbcs.sberror
      sbbusy := i.sbbusy } : Sbcs) = _
    rw [sbcs, noError]
    cases readsBus request && i.sbbusy <;> rfl

end Registers

end Ariane.Dm
