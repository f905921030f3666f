import Ariane.DmSbaLaw

set_option autoImplicit false

/- One cycle of an access of the debugger, at each of its stages. -/
namespace Ariane.Dm

open AxiAdapter (Params Request Bench Memory Phase firstLane byteAt byteOf wordOf)

variable {nrHarts : Nat} {s : System nrHarts} {i : SystemInput nrHarts}

section Machine

/-- The size that the machine sees is never too large. -/
theorem sbaTooLarge_eq (state : SbaState) : sbaTooLarge state (s.sbaInput i) = false := rfl

theorem sbaReq_eq : (s.busInput i).req = (s.sba == .read || s.sba == .write) := by
  show ((s.sba == .read || s.sba == .write) && !sbaTooLarge s.sba (s.sbaInput i)) = _
  rw [sbaTooLarge_eq, Bool.not_false, Bool.and_true]

theorem sbaRequest_eq {j : Job} (state : s.sba = if j.we then .write else .read)
    (holds : Holds s j) : (s.busInput i).request = j.request := by
  show sbaRequest s.sba (s.sbaInput i) = j.request
  rw [sbaRequest, Job.request]
  show (_ : Request sbaPort) = _
  cases we : j.we with
  | true =>
      rw [we, if_pos rfl] at state
      rw [state, ← holds.addr, ← holds.data]
      rfl
  | false =>
      rw [we, if_neg Bool.false_ne_true] at state
      rw [state, ← holds.addr, ← holds.data]
      rfl

theorem Stage.contract (stage : Stage s) (slave : AxiAdapter.Slave s.bus (s.busInput i)) :
    AxiAdapter.Contract s.bus (s.busInput i) := by
  have single : (s.busInput i).req = true → (s.busInput i).request.single = false →
      0 < sbaPort.wordBits := fun _ line => Bool.noConfusion line
  cases stage with
  | idle state job granted pending =>
      refine ⟨slave, fun r held => ?_, single⟩
      rw [pending] at held
      cases held
  | asking j state holds granted pending =>
      refine ⟨slave, fun r held => ?_, single⟩
      rcases pending with pending | pending
      · rw [pending] at held
        cases held
      · rw [pending, Option.some.injEq] at held
        rw [sbaReq_eq, state, sbaRequest_eq state holds]
        refine ⟨?_, held⟩
        cases j.we <;> rfl
  | waiting j state holds granted pending =>
      refine ⟨slave, fun r held => ?_, single⟩
      rw [pending] at held
      cases held

theorem quiet_gnt (law : AxiAdapter.Law s.bus (s.busInput i)) (none : (s.busInput i).req = false) :
    (s.output i).gnt = false := by
  rw [Bool.eq_false_iff]
  exact fun gnt => absurd (none.symm.trans (law.grant gnt).1) Bool.false_ne_true

theorem quiet_valid (law : AxiAdapter.Law s.bus (s.busInput i)) (none : s.bus.log.granted = []) :
    (s.output i).valid = false := by
  rw [Bool.eq_false_iff]
  intro valid
  obtain ⟨r, granted, -⟩ := law.response valid
  have gnt : (s.output i).gnt = false := AxiAdapter.gnt_of_valid valid
  have granted : s.bus.log.granted ++ (if (s.output i).gnt = true then _ else _) = [r] := granted
  rw [none, gnt] at granted
  cases granted

/-- What is granted after a cycle without a response. -/
theorem next_granted (none : (s.output i).valid = false) :
    (s.next i).bus.log.granted =
      s.bus.log.granted ++ if (s.output i).gnt then [(s.busInput i).request] else [] := by
  show ((s.bus.next (s.busInput i)).log).granted = _
  rw [AxiAdapter.next_log none]
  rfl

theorem next_granted_nil (none : (s.output i).valid = false) (gnt : (s.output i).gnt = false) :
    (s.next i).bus.log.granted = s.bus.log.granted := by
  rw [next_granted none, gnt]
  exact List.append_nil _

/-- Nothing waits where nothing is asked. -/
theorem next_pending_none (done : (s.busInput i).req = false ∨ (s.output i).gnt = true) :
    (s.next i).bus.pending = none := by
  show (if ((s.busInput i).req && !(s.output i).gnt) = true then _ else none) = none
  rw [if_neg]
  rcases done with done | done
  · rw [done, Bool.false_and]
    exact Bool.false_ne_true
  · rw [done, Bool.not_true, Bool.and_false]
    exact Bool.false_ne_true

theorem next_mem (none : (s.output i).valid = false) : (s.next i).mem = s.mem := by
  show (if ((s.output i).valid && (s.output i).bReady) = true then _ else s.mem) = s.mem
  rw [none, Bool.false_and, if_neg Bool.false_ne_true]

/-- The address that the machine gives back is its own until the response. -/
theorem sbaAddress_quiet (state : SbaState) (si : SbaInput) :
    sbaAddress state si false = si.sbaddress := by
  rw [sbaAddress, Bool.and_false, Bool.false_and]
  rfl

end Machine

section Trigger

/-- The registers of the address and of the data. -/
theorem writes_sbAddress0 (c : Csrs nrHarts) (busy sbbusy : Bool) {r : DmiReq}
    (register : decode r.addr = .sbAddress0) :
    (c.writes busy sbbusy r).sbaddr = setWord c.sbaddr 0 r.data ∧
      (c.writes busy sbbusy r).sbdata = c.sbdata := by
  unfold Csrs.writes
  rw [register]
  exact ⟨rfl, rfl⟩

theorem writes_sbData0 (c : Csrs nrHarts) (busy sbbusy : Bool) {r : DmiReq}
    (register : decode r.addr = .sbData0) :
    (c.writes busy sbbusy r).sbaddr = c.sbaddr ∧
      (c.writes busy sbbusy r).sbdata = setWord c.sbdata 0 r.data := by
  unfold Csrs.writes
  rw [register]
  exact ⟨rfl, rfl⟩

theorem next_registers (on : s.csrs.dmcontrol.dmactive = true) (none : (s.output i).valid = false) :
    (s.next i).csrs.sbaddr =
        (s.csrs.access i.fromMem.cmdbusy (sbaBusy s.sba) i.request).sbaddr ∧
      (s.next i).csrs.sbdata =
        (s.csrs.access i.fromMem.cmdbusy (sbaBusy s.sba) i.request).sbdata := by
  have same : s.csrs.addressed (s.csrsInput i) = s.csrs := by
    show ({ s.csrs with sbaddr := sbaAddress s.sba (s.sbaInput i) (s.output i).valid } :
      Csrs nrHarts) = s.csrs
    rw [none, sbaAddress_quiet]
    rfl
  have after : (s.next i).csrs = s.csrs.next i.fromMem (s.csrsInput i) i.request := rfl
  rw [after, next_eq_update on]
  have access : s.csrs.access i.fromMem.cmdbusy (sbaBusy s.sba) i.request =
      (s.csrs.addressed (s.csrsInput i)).access i.fromMem.cmdbusy (sbaBusy s.sba) i.request := by
    rw [same]
  rw [access]
  refine ⟨rfl, ?_⟩
  show (if (s.output i).valid = true then _
    else ((s.csrs.addressed (s.csrsInput i)).access i.fromMem.cmdbusy (sbaBusy s.sba)
      i.request).sbdata) = _
  rw [none, if_neg Bool.false_ne_true]

/-- A trigger leaves the address and the data of its access in the registers. -/
theorem trigger_registers {j : Job} (on : s.csrs.dmcontrol.dmactive = true)
    (none : (s.output i).valid = false) (trigger : s.trigger i = some j) :
    (s.next i).csrs.sbaddr = j.addr ∧ (s.next i).csrs.sbdata = j.data := by
  obtain ⟨addr, data⟩ := next_registers on none
  rw [addr, data]
  rw [System.trigger] at trigger
  split at trigger
  · cases trigger
  · cases request : i.request with
    | none =>
        rw [request] at trigger
        cases trigger
    | some r =>
        rw [request, Option.bind_some] at trigger
        split at trigger
        · next asked =>
            obtain ⟨op, register, -⟩ := asked
            cases trigger
            have reads : ¬r.op = dtmRead := by
              rw [op]
              exact Nat.ne_of_beq_eq_false rfl ∘ congrArg BitVec.toNat
            rw [Csrs.access, if_neg reads, if_pos op]
            exact writes_sbAddress0 s.csrs _ _ register
        · split at trigger
          · next asked =>
              obtain ⟨op, register⟩ := asked
              cases trigger
              have reads : ¬r.op = dtmRead := by
                rw [op]
                exact Nat.ne_of_beq_eq_false rfl ∘ congrArg BitVec.toNat
              rw [Csrs.access, if_neg reads, if_pos op]
              exact writes_sbData0 s.csrs _ _ register
          · split at trigger
            · next asked =>
                obtain ⟨op, -⟩ := asked
                cases trigger
                rw [Csrs.access, if_pos op, reads_eq]
                split <;> exact ⟨rfl, rfl⟩
            · cases trigger

theorem idle_next (state : s.sba = .idle) (job : s.job = none) (gnt valid : Bool) :
    sbaNext s.sba (s.sbaInput i) gnt valid =
      match s.trigger i with
      | none => .idle
      | some j => if j.we then .write else .read := by
  rw [state]
  unfold sbaNext
  rw [sbaTooLarge_eq, if_neg Bool.false_ne_true, System.trigger, job]
  cases fine : s.fine with
  | false => simp [System.sbaInput, fine]
  | true =>
      cases request : i.request with
      | none => simp [System.sbaInput, System.accessed, request]
      | some r =>
          simp only [System.sbaInput, System.accessed, request, fine]
          by_cases writes : r.op = dtmWrite
          · have reads : (r.op == dtmRead) = false := by
              rw [writes]
              rfl
            cases register : decode r.addr <;> cases s.csrs.sbcs.sbreadonaddr <;>
              simp [writes, register, dtmRead, dtmWrite]
          · by_cases reads : r.op = dtmRead
            · cases register : decode r.addr <;> cases s.csrs.sbcs.sbreadondata <;>
                simp [reads, register, dtmRead, dtmWrite]
            · simp [writes, reads]

end Trigger

section Busy

variable {j : Job}

theorem asking_next (state : s.sba = if j.we then .write else .read) (gnt valid : Bool) :
    sbaNext s.sba (s.sbaInput i) gnt valid =
      if gnt then if j.we then .waitWrite else .waitRead else s.sba := by
  rw [state]
  cases j.we <;> rfl

theorem waiting_next (state : s.sba = if j.we then .waitWrite else .waitRead) (gnt valid : Bool) :
    sbaNext s.sba (s.sbaInput i) gnt valid = if valid then .idle else s.sba := by
  rw [state]
  cases j.we <;> rfl

theorem waiting_address (state : s.sba = if j.we then .waitWrite else .waitRead)
    (holds : Holds s j) (valid : Bool) :
    sbaAddress s.sba (s.sbaInput i) valid =
      if valid && s.csrs.sbcs.sbautoincrement then j.addr + 1 else j.addr := by
  rw [sbaAddress, state, ← holds.addr]
  cases j.we <;> cases valid <;> rfl

theorem Environment.harmless (environment : Environment s i) (condition : Condition s i)
    (busy : s.job.isSome = true) : Harmless i.request :=
  ⟨condition.quiet busy, environment.active⟩

/-- The registers of a busy bus. -/
theorem busy_registers (on : s.csrs.dmcontrol.dmactive = true) (harmless : Harmless i.request) :
    (s.next i).csrs.sbaddr = sbaAddress s.sba (s.sbaInput i) (s.output i).valid ∧
      (s.next i).csrs.sbdata =
        if (s.output i).valid then (s.output i).rdata (firstLane sbaPort) else s.csrs.sbdata :=
  have after := update_harmless (i := s.csrsInput i) (m := i.fromMem) on harmless
  ⟨after.1, after.2.1⟩

theorem busy_refused (on : s.csrs.dmcontrol.dmactive = true) (harmless : Harmless i.request)
    (busy : sbaBusy s.sba = true) {r : DmiReq} (request : i.request = some r)
    (bus : (decode r.addr).systemBus = true) (op : r.op = dtmRead ∨ r.op = dtmWrite) :
    (s.next i).csrs.sbcs = { s.csrs.sbcs with sbbusyerror := true, sbbusy := true } := by
  have after := (update_harmless (i := s.csrsInput i) (m := i.fromMem) on harmless).2.2
    (sbaTooLarge_eq (s := s) (i := i) s.sba)
  have reads : r.op = dtmRead := by
    rcases op with op | op
    · exact op
    · have other := harmless.quiet r request op
      rw [bus] at other
      cases other
  have marks : readsBus i.request = true := by
    rw [readsBus, request, Option.any_some, reads, bus]
    rfl
  have busy : (s.csrsInput i).sbbusy = true := busy
  rw [marks, busy] at after
  exact after

/-- The address at which a byte is accessed is the only one. -/
theorem offset_lt_one (a addr : BitVec 64) : (a - addr).toNat < 2 ^ 0 ↔ a = addr := by
  constructor
  · intro inside
    have zero : a - addr = 0#64 := by
      apply BitVec.eq_of_toNat_eq
      rw [BitVec.toNat_ofNat]
      omega
    have back : a - addr + addr = a := BitVec.sub_add_cancel a addr
    rw [zero, BitVec.zero_add] at back
    exact back.symm
  · rintro rfl
    rw [BitVec.sub_self]
    exact Nat.one_pos

theorem strobe_byte (a addr : BitVec 64) :
    (1#8 <<< byteOf addr).getLsbD (byteOf a) = decide (byteOf a = byteOf addr) := by
  have first := AxiAdapter.byteOf_lt a
  have second := AxiAdapter.byteOf_lt addr
  rw [BitVec.getLsbD_shiftLeft, BitVec.getLsbD_one, decide_eq_true first]
  by_cases same : byteOf a = byteOf addr
  · rw [same, Nat.sub_self, decide_eq_false (Nat.lt_irrefl _),
      decide_eq_true (rfl : byteOf addr = byteOf addr)]
    rfl
  · by_cases below : byteOf a < byteOf addr
    · rw [decide_eq_true below, decide_eq_false same]
      rfl
    · rw [decide_eq_false (show ¬byteOf a - byteOf addr = 0 by omega), decide_eq_false same,
        Bool.and_false, Bool.and_false]

theorem waiting_done (inv : Inv s) (contract : AxiAdapter.Contract s.bus (s.busInput i))
    (harmless : Harmless i.request) (state : s.sba = if j.we then .waitWrite else .waitRead)
    (holds : Holds s j) (granted : s.bus.log.granted = [j.request])
    (valid : (s.output i).valid = true) : Done s i j := by
  obtain ⟨r, record, -, law⟩ := (inv.phase.step (Nat.zero_le 8) contract).1.response valid
  obtain ⟨r', granted', bReady⟩ := inv.phase.responds contract valid
  have gnt : (s.output i).gnt = false := AxiAdapter.gnt_of_valid valid
  have same : r = j.request := by
    have record : s.bus.log.granted ++ (if (s.output i).gnt = true then _ else _) = [r] := record
    rw [granted, gnt, if_neg Bool.false_ne_true, List.append_nil, List.cons.injEq] at record
    exact record.1.symm
  have same' : r' = j.request := by
    rw [granted, List.cons.injEq] at granted'
    exact granted'.1.symm
  subst same same'
  have bReady : (s.output i).bReady = j.we := bReady
  have size : j.size.toNat = 0 := congrArg BitVec.toNat holds.size
  obtain ⟨address, data⟩ := busy_registers inv.on harmless
  have mem : (s.next i).mem =
      if j.we then (s.bus.record (s.busInput i)).commit s.mem else s.mem := by
    show (if ((s.output i).valid && (s.output i).bReady) = true then _ else s.mem) = _
    rw [valid, bReady, Bool.true_and]
  rw [valid, if_pos rfl] at data
  have lanes := holds.lanes
  cases we : j.we with
  | true =>
      rw [Job.Lanes, we, if_pos rfl] at lanes
      have written : AxiAdapter.Written j.request (s.bus.record (s.busInput i)) := by
        have law := law
        rw [show j.request.we = true from we] at law
        exact law
      refine ⟨⟨j.request, record, ?_, ?_, rfl, rfl, rfl, size.symm⟩, ?_, ?_, ?_⟩
      · rw [we]
        exact written.aws
      · rw [we]
        exact written.ars
      · intro a
        rw [mem, we, if_pos rfl, written.commit_byte rfl, size]
        have strobe : j.request.be (firstLane sbaPort) = 1#8 <<< byteOf j.addr := by
          show (if j.we = true then _ else _) = _
          rw [if_pos we]
          rfl
        rw [strobe, strobe_byte]
        by_cases here : a = j.addr
        · subst here
          rw [if_pos ⟨rfl, decide_eq_true rfl⟩, if_pos ⟨rfl, (offset_lt_one _ _).mpr rfl⟩,
            BitVec.sub_self]
          exact lanes
        · rw [if_neg, if_neg fun both => here ((offset_lt_one _ _).mp both.2)]
          rintro ⟨word, byte⟩
          exact here ((AxiAdapter.addr_eq_iff _ _).mpr ⟨word, of_decide_eq_true byte⟩)
      · intro reads
        rw [we] at reads
        cases reads
      · rw [address, valid, waiting_address state holds, size, Bool.true_and]
        rfl
  | false =>
      rw [Job.Lanes, we, if_neg Bool.false_ne_true] at lanes
      have returned : AxiAdapter.Returned j.request (s.bus.record (s.busInput i))
          (s.output i).rdata := by
        have law := law
        rw [show j.request.we = false from we] at law
        exact law
      have served : (s.bus.record (s.busInput i)).ReadFrom s.mem :=
        inv.phase.readFrom_record inv.served rfl
      refine ⟨⟨j.request, record, ?_, ?_, rfl, rfl, rfl, size.symm⟩, ?_, ?_, ?_⟩
      · rw [we]
        exact returned.aws
      · rw [we]
        exact returned.ars
      · intro a
        rw [mem, we, if_neg Bool.false_ne_true, if_neg fun both => Bool.false_ne_true both.1]
      · intro _ k inside
        have first : k = 0 := by
          rw [size] at inside
          omega
        subst first
        rw [data, returned.single_word rfl served, BitVec.add_zero, lanes]
        rfl
      · rw [address, valid, waiting_address state holds, size, Bool.true_and]
        rfl

end Busy

end Ariane.Dm
