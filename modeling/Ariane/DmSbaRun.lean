import Ariane.DmSbaStep

set_option autoImplicit false

/- Every access that the debugger triggers is done as it was asked for, as long as it stays within
what works. -/
namespace Ariane.Dm

open AxiAdapter (Params Request Bench Memory Phase firstLane byteAt byteOf wordOf)
open Rtl (Machine)

variable {nrHarts : Nat}

section Step

variable {s : System nrHarts} {i : SystemInput nrHarts}

theorem Inv.bus (inv : Inv s) (environment : Environment s i) :
    Phase (s.next i).bus ∧ (s.next i).bus.log.ReadFrom (s.next i).mem := by
  have contract := inv.stage.contract environment.slave
  refine ⟨(inv.phase.step (Nat.zero_le 8) contract).2, ?_⟩
  cases valid : (s.output i).valid with
  | true =>
      have log : (s.next i).bus.log = {} := AxiAdapter.next_log_of_valid valid
      rw [log]
      intro a none
      cases none
  | false =>
      rw [next_mem valid]
      exact inv.phase.readFrom_next inv.served rfl

theorem idle_step (inv : Inv s) (environment : Environment s i) (condition : Condition s i)
    (state : s.sba = .idle) (job : s.job = none) (granted : s.bus.log.granted = [])
    (pending : s.bus.pending = none) : Law s i ∧ Stage (s.next i) := by
  have contract := (Stage.idle state job granted pending).contract environment.slave
  have law := (inv.phase.step (Nat.zero_le 8) contract).1
  have valid := quiet_valid law granted
  have req : (s.busInput i).req = false := by
    rw [sbaReq_eq, state]
    rfl
  have gnt := quiet_gnt law req
  have after := next_granted_nil valid gnt
  have idle : (s.next i).bus.pending = none := next_pending_none (.inl req)
  have sba : (s.next i).sba = _ := idle_next state job _ _
  have next : (s.next i).job = s.trigger i := by
    show (if (s.output i).valid = true then none else (s.trigger i).or s.job) = _
    rw [valid, job, Option.or_none]
    rfl
  constructor
  · refine ⟨?_, ?_, ?_, ?_, fun _ => next_mem valid, ?_⟩
    · rw [state, job]
      rfl
    · intro j trigger
      exact ⟨next.trans trigger, trigger_registers inv.on valid trigger⟩
    · intro j held
      rw [job] at held
      cases held
    · intro ends
      exact absurd (valid.symm.trans ends) Bool.false_ne_true
    · intro busy
      rw [job] at busy
      cases busy
  · cases trigger : s.trigger i with
    | none =>
        rw [trigger] at sba next
        exact .idle sba next (after.trans granted) idle
    | some j =>
        rw [trigger] at sba next
        obtain ⟨addr, data⟩ := trigger_registers inv.on valid trigger
        obtain ⟨size, lanes⟩ := condition.bytes j trigger
        refine .asking j sba ⟨next, addr, data, size, ?_⟩ (after.trans granted) (.inl idle)
        rw [next_mem valid]
        exact lanes

/-- The registers and the job of a busy bus stay until the response. -/
theorem busy_step {j : Job} (inv : Inv s) (environment : Environment s i)
    (condition : Condition s i) (holds : Holds s j) (busy : sbaBusy s.sba = true) :
    sbaBusy s.sba = s.job.isSome ∧ s.trigger i = none ∧
      ((s.output i).valid = false → (s.next i).job = some j ∧ (s.next i).mem = s.mem ∧
        (s.next i).csrs.sbaddr = j.addr ∧ (s.next i).csrs.sbdata = j.data) ∧
      ∀ r, i.request = some r → (decode r.addr).systemBus = true →
        r.op = dtmRead ∨ r.op = dtmWrite →
        (s.next i).csrs.sbcs = { s.csrs.sbcs with sbbusyerror := true, sbbusy := true } := by
  have some : s.job.isSome = true := by
    rw [holds.job]
    rfl
  have harmless := environment.harmless condition some
  have none : s.trigger i = none := by
    rw [System.trigger, some]
    rfl
  refine ⟨busy.trans some.symm, none, ?_, ?_⟩
  · intro waits
    obtain ⟨addr, data⟩ := busy_registers inv.on harmless
    refine ⟨?_, next_mem waits, ?_, ?_⟩
    · show (if (s.output i).valid = true then Option.none else (s.trigger i).or s.job) = _
      rw [waits, none]
      exact holds.job
    · rw [addr, waits, sbaAddress_quiet]
      exact holds.addr
    · rw [data, waits]
      exact holds.data
  · intro r request bus op
    exact busy_refused inv.on harmless busy request bus op

theorem Holds.next {j : Job} (holds : Holds s j)
    (after : (s.next i).job = some j ∧ (s.next i).mem = s.mem ∧
      (s.next i).csrs.sbaddr = j.addr ∧ (s.next i).csrs.sbdata = j.data) : Holds (s.next i) j := by
  obtain ⟨job, mem, addr, data⟩ := after
  refine ⟨job, addr, data, holds.size, ?_⟩
  rw [mem]
  exact holds.lanes

/-- The law of a cycle with a job. -/
theorem law_of_job {j : Job} (job : s.job = some j) (busy : sbaBusy s.sba = s.job.isSome)
    (none : s.trigger i = none)
    (running : (s.output i).valid = false → (s.next i).job = some j ∧ (s.next i).mem = s.mem ∧
      (s.next i).csrs.sbaddr = j.addr ∧ (s.next i).csrs.sbdata = j.data)
    (done : (s.output i).valid = true → Done s i j)
    (refused : ∀ r, i.request = some r → (decode r.addr).systemBus = true →
      r.op = dtmRead ∨ r.op = dtmWrite →
      (s.next i).csrs.sbcs = { s.csrs.sbcs with sbbusyerror := true, sbbusy := true }) :
    Law s i := by
  refine ⟨busy, ?_, ?_, ?_, ?_, fun _ => refused⟩
  · intro j' trigger
    rw [none] at trigger
    cases trigger
  · intro j' held waits
    rw [job, Option.some.injEq] at held
    subst held
    exact running waits
  · intro ends
    refine ⟨j, job, ?_, done ends⟩
    show (if (s.output i).valid = true then Option.none else _) = _
    rw [ends, if_pos rfl]
  · intro missing
    rw [job] at missing
    cases missing

theorem asking_step {j : Job} (inv : Inv s) (environment : Environment s i)
    (condition : Condition s i) (state : s.sba = if j.we then .write else .read)
    (holds : Holds s j) (granted : s.bus.log.granted = [])
    (pending : s.bus.pending = none ∨ s.bus.pending = some j.request) :
    Law s i ∧ Stage (s.next i) := by
  have contract := (Stage.asking j state holds granted pending).contract environment.slave
  have law := (inv.phase.step (Nat.zero_le 8) contract).1
  have valid := quiet_valid law granted
  have busy : sbaBusy s.sba = true := by
    rw [state]
    cases j.we <;> rfl
  obtain ⟨same, none, running, refused⟩ := busy_step inv environment condition holds busy
  have request : (s.busInput i).request = j.request := sbaRequest_eq state holds
  have req : (s.busInput i).req = true := by
    rw [sbaReq_eq, state]
    cases j.we <;> rfl
  have after := next_granted (i := i) valid
  have sba : (s.next i).sba = _ := asking_next state _ _
  have kept := holds.next (running valid)
  constructor
  · exact law_of_job holds.job same none running
      (fun ends => absurd (valid.symm.trans ends) Bool.false_ne_true) refused
  · cases gnt : (s.output i).gnt with
    | true =>
        rw [gnt, if_pos rfl] at sba after
        rw [granted, request] at after
        exact .waiting j sba kept after (next_pending_none (.inr gnt))
    | false =>
        rw [gnt, if_neg Bool.false_ne_true] at sba
        refine .asking j (sba.trans state) kept ((next_granted_nil valid gnt).trans granted)
          (.inr ?_)
        exact AxiAdapter.next_pending req request gnt

theorem waiting_step {j : Job} (inv : Inv s) (environment : Environment s i)
    (condition : Condition s i) (state : s.sba = if j.we then .waitWrite else .waitRead)
    (holds : Holds s j) (granted : s.bus.log.granted = [j.request])
    (pending : s.bus.pending = none) : Law s i ∧ Stage (s.next i) := by
  have contract := (Stage.waiting j state holds granted pending).contract environment.slave
  have law := (inv.phase.step (Nat.zero_le 8) contract).1
  have busy : sbaBusy s.sba = true := by
    rw [state]
    cases j.we <;> rfl
  obtain ⟨same, none, running, refused⟩ := busy_step inv environment condition holds busy
  have req : (s.busInput i).req = false := by
    rw [sbaReq_eq, state]
    cases j.we <;> rfl
  have gnt := quiet_gnt law req
  have some : s.job.isSome = true := by
    rw [holds.job]
    rfl
  have harmless := environment.harmless condition some
  have quiet : (s.next i).bus.pending = Option.none := next_pending_none (.inl req)
  have sba : (s.next i).sba = _ := waiting_next state _ _
  have law : Law s i := law_of_job holds.job same none running
    (waiting_done inv contract harmless state holds granted) refused
  refine ⟨law, ?_⟩
  cases valid : (s.output i).valid with
  | true =>
      rw [valid, if_pos rfl] at sba
      obtain ⟨-, -, job, -⟩ := law.done valid
      refine .idle sba job ?_ quiet
      show ((s.bus.next (s.busInput i)).log).granted = []
      rw [AxiAdapter.next_log_of_valid valid]
  | false =>
      rw [valid, if_neg Bool.false_ne_true] at sba
      exact .waiting j (sba.trans state) (holds.next (running valid))
        ((next_granted_nil valid gnt).trans granted) quiet

theorem Inv.step (inv : Inv s) (environment : Environment s i) (condition : Condition s i) :
    Law s i ∧ Inv (s.next i) := by
  have stage : Law s i ∧ Stage (s.next i) := by
    cases inv.stage with
    | idle state job granted pending =>
        exact idle_step inv environment condition state job granted pending
    | asking j state holds granted pending =>
        exact asking_step inv environment condition state holds granted pending
    | waiting j state holds granted pending =>
        exact waiting_step inv environment condition state holds granted pending
  obtain ⟨phase, served⟩ := inv.bus environment
  exact ⟨stage.1, update_active inv.on environment.active, phase, served, stage.2⟩

/-- Without an access the adapter waits for nothing. -/
theorem Inv.quiet_bus (inv : Inv s) (none : s.job = none) :
    (s.output i).bReady = false ∧ (s.output i).arValid = false ∧ (s.output i).rReady = false := by
  have stage : s.sba = .idle ∧ s.bus.log.granted = [] ∧ s.bus.pending = Option.none := by
    cases inv.stage with
    | idle state job granted pending => exact ⟨state, granted, pending⟩
    | asking j state holds granted pending =>
        rw [holds.job] at none
        cases none
    | waiting j state holds granted pending =>
        rw [holds.job] at none
        cases none
  obtain ⟨state, granted, pending⟩ := stage
  have req : (s.busInput i).req = false := by
    rw [sbaReq_eq, state]
    rfl
  cases inv.phase with
  | idle idle =>
      show (AxiAdapter.axiFsm s.bus.regs (s.busInput i)).bReady = false ∧
        (AxiAdapter.axiFsm s.bus.regs (s.busInput i)).arValid = false ∧
        (AxiAdapter.axiFsm s.bus.regs (s.busInput i)).rReady = false
      rw [AxiAdapter.axiFsm, idle.state]
      dsimp only
      rw [req, if_neg Bool.false_ne_true]
      exact ⟨rfl, rfl, rfl⟩
  | write r sent k write =>
      -- it would wait for its grant, or have it
      have all : AxiAdapter.allSent r sent k = true := by
        apply write.sending.waits_iff.mp
        apply Classical.byContradiction
        intro busy
        have held := write.pending busy
        rw [pending] at held
        cases held
      have log := write.log.granted
      rw [granted, if_pos all] at log
      cases log
  | read r read =>
      have log := read.log.granted
      rw [granted] at log
      cases log
  | complete r done =>
      have log := done.log.granted
      rw [granted] at log
      cases log

end Step

section Runs

/-- The debug module is active and no access is asked for. -/
structure Ready (start : System nrHarts) : Prop where
  on : start.csrs.dmcontrol.dmactive = true
  sba : start.sba = .idle
  bus : start.bus = {}
  job : start.job = none

theorem Ready.inv {start : System nrHarts} (ready : Ready start) : Inv start := by
  have phase : Phase start.bus := by
    rw [ready.bus]
    exact .idle ⟨rfl, rfl⟩
  have served : start.bus.log.ReadFrom start.mem := by
    rw [ready.bus]
    intro a none
    cases none
  refine ⟨ready.on, phase, served, .idle ready.sba ready.job ?_ ?_⟩
  · rw [ready.bus]
  · rw [ready.bus]

def System.machine (start : System nrHarts) : Machine (System nrHarts) (SystemInput nrHarts) :=
  ⟨start, System.next⟩

variable (start : System nrHarts) (inputs : Nat → SystemInput nrHarts)

/-- The system before cycle `t`. -/
def systemAt (t : Nat) : System nrHarts := start.machine.stateAt start inputs t

/-- What the adapter sees in cycle `t`. -/
def busInputs (t : Nat) : AxiAdapter.Input sbaPort := (systemAt start inputs t).busInput (inputs t)

/-- The response of the adapter in cycle `t`. -/
def responds (t : Nat) : Bool := ((systemAt start inputs t).output (inputs t)).valid

variable {start inputs}

theorem inv_run (ready : Ready start)
    (environment : ∀ t, Environment (systemAt start inputs t) (inputs t))
    (condition : ∀ t, Condition (systemAt start inputs t) (inputs t)) (t : Nat) :
    Inv (systemAt start inputs t) := by
  induction t with
  | zero => exact ready.inv
  | succ t ih => exact (ih.step (environment t) (condition t)).2

theorem bus_run (ready : Ready start) (t : Nat) :
    (systemAt start inputs t).bus = AxiAdapter.states (busInputs start inputs) t := by
  induction t with
  | zero => exact ready.bus
  | succ t ih =>
      show (systemAt start inputs t).bus.next (busInputs start inputs t) = _
      rw [ih]
      rfl

theorem responds_eq (ready : Ready start) (t : Nat) :
    responds start inputs t = (AxiAdapter.outputAt (busInputs start inputs) t).valid := by
  rw [AxiAdapter.outputAt, ← bus_run ready]
  rfl

/-- An access that was asked for is there until its response. -/
theorem job_ends (ready : Ready start)
    (environment : ∀ t, Environment (systemAt start inputs t) (inputs t))
    (condition : ∀ t, Condition (systemAt start inputs t) (inputs t))
    (answers : AxiAdapter.Answers (busInputs start inputs)) {t : Nat} {j : Job}
    (job : (systemAt start inputs t).job = some j) :
    ∃ u, t ≤ u ∧ responds start inputs u = true ∧ (systemAt start inputs u).job = some j ∧
      ∀ v, t ≤ v → v < u → responds start inputs v = false := by
  have inv := inv_run ready environment condition
  have legal : AxiAdapter.Legal (busInputs start inputs) := by
    intro t
    rw [← bus_run ready]
    exact (inv t).stage.contract (environment t).slave
  have busy : (busInputs start inputs t).req = true ∨
      (AxiAdapter.states (busInputs start inputs) t).log.granted ≠ [] := by
    rw [← bus_run ready]
    cases (inv t).stage with
    | idle state none granted pending =>
        rw [job] at none
        cases none
    | asking j' state holds granted pending =>
        left
        show ((systemAt start inputs t).busInput (inputs t)).req = true
        rw [sbaReq_eq, state]
        cases j'.we <;> rfl
    | waiting j' state holds granted pending =>
        right
        rw [granted]
        exact List.cons_ne_nil _ _
  obtain ⟨u, later, valid⟩ := AxiAdapter.responds (Nat.zero_le 8) legal answers busy
  have fires : responds start inputs u = true := (responds_eq ready u).trans valid
  obtain ⟨w, after, ⟨still, silent⟩, ends⟩ := @Machine.wait_until
    (fun v => responds start inputs v = true)
    (fun v => (systemAt start inputs v).job = some j ∧
      ∀ w, t ≤ w → w < v → responds start inputs w = false) t u
    ⟨job, fun w first last => absurd first (by omega)⟩ later fires (by
      rintro v - ⟨still, silent⟩ none
      have waits := Bool.eq_false_iff.mpr none
      obtain ⟨law, -⟩ := (inv v).step (environment v) (condition v)
      refine ⟨(law.running j still waits).1, fun w first last => ?_⟩
      by_cases now : w = v
      · rw [now]
        exact waits
      · exact silent w first (by omega))
  exact ⟨w, after, ends, still, silent⟩

/-- In every run that stays within what works, every cycle follows the law, and every trigger has its
one response where the slave answers. -/
theorem accesses_done (ready : Ready start)
    (environment : ∀ t, Environment (systemAt start inputs t) (inputs t))
    (condition : ∀ t, Condition (systemAt start inputs t) (inputs t)) :
    (∀ t, Law (systemAt start inputs t) (inputs t)) ∧
      (AxiAdapter.Answers (busInputs start inputs) → ∀ t j,
        (systemAt start inputs t).trigger (inputs t) = some j →
        ∃ u, t < u ∧ responds start inputs u = true ∧ (systemAt start inputs u).job = some j ∧
          ∀ v, t < v → v < u → responds start inputs v = false) := by
  have step := fun t =>
    (inv_run ready environment condition t).step (environment t) (condition t)
  refine ⟨fun t => (step t).1, fun answers t j trigger => ?_⟩
  have job : (systemAt start inputs (t + 1)).job = some j := ((step t).1.started j trigger).1
  obtain ⟨u, later, ends, still, silent⟩ := job_ends ready environment condition answers job
  exact ⟨u, later, ends, still, silent⟩

end Runs

section Store

/-- The module is active, and the memory is empty. -/
def active : System 1 where
  csrs := { dmcontrol := { dmactive := true } }
  mem := fun _ => 0

theorem active_ready : Ready active := ⟨rfl, rfl, rfl, rfl⟩

/-- A store of four bytes at address 0, to a slave that is always ready. `sbcs` is written first,
with four bytes as the size or with one. -/
def storeRun (word : Bool) (t : Nat) : SystemInput 1 where
  request :=
    if t = 0 then some ⟨0x38, dtmWrite, if word then 0x40000 else 0⟩
    else if t = 1 then some ⟨0x3C, dtmWrite, 0x04030201⟩
    else none
  awReady := true
  wReady := true
  bValid := decide (t = 3)

/-- The store asks for nothing after its trigger, and gets one response. -/
theorem storeRun_request (word : Bool) (t : Nat) (later : 2 ≤ t) :
    (storeRun word t).request = none := by
  rw [storeRun, if_neg (by omega), if_neg (by omega)]

theorem storeRun_environment (word : Bool) (t : Nat) :
    Environment (systemAt active (storeRun word) t) (storeRun word t) := by
  constructor
  · refine ⟨fun answer => ?_, Bool.noConfusion⟩
    have third : t = 3 := of_decide_eq_true answer
    subst third
    cases word
    · exact ⟨_, rfl, rfl⟩
    · exact ⟨_, rfl, rfl⟩
  · intro r request writes register
    have early : t = 0 ∨ t = 1 ∨ 2 ≤ t := by omega
    rcases early with rfl | rfl | later
    · cases request
      exact absurd (show decode 0x38 = .dmControl from register) (by decide)
    · cases request
      exact absurd (show decode 0x3C = .dmControl from register) (by decide)
    · rw [storeRun_request word t later] at request
      cases request

/-- One byte of the four is stored. -/
theorem word_cut_short : Ready active ∧
    (∀ t, Environment (systemAt active (storeRun true) t) (storeRun true t)) ∧
    ¬∀ t, Law (systemAt active (storeRun true) t) (storeRun true t) := by
  refine ⟨active_ready, storeRun_environment true, fun law => ?_⟩
  obtain ⟨j, job, -, done⟩ := (law 3).done (by decide)
  have store := done.store 1
  have asked : (systemAt active (storeRun true) 3).job = some ⟨true, 0, 0x04030201, 2⟩ := by
    decide +kernel
  rw [asked, Option.some.injEq] at job
  subst job
  exact absurd store (by decide +kernel)

theorem storeRun_trigger (word : Bool) {t : Nat} (later : 2 ≤ t) :
    (systemAt active (storeRun word) t).trigger (storeRun word t) = none := by
  rw [System.trigger, storeRun_request word t later]
  split <;> rfl

theorem storeRun_asked : (systemAt active (storeRun false) 1).trigger (storeRun false 1) =
    some ⟨true, 0, 0x04030201, 0⟩ := by
  decide +kernel

theorem storeRun_condition (t : Nat) :
    Condition (systemAt active (storeRun false) t) (storeRun false t) := by
  have early : t = 0 ∨ t = 1 ∨ 2 ≤ t := by omega
  constructor
  · intro j trigger
    rcases early with rfl | rfl | later
    · have none : (systemAt active (storeRun false) 0).trigger (storeRun false 0) = none := by
        decide
      rw [none] at trigger
      cases trigger
    · rw [storeRun_asked, Option.some.injEq] at trigger
      subst trigger
      exact ⟨rfl, rfl⟩
    · rw [storeRun_trigger false later] at trigger
      cases trigger
  · intro busy r request
    rcases early with rfl | rfl | later
    · cases busy
    · exact absurd busy (by decide)
    · rw [storeRun_request false t later] at request
      cases request

/-- After the response there is no access. -/
theorem storeRun_job (t : Nat) : (systemAt active (storeRun false) (t + 4)).job = none := by
  induction t with
  | zero => decide
  | succ t ih =>
      show (if _ then none else
        ((systemAt active (storeRun false) (t + 4)).trigger (storeRun false (t + 4))).or
          (systemAt active (storeRun false) (t + 4)).job) = none
      rw [ih, storeRun_trigger false (by omega)]
      split <;> rfl

/-- A store has no use for the read channel, and waits for its response in cycle 3. -/
theorem storeRun_output (t : Nat) :
    (((systemAt active (storeRun false) t).output (storeRun false t)).bReady = true → t = 3) ∧
      ((systemAt active (storeRun false) t).output (storeRun false t)).arValid = false ∧
      ((systemAt active (storeRun false) t).output (storeRun false t)).rReady = false := by
  have early : t = 0 ∨ t = 1 ∨ t = 2 ∨ t = 3 ∨ 4 ≤ t := by omega
  rcases early with rfl | rfl | rfl | rfl | later
  · decide
  · decide
  · decide
  · decide
  · obtain ⟨d, rfl⟩ := Nat.exists_eq_add_of_le' later
    obtain ⟨b, ar, r⟩ := (inv_run active_ready (storeRun_environment false) storeRun_condition
      (d + 4)).quiet_bus (i := storeRun false (d + 4)) (storeRun_job d)
    exact ⟨fun waits => absurd (b.symm.trans waits) Bool.false_ne_true, ar, r⟩

theorem storeRun_answers : AxiAdapter.Answers (busInputs active (storeRun false)) := by
  have bus : ∀ t, AxiAdapter.outputAt (busInputs active (storeRun false)) t =
      (systemAt active (storeRun false) t).output (storeRun false t) := by
    intro t
    rw [AxiAdapter.outputAt, ← bus_run active_ready]
    rfl
  refine ⟨fun t _ => ⟨t, Nat.le_refl t, rfl⟩, fun t _ => ⟨t, Nat.le_refl t, rfl⟩, ?_, ?_, ?_⟩
  · intro t waits
    rw [bus] at waits
    rw [(storeRun_output t).1 waits]
    exact ⟨3, Nat.le_refl 3, rfl⟩
  · intro t asks
    rw [bus] at asks
    exact absurd ((storeRun_output t).2.1.symm.trans asks) Bool.false_ne_true
  · intro t waits
    rw [bus] at waits
    exact absurd ((storeRun_output t).2.2.symm.trans waits) Bool.false_ne_true

/-- The byte is stored. -/
theorem byte_done :
    Law (systemAt active (storeRun false) 3) (storeRun false 3) ∧
      ∃ u, 1 < u ∧ responds active (storeRun false) u = true := by
  obtain ⟨law, ends⟩ :=
    accesses_done active_ready (storeRun_environment false) storeRun_condition
  obtain ⟨u, later, response, -⟩ :=
    ends storeRun_answers 1 ⟨true, 0, 0x04030201, 0⟩ storeRun_asked
  exact ⟨law 3, u, later, response⟩

end Store

end Ariane.Dm
