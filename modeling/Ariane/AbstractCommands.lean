import Ariane.DmMem
import Ariane.Rtl.Machine
import Mathlib.Tactic.MkIffOfInductiveProp

set_option autoImplicit false

/- The errors of abstract commands: `dm_csrs` and `dm_mem` wired as in `dm_top.sv`. -/
namespace Ariane.Dm

open Rtl (Machine Queue)

variable {nrHarts : Nat}

/-- The registers of the debug module with the queue of its responses. -/
structure State (nrHarts : Nat) where
  csrs : Csrs nrHarts := {}
  mem : Mem nrHarts := {}
  responses : Queue (BitVec 32) := ⟨fun _ => 0, 0, 0, 0⟩

structure Input (nrHarts : Nat) where
  csrs : CsrsInput := {}
  mem : MemInput := {}
  unavailable : BitVec nrHarts := 0

/-- `dmi_req_ready_o`. -/
def ready (s : State nrHarts) : Bool := !FifoV3.full 2 s.responses

/-- The request that is taken in this cycle. -/
def request (s : State nrHarts) (i : Input nrHarts) : Option DmiReq :=
  if ready s && i.csrs.dmiReqValid then some i.csrs.dmiReq else none

/-- `cmd_valid_o`. -/
def issued (s : State nrHarts) (i : Input nrHarts) : Bool :=
  (request s i).any (s.csrs.cmdValid s.mem.cmdbusy)

def fromCsrs (s : State nrHarts) (i : Input nrHarts) : FromCsrs nrHarts where
  hartsel := s.csrs.dmcontrol.hartsel
  haltreq := setBit 0 s.csrs.selectedHart s.csrs.dmcontrol.haltreq
  resumereq := setBit 0 s.csrs.selectedHart s.csrs.dmcontrol.resumereq
  cmdValid := issued s i
  cmd := s.csrs.command
  progbuf := s.csrs.progbuf
  data := s.csrs.data

def fromMem (s : State nrHarts) (i : Input nrHarts) : FromMem nrHarts where
  halted := s.mem.halted
  resumeack := s.mem.resuming
  cmdbusy := s.mem.cmdbusy
  cmderrorValid := s.mem.cmderrorValid (fromCsrs s i) i.mem
  cmderror := s.mem.cmderror (fromCsrs s i) i.mem
  data := i.mem.dataBits s.csrs.data
  dataValid := i.mem.dataValid

/-- What the constants of the debug module are. -/
structure Fixed where
  instructions : Instructions
  hartinfo : Nat → BitVec 32

def next (F : Fixed) (s : State nrHarts) (i : Input nrHarts) : State nrHarts where
  csrs := s.csrs.next (fromMem s i) i.csrs (request s i)
  mem := s.mem.next F.instructions (fromCsrs s i) i.mem
  responses :=
    FifoV3.next 2 s.responses
      { data := s.csrs.respQueueData (fromMem s i) F.hartinfo i.unavailable i.csrs.dmiReq
        push := i.csrs.dmiReqValid && ready s
        pop := i.csrs.dmiRespReady && !FifoV3.empty s.responses }

/-- The debug module after reset, cycle by cycle. -/
def debugModule (F : Fixed) (nrHarts : Nat) : Machine (State nrHarts) (Input nrHarts) where
  reset := {}
  next := next F

/-- The same cycle without a request of the debugger. -/
def Input.quiet (i : Input nrHarts) : Input nrHarts :=
  { i with csrs := { i.csrs with dmiReqValid := false } }

/-- The selected hart exists and is halted. -/
def selectedHalted (s : State nrHarts) : Bool :=
  s.mem.halted.getLsbD s.csrs.dmcontrol.hartsel.toNat

/-- A command is with the hart. -/
def executing (s : State nrHarts) : Bool := s.mem.state == .go || s.mem.state == .cmdExecuting

/-- The accesses that a busy debug module refuses. -/
def refusedAccess (r : DmiReq) : Bool :=
  match decode r.addr with
  | .command | .data | .progBuf => r.op == dtmRead || r.op == dtmWrite
  | .abstractCS | .abstractAuto => r.op == dtmWrite
  | _ => false

/-- The value that a busy access leaves in `cmderr`. -/
def busyError (cmderr : BitVec 3) : BitVec 3 := if cmderr = cmdErrNone then cmdErrBusy else cmderr

/-- What may make `cmderr` other than zero, with the error it means. -/
def Fails (F : Fixed) (s : State nrHarts) (i : Input nrHarts) (error : BitVec 3) : Prop :=
  (error = cmdErrBusy ∧ s.mem.cmdbusy = true ∧ (request s i).any refusedAccess = true) ∨
    (error = cmdErrorException ∧ i.mem.exception = true) ∨
    (error = cmdErrorHaltResume ∧ issued s i = true ∧ selectedHalted s = false) ∨
    (error = cmdErrNotSupported ∧ issued s i = true ∧
      unsupportedCommand (next F s i).csrs.command = true)

/-- The debugger clears bits of `cmderr` by writing ones to them. -/
def Clears (s : State nrHarts) (i : Input nrHarts) (error : BitVec 3) : Prop :=
  s.mem.cmdbusy = false ∧ ∃ r ∈ request s i, decode r.addr = .abstractCS ∧ r.op = dtmWrite ∧
    error = clearCmderr s.csrs.cmderr r.data

/-- The protocol in one cycle. -/
structure Protocol (F : Fixed) (s : State nrHarts) (i : Input nrHarts) : Prop where
  starts : executing s = false → executing (next F s i) = true →
    s.mem.cmdbusy = false ∧ selectedHalted s = true ∧ s.csrs.cmderr = cmdErrNone
  refuses : s.mem.cmdbusy = true → (request s i).any refusedAccess = true →
    (next F s i).csrs =
      { (next F s i.quiet).csrs with cmderr := busyError s.csrs.cmderr } ∧
    (next F s i).mem = (next F s i.quiet).mem
  keeps : s.csrs.cmderr ≠ cmdErrNone →
    (next F s i).csrs.cmderr = s.csrs.cmderr ∨ Clears s i (next F s i).csrs.cmderr
  fails : s.csrs.cmderr = cmdErrNone → (next F s i).csrs.cmderr ≠ cmdErrNone →
    Fails F s i (next F s i).csrs.cmderr
  supported : executing s = true → unsupportedCommand s.csrs.command = false

/-- The cycles in which the debug module follows the protocol. -/
@[mk_iff orderly_iff]
structure Orderly (s : State nrHarts) (i : Input nrHarts) : Prop where
  active : s.csrs.dmcontrol.dmactive = false →
    s.csrs.cmderr = cmdErrNone ∧ (s.mem.cmdbusy && (request s i).any refusedAccess) = false
  starts : issued s i = true → s.mem.halted ≠ 0 → s.mem.resumes (fromCsrs s i) = false →
    s.csrs.cmderr = cmdErrNone ∧ selectedHalted s = true
  runs : issued s i = true → s.mem.halted = 0 →
    s.csrs.cmderr = cmdErrNone ∨ s.csrs.cmderr = cmdErrorHaltResume
  accesses : s.mem.cmdbusy = true → s.csrs.cmderr = cmdErrNone →
    ∀ r ∈ request s i, refusedAccess r = true →
      r.op = dtmWrite ∧ decode r.addr ≠ .data ∧ decode r.addr ≠ .progBuf ∧
        i.mem.exception = false
  exceptions : i.mem.exception = true →
    s.csrs.cmderr = cmdErrNone ∨ s.csrs.cmderr = cmdErrorException
  commands : s.csrs.dmcontrol.dmactive = true → s.mem.cmdbusy = false →
    ∀ r ∈ request s i, decode r.addr = .command → r.op = dtmWrite →
      unsupportedCommand r.data = false

section Registers

variable (c : Csrs nrHarts) (sbbusy : Bool) (r : DmiReq)

/-- While a command executes a refused access is an error or nothing at all. -/
theorem access_refused (refused : refusedAccess r = true) :
    c.access true sbbusy (some r) =
      if r.op = dtmWrite ∧ decode r.addr ≠ .data ∧ decode r.addr ≠ .progBuf then c.refused
      else c := by
  by_cases reads : r.op = dtmRead
  · have other : ¬ dtmRead = dtmWrite := by decide
    rw [reads, if_neg (fun marks => other marks.1), Csrs.access, if_pos reads, Csrs.reads]
    cases register : decode r.addr <;> simp_all [refusedAccess]
  · by_cases writes : r.op = dtmWrite
    · simp only [Csrs.access, ↓reduceIte, writes, Csrs.writes, true_and]
      cases register : decode r.addr <;> simp_all [refusedAccess]
    · cases register : decode r.addr <;> simp_all [refusedAccess]

theorem refused_cmderr : c.refused = { c with cmderr := busyError c.cmderr } := by
  rw [Csrs.refused, busyError]
  split <;> simp_all

theorem reads_cmderr : (c.reads sbbusy r).cmderr = c.cmderr := by
  rw [Csrs.reads]
  cases decode r.addr <;> cases sbbusy <;> rfl

theorem reads_command : (c.reads sbbusy r).command = c.command := by
  rw [Csrs.reads]
  cases decode r.addr <;> cases sbbusy <;> rfl

/-- A write leaves the command register, unless it is one to `Command` that is not refused. -/
theorem writes_command (busy : Bool) :
    (c.writes busy sbbusy r).command = c.command ∨
      (busy = false ∧ decode r.addr = .command ∧ (c.writes busy sbbusy r).command = r.data) := by
  have refused : c.refused.command = c.command := by rw [refused_cmderr]
  rw [Csrs.writes]
  cases decode r.addr <;> cases busy <;> simp [refused]

/-- A write leaves `cmderr`, is refused, or clears it. -/
theorem writes_cmderr (busy : Bool) (writes : r.op = dtmWrite) :
    (c.writes busy sbbusy r).cmderr = c.cmderr ∨
      (busy = true ∧ refusedAccess r = true ∧
        (c.writes busy sbbusy r).cmderr = busyError c.cmderr) ∨
      (busy = false ∧ decode r.addr = .abstractCS ∧
        (c.writes busy sbbusy r).cmderr = clearCmderr c.cmderr r.data) := by
  have refused : c.refused.cmderr = busyError c.cmderr := by rw [refused_cmderr]
  rw [Csrs.writes, refusedAccess, writes]
  cases decode r.addr <;> cases busy <;> simp [refused]

end Registers

/-- The command that is stored is one that the debug module carries out. -/
def Supported (s : State nrHarts) : Prop := unsupportedCommand s.csrs.command = false

section Cycle

variable {F : Fixed} {s : State nrHarts} {i : Input nrHarts}

/-- The debugger leaves the command register, or stores a command. -/
theorem access_command (c : Csrs nrHarts) (busy sbbusy : Bool) (req : Option DmiReq) :
    (c.access busy sbbusy req).command = c.command ∨
      ∃ r ∈ req, busy = false ∧ decode r.addr = .command ∧ r.op = dtmWrite ∧
        (c.access busy sbbusy req).command = r.data := by
  cases req with
  | none => exact Or.inl rfl
  | some r =>
      rw [Csrs.access]
      split
      · exact Or.inl (reads_command c sbbusy r)
      · split
        · next writes =>
            rcases writes_command c sbbusy r busy with same | ⟨idle, register, stored⟩
            · exact Or.inl same
            · exact Or.inr ⟨r, rfl, idle, register, writes, stored⟩
        · exact Or.inl rfl

/-- The debugger leaves `cmderr`, is refused, or clears it. -/
theorem access_cmderr (c : Csrs nrHarts) (busy sbbusy : Bool) (req : Option DmiReq) :
    (c.access busy sbbusy req).cmderr = c.cmderr ∨
      (busy = true ∧ req.any refusedAccess = true ∧
        (c.access busy sbbusy req).cmderr = busyError c.cmderr) ∨
      (busy = false ∧ ∃ r ∈ req, decode r.addr = .abstractCS ∧ r.op = dtmWrite ∧
        (c.access busy sbbusy req).cmderr = clearCmderr c.cmderr r.data) := by
  cases req with
  | none => exact Or.inl rfl
  | some r =>
      rw [Csrs.access]
      split
      · exact Or.inl (reads_cmderr c sbbusy r)
      · split
        · next writes =>
            rcases writes_cmderr c sbbusy r busy writes with same | refused | cleared
            · exact Or.inl same
            · exact Or.inr (Or.inl refused)
            · exact Or.inr (Or.inr ⟨cleared.1, r, rfl, cleared.2.1, writes, cleared.2.2⟩)
        · exact Or.inl rfl

/-- The only errors of a supported command. -/
theorem cmderror_cases (supported : Supported s) :
    (fromMem s i).cmderrorValid = false ∨
      ((fromMem s i).cmderrorValid = true ∧ i.mem.exception = true ∧
        (fromMem s i).cmderror = cmdErrorException) ∨
      ((fromMem s i).cmderrorValid = true ∧ s.mem.cmdbusy = false ∧ issued s i = true ∧
        s.mem.halted = 0 ∧ (fromMem s i).cmderror = cmdErrorHaltResume) := by
  have plain : unsupportedCommand (fromCsrs s i).cmd = false := supported
  simp only [fromMem, Mem.cmderrorValid, Mem.cmderror, plain, Bool.or_false]
  cases exception : i.mem.exception with
  | true => simp
  | false =>
      cases none : s.mem.notHalted (fromCsrs s i) with
      | false => simp
      | true =>
          have parts := none
          simp only [Mem.notHalted, fromCsrs, Bool.and_eq_true, beq_iff_eq] at parts
          simp [Mem.cmdbusy, parts.1.1, parts.1.2, parts.2]

theorem next_supported (supported : Supported s) (orderly : Orderly s i) :
    Supported (next F s i) := by
  rw [Supported, next, Csrs.next]
  cases active : s.csrs.dmcontrol.dmactive with
  | false =>
      rw [if_neg Bool.false_ne_true]
      change unsupportedCommand 0 = false
      decide
  | true =>
      rw [if_pos rfl, Csrs.update, Csrs.bus, Csrs.hart]
      dsimp only
      rcases access_command { s.csrs with sbaddr := i.csrs.sbaddress } (fromMem s i).cmdbusy
        i.csrs.sbbusy (request s i) with same | ⟨r, taken, idle, register, writes, stored⟩
      · rw [same]
        exact supported
      · rw [stored]
        exact orderly.commands active idle r taken register writes

/-- Unless the module is held in reset, an error of the hart goes before what the debugger
does to `cmderr`. -/
theorem next_cmderr :
    (next F s i).csrs.cmderr =
      if s.csrs.dmcontrol.dmactive then
        if (fromMem s i).cmderrorValid then (fromMem s i).cmderror
        else (({ s.csrs with sbaddr := i.csrs.sbaddress } : Csrs nrHarts).access
          s.mem.cmdbusy i.csrs.sbbusy (request s i)).cmderr
      else cmdErrNone := by
  rw [next, Csrs.next]
  cases s.csrs.dmcontrol.dmactive <;> rfl

/-- A hart is given a command in `Idle` only, and only if it is issued and no resume is
obeyed. -/
theorem starts_cases (waiting : executing s = false) (runs : executing (next F s i) = true) :
    s.mem.cmdbusy = false ∧ s.mem.resumes (fromCsrs s i) = false ∧ issued s i = true ∧
      s.mem.halted ≠ 0 := by
  simp only [executing, next, Mem.next, Mem.stateD, Mem.cmdbusy] at waiting runs ⊢
  cases state : s.mem.state with
  | idle =>
      cases resumes : s.mem.resumes (fromCsrs s i) with
      | true => simp [state, resumes] at runs
      | false =>
          cases issue : (fromCsrs s i).cmdValid with
          | false => simp [state, resumes, issue] at runs
          | true =>
              have halted : s.mem.halted ≠ 0 := by
                intro none
                simp [state, resumes, issue, none] at runs
              exact ⟨rfl, rfl, issue, halted⟩
  | go => simp [state] at waiting
  | resume =>
      rw [state] at runs
      by_cases ends : s.mem.resuming = BitVec.ofNat nrHarts 0 <;> simp [ends] at runs
  | cmdExecuting => simp [state] at waiting

theorem quiet_mem (busy : s.mem.cmdbusy = true) :
    fromCsrs s i.quiet = fromCsrs s i ∧ fromMem s i.quiet = fromMem s i := by
  have silent : issued s i = false := by
    rw [issued]
    cases request s i with
    | none => rfl
    | some r => simp [Csrs.cmdValid, busy]
  have quiet : issued s i.quiet = false := by
    simp [issued, request, Input.quiet]
  have same : fromCsrs s i.quiet = fromCsrs s i := by
    rw [fromCsrs, fromCsrs, silent, quiet]
  exact ⟨same, by rw [fromMem, fromMem, same]; rfl⟩

theorem quiet_request : request s i.quiet = none := by
  simp [request, Input.quiet]

theorem busyError_other {error : BitVec 3} (other : error ≠ cmdErrNone) :
    busyError error = error := if_neg other

/-- A refused access is at most a busy error. -/
theorem Orderly.access (orderly : Orderly s i) (busy : s.mem.cmdbusy = true) {r : DmiReq}
    (taken : r ∈ request s i) (refused : refusedAccess r = true) (c : Csrs nrHarts)
    (same : c.cmderr = s.csrs.cmderr) :
    c.access true i.csrs.sbbusy (some r) = { c with cmderr := busyError c.cmderr } := by
  rw [access_refused c i.csrs.sbbusy r refused]
  split
  · exact refused_cmderr c
  · next silent =>
      by_cases none : s.csrs.cmderr = cmdErrNone
      · have allowed := orderly.accesses busy none r taken refused
        exact absurd ⟨allowed.1, allowed.2.1, allowed.2.2.1⟩ silent
      · rw [← same] at none
        rw [busyError_other none]

/-- An error of the hart in the cycle of a refused access is the one already there. -/
theorem Orderly.error (orderly : Orderly s i) (supported : Supported s)
    (busy : s.mem.cmdbusy = true) {r : DmiReq} (taken : r ∈ request s i)
    (refused : refusedAccess r = true) (valid : (fromMem s i).cmderrorValid = true) :
    (fromMem s i).cmderror = busyError s.csrs.cmderr := by
  rcases cmderror_cases supported with quiet | ⟨-, exception, error⟩ | ⟨-, idle, -⟩
  · rw [quiet] at valid
    contradiction
  · rcases orderly.exceptions exception with none | same
    · have allowed := orderly.accesses busy none r taken refused
      rw [allowed.2.2.2] at exception
      contradiction
    · rw [error, same]
      rfl
  · rw [idle] at busy
    contradiction

theorem Orderly.refuses (orderly : Orderly s i) (supported : Supported s)
    (busy : s.mem.cmdbusy = true) (any : (request s i).any refusedAccess = true) :
    (next F s i).csrs = { (next F s i.quiet).csrs with cmderr := busyError s.csrs.cmderr } := by
  obtain ⟨r, taken, refused⟩ : ∃ r ∈ request s i, refusedAccess r = true := by
    cases req : request s i with
    | none => simp [req] at any
    | some r => exact ⟨r, rfl, by simpa [req] using any⟩
  have active : s.csrs.dmcontrol.dmactive = true := by
    by_contra reset
    have held := (orderly.active (Bool.eq_false_of_not_eq_true reset)).2
    rw [busy, any] at held
    contradiction
  have cmdbusy : (fromMem s i).cmdbusy = true := busy
  have access := orderly.access busy taken refused
    { s.csrs with sbaddr := i.csrs.sbaddress } rfl
  have error := orderly.error supported busy taken refused
  rw [Option.mem_def] at taken
  simp only [next, Csrs.next, active, ↓reduceIte, Csrs.update, (quiet_mem busy).2, quiet_request,
    taken, cmdbusy, access]
  cases valid : (fromMem s i).cmderrorValid with
  | false => simp [Csrs.hart, Csrs.bus, Csrs.access, valid, Input.quiet]
  | true => simp [Csrs.hart, Csrs.bus, Csrs.access, valid, error valid, Input.quiet]

/-- What becomes of `cmderr`. -/
theorem Orderly.cmderr_cases (orderly : Orderly s i) (supported : Supported s) :
    (next F s i).csrs.cmderr = s.csrs.cmderr ∨
      (s.csrs.cmderr = cmdErrNone ∧ Fails F s i (next F s i).csrs.cmderr) ∨
      Clears s i (next F s i).csrs.cmderr := by
  rw [next_cmderr]
  cases active : s.csrs.dmcontrol.dmactive with
  | false => exact Or.inl (orderly.active active).1.symm
  | true =>
      rw [if_pos rfl]
      rcases cmderror_cases supported with quiet | ⟨valid, exception, error⟩ |
        ⟨valid, -, issue, halted, error⟩
      · rw [quiet, if_neg Bool.false_ne_true]
        rcases access_cmderr { s.csrs with sbaddr := i.csrs.sbaddress } s.mem.cmdbusy
          i.csrs.sbbusy (request s i) with same | ⟨busy, any, error⟩ | cleared
        · exact Or.inl same
        · by_cases none : s.csrs.cmderr = cmdErrNone
          · right
            left
            refine ⟨none, Or.inl ⟨?_, busy, any⟩⟩
            rw [error, busyError, if_pos none]
          · left
            rw [error]
            exact busyError_other none
        · exact Or.inr (Or.inr cleared)
      · rw [valid, if_pos rfl, error]
        rcases orderly.exceptions exception with none | same
        · exact Or.inr (Or.inl ⟨none, Or.inr (Or.inl ⟨rfl, exception⟩)⟩)
        · exact Or.inl same.symm
      · rw [valid, if_pos rfl, error]
        rcases orderly.runs issue halted with none | same
        · have unselected : selectedHalted s = false := by
            simp [selectedHalted, halted]
          exact Or.inr (Or.inl ⟨none, Or.inr (Or.inr (Or.inl ⟨rfl, issue, unselected⟩))⟩)
        · exact Or.inl same.symm

/-- Whatever a hart carries out, a cycle follows the protocol. -/
theorem Orderly.protocol (orderly : Orderly s i) (supported : Supported s) : Protocol F s i := by
  constructor
  · intro waiting runs
    have cases := starts_cases waiting runs
    exact ⟨cases.1, (orderly.starts cases.2.2.1 cases.2.2.2 cases.2.1).symm⟩
  · intro busy any
    refine ⟨orderly.refuses supported busy any, ?_⟩
    simp only [next, (quiet_mem busy).1]
    rfl
  · intro pending
    rcases orderly.cmderr_cases (F := F) supported with same | fails | cleared
    · exact Or.inl same
    · exact absurd fails.1 pending
    · exact Or.inr cleared
  · intro none error
    rcases orderly.cmderr_cases (F := F) supported with same | fails | cleared
    · rw [none] at same
      exact absurd same error
    · exact fails.2
    · obtain ⟨-, r, -, -, -, value⟩ := cleared
      rw [none] at value
      exact absurd (value.trans (BitVec.and_zero)) error
  · exact fun _ => supported

end Cycle

/-- The debugger does not write to `AbstractCS`. -/
def Unwritten (s : State nrHarts) (i : Input nrHarts) : Prop :=
  ∀ r ∈ request s i, decode r.addr = .abstractCS → r.op ≠ dtmWrite

theorem Protocol.unwritten {F : Fixed} {s : State nrHarts} {i : Input nrHarts}
    (protocol : Protocol F s i) (unwritten : Unwritten s i) (pending : s.csrs.cmderr ≠ cmdErrNone) :
    (next F s i).csrs.cmderr = s.csrs.cmderr := by
  rcases protocol.keeps pending with same | ⟨-, r, taken, register, writes, -⟩
  · exact same
  · exact absurd writes (unwritten r taken register)

theorem run_supported (F : Fixed) (inputs : List (Input nrHarts))
    (legal : (debugModule F nrHarts).Legal Orderly (debugModule F nrHarts).reset inputs) :
    Supported ((debugModule F nrHarts).run inputs) := by
  have reset : Supported (debugModule F nrHarts).reset := by
    change unsupportedCommand 0 = false
    decide
  exact Machine.run_invariant _ reset
    (fun s i supported orderly => next_supported supported orderly) legal

/-- An error stays until it is written. -/
theorem runFrom_cmderr (F : Fixed) (inputs : List (Input nrHarts)) (s : State nrHarts)
    (supported : Supported s) (legal : (debugModule F nrHarts).Legal Orderly s inputs)
    (unwritten : (debugModule F nrHarts).Legal Unwritten s inputs)
    (pending : s.csrs.cmderr ≠ cmdErrNone) :
    ((debugModule F nrHarts).runFrom s inputs).csrs.cmderr = s.csrs.cmderr := by
  induction inputs generalizing s with
  | nil => rfl
  | cons i rest ih =>
      have kept : (next F s i).csrs.cmderr = s.csrs.cmderr :=
        (legal.1.protocol supported).unwritten unwritten.1 pending
      rw [Machine.runFrom_cons, ← kept]
      apply ih (next F s i) (next_supported supported legal.1) legal.2 unwritten.2
      rw [kept]
      exact pending

/-- In every run whose cycles are orderly, every cycle follows the protocol, and an error stays
from the cycle that it is there until it is written. -/
theorem abstract_commands (F : Fixed) (first later : List (Input nrHarts))
    (legal : (debugModule F nrHarts).Legal Orderly (debugModule F nrHarts).reset
      (first ++ later)) :
    (∀ i ∈ later.head?, Protocol F ((debugModule F nrHarts).run first) i) ∧
      (((debugModule F nrHarts).run first).csrs.cmderr ≠ cmdErrNone →
        (debugModule F nrHarts).Legal Unwritten ((debugModule F nrHarts).run first) later →
        ((debugModule F nrHarts).run (first ++ later)).csrs.cmderr =
          ((debugModule F nrHarts).run first).csrs.cmderr) := by
  rw [Machine.legal_append] at legal
  have supported := run_supported F first legal.1
  constructor
  · intro i head
    cases later with
    | nil => simp at head
    | cons j rest =>
        have same : j = i := by simpa using head
        rw [← same]
        exact legal.2.1.protocol supported
  · intro pending unwritten
    rw [Machine.run_append]
    exact runFrom_cmderr F later _ supported legal.2 unwritten pending

set_option synthInstance.maxSize 256 in
instance decidableOrderly (s : State nrHarts) (i : Input nrHarts) : Decidable (Orderly s i) :=
  decidable_of_iff _ (orderly_iff s i).symm

/-- A write of the debugger. -/
def write (addr : BitVec 7) (data : BitVec 32) : Input nrHarts :=
  { csrs := { dmiReqValid := true, dmiReq := ⟨addr, dtmWrite, data⟩, dmiRespReady := true } }

/-- A write of a hart. -/
def store (addr : BitVec 64) : Input nrHarts :=
  { csrs := { dmiRespReady := true }, mem := { req := true, we := true, addr := addr } }

def fixed : Fixed := ⟨Instructions.riscv, fun _ => 0⟩

/-- A command is given to the hart, written again while it runs, and the error is cleared. -/
def secondCommand : List (Input 1) :=
  [write 0x10 0x80000001, store 0x100, write 0x17 0x00221000, store 0x104,
    write 0x17 0x00221000, store 0x100, write 0x16 0x700]

theorem abstract_commands_busy :
    (debugModule fixed 1).Legal Orderly (debugModule fixed 1).reset
        (secondCommand.take 4 ++ secondCommand.drop 4) ∧
      (∀ i ∈ (secondCommand.drop 4).head?,
        Protocol fixed ((debugModule fixed 1).run (secondCommand.take 4)) i) := by
  have legal : (debugModule fixed 1).Legal Orderly (debugModule fixed 1).reset
      (secondCommand.take 4 ++ secondCommand.drop 4) := by decide
  exact ⟨legal, (abstract_commands fixed _ _ legal).1⟩

/-- A command for a hart that runs fails. With the error pending, a command that is written once
the hart is halted is started. -/
theorem command_after_error :
    ¬ ∀ (inputs : List (Input 1)) (i : Input 1),
      Protocol fixed ((debugModule fixed 1).run inputs) i := by
  intro every
  have protocol := every [write 0x10 0x80000001, write 0x17 0x00221000, store 0x100]
    (write 0x17 0x00221000)
  have started := protocol.starts (by decide) (by decide)
  exact absurd started.2.2 (by decide)

end Ariane.Dm
