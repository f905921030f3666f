import Ariane.AmoBuffer
import Ariane.CommitStage
import Ariane.Controller

set_option autoImplicit false

/- Traps at commit: the commit stage, the flush of the controller and the AMO buffer,
wired as in the core. -/
namespace Ariane.PreciseTrap

open Rtl (Machine)
open CommitStage

/-- The registers of the controller and of the AMO buffer. The last two fields are history:
the instruction that waits in slot 0, and whether it was sent to the cache. -/
structure State where
  controller : Controller.State := {}
  amoBuffer : AmoBuffer.State
  waiting : Option ScoreboardEntry := none
  requested : Bool := false

/-- The inputs of one cycle. Fields that the wiring drives are ignored. -/
structure Input where
  commit : CommitStage.Input := {}
  controller : Controller.Input := {}
  amoBuffer : AmoBuffer.Input := {}
  deriving DecidableEq, Inhabited

def reset : State := { amoBuffer := AmoBuffer.reset }

/-- The inputs of the commit stage. -/
def commitInput (s : State) (i : Input) : CommitStage.Input :=
  { i.commit with
    halt := Controller.halt s.controller i.controller
    flushDcache := s.controller.flushDcache }

/-- The outputs of the commit stage. -/
def commitOutput (pkg : Pkg) (s : State) (i : Input) : CommitStage.Output :=
  commit pkg (commitInput s i)

/-- `exception_o.valid`. -/
def traps (s : State) (i : Input) : Bool := (exception (commitInput s i)).valid

/-- The inputs of the controller. -/
def controllerInput (pkg : Pkg) (s : State) (i : Input) : Controller.Input :=
  { i.controller with
    exValid := traps s i
    fenceI := (commitOutput pkg s i).fenceI
    fence := (commitOutput pkg s i).fence
    sfenceVma := (commitOutput pkg s i).sfenceVma
    flushCommit := (commitOutput pkg s i).flushCommit }

/-- `flush_ex_o`, which comes together with the flush of the issue queue. -/
def flushEx (pkg : Pkg) (s : State) (i : Input) : Bool :=
  (Controller.flushCtrl s.controller (controllerInput pkg s i)).flushEx

/-- The inputs of the AMO buffer. -/
def amoBufferInput (pkg : Pkg) (s : State) (i : Input) : AmoBuffer.Input :=
  { i.amoBuffer with
    flush := flushEx pkg s i
    amoResp := i.commit.amoResp
    amoValidCommit := (commitOutput pkg s i).amoValidCommit
    noStPending := i.commit.noStPending }

/-- `amo_req_o.req`: the cache is asked to perform the operation. -/
def amoReq (pkg : Pkg) (s : State) (i : Input) : Bool :=
  AmoBuffer.req s.amoBuffer (amoBufferInput pkg s i)

/-- The instruction in slot 0 leaves: it commits or is flushed. -/
def leaves (pkg : Pkg) (s : State) (i : Input) : Bool :=
  (commitOutput pkg s i).commitAck0 || flushEx pkg s i

def next (pkg : Pkg) (s : State) (i : Input) : State where
  controller := Controller.next s.controller (controllerInput pkg s i)
  amoBuffer := AmoBuffer.next s.amoBuffer (amoBufferInput pkg s i)
  waiting := if i.commit.instr0.valid && !leaves pkg s i then some i.commit.instr0 else none
  requested := !leaves pkg s i && (s.requested || amoReq pkg s i)

def machine (pkg : Pkg) : Machine State Input := ⟨reset, next pkg⟩

/-- The scoreboard keeps a finished instruction in slot 0 until it leaves. No trap is taken
while slot 0 holds an atomic operation that carries no exception of its own. -/
structure Contract (pkg : Pkg) (s : State) (i : Input) : Prop where
  stable : ∀ e, s.waiting = some e → i.commit.instr0 = e
  trapped : traps s i = true → takesAmo pkg (commitInput s i) = false

instance decidableContract (pkg : Pkg) (s : State) (i : Input) : Decidable (Contract pkg s i) :=
  decidable_of_iff
    ((∀ e ∈ s.waiting, i.commit.instr0 = e) ∧
      (traps s i = true → takesAmo pkg (commitInput s i) = false))
    ⟨fun ⟨stable, trapped⟩ => ⟨stable, trapped⟩,
      fun contract => ⟨contract.stable, contract.trapped⟩⟩

/-- A requested operation waits in slot 0, and it carries no exception. -/
structure Tracked (pkg : Pkg) (s : State) : Prop where
  single : FifoV3.Single s.amoBuffer
  finished : ∀ e, s.waiting = some e → e.valid = true
  requested : s.requested = true → ∃ e, s.waiting = some e ∧
    pkg.rva = true ∧ pkg.isAmo e.op = true ∧ e.ex.valid = false

theorem reset_tracked (pkg : Pkg) : Tracked pkg reset := by
  refine ⟨AmoBuffer.reset_single, ?_, ?_⟩
  · intro e waiting
    exact absurd waiting (by simp [reset])
  · intro requested
    exact absurd requested (by decide)

/-- A request comes from the atomic branch of the commit stage. -/
theorem amoReq_takesAmo (pkg : Pkg) (s : State) (i : Input) (requests : amoReq pkg s i = true) :
    i.commit.instr0.valid = true ∧ takesAmo pkg (commitInput s i) = true := by
  have branch : (commitOutput pkg s i).amoValidCommit = true := by
    simp only [amoReq, AmoBuffer.req, amoBufferInput, Bool.and_eq_true] at requests
    exact requests.1.2
  rw [commitOutput, commit_amoValidCommit, Bool.and_eq_true] at branch
  refine ⟨?_, branch.2⟩
  have alive := branch.1
  simp only [live, Bool.and_eq_true] at alive
  exact alive.1

theorem takesAmo_iff (pkg : Pkg) (s : State) (i : Input) :
    takesAmo pkg (commitInput s i) = true ↔
      pkg.rva = true ∧ pkg.isAmo i.commit.instr0.op = true ∧
        i.commit.instr0.ex.valid = false := by
  simp only [takesAmo, commitInput, Bool.and_eq_true, Bool.not_eq_true', and_assoc]

theorem next_tracked (pkg : Pkg) (s : State) (i : Input) (tracked : Tracked pkg s)
    (contract : Contract pkg s i) : Tracked pkg (next pkg s i) := by
  refine ⟨AmoBuffer.next_single _ _ tracked.single, ?_, ?_⟩
  · intro e waiting
    unfold next at waiting
    dsimp only at waiting
    split at waiting
    · rename_i kept
      rw [Bool.and_eq_true] at kept
      obtain rfl := Option.some.inj waiting
      exact kept.1
    · exact absurd waiting (by simp)
  · intro requested
    simp only [next, Bool.and_eq_true, Bool.not_eq_true', Bool.or_eq_true] at requested
    obtain ⟨stays, before | now⟩ := requested
    · obtain ⟨e, waiting, amo⟩ := tracked.requested before
      have same := contract.stable e waiting
      have valid := tracked.finished e waiting
      refine ⟨e, ?_, amo⟩
      simp only [next, same, valid, stays, Bool.not_false, Bool.and_self, ↓reduceIte]
    · obtain ⟨valid, amo⟩ := amoReq_takesAmo pkg s i now
      refine ⟨i.commit.instr0, ?_, (takesAmo_iff pkg s i).mp amo⟩
      simp only [next, valid, stays, Bool.not_false, Bool.and_self, ↓reduceIte]

theorem run_tracked (pkg : Pkg) (inputs : List Input)
    (legal : (machine pkg).Legal (Contract pkg) reset inputs) :
    Tracked pkg ((machine pkg).run inputs) :=
  (machine pkg).run_invariant (reset_tracked pkg) (next_tracked pkg) legal

/-- A trap flushes the execute stage. -/
theorem flushEx_of_traps (pkg : Pkg) (s : State) (i : Input) (trap : traps s i = true) :
    flushEx pkg s i = true := by
  rw [flushEx, Controller.flushCtrl_flushEx]
  simp only [Controller.flushes, controllerInput, trap, Bool.or_true, Bool.true_or]

/-- Slot 0 has no architectural effect and slot 1 does not retire. -/
structure Precise (o : CommitStage.Output) : Prop where
  registers : (o.weGpr0 = false ∧ o.weFpr0 = false) ∧ o.weGpr1 = false ∧ o.weFpr1 = false
  store : o.commitLsu = false
  amo : o.amoValidCommit = false
  fences : o.fence = false ∧ o.fenceI = false ∧ o.sfenceVma = false
  second : o.commitAck1 = false

/-- The two branches of the commit stage that do not look at the exception stay idle: slot 0
holds no atomic operation without an exception of its own, and no fence that may go ahead. -/
def idle (pkg : Pkg) (i : CommitStage.Input) : Bool :=
  !takesAmo pkg i && !(debugClear i && i.noStPending && takesFence i)

/-- In the cycle of a trap the fence outputs are silent exactly when no fence may go ahead. -/
theorem commit_fences (pkg : Pkg) (i : CommitStage.Input) (alive : live i = true) :
    ((commit pkg i).fence = false ∧ (commit pkg i).fenceI = false ∧
        (commit pkg i).sfenceVma = false) ↔
      (debugClear i && i.noStPending && takesFence i) = false := by
  rw [commit_fence, commit_fenceI, commit_sfenceVma, alive]
  unfold takesFence
  cases debugClear i with
  | false => simp only [Bool.and_false, Bool.false_and, and_self]
  | true =>
      cases i.noStPending with
      | false => simp only [Bool.and_false, Bool.false_and, and_self]
      | true =>
          simp only [Bool.and_true, Bool.true_and, Bool.or_eq_false_iff]
          constructor
          · intro silent
            exact ⟨⟨silent.2.2, silent.2.1⟩, silent.1⟩
          · intro silent
            exact ⟨silent.2, silent.1.2, silent.1.1⟩

theorem commit_precise (pkg : Pkg) (i : CommitStage.Input)
    (raised : (exception i).valid = true) : Precise (commit pkg i) ↔ idle pkg i = true := by
  have alive := exception_live i raised
  have fences := commit_fences pkg i alive
  have alone := secondPort_idle pkg i raised
  unfold idle
  rw [Bool.and_eq_true, Bool.not_eq_true', Bool.not_eq_true', ← fences]
  constructor
  · intro precise
    have amo := precise.amo
    rw [commit_amoValidCommit, alive, Bool.true_and] at amo
    exact ⟨amo, precise.fences⟩
  · intro quiet
    obtain ⟨amo, silent⟩ := quiet
    refine ⟨⟨⟨?_, ?_⟩, ?_, ?_⟩, ?_, ?_, silent, ?_⟩
    · rw [commit_weGpr0, amo, raised]
      simp only [Bool.false_eq_true, ↓reduceIte, Bool.not_true, Bool.and_false, Bool.false_and]
    · rw [commit_weFpr0, raised, Bool.not_true, Bool.and_false, Bool.false_and]
    · rw [commit_weGpr1, alone, Bool.false_and]
    · rw [commit_weFpr1, alone, Bool.false_and]
    · rw [commit_commitLsu, raised]
      simp only [Bool.not_true, Bool.and_false, Bool.false_and]
    · rw [commit_amoValidCommit, amo, Bool.and_false]
    · rw [commit_commitAck1, alone]

/-- Traps are precise exactly when neither the atomic nor the fence branch goes ahead in that
cycle. In every run that takes no trap on an atomic operation without an exception of its own,
an atomic operation that traps was not requested before, is not requested now, and does not
stay in the AMO buffer. -/
theorem traps_are_precise (pkg : Pkg) :
    (∀ i, (exception i).valid = true → (Precise (commit pkg i) ↔ idle pkg i = true)) ∧
    ∀ inputs, (machine pkg).Legal (Contract pkg) reset inputs →
      let s := (machine pkg).run inputs
      ∀ i, Contract pkg s i → traps s i = true → pkg.rva = true →
        pkg.isAmo i.commit.instr0.op = true →
        s.requested = false ∧ amoReq pkg s i = false ∧
          FifoV3.held (next pkg s i).amoBuffer = none := by
  refine ⟨commit_precise pkg, ?_⟩
  intro inputs legal s i contract trap rva amo
  have tracked : Tracked pkg s := run_tracked pkg inputs legal
  have branch := contract.trapped trap
  have speculative : (commitOutput pkg s i).amoValidCommit = false := by
    rw [commitOutput, commit_amoValidCommit, branch, Bool.and_false]
  refine ⟨?_, ?_, ?_⟩
  · rw [Bool.eq_false_iff]
    intro requested
    obtain ⟨e, waiting, clean⟩ := tracked.requested requested
    have same := contract.stable e waiting
    rw [← same] at clean
    rw [(takesAmo_iff pkg s i).mpr clean] at branch
    exact absurd branch (by decide)
  · simp only [amoReq, AmoBuffer.req, amoBufferInput, speculative, Bool.and_false,
      Bool.false_and]
  · exact AmoBuffer.next_flushed _ _ tracked.single (flushEx_of_traps pkg s i trap) speculative

/-- A finished atomic addition with the exception `ex`. -/
def amoEntry (ex : Exception) : ScoreboardEntry :=
  { fu := .store, op := .amoAddd, valid := true, ex := ex }

/-- The execute stage puts an atomic addition into the AMO buffer. -/
def pushAmo : Input :=
  { amoBuffer := { valid := true, amoOp := .add, paddr := 0x80#64, data := 1 } }

/-- An atomic operation with a misaligned address reaches slot 0. -/
def misalignedAmo : Input :=
  { commit := { instr0 := amoEntry { cause := 6, valid := true }, noStPending := true } }

theorem traps_are_precise_misaligned :
    (Precise (commit .rv64ima misalignedAmo.commit) ↔
      idle .rv64ima misalignedAmo.commit = true) ∧
    (let s := (machine .rv64ima).run [pushAmo]
     s.requested = false ∧ amoReq .rv64ima s misalignedAmo = false ∧
      FifoV3.held (next .rv64ima s misalignedAmo).amoBuffer = none) :=
  ⟨(traps_are_precise .rv64ima).1 misalignedAmo.commit (by decide),
    (traps_are_precise .rv64ima).2 [pushAmo] (by decide) misalignedAmo (by decide) (by decide)
      (by decide) (by decide)⟩

/-- A pending machine timer interrupt. -/
def timerInterrupt : Exception := { cause := 0x8000000000000007#64, valid := true }

/-- An atomic operation in slot 0 meets the interrupt; the cache may answer at once. -/
def interruptedAmo (ack : Bool) : Input :=
  { commit :=
      { instr0 := amoEntry {}, csrException := timerInterrupt, noStPending := true,
        amoResp := ⟨ack, 5⟩ } }

/-- `SFENCE.VMA` in user mode: the decoder marks it illegal and keeps the operation. -/
def illegalSfence : CommitStage.Input :=
  { instr0 :=
      { fu := .csr, op := .sfenceVma, valid := true, ex := { cause := 2, valid := true } }
    noStPending := true }

/-- An interrupted atomic operation is requested all the same: if the cache answers in that
cycle, memory and register are written although the instruction will be executed again, and
if it does not, the operation stays in the buffer. An illegal fence flushes the TLB. -/
theorem interrupted_amo_is_performed :
    (let s := (machine .rv64ima).run [pushAmo]
     traps s (interruptedAmo true) = true ∧ amoReq .rv64ima s (interruptedAmo true) = true ∧
      (commitOutput .rv64ima s (interruptedAmo true)).weGpr0 = true ∧
      traps s (interruptedAmo false) = true ∧ amoReq .rv64ima s (interruptedAmo false) = true ∧
      (FifoV3.held (next .rv64ima s (interruptedAmo false)).amoBuffer).isSome = true) ∧
    (exception illegalSfence).valid = true ∧
      (commit .rv64ima illegalSfence).sfenceVma = true := by
  decide

end Ariane.PreciseTrap
