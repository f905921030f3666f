import Mathlib.Logic.Basic

set_option autoImplicit false

/- `controller.sv`: turns the events of a cycle into flushes of the pipeline stages. -/
namespace Ariane.Controller

/-- The registers: `fence_active_q` and the registered output `flush_dcache_o`. -/
structure State where
  fenceActive : Bool := false
  flushDcache : Bool := false
  deriving DecidableEq, Inhabited

/-- The inputs of one cycle. -/
structure Input where
  flushDcacheAck : Bool := false
  haltCsr : Bool := false
  eret : Bool := false
  exValid : Bool := false
  setDebugPc : Bool := false
  isMispredict : Bool := false
  flushCsr : Bool := false
  fenceI : Bool := false
  fence : Bool := false
  sfenceVma : Bool := false
  flushCommit : Bool := false
  deriving DecidableEq, Inhabited

/-- The signals that `flush_ctrl` assigns. -/
structure Output where
  fenceActive : Bool := false
  setPcCommit : Bool := false
  flushIf : Bool := false
  flushUnissuedInstr : Bool := false
  flushId : Bool := false
  flushEx : Bool := false
  flushDcache : Bool := false
  flushIcache : Bool := false
  flushTlb : Bool := false
  deriving DecidableEq, Inhabited

def reset : State := {}

/-- Flush every stage and restart at the commit stage. -/
def Output.flushAll (o : Output) : Output :=
  { o with
    setPcCommit := true
    flushIf := true
    flushUnissuedInstr := true
    flushId := true
    flushEx := true }

/-- `flush_ctrl`. -/
def flushCtrl (s : State) (i : Input) : Output :=
  let o : Output := { fenceActive := s.fenceActive }
  let o := if i.isMispredict then { o with flushUnissuedInstr := true, flushIf := true } else o
  let o := if i.fence then { o.flushAll with flushDcache := true, fenceActive := true } else o
  let o := if i.fenceI then
      { o.flushAll with flushIcache := true, flushDcache := true, fenceActive := true }
    else o
  let o := if i.flushDcacheAck && s.fenceActive then { o with fenceActive := false }
    else if s.fenceActive then { o with flushDcache := true }
    else o
  let o := if i.sfenceVma then { o.flushAll with flushTlb := true } else o
  let o := if i.flushCsr || i.flushCommit then o.flushAll else o
  if i.exValid || i.eret || i.setDebugPc then { o.flushAll with setPcCommit := false } else o

/-- `halt_o`. -/
def halt (s : State) (i : Input) : Bool := i.haltCsr || s.fenceActive

def next (s : State) (i : Input) : State where
  fenceActive := (flushCtrl s i).fenceActive
  flushDcache := (flushCtrl s i).flushDcache

/-- The events that flush the execute stage. -/
def flushes (i : Input) : Bool :=
  i.fence || i.fenceI || i.sfenceVma || i.flushCsr || i.flushCommit || i.exValid || i.eret ||
    i.setDebugPc

theorem flushCtrl_flushEx (s : State) (i : Input) : (flushCtrl s i).flushEx = flushes i := by
  simp only [flushCtrl, Output.flushAll, apply_ite Output.flushEx, flushes]
  grind

/-- The issue queue and the execute stage are flushed together. -/
theorem flushCtrl_flushId (s : State) (i : Input) : (flushCtrl s i).flushId = flushes i := by
  simp only [flushCtrl, Output.flushAll, apply_ite Output.flushId, flushes]
  grind

/-- While the data cache is asked to flush, the core is halted. -/
def Halted (s : State) : Prop := s.flushDcache = true → s.fenceActive = true

/-- A fence starts only when none is active. -/
def StartsIdle (s : State) (i : Input) : Prop :=
  s.fenceActive = true → i.fence = false ∧ i.fenceI = false

theorem next_halted (s : State) (i : Input) (idle : StartsIdle s i) : Halted (next s i) := by
  unfold Halted next flushCtrl Output.flushAll
  unfold StartsIdle at idle
  grind

/-- A fence waits for the acknowledge, and asks for the flush as long. -/
theorem next_waits (s : State) (i : Input) (active : s.fenceActive = true)
    (waits : i.flushDcacheAck = false) : next s i = ⟨true, true⟩ := by
  have both : (flushCtrl s i).fenceActive = true ∧ (flushCtrl s i).flushDcache = true := by
    simp only [flushCtrl, Output.flushAll, apply_ite Output.fenceActive,
      apply_ite Output.flushDcache, active, waits, ite_self, Bool.false_and,
      Bool.false_eq_true, ↓reduceIte, and_self]
  rw [next, both.1, both.2]

/-- The acknowledge ends the fence. -/
theorem next_done (s : State) (i : Input) (active : s.fenceActive = true)
    (ack : i.flushDcacheAck = true) (idle : StartsIdle s i) : next s i = {} := by
  obtain ⟨noFence, noFenceI⟩ := idle active
  have both : (flushCtrl s i).fenceActive = false ∧ (flushCtrl s i).flushDcache = false := by
    simp only [flushCtrl, Output.flushAll, apply_ite Output.fenceActive,
      apply_ite Output.flushDcache, active, ack, noFence, noFenceI, ite_self, Bool.and_self,
      Bool.false_eq_true, ↓reduceIte, and_self]
  rw [next, both.1, both.2]

/-- Without a fence the controller stays idle. -/
theorem next_idle (s : State) (i : Input) (inactive : s.fenceActive = false)
    (noFence : i.fence = false) (noFenceI : i.fenceI = false) : next s i = {} := by
  have both : (flushCtrl s i).fenceActive = false ∧ (flushCtrl s i).flushDcache = false := by
    simp only [flushCtrl, Output.flushAll, apply_ite Output.fenceActive,
      apply_ite Output.flushDcache, inactive, noFence, noFenceI, ite_self, Bool.and_false,
      Bool.false_eq_true, ↓reduceIte, and_self]
  rw [next, both.1, both.2]

end Ariane.Controller
