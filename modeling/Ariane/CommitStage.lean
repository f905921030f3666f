import Ariane.Pkg

set_option autoImplicit false

/- `commit_stage.sv`: the combinational stage that retires up to two instructions
and decides whether an exception is taken. -/
namespace Ariane.CommitStage

/-- The inputs of one cycle. -/
structure Input where
  halt : Bool := false
  flushDcache : Bool := false
  debugMode : Bool := false
  debugReq : Bool := false
  singleStep : Bool := false
  instr0 : ScoreboardEntry := {}
  instr1 : ScoreboardEntry := {}
  amoResp : AmoResp := {}
  csrRdata : BitVec 64 := 0
  csrException : Exception := {}
  commitLsuReady : Bool := false
  noStPending : Bool := false
  deriving DecidableEq, Inhabited

/-- The outputs of `commit`; port numbers are suffixes. -/
structure Output where
  commitAck0 : Bool := false
  commitAck1 : Bool := false
  wdata0 : BitVec 64 := 0
  wdata1 : BitVec 64 := 0
  weGpr0 : Bool := false
  weGpr1 : Bool := false
  weFpr0 : Bool := false
  weFpr1 : Bool := false
  csrOp : FuOp := .add
  csrWdata : BitVec 64 := 0
  csrWriteFflags : Bool := false
  commitLsu : Bool := false
  amoValidCommit : Bool := false
  commitCsr : Bool := false
  fenceI : Bool := false
  fence : Bool := false
  flushCommit : Bool := false
  sfenceVma : Bool := false
  deriving DecidableEq, Inhabited

/-- `fu inside {FPU, FPU_VEC}`. -/
def isFpu (fu : Fu) : Bool := fu == .fpu || fu == .fpuVec

/-- The units whose instructions may retire on port 1. -/
def onSecondPort (fu : Fu) : Bool :=
  fu ∈ [.alu, .load, .ctrlFlow, .mult, .fpu, .fpuVec]

/-- `{59'b0, cause[4:0]}`. -/
def fflagsOf (cause : BitVec 64) : BitVec 64 := (cause.setWidth 5).setWidth 64

/-- `exception_handling`: CSR exceptions, then earlier exceptions, then interrupts. -/
def exception (i : Input) : Exception :=
  let ex : Exception := {}
  let ex := if i.instr0.valid then
      let ex := if i.csrException.valid && !i.csrException.isInterrupt then
          { i.csrException with tval := i.instr0.ex.tval }
        else ex
      let ex := if i.instr0.ex.valid then i.instr0.ex else ex
      if i.csrException.valid && i.csrException.isInterrupt && i.instr0.fu != .csr then
        { i.csrException with tval := i.instr0.ex.tval }
      else ex
    else ex
  if i.halt then { ex with valid := false } else ex

/-- The default assignments of `commit`. -/
def defaults (i : Input) : Output where
  wdata0 := if i.amoResp.ack then i.amoResp.result else i.instr0.result
  wdata1 := i.instr1.result

/-- What retiring slot 0 without an exception does. -/
def retireLogic (pkg : Pkg) (i : Input) (o : Output) : Output :=
  let o := if pkg.isRdFpr i.instr0.op then { o with weFpr0 := true }
    else { o with weGpr0 := true }
  let o := if i.instr0.fu == .store && !pkg.isAmo i.instr0.op then
      if i.commitLsuReady then { o with commitLsu := true } else { o with commitAck0 := false }
    else o
  if isFpu i.instr0.fu then
    { o with csrWdata := fflagsOf i.instr0.ex.cause, csrWriteFflags := true }
  else o

/-- A CSR instruction, which is also presented when it raises an exception. -/
def csrLogic (i : Input) (o : Output) : Output :=
  if i.instr0.fu == .csr then
    { o with
      commitCsr := true
      wdata0 := i.csrRdata
      csrOp := i.instr0.op
      csrWdata := i.instr0.result }
  else o

def sfenceVmaLogic (i : Input) (o : Output) : Output :=
  if i.instr0.op == .sfenceVma then
    { o with sfenceVma := i.noStPending, commitAck0 := i.noStPending }
  else o

def fenceILogic (i : Input) (o : Output) : Output :=
  if i.instr0.op == .fenceI || (i.flushDcache && i.instr0.fu != .store) then
    { o with commitAck0 := i.noStPending, fenceI := i.noStPending }
  else o

def fenceLogic (i : Input) (o : Output) : Output :=
  if i.instr0.op == .fence then
    { o with commitAck0 := i.noStPending, fence := i.noStPending }
  else o

/-- An atomic memory operation; neither debug requests nor interrupts hold it back. -/
def amoLogic (pkg : Pkg) (i : Input) (o : Output) : Output :=
  if pkg.rva && pkg.isAmo i.instr0.op && !i.instr0.ex.valid then
    { o with
      commitAck0 := i.amoResp.ack
      amoValidCommit := true
      weGpr0 := i.amoResp.ack }
  else o

/-- Slot 0 of `commit`. -/
def firstPort (pkg : Pkg) (i : Input) : Output :=
  let o := defaults i
  if i.instr0.valid && !i.halt then
    let o := if !i.debugReq || i.debugMode then
        let o := { o with commitAck0 := true }
        let o := if !(exception i).valid then retireLogic pkg i o else o
        fenceLogic i (fenceILogic i (sfenceVmaLogic i (csrLogic i o)))
      else o
    amoLogic pkg i o
  else o

/-- Slot 1 may retire next to the acknowledged slot 0. -/
def secondPortTaken (i : Input) (o : Output) : Bool :=
  o.commitAck0 && i.instr1.valid && !i.halt && i.instr0.fu != .csr && !i.flushDcache &&
    !i.singleStep && !(exception i).valid && !i.instr1.ex.valid && onSecondPort i.instr1.fu

/-- Commit port 2. -/
def secondPort (pkg : Pkg) (i : Input) (o : Output) : Output :=
  if secondPortTaken i o then
    let o := if pkg.isRdFpr i.instr1.op then { o with weFpr1 := true }
      else { o with weGpr1 := true }
    let o := { o with commitAck1 := true }
    if isFpu i.instr1.fu then
      { o with
        csrWdata := if o.csrWriteFflags then fflagsOf (i.instr0.ex.cause ||| i.instr1.ex.cause)
          else fflagsOf i.instr1.ex.cause
        csrWriteFflags := true }
    else o
  else o

/-- `commit`. -/
def commit (pkg : Pkg) (i : Input) : Output := secondPort pkg i (firstPort pkg i)

/-- `waddr_o`. -/
def waddr (e : ScoreboardEntry) : BitVec 5 := e.rd.setWidth 5

/-- `dirty_fp_state_o`. -/
def dirtyFpState (o : Output) : Bool := o.weFpr0 || o.weFpr1

/-! The outputs as functions of the inputs. -/

/-- Slot 0 holds a finished instruction and the core is not halted. -/
def live (i : Input) : Bool := i.instr0.valid && !i.halt

/-- The debugger does not ask for the core in this cycle. -/
def debugClear (i : Input) : Bool := !i.debugReq || i.debugMode

/-- Slot 0 goes through the atomic branch. -/
def takesAmo (pkg : Pkg) (i : Input) : Bool :=
  pkg.rva && pkg.isAmo i.instr0.op && !i.instr0.ex.valid

/-- Slot 0 flushes the data cache and the instruction cache. -/
def takesFenceI (i : Input) : Bool :=
  i.instr0.op == .fenceI || (i.flushDcache && i.instr0.fu != .store)

/-- The operation is one of the fences. The decoder gives all of them to the CSR unit. -/
def namesFence (op : FuOp) : Bool := op == .sfenceVma || op == .fenceI || op == .fence

/-- Slot 0 waits until no store is pending. -/
def takesFence (i : Input) : Bool :=
  i.instr0.op == .sfenceVma || takesFenceI i || i.instr0.op == .fence

/-- Slot 0 retires through the store buffer. -/
def takesStore (pkg : Pkg) (i : Input) : Bool :=
  i.instr0.fu == .store && !pkg.isAmo i.instr0.op

section Outputs

variable (pkg : Pkg) (i : Input)

theorem exception_live (raised : (exception i).valid = true) : live i = true := by
  unfold exception at raised
  unfold live
  grind

/-- A CSR instruction takes no interrupts; every other instruction does. -/
theorem exception_valid :
    (exception i).valid = (live i && (i.instr0.ex.valid ||
      (i.csrException.valid && !(i.csrException.isInterrupt && i.instr0.fu == .csr)))) := by
  unfold exception live
  cases i.halt <;> cases i.instr0.valid <;> cases own : i.instr0.ex.valid <;>
    cases raised : i.csrException.valid <;> cases i.csrException.isInterrupt <;>
    cases unit : i.instr0.fu == .csr <;>
    simp [own, raised, unit, bne]

/-- The exception of a CSR instruction is its own or that of the CSR file. -/
theorem exception_csr (alive : live i = true) (unit : i.instr0.fu = .csr) :
    exception i =
      if i.instr0.ex.valid then i.instr0.ex
      else if i.csrException.valid && !i.csrException.isInterrupt then
        { i.csrException with tval := i.instr0.ex.tval }
      else {} := by
  simp only [live, Bool.and_eq_true, Bool.not_eq_true'] at alive
  obtain ⟨finished, running⟩ := alive
  have other : (i.instr0.fu != .csr) = false := by
    rw [unit]
    rfl
  unfold exception
  rw [finished, running, other, Bool.and_false]
  rfl

theorem commit_commitAck0 :
    (commit pkg i).commitAck0 = (live i &&
      if takesAmo pkg i then i.amoResp.ack
      else debugClear i &&
        if takesFence i then i.noStPending
        else (exception i).valid || !takesStore pkg i || i.commitLsuReady) := by
  simp only [commit, secondPort, firstPort, amoLogic, fenceLogic, fenceILogic, sfenceVmaLogic,
    csrLogic, retireLogic, defaults, apply_ite Output.commitAck0, ite_self, live, debugClear,
    takesAmo, takesFence, takesFenceI, takesStore]
  grind

theorem firstPort_commitAck0 : (firstPort pkg i).commitAck0 = (commit pkg i).commitAck0 := by
  simp only [commit, secondPort, apply_ite Output.commitAck0, ite_self]

theorem firstPort_commitAck1 : (firstPort pkg i).commitAck1 = false := by
  simp only [firstPort, amoLogic, fenceLogic, fenceILogic, sfenceVmaLogic, csrLogic,
    retireLogic, defaults, apply_ite Output.commitAck1, ite_self]

theorem commit_commitAck1 :
    (commit pkg i).commitAck1 = secondPortTaken i (commit pkg i) := by
  have idle := firstPort_commitAck1 pkg i
  have same : secondPortTaken i (firstPort pkg i) = secondPortTaken i (commit pkg i) := by
    unfold secondPortTaken
    rw [firstPort_commitAck0]
  rw [← same]
  simp only [commit, secondPort, apply_ite Output.commitAck1, ite_self, idle,
    Bool.if_false_right, Bool.and_true, Bool.decide_eq_true]

/-- Port 0 writes back the scoreboard result, the CSR value or the answer of the cache. -/
theorem commit_wdata0 :
    (commit pkg i).wdata0 =
      if live i && debugClear i && i.instr0.fu == .csr then i.csrRdata
      else if i.amoResp.ack then i.amoResp.result else i.instr0.result := by
  simp only [commit, secondPort, firstPort, amoLogic, fenceLogic, fenceILogic, sfenceVmaLogic,
    csrLogic, retireLogic, defaults, apply_ite Output.wdata0, ite_self, live, debugClear]
  grind

theorem commit_wdata1 : (commit pkg i).wdata1 = i.instr1.result := by
  simp only [commit, secondPort, firstPort, amoLogic, fenceLogic, fenceILogic, sfenceVmaLogic,
    csrLogic, retireLogic, defaults, apply_ite Output.wdata1, ite_self]

theorem commit_weGpr0 :
    (commit pkg i).weGpr0 = (live i &&
      if takesAmo pkg i then i.amoResp.ack
      else debugClear i && !(exception i).valid && !pkg.isRdFpr i.instr0.op) := by
  simp only [commit, secondPort, firstPort, amoLogic, fenceLogic, fenceILogic, sfenceVmaLogic,
    csrLogic, retireLogic, defaults, apply_ite Output.weGpr0, ite_self, live, debugClear,
    takesAmo]
  grind

theorem commit_weFpr0 :
    (commit pkg i).weFpr0 =
      (live i && debugClear i && !(exception i).valid && pkg.isRdFpr i.instr0.op) := by
  simp only [commit, secondPort, firstPort, amoLogic, fenceLogic, fenceILogic, sfenceVmaLogic,
    csrLogic, retireLogic, defaults, apply_ite Output.weFpr0, ite_self, live, debugClear]
  grind

theorem commit_weGpr1 :
    (commit pkg i).weGpr1 = (secondPortTaken i (commit pkg i) && !pkg.isRdFpr i.instr1.op) := by
  have idle : (firstPort pkg i).weGpr1 = false := by
    simp only [firstPort, amoLogic, fenceLogic, fenceILogic, sfenceVmaLogic, csrLogic,
      retireLogic, defaults, apply_ite Output.weGpr1, ite_self]
  have quiet := firstPort_commitAck1 pkg i
  rw [← commit_commitAck1, commit, secondPort]
  simp only [apply_ite Output.weGpr1, apply_ite Output.commitAck1, ite_self, idle]
  grind

theorem commit_weFpr1 :
    (commit pkg i).weFpr1 = (secondPortTaken i (commit pkg i) && pkg.isRdFpr i.instr1.op) := by
  have idle : (firstPort pkg i).weFpr1 = false := by
    simp only [firstPort, amoLogic, fenceLogic, fenceILogic, sfenceVmaLogic, csrLogic,
      retireLogic, defaults, apply_ite Output.weFpr1, ite_self]
  have quiet := firstPort_commitAck1 pkg i
  rw [← commit_commitAck1, commit, secondPort]
  simp only [apply_ite Output.weFpr1, apply_ite Output.commitAck1, ite_self, idle]
  grind

theorem commit_csrWriteFflags :
    (commit pkg i).csrWriteFflags =
      ((live i && debugClear i && !(exception i).valid && isFpu i.instr0.fu) ||
        (secondPortTaken i (commit pkg i) && isFpu i.instr1.fu)) := by
  have first : (firstPort pkg i).csrWriteFflags =
      (live i && debugClear i && !(exception i).valid && isFpu i.instr0.fu) := by
    simp only [firstPort, amoLogic, fenceLogic, fenceILogic, sfenceVmaLogic, csrLogic,
      retireLogic, defaults, apply_ite Output.csrWriteFflags, ite_self, live, debugClear]
    grind
  have quiet := firstPort_commitAck1 pkg i
  rw [← first, ← commit_commitAck1, commit, secondPort]
  simp only [apply_ite Output.csrWriteFflags, apply_ite Output.commitAck1, ite_self]
  grind

theorem commit_commitLsu :
    (commit pkg i).commitLsu = (live i && debugClear i && !(exception i).valid &&
      takesStore pkg i && i.commitLsuReady) := by
  simp only [commit, secondPort, firstPort, amoLogic, fenceLogic, fenceILogic, sfenceVmaLogic,
    csrLogic, retireLogic, defaults, apply_ite Output.commitLsu, ite_self, live, debugClear,
    takesStore]
  grind

theorem commit_amoValidCommit :
    (commit pkg i).amoValidCommit = (live i && takesAmo pkg i) := by
  simp only [commit, secondPort, firstPort, amoLogic, fenceLogic, fenceILogic, sfenceVmaLogic,
    csrLogic, retireLogic, defaults, apply_ite Output.amoValidCommit, ite_self, live, takesAmo]
  grind

theorem commit_sfenceVma :
    (commit pkg i).sfenceVma =
      (live i && debugClear i && i.instr0.op == .sfenceVma && i.noStPending) := by
  simp only [commit, secondPort, firstPort, amoLogic, fenceLogic, fenceILogic, sfenceVmaLogic,
    csrLogic, retireLogic, defaults, apply_ite Output.sfenceVma, ite_self, live, debugClear]
  grind

theorem commit_fenceI :
    (commit pkg i).fenceI = (live i && debugClear i && takesFenceI i && i.noStPending) := by
  simp only [commit, secondPort, firstPort, amoLogic, fenceLogic, fenceILogic, sfenceVmaLogic,
    csrLogic, retireLogic, defaults, apply_ite Output.fenceI, ite_self, live, debugClear,
    takesFenceI]
  grind

theorem commit_fence :
    (commit pkg i).fence =
      (live i && debugClear i && i.instr0.op == .fence && i.noStPending) := by
  simp only [commit, secondPort, firstPort, amoLogic, fenceLogic, fenceILogic, sfenceVmaLogic,
    csrLogic, retireLogic, defaults, apply_ite Output.fence, ite_self, live, debugClear]
  grind

theorem commit_flushCommit : (commit pkg i).flushCommit = false := by
  simp only [commit, secondPort, firstPort, amoLogic, fenceLogic, fenceILogic, sfenceVmaLogic,
    csrLogic, retireLogic, defaults, apply_ite Output.flushCommit, ite_self]

theorem commit_csrOp :
    (commit pkg i).csrOp =
      if live i && debugClear i && i.instr0.fu == .csr then i.instr0.op else .add := by
  simp only [commit, secondPort, firstPort, amoLogic, fenceLogic, fenceILogic, sfenceVmaLogic,
    csrLogic, retireLogic, defaults, apply_ite Output.csrOp, ite_self, live, debugClear]
  grind

/-- Slot 0 retires without an exception, and not through the atomic branch. -/
def retires (i : Input) : Bool := live i && debugClear i && !(exception i).valid

/-- The operand of a CSR instruction is presented with it. -/
theorem commit_csrOperand (unit : i.instr0.fu = .csr) (presented : (live i && debugClear i) = true) :
    (commit pkg i).csrWdata = i.instr0.result := by
  have single : ∀ o, secondPortTaken i o = false := by
    intro o
    rw [secondPortTaken, unit]
    simp
  simp only [commit, secondPort, single, firstPort, amoLogic, fenceLogic, fenceILogic, sfenceVmaLogic,
    csrLogic, apply_ite Output.csrWdata, ite_self, unit, beq_self_eq_true]
  simp only [live, debugClear, Bool.and_eq_true] at presented
  simp [presented]

theorem commit_csrWdata (unit : i.instr0.fu ≠ .csr) :
    (commit pkg i).csrWdata =
      if secondPortTaken i (commit pkg i) && isFpu i.instr1.fu then
        if retires i && isFpu i.instr0.fu then fflagsOf (i.instr0.ex.cause ||| i.instr1.ex.cause)
        else fflagsOf i.instr1.ex.cause
      else if retires i && isFpu i.instr0.fu then fflagsOf i.instr0.ex.cause
      else 0 := by
  have other : (i.instr0.fu == .csr) = false := beq_eq_false_iff_ne.mpr unit
  have flags : (firstPort pkg i).csrWriteFflags = (retires i && isFpu i.instr0.fu) := by
    simp only [firstPort, amoLogic, fenceLogic, fenceILogic, sfenceVmaLogic, csrLogic,
      retireLogic, defaults, apply_ite Output.csrWriteFflags, ite_self, live, debugClear, retires]
    grind
  have data : (firstPort pkg i).csrWdata =
      if retires i && isFpu i.instr0.fu then fflagsOf i.instr0.ex.cause else 0 := by
    simp only [firstPort, amoLogic, fenceLogic, fenceILogic, sfenceVmaLogic, csrLogic,
      retireLogic, defaults, apply_ite Output.csrWdata, ite_self, live, debugClear, retires, other,
      Bool.false_eq_true, ↓reduceIte, Bool.and_eq_true, ite_and]
  have quiet := firstPort_commitAck1 pkg i
  rw [← data, ← flags, ← commit_commitAck1, commit, secondPort]
  simp only [apply_ite Output.csrWdata, apply_ite Output.commitAck1,
    apply_ite Output.csrWriteFflags, ite_self]
  by_cases taken : secondPortTaken i (firstPort pkg i) = true
  · simp only [taken, ↓reduceIte, Bool.true_and]
  · simp only [taken, ↓reduceIte, quiet, Bool.false_and, Bool.false_eq_true]

/-- The floating-point flags of a cycle, `csr_wdata_o[4:0]` when they are written. -/
def flags (o : Output) : BitVec 5 := if o.csrWriteFflags then o.csrWdata.setWidth 5 else 0

/-- Both slots contribute their flags. -/
theorem commit_flags (unit : i.instr0.fu ≠ .csr) :
    flags (commit pkg i) =
      (if retires i && isFpu i.instr0.fu then i.instr0.ex.cause.setWidth 5 else 0) |||
        (if secondPortTaken i (commit pkg i) && isFpu i.instr1.fu then
          i.instr1.ex.cause.setWidth 5 else 0) := by
  have packed : ∀ cause : BitVec 64, (fflagsOf cause).setWidth 5 = cause.setWidth 5 := by
    intro cause
    rw [fflagsOf, BitVec.setWidth_setWidth_of_le _ (by decide), BitVec.setWidth_eq]
  have both : ∀ x y : BitVec 64, (x ||| y).setWidth 5 = x.setWidth 5 ||| y.setWidth 5 :=
    fun x y => BitVec.setWidth_or ..
  rw [flags, commit_csrWriteFflags, commit_csrWdata pkg i unit]
  change (if (retires i && isFpu i.instr0.fu || _) = true then _ else _) = _
  cases retires i && isFpu i.instr0.fu <;>
    cases secondPortTaken i (commit pkg i) && isFpu i.instr1.fu <;>
    simp only [Bool.or_true, Bool.or_false, Bool.false_eq_true, ↓reduceIte, packed, both,
      BitVec.ofNat_eq_ofNat, BitVec.or_zero, BitVec.zero_or]

/-- Slot 1 never retires together with an exception. -/
theorem secondPort_idle (raised : (exception i).valid = true) :
    secondPortTaken i (commit pkg i) = false := by
  simp only [secondPortTaken, raised, Bool.not_true, Bool.and_false, Bool.false_and]

end Outputs

end Ariane.CommitStage
