import Ariane.Riscv
import Ariane.Rtl.Machine

set_option autoImplicit false

/- `csr_regfile.sv`: the control and status registers, the privilege level, traps, returns
and debug entry. A state `q` is what the registers hold, a state `d` what they will hold. -/
namespace Ariane.CsrRegfile

open Rtl (Machine Field member assign merge)
open Riscv

/-- The registers. -/
structure State where
  privLvl : PrivLvl := privLvlM
  debugMode : Bool := false
  mstatus : BitVec 64 := 0
  satp : BitVec 64 := 0
  dcsr : BitVec 32 := 0
  mtvecRstLoad : Bool := true
  dpc : BitVec 64 := 0
  dscratch0 : BitVec 64 := 0
  dscratch1 : BitVec 64 := 0
  mtvec : BitVec 64 := 0
  medeleg : BitVec 64 := 0
  mideleg : BitVec 64 := 0
  mip : BitVec 64 := 0
  mie : BitVec 64 := 0
  mscratch : BitVec 64 := 0
  mepc : BitVec 64 := 0
  mcause : BitVec 64 := 0
  mtval : BitVec 64 := 0
  stvec : BitVec 64 := 0
  sscratch : BitVec 64 := 0
  sepc : BitVec 64 := 0
  scause : BitVec 64 := 0
  stval : BitVec 64 := 0
  dcache : BitVec 64 := 1
  icache : BitVec 64 := 1
  wfi : Bool := false
  cycle : BitVec 64 := 0
  instret : BitVec 64 := 0
  fcsr : BitVec 32 := 0
  enLdStTranslation : Bool := false
  deriving DecidableEq, Inhabited

/-- The inputs of one cycle; slot and port numbers are suffixes. -/
structure Input where
  timeIrq : Bool := false
  instr0 : ScoreboardEntry := {}
  commitAck0 : Bool := false
  commitAck1 : Bool := false
  bootAddr : BitVec 64 := 0
  hartId : BitVec 64 := 0
  ex : Exception := {}
  csrOp : FuOp := .add
  csrAddr : BitVec 12 := 0
  csrWdata : BitVec 64 := 0
  dirtyFpState : Bool := false
  csrWriteFflags : Bool := false
  pc : BitVec 64 := 0
  irq0 : Bool := false
  irq1 : Bool := false
  ipi : Bool := false
  debugReq : Bool := false
  perfData : BitVec 64 := 0
  deriving DecidableEq, Inhabited

/-- The asynchronous reset. -/
def reset : State := { dcsr := assign 0 Dcsr.prv privLvlM }

/-- `priv_lvl_o`: debug mode executes at machine level. -/
def privLvlO (q : State) : PrivLvl := if q.debugMode then privLvlM else q.privLvl

/-- `csr_we` and `csr_read` of `csr_op_logic`. -/
def csrWe (op : FuOp) : Bool := op == .csrWrite || op == .csrSet || op == .csrClear

def csrRead (op : FuOp) : Bool := csrWe op || op == .csrRead

def mret (i : Input) : Bool := i.csrOp == .mret && !i.ex.valid

def sret (i : Input) : Bool := i.csrOp == .sret && !i.ex.valid

def dret (i : Input) : Bool := i.csrOp == .dret && !i.ex.valid

/-- The floating-point registers are inaccessible. -/
def fpOff (q : State) : Bool := member q.mstatus Status.fs == off

/-- Accesses to `satp` are intercepted. -/
def satpTrapped (q : State) : Bool :=
  privLvlO q == privLvlS && member q.mstatus Status.tvm == 1#1

/-- The case statement of `csr_read_process`; `none` is a read access exception. -/
def readReg (pkg : Pkg) (q : State) (i : Input) : CsrReg → Option (BitVec 64)
  | .fflags => if fpOff q then none else some ((member q.fcsr Fcsr.fflags).setWidth 64)
  | .frm => if fpOff q then none else some ((member q.fcsr Fcsr.frm).setWidth 64)
  | .fcsr => if fpOff q then none else
      some ((member q.fcsr Fcsr.frm ++ member q.fcsr Fcsr.fflags).setWidth 64)
  | .ftran => if fpOff q then none else some ((member q.fcsr Fcsr.fprec).setWidth 64)
  | .dcsr => some (q.dcsr.setWidth 64)
  | .dpc => some q.dpc
  | .dscratch0 => some q.dscratch0
  | .dscratch1 => some q.dscratch1
  | .tselect | .tdata1 | .tdata2 | .tdata3 => some 0
  | .sstatus => some (q.mstatus &&& pkg.smodeStatusReadMask)
  | .sie => some (q.mie &&& q.mideleg)
  | .sip => some (q.mip &&& q.mideleg)
  | .stvec => some q.stvec
  | .scounteren => some 0
  | .sscratch => some q.sscratch
  | .sepc => some q.sepc
  | .scause => some q.scause
  | .stval => some q.stval
  | .satp => if satpTrapped q then none else some q.satp
  | .mstatus => some q.mstatus
  | .misa => some pkg.isaCode
  | .medeleg => some q.medeleg
  | .mideleg => some q.mideleg
  | .mie => some q.mie
  | .mtvec => some q.mtvec
  | .mcounteren => some 0
  | .mscratch => some q.mscratch
  | .mepc => some q.mepc
  | .mcause => some q.mcause
  | .mtval => some q.mtval
  | .mip => some q.mip
  | .mvendorid => some 0
  | .marchid => some pkg.arianeMarchid
  | .mimpid => some 0
  | .mhartid => some i.hartId
  | .mcycle => some q.cycle
  | .minstret => some q.instret
  | .dcache => some q.dcache
  | .icache => some q.icache
  | .cycle => some q.cycle
  | .instret => some q.instret
  | .perf _ => some i.perfData

/-- The value read at the address of the instruction, if there is one. -/
def readAddr (pkg : Pkg) (q : State) (i : Input) : Option (BitVec 64) :=
  (decode pkg i.csrAddr).bind (readReg pkg q i)

/-- `read_access_exception`. -/
def readAccessException (pkg : Pkg) (q : State) (i : Input) : Bool :=
  csrRead i.csrOp && (readAddr pkg q i).isNone

/-- `csr_rdata`. -/
def csrRdata (pkg : Pkg) (q : State) (i : Input) : BitVec 64 :=
  if csrRead i.csrOp then (readAddr pkg q i).getD 0 else 0

/-- `csr_rdata_o`: the external interrupt shows in `mip` and `sip`. -/
def csrRdataO (pkg : Pkg) (q : State) (i : Input) : BitVec 64 :=
  match decode pkg i.csrAddr with
  | some .mip => csrRdata pkg q i ||| (BitVec.ofBool i.irq1).setWidth 64 <<< irqSExt
  | some .sip => csrRdata pkg q i |||
      (BitVec.ofBool (i.irq1 && q.mideleg.getLsbD irqSExt)).setWidth 64 <<< irqSExt
  | _ => csrRdata pkg q i

/-- `csr_wdata`. -/
def csrWdata (pkg : Pkg) (q : State) (i : Input) : BitVec 64 :=
  match i.csrOp with
  | .csrSet => i.csrWdata ||| csrRdata pkg q i
  | .csrClear => ~~~i.csrWdata &&& csrRdata pkg q i
  | _ => i.csrWdata

/-- The counters and the reset value of `mtvec`, first part of `csr_update`. -/
def counters (pkg : Pkg) (q : State) (i : Input) : State :=
  let first := if i.commitAck0 && !i.ex.valid then q.instret + 1 else q.instret
  let instret := if i.commitAck1 && !i.ex.valid then first + 1 else first
  let d := { q with
    mtvecRstLoad := false
    mtvec := if q.mtvecRstLoad then i.bootAddr + 0x40 else q.mtvec }
  if q.debugMode then d
  else { d with
    instret := instret
    cycle := if pkg.enableCycleCount then q.cycle + 1 else instret }

/-- What the write case leaves: the registers and the signals it raises. -/
structure Written where
  d : State
  dirtyFpStateCsr : Bool := false
  flush : Bool := false
  updateAccessException : Bool := false
  perfWe : Bool := false

/-- The extension registers summed up in `mstatus.sd`. -/
def sdOf (q : State) : BitVec 1 :=
  BitVec.ofBool (member q.mstatus Status.xs == dirty || member q.mstatus Status.fs == dirty)

/-- `fs` is hardwired to off without floating point. -/
def hardwireFs (pkg : Pkg) (m : BitVec 64) : BitVec 64 :=
  if pkg.fpPresent then m else assign m Status.fs off

/-- The new `mstatus` after a write to `sstatus`. -/
def writeSstatus (pkg : Pkg) (q : State) (w : BitVec 64) : BitVec 64 :=
  assign (hardwireFs pkg (merge pkg.smodeStatusWriteMask q.mstatus w)) Status.sd (sdOf q)

/-- The new `mstatus` after a write to `mstatus`. -/
def writeMstatus (pkg : Pkg) (q : State) (w : BitVec 64) : BitVec 64 :=
  let m := assign w Status.sd (sdOf q)
  let m := hardwireFs pkg (assign m Status.xs off)
  assign (assign m Status.upie 0#1) Status.uie 0#1

/-- The new `satp`: the address space identifier is cut, with an unknown mode the old value stays. -/
def writeSatp (pkg : Pkg) (old w : BitVec 64) : BitVec 64 :=
  let sapt := assign w Satp.asid (member w Satp.asid &&& (BitVec.allOnes pkg.asidWidth).setWidth 16)
  if member sapt Satp.mode == modeOff || member sapt Satp.mode == modeSv39 then sapt else old

/-- The new `dcsr` after a write. -/
def writeDcsr (q : State) (w : BitVec 64) : BitVec 32 :=
  let r := assign (w.setWidth 32) Dcsr.xdebugver 4#4
  let r := assign r Dcsr.prv q.privLvl
  assign (assign (assign r Dcsr.nmip 0#1) Dcsr.stopcount 0#1) Dcsr.stoptime 0#1

/-- Exceptions that may be delegated. -/
def medelegMask : BitVec 64 :=
  mipBit 0 ||| mipBit 3 ||| mipBit 8 ||| mipBit 12 ||| mipBit 13 ||| mipBit 15

/-- Interrupts of the supervisor level. -/
def supervisorMask : BitVec 64 := mipBit irqSSoft ||| mipBit irqSTimer ||| mipBit irqSExt

/-- Interrupts that may be enabled. -/
def mieMask : BitVec 64 := supervisorMask ||| mipBit irqMSoft ||| mipBit irqMTimer

/-- `{w[63:2], 1'b0, w[0]}`. -/
def tvecOf (w : BitVec 64) : BitVec 64 := w.extractLsb' 2 62 ++ 0#1 ++ w.extractLsb' 0 1

/-- `{w[63:1], 1'b0}`. -/
def epcOf (w : BitVec 64) : BitVec 64 := w.extractLsb' 1 63 ++ 0#1

/-- `mtvec` with the alignment of the vectored mode. -/
def mtvecOf (w : BitVec 64) : BitVec 64 :=
  if w.getLsbD 0 then w.extractLsb' 8 56 ++ 0#7 ++ w.extractLsb' 0 1 else tvecOf w

/-- A floating-point register is written unless it is off. -/
def writeFp (q d : State) (fcsr : BitVec 32) : Written :=
  if fpOff q then { d := d, updateAccessException := true }
  else { d := { d with fcsr := fcsr }, dirtyFpStateCsr := true, flush := true }

/-- The case statement of `csr_update`; other addresses are an access exception. -/
def writeReg (pkg : Pkg) (q d : State) (w : BitVec 64) : Option CsrReg → Written
  | some .fflags => writeFp q d (assign q.fcsr Fcsr.fflags (w.setWidth 5))
  | some .frm => writeFp q d (assign q.fcsr Fcsr.frm (w.setWidth 3))
  | some .fcsr => writeFp q d
      (assign (assign q.fcsr Fcsr.fflags (w.setWidth 5)) Fcsr.frm (w.extractLsb' 5 3))
  | some .ftran => writeFp q d (assign q.fcsr Fcsr.fprec (w.setWidth 7))
  | some .dcsr => { d := { d with dcsr := writeDcsr q w } }
  | some .dpc => { d := { d with dpc := w } }
  | some .dscratch0 => { d := { d with dscratch0 := w } }
  | some .dscratch1 => { d := { d with dscratch1 := w } }
  | some .tselect | some .tdata1 | some .tdata2 | some .tdata3 => { d := d }
  | some .sstatus => { d := { d with mstatus := writeSstatus pkg q w }, flush := true }
  | some .sie => { d := { d with mie := merge q.mideleg q.mie w } }
  | some .sip => { d := { d with mip := merge (mipBit irqSSoft &&& q.mideleg) q.mip w } }
  | some .scounteren => { d := d }
  | some .stvec => { d := { d with stvec := tvecOf w } }
  | some .sscratch => { d := { d with sscratch := w } }
  | some .sepc => { d := { d with sepc := epcOf w } }
  | some .scause => { d := { d with scause := w } }
  | some .stval => { d := { d with stval := w } }
  | some .satp =>
      if satpTrapped q then { d := d, flush := true, updateAccessException := true }
      else { d := { d with satp := writeSatp pkg d.satp w }, flush := true }
  | some .mstatus => { d := { d with mstatus := writeMstatus pkg q w }, flush := true }
  | some .misa => { d := d }
  | some .medeleg => { d := { d with medeleg := merge medelegMask q.medeleg w } }
  | some .mideleg => { d := { d with mideleg := merge supervisorMask q.mideleg w } }
  | some .mie => { d := { d with mie := merge mieMask q.mie w } }
  | some .mtvec => { d := { d with mtvec := mtvecOf w } }
  | some .mcounteren => { d := d }
  | some .mscratch => { d := { d with mscratch := w } }
  | some .mepc => { d := { d with mepc := epcOf w } }
  | some .mcause => { d := { d with mcause := w } }
  | some .mtval => { d := { d with mtval := w } }
  | some .mip => { d := { d with mip := merge supervisorMask q.mip w } }
  | some .mcycle => { d := { d with cycle := w } }
  -- the written value ends in the local variable, after the register was assigned
  | some .minstret => { d := d }
  | some .dcache => { d := { d with dcache := (w.extractLsb' 0 1).setWidth 64 } }
  | some .icache => { d := { d with icache := (w.extractLsb' 0 1).setWidth 64 } }
  | some (.perf _) => { d := d, perfWe := true }
  | some .mvendorid | some .marchid | some .mimpid | some .mhartid | some .cycle
  | some .instret | none => { d := d, updateAccessException := true }

/-- `csr_update` up to and including the write case. -/
def written (pkg : Pkg) (q : State) (i : Input) : Written :=
  if csrWe i.csrOp then
    writeReg pkg q (counters pkg q i) (csrWdata pkg q i) (decode pkg i.csrAddr)
  else { d := counters pkg q i }

/-- The fixed widths, the dirty floating-point state and the accrued flags. -/
def status (pkg : Pkg) (q : State) (i : Input) (u : Written) : State :=
  let m := assign (assign u.d.mstatus Status.sxl xlen64) Status.uxl xlen64
  let dirtied := pkg.fpPresent && (u.dirtyFpStateCsr || i.dirtyFpState)
  { u.d with
    mstatus := if dirtied then assign m Status.fs dirty else m
    fcsr := if i.csrWriteFflags then
        assign u.d.fcsr Fcsr.fflags (i.csrWdata.setWidth 5 ||| member q.fcsr Fcsr.fflags)
      else u.d.fcsr }

/-- The pending bits that follow external signals. -/
def externalInterrupts (i : Input) (d : State) : State :=
  let bit (irq : Nat) (inside : irq + 1 ≤ 64) : Field 64 := ⟨irq, 1, inside⟩
  { d with
    mip := assign (assign (assign d.mip (bit irqMExt (by decide)) (BitVec.ofBool i.irq0))
      (bit irqMSoft (by decide)) (BitVec.ofBool i.ipi))
      (bit irqMTimer (by decide)) (BitVec.ofBool i.timeIrq) }

/-- The cause is delegated to the supervisor level. -/
def delegated (q : State) (cause : BitVec 64) : Bool :=
  let bit := (cause.setWidth 6).toNat
  if cause.getLsbD 63 then q.mideleg.getLsbD bit else q.medeleg.getLsbD bit

/-- An exception is taken, which never happens in debug mode. -/
def takesTrap (q : State) (i : Input) : Bool := !q.debugMode && i.ex.valid

/-- `trap_to_priv_lvl`. -/
def trapToPrivLvl (q : State) (i : Input) : PrivLvl :=
  if takesTrap q i && delegated q i.ex.cause then
    if privLvlO q == privLvlM then privLvlM else privLvlS
  else privLvlM

/-- The value for `stval` or `mtval`. -/
def trapValue (pkg : Pkg) (ex : Exception) : BitVec 64 :=
  if pkg.zeroTval && (ex.cause ∈ [illegalInstr, breakpoint, envCallUmode, envCallSmode,
      envCallMmode] || ex.isInterrupt) then 0
  else ex.tval

/-- The exception stack. -/
def trapEntry (pkg : Pkg) (q : State) (i : Input) (d : State) : State :=
  if takesTrap q i then
    let d := if trapToPrivLvl q i == privLvlS then
        { d with
          mstatus := assign (assign (assign d.mstatus Status.sie 0#1)
            Status.spie (member q.mstatus Status.sie)) Status.spp (q.privLvl.extractLsb' 0 1)
          scause := i.ex.cause
          sepc := i.pc
          stval := trapValue pkg i.ex }
      else
        { d with
          mstatus := assign (assign (assign d.mstatus Status.mie 0#1)
            Status.mpie (member q.mstatus Status.mie)) Status.mpp q.privLvl
          mcause := i.ex.cause
          mepc := i.pc
          mtval := trapValue pkg i.ex }
    { d with privLvl := trapToPrivLvl q i }
  else d

/-- `dcsr.ebreak` of the current level; the unimplemented level has none. -/
def ebreakEnters (q : State) : Bool :=
  if privLvlO q == privLvlM then member q.dcsr Dcsr.ebreakm == 1#1
  else if privLvlO q == privLvlS then member q.dcsr Dcsr.ebreaks == 1#1
  else if privLvlO q == privLvlU then member q.dcsr Dcsr.ebreaku == 1#1
  else false

/-- The trap is a breakpoint. -/
def isBreakpoint (i : Input) : Bool := i.ex.valid && i.ex.cause == breakpoint

/-- A debug request with an instruction to associate it to. -/
def debugRequested (i : Input) : Bool := i.debugReq && i.instr0.valid

/-- Single step, and slot 0 has retired. -/
def stepped (q : State) (i : Input) : Bool :=
  member q.dcsr Dcsr.step == 1#1 && i.commitAck0

/-- `set_debug_pc_o`. -/
def setDebugPc (q : State) (i : Input) : Bool :=
  if q.debugMode then isBreakpoint i
  else (isBreakpoint i && ebreakEnters q) || debugRequested i || stepped q i

/-- `interrupt_cause`: the last assignment wins. -/
def interruptCauseOf (q : State) (i : Input) : BitVec 64 :=
  let pending (irq : Nat) : Bool := q.mie.getLsbD irq && q.mip.getLsbD irq
  let c : BitVec 64 := 0
  let c := if pending irqSTimer then interruptCause irqSTimer else c
  let c := if pending irqSSoft then interruptCause irqSSoft else c
  let c := if q.mie.getLsbD irqSExt && (q.mip.getLsbD irqSExt || i.irq1) then
      interruptCause irqSExt else c
  let c := if pending irqMTimer then interruptCause irqMTimer else c
  let c := if pending irqMSoft then interruptCause irqMSoft else c
  if pending irqMExt then interruptCause irqMExt else c

/-- `interrupt_global_enable`. -/
def interruptGlobalEnable (q : State) : Bool :=
  !q.debugMode && (!(member q.dcsr Dcsr.step == 1#1) || member q.dcsr Dcsr.stepie == 1#1) &&
    ((member q.mstatus Status.mie == 1#1 && privLvlO q == privLvlM) || privLvlO q != privLvlM)

/-- The interrupt part of `exception_ctrl`. -/
def interrupt (q : State) (i : Input) : Exception :=
  let cause := interruptCauseOf q i
  if cause.getLsbD 63 && interruptGlobalEnable q then
    { cause := cause
      valid :=
        if q.mideleg.getLsbD (cause.setWidth 6).toNat then
          (member q.mstatus Status.sie == 1#1 && privLvlO q == privLvlS) || privLvlO q == privLvlU
        else true }
  else {}

/-- The level does not suffice; `mepc` is exempt. -/
def privilegeViolation (pkg : Pkg) (q : State) (i : Input) : Bool :=
  !covers (privLvlO q) (addressPriv i.csrAddr) && i.csrAddr != CsrReg.mepc.address pkg

/-- A register of the debug module is accessed outside debug mode. -/
def debugViolation (q : State) (i : Input) : Bool :=
  i.csrAddr.extractLsb' 4 8 == 0x7b#8 && !q.debugMode

/-- The access to the CSR is an illegal instruction. -/
def accessIllegal (pkg : Pkg) (q : State) (i : Input) : Bool :=
  ((csrWe i.csrOp || csrRead i.csrOp) && (privilegeViolation pkg q i || debugViolation q i)) ||
    (written pkg q i).updateAccessException || readAccessException pkg q i

/-- `csr_exception_o`: an illegal access has precedence over interrupts. -/
def csrException (pkg : Pkg) (q : State) (i : Input) : Exception :=
  if accessIllegal pkg q i then { interrupt q i with cause := illegalInstr, valid := true }
  else interrupt q i

/-- `trap_vector_base_o`. -/
def trapVectorBase (pkg : Pkg) (q : State) (i : Input) : BitVec 64 :=
  let base (tvec : BitVec 64) : BitVec 64 := tvec.extractLsb' 2 62 ++ 0#2
  let b := if trapToPrivLvl q i == privLvlS then base q.stvec else base q.mtvec
  let b := if q.debugMode then exceptionAddress else b
  let cause := (csrException pkg q i).cause
  if (q.mtvec.getLsbD 0 || q.stvec.getLsbD 0) && cause.getLsbD 63 then
    assign b ⟨2, 6, by decide⟩ (cause.setWidth 6)
  else b

/-- `epc_o`. -/
def epcO (q : State) (i : Input) : BitVec 64 :=
  if dret i then q.dpc else if sret i then q.sepc else q.mepc

/-- `eret_o`. -/
def eret (i : Input) : Bool := mret i || sret i || dret i

/-- `flush_o`. -/
def flushO (pkg : Pkg) (q : State) (i : Input) : Bool :=
  (written pkg q i).flush && !takesTrap q i

/-- Where a single step resumes. `eret_o` is assigned only after this point of the block, so
its branch is never taken. -/
def steppedPc (pkg : Pkg) (q : State) (i : Input) : BitVec 64 :=
  if i.instr0.fu == .ctrlFlow then i.instr0.bp.predictAddress
  else if i.ex.valid then trapVectorBase pkg q i
  else i.instr0.pc + (if i.instr0.isCompressed then 2 else 4)

/-- Entry into debug mode. -/
def debugEntry (pkg : Pkg) (q : State) (i : Input) (d : State) : State :=
  if q.debugMode then d
  else
    let d := { d with dcsr := assign d.dcsr Dcsr.prv (privLvlO q) }
    let d := if isBreakpoint i then
        { d with
          -- the unimplemented level assigns nothing
          debugMode := if privLvlO q ∈ [privLvlM, privLvlS, privLvlU] then ebreakEnters q
            else d.debugMode
          dpc := i.pc
          dcsr := assign d.dcsr Dcsr.cause causeBreakpoint }
      else d
    let d := if debugRequested i then
        { d with
          dpc := i.pc
          debugMode := true
          dcsr := assign d.dcsr Dcsr.cause causeRequest }
      else d
    if stepped q i then
      { d with
        dpc := steppedPc pkg q i
        debugMode := true
        dcsr := assign d.dcsr Dcsr.cause causeSingleStep }
    else d

/-- `mprv`. -/
def mprv (q : State) : Bool :=
  if q.debugMode && member q.dcsr Dcsr.mprven != 1#1 then false
  else member q.mstatus Status.mprv == 1#1

/-- `en_translation_o`. -/
def enTranslation (q : State) : Bool :=
  member q.satp Satp.mode == modeSv39 && privLvlO q != privLvlM

/-- Translation of loads and stores in the next cycle. -/
def translation (q d : State) : State :=
  { d with
    enLdStTranslation :=
      if mprv q && member q.satp Satp.mode == modeSv39 && member q.mstatus Status.mpp != privLvlM then
        true
      else enTranslation q }

/-- Return from a trap or from debug mode. -/
def xret (q : State) (i : Input) (d : State) : State :=
  let d := if mret i then
      { d with
        mstatus := assign (assign (assign d.mstatus Status.mie (member q.mstatus Status.mpie))
          Status.mpp privLvlU) Status.mpie 1#1
        privLvl := member q.mstatus Status.mpp }
    else d
  let d := if sret i then
      { d with
        mstatus := assign (assign (assign d.mstatus Status.sie (member q.mstatus Status.spie))
          Status.spp 0#1) Status.spie 1#1
        privLvl := (member q.mstatus Status.spp).setWidth 2 }
    else d
  if dret i then { d with privLvl := member q.dcsr Dcsr.prv, debugMode := false } else d

/-- `wfi_d`. -/
def waits (q : State) (i : Input) : Bool :=
  if q.mip != 0 || i.debugReq || i.irq1 then false
  else if !q.debugMode && i.csrOp == .wfi && !i.ex.valid then true
  else q.wfi

/-- All registers after one cycle. -/
def next (pkg : Pkg) (q : State) (i : Input) : State :=
  let d := status pkg q i (written pkg q i)
  let d := externalInterrupts i d
  let d := trapEntry pkg q i d
  let d := debugEntry pkg q i d
  let d := translation q d
  let d := xret q i d
  { d with wfi := waits q i }

def machine (pkg : Pkg) : Machine State Input := ⟨reset, next pkg⟩

end Ariane.CsrRegfile
