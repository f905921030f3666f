import Ariane.DmCsrs

set_option autoImplicit false

/- `dmi_jtag.sv` and `dmi_jtag_tap.sv`: the debug transport module. A password that is shifted in
unlocks the accesses to the debug module. -/
namespace Ariane.DmiJtag

open Rtl (Machine)
open Dm (DmiReq dtmRead dtmWrite)

/-- The states of the TAP controller. -/
inductive TapState where
  | testLogicReset | runTestIdle | selectDrScan | captureDr | shiftDr | exit1Dr | pauseDr
  | exit2Dr | updateDr | selectIrScan | captureIr | shiftIr | exit1Ir | pauseIr | exit2Ir
  | updateIr
  deriving DecidableEq, Inhabited

/-- `tap_state_d`. -/
def TapState.next (tms : Bool) : TapState → TapState
  | testLogicReset => if tms then testLogicReset else runTestIdle
  | runTestIdle => if tms then selectDrScan else runTestIdle
  | selectDrScan => if tms then selectIrScan else captureDr
  | captureDr => if tms then exit1Dr else shiftDr
  | shiftDr => if tms then exit1Dr else shiftDr
  | exit1Dr => if tms then updateDr else pauseDr
  | pauseDr => if tms then exit2Dr else pauseDr
  | exit2Dr => if tms then updateDr else shiftDr
  | updateDr => if tms then selectDrScan else runTestIdle
  | selectIrScan => if tms then testLogicReset else captureIr
  | captureIr => if tms then exit1Ir else shiftIr
  | shiftIr => if tms then exit1Ir else shiftIr
  | exit1Ir => if tms then updateIr else pauseIr
  | pauseIr => if tms then exit2Ir else pauseIr
  | exit2Ir => if tms then updateIr else shiftIr
  | updateIr => if tms then selectDrScan else runTestIdle

/-! Values of `ir_reg_t`; all others select the bypass register. -/

def irIdcode : BitVec 5 := 0x01
def irDtmcsr : BitVec 5 := 0x10
def irDmiaccess : BitVec 5 := 0x11

def idcodeValue : BitVec 32 := 0x249511C3

/-- `dtm_op_t` of an unlock. -/
def dtmPass : BitVec 2 := 3

/-! `dmi_error_t`. -/

def dmiNoError : BitVec 2 := 0
def dmiBusy : BitVec 2 := 3

/-- The registers of the TAP. -/
structure Tap where
  tapState : TapState := .runTestIdle
  jtagIrShift : BitVec 5 := 0
  jtagIr : BitVec 5 := irIdcode
  idcode : BitVec 32 := idcodeValue
  bypass : Bool := false
  dtmcs : BitVec 32 := 0
  deriving DecidableEq, Inhabited

/-- `dmi_t`, what the data register is cut into. -/
structure Dmi where
  address : BitVec 7
  data : BitVec 32
  op : BitVec 2
  deriving DecidableEq, Inhabited

/-- The states of the access. -/
inductive Fsm where
  | idle | read | waitReadValid | write | waitWriteValid
  deriving DecidableEq, Inhabited

/-- The registers. `pass_chk` is a latch, `pass` holds the key. -/
structure State where
  tap : Tap := {}
  dr : BitVec 41 := 0
  fsm : Fsm := .idle
  address : BitVec 7 := 0
  data : BitVec 32 := 0
  error : BitVec 2 := dmiNoError
  passChk : Bool := false
  pass : BitVec 32 := 0
  deriving DecidableEq, Inhabited

/-- The inputs at one edge of the test clock: the pads and the answers of the clock crossing. -/
structure Input where
  tms : Bool := false
  tdi : Bool := false
  dmiReqReady : Bool := false
  dmiRespValid : Bool := false
  dmiResp : BitVec 32 := 0
  deriving DecidableEq, Inhabited

namespace Tap

variable (t : Tap) (tms tdi : Bool) (dmiError : BitVec 2)

def shiftDr : Bool := t.tapState == .shiftDr
def updateDr : Bool := t.tapState == .updateDr
def captureDr : Bool := t.tapState == .captureDr
def shiftIr : Bool := t.tapState == .shiftIr

/-- `dmi_access_o`. -/
def dmiAccess : Bool := t.jtagIr == irDmiaccess

/-- `dtmcs_select_o`. -/
def dtmcsSelect : Bool := t.jtagIr == irDtmcsr

def idcodeSelect : Bool := t.jtagIr == irIdcode

def bypassSelect : Bool := !t.dmiAccess && !t.dtmcsSelect && !t.idcodeSelect

/-- `dmi_reset_o`, the bit `dmireset` of `dtmcs_q`. -/
def dmiReset : Bool := t.dtmcs.getLsbD 16

/-- What `dtmcs` captures: `idle`, `dmistat`, `abits` and `version`. -/
def capturedDtmcs : BitVec 32 :=
  0#17 ++ 1#3 ++ dmiError ++ 7#6 ++ 1#4

/-- Shift one bit into a register from the left. -/
def shiftIn {n : Nat} (b : Bool) (x : BitVec n) : BitVec n :=
  (BitVec.ofBool b ++ x).extractLsb' 1 n

/-- The registers after one edge. -/
def next : Tap where
  tapState := t.tapState.next tms
  jtagIrShift :=
    if t.tapState = .captureIr then 0b0101
    else if t.shiftIr then shiftIn tdi t.jtagIrShift
    else t.jtagIrShift
  jtagIr := if t.tapState = .updateIr then t.jtagIrShift else t.jtagIr
  idcode :=
    if t.captureDr && t.idcodeSelect then idcodeValue
    else if t.shiftDr && t.idcodeSelect then shiftIn tdi t.idcode
    else t.idcode
  bypass :=
    if t.captureDr && t.bypassSelect then false
    else if t.shiftDr && t.bypassSelect then tdi
    else t.bypass
  dtmcs :=
    if t.captureDr && t.dtmcsSelect then capturedDtmcs dmiError
    else if t.shiftDr && t.dtmcsSelect then shiftIn tdi t.dtmcs
    else t.dtmcs

/-- `tdo_mux`. -/
def tdoMux (dmiTdo : Bool) : Bool :=
  if t.shiftIr then t.jtagIrShift.getLsbD 0
  else if t.idcodeSelect then t.idcode.getLsbD 0
  else if t.dtmcsSelect then t.dtmcs.getLsbD 0
  else if t.dmiAccess then dmiTdo
  else t.bypass

/-- `tdo_oe_o`. -/
def tdoOe : Bool := t.shiftIr || t.shiftDr

end Tap

section Cycle

variable (s : State) (i : Input)

/-- `dmi`. -/
def dmi : Dmi := ⟨s.dr.extractLsb' 34 7, s.dr.extractLsb' 2 32, s.dr.extractLsb' 0 2⟩

/-- A request is taken from the data register: the machine is idle and no error is sticky. -/
def accepts : Bool :=
  s.fsm == .idle && s.tap.dmiAccess && s.tap.updateDr && s.error == dmiNoError

/-- The request unlocks the debug module. -/
def unlocks : Bool := accepts s && (dmi s).op == dtmPass && (dmi s).data == s.pass

/-- `dmi_req_valid`. -/
def dmiReqValid : Bool := s.fsm == .read || s.fsm == .write

/-- `dmi_req`. -/
def dmiReq : DmiReq where
  addr := s.address
  op := if s.fsm = .write then dtmWrite else dtmRead
  data := s.data

/-- `error_dmi_busy`: a scan came while an access was in progress. -/
def errorDmiBusy : Bool :=
  (s.tap.updateDr && s.fsm != .idle) ||
    (s.tap.captureDr && (s.fsm == .read || s.fsm == .waitReadValid))

/-- `state_d`. -/
def nextFsm : Fsm :=
  match s.fsm with
  | .idle =>
      if accepts s && s.passChk && (dmi s).op == dtmRead then .read
      else if accepts s && s.passChk && (dmi s).op == dtmWrite then .write
      else .idle
  | .read => if i.dmiReqReady then .waitReadValid else .read
  | .waitReadValid => if i.dmiRespValid then .idle else .waitReadValid
  | .write => if i.dmiReqReady then .idle else .write
  | .waitWriteValid => if i.dmiRespValid then .idle else .waitWriteValid

/-- `data_d`. -/
def nextData : BitVec 32 :=
  if accepts s then (dmi s).data
  else if s.fsm = .waitReadValid ∧ i.dmiRespValid = true then i.dmiResp
  else s.data

/-- `dr_d`. -/
def nextDr : BitVec 41 :=
  if s.tap.captureDr && s.tap.dmiAccess then
    if s.error = dmiNoError ∧ errorDmiBusy s = false then s.address ++ s.data ++ dmiNoError
    else if s.error = dmiBusy ∨ errorDmiBusy s = true then s.address ++ s.data ++ dmiBusy
    else s.dr
  else if s.tap.shiftDr && s.tap.dmiAccess then Tap.shiftIn i.tdi s.dr
  else s.dr

/-- `error_d`. -/
def nextError : BitVec 2 :=
  if s.tap.dmiReset && s.tap.dtmcsSelect then dmiNoError
  else if errorDmiBusy s then dmiBusy
  else s.error

/-- The registers after one edge of the test clock. -/
def clock : State where
  tap := s.tap.next i.tms i.tdi s.error
  dr := nextDr s i
  fsm := nextFsm s i
  address := if accepts s then (dmi s).address else s.address
  data := nextData s i
  error := nextError s
  passChk := s.passChk || unlocks s
  pass := s.pass

/-- `trst_ni`: the key is not reset, nor the latch, which is open while an update carries the key. -/
def testReset : State := { passChk := s.passChk || unlocks s, pass := s.pass }

end Cycle

/-- What a debugger drives at one edge. -/
structure Bits where
  tms : Bool := false
  tdi : Bool := false

/-- From an idle controller, select the access to the debug module in the instruction register. -/
def selectDmi : List Bits :=
  [{ tms := true }, { tms := true }, {}, {}, { tdi := true }, {}, {}, {},
    { tms := true, tdi := true }, { tms := true }]

/-- After an update, shift 41 bits into the data register and update it. -/
def scanDr (word : BitVec 41) : List Bits :=
  [{ tms := true }, { tms := false }, { tms := false }] ++
    (List.range 41).map (fun k => { tms := decide (k = 40), tdi := word.getLsbD k }) ++
    [{ tms := true }]

end Ariane.DmiJtag
