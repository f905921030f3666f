import Mathlib.Logic.Basic

set_option autoImplicit false

/- `axi_adapter2.sv`: reads and writes on an AXI port, independent of each other. -/
namespace Ariane.AxiAdapter2

/-- `aw` and `ar`. -/
structure AxiAddr (idWidth : Nat) where
  id : BitVec idWidth := 0
  addr : BitVec 64 := 0
  len : BitVec 8 := 0
  size : BitVec 3 := 0
  burst : BitVec 2 := 0
  deriving DecidableEq

/-- `w`. -/
structure AxiBeat where
  data : BitVec 64 := 0
  strb : BitVec 8 := 0
  last : Bool := false
  deriving DecidableEq

/-- `axi_req_o`. -/
structure AxiReq (idWidth : Nat) where
  aw : AxiAddr idWidth
  awValid : Bool
  w : AxiBeat
  wValid : Bool
  bReady : Bool
  ar : AxiAddr idWidth
  arValid : Bool
  rReady : Bool
  deriving DecidableEq

/-- `axi_resp_i`. -/
structure AxiResp (idWidth : Nat) where
  awReady : Bool := false
  wReady : Bool := false
  bValid : Bool := false
  bId : BitVec idWidth := 0
  arReady : Bool := false
  rValid : Bool := false
  rId : BitVec idWidth := 0
  rData : BitVec 64 := 0
  rLast : Bool := false
  deriving DecidableEq

/-- The states of the write channel. -/
inductive WrState where
  | idle | waitAwReady | waitLastWReady | waitLastWReadyAwReady | waitAwReadyBurst
  deriving DecidableEq

/-- The registers, with `DATA_WORDS` as a power of two. -/
structure State (wordBits idWidth : Nat) where
  wrState : WrState := .idle
  wrCnt : BitVec wordBits := 0
  rdCnt : BitVec wordBits := 0
  rdData : BitVec wordBits → BitVec 64 := fun _ => 0
  rdValid : Bool := false
  rdId : BitVec idWidth := 0

/-- The requests. -/
structure Input (wordBits idWidth : Nat) where
  rdReq : Bool
  rdAddr : BitVec 64
  rdBlen : BitVec wordBits
  rdSize : BitVec 2
  rdId : BitVec idWidth
  rdRdy : Bool
  wrReq : Bool
  wrAddr : BitVec 64
  wrData : BitVec wordBits → BitVec 64
  wrBe : BitVec wordBits → BitVec 8
  wrBlen : BitVec wordBits
  wrSize : BitVec 2
  wrId : BitVec idWidth
  wrRdy : Bool

/-- What `p_axi_write_fsm` assigns. -/
structure WriteFsm where
  wrState : WrState
  awValid : Bool := false
  wValid : Bool := false
  wrGnt : Bool := false
  wrCntEn : Bool := false
  wrCntClr : Bool := false
  deriving DecidableEq

variable {wordBits idWidth : Nat} (q : State wordBits idWidth) (i : Input wordBits idWidth)
  (r : AxiResp idWidth)

def wrSingleReq : Bool := decide (i.wrBlen = 0)

def wrCntDone : Bool := decide (q.wrCnt = i.wrBlen)

/-- `p_axi_write_fsm`. -/
def writeFsm : WriteFsm :=
  match q.wrState with
  | .idle =>
      if i.wrReq then
        if wrSingleReq i then
          { wrState := match r.awReady, r.wReady with
              | false, true => .waitAwReady
              | true, false => .waitLastWReady
              | _, _ => .idle
            awValid := true
            wValid := true
            wrGnt := r.awReady && r.wReady
            wrCntClr := true }
        else
          { wrState := match r.awReady, r.wReady with
              | true, true => .waitLastWReady
              | false, true => .waitLastWReadyAwReady
              | true, false => .waitLastWReady
              | false, false => .idle
            awValid := true
            wValid := true
            wrCntEn := r.wReady }
      else { wrState := .idle }
  | .waitAwReady =>
      if r.awReady then { wrState := .idle, awValid := true, wrGnt := true }
      else { wrState := .waitAwReady, awValid := true }
  | .waitLastWReadyAwReady =>
      match r.awReady, r.wReady with
      | false, true =>
          if wrCntDone q i then
            { wrState := .waitAwReadyBurst, awValid := true, wValid := true, wrCntClr := true }
          else
            { wrState := .waitLastWReadyAwReady, awValid := true, wValid := true, wrCntEn := true }
      | true, false => { wrState := .waitLastWReady, awValid := true, wValid := true }
      | true, true =>
          if wrCntDone q i then
            { wrState := .idle, awValid := true, wValid := true, wrGnt := true, wrCntClr := true }
          else { wrState := .waitLastWReady, awValid := true, wValid := true, wrCntEn := true }
      | false, false => { wrState := .waitLastWReadyAwReady, awValid := true, wValid := true }
  | .waitAwReadyBurst =>
      if r.awReady then { wrState := .idle, awValid := true, wrGnt := true }
      else { wrState := .waitAwReadyBurst, awValid := true }
  | .waitLastWReady =>
      if wrCntDone q i then
        if r.wReady then { wrState := .idle, wValid := true, wrGnt := true, wrCntClr := true }
        else { wrState := .waitLastWReady, wValid := true }
      else { wrState := .waitLastWReady, wValid := true, wrCntEn := r.wReady }

def wrGnt : Bool := (writeFsm q i r).wrGnt

def rdSingleReq : Bool := decide (i.rdBlen = 0)

def rdGnt : Bool := i.rdReq && r.arReady

/-- `axi_req_o`, with incremental bursts. -/
def axiReq : AxiReq idWidth where
  aw :=
    { id := i.wrId
      addr := i.wrAddr
      len := i.wrBlen.setWidth 8
      size := i.wrSize.setWidth 3
      burst := if wrSingleReq i then 0 else 1 }
  awValid := (writeFsm q i r).awValid
  w := { data := i.wrData q.wrCnt, strb := i.wrBe q.wrCnt, last := wrCntDone q i }
  wValid := (writeFsm q i r).wValid
  bReady := i.wrRdy
  ar :=
    { id := i.rdId
      addr := i.rdAddr
      len := i.rdBlen.setWidth 8
      size := i.rdSize.setWidth 3
      burst := if rdSingleReq i then 0 else 1 }
  arValid := i.rdReq
  rReady := i.rdRdy

def rdCntEn : Bool := r.rValid

/-- The counter is cleared by `r.last` alone. -/
def rdCntClr : Bool := r.rLast

/-- The registers after a cycle. -/
def next : State wordBits idWidth where
  wrState := (writeFsm q i r).wrState
  wrCnt :=
    if (writeFsm q i r).wrCntClr then 0
    else if (writeFsm q i r).wrCntEn then q.wrCnt + 1
    else q.wrCnt
  rdCnt := if rdCntClr r then 0 else if rdCntEn r then q.rdCnt + 1 else q.rdCnt
  rdData k := if decide (q.rdCnt = k) && rdCntEn r then r.rData else q.rdData k
  rdValid := r.rValid && r.rLast
  rdId := r.rId

section SingleWrite

/-- A cycle of the write channel in which all requests are of one word: the state, whether the
address is taken, whether the data is taken, the grant, and the state after it. -/
inductive SingleWrite (wrReq : Bool) : WrState → Bool → Bool → Bool → WrState → Prop where
  | idle : SingleWrite wrReq .idle false false false .idle
  | both : wrReq = true → SingleWrite wrReq .idle true true true .idle
  | data : wrReq = true → SingleWrite wrReq .idle false true false .waitAwReady
  | address : wrReq = true → SingleWrite wrReq .idle true false false .waitLastWReady
  | noAddress : SingleWrite wrReq .waitAwReady false false false .waitAwReady
  | lateAddress : SingleWrite wrReq .waitAwReady true false true .idle
  | noData : SingleWrite wrReq .waitLastWReady false false false .waitLastWReady
  | lateData : SingleWrite wrReq .waitLastWReady false true true .idle

theorem SingleWrite.req_of_idle {wrReq aw w : Bool} {after : WrState}
    (cycle : SingleWrite wrReq .idle aw w true after) : wrReq = true := by
  cases cycle with
  | both req => exact req

variable {q i}

theorem singleWrite (single : i.wrBlen = 0) (cnt : q.wrCnt = 0)
    (reached : q.wrState = .idle ∨ q.wrState = .waitAwReady ∨ q.wrState = .waitLastWReady) :
    SingleWrite i.wrReq q.wrState ((axiReq q i r).awValid && r.awReady)
        ((axiReq q i r).wValid && r.wReady) (wrGnt q i r) (next q i r).wrState ∧
      (next q i r).wrCnt = 0 := by
  have one : wrSingleReq i = true := decide_eq_true single
  have last : wrCntDone q i = true := decide_eq_true (cnt.trans single.symm)
  rcases reached with state | state | state
  · cases req : i.wrReq with
    | false =>
        simp only [axiReq, wrGnt, next, writeFsm, state, req, cnt]
        exact ⟨.idle, rfl⟩
    | true =>
        simp only [axiReq, wrGnt, next, writeFsm, state, req, one, cnt, if_true]
        cases aw : r.awReady <;> cases w : r.wReady
        · exact ⟨.idle, trivial⟩
        · exact ⟨.data rfl, trivial⟩
        · exact ⟨.address rfl, trivial⟩
        · exact ⟨.both rfl, trivial⟩
  · simp only [axiReq, wrGnt, next, writeFsm, state, cnt]
    cases aw : r.awReady
    · exact ⟨.noAddress, rfl⟩
    · exact ⟨.lateAddress, rfl⟩
  · simp only [axiReq, wrGnt, next, writeFsm, state, last, cnt, if_true]
    cases w : r.wReady
    · exact ⟨.noData, rfl⟩
    · exact ⟨.lateData, rfl⟩

end SingleWrite

end Ariane.AxiAdapter2
