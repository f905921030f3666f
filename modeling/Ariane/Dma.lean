import Ariane.Rtl.Machine
import Mathlib.Logic.Function.Basic

set_option autoImplicit false

/- `dma_axi_adapter.sv`, `dma.sv` and `dma_wrapper.sv`: a DMA engine that reads one burst into a
buffer and writes the buffer in one burst. -/
namespace Ariane.Dma

open Rtl (Machine)

/-- The fields of `aw` and `ar` that depend on the state. -/
structure AxiCommand where
  addr : BitVec 64 := 0
  len : BitVec 8 := 0
  size : BitVec 3 := 0
  burst : BitVec 2 := 0
  deriving DecidableEq, Inhabited

/-- The fields of `w`. -/
structure AxiBeat where
  data : BitVec 64 := 0
  strb : BitVec 8 := 0
  last : Bool := false
  deriving DecidableEq, Inhabited

/-- `axi_req_o`. -/
structure AxiReq where
  awValid : Bool := false
  aw : AxiCommand := {}
  arValid : Bool := false
  ar : AxiCommand := {}
  wValid : Bool := false
  w : AxiBeat := {}
  bReady : Bool := false
  rReady : Bool := false
  deriving DecidableEq, Inhabited

/-- `axi_resp_i`. -/
structure AxiResp where
  awReady : Bool := false
  arReady : Bool := false
  wReady : Bool := false
  rValid : Bool := false
  rLast : Bool := false
  rData : BitVec 64 := 0
  bValid : Bool := false
  deriving DecidableEq, Inhabited

/-- The states of the adapter. -/
inductive AdapterState where
  | idle | waitBValid | waitAwReady | waitLastWReady | waitLastWReadyAwReady | waitAwReadyBurst
  | waitRValid | waitRValidMultiple | completeRead
  deriving DecidableEq, Inhabited

/-- The registers of the adapter. -/
structure Adapter where
  state : AdapterState := .idle
  cnt : BitVec 8 := 0
  mem : BitVec 8 → BitVec 64 := fun _ => 0

/-- The request at the adapter. `single` is `type_i == 1`. -/
structure AdapterInput where
  req : Bool := false
  single : Bool := false
  addr : BitVec 64 := 0
  we : Bool := false
  be : BitVec 8 := 0
  len : BitVec 8 := 0
  size : BitVec 3 := 0
  deriving DecidableEq, Inhabited

/-- What `axi_fsm` assigns. -/
structure AdapterOutput where
  axi : AxiReq
  state : AdapterState
  cnt : BitVec 8
  gnt : Bool := false
  valid : Bool := false
  memWen : Bool := false
  memWaddr : BitVec 8 := 0
  memWdata : BitVec 64 := 0

section Adapter

variable (q : Adapter) (i : AdapterInput) (r : AxiResp)

/-- The fields of `aw` and `ar` before the `case`. -/
def defaultCommand : AxiCommand where
  addr := i.addr
  len := 0
  size := i.size
  burst := if i.single then 0 else 1

/-- The assignments before the `case`. -/
def defaultOutput : AdapterOutput where
  axi :=
    { aw := defaultCommand i
      ar := defaultCommand i
      w := { data := q.mem 0, strb := i.be } }
  state := q.state
  cnt := q.cnt

/-- The state `IDLE`. -/
def idleState : AdapterOutput :=
  let o := { defaultOutput q i with cnt := 0 }
  if i.req then
    if i.we then
      let o := { o with axi := { o.axi with awValid := true, wValid := true } }
      if i.single then
        { o with
          axi := { o.axi with w := { o.axi.w with last := true } }
          gnt := r.awReady && r.wReady
          state := match r.awReady, r.wReady with
            | true, true => .waitBValid
            | false, true => .waitAwReady
            | true, false => .waitLastWReady
            | false, false => .idle }
      else
        { o with
          axi := { o.axi with aw := { o.axi.aw with len := i.len } }
          cnt := if r.wReady then i.len - 1 else i.len
          state := match r.awReady, r.wReady with
            | true, true => .waitLastWReady
            | false, true => .waitLastWReadyAwReady
            | true, false => .waitLastWReady
            | false, false => o.state }
    else
      let o := { o with axi := { o.axi with arValid := true }, gnt := r.arReady }
      let o := if !i.single then
          { o with axi := { o.axi with ar := { o.axi.ar with len := i.len } }, cnt := i.len }
        else o
      if r.arReady then
        { o with state := if i.single then .waitRValid else .waitRValidMultiple }
      else o
  else o

/-- The word of the buffer that is written next. -/
def burstBeat : AxiBeat where
  data := if i.single then q.mem 0 else q.mem (i.len - q.cnt)
  strb := i.be
  last := q.cnt == 0

/-- Both the address and the last words are still to be accepted. -/
def waitBothState : AdapterOutput :=
  let o := defaultOutput q i
  let o := { o with
    axi := { o.axi with
      wValid := true, w := burstBeat q i, awValid := true
      aw := { o.axi.aw with len := i.len } } }
  match r.awReady, r.wReady with
  | false, true =>
      if q.cnt == 0 then { o with state := .waitAwReadyBurst } else { o with cnt := q.cnt - 1 }
  | true, false => { o with state := .waitLastWReady }
  | true, true =>
      if q.cnt == 0 then { o with state := .waitBValid, gnt := true }
      else { o with state := .waitLastWReady, cnt := q.cnt - 1 }
  | false, false => o

/-- The last words are still to be accepted. -/
def waitWordsState : AdapterOutput :=
  let o := defaultOutput q i
  let o := { o with axi := { o.axi with wValid := true, w := burstBeat q i } }
  if q.cnt == 0 then
    if r.wReady then { o with state := .waitBValid, gnt := true } else o
  else if r.wReady then { o with cnt := q.cnt - 1 }
  else o

/-- Words come in. -/
def readState (multiple : Bool) : AdapterOutput :=
  let o := defaultOutput q i
  let o := { o with axi := { o.axi with rReady := true } }
  if r.rValid then
    { o with
      state := if r.rLast then .completeRead else o.state
      memWen := true
      memWaddr := if multiple then i.len - q.cnt else 0
      memWdata := r.rData
      cnt := q.cnt - 1 }
  else o

/-- `axi_fsm`. -/
def axiFsm : AdapterOutput :=
  let o := defaultOutput q i
  match q.state with
  | .idle => idleState q i r
  | .waitAwReady =>
      let o := { o with axi := { o.axi with awValid := true } }
      if r.awReady then { o with gnt := true, state := .waitBValid } else o
  | .waitLastWReadyAwReady => waitBothState q i r
  | .waitAwReadyBurst =>
      let o := { o with
        axi := { o.axi with awValid := true, aw := { o.axi.aw with len := i.len } } }
      if r.awReady then { o with state := .waitBValid, gnt := true } else o
  | .waitLastWReady => waitWordsState q i r
  | .waitBValid =>
      let o := { o with axi := { o.axi with bReady := true } }
      if r.bValid then { o with state := .idle, valid := true } else o
  | .waitRValidMultiple => readState q i r true
  | .waitRValid => readState q i r false
  | .completeRead => { o with valid := true, state := .idle }

/-- The registers of the adapter after one cycle. -/
def Adapter.next : Adapter where
  state := (axiFsm q i r).state
  cnt := (axiFsm q i r).cnt
  mem := if (axiFsm q i r).memWen then
      Function.update q.mem (axiFsm q i r).memWaddr (axiFsm q i r).memWdata
    else q.mem

end Adapter

/-- `dma_ctrl_reg`. The two other values of the register are never reached. -/
inductive Ctrl where
  | idle | startLoad | load | startStore | store | done
  deriving DecidableEq, Inhabited

/-- The registers of `dma`. -/
structure Engine where
  config : BitVec 32 := 0
  length : BitVec 32 := 0
  sourceAddr : BitVec 32 := 0
  destAddr : BitVec 32 := 0
  request : AdapterInput := {}
  ctrl : Ctrl := .idle
  adapter : Adapter := {}

/-- The registers of `dma_wrapper` that reach the engine. -/
structure Registers where
  config : BitVec 32 := 0
  length : BitVec 32 := 0
  sourceAddr : BitVec 32 := 0
  destAddr : BitVec 32 := 0
  deriving DecidableEq, Inhabited

/-- The address of the 8-byte block at `a`, on the AXI bus. -/
def blockAddr (a : BitVec 32) : BitVec 64 := (0 : BitVec 32) ++ (a.extractLsb' 3 29 ++ (0 : BitVec 3))

section Engine

variable (e : Engine) (r : AxiResp)

/-- `start`. -/
def start : Bool := e.config.getLsbD 0

/-- `clr_done`. -/
def clrDone : Bool := e.config.getLsbD 1

/-- The outputs of the adapter. -/
def adapterOutput : AdapterOutput := axiFsm e.adapter e.request r

/-- `dma_ctrl_new`, where it is enabled. -/
def nextCtrl : Ctrl :=
  match e.ctrl with
  | .idle => if start e then .startLoad else .idle
  | .startLoad => if (adapterOutput e r).gnt then .load else .startLoad
  | .load => if (adapterOutput e r).valid then .startStore else .load
  | .startStore => if (adapterOutput e r).gnt then .store else .startStore
  | .store => if (adapterOutput e r).valid then .done else .store
  | .done => if clrDone e then .idle else .done

/-- The registers of the request: `len_axi_ad_en` also enables the byte enables. -/
def nextRequest : AdapterInput :=
  match e.ctrl with
  | .startLoad =>
      { req := true, we := false, addr := blockAddr e.sourceAddr, be := 0
        len := e.length.extractLsb' 0 8, size := 3, single := e.length == 0 }
  | .startStore =>
      { req := true, we := true, addr := blockAddr e.destAddr, be := 0xff
        len := e.length.extractLsb' 0 8, size := 3, single := e.length == 0 }
  | .load | .store => { e.request with req := false }
  | .idle | .done => e.request

/-- The command is saved while no transfer runs. -/
def saves : Bool := e.ctrl == .idle || e.ctrl == .done

def Engine.next (regs : Registers) : Engine where
  config := if saves e then regs.config else e.config
  length := if saves e then regs.length else e.length
  sourceAddr := if saves e then regs.sourceAddr else e.sourceAddr
  destAddr := if saves e then regs.destAddr else e.destAddr
  request := nextRequest e
  ctrl := nextCtrl e r
  adapter := e.adapter.next e.request r

end Engine

/-- A write of software to the register at `addr[4:2]`. -/
structure RegWrite where
  index : BitVec 3
  wdata : BitVec 32
  deriving DecidableEq

/-- The registers after a write. Indices from 4 on select registers that the engine does not
see. -/
def Registers.next (regs : Registers) : Option RegWrite → Registers
  | none => regs
  | some ⟨0, wdata⟩ => { regs with config := wdata }
  | some ⟨1, wdata⟩ => { regs with length := wdata }
  | some ⟨2, wdata⟩ => { regs with sourceAddr := wdata }
  | some ⟨3, wdata⟩ => { regs with destAddr := wdata }
  | some _ => regs

end Ariane.Dma
