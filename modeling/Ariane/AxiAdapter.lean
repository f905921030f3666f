import Ariane.Rtl.Stream
import Mathlib.Algebra.Group.Nat.Defs

set_option autoImplicit false

/- `axi_adapter.sv`: single words and whole cache lines on an AXI port. -/
namespace Ariane.AxiAdapter

/-- The parameters: `DATA_WIDTH` as a power of two of words, `CRITICAL_WORD_FIRST`, `AXI_ID_WIDTH`
and `CACHELINE_BYTE_OFFSET`. -/
structure Params where
  wordBits : Nat
  criticalWordFirst : Bool
  idWidth : Nat
  byteOffset : Nat

variable {p : Params}

/-- `BURST_SIZE`. -/
def burstSize (p : Params) : Nat := 2 ^ p.wordBits - 1

/-- `ADDR_INDEX`. -/
def addrIndex (p : Params) : Nat := if 0 < p.wordBits then p.wordBits else 1

theorem burstSize_lt (p : Params) : burstSize p < 2 ^ p.wordBits :=
  Nat.sub_lt (Nat.two_pow_pos _) Nat.one_pos

theorem wordBits_le (p : Params) : p.wordBits ≤ addrIndex p := by
  unfold addrIndex
  split <;> omega

/-- The index of a word. -/
abbrev Lane (p : Params) := Fin (2 ^ p.wordBits)

/-- The first word. -/
def firstLane (p : Params) : Lane p := ⟨0, Nat.two_pow_pos _⟩

/-- `DATA_WIDTH` bits. -/
abbrev Words (p : Params) := Lane p → BitVec 64

inductive Burst where
  | fixed | incr | wrap
  deriving DecidableEq

/-- `aw` and `ar`. -/
structure AxiAddr (idWidth : Nat) where
  id : BitVec idWidth
  addr : BitVec 64
  len : BitVec 8
  size : BitVec 3
  burst : Burst
  deriving DecidableEq

/-- `w`. -/
structure AxiBeat where
  data : BitVec 64
  strb : BitVec 8
  last : Bool
  deriving DecidableEq

/-- The request; `single` is `type_i == SINGLE_REQ`. -/
structure Request (p : Params) where
  single : Bool
  addr : BitVec 64
  we : Bool
  wdata : Words p
  be : Lane p → BitVec 8
  size : BitVec 2
  id : BitVec p.idWidth

/-- The request and `axi_resp_i`. -/
structure Input (p : Params) where
  req : Bool
  request : Request p
  awReady : Bool := false
  wReady : Bool := false
  arReady : Bool := false
  bValid : Bool := false
  bId : BitVec p.idWidth := 0
  rValid : Bool := false
  rLast : Bool := false
  rData : BitVec 64 := 0
  rId : BitVec p.idWidth := 0

/-- The states of the machine. -/
inductive State where
  | idle | waitBValid | waitAwReady | waitLastWReady | waitLastWReadyAwReady | waitAwReadyBurst
  | waitRValid | waitRValidMultiple | completeRead
  deriving DecidableEq

/-- The registers. The bits of `addr_offset_q` above the index stay zero. -/
structure Regs (p : Params) where
  state : State := .idle
  cnt : BitVec (addrIndex p) := 0
  cacheLine : Words p := fun _ => 0
  addrOffset : BitVec (addrIndex p) := 0
  id : BitVec p.idWidth := 0

/-- What `axi_fsm` assigns. -/
structure Output (p : Params) where
  awValid : Bool := false
  aw : AxiAddr p.idWidth
  wValid : Bool := false
  w : AxiBeat
  bReady : Bool := false
  arValid : Bool := false
  ar : AxiAddr p.idWidth
  rReady : Bool := false
  gnt : Bool := false
  valid : Bool := false
  id : BitVec p.idWidth
  rdata : Words p
  criticalWord : BitVec 64
  criticalWordValid : Bool := false
  regs : Regs p

/-- `BURST_SIZE` in the width of the counter. -/
def burstCnt (p : Params) : BitVec (addrIndex p) := BitVec.ofNat _ (burstSize p)

/-- The address with the bits below the line cleared. -/
def lineAddr (p : Params) (addr : BitVec 64) : BitVec 64 :=
  addr >>> p.byteOffset <<< p.byteOffset

section Fsm

variable (q : Regs p) (i : Input p)

/-- The word `BURST_SIZE-cnt_q`. -/
def wordIndex (cnt : BitVec (addrIndex p)) : Lane p :=
  ⟨burstSize p - cnt.toNat, Nat.lt_of_le_of_lt (Nat.sub_le _ _) (burstSize_lt p)⟩

/-- The default assignments. -/
def defaults : Output p where
  aw :=
    { id := i.request.id
      addr := i.request.addr
      len := 0
      size := i.request.size.setWidth 3
      burst := if i.request.single then .fixed else .incr }
  w := { data := i.request.wdata (firstLane p), strb := i.request.be (firstLane p), last := false }
  ar :=
    { id := i.request.id
      addr :=
        if p.criticalWordFirst || i.request.single then i.request.addr
        else lineAddr p i.request.addr
      len := 0
      size := i.request.size.setWidth 3
      burst :=
        if i.request.single then .fixed else if p.criticalWordFirst then .wrap else .incr }
  id := i.rId
  rdata := q.cacheLine
  criticalWord := i.rData
  regs := q

/-- A write request in `IDLE`. -/
def idleWrite : Output p :=
  let o := { defaults q i with awValid := true, wValid := true }
  if i.request.single then
    { o with
      w := { o.w with last := true }
      gnt := i.awReady && i.wReady
      regs :=
        { q with
          cnt := 0
          state := match i.awReady, i.wReady with
            | true, true => .waitBValid
            | false, true => .waitAwReady
            | true, false => .waitLastWReady
            | false, false => .idle } }
  else
    { o with
      aw := { o.aw with len := BitVec.ofNat 8 (burstSize p) }
      regs :=
        { q with
          cnt := if i.wReady then burstCnt p - 1 else burstCnt p
          state := match i.awReady, i.wReady with
            | true, true => .waitLastWReady
            | false, true => .waitLastWReadyAwReady
            | true, false => .waitLastWReady
            | false, false => .idle } }

/-- A read request in `IDLE`. -/
def idleRead : Output p :=
  let o := { defaults q i with arValid := true, gnt := i.arReady }
  { o with
    ar := if i.request.single then o.ar
      else { o.ar with len := BitVec.ofNat 8 (burstSize p) }
    regs :=
      { q with
        cnt := if i.request.single then 0 else burstCnt p
        state :=
          if i.arReady then if i.request.single then .waitRValid else .waitRValidMultiple
          else .idle
        addrOffset :=
          if i.arReady then i.request.addr.extractLsb' 3 (addrIndex p) else q.addrOffset } }

/-- The word that is sent while `cnt_q` words are left after it. -/
def burstBeat : AxiBeat where
  data := if i.request.single then i.request.wdata (firstLane p) else i.request.wdata (wordIndex q.cnt)
  strb := if i.request.single then i.request.be (firstLane p) else i.request.be (wordIndex q.cnt)
  last := q.cnt == 0

/-- `WAIT_LAST_W_READY_AW_READY`. -/
def waitBoth : Output p :=
  let o := defaults q i
  let o := { o with
    wValid := true
    w := burstBeat q i
    awValid := true
    aw := { o.aw with len := BitVec.ofNat 8 (burstSize p) } }
  match i.awReady, i.wReady with
  | false, true =>
      if q.cnt == 0 then { o with regs := { q with state := .waitAwReadyBurst } }
      else { o with regs := { q with cnt := q.cnt - 1 } }
  | true, false => { o with regs := { q with state := .waitLastWReady } }
  | true, true =>
      if q.cnt == 0 then { o with regs := { q with state := .waitBValid }, gnt := true }
      else { o with regs := { q with state := .waitLastWReady, cnt := q.cnt - 1 } }
  | false, false => o

/-- `WAIT_LAST_W_READY`. -/
def waitWords : Output p :=
  let o := { defaults q i with wValid := true, w := burstBeat q i }
  if q.cnt == 0 then
    if i.wReady then { o with regs := { q with state := .waitBValid }, gnt := true } else o
  else if i.wReady then { o with regs := { q with cnt := q.cnt - 1 } }
  else o

/-- `index` of a read. -/
def readIndex : BitVec (addrIndex p) :=
  if p.criticalWordFirst then q.addrOffset + (burstCnt p - q.cnt) else burstCnt p - q.cnt

/-- `WAIT_R_VALID` and `WAIT_R_VALID_MULTIPLE`. -/
def waitRead : Output p :=
  let o := { defaults q i with rReady := true }
  if i.rValid then
    { o with
      criticalWordValid :=
        if p.criticalWordFirst then q.state == .waitRValidMultiple && q.cnt == burstCnt p
        else readIndex q == q.addrOffset
      regs :=
        { q with
          id := if i.rLast then i.rId else q.id
          state := if i.rLast then .completeRead else q.state
          cacheLine :=
            if q.state = .waitRValidMultiple then
              fun k => if k.val = (readIndex q).toNat then i.rData else q.cacheLine k
            else fun k => if k.val = 0 then i.rData else q.cacheLine k
          cnt := q.cnt - 1 } }
  else o

/-- `axi_fsm`. -/
def axiFsm : Output p :=
  let o := defaults q i
  match q.state with
  | .idle =>
      if i.req then if i.request.we then idleWrite q i else idleRead q i
      else { o with regs := { q with cnt := 0 } }
  | .waitAwReady =>
      let o := { o with awValid := true }
      if i.awReady then { o with gnt := true, regs := { q with state := .waitBValid } } else o
  | .waitLastWReadyAwReady => waitBoth q i
  | .waitAwReadyBurst =>
      let o := { o with
        awValid := true, aw := { o.aw with len := BitVec.ofNat 8 (burstSize p) } }
      if i.awReady then { o with gnt := true, regs := { q with state := .waitBValid } } else o
  | .waitLastWReady => waitWords q i
  | .waitBValid =>
      let o := { o with bReady := true, id := i.bId }
      if i.bValid then { o with valid := true, regs := { q with state := .idle } } else o
  | .waitRValid | .waitRValidMultiple => waitRead q i
  | .completeRead => { o with valid := true, id := q.id, regs := { q with state := .idle } }

end Fsm

end Ariane.AxiAdapter
