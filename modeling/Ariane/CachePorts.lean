import Ariane.AxiAdapter2
import Ariane.RrArbiter
import Ariane.Rtl.Machine

set_option autoImplicit false

/- `serpent_l15_adapter.sv` and the plumbing of `serpent_cache_subsystem.sv` around it with
`AXI64_CACHE_PORTS`: the requests of the two caches on one AXI port. -/
namespace Ariane.CachePorts

open AxiAdapter2 (AxiAddr AxiBeat AxiReq AxiResp)

/-- There are two ports at the arbiter. -/
theorem twoPorts : NeZero 2 := ⟨Nat.succ_ne_zero 1⟩

attribute [local instance] twoPorts

/-- The parameters, with what the packages define. -/
structure Params where
  tidWidth : Nat
  l15AddressWidth : Nat
  axiIdWidth : Nat
  icacheLineWidth : Nat
  dcacheLineWidth : Nat
  adapterReqFifoDepth : Nat
  adapterRtrnFifoDepth : Nat
  swapEndianess : Bool
  swendian64 : BitVec 64 → BitVec 64
  toByteEnable8 : BitVec 3 → BitVec 2 → BitVec 8

/-- `icache_req_t`. -/
structure IcacheReq (p : Params) where
  paddr : BitVec 64 := 0
  nc : Bool := false
  tid : BitVec p.tidWidth := 0
  deriving DecidableEq

/-- `DCACHE_STORE_REQ` and its siblings. -/
inductive DcacheOut where
  | storeReq | loadReq | atomicReq
  deriving DecidableEq

/-- `dcache_req_t`. -/
structure DcacheReq (p : Params) where
  rtype : DcacheOut := .loadReq
  size : BitVec 3 := 0
  paddr : BitVec 64 := 0
  data : BitVec 64 := 0
  nc : Bool := false
  tid : BitVec p.tidWidth := 0
  deriving DecidableEq

/-- `L15_LOAD_RQ` and its siblings. -/
inductive L15Reqtype where
  | loadRq | imissRq | storeRq | atomicRq
  deriving DecidableEq

/-- `l15_req_t`. -/
structure L15Req (p : Params) where
  val : Bool
  rqtype : L15Reqtype
  nc : Bool
  size : BitVec 3
  threadid : BitVec p.tidWidth
  address : BitVec p.l15AddressWidth
  data : BitVec 64

/-- `L15_LOAD_RET` and its siblings. -/
inductive L15Rtrntype where
  | loadRet | stAck | ifillRet | evictReq | atomicRes
  deriving DecidableEq

/-- `l15_rtrn_t`. `data` are the words `l15_data_0` to `l15_data_3`. -/
structure L15Rtrn (p : Params) where
  returntype : L15Rtrntype := .loadRet
  noncacheable : Bool := false
  threadid : BitVec p.tidWidth := 0
  f4b : Bool := false
  data : Fin 4 → BitVec 64 := fun _ => 0
  invalIcacheInval : Bool := false
  invalIcacheAllWay : Bool := false
  invalDcacheInval : Bool := false
  invalDcacheAllWay : Bool := false

/-- `ICACHE_INV_REQ` and its sibling. -/
inductive IcacheIn where
  | invReq | ifillAck
  deriving DecidableEq

/-- `DCACHE_INV_REQ` and its siblings. -/
inductive DcacheIn where
  | invReq | storeAck | loadAck | atomicAck
  deriving DecidableEq

/-- `icache_rtrn_t`, with the words of the line. -/
structure IcacheRtrn (p : Params) where
  rtype : IcacheIn
  data : Fin 4 → BitVec 64
  nc : Bool
  tid : BitVec p.tidWidth
  f4b : Bool

/-- `dcache_rtrn_t`, with the words of the line. -/
structure DcacheRtrn (p : Params) where
  rtype : DcacheIn
  data : Fin 2 → BitVec 64
  nc : Bool
  tid : BitVec p.tidWidth

variable {p : Params}

/-- The registers. The FIFOs are the lists of their entries, oldest first. -/
structure State (p : Params) where
  icache : List (IcacheReq p) := []
  dcache : List (DcacheReq p) := []
  arbiter : RrArbiter.State 2 := RrArbiter.reset
  rtrn : List (L15Rtrn p) := []
  rdPending : Bool := false
  axi : AxiAdapter2.State 3 p.axiIdWidth := {}

/-- What the caches request in a cycle. -/
structure Requests (p : Params) where
  icache : Option (IcacheReq p) := none
  dcache : Option (DcacheReq p) := none

/-- `swendian64` if the adapter swaps. -/
def endian (p : Params) (word : BitVec 64) : BitVec 64 :=
  if p.swapEndianess then p.swendian64 word else word

section Request

variable (s : State p)

def icacheDataFull : Bool := decide (p.adapterReqFifoDepth ≤ s.icache.length)

def dcacheDataFull : Bool := decide (p.adapterReqFifoDepth ≤ s.dcache.length)

/-- `icache_data`: the output of the FIFO is not read while it is empty. -/
def icacheData : IcacheReq p := s.icache.head?.getD {}

/-- `dcache_data`. -/
def dcacheData : DcacheReq p := s.dcache.head?.getD {}

/-- The request vector of the arbiter, the instruction cache first. -/
def arbReq (k : Fin 2) : Bool := if k = 0 then !s.icache.isEmpty else !s.dcache.isEmpty

def arbIdx : Fin 2 := RrArbiter.idx true s.arbiter (arbReq s)

/-- `p_req`. -/
def l15Rqtype : L15Reqtype :=
  if arbIdx s = 0 then .imissRq
  else
    match (dcacheData s).rtype with
    | .storeReq => .storeRq
    | .loadReq => .loadRq
    | .atomicReq => .atomicRq

/-- `l15_req_o`. -/
def l15Req : L15Req p where
  val := RrArbiter.anyBit (arbReq s)
  rqtype := l15Rqtype s
  nc := if arbIdx s = 1 then (dcacheData s).nc else (icacheData s).nc
  size := if arbIdx s = 1 then (dcacheData s).size else if (icacheData s).nc then 2 else 7
  threadid := if arbIdx s = 1 then (dcacheData s).tid else (icacheData s).tid
  address :=
    (if arbIdx s = 1 then (dcacheData s).paddr else (icacheData s).paddr).setWidth
      p.l15AddressWidth
  data := endian p (dcacheData s).data

def ifill : Bool := (l15Req s).rqtype == .imissRq

def axiRdReq : Bool :=
  (l15Req s).val && ((l15Req s).rqtype == .loadRq || ifill s) && !s.rdPending

def axiWrReq : Bool := (l15Req s).val && (l15Req s).rqtype == .storeRq

/-- `{threadid, ifill, nc}`. -/
def axiId (p : Params) (threadid : BitVec p.tidWidth) (ifill nc : Bool) : BitVec p.axiIdWidth :=
  (threadid ++ BitVec.ofBool ifill ++ BitVec.ofBool nc).setWidth p.axiIdWidth

def axiRdBlen : BitVec 3 :=
  if (l15Req s).size.getLsbD 2 then
    if ifill s then BitVec.ofNat 3 (p.icacheLineWidth / 64 - 1)
    else BitVec.ofNat 3 (p.dcacheLineWidth / 64 - 1)
  else 0

/-- The requests at the AXI adapter. -/
def axiInput : AxiAdapter2.Input 3 p.axiIdWidth where
  rdReq := axiRdReq s
  rdAddr := (l15Req s).address.setWidth 64
  rdBlen := axiRdBlen s
  rdSize := if ifill s then 3 else (l15Req s).size.setWidth 2
  rdId := axiId p (l15Req s).threadid (ifill s) (l15Req s).nc
  rdRdy := true
  wrReq := axiWrReq s
  wrAddr := (l15Req s).address.setWidth 64
  wrData k := if k = 0 then (l15Req s).data else 0
  wrBe k :=
    if axiWrReq s && decide (k = 0) then
      p.toByteEnable8 ((l15Req s).address.setWidth 3) ((l15Req s).size.setWidth 2)
    else 0
  wrBlen := 0
  wrSize := (l15Req s).size.setWidth 2
  wrId := axiId p (l15Req s).threadid (ifill s) (l15Req s).nc
  wrRdy := !s.axi.rdValid

end Request

section Cycle

variable (s : State p) (requests : Requests p) (r : AxiResp p.axiIdWidth)

def axiReq : AxiReq p.axiIdWidth := AxiAdapter2.axiReq s.axi (axiInput s) r

def axiRdGnt : Bool := AxiAdapter2.rdGnt (axiInput s) r

def axiWrGnt : Bool := AxiAdapter2.wrGnt s.axi (axiInput s) r

def l15Ack : Bool := axiRdGnt s r || axiWrGnt s r

/-- `icache_data_ack_o`, with the request. -/
def icacheAccepted : List (IcacheReq p) := if icacheDataFull s then [] else requests.icache.toList

/-- `dcache_data_ack_o`, with the request. -/
def dcacheAccepted : List (DcacheReq p) := if dcacheDataFull s then [] else requests.dcache.toList

def arbAck (k : Fin 2) : Bool := RrArbiter.ack true s.arbiter (arbReq s) (l15Ack s r) k

/-- `l15_val` of the return path. -/
def l15RtrnVal : Bool := s.axi.rdValid || r.bValid

/-- `id_tmp`. -/
def idTmp : BitVec (p.tidWidth + 2) :=
  (if s.axi.rdValid then s.axi.rdId else r.bId).setWidth (p.tidWidth + 2)

/-- `p_axi_rtrn`. -/
def l15Rtrn : L15Rtrn p where
  returntype :=
    if s.axi.rdValid && (idTmp s r).getLsbD 1 then .ifillRet
    else if s.axi.rdValid then .loadRet
    else .stAck
  noncacheable := (idTmp s r).getLsbD 0
  threadid := (idTmp s r >>> 2).setWidth p.tidWidth
  f4b := (idTmp s r).getLsbD 0 && (idTmp s r).getLsbD 1 && s.axi.rdValid
  data k := s.axi.rdData (BitVec.ofNat 3 k)

def rtrnFifoFull : Bool := decide (p.adapterRtrnFifoDepth ≤ s.rtrn.length)

/-- The registers after a cycle. -/
def next : State p where
  icache := (if arbAck s r 0 then s.icache.tail else s.icache) ++ icacheAccepted s requests
  dcache := (if arbAck s r 1 then s.dcache.tail else s.dcache) ++ dcacheAccepted s requests
  arbiter := RrArbiter.next true s.arbiter (arbReq s) (l15Ack s r)
  rtrn := s.rtrn.tail ++ if l15RtrnVal s r && !rtrnFifoFull s then [l15Rtrn s r] else []
  rdPending := if s.axi.rdValid then false else s.rdPending || axiRdGnt s r
  axi := AxiAdapter2.next s.axi (axiInput s) r

end Cycle

section Return

/-- A packet at the port of the instruction cache or of the data cache. -/
inductive Return (p : Params) where
  | icache (packet : IcacheRtrn p)
  | dcache (packet : DcacheRtrn p)

variable (l : L15Rtrn p)

/-- `icache_rtrn_o`, but for its type. -/
def icacheRtrn (rtype : IcacheIn) : Return p :=
  .icache
    { rtype
      data := fun k => endian p (l.data k)
      nc := l.noncacheable
      tid := l.threadid
      f4b := l.f4b }

/-- `dcache_rtrn_o`, but for its type. -/
def dcacheRtrn (rtype : DcacheIn) : Return p :=
  .dcache
    { rtype
      data := fun k => endian p (l.data (k.castLE (by decide)))
      nc := l.noncacheable
      tid := l.threadid }

/-- `p_rtrn_logic`: the packets that are valid for the entry of the return FIFO. -/
def rtrnLogic : List (Return p) :=
  match l.returntype with
  | .loadRet => [dcacheRtrn l .loadAck]
  | .stAck => [dcacheRtrn l .storeAck]
  | .ifillRet => [icacheRtrn l .ifillAck]
  | .evictReq =>
      (if l.invalIcacheInval || l.invalIcacheAllWay then [icacheRtrn l .invReq] else []) ++
        if l.invalDcacheInval || l.invalDcacheAllWay then [dcacheRtrn l .invReq] else []
  | .atomicRes => [dcacheRtrn l .atomicAck]

/-- The packets that reach the caches in a cycle. -/
def returned (s : State p) : List (Return p) := s.rtrn.head?.toList.flatMap rtrnLogic

end Return

end Ariane.CachePorts
