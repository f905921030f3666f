import Ariane.MissUnit

set_option autoImplicit false

/- `serpent_dcache_ctrl.sv`: a read port of the OpenPiton data cache. -/
namespace Ariane.ReadController

open MissUnit (Cache Request)
open RrArbiter (anyBit)
open WriteBuffer (LineIndex)

variable {c : Cache}

inductive Fsm
  | idle | read | missReq | missWait | killMiss | replayReq | replayRead
  deriving DecidableEq

/-- The registers. -/
structure State (c : Cache) where
  state : Fsm := .idle
  addressTag : BitVec c.tagWidth := 0
  addressIdx : LineIndex c.toGeometry := 0
  addressOff : BitVec c.offsetWidth := 0
  vldData : Fin c.ways → Bool := fun _ => false
  dataSize : BitVec 2 := 0
  rdReq : Bool := false
  rdAck : Bool := false

/-- `dcache_req_i_t`. -/
structure ReqPort (c : Cache) where
  dataReq : Bool := false
  killReq : Bool := false
  tagValid : Bool := false
  addressTag : BitVec c.tagWidth := 0
  addressIndex : BitVec c.indexWidth := 0
  dataSize : BitVec 2 := 0

/-- The inputs of one cycle. -/
structure Input (c : Cache) where
  cacheEn : Bool := false
  reqPort : ReqPort c := {}
  missAck : Bool := false
  missReplay : Bool := false
  missRtrnVld : Bool := false
  wrClVld : Bool := false
  rdAck : Bool := false
  rdVldBits : Fin c.ways → Bool := fun _ => false
  rdHitOh : Fin c.ways → Bool := fun _ => false

/-- What `p_fsm` assigns. -/
structure Ctrl where
  next : Fsm
  gnt : Bool := false
  rvalid : Bool := false

section Cycle

variable (q : State c) (p : ReqPort c) (i : Input c)

def missReq : Bool := q.state == .missReq

/-- `rd_req_o`. -/
def rdReq : Bool :=
  match q.state with
  | .idle => p.dataReq
  | .read | .replayRead | .replayReq => true
  | _ => false

/-- `save_tag`. -/
def saveTag : Bool := q.state == .read && !p.killReq && p.tagValid

/-- `rd_tag_o`. -/
def rdTag : BitVec c.tagWidth := if saveTag q p then p.addressTag else q.addressTag

/-- `miss_paddr_o`. -/
def missPaddr : BitVec 64 := (q.addressTag ++ q.addressIdx ++ q.addressOff).setWidth 64

/-- `miss_nc_o`. -/
def missNc (cacheEn : Bool) : Bool :=
  decide (q.addressTag.toNat < (c.cachedAddrBeg >>> c.indexWidth).toNat) ||
    decide ((c.cachedAddrEnd >>> c.indexWidth).toNat ≤ q.addressTag.toNat) || !cacheEn

/-- The request to the miss unit. -/
def missRequest (cacheEn : Bool) : Request c where
  req := missReq q
  nc := missNc q cacheEn
  paddr := missPaddr q
  vldBits := q.vldData
  size := if missNc q cacheEn then q.dataSize.setWidth 3 else 7
  id := 1

/-- `READ` and `REPLAY_READ`: a read that met a write to the cache is repeated. -/
def readCtrl : Ctrl :=
  if i.reqPort.killReq then { next := .idle, rvalid := true }
  else if i.reqPort.tagValid || q.state == .replayRead then
    if i.wrClVld || !q.rdAck then { next := .replayReq }
    else if anyBit i.rdHitOh && i.cacheEn then
      let again := i.rdAck && i.reqPort.dataReq
      { next := if again then .read else .idle, gnt := again, rvalid := true }
    else { next := .missReq }
  else { next := q.state }

/-- `p_fsm`. -/
def fsm : Ctrl :=
  let kill := i.reqPort.killReq
  match q.state with
  | .idle =>
      let granted := i.reqPort.dataReq && i.rdAck
      { next := if granted then .read else .idle, gnt := granted }
  | .read | .replayRead => readCtrl q i
  | .missReq =>
      { next :=
          if kill then if i.missAck then .killMiss else .idle
          else if i.missReplay then .replayReq
          else if i.missAck then .missWait
          else .missReq
        rvalid := kill }
  | .missWait =>
      { next :=
          if i.missRtrnVld then .idle
          else if kill then .killMiss
          else .missWait
        rvalid := kill || i.missRtrnVld }
  | .replayReq =>
      { next := if kill then .idle else if i.rdAck then .replayRead else .replayReq
        rvalid := kill }
  | .killMiss => { next := if i.missRtrnVld then .idle else .killMiss }

/-- `rd_idx_o`. -/
def rdIdx : LineIndex c.toGeometry :=
  if (fsm q i).gnt then
    i.reqPort.addressIndex.extractLsb' c.offsetWidth (c.indexWidth - c.offsetWidth)
  else q.addressIdx

/-- The registers after a cycle. -/
def next : State c where
  state := (fsm q i).next
  addressTag := rdTag q i.reqPort
  addressIdx := rdIdx q i
  addressOff :=
    if (fsm q i).gnt then i.reqPort.addressIndex.extractLsb' 0 c.offsetWidth else q.addressOff
  vldData := if q.rdReq then i.rdVldBits else q.vldData
  dataSize := if (fsm q i).gnt then i.reqPort.dataSize else q.dataSize
  rdReq := rdReq q i.reqPort
  rdAck := i.rdAck

end Cycle

section Spec

variable {q : State c} {i : Input c}

/-- Only a read takes a tag, only a grant an index. -/
theorem next_address (other : q.state ≠ .read) (ungranted : (fsm q i).gnt = false) :
    (next q i).addressTag = q.addressTag ∧ (next q i).addressIdx = q.addressIdx := by
  have tag : saveTag q i.reqPort = false := by
    rw [saveTag, beq_false_of_ne other]
    rfl
  simp [next, rdTag, rdIdx, tag, ungranted]

/-- A miss goes on until it is killed, repeated or accepted, and a lookup that misses starts one. -/
theorem missReq_cases (misses : (next q i).state = .missReq) :
    (q.state = .missReq ∧ i.missReplay = false ∧ i.missAck = false) ∨
      ((q.state = .read ∨ q.state = .replayRead) ∧ i.wrClVld = false ∧ q.rdAck = true ∧
        (anyBit i.rdHitOh && i.cacheEn) = false ∧ (fsm q i).gnt = false) := by
  simp only [next, fsm] at misses ⊢
  cases state : q.state with
  | idle =>
      simp only [state] at misses
      grind
  | read =>
      simp only [state, readCtrl] at misses ⊢
      grind
  | missReq =>
      simp only [state] at misses
      grind
  | missWait =>
      simp only [state] at misses
      grind
  | killMiss =>
      simp only [state] at misses
      grind
  | replayReq =>
      simp only [state] at misses
      grind
  | replayRead =>
      simp only [state, readCtrl] at misses ⊢
      grind

/-- A miss that the miss unit leaves alone waits or is killed. -/
theorem next_missReq (misses : q.state = .missReq) (unacked : i.missAck = false)
    (single : i.missReplay = false) :
    ((next q i).state = .missReq ∨ (next q i).state = .idle) ∧ (fsm q i).gnt = false := by
  simp only [next, fsm, misses, unacked, single]
  cases i.reqPort.killReq <;> simp

theorem next_idle (idle : q.state = .idle) (ungranted : (fsm q i).gnt = false) :
    (next q i).state = .idle := by
  simp only [next, fsm, idle] at ungranted ⊢
  rw [ungranted]
  rfl

theorem missReq_gnt (misses : q.state = .missReq) : (fsm q i).gnt = false := by
  simp only [fsm, misses]

end Spec

end Ariane.ReadController
