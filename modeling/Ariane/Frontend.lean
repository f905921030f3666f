import Ariane.FifoContents
import Ariane.InstrRealigner

set_option autoImplicit false

/- `frontend.sv`: fetched words are re-aligned and scanned for control transfers, and wait in
the fetch FIFO. What the branch history, the target buffer and the return stack predict is an
input. -/
namespace Ariane.Frontend

open Rtl (Queue)
open Rtl.Ring (clog2)

/-! Opcodes of `riscv_pkg`. -/

def opcodeBranch : BitVec 7 := 0b1100011
def opcodeJalr : BitVec 7 := 0b1100111
def opcodeJal : BitVec 7 := 0b1101111
def opcodeC1 : BitVec 2 := 0b01
def opcodeC2 : BitVec 2 := 0b10
def opcodeC1J : BitVec 3 := 0b101
def opcodeC1Beqz : BitVec 3 := 0b110
def opcodeC1Bnez : BitVec 3 := 0b111
def opcodeC2JalrMvAdd : BitVec 3 := 0b100

/-- `uj_imm` and `sb_imm`: the immediates of a jump and of a branch. -/
class Immediates where
  ujImm : BitVec 32 → BitVec 64
  sbImm : BitVec 32 → BitVec 64

open Immediates (ujImm sbImm)

/-- Those of the architecture. -/
instance riscvImmediates : Immediates where
  ujImm instr :=
    (instr.extractLsb' 31 1 ++ instr.extractLsb' 12 8 ++ instr.extractLsb' 20 1 ++
      instr.extractLsb' 21 10 ++ 0#1).signExtend 64
  sbImm instr :=
    (instr.extractLsb' 31 1 ++ instr.extractLsb' 7 1 ++ instr.extractLsb' 25 6 ++
      instr.extractLsb' 8 4 ++ 0#1).signExtend 64

variable [Immediates]

/-- The outputs of `instr_scan`. -/
structure Scan where
  rviReturn : Bool
  rviCall : Bool
  rviBranch : Bool
  rviJalr : Bool
  rviJump : Bool
  rviImm : BitVec 64
  rvcBranch : Bool
  rvcJump : Bool
  rvcJr : Bool
  rvcReturn : Bool
  rvcJalr : Bool
  rvcCall : Bool
  rvcImm : BitVec 64

/-- `instr_scan`. -/
def instrScan (instr : BitVec 32) : Scan :=
  let bit n := instr.getLsbD n
  let isRvc := instr.extractLsb' 0 2 != 3
  let rviJalr := instr.extractLsb' 0 7 == opcodeJalr
  let rviJump := instr.extractLsb' 0 7 == opcodeJal
  let moves := instr.extractLsb' 13 3 == opcodeC2JalrMvAdd && instr.extractLsb' 2 5 == 0
  let rvcJr := moves && !bit 12 && instr.extractLsb' 0 2 == opcodeC2 && isRvc
  let rvcJalr := moves && bit 12 && isRvc
  { rviReturn := rviJalr && !bit 7 && !bit 19 && !bit 18 && !bit 16 && bit 15
    rviCall := (rviJalr || rviJump) && bit 7
    rviBranch := instr.extractLsb' 0 7 == opcodeBranch
    rviJalr := rviJalr
    rviJump := rviJump
    rviImm := if bit 3 then ujImm instr else sbImm instr
    rvcBranch :=
      (instr.extractLsb' 13 3 == opcodeC1Beqz || instr.extractLsb' 13 3 == opcodeC1Bnez) &&
        instr.extractLsb' 0 2 == opcodeC1 && isRvc
    rvcJump := instr.extractLsb' 13 3 == opcodeC1J && isRvc && instr.extractLsb' 0 2 == opcodeC1
    rvcJr := rvcJr
    rvcReturn := !bit 11 && !bit 10 && !bit 8 && bit 7 && rvcJr
    rvcJalr := rvcJalr
    rvcCall := rvcJalr
    rvcImm :=
      if bit 14 then
        (instr.extractLsb' 12 1 ++ instr.extractLsb' 5 2 ++ instr.extractLsb' 2 1 ++
          instr.extractLsb' 10 2 ++ instr.extractLsb' 3 2 ++ 0#1).signExtend 64
      else
        (instr.extractLsb' 12 1 ++ instr.extractLsb' 8 1 ++ instr.extractLsb' 9 2 ++
          instr.extractLsb' 6 1 ++ instr.extractLsb' 7 1 ++ instr.extractLsb' 2 1 ++
          instr.extractLsb' 11 1 ++ instr.extractLsb' 3 3 ++ 0#1).signExtend 64 }

/-- `cf_t`. -/
inductive CfType
  | bht | btb | ras
  deriving DecidableEq

/-- What the predictors say of the word in `icache_vaddr_q`. -/
structure Predictions where
  bhtValid : Bool := false
  bhtTaken : Bool := false
  bhtStronglyTaken : Bool := false
  btbValid : Bool := false
  btbTargetAddress : BitVec 64 := 0
  rasValid : Bool := false
  rasRa : BitVec 64 := 0

/-- The registers of the re-aligner. -/
structure Unaligned where
  unaligned : Bool := false
  address : BitVec 64 := 0
  instr : BitVec 16 := 0
  deriving DecidableEq

/-- A word from the instruction cache. -/
structure Word where
  data : BitVec 32 := 0
  vaddr : BitVec 64 := 0
  deriving DecidableEq

namespace Word

variable (w : Word)

def lower : BitVec 16 := w.data.extractLsb' 0 16

def upper : BitVec 16 := w.data.extractLsb' 16 16

/-- `{icache_vaddr_q[63:2], 2'b10}`. -/
def upperAddress : BitVec 64 := w.vaddr.extractLsb' 2 62 ++ 2#2

/-- `instr_is_compressed[0]`. -/
def lowerCompressed : Bool := w.data.extractLsb' 0 2 != 3

/-- `instr_is_compressed[1]`. -/
def upperCompressed : Bool := w.data.extractLsb' 16 2 != 3

/-- `icache_vaddr_q[1]`: the fetch starts at the upper half. -/
def half : Bool := w.vaddr.getLsbD 1

end Word

/-- What `re_align` assigns, before a kill. -/
structure Realigned where
  instr0 : BitVec 32
  addr0 : BitVec 64
  instr1 : BitVec 32
  addr1 : BitVec 64
  instructionValid : Bool
  regs : Unaligned

section Realign

variable (u : Unaligned) (w : Word)

/-- The upper half starts an instruction that the next word completes. -/
def saveUpper : Unaligned := ⟨true, w.upperAddress, w.upper⟩

/-- `re_align` of a valid word, apart from a fetch that starts with half an instruction. -/
def realignWord : Realigned :=
  let r : Realigned := ⟨w.data, w.vaddr, 0, w.upperAddress, true, u⟩
  if u.unaligned then
    let r := { r with
      instr0 := w.lower ++ u.instr
      addr0 := u.address
      regs := ⟨u.unaligned, w.upperAddress, w.upper⟩ }
    if w.upperCompressed then
      { r with regs.unaligned := false, instr1 := w.upper.setWidth 32 }
    else r
  else if w.lowerCompressed then
    if w.upperCompressed then { r with instr1 := w.upper.setWidth 32 }
    else { r with regs := saveUpper w }
  else r

/-- `re_align` of a valid word. -/
def realign : Realigned :=
  if w.half && !w.upperCompressed then
    { realignWord u w with instructionValid := false, regs := saveUpper w }
  else realignWord u w

end Realign

/-- The variables of `frontend_ctrl`; `taken` is the bit of the slot that is looked at. -/
structure Ctrl where
  takeRviCf : Bool := false
  takeRvcCf : Bool := false
  rasPop : Bool := false
  rasPush : Bool := false
  rasUpdate : BitVec 64 := 0
  taken : Bool := false
  bpVaddr : BitVec 64 := 0
  cfType : CfType := .ras

section Predict

variable (p : Predictions) (sc : Scan) (addr : BitVec 64) (c : Ctrl)

/-- A call. -/
def predictCall : Ctrl :=
  { c with
    taken := false
    rasPush := sc.rviCall || sc.rvcCall
    rasUpdate := addr + if sc.rvcCall then 2 else 4 }

/-- A branch: dynamic prediction, and backwards taken without one. -/
def predictBranch : Ctrl :=
  if sc.rviBranch || sc.rvcBranch then
    let taken := p.bhtTaken || p.bhtStronglyTaken
    { c with
      cfType := .bht
      takeRviCf := sc.rviBranch && if p.bhtValid then taken else sc.rviImm.getLsbD 63
      takeRvcCf := sc.rvcBranch && if p.bhtValid then taken else sc.rvcImm.getLsbD 63 }
  else c

/-- An unconditional jump. -/
def predictJump : Ctrl :=
  if sc.rviJump || sc.rvcJump then
    { c with takeRviCf := sc.rviJump, takeRvcCf := sc.rvcJump }
  else c

/-- An indirect jump needs a valid target. -/
def predictJalr : Ctrl :=
  if (sc.rviJalr || sc.rvcJalr) && !(sc.rviCall || sc.rvcCall) then
    if p.btbValid then { c with cfType := .btb, bpVaddr := p.btbTargetAddress, taken := true }
    else { c with cfType := .btb }
  else c

/-- A return needs a valid return address. -/
def predictReturn : Ctrl :=
  if (sc.rviReturn || sc.rvcReturn) && p.rasValid then
    { c with bpVaddr := p.rasRa, rasPop := true, taken := true, cfType := .ras }
  else c

def takeRvi : Ctrl :=
  if c.takeRviCf then { c with taken := true, bpVaddr := addr + sc.rviImm } else c

def takeRvc : Ctrl :=
  if c.takeRvcCf then { c with taken := true, bpVaddr := addr + sc.rvcImm } else c

/-- One pass of the loop. -/
def predictSlot : Ctrl :=
  takeRvc sc addr (takeRvi sc addr (predictReturn p sc (predictJalr p sc (predictJump sc
    (predictBranch p sc (predictCall sc addr c))))))

end Predict

/-- The lower half is not of interest. -/
def Ctrl.masked (c : Ctrl) (half : Bool) : Ctrl :=
  if half then { c with rasPop := false, rasPush := false } else c

/-- What `frontend_ctrl` decides of one word. -/
structure Decision where
  taken1 : Bool := false
  taken2 : Bool := false
  ctrl : Ctrl := {}

/-- `frontend_ctrl`. -/
def frontendCtrl (p : Predictions) (r : Realigned) (half : Bool) : Decision :=
  if r.instructionValid then
    let first := predictSlot p (instrScan r.instr0) r.addr0 {}
    if first.taken && !half then ⟨true, false, first⟩
    else
      let second := predictSlot p (instrScan r.instr1) r.addr1 (first.masked half)
      ⟨false, second.taken, second.masked half⟩
  else {}

/-- `bp_valid`. -/
def Decision.bpValid (d : Decision) : Bool := d.taken1 || d.taken2

/-- `branchpredict_sbe_t`. -/
structure BranchpredictSbe where
  valid : Bool := false
  predictAddress : BitVec 64 := 0
  predictTaken : Bool := false
  cfType : CfType := .ras

/-- `frontend_fetch_t`. -/
structure FrontendFetch where
  address : BitVec 64 := 0
  instruction : BitVec 32 := 0
  branchPredict : BranchpredictSbe := {}
  bpTaken : BitVec 2 := 0
  pageFault : Bool := false

/-- `branchpredict_t`, as far as the front end reads it. -/
structure ResolvedBranch where
  valid : Bool := false
  isMispredict : Bool := false
  targetAddress : BitVec 64 := 0

/-- The answer of the instruction cache. -/
structure Icache where
  ready : Bool := false
  valid : Bool := false
  data : BitVec 32 := 0
  vaddr : BitVec 64 := 0
  exValid : Bool := false

structure Input where
  flush : Bool := false
  bootAddr : BitVec 64 := 0
  resolvedBranch : ResolvedBranch := {}
  setPcCommit : Bool := false
  pcCommit : BitVec 64 := 0
  epc : BitVec 64 := 0
  eret : Bool := false
  trapVectorBase : BitVec 64 := 0
  exValid : Bool := false
  setDebugPc : Bool := false
  icache : Icache := {}
  fetchAck : Bool := false
  predictions : Predictions := {}

/-- The fetch FIFO has this depth whatever `FETCH_FIFO_DEPTH` is. -/
def fifoDepth : Nat := 8

/-- The registers, for a given `FETCH_FIFO_DEPTH`. -/
structure State (depth : Nat) where
  npc : BitVec 64 := 0
  npcRstLoad : Bool := true
  icacheWord : Word := {}
  icacheValid : Bool := false
  icacheExValid : Bool := false
  unaligned : Unaligned := {}
  fifoCredits : BitVec (clog2 depth + 1) := BitVec.ofNat _ depth
  s2InFlight : Bool := false
  fifo : Queue FrontendFetch := ⟨fun _ => {}, 0, 0, 0⟩

section Cycle

variable {depth : Nat} (s : State depth) (i : Input)

/-- `re_align`, before a kill. -/
def reAlign : Realigned :=
  if s.icacheValid then realign s.unaligned s.icacheWord
  else ⟨s.icacheWord.data, s.icacheWord.vaddr, 0, s.icacheWord.upperAddress, false, s.unaligned⟩

def decision : Decision := frontendCtrl i.predictions (reAlign s) s.icacheWord.half

def isMispredict : Bool := i.resolvedBranch.valid && i.resolvedBranch.isMispredict

/-- `icache_dreq_o.kill_s1`. -/
def killS1 : Bool := isMispredict i || i.flush

/-- `icache_dreq_o.kill_s2`. -/
def killS2 : Bool := killS1 i || (decision s i).bpValid

/-- `fifo_ready`, which is also `icache_dreq_o.req`. -/
def fifoReady : Bool := s.fifoCredits != 0

def ifReady : Bool := i.icache.ready && fifoReady s

/-- A request that the cache accepts. -/
def issueReq : Bool := ifReady s i && !killS1 i

def s2EffKill : Bool := s.s2InFlight && killS2 s i

def fetchEntryValid : Bool := !FifoV3.empty s.fifo

def fifoPop : Bool := i.fetchAck && fetchEntryValid s

/-- The word with its prediction, as the FIFO takes it. -/
def fetchEntry : FrontendFetch where
  address := s.icacheWord.vaddr
  instruction := s.icacheWord.data
  branchPredict :=
    { valid := (decision s i).bpValid
      predictAddress := (decision s i).ctrl.bpVaddr
      predictTaken := (decision s i).bpValid
      cfType := (decision s i).ctrl.cfType }
  bpTaken := BitVec.ofBool (decision s i).taken2 ++ BitVec.ofBool (decision s i).taken1
  pageFault := s.icacheExValid

/-- The address that is fetched. -/
def fetchAddress : BitVec 64 :=
  if (decision s i).bpValid then (decision s i).ctrl.bpVaddr
  else if s.npcRstLoad then i.bootAddr else s.npc

/-- `npc_select`. -/
def nextNpc : BitVec 64 :=
  if i.setDebugPc then 0x800
  else if i.setPcCommit then i.pcCommit + 4
  else if i.exValid then i.trapVectorBase
  else if i.eret then i.epc
  else if isMispredict i then i.resolvedBranch.targetAddress
  else if ifReady s i then ((fetchAddress s i).extractLsb' 2 62 ++ 0#2) + 4
  else fetchAddress s i

def bit {w : Nat} (b : Bool) : BitVec w := if b then 1 else 0

/-- `fifo_credits_d`. -/
def nextCredits : BitVec (clog2 depth + 1) :=
  if i.flush then BitVec.ofNat _ depth
  else s.fifoCredits + bit (fifoPop s i) + bit (s2EffKill s i) - bit (issueReq s i)

/-- `s2_in_flight_d`. -/
def nextInFlight : Bool :=
  if i.flush then false
  else if issueReq s i then true
  else if i.icache.valid then false
  else s.s2InFlight

def next : State depth where
  npc := nextNpc s i
  npcRstLoad := false
  icacheWord := ⟨i.icache.data, i.icache.vaddr⟩
  icacheValid := i.icache.valid
  icacheExValid := i.icache.exValid
  unaligned :=
    if killS2 s i then { (reAlign s).regs with unaligned := false } else (reAlign s).regs
  fifoCredits := nextCredits s i
  s2InFlight := nextInFlight s i
  fifo :=
    FifoV3.next fifoDepth s.fifo
      { flush := i.flush
        data := fetchEntry s i
        push := s.icacheValid
        pop := fifoPop s i }

end Cycle

end Ariane.Frontend
