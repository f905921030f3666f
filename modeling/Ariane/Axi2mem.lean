import Ariane.AxiMemory
import Mathlib.Logic.Function.Basic

set_option autoImplicit false

/- `axi2mem.sv` in front of a synchronous memory (`sram.sv`): one transaction at a time. -/
namespace Ariane.Axi2mem

open AxiAdapter (AxiAddr AxiBeat mergeBytes)

/-- `state_q` -/
inductive Fsm where
  | idle | read | write | sendB | waitWvalid
  deriving DecidableEq

section Addresses

variable {idWidth : Nat} (a : AxiAddr idWidth)

/-- `aligned_address` -/
def alignedAddress : BitVec 64 := a.addr.extractLsb' 3 61 ++ 0#3

/-- `get_wrap_bounadry`; the parts of the address are not those of the result for the longer bursts. -/
def wrapBoundary : BitVec 64 :=
  if a.len = 1 then a.addr.extractLsb' 4 60 ++ 0#4
  else if a.len = 3 then a.addr.extractLsb' 5 59 ++ 0#5
  else if a.len = 7 then (a.addr.extractLsb' 5 57).setWidth 58 ++ 0#6
  else if a.len = 15 then (a.addr.extractLsb' 7 55).setWidth 57 ++ 0#7
  else 0

def upperWrapBoundary : BitVec 64 := wrapBoundary a + ((a.len.setWidth 64 + 1) <<< 3)

variable (cnt : BitVec 8)

/-- `cons_addr` -/
def consAddr : BitVec 64 := alignedAddress a + (cnt.setWidth 64 <<< 3)

/-- The address of the beats behind the first. -/
def nextAddr : BitVec 64 :=
  match a.burst with
  | .fixed | .incr => consAddr a cnt
  | .wrap =>
      if consAddr a cnt = upperWrapBoundary a then wrapBoundary a
      else if upperWrapBoundary a < consAddr a cnt then
        a.addr + ((cnt.setWidth 64 - a.len.setWidth 64) <<< 3)
      else consAddr a cnt

end Addresses

/-- The registers. -/
structure Regs (idWidth : Nat) where
  state : Fsm := .idle
  axReq : AxiAddr idWidth := ⟨0, 0, 0, 0, .fixed⟩
  reqAddr : BitVec 64 := 0
  cnt : BitVec 8 := 0

/-- The signals of the master. -/
structure Input (idWidth : Nat) where
  awValid : Bool := false
  aw : AxiAddr idWidth := ⟨0, 0, 0, 0, .fixed⟩
  wValid : Bool := false
  w : AxiBeat := ⟨0, 0, false⟩
  arValid : Bool := false
  ar : AxiAddr idWidth := ⟨0, 0, 0, 0, .fixed⟩
  rReady : Bool := false
  bReady : Bool := false

/-- The signals to the master and to the memory, and the next registers. Data and names are wired. -/
structure Output (idWidth : Nat) where
  awReady : Bool := false
  wReady : Bool := false
  arReady : Bool := false
  rValid : Bool := false
  rLast : Bool := false
  bValid : Bool := false
  req : Bool := false
  we : Bool := false
  addr : BitVec 64 := 0
  regs : Regs idWidth

section Cycle

variable {idWidth : Nat} (q : Regs idWidth) (i : Input idWidth)

/-- The state after a word of a write. -/
def afterWord : Fsm := if i.w.last then .sendB else .write

/-- `cnt_q == ax_req_q.len + 1`, wider than the counter. -/
def lastRead : Bool := q.cnt.toNat == q.axReq.len.toNat + 1

def fsm : Output idWidth :=
  match q.state with
  | .idle =>
      if i.arValid then
        { arReady := true, req := true, addr := i.ar.addr
          regs := { state := .read, axReq := i.ar, reqAddr := i.ar.addr, cnt := 1 } }
      else if i.awValid then
        if i.wValid then
          { awReady := true, wReady := true, req := true, we := true, addr := i.aw.addr
            regs := { q with state := afterWord i, axReq := i.aw, cnt := 1 } }
        else
          { awReady := true, wReady := true, addr := i.aw.addr
            regs := { q with state := .waitWvalid, axReq := i.aw } }
      else { regs := q }
  | .waitWvalid =>
      if i.wValid then
        { wReady := true, req := true, we := true, addr := q.axReq.addr
          regs := { q with state := afterWord i, cnt := 1 } }
      else { wReady := true, addr := q.axReq.addr, regs := q }
  | .read =>
      if i.rReady then
        { rValid := true, rLast := lastRead q, req := !lastRead q, addr := nextAddr q.axReq q.cnt
          regs := { q with
            state := if lastRead q then .idle else .read
            reqAddr := nextAddr q.axReq q.cnt
            cnt := q.cnt + 1 } }
      else { rValid := true, rLast := lastRead q, req := true, addr := q.reqAddr, regs := q }
  | .write =>
      if i.wValid then
        { wReady := true, req := true, we := true, addr := nextAddr q.axReq q.cnt
          regs := { q with
            state := if i.w.last then .sendB else .write
            reqAddr := nextAddr q.axReq q.cnt
            cnt := q.cnt + 1 } }
      else { wReady := true, regs := q }
  | .sendB => { bValid := true, regs := { q with state := if i.bReady then .idle else .sendB } }

end Cycle

/-- The memory: a read and a write both leave the old word at the output. -/
structure Sram (n : Nat) where
  mem : BitVec n → BitVec 64 := fun _ => 0
  rdata : BitVec 64 := 0

def Sram.next {n : Nat} (s : Sram n) (req we : Bool) (addr : BitVec n) (be : BitVec 8)
    (wdata : BitVec 64) : Sram n :=
  if req then
    { mem := if we then Function.update s.mem addr (mergeBytes (s.mem addr) wdata be) else s.mem
      rdata := s.mem addr }
  else s

/-- The adapter with its memory of `2 ^ n` words. -/
structure State (idWidth n : Nat) where
  regs : Regs idWidth := {}
  sram : Sram n := {}

section System

variable {idWidth n : Nat}

def State.next (s : State idWidth n) (i : Input idWidth) : State idWidth n where
  regs := (fsm s.regs i).regs
  sram := s.sram.next (fsm s.regs i).req (fsm s.regs i).we ((fsm s.regs i).addr.extractLsb' 3 n)
    i.w.strb i.w.data

def machine (mem : BitVec n → BitVec 64) : Rtl.Machine (State idWidth n) (Input idWidth) :=
  ⟨{ sram := { mem := mem } }, State.next⟩

end System

end Ariane.Axi2mem
