import Ariane.AxiLite
import Ariane.Rtl.Ring

set_option autoImplicit false

/- `clint.sv`: the software interrupts, the timer and its compare registers behind an AXI port. -/
namespace Ariane.Clint

open Rtl (Machine)
open Rtl.Ring (clog2 le_two_pow_clog2)

variable {cores idWidth : Nat}

/-- `mtime_q`, `mtimecmp_q` and `msip_q`. -/
structure Registers (cores : Nat) where
  mtime : BitVec 64 := 0
  mtimecmp : Fin cores → BitVec 64 := fun _ => 0
  msip : Fin cores → Bool := fun _ => false

/-- `r_reg` of `sync_wedge.sv`. -/
structure SyncWedge where
  r2 : Bool := false
  r1 : Bool := false
  r0 : Bool := false

/-- The registers, with the record of what passed the interface. -/
structure State (cores idWidth : Nat) where
  axi : AxiLite.Traffic idWidth 64 64 := {}
  regs : Registers cores := {}
  sync : SyncWedge := {}

/-- The inputs of one cycle. Nothing reads the strobes. -/
structure Input (idWidth : Nat) where
  axi : AxiLite.Input idWidth 64 64 := {}
  wStrb : Fin 8 → Bool := fun _ => true
  rtc : Bool := false
  testmode : Bool := false

def msipBase : Nat := 0x0

def mtimecmpBase : Nat := 0x4000

def mtimeBase : Nat := 0xbff8

def addrSelWidth (cores : Nat) : Nat := if cores = 1 then 1 else clog2 cores

/-- `register_address`. -/
def registerAddress (address : BitVec 64) : Nat := (address.extractLsb' 0 16).toNat

/-- The bits of the address that select a core. -/
def coreIndex (cores : Nat) (address : BitVec 64) : Nat :=
  (address.extractLsb' 3 (addrSelWidth cores)).toNat

/-- `register_address inside [base:base+8*NR_CORES]`. -/
def inside (cores base : Nat) (address : BitVec 64) : Bool :=
  decide (base ≤ registerAddress address) && decide (registerAddress address ≤ base + 8 * cores)

/-- The register write logic. A write past the end of an array is lost. -/
def Registers.write (r : Registers cores) (address wdata : BitVec 64) : Registers cores :=
  if inside cores msipBase address then
    { r with msip := fun k => if k.val = coreIndex cores address then wdata.getLsbD 0 else r.msip k }
  else if inside cores mtimecmpBase address then
    { r with
      mtimecmp := fun k => if k.val = coreIndex cores address then wdata else r.mtimecmp k }
  else if registerAddress address = mtimeBase then { r with mtime := wdata }
  else r

/-- The register read logic. What a read past the end of an array gives is taken as zero. -/
def Registers.read (r : Registers cores) (address : BitVec 64) : BitVec 64 :=
  if inside cores msipBase address then
    if h : coreIndex cores address < cores then (BitVec.ofBool (r.msip ⟨_, h⟩)).setWidth 64 else 0
  else if inside cores mtimecmpBase address then
    if h : coreIndex cores address < cores then r.mtimecmp ⟨_, h⟩ else 0
  else if registerAddress address = mtimeBase then r.mtime
  else 0

/-- `r_edge_o`. -/
def SyncWedge.rEdge (w : SyncWedge) : Bool := w.r1 && !w.r0

def SyncWedge.next (w : SyncWedge) (en serial : Bool) : SyncWedge :=
  if en then ⟨serial, w.r2, w.r1⟩ else w

section Cycle

variable (s : State cores idWidth) (i : Input idWidth)

/-- The signals from the interface. -/
def signals : AxiLite.Output 64 := AxiLite.output s.axi.regs i.axi

/-- `rdata`, by address. -/
def rdata (address : BitVec 64) : BitVec 64 :=
  if (signals s i).en && !(signals s i).we then s.regs.read address else 0

/-- The interface with the registers behind it. -/
def port : AxiLite.Input idWidth 64 64 := { i.axi with registers := rdata s i }

/-- The registers with the step of the timer. -/
def ticked : Registers cores :=
  if s.sync.rEdge then { s.regs with mtime := s.regs.mtime + 1 } else s.regs

/-- A write from the bus gets priority. -/
def nextRegs : Registers cores :=
  if (signals s i).en && (signals s i).we then
    (ticked s).write (signals s i).address i.axi.wData
  else ticked s

def next : State cores idWidth where
  axi := AxiLite.exchange s.axi (port s i)
  regs := nextRegs s i
  sync := s.sync.next (!i.testmode) i.rtc

end Cycle

/-- `timer_irq_o`. -/
def timerIrq (s : State cores idWidth) (k : Fin cores) : Bool :=
  decide (s.regs.mtimecmp k ≤ s.regs.mtime)

def machine (cores idWidth : Nat) : Machine (State cores idWidth) (Input idWidth) := ⟨{}, next⟩

/-! The registers by their addresses. -/

/-- A register. -/
inductive Register (cores : Nat) where
  | msip (core : Fin cores)
  | mtimecmp (core : Fin cores)
  | mtime
  deriving DecidableEq

/-- The contents of a register; of `msip` one bit exists. -/
def Registers.get (r : Registers cores) : Register cores → BitVec 64
  | .msip core => (BitVec.ofBool (r.msip core)).setWidth 64
  | .mtimecmp core => r.mtimecmp core
  | .mtime => r.mtime

/-- What a register takes of a word. -/
def Register.stored (data : BitVec 64) : Register cores → BitVec 64
  | .msip _ => (BitVec.ofBool (data.getLsbD 0)).setWidth 64
  | .mtimecmp _ | .mtime => data

/-- The register at an address: eight bytes for each core in the two arrays. -/
def registerAt (cores : Nat) (address : BitVec 64) : Option (Register cores) :=
  if h : registerAddress address / 8 < cores then some (.msip ⟨_, h⟩)
  else if h : mtimecmpBase ≤ registerAddress address ∧
      (registerAddress address - mtimecmpBase) / 8 < cores then
    some (.mtimecmp ⟨_, h.2⟩)
  else if registerAddress address = mtimeBase then some .mtime
  else none

/-- The address of the word after an array. -/
def PastArray (cores : Nat) (address : BitVec 64) : Prop :=
  registerAddress address = msipBase + 8 * cores ∨
    registerAddress address = mtimecmpBase + 8 * cores

section Map

variable {address : BitVec 64}

theorem registerAddress_eq (address : BitVec 64) :
    registerAddress address = address.toNat % 65536 := by
  rw [registerAddress, BitVec.extractLsb'_toNat, Nat.shiftRight_zero]

/-- The select bits count all cores, and none of them is a bit of a base address. -/
theorem addrSelWidth_spec (few : cores ≤ 2048) :
    cores ≤ 2 ^ addrSelWidth cores ∧ addrSelWidth cores ≤ 11 := by
  unfold addrSelWidth
  split
  · omega
  · refine ⟨le_two_pow_clog2 cores, ?_⟩
    unfold clog2
    split
    · omega
    · have log : Nat.log2 (cores - 1) < 11 := by
        rw [Nat.log2_lt (by omega)]
        omega
      omega

/-- The select bits of an address in an array are its index there. -/
theorem coreIndex_eq (few : cores ≤ 2048) (base : Nat) {k : Nat} (aligned : 2048 ∣ base)
    (word : registerAddress address / 8 = base + k) (core : k < cores) :
    coreIndex cores address = k := by
  obtain ⟨count, narrow⟩ := addrSelWidth_spec few
  have divides : 2 ^ addrSelWidth cores ∣ 2048 := Nat.pow_dvd_pow 2 narrow
  have page : 2 ^ addrSelWidth cores ∣ 8192 := Nat.dvd_trans divides ⟨4, rfl⟩
  rw [registerAddress_eq] at word
  have split : address.toNat / 8 % 8192 = base + k := by omega
  rw [coreIndex, BitVec.extractLsb'_toNat, Nat.shiftRight_eq_div_pow]
  calc
    address.toNat / 2 ^ 3 % 2 ^ addrSelWidth cores
        = address.toNat / 8 % 8192 % 2 ^ addrSelWidth cores := (Nat.mod_mod_of_dvd _ page).symm
    _ = (base + k) % 2 ^ addrSelWidth cores := by rw [split]
    _ = k % 2 ^ addrSelWidth cores := by
        rw [Nat.add_mod, Nat.mod_eq_zero_of_dvd (Nat.dvd_trans divides aligned), Nat.zero_add,
          Nat.mod_mod]
    _ = k := Nat.mod_eq_of_lt (by omega)

/-- The ranges of the code and the map agree, away from the words after the arrays. -/
inductive Decoded (cores : Nat) (address : BitVec 64) : Prop
  | msip (core : Fin cores) (range : inside cores msipBase address = true)
      (index : coreIndex cores address = core.val)
      (map : registerAt cores address = some (.msip core))
  | mtimecmp (core : Fin cores) (below : inside cores msipBase address = false)
      (range : inside cores mtimecmpBase address = true)
      (index : coreIndex cores address = core.val)
      (map : registerAt cores address = some (.mtimecmp core))
  | mtime (below : inside cores msipBase address = false)
      (between : inside cores mtimecmpBase address = false)
      (here : registerAddress address = mtimeBase)
      (map : registerAt cores address = some .mtime)
  | unmapped (below : inside cores msipBase address = false)
      (between : inside cores mtimecmpBase address = false)
      (elsewhere : registerAddress address ≠ mtimeBase)
      (map : registerAt cores address = none)

theorem inside_iff {base : Nat} (past : registerAddress address ≠ base + 8 * cores) :
    inside cores base address = true ↔
      base ≤ registerAddress address ∧ registerAddress address < base + 8 * cores := by
  rw [inside, Bool.and_eq_true, decide_eq_true_iff, decide_eq_true_iff]
  omega

theorem inside_eq_false {base : Nat} (past : registerAddress address ≠ base + 8 * cores)
    (outside : ¬(base ≤ registerAddress address ∧ registerAddress address < base + 8 * cores)) :
    inside cores base address = false := by
  rw [← Bool.not_eq_true, inside_iff past]
  exact outside

theorem decoded (few : cores ≤ 2048) (past : ¬PastArray cores address) : Decoded cores address := by
  obtain ⟨pastMsip, pastCmp⟩ := not_or.mp past
  by_cases soft : registerAddress address / 8 < cores
  · refine .msip ⟨_, soft⟩ ?_ (coreIndex_eq few 0 ⟨0, rfl⟩ (by simp) soft) ?_
    · rw [inside_iff pastMsip, msipBase]
      omega
    · rw [registerAt, dif_pos soft]
  · have below : inside cores msipBase address = false := by
      apply inside_eq_false pastMsip
      rw [msipBase]
      omega
    by_cases compare : mtimecmpBase ≤ registerAddress address ∧
        (registerAddress address - mtimecmpBase) / 8 < cores
    · have word : registerAddress address / 8 =
          2048 + (registerAddress address - mtimecmpBase) / 8 := by
        have start := compare.1
        rw [mtimecmpBase] at start ⊢
        omega
      refine .mtimecmp ⟨_, compare.2⟩ below ?_
        (coreIndex_eq few 2048 ⟨1, rfl⟩ word compare.2) ?_
      · rw [inside_iff pastCmp]
        omega
      · rw [registerAt, dif_neg soft, dif_pos compare]
    · have between : inside cores mtimecmpBase address = false := by
        apply inside_eq_false pastCmp
        omega
      by_cases timer : registerAddress address = mtimeBase
      · refine .mtime below between timer ?_
        rw [registerAt, dif_neg soft, dif_neg compare, if_pos timer]
      · refine .unmapped below between timer ?_
        rw [registerAt, dif_neg soft, dif_neg compare, if_neg timer]

/-- A write changes the register at its address and no other. -/
theorem get_write (few : cores ≤ 2048) (past : ¬PastArray cores address) (r : Registers cores)
    (data : BitVec 64) (reg : Register cores) :
    (r.write address data).get reg =
      if registerAt cores address = some reg then reg.stored data else r.get reg := by
  rw [Registers.write]
  cases decoded few past with
  | msip core range index map =>
      rw [if_pos range, map, index]
      cases reg with
      | msip k =>
          simp only [Registers.get, Register.stored, Option.some.injEq, Register.msip.injEq,
            ← Fin.ext_iff, eq_comm (a := core)]
          split <;> rfl
      | mtimecmp k | mtime => simp [Registers.get]
  | mtimecmp core below range index map =>
      rw [if_neg (Bool.eq_false_iff.mp below), if_pos range, map, index]
      cases reg with
      | mtimecmp k =>
          simp only [Registers.get, Register.stored, Option.some.injEq, Register.mtimecmp.injEq,
            ← Fin.ext_iff, eq_comm (a := core)]
      | msip k | mtime => simp [Registers.get]
  | mtime below between here map =>
      rw [if_neg (Bool.eq_false_iff.mp below), if_neg (Bool.eq_false_iff.mp between), if_pos here,
        map]
      cases reg <;> simp [Registers.get, Register.stored]
  | unmapped below between elsewhere map =>
      rw [if_neg (Bool.eq_false_iff.mp below), if_neg (Bool.eq_false_iff.mp between),
        if_neg elsewhere, map, if_neg (Option.some_ne_none reg).symm]

/-- A read returns the register at its address, or zero. -/
theorem read_eq (few : cores ≤ 2048) (past : ¬PastArray cores address) (r : Registers cores) :
    r.read address = ((registerAt cores address).map r.get).getD 0 := by
  rw [Registers.read]
  cases decoded few past with
  | msip core range index map =>
      have bound : coreIndex cores address < cores := index ▸ core.isLt
      rw [if_pos range, dif_pos bound, map]
      simp only [index, Fin.eta, Option.map_some, Option.getD_some, Registers.get]
  | mtimecmp core below range index map =>
      have bound : coreIndex cores address < cores := index ▸ core.isLt
      rw [if_neg (Bool.eq_false_iff.mp below), if_pos range, dif_pos bound, map]
      simp only [index, Fin.eta, Option.map_some, Option.getD_some, Registers.get]
  | mtime below between here map =>
      rw [if_neg (Bool.eq_false_iff.mp below), if_neg (Bool.eq_false_iff.mp between), if_pos here,
        map]
      rfl
  | unmapped below between elsewhere map =>
      rw [if_neg (Bool.eq_false_iff.mp below), if_neg (Bool.eq_false_iff.mp between),
        if_neg elsewhere, map]
      rfl

end Map

section Runs

variable (inputs : Nat → Input idWidth)

/-- The state before cycle `n`. -/
def stateAt (cores : Nat) (n : Nat) : State cores idWidth :=
  (machine cores idWidth).stateAt {} inputs n

/-- The writes that the registers see in cycle `n`: one or none. -/
def writesAt (cores : Nat) (n : Nat) : List (BitVec 64 × BitVec 64) :=
  AxiLite.writes (stateAt inputs cores n).axi.regs (inputs n).axi

/-- The real-time clock `k` cycles before cycle `n`, low before the reset. -/
def rtcBefore (k n : Nat) : Bool := decide (k ≤ n) && (inputs (n - k)).rtc

/-- The synchroniser gives out a rising edge in cycle `n`. -/
def risingEdge (n : Nat) : Bool := rtcBefore inputs 2 n && !rtcBefore inputs 3 n

/-- The value that was last written to the timer before cycle `n`, and the rising edges since. -/
def timeWritten (cores : Nat) : Nat → BitVec 64 × Nat
  | 0 => (0, 0)
  | n + 1 =>
      match (writesAt inputs cores n).find? fun w => registerAt cores w.1 = some .mtime with
      | some w => (w.2, 0)
      | none =>
          let (value, edges) := timeWritten cores n
          (value, edges + if risingEdge inputs n then 1 else 0)

/-- What the registers hold if the bus is quiet in cycle `n`. -/
def quietAt (cores : Nat) (n : Nat) : Registers cores := ticked (stateAt inputs cores n)

/-- What holds in cycle `n` of every run. -/
structure Law (cores : Nat) (n : Nat) : Prop where
  /-- The writes take the addresses and the data of the bus in their order. -/
  order : AxiLite.Ordered (stateAt inputs cores n).axi
  write : ∀ address data, writesAt inputs cores n = [(address, data)] → ¬PastArray cores address →
    ∀ reg, (stateAt inputs cores (n + 1)).regs.get reg =
      if registerAt cores address = some reg then reg.stored data
      else (quietAt inputs cores n).get reg
  quiet : writesAt inputs cores n = [] →
    (stateAt inputs cores (n + 1)).regs = quietAt inputs cores n
  /-- Without a write only the timer changes. -/
  others : ∀ reg, reg ≠ .mtime →
    (quietAt inputs cores n).get reg = (stateAt inputs cores n).regs.get reg
  read : (signals (stateAt inputs cores n) (inputs n)).rValid = true →
    ∃ a, (stateAt inputs cores n).axi.accepted.getLast? = some (.read a) ∧
      (¬PastArray cores a.addr →
        AxiLite.rData (stateAt inputs cores n).axi.regs
            (port (stateAt inputs cores n) (inputs n)) =
          ((registerAt cores a.addr).map (stateAt inputs cores n).regs.get).getD 0)
  irq : ∀ core, timerIrq (stateAt inputs cores n) core = true ↔
    (stateAt inputs cores n).regs.get (.mtimecmp core) ≤
      (stateAt inputs cores n).regs.get .mtime
  time : (∀ m < n, (inputs m).testmode = false) →
    (stateAt inputs cores n).regs.mtime =
      (timeWritten inputs cores n).1 + BitVec.ofNat 64 (timeWritten inputs cores n).2

variable {inputs}

theorem stateAt_succ (n : Nat) :
    stateAt inputs cores (n + 1) = next (stateAt inputs cores n) (inputs n) := rfl

theorem ordered_run (n : Nat) : AxiLite.Ordered (stateAt inputs cores n).axi := by
  induction n with
  | zero => exact ⟨rfl, rfl, AxiLite.Cs.noConfusion⟩
  | succ n ih => exact ih.step (port (stateAt inputs cores n) (inputs n))

/-- The synchroniser holds the last three samples. -/
theorem sync_run {n : Nat} (normal : ∀ m < n, (inputs m).testmode = false) :
    (stateAt inputs cores n).sync =
      ⟨rtcBefore inputs 1 n, rtcBefore inputs 2 n, rtcBefore inputs 3 n⟩ := by
  induction n with
  | zero => rfl
  | succ n ih =>
      have before := ih fun m early => normal m (Nat.lt_succ_of_lt early)
      have shifted : ∀ k, rtcBefore inputs (k + 1) (n + 1) = rtcBefore inputs k n := by
        intro k
        simp only [rtcBefore, Nat.add_le_add_iff_right, Nat.add_sub_add_right]
      have sampled : rtcBefore inputs 0 n = (inputs n).rtc := by
        simp only [rtcBefore, Nat.zero_le, decide_true, Bool.true_and, Nat.sub_zero]
      rw [stateAt_succ, next, normal n (Nat.lt_succ_self n), before, shifted, shifted, shifted,
        sampled]
      rfl

theorem mtime_ticked {n : Nat} (normal : ∀ m < n, (inputs m).testmode = false) :
    (quietAt inputs cores n).mtime =
      (stateAt inputs cores n).regs.mtime +
        BitVec.ofNat 64 (if risingEdge inputs n then 1 else 0) := by
  have edge : (stateAt inputs cores n).sync.rEdge = risingEdge inputs n := by
    rw [sync_run normal]
    rfl
  rw [quietAt, ticked, edge]
  split
  · rfl
  · exact (BitVec.add_zero _).symm

/-- The registers after a cycle, by what the interface writes. -/
theorem regs_succ (inputs : Nat → Input idWidth) (cores n : Nat) :
    (writesAt inputs cores n = [] ∧
      (stateAt inputs cores (n + 1)).regs = quietAt inputs cores n) ∨
    ∃ address data, writesAt inputs cores n = [(address, data)] ∧
      (stateAt inputs cores (n + 1)).regs = (quietAt inputs cores n).write address data := by
  rw [stateAt_succ]
  show (_ ∧ nextRegs (stateAt inputs cores n) (inputs n) = _) ∨
    ∃ address data, _ ∧ nextRegs (stateAt inputs cores n) (inputs n) = _
  rw [writesAt, AxiLite.writes, nextRegs, signals]
  split
  · exact .inr ⟨_, _, rfl, rfl⟩
  · exact .inl ⟨rfl, rfl⟩

theorem registerAddress_of_mtime {address : BitVec 64}
    (timer : registerAt cores address = some .mtime) : registerAddress address = mtimeBase := by
  unfold registerAt at timer
  split at timer
  · cases timer
  · split at timer
    · cases timer
    · split at timer
      · next here => exact here
      · cases timer

/-- Only a write to its address sets the timer. -/
theorem mtime_write (few : cores ≤ 2048) (r : Registers cores) (address data : BitVec 64) :
    (r.write address data).mtime =
      if registerAt cores address = some .mtime then data else r.mtime := by
  by_cases past : PastArray cores address
  · have elsewhere : registerAt cores address ≠ some .mtime := by
      intro timer
      have here := registerAddress_of_mtime timer
      rw [mtimeBase] at here
      rw [PastArray, msipBase, mtimecmpBase] at past
      omega
    have range : inside cores msipBase address = true ∨ inside cores mtimecmpBase address = true := by
      rcases past with past | past
      · left
        rw [inside, past, decide_eq_true (Nat.le_add_right _ _), decide_eq_true (Nat.le_refl _)]
        rfl
      · right
        rw [inside, past, decide_eq_true (Nat.le_add_right _ _), decide_eq_true (Nat.le_refl _)]
        rfl
    rw [if_neg elsewhere, Registers.write]
    split
    · rfl
    · next soft => rw [if_pos (range.resolve_left soft)]
  · exact get_write few past r data .mtime

theorem time_run (few : cores ≤ 2048) {n : Nat} (normal : ∀ m < n, (inputs m).testmode = false) :
    (stateAt inputs cores n).regs.mtime =
      (timeWritten inputs cores n).1 + BitVec.ofNat 64 (timeWritten inputs cores n).2 := by
  induction n with
  | zero => rfl
  | succ n ih =>
      have early : ∀ m < n, (inputs m).testmode = false :=
        fun m before => normal m (Nat.lt_succ_of_lt before)
      have counted : (quietAt inputs cores n).mtime =
          (timeWritten inputs cores n).1 +
            BitVec.ofNat 64 ((timeWritten inputs cores n).2 + if risingEdge inputs n then 1 else 0) := by
        rw [mtime_ticked early, ih early, BitVec.ofNat_add, BitVec.add_assoc]
      rw [timeWritten]
      rcases regs_succ inputs cores n with
        ⟨none, regs⟩ | ⟨address, data, one, regs⟩
      · rw [none, regs]
        exact counted
      · rw [one, regs, mtime_write few]
        by_cases timer : registerAt cores address = some .mtime
        · rw [if_pos timer, List.find?_cons_of_pos (by simpa using timer)]
          exact (BitVec.add_zero data).symm
        · rw [if_neg timer, List.find?_cons_of_neg (by simpa using timer), List.find?_nil]
          exact counted

/-- Up to as many cores as the map has room for, every access reaches its register alone, and no
edge of the clock is lost. -/
theorem registers_isolated (few : cores ≤ 2048) (inputs : Nat → Input idWidth) (n : Nat) :
    Law inputs cores n := by
  have order : AxiLite.Ordered (stateAt inputs cores n).axi := ordered_run n
  refine ⟨order, ?_, ?_, ?_, ?_, ?_, time_run few⟩
  · intro address data one past reg
    rcases regs_succ inputs cores n with ⟨none, -⟩ | ⟨address', data', one', regs⟩
    · rw [none] at one
      cases one
    · rw [one'] at one
      cases one
      rw [regs, get_write few past]
  · intro none
    rcases regs_succ inputs cores n with ⟨-, regs⟩ | ⟨address, data, one, -⟩
    · exact regs
    · rw [none] at one
      cases one
  · intro reg other
    rw [quietAt, ticked]
    split
    · cases reg with
      | msip core | mtimecmp core => rfl
      | mtime => exact absurd rfl other
    · rfl
  · intro answering
    have reading : (stateAt inputs cores n).axi.regs.cs = .read := AxiLite.cs_of_rValid answering
    refine ⟨_, order.reading reading, ?_⟩
    intro past
    rw [← read_eq few past, AxiLite.rData, AxiLite.output, reading]
    show rdata (stateAt inputs cores n) (inputs n) _ = _
    rw [rdata, signals, AxiLite.output, reading]
    rfl
  · intro core
    exact decide_eq_true_iff

end Runs

/-- A write of the low half of the compare register of the first core. -/
def halfWrite (n : Nat) : Input 1 :=
  if n = 0 then { axi := { awValid := true, aw := ⟨0, 0x4000⟩ } }
  else { axi := { wValid := true, wData := 0xffffffff_ffffffff }, wStrb := fun b => decide (b < 4) }

theorem halfWrite_law : Law halfWrite 2 1 := registers_isolated (by decide) halfWrite 1

/-- The write reaches the bytes that its strobes leave out. -/
theorem strobes_ignored :
    ¬ ∀ (inputs : Nat → Input 1) (n : Nat) (address data : BitVec 64),
      writesAt inputs 2 n = [(address, data)] → ∀ reg, registerAt 2 address = some reg →
        ∀ b : Fin 8, (inputs n).wStrb b = false →
          ((stateAt inputs 2 (n + 1)).regs.get reg).extractLsb' (8 * b) 8 =
            ((quietAt inputs 2 n).get reg).extractLsb' (8 * b) 8 := by
  intro always
  have kept := always halfWrite 1 0x4000 0xffffffff_ffffffff rfl (.mtimecmp 0) rfl 4 rfl
  exact absurd kept (by decide)

end Ariane.Clint
