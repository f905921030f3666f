import Ariane.Rtl.Machine
import Ariane.Sha256
import Mathlib.Data.List.Induction

set_option autoImplicit false

/- `sha256.v`, `sha256_w_mem.v` and `sha256_k_constants.v`: one step of the hash function a cycle,
with a window of sixteen words that slides over the message schedule. -/
namespace Ariane.Sha256Core

open Rtl (Machine)
open Sha256 (Word Vars)

/-- `{x[n-1:0], x[31:n]}` -/
def turned (n : Nat) (x : Word) : Word :=
  (x.extractLsb' 0 n ++ x.extractLsb' n (32 - n)).setWidth 32

/-- `{n'b0, x[31:n]}` -/
def cut (n : Nat) (x : Word) : Word := (0#n ++ x.extractLsb' n (32 - n)).setWidth 32

/-- `sha256_k_constants` -/
def kConstants (addr : BitVec 6) : Word :=
  [0x428a2f98, 0x71374491, 0xb5c0fbcf, 0xe9b5dba5, 0x3956c25b, 0x59f111f1, 0x923f82a4, 0xab1c5ed5,
    0xd807aa98, 0x12835b01, 0x243185be, 0x550c7dc3, 0x72be5d74, 0x80deb1fe, 0x9bdc06a7, 0xc19bf174,
    0xe49b69c1, 0xefbe4786, 0x0fc19dc6, 0x240ca1cc, 0x2de92c6f, 0x4a7484aa, 0x5cb0a9dc, 0x76f988da,
    0x983e5152, 0xa831c66d, 0xb00327c8, 0xbf597fc7, 0xc6e00bf3, 0xd5a79147, 0x06ca6351, 0x14292967,
    0x27b70a85, 0x2e1b2138, 0x4d2c6dfc, 0x53380d13, 0x650a7354, 0x766a0abb, 0x81c2c92e, 0x92722c85,
    0xa2bfe8a1, 0xa81a664b, 0xc24b8b70, 0xc76c51a3, 0xd192e819, 0xd6990624, 0xf40e3585, 0x106aa070,
    0x19a4c116, 0x1e376c08, 0x2748774c, 0x34b0bcb5, 0x391c0cb3, 0x4ed8aa4a, 0x5b9cca4f, 0x682e6ff3,
    0x748f82ee, 0x78a5636f, 0x84c87814, 0x8cc70208, 0x90befffa, 0xa4506ceb, 0xbef9a3f7,
    0xc67178f2].getD addr.toNat 0

/-- `SHA256_H0_0` to `SHA256_H0_7` -/
def sha256H0 : Vars :=
  ⟨0x6a09e667, 0xbb67ae85, 0x3c6ef372, 0xa54ff53a, 0x510e527f, 0x9b05688c, 0x1f83d9ab, 0x5be0cd19⟩

def zeros : Vars := ⟨0, 0, 0, 0, 0, 0, 0, 0⟩

section WMem

/-- `sha256_w_mem_ctrl_reg` -/
inductive WMemCtrl where
  | idle | update
  deriving DecidableEq, Inhabited

/-- The registers of `sha256_w_mem`; of `wMem` the first sixteen entries are read. -/
structure WMem where
  wMem : Nat → Word := fun _ => 0
  wCtr : BitVec 6 := 0
  ctrl : WMemCtrl := .idle

namespace WMem

variable (q : WMem) (block : BitVec 512) (init next : Bool)

/-- The word after the window. -/
def wNew : Word :=
  let d0 := turned 7 (q.wMem 1) ^^^ turned 18 (q.wMem 1) ^^^ cut 3 (q.wMem 1)
  let d1 := turned 17 (q.wMem 14) ^^^ turned 19 (q.wMem 14) ^^^ cut 10 (q.wMem 14)
  d1 + q.wMem 9 + d0 + q.wMem 0

/-- `w` -/
def w : Word := if q.wCtr < 16 then q.wMem (q.wCtr.setWidth 4).toNat else q.wNew

def step : WMem where
  wMem :=
    if init then fun i => block.extractLsb' (480 - 32 * i) 32
    else if 15 < q.wCtr then
      let wNew := q.wNew
      fun i => if i = 15 then wNew else q.wMem (i + 1)
    else q.wMem
  wCtr :=
    if q.ctrl = .update && next then q.wCtr + 1
    else if q.ctrl = .idle && init then 0
    else q.wCtr
  ctrl :=
    if q.ctrl = .idle && init then .update
    else if q.ctrl = .update && q.wCtr == 0x3f then .idle
    else q.ctrl

end WMem

end WMem

/-- `sha256_ctrl_reg` -/
inductive Ctrl where
  | idle | rounds | done
  deriving DecidableEq, Inhabited

/-- `a_reg` to `h_reg` and `H0_reg` to `H7_reg`, the counter, the flags and the schedule. -/
structure State where
  vars : Vars := zeros
  hash : Vars := zeros
  tCtr : BitVec 6 := 0
  digestValid : Bool := false
  ctrl : Ctrl := .idle
  wMem : WMem := {}

structure Input where
  init : Bool := false
  next : Bool := false
  block : BitVec 512 := 0
  deriving DecidableEq, Inhabited

/-- The signals of `sha256_ctrl_fsm`, a register that is not written as `none`. -/
structure Signals where
  digestInit : Bool := false
  digestUpdate : Bool := false
  stateInit : Bool := false
  stateUpdate : Bool := false
  firstBlock : Bool := false
  readyFlag : Bool := false
  wInit : Bool := false
  wNext : Bool := false
  tCtrInc : Bool := false
  tCtrRst : Bool := false
  digestValidNew : Option Bool := none
  ctrlNew : Option Ctrl := none

namespace State

variable (q : State) (i : Input)

/-- `sha256_ctrl_fsm` -/
def ctrlFsm : Signals :=
  match q.ctrl with
  | .idle =>
      let start := i.init || i.next
      { readyFlag := true
        digestInit := i.init
        firstBlock := i.init
        wInit := start
        stateInit := start
        tCtrRst := start
        digestValidNew := if start then some false else none
        ctrlNew := if start then some .rounds else none }
  | .rounds =>
      { wNext := true
        stateUpdate := true
        tCtrInc := true
        ctrlNew := if q.tCtr == 63 then some .done else none }
  | .done =>
      { digestUpdate := true
        digestValidNew := some true
        ctrlNew := some .idle }

/-- `ready` -/
def ready : Bool := (q.ctrlFsm {}).readyFlag

/-- `digest` -/
def digest : BitVec 256 := q.hash.bits

def t1 : Word :=
  let sum1 := turned 6 q.vars.e ^^^ turned 11 q.vars.e ^^^ turned 25 q.vars.e
  let ch := (q.vars.e &&& q.vars.f) ^^^ (~~~q.vars.e &&& q.vars.g)
  q.vars.h + sum1 + ch + q.wMem.w + kConstants q.tCtr

def t2 : Word :=
  let sum0 := turned 2 q.vars.a ^^^ turned 13 q.vars.a ^^^ turned 22 q.vars.a
  let maj := (q.vars.a &&& q.vars.b) ^^^ (q.vars.a &&& q.vars.c) ^^^ (q.vars.b &&& q.vars.c)
  sum0 + maj

/-- `digest_logic` -/
def digestLogic (s : Signals) : Vars :=
  if s.digestUpdate then q.hash.add q.vars
  else if s.digestInit then sha256H0
  else q.hash

/-- `state_logic` -/
def stateLogic (s : Signals) : Vars :=
  if s.stateUpdate then
    ⟨q.t1 + q.t2, q.vars.a, q.vars.b, q.vars.c, q.vars.d + q.t1, q.vars.e, q.vars.f, q.vars.g⟩
  else if s.stateInit then if s.firstBlock then sha256H0 else q.hash
  else q.vars

/-- One edge of `clk` out of reset. -/
def step : State :=
  let s := q.ctrlFsm i
  { vars := q.stateLogic s
    hash := q.digestLogic s
    tCtr := if s.tCtrInc then q.tCtr + 1 else if s.tCtrRst then 0 else q.tCtr
    digestValid := s.digestValidNew.getD q.digestValid
    ctrl := s.ctrlNew.getD q.ctrl
    wMem := q.wMem.step i.block s.wInit s.wNext }

end State

def machine : Machine State Input := ⟨{}, State.step⟩

theorem turned_eq {n : Nat} (inside : n < 32) (x : Word) : turned n x = x.rotateRight n := by
  apply BitVec.eq_of_getLsbD_eq
  intro i below
  have whole : n % 32 = n := Nat.mod_eq_of_lt inside
  simp only [turned, BitVec.getLsbD_setWidth, below, decide_true, Bool.true_and,
    BitVec.getLsbD_append, BitVec.getLsbD_extractLsb', BitVec.getLsbD_rotateRight, whole,
    Nat.zero_add]
  by_cases low : i < 32 - n
  · simp [low]
  · have high : i - (32 - n) < n := by omega
    simp [low, high]

theorem cut_eq {n : Nat} (inside : n ≤ 32) (x : Word) : cut n x = x >>> n := by
  apply BitVec.eq_of_getLsbD_eq
  intro i below
  simp only [cut, BitVec.getLsbD_setWidth, below, decide_true, Bool.true_and,
    BitVec.getLsbD_append, BitVec.getLsbD_extractLsb', BitVec.getLsbD_ushiftRight]
  by_cases low : i < 32 - n
  · simp [low]
  · rw [if_neg low, BitVec.getLsbD_zero, BitVec.getLsbD_of_ge x (n + i) (by omega)]

theorem sha256H0_eq : sha256H0 = Sha256.iv := by decide +kernel

theorem kConstants_eq (addr : BitVec 6) : kConstants addr = Sha256.k addr.toNat := by
  have all : ∀ t < 64, kConstants (BitVec.ofNat 6 t) = Sha256.k t := by decide +kernel
  have same := all addr.toNat addr.isLt
  rw [BitVec.ofNat_toNat, BitVec.setWidth_eq] at same
  exact same

section Stages

variable {q : State} {m : Nat → Word} {hash : Vars} {t : Nat}

/-- Step `t` of a block is done next; the window has the sixteen words that end before word `t`. -/
structure InRounds (q : State) (m : Nat → Word) (hash : Vars) (t : Nat) : Prop where
  below : t < 64
  ctrl : q.ctrl = .rounds
  tCtr : q.tCtr = BitVec.ofNat 6 t
  digestValid : q.digestValid = false
  held : q.hash = hash
  vars : q.vars = Sha256.rounds m hash t
  wCtrl : q.wMem.ctrl = .update
  wCtr : q.wMem.wCtr = BitVec.ofNat 6 t
  window : ∀ i < 16, q.wMem.wMem i = Sha256.schedule m (t - 16 + i)

/-- All steps are done. -/
structure AtEnd (q : State) (m : Nat → Word) (hash : Vars) : Prop where
  ctrl : q.ctrl = .done
  digestValid : q.digestValid = false
  held : q.hash = hash
  vars : q.vars = Sha256.rounds m hash 64
  wCtrl : q.wMem.ctrl = .idle
  wCtr : q.wMem.wCtr = 0

structure Idle (q : State) (hash : Vars) : Prop where
  ctrl : q.ctrl = .idle
  held : q.hash = hash
  wCtrl : q.wMem.ctrl = .idle
  wCtr : q.wMem.wCtr = 0

theorem WMem.wNew_eq (w : WMem) :
    w.wNew = Sha256.smallSigma1 (w.wMem 14) + w.wMem 9 + Sha256.smallSigma0 (w.wMem 1) + w.wMem 0 := by
  simp only [WMem.wNew, turned_eq (show 7 < 32 by omega), turned_eq (show 18 < 32 by omega),
    turned_eq (show 17 < 32 by omega), turned_eq (show 19 < 32 by omega),
    cut_eq (show 3 ≤ 32 by omega), cut_eq (show 10 ≤ 32 by omega)]
  rfl

theorem InRounds.toNat_wCtr (inside : InRounds q m hash t) : q.wMem.wCtr.toNat = t := by
  have below := inside.below
  rw [inside.wCtr, BitVec.toNat_ofNat]
  omega

theorem InRounds.wNew_eq (inside : InRounds q m hash t) (late : 16 ≤ t) :
    q.wMem.wNew = Sha256.schedule m t := by
  obtain ⟨s, rfl⟩ := Nat.exists_eq_add_of_le' late
  have start : s + 16 - 16 = s := Nat.add_sub_cancel s 16
  rw [WMem.wNew_eq, inside.window 14 (by omega), inside.window 9 (by omega),
    inside.window 1 (by omega), inside.window 0 (by omega), start, Sha256.schedule_next]
  rfl

/-- The word of the schedule that the step takes. -/
theorem InRounds.w_eq (inside : InRounds q m hash t) : q.wMem.w = Sha256.schedule m t := by
  have count := inside.toNat_wCtr
  by_cases early : t < 16
  · have first : q.wMem.wCtr < 16 := by
      rw [BitVec.lt_def, count]
      exact early
    have index : (q.wMem.wCtr.setWidth 4).toNat = t := by
      rw [BitVec.toNat_setWidth, count]
      omega
    have start : t - 16 = 0 := by omega
    rw [WMem.w, if_pos first, index, inside.window t early, start, Nat.zero_add]
  · have later : ¬ q.wMem.wCtr < 16 := by
      rw [BitVec.lt_def, count]
      exact early
    rw [WMem.w, if_neg later, inside.wNew_eq (by omega)]

theorem InRounds.vars_next (inside : InRounds q m hash t) (i : Input) :
    (q.step i).vars = Sha256.rounds m hash (t + 1) := by
  have below := inside.below
  have k : kConstants q.tCtr = Sha256.k t := by
    rw [kConstants_eq, inside.tCtr, BitVec.toNat_ofNat, Nat.mod_eq_of_lt below]
  have t1 : q.t1 = q.vars.h + Sha256.bigSigma1 q.vars.e + Sha256.ch q.vars.e q.vars.f q.vars.g +
      Sha256.k t + Sha256.schedule m t := by
    simp only [State.t1, turned_eq (show 6 < 32 by omega), turned_eq (show 11 < 32 by omega),
      turned_eq (show 25 < 32 by omega), inside.w_eq, k]
    rw [BitVec.add_assoc _ (Sha256.schedule m t), BitVec.add_comm (Sha256.schedule m t),
      ← BitVec.add_assoc]
    rfl
  have t2 : q.t2 = Sha256.bigSigma0 q.vars.a + Sha256.maj q.vars.a q.vars.b q.vars.c := by
    simp only [State.t2, turned_eq (show 2 < 32 by omega), turned_eq (show 13 < 32 by omega),
      turned_eq (show 22 < 32 by omega)]
    rfl
  have update : (q.step i).vars = q.vars.round (Sha256.k t) (Sha256.schedule m t) := by
    simp only [State.step, State.ctrlFsm, inside.ctrl, State.stateLogic, t1, t2]
    rfl
  rw [update, inside.vars, Sha256.rounds]

theorem InRounds.window_next (inside : InRounds q m hash t) (i : Input) {j : Nat} (below : j < 16) :
    (q.step i).wMem.wMem j = Sha256.schedule m (t + 1 - 16 + j) := by
  have step : (q.step i).wMem.wMem j =
      if 15 < q.wMem.wCtr then if j = 15 then q.wMem.wNew else q.wMem.wMem (j + 1)
      else q.wMem.wMem j := by
    have idle : (q.step i).wMem = q.wMem.step i.block false true := by
      simp [State.step, State.ctrlFsm, inside.ctrl]
    rw [idle, WMem.step, if_neg Bool.false_ne_true]
    by_cases late : 15 < q.wMem.wCtr
    · rw [if_pos late, if_pos late]
    · rw [if_neg late, if_neg late]
  have count : 15 < q.wMem.wCtr ↔ 15 < t := by
    rw [BitVec.lt_def, inside.toNat_wCtr]
    exact Iff.rfl
  rw [step]
  by_cases late : 15 < t
  · rw [if_pos (count.mpr late)]
    by_cases last : j = 15
    · have word : t + 1 - 16 + j = t := by omega
      rw [if_pos last, inside.wNew_eq late, word]
    · have word : t - 16 + (j + 1) = t + 1 - 16 + j := by omega
      rw [if_neg last, inside.window (j + 1) (by omega), word]
  · have word : t - 16 + j = t + 1 - 16 + j := by omega
    rw [if_neg (fun later => late (count.mp later)), inside.window j below, word]

theorem InRounds.counter (inside : InRounds q m hash t) (n : Nat) (small : n < 64) :
    q.tCtr = BitVec.ofNat 6 n ↔ t = n := by
  have below := inside.below
  rw [inside.tCtr]
  constructor
  · intro same
    have value := congrArg BitVec.toNat same
    rw [BitVec.toNat_ofNat, BitVec.toNat_ofNat, Nat.mod_eq_of_lt below,
      Nat.mod_eq_of_lt small] at value
    exact value
  · intro same
    rw [same]

/-- A step that is not the last one. -/
theorem InRounds.step (inside : InRounds q m hash t) (more : t + 1 < 64) (i : Input) :
    InRounds (q.step i) m hash (t + 1) := by
  have goes : q.tCtr ≠ 63#6 := by
    intro last
    have value := (inside.counter 63 (by omega)).mp last
    omega
  have counts : BitVec.ofNat 6 (t + 1) = BitVec.ofNat 6 t + 1 := by
    rw [BitVec.ofNat_add]
    rfl
  have together : q.wMem.wCtr ≠ 63#6 := by
    rw [inside.wCtr, ← inside.tCtr]
    exact goes
  refine ⟨more, ?_, ?_, ?_, ?_, inside.vars_next i, ?_, ?_, fun j => inside.window_next i⟩
  · simp [State.step, State.ctrlFsm, inside.ctrl, goes]
  · simp [State.step, State.ctrlFsm, inside.ctrl, inside.tCtr, counts]
  · simp [State.step, State.ctrlFsm, inside.ctrl, inside.digestValid]
  · simp [State.step, State.ctrlFsm, inside.ctrl, State.digestLogic, inside.held]
  · simp [State.step, State.ctrlFsm, inside.ctrl, WMem.step, inside.wCtrl, together]
  · simp [State.step, State.ctrlFsm, inside.ctrl, WMem.step, inside.wCtrl, inside.wCtr, counts]

/-- The last step, in which both counters wrap. -/
theorem InRounds.last (inside : InRounds q m hash 63) (i : Input) : AtEnd (q.step i) m hash := by
  have count : q.tCtr = 63 := (inside.counter 63 (by omega)).mpr rfl
  have together : q.wMem.wCtr = 63 := inside.wCtr
  refine ⟨?_, ?_, ?_, inside.vars_next i, ?_, ?_⟩
  · simp [State.step, State.ctrlFsm, inside.ctrl, count]
  · simp [State.step, State.ctrlFsm, inside.ctrl, inside.digestValid]
  · simp [State.step, State.ctrlFsm, inside.ctrl, State.digestLogic, inside.held]
  · simp [State.step, State.ctrlFsm, inside.ctrl, WMem.step, inside.wCtrl, together]
  · simp [State.step, State.ctrlFsm, inside.ctrl, WMem.step, inside.wCtrl, together]

theorem AtEnd.step (atEnd : AtEnd q m hash) (i : Input) :
    Idle (q.step i) (Sha256.compress m hash) ∧ (q.step i).digestValid = true := by
  refine ⟨⟨?_, ?_, ?_, ?_⟩, ?_⟩
  · simp [State.step, State.ctrlFsm, atEnd.ctrl]
  · simp only [State.step, State.ctrlFsm, atEnd.ctrl, State.digestLogic, atEnd.held, atEnd.vars,
      if_true]
    rfl
  · simp [State.step, State.ctrlFsm, atEnd.ctrl, WMem.step, atEnd.wCtrl]
  · simp [State.step, State.ctrlFsm, atEnd.ctrl, WMem.step, atEnd.wCtrl, atEnd.wCtr]
  · simp [State.step, State.ctrlFsm, atEnd.ctrl]

theorem Idle.wait (idle : Idle q hash) {i : Input} (quiet : (i.init || i.next) = false) :
    Idle (q.step i) hash ∧ (q.step i).digestValid = q.digestValid := by
  obtain ⟨init, next⟩ := Bool.or_eq_false_iff.mp quiet
  refine ⟨⟨?_, ?_, ?_, ?_⟩, ?_⟩
  · simp [State.step, State.ctrlFsm, idle.ctrl, init, next]
  · simp [State.step, State.ctrlFsm, idle.ctrl, State.digestLogic, init, next, idle.held]
  · simp [State.step, State.ctrlFsm, idle.ctrl, WMem.step, idle.wCtrl, init, next]
  · simp [State.step, State.ctrlFsm, idle.ctrl, WMem.step, idle.wCtrl, idle.wCtr, init, next]
  · simp [State.step, State.ctrlFsm, idle.ctrl, init, next]

/-- A block is taken; `init` wins over `next`. -/
theorem Idle.start (idle : Idle q hash) {i : Input} (start : (i.init || i.next) = true) :
    InRounds (q.step i) (Sha256.words i.block) (if i.init then Sha256.iv else hash) 0 := by
  refine ⟨by omega, ?_, ?_, ?_, ?_, ?_, ?_, ?_, ?_⟩
  · simp only [State.step, State.ctrlFsm, idle.ctrl, start]
    rfl
  · simp only [State.step, State.ctrlFsm, idle.ctrl, start]
    rfl
  · simp only [State.step, State.ctrlFsm, idle.ctrl, start]
    rfl
  · simp only [State.step, State.ctrlFsm, idle.ctrl, State.digestLogic, idle.held, sha256H0_eq]
    rfl
  · simp only [State.step, State.ctrlFsm, idle.ctrl, State.stateLogic, idle.held, sha256H0_eq, start]
    rfl
  · simp only [State.step, State.ctrlFsm, idle.ctrl, WMem.step, idle.wCtrl, start]
    rfl
  · simp only [State.step, State.ctrlFsm, idle.ctrl, WMem.step, idle.wCtrl, start]
    rfl
  · intro j below
    rw [show 0 - 16 + j = j by omega, Sha256.schedule_first _ below]
    simp only [State.step, State.ctrlFsm, idle.ctrl, WMem.step, start]
    rfl

end Stages

section Run

open Sha256 (chain)

variable {q : State}

theorem ready_iff : q.ready = true ↔ q.ctrl = .idle := by
  rw [State.ready, State.ctrlFsm]
  cases q.ctrl <;> simp

/-- The block that is taken in a cycle, and whether it starts a message. -/
def accepted (q : State) (i : Input) : List (Bool × BitVec 512) :=
  if q.ready && (i.init || i.next) then [(i.init, i.block)] else []

/-- The blocks that were taken are hashed in `c` more cycles. -/
inductive Stage (q : State) (blocks : List (Bool × BitVec 512)) (c : Nat) : Prop
  | idle (now : c = 0) (idle : Idle q (chain zeros blocks)) (valid : q.digestValid = !blocks.isEmpty)
  | rounds {before : List (Bool × BitVec 512)} {first : Bool} {block : BitVec 512} {t : Nat}
      (left : c + t = 65) (last : blocks = before ++ [(first, block)])
      (inside : InRounds q (Sha256.words block)
        (if first then Sha256.iv else chain zeros before) t)
  | done {before : List (Bool × BitVec 512)} {first : Bool} {block : BitVec 512}
      (left : c = 1) (last : blocks = before ++ [(first, block)])
      (atEnd : AtEnd q (Sha256.words block) (if first then Sha256.iv else chain zeros before))

namespace Stage

variable {blocks : List (Bool × BitVec 512)} {c : Nat}

theorem ready_iff (stage : Stage q blocks c) : q.ready = true ↔ c = 0 := by
  rw [Sha256Core.ready_iff]
  cases stage with
  | idle now idle valid => simp [now, idle.ctrl]
  | rounds left last inside =>
      have below := inside.below
      have more : c ≠ 0 := by omega
      simp [inside.ctrl, more]
  | done left last atEnd => simp [left, atEnd.ctrl]

/-- While the core is busy its inputs do not matter. -/
theorem busy (stage : Stage q blocks (c + 1)) (i : Input) : Stage (q.step i) blocks c := by
  cases stage with
  | idle now idle valid => exact absurd now (Nat.succ_ne_zero c)
  | rounds left last inside =>
      rename_i t
      by_cases more : t + 1 < 64
      · exact .rounds (by omega) last (inside.step more i)
      · have below := inside.below
        have end_t : t = 63 := by omega
        rw [end_t] at inside
        exact .done (by omega) last (inside.last i)
  | done left last atEnd =>
      obtain ⟨idle, valid⟩ := atEnd.step i
      refine .idle (by omega) ?_ ?_
      · rw [last, chain, List.foldl_append]
        exact idle
      · rw [valid, last]
        simp

theorem taken (stage : Stage q blocks 0) (i : Input) :
    Stage (q.step i) (blocks ++ accepted q i) (if i.init || i.next then 65 else 0) := by
  have ready := stage.ready_iff.mpr rfl
  cases stage with
  | idle now idle valid =>
      cases start : i.init || i.next with
      | false =>
          obtain ⟨still, same⟩ := idle.wait start
          rw [accepted, start, Bool.and_false, if_neg Bool.false_ne_true, List.append_nil]
          exact .idle rfl still (same.trans valid)
      | true =>
          rw [accepted, ready, start, if_pos rfl]
          exact .rounds rfl rfl (idle.start start)
  | rounds left last inside =>
      have below := inside.below
      omega
  | done left last atEnd => exact absurd left (by omega)

theorem busy_run {n : Nat} {more : List Input} (length : more.length = n)
    (stage : Stage q blocks (c + n)) : Stage (machine.runFrom q more) blocks c := by
  induction more generalizing q n with
  | nil =>
      rw [← length] at stage
      exact stage
  | cons i rest ih =>
      rw [List.length_cons] at length
      rw [← length, ← Nat.add_assoc] at stage
      exact ih rfl (stage.busy i)

theorem digestValid (stage : Stage q blocks c) (busy : c ≠ 0) : q.digestValid = false := by
  cases stage with
  | idle now idle valid => exact absurd now busy
  | rounds left last inside => exact inside.digestValid
  | done left last atEnd => exact atEnd.digestValid

end Stage

/-- The blocks taken in a run. -/
def blocksOf (inputs : List Input) : List (Bool × BitVec 512) :=
  machine.collect accepted machine.reset inputs

theorem blocksOf_concat (inputs : List Input) (i : Input) :
    blocksOf (inputs ++ [i]) = blocksOf inputs ++ accepted (machine.run inputs) i := by
  rw [blocksOf, machine.collect_append, Machine.collect_cons, Machine.collect_nil, List.append_nil]
  rfl

theorem run_concat (inputs : List Input) (i : Input) :
    machine.run (inputs ++ [i]) = (machine.run inputs).step i := machine.run_append inputs [i]

theorem stage_run (inputs : List Input) : ∃ c, Stage (machine.run inputs) (blocksOf inputs) c := by
  induction inputs using List.reverseRecOn with
  | nil => exact ⟨0, .idle rfl ⟨rfl, rfl, rfl, rfl⟩ rfl⟩
  | append_singleton inputs i ih =>
      obtain ⟨c, stage⟩ := ih
      rw [run_concat, blocksOf_concat]
      cases c with
      | zero => exact ⟨_, stage.taken i⟩
      | succ c =>
          have busy : ¬ (machine.run inputs).ready = true := by
            rw [stage.ready_iff]
            omega
          rw [accepted, Bool.eq_false_iff.mpr busy, Bool.false_and, if_neg Bool.false_ne_true,
            List.append_nil]
          exact ⟨c, stage.busy i⟩

/-- A block keeps the core busy for 66 cycles, and no other block is taken meanwhile. -/
theorem busy_after (inputs : List Input) {i : Input} (ready : (machine.run inputs).ready = true)
    (start : (i.init || i.next) = true) {more : List Input} (bound : more.length ≤ 65) :
    Stage (machine.run (inputs ++ i :: more)) (blocksOf inputs ++ [(i.init, i.block)])
      (65 - more.length) := by
  obtain ⟨c, stage⟩ := stage_run inputs
  rw [stage.ready_iff.mp ready] at stage
  have taken := stage.taken i
  rw [accepted, ready, start, if_pos rfl] at taken
  rw [machine.run_append, Machine.runFrom_cons]
  apply Stage.busy_run rfl
  rw [Nat.sub_add_cancel bound]
  exact taken

/-- Whenever the core is ready, the digest is the hash value of all the blocks that it took, from the
last one that started a message on, and it is marked valid at no other time. A block takes 66
cycles, whatever the inputs do meanwhile. -/
theorem digest_correct (inputs : List Input) :
    let q := machine.run inputs
    (q.ready = true → q.digest = (chain zeros (blocksOf inputs)).bits ∧
      q.digestValid = !(blocksOf inputs).isEmpty) ∧
    (q.ready = false → q.digestValid = false) ∧
    ∀ i, q.ready = true → (i.init || i.next) = true → ∀ more : List Input, more.length ≤ 65 →
      ((machine.run (inputs ++ i :: more)).ready = true ↔ more.length = 65) ∧
      (more.length = 65 →
        (machine.run (inputs ++ i :: more)).digest =
          (chain zeros (blocksOf inputs ++ [(i.init, i.block)])).bits) := by
  intro q
  obtain ⟨c, stage⟩ := stage_run inputs
  refine ⟨fun ready => ?_, fun busy => ?_, fun i ready start more bound => ⟨?_, fun full => ?_⟩⟩
  · have now := stage.ready_iff.mp ready
    cases stage with
    | idle _ idle valid =>
        rw [State.digest, idle.held]
        exact ⟨rfl, valid⟩
    | rounds left last inside =>
        have below := inside.below
        omega
    | done left last atEnd => omega
  · apply stage.digestValid
    intro now
    rw [stage.ready_iff.mpr now] at busy
    exact Bool.noConfusion busy
  · rw [(busy_after inputs ready start bound).ready_iff]
    omega
  · have stage := busy_after inputs ready start bound
    have now : 65 - more.length = 0 := by omega
    rw [now] at stage
    cases stage with
    | idle _ idle valid => rw [State.digest, idle.held]
    | rounds left last inside =>
        have below := inside.below
        omega
    | done left last atEnd => omega

end Run

end Ariane.Sha256Core
