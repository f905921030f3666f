import Ariane.Rtl.Machine
import Mathlib.Data.List.Basic

set_option autoImplicit false

/- `mop_wrapper.sv` behind `apb_to_reg.sv`: software writes a flow program word by word, and the
wrapper hands the words to the monitor that it selected. -/
namespace Ariane.MopWrapper

open Rtl (Machine)

/-- The states of the machine: `CTRL_IDLE` and its siblings. -/
inductive Ctrl where
  | idle | startLoad | load | red | nor
  deriving DecidableEq, Inhabited

/-- `LOG_N_INIT` and `NB_PERIPHERALS`. -/
structure Params where
  logNInit : Nat
  nbPeripherals : Nat

/-- The registers. Those that the wrapper keeps for itself are left out. -/
structure State (p : Params) where
  state : Ctrl := .idle
  count : BitVec 4 := 0
  target : BitVec p.logNInit := 0
  change : BitVec 2 := 0
  loadCtrl : BitVec p.nbPeripherals := 0
  instrutValue : BitVec 32 := 0
  deriving DecidableEq

/-- What the machine reads of `external_bus_io`; the qualifier `valid` is not among it. -/
structure Input where
  write : Bool := false
  wdata : BitVec 32 := 0
  deriving DecidableEq, Inhabited

variable {p : Params}

/-- The mask of one monitor. A target that does not exist has no bit. -/
def select (p : Params) (target : BitVec p.logNInit) : BitVec p.nbPeripherals :=
  BitVec.ofNat p.nbPeripherals 1 <<< target.toNat

section Cycle

variable (s : State p) (i : Input)

/-- `MoP_override`. -/
def mopOverride : Bool := s.state != .idle

/-- The states `CTRL_RED` and `CTRL_NOR`: a write hands out a word, and the load ends in a cycle
without a write. -/
def nextWords : State p :=
  if i.write then
    { s with
      instrutValue := i.wdata
      loadCtrl := s.loadCtrl ||| select p s.target
      count := s.count + 1 }
  else
    { s with
      state := if s.count = 8 then .idle else s.state
      loadCtrl := s.loadCtrl &&& ~~~select p s.target }

def next : State p :=
  match s.state with
  | .idle =>
      { s with
        loadCtrl := 0
        count := 0
        state := if i.write && i.wdata == 0 then .startLoad else .idle }
  | .startLoad =>
      if i.write then { s with state := .load, target := i.wdata.setWidth p.logNInit } else s
  | .load =>
      if i.write then
        { s with
          change := i.wdata.setWidth 2
          state := if i.wdata.getLsbD 1 then .red else .nor }
      else s
  | .red | .nor => nextWords s i

end Cycle

def machine (p : Params) : Machine (State p) Input := ⟨{}, next⟩

/-- The words that a monitor receives: in each cycle with `load_ctrl` it takes one. -/
def delivers (s : State p) (i : Input) : List (BitVec p.nbPeripherals × BitVec 32) :=
  if (next s i).loadCtrl = 0 then [] else [((next s i).loadCtrl, (next s i).instrutValue)]

/-- A transfer of the bus: one cycle of setup, the cycles of the access, and the idle cycles after
it, in which the bus holds its data and a write may leave `pwrite` high. -/
structure Transfer where
  write : Bool := true
  data : BitVec 32 := 0
  waits : Nat := 0
  idle : List Bool := []
  deriving DecidableEq

namespace Transfer

/-- The cycles until the transfer is complete. -/
def active (t : Transfer) : List Input := List.replicate (t.waits + 2) ⟨t.write, t.data⟩

/-- The cycles after it. -/
def after (t : Transfer) : List Input := t.idle.map fun held => ⟨t.write && held, t.data⟩

def cycles (t : Transfer) : List Input := t.active ++ t.after

end Transfer

/-! What the wrapper is for: one step for each completed write. -/

/-- A load program: how many words of the eight are still to come. -/
inductive Load (p : Params) where
  | idle
  | startLoad
  | load (target : BitVec p.logNInit)
  | words (target : BitVec p.logNInit) (rest : Nat)
  deriving DecidableEq

namespace Load

/-- The state of the wrapper that shows the progress. -/
def Shown : Load p → Ctrl → Prop
  | idle, c => c = .idle
  | startLoad, c => c = .startLoad
  | load _, c => c = .load
  | words _ _, c => c = .red ∨ c = .nor

/-- A completed write. -/
def step : Load p → BitVec 32 → Load p × List (BitVec p.nbPeripherals × BitVec 32)
  | idle, data => (if data = 0 then startLoad else idle, [])
  | startLoad, data => (load (data.setWidth p.logNInit), [])
  | load target, _ => (words target 7, [])
  | words target rest, data =>
      (if rest = 0 then idle else words target (rest - 1), [(select p target, data)])

/-- All completed writes, with the words that they deliver. -/
def run : Load p → List Transfer → Load p × List (BitVec p.nbPeripherals × BitVec 32)
  | l, [] => (l, [])
  | l, t :: rest =>
      if t.write then
        let now := l.step t.data
        let later := run now.1 rest
        (later.1, now.2 ++ later.2)
      else run l rest

end Load

/-- The machine and what it delivered after a sequence of cycles. -/
structure Agrees (ts : List Transfer) (cycles : List Input) : Prop where
  state : (Load.run (p := p) .idle ts).1.Shown ((machine p).run cycles).state
  words : (machine p).collect delivers (machine p).reset cycles = (Load.run .idle ts).2

/-- After every transfer, at its completion and after the idle cycles behind it, the machine shows
one step for each completed write and has delivered its words. -/
def Conforms (p : Params) (ts : List Transfer) : Prop :=
  ∀ (before : List Transfer) (t : Transfer), before ++ [t] <+: ts →
    Agrees (p := p) (before ++ [t]) (before.flatMap Transfer.cycles ++ t.active) ∧
      Agrees (p := p) (before ++ [t]) ((before ++ [t]).flatMap Transfer.cycles)

/-- The cycle does not start a load. -/
def Quiet (i : Input) : Prop := i.write = true → i.wdata ≠ 0

/-- The transfer does not start a load. -/
def Transfer.Quiet (t : Transfer) : Prop := t.write = true → t.data ≠ 0

instance (t : Transfer) : Decidable t.Quiet := inferInstanceAs (Decidable (_ → _))

theorem Transfer.Quiet.active {t : Transfer} (quiet : t.Quiet) :
    ∀ i ∈ t.active, MopWrapper.Quiet i := by
  intro i member
  rw [List.eq_of_mem_replicate member]
  exact quiet

theorem Transfer.Quiet.cycles {t : Transfer} (quiet : t.Quiet) :
    ∀ i ∈ t.cycles, MopWrapper.Quiet i := by
  intro i member
  rcases List.mem_append.mp member with active | after
  · exact quiet.active i active
  · obtain ⟨held, -, rfl⟩ := List.mem_map.mp after
    intro high
    exact quiet (Bool.and_eq_true _ _ ▸ high).1

theorem quiet_cycles {ts : List Transfer} (quiet : ∀ t ∈ ts, t.Quiet) :
    ∀ i ∈ ts.flatMap Transfer.cycles, Quiet i := by
  intro i member
  obtain ⟨t, inside, cycle⟩ := List.mem_flatMap.mp member
  exact (quiet t inside).cycles i cycle

theorem next_quiet (i : Input) (quiet : Quiet i) : next ({} : State p) i = {} := by
  have stays : (i.write && i.wdata == 0) = false := by
    unfold Quiet at quiet
    grind
  show ({ state := if i.write && i.wdata == 0 then .startLoad else .idle } : State p) = _
  rw [stays]
  rfl

/-- Without a start the machine stays as it is after reset. -/
theorem run_quiet (cycles : List Input) (quiet : ∀ i ∈ cycles, Quiet i) :
    (machine p).run cycles = {} ∧
      (machine p).collect delivers (machine p).reset cycles = [] := by
  show (machine p).runFrom {} cycles = {} ∧ (machine p).collect delivers {} cycles = []
  induction cycles with
  | nil => exact ⟨rfl, rfl⟩
  | cons i rest ih =>
      have step := next_quiet (p := p) i (quiet i List.mem_cons_self)
      have next : (machine p).next {} i = {} := step
      have silent : delivers ({} : State p) i = [] := by
        rw [delivers, step, if_pos rfl]
      obtain ⟨state, words⟩ := ih fun j member => quiet j (List.mem_cons_of_mem i member)
      constructor
      · rw [Machine.runFrom_cons, next, state]
      · rw [Machine.collect_cons, next, silent, words]
        rfl

theorem Load.run_quiet (before ts : List Transfer) (quiet : ∀ t ∈ before, t.Quiet) :
    Load.run (p := p) .idle (before ++ ts) = Load.run .idle ts := by
  induction before with
  | nil => rfl
  | cons t rest ih =>
      have head := quiet t List.mem_cons_self
      have later := ih fun u member => quiet u (List.mem_cons_of_mem t member)
      cases write : t.write with
      | false => simp only [List.cons_append, Load.run, write, Bool.false_eq_true, ↓reduceIte, later]
      | true =>
          have stays : Load.step (p := p) .idle t.data = (.idle, []) := by
            rw [Load.step, if_neg (head write)]
          simp only [List.cons_append, Load.run, write, ↓reduceIte, stays, later, List.nil_append]

/-- While a load is under way and `write` stays high, the machine does not leave it. -/
theorem loading_held (n : Nat) (data : BitVec 32) (s : State p)
    (loading : s.state = .load ∨ s.state = .red ∨ s.state = .nor) :
    ((machine p).runFrom s (List.replicate n ⟨true, data⟩)).state ≠ .startLoad := by
  induction n generalizing s with
  | zero => rcases loading with held | held | held <;> simp [held]
  | succ n ih =>
      rw [List.replicate_succ, Machine.runFrom_cons]
      apply ih
      show (next s ⟨true, data⟩).state = .load ∨ (next s ⟨true, data⟩).state = .red ∨
        (next s ⟨true, data⟩).state = .nor
      rcases loading with held | held | held <;> simp only [next, held, nextWords] <;> grind

/-- The two cycles of a write of zero are two steps. -/
theorem start_twice (waits : Nat) :
    ((machine p).runFrom {} (List.replicate (waits + 2) ⟨true, 0⟩)).state ≠ .startLoad := by
  rw [List.replicate_succ, List.replicate_succ, Machine.runFrom_cons, Machine.runFrom_cons]
  exact loading_held waits 0 _ (.inl rfl)

theorem first_start {ts : List Transfer} (start : ∃ t ∈ ts, ¬ t.Quiet) :
    ∃ before t after, ts = before ++ t :: after ∧ (∀ u ∈ before, u.Quiet) ∧ ¬ t.Quiet := by
  induction ts with
  | nil => obtain ⟨t, member, -⟩ := start; cases member
  | cons u rest ih =>
      by_cases quiet : u.Quiet
      · have later : ∃ t ∈ rest, ¬ t.Quiet := by
          obtain ⟨t, member, loud⟩ := start
          rcases List.mem_cons.mp member with rfl | inside
          · exact absurd quiet loud
          · exact ⟨t, inside, loud⟩
        obtain ⟨before, t, after, split, all, loud⟩ := ih later
        refine ⟨u :: before, t, after, by rw [split]; rfl, ?_, loud⟩
        intro v member
        rcases List.mem_cons.mp member with rfl | inside
        · exact quiet
        · exact all v inside
      · exact ⟨[], u, rest, rfl, by simp, quiet⟩

/-- Quiet transfers leave everything as it is. -/
theorem agrees_quiet {ts : List Transfer} {cycles : List Input} (quiet : ∀ t ∈ ts, t.Quiet)
    (silent : ∀ i ∈ cycles, Quiet i) : Agrees (p := p) ts cycles := by
  have reference := Load.run_quiet (p := p) ts [] quiet
  obtain ⟨state, words⟩ := run_quiet (p := p) cycles silent
  rw [List.append_nil] at reference
  constructor
  · rw [reference, state]
    rfl
  · rw [reference, words]
    rfl

/-- The wrapper makes one step for each completed write exactly in the runs that never start a
load. -/
theorem conforms_iff_never_starts (p : Params) (ts : List Transfer) :
    Conforms p ts ↔ ∀ t ∈ ts, t.write = true → t.data ≠ 0 := by
  constructor
  · intro conforms
    by_contra starts
    have some : ∃ t ∈ ts, ¬ t.Quiet := by
      by_contra none
      apply starts
      intro t member
      by_contra loud
      exact none ⟨t, member, loud⟩
    obtain ⟨before, t, after, split, quiet, loud⟩ := first_start some
    obtain ⟨write, data⟩ : t.write = true ∧ t.data = 0 := by
      unfold Transfer.Quiet at loud
      grind
    have inside : before ++ [t] <+: ts := ⟨after, by rw [split, List.append_assoc]; rfl⟩
    have shown := (conforms before t inside).1.state
    have reference : (Load.run (p := p) .idle (before ++ [t])).1 = .startLoad := by
      rw [Load.run_quiet before [t] quiet]
      simp [Load.run, Load.step, write, data]
    have reached : (machine p).run (before.flatMap Transfer.cycles ++ t.active) =
        (machine p).runFrom {} (List.replicate (t.waits + 2) ⟨true, 0⟩) := by
      rw [Machine.run_append, (run_quiet _ (quiet_cycles quiet)).1, Transfer.active, write, data]
    rw [reference, reached] at shown
    exact start_twice t.waits shown
  · intro quiet before t inside
    have all : ∀ u ∈ before ++ [t], u.Quiet := fun u member => quiet u (inside.subset member)
    have first : ∀ u ∈ before, u.Quiet := fun u member => all u (List.mem_append_left _ member)
    have last : t.Quiet := all t (List.mem_append_right _ List.mem_cons_self)
    constructor
    · apply agrees_quiet all
      intro i member
      rcases List.mem_append.mp member with earlier | active
      · exact quiet_cycles first i earlier
      · exact last.active i active
    · exact agrees_quiet all (quiet_cycles all)

/-- A load program with its eight words. -/
def loadProgram (target mode : BitVec 32) (words : List (BitVec 32)) : List Transfer :=
  ({ data := 0 } : Transfer) :: { data := target } :: { data := mode } ::
    words.map fun word => { data := word }

/-- One step for each write delivers the eight words and ends. -/
theorem Load.run_words (target : BitVec p.logNInit) (words : List (BitVec 32)) (rest : Nat)
    (length : words.length = rest + 1) :
    Load.run (p := p) (.words target rest) (words.map fun word => { data := word }) =
      (.idle, words.map fun word => (select p target, word)) := by
  induction words generalizing rest with
  | nil => cases length
  | cons word later ih =>
      rw [List.length_cons, Nat.add_right_cancel_iff] at length
      by_cases last : rest = 0
      · have none : later = [] := List.eq_nil_of_length_eq_zero (by omega)
        simp [none, Load.run, Load.step, last]
      · have following := ih (rest - 1) (by omega)
        simp only [List.map_cons, Load.run, Load.step, ↓reduceIte, last, following,
          List.singleton_append]

/-- The eight words of a program are delivered in order, to the monitor that was selected. -/
theorem Load.run_program (target mode : BitVec 32) (words : List (BitVec 32))
    (length : words.length = 8) :
    Load.run (p := p) .idle (loadProgram target mode words) =
      (.idle, words.map fun word => (select p (target.setWidth p.logNInit), word)) := by
  have delivered := Load.run_words (p := p) (target.setWidth p.logNInit) words 7 length
  simp [loadProgram, Load.run, Load.step, delivered]

/-- The shortest load program is taken apart differently: its words are not delivered. -/
theorem program_not_delivered :
    ¬ ∀ (p : Params) (ts : List Transfer), Conforms p ts := by
  intro always
  have agrees := (always ⟨3, 8⟩ [{ data := 0 }] [] { data := 0 } (List.prefix_refl _)).1.state
  have shown : ((machine ⟨3, 8⟩).run (([] : List Transfer).flatMap Transfer.cycles ++
      ({ data := 0 } : Transfer).active)).state = .load := by decide
  rw [shown] at agrees
  cases agrees

end Ariane.MopWrapper
