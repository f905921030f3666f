import Ariane.FlowProcess

set_option autoImplicit false

/- What one monitor records and another replays, `remop_redirec.vhd`. -/
namespace Ariane.FlowProcess

open Rtl (Machine)

/-- The transaction of a bus cycle, in the form of the arrays. -/
def Bus.stored (b : Bus) : Element := if b.write then 1#1 ++ b.wdata else 0#1 ++ b.rdata

/-- A history beside the monitor: the bus one cycle ago, after a reset the one before it, and for every
step that a read or a write caused the flow state that it left and the transaction. -/
structure Record where
  last : Bus := {}
  steps : List (Flow × Element) := []

/-- The step that a read or a write causes: it is made in a state that watches requests. -/
def requestStep (s : State) (i : Input) : Bool :=
  advances s i && !s.currentInstr.transactSelect

def Record.update (s : State) (i : Input) (h : Record) : Record where
  last := i.toBus
  steps := if requestStep s i then h.steps ++ [(s.fc, h.last.stored)] else h.steps

/-- The transaction of the last step from a flow state. -/
def Record.latest (h : Record) (f : Flow) : Option Element :=
  ((h.steps.filter fun step => step.1 = f).getLast?).map Prod.snd

def recorder (program : Flow → Instr) (held : Bus) : Machine (State × Record) Input :=
  (machine program held).watched { last := held } Record.update

/-- A step of normal mode goes to the next address of the flow memory. -/
def Sequential (s : State) (i : Input) : Prop :=
  advances s i = true → s.currentInstr.nextFc = s.fc + 1

/-- A read that is recorded was answered in the cycle of its request. -/
def Answered (s : State) (i : Input) : Prop :=
  requestStep s i = true → s.currentInstr.rwSelect = true → s.rIReady = true

instance (s : State) (i : Input) : Decidable (Sequential s i) := inferInstanceAs (Decidable (_ → _))

instance (s : State) (i : Input) : Decidable (Answered s i) := inferInstanceAs (Decidable (_ → _))

/-- The step stores the transaction that caused it at the index of its flow state. -/
def Recorded (s : State × Record) (program : Flow → Instr) (i : Input) : Prop :=
  requestStep s.1 i = true →
    s.2.last.valid = true ∧ s.2.last.write = (!s.1.currentInstr.rwSelect) ∧
      (next s.1 i program).storeValue =
        Function.update s.1.storeValue s.1.fc s.2.last.stored

/-- The monitor drives the transaction: direction and data are those of `v`, whatever the bus
carries. -/
def Drives (s : State) (v : Element) : Prop :=
  s.wdataOverride = v.getLsbD 32 ∧ s.rdataOverride = (!v.getLsbD 32) ∧
    ∀ i, oValid s i = true ∧
      if v.getLsbD 32 then oWrite s i = true ∧ oWdata s i = v.setWidth 32
      else oReady s i = true ∧ oRdata s i = v.setWidth 32

/-- The index of both arrays is the flow state. -/
def Indexed (s : State) : Prop := s.storedCounter = s.fc

theorem Indexed.step {s : State} (indexed : Indexed s) (program : Flow → Instr) (i : Input)
    (sequential : Sequential s i) : Indexed (next s i program) := by
  unfold Indexed at *
  simp only [next]
  by_cases advance : advances s i = true
  · rw [if_pos advance, advance, Bool.true_or, if_pos rfl, sequential advance, indexed]
  · rw [if_neg advance, Bool.eq_false_iff.mpr advance, Bool.false_or, indexed]

theorem indexed_run (program : Flow → Instr) (held : Bus) {inputs : List Input}
    (sequential : (machine program held).Legal Sequential (machine program held).reset inputs) :
    Indexed ((machine program held).run inputs) :=
  (machine program held).run_invariant (show Indexed _ from rfl)
    (fun _ i indexed pre => indexed.step program i pre) sequential

/-- In redirection mode the monitor drives the element of its flow state. -/
theorem drives_fetched {s : State} (indexed : Indexed s) (program : Flow → Instr) (i : Input)
    (redirect : redirects s i = true) : Drives (next s i program) (i.saveValue s.fc) := by
  have mode : s.redirectionControl = true := by
    rw [redirects, Bool.and_eq_true] at redirect
    exact redirect.1
  have element : fetched s i = i.saveValue s.fc := by rw [fetched, indexed]
  have wdata : (next s i program).wdataOverride = (i.saveValue s.fc).getLsbD 32 := by
    simp only [next, redirect, element, Bool.true_and]
  have rdata : (next s i program).rdataOverride = !(i.saveValue s.fc).getLsbD 32 := by
    simp only [next, redirect, element, Bool.true_and]
  have data : (next s i program).red00 = (i.saveValue s.fc).setWidth 32 := by
    simp only [next, mode, element, ↓reduceIte]
  refine ⟨wdata, rdata, ?_⟩
  intro j
  rw [oValid, oWrite, oWdata, oReady, oRdata, wdata, rdata, data]
  cases (i.saveValue s.fc).getLsbD 32 with
  | false => exact ⟨rfl, rfl, rfl⟩
  | true => exact ⟨rfl, rfl, rfl⟩

/-- The copies of the bus are those of the last cycle. -/
structure Copied (s : State) (last : Bus) : Prop where
  valid : s.rIValid = last.valid
  ready : s.rIReady = last.ready
  write : last.valid = true → s.rIWrite = last.write
  wdata : last.valid = true → s.rIWdata = last.wdata
  rdata : last.ready = true → s.rIRdata = last.rdata

theorem copied_next (s : State) (i : Input) (program : Flow → Instr) :
    Copied (next s i program) i.toBus where
  valid := rfl
  ready := rfl
  write valid := if_pos valid
  wdata valid := if_pos valid
  rdata ready := if_pos ready

/-- The word that is stored is the transaction of the last cycle. -/
theorem Copied.transaction {s : State} {last : Bus} (copied : Copied s last) {i : Input}
    (request : requestStep s i = true) (answered : Answered s i) :
    last.valid = true ∧ last.write = (!s.currentInstr.rwSelect) ∧
      transaction s = last.stored := by
  have record : records s i = true := by
    rw [requestStep, Bool.and_eq_true, Bool.not_eq_true'] at request
    exact records_iff.mpr request
  obtain ⟨valid, direction⟩ := request_of_records record
  rw [copied.valid] at valid
  rw [copied.write valid] at direction
  refine ⟨valid, direction, ?_⟩
  cases select : s.currentInstr.rwSelect with
  | false => simp [FlowProcess.transaction, Bus.stored, direction, select, copied.wdata valid]
  | true =>
      have ready := answered request select
      rw [copied.ready] at ready
      simp [FlowProcess.transaction, Bus.stored, direction, select, copied.rdata ready]

/-- A step that watches requests stores its transaction at its own flow state. -/
theorem recorded_of_indexed {s : State} {h : Record} (indexed : Indexed s)
    (copied : Copied s h.last) (program : Flow → Instr) (i : Input) (answered : Answered s i) :
    Recorded (s, h) program i := by
  intro request
  obtain ⟨valid, direction, word⟩ := copied.transaction request answered
  refine ⟨valid, direction, ?_⟩
  have record : records s i = true := by
    rw [requestStep, Bool.and_eq_true, Bool.not_eq_true'] at request
    exact records_iff.mpr request
  simp only [next, record, ↓reduceIte, word]
  rw [show s.storedCounter = s.fc from indexed]

/-- The array holds the last transaction of every flow state. -/
def Holds (s : State) (h : Record) : Prop := ∀ f, s.storeValue f = (h.latest f).getD 0

theorem latest_append (h : Record) (f g : Flow) (v : Element) (last : Bus) :
    ({ last := last, steps := h.steps ++ [(f, v)] } : Record).latest g =
      if f = g then some v else h.latest g := by
  by_cases same : f = g
  · simp [Record.latest, List.filter_append, same]
  · simp [Record.latest, List.filter_append, same]

theorem Holds.step {s : State} {h : Record} (holds : Holds s h) (program : Flow → Instr)
    (i : Input) (recorded : Recorded (s, h) program i) :
    Holds (next s i program) (Record.update s i h) := by
  intro f
  by_cases request : requestStep s i = true
  · have steps : Record.update s i h = ⟨i.toBus, h.steps ++ [(s.fc, h.last.stored)]⟩ := by
      rw [Record.update, if_pos request]
    rw [(recorded request).2.2, steps, latest_append]
    by_cases same : s.fc = f
    · rw [← same, Function.update_self, if_pos rfl, Option.getD_some]
    · rw [Function.update_of_ne (Ne.symm same), if_neg same]
      exact holds f
  · have kept : records s i = false := by
      rw [Bool.eq_false_iff]
      intro record
      obtain ⟨advance, select⟩ := records_iff.mp record
      apply request
      rw [requestStep, advance, select]
      rfl
    have steps : Record.update s i h = ⟨i.toBus, h.steps⟩ := by
      rw [Record.update, if_neg request]
    simp only [next, kept, steps]
    exact holds f

/-- What the recording monitor keeps. -/
structure Keeps (s : State × Record) : Prop where
  indexed : Indexed s.1
  copied : Copied s.1 s.2.last
  holds : Holds s.1 s.2

theorem Keeps.step {s : State × Record} (keeps : Keeps s) (program : Flow → Instr) (held : Bus)
    (i : Input) (pre : Sequential s.1 i ∧ Answered s.1 i) :
    Keeps ((recorder program held).next s i) where
  indexed := keeps.indexed.step program i pre.1
  copied := copied_next s.1 i program
  holds := keeps.holds.step program i
    (recorded_of_indexed keeps.indexed keeps.copied program i pre.2)

/-- The steps of the condition. -/
def Plain (s : State × Record) (i : Input) : Prop := Sequential s.1 i ∧ Answered s.1 i

instance (s : State × Record) (i : Input) : Decidable (Plain s i) :=
  inferInstanceAs (Decidable (_ ∧ _))

theorem keeps_run (program : Flow → Instr) (held : Bus) {inputs : List Input}
    (plain : (recorder program held).Legal Plain (recorder program held).reset inputs) :
    Keeps ((recorder program held).run inputs) := by
  refine Machine.run_invariant _ ?_ (fun _ i keeps pre => keeps.step program held i pre) plain
  have copied : Copied (machine program held).reset held :=
    ⟨rfl, rfl, fun _ => rfl, fun _ => rfl, fun _ => rfl⟩
  exact ⟨rfl, copied, fun _ => rfl⟩

/-- As long as every step of normal mode goes to the next address and every recorded read was
answered at once, each step stores its transaction at its flow state, and a monitor that holds a
copy of the array replays in every flow state the transaction that was last recorded there. -/
theorem replays_recorded (program other : Flow → Instr) (held held' : Bus)
    (inputs inputs' : List Input)
    (plain : (recorder program held).Legal Plain (recorder program held).reset inputs)
    (sequential : (machine other held').Legal Sequential (machine other held').reset inputs') :
    (∀ before i, before ++ [i] <+: inputs →
        Recorded ((recorder program held).run before) program i) ∧
      ∀ (i : Input) (v : Element),
        i.saveValue = ((recorder program held).run inputs).1.storeValue →
        redirects ((machine other held').run inputs') i = true →
        ((recorder program held).run inputs).2.latest ((machine other held').run inputs').fc =
            some v →
        Drives (next ((machine other held').run inputs') i other) v := by
  constructor
  · rintro before i ⟨rest, rfl⟩
    rw [Machine.legal_append, Machine.legal_append] at plain
    obtain ⟨⟨earlier, now⟩, -⟩ := plain
    have keeps := keeps_run program held earlier
    exact recorded_of_indexed keeps.indexed keeps.copied program i now.1.2
  · intro i v copy redirect latest
    have keeps := keeps_run program held plain
    have indexed := indexed_run other held' sequential
    have drives := drives_fetched indexed other i redirect
    rw [copy, keeps.holds, latest, Option.getD_some] at drives
    exact drives

/-- A flow in which every write matches, with the given next state. -/
def everyWrite (nextFc : Flow → Flow) (f : Flow) : Instr := nextFc f ++ 0b101100000#9

/-- A write and the idle cycle after it. -/
def writeOf (data : BitVec 32) : List Input :=
  [{ valid := true, write := true, ready := true, wdata := data }, {}]

theorem replays_recorded_write :
    Drives
      (next ((machine (everyWrite (· + 1)) {}).run [{ overrideIn := true }])
        { saveValue := ((recorder (everyWrite (· + 1)) {}).run (writeOf 5)).1.storeValue }
        (everyWrite (· + 1)))
      (1#1 ++ 5#32) :=
  (replays_recorded (everyWrite (· + 1)) (everyWrite (· + 1)) {} {} (writeOf 5)
    [{ overrideIn := true }] (by decide) (by decide +kernel)).2 _ _ rfl
    (by decide) (by decide +kernel)

/-- A flow state that matches twice: the second write is stored beside the first. -/
theorem second_pass_misplaced :
    ¬ ∀ (program : Flow → Instr) (held : Bus) (inputs before : List Input) (i : Input),
      before ++ [i] <+: inputs → Recorded ((recorder program held).run before) program i := by
  intro always
  have recorded := always (everyWrite fun f => f) {} (writeOf 5 ++ writeOf 6)
    (writeOf 5 ++ [{ valid := true, write := true, ready := true, wdata := 6 }]) {}
    (List.prefix_refl _)
  have stored := congrFun (recorded (by decide)).2.2 0
  exact absurd stored (by decide)

end Ariane.FlowProcess
