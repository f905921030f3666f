import Mathlib.Logic.Basic

set_option autoImplicit false

/- Clocked circuits as pure state machines: one list of inputs is one run, one
element of the list is one cycle. Nothing here depends on a particular design. -/
namespace Rtl

/-- A synchronous circuit: the registers after reset and the next-state function. -/
structure Machine (σ ι : Type) where
  reset : σ
  next : σ → ι → σ

namespace Machine

variable {σ ι τ α γ : Type}

/-- The registers after a run that starts in `s`. -/
def runFrom (M : Machine σ ι) (s : σ) (inputs : List ι) : σ :=
  inputs.foldl M.next s

/-- The registers after a run that starts at reset. -/
def run (M : Machine σ ι) (inputs : List ι) : σ :=
  M.runFrom M.reset inputs

@[simp] theorem runFrom_nil (M : Machine σ ι) (s : σ) : M.runFrom s [] = s := rfl

@[simp] theorem runFrom_cons (M : Machine σ ι) (s : σ) (i : ι) (rest : List ι) :
    M.runFrom s (i :: rest) = M.runFrom (M.next s i) rest := rfl

theorem runFrom_append (M : Machine σ ι) (s : σ) (first second : List ι) :
    M.runFrom s (first ++ second) = M.runFrom (M.runFrom s first) second :=
  List.foldl_append

theorem run_append (M : Machine σ ι) (first second : List ι) :
    M.run (first ++ second) = M.runFrom (M.run first) second :=
  M.runFrom_append M.reset first second

/-- Every cycle of the run respects the input contract `pre` in the state it meets. -/
def Legal (M : Machine σ ι) (pre : σ → ι → Prop) : σ → List ι → Prop
  | _, [] => True
  | s, i :: rest => pre s i ∧ M.Legal pre (M.next s i) rest

@[simp] theorem legal_nil (M : Machine σ ι) (pre : σ → ι → Prop) (s : σ) :
    M.Legal pre s [] := trivial

@[simp] theorem legal_cons (M : Machine σ ι) (pre : σ → ι → Prop) (s : σ) (i : ι)
    (rest : List ι) :
    M.Legal pre s (i :: rest) ↔ pre s i ∧ M.Legal pre (M.next s i) rest := Iff.rfl

instance decidableLegal (M : Machine σ ι) (pre : σ → ι → Prop) [∀ s i, Decidable (pre s i)] :
    ∀ s inputs, Decidable (M.Legal pre s inputs)
  | _, [] => isTrue trivial
  | s, i :: rest =>
      haveI := decidableLegal M pre (M.next s i) rest
      inferInstanceAs (Decidable (pre s i ∧ M.Legal pre (M.next s i) rest))

theorem legal_append (M : Machine σ ι) (pre : σ → ι → Prop) (s : σ) (first second : List ι) :
    M.Legal pre s (first ++ second) ↔
      M.Legal pre s first ∧ M.Legal pre (M.runFrom s first) second := by
  induction first generalizing s with
  | nil => simp
  | cons i rest ih => simp only [List.cons_append, legal_cons, ih, runFrom_cons, and_assoc]

theorem Legal.mono {M : Machine σ ι} {pre weaker : σ → ι → Prop}
    (implies : ∀ s i, pre s i → weaker s i) {s : σ} {inputs : List ι}
    (legal : M.Legal pre s inputs) : M.Legal weaker s inputs := by
  induction inputs generalizing s with
  | nil => trivial
  | cons i rest ih => exact ⟨implies s i legal.1, ih legal.2⟩

theorem legal_true (M : Machine σ ι) (s : σ) (inputs : List ι) :
    M.Legal (fun _ _ => True) s inputs := by
  induction inputs generalizing s with
  | nil => trivial
  | cons i rest ih => exact ⟨trivial, ih _⟩

/-- A contract on the inputs alone may be added cycle by cycle. -/
theorem Legal.and_inputs {M : Machine σ ι} {pre : σ → ι → Prop} {every : ι → Prop} {s : σ}
    {inputs : List ι} (legal : M.Legal pre s inputs) (all : ∀ i ∈ inputs, every i) :
    M.Legal (fun t i => pre t i ∧ every i) s inputs := by
  induction inputs generalizing s with
  | nil => trivial
  | cons i rest ih =>
      have head := all i List.mem_cons_self
      exact ⟨⟨legal.1, head⟩, ih legal.2 fun j member => all j (List.mem_cons_of_mem _ member)⟩

/-- Induction over a run: what one legal cycle preserves, every legal run preserves. -/
theorem runFrom_invariant (M : Machine σ ι) {pre : σ → ι → Prop} {inv : σ → Prop}
    (step : ∀ s i, inv s → pre s i → inv (M.next s i)) {s : σ} {inputs : List ι}
    (start : inv s) (legal : M.Legal pre s inputs) : inv (M.runFrom s inputs) := by
  induction inputs generalizing s with
  | nil => exact start
  | cons i rest ih => exact ih (step s i start legal.1) legal.2

theorem run_invariant (M : Machine σ ι) {pre : σ → ι → Prop} {inv : σ → Prop}
    (init : inv M.reset) (step : ∀ s i, inv s → pre s i → inv (M.next s i))
    {inputs : List ι} (legal : M.Legal pre M.reset inputs) : inv (M.run inputs) :=
  M.runFrom_invariant step init legal

/-- What the circuit emits during a run, cycle after cycle. -/
def collect (M : Machine σ ι) (out : σ → ι → List α) : σ → List ι → List α
  | _, [] => []
  | s, i :: rest => out s i ++ M.collect out (M.next s i) rest

@[simp] theorem collect_nil (M : Machine σ ι) (out : σ → ι → List α) (s : σ) :
    M.collect out s [] = [] := rfl

@[simp] theorem collect_cons (M : Machine σ ι) (out : σ → ι → List α) (s : σ) (i : ι)
    (rest : List ι) :
    M.collect out s (i :: rest) = out s i ++ M.collect out (M.next s i) rest := rfl

theorem collect_append (M : Machine σ ι) (out : σ → ι → List α) (s : σ) (first second : List ι) :
    M.collect out s (first ++ second) =
      M.collect out s first ++ M.collect out (M.runFrom s first) second := by
  induction first generalizing s with
  | nil => rfl
  | cons i rest ih =>
      rw [List.cons_append, collect_cons, ih, collect_cons, runFrom_cons, List.append_assoc]

/-- What one cycle conserves, a run conserves: the stored values followed by everything
taken in are everything handed out followed by the stored values at the end. -/
theorem collect_conservation (M : Machine σ ι) {pre : σ → ι → Prop} {inv : σ → Prop}
    (view : σ → List α) (taken given : σ → ι → List α)
    (step : ∀ s i, inv s → pre s i → inv (M.next s i))
    (conserve : ∀ s i, inv s → pre s i →
      view s ++ taken s i = given s i ++ view (M.next s i))
    {s : σ} {inputs : List ι} (start : inv s) (legal : M.Legal pre s inputs) :
    view s ++ M.collect taken s inputs =
      M.collect given s inputs ++ view (M.runFrom s inputs) := by
  induction inputs generalizing s with
  | nil => simp only [collect_nil, List.append_nil, List.nil_append, runFrom_nil]
  | cons i rest ih =>
      have tail := ih (step s i start legal.1) legal.2
      calc view s ++ M.collect taken s (i :: rest)
          = (view s ++ taken s i) ++ M.collect taken (M.next s i) rest := by
            rw [collect_cons, List.append_assoc]
        _ = given s i ++ (view (M.next s i) ++ M.collect taken (M.next s i) rest) := by
            rw [conserve s i start legal.1, List.append_assoc]
        _ = M.collect given s (i :: rest) ++ view (M.runFrom s (i :: rest)) := by
            rw [tail, collect_cons, runFrom_cons, List.append_assoc]

/-- The circuit together with a history variable that watches it. -/
def watched (M : Machine σ ι) (start : γ) (update : σ → ι → γ → γ) : Machine (σ × γ) ι where
  reset := (M.reset, start)
  next s i := (M.next s.1 i, update s.1 i s.2)

theorem watched_runFrom (M : Machine σ ι) (start : γ) (update : σ → ι → γ → γ) (s : σ × γ)
    (inputs : List ι) :
    ((M.watched start update).runFrom s inputs).1 = M.runFrom s.1 inputs := by
  induction inputs generalizing s with
  | nil => rfl
  | cons i rest ih => exact ih ((M.watched start update).next s i)

/-- A run that is legal without the history variable is legal with it. -/
theorem watched_legal (M : Machine σ ι) (start : γ) (update : σ → ι → γ → γ)
    (pre : σ → ι → Prop) {s : σ} {history : γ} {inputs : List ι}
    (legal : M.Legal pre s inputs) :
    (M.watched start update).Legal (fun t i => pre t.1 i) (s, history) inputs := by
  induction inputs generalizing s history with
  | nil => trivial
  | cons i rest ih => exact ⟨legal.1, ih legal.2⟩

/-- A history variable never changes the registers it watches. -/
theorem watched_run (M : Machine σ ι) (start : γ) (update : σ → ι → γ → γ)
    (inputs : List ι) : ((M.watched start update).run inputs).1 = M.run inputs :=
  M.watched_runFrom start update (M.reset, start) inputs

end Machine

end Rtl
