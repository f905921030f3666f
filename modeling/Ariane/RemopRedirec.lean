import Ariane.Rtl.Machine
import Mathlib.Logic.Function.Basic

set_option autoImplicit false

/- `remop_redirec.vhd`: the redirection process, which sends the recorded values of one monitor to
another. -/
namespace Ariane.RemopRedirec

open Rtl (Machine)

/-- `AL`: the width of the addresses of both arrays. -/
abbrev addressLength : Nat := 4

/-- `stored`. -/
abbrev Stored := BitVec addressLength → BitVec 33

/-- The registers of the process. -/
structure State where
  nowRed : BitVec 3 := 0
  redirection : Bool := false
  saveCounter : BitVec addressLength := BitVec.allOnes addressLength
  storedCounter2 : BitVec addressLength := 0
  overrideDataout : BitVec 33 := 0
  overrideOut : Bool := false
  startToRedirect : Bool := false
  saveValue : Stored := fun _ => 0

/-- The signals that the process reads. -/
structure Input where
  red : Bool := false
  redEvent : Bool := false
  redEventSelect : Bool := false
  redRwEvent : Bool := false
  nextRed : BitVec 3 := 0
  storeValue : Stored := fun _ => 0
  overrideIn : Bool := false
  overrideDatain : BitVec 33 := 0

section Process

variable (i : Input) (s : State)

/-- A redirection rule matches. -/
def redirects (d : State) : State :=
  if i.red && i.redEvent then
    if !i.redEventSelect then
      if i.redRwEvent then
        { d with nowRed := i.nextRed, redirection := true, overrideOut := true,
                 startToRedirect := true }
      else d
    else { d with nowRed := i.nextRed, redirection := true }
  else { d with redirection := false }

/-- The sending side. -/
def sends (d : State) : State :=
  if s.startToRedirect then
    let d := { d with storedCounter2 := s.storedCounter2 + 1 }
    let d := if s.storedCounter2 == BitVec.allOnes addressLength then
        { d with overrideOut := false, startToRedirect := false }
      else d
    { d with overrideDataout := i.storeValue s.storedCounter2 }
  else d

/-- The receiving side. -/
def receives (d : State) : State :=
  if i.overrideIn then
    { d with
      saveCounter := s.saveCounter + 1
      saveValue := Function.update d.saveValue s.saveCounter i.overrideDatain }
  else d

/-- One clock edge. -/
def next : State := receives i s (sends i s (redirects i s))

end Process

/-- The matching rule starts a transfer. -/
def fires (i : Input) : Bool := i.red && i.redEvent && !i.redEventSelect && i.redRwEvent

/-- The last word is sent. -/
def finishes (s : State) : Bool :=
  s.startToRedirect && s.storedCounter2 == BitVec.allOnes addressLength

section Process

variable (i : Input) (s : State)

theorem redirects_saveValue (d : State) : (redirects i d).saveValue = d.saveValue := by
  simp only [redirects, apply_ite State.saveValue, ite_self]

theorem sends_saveValue (d : State) : (sends i s d).saveValue = d.saveValue := by
  simp only [sends, apply_ite State.saveValue, ite_self]

theorem redirects_saveCounter (d : State) : (redirects i d).saveCounter = d.saveCounter := by
  simp only [redirects, apply_ite State.saveCounter, ite_self]

theorem sends_saveCounter (d : State) : (sends i s d).saveCounter = d.saveCounter := by
  simp only [sends, apply_ite State.saveCounter, ite_self]

/-- The receiving side does not depend on the sending side. -/
theorem next_saveValue :
    (next i s).saveValue =
      if i.overrideIn then Function.update s.saveValue s.saveCounter i.overrideDatain
      else s.saveValue := by
  simp only [next, receives, apply_ite State.saveValue, sends_saveValue, redirects_saveValue]

theorem next_saveCounter :
    (next i s).saveCounter = if i.overrideIn then s.saveCounter + 1 else s.saveCounter := by
  simp only [next, receives, apply_ite State.saveCounter, sends_saveCounter,
    redirects_saveCounter]

theorem receives_sender (d : State) :
    (receives i s d).overrideOut = d.overrideOut ∧
      (receives i s d).startToRedirect = d.startToRedirect ∧
      (receives i s d).storedCounter2 = d.storedCounter2 ∧
      (receives i s d).overrideDataout = d.overrideDataout := by
  simp only [receives, apply_ite State.overrideOut, apply_ite State.startToRedirect,
    apply_ite State.storedCounter2, apply_ite State.overrideDataout, ite_self, and_self]

theorem next_storedCounter2 :
    (next i s).storedCounter2 =
      if s.startToRedirect then s.storedCounter2 + 1 else s.storedCounter2 := by
  rw [next, (receives_sender i s _).2.2.1]
  simp only [sends, redirects, apply_ite State.storedCounter2, ite_self]

theorem next_overrideDataout :
    (next i s).overrideDataout =
      if s.startToRedirect then i.storeValue s.storedCounter2 else s.overrideDataout := by
  rw [next, (receives_sender i s _).2.2.2]
  simp only [sends, redirects, apply_ite State.overrideDataout, ite_self]

theorem redirects_overrideOut (d : State) :
    (redirects i d).overrideOut = (d.overrideOut || fires i) := by
  rw [redirects, fires]
  cases i.red <;> cases i.redEvent <;> cases i.redEventSelect <;> cases i.redRwEvent <;>
    simp

theorem redirects_startToRedirect (d : State) :
    (redirects i d).startToRedirect = (d.startToRedirect || fires i) := by
  rw [redirects, fires]
  cases i.red <;> cases i.redEvent <;> cases i.redEventSelect <;> cases i.redRwEvent <;>
    simp

/-- The last word ends a transfer even when a rule fires. -/
theorem next_overrideOut :
    (next i s).overrideOut = (!finishes s && (s.overrideOut || fires i)) := by
  rw [next, (receives_sender i s _).1, ← redirects_overrideOut, sends, finishes]
  cases s.startToRedirect with
  | false => rfl
  | true => cases s.storedCounter2 == BitVec.allOnes addressLength <;> rfl

theorem next_startToRedirect :
    (next i s).startToRedirect = (!finishes s && (s.startToRedirect || fires i)) := by
  rw [next, (receives_sender i s _).2.1, ← redirects_startToRedirect, sends, finishes]
  cases s.startToRedirect with
  | false => rfl
  | true => cases s.storedCounter2 == BitVec.allOnes addressLength <;> rfl

end Process

/-- Two monitors, the first connected to the second. -/
structure System where
  source : State := {}
  target : State := {}

/-- The signals of both monitors; those that the connection drives are not read. -/
structure SystemInput where
  source : Input := {}
  target : Input := {}

namespace System

/-- What the target reads. -/
def targetInput (s : System) (i : SystemInput) : Input :=
  { i.target with
    overrideIn := s.source.overrideOut
    overrideDatain := s.source.overrideDataout }

def next (s : System) (i : SystemInput) : System where
  source := RemopRedirec.next i.source s.source
  target := RemopRedirec.next (s.targetInput i) s.target

end System

def system : Machine System SystemInput := ⟨{}, System.next⟩

end Ariane.RemopRedirec
