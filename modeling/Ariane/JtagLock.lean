import Ariane.DmiJtag

set_option autoImplicit false

/- The lock of the debug transport module: what a session can reach after a test reset, whatever
went on before it. -/
namespace Ariane.DmiJtag

open Rtl (Machine)
open Dm (DmiReq dtmRead)

/-- What happens at the pads: an edge of the test clock or an assertion of `trst_ni`. -/
inductive Event where
  | trst
  | tck (i : Input)
  deriving DecidableEq

def step (s : State) : Event → State
  | .trst => testReset s
  | .tck i => clock s i

/-- The module with its key, from power on. -/
def machine (key : BitVec 32) : Machine State Event := ⟨{ pass := key }, step⟩

/-- What the debugger and the debug module see at one edge. -/
structure Output where
  tdo : Bool
  tdoOe : Bool
  request : Option DmiReq
  deriving DecidableEq

def output (s : State) : Event → List Output
  | .trst => []
  | .tck _ =>
      [{ tdo := s.tap.tdoMux (s.dr.getLsbD 0)
         tdoOe := s.tap.tdoOe
         request := if dmiReqValid s then some (dmiReq s) else none }]

/-- An update of the data register with the operation of an unlock; `pass_chk` is a latch, so an edge
and a reset end it alike. -/
def passUpdate (s : State) (_ : Event) : Bool :=
  s.tap.updateDr && s.tap.dmiAccess && (dmi s).op == dtmPass

/-- The update carries the key. -/
def passMatches (s : State) (e : Event) : Bool := passUpdate s e && (dmi s).data == s.pass

/-- The lock is opened before the event. -/
def opens (s : State) (_ : Event) : Bool := unlocks s

section Runs

variable (key : BitVec 32)

/-- No event of the session is an update with the key. -/
def NoMatch (s : State) (session : List Event) : Prop :=
  (machine key).Legal (fun s e => passMatches s e = false) s session

/-- The history never opened the lock, up to the reset that ends it. -/
def NeverOpened (history : List Event) : Prop :=
  (machine key).Legal (fun s e => opens s e = false) (machine key).reset (history ++ [.trst])

/-- The registers after a history and a test reset. -/
def afterReset (history : List Event) : State := testReset ((machine key).run history)

/-- Without an update with the key, no session after the reset reaches the debug module. -/
def StaysLocked (history : List Event) : Prop :=
  ∀ session, NoMatch key (afterReset key history) session →
    dmiReqValid ((machine key).runFrom (afterReset key history) session) = false

/-- Without an update with either key, a session cannot tell which key it is. -/
def Indistinguishable (key' : BitVec 32) (history : List Event) : Prop :=
  ∀ session, NoMatch key (afterReset key history) session →
    NoMatch key' (afterReset key' history) session →
    (machine key).collect output (afterReset key history) session =
      (machine key').collect output (afterReset key' history) session

end Runs

theorem matches_of_opens {s : State} {e : Event} (quiet : passMatches s e = false) :
    opens s e = false := by
  simp only [passMatches, passUpdate, opens, unlocks, accepts] at quiet ⊢
  grind

theorem step_pass (s : State) (e : Event) : (step s e).pass = s.pass := by
  cases e <;> rfl

theorem step_passChk (s : State) (e : Event) : (step s e).passChk = (s.passChk || opens s e) := by
  cases e <;> rfl

theorem runFrom_pass (key : BitVec 32) (s : State) (events : List Event) :
    ((machine key).runFrom s events).pass = s.pass := by
  induction events generalizing s with
  | nil => rfl
  | cons e rest ih => rw [Machine.runFrom_cons, ih]; exact step_pass s e

/-- The latch tells whether the lock was ever opened. -/
theorem runFrom_passChk (key : BitVec 32) (s : State) (events : List Event) :
    ((machine key).runFrom s events).passChk = false ↔
      s.passChk = false ∧ (machine key).Legal (fun s e => opens s e = false) s events := by
  induction events generalizing s with
  | nil => simp only [Machine.runFrom_nil, Machine.legal_nil, and_true]
  | cons e rest ih =>
      rw [Machine.runFrom_cons, ih, Machine.legal_cons, ← and_assoc]
      have chk : ((machine key).next s e).passChk = (s.passChk || opens s e) := step_passChk s e
      rw [chk, Bool.or_eq_false_iff]

/-- While the latch is clear, the machine stays idle. -/
structure Locked (s : State) : Prop where
  passChk : s.passChk = false
  fsm : s.fsm = .idle

theorem Locked.step {s : State} (locked : Locked s) (e : Event) (quiet : passMatches s e = false) :
    Locked (step s e) := by
  constructor
  · rw [step_passChk, locked.passChk, matches_of_opens quiet]
    rfl
  · cases e with
    | trst => rfl
    | tck i =>
        have idle : nextFsm s i = .idle := by
          rw [nextFsm, locked.fsm, locked.passChk]
          simp
        exact idle

theorem Locked.silent {s : State} (locked : Locked s) : dmiReqValid s = false := by
  rw [dmiReqValid, locked.fsm]
  rfl

/-- The same registers with another key. -/
def withKey (key : BitVec 32) (s : State) : State := { s with pass := key }

/-- The key is read by an unlock and nowhere else. -/
theorem step_withKey (key : BitVec 32) (s : State) (e : Event)
    (same : opens (withKey key s) e = opens s e) :
    step (withKey key s) e = withKey key (step s e) := by
  have latch : unlocks (withKey key s) = unlocks s := same
  cases e with
  | trst =>
      show testReset (withKey key s) = _
      rw [testReset, latch]
      rfl
  | tck i =>
      show clock (withKey key s) i = _
      rw [clock, latch]
      rfl

theorem output_withKey (key : BitVec 32) (s : State) (e : Event) :
    output (withKey key s) e = output s e := by
  cases e <;> rfl

theorem passMatches_of_quiet {s : State} {e : Event} (quiet : passUpdate s e = false) :
    passMatches s e = false := by
  rw [passMatches, quiet, Bool.false_and]

section Keys

variable (key other : BitVec 32)

/-- Without a match in either session, both give the same answers. -/
theorem collect_withKey (s : State) (session : List Event) (first : NoMatch other s session)
    (second : NoMatch key (withKey key s) session) :
    (machine key).collect output (withKey key s) session =
      (machine other).collect output s session := by
  induction session generalizing s with
  | nil => rfl
  | cons e rest ih =>
      have same : opens (withKey key s) e = opens s e := by
        rw [matches_of_opens first.1, matches_of_opens second.1]
      have next := step_withKey key s e same
      have later : NoMatch key (withKey key (step s e)) rest := by
        rw [← next]
        exact second.2
      rw [Machine.collect_cons, Machine.collect_cons, output_withKey]
      show _ ++ (machine key).collect output (step (withKey key s) e) rest = _
      rw [next, ih (step s e) first.2 later]
      rfl

/-- A session without any unlock takes the same course whatever the key is. -/
theorem session_withKey (s : State) (session : List Event)
    (quiet : (machine other).Legal (fun s e => passUpdate s e = false) s session) :
    NoMatch key (withKey key s) session ∧
      (machine key).runFrom (withKey key s) session =
        withKey key ((machine other).runFrom s session) := by
  induction session generalizing s with
  | nil => exact ⟨trivial, rfl⟩
  | cons e rest ih =>
      have here : passUpdate (withKey key s) e = false := quiet.1
      have same : opens (withKey key s) e = opens s e := by
        rw [matches_of_opens (passMatches_of_quiet quiet.1),
          matches_of_opens (passMatches_of_quiet here)]
      have next : (machine key).next (withKey key s) e = withKey key (step s e) :=
        step_withKey key s e same
      obtain ⟨matched, final⟩ := ih (step s e) quiet.2
      refine ⟨⟨passMatches_of_quiet here, ?_⟩, ?_⟩
      · rw [next]
        exact matched
      · rw [Machine.runFrom_cons, next]
        exact final

end Keys

/-! A session that reads a register of the debug module. -/

def edges (bits : List Bits) : List Event :=
  bits.map fun b => .tck { tms := b.tms, tdi := b.tdi }

/-- A read of address zero. -/
def readSession : List Event := edges (selectDmi ++ scanDr 1 ++ [{ tms := false }])

/-- With the latch set, a session without any password reads the debug module. -/
theorem readSession_reads (key : BitVec 32) (s : State) (latched : (testReset s).passChk = true) :
    NoMatch key (testReset s) readSession ∧
      dmiReqValid ((machine key).runFrom (testReset s) readSession) = true := by
  have quiet : (machine 0).Legal (fun s e => passUpdate s e = false) { passChk := true }
      readSession := by
    decide +kernel
  have reads : dmiReqValid ((machine 0).runFrom { passChk := true } readSession) = true := by
    decide +kernel
  have start : testReset s = withKey s.pass { passChk := true } := by
    have registers : testReset s = { passChk := (testReset s).passChk, pass := s.pass } := rfl
    rw [registers, latched]
    rfl
  obtain ⟨matched, final⟩ := session_withKey s.pass 0 { passChk := true } readSession quiet
  rw [start]
  constructor
  · exact matched
  · show dmiReqValid ((machine s.pass).runFrom _ _) = true
    rw [final]
    exact reads

section Lock

variable (key : BitVec 32) (history : List Event)

theorem afterReset_passChk :
    (afterReset key history).passChk = false ↔ NeverOpened key history := by
  have latch := runFrom_passChk key (machine key).reset (history ++ [.trst])
  have reset : (machine key).runFrom (machine key).reset (history ++ [.trst]) =
      afterReset key history := by
    rw [Machine.runFrom_append]
    rfl
  rw [reset] at latch
  rw [latch]
  exact and_iff_right rfl

theorem staysLocked_iff : StaysLocked key history ↔ NeverOpened key history := by
  rw [← afterReset_passChk]
  constructor
  · intro stays
    by_contra opened
    have latched : (afterReset key history).passChk = true := Bool.eq_true_of_not_eq_false opened
    obtain ⟨quiet, reads⟩ := readSession_reads key _ latched
    have silent := stays readSession quiet
    rw [afterReset] at silent
    rw [silent] at reads
    exact absurd reads (by decide)
  · intro closed session quiet
    have start : Locked (afterReset key history) := ⟨closed, rfl⟩
    exact ((machine key).runFrom_invariant (fun s e locked quiet => locked.step e quiet) start
      quiet).silent

theorem indistinguishable_of_closed (key' : BitVec 32) (first : NeverOpened key history)
    (second : NeverOpened key' history) : Indistinguishable key key' history := by
  intro session quiet quiet'
  rw [← afterReset_passChk] at first second
  have keys : (afterReset key history).pass = key ∧ (afterReset key' history).pass = key' :=
    ⟨runFrom_pass key _ history, runFrom_pass key' _ history⟩
  have same : afterReset key' history = withKey key' (afterReset key history) := by
    have left : afterReset key history =
        { passChk := (afterReset key history).passChk
          pass := (afterReset key history).pass } := rfl
    have right : afterReset key' history =
        { passChk := (afterReset key' history).passChk
          pass := (afterReset key' history).pass } := rfl
    rw [left, right, first, second, keys.1, keys.2]
    rfl
  rw [same] at quiet' ⊢
  exact (collect_withKey key' key (afterReset key history) session quiet quiet').symm

end Lock

/-- The lock holds after a reset exactly if no session before the reset opened it. -/
theorem lock_iff_never_opened (key key' : BitVec 32) (history : List Event) :
    (StaysLocked key history ∧ StaysLocked key' history ∧
        Indistinguishable key key' history) ↔
      NeverOpened key history ∧ NeverOpened key' history := by
  constructor
  · intro holds
    exact ⟨(staysLocked_iff key history).mp holds.1, (staysLocked_iff key' history).mp holds.2.1⟩
  · intro closed
    exact ⟨(staysLocked_iff key history).mpr closed.1, (staysLocked_iff key' history).mpr closed.2,
      indistinguishable_of_closed key history key' closed.1 closed.2⟩

/-- An unlock with the key `0xDEADC0DE`. -/
def unlockSession : List Event :=
  edges (selectDmi ++ scanDr (0#7 ++ 0xDEADC0DE#32 ++ dtmPass) ++ [{ tms := false }])

/-- An unlock before the reset survives it. -/
theorem lock_survives_reset :
    ¬ ∀ (key : BitVec 32) (history : List Event), StaysLocked key history := by
  intro always
  have opened : (testReset ((machine 0xDEADC0DE).run unlockSession)).passChk = true := by
    decide +kernel
  obtain ⟨quiet, reads⟩ := readSession_reads 0xDEADC0DE _ opened
  have silent := always 0xDEADC0DE unlockSession readSession quiet
  rw [afterReset] at silent
  rw [silent] at reads
  exact absurd reads (by decide)

end Ariane.DmiJtag
