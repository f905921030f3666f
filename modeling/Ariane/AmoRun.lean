import Ariane.AmoAccess
import Ariane.AmoMemory

set_option autoImplicit false

/- Every atomic operation that starts is acknowledged once, where the slave answers, and a store
conditional succeeds for the last reservation only. -/
namespace Ariane.MissBus

open AmoBuffer (AmoT)
open AxiAdapter (Memory byteAt wordOf)
open MissHandler (Geometry Address Align Victim State AmoReq noStore operates cacheManagement)
open Rtl (Machine)

variable {g : Geometry}

section Runs

variable (victim : Victim g) (align : Align) (mem : Memory) (inputs : Nat → SystemInput g)

/-- The system before cycle `t`. -/
def systemAt (t : Nat) : System g :=
  (system victim align mem).stateAt (system victim align mem).reset inputs t

/-- An operation is acknowledged in cycle `t`. -/
def acks (t : Nat) : Bool :=
  ((systemAt victim align mem inputs t).output victim align (inputs t)).amoAck

/-- What the adapter sees in cycle `t`. -/
def busInputs (t : Nat) : AxiAdapter.Input (port g) :=
  seen victim align (systemAt victim align mem inputs t) (inputs t)

/-- The operation of cycle `t + 1` runs up to cycle `v`. -/
structure Going (t v : Nat) : Prop where
  later : t < v
  before : ∀ w, t < w → w < v → operates (systemAt victim align mem inputs w).handler.state = true ∧
    acks victim align mem inputs w = false
  now : operates (systemAt victim align mem inputs v).handler.state = true
  same : (inputs v).amo = (inputs (t + 1)).amo

variable {victim align mem inputs}

theorem inv_run (fits : Fits g)
    (environment : ∀ t, Environment victim align (systemAt victim align mem inputs t) (inputs t))
    (t : Nat) : Inv align (systemAt victim align mem inputs t) := by
  induction t with
  | zero =>
      refine ⟨.idle ⟨rfl, rfl⟩, ?_, ?_, fun _ => rfl, .behind rfl ?_, rfl⟩
      · intro a none
        cases none
      · intro r none
        cases none
      · intro r member
        cases member
  | succ t ih => exact ih.step fits (environment t)

/-- The adapter runs on its own. -/
theorem bus_run (t : Nat) : (systemAt victim align mem inputs t).bus =
    AxiAdapter.states (busInputs victim align mem inputs) t := by
  induction t with
  | zero => rfl
  | succ t ih =>
      show ((systemAt victim align mem inputs t).next victim align (inputs t)).bus = _
      rw [next_bus, ih]
      rfl

theorem outputAt_eq (t : Nat) : AxiAdapter.outputAt (busInputs victim align mem inputs) t =
    (systemAt victim align mem inputs t).adapter victim align (inputs t) := by
  rw [AxiAdapter.outputAt, ← bus_run]
  exact output_seen

section Cycle

variable {s : System g} {i : SystemInput g}

/-- While the response of a write is awaited, nothing is granted. -/
theorem waitBValid_step (waits : s.bus.regs.state = .waitBValid) :
    (s.adapter victim align i).gnt = false ∧ (s.next victim align i).bus.regs.state =
      if (s.adapter victim align i).valid then .idle else .waitBValid := by
  have next : (s.next victim align i).bus.regs = (s.adapter victim align i).regs := rfl
  have fsm : s.adapter victim align i =
      AxiAdapter.axiFsm s.bus.regs (s.busInput victim align i) := rfl
  rw [next, fsm, AxiAdapter.axiFsm, waits]
  dsimp only
  split
  · exact ⟨rfl, rfl⟩
  · exact ⟨rfl, waits⟩

/-- The load is asked for until it is granted. -/
theorem amoLoad_next (state : s.handler.state = .amoLoad) : (s.next victim align i).handler =
    if (s.adapter victim align i).gnt then { s.handler with state := .amoSaveLoad }
    else s.handler :=
  (@amoLoad_step _ victim align s.handler (s.answered victim align i) state).1.next

theorem amoSaveLoad_next (state : s.handler.state = .amoSaveLoad) :
    (s.output victim align i).amoAck = false ∧
      (s.next victim align i).handler.state =
        if (s.adapter victim align i).valid then .amoStore else .amoSaveLoad := by
  obtain ⟨-, ack, next⟩ :=
    @amoSaveLoad_step _ victim align s.handler (s.answered victim align i) state
  refine ⟨ack, (congrArg State.state next).trans ?_⟩
  show State.state (if (s.adapter victim align i).valid = true then _ else s.handler) = _
  split
  · rfl
  · exact state

/-- A store is acknowledged with its response. -/
theorem amoStore_next (state : s.handler.state = .amoStore)
    (store : noStore s.handler.reservation i.amo = false) :
    (s.output victim align i).amoAck = (s.adapter victim align i).valid ∧
      ((s.adapter victim align i).valid = false → (s.next victim align i).handler = s.handler) := by
  obtain ⟨ack, next⟩ := @store_output _ victim align s i state
    (fun skip => absurd (skip.symm.trans store) Bool.noConfusion)
  rw [store, Bool.false_or] at ack next
  refine ⟨ack, fun none => ?_⟩
  rw [none, if_neg Bool.false_ne_true] at next
  exact next

end Cycle

section Progress

variable (fits : Fits g)
  (environment : ∀ t, Environment victim align (systemAt victim align mem inputs t) (inputs t))

include environment

/-- An operation that is not acknowledged goes on. -/
theorem Going.next {t v : Nat} (going : Going victim align mem inputs t v)
    (none : acks victim align mem inputs v = false)
    (now : operates (systemAt victim align mem inputs (v + 1)).handler.state = true) :
    Going victim align mem inputs t (v + 1) := by
  have later := going.later
  refine ⟨by omega, ?_, now, ?_⟩
  · intro w after below
    by_cases last : w = v
    · rw [last]
      exact ⟨going.now, none⟩
    · exact going.before w after (by omega)
  · have running : (systemAt victim align mem inputs (v + 1)).running = some (inputs v).amo :=
      running_next going.now none
    rw [(environment (v + 1)).held _ running, going.same]

include fits

theorem legal_run : AxiAdapter.Legal (busInputs victim align mem inputs) := by
  intro t
  rw [← bus_run]
  exact (inv_run fits environment t).contract fits (environment t)

theorem bus_at (t : Nat) :
    BusStep victim align (systemAt victim align mem inputs t) (inputs t) :=
  (inv_run fits environment t).bus fits (environment t)

variable (answers : AxiAdapter.Answers (busInputs victim align mem inputs))

include answers

/-- The adapter responds to what it was asked or granted. -/
theorem responds_at {t : Nat}
    (busy : (asked align (systemAt victim align mem inputs t).handler (inputs t).amo).valid = true ∨
      (systemAt victim align mem inputs t).bus.log.granted ≠ []) :
    ∃ u, t ≤ u ∧
      ((systemAt victim align mem inputs u).adapter victim align (inputs u)).valid = true := by
  have busy' : (busInputs victim align mem inputs t).req = true ∨
      (AxiAdapter.states (busInputs victim align mem inputs) t).log.granted ≠ [] := by
    rw [← bus_run]
    rcases busy with asks | granted
    · by_cases waits : (systemAt victim align mem inputs t).bus.regs.state = .waitBValid
      · right
        cases (inv_run fits environment t).phase with
        | idle idle =>
            rw [idle.state] at waits
            cases waits
        | write r sent k write =>
            rw [write.log.granted, if_pos (write.sending.waits_iff.mp waits)]
            exact List.cons_ne_nil _ _
        | read r read =>
            rw [read.log.granted]
            exact List.cons_ne_nil _ _
        | complete r done =>
            rw [done.log.granted]
            exact List.cons_ne_nil _ _
      · left
        show ((systemAt victim align mem inputs t).axi victim align (inputs t)).valid &&
          (systemAt victim align mem inputs t).bus.regs.state != .waitBValid
        rw [axi_eq, asks, Bool.true_and]
        exact bne_iff_ne.mpr waits
    · exact .inr granted
  obtain ⟨u, later, valid⟩ := AxiAdapter.responds fits.burst
    (legal_run fits environment) answers busy'
  rw [outputAt_eq] at valid
  exact ⟨u, later, valid⟩

/-- The load of an operation is granted. -/
theorem load_granted {t : Nat}
    (state : (systemAt victim align mem inputs t).handler.state = .amoLoad) :
    ∃ u, t ≤ u ∧
      ((systemAt victim align mem inputs u).adapter victim align (inputs u)).gnt = true := by
  have legal := legal_run fits environment
  have asks (v : Nat) (here : (systemAt victim align mem inputs v).handler.state = .amoLoad) :
      (asked align (systemAt victim align mem inputs v).handler (inputs v).amo).valid = true := by
    rw [asked, here]
    rfl
  have looked (v : Nat) (here : (systemAt victim align mem inputs v).handler.state = .amoLoad)
      (free : (systemAt victim align mem inputs v).bus.regs.state ≠ .waitBValid) :
      ∃ u, v ≤ u ∧
        ((systemAt victim align mem inputs u).adapter victim align (inputs u)).gnt = true := by
    have req : (busInputs victim align mem inputs v).req = true := by
      show ((systemAt victim align mem inputs v).axi victim align (inputs v)).valid &&
        (systemAt victim align mem inputs v).bus.regs.state != .waitBValid
      rw [axi_eq, asks v here, Bool.true_and]
      exact bne_iff_ne.mpr free
    obtain ⟨u, later, gnt, -⟩ := AxiAdapter.granted fits.burst legal answers req
    rw [outputAt_eq] at gnt
    exact ⟨u, later, gnt⟩
  by_cases waits : (systemAt victim align mem inputs t).bus.regs.state = .waitBValid
  · -- a line that was written back comes first
    obtain ⟨u, later, valid⟩ := responds_at fits environment answers (.inl (asks t state))
    have step (v : Nat) (here : (systemAt victim align mem inputs v).handler.state = .amoLoad)
        (still : (systemAt victim align mem inputs v).bus.regs.state = .waitBValid) :
        (systemAt victim align mem inputs (v + 1)).handler.state = .amoLoad ∧
          (systemAt victim align mem inputs (v + 1)).bus.regs.state =
            if ((systemAt victim align mem inputs v).adapter victim align (inputs v)).valid then
              .idle else .waitBValid := by
      obtain ⟨gnt, regs⟩ := @waitBValid_step _ victim align _ (inputs v) still
      have kept := @amoLoad_next _ victim align _ (inputs v) here
      rw [gnt, if_neg Bool.false_ne_true] at kept
      exact ⟨(congrArg State.state kept).trans here, regs⟩
    obtain ⟨v, after, ⟨here, still⟩, ends⟩ := @Machine.wait_until
      (fun v => ((systemAt victim align mem inputs v).adapter victim align (inputs v)).valid = true)
      (fun v => (systemAt victim align mem inputs v).handler.state = .amoLoad ∧
        (systemAt victim align mem inputs v).bus.regs.state = .waitBValid) t u
      ⟨state, waits⟩ later valid (by
        rintro v - ⟨here, still⟩ none
        have next := step v here still
        rw [if_neg none] at next
        exact next)
    have next := step v here still
    rw [if_pos ends] at next
    obtain ⟨w, last, gnt⟩ := looked (v + 1) next.1 (by rw [next.2]; exact AxiAdapter.State.noConfusion)
    exact ⟨w, by omega, gnt⟩
  · exact looked t state waits

/-- The load of an operation is answered. -/
theorem Going.loaded {t : Nat}
    (starts : (systemAt victim align mem inputs (t + 1)).handler.state = .amoLoad) :
    ∃ v, Going victim align mem inputs t v ∧
      (systemAt victim align mem inputs v).handler.state = .amoSaveLoad := by
  obtain ⟨u, later, gnt⟩ := load_granted fits environment answers starts
  have first : Going victim align mem inputs t (t + 1) :=
    ⟨by omega, fun w after below => absurd after (by omega), by rw [starts]; rfl, rfl⟩
  have ack (v : Nat) (here : (systemAt victim align mem inputs v).handler.state = .amoLoad) :
      acks victim align mem inputs v = false :=
    (@amoLoad_step _ victim align _ ((systemAt victim align mem inputs v).answered victim align
      (inputs v)) here).1.amoAck
  obtain ⟨v, -, ⟨here, going⟩, granted⟩ := @Machine.wait_until
    (fun v => ((systemAt victim align mem inputs v).adapter victim align (inputs v)).gnt = true)
    (fun v => (systemAt victim align mem inputs v).handler.state = .amoLoad ∧
      Going victim align mem inputs t v) (t + 1) u ⟨starts, first⟩ later gnt (by
      rintro v - ⟨here, going⟩ none
      have next := @amoLoad_next _ victim align _ (inputs v) here
      rw [if_neg none] at next
      have state : (systemAt victim align mem inputs (v + 1)).handler.state = .amoLoad :=
        (congrArg State.state next).trans here
      exact ⟨state, going.next environment (ack v here) (by rw [state]; rfl)⟩)
  have next := @amoLoad_next _ victim align _ (inputs v) here
  rw [if_pos granted] at next
  have state : (systemAt victim align mem inputs (v + 1)).handler.state = .amoSaveLoad :=
    congrArg State.state next
  exact ⟨v + 1, going.next environment (ack v here) (by rw [state]; rfl), state⟩

theorem Going.stores {t v : Nat} (going : Going victim align mem inputs t v)
    (state : (systemAt victim align mem inputs v).handler.state = .amoSaveLoad) :
    ∃ w, Going victim align mem inputs t w ∧
      (systemAt victim align mem inputs w).handler.state = .amoStore := by
  have granted : (systemAt victim align mem inputs v).bus.log.granted ≠ [] := by
    cases (inv_run fits environment v).stage with
    | load a here running granted =>
        rw [granted]
        exact List.cons_ne_nil _ _
    | behind here granted | refill here granted | store a here running loaded granted =>
        rw [state] at here
        cases here
  obtain ⟨u, later, valid⟩ := responds_at fits environment answers (.inr granted)
  obtain ⟨w, -, ⟨here, still⟩, answered⟩ := @Machine.wait_until
    (fun w => ((systemAt victim align mem inputs w).adapter victim align (inputs w)).valid = true)
    (fun w => (systemAt victim align mem inputs w).handler.state = .amoSaveLoad ∧
      Going victim align mem inputs t w) v u ⟨state, going⟩ later valid (by
      rintro w - ⟨here, still⟩ none
      obtain ⟨ack, next⟩ := @amoSaveLoad_next _ victim align _ (inputs w) here
      rw [if_neg none] at next
      have next : (systemAt victim align mem inputs (w + 1)).handler.state = .amoSaveLoad := next
      exact ⟨next, still.next environment ack (by rw [next]; rfl)⟩)
  obtain ⟨ack, next⟩ := @amoSaveLoad_next _ victim align _ (inputs w) here
  rw [if_pos answered] at next
  have next : (systemAt victim align mem inputs (w + 1)).handler.state = .amoStore := next
  exact ⟨w + 1, still.next environment ack (by rw [next]; rfl), next⟩

/-- The store of an operation ends. -/
theorem Going.ends {t v : Nat} (going : Going victim align mem inputs t v)
    (state : (systemAt victim align mem inputs v).handler.state = .amoStore) :
    ∃ w, Going victim align mem inputs t w ∧ acks victim align mem inputs w = true := by
  cases store : noStore (systemAt victim align mem inputs v).handler.reservation (inputs v).amo with
  | true =>
      refine ⟨v, going, ?_⟩
      cases (inv_run fits environment v).stage with
      | store a here running loaded granted =>
          have own := (environment v).held a running
          subst own
          have silent := ((bus_at fits environment v).store_answers granted).1
          have ack := (store_output state (fun skip => (silent skip).2)).1
          rw [store, Bool.true_or] at ack
          exact ack
      | behind here granted | refill here granted | load a here running granted =>
          rw [state] at here
          cases here
  | false =>
      have asks : (asked align (systemAt victim align mem inputs v).handler (inputs v).amo).valid =
          true := by
        rw [asked, state]
        show (!noStore (systemAt victim align mem inputs v).handler.reservation (inputs v).amo) = true
        rw [store]
        rfl
      obtain ⟨u, later, valid⟩ := responds_at fits environment answers (.inl asks)
      obtain ⟨w, -, ⟨here, still, last⟩, answered⟩ := @Machine.wait_until
        (fun w => ((systemAt victim align mem inputs w).adapter victim align (inputs w)).valid =
          true)
        (fun w => (systemAt victim align mem inputs w).handler.state = .amoStore ∧
          Going victim align mem inputs t w ∧
          noStore (systemAt victim align mem inputs w).handler.reservation (inputs w).amo = false)
        v u ⟨state, going, store⟩ later valid (by
          rintro w - ⟨here, still, last⟩ none
          obtain ⟨ack, kept⟩ := @amoStore_next _ victim align _ (inputs w) here last
          have quiet := Bool.eq_false_iff.mpr none
          have next : (systemAt victim align mem inputs (w + 1)).handler =
              (systemAt victim align mem inputs w).handler := kept quiet
          have after := still.next environment (ack.trans quiet) (by rw [next, here]; rfl)
          refine ⟨by rw [next, here], after, ?_⟩
          rw [next, after.same, ← still.same]
          exact last)
      exact ⟨w, still, (amoStore_next here last).1.trans answered⟩

end Progress

end Runs

/-- Every cycle follows the law, and every operation that starts has its one acknowledgement, where
the slave answers. -/
theorem operations_done {victim : Victim g} {align : Align} {mem : Memory}
    {inputs : Nat → SystemInput g} (fits : Fits g) (lawful : Amo.Lawful align)
    (environment : ∀ t, Environment victim align (systemAt victim align mem inputs t) (inputs t)) :
    (∀ t, Law victim align (systemAt victim align mem inputs t) (inputs t)) ∧
      (AxiAdapter.Answers (busInputs victim align mem inputs) → ∀ t,
        (systemAt victim align mem inputs (t + 1)).handler.state = .amoLoad →
        ∃ u, acks victim align mem inputs u = true ∧ Going victim align mem inputs t u) := by
  refine ⟨fun t => (inv_run fits environment t).law lawful fits (environment t), ?_⟩
  intro answers t starts
  obtain ⟨v, going, state⟩ := Going.loaded fits environment answers starts
  obtain ⟨w, still, store⟩ := going.stores fits environment answers state
  obtain ⟨u, last, ack⟩ := still.ends fits environment answers store
  exact ⟨u, ack, last⟩


section Examples

open MissHandler (small firstOfTwo)

/-- The functions of the package. -/
def lanes : Align where
  dataAlign off word := word.rotateLeft (8 * off.toNat)
  beGen off size := Rtl.ofBits 8 fun k => decide (off.toNat ≤ k ∧ k < off.toNat + 2 ^ size.toNat)
  sext32 word := word.signExtend 64

theorem lanes_lawful : Amo.Lawful lanes := by
  refine ⟨fun _ _ => rfl, ?_, fun _ => rfl⟩
  intro off size _ k inside
  rw [lanes, Rtl.getLsbD_ofBits, decide_eq_true inside, Bool.true_and]

theorem small_fits : Fits small := ⟨by decide, by decide, by decide⟩

/-- An operation on the first or the second doubleword. -/
def operation (op : AmoT) (word : BitVec 1) (operandB : BitVec 64) : AmoReq small where
  req := true
  op := op
  operandA := { word := word }
  operandB := operandB
  size := 3

/-- Two reservations, and a store conditional for the first one. -/
def reserveTwice (t : Nat) : SystemInput small where
  amo :=
    if t < 12 then operation .lr 0 0 else if t < 22 then operation .lr 1 0 else operation .sc 0 5
  lfsr := Fin.last 1
  awReady := true
  wReady := true
  arReady := true
  rValid := decide (t = 9 ∨ t = 19 ∨ t = 29)
  rLast := true
  rId := 0xC

/-- An operation that runs is the one of the last cycle. -/
theorem running_amo {victim : Victim g} {align : Align} {mem : Memory}
    {inputs : Nat → SystemInput g} {t : Nat} {a : AmoReq g}
    (running : (systemAt victim align mem inputs (t + 1)).running = some a) :
    operates (systemAt victim align mem inputs t).handler.state = true ∧ (inputs t).amo = a ∧
      acks victim align mem inputs t = false := by
  have running : (if (operates (systemAt victim align mem inputs t).handler.state &&
      !(acks victim align mem inputs t)) = true then some (inputs t).amo else none) = some a :=
    running
  split at running
  · next runs =>
      rw [Bool.and_eq_true, Bool.not_eq_true'] at runs
      cases running
      exact ⟨runs.1, rfl, runs.2⟩
  · cases running

theorem reserveTwice_environment (t : Nat) : Environment firstOfTwo lanes
    (systemAt firstOfTwo lanes (fun _ => 0) reserveTwice t) (reserveTwice t) := by
  constructor
  · refine ⟨Bool.noConfusion, fun answer => ?_⟩
    have cycle : t = 9 ∨ t = 19 ∨ t = 29 := of_decide_eq_true answer
    rcases cycle with rfl | rfl | rfl
    · exact ⟨⟨0xC, 0, 0, 3, .fixed⟩, by decide, by decide +kernel, by decide +kernel, rfl⟩
    · exact ⟨⟨0xC, 8, 0, 3, .fixed⟩, by decide, by decide +kernel, by decide +kernel, rfl⟩
    · exact ⟨⟨0xC, 0, 0, 3, .fixed⟩, by decide, by decide +kernel, by decide +kernel, rfl⟩
  · intro a running
    cases t with
    | zero => cases running
    | succ t =>
        obtain ⟨runs, same, none⟩ := running_amo running
        rw [← same]
        by_cases first : t = 11
        · subst first
          exact absurd none (by decide)
        · by_cases second : t = 21
          · subst second
            exact absurd none (by decide)
          · have early : t + 1 < 12 ↔ t < 12 := by omega
            have late : t + 1 < 22 ↔ t < 22 := by omega
            simp only [reserveTwice, early, late]

/-- A reservation of the doubleword came before, with no store conditional in between. -/
def ReservedBefore (done : List (AmoReq g)) (a : Address g) : Prop :=
  ∃ before lr after, done = before ++ lr :: after ∧ lr.op = .lr ∧
    wordOf (bits lr.operandA) = wordOf (bits a) ∧ ∀ x ∈ after, x.op ≠ .sc

/-- The store conditional fails: the second reservation took the place of the first one. -/
theorem reservation_replaced :
    ¬∀ inputs : Nat → SystemInput small,
      (∀ t, Environment firstOfTwo lanes (systemAt firstOfTwo lanes (fun _ => 0) inputs t)
        (inputs t)) →
      ∀ t, acks firstOfTwo lanes (fun _ => 0) inputs t = true → (inputs t).amo.op = .sc →
        (((systemAt firstOfTwo lanes (fun _ => 0) inputs t).output firstOfTwo lanes
            (inputs t)).amoResult = 0 ↔
          ReservedBefore (systemAt firstOfTwo lanes (fun _ => 0) inputs t).done
            (inputs t).amo.operandA) := by
  intro claim
  have fails := (claim reserveTwice reserveTwice_environment 31 (by decide) rfl).mpr
  have done : (systemAt firstOfTwo lanes (fun _ => 0) reserveTwice 31).done =
      [operation .lr 0 0, operation .lr 1 0] := by decide
  rw [done] at fails
  refine absurd (fails ⟨[], _, _, rfl, rfl, rfl, ?_⟩) (by decide)
  intro x member
  rw [List.mem_singleton] at member
  rw [member]
  exact AmoT.noConfusion

/-- An addition to a doubleword. -/
def addOnce (t : Nat) : SystemInput small where
  amo := if t < 13 then operation .add 0 5 else {}
  lfsr := Fin.last 1
  awReady := true
  wReady := true
  arReady := true
  rValid := decide (t = 9)
  rLast := true
  rId := 0xC
  bValid := decide (t = 12)
  bId := 0xC

/-- The memory of the addition. -/
def three : Memory := fun _ => 3

theorem addOnce_environment (t : Nat) : Environment firstOfTwo lanes
    (systemAt firstOfTwo lanes three addOnce t) (addOnce t) := by
  constructor
  · constructor
    · intro answer
      have cycle : t = 12 := of_decide_eq_true answer
      subst cycle
      exact ⟨⟨0xC, 0, 0, 3, .fixed⟩, by decide, rfl⟩
    · intro answer
      have cycle : t = 9 := of_decide_eq_true answer
      subst cycle
      exact ⟨⟨0xC, 0, 0, 3, .fixed⟩, by decide, by decide +kernel, by decide +kernel, rfl⟩
  · intro a running
    cases t with
    | zero => cases running
    | succ t =>
        obtain ⟨runs, same, none⟩ := running_amo running
        rw [← same]
        by_cases last : t = 12
        · subst last
          exact absurd none (by decide)
        · have early : t + 1 < 13 ↔ t < 13 := by omega
          simp only [addOnce, early]

/-- Without requests the handler and its adapter rest. -/
theorem rest_step {victim : Victim g} {align : Align} {s : System g} {i : SystemInput g}
    (state : s.handler.state = .idle) (bus : s.bus.regs.state = .idle) (amo : i.amo = {})
    (flush : i.flush = false) (miss : i.missReq = []) :
    (s.next victim align i).handler.state = .idle ∧
      (s.next victim align i).bus.regs.state = .idle ∧
      (s.adapter victim align i).bReady = false ∧ (s.adapter victim align i).arValid = false ∧
      (s.adapter victim align i).rReady = false := by
  constructor
  · show (s.output victim align i).next.state = .idle
    have own : (s.answered victim align i).amo = {} ∧ (s.answered victim align i).flush = false ∧
        (s.answered victim align i).missReq = [] := ⟨amo, flush, miss⟩
    rw [System.output, cacheManagement, state]
    dsimp only
    rw [MissHandler.idleState, own.1, own.2.1, own.2.2]
    exact state
  · have req : (s.busInput victim align i).req = false := by
      show (s.axi victim align i).valid = false
      rw [axi_eq, asked_none _ (.inl (by rw [state]; rfl))]
    have fsm : s.adapter victim align i =
        AxiAdapter.axiFsm s.bus.regs (s.busInput victim align i) := rfl
    have next : (s.next victim align i).bus.regs = (s.adapter victim align i).regs := rfl
    rw [next, fsm, AxiAdapter.axiFsm, bus]
    dsimp only
    rw [req, if_neg Bool.false_ne_true]
    exact ⟨rfl, rfl, rfl, rfl⟩

theorem addOnce_rests (d : Nat) :
    (systemAt firstOfTwo lanes three addOnce (13 + d)).handler.state = .idle ∧
      (systemAt firstOfTwo lanes three addOnce (13 + d)).bus.regs.state = .idle := by
  induction d with
  | zero => decide
  | succ d ih =>
      have late : ¬13 + d < 13 := by omega
      have rest := @rest_step _ firstOfTwo lanes _ (addOnce (13 + d)) ih.1 ih.2 (if_neg late) rfl rfl
      exact ⟨rest.1, rest.2.1⟩

/-- The addition waits for its load in cycle 9 and for its store in cycle 12. -/
theorem addOnce_waits (t : Nat) :
    (((systemAt firstOfTwo lanes three addOnce t).adapter firstOfTwo lanes (addOnce t)).bReady =
        true → t = 12) ∧
      (((systemAt firstOfTwo lanes three addOnce t).adapter firstOfTwo lanes (addOnce t)).rReady =
        true → t = 9) := by
  by_cases early : t < 13
  · have all : ∀ t : Fin 13,
        (((systemAt firstOfTwo lanes three addOnce t).adapter firstOfTwo lanes (addOnce t)).bReady =
          true → t.val = 12) ∧
        (((systemAt firstOfTwo lanes three addOnce t).adapter firstOfTwo lanes (addOnce t)).rReady =
          true → t.val = 9) := by decide
    exact all ⟨t, early⟩
  · obtain ⟨d, rfl⟩ := Nat.exists_eq_add_of_le (show 13 ≤ t by omega)
    obtain ⟨state, bus⟩ := addOnce_rests d
    obtain ⟨-, -, b, -, r⟩ :=
      @rest_step _ firstOfTwo lanes _ (addOnce (13 + d)) state bus (if_neg early) rfl rfl
    exact ⟨fun waits => absurd (b.symm.trans waits) Bool.false_ne_true,
      fun waits => absurd (r.symm.trans waits) Bool.false_ne_true⟩

theorem addOnce_answers : AxiAdapter.Answers (busInputs firstOfTwo lanes three addOnce) := by
  refine ⟨fun t _ => ⟨t, Nat.le_refl t, rfl⟩, fun t _ => ⟨t, Nat.le_refl t, rfl⟩, ?_,
    fun t _ => ⟨t, Nat.le_refl t, rfl⟩, ?_⟩
  · intro t waits
    rw [outputAt_eq] at waits
    rw [(addOnce_waits t).1 waits]
    exact ⟨12, Nat.le_refl 12, rfl⟩
  · intro t waits
    rw [outputAt_eq] at waits
    rw [(addOnce_waits t).2 waits]
    exact ⟨9, Nat.le_refl 9, rfl⟩

/-- The addition is done: 3 becomes 8. -/
theorem operations_done_add :
    Law firstOfTwo lanes (systemAt firstOfTwo lanes three addOnce 12) (addOnce 12) ∧
      (∃ u, acks firstOfTwo lanes three addOnce u = true ∧
        Going firstOfTwo lanes three addOnce 7 u) ∧
      (systemAt firstOfTwo lanes three addOnce 13).mem 0 = 8 := by
  obtain ⟨law, ends⟩ := operations_done small_fits lanes_lawful addOnce_environment
  exact ⟨law 12, ends addOnce_answers 7 (by decide), by decide +kernel⟩

end Examples

end Ariane.MissBus
