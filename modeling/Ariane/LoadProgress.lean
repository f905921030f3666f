import Ariane.LoadAnswers
import Ariane.Rtl.Stream

set_option autoImplicit false

/- Every load is answered some time, where the neighbours of the load unit serve what it asks for. -/
namespace Ariane.LoadUnit

open Rtl (Machine)

section Runs

variable (inputs : Nat → SystemInput)

/-- The load unit in cycle `t`. -/
def states (t : Nat) : System := system.stateAt system.reset inputs t

/-- The outputs of the load unit in cycle `t`. -/
def controls (t : Nat) : Control := (states inputs t).control (inputs t)

/-- The load is answered in cycle `t`. -/
def AnsweredAt (t : Nat) (l : Load) : Prop :=
  (states inputs t).answers (inputs t) = true ∧ (states inputs t).answered (inputs t) = some l

/-- The contracts of the neighbours hold in every cycle. -/
structure Orderly : Prop where
  ports : ∀ t, Ports (states inputs t) (inputs t)
  calm : ∀ t, Undisturbed (states inputs t) (inputs t)

/-- The neighbours serve what the load unit asks for: the data cache grants a request that stays and
answers one that is not killed, a translation that stays ends in a hit or an exception, a hit stays with
its load, and the store buffer drains. -/
structure Serves : Prop where
  grants : ∀ t, (controls inputs t).dataReq = true →
    ∃ u, t ≤ u ∧ ((inputs u).dataGnt = true ∨ (controls inputs u).dataReq = false)
  responds : ∀ t, (states inputs t).requested ≠ none →
    ∃ u, t ≤ u ∧ ((inputs u).dataRvalid = true ∨ (controls inputs u).killReq = true)
  translates : ∀ t, (controls inputs t).translationReq = true →
    ∃ u, t ≤ u ∧ ((inputs u).dtlbHit = true ∨ (inputs u).ex.valid = true ∨
      (controls inputs u).translationReq = false)
  hits : ∀ t, (controls inputs t).translationReq = true → (inputs t).dtlbHit = true →
    (controls inputs (t + 1)).translationReq = true →
      (states inputs (t + 1)).head (inputs (t + 1)) = (states inputs t).head (inputs t) →
        (inputs (t + 1)).dtlbHit = true
  drains : ∀ t, ∃ u, t ≤ u ∧ (inputs u).pageOffsetMatches = false

/-- The oldest load without an answer. -/
def Oldest (t : Nat) (h : Load) : Prop := (states inputs t).unanswered.head? = some h

/-- At most `n` older loads are without an answer. -/
def Behind (n t : Nat) (l : Load) : Prop :=
  ∃ before after, (states inputs t).unanswered = before ++ l :: after ∧ before.length ≤ n

/-- The oldest load without an answer has been requested. -/
structure InFlight (t : Nat) (h : Load) : Prop where
  oldest : Oldest inputs t h
  flight : (states inputs t).inFlight = [h]

/-- The oldest load without an answer is the one at the load unit. -/
structure AtUnit (t : Nat) (h : Load) : Prop where
  oldest : Oldest inputs t h
  empty : (states inputs t).inFlight = []

end Runs

variable {inputs : Nat → SystemInput}

theorem inv_states {t : Nat}
    (legal : ∀ u, u < t →
      Ports (states inputs u) (inputs u) ∧ Undisturbed (states inputs u) (inputs u)) :
    Inv (states inputs t) := by
  induction t with
  | zero => exact inv_reset
  | succ t ih =>
      obtain ⟨ports, calm⟩ := legal t (Nat.lt_succ_self t)
      exact (ih fun u before => legal u (Nat.lt_succ_of_lt before)).step ports calm

theorem Orderly.inv (orderly : Orderly inputs) (t : Nat) : Inv (states inputs t) :=
  inv_states fun u _ => ⟨orderly.ports u, orderly.calm u⟩

section Waiting

variable {t : Nat} {h l : Load}

theorem state_succ : (states inputs (t + 1)).unit.state = (controls inputs t).state := rfl

/-- Without a flush, the next state is the one of the `case`, or idle. -/
theorem loadControl_state {q : State} {i : Input} (noFlush : i.flush = false) :
    (loadControl q i).state = .idle ∨ (loadControl q i).state = (stateControl q i).state := by
  rw [loadControl, noFlush, if_neg Bool.false_ne_true, exception]
  split
  · exact .inl rfl
  · exact .inr rfl

theorem unanswered_succ (noFlush : (inputs t).flush = false) :
    (states inputs (t + 1)).unanswered =
      (states inputs t).remaining (inputs t) ++ (states inputs t).presented (inputs t) :=
  unanswered_next noFlush

/-- What is answered in a cycle is taken from the loads that wait. -/
theorem remaining_cases (s : System) (i : SystemInput) :
    s.remaining i = s.unanswered ∨
      ∃ l, s.answers i = true ∧ s.answered i = some l ∧ s.remaining i = s.unanswered.erase l := by
  rw [System.remaining]
  cases whose : s.answered i with
  | none => exact .inl rfl
  | some l =>
      cases answers : s.answers i with
      | false => exact .inl rfl
      | true => exact .inr ⟨l, rfl, rfl, rfl⟩

theorem Oldest.succ (oldest : Oldest inputs t h) (noFlush : (inputs t).flush = false)
    (waits : ¬ AnsweredAt inputs t h) : Oldest inputs (t + 1) h := by
  obtain ⟨rest, list⟩ : ∃ rest, (states inputs t).unanswered = h :: rest :=
    List.head?_eq_some_iff.mp oldest
  rw [Oldest, unanswered_succ noFlush]
  rcases remaining_cases (states inputs t) (inputs t) with all | ⟨l, answers, whose, all⟩
  · rw [all, list]
    rfl
  · have other : ¬ (h == l) = true := by
      intro same
      rw [← eq_of_beq same] at whose
      exact waits ⟨answers, whose⟩
    rw [all, list, List.erase_cons_tail other]
    rfl

/-- A load that is not answered waits behind at most as many others as before. -/
theorem Behind.succ {n : Nat} (behind : Behind inputs n t l) (noFlush : (inputs t).flush = false)
    (waits : ¬ AnsweredAt inputs t l) : Behind inputs n (t + 1) l := by
  obtain ⟨before, after, list, few⟩ := behind
  rw [Behind, unanswered_succ noFlush]
  rcases remaining_cases (states inputs t) (inputs t) with all | ⟨x, answers, whose, all⟩
  · exact ⟨before, after ++ (states inputs t).presented (inputs t), by rw [all, list]; simp, few⟩
  · have other : ¬ (l == x) = true := by
      intro same
      rw [← eq_of_beq same] at whose
      exact waits ⟨answers, whose⟩
    by_cases older : x ∈ before
    · refine ⟨before.erase x, after ++ (states inputs t).presented (inputs t), ?_,
        Nat.le_trans (List.length_erase_le ..) few⟩
      rw [all, list, List.erase_append_left _ older, List.append_assoc, List.cons_append]
    · refine ⟨before, after.erase x ++ (states inputs t).presented (inputs t), ?_, few⟩
      rw [all, list, List.erase_append_right _ older, List.erase_cons_tail other, List.append_assoc,
        List.cons_append]

/-- The answer of the oldest load brings the loads behind it forward. -/
theorem Behind.forward {n : Nat} (behind : Behind inputs (n + 1) t l)
    (oldest : Oldest inputs t h) (apart : h ≠ l) (noFlush : (inputs t).flush = false)
    (answered : AnsweredAt inputs t h) : Behind inputs n (t + 1) l := by
  obtain ⟨before, after, list, few⟩ := behind
  rw [Oldest, list] at oldest
  cases before with
  | nil => exact absurd (Option.some.inj oldest).symm apart
  | cons first before =>
      have same : first = h := Option.some.inj oldest
      subst same
      refine ⟨before, after ++ (states inputs t).presented (inputs t), ?_, Nat.le_of_succ_le_succ few⟩
      have remaining : (states inputs t).remaining (inputs t) =
          (states inputs t).unanswered.erase first := by
        rw [System.remaining, answered.2, answered.1]
        rfl
      rw [unanswered_succ noFlush, remaining, list, List.cons_append, List.erase_cons_head,
        List.append_assoc, List.cons_append]

variable (orderly : Orderly inputs)

include orderly

/-- The oldest load has been requested, or is at the load unit. -/
theorem Oldest.places (oldest : Oldest inputs t h) : InFlight inputs t h ∨ AtUnit inputs t h := by
  have list := (orderly.inv t).held.unanswered
  cases flight : (states inputs t).inFlight with
  | nil => exact .inr ⟨oldest, flight⟩
  | cons r others =>
      have single : others = [] := by
        rw [System.inFlight] at flight
        split at flight
        · cases flight
        · cases requested : (states inputs t).requested with
          | none =>
              rw [requested] at flight
              cases flight
          | some r' =>
              rw [requested] at flight
              exact (List.cons.inj flight).2.symm
      have first := oldest
      rw [Oldest, list, flight] at first
      have same : r = h := Option.some.inj first
      exact .inl ⟨oldest, by rw [flight, single, same]⟩

theorem AtUnit.head (here : AtUnit inputs t h) :
    (states inputs t).head (inputs t) = some h ∧ ∃ rest, (states inputs t).queued = h :: rest := by
  have list := (orderly.inv t).held.unanswered
  have oldest := here.oldest
  rw [Oldest, list, here.empty, List.nil_append] at oldest
  obtain ⟨rest, queued⟩ : ∃ rest, (states inputs t).queued = h :: rest :=
    List.head?_eq_some_iff.mp oldest
  refine ⟨?_, rest, queued⟩
  rw [System.head, System.waiting, queued]
  rfl

theorem AtUnit.valid (here : AtUnit inputs t h) :
    ((states inputs t).unitInput (inputs t)).valid = true := by
  apply ((orderly.inv t).valid (orderly.ports t)).mpr
  intro none
  have head := (here.head orderly).1
  rw [System.head, none] at head
  cases head

theorem AtUnit.excepts (here : AtUnit inputs t h) (ex : (inputs t).ex.valid = true)
    (unflushed : (states inputs t).unit.state ≠ .waitFlush) : AnsweredAt inputs t h := by
  have noKill : ¬ (states inputs t).Kills := by
    rintro (tag | flushed)
    · have requested := ((orderly.inv t).translated tag).1
      have empty := here.empty
      rw [System.inFlight, if_neg (by rw [tag]; decide)] at empty
      exact requested (Option.toList_eq_nil_iff.mp empty)
    · exact unflushed flushed
  have head := (here.head orderly).1
  have quiet := (orderly.calm t).quiet ex noKill
  have asker := (orderly.calm t).asker ex noKill (by rw [head]; exact Option.some_ne_none h)
  constructor
  · exact (answers_exception ex).mpr (.inl ⟨quiet, here.valid orderly⟩)
  · rw [System.answered, ex, if_pos rfl, ← asker, head]

/-- The load unit goes on with the load that it has, as its state says. -/
theorem AtUnit.plain (here : AtUnit inputs t h) (noFlush : (inputs t).flush = false)
    (unflushed : (states inputs t).unit.state ≠ .waitFlush) (waits : ¬ AnsweredAt inputs t h) :
    (inputs t).ex.valid = false ∧ controls inputs t =
      stateControl (states inputs t).unit ((states inputs t).unitInput (inputs t)) := by
  have noEx : (inputs t).ex.valid = false :=
    Bool.eq_false_iff.mpr fun ex => waits (here.excepts orderly ex unflushed)
  exact ⟨noEx, loadControl_plain noFlush noEx⟩

end Waiting

section Requested

variable {t : Nat} {h : Load} (orderly : Orderly inputs)

theorem InFlight.requested (flight : InFlight inputs t h) :
    (states inputs t).requested = some h ∧ (states inputs t).unit.state ≠ .abortTransaction ∧
      (states inputs t).unit.state ≠ .waitFlush := by
  have one := flight.flight
  rw [System.inFlight] at one
  split at one
  · cases one
  · next neither =>
      obtain ⟨noAbort, notFlushed⟩ := not_or.mp neither
      refine ⟨?_, noAbort, notFlushed⟩
      cases requested : (states inputs t).requested with
      | none =>
          rw [requested] at one
          cases one
      | some r =>
          rw [requested] at one
          exact congrArg some (List.cons.inj one).1

include orderly

theorem InFlight.responds (flight : InFlight inputs t h)
    (response : (inputs t).dataRvalid = true ∨ (controls inputs t).killReq = true) :
    AnsweredAt inputs t h := by
  obtain ⟨requested, noAbort, notFlushed⟩ := flight.requested
  cases ex : (inputs t).ex.valid with
  | false =>
      have noKill : (controls inputs t).killReq = false := by
        have ex' : ((states inputs t).unitInput (inputs t)).ex.valid = false := ex
        show (loadControl _ _).killReq = false
        rw [loadControl_killReq, stateControl_killReq, ex', beq_false_of_ne noAbort,
          beq_false_of_ne notFlushed, Bool.and_false]
        rfl
      have rvalid := response.resolve_right fun kill => Bool.false_ne_true (noKill.symm.trans kill)
      obtain ⟨-, -, noTranslation, -⟩ :=
        (orderly.inv t).responds (orderly.ports t) ex rvalid noAbort notFlushed
      constructor
      · exact (answers_data ex).mpr ⟨rvalid, noAbort, notFlushed, noTranslation⟩
      · rw [System.answered, ex, if_neg Bool.false_ne_true, requested]
  | true =>
      have tag : (states inputs t).unit.state = .sendTag := by
        by_contra other
        have noKill : ¬ (states inputs t).Kills := fun kills => kills.elim other notFlushed
        have quiet := (orderly.calm t).quiet ex noKill
        rcases response with rvalid | kill
        · exact Bool.false_ne_true (quiet.symm.trans rvalid)
        · have kill' : (loadControl (states inputs t).unit
              ((states inputs t).unitInput (inputs t))).killReq = true := kill
          rw [loadControl_killReq, stateControl_killReq, beq_false_of_ne noAbort,
            beq_false_of_ne notFlushed, beq_false_of_ne other] at kill'
          exact Bool.false_ne_true kill'
      have rvalid := ((orderly.calm t).killed ex (.inl tag)).resolve_right
        fun flushed => notFlushed flushed.1
      have asked := ((orderly.inv t).translated tag).2
      constructor
      · exact (answers_exception ex).mpr (.inr ⟨rvalid, notFlushed, by rw [tag]; decide⟩)
      · rw [System.answered, ex, if_pos rfl, asked, requested]

theorem InFlight.succ (flight : InFlight inputs t h) (noFlush : (inputs t).flush = false)
    (silent : (inputs t).dataRvalid = false) (noKill : (controls inputs t).killReq = false)
    (waits : ¬ AnsweredAt inputs t h) : InFlight inputs (t + 1) h := by
  obtain ⟨requested, -, -⟩ := flight.requested
  have noGnt : (inputs t).dataGnt = false := by
    apply Bool.eq_false_iff.mpr
    intro gnt
    rcases (orderly.ports t).single gnt with none | rvalid
    · exact absurd (requested.symm.trans none) (Option.some_ne_none h)
    · exact Bool.false_ne_true (silent.symm.trans rvalid)
  have kept : (states inputs (t + 1)).requested = some h := by
    show (if (inputs t).dataGnt then _ else if (inputs t).dataRvalid || (controls inputs t).killReq
      then none else (states inputs t).requested) = some h
    rw [noGnt, silent, noKill]
    exact requested
  have phase : (states inputs (t + 1)).unit.state ≠ .abortTransaction ∧
      (states inputs (t + 1)).unit.state ≠ .waitFlush := by
    have waiting := stateControl_waiting (q := (states inputs t).unit)
      (i := (states inputs t).unitInput (inputs t)) noGnt
    rw [state_succ]
    rcases loadControl_state (q := (states inputs t).unit)
        (i := (states inputs t).unitInput (inputs t)) noFlush with idle | same
    · rw [controls, System.control, idle]
      exact ⟨by decide, by decide⟩
    · rw [controls, System.control, same]
      exact ⟨waiting.noAbort, waiting.noFlush⟩
  refine ⟨flight.oldest.succ noFlush waits, ?_⟩
  rw [System.inFlight, if_neg (not_or.mpr phase), kept]
  rfl

theorem InFlight.answered (flight : InFlight inputs t h) (serves : Serves inputs)
    (noFlush : ∀ u, t ≤ u → (inputs u).flush = false) : ∃ u, t ≤ u ∧ AnsweredAt inputs u h := by
  have asked : (states inputs t).requested ≠ none := by
    rw [flight.requested.1]
    exact Option.some_ne_none h
  obtain ⟨u, later, response⟩ := serves.responds t asked
  obtain ⟨v, after, flight', signal⟩ := @Machine.wait_until
    (fun v => ((inputs v).dataRvalid = true ∨ (controls inputs v).killReq = true) ∨
      AnsweredAt inputs v h)
    (fun v => InFlight inputs v h)
    t u flight later (.inl response) (by
      intro v after flight' still
      obtain ⟨noResponse, waits⟩ := not_or.mp still
      obtain ⟨silent, noKill⟩ := not_or.mp noResponse
      exact flight'.succ orderly (noFlush v after) (Bool.eq_false_iff.mpr silent)
        (Bool.eq_false_iff.mpr noKill) waits)
  rcases signal with response' | answered
  · exact ⟨v, after, flight'.responds orderly response'⟩
  · exact ⟨v, after, answered⟩

end Requested

section AtTheUnit

/-- The oldest load without an answer is at the load unit, in the phase. -/
structure Phased (inputs : Nat → SystemInput) (p : Phase) (t : Nat) (h : Load) : Prop where
  here : AtUnit inputs t h
  phase : (states inputs t).unit.state = p

/-- The load at the load unit gets its answer, or its request is granted. -/
def Leaves (inputs : Nat → SystemInput) (t : Nat) (h : Load) : Prop :=
  AnsweredAt inputs t h ∨ InFlight inputs (t + 1) h

variable {t : Nat} {h : Load} (orderly : Orderly inputs)

theorem translationReq_eq : (controls inputs t).translationReq =
    (stateControl (states inputs t).unit ((states inputs t).unitInput (inputs t))).translationReq := by
  show (loadControl _ _).translationReq = _
  rw [loadControl, exception]
  split <;> split <;> rfl

theorem dataReq_eq : (controls inputs t).dataReq =
    (stateControl (states inputs t).unit ((states inputs t).unitInput (inputs t))).dataReq :=
  loadControl_dataReq

theorem Phased.requests (wait : Phased inputs .waitGnt t h) :
    (controls inputs t).dataReq = true ∧ (controls inputs t).translationReq = true := by
  rw [dataReq_eq, translationReq_eq, stateControl, wait.phase]
  dsimp only
  cases gnt : ((states inputs t).unitInput (inputs t)).dataGnt with
  | false =>
      rw [request_wait gnt]
      exact ⟨rfl, rfl⟩
  | true =>
      rw [request_grant gnt]
      exact ⟨rfl, rfl⟩

theorem Phased.translates (wait : Phased inputs .waitTranslation t h) :
    (controls inputs t).translationReq = true := by
  rw [translationReq_eq, stateControl, wait.phase]
  cases ((states inputs t).unitInput (inputs t)).dtlbHit <;> rfl

include orderly

/-- In the phase that waits for the response, the load has left the load unit. -/
theorem AtUnit.not_sendTag (here : AtUnit inputs t h) :
    (states inputs t).unit.state ≠ .sendTag := by
  intro tag
  have requested := ((orderly.inv t).translated tag).1
  have empty := here.empty
  rw [System.inFlight, if_neg (by rw [tag]; decide)] at empty
  exact requested (Option.toList_eq_nil_iff.mp empty)

/-- One cycle of a load at the load unit. -/
theorem AtUnit.succ (here : AtUnit inputs t h) (noFlush : (inputs t).flush = false)
    (unflushed : (states inputs t).unit.state ≠ .waitFlush) (stays : ¬ Leaves inputs t h) :
    (inputs t).ex.valid = false ∧ Phased inputs
      (stateControl (states inputs t).unit ((states inputs t).unitInput (inputs t))).state
      (t + 1) h := by
  obtain ⟨waits, waits'⟩ := not_or.mp stays
  obtain ⟨noEx, same⟩ := here.plain orderly noFlush unflushed waits
  refine ⟨noEx, ((here.oldest.succ noFlush waits).places orderly).resolve_left waits', ?_⟩
  rw [state_succ, same]

/-- A request is made until it is granted. With a hit the load is then in flight, and the hit stays. -/
theorem Phased.waitGnt (wait : Phased inputs .waitGnt t h) (serves : Serves inputs)
    (noFlush : ∀ u, t ≤ u → (inputs u).flush = false) :
    ∃ u, t ≤ u ∧ (Leaves inputs u h ∨
      Phased inputs .abortTransaction (u + 1) h ∧ (inputs t).dtlbHit = false) := by
  obtain ⟨u, later, served⟩ := serves.grants t wait.requests.1
  obtain ⟨v, after, ⟨wait', hit⟩, signal⟩ := @Machine.wait_until
    (fun v => ((inputs v).dataGnt = true ∨ (controls inputs v).dataReq = false) ∨
      Leaves inputs v h)
    (fun v => Phased inputs .waitGnt v h ∧
      ((inputs t).dtlbHit = true → (inputs v).dtlbHit = true))
    t u ⟨wait, id⟩ later (.inl served) (by
      rintro v after ⟨wait', hit⟩ still
      obtain ⟨unserved, stays⟩ := not_or.mp still
      have noGnt : ((states inputs v).unitInput (inputs v)).dataGnt = false :=
        Bool.eq_false_iff.mpr (not_or.mp unserved).1
      obtain ⟨-, next⟩ := wait'.here.succ orderly (noFlush v after)
        (by rw [wait'.phase]; decide) stays
      have stay : (stateControl (states inputs v).unit
          ((states inputs v).unitInput (inputs v))).state = .waitGnt := by
        rw [stateControl, wait'.phase]
        dsimp only
        rw [request_wait noGnt]
      rw [stay] at next
      refine ⟨next, fun hits => serves.hits v wait'.requests.2 (hit hits) next.requests.2 ?_⟩
      rw [(next.here.head orderly).1, (wait'.here.head orderly).1])
  refine ⟨v, after, ?_⟩
  by_cases leaves : Leaves inputs v h
  · exact .inl leaves
  have gnt : ((states inputs v).unitInput (inputs v)).dataGnt = true := by
    rcases signal.resolve_right leaves with gnt | noReq
    · exact gnt
    · exact absurd (wait'.requests.1.symm.trans noReq) (by decide)
  obtain ⟨-, next⟩ := wait'.here.succ orderly (noFlush v after) (by rw [wait'.phase]; decide) leaves
  have granted : (stateControl (states inputs v).unit
      ((states inputs v).unitInput (inputs v))).state =
        if (inputs v).dtlbHit then .sendTag else .abortTransaction := by
    rw [stateControl, wait'.phase]
    dsimp only
    rw [request_grant gnt]
    rfl
  rw [granted] at next
  cases hits : (inputs v).dtlbHit with
  | true =>
      rw [hits] at next
      exact absurd next.phase (next.here.not_sendTag orderly)
  | false =>
      rw [hits] at next
      refine .inr ⟨next, Bool.eq_false_iff.mpr fun early => ?_⟩
      exact Bool.false_ne_true (hits.symm.trans (hit early))

theorem Phased.waitTranslation (wait : Phased inputs .waitTranslation t h) (serves : Serves inputs)
    (noFlush : ∀ u, t ≤ u → (inputs u).flush = false) :
    ∃ u, t ≤ u ∧ (Leaves inputs u h ∨
      Phased inputs .waitGnt (u + 1) h ∧ (inputs (u + 1)).dtlbHit = true) := by
  obtain ⟨u, later, served⟩ := serves.translates t wait.translates
  obtain ⟨v, after, wait', signal⟩ := @Machine.wait_until
    (fun v => ((inputs v).dtlbHit = true ∨ (inputs v).ex.valid = true ∨
      (controls inputs v).translationReq = false) ∨ Leaves inputs v h)
    (fun v => Phased inputs .waitTranslation v h)
    t u wait later (.inl served) (by
      intro v after wait' still
      obtain ⟨unserved, stays⟩ := not_or.mp still
      have noHit : ((states inputs v).unitInput (inputs v)).dtlbHit = false :=
        Bool.eq_false_iff.mpr (not_or.mp unserved).1
      obtain ⟨-, next⟩ := wait'.here.succ orderly (noFlush v after)
        (by rw [wait'.phase]; decide) stays
      rw [stateControl, wait'.phase] at next
      dsimp only at next
      rw [noHit, if_neg Bool.false_ne_true] at next
      exact next)
  refine ⟨v, after, ?_⟩
  by_cases leaves : Leaves inputs v h
  · exact .inl leaves
  obtain ⟨noEx, next⟩ := wait'.here.succ orderly (noFlush v after)
    (by rw [wait'.phase]; decide) leaves
  have hit : (inputs v).dtlbHit = true := by
    rcases signal.resolve_right leaves with hit | ex | noReq
    · exact hit
    · exact absurd (noEx.symm.trans ex) (by decide)
    · exact absurd (wait'.translates.symm.trans noReq) (by decide)
  have hit' : ((states inputs v).unitInput (inputs v)).dtlbHit = true := hit
  rw [stateControl, wait'.phase] at next
  dsimp only at next
  rw [hit', if_pos rfl] at next
  refine .inr ⟨next, serves.hits v wait'.translates hit next.requests.2 ?_⟩
  rw [(next.here.head orderly).1, (wait'.here.head orderly).1]

/-- A request without a hit is made again after the translation. -/
theorem Phased.abort_leaves (abort : Phased inputs .abortTransaction t h) (serves : Serves inputs)
    (noFlush : ∀ u, t ≤ u → (inputs u).flush = false) : ∃ u, t ≤ u ∧ Leaves inputs u h := by
  by_cases leaves : Leaves inputs t h
  · exact ⟨t, Nat.le_refl t, leaves⟩
  obtain ⟨-, translation⟩ := abort.here.succ orderly (noFlush t (Nat.le_refl t))
    (by rw [abort.phase]; decide) leaves
  rw [stateControl, abort.phase] at translation
  obtain ⟨v, after, leaves | ⟨again, hit⟩⟩ := translation.waitTranslation orderly serves
    fun w after => noFlush w (by omega)
  · exact ⟨v, by omega, leaves⟩
  obtain ⟨w, last, leaves | ⟨-, noHit⟩⟩ := again.waitGnt orderly serves
    fun w last => noFlush w (by omega)
  · exact ⟨w, by omega, leaves⟩
  · exact absurd (hit.symm.trans noHit) (by decide)

theorem Phased.waitGnt_leaves (wait : Phased inputs .waitGnt t h) (serves : Serves inputs)
    (noFlush : ∀ u, t ≤ u → (inputs u).flush = false) : ∃ u, t ≤ u ∧ Leaves inputs u h := by
  obtain ⟨u, later, leaves | ⟨abort, -⟩⟩ := wait.waitGnt orderly serves noFlush
  · exact ⟨u, later, leaves⟩
  obtain ⟨v, after, leaves⟩ := abort.abort_leaves orderly serves fun w after => noFlush w (by omega)
  exact ⟨v, by omega, leaves⟩

/-- A load that waits for the store buffer goes on when the store buffer has drained. -/
theorem Phased.waitPageOffset_leaves (wait : Phased inputs .waitPageOffset t h)
    (serves : Serves inputs) (noFlush : ∀ u, t ≤ u → (inputs u).flush = false) :
    ∃ u, t ≤ u ∧ Leaves inputs u h := by
  obtain ⟨u, later, drained⟩ := serves.drains t
  have after_cycle : ∀ v, t ≤ v → Phased inputs .waitPageOffset v h → ¬ Leaves inputs v h →
      Phased inputs (if (inputs v).pageOffsetMatches then .waitPageOffset else .waitGnt)
        (v + 1) h := by
    intro v after wait' stays
    obtain ⟨-, next⟩ := wait'.here.succ orderly (noFlush v after)
      (by rw [wait'.phase]; decide) stays
    have next_phase : (stateControl (states inputs v).unit
        ((states inputs v).unitInput (inputs v))).state =
          if (inputs v).pageOffsetMatches then .waitPageOffset else .waitGnt := by
      rw [stateControl, wait'.phase]
      show (if !(inputs v).pageOffsetMatches then _ else _ : Control).state = _
      cases (inputs v).pageOffsetMatches <;> rfl
    rw [next_phase] at next
    exact next
  obtain ⟨v, after, wait', signal⟩ := @Machine.wait_until
    (fun v => (inputs v).pageOffsetMatches = false ∨ Leaves inputs v h)
    (fun v => Phased inputs .waitPageOffset v h)
    t u wait later (.inl drained) (by
      intro v after wait' still
      obtain ⟨blocked, stays⟩ := not_or.mp still
      have next := after_cycle v after wait' stays
      rw [Bool.not_eq_false _ |>.mp blocked] at next
      exact next)
  by_cases leaves : Leaves inputs v h
  · exact ⟨v, after, leaves⟩
  have next := after_cycle v after wait' leaves
  rw [signal.resolve_right leaves] at next
  obtain ⟨w, last, leaves'⟩ := next.waitGnt_leaves orderly serves fun w last => noFlush w (by omega)
  exact ⟨w, by omega, leaves'⟩

/-- A load at the idle load unit starts. -/
theorem Phased.idle_leaves (idle : Phased inputs .idle t h) (serves : Serves inputs)
    (noFlush : ∀ u, t ≤ u → (inputs u).flush = false) : ∃ u, t ≤ u ∧ Leaves inputs u h := by
  by_cases leaves : Leaves inputs t h
  · exact ⟨t, Nat.le_refl t, leaves⟩
  obtain ⟨-, next⟩ := idle.here.succ orderly (noFlush t (Nat.le_refl t))
    (by rw [idle.phase]; decide) leaves
  have valid := idle.here.valid orderly
  have later : ∀ u, t + 1 ≤ u → (inputs u).flush = false := fun u after => noFlush u (by omega)
  rw [stateControl, idle.phase] at next
  dsimp only at next
  rw [newLoad, valid, if_pos rfl] at next
  cases blocked : ((states inputs t).unitInput (inputs t)).pageOffsetMatches with
  | true =>
      rw [blocked] at next
      obtain ⟨u, after, leaves'⟩ := Phased.waitPageOffset_leaves orderly next serves later
      exact ⟨u, by omega, leaves'⟩
  | false =>
      rw [blocked, Bool.not_false, if_pos rfl] at next
      cases gnt : ((states inputs t).unitInput (inputs t)).dataGnt with
      | false =>
          rw [request_wait gnt] at next
          obtain ⟨u, after, leaves'⟩ := Phased.waitGnt_leaves orderly next serves later
          exact ⟨u, by omega, leaves'⟩
      | true =>
          rw [request_grant gnt] at next
          cases hit : ((states inputs t).unitInput (inputs t)).dtlbHit with
          | true =>
              rw [hit] at next
              exact absurd next.phase (next.here.not_sendTag orderly)
          | false =>
              rw [hit] at next
              obtain ⟨u, after, leaves'⟩ := Phased.abort_leaves orderly next serves later
              exact ⟨u, by omega, leaves'⟩

theorem AtUnit.leaves (here : AtUnit inputs t h) (serves : Serves inputs)
    (noFlush : ∀ u, t ≤ u → (inputs u).flush = false) : ∃ u, t ≤ u ∧ Leaves inputs u h := by
  cases phase : (states inputs t).unit.state with
  | idle => exact Phased.idle_leaves orderly ⟨here, phase⟩ serves noFlush
  | waitGnt => exact Phased.waitGnt_leaves orderly ⟨here, phase⟩ serves noFlush
  | waitPageOffset => exact Phased.waitPageOffset_leaves orderly ⟨here, phase⟩ serves noFlush
  | abortTransaction => exact Phased.abort_leaves orderly ⟨here, phase⟩ serves noFlush
  | sendTag => exact absurd phase (here.not_sendTag orderly)
  | waitTranslation =>
      obtain ⟨u, later, leaves | ⟨wait, -⟩⟩ :=
        Phased.waitTranslation orderly ⟨here, phase⟩ serves noFlush
      · exact ⟨u, later, leaves⟩
      obtain ⟨v, after, leaves⟩ := wait.waitGnt_leaves orderly serves
        fun w after => noFlush w (by omega)
      exact ⟨v, by omega, leaves⟩
  | waitFlush =>
      by_cases leaves : Leaves inputs t h
      · exact ⟨t, Nat.le_refl t, leaves⟩
      obtain ⟨waits, waits'⟩ := not_or.mp leaves
      have calm := noFlush t (Nat.le_refl t)
      have next := ((here.oldest.succ calm waits).places orderly).resolve_left waits'
      have idle : (states inputs (t + 1)).unit.state = .idle := by
        rw [state_succ]
        rcases loadControl_state (q := (states inputs t).unit)
            (i := (states inputs t).unitInput (inputs t)) calm with idle | same
        · exact idle
        · rw [controls, System.control, same, stateControl, phase]
      obtain ⟨u, later, leaves'⟩ := Phased.idle_leaves orderly ⟨next, idle⟩ serves
        fun w after => noFlush w (by omega)
      exact ⟨u, by omega, leaves'⟩

end AtTheUnit

section Answered

variable {t : Nat} {h l : Load} (orderly : Orderly inputs) (serves : Serves inputs)

include orderly serves

theorem Oldest.answered (oldest : Oldest inputs t h)
    (noFlush : ∀ u, t ≤ u → (inputs u).flush = false) : ∃ u, t ≤ u ∧ AnsweredAt inputs u h := by
  rcases oldest.places orderly with flight | here
  · exact flight.answered orderly serves noFlush
  obtain ⟨u, later, answered | flight⟩ := here.leaves orderly serves noFlush
  · exact ⟨u, later, answered⟩
  obtain ⟨v, after, answered⟩ := flight.answered orderly serves fun w after => noFlush w (by omega)
  exact ⟨v, by omega, answered⟩

theorem Behind.answered (n : Nat) (behind : Behind inputs n t l)
    (noFlush : ∀ u, t ≤ u → (inputs u).flush = false) : ∃ u, t ≤ u ∧ AnsweredAt inputs u l := by
  induction n generalizing t with
  | zero =>
      obtain ⟨before, after, list, few⟩ := behind
      have none : before = [] := List.length_eq_zero_iff.mp (Nat.le_zero.mp few)
      have oldest : Oldest inputs t l := by
        rw [Oldest, list, none]
        rfl
      exact oldest.answered orderly serves noFlush
  | succ n ih =>
      obtain ⟨h, oldest⟩ : ∃ h, Oldest inputs t h := by
        obtain ⟨before, after, list, -⟩ := behind
        cases before with
        | nil => exact ⟨l, by rw [Oldest, list]; rfl⟩
        | cons first before => exact ⟨first, by rw [Oldest, list]; rfl⟩
      by_cases same : h = l
      · subst same
        exact oldest.answered orderly serves noFlush
      obtain ⟨u, later, answered⟩ := oldest.answered orderly serves noFlush
      obtain ⟨v, after, ⟨behind', oldest'⟩, signal⟩ := @Machine.wait_until
        (fun v => AnsweredAt inputs v h ∨ AnsweredAt inputs v l)
        (fun v => Behind inputs (n + 1) v l ∧ Oldest inputs v h)
        t u ⟨behind, oldest⟩ later (.inl answered) (by
          rintro v after ⟨behind', oldest'⟩ still
          obtain ⟨waits, waits'⟩ := not_or.mp still
          exact ⟨behind'.succ (noFlush v after) waits', oldest'.succ (noFlush v after) waits⟩)
      rcases signal with first | own
      · obtain ⟨w, last, own⟩ := ih (behind'.forward oldest' same (noFlush v after) first)
          fun w last => noFlush w (by omega)
        exact ⟨w, by omega, own⟩
      · exact ⟨v, after, own⟩

end Answered

/-- An aligned load, granted at once. -/
def firstLoad : SystemInput where
  req := { valid := true, fu := .load, operator := .ld, transId := 1 }
  dtlbHit := true
  dataGnt := true

/-- A misaligned load behind it. -/
def secondLoad : SystemInput where
  req := { valid := true, vaddr := 2, fu := .load, operator := .lw, transId := 2 }
  dtlbHit := true

/-- The exception of the misaligned load. -/
def misalignedLoad : SystemInput where
  ex := { cause := 4, tval := 2, valid := true }
  dtlbHit := true

/-- The first load is answered before the exception comes, and nothing comes after it. -/
def apart : Nat → SystemInput
  | 0 => firstLoad
  | 1 => { secondLoad with dataRvalid := true }
  | 2 => misalignedLoad
  | _ + 3 => {}

/-- Nothing is left to do. -/
structure AtRest (s : System) : Prop where
  idle : s.unit.state = .idle
  queued : s.queued = []
  requested : s.requested = none

/-- The load unit at rest asks for nothing. -/
theorem AtRest.control {s : System} (rest : AtRest s) (inv : Inv s) :
    s.control {} = { state := .idle } := by
  have ports : Ports s {} := by
    constructor <;> intro none <;> cases none
  have invalid : (s.unitInput {}).valid = false := by
    apply Bool.eq_false_iff.mpr
    intro valid
    apply (inv.valid ports).mp valid
    rw [System.waiting, rest.queued]
    rfl
  rw [System.control, loadControl_plain rfl rfl, stateControl, rest.idle]
  dsimp only
  rw [newLoad, invalid, if_neg Bool.false_ne_true]

theorem AtRest.next {s : System} (rest : AtRest s) (inv : Inv s) : AtRest (s.next {}) := by
  have control := rest.control inv
  constructor
  · exact congrArg Control.state control
  · show (if (s.control {}).popLd then _ else s.waiting {}) = []
    rw [control, System.waiting, rest.queued]
    rfl
  · show (if false || (s.control {}).killReq then none else s.requested) = none
    rw [control]
    exact rest.requested

/-- The data of the first load comes together with the exception. -/
def together : Nat → SystemInput
  | 0 => firstLoad
  | 1 => secondLoad
  | _ + 2 => { misalignedLoad with dataRvalid := true }

end Ariane.LoadUnit
