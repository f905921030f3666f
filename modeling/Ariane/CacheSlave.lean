import Ariane.CacheTraffic

set_option autoImplicit false

/- What the slave at the AXI port does: it completes every transaction at most once. -/
namespace Ariane.CachePorts

open AxiAdapter2 (AxiAddr AxiReq)

attribute [local instance] twoPorts

variable {p : Params}

namespace Slave

variable {v : Slave p} {m : Move p} {a : AxiReq p.axiIdWidth}

/-- Beats of the read are missing. -/
def Open (v : Slave p) (k : Nat) : Prop := (v.sent k).length < v.burst k

instance (v : Slave p) (k : Nat) : Decidable (v.Open k) :=
  inferInstanceAs (Decidable ((v.sent k).length < v.burst k))

theorem burst_of_get {k : Nat} {ar : AxiAddr p.axiIdWidth} (get : v.ars[k]? = some ar) :
    v.burst k = ar.len.toNat + 1 := by
  rw [burst, get]
  rfl

theorem burst_absent {k : Nat} (absent : v.ars.length ≤ k) : v.burst k = 0 := by
  rw [burst, List.getElem?_eq_none absent]
  rfl

theorem Open.lt {k : Nat} (unfinished : v.Open k) : k < v.ars.length := by
  by_contra outside
  have none := burst_absent (v := v) (Nat.le_of_not_lt outside)
  rw [Open, none] at unfinished
  exact Nat.not_lt_zero _ unfinished

/-- Reads that have been taken keep their length. -/
theorem burst_next {k : Nat} (taken : k < v.ars.length) : (v.next m a).burst k = v.burst k := by
  have ars : (v.next m a).ars = v.ars ++ if a.arValid && m.arReady then [a.ar] else [] := rfl
  rw [burst, burst, ars, List.getElem?_append_left taken]

theorem beat_open {k : Nat} {word : BitVec 64} (beat : v.beat m = some (k, word)) : v.Open k := by
  rw [Slave.beat, Option.filter_eq_some_iff, decide_eq_true_iff] at beat
  exact beat.2

theorem taken_beat {b : Nat × BitVec 64} (taken : v.taken m a = some b) : v.beat m = some b := by
  rw [Slave.taken] at taken
  split at taken
  · exact taken
  · cases taken

theorem sent_next (k : Nat) :
    (v.next m a).sent k =
      v.sent k ++ ((v.taken m a).filter fun b => b.1 == k).toList.map Prod.snd := rfl

theorem sent_untaken {k : Nat} (untaken : ∀ word, v.taken m a ≠ some (k, word)) :
    (v.next m a).sent k = v.sent k := by
  rw [sent_next]
  cases taken : v.taken m a with
  | none => rw [Option.filter_none, Option.toList_none, List.map_nil, List.append_nil]
  | some b =>
      have other : (b.1 == k) = false := by
        rw [beq_eq_false_iff_ne]
        intro here
        exact untaken b.2 (by rw [taken, ← here])
      simp only [Option.filter, other, Bool.false_eq_true, if_false, Option.toList_none,
        List.map_nil, List.append_nil]

theorem sent_taken {k : Nat} {word : BitVec 64} (taken : v.taken m a = some (k, word)) :
    (v.next m a).sent k = v.sent k ++ [word] := by
  simp only [sent_next, taken, Option.filter, beq_self_eq_true, if_true, Option.toList_some,
    List.map_singleton]

/-- The write that is answered was waiting for it. -/
theorem answered_cases (v : Slave p) (m : Move p) (a : AxiReq p.axiIdWidth) :
    v.answered m a = [] ∨
      ∃ k, v.answer m = some k ∧ v.answered m a = [⟨true, k, []⟩] ∧ k < v.aws.length ∧
        k < v.ws.length ∧ ⟨true, k, []⟩ ∉ v.completed := by
  rw [answered]
  split
  · cases offered : v.answer m with
    | none => exact .inl rfl
    | some k =>
        right
        have allowed := offered
        rw [answer, Option.filter_eq_some_iff, Bool.and_eq_true, Bool.and_eq_true,
          decide_eq_true_iff, decide_eq_true_iff, decide_eq_true_iff] at allowed
        exact ⟨k, rfl, rfl, allowed.2.1.1, allowed.2.1.2, allowed.2.2⟩
  · exact .inl rfl

/-- The read that is complete gets its last beat. -/
theorem finished_cases (v : Slave p) (m : Move p) (a : AxiReq p.axiIdWidth) :
    v.finished m a = [] ∨
      ∃ k word, v.taken m a = some (k, word) ∧ (v.sent k).length + 1 = v.burst k ∧
        v.finished m a = [⟨false, k, v.sent k ++ [word]⟩] := by
  rw [finished]
  cases taken : v.taken m a with
  | none => exact .inl rfl
  | some b =>
      cases last : v.lastBeat b.1 with
      | false =>
          left
          simp only [Option.filter, last, Bool.false_eq_true, if_false, Option.toList_none,
            List.map_nil]
      | true =>
          right
          refine ⟨b.1, b.2, rfl, of_decide_eq_true last, ?_⟩
          simp only [Option.filter, last, if_true, Option.toList_some, List.map_singleton]

/-- The slave completes a transaction once. -/
structure Sound (v : Slave p) : Prop where
  bounded : ∀ k, (v.sent k).length ≤ v.burst k
  reads : ∀ c ∈ v.completed, c.write = false → ¬ v.Open c.number ∧ c.number < v.ars.length
  writes : ∀ c ∈ v.completed, c.write = true → c.words = []
  once : (v.completed.map fun c => (c.write, c.number)).Nodup

theorem Sound.sent_absent (sound : v.Sound) {k : Nat} (absent : v.ars.length ≤ k) :
    v.sent k = [] := by
  have none := sound.bounded k
  rw [burst_absent absent] at none
  exact List.length_eq_zero_iff.mp (Nat.le_zero.mp none)

theorem Sound.bounded_next (sound : v.Sound) (k : Nat) :
    ((v.next m a).sent k).length ≤ (v.next m a).burst k := by
  by_cases here : ∃ word, v.taken m a = some (k, word)
  · obtain ⟨word, taken⟩ := here
    have unfinished := beat_open (taken_beat taken)
    rw [sent_taken taken, burst_next unfinished.lt, List.length_append]
    exact unfinished
  · rw [sent_untaken fun word taken => here ⟨word, taken⟩]
    by_cases old : k < v.ars.length
    · rw [burst_next old]
      exact sound.bounded k
    · rw [sound.sent_absent (Nat.le_of_not_lt old)]
      exact Nat.zero_le _

/-- A complete read stays complete. -/
theorem closed_next {k : Nat} (closed : ¬ v.Open k) (old : k < v.ars.length) :
    ¬ (v.next m a).Open k := by
  rw [Open, burst_next old, sent_untaken fun word taken => closed (beat_open (taken_beat taken))]
  exact closed

theorem Sound.next (sound : v.Sound) : (v.next m a).Sound := by
  have ars : (v.next m a).ars = v.ars ++ if a.arValid && m.arReady then [a.ar] else [] := rfl
  have longer : v.ars.length ≤ (v.next m a).ars.length := by
    rw [ars, List.length_append]
    exact Nat.le_add_right _ _
  have completed : (v.next m a).completed = v.completed ++ v.answered m a ++ v.finished m a := rfl
  have answers := v.answered_cases m a
  have finishes := v.finished_cases m a
  refine ⟨sound.bounded_next, ?_, ?_, ?_⟩
  · intro c member read
    rw [completed, List.mem_append, List.mem_append] at member
    rcases member with (old | answered) | finished
    · obtain ⟨closed, inside⟩ := sound.reads c old read
      exact ⟨closed_next closed inside, Nat.lt_of_lt_of_le inside longer⟩
    · rcases answers with none | ⟨k, -, only, -⟩
      · rw [none] at answered
        cases answered
      · rw [only, List.mem_singleton] at answered
        rw [answered] at read
        cases read
    · rcases finishes with none | ⟨k, word, taken, last, only⟩
      · rw [none] at finished
        cases finished
      · rw [only, List.mem_singleton] at finished
        rw [finished]
        have inside := (beat_open (taken_beat taken)).lt
        refine ⟨?_, Nat.lt_of_lt_of_le inside longer⟩
        rw [Open, sent_taken taken, burst_next inside, List.length_append, ← last]
        exact Nat.lt_irrefl _
  · intro c member write
    rw [completed, List.mem_append, List.mem_append] at member
    rcases member with (old | answered) | finished
    · exact sound.writes c old write
    · rcases answers with none | ⟨k, -, only, -⟩
      · rw [none] at answered
        cases answered
      · rw [only, List.mem_singleton] at answered
        rw [answered]
    · rcases finishes with none | ⟨k, word, -, -, only⟩
      · rw [none] at finished
        cases finished
      · rw [only, List.mem_singleton] at finished
        rw [finished] at write
        cases write
  · rw [completed, List.map_append, List.map_append]
    have first : (v.completed.map (fun c => (c.write, c.number)) ++
        (v.answered m a).map fun c => (c.write, c.number)).Nodup := by
      rcases answers with none | ⟨k, -, only, -, -, fresh⟩
      · rw [none, List.map_nil, List.append_nil]
        exact sound.once
      · rw [only, List.map_singleton, List.nodup_append]
        refine ⟨sound.once, List.nodup_singleton _, ?_⟩
        intro x old y new same
        obtain ⟨c, member, rfl⟩ := List.mem_map.mp old
        rw [List.mem_singleton.mp new, Prod.mk.injEq] at same
        obtain ⟨write, number, words⟩ := c
        have isWrite : write = true := same.1
        have sameNumber : number = k := same.2
        have empty : words = [] := sound.writes _ member isWrite
        rw [isWrite, sameNumber, empty] at member
        exact fresh member
    rcases finishes with none | ⟨k, word, taken, -, only⟩
    · rw [none, List.map_nil, List.append_nil]
      exact first
    · rw [only, List.map_singleton, List.nodup_append]
      refine ⟨first, List.nodup_singleton _, ?_⟩
      intro x old y new same
      rw [List.mem_singleton.mp new] at same
      rcases List.mem_append.mp old with old | answered
      · obtain ⟨c, member, rfl⟩ := List.mem_map.mp old
        rw [Prod.mk.injEq] at same
        exact (sound.reads c member same.1).1 (same.2 ▸ beat_open (taken_beat taken))
      · rcases answers with none | ⟨k', -, only', -⟩
        · rw [none] at answered
          cases answered
        · rw [only', List.map_singleton, List.mem_singleton] at answered
          rw [answered, Prod.mk.injEq] at same
          cases same.1

end Slave

end Ariane.CachePorts
