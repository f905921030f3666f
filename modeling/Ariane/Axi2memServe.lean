import Ariane.Axi2memBursts
import Mathlib.Data.List.Induction

set_option autoImplicit false

/- The memory adapter serves its transactions one after the other, each as a whole. -/
namespace Ariane.Axi2mem

open AxiAdapter (AxiAddr AxiBeat mergeBytes)
open Rtl (Machine)

variable {idWidth n : Nat}

/-- A transfer on one of the channels. -/
inductive Event (idWidth : Nat) where
  | ar (a : AxiAddr idWidth)
  | r (id : BitVec idWidth) (data : BitVec 64) (last : Bool)
  | aw (a : AxiAddr idWidth)
  | w (beat : AxiBeat)
  | b (id : BitVec idWidth)
  deriving DecidableEq

abbrev Mem (n : Nat) := BitVec n → BitVec 64

section Transactions

/-- The first `count` beats of a read. -/
def words (mem : Mem n) (a : AxiAddr idWidth) (count : Nat) : List (Event idWidth) :=
  (List.range count).map fun k => .r a.id (mem (place n a k)) (k == a.len.toNat)

/-- The memory with the beats of a burst from beat `k` on. -/
def store (a : AxiAddr idWidth) : Nat → List AxiBeat → Mem n → Mem n
  | _, [], mem => mem
  | k, w :: rest, mem =>
      store a (k + 1) rest
        (Function.update mem (place n a k) (mergeBytes (mem (place n a k)) w.data w.strb))

/-- Whole transactions, one after the other. -/
inductive Served (mem : Mem n) : List (Event idWidth) → Mem n → Prop
  | none : Served mem [] mem
  | read {events : List (Event idWidth)} {now : Mem n} (before : Served mem events now)
      (a : AxiAddr idWidth) : Served mem (events ++ .ar a :: words now a (a.len.toNat + 1)) now
  | write {events : List (Event idWidth)} {now : Mem n} (before : Served mem events now)
      (a : AxiAddr idWidth) (beats : List AxiBeat) (full : beats.length = a.len.toNat + 1) :
      Served mem (events ++ .aw a :: (beats.map .w ++ [.b a.id])) (store a 0 beats now)

/-- A transaction that is under way, if any. -/
inductive Open (mem : Mem n) : List (Event idWidth) → Mem n → Prop
  | none : Open mem [] mem
  | read (a : AxiAddr idWidth) {count : Nat} (some : count ≤ a.len.toNat) :
      Open mem (.ar a :: words mem a count) mem
  | write (a : AxiAddr idWidth) (beats : List AxiBeat) (some : beats.length ≤ a.len.toNat + 1) :
      Open mem (.aw a :: beats.map .w) (store a 0 beats mem)

theorem words_succ (mem : Mem n) (a : AxiAddr idWidth) (count : Nat) :
    words mem a (count + 1) =
      words mem a count ++ [.r a.id (mem (place n a count)) (count == a.len.toNat)] := by
  rw [words, List.range_succ, List.map_append]
  rfl

theorem store_concat (a : AxiAddr idWidth) (k : Nat) (beats : List AxiBeat) (w : AxiBeat)
    (mem : Mem n) :
    store a k (beats ++ [w]) mem =
      Function.update (store a k beats mem) (place n a (k + beats.length))
        (mergeBytes (store a k beats mem (place n a (k + beats.length))) w.data w.strb) := by
  induction beats generalizing k mem with
  | nil => rfl
  | cons first rest ih =>
      rw [List.cons_append, store, ih, store, List.length_cons, Nat.add_assoc, Nat.add_comm 1]

end Transactions

section Cycle

variable (s : State idWidth n) (i : Input idWidth)

/-- The transfers of a cycle. -/
def events : List (Event idWidth) :=
  (if i.arValid && (fsm s.regs i).arReady then [.ar i.ar] else []) ++
    (if i.awValid && (fsm s.regs i).awReady then [.aw i.aw] else []) ++
    (if i.wValid && (fsm s.regs i).wReady then [.w i.w] else []) ++
    (if i.rReady && (fsm s.regs i).rValid then
      [.r s.regs.axReq.id s.sram.rdata (fsm s.regs i).rLast] else []) ++
    if i.bReady && (fsm s.regs i).bValid then [.b s.regs.axReq.id] else []

/-- The write that a word belongs to, and the place of the word in it. -/
def target : AxiAddr idWidth := if s.regs.state = .idle then i.aw else s.regs.axReq

def index : Nat := if s.regs.state = .write then s.regs.cnt.toNat else 0

/-- The master asks for bursts that the adapter has, no read of 256 words, and marks the last word of a
write. -/
structure Contract : Prop where
  ar : s.regs.state = .idle → i.arValid = true → Supported i.ar ∧ i.ar.len.toNat ≠ 255
  aw : s.regs.state = .idle → i.arValid = false → i.awValid = true → Supported i.aw
  last : i.wValid = true → (fsm s.regs i).wReady = true →
    (i.w.last = true ↔ index s = (target s i).len.toNat)

instance : Decidable (Contract s i) :=
  decidable_of_iff ((s.regs.state = .idle → i.arValid = true →
      Supported i.ar ∧ i.ar.len.toNat ≠ 255) ∧
    (s.regs.state = .idle → i.arValid = false → i.awValid = true → Supported i.aw) ∧
    (i.wValid = true → (fsm s.regs i).wReady = true →
      (i.w.last = true ↔ index s = (target s i).len.toNat)))
    ⟨fun all => ⟨all.1, all.2.1, all.2.2⟩, fun contract => ⟨contract.ar, contract.aw, contract.last⟩⟩

end Cycle

/-- The state of a transaction that began in the memory `mem`. -/
inductive Phase (s : State idWidth n) (mem : Mem n) : List (Event idWidth) → Prop
  | idle (state : s.regs.state = .idle) (same : s.sram.mem = mem) : Phase s mem []
  | read {count : Nat} (state : s.regs.state = .read) (supported : Supported s.regs.axReq)
      (short : s.regs.axReq.len.toNat ≠ 255) (due : count ≤ s.regs.axReq.len.toNat)
      (cnt : s.regs.cnt.toNat = count + 1)
      (addr : s.regs.reqAddr.extractLsb' 3 n = place n s.regs.axReq count)
      (rdata : s.sram.rdata = mem (place n s.regs.axReq count)) (same : s.sram.mem = mem) :
      Phase s mem (.ar s.regs.axReq :: words mem s.regs.axReq count)
  | wait (state : s.regs.state = .waitWvalid) (supported : Supported s.regs.axReq)
      (same : s.sram.mem = mem) : Phase s mem [.aw s.regs.axReq]
  | write (beats : List AxiBeat) (state : s.regs.state = .write) (some : 0 < beats.length)
      (supported : Supported s.regs.axReq) (cnt : s.regs.cnt.toNat = beats.length)
      (due : beats.length ≤ s.regs.axReq.len.toNat)
      (stored : s.sram.mem = store s.regs.axReq 0 beats mem) :
      Phase s mem (.aw s.regs.axReq :: beats.map .w)
  | respond (beats : List AxiBeat) (state : s.regs.state = .sendB)
      (full : beats.length = s.regs.axReq.len.toNat + 1)
      (stored : s.sram.mem = store s.regs.axReq 0 beats mem) :
      Phase s mem (.aw s.regs.axReq :: beats.map .w)

/-- One cycle of a transaction: it goes on, or it ends and the adapter is idle. -/
def Steps (s : State idWidth n) (mem : Mem n) (rest : List (Event idWidth)) (i : Input idWidth) :
    Prop :=
  Phase (s.next i) mem (rest ++ events s i) ∨
    (s.next i).regs.state = .idle ∧
      ∀ {start : Mem n} {done : List (Event idWidth)}, Served start done mem →
        Served start (done ++ (rest ++ events s i)) (s.next i).sram.mem

section Step

variable {s : State idWidth n} {i : Input idWidth} {mem : Mem n} {rest : List (Event idWidth)}

/-- The memory takes a word at the place of its beat. -/
theorem sram_write {x : Sram n} {a : AxiAddr idWidth} {beats : List AxiBeat} {w : AxiBeat}
    {addr : BitVec n} (stored : x.mem = store a 0 beats mem) (word : addr = place n a beats.length) :
    (x.next true true addr w.strb w.data).mem = store a 0 (beats ++ [w]) mem := by
  rw [store_concat, Nat.zero_add, ← word, ← stored]
  rfl

theorem beat_zero (small : n ≤ 61) {a : AxiAddr idWidth} (supported : Supported a) :
    a.addr.extractLsb' 3 n = place n a 0 := beat_place small supported (Nat.zero_le _)

/-- The next address is that of the beat that the counter names. -/
theorem nextAddr_place (small : n ≤ 61) {a : AxiAddr idWidth} (supported : Supported a)
    {cnt : BitVec 8} {k : Nat} (counts : cnt.toNat = k + 1) (due : k + 1 ≤ a.len.toNat) :
    (nextAddr a cnt).extractLsb' 3 n = place n a (k + 1) := by
  have name : cnt = BitVec.ofNat 8 (k + 1) := by
    rw [← counts, BitVec.ofNat_toNat, BitVec.setWidth_eq]
  have there := beat_place small supported due
  rwa [beat, if_neg (Nat.succ_ne_zero k), ← name] at there

/-- The first word of a write. -/
theorem first_word {t : State idWidth n} {a : AxiAddr idWidth} {w : AxiBeat}
    (supported : Supported a) (state : t.regs.state = if w.last then .sendB else .write)
    (req : t.regs.axReq = a) (cnt : t.regs.cnt = 1) (stored : t.sram.mem = store a 0 [w] mem)
    (last : w.last = true ↔ 0 = a.len.toNat) : Phase t mem (.aw a :: [w].map .w) := by
  subst req
  cases whole : w.last with
  | true =>
      rw [whole, if_pos rfl] at state
      have zero := last.mp whole
      exact .respond [w] state (by rw [← zero]; rfl) stored
  | false =>
      rw [whole, if_neg Bool.false_ne_true] at state
      have some : 1 ≤ t.regs.axReq.len.toNat := by
        have other : ¬ 0 = t.regs.axReq.len.toNat := by
          rw [← last, whole]
          exact Bool.false_ne_true
        omega
      exact .write [w] state Nat.one_pos supported (by rw [cnt]; rfl) some stored

theorem idle_step (small : n ≤ 61) (state : s.regs.state = .idle) (same : s.sram.mem = mem)
    (contract : Contract s i) : Steps s mem [] i := by
  have target : target s i = i.aw := if_pos state
  have index : index s = 0 := by rw [index, state, if_neg (by decide)]
  left
  rw [List.nil_append]
  cases ar : i.arValid with
  | true =>
      obtain ⟨supported, short⟩ := contract.ar state ar
      have next : s.next i = ⟨⟨.read, i.ar, i.ar.addr, 1⟩,
          ⟨s.sram.mem, s.sram.mem (i.ar.addr.extractLsb' 3 n)⟩⟩ := by
        simp [State.next, fsm, state, ar, Sram.next]
      have event : events s i = [.ar i.ar] := by simp [events, fsm, state, ar]
      have word := beat_zero small supported
      rw [event, next]
      exact .read rfl supported short (Nat.zero_le _) rfl word (by rw [word, same]) same
  | false =>
      cases aw : i.awValid with
      | false =>
          have next : s.next i = s := by simp [State.next, fsm, state, ar, aw, Sram.next]
          have event : events s i = [] := by simp [events, fsm, state, ar, aw]
          rw [event, next]
          exact .idle state same
      | true =>
          have supported := contract.aw state ar aw
          have word := beat_zero small supported
          cases w : i.wValid with
          | false =>
              have event : events s i = [.aw i.aw] := by simp [events, fsm, state, ar, aw, w]
              have next : s.next i = ⟨{ s.regs with state := .waitWvalid, axReq := i.aw }, s.sram⟩ := by
                simp [State.next, fsm, state, ar, aw, w, Sram.next]
              rw [event, next]
              exact .wait rfl supported same
          | true =>
              have ready : (fsm s.regs i).wReady = true := by simp [fsm, state, ar, aw, w]
              have last := contract.last w ready
              rw [index, target] at last
              have event : events s i = [.aw i.aw, .w i.w] := by
                simp [events, fsm, state, ar, aw, w]
              rw [event]
              apply first_word supported _ _ _ _ last
              · simp [State.next, fsm, state, ar, aw, w, afterWord]
              · simp [State.next, fsm, state, ar, aw, w]
              · simp [State.next, fsm, state, ar, aw, w]
              · have stored : s.sram.mem = store i.aw 0 [] mem := same
                rw [← List.nil_append [i.w], ← sram_write (w := i.w) stored word]
                simp [State.next, fsm, state, ar, aw, w]

theorem wait_step (small : n ≤ 61) (state : s.regs.state = .waitWvalid)
    (supported : Supported s.regs.axReq) (same : s.sram.mem = mem) (contract : Contract s i) :
    Steps s mem [.aw s.regs.axReq] i := by
  have target : target s i = s.regs.axReq := by rw [target, state, if_neg (by decide)]
  have index : index s = 0 := by rw [index, state, if_neg (by decide)]
  left
  cases w : i.wValid with
  | false =>
      have event : events s i = [] := by simp [events, fsm, state, w]
      have next : s.next i = s := by simp [State.next, fsm, state, w, Sram.next]
      rw [event, next]
      exact .wait state supported same
  | true =>
      have ready : (fsm s.regs i).wReady = true := by simp [fsm, state, w]
      have last := contract.last w ready
      rw [index, target] at last
      have event : events s i = [.w i.w] := by simp [events, fsm, state, w]
      rw [event]
      apply first_word supported _ _ _ _ last
      · simp [State.next, fsm, state, w, afterWord]
      · simp [State.next, fsm, state, w]
      · simp [State.next, fsm, state, w]
      · have stored : s.sram.mem = store s.regs.axReq 0 [] mem := same
        rw [← List.nil_append [i.w], ← sram_write (w := i.w) stored (beat_zero small supported)]
        simp [State.next, fsm, state, w]

theorem read_step (small : n ≤ 61) {count : Nat} (state : s.regs.state = .read)
    (supported : Supported s.regs.axReq) (short : s.regs.axReq.len.toNat ≠ 255)
    (due : count ≤ s.regs.axReq.len.toNat) (cnt : s.regs.cnt.toNat = count + 1)
    (addr : s.regs.reqAddr.extractLsb' 3 n = place n s.regs.axReq count)
    (rdata : s.sram.rdata = mem (place n s.regs.axReq count)) (same : s.sram.mem = mem) :
    Steps s mem (.ar s.regs.axReq :: words mem s.regs.axReq count) i := by
  have bound := s.regs.axReq.len.isLt
  have last : lastRead s.regs = (count == s.regs.axReq.len.toNat) := by
    rw [lastRead, cnt]
    exact Bool.eq_iff_iff.mpr (by simp)
  cases ready : i.rReady with
  | false =>
      left
      have event : events s i = [] := by simp [events, fsm, state, ready]
      have next : s.next i = ⟨s.regs, ⟨s.sram.mem, s.sram.mem (s.regs.reqAddr.extractLsb' 3 n)⟩⟩ := by
        simp [State.next, fsm, state, ready, Sram.next]
      rw [event, next, List.append_nil]
      exact .read state supported short due cnt addr (by rw [addr, same]) same
  | true =>
      have event : events s i =
          [.r s.regs.axReq.id (mem (place n s.regs.axReq count)) (count == s.regs.axReq.len.toNat)] := by
        rw [← last, ← rdata]
        simp [events, fsm, state, ready]
      have beats : (Event.ar s.regs.axReq :: words mem s.regs.axReq count) ++ events s i =
          .ar s.regs.axReq :: words mem s.regs.axReq (count + 1) := by
        rw [event, words_succ]
        rfl
      cases whole : count == s.regs.axReq.len.toNat with
      | true =>
          right
          rw [whole] at last
          have full : count = s.regs.axReq.len.toNat := eq_of_beq whole
          refine ⟨by simp [State.next, fsm, state, ready, last], fun before => ?_⟩
          have kept : (s.next i).sram.mem = mem := by
            rw [← same]
            simp [State.next, fsm, state, ready, last, Sram.next]
          rw [beats, full, kept]
          exact before.read s.regs.axReq
      | false =>
          left
          rw [whole] at last
          have more : count + 1 ≤ s.regs.axReq.len.toNat := by
            have other : count ≠ s.regs.axReq.len.toNat := by simpa using whole
            omega
          have there := nextAddr_place small supported cnt more
          have next : s.next i =
              ⟨{ s.regs with reqAddr := nextAddr s.regs.axReq s.regs.cnt, cnt := s.regs.cnt + 1 },
                ⟨s.sram.mem, s.sram.mem ((nextAddr s.regs.axReq s.regs.cnt).extractLsb' 3 n)⟩⟩ := by
            simp [State.next, fsm, state, ready, last, Sram.next]
          rw [beats, next]
          refine .read state supported short more ?_ there (by rw [there, same]) same
          rw [BitVec.toNat_add, cnt]
          exact Nat.mod_eq_of_lt (show count + 1 + 1 < 2 ^ 8 by omega)

theorem write_step (small : n ≤ 61) (beats : List AxiBeat) (state : s.regs.state = .write)
    (supported : Supported s.regs.axReq) (some : 0 < beats.length)
    (cnt : s.regs.cnt.toNat = beats.length) (due : beats.length ≤ s.regs.axReq.len.toNat)
    (stored : s.sram.mem = store s.regs.axReq 0 beats mem) (contract : Contract s i) :
    Steps s mem (.aw s.regs.axReq :: beats.map .w) i := by
  have target : target s i = s.regs.axReq := by rw [target, state, if_neg (by decide)]
  have index : index s = beats.length := by rw [index, if_pos state, cnt]
  have bound := s.regs.axReq.len.isLt
  left
  cases w : i.wValid with
  | false =>
      have event : events s i = [] := by simp [events, fsm, state, w]
      have next : s.next i = s := by simp [State.next, fsm, state, w, Sram.next]
      rw [event, next, List.append_nil]
      exact .write beats state some supported cnt due stored
  | true =>
      have ready : (fsm s.regs i).wReady = true := by simp [fsm, state, w]
      have last := contract.last w ready
      rw [index, target] at last
      obtain ⟨k, length⟩ := Nat.exists_eq_add_one.mpr some
      have there := nextAddr_place small supported (cnt.trans length) (by omega)
      rw [← length] at there
      have event : events s i = [.w i.w] := by simp [events, fsm, state, w]
      have taken : (Event.aw s.regs.axReq :: beats.map .w) ++ events s i =
          .aw (s.next i).regs.axReq :: (beats ++ [i.w]).map .w := by
        have req : (s.next i).regs.axReq = s.regs.axReq := by simp [State.next, fsm, state, w]
        rw [event, req, List.map_append]
        rfl
      have req : (s.next i).regs.axReq = s.regs.axReq := by simp [State.next, fsm, state, w]
      have held : (s.next i).sram.mem = store s.regs.axReq 0 (beats ++ [i.w]) mem := by
        rw [← sram_write (w := i.w) stored there]
        simp [State.next, fsm, state, w]
      rw [taken]
      cases whole : i.w.last with
      | true =>
          refine .respond (beats ++ [i.w]) (by simp [State.next, fsm, state, w, whole]) ?_ (req ▸ held)
          rw [List.length_append, last.mp whole, req]
          rfl
      | false =>
          have more : ¬ beats.length = s.regs.axReq.len.toNat := by
            rw [← last, whole]
            exact Bool.false_ne_true
          refine .write (beats ++ [i.w]) (by simp [State.next, fsm, state, w, whole]) (by simp)
            (req ▸ supported) ?_ ?_ (req ▸ held)
          · have next : (s.next i).regs.cnt = s.regs.cnt + 1 := by simp [State.next, fsm, state, w]
            rw [next, BitVec.toNat_add, cnt, List.length_append]
            exact Nat.mod_eq_of_lt (show beats.length + 1 < 2 ^ 8 by omega)
          · rw [List.length_append, List.length_singleton, req]
            omega

theorem respond_step (beats : List AxiBeat) (state : s.regs.state = .sendB)
    (full : beats.length = s.regs.axReq.len.toNat + 1)
    (stored : s.sram.mem = store s.regs.axReq 0 beats mem) :
    Steps s mem (.aw s.regs.axReq :: beats.map .w) i := by
  have kept : (s.next i).sram = s.sram := by simp [State.next, fsm, state, Sram.next]
  cases ready : i.bReady with
  | false =>
      left
      have event : events s i = [] := by simp [events, fsm, state, ready]
      have next : s.next i = ⟨{ s.regs with state := .sendB }, s.sram⟩ := by
        simp [State.next, fsm, state, ready, Sram.next]
      rw [event, next, List.append_nil]
      exact .respond beats rfl full stored
  | true =>
      right
      have event : events s i = [.b s.regs.axReq.id] := by simp [events, fsm, state, ready]
      refine ⟨by simp [State.next, fsm, state, ready], fun before => ?_⟩
      rw [event, kept, stored]
      exact before.write s.regs.axReq beats full

theorem Phase.step (small : n ≤ 61) (phase : Phase s mem rest) (contract : Contract s i) :
    Steps s mem rest i := by
  cases phase with
  | idle state same => exact idle_step small state same contract
  | read state supported short due cnt addr rdata same =>
      exact read_step small state supported short due cnt addr rdata same
  | wait state supported same => exact wait_step small state supported same contract
  | write beats state some supported cnt due stored =>
      exact write_step small beats state supported some cnt due stored contract
  | respond beats state full stored => exact respond_step beats state full stored

/-- A phase is a transaction under way, or none. -/
theorem Phase.open (phase : Phase s mem rest) :
    Open mem rest s.sram.mem ∧ (s.regs.state = .idle ↔ rest = []) := by
  cases phase with
  | idle state same =>
      rw [same]
      exact ⟨.none, iff_of_true state rfl⟩
  | read state supported short due cnt addr rdata same =>
      rw [same, state]
      exact ⟨.read s.regs.axReq due, iff_of_false (by decide) (List.cons_ne_nil _ _)⟩
  | wait state supported same =>
      rw [same, state]
      exact ⟨.write s.regs.axReq [] (Nat.zero_le _), iff_of_false (by decide) (List.cons_ne_nil _ _)⟩
  | write beats state some supported cnt due stored =>
      rw [stored, state]
      exact ⟨.write s.regs.axReq beats (by omega), iff_of_false (by decide) (List.cons_ne_nil _ _)⟩
  | respond beats state full stored =>
      rw [stored, state]
      exact ⟨.write s.regs.axReq beats (by omega), iff_of_false (by decide) (List.cons_ne_nil _ _)⟩

end Step

section Run

variable (mem : Mem n) {inputs : List (Input idWidth)}

/-- What was transferred is whole transactions, served one after the other, and one that is under
way. -/
theorem phase_run (small : n ≤ 61)
    (legal : (machine mem).Legal Contract (machine mem).reset inputs) :
    ∃ done rest now, (machine mem).collect events (machine mem).reset inputs = done ++ rest ∧
      Served mem done now ∧ Phase ((machine mem).run inputs) now rest := by
  induction inputs using List.reverseRecOn with
  | nil => exact ⟨[], [], mem, rfl, .none, .idle rfl rfl⟩
  | append_singleton inputs i ih =>
      have parts := (Machine.legal_append _ _ _ _ _).mp legal
      obtain ⟨done, rest, now, transferred, served, phase⟩ := ih parts.1
      have transfers : (machine mem).collect events (machine mem).reset (inputs ++ [i]) =
          done ++ (rest ++ events ((machine mem).run inputs) i) := by
        rw [Machine.collect_append, transferred, List.append_assoc, Machine.collect_cons,
          Machine.collect_nil, List.append_nil]
        rfl
      have last : (machine mem).run (inputs ++ [i]) = ((machine mem).run inputs).next i := by
        rw [Machine.run_append]
        rfl
      rw [transfers, last]
      rcases phase.step small parts.2.1 with goes | ⟨idle, whole⟩
      · exact ⟨done, _, now, rfl, served, goes⟩
      · exact ⟨_, [], _, (List.append_nil _).symm, whole served, .idle idle rfl⟩

/-- For every run with bursts that the adapter has: the transfers are whole transactions, each served
before the next begins, reads from the memory as the earlier writes left it and with all their words, and
at most one that is under way; the memory holds what was written. -/
theorem transactions_served (small : n ≤ 61) (inputs : List (Input idWidth))
    (legal : (machine mem).Legal Contract (machine mem).reset inputs) :
    ∃ done rest now, (machine mem).collect events (machine mem).reset inputs = done ++ rest ∧
      Served mem done now ∧ Open now rest ((machine mem).run inputs).sram.mem ∧
      (((machine mem).run inputs).regs.state = .idle ↔ rest = []) := by
  obtain ⟨done, rest, now, transferred, served, phase⟩ := phase_run mem small legal
  exact ⟨done, rest, now, transferred, served, phase.open⟩

/-- A wrapping burst of two words is read after one of them was written. -/
def writeRead : List (Input 4) :=
  [{ awValid := true, aw := ⟨7, 0x18, 0, 3, .incr⟩, wValid := true, w := ⟨0xabcd, 0x0f, true⟩ },
    { bReady := true }, { arValid := true, ar := ⟨9, 0x18, 1, 3, .wrap⟩ }, {}, { rReady := true },
    { rReady := true }]

theorem writeRead_legal : (machine fun _ : BitVec 8 => 0).Legal Contract
    (machine fun _ : BitVec 8 => 0).reset writeRead := by
  decide

theorem transactions_served_writeRead :
    ∃ done rest now, (machine fun _ : BitVec 8 => 0).collect events
        (machine fun _ : BitVec 8 => 0).reset writeRead = done ++ rest ∧
      Served (fun _ => 0) done now ∧
      Open now rest ((machine fun _ : BitVec 8 => 0).run writeRead).sram.mem ∧
      (((machine fun _ : BitVec 8 => 0).run writeRead).regs.state = .idle ↔ rest = []) :=
  transactions_served (fun _ => 0) (by decide) writeRead writeRead_legal

end Run

section Progress

/-- The cycles that a transaction still takes with a master that offers and takes. -/
def left (q : Regs idWidth) : Nat :=
  match q.state with
  | .idle => 0
  | .read | .write => q.axReq.len.toNat + 2 - q.cnt.toNat
  | .waitWvalid => q.axReq.len.toNat + 2
  | .sendB => 1

/-- The master takes what it is given, and has a word to write. -/
structure Cooperates (s : State idWidth n) (i : Input idWidth) : Prop extends Contract s i where
  rReady : i.rReady = true
  bReady : i.bReady = true
  wValid : i.wValid = true

variable {s : State idWidth n} {i : Input idWidth} {mem : Mem n} {rest : List (Event idWidth)}

theorem Phase.left_next (phase : Phase s mem rest) (cooperates : Cooperates s i) :
    left (s.next i).regs = left s.regs - 1 ∨ s.regs.state = .idle := by
  have ready := cooperates.rReady
  have taken := cooperates.bReady
  have w := cooperates.wValid
  cases phase with
  | idle state same => exact .inr state
  | read state supported short due cnt addr rdata same =>
      rename_i count
      left
      have bound := s.regs.axReq.len.isLt
      have next : (s.next i).regs = { s.regs with
          state := if lastRead s.regs then .idle else .read
          reqAddr := nextAddr s.regs.axReq s.regs.cnt
          cnt := s.regs.cnt + 1 } := by
        simp [State.next, fsm, state, ready]
      have before : left s.regs = s.regs.axReq.len.toNat + 2 - s.regs.cnt.toNat := by
        rw [left, state]
      rw [next, before]
      cases last : lastRead s.regs with
      | true =>
          rw [lastRead, beq_iff_eq] at last
          have zero : s.regs.axReq.len.toNat + 2 - s.regs.cnt.toNat - 1 = 0 := by omega
          rw [zero]
          rfl
      | false =>
          rw [lastRead, beq_eq_false_iff_ne] at last
          have counts : (s.regs.cnt + 1).toNat = s.regs.cnt.toNat + 1 := by
            rw [BitVec.toNat_add]
            exact Nat.mod_eq_of_lt (show s.regs.cnt.toNat + 1 < 2 ^ 8 by omega)
          have after : s.regs.axReq.len.toNat + 2 - (s.regs.cnt + 1).toNat =
              s.regs.axReq.len.toNat + 2 - s.regs.cnt.toNat - 1 := by
            rw [counts]
            omega
          exact after
  | wait state supported same =>
      left
      have before : left s.regs = s.regs.axReq.len.toNat + 2 := by rw [left, state]
      have last := cooperates.last w (by simp [fsm, state, w])
      rw [index, target, state, if_neg (by decide), if_neg (by decide)] at last
      have next : (s.next i).regs = { s.regs with state := afterWord i, cnt := 1 } := by
        simp [State.next, fsm, state, w]
      rw [next, before, afterWord]
      cases whole : i.w.last with
      | true =>
          have zero := last.mp whole
          rw [← zero]
          rfl
      | false => rfl
  | write beats state some supported cnt due stored =>
      left
      have bound := s.regs.axReq.len.isLt
      have before : left s.regs = s.regs.axReq.len.toNat + 2 - s.regs.cnt.toNat := by
        rw [left, state]
      have last := cooperates.last w (by simp [fsm, state, w])
      rw [index, target, state, if_pos rfl, if_neg (by decide)] at last
      have next : (s.next i).regs = { s.regs with
          state := if i.w.last then .sendB else .write
          reqAddr := nextAddr s.regs.axReq s.regs.cnt
          cnt := s.regs.cnt + 1 } := by
        simp [State.next, fsm, state, w]
      rw [next, before]
      cases whole : i.w.last with
      | true =>
          have full := last.mp whole
          have one : s.regs.axReq.len.toNat + 2 - s.regs.cnt.toNat - 1 = 1 := by omega
          rw [one]
          rfl
      | false =>
          have more : ¬ s.regs.cnt.toNat = s.regs.axReq.len.toNat := by
            rw [← last, whole]
            exact Bool.false_ne_true
          have counts : (s.regs.cnt + 1).toNat = s.regs.cnt.toNat + 1 := by
            rw [BitVec.toNat_add]
            exact Nat.mod_eq_of_lt (show s.regs.cnt.toNat + 1 < 2 ^ 8 by omega)
          have after : s.regs.axReq.len.toNat + 2 - (s.regs.cnt + 1).toNat =
              s.regs.axReq.len.toNat + 2 - s.regs.cnt.toNat - 1 := by
            rw [counts]
            omega
          exact after
  | respond beats state full stored =>
      left
      have next : (s.next i).regs = { s.regs with state := .idle } := by
        simp [State.next, fsm, state, taken]
      have before : left s.regs = 1 := by rw [left, state]
      rw [next, before]
      rfl

/-- Only an idle adapter has nothing left, and no transaction takes more than 257 cycles. -/
theorem Phase.left_zero (phase : Phase s mem rest) :
    (s.regs.state = .idle ↔ left s.regs = 0) ∧ left s.regs ≤ 257 := by
  have bound := s.regs.axReq.len.isLt
  cases phase with
  | idle state same =>
      rw [left, state]
      exact ⟨iff_of_true rfl rfl, Nat.zero_le _⟩
  | read state supported short due cnt addr rdata same =>
      rw [left, state]
      dsimp only
      exact ⟨iff_of_false (by decide) (by omega), by omega⟩
  | wait state supported same =>
      rw [left, state]
      dsimp only
      exact ⟨iff_of_false (by decide) (by omega), by omega⟩
  | write beats state some supported cnt due stored =>
      rw [left, state]
      dsimp only
      exact ⟨iff_of_false (by decide) (by omega), by omega⟩
  | respond beats state full stored =>
      rw [left, state]
      dsimp only
      exact ⟨iff_of_false (by decide) (by decide), by decide⟩

/-- A transaction comes to its end. -/
theorem Phase.ends (small : n ≤ 61) (start : Mem n) (phase : Phase s mem rest)
    {more : List (Input idWidth)} (legal : (machine start).Legal Cooperates s more)
    (length : more.length = left s.regs) : ((machine start).runFrom s more).regs.state = .idle := by
  induction more generalizing s mem rest with
  | nil => exact phase.left_zero.1.mpr length.symm
  | cons i more ih =>
      have cooperates := legal.1
      have busy : s.regs.state ≠ .idle := by
        rw [Ne, phase.left_zero.1, ← length]
        exact Nat.succ_ne_zero _
      have fewer := (phase.left_next cooperates).resolve_right busy
      have short : more.length = left (s.next i).regs := by
        rw [fewer, ← length]
        rfl
      rcases phase.step small cooperates.toContract with goes | ⟨idle, -⟩
      · exact ih goes legal.2 short
      · have none : left (s.next i).regs = 0 := by rw [left, idle]
        rw [none] at short
        rw [List.length_eq_zero_iff.mp short]
        exact idle

/-- The counter never reaches the end of a read of 256 words: the adapter serves nothing else. -/
theorem long_read_endless (mem : Mem n) {s : State idWidth n} (state : s.regs.state = .read)
    (long : s.regs.axReq.len = 255) (inputs : List (Input idWidth)) :
    ((machine mem).runFrom s inputs).regs.state = .read := by
  induction inputs generalizing s with
  | nil => exact state
  | cons i inputs ih =>
      have bound := s.regs.cnt.isLt
      have goes : lastRead s.regs = false := by
        rw [lastRead, long, beq_eq_false_iff_ne]
        change s.regs.cnt.toNat ≠ 256
        omega
      have next : (s.next i).regs.state = .read ∧ (s.next i).regs.axReq = s.regs.axReq := by
        cases ready : i.rReady <;> simp [State.next, fsm, state, ready, goes]
      exact ih next.1 (next.2 ▸ long)

end Progress

end Ariane.Axi2mem
