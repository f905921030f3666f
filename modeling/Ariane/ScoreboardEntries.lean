import Ariane.ScoreboardWindow

set_option autoImplicit false

/- The instructions in flight by their position in the queue: how one cycle moves and finishes
them, and what the operand lookup finds among them. -/
namespace Ariane.Scoreboard

open Rtl.Ring

/-- The `k`-th oldest instruction in flight. -/
def entry (n : Nat) (s : State) (k : Nat) : ScoreboardEntry := (s.mem (slot n s.commitPointer k)).sbe

/-- The instructions that commit in this cycle. -/
def acks (i : Input) : Nat := i.commitAck0.toNat + i.commitAck1.toNat

/-- The port answers slot `j`. -/
def Hits (p : WbPort) (j : Nat) : Prop := p.valid = true ∧ p.transId = j

instance decidableHits (p : WbPort) (j : Nat) : Decidable (Hits p j) :=
  inferInstanceAs (Decidable (_ ∧ _))

section WriteBack

variable (n : Nat) (target : BitVec 64)

theorem writeBackPort_missed (mem : Nat → Slot) (p : WbPort) (j : Nat) (missed : ¬ Hits p j) :
    writeBackPort n target mem p j = mem j := by
  unfold writeBackPort
  split
  · rename_i hit
    apply Function.update_of_ne
    intro same
    exact missed ⟨hit.1, same.symm⟩
  · rfl

theorem writeBackPort_hit (mem : Nat → Slot) (p : WbPort) (j : Nat) (hit : Hits p j)
    (inside : j < n) (issued : (mem j).issued = true) :
    writeBackPort n target mem p j =
      { mem j with sbe := writeBackEntry target p (mem j).sbe } := by
  obtain ⟨valid, rfl⟩ := hit
  rw [writeBackPort, if_pos ⟨valid, inside, issued⟩, Function.update_self]

theorem writeBackPorts_missed (wb : List WbPort) (mem : Nat → Slot) (j : Nat)
    (missed : ∀ p ∈ wb, ¬ Hits p j) : wb.foldl (writeBackPort n target) mem j = mem j := by
  induction wb generalizing mem with
  | nil => rfl
  | cons p rest ih =>
      rw [List.foldl_cons, ih _ fun q member => missed q (List.mem_cons_of_mem _ member)]
      exact writeBackPort_missed n target mem p j (missed p List.mem_cons_self)

/-- The one port that answers a slot decides what it holds. -/
theorem writeBackPorts_hit (wb : List WbPort) (mem : Nat → Slot) (p : WbPort) (j : Nat)
    (single : wb.Pairwise fun p q => ¬ (Hits p j ∧ Hits q j))
    (member : p ∈ wb) (hit : Hits p j) (inside : j < n) (issued : (mem j).issued = true) :
    wb.foldl (writeBackPort n target) mem j =
      { mem j with sbe := writeBackEntry target p (mem j).sbe } := by
  induction wb generalizing mem with
  | nil => exact absurd member List.not_mem_nil
  | cons q rest ih =>
      obtain ⟨apart, tail⟩ := List.pairwise_cons.mp single
      rw [List.foldl_cons]
      by_cases first : Hits q j
      · have missed : ∀ o ∈ rest, ¬ Hits o j := fun o later other => apart o later ⟨first, other⟩
        rcases List.mem_cons.mp member with rfl | later
        · rw [writeBackPorts_missed n target rest _ j missed,
            writeBackPort_hit n target mem p j hit inside issued]
        · exact absurd hit (missed p later)
      · have later : p ∈ rest := by
          rcases List.mem_cons.mp member with rfl | later
          · exact absurd hit first
          · exact later
        have kept := writeBackPort_missed n target mem q j first
        rw [ih _ tail later (by rw [kept]; exact issued), kept]

end WriteBack

/-- What the write-back ports leave of an instruction in flight. -/
structure Finishes (e f : ScoreboardEntry) : Prop where
  rd : f.rd = e.rd
  op : f.op = e.op
  fu : f.fu = e.fu
  valid : e.valid = true → f.valid = true
  excepts : e.ex.valid = true → f.ex.valid = true
  raised : f.ex.valid = true → e.ex.valid = true ∨ f.valid = true

theorem Finishes.refl (e : ScoreboardEntry) : Finishes e e := ⟨rfl, rfl, rfl, id, id, Or.inl⟩

theorem Finishes.trans {e f g : ScoreboardEntry} (first : Finishes e f) (second : Finishes f g) :
    Finishes e g where
  rd := second.rd.trans first.rd
  op := second.op.trans first.op
  fu := second.fu.trans first.fu
  valid := fun done => second.valid (first.valid done)
  excepts := fun own => second.excepts (first.excepts own)
  raised := by
    intro raised
    rcases second.raised raised with before | done
    · rcases first.raised before with own | done
      · exact Or.inl own
      · exact Or.inr (second.valid done)
    · exact Or.inr done

theorem writeBackEntry_finishes (target : BitVec 64) (p : WbPort) (e : ScoreboardEntry) :
    Finishes e (writeBackEntry target p e) := by
  unfold writeBackEntry
  cases raised : p.ex.valid with
  | true => exact ⟨rfl, rfl, rfl, fun _ => rfl, fun _ => raised, fun _ => Or.inr rfl⟩
  | false =>
      rw [if_neg Bool.false_ne_true]
      split
      · exact ⟨rfl, rfl, rfl, fun _ => rfl, id, fun _ => Or.inr rfl⟩
      · exact ⟨rfl, rfl, rfl, fun _ => rfl, id, fun _ => Or.inr rfl⟩

theorem writeBackPorts_finishes (n : Nat) (target : BitVec 64) (wb : List WbPort)
    (mem : Nat → Slot) (j : Nat) :
    Finishes (mem j).sbe (wb.foldl (writeBackPort n target) mem j).sbe := by
  induction wb generalizing mem with
  | nil => exact Finishes.refl _
  | cons p rest ih =>
      refine Finishes.trans ?_ (ih _)
      unfold writeBackPort
      split
      · by_cases here : j = p.transId
        · rw [here, Function.update_self]
          exact writeBackEntry_finishes target p _
        · rw [Function.update_of_ne here]
          exact Finishes.refl _
      · exact Finishes.refl _

/-- The `k`-th slot of the queue. -/
def slotAt (n : Nat) (s : State) (k : Nat) : Slot := s.mem (slot n s.commitPointer k)

section Cycle

variable (n b : Nat) (s : State) (i : Input) (power : n = 2 ^ b) (window : Window n s)

include window

/-- The slots of the window lie in the array. -/
theorem slot_inside (k : Nat) : slot n s.commitPointer k < n :=
  slot_lt n _ _ (Nat.zero_lt_of_lt window.inside)

theorem slotAt_issued (k : Nat) (below : k < s.issueCnt) : (slotAt n s k).issued = true :=
  (window.issued _ (slot_inside n s window k)).mpr ⟨k, below, rfl⟩

include power

/-- Before the commits the queue holds the old instructions, and the new one behind them. -/
theorem enqueue_slotAt (k : Nat) :
    (k < s.issueCnt → slotAt n (enqueue n s i) k = slotAt n s k) ∧
      (enters n s i = true → k = s.issueCnt →
        slotAt n (enqueue n s i) k = { issued := true, sbe := i.decodedInstr }) := by
  by_cases enter : enters n s i = true
  · have room := room_of_enters n s i window enter
    rw [enqueue_entered n b s i power window enter]
    constructor
    · intro below
      apply Function.update_of_ne
      intro same
      have equal := slot_injective n _ _ _ (by omega) (by omega) same
      omega
    · intro _ last
      rw [last]
      exact Function.update_self ..
  · rw [enqueue, if_neg enter]
    exact ⟨fun _ => rfl, fun enter' => absurd enter' enter⟩

/-- A commit moves every instruction one position up. -/
theorem commitPort_slotAt (base port k : Nat) (occupied : 0 < s.issueCnt)
    (head : ptrAdd n base port = s.commitPointer) (below : k + 1 < s.issueCnt) :
    slotAt n (commitPort n base port true s) k = slotAt n s (k + 1) := by
  have bound := window.bounded
  rw [commitPort_acked n b base port s power window occupied head, slotAt, slotAt]
  dsimp only
  rw [slot_succ]
  apply Function.update_of_ne
  intro same
  rw [← slot_zero n s.commitPointer window.inside] at same
  have equal := slot_injective n s.commitPointer (k + 1) 0 (by omega) (by omega)
  rw [slot_zero n s.commitPointer window.inside] at same equal
  exact absurd (equal same) (by omega)

theorem beforeCommit_issueCnt :
    (beforeCommit n s i).issueCnt = s.issueCnt + (enters n s i).toNat := by
  show (enqueue n s i).issueCnt = _
  cases enter : enters n s i with
  | true =>
      rw [enqueue_entered n b s i power window enter]
      rfl
  | false =>
      rw [enqueue, if_neg (by rw [enter]; decide)]
      rfl

variable (contract : Contract n s i)

include contract

/-- One cycle without a flush: what commits leaves the count, what stays moves up. -/
theorem next_issueCnt (keep : i.flush = false) :
    (next n s i).issueCnt + acks i = (beforeCommit n s i).issueCnt := by
  have stays : next n s i =
      commitPort n s.commitPointer 1 i.commitAck1 (betweenCommits n s i) := by
    rw [next_eq, flushAll, if_neg (by rw [keep]; decide)]
  have between := betweenCommits_window n b s i power window contract
  rw [stays, acks]
  cases ack0 : i.commitAck0 with
  | false =>
      have none : i.commitAck1 = false := by
        rw [← Bool.not_eq_true]
        intro ack1
        rw [contract.order ack1] at ack0
        exact absurd ack0 (by decide)
      rw [none, betweenCommits, ack0]
      rfl
  | true =>
      have first := port0_ready n b s i power window contract ack0
      have taken := betweenCommits_acked n b s i power window contract ack0
      have count : (betweenCommits n s i).issueCnt + 1 = (beforeCommit n s i).issueCnt := by
        rw [taken]
        have some := first.1
        dsimp only
        omega
      cases ack1 : i.commitAck1 with
      | false => exact count
      | true =>
          have second := port1_ready n b s i power window contract ack1
          rw [commitPort_acked n b _ 1 _ power between second.1 second.2]
          have some := second.1
          show (betweenCommits n s i).issueCnt - 1 + 2 = _
          omega

theorem next_slotAt (keep : i.flush = false) (k : Nat) (below : k < (next n s i).issueCnt) :
    slotAt n (next n s i) k = slotAt n (beforeCommit n s i) (k + acks i) := by
  have count := next_issueCnt n b s i power window contract keep
  have stays : next n s i =
      commitPort n s.commitPointer 1 i.commitAck1 (betweenCommits n s i) := by
    rw [next_eq, flushAll, if_neg (by rw [keep]; decide)]
  have before := beforeCommit_window n b s i power window
  have between := betweenCommits_window n b s i power window contract
  have same : (beforeCommit n s i).commitPointer = s.commitPointer := enqueue_commitPointer n s i
  rw [stays]
  rw [acks] at count ⊢
  cases ack0 : i.commitAck0 with
  | false =>
      have none : i.commitAck1 = false := by
        rw [← Bool.not_eq_true]
        intro ack1
        rw [contract.order ack1] at ack0
        exact absurd ack0 (by decide)
      rw [none, betweenCommits, ack0]
      rfl
  | true =>
      have first := port0_ready n b s i power window contract ack0
      rw [ack0] at count
      have moved : ∀ j, j + 1 < (beforeCommit n s i).issueCnt →
          slotAt n (betweenCommits n s i) j = slotAt n (beforeCommit n s i) (j + 1) := by
        intro j inside
        rw [betweenCommits, ack0]
        exact commitPort_slotAt n b _ power before _ _ j first.1 first.2 inside
      cases ack1 : i.commitAck1 with
      | false =>
          rw [ack1] at count
          exact moved k (by simp only [Bool.toNat_true, Bool.toNat_false] at count; omega)
      | true =>
          rw [ack1] at count
          simp only [Bool.toNat_true] at count
          have second := port1_ready n b s i power window contract ack1
          have taken := betweenCommits_acked n b s i power window contract ack0
          have left : (betweenCommits n s i).issueCnt = (beforeCommit n s i).issueCnt - 1 := by
            rw [taken]
          rw [commitPort_slotAt n b _ power between _ _ k second.1 second.2 (by omega),
            moved (k + 1) (by omega)]
          rfl

omit contract

/-- What position `k` holds after write-back, before the commits. -/
def finished (n : Nat) (s : State) (i : Input) (k : Nat) : ScoreboardEntry :=
  (slotAt n (beforeCommit n s i) k).sbe

theorem finished_missed (k : Nat) (below : k < s.issueCnt)
    (missed : ∀ p ∈ i.wb, ¬ Hits p (slot n s.commitPointer k)) :
    finished n s i k = entry n s k := by
  have same := (enqueue_slotAt n b s i power window k).1 below
  have pointer := enqueue_commitPointer n s i
  rw [slotAt, pointer] at same
  show ((i.wb.foldl (writeBackPort n i.resolvedTarget) (enqueue n s i).mem)
    (slot n (enqueue n s i).commitPointer k)).sbe = _
  rw [pointer, writeBackPorts_missed _ _ _ _ _ missed, same]
  rfl

theorem finished_hit (k : Nat) (below : k < s.issueCnt)
    (single : i.wb.Pairwise fun p q =>
      ¬ (Hits p (slot n s.commitPointer k) ∧ Hits q (slot n s.commitPointer k)))
    (p : WbPort) (member : p ∈ i.wb) (hit : Hits p (slot n s.commitPointer k)) :
    finished n s i k = writeBackEntry i.resolvedTarget p (entry n s k) := by
  have same := (enqueue_slotAt n b s i power window k).1 below
  have pointer := enqueue_commitPointer n s i
  rw [slotAt, pointer] at same
  have inside := slot_inside n s window k
  have issued := slotAt_issued n s window k below
  show ((i.wb.foldl (writeBackPort n i.resolvedTarget) (enqueue n s i).mem)
    (slot n (enqueue n s i).commitPointer k)).sbe = _
  rw [pointer, writeBackPorts_hit n _ i.wb _ p _ single member hit inside
    (by rw [same]; exact issued), same]
  rfl

theorem finished_finishes (k : Nat) (below : k < s.issueCnt) :
    Finishes (entry n s k) (finished n s i k) := by
  have same := (enqueue_slotAt n b s i power window k).1 below
  have ports := writeBackPorts_finishes n i.resolvedTarget i.wb (enqueue n s i).mem
    (slot n (enqueue n s i).commitPointer k)
  rw [show (enqueue n s i).mem (slot n (enqueue n s i).commitPointer k) = slotAt n s k from same]
    at ports
  exact ports

/-- The instruction that enters may find a late answer to the instruction before it in the slot. -/
theorem finished_entered (enter : enters n s i = true) :
    Finishes i.decodedInstr (finished n s i s.issueCnt) := by
  have same := (enqueue_slotAt n b s i power window s.issueCnt).2 enter rfl
  have ports := writeBackPorts_finishes n i.resolvedTarget i.wb (enqueue n s i).mem
    (slot n (enqueue n s i).commitPointer s.issueCnt)
  rw [show (enqueue n s i).mem (slot n (enqueue n s i).commitPointer s.issueCnt) = _ from same]
    at ports
  exact ports

end Cycle

section Lookup

variable (pkg : Pkg) (n : Nat) (s : State)

/-- An issued slot holds a writer of the name `r` in the register file that `fpr` selects. -/
def Writes (fpr : Bool) (r : BitVec 6) (j : Nat) : Prop :=
  (s.mem j).issued = true ∧ writesReg pkg (s.mem j).sbe r fpr = true

theorem clobberSlots_cases (r : BitVec 6) (slots : List Nat) (clobber : BitVec 6 → Fu) :
    ((∀ j ∈ slots, ¬ Writes pkg s false r j) ∧
        slots.foldl (clobberSlot (fun op => !pkg.isRdFpr op) s) clobber r = clobber r) ∨
      ∃ j ∈ slots, Writes pkg s false r j ∧
        slots.foldl (clobberSlot (fun op => !pkg.isRdFpr op) s) clobber r = (s.mem j).sbe.fu := by
  induction slots generalizing clobber with
  | nil => exact Or.inl ⟨fun j member => absurd member List.not_mem_nil, rfl⟩
  | cons j rest ih =>
      rw [List.foldl_cons]
      rcases ih (clobberSlot (fun op => !pkg.isRdFpr op) s clobber j) with later | found
      · obtain ⟨silent, kept⟩ := later
        rw [kept]
        by_cases writer : Writes pkg s false r j
        · right
          refine ⟨j, List.mem_cons_self, writer, ?_⟩
          obtain ⟨issued, writes⟩ := writer
          simp only [writesReg, Bool.and_eq_true, beq_iff_eq] at writes
          rw [clobberSlot, if_pos ⟨issued, by rw [writes.2]; rfl⟩, ← writes.1,
            Function.update_self]
        · left
          refine ⟨?_, ?_⟩
          · intro o member
            rcases List.mem_cons.mp member with rfl | later
            · exact writer
            · exact silent o later
          · unfold clobberSlot
            split
            · rename_i writes
              apply Function.update_of_ne
              intro same
              apply writer
              refine ⟨writes.1, ?_⟩
              have file : pkg.isRdFpr (s.mem j).sbe.op = false := by simpa using writes.2
              rw [writesReg, same, file, beq_self_eq_true]
              rfl
            · rfl
      · obtain ⟨o, member, writer, value⟩ := found
        exact Or.inr ⟨o, List.mem_cons_of_mem _ member, writer, value⟩

/-- The clobber list names the unit of a writer, or there is none. -/
theorem rdClobberGpr_cases (r : BitVec 6) (named : r ≠ 0) :
    ((∀ j < n, ¬ Writes pkg s false r j) ∧ rdClobberGpr pkg n s r = .none) ∨
      ∃ j < n, Writes pkg s false r j ∧ rdClobberGpr pkg n s r = (s.mem j).sbe.fu := by
  rw [rdClobberGpr, Function.update_of_ne named]
  rcases clobberSlots_cases pkg s r (List.range n) fun _ => .none with silent | found
  · refine Or.inl ⟨?_, silent.2⟩
    intro j inside
    exact silent.1 j (List.mem_range.mpr inside)
  · obtain ⟨j, member, writer, value⟩ := found
    exact Or.inr ⟨j, List.mem_range.mp member, writer, value⟩

/-- A slot that writes `r` supplies `v`: it is finished, or a port answers it. -/
def Supplies (wb : List WbPort) (fpr : Bool) (r : BitVec 6) (v : BitVec 64) (j : Nat) : Prop :=
  writesReg pkg (s.mem j).sbe r fpr = true ∧
    (((s.mem j).issued = true ∧ (s.mem j).sbe.valid = true ∧ v = (s.mem j).sbe.result) ∨
      ∃ p ∈ wb, Hits p j ∧ p.ex.valid = false ∧ v = p.data)

/-- Every valid operand is supplied by a slot. -/
structure Supplied (l : Lookup) (wb : List WbPort) (o : Operands) : Prop where
  rs1 : o.rs1Valid = true → ∃ j < n, Supplies pkg s wb (pkg.isRs1Fpr l.op) l.rs1 o.rs1 j
  rs2 : o.rs2Valid = true → ∃ j < n, Supplies pkg s wb (pkg.isRs2Fpr l.op) l.rs2 o.rs2 j

theorem readSlot_supplied (l : Lookup) (wb : List WbPort) (o : Operands) (j : Nat)
    (inside : j < n) (before : Supplied pkg n s l wb o) :
    Supplied pkg n s l wb (readSlot pkg s l o j) := by
  unfold readSlot
  dsimp only
  split
  · rename_i issued
    split
    · rename_i writes
      refine ⟨?_, before.rs2⟩
      intro valid
      exact ⟨j, inside, writes, Or.inl ⟨issued, valid, rfl⟩⟩
    · split
      · rename_i writes
        refine ⟨before.rs1, ?_⟩
        intro valid
        exact ⟨j, inside, writes, Or.inl ⟨issued, valid, rfl⟩⟩
      · split
        · exact ⟨before.rs1, before.rs2⟩
        · exact before
  · exact before

theorem readSlots_supplied (l : Lookup) (wb : List WbPort) (slots : List Nat) (o : Operands)
    (inside : ∀ j ∈ slots, j < n) (before : Supplied pkg n s l wb o) :
    Supplied pkg n s l wb (slots.foldl (readSlot pkg s l) o) := by
  induction slots generalizing o with
  | nil => exact before
  | cons j rest ih =>
      rw [List.foldl_cons]
      apply ih
      · intro o member
        exact inside o (List.mem_cons_of_mem _ member)
      · exact readSlot_supplied pkg n s l wb o j (inside j List.mem_cons_self) before

theorem forwardPorts_supplied (l : Lookup) (wb ports : List WbPort) (o : Operands)
    (subset : ∀ p ∈ ports, p ∈ wb) (before : Supplied pkg n s l wb o) :
    Supplied pkg n s l wb (forwardPorts pkg n s l ports o) := by
  induction ports generalizing o with
  | nil => exact before
  | cons p rest ih =>
      have here := subset p List.mem_cons_self
      unfold forwardPorts
      dsimp only
      split
      · rename_i used
        simp only [Bool.and_eq_true, decide_eq_true_eq, Bool.not_eq_true'] at used
        obtain ⟨⟨⟨inside, valid⟩, clean⟩, writes⟩ := used
        refine ⟨?_, before.rs2⟩
        intro _
        exact ⟨p.transId, inside, writes, Or.inr ⟨p, here, ⟨valid, rfl⟩, clean, rfl⟩⟩
      · split
        · rename_i used
          simp only [Bool.and_eq_true, decide_eq_true_eq, Bool.not_eq_true'] at used
          obtain ⟨⟨⟨inside, valid⟩, clean⟩, writes⟩ := used
          refine ⟨before.rs1, ?_⟩
          intro _
          exact ⟨p.transId, inside, writes, Or.inr ⟨p, here, ⟨valid, rfl⟩, clean, rfl⟩⟩
        · split
          · exact ⟨before.rs1, before.rs2⟩
          · exact ih o (fun q member => subset q (List.mem_cons_of_mem _ member)) before

theorem readOperands_supplied (l : Lookup) (wb : List WbPort) :
    Supplied pkg n s l wb (readOperands pkg n s l wb) := by
  have start : Supplied pkg n s l wb {} :=
    ⟨fun valid => absurd valid (by decide), fun valid => absurd valid (by decide)⟩
  have slots := readSlots_supplied pkg n s l wb (List.range n) {}
    (fun j member => List.mem_range.mp member) start
  have ports := forwardPorts_supplied pkg n s l wb wb _ (fun p member => member) slots
  unfold readOperands
  dsimp only
  refine ⟨?_, ?_⟩
  · intro valid
    rw [Bool.and_eq_true] at valid
    exact ports.rs1 valid.1
  · intro valid
    rw [Bool.and_eq_true] at valid
    exact ports.rs2 valid.1

end Lookup

end Ariane.Scoreboard
