import Ariane.RealignerStep
import Ariane.Rtl.Stream

set_option autoImplicit false

/- The re-aligner against the halfword parser: the instructions that the decoder accepts, for every
stream of words and every handshake. -/
namespace Ariane.InstrRealigner

open Rtl (Machine)

/-- The registers, and the number of entries that left the fetch FIFO. -/
structure Fed where
  regs : State := {}
  taken : Nat := 0

/-- One cycle. -/
def Fed.next (f : Fed) (i : Input) : Fed :=
  ⟨InstrRealigner.next f.regs i, f.taken + (consumed f.regs i).toNat⟩

def fed : Machine Fed Input := ⟨{}, Fed.next⟩

/-- The instruction that the decoder accepts in a cycle. -/
def emit (f : Fed) (i : Input) : List (BitVec 64 × BitVec 32) :=
  if accepted f.regs i then [output f.regs i] else []

section Run

variable (s : Words) (q : State) (inputs : Nat → Input)

/-- The circuit in cycle `t` of a run that starts in `q`. -/
def fedAt (t : Nat) : Fed := fed.stateAt ⟨q, 0⟩ inputs t

/-- The instructions accepted before cycle `t`. -/
def acceptedBefore (t : Nat) : List (BitVec 64 × BitVec 32) := fed.log ⟨q, 0⟩ inputs emit t

/-- The fetch FIFO shows the entries one after the other, in any cycles, and an upper half that is due
is taken only while its entry is shown. -/
structure Feeds : Prop where
  presents : ∀ t, Presents s (fedAt q inputs t).taken (inputs t)
  served : ∀ t, (fedAt q inputs t).regs.compressed = true → (inputs t).fetchAck = true →
    (inputs t).fetchEntryValid = true

/-- Entries keep coming and stay until they are acknowledged, and the decoder keeps accepting. -/
structure Fair : Prop where
  valid : ∀ t, ∃ u, t ≤ u ∧ (inputs u).fetchEntryValid = true
  held : ∀ t, (inputs t).fetchEntryValid = true →
    consumed (fedAt q inputs t).regs (inputs t) = false → (inputs (t + 1)).fetchEntryValid = true
  ack : ∀ t, ∃ u, t ≤ u ∧ (inputs u).fetchAck = true

/-- The accepted instructions are the first of the parse, and the halfwords of the entries taken
are those of the instructions, but for a saved half and a half that is not served yet. -/
structure Parsed (f : Fed) (out : List (BitVec 64 × BitVec 32)) : Prop where
  parse : out = Rvc.parse s.half s.address s.offset out.length
  position : Rvc.position s.half s.offset out.length + f.regs.unaligned.toNat =
    max s.offset (2 * f.taken + f.regs.compressed.toNat)

variable {s q inputs}

/-- Where the re-aligner stands in the stream. -/
structure Stands (s : Words) (q : State) (inputs : Nat → Input) (t : Nat) : Prop where
  parse : acceptedBefore q inputs t =
    Rvc.parse s.half s.address s.offset (acceptedBefore q inputs t).length
  here : At s (fedAt q inputs t).regs (fedAt q inputs t).taken
    (Rvc.position s.half s.offset (acceptedBefore q inputs t).length)

/-- The position accounts for every halfword taken. -/
theorem At.position {k p : Nat} {regs : State} (here : At s regs k p) :
    p + regs.unaligned.toNat = max s.offset (2 * k + regs.compressed.toNat) := by
  have odd := s.offset_le
  cases here with
  | fresh first whole place =>
      rw [first, whole]
      show p + 0 = max s.offset (2 * k + 0)
      omega
  | saved first split place =>
      rw [first, split]
      show p + 1 = max s.offset (2 * k + 0)
      omega
  | second second whole place =>
      rw [second, whole]
      show p + 0 = max s.offset (2 * k + 1)
      omega

theorem Stands.advances {t : Nat} (stands : Stands s q inputs t) (feeds : Feeds s q inputs) :
    Advances s (fedAt q inputs t).regs (inputs t) (fedAt q inputs t).taken
      (Rvc.position s.half s.offset (acceptedBefore q inputs t).length) :=
  At.step (feeds.presents t) stands.here (feeds.served t)

theorem acceptedBefore_accept {t : Nat}
    (accept : accepted (fedAt q inputs t).regs (inputs t) = true) :
    acceptedBefore q inputs (t + 1) =
      acceptedBefore q inputs t ++ [output (fedAt q inputs t).regs (inputs t)] :=
  congrArg (acceptedBefore q inputs t ++ ·) (if_pos accept)

theorem acceptedBefore_wait {t : Nat}
    (refuse : accepted (fedAt q inputs t).regs (inputs t) = false) :
    acceptedBefore q inputs (t + 1) = acceptedBefore q inputs t := by
  have none : emit (fedAt q inputs t) (inputs t) = [] := by
    rw [emit, refuse, if_neg Bool.false_ne_true]
  exact (congrArg (acceptedBefore q inputs t ++ ·) none).trans (List.append_nil _)

theorem Stands.step {t : Nat} (stands : Stands s q inputs t) (feeds : Feeds s q inputs) :
    Stands s q inputs (t + 1) := by
  have advances := stands.advances feeds
  cases accept : accepted (fedAt q inputs t).regs (inputs t) with
  | true =>
      obtain ⟨out, here⟩ := advances.served accept
      have log := acceptedBefore_accept accept
      have count : (acceptedBefore q inputs (t + 1)).length =
          (acceptedBefore q inputs t).length + 1 := by
        rw [log, List.length_append]
        rfl
      constructor
      · rw [count, Rvc.parse_succ, log, out, ← stands.parse]
      · rw [count, Rvc.position_succ]
        exact here
  | false =>
      have log := acceptedBefore_wait accept
      constructor
      · rw [log]
        exact stands.parse
      · rw [log]
        exact advances.waits accept

theorem stands_run (first : q.compressed = false) (whole : q.unaligned = false)
    (feeds : Feeds s q inputs) (t : Nat) : Stands s q inputs t := by
  induction t with
  | zero =>
      exact ⟨rfl, At.fresh first whole (Or.inl ⟨rfl, rfl⟩)⟩
  | succ t ih => exact ih.step feeds

section Progress

variable (stands : ∀ t, Stands s q inputs t) (feeds : Feeds s q inputs) (fair : Fair q inputs)

include stands feeds fair

theorem moves (t : Nat) :
    ∃ v, t ≤ v ∧ (accepted (fedAt q inputs v).regs (inputs v) = true ∨
      consumed (fedAt q inputs v).regs (inputs v) = true) := by
  obtain ⟨u, later, shown⟩ := fair.valid t
  obtain ⟨x, after, takes⟩ := fair.ack u
  have stays : ∀ v, u ≤ v → (inputs v).fetchEntryValid = true →
      ¬ ((inputs v).fetchAck = true ∨ consumed (fedAt q inputs v).regs (inputs v) = true) →
      (inputs (v + 1)).fetchEntryValid = true := by
    intro v _ valid quiet
    apply fair.held v valid
    exact Bool.eq_false_iff.mpr (fun used => quiet (Or.inr used))
  obtain ⟨v, start, valid, signal⟩ := @Machine.wait_until
    (fun v => (inputs v).fetchAck = true ∨ consumed (fedAt q inputs v).regs (inputs v) = true)
    (fun v => (inputs v).fetchEntryValid = true) u x shown after (Or.inl takes) stays
  refine ⟨v, Nat.le_trans later start, ?_⟩
  rcases signal with ack | used
  · exact (((stands v).advances feeds).progress valid ack).imp_right And.right
  · exact Or.inr used

/-- After the first entry, an instruction is accepted. -/
theorem accepts_later {t : Nat} (later : 0 < (fedAt q inputs t).taken) :
    ∃ v, t ≤ v ∧ accepted (fedAt q inputs v).regs (inputs v) = true := by
  have grows : ∀ d, 0 < (fedAt q inputs (t + d)).taken := by
    intro d
    induction d with
    | zero => exact later
    | succ d ih => exact Nat.lt_of_lt_of_le ih (Nat.le_add_right _ _)
  obtain ⟨v, after, moved⟩ := moves stands feeds fair t
  refine ⟨v, after, ?_⟩
  rcases moved with accept | used
  · exact accept
  · obtain ⟨d, rfl⟩ := Nat.exists_eq_add_of_le after
    rcases ((stands (t + d)).advances feeds).takes used with accept | first
    · exact accept
    · exact absurd first (Nat.ne_of_gt (grows d))

theorem accepts (t : Nat) :
    ∃ v, t ≤ v ∧ accepted (fedAt q inputs v).regs (inputs v) = true := by
  obtain ⟨v, after, moved⟩ := moves stands feeds fair t
  rcases moved with accept | used
  · exact ⟨v, after, accept⟩
  · have later : 0 < (fedAt q inputs (v + 1)).taken := by
      show 0 < (fedAt q inputs v).taken + (consumed (fedAt q inputs v).regs (inputs v)).toNat
      rw [used]
      exact Nat.succ_pos _
    obtain ⟨u, more, accept⟩ := accepts_later stands feeds fair later
    exact ⟨u, Nat.le_trans (Nat.le_of_succ_le (Nat.succ_le_succ after)) more, accept⟩

theorem accepted_unbounded (n : Nat) : ∃ t, n ≤ (acceptedBefore q inputs t).length := by
  induction n with
  | zero => exact ⟨0, Nat.zero_le _⟩
  | succ n ih =>
      obtain ⟨t, enough⟩ := ih
      obtain ⟨v, after, accept⟩ := accepts stands feeds fair t
      have grows : ∀ d, (acceptedBefore q inputs t).length ≤
          (acceptedBefore q inputs (t + d)).length := by
        intro d
        induction d with
        | zero => exact Nat.le_refl _
        | succ d ih =>
            apply Nat.le_trans ih
            show _ ≤ (acceptedBefore q inputs (t + d) ++ _).length
            rw [List.length_append]
            exact Nat.le_add_right _ _
      obtain ⟨d, rfl⟩ := Nat.exists_eq_add_of_le after
      refine ⟨t + d + 1, ?_⟩
      rw [acceptedBefore_accept accept, List.length_append]
      exact Nat.succ_le_succ (Nat.le_trans enough (grows d))

end Progress

end Run

/-- For every stream of words, every start and every handshake that shows an entry while its upper half
is taken, the accepted instructions are the parse of the halfwords, in order and each once, no halfword
is lost or duplicated, and with a fair handshake every instruction of the parse is accepted. -/
theorem realigned_parse (s : Words) (q : State) (inputs : Nat → Input)
    (first : q.compressed = false) (whole : q.unaligned = false) (feeds : Feeds s q inputs) :
    (∀ t, Parsed s (fedAt q inputs t) (acceptedBefore q inputs t)) ∧
      (Fair q inputs → ∀ n, ∃ t, n ≤ (acceptedBefore q inputs t).length) := by
  have stands := stands_run first whole feeds
  constructor
  · intro t
    exact ⟨(stands t).parse, (stands t).here.position⟩
  · intro fair
    exact accepted_unbounded stands feeds fair

/-- A 32-bit instruction from the upper half of the first word on, and a compressed one after it. -/
def misaligned : Words where
  start := 2
  word := fun k => if k = 0 then 0x80030000 else 0x00011234
  even := rfl

/-- The entry of the stream. -/
def entryInput (k : Nat) : Input where
  fetchEntryValid := true
  fetchAck := true
  fetchEntry := { address := misaligned.entryAddress k, instruction := misaligned.word k }

/-- The second entry is shown until both its halves are served. -/
def misalignedInputs : Nat → Input
  | 0 => entryInput 0
  | 1 => entryInput 1
  | 2 => entryInput 1
  | _ => {}

theorem realigned_parse_misaligned :
    Parsed misaligned (fedAt {} misalignedInputs 3) [(2, 0x12348003), (6, 0x1)] := by
  have feeds : Feeds misaligned {} misalignedInputs := by
    constructor
    · intro t
      match t with
      | 0 => exact ⟨rfl, fun _ => rfl, fun _ => rfl, fun _ => rfl⟩
      | 1 => exact ⟨rfl, fun _ => by decide, fun _ => by decide +kernel, fun _ => rfl⟩
      | 2 => exact ⟨rfl, fun _ => by decide, fun _ => by decide +kernel, fun _ => rfl⟩
      | t + 3 =>
          have idle : misalignedInputs (t + 3) = {} := rfl
          rw [idle]
          exact ⟨rfl, fun valid => absurd valid Bool.false_ne_true,
            fun valid => absurd valid Bool.false_ne_true,
            fun valid => absurd valid Bool.false_ne_true⟩
    · intro t second ack
      match t with
      | 0 => rfl
      | 1 => rfl
      | 2 => rfl
      | t + 3 => exact absurd ack Bool.false_ne_true
  have parsed := (realigned_parse misaligned {} misalignedInputs rfl rfl feeds).1 3
  have out : acceptedBefore {} misalignedInputs 3 = [(2, 0x12348003), (6, 0x1)] := by
    decide
  rw [out] at parsed
  exact parsed

/-- Two compressed instructions in each word. -/
def compressedPairs : Words where
  start := 0
  word := fun _ => 0x00040001
  even := rfl

/-- The entry is not shown while its upper half is taken, and shown again after that. -/
def droppedInputs (t : Nat) : Input where
  fetchEntryValid := t == 0 || t == 2
  fetchAck := true
  fetchEntry := { address := 0, instruction := 0x00040001 }

/-- The upper half of an entry that is not shown is taken, and the lower half is taken again. -/
theorem dropped_twice :
    ¬ ∀ (s : Words) (q : State) (inputs : Nat → Input), q.compressed = false →
      q.unaligned = false → (∀ t, Presents s (fedAt q inputs t).taken (inputs t)) →
        ∀ t, Parsed s (fedAt q inputs t) (acceptedBefore q inputs t) := by
  intro parses
  have presents : ∀ t, Presents compressedPairs (fedAt {} droppedInputs t).taken
      (droppedInputs t) := by
    intro t
    refine ⟨rfl, fun valid => ?_, fun _ => rfl, fun _ => rfl⟩
    have shown : t = 0 ∨ t = 2 := by simpa [droppedInputs] using valid
    have first : (fedAt {} droppedInputs t).taken = 0 := by
      rcases shown with rfl | rfl <;> decide
    rw [first]
    rfl
  have twice : acceptedBefore {} droppedInputs 3 = [(0, 0x1), (2, 0x4), (0, 0x1)] := by
    decide
  have parse := (parses compressedPairs {} droppedInputs rfl rfl presents 3).parse
  rw [twice] at parse
  exact absurd parse (by decide)

end Ariane.InstrRealigner
