import Ariane.RealignerStep

set_option autoImplicit false

/- The re-aligner on a queue of entries with predictions: what each entry becomes, and what is
still to come in a given cycle. -/
namespace Ariane.InstrRealigner

/-- The first half of an instruction with its address. -/
abbrev Rest := Option (BitVec 64 × BitVec 16)

/-- An instruction and whether it is predicted taken. -/
structure Shown where
  address : BitVec 64
  instruction : BitVec 32
  predicted : Bool
  deriving DecidableEq

namespace FrontendFetch

variable (e : FrontendFetch)

def lower : BitVec 16 := e.instruction.extractLsb' 0 16

def upper : BitVec 16 := e.instruction.extractLsb' 16 16

def upperAddress : BitVec 64 := e.address.extractLsb' 2 62 ++ 2#2

def lowerCompressed : Bool := e.instruction.extractLsb' 0 2 != 3

def upperCompressed : Bool := e.instruction.extractLsb' 16 2 != 3

/-- The entry starts at its upper half. -/
def half : Bool := e.address.getLsbD 1

/-- Something in the entry is predicted taken. -/
def predicted : Bool := e.branchPredict.valid && e.branchPredict.predictTaken

/-- The first instruction is predicted taken. -/
def firstPredicted : Bool := e.predicted && e.bpTaken.getLsbD 0

/-- The compressed instruction in the upper half. -/
def second : Shown := ⟨e.upperAddress, e.upper.setWidth 32, e.predicted⟩

/-- The upper half holds another compressed instruction that is not jumped over. -/
def more : List Shown := if e.upperCompressed && !e.firstPredicted then [e.second] else []

end FrontendFetch

/-- The instructions of an entry, after the rest of the one before. -/
def emits (r : Rest) (e : FrontendFetch) : List Shown :=
  if e.half then
    if e.upperCompressed then [⟨e.address, e.upper.setWidth 32, e.predicted⟩] else []
  else
    match r with
    | some (address, instr) =>
        ⟨address, e.lower ++ instr,
          if e.upperCompressed then e.firstPredicted else e.predicted⟩ :: e.more
    | none =>
        if e.lowerCompressed then
          ⟨e.address, e.lower.setWidth 32, e.firstPredicted⟩ :: e.more
        else [⟨e.address, e.instruction, e.predicted⟩]

/-- What an entry leaves for the next one. -/
def after (r : Rest) (e : FrontendFetch) : Rest :=
  if e.half then if e.upperCompressed then none else some (e.upperAddress, e.upper)
  else if r.isNone && !e.lowerCompressed then none
  else if e.upperCompressed || e.firstPredicted then none
  else some (e.upperAddress, e.upper)

/-- The instructions of a queue of entries. -/
def stream : Rest → List FrontendFetch → List Shown
  | _, [] => []
  | r, e :: rest => emits r e ++ stream (after r e) rest

/-- What a queue of entries leaves. -/
def final (r : Rest) (held : List FrontendFetch) : Rest := held.foldl after r

theorem emits_length (r : Rest) (e : FrontendFetch) : (emits r e).length ≤ 2 := by
  have few : e.more.length ≤ 1 := by
    rw [FrontendFetch.more]
    split <;> simp
  unfold emits
  split
  · split <;> simp
  · split
    · simpa using few
    · split <;> simp [few]

theorem stream_append (r : Rest) (held : List FrontendFetch) (e : FrontendFetch) :
    stream r (held ++ [e]) = stream r held ++ emits (final r held) e := by
  induction held generalizing r with
  | nil => simp [stream, final]
  | cons x rest ih =>
      have tail := ih (after r x)
      simp only [List.cons_append, stream, tail, List.append_assoc]
      rfl

theorem final_append (r : Rest) (held : List FrontendFetch) (e : FrontendFetch) :
    final r (held ++ [e]) = after (final r held) e := by
  simp [final]

/-- The first half that the registers keep. -/
def rest (q : State) : Rest :=
  if q.unaligned then some (q.unalignedAddress, q.unalignedInstr) else none

/-- What the outputs show. -/
def shownBy (o : Output) : Shown :=
  ⟨o.entry.address, o.entry.instruction,
    o.entry.branchPredict.valid && o.entry.branchPredict.predictTaken⟩

def shown (q : State) (i : Input) : Shown := shownBy (realignInstr q i)

/-- What the block does with an entry that shows `out`. -/
structure Treats (q : State) (i : Input) (out : List Shown) (left : Rest) : Prop where
  valid : (aligned q i).valid = !out.isEmpty
  jump : (aligned q i).jumpUnalignedHalfWord = out.isEmpty
  shows : ∀ x more, out = x :: more → shownBy (aligned q i) = x
  /-- One instruction or none: the entry is used up. -/
  last : out.length ≤ 1 → (aligned q i).ack = (i.fetchAck || out.isEmpty) ∧
    rest (aligned q i).regs = left ∧ (aligned q i).regs.compressed = false
  /-- Two instructions: the entry stays for the second one. -/
  first : ∀ x y, out = [x, y] → y = i.fetchEntry.second ∧ (aligned q i).ack = false ∧
    (aligned q i).regs.compressed = true ∧ rest (aligned q i).regs = none ∧ left = none

/-- A prediction that is not for the first instruction is taken off it. -/
theorem shownBy_kill (i : Input) (o : Output) (kept : killUpper16Bit i = false)
    (same : o.entry.branchPredict = i.fetchEntry.branchPredict) :
    shownBy (killLowerPrediction i o) = ⟨o.entry.address, o.entry.instruction, false⟩ := by
  simp only [killUpper16Bit] at kept
  simp only [killLowerPrediction, shownBy]
  split
  · simp
  · next other =>
      simp only [same, Shown.mk.injEq, true_and]
      grind

/-- A prediction for the first instruction stays. -/
theorem killLowerPrediction_kept (i : Input) (o : Output) (taken : killUpper16Bit i = true) :
    killLowerPrediction i o = o := by
  simp only [killUpper16Bit, Bool.and_eq_true] at taken
  simp only [killLowerPrediction, taken, Bool.not_true, Bool.and_false]
  rfl

section Cases

variable {q : State} {i : Input} (valid : i.fetchEntryValid = true) (first : q.compressed = false)
include valid first

theorem treats_half (half : i.fetchEntry.half = true) :
    Treats q i (emits (rest q) i.fetchEntry) (after (rest q) i.fetchEntry) := by
  have out := aligned_half valid first half
  have upper : i.fetchEntry.upperCompressed = upperCompressed i := rfl
  rw [halfWordBoundary] at out
  simp only [emits, after, half, ↓reduceIte, upper]
  cases short : upperCompressed i with
  | true =>
      rw [short, if_pos rfl] at out
      constructor
      · simp [out, defaults, valid]
      · simp [out, defaults]
      · intro x more here
        rw [out]
        simp only [↓reduceIte, List.cons.injEq] at here
        rw [← here.1]
        rfl
      · simp [out, defaults, rest, first]
      · simp
  | false =>
      rw [short, if_neg Bool.false_ne_true] at out
      constructor
      · simp [out]
      · simp [out]
      · simp
      · simp only [out, rest, saveUpper, defaults, first]
        simp
        exact ⟨rfl, rfl⟩
      · simp

/-- The entry completes an instruction. -/
theorem treats_rest (word : i.fetchEntry.half = false) (split : q.unaligned = true) :
    Treats q i (emits (rest q) i.fetchEntry) (after (rest q) i.fetchEntry) := by
  have out := aligned_outstanding valid first word split
  have upper : i.fetchEntry.upperCompressed = upperCompressed i := rfl
  have kill : i.fetchEntry.firstPredicted = killUpper16Bit i := rfl
  have saved : rest q = some (q.unalignedAddress, q.unalignedInstr) := if_pos split
  rw [outstanding] at out
  simp only [emits, after, saved, word, FrontendFetch.more, upper, kill, Option.isNone_some]
  cases killed : killUpper16Bit i with
  | true =>
      have taken := killed
      simp only [killUpper16Bit, Bool.and_eq_true] at taken
      have predicted : i.fetchEntry.predicted = true := by
        simp [FrontendFetch.predicted, taken]
      rw [killed, taken.1.1] at out
      constructor <;> simp [out, defaults, valid, shownBy, rest, first, predicted, taken] <;> rfl
  | false =>
      rw [killed] at out
      cases short : upperCompressed i with
      | true =>
          rw [short] at out
          constructor <;> simp [out, defaults, valid, rest]
          exact shownBy_kill i _ killed rfl
      | false =>
          rw [short] at out
          constructor <;> simp [out, defaults, valid, rest, saveUpper, shownBy, first] <;>
            exact ⟨rfl, rfl⟩

/-- The entry starts with an instruction. -/
theorem treats_word (word : i.fetchEntry.half = false) (fresh : q.unaligned = false) :
    Treats q i (emits (rest q) i.fetchEntry) (after (rest q) i.fetchEntry) := by
  have out := aligned_word valid first word fresh
  have upper : i.fetchEntry.upperCompressed = upperCompressed i := rfl
  have lower : i.fetchEntry.lowerCompressed = lowerCompressed i := rfl
  have kill : i.fetchEntry.firstPredicted = killUpper16Bit i := rfl
  have none : rest q = none := by simp [rest, fresh]
  rw [wordBoundary] at out
  simp only [emits, after, none, word, FrontendFetch.more, upper, lower, kill, Option.isNone_none]
  cases long : lowerCompressed i with
  | false =>
      rw [long] at out
      constructor <;> simp [out, defaults, valid, shownBy, rest, first] <;> rfl
  | true =>
      rw [long] at out
      cases killed : killUpper16Bit i with
      | true =>
          have taken := killed
          simp only [killUpper16Bit, Bool.and_eq_true] at taken
          rw [killed] at out
          constructor <;>
            simp [out, defaults, valid, shownBy, rest, first, killLowerPrediction_kept i _ killed,
              taken] <;> rfl
      | false =>
          rw [killed] at out
          cases short : upperCompressed i with
          | true =>
              rw [short] at out
              constructor <;> simp [out, defaults, valid, rest]
              exact shownBy_kill i _ killed rfl
          | false =>
              rw [short] at out
              constructor <;> simp [out, defaults, valid, rest, saveUpper, first]
              · exact shownBy_kill i _ killed rfl
              · exact ⟨rfl, rfl⟩

/-- Every entry becomes its instructions. -/
theorem treats : Treats q i (emits (rest q) i.fetchEntry) (after (rest q) i.fetchEntry) := by
  cases half : i.fetchEntry.half with
  | true => exact treats_half valid first half
  | false =>
      cases split : q.unaligned with
      | true => exact treats_rest valid first half split
      | false => exact treats_word valid first half split

end Cases

/-- What is still to come of the entries that are held. -/
def pending (q : State) (held : List FrontendFetch) : List Shown :=
  if q.compressed then
    match held with
    | [] => []
    | e :: more => e.second :: stream none more
  else stream (rest q) held

/-- What the entries that are held leave. -/
def leaves (q : State) (held : List FrontendFetch) : Rest :=
  if q.compressed then final none held.tail else final (rest q) held

/-- Between the two instructions of an entry the entry is still there. -/
structure Serves (q : State) (held : List FrontendFetch) : Prop where
  held : q.compressed = true → held ≠ []
  whole : q.compressed = true → rest q = none

section Append

variable {q : State} {held : List FrontendFetch} (serves : Serves q held) (e : FrontendFetch)
include serves

/-- A new entry waits behind the others. -/
theorem pending_append : pending q (held ++ [e]) = pending q held ++ emits (leaves q held) e := by
  cases second : q.compressed with
  | false => simp [pending, leaves, second, stream_append]
  | true =>
      obtain ⟨x, more, rfl⟩ := List.exists_cons_of_ne_nil (serves.held second)
      simp [pending, leaves, second, stream_append]

theorem leaves_append : leaves q (held ++ [e]) = after (leaves q held) e := by
  cases second : q.compressed with
  | false => simp [leaves, second, final_append]
  | true =>
      obtain ⟨x, more, rfl⟩ := List.exists_cons_of_ne_nil (serves.held second)
      simp [leaves, second, final_append]

theorem serves_append : Serves q (held ++ [e]) := by
  constructor
  · simp
  · exact serves.whole

end Append

/-- The inputs show the first entry that is held. -/
structure ShowsFirst (held : List FrontendFetch) (i : Input) : Prop where
  running : i.flush = false
  valid : i.fetchEntryValid = !held.isEmpty
  entry : ∀ e more, held = e :: more → i.fetchEntry = e

/-- One cycle hands out the next instruction or waits, and loses nothing. -/
structure Advanced (q : State) (i : Input) (held : List FrontendFetch) : Prop where
  pending : pending q held = (if accepted q i then [shown q i] else []) ++
    pending (next q i) (if consumed q i then held.tail else held)
  leaves : leaves q held = leaves (next q i) (if consumed q i then held.tail else held)
  serves : Serves (next q i) (if consumed q i then held.tail else held)

section Step

variable {q : State} {i : Input} {held : List FrontendFetch}

theorem shown_eq : shown q i = shownBy (aligned q i) := by
  rw [shown, realignInstr, flushed, stable]
  split <;> split <;> rfl

theorem accepted_eq : accepted q i = ((aligned q i).valid && i.fetchAck) := by
  rw [accepted, realignInstr_valid]

theorem consumed_eq : consumed q i = (i.fetchEntryValid && (aligned q i).ack) := by
  rw [consumed, realignInstr_ack]

/-- Without an entry nothing happens. -/
theorem advanced_empty (first : q.compressed = false) (shows : ShowsFirst [] i) :
    Advanced q i [] := by
  have none : i.fetchEntryValid = false := by rw [shows.valid]; rfl
  have out : aligned q i = defaults q i := by simp [aligned, none, first]
  have stays : next q i = q := by
    rw [next_eq q i shows.running, out]
    simp [defaults]
  have idle : accepted q i = false := by simp [accepted_eq, out, defaults, none]
  have keeps : consumed q i = false := by simp [consumed_eq, none]
  constructor
  · simp [idle, keeps, stays]
  · simp [keeps, stays]
  · simp only [keeps, stays]
    constructor <;> simp [first]

variable {e : FrontendFetch} {more : List FrontendFetch}

/-- The second instruction of an entry. -/
theorem advanced_second (second : q.compressed = true) (serves : Serves q (e :: more))
    (shows : ShowsFirst (e :: more) i) : Advanced q i (e :: more) := by
  have entry := shows.entry e more rfl
  have valid : i.fetchEntryValid = true := by rw [shows.valid]; rfl
  have whole := serves.whole second
  have out : aligned q i = nextCompressed i (defaults q i) := by simp [aligned, second]
  have here : shown q i = e.second := by
    rw [shown_eq, out, ← entry]
    rfl
  have takes : accepted q i = i.fetchAck := by simp [accepted_eq, out, nextCompressed]
  have drops : consumed q i = i.fetchAck := by simp [consumed_eq, out, nextCompressed, valid]
  have regs := next_eq q i shows.running
  rw [out] at regs
  cases ack : i.fetchAck with
  | false =>
      have stays : next q i = q := by simpa [ack, nextCompressed, defaults] using regs
      constructor
      · simp [takes, drops, ack, stays]
      · simp [drops, ack, stays]
      · simpa [drops, ack, stays] using serves
  | true =>
      have moves : next q i = { q with compressed := false } := by
        simpa [ack, nextCompressed, defaults] using regs
      have left : rest (next q i) = none := by simpa [moves, rest] using whole
      have done : (next q i).compressed = false := by rw [moves]
      constructor
      · simp [pending, second, takes, drops, ack, done, left, here]
      · simp [leaves, second, drops, ack, done, left]
      · simp only [drops, ack]
        constructor <;> simp [done]

/-- The first instruction of an entry, if there is one. -/
theorem advanced_first (first : q.compressed = false) (shows : ShowsFirst (e :: more) i) :
    Advanced q i (e :: more) := by
  have entry := shows.entry e more rfl
  have valid : i.fetchEntryValid = true := by rw [shows.valid]; rfl
  have treats := treats valid first
  rw [entry] at treats
  have regs := next_eq q i shows.running
  have takes := accepted_eq (q := q) (i := i)
  have drops := consumed_eq (q := q) (i := i)
  have here := shown_eq (q := q) (i := i)
  rw [valid, Bool.true_and] at drops
  rw [treats.valid] at takes
  rw [treats.jump] at regs
  match out : emits (rest q) e with
  | [] =>
      obtain ⟨ack, left, done⟩ := treats.last (by simp [out])
      simp only [out, List.isEmpty_nil, Bool.or_true, ↓reduceIte, Bool.not_true,
        Bool.false_and] at ack regs takes
      rw [ack] at drops
      constructor
      · simp [pending, first, takes, drops, stream, out, regs, done, left]
      · simp [leaves, first, drops, regs, done, left, final]
      · simp only [drops, regs]
        constructor <;> simp [done]
  | [x] =>
      obtain ⟨ack, left, done⟩ := treats.last (by simp [out])
      have shows := treats.shows x [] out
      simp only [out, List.isEmpty_cons, Bool.or_false, Bool.not_false, Bool.true_and]
        at ack regs takes
      rw [ack] at drops
      cases taken : i.fetchAck with
      | false =>
          simp only [taken, Bool.false_eq_true, ↓reduceIte] at regs
          constructor
          · simp [takes, drops, taken, regs]
          · simp [drops, taken, regs]
          · simp only [drops, taken, regs]
            constructor <;> simp [first]
      | true =>
          simp only [taken, ↓reduceIte] at regs
          constructor
          · simp [pending, first, takes, drops, taken, stream, out, regs, done, left, here, shows]
          · simp [leaves, first, drops, taken, regs, done, left, final]
          · simp only [drops, taken, regs]
            constructor <;> simp [done]
  | [x, y] =>
      obtain ⟨same, ack, second, whole, none⟩ := treats.first x y out
      rw [entry] at same
      have shows := treats.shows x [y] out
      simp only [out, List.isEmpty_cons, Bool.or_false, Bool.not_false, Bool.true_and]
        at regs takes
      rw [ack] at drops
      cases taken : i.fetchAck with
      | false =>
          simp only [taken, Bool.false_eq_true, ↓reduceIte] at regs
          constructor
          · simp [takes, drops, taken, regs]
          · simp [drops, regs]
          · simp only [drops, regs]
            constructor <;> simp [first]
      | true =>
          simp only [taken, ↓reduceIte] at regs
          constructor
          · simp [pending, first, takes, drops, taken, stream, out, regs, second, here, shows,
              none, same]
          · simp [leaves, first, drops, regs, second, final, none]
          · simp only [drops, regs]
            constructor <;> simp [whole]
  | x :: y :: z :: others =>
      have few := emits_length (rest q) e
      rw [out] at few
      simp at few

theorem advanced (serves : Serves q held) (shows : ShowsFirst held i) : Advanced q i held := by
  cases second : q.compressed with
  | true =>
      obtain ⟨e, more, rfl⟩ := List.exists_cons_of_ne_nil (serves.held second)
      exact advanced_second second serves shows
  | false =>
      cases held with
      | nil => exact advanced_empty second shows
      | cons e more => exact advanced_first second shows

end Step

end Ariane.InstrRealigner
