import Ariane.WriteBufferTags

set_option autoImplicit false

/- The data banks of `serpent_dcache_mem.sv`: the reads of the ports, the line write of the miss unit
and the single word write share them. -/
namespace Ariane.DataArray

open RrArbiter (anyBit)
open WriteBuffer (Bytes Data Geometry LineIndex TagInput TagState rdAck rdAcked rdReqMasked vldSelD)

variable {g : Geometry} {n : Nat} [NeZero n]

/-- The index of a word in its line, and of the bank that holds it. -/
abbrev WordIndex (g : Geometry) := BitVec (g.offsetWidth - 3)

/-- The words of all banks. -/
abbrev Banks (g : Geometry) := WordIndex g → LineIndex g → Fin g.ways → Data

/-- The registers, with the banks and their outputs. -/
structure State (g : Geometry) (n : Nat) [NeZero n] extends TagState g n where
  banks : Banks g
  bankRdata : WordIndex g → Fin g.ways → Data := fun _ _ _ => 0
  /-- `bank_off_q` above the byte offset. -/
  bankOff : WordIndex g := 0

/-- The inputs of one cycle. -/
structure Input (g : Geometry) (n : Nat) extends TagInput g n where
  rdOff : Fin n → WordIndex g := fun _ => 0
  rdTagOnly : Fin n → Bool := fun _ => false
  wrClOff : WordIndex g := 0
  wrClData : WordIndex g → Data := fun _ _ => 0
  wrClDataBe : WordIndex g → Bytes := fun _ _ => false
  wrReq : Fin g.ways → Bool := fun _ => false
  wrIdx : LineIndex g := 0
  wrOff : WordIndex g := 0
  wrData : Data := fun _ => 0
  wrDataBe : Bytes := fun _ => false

section Cycle

variable (s : State g n) (i : Input g n)

/-- The miss unit writes at least one way. -/
def lineWrite : Bool := i.wrClVld && anyBit i.wrClWe

/-- The port that the arbiter selects. -/
def selected : Fin n := vldSelD s.toTagState i.toTagInput

/-- The selected port reads a word. -/
def wordRead : Bool := rdAcked i.toTagInput && !i.rdTagOnly (selected s i)

def bankCollision (k : Fin n) : Bool := i.rdOff k == i.wrOff

/-- `wr_ack_o`. -/
def wrAck : Bool :=
  !lineWrite i && anyBit i.wrReq &&
    (i.rdTagOnly (selected s i) ||
      !(rdAck s.toTagState i.toTagInput (selected s i) && bankCollision i (selected s i)))

def bankReq (k : WordIndex g) : Bool :=
  lineWrite i || (wordRead s i && k == i.rdOff (selected s i)) || (wrAck s i && k == i.wrOff)

def bankWe (k : WordIndex g) : Bool := lineWrite i || (wrAck s i && k == i.wrOff)

def bankIdx (k : WordIndex g) : LineIndex g :=
  if lineWrite i then i.wrClIdx
  else if wordRead s i && k == i.rdOff (selected s i) then i.rdIdx (selected s i)
  else i.wrIdx

def bankBe (k : WordIndex g) (j : Fin g.ways) : Bytes :=
  if i.wrClWe j && i.wrClVld then i.wrClDataBe k
  else if i.wrReq j && wrAck s i then i.wrDataBe
  else fun _ => false

def bankWdata (k : WordIndex g) : Data := if i.wrClVld then i.wrClData k else i.wrData

/-- The banks after the cycle. -/
def nextBanks : Banks g := fun k idx j b =>
  if bankReq s i k && bankWe s i k && idx == bankIdx s i k && bankBe s i k j b then
    bankWdata i k b
  else s.banks k idx j b

def next : State g n where
  toTagState := s.toTagState.next i.toTagInput
  banks := nextBanks s i
  bankRdata := fun k j => if bankReq s i k then s.banks k (bankIdx s i k) j else s.bankRdata k j
  bankOff := if i.wrClVld then i.wrClOff else i.rdOff (selected s i)

/-- `rdata_cl`. -/
def rdataCl (j : Fin g.ways) : Data := s.bankRdata s.bankOff j

end Cycle

/-- What the requesters may rely on in one cycle. -/
structure Law (s : State g n) (i : Input g n) : Prop where
  /-- A single word write changes its bytes. -/
  word : wrAck s i = true → ∀ k idx j b, (next s i).banks k idx j b =
    if k = i.wrOff ∧ idx = i.wrIdx ∧ i.wrReq j = true ∧ i.wrDataBe b = true then i.wrData b
    else s.banks k idx j b
  /-- A line write changes its bytes. -/
  line : lineWrite i = true → ∀ k idx j b, (next s i).banks k idx j b =
    if idx = i.wrClIdx ∧ i.wrClWe j = true ∧ i.wrClDataBe k b = true then i.wrClData k b
    else s.banks k idx j b
  kept : wrAck s i = false → lineWrite i = false → (next s i).banks = s.banks
  /-- A read returns the word of its own address in every way. -/
  read : ∀ p, rdAck s.toTagState i.toTagInput p = true → i.rdTagOnly p = false →
    ∀ j, rdataCl (next s i) j = s.banks (i.rdOff p) (i.rdIdx p) j

/-- Where the miss unit returns a word without a line write, a single word write that comes with it
writes the same bytes. -/
def Undisturbed (i : Input g n) : Prop :=
  i.wrClVld = true → anyBit i.wrClWe = false → anyBit i.wrReq = true →
    ∀ b, i.wrDataBe b = true → i.wrClData i.wrOff b = i.wrData b

section Spec

variable {s : State g n} {i : Input g n}

theorem no_read (served : i.wrClVld = true) :
    rdAcked i.toTagInput = false ∧ ∀ p, rdAck s.toTagState i.toTagInput p = false := by
  constructor
  · rw [rdAcked, RrArbiter.vld, served]
    exact Bool.and_false _
  · intro p
    by_contra acked
    rw [Bool.not_eq_false] at acked
    have enabled := (RrArbiter.idx_of_ack acked).2.1
    rw [served] at enabled
    exact absurd enabled (by decide)

theorem rdAck_of_wordRead (reads : wordRead s i = true) :
    rdAck s.toTagState i.toTagInput (selected s i) = true ∧ i.rdTagOnly (selected s i) = false := by
  rw [wordRead, Bool.and_eq_true, Bool.not_eq_true'] at reads
  exact ⟨RrArbiter.ack_idx reads.1, reads.2⟩

/-- A word write that is acknowledged has its bank for itself. -/
theorem alone (acked : wrAck s i = true) :
    lineWrite i = false ∧ ¬(wordRead s i = true ∧ i.rdOff (selected s i) = i.wrOff) := by
  rw [wrAck, Bool.and_eq_true, Bool.and_eq_true, Bool.not_eq_true'] at acked
  obtain ⟨⟨quiet, -⟩, apart⟩ := acked
  refine ⟨quiet, ?_⟩
  rintro ⟨reads, same⟩
  obtain ⟨port, word⟩ := rdAck_of_wordRead reads
  rw [word, port, bankCollision, same, beq_self_eq_true] at apart
  exact absurd apart (by decide)

/-- What a word write stores: its bytes, of the word that the data multiplexer selects. -/
theorem nextBanks_of_wrAck (acked : wrAck s i = true) (k : WordIndex g) (idx : LineIndex g)
    (j : Fin g.ways) (b : Fin 8) :
    nextBanks s i k idx j b =
      if k = i.wrOff ∧ idx = i.wrIdx ∧ i.wrReq j = true ∧ i.wrDataBe b = true then
        bankWdata i k b
      else s.banks k idx j b := by
  obtain ⟨quiet, apart⟩ := alone acked
  have noLine : (i.wrClWe j && i.wrClVld) = false := by
    rw [lineWrite, Bool.and_eq_false_iff, RrArbiter.anyBit_eq_false] at quiet
    rcases quiet with idle | none
    · rw [idle, Bool.and_false]
    · rw [none j, Bool.false_and]
  have be : bankBe s i k j b = (i.wrReq j && i.wrDataBe b) := by
    rw [bankBe, noLine, acked, Bool.and_true, if_neg Bool.false_ne_true]
    cases i.wrReq j <;> rfl
  rw [nextBanks, bankReq, bankWe, be, acked, quiet, Bool.false_or, Bool.false_or, Bool.true_and]
  by_cases here : k = i.wrOff
  · have index : bankIdx s i k = i.wrIdx := by
      rw [bankIdx, quiet, if_neg Bool.false_ne_true]
      apply if_neg
      rw [Bool.and_eq_true, beq_iff_eq]
      exact fun reads => apart ⟨reads.1, reads.2.symm.trans here⟩
    rw [index, here, beq_self_eq_true, Bool.or_true, Bool.true_and, Bool.true_and]
    congr 1
    rw [Bool.and_eq_true, Bool.and_eq_true, beq_iff_eq, eq_self_iff_true, true_and]
  · rw [beq_eq_false_iff_ne.mpr here, Bool.and_false, Bool.false_and, Bool.false_and,
      if_neg Bool.false_ne_true, if_neg (fun all => here all.1)]

theorem nextBanks_of_lineWrite (line : lineWrite i = true) (k : WordIndex g) (idx : LineIndex g)
    (j : Fin g.ways) (b : Fin 8) :
    nextBanks s i k idx j b =
      if idx = i.wrClIdx ∧ i.wrClWe j = true ∧ i.wrClDataBe k b = true then i.wrClData k b
      else s.banks k idx j b := by
  have served : i.wrClVld = true := (Bool.and_eq_true _ _ ▸ line).1
  have none : wrAck s i = false := by rw [wrAck, line]; rfl
  rw [nextBanks, bankReq, bankWe, bankIdx, bankBe, bankWdata, none, line, served, if_pos rfl,
    if_pos rfl, Bool.and_true, Bool.and_false]
  cases i.wrClWe j <;> simp

theorem nextBanks_kept (none : wrAck s i = false) (quiet : lineWrite i = false) :
    nextBanks s i = s.banks := by
  funext k idx j b
  rw [nextBanks, bankWe, none, quiet, Bool.false_and, Bool.or_false, Bool.and_false,
    Bool.false_and, Bool.false_and, if_neg Bool.false_ne_true]

theorem rdataCl_of_rdAck {p : Fin n} (acked : rdAck s.toTagState i.toTagInput p = true)
    (word : i.rdTagOnly p = false) (j : Fin g.ways) :
    rdataCl (next s i) j = s.banks (i.rdOff p) (i.rdIdx p) j := by
  obtain ⟨port, enabled, any⟩ := RrArbiter.idx_of_ack acked
  have port : selected s i = p := port
  rw [Bool.not_eq_true'] at enabled
  have reads : wordRead s i = true := by
    rw [wordRead, rdAcked, RrArbiter.vld, any, enabled, port, word]
    rfl
  have quiet : lineWrite i = false := by rw [lineWrite, enabled, Bool.false_and]
  have bank : (next s i).bankOff = i.rdOff p := by
    show (if i.wrClVld = true then _ else _) = _
    rw [enabled, if_neg Bool.false_ne_true, port]
  have request : bankReq s i (i.rdOff p) = true := by
    rw [bankReq, reads, port, beq_self_eq_true, Bool.and_true, Bool.or_true, Bool.true_or]
  have index : bankIdx s i (i.rdOff p) = i.rdIdx p := by
    rw [bankIdx, quiet, reads, port, beq_self_eq_true]
    rfl
  rw [rdataCl, bank]
  show (if bankReq s i (i.rdOff p) = true then _ else _) = _
  rw [request, if_pos rfl, index]

/-- A word write that comes with a return to the miss unit is acknowledged. -/
theorem wrAck_of_return (served : i.wrClVld = true) (none : anyBit i.wrClWe = false)
    (write : anyBit i.wrReq = true) : wrAck s i = true := by
  rw [wrAck, lineWrite, none, write, no_read served |>.2, Bool.and_false, Bool.false_and,
    Bool.not_false, Bool.or_true]
  rfl

theorem bankWdata_of_undisturbed (acked : wrAck s i = true) (undisturbed : Undisturbed i)
    {b : Fin 8} (be : i.wrDataBe b = true) : bankWdata i i.wrOff b = i.wrData b := by
  rw [bankWdata]
  cases served : i.wrClVld with
  | false => rfl
  | true =>
      have quiet := (alone acked).1
      rw [lineWrite, served, Bool.true_and] at quiet
      rw [wrAck, Bool.and_eq_true, Bool.and_eq_true] at acked
      exact undisturbed served quiet acked.1.2 b be

/-- The data array follows its law in exactly the cycles without a word write that takes the data of
a return. -/
theorem law_iff (s : State g n) (i : Input g n) : Law s i ↔ Undisturbed i := by
  constructor
  · intro law served none write b be
    obtain ⟨j, way⟩ := (RrArbiter.anyBit_iff _).mp write
    have acked : wrAck s i = true := wrAck_of_return served none write
    have stored := law.word acked i.wrOff i.wrIdx j b
    have really := nextBanks_of_wrAck acked i.wrOff i.wrIdx j b
    rw [if_pos ⟨rfl, rfl, way, be⟩] at stored really
    have same : bankWdata i i.wrOff b = i.wrData b := really.symm.trans stored
    rw [bankWdata, served, if_pos rfl] at same
    exact same
  · intro undisturbed
    refine ⟨?_, nextBanks_of_lineWrite, nextBanks_kept, fun p => rdataCl_of_rdAck⟩
    intro acked k idx j b
    show nextBanks s i k idx j b = _
    rw [nextBanks_of_wrAck acked]
    split
    · next all =>
        obtain ⟨rfl, -, -, be⟩ := all
        exact bankWdata_of_undisturbed acked undisturbed be
    · rfl

/-- Lines of two words and a way. -/
abbrev small : Geometry where
  tagWidth := 1
  indexWidth := 5
  offsetWidth := 4
  ways := 1
  depth := 2
  maxTx := 2
  cachedAddrBeg := 0
  cachedAddrEnd := 0
  entries := Nat.le_of_ble_eq_true rfl
  slots := Nat.le_of_ble_eq_true rfl
  words := Nat.le_of_ble_eq_true rfl
  lines := Nat.le_of_ble_eq_true rfl
  fits := Nat.le_of_ble_eq_true rfl

/-- A word write while the miss unit is idle and a port reads. -/
def reading : Input small 3 where
  rdReq := fun _ => true
  wrReq := fun _ => true
  wrOff := 1
  wrData := fun _ => 255
  wrDataBe := fun _ => true

theorem law_reading : Law ({ tags := fun _ _ => {}, banks := fun _ _ _ _ => 0 } : State small 3)
    reading :=
  (law_iff _ _).mpr fun served => absurd served Bool.false_ne_true

/-- An uncached load returns zero while the write buffer stores all ones. -/
def returned : Input small 3 where
  wrClVld := true
  wrReq := fun _ => true
  wrData := fun _ => 255
  wrDataBe := fun _ => true

/-- The write of that cycle stores the word of the load. -/
theorem law_broken : ¬ Law ({ tags := fun _ _ => {}, banks := fun _ _ _ _ => 0 } : State small 3)
    returned := by
  intro law
  have acked : wrAck ({ tags := fun _ _ => {}, banks := fun _ _ _ _ => 0 } : State small 3)
      returned = true := wrAck_of_return rfl rfl rfl
  have stored := law.word acked 0 0 0 0
  exact absurd stored (by decide)

end Spec

end Ariane.DataArray
