import Ariane.FetchCredits
import Ariane.RealignedEntries

set_option autoImplicit false

/- The front end scans the words for control transfers, and `instr_realigner` splits the same
words later. Both see the same instructions with the same predictions. -/
namespace Ariane.Frontend

open Rtl (Machine)
open InstrRealigner (Shown Rest emits after stream final rest pending leaves Serves shown)

/-- What the re-aligner takes of an entry. -/
def FrontendFetch.toRealigner (e : FrontendFetch) : InstrRealigner.FrontendFetch where
  address := e.address
  instruction := e.instruction
  branchPredict := ⟨e.branchPredict.valid, e.branchPredict.predictTaken⟩
  bpTaken := e.bpTaken
  pageFault := e.pageFault

/-- `re_align` puts an instruction into the second slot. -/
def fillsSecond (u : Unaligned) (w : Word) : Bool :=
  w.upperCompressed && (u.unaligned || w.lowerCompressed)

/-- The instruction in the first slot. `instr[0]` holds more than a compressed one, but the
scanner takes a compressed instruction from the lower half. -/
def firstInstr (u : Unaligned) (w : Word) : BitVec 32 :=
  if !u.unaligned && w.lowerCompressed then
    ((realign u w).instr0.extractLsb' 0 16).setWidth 32
  else (realign u w).instr0

/-- The instructions that are looked at, each with its prediction: those after a taken one are
not, and neither is the lower half of a word that is fetched from its upper half on. -/
def scanned (u : Unaligned) (w : Word) (d : Decision) : List Shown :=
  let r := realign u w
  if r.instructionValid then
    (if w.half then [] else [⟨r.addr0, firstInstr u w, d.taken1⟩]) ++
      if !d.taken1 && fillsSecond u w then [⟨r.addr1, r.instr1, d.taken2⟩] else []
  else []

section Upper

variable [Immediates]

/-- The lower half is a compressed jump, or a compressed branch that is predicted taken. -/
def lowerTaken (p : Predictions) (w : Word) : Bool :=
  let sc := instrScan w.data
  sc.rvcJump || sc.rvcBranch &&
    if p.bhtValid then p.bhtTaken || p.bhtStronglyTaken else sc.rvcImm.getLsbD 63

/-- The upper half is a compressed jump or branch. -/
def upperTransfers (w : Word) : Bool :=
  let sc := instrScan (w.upper.setWidth 32)
  sc.rvcJump || sc.rvcBranch

/-- The lower half of a word that is fetched from a compressed upper half on looks compressed
itself, and is no taken transfer unless the upper half is a transfer too. -/
def Clean (p : Predictions) (w : Word) : Prop :=
  w.half = true → w.upperCompressed = true →
    w.lowerCompressed = true ∧ (lowerTaken p w = true → upperTransfers w = true)

instance decidableClean (p : Predictions) (w : Word) : Decidable (Clean p w) :=
  inferInstanceAs (Decidable (_ → _ → _))

/-- The prediction that the upper half deserves by itself. -/
def upperPrediction (p : Predictions) (w : Word) : Ctrl :=
  predictSlot p (instrScan (w.upper.setWidth 32)) w.upperAddress {}

end Upper

section Slots

variable (p : Predictions) (sc : Scan) (addr : BitVec 64) (c c' : Ctrl)

/-- Two states of the loop that agree on what is taken. -/
structure Alike : Prop where
  taken : c.taken = c'.taken
  rvi : c.takeRviCf = c'.takeRviCf
  rvc : c.takeRvcCf = c'.takeRvcCf
  address : c.taken = true → c.bpVaddr = c'.bpVaddr

variable {c c'}

theorem Alike.jalr (alike : Alike c c') : Alike (predictJalr p sc c) (predictJalr p sc c') := by
  obtain ⟨taken, rvi, rvc, address⟩ := alike
  simp only [predictJalr]
  split
  · split
    · constructor <;> simp [*]
    · exact ⟨taken, rvi, rvc, address⟩
  · exact ⟨taken, rvi, rvc, address⟩

theorem Alike.returns (alike : Alike c c') :
    Alike (predictReturn p sc c) (predictReturn p sc c') := by
  obtain ⟨taken, rvi, rvc, address⟩ := alike
  simp only [predictReturn]
  split
  · constructor <;> simp [*]
  · exact ⟨taken, rvi, rvc, address⟩

theorem Alike.takesRvi (alike : Alike c c') : Alike (takeRvi sc addr c) (takeRvi sc addr c') := by
  obtain ⟨taken, rvi, rvc, address⟩ := alike
  simp only [takeRvi, rvi]
  split
  · constructor <;> simp [*]
  · exact ⟨taken, rvi, rvc, address⟩

theorem Alike.takesRvc (alike : Alike c c') : Alike (takeRvc sc addr c) (takeRvc sc addr c') := by
  obtain ⟨taken, rvi, rvc, address⟩ := alike
  simp only [takeRvc, rvc]
  split
  · constructor <;> simp [*]
  · exact ⟨taken, rvi, rvc, address⟩

/-- A slot predicts the same whatever came before it, if it decides itself or nothing was to be
taken. -/
theorem predictSlot_alike (same : (c.takeRviCf = c'.takeRviCf ∧ c.takeRvcCf = c'.takeRvcCf) ∨
    (sc.rviBranch || sc.rvcBranch || sc.rviJump || sc.rvcJump) = true) :
    Alike (predictSlot p sc addr c) (predictSlot p sc addr c') := by
  have start : Alike (predictJump sc (predictBranch p sc (predictCall sc addr c)))
      (predictJump sc (predictBranch p sc (predictCall sc addr c'))) := by
    simp only [predictJump, predictBranch, predictCall]
    cases jumps : (sc.rviJump || sc.rvcJump) with
    | true =>
        cases branches : (sc.rviBranch || sc.rvcBranch) <;> constructor <;> simp
    | false =>
        cases branches : (sc.rviBranch || sc.rvcBranch) with
        | true => constructor <;> simp
        | false =>
            rcases same with ⟨rvi, rvc⟩ | decides
            · constructor <;> simp [rvi, rvc]
            · rw [branches, Bool.false_or, jumps] at decides
              contradiction
  exact (((start.jalr p sc).returns p sc).takesRvi sc addr).takesRvc sc addr

/-- What is to be taken is taken. -/
theorem predictSlot_takes (untaken : (predictSlot p sc addr c).taken = false) :
    (predictSlot p sc addr c).takeRviCf = false ∧ (predictSlot p sc addr c).takeRvcCf = false := by
  simp only [predictSlot, takeRvc, takeRvi] at untaken ⊢
  generalize predictReturn p sc _ = before at untaken ⊢
  by_cases rvi : before.takeRviCf = true
  · by_cases rvc : before.takeRvcCf = true <;> simp [rvi, rvc] at untaken
  · by_cases rvc : before.takeRvcCf = true
    · simp [rvi, rvc] at untaken
    · simp [rvi, rvc]

/-- The later stages of the loop leave open what is to be taken. -/
theorem predictSlot_flags :
    (predictSlot p sc addr c).takeRviCf =
        (predictJump sc (predictBranch p sc (predictCall sc addr c))).takeRviCf ∧
      (predictSlot p sc addr c).takeRvcCf =
        (predictJump sc (predictBranch p sc (predictCall sc addr c))).takeRvcCf := by
  have jalr (c : Ctrl) : (predictJalr p sc c).takeRviCf = c.takeRviCf ∧
      (predictJalr p sc c).takeRvcCf = c.takeRvcCf := by
    simp only [predictJalr]
    split
    · split <;> simp
    · simp
  have returns (c : Ctrl) : (predictReturn p sc c).takeRviCf = c.takeRviCf ∧
      (predictReturn p sc c).takeRvcCf = c.takeRvcCf := by
    simp only [predictReturn]
    split <;> simp
  have rvi (c : Ctrl) : (takeRvi sc addr c).takeRviCf = c.takeRviCf ∧
      (takeRvi sc addr c).takeRvcCf = c.takeRvcCf := by
    simp only [takeRvi]
    split <;> simp_all
  have rvc (c : Ctrl) : (takeRvc sc addr c).takeRviCf = c.takeRviCf ∧
      (takeRvc sc addr c).takeRvcCf = c.takeRvcCf := by
    simp only [takeRvc]
    split <;> simp_all
  rw [predictSlot, (rvc _).1, (rvc _).2, (rvi _).1, (rvi _).2, (returns _).1, (returns _).2,
    (jalr _).1, (jalr _).2]
  exact ⟨rfl, rfl⟩

variable [Immediates] in
/-- No instruction, no prediction. -/
theorem predictSlot_zero (rvi : c.takeRviCf = false) (rvc : c.takeRvcCf = false) :
    (predictSlot p (instrScan 0) addr c).taken = false := by
  have quiet : Alike (predictSlot p (instrScan 0) addr c) (predictSlot p (instrScan 0) addr {}) :=
    predictSlot_alike p (instrScan 0) addr (Or.inl ⟨rvi, rvc⟩)
  rw [quiet.taken]
  rfl

end Slots

/-- The first half of an instruction in the registers of `re_align`. -/
def restOf (u : Unaligned) : Rest := if u.unaligned then some (u.address, u.instr) else none

/-- The registers of `re_align` after a word. -/
def afterWord (u : Unaligned) (w : Word) (d : Decision) : Unaligned :=
  if d.bpValid then { (realign u w).regs with unaligned := false } else (realign u w).regs

section Words

variable (p : Predictions) (u : Unaligned) (w : Word)

variable [Immediates] in
/-- A compressed instruction is none of the 32-bit transfers. -/
theorem instrScan_compressed (x : BitVec 32) (short : (x.extractLsb' 0 2 != 3) = true) :
    (instrScan x).rviBranch = false ∧ (instrScan x).rviJump = false ∧
      (instrScan x).rviJalr = false := by
  have low (opcode : BitVec 7) (full : opcode.extractLsb' 0 2 = 3) :
      (x.extractLsb' 0 7 == opcode) = false := by
    by_contra same
    have equal : x.extractLsb' 0 7 = opcode := by simpa using same
    rw [← equal, BitVec.extractLsb'_extractLsb'_of_le (by decide)] at full
    simp [full] at short
  exact ⟨low opcodeBranch (by decide), low opcodeJal (by decide), low opcodeJalr (by decide)⟩

/-- A taken prediction is for one slot that holds an instruction. -/
structure Placed (u : Unaligned) (w : Word) (d : Decision) : Prop where
  single : d.taken1 = true → d.taken2 = false
  upper : w.half = true → d.taken1 = false
  none : w.half = true → w.upperCompressed = false → d.taken2 = false
  filled : w.half = false → fillsSecond u w = false → d.taken2 = false

variable [Immediates] in
theorem placed (d : Decision) (own : d = frontendCtrl p (realign u w) w.half) : Placed u w d := by
  have valid : w.half = true → w.upperCompressed = false →
      (realign u w).instructionValid = false := by
    intro half long
    simp [realign, half, long]
  have second : w.half = false → fillsSecond u w = false → (realign u w).instr1 = 0 := by
    intro word empty
    rw [fillsSecond] at empty
    simp only [realign, realignWord, word]
    cases upper : w.upperCompressed <;> cases split : u.unaligned <;>
      cases lower : w.lowerCompressed <;> simp [upper, split, lower] at empty ⊢
  rw [own, frontendCtrl]
  dsimp only
  constructor
  · split
    · split <;> simp
    · simp
  · intro half
    rw [half]
    split <;> simp
  · intro half long
    rw [valid half long]
    simp
  · intro word empty
    rw [second word empty, word]
    split
    · split
      · rfl
      · next untaken =>
          have quiet : (predictSlot p (instrScan (realign u w).instr0) (realign u w).addr0
              {}).taken = false := by simpa using untaken
          obtain ⟨rvi, rvc⟩ := predictSlot_takes _ _ _ quiet
          exact predictSlot_zero p _ (by simpa [Ctrl.masked] using rvi)
            (by simpa [Ctrl.masked] using rvc)
    · rfl

/-- An entry carries a word and the decision about it. -/
structure Carries (e : InstrRealigner.FrontendFetch) (w : Word) (d : Decision) : Prop where
  address : e.address = w.vaddr
  instruction : e.instruction = w.data
  predicted : e.predicted = (d.taken1 || d.taken2)
  first : e.firstPredicted = d.taken1

variable {p u w} {e : InstrRealigner.FrontendFetch} {d : Decision}

/-- A halfword address is that of the upper half. -/
theorem Word.upperAddress_half (half : w.half = true) (even : w.vaddr.getLsbD 0 = false) :
    w.upperAddress = w.vaddr := by
  apply BitVec.eq_of_getLsbD_eq
  intro j inside
  rw [Word.upperAddress, BitVec.getLsbD_append]
  by_cases low : j < 2
  · have bits : j = 0 ∨ j = 1 := by omega
    rcases bits with rfl | rfl
    · simpa using even.symm
    · rw [Word.half] at half
      simp [half]
  · have back : 2 + (j - 2) = j := by omega
    have small : j - 2 < 62 := by omega
    simp [low, small, back]

/-- The re-aligner will show what is scanned, with the predictions that were made. -/
theorem emits_scanned (carries : Carries e w d) (placed : Placed u w d)
    (even : w.vaddr.getLsbD 0 = false)
    (starts : w.half = true → u.unaligned = false)
    (clean : w.half = true → w.upperCompressed = true → w.lowerCompressed = true) :
    emits (restOf u) e = scanned u w d := by
  obtain ⟨address, instruction, predicted, first⟩ := carries
  obtain ⟨single, upper, none, filled⟩ := placed
  have lower : e.lowerCompressed = w.lowerCompressed := by
    simp [InstrRealigner.FrontendFetch.lowerCompressed, Word.lowerCompressed, instruction]
  have higher : e.upperCompressed = w.upperCompressed := by
    simp [InstrRealigner.FrontendFetch.upperCompressed, Word.upperCompressed, instruction]
  have half : e.half = w.half := by simp [InstrRealigner.FrontendFetch.half, Word.half, address]
  have low : e.lower = w.lower := by
    simp [InstrRealigner.FrontendFetch.lower, Word.lower, instruction]
  have high : e.upper = w.upper := by
    simp [InstrRealigner.FrontendFetch.upper, Word.upper, instruction]
  have place : e.upperAddress = w.upperAddress := by
    simp [InstrRealigner.FrontendFetch.upperAddress, Word.upperAddress, address]
  unfold emits
  simp only [restOf, scanned, firstInstr, realign, realignWord, fillsSecond,
    InstrRealigner.FrontendFetch.more, InstrRealigner.FrontendFetch.second, address, instruction,
    predicted, first, lower, higher, half, low, high, place]
  cases starts' : w.half with
  | true =>
      have fresh := starts starts'
      have other := upper starts'
      cases short : w.upperCompressed with
      | true =>
          have plain := clean starts' short
          simp [fresh, other, plain, w.upperAddress_half starts' even]
      | false => simp
  | false =>
      cases split : u.unaligned <;> cases short : w.upperCompressed <;>
        cases plain : w.lowerCompressed <;> cases taken : d.taken1 <;>
          simp_all [fillsSecond, Word.lower]

/-- And it will be left with the same first half. -/
theorem after_scanned (carries : Carries e w d) (placed : Placed u w d)
    (starts : w.half = true → u.unaligned = false)
    (clean : w.half = true → w.upperCompressed = true → w.lowerCompressed = true) :
    after (restOf u) e = restOf (afterWord u w d) := by
  obtain ⟨address, instruction, predicted, first⟩ := carries
  obtain ⟨single, upper, none, filled⟩ := placed
  have lower : e.lowerCompressed = w.lowerCompressed := by
    simp [InstrRealigner.FrontendFetch.lowerCompressed, Word.lowerCompressed, instruction]
  have higher : e.upperCompressed = w.upperCompressed := by
    simp [InstrRealigner.FrontendFetch.upperCompressed, Word.upperCompressed, instruction]
  have half : e.half = w.half := by simp [InstrRealigner.FrontendFetch.half, Word.half, address]
  have high : e.upper = w.upper := by
    simp [InstrRealigner.FrontendFetch.upper, Word.upper, instruction]
  have place : e.upperAddress = w.upperAddress := by
    simp [InstrRealigner.FrontendFetch.upperAddress, Word.upperAddress, address]
  simp only [after, restOf, afterWord, Decision.bpValid, realign, realignWord, saveUpper,
    first, lower, higher, half, high, place]
  cases starts' : w.half with
  | true =>
      have fresh := starts starts'
      have other := upper starts'
      cases short : w.upperCompressed with
      | true =>
          have plain := clean starts' short
          cases d.taken2 <;> simp [fresh, other, plain]
      | false =>
          have untaken := none starts' short
          simp [other, untaken]
  | false =>
      cases split : u.unaligned <;> cases short : w.upperCompressed <;>
        cases plain : w.lowerCompressed <;> cases taken : d.taken1 <;>
          cases later : d.taken2 <;> simp_all [fillsSecond]

variable [Immediates] in
/-- The prediction for a fetch from an upper half on is that of its upper half alone. -/
theorem upper_own (half : w.half = true) (short : w.upperCompressed = true)
    (fresh : u.unaligned = false) (clean : Clean p w) :
    let d := frontendCtrl p (realign u w) w.half
    d.taken1 = false ∧ d.taken2 = (upperPrediction p w).taken ∧
      (d.taken2 = true → d.ctrl.bpVaddr = (upperPrediction p w).bpVaddr) := by
  obtain ⟨plain, transfers⟩ := clean half short
  have slots : realign u w = ⟨w.data, w.vaddr, w.upper.setWidth 32, w.upperAddress, true, u⟩ := by
    simp [realign, realignWord, short, fresh, plain]
  obtain ⟨branch, jump, -⟩ := instrScan_compressed w.data plain
  have flags := predictSlot_flags p (instrScan w.data) w.vaddr (c := {})
  have rvi : (predictSlot p (instrScan w.data) w.vaddr {}).takeRviCf = false := by
    rw [flags.1]
    simp only [predictJump, predictBranch, predictCall, branch, jump]
    split
    · rfl
    · split <;> rfl
  have rvc : (predictSlot p (instrScan w.data) w.vaddr {}).takeRvcCf = lowerTaken p w := by
    rw [flags.2]
    simp only [predictJump, predictBranch, predictCall, branch, jump, lowerTaken, Bool.false_or]
    cases (instrScan w.data).rvcJump with
    | true => rfl
    | false => cases (instrScan w.data).rvcBranch <;> rfl
  have alike : Alike (predictSlot p (instrScan (w.upper.setWidth 32)) w.upperAddress
      ((predictSlot p (instrScan w.data) w.vaddr {}).masked true)) (upperPrediction p w) := by
    apply predictSlot_alike
    cases takes : lowerTaken p w with
    | false =>
        exact Or.inl ⟨rvi, rvc.trans takes⟩
    | true =>
        right
        have own := transfers takes
        simp only [upperTransfers, Bool.or_eq_true] at own
        rcases own with own | own <;> simp [own]
  simp only [half, slots, frontendCtrl, Bool.not_true, Bool.and_false, Bool.false_eq_true,
    ↓reduceIte]
  exact ⟨trivial, alike.taken, alike.address⟩

end Words

end Ariane.Frontend
