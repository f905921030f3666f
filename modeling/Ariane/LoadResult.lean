import Ariane.LoadUnit

set_option autoImplicit false

/- The result of a load: the fast multiplexer against the bytes that the load names. -/
namespace Ariane.LoadUnit

open Rtl (Machine)

/-- The bytes that a load accesses; zero for the other operations. -/
def loadBytes (op : FuOp) : Nat :=
  if op ∈ [.lb, .lbu, .flb] then 1
  else if op ∈ [.lh, .lhu, .flh] then 2
  else if op ∈ [.lw, .lwu, .flw] then 4
  else if op ∈ [.ld, .fld] then 8
  else 0

/-- A load at its natural alignment. -/
structure Aligned (d : LoadData) : Prop where
  load : loadBytes d.operator ≠ 0
  offset : d.addressOffset.toNat % loadBytes d.operator = 0

/-- The value that a load has at a byte offset of a doubleword. -/
def loadValue (d : LoadData) (word : BitVec 64) : BitVec 64 :=
  let lo := 8 * d.addressOffset.toNat
  match d.operator with
  | .lw => (word.extractLsb' lo 32).signExtend 64
  | .lh => (word.extractLsb' lo 16).signExtend 64
  | .lb => (word.extractLsb' lo 8).signExtend 64
  | .lwu => (word.extractLsb' lo 32).setWidth 64
  | .lhu => (word.extractLsb' lo 16).setWidth 64
  | .lbu => (word.extractLsb' lo 8).setWidth 64
  | .flw => BitVec.allOnes 32 ++ word.extractLsb' lo 32
  | .flh => BitVec.allOnes 48 ++ word.extractLsb' lo 16
  | .flb => BitVec.allOnes 56 ++ word.extractLsb' lo 8
  | _ => word

/-- The multiplexer with more logic stages, which the source keeps as a comment. -/
def plainMux (op : FuOp) (shifted : BitVec 64) : BitVec 64 :=
  match op with
  | .lwu => (shifted.extractLsb' 0 32).setWidth 64
  | .lhu => (shifted.extractLsb' 0 16).setWidth 64
  | .lbu => (shifted.extractLsb' 0 8).setWidth 64
  | .lw => (shifted.extractLsb' 0 32).signExtend 64
  | .lh => (shifted.extractLsb' 0 16).signExtend 64
  | .lb => (shifted.extractLsb' 0 8).signExtend 64
  | _ => shifted

/-- The load unit takes the load at its input. -/
def accepts (q : State) (i : Input) : Bool := (loadControl q i).popLd && !i.ex.valid

def machine : Machine State Input := ⟨reset, next⟩

/-- The eleven loads. -/
theorem loads (op : FuOp) (load : loadBytes op ≠ 0) :
    op = .lb ∨ op = .lbu ∨ op = .flb ∨ op = .lh ∨ op = .lhu ∨ op = .flh ∨ op = .lw ∨ op = .lwu ∨
      op = .flw ∨ op = .ld ∨ op = .fld := by
  unfold loadBytes at load
  simp only [List.mem_cons, List.not_mem_nil, or_false] at load
  grind

section Bits

variable (word : BitVec 64) (lo : Nat)

theorem shifted_low (n : Nat) : (word >>> lo).extractLsb' 0 n = word.extractLsb' lo n := by
  apply BitVec.eq_of_getLsbD_eq
  intro k bound
  rw [BitVec.getLsbD_extractLsb', BitVec.getLsbD_extractLsb', BitVec.getLsbD_ushiftRight,
    Nat.zero_add]

theorem replicate_sign (m n : Nat) (positive : 0 < n) :
    replicate m (word.getLsbD (lo + (n - 1))) ++ word.extractLsb' lo n =
      (word.extractLsb' lo n).signExtend (m + n) := by
  apply BitVec.eq_of_getLsbD_eq
  intro k bound
  have msb : (word.extractLsb' lo n).msb = word.getLsbD (lo + (n - 1)) := by
    rw [BitVec.msb_eq_getLsbD_last, BitVec.getLsbD_extractLsb', decide_eq_true (by omega),
      Bool.true_and]
  rw [BitVec.getLsbD_append, BitVec.getLsbD_signExtend, decide_eq_true bound, Bool.true_and, msb]
  split
  · rfl
  · unfold replicate
    cases word.getLsbD (lo + (n - 1)) with
    | true => rw [if_pos rfl, BitVec.getLsbD_allOnes, decide_eq_true (by omega)]
    | false => exact BitVec.getLsbD_zero

theorem replicate_zero (m n : Nat) :
    replicate m false ++ word.extractLsb' lo n = (word.extractLsb' lo n).setWidth (m + n) := by
  apply BitVec.eq_of_getLsbD_eq
  intro k bound
  rw [BitVec.getLsbD_append, BitVec.getLsbD_setWidth, decide_eq_true bound, Bool.true_and]
  split
  · rfl
  · rw [BitVec.getLsbD_extractLsb', decide_eq_false (by omega), Bool.false_and]
    exact BitVec.getLsbD_zero

end Bits

section Extract

variable (d : LoadData) (word : BitVec 64)

/-- A sign-extending load of `n` bits reads its sign from its last byte. -/
theorem extend_signed (m n : Nat) (idx : BitVec 3) (positive : 0 < n)
    (last : 8 * idx.toNat + 7 = 8 * d.addressOffset.toNat + (n - 1)) :
    replicate m (true && signBit idx word || false) ++
        (shiftedData d word).extractLsb' 0 n =
      (word.extractLsb' (8 * d.addressOffset.toNat) n).signExtend (m + n) := by
  rw [Bool.true_and, Bool.or_false, signBit, last, shiftedData, shifted_low]
  exact replicate_sign word _ m n positive

theorem extend_zero (m n : Nat) (idx : BitVec 3) :
    replicate m (false && signBit idx word || false) ++ (shiftedData d word).extractLsb' 0 n =
      (word.extractLsb' (8 * d.addressOffset.toNat) n).setWidth (m + n) := by
  rw [Bool.false_and, Bool.or_false, shiftedData, shifted_low]
  exact replicate_zero word _ m n

theorem extend_boxed (m n : Nat) (idx : BitVec 3) :
    replicate m (false && signBit idx word || true) ++ (shiftedData d word).extractLsb' 0 n =
      BitVec.allOnes m ++ word.extractLsb' (8 * d.addressOffset.toNat) n := by
  rw [Bool.or_true, shiftedData, shifted_low]
  rfl

theorem whole_word (offset : d.addressOffset.toNat % 8 = 0) : shiftedData d word = word := by
  have bound := d.addressOffset.isLt
  have zero : d.addressOffset.toNat = 0 := by omega
  rw [shiftedData, zero]
  exact BitVec.ushiftRight_zero word

/-- The fast multiplexer computes the value of the load. -/
theorem loadResult_eq (aligned : Aligned d) : loadResult d word = loadValue d word := by
  obtain ⟨load, offset⟩ := aligned
  have bound := d.addressOffset.isLt
  obtain ⟨transId, off, op⟩ := d
  dsimp only at load offset bound
  have add : ∀ c : Nat, off.toNat + c < 8 → (off + BitVec.ofNat 3 c).toNat = off.toNat + c := by
    intro c small
    rw [BitVec.toNat_add, BitVec.toNat_ofNat, Nat.mod_eq_of_lt (by omega : c < 2 ^ 3),
      Nat.mod_eq_of_lt small]
  rcases loads op load with rfl | rfl | rfl | rfl | rfl | rfl | rfl | rfl | rfl | rfl | rfl
  · exact extend_signed ⟨transId, off, .lb⟩ word 56 8 off (by decide) rfl
  · exact extend_zero ⟨transId, off, .lbu⟩ word 56 8 off
  · exact extend_boxed ⟨transId, off, .flb⟩ word 56 8 off
  · have two : off.toNat % 2 = 0 := offset
    have idx := add 1 (by omega)
    apply extend_signed ⟨transId, off, .lh⟩ word 48 16 (off + 1) (by decide)
    rw [show (1 : BitVec 3) = BitVec.ofNat 3 1 from rfl, idx]
    dsimp only
    omega
  · exact extend_zero ⟨transId, off, .lhu⟩ word 48 16 off
  · exact extend_boxed ⟨transId, off, .flh⟩ word 48 16 (off + 1)
  · have four : off.toNat % 4 = 0 := offset
    have idx := add 3 (by omega)
    apply extend_signed ⟨transId, off, .lw⟩ word 32 32 (off + 3) (by decide)
    rw [show (3 : BitVec 3) = BitVec.ofNat 3 3 from rfl, idx]
    dsimp only
    omega
  · exact extend_zero ⟨transId, off, .lwu⟩ word 32 32 off
  · exact extend_boxed ⟨transId, off, .flw⟩ word 32 32 (off + 3)
  · exact whole_word ⟨transId, off, .ld⟩ word offset
  · exact whole_word ⟨transId, off, .fld⟩ word offset

/-- The plain multiplexer does the same, but for the boxing. -/
theorem plainMux_eq (aligned : Aligned d) (unboxed : FuOp.boxes d.operator = false) :
    plainMux d.operator (shiftedData d word) = loadValue d word := by
  obtain ⟨load, offset⟩ := aligned
  have bound := d.addressOffset.isLt
  obtain ⟨transId, off, op⟩ := d
  rcases loads op load with rfl | rfl | rfl | rfl | rfl | rfl | rfl | rfl | rfl | rfl | rfl
  · exact congrArg (BitVec.signExtend 64) (shifted_low word (8 * off.toNat) 8)
  · exact congrArg (BitVec.setWidth 64) (shifted_low word (8 * off.toNat) 8)
  · exact absurd unboxed Bool.noConfusion
  · exact congrArg (BitVec.signExtend 64) (shifted_low word (8 * off.toNat) 16)
  · exact congrArg (BitVec.setWidth 64) (shifted_low word (8 * off.toNat) 16)
  · exact absurd unboxed Bool.noConfusion
  · exact congrArg (BitVec.signExtend 64) (shifted_low word (8 * off.toNat) 32)
  · exact congrArg (BitVec.setWidth 64) (shifted_low word (8 * off.toNat) 32)
  · exact absurd unboxed Bool.noConfusion
  · exact whole_word ⟨transId, off, .ld⟩ word offset
  · exact whole_word ⟨transId, off, .fld⟩ word offset

end Extract

section Run

variable {q : State} {i : Input}

theorem loadData_accepted (accepted : accepts q i = true) : (next q i).loadData = inData i := by
  show (if accepts q i then inData i else q.loadData) = _
  rw [accepted, if_pos rfl]

theorem loadData_kept (none : accepts q i = false) : (next q i).loadData = q.loadData := by
  show (if accepts q i then inData i else q.loadData) = _
  rw [none, if_neg Bool.false_ne_true]

/-- The registers describe the request that was accepted last, and belong together. -/
theorem registers_of_accepted (inputs rest : List Input) (request : Input)
    (accepted : accepts (machine.run inputs) request = true)
    (none : machine.Legal (fun q i => accepts q i = false)
      (next (machine.run inputs) request) rest) :
    let q := machine.run (inputs ++ request :: rest)
    q.loadData = inData request ∧ Prepared q := by
  dsimp only
  rw [Machine.run_append, Machine.runFrom_cons]
  have step : ∀ q i, q.loadData = inData request ∧ Prepared q → accepts q i = false →
      (next q i).loadData = inData request ∧ Prepared (next q i) := by
    rintro q i ⟨same, _⟩ idle
    exact ⟨(loadData_kept idle).trans same, prepared_next q i⟩
  exact machine.runFrom_invariant step ⟨loadData_accepted accepted, prepared_next _ _⟩ none

end Run

/-- In every run the result of an aligned load is the value of the request accepted last, and but
for the boxed loads it is that of the plain multiplexer. -/
theorem result_of_accepted (inputs rest : List Input) (request i : Input)
    (aligned : Aligned (inData request))
    (accepted : accepts (machine.run inputs) request = true)
    (none : machine.Legal (fun q i => accepts q i = false)
      (next (machine.run inputs) request) rest) :
    let q := machine.run (inputs ++ request :: rest)
    result q i = loadValue (inData request) i.dataRdata ∧
      (FuOp.boxes request.lsuCtrl.operator = false →
        result q i = plainMux q.loadData.operator (shiftedData q.loadData i.dataRdata)) := by
  obtain ⟨same, prepared⟩ := registers_of_accepted inputs rest request accepted none
  dsimp only at same prepared ⊢
  rw [prepared.result, same, loadResult_eq _ _ aligned]
  exact ⟨rfl, fun unboxed => (plainMux_eq _ _ aligned unboxed).symm⟩

/-- A signed load of the upper word. -/
def upperWord : Input where
  valid := true
  lsuCtrl := { valid := true, vaddr := 0x1004, fu := .load, operator := .lw }
  dtlbHit := true
  dataGnt := true

theorem result_of_accepted_upperWord :
    let q := machine.run ([] ++ upperWord :: [])
    let i : Input := { dataRvalid := true, dataRdata := 0x8000000000000000 }
    result q i = loadValue (inData upperWord) i.dataRdata ∧
      (FuOp.boxes upperWord.lsuCtrl.operator = false →
        result q i = plainMux q.loadData.operator (shiftedData q.loadData i.dataRdata)) :=
  result_of_accepted [] [] upperWord { dataRvalid := true, dataRdata := 0x8000000000000000 }
    ⟨by decide, by decide⟩ (by decide) trivial

/-- The plain multiplexer leaves a narrow floating-point load unboxed. -/
theorem boxed_differs :
    let request : Input :=
      { upperWord with lsuCtrl := { valid := true, fu := .load, operator := .flw } }
    let q := machine.run [request]
    let i : Input := { dataRvalid := true, dataRdata := 1 }
    accepts reset request = true ∧ result q i = 0xffffffff00000001 ∧
      plainMux q.loadData.operator (shiftedData q.loadData i.dataRdata) = 1 := by
  decide

end Ariane.LoadUnit
