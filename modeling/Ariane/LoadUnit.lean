import Ariane.LsuBypass

set_option autoImplicit false

/- `load_unit.sv`: requests loads from the data cache and returns their results. -/
namespace Ariane.LoadUnit

/-- `state_q`. -/
inductive Phase where
  | idle | waitGnt | sendTag | waitPageOffset | abortTransaction | waitTranslation | waitFlush
  deriving DecidableEq, Inhabited

/-- What is kept about the load whose data is awaited. -/
structure LoadData where
  transId : Nat := 0
  addressOffset : BitVec 3 := 0
  operator : FuOp := .add
  deriving DecidableEq, Inhabited

/-- The registers. -/
structure State where
  state : Phase := .idle
  loadData : LoadData := {}
  idx : BitVec 3 := 0
  signed : Bool := false
  fpSign : Bool := false
  deriving DecidableEq, Inhabited

/-- The inputs of one cycle. -/
structure Input where
  flush : Bool := false
  valid : Bool := false
  lsuCtrl : LsuCtrl := {}
  ex : Exception := {}
  dtlbHit : Bool := false
  pageOffsetMatches : Bool := false
  dataGnt : Bool := false
  dataRvalid : Bool := false
  dataRdata : BitVec 64 := 0

/-- What `load_control` assigns. -/
structure Control where
  state : Phase
  translationReq : Bool := false
  dataReq : Bool := false
  killReq : Bool := false
  tagValid : Bool := false
  popLd : Bool := false
  deriving DecidableEq, Inhabited

def reset : State := {}

/-- The sign of the loaded value is extended. -/
def FuOp.signExtends (op : FuOp) : Bool := op ∈ [.lw, .lh, .lb]

/-- The loaded value is boxed. -/
def FuOp.boxes (op : FuOp) : Bool := op ∈ [.flw, .flh, .flb]

section Block

variable (q : State) (i : Input)

/-- `in_data`. -/
def inData : LoadData where
  transId := i.lsuCtrl.transId
  addressOffset := i.lsuCtrl.vaddr.extractLsb' 0 3
  operator := i.lsuCtrl.operator

/-- `page_offset_o`. -/
def pageOffset : BitVec 12 := i.lsuCtrl.vaddr.extractLsb' 0 12

/-- A request at the data cache. The tag follows in the next cycle if the TLB hits. -/
def request (o : Control) : Control :=
  let o := { o with dataReq := true }
  if i.dataGnt then
    if i.dtlbHit then { o with state := .sendTag, popLd := true }
    else { o with state := .abortTransaction }
  else { o with state := .waitGnt }

/-- Start with a new load. -/
def newLoad (o : Control) : Control :=
  if i.valid then
    let o := { o with translationReq := true }
    if !i.pageOffsetMatches then request i o else { o with state := .waitPageOffset }
  else o

/-- The `case` of `load_control`. -/
def stateControl : Control :=
  let o : Control := { state := q.state }
  match q.state with
  | .idle => newLoad i o
  | .waitPageOffset => if !i.pageOffsetMatches then { o with state := .waitGnt } else o
  | .abortTransaction => { o with killReq := true, tagValid := true, state := .waitTranslation }
  | .waitTranslation =>
      let o := { o with translationReq := true }
      if i.dtlbHit then { o with state := .waitGnt } else o
  | .waitGnt => request i { o with translationReq := true }
  | .sendTag =>
      let o := newLoad i { o with tagValid := true, state := .idle }
      if i.ex.valid then { o with killReq := true } else o
  | .waitFlush => { o with killReq := true, tagValid := true, state := .idle }

/-- An exception takes the load away, unless a response arrives. -/
def exception (o : Control) : Control :=
  if i.ex.valid && i.valid then
    { o with state := .idle, popLd := o.popLd || !i.dataRvalid }
  else o

/-- `load_control`. -/
def loadControl : Control :=
  let o := exception i (stateControl q i)
  if i.flush then { o with state := .waitFlush } else o

/-- `load_data_d`. -/
def loadDataNext : LoadData :=
  if (loadControl q i).popLd && !i.ex.valid then inData i else q.loadData

/-- `valid_o`. -/
def valid : Bool :=
  let responds := i.dataRvalid && q.state != .waitFlush &&
    (!(loadControl q i).killReq || i.ex.valid)
  if i.valid && i.ex.valid && !i.dataRvalid then true
  else if q.state == .waitTranslation then false
  else responds

/-- `trans_id_o`. -/
def transId : Nat :=
  if i.valid && i.ex.valid && !i.dataRvalid then i.lsuCtrl.transId else q.loadData.transId

/-- `idx_d`: the byte that holds the sign. -/
def signByte (d : LoadData) : BitVec 3 :=
  if d.operator ∈ [.lw, .flw] then d.addressOffset + 3
  else if d.operator ∈ [.lh, .flh] then d.addressOffset + 1
  else d.addressOffset

/-- `shifted_data`. -/
def shiftedData (d : LoadData) (rdata : BitVec 64) : BitVec 64 :=
  rdata >>> (8 * d.addressOffset.toNat)

/-- `sign_bits[idx]`. -/
def signBit (idx : BitVec 3) (rdata : BitVec 64) : Bool := rdata.getLsbD (8 * idx.toNat + 7)

/-- A replicated bit. -/
def replicate (n : Nat) (bit : Bool) : BitVec n := if bit then BitVec.allOnes n else 0

/-- The result multiplexer. -/
def resultMux (op : FuOp) (sign : Bool) (shifted : BitVec 64) : BitVec 64 :=
  if op ∈ [.lw, .lwu, .flw] then replicate 32 sign ++ shifted.extractLsb' 0 32
  else if op ∈ [.lh, .lhu, .flh] then replicate 48 sign ++ shifted.extractLsb' 0 16
  else if op ∈ [.lb, .lbu, .flb] then replicate 56 sign ++ shifted.extractLsb' 0 8
  else shifted

/-- `result_o`. -/
def result : BitVec 64 :=
  resultMux q.loadData.operator (q.signed && signBit q.idx i.dataRdata || q.fpSign)
    (shiftedData q.loadData i.dataRdata)

/-- All registers after one cycle. -/
def next : State where
  state := (loadControl q i).state
  loadData := loadDataNext q i
  idx := signByte (loadDataNext q i)
  signed := FuOp.signExtends (loadDataNext q i).operator
  fpSign := FuOp.boxes (loadDataNext q i).operator

end Block

section Result

/-- What a load makes of the doubleword that holds its data. -/
def loadResult (d : LoadData) (rdata : BitVec 64) : BitVec 64 :=
  resultMux d.operator
    (FuOp.signExtends d.operator && signBit (signByte d) rdata || FuOp.boxes d.operator)
    (shiftedData d rdata)

/-- The registers of the fast result path belong to the kept load. -/
structure Prepared (q : State) : Prop where
  idx : q.idx = signByte q.loadData
  signed : q.signed = FuOp.signExtends q.loadData.operator
  fpSign : q.fpSign = FuOp.boxes q.loadData.operator

theorem prepared_reset : Prepared reset := ⟨rfl, rfl, rfl⟩

theorem prepared_next (q : State) (i : Input) : Prepared (next q i) := ⟨rfl, rfl, rfl⟩

theorem Prepared.result {q : State} (prepared : Prepared q) (i : Input) :
    result q i = loadResult q.loadData i.dataRdata := by
  rw [LoadUnit.result, loadResult, prepared.idx, prepared.signed, prepared.fpSign]

end Result

/-- The load unit has not got rid of the load in front of it. -/
def Busy (p : Phase) : Prop :=
  p = .waitGnt ∨ p = .waitPageOffset ∨ p = .abortTransaction ∨ p = .waitTranslation

section Control

variable {q : State} {i : Input} {o : Control}

theorem request_grant (gnt : i.dataGnt = true) :
    request i o =
      { o with
        dataReq := true
        state := if i.dtlbHit then .sendTag else .abortTransaction
        popLd := i.dtlbHit || o.popLd } := by
  rw [request, gnt, if_pos rfl]
  cases i.dtlbHit <;> rfl

theorem request_wait (noGnt : i.dataGnt = false) :
    request i o = { o with dataReq := true, state := .waitGnt } := by
  rw [request, noGnt, if_neg Bool.false_ne_true]

theorem request_killReq : (request i o).killReq = o.killReq := by
  cases gnt : i.dataGnt with
  | false => rw [request_wait gnt]
  | true => rw [request_grant gnt]

theorem newLoad_killReq : (newLoad i o).killReq = o.killReq := by
  rw [newLoad]
  cases i.valid <;> cases i.pageOffsetMatches
  · rfl
  · rfl
  · exact request_killReq
  · rfl

/-- Where a kill comes from. -/
theorem stateControl_killReq : (stateControl q i).killReq = (q.state == .abortTransaction ||
    q.state == .waitFlush || (q.state == .sendTag && i.ex.valid)) := by
  rw [stateControl]
  cases q.state with
  | idle => exact newLoad_killReq
  | waitGnt => exact request_killReq
  | sendTag =>
      cases i.ex.valid with
      | false => exact newLoad_killReq
      | true => rfl
  | waitPageOffset => cases i.pageOffsetMatches <;> rfl
  | waitTranslation => cases i.dtlbHit <;> rfl
  | abortTransaction => rfl
  | waitFlush => rfl

theorem loadControl_killReq : (loadControl q i).killReq = (stateControl q i).killReq := by
  rw [loadControl, exception]
  split <;> split <;> rfl

/-- What follows a grant. -/
structure Granted (i : Input) (o : Control) : Prop where
  translated : o.translationReq = true
  state : o.state = if i.dtlbHit then .sendTag else .abortTransaction
  pop : o.popLd = i.dtlbHit

theorem newLoad_granted (quiet : o.dataReq = false) (empty : o.popLd = false)
    (req : (newLoad i o).dataReq = true) (gnt : i.dataGnt = true) :
    Granted i (newLoad i o) ∧ i.valid = true := by
  rw [newLoad] at req ⊢
  cases valid : i.valid with
  | false =>
      rw [valid, if_neg Bool.false_ne_true] at req
      exact absurd (quiet.symm.trans req) Bool.false_ne_true
  | true =>
      cases stall : i.pageOffsetMatches with
      | true =>
          rw [valid, stall] at req
          exact absurd (quiet.symm.trans req) Bool.false_ne_true
      | false =>
          rw [if_pos rfl, Bool.not_false, if_pos rfl, request_grant gnt]
          refine ⟨⟨rfl, rfl, ?_⟩, rfl⟩
          show (i.dtlbHit || o.popLd) = i.dtlbHit
          rw [empty, Bool.or_false]

/-- A granted request is the one of the load at the load unit. -/
theorem stateControl_granted (req : (stateControl q i).dataReq = true) (gnt : i.dataGnt = true) :
    Granted i (stateControl q i) ∧ (i.valid = true ∨ Busy q.state) ∧
      q.state ≠ .abortTransaction ∧ q.state ≠ .waitFlush ∧ q.state ≠ .waitTranslation := by
  rw [stateControl] at req ⊢
  cases state : q.state with
  | idle =>
      rw [state] at req
      obtain ⟨granted, valid⟩ := newLoad_granted rfl rfl req gnt
      exact ⟨granted, Or.inl valid, by decide, by decide, by decide⟩
  | sendTag =>
      rw [state] at req
      dsimp only at req ⊢
      have req' : (newLoad i { state := .idle, tagValid := true }).dataReq = true := by
        cases ex : i.ex.valid <;> rw [ex] at req <;> exact req
      obtain ⟨granted, valid⟩ := newLoad_granted rfl rfl req' gnt
      refine ⟨?_, Or.inl valid, by decide, by decide, by decide⟩
      cases i.ex.valid
      · exact granted
      · exact ⟨granted.translated, granted.state, granted.pop⟩
  | waitGnt =>
      refine ⟨?_, Or.inr (Or.inl rfl), by decide, by decide, by decide⟩
      dsimp only
      rw [request_grant gnt]
      exact ⟨rfl, rfl, Bool.or_false _⟩
  | waitPageOffset =>
      rw [state] at req
      cases stall : i.pageOffsetMatches <;> rw [stall] at req <;>
        exact absurd req Bool.false_ne_true
  | waitTranslation =>
      rw [state] at req
      cases hit : i.dtlbHit <;> rw [hit] at req <;> exact absurd req Bool.false_ne_true
  | abortTransaction =>
      rw [state] at req
      exact absurd req Bool.false_ne_true
  | waitFlush =>
      rw [state] at req
      exact absurd req Bool.false_ne_true

/-- What happens without a grant. -/
structure Waiting (q : State) (i : Input) (o : Control) : Prop where
  pop : o.popLd = false
  phase : o.state = .idle ∨ (i.valid = true ∨ Busy q.state) ∧
    (o.state = .waitGnt ∨ o.state = .waitPageOffset ∨
      o.state = .waitTranslation ∧ (q.state = .abortTransaction ∨ q.state = .waitTranslation))

theorem newLoad_waiting (noGnt : i.dataGnt = false) (empty : o.popLd = false)
    (idle : o.state = .idle) : Waiting q i (newLoad i o) := by
  rw [newLoad]
  cases valid : i.valid with
  | false => exact ⟨empty, Or.inl idle⟩
  | true =>
      cases i.pageOffsetMatches with
      | true => exact ⟨empty, Or.inr ⟨Or.inl valid, Or.inr (Or.inl rfl)⟩⟩
      | false =>
          rw [if_pos rfl, Bool.not_false, if_pos rfl, request_wait noGnt]
          exact ⟨empty, Or.inr ⟨Or.inl valid, Or.inl rfl⟩⟩

theorem stateControl_waiting (noGnt : i.dataGnt = false) : Waiting q i (stateControl q i) := by
  rw [stateControl]
  cases state : q.state with
  | idle => exact newLoad_waiting noGnt rfl rfl
  | sendTag =>
      have waits : Waiting q i (newLoad i { state := .idle, tagValid := true }) :=
        newLoad_waiting noGnt rfl rfl
      cases i.ex.valid
      · exact waits
      · exact ⟨waits.pop, waits.phase⟩
  | waitGnt =>
      dsimp only
      rw [request_wait noGnt]
      exact ⟨rfl, Or.inr ⟨Or.inr (Or.inl state), Or.inl rfl⟩⟩
  | waitPageOffset =>
      have busy : Busy q.state := Or.inr (Or.inl state)
      cases i.pageOffsetMatches
      · exact ⟨rfl, Or.inr ⟨Or.inr busy, Or.inl rfl⟩⟩
      · exact ⟨rfl, Or.inr ⟨Or.inr busy, Or.inr (Or.inl rfl)⟩⟩
  | waitTranslation =>
      have busy : Busy q.state := Or.inr (Or.inr (Or.inr state))
      cases i.dtlbHit
      · exact ⟨rfl, Or.inr ⟨Or.inr busy, Or.inr (Or.inr ⟨rfl, Or.inr state⟩)⟩⟩
      · exact ⟨rfl, Or.inr ⟨Or.inr busy, Or.inl rfl⟩⟩
  | abortTransaction =>
      have busy : Busy q.state := Or.inr (Or.inr (Or.inl state))
      exact ⟨rfl, Or.inr ⟨Or.inr busy, Or.inr (Or.inr ⟨rfl, Or.inl state⟩)⟩⟩
  | waitFlush => exact ⟨rfl, Or.inl rfl⟩

namespace Waiting

theorem noTag (waits : Waiting q i o) : o.state ≠ .sendTag := by
  rcases waits.phase with phase | ⟨_, phase | phase | ⟨phase, _⟩⟩ <;> rw [phase] <;> decide

theorem noAbort (waits : Waiting q i o) : o.state ≠ .abortTransaction := by
  rcases waits.phase with phase | ⟨_, phase | phase | ⟨phase, _⟩⟩ <;> rw [phase] <;> decide

theorem noFlush (waits : Waiting q i o) : o.state ≠ .waitFlush := by
  rcases waits.phase with phase | ⟨_, phase | phase | ⟨phase, _⟩⟩ <;> rw [phase] <;> decide

theorem translation (waits : Waiting q i o) (translates : o.state = .waitTranslation) :
    q.state = .abortTransaction ∨ q.state = .waitTranslation := by
  rcases waits.phase with phase | ⟨_, phase | phase | ⟨_, before⟩⟩
  · rw [phase] at translates
    cases translates
  · rw [phase] at translates
    cases translates
  · rw [phase] at translates
    cases translates
  · exact before

theorem busy (waits : Waiting q i o) (busy : Busy o.state) : i.valid = true ∨ Busy q.state := by
  rcases waits.phase with phase | ⟨before, _⟩
  · rw [phase] at busy
    rcases busy with busy | busy | busy | busy <;> cases busy
  · exact before

end Waiting

/-- Without an exception and without a flush, the state alone decides. -/
theorem loadControl_plain (noFlush : i.flush = false) (noEx : i.ex.valid = false) :
    loadControl q i = stateControl q i := by
  rw [loadControl, noFlush, if_neg Bool.false_ne_true, exception, noEx, Bool.false_and,
    if_neg Bool.false_ne_true]

theorem loadControl_dataReq : (loadControl q i).dataReq = (stateControl q i).dataReq := by
  rw [loadControl, exception]
  split <;> split <;> rfl

/-- A load is taken after a grant or with an exception. -/
theorem loadControl_popLd (pop : (loadControl q i).popLd = true) :
    (stateControl q i).popLd = true ∨ i.valid = true := by
  rw [loadControl, exception] at pop
  cases valid : i.valid with
  | true => exact Or.inr rfl
  | false =>
      rw [valid, Bool.and_false, if_neg Bool.false_ne_true] at pop
      cases flush : i.flush <;> rw [flush] at pop <;> exact Or.inl pop

theorem loadControl_flush (flush : i.flush = true) : (loadControl q i).state = .waitFlush := by
  rw [loadControl, flush]
  rfl

/-- With an exception, the load unit goes back to idle. -/
theorem loadControl_exception (noFlush : i.flush = false) (ex : i.ex.valid = true)
    (noGnt : i.dataGnt = false) (here : Busy q.state → i.valid = true) :
    (loadControl q i).state = .idle ∧
      (loadControl q i).popLd = (i.valid && !i.dataRvalid) := by
  have waits := stateControl_waiting (q := q) noGnt
  rw [loadControl, noFlush, if_neg Bool.false_ne_true, exception, ex, Bool.true_and]
  cases valid : i.valid with
  | true =>
      rw [if_pos rfl, waits.pop]
      exact ⟨rfl, rfl⟩
  | false =>
      rw [if_neg Bool.false_ne_true]
      refine ⟨?_, waits.pop⟩
      rcases waits.phase with phase | ⟨before | before, _⟩
      · exact phase
      · exact absurd (valid.symm.trans before) Bool.false_ne_true
      · exact absurd (valid.symm.trans (here before)) Bool.false_ne_true

end Control

end Ariane.LoadUnit
