import Ariane.Rtl.Machine
import Mathlib.Data.BitVec

set_option autoImplicit false

/- `serdiv.sv`: a divider that finds one bit of the quotient in a cycle, after the divisor was
aligned with the dividend. The width `w` of the operands is a parameter. -/
namespace Ariane.Serdiv

open Rtl (Machine)

/-- `state_q`. -/
inductive Fsm where
  | idle | divide | finish
  deriving DecidableEq, Inhabited

/-- The inputs of one cycle. -/
structure Input (w : Nat) where
  id : Nat := 0
  opA : BitVec w := 0
  opB : BitVec w := 0
  opcode : BitVec 2 := 0
  inVld : Bool := false
  flush : Bool := false
  outRdy : Bool := false
  deriving DecidableEq, Inhabited

/-- The registers. -/
structure State (w : Nat) where
  state : Fsm := .idle
  opA : BitVec w := 0
  opB : BitVec w := 0
  res : BitVec w := 0
  cnt : Nat := 0
  id : Nat := 0
  remSel : Bool := false
  compInv : Bool := false
  resInv : Bool := false
  opBZero : Bool := false
  divResZero : Bool := false
  deriving DecidableEq, Inhabited

def reset {w : Nat} : State w := {}

variable {w : Nat}

section Load

variable (i : Input w)

/-- Bit 0 of the opcode selects signed operands, bit 1 the remainder. -/
def Input.signed : Bool := i.opcode.getLsbD 0

def Input.rem : Bool := i.opcode.getLsbD 1

/-- `lzc_a_input`; the concatenation with a zero is cut to the width of the operand. -/
def lzcAInput : BitVec w := if i.signed && i.opA.msb then ~~~i.opA <<< 1 else i.opA

/-- `lzc_b_input`. -/
def lzcBInput : BitVec w := if i.signed && i.opB.msb then ~~~i.opB else i.opB

/-- `shift_a`: the leading zeros, or all bits. -/
def shiftA : Nat := if lzcAInput i == 0 then w else (lzcAInput i).clz.toNat

/-- `div_shift`. -/
def divShift : Int :=
  if lzcBInput i == 0 then w else ((lzcBInput i).clz.toNat : Int) - shiftA i

/-- `op_b`. Read without sign, a negative distance shifts everything out. -/
def alignedB : BitVec w := if divShift i < 0 then 0 else i.opB <<< (divShift i).toNat

/-- `op_a_sign ^ op_b_sign`. -/
def signsDiffer : Bool := i.opA.msb ^^ i.opB.msb

/-- The registers after a load. The counter is not read if the shift is negative. -/
def load : State w where
  state := .divide
  opA := if i.signed && signsDiffer i then 0 - i.opA else 0 + i.opA
  opB := alignedB i
  res := 0
  cnt := (divShift i).toNat
  id := i.id
  remSel := i.rem
  compInv := i.signed && i.opB.msb
  resInv := (i.opB != 0 || i.rem) && i.signed && signsDiffer i
  opBZero := i.opB == 0
  divResZero := divShift i < 0

end Load

section Divide

variable (q : State w)

/-- `ab_comp`: the divisor goes into the rest of the dividend. -/
def abComp : Bool :=
  (q.opA == q.opB || (q.opB.ult q.opA ^^ q.compInv)) && (q.opA != 0 || q.opBZero)

/-- The divisor one position lower; a negative one is filled up with ones. -/
def shiftedB : BitVec w :=
  if q.compInv then (q.opB >>> 1) ||| BitVec.twoPow w (w - 1) else q.opB >>> 1

/-- `res_o`. -/
def result : BitVec w :=
  let out := if q.remSel then q.opA else q.res
  if q.resInv then -out else out

/-- A result is at the output unless the divider is flushed. -/
def done : Bool :=
  match q.state with
  | .idle => false
  | .divide => q.divResZero
  | .finish => true

end Divide

section Block

variable (q : State w) (i : Input w)

/-- `load_en`. -/
def loadEn : Bool := q.state == .idle && i.inVld && !i.flush

/-- `in_rdy_o`. -/
def inRdy : Bool := q.state == .idle && !i.inVld && !i.flush

/-- `out_vld_o`. -/
def outVld : Bool := done q && !i.flush

/-- `state_d`. -/
def stateNext : Fsm :=
  if i.flush then .idle
  else
    match q.state with
    | .idle => if i.inVld then .divide else .idle
    | .divide =>
        if q.divResZero then if i.outRdy then .idle else .finish
        else if q.cnt == 0 then .finish else .divide
    | .finish => if i.outRdy then .idle else .finish

/-- All registers after one cycle. A flush does not stop the register of the quotient. -/
def next : State w :=
  if loadEn q i then load i
  else
    let divides := q.state == .divide && !q.divResZero
    { q with
      state := stateNext q i
      cnt := q.cnt - 1
      opA := if divides && !i.flush && abComp q then q.opA - q.opB else q.opA
      opB := if divides && !i.flush then shiftedB q else q.opB
      res := if divides then q.res <<< 1 ||| (BitVec.ofBool (abComp q)).setWidth w else q.res }

end Block

def machine (w : Nat) : Machine (State w) (Input w) := ⟨reset, next⟩

end Ariane.Serdiv
