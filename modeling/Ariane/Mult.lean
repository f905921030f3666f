import Ariane.Alu
import Ariane.SerdivResult

set_option autoImplicit false

/- `multiplier.sv` and `mult.sv`: a multiplication takes one cycle, a division goes to the serial
divider, and both share the output. -/
namespace Ariane

namespace Multiplier

def operates (op : FuOp) : Bool := op ∈ [.mul, .mulh, .mulhu, .mulhsu, .mulw]

/-- The registers. -/
structure State where
  transId : Nat := 0
  multValid : Bool := false
  operator : FuOp := .mul
  multResult : BitVec 128 := 0
  deriving DecidableEq, Inhabited

section Datapath

variable (op : FuOp) (a b : BitVec 64)

def signA : Bool := op == .mulh || op == .mulhsu

def signB : Bool := op == .mulh

/-- `{operand[63] & sign, operand}`, extended with its sign to the width of the product. -/
def extended (sign : Bool) (x : BitVec 64) : BitVec 128 :=
  (BitVec.ofBool (x.msb && sign) ++ x).signExtend 128

/-- `mult_result_d` -/
def product : BitVec 128 := extended (signA op) a * extended (signB op) b

end Datapath

/-- `result_o` -/
def State.result (pkg : Pkg) (q : State) : BitVec 64 :=
  match q.operator with
  | .mulh | .mulhu | .mulhsu => q.multResult.extractLsb' 64 64
  | .mulw => pkg.sext32 (q.multResult.setWidth 32)
  | _ => q.multResult.setWidth 64

def next (d : FuData) (valid : Bool) : State where
  transId := d.transId
  multValid := valid && operates d.operator
  operator := d.operator
  multResult := product d.operator d.operandA d.operandB

end Multiplier

namespace Mult

def divides (op : FuOp) : Bool :=
  op ∈ [.div, .divu, .divw, .divuw, .rem, .remu, .remw, .remuw]

def wordOp (op : FuOp) : Bool := op ∈ [.divw, .divuw, .remw, .remuw]

def divSigned (op : FuOp) : Bool := op ∈ [.div, .divw, .rem, .remw]

def rem (op : FuOp) : Bool := op ∈ [.rem, .remu, .remw, .remuw]

structure State where
  mul : Multiplier.State := {}
  div : Serdiv.State 64 := {}
  wordOp : Bool := false
  deriving DecidableEq, Inhabited

structure Input where
  flush : Bool := false
  fuData : FuData := {}
  multValid : Bool := false
  deriving DecidableEq, Inhabited

/-- The operand that the divider gets. -/
def operand (pkg : Pkg) (op : FuOp) (x : BitVec 64) : BitVec 64 :=
  if wordOp op then
    if divSigned op then pkg.sext32 (x.setWidth 32) else (x.setWidth 32).setWidth 64
  else x

section Cycle

variable (pkg : Pkg) (q : State) (i : Input)

def mulValidOp : Bool := !i.flush && i.multValid && Multiplier.operates i.fuData.operator

def divValidOp : Bool := !i.flush && i.multValid && divides i.fuData.operator

/-- A division is offered, in which case the operands are not silenced. -/
def offered : Bool := i.multValid && divides i.fuData.operator

/-- `div_ready_i` -/
def divReady : Bool := !q.mul.multValid

def divInput : Serdiv.Input 64 where
  id := i.fuData.transId
  opA := if offered i then operand pkg i.fuData.operator i.fuData.operandA else 0
  opB := if offered i then operand pkg i.fuData.operator i.fuData.operandB else 0
  opcode := BitVec.ofBool (rem i.fuData.operator) ++ BitVec.ofBool (divSigned i.fuData.operator)
  inVld := divValidOp i
  flush := i.flush
  outRdy := divReady q

/-- `mult_ready_o` -/
def multReady : Bool := Serdiv.inRdy q.div (divInput pkg q i)

/-- `mult_valid_o` -/
def multValid : Bool := Serdiv.outVld q.div (divInput pkg q i) || q.mul.multValid

def multTransId : Nat := if q.mul.multValid then q.mul.transId else q.div.id

def divResult : BitVec 64 :=
  let result := Serdiv.result q.div
  if q.wordOp then pkg.sext32 (result.setWidth 32) else result

/-- `result_o` -/
def result : BitVec 64 := if q.mul.multValid then q.mul.result pkg else divResult pkg q

def next : State where
  mul := Multiplier.next i.fuData (mulValidOp i)
  div := Serdiv.next q.div (divInput pkg q i)
  wordOp := if offered i then wordOp i.fuData.operator else q.wordOp

end Cycle

end Mult

end Ariane
