import Mathlib.Logic.Basic

set_option autoImplicit false

/- The types that the pipeline stages exchange. `include/ariane_pkg.sv` is a
separate file set: its functions and constants are fields of `Pkg`, and the
models are generic in them. -/
namespace Ariane

/-- `fu_t`, the functional unit an instruction needs. -/
inductive Fu where
  | none | load | store | alu | ctrlFlow | mult | csr | fpu | fpuVec
  deriving DecidableEq, Inhabited

/-- `fu_op`, the operation the functional unit performs. -/
inductive FuOp where
  | add | sub | addw | subw | xorl | orl | andl | sra | srl | sll | srlw | sllw | sraw
  | lts | ltu | ges | geu | eq | ne | jalr | slts | sltu
  | mret | sret | dret | wfi | fence | fenceI | sfenceVma
  | csrWrite | csrRead | csrSet | csrClear
  | ld | sd | lw | lwu | sw | lh | lhu | sh | lb | sb | lbu
  | amoLrw | amoLrd | amoScw | amoScd | amoSwapw | amoAddw | amoAndw | amoOrw | amoXorw
  | amoMaxw | amoMaxwu | amoMinw | amoMinwu | amoSwapd | amoAddd | amoAndd | amoOrd
  | amoXord | amoMaxd | amoMaxdu | amoMind | amoMindu
  | mul | mulh | mulhu | mulhsu | mulw | div | divu | divw | divuw | rem | remu | remw | remuw
  | fld | flw | flh | flb | fsd | fsw | fsh | fsb
  | fadd | fsub | fmul | fdiv | fminMax | fsqrt | fmadd | fmsub | fnmsub | fnmadd
  | fcvtF2I | fcvtI2F | fcvtF2F | fsgnj | fmvF2X | fmvX2F | fcmp | fclass
  | vfmin | vfmax | vfsgnj | vfsgnjn | vfsgnjx | vfeq | vfne | vflt | vfge | vfle | vfgt
  | vfcpkabS | vfcpkcdS | vfcpkabD | vfcpkcdD
  deriving DecidableEq, Inhabited

/-- The operations whose names start with `AMO_`. -/
def FuOp.amoNamed (op : FuOp) : Bool :=
  op ∈ [.amoLrw, .amoLrd, .amoScw, .amoScd, .amoSwapw, .amoAddw, .amoAndw, .amoOrw, .amoXorw,
    .amoMaxw, .amoMaxwu, .amoMinw, .amoMinwu, .amoSwapd, .amoAddd, .amoAndd, .amoOrd,
    .amoXord, .amoMaxd, .amoMaxdu, .amoMind, .amoMindu]

/-- `exception_t`. -/
structure Exception where
  cause : BitVec 64 := 0
  tval : BitVec 64 := 0
  valid : Bool := false
  deriving DecidableEq, Inhabited

/-- Bit 63 of the cause distinguishes interrupts from synchronous exceptions. -/
def Exception.isInterrupt (e : Exception) : Bool := e.cause.getLsbD 63

/-- `branchpredict_sbe_t`, the prediction that travels with an instruction. -/
structure BranchpredictSbe where
  valid : Bool := false
  predictAddress : BitVec 64 := 0
  predictTaken : Bool := false
  deriving DecidableEq, Inhabited

/-- `scoreboard_entry_t`. Register names have `REG_ADDR_SIZE = 6` bits, the upper
one is the renaming bit. -/
structure ScoreboardEntry where
  pc : BitVec 64 := 0
  transId : Nat := 0
  fu : Fu := .none
  op : FuOp := .add
  rs1 : BitVec 6 := 0
  rs2 : BitVec 6 := 0
  rd : BitVec 6 := 0
  result : BitVec 64 := 0
  valid : Bool := false
  useImm : Bool := false
  useZimm : Bool := false
  usePc : Bool := false
  ex : Exception := {}
  bp : BranchpredictSbe := {}
  isCompressed : Bool := false
  deriving DecidableEq, Inhabited

/-- `amo_resp_t`, the answer of the cache subsystem to an atomic operation. -/
structure AmoResp where
  ack : Bool := false
  result : BitVec 64 := 0
  deriving DecidableEq, Inhabited

/-- The functions and constants of `ariane_pkg` and `riscv_pkg` that the modelled modules
use and that the repository does not fix, and the module parameter `ASID_WIDTH`. -/
structure Pkg where
  isRdFpr : FuOp → Bool
  isRs1Fpr : FuOp → Bool
  isRs2Fpr : FuOp → Bool
  isImmFpr : FuOp → Bool
  isAmo : FuOp → Bool
  sext32 : BitVec 32 → BitVec 64
  fpPresent : Bool
  rva : Bool
  enableRename : Bool
  enableCycleCount : Bool
  zeroTval : Bool
  flen : Nat
  smodeStatusReadMask : BitVec 64
  smodeStatusWriteMask : BitVec 64
  isaCode : BitVec 64
  arianeMarchid : BitVec 64
  asidWidth : Nat
  -- addresses of the CSRs that the ISA does not define
  csrFtran : BitVec 12
  csrDcache : BitVec 12
  csrIcache : BitVec 12
  csrPerf : Fin 12 → BitVec 12

/-- `sext32` extends a word with its sign. -/
def Pkg.Extends (pkg : Pkg) : Prop := ∀ x, pkg.sext32 x = x.signExtend 64

/-- A configuration without floating point and without renaming. -/
def Pkg.rv64ima : Pkg where
  isRdFpr _ := false
  isRs1Fpr _ := false
  isRs2Fpr _ := false
  isImmFpr _ := false
  isAmo := FuOp.amoNamed
  sext32 x := x.signExtend 64
  fpPresent := false
  rva := true
  enableRename := false
  enableCycleCount := true
  zeroTval := false
  flen := 64
  -- SD, MXR, SUM, XS, FS, SPP, SPIE, UPIE, SIE, UIE
  smodeStatusReadMask := 0x80000000000de133#64
  -- MXR, SUM, FS, SPP, SPIE, SIE
  smodeStatusWriteMask := 0x00000000000c6122#64
  isaCode := 0x8000000000141101#64
  arianeMarchid := 3#64
  asidWidth := 1
  csrFtran := 0x800#12
  csrDcache := 0x701#12
  csrIcache := 0x700#12
  csrPerf k := BitVec.ofNat 12 (0xc03 + k.val)

end Ariane
