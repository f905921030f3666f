import Ariane.Pkg
import Ariane.Rtl.Field

set_option autoImplicit false

/- The part of the privileged architecture that the CSR file names: privilege levels,
causes, register addresses and the packed status registers. -/
namespace Ariane.Riscv

open Rtl (Field)

/-- `priv_lvl_t`; the code `2'b10` is not implemented. -/
abbrev PrivLvl := BitVec 2

def privLvlM : PrivLvl := 0b11#2
def privLvlS : PrivLvl := 0b01#2
def privLvlU : PrivLvl := 0b00#2

/-- `xs_t`. -/
def off : BitVec 2 := 0b00#2
def dirty : BitVec 2 := 0b11#2

/-- `XLEN_64`. -/
def xlen64 : BitVec 2 := 0b10#2

/-! Exception causes. -/

def instrAddrMisaligned : BitVec 64 := 0
def instrAccessFault : BitVec 64 := 1
def illegalInstr : BitVec 64 := 2
def breakpoint : BitVec 64 := 3
def envCallUmode : BitVec 64 := 8
def envCallSmode : BitVec 64 := 9
def envCallMmode : BitVec 64 := 11
def instrPageFault : BitVec 64 := 12
def loadPageFault : BitVec 64 := 13
def storePageFault : BitVec 64 := 15

/-! Interrupt numbers, which are also the bits of `mip` and `mie`. -/

def irqSSoft : Nat := 1
def irqMSoft : Nat := 3
def irqSTimer : Nat := 5
def irqMTimer : Nat := 7
def irqSExt : Nat := 9
def irqMExt : Nat := 11

/-- The cause of interrupt `irq`. -/
def interruptCause (irq : Nat) : BitVec 64 := (1#64 <<< 63) ||| BitVec.ofNat 64 irq

/-- The mask with bit `irq`. -/
def mipBit (irq : Nat) : BitVec 64 := 1#64 <<< irq

/-- `dm::CauseBreakpoint` and its siblings. -/
def causeBreakpoint : BitVec 3 := 1
def causeRequest : BitVec 3 := 3
def causeSingleStep : BitVec 3 := 4

/-- `dm::ExceptionAddress`. -/
def exceptionAddress : BitVec 64 := 0x808#64

def modeOff : BitVec 4 := 0
def modeSv39 : BitVec 4 := 8

/-! Members of `status_rv64_t`. -/

namespace Status

abbrev sie : Field 64 := ⟨1, 1, by decide⟩
abbrev mie : Field 64 := ⟨3, 1, by decide⟩
abbrev uie : Field 64 := ⟨0, 1, by decide⟩
abbrev upie : Field 64 := ⟨4, 1, by decide⟩
abbrev spie : Field 64 := ⟨5, 1, by decide⟩
abbrev mpie : Field 64 := ⟨7, 1, by decide⟩
abbrev spp : Field 64 := ⟨8, 1, by decide⟩
abbrev mpp : Field 64 := ⟨11, 2, by decide⟩
abbrev fs : Field 64 := ⟨13, 2, by decide⟩
abbrev xs : Field 64 := ⟨15, 2, by decide⟩
abbrev mprv : Field 64 := ⟨17, 1, by decide⟩
abbrev sum : Field 64 := ⟨18, 1, by decide⟩
abbrev mxr : Field 64 := ⟨19, 1, by decide⟩
abbrev tvm : Field 64 := ⟨20, 1, by decide⟩
abbrev tw : Field 64 := ⟨21, 1, by decide⟩
abbrev tsr : Field 64 := ⟨22, 1, by decide⟩
abbrev uxl : Field 64 := ⟨32, 2, by decide⟩
abbrev sxl : Field 64 := ⟨34, 2, by decide⟩
abbrev sd : Field 64 := ⟨63, 1, by decide⟩

end Status

/-! Members of `dcsr_t`. -/

namespace Dcsr

abbrev prv : Field 32 := ⟨0, 2, by decide⟩
abbrev step : Field 32 := ⟨2, 1, by decide⟩
abbrev nmip : Field 32 := ⟨3, 1, by decide⟩
abbrev mprven : Field 32 := ⟨4, 1, by decide⟩
abbrev cause : Field 32 := ⟨6, 3, by decide⟩
abbrev stoptime : Field 32 := ⟨9, 1, by decide⟩
abbrev stopcount : Field 32 := ⟨10, 1, by decide⟩
abbrev stepie : Field 32 := ⟨11, 1, by decide⟩
abbrev ebreaku : Field 32 := ⟨12, 1, by decide⟩
abbrev ebreaks : Field 32 := ⟨13, 1, by decide⟩
abbrev ebreakm : Field 32 := ⟨15, 1, by decide⟩
abbrev xdebugver : Field 32 := ⟨28, 4, by decide⟩

end Dcsr

/-! The machine level bits of `mip`. -/

namespace Mip

abbrev msip : Field 64 := ⟨3, 1, by decide⟩
abbrev mtip : Field 64 := ⟨7, 1, by decide⟩
abbrev meip : Field 64 := ⟨11, 1, by decide⟩

end Mip

/-! Members of `satp_t`. -/

namespace Satp

abbrev ppn : Field 64 := ⟨0, 44, by decide⟩
abbrev asid : Field 64 := ⟨44, 16, by decide⟩
abbrev mode : Field 64 := ⟨60, 4, by decide⟩

end Satp

/-! Members of `fcsr_t`. -/

namespace Fcsr

abbrev fflags : Field 32 := ⟨0, 5, by decide⟩
abbrev frm : Field 32 := ⟨5, 3, by decide⟩
abbrev fprec : Field 32 := ⟨8, 7, by decide⟩

end Fcsr

/-- The registers that the case statements of `csr_regfile` name. -/
inductive CsrReg where
  | fflags | frm | fcsr | ftran
  | dcsr | dpc | dscratch0 | dscratch1
  | tselect | tdata1 | tdata2 | tdata3
  | sstatus | sie | sip | stvec | scounteren | sscratch | sepc | scause | stval | satp
  | mstatus | misa | medeleg | mideleg | mie | mtvec | mcounteren | mscratch | mepc | mcause
  | mtval | mip | mvendorid | marchid | mimpid | mhartid | mcycle | minstret
  | dcache | icache
  | cycle | instret
  | perf (k : Fin 12)
  deriving DecidableEq, Inhabited

/-- The 12-bit address of a register. -/
def CsrReg.address (pkg : Pkg) : CsrReg → BitVec 12
  | fflags => 0x001#12
  | frm => 0x002#12
  | fcsr => 0x003#12
  | ftran => pkg.csrFtran
  | dcsr => 0x7b0#12
  | dpc => 0x7b1#12
  | dscratch0 => 0x7b2#12
  | dscratch1 => 0x7b3#12
  | tselect => 0x7a0#12
  | tdata1 => 0x7a1#12
  | tdata2 => 0x7a2#12
  | tdata3 => 0x7a3#12
  | sstatus => 0x100#12
  | sie => 0x104#12
  | sip => 0x144#12
  | stvec => 0x105#12
  | scounteren => 0x106#12
  | sscratch => 0x140#12
  | sepc => 0x141#12
  | scause => 0x142#12
  | stval => 0x143#12
  | satp => 0x180#12
  | mstatus => 0x300#12
  | misa => 0x301#12
  | medeleg => 0x302#12
  | mideleg => 0x303#12
  | mie => 0x304#12
  | mtvec => 0x305#12
  | mcounteren => 0x306#12
  | mscratch => 0x340#12
  | mepc => 0x341#12
  | mcause => 0x342#12
  | mtval => 0x343#12
  | mip => 0x344#12
  | mvendorid => 0xf11#12
  | marchid => 0xf12#12
  | mimpid => 0xf13#12
  | mhartid => 0xf14#12
  | mcycle => 0xb00#12
  | minstret => 0xb02#12
  | dcache => pkg.csrDcache
  | icache => pkg.csrIcache
  | cycle => 0xc00#12
  | instret => 0xc02#12
  | perf k => pkg.csrPerf k

/-- All registers. Enumeration values differ, so their order does not matter to the case
statement; those with an address of the ISA come first. -/
def CsrReg.all : List CsrReg :=
  [fflags, frm, fcsr, dcsr, dpc, dscratch0, dscratch1, tselect, tdata1, tdata2, tdata3,
    sstatus, sie, sip, stvec, scounteren, sscratch, sepc, scause, stval, satp, mstatus, misa,
    medeleg, mideleg, mie, mtvec, mcounteren, mscratch, mepc, mcause, mtval, mip, mvendorid,
    marchid, mimpid, mhartid, mcycle, minstret, cycle, instret, ftran, dcache, icache] ++
    (List.finRange 12).map perf

/-- The case item that an address selects. -/
def decode (pkg : Pkg) (address : BitVec 12) : Option CsrReg :=
  CsrReg.all.find? fun r => r.address pkg == address

/-- `csr_decode.priv_lvl`, bits 9 and 8 of the address. -/
def addressPriv (address : BitVec 12) : PrivLvl := address.extractLsb' 8 2

/-- Level `p` covers level `l`. -/
def covers (p l : PrivLvl) : Bool := p &&& l == l

theorem address_of_decode (pkg : Pkg) (address : BitVec 12) (r : CsrReg)
    (found : decode pkg address = some r) : r.address pkg = address := by
  have hit := List.find?_some found
  exact eq_of_beq hit

end Ariane.Riscv
