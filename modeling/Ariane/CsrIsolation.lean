import Ariane.CsrUpdate

set_option autoImplicit false

/- Privilege isolation of CSR accesses: the check of the address, and what a level can learn
about the registers above it. -/
namespace Ariane.CsrRegfile

open Rtl (Machine)
open Riscv

/-- The access is reported as an illegal instruction. -/
def IllegalRaised (pkg : Pkg) (q : State) (i : Input) : Prop :=
  (csrException pkg q i).valid = true ∧ (csrException pkg q i).cause = illegalInstr

/-- The two states differ only in registers above the current level. Of the registers with two
addresses the lower level counts. -/
structure AgreeUpTo (pkg : Pkg) (q t : State) : Prop where
  level : t.privLvl = q.privLvl
  outside : t.debugMode = q.debugMode
  user : t.fcsr = q.fcsr ∧ t.cycle = q.cycle ∧ t.instret = q.instret
  supervisor : covers q.privLvl privLvlS = true →
    t.stvec = q.stvec ∧ t.sscratch = q.sscratch ∧ t.sepc = q.sepc ∧ t.scause = q.scause ∧
      t.stval = q.stval ∧ t.satp = q.satp
  machine : covers q.privLvl privLvlM = true →
    (t.mstatus = q.mstatus ∧ t.medeleg = q.medeleg ∧ t.mideleg = q.mideleg ∧ t.mie = q.mie ∧
      t.mip = q.mip) ∧
    t.mtvec = q.mtvec ∧ t.mscratch = q.mscratch ∧ t.mepc = q.mepc ∧ t.mcause = q.mcause ∧
      t.mtval = q.mtval
  dcache : covers q.privLvl (addressPriv pkg.csrDcache) = true → t.dcache = q.dcache
  icache : covers q.privLvl (addressPriv pkg.csrIcache) = true → t.icache = q.icache

/-- The views of a lower level on parts of machine registers. -/
def SubsetView (pkg : Pkg) (i : Input) : Prop :=
  decode pkg i.csrAddr ∈ [some .sstatus, some .sie, some .sip]

/-- What the level check promises for the access `i` in state `q`: an access above the level
is illegal, and a legal access returns the same in every state that agrees up to the level. -/
structure Isolated (pkg : Pkg) (q : State) (i : Input) : Prop where
  checked : covers q.privLvl (addressPriv i.csrAddr) = false → IllegalRaised pkg q i
  hidden : ∀ t, AgreeUpTo pkg q t → accessIllegal pkg q i = false →
    accessIllegal pkg t i = false → ¬ SubsetView pkg i → csrRdataO pkg t i = csrRdataO pkg q i

theorem illegalRaised_iff (pkg : Pkg) (q : State) (i : Input) :
    IllegalRaised pkg q i ↔ accessIllegal pkg q i = true := by
  unfold IllegalRaised csrException
  cases illegal : accessIllegal pkg q i with
  | true => exact iff_of_true ⟨rfl, rfl⟩ rfl
  | false =>
      refine iff_of_false ?_ (by decide)
      intro raised
      have high := interrupt_cause q i raised.1
      have cause : (interrupt q i).cause = illegalInstr := raised.2
      rw [cause] at high
      exact absurd high (by decide)

theorem decode_mepc (pkg : Pkg) : decode pkg (CsrReg.mepc.address pkg) = some .mepc := rfl

/-- No check stops an access to `mepc`. -/
theorem mepc_legal (pkg : Pkg) (q : State) (i : Input)
    (address : i.csrAddr = CsrReg.mepc.address pkg) : accessIllegal pkg q i = false := by
  have found : decode pkg i.csrAddr = some .mepc := by rw [address, decode_mepc]
  have exempt : privilegeViolation pkg q i = false := by
    rw [privilegeViolation, address, bne_self_eq_false, Bool.and_false]
  have visible : debugViolation q i = false := by
    rw [debugViolation, address]
    simp only [CsrReg.address]
    rw [show ((0x341#12).extractLsb' 4 8 == 0x7b#8) = false by decide, Bool.false_and]
  have written : (written pkg q i).updateAccessException = false := by
    rw [CsrRegfile.written, found]
    split <;> rfl
  have read : readAccessException pkg q i = false := by
    rw [readAccessException, readAddr, found]
    exact Bool.and_false _
  rw [accessIllegal, exempt, visible, written, read]
  simp only [Bool.or_self, Bool.and_false]

theorem covered_of_legal (pkg : Pkg) (q : State) (i : Input) (outside : q.debugMode = false)
    (access : csrRead i.csrOp = true) (legal : accessIllegal pkg q i = false) :
    (i.csrAddr ≠ CsrReg.mepc.address pkg →
      covers q.privLvl (addressPriv i.csrAddr) = true) ∧
    i.csrAddr.extractLsb' 4 8 ≠ 0x7b#8 := by
  rw [accessIllegal, access] at legal
  simp only [Bool.or_true, Bool.true_and, Bool.or_eq_false_iff] at legal
  obtain ⟨⟨⟨level, debug⟩, _⟩, _⟩ := legal
  constructor
  · intro other
    rw [privilegeViolation, bne_iff_ne.mpr other, Bool.and_true, Bool.not_eq_false'] at level
    simpa only [privLvlO, outside, Bool.false_eq_true, ↓reduceIte] using level
  · rw [debugViolation, outside, Bool.not_false, Bool.and_true] at debug
    exact beq_eq_false_iff_ne.mp debug

theorem readable_of_legal (pkg : Pkg) (q : State) (i : Input)
    (access : csrRead i.csrOp = true) (legal : accessIllegal pkg q i = false) :
    ∃ r v, decode pkg i.csrAddr = some r ∧ readReg pkg q i r = some v := by
  rw [accessIllegal, Bool.or_eq_false_iff] at legal
  have read := legal.2
  rw [readAccessException, access, Bool.true_and, Option.isNone_eq_false_iff, readAddr] at read
  obtain ⟨v, found⟩ := Option.isSome_iff_exists.mp read
  obtain ⟨r, selected, value⟩ := Option.bind_eq_some_iff.mp found
  exact ⟨r, v, selected, value⟩

theorem readReg_agree (pkg : Pkg) (q t : State) (i : Input) (r : CsrReg) (v v' : BitVec 64)
    (agree : AgreeUpTo pkg q t)
    (covered : covers q.privLvl (addressPriv (r.address pkg)) = true)
    (plain : (r.address pkg).extractLsb' 4 8 ≠ 0x7b#8)
    (view : r ∉ [CsrReg.sstatus, CsrReg.sie, CsrReg.sip])
    (read : readReg pkg q i r = some v) (read' : readReg pkg t i r = some v') : v' = v := by
  have user := agree.user
  cases r with
  | fflags | frm | fcsr | ftran =>
      simp only [readReg] at read read'
      grind
  | dcsr | dpc | dscratch0 | dscratch1 => exact absurd (by simp [CsrReg.address]) plain
  | sstatus | sie | sip => exact absurd (by decide) view
  | tselect | tdata1 | tdata2 | tdata3 | scounteren | misa | mcounteren | mvendorid | marchid
  | mimpid | mhartid | perf =>
      simp only [readReg, Option.some.injEq] at read read'
      rw [← read, ← read']
  | stvec | sscratch | sepc | scause | stval | satp =>
      have level : covers q.privLvl privLvlS = true := by
        simpa [CsrReg.address, addressPriv, privLvlS] using covered
      have same := agree.supervisor level
      simp only [readReg] at read read'
      grind
  | mstatus | medeleg | mideleg | mie | mtvec | mscratch | mepc | mcause | mtval | mip =>
      have level : covers q.privLvl privLvlM = true := by
        simpa [CsrReg.address, addressPriv, privLvlM] using covered
      have same := agree.machine level
      simp only [readReg] at read read'
      grind
  | mcycle | minstret | cycle | instret =>
      simp only [readReg] at read read'
      grind
  | dcache =>
      have same := agree.dcache covered
      simp only [readReg] at read read'
      grind
  | icache =>
      have same := agree.icache covered
      simp only [readReg] at read read'
      grind

/-- The shown value is the one read, but for the external interrupt in `mip`. -/
theorem csrRdataO_agree (pkg : Pkg) (q t : State) (i : Input) (agree : AgreeUpTo pkg q t)
    (outside : q.debugMode = false) (access : csrRead i.csrOp = true)
    (legal : accessIllegal pkg q i = false) (legal' : accessIllegal pkg t i = false)
    (view : ¬ SubsetView pkg i)
    (covered : covers q.privLvl (addressPriv i.csrAddr) = true) :
    csrRdataO pkg t i = csrRdataO pkg q i := by
  obtain ⟨r, v, found, read⟩ := readable_of_legal pkg q i access legal
  obtain ⟨r', v', found', read'⟩ := readable_of_legal pkg t i access legal'
  obtain rfl : r = r' := Option.some.inj (found.symm.trans found')
  have address := address_of_decode pkg _ _ found
  have plain := (covered_of_legal pkg q i outside access legal).2
  have other : r ∉ [CsrReg.sstatus, CsrReg.sie, CsrReg.sip] := by
    intro member
    apply view
    unfold SubsetView
    rw [found]
    simpa using member
  have same : v' = v := by
    rw [← address] at covered plain
    exact readReg_agree pkg q t i r v v' agree covered plain other read read'
  have value : csrRdata pkg q i = v := by
    simp only [csrRdata, access, ↓reduceIte, readAddr, found, Option.bind_some, read,
      Option.getD_some]
  have value' : csrRdata pkg t i = v' := by
    simp only [csrRdata, access, ↓reduceIte, readAddr, found, Option.bind_some, read',
      Option.getD_some]
  unfold csrRdataO
  rw [found, value, value', same]
  cases r with
  | sip => exact absurd (by decide) other
  | _ => rfl

/-- A CSR access is isolated exactly when it is not to `mepc` from below the machine level. -/
theorem csr_isolation (pkg : Pkg) (q : State) (i : Input) (outside : q.debugMode = false)
    (access : csrRead i.csrOp = true) :
    Isolated pkg q i ↔
      i.csrAddr ≠ CsrReg.mepc.address pkg ∨
        covers q.privLvl (addressPriv (CsrReg.mepc.address pkg)) = true := by
  constructor
  · intro isolated
    by_cases address : i.csrAddr = CsrReg.mepc.address pkg
    · right
      rw [← address, ← Bool.not_eq_false]
      intro above
      have raised := (illegalRaised_iff pkg q i).mp (isolated.checked above)
      rw [mepc_legal pkg q i address] at raised
      exact absurd raised (by decide)
    · exact Or.inl address
  · intro allowed
    have level : accessIllegal pkg q i = false →
        covers q.privLvl (addressPriv i.csrAddr) = true := by
      intro legal
      by_cases address : i.csrAddr = CsrReg.mepc.address pkg
      · rw [address]
        exact allowed.resolve_left (absurd address)
      · exact (covered_of_legal pkg q i outside access legal).1 address
    constructor
    · intro above
      rw [illegalRaised_iff, ← Bool.not_eq_false]
      intro legal
      rw [level legal] at above
      exact absurd above (by decide)
    · intro t agree legal legal' view
      exact csrRdataO_agree pkg q t i agree outside access legal legal' view (level legal)

theorem csr_isolation_sepc :
    Isolated .rv64ima { privLvl := privLvlS } { csrOp := .csrRead, csrAddr := 0x141#12 } ↔
      (0x141#12 ≠ CsrReg.mepc.address .rv64ima ∨
        covers privLvlS (addressPriv (CsrReg.mepc.address .rv64ima)) = true) :=
  csr_isolation .rv64ima { privLvl := privLvlS } { csrOp := .csrRead, csrAddr := 0x141#12 } rfl
    rfl

/-- Machine code stores `secret` in `mepc` and returns to user mode. -/
def leaveSecret (secret : BitVec 64) : List Input :=
  [{ csrOp := .csrWrite, csrAddr := 0x341#12, csrWdata := secret }, { csrOp := .mret }]

/-- User code reads the register: no exception is raised, and the two runs, which differ only
in that machine register, give different values. -/
theorem mepc_is_readable_below :
    let q := (machine .rv64ima).run (leaveSecret 0x1000#64)
    let t := (machine .rv64ima).run (leaveSecret 0x2000#64)
    let read : Input := { csrOp := .csrRead, csrAddr := 0x341#12 }
    q.privLvl = privLvlU ∧ t = { q with mepc := 0x2000#64 } ∧
      (csrException .rv64ima q read).valid = false ∧
      (csrException .rv64ima t read).valid = false ∧
      csrRdataO .rv64ima q read = 0x1000#64 ∧ csrRdataO .rv64ima t read = 0x2000#64 := by
  decide

end Ariane.CsrRegfile
