import Ariane.DecoderOpcodes

set_option autoImplicit false

/- The system opcode, and every word. -/
namespace Ariane.Decoder

open Rv64 (Priv Mode Isa Instr opcode rd rs1 rs2 funct3 funct7 immI immS immB immU immJ isa legal)

variable {p : Immediates} {mode : Mode} {word : BitVec 32}

section Csr

/-- The CSR instruction of a function field. -/
theorem agrees_csr (lawful : p.Lawful) (opc : opcode word = Rv64.opcodeSystem)
    (other : funct3 word ≠ 0) : Agrees p mode word (system p mode word) := by
  have plain : plainFence word = true := plainFence_of_opcode (by rw [opc]; decide)
  have instr := isa_system opc
  rw [if_neg other] at instr
  have entry : ∀ {op : Rv64.CsrOp} {zimm : Bool} {s : Signals},
      isa word = some (.csr op zimm (rd word) (rs1 word) (immI word)) →
      s = { fu := .csr, rs1 := rs1 word, rd := rd word, immSelect := .iimm, useZimm := zimm
            op := csrFuOp (rs1 word) op } → Agrees p mode word s := by
    intro op zimm s some same
    subst same
    exact agrees_some some rfl plain rfl (entry_iimm lawful rfl) rfl rfl
  rw [system]
  rcases three_bits (funct3 word) with f3 | f3 | f3 | f3 | f3 | f3 | f3 | f3 <;>
    rw [f3] at instr ⊢
  · exact absurd f3 other
  · exact entry instr rfl
  · exact entry instr rfl
  · exact entry instr rfl
  · exact agrees_none instr rfl
  · exact entry instr rfl
  · exact entry instr rfl
  · exact entry instr rfl

end Csr

section Privileged

/-- A word is put together from the fields of the I format. -/
theorem word_eq_iff {other : BitVec 32} (opc : opcode word = opcode other)
    (f3 : funct3 word = funct3 other) :
    word = other ↔ immI word = immI other ∧ rs1 word = rs1 other ∧ rd word = rd other := by
  constructor
  · rintro rfl
    exact ⟨rfl, rfl, rfl⟩
  · rintro ⟨imm, source, dest⟩
    have opc := congrArg BitVec.toNat opc
    have f3 := congrArg BitVec.toNat f3
    have imm := congrArg BitVec.toNat imm
    have source := congrArg BitVec.toNat source
    have dest := congrArg BitVec.toNat dest
    have first := word.isLt
    have second := other.isLt
    simp only [opcode, funct3, immI, rs1, rd, BitVec.extractLsb'_toNat,
      Nat.shiftRight_eq_div_pow] at opc f3 imm source dest
    apply BitVec.eq_of_toNat_eq
    omega

/-- An instruction without operands, by its immediate. -/
theorem word_eq (opc : opcode word = Rv64.opcodeSystem) (zero : funct3 word = 0) {other : BitVec 32}
    (same : opcode other = Rv64.opcodeSystem ∧ funct3 other = 0 ∧ rs1 other = 0 ∧ rd other = 0) :
    word = other ↔ immI word = immI other ∧ rs1 word = 0 ∧ rd word = 0 := by
  obtain ⟨opc', f3, source, dest⟩ := same
  rw [word_eq_iff (opc.trans opc'.symm) (zero.trans f3.symm), source, dest]

/-- The privileged instruction of a word, by its fields. -/
theorem privileged_eq (opc : opcode word = Rv64.opcodeSystem) (zero : funct3 word = 0) :
    Rv64.privileged word =
      if rs1 word = 0 ∧ rd word = 0 ∧ immI word = 0x000 then some (.base .ecall)
      else if rs1 word = 0 ∧ rd word = 0 ∧ immI word = 0x001 then some (.base .ebreak)
      else if rs1 word = 0 ∧ rd word = 0 ∧ immI word = 0x102 then some .sret
      else if rs1 word = 0 ∧ rd word = 0 ∧ immI word = 0x302 then some .mret
      else if rs1 word = 0 ∧ rd word = 0 ∧ immI word = 0x7b2 then some .dret
      else if rs1 word = 0 ∧ rd word = 0 ∧ immI word = 0x105 then some .wfi
      else if funct7 word = 0b0001001 ∧ rd word = 0 then
        some (.sfenceVma (rs1 word) (rs2 word))
      else none := by
  have fixed : ∀ (other : BitVec 32) (imm : BitVec 12), immI other = imm →
      opcode other = Rv64.opcodeSystem ∧ funct3 other = 0 ∧ rs1 other = 0 ∧ rd other = 0 →
      (word = other ↔ rs1 word = 0 ∧ rd word = 0 ∧ immI word = imm) := by
    intro other imm field same
    rw [word_eq opc zero same, field, and_comm, and_assoc]
  simp only [Rv64.privileged, fixed 0x00000073 0x000 (by decide) (by decide),
    fixed 0x00100073 0x001 (by decide) (by decide), fixed 0x10200073 0x102 (by decide) (by decide),
    fixed 0x30200073 0x302 (by decide) (by decide), fixed 0x7b200073 0x7b2 (by decide) (by decide),
    fixed 0x10500073 0x105 (by decide) (by decide)]

theorem funct7_eq : funct7 word = (immI word).extractLsb' 5 7 := by
  rw [immI, funct7, Rtl.extract_extract _ _ _ _ _ (by omega)]

/-- The immediates that have a case of their own. -/
def listed : List (BitVec 12) := [0x000, 0x001, 0x102, 0x302, 0x7b2, 0x105]

theorem not_fence_of_listed : ∀ imm ∈ listed, imm.extractLsb' 5 7 ≠ 0b0001001#7 := by
  intro imm member
  simp only [listed, List.mem_cons, List.not_mem_nil, or_false] at member
  rcases member with rfl | rfl | rfl | rfl | rfl | rfl <;> decide

/-- The signals before the case over the immediate. -/
def flagged (word : BitVec 32) : Signals :=
  let s : Signals := { fu := .csr, rs1 := rs1 word, rd := rd word }
  if rs1 word ≠ 0 ∨ rd word ≠ 0 then { s with illegalInstr := true } else s

theorem flagged_of_operands (operands : rs1 word ≠ 0 ∨ rd word ≠ 0) :
    flagged word = { fu := .csr, rs1 := rs1 word, rd := rd word, illegalInstr := true } :=
  if_pos operands

theorem flagged_plain (source : rs1 word = 0) (dest : rd word = 0) :
    flagged word = { fu := .csr } := by
  rw [flagged, source, dest]
  rfl

/-- The cases of the immediate. -/
structure Cases (p : Immediates) (mode : Mode) (word : BitVec 32) (s : Signals) : Prop where
  ecall : immI word = 0x000 → s = { flagged word with ecall := true }
  ebreak : immI word = 0x001 → s = { flagged word with ebreak := true }
  sret : immI word = 0x102 →
    s = if mode.supervises mode.tsr then { flagged word with op := .sret }
      else { flagged word with illegalInstr := true }
  mret : immI word = 0x302 →
    s = { flagged word with
      op := .mret, illegalInstr := (flagged word).illegalInstr || mode.priv != .m }
  dret : immI word = 0x7b2 → s = { flagged word with op := .dret, illegalInstr := !mode.debug }
  wfi : immI word = 0x105 →
    s = if mode.supervises mode.tw then
        { flagged word with op := if p.enableWfi then .wfi else .add }
      else { flagged word with illegalInstr := true }
  rest : immI word ∉ listed →
    s = if funct7 word = 0b0001001 then
        { flagged word with op := .sfenceVma, illegalInstr := !mode.supervises mode.tvm }
      else flagged word

theorem flagged_op : (flagged word).op = .add := by
  rw [flagged]
  split <;> rfl

theorem privileged_cases :
    Cases p mode word
      (privileged p mode word { fu := .csr, rs1 := rs1 word, rd := rd word }) := by
  have start : (if rs1 word ≠ 0 ∨ rd word ≠ 0 then
      ({ fu := .csr, rs1 := rs1 word, rd := rd word, illegalInstr := true } : Signals)
    else { fu := .csr, rs1 := rs1 word, rd := rd word }) = flagged word := rfl
  have add := @flagged_op word
  unfold privileged
  dsimp only
  rw [start]
  refine ⟨?_, ?_, ?_, ?_, ?_, ?_, ?_⟩
  · intro imm
    rw [imm]
    rfl
  · intro imm
    rw [imm]
    rfl
  · intro imm
    rw [imm, Mode.supervises]
    show (if mode.priv = .s ∧ mode.tsr = true then _ else if mode.priv = .u then _ else _) = _
    cases mode.priv <;> cases mode.tsr <;> rw [← add] <;> rfl
  · intro imm
    rw [imm]
    show (if mode.priv = .u ∨ mode.priv = .s then _ else _) = _
    cases mode.priv <;> cases (flagged word).illegalInstr <;> rfl
  · intro imm
    rw [imm]
    rfl
  · intro imm
    rw [imm, Mode.supervises]
    show (if mode.priv = .u then _ else if mode.priv = .s ∧ mode.tw = true then _ else _) = _
    cases mode.priv <;> cases mode.tw <;> cases p.enableWfi <;> rw [← add] <;> rfl
  · intro other
    have none : ∀ imm ∈ listed, immI word ≠ imm := fun imm member same => other (same ▸ member)
    split
    · next same => exact absurd (BitVec.eq_of_toNat_eq same) (none 0x000 (by decide))
    · next same => exact absurd (BitVec.eq_of_toNat_eq same) (none 0x001 (by decide))
    · next same => exact absurd (BitVec.eq_of_toNat_eq same) (none 0x102 (by decide))
    · next same => exact absurd (BitVec.eq_of_toNat_eq same) (none 0x302 (by decide))
    · next same => exact absurd (BitVec.eq_of_toNat_eq same) (none 0x7b2 (by decide))
    · next same => exact absurd (BitVec.eq_of_toNat_eq same) (none 0x105 (by decide))
    · rw [Mode.supervises]
      cases mode.priv <;> cases mode.tvm <;> rfl

/-- The instruction of a listed immediate, without operands and with them. -/
theorem privileged_listed (opc : opcode word = Rv64.opcodeSystem) (zero : funct3 word = 0)
    (member : immI word ∈ listed) (operands : rs1 word ≠ 0 ∨ rd word ≠ 0) :
    isa word = none := by
  have seven : funct7 word ≠ 0b0001001 := by
    rw [funct7_eq]
    exact not_fence_of_listed _ member
  have some : ¬(rs1 word = 0 ∧ rd word = 0) := by
    rintro ⟨source, dest⟩
    exact operands.elim (fun none => none source) fun none => none dest
  rw [isa_system opc, if_pos zero, privileged_eq opc zero]
  have no : ∀ imm : BitVec 12, ¬(rs1 word = 0 ∧ rd word = 0 ∧ immI word = imm) :=
    fun imm all => some ⟨all.1, all.2.1⟩
  rw [if_neg (no _), if_neg (no _), if_neg (no _), if_neg (no _), if_neg (no _), if_neg (no _),
    if_neg fun both => seven both.1]

/-- A privileged instruction, where it may be executed and elsewhere. -/
theorem agrees_allowed {s : Signals} {i : Isa} (instr : isa word = some i)
    (plain : plainFence word = true) (illegal : s.illegalInstr = !i.allowed mode)
    (entry : i.allowed mode = true → s.entry p word = entryOf p.enableWfi word i)
    (calls : s.ecall = false ∧ s.ebreak = false) (ecall : i ≠ .base .ecall)
    (ebreak : i ≠ .base .ebreak) : Agrees p mode word s := by
  refine ⟨?_, fun j some accepted => ?_⟩
  · rw [legal, instr, Option.any_some, plain, Bool.and_true, illegal]
  · rw [instr, Option.some.injEq] at some
    subst some
    rw [illegal, Bool.not_eq_false'] at accepted
    exact ⟨entry accepted, calls.1.trans (decide_eq_false ecall).symm,
      calls.2.trans (decide_eq_false ebreak).symm⟩

/-- The privileged instructions, but for the words for which the flag is lost. -/
theorem agrees_privileged (opc : opcode word = Rv64.opcodeSystem) (zero : funct3 word = 0)
    (kept : ¬Lost mode word) :
    Agrees p mode word
      (privileged p mode word { fu := .csr, rs1 := rs1 word, rd := rd word }) := by
  have plain : plainFence word = true := plainFence_of_opcode (by rw [opc]; decide)
  have cases := @privileged_cases p mode word
  have instr := isa_system opc
  rw [if_pos zero, privileged_eq opc zero] at instr
  generalize privileged p mode word { fu := .csr, rs1 := rs1 word, rd := rd word } = s at cases ⊢
  by_cases member : immI word ∈ listed
  · by_cases operands : rs1 word ≠ 0 ∨ rd word ≠ 0
    · -- operands: no instruction, and the flag stays
      refine agrees_none (privileged_listed opc zero member operands) ?_
      have flag : (flagged word).illegalInstr = true := by rw [flagged_of_operands operands]
      simp only [listed, List.mem_cons, List.not_mem_nil, or_false] at member
      rcases member with imm | imm | imm | imm | imm | imm
      · rw [cases.ecall imm]
        exact flag
      · rw [cases.ebreak imm]
        exact flag
      · rw [cases.sret imm]
        split
        · exact flag
        · rfl
      · rw [cases.mret imm]
        show ((flagged word).illegalInstr || _) = true
        rw [flag, Bool.true_or]
      · rw [cases.dret imm]
        show (!mode.debug) = true
        rw [Bool.not_eq_true', Bool.eq_false_iff]
        exact fun debug => kept ⟨opc, zero, .inl ⟨imm, debug, operands⟩⟩
      · rw [cases.wfi imm]
        split
        · exact flag
        · rfl
    · obtain ⟨source, dest⟩ := not_or.mp operands
      have source := Classical.not_not.mp source
      have dest := Classical.not_not.mp dest
      simp only [listed, List.mem_cons, List.not_mem_nil, or_false] at member
      rcases member with imm | imm | imm | imm | imm | imm <;>
        rw [source, dest, imm] at instr
      · refine agrees_some instr rfl plain ?_ ?_ ?_ ?_ <;>
          rw [cases.ecall imm, flagged_plain source dest] <;> rfl
      · refine agrees_some instr rfl plain ?_ ?_ ?_ ?_ <;>
          rw [cases.ebreak imm, flagged_plain source dest] <;> rfl
      · have same := cases.sret imm
        rw [flagged_plain source dest] at same
        subst same
        refine agrees_allowed instr plain ?_ (fun allowed => ?_) ?_ Isa.noConfusion
          Isa.noConfusion
        · show _ = !mode.supervises mode.tsr
          cases mode.supervises mode.tsr <;> rfl
        · rw [show mode.supervises mode.tsr = true from allowed]
          rfl
        · cases mode.supervises mode.tsr <;> exact ⟨rfl, rfl⟩
      · have same := cases.mret imm
        rw [flagged_plain source dest] at same
        subst same
        exact agrees_allowed instr plain rfl (fun _ => rfl) ⟨rfl, rfl⟩ Isa.noConfusion
          Isa.noConfusion
      · have same := cases.dret imm
        rw [flagged_plain source dest] at same
        subst same
        exact agrees_allowed instr plain rfl (fun _ => rfl) ⟨rfl, rfl⟩ Isa.noConfusion
          Isa.noConfusion
      · have same := cases.wfi imm
        rw [flagged_plain source dest] at same
        subst same
        refine agrees_allowed instr plain ?_ (fun allowed => ?_) ?_ Isa.noConfusion
          Isa.noConfusion
        · show _ = !mode.supervises mode.tw
          cases mode.supervises mode.tw <;> rfl
        · rw [show mode.supervises mode.tw = true from allowed]
          rfl
        · cases mode.supervises mode.tw <;> exact ⟨rfl, rfl⟩
  · have same := cases.rest member
    have none : ∀ imm ∈ listed, ¬(rs1 word = 0 ∧ rd word = 0 ∧ immI word = imm) :=
      fun imm inside all => member (all.2.2 ▸ inside)
    rw [if_neg (none _ (by decide)), if_neg (none _ (by decide)), if_neg (none _ (by decide)),
      if_neg (none _ (by decide)), if_neg (none _ (by decide)),
      if_neg (none _ (by decide))] at instr
    by_cases seven : funct7 word = 0b0001001
    · rw [if_pos seven] at same
      subst same
      by_cases dest : rd word = 0
      · rw [if_pos ⟨seven, dest⟩] at instr
        have entry : ({ flagged word with
            op := .sfenceVma, illegalInstr := !mode.supervises mode.tvm } : Signals) =
            { fu := .csr, op := .sfenceVma, rs1 := rs1 word
              illegalInstr := !mode.supervises mode.tvm } := by
          rw [flagged]
          split <;> rw [dest]
        rw [entry]
        exact agrees_allowed instr plain rfl (fun _ => rfl) ⟨rfl, rfl⟩ Isa.noConfusion
          Isa.noConfusion
      · rw [if_neg fun both => dest both.2] at instr
        refine agrees_none instr ?_
        show (!mode.supervises mode.tvm) = true
        rw [Bool.not_eq_true', Bool.eq_false_iff]
        exact fun supervises => kept ⟨opc, zero, .inr (.inl ⟨seven, dest, supervises⟩)⟩
    · rw [if_neg seven] at same
      rw [if_neg fun both => seven both.1] at instr
      subst same
      refine agrees_none instr ?_
      by_cases operands : rs1 word ≠ 0 ∨ rd word ≠ 0
      · rw [flagged_of_operands operands]
      · obtain ⟨source, dest⟩ := not_or.mp operands
        exact absurd ⟨opc, zero, .inr (.inr ⟨member, seven, Classical.not_not.mp source,
          Classical.not_not.mp dest⟩)⟩ kept

theorem agrees_system (lawful : p.Lawful) (opc : opcode word = Rv64.opcodeSystem)
    (kept : ¬Lost mode word) : Agrees p mode word (system p mode word) := by
  by_cases zero : funct3 word = 0
  · have reduced : system p mode word =
        privileged p mode word { fu := .csr, rs1 := rs1 word, rd := rd word } := by
      unfold system
      rw [zero]
      rfl
    rw [reduced]
    exact agrees_privileged opc zero kept
  · exact agrees_csr lawful opc zero

end Privileged

section Decoder

/-- A word of no opcode. -/
theorem isa_none
    (no : ∀ opc ∈ [Rv64.opcodeSystem, Rv64.opcodeMiscMem, Rv64.opcodeOp, Rv64.opcodeOp32,
      Rv64.opcodeOpImm, Rv64.opcodeOpImm32, Rv64.opcodeStore, Rv64.opcodeLoad, Rv64.opcodeAmo,
      Rv64.opcodeBranch, Rv64.opcodeJalr, Rv64.opcodeJal, Rv64.opcodeAuipc, Rv64.opcodeLui],
      opcode word ≠ opc) : isa word = none := by
  simp only [List.forall_mem_cons] at no
  obtain ⟨system, miscMem, op, op32, opImm, opImm32, store, load, amo, branch, jalr, jal, auipc,
    lui, -⟩ := no
  rw [isa, if_neg system, if_neg miscMem, if_neg amo, if_neg fun both => op both.1,
    if_neg fun both => op32 both.1]
  split
  · rfl
  · next float =>
      obtain ⟨loadFp, storeFp⟩ := not_or.mp float
      have ecall : word ≠ 0x00000073 := by
        rintro rfl
        exact system rfl
      have ebreak : word ≠ 0x00100073 := by
        rintro rfl
        exact system rfl
      rw [Rv64.decode, if_neg load, if_neg loadFp, if_neg store, if_neg storeFp, if_neg opImm,
        if_neg opImm32, if_neg op, if_neg op32, if_neg lui, if_neg auipc, if_neg jal, if_neg jalr,
        if_neg branch, if_neg ecall, if_neg ebreak]
      rfl

/-- The process agrees with the ISA on every word for which the flag is not lost. -/
theorem agrees (lawful : p.Lawful) (kept : ¬Lost mode word) :
    Agrees p mode word (signals p mode word true) := by
  unfold signals
  by_cases system : opcode word = Rv64.opcodeSystem
  · rw [if_pos system]
    exact agrees_system lawful system kept
  rw [if_neg system]
  by_cases miscMem : opcode word = Rv64.opcodeMiscMem
  · rw [if_pos miscMem]
    exact agrees_miscMem miscMem
  rw [if_neg miscMem]
  by_cases op : opcode word = Rv64.opcodeOp
  · rw [if_pos op]
    exact agrees_op op
  rw [if_neg op]
  by_cases op32 : opcode word = Rv64.opcodeOp32
  · rw [if_pos op32]
    exact agrees_op32 op32
  rw [if_neg op32]
  by_cases opImm : opcode word = Rv64.opcodeOpImm
  · rw [if_pos opImm]
    exact agrees_opImm lawful opImm
  rw [if_neg opImm]
  by_cases opImm32 : opcode word = Rv64.opcodeOpImm32
  · rw [if_pos opImm32]
    exact agrees_opImm32 lawful opImm32
  rw [if_neg opImm32]
  by_cases store : opcode word = Rv64.opcodeStore
  · rw [if_pos store]
    exact agrees_store store
  rw [if_neg store]
  by_cases load : opcode word = Rv64.opcodeLoad
  · rw [if_pos load]
    exact agrees_load lawful load
  rw [if_neg load]
  by_cases amo : opcode word = Rv64.opcodeAmo
  · rw [if_pos amo]
    exact agrees_amo amo
  rw [if_neg amo]
  by_cases branch : opcode word = Rv64.opcodeBranch
  · rw [if_pos branch]
    exact agrees_branch lawful branch
  rw [if_neg branch]
  by_cases jalr : opcode word = Rv64.opcodeJalr
  · rw [if_pos jalr]
    exact agrees_jalr lawful jalr
  rw [if_neg jalr]
  by_cases jal : opcode word = Rv64.opcodeJal
  · rw [if_pos jal]
    exact agrees_jal lawful jal
  rw [if_neg jal]
  by_cases auipc : opcode word = Rv64.opcodeAuipc
  · rw [if_pos auipc]
    exact agrees_auipc auipc
  rw [if_neg auipc]
  by_cases lui : opcode word = Rv64.opcodeLui
  · rw [if_pos lui]
    exact agrees_lui lui
  rw [if_neg lui]
  refine agrees_none (isa_none ?_) rfl
  simp only [List.forall_mem_cons, List.not_mem_nil, IsEmpty.forall_iff, implies_true, and_true]
  exact ⟨system, miscMem, op, op32, opImm, opImm32, store, load, amo, branch, jalr, jal, auipc,
    lui⟩

/-- An illegal-instruction exception. -/
def Raised (e : ScoreboardEntry) : Prop := e.ex.valid = true ∧ e.ex.cause = illegalInstr

/-- The fields of an entry that the instruction decides, and its exception: that of an environment
call or a break-point, or none. -/
structure Decoded (p : Immediates) (i : Input) (instr : Isa) (e : ScoreboardEntry) : Prop where
  fields : ∃ entry, entryOf p.enableWfi i.instruction instr = entry ∧
    e.fu = entry.fu ∧ e.op = entry.op ∧ e.rs1 = entry.rs1.setWidth 6 ∧
    e.rs2 = entry.rs2.setWidth 6 ∧ e.rd = entry.rd.setWidth 6 ∧ e.result = entry.result ∧
    e.useImm = entry.useImm ∧ e.useZimm = entry.useZimm ∧ e.usePc = entry.usePc
  ecall : instr = .base .ecall → e.ex.valid = true ∧ e.ex.cause = envCall i.mode.priv
  ebreak : instr = .base .ebreak → e.ex.valid = true ∧ e.ex.cause = breakpoint
  quiet : instr ≠ .base .ecall → instr ≠ .base .ebreak → e.ex.valid = false

variable {pkg : Pkg} {i : Input}

/-! The exception of a word that comes without one. -/

section Exception

variable {s : Signals} (fresh : i.ex.valid = false)

include fresh

theorem raises_illegal (illegal : s.illegalInstr = true) :
    (exceptionHandling i s).valid = true ∧ (exceptionHandling i s).cause = illegalInstr := by
  rw [exceptionHandling, fresh, illegal]
  exact ⟨rfl, rfl⟩

variable (expanded : i.isIllegal = false) (accepted : s.illegalInstr = false)

include expanded accepted

theorem raises_ecall (ecall : s.ecall = true) :
    (exceptionHandling i s).valid = true ∧
      (exceptionHandling i s).cause = envCall i.mode.priv := by
  rw [exceptionHandling, fresh, expanded, accepted, ecall]
  exact ⟨rfl, rfl⟩

theorem raises_ebreak (ecall : s.ecall = false) (ebreak : s.ebreak = true) :
    (exceptionHandling i s).valid = true ∧ (exceptionHandling i s).cause = breakpoint := by
  rw [exceptionHandling, fresh, expanded, accepted, ecall, ebreak]
  exact ⟨rfl, rfl⟩

theorem raises_nothing (ecall : s.ecall = false) (ebreak : s.ebreak = false) :
    (exceptionHandling i s).valid = false := by
  rw [exceptionHandling, fresh, expanded, accepted, ecall, ebreak]
  exact fresh

/-- An accepted word raises another exception or none. -/
theorem not_illegal :
    ¬((exceptionHandling i s).valid = true ∧ (exceptionHandling i s).cause = illegalInstr) := by
  rintro ⟨valid, cause⟩
  cases ecall : s.ecall with
  | true =>
      rw [(raises_ecall fresh expanded accepted ecall).2] at cause
      cases priv : i.mode.priv <;> rw [priv] at cause <;> exact absurd cause (by decide)
  | false =>
      cases ebreak : s.ebreak with
      | true =>
          rw [(raises_ebreak fresh expanded accepted ecall ebreak).2] at cause
          exact absurd cause (by decide)
      | false =>
          rw [raises_nothing fresh expanded accepted ecall ebreak] at valid
          cases valid

end Exception

/-- Every word, in every mode, but for those for which the flag is lost: the decoder raises an
illegal-instruction exception unless the word is a legal instruction and no fence with other
fields; and an instruction gets its entry. -/
theorem accepts_legal (lawful : p.Lawful) (atomics : pkg.rva = true) (fresh : i.ex.valid = false)
    (expanded : i.isIllegal = false) (kept : ¬Lost i.mode i.instruction) :
    (Raised (instruction pkg p i) ↔
        ¬(legal i.mode i.instruction = true ∧ plainFence i.instruction = true)) ∧
      ∀ instr, isa i.instruction = some instr → instr.allowed i.mode = true →
        plainFence i.instruction = true → Decoded p i instr (instruction pkg p i) := by
  have signals : decode pkg p i = signals p i.mode i.instruction true := by
    rw [decode, fresh, atomics]
    rfl
  obtain ⟨illegal, entry⟩ := @agrees p i.mode i.instruction lawful kept
  rw [← signals] at illegal entry
  have ex : (instruction pkg p i).ex = exceptionHandling i (decode pkg p i) := rfl
  constructor
  · rw [Raised, ex, ← Bool.and_eq_true]
    cases accepts : legal i.mode i.instruction && plainFence i.instruction with
    | true =>
        rw [accepts] at illegal
        exact ⟨fun raised => absurd raised (not_illegal fresh expanded illegal),
          fun rejected => absurd rfl rejected⟩
    | false =>
        rw [accepts] at illegal
        exact ⟨fun _ => Bool.false_ne_true, fun _ => raises_illegal fresh illegal⟩
  · intro instr some allowed plain
    have accepted : (decode pkg p i).illegalInstr = false := by
      rw [illegal, legal_of_isa some allowed, plain]
      rfl
    obtain ⟨fields, ecall, ebreak⟩ := entry instr some accepted
    refine ⟨⟨_, fields.symm, rfl, rfl, rfl, rfl, rfl, rfl, rfl, rfl, rfl⟩, ?_, ?_, ?_⟩
    · intro call
      rw [ex]
      exact raises_ecall fresh expanded accepted (ecall.trans (decide_eq_true call))
    · intro point
      have none : (decode pkg p i).ecall = false := by
        rw [ecall, point]
        rfl
      rw [ex]
      exact raises_ebreak fresh expanded accepted none (ebreak.trans (decide_eq_true point))
    · intro noCall noPoint
      rw [ex]
      exact raises_nothing fresh expanded accepted (ecall.trans (decide_eq_false noCall))
        (ebreak.trans (decide_eq_false noPoint))

/-- The immediates as the formats have them. -/
def immediates : Immediates where
  iImm word := (immI word).signExtend 64
  sbImm word := (immB word).signExtend 64
  ujImm word := (immJ word).signExtend 64
  enableWfi := true

/-- `addi x1, x2, -1` in machine mode. -/
def addi : Input where
  instruction := 0xfff10093
  mode := ⟨.m, false, false, false, false⟩

theorem addi_accepted :
    ¬Raised (instruction .rv64ima immediates addi) ∧
      Decoded immediates addi (.base (.aluImm .add 1 2 (-1))) (instruction .rv64ima immediates addi) := by
  obtain ⟨raised, decoded⟩ := @accepts_legal immediates .rv64ima addi
    ⟨fun _ => rfl, fun _ => rfl, fun _ => rfl⟩ rfl rfl rfl
    (fun lost => absurd lost.1 (by decide))
  exact ⟨fun illegal => raised.mp illegal ⟨by decide, by decide⟩,
    decoded _ (by decide) (by decide) (by decide)⟩

/-- `fence.tso` is legal in every mode, and raises an exception. -/
theorem fenceTso_rejected :
    legal addi.mode 0x8330000f = true ∧
      Raised (instruction .rv64ima immediates { addi with instruction := 0x8330000f }) := by
  refine ⟨by decide, ?_, ?_⟩ <;> decide

end Decoder

end Ariane.Decoder
