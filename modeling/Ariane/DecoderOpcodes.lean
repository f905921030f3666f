import Ariane.DecoderIsa

set_option autoImplicit false

/- Every opcode is decoded as the ISA has it. -/
namespace Ariane.Decoder

open Rv64 (Priv Mode Isa Instr opcode rd rs1 rs2 funct3 funct7 immI immS immB immU immJ isa legal)

section Tables

theorem opTable_eq : ∀ (f7 : BitVec 7) (f3 : BitVec 3), opTable f7 f3 =
    if f7 = 1 then some (mulFuOp (Rv64.mulOp f3)) else (Rv64.op f7 f3).map aluFuOp := by
  decide

theorem op32Table_eq : ∀ (f7 : BitVec 7) (f3 : BitVec 3), op32Table f7 f3 =
    if f7 = 1 then (Rv64.mulOp32 f3).map mulFuOp else (Rv64.op32 f7 f3).map aluFuOp := by
  decide

/-- Nothing starts with the prefix of the vectorial operations. -/
theorem opTable_prefix : ∀ (f7 : BitVec 7) (f3 : BitVec 3), f7.extractLsb' 5 2 = 0b10 →
    opTable f7 f3 = none := by
  decide

theorem storeTable_eq : ∀ f3 : BitVec 3, storeTable f3 = (Rv64.storeOp f3).map storeFuOp := by
  decide

theorem loadTable_eq : ∀ f3 : BitVec 3, loadTable f3 = (Rv64.loadOp f3).map loadFuOp := by
  decide

theorem branchTable_eq : ∀ f3 : BitVec 3, branchTable f3 = (Rv64.branchOp f3).map branchFuOp := by
  decide

/-- The tables of the atomic operations, with the operand of a load-reserved. -/
theorem amoTable_eq : ∀ (f5 : BitVec 5) (source : BitVec 5),
    (if f5 = 0x02 ∧ source ≠ 0 then none else amoWTable f5) =
        (Rv64.amoOp f5 source).map (amoFuOp false) ∧
      (if f5 = 0x02 ∧ source ≠ 0 then none else amoDTable f5) =
        (Rv64.amoOp f5 source).map (amoFuOp true) := by
  decide

/-- The shifts of double words. -/
theorem shift_left (dest source : Rv64.Reg) (imm : BitVec 12) :
    Rv64.shift dest source 0b001 imm =
      if imm.extractLsb' 6 6 = 0 then
        some (.aluImm .sll dest source ((imm.extractLsb' 0 6).setWidth 64))
      else none := by
  unfold Rv64.shift
  dsimp only
  split
  · next upper _ => exact (if_pos upper).symm
  · next same => exact absurd same (by decide)
  · next same => exact absurd same (by decide)
  · next other _ _ => exact (if_neg fun upper => other upper rfl).symm

theorem shift_right (dest source : Rv64.Reg) (imm : BitVec 12) :
    Rv64.shift dest source 0b101 imm =
      if imm.extractLsb' 6 6 = 0 then
        some (.aluImm .srl dest source ((imm.extractLsb' 0 6).setWidth 64))
      else if imm.extractLsb' 6 6 = 0b010000 then
        some (.aluImm .sra dest source ((imm.extractLsb' 0 6).setWidth 64))
      else none := by
  unfold Rv64.shift
  dsimp only
  split
  · next same => exact absurd same (by decide)
  · next upper _ => exact (if_pos upper).symm
  · next upper _ => rw [upper]; rfl
  · next _ srl sra =>
      exact ((if_neg fun upper => srl upper rfl).trans (if_neg fun upper => sra upper rfl)).symm

/-- The shifts of words. -/
theorem opImm32_left (dest source : Rv64.Reg) (imm : BitVec 12) :
    Rv64.opImm32 dest source 0b001 imm =
      if imm.extractLsb' 5 7 = 0 then
        some (.aluImm .sllw dest source ((imm.extractLsb' 0 5).setWidth 64))
      else none := by
  unfold Rv64.opImm32
  dsimp only
  split
  · next same => exact absurd same (by decide)
  · next upper _ => exact (if_pos upper).symm
  · next same => exact absurd same (by decide)
  · next same => exact absurd same (by decide)
  · next other _ _ => exact (if_neg fun upper => other upper rfl).symm

theorem opImm32_right (dest source : Rv64.Reg) (imm : BitVec 12) :
    Rv64.opImm32 dest source 0b101 imm =
      if imm.extractLsb' 5 7 = 0 then
        some (.aluImm .srlw dest source ((imm.extractLsb' 0 5).setWidth 64))
      else if imm.extractLsb' 5 7 = 0b0100000 then
        some (.aluImm .sraw dest source ((imm.extractLsb' 0 5).setWidth 64))
      else none := by
  unfold Rv64.opImm32
  dsimp only
  split
  · next same => exact absurd same (by decide)
  · next same => exact absurd same (by decide)
  · next upper _ => exact (if_pos upper).symm
  · next upper _ => rw [upper]; rfl
  · next _ srl sra =>
      exact ((if_neg fun upper => srl upper rfl).trans (if_neg fun upper => sra upper rfl)).symm

theorem three_bits : ∀ f : BitVec 3, f = 0 ∨ f = 1 ∨ f = 2 ∨ f = 3 ∨ f = 4 ∨ f = 5 ∨ f = 6 ∨
    f = 7 := by
  decide

end Tables

variable {p : Immediates} {mode : Mode} {word : BitVec 32}

section Isa

/-! The instruction of a word, by opcode. -/

theorem isa_op (opc : opcode word = Rv64.opcodeOp) :
    isa word =
      if funct7 word = 1 then
        some (.mul (Rv64.mulOp (funct3 word)) (rd word) (rs1 word) (rs2 word))
      else
        (Rv64.op (funct7 word) (funct3 word)).map fun op =>
          .base (.alu op (rd word) (rs1 word) (rs2 word)) := by
  by_cases mul : funct7 word = 1
  · simp [isa, opc, mul, Rv64.opcodeOp, Rv64.opcodeSystem, Rv64.opcodeMiscMem, Rv64.opcodeAmo]
  · simp [isa, Rv64.decode, opc, Rv64.opcodeOp, Rv64.opcodeSystem, Rv64.opcodeMiscMem,
      Rv64.opcodeAmo, Rv64.opcodeOp32, Rv64.opcodeLoadFp, Rv64.opcodeStoreFp, Rv64.opcodeLoad,
      Rv64.opcodeStore, Rv64.opcodeOpImm, Rv64.opcodeOpImm32, Function.comp_def]

theorem isa_op32 (opc : opcode word = Rv64.opcodeOp32) :
    isa word =
      if funct7 word = 1 then
        (Rv64.mulOp32 (funct3 word)).map fun op => .mul op (rd word) (rs1 word) (rs2 word)
      else
        (Rv64.op32 (funct7 word) (funct3 word)).map fun op =>
          .base (.alu op (rd word) (rs1 word) (rs2 word)) := by
  by_cases mul : funct7 word = 1
  · simp [isa, opc, mul, Rv64.opcodeOp, Rv64.opcodeOp32, Rv64.opcodeSystem, Rv64.opcodeMiscMem,
      Rv64.opcodeAmo]
  · simp [isa, Rv64.decode, opc, Rv64.opcodeOp, Rv64.opcodeSystem, Rv64.opcodeMiscMem,
      Rv64.opcodeAmo, Rv64.opcodeOp32, Rv64.opcodeLoadFp, Rv64.opcodeStoreFp, Rv64.opcodeLoad,
      Rv64.opcodeStore, Rv64.opcodeOpImm, Rv64.opcodeOpImm32, Function.comp_def]

theorem isa_opImm (opc : opcode word = Rv64.opcodeOpImm) :
    isa word = (Rv64.opImm (rd word) (rs1 word) (funct3 word) (immI word)).map .base := by
  simp [isa, Rv64.decode, opc, Rv64.opcodeOp, Rv64.opcodeSystem, Rv64.opcodeMiscMem,
    Rv64.opcodeAmo, Rv64.opcodeOp32, Rv64.opcodeLoadFp, Rv64.opcodeStoreFp, Rv64.opcodeLoad,
    Rv64.opcodeStore, Rv64.opcodeOpImm]

theorem isa_opImm32 (opc : opcode word = Rv64.opcodeOpImm32) :
    isa word = (Rv64.opImm32 (rd word) (rs1 word) (funct3 word) (immI word)).map .base := by
  simp [isa, Rv64.decode, opc, Rv64.opcodeOp, Rv64.opcodeSystem, Rv64.opcodeMiscMem,
    Rv64.opcodeAmo, Rv64.opcodeOp32, Rv64.opcodeLoadFp, Rv64.opcodeStoreFp, Rv64.opcodeLoad,
    Rv64.opcodeStore, Rv64.opcodeOpImm, Rv64.opcodeOpImm32]

theorem isa_store (opc : opcode word = Rv64.opcodeStore) :
    isa word = (Rv64.storeOp (funct3 word)).map fun op =>
      .base (.store op (rs1 word) (rs2 word) ((immS word).signExtend 64)) := by
  simp [isa, Rv64.decode, opc, Rv64.opcodeOp, Rv64.opcodeSystem, Rv64.opcodeMiscMem,
    Rv64.opcodeAmo, Rv64.opcodeOp32, Rv64.opcodeLoadFp, Rv64.opcodeStoreFp, Rv64.opcodeLoad,
    Rv64.opcodeStore, Function.comp_def]

theorem isa_load (opc : opcode word = Rv64.opcodeLoad) :
    isa word = (Rv64.loadOp (funct3 word)).map fun op =>
      .base (.load op (rd word) (rs1 word) ((immI word).signExtend 64)) := by
  simp [isa, Rv64.decode, opc, Rv64.opcodeOp, Rv64.opcodeSystem, Rv64.opcodeMiscMem,
    Rv64.opcodeAmo, Rv64.opcodeOp32, Rv64.opcodeLoadFp, Rv64.opcodeStoreFp, Rv64.opcodeLoad,
    Function.comp_def]

theorem isa_branch (opc : opcode word = Rv64.opcodeBranch) :
    isa word = (Rv64.branchOp (funct3 word)).map fun op =>
      .base (.branch op (rs1 word) (rs2 word) ((immB word).signExtend 64)) := by
  simp [isa, Rv64.decode, opc, Rv64.opcodeOp, Rv64.opcodeSystem, Rv64.opcodeMiscMem,
    Rv64.opcodeAmo, Rv64.opcodeOp32, Rv64.opcodeLoadFp, Rv64.opcodeStoreFp, Rv64.opcodeLoad,
    Rv64.opcodeStore, Rv64.opcodeOpImm, Rv64.opcodeOpImm32, Rv64.opcodeLui, Rv64.opcodeAuipc,
    Rv64.opcodeJal, Rv64.opcodeJalr, Rv64.opcodeBranch, Function.comp_def]

theorem isa_jalr (opc : opcode word = Rv64.opcodeJalr) :
    isa word = if funct3 word = 0 then
      some (.base (.jalr (rd word) (rs1 word) ((immI word).signExtend 64))) else none := by
  by_cases zero : funct3 word = 0 <;>
    simp [isa, Rv64.decode, opc, zero, Rv64.opcodeOp, Rv64.opcodeSystem, Rv64.opcodeMiscMem,
      Rv64.opcodeAmo, Rv64.opcodeOp32, Rv64.opcodeLoadFp, Rv64.opcodeStoreFp, Rv64.opcodeLoad,
      Rv64.opcodeStore, Rv64.opcodeOpImm, Rv64.opcodeOpImm32, Rv64.opcodeLui, Rv64.opcodeAuipc,
      Rv64.opcodeJal, Rv64.opcodeJalr]

theorem isa_jal (opc : opcode word = Rv64.opcodeJal) :
    isa word = some (.base (.jal (rd word) ((immJ word).signExtend 64))) := by
  simp [isa, Rv64.decode, opc, Rv64.opcodeOp, Rv64.opcodeSystem, Rv64.opcodeMiscMem,
    Rv64.opcodeAmo, Rv64.opcodeOp32, Rv64.opcodeLoadFp, Rv64.opcodeStoreFp, Rv64.opcodeLoad,
    Rv64.opcodeStore, Rv64.opcodeOpImm, Rv64.opcodeOpImm32, Rv64.opcodeLui, Rv64.opcodeAuipc,
    Rv64.opcodeJal]

theorem isa_auipc (opc : opcode word = Rv64.opcodeAuipc) :
    isa word = some (.base (.auipc (rd word) ((immU word).signExtend 64))) := by
  simp [isa, Rv64.decode, opc, Rv64.opcodeOp, Rv64.opcodeSystem, Rv64.opcodeMiscMem,
    Rv64.opcodeAmo, Rv64.opcodeOp32, Rv64.opcodeLoadFp, Rv64.opcodeStoreFp, Rv64.opcodeLoad,
    Rv64.opcodeStore, Rv64.opcodeOpImm, Rv64.opcodeOpImm32, Rv64.opcodeLui, Rv64.opcodeAuipc]

theorem isa_lui (opc : opcode word = Rv64.opcodeLui) :
    isa word = some (.base (.lui (rd word) ((immU word).signExtend 64))) := by
  simp [isa, Rv64.decode, opc, Rv64.opcodeOp, Rv64.opcodeSystem, Rv64.opcodeMiscMem,
    Rv64.opcodeAmo, Rv64.opcodeOp32, Rv64.opcodeLoadFp, Rv64.opcodeStoreFp, Rv64.opcodeLoad,
    Rv64.opcodeStore, Rv64.opcodeOpImm, Rv64.opcodeOpImm32, Rv64.opcodeLui]

theorem isa_amo (opc : opcode word = Rv64.opcodeAmo) :
    isa word = if funct3 word = 2 ∨ funct3 word = 3 then
      (Rv64.amoOp (word.extractLsb' 27 5) (rs2 word)).map fun op =>
        .amo op (funct3 word == 3) (rd word) (rs1 word) (rs2 word)
      else none := by
  simp [isa, opc, Rv64.opcodeSystem, Rv64.opcodeMiscMem, Rv64.opcodeAmo]

theorem isa_miscMem (opc : opcode word = Rv64.opcodeMiscMem) :
    isa word =
      if funct3 word = 0 then some .fence else if funct3 word = 1 then some .fenceI else none := by
  simp [isa, opc, Rv64.opcodeSystem, Rv64.opcodeMiscMem]

theorem isa_system (opc : opcode word = Rv64.opcodeSystem) :
    isa word =
      if funct3 word = 0 then Rv64.privileged word
      else (Rv64.csrOp (funct3 word)).map fun c =>
        .csr c.1 c.2 (rd word) (rs1 word) (immI word) := by
  simp [isa, opc]

end Isa

section Agrees

/-- An entry without an immediate. -/
theorem entry_noimm {s : Signals} (none : s.immSelect = .noimm) :
    s.entry p word =
      { fu := s.fu, op := s.op, rs1 := s.rs1, rs2 := s.rs2, rd := s.rd, useZimm := s.useZimm
        usePc := s.usePc } := by
  rw [Signals.entry, none]
  rfl

/-- An entry with the immediate of the most common format. -/
theorem entry_iimm (lawful : p.Lawful) {s : Signals} (format : s.immSelect = .iimm) :
    s.entry p word =
      { fu := s.fu, op := s.op, rs1 := s.rs1, rs2 := s.rs2, rd := s.rd
        result := (immI word).signExtend 64, useImm := true, useZimm := s.useZimm
        usePc := s.usePc } := by
  rw [Signals.entry, format]
  show (_ : Entry) = _
  rw [signExtend, lawful.i]

/-- Signals of a table that has the operations of the ISA. -/
theorem agrees_select {α : Type} {s : Signals} {table : Option FuOp} {spec : Option α}
    {f : α → FuOp} {g : α → Isa} (same : table = spec.map f) (instr : isa word = spec.map g)
    (other : opcode word ≠ Rv64.opcodeMiscMem) (start : s.illegalInstr = false)
    (calls : s.ecall = false ∧ s.ebreak = false)
    (allowed : ∀ a, (g a).allowed mode = true ∧ g a ≠ .base .ecall ∧ g a ≠ .base .ebreak)
    (entry : ∀ a, ({ s with op := f a } : Signals).entry p word =
      entryOf p.enableWfi word (g a)) :
    Agrees p mode word (s.select table) := by
  cases spec with
  | none =>
      rw [same]
      exact agrees_none instr rfl
  | some a =>
      obtain ⟨allowed, ecall, ebreak⟩ := allowed a
      rw [same]
      refine agrees_some instr allowed (plainFence_of_opcode other) start (entry a) ?_ ?_
      · exact calls.1.trans (decide_eq_false ecall).symm
      · exact calls.2.trans (decide_eq_false ebreak).symm

theorem agrees_op (opc : opcode word = Rv64.opcodeOp) : Agrees p mode word (opReg word) := by
  have other : opcode word ≠ Rv64.opcodeMiscMem := by
    rw [opc]
    decide
  have upper : word.extractLsb' 30 2 = (funct7 word).extractLsb' 5 2 := by
    rw [funct7, Rtl.extract_extract _ _ _ _ _ (by omega)]
  have instr := isa_op opc
  rw [opReg]
  split
  · next vector =>
      rw [upper] at vector
      have none := opTable_prefix _ (funct3 word) vector
      have mul : funct7 word ≠ 1 := by
        intro one
        rw [one] at vector
        exact absurd vector (by decide)
      rw [opTable_eq, if_neg mul, Option.map_eq_none_iff] at none
      rw [if_neg mul, none] at instr
      exact agrees_none instr rfl
  · by_cases mul : funct7 word = 1
    · rw [if_pos mul] at instr
      have table := opTable_eq (funct7 word) (funct3 word)
      rw [if_pos mul] at table
      have table : opTable (funct7 word) (funct3 word) =
          (some (Rv64.mulOp (funct3 word))).map mulFuOp := table
      have instr : isa word = (some (Rv64.mulOp (funct3 word))).map fun op =>
          .mul op (rd word) (rs1 word) (rs2 word) := instr
      refine agrees_select table instr other rfl ⟨rfl, rfl⟩
        (fun a => ⟨rfl, Isa.noConfusion, Isa.noConfusion⟩) fun a => ?_
      rw [entry_noimm rfl, if_pos mul]
      rfl
    · rw [if_neg mul] at instr
      have table := opTable_eq (funct7 word) (funct3 word)
      rw [if_neg mul] at table
      refine agrees_select table instr other rfl ⟨rfl, rfl⟩ (fun a => ⟨rfl, ?_, ?_⟩) fun a => ?_
      · exact fun same => Instr.noConfusion (Isa.base.inj same)
      · exact fun same => Instr.noConfusion (Isa.base.inj same)
      · rw [entry_noimm rfl, if_neg mul]
        rfl

theorem agrees_op32 (opc : opcode word = Rv64.opcodeOp32) :
    Agrees p mode word (op32Reg word) := by
  have other : opcode word ≠ Rv64.opcodeMiscMem := by
    rw [opc]
    decide
  have instr := isa_op32 opc
  have table := op32Table_eq (funct7 word) (funct3 word)
  rw [op32Reg]
  by_cases mul : funct7 word = 1
  · rw [if_pos mul] at instr table
    refine agrees_select table instr other rfl ⟨rfl, rfl⟩
      (fun a => ⟨rfl, Isa.noConfusion, Isa.noConfusion⟩) fun a => ?_
    rw [entry_noimm rfl, if_pos mul]
    rfl
  · rw [if_neg mul] at instr table
    refine agrees_select table instr other rfl ⟨rfl, rfl⟩ (fun a => ⟨rfl, ?_, ?_⟩) fun a => ?_
    · exact fun same => Instr.noConfusion (Isa.base.inj same)
    · exact fun same => Instr.noConfusion (Isa.base.inj same)
    · rw [entry_noimm rfl, if_neg mul]
      rfl

theorem agrees_store (opc : opcode word = Rv64.opcodeStore) :
    Agrees p mode word (({ fu := .store, immSelect := .simm, rs1 := rs1 word, rs2 := rs2 word } :
      Signals).select (storeTable (funct3 word))) := by
  have other : opcode word ≠ Rv64.opcodeMiscMem := by
    rw [opc]
    decide
  refine agrees_select (storeTable_eq _) (isa_store opc) other rfl ⟨rfl, rfl⟩
    (fun a => ⟨rfl, ?_, ?_⟩) fun a => rfl
  · exact fun same => Instr.noConfusion (Isa.base.inj same)
  · exact fun same => Instr.noConfusion (Isa.base.inj same)

theorem agrees_load (lawful : p.Lawful) (opc : opcode word = Rv64.opcodeLoad) :
    Agrees p mode word (({ fu := .load, immSelect := .iimm, rs1 := rs1 word, rd := rd word } :
      Signals).select (loadTable (funct3 word))) := by
  have other : opcode word ≠ Rv64.opcodeMiscMem := by
    rw [opc]
    decide
  refine agrees_select (loadTable_eq _) (isa_load opc) other rfl ⟨rfl, rfl⟩
    (fun a => ⟨rfl, ?_, ?_⟩) fun a => ?_
  · exact fun same => Instr.noConfusion (Isa.base.inj same)
  · exact fun same => Instr.noConfusion (Isa.base.inj same)
  · exact entry_iimm lawful rfl

/-- The signal for control flow is no part of the entry. -/
theorem Agrees.controlFlow {s : Signals} (agrees : Agrees p mode word s) (flow : Bool) :
    Agrees p mode word { s with isControlFlowInstr := flow } :=
  ⟨agrees.illegal, agrees.entry⟩

theorem agrees_branch (lawful : p.Lawful) (opc : opcode word = Rv64.opcodeBranch) :
    Agrees p mode word (branch word) := by
  have other : opcode word ≠ Rv64.opcodeMiscMem := by
    rw [opc]
    decide
  refine (agrees_select (branchTable_eq _) (isa_branch opc) other rfl ⟨rfl, rfl⟩
    (fun a => ⟨rfl, ?_, ?_⟩) fun a => ?_).controlFlow _
  · exact fun same => Instr.noConfusion (Isa.base.inj same)
  · exact fun same => Instr.noConfusion (Isa.base.inj same)
  · rw [Signals.entry, signExtend, lawful.sb]
    rfl

theorem agrees_jalr (lawful : p.Lawful) (opc : opcode word = Rv64.opcodeJalr) :
    Agrees p mode word
      { fu := .ctrlFlow, op := .jalr, rs1 := rs1 word, immSelect := .iimm, rd := rd word
        isControlFlowInstr := true, illegalInstr := funct3 word != 0 } := by
  have other : opcode word ≠ Rv64.opcodeMiscMem := by
    rw [opc]
    decide
  have instr := isa_jalr opc
  by_cases zero : funct3 word = 0
  · rw [if_pos zero] at instr
    refine agrees_some instr rfl (plainFence_of_opcode other) ?_ ?_ rfl rfl
    · rw [zero]
      rfl
    · exact entry_iimm lawful rfl
  · rw [if_neg zero] at instr
    exact agrees_none instr (bne_iff_ne.mpr zero)

theorem agrees_jal (lawful : p.Lawful) (opc : opcode word = Rv64.opcodeJal) :
    Agrees p mode word
      { fu := .ctrlFlow, immSelect := .jimm, rd := rd word, isControlFlowInstr := true } := by
  have other : opcode word ≠ Rv64.opcodeMiscMem := by
    rw [opc]
    decide
  refine agrees_some (isa_jal opc) rfl (plainFence_of_opcode other) rfl ?_ rfl rfl
  rw [Signals.entry, signExtend, lawful.uj]
  rfl

theorem agrees_auipc (opc : opcode word = Rv64.opcodeAuipc) :
    Agrees p mode word { fu := .alu, immSelect := .uimm, usePc := true, rd := rd word } := by
  have other : opcode word ≠ Rv64.opcodeMiscMem := by
    rw [opc]
    decide
  exact agrees_some (isa_auipc opc) rfl (plainFence_of_opcode other) rfl rfl rfl rfl

theorem agrees_lui (opc : opcode word = Rv64.opcodeLui) :
    Agrees p mode word { immSelect := .uimm, fu := .alu, rd := rd word } := by
  have other : opcode word ≠ Rv64.opcodeMiscMem := by
    rw [opc]
    decide
  exact agrees_some (isa_lui opc) rfl (plainFence_of_opcode other) rfl rfl rfl rfl

/-- The signals of an operation with an immediate. -/
def immSignals (word : BitVec 32) : Signals :=
  { fu := .alu, immSelect := .iimm, rs1 := rs1 word, rd := rd word }

theorem agrees_aluImm (lawful : p.Lawful) {op : Rv64.AluOp} {imm : BitVec 64} {s : Signals}
    (instr : isa word = some (.base (.aluImm op (rd word) (rs1 word) imm)))
    (other : opcode word ≠ Rv64.opcodeMiscMem)
    (same : s = { immSignals word with op := aluFuOp op }) : Agrees p mode word s := by
  subst same
  exact agrees_some instr rfl (plainFence_of_opcode other) rfl (entry_iimm lawful rfl) rfl rfl

theorem agrees_opImm (lawful : p.Lawful) (opc : opcode word = Rv64.opcodeOpImm) :
    Agrees p mode word
      (opImmTable (funct3 word) (word.extractLsb' 26 6) (immSignals word)) := by
  have other : opcode word ≠ Rv64.opcodeMiscMem := by
    rw [opc]
    decide
  have upper : word.extractLsb' 26 6 = (immI word).extractLsb' 6 6 := by
    rw [immI, Rtl.extract_extract _ _ _ _ _ (by omega)]
  have instr := isa_opImm opc
  rw [upper]
  rcases three_bits (funct3 word) with f3 | f3 | f3 | f3 | f3 | f3 | f3 | f3 <;>
    rw [f3] at instr ⊢
  · exact agrees_aluImm lawful instr other rfl
  · have shift : Rv64.opImm (rd word) (rs1 word) 1 (immI word) = _ := shift_left _ _ _
    rw [shift] at instr
    by_cases zero : (immI word).extractLsb' 6 6 = 0
    · rw [if_pos zero] at instr
      refine agrees_aluImm lawful instr other ?_
      rw [zero]
      rfl
    · rw [if_neg zero] at instr
      refine agrees_none instr ?_
      show (false || (immI word).extractLsb' 6 6 != 0) = true
      rw [Bool.false_or, bne_iff_ne]
      exact zero
  · exact agrees_aluImm lawful instr other rfl
  · exact agrees_aluImm lawful instr other rfl
  · exact agrees_aluImm lawful instr other rfl
  · have shift : Rv64.opImm (rd word) (rs1 word) 5 (immI word) = _ := shift_right _ _ _
    rw [shift] at instr
    show Agrees p mode word (if (immI word).extractLsb' 6 6 = 0 then _
      else if (immI word).extractLsb' 6 6 = 0b010000 then _ else _)
    by_cases zero : (immI word).extractLsb' 6 6 = 0
    · rw [if_pos zero] at instr ⊢
      exact agrees_aluImm lawful instr other rfl
    · rw [if_neg zero] at instr ⊢
      by_cases arithmetic : (immI word).extractLsb' 6 6 = 0b010000
      · rw [if_pos arithmetic] at instr ⊢
        exact agrees_aluImm lawful instr other rfl
      · rw [if_neg arithmetic] at instr ⊢
        exact agrees_none instr rfl
  · exact agrees_aluImm lawful instr other rfl
  · exact agrees_aluImm lawful instr other rfl

theorem agrees_opImm32 (lawful : p.Lawful) (opc : opcode word = Rv64.opcodeOpImm32) :
    Agrees p mode word (opImm32Table (funct3 word) (funct7 word) (immSignals word)) := by
  have other : opcode word ≠ Rv64.opcodeMiscMem := by
    rw [opc]
    decide
  have upper : funct7 word = (immI word).extractLsb' 5 7 := by
    rw [immI, funct7, Rtl.extract_extract _ _ _ _ _ (by omega)]
  have instr := isa_opImm32 opc
  rw [upper]
  have none : ∀ f3 : BitVec 3, f3 ≠ 0 → f3 ≠ 1 → f3 ≠ 5 →
      Rv64.opImm32 (rd word) (rs1 word) f3 (immI word) = none := by
    intro f3 add left right
    unfold Rv64.opImm32
    dsimp only
    split
    · next same => exact absurd rfl add
    · next same => exact absurd rfl left
    · next same => exact absurd rfl right
    · next same => exact absurd rfl right
    · rfl
  rcases three_bits (funct3 word) with f3 | f3 | f3 | f3 | f3 | f3 | f3 | f3 <;>
    rw [f3] at instr ⊢
  · exact agrees_aluImm lawful instr other rfl
  · rw [opImm32_left] at instr
    by_cases zero : (immI word).extractLsb' 5 7 = 0
    · rw [if_pos zero] at instr
      refine agrees_aluImm lawful instr other ?_
      rw [zero]
      rfl
    · rw [if_neg zero] at instr
      refine agrees_none instr ?_
      show (false || (immI word).extractLsb' 5 7 != 0) = true
      rw [Bool.false_or, bne_iff_ne]
      exact zero
  · rw [none 2 (by decide) (by decide) (by decide)] at instr
    exact agrees_none instr rfl
  · rw [none 3 (by decide) (by decide) (by decide)] at instr
    exact agrees_none instr rfl
  · rw [none 4 (by decide) (by decide) (by decide)] at instr
    exact agrees_none instr rfl
  · rw [opImm32_right] at instr
    show Agrees p mode word (if (immI word).extractLsb' 5 7 = 0 then _
      else if (immI word).extractLsb' 5 7 = 0b0100000 then _ else _)
    by_cases zero : (immI word).extractLsb' 5 7 = 0
    · rw [if_pos zero] at instr ⊢
      exact agrees_aluImm lawful instr other rfl
    · rw [if_neg zero] at instr ⊢
      by_cases arithmetic : (immI word).extractLsb' 5 7 = 0b0100000
      · rw [if_pos arithmetic] at instr ⊢
        exact agrees_aluImm lawful instr other rfl
      · rw [if_neg arithmetic] at instr ⊢
        exact agrees_none instr rfl
  · rw [none 6 (by decide) (by decide) (by decide)] at instr
    exact agrees_none instr rfl
  · rw [none 7 (by decide) (by decide) (by decide)] at instr
    exact agrees_none instr rfl

/-- The atomic operations of one size. -/
theorem agrees_amoSize {table : Option FuOp} {double : Bool}
    (size : (if word.extractLsb' 27 5 = 0x02 ∧ rs2 word ≠ 0 then none else table) =
      (Rv64.amoOp (word.extractLsb' 27 5) (rs2 word)).map (amoFuOp double))
    (instr : isa word = (Rv64.amoOp (word.extractLsb' 27 5) (rs2 word)).map fun op =>
      .amo op double (rd word) (rs1 word) (rs2 word))
    (other : opcode word ≠ Rv64.opcodeMiscMem) :
    Agrees p mode word (amoLr (word.extractLsb' 27 5) (rs2 word)
      (({ fu := .store, rs1 := rs1 word, rs2 := rs2 word, rd := rd word } : Signals).select
        table)) := by
  rw [amoLr]
  by_cases reserved : word.extractLsb' 27 5 = 0x02 ∧ rs2 word ≠ 0
  · rw [if_pos reserved] at size ⊢
    rw [Option.map_eq_none_iff.mp size.symm] at instr
    exact agrees_none instr rfl
  · rw [if_neg reserved] at size ⊢
    refine agrees_select size instr other rfl ⟨rfl, rfl⟩
      (fun a => ⟨rfl, Isa.noConfusion, Isa.noConfusion⟩) fun a => ?_
    exact entry_noimm rfl

theorem agrees_amo (opc : opcode word = Rv64.opcodeAmo) : Agrees p mode word (amo word true) := by
  have other : opcode word ≠ Rv64.opcodeMiscMem := by
    rw [opc]
    decide
  have instr := isa_amo opc
  obtain ⟨words, doubles⟩ := amoTable_eq (word.extractLsb' 27 5) (rs2 word)
  rw [amo]
  dsimp only
  rw [Bool.true_and, Bool.true_and]
  by_cases two : funct3 word = 2
  · rw [if_pos (.inl two)] at instr
    rw [if_pos (beq_iff_eq.mpr two)]
    have single : (funct3 word == 3) = false := by
      rw [two]
      rfl
    rw [single] at instr
    exact agrees_amoSize words instr other
  · rw [if_neg (mt beq_iff_eq.mp two)]
    by_cases three : funct3 word = 3
    · rw [if_pos (.inr three)] at instr
      rw [if_pos (beq_iff_eq.mpr three)]
      rw [beq_iff_eq.mpr three] at instr
      exact agrees_amoSize doubles instr other
    · rw [if_neg (not_or.mpr ⟨two, three⟩)] at instr
      rw [if_neg (mt beq_iff_eq.mp three)]
      exact agrees_none instr rfl

/-- A fence is accepted where its other fields are zero. -/
theorem agrees_miscMem (opc : opcode word = Rv64.opcodeMiscMem) :
    Agrees p mode word (miscMem word) := by
  have instr := isa_miscMem opc
  have plain : plainFence word = (rs1 word == 0 && rd word == 0 &&
      if funct3 word = 0 then word.extractLsb' 28 4 == 0 else immI word == 0) := by
    rw [plainFence, opc]
    rfl
  have upper : word.extractLsb' 28 4 = (immI word).extractLsb' 8 4 := by
    rw [immI, Rtl.extract_extract _ _ _ _ _ (by omega)]
  by_cases fence : funct3 word = 0
  · rw [if_pos fence] at instr plain
    have legal : legal mode word = true := legal_of_isa instr rfl
    rw [miscMem, fence]
    by_cases fields : rs1 word ≠ 0 ∨ rd word ≠ 0 ∨ word.extractLsb' 28 4 ≠ 0
    · have rejected : plainFence word = false := by
        rw [plain, Bool.eq_false_iff, Ne, Bool.and_eq_true, Bool.and_eq_true, beq_iff_eq,
          beq_iff_eq, beq_iff_eq]
        rintro ⟨⟨source, dest⟩, mode⟩
        rcases fields with field | field | field
        · exact field source
        · exact field dest
        · exact field mode
      rw [if_pos fields]
      refine ⟨?_, fun i _ accepted => absurd accepted (Bool.noConfusion)⟩
      rw [legal, rejected]
      rfl
    · rw [if_neg fields]
      obtain ⟨source, dest, bits⟩ : rs1 word = 0 ∧ rd word = 0 ∧ word.extractLsb' 28 4 = 0 := by
        obtain ⟨source, rest⟩ := not_or.mp fields
        obtain ⟨dest, bits⟩ := not_or.mp rest
        exact ⟨Classical.not_not.mp source, Classical.not_not.mp dest, Classical.not_not.mp bits⟩
      have accepted : plainFence word = true := by
        rw [plain, source, dest, bits]
        rfl
      exact agrees_some instr rfl accepted rfl (entry_noimm rfl) rfl rfl
  · rw [if_neg fence] at instr plain
    by_cases fenceI : funct3 word = 1
    · rw [if_pos fenceI] at instr
      have legal : legal mode word = true := legal_of_isa instr rfl
      rw [miscMem, fenceI]
      by_cases fields : rs1 word ≠ 0 ∨ rd word ≠ 0 ∨ word.extractLsb' 28 4 ≠ 0
      · have rejected : plainFence word = false := by
          rw [plain, Bool.eq_false_iff, Ne, Bool.and_eq_true, Bool.and_eq_true, beq_iff_eq,
            beq_iff_eq, beq_iff_eq]
          rintro ⟨⟨source, dest⟩, imm⟩
          rcases fields with field | field | field
          · exact field source
          · exact field dest
          · rw [upper, imm] at field
            exact field rfl
        rw [if_pos fields]
        refine ⟨?_, fun i _ accepted => absurd accepted (Bool.noConfusion)⟩
        rw [legal, rejected]
        rfl
      · rw [if_neg fields]
        obtain ⟨source, rest⟩ := not_or.mp fields
        obtain ⟨dest, -⟩ := not_or.mp rest
        have source := Classical.not_not.mp source
        have dest := Classical.not_not.mp dest
        have accepted : plainFence word = (immI word == 0) := by
          rw [plain, source, dest]
          exact Bool.true_and _
        refine ⟨?_, fun i some _ => ?_⟩
        · rw [legal, accepted, Bool.true_and]
          rfl
        · rw [instr, Option.some.injEq] at some
          subst some
          exact ⟨entry_noimm rfl, rfl, rfl⟩
    · rw [if_neg fenceI] at instr
      refine agrees_none instr ?_
      rw [miscMem]
      split
      · rfl
      · rcases three_bits (funct3 word) with f3 | f3 | f3 | f3 | f3 | f3 | f3 | f3
        · exact absurd f3 fence
        · exact absurd f3 fenceI
        all_goals
          rw [f3]
          rfl

end Agrees

end Ariane.Decoder
