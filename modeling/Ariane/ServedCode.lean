import Ariane.DebugHart
import Mathlib.Data.List.GetD
import Mathlib.Tactic.IntervalCases

set_option autoImplicit false

/- The code that the debug module serves to the hart: the words of `abstract_cmd_rom` as
instructions, and what a fetch, a load and a store find there. -/
namespace Ariane.DebugHart

open Dm (Fixed State MemInput Instructions regno aarsize transfer isWrite postexec)
open Rtl (extract_append_high extract_append_low)

variable {φ : Type} {nrHarts : Nat}

/-- What the instruction builders of `riscv_pkg` stand for. -/
structure Encodes (I : Instructions) : Prop where
  illegal : decode I.illegal = .illegal
  nop : decode I.nop = .addi 0 0 0
  ebreak : decode I.ebreak = .ebreak
  jalr : ∀ rd rs1 offset, decode (I.jalr rd rs1 offset) = .jalr rd rs1 offset
  load : ∀ size dest base offset, size < 4 →
    decode (I.load size dest base offset) = .load size dest base offset
  store : ∀ size src base offset, size < 4 →
    decode (I.store size src base offset) = .store size src base offset
  floatLoad : ∀ size dest base offset, size < 4 →
    decode (I.floatLoad size dest base offset) = .floatLoad size dest base offset
  floatStore : ∀ size src base offset, size < 4 →
    decode (I.floatStore size src base offset) = .floatStore size src base offset
  csrw : ∀ csr rs1, decode (I.csrw csr rs1) = .csrrw 0 csr rs1
  csrr : ∀ csr dest, decode (I.csrr csr dest) = .csrrs dest csr 0
  dscratch0 : I.csrDscratch0 = csrDscratch0

/-- The fields of a store. -/
theorem stype_fields (imm : BitVec 12) (rs2 rs1 : BitVec 5) (funct : BitVec 3) (op : BitVec 7) :
    let w := imm.extractLsb' 5 7 ++ rs2 ++ rs1 ++ funct ++ imm.extractLsb' 0 5 ++ op
    w.extractLsb' 25 7 ++ w.extractLsb' 7 5 = imm ∧ w.extractLsb' 20 5 = rs2 ∧
      w.extractLsb' 15 5 = rs1 ∧ w.extractLsb' 12 3 = funct ∧ w.extractLsb' 0 7 = op := by
  refine ⟨?_, ?_, ?_, ?_, ?_⟩
  · simp (disch := decide) only [extract_append_high, extract_append_low]
    apply BitVec.eq_of_getLsbD_eq
    intro j small
    rw [BitVec.getLsbD_append]
    by_cases low : j < 5
    · simp [low]
    · have rest : 5 + (j - 5) = j := by omega
      simp [low, rest, show j - 5 < 7 by omega]
  · simp (disch := decide) only [extract_append_high, extract_append_low]
    exact BitVec.extractLsb'_eq_self
  · simp (disch := decide) only [extract_append_high, extract_append_low]
    exact BitVec.extractLsb'_eq_self
  · simp (disch := decide) only [extract_append_high, extract_append_low]
    exact BitVec.extractLsb'_eq_self
  · simp (disch := decide) only [extract_append_low]
    exact BitVec.extractLsb'_eq_self

/-- The fields of a load, of a jump to a register and of an access to a CSR. -/
theorem itype_fields (imm : BitVec 12) (rs1 rd : BitVec 5) (funct : BitVec 3) (op : BitVec 7) :
    let w := imm ++ rs1 ++ funct ++ rd ++ op
    w.extractLsb' 20 12 = imm ∧ w.extractLsb' 15 5 = rs1 ∧ w.extractLsb' 12 3 = funct ∧
      w.extractLsb' 7 5 = rd ∧ w.extractLsb' 0 7 = op := by
  refine ⟨?_, ?_, ?_, ?_, ?_⟩
  · simp (disch := decide) only [extract_append_high]
    exact BitVec.extractLsb'_eq_self
  · simp (disch := decide) only [extract_append_high, extract_append_low]
    exact BitVec.extractLsb'_eq_self
  · simp (disch := decide) only [extract_append_high, extract_append_low]
    exact BitVec.extractLsb'_eq_self
  · simp (disch := decide) only [extract_append_high, extract_append_low]
    exact BitVec.extractLsb'_eq_self
  · simp (disch := decide) only [extract_append_low]
    exact BitVec.extractLsb'_eq_self

theorem encodes_riscv : Encodes Instructions.riscv where
  illegal := by decide
  nop := by decide
  ebreak := by decide
  jalr rd rs1 offset := by
    obtain ⟨imm, base, funct, dest, op⟩ := itype_fields offset rs1 rd 0#3 0x67#7
    rw [Instructions.riscv, decode]
    simp only [op, funct, dest, imm, base]
    rfl
  load size dest base offset small := by
    obtain ⟨imm, rs1, funct, rd, op⟩ := itype_fields offset base dest size 0x03#7
    rw [Instructions.riscv, decode]
    simp only [op, funct, rd, imm, rs1]
    exact if_pos small
  floatLoad size dest base offset small := by
    obtain ⟨imm, rs1, funct, rd, op⟩ := itype_fields offset base dest size 0x07#7
    rw [Instructions.riscv, decode]
    simp only [op, funct, rd, imm, rs1]
    exact if_pos small
  store size src base offset small := by
    obtain ⟨imm, rs2, rs1, funct, op⟩ := stype_fields offset src base size 0x23#7
    rw [Instructions.riscv, decode]
    simp only [op, funct, imm, rs1, rs2]
    exact if_pos small
  floatStore size src base offset small := by
    obtain ⟨imm, rs2, rs1, funct, op⟩ := stype_fields offset src base size 0x27#7
    rw [Instructions.riscv, decode]
    simp only [op, funct, imm, rs1, rs2]
    exact if_pos small
  csrw csr rs1 := by
    obtain ⟨imm, base, funct, rd, op⟩ := itype_fields csr rs1 0#5 1#3 0x73#7
    rw [Instructions.riscv, decode]
    simp only [op, funct, rd, imm, base]
    rfl
  csrr csr dest := by
    obtain ⟨imm, base, funct, rd, op⟩ := itype_fields csr 0#5 dest 2#3 0x73#7
    rw [Instructions.riscv, decode]
    simp only [op, funct, rd, imm, base]
    rfl
  dscratch0 := rfl

/-- A register as an abstract command names it. -/
inductive Register where
  | csr (number : BitVec 12)
  | gpr (r : BitVec 5)
  | fpr (r : BitVec 5)
  deriving DecidableEq

def named (command : BitVec 32) : Register :=
  if (regno command).toNat < 0x1000 then .csr ((regno command).setWidth 12)
  else if (regno command).toNat < 0x1020 then .gpr ((regno command).setWidth 5)
  else .fpr ((regno command).setWidth 5)

/-- The commands that are accepted: an access to a CSR other than `dscratch0`, to a GPR or to an
FPR of at most 64 bits. -/
structure Accepted (command : BitVec 32) : Prop where
  cmdtype : Dm.cmdtype command = Dm.accessRegister
  aarsize : aarsize command < 4
  range : (regno command).toNat < 0x1040
  other : (regno command).toNat ≠ csrDscratch0.toNat
/-- The debug module while the hart executes a command. -/
structure Running (command : BitVec 32) (dm : State nrHarts) : Prop where
  active : dm.csrs.dmcontrol.dmactive = true
  command : dm.csrs.command = command
  busy : dm.mem.state = .cmdExecuting

theorem readAt_req (addr : BitVec 64) : (readAt addr).req = true := rfl

theorem readAt_we (addr : BitVec 64) : (readAt addr).we = false := rfl

section Module

variable {F : Fixed} {command : BitVec 32} {dm : State nrHarts}

theorem Running.access (running : Running command dm) (m : MemInput)
    (other : m.halted = false) :
    Running command (access F dm m) ∧
      (access F dm m).csrs.data = m.dataBits dm.csrs.data := by
  have quiet : Dm.request dm { mem := m } = none := by
    rw [Dm.request, Bool.and_false, if_neg Bool.false_ne_true]
  have csrs : (DebugHart.access F dm m).csrs =
      dm.csrs.update (Dm.fromMem dm { mem := m }) {} none := by
    show dm.csrs.next _ _ (Dm.request dm { mem := m }) = _
    rw [quiet, Dm.Csrs.next, running.active, if_pos rfl]
  have state : (DebugHart.access F dm m).mem.state = .cmdExecuting := by
    show dm.mem.stateD _ m = _
    rw [Dm.Mem.stateD, running.busy]
    show (if m.halted then _ else _) = _
    rw [other, if_neg Bool.false_ne_true]
  refine ⟨⟨?_, ?_, state⟩, ?_⟩
  · rw [csrs]
    exact running.active
  · rw [csrs]
    exact running.command
  · rw [csrs]
    show (if m.dataValid then m.dataBits dm.csrs.data else dm.csrs.data) = _
    rw [MemInput.dataBits]
    cases m.dataValid <;> rfl

/-- Reads change nothing. -/
theorem Running.read (running : Running command dm) (addr : BitVec 64) :
    Running command (DebugHart.access F dm (readAt addr)) ∧
      (DebugHart.access F dm (readAt addr)).csrs.data = dm.csrs.data :=
  running.access (readAt addr) rfl

theorem served_below (addr : BitVec 64)
    (below : ¬ haltAddress.extractLsb' 0 12 ≤ addr.extractLsb' 0 12) :
    served F dm addr =
      dm.mem.rdataD F.instructions (Dm.fromCsrs dm { mem := readAt addr }) (readAt addr) := by
  rw [served, if_neg below]
  rfl

/-- The two instructions of a double word. -/
theorem low_half (high low : BitVec 32) : (high ++ low).extractLsb' 0 32 = low := by
  apply BitVec.eq_of_getLsbD_eq
  intro j inside
  rw [BitVec.getLsbD_extractLsb', BitVec.getLsbD_append]
  simp [inside]

theorem high_half (high low : BitVec 32) : (high ++ low).extractLsb' 32 32 = high := by
  apply BitVec.eq_of_getLsbD_eq
  intro j inside
  rw [BitVec.getLsbD_extractLsb', BitVec.getLsbD_append]
  simp [inside]

theorem low_only (low : BitVec 32) : (low.setWidth 64).extractLsb' 0 32 = low := by
  apply BitVec.eq_of_getLsbD_eq
  intro j inside
  have width : j < 64 := by omega
  simp [inside, width]

/-- The hart is sent to the program, or past it if there is nothing to transfer. -/
theorem fetched_whereTo (running : Running command dm) :
    fetched F dm whereTo =
      if transfer command then F.instructions.jalr 0 0 Dm.abstractCmdBase
      else F.instructions.jalr 0 0 Dm.progBufBase := by
  have offset : (readAt (wordAddress whereTo)).offset = Dm.whereTo := by decide
  have busy : dm.mem.cmdbusy = true := by
    rw [Dm.Mem.cmdbusy, running.busy]
    rfl
  have word : served F dm (wordAddress whereTo) =
      if transfer command then (F.instructions.jalr 0 0 Dm.abstractCmdBase).setWidth 64
      else (F.instructions.jalr 0 0 Dm.progBufBase).setWidth 64 := by
    rw [served_below _ (by decide)]
    simp only [Dm.Mem.rdataD, offset, readAt_req, readAt_we, Bool.not_true, Bool.or_false,
      Bool.false_eq_true, ↓reduceIte, busy, Dm.fromCsrs, running.command]
  have low : whereTo.getLsbD 2 = false := by decide
  rw [fetched, word, low, if_neg Bool.false_ne_true]
  cases transfer command with
  | false => exact low_only _
  | true => exact low_only _

/-- The program is served word by word. -/
theorem served_program (running : Running command dm) (k : Nat) (small : k < 3) :
    served F dm (0x350 + BitVec.ofNat 64 (8 * k)) =
      (Dm.abstractCmd F.instructions command).getD (2 * k + 1) 0 ++
        (Dm.abstractCmd F.instructions command).getD (2 * k) 0 := by
  have cases : k = 0 ∨ k = 1 ∨ k = 2 := by omega
  rcases cases with rfl | rfl | rfl <;> rw [served_below _ (by decide)]
  · have offset : (readAt (0x350 + BitVec.ofNat 64 (8 * 0))).offset = 0x350 := by decide
    simp only [Dm.Mem.rdataD, offset, readAt_req, readAt_we]
    simp +decide only [Dm.fromCsrs, running.command, ↓reduceIte]
    rfl
  · have offset : (readAt (0x350 + BitVec.ofNat 64 (8 * 1))).offset = 0x358 := by decide
    simp only [Dm.Mem.rdataD, offset, readAt_req, readAt_we]
    simp +decide only [Dm.fromCsrs, running.command, ↓reduceIte]
    rfl
  · have offset : (readAt (0x350 + BitVec.ofNat 64 (8 * 2))).offset = 0x360 := by decide
    simp only [Dm.Mem.rdataD, offset, readAt_req, readAt_we]
    simp +decide only [Dm.fromCsrs, running.command, ↓reduceIte]
    rfl

/-- The data registers as the hart reads them. -/
theorem served_data : served F dm (Dm.dataAddr.setWidth 64) = dm.csrs.data := by
  rw [served_below _ (by decide)]
  have offset : (readAt (Dm.dataAddr.setWidth 64)).offset = Dm.dataAddr := by decide
  simp only [Dm.Mem.rdataD, offset, readAt_req, readAt_we]
  simp +decide only [Dm.fromCsrs, ↓reduceIte]

/-- Where a word of the program stands. The sixth place is the program buffer. -/
def slot (k : Nat) : BitVec 64 := 0x350 + BitVec.ofNat 64 (4 * k)

theorem fetched_slot (running : Running command dm) (k : Nat) (small : k < 6) :
    fetched F dm (slot k) = (Dm.abstractCmd F.instructions command).getD k 0 := by
  have even (j : Nat) (inside : j < 3) (word : wordAddress (slot (2 * j)) = 0x350 + BitVec.ofNat 64 (8 * j))
      (first : (slot (2 * j)).getLsbD 2 = false) :
      fetched F dm (slot (2 * j)) = (Dm.abstractCmd F.instructions command).getD (2 * j) 0 := by
    rw [fetched, word, served_program running j inside, first, if_neg Bool.false_ne_true]
    exact low_half _ _
  have odd (j : Nat) (inside : j < 3)
      (word : wordAddress (slot (2 * j + 1)) = 0x350 + BitVec.ofNat 64 (8 * j))
      (second : (slot (2 * j + 1)).getLsbD 2 = true) :
      fetched F dm (slot (2 * j + 1)) =
        (Dm.abstractCmd F.instructions command).getD (2 * j + 1) 0 := by
    rw [fetched, word, served_program running j inside, second, if_pos rfl]
    exact high_half _ _
  have cases : k = 0 ∨ k = 1 ∨ k = 2 ∨ k = 3 ∨ k = 4 ∨ k = 5 := by omega
  rcases cases with rfl | rfl | rfl | rfl | rfl | rfl
  · exact even 0 (by decide) (by decide) (by decide)
  · exact odd 0 (by decide) (by decide) (by decide)
  · exact even 1 (by decide) (by decide) (by decide)
  · exact odd 1 (by decide) (by decide) (by decide)
  · exact even 2 (by decide) (by decide) (by decide)
  · exact odd 2 (by decide) (by decide) (by decide)

end Module
section Program

variable {F : Fixed} {command : BitVec 32}

theorem regno_bit (k : Nat) :
    (regno command).getLsbD k = decide ((regno command).toNat / 2 ^ k % 2 = 1) := by
  rw [BitVec.getLsbD, Nat.testBit_eq_decide_div_mod_eq]

theorem Accepted.supported (accepted : Accepted command) :
    Dm.unsupportedCommand command = false := by
  rw [Dm.unsupportedCommand, accepted.cmdtype]
  rfl

theorem Accepted.high (accepted : Accepted command) : (regno command).extractLsb' 14 2 = 0 := by
  have range := accepted.range
  apply BitVec.eq_of_toNat_eq
  rw [BitVec.extractLsb'_toNat, Nat.shiftRight_eq_div_pow]
  show (regno command).toNat / 2 ^ 14 % 2 ^ 2 = 0
  omega

/-- `nop`. -/
def nop : Instr := .addi 0 0 0

/-- The transfer as the instructions that carry it out. -/
def transferCode (command : BitVec 32) : List Instr :=
  let size := aarsize command
  match named command with
  | .csr number =>
      if isWrite command then
        [.csrrw 0 csrDscratch0 s0, .load size s0 0 Dm.dataAddr, .csrrw 0 number s0,
          .csrrs s0 csrDscratch0 0, nop]
      else
        [.csrrw 0 csrDscratch0 s0, .csrrs s0 number 0, .store size s0 0 Dm.dataAddr,
          .csrrs s0 csrDscratch0 0, nop]
  | .gpr r =>
      [if isWrite command then .load size r 0 Dm.dataAddr else .store size r 0 Dm.dataAddr,
        nop, nop, nop, nop]
  | .fpr r =>
      [if isWrite command then .floatLoad size r 0 Dm.dataAddr
        else .floatStore size r 0 Dm.dataAddr, nop, nop, nop, nop]

/-- The program of a command that transfers. -/
def code (command : BitVec 32) : List Instr :=
  transferCode command ++ [if postexec command then nop else .ebreak]
/-- The generated program is that code. -/
theorem abstractCmd_code {I : Instructions} (encodes : Encodes I) (accepted : Accepted command)
    (moves : transfer command = true) : (Dm.abstractCmd I command).map decode = code command := by
  have range := accepted.range
  have size : decide (aarsize command < 4) = true := decide_eq_true accepted.aarsize
  have reg : (regno command).extractLsb' 0 5 = (regno command).setWidth 5 :=
    (BitVec.setWidth_eq_extractLsb' (by decide)).symm
  have csr : (regno command).extractLsb' 0 12 = (regno command).setWidth 12 :=
    (BitVec.setWidth_eq_extractLsb' (by decide)).symm
  by_cases isCsr : (regno command).toNat < 0x1000
  · have bit12 : (regno command).getLsbD 12 = false := by
      rw [regno_bit, decide_eq_false_iff_not]
      omega
    simp only [Dm.abstractCmd, accepted.supported, size, moves, accepted.high, bit12, csr, code,
      transferCode, named, isCsr, Bool.false_eq_true, ↓reduceIte, Bool.true_and, Bool.not_false,
      bne_self_eq_false, List.map_append]
    cases isWrite command <;> cases postexec command <;>
      simp [encodes.csrw, encodes.csrr, encodes.nop, encodes.ebreak, encodes.dscratch0, nop, s0,
        encodes.load _ _ _ _ accepted.aarsize, encodes.store _ _ _ _ accepted.aarsize]
  · have bit12 : (regno command).getLsbD 12 = true := by
      rw [regno_bit, decide_eq_true_iff]
      omega
    by_cases isGpr : (regno command).toNat < 0x1020
    · have bit5 : (regno command).getLsbD 5 = false := by
        rw [regno_bit, decide_eq_false_iff_not]
        omega
      simp only [Dm.abstractCmd, accepted.supported, size, moves, accepted.high, bit12, bit5, reg,
        code, transferCode, named, isCsr, isGpr, Bool.false_eq_true, ↓reduceIte, Bool.true_and,
        Bool.not_false, bne_self_eq_false, List.map_append]
      cases isWrite command <;> cases postexec command <;>
        simp [encodes.nop, encodes.ebreak, nop, encodes.load _ _ _ _ accepted.aarsize,
          encodes.store _ _ _ _ accepted.aarsize]
    · have bit5 : (regno command).getLsbD 5 = true := by
        rw [regno_bit, decide_eq_true_iff]
        omega
      simp only [Dm.abstractCmd, accepted.supported, size, moves, accepted.high, bit12, bit5, reg,
        code, transferCode, named, isCsr, isGpr, Bool.false_eq_true, ↓reduceIte, Bool.true_and,
        Bool.not_false, bne_self_eq_false, List.map_append]
      cases isWrite command <;> cases postexec command <;>
        simp [encodes.nop, encodes.ebreak, nop, encodes.floatLoad _ _ _ _ accepted.aarsize,
          encodes.floatStore _ _ _ _ accepted.aarsize]

theorem decode_slot (encodes : Encodes F.instructions) (accepted : Accepted command)
    (moves : transfer command = true) {k : Nat} (small : k < 6) (dm : State nrHarts)
    (running : Running command dm) :
    decode (fetched F dm (slot k)) = (code command).getD k .illegal := by
  have none : decode 0 = .illegal := by decide
  rw [fetched_slot running k small, ← abstractCmd_code encodes accepted moves, ← none,
    List.getD_map]

theorem slot_going {k : Nat} (small : k < 6) :
    (slot k == progBuf || slot k == entryLoop) = false := by
  have cases : k = 0 ∨ k = 1 ∨ k = 2 ∨ k = 3 ∨ k = 4 ∨ k = 5 := by omega
  rcases cases with rfl | rfl | rfl | rfl | rfl | rfl <;> decide

theorem slot_succ (k : Nat) : slot k + 4 = slot (k + 1) := by
  rw [slot, slot, Nat.mul_add, BitVec.ofNat_add, BitVec.add_assoc]
  rfl

theorem data_address (h : Hart φ) :
    h.reg 0 + Dm.dataAddr.signExtend 64 = Dm.dataAddr.setWidth 64 := by
  rw [reg_zero]
  decide

theorem lane_data (word : BitVec 64) : lane word (Dm.dataAddr.setWidth 64) = word := by
  have first : 8 * ((Dm.dataAddr.setWidth 64 : BitVec 64).toNat % 8) = 0 := by decide
  rw [lane, first, BitVec.ushiftRight_zero]

/-- The byte enables of a store to the data registers. -/
theorem enables (size : BitVec 3) (b : Nat) (inside : b < 8) :
    (BitVec.ofNat 8 (2 ^ 2 ^ (size.toNat % 4) - 1)).getLsbD b =
      decide (b < 2 ^ (size.toNat % 4)) := by
  have cases : size.toNat % 4 < 4 := Nat.mod_lt _ (by decide)
  interval_cases size.toNat % 4 <;> interval_cases b <;> decide

/-- A store to the data registers. -/
theorem stored (size : BitVec 3) (value data : BitVec 64) :
    (storeAt (Dm.dataAddr.setWidth 64) size value).dataBits data = merged size value data := by
  have offset : (storeAt (Dm.dataAddr.setWidth 64) size value).offset = Dm.dataAddr := by
    show (Dm.dataAddr.setWidth 64).extractLsb' 0 12 = Dm.dataAddr
    decide
  have valid : (storeAt (Dm.dataAddr.setWidth 64) size value).dataValid = true := by
    rw [MemInput.dataValid, offset]
    rfl
  have first : (Dm.dataAddr.setWidth 64 : BitVec 64).toNat % 8 = 0 := by decide
  rw [MemInput.dataBits, valid, if_pos rfl, merged]
  apply BitVec.eq_of_getLsbD_eq
  intro j inside
  rw [Rtl.getLsbD_ofBits, Rtl.getLsbD_ofBits, storeAt]
  simp only [first, Nat.mul_zero, BitVec.shiftLeft_zero]
  rw [enables size (j / 8) (by omega), bits]
  have same : j / 8 < 2 ^ (size.toNat % 4) ↔ j < 8 * 2 ^ (size.toNat % 4) := by omega
  simp only [decide_eq_true_eq, same]

theorem store_other (size : BitVec 3) (value : BitVec 64) :
    (storeAt (Dm.dataAddr.setWidth 64) size value).halted = false := by
  show (true && true && (Dm.dataAddr.setWidth 64).extractLsb' 0 12 == 0x100) = false
  decide

end Program

end Ariane.DebugHart
