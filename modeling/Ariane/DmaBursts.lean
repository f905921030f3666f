import Ariane.DmaStage

set_option autoImplicit false

/- The bursts of the DMA engine against the rules of the bus, for every length and all addresses
that software can write. -/
namespace Ariane.Dma

open Rtl (Machine)

/-- The marks of the words of a burst: only the last one is marked. -/
def AxiCommand.marks (c : AxiCommand) : List Bool := List.replicate c.len.toNat false ++ [true]

/-- No byte of the burst is beyond the 4 KiB page of its address. -/
def AxiCommand.Inside (c : AxiCommand) : Prop :=
  c.addr.toNat % 4096 + (if c.burst = 1 then c.len.toNat + 1 else 1) * 2 ^ c.size.toNat ≤ 4096

instance (c : AxiCommand) : Decidable c.Inside := inferInstanceAs (Decidable (_ ≤ _))

/-- The handshakes since reset: accepted addresses, the number of words that were read, and the
marks of the words that were written. -/
structure Bus where
  reads : List AxiCommand := []
  words : Nat := 0
  writes : List AxiCommand := []
  marks : List Bool := []
  deriving DecidableEq

def Bus.next (b : Bus) (o : AxiReq) (r : AxiResp) : Bus where
  reads := b.reads ++ if o.arValid && r.arReady then [o.ar] else []
  words := b.words + if o.rReady && r.rValid then 1 else 0
  writes := b.writes ++ if o.awValid && r.awReady then [o.aw] else []
  marks := b.marks ++ if o.wValid && r.wReady then [o.w.last] else []

/-- The words of all read bursts. -/
def Bus.total (b : Bus) : Nat := (b.reads.flatMap AxiCommand.marks).length

/-- What the master does in a cycle after the handshakes `b`. -/
structure Lawful (b : Bus) (o : AxiReq) : Prop where
  /-- The words belong to the accepted bursts and the one that is offered, in order; each burst has
  as many as its address says, and the last one is marked. -/
  beats : b.marks ++ (if o.wValid then [o.w.last] else []) <+:
    (b.writes ++ if o.awValid then [o.aw] else []).flatMap AxiCommand.marks
  /-- The master waits for a response after the last word. -/
  finished : o.bReady = true → b.marks = b.writes.flatMap AxiCommand.marks
  /-- Words are expected until the bursts that were read have all of theirs. -/
  expects : o.rReady = true ↔ b.words < b.total
  writeInside : o.awValid = true → o.aw.Inside
  readInside : o.arValid = true → o.ar.Inside

/-- What is not accepted is offered again as it is. -/
structure Steady (o : AxiReq) (r : AxiResp) (later : AxiReq) : Prop where
  aw : o.awValid = true → r.awReady = false → later.awValid = true ∧ later.aw = o.aw
  w : o.wValid = true → r.wReady = false → later.wValid = true ∧ later.w = o.w

/-- The engine, its registers and the bus. -/
structure Traffic where
  regs : Registers := {}
  engine : Engine := {}
  bus : Bus := {}

namespace Traffic

variable (s : Traffic) (i : SystemInput)

/-- The outputs to the bus. -/
def axi : AxiReq := (adapterOutput s.engine i.resp).axi

def next : Traffic where
  regs := s.regs.next i.write
  engine := s.engine.next i.resp s.regs
  bus := s.bus.next (s.axi i) i.resp

end Traffic

def traffic : Machine Traffic SystemInput := ⟨{}, Traffic.next⟩

/-- The length stands for a burst, and both bursts have room in their pages. -/
def Fits (length source dest : BitVec 32) : Prop :=
  length = 0 ∨
    (length.extractLsb' 0 8 ≠ 0 ∧
      (blockAddr source).toNat % 4096 + 8 * ((length.extractLsb' 0 8).toNat + 1) ≤ 4096 ∧
      (blockAddr dest).toNat % 4096 + 8 * ((length.extractLsb' 0 8).toNat + 1) ≤ 4096)

instance (length source dest : BitVec 32) : Decidable (Fits length source dest) :=
  inferInstanceAs (Decidable (_ ∨ _))

/-- The slave marks the last word of a burst that is read. -/
def Marked (s : Traffic) (i : SystemInput) : Prop :=
  (s.axi i).rReady = true → i.resp.rValid = true →
    i.resp.rLast = decide (s.bus.words + 1 = s.bus.total)

instance (s : Traffic) (i : SystemInput) : Decidable (Marked s i) :=
  inferInstanceAs (Decidable (_ → _ → _))

/-- Software starts only transfers that fit. -/
structure FitContract (s : Traffic) (i : SystemInput) : Prop where
  fits : s.engine.ctrl = .idle → start s.engine = true →
    Fits s.regs.length s.regs.sourceAddr s.regs.destAddr
  last : Marked s i

instance (s : Traffic) (i : SystemInput) : Decidable (FitContract s i) :=
  decidable_of_iff
    ((s.engine.ctrl = .idle → start s.engine = true →
        Fits s.regs.length s.regs.sourceAddr s.regs.destAddr) ∧ Marked s i)
    ⟨fun ⟨fits, last⟩ => ⟨fits, last⟩, fun contract => ⟨contract.fits, contract.last⟩⟩

section Write

variable {e : Engine} {r : AxiResp} {k : Nat}

/-- The index of the last word. -/
def lastWord (e : Engine) : Nat := (burstLength e).toNat

/-- A length that stands for a burst. -/
def Proper (e : Engine) : Prop := e.length = 0 ∨ burstLength e ≠ 0

theorem left_eq_zero (due : k ≤ lastWord e) :
    burstLength e - BitVec.ofNat 8 k = 0 ↔ k = lastWord e := by
  have bound := (burstLength e).isLt
  unfold lastWord at due ⊢
  rw [← BitVec.toNat_inj, BitVec.toNat_sub, BitVec.toNat_ofNat]
  show _ = 0 ↔ _
  omega

/-- The word `k` on the bus. -/
def wordAt (e : Engine) (k : Nat) : AxiBeat where
  data := e.adapter.mem (BitVec.ofNat 8 k)
  strb := 0xff
  last := decide (k = lastWord e)

/-- The adapter still has to send the address or not, and the words from `k` on. -/
def Encodes (e : Engine) (state : AdapterState) (cnt : BitVec 8) (address : Bool) (k : Nat) : Prop :=
  match state with
  | .idle => address = true ∧ k = 0
  | .waitAwReady => address = true ∧ k = lastWord e + 1 ∧ e.length = 0
  | .waitAwReadyBurst => address = true ∧ k = lastWord e + 1
  | .waitLastWReadyAwReady =>
      address = true ∧ k ≤ lastWord e ∧ cnt = burstLength e - BitVec.ofNat 8 k
  | .waitLastWReady =>
      address = false ∧ k ≤ lastWord e ∧ cnt = burstLength e - BitVec.ofNat 8 k
  | .waitBValid => address = false ∧ k = lastWord e + 1
  | _ => False

/-- One cycle of a write. -/
structure WriteCycle (e : Engine) (r : AxiResp) (address : Bool) (k : Nat) : Prop where
  arValid : (adapterOutput e r).axi.arValid = false
  rReady : (adapterOutput e r).axi.rReady = false
  bReady : (adapterOutput e r).axi.bReady = false
  memWen : (adapterOutput e r).memWen = false
  awValid : (adapterOutput e r).axi.awValid = address
  aw : address = true → (adapterOutput e r).axi.aw = command e e.destAddr
  wValid : (adapterOutput e r).axi.wValid = decide (k ≤ lastWord e)
  w : k ≤ lastWord e → (adapterOutput e r).axi.w = wordAt e k
  after : Encodes e (adapterOutput e r).state (adapterOutput e r).cnt (address && !r.awReady)
    (if decide (k ≤ lastWord e) && r.wReady then k + 1 else k)
  gnt : (adapterOutput e r).gnt = ((adapterOutput e r).state == .waitBValid)

variable {address : Bool}

theorem lastWord_zero (proper : Proper e) : lastWord e = 0 ↔ e.length = 0 := by
  constructor
  · intro none
    rcases proper with zero | some
    · exact zero
    · exact absurd (BitVec.eq_of_toNat_eq (show (burstLength e).toNat = (0 : BitVec 8).toNat from
        none)) some
  · intro zero
    rw [lastWord, burstLength_zero zero]
    rfl

/-- The word that the burst states offer. -/
theorem burstBeat_wordAt (request : e.request = storeRequest e) (due : k ≤ lastWord e)
    (count : e.adapter.cnt = burstLength e - BitVec.ofNat 8 k) :
    burstBeat e.adapter e.request = wordAt e k := by
  have last : (e.adapter.cnt == 0) = decide (k = lastWord e) := by
    rw [Bool.eq_iff_iff, beq_iff_eq, decide_eq_true_iff, count, left_eq_zero due]
  have data : (if e.request.single then e.adapter.mem 0
      else e.adapter.mem (e.request.len - e.adapter.cnt)) = e.adapter.mem (BitVec.ofNat 8 k) := by
    rw [request, count]
    by_cases zero : e.length = 0
    · have none := (lastWord_zero (.inl zero)).mpr zero
      have first : k = 0 := by omega
      rw [if_pos (show (storeRequest e).single = true from beq_iff_eq.mpr zero), first]
      rfl
    · rw [if_neg (show ¬ (storeRequest e).single = true from fun same => zero (beq_iff_eq.mp same))]
      show e.adapter.mem (burstLength e - _) = _
      rw [due_index]
  rw [burstBeat, data, last, request]
  rfl

theorem single_eq (request : e.request = storeRequest e) (proper : Proper e) :
    e.request.single = decide (0 = lastWord e) := by
  have single : e.request.single = (e.length == 0) := by
    rw [request]
    rfl
  rw [single, Bool.eq_iff_iff, beq_iff_eq, decide_eq_true_iff, ← lastWord_zero proper]
  exact eq_comm

theorem cycle_idle (request : e.request = storeRequest e) (proper : Proper e)
    (state : e.adapter.state = .idle) : WriteCycle e r true 0 := by
  have asks : e.request.req = true := by
    rw [request]
    rfl
  have writes : e.request.we = true := by
    rw [request]
    rfl
  have output := axiFsm_write (r := r) state asks writes
  have single := single_eq request proper
  have len : e.request.len = burstLength e := by
    rw [request]
    rfl
  rw [single, len] at output
  constructor
  · exact congrArg (fun o => o.axi.arValid) output
  · exact congrArg (fun o => o.axi.rReady) output
  · exact congrArg (fun o => o.axi.bReady) output
  · exact congrArg AdapterOutput.memWen output
  · exact congrArg (fun o => o.axi.awValid) output
  · intro
    refine (congrArg (fun o => o.axi.aw) output).trans ?_
    show burstCommand e.request = _
    rw [request]
    exact burstCommand_eq _ rfl rfl rfl rfl
  · exact congrArg (fun o => o.axi.wValid) output
  · intro
    refine (congrArg (fun o => o.axi.w) output).trans ?_
    rw [wordAt, request]
    rfl
  · have stateAfter := congrArg AdapterOutput.state output
    have countAfter := congrArg AdapterOutput.cnt output
    simp only at stateAfter countAfter
    rw [adapterOutput, stateAfter, countAfter]
    rcases Nat.eq_zero_or_pos (lastWord e) with none | some
    · have length := (lastWord_zero proper).mp none
      cases address : r.awReady <;> cases word : r.wReady <;>
        simp [none, offeredState, Encodes, length, burstLength_zero length]
    · have more : ¬ 0 = lastWord e := by omega
      cases address : r.awReady <;> cases word : r.wReady <;>
        simp [more, offeredState, Encodes]
      all_goals omega
  · have gntAfter := congrArg AdapterOutput.gnt output
    have stateAfter := congrArg AdapterOutput.state output
    simp only at stateAfter gntAfter
    rw [adapterOutput, stateAfter, gntAfter]
    by_cases none : 0 = lastWord e
    · cases address : r.awReady <;> cases word : r.wReady <;> simp [none, offeredState]
    · cases address : r.awReady <;> cases word : r.wReady <;> simp [none, offeredState]

theorem Encodes.unanswered {state : AdapterState} {cnt : BitVec 8}
    (encodes : Encodes e state cnt true k) : (state == .waitBValid) = false := by
  rw [beq_eq_false_iff_ne]
  rintro rfl
  exact absurd encodes.1 (by decide)

/-- Only the address is left. -/
theorem cycle_address
    (output : adapterOutput e r =
      { defaultOutput e.adapter e.request with
        axi := { (defaultOutput e.adapter e.request).axi with
          awValid := true, aw := command e e.destAddr }
        gnt := r.awReady
        state := if r.awReady then .waitBValid else e.adapter.state })
    (state : Encodes e e.adapter.state e.adapter.cnt true (lastWord e + 1)) :
    WriteCycle e r true (lastWord e + 1) := by
  have done : decide (lastWord e + 1 ≤ lastWord e) = false := decide_eq_false (by omega)
  constructor
  · rw [output]
    rfl
  · rw [output]
    rfl
  · rw [output]
    rfl
  · rw [output]
    rfl
  · rw [output]
  · rw [output]
    exact fun _ => rfl
  · rw [output, done]
    rfl
  · exact fun more => absurd more (by omega)
  · rw [output, done]
    cases r.awReady with
    | true => exact ⟨rfl, rfl⟩
    | false => exact state
  · rw [output]
    cases r.awReady with
    | true => rfl
    | false => exact state.unanswered.symm

theorem cycle_waitAwReady (request : e.request = storeRequest e) (single : e.length = 0)
    (state : e.adapter.state = .waitAwReady) : WriteCycle e r true (lastWord e + 1) := by
  apply cycle_address
  · have len : command e e.destAddr = defaultCommand e.request := by
      rw [request, command, defaultCommand, burstLength_zero single]
      simp [storeRequest, single]
    rw [adapterOutput, axiFsm, state, len]
    cases ready : r.awReady <;> simp [defaultOutput, state]
  · rw [state]
    exact ⟨rfl, rfl, single⟩

theorem cycle_waitAwReadyBurst (request : e.request = storeRequest e)
    (state : e.adapter.state = .waitAwReadyBurst) : WriteCycle e r true (lastWord e + 1) := by
  apply cycle_address
  · have aw : command e e.destAddr = { defaultCommand e.request with len := e.request.len } := by
      rw [request, command, defaultCommand]
      simp [storeRequest]
    rw [adapterOutput, axiFsm, state, aw]
    cases ready : r.awReady <;> simp [defaultOutput, state]
  · rw [state]
    exact ⟨rfl, rfl⟩

/-- The count of the words that are left, while the word `k` is offered. -/
theorem count_eq (due : k ≤ lastWord e)
    (count : e.adapter.cnt = burstLength e - BitVec.ofNat 8 k) :
    (e.adapter.cnt == 0) = decide (k = lastWord e) ∧
      burstLength e - BitVec.ofNat 8 k - 1#8 = burstLength e - BitVec.ofNat 8 (k + 1) := by
  refine ⟨?_, remaining_pred⟩
  rw [Bool.eq_iff_iff, beq_iff_eq, decide_eq_true_iff, count, left_eq_zero due]

/-- The outputs of the adapter while it offers the word `k`, with the address or without it. -/
def sending (e : Engine) (address : Bool) (k : Nat) (state : AdapterState) (cnt : BitVec 8) :
    AdapterOutput :=
  { defaultOutput e.adapter e.request with
    axi := { (defaultOutput e.adapter e.request).axi with
      awValid := address
      aw := if address then command e e.destAddr else defaultCommand e.request
      wValid := true
      w := wordAt e k }
    state := state
    cnt := cnt
    gnt := state == .waitBValid }

theorem cycle_sending {state : AdapterState} {cnt : BitVec 8} (due : k ≤ lastWord e)
    (output : adapterOutput e r = sending e address k state cnt)
    (after : Encodes e state cnt (address && !r.awReady) (if r.wReady then k + 1 else k)) :
    WriteCycle e r address k where
  arValid := by rw [output]; rfl
  rReady := by rw [output]; rfl
  bReady := by rw [output]; rfl
  memWen := by rw [output]; rfl
  awValid := by rw [output]; rfl
  aw := by
    rintro rfl
    rw [output]
    rfl
  wValid := by rw [output, decide_eq_true due]; rfl
  w _ := by rw [output]; rfl
  after := by
    rw [output, decide_eq_true due, Bool.true_and]
    exact after
  gnt := by rw [output]; rfl

theorem cycle_waitLastWReady (request : e.request = storeRequest e)
    (state : e.adapter.state = .waitLastWReady) (due : k ≤ lastWord e)
    (count : e.adapter.cnt = burstLength e - BitVec.ofNat 8 k) : WriteCycle e r false k := by
  obtain ⟨last, fewer⟩ := count_eq due count
  have output : adapterOutput e r = sending e false k
      (if decide (k = lastWord e) && r.wReady then .waitBValid else .waitLastWReady)
      (if !decide (k = lastWord e) && r.wReady then e.adapter.cnt - 1 else e.adapter.cnt) := by
    rw [adapterOutput, axiFsm, state]
    simp only [waitWordsState, burstBeat_wordAt request due count, last]
    cases decide (k = lastWord e) <;> cases r.wReady <;> simp [sending, defaultOutput, state]
  refine cycle_sending due output ?_
  by_cases final : k = lastWord e
  · cases r.wReady with
    | true => simp [Encodes, final]
    | false => simp [Encodes, due, count]
  · have more : k + 1 ≤ lastWord e := by omega
    cases r.wReady with
    | true => simp [Encodes, final, more, fewer, count]
    | false => simp [Encodes, due, count]

theorem cycle_waitLastWReadyAwReady (request : e.request = storeRequest e)
    (state : e.adapter.state = .waitLastWReadyAwReady) (due : k ≤ lastWord e)
    (count : e.adapter.cnt = burstLength e - BitVec.ofNat 8 k) : WriteCycle e r true k := by
  obtain ⟨last, fewer⟩ := count_eq due count
  have aw : command e e.destAddr = { defaultCommand e.request with len := e.request.len } := by
    rw [request, command, defaultCommand]
    simp [storeRequest]
  have output : adapterOutput e r = sending e true k
      (if decide (k = lastWord e) && r.wReady then
        if r.awReady then .waitBValid else .waitAwReadyBurst
      else if r.awReady then .waitLastWReady else .waitLastWReadyAwReady)
      (if !decide (k = lastWord e) && r.wReady then e.adapter.cnt - 1 else e.adapter.cnt) := by
    rw [adapterOutput, axiFsm, state]
    simp only [waitBothState, burstBeat_wordAt request due count, last]
    cases decide (k = lastWord e) <;> cases r.wReady <;> cases r.awReady <;>
      simp [sending, defaultOutput, state, aw]
  refine cycle_sending due output ?_
  by_cases final : k = lastWord e
  · cases r.wReady <;> cases r.awReady <;> simp [Encodes, final, count]
  · have more : k + 1 ≤ lastWord e := by omega
    cases r.wReady <;> cases r.awReady <;> simp [Encodes, final, due, more, fewer, count]

/-- Every cycle of a write, whatever is left of it. -/
theorem write_cycle (request : e.request = storeRequest e) (proper : Proper e)
    (encodes : Encodes e e.adapter.state e.adapter.cnt address k)
    (waits : e.adapter.state ≠ .waitBValid) : WriteCycle e r address k := by
  cases state : e.adapter.state with
  | idle =>
      rw [state] at encodes
      obtain ⟨rfl, rfl⟩ := encodes
      exact cycle_idle request proper state
  | waitAwReady =>
      rw [state] at encodes
      obtain ⟨rfl, rfl, single⟩ := encodes
      exact cycle_waitAwReady request single state
  | waitAwReadyBurst =>
      rw [state] at encodes
      obtain ⟨rfl, rfl⟩ := encodes
      exact cycle_waitAwReadyBurst request state
  | waitLastWReadyAwReady =>
      rw [state] at encodes
      obtain ⟨rfl, due, count⟩ := encodes
      exact cycle_waitLastWReadyAwReady request state due count
  | waitLastWReady =>
      rw [state] at encodes
      obtain ⟨rfl, due, count⟩ := encodes
      exact cycle_waitLastWReady request state due count
  | waitBValid => exact absurd state waits
  | waitRValid | waitRValidMultiple | completeRead =>
      rw [state] at encodes
      exact encodes.elim

end Write

section Pages

/-- The saved command stands for two bursts with room in their pages. -/
def Engine.Fits (e : Engine) : Prop := Dma.Fits e.length e.sourceAddr e.destAddr

theorem toNat_blockAddr (a : BitVec 32) : (blockAddr a).toNat = 8 * (a.extractLsb' 3 29).toNat := by
  simp only [blockAddr, BitVec.toNat_append, Nat.shiftLeft_eq]
  simp [Nat.mul_comm]

theorem Engine.Fits.proper {e : Engine} (fits : e.Fits) : Proper e :=
  fits.imp id fun some => some.1

/-- A burst with room in its page. -/
theorem command_inside {e : Engine} {a : BitVec 32}
    (room : e.length = 0 ∨
      (blockAddr a).toNat % 4096 + 8 * ((burstLength e).toNat + 1) ≤ 4096) :
    (command e a).Inside := by
  unfold AxiCommand.Inside
  show (blockAddr a).toNat % 4096 + (if (if e.length = 0 then (0 : BitVec 2) else 1) = 1 then
    (burstLength e).toNat + 1 else 1) * 2 ^ 3 ≤ 4096
  by_cases single : e.length = 0
  · rw [if_pos single, if_neg (by decide), toNat_blockAddr]
    omega
  · rw [if_neg single, if_pos rfl]
    have room := room.resolve_left single
    omega

theorem Engine.Fits.source {e : Engine} (fits : e.Fits) : (command e e.sourceAddr).Inside :=
  command_inside (fits.imp id fun some => some.2.1)

theorem Engine.Fits.dest {e : Engine} (fits : e.Fits) : (command e e.destAddr).Inside :=
  command_inside (fits.imp id fun some => some.2.2)

end Pages

section Marks

variable {c : AxiCommand} {k : Nat}

theorem length_marks : c.marks.length = c.len.toNat + 1 := by
  rw [AxiCommand.marks, List.length_append, List.length_replicate]
  rfl

/-- The mark of the word `k`. -/
theorem take_marks_succ (due : k ≤ c.len.toNat) :
    c.marks.take (k + 1) = c.marks.take k ++ [decide (k = c.len.toNat)] := by
  have inside : k < c.marks.length := by
    rw [length_marks]
    omega
  have mark : c.marks[k] = decide (k = c.len.toNat) := by
    simp only [AxiCommand.marks, List.getElem_append, List.getElem_replicate,
      List.length_replicate]
    by_cases last : k = c.len.toNat
    · simp [last]
    · have before : k < c.len.toNat := by omega
      simp [last, before]
  rw [List.take_add_one, List.getElem?_eq_getElem inside, mark]
  rfl

end Marks

section Phases

/-- The bus between two bursts. -/
structure Quiet (b : Bus) : Prop where
  marks : b.marks = b.writes.flatMap AxiCommand.marks
  words : b.words = b.total

/-- A write burst of which the words from `k` on are left. -/
structure Sends (e : Engine) (b : Bus) (address : Bool) (k : Nat) : Prop where
  words : b.words = b.total
  sent : ∃ before, b.writes = before ++ (if address then [] else [command e e.destAddr]) ∧
    b.marks = before.flatMap AxiCommand.marks ++ (command e e.destAddr).marks.take k

/-- What holds between two cycles. -/
def Phase (s : Traffic) : Prop :=
  match s.engine.ctrl with
  | .idle | .done =>
      s.engine.adapter.state = .idle ∧ s.engine.request.req = false ∧ Quiet s.bus
  | .startLoad =>
      s.engine.Fits ∧ s.engine.adapter.state = .idle ∧
        (s.engine.request.req = true → s.engine.request = loadRequest s.engine) ∧ Quiet s.bus
  | .load =>
      s.engine.Fits ∧ s.bus.marks = s.bus.writes.flatMap AxiCommand.marks ∧
        ((s.engine.adapter.state = .completeRead ∧ s.bus.words = s.bus.total) ∨
          ((s.engine.adapter.state = .waitRValid ∨ s.engine.adapter.state = .waitRValidMultiple) ∧
            s.bus.words < s.bus.total))
  | .startStore =>
      s.engine.Fits ∧ s.engine.adapter.state ≠ .waitBValid ∧
        (s.engine.request.req = true → s.engine.request = storeRequest s.engine) ∧
        (s.engine.request.req = false → s.engine.adapter.state = .idle) ∧
        ∃ address k, Encodes s.engine s.engine.adapter.state s.engine.adapter.cnt address k ∧
          Sends s.engine s.bus address k
  | .store => s.engine.Fits ∧ s.engine.adapter.state = .waitBValid ∧ Quiet s.bus

variable {s : Traffic} {i : SystemInput}

/-- A cycle without a write. -/
theorem lawful_unwritten {o : AxiReq} {b : Bus}
    (marks : b.marks = b.writes.flatMap AxiCommand.marks) (aw : o.awValid = false)
    (w : o.wValid = false) (ar : o.arValid = true → o.ar.Inside)
    (expects : o.rReady = true ↔ b.words < b.total) : Lawful b o where
  beats := by
    refine ⟨[], ?_⟩
    rw [aw, w, if_neg Bool.false_ne_true, if_neg Bool.false_ne_true, List.append_nil,
      List.append_nil, List.append_nil, marks]
  finished _ := marks
  expects := expects
  writeInside valid := absurd (aw.symm.trans valid) Bool.false_ne_true
  readInside := ar

/-- Nothing is on the bus, or only a response is awaited. -/
theorem lawful_silent {o : AxiReq} {b : Bus} (quiet : Quiet b) (aw : o.awValid = false)
    (w : o.wValid = false) (ar : o.arValid = false) (r : o.rReady = false) : Lawful b o := by
  refine lawful_unwritten quiet.marks aw w ?_ ?_
  · exact fun valid => absurd (ar.symm.trans valid) Bool.false_ne_true
  · rw [r, quiet.words]
    exact iff_of_false Bool.false_ne_true (Nat.lt_irrefl _)

/-- A write sends the words of its burst. -/
theorem lawful_write {address : Bool} {k : Nat} (fits : s.engine.Fits)
    (cycle : WriteCycle s.engine i.resp address k) (sends : Sends s.engine s.bus address k) :
    Lawful s.bus (s.axi i) := by
  obtain ⟨before, writes, marks⟩ := sends.sent
  have bursts : s.bus.writes ++ (if (s.axi i).awValid then [(s.axi i).aw] else []) =
      before ++ [command s.engine s.engine.destAddr] := by
    rw [writes, Traffic.axi, cycle.awValid]
    cases address with
    | true => rw [if_pos rfl, if_pos rfl, List.append_nil, cycle.aw rfl]
    | false => rw [if_neg Bool.false_ne_true, if_neg Bool.false_ne_true, List.append_nil]
  have words : s.bus.marks ++ (if (s.axi i).wValid then [(s.axi i).w.last] else []) =
      before.flatMap AxiCommand.marks ++ (command s.engine s.engine.destAddr).marks.take
        (if k ≤ lastWord s.engine then k + 1 else k) := by
    rw [marks, Traffic.axi, cycle.wValid]
    by_cases due : k ≤ lastWord s.engine
    · rw [decide_eq_true due, if_pos rfl, if_pos due, cycle.w due, List.append_assoc,
        take_marks_succ (c := command s.engine s.engine.destAddr) due]
      rfl
    · rw [decide_eq_false due, if_neg Bool.false_ne_true, if_neg due, List.append_nil]
  constructor
  · rw [bursts, words, List.flatMap_append, List.flatMap_singleton]
    exact List.prefix_append_right_inj _ |>.mpr (List.take_prefix _ _)
  · intro ready
    exact absurd (cycle.bReady.symm.trans ready) Bool.false_ne_true
  · rw [Traffic.axi, cycle.rReady, sends.words]
    exact iff_of_false Bool.false_ne_true (Nat.lt_irrefl _)
  · intro valid
    rw [Traffic.axi, cycle.aw (cycle.awValid.symm.trans valid)]
    exact fits.dest
  · intro valid
    exact absurd (cycle.arValid.symm.trans valid) Bool.false_ne_true

/-- A write that did not begin. -/
theorem Sends.quiet {address : Bool} {k : Nat} (sends : Sends s.engine s.bus address k)
    (state : s.engine.adapter.state = .idle)
    (encodes : Encodes s.engine s.engine.adapter.state s.engine.adapter.cnt address k) :
    Quiet s.bus := by
  rw [state] at encodes
  obtain ⟨rfl, rfl⟩ := encodes
  obtain ⟨before, writes, marks⟩ := sends.sent
  rw [if_pos rfl, List.append_nil] at writes
  rw [List.take_zero, List.append_nil, ← writes] at marks
  exact ⟨marks, sends.words⟩

/-- An adapter that has nothing to do. -/
theorem axi_idle (state : s.engine.adapter.state = .idle) (none : s.engine.request.req = false) :
    s.axi i = (defaultOutput s.engine.adapter s.engine.request).axi := by
  rw [Traffic.axi, adapterOutput, axiFsm_idle state none]

theorem axi_completeRead (state : s.engine.adapter.state = .completeRead) :
    s.axi i = (defaultOutput s.engine.adapter s.engine.request).axi := by
  rw [Traffic.axi, adapterOutput, axiFsm, state]

theorem axi_waitBValid (state : s.engine.adapter.state = .waitBValid) :
    s.axi i = { (defaultOutput s.engine.adapter s.engine.request).axi with bReady := true } := by
  rw [Traffic.axi, adapterOutput, axiFsm, state]
  cases i.resp.bValid <;> simp

/-- The outputs while the words of a read come in. -/
theorem output_receive (state : s.engine.adapter.state = .waitRValid ∨
      s.engine.adapter.state = .waitRValidMultiple) :
    s.axi i = { (defaultOutput s.engine.adapter s.engine.request).axi with rReady := true } ∧
      (adapterOutput s.engine i.resp).state =
        (if i.resp.rValid && i.resp.rLast then .completeRead else s.engine.adapter.state) ∧
      (adapterOutput s.engine i.resp).valid = false := by
  rw [Traffic.axi, adapterOutput, axiFsm]
  rcases state with state | state <;> rw [state] <;>
    cases valid : i.resp.rValid <;> cases last : i.resp.rLast <;>
    simp [readState, defaultOutput, valid, last, state]

theorem Phase.lawful (phase : Phase s) : Lawful s.bus (s.axi i) := by
  unfold Phase at phase
  cases ctrl : s.engine.ctrl with
  | idle | done =>
      simp only [ctrl] at phase
      obtain ⟨state, none, quiet⟩ := phase
      rw [axi_idle state none]
      exact lawful_silent quiet rfl rfl rfl rfl
  | startLoad =>
      simp only [ctrl] at phase
      obtain ⟨fits, state, request, quiet⟩ := phase
      cases req : s.engine.request.req with
      | false =>
          rw [axi_idle state req]
          exact lawful_silent quiet rfl rfl rfl rfl
      | true =>
          have asked := request req
          have output := axiFsm_read (r := i.resp) state req (by rw [asked]; rfl)
          rw [Traffic.axi, adapterOutput, output]
          refine lawful_unwritten quiet.marks rfl rfl (fun _ => ?_) ?_
          · have ar : burstCommand s.engine.request = command s.engine s.engine.sourceAddr := by
              rw [asked]
              exact burstCommand_eq _ rfl rfl rfl rfl
            show (burstCommand s.engine.request).Inside
            rw [ar]
            exact fits.source
          · rw [quiet.words]
            exact iff_of_false Bool.false_ne_true (Nat.lt_irrefl _)
  | load =>
      simp only [ctrl] at phase
      obtain ⟨fits, marks, ⟨state, words⟩ | ⟨state, words⟩⟩ := phase
      · rw [axi_completeRead state]
        exact lawful_silent ⟨marks, words⟩ rfl rfl rfl rfl
      · rw [(output_receive state).1]
        exact lawful_unwritten marks rfl rfl (fun valid => absurd valid Bool.false_ne_true)
          (iff_of_true rfl words)
  | startStore =>
      simp only [ctrl] at phase
      obtain ⟨fits, waits, request, rests, address, k, encodes, sends⟩ := phase
      cases req : s.engine.request.req with
      | false =>
          rw [axi_idle (rests req) req]
          exact lawful_silent (sends.quiet (rests req) encodes) rfl rfl rfl rfl
      | true => exact lawful_write fits (write_cycle (request req) fits.proper encodes waits) sends
  | store =>
      simp only [ctrl] at phase
      obtain ⟨fits, state, quiet⟩ := phase
      rw [axi_waitBValid state]
      exact lawful_silent quiet rfl rfl rfl rfl

/-- While a transfer runs, its command stays. -/
theorem saved_kept (busy : s.engine.ctrl ≠ .idle) (running : s.engine.ctrl ≠ .done) :
    (s.next i).engine.length = s.engine.length ∧
      (s.next i).engine.sourceAddr = s.engine.sourceAddr ∧
      (s.next i).engine.destAddr = s.engine.destAddr :=
  next_saved (s := { regs := s.regs, engine := s.engine }) (i := i) busy running

theorem fits_kept (busy : s.engine.ctrl ≠ .idle) (running : s.engine.ctrl ≠ .done)
    (fits : s.engine.Fits) : (s.next i).engine.Fits := by
  obtain ⟨length, source, dest⟩ := saved_kept (i := i) busy running
  rw [Engine.Fits, length, source, dest]
  exact fits

/-- A cycle in which nothing moves. -/
theorem bus_kept (ar : (s.axi i).arValid = false) (r : (s.axi i).rReady = false)
    (aw : (s.axi i).awValid = false) (w : (s.axi i).wValid = false) : (s.next i).bus = s.bus := by
  show s.bus.next (s.axi i) i.resp = s.bus
  rw [Bus.next, ar, r, aw, w]
  simp

/-- The engine rests, and a start may come. -/
theorem phase_rest (state : s.engine.adapter.state = .idle) (none : s.engine.request.req = false)
    (quiet : Quiet s.bus) (rests : s.engine.ctrl = .idle ∨ s.engine.ctrl = .done)
    (contract : FitContract s i) : Phase (s.next i) := by
  have axi := axi_idle (i := i) state none
  have bus : (s.next i).bus = s.bus := by
    apply bus_kept <;> rw [axi] <;> rfl
  have stays : (s.next i).engine.adapter.state = .idle := by
    show (adapterOutput s.engine i.resp).state = .idle
    rw [adapterOutput, axiFsm_idle state none]
    exact state
  have request : (s.next i).engine.request = s.engine.request := by
    show nextRequest s.engine = _
    rcases rests with ctrl | ctrl <;> rw [nextRequest, ctrl]
  have after : (s.next i).engine.ctrl = nextCtrl s.engine i.resp := rfl
  rcases rests with ctrl | ctrl
  · rw [nextCtrl, ctrl] at after
    simp only at after
    cases starts : start s.engine with
    | true =>
        rw [starts, if_pos rfl] at after
        rw [Phase, after, bus]
        refine ⟨?_, stays, ?_, quiet⟩
        · have saved : saves s.engine = true := by rw [saves, ctrl]; rfl
          have fits := contract.fits ctrl starts
          show Fits (if saves s.engine then s.regs.length else _)
            (if saves s.engine then s.regs.sourceAddr else _)
            (if saves s.engine then s.regs.destAddr else _)
          rw [saved]
          exact fits
        · rw [request, none]
          exact fun high => absurd high Bool.false_ne_true
    | false =>
        rw [starts, if_neg Bool.false_ne_true] at after
        rw [Phase, after, bus, request]
        exact ⟨stays, none, quiet⟩
  · rw [nextCtrl, ctrl] at after
    simp only at after
    have either : (s.next i).engine.ctrl = .idle ∨ (s.next i).engine.ctrl = .done := by
      rw [after]
      cases clrDone s.engine <;> simp
    rcases either with after | after <;> rw [Phase, after, bus, request] <;>
      exact ⟨stays, none, quiet⟩

/-- The read is asked for. -/
theorem phase_startLoad (ctrl : s.engine.ctrl = .startLoad) (fits : s.engine.Fits)
    (state : s.engine.adapter.state = .idle)
    (request : s.engine.request.req = true → s.engine.request = loadRequest s.engine)
    (quiet : Quiet s.bus) : Phase (s.next i) := by
  have busy : s.engine.ctrl ≠ .idle := by simp [ctrl]
  have running : s.engine.ctrl ≠ .done := by simp [ctrl]
  obtain ⟨length, source, -⟩ := saved_kept (i := i) busy running
  have fits := fits_kept (i := i) busy running fits
  have asked : (s.next i).engine.request = loadRequest (s.next i).engine := by
    have loads : loadRequest (s.next i).engine = loadRequest s.engine := by
      rw [loadRequest, loadRequest, source, length, burstLength, burstLength, length]
    rw [loads]
    show nextRequest s.engine = _
    rw [nextRequest, ctrl]
    rfl
  have after : (s.next i).engine.ctrl =
      if (adapterOutput s.engine i.resp).gnt then .load else .startLoad := by
    show nextCtrl s.engine i.resp = _
    rw [nextCtrl, ctrl]
  cases req : s.engine.request.req with
  | false =>
      have axi := axi_idle (i := i) state req
      have bus : (s.next i).bus = s.bus := by
        apply bus_kept <;> rw [axi] <;> rfl
      have output : adapterOutput s.engine i.resp =
          { defaultOutput s.engine.adapter s.engine.request with cnt := 0 } :=
        axiFsm_idle state req
      rw [output] at after
      rw [Phase, after, bus]
      refine ⟨fits, ?_, fun _ => asked, quiet⟩
      show (adapterOutput s.engine i.resp).state = .idle
      rw [output]
      exact state
  | true =>
      have output := axiFsm_read (r := i.resp) state req (by rw [request req]; rfl)
      have axi : s.axi i = { (defaultOutput s.engine.adapter s.engine.request).axi with
          arValid := true, ar := burstCommand s.engine.request } :=
        congrArg AdapterOutput.axi output
      have gnt : (adapterOutput s.engine i.resp).gnt = i.resp.arReady :=
        congrArg AdapterOutput.gnt output
      have stateAfter : (s.next i).engine.adapter.state =
          if i.resp.arReady then
            if s.engine.request.single then .waitRValid else .waitRValidMultiple
          else .idle :=
        congrArg AdapterOutput.state output
      rw [gnt] at after
      have reads : (s.next i).bus = { s.bus with
          reads := s.bus.reads ++ if i.resp.arReady then [burstCommand s.engine.request] else [] } := by
        show s.bus.next (s.axi i) i.resp = _
        rw [axi, Bus.next]
        simp [defaultOutput]
      cases ready : i.resp.arReady with
      | false =>
          rw [ready, if_neg Bool.false_ne_true] at after stateAfter reads
          rw [List.append_nil] at reads
          rw [Phase, after, reads]
          exact ⟨fits, stateAfter, fun _ => asked, quiet⟩
      | true =>
          rw [ready, if_pos rfl] at after stateAfter reads
          rw [Phase, after, reads]
          refine ⟨fits, quiet.marks, .inr ⟨?_, ?_⟩⟩
          · rw [stateAfter]
            cases s.engine.request.single <;> simp
          · show s.bus.words < ((s.bus.reads ++ [_]).flatMap AxiCommand.marks).length
            rw [List.flatMap_append, List.length_append, List.flatMap_singleton, length_marks,
              quiet.words, Bus.total]
            omega

/-- Words come in. -/
theorem phase_load (ctrl : s.engine.ctrl = .load) (fits : s.engine.Fits)
    (marks : s.bus.marks = s.bus.writes.flatMap AxiCommand.marks)
    (reads : (s.engine.adapter.state = .completeRead ∧ s.bus.words = s.bus.total) ∨
      ((s.engine.adapter.state = .waitRValid ∨ s.engine.adapter.state = .waitRValidMultiple) ∧
        s.bus.words < s.bus.total))
    (contract : FitContract s i) : Phase (s.next i) := by
  have busy : s.engine.ctrl ≠ .idle := by simp [ctrl]
  have running : s.engine.ctrl ≠ .done := by simp [ctrl]
  have fits := fits_kept (i := i) busy running fits
  have after : (s.next i).engine.ctrl =
      if (adapterOutput s.engine i.resp).valid then .startStore else .load := by
    show nextCtrl s.engine i.resp = _
    rw [nextCtrl, ctrl]
  have request : (s.next i).engine.request = { s.engine.request with req := false } := by
    show nextRequest s.engine = _
    rw [nextRequest, ctrl]
  rcases reads with ⟨state, words⟩ | ⟨state, words⟩
  · have output : adapterOutput s.engine i.resp =
        { defaultOutput s.engine.adapter s.engine.request with valid := true, state := .idle } := by
      rw [adapterOutput, axiFsm, state]
    have bus : (s.next i).bus = s.bus := by
      apply bus_kept <;> rw [axi_completeRead state] <;> rfl
    rw [output, if_pos rfl] at after
    have stays : (s.next i).engine.adapter.state = .idle := congrArg AdapterOutput.state output
    rw [Phase, after, bus, stays, request]
    refine ⟨fits, by decide, ?_, fun _ => rfl, true, 0, ⟨rfl, rfl⟩, words, s.bus.writes, ?_, ?_⟩
    · exact fun high => absurd high Bool.false_ne_true
    · rw [if_pos rfl, List.append_nil]
    · rw [List.take_zero, List.append_nil, marks]
  · obtain ⟨axi, stateAfter, valid⟩ := output_receive (i := i) state
    rw [valid, if_neg Bool.false_ne_true] at after
    have moves : (s.next i).bus =
        { s.bus with words := s.bus.words + if i.resp.rValid then 1 else 0 } := by
      show s.bus.next (s.axi i) i.resp = _
      rw [axi, Bus.next]
      simp [defaultOutput]
    have stateNext : (s.next i).engine.adapter.state =
        if i.resp.rValid && i.resp.rLast then .completeRead else s.engine.adapter.state :=
      stateAfter
    rw [Phase, after, moves]
    refine ⟨fits, marks, ?_⟩
    cases comes : i.resp.rValid with
    | false =>
        rw [comes, Bool.false_and, if_neg Bool.false_ne_true] at stateNext
        rw [stateNext]
        exact .inr ⟨state, words⟩
    | true =>
        have last := contract.last (by rw [axi]) comes
        rw [comes, Bool.true_and, last] at stateNext
        rw [stateNext]
        by_cases final : s.bus.words + 1 = s.bus.total
        · rw [decide_eq_true final, if_pos rfl]
          exact .inl ⟨rfl, final⟩
        · rw [decide_eq_false final, if_neg Bool.false_ne_true]
          refine .inr ⟨state, ?_⟩
          show s.bus.words + 1 < s.bus.total
          omega

theorem Encodes.saved {e e' : Engine} {state : AdapterState} {cnt : BitVec 8} {address : Bool}
    {k : Nat} (encodes : Encodes e state cnt address k) (length : e'.length = e.length) :
    Encodes e' state cnt address k := by
  unfold Encodes lastWord burstLength
  rw [length]
  exact encodes

/-- The handshakes of a write. -/
theorem sends_next {address : Bool} {k : Nat} (busy : s.engine.ctrl ≠ .idle)
    (running : s.engine.ctrl ≠ .done) (cycle : WriteCycle s.engine i.resp address k)
    (sends : Sends s.engine s.bus address k) :
    Sends (s.next i).engine (s.next i).bus (address && !i.resp.awReady)
      (if decide (k ≤ lastWord s.engine) && i.resp.wReady then k + 1 else k) := by
  obtain ⟨length, -, dest⟩ := saved_kept (i := i) busy running
  have same : command (s.next i).engine (s.next i).engine.destAddr =
      command s.engine s.engine.destAddr := by
    rw [command, command, dest, length, burstLength, burstLength, length]
  obtain ⟨before, writes, marks⟩ := sends.sent
  have writesNext : (s.next i).bus.writes = s.bus.writes ++
      if address && i.resp.awReady then [command s.engine s.engine.destAddr] else [] := by
    show s.bus.writes ++ (if (s.axi i).awValid && _ then [(s.axi i).aw] else []) = _
    rw [Traffic.axi, cycle.awValid]
    cases address with
    | true => rw [cycle.aw rfl]
    | false => rfl
  have marksNext : (s.next i).bus.marks = s.bus.marks ++
      if decide (k ≤ lastWord s.engine) && i.resp.wReady then [decide (k = lastWord s.engine)]
      else [] := by
    show s.bus.marks ++ (if (s.axi i).wValid && _ then [(s.axi i).w.last] else []) = _
    rw [Traffic.axi, cycle.wValid]
    by_cases due : k ≤ lastWord s.engine
    · rw [cycle.w due]
      rfl
    · rw [decide_eq_false due]
      rfl
  constructor
  · show s.bus.words + (if (s.axi i).rReady && _ then 1 else 0) =
      ((s.bus.reads ++ if (s.axi i).arValid && _ then _ else []).flatMap _).length
    rw [Traffic.axi, cycle.rReady, cycle.arValid, Bool.false_and, Bool.false_and,
      if_neg Bool.false_ne_true, if_neg Bool.false_ne_true, List.append_nil]
    exact sends.words
  · refine ⟨before, ?_, ?_⟩
    · rw [writesNext, writes, same, List.append_assoc]
      cases address <;> cases i.resp.awReady <;> rfl
    · rw [marksNext, marks, same, List.append_assoc]
      by_cases taken : (decide (k ≤ lastWord s.engine) && i.resp.wReady) = true
      · have due := of_decide_eq_true (Bool.and_eq_true_iff.mp taken).1
        rw [if_pos taken, if_pos taken,
          take_marks_succ (c := command s.engine s.engine.destAddr) due]
        rfl
      · rw [if_neg taken, if_neg taken, List.append_nil]

/-- All words and the address were accepted. -/
theorem Sends.complete {e : Engine} {b : Bus} {address : Bool} {k : Nat}
    (sends : Sends e b address k) (accepted : address = false) (all : k = lastWord e + 1) :
    Quiet b := by
  obtain ⟨before, writes, marks⟩ := sends.sent
  rw [accepted, if_neg Bool.false_ne_true] at writes
  have length : (command e e.destAddr).marks.length ≤ k := by
    rw [length_marks, all]
    exact Nat.le_refl _
  rw [List.take_of_length_le length] at marks
  refine ⟨?_, sends.words⟩
  rw [marks, writes, List.flatMap_append, List.flatMap_singleton]

/-- The write goes on, or all of it was accepted. -/
theorem phase_startStore {address : Bool} {k : Nat} (ctrl : s.engine.ctrl = .startStore)
    (fits : s.engine.Fits) (waits : s.engine.adapter.state ≠ .waitBValid)
    (request : s.engine.request.req = true → s.engine.request = storeRequest s.engine)
    (rests : s.engine.request.req = false → s.engine.adapter.state = .idle)
    (encodes : Encodes s.engine s.engine.adapter.state s.engine.adapter.cnt address k)
    (sends : Sends s.engine s.bus address k) : Phase (s.next i) := by
  have busy : s.engine.ctrl ≠ .idle := by simp [ctrl]
  have running : s.engine.ctrl ≠ .done := by simp [ctrl]
  obtain ⟨length, -, dest⟩ := saved_kept (i := i) busy running
  have proper := fits.proper
  have fits := fits_kept (i := i) busy running fits
  have asked : (s.next i).engine.request = storeRequest (s.next i).engine := by
    have stores : storeRequest (s.next i).engine = storeRequest s.engine := by
      rw [storeRequest, storeRequest, dest, length, burstLength, burstLength, length]
    rw [stores]
    show nextRequest s.engine = _
    rw [nextRequest, ctrl]
    rfl
  have after : (s.next i).engine.ctrl =
      if (adapterOutput s.engine i.resp).gnt then .store else .startStore := by
    show nextCtrl s.engine i.resp = _
    rw [nextCtrl, ctrl]
  cases req : s.engine.request.req with
  | false =>
      have state := rests req
      have axi := axi_idle (i := i) state req
      have bus : (s.next i).bus = s.bus := by
        apply bus_kept <;> rw [axi] <;> rfl
      have quiet := sends.quiet state encodes
      have output : adapterOutput s.engine i.resp =
          { defaultOutput s.engine.adapter s.engine.request with cnt := 0 } :=
        axiFsm_idle state req
      rw [output] at after
      have stays : (s.next i).engine.adapter.state = .idle := by
        show (adapterOutput s.engine i.resp).state = .idle
        rw [output]
        exact state
      rw [Phase, after, bus]
      refine ⟨fits, ?_, fun _ => asked, fun _ => stays, true, 0, ?_, ?_⟩
      · rw [stays]
        decide
      · rw [stays]
        exact ⟨rfl, rfl⟩
      · refine ⟨quiet.words, s.bus.writes, ?_, ?_⟩
        · rw [if_pos rfl, List.append_nil]
        · rw [List.take_zero, List.append_nil, quiet.marks]
  | true =>
      have cycle := write_cycle (r := i.resp) (request req) proper encodes waits
      have sendsNext := sends_next busy running cycle sends
      have encodesNext := cycle.after.saved length
      rw [cycle.gnt] at after
      cases answered : (adapterOutput s.engine i.resp).state == .waitBValid with
      | true =>
          have state := eq_of_beq answered
          rw [answered, if_pos rfl] at after
          rw [state] at encodesNext
          rw [Phase, after]
          exact ⟨fits, state, sendsNext.complete encodesNext.1 encodesNext.2⟩
      | false =>
          rw [answered, if_neg Bool.false_ne_true] at after
          rw [Phase, after]
          refine ⟨fits, beq_eq_false_iff_ne.mp answered, fun _ => asked, ?_, _, _, encodesNext,
            sendsNext⟩
          rw [asked]
          exact fun low => absurd low.symm Bool.false_ne_true

/-- Only the response is missing. -/
theorem phase_store (ctrl : s.engine.ctrl = .store) (fits : s.engine.Fits)
    (state : s.engine.adapter.state = .waitBValid) (quiet : Quiet s.bus) : Phase (s.next i) := by
  have busy : s.engine.ctrl ≠ .idle := by simp [ctrl]
  have running : s.engine.ctrl ≠ .done := by simp [ctrl]
  have fits := fits_kept (i := i) busy running fits
  have bus : (s.next i).bus = s.bus := by
    apply bus_kept <;> rw [axi_waitBValid state] <;> rfl
  have after : (s.next i).engine.ctrl =
      if (adapterOutput s.engine i.resp).valid then .done else .store := by
    show nextCtrl s.engine i.resp = _
    rw [nextCtrl, ctrl]
  have request : (s.next i).engine.request = { s.engine.request with req := false } := by
    show nextRequest s.engine = _
    rw [nextRequest, ctrl]
  have valid : (adapterOutput s.engine i.resp).valid = i.resp.bValid := by
    rw [adapterOutput, axiFsm, state]
    cases i.resp.bValid <;> rfl
  have stateAfter : (s.next i).engine.adapter.state =
      if i.resp.bValid then .idle else .waitBValid := by
    show (adapterOutput s.engine i.resp).state = _
    rw [adapterOutput, axiFsm, state]
    cases i.resp.bValid
    · exact state
    · rfl
  rw [valid] at after
  cases answers : i.resp.bValid with
  | true =>
      rw [answers, if_pos rfl] at after stateAfter
      rw [Phase, after, bus, request]
      exact ⟨stateAfter, rfl, quiet⟩
  | false =>
      rw [answers, if_neg Bool.false_ne_true] at after stateAfter
      rw [Phase, after, bus]
      exact ⟨fits, stateAfter, quiet⟩

theorem Phase.next (phase : Phase s) (contract : FitContract s i) : Phase (s.next i) := by
  unfold Phase at phase
  cases ctrl : s.engine.ctrl with
  | idle =>
      simp only [ctrl] at phase
      exact phase_rest phase.1 phase.2.1 phase.2.2 (.inl ctrl) contract
  | done =>
      simp only [ctrl] at phase
      exact phase_rest phase.1 phase.2.1 phase.2.2 (.inr ctrl) contract
  | startLoad =>
      simp only [ctrl] at phase
      obtain ⟨fits, state, request, quiet⟩ := phase
      exact phase_startLoad ctrl fits state request quiet
  | load =>
      simp only [ctrl] at phase
      obtain ⟨fits, marks, reads⟩ := phase
      exact phase_load ctrl fits marks reads contract
  | startStore =>
      simp only [ctrl] at phase
      obtain ⟨fits, waits, request, rests, address, k, encodes, sends⟩ := phase
      exact phase_startStore ctrl fits waits request rests encodes sends
  | store =>
      simp only [ctrl] at phase
      obtain ⟨fits, state, quiet⟩ := phase
      exact phase_store ctrl fits state quiet

theorem phase_run {inputs : List SystemInput}
    (legal : traffic.Legal FitContract traffic.reset inputs) : Phase (traffic.run inputs) :=
  traffic.run_invariant ⟨rfl, rfl, rfl, rfl⟩ (fun _ _ phase contract => phase.next contract) legal

end Phases

section Stability

variable {s : Traffic} {i : SystemInput}

/-- Nothing is offered that could be withdrawn. -/
theorem steady_silent {o later : AxiReq} {r : AxiResp} (aw : o.awValid = false)
    (w : o.wValid = false) : Steady o r later where
  aw valid := absurd (aw.symm.trans valid) Bool.false_ne_true
  w valid := absurd (w.symm.trans valid) Bool.false_ne_true

/-- A write offers again what was not accepted, as long as it goes on. -/
theorem steady_write {address : Bool} {k : Nat} {later : AxiResp}
    (busy : s.engine.ctrl ≠ .idle) (running : s.engine.ctrl ≠ .done)
    (cycle : WriteCycle s.engine i.resp address k)
    (cycleNext : ∀ address' k',
      address' = (address && !i.resp.awReady) →
      k' = (if decide (k ≤ lastWord s.engine) && i.resp.wReady then k + 1 else k) →
      (address' = true ∨ k' ≤ lastWord s.engine) →
      WriteCycle (s.next i).engine later address' k') :
    Steady (s.axi i) i.resp (adapterOutput (s.next i).engine later).axi := by
  obtain ⟨length, -, dest⟩ := saved_kept (i := i) busy running
  have last : lastWord (s.next i).engine = lastWord s.engine := by
    rw [lastWord, lastWord, burstLength, burstLength, length]
  have same : command (s.next i).engine (s.next i).engine.destAddr =
      command s.engine s.engine.destAddr := by
    rw [command, command, dest, length, burstLength, burstLength, length]
  have memory : (s.next i).engine.adapter.mem = s.engine.adapter.mem := by
    show (if (adapterOutput s.engine i.resp).memWen then _ else _) = _
    rw [cycle.memWen]
    rfl
  constructor
  · intro valid ready
    have offers : address = true := cycle.awValid.symm.trans valid
    have again := cycleNext true _ (by rw [offers, ready]; rfl) rfl (.inl rfl)
    refine ⟨again.awValid, ?_⟩
    rw [again.aw rfl, Traffic.axi, cycle.aw offers, same]
  · intro valid ready
    have due : k ≤ lastWord s.engine :=
      of_decide_eq_true (cycle.wValid.symm.trans valid)
    have again := cycleNext _ k rfl (by rw [ready, Bool.and_false]; rfl) (.inr due)
    have dueNext : k ≤ lastWord (s.next i).engine := by rw [last]; exact due
    refine ⟨?_, ?_⟩
    · rw [again.wValid]
      exact decide_eq_true dueNext
    · rw [again.w dueNext, Traffic.axi, cycle.w due, wordAt, wordAt, memory, last]

theorem Phase.steady (phase : Phase s) (later : AxiResp) :
    Steady (s.axi i) i.resp (adapterOutput (s.next i).engine later).axi := by
  unfold Phase at phase
  cases ctrl : s.engine.ctrl with
  | idle | done =>
      simp only [ctrl] at phase
      obtain ⟨state, none, -⟩ := phase
      rw [axi_idle state none]
      exact steady_silent rfl rfl
  | startLoad =>
      simp only [ctrl] at phase
      obtain ⟨-, state, request, -⟩ := phase
      cases req : s.engine.request.req with
      | false =>
          rw [axi_idle state req]
          exact steady_silent rfl rfl
      | true =>
          have output := axiFsm_read (r := i.resp) state req (by rw [request req]; rfl)
          rw [Traffic.axi, adapterOutput, output]
          exact steady_silent rfl rfl
  | load =>
      simp only [ctrl] at phase
      obtain ⟨-, -, ⟨state, -⟩ | ⟨state, -⟩⟩ := phase
      · rw [axi_completeRead state]
        exact steady_silent rfl rfl
      · rw [(output_receive state).1]
        exact steady_silent rfl rfl
  | store =>
      simp only [ctrl] at phase
      rw [axi_waitBValid phase.2.1]
      exact steady_silent rfl rfl
  | startStore =>
      simp only [ctrl] at phase
      obtain ⟨fits, waits, request, rests, address, k, encodes, sends⟩ := phase
      cases req : s.engine.request.req with
      | false =>
          rw [axi_idle (rests req) req]
          exact steady_silent rfl rfl
      | true =>
          have busy : s.engine.ctrl ≠ .idle := by simp [ctrl]
          have running : s.engine.ctrl ≠ .done := by simp [ctrl]
          have cycle := write_cycle (r := i.resp) (request req) fits.proper encodes waits
          refine steady_write busy running cycle fun address' k' address_eq k_eq open' => ?_
          subst address_eq k_eq
          have encodesNext := cycle.after.saved (saved_kept (i := i) busy running).1
          have waitsNext : (s.next i).engine.adapter.state ≠ .waitBValid := by
            intro answered
            have all := cycle.after
            rw [show (adapterOutput s.engine i.resp).state = .waitBValid from answered] at all
            rcases open' with offers | due
            · exact absurd (all.1.symm.trans offers) Bool.false_ne_true
            · exact absurd (all.2 ▸ due) (Nat.not_succ_le_self _)
          have asked : (s.next i).engine.request = storeRequest (s.next i).engine := by
            obtain ⟨length, -, dest⟩ := saved_kept (i := i) busy running
            have stores : storeRequest (s.next i).engine = storeRequest s.engine := by
              rw [storeRequest, storeRequest, dest, length, burstLength, burstLength, length]
            rw [stores]
            show nextRequest s.engine = _
            rw [nextRequest, ctrl]
            rfl
          exact write_cycle asked (fits_kept busy running fits).proper encodesNext waitsNext

end Stability

end Ariane.Dma
