import Ariane.Dma
import Mathlib.Data.List.Basic
import Mathlib.Algebra.Group.Nat.Defs

set_option autoImplicit false

/- What one start of the DMA engine does on the bus, for every slave that answers a read burst with
as many words as it has, and what each state of the engine says about it. -/
namespace Ariane.Dma

open Rtl (Machine)

/-- The addresses of the words of a burst. -/
def AxiCommand.addresses (c : AxiCommand) : List (BitVec 64) :=
  (List.range (c.len.toNat + 1)).map fun k =>
    if c.burst = 1 then c.addr + BitVec.ofNat 64 (k * 2 ^ c.size.toNat) else c.addr

/-- What the bus carries for one start. -/
structure Transfer where
  source : BitVec 32 := 0
  dest : BitVec 32 := 0
  length : BitVec 32 := 0
  reads : List AxiCommand := []
  read : List (BitVec 64) := []
  writes : List AxiCommand := []
  written : List AxiBeat := []
  responses : Nat := 0
  deriving DecidableEq

/-- The words that the slave still has to deliver. -/
def Transfer.owed (t : Transfer) : Nat :=
  t.reads.foldl (fun n c => n + (c.len.toNat + 1)) 0 - t.read.length

/-- `n` consecutive 64-bit words from the block at `a`. -/
def consecutive (a : BitVec 32) (n : Nat) : List (BitVec 64) :=
  (List.range n).map fun k => blockAddr a + BitVec.ofNat 64 (8 * k)

/-- The words at the source went to the destination, in order and complete. -/
structure Copies (t : Transfer) : Prop where
  reads : t.reads.flatMap AxiCommand.addresses = consecutive t.source (t.length.toNat + 1)
  read : t.read.length = t.length.toNat + 1
  writes : t.writes.flatMap AxiCommand.addresses = consecutive t.dest (t.length.toNat + 1)
  written : t.written.map AxiBeat.data = t.read
  sizes : ∀ c ∈ t.reads ++ t.writes, c.size = 3
  strobes : ∀ b ∈ t.written, b.strb = BitVec.allOnes 8
  response : t.responses = 1

/-- The engine, its registers and the history of the bus. -/
structure System where
  regs : Registers := {}
  engine : Engine := {}
  /-- The transfer that was started last. -/
  current : Transfer := {}
  /-- The transfers that were reported as done, the last one first. -/
  past : List Transfer := []
  starts : Nat := 0
  /-- The cycles in which `CTRL_DONE` was reported and the saved command clears it. -/
  clears : Nat := 0

/-- The inputs of one cycle. -/
structure SystemInput where
  write : Option RegWrite := none
  resp : AxiResp := {}
  deriving DecidableEq

namespace System

variable (s : System) (i : SystemInput)

/-- The outputs of the adapter. -/
def output : AdapterOutput := adapterOutput s.engine i.resp

/-- A transfer starts. -/
def begins : Bool := s.engine.ctrl == .idle && start s.engine

/-- The transfer that starts, with the registers that are saved in this cycle. -/
def begun : Transfer where
  source := s.regs.sourceAddr
  dest := s.regs.destAddr
  length := s.regs.length

/-- What moves on the bus in this cycle. -/
def moved : Transfer :=
  let o := (s.output i).axi
  { s.current with
    reads := s.current.reads ++ if o.arValid && i.resp.arReady then [o.ar] else []
    read := s.current.read ++ if o.rReady && i.resp.rValid then [i.resp.rData] else []
    writes := s.current.writes ++ if o.awValid && i.resp.awReady then [o.aw] else []
    written := s.current.written ++ if o.wValid && i.resp.wReady then [o.w] else []
    responses := s.current.responses + if o.bReady && i.resp.bValid then 1 else 0 }

/-- The transfer ends: `CTRL_DONE` is reported from the next cycle on. -/
def ends : Bool := s.engine.ctrl == .store && nextCtrl s.engine i.resp == .done

/-- One cycle. -/
def next : System where
  regs := s.regs.next i.write
  engine := s.engine.next i.resp s.regs
  current := if s.begins then s.begun else s.moved i
  past := if s.ends i then s.moved i :: s.past else s.past
  starts := s.starts + if s.begins then 1 else 0
  clears := s.clears + if s.engine.ctrl == .done && clrDone s.engine then 1 else 0

end System

def system : Machine System SystemInput := ⟨{}, System.next⟩

/-- Software starts no transfer longer than the documented maximum, and the slave delivers as many
words as the burst has, the last one marked. -/
structure Contract (s : System) (i : SystemInput) : Prop where
  bounded : s.begins = true → s.regs.length.toNat ≤ 255
  owed : (s.output i).axi.rReady = true → i.resp.rValid = true → 0 < s.current.owed
  last : (s.output i).axi.rReady = true → i.resp.rValid = true →
    i.resp.rLast = decide (s.current.owed = 1)

instance decidableContract (s : System) (i : SystemInput) : Decidable (Contract s i) :=
  decidable_of_iff
    ((s.begins = true → s.regs.length.toNat ≤ 255) ∧
      ((s.output i).axi.rReady = true → i.resp.rValid = true → 0 < s.current.owed) ∧
      ((s.output i).axi.rReady = true → i.resp.rValid = true →
        i.resp.rLast = decide (s.current.owed = 1)))
    ⟨fun ⟨bounded, owed, last⟩ => ⟨bounded, owed, last⟩,
      fun contract => ⟨contract.bounded, contract.owed, contract.last⟩⟩

section Stages

variable (e : Engine)

/-- The length that the bursts carry. -/
def burstLength : BitVec 8 := e.length.extractLsb' 0 8

/-- The command of both bursts. -/
def command (a : BitVec 32) : AxiCommand where
  addr := blockAddr a
  len := burstLength e
  size := 3
  burst := if e.length = 0 then 0 else 1

/-- The request registers of a read. -/
def loadRequest : AdapterInput where
  req := true
  we := false
  addr := blockAddr e.sourceAddr
  be := 0
  len := burstLength e
  size := 3
  single := e.length == 0

/-- The request registers of a write. -/
def storeRequest : AdapterInput where
  req := true
  we := true
  addr := blockAddr e.destAddr
  be := 0xff
  len := burstLength e
  size := 3
  single := e.length == 0

/-- The first `k` words of the buffer, as they are sent. -/
def beats (words : List (BitVec 64)) (n k : Nat) : List AxiBeat :=
  (List.range k).map fun j => ⟨words.getD j 0, 0xff, decide (j = n)⟩

end Stages

/-- The transfer belongs to the saved command. -/
structure Captured (s : System) : Prop where
  source : s.current.source = s.engine.sourceAddr
  dest : s.current.dest = s.engine.destAddr
  length : s.current.length = s.engine.length
  bounded : s.engine.length.toNat ≤ 255

/-- Nothing was written yet. -/
structure Unwritten (t : Transfer) : Prop where
  writes : t.writes = []
  written : t.written = []
  responses : t.responses = 0

/-- The buffer holds the words that were read. -/
def Stored (s : System) : Prop :=
  ∀ j < s.current.read.length,
    s.engine.adapter.mem (BitVec.ofNat 8 j) = s.current.read.getD j 0

/-- The words are coming in. -/
structure Reading (s : System) : Prop where
  reads : s.current.reads = [command s.engine s.engine.sourceAddr]
  unwritten : Unwritten s.current
  request : s.engine.request = { loadRequest s.engine with req := s.engine.request.req }
  stored : Stored s
  phase :
    (s.engine.adapter.state = .completeRead ∧ s.engine.request.req = false ∧
      s.current.read.length = s.engine.length.toNat + 1) ∨
    (s.engine.adapter.state =
        (if s.engine.length = 0 then .waitRValid else .waitRValidMultiple) ∧
      s.current.read.length ≤ s.engine.length.toNat ∧
      s.engine.adapter.cnt = burstLength s.engine - BitVec.ofNat 8 s.current.read.length)

/-- All words are in the buffer. -/
structure Buffered (s : System) : Prop where
  reads : s.current.reads = [command s.engine s.engine.sourceAddr]
  read : s.current.read.length = s.engine.length.toNat + 1
  responses : s.current.responses = 0
  stored : Stored s

/-- The words sent so far. -/
def Sent (s : System) (k : Nat) : Prop :=
  s.current.written = beats s.current.read s.engine.length.toNat k

/-- Words are still to be sent. -/
def Sending (s : System) : Prop :=
  ∃ k ≤ s.engine.length.toNat, Sent s k ∧
    s.engine.adapter.cnt = burstLength s.engine - BitVec.ofNat 8 k

/-- What the state of the adapter says about a write. -/
def Writing (s : System) : Prop :=
  match s.engine.adapter.state with
  | .idle => s.current.writes = [] ∧ Sent s 0
  | .waitAwReady =>
      s.current.writes = [] ∧ Sent s (s.engine.length.toNat + 1) ∧ s.engine.length = 0
  | .waitAwReadyBurst => s.current.writes = [] ∧ Sent s (s.engine.length.toNat + 1)
  | .waitLastWReady =>
      s.current.writes = [command s.engine s.engine.destAddr] ∧ Sending s
  | .waitLastWReadyAwReady => s.current.writes = [] ∧ Sending s
  | _ => False

/-- What holds between two cycles. -/
def Stage (s : System) : Prop :=
  match s.engine.ctrl with
  | .idle | .done => s.engine.adapter.state = .idle ∧ s.engine.request.req = false
  | .startLoad => Captured s ∧ s.engine.adapter.state = .idle ∧ s.current.reads = [] ∧
      s.current.read = [] ∧ Unwritten s.current ∧
      (s.engine.request.req = true → s.engine.request = loadRequest s.engine)
  | .load => Captured s ∧ Reading s
  | .startStore => Captured s ∧ Buffered s ∧ Writing s ∧
      (s.engine.request.req = true → s.engine.request = storeRequest s.engine) ∧
      (s.engine.request.req = false → s.engine.adapter.state = .idle)
  | .store => Captured s ∧ Buffered s ∧ s.engine.adapter.state = .waitBValid ∧
      s.current.writes = [command s.engine s.engine.destAddr] ∧
      Sent s (s.engine.length.toNat + 1)

section Arithmetic

variable {n k : Nat}

theorem toNat_burstLength {e : Engine} (bounded : e.length.toNat ≤ 255) :
    (burstLength e).toNat = e.length.toNat := by
  rw [burstLength, BitVec.extractLsb'_toNat, Nat.shiftRight_zero]
  omega

/-- The count register, while the word `k` of a burst of length `n` is due. -/
theorem toNat_remaining {e : Engine} (bounded : e.length.toNat ≤ 255)
    (due : k ≤ e.length.toNat) :
    (burstLength e - BitVec.ofNat 8 k).toNat = e.length.toNat - k := by
  rw [BitVec.toNat_sub, toNat_burstLength bounded, BitVec.toNat_ofNat]
  omega

theorem remaining_eq_zero {e : Engine} (bounded : e.length.toNat ≤ 255)
    (due : k ≤ e.length.toNat) :
    burstLength e - BitVec.ofNat 8 k = 0 ↔ k = e.length.toNat := by
  rw [← BitVec.toNat_inj, toNat_remaining bounded due]
  show e.length.toNat - k = 0 ↔ _
  omega

/-- The index of the word that is due. -/
theorem due_index {e : Engine} :
    burstLength e - (burstLength e - BitVec.ofNat 8 k) = BitVec.ofNat 8 k := by
  rw [← BitVec.toNat_inj, BitVec.toNat_sub, BitVec.toNat_sub]
  have some := (burstLength e).isLt
  have index := (BitVec.ofNat 8 k).isLt
  omega

theorem remaining_pred {e : Engine} :
    burstLength e - BitVec.ofNat 8 k - 1 = burstLength e - BitVec.ofNat 8 (k + 1) := by
  rw [BitVec.ofNat_add, BitVec.sub_sub]
  rfl

theorem addresses_command {e : Engine} (bounded : e.length.toNat ≤ 255) (a : BitVec 32) :
    (command e a).addresses = consecutive a (e.length.toNat + 1) := by
  have len : (command e a).len.toNat = e.length.toNat := toNat_burstLength bounded
  rw [AxiCommand.addresses, len, consecutive]
  apply List.map_congr_left
  intro k member
  have due := List.mem_range.mp member
  by_cases single : e.length = 0
  · have first : k = 0 := by
      rw [single] at due
      exact Nat.lt_one_iff.mp due
    have burst : (command e a).burst = 0 := if_pos single
    rw [burst, if_neg (by decide), first]
    exact (BitVec.add_zero _).symm
  · have burst : (command e a).burst = 1 := if_neg single
    rw [burst, if_pos rfl, Nat.mul_comm]
    rfl

end Arithmetic

section Cycle

variable {s : System} {i : SystemInput}

theorem saves_eq_false (busy : s.engine.ctrl ≠ .idle) (open' : s.engine.ctrl ≠ .done) :
    saves s.engine = false := by
  rw [saves, Bool.or_eq_false_iff]
  exact ⟨beq_eq_false_iff_ne.mpr busy, beq_eq_false_iff_ne.mpr open'⟩

theorem begins_eq_false (busy : s.engine.ctrl ≠ .idle) : s.begins = false := by
  rw [System.begins, beq_eq_false_iff_ne.mpr busy, Bool.false_and]

/-- An adapter without a request does nothing. -/
theorem axiFsm_idle {q : Adapter} {a : AdapterInput} {r : AxiResp} (idle : q.state = .idle)
    (none : a.req = false) : axiFsm q a r = { defaultOutput q a with cnt := 0 } := by
  rw [axiFsm, idle]
  show idleState q a r = _
  rw [idleState, none]
  rfl

/-- The command that the adapter offers for a request. -/
def burstCommand (a : AdapterInput) : AxiCommand :=
  { defaultCommand a with len := if a.single then 0 else a.len }

/-- The adapter offers the address of a read. -/
theorem axiFsm_read {q : Adapter} {a : AdapterInput} {r : AxiResp} (idle : q.state = .idle)
    (asks : a.req = true) (reads : a.we = false) :
    axiFsm q a r =
      { defaultOutput q a with
        axi := { (defaultOutput q a).axi with arValid := true, ar := burstCommand a }
        gnt := r.arReady
        cnt := if a.single then 0 else a.len
        state := if r.arReady then if a.single then .waitRValid else .waitRValidMultiple
          else .idle } := by
  rw [axiFsm, idle]
  show idleState q a r = _
  rw [idleState, asks, reads]
  cases single : a.single <;> cases ready : r.arReady <;>
    simp [defaultOutput, burstCommand, defaultCommand, single, idle]

/-- The state after the first offer of a write. -/
def offeredState (single address word : Bool) : AdapterState :=
  match address, word with
  | true, true => if single then .waitBValid else .waitLastWReady
  | false, true => if single then .waitAwReady else .waitLastWReadyAwReady
  | true, false => .waitLastWReady
  | false, false => .idle

/-- The adapter offers the address of a write and its first word together. -/
theorem axiFsm_write {q : Adapter} {a : AdapterInput} {r : AxiResp} (idle : q.state = .idle)
    (asks : a.req = true) (writes : a.we = true) :
    axiFsm q a r =
      { defaultOutput q a with
        axi := { (defaultOutput q a).axi with
          awValid := true, aw := burstCommand a, wValid := true
          w := { data := q.mem 0, strb := a.be, last := a.single } }
        gnt := a.single && r.awReady && r.wReady
        cnt := if a.single then 0 else if r.wReady then a.len - 1 else a.len
        state := offeredState a.single r.awReady r.wReady } := by
  rw [axiFsm, idle]
  show idleState q a r = _
  rw [idleState, asks, writes]
  cases single : a.single <;> cases address : r.awReady <;> cases word : r.wReady <;>
    simp [defaultOutput, burstCommand, defaultCommand, offeredState, single, idle]

/-- Both states of a read take the words in the same way. -/
theorem axiFsm_receive {q : Adapter} {a : AdapterInput} {r : AxiResp} (multiple : Bool)
    (waits : q.state = if multiple then .waitRValidMultiple else .waitRValid) :
    axiFsm q a r = readState q a r multiple := by
  cases multiple with
  | false => rw [axiFsm, waits, if_neg Bool.false_ne_true]
  | true => rw [axiFsm, waits, if_pos rfl]

theorem burstLength_zero {e : Engine} (zero : e.length = 0) : burstLength e = 0 := by
  rw [burstLength, zero]
  rfl

/-- The command that is offered for a request of the engine. -/
theorem burstCommand_eq {e : Engine} {a : AdapterInput} (target : BitVec 32)
    (addr : a.addr = blockAddr target) (len : a.len = burstLength e) (size : a.size = 3)
    (single : a.single = (e.length == 0)) : burstCommand a = command e target := by
  rw [burstCommand, defaultCommand, command, addr, len, size, single]
  by_cases zero : e.length = 0
  · rw [burstLength_zero zero, zero]
    rfl
  · rw [beq_eq_false_iff_ne.mpr zero, if_neg Bool.false_ne_true, if_neg Bool.false_ne_true,
      if_neg zero]

/-- While a transfer runs, its command stays. -/
theorem Captured.next (captured : Captured s) (busy : s.engine.ctrl ≠ .idle)
    (running : s.engine.ctrl ≠ .done) : Captured (s.next i) := by
  have kept := saves_eq_false busy running
  have current : (s.next i).current = s.moved i := by
    rw [System.next, begins_eq_false busy]
    rfl
  constructor
  · rw [current]
    show s.current.source = if saves s.engine then _ else _
    rw [kept]
    exact captured.source
  · rw [current]
    show s.current.dest = if saves s.engine then _ else _
    rw [kept]
    exact captured.dest
  · rw [current]
    show s.current.length = if saves s.engine then _ else _
    rw [kept]
    exact captured.length
  · show (if saves s.engine then s.regs.length else s.engine.length).toNat ≤ 255
    rw [kept]
    exact captured.bounded

theorem next_state : (s.next i).engine.adapter.state = (s.output i).state := rfl

theorem next_ctrl : (s.next i).engine.ctrl = nextCtrl s.engine i.resp := rfl

theorem next_request : (s.next i).engine.request = nextRequest s.engine := rfl

theorem next_current (busy : s.engine.ctrl ≠ .idle) : (s.next i).current = s.moved i := by
  rw [System.next, begins_eq_false busy]
  rfl

theorem next_saved (busy : s.engine.ctrl ≠ .idle) (running : s.engine.ctrl ≠ .done) :
    (s.next i).engine.length = s.engine.length ∧
      (s.next i).engine.sourceAddr = s.engine.sourceAddr ∧
      (s.next i).engine.destAddr = s.engine.destAddr := by
  have kept := saves_eq_false busy running
  refine ⟨if_neg ?_, if_neg ?_, if_neg ?_⟩ <;> rw [kept] <;> exact Bool.false_ne_true

end Cycle

end Ariane.Dma
