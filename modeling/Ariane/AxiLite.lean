import Ariane.Rtl.Stream

set_option autoImplicit false

/- `axi_lite_interface.sv`: one access at a time from an AXI port to a memory-like interface. -/
namespace Ariane.AxiLite

open Rtl (Machine)

variable {idWidth addrWidth dataWidth : Nat}

/-- The states of the machine. -/
inductive Cs where
  | idle | read | write | writeB
  deriving DecidableEq, Inhabited

/-- What an address channel carries. -/
structure Address (idWidth addrWidth : Nat) where
  id : BitVec idWidth := 0
  addr : BitVec addrWidth := 0
  deriving DecidableEq, Inhabited

/-- `axi_req_i`, and the contents of the slave behind the interface, of which `data_i` is the word
at `address_o`. -/
structure Input (idWidth addrWidth dataWidth : Nat) where
  awValid : Bool := false
  aw : Address idWidth addrWidth := {}
  wValid : Bool := false
  wData : BitVec dataWidth := 0
  bReady : Bool := false
  arValid : Bool := false
  ar : Address idWidth addrWidth := {}
  rReady : Bool := false
  registers : BitVec addrWidth → BitVec dataWidth := fun _ => 0

/-- The registers: `CS`, `trans_id_q` and `address_q`. -/
structure State (idWidth addrWidth : Nat) where
  cs : Cs := .idle
  transId : BitVec idWidth := 0
  address : BitVec addrWidth := 0
  deriving DecidableEq, Inhabited

/-- The handshake signals of `axi_resp_o` and the signals to the slave. -/
structure Output (addrWidth : Nat) where
  awReady : Bool := false
  wReady : Bool := false
  bValid : Bool := false
  arReady : Bool := true
  rValid : Bool := false
  address : BitVec addrWidth := 0
  en : Bool := false
  we : Bool := false
  deriving DecidableEq, Inhabited

section Cycle

variable (s : State idWidth addrWidth) (i : Input idWidth addrWidth dataWidth)

def output : Output addrWidth :=
  match s.cs with
  | .idle =>
      if i.awValid then { awReady := true }
      else if i.arValid then { address := i.ar.addr }
      else {}
  | .read => { en := true, arReady := false, address := s.address, rValid := true }
  | .write =>
      if i.wValid then
        { arReady := false, wReady := true, address := s.address, en := true, we := true }
      else {}
  | .writeB => { bValid := true }

def next : State idWidth addrWidth :=
  match s.cs with
  | .idle =>
      if i.awValid then ⟨.write, i.aw.id, i.aw.addr⟩
      else if i.arValid then ⟨.read, i.ar.id, i.ar.addr⟩
      else s
  | .read => if i.rReady then { s with cs := .idle } else s
  | .write => if i.wValid then { s with cs := .writeB } else s
  | .writeB => if i.bReady then { s with cs := .idle } else s

/-- `axi_resp_o.r.data`. -/
def rData : BitVec dataWidth := i.registers (output s i).address

end Cycle

/-- A request that the interface accepted. -/
inductive Request (idWidth addrWidth : Nat) where
  | read (a : Address idWidth addrWidth)
  | write (a : Address idWidth addrWidth)
  deriving DecidableEq

/-- A response: for a read with the contents that the slave had in that cycle. -/
inductive Answer (idWidth addrWidth dataWidth : Nat) where
  | read (id : BitVec idWidth) (data : BitVec dataWidth)
      (contents : BitVec addrWidth → BitVec dataWidth)
  | write (id : BitVec idWidth)

/-- What the interface and its neighbours have exchanged: accepted requests, data beats, writes of
the slave, and responses. -/
structure Traffic (idWidth addrWidth dataWidth : Nat) where
  regs : State idWidth addrWidth := {}
  accepted : List (Request idWidth addrWidth) := []
  beats : List (BitVec dataWidth) := []
  written : List (BitVec addrWidth × BitVec dataWidth) := []
  answers : List (Answer idWidth addrWidth dataWidth) := []

section Traffic

variable (s : State idWidth addrWidth) (i : Input idWidth addrWidth dataWidth)

/-- The address handshakes of one cycle. -/
def accepts : List (Request idWidth addrWidth) :=
  (if i.awValid && (output s i).awReady then [.write i.aw] else []) ++
    if i.arValid && (output s i).arReady then [.read i.ar] else []

def takesBeat : List (BitVec dataWidth) :=
  if i.wValid && (output s i).wReady then [i.wData] else []

/-- The write of the slave in one cycle. -/
def writes : List (BitVec addrWidth × BitVec dataWidth) :=
  if (output s i).en && (output s i).we then [((output s i).address, i.wData)] else []

/-- The response handshakes of one cycle. -/
def responds : List (Answer idWidth addrWidth dataWidth) :=
  (if (output s i).rValid && i.rReady then [.read s.transId (rData s i) i.registers] else []) ++
    if (output s i).bValid && i.bReady then [.write s.transId] else []

end Traffic

def exchange (t : Traffic idWidth addrWidth dataWidth) (i : Input idWidth addrWidth dataWidth) :
    Traffic idWidth addrWidth dataWidth where
  regs := next t.regs i
  accepted := t.accepted ++ accepts t.regs i
  beats := t.beats ++ takesBeat t.regs i
  written := t.written ++ writes t.regs i
  answers := t.answers ++ responds t.regs i

/-- The interface with the record of its traffic. -/
def machine : Machine (Traffic idWidth addrWidth dataWidth) (Input idWidth addrWidth dataWidth) :=
  ⟨{}, exchange⟩

/-- A complete access: a read with the contents that it met, or a write with its data. -/
inductive Access (idWidth addrWidth dataWidth : Nat) where
  | read (a : Address idWidth addrWidth) (contents : BitVec addrWidth → BitVec dataWidth)
  | write (a : Address idWidth addrWidth) (data : BitVec dataWidth)

namespace Access

def request : Access idWidth addrWidth dataWidth → Request idWidth addrWidth
  | read a _ => .read a
  | write a _ => .write a

/-- A read returns the word at its address, both return the id. -/
def answer : Access idWidth addrWidth dataWidth → Answer idWidth addrWidth dataWidth
  | read a contents => .read a.id (contents a.addr) contents
  | write a _ => .write a.id

def slaveWrite : Access idWidth addrWidth dataWidth → List (BitVec addrWidth × BitVec dataWidth)
  | read _ _ => []
  | write a data => [(a.addr, data)]

end Access

/-- What the machine is working on: the request, and the write if it is done already. -/
inductive InService (t : Traffic idWidth addrWidth dataWidth) :
    List (Request idWidth addrWidth) → List (BitVec addrWidth × BitVec dataWidth) → Prop
  | idle (cs : t.regs.cs = .idle) : InService t [] []
  | read (cs : t.regs.cs = .read) : InService t [.read ⟨t.regs.transId, t.regs.address⟩] []
  | write (cs : t.regs.cs = .write) : InService t [.write ⟨t.regs.transId, t.regs.address⟩] []
  | written (cs : t.regs.cs = .writeB) (data : BitVec dataWidth) :
      InService t [.write ⟨t.regs.transId, t.regs.address⟩] [(t.regs.address, data)]

/-- The traffic is that of a sequence of complete accesses, in order, and the one in service. -/
def Lossless (t : Traffic idWidth addrWidth dataWidth) : Prop :=
  ∃ (done : List (Access idWidth addrWidth dataWidth)) (request : List (Request idWidth addrWidth))
    (write : List (BitVec addrWidth × BitVec dataWidth)),
    InService t request write ∧
      t.accepted = done.map Access.request ++ request ∧
      t.answers = done.map Access.answer ∧
      t.written = done.flatMap Access.slaveWrite ++ write ∧
      t.beats = t.written.map Prod.snd

/-- No read is offered in a cycle in which it would be accepted and forgotten. -/
def Clear (s : State idWidth addrWidth) (i : Input idWidth addrWidth dataWidth) : Prop :=
  i.arValid = true →
    (s.cs = .idle ∧ i.awValid = false) ∨ s.cs = .read ∨ (s.cs = .write ∧ i.wValid = true)

section Step

variable {t : Traffic idWidth addrWidth dataWidth}

/-- The law for one cycle: the accesses that it completes and what is in service after it. -/
theorem Lossless.extend {done : List (Access idWidth addrWidth dataWidth)}
    {request : List (Request idWidth addrWidth)}
    {write : List (BitVec addrWidth × BitVec dataWidth)}
    (accepted : t.accepted = done.map Access.request ++ request)
    (answers : t.answers = done.map Access.answer)
    (written : t.written = done.flatMap Access.slaveWrite ++ write)
    (beats : t.beats = t.written.map Prod.snd) (i : Input idWidth addrWidth dataWidth)
    (more : List (Access idWidth addrWidth dataWidth))
    {request' : List (Request idWidth addrWidth)}
    {write' : List (BitVec addrWidth × BitVec dataWidth)}
    (service : InService (exchange t i) request' write')
    (taken : request ++ accepts t.regs i = more.map Access.request ++ request')
    (given : responds t.regs i = more.map Access.answer)
    (stored : write ++ writes t.regs i = more.flatMap Access.slaveWrite ++ write')
    (beat : takesBeat t.regs i = (writes t.regs i).map Prod.snd) : Lossless (exchange t i) := by
  refine ⟨done ++ more, request', write', service, ?_, ?_, ?_, ?_⟩
  · show t.accepted ++ accepts t.regs i = _
    rw [accepted, List.append_assoc, taken, List.map_append, List.append_assoc]
  · show t.answers ++ responds t.regs i = _
    rw [answers, given, List.map_append]
  · show t.written ++ writes t.regs i = _
    rw [written, List.append_assoc, stored, List.flatMap_append, List.append_assoc]
  · show t.beats ++ takesBeat t.regs i = (t.written ++ writes t.regs i).map Prod.snd
    rw [beats, beat, List.map_append]

/-! What is in service after a cycle, by the state that it leads to. -/

theorem inService_idle {i : Input idWidth addrWidth dataWidth} (cs : (next t.regs i).cs = .idle) :
    InService (exchange t i) [] [] := .idle cs

theorem inService_read {i : Input idWidth addrWidth dataWidth} {id : BitVec idWidth}
    {addr : BitVec addrWidth}
    (regs : next t.regs i = ⟨.read, id, addr⟩) : InService (exchange t i) [.read ⟨id, addr⟩] [] := by
  have service : InService (exchange t i)
      [.read ⟨(next t.regs i).transId, (next t.regs i).address⟩] [] :=
    .read (by show (next t.regs i).cs = _; rw [regs])
  rw [regs] at service
  exact service

theorem inService_write {i : Input idWidth addrWidth dataWidth} {id : BitVec idWidth}
    {addr : BitVec addrWidth}
    (regs : next t.regs i = ⟨.write, id, addr⟩) : InService (exchange t i) [.write ⟨id, addr⟩] [] := by
  have service : InService (exchange t i)
      [.write ⟨(next t.regs i).transId, (next t.regs i).address⟩] [] :=
    .write (by show (next t.regs i).cs = _; rw [regs])
  rw [regs] at service
  exact service

theorem inService_written {i : Input idWidth addrWidth dataWidth} {id : BitVec idWidth}
    {addr : BitVec addrWidth}
    (regs : next t.regs i = ⟨.writeB, id, addr⟩) (data : BitVec dataWidth) :
    InService (exchange t i) [.write ⟨id, addr⟩] [(addr, data)] := by
  have service : InService (exchange t i)
      [.write ⟨(next t.regs i).transId, (next t.regs i).address⟩]
      [((next t.regs i).address, data)] :=
    .written (by show (next t.regs i).cs = _; rw [regs]) data
  rw [regs] at service
  exact service

theorem Lossless.step (lossless : Lossless t) (i : Input idWidth addrWidth dataWidth)
    (clear : Clear t.regs i) : Lossless (exchange t i) := by
  obtain ⟨done, request, write, service, accepted, answers, written, beats⟩ := lossless
  have extend := Lossless.extend accepted answers written beats i
  unfold Clear at clear
  cases service with
  | idle cs =>
      cases aw : i.awValid with
      | true =>
          -- a write is taken, and no read with it
          have quiet : i.arValid = false := by grind
          have regs : next t.regs i = ⟨.write, i.aw.id, i.aw.addr⟩ := by
            simp only [next, cs, aw, ↓reduceIte]
          apply extend [] (inService_write regs)
          all_goals simp [accepts, responds, writes, takesBeat, output, cs, aw, quiet]
      | false =>
          cases ar : i.arValid with
          | true =>
              have regs : next t.regs i = ⟨.read, i.ar.id, i.ar.addr⟩ := by
                simp only [next, cs, aw, ar, Bool.false_eq_true, ↓reduceIte]
              apply extend [] (inService_read regs)
              all_goals simp [accepts, responds, writes, takesBeat, output, cs, aw, ar]
          | false =>
              have regs : (next t.regs i).cs = .idle := by
                simp only [next, cs, aw, ar, Bool.false_eq_true, ↓reduceIte]
              apply extend [] (inService_idle regs)
              all_goals simp [accepts, responds, writes, takesBeat, output, cs, aw, ar]
  | read cs =>
      -- a read that waits for its master keeps the channel closed
      cases ready : i.rReady with
      | true =>
          have regs : (next t.regs i).cs = .idle := by simp only [next, cs, ready, ↓reduceIte]
          apply extend [.read ⟨t.regs.transId, t.regs.address⟩ i.registers] (inService_idle regs)
          all_goals simp [accepts, responds, writes, takesBeat, output, rData, cs, ready,
            Access.request, Access.answer, Access.slaveWrite]
      | false =>
          have regs : next t.regs i = ⟨.read, t.regs.transId, t.regs.address⟩ := by
            have same : next t.regs i = t.regs := by
              simp only [next, cs, ready, Bool.false_eq_true, ↓reduceIte]
            rw [same, ← cs]
          apply extend [] (inService_read regs)
          all_goals simp [accepts, responds, writes, takesBeat, output, cs, ready]
  | write cs =>
      cases beat : i.wValid with
      | true =>
          have regs : next t.regs i = ⟨.writeB, t.regs.transId, t.regs.address⟩ := by
            simp only [next, cs, beat, ↓reduceIte]
          apply extend [] (inService_written regs i.wData)
          all_goals simp [accepts, responds, writes, takesBeat, output, cs, beat]
      | false =>
          have quiet : i.arValid = false := by grind
          have regs : next t.regs i = ⟨.write, t.regs.transId, t.regs.address⟩ := by
            have same : next t.regs i = t.regs := by
              simp only [next, cs, beat, Bool.false_eq_true, ↓reduceIte]
            rw [same, ← cs]
          apply extend [] (inService_write regs)
          all_goals simp [accepts, responds, writes, takesBeat, output, cs, beat, quiet]
  | written cs data =>
      have quiet : i.arValid = false := by grind
      cases ready : i.bReady with
      | true =>
          have regs : (next t.regs i).cs = .idle := by simp only [next, cs, ready, ↓reduceIte]
          apply extend [.write ⟨t.regs.transId, t.regs.address⟩ data] (inService_idle regs)
          all_goals simp [accepts, responds, writes, takesBeat, output, cs, ready, quiet,
            Access.request, Access.answer, Access.slaveWrite]
      | false =>
          have regs : next t.regs i = ⟨.writeB, t.regs.transId, t.regs.address⟩ := by
            have same : next t.regs i = t.regs := by
              simp only [next, cs, ready, Bool.false_eq_true, ↓reduceIte]
            rw [same, ← cs]
          apply extend [] (inService_written regs data)
          all_goals simp [accepts, responds, writes, takesBeat, output, cs, ready, quiet]

end Step

section Runs

variable (inputs : Nat → Input idWidth addrWidth dataWidth)

/-- The traffic before cycle `n`. -/
def trafficAt (n : Nat) : Traffic idWidth addrWidth dataWidth := machine.stateAt {} inputs n

/-- The master takes every response and sends the data of every write, some time. -/
structure Responsive : Prop where
  read : ∀ n, (trafficAt inputs n).regs.cs = .read → ∃ m, n ≤ m ∧ (inputs m).rReady = true
  write : ∀ n, (trafficAt inputs n).regs.cs = .write → ∃ m, n ≤ m ∧ (inputs m).wValid = true
  written : ∀ n, (trafficAt inputs n).regs.cs = .writeB → ∃ m, n ≤ m ∧ (inputs m).bReady = true

/-- In every cycle no read is offered that would be forgotten. -/
def AlwaysClear : Prop := ∀ n, Clear (trafficAt inputs n).regs (inputs n)

variable {inputs}

theorem lossless_run (clear : AlwaysClear inputs) (n : Nat) : Lossless (trafficAt inputs n) := by
  induction n with
  | zero => exact ⟨[], [], [], .idle rfl, rfl, rfl, rfl, rfl⟩
  | succ n ih => exact ih.step (inputs n) (clear n)

theorem lossless_count {t : Traffic idWidth addrWidth dataWidth} (lossless : Lossless t) :
    t.accepted.length = t.answers.length + if t.regs.cs = .idle then 0 else 1 := by
  obtain ⟨done, request, write, service, accepted, answers, written, beats⟩ := lossless
  rw [accepted, answers, List.length_append, List.length_map, List.length_map]
  cases service with
  | idle cs => rw [if_pos cs]; rfl
  | read cs | write cs | written cs => rw [cs]; rfl

theorem accepted_mono {n m : Nat} (later : n ≤ m) :
    (trafficAt inputs n).accepted.length ≤ (trafficAt inputs m).accepted.length := by
  obtain ⟨d, rfl⟩ := Nat.exists_eq_add_of_le later
  induction d with
  | zero => exact Nat.le_refl _
  | succ d ih =>
      have grown : (trafficAt inputs (n + d + 1)).accepted.length =
          (trafficAt inputs (n + d)).accepted.length +
            (accepts (trafficAt inputs (n + d)).regs (inputs (n + d))).length :=
        List.length_append
      have before := ih (Nat.le_add_right n d)
      rw [← Nat.add_assoc]
      omega

/-- A response handshake answers everything that was accepted before. -/
theorem answered_next (clear : AlwaysClear inputs) {n m : Nat} (later : n ≤ m)
    (responding : (responds (trafficAt inputs m).regs (inputs m)).length = 1) :
    (trafficAt inputs n).accepted.length ≤ (trafficAt inputs (m + 1)).answers.length := by
  have grown : (trafficAt inputs (m + 1)).answers.length =
      (trafficAt inputs m).answers.length +
        (responds (trafficAt inputs m).regs (inputs m)).length := List.length_append
  have count := lossless_count (lossless_run clear m)
  have mono : (trafficAt inputs n).accepted.length ≤ (trafficAt inputs m).accepted.length :=
    accepted_mono later
  split at count <;> omega

/-- While the awaited signal is low, the state stays. -/
theorem regs_succ (n : Nat) :
    (trafficAt inputs (n + 1)).regs = next (trafficAt inputs n).regs (inputs n) := rfl

theorem answered_read (clear : AlwaysClear inputs) (responsive : Responsive inputs) {n k : Nat}
    (later : n ≤ k) (cs : (trafficAt inputs k).regs.cs = .read) :
    ∃ m, n ≤ m ∧ (trafficAt inputs n).accepted.length ≤ (trafficAt inputs m).answers.length := by
  obtain ⟨u, after, ready⟩ := responsive.read k cs
  obtain ⟨m, begun, waiting, ready⟩ := @Machine.wait_until (fun v => (inputs v).rReady = true)
    (fun v => (trafficAt inputs v).regs.cs = .read) k u cs after ready
    (fun v _ waiting late => by
      rw [regs_succ]
      simp only [next, waiting]
      grind)
  refine ⟨m + 1, by omega, answered_next clear (by omega) ?_⟩
  simp [responds, output, waiting, ready]

theorem answered_written (clear : AlwaysClear inputs) (responsive : Responsive inputs) {n k : Nat}
    (later : n ≤ k) (cs : (trafficAt inputs k).regs.cs = .writeB) :
    ∃ m, n ≤ m ∧ (trafficAt inputs n).accepted.length ≤ (trafficAt inputs m).answers.length := by
  obtain ⟨u, after, ready⟩ := responsive.written k cs
  obtain ⟨m, begun, waiting, ready⟩ := @Machine.wait_until (fun v => (inputs v).bReady = true)
    (fun v => (trafficAt inputs v).regs.cs = .writeB) k u cs after ready
    (fun v _ waiting late => by
      rw [regs_succ]
      simp only [next, waiting]
      grind)
  refine ⟨m + 1, by omega, answered_next clear (by omega) ?_⟩
  simp [responds, output, waiting, ready]

theorem answered_write (clear : AlwaysClear inputs) (responsive : Responsive inputs) {n : Nat}
    (cs : (trafficAt inputs n).regs.cs = .write) :
    ∃ m, n ≤ m ∧ (trafficAt inputs n).accepted.length ≤ (trafficAt inputs m).answers.length := by
  obtain ⟨u, after, beat⟩ := responsive.write n cs
  obtain ⟨m, begun, waiting, beat⟩ := @Machine.wait_until (fun v => (inputs v).wValid = true)
    (fun v => (trafficAt inputs v).regs.cs = .write) n u cs after beat
    (fun v _ waiting late => by
      rw [regs_succ]
      simp only [next, waiting]
      grind)
  have stored : (trafficAt inputs (m + 1)).regs.cs = .writeB := by
    rw [regs_succ]
    simp only [next, waiting, beat, ↓reduceIte]
  exact answered_written clear responsive (by omega) stored

/-- In every run without a forgotten read the traffic is lossless, and everything that was accepted
is answered some time. -/
theorem transactions_answered (clear : AlwaysClear inputs) (responsive : Responsive inputs)
    (n : Nat) :
    Lossless (trafficAt inputs n) ∧
      ∃ m, n ≤ m ∧ (trafficAt inputs n).accepted.length ≤
        (trafficAt inputs m).answers.length := by
  have lossless := lossless_run clear n
  refine ⟨lossless, ?_⟩
  cases cs : (trafficAt inputs n).regs.cs with
  | idle =>
      have count := lossless_count lossless
      rw [cs] at count
      exact ⟨n, Nat.le_refl n, Nat.le_of_eq count⟩
  | read => exact answered_read clear responsive (Nat.le_refl n) cs
  | write => exact answered_write clear responsive cs
  | writeB => exact answered_written clear responsive (Nat.le_refl n) cs

end Runs

/-- The address that a request writes. -/
def Request.written? : Request idWidth addrWidth → Option (BitVec addrWidth)
  | .read _ => none
  | .write a => some a.addr

/-- The writes of the slave take the addresses and the beats in their order, and a read is the last
request that was accepted. A read that is forgotten breaks none of this. -/
structure Ordered (t : Traffic idWidth addrWidth dataWidth) : Prop where
  addresses : t.accepted.filterMap Request.written? =
    t.written.map Prod.fst ++ if t.regs.cs = .write then [t.regs.address] else []
  beats : t.beats = t.written.map Prod.snd
  reading : t.regs.cs = .read →
    t.accepted.getLast? = some (.read ⟨t.regs.transId, t.regs.address⟩)

/-- The beat and the write of one cycle. -/
theorem takesBeat_eq (s : State idWidth addrWidth) (i : Input idWidth addrWidth dataWidth) :
    takesBeat s i = (writes s i).map Prod.snd := by
  unfold takesBeat writes output
  cases s.cs <;> cases i.wValid <;> cases i.awValid <;> cases i.arValid <;> rfl

/-- Only a read answers on the read channel. -/
theorem cs_of_rValid {s : State idWidth addrWidth} {i : Input idWidth addrWidth dataWidth}
    (answering : (output s i).rValid = true) : s.cs = .read := by
  cases cs : s.cs with
  | idle => cases aw : i.awValid <;> cases ar : i.arValid <;> simp [output, cs, aw, ar] at answering
  | read => rfl
  | write => cases beat : i.wValid <;> simp [output, cs, beat] at answering
  | writeB => simp [output, cs] at answering

/-- A read is entered with its handshake, or waits without one. -/
theorem next_read {s : State idWidth addrWidth} {i : Input idWidth addrWidth dataWidth}
    (reading : (next s i).cs = .read) :
    (next s i = ⟨.read, i.ar.id, i.ar.addr⟩ ∧ accepts s i = [.read i.ar]) ∨
      (s.cs = .read ∧ accepts s i = [] ∧ next s i = s) := by
  cases cs : s.cs with
  | idle =>
      cases aw : i.awValid <;> cases ar : i.arValid <;>
        simp_all [next, accepts, output]
  | read =>
      cases ready : i.rReady with
      | false => simp [next, accepts, output, cs, ready]
      | true => simp [next, cs, ready] at reading
  | write => cases beat : i.wValid <;> simp [next, cs, beat] at reading
  | writeB => cases ready : i.bReady <;> simp [next, cs, ready] at reading

theorem Ordered.step {t : Traffic idWidth addrWidth dataWidth} (ordered : Ordered t)
    (i : Input idWidth addrWidth dataWidth) : Ordered (exchange t i) := by
  obtain ⟨addresses, beats, reading⟩ := ordered
  have kept : (exchange t i).beats = (exchange t i).written.map Prod.snd := by
    show t.beats ++ takesBeat t.regs i = (t.written ++ writes t.regs i).map Prod.snd
    rw [List.map_append, ← beats, takesBeat_eq]
  refine ⟨?_, kept, ?_⟩
  · show (t.accepted ++ accepts t.regs i).filterMap Request.written? =
      (t.written ++ writes t.regs i).map Prod.fst ++
        if (next t.regs i).cs = .write then [(next t.regs i).address] else []
    rw [List.filterMap_append, List.map_append, addresses, List.append_assoc, List.append_assoc]
    congr 1
    unfold accepts writes output next
    cases cs : t.regs.cs <;> cases i.awValid <;> cases i.arValid <;> cases i.wValid <;>
      cases i.rReady <;> cases i.bReady <;> simp [Request.written?, cs]
  · intro reading'
    show (t.accepted ++ accepts t.regs i).getLast? =
      some (.read ⟨(next t.regs i).transId, (next t.regs i).address⟩)
    rcases next_read reading' with ⟨entered, taken⟩ | ⟨waiting, none, kept⟩
    · rw [entered, taken, List.getLast?_concat]
    · rw [kept, none, List.append_nil]
      exact reading waiting

theorem ordered_run (inputs : Nat → Input idWidth addrWidth dataWidth) (n : Nat) :
    Ordered (trafficAt inputs n) := by
  induction n with
  | zero => exact ⟨rfl, rfl, Cs.noConfusion⟩
  | succ n ih => exact ih.step (inputs n)

/-- A read alone, from a master that is always ready. -/
def readAlone (n : Nat) : Input 1 8 8 :=
  if n = 0 then { arValid := true, ar := ⟨1, 8⟩ }
  else { wValid := true, bReady := true, rReady := true }

theorem readAlone_answered :
    Lossless (trafficAt readAlone 1) ∧
      ∃ m, 1 ≤ m ∧ (trafficAt readAlone 1).accepted.length ≤
        (trafficAt readAlone m).answers.length := by
  apply transactions_answered
  · intro n
    cases n with
    | zero => exact fun _ => .inl ⟨rfl, rfl⟩
    | succ n => exact fun offered => absurd offered Bool.false_ne_true
  · refine ⟨fun n _ => ⟨n + 1, Nat.le_succ n, rfl⟩, fun n _ => ⟨n + 1, Nat.le_succ n, rfl⟩,
      fun n _ => ⟨n + 1, Nat.le_succ n, rfl⟩⟩

/-- A write and a read that are offered in one cycle, by a master that is always ready. -/
def writeWithRead (n : Nat) : Input 1 8 8 :=
  if n = 0 then { awValid := true, aw := ⟨0, 0⟩, arValid := true, ar := ⟨1, 8⟩ }
  else { wValid := true, bReady := true, rReady := true }

/-- After the response of the write nothing happens any more. -/
theorem writeWithRead_ends (n : Nat) :
    trafficAt writeWithRead (n + 3) = trafficAt writeWithRead 3 := by
  induction n with
  | zero => rfl
  | succ n ih =>
      show exchange (trafficAt writeWithRead (n + 3)) (writeWithRead (n + 3)) = _
      rw [ih]
      rfl

/-- Both requests are accepted, and only the write is answered. -/
theorem read_forgotten :
    ¬ ∀ (inputs : Nat → Input 1 8 8), Responsive inputs → ∀ n,
      Lossless (trafficAt inputs n) ∧
        ∃ m, n ≤ m ∧ (trafficAt inputs n).accepted.length ≤
          (trafficAt inputs m).answers.length := by
  intro always
  have responsive : Responsive writeWithRead :=
    ⟨fun n _ => ⟨n + 1, Nat.le_succ n, rfl⟩, fun n _ => ⟨n + 1, Nat.le_succ n, rfl⟩,
      fun n _ => ⟨n + 1, Nat.le_succ n, rfl⟩⟩
  obtain ⟨m, -, answered⟩ := (always writeWithRead responsive 1).2
  have two : (trafficAt writeWithRead 1).accepted.length = 2 := rfl
  have atMost : (trafficAt writeWithRead m).answers.length ≤ 1 := by
    by_cases late : 3 ≤ m
    · obtain ⟨k, rfl⟩ := Nat.exists_eq_add_of_le' late
      rw [writeWithRead_ends]
      decide
    · have early : m = 0 ∨ m = 1 ∨ m = 2 := by omega
      obtain rfl | rfl | rfl := early <;> decide
  omega

end Ariane.AxiLite
