import Ariane.Rtl.GrayPointer
import Ariane.Rtl.Stream
import Mathlib.Algebra.Group.Nat.Defs

set_option autoImplicit false

/- `cdc_fifo_gray.sv`: a queue of `2 ^ n` entries between two clocks. Each side follows the other
side's pointer through its Gray code. The edges of the two clocks come in any order. -/
namespace Ariane.CdcFifoGray

open Rtl (Machine)
open Rtl.Gray (Pointer Counts Tracks encode decode sample ofNat_add_eq_iff)

variable {α : Type} {n : Nat}

/-- `fifo_data_q` and the pointers of both domains. -/
structure Fifo (α : Type) (n : Nat) where
  fifoData : BitVec n → α
  srcWptrBin : BitVec (n + 1) := 0
  srcWptrGray : BitVec (n + 1) := 0
  dstRptrBin : BitVec (n + 1) := 0
  dstRptrGray : BitVec (n + 1) := 0
  srcRptrGray : BitVec (n + 1) := 0
  srcRptrGray2 : BitVec (n + 1) := 0
  dstWptrGray : BitVec (n + 1) := 0
  dstWptrGray2 : BitVec (n + 1) := 0

namespace Fifo

def ptrFull (n : Nat) : BitVec (n + 1) := 1#(n + 1) <<< n

def srcReady (q : Fifo α n) : Bool := (q.srcWptrBin ^^^ decode q.srcRptrGray2) != ptrFull n

def dstValid (q : Fifo α n) : Bool := (q.dstRptrBin ^^^ decode q.dstWptrGray2) != 0#(n + 1)

def fifoWidx (q : Fifo α n) : BitVec n := q.srcWptrBin.setWidth n

def fifoRidx (q : Fifo α n) : BitVec n := q.dstRptrBin.setWidth n

/-- `fifo_rdata`, once the entry is settled. -/
def dstData (q : Fifo α n) : α := q.fifoData q.fifoRidx

/-- An edge of `src_clk_i`. -/
def srcNext (q : Fifo α n) (data : α) (valid : Bool) (rptrGray : BitVec (n + 1)) : Fifo α n :=
  let write := valid && q.srcReady
  { q with
    fifoData := fun i => if write && q.fifoWidx == i then data else q.fifoData i
    srcWptrBin := if write then q.srcWptrBin + 1 else q.srcWptrBin
    srcWptrGray := if write then encode (q.srcWptrBin + 1) else q.srcWptrGray
    srcRptrGray := rptrGray
    srcRptrGray2 := q.srcRptrGray }

/-- An edge of `dst_clk_i`. -/
def dstNext (q : Fifo α n) (ready : Bool) (wptrGray : BitVec (n + 1)) : Fifo α n :=
  let read := q.dstValid && ready
  { q with
    dstRptrBin := if read then q.dstRptrBin + 1 else q.dstRptrBin
    dstRptrGray := if read then encode (q.dstRptrBin + 1) else q.dstRptrGray
    dstWptrGray := wptrGray
    dstWptrGray2 := q.dstWptrGray }

end Fifo

/-- The queue, the wires as they were before the last edge where they may still be read so, the
entries written since the last destination edge, and the items that were taken and given. -/
structure Crossing (α : Type) (n : Nat) where
  fifo : Fifo α n
  wptrWas : BitVec (n + 1) := 0
  rptrWas : BitVec (n + 1) := 0
  written : BitVec n → Bool := fun _ => false
  sent : List α := []
  received : List α := []

/-- An edge of one of the clocks. `mask` says which wires of the other pointer are read as they were;
`unsettled` is what is read from an entry that is being written. -/
inductive Edge (α : Type) (n : Nat)
  | src (data : α) (valid : Bool) (mask : BitVec (n + 1))
  | dst (ready : Bool) (mask : BitVec (n + 1)) (unsettled : α)

namespace Crossing

variable (c : Crossing α n)

def dstData (unsettled : α) : α :=
  if c.written c.fifo.fifoRidx then unsettled else c.fifo.dstData

def next : Edge α n → Crossing α n
  | .src data valid mask =>
      let write := valid && c.fifo.srcReady
      { fifo := c.fifo.srcNext data valid (sample c.rptrWas c.fifo.dstRptrGray mask)
        wptrWas := c.fifo.srcWptrGray
        rptrWas := c.fifo.dstRptrGray
        written := fun i => c.written i || write && c.fifo.fifoWidx == i
        sent := if write then c.sent ++ [data] else c.sent
        received := c.received }
  | .dst ready mask unsettled =>
      { fifo := c.fifo.dstNext ready (sample c.wptrWas c.fifo.srcWptrGray mask)
        wptrWas := c.fifo.srcWptrGray
        rptrWas := c.fifo.dstRptrGray
        written := fun _ => false
        sent := c.sent
        received :=
          if c.fifo.dstValid && ready then c.received ++ [c.dstData unsettled] else c.received }

/-- The write pointer, followed by the destination. -/
def wptr : Pointer (n + 1) :=
  ⟨c.fifo.srcWptrBin, c.fifo.srcWptrGray, c.wptrWas, c.fifo.dstWptrGray, c.fifo.dstWptrGray2⟩

/-- The read pointer, followed by the source. -/
def rptr : Pointer (n + 1) :=
  ⟨c.fifo.dstRptrBin, c.fifo.dstRptrGray, c.rptrWas, c.fifo.srcRptrGray, c.fifo.srcRptrGray2⟩

theorem wptr_src (data : α) (valid : Bool) (mask : BitVec (n + 1)) :
    (c.next (.src data valid mask)).wptr = c.wptr.own (valid && c.fifo.srcReady) := rfl

theorem rptr_dst (ready : Bool) (mask : BitVec (n + 1)) (unsettled : α) :
    (c.next (.dst ready mask unsettled)).rptr = c.rptr.own (c.fifo.dstValid && ready) := rfl

end Crossing

/-- Both sides after reset. -/
def machine (n : Nat) (zero : α) : Machine (Crossing α n) (Edge α n) :=
  ⟨{ fifo := { fifoData := fun _ => zero } }, Crossing.next⟩

/-- The pointers count what was written and read, neither passes the other, and the entries between
them hold what was written, settled as far as the destination has seen. -/
structure Inv (c : Crossing α n) (write read : Counts) : Prop where
  wptr : Tracks c.wptr write
  rptr : Tracks c.rptr read
  behind : read.now ≤ write.second
  room : write.now ≤ read.second + 2 ^ n
  sent : c.sent.length = write.now
  received : c.received = c.sent.take read.now
  held : ∀ i, read.now ≤ i → i < write.now → c.sent[i]? = some (c.fifo.fifoData (BitVec.ofNat n i))
  settled : ∀ i, read.now ≤ i → i < write.first → c.written (BitVec.ofNat n i) = false

section Flags

variable {c : Crossing α n} {write read : Counts}

theorem turn_lt : 2 ^ n < 2 ^ (n + 1) := Nat.pow_lt_pow_of_lt (by omega) (by omega)

theorem toNat_ptrFull : (Fifo.ptrFull n).toNat = 2 ^ n := by
  have fits : 2 ^ n < 2 ^ (n + 1) := turn_lt
  rw [Fifo.ptrFull, BitVec.toNat_shiftLeft, Nat.shiftLeft_eq]
  have one : (1#(n + 1)).toNat = 1 := by simp
  rw [one, Nat.one_mul, Nat.mod_eq_of_lt fits]

/-- Nothing is carried below the top bit. -/
theorem carry_ptrFull (y : BitVec (n + 1)) {i : Nat} (inside : i ≤ n) :
    BitVec.carry i y (Fifo.ptrFull n) false = false := by
  have low : 2 ^ n % 2 ^ i = 0 := Nat.mod_eq_zero_of_dvd (Nat.pow_dvd_pow 2 inside)
  have bound : y.toNat % 2 ^ i < 2 ^ i := Nat.mod_lt _ (Nat.two_pow_pos i)
  simp only [BitVec.carry, toNat_ptrFull, low, Bool.toNat_false, decide_eq_false_iff_not]
  omega

theorem add_ptrFull (y : BitVec (n + 1)) : y + Fifo.ptrFull n = y ^^^ Fifo.ptrFull n := by
  apply BitVec.eq_of_getLsbD_eq
  intro i inside
  rw [BitVec.getLsbD_add inside, carry_ptrFull y (Nat.le_of_lt_succ inside), BitVec.getLsbD_xor,
    Bool.xor_false]

/-- The top bit of a pointer tells a full turn. -/
theorem xor_eq_ptrFull (x y : BitVec (n + 1)) :
    x ^^^ y = Fifo.ptrFull n ↔ x = y + Fifo.ptrFull n := by
  rw [add_ptrFull]
  constructor
  · intro full
    rw [← full, BitVec.xor_comm x y, ← BitVec.xor_assoc, BitVec.xor_self, BitVec.zero_xor]
  · intro turned
    rw [turned, BitVec.xor_comm y, BitVec.xor_assoc, BitVec.xor_self, BitVec.xor_zero]

theorem Inv.srcReady_iff (inv : Inv c write read) :
    c.fifo.srcReady = true ↔ write.now < read.second + 2 ^ n := by
  have room := inv.room
  have turn : 2 ^ n < 2 ^ (n + 1) := turn_lt
  have ahead : read.second ≤ write.now :=
    Nat.le_trans inv.rptr.second_le_now (Nat.le_trans inv.behind inv.wptr.second_le_now)
  obtain ⟨d, distance⟩ := Nat.exists_eq_add_of_le ahead
  have bin : c.fifo.srcWptrBin = BitVec.ofNat (n + 1) (read.second + d) := by
    rw [← distance]
    exact inv.wptr.bin
  have other : decode c.fifo.srcRptrGray2 = BitVec.ofNat (n + 1) read.second :=
    inv.rptr.decode_second
  have full : Fifo.ptrFull n = BitVec.ofNat (n + 1) (2 ^ n) := by
    apply BitVec.eq_of_toNat_eq
    rw [toNat_ptrFull, BitVec.toNat_ofNat, Nat.mod_eq_of_lt turn_lt]
  rw [Fifo.srcReady, bne_iff_ne, ne_eq, xor_eq_ptrFull, bin, other, full, ← BitVec.ofNat_add,
    ofNat_add_eq_iff (show d < 2 ^ (n + 1) by omega) turn]
  omega

theorem Inv.dstValid_iff (inv : Inv c write read) :
    c.fifo.dstValid = true ↔ read.now < write.second := by
  have behind := inv.behind
  have turn : 2 ^ n < 2 ^ (n + 1) := turn_lt
  have near : write.second ≤ read.now + 2 ^ n := by
    have room := inv.room
    have reads := inv.rptr.second_le_now
    have writes := inv.wptr.second_le_now
    omega
  obtain ⟨d, distance⟩ := Nat.exists_eq_add_of_le behind
  have bin : c.fifo.dstRptrBin = BitVec.ofNat (n + 1) (read.now + 0) := inv.rptr.bin
  have other : decode c.fifo.dstWptrGray2 = BitVec.ofNat (n + 1) (read.now + d) := by
    rw [← distance]
    exact inv.wptr.decode_second
  rw [Fifo.dstValid, bne_iff_ne, ne_eq, BitVec.xor_eq_zero_iff, bin, other,
    ofNat_add_eq_iff (Nat.two_pow_pos _) (show d < 2 ^ (n + 1) by omega)]
  omega

theorem Inv.fifoWidx_eq (inv : Inv c write read) :
    c.fifo.fifoWidx = BitVec.ofNat n write.now := by
  have bin : c.fifo.srcWptrBin = BitVec.ofNat (n + 1) write.now := inv.wptr.bin
  rw [Fifo.fifoWidx, bin, BitVec.setWidth_ofNat_of_le (Nat.le_succ n)]

theorem Inv.fifoRidx_eq (inv : Inv c write read) :
    c.fifo.fifoRidx = BitVec.ofNat n read.now := by
  have bin : c.fifo.dstRptrBin = BitVec.ofNat (n + 1) read.now := inv.rptr.bin
  rw [Fifo.fifoRidx, bin, BitVec.setWidth_ofNat_of_le (Nat.le_succ n)]

/-- Where there is room the next entry is none of those that hold an item. -/
theorem Inv.fifoWidx_ne (inv : Inv c write read) (ready : c.fifo.srcReady = true) {i : Nat}
    (above : read.now ≤ i) (below : i < write.now) : c.fifo.fifoWidx ≠ BitVec.ofNat n i := by
  have room := inv.srcReady_iff.mp ready
  have seen := inv.rptr.second_le_now
  obtain ⟨d, distance⟩ := Nat.exists_eq_add_of_lt below
  intro same
  rw [inv.fifoWidx_eq, distance, Nat.add_assoc] at same
  have none := (ofNat_add_eq_iff (show d + 1 < 2 ^ n by omega) (Nat.two_pow_pos n)).mp same
  omega

/-- The item at the read pointer is the next one, and it is settled. -/
theorem Inv.dstData_eq (inv : Inv c write read) (valid : c.fifo.dstValid = true) (unsettled : α) :
    c.sent[read.now]? = some (c.dstData unsettled) := by
  have some := inv.dstValid_iff.mp valid
  have seen := inv.wptr.second_le
  have first := inv.wptr.first_le_now
  have still := inv.settled read.now (Nat.le_refl _) (by omega)
  rw [Crossing.dstData, Fifo.dstData, inv.fifoRidx_eq, still, if_neg Bool.false_ne_true]
  exact inv.held read.now (Nat.le_refl _) (by omega)

end Flags

section Step

variable {c : Crossing α n} {write read : Counts}

theorem Inv.src_next (inv : Inv c write read) (data : α) (valid : Bool) (mask : BitVec (n + 1)) :
    Inv (c.next (.src data valid mask)) (write.own (valid && c.fifo.srcReady))
      (read.other (c.rptr.late mask)) := by
  have wptr := inv.wptr.own (valid && c.fifo.srcReady)
  have rptr := inv.rptr.other mask
  have seen := inv.rptr.second_le
  have behind := Nat.le_trans inv.behind inv.wptr.second_le_now
  cases taken : valid && c.fifo.srcReady with
  | false =>
      rw [taken] at wptr
      have same (i : BitVec n) : (c.next (.src data valid mask)).fifo.fifoData i = c.fifo.fifoData i := by
        simp [Crossing.next, Fifo.srcNext, taken]
      have kept (i : BitVec n) : (c.next (.src data valid mask)).written i = c.written i := by
        simp [Crossing.next, taken]
      have quiet : (c.next (.src data valid mask)).sent = c.sent := by
        simp [Crossing.next, taken]
      refine ⟨?_, rptr, inv.behind, ?_, ?_, ?_, ?_, ?_⟩
      · rw [c.wptr_src, taken]
        exact wptr
      · exact Nat.le_trans inv.room (Nat.add_le_add_right seen _)
      · rw [quiet]
        exact inv.sent
      · rw [quiet]
        exact inv.received
      · intro i above below
        rw [quiet, same]
        exact inv.held i above below
      · intro i above below
        rw [kept]
        exact inv.settled i above below
  | true =>
      rw [taken] at wptr
      have ready : c.fifo.srcReady = true := (Bool.and_eq_true _ _ ▸ taken).2
      have room := inv.srcReady_iff.mp ready
      have entry (i : BitVec n) : (c.next (.src data valid mask)).fifo.fifoData i =
          if c.fifo.fifoWidx == i then data else c.fifo.fifoData i := by
        simp [Crossing.next, Fifo.srcNext, taken]
      have marked (i : BitVec n) : (c.next (.src data valid mask)).written i =
          (c.written i || c.fifo.fifoWidx == i) := by
        simp [Crossing.next, taken]
      have longer : (c.next (.src data valid mask)).sent = c.sent ++ [data] := by
        simp [Crossing.next, taken]
      refine ⟨?_, rptr, inv.behind, ?_, ?_, ?_, ?_, ?_⟩
      · rw [c.wptr_src, taken]
        exact wptr
      · change write.now + 1 ≤ read.first + 2 ^ n
        omega
      · rw [longer, List.length_append, inv.sent]
        rfl
      · rw [longer, List.take_append_of_le_length (by rw [inv.sent]; exact behind)]
        exact inv.received
      · intro i above below
        change i < write.now + 1 at below
        rw [longer, entry]
        by_cases last : i = write.now
        · rw [last, ← inv.fifoWidx_eq, ← inv.sent, List.getElem?_concat_length]
          simp
        · have old : i < write.now := by omega
          have apart := inv.fifoWidx_ne ready above old
          rw [List.getElem?_append_left (by rw [inv.sent]; exact old), beq_false_of_ne apart]
          exact inv.held i above old
      · intro i above below
        have old : i < write.now := Nat.lt_of_lt_of_le below inv.wptr.first_le_now
        rw [marked, beq_false_of_ne (inv.fifoWidx_ne ready above old), Bool.or_false]
        exact inv.settled i above below

theorem Inv.dst_next (inv : Inv c write read) (ready : Bool) (mask : BitVec (n + 1))
    (unsettled : α) :
    Inv (c.next (.dst ready mask unsettled)) (write.other (c.wptr.late mask))
      (read.own (c.fifo.dstValid && ready)) := by
  have wptr := inv.wptr.other mask
  have rptr := inv.rptr.own (c.fifo.dstValid && ready)
  have seen := inv.wptr.second_le
  have behind := inv.behind
  cases taken : c.fifo.dstValid && ready with
  | false =>
      rw [taken] at rptr
      have same : (c.next (.dst ready mask unsettled)).received = c.received := by
        simp [Crossing.next, taken]
      refine ⟨wptr, ?_, Nat.le_trans behind seen, inv.room, inv.sent, ?_, inv.held,
        fun _ _ _ => rfl⟩
      · rw [c.rptr_dst, taken]
        exact rptr
      · rw [same]
        exact inv.received
  | true =>
      rw [taken] at rptr
      have valid : c.fifo.dstValid = true := (Bool.and_eq_true _ _ ▸ taken).1
      have more := inv.dstValid_iff.mp valid
      have longer : (c.next (.dst ready mask unsettled)).received =
          c.received ++ [c.dstData unsettled] := by
        simp [Crossing.next, taken]
      refine ⟨wptr, ?_, ?_, inv.room, inv.sent, ?_, ?_, fun _ _ _ => rfl⟩
      · rw [c.rptr_dst, taken]
        exact rptr
      · exact Nat.le_trans more seen
      · change _ = c.sent.take (read.now + 1)
        rw [longer, inv.received, List.take_add_one, inv.dstData_eq valid unsettled]
        rfl
      · intro i above below
        exact inv.held i (Nat.le_of_succ_le above) below

end Step

/-- The counts of both pointers after an edge. -/
def advance (c : Crossing α n) (k : Counts × Counts) : Edge α n → Counts × Counts
  | .src _ valid mask => (k.1.own (valid && c.fifo.srcReady), k.2.other (c.rptr.late mask))
  | .dst ready mask _ => (k.1.other (c.wptr.late mask), k.2.own (c.fifo.dstValid && ready))

theorem Inv.next {c : Crossing α n} {k : Counts × Counts} (inv : Inv c k.1 k.2) (edge : Edge α n) :
    Inv (c.next edge) (advance c k edge).1 (advance c k edge).2 := by
  cases edge with
  | src data valid mask => exact inv.src_next data valid mask
  | dst ready mask unsettled => exact inv.dst_next ready mask unsettled

theorem inv_reset (zero : α) : Inv (machine n zero).reset ⟨0, 0, 0, 0⟩ ⟨0, 0, 0, 0⟩ := by
  refine ⟨Tracks.zero, Tracks.zero, Nat.le_refl 0, Nat.zero_le _, rfl, rfl, ?_, fun _ _ _ => rfl⟩
  intro i _ below
  exact absurd below (Nat.not_lt_zero i)

theorem inv_run (zero : α) (edges : List (Edge α n)) :
    ∃ k : Counts × Counts, Inv ((machine n zero).run edges) k.1 k.2 := by
  have step : ∀ c edge, (∃ k : Counts × Counts, Inv c k.1 k.2) → True →
      ∃ k : Counts × Counts, Inv ((machine n zero).next c edge) k.1 k.2 := by
    intro c edge found _
    obtain ⟨k, inv⟩ := found
    exact ⟨advance c k edge, inv.next edge⟩
  exact (machine n zero).run_invariant ⟨(⟨0, 0, 0, 0⟩, ⟨0, 0, 0, 0⟩), inv_reset zero⟩ step
    ((machine n zero).legal_true _ edges)

/-- An offered item is the next one to give, it does not depend on what is unsettled, and it stays
until it is taken. -/
theorem Inv.offered {c : Crossing α n} {write read : Counts} (inv : Inv c write read)
    (valid : c.fifo.dstValid = true) :
    (∀ unsettled, c.sent[c.received.length]? = some (c.dstData unsettled)) ∧
      ∀ edge, (∀ mask unsettled, edge ≠ .dst true mask unsettled) →
        (c.next edge).fifo.dstValid = true ∧
          ∀ first second, (c.next edge).dstData first = c.dstData second := by
  have more := inv.dstValid_iff.mp valid
  have length : c.received.length = read.now := by
    have written := inv.wptr.second_le_now
    have sent := inv.sent
    rw [inv.received, List.length_take]
    omega
  constructor
  · intro unsettled
    rw [length]
    exact inv.dstData_eq valid unsettled
  · intro edge waits
    cases edge with
    | src data given mask =>
        have next := inv.src_next data given mask
        have still : (c.next (.src data given mask)).fifo.dstValid = true := valid
        refine ⟨still, fun first second => ?_⟩
        have item := next.dstData_eq still first
        have before := inv.dstData_eq valid second
        have kept : (c.next (.src data given mask)).sent[read.now]? = c.sent[read.now]? := by
          have inside : read.now < c.sent.length := by
            have written := inv.wptr.second_le_now
            have sent := inv.sent
            omega
          cases taken : given && c.fifo.srcReady with
          | false => simp [Crossing.next, taken]
          | true => simp [Crossing.next, taken, List.getElem?_append_left inside]
        change (c.next (.src data given mask)).sent[read.now]? = _ at item
        rw [kept, before] at item
        exact (Option.some.inj item).symm
    | dst ready mask unsettled =>
        have idle : ready = false := by
          cases ready with
          | false => rfl
          | true => exact absurd rfl (waits mask unsettled)
        have next := inv.dst_next ready mask unsettled
        rw [idle, Bool.and_false] at next
        have still : (c.next (.dst ready mask unsettled)).fifo.dstValid = true := by
          rw [idle]
          exact next.dstValid_iff.mpr (Nat.lt_of_lt_of_le more inv.wptr.second_le)
        refine ⟨still, fun first second => ?_⟩
        rw [idle] at still ⊢
        have item := next.dstData_eq still first
        have before := inv.dstData_eq valid second
        change c.sent[read.now]? = _ at item
        rw [before] at item
        exact (Option.some.inj item).symm

/-- Whatever the order of the edges, and however the pointers are read while they change: the items
come out in the order they went in, none is lost, repeated or overwritten, and an offered item is
read after it has settled. -/
theorem fifo_lossless (zero : α) (edges : List (Edge α n)) :
    let c := (machine n zero).run edges
    c.received <+: c.sent ∧ c.sent.length ≤ c.received.length + 2 ^ n ∧
      (c.fifo.srcReady = true → c.sent.length < c.received.length + 2 ^ n) ∧
      (c.fifo.dstValid = true →
        (∀ unsettled, c.sent[c.received.length]? = some (c.dstData unsettled)) ∧
        ∀ edge, (∀ mask unsettled, edge ≠ .dst true mask unsettled) →
          (c.next edge).fifo.dstValid = true ∧
            ∀ first second, (c.next edge).dstData first = c.dstData second) := by
  intro c
  obtain ⟨k, inv⟩ := inv_run zero edges
  have seen := inv.rptr.second_le_now
  have room := inv.room
  have sent : c.sent.length = k.1.now := inv.sent
  have length : c.received.length = k.2.now := by
    have behind := inv.behind
    have written := inv.wptr.second_le_now
    rw [inv.received, List.length_take]
    change min k.2.now c.sent.length = _
    omega
  refine ⟨?_, by omega, fun ready => ?_, inv.offered⟩
  · rw [inv.received]
    exact List.take_prefix _ _
  · have below := inv.srcReady_iff.mp ready
    omega

section Progress

variable (zero : α) (edges : Nat → Edge α n)

def Edge.ofSrc : Edge α n → Bool
  | .src .. => true
  | .dst .. => false

def Edge.taking : Edge α n → Bool
  | .src .. => false
  | .dst ready .. => ready

/-- Both clocks go on, and the destination does not refuse for ever. -/
structure Going : Prop where
  src : ∀ t, ∃ u, t ≤ u ∧ (edges u).ofSrc = true
  dst : ∀ t, ∃ u, t ≤ u ∧ (edges u).taking = true

/-- The queue before edge `t`. -/
def crossingAt (t : Nat) : Crossing α n :=
  (machine n zero).stateAt (machine n zero).reset edges t

def countsAt : Nat → Counts × Counts
  | 0 => (⟨0, 0, 0, 0⟩, ⟨0, 0, 0, 0⟩)
  | t + 1 => advance (crossingAt zero edges t) (countsAt t) (edges t)

theorem inv_at (t : Nat) :
    Inv (crossingAt zero edges t) (countsAt zero edges t).1 (countsAt zero edges t).2 := by
  induction t with
  | zero => exact inv_reset zero
  | succ t ih => exact ih.next (edges t)

theorem taking_dst {edge : Edge α n} (taking : edge.taking = true) : ¬ edge.ofSrc = true := by
  cases edge with
  | src data valid mask => simp [Edge.taking] at taking
  | dst ready mask unsettled => simp [Edge.ofSrc]

theorem counts_src {t : Nat} {data : α} {valid : Bool} {mask : BitVec (n + 1)}
    (kind : edges t = .src data valid mask) :
    countsAt zero edges (t + 1) =
      ((countsAt zero edges t).1.own (valid && (crossingAt zero edges t).fifo.srcReady),
        (countsAt zero edges t).2.other ((crossingAt zero edges t).rptr.late mask)) := by
  rw [countsAt, kind, advance]

theorem counts_dst {t : Nat} {ready : Bool} {mask : BitVec (n + 1)} {unsettled : α}
    (kind : edges t = .dst ready mask unsettled) :
    countsAt zero edges (t + 1) =
      ((countsAt zero edges t).1.other ((crossingAt zero edges t).wptr.late mask),
        (countsAt zero edges t).2.own ((crossingAt zero edges t).fifo.dstValid && ready)) := by
  rw [countsAt, kind, advance]

theorem write_goes :
    Rtl.Gray.Goes (fun t => (countsAt zero edges t).1) fun t => ¬ (edges t).ofSrc = true := by
  refine ⟨fun t => (inv_at zero edges t).wptr.second_le,
    fun t => (inv_at zero edges t).wptr.first_le, fun t => (inv_at zero edges t).wptr.was_le, ?_, ?_⟩
  · intro t edge
    cases kind : edges t with
    | src data valid mask => exact ⟨_, congrArg Prod.fst (counts_src zero edges kind)⟩
    | dst ready mask unsettled => simp [kind, Edge.ofSrc] at edge
  · intro t edge
    cases kind : edges t with
    | src data valid mask => simp [kind, Edge.ofSrc] at edge
    | dst ready mask unsettled => exact ⟨_, congrArg Prod.fst (counts_dst zero edges kind)⟩

theorem read_goes :
    Rtl.Gray.Goes (fun t => (countsAt zero edges t).2) fun t => (edges t).ofSrc = true := by
  refine ⟨fun t => (inv_at zero edges t).rptr.second_le,
    fun t => (inv_at zero edges t).rptr.first_le, fun t => (inv_at zero edges t).rptr.was_le, ?_, ?_⟩
  · intro t edge
    cases kind : edges t with
    | src data valid mask => simp [kind, Edge.ofSrc] at edge
    | dst ready mask unsettled => exact ⟨_, congrArg Prod.snd (counts_dst zero edges kind)⟩
  · intro t edge
    cases kind : edges t with
    | src data valid mask => exact ⟨_, congrArg Prod.snd (counts_src zero edges kind)⟩
    | dst ready mask unsettled => simp [kind, Edge.ofSrc] at edge

theorem sent_next (c : Crossing α n) (edge : Edge α n) : c.sent <+: (c.next edge).sent := by
  cases edge with
  | src data valid mask =>
      cases taken : valid && c.fifo.srcReady <;> simp [Crossing.next, taken]
  | dst ready mask unsettled => exact List.prefix_refl _

theorem sent_mono {t u : Nat} (later : t ≤ u) :
    (crossingAt zero edges t).sent <+: (crossingAt zero edges u).sent := by
  induction later with
  | refl => exact List.prefix_refl _
  | step _ ih => exact ih.trans (sent_next _ _)

variable {zero edges}

/-- What the destination sees is read. -/
theorem reads (going : Going edges) {t d N : Nat} (seen : N ≤ (countsAt zero edges t).1.second)
    (distance : N ≤ (countsAt zero edges t).2.now + d) :
    ∃ u, t ≤ u ∧ N ≤ (countsAt zero edges u).2.now := by
  induction d generalizing t with
  | zero => exact ⟨t, Nat.le_refl t, distance⟩
  | succ d ih =>
      obtain ⟨v, later, taking⟩ := going.dst t
      have before : (countsAt zero edges t).2.now ≤ (countsAt zero edges v).2.now :=
        (read_goes zero edges).now_mono later
      have still : (countsAt zero edges t).1.second ≤ (countsAt zero edges v).1.second :=
        (write_goes zero edges).second_mono later
      by_cases done : N ≤ (countsAt zero edges v).2.now
      · exact ⟨v, later, done⟩
      · have valid := (inv_at zero edges v).dstValid_iff.mpr (by omega)
        have reads : (countsAt zero edges (v + 1)).2.now = (countsAt zero edges v).2.now + 1 := by
          cases kind : edges v with
          | src data given mask => simp [kind, Edge.taking] at taking
          | dst ready mask unsettled =>
              have ready : ready = true := by simpa [kind, Edge.taking] using taking
              rw [counts_dst zero edges kind, valid, ready]
              rfl
        have again : (countsAt zero edges v).1.second ≤ (countsAt zero edges (v + 1)).1.second :=
          (write_goes zero edges).second_mono (Nat.le_succ v)
        obtain ⟨u, after, read⟩ := ih
          (show N ≤ (countsAt zero edges (v + 1)).1.second by omega) (by omega)
        exact ⟨u, by omega, read⟩

variable (zero) in
/-- What is written is read. -/
theorem drains (going : Going edges) (t : Nat) :
    ∃ u, t ≤ u ∧ (countsAt zero edges t).1.now ≤ (countsAt zero edges u).2.now := by
  have fair : ∀ t, ∃ u, t ≤ u ∧ ¬ (edges u).ofSrc = true := by
    intro t
    obtain ⟨u, later, taking⟩ := going.dst t
    exact ⟨u, later, taking_dst taking⟩
  obtain ⟨v, later, seen⟩ := (write_goes zero edges).reaches fair t
  obtain ⟨u, after, read⟩ := reads going seen (Nat.le_add_left _ _)
  exact ⟨u, by omega, read⟩

/-- The source is not kept waiting for ever. -/
theorem ready_again (going : Going edges) (t : Nat) :
    ∃ u, t ≤ u ∧ (edges u).ofSrc = true ∧ (crossingAt zero edges u).fifo.srcReady = true := by
  apply Classical.byContradiction
  intro never
  have full {u : Nat} (later : t ≤ u) (edge : (edges u).ofSrc = true) :
      (crossingAt zero edges u).fifo.srcReady = false := by
    apply Bool.eq_false_iff.mpr
    intro ready
    exact never ⟨u, later, edge, ready⟩
  have same {u : Nat} (later : t ≤ u) :
      (countsAt zero edges u).1.now = (countsAt zero edges t).1.now := by
    induction later with
    | refl => rfl
    | step before ih =>
        rename_i u
        rw [← ih]
        cases kind : edges u with
        | src data valid mask =>
            have busy := full before (by rw [kind]; rfl)
            rw [counts_src zero edges kind, busy, Bool.and_false]
            rfl
        | dst ready mask unsettled =>
            rw [counts_dst zero edges kind]
            rfl
  obtain ⟨v, later, read⟩ := drains zero going t
  obtain ⟨w, after, seen⟩ := (read_goes zero edges).reaches going.src v
  obtain ⟨x, last, edge⟩ := going.src w
  have still : (countsAt zero edges w).2.second ≤ (countsAt zero edges x).2.second :=
    (read_goes zero edges).second_mono last
  have written := same (show t ≤ x by omega)
  have positive := Nat.two_pow_pos n
  have ready := (inv_at zero edges x).srcReady_iff.mpr (by omega)
  rw [full (by omega) edge] at ready
  exact Bool.noConfusion ready

/-- While both clocks go on and the destination takes, every item that is in the queue is given, and
the source can give another one. -/
theorem fifo_progress (going : Going edges) (t : Nat) :
    (∃ u, t ≤ u ∧ (crossingAt zero edges t).sent <+: (crossingAt zero edges u).received) ∧
      ∃ u, t ≤ u ∧ (edges u).ofSrc = true ∧ (crossingAt zero edges u).fifo.srcReady = true := by
  refine ⟨?_, ready_again going t⟩
  obtain ⟨u, later, read⟩ := drains zero going t
  refine ⟨u, later, ?_⟩
  have sent := (inv_at zero edges t).sent
  rw [(inv_at zero edges u).received]
  have start := sent_mono zero edges later
  rw [List.prefix_iff_eq_take.mp start]
  apply List.take_prefix_take_left
  omega

end Progress

/-- The source offers an item at each even edge, the destination takes at each odd one. -/
theorem fifo_progress_alternating :
    let edges : Nat → Edge Nat 3 := fun t =>
      if t % 2 = 0 then .src t true 5 else .dst true 9 99
    (∃ u, 8 ≤ u ∧ (crossingAt 0 edges 8).sent <+: (crossingAt 0 edges u).received) ∧
      ∃ u, 8 ≤ u ∧ (edges u).ofSrc = true ∧ (crossingAt 0 edges u).fifo.srcReady = true := by
  intro edges
  apply fifo_progress
  constructor
  · intro t
    refine ⟨2 * t, by omega, ?_⟩
    have even : 2 * t % 2 = 0 := by omega
    simp [edges, even, Edge.ofSrc]
  · intro t
    refine ⟨2 * t + 1, by omega, ?_⟩
    have odd : ¬ (2 * t + 1) % 2 = 0 := by omega
    simp only [edges, if_neg odd, Edge.taking]

end Ariane.CdcFifoGray
