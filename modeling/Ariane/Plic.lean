import Ariane.Rtl.Bits
import Ariane.Rtl.Machine
import Ariane.Rtl.Ring
import Mathlib.Logic.Function.Basic

set_option autoImplicit false

/- The platform level interrupt controller: `plic.sv` with its gateways, target slices,
register map and claim/complete tracker. Gateway `g` has the identifier `g + 1`. -/
namespace Ariane.Plic

open Rtl.Ring (clog2)

/-- The parameters, with what `plic.sv` asserts of them. The identifiers number the sources. -/
structure Parameters where
  numSources : Nat
  numTargets : Nat
  idBitwidth : Nat
  parameterBitwidth : Nat
  idBitwidth_pos : 0 < idBitwidth
  idBitwidth_lt : idBitwidth < 10
  parameterBitwidth_pos : 0 < parameterBitwidth
  parameterBitwidth_lt : parameterBitwidth < 8
  numSources_pos : 0 < numSources
  numSources_lt : numSources < 512
  numTargets_pos : 0 < numTargets
  numTargets_lt : numTargets < 15872
  numbers : numSources < 2 ^ idBitwidth

variable (p : Parameters)

/-- The identifier of a gateway. -/
abbrev Id := BitVec p.idBitwidth

/-- A priority or a threshold. -/
abbrev Level := BitVec p.parameterBitwidth

/-- The registers of `plic_gateway.sv`. -/
structure Gateway where
  irqPending : Bool := false
  waitCompletion : Bool := false
  deriving DecidableEq

namespace Gateway

variable (s : Gateway) (irqSource claim completed : Bool)

def irqTrigger : Bool := (!s.waitCompletion || completed) && irqSource

/-- `irq_pending_o`. -/
def irqPendingO : Bool := (s.irqPending || irqTrigger s irqSource completed) && !claim

def next : Gateway where
  irqPending :=
    if irqTrigger s irqSource completed then true else if claim then false else s.irqPending
  waitCompletion :=
    if irqTrigger s irqSource completed then true
    else if completed then false else s.waitCompletion

end Gateway

/-- A priority with the identifier it belongs to. -/
structure Operand where
  priority : BitVec (p.parameterBitwidth + 1)
  identifier : Id p

variable {p}

/-- `plic_comparator`: the left operand wins a tie. -/
def comparator (left right : Operand p) : Operand p :=
  if right.priority ≤ left.priority then left else right

/-- The comparator tree of `plic_find_max`, stage after stage. -/
def stages : Nat → (Nat → Operand p) → Nat → Operand p
  | 0, operands => operands
  | k + 1, operands => stages k fun i => comparator (operands (2 * i)) (operands (2 * i + 1))

/-- `plic_find_max`, with its operands padded by zeros up to a power of two. -/
def findMax (operands : Nat → Operand p) : Operand p :=
  stages (clog2 p.numSources)
    (fun i => if i < p.numSources then operands i else ⟨0, 0⟩) 0

/-- What one access selects. -/
inductive Funct
  | inv | pri | ipa | ieb | thr | ccp
  deriving DecidableEq

/-- The external bus. -/
structure Bus where
  valid : Bool := false
  write : Bool := false
  addr : BitVec 32 := 0
  wdata : BitVec 32 := 0
  wstrb : BitVec 4 := 15
  deriving DecidableEq

structure Input where
  irqSources : Nat → Bool := fun _ => false
  bus : Bus := {}

variable (p)

/-- The registers. `ena_bundles_q` is indexed by bundle, target and byte, the arrays of the
tracker by identifier and target. `complete_array` is not reset; before the first clock edge
`if (is_completed)` finds no one in it. -/
structure State where
  gateways : Nat → Gateway := fun _ => {}
  priorities : Nat → Level p := fun _ => 0
  enaBundles : Nat → Nat → Nat → BitVec 8 := fun _ _ _ => 0
  thresholds : Nat → Level p := fun _ => 0
  idOfLargest : Nat → Id p := fun _ => 0
  claimArray : Nat → Nat → Bool := fun _ _ => false
  saveClaims : Nat → Nat → Bool := fun _ _ => false
  completeArray : Nat → Nat → Bool := fun _ _ => false

variable {p}

namespace Bus

variable (b : Bus)

def pageAddress : BitVec 14 := b.addr.extractLsb' 12 14

/-- `page_word_offset`. -/
def pageWordOffset : BitVec 10 := b.addr.extractLsb' 2 10

def wordOffset : BitVec 2 := b.addr.extractLsb' 0 2

/-- `page_offset[6:2]`, the bundle of an access to enable bits. -/
def enaBundle : BitVec 5 := b.addr.extractLsb' 2 5

/-- `{page_address[8:0], page_offset[11:7]} - 64`, its target. -/
def enaTarget : Nat := ((b.addr.extractLsb' 7 14).setWidth 32 - 64#32).toNat

/-- `page_address[13:0] - 'h200`, the target of an access to a threshold or to claim and
complete. -/
def target : Nat := (b.pageAddress.setWidth 32 - 0x200#32).toNat

def writeActive : BitVec 4 := if b.valid && b.write then b.wstrb else 0

def readActive : Bool := b.valid && !b.write

end Bus

variable (p)

/-- `num_gateway_bundles`. -/
def numGatewayBundles : Nat := (p.numSources - 1) / 32 + 1

/-- `proc_address_map`. -/
def funct (b : Bus) : Funct :=
  if b.wordOffset = 0 then
    if b.pageAddress = 0 then
      if b.pageWordOffset.toNat ≤ p.numSources ∧ 0 < b.pageWordOffset.toNat then .pri else .inv
    else if b.pageAddress = 1 then
      if b.pageWordOffset.toNat < numGatewayBundles p then .ipa else .inv
    else if b.pageAddress.extractLsb' 9 5 = 0 then
      if b.enaBundle.toNat < numGatewayBundles p ∧ b.enaTarget < p.numTargets then .ieb else .inv
    else if b.target < p.numTargets then
      if b.pageWordOffset = 0 then .thr else if b.pageWordOffset = 1 then .ccp else .inv
    else .inv
  else .inv

section Access

variable (i : Input)

def targetIrqClaims (t : Nat) : Bool :=
  funct p i.bus == .ccp && i.bus.readActive && t == i.bus.target

def targetIrqCompletes (t : Nat) : Bool :=
  funct p i.bus == .ccp && !i.bus.readActive && i.bus.writeActive != 0 && t == i.bus.target

def targetIrqCompletesId (t : Nat) : Id p :=
  if targetIrqCompletes p i t then i.bus.wdata.setWidth _ else 0

/-- `complete_id`. -/
def completeId (t : Nat) : Nat := (targetIrqCompletesId p i t).toNat

end Access

variable {p}

section Cycle

variable (s : State p) (i : Input)

/-- The targets' claims and completions, merged for each gateway. -/
def gatewayClaimed (g : Nat) : Bool :=
  (List.range p.numTargets).any fun t => s.claimArray (g + 1) t

def gatewayCompleted (g : Nat) : Bool :=
  (List.range p.numTargets).any fun t => s.completeArray (g + 1) t

def gatewayIrqPending (g : Nat) : Bool :=
  (s.gateways g).irqPendingO (i.irqSources g) (gatewayClaimed s g) (gatewayCompleted s g)

/-- `irq_enables_o`. -/
def irqEnabled (g t : Nat) : Bool := (s.enaBundles (g / 32) t (g % 32 / 8)).getLsbD (g % 8)

/-- `interrupt_priority_masked` of a target slice, with the identifier of the gateway. -/
def masked (t g : Nat) : Operand p where
  priority :=
    if irqEnabled s g t && gatewayIrqPending s i g then (s.priorities g).setWidth _ + 1 else 0
  identifier := BitVec.ofNat _ (g + 1)

/-- `find_max_instance` of a target slice. -/
def best (t : Nat) : Operand p := findMax (masked s i t)

/-- `best_priority - 1 > threshold_i`, on 32 bits. -/
def aboveThreshold (t : Nat) : Bool :=
  decide ((s.thresholds t).setWidth 32 < (best s i t).priority.setWidth 32 - 1#32)

/-- `ext_interrupt_present_o`. -/
def eipTarget (t : Nat) : Bool := aboveThreshold s i t && (best s i t).priority != 0

/-- `identifier_of_largest_o` of a target slice. -/
def identifierOfLargest (t : Nat) : Id p :=
  if aboveThreshold s i t && (best s i t).priority != 0 then (best s i t).identifier
  else if !aboveThreshold s i t && (best s i t).priority != 0 then (best s i t).identifier
  else 0

/-- `irq_pending_bundle`. -/
def irqPendingBundle (bundle : Nat) : BitVec 32 :=
  Rtl.ofBits 32 fun bit =>
    decide (bundle * 32 + bit < p.numSources) && gatewayIrqPending s i (bundle * 32 + bit)

/-- `external_bus_io.rdata`. -/
def rdata : BitVec 32 :=
  if i.bus.readActive then
    match funct p i.bus with
    | .pri => (s.priorities (i.bus.pageWordOffset.toNat - 1)).setWidth 32
    | .ipa => irqPendingBundle s i i.bus.pageWordOffset.toNat
    | .ieb =>
        let word := s.enaBundles i.bus.enaBundle.toNat i.bus.enaTarget
        word 3 ++ word 2 ++ word 1 ++ word 0
    | .thr => (s.thresholds i.bus.target).setWidth 32
    | .ccp => (s.idOfLargest i.bus.target).setWidth 32
    | .inv => 0
  else 0

/-- `external_bus_io.error`. -/
def error : Bool :=
  match funct p i.bus with
  | .ipa => !i.bus.readActive && i.bus.writeActive != 0
  | .inv => true
  | _ => false

/-- `external_bus_io.ready`. -/
def ready : Bool :=
  match funct p i.bus with
  | .pri => i.bus.readActive || i.bus.writeActive.getLsbD 0
  | .ipa => i.bus.readActive
  | .inv => true
  | _ => i.bus.readActive || i.bus.writeActive != 0

/-- `priorities_d`. -/
def nextPriorities : Nat → Level p :=
  if funct p i.bus = .pri ∧ i.bus.readActive = false ∧ i.bus.writeActive.getLsbD 0 then
    Function.update s.priorities (i.bus.pageWordOffset.toNat - 1) (i.bus.wdata.setWidth _)
  else s.priorities

/-- `ena_bundles_d`. -/
def nextEnaBundles (bundle t byte : Nat) : BitVec 8 :=
  if funct p i.bus = .ieb ∧ i.bus.readActive = false ∧ bundle = i.bus.enaBundle.toNat ∧
      t = i.bus.enaTarget ∧ i.bus.writeActive.getLsbD byte then
    i.bus.wdata.extractLsb' (8 * byte) 8
  else s.enaBundles bundle t byte

/-- `thresholds_d`. -/
def nextThresholds : Nat → Level p :=
  if funct p i.bus = .thr ∧ i.bus.readActive = false ∧ i.bus.writeActive ≠ 0 then
    Function.update s.thresholds i.bus.target (i.bus.wdata.setWidth _)
  else s.thresholds

/-- `save_claims_array_q[complete_id][target]`. There is no entry beyond the last gateway. -/
def savedClaim (id t : Nat) : Bool := decide (id ≤ p.numSources) && s.saveClaims id t

/-- The identifier that a claim of target `t` claims. -/
def claimedId (t : Nat) : Nat := (identifierOfLargest s i t).toNat

def nextClaimArray (id t : Nat) : Bool :=
  targetIrqClaims p i t && id == claimedId s i t && decide (id ≤ p.numSources)

def nextCompleteArray (id t : Nat) : Bool :=
  !targetIrqClaims p i t && targetIrqCompletes p i t && id == completeId p i t &&
    savedClaim s id t

/-- `save_claims_array_q`. -/
def nextSaveClaims (id t : Nat) : Bool :=
  if nextClaimArray s i id t then true
  else if nextCompleteArray s i id t then false else s.saveClaims id t

def next : State p where
  gateways g :=
    (s.gateways g).next (i.irqSources g) (gatewayClaimed s g) (gatewayCompleted s g)
  priorities := nextPriorities s i
  enaBundles := nextEnaBundles s i
  thresholds := nextThresholds s i
  idOfLargest := identifierOfLargest s i
  claimArray := nextClaimArray s i
  saveClaims := nextSaveClaims s i
  completeArray := nextCompleteArray s i

end Cycle

section Largest

/-- The root of the tree is one of its leaves. -/
theorem stages_leaf (k : Nat) (operands : Nat → Operand p) (i : Nat) :
    ∃ j, stages k operands i = operands j := by
  induction k generalizing operands i with
  | zero => exact ⟨i, rfl⟩
  | succ k ih =>
      obtain ⟨j, leaf⟩ := ih (fun i => comparator (operands (2 * i)) (operands (2 * i + 1))) i
      rw [stages, leaf]
      by_cases left : (operands (2 * j + 1)).priority ≤ (operands (2 * j)).priority
      · exact ⟨2 * j, if_pos left⟩
      · exact ⟨2 * j + 1, if_neg left⟩

/-- A priority that is not zero belongs to a gateway. -/
theorem findMax_gateway (operands : Nat → Operand p) (some : (findMax operands).priority ≠ 0) :
    ∃ g, g < p.numSources ∧ findMax operands = operands g := by
  obtain ⟨g, leaf⟩ := stages_leaf (clog2 p.numSources)
    (fun i => if i < p.numSources then operands i else ⟨0, 0⟩) 0
  by_cases inside : g < p.numSources
  · refine ⟨g, inside, ?_⟩
    rw [findMax, leaf, if_pos inside]
  · rw [findMax, leaf, if_neg inside] at some
    contradiction

variable (s : State p) (i : Input) (t : Nat)

theorem identifierOfLargest_eq :
    identifierOfLargest s i t = if (best s i t).priority = 0 then 0 else (best s i t).identifier := by
  rw [identifierOfLargest]
  by_cases none : (best s i t).priority = 0
  · simp [none]
  · cases aboveThreshold s i t <;> simp

theorem toNat_identifier {g : Nat} (inside : g < p.numSources) :
    (BitVec.ofNat p.idBitwidth (g + 1)).toNat = g + 1 := by
  have wide := p.numbers
  rw [BitVec.toNat_ofNat, Nat.mod_eq_of_lt (by omega)]

theorem offered (some : identifierOfLargest s i t ≠ 0) :
    ∃ g, g < p.numSources ∧ claimedId s i t = g + 1 ∧ irqEnabled s g t = true ∧
      gatewayIrqPending s i g = true := by
  rw [identifierOfLargest_eq] at some
  by_cases none : (best s i t).priority = 0
  · rw [if_pos none] at some
    contradiction
  · obtain ⟨g, inside, found⟩ := findMax_gateway (masked s i t) none
    have shown : best s i t = masked s i t g := found
    refine ⟨g, inside, ?_, ?_⟩
    · rw [claimedId, identifierOfLargest_eq, if_neg none, shown]
      exact toNat_identifier inside
    · rw [shown, masked] at none
      by_cases both : (irqEnabled s g t && gatewayIrqPending s i g) = true
      · exact Bool.and_eq_true_iff.mp both
      · rw [if_neg both] at none
        contradiction

theorem claimedId_le : claimedId s i t ≤ p.numSources := by
  by_cases none : identifierOfLargest s i t = 0
  · rw [claimedId, none]
    simp
  · obtain ⟨g, inside, named, -⟩ := offered s i t none
    omega

end Largest

end Ariane.Plic
