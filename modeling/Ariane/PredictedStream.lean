import Ariane.ScannedStream

set_option autoImplicit false

/- The front end together with the re-aligner of the decode stage that empties its FIFO. -/
namespace Ariane.Frontend

open Rtl (Machine)
open InstrRealigner (Shown Rest realignInstr accepted consumed shown pending leaves Serves)

section Streams

variable [Immediates] {depth : Nat}

/-- The inputs of both, with the acknowledge of the decoder. -/
structure PipelineInput where
  front : Input := {}
  ack : Bool := false

/-- The registers of both, with the address that was requested last and what was scanned and
shown since the last flush. -/
structure Pipeline (depth : Nat) where
  front : System depth := {}
  realigner : InstrRealigner.State := {}
  requested : BitVec 64 := 0
  scannedLog : List Shown := []
  shownLog : List Shown := []

section Cycle

variable (s : Pipeline depth) (i : PipelineInput)

def realignerInput : InstrRealigner.Input where
  flush := i.front.flush
  fetchEntry := (FifoV3.front s.front.frontend.fifo).toRealigner
  fetchEntryValid := fetchEntryValid s.front.frontend
  fetchAck := i.ack

/-- The entry is popped when the re-aligner acknowledges it. -/
def frontInput : Input :=
  { i.front with fetchAck := (realignInstr s.realigner (realignerInput s i)).ack }

/-- What is scanned in this cycle. -/
def scans : List Shown :=
  if s.front.frontend.icacheValid then
    scanned s.front.frontend.unaligned s.front.frontend.icacheWord
      (decision s.front.frontend (frontInput s i))
  else []

/-- What the decoder takes in this cycle. -/
def shows : List Shown :=
  if accepted s.realigner (realignerInput s i) then [shown s.realigner (realignerInput s i)]
  else []

def nextPipeline : Pipeline depth where
  front := (system depth).next s.front (frontInput s i)
  realigner := InstrRealigner.next s.realigner (realignerInput s i)
  requested :=
    if issueReq s.front.frontend (frontInput s i) then
      fetchAddress s.front.frontend (frontInput s i)
    else s.requested
  scannedLog := if i.front.flush then [] else s.scannedLog ++ scans s i
  shownLog := if i.front.flush then [] else s.shownLog ++ shows s i

end Cycle

def pipeline (depth : Nat) : Machine (Pipeline depth) PipelineInput := ⟨{}, nextPipeline⟩

/-- What the front end relies on: the cache answers with the address that was requested, which
is even, and the controller flushes whenever it redirects the front end. -/
structure Served (s : Pipeline depth) (i : PipelineInput) : Prop where
  answers : Answers s.front (frontInput s i)
  wired : Wired s.front (frontInput s i)
  redirects : i.front.eret = true ∨ i.front.exValid = true ∨ i.front.setPcCommit = true ∨
    i.front.setDebugPc = true → i.front.flush = true
  address : i.front.icache.valid = true → i.front.icache.vaddr = s.requested
  even : i.front.icache.valid = true → i.front.icache.vaddr.getLsbD 0 = false

instance decidableServed (s : Pipeline depth) (i : PipelineInput) : Decidable (Served s i) :=
  decidable_of_iff (Answers s.front (frontInput s i) ∧ Wired s.front (frontInput s i) ∧
      (i.front.eret = true ∨ i.front.exValid = true ∨ i.front.setPcCommit = true ∨
        i.front.setDebugPc = true → i.front.flush = true) ∧
      (i.front.icache.valid = true → i.front.icache.vaddr = s.requested) ∧
      (i.front.icache.valid = true → i.front.icache.vaddr.getLsbD 0 = false))
    ⟨fun h => ⟨h.1, h.2.1, h.2.2.1, h.2.2.2.1, h.2.2.2.2⟩,
      fun h => ⟨h.answers, h.wired, h.redirects, h.address, h.even⟩⟩

/-- The word that is scanned is clean. -/
def Plain (s : Pipeline depth) (i : PipelineInput) : Prop :=
  s.front.frontend.icacheValid = true → Clean i.front.predictions s.front.frontend.icacheWord

instance decidablePlain (s : Pipeline depth) (i : PipelineInput) : Decidable (Plain s i) :=
  inferInstanceAs (Decidable (_ → _))

/-- A fetch that starts at an upper half finds no first half of an instruction. -/
structure Starts (s : Pipeline depth) : Prop where
  word : s.front.frontend.icacheValid = true →
    s.front.frontend.icacheWord.vaddr.getLsbD 0 = false ∧
      (s.front.frontend.icacheWord.half = true → s.front.frontend.unaligned.unaligned = false)
  request : 0 < s.front.inFlight → s.requested.getLsbD 1 = true →
    s.front.frontend.icacheValid = false ∧ s.front.frontend.unaligned.unaligned = false
  npc : s.front.frontend.npcRstLoad = true ∨ s.front.frontend.npc.getLsbD 1 = true →
    s.front.inFlight = 0 ∧ s.front.frontend.icacheValid = false ∧
      s.front.frontend.unaligned.unaligned = false

/-- What was shown and what is still to be shown is what was scanned. -/
structure InStep (s : Pipeline depth) : Prop where
  conserved : Conserved s.front
  tracked : Tracked s.front
  starts : Starts s
  serves : Serves s.realigner (s.front.held.map FrontendFetch.toRealigner)
  log : s.shownLog ++ pending s.realigner (s.front.held.map FrontendFetch.toRealigner) =
    s.scannedLog
  leaves : leaves s.realigner (s.front.held.map FrontendFetch.toRealigner) =
    restOf s.front.frontend.unaligned

section Fetch

variable {s : Pipeline depth} {i : PipelineInput}

omit [Immediates] in
/-- The next word starts at a word boundary, unless the front end is redirected. -/
theorem aligned_npc (x : BitVec 64) :
    (((x.extractLsb' 2 62 ++ 0#2) : BitVec 64) + 4).getLsbD 1 = false := by
  have number : (((x.extractLsb' 2 62 ++ 0#2) : BitVec 64) + 4).toNat % 4 = 0 := by
    have four : (4 : BitVec (62 + 2)).toNat = 4 := rfl
    rw [BitVec.toNat_add, BitVec.toNat_append, four]
    simp only [BitVec.toNat_ofNat, Nat.or_zero, Nat.zero_mod, Nat.shiftLeft_eq]
    omega
  generalize (((x.extractLsb' 2 62 ++ 0#2) : BitVec 64) + 4) = y at number ⊢
  rw [BitVec.getLsbD, Nat.testBit_eq_decide_div_mod_eq]
  simp only [Nat.pow_one, decide_eq_false_iff_not]
  omega

section Frontend

variable {f : System depth} {i : Input}

/-- A kill leaves no word and no first half of an instruction. -/
theorem killed_next (answers : Answers f i) (killed : killS2 f.frontend i = true) :
    i.icache.valid = false ∧ (next f.frontend i).unaligned.unaligned = false := by
  constructor
  · by_contra valid
    have open_ := (answers (by simpa using valid)).2
    rw [killed] at open_
    contradiction
  · simp [next, killed]

theorem quiet_next (silent : f.frontend.icacheValid = false)
    (whole : f.frontend.unaligned.unaligned = false) :
    (next f.frontend i).unaligned.unaligned = false := by
  simp only [next, reAlign, silent]
  split <;> simp [whole]

theorem unanswered (answers : Answers f i) (none : f.inFlight = 0) : i.icache.valid = false := by
  by_contra valid
  have some := (answers (by simpa using valid)).1
  omega

/-- What is fetched is predicted or comes from the registers. -/
theorem fetchAddress_half (half : (fetchAddress f.frontend i).getLsbD 1 = true) :
    killS2 f.frontend i = true ∨ f.frontend.npcRstLoad = true ∨
      f.frontend.npc.getLsbD 1 = true := by
  rw [fetchAddress] at half
  cases predicts : (decision f.frontend i).bpValid with
  | true => simp [killS2, predicts]
  | false =>
      rw [predicts, if_neg Bool.false_ne_true] at half
      cases load : f.frontend.npcRstLoad with
      | true => simp
      | false =>
          rw [load, if_neg Bool.false_ne_true] at half
          simp only [half, or_true]

/-- The next program counter points to an upper half after a redirection, or when it could not
be fetched yet. -/
theorem nextNpc_half (half : (nextNpc f.frontend i).getLsbD 1 = true) :
    (isMispredict i = true ∨ i.eret = true ∨ i.exValid = true ∨ i.setPcCommit = true ∨
      i.setDebugPc = true) ∨
      (ifReady f.frontend i = false ∧ (fetchAddress f.frontend i).getLsbD 1 = true) := by
  by_contra none
  simp only [not_or, Bool.not_eq_true] at none
  obtain ⟨⟨predicted, eret, exception, commit, debug⟩, waits⟩ := none
  simp only [nextNpc, predicted, eret, exception, commit, debug, Bool.false_eq_true,
    ↓reduceIte] at half
  cases ready : ifReady f.frontend i with
  | true =>
      rw [ready, if_pos rfl, aligned_npc] at half
      contradiction
  | false =>
      rw [ready, if_neg Bool.false_ne_true] at half
      exact waits ⟨ready, half⟩

end Frontend

theorem Starts.step (starts : Starts s) (tracked : Tracked s.front) (served : Served s i) :
    Starts (nextPipeline s i) := by
  have answers := served.answers
  have single := tracked.single
  constructor
  · intro valid
    refine ⟨served.even valid, fun half => ?_⟩
    have asked : s.requested.getLsbD 1 = true := by
      rw [← served.address valid]
      exact half
    obtain ⟨silent, whole⟩ := starts.request (answers valid).1 asked
    exact quiet_next silent whole
  · intro flies half
    cases issues : issueReq s.front.frontend (frontInput s i) with
    | true =>
        have asked : (fetchAddress s.front.frontend (frontInput s i)).getLsbD 1 = true := by
          simpa [nextPipeline, issues] using half
        rcases fetchAddress_half asked with killed | held
        · exact killed_next answers killed
        · obtain ⟨none, silent, whole⟩ := starts.npc held
          exact ⟨unanswered answers none, quiet_next silent whole⟩
    | false =>
        have asked : s.requested.getLsbD 1 = true := by simpa [nextPipeline, issues] using half
        have left : 0 < nextRequests s.front (frontInput s i) := flies
        rw [nextRequests, issues] at left
        have running : killS2 s.front.frontend (frontInput s i) = false := by
          by_contra killed
          rw [if_pos (Bool.eq_true_of_not_eq_false killed)] at left
          contradiction
        simp only [running, Bool.false_eq_true, ↓reduceIte, Bool.toNat_false, Nat.add_zero] at left
        obtain ⟨silent, whole⟩ := starts.request (by omega) asked
        refine ⟨?_, quiet_next silent whole⟩
        show (frontInput s i).icache.valid = false
        by_contra valid
        rw [Bool.eq_true_of_not_eq_false valid, Bool.toNat_true] at left
        omega
  · intro half
    have next : (nextNpc s.front.frontend (frontInput s i)).getLsbD 1 = true := by
      simpa [nextPipeline, system, Frontend.next] using half
    have noRequest (issues : issueReq s.front.frontend (frontInput s i) = false)
        (killed : killS2 s.front.frontend (frontInput s i) = true) :
        nextRequests s.front (frontInput s i) = 0 := by
      simp [nextRequests, issues, killed]
    rcases nextNpc_half next with redirected | ⟨waits, asked⟩
    · have flush : i.front.flush = true := by
        rcases redirected with wrong | other
        · exact served.wired.mispredict wrong
        · exact served.redirects other
      have killed1 : killS1 (frontInput s i) = true := by simp [killS1, frontInput, flush]
      have killed : killS2 s.front.frontend (frontInput s i) = true := by simp [killS2, killed1]
      have issues : issueReq s.front.frontend (frontInput s i) = false := by
        simp [issueReq, killed1]
      exact ⟨noRequest issues killed, killed_next answers killed⟩
    · have issues : issueReq s.front.frontend (frontInput s i) = false := by
        simp [issueReq, waits]
      rcases fetchAddress_half asked with killed | held
      · exact ⟨noRequest issues killed, killed_next answers killed⟩
      · obtain ⟨none, silent, whole⟩ := starts.npc held
        have silent' := unanswered answers none
        refine ⟨?_, silent', quiet_next silent whole⟩
        show nextRequests s.front (frontInput s i) = 0
        simp [nextRequests, issues, none]

end Fetch

section Stream

variable {s : Pipeline depth} {i : PipelineInput}

/-- The entry that is pushed carries the word with the decision about it. -/
theorem carries_fetchEntry (f : State depth) (i : Input) :
    Carries (fetchEntry f i).toRealigner f.icacheWord (decision f i) := by
  constructor
  · rfl
  · rfl
  · simp [FrontendFetch.toRealigner, fetchEntry, InstrRealigner.FrontendFetch.predicted,
      Decision.bpValid]
  · cases first : (decision f i).taken1 <;> cases second : (decision f i).taken2 <;>
      simp [FrontendFetch.toRealigner, fetchEntry, InstrRealigner.FrontendFetch.firstPredicted,
        InstrRealigner.FrontendFetch.predicted, Decision.bpValid, first, second]

/-- Without a flush only a prediction kills. -/
theorem unaligned_next (served : Served s i) (running : i.front.flush = false) :
    (next s.front.frontend (frontInput s i)).unaligned =
      if s.front.frontend.icacheValid then
        afterWord s.front.frontend.unaligned s.front.frontend.icacheWord
          (decision s.front.frontend (frontInput s i))
      else s.front.frontend.unaligned := by
  have predicted : isMispredict (frontInput s i) = false := by
    by_contra wrong
    have flush : i.front.flush = true :=
      served.wired.mispredict (Bool.eq_true_of_not_eq_false wrong)
    rw [running] at flush
    contradiction
  have kills : killS2 s.front.frontend (frontInput s i) =
      (decision s.front.frontend (frontInput s i)).bpValid := by
    have same : (frontInput s i).flush = false := running
    simp [killS2, killS1, predicted, same]
  cases valid : s.front.frontend.icacheValid with
  | true => simp [next, kills, afterWord, reAlign, valid]
  | false =>
      have silent : (decision s.front.frontend (frontInput s i)).bpValid = false := by
        by_contra predicts
        have some := predicts_valid (Bool.eq_true_of_not_eq_false predicts)
        rw [valid] at some
        contradiction
      simp [next, kills, reAlign, valid, silent]

omit [Immediates] in
theorem InStep.showsFirst (inStep : InStep s) (running : i.front.flush = false) :
    InstrRealigner.ShowsFirst (s.front.held.map FrontendFetch.toRealigner)
      (realignerInput s i) where
  running := running
  valid := by
    have empty := inStep.conserved.holds.empty_iff
    show fetchEntryValid s.front.frontend = _
    rw [fetchEntryValid, List.isEmpty_map]
    cases held : s.front.held with
    | nil => rw [empty.mpr held]; rfl
    | cons e more =>
        rw [held] at empty
        have some : FifoV3.empty s.front.frontend.fifo = false := by
          simpa using empty
        rw [some]
        rfl
  entry e more held := by
    show (FifoV3.front s.front.frontend.fifo).toRealigner = e
    obtain ⟨x, rest, shape, rfl, -⟩ := List.map_eq_cons_iff.mp held
    have holds := inStep.conserved.holds
    rw [shape] at holds
    rw [holds.front]

/-- An entry leaves the FIFO when the re-aligner has used it up. -/
theorem map_nextHeld (running : i.front.flush = false) :
    (nextHeld s.front (frontInput s i)).map FrontendFetch.toRealigner =
      (if consumed s.realigner (realignerInput s i) then
        (s.front.held.map FrontendFetch.toRealigner).tail
      else s.front.held.map FrontendFetch.toRealigner) ++
        if s.front.frontend.icacheValid then
          [(fetchEntry s.front.frontend (frontInput s i)).toRealigner]
        else [] := by
  have pops : fifoPop s.front.frontend (frontInput s i) =
      consumed s.realigner (realignerInput s i) := Bool.and_comm ..
  have same : (frontInput s i).flush = false := running
  rw [nextHeld, same, if_neg Bool.false_ne_true, pops, List.map_append]
  congr 1
  · split <;> simp
  · split <;> simp

/-- What an entry will show is what is scanned of its word. -/
theorem InStep.scanned (inStep : InStep s) (plain : Plain s i)
    (valid : s.front.frontend.icacheValid = true) :
    let e := (fetchEntry s.front.frontend (frontInput s i)).toRealigner
    let u := s.front.frontend.unaligned
    InstrRealigner.emits (restOf u) e = scans s i ∧
      InstrRealigner.after (restOf u) e =
        restOf (afterWord u s.front.frontend.icacheWord
          (decision s.front.frontend (frontInput s i))) := by
  obtain ⟨even, whole⟩ := inStep.starts.word valid
  have carries := carries_fetchEntry s.front.frontend (frontInput s i)
  have own : decision s.front.frontend (frontInput s i) =
      frontendCtrl i.front.predictions
        (realign s.front.frontend.unaligned s.front.frontend.icacheWord)
        s.front.frontend.icacheWord.half := by
    rw [decision, reAlign, valid, if_pos rfl]
    rfl
  have placed := placed i.front.predictions s.front.frontend.unaligned
    s.front.frontend.icacheWord _ own
  have clean := fun half short => (plain valid half short).1
  refine ⟨?_, after_scanned carries placed whole clean⟩
  rw [scans, valid, if_pos rfl]
  exact emits_scanned carries placed even whole clean

theorem InStep.running (inStep : InStep s) (small : depth ≤ 8) (served : Served s i)
    (plain : Plain s i) (running : i.front.flush = false) : InStep (nextPipeline s i) := by
  have counted := inStep.tracked.counted served.wired
  have advanced := InstrRealigner.advanced inStep.serves (inStep.showsFirst running)
  have shown : (if accepted s.realigner (realignerInput s i) then
      [shown s.realigner (realignerInput s i)] else []) = shows s i := rfl
  have log := inStep.log
  have left := inStep.leaves
  have unaligned := unaligned_next served running
  have held := map_nextHeld (s := s) (i := i) running
  rw [advanced.pending, shown] at log
  rw [advanced.leaves] at left
  have logs : (nextPipeline s i).shownLog = s.shownLog ++ shows s i ∧
      (nextPipeline s i).scannedLog = s.scannedLog ++ scans s i := by
    simp [nextPipeline, running]
  have serves := advanced.serves
  -- the FIFO without the entry that was used up
  generalize (if consumed s.realigner (realignerInput s i) then
    (s.front.held.map FrontendFetch.toRealigner).tail
    else s.front.held.map FrontendFetch.toRealigner) = waiting at held log left serves
  refine ⟨(conserved_next inStep.conserved small served.answers).mpr counted,
    inStep.tracked.step served.answers served.wired, inStep.starts.step inStep.tracked served,
    ?_, ?_, ?_⟩
  · show Serves (InstrRealigner.next s.realigner (realignerInput s i))
      ((nextHeld s.front (frontInput s i)).map FrontendFetch.toRealigner)
    rw [held]
    cases s.front.frontend.icacheValid with
    | false => simpa using serves
    | true => exact InstrRealigner.serves_append serves _
  · rw [logs.1, logs.2]
    show _ ++ pending (InstrRealigner.next s.realigner (realignerInput s i))
      ((nextHeld s.front (frontInput s i)).map FrontendFetch.toRealigner) = _
    rw [held, ← log]
    cases valid : s.front.frontend.icacheValid with
    | false =>
        have none : scans s i = [] := by simp [scans, valid]
        simp [none]
    | true =>
        rw [if_pos rfl, InstrRealigner.pending_append serves, left,
          (inStep.scanned plain valid).1]
        simp
  · show InstrRealigner.leaves (InstrRealigner.next s.realigner (realignerInput s i))
      ((nextHeld s.front (frontInput s i)).map FrontendFetch.toRealigner) =
        restOf (next s.front.frontend (frontInput s i)).unaligned
    rw [held, unaligned]
    cases valid : s.front.frontend.icacheValid with
    | false => simpa using left
    | true =>
        rw [if_pos rfl, if_pos rfl, InstrRealigner.leaves_append serves, left,
          (inStep.scanned plain valid).2]

theorem InStep.flushed (inStep : InStep s) (small : depth ≤ 8) (served : Served s i)
    (flush : i.front.flush = true) : InStep (nextPipeline s i) := by
  have counted := inStep.tracked.counted served.wired
  have killed : killS2 s.front.frontend (frontInput s i) = true := by
    simp [killS2, killS1, frontInput, flush]
  have empty : (nextPipeline s i).front.held = [] := by
    show nextHeld s.front (frontInput s i) = []
    have flush' : (frontInput s i).flush = true := flush
    rw [nextHeld, if_pos flush']
  have whole : (nextPipeline s i).front.frontend.unaligned.unaligned = false :=
    (killed_next served.answers killed).2
  have regs : (nextPipeline s i).realigner.unaligned = false ∧
      (nextPipeline s i).realigner.compressed = false := by
    have flush' : (realignerInput s i).flush = true := flush
    simp [nextPipeline, InstrRealigner.next, realignInstr, InstrRealigner.flushed, flush']
  refine ⟨(conserved_next inStep.conserved small served.answers).mpr counted,
    inStep.tracked.step served.answers served.wired, inStep.starts.step inStep.tracked served,
    ?_, ?_, ?_⟩
  · constructor <;> simp [regs]
  · rw [empty]
    simp [pending, InstrRealigner.stream, nextPipeline, flush]
  · rw [empty]
    simp [InstrRealigner.leaves, regs, InstrRealigner.final, InstrRealigner.rest, restOf, whole]

theorem InStep.step (inStep : InStep s) (small : depth ≤ 8) (served : Served s i)
    (plain : Plain s i) : InStep (nextPipeline s i) := by
  cases flush : i.front.flush with
  | true => exact inStep.flushed small served flush
  | false => exact inStep.running small served plain flush

end Stream

omit [Immediates] in
theorem inStep_reset : InStep ({} : Pipeline depth) where
  conserved := conserved_reset
  tracked := ⟨by simp, by simp, by simp⟩
  starts := ⟨by simp, by simp, by simp⟩
  serves := ⟨by simp, by simp⟩
  log := rfl
  leaves := rfl

/-- The two re-aligners agree: what is shown is what was scanned, in order, each instruction
with the prediction that was made for it; nothing is missing once the FIFO is empty, and an
acknowledged cycle always shows an instruction or uses up an entry. A fetch from an upper half
on is predicted as that half alone would be. -/
structure Agree (s : Pipeline depth) (i : PipelineInput) : Prop where
  log : s.shownLog <+: s.scannedLog
  drained : s.front.held = [] → s.shownLog = s.scannedLog
  progress : i.front.flush = false → i.ack = true → s.front.held ≠ [] →
    accepted s.realigner (realignerInput s i) = true ∨
      consumed s.realigner (realignerInput s i) = true
  upper : s.front.frontend.icacheValid = true → s.front.frontend.icacheWord.half = true →
    s.front.frontend.icacheWord.upperCompressed = true →
    let d := decision s.front.frontend (frontInput s i)
    let own := upperPrediction i.front.predictions s.front.frontend.icacheWord
    d.taken1 = false ∧ d.taken2 = own.taken ∧ (d.taken2 = true → d.ctrl.bpVaddr = own.bpVaddr)

section Agreement

variable {s : Pipeline depth} {i : PipelineInput}

omit [Immediates] in
theorem InStep.progress (inStep : InStep s) (running : i.front.flush = false) (ack : i.ack = true)
    (some : s.front.held ≠ []) : accepted s.realigner (realignerInput s i) = true ∨
      consumed s.realigner (realignerInput s i) = true := by
  have shows := inStep.showsFirst running
  have valid : (realignerInput s i).fetchEntryValid = true := by
    rw [shows.valid]
    simpa using some
  have acks : (realignerInput s i).fetchAck = true := ack
  rw [InstrRealigner.accepted_eq, InstrRealigner.consumed_eq, valid, acks]
  cases second : s.realigner.compressed with
  | true => simp [(InstrRealigner.does_second (i := realignerInput s i) second).valid]
  | false =>
      have treats := InstrRealigner.treats valid second
      cases out : (InstrRealigner.emits (InstrRealigner.rest s.realigner)
          (realignerInput s i).fetchEntry) with
      | nil =>
          have last := (treats.last (by simp [out])).1
          simp [last, acks]
      | cons x more => simp [treats.valid, out]

theorem InStep.agree (inStep : InStep s) (plain : Plain s i) : Agree s i where
  log := ⟨_, inStep.log⟩
  drained empty := by
    have log := inStep.log
    have first : s.realigner.compressed = false := by
      by_contra second
      have some := inStep.serves.held (Bool.eq_true_of_not_eq_false second)
      simp [empty] at some
    simpa [empty, pending, first, InstrRealigner.stream] using log
  progress := inStep.progress
  upper valid half short := by
    have fresh := (inStep.starts.word valid).2 half
    have own := upper_own half short fresh (plain valid)
    have here : decision s.front.frontend (frontInput s i) =
        frontendCtrl i.front.predictions
          (realign s.front.frontend.unaligned s.front.frontend.icacheWord)
          s.front.frontend.icacheWord.half := by
      rw [decision, reAlign, valid, if_pos rfl]
      rfl
    rw [here]
    exact own

end Agreement

/-- In every run whose words are clean the two re-aligners agree. -/
theorem realigners_agree (depth : Nat) (small : depth ≤ 8) (inputs : List PipelineInput)
    (legal : (pipeline depth).Legal (fun s i => Served s i ∧ Plain s i) {} inputs)
    (i : PipelineInput) (plain : Plain ((pipeline depth).run inputs) i) :
    Agree ((pipeline depth).run inputs) i := by
  have inStep := (pipeline depth).run_invariant inStep_reset
    (fun _ _ inStep ok => inStep.step small ok.1 ok.2) legal
  exact inStep.agree plain

end Streams

/-- A compressed jump in the upper half of the first word leads to the upper half of the next
one, which holds `word`. -/
def jumpsTo (word : BitVec 32) : List PipelineInput :=
  [{ front := { icache := { ready := true } } },
    { front := { icache := { ready := true, valid := true, data := 0xa0110001 } } },
    { front := { icache := { ready := true } }, ack := true },
    { front := { icache := { valid := true, vaddr := 6, data := word } }, ack := true }]

theorem realigners_agree_jump : Agree ((pipeline 4).run (jumpsTo 0x00010001)) { ack := true } :=
  realigners_agree 4 (by decide) (jumpsTo 0x00010001) (by decide) { ack := true } (by decide)

/-- The halfword below the target looks like a jump, and the instruction at the target is
predicted taken. -/
theorem halfword_below_predicts : ¬ ∀ (depth : Nat) (inputs : List PipelineInput)
    (i : PipelineInput), depth ≤ 8 → (pipeline depth).Legal Served {} inputs →
    Agree ((pipeline depth).run inputs) i := by
  intro agree
  have wrong := agree 4 (jumpsTo 0x0001a001) { ack := true } (by decide) (by decide)
  exact absurd (wrong.upper (by decide) (by decide) (by decide)).2.1 (by decide)

end Ariane.Frontend
