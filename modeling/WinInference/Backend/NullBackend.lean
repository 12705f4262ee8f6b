import WinInference.Scheduler.State

/-!
# The null backend

`NullBackend` (`backend/null_backend.cpp`), the runtime behind the server, and
the check of the configuration it is given (`main.cpp`).  Only the token that it
prefers is compared with the vocabulary before the logits are written.

The generator is the stream of what it will draw.  `written` is a history
variable.
-/

namespace Qwen

/-! ## Configuration -/

/-- Model configuration, as far as it is checked or used. -/
structure ModelConfig where
  modelPath : String := ""
  maxSeqLen : Int := 70000
  vocabSize : Int := 152064

/-- Server configuration, as far as it is checked. -/
structure ServerConfiguration where
  port : Int := 8080
  scheduler : SchedulerConfig := {}
  model : ModelConfig := {}
  kvCache : KVAllocatorConfig := {}
  gpuDeviceIds : List Int := [0, 1]

/-- Validate configuration values: an error message, or an empty string. -/
def validateConfig (config : ServerConfiguration) (requireModelPath : Bool) : String :=
  if config.port ≤ 0 ∨ config.port > 65535 then
    "Invalid port: " ++ toString config.port ++ " (must be 1-65535)"
  else if config.scheduler.maxQueueSize = 0 then "max_queue_size must be > 0"
  else if config.scheduler.maxActiveRequests = 0 then "max_active_requests must be > 0"
  else if config.model.maxSeqLen ≤ 0 then "max_seq_len must be > 0"
  else if config.model.vocabSize ≤ 0 then "vocab_size must be > 0"
  else if requireModelPath && config.model.modelPath.isEmpty then "model.path is required"
  else
    match config.gpuDeviceIds.find? fun deviceId => deviceId < 0 with
    | some deviceId => "Invalid gpu.device_id: " ++ toString deviceId
    | none =>
        match config.kvCache.deviceIds.find? fun deviceId => deviceId < 0 with
        | some deviceId => "Invalid kv_cache.device_id: " ++ toString deviceId
        | none => ""

/-! ## The backend -/

/-- The outcome of the random draws of one call. -/
structure Draws where
  tokens : Fin 10 → Fin 1001
  chance : Rat
  nonneg : 0 ≤ chance
  lt_one : chance < 1

/-- Prefill result. -/
structure PrefillOutput where
  logits : Logits
  processedTokens : Int

/-- The null backend.  `rng n` is what its generator draws in the `n`th call that
draws from now on, and `written` records the indices that were written to. -/
structure NullBackend where
  config : ModelConfig := {}
  loaded : Bool := false
  rng : Nat → Draws
  outputSequence : List Int := []
  outputIndex : Nat := 0
  /-- the indices that `generate_fake_logits` has written -/
  written : List Int := []

namespace NullBackend

/-- Qwen EOS. -/
def eosTokenId : Int := 151645

/-- Nothing is loaded but the flag. -/
def loadModel (b : NullBackend) : NullBackend := { b with loaded := true }

/-- The flag is taken back. -/
def unloadModel (b : NullBackend) : NullBackend := { b with loaded := false }

/-- `seeded` is what the generator draws after it is seeded. -/
def setSeed (seeded : Nat → Nat → Draws) (b : NullBackend) (seed : Nat) : NullBackend :=
  { b with rng := seeded (seed % 2 ^ 32), outputIndex := 0 }

/-- Predetermine the coming tokens, from the first one on. -/
def setOutputSequence (b : NullBackend) (tokens : List Int) : NullBackend :=
  { b with outputSequence := tokens, outputIndex := 0 }

/-- Some random high logits for common tokens, and sometimes EOS. -/
def randomWrites (d : Draws) : List (Int × Rat) :=
  (List.finRange 10).map (fun i => ((d.tokens i : Int), 5 - (i : Nat) * (1 / 2 : Rat))) ++
    if d.chance < 1 / 100 then [(eosTokenId, 10)] else []

/-- The token is in the vocabulary. -/
def InVocab (b : NullBackend) (token : Int) : Prop := 0 ≤ token ∧ token < b.config.vocabSize

instance (b : NullBackend) (token : Int) : Decidable (b.InVocab token) :=
  inferInstanceAs (Decidable (_ ∧ _))

/-- Logits with a high value for the preferred token, or random ones when there is
none in the vocabulary. -/
def generateFakeLogits (b : NullBackend) (preferredToken : Int) : Logits × NullBackend :=
  let (writes, rng) :=
    if b.InVocab preferredToken then ([(preferredToken, 10)], b.rng)
    else (randomWrites (b.rng 0), fun n => b.rng (n + 1))
  -- low base logit
  let base := List.replicate (toSize b.config.vocabSize) (-10 : Rat)
  ({ data := writes.foldl (fun data w => data.set (toSize w.1) w.2) base
     vocabSize := b.config.vocabSize },
    { b with rng := rng, written := b.written ++ writes.map Prod.fst })

/-- What `prefill` and `decode_step` check first. -/
def checkReady (b : NullBackend) (cancelled : Bool) : Result Unit :=
  if !b.loaded then .error (.internal "Model not loaded")
  else if cancelled then .error (.internal "Request cancelled")
  else .ok ()

/-- Prefill draws random logits and counts the prompt. -/
def prefill (b : NullBackend) (seqLen : Int) (cancelled : Bool) :
    Result PrefillOutput × NullBackend :=
  match b.checkReady cancelled with
  | .error e => (.error e, b)
  | .ok () =>
      let (logits, b) := b.generateFakeLogits (-1)
      (.ok { logits := logits, processedTokens := seqLen }, b)

/-- The next token of the predetermined sequence. -/
def preferred (b : NullBackend) : Int := (b.outputSequence[b.outputIndex]?).getD (-1)

/-- A decode step goes on in the predetermined sequence, and past its end draws. -/
def decodeStep (b : NullBackend) (cancelled : Bool) : Result Logits × NullBackend :=
  match b.checkReady cancelled with
  | .error e => (.error e, b)
  | .ok () =>
      let outputIndex :=
        if b.outputIndex < b.outputSequence.length then b.outputIndex + 1 else b.outputIndex
      let (logits, b) := { b with outputIndex := outputIndex }.generateFakeLogits b.preferred
      (.ok logits, b)

/-- One entry of `cancelled` for each request of the batch. -/
def decodeBatch (b : NullBackend) : List Bool → Result (List Logits) × NullBackend
  | [] => (.ok [], b)
  | cancelled :: rest =>
      match b.decodeStep cancelled with
      | (.error e, b) => (.error e, b)
      | (.ok logits, b) =>
          match b.decodeBatch rest with
          | (.error e, b) => (.error e, b)
          | (.ok outputs, b) => (.ok (logits :: outputs), b)

/-! ## Runs -/

/-- A call of the backend.  The token of a request may be cancelled by then. -/
inductive Call where
  | loadModel
  | unloadModel
  | setSeed (seed : Nat)
  | setOutputSequence (tokens : List Int)
  | prefill (seqLen : Int) (cancelled : Bool)
  | decodeStep (cancelled : Bool)
  | decodeBatch (cancelled : List Bool)

/-- What a call leaves of the backend. -/
def call (seeded : Nat → Nat → Draws) (b : NullBackend) : Call → NullBackend
  | .loadModel => b.loadModel
  | .unloadModel => b.unloadModel
  | .setSeed seed => b.setSeed seeded seed
  | .setOutputSequence tokens => b.setOutputSequence tokens
  | .prefill seqLen cancelled => (b.prefill seqLen cancelled).2
  | .decodeStep cancelled => (b.decodeStep cancelled).2
  | .decodeBatch cancelled => (b.decodeBatch cancelled).2

/-- A backend that is constructed, initialized and then called. -/
def run (seeded : Nat → Nat → Draws) (config : ModelConfig) (calls : List Call) : NullBackend :=
  calls.foldl (call seeded) { config := config, rng := seeded 42 }

/-! ## What a call writes -/

/-- The model is loaded and the request goes on. -/
def Ready (b : NullBackend) (cancelled : Bool) : Prop := b.loaded = true ∧ cancelled = false

instance (b : NullBackend) (cancelled : Bool) : Decidable (b.Ready cancelled) :=
  inferInstanceAs (Decidable (_ ∧ _))

variable {b b' : NullBackend} {cancelled : Bool} {seeded : Nat → Nat → Draws}

/-- A ready backend passes the checks. -/
theorem Ready.check (h : b.Ready cancelled) : b.checkReady cancelled = .ok () := by
  unfold checkReady
  rw [h.1, h.2]
  rfl

/-- Any other is turned away. -/
theorem check_of_not_ready (h : ¬ b.Ready cancelled) :
    ∃ e, b.checkReady cancelled = .error e := by
  unfold checkReady
  by_cases hloaded : b.loaded = true
  · have hcancelled : cancelled = true := by
      by_contra hnot
      exact h ⟨hloaded, Bool.eq_false_iff.mpr hnot⟩
    rw [hloaded, hcancelled]
    exact ⟨_, rfl⟩
  · rw [Bool.eq_false_iff.mpr hloaded]
    exact ⟨_, rfl⟩

/-- What a prefill leaves of the backend. -/
theorem prefill_state (b : NullBackend) (seqLen : Int) (cancelled : Bool) :
    (b.prefill seqLen cancelled).2 =
      if b.Ready cancelled then (b.generateFakeLogits (-1)).2 else b := by
  unfold prefill
  by_cases h : b.Ready cancelled
  · rw [if_pos h, h.check]
  · obtain ⟨e, he⟩ := check_of_not_ready h
    rw [if_neg h, he]

/-- What a decode step leaves of it. -/
theorem decodeStep_state (b : NullBackend) (cancelled : Bool) :
    (b.decodeStep cancelled).2 =
      if b.Ready cancelled then
        ({ b with outputIndex :=
          if b.outputIndex < b.outputSequence.length then b.outputIndex + 1
          else b.outputIndex }.generateFakeLogits b.preferred).2
      else b := by
  unfold decodeStep
  by_cases h : b.Ready cancelled
  · rw [if_pos h, h.check]
  · obtain ⟨e, he⟩ := check_of_not_ready h
    rw [if_neg h, he]

/-- A batch goes on as long as its requests do. -/
theorem decodeBatch_state (b : NullBackend) (cancelled : Bool) (rest : List Bool) :
    (b.decodeBatch (cancelled :: rest)).2 =
      if b.Ready cancelled then ((b.decodeStep cancelled).2.decodeBatch rest).2 else b := by
  rw [decodeBatch]
  by_cases h : b.Ready cancelled
  · rw [if_pos h]
    unfold decodeStep
    rw [h.check]
    dsimp only
    split
    next _ _ hrest => rw [hrest]
    next _ _ hrest => rw [hrest]
  · obtain ⟨e, he⟩ := check_of_not_ready h
    rw [if_neg h]
    unfold decodeStep
    rw [he]

/-- Random writes end at the EOS token. -/
theorem mem_randomWrites {d : Draws} {i : Int} (h : i ∈ (randomWrites d).map Prod.fst) :
    0 ≤ i ∧ i ≤ eosTokenId := by
  unfold randomWrites at h
  rw [List.map_append, List.mem_append, List.map_map] at h
  rcases h with h | h
  · obtain ⟨k, -, rfl⟩ := List.mem_map.mp h
    have hlt := (d.tokens k).isLt
    have heos : eosTokenId = 151645 := rfl
    dsimp only [Function.comp_apply]
    omega
  · split at h
    · rw [List.mem_singleton.mp h]
      decide
    · exact absurd h List.not_mem_nil

/-- The draws of which the chance comes out for EOS. -/
def eosDraws : Draws where
  tokens _ := 0
  chance := 0
  nonneg := by decide
  lt_one := by decide

/-- They reach it when the chance comes out. -/
theorem eos_mem_randomWrites : eosTokenId ∈ (randomWrites eosDraws).map Prod.fst := by
  have hchance : eosDraws.chance < 1 / 100 := by decide +kernel
  unfold randomWrites
  rw [if_pos hchance]
  simp

/-- What a call that goes on writes to. -/
theorem generate_written (b : NullBackend) (token : Int) :
    (b.generateFakeLogits token).2.written =
      b.written ++ if b.InVocab token then [token] else (randomWrites (b.rng 0)).map Prod.fst := by
  unfold generateFakeLogits
  by_cases h : b.InVocab token
  · rw [if_pos h, if_pos h]
    rfl
  · rw [if_neg h, if_neg h]

/-- It draws unless the token is in the vocabulary. -/
theorem generate_rng (b : NullBackend) (token : Int) :
    (b.generateFakeLogits token).2.rng =
      if b.InVocab token then b.rng else fun n => b.rng (n + 1) := by
  unfold generateFakeLogits
  by_cases h : b.InVocab token
  · rw [if_pos h, if_pos h]
  · rw [if_neg h, if_neg h]

/-- Two backends differ in their draws and in what they have written at most. -/
structure SameControl (b b' : NullBackend) : Prop where
  config_eq : b'.config = b.config
  loaded_eq : b'.loaded = b.loaded
  outputSequence_eq : b'.outputSequence = b.outputSequence
  outputIndex_eq : b'.outputIndex = b.outputIndex

/-- Draws and writes are no part of the control. -/
theorem SameControl.generate_left (b : NullBackend) (token : Int) :
    SameControl b (b.generateFakeLogits token).2 := by
  unfold generateFakeLogits
  by_cases h : b.InVocab token
  · rw [if_pos h]
    exact ⟨rfl, rfl, rfl, rfl⟩
  · rw [if_neg h]
    exact ⟨rfl, rfl, rfl, rfl⟩

/-! ## Steering -/

/-- A decode step that goes on has a predetermined token of the vocabulary. -/
def Steered (b : NullBackend) (cancelled : Bool) : Prop :=
  b.Ready cancelled → b.InVocab b.preferred

/-- Every entry of the batch that goes on is steered when its turn comes. -/
def SteeredBatch (b : NullBackend) : List Bool → Prop
  | [] => True
  | cancelled :: rest =>
      b.Steered cancelled ∧ (b.Ready cancelled → (b.decodeStep cancelled).2.SteeredBatch rest)

/-- The call draws nothing: no prefill goes on, and every decode step that does
is steered. -/
def Steers (b : NullBackend) : Call → Prop
  | .prefill _ cancelled => ¬ b.Ready cancelled
  | .decodeStep cancelled => b.Steered cancelled
  | .decodeBatch cancelled => b.SteeredBatch cancelled
  | _ => True

/-- No call of a run draws anything. -/
def SteersRun (seeded : Nat → Nat → Draws) (b : NullBackend) : List Call → Prop
  | [] => True
  | c :: rest => b.Steers c ∧ (b.call seeded c).SteersRun seeded rest

/-! ### Inside the vocabulary -/

/-- Everything written so far is inside of the logits. -/
def Contained (b : NullBackend) : Prop := ∀ i ∈ b.written, b.InVocab i

/-- Logits stay inside when the vocabulary has the EOS token, or the token is in it. -/
theorem Contained.generate (h : b.Contained) {token : Int}
    (htoken : eosTokenId < b.config.vocabSize ∨ b.InVocab token) :
    (b.generateFakeLogits token).2.Contained := by
  intro i hi
  have hconfig := (SameControl.generate_left b token).config_eq
  unfold InVocab
  rw [hconfig]
  rw [generate_written, List.mem_append] at hi
  rcases hi with hi | hi
  · exact h i hi
  · by_cases hin : b.InVocab token
    · rw [if_pos hin] at hi
      rw [List.mem_singleton.mp hi]
      exact hin
    · rw [if_neg hin] at hi
      have hbounds := mem_randomWrites hi
      exact ⟨hbounds.1, lt_of_le_of_lt hbounds.2 (htoken.resolve_right hin)⟩

/-- A decode step leaves the configuration alone. -/
theorem decodeStep_config (b : NullBackend) (cancelled : Bool) :
    (b.decodeStep cancelled).2.config = b.config := by
  rw [decodeStep_state]
  split
  · exact (SameControl.generate_left _ _).config_eq
  · rfl

/-- Then no decode step writes outside. -/
theorem Contained.decodeStep (h : b.Contained)
    (hsteered : eosTokenId < b.config.vocabSize ∨ b.Steered cancelled) :
    (b.decodeStep cancelled).2.Contained := by
  rw [decodeStep_state]
  split
  next hready => exact Contained.generate h (hsteered.imp_right fun hs => hs hready)
  next => exact h

/-- Nor does a batch of them. -/
theorem Contained.decodeBatch (h : b.Contained) {batch : List Bool}
    (hsteered : eosTokenId < b.config.vocabSize ∨ b.SteeredBatch batch) :
    (b.decodeBatch batch).2.Contained := by
  induction batch generalizing b with
  | nil => exact h
  | cons cancelled rest ih =>
      rw [decodeBatch_state]
      split
      next hready =>
        refine ih (h.decodeStep (hsteered.imp_right And.left)) ?_
        rw [decodeStep_config]
        exact hsteered.imp_right fun hs => hs.2 hready
      next => exact h

/-- Nor does any other call. -/
theorem Contained.call (h : b.Contained) {c : Call}
    (hsteers : eosTokenId < b.config.vocabSize ∨ b.Steers c) :
    (b.call seeded c).Contained := by
  cases c with
  | loadModel => exact h
  | unloadModel => exact h
  | setSeed seed => exact h
  | setOutputSequence tokens => exact h
  | prefill seqLen cancelled =>
      unfold NullBackend.call
      dsimp only
      rw [prefill_state]
      split
      next hready => exact h.generate (.inl (hsteers.resolve_right fun hs => hs hready))
      next => exact h
  | decodeStep cancelled => exact h.decodeStep hsteers
  | decodeBatch batch => exact h.decodeBatch hsteers

/-- No call changes the configuration. -/
theorem call_config (b : NullBackend) (c : Call) : (b.call seeded c).config = b.config := by
  have hbatch : ∀ (batch : List Bool) (b : NullBackend),
      (b.decodeBatch batch).2.config = b.config := by
    intro batch
    induction batch with
    | nil => exact fun b => rfl
    | cons cancelled rest ih =>
        intro b
        rw [decodeBatch_state]
        split
        · rw [ih, decodeStep_config]
        · rfl
  cases c with
  | loadModel => rfl
  | unloadModel => rfl
  | setSeed seed => rfl
  | setOutputSequence tokens => rfl
  | prefill seqLen cancelled =>
      unfold NullBackend.call
      dsimp only
      rw [prefill_state]
      split
      · exact (SameControl.generate_left _ _).config_eq
      · rfl
  | decodeStep cancelled => exact decodeStep_config b cancelled
  | decodeBatch batch => exact hbatch batch b

/-- A run keeps what it writes inside of the logits. -/
theorem Contained.run (h : b.Contained) {calls : List Call}
    (hsteers : eosTokenId < b.config.vocabSize ∨ b.SteersRun seeded calls) :
    (calls.foldl (NullBackend.call seeded) b).Contained := by
  induction calls generalizing b with
  | nil => exact h
  | cons c rest ih =>
      rw [List.foldl_cons]
      refine ih (h.call (hsteers.imp_right And.left)) ?_
      rw [call_config]
      exact hsteers.imp_right And.right

/-! ### Draws that come out for EOS -/

/-- Every draw comes out for EOS. -/
def Rigged (b : NullBackend) : Prop := b.rng = fun _ => eosDraws

/-- The backend that starts with rigged draws. -/
theorem rigged_start (config : ModelConfig) :
    Rigged { config := config, rng := fun _ => eosDraws } := rfl

/-- With rigged draws, logits without a preferred token reach EOS. -/
theorem generate_rigged (h : b.Rigged) (token : Int) :
    (b.generateFakeLogits token).2.Rigged ∧
      (∀ i ∈ b.written, i ∈ (b.generateFakeLogits token).2.written) ∧
      (¬ b.InVocab token → eosTokenId ∈ (b.generateFakeLogits token).2.written) := by
  unfold Rigged at h ⊢
  rw [generate_rng, generate_written, h]
  refine ⟨by split <;> rfl, fun i hi => List.mem_append_left _ hi, fun hout => ?_⟩
  rw [if_neg hout]
  exact List.mem_append_right _ eos_mem_randomWrites

/-- So does a decode step that is not steered. -/
theorem decodeStep_rigged (h : b.Rigged) (cancelled : Bool) :
    (b.decodeStep cancelled).2.Rigged ∧
      (∀ i ∈ b.written, i ∈ (b.decodeStep cancelled).2.written) ∧
      (¬ b.Steered cancelled → eosTokenId ∈ (b.decodeStep cancelled).2.written) := by
  rw [decodeStep_state]
  split
  next hready =>
    obtain ⟨hrigged, hkept, heos⟩ := generate_rigged (b := { b with outputIndex := _ }) h b.preferred
    refine ⟨hrigged, hkept, fun hnot => heos fun hin => hnot fun _ => hin⟩
  next hready => exact ⟨h, fun i hi => hi, fun hnot => absurd (fun hs => absurd hs hready) hnot⟩

/-- So does a batch with such a step. -/
theorem decodeBatch_rigged (h : b.Rigged) (batch : List Bool) :
    (b.decodeBatch batch).2.Rigged ∧
      (∀ i ∈ b.written, i ∈ (b.decodeBatch batch).2.written) ∧
      (¬ b.SteeredBatch batch → eosTokenId ∈ (b.decodeBatch batch).2.written) := by
  induction batch generalizing b with
  | nil => exact ⟨h, fun i hi => hi, fun hnot => absurd trivial hnot⟩
  | cons cancelled rest ih =>
      rw [decodeBatch_state]
      split
      next hready =>
        obtain ⟨hrigged, hkept, heos⟩ := decodeStep_rigged h cancelled
        obtain ⟨hrigged', hkept', heos'⟩ := ih hrigged
        refine ⟨hrigged', fun i hi => hkept' i (hkept i hi), fun hnot => ?_⟩
        by_cases hsteered : b.Steered cancelled
        · exact heos' fun hrest => hnot ⟨hsteered, fun _ => hrest⟩
        · exact hkept' _ (heos hsteered)
      next hready =>
        refine ⟨h, fun i hi => hi, fun hnot => absurd ?_ hnot⟩
        exact ⟨fun hs => absurd hs hready, fun hs => absurd hs hready⟩

/-- So does every call that does not steer. -/
theorem call_rigged (h : b.Rigged) (hseeded : seeded = fun _ _ => eosDraws) (c : Call) :
    (b.call seeded c).Rigged ∧ (∀ i ∈ b.written, i ∈ (b.call seeded c).written) ∧
      (¬ b.Steers c → eosTokenId ∈ (b.call seeded c).written) := by
  have hquiet : b.Rigged ∧ (∀ i ∈ b.written, i ∈ b.written) ∧
      (¬ True → eosTokenId ∈ b.written) := ⟨h, fun i hi => hi, fun hnot => absurd trivial hnot⟩
  cases c with
  | loadModel => exact hquiet
  | unloadModel => exact hquiet
  | setSeed seed => exact ⟨congrFun hseeded _, hquiet.2⟩
  | setOutputSequence tokens => exact hquiet
  | prefill seqLen cancelled =>
      unfold NullBackend.call Steers
      dsimp only
      rw [prefill_state]
      split
      next hready =>
        obtain ⟨hrigged, hkept, heos⟩ := generate_rigged h (-1)
        exact ⟨hrigged, hkept, fun _ => heos fun hin => absurd hin.1 (by decide)⟩
      next hready => exact ⟨h, fun i hi => hi, fun hnot => absurd hready hnot⟩
  | decodeStep cancelled => exact decodeStep_rigged h cancelled
  | decodeBatch batch => exact decodeBatch_rigged h batch

/-- With rigged draws, a run that draws at all writes EOS. -/
theorem run_rigged (h : b.Rigged) (hseeded : seeded = fun _ _ => eosDraws) {calls : List Call} :
    (∀ i ∈ b.written, i ∈ (calls.foldl (call seeded) b).written) ∧
      (¬ b.SteersRun seeded calls → eosTokenId ∈ (calls.foldl (call seeded) b).written) := by
  induction calls generalizing b with
  | nil => exact ⟨fun i hi => hi, fun hnot => absurd trivial hnot⟩
  | cons c rest ih =>
      rw [List.foldl_cons]
      obtain ⟨hrigged, hkept, heos⟩ := call_rigged h hseeded c
      obtain ⟨hkept', heos'⟩ := ih hrigged
      refine ⟨fun i hi => hkept' i (hkept i hi), fun hnot => ?_⟩
      by_cases hsteers : b.Steers c
      · exact heos' fun hrest => hnot ⟨hsteers, hrest⟩
      · exact hkept' _ (heos hsteers)

/-! ### The draws do not matter for steering -/

/-- Sharing the control is transitive. -/
theorem SameControl.trans (h : SameControl b b') {b'' : NullBackend} (h' : SameControl b' b'') :
    SameControl b b'' :=
  ⟨h'.config_eq.trans h.config_eq, h'.loaded_eq.trans h.loaded_eq,
    h'.outputSequence_eq.trans h.outputSequence_eq, h'.outputIndex_eq.trans h.outputIndex_eq⟩

/-- It is symmetric. -/
theorem SameControl.symm (h : SameControl b b') : SameControl b' b :=
  ⟨h.config_eq.symm, h.loaded_eq.symm, h.outputSequence_eq.symm, h.outputIndex_eq.symm⟩

/-- The logits leave the control alone, whatever is drawn. -/
theorem SameControl.generate (h : SameControl b b') (token token' : Int) :
    SameControl (b.generateFakeLogits token).2 (b'.generateFakeLogits token').2 :=
  (SameControl.generate_left b token).symm.trans (h.trans (SameControl.generate_left b' token'))

/-- Backends of the same control are ready together. -/
theorem SameControl.ready (h : SameControl b b') : b'.Ready cancelled ↔ b.Ready cancelled := by
  unfold Ready
  rw [h.loaded_eq]

/-- They are steered together. -/
theorem SameControl.steered (h : SameControl b b') :
    b'.Steered cancelled ↔ b.Steered cancelled := by
  unfold Steered InVocab preferred
  rw [h.ready, h.config_eq, h.outputSequence_eq, h.outputIndex_eq]

/-- A decode step takes both on alike. -/
theorem SameControl.decodeStep (h : SameControl b b') (cancelled : Bool) :
    SameControl (b.decodeStep cancelled).2 (b'.decodeStep cancelled).2 := by
  rw [decodeStep_state, decodeStep_state]
  by_cases hready : b.Ready cancelled
  · rw [if_pos hready, if_pos (h.ready.mpr hready)]
    apply SameControl.generate
    refine ⟨h.config_eq, h.loaded_eq, h.outputSequence_eq, ?_⟩
    rw [h.outputSequence_eq, h.outputIndex_eq]
  · rw [if_neg hready, if_neg fun h' => hready (h.ready.mp h')]
    exact h

/-- A batch of steps takes both on alike. -/
theorem SameControl.decodeBatch (h : SameControl b b') (batch : List Bool) :
    SameControl (b.decodeBatch batch).2 (b'.decodeBatch batch).2 ∧
      (b'.SteeredBatch batch ↔ b.SteeredBatch batch) := by
  induction batch generalizing b b' with
  | nil => exact ⟨h, Iff.rfl⟩
  | cons cancelled rest ih =>
      obtain ⟨hsame, hsteered⟩ := ih (h.decodeStep cancelled)
      refine ⟨?_, ?_⟩
      · rw [decodeBatch_state, decodeBatch_state]
        by_cases hready : b.Ready cancelled
        · rw [if_pos hready, if_pos (h.ready.mpr hready)]
          exact hsame
        · rw [if_neg hready, if_neg fun h' => hready (h.ready.mp h')]
          exact h
      · unfold SteeredBatch
        rw [h.steered, h.ready, hsteered]

/-- Every call takes both on alike. -/
theorem SameControl.call (h : SameControl b b') (seeded seeded' : Nat → Nat → Draws) (c : Call) :
    SameControl (b.call seeded c) (b'.call seeded' c) ∧ (b'.Steers c ↔ b.Steers c) := by
  cases c with
  | loadModel => exact ⟨⟨h.config_eq, rfl, h.outputSequence_eq, h.outputIndex_eq⟩, Iff.rfl⟩
  | unloadModel => exact ⟨⟨h.config_eq, rfl, h.outputSequence_eq, h.outputIndex_eq⟩, Iff.rfl⟩
  | setSeed seed => exact ⟨⟨h.config_eq, h.loaded_eq, h.outputSequence_eq, rfl⟩, Iff.rfl⟩
  | setOutputSequence tokens => exact ⟨⟨h.config_eq, h.loaded_eq, rfl, rfl⟩, Iff.rfl⟩
  | prefill seqLen cancelled =>
      refine ⟨?_, not_congr h.ready⟩
      unfold NullBackend.call
      dsimp only
      rw [prefill_state, prefill_state]
      by_cases hready : b.Ready cancelled
      · rw [if_pos hready, if_pos (h.ready.mpr hready)]
        exact h.generate _ _
      · rw [if_neg hready, if_neg fun h' => hready (h.ready.mp h')]
        exact h
  | decodeStep cancelled => exact ⟨h.decodeStep cancelled, h.steered⟩
  | decodeBatch batch => exact h.decodeBatch batch

/-- So whether a run steers does not depend on the draws. -/
theorem SameControl.steersRun (h : SameControl b b') (seeded seeded' : Nat → Nat → Draws)
    (calls : List Call) : b'.SteersRun seeded' calls ↔ b.SteersRun seeded calls := by
  induction calls generalizing b b' with
  | nil => exact Iff.rfl
  | cons c rest ih =>
      obtain ⟨hsame, hsteers⟩ := h.call seeded seeded' c
      unfold SteersRun
      rw [hsteers, ih hsame]

/-- No run changes the configuration. -/
theorem run_config (config : ModelConfig) (calls : List Call) :
    (run seeded config calls).config = config := by
  have hfold : ∀ b : NullBackend, (calls.foldl (call seeded) b).config = b.config := by
    induction calls with
    | nil => exact fun b => rfl
    | cons c rest ih =>
        intro b
        rw [List.foldl_cons, ih, call_config]
  exact hfold _

/-- **Inside the logits.**  Whatever is drawn, a run writes inside of the logits
only if and only if EOS is in the vocabulary or the run draws nothing.  So all
runs do if and only if EOS is in the vocabulary. -/
theorem run_contained_iff (config : ModelConfig) :
    (∀ calls, (∀ seeded, (run seeded config calls).Contained) ↔
      eosTokenId < config.vocabSize ∨
        ∀ seeded, SteersRun seeded { config := config, rng := seeded 42 } calls) ∧
    ((∀ calls seeded, (run seeded config calls).Contained) ↔ eosTokenId < config.vocabSize) := by
  have hrun : ∀ calls, (∀ seeded, (run seeded config calls).Contained) ↔
      eosTokenId < config.vocabSize ∨
        ∀ seeded, SteersRun seeded { config := config, rng := seeded 42 } calls := by
    intro calls
    constructor
    · intro hcontained
      by_contra hnot
      obtain ⟨hsmall, hdraws⟩ := not_or.mp hnot
      obtain ⟨seeded, hsteers⟩ := not_forall.mp hdraws
      -- steering does not depend on the draws, so rigged ones write EOS
      have hnot' : ¬ SteersRun (fun _ _ => eosDraws)
          { config := config, rng := fun _ => eosDraws } calls := by
        intro hs
        refine hsteers ((SameControl.steersRun ?_ _ seeded calls).mpr hs)
        exact ⟨rfl, rfl, rfl, rfl⟩
      have hwritten := (run_rigged (rigged_start _) rfl).2 hnot'
      have hin := hcontained (fun _ _ => eosDraws) _ hwritten
      unfold InVocab at hin
      rw [run_config] at hin
      exact hsmall hin.2
    · rintro hsteers seeded
      refine Contained.run (fun i hi => absurd hi List.not_mem_nil) ?_
      exact hsteers.imp_right fun hs => hs seeded
  refine ⟨hrun, fun hall => ?_, fun heos calls => (hrun calls).mpr (.inl heos)⟩
  refine ((hrun [.loadModel, .prefill 1 false]).mp (hall _)).resolve_right fun hsteers => ?_
  exact (hsteers fun _ _ => eosDraws).2.1 ⟨rfl, rfl⟩

/-- A small vocabulary, one prefill, and draws that come out for EOS. -/
theorem run_outside :
    validateConfig { model := { vocabSize := 1000 } } false = "" ∧
      ∃ seeded calls, eosTokenId ∈ (run seeded { vocabSize := 1000 } calls).written ∧
        ¬ eosTokenId < 1000 := by
  refine ⟨by decide, fun _ _ => eosDraws, [.loadModel, .prefill 1 false], ?_, by decide⟩
  exact (run_rigged (rigged_start _) rfl).2 fun hsteers => hsteers.2.1 ⟨rfl, rfl⟩

end NullBackend

end Qwen
