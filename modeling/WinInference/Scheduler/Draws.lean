import Mathlib.Data.Rat.Floor
import WinInference.Core.Nucleus
import WinInference.Core.StopChecker

/-!
# The draws of a decode loop

`run_decode_step` (`scheduler/scheduler.cpp`) with the sampler that it calls.
The decode thread runs its turns one after the other, for any number of requests
on one sampler; what other threads and the model do shows in the answers of a
turn.

`draws` is a history: for each output token the generator state it was sampled
from and what the draw depends on.
-/

namespace Qwen

/-! ## Streams of draws -/

section Stream

variable {S W : Type} (draw : W → S → S)

/-- The state reached from `start` after these draws. -/
def reached (start : S) (draws : List W) : S := draws.foldl (fun s w => draw w s) start

theorem reached_concat (start : S) (draws : List W) (w : W) :
    reached draw start (draws ++ [w]) = draw w (reached draw start draws) := by
  simp [reached]

/-- The stream is at its start before each draw if and only if no draw but the
last moves it from there. -/
theorem at_start_iff (start : S) (draws : List W) :
    (∀ k, k < draws.length → start = reached draw start (draws.take k)) ↔
      ∀ k w, draws[k]? = some w → k + 1 < draws.length → draw w start = start := by
  constructor
  · intro hstart k w hw hk
    have hnext := hstart (k + 1) hk
    rw [List.take_add_one, hw, Option.toList_some, reached_concat, ← hstart k (by omega)] at hnext
    exact hnext.symm
  · intro hstays k
    induction k with
    | zero => exact fun _ => rfl
    | succ k ih =>
        intro hk
        have hw : draws[k]? = some (draws.get ⟨k, by omega⟩) := List.getElem?_eq_getElem (by omega)
        rw [List.take_add_one, hw, Option.toList_some, reached_concat, ← ih (by omega)]
        exact (hstays k _ hw hk).symm

end Stream

/-! ## One call -/

namespace Sampler

variable {K : Type} [Field K] [LinearOrder K] {lib : SamplingLibrary K}

variable (lib) in
/-- The renormalized probabilities of the nucleus. -/
def nucleusProbs (logits : List K) (topP : K) : Option (List K) := do
  let nucleus ← findNucleus lib logits topP
  let nucleusExp := nucleus.expLogits.take nucleus.nucleusSize
  nucleusExp.mapM fun p => divide p nucleusExp.sum

/-- A nucleus sample draws once, from these probabilities. -/
theorem sampleTopP_drawn {logits : List K} {topP : K} {rng after : lib.State}
    {result : SampleResult K} (h : sampleTopP lib logits topP rng = some (result, after)) :
    ∃ weights, nucleusProbs lib logits topP = some weights ∧
      after = (lib.draw weights rng).2 := by
  simp only [sampleTopP, Option.bind_eq_bind, Option.bind_eq_some_iff] at h
  obtain ⟨nucleus, hfound, weights, hweights, hsample⟩ := h
  refine ⟨weights, ?_, ?_⟩
  · simp only [nucleusProbs, hfound, Option.bind_eq_bind, Option.bind_some, hweights]
  · simp only [sampleIndex, Option.bind_eq_bind, Option.bind_eq_some_iff] at hsample
    obtain ⟨_, -, _, -, _, -, hresult⟩ := hsample
    exact (congrArg Prod.snd (Option.some.inj hresult)).symm

section Calls

variable [FloorRing K] {s s' : Sampler lib} {logits : List K} {params : SamplingParams K}
  {previousTokens : List Int}

/-- What a call at a positive temperature samples from, without top-k and
penalty: the generator of the call is created for it. -/
theorem sample_drawn {result : SampleResult K} (htemp : 0 < params.temperature)
    (htopK : params.topK = 0) (hpenalty : params.repetitionPenalty = 1)
    (h : s.sample logits params previousTokens = some (.ok result, s')) :
    ∃ modified after, applyTemperature logits params.temperature = some modified ∧
      sampleTopP lib modified params.topP (createRng s params).1 = some (result, after) := by
  unfold sample at h
  split at h
  · simp at h
  · rw [if_neg (by simp [hpenalty])] at h
    simp only [Option.bind_eq_bind, Option.bind_some, if_neg (not_le.2 htemp),
      Option.bind_eq_some_iff] at h
    obtain ⟨modified, hmodified, ⟨result', after⟩, hsampled, hresult⟩ := h
    have hsame : result' = result := by simpa using congrArg Prod.fst (Option.some.inj hresult)
    subst hsame
    refine ⟨modified, after, hmodified, ?_⟩
    rw [sampleFrom, if_neg (by rw [htopK]; exact lt_irrefl 0)] at hsampled
    exact hsampled

end Calls

end Sampler

/-! ## The decode loop -/

namespace DecodeThread

variable {K : Type} [Field K] [LinearOrder K] {lib : SamplingLibrary K}

/-- How an output token was sampled. -/
structure Draw (lib : SamplingLibrary K) where
  /-- the logits, after the temperature -/
  logits : List K
  /-- the probabilities of the nucleus -/
  weights : List K
  /-- the generator state before the draw -/
  before : lib.State
  token : Int

/-- What the decoding of a request reads and writes. -/
structure Generation (lib : SamplingLibrary K) where
  temperature : K := 1
  topP : K := 1
  maxTokens : Int := 2048
  stopSequences : List Bytes := []
  seed : Option Int := none
  prefillLogits : List K := []
  outputTokens : List Int := []
  outputText : Bytes := []
  finishReason : FinishReason := .none
  /-- in the list of active requests -/
  active : Bool := true
  draws : List (Draw lib) := []

/-- What a turn of the decode loop for one request learns from others. -/
structure Turn (K : Type) where
  request : Nat
  /-- the cancel token, read by the loop -/
  cancelled : Bool := false
  /-- one of the deadlines has passed -/
  timedOut : Bool := false
  /-- the cancel token, read by `run_decode_step` -/
  cancelledInside : Bool := false
  /-- the answer of `decode_step` -/
  decode : Result (List K)

section Code

variable [FloorRing K]

/-- The parameters of every call of `sample`. -/
def Generation.samplingParams (q : Generation lib) : SamplingParams K :=
  { temperature := q.temperature, topP := q.topP, seed := q.seed }

/-- The history of a call that samples; there is none at temperature zero. -/
def drawOf (sampler : Sampler lib) (logits : List K) (params : SamplingParams K) (token : Int) :
    Option (Draw lib) := do
  if params.temperature ≤ 0 then none
  else
    let modified ← Sampler.applyTemperature logits params.temperature
    let weights ← Sampler.nucleusProbs lib modified params.topP
    return {
      logits := modified
      weights := weights
      before := (Sampler.createRng sampler params).1
      token := token }

/-- Check stop conditions and return whether to continue. -/
def checkStopAndContinue (tokenizer : Tokenizer) (q : Generation lib) : Bool × Generation lib :=
  let result := StopChecker.check tokenizer q.outputTokens q.outputText
    { stopSequences := q.stopSequences, maxTokens := q.maxTokens }
  if result.shouldStop then
    (false, { q with
      finishReason := result.reason
      outputText :=
        if result.matchedStopSequence.isEmpty then q.outputText
        else StopChecker.trimStopSequence q.outputText result.matchedStopSequence })
  else (true, q)

/-- Sample a token and append it: what both branches of `run_decode_step` do
with their logits. -/
def sampleToken (tokenizer : Tokenizer) (sampler : Sampler lib) (q : Generation lib)
    (logits : List K) (previousTokens : List Int) :
    Option (Result Bool × Generation lib × Sampler lib) := do
  let (sampled, sampler') ← sampler.sample logits q.samplingParams previousTokens
  match sampled with
  | .error e => return (.error e, q, sampler')
  | .ok result =>
      let token := result.tokenId
      let (continues, q) := checkStopAndContinue tokenizer { q with
        outputTokens := q.outputTokens ++ [token]
        outputText := q.outputText ++ tokenizer.tokenText token
        draws := q.draws ++ (drawOf sampler logits q.samplingParams token).toList }
      return (.ok continues, q, sampler')

/-- Run one decode step for a request. -/
def runDecodeStep (tokenizer : Tokenizer) (sampler : Sampler lib) (q : Generation lib)
    (turn : Turn K) : Option (Result Bool × Generation lib × Sampler lib) :=
  if turn.cancelledInside then some (.ok false, q, sampler)
  else if q.outputTokens.isEmpty then
    -- first decode step: sample from prefill logits
    if q.prefillLogits.isEmpty then
      some (.error (.internal "No prefill logits available for first token"), q, sampler)
    else sampleToken tokenizer sampler { q with prefillLogits := [] } q.prefillLogits []
  else
    match turn.decode with
    | .error e => some (.error e, q, sampler)
    | .ok logits => sampleToken tokenizer sampler q logits q.outputTokens

/-- The requests and the sampler. -/
structure Decoder (lib : SamplingLibrary K) where
  sampler : Sampler lib
  requests : Nat → Generation lib

/-- The body of the decode loop for one active request; a request that is
completed or failed is active no more. -/
def decodeRequest (tokenizer : Tokenizer) (sampler : Sampler lib) (q : Generation lib)
    (turn : Turn K) : Option (Generation lib × Sampler lib) :=
  if turn.cancelled || turn.timedOut then some ({ q with active := false }, sampler)
  else do
    let (result, q, sampler) ← runDecodeStep tokenizer sampler q turn
    match result with
    | .error _ | .ok false => return ({ q with active := false }, sampler)
    | .ok true => return (q, sampler)

/-- One turn. -/
def takeTurn (tokenizer : Tokenizer) (w : Decoder lib) (turn : Turn K) : Option (Decoder lib) :=
  if (w.requests turn.request).active then do
    let (q, sampler) ← decodeRequest tokenizer w.sampler (w.requests turn.request) turn
    return { sampler := sampler, requests := Function.update w.requests turn.request q }
  else some w

/-- A run of the decode loop; `none` where the sampler left a vector. -/
def decodeLoop (tokenizer : Tokenizer) (w : Decoder lib) (turns : List (Turn K)) :
    Option (Decoder lib) :=
  turns.foldlM (takeTurn tokenizer) w

end Code

/-! ## Seeded requests -/

/-- The generator state that a seed stands for. -/
def seedState (lib : SamplingLibrary K) (seed : Int) : lib.State :=
  lib.seed (Wrapping.ofInt 32 seed)

/-- The history of a draw is what the token was sampled from. -/
structure Draw.Explains (topP : K) (d : Draw lib) : Prop where
  weights : Sampler.nucleusProbs lib d.logits topP = some d.weights
  token : ∃ result after, Sampler.sampleTopP lib d.logits topP d.before = some (result, after) ∧
    result.tokenId = d.token

/-- A seeded request at a positive temperature, and its history. -/
structure Seeded (seed : Int) (q : Generation lib) : Prop where
  seed_eq : q.seed = some seed
  temperature : 0 < q.temperature
  tokens : q.outputTokens = q.draws.map Draw.token
  explained : ∀ d ∈ q.draws, d.Explains q.topP
  before : ∀ d ∈ q.draws, d.before = seedState lib seed

section Steps

variable {tokenizer : Tokenizer} {sampler sampler' : Sampler lib} {q q' : Generation lib}
  {seed : Int}

/-- Nothing but the history and the tokens counts. -/
theorem Seeded.of_same (h : Seeded seed q) (hseed : q'.seed = q.seed)
    (htemp : q'.temperature = q.temperature) (htopP : q'.topP = q.topP)
    (htokens : q'.outputTokens = q.outputTokens) (hdraws : q'.draws = q.draws) :
    Seeded seed q' := by
  obtain ⟨h1, h2, h3, h4, h5⟩ := h
  exact ⟨hseed.trans h1, htemp ▸ h2, by rw [htokens, hdraws, h3], by rw [hdraws, htopP]; exact h4,
    by rw [hdraws]; exact h5⟩

theorem Seeded.checkStopAndContinue (h : Seeded seed q) :
    Seeded seed (checkStopAndContinue tokenizer q).2 := by
  unfold DecodeThread.checkStopAndContinue
  dsimp only
  split
  · exact h.of_same rfl rfl rfl rfl rfl
  · exact h

variable [FloorRing K] {logits : List K} {previousTokens : List Int} {result : Result Bool}
  {turn : Turn K}

/-- One call of the sampler: it starts from the seed again. -/
theorem Seeded.sampleToken (h : Seeded seed q)
    (hstep : sampleToken tokenizer sampler q logits previousTokens = some (result, q', sampler')) :
    Seeded seed q' := by
  simp only [DecodeThread.sampleToken, Option.bind_eq_bind, Option.bind_eq_some_iff] at hstep
  obtain ⟨⟨sampled, sampler''⟩, hsample, hrest⟩ := hstep
  cases sampled with
  | error e =>
      cases hrest
      exact h
  | ok r =>
      have htemp : 0 < q.samplingParams.temperature := h.temperature
      obtain ⟨modified, after, hmodified, hsampled⟩ := Sampler.sample_drawn htemp rfl rfl hsample
      obtain ⟨weights, hweights, -⟩ := Sampler.sampleTopP_drawn hsampled
      have hbefore : (Sampler.createRng sampler q.samplingParams).1 = seedState lib seed := by
        simp only [Sampler.createRng, Generation.samplingParams, h.seed_eq]
        rfl
      have hdraw : drawOf sampler logits q.samplingParams r.tokenId =
          some ⟨modified, weights, seedState lib seed, r.tokenId⟩ := by
        rw [drawOf, if_neg (not_le.2 htemp), hmodified, ← hbefore]
        simp only [Option.bind_eq_bind, Option.bind_some, hweights]
        rfl
      cases hrest
      refine Seeded.checkStopAndContinue ⟨h.seed_eq, h.temperature, ?_, ?_, ?_⟩
      · simp [hdraw, h.tokens]
      · intro d hd
        simp only [hdraw, Option.toList_some, List.mem_append, List.mem_singleton] at hd
        rcases hd with hd | rfl
        · exact h.explained d hd
        · exact ⟨hweights, r, after, hbefore ▸ hsampled, rfl⟩
      · intro d hd
        simp only [hdraw, Option.toList_some, List.mem_append, List.mem_singleton] at hd
        rcases hd with hd | rfl
        · exact h.before d hd
        · rfl

theorem Seeded.runDecodeStep (h : Seeded seed q)
    (hstep : runDecodeStep tokenizer sampler q turn = some (result, q', sampler')) :
    Seeded seed q' := by
  unfold DecodeThread.runDecodeStep at hstep
  split at hstep
  · cases hstep
    exact h
  · split at hstep
    · split at hstep
      · cases hstep
        exact h
      · have htaken : Seeded seed { q with prefillLogits := [] } := h.of_same rfl rfl rfl rfl rfl
        exact htaken.sampleToken hstep
    · cases hdecode : turn.decode with
      | error e =>
          rw [hdecode] at hstep
          cases hstep
          exact h
      | ok logits =>
          rw [hdecode] at hstep
          exact h.sampleToken hstep

theorem Seeded.decodeRequest (h : Seeded seed q)
    (hstep : decodeRequest tokenizer sampler q turn = some (q', sampler')) : Seeded seed q' := by
  unfold DecodeThread.decodeRequest at hstep
  split at hstep
  · cases hstep
    exact h.of_same rfl rfl rfl rfl rfl
  · simp only [Option.bind_eq_bind, Option.bind_eq_some_iff] at hstep
    obtain ⟨⟨result, q₁, sampler₁⟩, hrun, hrest⟩ := hstep
    have hafter := h.runDecodeStep hrun
    have hclosed : Seeded seed { q₁ with active := false } := hafter.of_same rfl rfl rfl rfl rfl
    rcases result with e | continues
    · cases hrest
      exact hclosed
    · cases continues <;> cases hrest
      · exact hclosed
      · exact hafter

/-- A turn, of this request or of another. -/
theorem Seeded.takeTurn {w w' : Decoder lib} {r : Nat} (h : Seeded seed (w.requests r))
    (hstep : takeTurn tokenizer w turn = some w') : Seeded seed (w'.requests r) := by
  unfold DecodeThread.takeTurn at hstep
  split at hstep
  · simp only [Option.bind_eq_bind, Option.bind_eq_some_iff] at hstep
    obtain ⟨⟨q, sampler⟩, hrun, hrest⟩ := hstep
    cases hrest
    show Seeded seed (Function.update w.requests turn.request q r)
    by_cases hr : r = turn.request
    · subst hr
      rw [Function.update_self]
      exact h.decodeRequest hrun
    · rw [Function.update_of_ne hr]
      exact h
  · cases hstep
    exact h

/-- **Along every run of the decode loop** each draw of a seeded request is made
from the seed. -/
theorem Seeded.decodeLoop {turns : List (Turn K)} {w w' : Decoder lib} {r : Nat}
    (h : Seeded seed (w.requests r)) (hrun : decodeLoop tokenizer w turns = some w') :
    Seeded seed (w'.requests r) := by
  induction turns generalizing w with
  | nil =>
      cases hrun
      exact h
  | cons turn rest ih =>
      simp only [DecodeThread.decodeLoop, List.foldlM_cons, Option.bind_eq_bind,
        Option.bind_eq_some_iff] at hrun
      obtain ⟨w₁, hturn, hrest⟩ := hrun
      exact ih (h.takeTurn hturn) hrest

end Steps

section Runs

/-- The random choices of an answer come one after the other from the stream of
its seed: each token was sampled from the state reached by the draws before. -/
structure Successive (seed : Int) (q : Generation lib) : Prop where
  tokens : q.outputTokens = q.draws.map Draw.token
  explained : ∀ d ∈ q.draws, d.Explains q.topP
  successive : ∀ k d, q.draws[k]? = some d →
    d.before = reached (fun weights s => (lib.draw weights s).2) (seedState lib seed)
      ((q.draws.map Draw.weights).take k)

variable {seed : Int} {q : Generation lib}

/-- Every draw is from the seed, so the choices are successive as far as the
stream stays there. -/
theorem Seeded.successive_iff (h : Seeded seed q) :
    Successive seed q ↔ ∀ k d, q.draws[k]? = some d → k + 1 < q.outputTokens.length →
      (lib.draw d.weights (seedState lib seed)).2 = seedState lib seed := by
  have hlen : q.outputTokens.length = q.draws.length := by rw [h.tokens, List.length_map]
  have hstream := at_start_iff (fun weights s => (lib.draw weights s).2) (seedState lib seed)
    (q.draws.map Draw.weights)
  rw [List.length_map] at hstream
  constructor
  · intro hsucc k d hd hk
    refine hstream.1 (fun j hj => ?_) k d.weights (by simp [hd]) (by omega)
    have hread : q.draws[j]? = some (q.draws.get ⟨j, hj⟩) := List.getElem?_eq_getElem hj
    rw [← hsucc.successive j _ hread, h.before _ (List.get_mem _ _)]
  · intro hstays
    refine ⟨h.tokens, h.explained, fun k d hd => ?_⟩
    rw [h.before d (List.mem_of_getElem? hd)]
    refine hstream.2 (fun j weights hj hjlt => ?_) k (List.getElem?_eq_some_iff.1 hd).1
    rw [List.getElem?_map, Option.map_eq_some_iff] at hj
    obtain ⟨d', hd', rfl⟩ := hj
    exact hstays j d' hd' (by omega)

/-- With a generator that every draw moves, only answers of at most one token
are sampled so. -/
theorem Seeded.successive_iff_short (h : Seeded seed q)
    (hmoves : ∀ weights s, (lib.draw weights s).2 ≠ s) :
    Successive seed q ↔ q.outputTokens.length ≤ 1 := by
  have hlen : q.outputTokens.length = q.draws.length := by rw [h.tokens, List.length_map]
  rw [h.successive_iff]
  constructor
  · intro hstays
    by_contra hlong
    have hfirst : q.draws[0]? = some (q.draws.get ⟨0, by omega⟩) :=
      List.getElem?_eq_getElem (by omega)
    exact hmoves _ _ (hstays 0 _ hfirst (by omega))
  · intro hshort k d _ hk
    omega

/-- Equal logits at two positions of a seeded answer give the same token. -/
theorem Seeded.repeats (h : Seeded seed q) {d d' : Draw lib} (hd : d ∈ q.draws)
    (hd' : d' ∈ q.draws) (hlogits : d.logits = d'.logits) : d.token = d'.token := by
  obtain ⟨r, after, hr, htoken⟩ := (h.explained d hd).token
  obtain ⟨r', after', hr', htoken'⟩ := (h.explained d' hd').token
  rw [h.before d hd, hlogits] at hr
  rw [h.before d' hd', hr] at hr'
  cases hr'
  exact htoken.symm.trans htoken'

variable [FloorRing K] {w w' : Decoder lib} {r : Nat}

/-- **The draws of a seeded request.**  After any run of the decode loop they
are successive if and only if no draw but the last, made from the seed with the
probabilities of its position, moves the generator: every call of `sample`
creates the generator anew. -/
theorem seeded_successive_iff (tokenizer : Tokenizer) {turns : List (Turn K)}
    (hrun : decodeLoop tokenizer w turns = some w') (hseed : (w.requests r).seed = some seed)
    (htemp : 0 < (w.requests r).temperature) (htokens : (w.requests r).outputTokens = [])
    (hdraws : (w.requests r).draws = []) :
    Successive seed (w'.requests r) ↔
      ∀ k d, (w'.requests r).draws[k]? = some d →
        k + 1 < (w'.requests r).outputTokens.length →
        (lib.draw d.weights (seedState lib seed)).2 = seedState lib seed := by
  have hstart : Seeded seed (w.requests r) :=
    ⟨hseed, htemp, by rw [htokens, hdraws]; rfl, by simp [hdraws], by simp [hdraws]⟩
  exact (hstart.decodeLoop hrun).successive_iff

end Runs

/-! ## Two tokens -/

/-- A tokenizer without texts. -/
def silentTokenizer : Tokenizer where
  decodeToken _ := .ok []
  eosTokenId := 100
  imEndId := 101

/-- One seeded request for two tokens. -/
def seededDecoder : Decoder Sampler.rationalLibrary where
  sampler := ⟨(1 : Nat)⟩
  requests _ := { seed := some 42, maxTokens := 2, prefillLogits := [0, 0] }

/-- Two turns of one request. -/
def twoTurns : List (Turn ℚ) :=
  [{ request := 0, decode := .ok [] }, { request := 0, decode := .ok [0, 0] }]

/-- How each of its tokens is sampled: from two equal logits. -/
def flatDraw : Draw Sampler.rationalLibrary where
  logits := [0, 0]
  weights := [1 / 2, 1 / 2]
  before := (42 : Nat)
  token := 0

section Flat

open Sampler

theorem findNucleus_flat : findNucleus rationalLibrary [0, 0] 1 = some ⟨[0, 1], [1, 1], 2⟩ := by
  have hindices : partialSortIndices rationalLibrary [0, 0] 2 = [0, 1] :=
    List.mergeSort_of_pairwise (by decide +kernel)
  have hm : maxCandidates [(0 : ℚ), 0].length (1 : ℚ) = 2 := by decide +kernel
  have hexp : expCandidates rationalLibrary [0, 0] [0, 1] 2 = some [1, 1] := by decide +kernel
  have hloop : nucleusLoop (([1, 1] : List ℚ).sum) 1 0 0 [1, 1] = some 2 := by decide +kernel
  simp only [findNucleus, hm, hindices, hexp, Option.bind_eq_bind, Option.bind_some, hloop]
  rfl

theorem halves : ((List.take 2 [1, 1]).mapM fun p => divide p (List.take 2 [1, 1]).sum) =
    some [(1 / 2 : ℚ), 1 / 2] := by
  decide +kernel

theorem nucleusProbs_flat : nucleusProbs rationalLibrary [0, 0] 1 = some [1 / 2, 1 / 2] := by
  simp only [nucleusProbs, findNucleus_flat, Option.bind_eq_bind, Option.bind_some, halves]

theorem sampleTopP_flat : sampleTopP rationalLibrary [0, 0] 1 (42 : Nat) =
    some ({ tokenId := 0, probability := 1 / 2, logit := 0 }, (705894 : Nat)) := by
  simp only [sampleTopP, findNucleus_flat, Option.bind_eq_bind, Option.bind_some, halves]
  rfl

theorem sample_flat (s : Sampler rationalLibrary) (previous : List Int) :
    s.sample [0, 0] { seed := some 42 } previous =
      some (.ok { tokenId := 0, probability := 1 / 2, logit := 0 }, s) := by
  have hgreedy : ¬(1 : ℚ) ≤ 0 := by decide +kernel
  have hrng : createRng s { seed := some 42 } = ((42 : Nat), s) := rfl
  simp only [sample, List.isEmpty_cons, Bool.false_eq_true, if_false, ne_eq, not_true_eq_false,
    false_and, if_neg hgreedy, applyTemperature, if_true, hrng, sampleFrom, gt_iff_lt, lt_irrefl,
    sampleTopP_flat, Option.bind_eq_bind, Option.bind_some]
  rfl

end Flat

theorem sampleToken_flat {q : Generation Sampler.rationalLibrary}
    (hparams : q.samplingParams = { seed := some 42 }) (s : Sampler Sampler.rationalLibrary)
    (previous : List Int) :
    sampleToken silentTokenizer s q [0, 0] previous =
      let next := checkStopAndContinue silentTokenizer { q with
        outputTokens := q.outputTokens ++ [0]
        outputText := q.outputText ++ []
        draws := q.draws ++ [flatDraw] }
      some (.ok next.1, next.2, s) := by
  have hgreedy : ¬(1 : ℚ) ≤ 0 := by decide +kernel
  have hdraw : drawOf s [0, 0] ({ seed := some 42 } : SamplingParams ℚ) 0 = some flatDraw := by
    simp only [drawOf, if_neg hgreedy, Sampler.applyTemperature, if_true, nucleusProbs_flat,
      Option.bind_eq_bind, Option.bind_some]
    rfl
  simp only [sampleToken, hparams, sample_flat, hdraw, Option.bind_eq_bind, Option.bind_some]
  rfl

/-- The request after its first token. -/
def oneToken : Generation Sampler.rationalLibrary where
  seed := some 42
  maxTokens := 2
  outputTokens := [0]
  draws := [flatDraw]

/-- The request after its last token. -/
def twoTokens : Generation Sampler.rationalLibrary where
  seed := some 42
  maxTokens := 2
  outputTokens := [0, 0]
  draws := [flatDraw, flatDraw]
  finishReason := .length
  active := false

theorem decodeRequest_first (s : Sampler Sampler.rationalLibrary) :
    decodeRequest silentTokenizer s (seededDecoder.requests 0) { request := 0, decode := .ok [] } =
      some (oneToken, s) := by
  have hprefill : sampleToken silentTokenizer s
      { seed := some 42, maxTokens := 2 } [0, 0] [] = some (.ok true, oneToken, s) :=
    sampleToken_flat rfl s []
  simp only [decodeRequest, runDecodeStep, seededDecoder, Bool.or_self, Bool.false_eq_true,
    if_false, List.isEmpty_nil, if_true, List.isEmpty_cons, hprefill, Option.bind_eq_bind,
    Option.bind_some]
  rfl

theorem decodeRequest_second (s : Sampler Sampler.rationalLibrary) :
    decodeRequest silentTokenizer s oneToken { request := 0, decode := .ok [0, 0] } =
      some (twoTokens, s) := by
  have hlast : sampleToken silentTokenizer s oneToken [0, 0] [0] =
      some (.ok false, { twoTokens with active := true }, s) :=
    sampleToken_flat rfl s [0]
  have htokens : oneToken.outputTokens = [0] := rfl
  simp only [decodeRequest, runDecodeStep, Bool.or_self, Bool.false_eq_true, if_false, htokens,
    List.isEmpty_cons, hlast, Option.bind_eq_bind, Option.bind_some]
  rfl

/-- A turn of an active request. -/
theorem takeTurn_active {tokenizer : Tokenizer} [FloorRing K] {w : Decoder lib} {turn : Turn K}
    {q : Generation lib} {sampler : Sampler lib}
    (hactive : (w.requests turn.request).active = true)
    (hstep : decodeRequest tokenizer w.sampler (w.requests turn.request) turn =
      some (q, sampler)) :
    takeTurn tokenizer w turn = some ⟨sampler, Function.update w.requests turn.request q⟩ := by
  rw [takeTurn, if_pos hactive, hstep]
  rfl

theorem decodeLoop_twoTurns :
    ∃ w, decodeLoop silentTokenizer seededDecoder twoTurns = some w ∧
      w.requests 0 = twoTokens := by
  have hfirst : takeTurn silentTokenizer seededDecoder { request := 0, decode := .ok [] } =
      some _ := takeTurn_active rfl (decodeRequest_first _)
  have hsecond : takeTurn silentTokenizer
      ⟨seededDecoder.sampler, Function.update seededDecoder.requests 0 oneToken⟩
      { request := 0, decode := .ok [0, 0] } = some _ := takeTurn_active rfl (decodeRequest_second _)
  have hrun : decodeLoop silentTokenizer seededDecoder twoTurns = some ⟨seededDecoder.sampler,
      Function.update (Function.update seededDecoder.requests 0 oneToken) 0 twoTokens⟩ := by
    rw [decodeLoop, twoTurns, List.foldlM_cons, hfirst, Option.bind_eq_bind, Option.bind_some,
      List.foldlM_cons, hsecond]
    rfl
  exact ⟨_, hrun, rfl⟩

/-- The theorem at this run, where the generator moves with every draw. -/
theorem seeded_successive_iff_twoTurns :
    ∃ w, decodeLoop silentTokenizer seededDecoder twoTurns = some w ∧
      (Successive 42 (w.requests 0) ↔ ∀ k d, (w.requests 0).draws[k]? = some d →
        k + 1 < (w.requests 0).outputTokens.length →
        (Sampler.rationalLibrary.draw d.weights (seedState Sampler.rationalLibrary 42)).2 =
          seedState Sampler.rationalLibrary 42) := by
  obtain ⟨w, hrun, -⟩ := decodeLoop_twoTurns
  exact ⟨w, hrun, seeded_successive_iff silentTokenizer hrun rfl (by decide +kernel) rfl rfl⟩

/-- Both tokens were sampled from the state 42 of the seed; the first draw leaves
the generator in the state 705894. -/
theorem twoTurns_repeated :
    ∃ w, decodeLoop silentTokenizer seededDecoder twoTurns = some w ∧
      (w.requests 0).outputTokens = [0, 0] ∧
      (Sampler.rationalLibrary.draw flatDraw.weights flatDraw.before).2 = (705894 : Nat) ∧
      ¬Successive 42 (w.requests 0) := by
  obtain ⟨w, hrun, hrequest⟩ := decodeLoop_twoTurns
  refine ⟨w, hrun, by rw [hrequest]; rfl, rfl, fun hsucc => ?_⟩
  rw [hrequest] at hsucc
  have hsecond : (42 : Nat) = (705894 : Nat) := hsucc.successive 1 flatDraw rfl
  omega

end DecodeThread

end Qwen
