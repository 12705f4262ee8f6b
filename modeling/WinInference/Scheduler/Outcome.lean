import WinInference.Api.Routes
import WinInference.Scheduler.Accounting
import WinInference.Scheduler.Decoding

/-!
# What becomes of a request

Read off `request_run`: the positions of the decode calls, the devices of the
cache, the token limits from the handler to the last token, and the stream
against the final text.

`run_view` is what a run leaves of a request: a view in which it rests.
`view_positions` and `view_routings` read the history of decode calls and of
routings off it, `limits_run` the limit that the handler set, and
`contentDeltas_flatten` the text that was streamed.
-/

namespace Qwen

open Concurrency

/-- The position of a decode call for `r`. -/
def Event.positionOf (r : RequestPtr) : Event → Option Int
  | .decodeCalled q _ pos => if q = r then some pos else none
  | _ => none

/-- The router that `r` was routed with. -/
def Event.routingOf (r : RequestPtr) : Event → Option (Nat × GPURouter)
  | .routed q contextLength g => if q = r then some (contextLength, g) else none
  | _ => none

namespace Scheduler

variable {A : Type}

/-- The `current_pos` of the decode calls made for a request, in order. -/
def decodePositions (s : Scheduler A) (r : RequestPtr) : List Int :=
  s.trace.filterMap (Event.positionOf r)

/-- The routings made for a request. -/
def routingsOf (s : Scheduler A) (r : RequestPtr) : List (Nat × GPURouter) :=
  s.trace.filterMap (Event.routingOf r)

/-- The content deltas of a request's stream. -/
def contentDeltas (s : Scheduler A) (r : RequestPtr) : List Bytes :=
  (s.delivered r).filterMap Handlers.contentDelta

theorem contentDeltas_flatten (events : List TokenEvent) :
    (events.filterMap Handlers.contentDelta).flatten = events.flatMap TokenEvent.text := by
  induction events with
  | nil => rfl
  | cons e rest ih =>
      cases e with
      | token id text =>
          cases text with
          | nil => simpa [Handlers.contentDelta, TokenEvent.text] using ih
          | cons b bs => simpa [Handlers.contentDelta, TokenEvent.text] using ih
      | complete reason =>
          rw [List.filterMap_cons_none rfl, List.flatMap_cons]
          exact ih
      | error e =>
          rw [List.filterMap_cons_none rfl, List.flatMap_cons]
          exact ih

section View

variable [IKVCacheAllocator A] (s : Scheduler A) (r : RequestPtr)

theorem view_positions : (s.view r).positions = s.decodePositions r := by
  rw [View.positions, view, decodePositions, ownTrace, List.filterMap_filter,
    List.filterMap_filter]
  refine List.filterMap_congr fun e _ => ?_
  cases e with
  | decodeCalled q input pos =>
      by_cases hq : q = r <;> simp [Event.byDecode, Event.subject, Event.positionOf, hq]
  | _ => simp [Event.positionOf]

theorem view_routings : (s.view r).routings = s.routingsOf r := by
  rw [View.routings, view, routingsOf, ownTrace, List.filterMap_filter, List.filterMap_filter]
  refine List.filterMap_congr fun e _ => ?_
  cases e with
  | routed q contextLength g =>
      by_cases hq : q = r <;> simp [Event.byDecode, Event.subject, Event.routingOf, hq]
  | _ => simp [Event.routingOf]

end View

section Runs

variable [IKVCacheAllocator A] [LawfulKVCacheAllocator A] {a : A} {g : Option GPURouter}
  {requests : RequestPtr → Request} {r : RequestPtr}

/-- The view of a request in a run, with the inputs it was submitted with. -/
theorem run_view (d : SchedulerSetup) (hfresh : Fresh requests) (h : Unstarted (requests r))
    (schedule : List (ThreadId × Answer)) :
    let w := (System.initial (create a g requests)).run (code d) schedule
    (w.state.view r).Bounded d.tokenizer ∧
      (w.state.requests r).inputTokens = (requests r).inputTokens ∧
      (w.state.requests r).maxTokens = (requests r).maxTokens ∧
      (AtHead w ∨ (w.state.requests r).state.isOver → (w.state.view r).Outcome d.tokenizer) := by
  intro w
  obtain ⟨hrest, hbounded⟩ := request_run (a := a) (g := g) d hfresh h schedule
  have hinput : (w.state.requests r).input = (requests r).input :=
    (constant_run d (create a g requests) schedule).input r
  have hmax := congrArg (fun t => t.2.1) hinput
  refine ⟨hbounded, congrArg Prod.fst hinput, hmax, ?_⟩
  rintro (hhead | hover)
  · exact (hrest hhead).toOutcome
  · exact hbounded.outcome hover

/-! ## The positions of the decode calls -/

/-- **Positions.**  Every decode call is one position ahead of the tokens that
the runtime has processed, so the calls are at the right positions only when
there are none. -/
theorem decode_positions (d : SchedulerSetup) (hfresh : Fresh requests)
    (h : Unstarted (requests r)) (schedule : List (ThreadId × Answer)) :
    let s := ((System.initial (create a g requests)).run (code d) schedule).state
    let n := (requests r).inputTokens.length
    (∀ (j : Nat) pos, (s.decodePositions r)[j]? = some pos → pos = toInt32 (n + 1 + j)) ∧
      ((∀ (j : Nat) pos, (s.decodePositions r)[j]? = some pos → pos = n + j) ↔
        s.decodePositions r = []) := by
  intro s n
  obtain ⟨hbounded, hinput, -, -⟩ := run_view (a := a) (g := g) d hfresh h schedule
  have hsteps : ∀ (j : Nat) pos, (s.decodePositions r)[j]? = some pos →
      pos = toInt32 (n + 1 + j) := by
    intro j pos hpos
    have hstep : pos = toInt32 ((s.requests r).inputTokens.length + 1 + j) :=
      hbounded.steps j pos (by rwa [view_positions])
    rw [hinput] at hstep
    exact hstep
  refine ⟨hsteps, fun hright => ?_, fun hnone j pos hpos => ?_⟩
  · cases hcalls : s.decodePositions r with
    | nil => rfl
    | cons pos rest =>
        have hfirst : (s.decodePositions r)[0]? = some pos := by rw [hcalls]; rfl
        have hwrong : (n : Int) + (0 : Nat) = toInt32 (n + 1 + (0 : Nat)) :=
          (hright 0 pos hfirst).symm.trans (hsteps 0 pos hfirst)
        have hsame : (n : Int) + 1 + (0 : Nat) = n + (0 : Nat) + 1 := by omega
        rw [hsame] at hwrong
        exact absurd hwrong.symm (Wrapping.toSigned_succ_ne (by decide) _)
  · rw [hnone] at hpos
    cases hpos

end Runs

/-- A run of a server with two GPUs and the contiguous allocator, with requests
that are alike. -/
def alikeRun (request : Request) (schedule : List (ThreadId × Answer)) :
    System ContiguousKVAllocator :=
  (System.initial (create sampleContiguous (some (sampleRouter 20000)) (numbered request))).run
    (code sampleSetup) schedule

theorem numbered_unstarted {q : Request} (h : Unstarted q) (r : RequestPtr) :
    Unstarted (numbered q r) :=
  ⟨h.state, h.tokens, h.text, h.reason, h.cache, h.events⟩

theorem shortRequest_unstarted : Unstarted shortRequest :=
  ⟨rfl, rfl, rfl, rfl, rfl, fun t ht => by simp [shortRequest] at ht⟩

theorem decode_positions_sample :
    ∃ pos, ((alikeRun shortRequest (firstSubmitted 64 {})).state.decodePositions 0)[0]? =
      some pos ∧ pos = toInt32 (1 + 1 + 0) := by
  have hcalled : ((alikeRun shortRequest (firstSubmitted 64 {})).state.decodePositions 0)[0]? =
      some 2 := by
    decide +kernel
  refine ⟨2, hcalled, ?_⟩
  unfold alikeRun at hcalled
  exact (decode_positions (A := ContiguousKVAllocator) (g := some (sampleRouter 20000)) (r := 0)
    sampleSetup (numbered_fresh rfl) (numbered_unstarted shortRequest_unstarted 0)
    (firstSubmitted 64 {})).1 0 2 hcalled

/-- After a prompt of one token the first decode call is at position 2. -/
theorem decode_position_skipped :
    (numbered shortRequest 0).inputTokens.length = 1 ∧
      (alikeRun shortRequest (firstSubmitted 64 {})).state.decodePositions 0 = [2] := by
  decide +kernel

/-! ## The devices of the cache -/

section Runs

variable [IKVCacheAllocator A] [LawfulKVCacheAllocator A] {a : A} {requests : RequestPtr → Request}
  {r : RequestPtr}

/-- **Placement.**  The cache of a request that is decoding lies on the devices
it was assigned when the routing decided for tensor parallelism, or for the
device of the allocator. -/
theorem cache_placement (d : SchedulerSetup) {g : GPURouter} (hfresh : Fresh requests)
    (h : Unstarted (requests r)) (schedule : List (ThreadId × Answer)) :
    let s := ((System.initial (create a (some g) requests)).run (code d) schedule).state
    (s.requests r).state = .decoding →
      ∃ router : GPURouter, s.routingsOf r = [((requests r).contextLength, router)] ∧
        let decision := (router.route (requests r).contextLength).1
        ((s.requests r).kvCache.devices = (s.requests r).assignedDevices ↔
          wantsTensorParallel (some decision) ∨
            decision.deviceIds = [(IKVCacheAllocator.config a).deviceId]) := by
  intro s hdecoding
  obtain ⟨hbounded, hinput, hmax, -⟩ := run_view (a := a) (g := some g) d hfresh h schedule
  have hconstant := constant_run d (create a (some g) requests) schedule
  obtain ⟨router, hrouted, hassigned, hdevices⟩ :=
    hbounded.placed (decide_eq_true hdecoding) hconstant.routes
  have hlength : (s.requests r).contextLength = (requests r).contextLength := by
    rw [Request.contextLength, hinput, hmax, Request.contextLength]
  have hhome : (s.view r).home = (IKVCacheAllocator.config a).deviceId := hconstant.home
  rw [view_routings] at hrouted
  rw [hhome] at hdevices
  change s.routingsOf r = [((s.requests r).contextLength, router)] at hrouted
  change (s.requests r).assignedDevices =
    (router.route (s.requests r).contextLength).1.deviceIds at hassigned
  change (s.requests r).kvCache.devices =
    View.deviceOf _ (router.route (s.requests r).contextLength).1 at hdevices
  rw [hlength] at hrouted hassigned hdevices
  refine ⟨router, hrouted, ?_⟩
  dsimp only
  rw [hassigned, hdevices, View.deviceOf]
  by_cases htp : wantsTensorParallel (some (router.route (requests r).contextLength).1)
  · simp [htp]
  · rw [if_neg htp]
    simp [htp, eq_comm]

end Runs

/-- The second of two requests is given the second GPU. -/
def secondSubmitted : List (ThreadId × Answer) :=
  moves 9 (.submit 0) {} ++ moves 9 (.submit 1) {} ++ moves 40 .decode {}

theorem cache_placement_sample :
    ∃ router : GPURouter, (alikeRun shortRequest secondSubmitted).state.routingsOf 1 =
        [(shortRequest.contextLength, router)] ∧
      let decision := (router.route shortRequest.contextLength).1
      (((alikeRun shortRequest secondSubmitted).state.requests 1).kvCache.devices =
          ((alikeRun shortRequest secondSubmitted).state.requests 1).assignedDevices ↔
        wantsTensorParallel (some decision) ∨ decision.deviceIds = [0]) := by
  have hdecoding : ((alikeRun shortRequest secondSubmitted).state.requests 1).state =
      .decoding := by
    decide +kernel
  exact cache_placement (a := sampleContiguous) (r := 1) sampleSetup (numbered_fresh rfl)
    (numbered_unstarted shortRequest_unstarted 1) secondSubmitted hdecoding

/-- The router charges the second GPU, the cache lies on the first one. -/
theorem cache_elsewhere :
    let q := (alikeRun shortRequest secondSubmitted).state.requests 1
    q.state = .decoding ∧ q.assignedDevices = [1] ∧ q.kvCache.devices = [0] := by
  decide +kernel

/-! ## The stream against the final text -/

section Runs

variable [IKVCacheAllocator A] [LawfulKVCacheAllocator A] {a : A} {g : Option GPURouter}
  {requests : RequestPtr → Request} {r : RequestPtr}

/-- **Streaming.**  When no event was dropped, the content deltas are the text
of all tokens; the final text is the same unless generation ended with a stop
sequence, which is cut off it. -/
theorem stream_agrees (d : SchedulerSetup) (hfresh : Fresh requests)
    (h : Unstarted (requests r)) (schedule : List (ThreadId × Answer)) (closed : Bool) :
    let w := (System.initial (create a g requests)).run (code d) schedule
    let q := w.state.requests r
    AtHead w ∨ q.state.isOver → w.state.queueStatus r = some (closed, 0) →
      ((w.state.contentDeltas r).flatten = q.outputText ↔
        (StopChecker.check d.tokenizer q.outputTokens
          (q.outputTokens.flatMap d.tokenizer.tokenText)
          { stopSequences := q.stopSequences, maxTokens := q.maxTokens }
          ).matchedStopSequence = []) := by
  intro w q hrest hqueue
  obtain ⟨-, -, -, houtcome⟩ := run_view (a := a) (g := g) d hfresh h schedule
  have ho := houtcome hrest
  have hdeltas : (w.state.contentDeltas r).flatten =
      q.outputTokens.flatMap d.tokenizer.tokenText := by
    rw [contentDeltas, contentDeltas_flatten]
    exact ho.streamed closed hqueue
  have htext : q.outputText = StopChecker.trimStopSequence _ _ := ho.text
  rw [hdeltas, htext, eq_comm]
  exact StopChecker.trimStopSequence_eq_self_iff StopChecker.check_matched

end Runs

/-- A streamed request that stops at its first token. -/
def stoppedRequest : Request :=
  { shortRequest with stopSequences := [[120]], tokenQueue := some {} }

theorem stoppedRequest_unstarted : Unstarted stoppedRequest := by
  refine ⟨rfl, rfl, rfl, rfl, rfl, fun t ht => ?_⟩
  cases ht
  exact ⟨rfl, rfl⟩

theorem stream_agrees_sample :
    let q := (alikeRun stoppedRequest (firstSubmitted 45 {})).state.requests 0
    (((alikeRun stoppedRequest (firstSubmitted 45 {})).state.contentDeltas 0).flatten =
        q.outputText ↔
      (StopChecker.check sampleSetup.tokenizer q.outputTokens
        (q.outputTokens.flatMap sampleSetup.tokenizer.tokenText)
        { stopSequences := q.stopSequences, maxTokens := q.maxTokens }
        ).matchedStopSequence = []) := by
  have hhead : AtHead (alikeRun stoppedRequest (firstSubmitted 45 {})) := by decide +kernel
  have hqueue : (alikeRun stoppedRequest (firstSubmitted 45 {})).state.queueStatus 0 =
      some (true, 0) := by
    decide +kernel
  exact stream_agrees (a := sampleContiguous) (g := some (sampleRouter 20000)) (r := 0)
    sampleSetup (numbered_fresh rfl) (numbered_unstarted stoppedRequest_unstarted 0)
    (firstSubmitted 45 {}) true
    (Or.inl hhead) hqueue

/-- The stop sequence was streamed and then cut off the text. -/
theorem stop_sequence_streamed :
    let s := (alikeRun stoppedRequest (firstSubmitted 45 {})).state
    (s.requests 0).state = .completed ∧ s.queueStatus 0 = some (true, 0) ∧
      s.contentDeltas 0 = [[120]] ∧ (s.requests 0).outputText = [] := by
  decide +kernel

/-! ## The token limits -/

/-- A state of a run on the submitted request `q` keeps its token limits. -/
structure WithinLimits (q : Request) (s : Scheduler A) (r : RequestPtr) : Prop where
  tokens : (s.requests r).outputTokens.length ≤ q.maxTokens
  cache : (s.requests r).kvCache.currentLen ≤ (s.requests r).kvCache.maxSeqLen
  positions : ∀ pos ∈ s.decodePositions r, pos < (s.requests r).kvCache.maxSeqLen
  reason : (s.requests r).finishReason = .length →
    (s.requests r).outputTokens.length = q.maxTokens

section Limits

variable [IKVCacheAllocator A] [LawfulKVCacheAllocator A] {requests : RequestPtr → Request}
  {r : RequestPtr}

/-- A run on a request whose tokens fit keeps its limits, and ends at the limit
with `Length`. -/
theorem limits_run (d : SchedulerSetup) (a : A) (g : Option GPURouter)
    (hfresh : Fresh requests) (h : Unstarted (requests r))
    (hone : 1 ≤ (requests r).maxTokens)
    (hfits : (requests r).inputTokens.length + (requests r).maxTokens < 2 ^ 31)
    (schedule : List (ThreadId × Answer)) :
    let w := (System.initial (create a g requests)).run (code d) schedule
    WithinLimits (requests r) w.state r ∧
      (AtHead w ∨ (w.state.requests r).state.isOver →
        ((w.state.requests r).finishReason = .length ↔
          (w.state.requests r).outputTokens.length = (requests r).maxTokens)) := by
  intro w
  obtain ⟨hbounded, hinput, hmax, houtcome⟩ := run_view (a := a) (g := g) d hfresh h schedule
  have hlimited : (w.state.view r).Limited := by
    refine ⟨?_, ?_⟩
    · show 1 ≤ (w.state.requests r).maxTokens
      rw [hmax]
      exact hone
    · show ((w.state.requests r).inputTokens.length : Int) + (w.state.requests r).maxTokens < _
      rw [hmax, hinput]
      exact hfits
  have htokens : (w.state.requests r).outputTokens.length ≤ (w.state.requests r).maxTokens :=
    hbounded.tokens hlimited
  have hreason : (w.state.requests r).finishReason = .length →
      (w.state.requests r).outputTokens.length = (w.state.requests r).maxTokens :=
    hbounded.reason hlimited
  rw [hmax] at htokens hreason
  refine ⟨⟨htokens, hbounded.cache hlimited, fun pos hpos => ?_, hreason⟩, fun hrest => ?_⟩
  · rw [← view_positions] at hpos
    exact hbounded.positions hlimited pos hpos
  · refine ⟨hreason, fun hlength => (houtcome hrest).limit hlimited ?_⟩
    exact hlength.trans hmax.symm

/-- **Token limits, end to end.**  The handler rejects a valid request exactly
when its prompt fills the context; what it submits fits in the context, and no
run of the scheduler generates more or writes past the cache. -/
theorem token_limits {c : ValidationConfig} {build : List Message → Result BuiltPrompt}
    {apiRequest : ChatCompletionRequest} {builtPrompt : BuiltPrompt} (id : String)
    (hvalid : RequestValidator.validate c apiRequest = .ok ())
    (hbuild : build apiRequest.messages = .ok builtPrompt)
    (hdefault : 1 ≤ c.defaultMaxTokens ∧ c.defaultMaxTokens ≤ c.maxCompletionTokens)
    (hfits : builtPrompt.tokenIds.length + c.maxCompletionTokens < 2 ^ 31) :
    ((∃ e, Handlers.chatCompletions c build id apiRequest = .error e) ↔
      c.maxContextLength ≤ builtPrompt.tokenIds.length) ∧
    ∀ q, Handlers.chatCompletions c build id apiRequest = .ok q →
      q.inputTokens = builtPrompt.tokenIds ∧ 1 ≤ q.maxTokens ∧
      q.maxTokens ≤ apiRequest.maxTokens.getD c.defaultMaxTokens ∧
      builtPrompt.tokenIds.length + q.maxTokens ≤ c.maxContextLength ∧
      ∀ (d : SchedulerSetup) (a : A) (g : Option GPURouter) (requests : RequestPtr → Request)
        (r : RequestPtr), Fresh requests → requests r = q →
        ∀ schedule : List (ThreadId × Answer),
          let w := (System.initial (create a g requests)).run (code d) schedule
          WithinLimits q w.state r ∧
            (AtHead w ∨ (w.state.requests r).state.isOver →
              ((w.state.requests r).finishReason = .length ↔
                (w.state.requests r).outputTokens.length = q.maxTokens)) := by
  obtain ⟨hfull, e, hrejected⟩ | ⟨hroom, q, hsubmitted, hprompt, hmax⟩ :=
    Handlers.chatCompletions_cases id hvalid hbuild hdefault hfits
  · refine ⟨⟨fun _ => hfull, fun _ => ⟨e, hrejected⟩⟩, fun q hq => ?_⟩
    rw [hrejected] at hq
    cases hq
  refine ⟨⟨fun ⟨e, hrejected⟩ => ?_, fun hfull => by omega⟩, fun q' hq' => ?_⟩
  · rw [hsubmitted] at hrejected
    cases hrejected
  obtain rfl : q = q' := Except.ok.inj (hsubmitted.symm.trans hq')
  obtain ⟨hrequested, -⟩ := RequestValidator.validate_maxTokens hvalid hdefault
  obtain ⟨hstate, htokens, htext, hreason, hcache, hqueue⟩ :=
    Handlers.chatCompletions_new hsubmitted
  have hone : 1 ≤ q.maxTokens := by omega
  have hcontext : builtPrompt.tokenIds.length + q.maxTokens ≤ c.maxContextLength := by omega
  refine ⟨hprompt, hone, by omega, hcontext, fun d a g requests r hfresh hr schedule => ?_⟩
  have hunstarted : Unstarted (requests r) := by
    rw [hr]
    refine ⟨hstate, htokens, htext, hreason, hcache, fun t ht => ?_⟩
    rw [hqueue] at ht
    cases ht
    exact ⟨rfl, rfl⟩
  have hbound : (requests r).inputTokens.length + (requests r).maxTokens < 2 ^ 31 := by
    have hint := c.context_int32.2
    rw [hr, hprompt]
    omega
  have hrun := limits_run d a g hfresh hunstarted (by rw [hr]; exact hone) hbound schedule
  rw [hr] at hrun
  exact hrun

end Limits

/-- A chat request for two tokens. -/
def sampleChat : ChatCompletionRequest :=
  { model := "qwen2.5-32b-instruct", messages := [{ role := .user }], maxTokens := some 2 }

/-- A prompt builder that always gives one token. -/
def sampleBuilder (_ : List Message) : Result BuiltPrompt := .ok ⟨[1]⟩

/-- What the handler submits for it. -/
def sampleSubmitted : Request :=
  Handlers.schedulerRequest "" ⟨[1]⟩ (RequestValidator.applyDefaults {} sampleChat)

theorem token_limits_sample :
    WithinLimits sampleSubmitted
      (alikeRun sampleSubmitted (firstSubmitted 64 {})).state 0 := by
  have hvalid : RequestValidator.validate {} sampleChat = .ok () := by
    unfold RequestValidator.validate
    rw [RequestValidator.validateModel_supported (by decide) (by decide)]
    rfl
  have hbuild : sampleBuilder sampleChat.messages = .ok ⟨[1]⟩ := rfl
  have hsubmitted : Handlers.chatCompletions {} sampleBuilder "" sampleChat =
      .ok sampleSubmitted := by
    rw [Handlers.chatCompletions_eq _ hvalid hbuild]
    rfl
  have hsame : numbered sampleSubmitted 0 = sampleSubmitted := rfl
  obtain ⟨-, h⟩ := token_limits (A := ContiguousKVAllocator) "" hvalid hbuild (by decide)
    (by decide)
  obtain ⟨-, -, -, -, hrun⟩ := h sampleSubmitted hsubmitted
  exact (hrun sampleSetup sampleContiguous (some (sampleRouter 20000)) (numbered sampleSubmitted)
    0 (numbered_fresh rfl) hsame (firstSubmitted 64 {})).1

end Scheduler

end Qwen
