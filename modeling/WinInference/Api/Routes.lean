import WinInference.Api.Validator
import WinInference.Scheduler.Request

/-!
# The chat completions handler

`handlers::chat_completions` (`api/routes.cpp`) from the parsed request to its
call of `submit`, and what its streaming loop sends for a token event.  The
prompt builder is a parameter.

`chatCompletions_eq` is the handler in one line, and `chatCompletions_cases` are
its outcomes: it refuses, or it submits a request whose limit has been cut to
what the context leaves (`limitMaxTokens_eq`).  A submitted request is as new as
a constructed one (`chatCompletions_new`).
-/

namespace Qwen

/-- Result of prompt building. -/
structure BuiltPrompt where
  tokenIds : List Int

/-- What `send_error` answers. -/
structure ErrorResponse where
  status : Nat
  type : String
  code : String
  message : String
  param : Option String := none
deriving DecidableEq

namespace ErrorResponse

/-- `send_error` with an `Error`. -/
def ofError (status : Nat) (error : Error) : ErrorResponse :=
  { status := status, type := "error", code := error.code, message := error.message }

/-- The answer to a prompt that does not fit into the context. -/
def contextLengthExceeded (message : String) : ErrorResponse :=
  { status := 400, type := "invalid_request_error", code := "context_length_exceeded"
    message := message, param := some "messages" }

end ErrorResponse

/-- Create a new request with the generated id. -/
def makeRequest (id : String) (apiRequest : ChatCompletionRequest) : Request :=
  let request : Request := { id := id }
  { request with
    temperature := apiRequest.temperature.getD request.temperature
    topP := apiRequest.topP.getD request.topP
    maxTokens := apiRequest.maxTokens.getD request.maxTokens
    stopSequences := apiRequest.stop.getD request.stopSequences
    seed := apiRequest.seed }

namespace Handlers

/-- Validate the prompt length against the model limits, and lower `max_tokens`
to what is left of the context. -/
def limitMaxTokens (c : ValidationConfig) (builtPrompt : BuiltPrompt)
    (apiRequest : ChatCompletionRequest) : Except ErrorResponse ChatCompletionRequest :=
  let promptTokens := toInt32 builtPrompt.tokenIds.length
  let maxTokens := apiRequest.maxTokens.getD c.defaultMaxTokens
  let totalRequired := toInt32 (promptTokens + maxTokens)
  if promptTokens > c.maxContextLength then
    .error (.contextLengthExceeded ("Prompt contains " ++ toString promptTokens ++
      " tokens which exceeds the maximum context length of " ++ toString c.maxContextLength))
  else if totalRequired > c.maxContextLength then
    let availableForCompletion := toInt32 (c.maxContextLength - promptTokens)
    if availableForCompletion < 1 then
      .error (.contextLengthExceeded
        "Prompt uses all available context. No room for completion.")
    else .ok { apiRequest with maxTokens := some availableForCompletion }
  else .ok apiRequest

/-- The scheduler request, with its cancellation token and its token queue. -/
def schedulerRequest (id : String) (builtPrompt : BuiltPrompt)
    (apiRequest : ChatCompletionRequest) : Request :=
  { makeRequest id apiRequest with
    inputTokens := builtPrompt.tokenIds
    cancelToken := some false
    tokenQueue := some {} }

/-- The request that `chat_completions` submits, or its error response. -/
def chatCompletions (c : ValidationConfig) (build : List Message → Result BuiltPrompt)
    (id : String) (apiRequest : ChatCompletionRequest) : Except ErrorResponse Request :=
  do
    (RequestValidator.validate c apiRequest).mapError (.ofError 400)
    let apiRequest := RequestValidator.applyDefaults c apiRequest
    let builtPrompt ← (build apiRequest.messages).mapError (.ofError 400)
    let apiRequest ← limitMaxTokens c builtPrompt apiRequest
    return schedulerRequest id builtPrompt apiRequest

/-- The content delta the streaming loop sends for an event. -/
def contentDelta : TokenEvent → Option Bytes
  | .token _ text => if text.isEmpty then none else some text
  | .complete _ | .error _ => none

/-! ## The limits of a submitted request -/

section Limits

variable {c : ValidationConfig} {build : List Message → Result BuiltPrompt} {id : String}
  {apiRequest : ChatCompletionRequest} {builtPrompt : BuiltPrompt} {request : Request}

/-- On a prompt that leaves room for `m` tokens in an `int32_t`, nothing wraps:
the prompt is rejected when it fills the context, and `m` is cut to what is
left. -/
theorem limitMaxTokens_eq {m : Int} (hm : apiRequest.maxTokens = some m) (hone : 1 ≤ m)
    (hfits : builtPrompt.tokenIds.length + m < 2 ^ 31) :
    (c.maxContextLength ≤ builtPrompt.tokenIds.length ∧
      ∃ e, limitMaxTokens c builtPrompt apiRequest = .error e) ∨
    (builtPrompt.tokenIds.length < c.maxContextLength ∧
      limitMaxTokens c builtPrompt apiRequest = .ok { apiRequest with
        maxTokens := some (min m (c.maxContextLength - builtPrompt.tokenIds.length)) }) := by
  have hcontext := c.context_int32
  have hprompt : toInt32 builtPrompt.tokenIds.length = builtPrompt.tokenIds.length :=
    Wrapping.toSigned_of_lt (by omega)
  have htotal : toInt32 (builtPrompt.tokenIds.length + m) = builtPrompt.tokenIds.length + m :=
    Wrapping.toSigned_of_range (by omega) (by omega)
  unfold limitMaxTokens
  dsimp only
  rw [hprompt, hm, Option.getD_some, htotal]
  split
  next hlong => exact Or.inl ⟨by omega, _, rfl⟩
  next hlong =>
    split
    next htight =>
      rw [show toInt32 (c.maxContextLength - builtPrompt.tokenIds.length) =
        c.maxContextLength - builtPrompt.tokenIds.length from
          Wrapping.toSigned_of_range (by omega) (by omega)]
      split
      next hfull => exact Or.inl ⟨by omega, _, rfl⟩
      next hfull =>
        refine Or.inr ⟨by omega, ?_⟩
        rw [min_eq_right (by omega)]
    next htight =>
      refine Or.inr ⟨by omega, ?_⟩
      rw [min_eq_left (by omega), ← hm]

/-- When all but the last two steps of a sequence succeed. -/
theorem sequence_ok {α β γ : Type} {first : Result Unit} {second : Result α}
    (f : Error → ErrorResponse) {third : α → Except ErrorResponse β} {fourth : α → β → γ} {a : α}
    (hfirst : first = .ok ()) (hsecond : second = .ok a) :
    (do
      first.mapError f
      let a ← second.mapError f
      let b ← third a
      return fourth a b) = (third a).map (fourth a) := by
  subst hfirst hsecond
  simp only [Except.mapError, bind, Except.bind]
  cases third a with
  | error e => rfl
  | ok b => rfl

/-- A valid request is submitted with what the limits leave of it. -/
theorem chatCompletions_eq (id : String) (hvalid : RequestValidator.validate c apiRequest = .ok ())
    (hbuild : build apiRequest.messages = .ok builtPrompt) :
    chatCompletions c build id apiRequest =
      (limitMaxTokens c builtPrompt (RequestValidator.applyDefaults c apiRequest)).map
        (schedulerRequest id builtPrompt) := by
  exact sequence_ok (ErrorResponse.ofError 400) hvalid hbuild

/-- What becomes of a valid request. -/
theorem chatCompletions_cases (id : String)
    (hvalid : RequestValidator.validate c apiRequest = .ok ())
    (hbuild : build apiRequest.messages = .ok builtPrompt)
    (hdefault : 1 ≤ c.defaultMaxTokens ∧ c.defaultMaxTokens ≤ c.maxCompletionTokens)
    (hfits : builtPrompt.tokenIds.length + c.maxCompletionTokens < 2 ^ 31) :
    (c.maxContextLength ≤ builtPrompt.tokenIds.length ∧
      ∃ e, chatCompletions c build id apiRequest = .error e) ∨
    (builtPrompt.tokenIds.length < c.maxContextLength ∧
      ∃ request, chatCompletions c build id apiRequest = .ok request ∧
        request.inputTokens = builtPrompt.tokenIds ∧
        request.maxTokens = min (apiRequest.maxTokens.getD c.defaultMaxTokens)
          (c.maxContextLength - builtPrompt.tokenIds.length)) := by
  obtain ⟨hone, hle⟩ := RequestValidator.validate_maxTokens hvalid hdefault
  have hcut : builtPrompt.tokenIds.length + apiRequest.maxTokens.getD c.defaultMaxTokens <
      2 ^ 31 := by
    omega
  have hlimit := limitMaxTokens_eq (c := c)
    (show (RequestValidator.applyDefaults c apiRequest).maxTokens = _ from rfl) hone hcut
  have heq := chatCompletions_eq id hvalid hbuild
  obtain ⟨hfull, e, hlimited⟩ | ⟨hroom, hlimited⟩ := hlimit
  · rw [hlimited] at heq
    exact Or.inl ⟨hfull, e, heq⟩
  · rw [hlimited] at heq
    exact Or.inr ⟨hroom, _, heq, rfl, rfl⟩

/-- What was submitted has not been touched by the scheduler. -/
theorem chatCompletions_new (h : chatCompletions c build id apiRequest = .ok request) :
    request.state = .received ∧ request.outputTokens = [] ∧ request.outputText = [] ∧
      request.finishReason = .none ∧ request.kvCache = {} ∧ request.tokenQueue = some {} := by
  unfold chatCompletions at h
  obtain ⟨_, -, h⟩ := Except.bind_eq_ok h
  obtain ⟨builtPrompt, -, h⟩ := Except.bind_eq_ok h
  obtain ⟨limited, -, h⟩ := Except.bind_eq_ok h
  cases h
  exact ⟨rfl, rfl, rfl, rfl, rfl, rfl⟩

end Limits

end Handlers

end Qwen
