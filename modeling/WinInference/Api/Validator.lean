import Mathlib.Algebra.Order.Ring.Rat
import WinInference.Core.StopChecker

/-!
# Chat completion requests and their validation

`RequestValidator` (`api/request_validator.cpp`), on the fields of a
`ChatCompletionRequest` that it and the handler read.  A `double` is an exact
number: JSON has neither infinities nor NaN.

The checks run in the order of the source, and the first one that fails names
its field.  `Complains` says of a check that its errors are those of an invalid
request, and `validate_complains` says it of the validation as a whole;
`validate_ok` takes a request that passes apart into its checks, and
`validate_applyDefaults` says that it still passes with its defaults filled in.
-/

namespace Qwen

/-- Chat message role. -/
inductive Role where
  | system
  | user
  | assistant
  | tool
deriving DecidableEq

/-- Chat message. -/
structure Message where
  role : Role
  content : String := ""
  toolCallId : Option String := none

/-- Chat completion request. -/
structure ChatCompletionRequest where
  model : String
  messages : List Message
  temperature : Option Rat := none
  topP : Option Rat := none
  maxTokens : Option Int := none
  stop : Option (List Bytes) := none
  seed : Option Int := none

/-- Validation configuration.  The context length is an `int32_t`. -/
structure ValidationConfig where
  supportedModels : List String := ["qwen2.5-32b-instruct"]
  maxContextLength : Int := 70000
  maxCompletionTokens : Int := 8192
  defaultMaxTokens : Int := 2048
  minTemperature : Rat := 0
  maxTemperature : Rat := 2
  defaultTemperature : Rat := 1
  minTopP : Rat := 0
  maxTopP : Rat := 1
  defaultTopP : Rat := 1
  maxStopSequences : Nat := 4
  maxStopSequenceLength : Nat := 64
  context_int32 : -2 ^ 31 ≤ maxContextLength ∧ maxContextLength < 2 ^ 31 := by decide

/-- The nearest integer, ties to even. -/
def roundHalfEven (x : Rat) : Int :=
  let below := x.floor
  if x - below < 1 / 2 then below
  else if 1 / 2 < x - below then below + 1
  else if below % 2 = 0 then below
  else below + 1

/-- `std::to_string` of a double: six decimals. -/
def doubleToString (x : Rat) : String :=
  let scaled := (roundHalfEven (|x| * 10 ^ 6)).toNat
  let decimals := toString (scaled % 10 ^ 6)
  (if x < 0 then "-" else "") ++ toString (scaled / 10 ^ 6) ++ "." ++
    String.ofList (List.replicate (6 - decimals.length) '0') ++ decimals

namespace RequestValidator

/-- The model is named, and one of those supported, in any case of letters. -/
def validateModel (c : ValidationConfig) (model : String) : Result Unit :=
  if model.isEmpty then .error (.invalidRequest "'model' is required")
  else if c.supportedModels.any (fun supported => model.toLower = supported.toLower) then .ok ()
  else .error (.invalidRequest ("Model '" ++ model ++ "' not supported"))

/-- The loop over the messages; `hasUserMessage` is what it has seen so far. -/
def validateEach (hasUserMessage : Bool) : List Message → Result Unit
  | [] =>
      if hasUserMessage then .ok ()
      else .error (.invalidRequest "'messages' must contain at least one user message")
  | msg :: rest =>
      if msg.role = .tool ∧ msg.toolCallId = none then
        .error (.invalidRequest "Tool message requires 'tool_call_id'")
      else validateEach (hasUserMessage || msg.role = .user) rest

/-- There is a message, each of them passes, and one is from the user. -/
def validateMessages (messages : List Message) : Result Unit :=
  if messages.isEmpty then
    .error (.invalidRequest "'messages' must contain at least one message")
  else validateEach false messages

/-- What `validate_temperature` and `validate_top_p` have in common. -/
def validateRange (field : String) (low high x : Rat) : Result Unit :=
  if x < low ∨ x > high then
    .error (.invalidRequest (field ++ " must be between " ++ doubleToString low ++ " and " ++
      doubleToString high))
  else .ok ()

/-- The temperature is in its range. -/
def validateTemperature (c : ValidationConfig) (temp : Rat) : Result Unit :=
  validateRange "temperature" c.minTemperature c.maxTemperature temp

/-- `top_p` is in its range. -/
def validateTopP (c : ValidationConfig) (topP : Rat) : Result Unit :=
  validateRange "top_p" c.minTopP c.maxTopP topP

/-- `max_tokens` is at least one and not above the configured limit. -/
def validateMaxTokens (c : ValidationConfig) (maxTokens : Int) : Result Unit :=
  if maxTokens < 1 then .error (.invalidRequest "max_tokens must be at least 1")
  else if maxTokens > c.maxCompletionTokens then
    .error (.invalidRequest ("max_tokens cannot exceed " ++ toString c.maxCompletionTokens))
  else .ok ()

/-- The loop over the stop sequences. -/
def validateStopEach (c : ValidationConfig) : List Bytes → Result Unit
  | [] => .ok ()
  | seq :: rest =>
      if seq.isEmpty then .error (.invalidRequest "Stop sequence cannot be empty")
      else if seq.length > c.maxStopSequenceLength then
        .error (.invalidRequest ("Stop sequence exceeds maximum length of " ++
          toString c.maxStopSequenceLength))
      else validateStopEach c rest

/-- There are not too many stop sequences, and each of them passes. -/
def validateStop (c : ValidationConfig) (stop : List Bytes) : Result Unit :=
  if stop.length > c.maxStopSequences then
    .error (.invalidRequest ("Maximum " ++ toString c.maxStopSequences ++
      " stop sequences allowed"))
  else validateStopEach c stop

/-- A check that is made when the field is there. -/
def validateIf {α : Type} (check : α → Result Unit) : Option α → Result Unit
  | none => .ok ()
  | some x => check x

/-- Validate a chat completion request. -/
def validate (c : ValidationConfig) (request : ChatCompletionRequest) : Result Unit := do
  validateModel c request.model
  validateMessages request.messages
  validateIf (validateTemperature c) request.temperature
  validateIf (validateTopP c) request.topP
  validateIf (validateMaxTokens c) request.maxTokens
  validateIf (validateStop c) request.stop

/-- Apply defaults to a request. -/
def applyDefaults (c : ValidationConfig) (request : ChatCompletionRequest) :
    ChatCompletionRequest :=
  { request with
    temperature := some (request.temperature.getD c.defaultTemperature)
    topP := some (request.topP.getD c.defaultTopP)
    maxTokens := some (request.maxTokens.getD c.defaultMaxTokens) }

/-! ## What a validated request satisfies -/

/-- A check passes or complains about the request. -/
def Complains (result : Result Unit) : Prop :=
  ∀ e, result = .error e → e.code = "invalid_request_error"

section Checks

variable {c : ValidationConfig} {request : ChatCompletionRequest}

/-- A model of the list passes as it is written there. -/
theorem validateModel_supported {model : String} (hne : model ≠ "")
    (hmodel : model ∈ c.supportedModels) : validateModel c model = .ok () := by
  have hany : (c.supportedModels.any fun supported => model.toLower = supported.toLower) = true :=
    List.any_eq_true.mpr ⟨model, hmodel, decide_eq_true rfl⟩
  unfold validateModel
  rw [if_neg (by simpa using hne), if_pos hany]

theorem complains_ok : Complains (.ok ()) := nofun

theorem complains_error (msg : String) : Complains (.error (.invalidRequest msg)) := by
  intro e he
  cases he
  rfl

theorem Complains.and_then {first second : Result Unit} (h : Complains first)
    (h' : Complains second) : Complains (first >>= fun _ => second) := by
  cases first with
  | error e => exact h
  | ok _ => exact h'

theorem Complains.validateIf {α : Type} {check : α → Result Unit} (h : ∀ x, Complains (check x))
    (field : Option α) : Complains (validateIf check field) := by
  cases field with
  | none => exact complains_ok
  | some x => exact h x

theorem validateRange_complains (field : String) (low high x : Rat) :
    Complains (validateRange field low high x) := by
  unfold validateRange
  split
  · exact complains_error _
  · exact complains_ok

theorem validateEach_complains (hasUserMessage : Bool) (messages : List Message) :
    Complains (validateEach hasUserMessage messages) := by
  induction messages generalizing hasUserMessage with
  | nil =>
      unfold validateEach
      split
      · exact complains_ok
      · exact complains_error _
  | cons msg rest ih =>
      unfold validateEach
      split
      · exact complains_error _
      · exact ih _

theorem validateStopEach_complains (c : ValidationConfig) (stop : List Bytes) :
    Complains (validateStopEach c stop) := by
  induction stop with
  | nil => exact complains_ok
  | cons seq rest ih =>
      unfold validateStopEach
      split
      · exact complains_error _
      · split
        · exact complains_error _
        · exact ih

/-- Whatever is wrong with a request, the error is an invalid request. -/
theorem validate_complains (c : ValidationConfig) (request : ChatCompletionRequest) :
    Complains (validate c request) := by
  have hmodel : Complains (validateModel c request.model) := by
    unfold validateModel
    split
    · exact complains_error _
    · split
      · exact complains_ok
      · exact complains_error _
  have hmessages : Complains (validateMessages request.messages) := by
    unfold validateMessages
    split
    · exact complains_error _
    · exact validateEach_complains _ _
  have hmaxTokens : ∀ maxTokens, Complains (validateMaxTokens c maxTokens) := by
    intro maxTokens
    unfold validateMaxTokens
    split
    · exact complains_error _
    · split
      · exact complains_error _
      · exact complains_ok
  have hstop : ∀ stop, Complains (validateStop c stop) := by
    intro stop
    unfold validateStop
    split
    · exact complains_error _
    · exact validateStopEach_complains c stop
  exact hmodel.and_then (hmessages.and_then
    ((Complains.validateIf (validateRange_complains _ _ _) _).and_then
      ((Complains.validateIf (validateRange_complains _ _ _) _).and_then
        ((Complains.validateIf hmaxTokens _).and_then (Complains.validateIf hstop _)))))

/-- All checks of a validated request passed. -/
theorem validate_ok (h : validate c request = .ok ()) :
    validateModel c request.model = .ok () ∧ validateMessages request.messages = .ok () ∧
      validateIf (validateTemperature c) request.temperature = .ok () ∧
      validateIf (validateTopP c) request.topP = .ok () ∧
      validateIf (validateMaxTokens c) request.maxTokens = .ok () ∧
      validateIf (validateStop c) request.stop = .ok () := by
  obtain ⟨_, hmodel, h⟩ := Except.bind_eq_ok h
  obtain ⟨_, hmessages, h⟩ := Except.bind_eq_ok h
  obtain ⟨_, htemperature, h⟩ := Except.bind_eq_ok h
  obtain ⟨_, htopP, h⟩ := Except.bind_eq_ok h
  obtain ⟨_, hmaxTokens, hstop⟩ := Except.bind_eq_ok h
  exact ⟨hmodel, hmessages, htemperature, htopP, hmaxTokens, hstop⟩

theorem validateMaxTokens_ok {maxTokens : Int} :
    validateMaxTokens c maxTokens = .ok () ↔
      1 ≤ maxTokens ∧ maxTokens ≤ c.maxCompletionTokens := by
  unfold validateMaxTokens
  split
  next hlow => simp; omega
  next hlow =>
    split
    next hhigh => simp; omega
    next hhigh => simp; omega

/-- The number of tokens a validated request asks for. -/
theorem validate_maxTokens (h : validate c request = .ok ())
    (hdefault : 1 ≤ c.defaultMaxTokens ∧ c.defaultMaxTokens ≤ c.maxCompletionTokens) :
    1 ≤ request.maxTokens.getD c.defaultMaxTokens ∧
      request.maxTokens.getD c.defaultMaxTokens ≤ c.maxCompletionTokens := by
  obtain ⟨-, -, -, -, hmaxTokens, -⟩ := validate_ok h
  cases hgiven : request.maxTokens with
  | none => exact hdefault
  | some maxTokens =>
      rw [hgiven] at hmaxTokens
      exact validateMaxTokens_ok.mp hmaxTokens

/-- Defaults that pass their own checks leave a validated request valid. -/
theorem validate_applyDefaults (h : validate c request = .ok ())
    (htemperature : validateTemperature c c.defaultTemperature = .ok ())
    (htopP : validateTopP c c.defaultTopP = .ok ())
    (hmaxTokens : validateMaxTokens c c.defaultMaxTokens = .ok ()) :
    validate c (applyDefaults c request) = .ok () := by
  have hfield : ∀ {α : Type} {check : α → Result Unit} {field : Option α} {default : α},
      validateIf check field = .ok () → check default = .ok () →
        validateIf check (some (field.getD default)) = .ok () := by
    intro α check field default hgiven hdefault
    cases field with
    | none => exact hdefault
    | some x => exact hgiven
  obtain ⟨hmodel, hmessages, hgivenTemperature, hgivenTopP, hgivenMaxTokens, hstop⟩ :=
    validate_ok h
  unfold validate applyDefaults
  dsimp only
  rw [hmodel, hmessages, hfield hgivenTemperature htemperature, hfield hgivenTopP htopP,
    hfield hgivenMaxTokens hmaxTokens, hstop]
  rfl

/-- The defaults of the default configuration pass their own checks. -/
example : validateTemperature {} 1 = .ok () ∧ validateTopP {} 1 = .ok () ∧
    validateMaxTokens {} 2048 = .ok () := by decide

end Checks

end RequestValidator

end Qwen
