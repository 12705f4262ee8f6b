import Mathlib.Data.List.Basic
import WinInference.Utils.Basic

/-!
# Stop conditions

`StopChecker` (`core/stop_checker.cpp`), with the parts of the tokenizer and of
the API types it uses.  A `std::string` is its bytes.

`check` tests the token limit first, then the stop tokens, then the stop
sequences, and reports the first that holds; `check_cases` is this order.  A
matched sequence is one that the text ends with (`findStopSequence_some`,
`check_matched`), and `trimStopSequence` changes a text only if there is a match
in it.
-/

namespace Qwen

/-- The bytes of a `std::string`. -/
abbrev Bytes := List UInt8

/-- Finish reason for generation. -/
inductive FinishReason where
  | stop
  | length
  | toolCalls
  | contentFilter
  | none
deriving DecidableEq

/-- What the scheduler uses of a tokenizer. -/
structure Tokenizer where
  decodeToken : Int → Result Bytes
  eosTokenId : Int
  imEndId : Int

/-- The text of a token, empty when the tokenizer does not know it. -/
def Tokenizer.tokenText (t : Tokenizer) (token : Int) : Bytes :=
  match t.decodeToken token with
  | .ok text => text
  | .error _ => []

/-- Stop condition configuration. -/
structure StopConfig where
  stopSequences : List Bytes := []
  stopTokenIds : List Int := []
  maxTokens : Int := 0

/-- Result of stop checking. -/
structure StopCheckResult where
  shouldStop : Bool := false
  reason : FinishReason := .none
  matchedStopSequence : Bytes := []
  matchedStopToken : Int := -1
deriving DecidableEq

namespace StopChecker

/-- `text.compare(text.length() - seq.length(), seq.length(), seq) == 0`, with
the length check before it. -/
def endsWith (text seq : Bytes) : Bool :=
  text.length ≥ seq.length && text.drop (text.length - seq.length) == seq

/-- Check if text ends with any stop sequence; the first that does. -/
def findStopSequence (text : Bytes) : List Bytes → Option Bytes
  | [] => none
  | seq :: rest =>
      if seq.isEmpty then findStopSequence text rest
      else if endsWith text seq then some seq
      else findStopSequence text rest

/-- Trim stop sequence from text if present. -/
def trimStopSequence (text stopSequence : Bytes) : Bytes :=
  if stopSequence.isEmpty then text
  else if endsWith text stopSequence then
    text.take (text.length - stopSequence.length)
  else text

/-- The token that stops generation, if the last one does. -/
def stopTokenAt (tokenizer : Tokenizer) (generatedTokens : List Int)
    (stopTokenIds : List Int) : Option Int :=
  match generatedTokens.getLast? with
  | none => none
  | some last =>
      if last = tokenizer.eosTokenId then some last
      else if last = tokenizer.imEndId then some last
      else stopTokenIds.find? (last = ·)

/-- Check if generation should stop: the token limit first, then stop tokens,
then stop sequences. -/
def check (tokenizer : Tokenizer) (generatedTokens : List Int) (generatedText : Bytes)
    (config : StopConfig) : StopCheckResult :=
  if config.maxTokens > 0 ∧ toInt32 generatedTokens.length ≥ config.maxTokens then
    { shouldStop := true, reason := .length }
  else
    match stopTokenAt tokenizer generatedTokens config.stopTokenIds with
    | some token => { shouldStop := true, reason := .stop, matchedStopToken := token }
    | none =>
        if config.stopSequences.isEmpty ∨ generatedText.isEmpty then {}
        else
          match findStopSequence generatedText config.stopSequences with
          | some seq =>
              { shouldStop := true, reason := .stop, matchedStopSequence := seq }
          | none => {}

/-! ## What a check finds -/

theorem findStopSequence_some {text seq : Bytes} {seqs : List Bytes}
    (h : findStopSequence text seqs = some seq) : seq ≠ [] ∧ endsWith text seq := by
  induction seqs with
  | nil => cases h
  | cons first rest ih =>
      unfold findStopSequence at h
      by_cases hempty : first.isEmpty
      · rw [if_pos hempty] at h
        exact ih h
      · rw [if_neg hempty] at h
        by_cases hend : endsWith text first
        · rw [if_pos hend] at h
          cases h
          exact ⟨by simpa using hempty, hend⟩
        · rw [if_neg hend] at h
          exact ih h

/-- A check finds the token limit, a stop token, a stop sequence or nothing. -/
theorem check_cases (tokenizer : Tokenizer) (tokens : List Int) (text : Bytes)
    (config : StopConfig) :
    ((config.maxTokens > 0 ∧ toInt32 tokens.length ≥ config.maxTokens) ∧
      check tokenizer tokens text config = { shouldStop := true, reason := .length }) ∨
    ¬(config.maxTokens > 0 ∧ toInt32 tokens.length ≥ config.maxTokens) ∧
      ((∃ token, stopTokenAt tokenizer tokens config.stopTokenIds = some token ∧
          check tokenizer tokens text config =
            { shouldStop := true, reason := .stop, matchedStopToken := token }) ∨
        (∃ seq, seq ≠ [] ∧ endsWith text seq ∧ check tokenizer tokens text config =
          { shouldStop := true, reason := .stop, matchedStopSequence := seq }) ∨
        check tokenizer tokens text config = {}) := by
  unfold check
  by_cases hlimit : config.maxTokens > 0 ∧ toInt32 tokens.length ≥ config.maxTokens
  · exact Or.inl ⟨hlimit, if_pos hlimit⟩
  refine Or.inr ⟨hlimit, ?_⟩
  rw [if_neg hlimit]
  cases htoken : stopTokenAt tokenizer tokens config.stopTokenIds with
  | some token => exact Or.inl ⟨token, rfl, rfl⟩
  | none =>
      right
      by_cases hnone : config.stopSequences.isEmpty ∨ text.isEmpty
      · exact Or.inr (if_pos hnone)
      · dsimp only
        rw [if_neg hnone]
        cases hseq : findStopSequence text config.stopSequences with
        | some seq =>
            obtain ⟨hne, hend⟩ := findStopSequence_some hseq
            exact Or.inl ⟨seq, hne, hend, rfl⟩
        | none => exact Or.inr rfl

/-- The reason is `Length` exactly at the token limit. -/
theorem check_reason_length (tokenizer : Tokenizer) (tokens : List Int) (text : Bytes)
    (config : StopConfig) :
    (check tokenizer tokens text config).reason = .length ↔
      config.maxTokens > 0 ∧ toInt32 tokens.length ≥ config.maxTokens := by
  obtain ⟨hlimit, heq⟩ | ⟨hlimit, ⟨token, -, heq⟩ | ⟨seq, -, -, heq⟩ | heq⟩ :=
    check_cases tokenizer tokens text config <;> simp [heq, hlimit]

/-- A check that lets generation go on has found nothing. -/
theorem check_continue {tokenizer : Tokenizer} {tokens : List Int} {text : Bytes}
    {config : StopConfig} (h : (check tokenizer tokens text config).shouldStop = false) :
    check tokenizer tokens text config = {} := by
  obtain ⟨-, heq⟩ | ⟨-, ⟨token, -, heq⟩ | ⟨seq, -, -, heq⟩ | heq⟩ :=
    check_cases tokenizer tokens text config
  · simp [heq] at h
  · simp [heq] at h
  · simp [heq] at h
  · exact heq

/-- A sequence that was matched is at the end of the text. -/
theorem check_matched {tokenizer : Tokenizer} {tokens : List Int} {text : Bytes}
    {config : StopConfig} (h : (check tokenizer tokens text config).matchedStopSequence ≠ []) :
    endsWith text (check tokenizer tokens text config).matchedStopSequence := by
  obtain ⟨-, heq⟩ | ⟨-, ⟨token, -, heq⟩ | ⟨seq, -, hend, heq⟩ | heq⟩ :=
    check_cases tokenizer tokens text config
  · simp [heq] at h
  · simp [heq] at h
  · simpa [heq] using hend
  · simp [heq] at h

/-- Trimming a sequence the text ends with makes the text shorter. -/
theorem trimStopSequence_eq_self_iff {text seq : Bytes} (h : seq ≠ [] → endsWith text seq) :
    trimStopSequence text seq = text ↔ seq = [] := by
  constructor
  · intro heq
    by_contra hne
    have hend := h hne
    have hlength := congrArg List.length heq
    have hle : seq.length ≤ text.length := by
      rw [endsWith, Bool.and_eq_true] at hend
      simpa using hend.1
    have hpos := List.length_pos_iff.mpr hne
    rw [trimStopSequence, if_neg (by simpa using hne), if_pos hend, List.length_take] at hlength
    omega
  · rintro rfl
    rfl

/-- No token, no text: nothing to stop for. -/
theorem check_nil (tokenizer : Tokenizer) (config : StopConfig) :
    check tokenizer [] [] config = {} := by
  have hlimit : ¬(config.maxTokens > 0 ∧
      toInt32 (([] : List Int).length : Int) ≥ config.maxTokens) := by
    rintro ⟨hpos, hle⟩
    have hzero : toInt32 (([] : List Int).length : Int) = 0 := rfl
    omega
  rw [check, if_neg hlimit]
  simp [stopTokenAt]

end StopChecker

end Qwen
