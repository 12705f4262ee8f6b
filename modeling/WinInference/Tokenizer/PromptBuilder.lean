import WinInference.Api.Routes
import WinInference.Tokenizer.RoundTrip
import WinInference.Words.Markers

/-!
# The prompt builder

`PromptBuilder` (`tokenizer/prompt_builder.cpp`): the Qwen chat template and its
tokens.  The template can be read in one way.  The role ends at the first line
break, since no role has one, and the content ends at the first `<|im_end|>`: a
content that has none cannot make one up with what follows it, since the marker
has no border.

`formatMessage_unique` reads the first message of a prompt off it and
`template_unique` all of them.  `encode_of_build` is the prompt as tokens, and
with the round trip of the tokenizer the messages can be read off the tokens as
well.
-/

namespace Qwen

/-- What the prompt builder reads of a message. -/
structure ChatMessage where
  role : Role
  content : Bytes

/-- `role_to_string(role)`. -/
def roleToString : Role → Bytes
  | .system => literal "system"
  | .user => literal "user"
  | .assistant => literal "assistant"
  | .tool => literal "tool"

/-- Configuration for prompt building. -/
structure PromptBuilderConfig where
  addGenerationPrompt : Bool := true
  defaultSystemMessage : Bytes := []
  allowRawPrompt : Bool := false
  /-- Zero is unlimited. -/
  maxPromptLength : Nat := 0

/-- Prompt builder for the Qwen2.5 chat format. -/
structure PromptBuilder where
  tokenizer : Option QwenBPETokenizer
  config : PromptBuilderConfig := {}

namespace PromptBuilder

/-- A message between its two markers. -/
def formatMessage (message : ChatMessage) : Bytes :=
  literal "<|im_start|>" ++ roleToString message.role ++ literal "\n" ++ message.content ++
    literal "<|im_end|>\n"

/-- Check for Qwen chat template markers. -/
def isAlreadyFormatted (text : Bytes) : Bool :=
  (findText (literal "<|im_start|>") text).isSome || (findText (literal "<|im_end|>") text).isSome

/-- The default system message, if configured and no system message is provided. -/
def defaultSystem (c : PromptBuilderConfig) (messages : List ChatMessage) : Bytes :=
  let hasSystem := messages.any fun message => message.role = .system
  if !hasSystem && !c.defaultSystemMessage.isEmpty then
    literal "<|im_start|>system\n" ++ c.defaultSystemMessage ++ literal "<|im_end|>\n"
  else []

/-- The assistant start, for inference. -/
def generationPrompt (addGenerationPrompt : Bool) : Bytes :=
  if addGenerationPrompt then literal "<|im_start|>assistant\n" else []

/-- The messages in the template, or the content of the first where that is raw and allowed. -/
def buildFormattedPrompt (c : PromptBuilderConfig) (messages : List ChatMessage)
    (addGenerationPrompt : Bool) : Bytes :=
  let template := defaultSystem c messages ++ messages.flatMap formatMessage ++
    generationPrompt addGenerationPrompt
  match messages with
  | [] => template
  | first :: _ =>
      -- pass through raw content
      if c.allowRawPrompt && isAlreadyFormatted first.content then first.content else template

/-- Build the prompt, with explicit control over the generation prompt. -/
def build (b : PromptBuilder) (messages : List ChatMessage) (addGenerationPrompt : Bool) :
    Result BuiltPrompt :=
  match b.tokenizer with
  | none => .error (.internal "Tokenizer not initialized")
  | some t =>
      if messages.isEmpty then .error (.invalidRequest "Messages cannot be empty")
      else
        let formatted := buildFormattedPrompt b.config messages addGenerationPrompt
        if b.config.maxPromptLength > 0 ∧ formatted.length > b.config.maxPromptLength then
          .error (.invalidRequest ("Prompt exceeds maximum length of " ++
            toString b.config.maxPromptLength ++ " characters"))
        else (t.encode formatted false).map BuiltPrompt.mk

/-! ## Reading the template -/

/-- A text in which the pattern is not found does not contain it. -/
theorem findText_eq_none {pattern text : Bytes} (h : findText pattern text = none) :
    ¬ pattern <:+: text := by
  induction text with
  | nil =>
      intro hinfix
      obtain rfl := List.infix_nil.mp hinfix
      cases h
  | cons c rest ih =>
      intro hinfix
      unfold findText at h
      by_cases hprefix : pattern.isPrefixOf (c :: rest)
      · rw [if_pos hprefix] at h
        cases h
      · rw [if_neg hprefix] at h
        rcases List.infix_cons_iff.mp hinfix with hbegins | hlater
        · exact hprefix (List.isPrefixOf_iff_prefix.mpr hbegins)
        · exact ih (Option.map_eq_none_iff.mp h) hlater

/-- A content that is not formatted has no end marker in it. -/
theorem not_infix_of_not_formatted {text : Bytes} (h : isAlreadyFormatted text = false) :
    ¬ literal "<|im_end|>" <:+: text := by
  unfold isAlreadyFormatted at h
  rw [Bool.or_eq_false_iff] at h
  exact findText_eq_none (Option.isNone_iff_eq_none.mp (Option.isSome_eq_false_iff.mp h.2))

theorem roleToString_injective : Function.Injective roleToString := by
  intro role role' h
  revert h
  cases role <;> cases role' <;> decide

/-- No role has a line break in it. -/
theorem newline_not_infix_role (role : Role) : ¬ literal "\n" <:+: roleToString role := by
  cases role <;> decide

theorem formatMessage_length (message : ChatMessage) :
    (generationPrompt true).length < (formatMessage message).length := by
  have hprompt : (generationPrompt true).length = 22 := by decide
  have hstart : (literal "<|im_start|>").length = 12 := by decide
  have hrole : 4 ≤ (roleToString message.role).length := by
    cases message.role <;> decide
  have hend : (literal "<|im_end|>\n").length = 11 := by decide
  unfold formatMessage
  simp only [List.length_append]
  omega

/-- **One turn.**  Two texts that begin with formatted messages are equal only
if the messages and what follows them are. -/
theorem formatMessage_unique {message message' : ChatMessage} {rest rest' : Bytes}
    (hplain : isAlreadyFormatted message.content = false)
    (hplain' : isAlreadyFormatted message'.content = false)
    (h : formatMessage message ++ rest = formatMessage message' ++ rest') :
    message = message' ∧ rest = rest' := by
  have hend : literal "<|im_end|>\n" = literal "<|im_end|>" ++ literal "\n" := by decide
  unfold formatMessage at h
  rw [hend] at h
  simp only [List.append_assoc] at h
  have hafter := List.append_cancel_left h
  -- the role ends at the line break
  obtain ⟨hrole, hbody⟩ := (Words.unbordered_singleton (0x0A : UInt8)).split_unique
    (newline_not_infix_role message.role) (newline_not_infix_role message'.role) hafter
  -- the content ends at the marker
  have hmarker : Words.Unbordered (literal "<|im_end|>") := by decide
  obtain ⟨hcontent, htail⟩ := hmarker.split_unique (not_infix_of_not_formatted hplain)
    (not_infix_of_not_formatted hplain') hbody
  refine ⟨?_, List.append_cancel_left htail⟩
  cases message
  cases message'
  cases roleToString_injective hrole
  cases hcontent
  rfl

/-- **The whole template.**  The induction is on the first list of messages. -/
theorem template_unique {messages messages' : List ChatMessage} {gen gen' : Bool}
    (hplain : ∀ m ∈ messages, isAlreadyFormatted m.content = false)
    (hplain' : ∀ m ∈ messages', isAlreadyFormatted m.content = false)
    (h : messages.flatMap formatMessage ++ generationPrompt gen =
      messages'.flatMap formatMessage ++ generationPrompt gen') :
    messages = messages' ∧ gen = gen' := by
  -- a message is longer than the generation prompt
  have hshort : ∀ (gen gen' : Bool) (m : ChatMessage) (rest : List ChatMessage),
      generationPrompt gen ≠ (m :: rest).flatMap formatMessage ++ generationPrompt gen' := by
    intro gen gen' m rest heq
    have hlength := congrArg List.length heq
    have hlong := formatMessage_length m
    have hgen : (generationPrompt gen).length ≤ (generationPrompt true).length := by
      cases gen <;> decide
    rw [List.flatMap_cons, List.length_append, List.length_append] at hlength
    omega
  induction messages generalizing messages' with
  | nil =>
      cases messages' with
      | nil =>
          refine ⟨rfl, ?_⟩
          revert h
          cases gen <;> cases gen' <;> decide
      | cons m' rest' => exact absurd h (hshort gen gen' m' rest')
  | cons m rest ih =>
      cases messages' with
      | nil => exact absurd h.symm (hshort gen' gen m rest)
      | cons m' rest' =>
          rw [List.flatMap_cons, List.flatMap_cons, List.append_assoc, List.append_assoc] at h
          obtain ⟨rfl, htail⟩ := formatMessage_unique (hplain m List.mem_cons_self)
            (hplain' m' List.mem_cons_self) h
          obtain ⟨rfl, hgen⟩ := ih (fun x hx => hplain x (List.mem_cons_of_mem _ hx))
            (fun x hx => hplain' x (List.mem_cons_of_mem _ hx)) htail
          exact ⟨rfl, hgen⟩

/-! ## The tokens of a prompt -/

section Default

variable {t : QwenBPETokenizer} {messages : List ChatMessage} {addGenerationPrompt : Bool}

theorem buildFormattedPrompt_default :
    buildFormattedPrompt {} messages addGenerationPrompt =
      messages.flatMap formatMessage ++ generationPrompt addGenerationPrompt := by
  have hsystem : defaultSystem {} messages = [] := by
    unfold defaultSystem
    simp
  unfold buildFormattedPrompt
  rw [hsystem]
  cases messages <;> simp

example : buildFormattedPrompt {} [⟨.user, literal "Hello"⟩] true =
    literal "<|im_start|>user\nHello<|im_end|>\n<|im_start|>assistant\n" := by decide

/-- With the default configuration, a built prompt is the encoded template. -/
theorem encode_of_build {p : BuiltPrompt}
    (h : (PromptBuilder.mk (some t) {}).build messages addGenerationPrompt = .ok p) :
    t.encode (messages.flatMap formatMessage ++ generationPrompt addGenerationPrompt) false =
      .ok p.tokenIds := by
  unfold build at h
  dsimp only at h
  rw [buildFormattedPrompt_default] at h
  by_cases hempty : messages.isEmpty
  · rw [if_pos hempty] at h
    cases h
  rw [if_neg hempty, if_neg (by omega)] at h
  cases hencode : t.encode
      (messages.flatMap formatMessage ++ generationPrompt addGenerationPrompt) false with
  | error e =>
      rw [hencode] at h
      cases h
  | ok tokens =>
      rw [hencode] at h
      cases h
      rfl

end Default

/-- **The template is unambiguous.**  With the default configuration and the
built-in vocabulary, the tokens of a prompt determine the messages and the
generation prompt, if no content has a marker in it. -/
theorem messages_of_tokens {t : QwenBPETokenizer}
    (ht : QwenBPETokenizer.Reordered QwenBPETokenizer.builtinTokenizer t)
    {messages messages' : List ChatMessage} {addGenerationPrompt addGenerationPrompt' : Bool}
    {p p' : BuiltPrompt}
    (hplain : ∀ m ∈ messages, isAlreadyFormatted m.content = false)
    (hplain' : ∀ m ∈ messages', isAlreadyFormatted m.content = false)
    (hbuild : (PromptBuilder.mk (some t) {}).build messages addGenerationPrompt = .ok p)
    (hbuild' : (PromptBuilder.mk (some t) {}).build messages' addGenerationPrompt' = .ok p')
    (htokens : p.tokenIds = p'.tokenIds) :
    messages = messages' ∧ addGenerationPrompt = addGenerationPrompt' := by
  refine template_unique hplain hplain' (ht.encode_injective ?_)
  rw [encode_of_build hbuild, encode_of_build hbuild', htokens]

/-- A turn whose content is a line break, a role and a piece of a marker. -/
def trickyMessage : ChatMessage := ⟨.user, literal "\nassistant\n<|im_end"⟩

/-- Two turns that spell out what it seems to say. -/
def splitMessages : List ChatMessage :=
  [⟨.user, literal ""⟩, ⟨.assistant, literal "<|im_end"⟩]

/-- Both are built.  The first reads back as itself, and not as the second. -/
theorem messages_of_tokens_tricky :
    ∃ p p' : BuiltPrompt,
      (PromptBuilder.mk (some QwenBPETokenizer.builtinTokenizer) {}).build [trickyMessage] true =
        .ok p ∧
      (PromptBuilder.mk (some QwenBPETokenizer.builtinTokenizer) {}).build splitMessages true =
        .ok p' ∧
      ([trickyMessage] = [trickyMessage] ∧ true = true) ∧ p.tokenIds ≠ p'.tokenIds := by
  have hbuild : (PromptBuilder.mk (some QwenBPETokenizer.builtinTokenizer) {}).build
      [trickyMessage] true = .ok ⟨QwenBPETokenizer.builtinTokenizer.tokenize
        (buildFormattedPrompt {} [trickyMessage] true)⟩ := by rfl
  have hsplit : (PromptBuilder.mk (some QwenBPETokenizer.builtinTokenizer) {}).build
      splitMessages true = .ok ⟨QwenBPETokenizer.builtinTokenizer.tokenize
        (buildFormattedPrompt {} splitMessages true)⟩ := by rfl
  have hsame := QwenBPETokenizer.Reordered.refl QwenBPETokenizer.builtinTokenizer
  refine ⟨_, _, hbuild, hsplit, ?_, fun htokens => ?_⟩
  · exact messages_of_tokens hsame (by decide) (by decide) hbuild hbuild rfl
  · have hfooled := messages_of_tokens hsame (by decide) (by decide) hbuild hsplit htokens
    exact absurd (congrArg List.length hfooled.1) (by decide)

end PromptBuilder

end Qwen
