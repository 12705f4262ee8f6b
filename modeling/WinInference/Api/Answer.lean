import WinInference.Api.Reply
import WinInference.Scheduler.StopTokens

/-!
# What the client is told

From the body of a chat request to the numbers and the text of its answer: the
handler limits the request, the scheduler generates one token after the other,
decoding each by itself, and the handler reads the result.  The text is that of
all tokens decoded at once, less the stop sequence that was cut off, and the
usage counts what was really read and generated.

`truthful_run` is the run of the server with the handler, `decode_textOf` the
text of the tokens, and `submitted_error` what becomes of a request that
`submit` refuses.
-/

namespace Qwen

open Concurrency Scheduler

namespace StopChecker

variable {text seq : Bytes} {seqs : List Bytes}

theorem findStopSequence_mem (h : findStopSequence text seqs = some seq) : seq ∈ seqs := by
  induction seqs with
  | nil => cases h
  | cons first rest ih =>
      unfold findStopSequence at h
      split at h
      · exact List.mem_cons_of_mem first (ih h)
      · split at h
        · cases h
          exact List.mem_cons_self
        · exact List.mem_cons_of_mem first (ih h)

/-- What a check matches is one of the stop sequences. -/
theorem check_matched_mem {t : Tokenizer} {tokens : List Int} {config : StopConfig}
    (h : (check t tokens text config).matchedStopSequence ≠ []) :
    (check t tokens text config).matchedStopSequence ∈ config.stopSequences := by
  unfold check at h ⊢
  split
  next hlimit =>
    rw [if_pos hlimit] at h
    exact absurd rfl h
  next hlimit =>
    rw [if_neg hlimit] at h
    cases htoken : stopTokenAt t tokens config.stopTokenIds with
    | some token =>
        rw [htoken] at h
        exact absurd rfl h
    | none =>
        rw [htoken] at h
        dsimp only at h ⊢
        split
        next hnone =>
          rw [if_pos hnone] at h
          exact absurd rfl h
        next hsome =>
          rw [if_neg hsome] at h
          cases hfind : findStopSequence text config.stopSequences with
          | none =>
              rw [hfind] at h
              exact absurd rfl h
          | some seq => exact findStopSequence_mem hfind

end StopChecker

/-- What was answered with status 200. -/
def ReplyPoint.answer? : ReplyPoint → Option ChatCompletionResponse
  | .replied _ (.ok answer) => some answer
  | _ => none

theorem ReplyPoint.replied_of_answer {point : ReplyPoint} {answer : ChatCompletionResponse}
    (h : point.answer? = some answer) : ∃ exit, point = .replied exit (.ok answer) := by
  cases point with
  | replied exit response =>
      cases response with
      | error e => cases h
      | ok answer' =>
          cases h
          exact ⟨exit, rfl⟩
  | _ => cases h

/-- An answer that is true of a request submitted as `submitted`. -/
structure Truthful (d : SchedulerSetup) (t : QwenBPETokenizer) (submitted q : Request)
    (answer : ChatCompletionResponse) : Prop where
  /-- decoding token by token gives what decoding all at once gives -/
  text : t.decode q.outputTokens = .ok (answer.content ++ matchedSequence d q)
  cut : matchedSequence d q = [] ∨ matchedSequence d q ∈ submitted.stopSequences
  promptTokens : answer.promptTokens = submitted.inputTokens.length
  completionTokens : answer.completionTokens = q.outputTokens.length
  totalTokens : answer.totalTokens = answer.promptTokens + answer.completionTokens
  limit : answer.completionTokens ≤ submitted.maxTokens
  length : answer.finishReason = .length ↔ answer.completionTokens = submitted.maxTokens

section Answer

variable {A : Type} [IKVCacheAllocator A] [LawfulKVCacheAllocator A] {a : A}
  {g : Option GPURouter} {requests : RequestPtr → Request} {r : RequestPtr}
  {t : QwenBPETokenizer}

/-- Decoding all tokens at once. -/
theorem decode_textOf {d : SchedulerSetup} (ht : t.initialized = true)
    (hd : d.tokenizer = t.toTokenizer) (tokens : List Int) :
    t.decode tokens = .ok (textOf d tokens) := by
  have htokens : (fun token => t.decodeOrSkip token) = d.tokenizer.tokenText := by
    funext token
    rw [hd, t.toTokenizer_tokenText]
  unfold QwenBPETokenizer.decode textOf
  rw [ht, QwenBPETokenizer.decodeBytes_eq, ← htokens]
  rfl

/-- The answer made of a completed request is true of it. -/
theorem truthful_run (d : SchedulerSetup) (ht : t.initialized = true)
    (hd : d.tokenizer = t.toTokenizer) (hfresh : Fresh requests) (h : Unstarted (requests r))
    (hone : 1 ≤ (requests r).maxTokens)
    (hfits : (requests r).inputTokens.length + (requests r).maxTokens < 2 ^ 31)
    (schedule : List (ThreadId × Answer)) :
    let q := ((System.initial (create a g requests)).run (code d) schedule).state.requests r
    q.state = .completed → ∀ answer, Agrees q (.ok answer) →
      Truthful d t (requests r) q answer := by
  intro q hcompleted answer hagrees
  have hinput : q.input = (requests r).input :=
    (constant_run d (create a g requests) schedule).input r
  have hprompt : q.inputTokens = (requests r).inputTokens := congrArg Prod.fst hinput
  have hstops : q.stopSequences = (requests r).stopSequences := congrArg (·.2.2) hinput
  have hover : q.state.isOver = true := by rw [hcompleted]; rfl
  obtain ⟨hlimits, hlength⟩ := limits_run d a g hfresh h hone hfits schedule
  have htokens : (q.outputTokens.length : Int) ≤ (requests r).maxTokens := hlimits.tokens
  have hlength : q.finishReason = .length ↔
      (q.outputTokens.length : Int) = (requests r).maxTokens := hlength (Or.inr hover)
  have htext : q.outputText ++ matchedSequence d q = textOf d q.outputTokens :=
    completed_text d hfresh h schedule hcompleted
  have hread : q.promptTokens = (requests r).inputTokens.length := by
    rw [Request.promptTokens, hprompt]
    exact Wrapping.toSigned_of_lt (by omega)
  have hgenerated : q.completionTokens = q.outputTokens.length := by
    rw [Request.completionTokens]
    exact Wrapping.toSigned_of_lt (by omega)
  have htotal : q.totalTokens = q.promptTokens + q.completionTokens := by
    unfold Request.totalTokens
    rw [hread, hgenerated]
    exact Wrapping.toSigned_of_range (by omega) (by omega)
  clear_value q
  cases hagrees with
  | completed _ =>
      constructor <;> try dsimp only
      case text => exact (decode_textOf ht hd _).trans (congrArg Except.ok htext.symm)
      case cut =>
        rw [← hstops]
        exact or_iff_not_imp_left.mpr StopChecker.check_matched_mem
      case promptTokens => exact hread
      case completionTokens => exact hgenerated
      case totalTokens => exact htotal
      case limit => rwa [hgenerated]
      case length => rwa [hgenerated]

omit [IKVCacheAllocator A] [LawfulKVCacheAllocator A] in
theorem submitted_error {c : ValidationConfig} {build : List Message → Result BuiltPrompt}
    {apiRequest : ChatCompletionRequest} {id : String} {request : Request}
    (h : Handlers.chatCompletions c build id apiRequest = .ok request) : request.error = none := by
  unfold Handlers.chatCompletions at h
  obtain ⟨_, -, h⟩ := Except.bind_eq_ok h
  obtain ⟨_, -, h⟩ := Except.bind_eq_ok h
  obtain ⟨_, -, h⟩ := Except.bind_eq_ok h
  cases h
  rfl

/-- **The answer, end to end.**  Whatever the server is doing besides, a chat
request that is answered with status 200 is answered truthfully, with no more
tokens than were asked for and within the context of the model. -/
theorem answer_truthful {c : ValidationConfig} {build : List Message → Result BuiltPrompt}
    {apiRequest : ChatCompletionRequest} {builtPrompt : BuiltPrompt} {id : String}
    (d : SchedulerSetup) (dumps : Bytes → Bool) (ht : t.initialized = true)
    (hd : d.tokenizer = t.toTokenizer) (hfresh : Fresh requests)
    (hvalid : RequestValidator.validate c apiRequest = .ok ())
    (hbuild : build apiRequest.messages = .ok builtPrompt)
    (hdefault : 1 ≤ c.defaultMaxTokens ∧ c.defaultMaxTokens ≤ c.maxCompletionTokens)
    (hfits : builtPrompt.tokenIds.length + c.maxCompletionTokens < 2 ^ 31)
    (hrequest : Handlers.chatCompletions c build id apiRequest = .ok (requests r))
    (responseTimeoutSec : Nat) (schedule : List (Turn Unit)) :
    let x := (Exchange.initial (create a g requests) .submitting).run d r
      (Handlers.replyStep dumps responseTimeoutSec r) schedule
    ∀ answer, x.handler.answer? = some answer →
      Truthful d t (requests r) (x.system.state.requests r) answer ∧
        answer.promptTokens = builtPrompt.tokenIds.length ∧
        answer.completionTokens ≤ apiRequest.maxTokens.getD c.defaultMaxTokens ∧
        answer.totalTokens ≤ c.maxContextLength := by
  intro x answer hanswer
  obtain ⟨exit, hreplied⟩ := ReplyPoint.replied_of_answer hanswer
  have hcontext := c.context_int32
  obtain ⟨hrequested, hlargest⟩ := RequestValidator.validate_maxTokens hvalid hdefault
  obtain ⟨hstate, htokens, htext, hreason, hcache, hqueue⟩ := Handlers.chatCompletions_new hrequest
  have hunstarted : Unstarted (requests r) := by
    refine ⟨hstate, htokens, htext, hreason, hcache, fun queue hmem => ?_⟩
    rw [hqueue] at hmem
    cases hmem
    exact ⟨rfl, rfl⟩
  have herror : (requests r).error = none := submitted_error hrequest
  obtain ⟨-, e, hrejected⟩ | ⟨hroom, submitted, hsubmitted, hprompt, hmax⟩ :=
    Handlers.chatCompletions_cases id hvalid hbuild hdefault hfits
  · rw [hrejected] at hrequest
    cases hrequest
  obtain rfl : submitted = requests r := Except.ok.inj (hsubmitted.symm.trans hrequest)
  have hx : x.Fitting d dumps r (create a g requests) :=
    Exchange.fitting_run hfresh hunstarted herror responseTimeoutSec schedule
  have hfitting := hx.fits
  rw [hreplied] at hfitting
  have hlearnt : exit.learnt = true := by
    cases hlearnt : exit.learnt with
    | true => rfl
    | false =>
        obtain ⟨e, he⟩ := hfitting.2 hlearnt
        cases he
  have hagrees := (hfitting.1 hlearnt).1
  have hcompleted : (x.system.state.requests r).state = .completed := by
    cases hagrees with
    | completed hcompleted => exact hcompleted
  have hone : 1 ≤ (requests r).maxTokens := by omega
  have hbound : (requests r).inputTokens.length + (requests r).maxTokens < 2 ^ 31 := by
    rw [hprompt]
    omega
  obtain ⟨moves, hmoves⟩ := hx.leads
  rw [hmoves] at hcompleted hagrees
  have htruthful := truthful_run d ht hd hfresh hunstarted hone hbound moves hcompleted answer hagrees
  rw [← hmoves] at htruthful
  have hread := htruthful.promptTokens
  have hlimit := htruthful.limit
  have htotal := htruthful.totalTokens
  rw [hprompt] at hread
  exact ⟨htruthful, hread, by omega, by omega⟩

end Answer

/-- A tokenizer whose vocabulary has one entry. -/
def letterTokenizer : QwenBPETokenizer where
  vocab := AList.singleton (literal "ĠA") 65
  idToToken := AList.singleton 65 (literal "ĠA")
  initialized := true

def letterSetup : SchedulerSetup :=
  { sampleSetup with tokenizer := letterTokenizer.toTokenizer }

/-- A server that generates the letter "A" twice. -/
def letterExchange : Exchange ContiguousKVAllocator ReplyPoint :=
  (Exchange.initial (create sampleContiguous (some (sampleRouter 0)) (numbered sampleSubmitted))
    .submitting).run letterSetup 0 (Handlers.replyStep isUtf8 300 0)
      (List.replicate 12 (.handler {} ()) ++
        List.replicate 60 (.server .decode { sample := .ok 65 }) ++
        List.replicate 8 (.handler {} ()))

theorem answer_truthful_sample :
    ∃ answer, letterExchange.handler.answer? = some answer ∧
      Truthful letterSetup letterTokenizer sampleSubmitted
        (letterExchange.system.state.requests 0) answer := by
  have hvalid : RequestValidator.validate {} sampleChat = .ok () := by
    unfold RequestValidator.validate
    rw [RequestValidator.validateModel_supported (by decide) (by decide)]
    rfl
  have hbuild : sampleBuilder sampleChat.messages = .ok ⟨[1]⟩ := rfl
  have hsubmitted : Handlers.chatCompletions {} sampleBuilder "" sampleChat =
      .ok (numbered sampleSubmitted 0) := by
    rw [Handlers.chatCompletions_eq _ hvalid hbuild]
    rfl
  have hanswer : letterExchange.handler.answer? = some
      { content := literal "ĠAĠA", finishReason := .length, promptTokens := 1
        completionTokens := 2, totalTokens := 3 } := by
    decide +kernel
  unfold letterExchange at hanswer ⊢
  exact ⟨_, hanswer, (answer_truthful letterSetup isUtf8 rfl rfl (numbered_fresh rfl) hvalid hbuild
    (by decide) (by decide) hsubmitted 300 _ _ hanswer).1⟩

end Qwen
