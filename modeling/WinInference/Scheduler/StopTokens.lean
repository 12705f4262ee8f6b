import WinInference.Scheduler.StopSequences
import WinInference.Tokenizer.RoundTrip

/-!
# Stop tokens and the returned text

The text of a token is appended before the stop check, and only a stop sequence
is cut off afterwards.  So a completed request that ended at a stop token has the
text of that token at its end, if there is any; however else it ended, its text
is that of all tokens less the stop sequence.

`StopsAtToken` is a state in which the check ends generation at a stop token,
`StopsAtToken.check_eq` its verdict, and `completed_text` the text of a
completed request in terms of its tokens.
-/

namespace Qwen

namespace StopChecker

variable {t : Tokenizer} {tokens : List Int} {text : Bytes} {config : StopConfig}

/-- A check without further stop tokens ends generation at the last token,
because it is a stop token. -/
def StopsAtToken (t : Tokenizer) (maxTokens : Int) (tokens : List Int) (last : Int) : Prop :=
  ¬(maxTokens > 0 ∧ toInt32 tokens.length ≥ maxTokens) ∧ tokens.getLast? = some last ∧
    (last = t.eosTokenId ∨ last = t.imEndId)

/-- A stop token is found before any stop sequence is looked for. -/
theorem StopsAtToken.check_eq {last : Int} (h : StopsAtToken t config.maxTokens tokens last) :
    check t tokens text config =
      { shouldStop := true, reason := .stop, matchedStopToken := last } := by
  obtain ⟨hlimit, hlast, hstop⟩ := h
  have htoken : stopTokenAt t tokens config.stopTokenIds = some last := by
    unfold stopTokenAt
    rw [hlast]
    dsimp only
    by_cases heos : last = t.eosTokenId
    · rw [if_pos heos]
    · rw [if_neg heos, if_pos (hstop.resolve_left heos)]
  rw [check, if_neg hlimit, htoken]

/-- What was trimmed goes back on. -/
theorem trimStopSequence_append_matched {seq : Bytes} (h : seq ≠ [] → endsWith text seq) :
    trimStopSequence text seq ++ seq = text := by
  by_cases hne : seq = []
  · subst hne
    exact List.append_nil text
  · have hend := h hne
    rw [endsWith_eq, List.isSuffixOf_iff_suffix] at hend
    obtain ⟨front, rfl⟩ := hend
    rw [trimStopSequence_append hne]

end StopChecker

namespace Scheduler

open StopChecker

variable {A : Type}

/-- The text of some tokens. -/
def textOf (d : SchedulerSetup) (tokens : List Int) : Bytes := tokens.flatMap d.tokenizer.tokenText

/-- The stop sequence that the last check of a request matched, if any. -/
def matchedSequence (d : SchedulerSetup) (q : Request) : Bytes :=
  (check d.tokenizer q.outputTokens (textOf d q.outputTokens)
    { stopSequences := q.stopSequences, maxTokens := q.maxTokens }).matchedStopSequence

section Runs

variable [IKVCacheAllocator A] [LawfulKVCacheAllocator A] {a : A} {g : Option GPURouter}
  {requests : RequestPtr → Request} {r : RequestPtr}

/-- The text of a completed request, and the stop sequence that was cut off it,
are the text of all its tokens. -/
theorem completed_text (d : SchedulerSetup) (hfresh : Fresh requests) (h : Unstarted (requests r))
    (schedule : List (ThreadId × Answer)) :
    let q := ((System.initial (create a g requests)).run (code d) schedule).state.requests r
    q.state = .completed →
      q.outputText ++ matchedSequence d q = textOf d q.outputTokens := by
  intro q hcompleted
  obtain ⟨-, -, -, houtcome⟩ := run_view (a := a) (g := g) d hfresh h schedule
  have hover : q.state.isOver = true := by rw [hcompleted]; rfl
  have htext : q.outputText = trimStopSequence (textOf d q.outputTokens) (matchedSequence d q) :=
    (houtcome (Or.inr hover)).text
  rw [htext]
  exact trimStopSequence_append_matched check_matched

/-- After a stop token no stop sequence is matched. -/
theorem matchedSequence_of_stopsAtToken {d : SchedulerSetup} {q : Request} {last : Int}
    (h : StopsAtToken d.tokenizer q.maxTokens q.outputTokens last) : matchedSequence d q = [] := by
  have hcheck : check d.tokenizer q.outputTokens (textOf d q.outputTokens)
      { stopSequences := q.stopSequences, maxTokens := q.maxTokens } =
      { shouldStop := true, reason := .stop, matchedStopToken := last } :=
    StopsAtToken.check_eq h
  rw [matchedSequence, hcheck]

/-- The text of a request that ended at a stop token has the text of that token
at its end. -/
theorem completed_at_token (d : SchedulerSetup) (hfresh : Fresh requests)
    (h : Unstarted (requests r)) (schedule : List (ThreadId × Answer)) :
    let q := ((System.initial (create a g requests)).run (code d) schedule).state.requests r
    q.state = .completed → ∀ last, StopsAtToken d.tokenizer q.maxTokens q.outputTokens last →
      q.outputText = textOf d q.outputTokens.dropLast ++ d.tokenizer.tokenText last := by
  intro q hcompleted last hstops
  have htext : q.outputText ++ matchedSequence d q = textOf d q.outputTokens :=
    completed_text d hfresh h schedule hcompleted
  rw [matchedSequence_of_stopsAtToken hstops, List.append_nil] at htext
  have hlast : q.outputTokens = q.outputTokens.dropLast ++ [last] :=
    (List.dropLast_append_getLast? last hstops.2.1).symm
  calc q.outputText = textOf d (q.outputTokens.dropLast ++ [last]) := by rw [← hlast, htext]
    _ = textOf d q.outputTokens.dropLast ++ d.tokenizer.tokenText last := by simp [textOf]

/-- **Stop tokens.**  The text of a completed request leaves out the stop token
it ended at, and otherwise only the stop sequence it ended with, if and only if
the stop token has no text. -/
theorem stop_token_left_out_iff (d : SchedulerSetup) (hfresh : Fresh requests)
    (h : Unstarted (requests r)) (schedule : List (ThreadId × Answer)) :
    let q := ((System.initial (create a g requests)).run (code d) schedule).state.requests r
    q.state = .completed →
      (((∀ last, StopsAtToken d.tokenizer q.maxTokens q.outputTokens last →
            q.outputText = textOf d q.outputTokens.dropLast) ∧
          ((¬ ∃ last, StopsAtToken d.tokenizer q.maxTokens q.outputTokens last) →
            q.outputText ++ matchedSequence d q = textOf d q.outputTokens)) ↔
        ∀ last, StopsAtToken d.tokenizer q.maxTokens q.outputTokens last →
          d.tokenizer.tokenText last = []) := by
  intro q hcompleted
  have hlast := completed_at_token (a := a) (g := g) d hfresh h schedule hcompleted
  constructor
  · rintro ⟨hleft, -⟩ last hstops
    have hsame := (hlast last hstops).symm.trans (hleft last hstops)
    exact List.append_right_eq_self.mp hsame
  · intro hnone
    constructor
    · intro last hstops
      have htext := hlast last hstops
      rw [hnone last hstops, List.append_nil] at htext
      exact htext
    · intro _
      exact completed_text d hfresh h schedule hcompleted

/-- With the built-in vocabulary every request that ends at a stop token is
answered with the marker at the end of its text. -/
theorem builtin_stop_token_shown {t : QwenBPETokenizer}
    (ht : QwenBPETokenizer.Reordered QwenBPETokenizer.builtinTokenizer t) (d : SchedulerSetup)
    (hd : d.tokenizer = t.toTokenizer) (hfresh : Fresh requests) (h : Unstarted (requests r))
    (schedule : List (ThreadId × Answer)) :
    let q := ((System.initial (create a g requests)).run (code d) schedule).state.requests r
    q.state = .completed → (∃ last, StopsAtToken d.tokenizer q.maxTokens q.outputTokens last) →
      q.outputText = textOf d q.outputTokens.dropLast ++ literal "<|im_end|>" := by
  intro q hcompleted
  rintro ⟨last, hstops⟩
  have hlast : last = Marker.imEnd.token := by
    have hstop := hstops.2.2
    rw [hd] at hstop
    have hids : t.config.specialTokens = {} := congrArg (·.specialTokens) ht.config_eq
    unfold QwenBPETokenizer.toTokenizer at hstop
    rw [hids] at hstop
    exact hstop.elim id id
  have hshown : d.tokenizer.tokenText last = literal "<|im_end|>" := by
    rw [hd, hlast, QwenBPETokenizer.toTokenizer_tokenText]
    exact ht.decode_piece (.marker .imEnd)
  rw [← hshown]
  exact completed_at_token d hfresh h schedule hcompleted last hstops

end Runs

theorem stop_token_left_out_iff_sample :
    let q := (alikeRun stoppedRequest (firstSubmitted 45 {})).state.requests 0
    ((∀ last, StopsAtToken sampleSetup.tokenizer q.maxTokens q.outputTokens last →
          q.outputText = textOf sampleSetup q.outputTokens.dropLast) ∧
        ((¬ ∃ last, StopsAtToken sampleSetup.tokenizer q.maxTokens q.outputTokens last) →
          q.outputText ++ matchedSequence sampleSetup q = textOf sampleSetup q.outputTokens)) ↔
      ∀ last, StopsAtToken sampleSetup.tokenizer q.maxTokens q.outputTokens last →
        sampleSetup.tokenizer.tokenText last = [] := by
  have hcompleted : ((alikeRun stoppedRequest (firstSubmitted 45 {})).state.requests 0).state =
      .completed := by
    decide +kernel
  exact stop_token_left_out_iff (a := sampleContiguous) (g := some (sampleRouter 20000)) (r := 0)
    sampleSetup (numbered_fresh rfl) (numbered_unstarted stoppedRequest_unstarted 0)
    (firstSubmitted 45 {}) hcompleted

/-- A scheduler with the built-in vocabulary. -/
def builtinSetup : SchedulerSetup :=
  { sampleSetup with tokenizer := QwenBPETokenizer.builtinTokenizer.toTokenizer }

/-- A run in which the runtime answers with the end marker. -/
def markerRun : System ContiguousKVAllocator :=
  (System.initial (create sampleContiguous (some (sampleRouter 20000))
    (numbered shortRequest))).run (code builtinSetup) (firstSubmitted 45 { sample := .ok 151645 })

/-- The answer of a request that is ended by its first token is that token's
text. -/
theorem stop_token_shown :
    let q := markerRun.state.requests 0
    q.state = .completed ∧ q.outputTokens = [151645] ∧
      StopsAtToken builtinSetup.tokenizer q.maxTokens q.outputTokens 151645 ∧
      textOf builtinSetup q.outputTokens.dropLast = [] ∧
      q.outputText = literal "<|im_end|>" ∧
      q.outputText ≠ textOf builtinSetup q.outputTokens.dropLast := by
  intro q
  have hcompleted : (markerRun.state.requests 0).state = .completed := by decide +kernel
  have htokens : (markerRun.state.requests 0).outputTokens = [151645] := by decide +kernel
  have hmax : (markerRun.state.requests 0).maxTokens = 2 := by decide +kernel
  have hstops : StopsAtToken builtinSetup.tokenizer (markerRun.state.requests 0).maxTokens
      (markerRun.state.requests 0).outputTokens 151645 := by
    rw [htokens, hmax]
    exact ⟨by decide, rfl, Or.inl rfl⟩
  have hfront : textOf builtinSetup (markerRun.state.requests 0).outputTokens.dropLast = [] := by
    rw [htokens]
    rfl
  have htext : (markerRun.state.requests 0).outputText = literal "<|im_end|>" := by
    have hshown := builtin_stop_token_shown (a := sampleContiguous)
      (g := some (sampleRouter 20000)) (r := 0)
      (QwenBPETokenizer.Reordered.refl QwenBPETokenizer.builtinTokenizer) builtinSetup rfl
      (numbered_fresh rfl) (numbered_unstarted shortRequest_unstarted 0)
      (firstSubmitted 45 { sample := .ok 151645 }) hcompleted ⟨151645, hstops⟩
    exact hshown.trans (congrArg (· ++ literal "<|im_end|>") hfront)
  refine ⟨hcompleted, htokens, hstops, hfront, htext, ?_⟩
  rw [hfront]
  exact htext.symm ▸ Marker.imEnd.text_ne_nil

end Scheduler

end Qwen
