import WinInference.Scheduler.Draws
import WinInference.Scheduler.Scheduler

/-!
# The decode step with its sampler

The scheduler's programs leave the sampled token to the answers of a run.  With
the answer that the sampler gives, `run_decode_step` of the scheduler does to a
request what the decode step with the sampler does to its generation.

`Shows` relates the record of a request in the scheduler to its generation, and
`Agrees` the answers of a step to a turn and to the token of the sampler.
`Shows.checkStop` and `Shows.append` are the steps after the token,
`exec_with_logits` and `exec_without_logits` the ways to it, and
`Shows.runDecodeStep` the step as a whole.
-/

namespace Qwen

namespace DecodeThread

open Concurrency

variable {K : Type} [Field K] [LinearOrder K] {lib : SamplingLibrary K}

/-- The scheduler's record of a request shows its generation. -/
structure Shows (request : Request) (q : Generation lib) : Prop where
  outputTokens : request.outputTokens = q.outputTokens
  outputText : request.outputText = q.outputText
  finishReason : request.finishReason = q.finishReason
  maxTokens : request.maxTokens = q.maxTokens
  stopSequences : request.stopSequences = q.stopSequences
  prefillLogits : request.prefillLogits.data.isEmpty = q.prefillLogits.isEmpty

/-- What a turn samples from and the tokens that it passes as the previous ones. -/
def Generation.sampleInput (q : Generation lib) (turn : Turn K) : List K × List Int :=
  if q.outputTokens.isEmpty then (q.prefillLogits, [])
  else (turn.decode.toOption.getD [], q.outputTokens)

/-- The answers of a step are those of a turn, and the token is the sampler's. -/
structure Agrees [FloorRing K] (sampler : Sampler lib) (q : Generation lib) (request : Request)
    (i : Answer) (turn : Turn K) : Prop where
  cancelled : request.isCancelled = turn.cancelledInside
  decode : i.decode.map (fun _ => ()) = turn.decode.map fun _ => ()
  sample : ∀ sampled sampler', sampler.sample (q.sampleInput turn).1 q.samplingParams
    (q.sampleInput turn).2 = some (sampled, sampler') → i.sample = sampled.map (·.tokenId)

section Answers

variable [FloorRing K] {sampler : Sampler lib} {q : Generation lib} {request : Request}
  {i : Answer} {turn : Turn K}

theorem Agrees.decode_error (h : Agrees sampler q request i turn) {e : Error}
    (hdecode : turn.decode = .error e) : i.decode = .error e := by
  have hanswer := h.decode
  rw [hdecode] at hanswer
  cases hi : i.decode with
  | ok logits =>
      rw [hi] at hanswer
      cases hanswer
  | error e' =>
      rw [hi] at hanswer
      cases hanswer
      rfl

theorem Agrees.decode_ok (h : Agrees sampler q request i turn) {logits : List K}
    (hdecode : turn.decode = .ok logits) : ∃ logits', i.decode = .ok logits' := by
  have hanswer := h.decode
  rw [hdecode] at hanswer
  cases hi : i.decode with
  | ok logits' => exact ⟨logits', rfl⟩
  | error e =>
      rw [hi] at hanswer
      cases hanswer

end Answers

section Steps

variable {A : Type} {d : SchedulerSetup} {s : Scheduler A} {r : RequestPtr} {i : Answer}
  {q q' : Generation lib}

/-- The stop conditions. -/
theorem Shows.checkStop (h : Shows (s.requests r) q) :
    ((Scheduler.checkStopAndContinue d r).exec i s).1 =
        (checkStopAndContinue d.tokenizer q).1 ∧
      Shows (((Scheduler.checkStopAndContinue d r).exec i s).2.requests r)
        (checkStopAndContinue d.tokenizer q).2 := by
  obtain ⟨h1, h2, h3, h4, h5, h6⟩ := h
  simp only [Scheduler.checkStopAndContinue, Program.exec_atomic, checkStopAndContinue, h1, h2, h4,
    h5]
  split
  · refine ⟨rfl, ?_⟩
    constructor <;> simp [h1, h2, h4, h5, h6]
  · exact ⟨rfl, h1, h2, h3, h4, h5, h6⟩

/-- A token is appended. -/
theorem Shows.append (h : Shows (s.requests r) q) (token : Int) (draws : List (Draw lib)) :
    let next := checkStopAndContinue d.tokenizer { q with
      outputTokens := q.outputTokens ++ [token]
      outputText := q.outputText ++ d.tokenizer.tokenText token
      draws := draws }
    ((Scheduler.appendToken d r token).exec i s).1 = next.1 ∧
      Shows (((Scheduler.appendToken d r token).exec i s).2.requests r) next.2 := by
  simp only [Scheduler.appendToken, Scheduler.emitToken, Program.exec_bind, Program.exec_update]
  refine Shows.checkStop ?_
  obtain ⟨h1, h2, h3, h4, h5, h6⟩ := h
  constructor <;> simp [Scheduler.pushEvent, h1, h2, h3, h4, h5, h6]

/-! ## The logits -/

/-- The first step has no logits. -/
theorem Shows.exec_noPrefill (h : Shows (s.requests r) q) (hfirst : q.outputTokens.isEmpty = true)
    (hempty : q.prefillLogits.isEmpty = true) :
    (Scheduler.nextLogits r).exec i s =
      (.error (.internal "No prefill logits available for first token"), s) := by
  simp only [Scheduler.nextLogits, Program.exec_bind, Program.exec_read, h.outputTokens, hfirst,
    if_true, Scheduler.takePrefillLogits, Program.exec_atomic, h.prefillLogits, hempty]

/-- The first step takes the logits of the prefill. -/
theorem Shows.exec_prefill (h : Shows (s.requests r) q) (hfirst : q.outputTokens.isEmpty = true)
    (hlogits : q.prefillLogits.isEmpty = false) :
    ((Scheduler.nextLogits r).exec i s).1 = .ok (s.requests r).prefillLogits ∧
      Shows (((Scheduler.nextLogits r).exec i s).2.requests r)
        { q with prefillLogits := [] } := by
  simp only [Scheduler.nextLogits, Program.exec_bind, Program.exec_read, h.outputTokens, hfirst,
    if_true, Scheduler.takePrefillLogits, Program.exec_atomic, h.prefillLogits, hlogits,
    Bool.false_eq_true, if_false]
  obtain ⟨h1, h2, h3, h4, h5, -⟩ := h
  refine ⟨trivial, ?_⟩
  constructor <;> simp [h1, h2, h3, h4, h5]

/-- Later steps call the model. -/
theorem Shows.exec_decode (h : Shows (s.requests r) q) (hlater : q.outputTokens.isEmpty = false) :
    ((Scheduler.nextLogits r).exec i s).1 = i.decode ∧
      Shows (((Scheduler.nextLogits r).exec i s).2.requests r) q := by
  simp only [Scheduler.nextLogits, Program.exec_bind, Program.exec_read, h.outputTokens, hlater,
    Bool.false_eq_true, if_false, Scheduler.callDecodeStep, Program.exec_atomic]
  exact ⟨trivial, h⟩

/-- What the scheduler does once it has logits. -/
def sampleAndAppend (d : SchedulerSetup) (r : RequestPtr) : Sched A (Result Bool) := do
  match ← Scheduler.sampleToken with
  | .error e => return .error e
  | .ok token => return .ok (← Scheduler.appendToken d r token)

/-- No logits, no token. -/
theorem exec_without_logits (hcancelled : (s.requests r).isCancelled = false) {e : Error}
    (hlogits : ((Scheduler.nextLogits r).exec i s).1 = .error e) :
    (Scheduler.runDecodeStep d r).exec i s =
      (.error e, ((Scheduler.nextLogits r).exec i s).2) := by
  simp only [Scheduler.runDecodeStep, Program.exec_bind, Program.exec_read, hcancelled,
    Bool.false_eq_true, if_false, hlogits]
  rfl

theorem exec_with_logits (hcancelled : (s.requests r).isCancelled = false) {logits : Logits}
    (hlogits : ((Scheduler.nextLogits r).exec i s).1 = .ok logits) :
    (Scheduler.runDecodeStep d r).exec i s =
      (sampleAndAppend d r).exec i ((Scheduler.nextLogits r).exec i s).2 := by
  simp only [Scheduler.runDecodeStep, Program.exec_bind, Program.exec_read, hcancelled,
    Bool.false_eq_true, if_false, hlogits]
  rfl

/-! ## The step -/

variable [FloorRing K] {sampler sampler' : Sampler lib} {turn : Turn K} {result : Result Bool}

/-- Sampling, answered by the sampler. -/
theorem Shows.sampleToken {logits : List K} {previousTokens : List Int}
    (h : Shows (s.requests r) q)
    (hsample : ∀ sampled sampler', sampler.sample logits q.samplingParams previousTokens =
      some (sampled, sampler') → i.sample = sampled.map (·.tokenId))
    (hstep : sampleToken d.tokenizer sampler q logits previousTokens =
      some (result, q', sampler')) :
    ((sampleAndAppend d r).exec i s).1 = result ∧
      Shows (((sampleAndAppend d r).exec i s).2.requests r) q' := by
  simp only [DecodeThread.sampleToken, Option.bind_eq_bind, Option.bind_eq_some_iff] at hstep
  obtain ⟨⟨sampled, sampler''⟩, hsampled, hrest⟩ := hstep
  have hanswer := hsample _ _ hsampled
  cases sampled with
  | error e =>
      cases hrest
      simp only [sampleAndAppend, Scheduler.sampleToken, Program.exec_bind, Program.exec_atomic,
        hanswer]
      exact ⟨rfl, h⟩
  | ok sampled =>
      cases hrest
      simp only [sampleAndAppend, Scheduler.sampleToken, Program.exec_bind, Program.exec_atomic,
        hanswer]
      obtain ⟨hcontinues, hafter⟩ := h.append (d := d) (i := i) sampled.tokenId
        (q.draws ++ (drawOf sampler logits q.samplingParams sampled.tokenId).toList)
      exact ⟨congrArg Except.ok hcontinues, hafter⟩

/-- **One decode step.**  With the answers of a turn and the token that the
sampler gives, the scheduler's step has the same result and leaves a request that
shows the same generation. -/
theorem Shows.runDecodeStep (h : Shows (s.requests r) q)
    (hagrees : Agrees sampler q (s.requests r) i turn)
    (hstep : runDecodeStep d.tokenizer sampler q turn = some (result, q', sampler')) :
    ((Scheduler.runDecodeStep d r).exec i s).1 = result ∧
      Shows (((Scheduler.runDecodeStep d r).exec i s).2.requests r) q' := by
  unfold DecodeThread.runDecodeStep at hstep
  have hsample := hagrees.sample
  unfold Generation.sampleInput at hsample
  split at hstep
  next hcancelled =>
    cases hstep
    simp only [Scheduler.runDecodeStep, Program.exec_bind, Program.exec_read, hagrees.cancelled,
      hcancelled, if_true]
    exact ⟨rfl, h⟩
  next hcancelled =>
    rw [Bool.not_eq_true, ← hagrees.cancelled] at hcancelled
    split at hstep
    next hfirst =>
      rw [if_pos hfirst] at hsample
      split at hstep
      next hempty =>
        cases hstep
        have hlogits := h.exec_noPrefill (i := i) hfirst hempty
        rw [exec_without_logits hcancelled (congrArg Prod.fst hlogits), hlogits]
        exact ⟨rfl, h⟩
      next hempty =>
        obtain ⟨hlogits, htaken⟩ := h.exec_prefill (i := i) hfirst (by simpa using hempty)
        rw [exec_with_logits hcancelled hlogits]
        exact htaken.sampleToken hsample hstep
    next hlater =>
      rw [if_neg hlater] at hsample
      obtain ⟨hlogits, hsame⟩ := h.exec_decode (i := i) (by simpa using hlater)
      cases hdecode : turn.decode with
      | error e =>
          rw [hdecode] at hstep
          cases hstep
          rw [hagrees.decode_error hdecode] at hlogits
          rw [exec_without_logits hcancelled hlogits]
          exact ⟨rfl, hsame⟩
      | ok logits =>
          rw [hdecode] at hstep hsample
          obtain ⟨logits', hanswer⟩ := hagrees.decode_ok hdecode
          rw [exec_with_logits hcancelled (hlogits.trans hanswer)]
          exact hsame.sampleToken hsample hstep

end Steps

end DecodeThread

end Qwen
