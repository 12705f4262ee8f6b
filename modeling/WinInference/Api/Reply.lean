import WinInference.Api.Exchange
import WinInference.Api.Routes
import WinInference.Tokenizer.RoundTrip

/-!
# The answer to a request without streaming

The handler learns of the end of its request from the terminal event or, when
nothing came, from the state.  Either way the result is in place and final, so
the handler, which then reads it field by field, answers what the scheduler
stored.

The answer is written as JSON.  `dumps` is whether the JSON library takes a
text: its `dump` throws on a string that is not UTF-8, and no one catches that
in the handler.  Codes and messages of errors are UTF-8.
-/

namespace Qwen

open Concurrency Scheduler

/-- What is answered with status 200, besides the id, the time and the model
name. -/
structure ChatCompletionResponse where
  content : Bytes
  finishReason : FinishReason
  promptTokens : Int
  completionTokens : Int
  totalTokens : Int
deriving DecidableEq

/-- The status of an error. -/
def errorStatus (error : Error) : Nat :=
  if error.code = "timeout" then 504
  else if error.code = "resource_exhausted" then 503
  else 500

/-- How the handler left its wait loop. -/
inductive WaitExit where
  /-- `submit` returned an error, and there was no loop -/
  | refused
  | event
  | polled
  | timedOut
deriving DecidableEq

/-- The handler learnt that the request had ended. -/
def WaitExit.learnt : WaitExit → Bool
  | .event | .polled => true
  | .refused | .timedOut => false

/-- Where the handler is. -/
inductive ReplyPoint where
  | submitting
  | popping (startTime : Nat)
  /-- nothing was popped: is the request terminal? -/
  | polling (startTime : Nat)
  /-- it is not: is it too late? -/
  | timing (startTime : Nat)
  | leaving (exit : WaitExit) (errorResult : Option Error)
  | readText (exit : WaitExit)
  | readReason (exit : WaitExit) (content : Bytes)
  | readUsage (exit : WaitExit) (content : Bytes) (reason : FinishReason)
  | replied (exit : WaitExit) (response : Except ErrorResponse ChatCompletionResponse)
  /-- left by an exception of the JSON library, without an answer -/
  | threw (exit : WaitExit)

namespace ReplyPoint

/-- How the handler left its wait loop, once it has. -/
def exit? : ReplyPoint → Option WaitExit
  | .leaving exit _ | .readText exit | .readReason exit _ | .readUsage exit _ _
  | .replied exit _ | .threw exit => some exit
  | .submitting | .popping _ | .polling _ | .timing _ => none

/-- Whether the handler was left by an exception. -/
def isThrown : ReplyPoint → Bool
  | .threw _ => true
  | _ => false

/-- The steps from the end of the wait loop to the end of the handler. -/
def stepsLeft : ReplyPoint → Nat
  | .leaving _ _ => 4
  | .readText _ => 3
  | .readReason _ _ => 2
  | .readUsage _ _ _ => 1
  | .submitting | .popping _ | .polling _ | .timing _ | .replied _ _ | .threw _ => 0

theorem stepsLeft_le (point : ReplyPoint) : point.stepsLeft ≤ 4 := by
  cases point <;> simp [stepsLeft]

theorem ended_of_stepsLeft {point : ReplyPoint} {exit : WaitExit} (h : point.exit? = some exit)
    (hleft : point.stepsLeft = 0) :
    (∃ response, point = .replied exit response) ∨ point = .threw exit := by
  cases point with
  | replied e response =>
      cases h
      exact Or.inl ⟨response, rfl⟩
  | threw e =>
      cases h
      exact Or.inr rfl
  | submitting | popping | polling | timing => cases h
  | leaving | readText | readReason | readUsage => cases hleft

end ReplyPoint

namespace Handlers

variable {A : Type}

/-- The non-streaming path of `chat_completions`, from its call of `submit`. -/
def replyStep (dumps : Bytes → Bool) (responseTimeoutSec : Nat) (r : RequestPtr) :
    Exchange.Handler A ReplyPoint Unit :=
  fun i _ w point =>
    let request := w.state.requests r
    match point with
    | .submitting =>
        match w.threads (.submit r) with
        | .ret (.returned (.error e)) =>
            (.look, .replied .refused (.error (.ofError 503 e)))
        | .ret (.returned (.ok ())) => (.look, .popping i.now)
        | _ => (.submit, .submitting)
    | .popping startTime =>
        match w.state.nextEvent r with
        | none => (.pop, .polling startTime)
        | some (.token _ _) => (.pop, .popping startTime)
        | some (.complete _) => (.pop, .leaving .event none)
        | some (.error e) => (.pop, .leaving .event (some e))
    | .polling startTime =>
        if request.isTerminal then (.look, .leaving .polled none)
        else (.look, .timing startTime)
    | .timing startTime =>
        if timedOut (deadlineAfter startTime responseTimeoutSec) i.now then
          (.cancel, .leaving .timedOut (some (.timeout "Request timed out")))
        else (.look, .popping startTime)
    | .leaving exit errorResult =>
        match errorResult.or request.error with
        | some e => (.look, .replied exit (.error (.ofError (errorStatus e) e)))
        | none => (.look, .readText exit)
    | .readText exit => (.look, .readReason exit request.outputText)
    | .readReason exit content => (.look, .readUsage exit content request.finishReason)
    | .readUsage exit content reason =>
        let response : ChatCompletionResponse :=
          { content := content
            finishReason := reason
            promptTokens := request.promptTokens
            completionTokens := request.completionTokens
            totalTokens := request.totalTokens }
        (.look, if dumps content then .replied exit (.ok response) else .threw exit)
    | .replied exit response => (.look, .replied exit response)
    | .threw exit => (.look, .threw exit)

end Handlers

/-- The answer that agrees with how a request ended. -/
inductive Agrees (q : Request) : Except ErrorResponse ChatCompletionResponse → Prop where
  | completed (h : q.state = .completed) :
      Agrees q (.ok
        { content := q.outputText
          finishReason := q.finishReason
          promptTokens := q.promptTokens
          completionTokens := q.completionTokens
          totalTokens := q.totalTokens })
  | errored {e : Error} (h : q.state = .errored) (he : q.error = some e) :
      Agrees q (.error (.ofError (errorStatus e) e))

/-- Answers are made of the result only. -/
theorem Agrees.of_result {q q' : Request} {response : Except ErrorResponse ChatCompletionResponse}
    (h : Agrees q response) (hresult : q'.result = q.result) : Agrees q' response := by
  have hstate := Request.state_of_result hresult
  cases h with
  | completed h =>
      have hreason : q'.finishReason = q.finishReason := congrArg (·.2.2.1) hresult
      have htext : q'.outputText = q.outputText := congrArg (·.2.2.2.1) hresult
      have houtput : q'.outputTokens = q.outputTokens := congrArg (·.2.2.2.2.1) hresult
      have hinput : q'.inputTokens = q.inputTokens := congrArg (·.2.2.2.2.2) hresult
      have hagrees := Agrees.completed (hstate.trans h)
      simp only [Request.totalTokens, Request.completionTokens, Request.promptTokens, hreason,
        htext, houtput, hinput] at hagrees
      exact hagrees
  | errored h he =>
      exact .errored (hstate.trans h) ((Request.error_of_result hresult).trans he)

/-- The two ways in which a request ends. -/
theorem Request.ending_cases {q : Request} {event : TokenEvent} (h : q.ending = some event) :
    (q.state = .completed ∧ q.error = none ∧ event = .complete q.finishReason) ∨
      ∃ e, q.state = .errored ∧ q.error = some e ∧ event = .error e := by
  unfold Request.ending at h
  split at h
  next hstate herror => exact Or.inl ⟨hstate, herror, (Option.some.inj h).symm⟩
  next e hstate herror => exact Or.inr ⟨e, hstate, herror, (Option.some.inj h).symm⟩
  next => cases h

/-! ## What the handler has learnt -/

/-- What the handler has read so far is what the request ended with. -/
def Fits (dumps : Bytes → Bool) (accepted : Prop) (q : Request) : ReplyPoint → Prop
  | .submitting => True
  | .popping _ | .polling _ | .timing _ => accepted
  | .leaving exit errorResult =>
      (exit.learnt = true → q.state.isOver = true ∧ errorResult.or q.error = q.error) ∧
        (exit.learnt = false → errorResult.isSome = true)
  | .readText exit => exit.learnt = true ∧ q.state = .completed
  | .readReason exit content =>
      exit.learnt = true ∧ q.state = .completed ∧ content = q.outputText
  | .readUsage exit content reason =>
      exit.learnt = true ∧ q.state = .completed ∧ content = q.outputText ∧
        reason = q.finishReason
  | .replied exit response =>
      (exit.learnt = true → Agrees q response ∧ (q.state = .completed → dumps q.outputText = true)) ∧
        (exit.learnt = false → ∃ e, response = .error e)
  | .threw exit => exit.learnt = true ∧ q.state = .completed ∧ dumps q.outputText = false

theorem Agrees.isOver {q : Request} {response : Except ErrorResponse ChatCompletionResponse}
    (h : Agrees q response) : q.state.isOver = true := by
  cases h with
  | completed h => rw [h]; rfl
  | errored h _ => rw [h]; rfl

theorem Fits.isOver {dumps : Bytes → Bool} {accepted : Prop} {q : Request} {point : ReplyPoint}
    (h : Fits dumps accepted q point) {exit : WaitExit} (hexit : point.exit? = some exit)
    (hlearnt : exit.learnt = true) : q.state.isOver = true := by
  cases point with
  | submitting | popping | polling | timing => cases hexit
  | leaving e errorResult =>
      cases hexit
      exact (h.1 hlearnt).1
  | readText e =>
      rw [h.2]
      rfl
  | readReason e content =>
      rw [h.2.1]
      rfl
  | readUsage e content reason =>
      rw [h.2.1]
      rfl
  | replied e response =>
      cases hexit
      exact (h.1 hlearnt).1.isOver
  | threw e =>
      rw [h.2.1]
      rfl

/-- It still is when the result has stayed. -/
theorem Fits.stays {dumps : Bytes → Bool} {accepted accepted' : Prop} {q q' : Request}
    {point : ReplyPoint} (h : Fits dumps accepted q point) (haccepted : accepted → accepted')
    (hresult : q.state.isOver = true → q'.result = q.result) : Fits dumps accepted' q' point := by
  have hcompleted (hq : q.state = .completed) : q'.result = q.result := by
    apply hresult
    rw [hq]
    rfl
  cases point with
  | submitting => trivial
  | popping | polling | timing => exact haccepted h
  | leaving exit errorResult =>
      refine ⟨fun hlearnt => ?_, h.2⟩
      obtain ⟨hover, herror⟩ := h.1 hlearnt
      have hsame := hresult hover
      rw [Request.state_of_result hsame, Request.error_of_result hsame]
      exact ⟨hover, herror⟩
  | readText exit =>
      obtain ⟨hlearnt, hq⟩ := h
      exact ⟨hlearnt, (Request.state_of_result (hcompleted hq)).trans hq⟩
  | readReason exit content =>
      obtain ⟨hlearnt, hq, hcontent⟩ := h
      have hsame := hcompleted hq
      have htext : q'.outputText = q.outputText := congrArg (·.2.2.2.1) hsame
      exact ⟨hlearnt, (Request.state_of_result hsame).trans hq, hcontent.trans htext.symm⟩
  | readUsage exit content reason =>
      obtain ⟨hlearnt, hq, hcontent, hreason⟩ := h
      have hsame := hcompleted hq
      have htext : q'.outputText = q.outputText := congrArg (·.2.2.2.1) hsame
      have hstop : q'.finishReason = q.finishReason := congrArg (·.2.2.1) hsame
      exact ⟨hlearnt, (Request.state_of_result hsame).trans hq, hcontent.trans htext.symm,
        hreason.trans hstop.symm⟩
  | replied exit response =>
      refine ⟨fun hlearnt => ?_, h.2⟩
      obtain ⟨hagrees, hdumps⟩ := h.1 hlearnt
      have hsame := hresult hagrees.isOver
      have htext : q'.outputText = q.outputText := congrArg (·.2.2.2.1) hsame
      refine ⟨hagrees.of_result hsame, fun hq' => ?_⟩
      rw [htext]
      exact hdumps ((Request.state_of_result hsame).symm.trans hq')
  | threw exit =>
      obtain ⟨hlearnt, hq, hdumps⟩ := h
      have hsame := hcompleted hq
      have htext : q'.outputText = q.outputText := congrArg (·.2.2.2.1) hsame
      exact ⟨hlearnt, (Request.state_of_result hsame).trans hq, htext.symm ▸ hdumps⟩

namespace Scheduler

variable {A : Type} {s : Scheduler A} {r : RequestPtr}

theorem nextEvent_delivered {event : TokenEvent} (h : s.nextEvent r = some event) :
    event ∈ s.delivered r := by
  obtain ⟨t, hqueue, hpop⟩ := Option.bind_eq_some_iff.mp h
  have hhead : event ∈ t.events := by
    unfold TokenQueue.pop at hpop
    split at hpop
    next => cases hpop
    next first rest hevents =>
      rw [hevents, ← Option.some.inj hpop]
      exact List.mem_cons_self
  rw [Scheduler.delivered, hqueue]
  exact List.mem_append_right _ hhead

/-- A terminal event on the queue is the one the request ended with. -/
theorem Coherent.nextEvent (h : Coherent r s) {event : TokenEvent}
    (hnext : s.nextEvent r = some event) (hterminal : event.isTerminal = true) :
    (s.requests r).ending = some event := by
  have hmem := nextEvent_delivered hnext
  cases hover : (s.requests r).state.isOver with
  | false =>
      have hnot := h.unended hover event hmem
      rw [hterminal] at hnot
      cases hnot
  | true =>
      obtain ⟨ruling, hruled⟩ := h.ruled hover
      rw [hruled.offered event hmem hterminal]
      exact hruled.ending

end Scheduler

section Steps

variable {A : Type} {dumps : Bytes → Bool} {r : RequestPtr} {w : System A}

/-- `submit` has returned success. -/
def Accepted (r : RequestPtr) (w : System A) : Prop :=
  w.threads (.submit r) = .ret (.returned (.ok ()))

/-- One step of the handler: what it reads is the result. -/
theorem replyStep_fits (hcoherent : Coherent r w.state)
    (hpushed : Accepted r w → r ∈ w.state.pushed) {point : ReplyPoint}
    (h : Fits dumps (Accepted r w) (w.state.requests r) point) (responseTimeoutSec : Nat)
    (i : Answer) :
    Fits dumps (Accepted r w) (w.state.requests r)
      (Handlers.replyStep dumps responseTimeoutSec r i () w point).2 := by
  cases point with
  | submitting =>
      unfold Handlers.replyStep
      dsimp only
      split
      next e hthread => exact ⟨nofun, fun _ => ⟨_, rfl⟩⟩
      next hthread => exact hthread
      next => trivial
  | popping startTime =>
      unfold Handlers.replyStep
      dsimp only
      split
      next hnext => exact h
      next hnext => exact h
      next reason hnext =>
          have hending := hcoherent.nextEvent hnext rfl
          exact ⟨fun _ => ⟨Request.isOver_of_ending hending, rfl⟩, nofun⟩
      next e hnext =>
          have hending := hcoherent.nextEvent hnext rfl
          refine ⟨fun _ => ⟨Request.isOver_of_ending hending, ?_⟩, nofun⟩
          obtain ⟨-, -, heq⟩ | ⟨e', -, herror, heq⟩ := Request.ending_cases hending
          · cases heq
          · cases heq
            rw [herror]
            rfl
  | polling startTime =>
      cases hterminal : (w.state.requests r).isTerminal with
      | true =>
          simp only [Handlers.replyStep, hterminal, if_true]
          exact ⟨fun _ => ⟨hcoherent.terminal (hpushed h) hterminal, rfl⟩, nofun⟩
      | false =>
          simp only [Handlers.replyStep, hterminal]
          exact h
  | timing startTime =>
      unfold Handlers.replyStep
      dsimp only
      split
      next => exact ⟨nofun, fun _ => rfl⟩
      next => exact h
  | leaving exit errorResult =>
      cases hlearnt : exit.learnt with
      | false =>
          obtain ⟨e, rfl⟩ := Option.isSome_iff_exists.mp (h.2 hlearnt)
          refine ⟨fun hyes => ?_, fun _ => ⟨_, rfl⟩⟩
          rw [hlearnt] at hyes
          cases hyes
      | true =>
          obtain ⟨hover, herror⟩ := h.1 hlearnt
          obtain ⟨ruling, hruled⟩ := hcoherent.ruled hover
          obtain ⟨hstate, hnone, -⟩ | ⟨e, hstate, hsome, -⟩ := Request.ending_cases hruled.ending
          · simp only [Handlers.replyStep, herror.trans hnone]
            exact ⟨hlearnt, hstate⟩
          · simp only [Handlers.replyStep, herror.trans hsome]
            refine ⟨fun _ => ⟨.errored hstate hsome, fun hcompleted => ?_⟩, fun hno => ?_⟩
            · rw [hstate] at hcompleted
              cases hcompleted
            · rw [hlearnt] at hno
              cases hno
  | readText exit => exact ⟨h.1, h.2, rfl⟩
  | readReason exit content => exact ⟨h.1, h.2.1, h.2.2, rfl⟩
  | readUsage exit content reason =>
      obtain ⟨hlearnt, hstate, rfl, rfl⟩ := h
      cases hdumps : dumps (w.state.requests r).outputText with
      | true =>
          simp only [Handlers.replyStep, hdumps, if_true]
          refine ⟨fun _ => ⟨.completed hstate, fun _ => hdumps⟩, fun hno => ?_⟩
          rw [hlearnt] at hno
          cases hno
      | false =>
          simp only [Handlers.replyStep, hdumps]
          exact ⟨hlearnt, hstate, hdumps⟩
  | replied | threw => exact h

/-- Outside the wait loop every step of the handler brings it nearer to its
end. -/
theorem replyStep_stepsLeft {point : ReplyPoint} {exit : WaitExit}
    (h : point.exit? = some exit) (responseTimeoutSec : Nat) (i : Answer) (w : System A) :
    (Handlers.replyStep dumps responseTimeoutSec r i () w point).2.exit? = some exit ∧
      (Handlers.replyStep dumps responseTimeoutSec r i () w point).2.stepsLeft ≤ point.stepsLeft - 1 := by
  cases point with
  | submitting | popping | polling | timing => cases h
  | leaving e errorResult =>
      unfold Handlers.replyStep
      dsimp only
      split
      next => exact ⟨h, Nat.zero_le _⟩
      next => exact ⟨h, Nat.le_refl _⟩
  | readUsage e content reason =>
      unfold Handlers.replyStep
      dsimp only
      split
      next => exact ⟨h, Nat.le_refl _⟩
      next => exact ⟨h, Nat.le_refl _⟩
  | readText | readReason | replied | threw => exact ⟨h, Nat.le_refl _⟩

end Steps

/-! ## Runs -/

section Runs

variable {A : Type} [IKVCacheAllocator A] {a : A} {g : Option GPURouter}
  {requests : RequestPtr → Request} {r : RequestPtr} {d : SchedulerSetup} {dumps : Bytes → Bool}

/-- From a server state on, acceptance and a final result stay. -/
theorem leads_stays (hfresh : Fresh requests) (h : Unstarted (requests r))
    (herror : (requests r).error = none) {w w' : System A}
    (hw : Exchange.Leads d (System.initial (create a g requests)) w)
    (hleads : Exchange.Leads d w w') :
    (Accepted r w → Accepted r w') ∧
      ((w.state.requests r).state.isOver = true →
        (w'.state.requests r).result = (w.state.requests r).result) := by
  obtain ⟨before, rfl⟩ := hw
  obtain ⟨after, rfl⟩ := hleads
  constructor
  · intro haccepted
    exact Pool.run_resting haccepted rfl after
  · intro hover
    exact result_stays d hfresh h herror before after hover

/-- What holds of an exchange at every moment. -/
structure Exchange.Fitting (d : SchedulerSetup) (dumps : Bytes → Bool) (r : RequestPtr)
    (s : Scheduler A) (x : Exchange A ReplyPoint) : Prop where
  leads : Exchange.Leads d (System.initial s) x.system
  poised : Exchange.Poised r x.system
  fits : Fits dumps (Accepted r x.system) (x.system.state.requests r) x.handler

/-- One step of the server or of the handler. -/
theorem Exchange.Fitting.step (hfresh : Fresh requests) (h : Unstarted (requests r))
    (herror : (requests r).error = none) (responseTimeoutSec : Nat)
    {x : Exchange A ReplyPoint} (hx : x.Fitting d dumps r (create a g requests))
    (turn : Turn Unit) :
    (x.step d r (Handlers.replyStep dumps responseTimeoutSec r) turn).Fitting d dumps r
      (create a g requests) := by
  obtain ⟨hleads, hpoised⟩ :=
    Exchange.leads_step (d := d) (Handlers.replyStep dumps responseTimeoutSec r) hx.poised turn
  obtain ⟨haccepted, hresult⟩ := leads_stays hfresh h herror hx.leads hleads
  refine ⟨hx.leads.trans hleads, hpoised, ?_⟩
  cases turn with
  | server t i =>
      rw [Exchange.step_server_handler]
      exact hx.fits.stays haccepted hresult
  | handler i input =>
      obtain ⟨moves, hmoves⟩ := hx.leads
      have hcoherent : Coherent r x.system.state := by
        rw [hmoves]
        exact coherent_run d hfresh h herror moves
      have hpushed (hok : Accepted r x.system) : r ∈ x.system.state.pushed := by
        have harrived := arrival_run d a g requests moves r _ (hmoves ▸ hok)
        rw [hmoves]
        exact harrived.1.mpr rfl
      have hfits := replyStep_fits hcoherent hpushed hx.fits responseTimeoutSec i
      exact hfits.stays haccepted hresult

theorem Exchange.fitting_run (hfresh : Fresh requests) (h : Unstarted (requests r))
    (herror : (requests r).error = none) (responseTimeoutSec : Nat)
    (schedule : List (Turn Unit)) :
    ((Exchange.initial (create a g requests) .submitting).run d r (Handlers.replyStep dumps responseTimeoutSec r)
      schedule).Fitting d dumps r (create a g requests) := by
  induction schedule using List.reverseRecOn with
  | nil => exact ⟨Exchange.Leads.refl _, ⟨rfl, rfl⟩, trivial⟩
  | append_singleton rest turn ih =>
      rw [Exchange.run_concat]
      exact ih.step hfresh h herror responseTimeoutSec turn

/-- The steps that a schedule gives to the handler. -/
def handlerTurns {ι : Type} (schedule : List (Turn ι)) : Nat :=
  schedule.countP fun
    | .server _ _ => false
    | .handler _ _ => true

/-- Once out of its wait loop, the handler gets to its end whatever the
server does. -/
theorem Exchange.run_stepsLeft (dumps : Bytes → Bool) (responseTimeoutSec : Nat) {exit : WaitExit}
    (x : Exchange A ReplyPoint) (h : x.handler.exit? = some exit) (more : List (Turn Unit)) :
    let y := x.run d r (Handlers.replyStep dumps responseTimeoutSec r) more
    y.handler.exit? = some exit ∧
      y.handler.stepsLeft ≤ x.handler.stepsLeft - handlerTurns more := by
  induction more generalizing x with
  | nil => exact ⟨h, Nat.le_refl _⟩
  | cons turn rest ih =>
      cases turn with
      | server t i =>
          have hsame := Exchange.step_server_handler (d := d) (r := r)
            (Handlers.replyStep dumps responseTimeoutSec r) x t i
          obtain ⟨hexit, hleft⟩ := ih _ (hsame ▸ h)
          rw [hsame] at hleft
          exact ⟨hexit, hleft⟩
      | handler i input =>
          obtain ⟨hexit, hstep⟩ := replyStep_stepsLeft (r := r) h responseTimeoutSec i x.system
          obtain ⟨hexit', hleft⟩ :=
            ih (x.step d r (Handlers.replyStep dumps responseTimeoutSec r) (.handler i input)) hexit
          refine ⟨hexit', hleft.trans ?_⟩
          have hcount : handlerTurns (Turn.handler i input :: rest) = handlerTurns rest + 1 :=
            List.countP_cons_of_pos rfl
          have hnext : (x.step d r (Handlers.replyStep dumps responseTimeoutSec r)
              (.handler i input)).handler.stepsLeft ≤ x.handler.stepsLeft - 1 := hstep
          omega

/-- **The answer agrees with the scheduler.**  From the moment a handler has left
its wait loop on its terminal event or on a terminal state, the result stays as
it is, and an answer of this handler is made of it; no handler answers 200 for a
request that did not complete.  The handler gets to its answer exactly when the
JSON library takes the text of a completed request. -/
theorem reply_agrees_iff (d : SchedulerSetup) (dumps : Bytes → Bool) (hfresh : Fresh requests)
    (h : Unstarted (requests r)) (herror : (requests r).error = none) (responseTimeoutSec : Nat)
    (schedule more : List (Turn Unit)) :
    let x := (Exchange.initial (create a g requests) .submitting).run d r
      (Handlers.replyStep dumps responseTimeoutSec r) schedule
    let y := x.run d r (Handlers.replyStep dumps responseTimeoutSec r) more
    let request := x.system.state.requests r
    (∀ exit, x.handler.exit? = some exit → exit.learnt = true →
      (y.system.state.requests r).result = request.result) ∧
    (∀ exit response, x.handler = .replied exit response → exit.learnt = true →
      Agrees request response) ∧
    (∀ exit answer, x.handler = .replied exit (.ok answer) → request.state = .completed) ∧
    (∀ exit, x.handler.exit? = some exit → exit.learnt = true → 4 ≤ handlerTurns more →
      ((∃ response, y.handler = .replied exit response ∧ Agrees request response) ↔
        (request.state = .completed → dumps request.outputText = true))) := by
  intro x y request
  have hx : x.Fitting d dumps r (create a g requests) :=
    Exchange.fitting_run hfresh h herror responseTimeoutSec schedule
  have hfits : Fits dumps (Accepted r x.system) request x.handler := hx.fits
  have hleads : Exchange.Leads d x.system y.system :=
    (Exchange.leads_run (Handlers.replyStep dumps responseTimeoutSec r) hx.poised more).1
  have hstays : request.state.isOver = true →
      (y.system.state.requests r).result = request.result :=
    (leads_stays hfresh h herror hx.leads hleads).2
  refine ⟨fun exit hexit hlearnt => hstays (hfits.isOver hexit hlearnt),
    fun exit response hreplied hlearnt => ?_, fun exit answer hreplied => ?_,
    fun exit hexit hlearnt hmore => ?_⟩
  · rw [hreplied] at hfits
    exact (hfits.1 hlearnt).1
  · rw [hreplied] at hfits
    cases hlearnt : exit.learnt with
    | true =>
        cases (hfits.1 hlearnt).1 with
        | completed hstate => exact hstate
    | false =>
        obtain ⟨e, he⟩ := hfits.2 hlearnt
        cases he
  · have hy : y.Fitting d dumps r (create a g requests) := by
      have hrun : ((Exchange.initial (create a g requests) .submitting).run d r
          (Handlers.replyStep dumps responseTimeoutSec r) (schedule ++ more)).Fitting d dumps r
            (create a g requests) :=
        Exchange.fitting_run hfresh h herror responseTimeoutSec (schedule ++ more)
      rw [Exchange.run_append] at hrun
      exact hrun
    obtain ⟨hexit', hleft⟩ :=
      x.run_stepsLeft (d := d) (r := r) dumps responseTimeoutSec hexit more
    have hbound := x.handler.stepsLeft_le
    have hzero : y.handler.stepsLeft = 0 := Nat.le_zero.mp (hleft.trans (by omega))
    -- at the end of the handler the result is the one it had at `x`
    have hended : Fits dumps (Accepted r y.system) request y.handler := by
      refine hy.fits.stays id fun _ => ?_
      exact (hstays (hfits.isOver hexit hlearnt)).symm
    obtain ⟨response, hreplied⟩ | hthrew := ReplyPoint.ended_of_stepsLeft hexit' hzero
    · have hreplied : y.handler = .replied exit response := hreplied
      rw [hreplied] at hended
      obtain ⟨hagrees, hdumps⟩ := hended.1 hlearnt
      exact ⟨fun _ => hdumps, fun _ => ⟨response, hreplied, hagrees⟩⟩
    · have hthrew : y.handler = .threw exit := hthrew
      rw [hthrew] at hended
      obtain ⟨-, hstate, hdumps⟩ := hended
      constructor
      · rintro ⟨response, hreplied, -⟩
        rw [hthrew] at hreplied
        cases hreplied
      · intro hcondition
        rw [hcondition hstate] at hdumps
        cases hdumps

end Runs


/-! ### Two answers -/

/-- The handler submits its request, the server serves it, and the handler moves
`n` times. -/
def answeredTurns (n : Nat) : List (Turn Unit) :=
  List.replicate 12 (.handler {} ()) ++
    List.replicate 45 (.server .decode { sample := .ok 200 }) ++
    List.replicate n (.handler {} ())

def answeredExchange (text : Bytes) (n : Nat) : Exchange ContiguousKVAllocator ReplyPoint :=
  (Exchange.initial (create sampleContiguous (some (sampleRouter 0))
    (numbered streamedRequest)) .submitting).run (textSetup text) 0
      (Handlers.replyStep isUtf8 300 0) (answeredTurns n)

/-- The request is served with the text "x", which is answered. -/
theorem reply_agrees_sample :
    let x := answeredExchange [120] 4
    let y := x.run (textSetup [120]) 0 (Handlers.replyStep isUtf8 300 0)
      (List.replicate 4 (.handler {} ()))
    ∃ response, y.handler = .replied .event response ∧
      Agrees (x.system.state.requests 0) response := by
  intro x y
  have hfresh : Fresh (numbered streamedRequest) := numbered_fresh rfl
  have hunstarted : Unstarted (numbered streamedRequest 0) := by
    refine ⟨rfl, rfl, rfl, rfl, rfl, fun t ht => ?_⟩
    cases ht
    exact ⟨rfl, rfl⟩
  have hexit : x.handler.exit? = some .event := by decide +kernel
  have htext : isUtf8 (x.system.state.requests 0).outputText = true := by decide +kernel
  exact ((reply_agrees_iff (textSetup [120]) isUtf8 hfresh hunstarted rfl 300 (answeredTurns 4)
    (List.replicate 4 (.handler {} ()))).2.2.2 .event hexit rfl (by decide)).mpr fun _ => htext

/-- Token 200 of the built-in vocabulary has a text that is not UTF-8.  A request
that completes with it is not answered. -/
theorem reply_thrown :
    QwenBPETokenizer.builtinTokenizer.decodeOrSkip 200 = [0xC4, 0xA0, 0xC8] ∧
      let x := answeredExchange [0xC4, 0xA0, 0xC8] 8
      x.handler.exit? = some .event ∧ (x.system.state.requests 0).state = .completed ∧
        (x.system.state.requests 0).outputTokens = [200] ∧
        (x.system.state.requests 0).outputText = [0xC4, 0xA0, 0xC8] ∧
        ¬ ∃ exit response, x.handler = .replied exit response := by
  constructor
  · exact (QwenBPETokenizer.Reordered.refl _).decode_piece (.byte 0xC8)
  intro x
  have hended : x.handler.isThrown = true := by decide +kernel
  refine ⟨by decide +kernel, by decide +kernel, by decide +kernel, by decide +kernel, ?_⟩
  rintro ⟨exit, response, hreplied⟩
  rw [hreplied] at hended
  cases hended

end Qwen
