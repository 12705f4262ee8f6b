import WinInference.Api.Exchange
import WinInference.Api.Routes

/-!
# The stream of a request

The content provider that `chat_completions` hands to the HTTP server
(`api/routes.cpp`): it writes the role, submits the request and turns the
events of its token queue into frames until it closes the sink.

Two ways out of it write no last frame, and the JSON library throws on a text
that it does not take.  On all other ways the stream is what the protocol asks
for.
-/

namespace Qwen

open Concurrency Scheduler

/-- One `data:` line of the stream, besides the id, the time and the model
name of a chunk. -/
inductive StreamFrame where
  | role
  | content (text : Bytes)
  | finish (reason : FinishReason)
  | error (message type code : String)
  /-- `data: [DONE]` -/
  | done
deriving DecidableEq

namespace StreamFrame

/-- The frames that a stream may close with, before `[DONE]`: a chunk that has
a `finish_reason`, also the empty one that is written for the reason `none`, or
an error. -/
def isTrailer : StreamFrame → Bool
  | .finish _ | .error _ _ _ => true
  | .role | .content _ | .done => false

/-- The event that is sent when no token comes for too long. -/
def idleTimeout : StreamFrame :=
  .error "Stream idle timeout - no tokens received" "timeout" "stream_idle_timeout"

/-- The event for the error of a request. -/
def ofError (e : Error) : StreamFrame := .error e.message "error" e.code

end StreamFrame

/-- Where the content provider is. -/
inductive StreamPoint where
  | opening
  | submitting
  | popping (lastTokenTime : Nat)
  /-- nothing was popped: is the request terminal? -/
  | polling (lastTokenTime : Nat)
  /-- it is not: has the stream been idle for too long? -/
  | timing (lastTokenTime : Nat)
  | chunk (text : Bytes) (lastTokenTime : Nat)
  | trailer (frame : StreamFrame)
  | marker
  /-- `sink.done()` was called -/
  | closed
  /-- left by an exception of the JSON library -/
  | threw
deriving DecidableEq

/-- Whether the content provider has ended. -/
def StreamPoint.ended : StreamPoint → Bool
  | .closed | .threw => true
  | _ => false

/-- The content provider: what it wrote, and the events it popped. -/
structure Streamer where
  point : StreamPoint := .opening
  written : List StreamFrame := []
  popped : List TokenEvent := []
deriving DecidableEq

namespace Streamer

/-- `safe_write`, followed by `next`: a failed write cancels the request. -/
def safeWrite (h : Streamer) (ok : Bool) (frame : StreamFrame) (next failed : StreamPoint) :
    Deed × Streamer :=
  if ok then (.look, { h with point := next, written := h.written ++ [frame] })
  else (.cancel, { h with point := failed })

/-- Where an event of the queue leads. -/
def receive (now : Nat) : TokenEvent → StreamPoint
  | .token _ text => if text.isEmpty then .popping now else .chunk text now
  | .complete reason => .trailer (.finish reason)
  | .error e => .trailer (.ofError e)

end Streamer

namespace Handlers

variable {A : Type}

/-- The content provider.  It is told whether the sink takes what it writes;
`dumps` is whether the JSON library takes a text. -/
def streamStep (dumps : Bytes → Bool) (streamIdleTimeoutSec : Nat) (r : RequestPtr) :
    Exchange.Handler A Streamer Bool :=
  fun i ok w h =>
    match h.point with
    | .opening => h.safeWrite ok .role .submitting .closed
    | .submitting =>
        match w.threads (.submit r) with
        | .ret (.returned (.error _)) => (.look, { h with point := .closed })
        | .ret (.returned (.ok ())) => (.look, { h with point := .popping i.now })
        | _ => (.submit, h)
    | .popping lastTokenTime =>
        match w.state.nextEvent r with
        | none => (.pop, { h with point := .polling lastTokenTime })
        | some event =>
            (.pop, { h with point := Streamer.receive i.now event, popped := h.popped ++ [event] })
    | .polling lastTokenTime =>
        if (w.state.requests r).isTerminal then (.look, { h with point := .closed })
        else (.look, { h with point := .timing lastTokenTime })
    | .timing lastTokenTime =>
        if timedOut (deadlineAfter lastTokenTime streamIdleTimeoutSec) i.now then
          (.cancel, { h with point := .trailer .idleTimeout })
        else (.look, { h with point := .popping lastTokenTime })
    | .chunk text lastTokenTime =>
        if dumps text then h.safeWrite ok (.content text) (.popping lastTokenTime) .closed
        else (.look, { h with point := .threw })
    | .trailer frame => h.safeWrite ok frame .marker .marker
    | .marker => h.safeWrite ok .done .closed .closed
    | .closed | .threw => (.look, h)

end Handlers

namespace Streamer

/-- What precedes the last frames: the role, and the text of every token. -/
def body (h : Streamer) : List StreamFrame :=
  .role :: (h.popped.filterMap Handlers.contentDelta).map .content

/-- The stream that the protocol asks for. -/
def WellFormed (h : Streamer) : Prop :=
  ∃ frame : StreamFrame, frame.isTrailer = true ∧ h.written = h.body ++ [frame, .done]

/-- A stream without its last frames is not well formed. -/
theorem not_wellFormed {h : Streamer} (hcut : h.written <+: h.body) : ¬ h.WellFormed := by
  rintro ⟨frame, -, hwritten⟩
  have hlength : h.written.length = h.body.length + 2 := by
    rw [hwritten, List.length_append]
    rfl
  have hshort := hcut.length_le
  omega

/-- What was written on the way to each point, when every write succeeded. -/
def Wrote (h : Streamer) : StreamPoint → Prop
  | .opening => h.written = [] ∧ h.popped = []
  | .submitting => h.written = [.role] ∧ h.popped = []
  | .popping _ | .polling _ | .timing _ => h.written = h.body
  | .chunk text _ => h.written ++ [.content text] = h.body
  | .trailer frame => frame.isTrailer = true ∧ h.written = h.body
  | .marker => ∃ frame : StreamFrame, frame.isTrailer = true ∧ h.written = h.body ++ [frame]
  | .closed => h.WellFormed
  | .threw => False

end Streamer

section Steps

variable {A : Type} {dumps : Bytes → Bool} {r : RequestPtr}

/-- The next step of the content provider ends the stream without its last
frames: `submit` has returned an error, nothing was popped and the request is
found terminal, or the text of a token is not taken by the JSON library. -/
inductive Abandons (dumps : Bytes → Bool) (r : RequestPtr) (x : Exchange A Streamer) : Prop where
  | rejected {e : Error} (hpoint : x.handler.point = .submitting)
      (h : x.system.threads (.submit r) = .ret (.returned (.error e)))
  | unheard {lastTokenTime : Nat} (hpoint : x.handler.point = .polling lastTokenTime)
      (h : (x.system.state.requests r).isTerminal = true)
  | thrown {text : Bytes} {lastTokenTime : Nat} (hpoint : x.handler.point = .chunk text lastTokenTime)
      (h : dumps text = false)

/-- An event of the queue adds its text to what is to be written. -/
theorem Streamer.wrote_receive {h : Streamer} (hwritten : h.written = h.body) (now : Nat)
    (event : TokenEvent) :
    Streamer.Wrote { h with point := receive now event, popped := h.popped ++ [event] }
      (receive now event) := by
  cases event with
  | token id text =>
      cases hempty : text.isEmpty with
      | true => simp [receive, hempty, Wrote, hwritten, body, Handlers.contentDelta]
      | false => simp [receive, hempty, Wrote, hwritten, body, Handlers.contentDelta]
  | complete reason =>
      refine ⟨rfl, ?_⟩
      simp [hwritten, body, Handlers.contentDelta]
  | error e =>
      refine ⟨rfl, ?_⟩
      simp [hwritten, body, Handlers.contentDelta]

/-- One step of the content provider that does not abandon the stream. -/
theorem streamStep_wrote {x : Exchange A Streamer} (h : x.handler.Wrote x.handler.point)
    (hgoes : ¬ Abandons dumps r x) (streamIdleTimeoutSec : Nat) (i : Answer) :
    let next := (Handlers.streamStep dumps streamIdleTimeoutSec r i true x.system x.handler).2
    next.Wrote next.point := by
  intro next
  have hnext : next = (Handlers.streamStep dumps streamIdleTimeoutSec r i true x.system x.handler).2 :=
    rfl
  cases hpoint : x.handler.point with
  | opening =>
      simp only [Handlers.streamStep, hpoint, Streamer.safeWrite, if_true] at hnext
      rw [hpoint] at h
      rw [hnext]
      refine ⟨?_, h.2⟩
      rw [h.1]
      rfl
  | submitting =>
      rw [hpoint] at h
      simp only [Handlers.streamStep, hpoint] at hnext
      split at hnext
      next e hthread => exact absurd (.rejected hpoint hthread) hgoes
      next hthread =>
          rw [hnext]
          show x.handler.written = x.handler.body
          rw [h.1, Streamer.body, h.2]
          rfl
      next =>
          rw [hnext, hpoint]
          exact h
  | popping lastTokenTime =>
      rw [hpoint] at h
      simp only [Handlers.streamStep, hpoint] at hnext
      split at hnext
      next =>
          rw [hnext]
          exact h
      next event _ =>
          rw [hnext]
          exact Streamer.wrote_receive h i.now event
  | polling lastTokenTime =>
      rw [hpoint] at h
      simp only [Handlers.streamStep, hpoint] at hnext
      split at hnext
      next hterminal => exact absurd (.unheard hpoint hterminal) hgoes
      next =>
          rw [hnext]
          exact h
  | timing lastTokenTime =>
      rw [hpoint] at h
      simp only [Handlers.streamStep, hpoint] at hnext
      split at hnext
      next =>
          rw [hnext]
          exact ⟨rfl, h⟩
      next =>
          rw [hnext]
          exact h
  | chunk text lastTokenTime =>
      rw [hpoint] at h
      cases hdumps : dumps text with
      | true =>
          simp only [Handlers.streamStep, hpoint, hdumps, Streamer.safeWrite, if_true] at hnext
          rw [hnext]
          exact h
      | false => exact absurd (.thrown hpoint hdumps) hgoes
  | trailer frame =>
      simp only [Handlers.streamStep, hpoint, Streamer.safeWrite, if_true] at hnext
      rw [hpoint] at h
      rw [hnext]
      exact ⟨frame, h.1, congrArg (· ++ [frame]) h.2⟩
  | marker =>
      simp only [Handlers.streamStep, hpoint, Streamer.safeWrite, if_true] at hnext
      rw [hpoint] at h
      obtain ⟨frame, htrailer, hwritten⟩ := h
      rw [hnext]
      refine ⟨frame, htrailer, ?_⟩
      rw [hwritten, List.append_assoc]
      rfl
  | closed =>
      rw [hpoint] at h
      simp only [Handlers.streamStep, hpoint] at hnext
      rw [hnext, hpoint]
      exact h
  | threw =>
      rw [hpoint] at h
      exact h.elim

/-- A step that does abandon it. -/
theorem streamStep_abandons {x : Exchange A Streamer} (h : x.handler.Wrote x.handler.point)
    (hgoes : Abandons dumps r x) (streamIdleTimeoutSec : Nat) (i : Answer) (ok : Bool) :
    let next := (Handlers.streamStep dumps streamIdleTimeoutSec r i ok x.system x.handler).2
    next.point.ended = true ∧ next.written <+: next.body := by
  intro next
  cases hgoes with
  | rejected hpoint hthread =>
      have hnext : next = { x.handler with point := .closed } := by
        simp only [next, Handlers.streamStep, hpoint, hthread]
      rw [hpoint] at h
      rw [hnext]
      refine ⟨rfl, ?_⟩
      show x.handler.written <+: .role :: (x.handler.popped.filterMap _).map _
      rw [h.1, h.2]
      exact List.prefix_rfl
  | unheard hpoint hterminal =>
      have hnext : next = { x.handler with point := .closed } := by
        simp only [next, Handlers.streamStep, hpoint, hterminal, if_true]
      rw [hpoint] at h
      rw [hnext]
      exact ⟨rfl, (h : x.handler.written = x.handler.body) ▸ List.prefix_rfl⟩
  | @thrown text lastTokenTime hpoint hdumps =>
      have hnext : next = { x.handler with point := .threw } := by
        simp only [next, Handlers.streamStep, hpoint, hdumps]
        rfl
      rw [hpoint] at h
      rw [hnext]
      refine ⟨rfl, ?_⟩
      show x.handler.written <+: x.handler.body
      rw [← (h : x.handler.written ++ [.content text] = x.handler.body)]
      exact List.prefix_append _ _

end Steps

/-! ## Runs -/

section Runs

variable {A : Type} [IKVCacheAllocator A] {r : RequestPtr} {d : SchedulerSetup}
  {dumps : Bytes → Bool} {streamIdleTimeoutSec : Nat}

/-- At some step of a run the stream was abandoned. -/
def Abandoned (d : SchedulerSetup) (dumps : Bytes → Bool) (r : RequestPtr)
    (streamIdleTimeoutSec : Nat) (x : Exchange A Streamer) (schedule : List (Turn Bool)) : Prop :=
  ∃ first i ok, first ++ [Turn.handler i ok] <+: schedule ∧
    Abandons dumps r (x.run d r (Handlers.streamStep dumps streamIdleTimeoutSec r) first)

theorem abandoned_concat {x : Exchange A Streamer} {rest : List (Turn Bool)}
    {turn : Turn Bool} :
    Abandoned d dumps r streamIdleTimeoutSec x (rest ++ [turn]) ↔
      (Abandons dumps r (x.run d r (Handlers.streamStep dumps streamIdleTimeoutSec r) rest) ∧
        ∃ i ok, turn = .handler i ok) ∨ Abandoned d dumps r streamIdleTimeoutSec x rest := by
  constructor
  · rintro ⟨first, i, ok, hprefix, habandons⟩
    rcases List.prefix_concat_iff.mp hprefix with heq | hbefore
    · obtain ⟨rfl, hturn⟩ := List.append_inj' heq rfl
      exact Or.inl ⟨habandons, i, ok, (List.singleton_inj.mp hturn).symm⟩
    · exact Or.inr ⟨first, i, ok, hbefore, habandons⟩
  · rintro (⟨habandons, i, ok, rfl⟩ | ⟨first, i, ok, hprefix, habandons⟩)
    · exact ⟨rest, i, ok, List.prefix_rfl, habandons⟩
    · exact ⟨first, i, ok, hprefix.trans (List.prefix_append rest [turn]), habandons⟩

/-- A stream that has ended stays as it is. -/
theorem stream_ended {x : Exchange A Streamer} (h : x.handler.point.ended = true) (i : Answer)
    (ok : Bool) :
    (x.step d r (Handlers.streamStep dumps streamIdleTimeoutSec r) (.handler i ok)).handler =
      x.handler := by
  cases hpoint : x.handler.point with
  | closed | threw => simp only [Exchange.step, Handlers.streamStep, hpoint]
  | opening | submitting | popping | polling | timing | chunk | trailer | marker =>
      rw [hpoint] at h
      cases h

/-- A stream that was not abandoned so far has written what its point calls
for; one that was has ended without its last frames. -/
theorem stream_run (dumps : Bytes → Bool) (streamIdleTimeoutSec : Nat) (s : Scheduler A)
    (schedule : List (Turn Bool))
    (hwrites : ∀ i ok, .handler i ok ∈ schedule → ok = true) :
    let x := Exchange.initial s ({} : Streamer)
    let h := (x.run d r (Handlers.streamStep dumps streamIdleTimeoutSec r) schedule).handler
    (¬ Abandoned d dumps r streamIdleTimeoutSec x schedule ∧ h.Wrote h.point) ∨
      (Abandoned d dumps r streamIdleTimeoutSec x schedule ∧ h.point.ended = true ∧
        h.written <+: h.body) := by
  intro x
  induction schedule using List.reverseRecOn with
  | nil =>
      refine Or.inl ⟨?_, rfl, rfl⟩
      rintro ⟨first, i, ok, hprefix, -⟩
      have hempty := List.prefix_nil.mp hprefix
      simp at hempty
  | append_singleton rest turn ih =>
      have ih := ih fun i ok hmem => hwrites i ok (List.mem_append_left _ hmem)
      rw [Exchange.run_concat, abandoned_concat]
      generalize hy : x.run d r (Handlers.streamStep dumps streamIdleTimeoutSec r) rest = y at ih ⊢
      cases turn with
      | server t i =>
          rw [Exchange.step_server_handler]
          obtain ⟨hnot, hwrote⟩ | ⟨habandoned, hclosed⟩ := ih
          · refine Or.inl ⟨?_, hwrote⟩
            rintro (⟨-, i', ok, hturn⟩ | hbefore)
            · cases hturn
            · exact hnot hbefore
          · exact Or.inr ⟨Or.inr habandoned, hclosed⟩
      | handler i ok =>
          obtain rfl : ok = true := hwrites i ok (by simp)
          obtain ⟨hnot, hwrote⟩ | ⟨habandoned, hpoint, hcut⟩ := ih
          · by_cases habandons : Abandons dumps r y
            · exact Or.inr ⟨Or.inl ⟨habandons, i, true, rfl⟩,
                streamStep_abandons hwrote habandons streamIdleTimeoutSec i true⟩
            · refine Or.inl ⟨?_, streamStep_wrote hwrote habandons streamIdleTimeoutSec i⟩
              rintro (⟨habandons', -⟩ | hbefore)
              · exact habandons habandons'
              · exact hnot hbefore
          · rw [stream_ended hpoint]
            exact Or.inr ⟨Or.inr habandoned, hpoint, hcut⟩

/-- **When a stream is well formed.**  With every write taken by the sink, a
stream that has ended is well formed exactly when no step of the content
provider found `submit` rejected, the request terminal after an empty pop, or a
text that the JSON library does not take. -/
theorem stream_wellFormed_iff (d : SchedulerSetup) (dumps : Bytes → Bool) (a : A)
    (g : Option GPURouter) (requests : RequestPtr → Request) (r : RequestPtr)
    (streamIdleTimeoutSec : Nat) (schedule : List (Turn Bool))
    (hwrites : ∀ i ok, .handler i ok ∈ schedule → ok = true) :
    let start := Exchange.initial (create a g requests) ({} : Streamer)
    let h := (start.run d r (Handlers.streamStep dumps streamIdleTimeoutSec r) schedule).handler
    h.point.ended = true →
      (h.WellFormed ↔ ∀ first i ok, first ++ [Turn.handler i ok] <+: schedule →
        ¬ Abandons dumps r
          (start.run d r (Handlers.streamStep dumps streamIdleTimeoutSec r) first)) := by
  intro start h hended
  obtain ⟨hnot, hwrote⟩ | ⟨habandoned, -, hcut⟩ :=
    stream_run (r := r) (d := d) dumps streamIdleTimeoutSec (create a g requests) schedule hwrites
  · have hwellFormed : h.WellFormed := by
      have hwrote : h.Wrote h.point := hwrote
      cases hpoint : h.point with
      | closed =>
          rw [hpoint] at hwrote
          exact hwrote
      | threw =>
          rw [hpoint] at hwrote
          exact hwrote.elim
      | opening | submitting | popping | polling | timing | chunk | trailer | marker =>
          rw [hpoint] at hended
          cases hended
    refine ⟨fun _ first i ok hprefix habandons => ?_, fun _ => hwellFormed⟩
    exact hnot ⟨first, i, ok, hprefix, habandons⟩
  · obtain ⟨first, i, ok, hprefix, habandons⟩ := habandoned
    refine ⟨fun hwellFormed => absurd hwellFormed (Streamer.not_wellFormed hcut), fun hnone => ?_⟩
    exact absurd habandons (hnone first i ok hprefix)

end Runs

/-! ### Four streams -/

/-- The content provider moves `first` times, then the decode thread, then the
content provider again; the sink takes everything. -/
def streamTurns (first decode second : Nat) : List (Turn Bool) :=
  List.replicate first (.handler {} true) ++ List.replicate decode (.server .decode {}) ++
    List.replicate second (.handler {} true)

theorem streamTurns_writes (first decode second : Nat) :
    ∀ i ok, Turn.handler i ok ∈ streamTurns first decode second → ok = true := by
  intro i ok hmem
  simp only [streamTurns, List.mem_append, List.mem_replicate] at hmem
  obtain (⟨-, hturn⟩ | ⟨-, hturn⟩) | ⟨-, hturn⟩ := hmem
  · cases hturn
    rfl
  · cases hturn
  · cases hturn
    rfl

/-- The stream of a request with one prompt token and one token to generate,
which has this text. -/
def sampleStream (text : Bytes) (a : ContiguousKVAllocator) (g : Option GPURouter)
    (schedule : List (Turn Bool)) : Streamer :=
  ((Exchange.initial (create a g (numbered streamedRequest)) ({} : Streamer)).run (textSetup text)
    0 (Handlers.streamStep isUtf8 30 0) schedule).handler

/-- The content provider waits, the request is served, and the content provider
pops its events. -/
theorem stream_wellFormed_sample :
    let h := sampleStream [120] sampleContiguous (some (sampleRouter 0)) (streamTurns 13 45 10)
    h.WellFormed ∧
      ∀ first i ok, first ++ [Turn.handler i ok] <+: streamTurns 13 45 10 →
        ¬ Abandons isUtf8 0 ((Exchange.initial (create sampleContiguous (some (sampleRouter 0))
          (numbered streamedRequest)) ({} : Streamer)).run (textSetup [120]) 0
            (Handlers.streamStep isUtf8 30 0) first) := by
  have hended : (sampleStream [120] sampleContiguous (some (sampleRouter 0))
      (streamTurns 13 45 10)).point.ended = true := by
    decide +kernel
  have hwellFormed : (sampleStream [120] sampleContiguous (some (sampleRouter 0))
      (streamTurns 13 45 10)).WellFormed :=
    ⟨.finish .length, rfl, by decide +kernel⟩
  refine ⟨hwellFormed, ?_⟩
  exact (stream_wellFormed_iff (textSetup [120]) isUtf8 sampleContiguous (some (sampleRouter 0))
    (numbered streamedRequest) 0 30 (streamTurns 13 45 10) (streamTurns_writes 13 45 10)
    hended).mp hwellFormed

/-- A stream that `submit` rejects, for want of memory, is closed after the
role; so is one whose request ends between an empty pop and the look at its
state, with the token and the `Complete` event left on the queue.  The last one
is left by an exception at its first token. -/
theorem stream_cut_short :
    let rejected := sampleStream [120] {} none (streamTurns 10 0 0)
    let unheard := sampleStream [120] sampleContiguous (some (sampleRouter 0))
      (streamTurns 12 45 8)
    let thrown := sampleStream [0xC4, 0xA0, 0xC8] sampleContiguous (some (sampleRouter 0))
      (streamTurns 13 45 10)
    (∀ first decode second i ok,
        Turn.handler i ok ∈ streamTurns first decode second → ok = true) ∧
      (rejected.point = .closed ∧ rejected.written = [.role] ∧ ¬ rejected.WellFormed) ∧
      (unheard.point = .closed ∧ unheard.written = [.role] ∧ ¬ unheard.WellFormed) ∧
      (thrown.point = .threw ∧ thrown.written = [.role] ∧ ¬ thrown.WellFormed) := by
  intro rejected unheard thrown
  refine ⟨streamTurns_writes, ⟨?_, ?_, ?_⟩, ⟨?_, ?_, ?_⟩, ?_, ?_, ?_⟩
  · decide +kernel
  · decide +kernel
  · exact Streamer.not_wellFormed (by decide +kernel)
  · decide +kernel
  · decide +kernel
  · exact Streamer.not_wellFormed (by decide +kernel)
  · decide +kernel
  · decide +kernel
  · exact Streamer.not_wellFormed (by decide +kernel)

end Qwen
