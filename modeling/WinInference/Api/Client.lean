import WinInference.Api.Chunks
import WinInference.Api.Reply
import WinInference.Scheduler.StopTokens

/-!
# What a client learns from a stream

A streaming request from the scheduler to the client: the decode thread puts
events on the token queue, the content provider makes frames of them, the frames
are printed, and the client reads what has arrived of the bytes.  The sink may
refuse any write and the bytes may be cut off anywhere: the client has then read
less, but nothing that is not true of the request.

`Streamer.Relays` says what the frames of the content provider have to do with
the events it popped, `streamStep_relays` that each of its steps keeps it,
`relaying_run` that it holds along every run together with the server.
`Feed.received_terminal` and `Coherent.popped` say what a popped terminal event
means for the request.  `stream_truthful` puts them together with the round trip
of the frames: at every moment the text that was read is the beginning of what
was generated, a finish reason comes after all of it, and an error is that of
the request or the content provider's own idle timeout.
-/

namespace Qwen

open Concurrency Concurrency.Program Scheduler

/-- The text that a frame adds. -/
def StreamFrame.content? : StreamFrame → Option Bytes
  | .content text => some text
  | .role | .finish _ | .error _ _ _ | .done => none

/-- The texts of frames, in order. -/
def contentsOf (frames : List StreamFrame) : List Bytes := frames.filterMap StreamFrame.content?

theorem contentsOf_concat (frames : List StreamFrame) (frame : StreamFrame) :
    contentsOf (frames ++ [frame]) = contentsOf frames ++ frame.content?.toList := by
  rw [contentsOf, List.filterMap_append]
  cases frame <;> rfl

/-! ## From the events to the frames -/

/-- The frame says what one of the events says; the idle timeout is the content
provider's own. -/
def StreamFrame.Reports (events : List TokenEvent) : StreamFrame → Prop
  | .finish reason => .complete reason ∈ events
  | .error message type code =>
      .error message type code = StreamFrame.idleTimeout ∨
        ∃ e : Error, .error e ∈ events ∧ .error message type code = StreamFrame.ofError e
  | .role | .content _ | .done => True

theorem StreamFrame.Reports.mono {events events' : List TokenEvent} {frame : StreamFrame}
    (h : frame.Reports events) (hsub : events ⊆ events') : frame.Reports events' := by
  cases frame with
  | finish reason => exact hsub h
  | error message type code =>
      rcases h with hidle | ⟨e, he, hsame⟩
      · exact Or.inl hidle
      · exact Or.inr ⟨e, hsub he, hsame⟩
  | role | content | done => trivial

namespace Streamer

/-- The texts that the popped events call for. -/
def deltas (h : Streamer) : List Bytes := h.popped.filterMap Handlers.contentDelta

/-- What was written at each point, whatever the sink did. -/
def Relayed (h : Streamer) : StreamPoint → Prop
  | .opening | .submitting => contentsOf h.written = [] ∧ h.popped = []
  | .popping _ | .polling _ | .timing _ => contentsOf h.written = h.deltas
  | .chunk text _ => contentsOf h.written ++ [text] = h.deltas
  | .trailer frame =>
      contentsOf h.written = h.deltas ∧ frame.content? = none ∧ frame.Reports h.popped
  | .marker => contentsOf h.written = h.deltas
  | .closed | .threw => True

/-- The frames are true of the popped events. -/
structure Relays (h : Streamer) : Prop where
  relayed : h.Relayed h.point
  reports : ∀ frame ∈ h.written, frame.Reports h.popped
  texts : contentsOf h.written <+: h.deltas
  /-- before the trailer there is none -/
  early : h.point ≠ .marker → h.point ≠ .closed → ∀ frame ∈ h.written, frame.isTrailer = false
  /-- from the trailer on the texts are complete -/
  whole : ∀ frames, frames <+: h.written → (∃ frame ∈ frames, frame.isTrailer = true) →
    contentsOf frames = h.deltas

theorem Relays.start : ({} : Streamer).Relays where
  relayed := ⟨rfl, rfl⟩
  reports _ h := absurd h List.not_mem_nil
  texts := List.prefix_rfl
  early _ _ _ h := absurd h List.not_mem_nil
  whole frames hread := by
    obtain rfl := List.prefix_nil.mp hread
    exact fun _ => rfl

variable {h : Streamer}

/-- Going on without a write or an event. -/
theorem Relays.move (hr : h.Relays) {point : StreamPoint} (hrelayed : h.Relayed point)
    (hearly : point ≠ .marker → point ≠ .closed → h.point ≠ .marker ∧ h.point ≠ .closed) :
    Relays { h with point := point } where
  relayed := by
    cases point <;> exact hrelayed
  reports := hr.reports
  texts := hr.texts
  early hm hc := hr.early (hearly hm hc).1 (hearly hm hc).2
  whole := hr.whole

/-- A frame is offered to the sink. -/
theorem Relays.safeWrite (hr : h.Relays) (ok : Bool) {frame : StreamFrame}
    {next failed : StreamPoint} (hfailed : h.Relayed failed)
    (hclosing : failed = .marker ∨ failed = .closed)
    (hreports : frame.Reports h.popped)
    (htexts : contentsOf (h.written ++ [frame]) <+: h.deltas)
    (hnext : Relayed { h with written := h.written ++ [frame] } next)
    (hearly : next ≠ .marker → next ≠ .closed →
      frame.isTrailer = false ∧ h.point ≠ .marker ∧ h.point ≠ .closed)
    (hwhole : frame.content? = none ∧ (frame.isTrailer = true → contentsOf h.written = h.deltas) ∨
      h.point ≠ .marker ∧ h.point ≠ .closed ∧ frame.isTrailer = false) :
    (h.safeWrite ok frame next failed).2.Relays := by
  unfold Streamer.safeWrite
  cases ok with
  | false => exact hr.move hfailed fun hm hc => (hclosing.elim hm hc).elim
  | true =>
      refine ⟨?_, ?_, htexts, ?_, ?_⟩
      · cases next <;> exact hnext
      · intro f hf
        rcases List.mem_append.mp hf with hold | hnew
        · exact hr.reports f hold
        · obtain rfl := List.mem_singleton.mp hnew
          exact hreports
      · intro hm hc f hf
        obtain ⟨htrailer, hpoint⟩ := hearly hm hc
        rcases List.mem_append.mp hf with hold | hnew
        · exact hr.early hpoint.1 hpoint.2 f hold
        · obtain rfl := List.mem_singleton.mp hnew
          exact htrailer
      · rintro frames hread ⟨f, hf, htrailer⟩
        show contentsOf frames = h.deltas
        rcases List.prefix_concat_iff.mp hread with rfl | hbefore
        case inr => exact hr.whole frames hbefore ⟨f, hf, htrailer⟩
        obtain ⟨hnone, htold⟩ | ⟨hm, hc, hno⟩ := hwhole
        · rw [contentsOf_concat, hnone]
          rcases List.mem_append.mp hf with hold | hnew
          · exact (List.append_nil _).trans (hr.whole _ List.prefix_rfl ⟨f, hold, htrailer⟩)
          · obtain rfl := List.mem_singleton.mp hnew
            exact (List.append_nil _).trans (htold htrailer)
        · rcases List.mem_append.mp hf with hold | hnew
          · rw [hr.early hm hc f hold] at htrailer
            cases htrailer
          · obtain rfl := List.mem_singleton.mp hnew
            rw [hno] at htrailer
            cases htrailer

/-- The next event is popped. -/
theorem Relays.receive (hr : h.Relays) {lastTokenTime : Nat} (hpoint : h.point = .popping lastTokenTime)
    (now : Nat) (event : TokenEvent) :
    Relays { h with point := receive now event, popped := h.popped ++ [event] } := by
  have hopen := hr.early (by simp [hpoint]) (by simp [hpoint])
  have hsame : contentsOf h.written = h.deltas := by
    have hrelayed := hr.relayed
    rw [hpoint] at hrelayed
    exact hrelayed
  have hdeltas : deltas { h with point := Streamer.receive now event, popped := h.popped ++ [event] } =
      h.deltas ++ (Handlers.contentDelta event).toList := by
    rw [deltas, deltas, List.filterMap_append]
    cases hdelta : Handlers.contentDelta event <;> simp [hdelta]
  constructor
  · show Relayed _ (Streamer.receive now event)
    cases event with
    | token id text =>
        cases hempty : text.isEmpty with
        | true =>
            simp only [Streamer.receive, hempty, if_true] at hdeltas ⊢
            simpa [Relayed, hdeltas, Handlers.contentDelta, hempty] using hsame
        | false =>
            simp only [Streamer.receive, hempty, Bool.false_eq_true, if_false] at hdeltas ⊢
            simpa [Relayed, hdeltas, Handlers.contentDelta, hempty] using hsame
    | complete reason =>
        refine ⟨?_, rfl, List.mem_append_right _ List.mem_cons_self⟩
        rw [hdeltas]
        simpa [Handlers.contentDelta] using hsame
    | error e =>
        refine ⟨?_, rfl, Or.inr ⟨e, List.mem_append_right _ List.mem_cons_self, rfl⟩⟩
        rw [hdeltas]
        simpa [Handlers.contentDelta] using hsame
  · exact fun frame hframe => (hr.reports frame hframe).mono (List.subset_append_left _ _)
  · rw [hdeltas]
    exact hr.texts.trans (List.prefix_append _ _)
  · exact fun _ _ => hopen
  · rintro frames hread ⟨frame, hframe, htrailer⟩
    rw [hopen frame (hread.subset hframe)] at htrailer
    cases htrailer

end Streamer

section Steps

variable {A : Type} {dumps : Bytes → Bool} {r : RequestPtr}

/-- One step of the content provider, whatever the sink does. -/
theorem streamStep_relays {h : Streamer} (hr : h.Relays) (streamIdleTimeoutSec : Nat) (i : Answer)
    (ok : Bool) (w : System A) :
    (Handlers.streamStep dumps streamIdleTimeoutSec r i ok w h).2.Relays := by
  have hrelayed := hr.relayed
  cases hpoint : h.point with
  | opening =>
      rw [hpoint] at hrelayed
      simp only [Handlers.streamStep, hpoint]
      have hnil : contentsOf (h.written ++ [.role]) = [] := by
        rw [contentsOf_concat, hrelayed.1]
        rfl
      refine hr.safeWrite ok trivial (.inr rfl) trivial ?_ ⟨hnil, hrelayed.2⟩ ?_ ?_
      · rw [hnil]
        exact List.nil_prefix
      · exact fun _ _ => ⟨rfl, by simp [hpoint], by simp [hpoint]⟩
      · exact .inr ⟨by simp [hpoint], by simp [hpoint], rfl⟩
  | submitting =>
      rw [hpoint] at hrelayed
      simp only [Handlers.streamStep, hpoint]
      split
      next => exact hr.move trivial fun _ hc => absurd rfl hc
      next =>
          refine hr.move ?_ fun _ _ => ⟨by simp [hpoint], by simp [hpoint]⟩
          show contentsOf h.written = h.deltas
          rw [hrelayed.1, Streamer.deltas, hrelayed.2]
          rfl
      next => exact hr
  | popping lastTokenTime =>
      simp only [Handlers.streamStep, hpoint]
      split
      next =>
          rw [hpoint] at hrelayed
          exact hr.move hrelayed fun _ _ => ⟨by simp [hpoint], by simp [hpoint]⟩
      next event _ => exact hr.receive hpoint i.now event
  | polling lastTokenTime =>
      rw [hpoint] at hrelayed
      simp only [Handlers.streamStep, hpoint]
      split
      next => exact hr.move trivial fun _ hc => absurd rfl hc
      next => exact hr.move hrelayed fun _ _ => ⟨by simp [hpoint], by simp [hpoint]⟩
  | timing lastTokenTime =>
      rw [hpoint] at hrelayed
      simp only [Handlers.streamStep, hpoint]
      have hgoes : h.point ≠ .marker ∧ h.point ≠ .closed := ⟨by simp [hpoint], by simp [hpoint]⟩
      split
      next => exact hr.move ⟨hrelayed, rfl, Or.inl rfl⟩ fun _ _ => hgoes
      next => exact hr.move hrelayed fun _ _ => hgoes
  | chunk text lastTokenTime =>
      rw [hpoint] at hrelayed
      simp only [Handlers.streamStep, hpoint]
      split
      next =>
          have hnext : contentsOf (h.written ++ [.content text]) = h.deltas :=
            (contentsOf_concat _ _).trans hrelayed
          refine hr.safeWrite ok trivial (.inr rfl) trivial (hnext ▸ List.prefix_rfl) hnext ?_ ?_
          · exact fun _ _ => ⟨rfl, by simp [hpoint], by simp [hpoint]⟩
          · exact .inr ⟨by simp [hpoint], by simp [hpoint], rfl⟩
      next => exact hr.move trivial fun _ _ => ⟨by simp [hpoint], by simp [hpoint]⟩
  | trailer frame =>
      rw [hpoint] at hrelayed
      obtain ⟨hsame, hnone, hreports⟩ := hrelayed
      simp only [Handlers.streamStep, hpoint]
      have hnext : contentsOf (h.written ++ [frame]) = h.deltas := by
        rw [contentsOf_concat, hnone]
        exact (List.append_nil _).trans hsame
      refine hr.safeWrite ok hsame (.inl rfl) hreports (hnext ▸ List.prefix_rfl) hnext ?_ ?_
      · exact fun hm => absurd rfl hm
      · exact .inl ⟨hnone, fun _ => hsame⟩
  | marker =>
      rw [hpoint] at hrelayed
      simp only [Handlers.streamStep, hpoint]
      have hnext : contentsOf (h.written ++ [.done]) = h.deltas := by
        rw [contentsOf_concat]
        exact (List.append_nil _).trans hrelayed
      refine hr.safeWrite ok trivial (.inr rfl) trivial (hnext ▸ List.prefix_rfl) trivial ?_ ?_
      · exact fun _ hc => absurd rfl hc
      · exact .inl ⟨rfl, by simp [StreamFrame.isTrailer]⟩
  | closed | threw =>
      simp only [Handlers.streamStep, hpoint]
      exact hr

end Steps

/-! ## From the queue to the events -/

/-- Who has received the terminal event has received everything. -/
theorem Feed.received_terminal {maxSize : Nat} {f : Feed} {moves : List FeedMove}
    (hrun : (Feed.start maxSize).run moves = some f) {event : TokenEvent}
    (hmem : event ∈ f.received) (hterminal : event.isTerminal = true) : f.received = f.accepted := by
  have hkept : Feed.Kept maxSize f := (Feed.Kept.start maxSize).run hrun
  have hstage : f.stage ≠ .streaming := by
    intro hstreaming
    have haccepted : event ∈ f.accepted := hkept.conserved ▸ List.mem_append_left _ hmem
    rw [hkept.tokens hstreaming event haccepted] at hterminal
    cases hterminal
  obtain ⟨before, ending, after, rfl⟩ := Feed.run_finished rfl hrun hstage
  obtain ⟨f₀, -, -, htokens, haccepted⟩ := Feed.run_ending hrun
  have hnot : event ∉ f₀.accepted := fun hold => by
    rw [htokens event hold] at hterminal
    cases hterminal
  have hconserved := hkept.conserved
  split at haccepted
  · rw [haccepted] at hconserved ⊢
    -- were anything left on the queue, the event would be among the tokens
    rcases List.eq_nil_or_concat f.queue.events with hnil | ⟨front, last, hconcat⟩
    · rw [hnil, List.append_nil] at hconserved
      exact hconserved
    · rw [hconcat, List.concat_eq_append, ← List.append_assoc] at hconserved
      obtain ⟨hfront, -⟩ := List.append_singleton_inj.mp hconserved
      exact absurd (hfront ▸ List.mem_append_left _ hmem) hnot
  · rw [haccepted] at hconserved
    exact absurd (hconserved ▸ List.mem_append_left _ hmem) hnot

namespace Scheduler

variable {A : Type} {r : RequestPtr}

theorem registryCancel_trace (s : Scheduler A) (id : String) :
    (s.registryCancel id).trace = s.trace := by
  unfold registryCancel
  cases s.registry.lookup id <;> rfl

theorem registryCancelAll_trace (s : Scheduler A) : s.registryCancelAll.trace = s.trace := by
  unfold registryCancelAll
  generalize s.registry.entries = entries
  induction entries generalizing s with
  | nil => rfl
  | cons e rest ih =>
      rw [List.foldl_cons, ih]
      split <;> rfl

/-- The action hands out no event of `r`. -/
def Unpopped (r : RequestPtr) (s s' : Scheduler A) : Prop := s'.popped r = s.popped r

theorem Works.unpopped {q : RequestPtr} {s s' : Scheduler A} (h : Works q s s') :
    Unpopped r s s' := by
  obtain ⟨more, htrace, hmore⟩ := h.trace
  have hnone : more.filterMap (Event.poppedOff r) = [] :=
    List.filterMap_eq_nil_iff.mpr fun e he => Event.poppedOff_of_byDecode (hmore e he).2.1
  rw [Unpopped, popped, htrace, List.filterMap_append, hnone, List.append_nil, popped]

theorem unpopped_log {s : Scheduler A} {e : Event} (he : e.poppedOff r = none) :
    Unpopped r s (s.log e) := by
  simp [Unpopped, popped, log, he]

theorem unpopped_submit (q : RequestPtr) : SubmitChores q (Unpopped (A := A) r) where
  idle _ := rfl
  queue _ := rfl
  reject _ := rfl
  blame _ _ := rfl
  stamp _ _ := rfl
  register s := unpopped_log (s := { s with registry := _ }) rfl
  enqueue s := unpopped_log (s := { s with pendingQueue := _ }) rfl

theorem popEvent_popped (s : Scheduler A) (r : RequestPtr) :
    (s.popEvent r).popped r = s.popped r ++ (s.nextEvent r).toList := by
  unfold Scheduler.popEvent Scheduler.nextEvent
  cases hqueue : (s.requests r).tokenQueue with
  | none => simp
  | some t =>
      cases hevents : t.events with
      | nil => simp [TokenQueue.pop, hevents]
      | cons event rest =>
          simp [TokenQueue.pop, hevents, Scheduler.popped, Scheduler.log, Scheduler.modify,
            Event.poppedOff]

variable [IKVCacheAllocator A]

/-- Only one thread pops the queue of `r`. -/
theorem code_unpopped (d : SchedulerSetup) {t : ThreadId} (ht : t ≠ .pop r) (l : Point) :
    (code d t l : Sched A Point).Always (Unpopped r) := by
  cases t with
  | decode =>
      exact decodeLoop_always (fun q => (works_chores q).mono fun _ _ h => h.unpopped)
        (fun _ => rfl) (fun s q rest _ => unpopped_log (s := { s with pendingQueue := rest }) rfl) d l
  | submit q =>
      cases l with
      | start => exact Always.bind ((unpopped_submit q).submit d) fun _ => Always.ret _
      | processQueue | copyActive | decodeEach | join | returned => exact Always.ret _
  | cancel id =>
      refine Always.bind (Always.update fun s => ?_) fun _ => Always.ret _
      rw [Unpopped, popped, registryCancel_trace, popped]
  | disconnect q => exact Always.bind (Always.update fun _ => rfl) fun _ => Always.ret _
  | pop q =>
      refine Always.bind (Always.update fun s => ?_) fun _ => Always.ret _
      have hq : q ≠ r := fun heq => ht (heq ▸ rfl)
      obtain heq | ⟨t, event, rest, -, -, heq⟩ := popEvent_cases s q
      · rw [heq]
        rfl
      · rw [heq]
        exact unpopped_log (s := s.modify q _) (by simp [Event.poppedOff, hq])
  | stop =>
      cases l with
      | start =>
          refine Always.bind (Always.atomic fun _ _ => rfl) fun running => ?_
          cases running <;> exact Always.ret _
      | join =>
          refine Always.bind (Always.read (G := Unpopped r) fun _ => rfl) fun exited => ?_
          cases exited with
          | true =>
              refine Always.bind (Always.update fun s => ?_) fun _ => Always.ret _
              rw [Unpopped, popped, registryCancelAll_trace, popped]
          | false => exact Always.ret _
      | processQueue | copyActive | decodeEach | returned => exact Always.ret _

end Scheduler

/-! ## Runs -/

section Runs

variable {A : Type} [IKVCacheAllocator A] {dumps : Bytes → Bool} {r : RequestPtr}
  {d : SchedulerSetup} {streamIdleTimeoutSec : Nat}

omit [IKVCacheAllocator A] in
/-- What the handler keeps of what it does. -/
theorem streamStep_popped (dumps : Bytes → Bool) (streamIdleTimeoutSec : Nat) (r : RequestPtr)
    (w : System A) (h : Streamer) (i : Answer) (ok : Bool) :
    let step := Handlers.streamStep dumps streamIdleTimeoutSec r i ok w h
    (step.1 = .pop ∧ step.2.popped = h.popped ++ (w.state.nextEvent r).toList) ∨
      (step.1 ≠ .pop ∧ step.2.popped = h.popped) := by
  intro step
  cases hpoint : h.point with
  | popping =>
      left
      simp only [step, Handlers.streamStep, hpoint]
      cases hnext : w.state.nextEvent r with
      | none => exact ⟨rfl, (List.append_nil _).symm⟩
      | some event => exact ⟨rfl, rfl⟩
  | submitting | polling | timing =>
      right
      simp only [step, Handlers.streamStep, hpoint]
      split <;> exact ⟨by simp, rfl⟩
  | opening | trailer | marker =>
      right
      simp only [step, Handlers.streamStep, hpoint, Streamer.safeWrite]
      split <;> exact ⟨by simp, rfl⟩
  | chunk =>
      right
      simp only [step, Handlers.streamStep, hpoint, Streamer.safeWrite]
      split
      · split <;> exact ⟨by simp, rfl⟩
      · exact ⟨by simp, rfl⟩
  | closed | threw =>
      right
      simp [step, Handlers.streamStep, hpoint]

/-- A server and the content provider of `r`, in the middle of a run. -/
structure Relaying (d : SchedulerSetup) (r : RequestPtr) (s : Scheduler A)
    (x : Exchange A Streamer) : Prop where
  leads : Exchange.Leads d (System.initial s) x.system
  poised : Exchange.Poised r x.system
  relays : x.handler.Relays
  popped : x.handler.popped = x.system.state.popped r

/-- A step of another thread than the one that pops. -/
theorem Relaying.unpopped {s : Scheduler A} {x : Exchange A Streamer} (h : Relaying d r s x)
    {t : ThreadId} (ht : t ≠ .pop r) (i : Answer) :
    (x.system.step (code d) t i).state.popped r = x.system.state.popped r := by
  obtain ⟨moves, hmoves⟩ := h.leads
  have hthread : (x.system.threads t).Always (Unpopped r) := by
    rw [hmoves]
    exact Pool.run_threads_always (code_unpopped d ht) (Always.ret _) moves
  obtain hsame | hstep : _ ∨ Unpopped r x.system.state (x.system.step (code d) t i).state :=
    Pool.step_always hthread i
  · rw [hsame]
  · exact hstep

theorem Relaying.step {s : Scheduler A} {x : Exchange A Streamer} (h : Relaying d r s x)
    (turn : Turn Bool) :
    Relaying d r s (x.step d r (Handlers.streamStep dumps streamIdleTimeoutSec r) turn) := by
  obtain ⟨hleads, hpoised⟩ := Exchange.leads_step (d := d)
    (Handlers.streamStep dumps streamIdleTimeoutSec r) h.poised turn
  refine ⟨h.leads.trans hleads, hpoised, ?_, ?_⟩
  · cases turn with
    | server t i =>
        rw [Exchange.step_server_handler]
        exact h.relays
    | handler i ok => exact streamStep_relays h.relays streamIdleTimeoutSec i ok x.system
  · cases turn with
    | server t i =>
        rw [Exchange.step_server_handler, h.popped, Exchange.step]
        split
        next => rfl
        next hplays =>
            have ht : t ≠ .pop r := by
              rintro rfl
              simp [Exchange.plays] at hplays
            exact (h.unpopped ht i).symm
    | handler i ok =>
        have hdeed := streamStep_popped dumps streamIdleTimeoutSec r x.system x.handler i ok
        show (Handlers.streamStep dumps streamIdleTimeoutSec r i ok x.system x.handler).2.popped =
          (Exchange.perform d r i x.system
            (Handlers.streamStep dumps streamIdleTimeoutSec r i ok x.system x.handler).1).state.popped r
        generalize Handlers.streamStep dumps streamIdleTimeoutSec r i ok x.system x.handler = step
          at hdeed ⊢
        obtain ⟨hpop, hpopped⟩ | ⟨hnot, hpopped⟩ := hdeed
        · rw [hpop, hpopped, h.popped]
          exact (popEvent_popped x.system.state r).symm
        · rw [hpopped, h.popped]
          cases hdeed : step.1 with
          | pop => exact absurd hdeed hnot
          | submit => exact (h.unpopped (t := .submit r) (by simp) i).symm
          | look | cancel => rfl

theorem relaying_run (s : Scheduler A) (htrace : s.popped r = []) (schedule : List (Turn Bool)) :
    Relaying d r s ((Exchange.initial s ({} : Streamer)).run d r
      (Handlers.streamStep dumps streamIdleTimeoutSec r) schedule) := by
  induction schedule using List.reverseRecOn with
  | nil => exact ⟨Exchange.Leads.refl _, ⟨rfl, rfl⟩, Streamer.Relays.start, htrace.symm⟩
  | append_singleton rest turn ih =>
      rw [Exchange.run_concat]
      exact ih.step turn

/-- What a client that has read these frames knows of a request: the text is
the beginning of what was generated, the reason comes after all of it, and an
error is that of the request, unless the stream was idle for too long.  Events
that the queue dropped are missing. -/
structure Learnt (d : SchedulerSetup) (r : RequestPtr) (w : System A)
    (frames : List StreamFrame) : Prop where
  text : ∀ closed, w.state.queueStatus r = some (closed, 0) →
    (contentsOf frames).flatten <+: textOf d (w.state.requests r).outputTokens
  finish : ∀ reason, .finish reason ∈ frames →
    (w.state.requests r).state = .completed ∧ (w.state.requests r).finishReason = reason ∧
      ∀ closed, w.state.queueStatus r = some (closed, 0) →
        (contentsOf frames).flatten = textOf d (w.state.requests r).outputTokens
  error : ∀ message type code, .error message type code ∈ frames →
    .error message type code = StreamFrame.idleTimeout ∨
      (w.state.requests r).state = .errored ∧ ∃ e : Error,
        (w.state.requests r).error = some e ∧ .error message type code = StreamFrame.ofError e

omit [IKVCacheAllocator A] in
/-- A terminal event among those popped is the one the request ended with. -/
theorem Scheduler.Coherent.popped {s : Scheduler A} (h : Coherent r s) {event : TokenEvent}
    (hmem : event ∈ s.popped r) (hterminal : event.isTerminal = true) :
    (s.requests r).ending = some event := by
  have hdelivered : event ∈ s.delivered r := List.mem_append_left _ hmem
  cases hover : (s.requests r).state.isOver with
  | false =>
      have hnot := h.unended hover event hdelivered
      rw [hterminal] at hnot
      cases hnot
  | true =>
      obtain ⟨ruling, hruled⟩ := h.ruled hover
      rw [hruled.offered event hdelivered hterminal]
      exact hruled.ending

omit [IKVCacheAllocator A] in
/-- Nothing is left on the queue behind a terminal event. -/
theorem Scheduler.Fed.delivered_eq {maxSize : Nat} {stage : FeedStage} {s : Scheduler A}
    (h : Fed maxSize r stage s) {event : TokenEvent} (hmem : event ∈ s.popped r)
    (hterminal : event.isTerminal = true) : s.delivered r = s.popped r := by
  obtain ⟨moves, f, hrun, -, hqueue, hpopped⟩ := h
  have hreceived := Feed.received_terminal hrun (hpopped ▸ hmem) hterminal
  have hconserved := ((Feed.Kept.start maxSize).run hrun).conserved
  rw [hreceived] at hconserved
  have hempty : f.queue.events = [] := List.append_right_eq_self.mp hconserved
  rw [Scheduler.delivered, hqueue, Option.map_some, Option.getD_some, hempty, List.append_nil,
    Scheduler.popped]

section Truth

variable [LawfulKVCacheAllocator A] {a : A} {g : Option GPURouter}
  {requests : RequestPtr → Request} {maxSize : Nat}

/-- What the frames that were read tell, in a run of the server and the content
provider. -/
theorem Relaying.learnt {x : Exchange A Streamer} (hx : Relaying d r (create a g requests) x)
    (hfresh : Fresh requests) (h : Unstarted (requests r)) (herror : (requests r).error = none)
    (hqueue : (requests r).tokenQueue = some { maxSize := maxSize }) {frames : List StreamFrame}
    (hread : frames <+: x.handler.written) : Learnt d r x.system frames := by
  obtain ⟨moves, hmoves⟩ := hx.leads
  have hcoherent : Coherent r x.system.state := by
    rw [hmoves]
    exact coherent_run d hfresh h herror moves
  obtain ⟨stage, hfed⟩ : ∃ stage, Fed maxSize r stage x.system.state := by
    rw [hmoves]
    exact (feed_run (a := a) (g := g) d hqueue moves).2
  obtain ⟨hbounded, houtcome⟩ : (x.system.state.view r).Bounded d.tokenizer ∧
      ((x.system.state.requests r).state.isOver = true →
        (x.system.state.view r).Outcome d.tokenizer) := by
    rw [hmoves]
    obtain ⟨hbounded, -, -, houtcome⟩ := run_view (a := a) (g := g) d hfresh h moves
    exact ⟨hbounded, fun hover => houtcome (Or.inr hover)⟩
  have hdeltas : x.handler.deltas = (x.system.state.popped r).filterMap Handlers.contentDelta := by
    rw [Streamer.deltas, hx.popped]
  have htexts : contentsOf frames <+: x.handler.deltas :=
    (hread.filterMap _).trans hx.relays.texts
  constructor
  · intro closed hnone
    have hheard : (x.system.state.delivered r).flatMap TokenEvent.text <+:
        textOf d (x.system.state.requests r).outputTokens :=
      hbounded.heard closed hnone
    rw [← contentDeltas_flatten] at hheard
    have hdelivered : x.handler.deltas <+:
        (x.system.state.delivered r).filterMap Handlers.contentDelta := by
      rw [hdeltas]
      exact (List.prefix_append _ _).filterMap _
    exact (htexts.trans hdelivered).flatten.trans hheard
  · intro reason hmem
    have hwritten := hread.subset hmem
    have hpopped : TokenEvent.complete reason ∈ x.system.state.popped r := by
      rw [← hx.popped]
      exact hx.relays.reports _ hwritten
    have hending := hcoherent.popped hpopped rfl
    obtain ⟨hcompleted, -, hsame⟩ | ⟨e, -, -, hsame⟩ := Request.ending_cases hending
    · cases hsame
      refine ⟨hcompleted, rfl, fun closed hnone => ?_⟩
      have hover : (x.system.state.requests r).state.isOver = true := by rw [hcompleted]; rfl
      have hstreamed : (x.system.state.delivered r).flatMap TokenEvent.text =
          textOf d (x.system.state.requests r).outputTokens :=
        (houtcome hover).streamed closed hnone
      rw [← hstreamed, hfed.delivered_eq hpopped rfl, ← contentDeltas_flatten, ← hdeltas,
        hx.relays.whole frames hread ⟨_, hmem, rfl⟩]
    · cases hsame
  · intro message type code hmem
    rcases hx.relays.reports _ (hread.subset hmem) with hidle | ⟨e, he, hframe⟩
    · exact Or.inl hidle
    rw [hx.popped] at he
    have hending := hcoherent.popped he rfl
    obtain ⟨-, -, hsame⟩ | ⟨e', herrored, hstored, hsame⟩ := Request.ending_cases hending
    · cases hsame
    · cases hsame
      exact Or.inr ⟨herrored, e, hstored, hframe⟩

/-- **The stream, end to end.**  Whatever the sink does, wherever the bytes are
cut off and whatever the server is doing besides, the client reads frames that
the content provider wrote, in their order, and what they tell is true of the
request. -/
theorem stream_truthful {D : Type} (d : SchedulerSetup) (dumps : Bytes → Bool)
    (hfresh : Fresh requests) (h : Unstarted (requests r)) (herror : (requests r).error = none)
    (hqueue : (requests r).tokenQueue = some { maxSize := maxSize }) (streamIdleTimeoutSec : Nat)
    (schedule : List (Turn Bool)) (lib : JsonLibrary D) (info : StreamInfo)
    (stamped : List (StreamFrame × Int64)) (arrived : Bytes) :
    let x := (Exchange.initial (create a g requests) ({} : Streamer)).run d r
      (Handlers.streamStep dumps streamIdleTimeoutSec r) schedule
    stamped.map Prod.fst = x.handler.written →
    (∀ e ∈ stamped, ∀ j, e.1.toJson info e.2 = some j → lib.Faithful j) →
    arrived <+: streamText lib info stamped →
      StreamClient.read lib arrived <+: x.handler.written ∧
        Learnt d r x.system (StreamClient.read lib arrived) := by
  intro x hwritten hlib harrived
  have hempty : (create a g requests).popped r = [] := rfl
  have hx : Relaying d r (create a g requests) x :=
    relaying_run (create a g requests) hempty schedule
  have hread := read_prefix hlib harrived
  rw [hwritten] at hread
  exact ⟨hread, hx.learnt hfresh h herror hqueue hread⟩

end Truth

end Runs

/-! ### A stream that is cut off -/

/-- The text of a chunk of the stream `r` of the model `m`, made at time zero. -/
def sampleChunk (delta finishReason : String) : Bytes :=
  literal ("\x7b\"choices\":[\x7b\"delta\":" ++ delta ++ ",\"finish_reason\":" ++ finishReason ++
    ",\"index\":0\x7d],\"created\":0,\"id\":\"r\",\"model\":\"m\"," ++
    "\"object\":\"chat.completion.chunk\"\x7d")

def sampleInfo : StreamInfo := { completionId := "r", modelName := "m" }

/-- The frames of a stream of one letter. -/
def sampleFrames : List StreamFrame := [.role, .content [120], .finish .length, .done]

/-- What the library prints for these frames. -/
def sampleText : StreamFrame → Bytes
  | .role => sampleChunk "\x7b\"role\":\"assistant\"\x7d" "null"
  | .content _ => sampleChunk "\x7b\"content\":\"x\"\x7d" "null"
  | .finish _ => sampleChunk "\x7b\x7d" "\"length\""
  | .error _ _ _ | .done => []

/-- The library on these frames. -/
def sampleLibrary : JsonLibrary Rat where
  dump j := ((StreamClient.frame? j.reparsed).map sampleText).getD []
  parse text :=
    (sampleFrames.find? fun frame => sampleText frame = text).bind fun frame =>
      (frame.toJson sampleInfo 0).map Json.Value.reparsed

theorem sampleText_lines : ∀ frame ∈ sampleFrames, lineEnd ∉ sampleText frame ∧
    sampleText frame ≠ literal "[DONE]" ∧
    sampleFrames.find? (fun f => sampleText f = sampleText frame) = some frame := by
  decide +kernel

theorem sampleLibrary_faithful {frame : StreamFrame} (h : frame ∈ sampleFrames)
    {j : Json.Value Rat} (hjson : frame.toJson sampleInfo 0 = some j) :
    sampleLibrary.Faithful j := by
  obtain ⟨hline, hmarker, hfind⟩ := sampleText_lines frame h
  have hdump : sampleLibrary.dump j = sampleText frame := by
    simp only [sampleLibrary, frame?_toJson hjson, Option.map_some, Option.getD_some]
  refine ⟨?_, ?_, ?_⟩ <;> rw [hdump]
  · exact hline
  · exact hmarker
  · simp only [sampleLibrary, hfind, Option.bind_some, hjson, Option.map_some]

/-- The frames of this stream, with their times. -/
def sampleStamped : List (StreamFrame × Int64) := sampleFrames.map fun frame => (frame, 0)

/-- The stream, cut off in its third event. -/
def sampleArrived : Bytes := (streamText sampleLibrary sampleInfo sampleStamped).take 300

theorem stream_truthful_sample :
    let x := (Exchange.initial (create sampleContiguous (some (sampleRouter 0))
      (numbered streamedRequest)) ({} : Streamer)).run (textSetup [120]) 0
        (Handlers.streamStep isUtf8 30 0) (streamTurns 13 45 10)
    StreamClient.read sampleLibrary sampleArrived = [.role, .content [120]] ∧
      StreamClient.read sampleLibrary sampleArrived <+: x.handler.written ∧
      Learnt (textSetup [120]) 0 x.system (StreamClient.read sampleLibrary sampleArrived) := by
  have hwritten : (sampleStream [120] sampleContiguous (some (sampleRouter 0))
      (streamTurns 13 45 10)).written = sampleFrames := by
    decide +kernel
  have hunstarted : Unstarted (numbered streamedRequest 0) := by
    refine ⟨rfl, rfl, rfl, rfl, rfl, fun queue hqueue => ?_⟩
    cases hqueue
    exact ⟨rfl, rfl⟩
  have hstamped : sampleStamped.map Prod.fst = sampleFrames := by
    decide
  refine ⟨by decide +kernel, ?_⟩
  refine stream_truthful (textSetup [120]) isUtf8 (numbered_fresh rfl) hunstarted rfl rfl 30
    (streamTurns 13 45 10) sampleLibrary sampleInfo sampleStamped sampleArrived
    (hstamped.trans hwritten.symm) (fun e he j hjson => ?_) (List.take_prefix _ _)
  obtain ⟨frame, hframe, rfl⟩ := List.mem_map.mp he
  exact sampleLibrary_faithful hframe hjson

end Qwen
