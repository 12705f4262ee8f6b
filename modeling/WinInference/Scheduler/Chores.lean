import WinInference.Concurrency.RelyGuarantee
import WinInference.KVCache.Laws
import WinInference.Scheduler.Scheduler

/-!
# What threads do, action by action

The decode thread works on one request at a time, with the actions listed
here by the function that takes them.  A relation that has the actions of a
function contains every step of its program.  What a thread never does is thus
checked once for each action, and not along each program.

`SubmitChores` and `HttpChores` list the actions of the other threads.

`StepChores`, `ReleaseChores`, `PlaceChores`, `ServeChores` and `LeaveChores`
are the parts of the decode thread, and `decodeLoop_keeps` and
`decodeLoop_always` its whole loop.  `others_always` is the same for the other
threads, and `works_chores` is the first instance: what the decode thread does
is work on one request.
-/

namespace Qwen

open Concurrency Concurrency.Program

/-- What the decode thread shares with other threads or was given by them. -/
def Request.shared (q : Request) :
    String × List Int × Int × List Bytes × Option Bool × Option TokenQueue :=
  (q.id, q.inputTokens, q.maxTokens, q.stopSequences, q.cancelToken, q.tokenQueue)

/-- What a decode step does not write. -/
def Request.kept (q : Request) :
    (String × List Int × Int × List Bytes × Option Bool × Option TokenQueue) ×
      RequestState × Option Error × KVCacheHandle × List Int :=
  (q.shared, q.state, q.error, q.kvCache.grant, q.assignedDevices)

namespace Scheduler

variable {A : Type}

/-! ## The decode thread -/

section Decode

/-- A relation that has every action of `run_decode_step`. -/
structure StepChores (r : RequestPtr) (G : Scheduler A → Scheduler A → Prop) : Prop where
  idle : ∀ s, G s s
  edit : ∀ s f, (∀ q, Request.kept (f q) = q.kept) → G s (s.modify r f)
  token : ∀ s tokenId text, G s (s.pushEvent r (.token tokenId text))
  decodeCalled : ∀ s input pos, G s (s.log (.decodeCalled r input pos))

/-- A relation that has every action of `free_resources`. -/
structure ReleaseChores [IKVCacheAllocator A] (r : RequestPtr)
    (G : Scheduler A → Scheduler A → Prop) : Prop where
  idle : ∀ s, G s s
  freeBudget : ∀ s, G s (s.freeBudget r)
  freeKvCache : ∀ s, G s (s.freeKvCache r)

/-- A relation that has every action of a placement. -/
structure PlaceChores [IKVCacheAllocator A] (r : RequestPtr)
    (G : Scheduler A → Scheduler A → Prop) : Prop where
  route : ∀ s, G s (s.routeRequest r).2
  reserve : ∀ s decision, G s (s.reserveBudget r decision)
  allocate : ∀ s i decision, G s (s.allocateFor i r decision).2
  unreserve : ∀ s decision, G s (s.unreserveBudget r decision)
  commit : ∀ s decision, G s (s.commitBudget r decision)

/-- A relation that has every action of serving a request short of its end. -/
structure ServeChores [IKVCacheAllocator A] (r : RequestPtr)
    (G : Scheduler A → Scheduler A → Prop) : Prop
    extends StepChores r G, ReleaseChores r G, PlaceChores r G where
  prefilling : ∀ s, G s (s.modify r (fun q => { q with state := .prefilling }))
  decoding : ∀ s, G s (s.modify r (fun q => { q with state := .decoding }))
  gauge : ∀ s n, G s { s with requestsActive := n }
  prefillFailed : ∀ s handle, G s (s.log (.prefillFailed r handle))

/-- A relation that has what is left to do for a request once its token queue
is closed. -/
structure LeaveChores [IKVCacheAllocator A] (r : RequestPtr)
    (G : Scheduler A → Scheduler A → Prop) : Prop extends ReleaseChores r G where
  eraseActive : ∀ s, G s (s.eraseActive r)
  unregister : ∀ s, G s (s.registryRemove (s.requests r).id)
  gauge : ∀ s n, G s { s with requestsActive := n }
  countCompleted : ∀ s n, G s { s with completedCount := n }
  countErrored : ∀ s n, G s { s with erroredCount := n }

/-- A relation that has every action of the decode thread on `r`. -/
structure Chores [IKVCacheAllocator A] (r : RequestPtr)
    (G : Scheduler A → Scheduler A → Prop) : Prop extends LeaveChores r G, PlaceChores r G where
  edit : ∀ s f, (∀ q, Request.shared (f q) = q.shared) → G s (s.modify r f)
  push : ∀ s event, G s (s.pushEvent r event)
  close : ∀ s, G s (s.closeQueue r)
  /-- the runtime was called -/
  call : ∀ s e, e.subject = r → e.byDecode → e.quiet → G s (s.log e)
  activate : ∀ s, G s { s with activeRequests := s.activeRequests ++ [r] }

variable {r : RequestPtr} {G : Scheduler A → Scheduler A → Prop}

/-- Two relations with the actions of a decode step have them together. -/
theorem StepChores.and {G' : Scheduler A → Scheduler A → Prop} (h : StepChores r G)
    (h' : StepChores r G') : StepChores r (fun s s' => G s s' ∧ G' s s') where
  idle s := ⟨h.idle s, h'.idle s⟩
  edit s f hf := ⟨h.edit s f hf, h'.edit s f hf⟩
  token s tokenId text := ⟨h.token s tokenId text, h'.token s tokenId text⟩
  decodeCalled s input pos := ⟨h.decodeCalled s input pos, h'.decodeCalled s input pos⟩

namespace StepChores

variable (h : StepChores r G)
include h

/-- Looking at the clock is idle. -/
theorem clock {α : Type} (f : Answer → Scheduler A → α) :
    (Program.atomic (fun i s => (f i s, s)) : Sched A α).Always G :=
  Always.atomic fun _ => h.idle

/-- The logits at hand are taken by such actions. -/
theorem nextLogits : (nextLogits r : Sched A (Result Logits)).Always G := by
  refine Always.bind (h.clock _) fun first => ?_
  cases first with
  | true =>
      refine Always.atomic fun _ s => ?_
      dsimp only
      split
      · exact h.idle s
      · dsimp only
        exact h.edit s _ fun _ => rfl
  | false => exact Always.atomic fun _ s => h.decodeCalled s _ _

/-- So is a token appended. -/
theorem appendToken (d : SchedulerSetup) (token : Int) :
    (appendToken d r token : Sched A Bool).Always G := by
  refine Always.bind (Always.update fun s => h.edit s _ fun _ => rfl) fun _ => ?_
  refine Always.bind (Always.update fun s => h.edit s _ fun _ => rfl) fun _ => ?_
  refine Always.bind (Always.update fun s => h.token s token _) fun _ => ?_
  refine Always.atomic fun _ s => ?_
  dsimp only
  split
  · dsimp only
    exact h.edit s _ fun _ => rfl
  · exact h.idle s

/-- So is a whole decode step carried out. -/
theorem runDecodeStep (d : SchedulerSetup) :
    (runDecodeStep d r : Sched A (Result Bool)).Always G := by
  refine Always.bind (h.clock _) fun cancelled => ?_
  cases cancelled with
  | true => exact Always.ret _
  | false =>
      refine Always.bind h.nextLogits fun logits => ?_
      cases logits with
      | error e => exact Always.ret _
      | ok _ =>
          refine Always.bind (h.clock _) fun sampled => ?_
          cases sampled with
          | error e => exact Always.ret _
          | ok token => exact Always.bind (h.appendToken d token) (fun _ => Always.ret _)

end StepChores

variable [IKVCacheAllocator A]

/-- `free_resources` consists of its actions. -/
theorem ReleaseChores.freeResources (h : ReleaseChores r G) :
    (freeResources r : Sched A Unit).Always G := by
  refine Always.bind (Always.atomic fun _ s => ?_) fun valid => ?_
  · dsimp only
    split
    · exact h.freeBudget s
    · exact h.idle s
  · cases valid with
    | true => exact Always.update h.freeKvCache
    | false => exact Always.ret _

/-- A placement consists of its actions. -/
theorem PlaceChores.place (h : PlaceChores r G) : (place r : Sched A (Result Unit)).Always G := by
  refine Always.bind (Always.atomic fun _ => h.route) fun decision => ?_
  refine Always.bind (Always.update fun s => h.reserve s decision) fun _ => ?_
  refine Always.bind (Always.atomic fun i s => h.allocate s i decision) fun placed => ?_
  cases placed with
  | error e =>
      exact Always.bind (Always.update fun s => h.unreserve s decision) (fun _ => Always.ret _)
  | ok _ => exact Always.bind (Always.update fun s => h.commit s decision) (fun _ => Always.ret _)

/-- A prefill is serving the request. -/
theorem ServeChores.runPrefill (h : ServeChores r G) :
    (runPrefill r : Sched A (Result Unit)).Always G := by
  refine Always.bind (Always.update h.prefilling) fun _ => ?_
  refine Always.bind (Always.update fun s => h.gauge s _) fun _ => ?_
  refine Always.bind h.place fun placed => ?_
  cases placed with
  | error e => exact Always.bind (Always.update fun s => h.gauge s _) (fun _ => Always.ret _)
  | ok _ =>
      refine Always.bind (Always.atomic fun i s => ?_) fun prefilled => ?_
      · dsimp only
        split
        · exact h.idle s
        · exact h.prefillFailed s _
      · cases prefilled with
        | error e =>
            refine Always.bind h.freeResources fun _ => ?_
            exact Always.bind (Always.update fun s => h.gauge s _) (fun _ => Always.ret _)
        | ok logits =>
            exact Always.bind (Always.update fun s => h.edit s _ fun _ => rfl)
              (fun _ => Always.ret _)

/-! ### With the end of the request apart -/

section Ends

variable {c : Contract (Scheduler A)} {P Q : Scheduler A → Prop}

/-- A dequeued request is served, or failed. -/
theorem ServeChores.startRequest (h : ServeChores r G) (hP : Stable c P)
    (hguar : ∀ s s', P s → G s s' → c.guar s s') (hkeep : ∀ s s', P s → G s s' → P s')
    (hserved : ∀ s, P s → c.guar s { s with activeRequests := s.activeRequests ++ [r] } ∧
      Q { s with activeRequests := s.activeRequests ++ [r] })
    (hfail : ∀ e, Triple c P (failRequest r e : Sched A Unit) (fun _ => Q))
    (d : SchedulerSetup) : Triple c P (startRequest d r : Sched A Unit) (fun _ => Q) := by
  have hquiet : ∀ {α : Type} {p : Sched A α}, p.Always G → Triple c P p (fun _ => P) :=
    fun hp => hp.triple hP hguar hkeep
  refine Triple.bind (hquiet (h.clock _)) fun queueTimedOut => ?_
  cases queueTimedOut with
  | true => exact hfail _
  | false =>
      refine Triple.bind (hquiet (h.clock _)) fun requestTimedOut => ?_
      cases requestTimedOut with
      | true => exact hfail _
      | false =>
          refine Triple.bind (hquiet h.runPrefill) fun result => ?_
          cases result with
          | error e => exact hfail e
          | ok _ =>
              refine Triple.bind (hquiet (Always.update h.decoding)) fun _ => ?_
              refine Triple.bind (hquiet (Always.atomic fun i s => ?_)) fun _ => ?_
              · dsimp only
                split
                · exact h.edit s _ fun _ => rfl
                · exact h.idle s
              · exact Triple.update hP fun s hs _ _ => hserved s hs

/-- A round for an active request goes on, or ends it. -/
theorem StepChores.decodeRequest (h : StepChores r G) (hP : Stable c P)
    (hguar : ∀ s s', P s → G s s' → c.guar s s') (hkeep : ∀ s s', P s → G s s' → P s')
    (hgoes : ∀ s, P s → Q s)
    (hcomplete : ∀ reason, Triple c P (completeRequest r reason : Sched A Unit) (fun _ => Q))
    (hfail : ∀ e, Triple c P (failRequest r e : Sched A Unit) (fun _ => Q))
    (d : SchedulerSetup) : Triple c P (decodeRequest d r : Sched A Unit) (fun _ => Q) := by
  have hquiet : ∀ {α : Type} {p : Sched A α}, p.Always G → Triple c P p (fun _ => P) :=
    fun hp => hp.triple hP hguar hkeep
  refine Triple.bind (hquiet (h.clock _)) fun cancelled => ?_
  cases cancelled with
  | true => exact hcomplete .stop
  | false =>
      refine Triple.bind (hquiet (h.clock _)) fun requestTimedOut => ?_
      cases requestTimedOut with
      | true => exact hfail _
      | false =>
          refine Triple.bind (hquiet (h.clock _)) fun decodeTimedOut => ?_
          cases decodeTimedOut with
          | true => exact hfail _
          | false =>
              refine Triple.bind (hquiet (h.runDecodeStep d)) fun result => ?_
              cases result with
              | error e => exact hfail e
              | ok goesOn =>
                  cases goesOn with
                  | true => exact Triple.ret fun s hs => hgoes s hs
                  | false => exact Triple.bind (hquiet (h.clock _)) (fun reason => hcomplete reason)

/-- Offer the last event, close the queue, and leave. -/
theorem LeaveChores.retire (h : LeaveChores r G) {P₁ P₂ : Scheduler A → Prop}
    {event : TokenEvent} {R : Unit → Scheduler A → Prop}
    (hpush : Triple c P (Program.update (·.pushEvent r event) : Sched A Unit) (fun _ => P₁))
    (hclose : Triple c P₁ (Program.update (·.closeQueue r) : Sched A Unit) (fun _ => P₂))
    (hP₂ : Stable c P₂) (hguar : ∀ s s', P₂ s → G s s' → c.guar s s')
    (hkeep : ∀ s s', P₂ s → G s s' → P₂ s') (hQ : ∀ s, P₂ s → R () s) :
    Triple c P (retire r event) R := by
  have hquiet : ∀ {α : Type} {p : Sched A α}, p.Always G → Triple c P₂ p (fun _ => P₂) :=
    fun hp => hp.triple hP₂ hguar hkeep
  refine Triple.bind hpush fun _ => ?_
  refine Triple.bind hclose fun _ => ?_
  refine Triple.bind (hquiet h.freeResources) fun _ => ?_
  refine Triple.bind (hquiet (Always.update h.eraseActive)) fun _ => ?_
  refine Triple.bind (hquiet (Always.update h.unregister)) fun _ => ?_
  exact (hquiet (Always.update fun s => h.gauge s _)).post fun _ => hQ

end Ends

/-! ### Everything -/

namespace Chores

variable (h : Chores r G)
include h

/-- Working on a request includes serving it. -/
theorem serve : ServeChores r G where
  idle := h.idle
  edit s f hf := h.edit s f fun q => congrArg Prod.fst (hf q)
  token s _ _ := h.push s _
  decodeCalled s _ _ := h.call s _ rfl rfl rfl
  freeBudget := h.freeBudget
  freeKvCache := h.freeKvCache
  route := h.route
  reserve := h.reserve
  allocate := h.allocate
  unreserve := h.unreserve
  commit := h.commit
  prefilling s := h.edit s _ fun _ => rfl
  decoding s := h.edit s _ fun _ => rfl
  gauge := h.gauge
  prefillFailed s _ := h.call s _ rfl rfl rfl

/-- A weaker relation has the actions too. -/
theorem mono {G' : Scheduler A → Scheduler A → Prop} (hG : ∀ s s', G s s' → G' s s') :
    Chores r G' where
  idle s := hG _ _ (h.idle s)
  freeBudget s := hG _ _ (h.freeBudget s)
  freeKvCache s := hG _ _ (h.freeKvCache s)
  eraseActive s := hG _ _ (h.eraseActive s)
  unregister s := hG _ _ (h.unregister s)
  gauge s n := hG _ _ (h.gauge s n)
  countCompleted s n := hG _ _ (h.countCompleted s n)
  countErrored s n := hG _ _ (h.countErrored s n)
  route s := hG _ _ (h.route s)
  reserve s decision := hG _ _ (h.reserve s decision)
  allocate s i decision := hG _ _ (h.allocate s i decision)
  unreserve s decision := hG _ _ (h.unreserve s decision)
  commit s decision := hG _ _ (h.commit s decision)
  edit s f hf := hG _ _ (h.edit s f hf)
  push s event := hG _ _ (h.push s event)
  close s := hG _ _ (h.close s)
  call s e hsubject hown hquiet := hG _ _ (h.call s e hsubject hown hquiet)
  activate s := hG _ _ (h.activate s)

/-- Retiring consists of the actions of the decode thread. -/
theorem retire (event : TokenEvent) : (retire r event : Sched A Unit).Always G :=
  .of_triple (h.toLeaveChores.retire
    (Always.watched (Always.update fun s => h.push s event))
    (Always.watched (Always.update h.close)) (fun _ _ _ _ _ => trivial)
    (fun _ _ _ hact => hact) (fun _ _ _ _ => trivial) (fun _ _ => trivial))

/-- So does a completion. -/
theorem completeRequest (reason : FinishReason) :
    (completeRequest r reason : Sched A Unit).Always G := by
  refine Always.bind (Always.update fun s => h.edit s _ fun _ => rfl) fun _ => ?_
  refine Always.bind (Always.update fun s => h.edit s _ fun _ => rfl) fun _ => ?_
  refine Always.bind (h.retire (.complete reason)) fun _ => ?_
  exact Always.update fun s => h.countCompleted s _

/-- So does a failure. -/
theorem failRequest (error : Error) : (failRequest r error : Sched A Unit).Always G := by
  refine Always.bind (Always.update fun s => h.edit s _ fun _ => rfl) fun _ => ?_
  refine Always.bind (Always.update fun s => h.edit s _ fun _ => rfl) fun _ => ?_
  refine Always.bind (h.retire (.error error)) fun _ => ?_
  exact Always.update fun s => h.countErrored s _

/-- So does the start of a request. -/
theorem startRequest (d : SchedulerSetup) : (startRequest d r : Sched A Unit).Always G :=
  .of_triple (h.serve.startRequest (fun _ _ _ _ _ => trivial) (fun _ _ _ hact => hact)
    (fun _ _ _ _ => trivial) (fun s _ => ⟨h.activate s, trivial⟩)
    (fun e => (h.failRequest e).watched) d)

/-- So does a turn of it. -/
theorem decodeRequest (d : SchedulerSetup) : (decodeRequest d r : Sched A Unit).Always G :=
  .of_triple (h.serve.toStepChores.decodeRequest (fun _ _ _ _ _ => trivial)
    (fun _ _ _ hact => hact) (fun _ _ _ _ => trivial) (fun _ _ => trivial)
    (fun reason => (h.completeRequest reason).watched) (fun e => (h.failRequest e).watched) d)

end Chores

/-! ### The loop -/

/-- An assertion that is kept between two requests, and over each request, is
kept by the decode thread.  `F r` holds from taking `r` out of the queue to
serving it. -/
theorem decodeLoop_keeps {c : Contract (Scheduler A)} {P : Scheduler A → Prop}
    {F : RequestPtr → Scheduler A → Prop} (hP : Stable c P)
    (hguar : ∀ s, P s → c.guar s s)
    (hexit : ∀ s, P s → c.guar s { s with decodeThreadExited := !s.running } ∧
      P { s with decodeThreadExited := !s.running })
    (hdequeue : ∀ s r rest, P s → c.known s → s.pendingQueue = r :: rest →
      c.guar s ({ s with pendingQueue := rest }.log (.dequeued r)) ∧
        F r ({ s with pendingQueue := rest }.log (.dequeued r)))
    (d : SchedulerSetup)
    (hstart : ∀ r, Triple c (F r) (startRequest d r : Sched A Unit) (fun _ => P))
    (hdecode : ∀ r, Triple c P (decodeRequest d r : Sched A Unit) (fun _ => P)) (l : Point) :
    Triple c P (decodeLoop d l : Sched A Point) (fun _ => P) := by
  cases l with
  | start =>
      refine Triple.bind (Q := fun _ => P) (Triple.atomic hP fun _ s hs _ _ => hexit s hs)
        fun running => ?_
      cases running <;> exact Triple.ret fun _ hs => hs
  | processQueue =>
      refine Triple.bind (Q := fun next s => next.elim (P s) fun r => F r s)
        (Triple.atomic hP fun _ s hs hknown _ => ?_) fun next => ?_
      · obtain heq | ⟨r, rest, hpend, -, heq⟩ := dequeue_cases s d.config.maxActiveRequests
        · rw [heq]
          exact ⟨hguar s hs, hs⟩
        · rw [heq]
          exact hdequeue s r rest hs hknown hpend
      cases next with
      | none => exact Triple.ret fun _ hs => hs
      | some r => exact Triple.bind (hstart r) (fun _ => Triple.ret fun _ hs => hs)
  | copyActive =>
      refine Triple.bind (Q := fun _ => P) (Triple.atomic hP fun _ s hs _ _ => ⟨hguar s hs, hs⟩)
        fun active => ?_
      by_cases hempty : active.isEmpty
      · rw [if_pos hempty]
        exact Triple.ret fun _ hs => hs
      · rw [if_neg hempty]
        exact Triple.ret fun _ hs => hs
  | decodeEach rest =>
      cases rest with
      | nil => exact Triple.ret fun _ hs => hs
      | cons r rest => exact Triple.bind (hdecode r) (fun _ => Triple.ret fun _ hs => hs)
  | join | returned => exact Triple.ret fun _ hs => hs

/-- A relation that has the actions of the decode thread between two requests,
and those on any request, has all of them. -/
theorem decodeLoop_always {G : Scheduler A → Scheduler A → Prop} (h : ∀ r, Chores r G)
    (hexit : ∀ s, G s { s with decodeThreadExited := !s.running })
    (hdequeue : ∀ s r rest, s.pendingQueue = r :: rest →
      G s ({ s with pendingQueue := rest }.log (.dequeued r)))
    (d : SchedulerSetup) (l : Point) : (decodeLoop d l : Sched A Point).Always G :=
  .of_triple (decodeLoop_keeps (F := fun _ _ => True) (fun _ _ _ _ _ => trivial)
    (fun s _ => (h 0).idle s) (fun s _ => ⟨hexit s, trivial⟩)
    (fun s r rest _ _ hpend => ⟨hdequeue s r rest hpend, trivial⟩) d
    (fun r => ((h r).startRequest d).watched) (fun r => ((h r).decodeRequest d).watched) l)

end Decode

/-! ## The other threads -/

/-- A relation that has every action of the submit call of `r`. -/
structure SubmitChores (r : RequestPtr) (G : Scheduler A → Scheduler A → Prop) : Prop where
  idle : ∀ s, G s s
  queue : ∀ s, G s (s.modify r (fun q => { q with state := .queued }))
  reject : ∀ s, G s (s.modify r (fun q => { q with state := .rejected }))
  blame : ∀ s e, G s (s.modify r (fun q => { q with error := some e }))
  stamp : ∀ s t, G s (s.modify r (fun q => { q with timing := t }))
  register : ∀ s, G s (s.registryAdd r)
  enqueue : ∀ s, G s (s.enqueue r)

/-- A relation that has every action of the calls of `cancel` and of the HTTP
threads.  What `stop` does besides is to lower the flag. -/
structure HttpChores (G : Scheduler A → Scheduler A → Prop) : Prop where
  idle : ∀ s, G s s
  cancel : ∀ s r, G s (s.cancelToken r)
  pop : ∀ s r, G s (s.popEvent r)
  trans : ∀ {s s' s''}, G s s' → G s' s'' → G s s''

section Others

variable {r : RequestPtr} {G : Scheduler A → Scheduler A → Prop}

/-- What follows admission consists of the actions of the submit call. -/
theorem SubmitChores.accept (h : SubmitChores r G) (d : SchedulerSetup) :
    (accept d r : Sched A Unit).Always G := by
  refine Always.bind (Always.update h.register) fun _ => ?_
  refine Always.bind (Always.update h.queue) fun _ => ?_
  refine Always.bind (Always.atomic fun i s => h.stamp s (submitTiming d i.now)) fun _ => ?_
  exact Always.update h.enqueue

/-- Admission control only looks. -/
theorem admitRequest_always [IKVCacheAllocator A] (hidle : ∀ s, G s s) (d : SchedulerSetup)
    (r : RequestPtr) : (admitRequest d r : Sched A (Result Unit)).Always G := by
  refine Always.bind (Always.read hidle) fun full => ?_
  cases full with
  | true => exact Always.ret _
  | false =>
      refine Always.bind (Always.read hidle) fun placeable => ?_
      cases placeable with
      | true =>
          refine Always.bind (Always.read hidle) fun allocatable => ?_
          cases allocatable <;> exact Always.ret _
      | false => exact Always.ret _

/-- So does the whole call. -/
theorem SubmitChores.submit [IKVCacheAllocator A] (h : SubmitChores r G) (d : SchedulerSetup) :
    (submit d r : Sched A (Result Unit)).Always G := by
  refine Always.bind (Always.read h.idle) fun running => ?_
  cases running with
  | false => exact Always.ret _
  | true =>
      refine Always.bind (admitRequest_always h.idle d r) fun admitted => ?_
      cases admitted with
      | ok _ => exact Always.bind (h.accept d) (fun _ => Always.ret _)
      | error e =>
          refine Always.bind (Always.update h.reject) fun _ => ?_
          exact Always.bind (Always.update fun s => h.blame s e) (fun _ => Always.ret _)

/-- HTTP threads touch requests and the history only. -/
theorem HttpChores.of_field {β : Type} {f : Scheduler A → β}
    (hmodify : ∀ s r g, f (s.modify r g) = f s) (hlog : ∀ s e, f (s.log e) = f s) :
    HttpChores (fun s s' : Scheduler A => f s' = f s) where
  idle _ := rfl
  cancel s r := hmodify s r _
  pop s r := by
    obtain heq | ⟨t, event, rest, -, -, heq⟩ := popEvent_cases s r
    · rw [heq]
    · rw [heq]
      exact (hlog _ _).trans (hmodify s r _)
  trans h h' := h'.trans h

/-- A cancel by id is cancelling one token or nothing. -/
theorem HttpChores.registryCancel (h : HttpChores G) (s : Scheduler A) (id : String) :
    G s (s.registryCancel id) := by
  unfold Scheduler.registryCancel
  cases s.registry.lookup id with
  | none => exact h.idle s
  | some r => exact h.cancel s r

/-- A cancel of all is cancelling one token after the other. -/
theorem HttpChores.registryCancelAll (h : HttpChores G) (s : Scheduler A) :
    G s s.registryCancelAll := by
  unfold Scheduler.registryCancelAll
  generalize s.registry.entries = entries
  induction entries generalizing s with
  | nil => exact h.idle s
  | cons e rest ih =>
      rw [List.foldl_cons]
      refine h.trans ?_ (ih _)
      split
      · exact h.idle s
      · exact h.cancel s e.2

/-- `stop` lowers the flag and cancels what is left. -/
theorem HttpChores.stop (h : HttpChores G) (hlower : ∀ s, G s { s with running := false })
    (l : Point) : (stop l : Sched A Point).Always G := by
  cases l with
  | start =>
      refine Always.bind (Always.atomic fun _ s => hlower s) fun running => ?_
      cases running <;> exact Always.ret _
  | join =>
      refine Always.bind (Always.read h.idle) fun exited => ?_
      cases exited with
      | true => exact Always.bind (Always.update h.registryCancelAll) (fun _ => Always.ret _)
      | false => exact Always.ret _
  | processQueue | copyActive | decodeEach | returned => exact Always.ret _

/-- The actions of every thread but the decode thread. -/
theorem others_always [IKVCacheAllocator A] (hhttp : HttpChores G) (d : SchedulerSetup)
    {t : ThreadId} (ht : t ≠ .decode) (hsubmit : ∀ r, t = .submit r → SubmitChores r G)
    (hlower : t = .stop → ∀ s, G s { s with running := false }) (l : Point) :
    (code d t l : Sched A Point).Always G := by
  cases t with
  | decode => exact absurd rfl ht
  | submit r =>
      cases l with
      | start => exact Always.bind ((hsubmit r rfl).submit d) (fun _ => Always.ret _)
      | processQueue | copyActive | decodeEach | join | returned => exact Always.ret _
  | cancel id =>
      exact Always.bind (Always.update fun s => hhttp.registryCancel s id) (fun _ => Always.ret _)
  | disconnect r =>
      exact Always.bind (Always.update fun s => hhttp.cancel s r) (fun _ => Always.ret _)
  | pop r => exact Always.bind (Always.update fun s => hhttp.pop s r) (fun _ => Always.ret _)
  | stop => exact hhttp.stop (hlower rfl) l

/-- A part of the state outside the requests, the history and the containers
that requests arrive in. -/
theorem others_field [IKVCacheAllocator A] {β : Type} {f : Scheduler A → β}
    (hmodify : ∀ s r g, f (s.modify r g) = f s) (hlog : ∀ s e, f (s.log e) = f s)
    (hregister : ∀ s r, f (s.registryAdd r) = f s) (henqueue : ∀ s r, f (s.enqueue r) = f s)
    (d : SchedulerSetup) {t : ThreadId} (ht : t ≠ .decode)
    (hlower : t = .stop → ∀ s, f { s with running := false } = f s) (l : Point) :
    (code d t l : Sched A Point).Always (fun s s' => f s' = f s) := by
  refine others_always (HttpChores.of_field hmodify hlog) d ht (fun r _ => ?_) hlower l
  exact ⟨fun _ => rfl, fun s => hmodify s r _, fun s => hmodify s r _, fun s _ => hmodify s r _,
    fun s _ => hmodify s r _, fun s => hregister s r, fun s => henqueue s r⟩

end Others

/-! ## What the decode thread leaves alone -/

/-- What the decode thread never writes while it works on a request. -/
def frame (s : Scheduler A) : List RequestPtr × Bool × Bool × Nat × Bool :=
  (s.pendingQueue, s.running, s.decodeThreadExited, s.cancelledCount, s.gpuRouter.isSome)

/-- What an action on `r` leaves alone. -/
structure Works (r : RequestPtr) (s s' : Scheduler A) : Prop where
  requests : ∀ q, q ≠ r → s'.requests q = s.requests q
  listed : ∀ q, q ≠ r → (q ∈ s'.activeRequests ↔ q ∈ s.activeRequests)
  trace : ∃ more, s'.trace = s.trace ++ more ∧
    ∀ e ∈ more, e.subject = r ∧ e.byDecode ∧ e.quiet
  frame : s'.frame = s.frame

section Works

variable {r : RequestPtr} {s s' s'' : Scheduler A}

/-- Work on a request leaves the queue alone. -/
theorem Works.pendingQueue (h : Works r s s') : s'.pendingQueue = s.pendingQueue :=
  congrArg Prod.fst h.frame

/-- It does not lower the flag. -/
theorem Works.running (h : Works r s s') : s'.running = s.running :=
  congrArg (·.2.1) h.frame

/-- It does not end the thread. -/
theorem Works.decodeThreadExited (h : Works r s s') :
    s'.decodeThreadExited = s.decodeThreadExited :=
  congrArg (·.2.2.1) h.frame

/-- It counts nothing as cancelled. -/
theorem Works.cancelledCount (h : Works r s s') : s'.cancelledCount = s.cancelledCount :=
  congrArg (·.2.2.2.1) h.frame

/-- It does not take the router away. -/
theorem Works.routes (h : Works r s s') : s'.gpuRouter.isSome = s.gpuRouter.isSome :=
  congrArg (·.2.2.2.2) h.frame

/-- What changes none of these is such work. -/
theorem Works.of_eq (hrequests : s'.requests = s.requests)
    (hactive : s'.activeRequests = s.activeRequests) (htrace : s'.trace = s.trace)
    (hframe : s'.frame = s.frame) : Works r s s' :=
  ⟨fun _ _ => by rw [hrequests], fun _ _ => by rw [hactive], ⟨[], by simp [htrace], by simp⟩,
    hframe⟩

theorem Works.refl (r : RequestPtr) (s : Scheduler A) : Works r s s :=
  .of_eq rfl rfl rfl rfl

/-- Work on a request can be chained. -/
theorem Works.trans (h : Works r s s') (h' : Works r s' s'') : Works r s s'' := by
  obtain ⟨more, htrace, hmore⟩ := h.trace
  obtain ⟨more', htrace', hmore'⟩ := h'.trace
  refine ⟨fun q hq => (h'.requests q hq).trans (h.requests q hq),
    fun q hq => (h'.listed q hq).trans (h.listed q hq), ⟨more ++ more', ?_, fun e he => ?_⟩,
    h'.frame.trans h.frame⟩
  · rw [htrace', htrace, List.append_assoc]
  · exact (List.mem_append.mp he).elim (hmore e) (hmore' e)

/-- Rewriting the request is work on it. -/
theorem works_modify (s : Scheduler A) (r : RequestPtr) (f : Request → Request) :
    Works r s (s.modify r f) :=
  ⟨fun _ hq => requests_modify_of_ne s f hq, fun _ _ => Iff.rfl, ⟨[], by simp [modify], by simp⟩,
    rfl⟩

/-- So is a quiet event about it. -/
theorem works_log (s : Scheduler A) {e : Event} (hsubject : e.subject = r) (hown : e.byDecode)
    (hquiet : e.quiet) : Works r s (s.log e) :=
  ⟨fun _ _ => rfl, fun _ _ => Iff.rfl, ⟨[e], rfl, by simp [hsubject, hown, hquiet]⟩, rfl⟩

/-- The router moves bytes, and the history may tell. -/
theorem works_reroute (h : s.gpuRouter.isSome) (g : GPURouter) :
    Works r s { s with gpuRouter := some g } :=
  .of_eq rfl rfl rfl (by simp [frame, h])

/-- So is giving its budget back. -/
theorem works_freeBudget (s : Scheduler A) (r : RequestPtr) : Works r s (s.freeBudget r) := by
  obtain ⟨heq, -⟩ | ⟨g, hrouter, -, heq⟩ := freeBudget_cases s r
  · rw [heq]
    exact Works.refl r s
  · rw [heq]
    exact (works_reroute (by simp [hrouter]) _).trans (works_log _ rfl rfl rfl)

/-- So is routing it. -/
theorem works_routeRequest (s : Scheduler A) (r : RequestPtr) :
    Works r s (s.routeRequest r).2 := by
  cases hrouter : s.gpuRouter with
  | none =>
      rw [routeRequest_none hrouter]
      exact Works.refl r s
  | some g =>
      rw [routeRequest_some hrouter]
      have hmoved : Works r s { s with
          gpuRouter := some (g.route (s.requests r).contextLength).2 } :=
        works_reroute (by simp [hrouter]) _
      exact (hmoved.trans (works_modify _ r _)).trans (works_log _ rfl rfl rfl)

/-- So is reserving for it. -/
theorem works_reserveBudget (s : Scheduler A) (r : RequestPtr)
    (decision : Option RoutingDecision) : Works r s (s.reserveBudget r decision) := by
  unfold reserveBudget
  split
  next g decision hrouter =>
    exact (works_reroute (by simp [hrouter]) _).trans (works_log _ rfl rfl rfl)
  next => exact Works.refl r s

/-- So is taking that back. -/
theorem works_unreserveBudget (s : Scheduler A) (r : RequestPtr)
    (decision : Option RoutingDecision) : Works r s (s.unreserveBudget r decision) := by
  unfold unreserveBudget
  split
  next g decision hrouter => exact works_reroute (by simp [hrouter]) _
  next => exact Works.refl r s

/-- So is committing it. -/
theorem works_commitBudget (s : Scheduler A) (r : RequestPtr)
    (decision : Option RoutingDecision) : Works r s (s.commitBudget r decision) := by
  unfold commitBudget
  split
  next g decision hrouter =>
    exact (works_reroute (by simp [hrouter]) _).trans (works_log _ rfl rfl rfl)
  next => exact Works.refl r s

variable [IKVCacheAllocator A]

/-- So is allocating its cache. -/
theorem works_allocateFor (s : Scheduler A) (i : Answer) (r : RequestPtr)
    (decision : Option RoutingDecision) : Works r s (s.allocateFor i r decision).2 := by
  obtain ⟨e, a, -, heq⟩ | ⟨handle, a, -, heq⟩ := allocateFor_cases s i r decision
  · rw [heq]
    exact .of_eq rfl rfl rfl rfl
  · rw [heq]
    have hmoved : Works r s { s with kvAllocator := a } := .of_eq rfl rfl rfl rfl
    refine hmoved.trans ?_
    dsimp only
    exact works_modify _ r _

/-- So is freeing it. -/
theorem works_freeKvCache (s : Scheduler A) (r : RequestPtr) : Works r s (s.freeKvCache r) := by
  have hmoved : Works r s { s with
      kvAllocator := (IKVCacheAllocator.free s.kvAllocator (s.requests r).kvCache).2 } :=
    .of_eq rfl rfl rfl rfl
  refine hmoved.trans ?_
  unfold freeKvCache
  dsimp only
  exact works_modify _ r _

/-- No action of the decode thread on a request touches another one. -/
theorem works_chores (r : RequestPtr) : Chores r (Works (A := A) r) where
  idle := Works.refl r
  edit s f _ := works_modify s r f
  push s _ := works_modify s r _
  close s := works_modify s r _
  gauge _ _ := .of_eq rfl rfl rfl rfl
  route s := works_routeRequest s r
  reserve s decision := works_reserveBudget s r decision
  allocate s i decision := works_allocateFor s i r decision
  unreserve s decision := works_unreserveBudget s r decision
  commit s decision := works_commitBudget s r decision
  call s _ hsubject hown hquiet := works_log s hsubject hown hquiet
  activate s := ⟨fun _ _ => rfl, fun _ hq => by simp [hq], ⟨[], by simp, by simp⟩, rfl⟩
  freeBudget s := works_freeBudget s r
  freeKvCache s := works_freeKvCache s r
  eraseActive s := ⟨fun _ _ => rfl, fun _ hq => by simp [eraseActive, hq],
    ⟨[], by simp [eraseActive], by simp⟩, rfl⟩
  unregister _ := .of_eq rfl rfl rfl rfl
  countCompleted _ _ := .of_eq rfl rfl rfl rfl
  countErrored _ _ := .of_eq rfl rfl rfl rfl

end Works

end Scheduler

end Qwen
