import WinInference.Scheduler.Solo
import WinInference.Scheduler.TokenFeed

/-!
# The scheduler feeds the token queues

In every run of the server the token queue of a request is a feed: the decode
thread offers tokens, then one terminal event, then closes the queue, and
offers nothing that a closed queue would take; its HTTP thread pops; and no
other action of any thread touches it.

`Fed` connects the queue of a request with a feed of `TokenFeed`, and
`Fed.push_token`, `Fed.push_ending`, `Fed.close` and `Fed.pop` are its moves.
`Unheard` are the actions that no queue hears of.  `startRequest_feedPoint` and
`decodeRequest_feedPoint` follow the feed through one request, and `feed_run`
gives a feed for every request of every run.
-/

namespace Qwen

open Concurrency Concurrency.Program

namespace Scheduler

variable {A : Type}

/-- The events popped off the queue of a request, in order. -/
def popped (s : Scheduler A) (r : RequestPtr) : List TokenEvent :=
  s.trace.filterMap (Event.poppedOff r)

/-- The queue of `r`, of capacity `maxSize`, is a feed in this stage. -/
def Fed (maxSize : Nat) (r : RequestPtr) (stage : FeedStage) (s : Scheduler A) : Prop :=
  ∃ moves f, (Feed.start maxSize).run moves = some f ∧ f.stage = stage ∧
    (s.requests r).tokenQueue = some f.queue ∧ s.popped r = f.received

/-- The action does not touch the queue of `r`. -/
structure Unheard (r : RequestPtr) (s s' : Scheduler A) : Prop where
  queue : (s'.requests r).tokenQueue = (s.requests r).tokenQueue
  popped : s'.popped r = s.popped r

section Actions

variable {maxSize : Nat} {q r : RequestPtr} {stage : FeedStage} {s s' : Scheduler A}

theorem Unheard.refl (r : RequestPtr) (s : Scheduler A) : Unheard r s s := ⟨rfl, rfl⟩

/-- The queue and its history decide. -/
theorem Unheard.of_eq (hrequests : s'.requests = s.requests) (htrace : s'.trace = s.trace) :
    Unheard r s s' :=
  ⟨by rw [hrequests], by rw [Scheduler.popped, htrace, Scheduler.popped]⟩

/-- One event is recorded that is no pop of `r`. -/
theorem Unheard.of_log {e : Event} (hrequests : s'.requests = s.requests)
    (htrace : s'.trace = s.trace ++ [e]) (he : e.poppedOff r = none) : Unheard r s s' := by
  refine ⟨by rw [hrequests], ?_⟩
  simp [Scheduler.popped, htrace, he]

/-- A rewrite that keeps the queues is not heard. -/
theorem unheard_modify (s : Scheduler A) (q r : RequestPtr) {f : Request → Request}
    (hf : ∀ q, (f q).tokenQueue = q.tokenQueue) : Unheard r s (s.modify q f) :=
  ⟨requests_modify_field s q r (·.tokenQueue) hf, rfl⟩

theorem Unheard.trans {s'' : Scheduler A} (h : Unheard r s s') (h' : Unheard r s' s'') :
    Unheard r s s'' :=
  ⟨h'.queue.trans h.queue, h'.popped.trans h.popped⟩

/-- The decode thread pops nothing. -/
theorem Event.poppedOff_of_byDecode {e : Event} (h : e.byDecode) : e.poppedOff r = none := by
  cases e with
  | popped => cases h
  | _ => rfl

/-- What the decode thread does for another request. -/
theorem Works.unheard (h : Works q s s') (hr : r ≠ q) : Unheard r s s' := by
  obtain ⟨more, htrace, hmore⟩ := h.trace
  refine ⟨by rw [h.requests r hr], ?_⟩
  have hnone : more.filterMap (Event.poppedOff r) = [] :=
    List.filterMap_eq_nil_iff.mpr fun e he => Event.poppedOff_of_byDecode (hmore e he).2.1
  rw [popped, htrace, List.filterMap_append, hnone, List.append_nil, popped]

/-- The stage of a feed is kept by what is not heard. -/
theorem Fed.unheard (h : Fed maxSize r stage s) (hu : Unheard r s s') :
    Fed maxSize r stage s' := by
  obtain ⟨moves, f, hrun, hstage, hqueue, hpopped⟩ := h
  exact ⟨moves, f, hrun, hstage, hu.queue.trans hqueue, hu.popped.trans hpopped⟩

/-- A move of the feed, made in the scheduler. -/
theorem Fed.next {m : FeedMove} {stage' : FeedStage} (h : Fed maxSize r stage s)
    (hmove : ∀ f : Feed, f.stage = stage → (s.requests r).tokenQueue = some f.queue →
      s.popped r = f.received → ∃ f', f.step m = some f' ∧ f'.stage = stage' ∧
        (s'.requests r).tokenQueue = some f'.queue ∧ s'.popped r = f'.received) :
    Fed maxSize r stage' s' := by
  obtain ⟨moves, f, hrun, hstage, hqueue, hpopped⟩ := h
  obtain ⟨f', hstep, hrest⟩ := hmove f hstage hqueue hpopped
  exact ⟨moves ++ [m], f', Feed.run_next hrun hstep, hrest⟩

/-- A push, on the queue of the request. -/
theorem pushEvent_queue {t : TokenQueue} (hqueue : (s.requests r).tokenQueue = some t)
    (event : TokenEvent) :
    ((s.pushEvent r event).requests r).tokenQueue = some (t.push event).2 := by
  simp [pushEvent, hqueue]

/-- A close, on the queue of the request. -/
theorem closeQueue_queue {t : TokenQueue} (hqueue : (s.requests r).tokenQueue = some t) :
    ((s.closeQueue r).requests r).tokenQueue = some t.close := by
  simp [closeQueue, hqueue]

/-- A token goes on a feed that streams. -/
theorem Fed.push_token (h : Fed maxSize r .streaming s) (tokenId : Int) (text : Bytes) :
    Fed maxSize r .streaming (s.pushEvent r (.token tokenId text)) :=
  h.next (m := .emit tokenId text) fun f hstage hqueue hpopped =>
    ⟨f.offer (.token tokenId text), by simp [Feed.step, hstage], hstage, pushEvent_queue hqueue _, hpopped⟩

/-- A terminal event ends it. -/
theorem Fed.push_ending (h : Fed maxSize r .streaming s) {event : TokenEvent}
    (hterminal : event.isTerminal) : Fed maxSize r .ended (s.pushEvent r event) :=
  h.next (m := .finish event) fun f hstage hqueue hpopped =>
    ⟨{ f.offer event with stage := .ended }, by simp [Feed.step, hstage, hterminal], rfl,
      pushEvent_queue hqueue _, hpopped⟩

/-- A feed that has ended may be closed. -/
theorem Fed.close (h : Fed maxSize r .ended s) : Fed maxSize r .closed (s.closeQueue r) :=
  h.next (m := .close) fun f hstage hqueue hpopped =>
    ⟨{ f with queue := f.queue.close, stage := .closed }, by simp [Feed.step, hstage], rfl,
      closeQueue_queue hqueue, hpopped⟩

/-- A closed queue takes nothing more. -/
theorem Fed.push_closed (h : Fed maxSize r .closed s) (event : TokenEvent) :
    Fed maxSize r .closed (s.pushEvent r event) := by
  obtain ⟨moves, f, hrun, hstage, hqueue, hpopped⟩ := h
  have hclosed : f.queue.closed = true :=
    ((Feed.Kept.start maxSize).run hrun).closed.mpr hstage
  refine ⟨moves, f, hrun, hstage, ?_, hpopped⟩
  rw [pushEvent_queue hqueue]
  simp [TokenQueue.push, hclosed]

/-- It may be closed again. -/
theorem Fed.close_closed (h : Fed maxSize r .closed s) :
    Fed maxSize r .closed (s.closeQueue r) := by
  obtain ⟨moves, f, hrun, hstage, hqueue, hpopped⟩ := h
  have hclosed : f.queue.closed = true :=
    ((Feed.Kept.start maxSize).run hrun).closed.mpr hstage
  refine ⟨moves, f, hrun, hstage, ?_, hpopped⟩
  rw [closeQueue_queue hqueue, TokenQueue.close, ← hclosed]

/-- A pop of the client keeps the stage. -/
theorem Fed.pop (h : Fed maxSize r stage s) (q : RequestPtr) :
    Fed maxSize r stage (s.popEvent q) := by
  obtain heq | ⟨t, event, rest, hqueue, hevents, heq⟩ := popEvent_cases s q
  · rwa [heq]
  rw [heq]
  by_cases hq : q = r
  · subst hq
    refine h.next (m := .pop) fun f hstage hfeed hpopped => ⟨f.take, rfl, hstage, ?_, ?_⟩
    · obtain rfl : t = f.queue := Option.some.inj (hqueue.symm.trans hfeed)
      simp [Feed.take, TokenQueue.pop, hevents]
    · obtain rfl : t = f.queue := Option.some.inj (hqueue.symm.trans hfeed)
      have hold : s.trace.filterMap (Event.poppedOff q) = f.received := hpopped
      simp [popped, log, modify, Event.poppedOff, Feed.take, TokenQueue.pop, hevents, hold]
  · refine h.unheard (Unheard.trans ?_ (.of_log (s := s.modify q _) rfl rfl ?_))
    · exact ⟨by rw [requests_modify_of_ne _ _ (Ne.symm hq)], rfl⟩
    · simp [Event.poppedOff, hq]

end Actions

/-! ## The threads -/

section Threads

variable {maxSize : Nat} {q r : RequestPtr}

/-- What the other threads do: the stage of the feed stays. -/
def Feeds (maxSize : Nat) (r : RequestPtr) (s s' : Scheduler A) : Prop :=
  ∀ stage, Fed maxSize r stage s → Fed maxSize r stage s'

/-- What is not heard keeps every stage. -/
theorem feeds_of_unheard {s s' : Scheduler A} (h : Unheard r s s') : Feeds maxSize r s s' :=
  fun _ hs => hs.unheard h

/-- Between two rounds of the decode thread. -/
def OpenOrClosed (maxSize : Nat) (r : RequestPtr) (s : Scheduler A) : Prop :=
  Fed maxSize r .streaming s ∨ Fed maxSize r .closed s

/-- What the decode thread does while it serves a request. -/
structure Streams (maxSize : Nat) (r : RequestPtr) (s s' : Scheduler A) : Prop where
  streaming : Fed maxSize r .streaming s → Fed maxSize r .streaming s'
  closed : Fed maxSize r .closed s → Fed maxSize r .closed s'

/-- It is also what the decode thread may do. -/
theorem streams_of_unheard {s s' : Scheduler A} (h : Unheard r s s') : Streams maxSize r s s' :=
  ⟨fun hs => hs.unheard h, fun hs => hs.unheard h⟩

/-- The decode thread against threads that keep the stage. -/
def feedSetup (maxSize : Nat) (r : RequestPtr) : LoneSetup (Scheduler A) where
  known _ := True
  rely s s' := Interference s s' ∧ Feeds maxSize r s s'
  rely_refl s := ⟨Interference.refl s, fun _ hs => hs⟩
  rely_trans h h' := ⟨h.1.trans h'.1, fun stage hs => h'.2 stage (h.2 stage hs)⟩
  always s := ∃ stage, Fed maxSize r stage s

/-- The other threads keep the stage. -/
theorem steady_fed {stage : FeedStage} :
    (feedSetup (A := A) maxSize r).Steady (Fed maxSize r stage) :=
  fun _ _ hs hrely => hrely.2 _ hs

/-- They keep the feed open or closed. -/
theorem steady_openOrClosed : (feedSetup (A := A) maxSize r).Steady (OpenOrClosed maxSize r) :=
  fun _ _ hs hrely => hs.imp (hrely.2 _) (hrely.2 _)

/-- An open or closed feed is in some stage. -/
theorem OpenOrClosed.always {s : Scheduler A} (h : OpenOrClosed maxSize r s) :
    ∃ stage, Fed maxSize r stage s :=
  h.elim (fun hs => ⟨_, hs⟩) (fun hs => ⟨_, hs⟩)

/-- Serving a request keeps its feed open or closed. -/
theorem Streams.kept {s s' : Scheduler A} (h : Streams maxSize r s s')
    (hs : OpenOrClosed maxSize r s) : OpenOrClosed maxSize r s' :=
  hs.imp h.streaming h.closed

/-- A request that left the active list. -/
def Gone (r : RequestPtr) (s : Scheduler A) : Prop :=
  r ∈ s.dequeued ∧ r ∉ s.activeRequests

/-- Between two rounds of the decode thread: the queue of a request that is gone
is closed. -/
structure FeedPoint (maxSize : Nat) (r : RequestPtr) (s : Scheduler A) : Prop where
  open_or_closed : OpenOrClosed maxSize r s
  gone : Gone r s → Fed maxSize r .closed s

/-- A closed feed needs no more care. -/
theorem Fed.point {s : Scheduler A} (h : Fed maxSize r .closed s) : FeedPoint maxSize r s :=
  ⟨Or.inr h, fun _ => h⟩

/-- The point is kept as long as the request does not leave. -/
theorem FeedPoint.kept {s s' : Scheduler A} (h : FeedPoint maxSize r s)
    (hs : Streams maxSize r s s') (hgone : Gone r s' → Gone r s) : FeedPoint maxSize r s' :=
  ⟨hs.kept h.open_or_closed, fun hg => hs.closed (h.gone (hgone hg))⟩

/-- The other threads keep it. -/
theorem steady_feedPoint : (feedSetup (A := A) maxSize r).Steady (FeedPoint maxSize r) := by
  intro s s' hs hrely
  refine hs.kept ⟨hrely.2 _, hrely.2 _⟩ fun hgone => ?_
  rw [Gone, hrely.1.dequeued, hrely.1.activeRequests] at hgone
  exact hgone

/-- A quiet step lets nobody leave. -/
theorem Quiet.gone {s s' : Scheduler A} (h : Quiet s s') (hgone : Gone r s') : Gone r s := by
  have hdequeued : s'.dequeued = s.dequeued := congrArg Life.dequeued h
  have hactive : s'.activeRequests = s.activeRequests := congrArg Life.active h
  rwa [Gone, hdequeued, hactive] at hgone

/-- Nor does work on another request. -/
theorem Works.gone {s s' : Scheduler A} (h : Works q s s') (hr : r ≠ q) (hgone : Gone r s') :
    Gone r s :=
  ⟨by rw [← h.dequeued]; exact hgone.1, fun hact => hgone.2 ((h.listed r hr).mpr hact)⟩

/-- A submission keeps the stage of every feed. -/
theorem feeds_submit : SubmitChores q (Feeds (A := A) maxSize r) where
  idle s := feeds_of_unheard (Unheard.refl r s)
  queue s := feeds_of_unheard (unheard_modify s q r fun _ => rfl)
  reject s := feeds_of_unheard (unheard_modify s q r fun _ => rfl)
  blame s _ := feeds_of_unheard (unheard_modify s q r fun _ => rfl)
  stamp s _ := feeds_of_unheard (unheard_modify s q r fun _ => rfl)
  register _ := feeds_of_unheard (.of_log rfl rfl rfl)
  enqueue _ := feeds_of_unheard (.of_log rfl rfl rfl)

/-- So do the HTTP threads. -/
theorem feeds_http : HttpChores (Feeds (A := A) maxSize r) where
  idle s := feeds_of_unheard (Unheard.refl r s)
  cancel s q := feeds_of_unheard (unheard_modify s q r fun _ => rfl)
  pop _ q := fun _ hs => hs.pop q
  trans h h' := fun stage hs => h' stage (h stage hs)

variable [IKVCacheAllocator A]

/-- What leaves the queue of the request itself alone. -/
theorem unheard_leave (r : RequestPtr) : LeaveChores r (Unheard (A := A) r) where
  idle := Unheard.refl r
  freeBudget s := by
    obtain ⟨heq, -⟩ | ⟨g, -, -, heq⟩ := freeBudget_cases s r
    · rw [heq]
      exact Unheard.refl r s
    · rw [heq]
      exact .of_log rfl rfl rfl
  freeKvCache s := by
    have hmoved : Unheard r s { s with
        kvAllocator := (IKVCacheAllocator.free s.kvAllocator (s.requests r).kvCache).2 } :=
      .of_eq rfl rfl
    refine hmoved.trans ?_
    unfold freeKvCache
    dsimp only
    exact unheard_modify _ r r fun _ => rfl
  eraseActive _ := .of_eq rfl rfl
  unregister _ := .of_eq rfl rfl
  gauge _ _ := .of_eq rfl rfl
  countCompleted _ _ := .of_eq rfl rfl
  countErrored _ _ := .of_eq rfl rfl

/-- A placement is not heard. -/
theorem unheard_place (r : RequestPtr) : PlaceChores r (Unheard (A := A) r) where
  route s := by
    cases hrouter : s.gpuRouter with
    | none =>
        rw [routeRequest_none hrouter]
        exact Unheard.refl r s
    | some g =>
        rw [routeRequest_some hrouter]
        have hmoved : Unheard r s { s with
            gpuRouter := some (g.route (s.requests r).contextLength).2 } :=
          .of_eq rfl rfl
        refine (hmoved.trans (unheard_modify _ r r ?_)).trans (.of_log rfl rfl rfl)
        exact fun _ => rfl
  reserve s decision := by
    unfold reserveBudget
    split
    · exact .of_log rfl rfl rfl
    · exact Unheard.refl r s
  allocate s i decision := by
    obtain ⟨e, a, -, heq⟩ | ⟨handle, a, -, heq⟩ := allocateFor_cases s i r decision
    · rw [heq]
      exact .of_eq rfl rfl
    · rw [heq]
      have hmoved : Unheard r s { s with kvAllocator := a } := .of_eq rfl rfl
      refine hmoved.trans ?_
      dsimp only
      exact unheard_modify _ r r fun _ => rfl
  unreserve s decision := by
    unfold unreserveBudget
    split
    · exact .of_eq rfl rfl
    · exact Unheard.refl r s
  commit s decision := by
    unfold commitBudget
    split
    · exact .of_log rfl rfl rfl
    · exact Unheard.refl r s

/-- Serving a request streams. -/
theorem streams_serve (r : RequestPtr) : ServeChores r (Streams (A := A) maxSize r) where
  idle s := streams_of_unheard (Unheard.refl r s)
  edit s _ hf := streams_of_unheard (unheard_modify s r r fun q =>
    congrArg (·.1.2.2.2.2.2) (hf q))
  token _ tokenId text := ⟨fun hs => hs.push_token tokenId text, fun hs => hs.push_closed _⟩
  decodeCalled _ _ _ := streams_of_unheard (.of_log rfl rfl rfl)
  freeBudget s := streams_of_unheard ((unheard_leave r).freeBudget s)
  freeKvCache s := streams_of_unheard ((unheard_leave r).freeKvCache s)
  route s := streams_of_unheard ((unheard_place r).route s)
  reserve s decision := streams_of_unheard ((unheard_place r).reserve s decision)
  allocate s i decision := streams_of_unheard ((unheard_place r).allocate s i decision)
  unreserve s decision := streams_of_unheard ((unheard_place r).unreserve s decision)
  commit s decision := streams_of_unheard ((unheard_place r).commit s decision)
  prefilling s := streams_of_unheard (unheard_modify s r r fun _ => rfl)
  decoding s := streams_of_unheard (unheard_modify s r r fun _ => rfl)
  gauge _ _ := streams_of_unheard (.of_eq rfl rfl)
  prefillFailed _ _ := streams_of_unheard (.of_log rfl rfl rfl)

omit [IKVCacheAllocator A] in
/-- An action on the request that leaves its queue alone. -/
theorem openOrClosed_update {f : Scheduler A → Scheduler A} (hf : ∀ s, Unheard r s (f s)) :
    Triple (feedSetup maxSize r).contract (OpenOrClosed maxSize r)
      (Program.update f : Sched A Unit) (fun _ => OpenOrClosed maxSize r) :=
  Triple.update steady_openOrClosed.stable fun s hs _ _ =>
    have hs' := (streams_of_unheard (hf s)).kept hs
    ⟨hs'.always, hs'⟩

/-- The end of a request closes its queue, after a terminal event was offered to
it. -/
theorem retire_closed {event : TokenEvent} (hterminal : event.isTerminal) :
    Triple (feedSetup maxSize r).contract (OpenOrClosed maxSize r)
      (retire r event : Sched A Unit) (fun _ => Fed maxSize r .closed) := by
  have hpush : Triple (feedSetup maxSize r).contract (OpenOrClosed maxSize r)
      (Program.update (·.pushEvent r event) : Sched A Unit)
      (fun _ s => Fed maxSize r .ended s ∨ Fed maxSize r .closed s) := by
    refine Triple.update steady_openOrClosed.stable fun s hs _ _ => ?_
    rcases hs with hs | hs
    · exact ⟨⟨_, hs.push_ending hterminal⟩, Or.inl (hs.push_ending hterminal)⟩
    · exact ⟨⟨_, hs.push_closed event⟩, Or.inr (hs.push_closed event)⟩
  have hclose : Triple (feedSetup maxSize r).contract
      (fun s => Fed maxSize r .ended s ∨ Fed maxSize r .closed s)
      (Program.update (·.closeQueue r) : Sched A Unit) (fun _ => Fed maxSize r .closed) := by
    refine Triple.update (LoneSetup.Steady.stable fun s s' hs hrely =>
      hs.imp (hrely.2 _) (hrely.2 _)) fun s hs _ _ => ?_
    rcases hs with hs | hs
    · exact ⟨⟨_, hs.close⟩, hs.close⟩
    · exact ⟨⟨_, hs.close_closed⟩, hs.close_closed⟩
  refine (unheard_leave r).retire hpush hclose steady_fed.stable ?_ ?_ ?_
  · exact fun _ _ hs hu => ⟨_, hs.unheard hu⟩
  · exact fun _ _ hs hu => hs.unheard hu
  · exact fun _ hs => hs

omit [IKVCacheAllocator A] in
/-- The counters at the end do not show in a queue. -/
theorem closed_update {f : Scheduler A → Scheduler A} (hf : ∀ s, Unheard r s (f s)) :
    Triple (feedSetup maxSize r).contract (Fed maxSize r .closed)
      (Program.update f : Sched A Unit) (fun _ => Fed maxSize r .closed) :=
  Triple.update steady_fed.stable fun s hs _ _ => ⟨⟨_, hs.unheard (hf s)⟩, hs.unheard (hf s)⟩

/-- A completion ends and closes the feed. -/
theorem completeRequest_closed (reason : FinishReason) :
    Triple (feedSetup maxSize r).contract (OpenOrClosed maxSize r)
      (completeRequest r reason : Sched A Unit) (fun _ => Fed maxSize r .closed) := by
  refine Triple.bind (openOrClosed_update fun s => unheard_modify s r r fun _ => rfl) fun _ => ?_
  refine Triple.bind (openOrClosed_update fun s => unheard_modify s r r fun _ => rfl) fun _ => ?_
  refine Triple.bind (retire_closed rfl) fun _ => ?_
  exact closed_update fun _ => .of_eq rfl rfl

/-- So does a failure. -/
theorem failRequest_closed (error : Error) :
    Triple (feedSetup maxSize r).contract (OpenOrClosed maxSize r)
      (failRequest r error : Sched A Unit) (fun _ => Fed maxSize r .closed) := by
  refine Triple.bind (openOrClosed_update fun s => unheard_modify s r r fun _ => rfl) fun _ => ?_
  refine Triple.bind (openOrClosed_update fun s => unheard_modify s r r fun _ => rfl) fun _ => ?_
  refine Triple.bind (retire_closed rfl) fun _ => ?_
  exact closed_update fun _ => .of_eq rfl rfl

/-- A dequeued request ends, or becomes active. -/
theorem startRequest_feedPoint (d : SchedulerSetup) :
    Triple (feedSetup maxSize r).contract (OpenOrClosed maxSize r)
      (startRequest d r : Sched A Unit) (fun _ => FeedPoint maxSize r) := by
  refine (streams_serve r).startRequest steady_openOrClosed.stable
    (fun _ _ hs h => (h.kept hs).always) (fun _ _ hs h => h.kept hs) (fun s hs => ?_)
    (fun e => (failRequest_closed e).post fun _ _ hs => hs.point) d
  have hs' : OpenOrClosed maxSize r { s with activeRequests := s.activeRequests ++ [r] } :=
    (streams_of_unheard (.of_eq rfl rfl)).kept hs
  exact ⟨hs'.always, hs', fun hgone => absurd (by simp) hgone.2⟩

/-- A turn closes the feed of a request that leaves. -/
theorem decodeRequest_feedPoint (d : SchedulerSetup) :
    Triple (feedSetup maxSize r).contract (FeedPoint maxSize r)
      (decodeRequest d r : Sched A Unit) (fun _ => FeedPoint maxSize r) :=
  ((streams_serve r).toStepChores.and (step_quiet r)).decodeRequest steady_feedPoint.stable
    (fun _ _ hs h => (h.1.kept hs.open_or_closed).always)
    (fun _ _ hs h => hs.kept h.1 h.2.gone) (fun _ hs => hs)
    (fun reason => (completeRequest_closed reason).conseq (fun _ hs => hs.open_or_closed)
      fun _ _ hs => hs.point)
    (fun e => (failRequest_closed e).conseq (fun _ hs => hs.open_or_closed)
      fun _ _ hs => hs.point) d

omit [IKVCacheAllocator A] in
/-- What the decode thread does for another request keeps the feed as it is. -/
theorem feedPoint_elsewhere {p : Sched A Unit} (hp : p.Always (Works q)) (hq : r ≠ q) :
    Triple (feedSetup maxSize r).contract (FeedPoint maxSize r) p
      (fun _ => FeedPoint maxSize r) := by
  have hkept (s s' : Scheduler A) (hs : FeedPoint maxSize r s) (hw : Works q s s') :
      FeedPoint maxSize r s' :=
    hs.kept (streams_of_unheard (hw.unheard hq)) (hw.gone hq)
  exact hp.triple steady_feedPoint.stable
    (fun s s' hs hw => (hkept s s' hs hw).open_or_closed.always) hkept

/-- Every body of the decode thread does. -/
theorem decodeLoop_feedPoint (d : SchedulerSetup) (l : Point) :
    Triple (feedSetup maxSize r).contract (FeedPoint maxSize r) (decodeLoop d l : Sched A Point)
      (fun _ => FeedPoint maxSize r) := by
  have hbetween (s s' : Scheduler A) (hs : FeedPoint maxSize r s) (h : Unheard r s s')
      (hgone : Gone r s' → Gone r s) :
      (feedSetup maxSize r).contract.guar s s' ∧ FeedPoint maxSize r s' :=
    have hs' := hs.kept (streams_of_unheard h) hgone
    ⟨hs'.open_or_closed.always, hs'⟩
  refine decodeLoop_keeps
    (F := fun q s => OpenOrClosed maxSize r s ∧ (r ≠ q → FeedPoint maxSize r s))
    steady_feedPoint.stable (fun s hs => hs.open_or_closed.always)
    (fun s hs => hbetween s _ hs (.of_eq rfl rfl) id) (fun s q rest hs _ _ => ?_) d
    (fun q => ?_) (fun q => ?_) l
  · have hunheard : Unheard r s ({ s with pendingQueue := rest }.log (.dequeued q)) :=
      .of_log rfl rfl rfl
    have hopen := (streams_of_unheard hunheard).kept hs.open_or_closed
    refine ⟨hopen.always, hopen, fun hq => (hbetween s _ hs hunheard fun hgone => ?_).2⟩
    obtain ⟨hdequeued, hactive⟩ := hgone
    refine ⟨?_, hactive⟩
    simpa [dequeued, log, hq] using hdequeued
  · by_cases hq : r = q
    · subst hq
      exact (startRequest_feedPoint d).pre fun _ hs => hs.1
    · exact (feedPoint_elsewhere ((works_chores q).startRequest d) hq).pre fun _ hs => hs.2 hq
  · by_cases hq : r = q
    · subst hq
      exact decodeRequest_feedPoint d
    · exact feedPoint_elsewhere ((works_chores q).decodeRequest d) hq

/-- So the decode thread alone is to be looked at. -/
theorem feed_lone (d : SchedulerSetup) (maxSize : Nat) (r : RequestPtr) :
    Lone (code (A := A) d) .decode (feedSetup maxSize r) (fun _ => FeedPoint maxSize r) where
  others _ ht l := (code_interference d ht l).and
    (others_always feeds_http d ht (fun _ _ => feeds_submit)
      (fun _ _ => feeds_of_unheard (.of_eq rfl rfl)) l)
  steady _ := steady_feedPoint
  steady_always := fun _ _ ⟨stage, hs⟩ hrely => ⟨stage, hrely.2 stage hs⟩
  body l := decodeLoop_feedPoint d l

/-- **The queues are feeds.**  In every run the queue of a request is a feed
from which exactly what `pop` handed out was received.  It is closed once the
request is gone. -/
theorem feed_run (d : SchedulerSetup) {a : A} {g : Option GPURouter}
    {requests : RequestPtr → Request}
    (hqueue : (requests r).tokenQueue = some { maxSize := maxSize })
    (schedule : List (ThreadId × Answer)) :
    let w := (System.initial (create a g requests)).run (code d) schedule
    (∀ l, w.threads .decode = .ret l → FeedPoint maxSize r w.state) ∧
      ∃ stage, Fed maxSize r stage w.state := by
  have hstart : Fed maxSize r .streaming (create a g requests) :=
    ⟨[], Feed.start maxSize, rfl, rfl, hqueue, rfl⟩
  have hpoint : FeedPoint maxSize r (create a g requests) :=
    ⟨Or.inl hstart, fun hgone => absurd hgone.1 (by simp [dequeued, create])⟩
  have hthreads : ∀ t, (System.initial (create a g requests)).threads t = .ret .start :=
    fun _ => rfl
  exact (feed_lone d maxSize r).run hthreads hpoint ⟨_, hstart⟩ schedule fun _ _ => trivial

end Threads

/-- **The terminal event is lost on a full queue.**  Whatever the capacity and
the interleaving, a consumer that pops a closed queue empty has received the
accepted tokens, in the order of their emission, and after them the terminal
event exactly when the queue had room for it at the end; and the queue of a
request in any run of the server is such a feed. -/
theorem terminal_event (maxSize : Nat) :
    (∀ moves f, (Feed.start maxSize).run moves = some f → f.queue.closed = true →
      f.queue.events = [] →
        (f.accepted.filter (fun e => !e.isTerminal)).Sublist (FeedMove.emitted moves) ∧
          (f.Delivers ↔ Feed.RoomAtEnd maxSize moves)) ∧
      ∀ {A : Type} [IKVCacheAllocator A] (d : SchedulerSetup) (a : A) (g : Option GPURouter)
        (requests : RequestPtr → Request) (r : RequestPtr) (schedule : List (ThreadId × Answer)),
        (requests r).tokenQueue = some { maxSize := maxSize } →
          let s := ((System.initial (create a g requests)).run (code d) schedule).state
          ∃ moves f, (Feed.start maxSize).run moves = some f ∧
            (s.requests r).tokenQueue = some f.queue ∧ s.popped r = f.received := by
  refine ⟨fun moves f hrun hclosed hempty => Feed.delivers_iff hrun hclosed hempty, ?_⟩
  intro A _ d a g requests r schedule hqueue s
  obtain ⟨-, -, moves, f, hrun, -, hfeed, hpopped⟩ := feed_run (a := a) (g := g) d hqueue schedule
  exact ⟨moves, f, hrun, hfeed, hpopped⟩

/-- One token, read in time, and the end. -/
theorem terminal_event_sample :
    ∃ f, (Feed.start 1).run [.emit 7 [120], .pop, .finish (.complete .stop), .close, .pop] =
        some f ∧ f.Delivers := by
  refine ⟨_, rfl, ?_⟩
  exact (((terminal_event 1).1 _ _ rfl rfl rfl).2).mpr
    ⟨[.emit 7 [120], .pop], .complete .stop, [.close, .pop], _, rfl, rfl, by decide⟩

/-- At the capacity of the server, after as many tokens that the client did not
read yet. -/
theorem terminal_event_dropped :
    ∃ moves f, (Feed.start 1024).run moves = some f ∧ f.queue.closed = true ∧
      f.queue.events = [] ∧ ¬ f.Delivers :=
  have hterminal : (TokenEvent.complete .stop).isTerminal := rfl
  Feed.terminal_lost 1024 7 [120] hterminal

end Scheduler

end Qwen
