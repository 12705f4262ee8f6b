import WinInference.KVCache.Contiguous
import WinInference.Scheduler.Chores
import WinInference.Scheduler.Life

/-!
# The lifecycle of requests in the scheduler

Connects the programs of the scheduler to the lifecycle view.  Every atomic
action either leaves the view of the state alone or is one of its transitions,
so each thread gets a contract in terms of the view and each function a triple.
The parallel composition rule then gives the lifecycle invariant of every
interleaving.

The lemmas `*_quiet` list the actions that leave the view alone, `*_triple` are
the functions of the decode thread and of `submit`.  `life_compatible` and
`life_inv_create` are the premises of the composition, `life_inv` is its
conclusion, and `between_invariant` spells it out for a state between two
actions of the decode thread.
-/

namespace Qwen

open Concurrency Concurrency.Program

namespace Scheduler

variable {A : Type}

/-! ## The view of a state -/

/-- The requests that were registered, in order. -/
def registered (s : Scheduler A) : List RequestPtr :=
  s.trace.filterMap (fun | .registered r => some r | _ => none)

/-- The requests that were pushed, in order. -/
def pushed (s : Scheduler A) : List RequestPtr :=
  s.trace.filterMap (fun | .pushed r => some r | _ => none)

/-- The requests that were dequeued, in order. -/
def dequeued (s : Scheduler A) : List RequestPtr :=
  s.trace.filterMap (fun | .dequeued r => some r | _ => none)

/-- What the lifecycle sees of a state. -/
def life (s : Scheduler A) : Life where
  state r := (s.requests r).state
  id r := (s.requests r).id
  registry := s.registry
  pending := s.pendingQueue
  active := s.activeRequests
  settled := s.completedCount + s.erroredCount
  registered := s.registered
  pushed := s.pushed
  dequeued := s.dequeued

/-- Rewriting a request outside its state and its id does not show. -/
theorem life_modify (s : Scheduler A) (r : RequestPtr) {f : Request → Request}
    (hstate : ∀ q, (f q).state = q.state)
    (hid : ∀ q, (f q).id = q.id) :
    (s.modify r f).life = s.life := by
  simp only [life, Life.mk.injEq]
  exact ⟨funext fun q => requests_modify_field s r q (·.state) hstate,
    funext fun q => requests_modify_field s r q (·.id) hid,
    rfl, rfl, rfl, rfl, rfl, rfl, rfl⟩

/-- A quiet event is not seen. -/
theorem life_log (s : Scheduler A) {e : Event} (h : e.quiet) :
    (s.log e).life = s.life := by
  cases e <;> simp_all [life, log, registered, pushed, dequeued, Event.quiet]

/-- A change of state, seen as such. -/
theorem life_setState (s : Scheduler A) (r : RequestPtr) (st : RequestState) :
    (s.modify r (fun q => { q with state := st })).life = s.life.setState r st := by
  have hstates : ∀ q,
      ((s.modify r (fun q => { q with state := st })).requests q).state =
        Function.update (fun q => (s.requests q).state) r st q := by
    intro q
    by_cases hq : q = r
    · subst hq
      simp
    · rw [requests_modify_of_ne s _ hq, Function.update_of_ne hq]
  simp only [life, Life.setState, Life.mk.injEq]
  exact ⟨funext hstates,
    funext fun q => requests_modify_field s r q (·.id) (fun _ => rfl),
    rfl, rfl, rfl, rfl, rfl, rfl, rfl⟩

/-- A registration, seen as such. -/
theorem life_registryAdd (s : Scheduler A) (r : RequestPtr) :
    (s.registryAdd r).life = s.life.register r := by
  simp [life, registryAdd, Life.register, log, registered, pushed, dequeued]

/-- A push, seen as such. -/
theorem life_enqueue (s : Scheduler A) (r : RequestPtr) :
    (s.enqueue r).life = s.life.push r := by
  simp [life, enqueue, Life.push, log, registered, pushed, dequeued]

/-- An addition to the active list, seen as such. -/
theorem life_activate (s : Scheduler A) (r : RequestPtr) :
    { s with activeRequests := s.activeRequests ++ [r] }.life = s.life.activate r := rfl

/-- A completion is one request settled. -/
theorem life_countCompleted (s : Scheduler A) :
    { s with completedCount := s.completedCount + 1 }.life = s.life.settle := by
  simp [life, Life.settle, registered, pushed, dequeued, Nat.add_right_comm]

/-- So is a failure. -/
theorem life_countErrored (s : Scheduler A) :
    { s with erroredCount := s.erroredCount + 1 }.life = s.life.settle := by
  simp [life, Life.settle, registered, pushed, dequeued, Nat.add_assoc]

/-- A dequeue, seen as such. -/
theorem life_dequeue (s : Scheduler A) (r : RequestPtr) (rest : List RequestPtr) :
    ({ s with pendingQueue := rest }.log (.dequeued r)).life = s.life.dequeue r rest := by
  simp [life, Life.dequeue, log, registered, pushed, dequeued]

/-! ## Quiet actions -/

/-- The view does not change. -/
def Quiet (s s' : Scheduler A) : Prop := s'.life = s.life

theorem quiet_refl (s : Scheduler A) : Quiet s s := rfl

/-- A rewrite that keeps state and id is not seen. -/
theorem quiet_modify (s : Scheduler A) (r : RequestPtr) {f : Request → Request}
    (hstate : ∀ q, (f q).state = q.state)
    (hid : ∀ q, (f q).id = q.id) :
    Quiet s (s.modify r f) := life_modify s r hstate hid

/-- Cancelling is not seen. -/
theorem quiet_cancelToken (s : Scheduler A) (r : RequestPtr) :
    Quiet s (s.cancelToken r) :=
  quiet_modify s r (fun _ => rfl) (fun _ => rfl)

/-- A push on a token queue is not seen. -/
theorem quiet_pushEvent (s : Scheduler A) (r : RequestPtr) (event : TokenEvent) :
    Quiet s (s.pushEvent r event) :=
  quiet_modify s r (fun _ => rfl) (fun _ => rfl)

/-- Nor is its close. -/
theorem quiet_closeQueue (s : Scheduler A) (r : RequestPtr) :
    Quiet s (s.closeQueue r) :=
  quiet_modify s r (fun _ => rfl) (fun _ => rfl)

/-- Nor is a pop. -/
theorem quiet_popEvent (s : Scheduler A) (r : RequestPtr) : Quiet s (s.popEvent r) := by
  obtain heq | ⟨t, event, rest, -, -, heq⟩ := popEvent_cases s r
  · rw [heq]
    exact quiet_refl s
  · rw [heq]
    exact (life_log _ rfl).trans (life_modify s r (fun _ => rfl) (fun _ => rfl))

/-- Routing is not seen. -/
theorem quiet_routeRequest (s : Scheduler A) (r : RequestPtr) :
    Quiet s (s.routeRequest r).2 := by
  cases hrouter : s.gpuRouter with
  | none =>
      rw [routeRequest_none hrouter]
      exact quiet_refl s
  | some g =>
      rw [routeRequest_some hrouter]
      exact (life_log _ rfl).trans
        (life_modify { s with gpuRouter := _ } r (fun _ => rfl) (fun _ => rfl))

/-- Nor is a reservation. -/
theorem quiet_reserveBudget (s : Scheduler A) (r : RequestPtr)
    (decision : Option RoutingDecision) : Quiet s (s.reserveBudget r decision) := by
  unfold reserveBudget
  split
  · exact life_log _ rfl
  · exact quiet_refl s

/-- Nor is its withdrawal. -/
theorem quiet_unreserveBudget (s : Scheduler A) (r : RequestPtr)
    (decision : Option RoutingDecision) : Quiet s (s.unreserveBudget r decision) := by
  unfold unreserveBudget
  split <;> exact rfl

/-- Nor is a commit. -/
theorem quiet_commitBudget (s : Scheduler A) (r : RequestPtr)
    (decision : Option RoutingDecision) : Quiet s (s.commitBudget r decision) := by
  unfold commitBudget
  split
  · exact life_log _ rfl
  · exact quiet_refl s

/-- Nor is a release of the budget. -/
theorem quiet_freeBudget (s : Scheduler A) (r : RequestPtr) :
    Quiet s (s.freeBudget r) := by
  obtain ⟨heq, -⟩ | ⟨g, -, -, heq⟩ := freeBudget_cases s r
  · rw [heq]
    exact quiet_refl s
  · rw [heq]
    exact life_log _ rfl

/-- The lifecycle sees no decode step. -/
theorem step_quiet (r : RequestPtr) : StepChores r (Quiet (A := A)) where
  idle := quiet_refl
  edit s _ hf := quiet_modify s r (fun q => congrArg (·.2.1) (hf q))
    (fun q => congrArg (·.1.1) (hf q))
  token s _ _ := quiet_pushEvent s r _
  decodeCalled s _ _ := life_log s rfl

/-- It sees nothing of the HTTP threads. -/
theorem http_quiet : HttpChores (Quiet (A := A)) :=
  ⟨quiet_refl, quiet_cancelToken, quiet_popEvent, fun h h' => h'.trans h⟩

section Allocator

variable [IKVCacheAllocator A]

/-- An allocation is not seen. -/
theorem quiet_allocateFor (s : Scheduler A) (i : Answer) (r : RequestPtr)
    (decision : Option RoutingDecision) : Quiet s (s.allocateFor i r decision).2 := by
  obtain ⟨e, a, -, heq⟩ | ⟨handle, a, -, heq⟩ := allocateFor_cases s i r decision
  · rw [heq]
    exact rfl
  · rw [heq]
    exact life_modify (f := fun q => { q with kvCache := handle }) { s with kvAllocator := a } r
      (fun _ => rfl) (fun _ => rfl)

/-- Nor is its release. -/
theorem quiet_freeKvCache (s : Scheduler A) (r : RequestPtr) :
    Quiet s (s.freeKvCache r) :=
  life_modify (f := fun q => { q with kvCache := _ }) { s with kvAllocator := _ } r
    (fun _ => rfl) (fun _ => rfl)

/-- The lifecycle does not see resources being released. -/
theorem release_quiet (r : RequestPtr) : ReleaseChores r (Quiet (A := A)) :=
  ⟨quiet_refl, (quiet_freeBudget · r), (quiet_freeKvCache · r)⟩

/-- It does not see a placement. -/
theorem place_quiet (r : RequestPtr) : PlaceChores r (Quiet (A := A)) :=
  ⟨(quiet_routeRequest · r), (quiet_reserveBudget · r), (quiet_allocateFor · · r),
    (quiet_unreserveBudget · r), (quiet_commitBudget · r)⟩

end Allocator

/-! ## Contracts -/

/-- The contract of the decode thread. -/
def decodeContract (maxActive : Nat) : Contract (Scheduler A) where
  known _ := True
  rely s s' := (Life.Inv maxActive s.life → Life.Inv maxActive s'.life) ∧
    Life.Arrivals s.life s'.life
  guar s s' := Quiet s s' ∨ Life.DecodeStep maxActive s.life s'.life
  rely_refl s := ⟨id, Life.Arrivals.refl s.life⟩
  rely_trans h h' := ⟨h'.1 ∘ h.1, h.2.trans h'.2⟩

/-- The contract of the submit call of `r`. -/
def submitContract (maxActive : Nat) (r : RequestPtr) : Contract (Scheduler A) where
  known _ := True
  rely s s' := (Life.Inv maxActive s.life → Life.Inv maxActive s'.life) ∧
    Life.Untouched r s.life s'.life
  guar s s' := Quiet s s' ∨ Life.SubmitStep maxActive r s.life s'.life
  rely_refl s := ⟨id, Life.Untouched.refl r s.life⟩
  rely_trans h h' := ⟨h'.1 ∘ h.1, h.2.trans h'.2⟩

/-- The contract of a thread the lifecycle does not see. -/
def quietContract : Contract (Scheduler A) where
  known _ := True
  rely _ _ := True
  guar := Quiet
  rely_refl _ := trivial
  rely_trans _ _ := trivial

/-- Who keeps which contract. -/
def lifeContract (maxActive : Nat) : ThreadId → Contract (Scheduler A)
  | .decode => decodeContract maxActive
  | .submit r => submitContract maxActive r
  | _ => quietContract

/-- The view at the control points of the decode thread. -/
def decodePoint (maxActive : Nat) : Point → Life → Prop
  | .decodeEach rest, l => Life.Between maxActive rest l ∧ rest.Nodup
  | _, l => Life.Between maxActive [] l

/-- The view at the control points of every thread. -/
def lifePoint (maxActive : Nat) : ThreadId → Point → Scheduler A → Prop
  | .decode, l, s => decodePoint maxActive l s.life
  | .submit r, .start, s => Life.Unsubmitted maxActive r s.life
  | _, _, _ => True

section Decode

variable {maxActive : Nat} {r : RequestPtr} {rest : List RequestPtr}
  {st st' : RequestState} {onList : Bool} {P : Life → Prop}

/-- An assertion about the view that survives arrivals. -/
def Lasting (maxActive : Nat) (P : Life → Prop) : Prop :=
  (∀ l, P l → Life.Inv maxActive l) ∧
    ∀ l l', P l → Life.Inv maxActive l' → Life.Arrivals l l' → P l'

/-- Arrivals do not disturb the decode thread between two requests. -/
theorem lasting_between : Lasting maxActive (Life.Between maxActive rest) :=
  ⟨fun _ h => h.inv, fun _ _ h hinv ha => h.arrivals hinv ha⟩

/-- They do not disturb it while it holds a request. -/
theorem lasting_holding : Lasting maxActive (Life.Holding maxActive rest r st onList) :=
  ⟨fun _ h => h.inv, fun _ _ h hinv ha => h.arrivals hinv ha⟩

/-- They do not disturb it while it lets one go. -/
theorem lasting_leaving : Lasting maxActive (Life.Leaving maxActive rest r) :=
  ⟨fun _ h => h.inv, fun _ _ h hinv ha => h.arrivals hinv ha⟩

/-- What survives arrivals is stable for the decode thread. -/
theorem Lasting.stable (h : Lasting maxActive P) :
    Stable (decodeContract (A := A) maxActive) (fun s => P s.life) :=
  fun _ _ hs hrely _ => h.2 _ _ hs (hrely.1 (h.1 _ hs)) hrely.2

/-- A program that does not touch the view keeps what is asserted of it. -/
theorem Lasting.quiet {α : Type} (h : Lasting maxActive P) {p : Sched A α}
    (hp : p.Always Quiet) :
    Triple (decodeContract maxActive) (fun s => P s.life) p (fun _ s => P s.life) :=
  hp.triple h.stable (fun _ _ _ hq => Or.inl hq)
    (fun s s' hs hq => by rw [show s'.life = s.life from hq]; exact hs)

/-- An action that is one transition of the view. -/
theorem Lasting.update (h : Lasting maxActive P) {Q : Life → Prop}
    {f : Scheduler A → Scheduler A}
    (hf : ∀ s, P s.life →
      Life.DecodeStep maxActive s.life (f s).life ∧ Q (f s).life) :
    Triple (decodeContract maxActive) (fun s => P s.life)
      (Program.update f : Sched A Unit) (fun _ s => Q s.life) :=
  Triple.update h.stable (fun s hs _ _ => ⟨Or.inr (hf s hs).1, (hf s hs).2⟩)

/-- The gauge is not seen. -/
theorem gauge_quiet (f : Int → Int) :
    (Program.update (fun s => { s with requestsActive := f s.requestsActive }) :
      Sched A Unit).Always Quiet :=
  Always.update (fun _ => rfl)

/-- Nor is the call of the runtime. -/
theorem callPrefill_quiet (r : RequestPtr) :
    (callPrefill r : Sched A (Result Logits)).Always Quiet := by
  refine Always.atomic fun i s => ?_
  cases i.prefill with
  | error e => exact life_log s rfl
  | ok logits => exact quiet_refl s

/-! ### What the functions of the decode thread do -/

/-- A state change of the held request. -/
theorem setState_triple (hlegal : Legal st st') :
    Triple (decodeContract maxActive)
      (fun s : Scheduler A => Life.Holding maxActive rest r st onList s.life)
      (setState r st')
      (fun _ s => Life.Holding maxActive rest r st' onList s.life) :=
  lasting_holding.update fun s hs => by
    rw [life_setState]
    exact hs.setState hlegal

/-- Every action that rewrites the held request outside its state and id. -/
theorem modify_triple {f : Request → Request}
    (hstate : ∀ q, (f q).state = q.state)
    (hid : ∀ q, (f q).id = q.id) :
    Triple (decodeContract maxActive)
      (fun s : Scheduler A => Life.Holding maxActive rest r st onList s.life)
      (Program.update (fun s => s.modify r f) : Sched A Unit)
      (fun _ s => Life.Holding maxActive rest r st onList s.life) :=
  lasting_holding.quiet (Always.update fun s => quiet_modify s r hstate hid)

section Allocator

variable [IKVCacheAllocator A]

/-- Retiring a request takes it off the list and out of the registry. -/
theorem retire_triple (event : TokenEvent) (hterm : st.isTerminal) :
    Triple (decodeContract maxActive)
      (fun s : Scheduler A => Life.Holding maxActive rest r st onList s.life)
      (retire r event) (fun _ s => Life.Leaving maxActive rest r s.life) := by
  unfold retire
  refine Triple.bind (lasting_holding.quiet
    (Always.update (quiet_pushEvent · r event))) fun _ => ?_
  refine Triple.bind (lasting_holding.quiet
    (Always.update (quiet_closeQueue · r))) fun _ => ?_
  refine Triple.bind (lasting_holding.quiet (release_quiet r).freeResources) fun _ => ?_
  refine Triple.bind (lasting_holding.update fun s hs => hs.deactivate) fun _ => ?_
  refine Triple.bind (lasting_holding.update fun s hs => hs.unregister hterm) fun _ => ?_
  exact lasting_leaving.quiet (gauge_quiet (· - 1))

/-- A completed request is out of every container and counted. -/
theorem completeRequest_triple (reason : FinishReason) :
    Triple (decodeContract maxActive)
      (fun s : Scheduler A => Life.Holding maxActive rest r .decoding onList s.life)
      (completeRequest r reason)
      (fun _ s => Life.Between maxActive rest s.life) := by
  unfold completeRequest
  refine Triple.bind (modify_triple (fun _ => rfl) (fun _ => rfl)) fun _ => ?_
  refine Triple.bind (setState_triple .decodingCompleted) fun _ => ?_
  refine Triple.bind (retire_triple _ rfl) fun _ => ?_
  exact lasting_leaving.update fun s hs => by
    rw [life_countCompleted]
    exact hs.settle

/-- A failed request is out of every container and counted. -/
theorem failRequest_triple (error : Error) (hlegal : Legal st .errored) :
    Triple (decodeContract maxActive)
      (fun s : Scheduler A => Life.Holding maxActive rest r st onList s.life)
      (failRequest r error)
      (fun _ s => Life.Between maxActive rest s.life) := by
  unfold failRequest
  refine Triple.bind (modify_triple (fun _ => rfl) (fun _ => rfl)) fun _ => ?_
  refine Triple.bind (setState_triple hlegal) fun _ => ?_
  refine Triple.bind (retire_triple _ rfl) fun _ => ?_
  exact lasting_leaving.update fun s hs => by
    rw [life_countErrored]
    exact hs.settle

/-- Whether prefill succeeds or not, it leaves the request prefilling. -/
theorem runPrefill_triple :
    Triple (decodeContract maxActive)
      (fun s : Scheduler A => Life.Holding maxActive rest r .queued onList s.life)
      (runPrefill r)
      (fun _ s => Life.Holding maxActive rest r .prefilling onList s.life) := by
  unfold runPrefill
  refine Triple.bind (setState_triple .queuedPrefilling) fun _ => ?_
  refine Triple.bind (lasting_holding.quiet (gauge_quiet (· + 1))) fun _ => ?_
  refine Triple.bind (lasting_holding.quiet (place_quiet r).place) fun placed => ?_
  cases placed with
  | error e =>
      exact Triple.bind (lasting_holding.quiet (gauge_quiet (· - 1)))
        (fun _ => Triple.ret fun _ hs => hs)
  | ok _ =>
      refine Triple.bind (lasting_holding.quiet (callPrefill_quiet r)) fun result => ?_
      cases result with
      | error e =>
          refine Triple.bind (lasting_holding.quiet (release_quiet r).freeResources) fun _ => ?_
          exact Triple.bind (lasting_holding.quiet (gauge_quiet (· - 1)))
            (fun _ => Triple.ret fun _ hs => hs)
      | ok logits =>
          exact Triple.bind (modify_triple (fun _ => rfl) (fun _ => rfl)) (fun _ => Triple.ret fun _ hs => hs)

/-- A dequeued request ends up active or finished. -/
theorem startRequest_triple (d : SchedulerSetup) :
    Triple (decodeContract maxActive)
      (fun s : Scheduler A => Life.Holding maxActive [] r .queued false s.life)
      (startRequest d r) (fun _ s => Life.Between maxActive [] s.life) := by
  unfold startRequest
  refine Triple.bind (lasting_holding.quiet ((step_quiet r).clock _)) fun queueTimedOut => ?_
  cases queueTimedOut with
  | true => exact failRequest_triple _ .queuedErrored
  | false =>
      refine Triple.bind (lasting_holding.quiet ((step_quiet r).clock _)) fun requestTimedOut => ?_
      cases requestTimedOut with
      | true => exact failRequest_triple _ .queuedErrored
      | false =>
          refine Triple.bind runPrefill_triple fun result => ?_
          cases result with
          | error e => exact failRequest_triple e .prefillingErrored
          | ok _ =>
              refine Triple.bind (setState_triple .prefillingDecoding) fun _ => ?_
              refine Triple.bind (lasting_holding.quiet (Always.atomic fun i s => ?_))
                fun _ => ?_
              · dsimp only
                split
                · exact quiet_modify s r (fun _ => rfl) (fun _ => rfl)
                · exact quiet_refl s
              · exact lasting_holding.update fun s hs => by
                  rw [life_activate]
                  exact hs.activate

/-- A round of decoding leaves the request active or finishes it. -/
theorem decodeRequest_triple (d : SchedulerSetup) :
    Triple (decodeContract maxActive)
      (fun s : Scheduler A => Life.Holding maxActive rest r .decoding true s.life)
      (decodeRequest d r) (fun _ s => Life.Between maxActive rest s.life) := by
  unfold decodeRequest
  refine Triple.bind (lasting_holding.quiet ((step_quiet r).clock _)) fun cancelled => ?_
  cases cancelled with
  | true => exact completeRequest_triple .stop
  | false =>
      refine Triple.bind (lasting_holding.quiet ((step_quiet r).clock _)) fun requestTimedOut => ?_
      cases requestTimedOut with
      | true => exact failRequest_triple _ .decodingErrored
      | false =>
          refine Triple.bind (lasting_holding.quiet ((step_quiet r).clock _)) fun decodeTimedOut => ?_
          cases decodeTimedOut with
          | true => exact failRequest_triple _ .decodingErrored
          | false =>
              refine Triple.bind (lasting_holding.quiet ((step_quiet r).runDecodeStep d))
                fun result => ?_
              cases result with
              | error e => exact failRequest_triple e .decodingErrored
              | ok goesOn =>
                  cases goesOn with
                  | true => exact Triple.ret fun _ hs => hs.putBack
                  | false =>
                      exact Triple.bind (lasting_holding.quiet ((step_quiet r).clock _))
                        (fun reason => completeRequest_triple reason)

/-- Every body of the decode thread keeps the books. -/
theorem decodeLoop_triple (d : SchedulerSetup) (l : Point) :
    Triple (decodeContract d.config.maxActiveRequests)
      (fun s : Scheduler A => decodePoint d.config.maxActiveRequests l s.life)
      (decodeLoop d l)
      (fun l' s => decodePoint d.config.maxActiveRequests l' s.life) := by
  cases l with
  | start =>
      refine Triple.bind (lasting_between.quiet (Always.atomic fun _ _ => rfl))
        fun running => ?_
      cases running with
      | true => exact Triple.ret fun _ hs => hs
      | false => exact Triple.ret fun _ hs => hs
  | processQueue =>
      have hhead : Triple (decodeContract d.config.maxActiveRequests)
          (fun s : Scheduler A => Life.Between d.config.maxActiveRequests [] s.life)
          (Program.atomic fun _ s => s.dequeue d.config.maxActiveRequests : Sched A _)
          (fun taken s => taken.elim (Life.Between d.config.maxActiveRequests [] s.life)
            fun r => Life.Holding d.config.maxActiveRequests [] r .queued false s.life) := by
        refine Triple.atomic lasting_between.stable fun _ s hs _ _ => ?_
        obtain heq | ⟨r, rest, hpend, hroom, heq⟩ :=
          dequeue_cases s d.config.maxActiveRequests
        · rw [heq]
          exact ⟨Or.inl rfl, hs⟩
        · have hstep := hs.dequeue hpend hroom
          rw [← life_dequeue] at hstep
          rw [heq]
          exact ⟨Or.inr hstep.1, hstep.2⟩
      refine Triple.bind hhead fun taken => ?_
      cases taken with
      | none => exact Triple.ret fun _ hs => hs
      | some r =>
          exact Triple.bind (startRequest_triple d) (fun _ => Triple.ret fun _ hs => hs)
  | copyActive =>
      refine Triple.bind (Triple.read lasting_between.stable fun s => Or.inl rfl)
        fun active => ?_
      by_cases hempty : active.isEmpty
      · rw [if_pos hempty]
        exact Triple.ret fun _ hs => hs.1
      · rw [if_neg hempty]
        refine Triple.ret fun s hs => ?_
        obtain ⟨hbetween, rfl⟩ := hs
        exact ⟨⟨hbetween.inv, hbetween.book, fun _ hq => hq⟩,
          hbetween.inv.active_nodup⟩
  | decodeEach rest =>
      cases rest with
      | nil => exact Triple.ret fun _ hs => hs.1
      | cons r rest =>
          have hround : Triple (decodeContract d.config.maxActiveRequests)
              (fun s : Scheduler A => (r :: rest).Nodup ∧
                Life.Between d.config.maxActiveRequests (r :: rest) s.life)
              (decodeRequest d r)
              (fun _ s => rest.Nodup ∧
                Life.Between d.config.maxActiveRequests rest s.life) := by
            refine Triple.of_fact fun hnodup => ?_
            obtain ⟨hr, hrest⟩ := List.nodup_cons.mp hnodup
            exact (decodeRequest_triple d).conseq (fun _ hs => hs.select hr)
              (fun _ _ hs => ⟨hrest, hs⟩)
          exact Triple.bind (hround.pre fun _ hs => hs.symm)
            (fun _ => Triple.ret fun _ hs => hs.symm)
  | join => exact Triple.ret fun _ hs => hs
  | returned result => exact Triple.ret fun _ hs => hs

end Allocator

end Decode

section Submit

variable {maxActive : Nat} {r : RequestPtr} {st : RequestState}

/-- Nobody else registers a request. -/
theorem stable_unsubmitted :
    Stable (submitContract (A := A) maxActive r)
      (fun s => Life.Unsubmitted maxActive r s.life) :=
  fun _ _ hs hrely _ => hs.untouched (hrely.1 hs.inv) hrely.2

/-- Nobody else pushes it. -/
theorem stable_announced :
    Stable (submitContract (A := A) maxActive r)
      (fun s => Life.Announced maxActive r st s.life) :=
  fun _ _ hs hrely _ => hs.untouched (hrely.1 hs.inv) hrely.2

theorem stable_true {c : Contract (Scheduler A)} : Stable c (fun _ => True) :=
  fun _ _ _ _ _ => trivial

/-- A part of a submit call that does not touch the view. -/
theorem submit_quiet {α : Type} {P : Life → Prop}
    (h : Stable (submitContract (A := A) maxActive r) (fun s => P s.life))
    {p : Sched A α} (hp : p.Always Quiet) :
    Triple (submitContract maxActive r) (fun s => P s.life) p (fun _ s => P s.life) :=
  hp.triple h (fun _ _ _ hq => Or.inl hq)
    (fun s s' hs hq => by rw [show s'.life = s.life from hq]; exact hs)

/-- An action of a submit call that is a transition of the view. -/
theorem submit_update {P Q : Life → Prop}
    (h : Stable (submitContract (A := A) maxActive r) (fun s => P s.life))
    {f : Scheduler A → Scheduler A}
    (hf : ∀ s, P s.life →
      Life.SubmitStep maxActive r s.life (f s).life ∧ Q (f s).life) :
    Triple (submitContract maxActive r) (fun s => P s.life)
      (Program.update f : Sched A Unit) (fun _ s => Q s.life) :=
  Triple.update h (fun s hs _ _ => ⟨Or.inr (hf s hs).1, (hf s hs).2⟩)

/-- An admitted request is registered, queued and pushed. -/
theorem accept_triple (d : SchedulerSetup) :
    Triple (submitContract maxActive r)
      (fun s : Scheduler A => Life.Unsubmitted maxActive r s.life) (accept d r)
      (fun _ _ => True) := by
  unfold accept
  refine Triple.bind (submit_update (Q := Life.Announced maxActive r .received)
    stable_unsubmitted fun s hs => ?_) fun _ => ?_
  · rw [life_registryAdd]
    exact hs.register
  refine Triple.bind (submit_update (Q := Life.Announced maxActive r .queued)
    stable_announced fun s hs => ?_) fun _ => ?_
  · rw [life_setState]
    exact hs.setState .receivedQueued
  refine Triple.bind (submit_quiet stable_announced
    (Always.atomic fun _ s => ?_)) fun _ => ?_
  · dsimp only
    exact quiet_modify s r (fun _ => rfl) (fun _ => rfl)
  refine submit_update (Q := fun _ => True) stable_announced fun s hs => ?_
  rw [life_enqueue]
  exact ⟨hs.push, trivial⟩

variable [IKVCacheAllocator A]

/-- A submit call registers its request and then pushes it. -/
theorem submit_triple (d : SchedulerSetup) :
    Triple (submitContract maxActive r)
      (fun s : Scheduler A => Life.Unsubmitted maxActive r s.life) (submit d r)
      (fun _ _ => True) := by
  unfold submit
  refine Triple.bind (submit_quiet stable_unsubmitted (Always.read quiet_refl))
    fun running => ?_
  cases running with
  | false => exact Triple.ret fun _ _ => trivial
  | true =>
      refine Triple.bind (submit_quiet stable_unsubmitted (admitRequest_always quiet_refl d r))
        fun admitted => ?_
      cases admitted with
      | error e =>
          refine Triple.bind (submit_update (Q := fun _ => True) stable_unsubmitted
            fun s hs => ?_) fun _ => ?_
          · rw [life_setState]
            exact ⟨Life.submitStep_setState hs.inv hs.unpushed
              (hs.received ▸ .receivedRejected), trivial⟩
          · exact Triple.bind
              (Triple.update stable_true fun s _ _ _ =>
                ⟨Or.inl (quiet_modify s r (fun _ => rfl) (fun _ => rfl)), trivial⟩)
              (fun _ => Triple.ret fun _ hs => hs)
      | ok _ =>
          exact Triple.bind (accept_triple d) (fun _ => Triple.ret fun _ hs => hs)

end Submit

/-! ## Every interleaving -/

section Parallel

variable {maxActive : Nat} {s s' : Scheduler A}

/-- What is not seen may happen beside the decode thread. -/
theorem Quiet.decode_rely (h : Quiet s s') :
    (decodeContract maxActive).rely s s' := by
  have hlife : s'.life = s.life := h
  exact ⟨fun hinv => hlife ▸ hinv, hlife ▸ Life.Arrivals.refl s.life⟩

/-- What is not seen may happen beside a submit call. -/
theorem Quiet.submit_rely (h : Quiet s s') (r : RequestPtr) :
    (submitContract maxActive r).rely s s' := by
  have hlife : s'.life = s.life := h
  exact ⟨fun hinv => hlife ▸ hinv, hlife ▸ Life.Untouched.refl r s.life⟩

/-- The decode thread and every submit call but one's own only bring arrivals,
or leave a request alone that is not theirs. -/
theorem lifeContract_allows {t u : ThreadId} (htu : t ≠ u)
    (h : (lifeContract maxActive t).guar s s') :
    (lifeContract maxActive u).rely s s' := by
  cases u with
  | decode =>
      cases t with
      | decode => exact absurd rfl htu
      | submit r =>
          obtain hquiet | hstep := h
          · exact Quiet.decode_rely hquiet
          · exact ⟨fun _ => hstep.inv, hstep.arrivals⟩
      | cancel | disconnect | pop | stop => exact Quiet.decode_rely h
  | submit r =>
      cases t with
      | decode =>
          obtain hquiet | hstep := h
          · exact Quiet.submit_rely hquiet r
          · exact ⟨fun _ => hstep.inv, hstep.untouched r⟩
      | submit q =>
          obtain hquiet | hstep := h
          · exact Quiet.submit_rely hquiet r
          · exact ⟨fun _ => hstep.inv,
              hstep.untouched (fun hrq => htu (hrq ▸ rfl))⟩
      | cancel | disconnect | pop | stop => exact Quiet.submit_rely h r
  | cancel | disconnect | pop | stop => trivial

/-- What holds at the points of the decode thread survives arrivals. -/
theorem decodePoint_lasting (l : Point) : Lasting maxActive (decodePoint maxActive l) := by
  cases l with
  | decodeEach rest =>
      exact ⟨fun _ h => h.1.inv, fun _ _ h hinv ha => ⟨h.1.arrivals hinv ha, h.2⟩⟩
  | start | processQueue | copyActive | join | returned => exact lasting_between

/-- What holds at a control point is kept by the other threads. -/
theorem lifePoint_stable (t : ThreadId) (l : Point) :
    Stable (lifeContract (A := A) maxActive t) (lifePoint maxActive t l) := by
  cases t with
  | decode => exact (decodePoint_lasting l).stable
  | submit r =>
      cases l with
      | start => exact stable_unsubmitted
      | processQueue | copyActive | decodeEach | join | returned => exact stable_true
  | cancel | disconnect | pop | stop => exact stable_true

/-- A thread the lifecycle does not see keeps its contract. -/
theorem quiet_triple {α : Type} {p : Sched A α} (hp : p.Always Quiet) :
    Triple quietContract (fun _ => True) p (fun _ _ => True) :=
  hp.triple stable_true (fun _ _ _ h => h) (fun _ _ _ _ => trivial)

variable [IKVCacheAllocator A]

/-- Every body of every thread keeps its lifecycle contract. -/
theorem code_triple (d : SchedulerSetup) (t : ThreadId) (l : Point) :
    Triple (lifeContract d.config.maxActiveRequests t)
      (lifePoint (A := A) d.config.maxActiveRequests t l) (code d t l)
      (lifePoint d.config.maxActiveRequests t) := by
  cases t with
  | decode => exact decodeLoop_triple d l
  | submit r =>
      cases l with
      | start =>
          exact Triple.bind (submit_triple d) (fun _ => Triple.ret fun _ _ => trivial)
      | processQueue | copyActive | decodeEach | join | returned =>
          exact Triple.ret fun _ _ => trivial
  | cancel | disconnect | pop | stop =>
      exact quiet_triple (others_always http_quiet d (by simp) (by simp) (fun _ _ => rfl) l)

/-- So the threads fit together. -/
theorem life_compatible (d : SchedulerSetup) :
    Compatible (code (A := A) d) (lifeContract d.config.maxActiveRequests)
      (lifePoint d.config.maxActiveRequests) :=
  ⟨fun htu _ _ h => lifeContract_allows htu h, lifePoint_stable, code_triple d⟩

end Parallel

/-- The `Request` objects a scheduler is given: not yet submitted, with
pairwise distinct ids. -/
structure Fresh (requests : RequestPtr → Request) : Prop where
  ids : Function.Injective (fun r => (requests r).id)
  received : ∀ r, (requests r).state = .received

section Runs

variable {a : A} {g : Option GPURouter} {requests : RequestPtr → Request}

/-- The lifecycle of a new scheduler. -/
theorem life_inv_create (maxActive : Nat) (h : Fresh requests) :
    Life.Inv maxActive (create a g requests).life := by
  constructor
  · exact h.ids
  all_goals simp [life, create, registered, pushed, dequeued]

/-- Its books are exact. -/
theorem between_create (maxActive : Nat) (h : Fresh requests) :
    Life.Between maxActive [] (create a g requests).life := by
  refine ⟨life_inv_create maxActive h, ?_, by simp⟩
  constructor
  all_goals simp [life, create, dequeued]

variable [IKVCacheAllocator A] (d : SchedulerSetup)

/-- Every thread of a server keeps its lifecycle contract. -/
theorem life_sound (h : Fresh requests) (schedule : List (ThreadId × Answer)) :
    Sound (lifeContract d.config.maxActiveRequests)
      (lifePoint d.config.maxActiveRequests)
      ((System.initial (create a g requests)).run (code d) schedule) := by
  refine Pool.run_sound (life_compatible d) (fun t => ?_) schedule
    (fun _ _ t => by cases t <;> trivial)
  show lifePoint _ t .start (create a g requests)
  cases t with
  | decode => exact between_create _ h
  | submit r =>
      exact ⟨life_inv_create _ h, by simp [life, create, registered], h.received r⟩
  | cancel | disconnect | pop | stop => trivial

/-- What every action of every thread does to the view. -/
theorem life_step (h : Fresh requests) (schedule : List (ThreadId × Answer))
    (t : ThreadId) (i : Answer) :
    let w := (System.initial (create a g requests)).run (code d) schedule
    Quiet w.state (w.step (code d) t i).state ∨
      Life.DecodeStep d.config.maxActiveRequests w.state.life
        (w.step (code d) t i).state.life ∨
      ∃ r, Life.SubmitStep d.config.maxActiveRequests r w.state.life
        (w.step (code d) t i).state.life := by
  intro w
  have hknown : ∀ s : Scheduler A, Known (lifeContract d.config.maxActiveRequests) s :=
    fun _ t => by cases t <;> trivial
  obtain ⟨-, hsame | hguar⟩ := Pool.step_sound (t := t) (i := i) (life_compatible d)
    (life_sound d h schedule) (hknown _) (hknown _)
  · exact Or.inl (by rw [Quiet, hsame])
  · cases t with
    | decode => exact hguar.imp id Or.inl
    | submit r => exact hguar.imp id (fun hstep => Or.inr ⟨r, hstep⟩)
    | cancel | disconnect | pop | stop => exact Or.inl hguar

/-- Other threads than the decode thread only bring arrivals. -/
theorem life_arrivals (h : Fresh requests) (schedule : List (ThreadId × Answer))
    {t : ThreadId} (ht : t ≠ .decode) (i : Answer) :
    let w := (System.initial (create a g requests)).run (code d) schedule
    Life.Arrivals w.state.life (w.step (code d) t i).state.life := by
  intro w
  have hknown : ∀ s : Scheduler A, Known (lifeContract d.config.maxActiveRequests) s :=
    fun _ t => by cases t <;> trivial
  obtain ⟨-, hsame | hguar⟩ := Pool.step_sound (t := t) (i := i) (life_compatible d)
    (life_sound d h schedule) (hknown _) (hknown _)
  · rw [hsame]
    exact Life.Arrivals.refl _
  · exact (lifeContract_allows (u := .decode) ht hguar).2

/-- The invariant of the view holds in every reachable state. -/
theorem life_inv (h : Fresh requests) (schedule : List (ThreadId × Answer)) :
    Life.Inv d.config.maxActiveRequests
      ((System.initial (create a g requests)).run (code d) schedule).state.life := by
  induction schedule using List.reverseRecOn with
  | nil => exact life_inv_create _ h
  | append_singleton rest e ih =>
      rw [Pool.run_concat]
      obtain hquiet | hstep | ⟨r, hstep⟩ := life_step (a := a) (g := g) d h rest e.1 e.2
      · rw [Quiet] at hquiet
        rw [hquiet]
        exact ih
      · exact hstep.inv
      · exact hstep.inv

end Runs

/-- The decode thread is at the head of `decode_loop`. -/
def AtHead (w : System A) : Prop := w.threads .decode = .ret .start

instance (w : System A) : Decidable (AtHead w) :=
  decidable_of_iff ((w.threads .decode).isAt .start = true) isAt_iff

/-- Requests that are alike but for their ids. -/
def numbered (q : Request) (r : RequestPtr) : Request :=
  { q with id := String.ofList (List.replicate r 'r') }

/-- They have different ids. -/
theorem numbered_fresh {q : Request} (h : q.state = .received) : Fresh (numbered q) where
  ids r r' heq := by
    have hlist : List.replicate r 'r' = List.replicate r' 'r' := String.ofList_injective heq
    simpa using congrArg List.length hlist
  received _ := h

/-- What holds of the queue, the active list, the registry and the counters
between two rounds of the decode loop. -/
structure LifecycleInvariant (maxActive : Nat) (s : Scheduler A) : Prop where
  /-- a pushed request waits, is active or has ended, and only one of these -/
  placed : ∀ r ∈ s.pushed,
    (r ∈ s.pendingQueue ∧ r ∉ s.activeRequests ∧ ¬(s.requests r).isTerminal) ∨
    (r ∉ s.pendingQueue ∧ r ∈ s.activeRequests ∧ ¬(s.requests r).isTerminal) ∨
    (r ∉ s.pendingQueue ∧ r ∉ s.activeRequests ∧ (s.requests r).isTerminal)
  pushed_nodup : s.pushed.Nodup
  pending_nodup : s.pendingQueue.Nodup
  pending_pushed : ∀ r ∈ s.pendingQueue, r ∈ s.pushed
  active_nodup : s.activeRequests.Nodup
  active_pushed : ∀ r ∈ s.activeRequests, r ∈ s.pushed
  bounded : s.activeRequests.length ≤ maxActive
  count : s.completedCount + s.erroredCount + s.pendingQueue.length +
    s.activeRequests.length = s.pushed.length
  /-- the registry holds the requests that are pushed and not terminal, and
  those between `registry_.add` and the push -/
  registry : ∀ k r, s.registry.lookup k = some r ↔
    k = (s.requests r).id ∧
      ((r ∈ s.pushed ∧ ¬(s.requests r).isTerminal) ∨
        (r ∈ s.registered ∧ r ∉ s.pushed))
  fifo : s.pushed = s.dequeued ++ s.pendingQueue

section Between

variable {maxActive : Nat} {s : Scheduler A} {r : RequestPtr}

/-- What waits has not ended. -/
theorem waiting_not_terminal (h : Life.Between maxActive [] s.life)
    (hr : r ∈ s.pendingQueue) : ¬(s.requests r).isTerminal := by
  have hstate : (s.requests r).state = .queued := (h.book.waiting r hr).1
  simp [Request.isTerminal, hstate, RequestState.isTerminal]

/-- What is active has not ended. -/
theorem active_not_terminal (h : Life.Between maxActive [] s.life)
    (hr : r ∈ s.activeRequests) : ¬(s.requests r).isTerminal := by
  have hstate : (s.requests r).state = .decoding := (h.book.running r hr (by simp)).1
  simp [Request.isTerminal, hstate, RequestState.isTerminal]

/-- A pushed request that does not wait was dequeued. -/
theorem dequeued_of_pushed (h : Life.Between maxActive [] s.life) (hr : r ∈ s.pushed)
    (hpend : r ∉ s.pendingQueue) : r ∈ s.life.dequeued := by
  have hfifo : s.pushed = s.dequeued ++ s.pendingQueue := h.inv.fifo
  rw [hfifo] at hr
  exact (List.mem_append.mp hr).resolve_right hpend

/-- Between two rounds a pushed request is in one of three places. -/
theorem between_placed (h : Life.Between maxActive [] s.life) (hr : r ∈ s.pushed) :
    (r ∈ s.pendingQueue ∧ r ∉ s.activeRequests ∧ ¬(s.requests r).isTerminal) ∨
    (r ∉ s.pendingQueue ∧ r ∈ s.activeRequests ∧ ¬(s.requests r).isTerminal) ∨
    (r ∉ s.pendingQueue ∧ r ∉ s.activeRequests ∧ (s.requests r).isTerminal) := by
  by_cases hpend : r ∈ s.pendingQueue
  · exact Or.inl ⟨hpend, h.inv.not_active_of_pending hpend,
      waiting_not_terminal h hpend⟩
  by_cases hact : r ∈ s.activeRequests
  · exact Or.inr (Or.inl ⟨hpend, hact, active_not_terminal h hact⟩)
  · have hdeq := dequeued_of_pushed h hr hpend
    exact Or.inr (Or.inr ⟨hpend, hact, (h.book.gone r hdeq hact (by simp)).1⟩)

/-- Between two rounds the registry holds the requests that are under way. -/
theorem between_registry (h : Life.Between maxActive [] s.life) (k : String) :
    s.registry.lookup k = some r ↔
      k = (s.requests r).id ∧
        ((r ∈ s.pushed ∧ ¬(s.requests r).isTerminal) ∨
          (r ∈ s.registered ∧ r ∉ s.pushed)) := by
  constructor
  · intro hlookup
    obtain ⟨rfl, hreg⟩ := h.inv.keys k r hlookup
    refine ⟨rfl, ?_⟩
    by_cases hpushed : r ∈ s.pushed
    · left
      refine ⟨hpushed, ?_⟩
      obtain ⟨-, -, hterm⟩ | ⟨-, -, hterm⟩ | ⟨hpend, hact, -⟩ := between_placed h hpushed
      · exact hterm
      · exact hterm
      · have hdeq := dequeued_of_pushed h hpushed hpend
        have hsome : s.life.entry r = some r := hlookup
        rw [(h.book.gone r hdeq hact (by simp)).2] at hsome
        cases hsome
    · exact Or.inr ⟨hreg, hpushed⟩
  · rintro ⟨rfl, ⟨hpushed, hterm⟩ | ⟨hreg, hpushed⟩⟩
    · obtain ⟨hpend, -, -⟩ | ⟨-, hact, -⟩ | ⟨-, -, hgone⟩ := between_placed h hpushed
      · exact (h.book.waiting r hpend).2
      · exact (h.book.running r hact (by simp)).2
      · exact absurd hgone hterm
    · exact h.inv.announced r hreg hpushed

/-- Exact books are what the lifecycle invariant says. -/
theorem between_invariant (h : Life.Between maxActive [] s.life) :
    LifecycleInvariant maxActive s := by
  have hfifo : s.pushed = s.dequeued ++ s.pendingQueue := h.inv.fifo
  have hnodup : s.pushed.Nodup := h.inv.pushed_nodup
  refine ⟨fun r hr => between_placed h hr, hnodup, ?_,
    fun r hr => h.inv.pushed_of_pending hr, h.inv.active_nodup,
    fun r hr => h.inv.pushed_of_dequeued (h.inv.active_dequeued r hr),
    h.inv.active_le, ?_, fun k r => between_registry h k, hfifo⟩
  · rw [hfifo] at hnodup
    exact hnodup.of_append_right
  · have hcount : s.completedCount + s.erroredCount + s.activeRequests.length =
        s.dequeued.length := h.book.count_none
    rw [hfifo, List.length_append]
    omega

end Between

section Claims

variable [IKVCacheAllocator A]

/-- **Lifecycle.**  In every interleaving of submit calls, cancellations, a
`stop` and the decode thread, the lifecycle invariant holds whenever the decode
thread is at the head of its loop, and every state change of a request is a
legal one. -/
theorem lifecycle_invariant (d : SchedulerSetup) (a : A) (g : Option GPURouter)
    {requests : RequestPtr → Request} (h : Fresh requests)
    (schedule : List (ThreadId × Answer)) :
    let w := (System.initial (create a g requests)).run (code d) schedule
    (AtHead w → LifecycleInvariant d.config.maxActiveRequests w.state) ∧
      ∀ t i r, ((w.step (code d) t i).state.requests r).state = (w.state.requests r).state ∨
        Legal (w.state.requests r).state ((w.step (code d) t i).state.requests r).state := by
  intro w
  constructor
  · intro hhead
    exact between_invariant ((life_sound (a := a) (g := g) d h schedule).at_point hhead)
  · intro t i r
    obtain hquiet | hstep | ⟨q, hstep⟩ := life_step (a := a) (g := g) d h schedule t i
    · left
      exact congrFun (congrArg Life.state hquiet) r
    · exact hstep.legal r
    · exact hstep.legal r

end Claims

/-- A scheduler whose tokenizer renders every token as one `x`. -/
def sampleSetup : SchedulerSetup where
  config := {}
  tokenizer := { decodeToken := fun _ => .ok [120], eosTokenId := -1, imEndId := -1 }

/-- A thread moves `n` times, with the same answer each time. -/
def moves (n : Nat) (t : ThreadId) (i : Answer) : List (ThreadId × Answer) :=
  List.replicate n (t, i)

/-- The first request is submitted, then the decode thread moves `n` times. -/
def firstSubmitted (n : Nat) (i : Answer) : List (ThreadId × Answer) :=
  moves 9 (.submit 0) i ++ moves n .decode i

/-- The allocator of a server with two GPUs of 1 TiB. -/
def sampleContiguous : ContiguousKVAllocator where
  config := KVAllocatorConfig.adopted { maxTotalMemory := 2 ^ 40, deviceIds := [0, 1] }
  deviceStats :=
    ((∅ : AList (fun _ : Int => MemoryStats)).insert 0
      { totalBytes := 2 ^ 40, freeBytes := 2 ^ 40 }).insert 1
      { totalBytes := 2 ^ 40, freeBytes := 2 ^ 40 }

/-- Its router, which goes tensor-parallel above `threshold` tokens. -/
def sampleRouter (threshold : Nat) : GPURouter :=
  ({ deviceManager := { devices := [0, 1], contextThresholdForTp := threshold } } :
    GPURouter).initializeBudgets (2 ^ 40)

/-- One prompt token, two tokens to generate. -/
def shortRequest : Request := { id := "", inputTokens := [1], maxTokens := 2 }

/-- What the runtime answers when it cannot prefill a request. -/
def prefillFails : Answer := { prefill := .error (.internal "prefill failed") }

/-- Four requests are submitted.  The decode thread completes the first, fails
to prefill the second and takes up the third. -/
def mixedSchedule : List (ThreadId × Answer) :=
  moves 9 (.submit 0) {} ++ moves 9 (.submit 1) {} ++ moves 9 (.submit 2) {} ++
    moves 9 (.submit 3) {} ++ moves 64 .decode {} ++ moves 17 .decode prefillFails ++
    moves 40 .decode {}

/-- A server that serves one request at a time. -/
def singleSetup : SchedulerSetup := { sampleSetup with config := { maxActiveRequests := 1 } }

/-- It runs with requests in the queue, in the active list and at their ends. -/
def mixedRun : System ContiguousKVAllocator :=
  (System.initial (create sampleContiguous (some (sampleRouter 20000))
    (numbered shortRequest))).run (code singleSetup) mixedSchedule

/-- Two of the four have ended, one is active, one waits. -/
theorem lifecycle_invariant_sample :
    let s := mixedRun.state
    s.pushed = [0, 1, 2, 3] ∧ s.pendingQueue = [3] ∧ s.activeRequests = [2] ∧
      (s.requests 0).state = .completed ∧ (s.requests 1).state = .errored ∧
      (s.requests 2).state = .decoding ∧ (s.requests 3).state = .queued ∧
      s.completedCount = 1 ∧ s.erroredCount = 1 ∧ LifecycleInvariant 1 s ∧
      ∀ t i r, ((mixedRun.step (code singleSetup) t i).state.requests r).state =
          (s.requests r).state ∨
        Legal (s.requests r).state
          ((mixedRun.step (code singleSetup) t i).state.requests r).state := by
  have hfresh : Fresh (numbered shortRequest) := numbered_fresh rfl
  have hhead : AtHead mixedRun := by decide +kernel
  have hrun := lifecycle_invariant singleSetup sampleContiguous (some (sampleRouter 20000))
    hfresh mixedSchedule
  have hhere : LifecycleInvariant 1 mixedRun.state := hrun.1 hhead
  refine ⟨by decide +kernel, by decide +kernel, by decide +kernel, by decide +kernel,
    by decide +kernel, by decide +kernel, by decide +kernel, by decide +kernel,
    by decide +kernel, hhere, ?_⟩
  unfold mixedRun
  exact hrun.2

end Scheduler

end Qwen
