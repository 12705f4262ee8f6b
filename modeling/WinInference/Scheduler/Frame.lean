import WinInference.Scheduler.Generation

/-!
# The view of a request under the actions of the scheduler

`view` connects scheduler states to the views of `Generation`.  An action on
the request itself is a step on its view; an action on another request does not
show in it, whichever program it comes from.

`Elsewhere` is an action that leaves the view of a request alone, and `Confined`
one that may touch the view of a single request only.  `modify_elsewhere` and
`log_elsewhere` are the two ways to be elsewhere; `chores_confined` says that
all actions of the decode thread are confined to the request they serve, so a
triple on one request needs no word about the others.
-/

namespace Qwen

open Concurrency Concurrency.Program

/-- What the HTTP thread put into a request before it submitted it. -/
def Request.input (q : Request) : List Int × Int × List Bytes :=
  (q.inputTokens, q.maxTokens, q.stopSequences)

namespace Scheduler

variable {A : Type} [IKVCacheAllocator A]

/-- A request as the decode thread leaves it. -/
def view (s : Scheduler A) (r : RequestPtr) : View where
  request := (s.requests r).core
  delivered := s.delivered r
  queue := s.queueStatus r
  history := s.ownTrace.filter (·.subject = r)
  active := r ∈ s.activeRequests
  decoding := (s.requests r).state = .decoding
  isOver := (s.requests r).state.isOver
  routes := s.gpuRouter.isSome
  home := (IKVCacheAllocator.config s.kvAllocator).deviceId

section Views

variable {s s' : Scheduler A} {q r : RequestPtr}

/-- What the view of a request depends on. -/
theorem view_congr (hrequest : s'.requests q = s.requests q)
    (htrace : s'.trace.filter (·.subject = q) = s.trace.filter (·.subject = q))
    (hactive : q ∈ s'.activeRequests ↔ q ∈ s.activeRequests)
    (hrouter : s'.gpuRouter.isSome = s.gpuRouter.isSome)
    (hhome : IKVCacheAllocator.config s'.kvAllocator = IKVCacheAllocator.config s.kvAllocator) :
    s'.view q = s.view q := by
  have hown : s'.ownTrace.filter (·.subject = q) = s.ownTrace.filter (·.subject = q) := by
    rw [ownTrace, ownTrace, List.filter_comm, htrace, List.filter_comm]
  have hdelivered : s'.delivered q = s.delivered q := by
    have hpopped : ∀ l : List Event, l.filterMap (Event.poppedOff q) =
        (l.filter (·.subject = q)).filterMap (Event.poppedOff q) := by
      intro l
      rw [List.filterMap_filter]
      refine List.filterMap_congr fun e _ => ?_
      cases e with
      | popped p event => by_cases hp : p = q <;> simp [Event.subject, Event.poppedOff, hp]
      | _ => exact (ite_self none).symm
    rw [delivered, delivered, hpopped s'.trace, hpopped s.trace, htrace, hrequest]
  simp only [view, hrequest, hown, hdelivered, queueStatus, hactive, hrouter, hhome]

/-- Other threads leave the view alone, or at most take the request out of a
state the decode thread put it into. -/
theorem Interference.view (h : Interference s s') (r : RequestPtr) :
    s'.view r = s.view r ∨ s'.view r = (s.view r).calm := by
  have hsame : s'.view r = { s.view r with
      decoding := (s'.view r).decoding, isOver := (s'.view r).isOver } := by
    simp only [Scheduler.view, h.core r, h.delivered r, h.queueStatus r, h.ownTrace,
      h.activeRequests, h.gpuRouter, h.kvAllocator]
  cases hlate : (s'.requests r).state.late with
  | true =>
      have hstate := h.late r hlate
      left
      rw [hsame]
      simp only [Scheduler.view, hstate]
  | false =>
      right
      rw [hsame]
      cases hstate : (s'.requests r).state <;>
        simp [hstate, RequestState.late, RequestState.isOver, Scheduler.view, View.calm] at hlate ⊢

/-- The action does not show in the view of `q`. -/
def Elsewhere (q : RequestPtr) (s s' : Scheduler A) : Prop := s'.view q = s.view q

/-- No step is a step elsewhere. -/
theorem Elsewhere.refl (q : RequestPtr) (s : Scheduler A) : Elsewhere q s s := rfl

/-- Rewriting another request is elsewhere. -/
theorem modify_elsewhere (hq : q ≠ r) (s : Scheduler A) (f : Request → Request) :
    Elsewhere q s (s.modify r f) :=
  view_congr (requests_modify_of_ne s f hq) rfl Iff.rfl rfl rfl

/-- So is an event about another request. -/
theorem log_elsewhere {e : Event} (he : e.subject ≠ q) (s : Scheduler A) :
    Elsewhere q s (s.log e) :=
  view_congr rfl (by simp [log, he]) Iff.rfl rfl rfl

/-- A rewrite of fields that only the decode thread writes. -/
theorem view_modify (s : Scheduler A) (r : RequestPtr) {f : Request → Request}
    (hcore : ∀ q, (f q).core = f q.core) (hqueue : ∀ q, (f q).tokenQueue = q.tokenQueue)
    (hstate : ∀ q, (f q).state = q.state) : (s.modify r f).view r = (s.view r).edit f := by
  simp only [view, View.edit, requests_modify_self, hcore, hstate, delivered, queueStatus,
    hqueue]
  rfl

/-- An event about the request goes into its view. -/
theorem view_log (s : Scheduler A) {e : Event} (he : e.subject = r) (hown : e.byDecode) :
    (s.log e).view r = (s.view r).record e := by
  subst he
  have hdelivered : (s.log e).delivered e.subject = s.delivered e.subject := by
    cases e with
    | popped => cases hown
    | _ => simp [delivered, log, Event.poppedOff]
  have hhistory : (s.log e).ownTrace.filter (·.subject = e.subject) =
      s.ownTrace.filter (·.subject = e.subject) ++ [e] := by
    simp [ownTrace, log, hown]
  simp only [view, View.record, hdelivered, hhistory]
  rfl

/-- A change of state shows in the state of the view. -/
theorem view_setState (s : Scheduler A) (r : RequestPtr) (st : RequestState) :
    (s.modify r (fun q => { q with state := st })).view r =
      { s.view r with
        decoding := st = .decoding
        isOver := st.isOver } := by
  simp only [view, requests_modify_self, delivered, queueStatus]
  rfl

/-- A push shows in the queue of the view. -/
theorem view_pushEvent (s : Scheduler A) (r : RequestPtr) (event : TokenEvent) :
    View.Pushed event (s.view r) ((s.pushEvent r event).view r) := by
  have hkept : (s.pushEvent r event).view r = { s.view r with
      delivered := ((s.pushEvent r event).view r).delivered
      queue := ((s.pushEvent r event).view r).queue } := by
    simp only [view, pushEvent, requests_modify_self]
    rfl
  cases hqueue : (s.requests r).tokenQueue with
  | none =>
      have hnone : (s.view r).queue = none := by simp [view, queueStatus, hqueue]
      have heq : (s.pushEvent r event).view r = s.view r := by
        rw [hkept]
        simp [view, pushEvent, delivered, queueStatus, hqueue, modify]
      rw [heq]
      exact .ignored (by simp [hnone])
  | some t =>
      have hsome : (s.view r).queue = some (t.closed, t.droppedCount) := by
        simp [view, queueStatus, hqueue]
      by_cases hclosed : t.closed
      · have heq : (s.pushEvent r event).view r = s.view r := by
          rw [hkept]
          simp [view, pushEvent, delivered, queueStatus, hqueue, modify, TokenQueue.push, hclosed]
        rw [heq]
        refine .ignored fun closed dropped hq => ?_
        rw [hsome] at hq
        obtain ⟨rfl, -⟩ := Prod.mk.inj (Option.some.inj hq)
        exact hclosed
      · have hopen : t.closed = false := by simpa using hclosed
        rw [hopen] at hsome
        by_cases hfull : t.events.length ≥ t.maxSize
        · have heq : (s.pushEvent r event).view r =
              { s.view r with queue := some (false, t.droppedCount + 1) } := by
            rw [hkept]
            simp [view, pushEvent, delivered, queueStatus, hqueue, modify, TokenQueue.push, hopen,
              hfull]
          rw [heq]
          exact .dropped t.droppedCount hsome
        · have heq : (s.pushEvent r event).view r =
              { s.view r with delivered := (s.view r).delivered ++ [event] } := by
            rw [hkept]
            simp [view, pushEvent, delivered, queueStatus, hqueue, modify, TokenQueue.push, hopen,
              hfull]
          rw [heq]
          exact .delivered t.droppedCount hsome

/-- So does its close. -/
theorem view_closeQueue (s : Scheduler A) (r : RequestPtr) :
    (s.closeQueue r).view r =
      { s.view r with queue := (s.view r).queue.map (fun q => (true, q.2)) } := by
  have hkept : (s.closeQueue r).view r = { s.view r with
      delivered := ((s.closeQueue r).view r).delivered
      queue := ((s.closeQueue r).view r).queue } := by
    simp only [view, closeQueue, requests_modify_self]
    rfl
  rw [hkept]
  cases hqueue : (s.requests r).tokenQueue <;>
    simp [view, closeQueue, delivered, queueStatus, hqueue, modify, TokenQueue.close]

end Views

/-! ## Actions on other requests -/

section Others

variable {q r : RequestPtr}

/-- Counters, the registry: no view shows them. -/
theorem elsewhere_of_eq {s s' : Scheduler A} (hrequests : s'.requests = s.requests)
    (htrace : s'.trace = s.trace) (hactive : s'.activeRequests = s.activeRequests)
    (hrouter : s'.gpuRouter.isSome = s.gpuRouter.isSome)
    (hhome : IKVCacheAllocator.config s'.kvAllocator = IKVCacheAllocator.config s.kvAllocator) :
    Elsewhere q s s' :=
  view_congr (by rw [hrequests]) (by rw [htrace]) (by rw [hactive]) hrouter hhome

/-- The gauge is no part of any view. -/
theorem gauge_elsewhere (f : Int → Int) :
    (Program.update (fun s => { s with requestsActive := f s.requestsActive }) :
      Sched A Unit).Always (Elsewhere q) :=
  Always.update fun _ => elsewhere_of_eq rfl rfl rfl rfl rfl

/-- Looking at the clock changes nothing. -/
theorem clock_elsewhere {α : Type} (f : Answer → Scheduler A → α) :
    (Program.atomic (fun i s => (f i s, s)) : Sched A α).Always (Elsewhere q) :=
  Always.atomic fun _ => Elsewhere.refl q

/-- Nor does any other look. -/
theorem read_elsewhere {α : Type} (f : Scheduler A → α) :
    (Program.read f : Sched A α).Always (Elsewhere q) :=
  Always.read (Elsewhere.refl q)

/-- Steps elsewhere can be chained. -/
theorem Elsewhere.trans {s s' s'' : Scheduler A} (h : Elsewhere q s s')
    (h' : Elsewhere q s' s'') : Elsewhere q s s'' :=
  Eq.trans h' h

/-- The action is confined to `r`: no other request changes, and the input of
`r` stays as it is. -/
structure Confined (r : RequestPtr) (s s' : Scheduler A) : Prop where
  others : ∀ q, q ≠ r → Elsewhere q s s'
  input : (s'.requests r).input = (s.requests r).input

/-- No step is confined to the request. -/
theorem Confined.refl (r : RequestPtr) (s : Scheduler A) : Confined r s s :=
  ⟨fun q _ => Elsewhere.refl q s, rfl⟩

/-- Steps confined to a request can be chained. -/
theorem Confined.trans {s s' s'' : Scheduler A} (h : Confined r s s') (h' : Confined r s' s'') :
    Confined r s s'' :=
  ⟨fun q hq => (h.others q hq).trans (h'.others q hq), h'.input.trans h.input⟩

/-- What shows in no view. -/
theorem confined_of_eq {s s' : Scheduler A} (hrequests : s'.requests = s.requests)
    (htrace : s'.trace = s.trace) (hactive : s'.activeRequests = s.activeRequests)
    (hrouter : s'.gpuRouter.isSome = s.gpuRouter.isSome)
    (hhome : IKVCacheAllocator.config s'.kvAllocator = IKVCacheAllocator.config s.kvAllocator) :
    Confined r s s' :=
  ⟨fun _ _ => elsewhere_of_eq hrequests htrace hactive hrouter hhome, by rw [hrequests]⟩

/-- Rewriting a request is confined to it. -/
theorem modify_confined (s : Scheduler A) (r : RequestPtr) (f : Request → Request)
    (hf : ∀ q, (f q).input = q.input) : Confined r s (s.modify r f) :=
  ⟨fun _ hq => modify_elsewhere hq s f, by rw [requests_modify_self, hf]⟩

/-- So is recording an event about it. -/
theorem log_confined {s : Scheduler A} {e : Event} (he : e.subject = r) :
    Confined r s (s.log e) :=
  ⟨fun _ hq => log_elsewhere (by rw [he]; exact Ne.symm hq) s, rfl⟩

/-- Routing writes the devices of the request and the round-robin counter. -/
theorem routeRequest_confined (s : Scheduler A) (r : RequestPtr) :
    Confined r s (s.routeRequest r).2 := by
  cases hrouter : s.gpuRouter with
  | none =>
      rw [routeRequest_none hrouter]
      exact Confined.refl r s
  | some g =>
      rw [routeRequest_some hrouter]
      have hrerouted : Confined r s { s with
          gpuRouter := some (g.route (s.requests r).contextLength).2 } :=
        confined_of_eq rfl rfl rfl (by rw [hrouter]; rfl) rfl
      refine (hrerouted.trans (modify_confined _ r _ ?_)).trans (log_confined rfl)
      exact fun _ => rfl

/-- The router moves bytes for `r`, and the history may tell. -/
inductive BudgetMove (r : RequestPtr) (s : Scheduler A) : Scheduler A → Prop where
  | idle : BudgetMove r s s
  | silent (g' : GPURouter) (h : s.gpuRouter.isSome) :
      BudgetMove r s { s with gpuRouter := some g' }
  | logged (g' : GPURouter) (e : Event) (h : s.gpuRouter.isSome) (he : e.subject = r)
      (hown : e.byDecode) (hcall : ∀ r input pos, e ≠ .decodeCalled r input pos)
      (hroute : ∀ r n g, e ≠ .routed r n g) :
      BudgetMove r s ({ s with gpuRouter := some g' }.log e)

omit [IKVCacheAllocator A] in
/-- A reservation moves the router's books and records it. -/
theorem reserveBudget_move (s : Scheduler A) (r : RequestPtr)
    (decision : Option RoutingDecision) : BudgetMove r s (s.reserveBudget r decision) := by
  unfold reserveBudget
  split
  next g decision hrouter =>
    exact .logged _ _ (by rw [hrouter]; rfl) rfl rfl (by simp) (by simp)
  next => exact .idle

omit [IKVCacheAllocator A] in
/-- So does taking it back. -/
theorem unreserveBudget_move (s : Scheduler A) (r : RequestPtr)
    (decision : Option RoutingDecision) : BudgetMove r s (s.unreserveBudget r decision) := by
  unfold unreserveBudget
  split
  next g decision hrouter => exact .silent _ (by rw [hrouter]; rfl)
  next => exact .idle

omit [IKVCacheAllocator A] in
/-- So does its commit. -/
theorem commitBudget_move (s : Scheduler A) (r : RequestPtr)
    (decision : Option RoutingDecision) : BudgetMove r s (s.commitBudget r decision) := by
  unfold commitBudget
  split
  next g decision hrouter =>
    exact .logged _ _ (by rw [hrouter]; rfl) rfl rfl (by simp) (by simp)
  next => exact .idle

omit [IKVCacheAllocator A] in
/-- So does giving a budget back. -/
theorem freeBudget_move (s : Scheduler A) (r : RequestPtr) : BudgetMove r s (s.freeBudget r) := by
  obtain ⟨heq, -⟩ | ⟨g, hrouter, -, heq⟩ := freeBudget_cases s r
  · rw [heq]
    exact .idle
  · rw [heq]
    exact .logged _ _ (by rw [hrouter]; rfl) rfl rfl (by simp) (by simp)

/-- Another router in place of one is elsewhere. -/
theorem reroute_elsewhere {s : Scheduler A} (h : s.gpuRouter.isSome) (g' : GPURouter) :
    Elsewhere q s { s with gpuRouter := some g' } :=
  elsewhere_of_eq rfl rfl rfl (by rw [h]; rfl) rfl

/-- A move of the books is confined to its request. -/
theorem BudgetMove.confined {s s' : Scheduler A} (h : BudgetMove r s s') : Confined r s s' := by
  cases h with
  | idle => exact Confined.refl r s
  | silent g' h => exact ⟨fun _ _ => reroute_elsewhere h g', rfl⟩
  | logged g' e h he =>
      exact Confined.trans ⟨fun _ _ => reroute_elsewhere h g', rfl⟩ (log_confined he)

/-- For the request itself only the history grows. -/
theorem BudgetMove.view {s s' : Scheduler A} (h : BudgetMove r s s') :
    View.Logged (s.view r) (s'.view r) := by
  cases h with
  | idle => exact View.Logged.refl _
  | silent g' h =>
      rw [show Scheduler.view { s with gpuRouter := some g' } r = s.view r from
        reroute_elsewhere h g']
      exact View.Logged.refl _
  | logged g' e h he hown hcall hroute =>
      rw [view_log _ he hown, show Scheduler.view { s with gpuRouter := some g' } r =
        s.view r from reroute_elsewhere h g']
      exact View.Logged.record _ hcall hroute

/-- An allocator with the same configuration is elsewhere. -/
theorem reallocate_elsewhere {s : Scheduler A} {a : A}
    (h : IKVCacheAllocator.config a = IKVCacheAllocator.config s.kvAllocator) :
    Elsewhere q s { s with kvAllocator := a } :=
  elsewhere_of_eq rfl rfl rfl rfl h

variable [LawfulKVCacheAllocator A]

/-- The allocator keeps its configuration. -/
theorem callAllocator_config (s : Scheduler A) (i : Answer) (r : RequestPtr)
    (decision : Option RoutingDecision) :
    IKVCacheAllocator.config (s.callAllocator i r decision).2 =
      IKVCacheAllocator.config s.kvAllocator := by
  unfold callAllocator
  dsimp only
  split
  · exact LawfulKVCacheAllocator.tensorParallel_config _ _ _ _
  · exact LawfulKVCacheAllocator.allocate_config _ _ _

/-- An allocation writes the handle of the request. -/
theorem allocateFor_confined (s : Scheduler A) (i : Answer) (r : RequestPtr)
    (decision : Option RoutingDecision) : Confined r s (s.allocateFor i r decision).2 := by
  have hconfig := s.callAllocator_config i r decision
  obtain ⟨e, a, hcall, heq⟩ | ⟨handle, a, hcall, heq⟩ := allocateFor_cases s i r decision
  · rw [heq]
    rw [hcall] at hconfig
    exact confined_of_eq rfl rfl rfl rfl hconfig
  · rw [heq]
    rw [hcall] at hconfig
    have hmoved : Confined r s { s with kvAllocator := a } :=
      confined_of_eq rfl rfl rfl rfl hconfig
    refine hmoved.trans ?_
    dsimp only
    exact modify_confined _ r _ fun _ => rfl

/-- So does its release. -/
theorem freeKvCache_confined (s : Scheduler A) (r : RequestPtr) :
    Confined r s (s.freeKvCache r) := by
  have hconfig := LawfulKVCacheAllocator.free_config s.kvAllocator (s.requests r).kvCache
  have hmoved : Confined r s { s with
      kvAllocator := (IKVCacheAllocator.free s.kvAllocator (s.requests r).kvCache).2 } :=
    confined_of_eq rfl rfl rfl rfl hconfig
  refine hmoved.trans ?_
  unfold freeKvCache
  dsimp only
  exact modify_confined _ r _ fun _ => rfl

/-- Every action of the decode thread on a request is confined to it. -/
theorem chores_confined (r : RequestPtr) : Chores r (Confined (A := A) r) where
  idle := Confined.refl r
  freeBudget s := (freeBudget_move s r).confined
  freeKvCache s := freeKvCache_confined s r
  eraseActive s := by
    refine ⟨fun q hq => view_congr rfl rfl ?_ rfl rfl, rfl⟩
    simp [eraseActive, hq]
  unregister _ := confined_of_eq rfl rfl rfl rfl rfl
  gauge _ _ := confined_of_eq rfl rfl rfl rfl rfl
  countCompleted _ _ := confined_of_eq rfl rfl rfl rfl rfl
  countErrored _ _ := confined_of_eq rfl rfl rfl rfl rfl
  route s := routeRequest_confined s r
  reserve s decision := (reserveBudget_move s r decision).confined
  allocate s i decision := allocateFor_confined s i r decision
  unreserve s decision := (unreserveBudget_move s r decision).confined
  commit s decision := (commitBudget_move s r decision).confined
  edit s f hf := modify_confined s r f fun q =>
    congrArg (fun p => (p.2.1, p.2.2.1, p.2.2.2.1)) (hf q)
  push s _ := modify_confined s r _ fun _ => rfl
  close s := modify_confined s r _ fun _ => rfl
  call _ _ hsubject _ _ := log_confined hsubject
  activate s := ⟨fun q hq => view_congr rfl rfl (by simp [hq]) rfl rfl, rfl⟩

end Others

end Scheduler

end Qwen
