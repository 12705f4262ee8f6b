import WinInference.Concurrency.Blind
import WinInference.Scheduler.Chores
import WinInference.Scheduler.Outcome

/-!
# Cancellation

No action of any thread puts a request into `Cancelled` or raises
`cancelled_count_`.  And until the decode thread begins a decode round nothing
but the token tells a cancelled request from another one: it is routed,
charged, given a cache and prefilled all the same.

`Legal.accepted` follows a request that was accepted to one of its two ends.
The lemmas `*_cancelToken` say that an action does the same with the token set
or not, and `*_unseen` that a program is blind to it; `others_unseen` and
`decodeLoop_unseen` cover all threads up to the next round.
-/

namespace Qwen

open Concurrency Concurrency.Program

/-- The states of a request that was accepted. -/
def RequestState.accepted : RequestState → Bool
  | .queued | .prefilling | .decoding | .completed | .errored => true
  | _ => false

/-- An accepted request stays so. -/
theorem Legal.accepted {st st' : RequestState} (h : Legal st st') (hst : st.accepted) :
    st'.accepted := by
  cases h with
  | receivedRejected => cases hst
  | _ => rfl

namespace Scheduler

variable {A : Type}

/-! ## Actions that do not look at the token -/

section Unseen

variable {s : Scheduler A} {q r : RequestPtr}

/-- Setting a token changes no other field of any request. -/
theorem cancelToken_field {α : Type} (s : Scheduler A) (r q : RequestPtr)
    (field : Request → α)
    (h : ∀ q, field { q with cancelToken := q.cancelToken.map (fun _ => true) } = field q) :
    field ((s.cancelToken r).requests q) = field (s.requests q) :=
  requests_modify_field s r q field h

/-- The estimate does not depend on the token. -/
theorem cancelToken_estimatedBytes (s : Scheduler A) (r q : RequestPtr) :
    (s.cancelToken r).estimatedBytes q = s.estimatedBytes q :=
  congrArg estimateKvMemory (cancelToken_field s r q (·.contextLength) (fun _ => rfl))

/-- A rewrite that leaves the token alone may come before the cancellation or
after it. -/
theorem modify_cancelToken (s : Scheduler A) {f : Request → Request}
    (hf : ∀ q, f { q with cancelToken := q.cancelToken.map (fun _ => true) } =
      { f q with cancelToken := (f q).cancelToken.map (fun _ => true) }) :
    (s.cancelToken r).modify q f = (s.modify q f).cancelToken r := by
  unfold cancelToken modify
  by_cases hq : q = r
  · subst hq
    simp [hf]
  · simp [hq, Ne.symm hq, Function.update_comm hq]

/-- The threads do the same with the token of `r` set or not. -/
abbrev Unseen (r : RequestPtr) {α : Type} (p : Sched A α) : Prop :=
  p.Blind (fun s => s.cancelToken r)

/-- A rewrite that does not look at the token commutes with setting it. -/
theorem modify_unseen_token {f : Request → Request}
    (hf : ∀ q, f { q with cancelToken := q.cancelToken.map (fun _ => true) } =
      { f q with cancelToken := (f q).cancelToken.map (fun _ => true) }) :
    Unseen r (Program.update (fun s => s.modify q f) : Sched A Unit) :=
  Blind.update fun s => modify_cancelToken s hf

/-- A change of state does not look at the token. -/
theorem setState_unseen (st : RequestState) : Unseen r (setState q st : Sched A Unit) :=
  modify_unseen_token fun _ => rfl

/-- The gauge has nothing to do with tokens. -/
theorem gauge_unseen (f : Int → Int) :
    Unseen r (Program.update (fun s => { s with requestsActive := f s.requestsActive }) :
      Sched A Unit) :=
  Blind.update fun _ => rfl

/-- A deadline is compared with the clock. -/
theorem deadline_unseen (deadline : RequestTiming → Option Nat) :
    Unseen r (Program.atomic (fun i s =>
      (timedOut (deadline (s.requests q).timing) i.now, s)) : Sched A Bool) :=
  Blind.atomic fun i s => by
    rw [cancelToken_field s r q (fun p => timedOut (deadline p.timing) i.now) (fun _ => rfl)]

/-- Releasing a budget commutes with setting a token. -/
theorem freeBudget_cancelToken (s : Scheduler A) (r q : RequestPtr) :
    (s.cancelToken r).freeBudget q = (s.freeBudget q).cancelToken r := by
  have hrouter : (s.cancelToken r).gpuRouter = s.gpuRouter := rfl
  unfold freeBudget
  rw [hrouter, cancelToken_estimatedBytes,
    cancelToken_field s r q (·.assignedDevices) (fun _ => rfl)]
  cases s.gpuRouter with
  | none => rfl
  | some g =>
      dsimp only
      split <;> rfl

/-- So does routing, with the same decision. -/
theorem routeRequest_cancelToken (s : Scheduler A) (r q : RequestPtr) :
    (s.cancelToken r).routeRequest q =
      ((s.routeRequest q).1, (s.routeRequest q).2.cancelToken r) := by
  have hlength := cancelToken_field s r q (·.contextLength) (fun _ => rfl)
  cases hrouter : s.gpuRouter with
  | none =>
      have hnone : (s.cancelToken r).gpuRouter = none := hrouter
      rw [routeRequest_none hnone, routeRequest_none hrouter]
  | some g =>
      have hsome : (s.cancelToken r).gpuRouter = some g := hrouter
      rw [routeRequest_some hsome, routeRequest_some hrouter, hlength]
      exact Prod.ext rfl (congrArg (fun t => log t _)
        (modify_cancelToken { s with gpuRouter := _ } fun _ => rfl))

/-- So does a reservation. -/
theorem reserveBudget_cancelToken (s : Scheduler A) (r q : RequestPtr)
    (decision : Option RoutingDecision) :
    (s.cancelToken r).reserveBudget q decision = (s.reserveBudget q decision).cancelToken r := by
  have hrouter : (s.cancelToken r).gpuRouter = s.gpuRouter := rfl
  unfold reserveBudget
  rw [hrouter, cancelToken_estimatedBytes]
  split <;> rfl

/-- So does taking it back. -/
theorem unreserveBudget_cancelToken (s : Scheduler A) (r q : RequestPtr)
    (decision : Option RoutingDecision) :
    (s.cancelToken r).unreserveBudget q decision =
      (s.unreserveBudget q decision).cancelToken r := by
  have hrouter : (s.cancelToken r).gpuRouter = s.gpuRouter := rfl
  unfold unreserveBudget
  rw [hrouter, cancelToken_estimatedBytes]
  split <;> rfl

/-- So does a commit. -/
theorem commitBudget_cancelToken (s : Scheduler A) (r q : RequestPtr)
    (decision : Option RoutingDecision) :
    (s.cancelToken r).commitBudget q decision = (s.commitBudget q decision).cancelToken r := by
  have hrouter : (s.cancelToken r).gpuRouter = s.gpuRouter := rfl
  unfold commitBudget
  rw [hrouter, cancelToken_estimatedBytes]
  split <;> rfl

/-- So does a pop. -/
theorem popEvent_cancelToken (s : Scheduler A) (r q : RequestPtr) :
    (s.cancelToken r).popEvent q = (s.popEvent q).cancelToken r := by
  unfold popEvent
  rw [cancelToken_field s r q (·.tokenQueue) (fun _ => rfl)]
  cases (s.requests q).tokenQueue with
  | none => rfl
  | some t =>
      dsimp only
      split
      · rfl
      · exact congrArg (fun t => log t _) (modify_cancelToken s fun _ => rfl)

/-- So does a cancel by id. -/
theorem registryCancel_cancelToken (s : Scheduler A) (r : RequestPtr) (id : String) :
    (s.cancelToken r).registryCancel id = (s.registryCancel id).cancelToken r := by
  have hregistry : (s.cancelToken r).registry = s.registry := rfl
  unfold registryCancel
  rw [hregistry]
  cases s.registry.lookup id with
  | none => rfl
  | some q => exact modify_cancelToken s fun _ => rfl

/-- So does a cancel of all. -/
theorem registryCancelAll_cancelToken (s : Scheduler A) (r : RequestPtr) :
    (s.cancelToken r).registryCancelAll = s.registryCancelAll.cancelToken r := by
  have hregistry : (s.cancelToken r).registry = s.registry := rfl
  unfold registryCancelAll
  rw [hregistry]
  generalize s.registry.entries = entries
  induction entries generalizing s with
  | nil => rfl
  | cons e rest ih =>
      have hterm := cancelToken_field s r e.2 Request.isTerminal (fun _ => rfl)
      rw [List.foldl_cons, List.foldl_cons, hterm]
      by_cases hend : (s.requests e.2).isTerminal
      · rw [if_pos hend, if_pos hend]
        exact ih s rfl
      · rw [if_neg hend, if_neg hend, show (s.cancelToken r).cancelToken e.2 =
          (s.cancelToken e.2).cancelToken r from modify_cancelToken s fun _ => rfl]
        exact ih _ rfl

/-- So does taking a request off the queue, with the same request. -/
theorem dequeue_cancelToken (s : Scheduler A) (r : RequestPtr) (maxActive : Nat) :
    (s.cancelToken r).dequeue maxActive =
      ((s.dequeue maxActive).1, (s.dequeue maxActive).2.cancelToken r) := by
  have hpending : (s.cancelToken r).pendingQueue = s.pendingQueue := rfl
  have hactive : (s.cancelToken r).activeRequests = s.activeRequests := rfl
  unfold dequeue
  rw [hpending, hactive]
  cases s.pendingQueue with
  | nil => rfl
  | cons q rest =>
      dsimp only
      split <;> rfl

/-! ### Submit calls, cancellations and `stop` -/

/-- Accepting a request does not look at its token. -/
theorem accept_unseen (d : SchedulerSetup) : Unseen r (accept d q : Sched A Unit) := by
  refine Blind.bind (Blind.update fun s => ?_) fun _ => ?_
  · unfold registryAdd
    rw [cancelToken_field s r q (·.id) (fun _ => rfl)]
    rfl
  refine Blind.bind (setState_unseen _) fun _ => ?_
  refine Blind.bind (Blind.atomic fun i s => ?_) fun _ => ?_
  · refine Prod.ext rfl ?_
    dsimp only
    exact modify_cancelToken s fun _ => rfl
  exact Blind.update fun _ => rfl

/-- `stop` does not look at tokens. -/
theorem stop_unseen (l : Point) : Unseen r (stop l : Sched A Point) := by
  cases l with
  | start =>
      refine Blind.bind (Blind.atomic fun _ _ => rfl) fun running => ?_
      cases running <;> exact Blind.ret _
  | join =>
      refine Blind.bind (Blind.read fun _ => rfl) fun exited => ?_
      cases exited with
      | true =>
          exact Blind.bind (Blind.update fun s => registryCancelAll_cancelToken s r)
            (fun _ => Blind.ret _)
      | false => exact Blind.ret _
  | processQueue | copyActive | decodeEach | returned => exact Blind.ret _

variable [IKVCacheAllocator A]

/-- Admission does not look at the token. -/
theorem admit_unseen (d : SchedulerSetup) : Unseen r (admitRequest d q : Sched A (Result Unit)) := by
  have hlength := fun s : Scheduler A => cancelToken_field s r q (·.contextLength) (fun _ => rfl)
  refine Blind.bind (Blind.read fun _ => rfl) fun full => ?_
  cases full with
  | true => exact Blind.ret _
  | false =>
      refine Blind.bind (Blind.read fun s => ?_) fun placeable => ?_
      · rw [hlength]
        rfl
      · cases placeable with
        | true =>
            refine Blind.bind (Blind.read fun s => ?_) fun allocatable => ?_
            · rw [hlength]
              rfl
            · cases allocatable <;> exact Blind.ret _
        | false => exact Blind.ret _

/-- So a submit call does not. -/
theorem submit_unseen (d : SchedulerSetup) : Unseen r (submit d q : Sched A (Result Unit)) := by
  refine Blind.bind (Blind.read fun _ => rfl) fun running => ?_
  cases running with
  | false => exact Blind.ret _
  | true =>
      refine Blind.bind (admit_unseen d) fun admitted => ?_
      cases admitted with
      | ok _ => exact Blind.bind (accept_unseen d) (fun _ => Blind.ret _)
      | error e =>
          refine Blind.bind (setState_unseen _) fun _ => ?_
          exact Blind.bind (modify_unseen_token fun _ => rfl) (fun _ => Blind.ret _)

/-- No thread but the decode thread looks at a token. -/
theorem others_unseen (d : SchedulerSetup) {t : ThreadId} (ht : t ≠ .decode) (l : Point) :
    Unseen r (code d t l : Sched A Point) := by
  cases t with
  | decode => exact absurd rfl ht
  | submit q =>
      cases l with
      | start => exact Blind.bind (submit_unseen d) (fun _ => Blind.ret _)
      | processQueue | copyActive | decodeEach | join | returned => exact Blind.ret _
  | cancel id =>
      exact Blind.bind (Blind.update fun s => registryCancel_cancelToken s r id)
        (fun _ => Blind.ret _)
  | disconnect q =>
      exact Blind.bind (Blind.update fun s => modify_cancelToken s fun _ => rfl)
        (fun _ => Blind.ret _)
  | pop q =>
      exact Blind.bind (Blind.update fun s => popEvent_cancelToken s r q) (fun _ => Blind.ret _)
  | stop => exact stop_unseen l

/-! ### The decode thread, before a decode round -/

/-- The allocator is called alike. -/
theorem callAllocator_cancelToken (s : Scheduler A) (r q : RequestPtr) (i : Answer)
    (decision : Option RoutingDecision) :
    (s.cancelToken r).callAllocator i q decision = s.callAllocator i q decision := by
  have hallocator : (s.cancelToken r).kvAllocator = s.kvAllocator := rfl
  unfold callAllocator
  rw [cancelToken_field s r q (·.contextLength) (fun _ => rfl), hallocator]

/-- So an allocation commutes with setting a token. -/
theorem allocateFor_cancelToken (s : Scheduler A) (r q : RequestPtr) (i : Answer)
    (decision : Option RoutingDecision) :
    (s.cancelToken r).allocateFor i q decision =
      ((s.allocateFor i q decision).1, (s.allocateFor i q decision).2.cancelToken r) := by
  unfold allocateFor
  rw [callAllocator_cancelToken]
  rcases s.callAllocator i q decision with ⟨result, a⟩
  cases result with
  | error e => rfl
  | ok handle =>
      refine Prod.ext rfl ?_
      dsimp only
      exact modify_cancelToken { s with kvAllocator := a } fun _ => rfl

/-- So does its release. -/
theorem freeKvCache_cancelToken (s : Scheduler A) (r q : RequestPtr) :
    (s.cancelToken r).freeKvCache q = (s.freeKvCache q).cancelToken r := by
  have hallocator : (s.cancelToken r).kvAllocator = s.kvAllocator := rfl
  unfold freeKvCache
  rw [cancelToken_field s r q (·.kvCache) (fun _ => rfl), hallocator]
  exact modify_cancelToken { s with kvAllocator := _ } fun _ => rfl

/-- Releasing resources does not look at the token. -/
theorem freeResources_unseen : Unseen r (freeResources q : Sched A Unit) := by
  refine Blind.bind (Blind.atomic fun _ s => ?_) fun valid => ?_
  · dsimp only
    rw [cancelToken_field s r q (·.kvCache) (fun _ => rfl), freeBudget_cancelToken]
    split <;> rfl
  · cases valid with
    | true => exact Blind.update fun s => freeKvCache_cancelToken s r q
    | false => exact Blind.ret _

/-- Nor does retiring a request. -/
theorem retire_unseen (event : TokenEvent) : Unseen r (retire q event : Sched A Unit) := by
  refine Blind.bind (modify_unseen_token fun _ => rfl) fun _ => ?_
  refine Blind.bind (modify_unseen_token fun _ => rfl) fun _ => ?_
  refine Blind.bind freeResources_unseen fun _ => ?_
  refine Blind.bind (Blind.update fun _ => rfl) fun _ => ?_
  refine Blind.bind (Blind.update fun s => ?_) fun _ => ?_
  · rw [cancelToken_field s r q (·.id) (fun _ => rfl)]
    rfl
  exact gauge_unseen (· - 1)

/-- Nor does failing it. -/
theorem failRequest_unseen (error : Error) : Unseen r (failRequest q error : Sched A Unit) := by
  refine Blind.bind (modify_unseen_token fun _ => rfl) fun _ => ?_
  refine Blind.bind (setState_unseen _) fun _ => ?_
  refine Blind.bind (retire_unseen _) fun _ => ?_
  exact Blind.update fun _ => rfl

/-- Nor does placing it. -/
theorem place_unseen : Unseen r (place q : Sched A (Result Unit)) := by
  refine Blind.bind (Blind.atomic fun _ s => routeRequest_cancelToken s r q) fun decision => ?_
  refine Blind.bind (Blind.update fun s => reserveBudget_cancelToken s r q decision)
    fun _ => ?_
  refine Blind.bind (Blind.atomic fun i s => allocateFor_cancelToken s r q i decision)
    fun placed => ?_
  cases placed with
  | error e =>
      exact Blind.bind (Blind.update fun s => unreserveBudget_cancelToken s r q decision)
        (fun _ => Blind.ret _)
  | ok _ =>
      exact Blind.bind (Blind.update fun s => commitBudget_cancelToken s r q decision)
        (fun _ => Blind.ret _)

/-- Nor does its prefill, apart from what the runtime answers. -/
theorem runPrefill_unseen : Unseen r (runPrefill q : Sched A (Result Unit)) := by
  refine Blind.bind (setState_unseen _) fun _ => ?_
  refine Blind.bind (gauge_unseen (· + 1)) fun _ => ?_
  refine Blind.bind place_unseen fun placed => ?_
  cases placed with
  | error e => exact Blind.bind (gauge_unseen (· - 1)) (fun _ => Blind.ret _)
  | ok _ =>
      refine Blind.bind (Blind.atomic fun i s => ?_) fun prefilled => ?_
      · dsimp only
        rw [cancelToken_field s r q (·.kvCache) (fun _ => rfl)]
        cases i.prefill <;> rfl
      · cases prefilled with
        | error e =>
            refine Blind.bind freeResources_unseen fun _ => ?_
            exact Blind.bind (gauge_unseen (· - 1)) (fun _ => Blind.ret _)
        | ok logits => exact Blind.bind (modify_unseen_token fun _ => rfl) (fun _ => Blind.ret _)

/-- A dequeued request is served without a look at its token. -/
theorem startRequest_unseen (d : SchedulerSetup) :
    Unseen r (startRequest d q : Sched A Unit) := by
  refine Blind.bind (deadline_unseen (·.queueDeadline)) fun queueTimedOut => ?_
  cases queueTimedOut with
  | true => exact failRequest_unseen _
  | false =>
      refine Blind.bind (deadline_unseen (·.requestDeadline)) fun requestTimedOut => ?_
      cases requestTimedOut with
      | true => exact failRequest_unseen _
      | false =>
          refine Blind.bind runPrefill_unseen fun result => ?_
          cases result with
          | error e => exact failRequest_unseen e
          | ok _ =>
              refine Blind.bind (setState_unseen _) fun _ => ?_
              refine Blind.bind (Blind.atomic fun i s => ?_) fun _ => ?_
              · dsimp only
                split
                · refine Prod.ext rfl ?_
                  dsimp only
                  exact modify_cancelToken s fun _ => rfl
                · rfl
              · exact Blind.update fun _ => rfl

/-- The decode thread does not look at a token before it turns to an active
request. -/
theorem decodeLoop_unseen (d : SchedulerSetup) {l : Point}
    (hl : ∀ q rest, l ≠ .decodeEach (q :: rest)) : Unseen r (decodeLoop d l : Sched A Point) := by
  cases l with
  | start =>
      refine Blind.bind (Blind.atomic fun _ _ => rfl) fun running => ?_
      cases running <;> exact Blind.ret _
  | processQueue =>
      refine Blind.bind (Blind.atomic fun _ s => dequeue_cancelToken s r _) fun next => ?_
      cases next with
      | none => exact Blind.ret _
      | some q => exact Blind.bind (startRequest_unseen d) (fun _ => Blind.ret _)
  | copyActive =>
      refine Blind.bind (Blind.read fun _ => rfl) fun active => ?_
      by_cases hempty : active.isEmpty
      · rw [if_pos hempty]
        exact Blind.ret _
      · rw [if_neg hempty]
        exact Blind.ret _
  | decodeEach rest =>
      cases rest with
      | nil => exact Blind.ret _
      | cons q rest => exact absurd rfl (hl q rest)
  | join | returned => exact Blind.ret _

end Unseen

/-! ## States and counts -/

section Runs

variable [IKVCacheAllocator A] {a : A} {g : Option GPURouter} {requests : RequestPtr → Request}

/-- No body of any thread touches the count of the cancelled. -/
theorem code_cancelledCount (d : SchedulerSetup) (t : ThreadId) (l : Point) :
    (code d t l : Sched A Point).Always (fun s s' => s'.cancelledCount = s.cancelledCount) := by
  by_cases ht : t = .decode
  · subst ht
    exact decodeLoop_always (fun r => (works_chores r).mono fun _ _ h => h.cancelledCount)
      (fun _ => rfl) (fun _ _ _ _ => rfl) d l
  · exact others_field (fun _ _ _ => rfl) (fun _ _ => rfl) (fun _ _ => rfl) (fun _ _ => rfl) d ht
      (fun _ _ => rfl) l

/-- Nothing is ever counted as cancelled. -/
theorem cancelledCount_run (d : SchedulerSetup) (s : Scheduler A)
    (schedule : List (ThreadId × Answer)) :
    ((System.initial s).run (code d) schedule).state.cancelledCount = s.cancelledCount :=
  Pool.run_always (code_cancelledCount d) (J := fun t => t.cancelledCount = s.cancelledCount)
    (fun _ _ h hs => h.trans hs) rfl .start schedule

/-- An accepted request is under way, completed or errored. -/
theorem accepted_run (d : SchedulerSetup) (h : Fresh requests)
    (schedule : List (ThreadId × Answer)) :
    let s := ((System.initial (create a g requests)).run (code d) schedule).state
    ∀ r ∈ s.pushed, (s.requests r).state.accepted := by
  induction schedule using List.reverseRecOn with
  | nil => simp [System.initial, create, pushed]
  | append_singleton rest e ih =>
      rw [Pool.run_concat]
      intro s r hr
      obtain hquiet | hstep | ⟨q, hstep⟩ := life_step (a := a) (g := g) d h rest e.1 e.2
      · have hpushed := congrArg Life.pushed hquiet
        have hstate := congrFun (congrArg Life.state hquiet) r
        change s.pushed = _ at hpushed
        change (s.requests r).state = _ at hstate
        rw [hstate]
        rw [hpushed] at hr
        exact ih r hr
      · have hpushed : s.pushed = _ := hstep.pushed_eq
        rw [hpushed] at hr
        have hbefore := ih r hr
        obtain hsame | hlegal := hstep.legal r
        · change (s.requests r).state = _ at hsame
          rw [hsame]
          exact hbefore
        · exact hlegal.accepted hbefore
      · obtain ⟨new, -, hpushed, hnew⟩ := hstep.arrivals.arrived
        change s.pushed = _ at hpushed
        rw [hpushed] at hr
        rcases List.mem_append.mp hr with hr | hr
        · have hsame : (s.requests r).state = _ := (hstep.arrivals.kept r hr).1
          rw [hsame]
          exact ih r hr
        · have hqueued : (s.requests r).state = .queued := (hnew r hr).1
          rw [hqueued]
          rfl

/-- **Cancellation is not classified.**  Whatever is cancelled when, an
accepted request ends as completed or errored, and nothing is counted as
cancelled.  Moreover a request that is cancelled is served like any other
until the decode thread begins its next decode round. -/
theorem cancellation_unclassified (d : SchedulerSetup) (a : A) (g : Option GPURouter)
    (h : Fresh requests) (schedule : List (ThreadId × Answer)) :
    let w := (System.initial (create a g requests)).run (code d) schedule
    (∀ r ∈ w.state.pushed, (w.state.requests r).isTerminal →
      (w.state.requests r).state = .completed ∨ (w.state.requests r).state = .errored) ∧
    w.state.cancelledCount = 0 ∧
    ∀ r l later, w.threads .decode = .ret l →
      (∀ first, first <+: later → ∀ q rest,
        (w.run (code d) first).threads .decode ≠ .ret (.decodeEach (q :: rest))) →
      (w.change (·.cancelToken r)).run (code d) later =
        (w.run (code d) later).change (·.cancelToken r) := by
  intro w
  refine ⟨fun r hr hterm => ?_, cancelledCount_run d _ schedule, fun r l later hpoint hrounds => ?_⟩
  · have haccepted := accepted_run (a := a) (g := g) d h schedule r hr
    change (w.state.requests r).state.accepted at haccepted
    rw [Request.isTerminal] at hterm
    cases hstate : (w.state.requests r).state <;>
      simp [hstate, RequestState.accepted, RequestState.isTerminal] at haccepted hterm ⊢
  · refine Pool.run_change (fun t => ?_) later fun first hfirst t l' hl' => ?_
    · by_cases ht : t = .decode
      · subst ht
        rw [hpoint]
        exact Blind.ret l
      · exact Pool.run_blind (others_unseen d ht) schedule
    · by_cases ht : t = .decode
      · subst ht
        refine decodeLoop_unseen d fun q rest heq => ?_
        subst heq
        exact hrounds first hfirst q rest hl'
      · exact others_unseen d ht l'

end Runs

/-- What the null backend answers to a cancelled request. -/
def cancelledPrefill : Answer := { prefill := .error (.internal "Request cancelled") }

/-- The first request is submitted and cancelled, then the decode thread moves
`n` times. -/
def cancelledBeforeDequeue (n : Nat) : List (ThreadId × Answer) :=
  moves 9 (.submit 0) {} ++ moves 2 (.disconnect 0) {} ++ moves n .decode cancelledPrefill

/-- The first request is submitted and prefilled, and then cancelled. -/
def cancelledWhileDecoding (n : Nat) : List (ThreadId × Answer) :=
  firstSubmitted 34 {} ++ moves 2 (.disconnect 0) {} ++ moves n .decode {}

/-- The request is cancelled while it decodes, and completed. -/
theorem cancellation_unclassified_sample :
    let s := (alikeRun shortRequest (cancelledWhileDecoding 30)).state
    (s.requests 0).state = .completed ∨ (s.requests 0).state = .errored := by
  have hpushed : 0 ∈ (alikeRun shortRequest (cancelledWhileDecoding 30)).state.pushed := by
    decide +kernel
  have hterm :
      ((alikeRun shortRequest (cancelledWhileDecoding 30)).state.requests 0).isTerminal := by
    decide +kernel
  have hfresh : Fresh (numbered shortRequest) := numbered_fresh rfl
  unfold alikeRun at hpushed hterm ⊢
  exact (cancellation_unclassified sampleSetup sampleContiguous (some (sampleRouter 20000))
    hfresh (cancelledWhileDecoding 30)).1 0 hpushed hterm

/-- Cancelled in the queue, the first request is charged to the router and
prefilled, and errors out; cancelled while decoding, it completes.  Neither is
counted. -/
theorem cancelled_not_cancelled :
    let queued := (alikeRun shortRequest (cancelledBeforeDequeue 0)).state
    let failed := (alikeRun shortRequest (cancelledBeforeDequeue 40)).state
    let decoded := (alikeRun shortRequest (cancelledWhileDecoding 30)).state
    (queued.pendingQueue = [0] ∧ (queued.requests 0).isCancelled) ∧
      ((failed.requests 0).state = .errored ∧ failed.cancelledCount = 0 ∧
        .committed 0 ∈ failed.trace ∧
        failed.trace.any fun e => match e with
          | .prefillFailed 0 handle => handle.isValid
          | _ => false) ∧
      (decoded.requests 0).state = .completed ∧ (decoded.requests 0).finishReason = .stop ∧
      decoded.cancelledCount = 0 := by
  decide +kernel

end Scheduler

end Qwen
