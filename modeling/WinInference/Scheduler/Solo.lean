import WinInference.Concurrency.Lone
import WinInference.Scheduler.Lifecycle

/-!
# Reasoning about the decode thread alone

The KV allocator, the router, the active list and all of a request but its
state, its deadlines, its error and the two objects it shares with its HTTP
thread are written by the decode thread only.  `Interference` says so of a step
of any other thread.  A property of what the decode thread owns is therefore
proved on the program of the decode thread, as if it ran alone: `Solo` is what
such a proof consists of, and `Solo.run` what it gives.
-/

namespace Qwen

open Concurrency Concurrency.Program

/-- The states only the decode thread puts a request into. -/
def RequestState.late : RequestState → Bool
  | .decoding | .completed | .errored => true
  | _ => false

/-- Ended by the decode thread. -/
def RequestState.isOver : RequestState → Bool
  | .completed | .errored => true
  | _ => false

/-- The event that was popped off the queue of `r`. -/
def Event.poppedOff (r : RequestPtr) : Event → Option TokenEvent
  | .popped q event => if q = r then some event else none
  | _ => none

/-- A request without what threads other than the decode thread write. -/
def Request.core (q : Request) : Request :=
  { q with
    state := .received, cancelToken := none, error := none, timing := {}
    tokenQueue := none }

namespace Scheduler

variable {A : Type}

/-- The part of the history that the decode thread wrote. -/
def ownTrace (s : Scheduler A) : List Event := s.trace.filter Event.byDecode

/-- The events of a request's queue: those popped, then those still there. -/
def delivered (s : Scheduler A) (r : RequestPtr) : List TokenEvent :=
  s.trace.filterMap (Event.poppedOff r) ++
  ((s.requests r).tokenQueue.map (·.events)).getD []

/-- Whether a queue is closed, and how many events it dropped. -/
def queueStatus (s : Scheduler A) (r : RequestPtr) : Option (Bool × Nat) :=
  (s.requests r).tokenQueue.map (fun t => (t.closed, t.droppedCount))

/-- A request has been dequeued when the trace says so. -/
theorem mem_dequeued {s : Scheduler A} {r : RequestPtr} :
    r ∈ s.dequeued ↔ .dequeued r ∈ s.trace := by
  simp only [dequeued, List.mem_filterMap]
  constructor
  · rintro ⟨e, he, hr⟩
    cases e <;> simp at hr
    subst hr
    exact he
  · exact fun h => ⟨_, h, rfl⟩

/-- What a step of another thread leaves alone. -/
structure Interference (s s' : Scheduler A) : Prop where
  kvAllocator : s'.kvAllocator = s.kvAllocator
  gpuRouter : s'.gpuRouter = s.gpuRouter
  activeRequests : s'.activeRequests = s.activeRequests
  core : ∀ r, (s'.requests r).core = (s.requests r).core
  ownTrace : s'.ownTrace = s.ownTrace
  delivered : ∀ r, s'.delivered r = s.delivered r
  queueStatus : ∀ r, s'.queueStatus r = s.queueStatus r
  late : ∀ r, (s'.requests r).state.late → (s'.requests r).state = (s.requests r).state

namespace Interference

variable {s s' s'' : Scheduler A}

/-- Doing nothing is an interference. -/
theorem refl (s : Scheduler A) : Interference s s :=
  ⟨rfl, rfl, rfl, fun _ => rfl, rfl, fun _ => rfl, fun _ => rfl, fun _ _ => rfl⟩

/-- Two interferences in a row are one. -/
theorem trans (h : Interference s s') (h' : Interference s' s'') : Interference s s'' :=
  ⟨h'.kvAllocator.trans h.kvAllocator, h'.gpuRouter.trans h.gpuRouter,
    h'.activeRequests.trans h.activeRequests,
    fun r => (h'.core r).trans (h.core r), h'.ownTrace.trans h.ownTrace,
    fun r => (h'.delivered r).trans (h.delivered r),
    fun r => (h'.queueStatus r).trans (h.queueStatus r),
    fun r hr => by
      have heq := h'.late r hr
      rw [heq] at hr ⊢
      exact h.late r hr⟩

/-- No interference touches a field of the request's core. -/
theorem field {α : Type} (h : Interference s s') (r : RequestPtr) (f : Request → α)
    (hf : ∀ q, f q.core = f q) : f (s'.requests r) = f (s.requests r) := by
  rw [← hf (s'.requests r), ← hf (s.requests r), h.core r]

/-- No interference touches the cache handle. -/
theorem kvCache (h : Interference s s') (r : RequestPtr) :
    (s'.requests r).kvCache = (s.requests r).kvCache :=
  h.field r (·.kvCache) (fun _ => rfl)

/-- No interference touches the assigned devices. -/
theorem assignedDevices (h : Interference s s') (r : RequestPtr) :
    (s'.requests r).assignedDevices = (s.requests r).assignedDevices :=
  h.field r (·.assignedDevices) (fun _ => rfl)

/-- No interference touches the prompt. -/
theorem inputTokens (h : Interference s s') (r : RequestPtr) :
    (s'.requests r).inputTokens = (s.requests r).inputTokens :=
  h.field r (·.inputTokens) (fun _ => rfl)

/-- No interference touches the token limit. -/
theorem maxTokens (h : Interference s s') (r : RequestPtr) :
    (s'.requests r).maxTokens = (s.requests r).maxTokens :=
  h.field r (·.maxTokens) (fun _ => rfl)

/-- No interference touches the context length. -/
theorem contextLength (h : Interference s s') (r : RequestPtr) :
    (s'.requests r).contextLength = (s.requests r).contextLength :=
  h.field r (·.contextLength) (fun _ => rfl)

/-- What the decode thread recorded stays recorded, and nothing is added. -/
theorem mem_trace (h : Interference s s') {e : Event} (he : e.byDecode) :
    e ∈ s'.trace ↔ e ∈ s.trace := by
  have hmem : ∀ t : Scheduler A, e ∈ t.trace ↔ e ∈ t.ownTrace := fun t => by
    simp [Scheduler.ownTrace, he]
  rw [hmem, hmem, h.ownTrace]

/-- Other threads add nothing to a part of the history that the decode thread
wrote. -/
theorem filterMap (h : Interference s s') {f : Event → Option RequestPtr}
    (hf : ∀ e, e.byDecode = false → f e = none) :
    s'.trace.filterMap f = s.trace.filterMap f := by
  have hown : ∀ t : Scheduler A, t.trace.filterMap f = t.ownTrace.filterMap f := by
    intro t
    rw [Scheduler.ownTrace, List.filterMap_filter]
    refine List.filterMap_congr fun e _ => ?_
    cases he : e.byDecode with
    | true => simp
    | false => simp [hf e he]
  rw [hown, hown, h.ownTrace]

/-- No interference dequeues a request. -/
theorem dequeued (h : Interference s s') : s'.dequeued = s.dequeued :=
  h.filterMap fun e he => by cases e <;> first | rfl | cases he

end Interference

/-- What the decode thread records about a request moves it nowhere. -/
theorem Works.filterMap {q : RequestPtr} {s s' : Scheduler A} {f : Event → Option RequestPtr}
    (h : Works q s s') (hf : ∀ e, e.quiet → f e = none) :
    s'.trace.filterMap f = s.trace.filterMap f := by
  obtain ⟨more, htrace, hmore⟩ := h.trace
  rw [htrace, List.filterMap_append]
  refine (congrArg (s.trace.filterMap f ++ ·) ?_).trans (List.append_nil _)
  exact List.filterMap_eq_nil_iff.mpr fun e he => hf e (hmore e he).2.2

/-- Work on one request registers nothing. -/
theorem Works.registered {q : RequestPtr} {s s' : Scheduler A} (h : Works q s s') :
    s'.registered = s.registered :=
  h.filterMap fun e he => by cases e <;> first | rfl | cases he

/-- Work on one request pushes nothing. -/
theorem Works.pushed {q : RequestPtr} {s s' : Scheduler A} (h : Works q s s') :
    s'.pushed = s.pushed :=
  h.filterMap fun e he => by cases e <;> first | rfl | cases he

/-- Nothing is dequeued while the decode thread works on a request. -/
theorem Works.dequeued {q : RequestPtr} {s s' : Scheduler A} (h : Works q s s') :
    s'.dequeued = s.dequeued :=
  h.filterMap fun e he => by cases e <;> first | rfl | cases he

/-! ## Steps of the other threads -/

section Steps

variable {s : Scheduler A} {r : RequestPtr}

/-- Rewriting a field the decode thread does not own. -/
theorem interference_modify {f : Request → Request}
    (hcore : ∀ q, (f q).core = q.core) (hqueue : ∀ q, (f q).tokenQueue = q.tokenQueue)
    (hstate : ∀ q, (f q).state.late → (f q).state = q.state) :
    Interference s (s.modify r f) := by
  refine ⟨rfl, rfl, rfl, fun q => requests_modify_field s r q (·.core) hcore, rfl,
    fun q => ?_, fun q => ?_, fun q hq => ?_⟩
  · have hkept := requests_modify_field s r q (·.tokenQueue) hqueue
    simp only [Scheduler.delivered, hkept]
    rfl
  · have hkept := requests_modify_field s r q (·.tokenQueue) hqueue
    simp only [Scheduler.queueStatus, hkept]
  · by_cases hqr : q = r
    · subst hqr
      rw [requests_modify_self] at hq ⊢
      exact hstate _ hq
    · rw [requests_modify_of_ne s f hqr]

/-- Setting a cancellation token is an interference. -/
theorem interference_cancelToken : Interference s (s.cancelToken r) :=
  interference_modify (fun _ => rfl) (fun _ => rfl) (fun _ _ => rfl)

/-- Popping moves an event from the queue to the history. -/
theorem interference_popEvent : Interference s (s.popEvent r) := by
  obtain heq | ⟨t, event, rest, hqueue, hevents, heq⟩ := popEvent_cases s r
  · rw [heq]
    exact Interference.refl s
  rw [heq]
  refine ⟨rfl, rfl, rfl, fun q => ?_, by simp [Scheduler.ownTrace, log, modify, Event.byDecode],
    fun q => ?_, fun q => ?_, fun q hq => ?_⟩
  · rw [requests_log]
    exact requests_modify_field s r q (·.core) (fun _ => rfl)
  · by_cases hqr : q = r
    · subst hqr
      simp [Scheduler.delivered, log, hqueue, hevents, modify, Event.poppedOff]
    · simp [Scheduler.delivered, log, modify, hqr, Ne.symm hqr, Event.poppedOff]
  · by_cases hqr : q = r
    · subst hqr
      simp [Scheduler.queueStatus, hqueue]
    · simp [Scheduler.queueStatus, requests_modify_of_ne s _ hqr]
  · rw [requests_log]
    exact requests_modify_field s r q (·.state) (fun _ => rfl)

/-- Adding to the registry is an interference. -/
theorem interference_registryAdd : Interference s (s.registryAdd r) :=
  ⟨rfl, rfl, rfl, fun _ => rfl, by simp [Scheduler.ownTrace, registryAdd, log, Event.byDecode],
    fun q => by simp [Scheduler.delivered, registryAdd, log, Event.poppedOff], fun _ => rfl, fun _ _ => rfl⟩

/-- Pushing onto the queue is an interference. -/
theorem interference_enqueue : Interference s (s.enqueue r) :=
  ⟨rfl, rfl, rfl, fun _ => rfl, by simp [Scheduler.ownTrace, enqueue, log, Event.byDecode],
    fun q => by simp [Scheduler.delivered, enqueue, log, Event.poppedOff], fun _ => rfl, fun _ _ => rfl⟩

/-- A state change a submit call may make. -/
theorem interference_setState {st : RequestState} (hst : st.late = false) :
    Interference s (s.modify r (fun q => { q with state := st })) :=
  interference_modify (fun _ => rfl) (fun _ => rfl) fun _ hlate => by
    rw [hst] at hlate
    cases hlate

end Steps

/-- Every section of a submit is an interference. -/
theorem submit_interference (r : RequestPtr) : SubmitChores r (Interference (A := A)) where
  idle := Interference.refl
  queue _ := interference_setState rfl
  reject _ := interference_setState rfl
  blame _ _ := interference_modify (fun _ => rfl) (fun _ => rfl) (fun _ _ => rfl)
  stamp _ _ := interference_modify (fun _ => rfl) (fun _ => rfl) (fun _ _ => rfl)
  register _ := interference_registryAdd
  enqueue _ := interference_enqueue

/-- Every section of the HTTP threads is an interference. -/
theorem http_interference : HttpChores (Interference (A := A)) where
  idle := Interference.refl
  cancel _ _ := interference_cancelToken
  pop _ _ := interference_popEvent
  trans := Interference.trans

/-- No other thread touches what the decode thread owns. -/
theorem code_interference [IKVCacheAllocator A] (d : SchedulerSetup) {t : ThreadId}
    (ht : t ≠ .decode) (l : Point) : (code d t l : Sched A Point).Always Interference :=
  others_always http_interference d ht (fun r _ => submit_interference r)
    (fun _ _ => ⟨rfl, rfl, rfl, fun _ => rfl, rfl, fun _ => rfl, fun _ => rfl, fun _ _ => rfl⟩) l

/-! ## The proof rule -/

/-- An assertion about what the decode thread owns. -/
def Steady (P : Scheduler A → Prop) : Prop := ∀ s s', P s → Interference s s' → P s'

/-- The decode thread when only its own data is at stake.  `J` is to hold after
each of its actions. -/
def soloSetup (K J : Scheduler A → Prop) : LoneSetup (Scheduler A) where
  known := K
  rely := Interference
  rely_refl := Interference.refl
  rely_trans := Interference.trans
  always := J

/-- Its contract. -/
abbrev soloContract (K J : Scheduler A → Prop) : Contract (Scheduler A) :=
  (soloSetup K J).contract

/-- A steady fact is stable while the decode thread works alone. -/
theorem Steady.stable {K J P : Scheduler A → Prop} (h : Steady P) :
    Stable (soloContract K J) P := fun s s' hs hrely _ => h s s' hs hrely

/-- Two steady facts are steady together. -/
theorem Steady.and {P Q : Scheduler A → Prop} (hP : Steady P) (hQ : Steady Q) :
    Steady (fun s => P s ∧ Q s) :=
  fun s s' h hi => ⟨hP s s' h.1 hi, hQ s s' h.2 hi⟩

/-- A proof about the decode thread alone: where it stands at its control
points, and what holds after each of its actions. -/
structure Solo [IKVCacheAllocator A] (d : SchedulerSetup) (K J : Scheduler A → Prop)
    (I : Point → Scheduler A → Prop) : Prop where
  steady : ∀ l, Steady (I l)
  steady_always : Steady J
  body : ∀ l, Triple (soloContract K J) (I l) (decodeLoop d l) I

section Run

variable [IKVCacheAllocator A] {d : SchedulerSetup} {K J : Scheduler A → Prop}
  {I : Point → Scheduler A → Prop}

/-- The decode thread alone, with the others as bystanders. -/
theorem Solo.lone (h : Solo d K J I) : Lone (code (A := A) d) .decode (soloSetup K J) I :=
  ⟨fun _ ht l => code_interference d ht l, h.steady, h.steady_always, h.body⟩

/-- **The solo rule.**  What is proved of the decode thread alone holds in
every interleaving. -/
theorem Solo.run (h : Solo d K J I) {s : Scheduler A} (hstart : I .start s) (hJ : J s)
    (schedule : List (ThreadId × Answer))
    (hK : ∀ first, first <+: schedule →
      K ((System.initial s).run (code d) first).state) :
    let w := (System.initial s).run (code d) schedule
    (AtHead w → I .start w.state) ∧ J w.state := by
  have hlone := h.lone.run (w := System.initial s) (fun _ => rfl) hstart hJ schedule hK
  exact ⟨hlone.1 .start, hlone.2⟩

end Run

end Scheduler

end Qwen
