import Mathlib.Data.List.AList
import WinInference.Concurrency.Program
import WinInference.Gpu.Router
import WinInference.Scheduler.Request

/-!
# The state of the scheduler

The shared state of `Scheduler` and `RequestRegistry`, and what single atomic
actions do to it.  One action is what the code does under one lock, in one
atomic access, or between two such points on data that no other thread touches
meanwhile.

The answer of the environment to an action carries whatever that action asks
for: the clock, the CUDA runtime, the model runtime, the sampler.

`trace` is a history variable: the functions below append to it and never read
it.  `tokens_generated`, `queue_depth`, the histograms and the log are left
out, as nothing reads them back; so are the deprecated callbacks, which stand
in for the token queue of a request that has none.
-/

namespace Qwen

/-- The identity of a `Request` object. -/
abbrev RequestPtr := Nat

/-- Scheduler configuration. -/
structure SchedulerConfig where
  maxQueueSize : Nat := 100
  maxActiveRequests : Nat := 4
  queueTimeoutSec : Nat := 60
  requestTimeoutSec : Nat := 300
  decodeTimeoutSec : Nat := 0

/-- What the constructor of the scheduler is given and never changes. -/
structure SchedulerSetup where
  config : SchedulerConfig
  tokenizer : Tokenizer

/-- KV cache bytes per token: 2 * 64 layers * 8 heads * 128 * 2 bytes. -/
def kvBytesPerToken : Nat := 2 * 64 * 8 * 128 * 2

/-- `estimate_kv_memory(seq_len)`, in `size_t`. -/
def estimateKvMemory (seqLen : Nat) : Nat := sizeMul seqLen kvBytesPerToken

/-- The estimate as a function: the kernel unfolds it only under its binder. -/
theorem estimateKvMemory_eq : estimateKvMemory = fun n => sizeMul n kvBytesPerToken := rfl

theorem estimateKvMemory_lt (n : Nat) : estimateKvMemory n < 2 ^ 64 := by
  rw [congrFun estimateKvMemory_eq n]
  exact Wrapping.mul_lt 64 n kvBytesPerToken

/-- What the environment answers to one atomic action. -/
structure Answer where
  now : Nat := 0
  cuda : List (Option String) := []
  prefill : Result Logits := .ok { data := [0], vocabSize := 1 }
  decode : Result Logits := .ok { data := [0], vocabSize := 1 }
  sample : Result Int := .ok 0

/-- What a history records. -/
inductive Event where
  | registered (r : RequestPtr)
  | pushed (r : RequestPtr)
  | dequeued (r : RequestPtr)
  /-- `route` was asked, with the router as it stood -/
  | routed (r : RequestPtr) (contextLength : Nat) (router : GPURouter)
  /-- `reserve` charged a decision to the router as it stood -/
  | reserved (r : RequestPtr) (decision : RoutingDecision) (bytes : Nat)
      (router : GPURouter)
  | committed (r : RequestPtr)
  /-- `free` of the router; `wrapped` when a counter went below zero -/
  | budgetFreed (r : RequestPtr) (wrapped : Bool)
  /-- the runtime failed the prefill of a request with this cache -/
  | prefillFailed (r : RequestPtr) (handle : KVCacheHandle)
  | decodeCalled (r : RequestPtr) (inputToken currentPos : Int)
  /-- the HTTP thread took an event off the queue -/
  | popped (r : RequestPtr) (event : TokenEvent)
deriving DecidableEq

namespace Event

/-- Events that move no request between the queue, the active list and the
registry. -/
def quiet : Event → Bool
  | .registered _ | .pushed _ | .dequeued _ => false
  | _ => true

/-- The events the decode thread records. -/
def byDecode : Event → Bool
  | .registered _ | .pushed _ | .popped _ _ => false
  | _ => true

/-- The request an event is about. -/
def subject : Event → RequestPtr
  | .registered r | .pushed r | .dequeued r | .routed r _ _ | .reserved r _ _ _
  | .committed r | .budgetFreed r _ | .prefillFailed r _ | .decodeCalled r _ _
  | .popped r _ => r

end Event

/-- The shared state of the scheduler. -/
structure Scheduler (A : Type) where
  kvAllocator : A
  gpuRouter : Option GPURouter := none
  requests : RequestPtr → Request
  running : Bool := true
  decodeThreadExited : Bool := false
  pendingQueue : List RequestPtr := []
  activeRequests : List RequestPtr := []
  registry : AList (fun _ : String => RequestPtr) := ∅
  completedCount : Nat := 0
  cancelledCount : Nat := 0
  erroredCount : Nat := 0
  /-- the `inference_requests_active` gauge -/
  requestsActive : Int := 0
  trace : List Event := []

namespace Scheduler

variable {A : Type}

/-- The scheduler as constructed and started, over the `Request` objects that
will ever be submitted to it. -/
def create (kvAllocator : A) (gpuRouter : Option GPURouter)
    (requests : RequestPtr → Request) : Scheduler A :=
  { kvAllocator := kvAllocator, gpuRouter := gpuRouter, requests := requests }

/-! ## What single actions do -/

/-- Rewrite one request. -/
def modify (s : Scheduler A) (r : RequestPtr) (f : Request → Request) : Scheduler A :=
  { s with requests := Function.update s.requests r (f (s.requests r)) }

/-- Append to the history. -/
def log (s : Scheduler A) (e : Event) : Scheduler A :=
  { s with trace := s.trace ++ [e] }

/-- `RequestRegistry::add`. -/
def registryAdd (s : Scheduler A) (r : RequestPtr) : Scheduler A :=
  { s with registry := s.registry.insert (s.requests r).id r }.log (.registered r)

/-- `RequestRegistry::remove`. -/
def registryRemove (s : Scheduler A) (id : String) : Scheduler A :=
  { s with registry := s.registry.erase id }

/-- `CancellationToken::cancel`, when the request has a token. -/
def cancelToken (s : Scheduler A) (r : RequestPtr) : Scheduler A :=
  s.modify r (fun q => { q with cancelToken := q.cancelToken.map (fun _ => true) })

/-- `RequestRegistry::cancel`. -/
def registryCancel (s : Scheduler A) (id : String) : Scheduler A :=
  match s.registry.lookup id with
  | none => s
  | some r => s.cancelToken r

/-- `RequestRegistry::cancel_all`. -/
def registryCancelAll (s : Scheduler A) : Scheduler A :=
  s.registry.entries.foldl
    (fun s e => if (s.requests e.2).isTerminal then s else s.cancelToken e.2) s

/-- `pending_queue_.push`. -/
def enqueue (s : Scheduler A) (r : RequestPtr) : Scheduler A :=
  { s with pendingQueue := s.pendingQueue ++ [r] }.log (.pushed r)

/-- The head of the `process_queue` loop: leave when the queue is empty or
enough requests are active, else take the oldest request. -/
def dequeue (s : Scheduler A) (maxActiveRequests : Nat) :
    Option RequestPtr × Scheduler A :=
  match s.pendingQueue with
  | [] => (none, s)
  | r :: rest =>
      if s.activeRequests.length ≥ maxActiveRequests then (none, s)
      else (some r, { s with pendingQueue := rest }.log (.dequeued r))

/-- `active_requests_.erase(std::remove(...))`. -/
def eraseActive (s : Scheduler A) (r : RequestPtr) : Scheduler A :=
  { s with activeRequests := s.activeRequests.filter (· ≠ r) }

/-- `TokenQueue::push` on the queue of a request, if it has one. -/
def pushEvent (s : Scheduler A) (r : RequestPtr) (event : TokenEvent) : Scheduler A :=
  s.modify r (fun q => { q with tokenQueue := q.tokenQueue.map (fun t => (t.push event).2) })

/-- `TokenQueue::close` on the queue of a request, if it has one. -/
def closeQueue (s : Scheduler A) (r : RequestPtr) : Scheduler A :=
  s.modify r (fun q => { q with tokenQueue := q.tokenQueue.map TokenQueue.close })

/-- `TokenQueue::pop` by the HTTP thread. -/
def popEvent (s : Scheduler A) (r : RequestPtr) : Scheduler A :=
  match (s.requests r).tokenQueue with
  | none => s
  | some t =>
      match t.pop with
      | (none, _) => s
      | (some event, t) =>
          (s.modify r (fun q => { q with tokenQueue := some t })).log (.popped r event)

/-- `request->assigned_devices = routing.device_ids` after `route`. -/
def routeRequest (s : Scheduler A) (r : RequestPtr) :
    Option RoutingDecision × Scheduler A :=
  match s.gpuRouter with
  | none => (none, s)
  | some g =>
      let contextLength := (s.requests r).contextLength
      let (decision, router) := g.route contextLength
      (some decision,
        ({ s with gpuRouter := some router }.modify r
          (fun q => { q with assignedDevices := decision.deviceIds })).log
          (.routed r contextLength g))

/-- The size the router is charged for a request. -/
def estimatedBytes (s : Scheduler A) (r : RequestPtr) : Nat :=
  estimateKvMemory (s.requests r).contextLength

/-- `gpu_router_->reserve`, if there is a router. -/
def reserveBudget (s : Scheduler A) (r : RequestPtr) (decision : Option RoutingDecision) :
    Scheduler A :=
  match s.gpuRouter, decision with
  | some g, some decision =>
      { s with gpuRouter := some (g.reserve decision (s.estimatedBytes r)) }.log
        (.reserved r decision (s.estimatedBytes r) g)
  | _, _ => s

/-- `gpu_router_->unreserve`, if there is a router. -/
def unreserveBudget (s : Scheduler A) (r : RequestPtr) (decision : Option RoutingDecision) :
    Scheduler A :=
  match s.gpuRouter, decision with
  | some g, some decision =>
      { s with gpuRouter := some (g.unreserve decision (s.estimatedBytes r)) }
  | _, _ => s

/-- `gpu_router_->commit`, if there is a router. -/
def commitBudget (s : Scheduler A) (r : RequestPtr) (decision : Option RoutingDecision) :
    Scheduler A :=
  match s.gpuRouter, decision with
  | some g, some decision =>
      { s with gpuRouter := some (g.commit decision (s.estimatedBytes r)) }.log (.committed r)
  | _, _ => s

/-- `gpu_router_->free`, if there is a router and the request has devices. -/
def freeBudget (s : Scheduler A) (r : RequestPtr) : Scheduler A :=
  match s.gpuRouter with
  | none => s
  | some g =>
      let devices := (s.requests r).assignedDevices
      if devices.isEmpty then s
      else
        { s with gpuRouter := some (g.free devices (s.estimatedBytes r)) }.log
          (.budgetFreed r (g.freeWraps devices (s.estimatedBytes r)))

variable [IKVCacheAllocator A]

/-- The tensor-parallel branch is taken when the router decided so. -/
def wantsTensorParallel (decision : Option RoutingDecision) : Bool :=
  match decision with
  | none => false
  | some decision =>
      decision.strategy = .tensorParallel && decide (decision.deviceIds.length > 1)

/-- The call of the allocator: tensor-parallel over the decided devices, or
single-device. -/
def callAllocator (s : Scheduler A) (i : Answer) (r : RequestPtr)
    (decision : Option RoutingDecision) : Result KVCacheHandle × A :=
  let maxSeqLen := (s.requests r).contextLength
  if wantsTensorParallel decision then
    IKVCacheAllocator.allocateTensorParallel i.cuda s.kvAllocator maxSeqLen
      ((decision.map (·.deviceIds)).getD [])
  else IKVCacheAllocator.allocate i.cuda s.kvAllocator maxSeqLen

/-- Allocate the KV cache, and store the handle in the request on success. -/
def allocateFor (s : Scheduler A) (i : Answer) (r : RequestPtr)
    (decision : Option RoutingDecision) : Result Unit × Scheduler A :=
  match s.callAllocator i r decision with
  | (.error e, allocator) => (.error e, { s with kvAllocator := allocator })
  | (.ok handle, allocator) =>
      (.ok (), { s with kvAllocator := allocator }.modify r
        (fun q => { q with kvCache := handle }))

/-- `kv_allocator_->free(request->kv_cache)`. -/
def freeKvCache (s : Scheduler A) (r : RequestPtr) : Scheduler A :=
  let (handle, allocator) := IKVCacheAllocator.free s.kvAllocator (s.requests r).kvCache
  { s with kvAllocator := allocator }.modify r (fun q => { q with kvCache := handle })

/-! ## What the actions do, case by case -/

section Cases

omit [IKVCacheAllocator A]

@[simp] theorem requests_log (s : Scheduler A) (e : Event) :
    (s.log e).requests = s.requests := rfl

@[simp] theorem requests_modify_self (s : Scheduler A) (r : RequestPtr)
    (f : Request → Request) : (s.modify r f).requests r = f (s.requests r) := by
  simp [modify]

theorem requests_modify_of_ne (s : Scheduler A) {r q : RequestPtr}
    (f : Request → Request) (h : q ≠ r) :
    (s.modify r f).requests q = s.requests q := by
  simp [modify, h]

/-- A field that a rewrite leaves alone is left alone in every request. -/
theorem requests_modify_field {α : Type} (s : Scheduler A) (r q : RequestPtr)
    {f : Request → Request} (field : Request → α)
    (h : ∀ q, field (f q) = field q) :
    field ((s.modify r f).requests q) = field (s.requests q) := by
  by_cases hq : q = r
  · subst hq
    simp [h]
  · rw [requests_modify_of_ne s f hq]

theorem dequeue_cases (s : Scheduler A) (maxActive : Nat) :
    s.dequeue maxActive = (none, s) ∨
      ∃ r rest, s.pendingQueue = r :: rest ∧ s.activeRequests.length < maxActive ∧
        s.dequeue maxActive =
          (some r, { s with pendingQueue := rest }.log (.dequeued r)) := by
  cases hpend : s.pendingQueue with
  | nil => exact Or.inl (by simp [dequeue, hpend])
  | cons r rest =>
      by_cases hfull : s.activeRequests.length ≥ maxActive
      · exact Or.inl (by simp [dequeue, hpend, hfull])
      · exact Or.inr ⟨r, rest, rfl, by omega, by simp [dequeue, hpend, hfull]⟩

theorem popEvent_cases (s : Scheduler A) (r : RequestPtr) :
    s.popEvent r = s ∨
      ∃ t event rest, (s.requests r).tokenQueue = some t ∧
        t.events = event :: rest ∧
        s.popEvent r =
          (s.modify r (fun q =>
            { q with tokenQueue := some { t with events := rest } })).log
              (.popped r event) := by
  cases hqueue : (s.requests r).tokenQueue with
  | none => exact Or.inl (by simp [popEvent, hqueue])
  | some t =>
      cases hevents : t.events with
      | nil => exact Or.inl (by simp [popEvent, hqueue, TokenQueue.pop, hevents])
      | cons event rest =>
          exact Or.inr ⟨t, event, rest, rfl, hevents,
            by simp [popEvent, hqueue, TokenQueue.pop, hevents]⟩

theorem routeRequest_none {s : Scheduler A} (h : s.gpuRouter = none) (r : RequestPtr) :
    s.routeRequest r = (none, s) := by
  simp [routeRequest, h]

theorem routeRequest_some {s : Scheduler A} {g : GPURouter} (h : s.gpuRouter = some g)
    (r : RequestPtr) :
    s.routeRequest r =
      (some (g.route (s.requests r).contextLength).1,
        ({ s with gpuRouter := some (g.route (s.requests r).contextLength).2 }.modify r
          (fun q => { q with assignedDevices :=
            (g.route (s.requests r).contextLength).1.deviceIds })).log
          (.routed r (s.requests r).contextLength g)) := by
  simp [routeRequest, h]

theorem freeBudget_cases (s : Scheduler A) (r : RequestPtr) :
    (s.freeBudget r = s ∧
      (s.gpuRouter = none ∨ (s.requests r).assignedDevices = [])) ∨
      ∃ g, s.gpuRouter = some g ∧ (s.requests r).assignedDevices ≠ [] ∧
        s.freeBudget r =
          { s with gpuRouter := some (g.free (s.requests r).assignedDevices
              (s.estimatedBytes r)) }.log (.budgetFreed r
              (g.freeWraps (s.requests r).assignedDevices (s.estimatedBytes r))) := by
  cases hrouter : s.gpuRouter with
  | none => exact Or.inl ⟨by simp [freeBudget, hrouter], Or.inl rfl⟩
  | some g =>
      by_cases hdev : (s.requests r).assignedDevices = []
      · exact Or.inl ⟨by simp [freeBudget, hrouter, hdev], Or.inr hdev⟩
      · exact Or.inr ⟨g, rfl, hdev, by simp [freeBudget, hrouter, hdev]⟩

end Cases

theorem allocateFor_cases (s : Scheduler A) (i : Answer) (r : RequestPtr)
    (decision : Option RoutingDecision) :
    (∃ e a, s.callAllocator i r decision = (.error e, a) ∧
      s.allocateFor i r decision = (.error e, { s with kvAllocator := a })) ∨
    ∃ handle a, s.callAllocator i r decision = (.ok handle, a) ∧
      s.allocateFor i r decision =
        (.ok (), { s with kvAllocator := a }.modify r
          (fun q => { q with kvCache := handle })) := by
  rcases hcall : s.callAllocator i r decision with ⟨result, a⟩
  cases result with
  | error e => exact Or.inl ⟨e, a, rfl, by simp [allocateFor, hcall]⟩
  | ok handle => exact Or.inr ⟨handle, a, rfl, by simp [allocateFor, hcall]⟩

end Scheduler

end Qwen
