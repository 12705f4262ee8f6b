import WinInference.Scheduler.Accounting
import WinInference.Scheduler.Headroom

/-!
# Many equal requests at once

What the router charges when requests of one context length come in together.
The admission check of each looks at an empty device, since memory is charged
at prefill and not at submission, and the router of a single device never turns
a request away.  So all of them are prefilled, and `used_memory` grows by one
estimate for each, modulo 2^64.

`batch_active` says so of every batch that the queue, the active list and the
allocator can hold.  The estimate is that of the full-size model, 256 KiB for a
token, whatever the allocator needs for one: with a small model the charges
pass 2^64 long before the allocator is full, and then the counter is not the
sum of the shares any more (`used_memory_wraps`).
-/

namespace Qwen

open Concurrency Concurrency.Program

namespace ContiguousKVAllocator

/-- With room and no CUDA error, an allocation succeeds and is booked. -/
theorem allocate_of_room {a : ContiguousKVAllocator} {m : MemoryStats} {maxSeqLen : Nat}
    (hwilling : a.cuda.Willing) (hstats : a.deviceStats.lookup a.config.deviceId = some m)
    (hroom : a.config.bytesForSeqLen maxSeqLen ≤ m.freeBytes) :
    ∃ handle b, a.allocate maxSeqLen = (.ok handle, b) ∧ b.config = a.config ∧
      b.deviceStats.lookup a.config.deviceId =
        some (m.charge (a.config.bytesForSeqLen maxSeqLen)) := by
  obtain ⟨c₁, hset, hrest⟩ := hwilling.setDevice a.config.deviceId
  obtain ⟨k, v, c₂, hpair, -⟩ := hrest.pair (a.config.bytesForSeqLen maxSeqLen / 2)
    (fun err => .internal ("Failed to allocate K cache: " ++ err))
    (fun err => .internal ("Failed to allocate V cache: " ++ err))
  have hcall : a.allocate maxSeqLen =
      (.ok { kCache := k, vCache := v, maxSeqLen := maxSeqLen,
             deviceId := a.config.deviceId, allocationId := a.nextAllocationId },
        { a with
          cuda := c₂
          deviceStats := chargeDevice (a.config.bytesForSeqLen maxSeqLen) a.config.deviceId
            a.deviceStats
          nextAllocationId := a.nextAllocationId + 1
          allocations := a.allocations.insert a.nextAllocationId
            (a.config.bytesForSeqLen maxSeqLen) }) := by
    unfold allocate allocateOnDevice
    simp only [hstats, gt_iff_lt, Nat.not_lt.mpr hroom, if_false, hset, hpair]
  exact ⟨_, _, hcall, rfl, by simp [chargeDevice, hstats]⟩

end ContiguousKVAllocator

namespace GPURouter

/-- A router over one device, with this budget for it. -/
structure Sole (g : GPURouter) (b : GPUBudget) : Prop where
  devices : g.deviceManager.devices = [b.deviceId]
  budgets : g.budgets = [b]

namespace Sole

variable {g : GPURouter} {b : GPUBudget}

/-- One device is never split over. -/
theorem recommendStrategy (h : g.Sole b) (contextLength : Nat) :
    g.deviceManager.recommendStrategy contextLength = .perRequest := by
  simp [DeviceManager.recommendStrategy, h.devices]

/-- Every request goes to the one device. -/
theorem route (h : g.Sole b) (contextLength : Nat) :
    (g.route contextLength).1 =
        { strategy := .perRequest, deviceIds := [b.deviceId], requiresNccl := false } ∧
      (g.route contextLength).2.Sole b := by
  have hfallback : g.deviceManager.selectDevice.1 = b.deviceId := by
    simp [DeviceManager.selectDevice, h.devices, Nat.mod_one]
  have hkept : g.deviceManager.selectDevice.2.devices = [b.deviceId] := by
    simp [DeviceManager.selectDevice, h.devices]
  have hbest : bestDevice b.deviceId g.budgets = b.deviceId := by
    rw [h.budgets, bestDevice, List.foldl_cons, List.foldl_nil]
    split <;> rfl
  unfold GPURouter.route
  rw [h.recommendStrategy]
  exact ⟨by simp [hfallback, hbest], hkept, h.budgets⟩

/-- Reserved and committed, an estimate ends up in the used memory. -/
theorem charged (h : g.Sole b) (hreserved : b.reservedMemory = 0) {bytes : Nat}
    (hbytes : bytes < 2 ^ 64) (requiresNccl : Bool) :
    ((g.reserve ⟨.perRequest, [b.deviceId], requiresNccl⟩ bytes).commit
      ⟨.perRequest, [b.deviceId], requiresNccl⟩ bytes).Sole
        { b with usedMemory := sizeAdd b.usedMemory bytes } := by
  have hback : sizeSub (sizeAdd 0 bytes) bytes = 0 := by
    unfold sizeAdd sizeSub
    rw [Wrapping.add_of_lt (by omega), Wrapping.sub_of_le (by omega) (by omega)]
    omega
  refine ⟨h.devices, ?_⟩
  simp [reserve, commit, h.budgets, updateBudgets, updateBudget, decisionShare,
    GPUBudget.reserve, GPUBudget.commit, hreserved, hback]

/-- An unused device has room for what it can hold. -/
theorem canPlace (h : g.Sole b) (hused : b.usedMemory = 0) (hreserved : b.reservedMemory = 0)
    (htotal : b.totalMemory < 2 ^ 64) {bytes : Nat} (hfits : bytes ≤ b.totalMemory)
    (contextLength perDeviceBytes : Nat) : g.canPlace contextLength bytes perDeviceBytes := by
  have havailable : b.available = b.totalMemory := by
    have heq := GPUBudget.available_eq (b := b) (by omega) htotal
    omega
  simp [GPURouter.canPlace, h.recommendStrategy, h.budgets, GPUBudget.canFit, havailable, hfits]

end Sole

end GPURouter

/-- A request that nobody cancelled, due no sooner than now, without a token yet
and with more than one to generate. -/
structure PlainRequest (q : Request) : Prop where
  uncancelled : q.isCancelled = false
  queueTime : timedOut q.timing.queueDeadline 0 = false
  requestTime : timedOut q.timing.requestDeadline 0 = false
  decodeTime : timedOut q.timing.decodeDeadline 0 = false
  tokens : q.outputTokens = []
  limit : 1 < q.maxTokens
  noSequences : q.stopSequences = []

/-- A server over one device, and requests of one context length that it can
hold together. -/
structure Batch where
  setup : SchedulerSetup
  allocator : ContiguousKVAllocator
  router : GPURouter
  requests : RequestPtr → Request
  size : Nat
  contextLength : Nat
  budget : GPUBudget
  memory : MemoryStats
  queue : size ≤ setup.config.maxQueueSize
  slots : size ≤ setup.config.maxActiveRequests
  goesOn : StopChecker.stopTokenAt setup.tokenizer [0] [] = none
  sole : router.Sole budget
  unused : budget.usedMemory = 0
  unreserved : budget.reservedMemory = 0
  total : budget.totalMemory < 2 ^ 64
  fits : estimateKvMemory contextLength ≤ budget.totalMemory
  stats : allocator.deviceStats.lookup allocator.config.deviceId = some memory
  room : size * allocator.config.bytesForSeqLen contextLength ≤ memory.freeBytes
  free : memory.freeBytes < 2 ^ 64
  context : ∀ r, (requests r).contextLength = contextLength
  plain : ∀ r, PlainRequest (requests r)

namespace Batch

variable (b : Batch)

/-- The budget after `k` requests. -/
def charged (k : Nat) : GPUBudget :=
  { b.budget with usedMemory := k * estimateKvMemory b.contextLength % 2 ^ 64 }

/-- At first nothing is charged. -/
theorem charged_zero : b.charged 0 = b.budget := by
  have hused := b.unused
  have hreserved := b.unreserved
  rcases hbudget : b.budget with ⟨device, total, used, reserved⟩
  simp_all [charged]

/-- One estimate more is one `size_t` addition more. -/
theorem charged_succ (k : Nat) :
    b.charged (k + 1) =
      { b.charged k with
        usedMemory := sizeAdd (b.charged k).usedMemory (estimateKvMemory b.contextLength) } := by
  have hsum : sizeAdd (k * estimateKvMemory b.contextLength % 2 ^ 64)
      (estimateKvMemory b.contextLength) =
      (k + 1) * estimateKvMemory b.contextLength % 2 ^ 64 := by
    rw [sizeAdd, Wrapping.add, Nat.mod_add_mod, Nat.succ_mul]
  rw [charged, charged, hsum]

/-- Only the used memory of a budget is charged. -/
theorem kept_usedMemory (budget : GPUBudget) (used : Nat) :
    { budget with usedMemory := used }.deviceId = budget.deviceId ∧
      { budget with usedMemory := used }.reservedMemory = budget.reservedMemory :=
  ⟨rfl, rfl⟩

/-- The device stays the same. -/
theorem charged_deviceId (k : Nat) : (b.charged k).deviceId = b.budget.deviceId :=
  (kept_usedMemory b.budget _).1

/-- Nothing is reserved. -/
theorem charged_reservedMemory (k : Nat) : (b.charged k).reservedMemory = 0 :=
  (kept_usedMemory b.budget _).2.trans b.unreserved

/-- The memory books after `k` requests. -/
structure Books (k : Nat) (g : GPURouter) (a : ContiguousKVAllocator) : Prop where
  sole : g.Sole (b.charged k)
  config : a.config = b.allocator.config
  memory : ∃ m, a.deviceStats.lookup a.config.deviceId = some m ∧
    m.freeBytes + k * b.allocator.config.bytesForSeqLen b.contextLength = b.memory.freeBytes

/-- The books of a server that was just started. -/
theorem books_zero : b.Books 0 b.router b.allocator :=
  ⟨by rw [b.charged_zero]; exact b.sole, rfl, b.memory, b.stats, by omega⟩

variable {b} {k : Nat} {g : GPURouter} {a : ContiguousKVAllocator}

/-- One request more is routed, allocated and charged. -/
theorem Books.place (h : b.Books k g a) (hk : k < b.size) :
    ∃ g' handle a', g.route b.contextLength =
        (⟨.perRequest, [b.budget.deviceId], false⟩, g') ∧
      (a.withAnswers []).allocate b.contextLength = (.ok handle, a') ∧
      b.Books (k + 1)
        ((g'.reserve ⟨.perRequest, [b.budget.deviceId], false⟩
          (estimateKvMemory b.contextLength)).commit ⟨.perRequest, [b.budget.deviceId], false⟩
          (estimateKvMemory b.contextLength)) a' := by
  obtain ⟨m, hm, hfree⟩ := h.memory
  obtain ⟨hdecision, hrouted⟩ := h.sole.route b.contextLength
  rw [b.charged_deviceId] at hdecision
  have hall := b.room
  have hlt := b.free
  have hmore : (k + 1) * b.allocator.config.bytesForSeqLen b.contextLength ≤
      b.size * b.allocator.config.bytesForSeqLen b.contextLength :=
    Nat.mul_le_mul_right _ hk
  rw [Nat.succ_mul] at hmore
  have hroom : a.config.bytesForSeqLen b.contextLength ≤ m.freeBytes := by
    rw [h.config]
    omega
  obtain ⟨handle, a', hcall, hconfig, hbooked⟩ :=
    ContiguousKVAllocator.allocate_of_room (a := a.withAnswers [])
      (by simp [Cuda.Willing, ContiguousKVAllocator.withAnswers, Cuda.withAnswers]) hm hroom
  have hconfig' : a'.config = b.allocator.config := hconfig.trans h.config
  rw [← hconfig] at hbooked
  refine ⟨_, handle, a', Prod.ext hdecision rfl, hcall, ?_, hconfig', _, hbooked, ?_⟩
  · rw [b.charged_succ, ← b.charged_deviceId k]
    exact hrouted.charged (b.charged_reservedMemory k) (estimateKvMemory_lt _) false
  · have hleft : sizeSub m.freeBytes (b.allocator.config.bytesForSeqLen b.contextLength) =
        m.freeBytes - b.allocator.config.bytesForSeqLen b.contextLength :=
      Wrapping.sub_of_le (by omega) (by omega)
    rw [hconfig']
    simp only [MemoryStats.charge, hleft, Nat.succ_mul]
    omega

end Batch

namespace Scheduler

/-- A deadline that is set now has not passed. -/
theorem timedOut_deadlineAfter (sec : Nat) : timedOut (deadlineAfter 0 sec) 0 = false := by
  unfold deadlineAfter
  split <;> simp [timedOut]

section Steps

variable {s : Scheduler ContiguousKVAllocator} {r : RequestPtr}

/-- What a successful placement leaves. -/
theorem place_succeeds {i : Answer} {g g' : GPURouter} {decision : RoutingDecision}
    {handle : KVCacheHandle} {a : ContiguousKVAllocator} (hg : s.gpuRouter = some g)
    (hroute : g.route (s.requests r).contextLength = (decision, g'))
    (hcall : s.callAllocator i r (some decision) = (.ok handle, a)) :
    (place r).exec i s = (.ok (),
      { s.modify r (fun q => { q with assignedDevices := decision.deviceIds, kvCache := handle })
        with
        kvAllocator := a
        gpuRouter := some ((g'.reserve decision (s.estimatedBytes r)).commit decision
          (s.estimatedBytes r))
        trace := s.trace ++ [.routed r (s.requests r).contextLength g,
          .reserved r decision (s.estimatedBytes r) g', .committed r] }) := by
  unfold callAllocator at hcall
  dsimp only at hcall
  simp only [place, exec_bind, exec_atomic, exec_update, routeRequest, hg, hroute, reserveBudget,
    log, modify, estimatedBytes, Function.update_self, allocateFor, callAllocator]
  simp only [Request.contextLength] at hcall ⊢
  rw [hcall]
  simp [commitBudget, log, estimatedBytes, Request.contextLength]

/-- The deadlines of a request that was prefilled just now. -/
def decodingTiming (d : SchedulerSetup) (timing : RequestTiming) : RequestTiming :=
  if d.config.decodeTimeoutSec > 0 then
    { timing with decodeDeadline := deadlineAfter 0 d.config.decodeTimeoutSec }
  else timing

/-- None of them has passed. -/
theorem timedOut_decodingTiming (d : SchedulerSetup) {timing : RequestTiming}
    (hqueue : timedOut timing.queueDeadline 0 = false)
    (hrequest : timedOut timing.requestDeadline 0 = false)
    (hdecode : timedOut timing.decodeDeadline 0 = false) :
    timedOut (decodingTiming d timing).queueDeadline 0 = false ∧
      timedOut (decodingTiming d timing).requestDeadline 0 = false ∧
      timedOut (decodingTiming d timing).decodeDeadline 0 = false := by
  unfold decodingTiming
  split
  · exact ⟨hqueue, hrequest, timedOut_deadlineAfter _⟩
  · exact ⟨hqueue, hrequest, hdecode⟩

/-- What taking up a request leaves, when nothing fails. -/
theorem startRequest_exec (d : SchedulerSetup) {g g' : GPURouter} {decision : RoutingDecision}
    {handle : KVCacheHandle} {a : ContiguousKVAllocator} (hg : s.gpuRouter = some g)
    (hroute : g.route (s.requests r).contextLength = (decision, g'))
    (hcall : s.callAllocator {} r (some decision) = (.ok handle, a))
    (hqueue : timedOut (s.requests r).timing.queueDeadline 0 = false)
    (hrequest : timedOut (s.requests r).timing.requestDeadline 0 = false) :
    (startRequest d r).exec {} s = ((),
      { s.modify r (fun q =>
          { q with
            state := .decoding
            assignedDevices := decision.deviceIds
            prefillLogits := { data := [0], vocabSize := 1 }
            kvCache := { handle with currentLen := q.inputTokens.length }
            timing := decodingTiming d q.timing }) with
        kvAllocator := a
        gpuRouter := some ((g'.reserve decision (s.estimatedBytes r)).commit decision
          (s.estimatedBytes r))
        activeRequests := s.activeRequests ++ [r]
        requestsActive := s.requestsActive + 1
        trace := s.trace ++ [.routed r (s.requests r).contextLength g,
          .reserved r decision (s.estimatedBytes r) g', .committed r] }) := by
  let s₁ : Scheduler ContiguousKVAllocator :=
    { s.modify r (fun q => { q with state := .prefilling }) with
      requestsActive := s.requestsActive + 1 }
  have hself : s₁.requests r = { s.requests r with state := .prefilling } := by
    simp [s₁, modify]
  have hroute₁ : g.route (s₁.requests r).contextLength = (decision, g') := by
    rw [hself]
    exact hroute
  have hcall₁ : s₁.callAllocator {} r (some decision) = (.ok handle, a) := by
    rw [← hcall, callAllocator, callAllocator, hself]
    rfl
  have hplace := place_succeeds (show s₁.gpuRouter = some g from hg) hroute₁ hcall₁
  simp only [s₁, modify, Function.update_self, Function.update_idem, estimatedBytes] at hplace
  simp only [startRequest, exec_bind, exec_atomic, exec_update, exec_ret, hqueue, hrequest,
    Bool.false_eq_true, if_false, runPrefill, setState, modify, Function.update_self,
    Function.update_idem, hplace, callPrefill, pure_eq, decodingTiming, estimatedBytes]
  split <;> simp [Request.contextLength]

/-- A request after its first token. -/
def started (d : SchedulerSetup) (q : Request) : Request :=
  { q with
    prefillLogits := { q.prefillLogits with data := [] }
    outputTokens := [0]
    outputText := q.outputText ++ d.tokenizer.tokenText 0
    kvCache := { q.kvCache with currentLen := sizeAdd q.kvCache.currentLen 1 }
    tokenQueue := q.tokenQueue.map
      (fun t => (t.push (.token 0 (d.tokenizer.tokenText 0))).2) }

/-- The first decode step of a request that goes on. -/
theorem decodeRequest_exec (d : SchedulerSetup)
    (hgoes : StopChecker.stopTokenAt d.tokenizer [0] [] = none)
    (h : PlainRequest (s.requests r))
    (hlogits : (s.requests r).prefillLogits.data.isEmpty = false) :
    (decodeRequest d r).exec {} s = ((), s.modify r (started d)) := by
  have hlimit : ¬ (s.requests r).maxTokens ≤ toInt32 (([(0 : Int)]).length : Int) := by
    have hone : toInt32 (([(0 : Int)]).length : Int) = 1 := rfl
    have hmore := h.limit
    omega
  have hcheck : ∀ text, StopChecker.check d.tokenizer [0] text
      { stopSequences := (s.requests r).stopSequences, maxTokens := (s.requests r).maxTokens } =
        {} := by
    intro text
    rw [StopChecker.check, if_neg fun hstop => hlimit hstop.2]
    simp [hgoes, h.noSequences]
  simp only [decodeRequest, exec_bind, exec_read, exec_atomic, exec_update, exec_ret,
    h.uncancelled, h.decodeTime, h.requestTime, Bool.false_eq_true, if_false, runDecodeStep,
    nextLogits, h.tokens, List.isEmpty_nil, if_true, takePrefillLogits, hlogits, sampleToken,
    appendToken, pure_eq, emitToken, checkStopAndContinue, pushEvent, modify,
    Function.update_self, Function.update_idem, List.nil_append, hcheck]
  rfl

/-- A submit call that finds room pushes the request. -/
theorem submit_exec (d : SchedulerSetup) {g : GPURouter} (hrunning : s.running = true)
    (hqueue : s.pendingQueue.length < d.config.maxQueueSize) (hg : s.gpuRouter = some g)
    (hplace : ∀ bytesPerDevice, g.canPlace (s.requests r).contextLength
      (estimateKvMemory (s.requests r).contextLength) bytesPerDevice = true)
    (hallocate : IKVCacheAllocator.canAllocate s.kvAllocator (s.requests r).contextLength = true) :
    (code d (.submit r) .start).exec {} s = (.returned (.ok ()),
      ((s.registryAdd r).modify r (fun q =>
        { q with state := .queued, timing := submitTiming d 0 })).enqueue r) := by
  have hroom : ¬ s.pendingQueue.length ≥ d.config.maxQueueSize := Nat.not_le.mpr hqueue
  simp only [code, submit, admitRequest, admitMemory, accept, setState, exec_bind, exec_read,
    exec_atomic, exec_update, exec_ret, hrunning, if_true, hroom, decide_false,
    Bool.false_eq_true, if_false, hg, hplace, hallocate, pure_eq, modify, Function.update_self,
    Function.update_idem]

end Steps

end Scheduler

/-! ## The batch, one body of a thread after the other -/

namespace Batch

open Scheduler

variable (b : Batch)

/-- `k` requests are active, `pending` waits. -/
structure Serving (k : Nat) (pending : List RequestPtr)
    (s : Scheduler ContiguousKVAllocator) : Prop where
  running : s.running = true
  pending : s.pendingQueue = pending
  active : s.activeRequests = List.range k
  books : ∃ g, s.gpuRouter = some g ∧ b.Books k g s.kvAllocator
  context : ∀ r, (s.requests r).contextLength = b.contextLength
  plain : ∀ r, PlainRequest (s.requests r)
  assigned : ∀ r < k, (s.requests r).assignedDevices = [b.budget.deviceId]
  logits : ∀ r < k, (s.requests r).prefillLogits.data.isEmpty = false

variable {b} {k : Nat} {pending rest : List RequestPtr} {s : Scheduler ContiguousKVAllocator}

/-- At first nothing waits and nothing is active. -/
theorem serving_create :
    b.Serving 0 [] (create b.allocator (some b.router) b.requests) where
  running := rfl
  pending := rfl
  active := rfl
  books := ⟨b.router, rfl, b.books_zero⟩
  context := b.context
  plain := b.plain
  assigned r h := absurd h (Nat.not_lt_zero r)
  logits r h := absurd h (Nat.not_lt_zero r)

/-- The call of one more request finds room and pushes it. -/
theorem Serving.submit (h : b.Serving 0 pending s) (hroom : pending.length < b.size)
    (r : RequestPtr) :
    ∃ s', (code b.setup (.submit r) .start).exec {} s = (.returned (.ok ()), s') ∧
      b.Serving 0 (pending ++ [r]) s' := by
  obtain ⟨g, hg, hbooks⟩ := h.books
  obtain ⟨m, hm, hfree⟩ := hbooks.memory
  have hsole : g.Sole b.budget := b.charged_zero ▸ hbooks.sole
  have hallocate :
      IKVCacheAllocator.canAllocate s.kvAllocator (s.requests r).contextLength = true := by
    have hone : b.allocator.config.bytesForSeqLen b.contextLength ≤
        b.size * b.allocator.config.bytesForSeqLen b.contextLength :=
      Nat.le_mul_of_pos_left _ (by omega)
    have hall := b.room
    simp only [IKVCacheAllocator.canAllocate, ContiguousKVAllocator.canAllocate, hm, h.context,
      hbooks.config, decide_eq_true_eq]
    omega
  have hplace : ∀ bytesPerDevice, g.canPlace (s.requests r).contextLength
      (estimateKvMemory (s.requests r).contextLength) bytesPerDevice = true := by
    intro bytesPerDevice
    rw [h.context]
    exact hsole.canPlace b.unused b.unreserved b.total b.fits _ _
  have hqueue : s.pendingQueue.length < b.setup.config.maxQueueSize := by
    have hsize := b.queue
    rw [h.pending]
    omega
  refine ⟨_, submit_exec b.setup h.running hqueue hg hplace hallocate, ?_⟩
  constructor
  · exact h.running
  · exact congrArg (· ++ [r]) h.pending
  · exact h.active
  · exact ⟨g, hg, hbooks⟩
  · exact (Function.forall_update_iff s.requests
      fun _ q => q.contextLength = b.contextLength).mpr ⟨h.context r, fun q _ => h.context q⟩
  · refine (Function.forall_update_iff s.requests fun _ => PlainRequest).mpr
      ⟨?_, fun q _ => h.plain q⟩
    exact ⟨(h.plain r).uncancelled, timedOut_deadlineAfter _, timedOut_deadlineAfter _, rfl,
      (h.plain r).tokens, (h.plain r).limit, (h.plain r).noSequences⟩
  · exact fun q hq => absurd hq (Nat.not_lt_zero q)
  · exact fun q hq => absurd hq (Nat.not_lt_zero q)

/-- The decode thread takes up the next request. -/
theorem Serving.takeUp (h : b.Serving k (k :: rest) s) (hk : k < b.size) :
    ∃ s', (code b.setup .decode .processQueue).exec {} s = (.processQueue, s') ∧
      b.Serving (k + 1) rest s' := by
  obtain ⟨g, hg, hbooks⟩ := h.books
  obtain ⟨g', handle, a, hroute, hcall, hplaced⟩ := hbooks.place hk
  have hroom : ¬ (List.range k).length ≥ b.setup.config.maxActiveRequests := by
    have hslots := b.slots
    rw [List.length_range, ge_iff_le]
    omega
  have hdequeue : s.dequeue b.setup.config.maxActiveRequests =
      (some k, { s with pendingQueue := rest }.log (.dequeued k)) := by
    simp only [dequeue, h.pending, h.active, hroom, if_false]
  have hwanted : ({ s with pendingQueue := rest }.log (.dequeued k)).callAllocator {} k
      (some ⟨.perRequest, [b.budget.deviceId], false⟩) = (.ok handle, a) := by
    have hcontext := h.context k
    simp [callAllocator, log, wantsTensorParallel, hcontext, hcall, IKVCacheAllocator.allocate]
  have hk' := h.plain k
  have hstart := startRequest_exec b.setup (s := { s with pendingQueue := rest }.log (.dequeued k))
    (r := k) (show _ = some g from hg)
    (show g.route (s.requests k).contextLength = (_, g') from (h.context k).symm ▸ hroute) hwanted
    hk'.queueTime hk'.requestTime
  have hbody : (code b.setup .decode .processQueue).exec {} s =
      (.processQueue, ((startRequest b.setup k).exec {}
        ({ s with pendingQueue := rest }.log (.dequeued k))).2) := by
    simp only [code, decodeLoop, exec_bind, exec_atomic, hdequeue, exec_ret, pure_eq]
  refine ⟨_, hbody, ?_⟩
  rw [hstart]
  have hbytes : Scheduler.estimatedBytes ({ s with pendingQueue := rest }.log (.dequeued k)) k =
      estimateKvMemory b.contextLength :=
    congrArg estimateKvMemory (h.context k)
  have hbelow : ∀ q, q ≠ k → q < k + 1 → q < k :=
    fun q hne hq => Nat.lt_of_le_of_ne (Nat.le_of_lt_succ hq) hne
  constructor
  · exact h.running
  · rfl
  · simp [log, h.active, List.range_succ]
  · exact ⟨_, rfl, by rw [hbytes]; exact hplaced⟩
  · exact (Function.forall_update_iff s.requests
      fun _ q => q.contextLength = b.contextLength).mpr ⟨h.context k, fun q _ => h.context q⟩
  · refine (Function.forall_update_iff s.requests fun _ => PlainRequest).mpr
      ⟨?_, fun q _ => h.plain q⟩
    obtain ⟨hqueueTime, hrequestTime, hdecodeTime⟩ :=
      timedOut_decodingTiming b.setup hk'.queueTime hk'.requestTime hk'.decodeTime
    exact ⟨hk'.uncancelled, hqueueTime, hrequestTime, hdecodeTime, hk'.tokens, hk'.limit,
      hk'.noSequences⟩
  · exact (Function.forall_update_iff s.requests fun q request => q < k + 1 →
      request.assignedDevices = [b.budget.deviceId]).mpr
      ⟨fun _ => rfl, fun q hne hq => h.assigned q (hbelow q hne hq)⟩
  · exact (Function.forall_update_iff s.requests fun q request => q < k + 1 →
      request.prefillLogits.data.isEmpty = false).mpr
      ⟨fun _ => rfl, fun q hne hq => h.logits q (hbelow q hne hq)⟩

variable (b) in
/-- The whole batch is active, and `rest` has its first token to come. -/
structure Decoding (rest : List RequestPtr) (s : Scheduler ContiguousKVAllocator) : Prop where
  active : s.activeRequests = List.range b.size
  books : ∃ g, s.gpuRouter = some g ∧ b.Books b.size g s.kvAllocator
  context : ∀ r, (s.requests r).contextLength = b.contextLength
  assigned : ∀ r < b.size, (s.requests r).assignedDevices = [b.budget.deviceId]
  distinct : rest.Nodup
  plain : ∀ r ∈ rest, PlainRequest (s.requests r)
  logits : ∀ r ∈ rest, (s.requests r).prefillLogits.data.isEmpty = false

/-- After the last prefill, the first round is still to come. -/
theorem Serving.decoding (h : b.Serving b.size [] s) : b.Decoding (List.range b.size) s where
  active := h.active
  books := h.books
  context := h.context
  assigned := h.assigned
  distinct := List.nodup_range
  plain r _ := h.plain r
  logits r hr := h.logits r (List.mem_range.mp hr)

/-- The next request gets its first token and stays. -/
theorem Decoding.decode {r : RequestPtr} (h : b.Decoding (r :: rest) s) :
    ∃ s', (code b.setup .decode (.decodeEach (r :: rest))).exec {} s =
        (.decodeEach rest, s') ∧ b.Decoding rest s' := by
  have hstep := decodeRequest_exec b.setup b.goesOn (h.plain r List.mem_cons_self)
    (h.logits r List.mem_cons_self)
  obtain ⟨hnotin, hdistinct⟩ := List.nodup_cons.mp h.distinct
  have hbody : (code b.setup .decode (.decodeEach (r :: rest))).exec {} s =
      (.decodeEach rest, s.modify r (started b.setup)) := by
    simp only [code, decodeLoop, exec_bind, hstep, exec_ret, pure_eq]
  have hkept : ∀ q ∈ rest, (s.modify r (started b.setup)).requests q = s.requests q :=
    fun q hq => requests_modify_of_ne s _ fun heq => hnotin (heq ▸ hq)
  refine ⟨_, hbody, h.active, h.books, fun q => ?_, fun q hq => ?_, hdistinct, fun q hq => ?_,
    fun q hq => ?_⟩
  · rw [requests_modify_field s r q (f := started b.setup) Request.contextLength fun _ => rfl]
    exact h.context q
  · rw [requests_modify_field s r q (f := started b.setup) Request.assignedDevices fun _ => rfl]
    exact h.assigned q hq
  · rw [hkept q hq]
    exact h.plain q (List.mem_cons_of_mem r hq)
  · rw [hkept q hq]
    exact h.logits q (List.mem_cons_of_mem r hq)

/-! ## The batch, from the first submission to the first round -/

variable (b) in
/-- The server before anything was submitted. -/
def server : System ContiguousKVAllocator :=
  System.initial (create b.allocator (some b.router) b.requests)

/-- The requests are submitted one after the other. -/
theorem reaches_submitted (hk : k ≤ b.size) :
    ∃ w, Pool.Reaches (code b.setup) b.server w ∧ w.threads .decode = .ret .start ∧
      (∀ r, k ≤ r → w.threads (.submit r) = .ret .start) ∧
      b.Serving 0 (List.range k) w.state := by
  induction k with
  | zero => exact ⟨b.server, Pool.Reaches.refl _ _, rfl, fun _ _ => rfl, serving_create⟩
  | succ k ih =>
      obtain ⟨w, hreaches, hdecode, hwaiting, hserving⟩ := ih (by omega)
      obtain ⟨s, hbody, hpushed⟩ := hserving.submit (by rw [List.length_range]; omega) k
      obtain ⟨w', hmore, hstate, -, hothers⟩ :=
        Pool.reaches_body (hwaiting k (Nat.le_refl k)) hbody
      refine ⟨w', hreaches.trans hmore, ?_, fun r hr => ?_, ?_⟩
      · rw [hothers .decode nofun, hdecode]
      · have hne : ThreadId.submit r ≠ .submit k := by
          rintro ⟨⟩
          exact Nat.not_succ_le_self k hr
        rw [hothers (.submit r) hne, hwaiting r (Nat.le_of_succ_le hr)]
      · rw [hstate, List.range_succ]
        exact hpushed

/-- The decode thread takes them up, in the same order. -/
theorem reaches_serving (hk : k ≤ b.size) :
    ∃ w, Pool.Reaches (code b.setup) b.server w ∧ w.threads .decode = .ret .processQueue ∧
      b.Serving k (List.range' k (b.size - k)) w.state := by
  induction k with
  | zero =>
      obtain ⟨w, hreaches, hdecode, -, hserving⟩ := reaches_submitted (Nat.le_refl b.size)
      have hbody : (code b.setup .decode .start).exec {} w.state =
          (.processQueue, { w.state with decodeThreadExited := false }) := by
        simp only [code, decodeLoop, exec_bind, exec_atomic, hserving.running, if_true, exec_ret,
          pure_eq, Bool.not_true]
      obtain ⟨w', hmore, hstate, hthread, -⟩ := Pool.reaches_body hdecode hbody
      refine ⟨w', hreaches.trans hmore, hthread, ?_⟩
      rw [hstate, Nat.sub_zero, ← List.range_eq_range']
      exact { hserving with }
  | succ k ih =>
      obtain ⟨w, hreaches, hdecode, hserving⟩ := ih (by omega)
      obtain ⟨m, hm⟩ : ∃ m, b.size - k = m + 1 := ⟨b.size - k - 1, by omega⟩
      rw [hm, List.range'_succ] at hserving
      obtain ⟨s, hbody, htaken⟩ := hserving.takeUp (by omega)
      obtain ⟨w', hmore, hstate, hthread, -⟩ := Pool.reaches_body hdecode hbody
      refine ⟨w', hreaches.trans hmore, hthread, ?_⟩
      have hleft : b.size - (k + 1) = m := by omega
      rw [hstate, hleft]
      exact htaken

/-- One round of the decode loop gives each its first token. -/
theorem reaches_decoded {w : System ContiguousKVAllocator}
    (hthread : w.threads .decode = .ret (.decodeEach rest)) (h : b.Decoding rest w.state) :
    ∃ w', Pool.Reaches (code b.setup) w w' ∧ AtHead w' ∧ b.Decoding [] w'.state := by
  induction rest generalizing w with
  | nil =>
      have hbody : (code b.setup .decode (.decodeEach [])).exec {} w.state =
          (.start, w.state) := rfl
      obtain ⟨w', hmore, hstate, hhead, -⟩ := Pool.reaches_body hthread hbody
      exact ⟨w', hmore, hhead, by rw [hstate]; exact h⟩
  | cons r rest ih =>
      obtain ⟨s, hbody, hdecoded⟩ := h.decode
      obtain ⟨w', hmore, hstate, hthread', -⟩ := Pool.reaches_body hthread hbody
      obtain ⟨w'', hrest, hhead, hall⟩ := ih hthread' (by rw [hstate]; exact hdecoded)
      exact ⟨w'', hmore.trans hrest, hhead, hall⟩

/-- The whole batch is active at a head of the decode loop. -/
theorem reaches_active (b : Batch) :
    ∃ w, Pool.Reaches (code b.setup) b.server w ∧ AtHead w ∧ b.Decoding [] w.state := by
  obtain ⟨w, hreaches, hdecode, hserving⟩ := b.reaches_serving (Nat.le_refl b.size)
  rw [Nat.sub_self] at hserving
  have hleave : (code b.setup .decode .processQueue).exec {} w.state =
      (.copyActive, w.state) := by
    simp [code, decodeLoop, dequeue, hserving.pending]
  obtain ⟨w₁, hmore₁, hstate₁, hthread₁, -⟩ := Pool.reaches_body hdecode hleave
  rw [← hstate₁] at hserving
  by_cases hnone : b.size = 0
  · have hcopy : (code b.setup .decode .copyActive).exec {} w₁.state = (.start, w₁.state) := by
      simp [code, decodeLoop, hserving.active, hnone]
    obtain ⟨w₂, hmore₂, hstate₂, hhead, -⟩ := Pool.reaches_body hthread₁ hcopy
    refine ⟨w₂, (hreaches.trans hmore₁).trans hmore₂, hhead, ?_⟩
    have hdecoding := hserving.decoding
    rw [hnone] at hdecoding
    rw [hstate₂]
    exact hdecoding
  · have hcopy : (code b.setup .decode .copyActive).exec {} w₁.state =
        (.decodeEach (List.range b.size), w₁.state) := by
      simp [code, decodeLoop, hserving.active, hnone]
    obtain ⟨w₂, hmore₂, hstate₂, hthread₂, -⟩ := Pool.reaches_body hthread₁ hcopy
    rw [← hstate₂] at hserving
    obtain ⟨w₃, hmore₃, hhead, hdecoded⟩ := reaches_decoded hthread₂ hserving.decoding
    exact ⟨w₃, ((hreaches.trans hmore₁).trans hmore₂).trans hmore₃, hhead, hdecoded⟩

/-- Every request is assigned to the device, and every share is the estimate. -/
theorem Decoding.assignedShare (h : b.Decoding rest s) :
    s.assignedShare b.budget.deviceId = b.size * estimateKvMemory b.contextLength := by
  have hall : ∀ r ∈ List.range b.size,
      decide (b.budget.deviceId ∈ (s.requests r).assignedDevices) = true := by
    intro r hr
    rw [h.assigned r (List.mem_range.mp hr)]
    simp
  have hshare : ∀ r ∈ List.range b.size,
      GPURouter.deviceShare (s.requests r).assignedDevices (s.estimatedBytes r) =
        estimateKvMemory b.contextLength := by
    intro r hr
    rw [h.assigned r (List.mem_range.mp hr), estimatedBytes, h.context r,
      GPURouter.deviceShare, if_neg (by simp)]
  rw [Scheduler.assignedShare, h.active, List.filter_eq_self.mpr hall,
    List.map_congr_left hshare]
  simp

/-- **Equal requests at once.**  All requests of a batch can be active at the
same time, whatever the budget of the device; the router has then charged one
estimate for each, modulo 2^64. -/
theorem batch_active (b : Batch) :
    ∃ schedule, let w := b.server.run (code b.setup) schedule
      AtHead w ∧ w.state.activeRequests = List.range b.size ∧
      w.state.assignedShare b.budget.deviceId = b.size * estimateKvMemory b.contextLength ∧
      ∃ g budget, w.state.gpuRouter = some g ∧ g.getBudget b.budget.deviceId = some budget ∧
        budget.usedMemory = b.size * estimateKvMemory b.contextLength % 2 ^ 64 := by
  obtain ⟨w, ⟨schedule, rfl⟩, hhead, hdecoded⟩ := b.reaches_active
  obtain ⟨g, hg, hbooks⟩ := hdecoded.books
  refine ⟨schedule, hhead, hdecoded.active, hdecoded.assignedShare, g, b.charged b.size, hg, ?_,
    rfl⟩
  simp [GPURouter.getBudget, hbooks.sole.budgets, charged]

end Batch

/-! ## A counter that comes round -/

namespace Scheduler

/-- A model of one layer and one head of one dimension, 4 bytes for a token. -/
def smallModel : KVAllocatorConfig :=
  { numLayers := 1, numKvHeads := 1, headDim := 1, maxTotalMemory := 2 ^ 48, deviceIds := [0] }

/-- The allocator of a server with one GPU. -/
def smallAllocator : ContiguousKVAllocator where
  config := smallModel.adopted
  deviceStats := (∅ : AList (fun _ : Int => MemoryStats)).insert 0
    { totalBytes := 2 ^ 48, freeBytes := 2 ^ 48 }

/-- Its router. -/
def smallRouter : GPURouter :=
  ({ deviceManager := { devices := [0] } } : GPURouter).initializeBudgets (2 ^ 50)

/-- A request for as many tokens as its output text may be given in advance. -/
def longestRequest : Request := { id := "", inputTokens := [1], maxTokens := 2 ^ 29 - 1 }

/-- Nothing stops it before its second token. -/
theorem longestRequest_plain : PlainRequest longestRequest := by
  constructor <;> decide

/-- Its prompt counts too. -/
theorem longestRequest_contextLength : longestRequest.contextLength = 2 ^ 29 := by
  decide +kernel

/-- 2^17 of them, of 2^47 estimated bytes each. -/
def roundBatch : Batch where
  setup := { sampleSetup with config := { maxQueueSize := 2 ^ 17, maxActiveRequests := 2 ^ 17 } }
  allocator := smallAllocator
  router := smallRouter
  requests := numbered longestRequest
  size := 2 ^ 17
  contextLength := 2 ^ 29
  budget := { deviceId := 0, totalMemory := 2 ^ 50 }
  memory := { totalBytes := 2 ^ 48, freeBytes := 2 ^ 48 }
  queue := Nat.le_refl _
  slots := Nat.le_refl _
  goesOn := by decide
  sole := ⟨rfl, rfl⟩
  unused := rfl
  unreserved := rfl
  total := by decide
  fits := by decide +kernel
  stats := by decide
  room := by decide +kernel
  free := by decide
  context _ := longestRequest_contextLength
  plain _ := by
    have h := longestRequest_plain
    exact { h with }

/-- At a head of the decode loop the shares of the active requests add up to
2^64, and the router has charged nothing. -/
theorem used_memory_wraps :
    ContiguousKVAllocator.initializeAllocator smallModel (fun _ => .ok 0) =
        .ok roundBatch.allocator ∧
      roundBatch.router.Idle ∧ roundBatch.router.deviceManager.devices.Nodup ∧
      Fresh roundBatch.requests ∧ (∀ r, (roundBatch.requests r).kvCache = {}) ∧
      (∀ r, 0 < smallModel.adopted.bytesForSeqLen (roundBatch.requests r).contextLength ∧
        0 < smallModel.adopted.bytesForSeqLenPerDevice (roundBatch.requests r).contextLength) ∧
      ∃ schedule, let w := roundBatch.server.run (code roundBatch.setup) schedule
        AtHead w ∧ w.state.assignedShare 0 = 2 ^ 64 ∧
        ∃ g budget, w.state.gpuRouter = some g ∧ g.getBudget 0 = some budget ∧
          budget.usedMemory = 0 := by
  obtain ⟨schedule, hhead, -, hshare, g, budget, hg, hbudget, hused⟩ :=
    roundBatch.batch_active
  have htotal : roundBatch.size * estimateKvMemory roundBatch.contextLength = 2 ^ 64 := by
    decide +kernel
  rw [htotal] at hshare hused
  refine ⟨by rfl, GPURouter.initializeBudgets_idle _ _, by decide, numbered_fresh rfl,
    fun _ => rfl, fun r => ?_, schedule, hhead, hshare, g, budget, hg, hbudget, hused⟩
  rw [roundBatch.context r]
  decide +kernel

end Scheduler

end Qwen
