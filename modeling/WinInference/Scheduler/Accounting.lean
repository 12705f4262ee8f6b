import Mathlib.Algebra.Order.Group.Nat
import Mathlib.Algebra.Order.BigOperators.Group.List
import WinInference.KVCache.ContiguousLaws
import WinInference.KVCache.PooledLaws
import WinInference.Scheduler.Resources

/-!
# Nothing leaks, nothing is released twice

The balanced tally, read off at the heads of the decode loop for the two
allocators.  With the contiguous allocator nothing else is needed: `free`
invalidates every handle, so the second release after a failed prefill finds
nothing to do.  The pooled allocator leaves the `device_caches` of a
tensor-parallel handle in place, so there the runtime must not fail the prefill
of a tensor-parallel request.
-/

namespace Qwen

open Concurrency

namespace Scheduler

variable {A : Type}

/-- What the active requests assigned to a device are charged on it, one
per-device share of `estimate_kv_memory` each. -/
def assignedShare (s : Scheduler A) (d : Int) : Nat :=
  ((s.activeRequests.filter (fun r => d ∈ (s.requests r).assignedDevices)).map
    (fun r => GPURouter.deviceShare (s.requests r).assignedDevices
      (s.estimatedBytes r))).sum

section Balanced

variable [IKVCacheAllocator A] {T : TallySetup A} {s : Scheduler A}

/-- When the router's devices are distinct, each is charged once. -/
theorem Balanced.chargeSum_eq (h : Balanced T s) (hnodup : T.devices.Nodup) (d : Int) :
    s.chargeSum s.activeRequests d = s.assignedShare d := by
  rw [assignedShare, ← Wrapping.sum_map_ite]
  refine congrArg List.sum (List.map_congr_left fun r hr => ?_)
  obtain ⟨-, hplaced⟩ := h.budgets.placed r (Or.inl hr)
  have hdistinct : (s.requests r).assignedDevices.Nodup := by
    obtain ⟨e, he⟩ | he := hplaced
    · rw [he]
      exact List.nodup_singleton e
    · rw [he]
      exact hnodup
  rw [chargeOf, GPURouter.chargeOn, hdistinct.count]
  by_cases hd : d ∈ (s.requests r).assignedDevices <;> simp [hd]

/-- The budgets a balanced tally describes. -/
theorem Balanced.budget (h : Balanced T s) {g : GPURouter} (hg : s.gpuRouter = some g)
    {d : Int} {b : GPUBudget} (hb : g.getBudget d = some b) :
    b.reservedMemory = 0 ∧ b.usedMemory = s.chargeSum s.activeRequests d % 2 ^ 64 := by
  obtain ⟨g', hg', -, hledger⟩ := h.budgets.router
  obtain rfl : g' = g := Option.some.inj (hg'.symm.trans hg)
  obtain ⟨hused, hreserved⟩ := hledger d b hb
  exact ⟨hreserved, hused⟩

/-- Each commit is freed, unless its request is active. -/
theorem Balanced.released_once (h : Balanced T s) (r : RequestPtr) :
    s.committedCount r = s.freedCount r + (if r ∈ s.activeRequests then 1 else 0) ∧
      s.committedCount r ≤ 1 := by
  refine ⟨?_, h.accounts.once r⟩
  rw [h.accounts.matched r, h.accounts.nodup.count]

end Balanced

/-- The memory books at the head of the decode loop, with the contiguous
allocator. -/
structure NoLeak (s : Scheduler ContiguousKVAllocator) : Prop where
  /-- the live allocations are the caches of the active requests, one each -/
  allocations : s.kvAllocator.allocations.keys.Perm
    (s.activeRequests.map (fun r => (s.requests r).kvCache.allocationId))
  valid : ∀ r ∈ s.activeRequests, (s.requests r).kvCache.isValid
  /-- and so are the outstanding device blocks -/
  blocks : s.kvAllocator.cuda.outstanding.Perm
    (s.activeRequests.flatMap (fun r => (s.requests r).kvCache.blocks))
  never_twice : (s.kvAllocator.cuda.outstanding ++ s.kvAllocator.cuda.freed).Nodup
  /-- the sum is one of `size_t` -/
  budgets : ∀ g, s.gpuRouter = some g → ∀ d b, g.getBudget d = some b →
    b.reservedMemory = 0 ∧ b.usedMemory = s.assignedShare d % 2 ^ 64
  /-- a terminal request has released its cache and its budget once -/
  released : ∀ r, (s.requests r).isTerminal →
    (s.requests r).kvCache.isValid = false ∧
      s.committedCount r = s.freedCount r ∧ s.committedCount r ≤ 1

section Contiguous

open ContiguousKVAllocator

/-- The tally with a contiguous allocator. -/
def contiguousTally (config : KVAllocatorConfig) (devices : List Int) :
    TallySetup ContiguousKVAllocator where
  Good := Holds config
  Sized n := 0 < config.bytesForSeqLen n ∧ 0 < config.bytesForSeqLenPerDevice n
  devices := devices
  fits := False

theorem contiguousTally_proof (maxActive : Nat) (config : KVAllocatorConfig)
    (devices : List Int) :
    TallyProof maxActive (contiguousTally config devices)
      (fun s => Life.Inv maxActive s.life) :=
  ⟨ownershipLaws config, fun _ h => h, fun _ _ => False.elim,
    fun _ _ _ h _ a => free_not_valid a h⟩

/-- A balanced tally leaves no leak. -/
theorem Balanced.noLeak {config : KVAllocatorConfig} {devices : List Int}
    {s : Scheduler ContiguousKVAllocator} (h : Balanced (contiguousTally config devices) s)
    (hnodup : devices.Nodup) (hactive : ∀ r ∈ s.activeRequests, ¬(s.requests r).isTerminal) :
    NoLeak s := by
  have hholds : Holds config s.kvAllocator
      (s.activeRequests.map (fun r => (s.requests r).kvCache.grant)) := h.caches.good
  refine ⟨?_, h.caches.valid, ?_, hholds.owns.nodup, fun g hg d b hb => ?_, fun r hr => ?_⟩
  · simpa [List.map_map, Function.comp_def] using hholds.keys
  · simpa [List.flatMap_map] using hholds.owns.outstanding
  · rw [← h.chargeSum_eq hnodup d]
    exact h.budget hg hb
  · have hidle : r ∉ s.activeRequests := fun hact => hactive r hact hr
    obtain ⟨hcount, honce⟩ := h.released_once r
    refine ⟨?_, by simpa [hidle] using hcount, honce⟩
    by_contra hvalid
    exact hidle (h.caches.cleared free_not_valid r (by simpa using hvalid))

/-- **No KV-cache leak, no lost budget.**  With the contiguous allocator, at
every head of the decode loop of every run, the live allocations are the caches
of the active requests and the router charges exactly these. -/
theorem contiguous_no_leak (d : SchedulerSetup) {config : KVAllocatorConfig}
    {deviceMemory : Int → Except String Nat} {a : ContiguousKVAllocator}
    (ha : initializeAllocator config deviceMemory = .ok a) {g : GPURouter} (hg : g.Idle)
    (hdevices : g.deviceManager.devices.Nodup) {requests : RequestPtr → Request}
    (h : Fresh requests) (hnew : ∀ r, (requests r).kvCache = {})
    (hsized : ∀ r, 0 < a.config.bytesForSeqLen (requests r).contextLength ∧
      0 < a.config.bytesForSeqLenPerDevice (requests r).contextLength)
    (schedule : List (ThreadId × Answer)) :
    let w := (System.initial (create a (some g) requests)).run (code d) schedule
    AtHead w → NoLeak w.state := by
  intro w hhead
  have hbalanced : Balanced (contiguousTally a.config g.deviceManager.devices) w.state :=
    tally_run (contiguousTally_proof d.config.maxActiveRequests a.config _)
      (initializeAllocator_holds ha) hg rfl hsized hnew schedule
      (fun first _ => life_inv d h first) hhead
  have hbetween : Life.Between d.config.maxActiveRequests [] w.state.life :=
    (life_sound (a := a) (g := some g) d h schedule).at_point hhead
  exact hbalanced.noLeak hdevices fun r hr => active_not_terminal hbetween hr

/-- The first request is submitted and prefilled. -/
theorem contiguous_no_leak_sample :
    NoLeak ((System.initial (create sampleContiguous (some (sampleRouter 0))
      (numbered shortRequest))).run (code sampleSetup) (firstSubmitted 34 {})).state := by
  have hinit : initializeAllocator { maxTotalMemory := 2 ^ 40, deviceIds := [0, 1] }
      (fun _ => .ok 0) = .ok sampleContiguous := by rfl
  have hfresh : Fresh (numbered shortRequest) := numbered_fresh rfl
  have hsized : 0 < sampleContiguous.config.bytesForSeqLen shortRequest.contextLength ∧
      0 < sampleContiguous.config.bytesForSeqLenPerDevice shortRequest.contextLength := by
    decide
  refine contiguous_no_leak sampleSetup hinit (GPURouter.initializeBudgets_idle _ _)
    (by decide) hfresh (fun _ => rfl) (fun _ => hsized) (firstSubmitted 34 {}) ?_
  decide +kernel

end Contiguous

/-! ## The pooled allocator -/

/-- The runtime failed the prefill of no request with a tensor-parallel cache. -/
def NoParallelPrefillError (s : Scheduler A) : Prop :=
  ∀ r h, .prefillFailed r h ∈ s.trace → h.isTensorParallel = false

/-- The router's books at the head of the decode loop. -/
structure ReleasedOnce (s : Scheduler A) : Prop where
  /-- one share for each time the device is assigned to an active request -/
  budgets : ∀ g, s.gpuRouter = some g → ∀ d b, g.getBudget d = some b →
    b.reservedMemory = 0 ∧ b.usedMemory = s.chargeSum s.activeRequests d
  /-- a committed reservation is freed once, when its request is no longer
  active -/
  once : ∀ r, s.committedCount r = s.freedCount r + (if r ∈ s.activeRequests then 1 else 0) ∧
    s.committedCount r ≤ 1
  unwrapped : ∀ r, .budgetFreed r true ∉ s.trace

theorem Balanced.releasedOnce [IKVCacheAllocator A] {T : TallySetup A} {s : Scheduler A}
    (h : Balanced T s) (hfits : T.fits) (hcharges : s.ChargesFit) : ReleasedOnce s := by
  refine ⟨fun g hg d b hb => ?_, h.released_once, h.accounts.unwrapped hfits⟩
  obtain ⟨hreserved, hused⟩ := h.budget hg hb
  refine ⟨hreserved, ?_⟩
  have hfit : s.chargeSum s.activeRequests d < 2 ^ 64 := by
    refine hcharges _ h.accounts.nodup (fun r hr => ?_) d
    obtain ⟨hcount, -⟩ := h.released_once r
    rw [if_pos hr] at hcount
    omega
  rw [hused, Nat.mod_eq_of_lt hfit]

section Pooled

open PooledKVAllocator

/-- The tally with a pooled allocator. -/
def pooledTally (config : KVAllocatorConfig) (devices : List Int) :
    TallySetup PooledKVAllocator where
  Good a _ := Sound config a
  Sized n := 0 < config.bytesForSeqLen n ∧ 0 < config.bytesForSeqLenPerDevice n
  devices := devices
  fits := True

theorem pooledTally_proof (maxActive : Nat) (config : KVAllocatorConfig)
    (devices : List Int) :
    TallyProof maxActive (pooledTally config devices)
      (fun s => Life.Inv maxActive s.life ∧ NoParallelPrefillError s ∧ s.ChargesFit) :=
  ⟨ownershipLaws config, fun _ h => h.1, fun _ h _ => h.2.2,
    fun _ h r handle hfailed a => free_not_valid a (h.2.1 r handle hfailed)⟩

/-- **Budgets are released once.**  With the pooled allocator this holds as long
as the runtime fails the prefill of no tensor-parallel request: the handle of
such a request stays valid after `free`, and `fail_request` frees its budget
again. -/
theorem pooled_released_once (d : SchedulerSetup) {poolConfig : PooledAllocatorConfig}
    {config : KVAllocatorConfig} {cuda : Cuda} {a : PooledKVAllocator}
    (ha : initializeAllocator poolConfig config cuda = (.ok (), a))
    (hpool : 0 < a.poolBytes ∨ a.poolConfig.numSlots = 0) {g : GPURouter} (hg : g.Idle)
    {requests : RequestPtr → Request} (h : Fresh requests)
    (hnew : ∀ r, (requests r).kvCache = {})
    (hsized : ∀ r, 0 < a.config.bytesForSeqLen (requests r).contextLength ∧
      0 < a.config.bytesForSeqLenPerDevice (requests r).contextLength)
    (schedule : List (ThreadId × Answer))
    (hprefill : ∀ first, first <+: schedule → NoParallelPrefillError
      ((System.initial (create a (some g) requests)).run (code d) first).state)
    (hfit : ∀ first, first <+: schedule → ChargesFit
      ((System.initial (create a (some g) requests)).run (code d) first).state) :
    let w := (System.initial (create a (some g) requests)).run (code d) schedule
    AtHead w → ReleasedOnce w.state := by
  intro w hhead
  have hsound : Sound a.config a := (pristine_initializeAllocator ha).1.sound hpool
  have hbalanced : Balanced (pooledTally a.config g.deviceManager.devices) w.state :=
    tally_run (pooledTally_proof d.config.maxActiveRequests a.config _) hsound hg rfl hsized
      hnew schedule
      (fun first hfirst => ⟨life_inv d h first, hprefill first hfirst, hfit first hfirst⟩)
      hhead
  exact hbalanced.releasedOnce trivial (hfit schedule List.prefix_rfl)

/-- The charges fit when those of all requests that were ever committed do. -/
theorem ChargesFit.of_committed {s : Scheduler A} {l : List RequestPtr}
    (hl : ∀ r, .committed r ∈ s.trace → r ∈ l)
    (hsum : (l.map (fun r => (s.requests r).assignedDevices.length *
      GPURouter.deviceShare (s.requests r).assignedDevices (s.estimatedBytes r))).sum <
        2 ^ 64) : s.ChargesFit := by
  intro rs hnodup hcharged d
  have hsub : rs.Subperm l := by
    refine List.subperm_of_subset hnodup fun r hr => hl r (List.count_pos_iff.mp ?_)
    exact Nat.lt_of_le_of_lt (Nat.zero_le _) (hcharged r hr)
  have hle : s.chargeSum rs d ≤ s.chargeSum l d := by
    obtain ⟨rs', hperm, hsublist⟩ := hsub
    rw [chargeSum, ← (hperm.map _).sum_eq]
    exact (hsublist.map _).sum_le_sum (by simp)
  refine Nat.lt_of_le_of_lt (hle.trans ?_) hsum
  exact List.sum_le_sum fun r _ => Nat.mul_le_mul_right _ List.count_le_length

/-- A run of a server with the pooled allocator on one request. -/
def pooledRun (request : Request) (schedule : List (ThreadId × Answer)) :
    System PooledKVAllocator :=
  (System.initial (create samplePooled (some (sampleRouter 20000)) (numbered request))).run
    (code sampleSetup) schedule

/-- The first request is the only one committed, with a share that fits, and no
prefill failed. -/
def soleCommit (s : Scheduler A) : Bool :=
  s.trace.all (fun
    | .committed r => r = 0
    | .prefillFailed _ _ => false
    | _ => true) &&
  (s.requests 0).assignedDevices.length *
    GPURouter.deviceShare (s.requests 0).assignedDevices (s.estimatedBytes 0) < 2 ^ 64

theorem soleCommit_spec {s : Scheduler A} (h : soleCommit s) :
    NoParallelPrefillError s ∧ s.ChargesFit := by
  obtain ⟨htrace, hfit⟩ := Bool.and_eq_true_iff.mp h
  rw [List.all_eq_true] at htrace
  refine ⟨fun r handle hmem => ?_, ChargesFit.of_committed (l := [0]) (fun r hr => ?_) ?_⟩
  · simpa using htrace _ hmem
  · simpa using htrace _ hr
  · simpa using hfit

theorem pooled_released_once_sample :
    ReleasedOnce (pooledRun shortRequest (firstSubmitted 34 {})).state := by
  have hfresh : Fresh (numbered shortRequest) := numbered_fresh rfl
  have hsized : 0 < samplePooled.config.bytesForSeqLen shortRequest.contextLength ∧
      0 < samplePooled.config.bytesForSeqLenPerDevice shortRequest.contextLength := by
    decide +kernel
  have hpool : 0 < samplePooled.poolBytes ∨ samplePooled.poolConfig.numSlots = 0 := by
    decide +kernel
  have htakes : ∀ n < 44, soleCommit
      (pooledRun shortRequest ((firstSubmitted 34 {}).take n)).state := by
    decide +kernel
  have hprefixes : ∀ first, first <+: firstSubmitted 34 {} →
      soleCommit (pooledRun shortRequest first).state := by
    intro first hfirst
    rw [List.prefix_iff_eq_take.mp hfirst]
    have hlength : first.length ≤ 43 := hfirst.length_le
    exact htakes first.length (by omega)
  have hhead : AtHead (pooledRun shortRequest (firstSubmitted 34 {})) := by decide +kernel
  exact pooled_released_once sampleSetup samplePooled_ok hpool
    (GPURouter.initializeBudgets_idle _ _) hfresh (fun _ => rfl) (fun _ => hsized)
    (firstSubmitted 34 {}) (fun first h => (soleCommit_spec (hprefixes first h)).1)
    (fun first h => (soleCommit_spec (hprefixes first h)).2) hhead

/-- A request long enough for tensor parallelism. -/
def longRequest : Request := { id := "", inputTokens := [1], maxTokens := 20000 }

/-- The runtime fails the prefill of a tensor-parallel request, and its budget
is freed twice. -/
theorem pooled_released_twice :
    let w := pooledRun longRequest (firstSubmitted 30 { prefill := .error (.internal "") })
    AtHead w ∧ w.state.activeRequests = [] ∧ w.state.committedCount 0 = 1 ∧
      w.state.freedCount 0 = 2 ∧ .budgetFreed 0 true ∈ w.state.trace ∧
      (w.state.gpuRouter.bind (·.getBudget 0)).map (·.usedMemory) =
        some (2 ^ 64 - GPURouter.deviceShare [0, 1] (estimateKvMemory 20001)) := by
  decide +kernel

end Pooled

end Scheduler

end Qwen
