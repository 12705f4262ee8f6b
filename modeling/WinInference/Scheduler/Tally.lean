import WinInference.Gpu.Ledger
import WinInference.KVCache.Laws
import WinInference.Scheduler.Solo

/-!
# The tally of KV memory and router budget

`Tally live charged reserved` is the bookkeeping of the decode thread between
two of its actions: which requests hold a KV cache, which are charged to the
router as used, and which as reserved.  Between two requests the three lists are
the active requests, again the active requests, and none.  Each action of the
decode thread moves one request into or out of one of the lists.

`Caches`, `Budgets` and `Accounts` are the three parts of a tally.
`Budgets.reserve`, `Budgets.commit`, `Budgets.unreserve` and `Budgets.free` move
a request between the charges, `Caches.allocate_ok` and `Caches.free` into and
out of the caches, and `Tally.activate` and `Tally.dequeue` into the active list
and off the queue.
-/

namespace Qwen

open Concurrency Concurrency.Program

namespace Event

/-- Events the tally counts. -/
def accounted : Event → Bool
  | .committed _ | .budgetFreed _ _ | .dequeued _ => true
  | _ => false

/-- A release of the budget of `r`. -/
def frees (r : RequestPtr) : Event → Bool
  | .budgetFreed q _ => q = r
  | _ => false

end Event

namespace Scheduler

variable {A : Type}

/-- What a request is charged on a device. -/
def chargeOf (s : Scheduler A) (d : Int) (r : RequestPtr) : Nat :=
  GPURouter.chargeOn (s.requests r).assignedDevices (s.estimatedBytes r) d

/-- What some requests are charged on a device. -/
def chargeSum (s : Scheduler A) (rs : List RequestPtr) (d : Int) : Nat :=
  (rs.map (s.chargeOf d)).sum

/-- How often the budget of a request was committed. -/
def committedCount (s : Scheduler A) (r : RequestPtr) : Nat :=
  s.trace.count (.committed r)

/-- How often the budget of a request was freed. -/
def freedCount (s : Scheduler A) (r : RequestPtr) : Nat :=
  s.trace.countP (Event.frees r)

/-- The charges on every device fit in `size_t`. -/
def ChargesFit (s : Scheduler A) : Prop :=
  ∀ rs : List RequestPtr, rs.Nodup → (∀ r ∈ rs, s.freedCount r < s.committedCount r) →
    ∀ d, s.chargeSum rs d < 2 ^ 64

/-- The part of the history the tally counts. -/
def accounts (s : Scheduler A) : List Event := s.trace.filter Event.accounted

/-! ## What the tally does not see -/

/-- Nothing the tally depends on has changed. -/
structure Unmoved (s s' : Scheduler A) : Prop where
  kvAllocator : s'.kvAllocator = s.kvAllocator
  gpuRouter : s'.gpuRouter = s.gpuRouter
  activeRequests : s'.activeRequests = s.activeRequests
  grant : ∀ r, (s'.requests r).kvCache.grant = (s.requests r).kvCache.grant
  assignedDevices : ∀ r, (s'.requests r).assignedDevices = (s.requests r).assignedDevices
  contextLength : ∀ r, (s'.requests r).contextLength = (s.requests r).contextLength
  accounts : s'.accounts = s.accounts

namespace Unmoved

variable {s s' : Scheduler A}

theorem refl (s : Scheduler A) : Unmoved s s :=
  ⟨rfl, rfl, rfl, fun _ => rfl, fun _ => rfl, fun _ => rfl, rfl⟩

/-- Other threads do not move it. -/
theorem of_interference (h : Interference s s') : Unmoved s s' := by
  have haccounts : ∀ t : Scheduler A, t.accounts = t.ownTrace.filter Event.accounted := by
    intro t
    simp only [Scheduler.accounts, ownTrace, List.filter_filter]
    refine List.filter_congr fun e _ => ?_
    cases e <;> rfl
  refine ⟨h.kvAllocator, h.gpuRouter, h.activeRequests, fun r => by rw [h.kvCache r],
    h.assignedDevices, h.contextLength, ?_⟩
  rw [haccounts, haccounts, h.ownTrace]

/-- Rewriting a request outside its cache, its devices and its length. -/
theorem modify (s : Scheduler A) (r : RequestPtr) {f : Request → Request}
    (hgrant : ∀ q, (f q).kvCache.grant = q.kvCache.grant)
    (hdevices : ∀ q, (f q).assignedDevices = q.assignedDevices)
    (hlength : ∀ q, (f q).contextLength = q.contextLength) :
    Unmoved s (s.modify r f) :=
  ⟨rfl, rfl, rfl, fun q => requests_modify_field s r q (·.kvCache.grant) hgrant,
    fun q => requests_modify_field s r q (·.assignedDevices) hdevices,
    fun q => requests_modify_field s r q (·.contextLength) hlength, rfl⟩

/-- An event the tally does not count moves nothing. -/
theorem log (s : Scheduler A) {e : Event} (he : e.accounted = false) :
    Unmoved s (s.log e) :=
  ⟨rfl, rfl, rfl, fun _ => rfl, fun _ => rfl, fun _ => rfl,
    by simp [Scheduler.accounts, Scheduler.log, he]⟩

end Unmoved

section Counts

variable {s : Scheduler A}

/-- Commits are counted among the accounts. -/
theorem committedCount_accounts (s : Scheduler A) (r : RequestPtr) :
    s.committedCount r = s.accounts.count (.committed r) :=
  (List.count_filter rfl).symm

/-- So are releases. -/
theorem freedCount_accounts (s : Scheduler A) (r : RequestPtr) :
    s.freedCount r = s.accounts.countP (Event.frees r) := by
  rw [freedCount, accounts, List.countP_filter]
  refine List.countP_congr fun e _ => ?_
  cases e <;> simp [Event.frees, Event.accounted]

/-- An event that is counted is recorded as one. -/
theorem mem_accounts {e : Event} (he : e.accounted) : e ∈ s.accounts ↔ e ∈ s.trace := by
  simp [accounts, he]

end Counts

/-! ## The tally -/

/-- What a tally is relative to: how an allocator relates to its live handles,
which lengths have blocks that are not empty, the devices of the router, and
whether the charges are known to fit in `size_t`. -/
structure TallySetup (A : Type) where
  Good : A → List KVCacheHandle → Prop
  Sized : Nat → Prop
  devices : List Int
  fits : Prop

/-- Some requests hold a KV cache. -/
structure Caches [IKVCacheAllocator A] (T : TallySetup A) (live : List RequestPtr)
    (s : Scheduler A) : Prop where
  /-- the live handles of the allocator are those of the live requests -/
  good : T.Good s.kvAllocator (live.map (fun r => (s.requests r).kvCache.grant))
  sized : ∀ r, T.Sized (s.requests r).contextLength
  nodup : live.Nodup
  valid : ∀ r ∈ live, (s.requests r).kvCache.isValid
  /-- a request is handed its cache after it was dequeued -/
  unused : ∀ r, r ∉ s.dequeued → (s.requests r).kvCache.isValid = false
  /-- where `free` always invalidates a handle, only live ones are valid -/
  cleared : (∀ (a : A) h, (IKVCacheAllocator.free a h).1.isValid = false) →
    ∀ r, (s.requests r).kvCache.isValid → r ∈ live

/-- The router charges some requests as used and some as reserved. -/
structure Budgets (T : TallySetup A) (charged reserved : List RequestPtr)
    (s : Scheduler A) : Prop where
  router : ∃ g, s.gpuRouter = some g ∧ g.deviceManager.devices = T.devices ∧
    g.Ledger (s.chargeSum charged) (s.chargeSum reserved)
  placed : ∀ r, r ∈ charged ∨ r ∈ reserved →
    (s.requests r).assignedDevices ≠ [] ∧
      ((∃ d, (s.requests r).assignedDevices = [d]) ∨
        (s.requests r).assignedDevices = T.devices)

/-- Each commit of a budget was freed, or its request is still charged. -/
structure Accounts (T : TallySetup A) (charged : List RequestPtr) (s : Scheduler A) :
    Prop where
  nodup : charged.Nodup
  matched : ∀ r, s.committedCount r = s.freedCount r + charged.count r
  once : ∀ r, s.committedCount r ≤ 1
  later : ∀ r, r ∉ s.dequeued → s.committedCount r = 0
  unwrapped : T.fits → ∀ r, .budgetFreed r true ∉ s.trace

/-- The whole tally. -/
structure Tally [IKVCacheAllocator A] (T : TallySetup A)
    (live charged reserved : List RequestPtr) (s : Scheduler A) : Prop where
  caches : Caches T live s
  budgets : Budgets T charged reserved s
  accounts : Accounts T charged s

section Frames

variable {T : TallySetup A} {live charged reserved : List RequestPtr} {s s' : Scheduler A}
  {r : RequestPtr}

/-- The accounts tell who was dequeued. -/
theorem mem_dequeued_congr (h : s'.accounts = s.accounts) (r : RequestPtr) :
    r ∈ s'.dequeued ↔ r ∈ s.dequeued := by
  rw [mem_dequeued, mem_dequeued, ← mem_accounts rfl, ← mem_accounts rfl, h]

/-- They tell how often a budget was committed. -/
theorem committedCount_congr (h : s'.accounts = s.accounts) (r : RequestPtr) :
    s'.committedCount r = s.committedCount r := by
  rw [committedCount_accounts, committedCount_accounts, h]

/-- They tell how often it was freed. -/
theorem freedCount_congr (h : s'.accounts = s.accounts) (r : RequestPtr) :
    s'.freedCount r = s.freedCount r := by
  rw [freedCount_accounts, freedCount_accounts, h]

/-- The caches depend on the allocator, the handles and the lengths alone. -/
theorem Caches.frame [IKVCacheAllocator A] (h : Caches T live s)
    (hallocator : s'.kvAllocator = s.kvAllocator)
    (hgrant : ∀ r, (s'.requests r).kvCache.grant = (s.requests r).kvCache.grant)
    (hlength : ∀ r, (s'.requests r).contextLength = (s.requests r).contextLength)
    (haccounts : s'.accounts = s.accounts) : Caches T live s' := by
  have hvalid : ∀ r, (s'.requests r).kvCache.isValid = (s.requests r).kvCache.isValid := by
    intro r
    rw [← KVCacheHandle.grant_isValid, hgrant r, KVCacheHandle.grant_isValid]
  refine ⟨?_, fun r => by rw [hlength r]; exact h.sized r, h.nodup,
    fun r hr => by rw [hvalid r]; exact h.valid r hr, fun r hr => ?_, fun hclear r hr => ?_⟩
  · rw [hallocator, funext hgrant]
    exact h.good
  · rw [hvalid r]
    exact h.unused r (mt (mem_dequeued_congr haccounts r).mpr hr)
  · exact h.cleared hclear r (by rwa [hvalid r] at hr)

/-- The same with the requests untouched. -/
theorem Caches.frame_of_eq [IKVCacheAllocator A] (h : Caches T live s)
    (hallocator : s'.kvAllocator = s.kvAllocator) (hrequests : s'.requests = s.requests)
    (hdequeued : s'.dequeued = s.dequeued) : Caches T live s' := by
  refine ⟨?_, ?_, h.nodup, ?_, ?_, ?_⟩
  · rw [hallocator, hrequests]
    exact h.good
  · rw [hrequests]
    exact h.sized
  · rw [hrequests]
    exact h.valid
  · rw [hrequests, hdequeued]
    exact h.unused
  · rw [hrequests]
    exact h.cleared

/-- A charge depends on the devices and the length of the request. -/
theorem chargeOf_congr
    (hdevices : (s'.requests r).assignedDevices = (s.requests r).assignedDevices)
    (hlength : (s'.requests r).contextLength = (s.requests r).contextLength) (d : Int) :
    s'.chargeOf d r = s.chargeOf d r := by
  simp only [chargeOf, estimatedBytes, hdevices, hlength]

/-- So does a sum of charges. -/
theorem chargeSum_congr {rs : List RequestPtr}
    (hdevices : ∀ r ∈ rs, (s'.requests r).assignedDevices = (s.requests r).assignedDevices)
    (hlength : ∀ r, (s'.requests r).contextLength = (s.requests r).contextLength) (d : Int) :
    s'.chargeSum rs d = s.chargeSum rs d :=
  congrArg List.sum (List.map_congr_left fun r hr =>
    chargeOf_congr (hdevices r hr) (hlength r) d)

/-- The budgets depend on the router and the charges alone. -/
theorem Budgets.frame (h : Budgets T charged reserved s)
    (hrouter : s'.gpuRouter = s.gpuRouter)
    (hdevices : ∀ r, (s'.requests r).assignedDevices = (s.requests r).assignedDevices)
    (hlength : ∀ r, (s'.requests r).contextLength = (s.requests r).contextLength) :
    Budgets T charged reserved s' := by
  obtain ⟨g, hg, hmanager, hledger⟩ := h.router
  refine ⟨⟨g, hrouter.trans hg, hmanager, hledger.congr ?_ ?_⟩, fun r hr => ?_⟩
  · exact chargeSum_congr (fun r _ => hdevices r) hlength
  · exact chargeSum_congr (fun r _ => hdevices r) hlength
  · rw [hdevices r]
    exact h.placed r hr

/-- The accounts depend on the part of the history that is counted. -/
theorem Accounts.frame (h : Accounts T charged s) (haccounts : s'.accounts = s.accounts) :
    Accounts T charged s' := by
  refine ⟨h.nodup, fun r => ?_, fun r => ?_, fun r hr => ?_, fun hfits r hr => ?_⟩
  · rw [committedCount_congr haccounts, freedCount_congr haccounts]
    exact h.matched r
  · rw [committedCount_congr haccounts]
    exact h.once r
  · rw [committedCount_congr haccounts]
    exact h.later r (mt (mem_dequeued_congr haccounts r).mpr hr)
  · rw [← mem_accounts rfl, haccounts, mem_accounts rfl] at hr
    exact h.unwrapped hfits r hr

/-- What leaves the books alone leaves the tally alone. -/
theorem Tally.unmoved [IKVCacheAllocator A] (h : Tally T live charged reserved s)
    (hu : Unmoved s s') : Tally T live charged reserved s' :=
  ⟨h.caches.frame hu.kvAllocator hu.grant hu.contextLength hu.accounts,
    h.budgets.frame hu.gpuRouter hu.assignedDevices hu.contextLength,
    h.accounts.frame hu.accounts⟩

end Frames

/-! ## Moving one request -/

section Moves

variable {T : TallySetup A} {live charged reserved : List RequestPtr} {s s' : Scheduler A}
  {r : RequestPtr} {decision : RoutingDecision}

theorem chargeSum_nil (s : Scheduler A) (d : Int) : s.chargeSum [] d = 0 := rfl

/-- A request more is a charge more. -/
theorem chargeSum_cons (s : Scheduler A) (rs : List RequestPtr) (r : RequestPtr) (d : Int) :
    s.chargeSum (r :: rs) d = s.chargeSum rs d + s.chargeOf d r := by
  simp [chargeSum, Nat.add_comm]

/-- A request less is a charge less. -/
theorem chargeSum_erase (s : Scheduler A) {rs : List RequestPtr} (hr : r ∈ rs) (d : Int) :
    s.chargeSum rs d = s.chargeSum (rs.erase r) d + s.chargeOf d r :=
  Wrapping.sum_erase (s.chargeOf d) hr

/-- The routing decision for a request, as it is carried along. -/
structure Decided (T : TallySetup A) (r : RequestPtr) (decision : RoutingDecision)
    (s : Scheduler A) : Prop where
  fair : GPURouter.Fair decision
  assigned : (s.requests r).assignedDevices = decision.deviceIds
  ne_nil : decision.deviceIds ≠ []
  placed : (∃ d, decision.deviceIds = [d]) ∨ decision.deviceIds = T.devices

/-- A decision depends on the devices that were assigned. -/
theorem Decided.frame (h : Decided T r decision s)
    (hdevices : (s'.requests r).assignedDevices = (s.requests r).assignedDevices) :
    Decided T r decision s' :=
  ⟨h.fair, hdevices.trans h.assigned, h.ne_nil, h.placed⟩

/-- Routing a request that is not charged yet. -/
theorem Budgets.route {g : GPURouter} (h : Budgets T charged [] s) (hr : r ∉ charged)
    (hrouter : s.gpuRouter = some g) :
    Decided T r (g.route (s.requests r).contextLength).1 (s.routeRequest r).2 ∧
      Budgets T charged [] (s.routeRequest r).2 := by
  obtain ⟨g', hg', hmanager, hledger⟩ := h.router
  obtain rfl : g' = g := Option.some.inj (hg'.symm.trans hrouter)
  rw [routeRequest_some hrouter r]
  dsimp only
  generalize hbase : ({ s with
    gpuRouter := some (g'.route (s.requests r).contextLength).2 } : Scheduler A) = base
  have hbaseRequests : base.requests = s.requests := by rw [← hbase]
  refine ⟨⟨g'.route_fair _, by simp, g'.route_deviceIds_ne_nil _, ?_⟩, ⟨?_, ?_⟩⟩
  · obtain ⟨heq, -⟩ | ⟨d, heq⟩ := g'.route_cases (s.requests r).contextLength
    · rw [heq]
      exact Or.inr hmanager
    · rw [heq]
      exact Or.inl ⟨d, rfl⟩
  · refine ⟨_, by rw [← hbase]; rfl, (g'.route_devices _).trans hmanager,
      (hledger.route _).congr (fun d => ?_)
        (fun d => by rw [chargeSum_nil, chargeSum_nil])⟩
    refine chargeSum_congr (fun q hq => ?_) (fun q => ?_) d
    · have hne : q ≠ r := fun hqr => hr (hqr ▸ hq)
      rw [requests_log, requests_modify_of_ne _ _ hne, hbaseRequests]
    · rw [requests_log, ← hbaseRequests]
      exact requests_modify_field base r q (·.contextLength) (fun _ => rfl)
  · intro q hq
    have hne : q ≠ r := by
      rintro rfl
      exact hq.elim hr (by simp)
    rw [requests_log, requests_modify_of_ne _ _ hne, hbaseRequests]
    exact h.placed q hq

/-- A reservation on a server with a router. -/
theorem reserveBudget_some {g : GPURouter} (hrouter : s.gpuRouter = some g)
    (decision : RoutingDecision) :
    s.reserveBudget r (some decision) =
      { s with gpuRouter := some (g.reserve decision (s.estimatedBytes r)) }.log
        (.reserved r decision (s.estimatedBytes r) g) := by
  simp [reserveBudget, hrouter]

/-- Its withdrawal on a server with a router. -/
theorem unreserveBudget_some {g : GPURouter} (hrouter : s.gpuRouter = some g)
    (decision : RoutingDecision) :
    s.unreserveBudget r (some decision) =
      { s with gpuRouter := some (g.unreserve decision (s.estimatedBytes r)) } := by
  simp [unreserveBudget, hrouter]

/-- A commit on a server with a router. -/
theorem commitBudget_some {g : GPURouter} (hrouter : s.gpuRouter = some g)
    (decision : RoutingDecision) :
    s.commitBudget r (some decision) =
      { s with gpuRouter := some (g.commit decision (s.estimatedBytes r)) }.log
        (.committed r) := by
  simp [commitBudget, hrouter]

/-- A request is charged on the devices that were decided on. -/
theorem Decided.chargeOf (h : Decided T r decision s) (d : Int) :
    s.chargeOf d r = GPURouter.chargeOn decision.deviceIds (s.estimatedBytes r) d := by
  rw [Scheduler.chargeOf, h.assigned]

/-- It is assigned to one device or to all. -/
theorem Decided.is_placed (h : Decided T r decision s) :
    (s.requests r).assignedDevices ≠ [] ∧
      ((∃ d, (s.requests r).assignedDevices = [d]) ∨
        (s.requests r).assignedDevices = T.devices) := by
  rw [h.assigned]
  exact ⟨h.ne_nil, h.placed⟩

/-- A reservation charges the request. -/
theorem Budgets.reserve (h : Budgets T charged [] s) (hd : Decided T r decision s) :
    Budgets T charged [r] (s.reserveBudget r (some decision)) := by
  obtain ⟨g, hg, hmanager, hledger⟩ := h.router
  rw [reserveBudget_some hg]
  refine ⟨⟨_, rfl, hmanager, (hledger.reserve hd.fair).congr (fun _ => rfl) fun d => ?_⟩,
    fun q hq => ?_⟩
  · rw [chargeSum_nil, ← hd.chargeOf d]
    exact (chargeSum_cons s [] r d)
  · rcases hq with hq | hq
    · exact h.placed q (Or.inl hq)
    · rw [List.mem_singleton.mp hq]
      exact hd.is_placed

/-- A rolled-back reservation is gone. -/
theorem Budgets.unreserve (h : Budgets T charged [r] s) (hd : Decided T r decision s) :
    Budgets T charged [] (s.unreserveBudget r (some decision)) := by
  obtain ⟨g, hg, hmanager, hledger⟩ := h.router
  rw [unreserveBudget_some hg]
  refine ⟨⟨_, rfl, hmanager, (hledger.congr (fun _ => rfl) fun d => ?_).unreserve hd.fair⟩,
    fun q hq => h.placed q (Or.inl (hq.resolve_right (by simp)))⟩
  rw [← hd.chargeOf d]
  exact (chargeSum_cons s [] r d).symm

/-- A commit turns the reservation into use. -/
theorem Budgets.commit (h : Budgets T charged [r] s) (hd : Decided T r decision s) :
    Budgets T (r :: charged) [] (s.commitBudget r (some decision)) := by
  obtain ⟨g, hg, hmanager, hledger⟩ := h.router
  rw [commitBudget_some hg]
  refine ⟨⟨_, rfl, hmanager,
    ((hledger.congr (fun _ => rfl) fun d => ?_).commit hd.fair).congr (fun d => ?_)
      (fun _ => rfl)⟩, fun q hq => ?_⟩
  · rw [← hd.chargeOf d]
    exact (chargeSum_cons s [] r d).symm
  · rw [← hd.chargeOf d]
    exact chargeSum_cons s charged r d
  · rcases List.mem_cons.mp (hq.resolve_right (by simp)) with rfl | hq
    · exact hd.is_placed
    · exact h.placed q (Or.inl hq)

/-- Freeing a charged request takes its charge out. -/
theorem Budgets.free (h : Budgets T charged [] s) (hr : r ∈ charged) :
    Budgets T (charged.erase r) [] (s.freeBudget r) := by
  obtain ⟨g, hg, hmanager, hledger⟩ := h.router
  obtain ⟨-, hnone | hnil⟩ | ⟨g', hg', -, heq⟩ := freeBudget_cases s r
  · rw [hg] at hnone
    cases hnone
  · exact absurd hnil (h.placed r (Or.inl hr)).1
  obtain rfl : g = g' := Option.some.inj (hg.symm.trans hg')
  rw [heq]
  refine ⟨⟨_, rfl, hmanager,
    (hledger.congr (fun d => (chargeSum_erase s hr d).symm) (fun _ => rfl)).free⟩,
    fun q hq => ?_⟩
  exact h.placed q (Or.inl (List.mem_of_mem_erase (hq.resolve_right (by simp))))

/-- A first commit is recorded. -/
theorem Accounts.commit (h : Accounts T charged s) (decision : RoutingDecision)
    (hr : s.committedCount r = 0) (hdequeued : r ∈ s.dequeued) {g : GPURouter}
    (hrouter : s.gpuRouter = some g) :
    Accounts T (r :: charged) (s.commitBudget r (some decision)) := by
  have hzero := h.matched r
  rw [hr] at hzero
  have hnot : r ∉ charged := List.count_eq_zero.mp (by omega)
  have htrace : (s.commitBudget r (some decision)).trace = s.trace ++ [.committed r] := by
    rw [commitBudget_some hrouter]
    rfl
  have hcommitted : ∀ q, (s.commitBudget r (some decision)).committedCount q =
      s.committedCount q + if r = q then 1 else 0 := by
    intro q
    rw [committedCount, htrace, List.count_append, List.count_singleton]
    simp [committedCount, beq_iff_eq]
  have hfreed : ∀ q, (s.commitBudget r (some decision)).freedCount q = s.freedCount q := by
    intro q
    rw [freedCount, htrace, List.countP_append]
    simp [freedCount, Event.frees]
  have hdequeued' : ∀ q, q ∈ (s.commitBudget r (some decision)).dequeued ↔ q ∈ s.dequeued := by
    intro q
    simp [mem_dequeued, htrace]
  refine ⟨List.nodup_cons.mpr ⟨hnot, h.nodup⟩, fun q => ?_, fun q => ?_, fun q hq => ?_,
    fun hfits q hq => ?_⟩
  · rw [hcommitted, hfreed, h.matched q, List.count_cons]
    simp only [beq_iff_eq]
    omega
  · rw [hcommitted]
    by_cases hq : r = q
    · subst hq
      simp [hr]
    · simpa [hq] using h.once q
  · rw [hdequeued'] at hq
    have hne : r ≠ q := fun hrq => hq (hrq ▸ hdequeued)
    rw [hcommitted, h.later q hq, if_neg hne]
  · rw [htrace] at hq
    exact h.unwrapped hfits q (by simpa using hq)

/-- Freeing a charged request is recorded, and does not wrap while the charges
fit. -/
theorem Accounts.free (h : Accounts T charged s) (hb : Budgets T charged [] s)
    (hr : r ∈ charged) (hfit : T.fits → s.ChargesFit) :
    Accounts T (charged.erase r) (s.freeBudget r) := by
  obtain ⟨g, hg, hmanager, hledger⟩ := hb.router
  obtain ⟨-, hnone | hnil⟩ | ⟨g', hg', -, heq⟩ := freeBudget_cases s r
  · rw [hg] at hnone
    cases hnone
  · exact absurd hnil (hb.placed r (Or.inl hr)).1
  obtain rfl : g = g' := Option.some.inj (hg.symm.trans hg')
  generalize hwrapped :
    g.freeWraps (s.requests r).assignedDevices (s.estimatedBytes r) = wrapped at heq
  have htrace : (s.freeBudget r).trace = s.trace ++ [.budgetFreed r wrapped] := by
    rw [heq]
    rfl
  have hcommitted : ∀ q, (s.freeBudget r).committedCount q = s.committedCount q := by
    intro q
    rw [committedCount, htrace, List.count_append]
    simp [committedCount]
  have hfreed : ∀ q, (s.freeBudget r).freedCount q =
      s.freedCount q + if r = q then 1 else 0 := by
    intro q
    rw [freedCount, htrace, List.countP_append]
    simp [freedCount, Event.frees, List.countP_cons]
  have hdequeued : ∀ q, q ∈ (s.freeBudget r).dequeued ↔ q ∈ s.dequeued := by
    intro q
    simp [mem_dequeued, htrace]
  refine ⟨h.nodup.erase r, fun q => ?_, fun q => ?_, fun q hq => ?_, fun hfits q hq => ?_⟩
  · have hmatched := h.matched q
    rw [hcommitted, hfreed, hmatched]
    by_cases hq : r = q
    · subst hq
      have hpos := List.count_pos_iff.mpr hr
      rw [List.count_erase_self, if_pos rfl]
      omega
    · rw [List.count_erase_of_ne (Ne.symm hq), if_neg hq, Nat.add_zero]
  · rw [hcommitted]
    exact h.once q
  · rw [hdequeued] at hq
    rw [hcommitted]
    exact h.later q hq
  · rw [htrace] at hq
    rcases List.mem_append.mp hq with hq | hq
    · exact h.unwrapped hfits q hq
    · obtain ⟨-, rfl⟩ : q = r ∧ true = wrapped := by simpa using hq
      have hsum : ∀ d, s.chargeSum (charged.erase r) d + s.chargeOf d r < 2 ^ 64 := by
        intro d
        rw [← chargeSum_erase s hr d]
        refine hfit hfits charged h.nodup (fun q hq => ?_) d
        have hmatched := h.matched q
        have hpos := List.count_pos_iff.mpr hq
        omega
      have hexact := (hledger.congr (fun d => (chargeSum_erase s hr d).symm)
        (fun _ => rfl)).freeWraps_false hsum
      rw [hwrapped] at hexact
      cases hexact

end Moves

section CacheMoves

variable {T : TallySetup A} {live charged reserved : List RequestPtr}
  {s s' : Scheduler A} {r : RequestPtr} {decision : RoutingDecision}

/-- The handles of requests other than the one that changes. -/
theorem grants_of_not_mem {rs : List RequestPtr}
    (h : ∀ q, q ≠ r → (s'.requests q).kvCache = (s.requests q).kvCache) (hr : r ∉ rs) :
    rs.map (fun q => (s'.requests q).kvCache.grant) =
      rs.map (fun q => (s.requests q).kvCache.grant) := by
  refine List.map_congr_left fun q hq => ?_
  rw [h q (fun hqr => hr (hqr ▸ hq))]

variable [IKVCacheAllocator A]

/-- The tensor-parallel branch has devices to go to. -/
theorem wantsTensorParallel_ne_nil {decision : Option RoutingDecision}
    (h : wantsTensorParallel decision = true) :
    (decision.map (·.deviceIds)).getD [] ≠ [] := by
  cases decision with
  | none => cases h
  | some decision =>
      intro hnil
      have hids : decision.deviceIds = [] := hnil
      simp [wantsTensorParallel, hids] at h

/-- The tally does not see a failed allocation. -/
theorem Caches.allocate_error (laws : OwnershipLaws T.Good T.Sized) (h : Caches T live s)
    {i : Answer} {decision : Option RoutingDecision} {e : Error} {a : A}
    (hcall : s.callAllocator i r decision = (.error e, a)) :
    Caches T live { s with kvAllocator := a } := by
  have hgood : T.Good a (live.map (fun r => (s.requests r).kvCache.grant)) := by
    unfold callAllocator at hcall
    by_cases htp : wantsTensorParallel decision = true
    · rw [if_pos htp] at hcall
      exact laws.tensorParallel_error h.good hcall
    · rw [if_neg htp] at hcall
      exact laws.allocate_error h.good hcall
  exact ⟨hgood, h.sized, h.nodup, h.valid, h.unused, h.cleared⟩

/-- A successful allocation gives the request a valid cache. -/
theorem Caches.allocate_ok (laws : OwnershipLaws T.Good T.Sized) (h : Caches T live s)
    {i : Answer} {decision : Option RoutingDecision} {handle : KVCacheHandle} {a : A}
    (hcall : s.callAllocator i r decision = (.ok handle, a)) (hr : r ∉ live)
    (hdequeued : r ∈ s.dequeued) :
    Caches T (r :: live)
      ({ s with kvAllocator := a }.modify r (fun q => { q with kvCache := handle })) := by
  have hserved : T.Good a (handle :: live.map (fun r => (s.requests r).kvCache.grant)) ∧
      (T.Sized (s.requests r).contextLength → handle.isValid) := by
    unfold callAllocator at hcall
    by_cases htp : wantsTensorParallel decision = true
    · rw [if_pos htp] at hcall
      exact laws.tensorParallel_ok h.good (wantsTensorParallel_ne_nil htp) hcall
    · rw [if_neg htp] at hcall
      exact laws.allocate_ok h.good hcall
  generalize hs' : ({ s with kvAllocator := a } : Scheduler A).modify r
    (fun q => { q with kvCache := handle }) = s'
  have hself : (s'.requests r).kvCache = handle := by
    rw [← hs']
    simp
  have hothers : ∀ q, q ≠ r → (s'.requests q).kvCache = (s.requests q).kvCache := by
    intro q hq
    rw [← hs', requests_modify_of_ne _ _ hq]
  have hlength : ∀ q, (s'.requests q).contextLength = (s.requests q).contextLength := by
    intro q
    rw [← hs']
    refine requests_modify_field { s with kvAllocator := a } r q (·.contextLength) ?_
    exact fun _ => rfl
  have hvalid : handle.isValid := hserved.2 (h.sized r)
  have htrace : s'.dequeued = s.dequeued := by
    rw [← hs']
    rfl
  refine ⟨?_, fun q => by rw [hlength q]; exact h.sized q,
    List.nodup_cons.mpr ⟨hr, h.nodup⟩, fun q hq => ?_, fun q hq => ?_, fun hclear q hq => ?_⟩
  · have hallocator : s'.kvAllocator = a := by
      rw [← hs']
      rfl
    rw [List.map_cons, grants_of_not_mem hothers hr, hself, hallocator]
    exact laws.grant hserved.1
  · by_cases hqr : q = r
    · rw [hqr, hself]
      exact hvalid
    · rw [hothers q hqr]
      exact h.valid q ((List.mem_cons.mp hq).resolve_left hqr)
  · rw [htrace] at hq
    have hqr : q ≠ r := fun hqr => hq (hqr ▸ hdequeued)
    rw [hothers q hqr]
    exact h.unused q hq
  · by_cases hqr : q = r
    · rw [hqr]
      exact List.mem_cons_self
    · rw [hothers q hqr] at hq
      exact List.mem_cons_of_mem _ (h.cleared hclear q hq)

/-- What holds a cache was dequeued. -/
theorem Caches.mem_dequeued (h : Caches T live s) (hr : r ∈ live) : r ∈ s.dequeued := by
  by_contra hnot
  have hinvalid := h.unused r hnot
  rw [h.valid r hr] at hinvalid
  cases hinvalid

/-- Freeing the cache of a live request. -/
theorem Caches.free (laws : OwnershipLaws T.Good T.Sized) (h : Caches T live s)
    (hr : r ∈ live) : Caches T (live.erase r) (s.freeKvCache r) := by
  have hdequeued := h.mem_dequeued hr
  have hsplit : T.Good s.kvAllocator ((s.requests r).kvCache ::
      (live.erase r).map (fun r => (s.requests r).kvCache.grant)) :=
    laws.ungrant (laws.perm h.good ((List.perm_cons_erase hr).map _))
  have hfreed := laws.free hsplit (h.valid r hr)
  generalize hs' : s.freeKvCache r = s'
  have hself : (s'.requests r).kvCache =
      (IKVCacheAllocator.free s.kvAllocator (s.requests r).kvCache).1 := by
    rw [← hs', freeKvCache]
    simp
  have hothers : ∀ q, q ≠ r → (s'.requests q).kvCache = (s.requests q).kvCache := by
    intro q hq
    rw [← hs', freeKvCache, requests_modify_of_ne _ _ hq]
  have hlength : ∀ q, (s'.requests q).contextLength = (s.requests q).contextLength := by
    intro q
    rw [← hs', freeKvCache]
    refine requests_modify_field { s with kvAllocator := _ } r q (·.contextLength) ?_
    exact fun _ => rfl
  have htrace : s'.dequeued = s.dequeued := by
    rw [← hs']
    rfl
  have hnot : r ∉ live.erase r := fun hmem => (h.nodup.mem_erase_iff.mp hmem).1 rfl
  refine ⟨?_, fun q => by rw [hlength q]; exact h.sized q, h.nodup.erase r,
    fun q hq => ?_, fun q hq => ?_, fun hclear q hq => ?_⟩
  · have hallocator : s'.kvAllocator =
        (IKVCacheAllocator.free s.kvAllocator (s.requests r).kvCache).2 := by
      rw [← hs']
      rfl
    rw [grants_of_not_mem hothers hnot, hallocator]
    exact hfreed
  · obtain ⟨hqr, hq⟩ := h.nodup.mem_erase_iff.mp hq
    rw [hothers q hqr]
    exact h.valid q hq
  · rw [htrace] at hq
    have hqr : q ≠ r := fun hqr => hq (hqr ▸ hdequeued)
    rw [hothers q hqr]
    exact h.unused q hq
  · by_cases hqr : q = r
    · rw [hqr, hself, hclear] at hq
      cases hq
    · rw [hothers q hqr] at hq
      exact h.nodup.mem_erase_iff.mpr ⟨hqr, h.cleared hclear q hq⟩

/-- The order of the lists does not matter. -/
theorem Tally.perm (laws : OwnershipLaws T.Good T.Sized) {live' charged' : List RequestPtr}
    (h : Tally T live charged reserved s) (hlive : live.Perm live')
    (hcharged : charged.Perm charged') : Tally T live' charged' reserved s := by
  obtain ⟨g, hrouter, hmanager, hledger⟩ := h.budgets.router
  refine ⟨⟨laws.perm h.caches.good (hlive.map _), h.caches.sized,
    hlive.nodup_iff.mp h.caches.nodup,
    fun q hq => h.caches.valid q (hlive.mem_iff.mpr hq), h.caches.unused,
    fun hclear q hq => hlive.mem_iff.mp (h.caches.cleared hclear q hq)⟩,
    ⟨⟨g, hrouter, hmanager, hledger.congr (fun d => ?_) (fun _ => rfl)⟩, fun q hq => ?_⟩,
    ⟨hcharged.nodup_iff.mp h.accounts.nodup, fun q => ?_, h.accounts.once,
      h.accounts.later, h.accounts.unwrapped⟩⟩
  · exact (hcharged.map _).sum_eq.symm
  · exact h.budgets.placed q (hq.imp hcharged.mem_iff.mpr id)
  · rw [← hcharged.count_eq]
    exact h.accounts.matched q

/-- A request that is served joins the active list. -/
theorem Tally.activate
    (h : Tally T (s.activeRequests ++ [r]) (s.activeRequests ++ [r]) [] s) :
    Tally T (s.activeRequests ++ [r]) (s.activeRequests ++ [r]) []
      { s with activeRequests := s.activeRequests ++ [r] } :=
  ⟨h.caches.frame_of_eq rfl rfl rfl, h.budgets.frame rfl (fun _ => rfl) (fun _ => rfl),
    h.accounts.frame rfl⟩

/-- Dequeuing a request that was not dequeued before: it holds nothing yet. -/
theorem Tally.dequeue (h : Tally T live charged reserved s) (hr : r ∉ s.dequeued)
    (rest : List RequestPtr) :
    Tally T live charged reserved ({ s with pendingQueue := rest }.log (.dequeued r)) ∧
      r ∈ ({ s with pendingQueue := rest }.log (.dequeued r)).dequeued ∧
      ({ s with pendingQueue := rest }.log (.dequeued r)).committedCount r = 0 ∧
      (s.requests r).kvCache.isValid = false := by
  generalize hs' : ({ s with pendingQueue := rest } : Scheduler A).log (.dequeued r) = s'
  have htrace : s'.trace = s.trace ++ [.dequeued r] := by
    rw [← hs']
    rfl
  have hrequests : s'.requests = s.requests := by rw [← hs', requests_log]
  have hdequeued : ∀ q, q ∈ s'.dequeued ↔ q ∈ s.dequeued ∨ q = r := by
    intro q
    simp [mem_dequeued, htrace]
  have hcommitted : ∀ q, s'.committedCount q = s.committedCount q := by
    intro q
    rw [committedCount, htrace, List.count_append]
    simp [committedCount]
  have hfreed : ∀ q, s'.freedCount q = s.freedCount q := by
    intro q
    rw [freedCount, htrace, List.countP_append]
    simp [freedCount, Event.frees]
  refine ⟨⟨?_, ?_, ?_⟩, (hdequeued r).mpr (Or.inr rfl), ?_, h.caches.unused r hr⟩
  · refine ⟨?_, ?_, h.caches.nodup, ?_, fun q hq => ?_, ?_⟩
    · have hallocator : s'.kvAllocator = s.kvAllocator := by
        rw [← hs']
        rfl
      rw [hrequests, hallocator]
      exact h.caches.good
    · rw [hrequests]
      exact h.caches.sized
    · rw [hrequests]
      exact h.caches.valid
    · rw [hrequests]
      exact h.caches.unused q (fun hold => hq ((hdequeued q).mpr (Or.inl hold)))
    · rw [hrequests]
      exact h.caches.cleared
  · have hrouter : s'.gpuRouter = s.gpuRouter := by
      rw [← hs']
      rfl
    exact h.budgets.frame hrouter (by simp [hrequests]) (by simp [hrequests])
  · refine ⟨h.accounts.nodup, fun q => ?_, fun q => ?_, fun q hq => ?_, fun hfits q hq => ?_⟩
    · rw [hcommitted, hfreed]
      exact h.accounts.matched q
    · rw [hcommitted]
      exact h.accounts.once q
    · rw [hcommitted]
      exact h.accounts.later q (fun hold => hq ((hdequeued q).mpr (Or.inl hold)))
    · rw [htrace] at hq
      exact h.accounts.unwrapped hfits q (by simpa using hq)
  · rw [hcommitted]
    exact h.accounts.later r hr

end CacheMoves

end Scheduler

end Qwen
