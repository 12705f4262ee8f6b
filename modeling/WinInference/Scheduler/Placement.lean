import WinInference.KVCache.Accounts
import WinInference.Gpu.Ledger
import WinInference.Scheduler.Lifecycle

/-!
# What admission decides, and what prefill does

On a server with nothing queued and nothing active, `admitRequest` and the placement
part of `run_prefill` are run from the same state.  They agree on a request that
goes to one device.  On a tensor-parallel one `admitRequest` also asks for the whole
cache on the first device, and the router's share is another size than the one
it checks.

`Vacant` is a router with nothing charged and `Quiescent` a server with nothing
queued and nothing active.  `Quiescent.admits_iff` and `Quiescent.places_iff`
say, in bytes, what admission and prefill decide.
-/

namespace Qwen

open Concurrency Concurrency.Program

namespace GPURouter

/-- The device with the most memory is one of the devices. -/
theorem bestDevice_mem {fallback : Int} {budgets : List GPUBudget} {devices : List Int}
    (hfallback : fallback ∈ devices) (hbudgets : ∀ b ∈ budgets, b.deviceId ∈ devices) :
    bestDevice fallback budgets ∈ devices := by
  unfold bestDevice
  generalize 0 = most
  induction budgets generalizing fallback most with
  | nil => exact hfallback
  | cons b rest ih =>
      rw [List.foldl_cons]
      have hrest : ∀ b ∈ rest, b.deviceId ∈ devices := fun b hb =>
        hbudgets b (List.mem_cons_of_mem _ hb)
      by_cases hmore : b.available > most
      · rw [if_pos hmore]
        exact ih (hbudgets b List.mem_cons_self) hrest b.available
      · rw [if_neg hmore]
        exact ih hfallback hrest most

theorem selectDevice_mem {m : DeviceManager} (h : m.devices ≠ []) :
    m.selectDevice.1 ∈ m.devices := by
  unfold DeviceManager.selectDevice
  have hempty : m.devices.isEmpty = false := by simpa using h
  have hlt : m.roundRobinCounter % m.devices.length < m.devices.length :=
    Nat.mod_lt _ (List.length_pos_iff.mpr h)
  rw [hempty]
  simp [List.getD, hlt]

/-- A budget that nothing was taken from. -/
theorem available_idle {b : GPUBudget} (hused : b.usedMemory = 0) (hreserved : b.reservedMemory = 0)
    (ht : b.totalMemory < 2 ^ 64) : b.available = b.totalMemory := by
  unfold GPUBudget.available
  have hsum : sizeAdd b.usedMemory b.reservedMemory = 0 := by rw [hused, hreserved]; rfl
  have hfirst : sizeSub b.totalMemory b.usedMemory = b.totalMemory := by
    rw [hused]
    exact Wrapping.sub_of_le ht (Nat.zero_le _)
  have hsecond : sizeSub b.totalMemory b.reservedMemory = b.totalMemory := by
    rw [hreserved]
    exact Wrapping.sub_of_le ht (Nat.zero_le _)
  rw [hsum, hfirst, hsecond]
  split <;> omega

/-- Whether a request of this length goes to all devices. -/
def Parallel (g : GPURouter) (contextLength : Nat) : Prop :=
  g.deviceManager.contextThresholdForTp < contextLength ∧ 2 ≤ g.deviceManager.devices.length

instance (g : GPURouter) (contextLength : Nat) : Decidable (g.Parallel contextLength) :=
  inferInstanceAs (Decidable (_ ∧ _))

/-- A router over `devices` of `total` bytes each, with nothing placed. -/
structure Vacant (g : GPURouter) (total : Nat) : Prop where
  some_device : g.deviceManager.devices ≠ []
  distinct : g.deviceManager.devices.Nodup
  budgets : g.budgets.map (·.deviceId) = g.deviceManager.devices
  memory : ∀ b ∈ g.budgets, b.totalMemory = total
  word : total < 2 ^ 64
  idle : g.Idle

section Vacant

variable {g : GPURouter} {total n bytes perDevice : Nat}

theorem initializeBudgets_vacant (hdevices : g.deviceManager.devices ≠ [])
    (hnodup : g.deviceManager.devices.Nodup) (hword : total < 2 ^ 64) :
    (g.initializeBudgets total).Vacant total where
  some_device := hdevices
  distinct := hnodup
  budgets := by simp [initializeBudgets, Function.comp_def]
  memory b hb := by
    simp only [initializeBudgets, List.mem_map] at hb
    obtain ⟨d, -, rfl⟩ := hb
    rfl
  word := hword
  idle := initializeBudgets_idle g total

theorem Vacant.length (h : g.Vacant total) :
    g.budgets.length = g.deviceManager.devices.length := by
  rw [← h.budgets, List.length_map]

theorem Vacant.canFit (h : g.Vacant total) {b : GPUBudget} (hb : b ∈ g.budgets) :
    b.canFit bytes = decide (bytes ≤ total) := by
  obtain ⟨hused, hreserved⟩ := h.idle b hb
  have htotal := h.memory b hb
  rw [GPUBudget.canFit, available_idle hused hreserved (by rw [htotal]; exact h.word), htotal]

theorem Vacant.budgets_ne_nil (h : g.Vacant total) : g.budgets ≠ [] := by
  intro hnil
  refine h.some_device ?_
  rw [← h.budgets, hnil]
  rfl

theorem recommendStrategy_eq (g : GPURouter) (n : Nat) :
    g.deviceManager.recommendStrategy n =
      if g.Parallel n then .tensorParallel else .perRequest := by
  unfold DeviceManager.recommendStrategy
  by_cases hp : g.Parallel n
  · have hn : n > g.deviceManager.contextThresholdForTp ∧ g.deviceManager.devices.length ≥ 2 := hp
    rw [if_pos hp, if_pos hn]
  · have hn : ¬(n > g.deviceManager.contextThresholdForTp ∧
        g.deviceManager.devices.length ≥ 2) := hp
    rw [if_neg hp, if_neg hn, ite_self]

/-- What `can_place` compares with the memory of a device. -/
theorem Vacant.canPlace (h : g.Vacant total) :
    g.canPlace n bytes perDevice = true ↔
      (if g.Parallel n then
        if perDevice > 0 then perDevice else bytes / g.deviceManager.devices.length
      else bytes) ≤ total := by
  have hne := h.budgets_ne_nil
  have hlength := h.length
  unfold GPURouter.canPlace
  rw [recommendStrategy_eq]
  by_cases hp : g.Parallel n
  · simp only [if_pos hp, hlength]
    rw [List.all_eq_true]
    constructor
    · intro hall
      obtain ⟨b, hb⟩ := List.exists_mem_of_ne_nil _ hne
      simpa [h.canFit hb] using hall b hb
    · intro hle b hb
      simpa [h.canFit hb] using hle
  · simp only [if_neg hp]
    rw [List.any_eq_true]
    constructor
    · rintro ⟨b, hb, hfit⟩
      simpa [h.canFit hb] using hfit
    · intro hle
      obtain ⟨b, hb⟩ := List.exists_mem_of_ne_nil _ hne
      exact ⟨b, hb, by simpa [h.canFit hb] using hle⟩

/-- Where a request goes. -/
theorem Vacant.route (h : g.Vacant total) (n : Nat) :
    (g.Parallel n ∧ (g.route n).1 = ⟨.tensorParallel, g.deviceManager.devices, true⟩) ∨
    (¬g.Parallel n ∧ ∃ d ∈ g.deviceManager.devices, (g.route n).1 = ⟨.perRequest, [d], false⟩) := by
  unfold GPURouter.route
  rw [recommendStrategy_eq]
  by_cases hp : g.Parallel n
  · exact Or.inl ⟨hp, by simp [hp]⟩
  · refine Or.inr ⟨hp, _, bestDevice_mem (selectDevice_mem h.some_device) fun b hb => ?_,
      by simp [hp]; rfl⟩
    rw [← h.budgets]
    exact List.mem_map_of_mem hb

/-- The share of each device of a decision. -/
theorem Vacant.deviceShare (h : g.Vacant total) (n bytes : Nat) :
    deviceShare (g.route n).1.deviceIds bytes =
      if g.Parallel n then bytes / g.deviceManager.devices.length else bytes := by
  obtain ⟨hp, heq⟩ | ⟨hp, d, -, heq⟩ := h.route n
  · have hmany : g.deviceManager.devices.length > 1 := hp.2
    simp [heq, hp, GPURouter.deviceShare, hmany]
  · simp [heq, hp, GPURouter.deviceShare]

theorem Vacant.chargeOn (h : g.Vacant total) {d : Int} (hd : d ∈ (g.route n).1.deviceIds) :
    chargeOn (g.route n).1.deviceIds bytes d =
      if g.Parallel n then bytes / g.deviceManager.devices.length else bytes := by
  have hnodup : (g.route n).1.deviceIds.Nodup := by
    obtain ⟨-, heq⟩ | ⟨-, e, -, heq⟩ := h.route n
    · rw [heq]
      exact h.distinct
    · rw [heq]
      exact List.nodup_singleton e
  rw [GPURouter.chargeOn, hnodup.count, if_pos hd, Nat.one_mul, h.deviceShare]

theorem Vacant.assigned (h : g.Vacant total) {d : Int} (hd : d ∈ (g.route n).1.deviceIds) :
    ∃ b, g.getBudget d = some b ∧ b.totalMemory = total := by
  have hmem : d ∈ g.deviceManager.devices := by
    obtain ⟨-, heq⟩ | ⟨-, e, he, heq⟩ := h.route n
    · rwa [heq] at hd
    · rw [heq] at hd
      rwa [List.mem_singleton.mp hd]
  rw [← h.budgets] at hmem
  obtain ⟨b, hb, hid⟩ := List.mem_map.mp hmem
  have hsome : (g.budgets.find? (·.deviceId = d)).isSome := by
    rw [List.find?_isSome]
    exact ⟨b, hb, by simpa using hid⟩
  obtain ⟨b', hb'⟩ := Option.isSome_iff_exists.mp hsome
  exact ⟨b', hb', h.memory b' (List.mem_of_find?_eq_some hb')⟩

/-- Placing a request on an empty router fits exactly when the share of a device
does. -/
theorem Vacant.placed (h : g.Vacant total) (hbytes : bytes < 2 ^ 64) :
    (∀ d ∈ (g.route n).1.deviceIds, ∀ b,
      (((g.route n).2.reserve (g.route n).1 bytes).commit (g.route n).1 bytes).getBudget d =
        some b → b.usedMemory + b.reservedMemory ≤ b.totalMemory) ↔
    (if g.Parallel n then bytes / g.deviceManager.devices.length else bytes) ≤ total := by
  have hledger : Ledger (((g.route n).2.reserve (g.route n).1 bytes).commit (g.route n).1 bytes)
      (fun d => 0 + GPURouter.chargeOn (g.route n).1.deviceIds bytes d) (fun _ => 0) :=
    ((h.idle.ledger.route n).reserve (g.route_fair n)).commit (g.route_fair n)
  have htotals : ∀ d,
      (((g.route n).2.reserve (g.route n).1 bytes).commit (g.route n).1 bytes).totals d =
        g.totals d := by
    intro d
    simp
  have hshare : (if g.Parallel n then bytes / g.deviceManager.devices.length else bytes) <
      2 ^ 64 := by
    refine Nat.lt_of_le_of_lt ?_ hbytes
    split
    · exact Nat.div_le_self _ _
    · exact Nat.le_refl _
  have hbudget : ∀ d ∈ (g.route n).1.deviceIds, ∀ b,
      (((g.route n).2.reserve (g.route n).1 bytes).commit (g.route n).1 bytes).getBudget d =
        some b → b.usedMemory + b.reservedMemory =
          (if g.Parallel n then bytes / g.deviceManager.devices.length else bytes) ∧
        b.totalMemory = total := by
    intro d hd b hb
    obtain ⟨hused, hreserved⟩ := hledger d b hb
    dsimp only at hused hreserved
    rw [h.chargeOn hd, Nat.zero_add] at hused
    obtain ⟨b₀, hb₀, htotal⟩ := h.assigned hd
    have hkept := htotals d
    rw [totals, totals, hb, hb₀] at hkept
    refine ⟨?_, (Option.some.inj hkept).trans htotal⟩
    rw [hused.exact hshare, hreserved.exact (Nat.two_pow_pos 64), Nat.add_zero]
  constructor
  · intro hall
    obtain ⟨d, hd⟩ := List.exists_mem_of_ne_nil _ (g.route_deviceIds_ne_nil n)
    obtain ⟨b₀, hb₀, -⟩ := h.assigned hd
    have hkept := htotals d
    rw [totals, totals, hb₀] at hkept
    obtain ⟨b, hb, -⟩ := Option.map_eq_some_iff.mp hkept
    obtain ⟨hsum, htotal⟩ := hbudget d hd b hb
    have hle := hall d hd b hb
    rwa [hsum, htotal] at hle
  · intro hle d hd b hb
    obtain ⟨hsum, htotal⟩ := hbudget d hd b hb
    rwa [hsum, htotal]

end Vacant

end GPURouter

namespace ContiguousKVAllocator

variable {a : ContiguousKVAllocator} {n : Nat}

/-- With no CUDA error, a single-device allocation succeeds when the device has
room. -/
theorem allocateOnDevice_willing {deviceId : Int} (hwilling : a.cuda.Willing) :
    (∃ h, (a.allocateOnDevice n deviceId).1 = .ok h) ↔
      ∃ m, a.deviceStats.lookup deviceId = some m ∧ a.config.bytesForSeqLen n ≤ m.freeBytes := by
  unfold allocateOnDevice
  dsimp only
  cases hstats : a.deviceStats.lookup deviceId with
  | none => simp
  | some m =>
      dsimp only
      by_cases hroom : a.config.bytesForSeqLen n > m.freeBytes
      · rw [if_pos hroom]
        constructor
        · rintro ⟨h, hok⟩
          cases hok
        · rintro ⟨m', hm', hle⟩
          cases hm'
          omega
      · rw [if_neg hroom]
        obtain ⟨c₁, hset, hrest⟩ := hwilling.setDevice deviceId
        obtain ⟨k, v, c₂, hpair, -⟩ := hrest.pair (a.config.bytesForSeqLen n / 2)
          (fun err => .internal ("Failed to allocate K cache: " ++ err))
          (fun err => .internal ("Failed to allocate V cache: " ++ err))
        rw [hset]
        dsimp only
        rw [hpair]
        exact ⟨fun _ => ⟨m, rfl, Nat.not_lt.mp hroom⟩, fun _ => ⟨_, rfl⟩⟩

/-- So does a tensor-parallel one, when every device has room for its part. -/
theorem allocateTensorParallel_willing {primary : Int} {rest : List Int}
    (hwilling : a.cuda.Willing) :
    (∃ h, (a.allocateTensorParallel n (primary :: rest)).1 = .ok h) ↔
      ∀ d ∈ primary :: rest, ∃ m, a.deviceStats.lookup d = some m ∧
        a.config.bytesForSeqLenPerDevice n ≤ m.freeBytes := by
  constructor
  · rintro ⟨h, hok⟩
    obtain ⟨e, -, hrefused⟩ | ⟨hcheck, -⟩ :=
      allocateTensorParallel_settled n primary rest (Or.inr hwilling)
    · rw [hrefused] at hok
      cases hok
    · exact checkDevices_ok hcheck
  · intro hroom
    obtain ⟨e, hcheck, -⟩ | ⟨-, h, a', hserved⟩ :=
      allocateTensorParallel_settled n primary rest (Or.inr hwilling)
    · rw [checkDevices_of_room hroom] at hcheck
      cases hcheck
    · exact ⟨h, by rw [hserved]⟩

end ContiguousKVAllocator

namespace Scheduler

open GPURouter

/-- `admitRequest` lets the request in. -/
def Admits (d : SchedulerSetup) (i : Answer) (s : Scheduler ContiguousKVAllocator)
    (r : RequestPtr) : Prop :=
  ((admitRequest d r).exec i s).1 = .ok ()

/-- The placement of `run_prefill` succeeds and over-commits no assigned
device. -/
def Places (i : Answer) (s : Scheduler ContiguousKVAllocator) (r : RequestPtr) : Prop :=
  ((place r).exec i s).1 = .ok () ∧
    ∀ g, ((place r).exec i s).2.gpuRouter = some g →
      ∀ d ∈ (((place r).exec i s).2.requests r).assignedDevices, ∀ b, g.getBudget d = some b →
        b.usedMemory + b.reservedMemory ≤ b.totalMemory

/-- Nothing is queued and nothing is placed: the router `g` has `total` bytes on
each of its devices, and the allocator `room d` on device `d`. -/
structure Quiescent (s : Scheduler ContiguousKVAllocator) (g : GPURouter) (total : Nat)
    (room : Int → Nat) : Prop where
  router : s.gpuRouter = some g
  pending : s.pendingQueue = []
  vacant : g.Vacant total
  stats : ∀ d, (s.kvAllocator.deviceStats.lookup d).map (·.freeBytes) =
    if d ∈ g.deviceManager.devices then some (room d) else none
  room_le : ∀ d, room d ≤ total

section Quiescent

variable {s : Scheduler ContiguousKVAllocator} {g : GPURouter} {total : Nat} {room : Int → Nat}
  {r : RequestPtr} {i : Answer}

theorem Quiescent.lookup (h : Quiescent s g total room) (d : Int) (bytes : Nat) :
    (∃ m, s.kvAllocator.deviceStats.lookup d = some m ∧ bytes ≤ m.freeBytes) ↔
      d ∈ g.deviceManager.devices ∧ bytes ≤ room d := by
  have hstats := h.stats d
  by_cases hd : d ∈ g.deviceManager.devices
  · rw [if_pos hd] at hstats
    obtain ⟨m, hm, hroom⟩ := Option.map_eq_some_iff.mp hstats
    simp [hm, hroom, hd]
  · rw [if_neg hd, Option.map_eq_none_iff] at hstats
    simp [hstats, hd]

theorem Quiescent.canAllocate (h : Quiescent s g total room) (n : Nat) :
    s.kvAllocator.canAllocate n = true ↔
      s.kvAllocator.config.deviceId ∈ g.deviceManager.devices ∧
        s.kvAllocator.config.bytesForSeqLen n ≤ room s.kvAllocator.config.deviceId := by
  rw [← h.lookup]
  unfold ContiguousKVAllocator.canAllocate
  cases s.kvAllocator.deviceStats.lookup s.kvAllocator.config.deviceId with
  | none => simp
  | some m => simp

/-- What `admitRequest` decides. -/
theorem Quiescent.admits_iff (h : Quiescent s g total room) {d : SchedulerSetup}
    (hqueue : 0 < d.config.maxQueueSize) :
    Admits d i s r ↔
      (if g.Parallel (s.requests r).contextLength then
        if s.kvAllocator.config.bytesForSeqLenPerDevice (s.requests r).contextLength > 0 then
          s.kvAllocator.config.bytesForSeqLenPerDevice (s.requests r).contextLength
        else s.estimatedBytes r / g.deviceManager.devices.length
      else s.estimatedBytes r) ≤ total ∧
      s.kvAllocator.config.deviceId ∈ g.deviceManager.devices ∧
        s.kvAllocator.config.bytesForSeqLen (s.requests r).contextLength ≤
          room s.kvAllocator.config.deviceId := by
  have hroom : ¬0 ≥ d.config.maxQueueSize := by omega
  rw [← h.canAllocate, ← h.vacant.canPlace]
  unfold Admits admitRequest admitMemory
  simp only [exec_bind, exec_read, h.pending, h.router, List.length_nil, hroom, decide_false,
    Bool.false_eq_true, if_false]
  cases hplace : g.canPlace (s.requests r).contextLength
      (estimateKvMemory (s.requests r).contextLength)
      ((IKVCacheAllocator.config s.kvAllocator).bytesForSeqLenPerDevice
        (s.requests r).contextLength) with
  | false =>
      have hplace' : g.canPlace (s.requests r).contextLength (s.estimatedBytes r)
        (s.kvAllocator.config.bytesForSeqLenPerDevice (s.requests r).contextLength) = false :=
        hplace
      simp [hplace']
  | true =>
      have hplace' : g.canPlace (s.requests r).contextLength (s.estimatedBytes r)
        (s.kvAllocator.config.bytesForSeqLenPerDevice (s.requests r).contextLength) = true :=
        hplace
      cases hallocate : IKVCacheAllocator.canAllocate s.kvAllocator
          (s.requests r).contextLength with
      | false =>
          have hallocate' : s.kvAllocator.canAllocate (s.requests r).contextLength = false :=
            hallocate
          simp [hplace', hallocate', hallocate]
      | true =>
          have hallocate' : s.kvAllocator.canAllocate (s.requests r).contextLength = true :=
            hallocate
          simp [hplace', hallocate', hallocate]

/-- What the placement does, once routed. -/
theorem place_exec (hrouter : s.gpuRouter = some g) :
    let decision := (g.route (s.requests r).contextLength).1
    (∃ e, (s.callAllocator i r (some decision)).1 = .error e ∧
      ((place r).exec i s).1 = .error e) ∨
    ∃ h, (s.callAllocator i r (some decision)).1 = .ok h ∧
      ((place r).exec i s).1 = .ok () ∧
      ((place r).exec i s).2.gpuRouter = some
        (((g.route (s.requests r).contextLength).2.reserve decision (s.estimatedBytes r)).commit
          decision (s.estimatedBytes r)) ∧
      (((place r).exec i s).2.requests r).assignedDevices = decision.deviceIds := by
  intro decision
  have hroute : s.routeRequest r = (some decision,
      ({ s with gpuRouter := some (g.route (s.requests r).contextLength).2 }.modify r
        (fun q => { q with assignedDevices := decision.deviceIds })).log
        (.routed r (s.requests r).contextLength g)) := by
    rw [routeRequest, hrouter]
  have hcall : ((s.routeRequest r).2.reserveBudget r (some decision)).callAllocator i r
      (some decision) = s.callAllocator i r (some decision) := by
    rw [hroute]
    simp [callAllocator, reserveBudget, modify, log, Request.contextLength]
  unfold place
  simp only [exec_bind, exec_atomic, exec_update]
  rw [hroute] at hcall ⊢
  dsimp only at hcall ⊢
  obtain ⟨e, allocator, hfail, heq⟩ | ⟨h, allocator, hserve, heq⟩ := allocateFor_cases
    (((({ s with gpuRouter := some (g.route (s.requests r).contextLength).2 }.modify r
        (fun q => { q with assignedDevices := decision.deviceIds })).log
        (.routed r (s.requests r).contextLength g)).reserveBudget r (some decision))) i r
          (some decision)
  · rw [hcall] at hfail
    exact Or.inl ⟨e, by rw [hfail], by rw [heq]; rfl⟩
  · rw [hcall] at hserve
    refine Or.inr ⟨h, by rw [hserve], by rw [heq]; rfl, ?_, ?_⟩
    · rw [heq]
      simp [commitBudget, reserveBudget, modify, log, estimatedBytes, Request.contextLength]
    · rw [heq]
      simp [commitBudget, reserveBudget, modify, log, estimatedBytes, Request.contextLength]

/-- What the allocator decides. -/
theorem Quiescent.call_ok (h : Quiescent s g total room) (hcuda : ∀ x ∈ i.cuda, x = none) :
    (∃ handle, (s.callAllocator i r
      (some (g.route (s.requests r).contextLength).1)).1 = .ok handle) ↔
    if g.Parallel (s.requests r).contextLength then
      ∀ d ∈ g.deviceManager.devices,
        s.kvAllocator.config.bytesForSeqLenPerDevice (s.requests r).contextLength ≤ room d
    else s.kvAllocator.config.deviceId ∈ g.deviceManager.devices ∧
      s.kvAllocator.config.bytesForSeqLen (s.requests r).contextLength ≤
        room s.kvAllocator.config.deviceId := by
  have hwilling : (s.kvAllocator.withAnswers i.cuda).cuda.Willing := hcuda
  obtain ⟨hp, heq⟩ | ⟨hp, d, -, heq⟩ := h.vacant.route (s.requests r).contextLength
  · obtain ⟨primary, rest, hdevices⟩ := List.exists_cons_of_ne_nil h.vacant.some_device
    have hmany : g.deviceManager.devices.length > 1 := hp.2
    have hcall : s.callAllocator i r (some (g.route (s.requests r).contextLength).1) =
        (s.kvAllocator.withAnswers i.cuda).allocateTensorParallel (s.requests r).contextLength
          (primary :: rest) := by
      rw [heq, ← hdevices]
      unfold callAllocator wantsTensorParallel
      dsimp only
      rw [if_pos (by simp [hmany])]
      rfl
    rw [hcall, if_pos hp, ContiguousKVAllocator.allocateTensorParallel_willing hwilling]
    have hlookup : ∀ d, _ := fun d => h.lookup d
      (s.kvAllocator.config.bytesForSeqLenPerDevice (s.requests r).contextLength)
    rw [← hdevices]
    exact forall₂_congr fun d hd => (hlookup d).trans (and_iff_right hd)
  · have hcall : s.callAllocator i r (some (g.route (s.requests r).contextLength).1) =
        (s.kvAllocator.withAnswers i.cuda).allocateOnDevice (s.requests r).contextLength
          s.kvAllocator.config.deviceId := by
      rw [heq]
      rfl
    rw [hcall, if_neg hp, ContiguousKVAllocator.allocateOnDevice_willing hwilling, ← h.lookup]
    exact Iff.rfl

/-- What placing the request comes to. -/
theorem Quiescent.places_iff (h : Quiescent s g total room) (hcuda : ∀ x ∈ i.cuda, x = none) :
    Places i s r ↔
      (if g.Parallel (s.requests r).contextLength then
        ∀ d ∈ g.deviceManager.devices,
          s.kvAllocator.config.bytesForSeqLenPerDevice (s.requests r).contextLength ≤ room d
      else s.kvAllocator.config.deviceId ∈ g.deviceManager.devices ∧
        s.kvAllocator.config.bytesForSeqLen (s.requests r).contextLength ≤
          room s.kvAllocator.config.deviceId) ∧
      (if g.Parallel (s.requests r).contextLength then
        s.estimatedBytes r / g.deviceManager.devices.length
      else s.estimatedBytes r) ≤ total := by
  have hsize : s.estimatedBytes r < 2 ^ 64 := estimateKvMemory_lt _
  rw [← h.call_ok hcuda, ← h.vacant.placed hsize]
  unfold Places
  obtain ⟨e, hfail, hplace⟩ | ⟨handle, hserve, hplace, hrouter, hassigned⟩ :=
    place_exec (r := r) (i := i) h.router
  · simp [hfail, hplace]
  · rw [hserve, hplace, hrouter, hassigned]
    simp

/-- **Admission.**  From a state with nothing queued or placed, `admitRequest` and the
placement agree on every request that goes to one device.  On a tensor-parallel
one they agree when a request whose parts fit on their devices fits on the first
device as a whole as well, and the other way round. -/
theorem admission_decides (h : Quiescent s g total room) {d : SchedulerSetup}
    (hqueue : 0 < d.config.maxQueueSize) (hcuda : ∀ x ∈ i.cuda, x = none) :
    let n := (s.requests r).contextLength
    let config := s.kvAllocator.config
    let devices := g.deviceManager.devices
    (Admits d i s r ↔ Places i s r) ↔
      (g.Parallel n →
        ((∀ e ∈ devices, config.bytesForSeqLenPerDevice n ≤ room e) →
          estimateKvMemory n / devices.length ≤ total →
          config.deviceId ∈ devices ∧ config.bytesForSeqLen n ≤ room config.deviceId) ∧
        (0 < config.bytesForSeqLenPerDevice n → config.bytesForSeqLenPerDevice n ≤ total →
          config.deviceId ∈ devices → config.bytesForSeqLen n ≤ room config.deviceId →
          (∀ e ∈ devices, config.bytesForSeqLenPerDevice n ≤ room e) ∧
            estimateKvMemory n / devices.length ≤ total)) := by
  intro n config devices
  have hestimated : s.estimatedBytes r = estimateKvMemory n := rfl
  rw [h.admits_iff hqueue, h.places_iff hcuda, hestimated]
  by_cases hp : g.Parallel n
  · rw [if_pos hp, if_pos hp, if_pos hp]
    obtain ⟨e, he⟩ := List.exists_mem_of_ne_nil _ h.vacant.some_device
    have hle := h.room_le e
    have hparts : (∀ e ∈ devices, config.bytesForSeqLenPerDevice n ≤ room e) →
        config.bytesForSeqLenPerDevice n ≤ total := fun hall => (hall e he).trans hle
    have hzero : config.bytesForSeqLenPerDevice n = 0 →
        ∀ e ∈ devices, config.bytesForSeqLenPerDevice n ≤ room e :=
      fun hz e _ => by rw [hz]; exact Nat.zero_le _
    by_cases hpos : 0 < config.bytesForSeqLenPerDevice n
    · rw [if_pos hpos]
      constructor
      · intro hagree _
        exact ⟨fun hall hshare => (hagree.mpr ⟨hall, hshare⟩).2,
          fun _ hpart hhome hwhole => hagree.mp ⟨hpart, hhome, hwhole⟩⟩
      · intro hcond
        obtain ⟨hsplit, hwhole⟩ := hcond hp
        exact ⟨fun ⟨hpart, hhome, hfits⟩ => hwhole hpos hpart hhome hfits,
          fun ⟨hall, hshare⟩ => ⟨hparts hall, hsplit hall hshare⟩⟩
    · rw [if_neg hpos]
      have hall := hzero (Nat.eq_zero_of_not_pos hpos)
      constructor
      · intro hagree _
        exact ⟨fun hall hshare => (hagree.mpr ⟨hall, hshare⟩).2, fun h => absurd h hpos⟩
      · intro hcond
        obtain ⟨hsplit, -⟩ := hcond hp
        exact ⟨fun ⟨hshare, _⟩ => ⟨hall, hshare⟩,
          fun ⟨_, hshare⟩ => ⟨hshare, hsplit hall hshare⟩⟩
  · rw [if_neg hp, if_neg hp, if_neg hp]
    exact ⟨fun _ hpar => absurd hpar hp, fun _ => and_comm⟩

end Quiescent

/-! ## A server as constructed -/

/-- `initialize` gives every managed device the configured memory. -/
theorem initializeStats_free {total : Nat} {deviceMemory : Int → Except String Nat}
    {devices : List Int} {stats stats' : AList (fun _ : Int => MemoryStats)} (htotal : total ≠ 0)
    (h : ContiguousKVAllocator.initializeStats total deviceMemory devices stats = .ok stats')
    (d : Int) :
    (stats'.lookup d).map (·.freeBytes) =
      if d ∈ devices then some total else (stats.lookup d).map (·.freeBytes) := by
  induction devices generalizing stats with
  | nil =>
      cases h
      rfl
  | cons first rest ih =>
      unfold ContiguousKVAllocator.initializeStats at h
      simp only [if_neg htotal] at h
      rw [ih h]
      by_cases hd : d = first
      · subst hd
        simp
      · simp [hd, AList.lookup_insert_ne hd]

/-- A server whose allocator and router have the same memory on the same
devices. -/
theorem quiescent_create {config : KVAllocatorConfig} {deviceMemory : Int → Except String Nat}
    {a : ContiguousKVAllocator} {g : GPURouter} (requests : RequestPtr → Request)
    (ha : ContiguousKVAllocator.initializeAllocator config deviceMemory = .ok a)
    (htotal : config.maxTotalMemory ≠ 0) (hword : config.maxTotalMemory < 2 ^ 64)
    (hdevices : g.deviceManager.devices = config.managedDevices)
    (hnodup : config.managedDevices.Nodup) :
    Quiescent (create a (some (g.initializeBudgets config.maxTotalMemory)) requests)
      (g.initializeBudgets config.maxTotalMemory) config.maxTotalMemory
      (fun _ => config.maxTotalMemory) where
  router := rfl
  pending := rfl
  vacant := by
    refine initializeBudgets_vacant ?_ ?_ hword
    · rw [hdevices]
      unfold KVAllocatorConfig.managedDevices
      split
      next => exact List.cons_ne_nil _ _
      next hne => simpa using hne
    · rw [hdevices]
      exact hnodup
  stats d := by
    unfold ContiguousKVAllocator.initializeAllocator at ha
    split at ha
    next => cases ha
    next stats hok =>
      cases ha
      have hfree := initializeStats_free htotal hok d
      rw [← hdevices] at hfree
      exact hfree
  room_le _ := Nat.le_refl _

/-- The allocator of a server with two GPUs of 1 MiB. -/
def tightAllocator : ContiguousKVAllocator where
  config := KVAllocatorConfig.adopted { maxTotalMemory := 2 ^ 20, deviceIds := [0, 1] }
  deviceStats :=
    ((∅ : AList (fun _ : Int => MemoryStats)).insert 0
      { totalBytes := 2 ^ 20, freeBytes := 2 ^ 20 }).insert 1
      { totalBytes := 2 ^ 20, freeBytes := 2 ^ 20 }

/-- Its router, which splits every request. -/
def tightRouter : GPURouter :=
  ({ deviceManager := { devices := [0, 1], contextThresholdForTp := 0 } } :
    GPURouter).initializeBudgets (2 ^ 20)

/-- The server, with a request of five tokens, which takes 1280 KiB, and requests
of three. -/
def tightServer : Scheduler ContiguousKVAllocator :=
  create tightAllocator (some tightRouter)
    (fun r => { id := "", inputTokens := [1], maxTokens := if r = 0 then 4 else 2 })

theorem tightServer_quiescent :
    Quiescent tightServer tightRouter (2 ^ 20) (fun _ => 2 ^ 20) := by
  have hopened : ContiguousKVAllocator.initializeAllocator
      { maxTotalMemory := 2 ^ 20, deviceIds := [0, 1] } (fun _ => .ok 0) = .ok tightAllocator :=
    rfl
  exact quiescent_create _ hopened (by decide) (by decide) rfl (by decide)

theorem admission_decides_sample :
    Admits sampleSetup {} tightServer 1 ↔ Places {} tightServer 1 := by
  refine (admission_decides tightServer_quiescent (by decide) (by simp)).mpr fun _ => ?_
  exact ⟨fun _ _ => by decide, fun _ _ _ _ => by decide⟩

/-- The parts of the first request fit on the two GPUs, and it is rejected. -/
theorem split_request_rejected :
    ¬Admits sampleSetup {} tightServer 0 ∧ Places {} tightServer 0 := by
  rw [tightServer_quiescent.admits_iff (by decide),
    tightServer_quiescent.places_iff (by simp)]
  decide

end Scheduler

end Qwen
