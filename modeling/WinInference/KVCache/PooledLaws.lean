import WinInference.KVCache.Laws
import WinInference.KVCache.Pooled

/-!
# The pooled allocator hands out valid caches

The outcomes of each operation of `PooledKVAllocator`, and the invariant of its
pools: every free slot and every recorded slot is one of its pool, and every
slot points into the pool's two blocks.  With positive sizes each handle that is
handed out is therefore valid.

`allocate_cases`, `allocateTensorParallel_cases` and `free_valid_cases` are the
outcomes.  `PoolSound` is the invariant of one pool, `Sound` of all of them:
`takeSlot` and `free` move a slot between the free list and the records, and
`Pristine.sound` is where it starts.
-/

namespace Qwen

namespace PooledKVAllocator

variable {a : PooledKVAllocator} {n : Nat}

/-- The handle of an overflow allocation. -/
def overflowHandle (a : PooledKVAllocator) (n : Nat) (deviceId : Int) (k v : Ptr) :
    KVCacheHandle :=
  { kCache := k, vCache := v, maxSeqLen := n, deviceId := deviceId
    allocationId := a.nextAllocationId }

/-- The handle of a tensor-parallel allocation. -/
def parallelHandle (a : PooledKVAllocator) (n : Nat) (primary : Int)
    (caches : List PerDeviceKVCache) : KVCacheHandle :=
  { kCache := caches.head?.bind (·.kCache), vCache := caches.head?.bind (·.vCache)
    maxSeqLen := n, deviceId := primary, allocationId := a.nextAllocationId
    deviceCaches := caches, isTensorParallel := true }

/-- The allocator after an allocation outside the pools. -/
def recorded (a : PooledKVAllocator) (deviceId : Int) (c : Cuda) : PooledKVAllocator :=
  { a with
    cuda := c
    nextAllocationId := a.nextAllocationId + 1
    allocationSlots := a.allocationSlots.insert a.nextAllocationId (deviceId, 0, true) }

/-- The pool of the primary device made sure to exist. -/
def withPool (a : PooledKVAllocator) : PooledKVAllocator :=
  { a with
    devicePools := a.devicePools.insert a.config.deviceId (a.poolAt a.config.deviceId) }

/-- The two outcomes of the fallback allocation: an error that frees what it took,
or a handle with a record. -/
theorem allocateFallback_cases (a : PooledKVAllocator) (n : Nat) (deviceId : Int) :
    (∃ e c, a.allocateFallback n deviceId = (.error e, { a with cuda := c }) ∧
      ∀ held, a.cuda.Owns held → c.Owns held) ∨
    ∃ k v c, a.allocateFallback n deviceId =
        (.ok (overflowHandle a n deviceId k v), a.recorded deviceId c) ∧
      Filled (a.config.bytesForSeqLen n / 2) k v ∧
      ∀ held, a.cuda.Owns held → c.Owns (k.blocks ++ v.blocks ++ held) := by
  unfold allocateFallback
  dsimp only
  have hset : ∀ held, a.cuda.Owns held → (a.cuda.cudaSetDevice deviceId).2.Owns held :=
    fun _ h => h.setDevice deviceId
  rcases hd : a.cuda.cudaSetDevice deviceId with ⟨_ | text, c₁⟩ <;>
    rw [hd] at hset <;> dsimp only at hset ⊢
  · split
    next e c₂ hpair =>
      exact Or.inl ⟨_, c₂, rfl, fun held h => mallocPair_error (hset held h) hpair⟩
    next k v c₂ hpair =>
      exact Or.inr ⟨k, v, c₂, rfl, mallocPair_filled hpair,
        fun held h => mallocPair_ok (hset held h) hpair⟩
  · exact Or.inl ⟨_, c₁, rfl, hset⟩

/-- The two outcomes of the overflow allocation on the configured device. -/
theorem overflow_cases (a : PooledKVAllocator) (n : Nat) :
    (∃ e c, a.overflow n = (.error e, { a with cuda := c }) ∧
      ∀ held, a.cuda.Owns held → c.Owns held) ∨
    ∃ k v c, a.overflow n =
        (.ok (overflowHandle a n a.config.deviceId k v), a.recorded a.config.deviceId c) ∧
      Filled (a.config.bytesForSeqLen n / 2) k v ∧
      ∀ held, a.cuda.Owns held → c.Owns (k.blocks ++ v.blocks ++ held) := by
  unfold overflow
  by_cases hallow : a.poolConfig.allowOverflow
  · rw [if_pos hallow]
    exact allocateFallback_cases a n a.config.deviceId
  · rw [if_neg hallow]
    exact Or.inl ⟨_, a.cuda, rfl, fun _ h => h⟩

/-- An allocation takes the slot on top of the free stack, or overflows. -/
theorem allocate_cases (a : PooledKVAllocator) (n : Nat) :
    (∃ slotIdx freeSlots, (a.poolAt a.config.deviceId).freeSlots = slotIdx :: freeSlots ∧
      a.allocate n =
        (.ok (a.takeSlot n (a.poolAt a.config.deviceId) slotIdx freeSlots).1,
          (a.takeSlot n (a.poolAt a.config.deviceId) slotIdx freeSlots).2)) ∨
    a.allocate n = a.overflow n ∨ a.allocate n = a.withPool.overflow n := by
  unfold allocate
  by_cases hfits : n ≤ a.poolConfig.slotSizeTokens
  · rw [if_pos hfits]
    dsimp only
    cases hfree : (a.poolAt a.config.deviceId).freeSlots with
    | nil => exact Or.inr (Or.inr rfl)
    | cons slotIdx freeSlots => exact Or.inl ⟨slotIdx, freeSlots, rfl, rfl⟩
  · rw [if_neg hfits]
    exact Or.inr (Or.inl rfl)

/-- The outcomes of a tensor-parallel allocation over a non-empty device list. -/
theorem allocateTensorParallel_cases (a : PooledKVAllocator) (n : Nat) (primary : Int)
    (rest : List Int) :
    (∃ e c, a.allocateTensorParallel n (primary :: rest) =
        (.error e, { a with cuda := c, nextAllocationId := a.nextAllocationId + 1 }) ∧
      ∀ held, a.cuda.Owns held → c.Owns held) ∨
    ∃ caches c, a.allocateTensorParallel n (primary :: rest) =
        (.ok (parallelHandle a n primary caches), a.recorded primary c) ∧
      caches.map (·.deviceId) = primary :: rest ∧
      (∀ cache ∈ caches,
        Filled (a.config.bytesForSeqLenPerDevice n / 2) cache.kCache cache.vCache) ∧
      ∀ held, a.cuda.Owns held → c.Owns (cacheBlocks caches ++ held) := by
  unfold allocateTensorParallel allocateTensorParallelFallback
  dsimp only
  split
  next e stats c heach =>
    exact Or.inl ⟨e, c, rfl, fun held h => allocateEach_error (by simpa using h) heach⟩
  next caches stats c heach =>
    exact Or.inr ⟨caches, c, rfl, by simpa using allocateEach_devices heach,
      allocateEach_filled heach (by simp),
      fun held h => allocateEach_ok (by simpa using h) heach⟩

/-- What `free` of a valid handle does. -/
theorem free_valid_cases {h : KVCacheHandle} (hvalid : h.isValid) :
    (a.free h).1 = { h with kCache := none, vCache := none, allocationId := 0 } ∧
    ((a.allocationSlots.lookup h.allocationId = none ∧ (a.free h).2 = a) ∨
      (∃ deviceId slotIdx,
        a.allocationSlots.lookup h.allocationId = some (deviceId, slotIdx, true) ∧
        (a.free h).2 =
          { a with
            cuda :=
              ((a.cuda.cudaSetDevice deviceId).2.cudaFree h.kCache).cudaFree h.vCache
            allocationSlots := a.allocationSlots.erase h.allocationId }) ∨
      ∃ deviceId slotIdx,
        a.allocationSlots.lookup h.allocationId = some (deviceId, slotIdx, false) ∧
        (a.free h).2 =
          { a.returnSlot deviceId slotIdx with
            allocationSlots := a.allocationSlots.erase h.allocationId }) := by
  unfold free
  rw [if_pos hvalid]
  refine ⟨rfl, ?_⟩
  cases hrecord : a.allocationSlots.lookup h.allocationId with
  | none => exact Or.inl ⟨rfl, rfl⟩
  | some record =>
      obtain ⟨deviceId, slotIdx, isOverflow⟩ := record
      cases isOverflow with
      | true => exact Or.inr (Or.inl ⟨deviceId, slotIdx, rfl, rfl⟩)
      | false => exact Or.inr (Or.inr ⟨deviceId, slotIdx, rfl, rfl⟩)

/-- Freeing an invalid handle changes nothing. -/
theorem free_invalid {h : KVCacheHandle} (hvalid : h.isValid = false) :
    a.free h = (h, a) := by
  simp [free, hvalid]

/-- After `free` a single-device handle is not valid. -/
theorem free_not_valid (a : PooledKVAllocator) {h : KVCacheHandle}
    (hsingle : h.isTensorParallel = false) : (a.free h).1.isValid = false := by
  by_cases hvalid : h.isValid
  · rw [(free_valid_cases hvalid).1]
    simp [KVCacheHandle.isValid, hsingle]
  · rw [free_invalid (by simpa using hvalid)]
    simpa using hvalid

/-! ## The pools -/

/-- Free slots exist, and every slot has its two pointers. -/
structure PoolSound (pool : DevicePool) : Prop where
  free : ∀ i ∈ pool.freeSlots, i < pool.slots.length
  mapped : ∀ slot ∈ pool.slots, slot.kCache.isSome ∧ slot.vCache.isSome

/-- Every pool is sound, and every recorded slot is one of its pool. -/
structure Sound (config : KVAllocatorConfig) (a : PooledKVAllocator) : Prop where
  config_eq : a.config = config
  pools : ∀ deviceId pool, a.devicePools.lookup deviceId = some pool → PoolSound pool
  records : ∀ id deviceId slotIdx,
    a.allocationSlots.lookup id = some (deviceId, slotIdx, false) →
      ∃ pool, a.devicePools.lookup deviceId = some pool ∧ slotIdx < pool.slots.length

/-- An empty pool is sound. -/
theorem poolSound_default : PoolSound {} := ⟨by simp, by simp⟩

namespace Sound

variable {config : KVAllocatorConfig}

/-- Every pool of a sound allocator is sound. -/
theorem poolAt (h : Sound config a) (deviceId : Int) : PoolSound (a.poolAt deviceId) := by
  unfold PooledKVAllocator.poolAt
  cases hpool : a.devicePools.lookup deviceId with
  | none => exact poolSound_default
  | some pool => exact h.pools deviceId pool hpool

/-- Replacing a pool by a sound one of the same size. -/
theorem setPool (h : Sound config a) (deviceId : Int) {pool : DevicePool}
    (hsound : PoolSound pool)
    (hlength : pool.slots.length = (a.poolAt deviceId).slots.length) :
    Sound config { a with devicePools := a.devicePools.insert deviceId pool } := by
  refine ⟨h.config_eq, fun d p hp => ?_, fun id d idx hid => ?_⟩
  · by_cases hd : d = deviceId
    · subst hd
      obtain rfl : pool = p := by simpa using hp
      exact hsound
    · rw [AList.lookup_insert_ne hd] at hp
      exact h.pools d p hp
  · obtain ⟨p, hp, hidx⟩ := h.records id d idx hid
    by_cases hd : d = deviceId
    · subst hd
      refine ⟨pool, by simp, ?_⟩
      rw [hlength, PooledKVAllocator.poolAt, hp]
      exact hidx
    · exact ⟨p, by rw [AList.lookup_insert_ne hd]; exact hp, hidx⟩

/-- Making sure of the primary device's pool keeps the allocator sound. -/
theorem withPool (h : Sound config a) : Sound config a.withPool :=
  h.setPool _ (h.poolAt _) rfl

/-- Recording an allocation outside the pools. -/
theorem recorded (h : Sound config a) (deviceId : Int) (c : Cuda) :
    Sound config (a.recorded deviceId c) := by
  refine ⟨h.config_eq, h.pools, fun id d idx hid => ?_⟩
  by_cases hnew : id = a.nextAllocationId
  · subst hnew
    simp [PooledKVAllocator.recorded] at hid
  · refine h.records id d idx ?_
    simpa [PooledKVAllocator.recorded, AList.lookup_insert_ne hnew] using hid

/-- Only the pools and the records matter. -/
theorem congr (h : Sound config a) (c : Cuda) (next : Nat) :
    Sound config { a with cuda := c, nextAllocationId := next } :=
  ⟨h.config_eq, h.pools, h.records⟩

/-- Erasing a record keeps the allocator sound. -/
theorem eraseRecord (h : Sound config a) (id : Nat) (c : Cuda) :
    Sound config
      { a with cuda := c, allocationSlots := a.allocationSlots.erase id } := by
  refine ⟨h.config_eq, h.pools, fun id' d idx hid => ?_⟩
  by_cases hsame : id' = id
  · subst hsame
    simp at hid
  · rw [AList.lookup_erase_ne hsame] at hid
    exact h.records id' d idx hid

/-- Marking a slot that exists. -/
theorem poolSound_set {pool : DevicePool} (h : PoolSound pool) {i : Nat}
    (hi : i < pool.slots.length) (inUse : Bool) (stats : MemoryStats)
    {freeSlots : List Nat} (hfree : ∀ j ∈ freeSlots, j < pool.slots.length) :
    PoolSound { pool with
      freeSlots := freeSlots
      slots := pool.slots.set i { pool.slots.getD i {} with inUse := inUse }
      stats := stats } := by
  refine ⟨by simpa using hfree, fun slot hslot => ?_⟩
  rcases List.mem_or_eq_of_mem_set hslot with hold | rfl
  · exact h.mapped slot hold
  · have hslot : pool.slots.getD i {} = pool.slots[i] := by
      simp [List.getElem?_eq_getElem hi]
    rw [hslot]
    simpa using h.mapped _ (List.getElem_mem hi)

/-- Taking a free slot leaves the pools sound and gives a valid handle. -/
theorem takeSlot (h : Sound config a) {slotIdx : Nat} {freeSlots : List Nat}
    (hfree : (a.poolAt a.config.deviceId).freeSlots = slotIdx :: freeSlots) :
    Sound config (a.takeSlot n (a.poolAt a.config.deviceId) slotIdx freeSlots).2 ∧
      (a.takeSlot n (a.poolAt a.config.deviceId) slotIdx freeSlots).1.isValid := by
  have hpool := h.poolAt a.config.deviceId
  have hidx : slotIdx < (a.poolAt a.config.deviceId).slots.length :=
    hpool.free slotIdx (by simp [hfree])
  have hset := h.setPool a.config.deviceId
    (poolSound_set hpool hidx true ((a.poolAt a.config.deviceId).stats.charge a.slotBytes)
      (fun j hj => hpool.free j (by rw [hfree]; exact List.mem_cons_of_mem _ hj)))
    (by simp)
  constructor
  · refine ⟨hset.config_eq, hset.pools, fun id d idx hid => ?_⟩
    by_cases hnew : id = a.nextAllocationId
    · subst hnew
      obtain ⟨rfl, rfl⟩ : a.config.deviceId = d ∧ slotIdx = idx := by
        simpa [PooledKVAllocator.takeSlot] using hid
      exact ⟨_, AList.lookup_insert _, by simpa using hidx⟩
    · refine hset.records id d idx ?_
      simpa [PooledKVAllocator.takeSlot, AList.lookup_insert_ne hnew] using hid
  · obtain ⟨hk, hv⟩ := hpool.mapped _ (List.getElem_mem hidx)
    simp [PooledKVAllocator.takeSlot, KVCacheHandle.isValid,
      List.getElem?_eq_getElem hidx, hk, hv]

/-- `free` of any handle leaves the pools sound. -/
theorem free (h : Sound config a) (handle : KVCacheHandle) :
    Sound config (a.free handle).2 := by
  by_cases hvalid : handle.isValid
  · obtain ⟨-, ⟨-, heq⟩ | ⟨d, idx, -, heq⟩ | ⟨d, idx, hrecord, heq⟩⟩ :=
      free_valid_cases (a := a) hvalid
    · rw [heq]
      exact h
    · rw [heq]
      exact h.eraseRecord _ _
    · rw [heq]
      obtain ⟨pool, hpool, hidx⟩ := h.records _ d idx hrecord
      have hidx' : idx < (a.poolAt d).slots.length := by
        rw [PooledKVAllocator.poolAt, hpool]
        exact hidx
      refine eraseRecord (a := a.returnSlot d idx) ?_ handle.allocationId _
      refine h.setPool d (poolSound_set (h.poolAt d) hidx' false _ (fun j hj => ?_))
        (by simp)
      rcases List.mem_cons.mp hj with rfl | hj
      · exact hidx'
      · exact (h.poolAt d).free j hj
  · rw [free_invalid (by simpa using hvalid)]
    exact h

/-- The answers to come do not bear on soundness. -/
theorem withAnswers (h : Sound config a) (answers : List (Option String)) :
    Sound config (a.withAnswers answers) :=
  ⟨h.config_eq, h.pools, h.records⟩

end Sound

/-! ## Initialization -/

/-- The pool of a device is allocated whole, or not at all. -/
theorem allocatePoolForDevice_cases (a : PooledKVAllocator) (deviceId : Int) :
    (∃ e c, a.allocatePoolForDevice deviceId = (.error e, { a with cuda := c })) ∨
    ∃ k v c, a.allocatePoolForDevice deviceId =
        (.ok (), { a with
          cuda := c, devicePools := a.devicePools.insert deviceId (a.cutPool k v) }) ∧
      Filled (a.poolBytes / 2) k v ∧
      ∀ held, a.cuda.Owns held → c.Owns (k.blocks ++ v.blocks ++ held) := by
  unfold allocatePoolForDevice
  have hset : ∀ held, a.cuda.Owns held → (a.cuda.cudaSetDevice deviceId).2.Owns held :=
    fun _ h => h.setDevice deviceId
  rcases hd : a.cuda.cudaSetDevice deviceId with ⟨_ | text, c₁⟩ <;>
    rw [hd] at hset <;> dsimp only at hset ⊢
  · split
    next e c₂ hpair => exact Or.inl ⟨e, c₂, rfl⟩
    next k v c₂ hpair =>
      exact Or.inr ⟨k, v, c₂, rfl, mallocPair_filled hpair,
        fun held h => mallocPair_ok (hset held h) hpair⟩
  · exact Or.inl ⟨_, c₁, rfl⟩

/-- Before the first allocation: whole pools, and nothing recorded. -/
structure Pristine (a : PooledKVAllocator) : Prop where
  cut : ∀ deviceId pool, a.devicePools.lookup deviceId = some pool →
    ∃ k v, pool = a.cutPool k v ∧ Filled (a.poolBytes / 2) k v
  records : a.allocationSlots = ∅
  slotBytes : a.slotBytes = a.config.bytesForSeqLen a.poolConfig.slotSizeTokens

/-- Adding the pool of one more device keeps the allocator pristine. -/
theorem Pristine.addPool (h : Pristine a) {k v : Ptr} (hfilled : Filled (a.poolBytes / 2) k v)
    (deviceId : Int) (c : Cuda) :
    Pristine { a with
      cuda := c, devicePools := a.devicePools.insert deviceId (a.cutPool k v) } := by
  refine ⟨fun d pool hd => ?_, h.records, h.slotBytes⟩
  by_cases hsame : d = deviceId
  · subst hsame
    obtain rfl : a.cutPool k v = pool := by simpa using hd
    exact ⟨k, v, rfl, hfilled⟩
  · dsimp only at hd
    rw [AList.lookup_insert_ne hsame] at hd
    exact h.cut d pool hd

/-- Allocating the pools of a device list keeps the allocator pristine. -/
theorem Pristine.allocatePools {a' : PooledKVAllocator} {devices : List Int}
    (h : Pristine a) (heq : a.allocatePools devices = (.ok (), a')) :
    Pristine a' ∧ a'.config = a.config ∧ a'.poolConfig = a.poolConfig := by
  induction devices generalizing a with
  | nil =>
      cases heq
      exact ⟨h, rfl, rfl⟩
  | cons deviceId rest ih =>
      rw [PooledKVAllocator.allocatePools] at heq
      obtain ⟨e, c, hfail⟩ | ⟨k, v, c, hserve, hfilled, -⟩ :=
        allocatePoolForDevice_cases a deviceId
      · rw [hfail] at heq
        cases heq
      · rw [hserve] at heq
        have hrest := ih (h.addPool hfilled deviceId c) heq
        exact hrest

/-- An allocator with its configuration set, and no pool yet, is pristine. -/
theorem pristine_configured (poolConfig : PooledAllocatorConfig)
    (config : KVAllocatorConfig) (cuda : Cuda) :
    Pristine (configured poolConfig config cuda) :=
  ⟨by simp [configured], rfl, rfl⟩

/-- An initialised allocator is pristine. -/
theorem pristine_initializeAllocator {poolConfig : PooledAllocatorConfig}
    {config : KVAllocatorConfig} {cuda : Cuda}
    (heq : initializeAllocator poolConfig config cuda = (.ok (), a)) :
    Pristine a ∧ a.config = config.adopted ∧ a.poolConfig = poolConfig :=
  (pristine_configured poolConfig config cuda).allocatePools heq

/-- The bytes of a pool are even. -/
theorem Pristine.half_pos (h : Pristine a) (hpos : 0 < a.poolBytes) :
    0 < a.poolBytes / 2 := by
  have heven : 2 ∣ a.poolBytes := by
    rw [poolBytes, h.slotBytes]
    refine Wrapping.two_dvd_mul (by decide) (Dvd.dvd.mul_right ?_ _)
    exact Wrapping.two_dvd_mul (by decide) (Dvd.dvd.mul_left (a.config.bytesPerHeads_even _) _)
  omega

/-- Pools that are not empty are sound. -/
theorem Pristine.sound (h : Pristine a) (hpool : 0 < a.poolBytes ∨ a.poolConfig.numSlots = 0) :
    Sound a.config a := by
  refine ⟨rfl, fun d pool hd => ?_, fun id d idx hid => ?_⟩
  · obtain ⟨k, v, rfl, hfilled⟩ := h.cut d pool hd
    refine ⟨fun i hi => ?_, fun slot hslot => ?_⟩
    · simpa [cutPool] using hi
    · obtain ⟨i, hi, rfl⟩ := List.mem_map.mp hslot
      have hlt : i < a.poolConfig.numSlots := List.mem_range.mp hi
      obtain ⟨hk, hv⟩ := hfilled.isSome (h.half_pos (hpool.resolve_right (by omega)))
      simp [cutSlot, Ptr.shift, hk, hv]
  · rw [h.records] at hid
    simp at hid

/-- The pooled allocator of a server with two GPUs, as `main` sets it up. -/
def samplePooled : PooledKVAllocator :=
  (initializeAllocator {} { deviceIds := [0, 1] } {}).2

/-- The allocator of the examples is initialised without an error. -/
theorem samplePooled_ok :
    initializeAllocator {} { deviceIds := [0, 1] } {} = (.ok (), samplePooled) := by rfl

/-! ## The specifications -/

/-- The handle of an overflow allocation is valid when both halves are there. -/
theorem overflowHandle_valid {deviceId : Int} {k v : Ptr} (h : k.isSome ∧ v.isSome) :
    (overflowHandle a n deviceId k v).isValid := by
  simp [overflowHandle, KVCacheHandle.isValid, h.1, h.2]

/-- A tensor-parallel handle is valid once the caches of its devices are
filled. -/
theorem parallelHandle_valid {primary : Int} {rest : List Int} {half : Nat}
    {caches : List PerDeviceKVCache} (hdevices : caches.map (·.deviceId) = primary :: rest)
    (hfilled : ∀ cache ∈ caches, Filled half cache.kCache cache.vCache) (hpos : 0 < half) :
    (parallelHandle a n primary caches).isValid := by
  cases caches with
  | nil => cases hdevices
  | cons cache caches =>
      simpa [parallelHandle, KVCacheHandle.isValid] using
        ((hfilled cache List.mem_cons_self).isSome hpos).1

section Specifications

variable {config : KVAllocatorConfig} {a' : PooledKVAllocator} {h : KVCacheHandle} {e : Error}

/-- A single-device allocation keeps the pools sound, and its handle is valid. -/
theorem Sound.allocate_ok (hs : Sound config a) (heq : a.allocate n = (.ok h, a')) :
    Sound config a' ∧ (0 < config.bytesForSeqLen n → h.isValid) := by
  have hoverflow : ∀ b : PooledKVAllocator, Sound config b → b.overflow n = (.ok h, a') →
      Sound config a' ∧ (0 < config.bytesForSeqLen n → h.isValid) := by
    intro b hb hover
    obtain ⟨e, c, hfail, -⟩ | ⟨k, v, c, hserve, hfilled, -⟩ := overflow_cases b n
    · cases hover.symm.trans hfail
    · cases hover.symm.trans hserve
      refine ⟨hb.recorded _ c, fun hpos => overflowHandle_valid (hfilled.isSome ?_)⟩
      rw [hb.config_eq]
      exact KVAllocatorConfig.half_pos hpos
  obtain ⟨slotIdx, freeSlots, hfree, htake⟩ | hover | hover := allocate_cases a n
  · cases heq.symm.trans htake
    exact ⟨(hs.takeSlot hfree).1, fun _ => (hs.takeSlot hfree).2⟩
  · exact hoverflow a hs (hover.symm.trans heq)
  · exact hoverflow a.withPool hs.withPool (hover.symm.trans heq)

/-- A failed allocation keeps the allocator sound. -/
theorem Sound.allocate_error (hs : Sound config a) (heq : a.allocate n = (.error e, a')) :
    Sound config a' := by
  have hoverflow : ∀ b : PooledKVAllocator, Sound config b → b.overflow n = (.error e, a') →
      Sound config a' := by
    intro b hb hover
    obtain ⟨e', c, hfail, -⟩ | ⟨k, v, c, hserve, -⟩ := overflow_cases b n
    · cases hover.symm.trans hfail
      exact hb.congr c _
    · cases hover.symm.trans hserve
  obtain ⟨slotIdx, freeSlots, -, htake⟩ | hover | hover := allocate_cases a n
  · cases heq.symm.trans htake
  · exact hoverflow a hs (hover.symm.trans heq)
  · exact hoverflow a.withPool hs.withPool (hover.symm.trans heq)

/-- The pooled allocator hands out valid handles; it owns more than their
blocks, so the live handles are not tracked. -/
theorem ownershipLaws (config : KVAllocatorConfig) :
    OwnershipLaws (fun a _ => Sound config a)
      (fun n => 0 < config.bytesForSeqLen n ∧ 0 < config.bytesForSeqLenPerDevice n) where
  perm hs _ := hs
  grant hs := hs
  ungrant hs := hs
  allocate_error {_ _ answers _ _ _} hs heq := (hs.withAnswers answers).allocate_error heq
  allocate_ok {_ _ answers _ _ _} hs heq :=
    ((hs.withAnswers answers).allocate_ok heq).imp_right fun hvalid hsized => hvalid hsized.1
  tensorParallel_error {a hs answers n devices e a'} hsound heq := by
    have hsound' := hsound.withAnswers answers
    cases devices with
    | nil => exact hsound'.allocate_error heq
    | cons primary rest =>
        obtain ⟨e', c, hfail, -⟩ | ⟨caches, c, hserve, -⟩ :=
          allocateTensorParallel_cases (a.withAnswers answers) n primary rest
        · cases heq.symm.trans hfail
          exact hsound'.congr c _
        · cases heq.symm.trans hserve
  tensorParallel_ok {a hs answers n devices h a'} hsound hne heq := by
    have hsound' := hsound.withAnswers answers
    obtain ⟨primary, rest, rfl⟩ := List.exists_cons_of_ne_nil hne
    obtain ⟨e', c, hfail, -⟩ | ⟨caches, c, hserve, hdevices, hfilled, -⟩ :=
      allocateTensorParallel_cases (a.withAnswers answers) n primary rest
    · cases heq.symm.trans hfail
    · cases heq.symm.trans hserve
      refine ⟨hsound'.recorded primary c,
        fun hsized => parallelHandle_valid hdevices hfilled ?_⟩
      rw [hsound'.config_eq]
      exact KVAllocatorConfig.half_pos_perDevice hsized.2
  free {_ h _} hs _ := hs.free h

end Specifications

/-- An overflow handle is on the configured device and not tensor parallel. -/
theorem overflow_shape {a a' : PooledKVAllocator} {h : KVCacheHandle}
    (heq : a.overflow n = (.ok h, a')) :
    h.devices = [a.config.deviceId] ∧ h.isTensorParallel = false ∧ h.maxSeqLen = n ∧
      h.currentLen = 0 := by
  obtain ⟨e, c, hfail, -⟩ | ⟨k, v, c, hserve, -⟩ := overflow_cases a n
  · cases heq.symm.trans hfail
  · cases heq.symm.trans hserve
    exact ⟨rfl, rfl, rfl, rfl⟩

/-- An overflow allocation leaves the configuration alone. -/
theorem overflow_config (a : PooledKVAllocator) (n : Nat) :
    (a.overflow n).2.config = a.config := by
  obtain ⟨e, c, heq, -⟩ | ⟨k, v, c, heq, -⟩ := overflow_cases a n
  · exact congrArg (·.2.config) heq
  · exact congrArg (·.2.config) heq

/-- An allocation leaves the configuration alone. -/
theorem allocate_config (a : PooledKVAllocator) (n : Nat) :
    (a.allocate n).2.config = a.config := by
  obtain ⟨slotIdx, freeSlots, -, heq⟩ | heq | heq := allocate_cases a n
  · exact congrArg (·.2.config) heq
  · rw [heq, overflow_config]
  · rw [heq, overflow_config]
    rfl

instance : LawfulKVCacheAllocator PooledKVAllocator where
  allocate_shape {answers a a' n h} heq := by
    obtain ⟨slotIdx, freeSlots, -, htake⟩ | hover | hover :=
      allocate_cases (a.withAnswers answers) n
    · cases heq.symm.trans htake
      exact ⟨rfl, rfl, rfl, rfl⟩
    · exact overflow_shape (a := a.withAnswers answers) (hover.symm.trans heq)
    · exact overflow_shape (a := (a.withAnswers answers).withPool) (hover.symm.trans heq)
  tensorParallel_shape {answers a a' n devices h} hne heq := by
    obtain ⟨primary, rest, rfl⟩ := List.exists_cons_of_ne_nil hne
    obtain ⟨e', c, hfail, -⟩ | ⟨caches, c, hserve, hdevices, -⟩ :=
      allocateTensorParallel_cases (a.withAnswers answers) n primary rest
    · cases heq.symm.trans hfail
    · cases heq.symm.trans hserve
      exact ⟨hdevices, rfl, rfl, rfl⟩
  free_shape a h := by
    by_cases hvalid : h.isValid <;> simp [IKVCacheAllocator.free, free, hvalid]
  allocate_config answers a n := allocate_config (a.withAnswers answers) n
  tensorParallel_config answers a n devices := by
    cases devices with
    | nil => exact allocate_config (a.withAnswers answers) n
    | cons primary rest =>
        obtain ⟨e', c, heq, -⟩ | ⟨caches, c, heq, -⟩ :=
          allocateTensorParallel_cases (a.withAnswers answers) n primary rest
        · exact congrArg (·.2.config) heq
        · exact congrArg (·.2.config) heq
  free_config a h := by
    by_cases hvalid : h.isValid
    · obtain ⟨-, ⟨-, heq⟩ | ⟨d, idx, -, heq⟩ | ⟨d, idx, -, heq⟩⟩ :=
        free_valid_cases (a := a) hvalid
      · exact congrArg (·.config) heq
      · exact congrArg (·.config) heq
      · exact congrArg (·.config) heq
    · have heq := free_invalid (a := a) (h := h) (by simpa using hvalid)
      exact congrArg (·.2.config) heq

end PooledKVAllocator

end Qwen
