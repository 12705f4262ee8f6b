import WinInference.KVCache.Contiguous
import WinInference.KVCache.Laws

/-!
# The contiguous allocator keeps its books

Each operation of `ContiguousKVAllocator` is first taken apart into its
outcomes.  From these follow the two specifications of a KV allocator: the
`allocations_` map and the outstanding device blocks are those of the live
handles, whatever the CUDA runtime answers.

`allocateOnDevice_cases`, `allocateTensorParallel_cases` and `free_valid` are
the outcomes.  `Holds` is the invariant over the live handles:
`Holds.allocate_error` and the lemmas `keep`, `add` and `remove` keep it, and
`ownershipLaws` packs it into the specification.
-/

namespace Qwen

namespace ContiguousKVAllocator

variable {a : ContiguousKVAllocator} {n : Nat}

/-- The handle of a successful single-device allocation. -/
def deviceHandle (a : ContiguousKVAllocator) (n : Nat) (deviceId : Int) (k v : Ptr) :
    KVCacheHandle :=
  { kCache := k, vCache := v, maxSeqLen := n, deviceId := deviceId
    allocationId := a.nextAllocationId }

/-- The handle of a successful tensor-parallel allocation. -/
def parallelHandle (a : ContiguousKVAllocator) (n : Nat) (primary : Int)
    (caches : List PerDeviceKVCache) : KVCacheHandle :=
  { kCache := caches.head?.bind (·.kCache), vCache := caches.head?.bind (·.vCache)
    maxSeqLen := n, deviceId := primary, allocationId := a.nextAllocationId
    deviceCaches := caches, isTensorParallel := true }

/-- A single-device allocation fails with nothing taken, or takes a K and a V
block and one id. -/
theorem allocateOnDevice_cases (a : ContiguousKVAllocator) (n : Nat) (deviceId : Int) :
    (∃ e c, a.allocateOnDevice n deviceId = (.error e, { a with cuda := c }) ∧
      ∀ held, a.cuda.Owns held → c.Owns held) ∨
    ∃ k v c stats, a.allocateOnDevice n deviceId =
        (.ok (deviceHandle a n deviceId k v),
          { a with
            cuda := c
            deviceStats := stats
            nextAllocationId := a.nextAllocationId + 1
            allocations :=
              a.allocations.insert a.nextAllocationId (a.config.bytesForSeqLen n) }) ∧
      Filled (a.config.bytesForSeqLen n / 2) k v ∧
      ∀ held, a.cuda.Owns held → c.Owns (k.blocks ++ v.blocks ++ held) := by
  unfold allocateOnDevice
  dsimp only
  cases a.deviceStats.lookup deviceId with
  | none => exact Or.inl ⟨_, a.cuda, rfl, fun _ h => h⟩
  | some stats =>
      dsimp only
      by_cases hroom : a.config.bytesForSeqLen n > stats.freeBytes
      · rw [if_pos hroom]
        exact Or.inl ⟨_, a.cuda, rfl, fun _ h => h⟩
      rw [if_neg hroom]
      have hset : ∀ held, a.cuda.Owns held → (a.cuda.cudaSetDevice deviceId).2.Owns held :=
        fun _ h => h.setDevice deviceId
      rcases hd : a.cuda.cudaSetDevice deviceId with ⟨_ | text, c₁⟩ <;>
        rw [hd] at hset <;> dsimp only at hset ⊢
      · split
        next e c₂ hpair =>
          exact Or.inl ⟨_, c₂, rfl, fun held h => mallocPair_error (hset held h) hpair⟩
        next k v c₂ hpair =>
          exact Or.inr ⟨k, v, c₂, _, rfl, mallocPair_filled hpair,
            fun held h => mallocPair_ok (hset held h) hpair⟩
      · exact Or.inl ⟨_, c₁, rfl, hset⟩

/-- A tensor-parallel allocation over some devices fails with nothing taken, or
takes one cache per device and one id. -/
theorem allocateTensorParallel_cases (a : ContiguousKVAllocator) (n : Nat) (primary : Int)
    (rest : List Int) :
    (∃ e c stats next, a.allocateTensorParallel n (primary :: rest) =
        (.error e, { a with deviceStats := stats, cuda := c, nextAllocationId := next }) ∧
      a.nextAllocationId ≤ next ∧ ∀ held, a.cuda.Owns held → c.Owns held) ∨
    ∃ caches c stats, a.allocateTensorParallel n (primary :: rest) =
        (.ok (parallelHandle a n primary caches),
          { a with
            deviceStats := stats
            cuda := c
            nextAllocationId := a.nextAllocationId + 1
            allocations := a.allocations.insert a.nextAllocationId
              (sizeMul (a.config.bytesForSeqLenPerDevice n) (rest.length + 1)) }) ∧
      caches.map (·.deviceId) = primary :: rest ∧
      (∀ cache ∈ caches,
        Filled (a.config.bytesForSeqLenPerDevice n / 2) cache.kCache cache.vCache) ∧
      ∀ held, a.cuda.Owns held → c.Owns (cacheBlocks caches ++ held) := by
  unfold allocateTensorParallel
  dsimp only
  cases a.checkDevices (a.config.bytesForSeqLenPerDevice n) (primary :: rest) with
  | error e =>
      exact Or.inl ⟨_, a.cuda, a.deviceStats, a.nextAllocationId, rfl, Nat.le_refl _,
        fun _ h => h⟩
  | ok _ =>
      dsimp only
      split
      next e stats c heach =>
        exact Or.inl ⟨e, c, stats, _, rfl, Nat.le_succ _,
          fun held h => allocateEach_error (by simpa using h) heach⟩
      next caches stats c heach =>
        exact Or.inr ⟨caches, c, stats, rfl, by simpa using allocateEach_devices heach,
          allocateEach_filled heach (by simp),
          fun held h => allocateEach_ok (by simpa using h) heach⟩

/-- What `free` of a valid handle does to the blocks and to the map. -/
theorem free_valid {h : KVCacheHandle} {held : List Nat} (hvalid : h.isValid)
    (hown : a.cuda.Owns (h.blocks ++ held)) :
    ∃ c stats, a.free h =
        ({ h with kCache := none, vCache := none, deviceCaches := [], allocationId := 0 },
          { a with
            deviceStats := stats
            cuda := c
            allocations := a.allocations.erase h.allocationId }) ∧
      c.Owns held := by
  unfold free
  rw [if_pos hvalid]
  cases htp : h.isTensorParallel with
  | true =>
      refine ⟨freeCaches a.cuda h.deviceCaches, _, rfl, ?_⟩
      exact freeCaches_owns (by simpa [KVCacheHandle.blocks, htp] using hown)
  | false =>
      have hpair : a.cuda.Owns (h.kCache.blocks ++ (h.vCache.blocks ++ held)) := by
        simpa [KVCacheHandle.blocks, htp] using hown
      have hfreed := (hpair.setDevice h.deviceId).free.free
      cases hstats : a.deviceStats.lookup h.deviceId with
      | none => exact ⟨_, a.deviceStats, rfl, hfreed⟩
      | some m => exact ⟨_, _, rfl, hfreed⟩

/-- After `free` a handle is not valid, whatever it was. -/
theorem free_not_valid (a : ContiguousKVAllocator) (h : KVCacheHandle) :
    (a.free h).1.isValid = false := by
  unfold free
  by_cases hvalid : h.isValid
  · rw [if_pos hvalid]
    simp [KVCacheHandle.isValid]
  · rw [if_neg hvalid]
    simpa using hvalid

/-- The live handles are `hs`: each owns its entry of `allocations_` and its
device blocks, and nothing else is outstanding. -/
structure Holds (config : KVAllocatorConfig) (a : ContiguousKVAllocator)
    (hs : List KVCacheHandle) : Prop where
  config_eq : a.config = config
  keys : a.allocations.keys.Perm (hs.map (·.allocationId))
  below : ∀ k ∈ a.allocations.keys, k < a.nextAllocationId
  owns : a.cuda.Owns (hs.flatMap (·.blocks))

namespace Holds

variable {config : KVAllocatorConfig} {hs hs' : List KVCacheHandle} {h : KVCacheHandle}

theorem perm (hh : Holds config a hs) (hp : hs.Perm hs') : Holds config a hs' :=
  ⟨hh.config_eq, hh.keys.trans (hp.map _), hh.below, hh.owns.perm (hp.flatMap_right _)⟩

/-- An operation that only draws ids and hands its blocks back. -/
theorem keep (hh : Holds config a hs) {c : Cuda} {stats : AList (fun _ : Int => MemoryStats)}
    {next : Nat} (hnext : a.nextAllocationId ≤ next) (hc : c.Owns (hs.flatMap (·.blocks))) :
    Holds config { a with deviceStats := stats, cuda := c, nextAllocationId := next } hs :=
  ⟨hh.config_eq, hh.keys, fun k hk => Nat.lt_of_lt_of_le (hh.below k hk) hnext, hc⟩

/-- A new handle under the next id. -/
theorem add (hh : Holds config a hs) {c : Cuda} {stats : AList (fun _ : Int => MemoryStats)}
    {bytes : Nat} (hid : h.allocationId = a.nextAllocationId)
    (hc : c.Owns (h.blocks ++ hs.flatMap (·.blocks))) :
    Holds config
      { a with
        cuda := c, deviceStats := stats, nextAllocationId := a.nextAllocationId + 1
        allocations := a.allocations.insert a.nextAllocationId bytes } (h :: hs) := by
  have hfresh : a.nextAllocationId ∉ a.allocations.keys :=
    fun hmem => Nat.lt_irrefl _ (hh.below _ hmem)
  have hkeys : (a.allocations.insert a.nextAllocationId bytes).keys =
      a.nextAllocationId :: a.allocations.keys := by
    rw [AList.keys_insert, List.erase_of_not_mem hfresh]
  refine ⟨hh.config_eq, ?_, ?_, hc⟩
  · dsimp only
    rw [hkeys, List.map_cons, hid]
    exact hh.keys.cons _
  · intro k hk
    dsimp only at hk ⊢
    rw [hkeys] at hk
    rcases List.mem_cons.mp hk with rfl | hk
    · exact Nat.lt_succ_self _
    · exact Nat.lt_succ_of_lt (hh.below k hk)

/-- A valid handle leaves with its entry and its blocks. -/
theorem remove (hh : Holds config a (h :: hs)) (hvalid : h.isValid) :
    Holds config (a.free h).2 hs := by
  obtain ⟨c, stats, heq, hc⟩ := free_valid hvalid hh.owns
  rw [heq]
  have hmem : h.allocationId ∈ a.allocations.keys :=
    hh.keys.mem_iff.mpr List.mem_cons_self
  refine ⟨hh.config_eq, ?_, ?_, hc⟩
  · dsimp only
    rw [AList.keys_erase]
    exact (List.perm_cons _).mp ((List.perm_cons_erase hmem).symm.trans hh.keys)
  · intro k hk
    dsimp only at hk ⊢
    rw [AList.keys_erase] at hk
    exact hh.below k (List.mem_of_mem_erase hk)

end Holds

theorem initializeAllocator_holds {config : KVAllocatorConfig}
    {deviceMemory : Int → Except String Nat} {a : ContiguousKVAllocator}
    (h : initializeAllocator config deviceMemory = .ok a) : Holds a.config a [] := by
  unfold initializeAllocator at h
  split at h
  · cases h
  · cases h
    exact ⟨rfl, List.Perm.refl _, by simp, Cuda.Owns.empty []⟩

theorem deviceHandle_valid {deviceId : Int} {k v : Ptr} (h : k.isSome ∧ v.isSome) :
    (deviceHandle a n deviceId k v).isValid := by
  simp [deviceHandle, KVCacheHandle.isValid, h.1, h.2]

/-- A tensor-parallel handle is valid once the caches of its devices are
mapped. -/
theorem parallelHandle_valid {primary : Int} {rest : List Int} {half : Nat}
    {caches : List PerDeviceKVCache} (hdevices : caches.map (·.deviceId) = primary :: rest)
    (hfilled : ∀ cache ∈ caches, Filled half cache.kCache cache.vCache) (hpos : 0 < half) :
    (parallelHandle a n primary caches).isValid := by
  cases caches with
  | nil => cases hdevices
  | cons cache caches =>
      simpa [parallelHandle, KVCacheHandle.isValid] using
        ((hfilled cache List.mem_cons_self).isSome hpos).1

theorem Holds.withAnswers {config : KVAllocatorConfig} {hs : List KVCacheHandle}
    (hh : Holds config a hs) (answers : List (Option String)) :
    Holds config (a.withAnswers answers) hs :=
  ⟨hh.config_eq, hh.keys, hh.below, hh.owns.withAnswers answers⟩

/-- A failed allocation leaves the live handles as they are. -/
theorem Holds.allocate_error {config : KVAllocatorConfig} {a' : ContiguousKVAllocator}
    {hs : List KVCacheHandle} {e : Error} (hh : Holds config a hs)
    (heq : a.allocate n = (.error e, a')) : Holds config a' hs := by
  obtain ⟨e', c, hfail, hc⟩ | ⟨k, v, c, stats, hserve, -⟩ :=
    allocateOnDevice_cases a n a.config.deviceId
  · cases heq.symm.trans hfail
    exact hh.keep (Nat.le_refl _) (hc _ hh.owns)
  · cases heq.symm.trans hserve

/-- The contiguous allocator owns the blocks of its live handles and no
others. -/
theorem ownershipLaws (config : KVAllocatorConfig) :
    OwnershipLaws (Holds config)
      (fun n => 0 < config.bytesForSeqLen n ∧ 0 < config.bytesForSeqLenPerDevice n) where
  perm := Holds.perm
  grant hh := ⟨hh.config_eq, hh.keys, hh.below, hh.owns⟩
  ungrant hh := ⟨hh.config_eq, hh.keys, hh.below, hh.owns⟩
  allocate_error {_ _ answers _ _ _} hh heq := (hh.withAnswers answers).allocate_error heq
  allocate_ok {a hs answers n h a'} hh heq := by
    have hh' := hh.withAnswers answers
    obtain ⟨e', c, hfail, -⟩ | ⟨k, v, c, stats, hserve, hfilled, hc⟩ :=
      allocateOnDevice_cases (a.withAnswers answers) n (a.withAnswers answers).config.deviceId
    · cases heq.symm.trans hfail
    · cases heq.symm.trans hserve
      refine ⟨hh'.add rfl (hc _ hh'.owns), fun hsized => deviceHandle_valid (hfilled.isSome ?_)⟩
      rw [hh'.config_eq]
      exact KVAllocatorConfig.half_pos hsized.1
  tensorParallel_error {a hs answers n devices e a'} hh heq := by
    have hh' := hh.withAnswers answers
    cases devices with
    | nil => exact hh'.allocate_error heq
    | cons primary rest =>
        obtain ⟨e', c, stats, next, hfail, hnext, hc⟩ | ⟨caches, c, stats, hserve, -⟩ :=
          allocateTensorParallel_cases (a.withAnswers answers) n primary rest
        · cases heq.symm.trans hfail
          exact hh'.keep hnext (hc _ hh'.owns)
        · cases heq.symm.trans hserve
  tensorParallel_ok {a hs answers n devices h a'} hh hne heq := by
    have hh' := hh.withAnswers answers
    obtain ⟨primary, rest, rfl⟩ := List.exists_cons_of_ne_nil hne
    obtain ⟨e', c, stats, next, hfail, -⟩ | ⟨caches, c, stats, hserve, hdevices, hfilled, hc⟩ :=
      allocateTensorParallel_cases (a.withAnswers answers) n primary rest
    · cases heq.symm.trans hfail
    · cases heq.symm.trans hserve
      refine ⟨hh'.add rfl (hc _ hh'.owns), fun hsized => parallelHandle_valid hdevices hfilled ?_⟩
      rw [hh'.config_eq]
      exact KVAllocatorConfig.half_pos_perDevice hsized.2
  free hh hvalid := hh.remove hvalid

instance : LawfulKVCacheAllocator ContiguousKVAllocator where
  allocate_shape {answers a a' n h} heq := by
    obtain ⟨e, c, hfail, -⟩ | ⟨k, v, c, stats, hserve, -⟩ :=
      allocateOnDevice_cases (a.withAnswers answers) n (a.withAnswers answers).config.deviceId
    · cases heq.symm.trans hfail
    · cases heq.symm.trans hserve
      exact ⟨rfl, rfl, rfl, rfl⟩
  tensorParallel_shape {answers a a' n devices h} hne heq := by
    obtain ⟨primary, rest, rfl⟩ := List.exists_cons_of_ne_nil hne
    obtain ⟨e', c, stats, next, hfail, -⟩ | ⟨caches, c, stats, hserve, hdevices, -⟩ :=
      allocateTensorParallel_cases (a.withAnswers answers) n primary rest
    · cases heq.symm.trans hfail
    · cases heq.symm.trans hserve
      exact ⟨hdevices, rfl, rfl, rfl⟩
  free_shape a h := by
    by_cases hvalid : h.isValid <;> simp [IKVCacheAllocator.free, free, hvalid]
  allocate_config answers a n := by
    obtain ⟨e, c, heq, -⟩ | ⟨k, v, c, stats, heq, -⟩ :=
      allocateOnDevice_cases (a.withAnswers answers) n (a.withAnswers answers).config.deviceId
    · exact congrArg (·.2.config) heq
    · exact congrArg (·.2.config) heq
  tensorParallel_config answers a n devices := by
    cases devices with
    | nil =>
        obtain ⟨e, c, heq, -⟩ | ⟨k, v, c, stats, heq, -⟩ :=
          allocateOnDevice_cases (a.withAnswers answers) n
            (a.withAnswers answers).config.deviceId
        · exact congrArg (·.2.config) heq
        · exact congrArg (·.2.config) heq
    | cons primary rest =>
        obtain ⟨e, c, stats, next, heq, -⟩ | ⟨caches, c, stats, heq, -⟩ :=
          allocateTensorParallel_cases (a.withAnswers answers) n primary rest
        · exact congrArg (·.2.config) heq
        · exact congrArg (·.2.config) heq
  free_config a h := by
    by_cases hvalid : h.isValid <;> simp [IKVCacheAllocator.free, free, hvalid,
      IKVCacheAllocator.config]

end ContiguousKVAllocator

end Qwen
