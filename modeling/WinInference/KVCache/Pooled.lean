import Mathlib.Data.List.AList
import WinInference.KVCache.Allocator

/-!
# The pooled allocator

`PooledKVAllocator`: fixed-size slots cut from one K and one V block per
device.  A request that fits a slot takes one; anything else, and every
tensor-parallel request, falls back to `cudaMalloc`.

The pool of a device is cut once, into slots that are taken from the end of a
free list and returned to it.  `allocationSlots` records of each live handle
which slot it has, or that its blocks lie outside of the pools.  A handle of the
second kind gives back its own K and V pointer when it is freed, which for a
tensor-parallel handle are those of its first device.
-/

namespace Qwen

/-- Pooled allocator configuration. -/
structure PooledAllocatorConfig where
  slotSizeTokens : Nat := 16384
  numSlots : Nat := 8
  allowOverflow : Bool := true
deriving DecidableEq

/-- A slot of a pool: its windows of the K and the V block, and whether it is taken. -/
structure Slot where
  kCache : Ptr := none
  vCache : Ptr := none
  inUse : Bool := false
deriving DecidableEq

/-- The pool of a device: its slots and the two blocks they were cut from. -/
structure DevicePool where
  slots : List Slot := []
  /-- stack of free slot indices, top first -/
  freeSlots : List Nat := []
  poolMemoryK : Ptr := none
  poolMemoryV : Ptr := none
  stats : MemoryStats := {}
deriving DecidableEq

/-- What `allocation_slots_` records: device, slot index, `is_overflow`. -/
abbrev SlotRecord := Int × Nat × Bool

/-- The pooled allocator: a pool for each device, and what every live allocation was given. -/
structure PooledKVAllocator where
  poolConfig : PooledAllocatorConfig
  config : KVAllocatorConfig := {}
  slotBytes : Nat := 0
  devicePools : AList (fun _ : Int => DevicePool) := ∅
  allocationSlots : AList (fun _ : Nat => SlotRecord) := ∅
  nextAllocationId : Nat := 1
  cuda : Cuda := {}

namespace PooledKVAllocator

/-- Slot `i` of a pool. -/
def cutSlot (k v : Ptr) (slotBytes i : Nat) : Slot :=
  { kCache := k.shift (i * (slotBytes / 2)), vCache := v.shift (i * (slotBytes / 2)) }

/-- The bytes of the pool of one device. -/
def poolBytes (a : PooledKVAllocator) : Nat :=
  sizeMul a.slotBytes a.poolConfig.numSlots

/-- The pool of a device, cut from its K and its V block. -/
def cutPool (a : PooledKVAllocator) (k v : Ptr) : DevicePool :=
  let indices := List.range a.poolConfig.numSlots
  { slots := indices.map (cutSlot k v a.slotBytes)
    freeSlots := indices.reverse
    poolMemoryK := k, poolMemoryV := v
    stats := { totalBytes := a.poolBytes, freeBytes := a.poolBytes } }

/-- Allocate the K and V blocks of a device and cut them into slots. -/
def allocatePoolForDevice (a : PooledKVAllocator) (deviceId : Int) :
    Result Unit × PooledKVAllocator :=
  match a.cuda.cudaSetDevice deviceId with
  | (some _, c) =>
      (.error (.internal s!"Failed to set device {deviceId}"), { a with cuda := c })
  | (none, c) =>
      match mallocPair c (a.poolBytes / 2)
        (fun err => .internal (s!"Failed to allocate K pool on device {deviceId}: " ++ err))
        (fun err => .internal (s!"Failed to allocate V pool on device {deviceId}: " ++ err)) with
      | (.error e, c) => (.error e, { a with cuda := c })
      | (.ok (k, v), c) =>
          (.ok (), { a with
            cuda := c, devicePools := a.devicePools.insert deviceId (a.cutPool k v) })

/-- Give the blocks of every pool back and forget the pools. -/
def cleanupPools (a : PooledKVAllocator) : PooledKVAllocator :=
  { a with
    cuda := a.devicePools.entries.foldl
      (fun c e => ((c.cudaSetDevice e.1).2.cudaFree e.2.poolMemoryK).cudaFree
        e.2.poolMemoryV) a.cuda
    devicePools := ∅ }

/-- Pre-allocate the pool of each device in turn. -/
def allocatePools (a : PooledKVAllocator) : List Int → Result Unit × PooledKVAllocator
  | [] => (.ok (), a)
  | deviceId :: rest =>
      match a.allocatePoolForDevice deviceId with
      | (.error e, a) => (.error e, a.cleanupPools)
      | (.ok (), a) => a.allocatePools rest

/-- A new allocator before its pools are allocated. -/
def configured (poolConfig : PooledAllocatorConfig) (config : KVAllocatorConfig)
    (cuda : Cuda) : PooledKVAllocator :=
  { poolConfig := poolConfig, config := config.adopted, cuda := cuda
    slotBytes := config.adopted.bytesForSeqLen poolConfig.slotSizeTokens }

/-- `initialize` of a new allocator over the device memory it finds. -/
def initializeAllocator (poolConfig : PooledAllocatorConfig) (config : KVAllocatorConfig)
    (cuda : Cuda) : Result Unit × PooledKVAllocator :=
  (configured poolConfig config cuda).allocatePools config.managedDevices

/-- Allocate on a device outside of its pool; nothing checks the memory that is left. -/
def allocateFallback (a : PooledKVAllocator) (maxSeqLen : Nat) (deviceId : Int) :
    Result KVCacheHandle × PooledKVAllocator :=
  let bytesNeeded := a.config.bytesForSeqLen maxSeqLen
  match a.cuda.cudaSetDevice deviceId with
  | (some _, c) => (.error (.internal "Failed to set device"), { a with cuda := c })
  | (none, c) =>
      match mallocPair c (bytesNeeded / 2)
        (fun err => .internal ("Failed to allocate K cache: " ++ err))
        (fun err => .internal ("Failed to allocate V cache: " ++ err)) with
      | (.error e, c) => (.error e, { a with cuda := c })
      | (.ok (k, v), c) =>
          (.ok { kCache := k, vCache := v, maxSeqLen := maxSeqLen
                 deviceId := deviceId, allocationId := a.nextAllocationId },
            { a with
              cuda := c
              nextAllocationId := a.nextAllocationId + 1
              allocationSlots :=
                a.allocationSlots.insert a.nextAllocationId (deviceId, 0, true) })

/-- The pool `device_pools_[device_id]`, created empty when it is not there. -/
def poolAt (a : PooledKVAllocator) (deviceId : Int) : DevicePool :=
  (a.devicePools.lookup deviceId).getD {}

/-- Hand out the slot on top of the free stack. -/
def takeSlot (a : PooledKVAllocator) (maxSeqLen : Nat) (pool : DevicePool)
    (slotIdx : Nat) (freeSlots : List Nat) : KVCacheHandle × PooledKVAllocator :=
  let deviceId := a.config.deviceId
  let slot := pool.slots.getD slotIdx {}
  let pool :=
    { pool with
      freeSlots := freeSlots
      slots := pool.slots.set slotIdx { slot with inUse := true }
      stats := pool.stats.charge a.slotBytes }
  ({ kCache := slot.kCache, vCache := slot.vCache, maxSeqLen := maxSeqLen
     deviceId := deviceId, allocationId := a.nextAllocationId },
    { a with
      devicePools := a.devicePools.insert deviceId pool
      nextAllocationId := a.nextAllocationId + 1
      allocationSlots :=
        a.allocationSlots.insert a.nextAllocationId (deviceId, slotIdx, false) })

/-- Pool exhausted or request too large. -/
def overflow (a : PooledKVAllocator) (maxSeqLen : Nat) :
    Result KVCacheHandle × PooledKVAllocator :=
  if a.poolConfig.allowOverflow then a.allocateFallback maxSeqLen a.config.deviceId
  else (.error (.resourceExhausted "KV cache pool exhausted"), a)

/-- A free slot of the primary device for a request that fits into one, else the
fallback when overflow is allowed. -/
def allocate (a : PooledKVAllocator) (maxSeqLen : Nat) :
    Result KVCacheHandle × PooledKVAllocator :=
  if maxSeqLen ≤ a.poolConfig.slotSizeTokens then
    let pool := a.poolAt a.config.deviceId
    match pool.freeSlots with
    | slotIdx :: freeSlots =>
        let (h, a) := a.takeSlot maxSeqLen pool slotIdx freeSlots
        (.ok h, a)
    | [] =>
        overflow { a with devicePools := a.devicePools.insert a.config.deviceId pool }
          maxSeqLen
  else a.overflow maxSeqLen

/-- Allocate outside of the pools, one pair of blocks for each listed device. -/
def allocateTensorParallelFallback (a : PooledKVAllocator) (maxSeqLen : Nat)
    (primary : Int) (deviceIds : List Int) : Result KVCacheHandle × PooledKVAllocator :=
  let bytesPerDevice := a.config.bytesForSeqLenPerDevice maxSeqLen
  let allocationId := a.nextAllocationId
  match allocateEach bytesPerDevice (fun _ (u : Unit) => u) (fun _ => "")
      deviceIds [] () a.cuda with
  | (.error e, _, c) =>
      (.error e, { a with cuda := c, nextAllocationId := allocationId + 1 })
  | (.ok caches, _, c) =>
      (.ok { kCache := caches.head?.bind (·.kCache)
             vCache := caches.head?.bind (·.vCache)
             maxSeqLen := maxSeqLen, deviceId := primary
             allocationId := allocationId, deviceCaches := caches
             isTensorParallel := true },
        { a with
          cuda := c
          nextAllocationId := allocationId + 1
          allocationSlots := a.allocationSlots.insert allocationId (primary, 0, true) })

/-- Tensor-parallel caches are never taken from the pools. -/
def allocateTensorParallel (a : PooledKVAllocator) (maxSeqLen : Nat)
    (deviceIds : List Int) : Result KVCacheHandle × PooledKVAllocator :=
  match deviceIds with
  | [] => a.allocate maxSeqLen
  | primary :: _ => a.allocateTensorParallelFallback maxSeqLen primary deviceIds

/-- Put a slot back on the free stack of its pool. -/
def returnSlot (a : PooledKVAllocator) (deviceId : Int) (slotIdx : Nat) :
    PooledKVAllocator :=
  let pool := a.poolAt deviceId
  let slot := pool.slots.getD slotIdx {}
  let pool :=
    { pool with
      slots := pool.slots.set slotIdx { slot with inUse := false }
      freeSlots := slotIdx :: pool.freeSlots
      stats := (pool.stats.releaseBytes a.slotBytes).countFree }
  { a with devicePools := a.devicePools.insert deviceId pool }

/-- `free`, with the handle as the caller has it afterwards.  An overflow record
releases the handle's own K and V pointers; `device_caches` is not looked at. -/
def free (a : PooledKVAllocator) (h : KVCacheHandle) :
    KVCacheHandle × PooledKVAllocator :=
  if h.isValid then
    let a := match a.allocationSlots.lookup h.allocationId with
      | none => a
      | some (deviceId, slotIdx, isOverflow) =>
          let a :=
            if isOverflow then
              { a with cuda :=
                ((a.cuda.cudaSetDevice deviceId).2.cudaFree h.kCache).cudaFree h.vCache }
            else a.returnSlot deviceId slotIdx
          { a with allocationSlots := a.allocationSlots.erase h.allocationId }
    ({ h with kCache := none, vCache := none, allocationId := 0 }, a)
  else (h, a)

/-- All slots of a pool back on the free stack, the last one on top. -/
def resetPool (pool : DevicePool) : DevicePool :=
  { pool with
    slots := pool.slots.map fun slot => { slot with inUse := false }
    freeSlots := (List.range pool.slots.length).reverse
    stats := { pool.stats with
      usedBytes := 0, freeBytes := pool.stats.totalBytes, activeAllocations := 0 } }

/-- Return all slots and forget every allocation; `next_allocation_id_` is kept. -/
def reset (a : PooledKVAllocator) : PooledKVAllocator :=
  { a with
    devicePools :=
      ⟨a.devicePools.entries.map (Sigma.map id fun _ => resetPool),
        a.devicePools.nodupKeys.map₂ _⟩
    allocationSlots := ∅ }

/-- Whether a slot is free, or overflow allowed. -/
def canAllocate (a : PooledKVAllocator) (maxSeqLen : Nat) : Bool :=
  let pooled := decide (maxSeqLen ≤ a.poolConfig.slotSizeTokens) &&
    match a.devicePools.lookup a.config.deviceId with
    | none => false
    | some pool => !pool.freeSlots.isEmpty
  pooled || a.poolConfig.allowOverflow

/-- The answer is the overflow switch, whatever is asked for. -/
def canAllocateTensorParallel (a : PooledKVAllocator) (_maxSeqLen : Nat)
    (_deviceIds : List Int) : Bool :=
  a.poolConfig.allowOverflow

/-- Load the answers of the coming CUDA calls. -/
def withAnswers (a : PooledKVAllocator) (answers : List (Option String)) :
    PooledKVAllocator :=
  { a with cuda := a.cuda.withAnswers answers }

instance : IKVCacheAllocator PooledKVAllocator where
  allocate answers a maxSeqLen := (a.withAnswers answers).allocate maxSeqLen
  allocateTensorParallel answers a maxSeqLen deviceIds :=
    (a.withAnswers answers).allocateTensorParallel maxSeqLen deviceIds
  free := free
  canAllocate := canAllocate
  canAllocateTensorParallel := canAllocateTensorParallel
  config := config

end PooledKVAllocator

end Qwen
