import Mathlib.Data.List.AList
import WinInference.KVCache.Allocator

/-!
# The contiguous allocator

`ContiguousKVAllocator`: one K and one V block per request and device, with
byte accounts per device.  Blocks come from `cudaMalloc` on every call.

An allocation checks the free bytes of a device before it calls CUDA, and
charges the device after both halves are there.  A tensor-parallel one checks
all devices first and then serves them one after another; when a call fails, the
blocks that were allocated are freed, and the charges of the devices already
served stay.
-/

namespace Qwen

/-- The allocator: configuration, the counters of each device, the bytes of each
live allocation, and the device layer. -/
structure ContiguousKVAllocator where
  config : KVAllocatorConfig := {}
  deviceStats : AList (fun _ : Int => MemoryStats) := ∅
  /-- allocation id to bytes -/
  allocations : AList (fun _ : Nat => Nat) := ∅
  nextAllocationId : Nat := 1
  cuda : Cuda := {}

namespace ContiguousKVAllocator

/-- The per-device budgets set up by `initialize`.  `deviceMemory` is what the
driver reports for a device, 80% of `totalGlobalMem`, or the error text. -/
def initializeStats (maxTotalMemory : Nat) (deviceMemory : Int → Except String Nat) :
    List Int → AList (fun _ : Int => MemoryStats) →
      Result (AList (fun _ : Int => MemoryStats))
  | [], stats => .ok stats
  | deviceId :: rest, stats =>
      let memory : Result Nat :=
        if maxTotalMemory = 0 then
          match deviceMemory deviceId with
          | .ok m => .ok m
          | .error err => .error (.internal
              (s!"Failed to query GPU {deviceId} properties: " ++ err))
        else .ok maxTotalMemory
      match memory with
      | .error e => .error e
      | .ok m =>
          initializeStats maxTotalMemory deviceMemory rest
            (stats.insert deviceId { totalBytes := m, freeBytes := m })

/-- `initialize`: one set of counters for each listed device, from the memory the device reports. -/
def initializeAllocator (config : KVAllocatorConfig)
    (deviceMemory : Int → Except String Nat) : Result ContiguousKVAllocator :=
  match initializeStats config.maxTotalMemory deviceMemory config.managedDevices ∅ with
  | .error e => .error e
  | .ok stats => .ok { config := config.adopted, deviceStats := stats }

/-- Book `bytes` on a device. -/
def chargeDevice (bytes : Nat) (deviceId : Int)
    (stats : AList (fun _ : Int => MemoryStats)) :
    AList (fun _ : Int => MemoryStats) :=
  stats.insert deviceId (((stats.lookup deviceId).getD {}).charge bytes)

/-- `allocate_on_device`: check the free bytes, allocate both halves, charge the device. -/
def allocateOnDevice (a : ContiguousKVAllocator) (maxSeqLen : Nat) (deviceId : Int) :
    Result KVCacheHandle × ContiguousKVAllocator :=
  let bytesNeeded := a.config.bytesForSeqLen maxSeqLen
  match a.deviceStats.lookup deviceId with
  | none => (.error (.internal s!"Device {deviceId} not initialized"), a)
  | some stats =>
      if bytesNeeded > stats.freeBytes then
        (.error (.resourceExhausted
          (s!"Insufficient KV cache memory: need {bytesNeeded} bytes, have " ++
            toString stats.freeBytes)), a)
      else
        match a.cuda.cudaSetDevice deviceId with
        | (some err, c) =>
            (.error (.internal ("Failed to set device: " ++ err)), { a with cuda := c })
        | (none, c) =>
            match mallocPair c (bytesNeeded / 2)
              (fun err => .internal ("Failed to allocate K cache: " ++ err))
              (fun err => .internal ("Failed to allocate V cache: " ++ err)) with
            | (.error e, c) => (.error e, { a with cuda := c })
            | (.ok (k, v), c) =>
                (.ok { kCache := k, vCache := v, maxSeqLen := maxSeqLen,
                       deviceId := deviceId, allocationId := a.nextAllocationId },
                  { a with
                    cuda := c
                    deviceStats := chargeDevice bytesNeeded deviceId a.deviceStats
                    nextAllocationId := a.nextAllocationId + 1
                    allocations := a.allocations.insert a.nextAllocationId bytesNeeded })

/-- Single-GPU allocation on the primary device. -/
def allocate (a : ContiguousKVAllocator) (maxSeqLen : Nat) :
    Result KVCacheHandle × ContiguousKVAllocator :=
  a.allocateOnDevice maxSeqLen a.config.deviceId

/-- The check that every listed device has room for its part. -/
def checkDevices (a : ContiguousKVAllocator) (bytesPerDevice : Nat) :
    List Int → Result Unit
  | [] => .ok ()
  | deviceId :: rest =>
      match a.deviceStats.lookup deviceId with
      | none => .error (.internal s!"Device {deviceId} not initialized")
      | some stats =>
          if bytesPerDevice > stats.freeBytes then
            .error (.resourceExhausted
              (s!"Insufficient KV cache memory on device {deviceId}: need " ++
                s!"{bytesPerDevice} bytes, have " ++ toString stats.freeBytes))
          else a.checkDevices bytesPerDevice rest

/-- `allocate_tensor_parallel`: check every device, then allocate and charge one after another. -/
def allocateTensorParallel (a : ContiguousKVAllocator) (maxSeqLen : Nat)
    (deviceIds : List Int) : Result KVCacheHandle × ContiguousKVAllocator :=
  match deviceIds with
  | [] => a.allocate maxSeqLen
  | primary :: _ =>
      let bytesPerDevice := a.config.bytesForSeqLenPerDevice maxSeqLen
      match a.checkDevices bytesPerDevice deviceIds with
      | .error e => (.error e, a)
      | .ok () =>
          let allocationId := a.nextAllocationId
          match allocateEach bytesPerDevice (chargeDevice bytesPerDevice) (": " ++ ·)
              deviceIds [] a.deviceStats a.cuda with
          | (.error e, stats, c) =>
              (.error e,
                { a with deviceStats := stats, cuda := c
                         nextAllocationId := allocationId + 1 })
          | (.ok caches, stats, c) =>
              (.ok { kCache := caches.head?.bind (·.kCache)
                     vCache := caches.head?.bind (·.vCache)
                     maxSeqLen := maxSeqLen, deviceId := primary
                     allocationId := allocationId, deviceCaches := caches
                     isTensorParallel := true },
                { a with
                  deviceStats := stats, cuda := c
                  nextAllocationId := allocationId + 1
                  allocations := a.allocations.insert allocationId
                    (sizeMul bytesPerDevice deviceIds.length) })

/-- Take one device's part of a handle off the books, if the device is known. -/
def releaseDevice (stats : AList (fun _ : Int => MemoryStats))
    (cache : PerDeviceKVCache) : AList (fun _ : Int => MemoryStats) :=
  match stats.lookup cache.deviceId with
  | none => stats
  | some m =>
      stats.insert cache.deviceId (m.releaseBytes cache.bytesAllocated).countFree

/-- `free`, with the handle as the caller has it afterwards. -/
def free (a : ContiguousKVAllocator) (h : KVCacheHandle) :
    KVCacheHandle × ContiguousKVAllocator :=
  if h.isValid then
    let (stats, cuda) :=
      if h.isTensorParallel then
        (h.deviceCaches.foldl releaseDevice a.deviceStats,
          freeCaches a.cuda h.deviceCaches)
      else
        let cuda := ((a.cuda.cudaSetDevice h.deviceId).2.cudaFree h.kCache).cudaFree h.vCache
        match a.deviceStats.lookup h.deviceId with
        | none => (a.deviceStats, cuda)
        | some m =>
            let m := match a.allocations.lookup h.allocationId with
              | none => m
              | some bytes => m.releaseBytes bytes
            (a.deviceStats.insert h.deviceId m.countFree, cuda)
    ({ h with kCache := none, vCache := none, deviceCaches := [], allocationId := 0 },
      { a with
        deviceStats := stats
        cuda := cuda
        allocations := a.allocations.erase h.allocationId })
  else (h, a)

/-- `can_allocate` on the configured device. -/
def canAllocate (a : ContiguousKVAllocator) (maxSeqLen : Nat) : Bool :=
  match a.deviceStats.lookup a.config.deviceId with
  | none => false
  | some stats => a.config.bytesForSeqLen maxSeqLen ≤ stats.freeBytes

/-- `can_allocate_tensor_parallel` over a device list. -/
def canAllocateTensorParallel (a : ContiguousKVAllocator) (maxSeqLen : Nat)
    (deviceIds : List Int) : Bool :=
  match deviceIds with
  | [] => a.canAllocate maxSeqLen
  | _ :: _ => deviceIds.all (fun deviceId =>
      match a.deviceStats.lookup deviceId with
      | none => false
      | some stats => a.config.bytesForSeqLenPerDevice maxSeqLen ≤ stats.freeBytes)

/-- The counters of a device after a reset. -/
def resetStats (m : MemoryStats) : MemoryStats :=
  { m with usedBytes := 0, freeBytes := m.totalBytes, activeAllocations := 0 }

/-- Forget every allocation; `next_allocation_id_` is kept and no block is
freed. -/
def reset (a : ContiguousKVAllocator) : ContiguousKVAllocator :=
  { a with
    deviceStats :=
      ⟨a.deviceStats.entries.map (Sigma.map id fun _ => resetStats),
        a.deviceStats.nodupKeys.map₂ _⟩
    allocations := ∅ }

/-- Load the answers of the coming calls on the devices. -/
def withAnswers (a : ContiguousKVAllocator) (answers : List (Option String)) :
    ContiguousKVAllocator :=
  { a with cuda := a.cuda.withAnswers answers }

instance : IKVCacheAllocator ContiguousKVAllocator where
  allocate answers a maxSeqLen := (a.withAnswers answers).allocate maxSeqLen
  allocateTensorParallel answers a maxSeqLen deviceIds :=
    (a.withAnswers answers).allocateTensorParallel maxSeqLen deviceIds
  free := free
  canAllocate := canAllocate
  canAllocateTensorParallel := canAllocateTensorParallel
  config := config

end ContiguousKVAllocator

end Qwen
