import WinInference.KVCache.Cuda

/-!
# KV cache handles, sizes and the allocator interface

The types of `kv_allocator.hpp`, and the two pieces of code that both
allocators repeat: the K/V pair of `cudaMalloc` calls, and the loop over the
devices of a tensor-parallel allocation with its rollback.
-/

namespace Qwen

/-- Per-device KV cache allocation for tensor-parallel. -/
structure PerDeviceKVCache where
  kCache : Ptr := none
  vCache : Ptr := none
  deviceId : Int := 0
  bytesAllocated : Nat := 0
deriving DecidableEq

/-- KV cache handle representing allocated memory. -/
structure KVCacheHandle where
  kCache : Ptr := none
  vCache : Ptr := none
  maxSeqLen : Nat := 0
  currentLen : Nat := 0
  deviceId : Int := 0
  allocationId : Nat := 0
  deviceCaches : List PerDeviceKVCache := []
  isTensorParallel : Bool := false
deriving DecidableEq

/-- `is_valid()`. -/
def KVCacheHandle.isValid (h : KVCacheHandle) : Bool :=
  if h.isTensorParallel then
    match h.deviceCaches with
    | [] => false
    | cache :: _ => cache.kCache.isSome
  else h.kCache.isSome && h.vCache.isSome

/-- `remaining()`: the tokens that still fit. -/
def KVCacheHandle.remaining (h : KVCacheHandle) : Nat :=
  sizeSub h.maxSeqLen h.currentLen

/-- Memory statistics. -/
structure MemoryStats where
  totalBytes : Nat := 0
  usedBytes : Nat := 0
  freeBytes : Nat := 0
  peakBytes : Nat := 0
  activeAllocations : Nat := 0
  totalAllocations : Nat := 0
  totalFrees : Nat := 0
deriving DecidableEq

/-- The statistics update of a successful allocation. -/
def MemoryStats.charge (m : MemoryStats) (bytes : Nat) : MemoryStats :=
  let used := sizeAdd m.usedBytes bytes
  { m with
    usedBytes := used
    freeBytes := sizeSub m.freeBytes bytes
    activeAllocations := uint32Inc m.activeAllocations
    totalAllocations := uint32Inc m.totalAllocations
    peakBytes := if used > m.peakBytes then used else m.peakBytes }

/-- The byte counters of a free. -/
def MemoryStats.releaseBytes (m : MemoryStats) (bytes : Nat) : MemoryStats :=
  { m with
    usedBytes := sizeSub m.usedBytes bytes
    freeBytes := sizeAdd m.freeBytes bytes }

/-- The allocation counters of a free. -/
def MemoryStats.countFree (m : MemoryStats) : MemoryStats :=
  { m with
    activeAllocations := uint32Dec m.activeAllocations
    totalFrees := uint32Inc m.totalFrees }

/-- Configuration for KV cache allocator. -/
structure KVAllocatorConfig where
  numLayers : Int := 64
  numKvHeads : Int := 8
  headDim : Int := 128
  dtypeBytes : Nat := 2
  maxTotalMemory : Nat := 0
  deviceId : Int := 0
  deviceIds : List Int := []
  tensorParallelSize : Int := 1
deriving DecidableEq

namespace KVAllocatorConfig

/-- Bytes of the K and V rows of one token over `kvHeads` heads.  The four
`int` factors are multiplied as `int32_t` before `dtype_bytes` widens them. -/
def bytesPerHeads (c : KVAllocatorConfig) (kvHeads : Int) : Nat :=
  sizeMul (toSize (toInt32 (2 * c.numLayers * kvHeads * c.headDim))) c.dtypeBytes

/-- `bytes_per_token()`: keys and values of all layers and heads. -/
def bytesPerToken (c : KVAllocatorConfig) : Nat :=
  c.bytesPerHeads c.numKvHeads

/-- `bytes_per_token_per_device()`: the heads are divided among the devices, rounded down. -/
def bytesPerTokenPerDevice (c : KVAllocatorConfig) : Nat :=
  c.bytesPerHeads (c.numKvHeads.tdiv c.tensorParallelSize)

/-- `bytes_for_seq_len(seq_len)`. -/
def bytesForSeqLen (c : KVAllocatorConfig) (seqLen : Nat) : Nat :=
  sizeMul seqLen c.bytesPerToken

/-- `bytes_for_seq_len_per_device(seq_len)`. -/
def bytesForSeqLenPerDevice (c : KVAllocatorConfig) (seqLen : Nat) : Nat :=
  sizeMul seqLen c.bytesPerTokenPerDevice

/-- The devices an allocator manages. -/
def managedDevices (c : KVAllocatorConfig) : List Int :=
  if c.deviceIds.isEmpty then [c.deviceId] else c.deviceIds

/-- The configuration an allocator keeps: the tensor-parallel size is the
number of managed devices. -/
def adopted (c : KVAllocatorConfig) : KVAllocatorConfig :=
  { c with tensorParallelSize := toInt32 c.managedDevices.length }

end KVAllocatorConfig

/-- Abstract KV cache allocator interface.  The methods that call the CUDA
runtime take the answers of their calls; `free` also gives back the handle it
was passed by reference. -/
class IKVCacheAllocator (A : Type) where
  allocate : List (Option String) → A → Nat → Result KVCacheHandle × A
  allocateTensorParallel :
    List (Option String) → A → Nat → List Int → Result KVCacheHandle × A
  free : A → KVCacheHandle → KVCacheHandle × A
  canAllocate : A → Nat → Bool
  canAllocateTensorParallel : A → Nat → List Int → Bool
  config : A → KVAllocatorConfig

/-- Allocate K and V blocks of `half` bytes each; a failure of the second gives
the first one back. -/
def mallocPair (c : Cuda) (half : Nat) (kError vError : String → Error) :
    Result (Ptr × Ptr) × Cuda :=
  match c.cudaMalloc half with
  | (.error err, c₁) => (.error (kError err), c₁)
  | (.ok k, c₁) =>
      match c₁.cudaMalloc half with
      | (.error err, c₂) => (.error (vError err), c₂.cudaFree k)
      | (.ok v, c₂) => (.ok (k, v), c₂)

/-- Free the K and V block of one device. -/
def freeCache (c : Cuda) (cache : PerDeviceKVCache) : Cuda :=
  ((c.cudaSetDevice cache.deviceId).2.cudaFree cache.kCache).cudaFree cache.vCache

/-- Free the caches of a list, in order. -/
def freeCaches (c : Cuda) (caches : List PerDeviceKVCache) : Cuda :=
  caches.foldl freeCache c

/-- The device loop of a tensor-parallel allocation.  `caches` are the devices
served so far; `charge` is what the allocator books for a device once both of
its blocks are there, and is not undone when a later device fails. -/
def allocateEach {S : Type} (bytesPerDevice : Nat) (charge : Int → S → S)
    (detail : String → String) :
    List Int → List PerDeviceKVCache → S → Cuda →
      Result (List PerDeviceKVCache) × S × Cuda
  | [], caches, books, c => (.ok caches, books, c)
  | deviceId :: rest, caches, books, c =>
      match c.cudaSetDevice deviceId with
      | (some _, c₁) =>
          (.error (.internal s!"Failed to set device {deviceId}"), books,
            freeCaches c₁ caches)
      | (none, c₁) =>
          match mallocPair c₁ (bytesPerDevice / 2)
            (fun err => .internal
              (s!"Failed to allocate K cache on device {deviceId}" ++ detail err))
            (fun err => .internal
              (s!"Failed to allocate V cache on device {deviceId}" ++ detail err)) with
          | (.error err, c₂) => (.error err, books, freeCaches c₂ caches)
          | (.ok (k, v), c₂) =>
              let cache : PerDeviceKVCache :=
                { kCache := k, vCache := v, deviceId := deviceId,
                  bytesAllocated := bytesPerDevice }
              allocateEach bytesPerDevice charge detail rest (caches ++ [cache])
                (charge deviceId books) c₂

end Qwen
