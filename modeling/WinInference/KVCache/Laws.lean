import WinInference.KVCache.Ownership

/-!
# What a caller may expect of a KV allocator

Two specifications of `IKVCacheAllocator`.  `LawfulKVCacheAllocator` says what
the handles look like: where they live, how long they are, and that nothing
but the allocator itself is touched.  `OwnershipLaws` relates an allocator to
the handles that are live in it, for a relation `Good` of the allocator's own.

Both allocators satisfy them, and what is proved of a server from these two
classes holds with either.  `grant` is the part of a handle that the laws speak
of; it forgets what a request writes into the handle later on.
-/

namespace Qwen

namespace KVCacheHandle

/-- The device blocks a live handle keeps. -/
def blocks (h : KVCacheHandle) : List Nat :=
  if h.isTensorParallel then cacheBlocks h.deviceCaches
  else h.kCache.blocks ++ h.vCache.blocks

/-- The devices the memory of a handle is on. -/
def devices (h : KVCacheHandle) : List Int :=
  if h.isTensorParallel then h.deviceCaches.map (·.deviceId) else [h.deviceId]

/-- A handle without its write position. -/
def grant (h : KVCacheHandle) : KVCacheHandle := { h with currentLen := 0 }

@[simp] theorem grant_blocks (h : KVCacheHandle) : h.grant.blocks = h.blocks := rfl

@[simp] theorem grant_isValid (h : KVCacheHandle) : h.grant.isValid = h.isValid := rfl

@[simp] theorem grant_allocationId (h : KVCacheHandle) :
    h.grant.allocationId = h.allocationId := rfl

theorem default_not_valid : (({} : KVCacheHandle)).isValid = false := rfl

end KVCacheHandle

section Laws

variable (A : Type) [IKVCacheAllocator A]

open IKVCacheAllocator

/-- The shape of the handles an allocator deals in. -/
class LawfulKVCacheAllocator : Prop where
  allocate_shape : ∀ {answers : List (Option String)} {a a' : A} {n : Nat}
    {h : KVCacheHandle}, allocate answers a n = (.ok h, a') →
      h.devices = [(config a).deviceId] ∧ h.isTensorParallel = false ∧
        h.maxSeqLen = n ∧ h.currentLen = 0
  tensorParallel_shape : ∀ {answers : List (Option String)} {a a' : A} {n : Nat}
    {devices : List Int} {h : KVCacheHandle}, devices ≠ [] →
      allocateTensorParallel answers a n devices = (.ok h, a') →
        h.devices = devices ∧ h.isTensorParallel = true ∧
          h.maxSeqLen = n ∧ h.currentLen = 0
  free_shape : ∀ (a : A) (h : KVCacheHandle),
    (free a h).1.maxSeqLen = h.maxSeqLen ∧ (free a h).1.currentLen = h.currentLen
  allocate_config : ∀ (answers : List (Option String)) (a : A) (n : Nat),
    config (allocate answers a n).2 = config a
  tensorParallel_config : ∀ (answers : List (Option String)) (a : A) (n : Nat)
    (devices : List Int), config (allocateTensorParallel answers a n devices).2 = config a
  free_config : ∀ (a : A) (h : KVCacheHandle), config (free a h).2 = config a

variable {A}

/-- `Good a hs`: the live handles of `a` are `hs`.  `Sized n` are the lengths
whose blocks are not empty. -/
structure OwnershipLaws (Good : A → List KVCacheHandle → Prop) (Sized : Nat → Prop) :
    Prop where
  perm : ∀ {a hs hs'}, Good a hs → hs.Perm hs' → Good a hs'
  grant : ∀ {a h hs}, Good a (h :: hs) → Good a (h.grant :: hs)
  ungrant : ∀ {a h hs}, Good a (h.grant :: hs) → Good a (h :: hs)
  allocate_error : ∀ {a hs answers n e a'}, Good a hs →
    allocate answers a n = (.error e, a') → Good a' hs
  allocate_ok : ∀ {a hs answers n h a'}, Good a hs →
    allocate answers a n = (.ok h, a') → Good a' (h :: hs) ∧ (Sized n → h.isValid)
  tensorParallel_error : ∀ {a hs answers n devices e a'}, Good a hs →
    allocateTensorParallel answers a n devices = (.error e, a') → Good a' hs
  tensorParallel_ok : ∀ {a hs answers n devices h a'}, Good a hs → devices ≠ [] →
    allocateTensorParallel answers a n devices = (.ok h, a') →
      Good a' (h :: hs) ∧ (Sized n → h.isValid)
  free : ∀ {a h hs}, Good a (h :: hs) → h.isValid → Good (free a h).2 hs

end Laws

/-- Sizes in bytes are even, so a positive one has a positive half. -/
theorem KVAllocatorConfig.bytesPerHeads_even (c : KVAllocatorConfig) (kvHeads : Int) :
    2 ∣ c.bytesPerHeads kvHeads := by
  have hsigned : (2 : Int) ∣ toInt32 (2 * c.numLayers * kvHeads * c.headDim) := by
    have hprod : (2 : Int) ∣ 2 * c.numLayers * kvHeads * c.headDim :=
      Dvd.dvd.mul_right (Dvd.dvd.mul_right (dvd_mul_right 2 _) _) _
    exact Wrapping.two_dvd_toSigned (by decide) hprod
  exact Wrapping.two_dvd_mul (by decide)
    (Dvd.dvd.mul_right (Wrapping.two_dvd_ofInt (by decide) hsigned) _)

theorem KVAllocatorConfig.half_pos {c : KVAllocatorConfig} {n : Nat}
    (h : 0 < c.bytesForSeqLen n) : 0 < c.bytesForSeqLen n / 2 := by
  have heven : 2 ∣ c.bytesForSeqLen n := Wrapping.two_dvd_mul (by decide)
    (Dvd.dvd.mul_left (c.bytesPerHeads_even _) _)
  omega

theorem KVAllocatorConfig.half_pos_perDevice {c : KVAllocatorConfig} {n : Nat}
    (h : 0 < c.bytesForSeqLenPerDevice n) : 0 < c.bytesForSeqLenPerDevice n / 2 := by
  have heven : 2 ∣ c.bytesForSeqLenPerDevice n := Wrapping.two_dvd_mul (by decide)
    (Dvd.dvd.mul_left (c.bytesPerHeads_even _) _)
  omega

end Qwen
