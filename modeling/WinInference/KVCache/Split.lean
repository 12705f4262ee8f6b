import Mathlib.Algebra.BigOperators.Group.List.Basic
import Mathlib.Algebra.Group.Action.Defs
import Mathlib.Tactic.Positivity
import Mathlib.Tactic.Linarith
import Mathlib.Tactic.Ring
import WinInference.KVCache.Accounts
import WinInference.KVCache.PooledLaws

/-!
# How much a tensor-parallel cache holds

The part of one device is sized by the KV heads divided by the number of
devices that the allocator manages, and there is one part for each device of the
request.  The division truncates, so the parts hold every head only if it
comes out even and the request lists as many devices as there are.

`bytes_eq` and `bytesForSeqLenPerDevice_eq` write the two sizes as products,
`PartsSized` says that an allocator cuts its parts to the second of them, and
`PartsSized.enough_iff` compares the parts with the whole.  Both allocators are
`PartsSized`.
-/

namespace Qwen

/-- Shares of `heads / parts` each, for no more than `parts` takers, leave nothing
out only if the division is even and every taker is there. -/
theorem le_mul_div_iff {heads parts takers : Nat} (hheads : 0 < heads) (htakers : takers ≤ parts) :
    heads ≤ takers * (heads / parts) ↔ parts ∣ heads ∧ takers = parts := by
  have hround : parts * (heads / parts) ≤ heads := Nat.mul_div_le heads parts
  constructor
  · intro h
    have hmono : takers * (heads / parts) ≤ parts * (heads / parts) :=
      Nat.mul_le_mul_right _ htakers
    have heven : heads = parts * (heads / parts) := by omega
    have hshare : 0 < heads / parts := by
      apply Nat.pos_of_ne_zero
      intro hzero
      rw [hzero, Nat.mul_zero] at heven
      omega
    refine ⟨⟨heads / parts, heven⟩, htakers.antisymm ?_⟩
    have hall : parts * (heads / parts) ≤ takers * (heads / parts) := by omega
    exact Nat.le_of_mul_le_mul_right hall hshare
  · rintro ⟨heven, rfl⟩
    rw [Nat.mul_div_cancel' heven]

namespace KVAllocatorConfig

variable {c : KVAllocatorConfig} {n : Nat}

/-- Sizes that do not wrap: the factors are positive, and their product, the
device count and the bytes of `n` tokens fit their types. -/
structure Sizeable (c : KVAllocatorConfig) (n : Nat) : Prop where
  layers : 1 ≤ c.numLayers
  heads : 1 ≤ c.numKvHeads
  headDim : 1 ≤ c.headDim
  dtype : 1 ≤ c.dtypeBytes
  devices : c.managedDevices.length < 2 ^ 31
  factors : 2 * c.numLayers * c.numKvHeads * c.headDim < 2 ^ 31
  bytes : n * ((2 * c.numLayers * c.numKvHeads * c.headDim).toNat * c.dtypeBytes) < 2 ^ 64

/-- The bytes of one token for one KV head. -/
def bytesPerHead (c : KVAllocatorConfig) : Nat :=
  2 * c.numLayers.toNat * c.headDim.toNat * c.dtypeBytes

/-- The tensor-parallel size does not enter into the bytes of some heads. -/
theorem bytesPerHeads_congr {c' : KVAllocatorConfig} (hlayers : c'.numLayers = c.numLayers)
    (hdim : c'.headDim = c.headDim) (hdtype : c'.dtypeBytes = c.dtypeBytes) (kvHeads : Int) :
    c'.bytesPerHeads kvHeads = c.bytesPerHeads kvHeads := by
  unfold bytesPerHeads
  rw [hlayers, hdim, hdtype]

theorem adopted_fields (c : KVAllocatorConfig) :
    (c.adopted.numLayers = c.numLayers ∧ c.adopted.headDim = c.headDim ∧
      c.adopted.dtypeBytes = c.dtypeBytes) ∧ c.adopted.numKvHeads = c.numKvHeads ∧
      c.adopted.tensorParallelSize = toInt32 c.managedDevices.length := by
  refine ⟨?_, ?_, by simp only [adopted]⟩ <;> cases c
  · exact ⟨rfl, rfl, rfl⟩
  · rfl

theorem adopted_bytesForSeqLen (c : KVAllocatorConfig) (n : Nat) :
    c.adopted.bytesForSeqLen n = sizeMul n (c.bytesPerHeads c.numKvHeads) := by
  obtain ⟨⟨hlayers, hdim, hdtype⟩, hheads, -⟩ := c.adopted_fields
  unfold bytesForSeqLen bytesPerToken
  rw [hheads, bytesPerHeads_congr hlayers hdim hdtype]

theorem adopted_bytesForSeqLenPerDevice (c : KVAllocatorConfig) (n : Nat) :
    c.adopted.bytesForSeqLenPerDevice n =
      sizeMul n (c.bytesPerHeads (c.numKvHeads.tdiv (toInt32 c.managedDevices.length))) := by
  obtain ⟨⟨hlayers, hdim, hdtype⟩, hheads, hcount⟩ := c.adopted_fields
  unfold bytesForSeqLenPerDevice bytesPerTokenPerDevice
  rw [hheads, hcount, bytesPerHeads_congr hlayers hdim hdtype]

theorem managedDevices_pos (c : KVAllocatorConfig) : 0 < c.managedDevices.length := by
  unfold managedDevices
  cases hids : c.deviceIds with
  | nil => simp
  | cons first rest => simp

namespace Sizeable

theorem bytesPerHead_pos (h : c.Sizeable n) : 0 < c.bytesPerHead := by
  obtain ⟨hlayers, -, hdim, hdtype, -⟩ := h
  unfold bytesPerHead
  have hl : 0 < c.numLayers.toNat := by omega
  have hd : 0 < c.headDim.toNat := by omega
  positivity

/-- The bytes of some of the heads. -/
theorem bytes_eq (h : c.Sizeable n) {k : Nat} (hk : (k : Int) ≤ c.numKvHeads) :
    sizeMul n (c.bytesPerHeads k) = n * (k * c.bytesPerHead) := by
  obtain ⟨layers, hlayers⟩ := Int.eq_ofNat_of_zero_le (show 0 ≤ c.numLayers by linarith [h.layers])
  obtain ⟨heads, hheads⟩ := Int.eq_ofNat_of_zero_le (show 0 ≤ c.numKvHeads by linarith [h.heads])
  obtain ⟨dim, hdim⟩ := Int.eq_ofNat_of_zero_le (show 0 ≤ c.headDim by linarith [h.headDim])
  have hfactors := h.factors
  have hbytes := h.bytes
  unfold bytesPerHeads bytesPerHead
  rw [hlayers, hheads, hdim] at hfactors
  rw [hlayers, hheads, hdim] at hbytes
  rw [hheads] at hk
  rw [hlayers, hdim]
  have hk' : k ≤ heads := by exact_mod_cast hk
  have hcast : (2 * (layers : Int) * heads * dim).toNat = 2 * layers * heads * dim := by
    have : 2 * (layers : Int) * heads * dim = ((2 * layers * heads * dim : Nat) : Int) := by
      push_cast
      ring
    rw [this, Int.toNat_natCast]
  rw [hcast] at hbytes
  have hsome : 2 * layers * k * dim ≤ 2 * layers * heads * dim := by gcongr
  have hsmall : 2 * layers * k * dim < 2 ^ 31 := by
    have hlimit : 2 * layers * heads * dim < 2 ^ 31 := by exact_mod_cast hfactors
    exact hsome.trans_lt hlimit
  have hword : toInt32 (2 * (layers : Int) * k * dim) = ((2 * layers * k * dim : Nat) : Int) := by
    have hprod : 2 * (layers : Int) * k * dim = ((2 * layers * k * dim : Nat) : Int) := by
      push_cast
      ring
    rw [hprod]
    exact Wrapping.toSigned_of_lt (by omega)
  have hsize : toSize ((2 * layers * k * dim : Nat) : Int) = 2 * layers * k * dim := by
    exact Wrapping.ofInt_of_lt (hsmall.trans (by decide))
  rw [hword, hsize]
  rcases Nat.eq_zero_or_pos n with rfl | hn
  · simp [Wrapping.mul]
  · have hless : 2 * layers * k * dim * c.dtypeBytes ≤ 2 * layers * heads * dim * c.dtypeBytes := by
      gcongr
    have htoken : 2 * layers * k * dim * c.dtypeBytes ≤
        n * (2 * layers * k * dim * c.dtypeBytes) := Nat.le_mul_of_pos_left _ hn
    have hall : n * (2 * layers * k * dim * c.dtypeBytes) ≤
        n * (2 * layers * heads * dim * c.dtypeBytes) := by gcongr
    have hinner : sizeMul (2 * layers * k * dim) c.dtypeBytes =
        2 * layers * k * dim * c.dtypeBytes := Nat.mod_eq_of_lt (by omega)
    rw [hinner]
    have houter : sizeMul n (2 * layers * k * dim * c.dtypeBytes) =
        n * (2 * layers * k * dim * c.dtypeBytes) := Nat.mod_eq_of_lt (by omega)
    rw [houter]
    simp only [Int.toNat_natCast]
    ring

/-- All heads, and the heads of one device. -/
theorem bytesForSeqLen_eq (h : c.Sizeable n) :
    c.adopted.bytesForSeqLen n = n * (c.numKvHeads.toNat * c.bytesPerHead) := by
  have hheads := h.heads
  have hcast : ((c.numKvHeads.toNat : Nat) : Int) = c.numKvHeads := by omega
  have hall := h.bytes_eq (k := c.numKvHeads.toNat) hcast.le
  rw [hcast] at hall
  rw [adopted_bytesForSeqLen]
  exact hall

theorem bytesForSeqLenPerDevice_eq (h : c.Sizeable n) :
    c.adopted.bytesForSeqLenPerDevice n =
      n * (c.numKvHeads.toNat / c.managedDevices.length * c.bytesPerHead) := by
  have hheads := h.heads
  have hcast : ((c.numKvHeads.toNat : Nat) : Int) = c.numKvHeads := by omega
  have hcount : toInt32 c.managedDevices.length = (c.managedDevices.length : Int) := by
    have := h.devices
    exact Wrapping.toSigned_of_lt (by omega)
  have hshare : c.numKvHeads.tdiv (toInt32 c.managedDevices.length) =
      ((c.numKvHeads.toNat / c.managedDevices.length : Nat) : Int) := by
    rw [hcount, ← hcast, Int.toNat_natCast, Int.tdiv_eq_ediv_of_nonneg (Int.natCast_nonneg _)]
    rfl
  have hle : ((c.numKvHeads.toNat / c.managedDevices.length : Nat) : Int) ≤ c.numKvHeads := by
    have := Nat.div_le_self c.numKvHeads.toNat c.managedDevices.length
    omega
  have hpart := h.bytes_eq hle
  rw [← hshare] at hpart
  rw [adopted_bytesForSeqLenPerDevice]
  exact hpart

end Sizeable

end KVAllocatorConfig

/-! ## The parts of a handle -/

section Parts

variable (A : Type) [IKVCacheAllocator A]

open IKVCacheAllocator

/-- A tensor-parallel handle has one part for each device of the request, of the
bytes of one device. -/
def PartsSized : Prop :=
  ∀ {answers : List (Option String)} {a a' : A} {n : Nat} {devices : List Int}
    {h : KVCacheHandle}, devices ≠ [] →
      allocateTensorParallel answers a n devices = (.ok h, a') →
        h.deviceCaches.map (·.deviceId) = devices ∧
          ∀ cache ∈ h.deviceCaches,
            cache.bytesAllocated = (config a).bytesForSeqLenPerDevice n

end Parts

theorem ContiguousKVAllocator.partsSized : PartsSized ContiguousKVAllocator := by
  intro answers a a' n devices h hne heq
  obtain ⟨primary, rest, rfl⟩ := List.exists_cons_of_ne_nil hne
  change (a.withAnswers answers).allocateTensorParallel n (primary :: rest) = _ at heq
  unfold allocateTensorParallel at heq
  dsimp only at heq
  split at heq
  next e hcheck => cases heq
  next hcheck =>
    split at heq
    next e stats c heach => cases heq
    next caches stats c heach =>
      cases heq
      exact ⟨by simpa using allocateEach_devices heach, (allocateEach_books heach (by simp)).2⟩

theorem PooledKVAllocator.partsSized : PartsSized PooledKVAllocator := by
  intro answers a a' n devices h hne heq
  obtain ⟨primary, rest, rfl⟩ := List.exists_cons_of_ne_nil hne
  change (a.withAnswers answers).allocateTensorParallel n (primary :: rest) = _ at heq
  unfold allocateTensorParallel allocateTensorParallelFallback at heq
  dsimp only at heq
  split at heq
  next e stats c heach => cases heq
  next caches stats c heach =>
    cases heq
    exact ⟨by simpa using allocateEach_devices heach, (allocateEach_books heach (by simp)).2⟩

/-- The bytes of a handle over all of its devices. -/
def KVCacheHandle.totalBytes (h : KVCacheHandle) : Nat :=
  (h.deviceCaches.map (·.bytesAllocated)).sum

/-- Whether there are as many parts as there are shares, and the heads come out
even. -/
def KVAllocatorConfig.SplitsOver (c : KVAllocatorConfig) (devices : List Int) : Prop :=
  (c.managedDevices.length : Int) ∣ c.numKvHeads ∧
    devices.length = c.managedDevices.length

/-- The parts of a handle that was sized by its allocator hold a whole cache if
and only if nothing is to be held or the heads are split over the devices. -/
theorem PartsSized.enough_iff {A : Type} [IKVCacheAllocator A] (hparts : PartsSized A)
    {config : KVAllocatorConfig} {n : Nat} (hsize : config.Sizeable n) {devices : List Int}
    (hne : devices ≠ []) (hnodup : devices.Nodup)
    (hmanaged : ∀ d ∈ devices, d ∈ config.managedDevices) {a a' : A}
    (hconfig : IKVCacheAllocator.config a = config.adopted) {answers : List (Option String)}
    {h : KVCacheHandle}
    (heq : IKVCacheAllocator.allocateTensorParallel answers a n devices = (.ok h, a')) :
    (IKVCacheAllocator.config a).bytesForSeqLen n ≤ h.totalBytes ↔
      n = 0 ∨ config.SplitsOver devices := by
  obtain ⟨hdevices, hbytes⟩ := hparts hne heq
  have htotal : h.totalBytes = devices.length * config.adopted.bytesForSeqLenPerDevice n := by
    have hsum := List.sum_eq_card_nsmul (h.deviceCaches.map (·.bytesAllocated))
      (config.adopted.bytesForSeqLenPerDevice n) fun bytes hmem => by
        obtain ⟨cache, hcache, rfl⟩ := List.mem_map.mp hmem
        rw [hbytes cache hcache, hconfig]
    unfold KVCacheHandle.totalBytes
    rw [hsum, List.length_map, ← hdevices, List.length_map, smul_eq_mul]
  have htakers : devices.length ≤ config.managedDevices.length :=
    (hnodup.subperm hmanaged).length_le
  have hheads : 0 < config.numKvHeads.toNat := by
    have := hsize.heads
    omega
  have hdvd : config.managedDevices.length ∣ config.numKvHeads.toNat ↔
      (config.managedDevices.length : Int) ∣ config.numKvHeads := by
    rw [← Int.natCast_dvd_natCast, Int.toNat_of_nonneg (by linarith [hsize.heads])]
  rw [hconfig, htotal, hsize.bytesForSeqLen_eq, hsize.bytesForSeqLenPerDevice_eq]
  unfold KVAllocatorConfig.SplitsOver
  rw [← hdvd, ← le_mul_div_iff hheads htakers]
  have hregroup : devices.length *
      (n * (config.numKvHeads.toNat / config.managedDevices.length * config.bytesPerHead)) =
      n * (devices.length * (config.numKvHeads.toNat / config.managedDevices.length) *
        config.bytesPerHead) := by ring
  rw [hregroup]
  rcases Nat.eq_zero_or_pos n with rfl | hn
  · simp
  · rw [Nat.mul_le_mul_left_iff hn, Nat.mul_le_mul_right_iff hsize.bytesPerHead_pos]
    simp [hn.ne']

/-- **The split.**  For both allocators, as `initialize` configures them: a
tensor-parallel cache over distinct managed devices holds the whole cache if
and only if it is empty, or the device count divides the KV heads and every
managed device is listed. -/
theorem parallel_cache_enough {config : KVAllocatorConfig} {n : Nat} (hsize : config.Sizeable n)
    {devices : List Int} (hne : devices ≠ []) (hnodup : devices.Nodup)
    (hmanaged : ∀ d ∈ devices, d ∈ config.managedDevices) :
    (∀ (a : ContiguousKVAllocator) answers h a', a.config = config.adopted →
      (a.withAnswers answers).allocateTensorParallel n devices = (.ok h, a') →
        (a.config.bytesForSeqLen n ≤ h.totalBytes ↔ n = 0 ∨ config.SplitsOver devices)) ∧
    ∀ (a : PooledKVAllocator) answers h a', a.config = config.adopted →
      (a.withAnswers answers).allocateTensorParallel n devices = (.ok h, a') →
        (a.config.bytesForSeqLen n ≤ h.totalBytes ↔ n = 0 ∨ config.SplitsOver devices) :=
  ⟨fun _ _ _ _ hconfig heq => ContiguousKVAllocator.partsSized.enough_iff hsize hne hnodup
      hmanaged hconfig heq,
    fun _ _ _ _ hconfig heq => PooledKVAllocator.partsSized.enough_iff hsize hne hnodup
      hmanaged hconfig heq⟩

/-- Two GPUs share the eight KV heads evenly. -/
theorem parallel_cache_enough_sample :
    (∀ (a : ContiguousKVAllocator) answers h a',
      a.config = KVAllocatorConfig.adopted { deviceIds := [0, 1] } →
      (a.withAnswers answers).allocateTensorParallel 100 [1, 0] = (.ok h, a') →
        (a.config.bytesForSeqLen 100 ≤ h.totalBytes ↔
          100 = 0 ∨ KVAllocatorConfig.SplitsOver { deviceIds := [0, 1] } [1, 0])) ∧
    ∀ (a : PooledKVAllocator) answers h a',
      a.config = KVAllocatorConfig.adopted { deviceIds := [0, 1] } →
      (a.withAnswers answers).allocateTensorParallel 100 [1, 0] = (.ok h, a') →
        (a.config.bytesForSeqLen 100 ≤ h.totalBytes ↔
          100 = 0 ∨ KVAllocatorConfig.SplitsOver { deviceIds := [0, 1] } [1, 0]) :=
  parallel_cache_enough (by constructor <;> decide) (by decide) (by decide) (by decide)

/-- The allocator of a server with three GPUs of 1 TiB. -/
def threeGpus : ContiguousKVAllocator where
  config := KVAllocatorConfig.adopted { maxTotalMemory := 2 ^ 40, deviceIds := [0, 1, 2] }
  deviceStats :=
    (((∅ : AList (fun _ : Int => MemoryStats)).insert 0
      { totalBytes := 2 ^ 40, freeBytes := 2 ^ 40 }).insert 1
      { totalBytes := 2 ^ 40, freeBytes := 2 ^ 40 }).insert 2
      { totalBytes := 2 ^ 40, freeBytes := 2 ^ 40 }

/-- Three GPUs hold two of the eight KV heads each, six in all. -/
theorem three_gpus_hold_six_heads :
    ContiguousKVAllocator.initializeAllocator
        { maxTotalMemory := 2 ^ 40, deviceIds := [0, 1, 2] } (fun _ => .ok 0) = .ok threeGpus ∧
      ∃ h a', threeGpus.allocateTensorParallel 100 [0, 1, 2] = (.ok h, a') ∧
        4 * h.totalBytes = 3 * threeGpus.config.bytesForSeqLen 100 ∧
        ¬ threeGpus.config.bytesForSeqLen 100 ≤ h.totalBytes := by
  have hbytes : (threeGpus.allocateTensorParallel 100 [0, 1, 2]).1.map KVCacheHandle.totalBytes =
      .ok 19660800 := by decide +kernel
  have hwhole : threeGpus.config.bytesForSeqLen 100 = 26214400 := by decide +kernel
  refine ⟨rfl, ?_⟩
  rcases hserved : threeGpus.allocateTensorParallel 100 [0, 1, 2] with ⟨e | h, a'⟩ <;>
    rw [hserved] at hbytes
  · cases hbytes
  · have htotal : h.totalBytes = 19660800 := Except.ok.inj hbytes
    exact ⟨h, a', rfl, by omega, by omega⟩

end Qwen
