import WinInference.KVCache.Accounts
import WinInference.KVCache.PooledLaws

/-!
# What the `can_allocate` queries predict

A query predicts its allocation in a state if it says yes exactly when the
allocation, called in that state with a CUDA runtime that never fails, succeeds.
The contiguous allocator predicts both of its allocations in every state.  The
pooled one predicts `allocate`; its tensor-parallel query only looks at
`allow_overflow`, which the tensor-parallel allocation does not look at.

`canAllocate_iff` and `canAllocateTensorParallel_iff` say when a query answers
yes, and `allocateOnDevice_isOk`, `allocate_isOk` and
`allocateTensorParallelFallback_isOk` when the allocation succeeds with a
willing runtime.
-/

namespace Qwen

section Predicts

variable {A : Type} [IKVCacheAllocator A]

/-- `can_allocate` says whether `allocate` succeeds, CUDA permitting. -/
def PredictsSingle (a : A) (n : Nat) : Prop :=
  ∀ answers, (∀ x ∈ answers, x = none) →
    (IKVCacheAllocator.canAllocate a n = true ↔
      (IKVCacheAllocator.allocate answers a n).1.isOk = true)

/-- The same of the tensor-parallel pair. -/
def PredictsParallel (a : A) (n : Nat) (devices : List Int) : Prop :=
  ∀ answers, (∀ x ∈ answers, x = none) →
    (IKVCacheAllocator.canAllocateTensorParallel a n devices = true ↔
      (IKVCacheAllocator.allocateTensorParallel answers a n devices).1.isOk = true)

end Predicts

namespace ContiguousKVAllocator

variable {a : ContiguousKVAllocator}

/-- A single-device allocation needs the device and the room. -/
theorem allocateOnDevice_isOk (hwilling : a.cuda.Willing) (n : Nat) (deviceId : Int) :
    (a.allocateOnDevice n deviceId).1.isOk = true ↔
      ∃ m, a.deviceStats.lookup deviceId = some m ∧ a.config.bytesForSeqLen n ≤ m.freeBytes := by
  unfold allocateOnDevice
  dsimp only
  cases hstats : a.deviceStats.lookup deviceId with
  | none => simp [Except.isOk, Except.toBool]
  | some m =>
      dsimp only
      by_cases hroom : a.config.bytesForSeqLen n > m.freeBytes
      · rw [if_pos hroom]
        simp [Except.isOk, Except.toBool, hroom]
      · rw [if_neg hroom]
        obtain ⟨c₁, hset, hrest⟩ := hwilling.setDevice deviceId
        rw [hset]
        dsimp only
        obtain ⟨k, v, c₂, hpair, -⟩ := hrest.pair (a.config.bytesForSeqLen n / 2)
          (fun err => .internal ("Failed to allocate K cache: " ++ err))
          (fun err => .internal ("Failed to allocate V cache: " ++ err))
        rw [hpair]
        simpa [Except.isOk, Except.toBool] using hroom

/-- The query says yes exactly when the configured device has the bytes free. -/
theorem canAllocate_iff (a : ContiguousKVAllocator) (n : Nat) :
    a.canAllocate n = true ↔ ∃ m, a.deviceStats.lookup a.config.deviceId = some m ∧
      a.config.bytesForSeqLen n ≤ m.freeBytes := by
  unfold canAllocate
  cases a.deviceStats.lookup a.config.deviceId <;> simp

/-- What the query says of one device is what the allocation does. -/
theorem predictsSingle (a : ContiguousKVAllocator) (n : Nat) : PredictsSingle a n := by
  intro answers hanswers
  have hwilling : (a.withAnswers answers).cuda.Willing := hanswers
  exact (a.canAllocate_iff n).trans (allocateOnDevice_isOk hwilling n a.config.deviceId).symm

/-- The query says yes exactly when every listed device has a share free. -/
theorem canAllocateTensorParallel_iff (a : ContiguousKVAllocator) (n : Nat) (primary : Int)
    (rest : List Int) :
    a.canAllocateTensorParallel n (primary :: rest) = true ↔
      a.checkDevices (a.config.bytesForSeqLenPerDevice n) (primary :: rest) = .ok () := by
  have hall : a.canAllocateTensorParallel n (primary :: rest) = true ↔
      ∀ d ∈ primary :: rest, ∃ m, a.deviceStats.lookup d = some m ∧
        a.config.bytesForSeqLenPerDevice n ≤ m.freeBytes := by
    unfold canAllocateTensorParallel
    rw [List.all_eq_true]
    refine forall₂_congr fun d _ => ?_
    cases a.deviceStats.lookup d <;> simp
  rw [hall]
  exact ⟨checkDevices_of_room, checkDevices_ok⟩

/-- What the query says of a device list is what the allocation does. -/
theorem predictsParallel (a : ContiguousKVAllocator) (n : Nat) (devices : List Int) :
    PredictsParallel a n devices := by
  intro answers hanswers
  cases devices with
  | nil => exact a.predictsSingle n answers hanswers
  | cons primary rest =>
      have hwilling : (a.withAnswers answers).cuda.Willing := hanswers
      refine (a.canAllocateTensorParallel_iff n primary rest).trans ?_
      rw [← checkDevices_withAnswers answers]
      change _ ↔ ((a.withAnswers answers).allocateTensorParallel n (primary :: rest)).1.isOk = true
      obtain ⟨e, hcheck, heq⟩ | ⟨hcheck, h, a', heq⟩ :=
        allocateTensorParallel_settled (a := a.withAnswers answers) n primary rest (Or.inr hwilling)
      · rw [heq]
        change (a.withAnswers answers).checkDevices (a.config.bytesForSeqLenPerDevice n) _ = _
          at hcheck
        rw [hcheck]
        simp [Except.isOk, Except.toBool]
      · rw [heq]
        change (a.withAnswers answers).checkDevices (a.config.bytesForSeqLenPerDevice n) _ = _
          at hcheck
        rw [hcheck]
        simp [Except.isOk, Except.toBool]

end ContiguousKVAllocator

namespace PooledKVAllocator

variable {a : PooledKVAllocator}

/-- The fallback allocation succeeds on a willing device layer. -/
theorem allocateFallback_isOk (hwilling : a.cuda.Willing) (n : Nat) (deviceId : Int) :
    (a.allocateFallback n deviceId).1.isOk = true := by
  unfold allocateFallback
  obtain ⟨c₁, hset, hrest⟩ := hwilling.setDevice deviceId
  rw [hset]
  dsimp only
  obtain ⟨k, v, c₂, hpair, -⟩ := hrest.pair (a.config.bytesForSeqLen n / 2)
    (fun err => .internal ("Failed to allocate K cache: " ++ err))
    (fun err => .internal ("Failed to allocate V cache: " ++ err))
  rw [hpair]
  rfl

/-- An overflow succeeds on a willing device layer exactly when it is allowed. -/
theorem overflow_isOk (hwilling : a.cuda.Willing) (n : Nat) :
    (a.overflow n).1.isOk = a.poolConfig.allowOverflow := by
  unfold overflow
  cases hallow : a.poolConfig.allowOverflow with
  | true =>
      rw [if_pos rfl]
      exact allocateFallback_isOk hwilling n a.config.deviceId
  | false => rfl

/-- `can_allocate` looks for a free slot as `allocate` does. -/
theorem allocate_isOk (hwilling : a.cuda.Willing) (n : Nat) :
    (a.allocate n).1.isOk = a.canAllocate n := by
  unfold allocate canAllocate
  by_cases hfits : n ≤ a.poolConfig.slotSizeTokens
  · rw [if_pos hfits]
    have hover : ∀ pools : AList (fun _ : Int => DevicePool),
        ({ a with devicePools := pools }.overflow n).1.isOk = a.poolConfig.allowOverflow :=
      fun pools => overflow_isOk (a := { a with devicePools := pools }) hwilling n
    cases hpool : a.devicePools.lookup a.config.deviceId with
    | none => simpa [poolAt, hpool, hfits] using hover _
    | some pool =>
        cases hfree : pool.freeSlots with
        | nil => simpa [poolAt, hpool, hfits, hfree] using hover _
        | cons slotIdx freeSlots =>
            simp [poolAt, hpool, hfits, hfree, Except.isOk, Except.toBool]
  · rw [if_neg hfits]
    simpa [hfits] using overflow_isOk hwilling n

theorem predictsSingle (a : PooledKVAllocator) (n : Nat) : PredictsSingle a n := by
  intro answers hanswers
  have hwilling : (a.withAnswers answers).cuda.Willing := hanswers
  change a.canAllocate n = true ↔ ((a.withAnswers answers).allocate n).1.isOk = true
  rw [allocate_isOk hwilling n]
  rfl

/-- The tensor-parallel allocation needs neither a slot nor the permission to
overflow. -/
theorem allocateTensorParallelFallback_isOk (hwilling : a.cuda.Willing) (n : Nat) (primary : Int)
    (devices : List Int) :
    (a.allocateTensorParallelFallback n primary devices).1.isOk = true := by
  obtain ⟨caches, books, c, heach⟩ := hwilling.each (a.config.bytesForSeqLenPerDevice n)
    (fun _ (u : Unit) => u) (fun _ => "") devices [] ()
  unfold allocateTensorParallelFallback
  dsimp only
  rw [heach]
  rfl

/-- The tensor-parallel query is right if overflow is allowed, or if nothing can
be allocated at all. -/
theorem predictsParallel_iff (a : PooledKVAllocator) (n : Nat) (devices : List Int) :
    PredictsParallel a n devices ↔
      a.poolConfig.allowOverflow = true ∨ devices = [] ∧ a.canAllocate n = false := by
  have hwilling : ∀ answers : List (Option String), (∀ x ∈ answers, x = none) →
      (a.withAnswers answers).cuda.Willing := fun _ hanswers => hanswers
  cases devices with
  | nil =>
      have hserved : ∀ answers : List (Option String), (∀ x ∈ answers, x = none) →
          (IKVCacheAllocator.allocateTensorParallel answers a n []).1.isOk = a.canAllocate n :=
        fun answers hanswers => allocate_isOk (hwilling answers hanswers) n
      constructor
      · intro h
        have hquery := h [] (by simp)
        rw [hserved [] (by simp)] at hquery
        cases hallow : a.poolConfig.allowOverflow with
        | true => exact Or.inl rfl
        | false =>
            refine Or.inr ⟨rfl, ?_⟩
            change a.poolConfig.allowOverflow = true ↔ _ at hquery
            rw [hallow] at hquery
            simpa using hquery
      · intro h answers hanswers
        rw [hserved answers hanswers]
        change a.poolConfig.allowOverflow = true ↔ _
        rcases h with hallow | ⟨-, hnone⟩
        · simp [canAllocate, hallow]
        · rw [hnone]
          simp only [canAllocate, Bool.or_eq_false_iff] at hnone
          simp [hnone.2]
  | cons primary rest =>
      have hserved : ∀ answers : List (Option String), (∀ x ∈ answers, x = none) →
          (IKVCacheAllocator.allocateTensorParallel answers a n (primary :: rest)).1.isOk = true :=
        fun answers hanswers =>
          allocateTensorParallelFallback_isOk (hwilling answers hanswers) n primary _
      constructor
      · intro h
        exact Or.inl ((h [] (by simp)).mpr (hserved [] (by simp)))
      · intro h answers hanswers
        rw [hserved answers hanswers]
        change a.poolConfig.allowOverflow = true ↔ _
        simpa using h

end PooledKVAllocator

/-- **The queries.**  Both queries of the contiguous allocator and the
single-device query of the pooled one predict in every state; the
tensor-parallel query of the pooled one predicts exactly when overflow is
allowed, or when no device is listed and nothing can be allocated. -/
theorem queries_predict (contiguous : ContiguousKVAllocator) (pooled : PooledKVAllocator)
    (n : Nat) (devices : List Int) :
    (PredictsSingle contiguous n ∧ PredictsParallel contiguous n devices) ∧
    PredictsSingle pooled n ∧
      (PredictsParallel pooled n devices ↔
        pooled.poolConfig.allowOverflow = true ∨
          devices = [] ∧ pooled.canAllocate n = false) :=
  ⟨⟨contiguous.predictsSingle n, contiguous.predictsParallel n devices⟩,
    pooled.predictsSingle n, pooled.predictsParallel_iff n devices⟩

/-- A new pool of one slot that may not overflow: it has room for a request, and
an allocation over its device or over no device succeeds, but the query says
no. -/
theorem pooled_query_refuses :
    let a := (PooledKVAllocator.initializeAllocator
      { slotSizeTokens := 16, numSlots := 1, allowOverflow := false } {} {}).2
    (¬ PredictsParallel a 8 [] ∧ a.canAllocate 8 = true) ∧ ¬ PredictsParallel a 8 [0] := by
  refine ⟨⟨fun h => ?_, by decide⟩, fun h => ?_⟩
  · have hquery := h [] (by simp)
    revert hquery
    decide
  · have hquery := h [] (by simp)
    revert hquery
    decide

end Qwen
