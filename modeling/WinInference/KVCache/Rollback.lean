import WinInference.KVCache.Accounts

/-!
# What a failed allocation leaves behind

The device loop of a tensor-parallel allocation makes three CUDA calls for each
device and charges the device once all three have succeeded.  So the answers
of the CUDA runtime say which devices are charged, and a failed allocation has
changed nothing if that is none of them.  The charges of a device that was
served are not taken back; they can only come round to where they were, after
`2 ^ 32` of them.

`allocateEach_served` says which devices the loop gets through,
`charge_iterate_eq_iff` when repeated charges come round, and
`allocateTensorParallel_outcome` puts both together.  `EachDevice` is an
invariant of the counters of every device, kept by every operation
(`EachDevice.perform`), and `fits_maintained` the one that is needed here.
-/

namespace Qwen

/-! ## Which devices are served -/

namespace Cuda

/-- A call gets the first answer that is left. -/
theorem answer_fst (c : Cuda) : c.answer.1 = c.answers.head?.join := by
  unfold answer
  cases c.answers <;> rfl

/-- It leaves the others. -/
theorem answer_answers (c : Cuda) : c.answer.2.answers = c.answers.tail := by
  unfold answer
  cases hanswers : c.answers with
  | nil => exact hanswers
  | cons x rest => rfl

/-- A `cudaMalloc` uses up one answer, which decides whether it succeeds. -/
theorem malloc_cases (c : Cuda) (size : Nat) :
    (∃ err c', c.cudaMalloc size = (.error err, c') ∧ c.answers.head?.join ≠ none) ∨
    ∃ p c', c.cudaMalloc size = (.ok p, c') ∧ c.answers.head?.join = none ∧
      c'.answers = c.answers.tail := by
  have hfirst := c.answer_fst
  have hrest := c.answer_answers
  unfold cudaMalloc
  rcases hanswer : c.answer with ⟨_ | text, c₁⟩ <;> rw [hanswer] at hfirst hrest <;>
    dsimp only at hfirst hrest ⊢
  · by_cases hzero : size = 0
    · rw [if_pos hzero]
      exact Or.inr ⟨none, c₁, rfl, hfirst.symm, hrest⟩
    · rw [if_neg hzero]
      exact Or.inr ⟨_, _, rfl, hfirst.symm, hrest⟩
  · refine Or.inl ⟨text, c₁, rfl, ?_⟩
    rw [← hfirst]
    simp

end Cuda

/-- The next `k + 1` calls succeed if the next one does and `k` after it. -/
theorem take_succ_isNone (answers : List (Option String)) (k : Nat) :
    (answers.take (k + 1)).all Option.isNone = true ↔
      answers.head?.join = none ∧ (answers.tail.take k).all Option.isNone = true := by
  rcases answers with _ | ⟨_ | x, rest⟩ <;> simp

/-- The devices whose three CUDA calls succeed, up to the first whose do not. -/
def served : List (Option String) → List Int → List Int
  | _, [] => []
  | answers, deviceId :: rest =>
      if (answers.take 3).all Option.isNone then deviceId :: served (answers.drop 3) rest
      else []

/-- Only listed devices are served. -/
theorem served_subset (answers : List (Option String)) (devices : List Int) :
    ∀ d ∈ served answers devices, d ∈ devices := by
  induction devices generalizing answers with
  | nil =>
      intro d hd
      exact hd
  | cons first rest ih =>
      intro d hd
      unfold served at hd
      split at hd
      · rcases List.mem_cons.mp hd with rfl | hd
        · exact List.mem_cons_self
        · exact List.mem_cons_of_mem first (ih _ d hd)
      · cases hd

/-- The two `cudaMalloc` calls of a device succeed together. -/
theorem mallocPair_cases (c : Cuda) (half : Nat) (kError vError : String → Error) :
    (∃ e c', mallocPair c half kError vError = (.error e, c') ∧
      ¬ (c.answers.take 2).all Option.isNone = true) ∨
    ∃ k v c', mallocPair c half kError vError = (.ok (k, v), c') ∧
      (c.answers.take 2).all Option.isNone = true ∧ c'.answers = c.answers.drop 2 := by
  unfold mallocPair
  rw [take_succ_isNone, take_succ_isNone]
  obtain ⟨err, c₁, hk, hbad⟩ | ⟨k, c₁, hk, hgood, hrest⟩ := c.malloc_cases half
  · rw [hk]
    exact Or.inl ⟨_, _, rfl, fun h => hbad h.1⟩
  · rw [hk]
    dsimp only
    obtain ⟨err, c₂, hv, hbad⟩ | ⟨v, c₂, hv, hgood', hrest'⟩ := c₁.malloc_cases half
    · rw [hv]
      rw [hrest] at hbad
      exact Or.inl ⟨_, _, rfl, fun h => hbad h.2.1⟩
    · rw [hv]
      rw [hrest] at hgood' hrest'
      refine Or.inr ⟨k, v, c₂, rfl, ⟨hgood, hgood', by simp⟩, ?_⟩
      rw [hrest']
      rcases c.answers with _ | ⟨x, _ | ⟨y, rest⟩⟩ <;> rfl

/-- The device loop charges the devices that are served, and succeeds if these
are all. -/
theorem allocateEach_served {S : Type} (bytes : Nat) (charge : Int → S → S)
    (detail : String → String) (devices : List Int) (caches : List PerDeviceKVCache) (books : S)
    (c : Cuda) :
    let out := allocateEach bytes charge detail devices caches books c
    out.2.1 = (served c.answers devices).foldl (fun s d => charge d s) books ∧
      (out.1.isOk = true ↔ served c.answers devices = devices) := by
  induction devices generalizing caches books c with
  | nil => exact ⟨rfl, by simp [allocateEach, served, Except.isOk, Except.toBool]⟩
  | cons deviceId rest ih =>
      have hfirst := c.answer_fst
      have hrest := c.answer_answers
      have hset : c.cudaSetDevice deviceId = c.answer := rfl
      -- the device that fails leaves the books as the devices before it did
      have hstop : ¬ (c.answers.take 3).all Option.isNone = true →
          books = (served c.answers (deviceId :: rest)).foldl (fun s d => charge d s) books ∧
            ∀ e : Error, ((.error e : Result (List PerDeviceKVCache)).isOk = true ↔
              served c.answers (deviceId :: rest) = deviceId :: rest) := by
        intro hnot
        unfold served
        rw [if_neg hnot]
        exact ⟨rfl, by simp [Except.isOk, Except.toBool]⟩
      unfold allocateEach
      rw [hset]
      rw [take_succ_isNone] at hstop
      rcases hanswer : c.answer with ⟨_ | text, c₁⟩ <;> rw [hanswer] at hfirst hrest <;>
        dsimp only at hfirst hrest ⊢
      · rw [← hrest] at hstop
        obtain ⟨e, c₂, hpair, hbad⟩ | ⟨k, v, c₂, hpair, hgood, hdrop⟩ :=
          mallocPair_cases c₁ (bytes / 2)
            (fun err => .internal
              (s!"Failed to allocate K cache on device {deviceId}" ++ detail err))
            (fun err => .internal
              (s!"Failed to allocate V cache on device {deviceId}" ++ detail err))
        · rw [hpair]
          obtain ⟨hbooks, hok⟩ := hstop fun h => hbad h.2
          exact ⟨hbooks, hok e⟩
        · rw [hpair]
          have hall : (c.answers.take 3).all Option.isNone = true := by
            rw [take_succ_isNone, ← hrest]
            exact ⟨hfirst.symm, hgood⟩
          have hleft : c₂.answers = c.answers.drop 3 := by
            rw [hdrop, hrest]
            cases c.answers <;> rfl
          obtain ⟨hbooks, hok⟩ := ih (caches ++ [⟨k, v, deviceId, bytes⟩])
            (charge deviceId books) c₂
          unfold served
          rw [if_pos hall, ← hleft]
          exact ⟨hbooks, hok.trans (by simp)⟩
      · have hbad : some text ≠ none := by simp
        obtain ⟨hbooks, hok⟩ := hstop fun h => hbad (hfirst.trans h.1)
        exact ⟨hbooks, hok _⟩

/-! ## Charges that come round -/

namespace MemoryStats

variable {m : MemoryStats} {b k : Nat}

/-- The counters fit their types. -/
structure Fits (m : MemoryStats) : Prop where
  total : m.totalBytes < 2 ^ 64
  used : m.usedBytes < 2 ^ 64
  free : m.freeBytes < 2 ^ 64
  active : m.activeAllocations < 2 ^ 32
  allocations : m.totalAllocations < 2 ^ 32

/-- The counters that `initialize` opens. -/
theorem Accurate.fits (h : m.Accurate 0 0 0) : m.Fits := by
  obtain ⟨hused, hbalance, htotal, -, -, hactive, hcounts, hbounded⟩ := h
  constructor <;> omega

/-- `k` charges of `b` bytes bring every counter back to where it was. -/
def ComesRound (m : MemoryStats) (b k : Nat) : Prop :=
  2 ^ 32 ∣ k ∧ 2 ^ 64 ∣ k * b ∧ ∀ j, 0 < j → j ≤ k → (m.usedBytes + j * b) % 2 ^ 64 ≤ m.peakBytes

/-- No charge leaves the counters where they are. -/
theorem comesRound_zero : m.ComesRound b 0 :=
  ⟨Nat.dvd_zero _, by simp, fun j hpos hle => absurd hpos (Nat.not_lt.mpr hle)⟩

/-- The used bytes after `k` charges. -/
theorem charge_iterate_used (hm : m.Fits) (b k : Nat) :
    ((·.charge b)^[k] m).usedBytes = (m.usedBytes + k * b) % 2 ^ 64 := by
  have hcomm : Function.Semiconj usedBytes (·.charge b) (fun x => sizeAdd x b) := fun _ => rfl
  rw [(hcomm.iterate_right k).eq]
  exact Wrapping.add_iterate hm.used b k

/-- The free bytes come round when the charges do. -/
theorem charge_iterate_free (hm : m.Fits) (hb : 2 ^ 64 ∣ k * b) :
    ((·.charge b)^[k] m).freeBytes = m.freeBytes := by
  have hcomm : Function.Semiconj freeBytes (·.charge b) (fun x => sizeSub x b) := fun _ => rfl
  rw [(hcomm.iterate_right k).eq]
  exact Wrapping.sub_iterate_eq_self hm.free hb

/-- The live allocations after `k` charges. -/
theorem charge_iterate_active (hm : m.Fits) (b k : Nat) :
    ((·.charge b)^[k] m).activeAllocations = (m.activeAllocations + k) % 2 ^ 32 := by
  have hcomm : Function.Semiconj activeAllocations (·.charge b) uint32Inc := fun _ => rfl
  rw [(hcomm.iterate_right k).eq]
  simpa using Wrapping.add_iterate hm.active 1 k

/-- The allocations ever made after `k` charges. -/
theorem charge_iterate_allocations (hm : m.Fits) (b k : Nat) :
    ((·.charge b)^[k] m).totalAllocations = (m.totalAllocations + k) % 2 ^ 32 := by
  have hcomm : Function.Semiconj totalAllocations (·.charge b) uint32Inc := fun _ => rfl
  rw [(hcomm.iterate_right k).eq]
  simpa using Wrapping.add_iterate hm.allocations 1 k

/-- Charges leave the other counters alone. -/
theorem charge_iterate_fixed (m : MemoryStats) (b k : Nat) :
    ((·.charge b)^[k] m).totalBytes = m.totalBytes ∧
      ((·.charge b)^[k] m).totalFrees = m.totalFrees := by
  induction k with
  | zero => exact ⟨rfl, rfl⟩
  | succ k ih =>
      rw [Function.iterate_succ_apply']
      exact ih

/-- The peak is the highest use on the way. -/
theorem charge_iterate_peak (hm : m.Fits) (b k : Nat) :
    m.peakBytes ≤ ((·.charge b)^[k] m).peakBytes ∧
      (((·.charge b)^[k] m).peakBytes = m.peakBytes ↔
        ∀ j, 0 < j → j ≤ k → (m.usedBytes + j * b) % 2 ^ 64 ≤ m.peakBytes) := by
  induction k with
  | zero => exact ⟨Nat.le_refl _, by simp; omega⟩
  | succ k ih =>
      obtain ⟨hle, hiff⟩ := ih
      have hused := charge_iterate_used hm b (k + 1)
      rw [Function.iterate_succ_apply'] at hused ⊢
      have hpeak : ∀ m' : MemoryStats, (m'.charge b).peakBytes =
          max m'.peakBytes (m'.charge b).usedBytes := by
        intro m'
        unfold MemoryStats.charge
        dsimp only
        split <;> omega
      rw [hpeak, hused]
      refine ⟨hle.trans (Nat.le_max_left _ _), ?_⟩
      constructor
      · intro heq j hpos hj
        have hold := hiff.mp (by omega)
        rcases Nat.lt_or_ge j (k + 1) with hlt | hge
        · exact hold j hpos (by omega)
        · obtain rfl : j = k + 1 := by omega
          omega
      · intro hall
        have hold := hiff.mpr fun j hpos hj => hall j hpos (by omega)
        have hlast := hall (k + 1) (by omega) (Nat.le_refl _)
        omega

/-- The counters after `k` charges are what they were if and only if the charges
come round. -/
theorem charge_iterate_eq_iff (hm : m.Fits) (b k : Nat) :
    (·.charge b)^[k] m = m ↔ m.ComesRound b k := by
  obtain ⟨htotal, hfrees⟩ := charge_iterate_fixed m b k
  constructor
  · intro heq
    have hactive := charge_iterate_active hm b k
    have hused := charge_iterate_used hm b k
    have hpeak := (charge_iterate_peak hm b k).2
    rw [heq] at hactive hused hpeak
    exact ⟨(Wrapping.add_mod_eq_self hm.active).mp hactive.symm,
      (Wrapping.add_mod_eq_self hm.used).mp hused.symm, hpeak.mp rfl⟩
  · rintro ⟨hk, hb, hpeak⟩
    have hused : ((·.charge b)^[k] m).usedBytes = m.usedBytes := by
      rw [charge_iterate_used hm, Wrapping.add_mod_eq_self hm.used]
      exact hb
    have hactive : ((·.charge b)^[k] m).activeAllocations = m.activeAllocations := by
      rw [charge_iterate_active hm, Wrapping.add_mod_eq_self hm.active]
      exact hk
    have hcount : ((·.charge b)^[k] m).totalAllocations = m.totalAllocations := by
      rw [charge_iterate_allocations hm, Wrapping.add_mod_eq_self hm.allocations]
      exact hk
    have hfree := charge_iterate_free hm hb
    have hpeak := (charge_iterate_peak hm b k).2.mpr hpeak
    generalize (·.charge b)^[k] m = m' at *
    cases m
    cases m'
    simp_all

end MemoryStats

namespace ContiguousKVAllocator

variable {a a' : ContiguousKVAllocator} {n : Nat}

/-- Each device is charged as often as it is listed. -/
theorem chargeDevices_iterate (b : Nat) {devices : List Int}
    {stats : AList (fun _ : Int => MemoryStats)} (hknown : ∀ d ∈ devices, d ∈ stats) (d : Int) :
    (devices.foldl (fun s d => chargeDevice b d s) stats).lookup d =
      (stats.lookup d).map (·.charge b)^[devices.count d] := by
  induction devices generalizing stats with
  | nil => simp
  | cons first rest ih =>
      obtain ⟨m, hm⟩ := Option.isSome_iff_exists.mp
        (AList.lookup_isSome.mpr (hknown first List.mem_cons_self))
      have hrest : ∀ d ∈ rest, d ∈ chargeDevice b first stats := fun d hd =>
        (AList.mem_insert _).mpr (Or.inr (hknown d (List.mem_cons_of_mem first hd)))
      rw [List.foldl_cons, ih hrest, chargeDevice_lookup]
      by_cases hd : d = first
      · subst hd
        rw [if_pos rfl, hm, List.count_cons_self, Function.iterate_succ]
        rfl
      · rw [if_neg hd, List.count_cons_of_ne (Ne.symm hd)]

/-- What a tensor-parallel allocation does, by its memory check and by the
devices it serves. -/
theorem allocateTensorParallel_outcome (a : ContiguousKVAllocator) (n : Nat) (primary : Int)
    (rest : List Int) :
    let bytes := a.config.bytesForSeqLenPerDevice n
    let charged := served a.cuda.answers (primary :: rest)
    (∃ e, a.checkDevices bytes (primary :: rest) = .error e ∧
      a.allocateTensorParallel n (primary :: rest) = (.error e, a)) ∨
    a.checkDevices bytes (primary :: rest) = .ok () ∧
      ∃ c, (charged ≠ primary :: rest ∧
          ∃ e, a.allocateTensorParallel n (primary :: rest) = (.error e,
            { a with
              deviceStats := charged.foldl (fun s d => chargeDevice bytes d s) a.deviceStats
              cuda := c
              nextAllocationId := a.nextAllocationId + 1 })) ∨
        (charged = primary :: rest ∧
          ∃ caches, a.allocateTensorParallel n (primary :: rest) =
              (.ok (parallelHandle a n primary caches),
                { a with
                  deviceStats := charged.foldl (fun s d => chargeDevice bytes d s) a.deviceStats
                  cuda := c
                  nextAllocationId := a.nextAllocationId + 1
                  allocations := a.allocations.insert a.nextAllocationId
                    (sizeMul bytes (rest.length + 1)) }) ∧
            caches.map (·.deviceId) = primary :: rest ∧
            ∀ cache ∈ caches, cache.bytesAllocated = bytes) := by
  dsimp only
  unfold allocateTensorParallel
  dsimp only
  cases hcheck : a.checkDevices (a.config.bytesForSeqLenPerDevice n) (primary :: rest) with
  | error e => exact Or.inl ⟨e, rfl, rfl⟩
  | ok _ =>
      right
      obtain ⟨hbooks, hok⟩ := allocateEach_served (a.config.bytesForSeqLenPerDevice n)
        (chargeDevice (a.config.bytesForSeqLenPerDevice n)) (": " ++ ·) (primary :: rest) []
        a.deviceStats a.cuda
      dsimp only
      rcases heach : allocateEach (a.config.bytesForSeqLenPerDevice n)
        (chargeDevice (a.config.bytesForSeqLenPerDevice n)) (": " ++ ·) (primary :: rest) []
        a.deviceStats a.cuda with ⟨e | caches, stats, c⟩ <;> rw [heach] at hbooks hok <;>
        dsimp only at hbooks hok ⊢ <;> subst hbooks
      · refine ⟨rfl, c, Or.inl ⟨fun hall => ?_, e, rfl⟩⟩
        cases hok.mpr hall
      · have hdevices : caches.map (·.deviceId) = primary :: rest := by
          simpa using allocateEach_devices heach
        exact ⟨rfl, c, Or.inr ⟨hok.mp rfl, caches, rfl, hdevices,
          (allocateEach_books heach (by simp)).2⟩⟩

/-! ## Runs of the allocator -/

/-- A call, with resets.  Any handle may be freed. -/
inductive Operation where
  | call (call : Call)
  | reset

/-- What an operation leaves of the allocator. -/
def perform (a : ContiguousKVAllocator) : Operation → ContiguousKVAllocator
  | .call (.allocate answers n) => ((a.withAnswers answers).allocate n).2
  | .call (.allocateTensorParallel answers n devices) =>
      ((a.withAnswers answers).allocateTensorParallel n devices).2
  | .call (.free answers h) => ((a.withAnswers answers).free h).2
  | .reset => a.reset

/-- Every device of the books has counters as `P` says. -/
def EachDevice (P : MemoryStats → Prop) (stats : AList (fun _ : Int => MemoryStats)) : Prop :=
  ∀ d m, stats.lookup d = some m → P m

/-- What the four updates of the counters keep. -/
structure Maintained (P : MemoryStats → Prop) : Prop where
  empty : P {}
  charge : ∀ m b, P m → P (m.charge b)
  release : ∀ m b, P m → P (m.releaseBytes b)
  countFree : ∀ m, P m → P m.countFree
  reset : ∀ m, P m → P (resetStats m)

section Maintained

variable {P : MemoryStats → Prop} {stats : AList (fun _ : Int => MemoryStats)}

/-- New counters of a device that are as `P` says. -/
theorem EachDevice.insert (h : EachDevice P stats) (d : Int) {m : MemoryStats} (hm : P m) :
    EachDevice P (stats.insert d m) := by
  intro d' m' hm'
  by_cases hd : d' = d
  · subst hd
    rw [AList.lookup_insert] at hm'
    cases hm'
    exact hm
  · rw [AList.lookup_insert_ne hd] at hm'
    exact h d' m' hm'

/-- A charge keeps what is maintained. -/
theorem EachDevice.charge (hP : Maintained P) (h : EachDevice P stats) (b : Nat) (d : Int) :
    EachDevice P (chargeDevice b d stats) := by
  apply h.insert
  apply hP.charge
  cases hstats : stats.lookup d with
  | none => exact hP.empty
  | some m => exact h d m hstats

/-- So do several. -/
theorem EachDevice.charges (hP : Maintained P) (h : EachDevice P stats) (b : Nat)
    (devices : List Int) :
    EachDevice P (devices.foldl (fun s d => chargeDevice b d s) stats) := by
  induction devices generalizing stats with
  | nil => exact h
  | cons first rest ih => exact ih (h.charge hP b first)

/-- So do releases. -/
theorem EachDevice.releases (hP : Maintained P) (h : EachDevice P stats)
    (caches : List PerDeviceKVCache) : EachDevice P (caches.foldl releaseDevice stats) := by
  induction caches generalizing stats with
  | nil => exact h
  | cons cache rest ih =>
      refine ih fun d m hm => ?_
      rw [releaseDevice_lookup] at hm
      by_cases hd : d = cache.deviceId
      · rw [if_pos hd] at hm
        obtain ⟨m₀, hm₀, rfl⟩ := Option.map_eq_some_iff.mp hm
        exact hP.countFree _ (hP.release _ _ (h d m₀ hm₀))
      · rw [if_neg hd] at hm
        exact h d m hm

/-- So does an allocation. -/
theorem EachDevice.allocateOnDevice (hP : Maintained P) (h : EachDevice P a.deviceStats)
    (n : Nat) (deviceId : Int) :
    EachDevice P (a.allocateOnDevice n deviceId).2.deviceStats := by
  unfold ContiguousKVAllocator.allocateOnDevice
  dsimp only
  split
  · exact h
  · split
    · exact h
    · split
      · exact h
      · split
        · exact h
        · exact h.charge hP _ deviceId

/-- So does a tensor-parallel one. -/
theorem EachDevice.allocateTensorParallel (hP : Maintained P) (h : EachDevice P a.deviceStats)
    (n : Nat) (devices : List Int) :
    EachDevice P (a.allocateTensorParallel n devices).2.deviceStats := by
  cases devices with
  | nil => exact h.allocateOnDevice hP n _
  | cons primary rest =>
      obtain ⟨e, -, heq⟩ | ⟨-, c, ⟨-, e, heq⟩ | ⟨-, caches, heq, -⟩⟩ :=
        a.allocateTensorParallel_outcome n primary rest <;> rw [heq]
      · exact h
      · exact h.charges hP _ _
      · exact h.charges hP _ _

/-- So does `free`. -/
theorem EachDevice.free (hP : Maintained P) (h : EachDevice P a.deviceStats)
    (handle : KVCacheHandle) : EachDevice P (a.free handle).2.deviceStats := by
  unfold ContiguousKVAllocator.free
  by_cases hvalid : handle.isValid
  · rw [if_pos hvalid]
    cases handle.isTensorParallel with
    | true => exact h.releases hP handle.deviceCaches
    | false =>
        cases hstats : a.deviceStats.lookup handle.deviceId with
        | none => simpa [hstats] using h
        | some m =>
            have hm := h _ m hstats
            cases hbytes : a.allocations.lookup handle.allocationId with
            | none => simpa [hstats, hbytes] using h.insert handle.deviceId (hP.countFree m hm)
            | some bytes =>
                simpa [hstats, hbytes] using
                  h.insert handle.deviceId (hP.countFree _ (hP.release m bytes hm))
  · rw [if_neg hvalid]
    exact h

/-- A reset, on the counters of a device. -/
theorem reset_lookup (a : ContiguousKVAllocator) (d : Int) :
    a.reset.deviceStats.lookup d = (a.deviceStats.lookup d).map resetStats :=
  List.dlookup_map₂ d

/-- A reset keeps what is maintained. -/
theorem EachDevice.reset (hP : Maintained P) (h : EachDevice P a.deviceStats) :
    EachDevice P a.reset.deviceStats := by
  intro d m hm
  rw [reset_lookup] at hm
  obtain ⟨m₀, hm₀, rfl⟩ := Option.map_eq_some_iff.mp hm
  exact hP.reset _ (h d m₀ hm₀)

/-- **One operation.** -/
theorem EachDevice.perform (hP : Maintained P) (h : EachDevice P a.deviceStats)
    (op : Operation) : EachDevice P (a.perform op).deviceStats := by
  have hloaded : ∀ answers, EachDevice P (a.withAnswers answers).deviceStats := fun _ => h
  cases op with
  | call call =>
      cases call with
      | allocate answers n => exact (hloaded answers).allocateOnDevice hP n _
      | allocateTensorParallel answers n devices =>
          exact (hloaded answers).allocateTensorParallel hP n devices
      | free answers handle => exact (hloaded answers).free hP handle
  | reset => exact h.reset hP

/-- **Every run.** -/
theorem EachDevice.performs (hP : Maintained P) (h : EachDevice P a.deviceStats)
    (ops : List Operation) : EachDevice P (ops.foldl ContiguousKVAllocator.perform a).deviceStats := by
  induction ops generalizing a with
  | nil => exact h
  | cons op rest ih => exact ih (h.perform hP op)

end Maintained

/-- That the counters fit their types is maintained. -/
theorem fits_maintained : Maintained MemoryStats.Fits where
  empty := ⟨by decide, by decide, by decide, by decide, by decide⟩
  charge m b h := ⟨h.total, Wrapping.add_lt 64 _ _, Wrapping.sub_lt 64 _ _,
    Wrapping.add_lt 32 _ _, Wrapping.add_lt 32 _ _⟩
  release m b h := ⟨h.total, Wrapping.sub_lt 64 _ _, Wrapping.add_lt 64 _ _, h.active,
    h.allocations⟩
  countFree m h := by
    obtain ⟨htotal, hused, hfree, -, hallocations⟩ := h
    have hdec : uint32Dec m.activeAllocations < 2 ^ 32 := Wrapping.sub_lt 32 _ 1
    unfold MemoryStats.countFree
    exact ⟨htotal, hused, hfree, hdec, hallocations⟩
  reset m h := ⟨h.total, Nat.two_pow_pos 64, h.total, Nat.two_pow_pos 32, h.allocations⟩

/-! ## Failed allocations -/

/-- The counters of every device and the allocation map are the same. -/
def SameBooks (a a' : ContiguousKVAllocator) : Prop :=
  (∀ d, a'.deviceStats.lookup d = a.deviceStats.lookup d) ∧ a'.allocations = a.allocations

/-- An outcome that is an error leaves the books as they are in `a`. -/
def UnchangedOnError (a : ContiguousKVAllocator)
    (outcome : Result KVCacheHandle × ContiguousKVAllocator) : Prop :=
  ∀ e a', outcome = (.error e, a') → SameBooks a a'

/-- For an error the books have to be the same. -/
theorem unchangedOnError_error {e : Error} :
    a.UnchangedOnError (.error e, a') ↔ SameBooks a a' := by
  constructor
  · exact fun h => h e a' rfl
  · intro h e' a'' heq
    cases heq
    exact h

/-- Of a success nothing is asked. -/
theorem unchangedOnError_ok {h : KVCacheHandle} : a.UnchangedOnError (.ok h, a') := by
  intro e a'' heq
  cases heq

/-- The devices that a tensor-parallel allocation charges are none, or all of
them, or their charges come round.  A device that a refused call would have
served is not charged. -/
def NothingLeft (a : ContiguousKVAllocator) (answers : List (Option String)) (n : Nat)
    (devices : List Int) : Prop :=
  (∃ e, a.checkDevices (a.config.bytesForSeqLenPerDevice n) devices = .error e) ∨
    served answers devices = devices ∨
    ∀ d m, a.deviceStats.lookup d = some m →
      m.ComesRound (a.config.bytesForSeqLenPerDevice n) ((served answers devices).count d)

/-- In particular if no device is served. -/
theorem NothingLeft.of_none {answers : List (Option String)} {devices : List Int}
    (h : served answers devices = []) : a.NothingLeft answers n devices := by
  refine Or.inr (Or.inr fun d m _ => ?_)
  rw [h]
  exact MemoryStats.comesRound_zero

/-- A failed single-device allocation leaves the books alone. -/
theorem allocate_unchanged (a : ContiguousKVAllocator) (n : Nat) :
    a.UnchangedOnError (a.allocate n) := by
  intro e a' heq
  obtain ⟨e', -, hstats, hallocs⟩ | ⟨h, hok, -⟩ := a.allocateOnDevice_books n a.config.deviceId
  · change (a.allocate n).2.deviceStats = _ at hstats
    change (a.allocate n).2.allocations = _ at hallocs
    rw [heq] at hstats hallocs
    exact ⟨fun d => by rw [hstats], hallocs⟩
  · change (a.allocate n).1 = _ at hok
    rw [heq] at hok
    cases hok

/-- A tensor-parallel allocation that fails leaves the books as they were if and
only if nothing is left of its charges. -/
theorem allocateTensorParallel_unchanged_iff (hfits : EachDevice MemoryStats.Fits a.deviceStats)
    (n : Nat) (devices : List Int) :
    a.UnchangedOnError (a.allocateTensorParallel n devices) ↔
      a.NothingLeft a.cuda.answers n devices := by
  cases devices with
  | nil =>
      have hnone : a.NothingLeft a.cuda.answers n [] := NothingLeft.of_none rfl
      exact ⟨fun _ => hnone, fun _ => a.allocate_unchanged n⟩
  | cons primary rest =>
      unfold NothingLeft
      obtain ⟨e, hcheck, heq⟩ | ⟨hcheck, c, ⟨hserved, e, heq⟩ | ⟨hserved, caches, heq, -⟩⟩ :=
        a.allocateTensorParallel_outcome n primary rest
      · -- refused by the memory check
        rw [heq, unchangedOnError_error]
        exact ⟨fun _ => Or.inl ⟨e, hcheck⟩, fun _ => ⟨fun d => rfl, rfl⟩⟩
      · -- failed half way
        have hknown : ∀ d ∈ served a.cuda.answers (primary :: rest), d ∈ a.deviceStats := by
          intro d hd
          obtain ⟨m, hm, -⟩ := checkDevices_ok hcheck d (served_subset _ _ d hd)
          exact AList.lookup_isSome.mp (by rw [hm]; rfl)
        rw [heq, unchangedOnError_error]
        constructor
        · intro h
          refine Or.inr (Or.inr fun d m hm => ?_)
          have hd := h.1 d
          dsimp only at hd
          rw [chargeDevices_iterate _ hknown, hm] at hd
          exact (MemoryStats.charge_iterate_eq_iff (hfits d m hm) _ _).mp (Option.some.inj hd)
        · rintro (⟨e', hcheck'⟩ | hall | hround)
          · rw [hcheck] at hcheck'
            cases hcheck'
          · exact absurd hall hserved
          · refine ⟨fun d => ?_, rfl⟩
            dsimp only
            rw [chargeDevices_iterate _ hknown]
            cases hm : a.deviceStats.lookup d with
            | none => rfl
            | some m =>
                have hsame := (MemoryStats.charge_iterate_eq_iff (hfits d m hm) _ _).mpr
                  (hround d m hm)
                rw [Option.map_some, hsame]
      · -- every device served
        rw [heq]
        exact ⟨fun _ => Or.inr (Or.inl hserved), fun _ => unchangedOnError_ok⟩

/-- **Failed allocations.**  In every reachable state, a single-device allocation
that fails changes nothing; a tensor-parallel one changes nothing if and only if
nothing is left of its charges. -/
theorem failed_allocation_unchanged {config : KVAllocatorConfig}
    {deviceMemory : Int → Except String Nat} {a₀ : ContiguousKVAllocator}
    (ha : initializeAllocator config deviceMemory = .ok a₀)
    (hsize : config.maxTotalMemory < 2 ^ 64)
    (hmemory : ∀ d m, deviceMemory d = .ok m → m < 2 ^ 64) (ops : List Operation) :
    let a := ops.foldl perform a₀
    ∀ answers n,
      a.UnchangedOnError ((a.withAnswers answers).allocate n) ∧
      ∀ devices,
        a.UnchangedOnError ((a.withAnswers answers).allocateTensorParallel n devices) ↔
          a.NothingLeft answers n devices := by
  intro a answers n
  have hopened : EachDevice MemoryStats.Fits a₀.deviceStats := fun d m hm =>
    (initializeAllocator_accurate ha hsize hmemory d m hm).fits
  have hfits : EachDevice MemoryStats.Fits a.deviceStats := hopened.performs fits_maintained ops
  refine ⟨(a.withAnswers answers).allocate_unchanged n, fun devices => ?_⟩
  have hleft : NothingLeft (a.withAnswers answers) answers n devices ↔
      a.NothingLeft answers n devices := by
    unfold NothingLeft
    rw [checkDevices_withAnswers]
    rfl
  exact (allocateTensorParallel_unchanged_iff (a := a.withAnswers answers) hfits n devices).trans
    hleft

/-- The same after an allocation and a reset on a server with two GPUs. -/
theorem failed_allocation_unchanged_sample :
    let a := [Operation.call (.allocate [] 100), .reset].foldl perform twoGpus
    ∀ answers n,
      a.UnchangedOnError ((a.withAnswers answers).allocate n) ∧
      ∀ devices,
        a.UnchangedOnError ((a.withAnswers answers).allocateTensorParallel n devices) ↔
          a.NothingLeft answers n devices :=
  failed_allocation_unchanged twoGpus_ok (by decide) (fun d m hm => by cases hm; decide) _

/-- The second of two GPUs has no room for its K block: the call fails, and the
first GPU stays charged. -/
theorem failed_allocation_charges :
    let a := twoGpus
    let outcome := (a.withAnswers [none, none, none, none, some "out of memory"]).allocateTensorParallel
      100 [0, 1]
    outcome.1 = .error (.internal "Failed to allocate K cache on device 1: out of memory") ∧
      ¬ a.UnchangedOnError outcome := by
  intro a outcome
  have hfailed : outcome.1 =
      .error (.internal "Failed to allocate K cache on device 1: out of memory") := by
    decide +kernel
  refine ⟨hfailed, fun h => ?_⟩
  have hpair := Prod.eta outcome
  rw [hfailed] at hpair
  have hsame := (h _ _ hpair.symm).1 0
  revert hsame
  decide +kernel

end ContiguousKVAllocator

end Qwen
