import Mathlib.Algebra.Order.Group.Nat
import WinInference.KVCache.ContiguousLaws

/-!
# The books of the contiguous allocator

A client allocates and frees in any order, and frees only what it holds.
Whatever CUDA call fails, the outstanding blocks are those of the live handles.
The byte and allocation counters of each device are exact as well, as long as
no tensor-parallel allocation fails half way: its rollback leaves the counters
of the devices that were already served.

`Booked` is the invariant of a client with its handles:
`Booked.allocateOnDevice`, `Booked.allocateTensorParallel` and `Booked.remove`
are its steps and `Booked.run` the run.  `Accurate` is the part of it for one
device, and `initializeAllocator_accurate` its start.
-/

namespace Qwen

section Each

variable {S : Type} {bytes : Nat} {charge : Int → S → S} {detail : String → String}

/-- A device loop that succeeds books every device once, and each cache with
the bytes of one device. -/
theorem allocateEach_books {devices : List Int} {caches caches' : List PerDeviceKVCache}
    {books books' : S} {c c' : Cuda}
    (heq : allocateEach bytes charge detail devices caches books c =
      (.ok caches', books', c')) (hold : ∀ cache ∈ caches, cache.bytesAllocated = bytes) :
    books' = devices.foldl (fun s d => charge d s) books ∧
      ∀ cache ∈ caches', cache.bytesAllocated = bytes := by
  induction devices generalizing caches books c with
  | nil =>
      cases heq
      exact ⟨rfl, hold⟩
  | cons deviceId rest ih =>
      obtain ⟨_, _, k, v, c₂, -, hrest⟩ := allocateEach_cons_ok heq
      refine ih hrest fun cache hcache => ?_
      rcases List.mem_append.mp hcache with hcache | hcache
      · exact hold cache hcache
      · rw [List.mem_singleton.mp hcache]

end Each

/-! ## The counters of one device -/

/-- The counters of a device on which `active` allocations hold `used` bytes,
after at most `calls` calls. -/
structure MemoryStats.Accurate (m : MemoryStats) (used active calls : Nat) : Prop where
  used : m.usedBytes = used
  balance : m.usedBytes + m.freeBytes = m.totalBytes
  total : m.totalBytes < 2 ^ 64
  used_le_peak : m.usedBytes ≤ m.peakBytes
  peak_le_total : m.peakBytes ≤ m.totalBytes
  active : m.activeAllocations = active
  counts : m.totalAllocations = m.activeAllocations + m.totalFrees
  bounded : m.totalAllocations ≤ calls

namespace MemoryStats.Accurate

variable {m : MemoryStats} {used active calls bytes : Nat}

theorem mono (h : m.Accurate used active calls) {calls' : Nat} (hle : calls ≤ calls') :
    m.Accurate used active calls' :=
  { h with bounded := h.bounded.trans hle }

/-- An allocation there is room for. -/
theorem charge (h : m.Accurate used active calls) (hroom : bytes ≤ m.freeBytes)
    (hcalls : calls + 1 < 2 ^ 32) :
    (m.charge bytes).Accurate (used + bytes) (active + 1) (calls + 1) := by
  obtain ⟨hused, hbalance, htotal, hpeak, hpeak', hactive, hcounts, hbounded⟩ := h
  have hadd : sizeAdd m.usedBytes bytes = m.usedBytes + bytes := Wrapping.add_of_lt (by omega)
  have hsub : sizeSub m.freeBytes bytes = m.freeBytes - bytes :=
    Wrapping.sub_of_le (by omega) hroom
  have hinc : uint32Inc m.activeAllocations = m.activeAllocations + 1 :=
    Wrapping.add_of_lt (by omega)
  have htotals : uint32Inc m.totalAllocations = m.totalAllocations + 1 :=
    Wrapping.add_of_lt (by omega)
  unfold MemoryStats.charge
  rw [hadd, hsub, hinc, htotals]
  refine ⟨?_, ?_, htotal, ?_, ?_, ?_, ?_, ?_⟩ <;> dsimp only
  · omega
  · omega
  · split <;> omega
  · split <;> omega
  · omega
  · omega
  · omega

/-- A release of an allocation that is there. -/
theorem release (h : m.Accurate (used + bytes) (active + 1) calls) (hcalls : calls < 2 ^ 32) :
    (m.releaseBytes bytes).countFree.Accurate used active calls := by
  obtain ⟨hused, hbalance, htotal, hpeak, hpeak', hactive, hcounts, hbounded⟩ := h
  have hsub : sizeSub m.usedBytes bytes = m.usedBytes - bytes :=
    Wrapping.sub_of_le (by omega) (by omega)
  have hadd : sizeAdd m.freeBytes bytes = m.freeBytes + bytes := Wrapping.add_of_lt (by omega)
  have hdec : uint32Dec m.activeAllocations = m.activeAllocations - 1 :=
    Wrapping.sub_of_le (by omega) (by omega)
  have hfrees : uint32Inc m.totalFrees = m.totalFrees + 1 := Wrapping.add_of_lt (by omega)
  unfold MemoryStats.releaseBytes MemoryStats.countFree
  dsimp only
  rw [hsub, hadd, hdec, hfrees]
  refine ⟨?_, ?_, htotal, ?_, hpeak', ?_, ?_, hbounded⟩ <;> dsimp only <;> omega

end MemoryStats.Accurate

namespace ContiguousKVAllocator

variable {a a' : ContiguousKVAllocator} {n : Nat}

/-! ## What a handle is charged -/

/-- The bytes a handle takes on each of its devices. -/
def handleBytes (config : KVAllocatorConfig) (h : KVCacheHandle) : Nat :=
  if h.isTensorParallel then config.bytesForSeqLenPerDevice h.maxSeqLen
  else config.bytesForSeqLen h.maxSeqLen

/-- The bytes a handle takes on device `d`. -/
def bytesOn (config : KVAllocatorConfig) (d : Int) (h : KVCacheHandle) : Nat :=
  if d ∈ h.devices then handleBytes config h else 0

/-- Where `free` finds the bytes of a handle: in the handle for a
tensor-parallel one, in `allocations_` for the others. -/
def Recorded (a : ContiguousKVAllocator) (h : KVCacheHandle) (bytes : Nat) : Prop :=
  if h.isTensorParallel then
    h.devices.Nodup ∧ ∀ cache ∈ h.deviceCaches, cache.bytesAllocated = bytes
  else a.allocations.lookup h.allocationId = some bytes

/-- What an allocation that succeeds does to the books. -/
structure Charged (a a' : ContiguousKVAllocator) (h : KVCacheHandle) : Prop where
  room : ∀ d ∈ h.devices, ∃ m, a.deviceStats.lookup d = some m ∧
    handleBytes a.config h ≤ m.freeBytes
  stats : ∀ d, a'.deviceStats.lookup d =
    if d ∈ h.devices then (a.deviceStats.lookup d).map (·.charge (handleBytes a.config h))
    else a.deviceStats.lookup d
  recorded : Recorded a' h (handleBytes a.config h)
  others : ∀ id, id ≠ h.allocationId → a'.allocations.lookup id = a.allocations.lookup id

theorem chargeDevice_lookup (bytes : Nat) (deviceId d : Int)
    (stats : AList (fun _ : Int => MemoryStats)) :
    (chargeDevice bytes deviceId stats).lookup d =
      if d = deviceId then some (((stats.lookup d).getD {}).charge bytes)
      else stats.lookup d := by
  unfold chargeDevice
  by_cases hd : d = deviceId
  · subst hd
    rw [if_pos rfl, AList.lookup_insert]
  · rw [if_neg hd, AList.lookup_insert_ne hd]

/-- Distinct devices are charged once each. -/
theorem chargeDevices_lookup (bytes : Nat) {devices : List Int} (hnodup : devices.Nodup) (d : Int)
    (stats : AList (fun _ : Int => MemoryStats)) :
    (devices.foldl (fun s d => chargeDevice bytes d s) stats).lookup d =
      if d ∈ devices then some (((stats.lookup d).getD {}).charge bytes)
      else stats.lookup d := by
  induction devices generalizing stats with
  | nil => rfl
  | cons first rest ih =>
      obtain ⟨hfirst, hrest⟩ := List.nodup_cons.mp hnodup
      rw [List.foldl_cons, ih hrest, chargeDevice_lookup]
      by_cases hd : d = first
      · subst hd
        simp [hfirst]
      · simp [hd]

theorem checkDevices_ok {bytes : Nat} {devices : List Int}
    (h : a.checkDevices bytes devices = .ok ()) :
    ∀ d ∈ devices, ∃ m, a.deviceStats.lookup d = some m ∧ bytes ≤ m.freeBytes := by
  induction devices with
  | nil => simp
  | cons first rest ih =>
      unfold checkDevices at h
      cases hstats : a.deviceStats.lookup first with
      | none =>
          rw [hstats] at h
          cases h
      | some m =>
          rw [hstats] at h
          dsimp only at h
          by_cases hroom : bytes > m.freeBytes
          · rw [if_pos hroom] at h
            cases h
          · rw [if_neg hroom] at h
            intro d hd
            rcases List.mem_cons.mp hd with rfl | hd
            · exact ⟨m, hstats, Nat.not_lt.mp hroom⟩
            · exact ih h d hd

theorem checkDevices_withAnswers (answers : List (Option String)) (bytes : Nat)
    (devices : List Int) :
    (a.withAnswers answers).checkDevices bytes devices = a.checkDevices bytes devices := by
  induction devices with
  | nil => rfl
  | cons first rest ih =>
      unfold checkDevices
      rw [ih]
      rfl

/-- The converse of `checkDevices_ok`. -/
theorem checkDevices_of_room {bytes : Nat} {devices : List Int}
    (h : ∀ d ∈ devices, ∃ m, a.deviceStats.lookup d = some m ∧ bytes ≤ m.freeBytes) :
    a.checkDevices bytes devices = .ok () := by
  induction devices with
  | nil => rfl
  | cons first rest ih =>
      obtain ⟨m, hstats, hroom⟩ := h first List.mem_cons_self
      unfold checkDevices
      rw [hstats]
      dsimp only
      rw [if_neg (Nat.not_lt.mpr hroom)]
      exact ih fun d hd => h d (List.mem_cons_of_mem first hd)

/-- The books after a single-device allocation. -/
theorem allocateOnDevice_books (a : ContiguousKVAllocator) (n : Nat) (deviceId : Int) :
    (∃ e, (a.allocateOnDevice n deviceId).1 = .error e ∧
      (a.allocateOnDevice n deviceId).2.deviceStats = a.deviceStats ∧
      (a.allocateOnDevice n deviceId).2.allocations = a.allocations) ∨
    ∃ h, (a.allocateOnDevice n deviceId).1 = .ok h ∧ h.devices = [deviceId] ∧
      Charged a (a.allocateOnDevice n deviceId).2 h := by
  unfold allocateOnDevice
  dsimp only
  cases hstats : a.deviceStats.lookup deviceId with
  | none => exact Or.inl ⟨_, rfl, rfl, rfl⟩
  | some m =>
      dsimp only
      by_cases hroom : a.config.bytesForSeqLen n > m.freeBytes
      · rw [if_pos hroom]
        exact Or.inl ⟨_, rfl, rfl, rfl⟩
      rw [if_neg hroom]
      rcases a.cuda.cudaSetDevice deviceId with ⟨_ | text, c₁⟩ <;> dsimp only
      · split
        next e c₂ hpair => exact Or.inl ⟨_, rfl, rfl, rfl⟩
        next k v c₂ hpair =>
          refine Or.inr ⟨_, rfl, rfl, ?_, fun d => ?_, ?_, ?_⟩
          · intro d hd
            obtain rfl := List.mem_singleton.mp hd
            exact ⟨m, hstats, Nat.not_lt.mp hroom⟩
          · dsimp only
            rw [chargeDevice_lookup]
            by_cases hd : d = deviceId
            · subst hd
              simp [KVCacheHandle.devices, handleBytes, hstats]
            · simp [KVCacheHandle.devices, hd]
          · simp [Recorded, handleBytes]
          · exact fun id hid => AList.lookup_insert_ne hid
      · exact Or.inl ⟨_, rfl, rfl, rfl⟩

/-- The books after a tensor-parallel allocation over distinct devices. -/
theorem allocateTensorParallel_books {primary : Int} {rest : List Int} {h : KVCacheHandle}
    (hnodup : (primary :: rest).Nodup)
    (heq : a.allocateTensorParallel n (primary :: rest) = (.ok h, a')) :
    h.devices = primary :: rest ∧ Charged a a' h := by
  unfold allocateTensorParallel at heq
  dsimp only at heq
  cases hcheck : a.checkDevices (a.config.bytesForSeqLenPerDevice n) (primary :: rest) with
  | error e =>
      rw [hcheck] at heq
      cases heq
  | ok _ =>
      rw [hcheck] at heq
      dsimp only at heq
      split at heq
      next e stats c heach => cases heq
      next caches stats c heach =>
        cases heq
        have hdevices : caches.map (·.deviceId) = primary :: rest := by
          simpa using allocateEach_devices heach
        obtain ⟨hbooks, hbytes⟩ := allocateEach_books heach (by simp)
        have hroom := checkDevices_ok hcheck
        refine ⟨by simp [KVCacheHandle.devices, hdevices], ?_, fun d => ?_, ?_,
          fun id hid => AList.lookup_insert_ne hid⟩
        · simpa [KVCacheHandle.devices, hdevices, handleBytes] using hroom
        · dsimp only
          rw [hbooks, chargeDevices_lookup _ hnodup]
          by_cases hd : d ∈ primary :: rest
          · obtain ⟨m, hm, -⟩ := hroom d hd
            simp only [KVCacheHandle.devices, hdevices, handleBytes, if_true]
            rw [if_pos hd, if_pos hd, hm]
            rfl
          · simp only [KVCacheHandle.devices, hdevices, if_true]
            rw [if_neg hd, if_neg hd]
        · simp only [Recorded, if_true, KVCacheHandle.devices, hdevices, handleBytes]
          exact ⟨hnodup, hbytes⟩

/-- A tensor-parallel allocation that meets no CUDA error is refused by its
memory check, with nothing changed, or succeeds. -/
theorem allocateTensorParallel_settled (n : Nat) (primary : Int) (rest : List Int)
    (hclean : (∃ e, a.checkDevices (a.config.bytesForSeqLenPerDevice n) (primary :: rest) =
      .error e) ∨ a.cuda.Willing) :
    (∃ e, a.checkDevices (a.config.bytesForSeqLenPerDevice n) (primary :: rest) = .error e ∧
      a.allocateTensorParallel n (primary :: rest) = (.error e, a)) ∨
    a.checkDevices (a.config.bytesForSeqLenPerDevice n) (primary :: rest) = .ok () ∧
      ∃ h a', a.allocateTensorParallel n (primary :: rest) = (.ok h, a') := by
  unfold allocateTensorParallel
  dsimp only
  cases hcheck : a.checkDevices (a.config.bytesForSeqLenPerDevice n) (primary :: rest) with
  | error e => exact Or.inl ⟨e, rfl, rfl⟩
  | ok _ =>
      obtain ⟨e, he⟩ | hwilling := hclean
      · rw [hcheck] at he
        cases he
      · obtain ⟨caches, stats, c, heach⟩ := hwilling.each
          (a.config.bytesForSeqLenPerDevice n)
          (chargeDevice (a.config.bytesForSeqLenPerDevice n)) (": " ++ ·) (primary :: rest) []
          a.deviceStats
        refine Or.inr ⟨rfl, ?_⟩
        dsimp only
        rw [heach]
        exact ⟨_, _, rfl⟩

/-! ## What `free` takes off the books -/

theorem releaseDevice_lookup (cache : PerDeviceKVCache) (d : Int)
    (stats : AList (fun _ : Int => MemoryStats)) :
    (releaseDevice stats cache).lookup d =
      if d = cache.deviceId then
        (stats.lookup d).map (fun m => (m.releaseBytes cache.bytesAllocated).countFree)
      else stats.lookup d := by
  unfold releaseDevice
  cases hstats : stats.lookup cache.deviceId with
  | none =>
      by_cases hd : d = cache.deviceId
      · subst hd
        simp [hstats]
      · simp [hd]
  | some m =>
      by_cases hd : d = cache.deviceId
      · subst hd
        simp [hstats]
      · simp [hd]

/-- Distinct devices are released once each. -/
theorem releaseDevices_lookup {caches : List PerDeviceKVCache} {bytes : Nat}
    (hnodup : (caches.map (·.deviceId)).Nodup)
    (hbytes : ∀ cache ∈ caches, cache.bytesAllocated = bytes) (d : Int)
    (stats : AList (fun _ : Int => MemoryStats)) :
    (caches.foldl releaseDevice stats).lookup d =
      if d ∈ caches.map (·.deviceId) then
        (stats.lookup d).map (fun m => (m.releaseBytes bytes).countFree)
      else stats.lookup d := by
  induction caches generalizing stats with
  | nil => rfl
  | cons first rest ih =>
      obtain ⟨hfirst, hrest⟩ := List.nodup_cons.mp hnodup
      rw [List.foldl_cons, ih hrest fun cache hcache => hbytes cache (List.mem_cons_of_mem _ hcache),
        releaseDevice_lookup, hbytes first List.mem_cons_self]
      by_cases hd : d = first.deviceId
      · subst hd
        simp [hfirst]
      · simp [hd]

/-- The books after a handle was freed. -/
theorem free_books {h : KVCacheHandle} {bytes : Nat} (hvalid : h.isValid)
    (hrecorded : Recorded a h bytes) (d : Int) :
    (a.free h).2.deviceStats.lookup d =
      if d ∈ h.devices then
        (a.deviceStats.lookup d).map (fun m => (m.releaseBytes bytes).countFree)
      else a.deviceStats.lookup d := by
  unfold free
  rw [if_pos hvalid]
  cases htp : h.isTensorParallel with
  | true =>
      simp only [Recorded, htp, if_true, KVCacheHandle.devices] at hrecorded ⊢
      exact releaseDevices_lookup hrecorded.1 hrecorded.2 d a.deviceStats
  | false =>
      simp only [Recorded, htp, Bool.false_eq_true, if_false, KVCacheHandle.devices,
        List.mem_singleton] at hrecorded ⊢
      by_cases hd : d = h.deviceId
      · subst hd
        cases hstats : a.deviceStats.lookup h.deviceId with
        | none => simp [hstats]
        | some m => simp [hrecorded]
      · cases hstats : a.deviceStats.lookup h.deviceId with
        | none => simp [hd]
        | some m => simp [hd]

/-! ## A client -/

/-- One call of a client. -/
inductive Call where
  | allocate (answers : List (Option String)) (maxSeqLen : Nat)
  | allocateTensorParallel (answers : List (Option String)) (maxSeqLen : Nat)
      (deviceIds : List Int)
  | free (answers : List (Option String)) (handle : KVCacheHandle)

/-- An allocator with the handles its client holds. -/
structure Client where
  allocator : ContiguousKVAllocator
  live : List KVCacheHandle := []

namespace Client

/-- The client keeps the handle of an allocation that succeeded. -/
def receive (c : Client) : Result KVCacheHandle × ContiguousKVAllocator → Client
  | (.ok h, a) => { allocator := a, live := h :: c.live }
  | (.error _, a) => { c with allocator := a }

/-- Only live handles are freed. -/
def step (c : Client) : Call → Client
  | .allocate answers n => c.receive ((c.allocator.withAnswers answers).allocate n)
  | .allocateTensorParallel answers n devices =>
      c.receive ((c.allocator.withAnswers answers).allocateTensorParallel n devices)
  | .free answers h =>
      if h ∈ c.live then
        { allocator := ((c.allocator.withAnswers answers).free h).2, live := c.live.erase h }
      else c

/-- The calls, one after the other. -/
def run (c : Client) (calls : List Call) : Client := calls.foldl step c

/-- What the client holds is what is allocated. -/
structure Kept (config : KVAllocatorConfig) (c : Client) : Prop where
  holds : Holds config c.allocator c.live
  valid : ∀ h ∈ c.live, h.isValid

end Client

/-- The K/V half of each block a call asks for. -/
def Call.half (config : KVAllocatorConfig) : Call → Option Nat
  | .allocate _ n | .allocateTensorParallel _ n [] => some (config.bytesForSeqLen n / 2)
  | .allocateTensorParallel _ n (_ :: _) => some (config.bytesForSeqLenPerDevice n / 2)
  | .free _ _ => none

/-- The blocks a call asks for are not empty. -/
def Call.Sized (config : KVAllocatorConfig) (call : Call) : Prop :=
  ∀ half, call.half config = some half → 0 < half

section Kept

variable {config : KVAllocatorConfig} {c : Client} {live : List KVCacheHandle}

/-- A single-device allocation leaves the live handles as they are, or adds one
that is valid. -/
theorem Holds.allocateOnDevice (hh : Holds config a live)
    (hpos : 0 < config.bytesForSeqLen n / 2) (deviceId : Int) :
    (∃ e a', a.allocateOnDevice n deviceId = (.error e, a') ∧ Holds config a' live) ∨
    ∃ h a', a.allocateOnDevice n deviceId = (.ok h, a') ∧ Holds config a' (h :: live) ∧
      h.isValid := by
  obtain ⟨e, c, hfail, hc⟩ | ⟨k, v, c, stats, hserve, hfilled, hc⟩ :=
    allocateOnDevice_cases a n deviceId
  · exact Or.inl ⟨e, _, hfail, hh.keep (Nat.le_refl _) (hc _ hh.owns)⟩
  · refine Or.inr ⟨_, _, hserve, hh.add rfl (hc _ hh.owns), ?_⟩
    rw [hh.config_eq] at hfilled
    exact deviceHandle_valid (hfilled.isSome hpos)

/-- So does a tensor-parallel one. -/
theorem Holds.allocateTensorParallel (hh : Holds config a live)
    (hpos : 0 < config.bytesForSeqLenPerDevice n / 2) (primary : Int) (rest : List Int) :
    (∃ e a', a.allocateTensorParallel n (primary :: rest) = (.error e, a') ∧
      Holds config a' live) ∨
    ∃ h a', a.allocateTensorParallel n (primary :: rest) = (.ok h, a') ∧
      Holds config a' (h :: live) ∧ h.isValid := by
  obtain ⟨e, c, stats, next, hfail, hnext, hc⟩ | ⟨caches, c, stats, hserve, hdevices, hfilled, hc⟩ :=
    allocateTensorParallel_cases a n primary rest
  · exact Or.inl ⟨e, _, hfail, hh.keep hnext (hc _ hh.owns)⟩
  · refine Or.inr ⟨_, _, hserve, hh.add rfl (hc _ hh.owns), ?_⟩
    rw [hh.config_eq] at hfilled
    exact parallelHandle_valid hdevices hfilled hpos

theorem Client.Kept.receive {outcome : Result KVCacheHandle × ContiguousKVAllocator}
    (hk : ∀ h ∈ live, h.isValid)
    (h : (∃ e a', outcome = (.error e, a') ∧ Holds config a' live) ∨
      ∃ h a', outcome = (.ok h, a') ∧ Holds config a' (h :: live) ∧ h.isValid) :
    Client.Kept config (Client.receive ⟨a, live⟩ outcome) := by
  obtain ⟨e, a', rfl, hh⟩ | ⟨h, a', rfl, hh, hvalid⟩ := h
  · exact ⟨hh, hk⟩
  · exact ⟨hh, List.forall_mem_cons.mpr ⟨hvalid, hk⟩⟩

/-- **One call**, whatever CUDA calls fail. -/
theorem Client.Kept.step (hk : c.Kept config) {call : Call} (hsized : call.Sized config) :
    (c.step call).Kept config := by
  obtain ⟨a, live⟩ := c
  obtain ⟨hh, hvalid⟩ := hk
  cases call with
  | allocate answers n =>
      exact Client.Kept.receive hvalid
        ((hh.withAnswers answers).allocateOnDevice (hsized _ rfl) _)
  | allocateTensorParallel answers n devices =>
      cases devices with
      | nil =>
          exact Client.Kept.receive hvalid
            ((hh.withAnswers answers).allocateOnDevice (hsized _ rfl) _)
      | cons primary rest =>
          exact Client.Kept.receive hvalid
            ((hh.withAnswers answers).allocateTensorParallel (hsized _ rfl) primary rest)
  | free answers h =>
      by_cases hlive : h ∈ live
      · rw [Client.step, if_pos hlive]
        have hfront := (hh.withAnswers answers).perm (List.perm_cons_erase hlive)
        exact ⟨hfront.remove (hvalid h hlive), fun h' hh' => hvalid h' (List.mem_of_mem_erase hh')⟩
      · rw [Client.step, if_neg hlive]
        exact ⟨hh, hvalid⟩

/-- **Every run.** -/
theorem Client.Kept.run (hk : c.Kept config) {calls : List Call}
    (hsized : ∀ call ∈ calls, call.Sized config) : (c.run calls).Kept config := by
  induction calls generalizing c with
  | nil => exact hk
  | cons call rest ih =>
      exact ih (hk.step (hsized call List.mem_cons_self))
        fun call' h => hsized call' (List.mem_cons_of_mem call h)

/-- **No leak, no double free.**  After any calls, whatever CUDA calls failed,
the outstanding blocks are the K and V blocks of the live handles, and no block
was freed twice. -/
theorem blocks_of_live {deviceMemory : Int → Except String Nat}
    (ha : initializeAllocator config deviceMemory = .ok a) {calls : List Call}
    (hsized : ∀ call ∈ calls, call.Sized a.config) :
    let c := Client.run ⟨a, []⟩ calls
    c.allocator.cuda.outstanding.Perm (c.live.flatMap (·.blocks)) ∧
      (c.allocator.cuda.outstanding ++ c.allocator.cuda.freed).Nodup ∧
      ∀ h ∈ c.live, h.isValid := by
  have hinit : Client.Kept a.config ⟨a, []⟩ := ⟨initializeAllocator_holds ha, by simp⟩
  have hrun := hinit.run hsized
  exact ⟨hrun.holds.owns.outstanding, hrun.holds.owns.nodup, hrun.valid⟩

end Kept

/-- Two allocations, one of which fails after its K block, and a
tensor-parallel one. -/
def sampleCalls : List Call :=
  [.allocate [] 100, .allocate [none, none, some "out of memory"] 100,
    .allocateTensorParallel [] 100 [0, 1]]

/-- The allocator of a server with two GPUs of 1 TiB. -/
def twoGpus : ContiguousKVAllocator where
  config := KVAllocatorConfig.adopted { maxTotalMemory := 2 ^ 40, deviceIds := [0, 1] }
  deviceStats :=
    ((∅ : AList (fun _ : Int => MemoryStats)).insert 0
      { totalBytes := 2 ^ 40, freeBytes := 2 ^ 40 }).insert 1
      { totalBytes := 2 ^ 40, freeBytes := 2 ^ 40 }

theorem twoGpus_ok : initializeAllocator { maxTotalMemory := 2 ^ 40, deviceIds := [0, 1] }
    (fun _ => .ok 0) = .ok twoGpus := rfl

theorem blocks_of_live_sample :
    let c := Client.run ⟨twoGpus, []⟩ sampleCalls
    c.allocator.cuda.outstanding.Perm (c.live.flatMap (·.blocks)) ∧
      (c.allocator.cuda.outstanding ++ c.allocator.cuda.freed).Nodup ∧
      ∀ h ∈ c.live, h.isValid := by
  refine blocks_of_live twoGpus_ok ?_
  simp only [sampleCalls, List.forall_mem_cons, Call.Sized, Call.half, Option.some.injEq,
    forall_eq']
  decide

/-! ## The counters in a run -/

/-- What the calls of a run are to keep: the blocks they ask for are not empty,
and a tensor-parallel allocation is over distinct devices and is refused by its
memory check or meets no CUDA error. -/
def Client.Permits (c : Client) (call : Call) : Prop :=
  call.Sized c.allocator.config ∧
    match call with
    | .allocateTensorParallel answers n devices =>
        devices.Nodup ∧
          ((∃ e, c.allocator.checkDevices (c.allocator.config.bytesForSeqLenPerDevice n)
              devices = .error e) ∨
            ∀ x ∈ answers, x = none)
    | _ => True

/-- Every call of a run is permitted. -/
def Client.PermitsAll (c : Client) : List Call → Prop
  | [] => True
  | call :: rest => c.Permits call ∧ (c.step call).PermitsAll rest

/-- The books are exact after at most `calls` calls. -/
structure Booked (config : KVAllocatorConfig) (calls : Nat) (c : Client) : Prop
    extends Client.Kept config c where
  recorded : ∀ h ∈ c.live, Recorded c.allocator h (handleBytes config h)
  accurate : ∀ d m, c.allocator.deviceStats.lookup d = some m →
    m.Accurate (c.live.map (bytesOn config d)).sum (c.live.countP (d ∈ ·.devices)) calls

section Booked

variable {config : KVAllocatorConfig} {c : Client} {live : List KVCacheHandle}
  {h : KVCacheHandle} {calls : Nat}

theorem Recorded.congr {bytes : Nat} (hr : Recorded a h bytes)
    (hsame : a'.allocations.lookup h.allocationId = a.allocations.lookup h.allocationId) :
    Recorded a' h bytes := by
  unfold Recorded at hr ⊢
  rw [hsame]
  exact hr

/-- The ids of live handles are distinct. -/
theorem Holds.id_ne (hh : Holds config a (h :: live)) {h' : KVCacheHandle} (hmem : h' ∈ live) :
    h'.allocationId ≠ h.allocationId := by
  have hnodup : ((h :: live).map (·.allocationId)).Nodup :=
    hh.keys.nodup_iff.mp a.allocations.nodupKeys
  intro heq
  refine (List.nodup_cons.mp hnodup).1 ?_
  show h.allocationId ∈ live.map (·.allocationId)
  rw [← heq]
  exact List.mem_map_of_mem hmem

theorem Booked.mono (hb : Booked config calls c) {calls' : Nat} (hle : calls ≤ calls') :
    Booked config calls' c :=
  { hb with accurate := fun d m hm => (hb.accurate d m hm).mono hle }

/-- A call that changes no counter and no handle. -/
theorem Booked.keep (hb : Booked config calls ⟨a, live⟩) (hh : Holds config a' live)
    (hstats : a'.deviceStats = a.deviceStats) (hallocs : a'.allocations = a.allocations) :
    Booked config calls ⟨a', live⟩ where
  holds := hh
  valid := hb.valid
  recorded h hmem := (hb.recorded h hmem).congr (by rw [hallocs])
  accurate d m hm := hb.accurate d m (by rwa [hstats] at hm)

/-- A handle is added. -/
theorem Booked.add (hb : Booked config calls ⟨a, live⟩) (hh : Holds config a' (h :: live))
    (hvalid : h.isValid) (hcharged : Charged a a' h) (hcalls : calls + 1 < 2 ^ 32) :
    Booked config (calls + 1) ⟨a', h :: live⟩ := by
  have hconfig : a.config = config := hb.holds.config_eq
  refine ⟨⟨hh, List.forall_mem_cons.mpr ⟨hvalid, hb.valid⟩⟩, ?_, fun d m hm => ?_⟩
  · refine List.forall_mem_cons.mpr ⟨hconfig ▸ hcharged.recorded, fun h' hmem => ?_⟩
    exact (hb.recorded h' hmem).congr (hcharged.others _ (hh.id_ne hmem))
  · dsimp only at hm
    rw [hcharged.stats d, hconfig] at hm
    rw [List.map_cons, List.sum_cons, List.countP_cons, bytesOn]
    by_cases hd : d ∈ h.devices
    · obtain ⟨m₀, hm₀, hroom⟩ := hcharged.room d hd
      rw [hconfig] at hroom
      rw [if_pos hd, hm₀] at hm
      cases hm
      have haccurate := (hb.accurate d m₀ hm₀).charge hroom hcalls
      simpa [hd, Nat.add_comm] using haccurate
    · rw [if_neg hd] at hm
      have haccurate := (hb.accurate d m hm).mono (Nat.le_succ calls)
      simpa [hd] using haccurate

/-- A handle is freed. -/
theorem Booked.remove (hb : Booked config calls ⟨a, h :: live⟩) (hcalls : calls < 2 ^ 32) :
    Booked config calls ⟨(a.free h).2, live⟩ := by
  have hvalid := hb.valid h List.mem_cons_self
  have hrecorded := hb.recorded h List.mem_cons_self
  have hallocs : (a.free h).2.allocations = a.allocations.erase h.allocationId := by
    rw [free, if_pos hvalid]
  refine ⟨⟨hb.holds.remove hvalid, fun h' hmem => hb.valid h' (List.mem_cons_of_mem h hmem)⟩,
    fun h' hmem => ?_, fun d m hm => ?_⟩
  · refine (hb.recorded h' (List.mem_cons_of_mem h hmem)).congr ?_
    dsimp only
    rw [hallocs]
    exact AList.lookup_erase_ne (hb.holds.id_ne hmem)
  · dsimp only at hm
    rw [free_books hvalid hrecorded d] at hm
    by_cases hd : d ∈ h.devices
    · rw [if_pos hd] at hm
      obtain ⟨m₀, hm₀, rfl⟩ := Option.map_eq_some_iff.mp hm
      refine MemoryStats.Accurate.release ?_ hcalls
      have haccurate := hb.accurate d m₀ hm₀
      simpa [bytesOn, hd, Nat.add_comm] using haccurate
    · rw [if_neg hd] at hm
      have haccurate := hb.accurate d m hm
      simpa [bytesOn, hd] using haccurate

theorem Booked.perm (hb : Booked config calls ⟨a, live⟩) {live' : List KVCacheHandle}
    (hp : live.Perm live') : Booked config calls ⟨a, live'⟩ where
  holds := hb.holds.perm hp
  valid h hmem := hb.valid h (hp.mem_iff.mpr hmem)
  recorded h hmem := hb.recorded h (hp.mem_iff.mpr hmem)
  accurate d m hm := by
    have haccurate := hb.accurate d m hm
    rw [(hp.map _).sum_eq, hp.countP_eq] at haccurate
    exact haccurate

theorem Booked.withAnswers (hb : Booked config calls ⟨a, live⟩)
    (answers : List (Option String)) : Booked config calls ⟨a.withAnswers answers, live⟩ :=
  hb.keep (hb.holds.withAnswers answers) rfl rfl

/-- A single-device allocation. -/
theorem Booked.allocateOnDevice {deviceId : Int} (hb : Booked config calls ⟨a, live⟩)
    (hpos : 0 < config.bytesForSeqLen n / 2) (hcalls : calls + 1 < 2 ^ 32) :
    Booked config (calls + 1) (Client.receive ⟨a, live⟩ (a.allocateOnDevice n deviceId)) := by
  have hbooks := a.allocateOnDevice_books n deviceId
  obtain ⟨e, a', heq, hh⟩ | ⟨h, a', heq, hh, hvalid⟩ :=
    hb.holds.allocateOnDevice hpos deviceId
  · obtain ⟨e', he, hstats, hallocs⟩ | ⟨h, hok, -⟩ := hbooks
    · rw [heq] at hstats hallocs ⊢
      exact (hb.keep hh hstats hallocs).mono (Nat.le_succ calls)
    · rw [heq] at hok
      cases hok
  · obtain ⟨e', he, -⟩ | ⟨h', hok, -, hcharged⟩ := hbooks
    · rw [heq] at he
      cases he
    · rw [heq] at hok hcharged ⊢
      cases hok
      exact hb.add hh hvalid hcharged hcalls

/-- A tensor-parallel allocation over distinct devices. -/
theorem Booked.allocateTensorParallel {primary : Int} {rest : List Int}
    (hb : Booked config calls ⟨a, live⟩) (hpos : 0 < config.bytesForSeqLenPerDevice n / 2)
    (hnodup : (primary :: rest).Nodup)
    (hclean : (∃ e, a.checkDevices (a.config.bytesForSeqLenPerDevice n) (primary :: rest) =
      .error e) ∨ a.cuda.Willing) (hcalls : calls + 1 < 2 ^ 32) :
    Booked config (calls + 1)
      (Client.receive ⟨a, live⟩ (a.allocateTensorParallel n (primary :: rest))) := by
  obtain ⟨e, -, hrefused⟩ | ⟨-, h, a', hserved⟩ :=
    allocateTensorParallel_settled n primary rest hclean
  · rw [hrefused]
    exact hb.mono (Nat.le_succ calls)
  · obtain ⟨e, a'', heq, -⟩ | ⟨h', a'', heq, hh, hvalid⟩ :=
      hb.holds.allocateTensorParallel hpos primary rest
    · cases hserved.symm.trans heq
    · cases hserved.symm.trans heq
      rw [hserved]
      exact hb.add hh hvalid (allocateTensorParallel_books hnodup hserved).2 hcalls

/-- **One call.** -/
theorem Booked.step (hb : Booked config calls c) {call : Call} (hpermits : c.Permits call)
    (hcalls : calls + 1 < 2 ^ 32) : Booked config (calls + 1) (c.step call) := by
  obtain ⟨a, live⟩ := c
  obtain ⟨hsized, hpermits⟩ := hpermits
  have hconfig : a.config = config := hb.holds.config_eq
  rw [hconfig] at hsized
  cases call with
  | allocate answers n =>
      exact (hb.withAnswers answers).allocateOnDevice (hsized _ rfl) hcalls
  | allocateTensorParallel answers n devices =>
      obtain ⟨hnodup, hclean⟩ := hpermits
      cases devices with
      | nil => exact (hb.withAnswers answers).allocateOnDevice (hsized _ rfl) hcalls
      | cons primary rest =>
          refine (hb.withAnswers answers).allocateTensorParallel (hsized _ rfl) hnodup ?_ hcalls
          rw [checkDevices_withAnswers]
          exact hclean
  | free answers h =>
      by_cases hlive : h ∈ live
      · rw [Client.step, if_pos hlive]
        have hfront := (hb.withAnswers answers).perm (List.perm_cons_erase hlive)
        exact (hfront.remove (by omega)).mono (Nat.le_succ calls)
      · rw [Client.step, if_neg hlive]
        exact hb.mono (Nat.le_succ calls)

/-- **Every run.** -/
theorem Booked.run (hb : Booked config calls c) {more : List Call} (hpermits : c.PermitsAll more)
    (hcalls : calls + more.length < 2 ^ 32) :
    Booked config (calls + more.length) (c.run more) := by
  induction more generalizing c calls with
  | nil => exact hb
  | cons call rest ih =>
      rw [List.length_cons] at hcalls ⊢
      have hnext := ih (hb.step hpermits.1 (by omega)) hpermits.2 (by omega)
      rw [Nat.add_assoc, Nat.add_comm 1] at hnext
      exact hnext

end Booked

/-! ## Initialization -/

/-- The books that `initialize` opens. -/
theorem initializeStats_accurate {maxTotalMemory : Nat} {deviceMemory : Int → Except String Nat}
    {devices : List Int} {stats stats' : AList (fun _ : Int => MemoryStats)}
    (hsize : maxTotalMemory < 2 ^ 64)
    (hmemory : ∀ d m, deviceMemory d = .ok m → m < 2 ^ 64)
    (hstats : ∀ d m, stats.lookup d = some m → m.Accurate 0 0 0)
    (heq : initializeStats maxTotalMemory deviceMemory devices stats = .ok stats') :
    ∀ d m, stats'.lookup d = some m → m.Accurate 0 0 0 := by
  have hopened : ∀ t : Nat, t < 2 ^ 64 →
      MemoryStats.Accurate { totalBytes := t, freeBytes := t } 0 0 0 := fun t ht =>
    ⟨rfl, Nat.zero_add t, ht, Nat.le_refl 0, Nat.zero_le t, rfl, rfl, Nat.le_refl 0⟩
  induction devices generalizing stats with
  | nil =>
      cases heq
      exact hstats
  | cons deviceId rest ih =>
      unfold initializeStats at heq
      dsimp only at heq
      split at heq
      next e hfail => cases heq
      next t hok =>
        refine ih (fun d m hm => ?_) heq
        by_cases hd : d = deviceId
        · subst hd
          rw [AList.lookup_insert] at hm
          cases hm
          refine hopened t ?_
          by_cases hzero : maxTotalMemory = 0
          · rw [if_pos hzero] at hok
            cases hd : deviceMemory d with
            | error err =>
                rw [hd] at hok
                cases hok
            | ok m =>
                rw [hd] at hok
                cases hok
                exact hmemory d _ hd
          · rw [if_neg hzero] at hok
            cases hok
            exact hsize
        · rw [AList.lookup_insert_ne hd] at hm
          exact hstats d m hm

theorem initializeAllocator_accurate {config : KVAllocatorConfig}
    {deviceMemory : Int → Except String Nat} (ha : initializeAllocator config deviceMemory = .ok a)
    (hsize : config.maxTotalMemory < 2 ^ 64)
    (hmemory : ∀ d m, deviceMemory d = .ok m → m < 2 ^ 64) :
    ∀ d m, a.deviceStats.lookup d = some m → m.Accurate 0 0 0 := by
  unfold initializeAllocator at ha
  split at ha
  next => cases ha
  next stats hok =>
    cases ha
    exact initializeStats_accurate hsize hmemory (by simp) hok

/-- **The accounts are exact.**  In every state of every permitted run. -/
theorem accounts_exact {config : KVAllocatorConfig} {deviceMemory : Int → Except String Nat}
    (ha : initializeAllocator config deviceMemory = .ok a)
    (hsize : config.maxTotalMemory < 2 ^ 64)
    (hmemory : ∀ d m, deviceMemory d = .ok m → m < 2 ^ 64) {calls : List Call}
    (hpermits : Client.PermitsAll ⟨a, []⟩ calls) (hcalls : calls.length < 2 ^ 32) :
    let c := Client.run ⟨a, []⟩ calls
    (∀ d m, c.allocator.deviceStats.lookup d = some m →
      m.usedBytes = (c.live.map (bytesOn a.config d)).sum ∧
      m.usedBytes + m.freeBytes = m.totalBytes ∧
      m.usedBytes ≤ m.peakBytes ∧ m.peakBytes ≤ m.totalBytes ∧
      m.activeAllocations = c.live.countP (d ∈ ·.devices) ∧
      m.activeAllocations + m.totalFrees = m.totalAllocations) ∧
    c.allocator.allocations.keys.Perm (c.live.map (·.allocationId)) := by
  have hinit : Booked a.config 0 ⟨a, []⟩ :=
    ⟨⟨initializeAllocator_holds ha, by simp⟩, by simp,
      initializeAllocator_accurate ha hsize hmemory⟩
  have hrun := hinit.run hpermits (by omega)
  refine ⟨fun d m hm => ?_, hrun.holds.keys⟩
  have haccurate := hrun.accurate d m hm
  exact ⟨haccurate.used, haccurate.balance, haccurate.used_le_peak, haccurate.peak_le_total,
    haccurate.active, haccurate.counts.symm⟩

theorem accounts_exact_sample :
    let c := Client.run ⟨twoGpus, []⟩ sampleCalls
    (∀ d m, c.allocator.deviceStats.lookup d = some m →
      m.usedBytes = (c.live.map (bytesOn twoGpus.config d)).sum ∧
      m.usedBytes + m.freeBytes = m.totalBytes ∧
      m.usedBytes ≤ m.peakBytes ∧ m.peakBytes ≤ m.totalBytes ∧
      m.activeAllocations = c.live.countP (d ∈ ·.devices) ∧
      m.activeAllocations + m.totalFrees = m.totalAllocations) ∧
    c.allocator.allocations.keys.Perm (c.live.map (·.allocationId)) := by
  have hpermits : Client.PermitsAll ⟨twoGpus, []⟩ sampleCalls := by
    simp only [sampleCalls, Client.PermitsAll, Client.Permits, Call.Sized, Call.half,
      Option.some.injEq, forall_eq']
    refine ⟨⟨?_, trivial⟩, ⟨?_, trivial⟩, ⟨?_, ?_, Or.inr (by simp)⟩, trivial⟩ <;> decide +kernel
  exact accounts_exact twoGpus_ok (by decide) (fun d m hm => by cases hm; decide) hpermits
    (by decide)

end ContiguousKVAllocator

end Qwen
