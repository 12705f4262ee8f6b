import WinInference.KVCache.PooledLaws

/-!
# Device memory of the pooled allocator

A client allocates and frees in any order.  The outstanding blocks are those of
the pools, those of the live handles outside the pools, and those that leaked:
`free` gives back the K and V pointer of the handle itself, so of a
tensor-parallel handle the caches of all devices but the first are lost.  The
pool of a device that is configured twice is lost as well.

`Conserving` is the invariant of a client with the handles it holds and those it
has released.  `Conserving.step` keeps it in each call, `Conserving.leave` says
what a freed handle leaves behind, and `leak_eq_nil_iff` which handles leave
nothing.
-/

namespace Qwen

/-- The blocks a pool is cut from. -/
def DevicePool.blocks (pool : DevicePool) : List Nat :=
  pool.poolMemoryK.blocks ++ pool.poolMemoryV.blocks

namespace PooledKVAllocator

/-- The blocks of all pools. -/
def poolBlocks (a : PooledKVAllocator) : List Nat :=
  a.devicePools.entries.flatMap (fun e => e.2.blocks)

/-- The blocks of a live handle that lie outside the pools: those of overflow
and tensor-parallel handles. -/
def externalBlocks (a : PooledKVAllocator) (h : KVCacheHandle) : List Nat :=
  match a.allocationSlots.lookup h.allocationId with
  | some (_, _, true) => h.blocks
  | _ => []

/-- One call of a client. -/
inductive Call where
  | allocate (answers : List (Option String)) (maxSeqLen : Nat)
  | allocateTensorParallel (answers : List (Option String)) (maxSeqLen : Nat)
      (deviceIds : List Int)
  | free (answers : List (Option String)) (handle : KVCacheHandle)

/-- An allocator with the handles its client holds, and those it has freed. -/
structure Client where
  allocator : PooledKVAllocator
  live : List KVCacheHandle := []
  released : List KVCacheHandle := []

namespace Client

/-- The client keeps the handle of an allocation that succeeded. -/
def receive (c : Client) : Result KVCacheHandle × PooledKVAllocator → Client
  | (.ok h, a) => { c with allocator := a, live := h :: c.live }
  | (.error _, a) => { c with allocator := a }

/-- Only live handles are freed. -/
def step (c : Client) : Call → Client
  | .allocate answers n => c.receive ((c.allocator.withAnswers answers).allocate n)
  | .allocateTensorParallel answers n devices =>
      c.receive ((c.allocator.withAnswers answers).allocateTensorParallel n devices)
  | .free answers h =>
      if h ∈ c.live then
        { allocator := ((c.allocator.withAnswers answers).free h).2
          live := c.live.erase h
          released := h :: c.released }
      else c

/-- The calls, one after the other. -/
def run (c : Client) (calls : List Call) : Client := calls.foldl step c

/-- The outstanding blocks are those of the pools and of the live handles, and
no block was freed twice. -/
def Conserved (c : Client) : Prop :=
  c.allocator.cuda.outstanding.Perm
    (c.allocator.poolBlocks ++ c.live.flatMap c.allocator.externalBlocks) ∧
  (c.allocator.cuda.outstanding ++ c.allocator.cuda.freed).Nodup

instance (c : Client) : Decidable c.Conserved :=
  inferInstanceAs (Decidable (_ ∧ _))

end Client

/-! ## The blocks of the pools -/

/-- The blocks of the pools of all devices but one. -/
def otherBlocks (a : PooledKVAllocator) (deviceId : Int) : List Nat :=
  (a.devicePools.entries.kerase deviceId).flatMap (fun e => e.2.blocks)

theorem flatMap_split (d : Int) (l : List (Sigma fun _ : Int => DevicePool)) :
    (l.flatMap (fun e => e.2.blocks)).Perm
      (((l.dlookup d).getD {}).blocks ++ (l.kerase d).flatMap (fun e => e.2.blocks)) := by
  induction l with
  | nil => exact List.Perm.refl _
  | cons e rest ih =>
      obtain ⟨x, pool⟩ := e
      by_cases hx : d = x
      · subst hx
        simp
      · rw [List.dlookup_cons_ne _ _ hx, List.kerase_cons_ne hx, List.flatMap_cons,
          List.flatMap_cons]
        refine (ih.append_left _).trans ?_
        rw [← List.append_assoc, ← List.append_assoc]
        exact List.perm_append_comm.append_right _

theorem poolBlocks_split (a : PooledKVAllocator) (d : Int) :
    a.poolBlocks.Perm ((a.poolAt d).blocks ++ a.otherBlocks d) :=
  flatMap_split d a.devicePools.entries

theorem poolBlocks_insert (a : PooledKVAllocator) (d : Int) (pool : DevicePool) (c : Cuda) :
    poolBlocks { a with cuda := c, devicePools := a.devicePools.insert d pool } =
      pool.blocks ++ a.otherBlocks d := by
  rw [poolBlocks, AList.entries_insert, List.flatMap_cons]
  rfl

/-! ## What is lost -/

/-- The blocks `free` does not give back. -/
def leak (h : KVCacheHandle) : List Nat := cacheBlocks h.deviceCaches.tail

/-- The per-device caches of a handle are as large as its length asks. -/
def CachesFilled (config : KVAllocatorConfig) (h : KVCacheHandle) : Prop :=
  ∀ cache ∈ h.deviceCaches,
    Filled (config.bytesForSeqLenPerDevice h.maxSeqLen / 2) cache.kCache cache.vCache

/-- What the client can tell of a live handle from its record. -/
inductive Shaped (config : KVAllocatorConfig) (h : KVCacheHandle) : Bool → Prop where
  | slot : h.isTensorParallel = false → h.deviceCaches = [] → Shaped config h false
  | overflow : h.isTensorParallel = false → h.deviceCaches = [] →
      Filled (config.bytesForSeqLen h.maxSeqLen / 2) h.kCache h.vCache → Shaped config h true
  | parallel (cache : PerDeviceKVCache) (caches : List PerDeviceKVCache) :
      h.isTensorParallel = true → h.deviceCaches = cache :: caches →
      h.kCache = cache.kCache → h.vCache = cache.vCache → CachesFilled config h →
      Shaped config h true

theorem cacheBlocks_eq_nil {half : Nat} {caches : List PerDeviceKVCache}
    (h : ∀ cache ∈ caches, Filled half cache.kCache cache.vCache) (hzero : half = 0) :
    cacheBlocks caches = [] := by
  refine List.flatMap_eq_nil_iff.mpr fun cache hcache => ?_
  obtain ⟨hk, hv⟩ := (h cache hcache).eq_none hzero
  simp [PerDeviceKVCache.blocks, hk, hv, Ptr.blocks]

/-- A handle of a shape that is not valid has no blocks. -/
theorem Shaped.blocks_of_not_valid {config : KVAllocatorConfig} {h : KVCacheHandle}
    (hshape : Shaped config h true) (hvalid : h.isValid = false) :
    h.blocks = [] ∧ leak h = [] := by
  cases hshape with
  | overflow htp hcaches hfilled =>
      rw [KVCacheHandle.isValid, if_neg (by simp [htp]), Bool.and_eq_false_iff] at hvalid
      obtain ⟨hk, hv⟩ := hfilled.eq_none (hfilled.zero_of_not hvalid)
      constructor
      · simp [KVCacheHandle.blocks, htp, hk, hv, Ptr.blocks]
      · simp [leak, hcaches]
  | parallel cache caches htp hcaches hk hv hfilled =>
      have hfirst := hfilled cache (by simp [hcaches])
      have hnone : cache.kCache.isSome = false := by
        simpa [KVCacheHandle.isValid, htp, hcaches] using hvalid
      have hzero := hfirst.zero_of_not (Or.inl hnone)
      constructor
      · rw [KVCacheHandle.blocks, if_pos htp]
        exact cacheBlocks_eq_nil hfilled hzero
      · exact cacheBlocks_eq_nil (fun c hc => hfilled c (List.mem_of_mem_tail hc)) hzero

/-- The blocks of a handle outside the pools are its own K and V block and what
`free` leaves behind. -/
theorem Shaped.blocks_eq {config : KVAllocatorConfig} {h : KVCacheHandle}
    (hshape : Shaped config h true) :
    h.blocks = h.kCache.blocks ++ (h.vCache.blocks ++ leak h) := by
  cases hshape with
  | overflow htp hcaches hfilled => simp [KVCacheHandle.blocks, htp, leak, hcaches]
  | parallel cache caches htp hcaches hk hv hfilled =>
      rw [KVCacheHandle.blocks, if_pos htp, leak, hcaches, hk, hv, cacheBlocks_cons,
        PerDeviceKVCache.blocks, List.append_assoc]
      rfl

/-- Exactly the tensor-parallel handles over several devices leak. -/
theorem leak_eq_nil_iff {config : KVAllocatorConfig} {h : KVCacheHandle}
    (hfilled : CachesFilled config h) :
    leak h = [] ↔
      h.deviceCaches.length ≤ 1 ∨ config.bytesForSeqLenPerDevice h.maxSeqLen = 0 := by
  constructor
  · intro hnil
    rcases hcaches : h.deviceCaches with _ | ⟨cache, _ | ⟨second, rest⟩⟩
    · exact Or.inl (by simp)
    · exact Or.inl (by simp)
    · right
      have hsecond := hfilled second (by simp [hcaches])
      by_contra hpos
      have hhalf := KVAllocatorConfig.half_pos_perDevice (Nat.pos_of_ne_zero hpos)
      obtain ⟨p, hp⟩ := Option.isSome_iff_exists.mp (hsecond.isSome hhalf).1
      rw [leak, hcaches, List.tail_cons, cacheBlocks_cons, PerDeviceKVCache.blocks, hp] at hnil
      simp [Ptr.blocks] at hnil
  · rintro (hshort | hzero)
    · rcases hcaches : h.deviceCaches with _ | ⟨cache, _ | ⟨second, rest⟩⟩
      · simp [leak, hcaches]
      · simp [leak, hcaches]
      · simp [hcaches] at hshort
    · refine cacheBlocks_eq_nil (fun c hc => hfilled c (List.mem_of_mem_tail hc)) ?_
      rw [hzero]

/-! ## The invariant -/

/-- The client's allocator owns the pools, the live handles and what leaked. -/
structure Conserving (config : KVAllocatorConfig) (leaked : List Nat) (c : Client) :
    Prop where
  config_eq : c.allocator.config = config
  owns : c.allocator.cuda.Owns
    (c.allocator.poolBlocks ++ (c.live.flatMap c.allocator.externalBlocks ++ leaked))
  ids : (c.live.map (·.allocationId)).Nodup
  /-- every live handle is recorded under an id already drawn -/
  recorded : ∀ h ∈ c.live, h.allocationId < c.allocator.nextAllocationId ∧
    ∃ d idx ext, c.allocator.allocationSlots.lookup h.allocationId = some (d, idx, ext) ∧
      Shaped config h ext
  filled : ∀ h ∈ c.released, CachesFilled config h

section Steps

variable {config : KVAllocatorConfig} {leaked : List Nat} {c : Client}
  {a : PooledKVAllocator} {live released : List KVCacheHandle} {h : KVCacheHandle}

theorem Shaped.cachesFilled {ext : Bool} (hshape : Shaped config h ext) :
    CachesFilled config h := by
  cases hshape with
  | slot _ hcaches | overflow _ hcaches _ => simp [CachesFilled, hcaches]
  | parallel _ _ _ _ _ _ hfilled => exact hfilled

theorem externalBlocks_eq {d : Int} {idx : Nat} {ext : Bool}
    (hrecord : a.allocationSlots.lookup h.allocationId = some (d, idx, ext)) :
    a.externalBlocks h = if ext then h.blocks else [] := by
  cases ext <;> simp [externalBlocks, hrecord]

/-- Drawing ids and handing every block back. -/
theorem Conserving.recuda (hc : Conserving config leaked ⟨a, live, released⟩) {cuda : Cuda}
    {next : Nat} (hcuda : ∀ held, a.cuda.Owns held → cuda.Owns held)
    (hnext : a.nextAllocationId ≤ next) :
    Conserving config leaked
      ⟨{ a with cuda := cuda, nextAllocationId := next }, live, released⟩ :=
  ⟨hc.config_eq, hcuda _ hc.owns, hc.ids,
    fun h hh => ⟨Nat.lt_of_lt_of_le (hc.recorded h hh).1 hnext, (hc.recorded h hh).2⟩,
    hc.filled⟩

/-- Replacing a pool by one with the same blocks. -/
theorem Conserving.repool (hc : Conserving config leaked ⟨a, live, released⟩) {d : Int}
    {pool : DevicePool} (hpool : pool.blocks = (a.poolAt d).blocks) :
    Conserving config leaked
      ⟨{ a with devicePools := a.devicePools.insert d pool }, live, released⟩ := by
  refine ⟨hc.config_eq, hc.owns.perm (List.Perm.append_right _ ?_), hc.ids, hc.recorded,
    hc.filled⟩
  have hinsert := poolBlocks_insert a d pool a.cuda
  rw [hpool] at hinsert
  rw [hinsert]
  exact poolBlocks_split a d

theorem Conserving.returnSlot (hc : Conserving config leaked ⟨a, live, released⟩) (d : Int)
    (idx : Nat) : Conserving config leaked ⟨a.returnSlot d idx, live, released⟩ :=
  hc.repool rfl

/-- A new handle under the next id. -/
theorem Conserving.enter (hc : Conserving config leaked ⟨a, live, released⟩) {cuda : Cuda}
    {d : Int} {idx : Nat} {ext : Bool} (hid : h.allocationId = a.nextAllocationId)
    (hshape : Shaped config h ext)
    (hcuda : ∀ held, a.cuda.Owns held →
      cuda.Owns ((if ext then h.blocks else []) ++ held)) :
    Conserving config leaked
      ⟨{ a with
          cuda := cuda
          nextAllocationId := a.nextAllocationId + 1
          allocationSlots := a.allocationSlots.insert a.nextAllocationId (d, idx, ext) },
        h :: live, released⟩ := by
  generalize ha' : ({ a with
    cuda := cuda
    nextAllocationId := a.nextAllocationId + 1
    allocationSlots := a.allocationSlots.insert a.nextAllocationId (d, idx, ext) } :
    PooledKVAllocator) = a'
  have hnew : a'.allocationSlots.lookup h.allocationId = some (d, idx, ext) := by
    rw [← ha', hid]
    simp
  have hold : ∀ q ∈ live, a'.allocationSlots.lookup q.allocationId =
      a.allocationSlots.lookup q.allocationId := by
    intro q hq
    rw [← ha']
    exact AList.lookup_insert_ne (Nat.ne_of_lt (hc.recorded q hq).1)
  have hexternal : live.flatMap a'.externalBlocks = live.flatMap a.externalBlocks :=
    List.flatMap_congr fun q hq => by rw [externalBlocks, hold q hq, externalBlocks]
  have hnext : a'.nextAllocationId = a.nextAllocationId + 1 := by rw [← ha']
  refine ⟨?_, ?_, ?_, fun q hq => ?_, hc.filled⟩
  · rw [← ha']
    exact hc.config_eq
  · have howns := hcuda _ hc.owns
    have hcuda' : a'.cuda = cuda := by rw [← ha']
    have hpools : a'.poolBlocks = a.poolBlocks := by rw [← ha']; rfl
    rw [hcuda', hpools, List.flatMap_cons, hexternal, externalBlocks_eq hnew]
    refine howns.perm ?_
    rw [List.append_assoc]
    exact List.perm_append_comm_assoc _ _ _
  · rw [List.map_cons, List.nodup_cons]
    refine ⟨fun hmem => ?_, hc.ids⟩
    obtain ⟨q, hq, heq⟩ := List.mem_map.mp hmem
    have hlt := (hc.recorded q hq).1
    dsimp only at heq hlt
    omega
  · rcases List.mem_cons.mp hq with rfl | hq
    · exact ⟨by dsimp only; omega, d, idx, ext, hnew, hshape⟩
    · obtain ⟨hlt, d', idx', ext', hlookup, hq'⟩ := hc.recorded q hq
      refine ⟨by dsimp only at hlt ⊢; omega, d', idx', ext', ?_, hq'⟩
      dsimp only at hlookup ⊢
      rw [hold q hq]
      exact hlookup

/-- The order of the live handles does not matter. -/
theorem Conserving.perm (hc : Conserving config leaked ⟨a, live, released⟩)
    {live' : List KVCacheHandle} (hp : live.Perm live') :
    Conserving config leaked ⟨a, live', released⟩ :=
  ⟨hc.config_eq, hc.owns.perm (((hp.flatMap_right _).append_right _).append_left _),
    (hp.map _).nodup_iff.mp hc.ids, fun h hh => hc.recorded h (hp.mem_iff.mpr hh), hc.filled⟩

theorem Conserving.head_filled (hc : Conserving config leaked ⟨a, h :: live, released⟩) :
    ∀ q ∈ h :: released, CachesFilled config q := by
  intro q hq
  rcases List.mem_cons.mp hq with rfl | hq
  · obtain ⟨-, d, idx, ext, -, hshape⟩ := hc.recorded q List.mem_cons_self
    exact hshape.cachesFilled
  · exact hc.filled q hq

/-- A handle leaves with its record. -/
theorem Conserving.forget (hc : Conserving config leaked ⟨a, h :: live, released⟩)
    {cuda : Cuda} {leaked' : List Nat}
    (howns : cuda.Owns (a.poolBlocks ++ (live.flatMap a.externalBlocks ++ leaked'))) :
    Conserving config leaked'
      ⟨{ a with
          cuda := cuda
          allocationSlots := a.allocationSlots.erase h.allocationId }, live, h :: released⟩ := by
  obtain ⟨hnew, hids⟩ := List.nodup_cons.mp hc.ids
  have hne : ∀ q ∈ live, q.allocationId ≠ h.allocationId :=
    fun q hq heq => hnew (List.mem_map.mpr ⟨q, hq, heq⟩)
  have hexternal : live.flatMap (externalBlocks { a with
      cuda := cuda
      allocationSlots := a.allocationSlots.erase h.allocationId }) =
      live.flatMap a.externalBlocks :=
    List.flatMap_congr fun q hq => by
      rw [externalBlocks, AList.lookup_erase_ne (hne q hq), externalBlocks]
  refine ⟨hc.config_eq, ?_, hids, fun q hq => ?_, hc.head_filled⟩
  · dsimp only
    rw [hexternal]
    exact howns
  · obtain ⟨hlt, d, idx, ext, hlookup, hshape⟩ :=
      hc.recorded q (List.mem_cons_of_mem _ hq)
    refine ⟨hlt, d, idx, ext, ?_, hshape⟩
    rw [AList.lookup_erase_ne (hne q hq)]
    exact hlookup

/-- A handle without blocks is dropped. -/
theorem Conserving.drop (hc : Conserving config leaked ⟨a, h :: live, released⟩)
    (hblocks : a.externalBlocks h = []) :
    Conserving config leaked ⟨a, live, h :: released⟩ := by
  refine ⟨hc.config_eq, ?_, (List.nodup_cons.mp hc.ids).2,
    fun q hq => hc.recorded q (List.mem_cons_of_mem _ hq), hc.head_filled⟩
  have howns := hc.owns
  rw [List.flatMap_cons, hblocks] at howns
  exact howns

/-- `free` of a live handle gives back all its blocks but those that leak. -/
theorem Conserving.leave (hc : Conserving config leaked ⟨a, h :: live, released⟩) :
    Conserving config (leak h ++ leaked) ⟨(a.free h).2, live, h :: released⟩ := by
  obtain ⟨-, d, idx, ext, hlookup, hshape⟩ := hc.recorded h List.mem_cons_self
  dsimp only at hlookup
  have hexternal := externalBlocks_eq hlookup
  by_cases hvalid : h.isValid
  · obtain ⟨-, ⟨hnone, -⟩ | ⟨d', idx', hover, heq⟩ | ⟨d', idx', hslot, heq⟩⟩ :=
      free_valid_cases (a := a) hvalid
    · rw [hlookup] at hnone
      cases hnone
    · obtain rfl : ext = true := by
        rw [hlookup] at hover
        cases hover
        rfl
      rw [heq]
      refine hc.forget ?_
      have howns : a.cuda.Owns (h.kCache.blocks ++ (h.vCache.blocks ++
          (a.poolBlocks ++ (live.flatMap a.externalBlocks ++ (leak h ++ leaked))))) := by
        refine hc.owns.perm ?_
        rw [List.flatMap_cons, hexternal, if_pos rfl, hshape.blocks_eq]
        dsimp only
        simp only [List.append_assoc]
        refine (List.perm_append_comm_assoc _ _ _).trans (List.Perm.append_left _ ?_)
        refine (List.perm_append_comm_assoc _ _ _).trans (List.Perm.append_left _ ?_)
        exact List.Perm.append_left _ (List.perm_append_comm_assoc _ _ _)
      exact (howns.setDevice d').free.free
    · obtain rfl : ext = false := by
        rw [hlookup] at hslot
        cases hslot
        rfl
      have hnone : leak h = [] := by
        cases hshape with
        | slot _ hcaches => simp [leak, hcaches]
      rw [heq, hnone, List.nil_append]
      have hreturned := hc.returnSlot d' idx'
      have howns := hreturned.owns
      have hslotless : (a.returnSlot d' idx').externalBlocks h = [] :=
        externalBlocks_eq (a := a.returnSlot d' idx') hlookup
      dsimp only at howns
      rw [List.flatMap_cons, hslotless, List.nil_append] at howns
      exact hreturned.forget howns
  · rw [free_invalid (by simpa using hvalid)]
    cases ext with
    | true =>
        obtain ⟨hblocks, hnone⟩ := hshape.blocks_of_not_valid (by simpa using hvalid)
        rw [hnone, List.nil_append]
        exact hc.drop (by rw [hexternal, if_pos rfl, hblocks])
    | false =>
        have hnone : leak h = [] := by
          cases hshape with
          | slot _ hcaches => simp [leak, hcaches]
        rw [hnone, List.nil_append]
        exact hc.drop (by rw [hexternal]; rfl)

theorem Conserving.withAnswers (hc : Conserving config leaked ⟨a, live, released⟩)
    (answers : List (Option String)) :
    Conserving config leaked ⟨a.withAnswers answers, live, released⟩ :=
  ⟨hc.config_eq, hc.owns.withAnswers answers, hc.ids, hc.recorded, hc.filled⟩

theorem Conserving.overflow (hc : Conserving config leaked ⟨a, live, released⟩) (n : Nat) :
    Conserving config leaked (Client.receive ⟨a, live, released⟩ (a.overflow n)) := by
  obtain ⟨e, cuda, heq, hcuda⟩ | ⟨k, v, cuda, heq, hfilled, hcuda⟩ := overflow_cases a n
  · rw [heq]
    exact hc.recuda hcuda (Nat.le_refl _)
  · rw [heq]
    refine hc.enter (h := overflowHandle a n a.config.deviceId k v) rfl
      (Shaped.overflow rfl rfl ?_) hcuda
    have hconfig : a.config = config := hc.config_eq
    rw [← hconfig]
    exact hfilled

/-- A single-device allocation, from a pool or beside it. -/
theorem Conserving.allocate (hc : Conserving config leaked ⟨a, live, released⟩) (n : Nat) :
    Conserving config leaked (Client.receive ⟨a, live, released⟩ (a.allocate n)) := by
  obtain ⟨slotIdx, freeSlots, -, heq⟩ | heq | heq := allocate_cases a n
  · rw [heq]
    refine (hc.repool (d := a.config.deviceId) ?_).enter rfl (Shaped.slot rfl rfl)
      (fun _ howns => howns)
    rfl
  · rw [heq]
    exact hc.overflow n
  · rw [heq]
    have hpool : Conserving config leaked ⟨a.withPool, live, released⟩ := hc.repool rfl
    exact hpool.overflow n

theorem Conserving.allocateTensorParallel
    (hc : Conserving config leaked ⟨a, live, released⟩) (n : Nat) (devices : List Int) :
    Conserving config leaked
      (Client.receive ⟨a, live, released⟩ (a.allocateTensorParallel n devices)) := by
  cases devices with
  | nil => exact hc.allocate n
  | cons primary rest =>
      obtain ⟨e, cuda, heq, hcuda⟩ | ⟨caches, cuda, heq, hdevices, hfilled, hcuda⟩ :=
        allocateTensorParallel_cases a n primary rest
      · rw [heq]
        exact hc.recuda hcuda (Nat.le_succ _)
      · rw [heq]
        have hconfig : a.config = config := hc.config_eq
        obtain ⟨cache, caches, rfl⟩ : ∃ cache others, caches = cache :: others := by
          cases caches with
          | nil => cases hdevices
          | cons cache others => exact ⟨cache, others, rfl⟩
        refine hc.enter (h := parallelHandle a n primary (cache :: caches)) rfl
          (Shaped.parallel cache caches rfl rfl rfl rfl ?_) hcuda
        rw [← hconfig]
        exact hfilled

@[simp] theorem receive_released (c : Client)
    (outcome : Result KVCacheHandle × PooledKVAllocator) :
    (c.receive outcome).released = c.released := by
  obtain ⟨_ | _, _⟩ := outcome <;> rfl

/-- **One call.**  What is lost grows by what `free` leaves behind. -/
theorem Conserving.step {lost : List Nat}
    (hc : Conserving config (c.released.flatMap leak ++ lost) c) (call : Call) :
    Conserving config ((c.step call).released.flatMap leak ++ lost) (c.step call) := by
  obtain ⟨a, live, released⟩ := c
  cases call with
  | allocate answers n =>
      have hstep := (hc.withAnswers answers).allocate n
      rw [Client.step, receive_released]
      exact hstep
  | allocateTensorParallel answers n devices =>
      have hstep := (hc.withAnswers answers).allocateTensorParallel n devices
      rw [Client.step, receive_released]
      exact hstep
  | free answers h =>
      by_cases hlive : h ∈ live
      · have hstep := ((hc.withAnswers answers).perm (List.perm_cons_erase hlive)).leave
        rw [Client.step, if_pos hlive]
        dsimp only at hstep ⊢
        rw [← List.append_assoc] at hstep
        exact hstep
      · rw [Client.step, if_neg hlive]
        exact hc

/-- **Every run.** -/
theorem Conserving.run {lost : List Nat}
    (hc : Conserving config (c.released.flatMap leak ++ lost) c) (calls : List Call) :
    Conserving config ((c.run calls).released.flatMap leak ++ lost) (c.run calls) := by
  induction calls generalizing c with
  | nil => exact hc
  | cons call rest ih => exact ih (hc.step call)

/-- The blocks are conserved when nothing leaked, and only then. -/
theorem Conserving.conserves (hc : Conserving config leaked c) :
    c.Conserved ↔ leaked = [] := by
  constructor
  · intro hconserved
    have hlength := (hc.owns.outstanding.symm.trans hconserved.1).length_eq
    simp only [List.length_append] at hlength
    exact List.eq_nil_of_length_eq_zero (by omega)
  · rintro rfl
    have howns := hc.owns
    rw [List.append_nil] at howns
    exact ⟨howns.outstanding, howns.nodup⟩

end Steps

/-! ## Initialization -/

theorem Pristine.poolAt_blocks {a : PooledKVAllocator} (h : Pristine a) (d : Int) :
    (a.poolAt d).blocks = [] ↔ a.poolBytes = 0 ∨ d ∉ a.devicePools := by
  cases hpool : a.devicePools.lookup d with
  | none =>
      have habsent : d ∉ a.devicePools := AList.lookup_eq_none.mp hpool
      simp [PooledKVAllocator.poolAt, hpool, habsent, DevicePool.blocks, Ptr.blocks]
  | some pool =>
      have hpresent : d ∈ a.devicePools := AList.lookup_isSome.mp (by simp [hpool])
      obtain ⟨k, v, rfl, hfilled⟩ := h.cut d pool hpool
      have hblocks : (a.poolAt d).blocks = k.blocks ++ v.blocks := by
        simp [PooledKVAllocator.poolAt, hpool, DevicePool.blocks, cutPool]
      rw [hblocks]
      constructor
      · intro hnil
        left
        by_contra hpos
        obtain ⟨p, hp⟩ := Option.isSome_iff_exists.mp
          (hfilled.isSome (h.half_pos (Nat.pos_of_ne_zero hpos))).1
        rw [hp] at hnil
        simp [Ptr.blocks] at hnil
      · rintro (hzero | habsent)
        · obtain ⟨hk, hv⟩ := hfilled.eq_none (by rw [hzero])
          simp [hk, hv, Ptr.blocks]
        · exact absurd hpresent habsent

/-- What initialization loses: the pools of devices that are configured again. -/
theorem allocatePools_owns {a a' : PooledKVAllocator} {devices : List Int} {lost : List Nat}
    (h : Pristine a) (howns : a.cuda.Owns (a.poolBlocks ++ lost))
    (heq : a.allocatePools devices = (.ok (), a')) :
    ∃ lost', a'.cuda.Owns (a'.poolBlocks ++ lost') ∧
      (lost' = [] ↔ lost = [] ∧
        (a.poolBytes = 0 ∨ (devices.Nodup ∧ ∀ d ∈ devices, d ∉ a.devicePools))) := by
  induction devices generalizing a lost with
  | nil =>
      cases heq
      exact ⟨lost, howns, by simp⟩
  | cons deviceId rest ih =>
      rw [PooledKVAllocator.allocatePools] at heq
      obtain ⟨e, c, hfail⟩ | ⟨k, v, c, hserve, hfilled, hc⟩ :=
        allocatePoolForDevice_cases a deviceId
      · rw [hfail] at heq
        cases heq
      rw [hserve] at heq
      have hnext : c.Owns (poolBlocks { a with
          cuda := c, devicePools := a.devicePools.insert deviceId (a.cutPool k v) } ++
            ((a.poolAt deviceId).blocks ++ lost)) := by
        refine (hc _ howns).perm ?_
        rw [poolBlocks_insert, List.append_assoc (a.cutPool k v).blocks]
        refine List.Perm.append_left (k.blocks ++ v.blocks) ?_
        refine ((poolBlocks_split a deviceId).append_right lost).trans ?_
        rw [List.append_assoc]
        exact List.perm_append_comm_assoc _ _ _
      obtain ⟨lost', hlost', hiff⟩ := ih (h.addPool hfilled deviceId c) hnext heq
      refine ⟨lost', hlost', hiff.trans ?_⟩
      have hbytes : poolBytes { a with
          cuda := c, devicePools := a.devicePools.insert deviceId (a.cutPool k v) } =
            a.poolBytes := rfl
      rw [hbytes, List.append_eq_nil_iff, h.poolAt_blocks deviceId, List.nodup_cons]
      simp only [AList.mem_insert, List.mem_cons]
      grind

/-- **Conservation of device memory.**  After a successful `initialize` a client
allocates and frees.  The outstanding blocks are those of the pools and of the
live handles exactly when no device is configured twice and no tensor-parallel
handle over several devices was freed, blocks of no bytes apart. -/
theorem conserved_iff {poolConfig : PooledAllocatorConfig} {config : KVAllocatorConfig}
    {answers : List (Option String)} {a : PooledKVAllocator}
    (ha : initializeAllocator poolConfig config { answers := answers } = (.ok (), a))
    (calls : List Call) :
    (Client.run ⟨a, [], []⟩ calls).Conserved ↔
      (a.poolBytes = 0 ∨ config.managedDevices.Nodup) ∧
        ∀ h ∈ (Client.run ⟨a, [], []⟩ calls).released,
          h.deviceCaches.length ≤ 1 ∨ a.config.bytesForSeqLenPerDevice h.maxSeqLen = 0 := by
  have hnew := pristine_configured poolConfig config { answers := answers }
  have howns : (configured poolConfig config { answers := answers }).cuda.Owns
      ((configured poolConfig config { answers := answers }).poolBlocks ++ []) :=
    Cuda.Owns.empty answers
  obtain ⟨lost, hlost, hiff⟩ := allocatePools_owns hnew howns ha
  have hinit : Conserving a.config ((Client.mk a [] []).released.flatMap leak ++ lost)
      ⟨a, [], []⟩ :=
    ⟨rfl, hlost, List.nodup_nil, by simp, by simp⟩
  have hrun := hinit.run calls
  have hbytes : (configured poolConfig config { answers := answers }).poolBytes =
      a.poolBytes := by
    obtain ⟨hpristine, hconfig, hpool⟩ := pristine_initializeAllocator ha
    rw [poolBytes, poolBytes, hpristine.slotBytes, hconfig, hpool]
    rfl
  have hempty : ∀ d, d ∉ (configured poolConfig config { answers := answers }).devicePools :=
    fun d => AList.notMem_empty d
  rw [hrun.conserves, List.append_eq_nil_iff, List.flatMap_eq_nil_iff, hiff, hbytes]
  have hleaks : (∀ h ∈ (Client.run ⟨a, [], []⟩ calls).released, leak h = []) ↔
      ∀ h ∈ (Client.run ⟨a, [], []⟩ calls).released,
        h.deviceCaches.length ≤ 1 ∨ a.config.bytesForSeqLenPerDevice h.maxSeqLen = 0 :=
    forall₂_congr fun h hh => leak_eq_nil_iff (hrun.filled h hh)
  rw [hleaks]
  simp [hempty, and_comm]

/-- A slot, an overflow block and a tensor-parallel handle that is kept. -/
theorem conserved_iff_sample :
    (Client.run ⟨samplePooled, [], []⟩ [.allocate [] 100, .allocate [] 20000,
      .allocateTensorParallel [none, some "out of memory"] 100 [0, 1],
      .allocateTensorParallel [] 100 [0, 1]]).Conserved :=
  (conserved_iff samplePooled_ok _).mpr ⟨Or.inr (by decide), by decide +kernel⟩

/-- A tensor-parallel handle over two devices is freed, and two blocks more than
those of the pools stay outstanding. -/
theorem parallel_leaks :
    let c := Client.run ⟨samplePooled, [], []⟩ [.allocateTensorParallel [] 100 [0, 1]]
    let c' := c.run (c.live.map (Call.free []))
    c'.live = [] ∧ c'.allocator.cuda.outstanding.length = 6 ∧
      c'.allocator.poolBlocks.length = 4 ∧ ¬c'.Conserved := by
  decide +kernel

end PooledKVAllocator

end Qwen
