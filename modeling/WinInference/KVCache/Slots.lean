import Mathlib.Algebra.Order.Group.Nat
import Mathlib.Data.Set.Lattice
import Mathlib.Order.CompletePartialOrder
import WinInference.KVCache.PooledLaws
import WinInference.Maps.Collect

/-!
# Slots have one owner

The owner of a slot of the pooled allocator is either the free stack of its pool
or one record of `allocation_slots_`.  Every operation keeps it that way:
allocation moves the top of the stack to a fresh record, `free` moves it back
once, and `reset` forgets the records together with the ids that were issued
under them, so a handle from before a reset finds no record.

A slot is a window of the K block and a window of the V block of its pool.
Windows of different slots do not meet.
-/

namespace Qwen

/-! ## Windows of a block -/

/-- The `n` bytes from a pointer on; a null pointer has none. -/
def Ptr.window (p : Ptr) (n : Nat) : Set DevicePtr :=
  {q | ∃ base, p = some base ∧ q.block = base.block ∧
    base.offset ≤ q.offset ∧ q.offset < base.offset + n}

/-- The windows of the slots `i` and `j` of one block. -/
theorem Ptr.window_disjoint {p : Ptr} {n i j : Nat} (hne : i ≠ j) :
    Disjoint ((p.shift (i * n)).window n) ((p.shift (j * n)).window n) := by
  rw [Set.disjoint_left]
  rintro q ⟨base, hbase, -, hlow, hhigh⟩ ⟨base', hbase', -, hlow', hhigh'⟩
  obtain ⟨root, rfl, rfl⟩ := Option.map_eq_some_iff.mp hbase
  obtain rfl : _ = base' := Option.some.inj hbase'
  dsimp only at hlow hhigh hlow' hhigh'
  rcases Nat.lt_or_gt_of_ne hne with hlt | hlt
  · have hnext : (i + 1) * n ≤ j * n := Nat.mul_le_mul_right n hlt
    rw [Nat.succ_mul] at hnext
    omega
  · have hnext : (j + 1) * n ≤ i * n := Nat.mul_le_mul_right n hlt
    rw [Nat.succ_mul] at hnext
    omega

/-- A slot lies in its block. -/
theorem Ptr.window_subset {p : Ptr} {n i slots : Nat} (hi : i < slots) :
    (p.shift (i * n)).window n ⊆ p.window (slots * n) := by
  rintro q ⟨base, hbase, hblock, hlow, hhigh⟩
  obtain ⟨root, rfl, rfl⟩ := Option.map_eq_some_iff.mp hbase
  dsimp only at hblock hlow hhigh
  have hnext : (i + 1) * n ≤ slots * n := Nat.mul_le_mul_right n hi
  rw [Nat.succ_mul] at hnext
  exact ⟨root, rfl, hblock, by omega, by omega⟩

/-! ## One pool -/

/-- The pool whose slots `taken` are handed out. -/
structure DevicePool.Exact (slotBytes : Nat) (pool : DevicePool) (taken : List Nat) : Prop where
  partition : (pool.freeSlots ++ taken).Perm (List.range pool.slots.length)
  marked : ∀ i slot, pool.slots[i]? = some slot → (slot.inUse = true ↔ i ∈ taken)
  placed : ∀ i slot, pool.slots[i]? = some slot →
    slot.kCache = pool.poolMemoryK.shift (i * (slotBytes / 2)) ∧
      slot.vCache = pool.poolMemoryV.shift (i * (slotBytes / 2))
  used : pool.stats.usedBytes = slotBytes * taken.length
  balance : pool.stats.usedBytes + pool.stats.freeBytes = pool.stats.totalBytes
  total : pool.stats.totalBytes = slotBytes * pool.slots.length
  bounded : pool.stats.totalBytes < 2 ^ 64
  active : Wrapping.Tracks 32 pool.stats.activeAllocations taken.length

namespace DevicePool.Exact

variable {slotBytes : Nat} {pool : DevicePool} {taken taken' free' : List Nat} {i : Nat}

/-- No slot is free twice, or free and taken. -/
theorem nodup (h : pool.Exact slotBytes taken) : (pool.freeSlots ++ taken).Nodup :=
  h.partition.nodup_iff.mpr List.nodup_range

/-- A taken slot is one of the pool. -/
theorem taken_lt (h : pool.Exact slotBytes taken) (hi : i ∈ taken) : i < pool.slots.length :=
  List.mem_range.mp (h.partition.mem_iff.mp (List.mem_append_right _ hi))

/-- So is a free one. -/
theorem free_lt (h : pool.Exact slotBytes taken) (hi : i ∈ pool.freeSlots) :
    i < pool.slots.length :=
  List.mem_range.mp (h.partition.mem_iff.mp (List.mem_append_left _ hi))

/-- No more are taken than there are. -/
theorem length_le (h : pool.Exact slotBytes taken) : taken.length ≤ pool.slots.length := by
  have hlength := h.partition.length_eq
  rw [List.length_append, List.length_range] at hlength
  omega

/-- The order of the taken slots does not matter. -/
theorem perm (h : pool.Exact slotBytes taken) (hp : taken.Perm taken') :
    pool.Exact slotBytes taken' where
  partition := (hp.symm.append_left _).trans h.partition
  marked i slot hslot := (h.marked i slot hslot).trans hp.mem_iff
  placed := h.placed
  used := hp.length_eq ▸ h.used
  balance := h.balance
  total := h.total
  bounded := h.bounded
  active := hp.length_eq ▸ h.active

/-- As many slots are in use as are handed out. -/
theorem inUse_count (h : pool.Exact slotBytes taken) :
    pool.slots.countP (·.inUse) = taken.length := by
  have hslots : pool.slots =
      (List.range pool.slots.length).map fun i => pool.slots.getD i {} := by
    refine List.ext_getElem (by simp) fun i hi _ => ?_
    simp [List.getElem?_eq_getElem hi]
  have hmarked : ∀ i ∈ List.range pool.slots.length,
      ((·.inUse) ∘ fun i => pool.slots.getD i {}) i = true ↔ (decide (i ∈ taken)) = true := by
    intro i hi
    have hlt := List.mem_range.mp hi
    have hslot := List.getElem?_eq_getElem hlt
    rw [Function.comp_apply, List.getD_eq_getElem?_getD, hslot, decide_eq_true_iff]
    exact h.marked i _ hslot
  have hdisjoint := List.nodup_append.mp h.nodup
  rw [hslots, List.countP_map, List.countP_congr hmarked, ← h.partition.countP_eq,
    List.countP_append, List.countP_eq_zero.mpr, List.countP_eq_length.mpr]
  · omega
  · exact fun j hj => decide_eq_true hj
  · intro j hj
    rw [decide_eq_true_iff]
    exact fun hj' => hdisjoint.2.2 j hj j hj' rfl

/-- Marking one slot. -/
theorem marked_set (h : pool.Exact slotBytes taken) {inUse : Bool}
    (hother : ∀ j, j ≠ i → (j ∈ taken ↔ j ∈ taken')) (hself : inUse = true ↔ i ∈ taken') :
    ∀ j slot, (pool.slots.set i { pool.slots.getD i {} with inUse := inUse })[j]? = some slot →
      (slot.inUse = true ↔ j ∈ taken') := by
  intro j slot hslot
  rw [List.getElem?_set] at hslot
  by_cases hj : i = j
  · rw [if_pos hj] at hslot
    subst hj
    split at hslot
    · cases hslot
      exact hself
    · cases hslot
  · rw [if_neg hj] at hslot
    exact (h.marked j slot hslot).trans (hother j (Ne.symm hj))

/-- A mark leaves the windows where they are. -/
theorem placed_set (h : pool.Exact slotBytes taken) (i : Nat) (inUse : Bool) :
    ∀ j slot, (pool.slots.set i { pool.slots.getD i {} with inUse := inUse })[j]? = some slot →
      slot.kCache = pool.poolMemoryK.shift (j * (slotBytes / 2)) ∧
        slot.vCache = pool.poolMemoryV.shift (j * (slotBytes / 2)) := by
  intro j slot hslot
  rw [List.getElem?_set] at hslot
  by_cases hj : i = j
  · rw [if_pos hj] at hslot
    subst hj
    split at hslot
    next hlt =>
      cases hslot
      rw [List.getD_eq_getElem?_getD, List.getElem?_eq_getElem hlt]
      exact h.placed i pool.slots[i] (List.getElem?_eq_getElem hlt)
    next => cases hslot
  · rw [if_neg hj] at hslot
    exact h.placed j slot hslot

/-- The top of the free stack is handed out. -/
theorem take (h : pool.Exact slotBytes taken) (hfree : pool.freeSlots = i :: free') :
    Exact slotBytes
      { pool with
        freeSlots := free'
        slots := pool.slots.set i { pool.slots.getD i {} with inUse := true }
        stats := pool.stats.charge slotBytes } (i :: taken) := by
  have hsplit : (i :: free' ++ taken).Perm (List.range pool.slots.length) := hfree ▸ h.partition
  have hlength : taken.length + 1 ≤ pool.slots.length := by
    have hlength := hsplit.length_eq
    rw [List.length_append, List.length_cons, List.length_range] at hlength
    omega
  have hroom : slotBytes * (taken.length + 1) ≤ pool.stats.totalBytes := by
    rw [h.total]
    exact Nat.mul_le_mul_left slotBytes hlength
  have hbalance := h.balance
  have hbounded := h.bounded
  rw [Nat.mul_succ, ← h.used] at hroom
  have hused : sizeAdd pool.stats.usedBytes slotBytes = pool.stats.usedBytes + slotBytes :=
    Wrapping.add_of_lt (by omega)
  have hfreed : sizeSub pool.stats.freeBytes slotBytes = pool.stats.freeBytes - slotBytes :=
    Wrapping.sub_of_le (by omega) (by omega)
  constructor
  · simpa using List.perm_middle.trans hsplit
  · refine h.marked_set (fun j hj => ?_) (by simp)
    simp [hj]
  · exact h.placed_set i true
  · simp only [MemoryStats.charge, List.length_cons]
    rw [hused, h.used, Nat.mul_succ]
  · simp only [MemoryStats.charge]
    rw [hused, hfreed]
    omega
  · simpa [MemoryStats.charge] using h.total
  · simpa [MemoryStats.charge] using h.bounded
  · exact h.active.charge 1

/-- A slot that was handed out is put on the free stack. -/
theorem put (h : pool.Exact slotBytes (i :: taken)) :
    Exact slotBytes
      { pool with
        slots := pool.slots.set i { pool.slots.getD i {} with inUse := false }
        freeSlots := i :: pool.freeSlots
        stats := (pool.stats.releaseBytes slotBytes).countFree } taken := by
  have hnodup := (List.nodup_append.mp h.nodup).2.1
  have hbalance := h.balance
  have hbounded := h.bounded
  have hheld := h.used
  rw [List.length_cons, Nat.mul_succ] at hheld
  have hused : sizeSub pool.stats.usedBytes slotBytes = pool.stats.usedBytes - slotBytes :=
    Wrapping.sub_of_le (by omega) (by omega)
  have hfreed : sizeAdd pool.stats.freeBytes slotBytes = pool.stats.freeBytes + slotBytes :=
    Wrapping.add_of_lt (by omega)
  constructor
  · simpa using List.perm_middle.symm.trans h.partition
  · refine h.marked_set (fun j hj => ?_) ?_
    · simp [hj]
    · simpa using (List.nodup_cons.mp hnodup).1
  · exact h.placed_set i false
  · simp only [MemoryStats.countFree, MemoryStats.releaseBytes]
    rw [hused]
    omega
  · simp only [MemoryStats.countFree, MemoryStats.releaseBytes]
    rw [hused, hfreed]
    omega
  · simpa [MemoryStats.countFree, MemoryStats.releaseBytes] using h.total
  · simpa [MemoryStats.countFree, MemoryStats.releaseBytes] using h.bounded
  · exact h.active.release

/-- After a reset no slot is taken. -/
theorem reset (h : pool.Exact slotBytes taken) :
    (PooledKVAllocator.resetPool pool).Exact slotBytes [] := by
  constructor
  · simp [PooledKVAllocator.resetPool]
  · intro i slot hslot
    rw [PooledKVAllocator.resetPool, List.getElem?_map] at hslot
    obtain ⟨slot', -, rfl⟩ := Option.map_eq_some_iff.mp hslot
    simp
  · intro i slot hslot
    rw [PooledKVAllocator.resetPool, List.getElem?_map] at hslot
    obtain ⟨slot', hslot', rfl⟩ := Option.map_eq_some_iff.mp hslot
    exact h.placed i slot' hslot'
  · rfl
  · exact Nat.zero_add _
  · simpa [PooledKVAllocator.resetPool] using h.total
  · exact h.bounded
  · exact Wrapping.Tracks.zero 32

end DevicePool.Exact

/-- A pool that is not there. -/
theorem DevicePool.exact_default (slotBytes : Nat) :
    ({} : DevicePool).Exact slotBytes [] :=
  ⟨List.Perm.refl _, by simp, by simp, rfl, rfl, rfl, by decide,
    Wrapping.Tracks.zero 32⟩

namespace PooledKVAllocator

variable {a a' : PooledKVAllocator} {n : Nat} {d : Int}

/-! ## All pools -/

/-- The slot that a record keeps on a device. -/
def recordedSlot (deviceId : Int) : SlotRecord → Option Nat
  | (d, slotIdx, isOverflow) => if d = deviceId ∧ isOverflow = false then some slotIdx else none

/-- The slots of a device that `allocation_slots_` records as handed out. -/
def taken (a : PooledKVAllocator) (deviceId : Int) : List Nat :=
  a.allocationSlots.collect (recordedSlot deviceId)

/-- Every slot has one owner. -/
structure Slotted (a : PooledKVAllocator) : Prop where
  pools : ∀ d, (a.poolAt d).Exact a.slotBytes (a.taken d)
  fresh : ∀ id, a.nextAllocationId ≤ id → id ∉ a.allocationSlots
  primary : ∀ id d i, a.allocationSlots.lookup id = some (d, i, false) → d = a.config.deviceId

/-- What no operation changes. -/
structure SameBlocks (a a' : PooledKVAllocator) : Prop where
  config : a'.config = a.config
  poolConfig : a'.poolConfig = a.poolConfig
  slotBytes : a'.slotBytes = a.slotBytes
  blockK : ∀ d, (a'.poolAt d).poolMemoryK = (a.poolAt d).poolMemoryK
  blockV : ∀ d, (a'.poolAt d).poolMemoryV = (a.poolAt d).poolMemoryV
  slots : ∀ d, (a'.poolAt d).slots.length = (a.poolAt d).slots.length

/-- The pools are not touched. -/
theorem SameBlocks.ofPools (hconfig : a'.config = a.config)
    (hpoolConfig : a'.poolConfig = a.poolConfig) (hbytes : a'.slotBytes = a.slotBytes)
    (hpools : ∀ d, a'.poolAt d = a.poolAt d) : SameBlocks a a' :=
  ⟨hconfig, hpoolConfig, hbytes, fun d => by rw [hpools], fun d => by rw [hpools],
    fun d => by rw [hpools]⟩

/-- The same blocks twice over. -/
theorem SameBlocks.trans {a'' : PooledKVAllocator} (h : SameBlocks a a')
    (h' : SameBlocks a' a'') : SameBlocks a a'' where
  config := h'.config.trans h.config
  poolConfig := h'.poolConfig.trans h.poolConfig
  slotBytes := h'.slotBytes.trans h.slotBytes
  blockK d := (h'.blockK d).trans (h.blockK d)
  blockV d := (h'.blockV d).trans (h.blockV d)
  slots d := (h'.slots d).trans (h.slots d)

/-- The relation is symmetric. -/
theorem SameBlocks.symm (h : SameBlocks a a') : SameBlocks a' a :=
  ⟨h.config.symm, h.poolConfig.symm, h.slotBytes.symm, fun d => (h.blockK d).symm,
    fun d => (h.blockV d).symm, fun d => (h.slots d).symm⟩

/-- The pools after one of them is replaced. -/
theorem poolAt_insert {pool : DevicePool} {deviceId : Int}
    (hpools : a'.devicePools = a.devicePools.insert deviceId pool) :
    a'.poolAt d = if d = deviceId then pool else a.poolAt d := by
  unfold poolAt
  rw [hpools]
  by_cases hd : d = deviceId
  · subst hd
    simp
  · simp [hd]

/-- One pool is replaced by another with the same blocks. -/
theorem SameBlocks.setPool {pool : DevicePool} {deviceId : Int} (hconfig : a'.config = a.config)
    (hpoolConfig : a'.poolConfig = a.poolConfig) (hbytes : a'.slotBytes = a.slotBytes)
    (hpools : a'.devicePools = a.devicePools.insert deviceId pool)
    (hk : pool.poolMemoryK = (a.poolAt deviceId).poolMemoryK)
    (hv : pool.poolMemoryV = (a.poolAt deviceId).poolMemoryV)
    (hslots : pool.slots.length = (a.poolAt deviceId).slots.length) : SameBlocks a a' := by
  refine ⟨hconfig, hpoolConfig, hbytes, fun d => ?_, fun d => ?_, fun d => ?_⟩ <;>
    rw [poolAt_insert hpools] <;> split
  next hd => rw [hd, hk]
  next => rfl
  next hd => rw [hd, hv]
  next => rfl
  next hd => rw [hd, hslots]
  next => rfl

/-- A pool that is created empty was seen as empty before. -/
@[simp] theorem withPool_poolAt : a.withPool.poolAt d = a.poolAt d := by
  have hinsert : a.withPool.poolAt d = if d = _ then a.poolAt _ else a.poolAt d :=
    poolAt_insert rfl
  rw [hinsert]
  split
  next hd => rw [hd]
  next => rfl

/-- An overflow record leaves the pools alone. -/
@[simp] theorem recorded_poolAt (deviceId : Int) (c : Cuda) :
    (a.recorded deviceId c).poolAt d = a.poolAt d := rfl

/-- A reset frees the slots of every pool that is there. -/
theorem reset_poolAt : a.reset.poolAt d = resetPool (a.poolAt d) ∨
    a.reset.poolAt d = {} ∧ a.poolAt d = {} := by
  have hlookup : a.reset.devicePools.lookup d = (a.devicePools.lookup d).map resetPool :=
    List.dlookup_map₂ d
  unfold poolAt
  rw [hlookup]
  cases a.devicePools.lookup d with
  | none => exact Or.inr ⟨rfl, rfl⟩
  | some pool => exact Or.inl rfl

namespace Slotted

/-- A change of neither the pools nor the records. -/
theorem keep (h : Slotted a) (hconfig : a'.config = a.config)
    (hbytes : a'.slotBytes = a.slotBytes) (hpools : ∀ d, a'.poolAt d = a.poolAt d)
    (hrecords : a'.allocationSlots = a.allocationSlots)
    (hnext : a.nextAllocationId ≤ a'.nextAllocationId) : Slotted a' where
  pools d := by
    rw [hpools, hbytes, taken, hrecords]
    exact h.pools d
  fresh id hid := by
    rw [hrecords]
    exact h.fresh id (hnext.trans hid)
  primary id d i hid := by
    rw [hconfig]
    rw [hrecords] at hid
    exact h.primary id d i hid

/-- An empty pool has no owners. -/
theorem withPool (h : Slotted a) : Slotted a.withPool :=
  h.keep rfl rfl (fun _ => withPool_poolAt) rfl (Nat.le_refl _)

/-- A fresh id is recorded. -/
theorem next_fresh (h : Slotted a) : a.nextAllocationId ∉ a.allocationSlots :=
  h.fresh _ (Nat.le_refl _)

/-- The ids after a fresh one is recorded. -/
theorem fresh_insert (h : Slotted a) {record : SlotRecord} {id : Nat}
    (hid : a.nextAllocationId + 1 ≤ id) :
    id ∉ a.allocationSlots.insert a.nextAllocationId record := by
  rw [AList.mem_insert]
  rintro (hsame | hold)
  · omega
  · exact h.fresh id (by omega) hold

/-- An allocation outside the pools. -/
theorem recorded (h : Slotted a) (deviceId : Int) (c : Cuda) :
    Slotted (a.recorded deviceId c) where
  pools d := by
    have htaken : (a.recorded deviceId c).taken d = a.taken d := by
      unfold taken PooledKVAllocator.recorded
      rw [AList.collect_insert h.next_fresh]
      simp [recordedSlot]
    rw [htaken]
    exact h.pools d
  fresh _ hid := h.fresh_insert hid
  primary id d i hid := by
    unfold PooledKVAllocator.recorded at hid
    by_cases hnew : id = a.nextAllocationId
    · subst hnew
      simp at hid
    · rw [AList.lookup_insert_ne hnew] at hid
      exact h.primary id d i hid

/-- An allocation from the pool. -/
theorem takeSlot (h : Slotted a) {slotIdx : Nat} {freeSlots : List Nat}
    (hfree : (a.poolAt a.config.deviceId).freeSlots = slotIdx :: freeSlots) :
    Slotted (a.takeSlot n (a.poolAt a.config.deviceId) slotIdx freeSlots).2 where
  pools d := by
    unfold PooledKVAllocator.takeSlot taken
    dsimp only
    rw [AList.collect_insert h.next_fresh]
    by_cases hd : d = a.config.deviceId
    · subst hd
      simpa [poolAt, recordedSlot, taken] using (h.pools a.config.deviceId).take hfree
    · have hother : ¬ a.config.deviceId = d := Ne.symm hd
      simpa [poolAt, recordedSlot, taken, hd, hother] using h.pools d
  fresh _ hid := h.fresh_insert hid
  primary id d i hid := by
    unfold PooledKVAllocator.takeSlot at hid ⊢
    dsimp only at hid ⊢
    by_cases hnew : id = a.nextAllocationId
    · subst hnew
      rw [AList.lookup_insert] at hid
      cases hid
      rfl
    · rw [AList.lookup_insert_ne hnew] at hid
      exact h.primary id d i hid

/-- A record is erased, with its slot already put back. -/
theorem erase (h : Slotted a) (hconfig : a'.config = a.config) {id : Nat}
    (hrecords : a'.allocationSlots = a.allocationSlots.erase id)
    (hnext : a'.nextAllocationId = a.nextAllocationId)
    (hpools : ∀ d, (a'.poolAt d).Exact a'.slotBytes (a'.taken d)) : Slotted a' where
  pools := hpools
  fresh id' hid' := by
    rw [hrecords, AList.mem_erase]
    exact fun hmem => h.fresh id' (hnext ▸ hid') hmem.2
  primary id' d i hid' := by
    rw [hconfig]
    rw [hrecords] at hid'
    by_cases hsame : id' = id
    · subst hsame
      rw [AList.lookup_erase] at hid'
      cases hid'
    · rw [AList.lookup_erase_ne hsame] at hid'
      exact h.primary id' d i hid'

/-- **Free**, of any handle. -/
theorem free (h : Slotted a) (handle : KVCacheHandle) : Slotted (a.free handle).2 := by
  by_cases hvalid : handle.isValid
  · obtain ⟨-, ⟨-, heq⟩ | ⟨dev, idx, hrecord, heq⟩ | ⟨dev, idx, hrecord, heq⟩⟩ :=
      free_valid_cases (a := a) hvalid
    · rw [heq]
      exact h
    · rw [heq]
      refine h.erase rfl rfl rfl fun d => (h.pools d).perm ?_
      have htaken := AList.collect_erase (f := recordedSlot d) hrecord
      simpa [recordedSlot, taken] using htaken
    · rw [heq]
      refine h.erase rfl rfl rfl fun d => ?_
      have htaken := AList.collect_erase (f := recordedSlot d) hrecord
      by_cases hd : d = dev
      · subst hd
        have hpool : (a.poolAt d).Exact a.slotBytes
            (idx :: (a.allocationSlots.erase handle.allocationId).collect (recordedSlot d)) :=
          (h.pools d).perm (by simpa [recordedSlot, taken] using htaken)
        simpa [poolAt, returnSlot, taken] using hpool.put
      · have hother : ¬ dev = d := Ne.symm hd
        have hpool := (h.pools d).perm (by simpa [recordedSlot, taken, hother] using htaken)
        simpa [poolAt, returnSlot, taken, hd] using hpool
  · rw [free_invalid (by simpa using hvalid)]
    exact h

/-- **Reset.** -/
theorem reset (h : Slotted a) : Slotted a.reset where
  pools d := by
    obtain heq | ⟨heq, -⟩ := reset_poolAt (a := a) (d := d)
    · rw [heq]
      exact (h.pools d).reset
    · rw [heq]
      exact DevicePool.exact_default _
  fresh id _ := AList.notMem_empty id
  primary id d i hid := by
    have hempty : a.reset.allocationSlots = ∅ := rfl
    rw [hempty, AList.lookup_empty] at hid
    cases hid

end Slotted

/-! ## What an operation leaves behind -/

/-- The handle lies in a slot of its pool that is large enough for it. -/
structure InSlot (a : PooledKVAllocator) (h : KVCacheHandle) (slotIdx : Nat) : Prop where
  kCache : h.kCache = (a.poolAt h.deviceId).poolMemoryK.shift (slotIdx * (a.slotBytes / 2))
  vCache : h.vCache = (a.poolAt h.deviceId).poolMemoryV.shift (slotIdx * (a.slotBytes / 2))
  fits : h.maxSeqLen ≤ a.poolConfig.slotSizeTokens

/-- Where a handle lies depends on the blocks alone. -/
theorem InSlot.congr {h : KVCacheHandle} {i : Nat} (hs : InSlot a h i) (hsame : SameBlocks a a') :
    InSlot a' h i where
  kCache := by
    rw [hsame.blockK, hsame.slotBytes]
    exact hs.kCache
  vCache := by
    rw [hsame.blockV, hsame.slotBytes]
    exact hs.vCache
  fits := by
    rw [hsame.poolConfig]
    exact hs.fits

/-- An operation that hands nothing out. -/
structure Refused (a a' : PooledKVAllocator) : Prop where
  slotted : Slotted a'
  same : SameBlocks a a'
  records : a'.allocationSlots = a.allocationSlots
  next : a.nextAllocationId ≤ a'.nextAllocationId

/-- An operation that hands out a handle. -/
structure Issued (a a' : PooledKVAllocator) (h : KVCacheHandle) : Prop where
  slotted : Slotted a'
  same : SameBlocks a a'
  id : h.allocationId = a.nextAllocationId
  next : a'.nextAllocationId = a.nextAllocationId + 1
  record : ∃ record : SlotRecord,
    a'.allocationSlots = a.allocationSlots.insert a.nextAllocationId record ∧
      ∀ d i, record = (d, i, false) → d = h.deviceId ∧ InSlot a h i

/-- The outcome of an allocation. -/
def Settled (a : PooledKVAllocator) : Result KVCacheHandle × PooledKVAllocator → Prop
  | (.ok h, a') => Issued a a' h
  | (.error _, a') => Refused a a'

/-- An outcome after a step that hands nothing out. -/
theorem Settled.widen {outcome : Result KVCacheHandle × PooledKVAllocator}
    (h : Settled a' outcome) (hsame : SameBlocks a a')
    (hrecords : a'.allocationSlots = a.allocationSlots)
    (hnext : a'.nextAllocationId = a.nextAllocationId) : Settled a outcome := by
  obtain ⟨e | handle, a''⟩ := outcome
  · obtain ⟨hslotted, hsame', hrecords', hnext'⟩ := h
    exact ⟨hslotted, hsame.trans hsame', hrecords'.trans hrecords, hnext ▸ hnext'⟩
  · obtain ⟨hslotted, hsame', hid, hnext', record, hrecords', hslot⟩ := h
    refine ⟨hslotted, hsame.trans hsame', hid.trans hnext, by rw [hnext', hnext], record,
      by rw [hrecords', hrecords, hnext], fun d i hrecord => ?_⟩
    obtain ⟨hd, hin⟩ := hslot d i hrecord
    exact ⟨hd, hin.congr hsame.symm⟩

/-- Only the device memory moves. -/
theorem Slotted.refused (h : Slotted a) (c : Cuda) {next : Nat}
    (hnext : a.nextAllocationId ≤ next) :
    Refused a { a with cuda := c, nextAllocationId := next } :=
  ⟨h.keep rfl rfl (fun _ => rfl) rfl hnext, .ofPools rfl rfl rfl fun _ => rfl, rfl, hnext⟩

/-- Outside the pools nothing is handed out of a slot. -/
theorem Slotted.outside (h : Slotted a) {handle : KVCacheHandle} (deviceId : Int) (c : Cuda)
    (hid : handle.allocationId = a.nextAllocationId) :
    Issued a (a.recorded deviceId c) handle :=
  ⟨h.recorded deviceId c, .ofPools rfl rfl rfl fun _ => rfl, hid, rfl, _, rfl,
    fun _ _ hrecord => by cases hrecord⟩

/-- An overflow takes no slot. -/
theorem Slotted.overflow (h : Slotted a) (n : Nat) : Settled a (a.overflow n) := by
  obtain ⟨e, c, heq, -⟩ | ⟨k, v, c, heq, -⟩ := overflow_cases a n
  · rw [heq]
    exact h.refused c (Nat.le_refl _)
  · rw [heq]
    exact h.outside a.config.deviceId c rfl

/-- Creating an empty pool moves no block. -/
theorem withPool_same : SameBlocks a a.withPool :=
  .ofPools rfl rfl rfl fun _ => withPool_poolAt

/-- An allocation takes a slot of the primary device, and the handle lies in it. -/
theorem Slotted.issued (h : Slotted a) {slotIdx : Nat} {freeSlots : List Nat}
    (hfits : n ≤ a.poolConfig.slotSizeTokens)
    (hfree : (a.poolAt a.config.deviceId).freeSlots = slotIdx :: freeSlots) :
    Issued a (a.takeSlot n (a.poolAt a.config.deviceId) slotIdx freeSlots).2
      (a.takeSlot n (a.poolAt a.config.deviceId) slotIdx freeSlots).1 := by
  have hsame : SameBlocks a (a.takeSlot n (a.poolAt a.config.deviceId) slotIdx freeSlots).2 :=
    .setPool rfl rfl rfl rfl rfl rfl (by simp)
  refine ⟨h.takeSlot hfree, hsame, rfl, rfl, _, rfl, fun d i hrecord => ?_⟩
  cases hrecord
  have hlt : slotIdx < (a.poolAt a.config.deviceId).slots.length :=
    (h.pools a.config.deviceId).free_lt (by rw [hfree]; exact List.mem_cons_self)
  obtain ⟨hk, hv⟩ := (h.pools a.config.deviceId).placed slotIdx _ (List.getElem?_eq_getElem hlt)
  refine ⟨rfl, ?_, ?_, hfits⟩ <;>
    simp only [PooledKVAllocator.takeSlot, List.getD_eq_getElem?_getD,
      List.getElem?_eq_getElem hlt, Option.getD_some]
  · exact hk
  · exact hv

/-- An allocation hands out a slot nobody has, or none. -/
theorem Slotted.allocate (h : Slotted a) (n : Nat) : Settled a (a.allocate n) := by
  unfold PooledKVAllocator.allocate
  by_cases hfits : n ≤ a.poolConfig.slotSizeTokens
  · rw [if_pos hfits]
    dsimp only
    cases hfree : (a.poolAt a.config.deviceId).freeSlots with
    | nil =>
        exact (h.withPool.overflow n).widen withPool_same rfl rfl
    | cons slotIdx freeSlots => exact h.issued hfits hfree
  · rw [if_neg hfits]
    exact h.overflow n

/-- A tensor-parallel allocation hands out none. -/
theorem Slotted.allocateTensorParallel (h : Slotted a) (n : Nat) (devices : List Int) :
    Settled a (a.allocateTensorParallel n devices) := by
  cases devices with
  | nil => exact h.allocate n
  | cons primary rest =>
      obtain ⟨e, c, heq, -⟩ | ⟨caches, c, heq, -⟩ :=
        allocateTensorParallel_cases a n primary rest
      · rw [heq]
        exact h.refused c (Nat.le_succ _)
      · rw [heq]
        exact h.outside primary c rfl

/-- A release moves no block. -/
theorem free_same (a : PooledKVAllocator) (h : KVCacheHandle) : SameBlocks a (a.free h).2 := by
  by_cases hvalid : h.isValid
  · obtain ⟨-, ⟨-, heq⟩ | ⟨dev, idx, -, heq⟩ | ⟨dev, idx, -, heq⟩⟩ :=
      free_valid_cases (a := a) hvalid
    · rw [heq]
      exact .ofPools rfl rfl rfl fun _ => rfl
    · rw [heq]
      exact .ofPools rfl rfl rfl fun _ => rfl
    · rw [heq]
      exact .setPool rfl rfl rfl rfl rfl rfl (by simp)
  · rw [free_invalid (by simpa using hvalid)]
    exact .ofPools rfl rfl rfl fun _ => rfl

/-- Nor does a reset. -/
theorem reset_same (a : PooledKVAllocator) : SameBlocks a a.reset := by
  refine ⟨rfl, rfl, rfl, fun d => ?_, fun d => ?_, fun d => ?_⟩ <;>
    obtain heq | ⟨heq, hold⟩ := reset_poolAt (a := a) (d := d)
  · rw [heq]; rfl
  · rw [heq, hold]
  · rw [heq]; rfl
  · rw [heq, hold]
  · rw [heq]; simp [resetPool]
  · rw [heq, hold]

/-- What is recorded after `free`: the id of the handle is gone, the others are
as they were. -/
theorem free_lookup {h : KVCacheHandle} {id : Nat} (hne : id ≠ h.allocationId) :
    (a.free h).2.allocationSlots.lookup id = a.allocationSlots.lookup id := by
  by_cases hvalid : h.isValid
  · obtain ⟨-, ⟨-, heq⟩ | ⟨dev, idx, -, heq⟩ | ⟨dev, idx, -, heq⟩⟩ :=
      free_valid_cases (a := a) hvalid
    · rw [heq]
    · rw [heq]
      exact AList.lookup_erase_ne hne
    · rw [heq]
      exact AList.lookup_erase_ne hne
  · rw [free_invalid (by simpa using hvalid)]

/-- Ids are not given back. -/
theorem free_next (a : PooledKVAllocator) (h : KVCacheHandle) :
    (a.free h).2.nextAllocationId = a.nextAllocationId := by
  by_cases hvalid : h.isValid
  · obtain ⟨-, ⟨-, heq⟩ | ⟨dev, idx, -, heq⟩ | ⟨dev, idx, -, heq⟩⟩ :=
      free_valid_cases (a := a) hvalid <;> exact congrArg (·.nextAllocationId) heq
  · rw [free_invalid (by simpa using hvalid)]

/-! ## A client that may free any handle -/

/-- One call of a client, with resets. -/
inductive PoolCall where
  | allocate (answers : List (Option String)) (maxSeqLen : Nat)
  | allocateTensorParallel (answers : List (Option String)) (maxSeqLen : Nat)
      (deviceIds : List Int)
  | free (answers : List (Option String)) (handle : KVCacheHandle)
  | reset

/-- An allocator with the handles handed out since the last reset and not yet
freed. -/
structure PoolClient where
  allocator : PooledKVAllocator
  live : List KVCacheHandle := []

namespace PoolClient

/-- The client keeps the handle of an allocation that succeeded. -/
def receive (c : PoolClient) : Result KVCacheHandle × PooledKVAllocator → PoolClient
  | (.ok h, a) => { allocator := a, live := h :: c.live }
  | (.error _, a) => { c with allocator := a }

/-- Any handle may be freed: a live one or a copy of it, one that was freed
before, or one from before a reset. -/
def step (c : PoolClient) : PoolCall → PoolClient
  | .allocate answers n => c.receive ((c.allocator.withAnswers answers).allocate n)
  | .allocateTensorParallel answers n devices =>
      c.receive ((c.allocator.withAnswers answers).allocateTensorParallel n devices)
  | .free answers h =>
      { allocator := ((c.allocator.withAnswers answers).free h).2
        live :=
          if h.isValid then c.live.filter (·.allocationId ≠ h.allocationId) else c.live }
  | .reset => { allocator := c.allocator.reset, live := [] }

/-- The calls of a client, one after the other. -/
def run (c : PoolClient) (calls : List PoolCall) : PoolClient := calls.foldl step c

/-- The slots have one owner each, and a live handle that is recorded with a slot
lies in it. -/
structure Kept (a₀ : PooledKVAllocator) (c : PoolClient) : Prop where
  slotted : Slotted c.allocator
  same : SameBlocks a₀ c.allocator
  issued : ∀ h ∈ c.live, h.allocationId < c.allocator.nextAllocationId
  distinct : c.live.Pairwise (·.allocationId ≠ ·.allocationId)
  placed : ∀ h ∈ c.live, ∀ d i,
    c.allocator.allocationSlots.lookup h.allocationId = some (d, i, false) →
      d = h.deviceId ∧ InSlot a₀ h i

end PoolClient

section Kept

variable {a₀ : PooledKVAllocator} {c : PoolClient} {live : List KVCacheHandle}

/-- The answers of the runtime have no part in it. -/
theorem Slotted.withAnswers (h : Slotted a) (answers : List (Option String)) :
    Slotted (a.withAnswers answers) :=
  h.keep rfl rfl (fun _ => rfl) rfl (Nat.le_refl _)

/-- The client goes on with what an allocation gave it. -/
theorem PoolClient.Kept.receive {outcome : Result KVCacheHandle × PooledKVAllocator}
    (hk : PoolClient.Kept a₀ ⟨a, live⟩) (h : Settled a outcome) :
    PoolClient.Kept a₀ (PoolClient.receive ⟨a, live⟩ outcome) := by
  obtain ⟨e | handle, a'⟩ := outcome
  · obtain ⟨hslotted, hsame, hrecords, hnext⟩ := h
    refine ⟨hslotted, hk.same.trans hsame, fun h' hmem => (hk.issued h' hmem).trans_le hnext,
      hk.distinct, fun h' hmem d i hid => hk.placed h' hmem d i ?_⟩
    rw [← hrecords]
    exact hid
  · obtain ⟨hslotted, hsame, hid, hnext, record, hrecords, hslot⟩ := h
    have hold : ∀ h' ∈ live, h'.allocationId < a.nextAllocationId := hk.issued
    refine ⟨hslotted, hk.same.trans hsame, ?_, ?_, ?_⟩
    · refine List.forall_mem_cons.mpr ⟨?_, fun h' hmem => ?_⟩ <;> dsimp only [PoolClient.receive]
      · omega
      · have := hold h' hmem
        omega
    · refine List.pairwise_cons.mpr ⟨fun h' hmem => ?_, hk.distinct⟩
      have := hold h' hmem
      omega
    · dsimp only [PoolClient.receive]
      refine List.forall_mem_cons.mpr ⟨fun d i hlookup => ?_, fun h' hmem d i hlookup => ?_⟩
      · rw [hrecords, hid, AList.lookup_insert] at hlookup
        obtain ⟨hd, hin⟩ := hslot d i (Option.some.inj hlookup)
        exact ⟨hd, hin.congr hk.same.symm⟩
      · have hne : h'.allocationId ≠ a.nextAllocationId := (hold h' hmem).ne
        rw [hrecords, AList.lookup_insert_ne hne] at hlookup
        exact hk.placed h' hmem d i hlookup

/-- A handle is freed. -/
theorem PoolClient.Kept.free (hk : PoolClient.Kept a₀ ⟨a, live⟩) (h : KVCacheHandle) :
    PoolClient.Kept a₀ ⟨(a.free h).2,
      if h.isValid then live.filter (·.allocationId ≠ h.allocationId) else live⟩ := by
  by_cases hvalid : h.isValid
  · rw [if_pos hvalid]
    refine ⟨hk.slotted.free h, hk.same.trans (free_same a h), fun h' hmem => ?_,
      hk.distinct.sublist List.filter_sublist, fun h' hmem d i hid => ?_⟩
    · dsimp only
      rw [free_next]
      exact hk.issued h' (List.mem_of_mem_filter hmem)
    · obtain ⟨hmem, hne⟩ := List.mem_filter.mp hmem
      dsimp only at hid
      rw [free_lookup (of_decide_eq_true hne)] at hid
      exact hk.placed h' hmem d i hid
  · rw [if_neg hvalid, free_invalid (by simpa using hvalid)]
    exact hk

/-- **One call.** -/
theorem PoolClient.Kept.step (hk : PoolClient.Kept a₀ c) (call : PoolCall) :
    PoolClient.Kept a₀ (c.step call) := by
  obtain ⟨a, live⟩ := c
  have hanswers : ∀ answers, PoolClient.Kept a₀ ⟨a.withAnswers answers, live⟩ := fun answers =>
    ⟨hk.slotted.withAnswers answers, hk.same.trans (.ofPools rfl rfl rfl fun _ => rfl), hk.issued,
      hk.distinct, hk.placed⟩
  cases call with
  | allocate answers n => exact (hanswers answers).receive ((hanswers answers).slotted.allocate n)
  | allocateTensorParallel answers n devices =>
      exact (hanswers answers).receive
        ((hanswers answers).slotted.allocateTensorParallel n devices)
  | free answers h => exact (hanswers answers).free h
  | reset =>
      exact ⟨hk.slotted.reset, hk.same.trans (reset_same a), by simp [PoolClient.step],
        List.Pairwise.nil, by simp [PoolClient.step]⟩

/-- **Every run.** -/
theorem PoolClient.Kept.run (hk : PoolClient.Kept a₀ c) (calls : List PoolCall) :
    PoolClient.Kept a₀ (c.run calls) := by
  induction calls generalizing c with
  | nil => exact hk
  | cons call rest ih => exact ih (hk.step call)

end Kept

/-! ## Initialization -/

section Initialization

variable {poolConfig : PooledAllocatorConfig} {config : KVAllocatorConfig} {cuda : Cuda}

/-- The pool of a device as it is cut. -/
theorem cutPool_exact {k v : Ptr}
    (hfits : a.slotBytes * a.poolConfig.numSlots < 2 ^ 64) :
    (a.cutPool k v).Exact a.slotBytes [] := by
  have htotal : a.poolBytes = a.slotBytes * a.poolConfig.numSlots := Nat.mod_eq_of_lt hfits
  constructor
  · simp [cutPool, List.reverse_perm]
  · intro i slot hslot
    rw [cutPool, List.getElem?_map] at hslot
    obtain ⟨j, -, rfl⟩ := Option.map_eq_some_iff.mp hslot
    simp [cutSlot]
  · intro i slot hslot
    rw [cutPool, List.getElem?_map] at hslot
    obtain ⟨j, hj, rfl⟩ := Option.map_eq_some_iff.mp hslot
    obtain ⟨hlt, rfl⟩ := List.getElem?_eq_some_iff.mp hj
    rw [List.getElem_range]
    exact ⟨rfl, rfl⟩
  · rfl
  · exact Nat.zero_add _
  · simp [cutPool, htotal]
  · show a.poolBytes < 2 ^ 64
    rw [htotal]
    exact hfits
  · exact Wrapping.Tracks.zero 32

/-- In a new allocator all slots are free. -/
theorem Pristine.slotted (h : Pristine a)
    (hfits : a.slotBytes * a.poolConfig.numSlots < 2 ^ 64) : Slotted a where
  pools d := by
    have htaken : a.taken d = [] := by
      rw [taken, h.records]
      rfl
    rw [htaken, poolAt]
    cases hpool : a.devicePools.lookup d with
    | none => exact DevicePool.exact_default _
    | some pool =>
        obtain ⟨k, v, rfl, -⟩ := h.cut d pool hpool
        exact cutPool_exact hfits
  fresh id _ := by
    rw [h.records]
    exact AList.notMem_empty id
  primary id d i hid := by
    rw [h.records, AList.lookup_empty] at hid
    cases hid

/-- A pool has no more slots than configured, and its blocks are there when
slots are not empty. -/
theorem Pristine.blocks (h : Pristine a) (hfits : a.slotBytes * a.poolConfig.numSlots < 2 ^ 64)
    (d : Int) :
    (a.poolAt d).slots.length ≤ a.poolConfig.numSlots ∧
      ∀ i < (a.poolAt d).slots.length, 0 < a.slotBytes →
        (a.poolAt d).poolMemoryK.isSome ∧ (a.poolAt d).poolMemoryV.isSome := by
  rw [poolAt]
  cases hpool : a.devicePools.lookup d with
  | none => simp
  | some pool =>
      obtain ⟨k, v, rfl, hfilled⟩ := h.cut d pool hpool
      refine ⟨by simp [cutPool], fun i hi hbytes => hfilled.isSome (h.half_pos ?_)⟩
      have hslots : i < a.poolConfig.numSlots := by simpa [cutPool] using hi
      have htotal : a.poolBytes = a.slotBytes * a.poolConfig.numSlots := Nat.mod_eq_of_lt hfits
      rw [htotal]
      exact Nat.mul_pos hbytes (by omega)

/-- A slot is cut in two halves. -/
theorem Pristine.slotBytes_even (h : Pristine a) : 2 ∣ a.slotBytes := by
  rw [h.slotBytes]
  exact Wrapping.two_dvd_mul (by decide) (Dvd.dvd.mul_left (a.config.bytesPerHeads_even _) _)

end Initialization

/-! ## The owners -/

/-- The handle is one of a slot. -/
def Pooled (a : PooledKVAllocator) (h : KVCacheHandle) : Prop :=
  ∃ d i, a.allocationSlots.lookup h.allocationId = some (d, i, false)

/-- The bytes of K and of V that a pooled handle refers to. -/
def kRange (a : PooledKVAllocator) (h : KVCacheHandle) : Set DevicePtr :=
  h.kCache.window (a.slotBytes / 2)

/-- The same range of the V block. -/
def vRange (a : PooledKVAllocator) (h : KVCacheHandle) : Set DevicePtr :=
  h.vCache.window (a.slotBytes / 2)

section Owners

variable {poolConfig : PooledAllocatorConfig} {config : KVAllocatorConfig} {cuda : Cuda}
  {c : PoolClient}

/-- No wrap in the size of a slot, as long as there is a slot. -/
theorem slotBytes_eq (hfits : a.poolConfig.slotSizeTokens * a.config.bytesPerToken *
    a.poolConfig.numSlots < 2 ^ 64) (hslots : 0 < a.poolConfig.numSlots) :
    a.config.bytesForSeqLen a.poolConfig.slotSizeTokens =
      a.poolConfig.slotSizeTokens * a.config.bytesPerToken :=
  Nat.mod_eq_of_lt ((Nat.le_mul_of_pos_right _ hslots).trans_lt hfits)

/-- Wrapping only makes a size smaller. -/
theorem bytesForSeqLen_le (config : KVAllocatorConfig) (n : Nat) :
    config.bytesForSeqLen n ≤ n * config.bytesPerToken := by
  unfold KVAllocatorConfig.bytesForSeqLen
  generalize config.bytesPerToken = k
  exact Nat.mod_le _ _

/-- Sizes that do not wrap fit their pool. -/
theorem slotBytes_fit (h : Pristine a) (hfits : a.poolConfig.slotSizeTokens *
    a.config.bytesPerToken * a.poolConfig.numSlots < 2 ^ 64) :
    a.slotBytes * a.poolConfig.numSlots < 2 ^ 64 := by
  rcases Nat.eq_zero_or_pos a.poolConfig.numSlots with hzero | hpos
  · rw [hzero, Nat.mul_zero]
    decide
  · rw [h.slotBytes, slotBytes_eq hfits hpos]
    exact hfits

/-- Two live handles of one device are not recorded with the same slot. -/
theorem PoolClient.Kept.slot_ne {a₀ : PooledKVAllocator} (hk : PoolClient.Kept a₀ c)
    {h h' : KVCacheHandle} (hne : h.allocationId ≠ h'.allocationId) {d : Int} {i i' : Nat}
    (hslot : c.allocator.allocationSlots.lookup h.allocationId = some (d, i, false))
    (hslot' : c.allocator.allocationSlots.lookup h'.allocationId = some (d, i', false)) :
    i ≠ i' := by
  rintro rfl
  have hnodup : (c.allocator.taken d).Nodup :=
    (List.nodup_append.mp (hk.slotted.pools d).nodup).2.1
  refine hne (AList.collect_key_unique hnodup hslot hslot' (x := i) ?_ ?_) <;> simp [recordedSlot]

/-- **Slots have one owner.**  In every state of every run: on each device the
free stack and the recorded slots are a partition of the slots, a slot is in use
exactly when it is recorded, and the counters count the slots in use.  A live
pooled handle lies in the blocks of its pool and is long enough; two of them do
not overlap. -/
theorem slots_have_one_owner (ha : initializeAllocator poolConfig config cuda = (.ok (), a))
    (hfits : poolConfig.slotSizeTokens * a.config.bytesPerToken * poolConfig.numSlots < 2 ^ 64)
    (calls : List PoolCall) :
    let b := (PoolClient.run ⟨a, []⟩ calls).allocator
    let live := (PoolClient.run ⟨a, []⟩ calls).live
    (∀ d,
      (b.poolAt d).freeSlots.Nodup ∧
      ((b.poolAt d).freeSlots ++ b.taken d).Perm (List.range (b.poolAt d).slots.length) ∧
      (∀ i slot, (b.poolAt d).slots[i]? = some slot → (slot.inUse = true ↔ i ∈ b.taken d)) ∧
      (b.poolAt d).stats.usedBytes = b.slotBytes * (b.poolAt d).slots.countP (·.inUse) ∧
      (b.poolAt d).stats.usedBytes + (b.poolAt d).stats.freeBytes =
        (b.poolAt d).stats.totalBytes ∧
      (b.poolAt d).stats.activeAllocations =
        (b.poolAt d).slots.countP (·.inUse) % 2 ^ 32) ∧
    (∀ h ∈ live, b.Pooled h →
      (0 < b.slotBytes → h.kCache.isSome ∧ h.vCache.isSome) ∧
      b.kRange h ⊆ (b.poolAt h.deviceId).poolMemoryK.window (b.poolBytes / 2) ∧
      b.vRange h ⊆ (b.poolAt h.deviceId).poolMemoryV.window (b.poolBytes / 2) ∧
      b.config.bytesForSeqLen h.maxSeqLen / 2 ≤ b.slotBytes / 2) ∧
    live.Pairwise fun h h' => b.Pooled h → b.Pooled h' →
      Disjoint (b.kRange h) (b.kRange h') ∧ Disjoint (b.vRange h) (b.vRange h') := by
  obtain ⟨hpristine, -, hpoolConfig⟩ := pristine_initializeAllocator ha
  rw [← hpoolConfig] at hfits
  have hbytes := slotBytes_fit hpristine hfits
  have hinit : PoolClient.Kept a ⟨a, []⟩ :=
    ⟨hpristine.slotted hbytes, .ofPools rfl rfl rfl fun _ => rfl, by simp, List.Pairwise.nil,
      by simp⟩
  have hk := hinit.run calls
  obtain ⟨⟨hpools, -, hprimary⟩, hsame, -, hdistinct, hplaced⟩ := id hk
  refine ⟨fun d => ?_, fun h hmem ⟨d, i, hslot⟩ => ?_, hdistinct.imp_of_mem ?_⟩
  · have hexact := hpools d
    refine ⟨(List.nodup_append.mp hexact.nodup).1, hexact.partition, hexact.marked, ?_,
      hexact.balance, ?_⟩
    · rw [hexact.inUse_count]
      exact hexact.used
    · rw [hexact.inUse_count]
      exact hexact.active
  · obtain ⟨rfl, hin⟩ := hplaced h hmem d i hslot
    have hi : i < (a.poolAt h.deviceId).slots.length := by
      rw [← hsame.slots]
      refine (hpools h.deviceId).taken_lt (AList.mem_collect.mpr ⟨_, _, hslot, ?_⟩)
      simp [recordedSlot]
    obtain ⟨hslots, hsome⟩ := hpristine.blocks hbytes h.deviceId
    have hbound : i < a.poolConfig.numSlots := by omega
    have heven := hpristine.slotBytes_even
    have hpool : (PoolClient.run ⟨a, []⟩ calls).allocator.poolBytes / 2 =
        a.poolConfig.numSlots * (a.slotBytes / 2) := by
      rw [poolBytes, hsame.slotBytes, hsame.poolConfig]
      have hexact : sizeMul a.slotBytes a.poolConfig.numSlots =
          a.slotBytes * a.poolConfig.numSlots := Nat.mod_eq_of_lt hbytes
      rw [hexact, Nat.mul_comm, Nat.mul_div_assoc _ heven]
    rw [kRange, vRange, hpool, hsame.slotBytes, hsame.blockK, hsame.blockV, hin.kCache, hin.vCache,
      hsame.config]
    refine ⟨fun hpos => ?_, Ptr.window_subset hbound, Ptr.window_subset hbound,
      Nat.div_le_div_right ?_⟩
    · obtain ⟨hk, hv⟩ := hsome i hi hpos
      simp [Ptr.shift, hk, hv]
    · rw [hpristine.slotBytes, slotBytes_eq hfits (by omega)]
      exact (bytesForSeqLen_le a.config h.maxSeqLen).trans (Nat.mul_le_mul_right _ hin.fits)
  · rintro h h' hmem hmem' hne ⟨d, i, hslot⟩ ⟨d', i', hslot'⟩
    obtain rfl : d = d' := (hprimary _ _ _ hslot).trans (hprimary _ _ _ hslot').symm
    obtain ⟨hd, hin⟩ := hplaced h hmem d i hslot
    obtain ⟨hd', hin'⟩ := hplaced h' hmem' d i' hslot'
    have hi := hk.slot_ne hne hslot hslot'
    rw [kRange, kRange, vRange, vRange, hsame.slotBytes, hin.kCache, hin.vCache, hin'.kCache,
      hin'.vCache, ← hd, ← hd']
    exact ⟨Ptr.window_disjoint hi, Ptr.window_disjoint hi⟩

/-- Allocations, a stale handle and a reset on the allocator of a server with two
GPUs. -/
def sampleCalls : List PoolCall :=
  [.allocate [] 100, .reset, .allocate [] 100, .allocate [] 20000,
    .allocateTensorParallel [] 100 [0, 1],
    .free [] { kCache := some ⟨0, 0⟩, vCache := some ⟨1, 0⟩, allocationId := 1 },
    .allocate [] 16384]

theorem slots_have_one_owner_sample :
    let b := (PoolClient.run ⟨samplePooled, []⟩ sampleCalls).allocator
    let live := (PoolClient.run ⟨samplePooled, []⟩ sampleCalls).live
    (∀ d,
      (b.poolAt d).freeSlots.Nodup ∧
      ((b.poolAt d).freeSlots ++ b.taken d).Perm (List.range (b.poolAt d).slots.length) ∧
      (∀ i slot, (b.poolAt d).slots[i]? = some slot → (slot.inUse = true ↔ i ∈ b.taken d)) ∧
      (b.poolAt d).stats.usedBytes = b.slotBytes * (b.poolAt d).slots.countP (·.inUse) ∧
      (b.poolAt d).stats.usedBytes + (b.poolAt d).stats.freeBytes =
        (b.poolAt d).stats.totalBytes ∧
      (b.poolAt d).stats.activeAllocations =
        (b.poolAt d).slots.countP (·.inUse) % 2 ^ 32) ∧
    (∀ h ∈ live, b.Pooled h →
      (0 < b.slotBytes → h.kCache.isSome ∧ h.vCache.isSome) ∧
      b.kRange h ⊆ (b.poolAt h.deviceId).poolMemoryK.window (b.poolBytes / 2) ∧
      b.vRange h ⊆ (b.poolAt h.deviceId).poolMemoryV.window (b.poolBytes / 2) ∧
      b.config.bytesForSeqLen h.maxSeqLen / 2 ≤ b.slotBytes / 2) ∧
    live.Pairwise fun h h' => b.Pooled h → b.Pooled h' →
      Disjoint (b.kRange h) (b.kRange h') ∧ Disjoint (b.vRange h) (b.vRange h') :=
  slots_have_one_owner samplePooled_ok (by decide +kernel) sampleCalls

/-! ## The counter of active allocations -/

/-- While slots are free, an allocation that fits takes one. -/
theorem allocate_drains (hfits : n ≤ a.poolConfig.slotSizeTokens)
    (hfree : (a.poolAt a.config.deviceId).freeSlots ≠ []) :
    ((a.allocate n).2.poolAt a.config.deviceId).freeSlots =
      (a.poolAt a.config.deviceId).freeSlots.tail := by
  unfold allocate
  rw [if_pos hfits]
  dsimp only
  cases hpool : (a.poolAt a.config.deviceId).freeSlots with
  | nil => exact absurd hpool hfree
  | cons slotIdx freeSlots => simp [takeSlot, poolAt]

/-- The client goes on with the allocator it was given back. -/
theorem receive_allocator (outcome : Result KVCacheHandle × PooledKVAllocator) :
    (c.receive outcome).allocator = outcome.2 := by
  obtain ⟨e | h, a'⟩ := outcome <;> rfl

/-- Allocations that fit drain the free stack one by one. -/
theorem PoolClient.Kept.drain {a₀ : PooledKVAllocator} (hk : PoolClient.Kept a₀ c)
    (hfits : n ≤ a₀.poolConfig.slotSizeTokens) {count : Nat}
    (hcount : count ≤ (c.allocator.poolAt a₀.config.deviceId).freeSlots.length) :
    ((c.run (List.replicate count (.allocate [] n))).allocator.poolAt
      a₀.config.deviceId).freeSlots.length =
      (c.allocator.poolAt a₀.config.deviceId).freeSlots.length - count := by
  induction count generalizing c with
  | zero => rfl
  | succ count ih =>
      rw [List.replicate_succ]
      show ((PoolClient.run (c.step (.allocate [] n)) _).allocator.poolAt _).freeSlots.length = _
      have hstep : ((c.step (.allocate [] n)).allocator.poolAt a₀.config.deviceId).freeSlots =
          (c.allocator.poolAt a₀.config.deviceId).freeSlots.tail := by
        rw [PoolClient.step, receive_allocator]
        have hdrains := allocate_drains (a := c.allocator.withAnswers []) (n := n)
        rw [show (c.allocator.withAnswers []).config = a₀.config from hk.same.config] at hdrains
        refine hdrains ?_ ?_
        · exact hk.same.poolConfig ▸ hfits
        · intro hempty
          have hzero : (c.allocator.poolAt a₀.config.deviceId).freeSlots = [] := hempty
          rw [hzero] at hcount
          cases hcount
      have hlength := congrArg List.length hstep
      rw [List.length_tail] at hlength
      rw [ih (hk.step _) (by omega)]
      omega

/-- When no CUDA call fails the pool of a device is allocated. -/
theorem allocatePoolForDevice_willing (h : a.cuda.Willing) (deviceId : Int) :
    ∃ k v c, a.allocatePoolForDevice deviceId =
      (.ok (), { a with
        cuda := c, devicePools := a.devicePools.insert deviceId (a.cutPool k v) }) := by
  obtain ⟨c₁, hset, hrest⟩ := h.setDevice deviceId
  obtain ⟨k, v, c₂, hpair, -⟩ := hrest.pair (a.poolBytes / 2)
    (fun err => .internal (s!"Failed to allocate K pool on device {deviceId}: " ++ err))
    (fun err => .internal (s!"Failed to allocate V pool on device {deviceId}: " ++ err))
  refine ⟨k, v, c₂, ?_⟩
  unfold allocatePoolForDevice
  rw [hset]
  dsimp only
  rw [hpair]

/-- A pool of `n` slots of one token, of two bytes each. -/
def tinyPool (n : Nat) : PooledAllocatorConfig := { slotSizeTokens := 1, numSlots := n }

/-- A model of one byte per row. -/
def tinyConfig : KVAllocatorConfig :=
  { numLayers := 1, numKvHeads := 1, headDim := 1, dtypeBytes := 1 }

/-- Its allocator over one device. -/
def tiny (n : Nat) : PooledKVAllocator := (initializeAllocator (tinyPool n) tinyConfig {}).2

/-- Its initialization cuts one pool. -/
theorem tiny_ok (n : Nat) :
    initializeAllocator (tinyPool n) tinyConfig {} = (.ok (), tiny n) ∧
      ∃ k v, (tiny n).poolAt 0 = (configured (tinyPool n) tinyConfig {}).cutPool k v := by
  have hwilling : (configured (tinyPool n) tinyConfig {}).cuda.Willing := by
    intro x hx
    cases hx
  obtain ⟨k, v, c, hpool⟩ := allocatePoolForDevice_willing hwilling 0
  have hinit : initializeAllocator (tinyPool n) tinyConfig {} =
      (configured (tinyPool n) tinyConfig {}).allocatePools [0] := rfl
  rw [tiny, hinit, allocatePools, hpool]
  refine ⟨rfl, k, v, ?_⟩
  rw [poolAt]
  simp [allocatePools]

/-- Filled, it has `n` slots in use and a counter modulo `2 ^ 32`. -/
theorem tiny_full {n : Nat} (hn : 2 * n < 2 ^ 64) :
    let b := (PoolClient.run ⟨tiny n, []⟩ (List.replicate n (.allocate [] 1))).allocator
    (b.poolAt 0).slots.countP (·.inUse) = n ∧
      (b.poolAt 0).stats.activeAllocations = n % 2 ^ 32 := by
  obtain ⟨hok, k, v, hpool⟩ := tiny_ok n
  obtain ⟨hpristine, hconfig, hpoolConfig⟩ := pristine_initializeAllocator hok
  have hbytes : (tiny n).slotBytes * (tiny n).poolConfig.numSlots < 2 ^ 64 := by
    have htwo : tinyConfig.adopted.bytesForSeqLen 1 = 2 := by decide +kernel
    rw [hpristine.slotBytes, hpoolConfig, hconfig]
    show tinyConfig.adopted.bytesForSeqLen 1 * n < 2 ^ 64
    rw [htwo]
    exact hn
  have hinit : PoolClient.Kept (tiny n) ⟨tiny n, []⟩ :=
    ⟨hpristine.slotted hbytes, .ofPools rfl rfl rfl fun _ => rfl, by simp, List.Pairwise.nil,
      by simp⟩
  have hdevice : (tiny n).config.deviceId = 0 := by
    rw [hconfig]
    rfl
  have hfree : ((tiny n).poolAt 0).freeSlots.length = n := by
    rw [hpool]
    simp [cutPool, configured, tinyPool]
  have hslots : ((tiny n).poolAt 0).slots.length = n := by
    rw [hpool]
    simp [cutPool, configured, tinyPool]
  have hfits : 1 ≤ (tiny n).poolConfig.slotSizeTokens := by
    rw [hpoolConfig]
    exact Nat.le_refl 1
  have hdrain := @PoolClient.Kept.drain 1 _ _ hinit hfits n
  rw [hdevice] at hdrain
  have hempty := hdrain hfree.ge
  have hk := hinit.run (List.replicate n (.allocate [] 1))
  have hexact := hk.slotted.pools 0
  have hlength := hexact.partition.length_eq
  rw [List.length_append, List.length_range, hk.same.slots, hslots, hempty, hfree] at hlength
  have htaken : ((PoolClient.run ⟨tiny n, []⟩
      (List.replicate n (.allocate [] 1))).allocator.taken 0).length = n := by omega
  refine ⟨hexact.inUse_count.trans htaken, ?_⟩
  have hactive := hexact.active
  rw [htaken] at hactive
  exact hactive

/-- With `2 ^ 32` slots in use the counter of active allocations is back at zero. -/
theorem active_allocations_wrap :
    let b := (PoolClient.run ⟨tiny (2 ^ 32), []⟩
      (List.replicate (2 ^ 32) (.allocate [] 1))).allocator
    initializeAllocator (tinyPool (2 ^ 32)) tinyConfig {} = (.ok (), tiny (2 ^ 32)) ∧
      0 < (tiny (2 ^ 32)).config.bytesPerToken ∧
      (tinyPool (2 ^ 32)).slotSizeTokens * (tiny (2 ^ 32)).config.bytesPerToken *
        (tinyPool (2 ^ 32)).numSlots < 2 ^ 64 ∧
      (b.poolAt 0).stats.activeAllocations ≠ (b.poolAt 0).slots.countP (·.inUse) := by
  obtain ⟨hok, -⟩ := tiny_ok (2 ^ 32)
  obtain ⟨-, hconfig, -⟩ := pristine_initializeAllocator hok
  obtain ⟨hinUse, hactive⟩ := tiny_full (n := 2 ^ 32) (by decide)
  have htwo : (tiny (2 ^ 32)).config.bytesPerToken = 2 := by
    rw [hconfig]
    decide +kernel
  refine ⟨hok, ?_, ?_, ?_⟩
  · rw [htwo]
    decide
  · rw [htwo]
    decide
  · rw [hinUse, hactive, Nat.mod_self]
    decide

end Owners

end PooledKVAllocator

end Qwen
