import Mathlib.Algebra.Order.BigOperators.Group.List
import WinInference.KVCache.Rollback

/-!
# Device lists with repeated devices

The memory check of a tensor-parallel allocation looks at each entry of the
device list on its own, and the loop after it charges a device once for each
entry that names it.  So a subtraction from `free_bytes` may find less than it
takes.  It does not, if every device has room for all of its entries; then the
counters stay balanced in every run, whatever CUDA calls fail.

`Balanced` is one device whose counters hold a number of bytes, and `Covers` are
all devices at once; `Covers.charges` and `Covers.releases` are the two loops.
`Backed` says that every live handle of a client is covered, and
`Backed.performAll` carries it through a run.
-/

namespace Qwen

/-- The counters of a device whose used bytes include `held` bytes that may be
given back. -/
structure MemoryStats.Balanced (m : MemoryStats) (held : Nat) : Prop where
  held_le : held ≤ m.usedBytes
  balance : m.usedBytes + m.freeBytes = m.totalBytes
  total : m.totalBytes < 2 ^ 64

namespace MemoryStats.Balanced

variable {m : MemoryStats} {held held' bytes : Nat}

/-- A device that is balanced for some bytes is balanced for fewer. -/
theorem mono (h : m.Balanced held) (hle : held' ≤ held) : m.Balanced held' :=
  ⟨hle.trans h.held_le, h.balance, h.total⟩

/-- Charging bytes that are free keeps the balance, with these bytes held as well. -/
theorem charge (h : m.Balanced held) (hroom : bytes ≤ m.freeBytes) :
    (m.charge bytes).Balanced (held + bytes) := by
  obtain ⟨hheld, hbalance, htotal⟩ := h
  have hadd : sizeAdd m.usedBytes bytes = m.usedBytes + bytes := Wrapping.add_of_lt (by omega)
  have hsub : sizeSub m.freeBytes bytes = m.freeBytes - bytes :=
    Wrapping.sub_of_le (by omega) hroom
  unfold MemoryStats.charge
  rw [hadd, hsub]
  refine ⟨?_, ?_, htotal⟩ <;> dsimp only <;> omega

/-- Releasing held bytes keeps the balance without them. -/
theorem release (h : m.Balanced (held + bytes)) : (m.releaseBytes bytes).Balanced held := by
  obtain ⟨hheld, hbalance, htotal⟩ := h
  have hsub : sizeSub m.usedBytes bytes = m.usedBytes - bytes :=
    Wrapping.sub_of_le (by omega) (by omega)
  have hadd : sizeAdd m.freeBytes bytes = m.freeBytes + bytes := Wrapping.add_of_lt (by omega)
  unfold MemoryStats.releaseBytes
  rw [hsub, hadd]
  refine ⟨?_, ?_, htotal⟩ <;> dsimp only <;> omega

/-- Counting a free does not touch the balance. -/
theorem countFree (h : m.Balanced held) : m.countFree.Balanced held := by
  obtain ⟨hheld, hbalance, htotal⟩ := h
  unfold MemoryStats.countFree
  exact ⟨hheld, hbalance, htotal⟩

/-- After a reset nothing is held. -/
theorem reset (h : m.Balanced held) : (ContiguousKVAllocator.resetStats m).Balanced 0 :=
  ⟨Nat.zero_le _, Nat.zero_add _, h.total⟩

end MemoryStats.Balanced

namespace ContiguousKVAllocator

variable {a a' : ContiguousKVAllocator} {n : Nat} {held held' : Int → Nat}
  {stats : AList (fun _ : Int => MemoryStats)}

/-- No counter of a device is above its total. -/
def Within (m : MemoryStats) : Prop :=
  m.freeBytes ≤ m.totalBytes ∧ m.usedBytes ≤ m.totalBytes

/-- Each subtraction of the device loop finds what it takes. -/
def EachCovered (bytes : Nat) : List Int → AList (fun _ : Int => MemoryStats) → Prop
  | [], _ => True
  | deviceId :: rest, stats =>
      bytes ≤ ((stats.lookup deviceId).getD {}).freeBytes ∧
        EachCovered bytes rest (chargeDevice bytes deviceId stats)

/-- Every device has room for as many parts as the list has entries for it. -/
def RoomForAll (bytes : Nat) (devices : List Int)
    (stats : AList (fun _ : Int => MemoryStats)) : Prop :=
  ∀ d ∈ devices, ∀ m, stats.lookup d = some m → devices.count d * bytes ≤ m.freeBytes

/-- The free bytes of a device after one charge it has room for. -/
theorem chargeDevice_free {bytes : Nat} {d : Int} {m : MemoryStats}
    (hm : stats.lookup d = some m) (hfits : m.freeBytes < 2 ^ 64) (hroom : bytes ≤ m.freeBytes) :
    ∃ m', (chargeDevice bytes d stats).lookup d = some m' ∧
      m'.freeBytes = m.freeBytes - bytes := by
  refine ⟨m.charge bytes, ?_, Wrapping.sub_of_le hfits hroom⟩
  rw [chargeDevice_lookup, if_pos rfl, hm]
  rfl

/-- Room for the list is room for its first entry and, after that is charged,
room for the others. -/
theorem roomForAll_cons {bytes : Nat} {first : Int} {rest : List Int} {m : MemoryStats}
    (hm : stats.lookup first = some m) (hfits : m.freeBytes < 2 ^ 64) :
    RoomForAll bytes (first :: rest) stats ↔
      bytes ≤ m.freeBytes ∧ RoomForAll bytes rest (chargeDevice bytes first stats) := by
  have hcount : (rest.count first + 1) * bytes = rest.count first * bytes + bytes :=
    Nat.succ_mul _ _
  constructor
  · intro h
    have hfirst := h first List.mem_cons_self m hm
    rw [List.count_cons_self, hcount] at hfirst
    have hroom : bytes ≤ m.freeBytes := by omega
    refine ⟨hroom, fun d hd m' hm' => ?_⟩
    by_cases heq : d = first
    · subst heq
      obtain ⟨m'', hm'', hfree⟩ := chargeDevice_free hm hfits hroom
      obtain rfl : m'' = m' := Option.some.inj (hm''.symm.trans hm')
      omega
    · rw [chargeDevice_lookup, if_neg heq] at hm'
      have hd := h d (List.mem_cons_of_mem first hd) m' hm'
      rwa [List.count_cons_of_ne (Ne.symm heq)] at hd
  · rintro ⟨hroom, hrest⟩ d hd m' hm'
    by_cases heq : d = first
    · subst heq
      obtain rfl : m = m' := Option.some.inj (hm.symm.trans hm')
      rw [List.count_cons_self, hcount]
      by_cases hmem : d ∈ rest
      · obtain ⟨m'', hm'', hfree⟩ := chargeDevice_free hm hfits hroom
        have hd := hrest d hmem m'' hm''
        omega
      · rw [List.count_eq_zero_of_not_mem hmem]
        omega
    · have hmem : d ∈ rest := by simpa [heq] using hd
      have hd := hrest d hmem m' (by rwa [chargeDevice_lookup, if_neg heq])
      rwa [List.count_cons_of_ne (Ne.symm heq)]

/-- **The loop.**  Its subtractions are covered if and only if every device has
room for all of its entries. -/
theorem eachCovered_iff (bytes : Nat) {devices : List Int} (hknown : ∀ d ∈ devices, d ∈ stats)
    (hfits : EachDevice MemoryStats.Fits stats) :
    EachCovered bytes devices stats ↔ RoomForAll bytes devices stats := by
  induction devices generalizing stats with
  | nil => simp [EachCovered, RoomForAll]
  | cons first rest ih =>
      obtain ⟨m, hm⟩ := Option.isSome_iff_exists.mp
        (AList.lookup_isSome.mpr (hknown first List.mem_cons_self))
      have hrest : ∀ d ∈ rest, d ∈ chargeDevice bytes first stats := fun d hd =>
        (AList.mem_insert _).mpr (Or.inr (hknown d (List.mem_cons_of_mem first hd)))
      rw [roomForAll_cons hm (hfits first m hm).free, EachCovered,
        ih hrest (hfits.charge fits_maintained bytes first), hm]
      rfl

/-! ## The bytes that may be given back -/

/-- On every device the counters are balanced and include the bytes held. -/
def Covers (stats : AList (fun _ : Int => MemoryStats)) (held : Int → Nat) : Prop :=
  ∀ d m, stats.lookup d = some m → m.Balanced (held d)

/-- Counters that cover some bytes cover fewer. -/
theorem Covers.mono (h : Covers stats held) (hle : ∀ d, held' d ≤ held d) : Covers stats held' :=
  fun d m hm => (h d m hm).mono (hle d)

/-- Covered devices stay within their totals. -/
theorem Covers.within (h : Covers stats held) : EachDevice Within stats := by
  intro d m hm
  have hbalance := (h d m hm).balance
  unfold Within
  omega

/-- Charging one device keeps the cover, with the bytes held on that device as well. -/
theorem Covers.charge (h : Covers stats held) {d : Int} {m : MemoryStats} {bytes : Nat}
    (hm : stats.lookup d = some m) (hroom : bytes ≤ m.freeBytes) :
    Covers (chargeDevice bytes d stats) (fun d' => held d' + if d' = d then bytes else 0) := by
  intro d' m' hm'
  rw [chargeDevice_lookup] at hm'
  by_cases hd : d' = d
  · subst hd
    rw [if_pos rfl, hm] at hm'
    cases hm'
    simpa using (h d' m hm).charge hroom
  · rw [if_neg hd] at hm'
    simpa [hd] using h d' m' hm'

/-- A device loop with room for all of its entries. -/
theorem Covers.charges (h : Covers stats held) {bytes : Nat} {devices : List Int}
    (hknown : ∀ d ∈ devices, d ∈ stats) (hroom : RoomForAll bytes devices stats) :
    Covers (devices.foldl (fun s d => chargeDevice bytes d s) stats)
      (fun d => held d + devices.count d * bytes) := by
  induction devices generalizing stats held with
  | nil => simpa using h
  | cons first rest ih =>
      obtain ⟨m, hm⟩ := Option.isSome_iff_exists.mp
        (AList.lookup_isSome.mpr (hknown first List.mem_cons_self))
      have hrest : ∀ d ∈ rest, d ∈ chargeDevice bytes first stats := fun d hd =>
        (AList.mem_insert _).mpr (Or.inr (hknown d (List.mem_cons_of_mem first hd)))
      have hfits : m.freeBytes < 2 ^ 64 := by
        obtain ⟨-, hbalance, htotal⟩ := h first m hm
        omega
      obtain ⟨hfirst, hothers⟩ := (roomForAll_cons hm hfits).mp hroom
      refine (ih (h.charge hm hfirst) hrest hothers).mono fun d => ?_
      by_cases hd : d = first
      · subst hd
        rw [List.count_cons_self, Nat.succ_mul, if_pos rfl]
        omega
      · rw [List.count_cons_of_ne (Ne.symm hd), if_neg hd, Nat.add_zero]

/-- Releasing one cache keeps the cover without it. -/
theorem Covers.release {cache : PerDeviceKVCache}
    (h : Covers stats (fun d => held d + if d = cache.deviceId then cache.bytesAllocated else 0)) :
    Covers (releaseDevice stats cache) held := by
  intro d m hm
  rw [releaseDevice_lookup] at hm
  by_cases hd : d = cache.deviceId
  · subst hd
    rw [if_pos rfl] at hm
    obtain ⟨m₀, hm₀, rfl⟩ := Option.map_eq_some_iff.mp hm
    have hbalanced := h _ m₀ hm₀
    dsimp only at hbalanced
    rw [if_pos rfl] at hbalanced
    exact hbalanced.release.countFree
  · rw [if_neg hd] at hm
    simpa [hd] using h d m hm

/-- The bytes that the caches of a handle have on device `d`. -/
def cachedOn (d : Int) (caches : List PerDeviceKVCache) : Nat :=
  (caches.map fun cache => if d = cache.deviceId then cache.bytesAllocated else 0).sum

/-- Releasing a list of caches keeps the cover without them. -/
theorem Covers.releases {caches : List PerDeviceKVCache}
    (h : Covers stats (fun d => held d + cachedOn d caches)) :
    Covers (caches.foldl releaseDevice stats) held := by
  induction caches generalizing stats with
  | nil => simpa [cachedOn] using h
  | cons cache rest ih =>
      refine ih (Covers.release (h.mono fun d => ?_))
      simp only [cachedOn, List.map_cons, List.sum_cons]
      omega

/-- The bytes that `free` of a handle gives back on device `d`. -/
def heldOn (a : ContiguousKVAllocator) (d : Int) (h : KVCacheHandle) : Nat :=
  if h.isTensorParallel then cachedOn d h.deviceCaches
  else if d = h.deviceId then (a.allocations.lookup h.allocationId).getD 0 else 0

/-- Freeing a handle keeps the cover without what the handle held. -/
theorem free_covers {h : KVCacheHandle}
    (hcovers : Covers a.deviceStats (fun d => held d + a.heldOn d h)) :
    Covers (a.free h).2.deviceStats held := by
  have hleast : Covers a.deviceStats held := hcovers.mono fun d => Nat.le_add_right _ _
  unfold free
  by_cases hvalid : h.isValid
  · rw [if_pos hvalid]
    cases htp : h.isTensorParallel with
    | true => exact Covers.releases (by simpa [heldOn, htp] using hcovers)
    | false =>
        cases hstats : a.deviceStats.lookup h.deviceId with
        | none => simpa [hstats] using hleast
        | some m =>
            have hbalanced := hcovers _ m hstats
            simp only [heldOn, htp, Bool.false_eq_true, if_false, if_true] at hbalanced
            intro d m' hm'
            by_cases hd : d = h.deviceId
            · subst hd
              cases hbytes : a.allocations.lookup h.allocationId with
              | none =>
                  simp only [hbytes, AList.lookup_insert, Bool.false_eq_true,
                    if_false] at hm'
                  cases hm'
                  exact (hbalanced.mono (Nat.le_add_right _ _)).countFree
              | some bytes =>
                  simp only [hbytes, AList.lookup_insert, Bool.false_eq_true,
                    if_false] at hm'
                  cases hm'
                  rw [hbytes] at hbalanced
                  exact hbalanced.release.countFree
            · refine hleast d m' ?_
              simpa [hstats, AList.lookup_insert_ne hd] using hm'
  · rw [if_neg hvalid]
    exact hleast

/-! ## Runs of a client -/

/-- What a single-device allocation does. -/
theorem allocateOnDevice_outcome (a : ContiguousKVAllocator) (n : Nat) (deviceId : Int) :
    (∃ e c, a.allocateOnDevice n deviceId = (.error e, { a with cuda := c })) ∨
    ∃ m k v c, a.deviceStats.lookup deviceId = some m ∧
      a.config.bytesForSeqLen n ≤ m.freeBytes ∧
      a.allocateOnDevice n deviceId = (.ok (deviceHandle a n deviceId k v),
        { a with
          cuda := c
          deviceStats := chargeDevice (a.config.bytesForSeqLen n) deviceId a.deviceStats
          nextAllocationId := a.nextAllocationId + 1
          allocations := a.allocations.insert a.nextAllocationId (a.config.bytesForSeqLen n) }) := by
  unfold allocateOnDevice
  dsimp only
  cases hstats : a.deviceStats.lookup deviceId with
  | none => exact Or.inl ⟨_, a.cuda, rfl⟩
  | some m =>
      dsimp only
      by_cases hroom : a.config.bytesForSeqLen n > m.freeBytes
      · rw [if_pos hroom]
        exact Or.inl ⟨_, a.cuda, rfl⟩
      · rw [if_neg hroom]
        rcases a.cuda.cudaSetDevice deviceId with ⟨_ | text, c₁⟩ <;> dsimp only
        · split
          next e c₂ hpair => exact Or.inl ⟨_, c₂, rfl⟩
          next k v c₂ hpair => exact Or.inr ⟨m, k, v, c₂, rfl, Nat.not_lt.mp hroom, rfl⟩
        · exact Or.inl ⟨_, c₁, rfl⟩

/-- Caches of one size hold that size once for each time their device occurs. -/
theorem cachedOn_eq {caches : List PerDeviceKVCache} {bytes : Nat}
    (hbytes : ∀ cache ∈ caches, cache.bytesAllocated = bytes) (d : Int) :
    cachedOn d caches = (caches.map (·.deviceId)).count d * bytes := by
  induction caches with
  | nil => simp [cachedOn]
  | cons cache rest ih =>
      have hrest := ih fun c hc => hbytes c (List.mem_cons_of_mem cache hc)
      have hfirst := hbytes cache List.mem_cons_self
      unfold cachedOn at hrest ⊢
      rw [List.map_cons, List.sum_cons, hrest, List.map_cons, hfirst]
      by_cases hd : d = cache.deviceId
      · rw [if_pos hd, hd, List.count_cons_self, Nat.succ_mul, Nat.add_comm]
      · rw [if_neg hd, List.count_cons_of_ne (Ne.symm hd), Nat.zero_add]

/-- One operation of a client.  A reset takes the handles of the client with
it. -/
def Client.perform (c : Client) : Operation → Client
  | .call call => c.step call
  | .reset => { allocator := c.allocator.reset }

/-- A list of operations, one after another. -/
def Client.performAll (c : Client) (ops : List Operation) : Client := ops.foldl Client.perform c

/-- Where the memory check passes, every device has room for all the parts it is
to serve. -/
def Client.HasRoom (c : Client) : Operation → Prop
  | .call (.allocateTensorParallel answers n devices) =>
      c.allocator.checkDevices (c.allocator.config.bytesForSeqLenPerDevice n) devices = .ok () →
        RoomForAll (c.allocator.config.bytesForSeqLenPerDevice n) (served answers devices)
          c.allocator.deviceStats
  | _ => True

/-- Every call of a run has room. -/
def Client.HasRoomAll (c : Client) : List Operation → Prop
  | [] => True
  | op :: rest => c.HasRoom op ∧ (c.perform op).HasRoomAll rest

/-- The used bytes of every device include those of the live handles. -/
structure Backed (c : Client) : Prop where
  issued : ∀ h ∈ c.live, h.allocationId < c.allocator.nextAllocationId
  covers : Covers c.allocator.deviceStats (fun d => (c.live.map (c.allocator.heldOn d)).sum)

section Backed

variable {c : Client} {live : List KVCacheHandle}

/-- What a handle holds depends on its own record only. -/
theorem heldOn_congr {h : KVCacheHandle} (d : Int)
    (hsame : a'.allocations.lookup h.allocationId = a.allocations.lookup h.allocationId) :
    a'.heldOn d h = a.heldOn d h := by
  unfold heldOn
  rw [hsame]

/-- A call that fails may leave charges, which no live handle gives back. -/
theorem Backed.keep (hb : Backed ⟨a, live⟩) (hallocs : a'.allocations = a.allocations)
    (hnext : a.nextAllocationId ≤ a'.nextAllocationId)
    (hcovers : Covers a'.deviceStats (fun d => (live.map (a.heldOn d)).sum)) :
    Backed ⟨a', live⟩ := by
  refine ⟨fun h hmem => (hb.issued h hmem).trans_le hnext, hcovers.mono fun d => ?_⟩
  have hsame : a'.heldOn d = a.heldOn d := funext fun h => heldOn_congr d (by rw [hallocs])
  dsimp only
  rw [hsame]

/-- A handle under the next id is added. -/
theorem Backed.add (hb : Backed ⟨a, live⟩) {h : KVCacheHandle}
    (hid : h.allocationId = a.nextAllocationId)
    (hnext : a'.nextAllocationId = a.nextAllocationId + 1)
    (hothers : ∀ id, id ≠ a.nextAllocationId →
      a'.allocations.lookup id = a.allocations.lookup id)
    (hcovers : Covers a'.deviceStats
      (fun d => (live.map (a.heldOn d)).sum + a'.heldOn d h)) :
    Backed ⟨a', h :: live⟩ := by
  refine ⟨List.forall_mem_cons.mpr ⟨?_, fun h' hmem => ?_⟩, hcovers.mono fun d => ?_⟩
  · dsimp only
    omega
  · have hissued := hb.issued h' hmem
    dsimp only at hissued ⊢
    omega
  · have hsame : live.map (a'.heldOn d) = live.map (a.heldOn d) := by
      refine List.map_congr_left fun h' hmem => heldOn_congr d (hothers _ ?_)
      exact (hb.issued h' hmem).ne
    dsimp only
    rw [List.map_cons, List.sum_cons, hsame]
    omega

/-- An allocation on one device keeps the client's handles backed. -/
theorem Backed.allocateOnDevice (hb : Backed ⟨a, live⟩) (n : Nat) (deviceId : Int) :
    Backed (Client.receive ⟨a, live⟩ (a.allocateOnDevice n deviceId)) := by
  obtain ⟨e, c, heq⟩ | ⟨m, k, v, c, hm, hroom, heq⟩ := a.allocateOnDevice_outcome n deviceId <;>
    rw [heq]
  · exact hb.keep rfl (Nat.le_refl _) hb.covers
  · refine hb.add rfl rfl (fun id hid => AList.lookup_insert_ne hid)
      ((hb.covers.charge hm hroom).mono fun d => ?_)
    simp [heldOn, deviceHandle]

/-- A tensor-parallel allocation that passes the check keeps the handles backed. -/
theorem Backed.allocateTensorParallel (hb : Backed ⟨a, live⟩) (n : Nat) (primary : Int)
    (rest : List Int)
    (hroom : a.checkDevices (a.config.bytesForSeqLenPerDevice n) (primary :: rest) = .ok () →
      RoomForAll (a.config.bytesForSeqLenPerDevice n) (served a.cuda.answers (primary :: rest))
        a.deviceStats) :
    Backed (Client.receive ⟨a, live⟩ (a.allocateTensorParallel n (primary :: rest))) := by
  have hcharged : a.checkDevices (a.config.bytesForSeqLenPerDevice n) (primary :: rest) = .ok () →
      Covers ((served a.cuda.answers (primary :: rest)).foldl
          (fun s d => chargeDevice (a.config.bytesForSeqLenPerDevice n) d s) a.deviceStats)
        (fun d => (live.map (a.heldOn d)).sum +
          (served a.cuda.answers (primary :: rest)).count d *
            a.config.bytesForSeqLenPerDevice n) := by
    intro hcheck
    refine hb.covers.charges (fun d hd => ?_) (hroom hcheck)
    obtain ⟨m, hm, -⟩ := checkDevices_ok hcheck d (served_subset _ _ d hd)
    exact AList.lookup_isSome.mp (by rw [hm]; rfl)
  obtain ⟨e, -, heq⟩ | ⟨hcheck, c, ⟨-, e, heq⟩ | ⟨hserved, caches, heq, hdevices, hbytes⟩⟩ :=
    a.allocateTensorParallel_outcome n primary rest <;> rw [heq]
  · exact hb
  · exact hb.keep rfl (Nat.le_succ _) ((hcharged hcheck).mono fun d => Nat.le_add_right _ _)
  · refine hb.add rfl rfl (fun id hid => AList.lookup_insert_ne hid)
      ((hcharged hcheck).mono fun d => ?_)
    have hheld : cachedOn d caches =
        (primary :: rest).count d * a.config.bytesForSeqLenPerDevice n := by
      rw [cachedOn_eq hbytes, hdevices]
    rw [hserved]
    simp [heldOn, parallelHandle, hheld]

/-- Freeing a live handle keeps the remaining ones backed. -/
theorem Backed.remove {h : KVCacheHandle} (hb : Backed ⟨a, live⟩) (hmem : h ∈ live) :
    Backed ⟨(a.free h).2, live.erase h⟩ := by
  have hnext : (a.free h).2.nextAllocationId = a.nextAllocationId := by
    unfold free
    split <;> rfl
  have hallocs : ∀ id bytes, (a.free h).2.allocations.lookup id = some bytes →
      a.allocations.lookup id = some bytes := by
    intro id bytes hid
    unfold free at hid
    by_cases hvalid : h.isValid
    · rw [if_pos hvalid] at hid
      dsimp only at hid
      by_cases heq : id = h.allocationId
      · rw [heq, AList.lookup_erase] at hid
        cases hid
      · rwa [AList.lookup_erase_ne heq] at hid
    · rwa [if_neg hvalid] at hid
  have hless : ∀ d h', (a.free h).2.heldOn d h' ≤ a.heldOn d h' := by
    intro d h'
    unfold heldOn
    cases hid : (a.free h).2.allocations.lookup h'.allocationId with
    | none =>
        split
        · exact Nat.le_refl _
        · split <;> exact Nat.zero_le _
    | some bytes => rw [hallocs _ _ hid]
  refine ⟨fun h' hmem' => ?_, Covers.mono (free_covers (hb.covers.mono fun d => ?_)) fun d =>
    List.sum_le_sum fun h' _ => hless d h'⟩
  · dsimp only
    rw [hnext]
    exact hb.issued h' (List.mem_of_mem_erase hmem')
  · exact (Wrapping.sum_erase (a.heldOn d) hmem).ge

/-- After a reset there is nothing to back. -/
theorem Backed.reset (hb : Backed ⟨a, live⟩) : Backed ⟨a.reset, []⟩ := by
  refine ⟨by simp, fun d m hm => ?_⟩
  dsimp only at hm
  rw [reset_lookup] at hm
  obtain ⟨m₀, hm₀, rfl⟩ := Option.map_eq_some_iff.mp hm
  exact (hb.covers d m₀ hm₀).reset

/-- **One operation.** -/
theorem Backed.perform (hb : Backed c) {op : Operation} (hroom : c.HasRoom op) :
    Backed (c.perform op) := by
  obtain ⟨a, live⟩ := c
  have hloaded : ∀ answers, Backed ⟨a.withAnswers answers, live⟩ := fun _ =>
    hb.keep rfl (Nat.le_refl _) hb.covers
  cases op with
  | reset => exact hb.reset
  | call call =>
      cases call with
      | allocate answers n => exact (hloaded answers).allocateOnDevice n _
      | allocateTensorParallel answers n devices =>
          cases devices with
          | nil => exact (hloaded answers).allocateOnDevice n _
          | cons primary rest =>
              refine (hloaded answers).allocateTensorParallel n primary rest fun hcheck => ?_
              rw [checkDevices_withAnswers] at hcheck
              exact hroom hcheck
      | free answers h =>
          by_cases hlive : h ∈ live
          · rw [Client.perform, Client.step, if_pos hlive]
            exact (hloaded answers).remove hlive
          · rw [Client.perform, Client.step, if_neg hlive]
            exact hb

/-- **Every run.** -/
theorem Backed.performAll (hb : Backed c) {ops : List Operation} (hroom : c.HasRoomAll ops) :
    Backed (c.performAll ops) := by
  induction ops generalizing c with
  | nil => exact hb
  | cons op rest ih => exact ih (hb.perform hroom.1) hroom.2

end Backed

/-- **Repeated devices.**  In every reachable state, the subtractions of a
tensor-parallel allocation that passes its memory check are covered if and only
if every device has room for all the parts it is to serve; and in every run
whose calls have that room, no counter of a device is ever above its total. -/
theorem subtractions_covered {config : KVAllocatorConfig}
    {deviceMemory : Int → Except String Nat} {a₀ : ContiguousKVAllocator}
    (ha : initializeAllocator config deviceMemory = .ok a₀)
    (hsize : config.maxTotalMemory < 2 ^ 64)
    (hmemory : ∀ d m, deviceMemory d = .ok m → m < 2 ^ 64) (ops : List Operation) :
    (let a := ops.foldl perform a₀
      ∀ answers n devices,
        a.checkDevices (a.config.bytesForSeqLenPerDevice n) devices = .ok () →
          (EachCovered (a.config.bytesForSeqLenPerDevice n) (served answers devices)
              a.deviceStats ↔
            RoomForAll (a.config.bytesForSeqLenPerDevice n) (served answers devices)
              a.deviceStats)) ∧
    (Client.HasRoomAll ⟨a₀, []⟩ ops →
      EachDevice Within (Client.performAll ⟨a₀, []⟩ ops).allocator.deviceStats) := by
  have hopened := initializeAllocator_accurate ha hsize hmemory
  constructor
  · intro a answers n devices hcheck
    have hfits : EachDevice MemoryStats.Fits a₀.deviceStats :=
      fun d m hm => (hopened d m hm).fits
    refine eachCovered_iff _ (fun d hd => ?_) (hfits.performs fits_maintained ops)
    obtain ⟨m, hm, -⟩ := checkDevices_ok hcheck d (served_subset _ _ d hd)
    exact AList.lookup_isSome.mp (by rw [hm]; rfl)
  · intro hroom
    have hinit : Backed ⟨a₀, []⟩ := by
      refine ⟨by simp, fun d m hm => ?_⟩
      have haccurate := hopened d m hm
      exact ⟨Nat.zero_le _, haccurate.balance, haccurate.total⟩
    exact (hinit.performAll hroom).covers.within

/-- A GPU listed twice has room for both parts of a short request. -/
theorem subtractions_covered_sample :
    let ops := [Operation.call (.allocateTensorParallel [] 100 [0, 0]), .reset]
    (let a := ops.foldl perform twoGpus
      ∀ answers n devices,
        a.checkDevices (a.config.bytesForSeqLenPerDevice n) devices = .ok () →
          (EachCovered (a.config.bytesForSeqLenPerDevice n) (served answers devices)
              a.deviceStats ↔
            RoomForAll (a.config.bytesForSeqLenPerDevice n) (served answers devices)
              a.deviceStats)) ∧
    EachDevice Within (Client.performAll ⟨twoGpus, []⟩ ops).allocator.deviceStats := by
  have hroom : Client.HasRoomAll ⟨twoGpus, []⟩
      [Operation.call (.allocateTensorParallel [] 100 [0, 0]), .reset] := by
    refine ⟨fun _ d hd m hm => ?_, trivial, trivial⟩
    obtain rfl : d = 0 := by simpa [served] using hd
    have hfirst : twoGpus.deviceStats.lookup 0 =
        some { totalBytes := 2 ^ 40, freeBytes := 2 ^ 40 } := by decide +kernel
    obtain rfl := Option.some.inj (hfirst.symm.trans hm)
    decide +kernel
  have hboth := subtractions_covered twoGpus_ok (by decide)
    (fun d m hm => by cases hm; decide)
    [Operation.call (.allocateTensorParallel [] 100 [0, 0]), .reset]
  exact ⟨hboth.1, hboth.2 hroom⟩

/-- One part of a request fits on the first GPU and two do not.  The memory
check passes, and after the call more bytes of the GPU are free than it has. -/
theorem repeated_device_wraps :
    let a := twoGpus
    let bytes := a.config.bytesForSeqLenPerDevice 5000000
    a.checkDevices bytes [0, 0] = .ok () ∧
      ¬ EachCovered bytes (served [] [0, 0]) a.deviceStats ∧
      ¬ EachDevice Within (a.allocateTensorParallel 5000000 [0, 0]).2.deviceStats := by
  intro a bytes
  refine ⟨by decide +kernel, fun hcovered => ?_, fun hwithin => ?_⟩
  · have hsecond := hcovered.2.1
    revert hsecond
    decide +kernel
  · have hwrapped : (a.allocateTensorParallel 5000000 [0, 0]).2.deviceStats.lookup 0 = some
        { totalBytes := 2 ^ 40, usedBytes := 1310720000000, freeBytes := 18446743862501179392
          peakBytes := 1310720000000, activeAllocations := 2, totalAllocations := 2 } := by
      decide +kernel
    exact absurd (hwithin 0 _ hwrapped).1 (by decide)

end ContiguousKVAllocator

end Qwen
