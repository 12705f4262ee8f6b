import Mathlib.Data.List.Perm.Basic
import Mathlib.Data.List.Nodup
import WinInference.KVCache.Allocator

/-!
# Who owns which device block

`Cuda.Owns c held` says that the program holds exactly the blocks `held`: these
are outstanding, each once, and no block was ever given back twice.  The
pieces both allocators are made of either hand over the blocks of what they
return or leave the ownership as it was.

`malloc_ok` and `free` are the two ways in which blocks change hands,
`mallocPair_ok` and `mallocPair_error` are the pair of halves of a cache, and
`allocateEach_ok` and `allocateEach_error` the loop over the devices.  `Willing`
is a runtime that grants every call.
-/

namespace Qwen

namespace Cuda

/-- The outstanding blocks are those in `held`, and every block handed out is
either outstanding or was freed, once. -/
structure Owns (c : Cuda) (held : List Nat) : Prop where
  outstanding : c.outstanding.Perm held
  below : ∀ b ∈ c.outstanding ++ c.freed, b < c.next
  nodup : (c.outstanding ++ c.freed).Nodup

namespace Owns

variable {c c' : Cuda} {held held' : List Nat}

/-- Ownership does not depend on the order of the blocks. -/
theorem perm (h : Owns c held) (hp : held.Perm held') : Owns c held' :=
  ⟨h.outstanding.trans hp, h.below, h.nodup⟩

/-- A fresh device layer owns nothing. -/
theorem empty (answers : List (Option String)) : Owns { answers := answers } [] :=
  ⟨List.Perm.refl _, by simp, by simp⟩

/-- Only the three block fields matter. -/
theorem congr (h : Owns c held) (hout : c'.outstanding = c.outstanding)
    (hfreed : c'.freed = c.freed) (hnext : c'.next = c.next) : Owns c' held := by
  refine ⟨?_, ?_, ?_⟩
  · rw [hout]
    exact h.outstanding
  · rw [hout, hfreed, hnext]
    exact h.below
  · rw [hout, hfreed]
    exact h.nodup

/-- Ownership does not depend on the answers to come. -/
theorem withAnswers (h : Owns c held) (answers : List (Option String)) :
    Owns (c.withAnswers answers) held := h.congr rfl rfl rfl

/-- Taking the next answer keeps the ownership. -/
theorem answer (h : Owns c held) : Owns c.answer.2 held :=
  h.congr (by simp) (by simp) (by simp)

/-- `cudaSetDevice` keeps the ownership, whether it fails or not. -/
theorem setDevice (h : Owns c held) (deviceId : Int) :
    Owns (c.cudaSetDevice deviceId).2 held := h.answer

/-- A failed `cudaMalloc` changes nothing. -/
theorem malloc_error (h : Owns c held) {size : Nat} {err : String}
    (heq : c.cudaMalloc size = (.error err, c')) : Owns c' held := by
  have hanswer := h.answer
  unfold cudaMalloc at heq
  rcases hc : c.answer with ⟨_ | text, c₁⟩ <;> rw [hc] at heq hanswer
  · by_cases hsize : size = 0 <;> simp [hsize] at heq
  · cases heq
    exact hanswer

/-- A successful `cudaMalloc` hands over the block of the pointer. -/
theorem malloc_ok (h : Owns c held) {size : Nat} {p : Ptr}
    (heq : c.cudaMalloc size = (.ok p, c')) : Owns c' (p.blocks ++ held) := by
  have hanswer := h.answer
  unfold cudaMalloc at heq
  rcases hc : c.answer with ⟨_ | text, c₁⟩ <;> rw [hc] at heq hanswer
  · by_cases hsize : size = 0
    · simp only [hsize, if_true] at heq
      cases heq
      exact hanswer
    · simp only [hsize, if_false] at heq
      cases heq
      refine ⟨hanswer.outstanding.cons _, ?_, ?_⟩
      · intro b hb
        rcases List.mem_cons.mp hb with rfl | hb
        · exact Nat.lt_succ_self _
        · exact Nat.lt_succ_of_lt (hanswer.below b hb)
      · refine List.nodup_cons.mpr ⟨fun hb => ?_, hanswer.nodup⟩
        exact Nat.lt_irrefl _ (hanswer.below _ hb)
  · cases heq

/-- `cudaFree` of a pointer that is owned gives its block back. -/
theorem free {p : Ptr} (h : Owns c (p.blocks ++ held)) : Owns (c.cudaFree p) held := by
  cases p with
  | none => exact h
  | some q =>
      have hmem : q.block ∈ c.outstanding :=
        h.outstanding.mem_iff.mpr List.mem_cons_self
      have hsplit : (c.outstanding.erase q.block ++ q.block :: c.freed).Perm
          (c.outstanding ++ c.freed) :=
        List.perm_middle.trans
          ((List.perm_cons_erase hmem).symm.append_right c.freed)
      refine ⟨?_, ?_, hsplit.nodup_iff.mpr h.nodup⟩
      · exact (List.perm_cons _).mp ((List.perm_cons_erase hmem).symm.trans h.outstanding)
      · intro b hb
        exact h.below b (hsplit.mem_iff.mp hb)

end Owns

/-- A successful `cudaMalloc` gives a block, unless of size zero. -/
theorem malloc_isSome {c c' : Cuda} {size : Nat} {p : Ptr}
    (heq : c.cudaMalloc size = (.ok p, c')) : p.isSome ↔ 0 < size := by
  unfold cudaMalloc at heq
  rcases hc : c.answer with ⟨_ | text, c₁⟩ <;> rw [hc] at heq
  · by_cases hsize : size = 0
    · simp only [hsize, if_true] at heq
      cases heq
      simp [hsize]
    · simp only [hsize, if_false] at heq
      cases heq
      simp [Nat.pos_of_ne_zero hsize]
  · cases heq

end Cuda

/-- A K and a V pointer are there, or are null, as `half` bytes make them. -/
def Filled (half : Nat) (k v : Ptr) : Prop :=
  (k.isSome ↔ 0 < half) ∧ (v.isSome ↔ 0 < half)

/-- Both halves of a filled cache of positive size are there. -/
theorem Filled.isSome {half : Nat} {k v : Ptr} (h : Filled half k v) (hpos : 0 < half) :
    k.isSome ∧ v.isSome :=
  ⟨h.1.mpr hpos, h.2.mpr hpos⟩

/-- Both halves of a filled cache of size zero are null. -/
theorem Filled.eq_none {half : Nat} {k v : Ptr} (h : Filled half k v) (hzero : half = 0) :
    k = none ∧ v = none := by
  subst hzero
  simpa [Filled] using h

/-- A filled cache with a half missing has size zero. -/
theorem Filled.zero_of_not {half : Nat} {k v : Ptr} (h : Filled half k v)
    (hnone : k.isSome = false ∨ v.isSome = false) : half = 0 := by
  refine Nat.eq_zero_of_not_pos fun hpos => ?_
  obtain ⟨hk, hv⟩ := h.isSome hpos
  rcases hnone with hnone | hnone
  · rw [hk] at hnone
    cases hnone
  · rw [hv] at hnone
    cases hnone

/-- The device blocks behind the caches of one device. -/
def PerDeviceKVCache.blocks (cache : PerDeviceKVCache) : List Nat :=
  cache.kCache.blocks ++ cache.vCache.blocks

/-- The device blocks behind a list of caches. -/
def cacheBlocks (caches : List PerDeviceKVCache) : List Nat :=
  caches.flatMap PerDeviceKVCache.blocks

/-- No cache holds no block. -/
@[simp] theorem cacheBlocks_nil : cacheBlocks [] = [] := rfl

/-- The blocks of the first cache come before those of the others. -/
@[simp] theorem cacheBlocks_cons (cache : PerDeviceKVCache)
    (caches : List PerDeviceKVCache) :
    cacheBlocks (cache :: caches) = cache.blocks ++ cacheBlocks caches := rfl

/-- The blocks of a cache added last come after those of the others. -/
theorem cacheBlocks_concat (caches : List PerDeviceKVCache) (cache : PerDeviceKVCache) :
    cacheBlocks (caches ++ [cache]) = cacheBlocks caches ++ cache.blocks := by
  simp [cacheBlocks]

section Pair

variable {c c' : Cuda} {held : List Nat} {half : Nat} {kError vError : String → Error}

/-- A pair of allocations that fails leaves nothing of its own behind. -/
theorem mallocPair_error (h : c.Owns held) {e : Error}
    (heq : mallocPair c half kError vError = (.error e, c')) : c'.Owns held := by
  unfold mallocPair at heq
  rcases hk : c.cudaMalloc half with ⟨err | k, c₁⟩ <;> rw [hk] at heq <;>
    dsimp only at heq
  · cases heq
    exact h.malloc_error hk
  · have hheld := h.malloc_ok hk
    rcases hv : c₁.cudaMalloc half with ⟨err | v, c₂⟩ <;> rw [hv] at heq <;> cases heq
    exact (hheld.malloc_error hv).free

/-- A pair of allocations that succeeds owns both of its blocks. -/
theorem mallocPair_ok (h : c.Owns held) {k v : Ptr}
    (heq : mallocPair c half kError vError = (.ok (k, v), c')) :
    c'.Owns (k.blocks ++ v.blocks ++ held) := by
  unfold mallocPair at heq
  rcases hk : c.cudaMalloc half with ⟨err | k', c₁⟩ <;> rw [hk] at heq <;>
    dsimp only at heq
  · cases heq
  · have hheld := h.malloc_ok hk
    rcases hv : c₁.cudaMalloc half with ⟨err | v', c₂⟩ <;> rw [hv] at heq <;> cases heq
    refine (hheld.malloc_ok hv).perm ?_
    rw [← List.append_assoc]
    exact List.perm_append_comm.append_right held

/-- A pair of allocations that succeeds fills both halves. -/
theorem mallocPair_filled {k v : Ptr}
    (heq : mallocPair c half kError vError = (.ok (k, v), c')) : Filled half k v := by
  unfold mallocPair at heq
  rcases hk : c.cudaMalloc half with ⟨err | k', c₁⟩ <;> rw [hk] at heq <;>
    dsimp only at heq
  · cases heq
  · rcases hv : c₁.cudaMalloc half with ⟨err | v', c₂⟩ <;> rw [hv] at heq <;> cases heq
    exact ⟨Cuda.malloc_isSome hk, Cuda.malloc_isSome hv⟩

/-- Freeing a cache gives its two blocks back and no other. -/
theorem freeCache_owns {cache : PerDeviceKVCache} (h : c.Owns (cache.blocks ++ held)) :
    (freeCache c cache).Owns held := by
  have hset := h.setDevice cache.deviceId
  rw [PerDeviceKVCache.blocks, List.append_assoc] at hset
  exact hset.free.free

/-- Freeing a list of caches gives back their blocks and no other. -/
theorem freeCaches_owns {caches : List PerDeviceKVCache}
    (h : c.Owns (cacheBlocks caches ++ held)) : (freeCaches c caches).Owns held := by
  induction caches generalizing c with
  | nil => exact h
  | cons cache rest ih =>
      rw [cacheBlocks_cons, List.append_assoc] at h
      exact ih (freeCache_owns h)

end Pair

section Each

variable {S : Type} {bytes : Nat} {charge : Int → S → S} {detail : String → String}
  {held : List Nat}

/-- A device loop that fails has given everything back. -/
theorem allocateEach_error {devices : List Int} {caches : List PerDeviceKVCache}
    {books books' : S} {c c' : Cuda} (h : c.Owns (cacheBlocks caches ++ held)) {e : Error}
    (heq : allocateEach bytes charge detail devices caches books c =
      (.error e, books', c')) : c'.Owns held := by
  induction devices generalizing caches books c with
  | nil => cases heq
  | cons deviceId rest ih =>
      have hset := h.setDevice deviceId
      unfold allocateEach at heq
      rcases hd : c.cudaSetDevice deviceId with ⟨_ | text, c₁⟩ <;>
        rw [hd] at heq hset <;> dsimp only at heq hset
      · split at heq
        next err c₂ hpair =>
          cases heq
          exact freeCaches_owns (mallocPair_error hset hpair)
        next k v c₂ hpair =>
          refine ih ?_ heq
          refine (mallocPair_ok hset hpair).perm ?_
          rw [cacheBlocks_concat, ← List.append_assoc]
          exact List.perm_append_comm.append_right held
      · cases heq
        exact freeCaches_owns hset

/-- The first step of a device loop that succeeds: the device is set, its two
blocks are there, and the loop goes on with them. -/
theorem allocateEach_cons_ok {deviceId : Int} {rest : List Int}
    {caches caches' : List PerDeviceKVCache} {books books' : S} {c c' : Cuda}
    (heq : allocateEach bytes charge detail (deviceId :: rest) caches books c =
      (.ok caches', books', c')) :
    ∃ (kError vError : String → Error) (k v : Ptr) (c₂ : Cuda),
      mallocPair (c.cudaSetDevice deviceId).2 (bytes / 2) kError vError = (.ok (k, v), c₂) ∧
      allocateEach bytes charge detail rest
        (caches ++ [{ kCache := k, vCache := v, deviceId, bytesAllocated := bytes }])
        (charge deviceId books) c₂ = (.ok caches', books', c') := by
  unfold allocateEach at heq
  rcases hd : c.cudaSetDevice deviceId with ⟨_ | text, c₁⟩ <;>
    rw [hd] at heq <;> dsimp only at heq
  · split at heq
    next err c₂ hpair => cases heq
    next k v c₂ hpair => exact ⟨_, _, k, v, c₂, hpair, heq⟩
  · cases heq

/-- A device loop that succeeds serves every device, in order. -/
theorem allocateEach_devices {devices : List Int} {caches caches' : List PerDeviceKVCache}
    {books books' : S} {c c' : Cuda}
    (heq : allocateEach bytes charge detail devices caches books c =
      (.ok caches', books', c')) :
    caches'.map (·.deviceId) = caches.map (·.deviceId) ++ devices := by
  induction devices generalizing caches books c with
  | nil =>
      cases heq
      simp
  | cons deviceId rest ih =>
      obtain ⟨_, _, k, v, c₂, -, hrest⟩ := allocateEach_cons_ok heq
      simpa using ih hrest

/-- A device loop that succeeds hands over the blocks of its caches. -/
theorem allocateEach_ok {devices : List Int} {caches caches' : List PerDeviceKVCache}
    {books books' : S} {c c' : Cuda} (h : c.Owns (cacheBlocks caches ++ held))
    (heq : allocateEach bytes charge detail devices caches books c =
      (.ok caches', books', c')) : c'.Owns (cacheBlocks caches' ++ held) := by
  induction devices generalizing caches books c with
  | nil =>
      cases heq
      exact h
  | cons deviceId rest ih =>
      obtain ⟨_, _, k, v, c₂, hpair, hrest⟩ := allocateEach_cons_ok heq
      have howns := mallocPair_ok (h.setDevice deviceId) hpair
      refine ih (howns.perm ?_) hrest
      rw [cacheBlocks_concat, ← List.append_assoc]
      exact List.perm_append_comm.append_right held

/-- Every device gets both blocks, or with size zero none. -/
theorem allocateEach_filled {devices : List Int} {caches caches' : List PerDeviceKVCache}
    {books books' : S} {c c' : Cuda}
    (heq : allocateEach bytes charge detail devices caches books c =
      (.ok caches', books', c'))
    (hold : ∀ cache ∈ caches, Filled (bytes / 2) cache.kCache cache.vCache) :
    ∀ cache ∈ caches', Filled (bytes / 2) cache.kCache cache.vCache := by
  induction devices generalizing caches books c with
  | nil =>
      cases heq
      exact hold
  | cons deviceId rest ih =>
      obtain ⟨_, _, k, v, c₂, hpair, hrest⟩ := allocateEach_cons_ok heq
      refine ih hrest fun cache hcache => ?_
      rcases List.mem_append.mp hcache with hcache | hcache
      · exact hold cache hcache
      · rw [List.mem_singleton.mp hcache]
        exact mallocPair_filled hpair

end Each

/-! ## CUDA calls that succeed -/

/-- All coming calls succeed. -/
def Cuda.Willing (c : Cuda) : Prop := ∀ x ∈ c.answers, x = none

namespace Cuda.Willing

variable {c : Cuda}

theorem answer (h : c.Willing) : c.answer.1 = none ∧ c.answer.2.Willing := by
  unfold Cuda.answer
  cases hanswers : c.answers with
  | nil => exact ⟨rfl, h⟩
  | cons x rest =>
      have hx : x = none := h x (by rw [hanswers]; exact List.mem_cons_self)
      exact ⟨hx, fun y hy => h y (by rw [hanswers]; exact List.mem_cons_of_mem x hy)⟩

theorem setDevice (h : c.Willing) (deviceId : Int) :
    ∃ c', c.cudaSetDevice deviceId = (none, c') ∧ c'.Willing := by
  obtain ⟨hnone, hrest⟩ := h.answer
  exact ⟨c.answer.2, Prod.ext hnone rfl, hrest⟩

/-- A willing device layer grants an allocation. -/
theorem malloc (h : c.Willing) (size : Nat) :
    ∃ p c', c.cudaMalloc size = (.ok p, c') ∧ c'.Willing := by
  obtain ⟨hnone, hrest⟩ := h.answer
  have hanswer : c.answer = (none, c.answer.2) := Prod.ext hnone rfl
  unfold Cuda.cudaMalloc
  rw [hanswer]
  by_cases hzero : size = 0
  · exact ⟨none, c.answer.2, if_pos hzero, hrest⟩
  · refine ⟨_, { c.answer.2 with
      next := c.answer.2.next + 1
      outstanding := c.answer.2.next :: c.answer.2.outstanding }, if_neg hzero, hrest⟩

/-- A willing device layer grants the two allocations of a cache. -/
theorem pair (h : c.Willing) (half : Nat) (kError vError : String → Error) :
    ∃ k v c', mallocPair c half kError vError = (.ok (k, v), c') ∧ c'.Willing := by
  obtain ⟨k, c₁, hk, hrest⟩ := h.malloc half
  obtain ⟨v, c₂, hv, hrest⟩ := hrest.malloc half
  exact ⟨k, v, c₂, by simp [mallocPair, hk, hv], hrest⟩

/-- A willing device layer grants a cache on every device of a list. -/
theorem each {S : Type} (h : c.Willing) (bytes : Nat) (charge : Int → S → S)
    (detail : String → String) (devices : List Int) (caches : List PerDeviceKVCache) (books : S) :
    ∃ caches' books' c',
      allocateEach bytes charge detail devices caches books c = (.ok caches', books', c') := by
  induction devices generalizing c caches books with
  | nil => exact ⟨caches, books, c, rfl⟩
  | cons deviceId rest ih =>
      obtain ⟨c₁, hset, hrest⟩ := h.setDevice deviceId
      obtain ⟨k, v, c₂, hpair, hrest⟩ := hrest.pair (bytes / 2)
        (fun err => .internal
          (s!"Failed to allocate K cache on device {deviceId}" ++ detail err))
        (fun err => .internal
          (s!"Failed to allocate V cache on device {deviceId}" ++ detail err))
      unfold allocateEach
      rw [hset]
      dsimp only
      rw [hpair]
      exact ih hrest _ _

end Cuda.Willing

end Qwen
