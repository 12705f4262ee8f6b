import WinInference.Gpu.Ledger
import WinInference.KVCache.Split
import WinInference.Scheduler.State

/-!
# What the admission check leaves room for

`admit` lets a request through when the router has room for it, and the request
is later routed and reserved.  On one device both sides take all the bytes, and
`route` picks the device with the most of them available.  Over several
devices the check takes the bytes of the KV heads of one device, and `reserve`
an equal share of all the bytes; these agree only when the heads come out even.

`reserve_fits` says what a reservation does to a budget with room,
`bestDevice_spec` which device is picked, and `Budgeted.place_one` and
`Budgeted.place_all` bring the check and the reservation together;
`sharesAgree_iff_heads` is the condition on the heads.
-/

namespace Qwen

namespace GPUBudget

variable {b : GPUBudget} {share : Nat}

/-- What is available of a budget that is not over-committed. -/
theorem available_eq (hfits : b.usedMemory + b.reservedMemory ≤ b.totalMemory)
    (htotal : b.totalMemory < 2 ^ 64) :
    b.available = b.totalMemory - (b.usedMemory + b.reservedMemory) := by
  have hsum : sizeAdd b.usedMemory b.reservedMemory = b.usedMemory + b.reservedMemory :=
    Wrapping.add_of_lt (by omega)
  have hfirst : sizeSub b.totalMemory b.usedMemory = b.totalMemory - b.usedMemory :=
    Wrapping.sub_of_le htotal (by omega)
  have hsecond : sizeSub (b.totalMemory - b.usedMemory) b.reservedMemory =
      b.totalMemory - b.usedMemory - b.reservedMemory :=
    Wrapping.sub_of_le (by omega) (by omega)
  unfold available
  rw [hsum, hfirst, hsecond]
  split <;> omega

/-- A share that is available can be reserved. -/
theorem reserve_fits (hfits : b.usedMemory + b.reservedMemory ≤ b.totalMemory)
    (htotal : b.totalMemory < 2 ^ 64) (hshare : share ≤ b.available) :
    (b.reserve share).usedMemory + (b.reserve share).reservedMemory ≤
      (b.reserve share).totalMemory := by
  rw [available_eq hfits htotal] at hshare
  have hadd : sizeAdd b.reservedMemory share = b.reservedMemory + share :=
    Wrapping.add_of_lt (by omega)
  unfold reserve
  rw [hadd]
  dsimp only
  omega

end GPUBudget

namespace GPURouter

variable {g : GPURouter} {share : Nat}

/-- No device is over-committed. -/
def WithinTotals (g : GPURouter) : Prop :=
  ∀ b ∈ g.budgets, b.usedMemory + b.reservedMemory ≤ b.totalMemory

/-- A router with one budget for each of its devices, none over-committed. -/
structure Budgeted (g : GPURouter) (devices : List Int) (threshold : Nat) : Prop where
  devices_eq : g.deviceManager.devices = devices
  threshold_eq : g.deviceManager.contextThresholdForTp = threshold
  ids : g.budgets.map (·.deviceId) = devices
  within : g.WithinTotals
  total : ∀ b ∈ g.budgets, b.totalMemory < 2 ^ 64

/-- `route` and then `reserve`. -/
def place (g : GPURouter) (contextLength totalBytes : Nat) : GPURouter :=
  let (decision, g) := g.route contextLength
  g.reserve decision totalBytes

/-! ## The two updates of the budgets -/

theorem mem_updateBudget {f : GPUBudget → GPUBudget} {deviceId : Int} {budgets : List GPUBudget}
    {b : GPUBudget} (hb : b ∈ updateBudget f deviceId budgets) :
    b ∈ budgets ∨ ∃ b' ∈ budgets, b'.deviceId = deviceId ∧ b = f b' := by
  induction budgets with
  | nil => cases hb
  | cons first rest ih =>
      unfold updateBudget at hb
      by_cases hid : first.deviceId = deviceId
      · rw [if_pos hid] at hb
        rcases List.mem_cons.mp hb with rfl | hb
        · exact Or.inr ⟨first, List.mem_cons_self, hid, rfl⟩
        · exact Or.inl (List.mem_cons_of_mem first hb)
      · rw [if_neg hid] at hb
        rcases List.mem_cons.mp hb with rfl | hb
        · exact Or.inl List.mem_cons_self
        · rcases ih hb with hb | ⟨b', hb', hid', rfl⟩
          · exact Or.inl (List.mem_cons_of_mem first hb)
          · exact Or.inr ⟨b', List.mem_cons_of_mem first hb', hid', rfl⟩

/-- Updates of other devices pass a budget by. -/
theorem updateBudgets_absent {f : GPUBudget → GPUBudget} {first : GPUBudget} {ids : List Int}
    (hfirst : first.deviceId ∉ ids) (budgets : List GPUBudget) :
    updateBudgets f ids (first :: budgets) = first :: updateBudgets f ids budgets := by
  induction ids generalizing budgets with
  | nil => rfl
  | cons id rest ih =>
      obtain ⟨hne, hrest⟩ := not_or.mp fun h => hfirst (List.mem_cons.mpr h)
      have hstep : updateBudget f id (first :: budgets) =
          first :: updateBudget f id budgets := by
        rw [updateBudget, if_neg hne]
      have hunfold : ∀ bs, updateBudgets f (id :: rest) bs =
          updateBudgets f rest (updateBudget f id bs) := fun _ => rfl
      rw [hunfold, hunfold, hstep, ih hrest]

/-- An update of every device, each once, is an update of every budget. -/
theorem updateBudgets_all {f : GPUBudget → GPUBudget} (hf : ∀ b, (f b).deviceId = b.deviceId)
    {budgets : List GPUBudget} (hnodup : (budgets.map (·.deviceId)).Nodup) :
    updateBudgets f (budgets.map (·.deviceId)) budgets = budgets.map f := by
  induction budgets with
  | nil => rfl
  | cons first rest ih =>
      obtain ⟨hfirst, hrest⟩ := List.nodup_cons.mp hnodup
      have hunfold : updateBudgets f ((first :: rest).map (·.deviceId)) (first :: rest) =
          updateBudgets f (rest.map (·.deviceId)) (f first :: rest) := by
        unfold updateBudgets
        rw [List.map_cons, List.foldl_cons, updateBudget, if_pos rfl]
      have hkept : (f first).deviceId ∉ rest.map (·.deviceId) := by
        rw [hf]
        exact hfirst
      rw [hunfold, updateBudgets_absent hkept, ih hrest, List.map_cons]

/-! ## The choice of one device -/

/-- `bestDevice` finds a device that has at least as much available as any
other, unless none has anything. -/
theorem bestDevice_spec (fallback : Int) (budgets : List GPUBudget) :
    (∀ b ∈ budgets, b.available = 0) ∨
      ∃ b ∈ budgets, b.deviceId = bestDevice fallback budgets ∧
        ∀ b' ∈ budgets, b'.available ≤ b.available := by
  -- the scan so far has found a best budget, or nothing available
  have hscan : ∀ (budgets : List GPUBudget) (best : Nat × Int),
      let found := budgets.foldl
        (fun (best : Nat × Int) b =>
          if b.available > best.1 then (b.available, b.deviceId) else best) best
      best.1 ≤ found.1 ∧ (∀ b ∈ budgets, b.available ≤ found.1) ∧
        (found = best ∨ ∃ b ∈ budgets, b.available = found.1 ∧ b.deviceId = found.2) := by
    intro budgets
    induction budgets with
    | nil => exact fun best => ⟨Nat.le_refl _, by simp, Or.inl rfl⟩
    | cons first rest ih =>
        intro best
        rw [List.foldl_cons]
        by_cases hmore : first.available > best.1
        · rw [if_pos hmore]
          obtain ⟨hle, hall, hfound⟩ := ih (first.available, first.deviceId)
          refine ⟨hmore.le.trans hle, List.forall_mem_cons.mpr ⟨hle, hall⟩, Or.inr ?_⟩
          rcases hfound with heq | ⟨b, hb, havail, hid⟩
          · exact ⟨first, List.mem_cons_self, by rw [heq], by rw [heq]⟩
          · exact ⟨b, List.mem_cons_of_mem first hb, havail, hid⟩
        · rw [if_neg hmore]
          obtain ⟨hle, hall, hfound⟩ := ih best
          refine ⟨hle, List.forall_mem_cons.mpr ⟨(Nat.not_lt.mp hmore).trans hle, hall⟩, ?_⟩
          rcases hfound with heq | ⟨b, hb, havail, hid⟩
          · exact Or.inl heq
          · exact Or.inr ⟨b, List.mem_cons_of_mem first hb, havail, hid⟩
  obtain ⟨-, hall, hfound⟩ := hscan budgets (0, fallback)
  unfold bestDevice
  rcases hfound with heq | ⟨b, hb, havail, hid⟩
  · left
    intro b hb
    have hzero := hall b hb
    rw [heq] at hzero
    exact Nat.le_zero.mp hzero
  · exact Or.inr ⟨b, hb, hid, fun b' hb' => by
      rw [havail]
      exact hall b' hb'⟩

/-! ## The check and the charge -/

/-- The check on several devices takes no less than the charge: the bytes of the
heads of one device are unknown, or at least an equal share. -/
def SharesAgree (devices : List Int) (totalBytes perDeviceBytes : Nat) : Prop :=
  perDeviceBytes = 0 ∨ totalBytes / devices.length ≤ perDeviceBytes

/-- A request goes to one device. -/
def OnOneDevice (devices : List Int) (threshold contextLength : Nat) : Prop :=
  contextLength ≤ threshold ∨ devices.length < 2

section Place

variable {devices : List Int} {threshold n totalBytes perDeviceBytes : Nat}

theorem Budgeted.strategy (h : g.Budgeted devices threshold) :
    g.deviceManager.recommendStrategy n =
      if n > threshold ∧ devices.length ≥ 2 then .tensorParallel else .perRequest := by
  unfold DeviceManager.recommendStrategy
  rw [h.devices_eq, h.threshold_eq]
  split
  · rfl
  · split <;> rfl

/-- A request on one device is charged what was checked. -/
theorem Budgeted.place_one (h : g.Budgeted devices threshold) (hnodup : devices.Nodup)
    (hone : OnOneDevice devices threshold n)
    (hplace : g.canPlace n totalBytes perDeviceBytes = true) :
    (g.place n totalBytes).WithinTotals := by
  have hstrategy : g.deviceManager.recommendStrategy n = .perRequest := by
    rw [h.strategy, if_neg]
    rintro ⟨hlong, hmany⟩
    rcases hone with hone | hone <;> omega
  have hbudgets : (g.place n totalBytes).budgets =
      updateBudget (GPUBudget.reserve totalBytes)
        (bestDevice g.deviceManager.selectDevice.1 g.budgets) g.budgets := by
    unfold place route
    rw [hstrategy]
    rfl
  unfold canPlace at hplace
  rw [hstrategy] at hplace
  obtain ⟨chosen, hmem, hfit⟩ := List.any_eq_true.mp hplace
  have hroom : totalBytes ≤ chosen.available := by simpa [GPUBudget.canFit] using hfit
  intro b hb
  rw [hbudgets] at hb
  rcases mem_updateBudget hb with hb | ⟨b', hb', hid, rfl⟩
  · exact h.within b hb
  · refine GPUBudget.reserve_fits (h.within b' hb') (h.total b' hb') ?_
    rcases bestDevice_spec g.deviceManager.selectDevice.1 g.budgets with hnone | ⟨best, hbest, hbestId, hmost⟩
    · have hzero := hnone chosen hmem
      omega
    · -- the ids are distinct, so the budget that is charged is the best one
      have hsame : b' = best := by
        refine List.inj_on_of_nodup_map ?_ hb' hbest (hid.trans hbestId.symm)
        rw [h.ids]
        exact hnodup
      rw [hsame]
      exact hroom.trans (hmost chosen hmem)

/-- On several devices every budget is charged an equal share. -/
theorem Budgeted.place_all (h : g.Budgeted devices threshold) (hnodup : devices.Nodup)
    (hmany : ¬ OnOneDevice devices threshold n) :
    (g.place n totalBytes).budgets =
      g.budgets.map (GPUBudget.reserve (totalBytes / devices.length)) := by
  have hstrategy : g.deviceManager.recommendStrategy n = .tensorParallel := by
    unfold OnOneDevice at hmany
    rw [h.strategy, if_pos (by omega)]
  have hplaced : (g.place n totalBytes).budgets =
      updateBudgets (GPUBudget.reserve (totalBytes / devices.length)) devices g.budgets := by
    unfold place route
    rw [hstrategy, ← h.devices_eq]
    rfl
  have hids : (g.budgets.map (·.deviceId)).Nodup := by rwa [h.ids]
  have hall := updateBudgets_all (f := GPUBudget.reserve (totalBytes / devices.length))
    (fun _ => rfl) hids
  rw [hplaced, ← hall, h.ids]

/-- What the check on several devices finds on each of them. -/
theorem Budgeted.checked (h : g.Budgeted devices threshold)
    (hmany : ¬ OnOneDevice devices threshold n) :
    g.canPlace n totalBytes perDeviceBytes = true ↔ ∀ b ∈ g.budgets,
      (if perDeviceBytes > 0 then perDeviceBytes else totalBytes / devices.length) ≤
        b.available := by
  have hstrategy : g.deviceManager.recommendStrategy n = .tensorParallel := by
    unfold OnOneDevice at hmany
    rw [h.strategy, if_pos (by omega)]
  have hlength : g.budgets.length = devices.length := by
    rw [← h.ids, List.length_map]
  unfold canPlace
  rw [hstrategy]
  simp [GPUBudget.canFit, hlength]

/-- **The check.**  Whatever the budgets are, a request that can be placed leaves
no device over-committed, if and only if it goes to one device or the shares
agree. -/
theorem place_within_iff (hnodup : devices.Nodup) (hne : devices ≠ [])
    (hsize : perDeviceBytes < 2 ^ 64) (htotal : totalBytes < 2 ^ 64) :
    (∀ g : GPURouter, g.Budgeted devices threshold →
        g.canPlace n totalBytes perDeviceBytes = true → (g.place n totalBytes).WithinTotals) ↔
      OnOneDevice devices threshold n ∨ SharesAgree devices totalBytes perDeviceBytes := by
  constructor
  · intro hall
    by_contra hneither
    obtain ⟨hmany, hdisagree⟩ := not_or.mp hneither
    unfold SharesAgree at hdisagree
    obtain ⟨hpos, hless⟩ := not_or.mp hdisagree
    -- budgets with room for the checked share and no more
    let tight : GPURouter :=
      { deviceManager := { devices := devices, contextThresholdForTp := threshold }
        budgets := devices.map fun d => { deviceId := d, totalMemory := perDeviceBytes } }
    have htight : tight.Budgeted devices threshold :=
      { devices_eq := rfl
        threshold_eq := rfl
        ids := by simp [tight, Function.comp_def]
        within := by simp [tight, WithinTotals]
        total := by simpa [tight] using fun _ _ => hsize }
    have hcheck : tight.canPlace n totalBytes perDeviceBytes = true := by
      rw [htight.checked hmany]
      intro b hb
      rw [if_pos (by omega), GPUBudget.available_eq (htight.within b hb) (htight.total b hb)]
      obtain ⟨d, -, rfl⟩ := List.mem_map.mp hb
      simp
    have hwithin := hall tight htight hcheck
    obtain ⟨d, hd⟩ := List.exists_mem_of_ne_nil devices hne
    have hshare : totalBytes / devices.length < 2 ^ 64 :=
      (Nat.div_le_self _ _).trans_lt htotal
    have hover := hwithin
      (GPUBudget.reserve (totalBytes / devices.length)
        { deviceId := d, totalMemory := perDeviceBytes }) (by
          rw [htight.place_all hnodup hmany]
          exact List.mem_map_of_mem (List.mem_map_of_mem hd))
    have hadd : sizeAdd 0 (totalBytes / devices.length) = 0 + totalBytes / devices.length :=
      Wrapping.add_of_lt (by omega)
    unfold GPUBudget.reserve at hover
    dsimp only at hover
    rw [hadd] at hover
    omega
  · rintro hgood g hg hplace
    by_cases hone : OnOneDevice devices threshold n
    · exact hg.place_one hnodup hone hplace
    · have hshares := hgood.resolve_left hone
      have hroom := (hg.checked hone).mp hplace
      intro b hb
      rw [hg.place_all hnodup hone] at hb
      obtain ⟨b', hb', rfl⟩ := List.mem_map.mp hb
      refine GPUBudget.reserve_fits (hg.within b' hb') (hg.total b' hb') ?_
      have hb'' := hroom b' hb'
      unfold SharesAgree at hshares
      split at hb'' <;> omega

end Place

/-- For sizes that do not wrap, the shares agree if there are more devices than
KV heads, or if the heads left over by the division come to less than a byte
for each device: in particular if the division is even. -/
theorem sharesAgree_iff_heads {config : KVAllocatorConfig} {n : Nat}
    (hsize : config.Sizeable n) :
    SharesAgree config.managedDevices (config.adopted.bytesForSeqLen n)
        (config.adopted.bytesForSeqLenPerDevice n) ↔
      config.numKvHeads.toNat < config.managedDevices.length ∨
        n * (config.numKvHeads.toNat % config.managedDevices.length) * config.bytesPerHead <
          config.managedDevices.length := by
  have hcount := config.managedDevices_pos
  have hunit := hsize.bytesPerHead_pos
  unfold SharesAgree
  rw [hsize.bytesForSeqLen_eq, hsize.bytesForSeqLenPerDevice_eq]
  generalize config.managedDevices.length = count at hcount ⊢
  generalize config.numKvHeads.toNat = heads
  generalize config.bytesPerHead = unit at hunit ⊢
  have hsplit : n * (heads * unit) =
      count * (n * (heads / count * unit)) + n * (heads % count) * unit := by
    calc n * (heads * unit) = n * ((count * (heads / count) + heads % count) * unit) := by
          rw [Nat.div_add_mod]
      _ = count * (n * (heads / count * unit)) + n * (heads % count) * unit := by ring
  rw [hsplit, Nat.mul_add_div hcount]
  have hless : n * (heads / count * unit) + n * (heads % count) * unit / count ≤
      n * (heads / count * unit) ↔ n * (heads % count) * unit < count := by
    rw [← Nat.div_eq_zero_iff_lt hcount]
    generalize n * (heads % count) * unit / count = left
    omega
  rw [hless, Nat.mul_eq_zero, Nat.mul_eq_zero, Nat.div_eq_zero_iff_lt hcount]
  constructor
  · rintro ((rfl | hfew | hzero) | hrest)
    · exact Or.inr (by simpa using hcount)
    · exact Or.inl hfew
    · omega
    · exact Or.inr hrest
  · rintro (hfew | hrest)
    · exact Or.inl (Or.inr (Or.inl hfew))
    · exact Or.inr hrest

end GPURouter

/-- The two sizes `admit` computes for a request of `n` tokens. -/
theorem estimateKvMemory_of_config {config : KVAllocatorConfig}
    (hbytes : config.adopted.bytesPerToken = kvBytesPerToken) (n : Nat) :
    estimateKvMemory n = config.adopted.bytesForSeqLen n := by
  rw [congrFun estimateKvMemory_eq n, KVAllocatorConfig.bytesForSeqLen, hbytes]

/-- **What `can_place` checks and `reserve` charges.**  For every request length
and every allocator configuration of the scheduler's bytes per token whose
devices are the router's: whatever the budgets are, a request that can be placed
leaves no device over-committed, if and only if it goes to one device or the
shares agree; and for sizes that do not wrap the shares agree by the heads. -/
theorem reserve_within_checked {config : KVAllocatorConfig} {devices : List Int}
    (hdevices : config.managedDevices = devices) (hnodup : devices.Nodup)
    (hbytes : config.adopted.bytesPerToken = kvBytesPerToken) (threshold n : Nat) :
    ((∀ g : GPURouter, g.Budgeted devices threshold →
        g.canPlace n (estimateKvMemory n) (config.adopted.bytesForSeqLenPerDevice n) = true →
          (g.place n (estimateKvMemory n)).WithinTotals) ↔
      GPURouter.OnOneDevice devices threshold n ∨
        GPURouter.SharesAgree devices (estimateKvMemory n)
          (config.adopted.bytesForSeqLenPerDevice n)) ∧
    (config.Sizeable n →
      (GPURouter.SharesAgree devices (estimateKvMemory n)
          (config.adopted.bytesForSeqLenPerDevice n) ↔
        config.numKvHeads.toNat < devices.length ∨
          n * (config.numKvHeads.toNat % devices.length) * config.bytesPerHead <
            devices.length)) := by
  subst hdevices
  constructor
  · have hne : config.managedDevices ≠ [] := List.ne_nil_of_length_pos config.managedDevices_pos
    exact GPURouter.place_within_iff hnodup hne (Wrapping.mul_lt _ _ _) (estimateKvMemory_lt n)
  · intro hsize
    rw [estimateKvMemory_of_config hbytes]
    exact GPURouter.sharesAgree_iff_heads hsize

/-- Three GPUs and a request that none of them takes alone. -/
theorem reserve_within_checked_sample :
    let config : KVAllocatorConfig := { deviceIds := [0, 1, 2] }
    ((∀ g : GPURouter, g.Budgeted [0, 1, 2] 20000 →
        g.canPlace 30000 (estimateKvMemory 30000) (config.adopted.bytesForSeqLenPerDevice 30000) =
            true →
          (g.place 30000 (estimateKvMemory 30000)).WithinTotals) ↔
      GPURouter.OnOneDevice [0, 1, 2] 20000 30000 ∨
        GPURouter.SharesAgree [0, 1, 2] (estimateKvMemory 30000)
          (config.adopted.bytesForSeqLenPerDevice 30000)) ∧
    (GPURouter.SharesAgree [0, 1, 2] (estimateKvMemory 30000)
          (config.adopted.bytesForSeqLenPerDevice 30000) ↔
        config.numKvHeads.toNat < [(0 : Int), 1, 2].length ∨
          30000 * (config.numKvHeads.toNat % [(0 : Int), 1, 2].length) * config.bytesPerHead <
            [(0 : Int), 1, 2].length) := by
  intro config
  have hdevices : config.managedDevices = [0, 1, 2] := rfl
  have hboth := reserve_within_checked hdevices (by decide) (by decide) 20000 30000
  exact ⟨hboth.1, hboth.2 (by constructor <;> decide)⟩

/-- Three GPUs with 2 GB each: `can_place` asks for two of eight heads on each,
which fit, and `reserve` charges a third of everything, which does not. -/
theorem three_gpus_overcommitted :
    let config : KVAllocatorConfig := { deviceIds := [0, 1, 2] }
    let g : GPURouter := GPURouter.initializeBudgets
      { deviceManager := { devices := [0, 1, 2] } } 2000000000
    config.adopted.bytesPerToken = kvBytesPerToken ∧ g.Budgeted [0, 1, 2] 20000 ∧
      g.canPlace 30000 (estimateKvMemory 30000) (config.adopted.bytesForSeqLenPerDevice 30000) =
        true ∧
      ¬ (g.place 30000 (estimateKvMemory 30000)).WithinTotals := by
  intro config g
  refine ⟨by decide, ⟨rfl, rfl, rfl, ?_, ?_⟩, by decide +kernel, ?_⟩
  · unfold GPURouter.WithinTotals
    decide
  · decide
  · unfold GPURouter.WithinTotals
    decide +kernel

end Qwen
