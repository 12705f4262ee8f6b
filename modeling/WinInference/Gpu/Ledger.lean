import Mathlib.Logic.Function.Iterate
import WinInference.Gpu.Router

/-!
# The router's ledger

`Ledger g used reserved`: the two counters of the budget of each device hold,
as `size_t`, the bytes `used` and `reserved` there.  `reserve` adds the charge
of a decision to what is reserved, `unreserve` takes it out again, `commit`
moves it to what is used, and `free` takes it out of that: the two formulas for
the share of a device agree on every decision `route` makes.

The lemmas `Ledger.route`, `Ledger.reserve`, `Ledger.unreserve`, `Ledger.commit`
and `Ledger.free` are these moves.  `Room` and `Fits` say that what is held fits
into the budgets as a number, not only as a `size_t`; then `free` never
subtracts more than there is (`Ledger.freeWraps_false`).
-/

namespace Qwen

/-- What a placement on `deviceIds` is charged on device `d`: one share for each
time the device is listed. -/
def GPURouter.chargeOn (deviceIds : List Int) (bytes : Nat) (d : Int) : Nat :=
  deviceIds.count d * GPURouter.deviceShare deviceIds bytes

section Update

variable {f : GPUBudget → GPUBudget}

/-- An update of a device is seen on that device alone. -/
theorem find_updateBudget (hf : ∀ b, (f b).deviceId = b.deviceId) (deviceId d : Int)
    (budgets : List GPUBudget) :
    (updateBudget f deviceId budgets).find? (·.deviceId = d) =
      if deviceId = d then (budgets.find? (·.deviceId = d)).map f
      else budgets.find? (·.deviceId = d) := by
  induction budgets with
  | nil => simp [updateBudget]
  | cons b rest ih =>
      by_cases hb : b.deviceId = deviceId
      · by_cases hd : deviceId = d
        · have hfirst : b.deviceId = d := hb.trans hd
          simp [updateBudget, hd, hfirst, hf]
        · have hfirst : b.deviceId ≠ d := fun h => hd (hb.symm.trans h)
          have hnew : (f b).deviceId ≠ d := by rwa [hf]
          simp [updateBudget, hb, hd, hnew]
      · by_cases hd : b.deviceId = d
        · have hne : deviceId ≠ d := fun h => hb (hd.trans h.symm)
          rw [updateBudget, if_neg hb, if_neg hne, List.find?_cons_of_pos (by simp [hd]),
            List.find?_cons_of_pos (by simp [hd])]
        · simp only [updateBudget, hb, if_false, List.find?_cons, hd, decide_false]
          exact ih

/-- A list of updates reaches the budget of a device once for each time the
device is listed. -/
theorem find_updateBudgets (hf : ∀ b, (f b).deviceId = b.deviceId) (deviceIds : List Int)
    (d : Int) (budgets : List GPUBudget) :
    (updateBudgets f deviceIds budgets).find? (·.deviceId = d) =
      (budgets.find? (·.deviceId = d)).map (Nat.iterate f (deviceIds.count d)) := by
  induction deviceIds generalizing budgets with
  | nil => simp [updateBudgets]
  | cons deviceId rest ih =>
      have hstep : updateBudgets f (deviceId :: rest) budgets =
          updateBudgets f rest (updateBudget f deviceId budgets) := rfl
      rw [hstep, ih, find_updateBudget hf, List.count_cons]
      by_cases hd : deviceId = d
      · simp [hd, Function.iterate_succ, Option.map_map, Function.comp_def]
      · simp [hd]

end Update

namespace GPURouter

/-- The counters of each budget hold these bytes as `size_t`. -/
def Ledger (g : GPURouter) (used reserved : Int → Nat) : Prop :=
  ∀ d b, g.getBudget d = some b →
    Wrapping.Tracks 64 b.usedMemory (used d) ∧
      Wrapping.Tracks 64 b.reservedMemory (reserved d)

/-- Every budget is untouched. -/
def Idle (g : GPURouter) : Prop :=
  ∀ b ∈ g.budgets, b.usedMemory = 0 ∧ b.reservedMemory = 0

/-- New budgets are idle. -/
theorem initializeBudgets_idle (g : GPURouter) (kvMemoryPerGpu : Nat) :
    (g.initializeBudgets kvMemoryPerGpu).Idle := by
  intro b hb
  simp only [initializeBudgets, List.mem_map] at hb
  obtain ⟨d, -, rfl⟩ := hb
  exact ⟨rfl, rfl⟩

/-- An idle router has charged nothing. -/
theorem Idle.ledger {g : GPURouter} (h : g.Idle) :
    g.Ledger (fun _ => 0) (fun _ => 0) := by
  intro d b hb
  obtain ⟨hused, hreserved⟩ := h b (List.mem_of_find?_eq_some hb)
  rw [hused, hreserved]
  exact ⟨Wrapping.Tracks.zero 64, Wrapping.Tracks.zero 64⟩

section Operations

variable {g : GPURouter} {used reserved used' reserved' : Int → Nat}

/-- A ledger depends on the amounts alone. -/
theorem Ledger.congr (h : g.Ledger used reserved) (hu : ∀ d, used' d = used d)
    (hr : ∀ d, reserved' d = reserved d) : g.Ledger used' reserved' := by
  intro d b hb
  rw [hu d, hr d]
  exact h d b hb

/-- An operation on the listed budgets, from what it does to one of them. -/
theorem Ledger.update {f : GPUBudget → GPUBudget} {deviceIds : List Int}
    (h : g.Ledger used reserved) (hf : ∀ b, (f b).deviceId = b.deviceId)
    (hiter : ∀ d b, Wrapping.Tracks 64 b.usedMemory (used d) →
      Wrapping.Tracks 64 b.reservedMemory (reserved d) →
      Wrapping.Tracks 64 (Nat.iterate f (deviceIds.count d) b).usedMemory (used' d) ∧
        Wrapping.Tracks 64 (Nat.iterate f (deviceIds.count d) b).reservedMemory
          (reserved' d)) :
    Ledger { g with budgets := updateBudgets f deviceIds g.budgets } used' reserved' := by
  intro d b hb
  rw [getBudget, find_updateBudgets hf] at hb
  cases hold : g.budgets.find? (·.deviceId = d) with
  | none => simp [hold] at hb
  | some old =>
      obtain rfl : Nat.iterate f (deviceIds.count d) old = b := by simpa [hold] using hb
      obtain ⟨hu, hr⟩ := h d old hold
      exact hiter d old hu hr

/-- Repeated reservations add up in the reserved memory. -/
theorem iterate_reserve {share u r : Nat} (n : Nat) {b : GPUBudget}
    (hu : Wrapping.Tracks 64 b.usedMemory u)
    (hr : Wrapping.Tracks 64 b.reservedMemory r) :
    Wrapping.Tracks 64 (Nat.iterate (GPUBudget.reserve share) n b).usedMemory u ∧
      Wrapping.Tracks 64 (Nat.iterate (GPUBudget.reserve share) n b).reservedMemory
        (r + n * share) := by
  induction n generalizing b r with
  | zero => simpa using ⟨hu, hr⟩
  | succ n ih =>
      rw [Function.iterate_succ_apply, Nat.succ_mul, Nat.add_comm (n * share),
        ← Nat.add_assoc]
      exact ih hu (hr.charge share)

/-- Taken back as often, they are gone. -/
theorem iterate_unreserve {share u r : Nat} (n : Nat) {b : GPUBudget}
    (hu : Wrapping.Tracks 64 b.usedMemory u)
    (hr : Wrapping.Tracks 64 b.reservedMemory (r + n * share)) :
    Wrapping.Tracks 64 (Nat.iterate (GPUBudget.unreserve share) n b).usedMemory u ∧
      Wrapping.Tracks 64 (Nat.iterate (GPUBudget.unreserve share) n b).reservedMemory
        r := by
  induction n generalizing b with
  | zero => exact ⟨by simpa using hu, by simpa using hr⟩
  | succ n ih =>
      rw [Nat.succ_mul, ← Nat.add_assoc] at hr
      rw [Function.iterate_succ_apply]
      exact ih hu hr.release

/-- Committed as often, they are in the used memory. -/
theorem iterate_commit {share u r : Nat} (n : Nat) {b : GPUBudget}
    (hu : Wrapping.Tracks 64 b.usedMemory u)
    (hr : Wrapping.Tracks 64 b.reservedMemory (r + n * share)) :
    Wrapping.Tracks 64 (Nat.iterate (GPUBudget.commit share) n b).usedMemory
        (u + n * share) ∧
      Wrapping.Tracks 64 (Nat.iterate (GPUBudget.commit share) n b).reservedMemory r := by
  induction n generalizing b u with
  | zero => exact ⟨by simpa using hu, by simpa using hr⟩
  | succ n ih =>
      rw [Nat.succ_mul, ← Nat.add_assoc] at hr
      rw [Function.iterate_succ_apply, Nat.succ_mul, Nat.add_comm (n * share),
        ← Nat.add_assoc]
      exact ih (hu.charge share) hr.release

/-- Freed as often, they are gone from there. -/
theorem iterate_free {share u r : Nat} (n : Nat) {b : GPUBudget}
    (hu : Wrapping.Tracks 64 b.usedMemory (u + n * share))
    (hr : Wrapping.Tracks 64 b.reservedMemory r) :
    Wrapping.Tracks 64 (Nat.iterate (GPUBudget.free share) n b).usedMemory u ∧
      Wrapping.Tracks 64 (Nat.iterate (GPUBudget.free share) n b).reservedMemory r := by
  induction n generalizing b with
  | zero => exact ⟨by simpa using hu, by simpa using hr⟩
  | succ n ih =>
      rw [Nat.succ_mul, ← Nat.add_assoc] at hu
      rw [Function.iterate_succ_apply]
      exact ih hu.release hr

/-- The shares of a decision and of its device list are the same. -/
def Fair (decision : RoutingDecision) : Prop :=
  ∀ bytes, decisionShare decision bytes = deviceShare decision.deviceIds bytes

/-- `route` decides on tensor parallelism over at least two devices, or on one
device. -/
theorem route_cases (g : GPURouter) (contextLength : Nat) :
    ((g.route contextLength).1 =
        ⟨.tensorParallel, g.deviceManager.devices, true⟩ ∧
      2 ≤ g.deviceManager.devices.length ∧
      g.deviceManager.contextThresholdForTp < contextLength) ∨
    ∃ d, (g.route contextLength).1 = ⟨.perRequest, [d], false⟩ := by
  unfold route DeviceManager.recommendStrategy
  by_cases htp : contextLength > g.deviceManager.contextThresholdForTp ∧
      g.deviceManager.devices.length ≥ 2
  · exact Or.inl ⟨by simp [htp], htp.2, htp.1⟩
  · exact Or.inr ⟨bestDevice g.deviceManager.selectDevice.1 g.budgets, by simp [htp]⟩

/-- The shares that `route` decides on are those that `free` takes. -/
theorem route_fair (g : GPURouter) (contextLength : Nat) :
    Fair (g.route contextLength).1 := by
  intro bytes
  obtain ⟨heq, htwo, -⟩ | ⟨d, heq⟩ := g.route_cases contextLength
  · rw [heq]
    have hmany : g.deviceManager.devices.length > 1 := htwo
    simp [decisionShare, deviceShare, hmany]
  · rw [heq]
    simp [decisionShare, deviceShare]

/-- A decision names a device. -/
theorem route_deviceIds_ne_nil (g : GPURouter) (contextLength : Nat) :
    (g.route contextLength).1.deviceIds ≠ [] := by
  obtain ⟨heq, htwo, -⟩ | ⟨d, heq⟩ := g.route_cases contextLength
  · rw [heq]
    intro hnil
    have hnone : g.deviceManager.devices = [] := hnil
    simp [hnone] at htwo
  · rw [heq]
    simp

/-- Routing leaves the budgets alone. -/
theorem route_budgets (g : GPURouter) (contextLength : Nat) :
    (g.route contextLength).2.budgets = g.budgets := by
  unfold route
  cases g.deviceManager.recommendStrategy contextLength <;> rfl

/-- Routing leaves the devices alone. -/
theorem route_devices (g : GPURouter) (contextLength : Nat) :
    (g.route contextLength).2.deviceManager.devices = g.deviceManager.devices := by
  unfold route DeviceManager.selectDevice
  cases g.deviceManager.recommendStrategy contextLength with
  | tensorParallel | pipeline => rfl
  | perRequest =>
      dsimp only
      split <;> rfl

/-- The ledger after routing. -/
theorem Ledger.route (h : g.Ledger used reserved) (contextLength : Nat) :
    Ledger (g.route contextLength).2 used reserved := by
  intro d b hb
  rw [getBudget, route_budgets] at hb
  exact h d b hb

variable {decision : RoutingDecision} {bytes : Nat}

/-- The ledger after a reservation: its charge is reserved. -/
theorem Ledger.reserve (h : g.Ledger used reserved) (hfair : Fair decision) :
    Ledger (g.reserve decision bytes) used
      (fun d => reserved d + chargeOn decision.deviceIds bytes d) :=
  h.update (fun _ => rfl) fun d b hu hr => by
    rw [hfair bytes]
    exact iterate_reserve _ hu hr

/-- The ledger after taking it back. -/
theorem Ledger.unreserve
    (h : g.Ledger used (fun d => reserved d + chargeOn decision.deviceIds bytes d))
    (hfair : Fair decision) : Ledger (g.unreserve decision bytes) used reserved :=
  h.update (fun _ => rfl) fun d b hu hr => by
    rw [hfair bytes]
    exact iterate_unreserve _ hu hr

/-- The ledger after a commit: the charge is used. -/
theorem Ledger.commit
    (h : g.Ledger used (fun d => reserved d + chargeOn decision.deviceIds bytes d))
    (hfair : Fair decision) :
    Ledger (g.commit decision bytes)
      (fun d => used d + chargeOn decision.deviceIds bytes d) reserved :=
  h.update (fun _ => rfl) fun d b hu hr => by
    rw [hfair bytes]
    exact iterate_commit _ hu hr

/-- The ledger after a release. -/
theorem Ledger.free {deviceIds : List Int}
    (h : g.Ledger (fun d => used d + chargeOn deviceIds bytes d) reserved) :
    Ledger (g.free deviceIds bytes) used reserved :=
  h.update (fun _ => rfl) fun _ _ hu hr => iterate_free _ hu hr

/-- A release of no more than what each counter holds does not wrap. -/
theorem subtractionWraps_false {share : Nat} {deviceIds : List Int}
    {budgets : List GPUBudget}
    (h : ∀ d b, budgets.find? (·.deviceId = d) = some b →
      deviceIds.count d * share ≤ b.usedMemory ∧ b.usedMemory < 2 ^ 64) :
    subtractionWraps share deviceIds budgets = false := by
  induction deviceIds generalizing budgets with
  | nil => rfl
  | cons deviceId rest ih =>
      rw [subtractionWraps, Bool.or_eq_false_iff]
      constructor
      · cases hb : budgets.find? (·.deviceId = deviceId) with
        | none => rfl
        | some b =>
            have hroom := (h deviceId b hb).1
            rw [List.count_cons_self, Nat.succ_mul] at hroom
            simp only [decide_eq_false_iff_not, Nat.not_lt]
            omega
      · refine ih fun d b hb => ?_
        rw [find_updateBudget (f := GPUBudget.free share) (fun _ => rfl)] at hb
        by_cases hd : deviceId = d
        · rw [if_pos hd] at hb
          cases hold : budgets.find? (·.deviceId = d) with
          | none => simp [hold] at hb
          | some old =>
              obtain rfl : old.free share = b := by simpa [hold] using hb
              obtain ⟨hroom, hlt⟩ := h d old hold
              rw [hd, List.count_cons_self, Nat.succ_mul] at hroom
              have hsub : (old.free share).usedMemory = old.usedMemory - share :=
                Wrapping.sub_of_le hlt (by omega)
              omega
        · rw [if_neg hd] at hb
          obtain ⟨hroom, hlt⟩ := h d b hb
          rw [List.count_cons_of_ne hd] at hroom
          exact ⟨hroom, hlt⟩

/-- While what is used fits in `size_t`, freeing a part of it does not wrap. -/
theorem Ledger.freeWraps_false {deviceIds : List Int}
    (h : g.Ledger (fun d => used d + chargeOn deviceIds bytes d) reserved)
    (hfit : ∀ d, used d + chargeOn deviceIds bytes d < 2 ^ 64) :
    g.freeWraps deviceIds bytes = false := by
  refine subtractionWraps_false fun d b hb => ?_
  have hexact : b.usedMemory = used d + chargeOn deviceIds bytes d :=
    (h d b hb).1.exact (hfit d)
  have hlt := hfit d
  have hle : deviceIds.count d * deviceShare deviceIds bytes ≤
      used d + chargeOn deviceIds bytes d := Nat.le_add_left _ _
  omega

/-- A release that does not wrap takes no more than each counter holds. -/
theorem le_of_subtractionWraps_false {share : Nat} {deviceIds : List Int}
    {budgets : List GPUBudget} (h : subtractionWraps share deviceIds budgets = false)
    (hlt : ∀ d b, budgets.find? (·.deviceId = d) = some b → b.usedMemory < 2 ^ 64)
    {d : Int} {b : GPUBudget} (hb : budgets.find? (·.deviceId = d) = some b) :
    deviceIds.count d * share ≤ b.usedMemory := by
  induction deviceIds generalizing budgets b with
  | nil => simp
  | cons deviceId rest ih =>
      rw [subtractionWraps, Bool.or_eq_false_iff] at h
      obtain ⟨hfirst, hrest⟩ := h
      have hfind := find_updateBudget (f := GPUBudget.free share) (fun _ => rfl) deviceId
      have hlt' : ∀ e c, (updateBudget (GPUBudget.free share) deviceId budgets).find?
          (·.deviceId = e) = some c → c.usedMemory < 2 ^ 64 := by
        intro e c hc
        rw [hfind] at hc
        by_cases he : deviceId = e
        · rw [if_pos he] at hc
          obtain ⟨old, -, rfl⟩ := Option.map_eq_some_iff.mp hc
          exact Nat.mod_lt _ (Nat.two_pow_pos 64)
        · rw [if_neg he] at hc
          exact hlt e c hc
      by_cases hd : deviceId = d
      · subst hd
        rw [hb] at hfirst
        have hroom : share ≤ b.usedMemory := by simpa using hfirst
        have hsub : (b.free share).usedMemory = b.usedMemory - share :=
          Wrapping.sub_of_le (hlt _ b hb) hroom
        have hnext := ih hrest hlt' (b := b.free share) (by rw [hfind, if_pos rfl, hb]; rfl)
        rw [List.count_cons_self, Nat.succ_mul]
        omega
      · rw [List.count_cons_of_ne hd]
        exact ih hrest hlt' (by rw [hfind, if_neg hd]; exact hb)

/-! ## The memory of the devices -/

/-- The memory of each device there is a budget for. -/
def totals (g : GPURouter) (d : Int) : Option Nat := (g.getBudget d).map (·.totalMemory)

/-- An update that leaves ids and totals alone leaves the table of totals alone. -/
theorem totals_update {f : GPUBudget → GPUBudget} (hf : ∀ b, (f b).deviceId = b.deviceId)
    (ht : ∀ b, (f b).totalMemory = b.totalMemory) (deviceIds : List Int) :
    totals { g with budgets := updateBudgets f deviceIds g.budgets } = g.totals := by
  have hiter : ∀ n b, (Nat.iterate f n b).totalMemory = b.totalMemory := by
    intro n
    induction n with
    | zero => exact fun _ => rfl
    | succ n ih => exact fun b => by rw [Function.iterate_succ_apply, ih, ht]
  funext d
  rw [totals, getBudget, find_updateBudgets hf, Option.map_map]
  exact congrFun (congrArg Option.map (funext fun b => hiter _ b)) _

/-- A reservation leaves the totals alone. -/
@[simp] theorem totals_reserve (g : GPURouter) (decision : RoutingDecision) (bytes : Nat) :
    (g.reserve decision bytes).totals = g.totals :=
  totals_update (f := GPUBudget.reserve _) (fun _ => rfl) (fun _ => rfl) _

/-- So does taking it back. -/
@[simp] theorem totals_unreserve (g : GPURouter) (decision : RoutingDecision)
    (bytes : Nat) : (g.unreserve decision bytes).totals = g.totals :=
  totals_update (f := GPUBudget.unreserve _) (fun _ => rfl) (fun _ => rfl) _

/-- So does a commit. -/
@[simp] theorem totals_commit (g : GPURouter) (decision : RoutingDecision) (bytes : Nat) :
    (g.commit decision bytes).totals = g.totals :=
  totals_update (f := GPUBudget.commit _) (fun _ => rfl) (fun _ => rfl) _

/-- So does a release. -/
@[simp] theorem totals_free (g : GPURouter) (deviceIds : List Int) (bytes : Nat) :
    (g.free deviceIds bytes).totals = g.totals :=
  totals_update (f := GPUBudget.free _) (fun _ => rfl) (fun _ => rfl) _

/-- So does routing. -/
@[simp] theorem totals_route (g : GPURouter) (contextLength : Nat) :
    (g.route contextLength).2.totals = g.totals := by
  funext d
  rw [totals, getBudget, route_budgets]
  rfl

/-- The counters say what is used and reserved, and no device is over-committed. -/
structure Fits (g : GPURouter) (used reserved : Int → Nat) : Prop where
  ledger : g.Ledger used reserved
  below : ∀ d t, g.totals d = some t → used d + reserved d ≤ t

/-- There is room for a decision. -/
def Room (g : GPURouter) (decision : RoutingDecision) (bytes : Nat) : Prop :=
  ∀ d b, g.getBudget d = some b →
    b.usedMemory + b.reservedMemory + chargeOn decision.deviceIds bytes d ≤ b.totalMemory

/-- Room on every budget is room for the decision. -/
theorem Room.of_budgets {g : GPURouter} {decision : RoutingDecision} {bytes : Nat}
    (h : ∀ b ∈ g.budgets, b.usedMemory + b.reservedMemory +
      chargeOn decision.deviceIds bytes b.deviceId ≤ b.totalMemory) :
    g.Room decision bytes := by
  intro d b hb
  have hd : b.deviceId = d := by simpa using List.find?_some hb
  rw [← hd]
  exact h b (List.mem_of_find?_eq_some hb)

/-- What fits leaves no device over-committed. -/
theorem Fits.budget (h : g.Fits used reserved) {d : Int} {b : GPUBudget}
    (hb : g.getBudget d = some b) : b.usedMemory + b.reservedMemory ≤ b.totalMemory := by
  obtain ⟨hused, hreserved⟩ := h.ledger d b hb
  have hbelow := h.below d b.totalMemory (by rw [totals, hb]; rfl)
  rw [hused, hreserved]
  exact (Nat.add_le_add (Nat.mod_le _ _) (Nat.mod_le _ _)).trans hbelow

/-- An idle router is not over-committed. -/
theorem Idle.fits (h : g.Idle) : g.Fits (fun _ => 0) (fun _ => 0) :=
  ⟨h.ledger, fun _ _ _ => Nat.zero_le _⟩

/-- With room for it, a decision that moves to the used counter still fits. -/
theorem Fits.room (h : g.Fits used reserved) (hroom : g.Room decision bytes)
    (hsize : ∀ d t, g.totals d = some t → t < 2 ^ 64) {d : Int} {t : Nat}
    (ht : g.totals d = some t) :
    used d + chargeOn decision.deviceIds bytes d + reserved d ≤ t := by
  obtain ⟨b, hb, rfl⟩ := Option.map_eq_some_iff.mp ht
  obtain ⟨hused, hreserved⟩ := h.ledger d b hb
  have hbelow := h.below d _ ht
  have hlt := hsize d _ ht
  have hroom' := hroom d b hb
  rw [hused.exact (by omega), hreserved.exact (by omega)] at hroom'
  omega

/-- A release that does not wrap leaves no device over-committed. -/
theorem Fits.free {deviceIds : List Int} (h : g.Fits used reserved)
    (hwraps : g.freeWraps deviceIds bytes = false) :
    Fits (g.free deviceIds bytes) (fun d => used d - chargeOn deviceIds bytes d) reserved := by
  have hcounters : ∀ d b, g.getBudget d = some b → chargeOn deviceIds bytes d ≤ used d := by
    intro d b hb
    have hle : chargeOn deviceIds bytes d ≤ b.usedMemory := by
      refine le_of_subtractionWraps_false hwraps (fun e c hc => ?_) hb
      rw [(h.ledger e c hc).1]
      exact Nat.mod_lt _ (Nat.two_pow_pos 64)
    refine hle.trans ?_
    rw [(h.ledger d b hb).1]
    exact Nat.mod_le _ _
  have hledger : g.Ledger
      (fun d => used d - chargeOn deviceIds bytes d + chargeOn deviceIds bytes d)
      reserved := by
    intro d b hb
    dsimp only
    rw [Nat.sub_add_cancel (hcounters d b hb)]
    exact h.ledger d b hb
  refine ⟨hledger.free, fun d t ht => ?_⟩
  rw [totals_free] at ht
  have hbelow := h.below d t ht
  omega

end Operations

end GPURouter

end Qwen
