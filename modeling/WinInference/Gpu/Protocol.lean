import Mathlib.Algebra.Order.BigOperators.Group.List
import Mathlib.Algebra.Order.Group.Nat
import Mathlib.Data.List.Nodup
import WinInference.Gpu.Ledger

/-!
# The protocol of placements

Any number of callers place requests on one router.  Each takes a decision from
`route`, reserves it, and then either unreserves it or commits it and frees it
later, always with the same byte count.  The moves of different callers come in
any order.

`Traffic` is the router with the callers and what each of them holds.
`Traffic.Conserved` says that the budgets hold exactly the charges of the
callers, `Traffic.Conserved.step` that each move keeps it, and
`Traffic.Conserved.run` that every order of moves does.
-/

namespace Qwen

namespace GPURouter

/-- How far a placement is. -/
inductive Phase where
  | routed
  | reserved
  | committed
  | closed
deriving DecidableEq

/-- Charged to the router. -/
def Phase.isOpen : Phase → Bool
  | .reserved | .committed => true
  | .routed | .closed => false

/-- One placement: what `route` decided, and the bytes it is for. -/
structure Placement where
  decision : RoutingDecision
  bytes : Nat
  phase : Phase := .routed
deriving DecidableEq

/-- The router, and every placement that was ever routed. -/
structure Traffic where
  router : GPURouter
  placements : List Placement := []

/-- A step of some caller. -/
inductive Move where
  | route (contextLength bytes : Nat)
  | reserve (p : Nat)
  | unreserve (p : Nat)
  | commit (p : Nat)
  | free (p : Nat)

namespace Traffic

/-- A placement moves on, if it is where the move expects it. -/
def advance (t : Traffic) (p : Nat) (before after : Phase)
    (call : GPURouter → Placement → GPURouter) : Traffic :=
  match t.placements[p]? with
  | none => t
  | some q =>
      if q.phase = before then
        { router := call t.router q, placements := t.placements.set p { q with phase := after } }
      else t

/-- One move of one caller. -/
def step (t : Traffic) : Move → Traffic
  | .route contextLength bytes =>
      { router := (t.router.route contextLength).2
        placements := t.placements ++
          [{ decision := (t.router.route contextLength).1, bytes := bytes }] }
  | .reserve p => t.advance p .routed .reserved (fun g q => g.reserve q.decision q.bytes)
  | .unreserve p => t.advance p .reserved .closed (fun g q => g.unreserve q.decision q.bytes)
  | .commit p => t.advance p .reserved .committed (fun g q => g.commit q.decision q.bytes)
  | .free p => t.advance p .committed .closed (fun g q => g.free q.decision.deviceIds q.bytes)

/-- The moves, one after the other. -/
def run (t : Traffic) (moves : List Move) : Traffic := moves.foldl step t

end Traffic

/-- What a placement is charged on device `d`. -/
def Placement.share (q : Placement) (d : Int) : Nat :=
  if d ∈ q.decision.deviceIds then decisionShare q.decision q.bytes else 0

/-- The shares on device `d` of the placements in a phase. -/
def Traffic.held (t : Traffic) (phase : Phase) (d : Int) : Nat :=
  ((t.placements.filter (·.phase = phase)).map (·.share d)).sum

/-- The bytes of all open placements. -/
def Traffic.openBytes (t : Traffic) : Nat :=
  ((t.placements.filter (·.phase.isOpen)).map (·.bytes)).sum

/-! ## One placement among many -/

/-- What placement `q` adds to the shares of a phase. -/
def Placement.part (phase : Phase) (d : Int) (q : Placement) : Nat :=
  if q.phase = phase then q.share d else 0

theorem Traffic.held_eq (t : Traffic) (phase : Phase) (d : Int) :
    t.held phase d = (t.placements.map (Placement.part phase d)).sum := by
  rw [held, ← Wrapping.sum_map_ite]
  refine congrArg List.sum (List.map_congr_left fun q _ => ?_)
  simp [Placement.part]

/-- Decisions as `route` makes them: the two formulas for the share agree, and
no device is listed twice. -/
structure Placement.Routed (q : Placement) : Prop where
  fair : Fair q.decision
  nodup : q.decision.deviceIds.Nodup

namespace Placement.Routed

variable {q : Placement}

/-- The charge of the ledger is the share. -/
theorem chargeOn_eq (h : q.Routed) (d : Int) :
    chargeOn q.decision.deviceIds q.bytes d = q.share d := by
  rw [chargeOn, h.nodup.count, ← h.fair, share]
  split
  · exact Nat.one_mul _
  · exact Nat.zero_mul _

theorem share_le (h : q.Routed) (d : Int) : q.share d ≤ q.bytes := by
  rw [share]
  split
  · rw [h.fair, deviceShare]
    split
    · exact Nat.div_le_self _ _
    · exact Nat.le_refl _
  · exact Nat.zero_le _

end Placement.Routed

theorem route_nodup {g : GPURouter} (h : g.deviceManager.devices.Nodup) (contextLength : Nat) :
    (g.route contextLength).1.deviceIds.Nodup := by
  obtain ⟨heq, -, -⟩ | ⟨d, heq⟩ := g.route_cases contextLength
  · rw [heq]
    exact h
  · rw [heq]
    exact List.nodup_singleton d

/-! ## The invariant -/

/-- The counters hold, as `size_t`, what is reserved and what is committed. -/
structure Traffic.Conserved (t : Traffic) : Prop where
  devices : t.router.deviceManager.devices.Nodup
  routed : ∀ q ∈ t.placements, q.Routed
  ledger : t.router.Ledger (t.held .committed) (t.held .reserved)

section Conserved

variable {t : Traffic}

theorem Traffic.Conserved.init {g : GPURouter} (hidle : g.Idle)
    (hnodup : g.deviceManager.devices.Nodup) : Traffic.Conserved ⟨g, []⟩ :=
  ⟨hnodup, by simp, hidle.ledger⟩

/-- Moving a placement on, from what the call does to the ledger: `u` and `r`
are the charges of the others. -/
theorem Traffic.Conserved.advance (h : t.Conserved) (p : Nat) {before after : Phase}
    {call : GPURouter → Placement → GPURouter}
    (hdevices : ∀ g q, (call g q).deviceManager = g.deviceManager)
    (hcall : ∀ g q, q.Routed → q.phase = before → ∀ u r : Int → Nat,
      g.Ledger (fun d => u d + q.part .committed d) (fun d => r d + q.part .reserved d) →
      (call g q).Ledger (fun d => u d + Placement.part .committed d { q with phase := after })
        (fun d => r d + Placement.part .reserved d { q with phase := after })) :
    (t.advance p before after call).Conserved := by
  unfold Traffic.advance
  cases hq : t.placements[p]? with
  | none => exact h
  | some q =>
      dsimp only
      by_cases hphase : q.phase = before
      swap
      · rw [if_neg hphase]
        exact h
      rw [if_pos hphase]
      have hmem : q ∈ t.placements := List.mem_of_getElem? hq
      have hrouted := h.routed q hmem
      -- what the other placements hold
      have hsplit : ∀ phase d, ∃ rest,
          t.held phase d = rest + q.part phase d ∧
          Traffic.held ⟨call t.router q, t.placements.set p { q with phase := after }⟩ phase d =
            rest + Placement.part phase d { q with phase := after } := by
        intro phase d
        have hle : q.part phase d ≤ t.held phase d := by
          rw [Traffic.held_eq]
          exact List.single_le_sum (fun _ _ => Nat.zero_le _) _ (List.mem_map_of_mem hmem)
        have hset := Wrapping.sum_set (Placement.part phase d) (y := { q with phase := after }) hq
        refine ⟨t.held phase d - q.part phase d, by omega, ?_⟩
        rw [Traffic.held_eq] at hle ⊢
        rw [Traffic.held_eq]
        dsimp only
        omega
      choose others hothers using hsplit
      refine ⟨?_, fun q' hq' => ?_, ?_⟩
      · dsimp only
        rw [hdevices]
        exact h.devices
      · rcases List.mem_or_eq_of_mem_set hq' with hold | rfl
        · exact h.routed q' hold
        · exact ⟨hrouted.fair, hrouted.nodup⟩
      · refine Ledger.congr (hcall t.router q hrouted hphase (others .committed)
          (others .reserved) ?_) (fun d => (hothers .committed d).2)
          (fun d => (hothers .reserved d).2)
        exact h.ledger.congr (fun d => (hothers .committed d).1.symm)
          (fun d => (hothers .reserved d).1.symm)

/-- **One move** of any caller. -/
theorem Traffic.Conserved.step (h : t.Conserved) (m : Move) : (t.step m).Conserved := by
  cases m with
  | route contextLength bytes =>
      refine ⟨?_, fun q hq => ?_, ?_⟩
      · show (t.router.route contextLength).2.deviceManager.devices.Nodup
        rw [route_devices]
        exact h.devices
      · rcases List.mem_append.mp hq with hold | hnew
        · exact h.routed q hold
        · rw [List.mem_singleton.mp hnew]
          exact ⟨t.router.route_fair contextLength, route_nodup h.devices contextLength⟩
      · -- a placement that is only routed is charged nowhere
        have hsame : ∀ phase, phase ≠ .routed → ∀ d,
            Traffic.held (t.step (.route contextLength bytes)) phase d = t.held phase d := by
          intro phase hphase d
          simp [Traffic.held_eq, Traffic.step, Placement.part, Ne.symm hphase]
        exact (h.ledger.route contextLength).congr (hsame .committed (by simp))
          (hsame .reserved (by simp))
  | reserve p =>
      rw [Traffic.step]
      refine h.advance p ?_ fun g q hq hphase u r hledger => ?_
      · exact fun _ _ => rfl
      have hnext : Ledger (g.reserve q.decision q.bytes) _ _ := hledger.reserve hq.fair
      simpa [Placement.part, hphase, hq.chargeOn_eq, Placement.share] using hnext
  | unreserve p =>
      rw [Traffic.step]
      refine h.advance p ?_ fun g q hq hphase u r hledger => ?_
      · exact fun _ _ => rfl
      have hbefore : g.Ledger u (fun d => r d + chargeOn q.decision.deviceIds q.bytes d) := by
        simpa [Placement.part, hphase, hq.chargeOn_eq] using hledger
      simpa [Placement.part] using hbefore.unreserve hq.fair
  | commit p =>
      rw [Traffic.step]
      refine h.advance p ?_ fun g q hq hphase u r hledger => ?_
      · exact fun _ _ => rfl
      have hbefore : g.Ledger u (fun d => r d + chargeOn q.decision.deviceIds q.bytes d) := by
        simpa [Placement.part, hphase, hq.chargeOn_eq] using hledger
      simpa [Placement.part, hq.chargeOn_eq, Placement.share] using hbefore.commit hq.fair
  | free p =>
      rw [Traffic.step]
      refine h.advance p ?_ fun g q hq hphase u r hledger => ?_
      · exact fun _ _ => rfl
      have hbefore : g.Ledger (fun d => u d + chargeOn q.decision.deviceIds q.bytes d) r := by
        simpa [Placement.part, hphase, hq.chargeOn_eq] using hledger
      simpa [Placement.part] using hbefore.free

/-- **Every interleaving.** -/
theorem Traffic.Conserved.run (h : t.Conserved) (moves : List Move) : (t.run moves).Conserved := by
  induction moves generalizing t with
  | nil => exact h
  | cons m rest ih => exact ih (h.step m)

/-- What is reserved and committed on a device is no more than all open bytes. -/
theorem Traffic.Conserved.held_le (h : t.Conserved) (d : Int) :
    t.held .reserved d + t.held .committed d ≤ t.openBytes := by
  rw [Traffic.held_eq, Traffic.held_eq, Traffic.openBytes, ← Wrapping.sum_map_ite,
    ← List.sum_map_add]
  refine List.sum_le_sum fun q hq => ?_
  have hshare := (h.routed q hq).share_le d
  cases hphase : q.phase with
  | routed | closed => simp [Placement.part, hphase]
  | reserved | committed => simpa [Placement.part, hphase, Phase.isOpen] using hshare

end Conserved

/-- **Conservation.**  After `initialize_budgets`, in every interleaving of
placements, while the open ones fit in `size_t` together: the counters of each budget are
the shares of the placements that are reserved and committed on it.  So no
counter wraps, and without open placements both are zero. -/
theorem placements_conserved {g : GPURouter} (kvMemoryPerGpu : Nat)
    (hnodup : g.deviceManager.devices.Nodup) (moves : List Move)
    (hbytes : (Traffic.run ⟨g.initializeBudgets kvMemoryPerGpu, []⟩ moves).openBytes < 2 ^ 64) :
    let t := Traffic.run ⟨g.initializeBudgets kvMemoryPerGpu, []⟩ moves
    ∀ d b, t.router.getBudget d = some b →
      b.reservedMemory = t.held .reserved d ∧ b.usedMemory = t.held .committed d ∧
      (∀ q ∈ t.placements,
        (q.phase = .reserved → q.share d ≤ b.reservedMemory) ∧
        (q.phase = .committed → q.share d ≤ b.usedMemory)) ∧
      b.usedMemory + b.reservedMemory < 2 ^ 64 ∧
      ((∀ q ∈ t.placements, q.phase ≠ .reserved ∧ q.phase ≠ .committed) →
        b.reservedMemory = 0 ∧ b.usedMemory = 0) := by
  intro t d b hb
  have hinit : Traffic.Conserved ⟨g.initializeBudgets kvMemoryPerGpu, []⟩ :=
    Traffic.Conserved.init (initializeBudgets_idle g kvMemoryPerGpu) hnodup
  have hrun : t.Conserved := hinit.run moves
  have hle := hrun.held_le d
  have hlt : t.openBytes < 2 ^ 64 := hbytes
  obtain ⟨hused, hreserved⟩ := hrun.ledger d b hb
  have hused := hused.exact (by omega)
  have hreserved := hreserved.exact (by omega)
  have hpart : ∀ phase, ∀ q ∈ t.placements, q.phase = phase → q.share d ≤ t.held phase d := by
    intro phase q hq hphase
    rw [Traffic.held]
    exact List.single_le_sum (fun _ _ => Nat.zero_le _) _
      (List.mem_map_of_mem (List.mem_filter.mpr ⟨hq, by simpa using hphase⟩))
  have hnone : ∀ phase, (∀ q ∈ t.placements, q.phase ≠ phase) → t.held phase d = 0 := by
    intro phase hphase
    rw [Traffic.held, List.filter_eq_nil_iff.mpr (by simpa using hphase)]
    rfl
  refine ⟨hreserved, hused, fun q hq => ⟨fun hphase => ?_, fun hphase => ?_⟩, by omega,
    fun hclosed => ⟨?_, ?_⟩⟩
  · rw [hreserved]
    exact hpart .reserved q hq hphase
  · rw [hused]
    exact hpart .committed q hq hphase
  · rw [hreserved]
    exact hnone .reserved fun q hq => (hclosed q hq).1
  · rw [hused]
    exact hnone .committed fun q hq => (hclosed q hq).2

/-- Two placements overlap: one is unreserved, the other is committed. -/
def sampleMoves : List Move :=
  [.route 100 1000, .route 20001 5001, .reserve 1, .reserve 0, .commit 1, .unreserve 0]

theorem placements_conserved_sample :
    let g : GPURouter := { deviceManager := { devices := [0, 1] } }
    let t := Traffic.run ⟨g.initializeBudgets (2 ^ 30), []⟩ sampleMoves
    ∀ d b, t.router.getBudget d = some b →
      b.reservedMemory = t.held .reserved d ∧ b.usedMemory = t.held .committed d := by
  intro g t d b hb
  have h := placements_conserved (g := g) (2 ^ 30) (by decide) sampleMoves (by decide +kernel) d b
    hb
  exact ⟨h.1, h.2.1⟩

end GPURouter

end Qwen
