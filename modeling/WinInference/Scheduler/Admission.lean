import WinInference.Scheduler.Accounting

/-!
# Over-commitment

`can_place` looks at the budgets when a request is submitted, `reserve` charges
them when it is prefilled and does not look again.  What keeps the devices
within their memory is therefore a condition on the run: each reservation that
is committed found room.  Under it no device is over-committed at the head of
the decode loop, whatever the allocator.

`Roomy` says that every budget holds no more than the memory of its device.
`place_roomy` is the step that could break it, `Reserving.commit` and
`Reserving.unreserve` the two ways to leave a reservation, and
`decodeLoop_roomy` the body of the decode thread.
-/

namespace Qwen

open Concurrency Concurrency.Program

namespace Scheduler

variable {A : Type} {totals : Int → Option Nat} {r : RequestPtr}

/-- Each reservation that was committed found room, and no release took more
than was there. -/
structure Admitted (s : Scheduler A) : Prop where
  room : ∀ r decision bytes g, .reserved r decision bytes g ∈ s.trace →
    .committed r ∈ s.trace → g.Room decision bytes
  unwrapped : ∀ r, .budgetFreed r true ∉ s.trace

/-- No device is over-committed. -/
def Roomy (totals : Int → Option Nat) (s : Scheduler A) : Prop :=
  ∃ g used reserved, s.gpuRouter = some g ∧ g.totals = totals ∧ g.Fits used reserved

/-- A decision is reserved on a router that had `before` what it has now
without it. -/
def Reserving (totals : Int → Option Nat) (r : RequestPtr) (decision : RoutingDecision)
    (s : Scheduler A) : Prop :=
  ∃ g before used reserved, s.gpuRouter = some g ∧ g.totals = totals ∧
    g.Ledger used (fun d => reserved d +
      GPURouter.chargeOn decision.deviceIds (s.estimatedBytes r) d) ∧
    .reserved r decision (s.estimatedBytes r) before ∈ s.trace ∧
    before.totals = totals ∧ before.Fits used reserved ∧ GPURouter.Fair decision

/-- The router is left alone. -/
def SameRouter (s s' : Scheduler A) : Prop := s'.gpuRouter = s.gpuRouter

/-- Room in every budget is steady. -/
theorem steady_roomy : Steady (Roomy (A := A) totals) := by
  rintro s s' ⟨g, used, reserved, hg, hrest⟩ hi
  exact ⟨g, used, reserved, hi.gpuRouter.trans hg, hrest⟩

/-- A reservation under way depends on the router and the request's context only. -/
theorem Reserving.frame {decision : RoutingDecision} {s s' : Scheduler A}
    (h : Reserving totals r decision s) (hrouter : s'.gpuRouter = s.gpuRouter)
    (hlength : (s'.requests r).contextLength = (s.requests r).contextLength)
    (htrace : ∀ e ∈ s.trace, e.byDecode → e ∈ s'.trace) :
    Reserving totals r decision s' := by
  obtain ⟨g, before, used, reserved, hg, htotals, hledger, hevent, hrest⟩ := h
  have hbytes : s'.estimatedBytes r = s.estimatedBytes r := by
    rw [estimatedBytes, hlength, estimatedBytes]
  refine ⟨g, before, used, reserved, hrouter.trans hg, htotals, ?_, ?_, hrest⟩
  · rw [hbytes]
    exact hledger
  · rw [hbytes]
    exact htrace _ hevent rfl

/-- A reservation under way is steady. -/
theorem steady_reserving {decision : RoutingDecision} :
    Steady (Reserving (A := A) totals r decision) :=
  fun _ _ hs hi => hs.frame hi.gpuRouter (hi.contextLength r)
    (fun _ he hown => (hi.mem_trace hown).mpr he)

section Keep

/-- Room depends on the router only. -/
theorem Roomy.same {s s' : Scheduler A} (h : Roomy totals s) (hsame : SameRouter s s') :
    Roomy totals s' := by
  obtain ⟨g, used, reserved, hg, hrest⟩ := h
  exact ⟨g, used, reserved, hsame.trans hg, hrest⟩

/-- A program that leaves the router alone keeps it within its memory. -/
theorem roomy_of_sameRouter {α : Type} {p : Sched A α} (hp : p.Always SameRouter) :
    Triple (tallyContract Admitted) (Roomy totals) p (fun _ => Roomy totals) :=
  hp.triple steady_roomy.stable (fun _ _ _ _ => trivial) (fun _ _ hs hsame => hs.same hsame)

/-- `free` of the router takes nothing it does not have. -/
theorem Roomy.freeBudget {s : Scheduler A} (h : Roomy totals s)
    (hadmitted : Admitted (s.freeBudget r)) : Roomy totals (s.freeBudget r) := by
  obtain ⟨heq, -⟩ | ⟨g, hg, -, heq⟩ := freeBudget_cases s r
  · rwa [heq]
  obtain ⟨g', used, reserved, hg', htotals, hfits⟩ := h
  obtain rfl : g' = g := Option.some.inj (hg'.symm.trans hg)
  have hwraps : g'.freeWraps (s.requests r).assignedDevices (s.estimatedBytes r) = false := by
    have hnot := hadmitted.unwrapped r
    rw [heq] at hnot
    cases hw : g'.freeWraps (s.requests r).assignedDevices (s.estimatedBytes r) with
    | false => rfl
    | true => exact absurd (by simp [log, hw]) hnot
  rw [heq]
  exact ⟨_, _, reserved, rfl, (g'.totals_free _ _).trans htotals, hfits.free hwraps⟩

variable [IKVCacheAllocator A]

/-- Freeing a request's resources keeps the room. -/
theorem freeResources_roomy :
    Triple (tallyContract Admitted) (Roomy totals) (freeResources r : Sched A Unit)
      (fun _ => Roomy totals) := by
  unfold freeResources
  refine Triple.bind (Q := fun _ => Roomy totals)
    (Triple.atomic steady_roomy.stable fun _ s hs _ hnext => ⟨trivial, ?_⟩) fun valid => ?_
  · cases hvalid : (s.requests r).kvCache.isValid with
    | true =>
        simp only [hvalid, if_true] at hnext ⊢
        exact hs.freeBudget hnext
    | false => simpa [hvalid] using hs
  · cases valid with
    | true => exact roomy_of_sameRouter (Always.update fun _ => rfl)
    | false => exact Triple.ret fun _ hs => hs

/-- Ending a request keeps the room. -/
theorem retire_roomy (event : TokenEvent) :
    Triple (tallyContract Admitted) (Roomy totals) (retire r event : Sched A Unit)
      (fun _ => Roomy totals) := by
  unfold retire
  refine Triple.bind (roomy_of_sameRouter (Always.update fun _ => rfl)) fun _ => ?_
  refine Triple.bind (roomy_of_sameRouter (Always.update fun _ => rfl)) fun _ => ?_
  refine Triple.bind freeResources_roomy fun _ => ?_
  refine Triple.bind (roomy_of_sameRouter (Always.update fun _ => rfl)) fun _ => ?_
  refine Triple.bind (roomy_of_sameRouter (Always.update fun _ => rfl)) fun _ => ?_
  exact roomy_of_sameRouter (Always.update fun _ => rfl)

/-- Completing a request keeps the room. -/
theorem completeRequest_roomy (reason : FinishReason) :
    Triple (tallyContract Admitted) (Roomy totals)
      (completeRequest r reason : Sched A Unit) (fun _ => Roomy totals) := by
  unfold completeRequest
  refine Triple.bind (roomy_of_sameRouter (Always.update fun _ => rfl)) fun _ => ?_
  refine Triple.bind (roomy_of_sameRouter (Always.update fun _ => rfl)) fun _ => ?_
  refine Triple.bind (retire_roomy _) fun _ => ?_
  exact roomy_of_sameRouter (Always.update fun _ => rfl)

/-- Failing a request keeps the room. -/
theorem failRequest_roomy (error : Error) :
    Triple (tallyContract Admitted) (Roomy totals)
      (failRequest r error : Sched A Unit) (fun _ => Roomy totals) := by
  unfold failRequest
  refine Triple.bind (roomy_of_sameRouter (Always.update fun _ => rfl)) fun _ => ?_
  refine Triple.bind (roomy_of_sameRouter (Always.update fun _ => rfl)) fun _ => ?_
  refine Triple.bind (retire_roomy _) fun _ => ?_
  exact roomy_of_sameRouter (Always.update fun _ => rfl)

end Keep

/-! ## Placement -/

section Place

variable {s : Scheduler A} {decision : RoutingDecision}

/-- A routed request gets a fair decision, and the room is kept. -/
theorem Roomy.route (h : Roomy totals s) :
    ∃ x, (s.routeRequest r).1 = some x ∧ GPURouter.Fair x ∧
      Roomy totals (s.routeRequest r).2 := by
  obtain ⟨g, used, reserved, hg, htotals, hfits⟩ := h
  rw [routeRequest_some hg]
  have hroute : (g.route (s.requests r).contextLength).2.totals = totals :=
    (g.totals_route _).trans htotals
  refine ⟨_, rfl, g.route_fair _, _, used, reserved, rfl, hroute, hfits.ledger.route _, ?_⟩
  rw [hroute, ← htotals]
  exact hfits.below

/-- Reserving for a fair decision leaves the reservation under way. -/
theorem Roomy.reserve (h : Roomy totals s) (hfair : GPURouter.Fair decision) :
    Reserving totals r decision (s.reserveBudget r (some decision)) := by
  obtain ⟨g, used, reserved, hg, htotals, hfits⟩ := h
  rw [reserveBudget_some hg]
  exact ⟨_, g, used, reserved, rfl, (g.totals_reserve _ _).trans htotals,
    hfits.ledger.reserve hfair, List.mem_append_right _ List.mem_cons_self,
    htotals, hfits, hfair⟩

/-- Taking the reservation back restores the counters. -/
theorem Reserving.unreserve (h : Reserving totals r decision s) :
    Roomy totals (s.unreserveBudget r (some decision)) := by
  obtain ⟨g, before, used, reserved, hg, htotals, hledger, -, hbefore, hfits, hfair⟩ := h
  rw [unreserveBudget_some hg]
  have hkept : (g.unreserve decision (s.estimatedBytes r)).totals = totals :=
    (g.totals_unreserve _ _).trans htotals
  refine ⟨_, used, reserved, rfl, hkept, hledger.unreserve hfair, ?_⟩
  rw [hkept, ← hbefore]
  exact hfits.below

/-- A commit moves what found room. -/
theorem Reserving.commit (h : Reserving totals r decision s)
    (hsize : ∀ d t, totals d = some t → t < 2 ^ 64)
    (hadmitted : Admitted (s.commitBudget r (some decision))) :
    Roomy totals (s.commitBudget r (some decision)) := by
  obtain ⟨g, before, used, reserved, hg, htotals, hledger, hevent, hbefore, hfits, hfair⟩ := h
  rw [commitBudget_some hg] at hadmitted ⊢
  have hroom : before.Room decision (s.estimatedBytes r) :=
    hadmitted.room r decision _ before (by simp [log, hevent]) (by simp [log])
  have hkept : (g.commit decision (s.estimatedBytes r)).totals = totals :=
    (g.totals_commit _ _).trans htotals
  refine ⟨_, _, reserved, rfl, hkept, hledger.commit hfair, fun d t ht => ?_⟩
  rw [hkept, ← hbefore] at ht
  exact hfits.room hroom (by rwa [hbefore]) ht

variable [IKVCacheAllocator A]

/-- Placing a request keeps the room. -/
theorem place_roomy (hsize : ∀ d t, totals d = some t → t < 2 ^ 64) :
    Triple (tallyContract Admitted) (Roomy totals) (place r : Sched A (Result Unit))
      (fun _ => Roomy totals) := by
  unfold place
  refine Triple.bind (Q := fun decision s =>
      ∃ x, (decision = some x ∧ GPURouter.Fair x) ∧ Roomy totals s)
    (Triple.atomic steady_roomy.stable fun _ s hs _ _ => ⟨trivial, ?_⟩) fun decision => ?_
  · obtain ⟨x, hx, hfair, hroomy⟩ := Roomy.route (r := r) hs
    exact ⟨x, ⟨hx, hfair⟩, hroomy⟩
  refine Triple.exists_pre fun x => Triple.of_fact fun ⟨hx, hfair⟩ => ?_
  subst hx
  refine Triple.bind (Steady.update (Q := Reserving totals r x) steady_roomy
    fun s hs _ => hs.reserve hfair) fun _ => ?_
  refine Triple.bind (Q := fun _ => Reserving totals r x)
    (Triple.atomic steady_reserving.stable fun i s hs _ _ => ⟨trivial, ?_⟩) fun result => ?_
  · obtain ⟨e, a, -, heq⟩ | ⟨handle, a, -, heq⟩ := allocateFor_cases s i r (some x)
    · rw [heq]
      exact hs.frame rfl rfl (fun _ he _ => he)
    · rw [heq]
      have hlength := requests_modify_field { s with kvAllocator := a } r r
        (f := fun q => { q with kvCache := handle }) (·.contextLength) fun _ => rfl
      exact hs.frame rfl hlength (fun _ he _ => he)
  cases result with
  | error e =>
      exact Triple.bind (Steady.update (Q := Roomy totals) steady_reserving
        fun s hs _ => hs.unreserve) (fun _ => Triple.ret fun _ hs => hs)
  | ok _ =>
      exact Triple.bind (Triple.update (R := fun _ => Roomy totals) steady_reserving.stable
        fun s hs _ hnext => ⟨trivial, hs.commit hsize hnext⟩)
        (fun _ => Triple.ret fun _ hs => hs)

/-! ## The loop -/

/-- The prefill keeps the room. -/
theorem runPrefill_roomy (hsize : ∀ d t, totals d = some t → t < 2 ^ 64) :
    Triple (tallyContract Admitted) (Roomy totals) (runPrefill r : Sched A (Result Unit))
      (fun _ => Roomy totals) := by
  unfold runPrefill
  refine Triple.bind (roomy_of_sameRouter (Always.update fun _ => rfl)) fun _ => ?_
  refine Triple.bind (roomy_of_sameRouter (Always.update fun _ => rfl)) fun _ => ?_
  refine Triple.bind (place_roomy hsize) fun placed => ?_
  cases placed with
  | error e =>
      exact Triple.bind (roomy_of_sameRouter (Always.update fun _ => rfl))
        (fun _ => Triple.ret fun _ hs => hs)
  | ok _ =>
      refine Triple.bind (roomy_of_sameRouter (Always.atomic fun i s => ?_)) fun result => ?_
      · cases i.prefill <;> rfl
      cases result with
      | error e =>
          refine Triple.bind freeResources_roomy fun _ => ?_
          exact Triple.bind (roomy_of_sameRouter (Always.update fun _ => rfl))
            (fun _ => Triple.ret fun _ hs => hs)
      | ok logits =>
          exact Triple.bind (roomy_of_sameRouter (Always.update fun _ => rfl))
            (fun _ => Triple.ret fun _ hs => hs)

/-- Starting a dequeued request keeps the room. -/
theorem startRequest_roomy (hsize : ∀ d t, totals d = some t → t < 2 ^ 64)
    (d : SchedulerSetup) :
    Triple (tallyContract Admitted) (Roomy totals) (startRequest d r : Sched A Unit)
      (fun _ => Roomy totals) := by
  unfold startRequest
  refine Triple.bind (roomy_of_sameRouter (Always.atomic fun _ _ => rfl))
    fun queueTimedOut => ?_
  cases queueTimedOut with
  | true => exact failRequest_roomy _
  | false =>
      refine Triple.bind (roomy_of_sameRouter (Always.atomic fun _ _ => rfl))
        fun requestTimedOut => ?_
      cases requestTimedOut with
      | true => exact failRequest_roomy _
      | false =>
          refine Triple.bind (runPrefill_roomy hsize) fun result => ?_
          cases result with
          | error e => exact failRequest_roomy e
          | ok _ =>
              refine Triple.bind (roomy_of_sameRouter (Always.update fun _ => rfl))
                fun _ => ?_
              refine Triple.bind (roomy_of_sameRouter (Always.atomic fun i s => ?_))
                fun _ => roomy_of_sameRouter (Always.update fun _ => rfl)
              dsimp only
              split <;> rfl

/-- The pass over one active request keeps the room. -/
theorem decodeRequest_roomy (d : SchedulerSetup) :
    Triple (tallyContract Admitted) (Roomy totals) (decodeRequest d r : Sched A Unit)
      (fun _ => Roomy totals) := by
  exact (step_unmoved r).decodeRequest steady_roomy.stable (fun _ _ _ _ => trivial)
    (fun _ _ hs hu => hs.same hu.gpuRouter) (fun _ hs => hs) completeRequest_roomy
    failRequest_roomy d

/-- Every pass of the decode loop keeps the room. -/
theorem decodeLoop_roomy (hsize : ∀ d t, totals d = some t → t < 2 ^ 64)
    (d : SchedulerSetup) (l : Point) :
    Triple (tallyContract Admitted) (Roomy totals) (decodeLoop d l : Sched A Point)
      (fun _ => Roomy totals) := by
  exact decodeLoop_keeps steady_roomy.stable (fun _ _ => trivial)
    (fun _ hs => ⟨trivial, hs.same rfl⟩) (fun _ _ _ hs _ _ => ⟨trivial, hs.same rfl⟩) d
    (fun _ => startRequest_roomy hsize d) (fun _ => decodeRequest_roomy d) l

/-- **No over-commitment.**  When every committed reservation found room and no
release took more than was there, every device is within its memory at the head
of the decode loop. -/
theorem never_overcommitted (d : SchedulerSetup) (a : A) {g : GPURouter} (hg : g.Idle)
    (hsize : ∀ b ∈ g.budgets, b.totalMemory < 2 ^ 64) (requests : RequestPtr → Request)
    (schedule : List (ThreadId × Answer))
    (hadmitted : ∀ first, first <+: schedule → Admitted
      ((System.initial (create a (some g) requests)).run (code d) first).state) :
    let w := (System.initial (create a (some g) requests)).run (code d) schedule
    AtHead w → ∀ router, w.state.gpuRouter = some router →
      ∀ device b, router.getBudget device = some b →
        b.usedMemory + b.reservedMemory ≤ b.totalMemory := by
  intro w hhead router hrouter device b hb
  have hsize' : ∀ device t, g.totals device = some t → t < 2 ^ 64 := by
    intro device t ht
    obtain ⟨b, hb, rfl⟩ := Option.map_eq_some_iff.mp ht
    exact hsize b (List.mem_of_find?_eq_some hb)
  have hsolo : Solo d (Admitted (A := A)) (fun _ => True) (fun _ => Roomy g.totals) :=
    ⟨fun _ => steady_roomy, fun _ _ _ _ => trivial, decodeLoop_roomy hsize' d⟩
  have hstart : Roomy g.totals (create a (some g) requests) :=
    ⟨g, _, _, rfl, rfl, hg.fits⟩
  obtain ⟨router', used, reserved, hrouter', -, hfits⟩ :=
    (hsolo.run hstart trivial schedule hadmitted).1 hhead
  obtain rfl : router' = router := Option.some.inj (hrouter'.symm.trans hrouter)
  exact hfits.budget hb

end Place

/-! ## Two runs -/

/-- The history shows an admitted run: every reservation found room. -/
def showsRoom (s : Scheduler A) : Bool :=
  s.trace.all fun
    | .reserved _ decision bytes g => g.budgets.all fun b =>
        b.usedMemory + b.reservedMemory +
          GPURouter.chargeOn decision.deviceIds bytes b.deviceId ≤ b.totalMemory
    | .budgetFreed _ wrapped => !wrapped
    | _ => true

/-- The executable test shows the room the admission asks for. -/
theorem showsRoom_spec {s : Scheduler A} (h : showsRoom s) : Admitted s := by
  have hall := List.all_eq_true.mp h
  refine ⟨fun r decision bytes g hmem _ => GPURouter.Room.of_budgets ?_, fun r hmem => ?_⟩
  · simpa using hall _ hmem
  · simpa using hall _ hmem

/-- A server with one GPU of 1 MiB and the pooled allocator, on requests of
768 KiB each. -/
def smallRun (schedule : List (ThreadId × Answer)) : System PooledKVAllocator :=
  (System.initial (create PooledKVAllocator.samplePooled
    (some (({ deviceManager := { devices := [0] } } : GPURouter).initializeBudgets (2 ^ 20)))
    (numbered shortRequest))).run (code sampleSetup) schedule

/-- A request admitted on a server with a small budget. -/
theorem never_overcommitted_sample :
    ∃ router b, (smallRun (firstSubmitted 34 {})).state.gpuRouter = some router ∧
      router.getBudget 0 = some b ∧ b.usedMemory + b.reservedMemory ≤ b.totalMemory := by
  have htakes : ∀ n < 44, showsRoom
      (smallRun ((firstSubmitted 34 {}).take n)).state := by
    decide +kernel
  have hprefixes : ∀ first, first <+: firstSubmitted 34 {} →
      Admitted (smallRun first).state := by
    intro first hfirst
    rw [List.prefix_iff_eq_take.mp hfirst]
    have hlength : first.length ≤ 43 := hfirst.length_le
    exact showsRoom_spec (htakes first.length (by omega))
  have hhead : AtHead (smallRun (firstSubmitted 34 {})) := by decide +kernel
  have hbudget : ((smallRun (firstSubmitted 34 {})).state.gpuRouter.bind
      (·.getBudget 0)).isSome := by
    decide +kernel
  obtain ⟨b, hsome⟩ := Option.isSome_iff_exists.mp hbudget
  obtain ⟨router, hrouter, hb⟩ := Option.bind_eq_some_iff.mp hsome
  exact ⟨router, b, hrouter, hb, never_overcommitted sampleSetup
    PooledKVAllocator.samplePooled (GPURouter.initializeBudgets_idle _ _) (by decide)
    (numbered shortRequest) (firstSubmitted 34 {}) hprefixes hhead router hrouter 0 b hb⟩

/-- Two requests that fit one at a time are both admitted against the free
budget, and both are served. -/
theorem overcommitted :
    let w := smallRun (moves 9 (.submit 0) {} ++ moves 9 (.submit 1) {} ++ moves 61 .decode {})
    AtHead w ∧ w.state.activeRequests = [0, 1] ∧
      (w.state.gpuRouter.bind (·.getBudget 0)).map (fun b =>
        (b.usedMemory + b.reservedMemory, b.totalMemory)) = some (3 * 2 ^ 19, 2 ^ 20) := by
  decide +kernel

end Scheduler

end Qwen
