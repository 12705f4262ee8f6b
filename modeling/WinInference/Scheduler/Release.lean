import WinInference.Scheduler.Resources

/-!
# A request that is gone holds nothing

While the decode thread serves a request at most one reservation of it is
committed and not released, and then the request has the devices and the router
to release it.  So whichever way a request ends, its handle was passed to
`free`, and its budget was released if that handle was valid.

`free_resources` skips a request whose handle is not valid, so the budget of one
that was placed with such a handle stays charged for good.  `Refundable` says
that a request is not in that situation.

`booked_begun` to `booked_owing` count commits and releases of the request that
is served.  `freeResources_cleared` is the release, `place_owing` the commit,
and `release_point` gives the situation of every request at every point of the
decode loop; `stranded_stays` says that a budget that nobody can release stays
charged.
-/

namespace Qwen

open Concurrency Concurrency.Program

namespace Scheduler

variable {A : Type}

/-- Nothing is committed before the request is dequeued. -/
def Begun (r : RequestPtr) (s : Scheduler A) : Prop :=
  r ∉ s.dequeued → s.committedCount r = 0

/-- A budget that is committed and not released is that of a request with a
valid handle. -/
def Refundable (r : RequestPtr) (s : Scheduler A) : Prop :=
  s.freedCount r < s.committedCount r → (s.requests r).kvCache.isValid

/-- What a request owes is at most what `free_resources` will release. -/
structure Owing (r : RequestPtr) (s : Scheduler A) : Prop where
  begun : Begun r s
  owes : s.committedCount r ≤ s.freedCount r ∨
    s.gpuRouter.isSome ∧ (s.requests r).assignedDevices ≠ [] ∧
      s.committedCount r ≤ s.freedCount r + 1

variable [IKVCacheAllocator A]

/-- The request has no valid handle, or one that `free` gave back; the write
position aside. -/
def HandleFreed (r : RequestPtr) (s : Scheduler A) : Prop :=
  (s.requests r).kvCache.isValid = false ∨
    ∃ (a : A) (h : KVCacheHandle),
      (s.requests r).kvCache.grant = (IKVCacheAllocator.free a h).1.grant

/-- Handle freed, and the budget released where that was possible. -/
structure Cleared (r : RequestPtr) (s : Scheduler A) : Prop extends Owing r s where
  handle : HandleFreed r s
  budget : Refundable r s → s.committedCount r ≤ s.freedCount r

/-- Between two rounds of the decode thread. -/
structure AtRest (r : RequestPtr) (s : Scheduler A) : Prop where
  owing : Owing r s
  gone : r ∈ s.dequeued → r ∉ s.activeRequests → Cleared r s

/-- A budget that nobody can release stays so. -/
def Strands (r : RequestPtr) (s s' : Scheduler A) : Prop := Refundable r s' → Refundable r s

section Facts

variable {q r : RequestPtr} {s s' : Scheduler A}

/-- A cleared request is at rest. -/
theorem Cleared.atRest (h : Cleared r s) : AtRest r s := ⟨h.toOwing, fun _ _ => h⟩

omit [IKVCacheAllocator A] in
/-- A budget that is released has nobody to wait for. -/
theorem refundable_of_paid (h : s.committedCount r ≤ s.freedCount r) : Refundable r s :=
  fun howed => absurd howed (by omega)

omit [IKVCacheAllocator A] in
/-- Nor can it be stranded. -/
theorem strands_of_paid (h : s.committedCount r ≤ s.freedCount r) : Strands r s s' :=
  fun _ => refundable_of_paid h

omit [IKVCacheAllocator A] in
/-- That a request has begun is a matter of the tally. -/
theorem booked_begun : Booked (Begun (A := A) r) := fun _ _ hs hu hr =>
  (committedCount_congr hu.accounts r).trans (hs (mt (mem_dequeued_congr hu.accounts r).mpr hr))

omit [IKVCacheAllocator A] in
/-- So is that nothing is committed. -/
theorem booked_uncommitted : Booked (fun s : Scheduler A => s.committedCount r = 0) :=
  fun _ _ hs hu => (committedCount_congr hu.accounts r).trans hs

omit [IKVCacheAllocator A] in
/-- So is what it owes. -/
theorem booked_owing : Booked (Owing (A := A) r) := by
  intro s s' hs hu
  refine ⟨booked_begun s s' hs.begun hu, ?_⟩
  rw [committedCount_congr hu.accounts, freedCount_congr hu.accounts, hu.assignedDevices,
    hu.gpuRouter]
  exact hs.owes

omit [IKVCacheAllocator A] in
/-- What moves nothing leaves a budget refundable. -/
theorem Unmoved.refundable (h : Unmoved s s') : Refundable r s' ↔ Refundable r s := by
  rw [Refundable, Refundable, committedCount_congr h.accounts, freedCount_congr h.accounts,
    h.isValid]

omit [IKVCacheAllocator A] in
/-- It strands none. -/
theorem Unmoved.strands (h : Unmoved s s') : Strands r s s' := h.refundable.mp

/-- So is that it is cleared. -/
theorem booked_cleared : Booked (Cleared (A := A) r) := by
  intro s s' hs hu
  refine ⟨booked_owing s s' hs.toOwing hu, ?_, fun hrefund => ?_⟩
  · rw [HandleFreed, hu.isValid, hu.grant]
    exact hs.handle
  · rw [committedCount_congr hu.accounts, freedCount_congr hu.accounts]
    exact hs.budget (hu.refundable.mp hrefund)

/-- So is that it is at rest. -/
theorem booked_atRest : Booked (AtRest (A := A) r) := by
  intro s s' hs hu
  refine ⟨booked_owing s s' hs.owing hu, fun hdequeued hactive => ?_⟩
  rw [mem_dequeued_congr hu.accounts] at hdequeued
  rw [hu.activeRequests] at hactive
  exact booked_cleared s s' (hs.gone hdequeued hactive) hu

omit [IKVCacheAllocator A] in
/-- What the decode thread records about another request does not count. -/
theorem Works.committedCount (h : Works q s s') (hr : r ≠ q) :
    s'.committedCount r = s.committedCount r := by
  obtain ⟨more, htrace, hmore⟩ := h.trace
  have hnone : more.count (.committed r) = 0 :=
    List.count_eq_zero.mpr fun hmem => hr (hmore _ hmem).1
  rw [Scheduler.committedCount, htrace, List.count_append, hnone, Nat.add_zero,
    Scheduler.committedCount]

omit [IKVCacheAllocator A] in
/-- Work on another request frees nothing of this one. -/
theorem Works.freedCount (h : Works q s s') (hr : r ≠ q) :
    s'.freedCount r = s.freedCount r := by
  obtain ⟨more, htrace, hmore⟩ := h.trace
  have hnone : more.countP (Event.frees r) = 0 := by
    rw [List.countP_eq_zero]
    intro e he hfrees
    have hsubject := (hmore e he).1
    cases e with
    | budgetFreed p wrapped =>
        have hp : p = r := by simpa [Event.frees] using hfrees
        exact hr (hp.symm.trans hsubject)
    | _ => cases hfrees
  rw [Scheduler.freedCount, htrace, List.countP_append, hnone, Nat.add_zero,
    Scheduler.freedCount]

omit [IKVCacheAllocator A] in
/-- It leaves its budget refundable. -/
theorem Works.refundable (h : Works q s s') (hr : r ≠ q) :
    Refundable r s' ↔ Refundable r s := by
  rw [Refundable, Refundable, h.committedCount hr, h.freedCount hr, h.requests r hr]

/-- It leaves it at rest. -/
theorem Works.atRest (h : Works q s s') (hr : r ≠ q) (hs : AtRest r s) : AtRest r s' := by
  have howing : Owing r s' := by
    refine ⟨?_, ?_⟩
    · rw [Begun, h.dequeued, h.committedCount hr]
      exact hs.owing.begun
    · rw [h.committedCount hr, h.freedCount hr, h.requests r hr, h.routes]
      exact hs.owing.owes
  refine ⟨howing, fun hdequeued hactive => ?_⟩
  rw [h.dequeued] at hdequeued
  have hcleared := hs.gone hdequeued fun hact => hactive ((h.listed r hr).mpr hact)
  refine ⟨howing, ?_, fun hrefund => ?_⟩
  · rw [HandleFreed, h.requests r hr]
    exact hcleared.handle
  · rw [h.committedCount hr, h.freedCount hr]
    exact hcleared.budget ((h.refundable hr).mp hrefund)

end Facts

section Proof

variable {q r : RequestPtr} {K P : Scheduler A → Prop}

omit [IKVCacheAllocator A] in
/-- The contract of the decode thread here. -/
def releaseContract (K : Scheduler A → Prop) (r : RequestPtr) : Contract (Scheduler A) where
  known := K
  rely := Interference
  guar := Strands r
  rely_refl := Interference.refl
  rely_trans := Interference.trans

omit [IKVCacheAllocator A] in
/-- What depends on the tally alone is stable. -/
theorem Booked.stable (h : Booked P) : Stable (releaseContract K r) P :=
  fun s s' hs hrely _ => h.steady s s' hs hrely

omit [IKVCacheAllocator A] in
/-- A program that moves nothing keeps it. -/
theorem Booked.still {α : Type} (h : Booked P) {p : Sched A α} (hp : p.Always Unmoved) :
    Triple (releaseContract K r) P p (fun _ => P) :=
  hp.triple h.stable (fun _ _ _ hu => hu.strands) h

omit [IKVCacheAllocator A] in
/-- One action that moves the books. -/
theorem Booked.move (h : Booked P) {Q : Scheduler A → Prop} {f : Scheduler A → Scheduler A}
    (hf : ∀ s, P s → Strands r s (f s) ∧ Q (f s)) :
    Triple (releaseContract K r) P (Program.update f : Sched A Unit) (fun _ => Q) :=
  Triple.update h.stable fun s hs _ _ => hf s hs

/-! ## Release -/

omit [IKVCacheAllocator A] in
/-- `free` of the router pays what is owed. -/
theorem Owing.freeBudget {s : Scheduler A} (h : Owing r s) :
    Begun r (s.freeBudget r) ∧
      (s.freeBudget r).committedCount r ≤ (s.freeBudget r).freedCount r := by
  obtain ⟨heq, hwhy⟩ | ⟨g, -, -, heq⟩ := freeBudget_cases s r
  · rw [heq]
    refine ⟨h.begun, ?_⟩
    rcases h.owes with hpaid | ⟨hrouter, hdevices, -⟩
    · exact hpaid
    · rcases hwhy with hnone | hempty
      · rw [hnone] at hrouter
        cases hrouter
      · exact absurd hempty hdevices
  · rw [heq]
    have hle : s.committedCount r ≤ s.freedCount r + 1 := by
      rcases h.owes with hpaid | ⟨-, -, hle⟩
      · omega
      · exact hle
    refine ⟨?_, ?_⟩
    · intro hr
      have hcount := h.begun (by simpa [dequeued, log] using hr)
      simpa [committedCount, log] using hcount
    · simpa [committedCount, freedCount, log, Event.frees] using hle

/-- Begun, and nothing owed. -/
def Paid (r : RequestPtr) (s : Scheduler A) : Prop :=
  Begun r s ∧ s.committedCount r ≤ s.freedCount r

omit [IKVCacheAllocator A] in
/-- That nothing is owed is a matter of the tally. -/
theorem booked_paid : Booked (Paid (A := A) r) := by
  intro s s' hs hu
  refine ⟨booked_begun s s' hs.1 hu, ?_⟩
  rw [committedCount_congr hu.accounts, freedCount_congr hu.accounts]
  exact hs.2

/-- `free_resources` clears a request. -/
theorem freeResources_cleared :
    Triple (releaseContract K r) (Owing r) (freeResources r : Sched A Unit)
      (fun _ => Cleared r) := by
  refine Triple.bind (Q := fun valid => if valid then Paid r else
      fun s => Owing r s ∧ Released r s)
    (Triple.atomic booked_owing.stable fun _ s hs _ _ => ?_) fun valid => ?_
  · cases hvalid : (s.requests r).kvCache.isValid with
    | true => exact ⟨fun _ _ => hvalid, hs.freeBudget⟩
    | false => exact ⟨id, hs, hvalid⟩
  · cases valid with
    | true =>
        refine booked_paid.move fun s hs => ⟨strands_of_paid hs.2, ⟨hs.1, Or.inl hs.2⟩, Or.inr ?_,
          fun _ => hs.2⟩
        refine ⟨s.kvAllocator, (s.requests r).kvCache, ?_⟩
        rw [freeKvCache]
        simp
    | false =>
        refine Triple.ret fun s hs => ⟨hs.1, Or.inl hs.2, fun hrefund => ?_⟩
        have hvalid : (s.requests r).kvCache.isValid = false := hs.2
        by_contra howed
        have := hrefund (by omega)
        rw [hvalid] at this
        cases this

/-- So does retiring it. -/
theorem retire_cleared (event : TokenEvent) :
    Triple (releaseContract K r) (Owing r) (retire r event : Sched A Unit)
      (fun _ => Cleared r) := by
  refine Triple.bind (booked_owing.still (Always.update (pushEvent_unmoved · r event)))
    fun _ => ?_
  refine Triple.bind (booked_owing.still (Always.update (closeQueue_unmoved · r))) fun _ => ?_
  refine Triple.bind freeResources_cleared fun _ => ?_
  refine Triple.bind (booked_cleared.move (Q := Cleared r) fun s hs =>
    ⟨id, ⟨hs.begun, hs.owes⟩, hs.handle, hs.budget⟩) fun _ => ?_
  refine Triple.bind (booked_cleared.still (Always.update fun s =>
    unmoved_of_eq rfl rfl rfl rfl rfl)) fun _ => ?_
  exact booked_cleared.still (gauge_unmoved (· - 1))

/-- So does completing it. -/
theorem completeRequest_cleared (reason : FinishReason) :
    Triple (releaseContract K r) (Owing r) (completeRequest r reason : Sched A Unit)
      (fun _ => Cleared r) := by
  refine Triple.bind (booked_owing.still (Always.update fun s =>
    Unmoved.modify s r (fun _ => rfl) (fun _ => rfl) fun _ => rfl)) fun _ => ?_
  refine Triple.bind (booked_owing.still (setState_unmoved r _)) fun _ => ?_
  refine Triple.bind (retire_cleared _) fun _ => ?_
  exact booked_cleared.still (Always.update fun s => unmoved_of_eq rfl rfl rfl rfl rfl)

/-- So does failing it. -/
theorem failRequest_cleared (error : Error) :
    Triple (releaseContract K r) (Owing r) (failRequest r error : Sched A Unit)
      (fun _ => Cleared r) := by
  refine Triple.bind (booked_owing.still (Always.update fun s =>
    Unmoved.modify s r (fun _ => rfl) (fun _ => rfl) fun _ => rfl)) fun _ => ?_
  refine Triple.bind (booked_owing.still (setState_unmoved r _)) fun _ => ?_
  refine Triple.bind (retire_cleared _) fun _ => ?_
  exact booked_cleared.still (Always.update fun s => unmoved_of_eq rfl rfl rfl rfl rfl)

/-! ## Placement -/

/-- Dequeued, nothing committed yet, and routed as decided. -/
structure Routed (r : RequestPtr) (decision : Option RoutingDecision) (s : Scheduler A) :
    Prop where
  uncommitted : s.committedCount r = 0
  routed : s.gpuRouter = none ∨ s.gpuRouter.isSome ∧ (s.requests r).assignedDevices ≠ []

omit [IKVCacheAllocator A] in
/-- So is a routing. -/
theorem booked_routed {decision : Option RoutingDecision} :
    Booked (Routed (A := A) r decision) := by
  intro s s' hs hu
  refine ⟨booked_uncommitted s s' hs.uncommitted hu, ?_⟩
  rw [hu.gpuRouter, hu.assignedDevices]
  exact hs.routed

omit [IKVCacheAllocator A] in
/-- Without a commit nothing is owed. -/
theorem owing_of_uncommitted {s : Scheduler A} (h : s.committedCount r = 0) : Owing r s :=
  ⟨fun _ => h, Or.inl (by omega)⟩

omit [IKVCacheAllocator A] in
/-- Routing gives the request the devices that were decided on. -/
theorem routeRequest_routed {s : Scheduler A} (h : s.committedCount r = 0) :
    Routed r (s.routeRequest r).1 (s.routeRequest r).2 := by
  cases hrouter : s.gpuRouter with
  | none =>
      rw [routeRequest_none hrouter]
      exact ⟨h, Or.inl hrouter⟩
  | some g =>
      rw [routeRequest_some hrouter]
      refine ⟨by simpa [committedCount, log, modify] using h, Or.inr ⟨rfl, ?_⟩⟩
      rw [requests_log, requests_modify_self]
      exact g.route_deviceIds_ne_nil _

omit [IKVCacheAllocator A] in
/-- Reserving and taking back move bytes only. -/
theorem Routed.reroute {s : Scheduler A} {decision : Option RoutingDecision}
    (h : Routed r decision s) (g : GPURouter) {s' : Scheduler A}
    (hrouter : s.gpuRouter.isSome) (heq : s'.gpuRouter = some g)
    (hrequests : s'.requests = s.requests) (hcount : s'.committedCount r = s.committedCount r) :
    Routed r decision s' := by
  refine ⟨hcount.trans h.uncommitted, Or.inr ⟨by rw [heq]; rfl, ?_⟩⟩
  rw [hrequests]
  rcases h.routed with hnone | ⟨-, hdevices⟩
  · rw [hnone] at hrouter
    cases hrouter
  · exact hdevices

omit [IKVCacheAllocator A] in
/-- A reservation commits nothing. -/
theorem Routed.reserve {s : Scheduler A} {decision : Option RoutingDecision}
    (h : Routed r decision s) : Routed r decision (s.reserveBudget r decision) := by
  unfold reserveBudget
  split
  next g x hrouter =>
    exact h.reroute _ (by rw [hrouter]; rfl) rfl rfl (by simp [committedCount, log])
  next => exact h

omit [IKVCacheAllocator A] in
/-- Nor does taking it back. -/
theorem Routed.unreserve {s : Scheduler A} {decision : Option RoutingDecision}
    (h : Routed r decision s) : Routed r decision (s.unreserveBudget r decision) := by
  unfold unreserveBudget
  split
  next g x hrouter => exact h.reroute _ (by rw [hrouter]; rfl) rfl rfl rfl
  next => exact h

omit [IKVCacheAllocator A] in
/-- A commit is owed, with all that its release will look at. -/
theorem Routed.commit {s : Scheduler A} {decision : Option RoutingDecision}
    (h : Routed r decision s) (hdequeued : r ∈ s.dequeued) :
    Owing r (s.commitBudget r decision) := by
  unfold commitBudget
  split
  next g x hrouter =>
    have hdevices : (s.requests r).assignedDevices ≠ [] := by
      rcases h.routed with hnone | ⟨-, hdevices⟩
      · rw [hnone] at hrouter
        cases hrouter
      · exact hdevices
    have hcount := h.uncommitted
    refine ⟨fun hr => absurd (by simpa [dequeued, log] using hdequeued) hr,
      Or.inr ⟨rfl, hdevices, ?_⟩⟩
    simp only [committedCount] at hcount
    simp [committedCount, freedCount, log, Event.frees, hcount]
  next => exact owing_of_uncommitted h.uncommitted

/-- Of the actions of a placement only the commit can strand a budget, and it
finds none committed. -/
theorem place_owing :
    Triple (releaseContract K r) (Drawn r) (place r : Sched A (Result Unit))
      (fun _ => Owing r) := by
  have hbooked : ∀ decision, Booked (fun s : Scheduler A => Routed r decision s ∧ r ∈ s.dequeued) :=
    fun decision => booked_routed.and fun _ _ hs hu => (mem_dequeued_congr hu.accounts r).mpr hs
  have hstrands : ∀ {decision : Option RoutingDecision} {s s' : Scheduler A},
      Routed r decision s → Strands r s s' :=
    fun h => strands_of_paid (h.uncommitted.trans_le (Nat.zero_le _))
  refine Triple.bind (Q := fun decision s => Routed r decision s ∧ r ∈ s.dequeued)
    (Triple.atomic booked_drawn.stable fun _ s hs _ _ => ?_) fun decision => ?_
  · refine ⟨strands_of_paid (hs.2.trans_le (Nat.zero_le _)), routeRequest_routed hs.2, ?_⟩
    rw [(works_routeRequest s r).dequeued]
    exact hs.1
  refine Triple.bind ((hbooked decision).move
    (Q := fun s => Routed r decision s ∧ r ∈ s.dequeued) fun s hs => ?_) fun _ => ?_
  · refine ⟨hstrands hs.1, hs.1.reserve, ?_⟩
    rw [(works_reserveBudget s r decision).dequeued]
    exact hs.2
  refine Triple.bind (Q := fun _ s => Routed r decision s ∧ r ∈ s.dequeued)
    (Triple.atomic (hbooked decision).stable fun i s hs _ _ => ⟨hstrands hs.1, ?_⟩)
    fun result => ?_
  · obtain ⟨⟨hcount, hrouted⟩, hdequeued⟩ := hs
    obtain ⟨e, a, -, heq⟩ | ⟨handle, a, -, heq⟩ := allocateFor_cases s i r decision
    · rw [heq]
      exact ⟨⟨hcount, hrouted⟩, hdequeued⟩
    · rw [heq]
      refine ⟨⟨hcount, ?_⟩, hdequeued⟩
      rw [requests_modify_self]
      exact hrouted
  cases result with
  | error e =>
      refine Triple.bind ((hbooked decision).move (Q := Owing r) fun s hs => ?_)
        fun _ => Triple.ret fun _ hs => hs
      exact ⟨hstrands hs.1, owing_of_uncommitted hs.1.unreserve.uncommitted⟩
  | ok _ =>
      refine Triple.bind ((hbooked decision).move (Q := Owing r) fun s hs => ?_)
        fun _ => Triple.ret fun _ hs => hs
      exact ⟨hstrands hs.1, hs.1.commit hs.2⟩

/-- A prefill leaves nothing owed that is not accounted for. -/
theorem runPrefill_owing :
    Triple (releaseContract K r) (Drawn r) (runPrefill r : Sched A (Result Unit))
      (fun _ => Owing r) := by
  refine Triple.bind (booked_drawn.still (setState_unmoved r _)) fun _ => ?_
  refine Triple.bind (booked_drawn.still (gauge_unmoved (· + 1))) fun _ => ?_
  refine Triple.bind place_owing fun placed => ?_
  cases placed with
  | error e =>
      exact Triple.bind (booked_owing.still (gauge_unmoved (· - 1)))
        (fun _ => Triple.ret fun _ hs => hs)
  | ok _ =>
      refine Triple.bind (booked_owing.still (Always.atomic fun i s => ?_)) fun prefilled => ?_
      · dsimp only
        split
        · exact Unmoved.refl s
        · exact Unmoved.log s rfl
      cases prefilled with
      | error e =>
          refine Triple.bind (freeResources_cleared.post fun _ _ hs => hs.toOwing) fun _ => ?_
          exact Triple.bind (booked_owing.still (gauge_unmoved (· - 1)))
            (fun _ => Triple.ret fun _ hs => hs)
      | ok logits =>
          refine Triple.bind (booked_owing.still (Always.update fun s =>
            Unmoved.modify s r ?_ ?_ ?_)) fun _ => Triple.ret fun _ hs => hs
          all_goals exact fun _ => rfl

/-! ## The loop -/

/-- Taking up a request leaves it at rest. -/
theorem startRequest_atRest (d : SchedulerSetup) :
    Triple (releaseContract K r) (Drawn r) (startRequest d r : Sched A Unit)
      (fun _ => AtRest r) := by
  have hfail : ∀ e : Error, Triple (releaseContract K r) (Owing r)
      (failRequest r e : Sched A Unit) (fun _ => AtRest r) := fun e =>
    (failRequest_cleared e).post fun _ _ hs => hs.atRest
  refine Triple.bind (booked_drawn.still ((step_unmoved r).clock _)) fun queueTimedOut => ?_
  cases queueTimedOut with
  | true => exact (hfail _).pre fun _ hs => owing_of_uncommitted hs.2
  | false =>
      refine Triple.bind (booked_drawn.still ((step_unmoved r).clock _)) fun requestTimedOut => ?_
      cases requestTimedOut with
      | true => exact (hfail _).pre fun _ hs => owing_of_uncommitted hs.2
      | false =>
          refine Triple.bind runPrefill_owing fun result => ?_
          cases result with
          | error e => exact hfail e
          | ok _ =>
              refine Triple.bind (booked_owing.still (setState_unmoved r _)) fun _ => ?_
              refine Triple.bind (booked_owing.still (Always.atomic fun i s => ?_))
                fun _ => ?_
              · dsimp only
                split
                · exact Unmoved.modify s r (fun _ => rfl) (fun _ => rfl) (fun _ => rfl)
                · exact Unmoved.refl s
              · exact booked_owing.move fun s hs =>
                  ⟨id, ⟨hs.begun, hs.owes⟩, fun _ hactive => absurd (by simp) hactive⟩

/-- So does a turn of it. -/
theorem decodeRequest_atRest (d : SchedulerSetup) :
    Triple (releaseContract K r) (AtRest r) (decodeRequest d r : Sched A Unit)
      (fun _ => AtRest r) :=
  (step_unmoved r).decodeRequest booked_atRest.stable (fun _ _ _ hu => hu.strands)
    booked_atRest (fun _ hs => hs)
    (fun reason => (completeRequest_cleared reason).conseq (fun _ hs => hs.owing)
      fun _ _ hs => hs.atRest)
    (fun e => (failRequest_cleared e).conseq (fun _ hs => hs.owing) fun _ _ hs => hs.atRest) d

/-- So does work on another. -/
theorem atRest_elsewhere {p : Sched A Unit} (hp : p.Always (Works q)) (hr : r ≠ q) :
    Triple (releaseContract K r) (AtRest r) p (fun _ => AtRest r) :=
  hp.triple booked_atRest.stable (fun _ _ _ hw => (hw.refundable hr).mp)
    (fun _ _ hs hw => hw.atRest hr hs)

omit [IKVCacheAllocator A] in
/-- Taking another request out of the queue. -/
theorem Owing.dequeue {s : Scheduler A} {rest : List RequestPtr} (h : Owing r s) :
    Owing r ({ s with pendingQueue := rest }.log (.dequeued q)) := by
  refine ⟨fun hr => ?_, ?_⟩
  · have hcount := h.begun fun hdequeued => hr (by simpa [dequeued, log] using Or.inl hdequeued)
    simpa [committedCount, log] using hcount
  · simpa [committedCount, freedCount, log, Event.frees] using h.owes

/-- Another request may leave the queue. -/
theorem AtRest.dequeue {s : Scheduler A} {rest : List RequestPtr} (h : AtRest r s) (hq : r ≠ q) :
    AtRest r ({ s with pendingQueue := rest }.log (.dequeued q)) := by
  refine ⟨h.owing.dequeue, fun hdequeued hactive => ?_⟩
  have hcleared := h.gone (by simpa [dequeued, log, hq] using hdequeued) hactive
  refine ⟨h.owing.dequeue, hcleared.handle, fun hrefund => ?_⟩
  have hpaid := hcleared.budget (by simpa [Refundable, committedCount, freedCount, log,
    Event.frees] using hrefund)
  simpa [committedCount, freedCount, log, Event.frees] using hpaid

/-- Every body of the decode thread leaves a request at rest. -/
theorem decodeLoop_atRest {d : SchedulerSetup}
    (hlife : ∀ s, K s → Life.Inv d.config.maxActiveRequests s.life) (l : Point) :
    Triple (releaseContract K r) (AtRest r) (decodeLoop d l : Sched A Point)
      (fun _ => AtRest r) := by
  have hstrands (s : Scheduler A) (q : RequestPtr) (rest : List RequestPtr) :
      Strands r s ({ s with pendingQueue := rest }.log (.dequeued q)) := fun hrefund => by
    simpa [Refundable, committedCount, freedCount, log, Event.frees] using hrefund
  refine decodeLoop_keeps (F := fun q s => (r = q → Drawn r s) ∧ (r ≠ q → AtRest r s))
    booked_atRest.stable (fun _ _ => id) (fun s hs => ⟨id, ?_⟩)
    (fun s q rest hs hK hpend => ⟨hstrands s q rest, fun hq => ?_, hs.dequeue⟩) d
    (fun q => ?_) (fun q => ?_) l
  · exact booked_atRest _ _ hs (unmoved_of_eq rfl rfl rfl rfl rfl)
  · subst hq
    have hmem : r ∈ s.life.pending := by simp [life, hpend]
    have hcount := hs.owing.begun ((hlife s hK).not_dequeued_of_pending hmem)
    simp only [committedCount] at hcount
    simp [Drawn, committedCount, dequeued, log, hcount]
  · by_cases hq : r = q
    · subst hq
      exact (startRequest_atRest d).pre fun _ hs => hs.1 rfl
    · exact (atRest_elsewhere ((works_chores q).startRequest d) hq).pre fun _ hs => hs.2 hq
  · by_cases hq : r = q
    · subst hq
      exact decodeRequest_atRest d
    · exact atRest_elsewhere ((works_chores q).decodeRequest d) hq

/-- The decode thread keeps this contract among the other threads. -/
theorem release_compatible {d : SchedulerSetup}
    (hlife : ∀ s, K s → Life.Inv d.config.maxActiveRequests s.life) (r : RequestPtr) :
    Compatible (code (A := A) d) (loneContracts .decode (releaseContract K r))
      (lonePoint .decode (fun _ => AtRest r)) :=
  Compatible.lone (fun _ ht l => code_interference d ht l) (fun _ => booked_atRest.stable)
    (decodeLoop_atRest hlife)

end Proof

/-! ## Runs -/

section Runs

variable {a : A} {g : Option GPURouter} {requests : RequestPtr → Request}

/-- A new request is at rest. -/
theorem atRest_create (r : RequestPtr) :
    AtRest r (create a g requests) := by
  refine ⟨⟨fun _ => ?_, Or.inl ?_⟩, fun hdequeued => ?_⟩
  · simp [committedCount, create]
  · simp [committedCount, create]
  · simp [dequeued, create] at hdequeued

variable (d : SchedulerSetup)

/-- **Released.**  Whenever the decode thread stands at a control point, a
request that is gone has its handle freed, and its budget released unless that
is stranded. -/
theorem release_point (h : Fresh requests) (r : RequestPtr)
    (schedule : List (ThreadId × Answer)) {l : Point} :
    let w := (System.initial (create a g requests)).run (code d) schedule
    w.threads .decode = .ret l → AtRest r w.state := by
  intro w hl
  have hknown : ∀ first, first <+: schedule → Life.Inv d.config.maxActiveRequests
      ((System.initial (create a g requests)).run (code d) first).state.life :=
    fun first _ => life_inv d h first
  have hc := release_compatible (A := A) (d := d)
    (K := fun s => Life.Inv d.config.maxActiveRequests s.life) (fun _ hs => hs) r
  exact (Pool.run_sound hc (sound_lone (fun _ => rfl) (atRest_create r)) schedule
    (known_lone hknown)).at_point hl rfl

/-- **Stranded for good.**  A budget that nobody can release is still charged
at the end of the run. -/
theorem stranded_stays (h : Fresh requests) (r : RequestPtr)
    {first schedule : List (ThreadId × Answer)} (hfirst : first <+: schedule)
    (hrefund : Refundable r
      ((System.initial (create a g requests)).run (code d) schedule).state) :
    Refundable r ((System.initial (create a g requests)).run (code d) first).state := by
  have hknown : ∀ first, first <+: schedule → Life.Inv d.config.maxActiveRequests
      ((System.initial (create a g requests)).run (code d) first).state.life :=
    fun first _ => life_inv d h first
  have hc := release_compatible (A := A) (d := d)
    (K := fun s => Life.Inv d.config.maxActiveRequests s.life) (fun _ hs => hs) r
  by_contra hstranded
  refine hc.lone_keeps (J := fun s => ¬ Refundable r s) (fun s s' hstrands hs => mt hstrands hs)
    (fun s s' hother hs => ?_) (fun _ => rfl) (atRest_create r) hfirst hknown hstranded hrefund
  exact mt (Unmoved.of_interference hother).refundable.mp hs

end Runs

end Scheduler

end Qwen
