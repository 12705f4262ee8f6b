import Mathlib.Algebra.Group.Int.Defs
import Mathlib.Algebra.Group.Prod
import WinInference.Concurrency.Sums
import WinInference.Scheduler.Accounting
import WinInference.Scheduler.Frame

/-!
# The gauge of active requests

`run_prefill` raises the gauge, and lowers it again when it fails;
`complete_request` and `fail_request` lower it.  A request that fails before it
joins the active list is thus taken off once too often, whichever way it fails.

`drift` weighs the changes of a run: how far the gauge and the counters of
finished requests move together, against the requests that join the active list,
and how often a request joins it, against how often it was dequeued.
-/

namespace Qwen

open Concurrency Concurrency.Program

namespace Scheduler

variable {A : Type}

/-! ## Joining the active list -/

/-- The requests that a change of the state adds to the active list. -/
def joins (s s' : Scheduler A) : List RequestPtr :=
  s'.activeRequests.drop s.activeRequests.length

/-- The requests on the gauge, and those that have left. -/
def opened (s : Scheduler A) : Int := s.requestsActive + s.completedCount + s.erroredCount

/-- What a change adds to the gauge without a request that joins, and how often
`r` joins without being dequeued. -/
def drift (r : RequestPtr) (s s' : Scheduler A) : Int × Int :=
  (s'.opened - s.opened - (s.joins s').length,
    (s.joins s').count r - (s'.dequeued.count r - s.dequeued.count r))

section Drift

variable {r : RequestPtr} {s s' : Scheduler A}

/-- Nobody has joined a list that has not grown. -/
theorem joins_eq_nil (h : s'.activeRequests.length ≤ s.activeRequests.length) :
    s.joins s' = [] := List.drop_eq_nil_of_le h

/-- A change that adds nothing to the list. -/
theorem drift_of_le {n : Int} (hactive : s'.activeRequests.length ≤ s.activeRequests.length)
    (hdequeued : s'.dequeued = s.dequeued) (hopened : s'.opened = s.opened + n) :
    drift r s s' = (n, 0) := by
  unfold drift
  rw [joins_eq_nil hactive, hdequeued, hopened]
  simp

/-- No move, no drift. -/
theorem drift_self (r : RequestPtr) (s : Scheduler A) : drift r s s = 0 :=
  drift_of_le (Nat.le_refl _) rfl (Int.add_zero _).symm

/-- What the lifecycle and the gauge do not show has no weight. -/
theorem drift_of_quiet (h : Quiet s s') (hgauge : s'.requestsActive = s.requestsActive) :
    drift r s s' = 0 := by
  have hactive : s'.activeRequests = s.activeRequests := congrArg Life.active h
  have hdequeued : s'.dequeued = s.dequeued := congrArg Life.dequeued h
  have hsettled : s'.completedCount + s'.erroredCount = s.completedCount + s.erroredCount :=
    congrArg Life.settled h
  refine drift_of_le (Nat.le_of_eq (by rw [hactive])) hdequeued ?_
  unfold opened
  omega

/-- The request joins. -/
theorem drift_activate (q : RequestPtr) (s : Scheduler A) :
    drift r s { s with activeRequests := s.activeRequests ++ [q] } =
      (-1, if q = r then 1 else 0) := by
  have hjoins : s.joins { s with activeRequests := s.activeRequests ++ [q] } = [q] :=
    List.drop_left
  have hopened : Scheduler.opened { s with activeRequests := s.activeRequests ++ [q] } =
      s.opened := rfl
  have hdequeued : Scheduler.dequeued { s with activeRequests := s.activeRequests ++ [q] } =
      s.dequeued := rfl
  unfold drift
  rw [hjoins, hopened, hdequeued, List.count_singleton]
  by_cases hq : q = r <;> simp [hq]

/-- Dequeuing a request drifts by its weight. -/
theorem drift_dequeue (q : RequestPtr) (rest : List RequestPtr) (s : Scheduler A) :
    drift r s ({ s with pendingQueue := rest }.log (.dequeued q)) =
      (0, -(if q = r then 1 else 0)) := by
  have hjoins : s.joins ({ s with pendingQueue := rest }.log (.dequeued q)) = [] :=
    joins_eq_nil (Nat.le_refl _)
  have hopened : Scheduler.opened ({ s with pendingQueue := rest }.log (.dequeued q)) =
      s.opened := rfl
  have hdequeued : Scheduler.dequeued ({ s with pendingQueue := rest }.log (.dequeued q)) =
      s.dequeued ++ [q] := by
    simp [dequeued, log]
  unfold drift
  rw [hjoins, hopened, hdequeued, List.count_append, List.count_singleton]
  by_cases hq : q = r <;> simp [hq]

end Drift

/-! ## The functions of the decode thread -/

/-- The gauge stays. -/
def SameGauge (s s' : Scheduler A) : Prop := s'.requestsActive = s.requestsActive

/-- A move on the budgets leaves the gauge alone. -/
theorem BudgetMove.sameGauge {r : RequestPtr} {s s' : Scheduler A} (h : BudgetMove r s s') :
    SameGauge s s' := by
  cases h with
  | idle | silent | logged => rfl

/-- The sections of a decode step leave the gauge alone. -/
theorem step_sameGauge (r : RequestPtr) : StepChores r (SameGauge (A := A)) :=
  ⟨fun _ => rfl, fun _ _ _ => rfl, fun _ _ _ => rfl, fun _ _ _ => rfl⟩

variable [IKVCacheAllocator A]

/-- The sections of a release leave the gauge alone. -/
theorem release_sameGauge (r : RequestPtr) : ReleaseChores r (SameGauge (A := A)) :=
  ⟨fun _ => rfl, fun s => (freeBudget_move s r).sameGauge, fun _ => rfl⟩

/-- The sections of a placement leave the gauge alone. -/
theorem place_sameGauge (r : RequestPtr) : PlaceChores r (SameGauge (A := A)) where
  route s := by
    cases hrouter : s.gpuRouter with
    | none => rw [routeRequest_none hrouter]; rfl
    | some g => rw [routeRequest_some hrouter]; rfl
  reserve s decision := (reserveBudget_move s r decision).sameGauge
  allocate s i decision := by
    rcases allocateFor_cases s i r decision with ⟨e, a, -, heq⟩ | ⟨handle, a, -, heq⟩
    · rw [heq]
      rfl
    · rw [heq]
      rfl
  unreserve s decision := (unreserveBudget_move s r decision).sameGauge
  commit s decision := (commitBudget_move s r decision).sameGauge

section Functions

variable {r q : RequestPtr} {α : Type}

omit [IKVCacheAllocator A] in
/-- Actions that neither the lifecycle nor the gauge shows. -/
theorem weightless {p : Sched A α} (hquiet : p.Always Quiet) (hgauge : p.Always SameGauge) :
    p.Always fun s s' => drift r s s' = 0 :=
  (hquiet.and hgauge).mono fun _ _ h => drift_of_quiet h.1 h.2

omit [IKVCacheAllocator A] in
/-- A change of a request's fields does not drift. -/
theorem modify_weightless {f : Request → Request} :
    (Program.update (fun s => s.modify q f) : Sched A Unit).Always
      fun s s' => drift r s s' = 0 := by
  apply Always.update
  intro s
  exact drift_of_le (Nat.le_refl _) rfl (Int.add_zero _).symm

/-- Leaving takes the request off the gauge. -/
theorem retire_yields (event : TokenEvent) :
    (retire q event : Sched A Unit).Yields (drift r) fun _ m => m = (-1, 0) := by
  apply Always.yields_bind modify_weightless
  intro _
  apply Always.yields_bind modify_weightless
  intro _
  apply Always.yields_bind
    (weightless (release_quiet q).freeResources (release_sameGauge q).freeResources)
  intro _
  apply Always.yields_bind (Always.update fun s => ?_)
  · intro _
    apply Always.yields_bind (Always.update fun s => ?_)
    · intro _
      apply Yields.update
      intro s
      refine drift_of_le (Nat.le_refl _) rfl ?_
      simp only [opened]
      omega
    · exact drift_of_le (Nat.le_refl _) rfl (Int.add_zero _).symm
  · exact drift_of_le (List.length_filter_le _ _) rfl (Int.add_zero _).symm

/-- The end of a request moves it from the gauge to a counter. -/
theorem ended_yields {f : Request → Request} {st : RequestState} {event : TokenEvent}
    {count : Scheduler A → Scheduler A} (hcount : ∀ s, drift r s (count s) = (1, 0)) :
    (Program.update (fun s => s.modify q f) >>= fun _ => setState q st >>= fun _ =>
      retire q event >>= fun _ => Program.update count : Sched A Unit).Yields (drift r)
        fun _ m => m = 0 := by
  apply Always.yields_bind modify_weightless
  intro _
  apply Always.yields_bind modify_weightless
  intro _
  apply Yields.bind (retire_yields event)
  rintro _ m rfl
  apply Yields.update
  intro s
  rw [hcount s]
  rfl

/-- Completing a request does not drift. -/
theorem completeRequest_yields (reason : FinishReason) :
    (completeRequest q reason : Sched A Unit).Yields (drift r) fun _ m => m = 0 := by
  apply ended_yields
  intro s
  refine drift_of_le (Nat.le_refl _) rfl ?_
  simp only [opened]
  omega

/-- Failing a request does not drift. -/
theorem failRequest_yields (error : Error) :
    (failRequest q error : Sched A Unit).Yields (drift r) fun _ m => m = 0 := by
  apply ended_yields
  intro s
  refine drift_of_le (Nat.le_refl _) rfl ?_
  simp only [opened]
  omega

omit [IKVCacheAllocator A] in
/-- Adding to the gauge drifts by that number. -/
theorem gauge_yields (n : Int) :
    (Program.update (fun s => { s with requestsActive := s.requestsActive + n }) :
      Sched A Unit).Yields (drift r) fun _ m => m = (n, 0) := by
  apply Yields.update
  intro s
  refine drift_of_le (Nat.le_refl _) rfl ?_
  simp only [opened]
  omega

/-- What a prefill leaves on the gauge. -/
def raised : Result Unit → Int
  | .ok _ => 1
  | .error _ => 0

/-- A prefill that succeeds puts the request on the gauge. -/
theorem runPrefill_yields :
    (runPrefill q : Sched A (Result Unit)).Yields (drift r) fun result m =>
      m = (raised result, 0) := by
  apply Always.yields_bind modify_weightless
  intro _
  apply Yields.bind (gauge_yields 1)
  rintro _ m rfl
  apply Yields.bind (weightless (place_quiet q).place (place_sameGauge q).place).yields
  rintro placed m rfl
  cases placed with
  | error e =>
      apply Yields.bind (gauge_yields (-1))
      rintro _ m rfl
      rfl
  | ok _ =>
      have hcall : (callPrefill q : Sched A (Result Logits)).Always SameGauge := by
        apply Always.atomic
        intro i s
        cases i.prefill <;> rfl
      apply Yields.bind (weightless (callPrefill_quiet q) hcall).yields
      rintro prefilled m rfl
      cases prefilled with
      | error e =>
          apply Yields.bind (weightless (release_quiet q).freeResources
            (release_sameGauge q).freeResources).yields
          rintro _ m rfl
          apply Yields.bind (gauge_yields (-1))
          rintro _ m rfl
          rfl
      | ok logits =>
          apply Yields.bind modify_weightless.yields
          rintro _ m rfl
          rfl

omit [IKVCacheAllocator A] in
/-- A look at the clock. -/
theorem clock_weightless (f : Answer → Scheduler A → α) :
    (Program.atomic (fun i s => (f i s, s)) : Sched A α).Always fun s s' => drift r s s' = 0 :=
  Always.atomic fun _ s => drift_self r s

/-- A dequeued request fails, or joins the active list once. -/
theorem startRequest_yields (d : SchedulerSetup) :
    (startRequest d q : Sched A Unit).Yields (drift r) fun _ m =>
      m.1 = 0 ∧ m.2 ≤ if q = r then 1 else 0 := by
  have hfail : ∀ e : Error, (failRequest q e : Sched A Unit).Yields (drift r) fun _ m =>
      m.1 = 0 ∧ m.2 ≤ if q = r then 1 else 0 := by
    intro e
    apply (failRequest_yields e).mono
    rintro _ m rfl
    refine ⟨rfl, ?_⟩
    show (0 : Int) ≤ _
    split <;> omega
  apply Always.yields_bind (clock_weightless _)
  intro queueTimedOut
  cases queueTimedOut with
  | true => exact hfail _
  | false =>
      apply Always.yields_bind (clock_weightless _)
      intro requestTimedOut
      cases requestTimedOut with
      | true => exact hfail _
      | false =>
          apply Yields.bind runPrefill_yields
          rintro result m rfl
          cases result with
          | error e =>
              apply (hfail e).mono
              intro _ m hm
              simpa [raised] using hm
          | ok _ =>
              apply Always.yields_bind modify_weightless
              intro _
              apply Always.yields_bind
              · apply Always.atomic
                intro i s
                dsimp only
                split
                · exact drift_of_le (Nat.le_refl _) rfl (Int.add_zero _).symm
                · exact drift_self r s
              intro _
              apply Yields.update
              intro s
              rw [drift_activate q s]
              exact ⟨rfl, Int.le_of_eq (Int.zero_add _)⟩

/-- A round for an active request. -/
theorem decodeRequest_yields (d : SchedulerSetup) :
    (decodeRequest d q : Sched A Unit).Yields (drift r) fun _ m => m = 0 := by
  apply Always.yields_bind (clock_weightless _)
  intro cancelled
  cases cancelled with
  | true => exact completeRequest_yields .stop
  | false =>
      apply Always.yields_bind (clock_weightless _)
      intro requestTimedOut
      cases requestTimedOut with
      | true => exact failRequest_yields _
      | false =>
          apply Always.yields_bind (clock_weightless _)
          intro decodeTimedOut
          cases decodeTimedOut with
          | true => exact failRequest_yields _
          | false =>
              apply Always.yields_bind (weightless ((step_quiet q).runDecodeStep d)
                ((step_sameGauge q).runDecodeStep d))
              intro result
              cases result with
              | error e => exact failRequest_yields e
              | ok goesOn =>
                  cases goesOn with
                  | true => rfl
                  | false =>
                      apply Always.yields_bind (clock_weightless _)
                      intro reason
                      exact completeRequest_yields reason

/-- Between two requests the gauge agrees with those that joined, and none
joined more often than it was dequeued. -/
def Settled (m : Int × Int) : Prop := m.1 = 0 ∧ m.2 ≤ 0

/-- A pass of the decode loop leaves the drift settled at its turning points. -/
theorem decodeLoop_yields (d : SchedulerSetup) (l : Point) {m : Int × Int} (hm : Settled m) :
    (decodeLoop d l : Sched A Point).Yields (drift r) fun _ m' => Settled (m + m') := by
  have hstays : ∀ {m' : Int × Int}, m' = 0 → Settled (m + m') := by
    rintro _ rfl
    rwa [add_zero]
  cases l with
  | start =>
      apply Yields.bind (Always.yields (Always.atomic fun i s => ?_))
      · rintro running m' rfl
        cases running <;> exact hstays rfl
      · exact drift_of_le (Nat.le_refl _) rfl (Int.add_zero _).symm
  | processQueue =>
      apply Yields.bind (Q := fun next m' =>
        m' = next.elim 0 fun q => (0, -(if q = r then 1 else 0)))
      · apply Yields.atomic
        intro i s
        rcases dequeue_cases s d.config.maxActiveRequests with heq | ⟨q, rest, -, -, heq⟩
        · rw [heq]
          exact drift_self r s
        · rw [heq]
          exact drift_dequeue q rest s
      rintro next m' rfl
      cases next with
      | none => exact hstays rfl
      | some q =>
          apply Yields.bind (startRequest_yields d)
          rintro _ ⟨n, k⟩ ⟨hn, hk⟩
          obtain ⟨hgauge, hcount⟩ := hm
          refine ⟨?_, ?_⟩
          · simp only [Option.elim_some, Prod.fst_add, Prod.fst_zero]
            omega
          · simp only [Option.elim_some, Prod.snd_add, Prod.snd_zero]
            omega
  | copyActive =>
      apply Always.yields_bind (clock_weightless _)
      intro active
      by_cases hempty : active.isEmpty
      · rw [if_pos hempty]
        exact hstays rfl
      · rw [if_neg hempty]
        exact hstays rfl
  | decodeEach rest =>
      cases rest with
      | nil => exact hstays rfl
      | cons q rest =>
          apply Yields.bind (decodeRequest_yields d)
          rintro _ m' rfl
          exact hstays rfl
  | join | returned => exact hstays rfl

end Functions

/-! ## Whole runs -/

section Runs

variable {d : SchedulerSetup} {s : Scheduler A} {r : RequestPtr}
  {schedule : List (ThreadId × Answer)}

/-- The requests that have joined the active list in a run, in order. -/
def joined (d : SchedulerSetup) (s : Scheduler A) (schedule : List (ThreadId × Answer)) :
    List RequestPtr :=
  ((System.initial s).changes (code d) schedule).flatMap fun change => change.1.joins change.2

/-- The requests joined in a longer run. -/
theorem joined_concat (d : SchedulerSetup) (s : Scheduler A)
    (schedule : List (ThreadId × Answer)) (e : ThreadId × Answer) :
    joined d s (schedule ++ [e]) = joined d s schedule ++
      ((System.initial s).run (code d) schedule).state.joins
        (((System.initial s).run (code d) schedule).step (code d) e.1 e.2).state := by
  unfold joined
  rw [Pool.changes_concat, List.flatMap_append, List.flatMap_singleton]

/-- The drift of a run. -/
theorem total_drift (d : SchedulerSetup) (s : Scheduler A) (r : RequestPtr)
    (schedule : List (ThreadId × Answer)) :
    let last := ((System.initial s).run (code d) schedule).state
    (System.initial s).total (drift r) (code d) schedule =
      (last.opened - s.opened - (joined d s schedule).length,
        ((joined d s schedule).count r : Int) -
          ((last.dequeued.count r : Int) - s.dequeued.count r)) := by
  induction schedule using List.reverseRecOn with
  | nil =>
      refine Prod.ext ?_ ?_
      · show (0 : Int) = s.opened - s.opened - 0
        omega
      · show (0 : Int) = 0 - ((s.dequeued.count r : Int) - s.dequeued.count r)
        omega
  | append_singleton rest e ih =>
      intro last
      rw [Pool.total_concat, ih, joined_concat, List.length_append, List.count_append]
      have hlast : last = (((System.initial s).run (code d) rest).step (code d) e.1 e.2).state := by
        rw [← Pool.run_concat]
      rw [← hlast]
      refine Prod.ext ?_ ?_
      · simp only [drift, Prod.fst_add]
        omega
      · simp only [drift, Prod.snd_add]
        omega

/-- Other threads have no weight. -/
theorem others_weightless (d : SchedulerSetup) {t : ThreadId} (ht : t ≠ .decode) (l : Point) :
    (code d t l : Sched A Point).Always fun s s' => drift r s s' = 0 := by
  have hcounters : (code d t l : Sched A Point).Always fun s s' => s'.opened = s.opened :=
    others_field (fun _ _ _ => rfl) (fun _ _ => rfl) (fun _ _ => rfl) (fun _ _ => rfl) d ht
      (fun _ _ => rfl) l
  apply ((code_interference d ht l).and hcounters).mono
  rintro s s' ⟨hinterference, hopened⟩
  refine drift_of_le (Nat.le_of_eq (by rw [hinterference.activeRequests]))
    hinterference.dequeued ?_
  rw [hopened, Int.add_zero]

/-- At the head of the loop the gauge and the counters make up for the requests
that have joined, and none has joined more often than it was dequeued. -/
theorem gauge_joined (hopened : s.opened = 0) (hdequeued : s.dequeued = [])
    (hhead : AtHead ((System.initial s).run (code d) schedule)) :
    let last := ((System.initial s).run (code d) schedule).state
    last.opened = (joined d s schedule).length ∧
      ∀ r, (joined d s schedule).count r ≤ last.dequeued.count r := by
  intro last
  have hsettled : ∀ r, Settled ((System.initial s).total (drift r) (code d) schedule) := by
    intro r
    exact Pool.total_at_point (code (A := A) d) (I := fun _ => Settled) (drift_self r)
      (fun t ht l => others_weightless d ht l) (fun l m hm => decodeLoop_yields d l hm)
      ⟨rfl, Int.le_refl 0⟩ schedule hhead
  constructor
  · obtain ⟨hgauge, -⟩ := hsettled 0
    rw [total_drift] at hgauge
    have hgauge : last.opened - s.opened - (joined d s schedule).length = 0 := hgauge
    omega
  · intro r
    obtain ⟨-, hcount⟩ := hsettled r
    rw [total_drift, hdequeued] at hcount
    have hcount : ((joined d s schedule).count r : Int) - ((last.dequeued.count r : Int) - 0) ≤ 0 :=
      hcount
    omega

/-- A step shrinks the active list, or lets one request join. -/
def Rolls (s s' : Scheduler A) : Prop :=
  s'.activeRequests ⊆ s.activeRequests ∨ ∃ q, s'.activeRequests = s.activeRequests ++ [q]

omit [IKVCacheAllocator A] in
/-- A move that leaves the active list alone rolls it. -/
theorem rolls_of_eq {s s' : Scheduler A} (h : s'.activeRequests = s.activeRequests) :
    Rolls s s' := Or.inl (by rw [h]; exact List.Subset.refl _)

/-- The sections of a pass roll the active list. -/
theorem rolls_chores (q : RequestPtr) : Chores q (Rolls (A := A)) where
  idle _ := rolls_of_eq rfl
  freeBudget s := rolls_of_eq (congrArg Life.active (quiet_freeBudget s q))
  freeKvCache _ := rolls_of_eq rfl
  eraseActive _ := Or.inl (List.filter_subset_self _)
  unregister _ := rolls_of_eq rfl
  gauge _ _ := rolls_of_eq rfl
  countCompleted _ _ := rolls_of_eq rfl
  countErrored _ _ := rolls_of_eq rfl
  route s := rolls_of_eq (congrArg Life.active (quiet_routeRequest s q))
  reserve s decision := rolls_of_eq (congrArg Life.active (quiet_reserveBudget s q decision))
  allocate s i decision := rolls_of_eq (congrArg Life.active (quiet_allocateFor s i q decision))
  unreserve s decision := rolls_of_eq (congrArg Life.active (quiet_unreserveBudget s q decision))
  commit s decision := rolls_of_eq (congrArg Life.active (quiet_commitBudget s q decision))
  edit _ _ _ := rolls_of_eq rfl
  push _ _ := rolls_of_eq rfl
  close _ := rolls_of_eq rfl
  call _ _ _ _ _ := rolls_of_eq rfl
  activate _ := Or.inr ⟨q, rfl⟩

/-- Every thread rolls the active list. -/
theorem code_rolls (d : SchedulerSetup) (t : ThreadId) (l : Point) :
    (code d t l : Sched A Point).Always Rolls := by
  by_cases ht : t = .decode
  · subst ht
    exact decodeLoop_always rolls_chores (fun _ => rolls_of_eq rfl)
      (fun _ _ _ _ => rolls_of_eq rfl) d l
  · exact (code_interference d ht l).mono fun _ _ h => rolls_of_eq h.activeRequests

/-- Who has joined was active at some moment. -/
theorem mem_joined (hactive : s.activeRequests = []) :
    r ∈ joined d s schedule ↔ ∃ first, first <+: schedule ∧
      r ∈ ((System.initial s).run (code d) first).state.activeRequests := by
  induction schedule using List.reverseRecOn with
  | nil =>
      constructor
      · intro h
        cases h
      · rintro ⟨first, hfirst, hr⟩
        obtain rfl := List.prefix_nil.mp hfirst
        have hr : r ∈ s.activeRequests := hr
        rw [hactive] at hr
        cases hr
  | append_singleton rest e ih =>
      rw [joined_concat, List.mem_append]
      constructor
      · rintro (hr | hr)
        · obtain ⟨first, hfirst, hr⟩ := ih.mp hr
          exact ⟨first, hfirst.trans (List.prefix_append _ _), hr⟩
        · refine ⟨rest ++ [e], List.prefix_rfl, ?_⟩
          rw [Pool.run_concat]
          exact List.mem_of_mem_drop hr
      · rintro ⟨first, hfirst, hr⟩
        rcases List.prefix_concat_iff.mp hfirst with rfl | hfirst
        · rw [Pool.run_concat] at hr
          have hthread := Pool.run_threads_always (t := e.1) (code_rolls d e.1)
            (w := System.initial s) (Always.ret _) rest
          have hearlier : r ∈ ((System.initial s).run (code d) rest).state.activeRequests →
              r ∈ joined d s rest := fun hr => ih.mpr ⟨rest, List.prefix_rfl, hr⟩
          rcases Pool.step_always hthread e.2 with hsame | hsubset | ⟨q, hjoins⟩
          · rw [hsame] at hr
            exact Or.inl (hearlier hr)
          · exact Or.inl (hearlier (hsubset hr))
          · rw [hjoins] at hr
            rcases List.mem_append.mp hr with hr | hr
            · exact Or.inl (hearlier hr)
            · refine Or.inr ?_
              unfold joins
              rw [hjoins, List.drop_left]
              exact hr
        · exact Or.inl (ih.mpr ⟨first, hfirst, hr⟩)

/-- **The gauge.**  At the head of the decode loop the gauge shows the number of
active requests if and only if every request that was taken off the queue has
joined the active list. -/
theorem gauge_truthful_iff (d : SchedulerSetup) (a : A) (g : Option GPURouter)
    {requests : RequestPtr → Request} (h : Fresh requests)
    (schedule : List (ThreadId × Answer)) :
    let run := fun first => ((System.initial (create a g requests)).run (code d) first)
    AtHead (run schedule) →
      ((run schedule).state.requestsActive = (run schedule).state.activeRequests.length ↔
        ∀ r ∈ (run schedule).state.dequeued,
          ∃ first, first <+: schedule ∧ r ∈ (run first).state.activeRequests) := by
  intro run hhead
  obtain ⟨hgauge, hcount⟩ := gauge_joined (s := create a g requests) rfl rfl hhead
  have hbetween : Life.Between d.config.maxActiveRequests [] (run schedule).state.life :=
    (life_sound (a := a) (g := g) d h schedule).at_point hhead
  have hcounts : (run schedule).state.completedCount + (run schedule).state.erroredCount +
      (run schedule).state.activeRequests.length = (run schedule).state.dequeued.length :=
    hbetween.book.count_none
  have hnodup : (run schedule).state.dequeued.Nodup := by
    have hpushed := hbetween.inv.pushed_nodup
    rw [hbetween.inv.fifo] at hpushed
    exact hpushed.of_append_left
  have hsub : (joined d (create a g requests) schedule).Subperm (run schedule).state.dequeued :=
    List.subperm_ext_iff.mpr fun r _ => hcount r
  have hlength := hsub.length_le
  -- the gauge is short by the requests that were dequeued and have not joined
  have hshort : (run schedule).state.requestsActive = (run schedule).state.activeRequests.length ↔
      (run schedule).state.dequeued.length ≤ (joined d (create a g requests) schedule).length := by
    have hopened : (run schedule).state.requestsActive + (run schedule).state.completedCount +
        (run schedule).state.erroredCount = (joined d (create a g requests) schedule).length := hgauge
    omega
  rw [hshort]
  constructor
  · intro hle r hr
    have hjoined := (hsub.perm_of_length_le hle).mem_iff.mpr hr
    exact (mem_joined rfl).mp hjoined
  · intro hall
    refine (List.subperm_of_subset hnodup fun r hr => ?_).length_le
    exact (mem_joined rfl).mpr (hall r hr)

end Runs

/-- The first request is submitted at time zero, then the decode thread makes
`n` moves at time `now`. -/
def clocked (n now : Nat) : List (ThreadId × Answer) :=
  moves 9 (.submit 0) {} ++ moves n .decode { now := now }

/-- The run of a short request under a schedule with clock readings. -/
def clockedRun (schedule : List (ThreadId × Answer)) : System ContiguousKVAllocator :=
  (System.initial (create sampleContiguous none (numbered shortRequest))).run (code sampleSetup)
    schedule

/-- The request was served. -/
theorem gauge_truthful_iff_sample :
    (clockedRun (clocked 34 0)).state.requestsActive =
        (clockedRun (clocked 34 0)).state.activeRequests.length ↔
      ∀ r ∈ (clockedRun (clocked 34 0)).state.dequeued,
        ∃ first, first <+: clocked 34 0 ∧ r ∈ (clockedRun first).state.activeRequests := by
  have hfresh : Fresh (numbered shortRequest) := numbered_fresh rfl
  have hhead : AtHead (clockedRun (clocked 34 0)) := by decide +kernel
  exact gauge_truthful_iff sampleSetup sampleContiguous none hfresh (clocked 34 0) hhead

/-- The request waits in the queue for more than a minute: the gauge goes to
minus one, with no request active. -/
theorem gauge_below_zero :
    Fresh (numbered shortRequest) ∧ AtHead (clockedRun (clocked 18 61000000000)) ∧
      (clockedRun (clocked 18 61000000000)).state.requestsActive = -1 ∧
      (clockedRun (clocked 18 61000000000)).state.activeRequests = [] ∧
      (clockedRun (clocked 18 61000000000)).state.requestsActive ≠
        (clockedRun (clocked 18 61000000000)).state.activeRequests.length := by
  have hrun : AtHead (clockedRun (clocked 18 61000000000)) ∧
      (clockedRun (clocked 18 61000000000)).state.requestsActive = -1 ∧
      (clockedRun (clocked 18 61000000000)).state.activeRequests = [] ∧
      (clockedRun (clocked 18 61000000000)).state.requestsActive ≠
        (clockedRun (clocked 18 61000000000)).state.activeRequests.length := by
    decide +kernel
  exact ⟨numbered_fresh rfl, hrun⟩

end Scheduler

end Qwen
