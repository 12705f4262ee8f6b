import Mathlib.Data.List.Perm.Subperm
import WinInference.Scheduler.Load
import WinInference.Scheduler.Outcome
import WinInference.Scheduler.Shutdown

/-!
# The scheduler gets its work done

While nothing new is pushed, the decode thread settles every request it was
given, if it gets to move often enough.  Every body of its loop brings it nearer
to an empty scheduler, in terms of the load.

Failing kernels, full token queues and clocks that stand still do not matter
here: a request that is not failed or cancelled runs into its token limit.

`distance` is the number of bodies that are left, and `distance_le` bounds it by
the load.  `dequeue_taken`, `start_lowers` and `decodeEach_lowers` are the
bodies that bring it down, the lemmas `f_within` bound the steps of one body,
and `drain_ranked` is the ranking that `Progress` asks for.
-/

namespace Qwen

open Concurrency Concurrency.Program

namespace Scheduler

variable {A : Type}

/-! ## The loop -/

/-- What is left to do before the scheduler is empty, in bodies of the decode
thread. -/
def cost (s : Scheduler A) : Point → Nat
  | .start => s.load + 4
  | .processQueue => s.load + 3
  | .copyActive => if s.activeRequests = [] then s.load + 5 else s.load + 2
  | .decodeEach rest => s.load + 5 - 4 * rest.length
  | .join | .returned _ => 0

instance (s : Scheduler A) : Decidable s.Drained := inferInstanceAs (Decidable (_ ∧ _))

/-- How far the decode thread is from an empty scheduler. -/
def distance (s : Scheduler A) (l : Point) : Nat := if s.Drained then 0 else s.cost l

section Loop

variable {maxActive m : Nat} {requests : RequestPtr → Request} {arrived : List RequestPtr}
  {s s' : Scheduler A} {l : Point}

/-- The distance is bounded when the cost of an undrained server is. -/
theorem distance_le_iff : s.distance l ≤ m ↔ (¬ s.Drained → s.cost l ≤ m) := by
  unfold distance
  by_cases hdrained : s.Drained <;> simp [hdrained]

/-- A server with a queued request is not drained. -/
theorem not_drained_of_pending {r : RequestPtr} (h : r ∈ s.pendingQueue) : ¬ s.Drained := by
  intro hdrained
  rw [hdrained.1] at h
  cases h

/-- A server with an active request is not drained. -/
theorem not_drained_of_active {r : RequestPtr} (h : r ∈ s.activeRequests) : ¬ s.Drained := by
  intro hdrained
  rw [hdrained.2] at h
  cases h

/-- The distance depends on the lists and the load alone. -/
theorem distance_congr (hpending : s'.pendingQueue = s.pendingQueue)
    (hactive : s'.activeRequests = s.activeRequests) (hload : s'.load = s.load) (l : Point) :
    s'.distance l = s.distance l := by
  have hdrained : s'.Drained ↔ s.Drained := by rw [Drained, Drained, hpending, hactive]
  have hcost : s'.cost l = s.cost l := by cases l <;> simp only [cost, hactive, hload]
  simp only [distance, hdrained, hcost]

/-- Whatever another thread does once admissions have ceased, the distance does not grow. -/
theorem distance_of_rely (hs : Ceased maxActive requests arrived s)
    (hrely : (drainContract maxActive).rely s s') (hs' : Ceased maxActive requests arrived s')
    (l : Point) : s'.distance l = s.distance l := by
  obtain ⟨hpending, hactive, hwork⟩ := work_of_rely hs hrely hs'
  refine distance_congr hpending hactive (load_congr hpending hactive fun q hq => ?_) l
  exact (hwork q (hs.listed hq)).2

/-- Where the decode thread stands, and how far it is. -/
def Facing (maxActive m : Nat) (l : Point) (s : Scheduler A) : Prop :=
  decodePoint maxActive l s.life ∧ s.distance l ≤ m + 1

/-- What the decode thread knows of its distance survives the moves of the others. -/
theorem lasts_facing :
    Lasts (drainContract maxActive) (Ceased maxActive requests arrived)
      (Facing (A := A) maxActive m l) := by
  intro s s' hs hK hrely hK'
  refine ⟨(decodePoint_lasting l).stable s s' hs.1 hrely.1 trivial, ?_⟩
  rw [distance_of_rely hK hrely hK' l]
  exact hs.2

/-- After a look at the queue: there was nothing to take or no room, or there
is a request to start. -/
def Taken (arrived : List RequestPtr) (m : Nat) : Option RequestPtr → Scheduler A → Prop
  | none, s => s.distance .copyActive ≤ m
  | some r, s => (r ∈ arrived ∧ 3 ≤ m) ∧ Due r (m - 3) s

/-- With room in the batch, taking a request off the queue brings the server nearer. -/
theorem dequeue_taken (hroom : 1 ≤ maxActive) (hs : Facing maxActive m .processQueue s)
    (hK : Ceased maxActive requests arrived s) :
    Taken arrived m (s.dequeue maxActive).1 (s.dequeue maxActive).2 := by
  obtain ⟨hbetween, hnear⟩ := hs
  rw [distance_le_iff] at hnear
  obtain heq | ⟨r, rest, hpend, -, heq⟩ := dequeue_cases s maxActive
  · rw [heq]
    refine distance_le_iff.mpr fun hdrained => ?_
    have hbusy : s.activeRequests ≠ [] := by
      intro hnone
      cases hpend : s.pendingQueue with
      | nil => exact hdrained ⟨hpend, hnone⟩
      | cons r rest =>
          have hsome : ¬ maxActive = 0 := by omega
          simp [dequeue, hpend, hnone, hsome] at heq
    have hcost := hnear hdrained
    simp only [cost, if_neg hbusy] at hcost ⊢
    omega
  · rw [heq]
    have hmem : r ∈ s.pendingQueue := by simp [hpend]
    have hload : s.load = 5 * (s.requests r).turnsLeft + 1 +
        ({ s with pendingQueue := rest }.log (.dequeued r)).load := by
      simp [load, hpend, log, Nat.add_assoc]
    have hgoing : (s.requests r).isTerminal = false := by
      have hstate : (s.requests r).state = .queued := (hbetween.book.waiting r hmem).1
      simp [Request.isTerminal, hstate, RequestState.isTerminal]
    have hcost := hnear (not_drained_of_pending hmem)
    simp only [cost] at hcost
    refine ⟨⟨hK.listed (Or.inl hmem), by omega⟩, hgoing, ?_⟩
    dsimp only [requests_log]
    omega

variable [IKVCacheAllocator A]

/-- The head of the loop looks at the flag. -/
theorem start_lowers (d : SchedulerSetup) :
    Drains maxActive requests arrived (Facing maxActive m .start)
      (decodeLoop d .start : Sched A Point) (fun l s => s.distance l ≤ m) := by
  refine Triple.bind (lasts_facing.atomic (R := fun _ s => s.distance .processQueue ≤ m)
    fun i s hs _ _ => ?_) fun running => ?_
  · refine (distance_congr (s := s) rfl rfl rfl .processQueue).trans_le ?_
    refine distance_le_iff.mpr fun hdrained => ?_
    have hcost := distance_le_iff.mp hs.2 hdrained
    simp only [cost] at hcost ⊢
    omega
  · cases running with
    | true => exact Triple.ret fun _ hs => hs
    | false => exact Triple.ret fun _ hs => ⟨distance_le_iff.mpr fun _ => Nat.zero_le _, hs.2⟩

/-- Taking a request off the queue and starting it. -/
theorem processQueue_lowers (d : SchedulerSetup) (hroom : 1 ≤ d.config.maxActiveRequests) :
    Drains d.config.maxActiveRequests requests arrived
      (Facing d.config.maxActiveRequests m .processQueue)
      (decodeLoop d .processQueue : Sched A Point) (fun l s => s.distance l ≤ m) := by
  refine Triple.bind (lasts_facing.atomic (R := Taken arrived m)
    fun i s hs hK _ => dequeue_taken hroom hs hK) fun next => ?_
  cases next with
  | none => exact Triple.ret fun _ hs => hs
  | some r =>
      intro s hs
      obtain ⟨⟨⟨hr, hm⟩, hdue⟩, hK⟩ := hs
      have hstart : Drains d.config.maxActiveRequests requests arrived (Due r (m - 3))
          (startRequest d r : Sched A Unit) (fun _ => Low (m - 3)) := startRequest_drains d hr
      refine (hstart.bind fun _ => Triple.ret fun s' hs' => ⟨?_, hs'.2⟩) s ⟨hdue, hK⟩
      have hlow : s'.load ≤ m - 3 := hs'.1
      refine distance_le_iff.mpr fun _ => ?_
      simp only [cost]
      omega

/-- A look at the active list. -/
theorem copyActive_lowers (d : SchedulerSetup) :
    Drains maxActive requests arrived (Facing maxActive m .copyActive)
      (decodeLoop d .copyActive : Sched A Point) (fun l s => s.distance l ≤ m) := by
  refine Triple.bind (lasts_facing.atomic (R := fun active s =>
    active = s.activeRequests ∧ s.distance .copyActive ≤ m + 1)
    fun i s hs _ _ => ⟨rfl, hs.2⟩) fun active => ?_
  by_cases hnone : active.isEmpty
  · rw [if_pos hnone]
    refine Triple.ret fun s hs => ⟨distance_le_iff.mpr fun hdrained => ?_, hs.2⟩
    obtain ⟨⟨rfl, hnear⟩, -⟩ := hs
    have hcost := distance_le_iff.mp hnear hdrained
    simp only [cost, if_pos (List.isEmpty_iff.mp hnone)] at hcost ⊢
    omega
  · rw [if_neg hnone]
    refine Triple.ret fun s hs => ⟨distance_le_iff.mpr fun hdrained => ?_, hs.2⟩
    obtain ⟨⟨rfl, hnear⟩, -⟩ := hs
    have hbusy : s.activeRequests ≠ [] := fun h => hnone (by simp [h])
    have hpos := List.length_pos_iff.mpr hbusy
    have hcost := distance_le_iff.mp hnear hdrained
    simp only [cost, if_neg hbusy] at hcost ⊢
    omega

omit [IKVCacheAllocator A] in
/-- Every request of the round is still worth a round. -/
theorem round_le_load {rest : List RequestPtr} (hbetween : Life.Between maxActive rest s.life)
    (hrest : rest.Nodup) : 5 * rest.length ≤ s.load := by
  have hworth : ∀ q ∈ s.activeRequests, 5 ≤ 5 * (s.requests q).turnsLeft := by
    intro q hq
    have hstate : (s.requests q).state = .decoding := (hbetween.book.running q hq (by simp)).1
    have hgoing : (s.requests q).isTerminal = false := by
      simp [Request.isTerminal, hstate, RequestState.isTerminal]
    rw [Request.turnsLeft_going hgoing]
    omega
  have hlength : rest.length ≤ s.activeRequests.length :=
    (hrest.subperm hbetween.rest_active).length_le
  have hsum : (s.activeRequests.map fun _ => 5).sum ≤
      (s.activeRequests.map fun q => 5 * (s.requests q).turnsLeft).sum :=
    List.sum_le_sum hworth
  rw [List.map_const', List.sum_replicate_nat] at hsum
  unfold load
  omega

/-- A round for the next request of the list. -/
theorem decodeEach_lowers (d : SchedulerSetup) (rest : List RequestPtr) :
    Drains maxActive requests arrived (Facing maxActive m (.decodeEach rest))
      (decodeLoop d (.decodeEach rest) : Sched A Point) (fun l s => s.distance l ≤ m) := by
  cases rest with
  | nil =>
      refine Triple.ret fun s hs => ⟨distance_le_iff.mpr fun hdrained => ?_, hs.2⟩
      have hcost := distance_le_iff.mp hs.1.2 hdrained
      simp only [cost, List.length_nil] at hcost ⊢
      omega
  | cons r rest =>
      intro s hs
      obtain ⟨⟨⟨hbetween, hnodup⟩, hnear⟩, hK⟩ := hs
      have hactive : r ∈ s.activeRequests := hbetween.rest_active r List.mem_cons_self
      have hload := round_le_load hbetween hnodup
      have hcost := distance_le_iff.mp hnear (not_drained_of_active hactive)
      rw [List.length_cons] at hload
      simp only [cost, List.length_cons] at hcost
      have hserved : Served r (m + 4 * rest.length - 5) s := by
        have hstate : (s.requests r).state = .decoding :=
          (hbetween.book.running r hactive (by simp)).1
        refine ⟨hactive, by simp [Request.isTerminal, hstate, RequestState.isTerminal], ?_⟩
        omega
      have hround : Drains maxActive requests arrived (Served r (m + 4 * rest.length - 5))
          (decodeRequest d r : Sched A Unit) (fun _ => Low (m + 4 * rest.length - 5)) :=
        decodeRequest_drains d (hK.listed (Or.inr hactive))
      refine (hround.bind fun _ => Triple.ret fun s' hs' => ⟨?_, hs'.2⟩) s ⟨hserved, hK⟩
      have hlow : s'.load ≤ m + 4 * rest.length - 5 := hs'.1
      refine distance_le_iff.mpr fun _ => ?_
      simp only [cost]
      omega

end Loop

/-! ## How long the bodies are -/

section Length

variable {r : RequestPtr}

/-- Setting the state takes one step. -/
theorem setState_within (st : RequestState) : (setState r st : Sched A Unit).Within 1 :=
  Within.update _

/-- Appending a token takes at most four steps. -/
theorem appendToken_within (d : SchedulerSetup) (token : Int) :
    (appendToken d r token : Sched A Bool).Within 4 := by
  refine Within.bind (Within.update _) (by decide) fun _ => ?_
  refine Within.bind (Within.update _) (by decide) fun _ => ?_
  refine Within.bind (Within.update _) (by decide) fun _ => ?_
  exact Within.atomic _

/-- One decode step takes at most eight steps. -/
theorem runDecodeStep_within (d : SchedulerSetup) :
    (runDecodeStep d r : Sched A (Result Bool)).Within 8 := by
  have hnext : (nextLogits r : Sched A (Result Logits)).Within 2 := by
    refine Within.bind (Within.read _) (by decide) fun first => ?_
    cases first with
    | true => exact Within.atomic _
    | false => exact Within.atomic _
  refine Within.bind (Within.read _) (by decide) fun cancelled => ?_
  cases cancelled with
  | true => exact Within.ret _ _
  | false =>
      refine Within.bind hnext (by decide) fun logits => ?_
      cases logits with
      | error e => exact Within.ret _ _
      | ok _ =>
          refine Within.bind (Within.atomic _) (by decide) fun sampled => ?_
          cases sampled with
          | error e => exact Within.ret _ _
          | ok token =>
              exact Within.bind (appendToken_within d token) (by decide) fun _ => Within.ret _ _

variable [IKVCacheAllocator A]

/-- Freeing a request's resources takes at most two steps. -/
theorem freeResources_within : (freeResources r : Sched A Unit).Within 2 := by
  refine Within.bind (Within.atomic _) (by decide) fun valid => ?_
  cases valid with
  | true => exact Within.update _
  | false => exact Within.ret _ _

/-- Ending a request takes at most seven steps. -/
theorem retire_within (event : TokenEvent) : (retire r event : Sched A Unit).Within 7 := by
  refine Within.bind (Within.update _) (by decide) fun _ => ?_
  refine Within.bind (Within.update _) (by decide) fun _ => ?_
  refine Within.bind freeResources_within (by decide) fun _ => ?_
  refine Within.bind (Within.update _) (by decide) fun _ => ?_
  refine Within.bind (Within.update _) (by decide) fun _ => ?_
  exact Within.update _

/-- Completing a request takes at most ten steps. -/
theorem completeRequest_within (reason : FinishReason) :
    (completeRequest r reason : Sched A Unit).Within 10 := by
  refine Within.bind (Within.update _) (by decide) fun _ => ?_
  refine Within.bind (setState_within _) (by decide) fun _ => ?_
  refine Within.bind (retire_within _) (by decide) fun _ => ?_
  exact Within.update _

/-- Failing a request takes at most ten steps. -/
theorem failRequest_within (error : Error) :
    (failRequest r error : Sched A Unit).Within 10 := by
  refine Within.bind (Within.update _) (by decide) fun _ => ?_
  refine Within.bind (setState_within _) (by decide) fun _ => ?_
  refine Within.bind (retire_within _) (by decide) fun _ => ?_
  exact Within.update _

/-- Reserving and allocating for a request takes at most four steps. -/
theorem place_within : (place r : Sched A (Result Unit)).Within 4 := by
  refine Within.bind (Within.atomic _) (by decide) fun decision => ?_
  refine Within.bind (Within.update _) (by decide) fun _ => ?_
  refine Within.bind (Within.atomic _) (by decide) fun placed => ?_
  cases placed with
  | error e => exact Within.bind (Within.update _) (by decide) fun _ => Within.ret _ _
  | ok _ => exact Within.bind (Within.update _) (by decide) fun _ => Within.ret _ _

/-- The prefill takes at most ten steps. -/
theorem runPrefill_within : (runPrefill r : Sched A (Result Unit)).Within 10 := by
  refine Within.bind (setState_within _) (by decide) fun _ => ?_
  refine Within.bind (Within.update _) (by decide) fun _ => ?_
  refine Within.bind place_within (by decide) fun placed => ?_
  cases placed with
  | error e => exact Within.bind (Within.update _) (by decide) fun _ => Within.ret _ _
  | ok _ =>
      refine Within.bind (Within.atomic _) (by decide) fun prefilled => ?_
      cases prefilled with
      | error e =>
          refine Within.bind freeResources_within (by decide) fun _ => ?_
          exact Within.bind (Within.update _) (by decide) fun _ => Within.ret _ _
      | ok logits => exact Within.bind (Within.update _) (by decide) fun _ => Within.ret _ _

/-- Starting a dequeued request takes at most twenty-two steps. -/
theorem startRequest_within (d : SchedulerSetup) : (startRequest d r : Sched A Unit).Within 22 := by
  have hfail : ∀ {e n}, 10 ≤ n → (failRequest r e : Sched A Unit).Within n :=
    fun hle => (failRequest_within _).mono hle
  refine Within.bind (Within.atomic _) (by decide) fun queueTimedOut => ?_
  cases queueTimedOut with
  | true => exact hfail (by decide)
  | false =>
      refine Within.bind (Within.atomic _) (by decide) fun requestTimedOut => ?_
      cases requestTimedOut with
      | true => exact hfail (by decide)
      | false =>
          refine Within.bind runPrefill_within (by decide) fun result => ?_
          cases result with
          | error e => exact hfail (by decide)
          | ok _ =>
              refine Within.bind (setState_within _) (by decide) fun _ => ?_
              refine Within.bind (Within.atomic _) (by decide) fun _ => ?_
              exact (Within.update _).mono (by decide)

/-- The pass over one active request takes at most twenty-two steps. -/
theorem decodeRequest_within (d : SchedulerSetup) :
    (decodeRequest d r : Sched A Unit).Within 22 := by
  have hfail : ∀ {e n}, 10 ≤ n → (failRequest r e : Sched A Unit).Within n :=
    fun hle => (failRequest_within _).mono hle
  refine Within.bind (Within.read _) (by decide) fun cancelled => ?_
  cases cancelled with
  | true => exact (completeRequest_within .stop).mono (by decide)
  | false =>
      refine Within.bind (Within.atomic _) (by decide) fun requestTimedOut => ?_
      cases requestTimedOut with
      | true => exact hfail (by decide)
      | false =>
          refine Within.bind (Within.atomic _) (by decide) fun decodeTimedOut => ?_
          cases decodeTimedOut with
          | true => exact hfail (by decide)
          | false =>
              refine Within.bind (runDecodeStep_within d) (by decide) fun result => ?_
              cases result with
              | error e => exact hfail (by decide)
              | ok goesOn =>
                  cases goesOn with
                  | true => exact Within.ret _ _
                  | false =>
                      refine Within.bind (Within.read _) (by decide) fun reason => ?_
                      exact completeRequest_within reason

/-- No body of the decode thread takes more than 23 actions. -/
theorem decodeLoop_within (d : SchedulerSetup) (l : Point) :
    (decodeLoop d l : Sched A Point).Within 23 := by
  cases l with
  | start =>
      refine Within.bind (Within.atomic _) (by decide) fun running => ?_
      cases running <;> exact Within.ret _ _
  | processQueue =>
      refine Within.bind (Within.atomic _) (by decide) fun next => ?_
      cases next with
      | none => exact Within.ret _ _
      | some r =>
          exact Within.bind (startRequest_within d) (by decide) fun _ => Within.ret _ _
  | copyActive =>
      refine Within.bind (Within.read _) (by decide) fun active => ?_
      by_cases hnone : active.isEmpty
      · rw [if_pos hnone]
        exact Within.ret _ _
      · rw [if_neg hnone]
        exact Within.ret _ _
  | decodeEach rest =>
      cases rest with
      | nil => exact Within.ret _ _
      | cons r rest =>
          exact Within.bind (decodeRequest_within d) (by decide) fun _ => Within.ret _ _
  | join | returned => exact Within.ret _ _

end Length

/-! ## Every run -/

/-- The contracts of the lifecycle, and the decode thread alone with the
tokens. -/
def drainContracts (maxActive : Nat) (t : ThreadId) : Contract (Scheduler A) :=
  (lifeContract maxActive t).and (loneContracts .decode tokenContract t)

/-- The decode thread is never where `stop` waits. -/
def drainPoint (maxActive : Nat) (t : ThreadId) (l : Point) (s : Scheduler A) : Prop :=
  lifePoint maxActive t l s ∧ lonePoint .decode (fun l _ => l ≠ .join) t l s

/-- The moves of the decode thread that are enough for what has arrived. -/
def drainMoves (requests : RequestPtr → Request) (arrived : List RequestPtr) : Nat :=
  ((arrived.map fun r => 5 * ((requests r).maxTokens.toNat + 1) + 1).sum + 6) * 24

section Runs

variable {maxActive : Nat} {requests : RequestPtr → Request} {arrived : List RequestPtr}
  {s : Scheduler A}

/-- The decode thread's contract is the one of the drain. -/
theorem drainContracts_decode :
    drainContracts (A := A) maxActive .decode = drainContract maxActive := by
  simp [drainContracts, drainContract, lifeContract, loneContracts]

/-- What is left to do is bounded by what has arrived. -/
theorem distance_le (hK : Ceased maxActive requests arrived s) (l : Point) :
    s.distance l ≤
      (arrived.map fun r => 5 * ((requests r).maxTokens.toNat + 1) + 1).sum + 5 := by
  have hturns : ∀ q, 5 * (s.requests q).turnsLeft ≤ 5 * ((requests q).maxTokens.toNat + 1) := by
    intro q
    have hmax := hK.maxTokens q
    unfold Request.turnsLeft
    split <;> omega
  have hnodup : (s.pendingQueue ++ s.activeRequests).Nodup := by
    have hpushed : s.pushed.Nodup := hK.inv.pushed_nodup
    have hfifo : s.pushed = s.dequeued ++ s.pendingQueue := hK.inv.fifo
    rw [hfifo] at hpushed
    refine hpushed.of_append_right.append hK.inv.active_nodup fun q hq hactive => ?_
    exact hK.inv.not_active_of_pending hq hactive
  have hsub : (s.pendingQueue ++ s.activeRequests).Subperm arrived := by
    refine hnodup.subperm fun q hq => ?_
    exact hK.listed (List.mem_append.mp hq)
  have hload : s.load ≤ ((s.pendingQueue ++ s.activeRequests).map fun q =>
      5 * ((requests q).maxTokens.toNat + 1) + 1).sum := by
    have hqueue : (s.pendingQueue.map fun q => 5 * (s.requests q).turnsLeft + 1).sum ≤
        (s.pendingQueue.map fun q => 5 * ((requests q).maxTokens.toNat + 1) + 1).sum :=
      List.sum_le_sum fun q _ => Nat.succ_le_succ (hturns q)
    have hrounds : (s.activeRequests.map fun q => 5 * (s.requests q).turnsLeft).sum ≤
        (s.activeRequests.map fun q => 5 * ((requests q).maxTokens.toNat + 1) + 1).sum :=
      List.sum_le_sum fun q _ => Nat.le_succ_of_le (hturns q)
    rw [List.map_append, List.sum_append]
    unfold load
    omega
  obtain ⟨part, hperm, hpart⟩ := hsub
  have hsum : ((s.pendingQueue ++ s.activeRequests).map fun q =>
      5 * ((requests q).maxTokens.toNat + 1) + 1).sum ≤
        (arrived.map fun q => 5 * ((requests q).maxTokens.toNat + 1) + 1).sum := by
    rw [← (hperm.map _).sum_eq]
    exact (hpart.map _).sum_le_sum fun _ _ => Nat.zero_le _
  refine distance_le_iff.mpr fun _ => ?_
  cases l with
  | start | processQueue | decodeEach | join | returned =>
      simp only [cost]
      omega
  | copyActive =>
      simp only [cost]
      split <;> omega

variable [IKVCacheAllocator A]

/-- The decode thread names only its own control points. -/
theorem decodeLoop_point (d : SchedulerSetup) {l : Point} (hl : l ≠ .join) :
    Triple tokenContract (fun _ => True) (decodeLoop d l : Sched A Point)
      (fun l _ => l ≠ .join) := by
  have hany : ∀ {α : Type} (p : Sched A α),
      Triple tokenContract (fun _ => True) p (fun _ _ => True) :=
    fun p => Triple.unpromised (fun _ _ => trivial) p
  cases l with
  | start =>
      refine Triple.bind (hany _) fun running => ?_
      cases running <;> exact Triple.ret fun _ _ => by simp
  | processQueue =>
      refine Triple.bind (hany _) fun next => ?_
      cases next with
      | none => exact Triple.ret fun _ _ => by simp
      | some r => exact Triple.bind (hany _) fun _ => Triple.ret fun _ _ => by simp
  | copyActive =>
      refine Triple.bind (hany _) fun active => ?_
      by_cases hnone : active.isEmpty
      · rw [if_pos hnone]
        exact Triple.ret fun _ _ => by simp
      · rw [if_neg hnone]
        exact Triple.ret fun _ _ => by simp
  | decodeEach rest =>
      cases rest with
      | nil => exact Triple.ret fun _ _ => by simp
      | cons r rest => exact Triple.bind (hany _) fun _ => Triple.ret fun _ _ => by simp
  | join => exact absurd rfl hl
  | returned => exact Triple.ret fun _ _ => by simp

/-- Every thread keeps what the other threads rely on. -/
theorem drain_compatible (d : SchedulerSetup) :
    Compatible (code (A := A) d) (drainContracts d.config.maxActiveRequests)
      (drainPoint d.config.maxActiveRequests) := by
  have hlone : Compatible (code (A := A) d) (loneContracts .decode tokenContract)
      (lonePoint .decode (fun l _ => l ≠ .join)) := by
    refine Compatible.lone (fun t ht l => ?_) (fun _ _ _ hs _ _ => hs) fun l => ?_
    · exact others_always http_tokens d ht (fun r _ => submit_tokens r)
        (fun _ _ => keeps_of_requests rfl) l
    · exact fun s hl => decodeLoop_point d hl s trivial
  refine (life_compatible d).and (fun htu _ _ _ h => hlone.allows htu h) hlone.stable
    fun t l => ?_
  exact (hlone.body t l).conseq (fun _ hs => hs.2) fun _ _ hs _ => hs

omit [IKVCacheAllocator A] in
/-- The contracts know nothing more than the state they are stated in. -/
theorem drain_known (s : Scheduler A) : Known (drainContracts maxActive) s := by
  intro t
  refine ⟨by cases t <;> trivial, ?_⟩
  by_cases ht : t = .decode <;> simp [loneContracts, ht, tokenContract, Contract.bystander]

/-- In every run, each thread is inside its outline for the drain. -/
theorem drain_sound (d : SchedulerSetup) {a : A} {g : Option GPURouter} (h : Fresh requests)
    (schedule : List (ThreadId × Answer)) :
    Sound (drainContracts d.config.maxActiveRequests) (drainPoint d.config.maxActiveRequests)
      ((System.initial (create a g requests)).run (code d) schedule) := by
  refine Pool.run_sound (drain_compatible d) (fun t => ?_) schedule fun _ _ => drain_known _
  exact ⟨(life_sound (a := a) (g := g) d h []).at_point (t := t) rfl, fun _ => by simp⟩

omit [IKVCacheAllocator A] in
/-- There is nothing left to do, or the thread has returned. -/
theorem distance_zero {l : Point} (hpoint : drainPoint maxActive .decode l s)
    (hzero : s.distance l = 0) : s.Drained ∨ ∃ result, l = .returned result := by
  by_cases hdrained : s.Drained
  · exact Or.inl hdrained
  have hcost := distance_le_iff.mp hzero.le hdrained
  cases l with
  | start | processQueue =>
      simp only [cost] at hcost
      omega
  | copyActive =>
      simp only [cost] at hcost
      split at hcost <;> omega
  | decodeEach rest =>
      have hload := round_le_load hpoint.1.1 hpoint.1.2
      simp only [cost] at hcost
      omega
  | join => exact absurd rfl (hpoint.2 rfl)
  | returned result => exact Or.inr ⟨result, rfl⟩

/-- **The decode thread makes progress.** -/
theorem drain_ranked (d : SchedulerSetup) (hroom : 1 ≤ d.config.maxActiveRequests) :
    Ranked (code (A := A) d) (drainContracts d.config.maxActiveRequests)
      (drainPoint d.config.maxActiveRequests) .decode
      (Ceased d.config.maxActiveRequests requests arrived) (fun l s => s.distance l) 23 where
  within := decodeLoop_within d
  steady := by
    intro l s s' _ hK hrely hK'
    rw [drainContracts_decode] at hrely
    exact (distance_of_rely hK hrely hK' l).le
  lowers := by
    intro l m
    rw [drainContracts_decode]
    have hbody : ∀ {l : Point}, Drains d.config.maxActiveRequests requests arrived
        (Facing d.config.maxActiveRequests m l) (decodeLoop d l : Sched A Point)
          (fun l s => s.distance l ≤ m) →
        Triple ((drainContract d.config.maxActiveRequests).observing
            (Ceased d.config.maxActiveRequests requests arrived))
          (fun s => (drainPoint d.config.maxActiveRequests .decode l s ∧ s.distance l ≤ m + 1) ∧
            Ceased d.config.maxActiveRequests requests arrived s)
          (code d .decode l) (fun l s => s.distance l ≤ m) :=
      fun h => h.conseq (fun _ hs => ⟨⟨hs.1.1.1, hs.1.2⟩, hs.2⟩) fun _ _ hs => hs.1
    cases l with
    | start => exact hbody (start_lowers d)
    | processQueue => exact hbody (processQueue_lowers d hroom)
    | copyActive => exact hbody (copyActive_lowers d)
    | decodeEach rest => exact hbody (decodeEach_lowers d rest)
    | join => exact fun s hs => absurd rfl (hs.1.1.2 rfl)
    | returned => exact Triple.ret fun s _ => distance_le_iff.mpr fun _ => Nat.zero_le _

end Runs

/-- A new request that the decode thread can serve up to its token limit.  It asks
for a token at least, its prompt and its tokens are counted by an `int32_t`, and
so are the bytes that its output text is given in advance: from 2^29 tokens on
the reserve would throw, on a thread that does not catch. -/
structure Servable (q : Request) : Prop where
  unstarted : Unstarted q
  one : 1 ≤ q.maxTokens
  fits : q.inputTokens.length + q.maxTokens < 2 ^ 31
  reservable : q.maxTokens < 2 ^ 29

/-- The reserve asks for what it means to ask for. -/
theorem Servable.reserveSize_eq {q : Request} (h : Servable q) :
    (reserveSize q : Int) = q.maxTokens * 4 := by
  have hone := h.one
  have hreservable := h.reservable
  have hint : toInt32 (q.maxTokens * 4) = q.maxTokens * 4 :=
    Wrapping.toSigned_of_range (by omega) (by omega)
  unfold reserveSize toSize Wrapping.ofInt
  rw [hint]
  omega

/-- Numbering a request does not change whether it can be served. -/
theorem numbered_servable {q : Request} (h : Servable q) (r : RequestPtr) :
    Servable (numbered q r) :=
  ⟨numbered_unstarted h.unstarted r, h.one, h.fits, h.reservable⟩

section Settles

variable [IKVCacheAllocator A] (d : SchedulerSetup) {a : A} {g : Option GPURouter}
  {requests : RequestPtr → Request} {r : RequestPtr}

/-- The requests that were pushed stay pushed. -/
theorem pushed_grows (h : Fresh requests) (before after : List (ThreadId × Answer)) :
    ((System.initial (create a g requests)).run (code d) before).state.pushed <+:
      ((System.initial (create a g requests)).run (code d) (before ++ after)).state.pushed := by
  induction after using List.reverseRecOn with
  | nil => simp
  | append_singleton rest e ih =>
      rw [← List.append_assoc, Pool.run_concat]
      refine ih.trans ?_
      have hsame : ∀ {l l' : List RequestPtr}, l' = l → l <+: l' :=
        fun heq => heq ▸ List.prefix_rfl
      obtain hquiet | hstep | ⟨r, hstep⟩ := life_step (a := a) (g := g) d h (before ++ rest) e.1 e.2
      · exact hsame (congrArg Life.pushed hquiet)
      · exact hsame hstep.pushed_eq
      · obtain ⟨new, -, hpushed, -⟩ := hstep.arrivals.arrived
        exact ⟨new, hpushed.symm⟩

/-- A terminal state is left by no thread. -/
theorem terminal_stays (h : Fresh requests) (before after : List (ThreadId × Answer))
    (hterminal : (((System.initial (create a g requests)).run (code d) before).state.requests
      r).isTerminal = true) :
    (((System.initial (create a g requests)).run (code d) (before ++ after)).state.requests
      r).isTerminal = true := by
  induction after using List.reverseRecOn with
  | nil =>
      rw [List.append_nil]
      exact hterminal
  | append_singleton rest e ih =>
      rw [← List.append_assoc, Pool.run_concat]
      have hlegal : ∀ {st st' : RequestState}, st.isTerminal = true → st' = st ∨ Legal st st' →
          st'.isTerminal = true := by
        rintro st st' hst (rfl | hlegal)
        · exact hst
        · cases hlegal <;> cases hst
      obtain hquiet | hstep | ⟨q, hstep⟩ := life_step (a := a) (g := g) d h (before ++ rest) e.1 e.2
      · exact hlegal ih (Or.inl (congrFun (congrArg Life.state hquiet) r))
      · exact hlegal ih (hstep.legal r)
      · exact hlegal ih (hstep.legal r)

variable [LawfulKVCacheAllocator A]

/-- What is known of every state of a run of requests with token limits. -/
theorem ceased_run (h : Fresh requests) (hservable : ∀ r, Servable (requests r))
    (schedule : List (ThreadId × Answer)) :
    Ceased d.config.maxActiveRequests requests
      ((System.initial (create a g requests)).run (code d) schedule).state.pushed
      ((System.initial (create a g requests)).run (code d) schedule).state := by
  have hconstant := constant_run d (create a g requests) schedule
  have hmax : ∀ q, (((System.initial (create a g requests)).run (code d) schedule).state.requests
      q).maxTokens = (requests q).maxTokens := fun q => congrArg (·.2.1) (hconstant.input q)
  refine ⟨life_inv d h schedule, rfl, fun q => ?_, hmax⟩
  rw [hmax]
  have hq := hservable q
  exact (limits_run d a g h hq.unstarted hq.one hq.fits schedule).1.tokens

/-- What becomes of a request that is off both lists: it is in a terminal state,
its queue is closed after a terminal event was offered to it, and its handle was
freed. -/
structure Discharged (requests : RequestPtr → Request) (r : RequestPtr) (s : Scheduler A) : Prop where
  terminal : (s.requests r).isTerminal = true
  queue : ∀ t, (requests r).tokenQueue = some t → Fed t.maxSize r .closed s
  handle : HandleFreed r s

omit [LawfulKVCacheAllocator A] in
/-- At a control point with empty lists every pushed request is settled. -/
theorem discharged_of_drained (h : Fresh requests) (hqueues : FreshQueues requests)
    {schedule : List (ThreadId × Answer)} {l : Point}
    (hl : ((System.initial (create a g requests)).run (code d) schedule).threads .decode = .ret l)
    (hdrained : ((System.initial (create a g requests)).run (code d) schedule).state.Drained)
    (hr : r ∈ ((System.initial (create a g requests)).run (code d) schedule).state.pushed) :
    Discharged requests r ((System.initial (create a g requests)).run (code d) schedule).state := by
  have hpoint := (life_sound (a := a) (g := g) d h schedule).at_point hl
  have hrest := release_point (a := a) (g := g) d h r schedule hl
  have hfeed : ∀ t, (requests r).tokenQueue = some t → FeedPoint t.maxSize r
      ((System.initial (create a g requests)).run (code d) schedule).state := fun t ht =>
    (feed_run (a := a) (g := g) d (ht.trans (congrArg some (hqueues r t ht))) schedule).1 l hl
  revert hpoint hrest hfeed hdrained hr
  generalize ((System.initial (create a g requests)).run (code d) schedule).state = s
  intro hdrained hr hpoint hrest hfeed
  have hbetween : ∃ rest, Life.Between d.config.maxActiveRequests rest s.life := by
    cases l with
    | decodeEach rest => exact ⟨rest, hpoint.1⟩
    | start | processQueue | copyActive | join | returned => exact ⟨[], hpoint⟩
  obtain ⟨rest, hbetween⟩ := hbetween
  have hfifo : s.pushed = s.dequeued ++ s.pendingQueue := hbetween.inv.fifo
  rw [hdrained.1, List.append_nil] at hfifo
  rw [hfifo] at hr
  have hgone : Gone r s := ⟨hr, by simp [hdrained.2]⟩
  have hbook := hbetween.book.gone r hr (by simp [life, hdrained.2]) (by simp)
  exact ⟨hbook.1, fun t ht => (hfeed t ht).gone hgone, (hrest.gone hgone.1 hgone.2).handle⟩

/-- **The queue is drained.**  While nothing new is pushed, whatever else the
other threads do, the moves of the decode thread that `drainMoves` counts bring
it to a moment with nothing queued, nothing active and every pushed request
settled, unless the thread exits; and no terminal state is left again. -/
theorem queue_drained (hroom : 1 ≤ d.config.maxActiveRequests) (h : Fresh requests)
    (hqueues : FreshQueues requests) (hservable : ∀ r, Servable (requests r))
    (before after : List (ThreadId × Answer))
    (hceased :
      ((System.initial (create a g requests)).run (code d) (before ++ after)).state.pushed =
        ((System.initial (create a g requests)).run (code d) before).state.pushed)
    (hmoves : drainMoves requests
        ((System.initial (create a g requests)).run (code d) before).state.pushed ≤
      after.countP (·.1 = .decode)) :
    let final := (System.initial (create a g requests)).run (code d) (before ++ after)
    final.state.decodeThreadExited = true ∨
      (∃ first, first <+: after ∧
        let w := (System.initial (create a g requests)).run (code d) (before ++ first)
        w.state.Drained ∧ ∀ r ∈ w.state.pushed, Discharged requests r w.state) ∧
      ∀ r ∈ final.state.pushed, (final.state.requests r).isTerminal = true := by
  intro final
  have hpushed : ∀ first, first <+: after →
      ((System.initial (create a g requests)).run (code d) (before ++ first)).state.pushed =
        ((System.initial (create a g requests)).run (code d) before).state.pushed := by
    rintro first ⟨rest, rfl⟩
    have hlow := pushed_grows (a := a) (g := g) d h before first
    have hhigh := pushed_grows (a := a) (g := g) d h (before ++ first) rest
    rw [List.append_assoc, hceased] at hhigh
    exact (hhigh.eq_of_length_le hlow.length_le)
  have hknown : ∀ first, first <+: after →
      Known (drainContracts d.config.maxActiveRequests)
          (((System.initial (create a g requests)).run (code d) before).run (code d) first).state ∧
        Ceased d.config.maxActiveRequests requests
          ((System.initial (create a g requests)).run (code d) before).state.pushed
          (((System.initial (create a g requests)).run (code d) before).run (code d)
            first).state := by
    intro first hfirst
    rw [← Pool.run_append]
    exact ⟨drain_known _, hpushed first hfirst ▸ ceased_run d h hservable _⟩
  have hcode : ∀ l, (code d .decode l : Sched A Point).Within 23 := decodeLoop_within d
  have hwithin : (((System.initial (create a g requests)).run (code d) before).threads
      .decode).Within 23 := Pool.run_within hcode (Within.ret _ _) before
  obtain ⟨first, hfirst, l, hl, hzero⟩ := (drain_ranked d hroom).progress (drain_compatible d)
    (fun l s _ hK => distance_le hK l) (drain_sound d h before) hwithin hknown hmoves
  rw [← Pool.run_append] at hl hzero
  have hpoint := (drain_sound (a := a) (g := g) d h (before ++ first)).at_point hl
  rcases distance_zero hpoint hzero with hdrained | ⟨result, rfl⟩
  · refine Or.inr ⟨⟨first, hfirst, hdrained, fun r hr =>
      discharged_of_drained d h hqueues hl hdrained hr⟩, fun r hr => ?_⟩
    obtain ⟨rest, rfl⟩ := hfirst
    have hsettled : r ∈ ((System.initial (create a g requests)).run (code d)
        (before ++ first)).state.pushed := by
      rw [hpushed first (List.prefix_append first rest), ← hceased]
      exact hr
    have hterminal := (discharged_of_drained d h hqueues hl hdrained hsettled).terminal
    have hstays := terminal_stays d h (before ++ first) rest hterminal
    rw [List.append_assoc] at hstays
    exact hstays
  · refine Or.inl (exited_stays d rfl ((List.prefix_append_right_inj before).mpr hfirst) ?_)
    exact (exit_sound d (s := create a g requests) rfl (before ++ first)).at_point hl rfl

end Settles

/-- The short request of the examples can be served. -/
theorem shortRequest_servable : Servable shortRequest :=
  ⟨shortRequest_unstarted, by decide, by decide, by decide⟩

/-- The first request is submitted, and the decode thread left alone with it. -/
theorem queue_drained_sample :
    ((alikeRun shortRequest (firstSubmitted 528 {})).state.requests 0).isTerminal = true := by
  have hlast : (alikeRun shortRequest (firstSubmitted 528 {})).state.decodeThreadExited = false ∧
      (alikeRun shortRequest (firstSubmitted 528 {})).state.pushed = [0] := by
    decide +kernel
  have hpushed : (alikeRun shortRequest (moves 9 (.submit 0) {})).state.pushed = [0] := by
    decide +kernel
  have hmoves : drainMoves (numbered shortRequest) [0] ≤
      (moves 528 .decode {}).countP (·.1 = .decode) := by
    decide +kernel
  unfold firstSubmitted at hlast ⊢
  unfold alikeRun at hlast hpushed ⊢
  generalize moves 528 .decode {} = after at hlast hmoves ⊢
  obtain hexited | ⟨-, hterminal⟩ := queue_drained (a := sampleContiguous)
    (g := some (sampleRouter 20000)) sampleSetup (by decide) (numbered_fresh rfl)
    (fun r t ht => by cases ht) (numbered_servable shortRequest_servable)
    (moves 9 (.submit 0) {}) after (by rw [hlast.2, hpushed]) (by rw [hpushed]; exact hmoves)
  · rw [hlast.1] at hexited
    cases hexited
  · exact hterminal 0 (by rw [hlast.2]; exact List.mem_singleton_self 0)

end Scheduler

end Qwen
