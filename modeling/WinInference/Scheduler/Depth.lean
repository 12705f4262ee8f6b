import Mathlib.Data.BitVec
import Mathlib.Data.Finset.Dedup
import WinInference.Concurrency.Cell
import WinInference.Scheduler.Backlog

/-!
# The gauge of the queue

After its push, `submit` counts the request and raises the queue depth; after it
has taken a request, `process_queue` lowers the depth, with the mutex of the queue
still held.  The counter is changed in one atomic access.  `Gauge::increment` and
`decrement` load the gauge and then store it, and nothing keeps the calls of
`submit` and the decode thread apart: the gauge loses what is stored in between.

The gauge is a `double` in the source.  It only ever takes whole values here, and
these are exact below 2^53, so it is an `Int` in this model.

`Metered.step` runs the accesses of a thread one by one between the steps of its
code.  `Books` is what a run keeps: the requests that were pushed are counted or
about to be, and those that wait are on the gauge, about to be, or lost.
`queue_depth_accounts` reads it off whenever no thread is busy with the metrics,
and shows that nothing is lost in a run without overlap.
-/

namespace Qwen

open Concurrency

namespace Scheduler

variable {A : Type}

/-- A server with the metrics of its queue. -/
structure Metered (A : Type) where
  system : System A
  /-- `inference_requests_total` -/
  requestsTotal : Cell ThreadId (BitVec 64) := .initial
  /-- `inference_queue_depth`, a `double` of whole numbers -/
  queueDepth : Cell ThreadId Int := .initial

namespace Metered

/-- Before anything has moved. -/
def initial (s : Scheduler A) : Metered A := { system := System.initial s }

/-- `process_queue` is between its `pop` and the end of the critical section. -/
def holdsQueue (m : Metered A) : Bool := !(m.queueDepth.errands .decode).isNone

/-- Every thread is through with the metrics. -/
def AtRest (m : Metered A) : Prop := m.requestsTotal.Idle ∧ m.queueDepth.Idle

variable [IKVCacheAllocator A]

/-- One step of a thread: with the metrics while it has to, then with its code. -/
def step (d : SchedulerSetup) (m : Metered A) (t : ThreadId) (i : Answer) : Metered A :=
  if !(m.requestsTotal.errands t).isNone then { m with requestsTotal := m.requestsTotal.move t }
  else if !(m.queueDepth.errands t).isNone then { m with queueDepth := m.queueDepth.move t }
  else
    let system := m.system.step (code d) t i
    if m.system.state.pushed.length < system.state.pushed.length then
      -- a push waits for the mutex of the queue
      if m.holdsQueue then m
      else
        { system := system
          requestsTotal := m.requestsTotal.order t (.add 1)
          queueDepth := m.queueDepth.order t (.load 1) }
    else if m.system.state.dequeued.length < system.state.dequeued.length then
      { m with system := system, queueDepth := m.queueDepth.order t (.load (-1)) }
    else { m with system := system }

/-- The moves, one after the other. -/
def run (d : SchedulerSetup) (m : Metered A) (schedule : List (ThreadId × Answer)) : Metered A :=
  schedule.foldl (fun m e => m.step d e.1 e.2) m

theorem run_concat (d : SchedulerSetup) (m : Metered A) (schedule : List (ThreadId × Answer))
    (e : ThreadId × Answer) :
    m.run d (schedule ++ [e]) = (m.run d schedule).step d e.1 e.2 := by
  simp [run]

/-! ## The books -/

/-- The requests that were pushed are counted, and those that wait are on the gauge,
up to what threads still have to do and what the gauge has lost. -/
structure Books (d : SchedulerSetup) (s : Scheduler A) (S : Finset ThreadId) (m : Metered A) :
    Prop where
  leads : ∃ moves, m.system = (System.initial s).run (code d) moves
  counted : m.requestsTotal.Accounts S (m.system.state.pushed.length : BitVec 64)
  waiting : m.queueDepth.Accounts S
    ((m.system.state.pushed.length : Int) - m.system.state.dequeued.length)
  counts : ∀ t, m.requestsTotal.errands t = .none ∨ m.requestsTotal.errands t = .add 1
  exact : m.requestsTotal.lost = 0

variable {d : SchedulerSetup} {s : Scheduler A} {S : Finset ThreadId} {m : Metered A} {t : ThreadId}

/-- A thread that has to count does it. -/
theorem Books.count (h : m.Books d s S) (t : ThreadId) :
    Books d s S { m with requestsTotal := m.requestsTotal.move t } where
  leads := h.leads
  counted := h.counted.move t
  waiting := h.waiting
  counts u := by
    have hmoved : ∀ e : Errand (BitVec 64), (m.requestsTotal.order t .none).errands u = e →
        e = .none ∨ e = .add 1 := by
      rintro e rfl
      by_cases hu : u = t
      · rw [hu, Cell.order_errands_self]
        exact .inl rfl
      · rw [Cell.order_errands_of_ne _ hu]
        exact h.counts u
    unfold Cell.move
    rcases h.counts t with hnone | hadd
    · rw [hnone]
      exact h.counts u
    · rw [hadd]
      exact hmoved _ rfl
  exact := by
    unfold Cell.move
    rcases h.counts t with hnone | hadd
    · rw [hnone]
      exact h.exact
    · rw [hadd]
      exact h.exact

/-- One step of any thread. -/
theorem Books.step (h : m.Books d s S) (ht : t ∈ S) (i : Answer) :
    (m.step d t i).Books d s S := by
  unfold Metered.step
  split
  · exact h.count t
  next hcounted =>
    split
    · exact ⟨h.leads, h.counted, h.waiting.move t, h.counts, h.exact⟩
    next hgauged =>
      have htotal : m.requestsTotal.errands t = .none :=
        Errand.isNone_iff.mp (by simpa using hcounted)
      have hdepth : m.queueDepth.errands t = .none :=
        Errand.isNone_iff.mp (by simpa using hgauged)
      obtain ⟨moves, hmoves⟩ := h.leads
      have hleads : ∃ moves, m.system.step (code d) t i =
          (System.initial s).run (code d) moves :=
        ⟨moves ++ [(t, i)], by rw [Pool.run_concat, hmoves]⟩
      have hqueue : QueueStep t m.system.state (m.system.step (code d) t i).state := by
        rw [hmoves]
        exact queue_step d s moves t i
      dsimp only
      cases hqueue with
      | same hsame =>
          have hpushed := hsame.pushed
          have hdequeued := hsame.dequeued
          rw [hpushed, hdequeued, if_neg (lt_irrefl _), if_neg (lt_irrefl _)]
          refine ⟨hleads, ?_, ?_, h.counts, h.exact⟩
          · rw [hpushed]
            exact h.counted
          · rw [hpushed, hdequeued]
            exact h.waiting
      | push r _ hpush =>
          have hmore : m.system.state.pushed.length <
              (m.system.step (code d) t i).state.pushed.length := by
            rw [hpush.pushed, List.length_append]
            exact Nat.lt_succ_self _
          rw [if_pos hmore]
          split
          · exact h
          · refine ⟨hleads, ?_, ?_, fun u => ?_, h.exact⟩
            · have hsum := h.counted.order ht htotal (.add 1)
              rw [hpush.pushed, List.length_append, List.length_singleton, Nat.cast_add,
                Nat.cast_one]
              exact hsum
            · have hsum := h.waiting.order ht hdepth (.load 1)
              rw [hpush.pushed, hpush.dequeued, List.length_append, List.length_singleton,
                Nat.cast_add, Nat.cast_one, add_sub_right_comm]
              exact hsum
            · by_cases hu : u = t
              · rw [hu, Cell.order_errands_self]
                exact .inr rfl
              · rw [Cell.order_errands_of_ne _ hu]
                exact h.counts u
      | take r hpending hpushed hdequeued =>
          have hmore : m.system.state.dequeued.length <
              (m.system.step (code d) t i).state.dequeued.length := by
            rw [hdequeued, List.length_append]
            exact Nat.lt_succ_self _
          rw [hpushed, if_neg (lt_irrefl _), if_pos hmore]
          refine ⟨hleads, ?_, ?_, h.counts, h.exact⟩
          · rw [hpushed]
            exact h.counted
          · have hsum := h.waiting.order ht hdepth (.load (-1))
            rw [hpushed, hdequeued, List.length_append, List.length_singleton, Nat.cast_add,
              Nat.cast_one, ← sub_sub]
            exact hsum

theorem books_run (d : SchedulerSetup) (a : A) (g : Option GPURouter)
    (requests : RequestPtr → Request) (schedule : List (ThreadId × Answer)) :
    ((initial (create a g requests)).run d schedule).Books d (create a g requests)
      (schedule.map Prod.fst).toFinset := by
  have hall : ∀ first, first <+: schedule →
      ((initial (create a g requests)).run d first).Books d (create a g requests)
        (schedule.map Prod.fst).toFinset := by
    intro first hfirst
    induction first using List.reverseRecOn with
    | nil =>
        exact ⟨⟨[], rfl⟩, Cell.Accounts.initial _, Cell.Accounts.initial _, fun _ => .inl rfl,
          rfl⟩
    | append_singleton rest e ih =>
        rw [run_concat]
        have hmem : e.1 ∈ (schedule.map Prod.fst).toFinset := by
          rw [List.mem_toFinset]
          exact List.mem_map_of_mem (hfirst.subset (by simp))
        exact (ih ((List.prefix_append _ _).trans hfirst)).step hmem e.2
  exact hall schedule List.prefix_rfl

/-! ## Without overlap -/

omit [IKVCacheAllocator A] in
theorem fresh_initial (s : Scheduler A) : (initial s).queueDepth.Fresh := by
  intro t current delta herrand
  cases herrand

/-- Nobody is between the load and the store of another. -/
theorem step_fresh (h : m.queueDepth.Fresh) (hone : m.queueDepth.OneAtATime) (t : ThreadId)
    (i : Answer) :
    (m.step d t i).queueDepth.Fresh ∧ (m.step d t i).queueDepth.lost = m.queueDepth.lost := by
  have hload (delta : Int) : (m.queueDepth.order t (.load delta)).Fresh :=
    h.order fun _ _ heq => by cases heq
  unfold Metered.step
  dsimp only
  split
  · exact ⟨h, rfl⟩
  · split
    · exact h.move hone t
    · split
      · split
        · exact ⟨h, rfl⟩
        · exact ⟨hload 1, rfl⟩
      · split
        · exact ⟨hload (-1), rfl⟩
        · exact ⟨h, rfl⟩

/-- **The metrics of the queue.**  The metered server goes through runs of the
server.  Whenever no thread is busy with the metrics, as many requests are counted
as were pushed, modulo `2 ^ 64`, and the gauge is off by exactly what it has lost.
It loses nothing in a run in which the accesses of two threads never overlap. -/
theorem queue_depth_accounts (d : SchedulerSetup) (a : A) (g : Option GPURouter)
    (requests : RequestPtr → Request) (schedule : List (ThreadId × Answer)) :
    let run := fun first => (initial (create a g requests)).run d first
    (∃ moves, (run schedule).system =
      (System.initial (create a g requests)).run (code d) moves) ∧
    ((run schedule).AtRest →
      (run schedule).requestsTotal.value.toNat =
          (run schedule).system.state.pushed.length % 2 ^ 64 ∧
        (run schedule).queueDepth.value =
          (run schedule).system.state.pendingQueue.length - (run schedule).queueDepth.lost) ∧
    ((∀ first, first <+: schedule → (run first).queueDepth.OneAtATime) →
      (run schedule).queueDepth.lost = 0) := by
  intro run
  have hbooks : (run schedule).Books d (create a g requests) (schedule.map Prod.fst).toFinset :=
    books_run d a g requests schedule
  refine ⟨hbooks.leads, ?_, ?_⟩
  · rintro ⟨hcounts, hgauges⟩
    have htotal := hbooks.counted.of_idle hcounts
    have hdepth := hbooks.waiting.of_idle hgauges
    rw [hbooks.exact, add_zero] at htotal
    have hfifo : Fifo (run schedule).system.state := by
      obtain ⟨moves, hmoves⟩ := hbooks.leads
      rw [hmoves]
      exact fifo_run d (s := create a g requests) rfl moves
    unfold Fifo at hfifo
    refine ⟨?_, by omega⟩
    rw [htotal]
    exact BitVec.toNat_ofNat _ _
  · intro hone
    have hall : ∀ first, first <+: schedule →
        (run first).queueDepth.Fresh ∧ (run first).queueDepth.lost = 0 := by
      intro first hfirst
      induction first using List.reverseRecOn with
      | nil => exact ⟨fresh_initial _, rfl⟩
      | append_singleton rest e ih =>
          have hrest : rest <+: schedule := (List.prefix_append _ _).trans hfirst
          obtain ⟨hfresh, hlost⟩ := ih hrest
          obtain ⟨hfresh', hlost'⟩ :=
            step_fresh (d := d) hfresh (hone rest hrest) e.1 e.2
          rw [show run (rest ++ [e]) = _ from run_concat d _ rest e]
          exact ⟨hfresh', hlost'.trans hlost⟩
    exact (hall schedule List.prefix_rfl).2

/-- The call of `submit` for the first request is between its load and its store
while that for the second runs; then the decode thread serves both. -/
def overlappingMoves : List (ThreadId × Answer) :=
  moves 11 (.submit 0) {} ++ moves 12 (.submit 1) {} ++ moves 1 (.submit 0) {} ++
    moves 60 .decode {}

/-- The metered server after these moves. -/
def overlappingRun : Metered ContiguousKVAllocator :=
  (initial (create sampleContiguous none (numbered shortRequest))).run sampleSetup
    overlappingMoves

theorem overlappingRun_atRest : overlappingRun.AtRest := by
  have hbooks : overlappingRun.Books sampleSetup
      (create sampleContiguous none (numbered shortRequest))
      (overlappingMoves.map Prod.fst).toFinset := books_run _ _ _ _ _
  have hthreads : (overlappingMoves.map Prod.fst).toFinset =
      {.submit 0, .submit 1, .decode} := by
    decide +kernel
  have hmoved : ∀ t ∈ ({.submit 0, .submit 1, .decode} : Finset ThreadId),
      overlappingRun.requestsTotal.errands t = .none ∧
        overlappingRun.queueDepth.errands t = .none := by
    decide +kernel
  have hall : ∀ t, overlappingRun.requestsTotal.errands t = .none ∧
      overlappingRun.queueDepth.errands t = .none := by
    intro t
    by_cases ht : t ∈ ({.submit 0, .submit 1, .decode} : Finset ThreadId)
    · exact hmoved t ht
    · rw [← hthreads] at ht
      exact ⟨hbooks.counted.outside t ht, hbooks.waiting.outside t ht⟩
  exact ⟨fun t => (hall t).1, fun t => (hall t).2⟩

/-- In the end nobody waits, and the gauge is below zero. -/
theorem queue_depth_accounts_sample :
    overlappingRun.AtRest ∧ overlappingRun.system.state.pendingQueue = [] ∧
      overlappingRun.queueDepth.lost = 1 ∧ overlappingRun.requestsTotal.value.toNat = 2 ∧
      overlappingRun.queueDepth.value = -1 := by
  have hrest := overlappingRun_atRest
  have hpushed : overlappingRun.system.state.pushed.length = 2 := by decide +kernel
  have hpending : overlappingRun.system.state.pendingQueue = [] := by decide +kernel
  have hlost : overlappingRun.queueDepth.lost = 1 := by decide +kernel
  have haccounts := (queue_depth_accounts sampleSetup sampleContiguous none
    (numbered shortRequest) overlappingMoves).2.1
  beta_reduce at haccounts
  unfold overlappingRun at *
  generalize (initial (create sampleContiguous none (numbered shortRequest))).run sampleSetup
    overlappingMoves = m at *
  obtain ⟨htotal, hdepth⟩ := haccounts hrest
  refine ⟨hrest, hpending, hlost, ?_, ?_⟩
  · rw [htotal, hpushed]
    rfl
  · rw [hdepth, hpending, hlost]
    rfl

end Metered

end Scheduler

end Qwen
