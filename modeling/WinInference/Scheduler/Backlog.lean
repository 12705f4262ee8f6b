import WinInference.Scheduler.Accounting
import WinInference.Scheduler.Solo

/-!
# The length of the pending queue

`admit` looks at the length of the queue in one critical section, and `submit`
pushes in another.  Between the two the call is *past its check*: it has found
room, looks at the memory, registers its request, marks it as queued and sets
its deadlines, and pushes without looking at the queue again.  The room that it
saw is not kept for it, so other calls may find the same room.

`queue_step` says what any step of a run does to the queue, and `Unadmitted.step`
and `PastCheck.step` what a step of a submit call does.  The queue
together with the calls past their check is what stays bounded
(`Reserved.step_submit`): a call that finds room adds one to it, a push moves one
from the calls to the queue, and every other step takes away or leaves alone.

`queue_bounded` reads this off for a run.  The queue stays within its limit when
each call that finds room finds enough of it for the calls that are past their
check already; and with at most `k` others there at each such moment it is never
longer than the limit and `k`, so calls that do not overlap keep the limit.
`queue_overrun` is the run of two calls that do overlap.
-/

namespace Qwen

open Concurrency Concurrency.Program

namespace Scheduler

variable {A : Type}

/-! ## How the queue changes -/

/-- The queue, and what was pushed and dequeued. -/
def queues (s : Scheduler A) : List RequestPtr × List RequestPtr × List RequestPtr :=
  (s.pendingQueue, s.pushed, s.dequeued)

/-- The queue and its history stay as they are. -/
def SameQueues (s s' : Scheduler A) : Prop := s'.queues = s.queues

section SameQueues

variable {s s' : Scheduler A} (h : SameQueues s s')
include h

theorem SameQueues.pendingQueue : s'.pendingQueue = s.pendingQueue := congrArg Prod.fst h

theorem SameQueues.pushed : s'.pushed = s.pushed := congrArg (·.2.1) h

theorem SameQueues.dequeued : s'.dequeued = s.dequeued := congrArg (·.2.2) h

end SameQueues

/-- The push of a request. -/
structure Pushes (r : RequestPtr) (s s' : Scheduler A) : Prop where
  pendingQueue : s'.pendingQueue = s.pendingQueue ++ [r]
  pushed : s'.pushed = s.pushed ++ [r]
  dequeued : s'.dequeued = s.dequeued

/-- The decode thread takes the oldest request, or leaves the queue alone. -/
def Takes (s s' : Scheduler A) : Prop :=
  SameQueues s s' ∨ ∃ r, s.pendingQueue = r :: s'.pendingQueue ∧ s'.pushed = s.pushed ∧
    s'.dequeued = s.dequeued ++ [r]

/-- Registering a request leaves the queue and its history alone. -/
theorem sameQueues_registryAdd (s : Scheduler A) (r : RequestPtr) :
    SameQueues s (s.registryAdd r) := by
  unfold SameQueues queues
  simp [registryAdd, log, pushed, dequeued]

/-- Enqueuing a request pushes it. -/
theorem pushes_enqueue (s : Scheduler A) (r : RequestPtr) : Pushes r s (s.enqueue r) := by
  refine ⟨rfl, ?_, ?_⟩
  · simp [enqueue, pushed, log]
  · simp [enqueue, dequeued, log]

/-- What is pushed is dequeued or waits. -/
def Fifo (s : Scheduler A) : Prop :=
  s.pushed.length = s.dequeued.length + s.pendingQueue.length

variable [IKVCacheAllocator A]

theorem decodeLoop_takes (d : SchedulerSetup) (l : Point) :
    (decodeLoop d l : Sched A Point).Always Takes := by
  refine decodeLoop_always (fun r => (works_chores r).mono fun s s' h => ?_) (fun _ => ?_)
    (fun s r rest hpend => ?_) d l
  · refine Or.inl ?_
    unfold SameQueues queues
    rw [h.pendingQueue, h.pushed, h.dequeued]
  · exact Or.inl rfl
  · refine Or.inr ⟨r, hpend, ?_, ?_⟩
    · simp [pushed, log]
    · simp [dequeued, log]

/-- No thread but the decode thread and the submit calls touches the queue. -/
theorem others_sameQueues (d : SchedulerSetup) {t : ThreadId} (hdecode : t ≠ .decode)
    (hsubmit : ∀ r, t ≠ .submit r) (l : Point) :
    (code d t l : Sched A Point).Always SameQueues := by
  refine (others_always http_quiet d hdecode (fun r hr => absurd hr (hsubmit r))
    (fun _ _ => rfl) l).mono fun s s' h => ?_
  exact congrArg (fun life => (life.pending, life.pushed, life.dequeued)) h

/-! ## A submit call -/

/-- What `submit` does with the answer of `admit`. -/
def acceptOrReject (d : SchedulerSetup) (r : RequestPtr) : Result Unit → Sched A (Result Unit)
  | .error e => do
      setState r .rejected
      update (fun s => s.modify r (fun q => { q with error := some e }))
      return .error e
  | .ok () => do
      accept d r
      return .ok ()

/-- The program of a submit call that comes to its size check. -/
def sizeCheck (d : SchedulerSetup) (r : RequestPtr) : Sched A Point := do
  let result ← admitRequest d r >>= acceptOrReject d r
  return .returned result

/-- A submit call looks at the flag, and comes to its size check if it is up. -/
theorem call_eq (d : SchedulerSetup) (r : RequestPtr) :
    (code d (.submit r) .start : Sched A Point) = .act (fun _ s => s) (fun _ s =>
      (if s.running = true then admitRequest d r >>= acceptOrReject d r
        else .ret (.error (.internal "Scheduler not running"))) >>= fun result =>
          .ret (.returned result)) :=
  rfl

/-- The size check looks at the queue, and goes on if there is room. -/
theorem sizeCheck_eq (d : SchedulerSetup) (r : RequestPtr) :
    (sizeCheck d r : Sched A Point) = .act (fun _ s => s) (fun _ s =>
      ((if decide (s.pendingQueue.length ≥ d.config.maxQueueSize) = true then
          .ret (.error (.resourceExhausted "Queue full"))
        else admitMemory r) >>= acceptOrReject d r) >>= fun result => .ret (.returned result)) :=
  rfl

/-- The program leaves the queue alone and does not start over. -/
def Silent (p : Sched A Point) : Prop :=
  Triple (watching SameQueues) (fun _ => True) p (fun l _ => l ≠ .start)

omit [IKVCacheAllocator A] in
theorem Silent.ret {l : Point} (hl : l ≠ .start) : Silent (.ret l : Sched A Point) :=
  fun _ _ => hl

omit [IKVCacheAllocator A] in
theorem Silent.act {u : Answer → Scheduler A → Scheduler A}
    {n : Answer → Scheduler A → Sched A Point} (h : Silent (.act u n)) (i : Answer)
    (s : Scheduler A) : SameQueues s (u i s) ∧ Silent (n i s) := by
  obtain ⟨hsame, hrest⟩ := h s trivial s trivial trivial i trivial
  refine ⟨hsame, fun s' _ => ?_⟩
  exact wp_stable (fun _ _ _ hl _ _ => hl) _ s' hrest trivial trivial

omit [IKVCacheAllocator A] in
/-- A rejected request is not pushed. -/
theorem reject_silent (d : SchedulerSetup) (r : RequestPtr) (e : Error) :
    Silent (acceptOrReject d r (.error e) >>= fun result => .ret (.returned result) :
      Sched A Point) := by
  have hmodify : ∀ f : Request → Request,
      (Program.update (fun s => s.modify r f) : Sched A Unit).Always SameQueues :=
    fun f => Always.update fun _ => rfl
  have hreject : (acceptOrReject d r (.error e) : Sched A (Result Unit)).Always SameQueues := by
    apply Always.bind (hmodify _)
    intro _
    apply Always.bind (hmodify _)
    intro _
    exact Always.ret _
  exact Triple.bind hreject.watched fun result => Triple.ret fun _ _ => by simp

/-- A submit call that has not found room yet. -/
inductive Unadmitted (d : SchedulerSetup) (r : RequestPtr) : Sched A Point → Prop where
  | waiting : Unadmitted d r (.ret .start)
  | called : Unadmitted d r (code d (.submit r) .start)
  | checking : Unadmitted d r (sizeCheck d r)
  | silent {p : Sched A Point} (h : Silent p) : Unadmitted d r p

/-- The size check of `r` is next, and there is room. -/
structure FindsRoom (d : SchedulerSetup) (r : RequestPtr) (w : System A) : Prop where
  checks : w.threads (.submit r) = sizeCheck d r
  room : w.state.pendingQueue.length < d.config.maxQueueSize

/-- What is left of a submit call that waits for the answer of `p`. -/
def answered (d : SchedulerSetup) (r : RequestPtr) (p : Sched A (Result Unit)) :
    Sched A Point :=
  (p >>= acceptOrReject d r) >>= fun result => .ret (.returned result)

/-- The last look of `admit`, at the KV allocator. -/
def admitCache (r : RequestPtr) : Sched A (Result Unit) := do
  let allocatable ← read (fun s : Scheduler A =>
    IKVCacheAllocator.canAllocate s.kvAllocator (s.requests r).contextLength)
  if allocatable then return .ok ()
  else return .error (.resourceExhausted "Insufficient memory for request")

/-- The push that ends a submit call. -/
def pushLast (r : RequestPtr) : Sched A Point := do
  update (·.enqueue r)
  return .returned (.ok ())

/-- A submit call between the size check that found room and its push: what is
left of it. -/
inductive PastCheck (d : SchedulerSetup) (r : RequestPtr) : Sched A Point → Prop where
  /-- `can_place` is next -/
  | budgets : PastCheck d r (answered d r (admitMemory r))
  /-- `can_allocate` is next -/
  | cache : PastCheck d r (answered d r (admitCache r))
  /-- `registry_.add` is next -/
  | register : PastCheck d r (answered d r (.ret (.ok ())))
  /-- `set_state` is next -/
  | queued : PastCheck d r (do
      setState r .queued
      atomic (fun i s => ((), s.modify r (fun q => { q with timing := submitTiming d i.now })))
      pushLast r)
  /-- the deadlines are next -/
  | deadlines : PastCheck d r (do
      atomic (fun i s => ((), s.modify r (fun q => { q with timing := submitTiming d i.now })))
      pushLast r)
  | push : PastCheck d r (pushLast r)

/-- The look at the budgets, and what follows from it. -/
theorem admitMemory_eq (d : SchedulerSetup) (r : RequestPtr) :
    ∃ placeable : Scheduler A → Bool, (answered d r (admitMemory r) : Sched A Point) =
      .act (fun _ s => s) fun _ s => answered d r
        (if placeable s = true then admitCache r
          else .ret (.error (.resourceExhausted "Insufficient GPU memory for request"))) :=
  ⟨_, rfl⟩

/-- The look at the KV allocator, and what follows from it. -/
theorem admitCache_eq (d : SchedulerSetup) (r : RequestPtr) :
    (answered d r (admitCache r) : Sched A Point) =
      .act (fun _ s => s) fun _ s => answered d r
        (if IKVCacheAllocator.canAllocate s.kvAllocator (s.requests r).contextLength = true
          then .ret (.ok ())
          else .ret (.error (.resourceExhausted "Insufficient memory for request"))) :=
  rfl

/-- A call past its check has not returned. -/
theorem PastCheck.not_ret {d : SchedulerSetup} {r : RequestPtr} {l : Point} :
    ¬ PastCheck d r (.ret l : Sched A Point) := by
  intro h
  generalize hp : (.ret l : Sched A Point) = p at h
  cases h <;> cases hp

/-- A step of a call that has not found room does not push, and leads past the
check only if it finds room. -/
theorem Unadmitted.step {d : SchedulerSetup} {r : RequestPtr} {w : System A}
    (h : Unadmitted d r (w.threads (.submit r))) (i : Answer) :
    SameQueues w.state (w.step (code d) (.submit r) i).state ∧
      (Unadmitted d r ((w.step (code d) (.submit r) i).threads (.submit r)) ∨
        FindsRoom d r w ∧ PastCheck d r ((w.step (code d) (.submit r) i).threads (.submit r))) := by
  generalize hprog : w.threads (.submit r) = p at h
  cases h with
  | waiting =>
      obtain ⟨hstate, hthread⟩ := Pool.step_ret (code d) hprog i
      rw [hstate, hthread]
      exact ⟨rfl, Or.inl .called⟩
  | called =>
      obtain ⟨hstate, hthread⟩ := Pool.step_act (code d)
        (hprog.trans (call_eq d r)) i
      rw [hstate, hthread]
      refine ⟨rfl, Or.inl ?_⟩
      by_cases hrunning : w.state.running = true
      · rw [if_pos hrunning]
        exact .checking
      · rw [if_neg hrunning]
        exact .silent (Silent.ret (by simp))
  | checking =>
      obtain ⟨hstate, hthread⟩ := Pool.step_act (code d)
        (hprog.trans (sizeCheck_eq d r)) i
      rw [hstate, hthread]
      refine ⟨rfl, ?_⟩
      by_cases hfull : w.state.pendingQueue.length ≥ d.config.maxQueueSize
      · refine Or.inl (.silent ?_)
        rw [if_pos (decide_eq_true hfull)]
        exact reject_silent d r _
      · refine Or.inr ⟨⟨hprog, by omega⟩, ?_⟩
        rw [if_neg (by simpa using hfull)]
        exact .budgets
  | silent h =>
      cases p with
      | ret l =>
          have hl : l ≠ .start := h w.state trivial
          obtain ⟨hstate, hthread⟩ := Pool.step_ret (code d) hprog i
          rw [hstate, hthread]
          refine ⟨rfl, Or.inl (.silent ?_)⟩
          cases l with
          | start => exact absurd rfl hl
          | processQueue | copyActive | decodeEach | join | returned => exact Silent.ret hl
      | act u n =>
          obtain ⟨hsame, hrest⟩ := h.act i w.state
          obtain ⟨hstate, hthread⟩ := Pool.step_act (code d) hprog i
          rw [hstate, hthread]
          exact ⟨hsame, Or.inl (.silent hrest)⟩

/-- A step of a call past its check leaves the queue alone, or pushes and is
done. -/
theorem PastCheck.step {d : SchedulerSetup} {r : RequestPtr} {w : System A}
    (h : PastCheck d r (w.threads (.submit r))) (i : Answer) :
    (SameQueues w.state (w.step (code d) (.submit r) i).state ∧
      (Unadmitted d r ((w.step (code d) (.submit r) i).threads (.submit r)) ∨
        PastCheck d r ((w.step (code d) (.submit r) i).threads (.submit r)))) ∨
    (Pushes r w.state (w.step (code d) (.submit r) i).state ∧
      Unadmitted d r ((w.step (code d) (.submit r) i).threads (.submit r))) := by
  generalize hprog : w.threads (.submit r) = p at h
  cases h with
  | budgets =>
      obtain ⟨placeable, heq⟩ := admitMemory_eq (A := A) d r
      obtain ⟨hstate, hthread⟩ := Pool.step_act (code d) (hprog.trans heq) i
      rw [hstate, hthread]
      refine Or.inl ⟨rfl, ?_⟩
      by_cases hplace : placeable w.state = true
      · rw [if_pos hplace]
        exact Or.inr .cache
      · rw [if_neg hplace]
        exact Or.inl (.silent (reject_silent d r _))
  | cache =>
      obtain ⟨hstate, hthread⟩ := Pool.step_act (code d) (hprog.trans (admitCache_eq d r)) i
      rw [hstate, hthread]
      refine Or.inl ⟨rfl, ?_⟩
      split
      · exact Or.inr .register
      · exact Or.inl (.silent (reject_silent d r _))
  | register =>
      obtain ⟨hstate, hthread⟩ := Pool.step_act (code d) hprog i
      rw [hstate, hthread]
      exact Or.inl ⟨sameQueues_registryAdd _ r, Or.inr .queued⟩
  | queued =>
      obtain ⟨hstate, hthread⟩ := Pool.step_act (code d) hprog i
      rw [hstate, hthread]
      exact Or.inl ⟨rfl, Or.inr .deadlines⟩
  | deadlines =>
      obtain ⟨hstate, hthread⟩ := Pool.step_act (code d) hprog i
      rw [hstate, hthread]
      exact Or.inl ⟨rfl, Or.inr .push⟩
  | push =>
      obtain ⟨hstate, hthread⟩ := Pool.step_act (code d) hprog i
      rw [hstate, hthread]
      exact Or.inr ⟨pushes_enqueue _ r, .silent (Silent.ret (by simp))⟩

/-- The actions of a submit call on the queue are the push of its request. -/
theorem submit_pushes (d : SchedulerSetup) (r : RequestPtr) (l : Point) :
    (code d (.submit r) l : Sched A Point).Always fun s s' => SameQueues s s' ∨ Pushes r s s' := by
  have hchores : SubmitChores r fun s s' : Scheduler A => SameQueues s s' ∨ Pushes r s s' :=
    ⟨fun _ => Or.inl rfl, fun _ => Or.inl rfl, fun _ => Or.inl rfl, fun _ _ => Or.inl rfl,
      fun _ _ => Or.inl rfl, fun s => Or.inl (sameQueues_registryAdd s r),
      fun s => Or.inr (pushes_enqueue s r)⟩
  cases l with
  | start => exact Always.bind (hchores.submit d) fun _ => Always.ret _
  | processQueue | copyActive | decodeEach | join | returned => exact Always.ret _

/-! ## Every run -/

/-- What any step does to the queue. -/
inductive QueueStep (t : ThreadId) (s s' : Scheduler A) : Prop where
  | same (h : SameQueues s s')
  | push (r : RequestPtr) (ht : t = .submit r) (h : Pushes r s s')
  | take (r : RequestPtr) (hpending : s.pendingQueue = r :: s'.pendingQueue)
      (hpushed : s'.pushed = s.pushed) (hdequeued : s'.dequeued = s.dequeued ++ [r])

theorem queue_step (d : SchedulerSetup) (s : Scheduler A) (schedule : List (ThreadId × Answer))
    (t : ThreadId) (i : Answer) :
    let w := (System.initial s).run (code d) schedule
    QueueStep t w.state (w.step (code d) t i).state := by
  intro w
  have hstep : ∀ G : Scheduler A → Scheduler A → Prop, (∀ s, SameQueues s s → G s s) →
      (∀ l, (code d t l : Sched A Point).Always G) → G w.state (w.step (code d) t i).state := by
    intro G hsame hcode
    rcases Pool.step_always (Pool.run_threads_always hcode (w := System.initial s)
      (Always.ret _) schedule) i with heq | hact
    · rw [heq]
      exact hsame _ rfl
    · exact hact
  cases t with
  | decode =>
      rcases hstep Takes (fun _ h => Or.inl h) (decodeLoop_takes d) with
        hsame | ⟨r, hpending, hpushed, hdequeued⟩
      · exact .same hsame
      · exact .take r hpending hpushed hdequeued
  | submit r =>
      rcases hstep _ (fun _ h => Or.inl h) (submit_pushes d r) with hsame | hpush
      · exact .same hsame
      · exact .push r rfl hpush
  | cancel | disconnect | pop | stop =>
      exact .same (hstep SameQueues (fun _ h => h)
        (others_sameQueues d (by simp) fun _ => by simp))

omit [IKVCacheAllocator A] in
/-- Only a submit call makes the queue longer. -/
theorem QueueStep.length_le {t : ThreadId} {s s' : Scheduler A} (h : QueueStep t s s')
    (ht : ∀ r, t ≠ .submit r) : s'.pendingQueue.length ≤ s.pendingQueue.length := by
  cases h with
  | same h => rw [h.pendingQueue]
  | push r heq h => exact absurd heq (ht r)
  | take r hpending _ _ =>
      rw [hpending, List.length_cons]
      exact Nat.le_succ _

/-- What was pushed and not dequeued waits. -/
theorem fifo_run (d : SchedulerSetup) {s : Scheduler A} (hs : Fifo s)
    (schedule : List (ThreadId × Answer)) :
    Fifo ((System.initial s).run (code d) schedule).state := by
  induction schedule using List.reverseRecOn with
  | nil => exact hs
  | append_singleton rest e ih =>
      rw [Pool.run_concat]
      unfold Fifo at ih ⊢
      cases queue_step d s rest e.1 e.2 with
      | same h =>
          rw [h.pendingQueue, h.pushed, h.dequeued]
          exact ih
      | push r ht h =>
          rw [h.pushed, h.pendingQueue, h.dequeued, List.length_append, List.length_append]
          omega
      | take r hpending hpushed hdequeued =>
          rw [hpushed, hdequeued, List.length_append]
          rw [hpending, List.length_cons] at ih
          simp only [List.length_singleton]
          omega

/-! ## The queue and the calls past their check -/

/-- The run so far. -/
abbrev runOf (d : SchedulerSetup) (s : Scheduler A) (schedule : List (ThreadId × Answer)) :
    System A :=
  (System.initial s).run (code d) schedule

/-- Calls other than that of `r` that are past their check, each once. -/
structure OthersPast (d : SchedulerSetup) (r : RequestPtr) (w : System A)
    (calls : List RequestPtr) : Prop where
  nodup : calls.Nodup
  past : ∀ q ∈ calls, q ≠ r ∧ PastCheck d q (w.threads (.submit q))

/-- Whenever a call of the run finds room, `P` holds of the state and of any
other calls that are past their check. -/
def Checks (d : SchedulerSetup) (s : Scheduler A) (schedule : List (ThreadId × Answer))
    (P : Scheduler A → List RequestPtr → Prop) : Prop :=
  ∀ first r i calls, first ++ [(.submit r, i)] <+: schedule →
    FindsRoom d r (runOf d s first) → OthersPast d r (runOf d s first) calls →
      P (runOf d s first).state calls

/-- A place in the queue is taken, or kept for a call that may still push; there
are at most `bound` places. -/
structure Reserved (d : SchedulerSetup) (bound : Nat) (w : System A) : Prop where
  phase : ∀ r, Unadmitted d r (w.threads (.submit r)) ∨ PastCheck d r (w.threads (.submit r))
  places : ∀ calls : List RequestPtr, calls.Nodup →
    (∀ q ∈ calls, ¬ Unadmitted d q (w.threads (.submit q))) →
      w.state.pendingQueue.length + calls.length ≤ bound

theorem Reserved.initial (d : SchedulerSetup) (bound : Nat) {s : Scheduler A}
    (hempty : s.pendingQueue = []) : Reserved d bound (System.initial s) := by
  refine ⟨fun r => Or.inl .waiting, fun calls _ hcalls => ?_⟩
  cases calls with
  | nil => simp [System.initial, hempty]
  | cons q rest => exact absurd Unadmitted.waiting (hcalls q List.mem_cons_self)

/-- Threads other than the submit calls leave these where they stand, and put
nothing into the queue. -/
theorem Reserved.step_other {d : SchedulerSetup} {bound : Nat} {w : System A} {t : ThreadId}
    {i : Answer} (h : Reserved d bound w) (ht : ∀ r, t ≠ .submit r)
    (hqueue : (w.step (code d) t i).state.pendingQueue.length ≤ w.state.pendingQueue.length) :
    Reserved d bound (w.step (code d) t i) := by
  have hthreads : ∀ r, (w.step (code d) t i).threads (.submit r) = w.threads (.submit r) :=
    fun r => Pool.step_of_ne w (fun heq => ht r heq.symm) i
  refine ⟨fun r => ?_, fun calls hnodup hcalls => ?_⟩
  · rw [hthreads r]
    exact h.phase r
  · refine Nat.le_trans (Nat.add_le_add_right hqueue _) (h.places calls hnodup fun q hq => ?_)
    rw [← hthreads q]
    exact hcalls q hq

section Submit

variable {d : SchedulerSetup} {bound : Nat} {w : System A} {r : RequestPtr} {i : Answer}

/-- The other submit calls stand where they stood. -/
theorem submit_stays {q : RequestPtr} (hq : q ≠ r) :
    (w.step (code d) (.submit r) i).threads (.submit q) = w.threads (.submit q) :=
  Pool.step_of_ne w (fun heq => hq (ThreadId.submit.inj heq)) i

theorem Reserved.phase_step (h : Reserved d bound w) (q : RequestPtr) :
    Unadmitted d q ((w.step (code d) (.submit r) i).threads (.submit q)) ∨
      PastCheck d q ((w.step (code d) (.submit r) i).threads (.submit q)) := by
  by_cases hq : q = r
  · subst hq
    rcases h.phase q with hun | hpast
    · exact (hun.step i).2.imp_right And.right
    · rcases hpast.step i with ⟨-, hstep⟩ | ⟨-, hdone⟩
      · exact hstep
      · exact Or.inl hdone
  · rw [submit_stays hq]
    exact h.phase q

/-- A step of a submit call.  A call that finds room needs a place besides those
that are taken and kept. -/
theorem Reserved.step_submit (h : Reserved d bound w)
    (hroom : FindsRoom d r w → ∀ calls, OthersPast d r w calls →
      w.state.pendingQueue.length + calls.length < bound) :
    Reserved d bound (w.step (code d) (.submit r) i) := by
  refine ⟨fun q => h.phase_step q, fun calls hnodup hcalls => ?_⟩
  have hothers : ∀ q ∈ calls, q ≠ r → ¬ Unadmitted d q (w.threads (.submit q)) := by
    intro q hq hne
    rw [← submit_stays hne]
    exact hcalls q hq
  by_cases hun : Unadmitted d r (w.threads (.submit r))
  · obtain ⟨hsame, hstep⟩ := hun.step i
    rw [hsame.pendingQueue]
    by_cases hstill : Unadmitted d r ((w.step (code d) (.submit r) i).threads (.submit r))
    · -- the call itself is not among those that may push
      refine h.places calls hnodup fun q hq => hothers q hq fun heq => ?_
      exact hcalls q hq (heq ▸ hstill)
    · -- it found room, so the others leave a place for it
      obtain ⟨hfinds, -⟩ := hstep.resolve_left hstill
      have hplace := hroom hfinds (calls.erase r) ⟨hnodup.erase r, fun q hq => ?_⟩
      · have hlength := List.length_erase (a := r) (l := calls)
        split at hlength <;> omega
      · obtain ⟨hne, hmem⟩ := hnodup.mem_erase_iff.mp hq
        exact ⟨hne, (h.phase q).resolve_left (hothers q hmem hne)⟩
  · have hpast := (h.phase r).resolve_left hun
    rcases hpast.step i with ⟨hsame, -⟩ | ⟨hpush, hdone⟩
    · rw [hsame.pendingQueue]
      refine h.places calls hnodup fun q hq => ?_
      by_cases hne : q = r
      · exact hne ▸ hun
      · exact hothers q hq hne
    · -- the place that was kept for the call is taken
      have habsent : r ∉ calls := fun hr => hcalls r hr hdone
      have hkept := h.places (r :: calls) (List.nodup_cons.mpr ⟨habsent, hnodup⟩) fun q hq => ?_
      · rw [hpush.pendingQueue, List.length_append, List.length_singleton]
        rw [List.length_cons] at hkept
        omega
      · rcases List.mem_cons.mp hq with rfl | hq
        · exact hun
        · exact hothers q hq fun heq => habsent (heq ▸ hq)

end Submit

/-- A run keeps within the places that its checks leave. -/
theorem reserved_run (d : SchedulerSetup) {s : Scheduler A} (hempty : s.pendingQueue = [])
    {bound : Nat} {schedule : List (ThreadId × Answer)}
    (hchecks : Checks d s schedule fun s' calls =>
      s'.pendingQueue.length + calls.length < bound) {first : List (ThreadId × Answer)}
    (hfirst : first <+: schedule) : Reserved d bound (runOf d s first) := by
  induction first using List.reverseRecOn with
  | nil => exact Reserved.initial d bound hempty
  | append_singleton rest e ih =>
      have hrest := ih ((List.prefix_append _ _).trans hfirst)
      rw [show runOf d s (rest ++ [e]) = _ from Pool.run_concat _ _ _ _]
      obtain ⟨t, i⟩ := e
      cases t with
      | submit r => exact hrest.step_submit fun hfinds calls => hchecks rest r i calls hfirst hfinds
      | decode | cancel | disconnect | pop | stop =>
          exact hrest.step_other (by simp) ((queue_step d s rest _ i).length_le (by simp))

/-- **The bound on the queue.**  The queue stays within its limit if each call
that finds room finds more of it than others are past their check.  If at each
such moment at most `k` others are, it is at most `k` longer than its limit:
calls that do not overlap between check and push (`k = 0`) keep the limit. -/
theorem queue_bounded (d : SchedulerSetup) (a : A) (g : Option GPURouter)
    (requests : RequestPtr → Request) (schedule : List (ThreadId × Answer)) :
    let s := create a g requests
    (Checks d s schedule (fun s' calls =>
        s'.pendingQueue.length + calls.length < d.config.maxQueueSize) →
      ∀ first, first <+: schedule →
        (runOf d s first).state.pendingQueue.length ≤ d.config.maxQueueSize) ∧
    ∀ k, Checks d s schedule (fun _ calls => calls.length ≤ k) →
      ∀ first, first <+: schedule →
        (runOf d s first).state.pendingQueue.length ≤ d.config.maxQueueSize + k := by
  intro s
  have hbound : ∀ bound, Checks d s schedule (fun s' calls =>
      s'.pendingQueue.length + calls.length < bound) →
        ∀ first, first <+: schedule →
          (runOf d s first).state.pendingQueue.length ≤ bound := by
    intro bound hchecks first hfirst
    exact (reserved_run d rfl hchecks hfirst).places [] List.nodup_nil (by simp)
  refine ⟨hbound _, fun k hchecks => hbound _ fun first r i calls hfirst hfinds hothers => ?_⟩
  have hfew : calls.length ≤ k := hchecks first r i calls hfirst hfinds hothers
  have hroom := hfinds.room
  omega

/-- Two calls that both look at the queue before either pushes. -/
def crowdedSchedule : List (ThreadId × Answer) :=
  moves 3 (.submit 0) {} ++ moves 9 (.submit 1) {} ++ moves 6 (.submit 0) {}

/-- Only these two calls move. -/
theorem crowded_submits : ∀ e ∈ crowdedSchedule, e.1 = .submit 0 ∨ e.1 = .submit 1 := by
  decide +kernel

/-- A queue for `n` requests. -/
def queueOf (n : Nat) : SchedulerSetup := { sampleSetup with config := { maxQueueSize := n } }

/-- A server before anything was submitted. -/
def quietServer : Scheduler ContiguousKVAllocator :=
  create sampleContiguous none (numbered shortRequest)

/-- At each move, nothing waits yet, or the first call moves and the second has
returned, or two wait. -/
theorem crowded_moves (n : Nat) (hn : n < 18) :
    let w := runOf (queueOf 2) quietServer (crowdedSchedule.take n)
    w.state.pendingQueue.length = 0 ∨
      (w.state.pendingQueue.length = 1 ∧ (crowdedSchedule[n]?).map Prod.fst = some (.submit 0) ∧
        (w.threads (.submit 1)).isAt (.returned (.ok ())) = true) ∨
      2 ≤ w.state.pendingQueue.length := by
  revert n
  decide +kernel

/-- The two calls overlap in a queue for two requests, and leave room for each
other. -/
theorem queue_bounded_sample :
    let w := runOf (queueOf 2) quietServer crowdedSchedule
    w.state.pendingQueue = [1, 0] ∧ w.state.pendingQueue.length ≤ 2 := by
  refine ⟨by decide +kernel, ?_⟩
  obtain ⟨hbounded, -⟩ := queue_bounded (queueOf 2) sampleContiguous none (numbered shortRequest)
    crowdedSchedule
  refine hbounded (fun first r i calls hnext hfinds hothers => ?_) _ List.prefix_rfl
  have hstart : first <+: crowdedSchedule := (List.prefix_append _ _).trans hnext
  have hfirst : first = crowdedSchedule.take first.length := List.prefix_iff_eq_take.mp hstart
  have hlength : first.length < 18 := by
    have hle := hnext.length_le
    rw [List.length_append, List.length_singleton] at hle
    exact hle
  have hmove : crowdedSchedule[first.length]? = some (.submit r, i) := by
    obtain ⟨after, hafter⟩ := hnext
    rw [← hafter]
    simp
  have hcalls : ∀ q ∈ calls, q = 0 ∨ q = 1 := by
    intro q hq
    by_contra hne
    have hstands : (runOf (queueOf 2) quietServer first).threads (.submit q) = .ret .start := by
      refine Pool.run_unscheduled fun e he heq => ?_
      have hmem := crowded_submits e (hstart.subset he)
      rw [heq] at hmem
      exact hne (by simpa using hmem)
    exact PastCheck.not_ret (hstands ▸ (hothers.past q hq).2)
  have hr : r = 0 ∨ r = 1 := by
    simpa using crowded_submits _ (List.mem_of_getElem? hmove)
  have hmoves := crowded_moves first.length hlength
  rw [← hfirst] at hmoves
  rcases hmoves with hnone | ⟨hone, hzero, hreturned⟩ | htwo
  · -- one other call, and nothing waits
    have hsub : calls ⊆ [1 - r] := by
      intro q hq
      have hne := (hothers.past q hq).1
      rcases hr with rfl | rfl <;> rcases hcalls q hq with rfl | rfl <;> simp at hne ⊢
    have hfew := (List.subperm_of_subset hothers.nodup hsub).length_le
    rw [List.length_singleton] at hfew
    change (runOf (queueOf 2) quietServer first).state.pendingQueue.length + _ < 2
    omega
  · -- the other call has pushed
    have hnone : calls = [] := by
      refine List.eq_nil_iff_forall_not_mem.mpr fun q hq => ?_
      obtain ⟨hne, hpast⟩ := hothers.past q hq
      rw [hmove] at hzero
      have hr' : r = 0 := by simpa using hzero
      obtain rfl : q = 1 := (hcalls q hq).resolve_left fun h => hne (h.trans hr'.symm)
      exact PastCheck.not_ret (Program.isAt_iff.mp hreturned ▸ hpast)
    change (runOf (queueOf 2) quietServer first).state.pendingQueue.length + _ < 2
    rw [hnone, hone]
    decide
  · exact absurd hfinds.room (Nat.not_lt.mpr htwo)

/-- Both calls find the one place of a queue for one request, and both push. -/
theorem queue_overrun :
    let w := runOf (queueOf 1) quietServer crowdedSchedule
    Fresh (numbered shortRequest) ∧ w.state.pendingQueue = [1, 0] ∧
      ¬ w.state.pendingQueue.length ≤ 1 := by
  intro w
  have hrun : w.state.pendingQueue = [1, 0] := by decide +kernel
  refine ⟨numbered_fresh rfl, hrun, ?_⟩
  rw [hrun]
  decide

end Scheduler

end Qwen
