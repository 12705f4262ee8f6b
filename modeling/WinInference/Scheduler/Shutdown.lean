import WinInference.Scheduler.Accounting
import WinInference.Scheduler.Delivery
import WinInference.Scheduler.Release

/-!
# Shutdown

`stop` lowers the flag, waits for the decode thread and cancels the tokens that
are still registered; whoever looks at those tokens is gone by then.  So nothing
is left behind exactly when the decode thread found nothing to do as it read
the flag for the last time.

The exit of the decode thread is one step, after which it takes no other.
Requests may still arrive then, and wait for good.
-/

namespace Qwen

open Concurrency Concurrency.Program

namespace Scheduler

variable {A : Type}

/-! ## The exit of the decode thread -/

section Exit

/-- The decode thread acts until it has exited, and its exit shows in the flag
only. -/
def exitContract : Contract (Scheduler A) where
  known _ := True
  rely s s' := s'.decodeThreadExited = s.decodeThreadExited
  guar s s' := s.decodeThreadExited = false ∧
    (s'.decodeThreadExited = false ∨ s' = { s with decodeThreadExited := true })
  rely_refl _ := rfl
  rely_trans h h' := h'.trans h

/-- The flag is up where the thread has returned. -/
def exitPoint : Point → Scheduler A → Prop
  | .returned _, s => s.decodeThreadExited = true
  | _, s => s.decodeThreadExited = false

/-- The flag the decode thread raises as it exits. -/
def SameExit (s s' : Scheduler A) : Prop := s'.decodeThreadExited = s.decodeThreadExited

/-- No other thread touches the flag of the decode thread's exit. -/
theorem exit_stable (b : Bool) :
    Stable exitContract (fun s : Scheduler A => s.decodeThreadExited = b) :=
  fun _ _ hs hrely _ => hrely.trans hs

/-- What the decode thread knows of its exit survives the moves of the others. -/
theorem exitPoint_stable (l : Point) : Stable exitContract (exitPoint (A := A) l) := by
  cases l with
  | returned => exact exit_stable true
  | start | processQueue | copyActive | decodeEach | join => exact exit_stable false

/-- What leaves the flag alone is done before the exit. -/
theorem exit_quiet {α : Type} {p : Sched A α} (hp : p.Always SameExit) :
    Triple exitContract (fun s => s.decodeThreadExited = false) p
      (fun _ s => s.decodeThreadExited = false) :=
  hp.triple (exit_stable false) (fun _ _ hs hsame => ⟨hs, Or.inl (hsame.trans hs)⟩)
    (fun _ _ hs hsame => hsame.trans hs)

variable [IKVCacheAllocator A]

/-- Every pass of the decode loop keeps what is known of the exit. -/
theorem exit_body (d : SchedulerSetup) (l : Point) :
    Triple exitContract (exitPoint l) (decodeLoop d l : Sched A Point) exitPoint := by
  have hworks (r : RequestPtr) : Chores r (SameExit (A := A)) :=
    (works_chores r).mono fun _ _ h => h.decodeThreadExited
  cases l with
  | start =>
      refine Triple.bind (Q := fun running s => s.decodeThreadExited = !running)
        (Triple.atomic (exit_stable false) fun _ s hs _ _ => ⟨⟨hs, ?_⟩, rfl⟩) fun running => ?_
      · cases hrunning : s.running with
        | true => exact Or.inl (by simp)
        | false => exact Or.inr (by simp)
      · cases running <;> exact Triple.ret fun _ hs => hs
  | processQueue =>
      refine Triple.bind (exit_quiet (Always.atomic fun _ s => ?_)) fun taken => ?_
      · obtain heq | ⟨r, rest, -, -, heq⟩ := dequeue_cases s d.config.maxActiveRequests <;>
          rw [heq] <;> rfl
      · cases taken with
        | none => exact Triple.ret fun _ hs => hs
        | some r =>
            exact Triple.bind (exit_quiet ((hworks r).startRequest d))
              (fun _ => Triple.ret fun _ hs => hs)
  | copyActive =>
      refine Triple.bind (exit_quiet (Always.read (hworks 0).idle)) fun active => ?_
      by_cases hempty : active.isEmpty
      · rw [if_pos hempty]
        exact Triple.ret fun _ hs => hs
      · rw [if_neg hempty]
        exact Triple.ret fun _ hs => hs
  | decodeEach rest =>
      cases rest with
      | nil => exact Triple.ret fun _ hs => hs
      | cons r rest =>
          exact Triple.bind (exit_quiet ((hworks r).decodeRequest d))
            (fun _ => Triple.ret fun _ hs => hs)
  | join | returned => exact Triple.ret fun _ hs => hs

/-- Every thread keeps what the decode thread relies on for its exit. -/
theorem exit_compatible (d : SchedulerSetup) :
    Compatible (code (A := A) d) (loneContracts .decode exitContract)
      (lonePoint .decode exitPoint) :=
  Compatible.lone (fun _ ht l => others_field (fun _ _ _ => rfl) (fun _ _ => rfl)
    (fun _ _ => rfl) (fun _ _ => rfl) d ht (fun _ _ => rfl) l) exitPoint_stable (exit_body d)

variable (d : SchedulerSetup) {s : Scheduler A}

/-- Both sides of the exit, at any moment of a run. -/
theorem exit_sound (hs : s.decodeThreadExited = false) (schedule : List (ThreadId × Answer)) :
    Sound (loneContracts .decode exitContract) (lonePoint .decode exitPoint)
      ((System.initial s).run (code d) schedule) :=
  have hstart : exitPoint .start (System.initial s).state := hs
  Pool.run_sound (exit_compatible d) (sound_lone (fun _ => rfl) hstart) schedule
    (known_lone fun _ _ => trivial)

/-- Once it has exited, the decode thread stands at its end. -/
theorem exited_returned (hs : s.decodeThreadExited = false)
    (schedule : List (ThreadId × Answer)) :
    let w := (System.initial s).run (code d) schedule
    w.state.decodeThreadExited = true →
      ∃ result, w.threads .decode = .ret (.returned result) := by
  intro w hexited
  have hdecode := (exit_sound d hs schedule).lone
  change wp exitContract (w.threads .decode) exitPoint w.state at hdecode
  cases hprog : w.threads .decode with
  | act u n =>
      rw [hprog] at hdecode
      obtain ⟨⟨hrunning, -⟩, -⟩ := hdecode w.state rfl trivial {} trivial
      rw [hrunning] at hexited
      cases hexited
  | ret l =>
      rw [hprog] at hdecode
      cases l with
      | returned result => exact ⟨result, rfl⟩
      | start | processQueue | copyActive | decodeEach | join =>
          have hrunning : w.state.decodeThreadExited = false := hdecode
          rw [hrunning] at hexited
          cases hexited

/-- The flag stays up. -/
theorem exited_stays (hs : s.decodeThreadExited = false)
    {first schedule : List (ThreadId × Answer)} (hfirst : first <+: schedule)
    (hexited : ((System.initial s).run (code d) first).state.decodeThreadExited = true) :
    ((System.initial s).run (code d) schedule).state.decodeThreadExited = true := by
  have hstart : exitPoint .start (System.initial s).state := hs
  refine (exit_compatible d).lone_keeps (J := fun s => s.decodeThreadExited = true)
    (fun s s' hguar hs => ?_) (fun s s' hsame hs => hsame.trans hs) (fun _ => rfl) hstart hfirst
    (fun _ _ => trivial) hexited
  rw [hguar.1] at hs
  cases hs

/-- Only the decode thread raises the flag, in a step that does nothing else. -/
theorem exit_step (hs : s.decodeThreadExited = false) (before : List (ThreadId × Answer))
    {t : ThreadId} {i : Answer} :
    let w := (System.initial s).run (code d) before
    w.state.decodeThreadExited = false →
      (w.step (code d) t i).state.decodeThreadExited = true →
        t = .decode ∧ (w.step (code d) t i).state = { w.state with decodeThreadExited := true } := by
  intro w hlow hturn
  have hknown : ∀ s : Scheduler A, Known (loneContracts ThreadId.decode exitContract) s := by
    intro s u
    by_cases hu : u = ThreadId.decode <;> simp [loneContracts, hu, exitContract, Contract.bystander]
  obtain ⟨-, hsame | hguar⟩ := Pool.step_sound (t := t) (i := i) (exit_compatible d)
    (exit_sound d hs before) (hknown _) (hknown _)
  · rw [hsame, hlow] at hturn
    cases hturn
  by_cases ht : t = .decode
  · subst ht
    rw [loneContracts, if_pos rfl] at hguar
    rcases hguar.2 with hstill | hraised
    · rw [hstill] at hturn
      cases hturn
    · exact ⟨rfl, hraised⟩
  · rw [loneContracts, if_neg ht] at hguar
    have hstill : SameExit w.state (w.step (code d) t i).state := hguar
    rw [hstill, hlow] at hturn
    cases hturn

end Exit

/-! ## The call of `stop` -/

section Stop

/-- Both flags of the shutdown protocol. -/
def SameFlags (s s' : Scheduler A) : Prop :=
  (s'.running, s'.decodeThreadExited) = (s.running, s.decodeThreadExited)

/-- The HTTP threads leave the flags alone. -/
theorem http_sameFlags : HttpChores (SameFlags (A := A)) :=
  HttpChores.of_field (f := fun s : Scheduler A => (s.running, s.decodeThreadExited))
    (fun _ _ _ => rfl) fun _ _ => rfl

/-- What `stop` relies on: nobody else lowers the flag, and with the flag down
nobody undoes the exit. -/
def stopSetup : LoneSetup (Scheduler A) where
  known _ := True
  rely s s' := s'.running = s.running ∧
    (s.running = false → s.decodeThreadExited = true → s'.decodeThreadExited = true)
  rely_refl _ := ⟨rfl, fun _ h => h⟩
  rely_trans h h' := ⟨h'.1.trans h.1, fun hdown hexited =>
    h'.2 (h.1.trans hdown) (h.2 hdown hexited)⟩
  always _ := True

/-- `stop` waits with the flag down, and returns after the exit. -/
def stopPoint : Point → Scheduler A → Prop
  | .start, s => s.running = true
  | .returned _, s => s.running = false ∧ s.decodeThreadExited = true
  | _, s => s.running = false

/-- Only the stopping thread writes the running flag. -/
theorem steady_running (b : Bool) :
    stopSetup.Steady (fun s : Scheduler A => s.running = b) :=
  fun _ _ hs hrely => hrely.1.trans hs

/-- Once the decode thread is joined, it stays exited and the server stays stopped. -/
theorem steady_joined :
    stopSetup.Steady (fun s : Scheduler A => s.running = false ∧ s.decodeThreadExited = true) :=
  fun _ _ hs hrely => ⟨hrely.1.trans hs.1, hrely.2 hs.1 hs.2⟩

/-- What the stopping thread knows survives the moves of the others. -/
theorem stopPoint_steady (l : Point) : stopSetup.Steady (stopPoint (A := A) l) := by
  cases l with
  | start => exact steady_running true
  | returned => exact steady_joined
  | processQueue | copyActive | decodeEach | join => exact steady_running false

/-- Every section of `stop` keeps what the stopping thread knows. -/
theorem stop_body (l : Point) :
    Triple stopSetup.contract (stopPoint l) (stop l : Sched A Point) stopPoint := by
  have hdown : Stable stopSetup.contract (fun s : Scheduler A => s.running = false) :=
    (steady_running false).stable
  cases l with
  | start =>
      refine Triple.bind (Q := fun running s => running = true ∧ s.running = false)
        (Triple.atomic (steady_running true).stable fun _ s hs _ _ => ⟨trivial, hs, rfl⟩)
        fun running => ?_
      cases running with
      | true => exact Triple.ret fun _ hs => hs.2
      | false => exact Triple.ret fun _ hs => absurd hs.1 (by simp)
  | join =>
      refine Triple.bind (Triple.read hdown fun _ => trivial) fun exited => ?_
      cases exited with
      | true =>
          have hcancel : (Program.update (·.registryCancelAll) : Sched A Unit).Always SameFlags :=
            Always.update http_sameFlags.registryCancelAll
          refine Triple.bind ((hcancel.triple steady_joined.stable (fun _ _ _ _ => trivial)
            fun s s' hs hsame => ?_).pre fun s hs => ⟨hs.1, hs.2.symm⟩)
            fun _ => Triple.ret fun _ hs => hs
          obtain ⟨hrunning, hexited⟩ := Prod.mk.inj hsame
          exact ⟨hrunning.trans hs.1, hexited.trans hs.2⟩
      | false => exact Triple.ret fun _ hs => hs.1
  | processQueue | copyActive | decodeEach | returned => exact Triple.ret fun _ hs => hs

/-- A move that leaves the flags alone is one the stopping thread allows for. -/
theorem SameFlags.rely {s s' : Scheduler A} (h : SameFlags s s') : stopSetup.rely s s' := by
  obtain ⟨hrunning, hexited⟩ := Prod.mk.inj h
  exact ⟨hrunning, fun _ hup => hexited.trans hup⟩

variable [IKVCacheAllocator A] (d : SchedulerSetup)

/-- With the flag down the decode thread can only raise its own. -/
theorem decode_flags (l : Point) :
    (decodeLoop d l : Sched A Point).Always stopSetup.rely := by
  refine decodeLoop_always (fun r => (works_chores r).mono fun _ _ h => ?_) (fun s => ?_)
    (fun _ _ _ _ => ⟨rfl, fun _ hup => hup⟩) d l
  · exact ⟨h.running, fun _ hup => h.decodeThreadExited.trans hup⟩
  · exact ⟨rfl, fun hdown _ => by simp [hdown]⟩

/-- The stopping thread is the only one of its kind. -/
theorem stop_lone : Lone (code (A := A) d) .stop stopSetup stopPoint where
  others t ht l := by
    by_cases hdecode : t = .decode
    · subst hdecode
      exact decode_flags d l
    · refine (others_field (f := fun s : Scheduler A => (s.running, s.decodeThreadExited))
        (fun _ _ _ => rfl) (fun _ _ => rfl) (fun _ _ => rfl) (fun _ _ => rfl) d hdecode
        (fun hstop => absurd hstop ht) l).mono fun _ _ h => SameFlags.rely h
  steady := stopPoint_steady
  steady_always _ _ _ _ := trivial
  body := stop_body

/-- `stop` returns after the decode thread has exited. -/
theorem stopped_exited {s : Scheduler A} (hs : s.running = true)
    (schedule : List (ThreadId × Answer)) :
    let w := (System.initial s).run (code d) schedule
    ∀ result, w.threads .stop = .ret (.returned result) →
      w.state.decodeThreadExited = true := by
  intro w result hstop
  have hstart : stopPoint .start (System.initial s).state := hs
  have hpoint := ((stop_lone d).run (fun _ => rfl) hstart trivial schedule
    fun _ _ => trivial).1 _ hstop
  exact hpoint.2

end Stop

/-! ## The calls of `submit` -/

section Submit

variable {r : RequestPtr}

/-- Nobody registers or pushes a request but its own submit call. -/
def SameArrival (r : RequestPtr) (s s' : Scheduler A) : Prop :=
  (r ∈ s'.pushed ↔ r ∈ s.pushed) ∧ (r ∈ s'.registered ↔ r ∈ s.registered)

/-- The same queue history and registry, hence the same arrival. -/
theorem sameArrival_of_eq {s s' : Scheduler A} (hpushed : s'.pushed = s.pushed)
    (hregistered : s'.registered = s.registered) : SameArrival r s s' := by
  rw [SameArrival, hpushed, hregistered]
  exact ⟨Iff.rfl, Iff.rfl⟩

/-- The submit call alone. -/
def arrivalSetup (r : RequestPtr) : LoneSetup (Scheduler A) where
  known _ := True
  rely := SameArrival r
  rely_refl _ := sameArrival_of_eq rfl rfl
  rely_trans h h' := ⟨h'.1.trans h.1, h'.2.trans h.2⟩
  always _ := True

/-- Where the request of a submit call is: pushed or not, registered or not. -/
def Arrived (r : RequestPtr) (pushed registered : Prop) (s : Scheduler A) : Prop :=
  (r ∈ s.pushed ↔ pushed) ∧ (r ∈ s.registered ↔ registered)

/-- Exactly the calls that returned success have registered and pushed. -/
def arrivalPoint (r : RequestPtr) (l : Point) : Scheduler A → Prop :=
  Arrived r (l = .returned (.ok ())) (l = .returned (.ok ()))

/-- The arrival of a request is steady under the moves of the other threads. -/
theorem steady_arrived {pushed registered : Prop} :
    (arrivalSetup r).Steady (Arrived (A := A) r pushed registered) :=
  fun _ _ hs hrely => ⟨hrely.1.trans hs.1, hrely.2.trans hs.2⟩

/-- The HTTP threads of other requests leave the arrival of this one alone. -/
theorem http_sameArrival : HttpChores (SameArrival (A := A) r) where
  idle _ := sameArrival_of_eq rfl rfl
  cancel _ _ := sameArrival_of_eq rfl rfl
  pop s q := by
    obtain heq | ⟨t, event, rest, -, -, heq⟩ := popEvent_cases s q
    · rw [heq]
      exact sameArrival_of_eq rfl rfl
    · rw [heq]
      exact sameArrival_of_eq (by simp [pushed, log, modify]) (by simp [registered, log, modify])
  trans h h' := ⟨h'.1.trans h.1, h'.2.trans h.2⟩

/-- The submit of another request leaves the arrival of this one alone. -/
theorem submit_sameArrival {q : RequestPtr} (hq : r ≠ q) :
    SubmitChores q (SameArrival (A := A) r) where
  idle _ := sameArrival_of_eq rfl rfl
  queue _ := sameArrival_of_eq rfl rfl
  reject _ := sameArrival_of_eq rfl rfl
  blame _ _ := sameArrival_of_eq rfl rfl
  stamp _ _ := sameArrival_of_eq rfl rfl
  register s := by simp [SameArrival, registryAdd, log, pushed, registered, hq]
  enqueue s := by simp [SameArrival, enqueue, log, pushed, registered, hq]

/-- What the submit call does between the two stations. -/
theorem arrival_quiet {α : Type} {pushed registered : Prop} {p : Sched A α}
    (hp : p.Always (SameArrival r)) :
    Triple (arrivalSetup r).contract (Arrived r pushed registered) p
      (fun _ => Arrived r pushed registered) :=
  hp.triple steady_arrived.stable (fun _ _ _ _ => trivial)
    (fun _ _ hs hsame => ⟨hsame.1.trans hs.1, hsame.2.trans hs.2⟩)

/-- An accepted request is pushed and registered. -/
theorem accept_arrived (d : SchedulerSetup) :
    Triple (arrivalSetup r).contract (Arrived r False False) (accept d r : Sched A Unit)
      (fun _ => Arrived r True True) := by
  refine Triple.bind (Q := fun _ => Arrived r False True)
    (Triple.update steady_arrived.stable fun s hs _ _ => ⟨trivial, ?_⟩) fun _ => ?_
  · exact ⟨by simpa [registryAdd, log, pushed] using hs.1, by simp [registryAdd, log, registered]⟩
  refine Triple.bind (arrival_quiet (Always.update fun _ => sameArrival_of_eq rfl rfl))
    fun _ => ?_
  refine Triple.bind (arrival_quiet (Always.atomic fun _ _ => sameArrival_of_eq rfl rfl))
    fun _ => ?_
  refine Triple.update steady_arrived.stable fun s hs _ _ => ⟨trivial, ?_⟩
  exact ⟨by simp [enqueue, log, pushed], by simpa [enqueue, log, registered] using hs.2⟩

variable [IKVCacheAllocator A] (d : SchedulerSetup)

/-- A submit has pushed and registered its request exactly when it returns success. -/
theorem submit_arrived :
    Triple (arrivalSetup r).contract (Arrived r False False) (submit d r : Sched A (Result Unit))
      (fun result => arrivalPoint r (.returned result)) := by
  have hrefused : ∀ (e : Error) (s : Scheduler A), Arrived r False False s →
      arrivalPoint r (.returned (.error e)) s := fun e s hs => by
    simpa [arrivalPoint, Arrived] using hs
  refine Triple.bind (arrival_quiet (Always.read http_sameArrival.idle)) fun running => ?_
  cases running with
  | false => exact Triple.ret (hrefused _)
  | true =>
      refine Triple.bind (arrival_quiet (admitRequest_always http_sameArrival.idle d r))
        fun admitted => ?_
      cases admitted with
      | error e =>
          refine Triple.bind (arrival_quiet (Always.update fun _ => sameArrival_of_eq rfl rfl))
            fun _ => ?_
          exact Triple.bind (arrival_quiet (Always.update fun _ => sameArrival_of_eq rfl rfl))
            (fun _ => Triple.ret (hrefused e))
      | ok _ =>
          refine Triple.bind (accept_arrived d) fun _ => Triple.ret fun s hs => ?_
          simpa [arrivalPoint, Arrived] using hs

/-- A request is submitted by one thread only. -/
theorem arrival_lone (r : RequestPtr) :
    Lone (code (A := A) d) (.submit r) (arrivalSetup r) (arrivalPoint r) where
  others t ht l := by
    by_cases hdecode : t = .decode
    · subst hdecode
      refine decodeLoop_always (fun q => (works_chores q).mono fun _ _ h =>
        sameArrival_of_eq h.pushed h.registered) (fun _ => sameArrival_of_eq rfl rfl)
        (fun s q rest _ => ?_) d l
      exact sameArrival_of_eq (by simp [pushed, log]) (by simp [registered, log])
    · refine others_always http_sameArrival d hdecode (fun q hq => submit_sameArrival ?_)
        (fun _ _ => sameArrival_of_eq rfl rfl) l
      rintro rfl
      exact ht hq
  steady _ := steady_arrived
  steady_always _ _ _ _ := trivial
  body l := by
    cases l with
    | start =>
        refine Triple.bind (Triple.pre (submit_arrived d) fun s hs => ?_)
          fun result => Triple.ret fun _ hs => hs
        simpa [arrivalPoint, Arrived] using hs
    | processQueue | copyActive | decodeEach | join | returned => exact Triple.ret fun _ hs => hs

/-- A submit call that is not in progress has registered and pushed its request
if it returned success, and neither otherwise. -/
theorem arrival_run (a : A) (g : Option GPURouter) (requests : RequestPtr → Request)
    (schedule : List (ThreadId × Answer)) (r : RequestPtr) :
    let w := (System.initial (create a g requests)).run (code d) schedule
    ∀ l, w.threads (.submit r) = .ret l →
      (r ∈ w.state.pushed ↔ l = .returned (.ok ())) ∧
        (r ∈ w.state.registered ↔ l = .returned (.ok ())) := by
  intro w l hl
  have hstart : arrivalPoint r .start (create a g requests) := by
    simp [arrivalPoint, Arrived, create, pushed, registered]
  exact ((arrival_lone d r).run (w := System.initial (create a g requests)) (fun _ => rfl) hstart
    trivial schedule fun _ _ => trivial).1 l hl

end Submit

/-! ## What is left behind -/

section Left

variable [IKVCacheAllocator A]

/-- Token queues as the server makes them: empty and open. -/
def FreshQueues (requests : RequestPtr → Request) : Prop :=
  ∀ r t, (requests r).tokenQueue = some t → t = { maxSize := t.maxSize }

/-- What becomes of an accepted request: it is in a terminal state, its queue is
closed after a terminal event was offered to it, its handle was freed and its
budget released. -/
structure Concluded (requests : RequestPtr → Request) (r : RequestPtr) (s : Scheduler A) : Prop where
  terminal : (s.requests r).isTerminal
  queue : ∀ t, (requests r).tokenQueue = some t → Fed t.maxSize r .closed s
  handle : HandleFreed r s
  budget : s.committedCount r ≤ s.freedCount r

/-- Nothing is left of any accepted request. -/
structure LeavesNothing (requests : RequestPtr → Request) (w : System A) : Prop where
  accepted : ∀ r, w.threads (.submit r) = .ret (.returned (.ok ())) → Concluded requests r w.state
  pendingQueue : w.state.pendingQueue = []
  activeRequests : w.state.activeRequests = []
  registry : w.state.registry = ∅

/-- As the decode thread reads the flag for the last time there is nothing
queued and nothing active, and nothing arrives afterwards. -/
def ExitsIdle (d : SchedulerSetup) (s : Scheduler A) (schedule : List (ThreadId × Answer)) :
    Prop :=
  ∃ before i after, schedule = before ++ (.decode, i) :: after ∧
    let w := (System.initial s).run (code d) before
    (w.state.decodeThreadExited = false ∧
      (w.step (code d) .decode i).state.decodeThreadExited = true) ∧
    (w.state.pendingQueue = [] ∧ w.state.activeRequests = []) ∧
      ((System.initial s).run (code d) schedule).state.pushed = w.state.pushed

variable (d : SchedulerSetup) {a : A} {g : Option GPURouter} {requests : RequestPtr → Request}

/-- Once the decode thread has exited requests only arrive. -/
theorem exited_arrivals (h : Fresh requests) {first : List (ThreadId × Answer)}
    (hexited : ((System.initial (create a g requests)).run (code d) first).state.decodeThreadExited
      = true) (after : List (ThreadId × Answer)) :
    Life.Arrivals ((System.initial (create a g requests)).run (code d) first).state.life
      ((System.initial (create a g requests)).run (code d) (first ++ after)).state.life := by
  induction after using List.reverseRecOn with
  | nil =>
      rw [List.append_nil]
      exact Life.Arrivals.refl _
  | append_singleton rest e ih =>
      rw [← List.append_assoc, Pool.run_concat]
      refine ih.trans ?_
      by_cases ht : e.1 = .decode
      · have hstill := exited_stays d (s := create a g requests) rfl
          (List.prefix_append first rest) hexited
        obtain ⟨result, hret⟩ := exited_returned d (s := create a g requests) rfl _ hstill
        have hsame : (((System.initial (create a g requests)).run (code d) (first ++ rest)).step
            (code d) e.1 e.2).state =
            ((System.initial (create a g requests)).run (code d) (first ++ rest)).state := by
          rw [ht]
          simp [Pool.step, hret]
        rw [hsame]
        exact Life.Arrivals.refl _
      · exact life_arrivals d h (first ++ rest) ht e.2

/-- The decode thread found nothing to do exactly if nothing waits in the end. -/
theorem exitsIdle_iff (h : Fresh requests) {schedule : List (ThreadId × Answer)}
    (hexited : ((System.initial (create a g requests)).run (code d)
      schedule).state.decodeThreadExited = true) :
    let s := ((System.initial (create a g requests)).run (code d) schedule).state
    ExitsIdle d (create a g requests) schedule ↔ s.pendingQueue = [] ∧ s.activeRequests = [] := by
  intro s
  -- from the exit on, both lists only change by arrivals
  have hsince : ∀ before i after, schedule = before ++ (.decode, i) :: after →
      let w := (System.initial (create a g requests)).run (code d) before
      w.state.decodeThreadExited = false →
        (w.step (code d) .decode i).state.decodeThreadExited = true →
          Life.Arrivals w.state.life s.life := by
    intro before i after hsplit w hlow hup
    have hstep := (exit_step d (s := create a g requests) rfl before hlow hup).2
    have hrun : (System.initial (create a g requests)).run (code d) (before ++ [(.decode, i)]) =
        w.step (code d) .decode i := Pool.run_concat _ _ _ _
    have hraised : ((System.initial (create a g requests)).run (code d)
        (before ++ [(.decode, i)])).state.decodeThreadExited = true := by
      rw [hrun]
      exact hup
    have harrivals := exited_arrivals d h hraised after
    rw [hrun, hstep, List.append_assoc, List.singleton_append, ← hsplit] at harrivals
    exact harrivals
  constructor
  · rintro ⟨before, i, after, hsplit, ⟨hlow, hup⟩, ⟨hpending, hactive⟩, hpushed⟩
    have harrivals := hsince before i after hsplit hlow hup
    obtain ⟨new, hpend, hpush, -⟩ := harrivals.arrived
    have hnew : new = [] := by
      have hlength := congrArg List.length (hpush.symm.trans hpushed)
      rw [List.length_append] at hlength
      exact List.eq_nil_of_length_eq_zero (Nat.left_eq_add.mp hlength.symm)
    refine ⟨?_, harrivals.active_eq.trans hactive⟩
    rw [show s.pendingQueue = _ from hpend, hnew, List.append_nil]
    exact hpending
  · rintro ⟨hpending, hactive⟩
    obtain ⟨before, t, i, after, hsplit, hbefore, hup⟩ :=
      Pool.exists_turn (P := fun s : Scheduler A => s.decodeThreadExited = true)
        (w := System.initial (create a g requests)) (by simp [System.initial, create]) hexited
    have hlow : ((System.initial (create a g requests)).run (code d)
        before).state.decodeThreadExited = false := by simpa using hbefore
    obtain ⟨rfl, -⟩ := exit_step d (s := create a g requests) rfl before hlow hup
    have harrivals := hsince before i after hsplit hlow hup
    obtain ⟨new, hpend, hpush, -⟩ := harrivals.arrived
    obtain ⟨hidle, rfl⟩ := List.append_eq_nil_iff.mp (hpend.symm.trans hpending)
    refine ⟨before, i, after, hsplit, ⟨hlow, hup⟩, ⟨hidle, ?_⟩, ?_⟩
    · exact harrivals.active_eq.symm.trans hactive
    · exact hpush.trans (List.append_nil _)

/-- A registry none of whose entries can be looked up is empty. -/
theorem registry_eq_empty {registry : AList (fun _ : String => RequestPtr)}
    (h : ∀ k r, registry.lookup k ≠ some r) : registry = ∅ := by
  refine AList.ext ?_
  cases hentries : registry.entries with
  | nil => rfl
  | cons e rest =>
      have hlookup : registry.lookup e.1 = some e.2 :=
        AList.mem_lookup_iff.mpr (by simp [hentries])
      exact absurd hlookup (h e.1 e.2)

/-- **Shutdown.**  After a call of `stop` that returned, with no submit call in
progress, nothing is left behind exactly if the decode thread exited idle and no
budget is stranded at any moment. -/
theorem shutdown_complete (h : Fresh requests) (hqueues : FreshQueues requests)
    (schedule : List (ThreadId × Answer))
    (hstop : ((System.initial (create a g requests)).run (code d) schedule).threads .stop =
      .ret (.returned (.ok ())))
    (hsubmit : ∀ r, ∃ l, ((System.initial (create a g requests)).run (code d)
      schedule).threads (.submit r) = .ret l) :
    LeavesNothing requests ((System.initial (create a g requests)).run (code d) schedule) ↔
      ExitsIdle d (create a g requests) schedule ∧
        ∀ first, first <+: schedule → ∀ r, Refundable r
          ((System.initial (create a g requests)).run (code d) first).state := by
  have hexited := stopped_exited d (s := create a g requests) rfl schedule _ hstop
  obtain ⟨result, hret⟩ := exited_returned d (s := create a g requests) rfl schedule hexited
  have hbetween := (life_sound (a := a) (g := g) d h schedule).at_point hret
  have hrest := fun r => release_point (a := a) (g := g) d h r schedule hret
  have hidle := exitsIdle_iff (a := a) (g := g) d h hexited
  have harrived := arrival_run d a g requests schedule
  revert hbetween hrest hidle harrived
  generalize hw : (System.initial (create a g requests)).run (code d) schedule = w at *
  intro hbetween hrest hidle harrived
  change Life.Between d.config.maxActiveRequests [] w.state.life at hbetween
  refine Iff.trans ?_ (and_congr_left' hidle).symm
  constructor
  · intro hleaves
    refine ⟨⟨hleaves.pendingQueue, hleaves.activeRequests⟩, fun first hfirst r => ?_⟩
    refine stranded_stays d h r hfirst ?_
    rw [hw]
    obtain ⟨l, hl⟩ := hsubmit r
    by_cases haccepted : l = .returned (.ok ())
    · subst haccepted
      exact refundable_of_paid (hleaves.accepted r hl).budget
    · have hpushed : r ∉ w.state.life.pushed := mt (harrived r l hl).1.mp haccepted
      have hcount := (hrest r).owing.begun (mt hbetween.inv.pushed_of_dequeued hpushed)
      exact refundable_of_paid (by omega)
  · rintro ⟨⟨hpending, hactive⟩, hrefund⟩
    have hgone : ∀ r, r ∈ w.state.pushed → Gone r w.state := by
      intro r hr
      have hfifo : w.state.pushed = w.state.dequeued ++ w.state.pendingQueue := hbetween.inv.fifo
      rw [hpending, List.append_nil] at hfifo
      exact ⟨hfifo ▸ hr, by simp [hactive]⟩
    have hbook : ∀ r, r ∈ w.state.pushed → (w.state.requests r).isTerminal ∧
        w.state.life.entry r = none := fun r hr =>
      hbetween.book.gone r (hgone r hr).1 (hgone r hr).2 (by simp)
    refine ⟨fun r hr => ?_, hpending, hactive, registry_eq_empty fun k r hlookup => ?_⟩
    · have hpushed := (harrived r _ hr).1.mpr rfl
      have hcleared := (hrest r).gone (hgone r hpushed).1 (hgone r hpushed).2
      refine ⟨(hbook r hpushed).1, fun t ht => ?_, hcleared.handle, hcleared.budget ?_⟩
      · have hfeed := feed_run (a := a) (g := g) d (ht.trans (congrArg some (hqueues r t ht)))
          schedule
        rw [hw] at hfeed
        exact (hfeed.1 _ hret).gone (hgone r hpushed)
      · have hlast := hrefund schedule List.prefix_rfl r
        rw [hw] at hlast
        exact hlast
    · obtain ⟨rfl, hregistered⟩ := hbetween.inv.keys k r hlookup
      obtain ⟨l, hl⟩ := hsubmit r
      have hpushed := (harrived r l hl).1.mpr ((harrived r l hl).2.mp hregistered)
      have hentry : w.state.life.entry r = some r := hlookup
      rw [(hbook r hpushed).2] at hentry
      cases hentry

end Left

/-- One prompt token, one token to generate, with a queue. -/
def streamedRequest : Request :=
  { id := "", inputTokens := [1], maxTokens := 1, tokenQueue := some {} }

/-- The first request is submitted, the decode thread moves `n` times, and then
the server is stopped. -/
def stoppedAfter (n : Nat) : List (ThreadId × Answer) :=
  firstSubmitted n {} ++ moves 2 .stop {} ++ moves 2 .decode {} ++ moves 3 .stop {}

/-- The example run: requests are submitted and the server is stopped. -/
def stoppedRun (schedule : List (ThreadId × Answer)) : System ContiguousKVAllocator :=
  (System.initial (create sampleContiguous (some (sampleRouter 0))
    (numbered streamedRequest))).run (code sampleSetup) schedule

/-- No other request was submitted. -/
theorem stoppedRun_submit {n : Nat} {l : Point}
    (h : ((stoppedRun (stoppedAfter n)).threads (.submit 0)).isAt l) (r : RequestPtr) :
    ∃ l, (stoppedRun (stoppedAfter n)).threads (.submit r) = .ret l := by
  by_cases hr : r = 0
  · subst hr
    exact ⟨l, Program.isAt_iff.mp h⟩
  · refine ⟨.start, Pool.run_unscheduled fun e he hthread => ?_⟩
    simp only [stoppedAfter, firstSubmitted, moves, List.mem_append] at he
    rcases he with (((he | he) | he) | he) | he
    all_goals
      obtain rfl := List.eq_of_mem_replicate he
      cases hthread
    exact hr rfl

/-- What the history of a run with one request shows of its budget. -/
def showsRefundable (s : Scheduler ContiguousKVAllocator) : Bool :=
  s.trace.all (fun e => e.subject = 0) &&
    (decide (s.committedCount 0 ≤ s.freedCount 0) || (s.requests 0).kvCache.isValid)

/-- The executable test shows that every request can be refunded. -/
theorem showsRefundable_spec {s : Scheduler ContiguousKVAllocator} (h : showsRefundable s)
    (r : RequestPtr) : Refundable r s := by
  obtain ⟨hall, hpaid⟩ := Bool.and_eq_true_iff.mp h
  by_cases hr : r = 0
  · subst hr
    rcases Bool.or_eq_true_iff.mp hpaid with hle | hvalid
    · exact refundable_of_paid (of_decide_eq_true hle)
    · exact fun _ => hvalid
  · have hnone : s.committedCount r = 0 := by
      refine List.count_eq_zero.mpr fun hmem => hr ?_
      exact of_decide_eq_true (List.all_eq_true.mp hall _ hmem)
    exact refundable_of_paid (hnone.trans_le (Nat.zero_le _))

/-- Stopped after the request was served. -/
theorem shutdown_complete_sample :
    LeavesNothing (numbered streamedRequest) (stoppedRun (stoppedAfter 45)) := by
  have hfresh : Fresh (numbered streamedRequest) := numbered_fresh rfl
  have hqueues : FreshQueues (numbered streamedRequest) := by
    intro r t ht
    cases ht
    rfl
  have hstop : (stoppedRun (stoppedAfter 45)).threads .stop = .ret (.returned (.ok ())) := by
    refine Program.isAt_iff.mp ?_
    decide +kernel
  have hsubmit : ((stoppedRun (stoppedAfter 45)).threads (.submit 0)).isAt
      (.returned (.ok ())) := by
    decide +kernel
  have hidle : (stoppedRun (stoppedAfter 45)).state.pendingQueue = [] ∧
      (stoppedRun (stoppedAfter 45)).state.activeRequests = [] := by
    decide +kernel
  have hexited : (stoppedRun (stoppedAfter 45)).state.decodeThreadExited = true := by
    decide +kernel
  have htakes : ∀ n < 62, showsRefundable
      (stoppedRun ((stoppedAfter 45).take n)).state := by
    decide +kernel
  have hsubmits := stoppedRun_submit hsubmit
  unfold stoppedRun at hstop hsubmits hidle hexited htakes ⊢
  refine (shutdown_complete sampleSetup hfresh hqueues (stoppedAfter 45) hstop hsubmits).mpr
    ⟨(exitsIdle_iff sampleSetup hfresh hexited).mpr hidle, fun first hfirst r => ?_⟩
  have hlength : first.length ≤ (stoppedAfter 45).length := hfirst.length_le
  have hsum : (stoppedAfter 45).length = 61 := by decide +kernel
  rw [List.prefix_iff_eq_take.mp hfirst]
  exact showsRefundable_spec (htakes first.length (by omega)) r

/-- Stopped while the request was waiting in the queue: `stop` returns, and the
request stays where it is. -/
theorem shutdown_leaves_queued :
    let w := stoppedRun (stoppedAfter 0)
    w.threads .stop = .ret (.returned (.ok ())) ∧
      w.threads (.submit 0) = .ret (.returned (.ok ())) ∧
      (∀ r, ∃ l, w.threads (.submit r) = .ret l) ∧
      (w.state.requests 0).state = .queued ∧ (w.state.requests 0).tokenQueue = some {} ∧
      w.state.pendingQueue = [0] ∧ ¬ LeavesNothing (numbered streamedRequest) w := by
  have hsubmit : ((stoppedRun (stoppedAfter 0)).threads (.submit 0)).isAt
      (.returned (.ok ())) := by
    decide +kernel
  have hstays : ((stoppedRun (stoppedAfter 0)).state.requests 0).state = .queued ∧
      ((stoppedRun (stoppedAfter 0)).state.requests 0).tokenQueue = some {} ∧
      (stoppedRun (stoppedAfter 0)).state.pendingQueue = [0] := by
    decide +kernel
  refine ⟨Program.isAt_iff.mp ?_, Program.isAt_iff.mp hsubmit, stoppedRun_submit hsubmit,
    hstays.1, hstays.2.1, hstays.2.2, fun hleaves => ?_⟩
  · decide +kernel
  · have hempty := hleaves.pendingQueue
    rw [hstays.2.2] at hempty
    cases hempty

end Scheduler

end Qwen
