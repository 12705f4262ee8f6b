import WinInference.Concurrency.Monitor

/-!
# The life of the server process

`main` from the moment at which it has made its `Server`, the thread in which
the server listens, and the threads in which the console handler asks for the
shutdown.  Every access to something two of them share is one action.

What `listen` answers, and when, is left open, and so is how long `main` sleeps
in `start`.
-/

namespace Qwen

open Concurrency

namespace Server

/-- The threads that take part in the end of the process. -/
inductive ThreadId where
  | main
  /-- `server_thread_` -/
  | listener
  /-- the `n`-th call of `request_shutdown` -/
  | requester (n : Nat)
deriving DecidableEq

/-- `stop` is called by `main`, and by the destructor when `main` is left. -/
inductive Caller where
  | main
  | destructor (status : Nat)
deriving DecidableEq

/-- Where one of them stands. -/
inductive Point where
  | start
  /-- `Server::start` -/
  | storeRunning
  | spawn
  | lookRunning
  /-- the wait on `g_shutdown_cv` -/
  | lock
  | test
  | sleep
  | asleep
  | unlock
  /-- `Server::stop` -/
  | stopLook (caller : Caller)
  | httpStop (caller : Caller)
  | stopStore (caller : Caller)
  | join (caller : Caller)
  /-- the rest of `main`, and the end of `server_thread_` -/
  | schedulerStop
  | destroyThread (status : Nat)
  | returned (status : Nat)
  | terminated
  /-- the listener -/
  | listen
  | storeFailed
  | exit (failed : Bool)
  | exited (failed : Bool)
  /-- `request_shutdown` -/
  | store
  | release
  | notifyAll
  | done
deriving DecidableEq

/-- The thread has ended, or the process. -/
def Point.ended : Point → Bool
  | .returned _ | .terminated | .exited _ | .done => true
  | _ => false

/-- What a thread learns from outside. -/
structure Outside where
  /-- what `listen` returns, if it returns now -/
  listened : Option Bool := none
  spurious : Bool := false

/-- The moments that decide how the process ends. -/
inductive Event where
  /-- the listener stores that it has failed -/
  | listenFailed
  /-- `stop` looks whether the server runs -/
  | stopLooked
deriving DecidableEq

/-- What they share: the flags of `main.cpp` and of the server object, the mutex,
who sleeps, and what has happened. -/
structure Shared where
  /-- `g_shutdown_requested` -/
  requested : Bool := false
  /-- `g_shutdown_mutex` -/
  holder : Option ThreadId := none
  /-- `g_shutdown_cv` -/
  cv : CondVar ThreadId := {}
  /-- `running_` -/
  running : Bool := false
  /-- `server_thread_.joinable()` -/
  joinable : Bool := false
  launched : Bool := false
  listenerExited : Bool := false
  schedulerStopped : Bool := false
  log : List Event := []

namespace Shared

/-- Take `g_shutdown_mutex` and go on at `next`, or stay where one is while another has it. -/
def lock (t : ThreadId) (next stay : Point) (s : Shared) : Point × Shared :=
  if s.holder = none then (next, { s with holder := some t }) else (stay, s)

end Shared

/-- Where the caller of `stop` goes on. -/
def afterStop : Caller → Point
  | .main => .schedulerStop
  | .destructor status => .destroyThread status

/-- `main`, with the methods of `Server` that it calls. -/
def main (i : Outside) (s : Shared) : Point → Point × Shared
  | .start => (if s.running then .stopLook (.destructor 1) else .storeRunning, s)
  | .storeRunning => (.spawn, { s with running := true })
  | .spawn => (.lookRunning, { s with joinable := true, launched := true })
  | .lookRunning => (if s.running then .lock else .stopLook (.destructor 1), s)
  | .lock => s.lock .main .test .lock
  | .test => (if s.requested then .unlock else .sleep, s)
  | .sleep => (.asleep, { s with holder := none, cv := (s.cv.settle .main).sleep .main })
  | .asleep =>
      if i.spurious ∨ .main ∈ s.cv.notified then (.lock, { s with cv := s.cv.wake .main })
      else (.asleep, s)
  | .unlock => (.stopLook .main, { s with holder := none })
  | .stopLook caller =>
      (if s.running then .httpStop caller else afterStop caller,
        { s with log := s.log ++ [.stopLooked] })
  | .httpStop caller => (.stopStore caller, s)
  | .stopStore caller => (.join caller, { s with running := false })
  | .join caller =>
      if s.joinable then
        if s.listenerExited then (afterStop caller, { s with joinable := false })
        else (.join caller, s)
      else (afterStop caller, s)
  | .schedulerStop => (.stopLook (.destructor 0), { s with schedulerStopped := true })
  -- a thread that is destroyed while it is joinable ends the process
  | .destroyThread status => (if s.joinable then .terminated else .returned status, s)
  | point => (point, s)

/-- The body of `server_thread_`. -/
def listener (i : Outside) (s : Shared) : Point → Point × Shared
  | .start => (if s.launched then .listen else .start, s)
  | .listen =>
      match i.listened with
      | none => (.listen, s)
      | some true => (.exit false, s)
      | some false => (.storeFailed, s)
  | .storeFailed => (.exit true, { s with running := false, log := s.log ++ [.listenFailed] })
  | .exit failed => (.exited failed, { s with listenerExited := true })
  | point => (point, s)

/-- `request_shutdown`. -/
def requestShutdown (n : Nat) (s : Shared) : Point → Point × Shared
  | .start => s.lock (.requester n) .store .start
  | .store => (.release, { s with requested := true })
  | .release => (.notifyAll, { s with holder := none })
  | .notifyAll => (.done, { s with cv := s.cv.notifyAll })
  | point => (point, s)

/-- What a thread does at a point. -/
def act : ThreadId → Point → Outside → Shared → Point × Shared
  | .main, point, i, s => main i s point
  | .listener, point, i, s => listener i s point
  | .requester n, point, _, s => requestShutdown n s point

/-- The program of a thread: one action at each point, until it has ended. -/
def code : ThreadId → Point → Program Outside Shared Point := perPoint Point.ended act

/-- An interleaving of the threads, from the moment at which the server object
is made. -/
def run (schedule : List (ThreadId × Outside)) : Pool ThreadId Outside Shared Point :=
  (⟨{}, fun _ => .ret .start⟩ : Pool ThreadId Outside Shared Point).run code schedule

/-! ## Where `main` stands -/

/-- The listener has been started, and `stop` has not been called. -/
def Serving (s : Shared) : Prop :=
  s.joinable = true ∧ (s.running = true ∧ s.log = [] ∨ s.running = false ∧ s.log = [.listenFailed])

/-- The listener had failed before `stop` was called. -/
def Failed (s : Shared) : Prop :=
  s.joinable = true ∧ s.running = false ∧ s.log.head? = some .listenFailed

/-- `stop` was called while the server ran. -/
def Stopping (s : Shared) : Prop :=
  s.joinable = true ∧ s.log.head? = some .stopLooked ∧ s.requested = true

/-- The listener was joined. -/
def Closed (s : Shared) : Prop :=
  s.joinable = false ∧ s.running = false ∧ s.log.head? = some .stopLooked ∧
    s.requested = true ∧ s.listenerExited = true

/-- What is so while `main` stands at a point. -/
def Stage (s : Shared) : Point → Prop
  | .start | .storeRunning =>
      s.launched = false ∧ s.joinable = false ∧ s.running = false ∧ s.log = []
  | .spawn => s.launched = false ∧ s.joinable = false ∧ s.running = true ∧ s.log = []
  | .lookRunning | .lock | .test | .asleep => Serving s
  | .sleep => Serving s ∧ s.requested = false
  | .unlock | .stopLook .main => Serving s ∧ s.requested = true
  | .stopLook (.destructor status) =>
      Failed s ∨ status = 0 ∧ s.schedulerStopped = true ∧ Closed s
  | .httpStop caller | .stopStore caller => caller = .main ∧ Stopping s
  | .join caller => caller = .main ∧ Stopping s ∧ s.running = false
  | .schedulerStop => Failed s ∨ Closed s
  | .destroyThread status => Failed s ∨ status = 0 ∧ s.schedulerStopped = true ∧ Closed s
  | .returned status => status = 0 ∧ s.schedulerStopped = true ∧ Closed s
  | .terminated => s.log.head? = some .listenFailed
  | _ => False

/-- What is so while the listener stands at a point. -/
def Heard (s : Shared) : Point → Prop
  | .start => .listenFailed ∉ s.log
  | .listen | .storeFailed => s.launched = true ∧ .listenFailed ∉ s.log
  | .exit _ | .exited _ => s.launched = true
  | _ => False

section Stages

variable {s : Shared} {l : Point}

/-- What happened first stays first. -/
theorem head?_append_of_some {α : Type} {l : List α} {a : α} (h : l.head? = some a) (b : α) :
    (l ++ [b]).head? = some a := by
  simp [h]

/-- A listener that stopped running by itself had failed. -/
theorem Serving.fails (h : Serving s) (hrunning : s.running = false) : Failed s := by
  obtain ⟨hjoinable, ⟨htrue, -⟩ | ⟨-, hlog⟩⟩ := h
  · rw [htrue] at hrunning
    cases hrunning
  · exact ⟨hjoinable, hrunning, by simp [hlog]⟩

/-- One that is still running can be stopped. -/
theorem Serving.stops (h : Serving s) (hrunning : s.running = true) :
    s.joinable = true ∧ s.log = [] := by
  obtain ⟨hjoinable, ⟨-, hlog⟩ | ⟨hfalse, -⟩⟩ := h
  · exact ⟨hjoinable, hlog⟩
  · rw [hfalse] at hrunning
    cases hrunning

/-- A move of `main`. -/
theorem Stage.main (h : Stage s l) (hgoes : l.ended = false) (i : Outside) :
    Stage (main i s l).2 (main i s l).1 := by
  cases l with
  | start =>
      have hrunning : s.running = false := h.2.2.1
      simp only [Server.main, hrunning]
      exact h
  | storeRunning => exact ⟨h.1, h.2.1, rfl, h.2.2.2⟩
  | spawn => exact ⟨rfl, .inl ⟨h.2.2.1, h.2.2.2⟩⟩
  | lookRunning =>
      simp only [Server.main]
      cases hrunning : s.running with
      | true => exact h
      | false => exact .inl (Serving.fails h hrunning)
  | lock =>
      simp only [Server.main, Shared.lock]
      split <;> exact h
  | test =>
      simp only [Server.main]
      cases hrequested : s.requested with
      | true => exact ⟨h, hrequested⟩
      | false => exact ⟨h, hrequested⟩
  | sleep => exact h.1
  | asleep =>
      simp only [Server.main]
      split <;> exact h
  | unlock => exact h
  | stopLook caller =>
      cases caller with
      | main =>
          simp only [Server.main]
          cases hrunning : s.running with
          | true =>
              obtain ⟨hjoinable, hlog⟩ := Serving.stops h.1 hrunning
              exact ⟨rfl, hjoinable, by simp [hlog], h.2⟩
          | false =>
              obtain ⟨hjoinable, -, hlog⟩ := Serving.fails h.1 hrunning
              exact .inl ⟨hjoinable, rfl, head?_append_of_some hlog _⟩
      | destructor status =>
          rcases h with ⟨hjoinable, hrunning, hlog⟩ | ⟨hstatus, hstopped, hclosed⟩
          · simp only [Server.main, hrunning]
            exact .inl ⟨hjoinable, rfl, head?_append_of_some hlog _⟩
          · obtain ⟨hjoinable, hrunning, hlog, hrequested, hexited⟩ := hclosed
            simp only [Server.main, hrunning]
            exact .inr ⟨hstatus, hstopped, hjoinable, rfl, head?_append_of_some hlog _,
              hrequested, hexited⟩
  | httpStop caller => exact h
  | stopStore caller => exact ⟨h.1, h.2, rfl⟩
  | join caller =>
      obtain ⟨rfl, hstopping, hrunning⟩ := h
      obtain ⟨hjoinable, hlog, hrequested⟩ := hstopping
      simp only [Server.main, hjoinable, if_true]
      cases hexited : s.listenerExited with
      | true => exact .inr ⟨rfl, hrunning, hlog, hrequested, rfl⟩
      | false => exact ⟨rfl, ⟨hjoinable, hlog, hrequested⟩, hrunning⟩
  | schedulerStop =>
      rcases h with hfailed | hclosed
      · exact .inl hfailed
      · exact .inr ⟨rfl, rfl, hclosed⟩
  | destroyThread status =>
      rcases h with ⟨hjoinable, -, hlog⟩ | ⟨hstatus, hstopped, hclosed⟩
      · simp only [Server.main, hjoinable]
        exact hlog
      · simp only [Server.main, hclosed.1]
        exact ⟨hstatus, hstopped, hclosed⟩
  | returned | terminated | exited | done => cases hgoes
  | listen | storeFailed | exit | store | release | notifyAll => exact h

/-- What `main` has found stays so. -/
structure Lasts (s s' : Shared) : Prop where
  before : s.launched = false → s'.launched = false ∧ s'.joinable = s.joinable ∧
    s'.running = s.running ∧ s'.log = s.log
  serving : Serving s → Serving s'
  failed : Failed s → Failed s'
  stopping : Stopping s → Stopping s'
  closed : Closed s → Closed s'
  first : ∀ e, s.log.head? = some e → s'.log.head? = some e
  stopped : s.running = false → s'.running = false
  requested : s.requested = true → s'.requested = true
  schedulerStopped : s'.schedulerStopped = s.schedulerStopped

/-- What `main` has found stays so when others move. -/
theorem Stage.lasts {s' : Shared} (h : Stage s l) (hs : Lasts s s')
    (hsleep : l = .sleep → s'.requested = s.requested) : Stage s' l := by
  have hend : ∀ status, (status = 0 ∧ s.schedulerStopped = true ∧ Closed s) →
      status = 0 ∧ s'.schedulerStopped = true ∧ Closed s' :=
    fun status h => ⟨h.1, hs.schedulerStopped.trans h.2.1, hs.closed h.2.2⟩
  cases l with
  | start | storeRunning | spawn =>
      obtain ⟨hlaunched, hjoinable, hrunning, hlog⟩ := h
      obtain ⟨hlaunched', hjoinable', hrunning', hlog'⟩ := hs.before hlaunched
      exact ⟨hlaunched', hjoinable'.trans hjoinable, hrunning'.trans hrunning, hlog'.trans hlog⟩
  | lookRunning | lock | test | asleep => exact hs.serving h
  | sleep => exact ⟨hs.serving h.1, (hsleep rfl).trans h.2⟩
  | unlock => exact ⟨hs.serving h.1, hs.requested h.2⟩
  | stopLook caller =>
      cases caller with
      | main => exact ⟨hs.serving h.1, hs.requested h.2⟩
      | destructor status => exact h.imp hs.failed (hend status)
  | httpStop caller | stopStore caller => exact ⟨h.1, hs.stopping h.2⟩
  | join caller => exact ⟨h.1, hs.stopping h.2.1, hs.stopped h.2.2⟩
  | schedulerStop => exact h.imp hs.failed hs.closed
  | destroyThread status => exact h.imp hs.failed (hend status)
  | returned status => exact hend status h
  | terminated => exact hs.first _ h
  | listen | storeFailed | exit | exited | store | release | notifyAll | done => exact h.elim

/-- A step that concerns only what nobody has asked about. -/
theorem Lasts.of_same {s' : Shared} (hlaunched : s'.launched = s.launched)
    (hjoinable : s'.joinable = s.joinable) (hrunning : s'.running = s.running)
    (hlog : s'.log = s.log) (hstopped : s'.schedulerStopped = s.schedulerStopped)
    (hrequested : s.requested = true → s'.requested = true)
    (hexited : s.listenerExited = true → s'.listenerExited = true) : Lasts s s' where
  before h := ⟨hlaunched.trans h, hjoinable, hrunning, hlog⟩
  serving h := by rwa [Serving, hjoinable, hrunning, hlog]
  failed h := by rwa [Failed, hjoinable, hrunning, hlog]
  stopping h := ⟨hjoinable.trans h.1, hlog ▸ h.2.1, hrequested h.2.2⟩
  closed h := ⟨hjoinable.trans h.1, hrunning.trans h.2.1, hlog ▸ h.2.2.1, hrequested h.2.2.2.1,
    hexited h.2.2.2.2⟩
  first _ h := hlog ▸ h
  stopped h := hrunning.trans h
  requested := hrequested
  schedulerStopped := hstopped

/-- A move of the listener. -/
theorem listener_lasts {point : Point} (hheard : Heard s point) (i : Outside) :
    Lasts s (listener i s point).2 := by
  cases point with
  | storeFailed =>
      obtain ⟨hlaunched, hfirst⟩ := hheard
      constructor
      · intro hnot
        rw [hlaunched] at hnot
        cases hnot
      · rintro ⟨hjoinable, ⟨-, hlog⟩ | ⟨-, hlog⟩⟩
        · exact ⟨hjoinable, .inr ⟨rfl, by simp [listener, hlog]⟩⟩
        · simp [hlog] at hfirst
      · rintro ⟨hjoinable, -, hlog⟩
        exact ⟨hjoinable, rfl, head?_append_of_some hlog _⟩
      · rintro ⟨hjoinable, hlog, hrequested⟩
        exact ⟨hjoinable, head?_append_of_some hlog _, hrequested⟩
      · rintro ⟨hjoinable, -, hlog, hrest⟩
        exact ⟨hjoinable, rfl, head?_append_of_some hlog _, hrest⟩
      · exact fun e h => head?_append_of_some h _
      · exact fun _ => rfl
      · exact id
      · rfl
  | exit failed => exact .of_same rfl rfl rfl rfl rfl id fun _ => rfl
  | listen =>
      simp only [listener]
      split <;> exact .of_same rfl rfl rfl rfl rfl id id
  | _ => exact .of_same rfl rfl rfl rfl rfl id id

/-- A move of a requester. -/
theorem requestShutdown_lasts (n : Nat) (point : Point) :
    Lasts s (requestShutdown n s point).2 := by
  cases point with
  | start =>
      simp only [requestShutdown, Shared.lock]
      split <;> exact .of_same rfl rfl rfl rfl rfl id id
  | store => exact .of_same rfl rfl rfl rfl rfl (fun _ => rfl) id
  | _ => exact .of_same rfl rfl rfl rfl rfl id id

/-! ### The listener -/

/-- A move of `main` keeps what the listener heard. -/
theorem Heard.main (h : Heard s l) (i : Outside) (point : Point) : Heard (main i s point).2 l := by
  have hsame : ∀ s' : Shared, s'.launched = s.launched ∨ s'.launched = true →
      (.listenFailed ∈ s'.log → .listenFailed ∈ s.log) → Heard s' l := by
    intro s' hlaunched hlog
    have hon : s.launched = true → s'.launched = true := fun hl => hlaunched.elim (·.trans hl) id
    cases l with
    | start => exact fun hmem => h (hlog hmem)
    | listen | storeFailed => exact ⟨hon h.1, fun hmem => h.2 (hlog hmem)⟩
    | exit | exited => exact hon h
    | _ => exact h
  cases point with
  | spawn => exact hsame _ (.inr rfl) id
  | stopLook caller =>
      refine hsame _ (.inl rfl) fun hmem => ?_
      simpa [Server.main] using hmem
  | lock =>
      simp only [Server.main, Shared.lock]
      split <;> exact hsame _ (.inl rfl) id
  | asleep =>
      simp only [Server.main]
      split <;> exact hsame _ (.inl rfl) id
  | join caller =>
      simp only [Server.main]
      repeat' split
      all_goals exact hsame _ (.inl rfl) id
  | _ => exact hsame _ (.inl rfl) id

/-- A move of the listener keeps it. -/
theorem Heard.listener (h : Heard s l) (i : Outside) (hgoes : l.ended = false) :
    Heard (listener i s l).2 (listener i s l).1 := by
  cases l with
  | start =>
      simp only [Server.listener]
      cases hlaunched : s.launched with
      | true => exact ⟨hlaunched, h⟩
      | false => exact h
  | listen =>
      simp only [Server.listener]
      split
      · exact h
      · exact h.1
      · exact h
  | storeFailed => exact h.1
  | exit failed => exact h
  | returned | terminated | exited | done => cases hgoes
  | _ => exact h

end Stages

/-! ## Runs -/

/-- The points between taking `g_shutdown_mutex` and giving it back. -/
def Point.inside : Point → Bool
  | .test | .sleep | .unlock | .store | .release => true
  | _ => false

/-- A call of `request_shutdown` has set the flag. -/
def Point.asked : Point → Bool
  | .release | .notifyAll | .done => true
  | _ => false

/-- A shutdown has been requested, and `g_shutdown_cv` not been notified yet. -/
def Notifies (pos : ThreadId → Point) : Prop :=
  ∃ n, pos (.requester n) = .release ∨ pos (.requester n) = .notifyAll

section Runs

variable {s : Shared} {pos : ThreadId → Point}

/-- What a step means for the mutex. -/
inductive MutexMove (t : ThreadId) (l l' : Point) (holder holder' : Option ThreadId) : Prop where
  | stay (hl : l'.inside = l.inside) (hholder : holder' = holder)
  | take (hl : l'.inside = true) (hfree : holder = none) (hholder : holder' = some t)
  | give (hl : l.inside = true) (hl' : l'.inside = false) (hholder : holder' = none)

/-- Whoever takes the mutex is inside. -/
theorem lock_mutex {t : ThreadId} {next stay : Point} (hnext : next.inside = true)
    (hstay : stay.inside = false) {l : Point} (hl : l.inside = false) :
    MutexMove t l (s.lock t next stay).1 s.holder (s.lock t next stay).2.holder := by
  unfold Shared.lock
  split
  next hfree => exact .take hnext hfree rfl
  next => exact .stay (hstay.trans hl.symm) rfl

/-- Every move treats the mutex so. -/
theorem act_mutex (t : ThreadId) (l : Point) (i : Outside) :
    MutexMove t l (act t l i s).1 s.holder (act t l i s).2.holder := by
  cases t with
  | main =>
      cases l with
      | lock => exact lock_mutex rfl rfl rfl
      | sleep | unlock => exact .give rfl rfl rfl
      | start | lookRunning | test | asleep =>
          simp only [act, main]
          split <;> exact .stay rfl rfl
      | stopLook caller =>
          simp only [act, main]
          split
          · exact .stay rfl rfl
          · cases caller <;> exact .stay rfl rfl
      | join caller =>
          simp only [act, main]
          repeat' split
          all_goals cases caller <;> exact .stay rfl rfl
      | destroyThread status =>
          simp only [act, main]
          split <;> exact .stay rfl rfl
      | _ => exact .stay rfl rfl
  | listener =>
      cases l with
      | start | listen =>
          simp only [act, listener]
          split <;> exact .stay rfl rfl
      | _ => exact .stay rfl rfl
  | requester n =>
      cases l with
      | start => exact lock_mutex rfl rfl rfl
      | release => exact .give rfl rfl rfl
      | _ => exact .stay rfl rfl

/-- Who is inside has the mutex. -/
theorem MutexMove.holds {t : ThreadId} {l' : Point} {holder' : Option ThreadId}
    (hmove : MutexMove t (pos t) l' s.holder holder')
    (h : ∀ u, (pos u).inside = true ↔ s.holder = some u) (u : ThreadId) :
    (Function.update pos t l' u).inside = true ↔ holder' = some u := by
  by_cases hu : u = t
  · subst hu
    rw [Function.update_self]
    cases hmove with
    | stay hl hholder => rw [hl, hholder, h u]
    | take hl hfree hholder => simp [hl, hholder]
    | give hl hl' hholder => simp [hl', hholder]
  · rw [Function.update_of_ne hu, h u]
    cases hmove with
    | stay hl hholder => rw [hholder]
    | take hl hfree hholder => simp [hfree, hholder, Ne.symm hu]
    | give hl hl' hholder =>
        rw [(h t).mp hl, hholder]
        simp [Ne.symm hu]

/-- `main` sleeps alone, and only until the notification that is to come. -/
structure Sleeps (s : Shared) (pos : ThreadId → Point) : Prop where
  alone : s.cv.sleepers = [] ∨ s.cv.sleepers = [.main] ∧ pos .main = .asleep
  notifies : .main ∈ s.cv.sleepers → s.requested = true → Notifies pos
  returned : ∀ n, pos (.requester n) = .done → s.cv.sleepers = []

/-- A notification that is due stays due until it is made. -/
theorem Notifies.update (h : Notifies pos) {t : ThreadId} {l' : Point}
    (ht : ∀ n, t = .requester n → pos t = .release ∨ pos t = .notifyAll →
      l' = .release ∨ l' = .notifyAll) : Notifies (Function.update pos t l') := by
  obtain ⟨n, hn⟩ := h
  refine ⟨n, ?_⟩
  by_cases heq : t = .requester n
  · subst heq
    rw [Function.update_self]
    exact ht n rfl hn
  · rwa [Function.update_of_ne (Ne.symm heq)]

/-- Nobody sleeps. -/
theorem Sleeps.of_nil {s' : Shared} {pos' : ThreadId → Point} (h : s'.cv.sleepers = []) :
    Sleeps s' pos' where
  alone := .inl h
  notifies hmem := by
    rw [h] at hmem
    cases hmem
  returned _ _ := h

/-- `main` goes to sleep only with a notification to come. -/
theorem main_sleeps (h : Sleeps s pos) (hstage : Stage s (pos .main))
    (htold : ∀ n, pos (.requester n) = .done → s.requested = true) (i : Outside) :
    Sleeps (main i s (pos .main)).2 (Function.update pos .main (main i s (pos .main)).1) := by
  have hawake : pos .main ≠ .asleep → s.cv.sleepers = [] :=
    fun hne => h.alone.resolve_right fun hs => hne hs.2
  cases hpos : pos .main with
  | sleep =>
      rw [hpos] at hstage hawake
      have hnil : s.cv.sleepers = [] := hawake (by simp)
      have hnot : s.requested ≠ true := by simp [show s.requested = false from hstage.2]
      refine ⟨.inr ⟨by simp [main, CondVar.sleep, CondVar.settle, hnil], Function.update_self ..⟩,
        fun _ hrequested => absurd hrequested hnot, fun n hdone => ?_⟩
      rw [Function.update_of_ne (by simp)] at hdone
      exact absurd (htold n hdone) hnot
  | asleep =>
      simp only [main]
      split
      next =>
        refine .of_nil ?_
        rcases h.alone with hnil | ⟨hmain, -⟩
        · simp [CondVar.wake, hnil]
        · simp [CondVar.wake, hmain]
      next =>
        rw [← hpos, Function.update_eq_self]
        exact h
  | lock =>
      rw [hpos] at hawake
      simp only [main, Shared.lock]
      split <;> exact .of_nil (hawake (by simp))
  | join caller =>
      rw [hpos] at hawake
      simp only [main]
      repeat' split
      all_goals exact .of_nil (hawake (by simp))
  | _ =>
      rw [hpos] at hawake
      exact .of_nil (hawake (by simp))

/-- The listener does not wake it. -/
theorem listener_sleeps (h : Sleeps s pos) (i : Outside) (point l' : Point) :
    Sleeps (listener i s point).2 (Function.update pos .listener l') := by
  have hsame : ∀ s' : Shared, s'.cv = s.cv → s'.requested = s.requested →
      Sleeps s' (Function.update pos .listener l') := by
    intro s' hcv hrequested
    constructor
    · rw [hcv, Function.update_of_ne (by decide)]
      exact h.alone
    · rw [hcv, hrequested]
      exact fun hmem hdone => (h.notifies hmem hdone).update nofun
    · intro n hdone
      rw [Function.update_of_ne (by simp)] at hdone
      rw [hcv]
      exact h.returned n hdone
  cases point with
  | listen =>
      simp only [listener]
      split <;> exact hsame _ rfl rfl
  | _ => exact hsame _ rfl rfl

/-- A request for shutdown notifies it after its flag is set. -/
theorem requestShutdown_sleeps (h : Sleeps s pos) (n : Nat) :
    Sleeps (requestShutdown n s (pos (.requester n))).2
      (Function.update pos (.requester n) (requestShutdown n s (pos (.requester n))).1) := by
  have hmain : ∀ l', Function.update pos (.requester n) l' .main = pos .main :=
    fun l' => Function.update_of_ne (by simp) _ _
  have hsame : ∀ (s' : Shared) (l' : Point), s'.cv = s.cv →
      (s'.requested = s.requested ∧ (pos (.requester n) = .release ∨
          pos (.requester n) = .notifyAll → l' = .release ∨ l' = .notifyAll) ∨ l' = .release) →
      (l' = .done → pos (.requester n) = .done) →
      Sleeps s' (Function.update pos (.requester n) l') := by
    intro s' l' hcv hto hend
    constructor
    · rw [hcv, hmain]
      exact h.alone
    · intro hmem hdone
      rw [hcv] at hmem
      rcases hto with ⟨hrequested, hon⟩ | hrelease
      · rw [hrequested] at hdone
        exact (h.notifies hmem hdone).update fun _ _ => hon
      · exact ⟨n, by simp [hrelease]⟩
    · intro m hdone
      rw [hcv]
      by_cases hm : m = n
      · subst hm
        rw [Function.update_self] at hdone
        exact h.returned m (hend hdone)
      · rw [Function.update_of_ne (by simpa using hm)] at hdone
        exact h.returned m hdone
  cases hpos : pos (.requester n) with
  | start =>
      simp only [requestShutdown, Shared.lock]
      split <;> exact hsame _ _ rfl (.inl ⟨rfl, by simp [hpos]⟩) (by simp)
  | store => exact hsame _ _ rfl (.inr rfl) (by simp [requestShutdown])
  | release => exact hsame _ _ rfl (.inl ⟨rfl, fun _ => .inr rfl⟩) (by simp [requestShutdown])
  | notifyAll => exact .of_nil rfl
  | _ => exact hsame _ _ rfl (.inl ⟨rfl, by simp [hpos]⟩) (by simp [hpos, requestShutdown])

/-- What holds at every moment. -/
structure Inv (s : Shared) (pos : ThreadId → Point) : Prop where
  stage : Stage s (pos .main)
  heard : Heard s (pos .listener)
  exited : s.listenerExited = true → ∃ failed, pos .listener = .exited failed
  holds : ∀ t, (pos t).inside = true ↔ s.holder = some t
  told : ∀ n, (pos (.requester n)).asked = true → s.requested = true
  sleeps : Sleeps s pos

/-- `main` does not end the listener. -/
theorem main_exited (i : Outside) (l : Point) :
    (main i s l).2.listenerExited = s.listenerExited := by
  cases l with
  | lock | asleep =>
      simp only [main, Shared.lock]
      split <;> rfl
  | join caller =>
      simp only [main]
      repeat' split
      all_goals rfl
  | _ => rfl

/-- Nor does a request for shutdown. -/
theorem requestShutdown_exited (n : Nat) (l : Point) :
    (requestShutdown n s l).2.listenerExited = s.listenerExited := by
  cases l with
  | start =>
      simp only [requestShutdown, Shared.lock]
      split <;> rfl
  | _ => rfl

/-- The listener ends when it returns. -/
theorem listener_exited {l : Point} (hgoes : l.ended = false)
    (h : s.listenerExited = true → ∃ failed, l = .exited failed) (i : Outside) :
    (listener i s l).2.listenerExited = true → ∃ failed, (listener i s l).1 = .exited failed := by
  have hnot : s.listenerExited = false := by
    cases hexited : s.listenerExited with
    | false => rfl
    | true =>
        obtain ⟨failed, rfl⟩ := h hexited
        cases hgoes
  cases l with
  | exit failed => exact fun _ => ⟨failed, rfl⟩
  | listen =>
      simp only [listener]
      split <;> simp [hnot]
  | _ => simp [listener, hnot]

/-- What a requester means for what the listener knows. -/
theorem Heard.requestShutdown {l : Point} (h : Heard s l) (n : Nat) (point : Point) :
    Heard (requestShutdown n s point).2 l := by
  have hsame : ∀ s' : Shared, s'.launched = s.launched → s'.log = s.log → Heard s' l := by
    intro s' hlaunched hlog
    cases l with
    | start => exact fun hmem => h (hlog ▸ hmem)
    | listen | storeFailed => exact ⟨hlaunched.trans h.1, fun hmem => h.2 (hlog ▸ hmem)⟩
    | exit | exited => exact hlaunched.trans h
    | _ => exact h
  cases point with
  | start =>
      simp only [Server.requestShutdown, Shared.lock]
      split <;> exact hsame _ rfl rfl
  | _ => exact hsame _ rfl rfl

/-- A request for shutdown sets the flag in one step. -/
theorem requestShutdown_requested {n : Nat} {l : Point} (hl : l ≠ .store) :
    (requestShutdown n s l).2.requested = s.requested := by
  cases l with
  | store => exact absurd rfl hl
  | start =>
      simp only [requestShutdown, Shared.lock]
      split <;> rfl
  | _ => rfl

/-- `main` never sets it. -/
theorem main_requested (i : Outside) (l : Point) :
    (main i s l).2.requested = s.requested := by
  cases l with
  | lock | asleep =>
      simp only [main, Shared.lock]
      split <;> rfl
  | join caller =>
      simp only [main]
      repeat' split
      all_goals rfl
  | _ => rfl

/-- Nor does the listener. -/
theorem listener_requested (i : Outside) (l : Point) :
    (listener i s l).2.requested = s.requested := by
  cases l with
  | listen =>
      simp only [listener]
      split <;> rfl
  | _ => rfl

/-- Past that step the flag is set. -/
theorem requestShutdown_told {n : Nat} {l : Point} (h : l.asked = true → s.requested = true) :
    (requestShutdown n s l).1.asked = true → (requestShutdown n s l).2.requested = true := by
  cases l with
  | start =>
      simp only [requestShutdown, Shared.lock]
      split <;> exact nofun
  | store => exact fun _ => rfl
  | release | notifyAll => exact fun _ => h rfl
  | _ => exact h

/-- Every move keeps what holds at every moment. -/
theorem Inv.step (h : Inv s pos) (t : ThreadId) (i : Outside) (hgoes : (pos t).ended = false) :
    Inv (act t (pos t) i s).2 (Function.update pos t (act t (pos t) i s).1) := by
  have hholds := (act_mutex t (pos t) i).holds h.holds
  cases t with
  | main =>
      refine ⟨?_, ?_, ?_, hholds, fun n hasked => ?_,
        main_sleeps h.sleeps h.stage (fun n hdone => h.told n (by rw [hdone]; rfl)) i⟩
      · rw [Function.update_self]
        exact h.stage.main hgoes i
      · rw [Function.update_of_ne (by decide)]
        exact h.heard.main i _
      · rw [Function.update_of_ne (by decide)]
        exact fun hexited => h.exited ((main_exited i _).symm.trans hexited)
      · rw [Function.update_of_ne (by simp)] at hasked
        exact (main_requested i _).trans (h.told n hasked)
  | listener =>
      refine ⟨?_, ?_, ?_, hholds, fun n hasked => ?_, listener_sleeps h.sleeps i _ _⟩
      · rw [Function.update_of_ne (by decide)]
        exact h.stage.lasts (listener_lasts h.heard i) fun _ => listener_requested i _
      · rw [Function.update_self]
        exact h.heard.listener i hgoes
      · rw [Function.update_self]
        exact listener_exited hgoes h.exited i
      · rw [Function.update_of_ne (by simp)] at hasked
        exact (listener_requested i _).trans (h.told n hasked)
  | requester n =>
      refine ⟨?_, ?_, ?_, hholds, fun m hasked => ?_, requestShutdown_sleeps h.sleeps n⟩
      · rw [Function.update_of_ne (by simp)]
        refine h.stage.lasts (requestShutdown_lasts n _) fun hsleep => ?_
        refine requestShutdown_requested fun hstore => ?_
        -- both would have the mutex
        have hmain := (h.holds .main).mp (by rw [hsleep]; rfl)
        have hother := (h.holds (.requester n)).mp (by rw [hstore]; rfl)
        rw [hmain] at hother
        cases hother
      · rw [Function.update_of_ne (by simp)]
        exact h.heard.requestShutdown n _
      · rw [Function.update_of_ne (by simp)]
        exact fun hexited => h.exited ((requestShutdown_exited n _).symm.trans hexited)
      · by_cases hm : m = n
        · subst hm
          rw [Function.update_self] at hasked
          exact requestShutdown_told (h.told m) hasked
        · rw [Function.update_of_ne (by simpa using hm)] at hasked
          exact (requestShutdown_lasts n _).requested (h.told m hasked)

/-- Along every interleaving. -/
theorem run_inv (schedule : List (ThreadId × Outside)) :
    ∃ pos, (run schedule).Stands Point.ended act pos ∧ Inv (run schedule).state pos := by
  refine Pool.run_positions (fun _ _ => True) ?_ (fun t i s pos _ hgoes h => h.step t i hgoes)
    schedule fun _ _ => trivial
  refine ⟨⟨rfl, rfl, rfl, rfl⟩, List.not_mem_nil, ?_, ?_, fun _ => nofun, .of_nil rfl⟩
  · intro hexited
    cases hexited
  · intro t
    simp [Point.inside]

/-- **How the process ends.**  In every interleaving, when `main` has ended: the
process was terminated if and only if the listener had failed before `stop` was
called first; otherwise `main` returned zero after a requested shutdown, with
the scheduler stopped and the listener's thread joined. -/
theorem process_exit (schedule : List (ThreadId × Outside)) (l : Point) :
    let w := run schedule
    w.threads .main = .ret l → l.ended = true →
      (l = .terminated ↔ w.state.log.head? = some .listenFailed) ∧
      (l ≠ .terminated → l = .returned 0 ∧ w.state.requested = true ∧
        w.state.schedulerStopped = true ∧
          ∃ failed, w.threads .listener = .ret (.exited failed)) := by
  intro w hmain hended
  obtain ⟨pos, hstands, hinv⟩ := run_inv schedule
  have hstage := hinv.stage
  rw [hstands.at_point hmain] at hstage
  cases l with
  | terminated => exact ⟨⟨fun _ => hstage, fun _ => rfl⟩, fun hne => absurd rfl hne⟩
  | returned status =>
      obtain ⟨rfl, hstopped, -, -, hlog, hrequested, hexited⟩ := hstage
      obtain ⟨failed, hpos⟩ := hinv.exited hexited
      refine ⟨⟨nofun, fun hfailed => ?_⟩, fun _ => ⟨rfl, hrequested, hstopped, failed, ?_⟩⟩
      · rw [hlog] at hfailed
        cases hfailed
      · rw [← hpos]
        exact hstands.at_end (by rw [hpos]; rfl)
  | exited | done => exact hstage.elim
  | _ => cases hended

end Runs

/-- A thread moves `k` times, and nothing happens to it. -/
def turns (t : ThreadId) (k : Nat) : List (ThreadId × Outside) := List.replicate k (t, {})

/-- The listener moves on, and `listen` returns with this answer. -/
def listenReturns (answer : Bool) : List (ThreadId × Outside) :=
  [(.listener, { listened := some answer })]

/-- `main` waits for the shutdown when the listener fails, and the shutdown is
requested afterwards. -/
def failedLater : List (ThreadId × Outside) :=
  turns .main 20 ++ turns .listener 3 ++ listenReturns false ++ turns .listener 5 ++
    turns (.requester 0) 10 ++ turns .main 40

/-- The process is terminated in the end, as the listener had failed before. -/
theorem process_exit_sample :
    let w := run failedLater
    w.threads .main = .ret .terminated ∧ w.state.schedulerStopped = true ∧
      w.state.log.head? = some .listenFailed := by
  have hmain : (run failedLater).threads .main = .ret .terminated := rfl
  exact ⟨hmain, by decide +kernel, ((process_exit failedLater .terminated hmain rfl).1).mp rfl⟩

/-- **A shutdown is not slept through.**  In every interleaving, once a call of
`request_shutdown` has returned, `main` never sleeps again without having been
notified; and when it sleeps while the flag is set already, some call is about to
notify it. -/
theorem shutdown_heard (schedule : List (ThreadId × Outside)) :
    let w := run schedule
    (∀ n, w.threads (.requester n) = .ret .done →
      w.state.requested = true ∧ w.state.cv.sleepers = []) ∧
    (.main ∈ w.state.cv.sleepers → w.state.requested = true →
      ∃ n, w.threads (.requester n) ≠ .ret .start ∧ w.threads (.requester n) ≠ .ret .done) := by
  intro w
  obtain ⟨pos, hstands, hinv⟩ := run_inv schedule
  constructor
  · intro n hdone
    have hpos := hstands.at_point hdone
    exact ⟨hinv.told n (by rw [hpos]; rfl), hinv.sleeps.returned n hpos⟩
  · intro hmem hrequested
    obtain ⟨n, hn⟩ := hinv.sleeps.notifies hmem hrequested
    refine ⟨n, fun hstart => ?_, fun hdone => ?_⟩
    · simp [hstands.at_point hstart] at hn
    · simp [hstands.at_point hdone] at hn

/-- The call has returned, and `main` is awake. -/
theorem shutdown_heard_sample :
    let before := turns .main 20 ++ turns (.requester 0) 6
    let w := run (before ++ turns (.requester 0) 4)
    .main ∈ (run before).state.cv.sleepers ∧ (run before).state.requested = true ∧
      (∃ n, (run before).threads (.requester n) ≠ .ret .start ∧
        (run before).threads (.requester n) ≠ .ret .done) ∧
      w.state.cv.sleepers = [] := by
  intro before w
  have hmem : .main ∈ (run before).state.cv.sleepers := by decide +kernel
  have hrequested : (run before).state.requested = true := by decide +kernel
  have hheard := (shutdown_heard (before ++ turns (.requester 0) 4)).1 0 rfl
  exact ⟨hmem, hrequested, (shutdown_heard before).2 hmem hrequested, hheard.2⟩

end Server

end Qwen
