import WinInference.Concurrency.Monitor
import WinInference.Scheduler.Request

/-!
# The methods of a token queue as threads run them

Elsewhere a method of `TokenQueue` is one action.  Here it is what
`request.hpp` says: it takes the mutex, looks at the fields one after the other,
writes them, notifies, and gives the mutex back; `pop` sleeps in between.  Each
call is a thread, and there may be any number of calls.

The calls are carried out as if each were one action, at a moment between its
beginning and its end.
-/

namespace Qwen

open Concurrency

namespace QueueCalls

/-- A call of a method. -/
inductive Call where
  | push (n : Nat)
  | pop (n : Nat)
  | close (n : Nat)
deriving DecidableEq

/-- What a call returns. -/
inductive Outcome where
  | pushed (taken : Bool)
  | popped (event : Option TokenEvent)
  | closed
deriving DecidableEq

/-- What a sleeping call learns from outside, and whom a notification wakes. -/
structure Wake where
  timedOut : Bool := false
  spurious : Bool := false
  pick : Nat := 0

/-- The queue behind its mutex, and its condition variable. -/
structure Shared extends Guarded Call TokenQueue Outcome where
  cv : CondVar Call := {}

/-- The points of a call. -/
inductive Point where
  | start
  /-- `push`: is the queue closed, is it full? -/
  | testClosed
  | testSize
  | countDrop
  | enqueue
  | notifyOne
  /-- `pop`: the condition of the wait; `late` after the timeout -/
  | test (late : Bool)
  | sleep
  | asleep
  | relock (late : Bool)
  | testEmpty
  | takeFront
  | dropFront (event : TokenEvent)
  | setClosed
  | notifyAll
  /-- the lock goes out of scope -/
  | unlock (outcome : Outcome)
  | done (outcome : Outcome)
deriving DecidableEq

/-- The call has returned. -/
def Point.ended : Point → Bool
  | .done _ => true
  | _ => false

namespace Shared

/-- Take the mutex, or stay where one is. -/
def lock (t : Call) (next stay : Point) (s : Shared) : Point × Shared :=
  if s.holder = none then (next, { s with holder := some t }) else (stay, s)

/-- Leave the mutex and the call. -/
def unlock (t : Call) (outcome : Outcome) (s : Shared) : Point × Shared :=
  (.done outcome, { s with holder := none, history := s.history ++ [(t, outcome)] })

end Shared

section Code

variable (event : Nat → TokenEvent)

/-- `push` of the `n`-th event. -/
def push (n : Nat) (i : Wake) (s : Shared) : Point → Point × Shared
  | .start => s.lock (.push n) .testClosed .start
  | .testClosed => (if s.data.closed then .unlock (.pushed false) else .testSize, s)
  | .testSize => (if s.data.events.length ≥ s.data.maxSize then .countDrop else .enqueue, s)
  | .countDrop =>
      (.unlock (.pushed false),
        { s with data := { s.data with droppedCount := s.data.droppedCount + 1 } })
  | .enqueue =>
      (.notifyOne, { s with data := { s.data with events := s.data.events ++ [event n] } })
  | .notifyOne => (.unlock (.pushed true), { s with cv := s.cv.notifyOne i.pick })
  | .unlock outcome => s.unlock (.push n) outcome
  | point => (point, s)

/-- `pop`.  A call that was notified has dealt with it when it takes an event, or
goes without one. -/
def pop (n : Nat) (i : Wake) (s : Shared) : Point → Point × Shared
  | .start => s.lock (.pop n) (.test false) .start
  | .test late =>
      if s.data.events ≠ [] ∨ s.data.closed then (.testEmpty, s)
      else if late then (.unlock (.popped none), { s with cv := s.cv.settle (.pop n) })
      else (.sleep, s)
  | .sleep =>
      (.asleep, { s with holder := none, cv := (s.cv.settle (.pop n)).sleep (.pop n) })
  | .asleep =>
      if i.timedOut then (.relock true, { s with cv := s.cv.wake (.pop n) })
      else if i.spurious ∨ .pop n ∈ s.cv.notified then
        (.relock false, { s with cv := s.cv.wake (.pop n) })
      else (.asleep, s)
  | .relock late => s.lock (.pop n) (.test late) (.relock late)
  | .testEmpty =>
      if s.data.events = [] then (.unlock (.popped none), { s with cv := s.cv.settle (.pop n) })
      else (.takeFront, s)
  | .takeFront =>
      match s.data.events with
      | [] => (.takeFront, s)
      | front :: _ => (.dropFront front, s)
  | .dropFront front =>
      (.unlock (.popped (some front)),
        { s with data := { s.data with events := s.data.events.tail }
                 cv := s.cv.settle (.pop n) })
  | .unlock outcome => s.unlock (.pop n) outcome
  | point => (point, s)

/-- `close`. -/
def close (n : Nat) (s : Shared) : Point → Point × Shared
  | .start => s.lock (.close n) .setClosed .start
  | .setClosed => (.notifyAll, { s with data := { s.data with closed := true } })
  | .notifyAll => (.unlock .closed, { s with cv := s.cv.notifyAll })
  | .unlock outcome => s.unlock (.close n) outcome
  | point => (point, s)

/-- One step of a call. -/
def act : Call → Point → Wake → Shared → Point × Shared
  | .push n, point, i, s => push event n i s point
  | .pop n, point, i, s => pop n i s point
  | .close n, point, _, s => close n s point

/-- The bodies of the calls. -/
def code : Call → Point → Program Wake Shared Point := perPoint Point.ended (act event)

/-- A new queue and the calls on it, before any of them. -/
def initial (maxSize : Nat) : Pool Call Wake Shared Point :=
  ⟨{ data := { maxSize := maxSize } }, fun _ => .ret .start⟩

/-- An interleaving of the calls. -/
def run (maxSize : Nat) (schedule : List (Call × Wake)) : Pool Call Wake Shared Point :=
  (initial maxSize).run (code event) schedule

/-! ## One action for each call -/

/-- What a call does, as one action. -/
def Does : Call → Outcome → TokenQueue → TokenQueue → Prop
  | .push n, o, q, q' => o = .pushed (q.push (event n)).1 ∧ q' = (q.push (event n)).2
  | .pop _, o, q, q' => o = .popped q.pop.1 ∧ q' = q.pop.2
  | .close _, o, q, q' => o = .closed ∧ q' = q.close

/-- What a call that has the mutex has done to the queue `q₀` it found. -/
def During : Call → Point → TokenQueue → TokenQueue → Prop
  | .push _, .testClosed, q₀, q => q = q₀
  | .push _, .testSize, q₀, q => q = q₀ ∧ q.closed = false
  | .push _, .countDrop, q₀, q => q = q₀ ∧ q.closed = false ∧ q.maxSize ≤ q.events.length
  | .push _, .enqueue, q₀, q => q = q₀ ∧ q.closed = false ∧ q.events.length < q.maxSize
  | .push n, .notifyOne, q₀, q => q₀.push (event n) = (true, q)
  | .pop _, .test _, q₀, q => q = q₀
  | .pop _, .sleep, q₀, q => q = q₀ ∧ q.events = [] ∧ q.closed = false
  | .pop _, .testEmpty, q₀, q => q = q₀
  | .pop _, .takeFront, q₀, q => q = q₀ ∧ q.events ≠ []
  | .pop _, .dropFront front, q₀, q => q = q₀ ∧ q.events.head? = some front
  | .close _, .setClosed, q₀, q => q = q₀
  | .close _, .notifyAll, q₀, q => q = q₀.close
  | t, .unlock o, q₀, q => Does event t o q₀ q
  | _, _, _, _ => False

/-- The points between taking the mutex and giving it back. -/
def Point.inside : Point → Bool
  | .start | .asleep | .relock _ | .done _ => false
  | _ => true

/-- The outcome of a call that has returned. -/
def Point.left? : Point → Option Outcome
  | .done o => some o
  | _ => none

/-- The calls as sections of the mutex. -/
def sections : SectionSetup Call Point TokenQueue Outcome where
  inside := Point.inside
  left? := Point.left?
  during := During event
  spec := Does event
  outside_of_left l o h := by
    cases l <;> simp_all [Point.left?, Point.inside]

end Code

section Serial

variable {event : Nat → TokenEvent} {s : Shared} {t : Call} {l : Point}

/-- Taking the mutex, or waiting for it. -/
theorem lock_move {next stay : Point} (hl : l.inside = false) (hnext : next.inside = true)
    (hstay : stay.inside = false) (hleft : stay.left? = none)
    (hdone : ∀ q, During event t next q q) :
    SectionMove (sections event) t l (s.lock t next stay).1 s.toGuarded
      (s.lock t next stay).2.toGuarded := by
  unfold Shared.lock
  split
  next hfree => exact .enter hl hnext hfree hdone rfl
  next => exact .away hl hstay hleft rfl

theorem unlock_move {o : Outcome}
    (hdone : ∀ q₀ q, During event t (.unlock o) q₀ q → Does event t o q₀ q) :
    SectionMove (sections event) t (.unlock o) (s.unlock t o).1 s.toGuarded
      (s.unlock t o).2.toGuarded :=
  .leave rfl rfl (fun q₀ h => hdone q₀ _ h) rfl

theorem push_move (n : Nat) (i : Wake) (hgoes : l.left? = none) :
    SectionMove (sections event) (.push n) l (push event n i s l).1 s.toGuarded
      (push event n i s l).2.toGuarded := by
  cases l with
  | start => exact lock_move rfl rfl rfl rfl fun _ => rfl
  | testClosed =>
      simp only [push]
      split
      next hclosed =>
        refine .work (d := s.data) rfl rfl (fun q₀ h => ?_) rfl
        obtain rfl : s.data = q₀ := h
        show Does event (.push n) (.pushed false) s.data s.data
        simp [Does, TokenQueue.push, hclosed]
      next hopen =>
        refine .work (d := s.data) rfl rfl (fun q₀ h => ⟨h, ?_⟩) rfl
        simpa using hopen
  | testSize =>
      simp only [push]
      split
      next hfull => exact .work (d := s.data) rfl rfl (fun q₀ h => ⟨h.1, h.2, hfull⟩) rfl
      next hroom =>
        exact .work (d := s.data) rfl rfl (fun q₀ h => ⟨h.1, h.2, Nat.lt_of_not_le hroom⟩) rfl
  | countDrop =>
      refine .work rfl rfl (fun q₀ h => ?_) rfl
      obtain ⟨rfl, hopen, hfull⟩ := h
      show Does event (.push n) (.pushed false) s.data _
      simp [Does, TokenQueue.push, hopen, hfull]
  | enqueue =>
      refine .work rfl rfl (fun q₀ h => ?_) rfl
      obtain ⟨rfl, hopen, hroom⟩ := h
      show s.data.push (event n) = (true, _)
      simp [TokenQueue.push, hopen, Nat.not_le.mpr hroom]
  | notifyOne =>
      refine .work (d := s.data) rfl rfl (fun q₀ h => ?_) rfl
      have hpush : q₀.push (event n) = (true, s.data) := h
      show Does event (.push n) (.pushed true) q₀ s.data
      simp [Does, hpush]
  | unlock o => exact unlock_move fun _ _ h => h
  | done o => cases hgoes
  | test | sleep | testEmpty | takeFront | dropFront | setClosed | notifyAll =>
      exact .work (d := s.data) rfl rfl (fun _ h => h.elim) rfl
  | asleep | relock => exact .away rfl rfl rfl rfl

theorem pop_move (n : Nat) (i : Wake) (hgoes : l.left? = none) :
    SectionMove (sections event) (.pop n) l (pop n i s l).1 s.toGuarded
      (pop n i s l).2.toGuarded := by
  cases l with
  | start => exact lock_move rfl rfl rfl rfl fun _ => rfl
  | test late =>
      simp only [pop]
      split
      next => exact .work (d := s.data) rfl rfl (fun _ h => h) rfl
      next hidle =>
        rw [not_or, not_not, Bool.not_eq_true] at hidle
        split
        next =>
          refine .work (d := s.data) rfl rfl (fun q₀ h => ?_) rfl
          obtain rfl : s.data = q₀ := h
          show Does event (.pop n) (.popped none) s.data s.data
          simp [Does, TokenQueue.pop, hidle.1]
        next => exact .work (d := s.data) rfl rfl (fun _ h => ⟨h, hidle⟩) rfl
  | sleep => exact .yield rfl rfl rfl (fun _ h => h.1) rfl
  | asleep =>
      simp only [pop]
      split
      · exact .away rfl rfl rfl rfl
      · split <;> exact .away rfl rfl rfl rfl
  | relock late => exact lock_move rfl rfl rfl rfl fun _ => rfl
  | testEmpty =>
      simp only [pop]
      split
      next hempty =>
        refine .work (d := s.data) rfl rfl (fun q₀ h => ?_) rfl
        obtain rfl : s.data = q₀ := h
        show Does event (.pop n) (.popped none) s.data s.data
        simp [Does, TokenQueue.pop, hempty]
      next hsome => exact .work (d := s.data) rfl rfl (fun _ h => ⟨h, hsome⟩) rfl
  | takeFront =>
      simp only [pop]
      split
      next hempty => exact .work (d := s.data) rfl rfl (fun _ h => h) rfl
      next front rest hevents =>
        refine .work (d := s.data) rfl rfl (fun _ h => ⟨h.1, ?_⟩) rfl
        rw [hevents]
        rfl
  | dropFront front =>
      refine .work rfl rfl (fun q₀ h => ?_) rfl
      obtain ⟨rfl, hfront⟩ := h
      obtain ⟨rest, hevents⟩ := List.head?_eq_some_iff.mp hfront
      show Does event (.pop n) (.popped (some front)) s.data _
      simp [Does, TokenQueue.pop, hevents]
  | unlock o => exact unlock_move fun _ _ h => h
  | done o => cases hgoes
  | testClosed | testSize | countDrop | enqueue | notifyOne | setClosed | notifyAll =>
      exact .work (d := s.data) rfl rfl (fun _ h => h.elim) rfl

theorem close_move (n : Nat) (hgoes : l.left? = none) :
    SectionMove (sections event) (.close n) l (close n s l).1 s.toGuarded
      (close n s l).2.toGuarded := by
  cases l with
  | start => exact lock_move rfl rfl rfl rfl fun _ => rfl
  | setClosed =>
      refine .work rfl rfl (fun q₀ h => ?_) rfl
      obtain rfl : s.data = q₀ := h
      rfl
  | notifyAll => exact .work (d := s.data) rfl rfl (fun _ h => ⟨rfl, h⟩) rfl
  | unlock o => exact unlock_move fun _ _ h => h
  | done o => cases hgoes
  | asleep | relock => exact .away rfl rfl rfl rfl
  | testClosed | testSize | countDrop | enqueue | notifyOne | test | sleep | testEmpty |
      takeFront | dropFront =>
      exact .work (d := s.data) rfl rfl (fun _ h => h.elim) rfl

theorem act_move (i : Wake) (hgoes : l.left? = none) :
    SectionMove (sections event) t l (act event t l i s).1 s.toGuarded
      (act event t l i s).2.toGuarded := by
  cases t with
  | push n => exact push_move n i hgoes
  | pop n => exact pop_move n i hgoes
  | close n => exact close_move n hgoes

end Serial

/-! ## Runs -/

section Runs

variable {event : Nat → TokenEvent}

theorem left?_of_goes {l : Point} (hgoes : l.ended = false) : l.left? = none := by
  cases l with
  | done o => cases hgoes
  | _ => rfl

/-- The calls are serial along every interleaving. -/
theorem run_serial (event : Nat → TokenEvent) (maxSize : Nat) (schedule : List (Call × Wake)) :
    ∃ pos, (run event maxSize schedule).Stands Point.ended (act event) pos ∧
      Serial (sections event) { maxSize := maxSize } (run event maxSize schedule).state.toGuarded
        pos := by
  refine Pool.run_positions (J := fun (s : Shared) pos => Serial (sections event) { maxSize := maxSize }
    s.toGuarded pos) (fun _ _ => True) (Serial.initial _ _ rfl rfl)
    (fun t i s pos _ hgoes h => ?_) schedule fun _ _ => trivial
  have hleft := left?_of_goes hgoes
  exact h.step hleft (act_move i hleft)

/-! ### The order of the calls -/

theorem lock_history (s : Shared) (t : Call) (next stay : Point) :
    (s.lock t next stay).2.history = s.history := by
  unfold Shared.lock
  split <;> rfl

/-- What was done stays done. -/
theorem act_history (t : Call) (l : Point) (i : Wake) (s : Shared) :
    s.history <+: (act event t l i s).2.history := by
  cases t with
  | push n =>
      cases l with
      | start => exact (lock_history s _ _ _) ▸ List.prefix_rfl
      | unlock o => exact List.prefix_append _ _
      | _ => exact List.prefix_rfl
  | pop n =>
      cases l with
      | start | relock => exact (lock_history s _ _ _) ▸ List.prefix_rfl
      | unlock o => exact List.prefix_append _ _
      | test | testEmpty | takeFront =>
          simp only [act, pop]
          repeat' split
          all_goals exact List.prefix_rfl
      | asleep =>
          simp only [act, pop]
          repeat' split
          all_goals exact List.prefix_rfl
      | _ => exact List.prefix_rfl
  | close n =>
      cases l with
      | start => exact (lock_history s _ _ _) ▸ List.prefix_rfl
      | unlock o => exact List.prefix_append _ _
      | _ => exact List.prefix_rfl

theorem run_history (event : Nat → TokenEvent) (maxSize : Nat) {first schedule : List (Call × Wake)}
    (hfirst : first <+: schedule) :
    (run event maxSize first).state.history <+: (run event maxSize schedule).state.history := by
  obtain ⟨rest, rfl⟩ := hfirst
  induction rest using List.reverseRecOn with
  | nil => simp
  | append_singleton rest e ih =>
      obtain ⟨pos, hstands, -⟩ := run_serial event maxSize (first ++ rest)
      have hrun : run event maxSize (first ++ (rest ++ [e])) =
          (run event maxSize (first ++ rest)).step (code event) e.1 e.2 := by
        rw [← List.append_assoc]
        exact Pool.run_concat _ _ _ _
      rw [hrun]
      obtain ⟨-, hstate⟩ | ⟨-, -, -, hstate⟩ := hstands.step e.1 e.2
      · have hsame := congrArg (fun s : Shared => s.history) hstate
        exact hsame ▸ ih
      · have hacted := congrArg (fun s : Shared => s.history) hstate
        exact ih.trans (hacted ▸ act_history e.1 (pos e.1) e.2 _)

/-- The calls that have returned are those in the history. -/
theorem returned_iff (maxSize : Nat) (schedule : List (Call × Wake)) (t : Call) (o : Outcome) :
    (run event maxSize schedule).threads t = .ret (.done o) ↔
      (t, o) ∈ (run event maxSize schedule).state.history := by
  obtain ⟨pos, hstands, hserial⟩ := run_serial event maxSize schedule
  rw [hserial.told t o]
  constructor
  · intro hdone
    rw [hstands.at_point hdone]
    rfl
  · intro hleft
    have hpos : pos t = .done o := by
      cases hpos : pos t with
      | done o' =>
          rw [hpos] at hleft
          exact congrArg Point.done (Option.some.inj hleft)
      | _ =>
          rw [hpos] at hleft
          cases hleft
    rw [← hpos]
    refine hstands.at_end ?_
    rw [hpos]
    rfl

/-- **Each method is one action.**  Along every interleaving of any calls, the
calls that have returned were carried out one after the other, each at once and
with the result it returned; a call that returned before another began comes
before it; and while nobody has the mutex the queue is what they made of it. -/
theorem queue_linearizable (event : Nat → TokenEvent) (maxSize : Nat)
    (schedule : List (Call × Wake)) :
    let w := run event maxSize schedule
    (∃ q, Replays (Does event) { maxSize := maxSize } w.state.history q ∧
      (w.state.holder = none → w.state.data = q)) ∧
    (w.state.history.map Prod.fst).Nodup ∧
    (∀ t o, w.threads t = .ret (.done o) ↔ (t, o) ∈ w.state.history) ∧
    ∀ first t o u, first <+: schedule →
      (run event maxSize first).threads t = .ret (.done o) →
      (run event maxSize first).threads u = .ret .start →
      ∃ before after, w.state.history = before ++ after ∧ (t, o) ∈ before ∧
        ∀ o', (u, o') ∉ before := by
  intro w
  obtain ⟨pos, hstands, hserial⟩ := run_serial event maxSize schedule
  obtain ⟨q, hreplays, hfree, -⟩ := hserial.replays
  refine ⟨⟨q, hreplays, hfree⟩, hserial.once, returned_iff maxSize schedule, ?_⟩
  intro first t o u hfirst ht hu
  obtain ⟨after, hafter⟩ := run_history event maxSize hfirst
  refine ⟨_, after, hafter.symm, (returned_iff maxSize first t o).mp ht, fun o' hmem => ?_⟩
  rw [(returned_iff maxSize first u o').mpr hmem] at hu
  cases hu

end Runs

/-- A call moves `k` times, and nothing happens to it. -/
def turns (t : Call) (k : Nat) : List (Call × Wake) := List.replicate k (t, {})

/-- Two consumers fall asleep, an event is pushed, and one of them is notified. -/
def twoConsumers : List (Call × Wake) :=
  turns (.pop 0) 7 ++ turns (.pop 1) 7 ++ turns (.push 0) 13

def letterEvent (_ : Nat) : TokenEvent := .token 7 [120]

/-- The push has returned, and the other consumer has not begun. -/
theorem queue_linearizable_sample :
    let w := run letterEvent 4 (twoConsumers ++ turns (.pop 0) 20)
    w.state.history =
      [(.push 0, .pushed true), (.pop 0, .popped (some (.token 7 [120])))] ∧
    ∃ before after, w.state.history = before ++ after ∧ (.push 0, .pushed true) ∈ before ∧
      ∀ o', (.pop 2, o') ∉ before := by
  refine ⟨by decide +kernel, ?_⟩
  refine (queue_linearizable letterEvent 4 (twoConsumers ++ turns (.pop 0) 20)).2.2.2
    twoConsumers (.push 0) (.pushed true) (.pop 2) (List.prefix_append _ _) ?_ ?_
  · exact (returned_iff 4 twoConsumers _ _).mpr (by decide +kernel)
  · exact Pool.run_unscheduled (by decide)

end QueueCalls

end Qwen
