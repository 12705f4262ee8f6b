import WinInference.Concurrency.Positions

/-!
# Cancellation tokens

`CancellationToken` (`utils/cancellation.hpp`).  Any number of calls of `cancel`
and `on_cancel` run side by side; each call is a thread, and its control points
are its atomic accesses and the steps under the lock.  A call that does not get
the lock tries again.

`ran` is a history variable: the callbacks in the order in which they were run.
-/

namespace Qwen

open Concurrency

namespace CancellationToken

/-- The calls on one token; the callback registered by a call is named after it. -/
inductive Call where
  | cancel (n : Nat)
  | onCancel (n : Nat)
deriving DecidableEq

/-- The token, with the call that holds its mutex. -/
structure Token where
  cancelled : Bool := false
  mutex : Option Call := none
  callbacks : List Nat := []
  ran : List Nat := []

/-- The points of a call. -/
inductive Point where
  | start
  /-- about to take the mutex -/
  | lock
  /-- the mutex is held -/
  | locked
  /-- `cancel` in its loop, with the callbacks still to come -/
  | each (rest : List Nat)
  /-- `on_cancel` found the token cancelled -/
  | runNow
  /-- `on_cancel` did not -/
  | store
  | unlock
  | returned
deriving DecidableEq

/-- The call is over. -/
def Point.ended : Point → Bool
  | .returned => true
  | _ => false

/-- Take the mutex, if it is free. -/
def takeMutex (call : Call) (s : Token) : Point × Token :=
  match s.mutex with
  | none => (.locked, { s with mutex := some call })
  | some _ => (.lock, s)

/-- What a call does at each point. -/
def act (call : Call) (point : Point) (_ : Unit) (s : Token) : Point × Token :=
  match call, point with
  | .cancel _, .start =>
      -- the exchange of the flag
      (if s.cancelled then .returned else .lock, { s with cancelled := true })
  | .onCancel _, .start => (.lock, s)
  | call, .lock => takeMutex call s
  | .cancel _, .locked => (.each s.callbacks, s)
  | .cancel _, .each (callback :: rest) => (.each rest, { s with ran := s.ran ++ [callback] })
  | .cancel _, .each [] => (.unlock, { s with callbacks := [] })
  | .onCancel _, .locked => (if s.cancelled then .runNow else .store, s)
  | .onCancel n, .runNow => (.unlock, { s with ran := s.ran ++ [n] })
  | .onCancel n, .store => (.unlock, { s with callbacks := s.callbacks ++ [n] })
  | _, .unlock => (.returned, { s with mutex := none })
  | _, point => (point, s)

/-- A token and the calls on it, before any of them. -/
def initial : Pool Call Unit Token Point := ⟨{}, fun _ => .ret .start⟩

/-- An interleaving of the calls. -/
def run (schedule : List (Call × Unit)) : Pool Call Unit Token Point :=
  initial.run (perPoint Point.ended act) schedule

/-! ## Where the calls stand -/

/-- The points at which the mutex is held. -/
def Point.Inside : Point → Prop
  | .locked | .each _ | .runNow | .store | .unlock => True
  | _ => False

/-- The callback of a call is stored or was run. -/
def Point.Done : Point → Prop
  | .unlock | .returned => True
  | _ => False

instance : DecidablePred Point.Inside := fun p => by
  cases p <;> unfold Point.Inside <;> infer_instance

instance : DecidablePred Point.Done := fun p => by
  cases p <;> unfold Point.Done <;> infer_instance

/-- What holds of the token and of where its calls stand. -/
structure Inv (s : Token) (pos : Call → Point) : Prop where
  mutex : ∀ t, s.mutex = some t ↔ (pos t).Inside
  cancel_point : ∀ m, pos (.cancel m) ≠ .runNow ∧ pos (.cancel m) ≠ .store
  onCancel_point : ∀ n rest, pos (.onCancel n) ≠ .each rest
  /-- outside of the loop of `cancel`, a callback is stored or was run -/
  stored : (∀ m rest, pos (.cancel m) ≠ .each rest) → ∀ n,
    s.ran.count n + s.callbacks.count n = if (pos (.onCancel n)).Done then 1 else 0
  /-- inside of it, it is still to come or was run -/
  running : ∀ m rest, pos (.cancel m) = .each rest → ∀ n,
    s.ran.count n + rest.count n = if (pos (.onCancel n)).Done then 1 else 0
  idle : s.cancelled = false →
    s.ran = [] ∧ (∀ m, pos (.cancel m) = .start) ∧ ∀ n, pos (.onCancel n) ≠ .runNow
  called : s.cancelled = true → ∃ m, pos (.cancel m) ≠ .start
  /-- a `cancel` is on its way to the loop, or the loop has been -/
  swept : s.cancelled = true →
    (∃ m, pos (.cancel m) = .lock ∨ pos (.cancel m) = .locked ∨
      ∃ rest, pos (.cancel m) = .each rest) ∨
    (s.callbacks = [] ∧ ∀ n, pos (.onCancel n) ≠ .store)

theorem inv_initial : Inv {} fun _ => .start := by
  constructor <;> simp [Point.Inside, Point.Done]

section Steps

variable {s : Token} {pos : Call → Point} {m n : Nat}

/-- The exchange of the flag. -/
theorem Inv.cancel_start (h : Inv s pos) (hp : pos (.cancel m) = .start) :
    Inv { s with cancelled := true }
      (Function.update pos (.cancel m) (if s.cancelled then .returned else .lock)) := by
  obtain ⟨hmutex, hcancel, honCancel, hstored, hrunning, hidle, hcalled, hswept⟩ := h
  constructor
  case stored =>
    intro hno k
    have hno' : ∀ m' rest, pos (.cancel m') ≠ .each rest := by
      intro m' rest
      have hnew := hno m' rest
      grind
    have hcount := hstored hno' k
    grind
  all_goals grind [Point.Inside, Point.Done]

/-- The mutex is free and taken. -/
theorem Inv.take {call : Call} (h : Inv s pos) (hp : pos call = .lock) (hfree : s.mutex = none) :
    Inv { s with mutex := some call } (Function.update pos call .locked) := by
  obtain ⟨hmutex, hcancel, honCancel, hstored, hrunning, hidle, hcalled, hswept⟩ := h
  constructor
  case stored =>
    intro hno k
    have hno' : ∀ m' rest, pos (.cancel m') ≠ .each rest := by
      intro m' rest heach
      have hinside : (pos (.cancel m')).Inside := by
        rw [heach]
        trivial
      have hholder := (hmutex _).2 hinside
      rw [hfree] at hholder
      cases hholder
    have hcount := hstored hno' k
    grind [Point.Done]
  all_goals grind [Point.Inside, Point.Done]

/-- The loop begins. -/
theorem Inv.cancel_locked (h : Inv s pos) (hp : pos (.cancel m) = .locked) :
    Inv s (Function.update pos (.cancel m) (.each s.callbacks)) := by
  obtain ⟨hmutex, hcancel, honCancel, hstored, hrunning, hidle, hcalled, hswept⟩ := h
  constructor
  all_goals grind [Point.Inside, Point.Done]

/-- One callback. -/
theorem Inv.cancel_each {callback : Nat} {rest : List Nat} (h : Inv s pos)
    (hp : pos (.cancel m) = .each (callback :: rest)) :
    Inv { s with ran := s.ran ++ [callback] } (Function.update pos (.cancel m) (.each rest)) := by
  obtain ⟨hmutex, hcancel, honCancel, hstored, hrunning, hidle, hcalled, hswept⟩ := h
  have hcount := hrunning m (callback :: rest) hp
  constructor
  case stored =>
    intro hno
    have hself := hno m rest
    simp at hself
  case running =>
    intro m' rest' hp' k
    have hrest : rest' = rest := by
      grind [Point.Inside]
    subst hrest
    have hk := hcount k
    simp only [List.count_append, List.count_cons, List.count_nil] at hk ⊢
    rw [Function.update_of_ne (by simp)]
    omega
  all_goals grind [Point.Inside, Point.Done]

/-- The loop ends. -/
theorem Inv.cancel_clear (h : Inv s pos) (hp : pos (.cancel m) = .each []) :
    Inv { s with callbacks := [] } (Function.update pos (.cancel m) .unlock) := by
  obtain ⟨hmutex, hcancel, honCancel, hstored, hrunning, hidle, hcalled, hswept⟩ := h
  constructor
  all_goals grind [Point.Inside, Point.Done]

/-- `on_cancel` goes for the lock. -/
theorem Inv.onCancel_start (h : Inv s pos) (hp : pos (.onCancel n) = .start) :
    Inv s (Function.update pos (.onCancel n) .lock) := by
  obtain ⟨hmutex, hcancel, honCancel, hstored, hrunning, hidle, hcalled, hswept⟩ := h
  constructor
  all_goals grind [Point.Inside, Point.Done]

/-- The test of the flag under the lock. -/
theorem Inv.onCancel_locked (h : Inv s pos) (hp : pos (.onCancel n) = .locked) :
    Inv s (Function.update pos (.onCancel n) (if s.cancelled then .runNow else .store)) := by
  obtain ⟨hmutex, hcancel, honCancel, hstored, hrunning, hidle, hcalled, hswept⟩ := h
  constructor
  all_goals grind [Point.Inside, Point.Done]

/-- The callback is run at once. -/
theorem Inv.onCancel_runNow (h : Inv s pos) (hp : pos (.onCancel n) = .runNow) :
    Inv { s with ran := s.ran ++ [n] } (Function.update pos (.onCancel n) .unlock) := by
  obtain ⟨hmutex, hcancel, honCancel, hstored, hrunning, hidle, hcalled, hswept⟩ := h
  constructor
  all_goals grind [Point.Inside, Point.Done]

/-- The callback is stored. -/
theorem Inv.onCancel_store (h : Inv s pos) (hp : pos (.onCancel n) = .store) :
    Inv { s with callbacks := s.callbacks ++ [n] }
      (Function.update pos (.onCancel n) .unlock) := by
  obtain ⟨hmutex, hcancel, honCancel, hstored, hrunning, hidle, hcalled, hswept⟩ := h
  constructor
  all_goals grind [Point.Inside, Point.Done]

/-- The lock is released. -/
theorem Inv.unlock {call : Call} (h : Inv s pos) (hp : pos call = .unlock) :
    Inv { s with mutex := none } (Function.update pos call .returned) := by
  obtain ⟨hmutex, hcancel, honCancel, hstored, hrunning, hidle, hcalled, hswept⟩ := h
  constructor
  all_goals grind [Point.Inside, Point.Done]

/-- No move. -/
theorem Inv.stay {call : Call} (h : Inv s pos) : Inv s (Function.update pos call (pos call)) := by
  rw [Function.update_eq_self]
  exact h

/-- A try for the mutex. -/
theorem Inv.takeMutex {call : Call} (h : Inv s pos) (hp : pos call = .lock) :
    Inv (takeMutex call s).2 (Function.update pos call (takeMutex call s).1) := by
  unfold CancellationToken.takeMutex
  cases hfree : s.mutex with
  | none => exact h.take hp hfree
  | some holder =>
      show Inv s (Function.update pos call .lock)
      rw [← hp]
      exact h.stay

/-- **One step.** -/
theorem Inv.act (h : Inv s pos) (call : Call) :
    Inv (act call (pos call) () s).2 (Function.update pos call (act call (pos call) () s).1) := by
  cases call with
  | cancel m =>
      cases hp : pos (.cancel m) with
      | start => exact h.cancel_start hp
      | lock => exact h.takeMutex hp
      | locked => exact h.cancel_locked hp
      | each rest =>
          cases rest with
          | nil => exact h.cancel_clear hp
          | cons callback rest => exact h.cancel_each hp
      | runNow => exact absurd hp (h.cancel_point m).1
      | store => exact absurd hp (h.cancel_point m).2
      | unlock => exact h.unlock hp
      | returned =>
          show Inv s (Function.update pos (.cancel m) .returned)
          rw [← hp]
          exact h.stay
  | onCancel n =>
      cases hp : pos (.onCancel n) with
      | start => exact h.onCancel_start hp
      | lock => exact h.takeMutex hp
      | locked => exact h.onCancel_locked hp
      | each rest => exact absurd hp (h.onCancel_point n rest)
      | runNow => exact h.onCancel_runNow hp
      | store => exact h.onCancel_store hp
      | unlock => exact h.unlock hp
      | returned =>
          show Inv s (Function.update pos (.onCancel n) .returned)
          rw [← hp]
          exact h.stay

end Steps

/-! ## Whole runs -/

/-- Along every interleaving. -/
theorem run_inv (schedule : List (Call × Unit)) :
    ∃ pos, (run schedule).Stands Point.ended act pos ∧ Inv (run schedule).state pos :=
  Pool.run_positions (fun _ _ => True) inv_initial (fun t _ _ _ _ _ h => h.act t)
    schedule fun _ _ => trivial

/-- When every call that began has returned, no lock is held and no loop runs. -/
theorem Inv.settled {s : Token} {pos : Call → Point} (h : Inv s pos)
    (hquiet : ∀ t, pos t = .start ∨ pos t = .returned) :
    (∀ n, s.ran.count n + s.callbacks.count n = if pos (.onCancel n) = .returned then 1 else 0) ∧
      ((∃ m, pos (.cancel m) = .returned) → s.callbacks = []) ∧
      ((∀ m, pos (.cancel m) = .start) → s.ran = []) := by
  refine ⟨fun n => ?_, fun hcancelled => ?_, fun hnone => ?_⟩
  · have hno : ∀ m rest, pos (.cancel m) ≠ .each rest := by
      intro m rest heach
      rcases hquiet (.cancel m) with hm | hm <;> rw [hm] at heach <;> cases heach
    rw [h.stored hno n]
    rcases hquiet (.onCancel n) with hn | hn <;> simp [hn, Point.Done]
  · obtain ⟨m, hm⟩ := hcancelled
    have hflag : s.cancelled = true := by
      cases hflag : s.cancelled with
      | true => rfl
      | false =>
          have hstart := (h.idle hflag).2.1 m
          rw [hm] at hstart
          cases hstart
    rcases h.swept hflag with ⟨m', hway⟩ | ⟨hempty, -⟩
    · have hm' := hquiet (.cancel m')
      grind
    · exact hempty
  · have hflag : s.cancelled = false := by
      cases hflag : s.cancelled with
      | false => rfl
      | true =>
          obtain ⟨m, hm⟩ := h.called hflag
          exact absurd (hnone m) hm
    exact (h.idle hflag).1

/-- The call has not begun. -/
def NotCalled (w : Pool Call Unit Token Point) (call : Call) : Prop :=
  w.threads call = .ret .start

/-- The call is done. -/
def HasReturned (w : Pool Call Unit Token Point) (call : Call) : Prop :=
  w.threads call = .ret .returned

/-- **Callbacks run exactly once.**  Once every call that began has returned:
after some `cancel` each registered callback has been run once, and none is
left; without one, nothing was run and each registered callback is stored. -/
theorem run_callbacks_once (schedule : List (Call × Unit))
    (hquiet : ∀ call, NotCalled (run schedule) call ∨ HasReturned (run schedule) call) :
    ((∃ m, HasReturned (run schedule) (.cancel m)) →
      (run schedule).state.callbacks = [] ∧
        (∀ n, HasReturned (run schedule) (.onCancel n) →
          (run schedule).state.ran.count n = 1) ∧
        ∀ n, NotCalled (run schedule) (.onCancel n) → n ∉ (run schedule).state.ran) ∧
    ((∀ m, NotCalled (run schedule) (.cancel m)) →
      (run schedule).state.ran = [] ∧
        (∀ n, HasReturned (run schedule) (.onCancel n) →
          (run schedule).state.callbacks.count n = 1) ∧
        ∀ n, NotCalled (run schedule) (.onCancel n) → n ∉ (run schedule).state.callbacks) := by
  obtain ⟨pos, hstands, hinv⟩ := run_inv schedule
  have hpos : ∀ call, pos call = .start ∨ pos call = .returned := by
    intro call
    rcases hquiet call with hcall | hcall
    · exact .inl (hstands.at_point hcall)
    · exact .inr (hstands.at_point hcall)
  obtain ⟨hcount, hcancelled, hnone⟩ := hinv.settled hpos
  refine ⟨?_, ?_⟩
  · rintro ⟨m, hm⟩
    have hempty := hcancelled ⟨m, hstands.at_point hm⟩
    refine ⟨hempty, fun n hn => ?_, fun n hn => ?_⟩
    · have hcount := hcount n
      rw [hempty, hstands.at_point hn] at hcount
      simpa using hcount
    · have hcount := hcount n
      rw [hempty, hstands.at_point hn] at hcount
      exact List.count_eq_zero.1 (by simpa using hcount)
  · intro hall
    have hran := hnone fun m => hstands.at_point (hall m)
    refine ⟨hran, fun n hn => ?_, fun n hn => ?_⟩
    · have hcount := hcount n
      rw [hran, hstands.at_point hn] at hcount
      simpa using hcount
    · have hcount := hcount n
      rw [hran, hstands.at_point hn] at hcount
      exact List.count_eq_zero.1 (by simpa using hcount)

/-- Two entries of the schedule for each point. -/
def points (call : Call) (k : Nat) : List (Call × Unit) :=
  List.replicate (2 * k) (call, ())

/-- A registration that found the flag clear, and a `cancel` that set it before
the callback was stored and had to wait for the lock. -/
def racing : List (Call × Unit) :=
  points (.onCancel 0) 3 ++ points (.cancel 1) 2 ++ points (.onCancel 0) 2 ++
    points (.cancel 1) 5

theorem run_racing :
    (run racing).state = ⟨true, none, [], [0]⟩ ∧
      HasReturned (run racing) (.onCancel 0) ∧ HasReturned (run racing) (.cancel 1) ∧
      ∀ call, call ≠ .onCancel 0 → call ≠ .cancel 1 → NotCalled (run racing) call := by
  refine ⟨rfl, rfl, rfl, fun call hregister hcancel => ?_⟩
  refine Pool.run_unscheduled fun e he hcall => ?_
  simp only [racing, points, List.mem_append] at he
  rcases he with ((he | he) | he) | he
  all_goals
    obtain rfl := List.eq_of_mem_replicate he
    subst hcall
  · exact hregister rfl
  · exact hcancel rfl
  · exact hregister rfl
  · exact hcancel rfl

theorem run_callbacks_once_racing :
    (run racing).state.callbacks = [] ∧ (run racing).state.ran.count 0 = 1 := by
  obtain ⟨-, hregister, hcancel, hothers⟩ := run_racing
  have hquiet : ∀ call, NotCalled (run racing) call ∨ HasReturned (run racing) call := by
    intro call
    by_cases hr : call = .onCancel 0
    · exact .inr (hr ▸ hregister)
    · by_cases hc : call = .cancel 1
      · exact .inr (hc ▸ hcancel)
      · exact .inl (hothers call hr hc)
  obtain ⟨hempty, hran, -⟩ := (run_callbacks_once racing hquiet).1 ⟨1, hcancel⟩
  exact ⟨hempty, hran 0 hregister⟩

end CancellationToken

end Qwen
