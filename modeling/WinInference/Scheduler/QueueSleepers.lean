import WinInference.Scheduler.QueueCalls

/-!
# The sleeping consumers of a token queue

`pop` sleeps on the condition variable of the queue, and `push` and `close`
notify.  Any number of consumers may sleep, be woken by chance or time out, and
one that comes anew may take an event that another was notified for.  Still no
consumer sleeps on while an event is there for it.

`Registered` counts the consumers on the condition variable against the
positions of the threads, and `Watch` says what a thread at each point owes the
others: a notification that it has still to make, or a test that it has still to
repeat.  `push_watch`, `pop_watch` and `close_watch` keep it, and `run_inv`
holds in every interleaving.
-/

namespace Qwen

open Concurrency

namespace QueueCalls

/-- On the way to the queue, or asleep. -/
def Point.waiting : Point → Bool
  | .asleep | .relock _ | .test _ | .sleep | .testEmpty | .takeFront | .dropFront _ => true
  | _ => false

/-- The lists of a condition variable are those of consumers where they may be. -/
structure Registered (c : CondVar Call) (pos : Call → Point) : Prop where
  nodup : c.all.Nodup
  consumers : ∀ t ∈ c.all, ∃ n, t = .pop n
  sleepers : ∀ t ∈ c.sleepers, pos t = .asleep
  notified : ∀ t ∈ c.notified, (pos t).waiting = true
  asleep : ∀ t, pos t = .asleep → t ∈ c.all

section Registered

variable {c : CondVar Call} {pos : Call → Point} {t : Call} {l' : Point}

/-- The consumers are the same, and `t` moves on. -/
theorem Registered.quiet (h : Registered c pos) (hasleep : l' = .asleep ↔ pos t = .asleep)
    (hwaiting : (pos t).waiting = true → l'.waiting = true) :
    Registered c (Function.update pos t l') where
  nodup := h.nodup
  consumers := h.consumers
  sleepers u hu := by
    by_cases heq : u = t
    · subst heq
      rw [Function.update_self]
      exact hasleep.mpr (h.sleepers u hu)
    · rw [Function.update_of_ne heq]
      exact h.sleepers u hu
  notified u hu := by
    by_cases heq : u = t
    · subst heq
      rw [Function.update_self]
      exact hwaiting (h.notified u hu)
    · rw [Function.update_of_ne heq]
      exact h.notified u hu
  asleep u hu := by
    by_cases heq : u = t
    · subst heq
      rw [Function.update_self] at hu
      exact h.asleep u (hasleep.mp hu)
    · rw [Function.update_of_ne heq] at hu
      exact h.asleep u hu

/-- A call that is on no list moves on. -/
theorem Registered.aside (h : Registered c pos) (ht : t ∉ c.all) (hl' : l' ≠ .asleep) :
    Registered c (Function.update pos t l') where
  nodup := h.nodup
  consumers := h.consumers
  sleepers u hu := by
    have hne : u ≠ t := fun heq => ht (heq ▸ List.mem_append_left _ hu)
    rw [Function.update_of_ne hne]
    exact h.sleepers u hu
  notified u hu := by
    have hne : u ≠ t := fun heq => ht (heq ▸ List.mem_append_right _ hu)
    rw [Function.update_of_ne hne]
    exact h.notified u hu
  asleep u hu := by
    by_cases heq : u = t
    · subst heq
      rw [Function.update_self] at hu
      exact absurd hu hl'
    · rw [Function.update_of_ne heq] at hu
      exact h.asleep u hu

theorem Registered.wake (h : Registered c pos) (hpos : pos t = .asleep) (hl' : l' ≠ .asleep)
    (hwaiting : l'.waiting = true) : Registered (c.wake t) (Function.update pos t l') where
  nodup := h.nodup.sublist (c.all_wake t)
  consumers u hu := h.consumers u ((c.all_wake t).subset hu)
  sleepers u hu := by
    obtain ⟨hne, hmem⟩ := (List.Nodup.mem_erase_iff h.nodup.of_append_left).mp hu
    rw [Function.update_of_ne hne]
    exact h.sleepers u hmem
  notified u hu := by
    by_cases heq : u = t
    · subst heq
      rw [Function.update_self]
      exact hwaiting
    · rw [Function.update_of_ne heq]
      exact h.notified u hu
  asleep u hu := by
    by_cases heq : u = t
    · subst heq
      rw [Function.update_self] at hu
      exact absurd hu hl'
    · rw [Function.update_of_ne heq] at hu
      rcases List.mem_append.mp (h.asleep u hu) with hmem | hmem
      · exact List.mem_append_left _ ((List.mem_erase_of_ne heq).mpr hmem)
      · exact List.mem_append_right _ hmem

theorem Registered.settle (h : Registered c pos) (hpos : pos t ≠ .asleep) (hl' : l' ≠ .asleep) :
    Registered (c.settle t) (Function.update pos t l') := by
  have hnot : t ∉ (c.settle t).all := by
    intro hmem
    rcases List.mem_append.mp hmem with hmem | hmem
    · exact hpos (h.sleepers t hmem)
    · exact ((List.Nodup.mem_erase_iff h.nodup.of_append_right).mp hmem).1 rfl
  have hsettled : Registered (c.settle t) pos :=
    { nodup := h.nodup.sublist (c.all_settle t)
      consumers := fun u hu => h.consumers u ((c.all_settle t).subset hu)
      sleepers := h.sleepers
      notified := fun u hu => h.notified u (List.mem_of_mem_erase hu)
      asleep := fun u hu => by
        have hne : u ≠ t := fun heq => hpos (heq ▸ hu)
        rcases List.mem_append.mp (h.asleep u hu) with hmem | hmem
        · exact List.mem_append_left _ hmem
        · exact List.mem_append_right _ ((List.mem_erase_of_ne hne).mpr hmem) }
  exact hsettled.aside hnot hl'

/-- A consumer falls asleep. -/
theorem Registered.sleep {n : Nat} (h : Registered c pos) (hpos : pos (.pop n) ≠ .asleep) :
    Registered ((c.settle (.pop n)).sleep (.pop n)) (Function.update pos (.pop n) .asleep) := by
  have hsettled : Registered (c.settle (.pop n)) (Function.update pos (.pop n) .start) :=
    h.settle hpos nofun
  have hnot : .pop n ∉ (c.settle (.pop n)).all := by
    intro hmem
    rcases List.mem_append.mp hmem with hmem | hmem
    · exact hpos (h.sleepers _ hmem)
    · exact ((List.Nodup.mem_erase_iff h.nodup.of_append_right).mp hmem).1 rfl
  have hperm := (c.settle (.pop n)).all_sleep (.pop n)
  constructor
  · exact hperm.nodup_iff.mpr (List.nodup_cons.mpr ⟨hnot, hsettled.nodup⟩)
  · intro u hu
    rcases List.mem_cons.mp (hperm.mem_iff.mp hu) with rfl | hold
    · exact ⟨n, rfl⟩
    · exact hsettled.consumers u hold
  · intro u hu
    rcases List.mem_append.mp hu with hold | hnew
    · have hne : u ≠ .pop n := fun heq => hnot (heq ▸ List.mem_append_left _ hold)
      rw [Function.update_of_ne hne]
      exact h.sleepers u hold
    · obtain rfl := List.mem_singleton.mp hnew
      exact Function.update_self ..
  · intro u hu
    have hu : u ∈ (c.settle (.pop n)).notified := hu
    have hne : u ≠ .pop n := by
      rintro rfl
      exact hnot (List.mem_append_right _ hu)
    rw [Function.update_of_ne hne]
    exact h.notified u (List.mem_of_mem_erase hu)
  · intro u hu
    by_cases heq : u = .pop n
    · subst heq
      exact hperm.mem_iff.mpr List.mem_cons_self
    · rw [Function.update_of_ne heq] at hu
      refine hperm.mem_iff.mpr (List.mem_cons_of_mem _ (hsettled.asleep u ?_))
      rw [Function.update_of_ne heq]
      exact hu

theorem Registered.notifyOne (h : Registered c pos) (pick : Nat) :
    Registered (c.notifyOne pick) pos where
  nodup := (c.all_notifyOne pick).nodup_iff.mpr h.nodup
  consumers u hu := h.consumers u ((c.all_notifyOne pick).mem_iff.mp hu)
  sleepers u hu := h.sleepers u (CondVar.mem_sleepers_notifyOne hu)
  notified u hu := by
    rcases List.mem_append.mp (CondVar.mem_notified_notifyOne hu) with hmem | hmem
    · rw [h.sleepers u hmem]
      rfl
    · exact h.notified u hmem
  asleep u hu := (c.all_notifyOne pick).mem_iff.mpr (h.asleep u hu)

theorem Registered.notifyAll (h : Registered c pos) : Registered c.notifyAll pos where
  nodup := c.all_notifyAll.nodup_iff.mpr h.nodup
  consumers u hu := h.consumers u (c.all_notifyAll.mem_iff.mp hu)
  sleepers u hu := absurd hu List.not_mem_nil
  notified u hu := by
    rcases List.mem_append.mp hu with hmem | hmem
    · exact h.notified u hmem
    · rw [h.sleepers u hmem]
      rfl
  asleep u hu := c.all_notifyAll.mem_iff.mpr (h.asleep u hu)

end Registered

/-- The notifications to come. -/
def owed (holder : Option Call) (pos : Call → Point) : Nat :=
  match holder with
  | some t => if pos t = .notifyOne then 1 else 0
  | none => 0

/-- What holds of the sleeping consumers. -/
structure Watch (s : Shared) (pos : Call → Point) : Prop where
  registered : Registered s.cv pos
  awake : CondVar.Awake s.data.events.length (owed s.holder pos) s.cv
  /-- nobody sleeps at a closed queue, once `close` has notified -/
  opened : s.data.closed = true → (∀ t, s.holder = some t → pos t ≠ .notifyAll) →
    s.cv.sleepers = []

section Watch

variable {event : Nat → TokenEvent} {s : Shared} {pos : Call → Point} {t : Call} {l' : Point}

theorem owed_update_holder (l' : Point) :
    owed (some t) (Function.update pos t l') = if l' = .notifyOne then 1 else 0 := by
  rw [owed, Function.update_self]

theorem owed_update_other {holder : Option Call} (h : holder ≠ some t) (l' : Point) :
    owed holder (Function.update pos t l') = owed holder pos := by
  cases holder with
  | none => rfl
  | some u =>
      have hne : u ≠ t := fun heq => h (heq ▸ rfl)
      rw [owed, owed, Function.update_of_ne hne]

/-- A call that does not have the mutex moves on outside. -/
theorem Watch.away (h : Watch s pos) (ht : s.holder ≠ some t) {c : CondVar Call}
    (hregistered : Registered c (Function.update pos t l'))
    (hawake : ∀ n, CondVar.Awake s.data.events.length n s.cv →
      CondVar.Awake s.data.events.length n c)
    (hsleepers : s.cv.sleepers = [] → c.sleepers = []) :
    Watch { s with cv := c } (Function.update pos t l') where
  registered := hregistered
  awake := by
    show CondVar.Awake s.data.events.length (owed s.holder _) c
    rw [owed_update_other ht]
    exact hawake _ h.awake
  opened hclosed hnot := by
    refine hsleepers (h.opened hclosed fun u hu => ?_)
    have hne : u ≠ t := fun heq => ht (heq ▸ hu)
    have hpos := hnot u hu
    rwa [Function.update_of_ne hne] at hpos

/-- A call takes the mutex. -/
theorem Watch.enter (h : Watch s pos) (hfree : s.holder = none)
    (hregistered : Registered s.cv (Function.update pos t l')) :
    Watch { s with holder := some t } (Function.update pos t l') where
  registered := hregistered
  awake := by
    have hawake := h.awake
    rw [hfree] at hawake
    exact hawake.of_le (Nat.add_le_add_left (Nat.zero_le _) _)
  opened hclosed _ := h.opened hclosed fun u hu => by
    rw [hfree] at hu
    cases hu

/-- What is known while `t` has the mutex. -/
theorem Watch.held (h : Watch s pos) {l : Point} (hpos : pos t = l) (hl : l.inside = true)
    (hholds : (pos t).inside = true ↔ s.holder = some t) :
    s.holder = some t ∧
      CondVar.Awake s.data.events.length (if l = .notifyOne then 1 else 0) s.cv ∧
      (l ≠ .notifyAll → s.data.closed = true → s.cv.sleepers = []) := by
  have ht : s.holder = some t := hholds.mp (hpos ▸ hl)
  refine ⟨ht, ?_, fun hne hclosed => h.opened hclosed fun u hu => ?_⟩
  · have hawake := h.awake
    rwa [ht, owed, hpos] at hawake
  · rw [ht] at hu
    obtain rfl := Option.some.inj hu
    rwa [hpos]

/-- A call that is outside does not have the mutex. -/
theorem not_held {l : Point} (hpos : pos t = l) (hl : l.inside = false)
    (hholds : (pos t).inside = true ↔ s.holder = some t) : s.holder ≠ some t := by
  intro hheld
  rw [← hholds, hpos, hl] at hheld
  cases hheld

/-- The call that has the mutex does something, and keeps it or not. -/
theorem Watch.inside {s' : Shared} (ht : s'.holder = some t ∨ s'.holder = none)
    (hregistered : Registered s'.cv (Function.update pos t l'))
    (hawake : CondVar.Awake s'.data.events.length
      (if s'.holder = some t ∧ l' = .notifyOne then 1 else 0) s'.cv)
    (hopened : s'.data.closed = true → (s'.holder = some t → l' ≠ .notifyAll) →
      s'.cv.sleepers = []) :
    Watch s' (Function.update pos t l') where
  registered := hregistered
  awake := by
    rcases ht with ht | ht <;> rw [ht] at hawake ⊢
    · rw [owed_update_holder]
      simpa using hawake
    · simpa [owed] using hawake
  opened hclosed hnot := by
    refine hopened hclosed fun hheld => ?_
    have hpos := hnot t hheld
    rwa [Function.update_self] at hpos

/-- Taking the mutex, or waiting for it. -/
theorem Watch.lock (h : Watch s pos) (ht : s.holder ≠ some t) (next : Point)
    (hpos : pos t ≠ .asleep) (hnext : next ≠ .asleep)
    (hwaiting : (pos t).waiting = true → next.waiting = true) :
    Watch (s.lock t next (pos t)).2 (Function.update pos t (s.lock t next (pos t)).1) := by
  unfold Shared.lock
  split
  next hfree =>
    refine h.enter hfree (h.registered.quiet ?_ hwaiting)
    simp [hpos, hnext]
  next => exact h.away ht (h.registered.quiet Iff.rfl id) (fun _ => id) id

theorem Watch.unlock (h : Watch s pos) {o : Outcome} (hpos : pos t = .unlock o)
    (hholds : (pos t).inside = true ↔ s.holder = some t) :
    Watch (s.unlock t o).2 (Function.update pos t (s.unlock t o).1) := by
  obtain ⟨-, hawake, hopened⟩ := h.held hpos rfl hholds
  refine Watch.inside (.inr rfl) (h.registered.quiet ?_ ?_) ?_
    fun hclosed _ => hopened (by simp) hclosed
  · simp [hpos, Shared.unlock]
  · simp [hpos, Point.waiting]
  · refine hawake.of_le ?_
    simp [Shared.unlock]

/-- A point that the call never reaches. -/
theorem Watch.stuck (h : Watch s pos) (hpos : pos t = l') : Watch s (Function.update pos t l') := by
  rw [← hpos, Function.update_eq_self]
  exact h

theorem push_watch (n : Nat) (i : Wake) (h : Watch s pos)
    (hholds : (pos (.push n)).inside = true ↔ s.holder = some (.push n)) :
    Watch (push event n i s (pos (.push n))).2
      (Function.update pos (.push n) (push event n i s (pos (.push n))).1) := by
  cases hpos : pos (.push n) with
  | start =>
      have hfree := not_held hpos rfl hholds
      have hlock := h.lock hfree .testClosed (by simp [hpos]) (by simp) (by simp [hpos, Point.waiting])
      rwa [hpos] at hlock
  | testClosed | testSize =>
      obtain ⟨hheld, hawake, hopened⟩ := h.held hpos rfl hholds
      refine Watch.inside (.inl hheld) (h.registered.quiet ?_ ?_) ?_
        fun hclosed _ => hopened (by simp) hclosed
      · simp only [push, hpos]
        split <;> simp
      · simp [hpos, Point.waiting]
      · exact hawake.of_le (Nat.add_le_add_left (Nat.zero_le _) _)
  | countDrop =>
      obtain ⟨hheld, hawake, hopened⟩ := h.held hpos rfl hholds
      refine Watch.inside (.inl hheld) (h.registered.quiet ?_ ?_) ?_
        fun hclosed _ => hopened (by simp) hclosed
      · simp [push, hpos]
      · simp [hpos, Point.waiting]
      · exact hawake.of_le (Nat.add_le_add_left (Nat.zero_le _) _)
  | enqueue =>
      obtain ⟨hheld, hawake, hopened⟩ := h.held hpos rfl hholds
      refine Watch.inside (.inl hheld) (h.registered.quiet ?_ ?_) ?_
        fun hclosed _ => hopened (by simp) hclosed
      · simp [push, hpos]
      · simp [hpos, Point.waiting]
      · -- the event is paid for by the notification
        refine hawake.of_le ?_
        simp [push, hheld]
  | notifyOne =>
      obtain ⟨hheld, hawake, hopened⟩ := h.held hpos rfl hholds
      refine Watch.inside (.inl hheld) ((h.registered.notifyOne i.pick).quiet ?_ ?_) ?_
        fun hclosed _ => ?_
      · simp [push, hpos]
      · simp [hpos, Point.waiting]
      · refine (CondVar.Awake.notifyOne ?_ i.pick).of_le (Nat.le_refl _)
        refine hawake.of_le ?_
        simp [push]
      · have hnone : s.cv.sleepers = [] := hopened (by simp) hclosed
        refine List.eq_nil_iff_forall_not_mem.mpr fun u hu => ?_
        have hmem := CondVar.mem_sleepers_notifyOne hu
        rw [hnone] at hmem
        cases hmem
  | unlock o =>
      exact h.unlock hpos hholds
  | test | sleep | asleep | relock | testEmpty | takeFront | dropFront | setClosed | notifyAll |
      done =>
      exact h.stuck hpos

theorem pop_watch (n : Nat) (i : Wake) (h : Watch s pos)
    (hholds : (pos (.pop n)).inside = true ↔ s.holder = some (.pop n))
    (hidle : pos (.pop n) = .sleep → s.data.events = [] ∧ s.data.closed = false) :
    Watch (pop n i s (pos (.pop n))).2
      (Function.update pos (.pop n) (pop n i s (pos (.pop n))).1) := by
  cases hpos : pos (.pop n) with
  | start =>
      have hfree := not_held hpos rfl hholds
      have hlock := h.lock hfree (.test false) (by simp [hpos]) (by simp) (fun _ => rfl)
      rwa [hpos] at hlock
  | relock late =>
      have hfree := not_held hpos rfl hholds
      have hlock := h.lock hfree (.test late) (by simp [hpos]) (by simp) (fun _ => rfl)
      rwa [hpos] at hlock
  | test late =>
      obtain ⟨hheld, hawake, hopened⟩ := h.held hpos rfl hholds
      simp only [pop]
      split
      next =>
        refine Watch.inside (.inl hheld) (h.registered.quiet ?_ fun _ => rfl) ?_
          fun hclosed _ => hopened (by simp) hclosed
        · simp [hpos]
        · exact hawake.of_le (Nat.add_le_add_left (Nat.zero_le _) _)
      next hnothing =>
        have hempty : s.data.events = [] := not_not.mp fun hsome => hnothing (Or.inl hsome)
        split
        next =>
          refine Watch.inside (.inl hheld) (h.registered.settle (by simp [hpos]) (by simp)) ?_
            fun hclosed _ => hopened (by simp) hclosed
          show CondVar.Awake s.data.events.length _ _
          rw [hempty]
          exact CondVar.Awake.none _ _
        next =>
          refine Watch.inside (.inl hheld) (h.registered.quiet ?_ fun _ => rfl) ?_
            fun hclosed _ => hopened (by simp) hclosed
          · simp [hpos]
          · exact hawake.of_le (Nat.add_le_add_left (Nat.zero_le _) _)
  | sleep =>
      obtain ⟨hempty, hopen⟩ := hidle hpos
      refine Watch.inside (.inr rfl) (h.registered.sleep (by simp [hpos])) ?_ fun hclosed _ => ?_
      · show CondVar.Awake s.data.events.length _ _
        rw [hempty]
        exact CondVar.Awake.none _ _
      · have hclosed : s.data.closed = true := hclosed
        rw [hopen] at hclosed
        cases hclosed
  | asleep =>
      have hfree := not_held hpos rfl hholds
      have hwake {l' : Point} (hl' : l' ≠ .asleep) (hwaiting : l'.waiting = true) :
          Watch { s with cv := s.cv.wake (.pop n) } (Function.update pos (.pop n) l') := by
        refine h.away hfree (h.registered.wake hpos hl' hwaiting) (fun _ ha => ha.wake _) fun hnil => ?_
        simp [CondVar.wake, hnil]
      simp only [pop]
      split
      · exact hwake (by simp) rfl
      · split
        · exact hwake (by simp) rfl
        · exact h.stuck hpos
  | testEmpty =>
      obtain ⟨hheld, hawake, hopened⟩ := h.held hpos rfl hholds
      simp only [pop]
      split
      next hempty =>
        refine Watch.inside (.inl hheld) (h.registered.settle (by simp [hpos]) (by simp)) ?_
          fun hclosed _ => hopened (by simp) hclosed
        show CondVar.Awake s.data.events.length _ _
        rw [hempty]
        exact CondVar.Awake.none _ _
      next =>
        refine Watch.inside (.inl hheld) (h.registered.quiet ?_ fun _ => rfl) ?_
          fun hclosed _ => hopened (by simp) hclosed
        · simp [hpos]
        · exact hawake.of_le (Nat.add_le_add_left (Nat.zero_le _) _)
  | takeFront =>
      obtain ⟨hheld, hawake, hopened⟩ := h.held hpos rfl hholds
      simp only [pop]
      split
      next => exact h.stuck hpos
      next =>
        refine Watch.inside (.inl hheld) (h.registered.quiet ?_ fun _ => rfl) ?_
          fun hclosed _ => hopened (by simp) hclosed
        · simp [hpos]
        · exact hawake.of_le (Nat.add_le_add_left (Nat.zero_le _) _)
  | dropFront front =>
      obtain ⟨hheld, hawake, hopened⟩ := h.held hpos rfl hholds
      refine Watch.inside (.inl hheld) (h.registered.settle (by simp [hpos]) (by simp [pop])) ?_
        fun hclosed _ => hopened (by simp) hclosed
      -- one event less, and one consumer less to look for it
      show CondVar.Awake s.data.events.tail.length _ _
      cases hevents : s.data.events with
      | nil => exact CondVar.Awake.none _ _
      | cons first rest =>
          rw [hevents] at hawake
          refine CondVar.Awake.settle (hawake.of_le ?_) _
          simp
  | unlock o => exact h.unlock hpos hholds
  | testClosed | testSize | countDrop | enqueue | notifyOne | setClosed | notifyAll | done =>
      exact h.stuck hpos

theorem close_watch (n : Nat) (h : Watch s pos)
    (hholds : (pos (.close n)).inside = true ↔ s.holder = some (.close n)) :
    Watch (close n s (pos (.close n))).2
      (Function.update pos (.close n) (close n s (pos (.close n))).1) := by
  cases hpos : pos (.close n) with
  | start =>
      have hfree := not_held hpos rfl hholds
      have hlock := h.lock hfree .setClosed (by simp [hpos]) (by simp) (by simp [hpos, Point.waiting])
      rwa [hpos] at hlock
  | setClosed =>
      obtain ⟨hheld, hawake, -⟩ := h.held hpos rfl hholds
      refine Watch.inside (.inl hheld) (h.registered.quiet ?_ ?_) ?_ fun _ hnot => ?_
      · simp [close, hpos]
      · simp [hpos, Point.waiting]
      · exact hawake.of_le (Nat.add_le_add_left (Nat.zero_le _) _)
      · exact absurd rfl (hnot hheld)
  | notifyAll =>
      obtain ⟨hheld, -, -⟩ := h.held hpos rfl hholds
      refine Watch.inside (.inl hheld) (h.registered.notifyAll.quiet ?_ ?_) ?_ fun _ _ => rfl
      · simp [close, hpos]
      · simp [hpos, Point.waiting]
      · exact CondVar.Awake.notifyAll _ _ _
  | unlock o => exact h.unlock hpos hholds
  | testClosed | testSize | countDrop | enqueue | notifyOne | test | sleep | asleep | relock |
      testEmpty | takeFront | dropFront | done =>
      exact h.stuck hpos

end Watch

/-! ## Runs -/

section Runs

variable {event : Nat → TokenEvent}

/-- What holds at every moment. -/
structure Inv (event : Nat → TokenEvent) (maxSize : Nat) (s : Shared) (pos : Call → Point) :
    Prop where
  serial : Serial (sections event) { maxSize := maxSize } s.toGuarded pos
  watch : Watch s pos

theorem Inv.step {maxSize : Nat} {s : Shared} {pos : Call → Point} (h : Inv event maxSize s pos)
    (t : Call) (i : Wake) (hgoes : (pos t).ended = false) :
    Inv event maxSize (act event t (pos t) i s).2
      (Function.update pos t (act event t (pos t) i s).1) := by
  have hleft := left?_of_goes hgoes
  refine ⟨h.serial.step hleft (act_move i hleft), ?_⟩
  have hholds := h.serial.holds t
  cases t with
  | push n => exact push_watch n i h.watch hholds
  | pop n =>
      refine pop_watch n i h.watch hholds fun hpos => ?_
      obtain ⟨d, -, -, hduring⟩ := h.serial.replays
      have hsleep := hduring (.pop n) (hholds.mp (by rw [hpos]; rfl))
      rw [hpos] at hsleep
      exact hsleep.2
  | close n => exact close_watch n h.watch hholds

/-- Along every interleaving. -/
theorem run_inv (event : Nat → TokenEvent) (maxSize : Nat) (schedule : List (Call × Wake)) :
    ∃ pos, (run event maxSize schedule).Stands Point.ended (act event) pos ∧
      Inv event maxSize (run event maxSize schedule).state pos := by
  refine Pool.run_positions (fun _ _ => True) ⟨Serial.initial _ _ rfl rfl, ?_⟩
    (fun t i s pos _ hgoes h => h.step t i hgoes) schedule fun _ _ => trivial
  refine ⟨⟨List.nodup_nil, ?_, ?_, ?_, nofun⟩, CondVar.Awake.none _ _, nofun⟩ <;>
    exact fun _ h => absurd h List.not_mem_nil

/-! ### The sleepers -/

/-- The call is in the middle of a `pop`. -/
def Pops (w : Pool Call Wake Shared Point) (t : Call) : Prop :=
  (∃ n, t = .pop n) ∧ w.threads t ≠ .ret .start ∧ ∀ o, w.threads t ≠ .ret (.done o)

/-- Who is on a list is in the middle of a `pop`. -/
theorem Registered.pops {c : CondVar Call} {pos : Call → Point} (h : Registered c pos)
    {w : Pool Call Wake Shared Point} (hstands : w.Stands Point.ended (act event) pos)
    {t : Call} (ht : t ∈ c.all) : Pops w t := by
  have hwaiting : (pos t).waiting = true := by
    rcases List.mem_append.mp ht with hmem | hmem
    · rw [h.sleepers t hmem]
      rfl
    · exact h.notified t hmem
  refine ⟨h.consumers t ht, fun hstart => ?_, fun o hdone => ?_⟩
  · rw [hstands.at_point hstart] at hwaiting
    cases hwaiting
  · rw [hstands.at_point hdone] at hwaiting
    cases hwaiting

/-- **No consumer is forgotten.**  Along every interleaving of any calls, while
nobody has the mutex and some consumer sleeps without having been notified, the
queue is open, and for each event on it another consumer was notified and is on
its way; so a consumer that is alone sleeps only at an empty queue. -/
theorem consumer_awake (event : Nat → TokenEvent) (maxSize : Nat)
    (schedule : List (Call × Wake)) :
    let w := run event maxSize schedule
    ∀ t ∈ w.state.cv.sleepers, w.state.holder = none →
      w.state.data.closed = false ∧ Pops w t ∧
      (∃ others : List Call, others.Nodup ∧ w.state.data.events.length ≤ others.length ∧
        ∀ u ∈ others, u ∈ w.state.cv.notified ∧ u ≠ t ∧ u ∉ w.state.cv.sleepers ∧ Pops w u) ∧
      ((∀ u, Pops w u → u = t) → w.state.data.events = []) := by
  intro w t ht hfree
  obtain ⟨pos, hstands, hinv⟩ := run_inv event maxSize schedule
  obtain ⟨hregistered, hawake, hopened⟩ := hinv.watch
  have hsleeps : w.state.cv.sleepers ≠ [] := List.ne_nil_of_mem ht
  have hothers : ∃ others : List Call, others.Nodup ∧
      w.state.data.events.length ≤ others.length ∧
      ∀ u ∈ others, u ∈ w.state.cv.notified ∧ u ≠ t ∧ u ∉ w.state.cv.sleepers ∧ Pops w u := by
    refine ⟨w.state.cv.notified, hregistered.nodup.of_append_right, ?_, fun u hu => ?_⟩
    · have hsupply := hawake hsleeps
      rw [hfree] at hsupply
      exact hsupply
    · have hapart : u ∉ w.state.cv.sleepers := fun hboth =>
        (List.disjoint_of_nodup_append hregistered.nodup) hboth hu
      refine ⟨hu, ?_, hapart, hregistered.pops hstands (List.mem_append_right _ hu)⟩
      rintro rfl
      exact hapart ht
  refine ⟨?_, hregistered.pops hstands (List.mem_append_left _ ht), hothers, fun halone => ?_⟩
  · cases hclosed : w.state.data.closed with
    | false => rfl
    | true =>
        have hnone : w.state.cv.sleepers = [] := hopened hclosed fun u hu => by
          rw [hfree] at hu
          cases hu
        exact absurd hnone hsleeps
  · obtain ⟨others, -, hsupply, hall⟩ := hothers
    cases others with
    | nil => exact List.length_eq_zero_iff.mp (Nat.le_zero.mp hsupply)
    | cons u rest =>
        obtain ⟨-, hne, -, hpops⟩ := hall u List.mem_cons_self
        exact absurd (halone u hpops) hne

end Runs

/-- The second consumer sleeps on while the first was notified of the event. -/
theorem consumer_awake_sample :
    let w := run letterEvent 4 twoConsumers
    w.state.data.events.length = 1 ∧ w.state.data.closed = false ∧ Pops w (.pop 1) ∧
      ∃ u ∈ w.state.cv.notified, u ≠ .pop 1 ∧ Pops w u := by
  intro w
  have hevent : w.state.data.events.length = 1 := by decide +kernel
  obtain ⟨hclosed, hpops, ⟨others, -, hsupply, hothers⟩, -⟩ :=
    consumer_awake letterEvent 4 twoConsumers (.pop 1) (by decide +kernel) (by decide +kernel)
  refine ⟨hevent, hclosed, hpops, ?_⟩
  obtain ⟨u, hu⟩ := List.exists_mem_of_length_pos (Nat.lt_of_lt_of_le Nat.one_pos
    (hevent ▸ hsupply))
  obtain ⟨hnotified, hne, -, hpop⟩ := hothers u hu
  exact ⟨u, hnotified, hne, hpop⟩

end QueueCalls

end Qwen
