import Mathlib.Data.List.Nodup
import WinInference.Concurrency.Positions

/-!
# Mutexes and condition variables

Data behind a mutex.  A call enters, works on the data in several steps, and
leaves with an outcome; in between it may give the mutex back and enter again.
Whatever the interleaving, the calls that have left have been carried out one
after the other, each at once: that is `Serial`, and `Serial.step` is the rule
for it.

A condition variable is the list of those who sleep on it, and of those who
were notified and have not looked yet.  `Awake` says that no sleeper is
forgotten.
-/

namespace Concurrency

/-! ## Critical sections -/

/-- Data behind a mutex, and what was done to it so far. -/
structure Guarded (T D O : Type) where
  holder : Option T := none
  data : D
  /-- who left with which outcome -/
  history : List (T × O) := []

/-- The operations, carried out at once in this order, lead to `d`. -/
inductive Replays {T D O : Type} (spec : T → O → D → D → Prop) (start : D) :
    List (T × O) → D → Prop where
  | nil : Replays spec start [] start
  | concat {history : List (T × O)} {d d' : D} {t : T} {o : O} (h : Replays spec start history d)
      (hstep : spec t o d d') : Replays spec start (history ++ [(t, o)]) d'

/-- How calls on guarded data are written. -/
structure SectionSetup (T L D O : Type) where
  /-- the call has the mutex there -/
  inside : L → Bool
  /-- it has left there -/
  left? : L → Option O
  /-- what it has done so far to the data it found -/
  during : T → L → D → D → Prop
  /-- what it does -/
  spec : T → O → D → D → Prop
  outside_of_left : ∀ l o, left? l = some o → inside l = false

section Sections

variable {T L D O : Type} [DecidableEq T]

/-- One step of a call, as the mutex sees it. -/
inductive SectionMove (c : SectionSetup T L D O) (t : T) (l l' : L) (g g' : Guarded T D O) :
    Prop where
  | away (hl : c.inside l = false) (hl' : c.inside l' = false) (hleft : c.left? l' = none)
      (hg : g' = g)
  | enter (hl : c.inside l = false) (hl' : c.inside l' = true) (hfree : g.holder = none)
      (hdone : ∀ d, c.during t l' d d) (hg : g' = { g with holder := some t })
  | work (hl : c.inside l = true) (hl' : c.inside l' = true) {d : D}
      (hdone : ∀ d₀, c.during t l d₀ g.data → c.during t l' d₀ d) (hg : g' = { g with data := d })
  | yield (hl : c.inside l = true) (hl' : c.inside l' = false) (hleft : c.left? l' = none)
      (hdone : ∀ d₀, c.during t l d₀ g.data → g.data = d₀) (hg : g' = { g with holder := none })
  | leave (hl : c.inside l = true) {o : O} (hleft : c.left? l' = some o)
      (hdone : ∀ d₀, c.during t l d₀ g.data → c.spec t o d₀ g.data)
      (hg : g' = { g with holder := none, history := g.history ++ [(t, o)] })

/-- The calls that have left were carried out one after the other, and the call
that has the mutex has got as far as its point says. -/
structure Serial (c : SectionSetup T L D O) (start : D) (g : Guarded T D O) (pos : T → L) :
    Prop where
  replays : ∃ d, Replays c.spec start g.history d ∧ (g.holder = none → g.data = d) ∧
    ∀ t, g.holder = some t → c.during t (pos t) d g.data
  holds : ∀ t, c.inside (pos t) = true ↔ g.holder = some t
  told : ∀ t o, (t, o) ∈ g.history ↔ c.left? (pos t) = some o
  once : (g.history.map Prod.fst).Nodup

variable {c : SectionSetup T L D O} {start : D} {g g' : Guarded T D O} {pos : T → L} {t : T}
  {l' : L}

omit [DecidableEq T] in
/-- A system where nobody has called anything is serial. -/
theorem Serial.initial (c : SectionSetup T L D O) (start : D) {l : L} (hl : c.inside l = false)
    (hleft : c.left? l = none) : Serial c start { data := start } (fun _ => l) where
  replays := ⟨start, .nil, fun _ => rfl, nofun⟩
  holds _ := by simp [hl]
  told _ _ := by simp [hleft]
  once := List.nodup_nil

omit [DecidableEq T] in
/-- Who has the mutex is the one who is inside. -/
theorem Serial.holder_eq (h : Serial c start g pos) {u : T} (ht : c.inside (pos t) = true)
    (hu : g.holder = some u) : u = t :=
  Option.some.inj (hu.symm.trans ((h.holds t).mp ht))

/-- Who is inside after a step of `t`. -/
theorem Serial.holds_update (h : Serial c start g pos) {holder : Option T}
    (ht : c.inside l' = true ↔ holder = some t)
    (hothers : ∀ u, u ≠ t → (g.holder = some u ↔ holder = some u)) (u : T) :
    c.inside (Function.update pos t l' u) = true ↔ holder = some u := by
  by_cases hu : u = t
  · subst hu
    rw [Function.update_self]
    exact ht
  · rw [Function.update_of_ne hu, h.holds u]
    exact hothers u hu

/-- Nobody leaves. -/
theorem Serial.told_update (h : Serial c start g pos) (hl : c.left? (pos t) = none)
    (hl' : c.left? l' = none) (u : T) (o : O) :
    (u, o) ∈ g.history ↔ c.left? (Function.update pos t l' u) = some o := by
  rw [h.told u o]
  by_cases hu : u = t
  · subst hu
    rw [Function.update_self, hl, hl']
  · rw [Function.update_of_ne hu]

/-- **The mutex rule.**  What the steps of the calls keep. -/
theorem Serial.step (h : Serial c start g pos) (hgoes : c.left? (pos t) = none)
    (hmove : SectionMove c t (pos t) l' g g') : Serial c start g' (Function.update pos t l') := by
  have hnot {u : T} (hin : c.inside (pos t) = true) (hu : u ≠ t) : g.holder ≠ some u :=
    fun heq => hu (h.holder_eq hin heq)
  obtain ⟨d₀, hreplays, hfree, hduring⟩ := h.replays
  cases hmove with
  | away hl hl' hleft hg =>
      subst hg
      have hother : g'.holder ≠ some t := fun heq => by
        rw [(h.holds t).mpr heq] at hl
        cases hl
      refine ⟨⟨d₀, hreplays, hfree, fun u hu => ?_⟩, h.holds_update ?_ fun _ _ => Iff.rfl,
        h.told_update hgoes hleft, h.once⟩
      · have hne : u ≠ t := fun heq => hother (heq ▸ hu)
        rw [Function.update_of_ne hne]
        exact hduring u hu
      · simp [hl', hother]
  | enter hl hl' hnone hdone hg =>
      subst hg
      have hleft : c.left? l' = none := by
        cases hleft : c.left? l' with
        | none => rfl
        | some o =>
            rw [c.outside_of_left l' o hleft] at hl'
            cases hl'
      refine ⟨⟨d₀, hreplays, nofun, fun u hu => ?_⟩, h.holds_update (by simp [hl']) ?_,
        h.told_update hgoes hleft, h.once⟩
      · obtain rfl := Option.some.inj hu
        rw [Function.update_self, hfree hnone]
        exact hdone d₀
      · intro u hu
        simp [hnone, Ne.symm hu]
  | work hl hl' hdone hg =>
      subst hg
      have hleft : c.left? l' = none := by
        cases hleft : c.left? l' with
        | none => rfl
        | some o =>
            rw [c.outside_of_left l' o hleft] at hl'
            cases hl'
      have hholder := (h.holds t).mp hl
      refine ⟨⟨d₀, hreplays, fun hno => ?_, fun u hu => ?_⟩, h.holds_update ?_ fun _ _ => Iff.rfl,
        h.told_update hgoes hleft, h.once⟩
      · rw [hholder] at hno
        cases hno
      · obtain rfl := h.holder_eq hl hu
        rw [Function.update_self]
        exact hdone d₀ (hduring _ hu)
      · simp [hl', hholder]
  | yield hl hl' hleft hdone hg =>
      subst hg
      have hholder := (h.holds t).mp hl
      refine ⟨⟨d₀, hreplays, fun _ => hdone d₀ (hduring t hholder), nofun⟩,
        h.holds_update (by simp [hl']) ?_, h.told_update hgoes hleft, h.once⟩
      intro u hu
      simp [hnot hl hu]
  | @leave hl o hleft hdone hg =>
      subst hg
      have hholder := (h.holds t).mp hl
      have hl' := c.outside_of_left l' o hleft
      refine ⟨⟨g.data, hreplays.concat (hdone d₀ (hduring t hholder)), fun _ => rfl, nofun⟩,
        h.holds_update (by simp [hl']) ?_, ?_, ?_⟩
      · intro u hu
        simp [hnot hl hu]
      · intro u o'
        rw [List.mem_append, List.mem_singleton, h.told u o']
        by_cases hu : u = t
        · subst hu
          rw [Function.update_self, hgoes, hleft]
          simp [eq_comm]
        · rw [Function.update_of_ne hu]
          simp [hu]
      · rw [List.map_append, List.nodup_append]
        refine ⟨h.once, List.nodup_singleton t, ?_⟩
        intro u hu v hv
        obtain ⟨⟨u, o'⟩, hmem, rfl⟩ := List.mem_map.mp hu
        obtain rfl := List.mem_singleton.mp hv
        rintro rfl
        rw [(h.told u o').mp hmem] at hgoes
        cases hgoes

end Sections

/-! ## Condition variables -/

/-- Who sleeps on a condition variable, and who was notified and has not dealt
with it yet. -/
structure CondVar (T : Type) where
  sleepers : List T := []
  notified : List T := []

namespace CondVar

variable {T : Type} [DecidableEq T]

/-- A thread goes to sleep on the condition variable. -/
def sleep (t : T) (c : CondVar T) : CondVar T := { c with sleepers := c.sleepers ++ [t] }

/-- `notify_one` wakes some sleeper, if there is one. -/
def notifyOne (pick : Nat) (c : CondVar T) : CondVar T :=
  match c.sleepers[pick % c.sleepers.length]? with
  | none => c
  | some t => { sleepers := c.sleepers.erase t, notified := c.notified ++ [t] }

/-- Every sleeper is notified. -/
def notifyAll (c : CondVar T) : CondVar T := { sleepers := [], notified := c.notified ++ c.sleepers }

/-- A sleeper gets up by itself. -/
def wake (t : T) (c : CondVar T) : CondVar T := { c with sleepers := c.sleepers.erase t }

/-- One who was notified has dealt with it. -/
def settle (t : T) (c : CondVar T) : CondVar T := { c with notified := c.notified.erase t }

/-- There is something for at most as many to do as were notified, besides
`owed` notifications to come, unless nobody sleeps. -/
def Awake (supply owed : Nat) (c : CondVar T) : Prop :=
  c.sleepers ≠ [] → supply ≤ c.notified.length + owed

variable {c : CondVar T} {t : T} {supply owed : Nat}

omit [DecidableEq T] in
/-- Less supply or more notifies owed keep the waiters awake. -/
theorem Awake.of_le (h : Awake supply owed c) {supply' owed' : Nat}
    (hle : supply' + owed ≤ supply + owed') : Awake supply' owed' c := by
  intro hsleepers
  have hsupply := h hsleepers
  omega

omit [DecidableEq T] in
/-- Without supply nobody has to be awake. -/
theorem Awake.none (c : CondVar T) (owed : Nat) : Awake 0 owed c := fun _ => Nat.zero_le _

/-- A sleeper that gets up by itself is not counted on. -/
theorem Awake.wake (h : Awake supply owed c) (t : T) : Awake supply owed (c.wake t) :=
  fun hsleepers => h fun hnil => hsleepers (by simp [CondVar.wake, hnil])

/-- One unit goes to one who was notified. -/
theorem Awake.settle (h : Awake (supply + 1) owed c) (t : T) : Awake supply owed (c.settle t) := by
  intro hsleepers
  have hsupply := h hsleepers
  have hlength : c.notified.length ≤ (c.notified.erase t).length + 1 := by
    by_cases hmem : t ∈ c.notified
    · rw [List.length_erase_of_mem hmem]
      omega
    · rw [List.erase_of_not_mem hmem]
      omega
  show supply ≤ (c.notified.erase t).length + owed
  omega

/-- A notify pays what was owed. -/
theorem Awake.notifyOne (h : Awake supply (owed + 1) c) (pick : Nat) :
    Awake supply owed (c.notifyOne pick) := by
  unfold CondVar.notifyOne
  by_cases hnil : c.sleepers = []
  · rw [hnil]
    exact fun hsleepers => absurd hnil hsleepers
  · have hlt : pick % c.sleepers.length < c.sleepers.length :=
      Nat.mod_lt _ (List.length_pos_iff.mpr hnil)
    rw [List.getElem?_eq_getElem hlt]
    intro _
    have hsupply := h hnil
    simp only [List.length_append, List.length_singleton]
    omega

omit [DecidableEq T] in
/-- After a notify of all, everyone is awake. -/
theorem Awake.notifyAll (c : CondVar T) (supply owed : Nat) : Awake supply owed c.notifyAll :=
  fun hsleepers => absurd rfl hsleepers

/-! ### Who is on the lists -/

/-- The threads on the condition variable, asleep or notified. -/
def all (c : CondVar T) : List T := c.sleepers ++ c.notified

omit [DecidableEq T] in
/-- Going to sleep adds one thread. -/
theorem all_sleep (c : CondVar T) (t : T) : (c.sleep t).all.Perm (t :: c.all) := by
  show (c.sleepers ++ [t] ++ c.notified).Perm (t :: (c.sleepers ++ c.notified))
  rw [List.append_assoc]
  exact List.perm_middle

omit [DecidableEq T] in
/-- A notify of all moves threads and drops none. -/
theorem all_notifyAll (c : CondVar T) : c.notifyAll.all.Perm c.all := by
  show (c.notified ++ c.sleepers).Perm (c.sleepers ++ c.notified)
  exact List.perm_append_comm

/-- A notify moves a thread and drops none. -/
theorem all_notifyOne (c : CondVar T) (pick : Nat) : (c.notifyOne pick).all.Perm c.all := by
  unfold notifyOne
  split
  · exact List.Perm.refl _
  next t ht =>
    show (c.sleepers.erase t ++ (c.notified ++ [t])).Perm (c.sleepers ++ c.notified)
    have hfront := List.perm_cons_erase (List.mem_of_getElem? ht)
    refine List.Perm.trans ?_ (hfront.symm.append_right c.notified)
    rw [← List.append_assoc]
    exact List.perm_append_singleton t _

/-- Waking leaves no thread on the variable that was not there. -/
theorem all_wake (c : CondVar T) (t : T) : (c.wake t).all.Sublist c.all :=
  List.erase_sublist.append_right _

/-- Settling leaves no thread on the variable that was not there. -/
theorem all_settle (c : CondVar T) (t : T) : (c.settle t).all.Sublist c.all :=
  List.erase_sublist.append_left _

/-- A notify puts nobody to sleep. -/
theorem mem_sleepers_notifyOne {pick : Nat} {u : T} (h : u ∈ (c.notifyOne pick).sleepers) :
    u ∈ c.sleepers := by
  unfold notifyOne at h
  split at h
  · exact h
  · exact List.mem_of_mem_erase h

/-- A notify reaches only threads that are on the variable. -/
theorem mem_notified_notifyOne {pick : Nat} {u : T} (h : u ∈ (c.notifyOne pick).notified) :
    u ∈ c.all := by
  unfold notifyOne at h
  split at h
  · exact List.mem_append_right _ h
  next t ht =>
    rcases List.mem_append.mp h with hold | hnew
    · exact List.mem_append_right _ hold
    · obtain rfl := List.mem_singleton.mp hnew
      exact List.mem_append_left _ (List.mem_of_getElem? ht)

end CondVar

end Concurrency
