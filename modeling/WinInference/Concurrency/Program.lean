import Mathlib.Data.List.Basic
import Mathlib.Logic.Function.Basic

/-!
# Programs of atomic actions, and pools of threads that run them

A `Program ι σ α` is the body of a thread: a finite tree of atomic actions on
a shared state `σ`.  An action is what the thread does in one critical section
or one atomic access.  It sees one answer `i : ι` of the environment (a clock
reading, the outcome of a foreign call), rewrites the shared state and picks
the rest of the program, both from the answer and the state it found.

Unbounded loops are not in the tree.  A thread that loops has *control points*
`L`: its program ends by naming the point where it goes on, and `code` gives
the body found at each point.

A `Pool` is a family of such threads over one state.  Its runs are driven by a
schedule, the list of who moves next with which answer, so every interleaving
is a list and a run is a fold.
-/

namespace Concurrency

/-- A thread body: atomic actions ending in a value. -/
inductive Program (ι σ α : Type) where
  | ret (a : α)
  | act (update : ι → σ → σ) (next : ι → σ → Program ι σ α)

namespace Program

variable {ι σ α β γ : Type}

/-- Sequential composition. -/
def bind : Program ι σ α → (α → Program ι σ β) → Program ι σ β
  | .ret a, f => f a
  | .act u n, f => .act u (fun i s => (n i s).bind f)

instance : Monad (Program ι σ) where
  pure := .ret
  bind := bind

/-- The monad's `pure` is a finished program. -/
@[simp] theorem pure_eq (a : α) : (pure a : Program ι σ α) = .ret a := rfl

/-- A finished program is followed by the rest. -/
@[simp] theorem ret_bind (a : α) (f : α → Program ι σ β) :
    (Program.ret a >>= f) = f a := rfl

/-- A section is followed by its continuation and the rest. -/
@[simp] theorem act_bind (u : ι → σ → σ) (n : ι → σ → Program ι σ α)
    (f : α → Program ι σ β) :
    (Program.act u n >>= f) = .act u (fun i s => n i s >>= f) := rfl

/-- One atomic action that returns a value. -/
def atomic (f : ι → σ → α × σ) : Program ι σ α :=
  .act (fun i s => (f i s).2) (fun i s => .ret (f i s).1)

/-- One atomic action that only rewrites the state. -/
def update (f : σ → σ) : Program ι σ Unit :=
  atomic (fun _ s => ((), f s))

/-- One atomic action that only looks. -/
def read (f : σ → α) : Program ι σ α :=
  atomic (fun _ s => (f s, s))

/-- Run a program alone, every action fed the same answer. -/
def exec (i : ι) : Program ι σ α → σ → α × σ
  | .ret a, s => (a, s)
  | .act u n, s => (n i s).exec i (u i s)

/-- A finished program runs without a move. -/
@[simp] theorem exec_ret (i : ι) (a : α) (s : σ) :
    (Program.ret a : Program ι σ α).exec i s = (a, s) := rfl

/-- An atomic program runs as its section. -/
@[simp] theorem exec_atomic (i : ι) (f : ι → σ → α × σ) (s : σ) :
    (atomic f).exec i s = f i s := rfl

/-- An update runs as its function on the state. -/
@[simp] theorem exec_update (i : ι) (f : σ → σ) (s : σ) :
    (update f : Program ι σ Unit).exec i s = ((), f s) := rfl

/-- A read leaves the state alone. -/
@[simp] theorem exec_read (i : ι) (f : σ → α) (s : σ) :
    (read f : Program ι σ α).exec i s = (f s, s) := rfl

/-- Undisturbed, a composition runs its parts one after the other. -/
@[simp] theorem exec_bind (i : ι) (p : Program ι σ α) (f : α → Program ι σ β)
    (s : σ) :
    (p >>= f).exec i s = (f (p.exec i s).1).exec i (p.exec i s).2 := by
  induction p generalizing s with
  | ret a => rfl
  | act u n ih => exact ih i s (u i s)

/-- The program has ended, naming the control point `a`. -/
def isAt [DecidableEq α] (a : α) : Program ι σ α → Bool
  | .ret b => b = a
  | .act _ _ => false

/-- The test whether a thread is at a point. -/
theorem isAt_iff [DecidableEq α] {a : α} {p : Program ι σ α} :
    p.isAt a = true ↔ p = .ret a := by
  cases p <;> simp [isAt]

end Program

/-- Threads `T` over one shared state, each with what is left of its program.
A program that has ended stands at the control point it named. -/
structure Pool (T ι σ L : Type) where
  state : σ
  threads : T → Program ι σ L

namespace Pool

variable {T ι σ L : Type} [DecidableEq T]

/-- One step of thread `t`: enter the control point it stands at, or carry out
its next atomic action with answer `i`. -/
def step (code : T → L → Program ι σ L) (w : Pool T ι σ L) (t : T) (i : ι) :
    Pool T ι σ L :=
  match w.threads t with
  | .ret l => { w with threads := Function.update w.threads t (code t l) }
  | .act u n =>
      { state := u i w.state
        threads := Function.update w.threads t (n i w.state) }

/-- Entering a control point. -/
theorem step_ret (code : T → L → Program ι σ L) {w : Pool T ι σ L} {t : T} {l : L}
    (h : w.threads t = .ret l) (i : ι) :
    (w.step code t i).state = w.state ∧ (w.step code t i).threads t = code t l := by
  simp [step, h]

/-- Carrying out an action. -/
theorem step_act (code : T → L → Program ι σ L) {w : Pool T ι σ L} {t : T} {u : ι → σ → σ}
    {n : ι → σ → Program ι σ L} (h : w.threads t = .act u n) (i : ι) :
    (w.step code t i).state = u i w.state ∧ (w.step code t i).threads t = n i w.state := by
  simp [step, h]

/-- Only the thread that moves goes on. -/
theorem step_of_ne {code : T → L → Program ι σ L} (w : Pool T ι σ L) {t u : T} (h : u ≠ t)
    (i : ι) : (w.step code t i).threads u = w.threads u := by
  cases hprog : w.threads t <;> simp [step, hprog, h]

/-- The run of a schedule. -/
def run (code : T → L → Program ι σ L) (w : Pool T ι σ L)
    (schedule : List (T × ι)) : Pool T ι σ L :=
  schedule.foldl (fun w e => w.step code e.1 e.2) w

/-- The empty schedule moves nobody. -/
@[simp] theorem run_nil (code : T → L → Program ι σ L) (w : Pool T ι σ L) :
    w.run code [] = w := rfl

/-- A schedule in two parts is two runs. -/
theorem run_append (code : T → L → Program ι σ L) (w : Pool T ι σ L)
    (left right : List (T × ι)) :
    w.run code (left ++ right) = (w.run code left).run code right :=
  List.foldl_append

/-- The last move of a schedule comes after the others. -/
theorem run_concat (code : T → L → Program ι σ L) (w : Pool T ι σ L)
    (schedule : List (T × ι)) (e : T × ι) :
    w.run code (schedule ++ [e]) = (w.run code schedule).step code e.1 e.2 := by
  simp [run]

/-- A thread that moves alone carries out what is left of its program. -/
theorem run_alone (code : T → L → Program ι σ L) (w : Pool T ι σ L) (t : T) (i : ι) :
    ∃ schedule : List (T × ι), (∀ e ∈ schedule, e.1 = t) ∧
      (w.run code schedule).state = ((w.threads t).exec i w.state).2 ∧
      (w.run code schedule).threads t = .ret ((w.threads t).exec i w.state).1 := by
  generalize hprog : w.threads t = p
  induction p generalizing w with
  | ret l => exact ⟨[], by simp, rfl, hprog⟩
  | act u n ih =>
      obtain ⟨hstate, hthread⟩ := step_act code hprog i
      obtain ⟨rest, hrest, hrun⟩ := ih i w.state (w.step code t i) hthread
      rw [hstate] at hrun
      exact ⟨(t, i) :: rest, by simpa using hrest, hrun⟩

/-- A thread that never moves is where it was. -/
theorem run_unscheduled {code : T → L → Program ι σ L} {w : Pool T ι σ L}
    {schedule : List (T × ι)} {t : T} (h : ∀ e ∈ schedule, e.1 ≠ t) :
    (w.run code schedule).threads t = w.threads t := by
  induction schedule generalizing w with
  | nil => rfl
  | cons e rest ih =>
      have hmoved : t ≠ e.1 := Ne.symm (h e (by simp))
      have hrest := ih (w := w.step code e.1 e.2) fun e' he' => h e' (by simp [he'])
      exact hrest.trans (step_of_ne w hmoved e.2)

/-- Some schedule leads from one pool to the other. -/
def Reaches (code : T → L → Program ι σ L) (w w' : Pool T ι σ L) : Prop :=
  ∃ schedule, w.run code schedule = w'

/-- Every system is reached from itself. -/
theorem Reaches.refl (code : T → L → Program ι σ L) (w : Pool T ι σ L) : Reaches code w w :=
  ⟨[], rfl⟩

/-- What is reached from a reached system is reached. -/
theorem Reaches.trans {code : T → L → Program ι σ L} {w w' w'' : Pool T ι σ L}
    (h : Reaches code w w') (h' : Reaches code w' w'') : Reaches code w w'' := by
  obtain ⟨first, rfl⟩ := h
  obtain ⟨second, rfl⟩ := h'
  exact ⟨first ++ second, run_append code w first second⟩

/-- From a control point, a thread can carry out the body found there while the
others stand still. -/
theorem reaches_body {code : T → L → Program ι σ L} {w : Pool T ι σ L} {t : T} {l l' : L}
    {i : ι} {s : σ} (h : w.threads t = .ret l) (hbody : (code t l).exec i w.state = (l', s)) :
    ∃ w', Reaches code w w' ∧ w'.state = s ∧ w'.threads t = .ret l' ∧
      ∀ u, u ≠ t → w'.threads u = w.threads u := by
  obtain ⟨hstate, hthread⟩ := step_ret code h i
  obtain ⟨rest, hrest, hrun⟩ := run_alone code (w.step code t i) t i
  rw [hstate, hthread, hbody] at hrun
  have hall : ∀ e ∈ (t, i) :: rest, e.1 = t := by simpa using hrest
  exact ⟨w.run code ((t, i) :: rest), ⟨_, rfl⟩, hrun.1, hrun.2,
    fun u hu => run_unscheduled fun e he => hall e he ▸ hu.symm⟩

/-- A thread at a control point that leads nowhere stays there. -/
theorem run_resting {code : T → L → Program ι σ L} {w : Pool T ι σ L} {t : T} {l : L}
    (hw : w.threads t = .ret l) (hcode : code t l = .ret l) (schedule : List (T × ι)) :
    (w.run code schedule).threads t = .ret l := by
  induction schedule generalizing w with
  | nil => exact hw
  | cons e rest ih =>
      refine ih (w := w.step code e.1 e.2) ?_
      by_cases ht : t = e.1
      · subst ht
        rw [(step_ret code hw e.2).2, hcode]
      · rw [step_of_ne w ht, hw]

/-- A control point with one action that comes back to it: two steps of the
thread are the action. -/
theorem run_loop {code : T → L → Program ι σ L} {w : Pool T ι σ L} {t : T} {l : L} {f : σ → σ}
    (hw : w.threads t = .ret l) (hcode : code t l = Program.update f >>= fun _ => pure l)
    (i : ι) : w.run code [(t, i), (t, i)] = { w with state := f w.state } := by
  have henter : w.step code t i =
      { w with threads := Function.update w.threads t (code t l) } := by
    simp [step, hw]
  have hact : (w.step code t i).step code t i =
      { state := f w.state, threads := Function.update w.threads t (.ret l) } := by
    rw [henter, hcode]
    simp [step, Program.update, Program.atomic]
  have hback : Function.update w.threads t (.ret l) = w.threads := by
    rw [← hw, Function.update_eq_self]
  simp only [run, List.foldl_cons, List.foldl_nil]
  rw [hact, hback]

end Pool

end Concurrency
