import Mathlib.Algebra.BigOperators.Group.List.Basic
import WinInference.Concurrency.RelyGuarantee

/-!
# What the actions of a thread add up to

Each change of the state is given a weight.  `Yields weight p Q` says that the
weights of the actions of `p` come to a sum in `Q`, whatever the other threads
do in between: the rules take a program apart as those of a triple do, but
nothing is assumed of the states that its actions find.

If all weight is with one thread, the total over a run is what that thread has
yielded so far.
-/

namespace Concurrency

variable {ι σ α β M T L : Type} [AddMonoid M] {weight : σ → σ → M}

/-- The weights of the actions add up to a sum in `Q`. -/
def Program.Yields (weight : σ → σ → M) : Program ι σ α → (α → M → Prop) → Prop
  | .ret a, Q => Q a 0
  | .act u n, Q =>
      ∀ i s, (n i s).Yields weight (fun a m => Q a (weight s (u i s) + m))

namespace Program

variable {p : Program ι σ α} {Q Q' : α → M → Prop}

theorem Yields.mono (h : p.Yields weight Q) (hQ : ∀ a m, Q a m → Q' a m) :
    p.Yields weight Q' := by
  induction p generalizing Q Q' with
  | ret a => exact hQ a 0 h
  | act u n ih =>
      intro i s
      exact ih i s (h i s) fun a m => hQ a _

/-- The sums of two parts, one after the other. -/
theorem Yields.bind {f : α → Program ι σ β} {R : β → M → Prop} (hp : p.Yields weight Q)
    (hf : ∀ a m, Q a m → (f a).Yields weight (fun b m' => R b (m + m'))) :
    (p >>= f).Yields weight R := by
  induction p generalizing Q R with
  | ret a =>
      refine (hf a 0 hp).mono fun b m hm => ?_
      rwa [zero_add] at hm
  | act u n ih =>
      intro i s
      refine ih i s (hp i s) fun a m hm => ?_
      refine (hf a _ hm).mono fun b m' hm' => ?_
      rwa [add_assoc] at hm'

theorem Yields.atomic {f : ι → σ → α × σ} (h : ∀ i s, Q (f i s).1 (weight s (f i s).2)) :
    (Program.atomic f).Yields weight Q := by
  intro i s
  have hsum := h i s
  rw [← add_zero (weight s (f i s).2)] at hsum
  exact hsum

theorem Yields.update {f : σ → σ} {R : Unit → M → Prop} (h : ∀ s, R () (weight s (f s))) :
    (Program.update f : Program ι σ Unit).Yields weight R :=
  Yields.atomic fun _ s => h s

/-- Actions without weight. -/
theorem Always.yields (h : p.Always fun s s' => weight s s' = 0) :
    p.Yields weight fun _ m => m = 0 := by
  induction p with
  | ret a => rfl
  | act u n ih =>
      intro i s
      obtain ⟨hact, hrest⟩ := h i s
      refine (ih i s hrest).mono fun a m hm => ?_
      rw [hact, hm, add_zero]

/-- Actions without weight in front of a program. -/
theorem Always.yields_bind {f : α → Program ι σ β} {R : β → M → Prop}
    (hp : p.Always fun s s' => weight s s' = 0) (hf : ∀ a, (f a).Yields weight R) :
    (p >>= f).Yields weight R := by
  refine Yields.bind hp.yields fun a m hm => ?_
  refine (hf a).mono fun b m' hm' => ?_
  rwa [hm, zero_add]

end Program

namespace Pool

variable [DecidableEq T] {code : T → L → Program ι σ L}

/-- The changes of the state along a run. -/
def changes (code : T → L → Program ι σ L) (w : Pool T ι σ L) :
    List (T × ι) → List (σ × σ)
  | [] => []
  | e :: rest =>
      (w.state, (w.step code e.1 e.2).state) :: (w.step code e.1 e.2).changes code rest

theorem changes_concat (w : Pool T ι σ L) (schedule : List (T × ι)) (e : T × ι) :
    w.changes code (schedule ++ [e]) = w.changes code schedule ++
      [((w.run code schedule).state, ((w.run code schedule).step code e.1 e.2).state)] := by
  induction schedule generalizing w with
  | nil => rfl
  | cons first rest ih =>
      rw [List.cons_append, changes, ih]
      rfl

/-- The weight of a run. -/
def total (weight : σ → σ → M) (code : T → L → Program ι σ L) (w : Pool T ι σ L)
    (schedule : List (T × ι)) : M :=
  ((w.changes code schedule).map fun change => weight change.1 change.2).sum

theorem total_concat (w : Pool T ι σ L) (schedule : List (T × ι)) (e : T × ι) :
    w.total weight code (schedule ++ [e]) = w.total weight code schedule +
      weight (w.run code schedule).state ((w.run code schedule).step code e.1 e.2).state := by
  unfold total
  rw [changes_concat, List.map_append, List.sum_append]
  simp

/-- **The sum rule.**  When all weight is with the thread `t₀`, and its bodies
lead from the sums of one control point to those of the next, it stands at
each of its control points with one of the sums of that point. -/
theorem total_at_point (code : T → L → Program ι σ L) {t₀ : T} {I : L → M → Prop}
    (hstill : ∀ s, weight s s = 0)
    (others : ∀ t, t ≠ t₀ → ∀ l, (code t l).Always fun s s' => weight s s' = 0)
    (body : ∀ l m, I l m → (code t₀ l).Yields weight fun l' m' => I l' (m + m'))
    {s : σ} {start : L} (hstart : I start 0) (schedule : List (T × ι)) {l : L}
    (hl : ((⟨s, fun _ => .ret start⟩ : Pool T ι σ L).run code schedule).threads t₀ = .ret l) :
    I l ((⟨s, fun _ => .ret start⟩ : Pool T ι σ L).total weight code schedule) := by
  have hyields : (((⟨s, fun _ => .ret start⟩ : Pool T ι σ L).run code schedule).threads
      t₀).Yields weight fun l m =>
        I l ((⟨s, fun _ => .ret start⟩ : Pool T ι σ L).total weight code schedule + m) := by
    clear hl
    induction schedule using List.reverseRecOn with
    | nil =>
        show I start (0 + 0)
        rwa [add_zero]
    | append_singleton rest e ih =>
        rw [run_concat, total_concat]
        have hothers : e.1 ≠ t₀ →
            (((⟨s, fun _ => .ret start⟩ : Pool T ι σ L).run code rest).threads e.1).Always
              fun s s' => weight s s' = 0 :=
          fun he => run_threads_always (others e.1 he) (Program.Always.ret start) rest
        generalize (⟨s, fun _ => .ret start⟩ : Pool T ι σ L).total weight code rest = sum at ih ⊢
        generalize (⟨s, fun _ => .ret start⟩ : Pool T ι σ L).run code rest = w at ih hothers ⊢
        by_cases he : e.1 = t₀
        · cases hprog : w.threads t₀ with
          | ret l =>
              have hpoint : I l (sum + 0) := by simpa [hprog, Program.Yields] using ih
              rw [add_zero] at hpoint
              obtain ⟨hstate, hthread⟩ := step_ret code hprog e.2
              rw [he, hstate, hthread, hstill, add_zero]
              exact body l sum hpoint
          | act u n =>
              rw [hprog] at ih
              obtain ⟨hstate, hthread⟩ := step_act code hprog e.2
              rw [he, hstate, hthread]
              simpa [add_assoc] using ih e.2 w.state
        · have hweight : weight w.state (w.step code e.1 e.2).state = 0 := by
            have hmoved : (w.step code e.1 e.2).state = w.state ∨
                weight w.state (w.step code e.1 e.2).state = 0 := step_always (hothers he) e.2
            rcases hmoved with hsame | hzero
            · rw [hsame, hstill]
            · exact hzero
          rw [step_of_ne w (Ne.symm he), hweight, add_zero]
          exact ih
  rw [hl] at hyields
  have hsum : I l ((⟨s, fun _ => .ret start⟩ : Pool T ι σ L).total weight code schedule + 0) :=
    hyields
  rwa [add_zero] at hsum

end Pool

end Concurrency
