import Mathlib.Data.List.Induction
import WinInference.Concurrency.Program

/-!
# Programs that do not see a change of the state

A program is blind to a map `f` of the state when each of its actions does the
same before and after `f`, and goes on in the same way.  In a pool of blind
threads the change may be made at any moment: it shows at the end and nowhere
before.

`Blind.bind` builds a blind program from blind parts.  `step_change` is one move
of a pool of blind threads, and `run_change` a whole run: with the change at its
start it ends as the run without it does, up to the change.
-/

namespace Concurrency

variable {ι σ α β T L : Type} {f : σ → σ}

/-- The program does the same whether `f` was applied or not. -/
def Program.Blind (f : σ → σ) : Program ι σ α → Prop
  | .ret _ => True
  | .act u n => ∀ i s, u i (f s) = f (u i s) ∧ n i (f s) = n i s ∧ (n i s).Blind f

namespace Program

theorem Blind.ret (a : α) : (Program.ret a : Program ι σ α).Blind f := trivial

theorem Blind.bind {p : Program ι σ α} {k : α → Program ι σ β} (hp : p.Blind f)
    (hk : ∀ a, (k a).Blind f) : (p >>= k).Blind f := by
  induction p with
  | ret a => exact hk a
  | act u n ih =>
      intro i s
      obtain ⟨hupdate, hnext, hrest⟩ := hp i s
      refine ⟨hupdate, ?_, ih i s hrest⟩
      show n i (f s) >>= k = n i s >>= k
      rw [hnext]

theorem Blind.atomic {g : ι → σ → α × σ} (h : ∀ i s, g i (f s) = ((g i s).1, f (g i s).2)) :
    (Program.atomic g).Blind f := by
  intro i s
  refine ⟨?_, ?_, trivial⟩
  · show (g i (f s)).2 = f (g i s).2
    rw [h]
  · show Program.ret (g i (f s)).1 = .ret (g i s).1
    rw [h]

theorem Blind.update {g : σ → σ} (h : ∀ s, g (f s) = f (g s)) :
    (Program.update g : Program ι σ Unit).Blind f :=
  Blind.atomic fun _ s => by rw [h]

theorem Blind.read {g : σ → α} (h : ∀ s, g (f s) = g s) :
    (Program.read g : Program ι σ α).Blind f :=
  Blind.atomic fun _ s => by rw [h]

end Program

namespace Pool

variable [DecidableEq T] {code : T → L → Program ι σ L}

/-- The pool after `f` was applied to its state. -/
def change (f : σ → σ) (w : Pool T ι σ L) : Pool T ι σ L := { w with state := f w.state }

/-- A blind thread makes the same step. -/
theorem step_change {w : Pool T ι σ L} {t : T} (h : (w.threads t).Blind f) (i : ι) :
    (w.change f).step code t i = (w.step code t i).change f := by
  cases hprog : w.threads t with
  | ret l => simp [step, change, hprog]
  | act u n =>
      rw [hprog] at h
      obtain ⟨hupdate, hnext, -⟩ := h i w.state
      simp [step, change, hprog, hupdate, hnext]

/-- After a step, a blind thread is still blind if what it enters is. -/
theorem step_blind {w : Pool T ι σ L} {t u : T} {i : ι} (h : (w.threads u).Blind f)
    (hcode : ∀ l, w.threads u = .ret l → (code u l).Blind f) :
    ((w.step code t i).threads u).Blind f := by
  cases hprog : w.threads t with
  | ret l =>
      by_cases hu : u = t
      · subst hu
        simpa [step, hprog] using hcode l hprog
      · simpa [step, hprog, Function.update_of_ne hu] using h
  | act g n =>
      by_cases hu : u = t
      · subst hu
        rw [hprog] at h
        simpa [step, hprog] using (h i w.state).2.2
      · simpa [step, hprog, Function.update_of_ne hu] using h

/-- A thread whose bodies are all blind is blind wherever it stands. -/
theorem run_blind {s : σ} {start : L} {u : T} (hcode : ∀ l, (code u l).Blind f)
    (schedule : List (T × ι)) :
    (((⟨s, fun _ => .ret start⟩ : Pool T ι σ L).run code schedule).threads u).Blind f := by
  induction schedule using List.reverseRecOn with
  | nil => trivial
  | append_singleton rest e ih =>
      rw [run_concat]
      exact step_blind ih fun l _ => hcode l

/-- **Unseen changes.**  From a moment at which all threads are blind to it, a
change of the state shows only in the state, as long as no thread comes to a
point whose body is not blind. -/
theorem run_change {w : Pool T ι σ L} (hw : ∀ t, (w.threads t).Blind f)
    (schedule : List (T × ι))
    (hcode : ∀ first, first <+: schedule → ∀ t l, (w.run code first).threads t = .ret l →
      (code t l).Blind f) :
    (w.change f).run code schedule = (w.run code schedule).change f := by
  have hall : ∀ first, first <+: schedule →
      (w.change f).run code first = (w.run code first).change f ∧
        ∀ t, ((w.run code first).threads t).Blind f := by
    intro first
    induction first using List.reverseRecOn with
    | nil => exact fun _ => ⟨rfl, hw⟩
    | append_singleton rest e ih =>
        intro hfirst
        have hrest := (List.prefix_append rest [e]).trans hfirst
        obtain ⟨heq, hblind⟩ := ih hrest
        rw [run_concat, run_concat, heq]
        exact ⟨step_change (hblind e.1) e.2,
          fun t => step_blind (hblind t) fun l => hcode rest hrest t l⟩
  exact (hall schedule List.prefix_rfl).1

end Pool

end Concurrency
