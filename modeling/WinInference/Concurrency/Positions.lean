import Mathlib.Data.List.Induction
import WinInference.Concurrency.Program

/-!
# Threads with one action at each control point

Where every body is a single atomic action, a run is described by the state and
the control point of each thread.  An invariant may then speak of both: what the
threads have done shows in where they stand.

`Pool.Stands` says that the threads stand at the control points they are said to
stand at, `Pool.Stands.step` follows them through one move, and
`Pool.run_positions` carries an invariant of state and control points through a
run.
-/

namespace Concurrency

variable {T ι σ L : Type}

/-- The bodies of threads that carry out `act t l` at the control point `l` and
have ended at some points. -/
def perPoint (ended : L → Bool) (act : T → L → ι → σ → L × σ) (t : T) (l : L) :
    Program ι σ L :=
  if ended l then .ret l else Program.atomic (act t l)

section Point

variable {ended : L → Bool} {act : T → L → ι → σ → L × σ} {t : T} {l : L}

theorem perPoint_ended (h : ended l = true) : perPoint ended act t l = .ret l := by
  simp [perPoint, h]

theorem perPoint_atomic (h : ended l = false) :
    perPoint ended act t l = Program.atomic (act t l) := by
  simp [perPoint, h]

end Point

/-- Every thread stands at its point, or has entered the body found there. -/
def Pool.Stands (ended : L → Bool) (act : T → L → ι → σ → L × σ) (w : Pool T ι σ L)
    (pos : T → L) : Prop :=
  ∀ t, w.threads t = .ret (pos t) ∨ w.threads t = perPoint ended act t (pos t)

section Run

variable [DecidableEq T] {ended : L → Bool} {act : T → L → ι → σ → L × σ} {w : Pool T ι σ L}
  {pos : T → L}

omit [DecidableEq T] in
theorem Pool.Stands.at_point (h : w.Stands ended act pos) {t : T} {l : L}
    (hl : w.threads t = .ret l) : pos t = l := by
  rcases h t with ht | ht
  · rw [ht] at hl
    cases hl
    rfl
  · rw [ht, perPoint] at hl
    split at hl
    · cases hl
      rfl
    · cases hl

omit [DecidableEq T] in
/-- A thread that has ended is seen where it ended. -/
theorem Pool.Stands.at_end (h : w.Stands ended act pos) {t : T} (hend : ended (pos t) = true) :
    w.threads t = .ret (pos t) := by
  rcases h t with ht | ht
  · exact ht
  · rw [ht, perPoint_ended hend]

/-- A step enters a body, or carries out its action. -/
theorem Pool.Stands.step (h : w.Stands ended act pos) (t : T) (i : ι) :
    (w.step (perPoint ended act) t i).Stands ended act pos ∧
        (w.step (perPoint ended act) t i).state = w.state ∨
      w.threads t = Program.atomic (act t (pos t)) ∧ ended (pos t) = false ∧
        (w.step (perPoint ended act) t i).Stands ended act
          (Function.update pos t (act t (pos t) i w.state).1) ∧
        (w.step (perPoint ended act) t i).state = (act t (pos t) i w.state).2 := by
  have hat : w.threads t = .ret (pos t) ∨
      ended (pos t) = false ∧ w.threads t = Program.atomic (act t (pos t)) := by
    cases hend : ended (pos t) with
    | true => exact .inl (h.at_end hend)
    | false =>
        rcases h t with ht | ht
        · exact .inl ht
        · exact .inr ⟨rfl, ht.trans (perPoint_atomic hend)⟩
  rcases hat with ht | ⟨hend, ht⟩
  · obtain ⟨hstate, hthread⟩ := Pool.step_ret (perPoint ended act) ht i
    refine .inl ⟨fun u => ?_, hstate⟩
    by_cases hu : u = t
    · subst hu
      exact .inr hthread
    · rw [Pool.step_of_ne w hu]
      exact h u
  · obtain ⟨hstate, hthread⟩ := Pool.step_act (perPoint ended act) ht i
    refine .inr ⟨ht, hend, fun u => ?_, hstate⟩
    by_cases hu : u = t
    · subst hu
      rw [Function.update_self]
      exact .inl hthread
    · rw [Pool.step_of_ne w hu, Function.update_of_ne hu]
      exact h u

/-- **Invariants over positions.**  What every action that may occur preserves
holds along every run of such actions, of the state and of where the threads
stand. -/
theorem Pool.run_positions (may : T → ι → Prop) {J : σ → (T → L) → Prop} {s : σ} {start : L}
    (hinit : J s fun _ => start)
    (hstep : ∀ t i s pos, may t i → ended (pos t) = false → J s pos →
      J (act t (pos t) i s).2 (Function.update pos t (act t (pos t) i s).1))
    (schedule : List (T × ι)) (hmay : ∀ e ∈ schedule, may e.1 e.2) :
    ∃ pos, ((⟨s, fun _ => .ret start⟩ : Pool T ι σ L).run (perPoint ended act)
        schedule).Stands ended act pos ∧
      J ((⟨s, fun _ => .ret start⟩ : Pool T ι σ L).run (perPoint ended act) schedule).state
        pos := by
  induction schedule using List.reverseRecOn with
  | nil => exact ⟨fun _ => start, fun _ => .inl rfl, hinit⟩
  | append_singleton rest e ih =>
      obtain ⟨pos, hstands, hJ⟩ := ih fun e' he' => hmay e' (by simp [he'])
      rw [Pool.run_concat]
      rcases hstands.step e.1 e.2 with ⟨hsame, hstate⟩ | ⟨-, hend, hmoved, hstate⟩
      · refine ⟨pos, hsame, ?_⟩
        rw [hstate]
        exact hJ
      · refine ⟨_, hmoved, ?_⟩
        rw [hstate]
        exact hstep e.1 e.2 _ pos (hmay e (by simp)) hend hJ

end Run

end Concurrency
