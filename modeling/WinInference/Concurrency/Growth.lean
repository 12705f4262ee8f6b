import WinInference.Concurrency.Lone

/-!
# How much one thread adds before it takes notice

A thread often looks at a flag once in each of its bodies and acts on what it
saw.  When the flag goes up, the body it is in may still do what it had decided
to do; the bodies after that do not begin to.  So from that moment on the thread
adds to a size no more than one body can.

`Grows` bounds what one body adds, and `AlwaysIf` says what its actions do once
it has looked at the flag.  `Pool.run_grows` adds the bound up over a run,
`Pool.run_alwaysIf` is the run of a thread that has noticed, and
`Pool.run_noticed` allows it the body it is in.
-/

namespace Concurrency

variable {ι σ α β T L : Type}

section Grows

variable {size : σ → Nat}

/-- Along no path of the program do its own actions add more than `n` to the
size. -/
def Program.Grows (size : σ → Nat) : Program ι σ α → Nat → Prop
  | .ret _, _ => True
  | .act u next, n => ∀ i s, size (u i s) ≤ size s + n ∧
      (next i s).Grows size (n - (size (u i s) - size s))

namespace Program

variable {p : Program ι σ α} {f : α → Program ι σ β} {m n : Nat}

/-- A finished program does not grow. -/
theorem Grows.ret (a : α) (n : Nat) : (Program.ret a : Program ι σ α).Grows size n := trivial

/-- A bound on the growth may be raised. -/
theorem Grows.mono (h : p.Grows size m) (hle : m ≤ n) : p.Grows size n := by
  induction p generalizing m n with
  | ret a => trivial
  | act u next ih =>
      intro i s
      obtain ⟨hact, hrest⟩ := h i s
      refine ⟨by omega, ih i s hrest ?_⟩
      omega

/-- The growth of a sequence is divided between its parts. -/
theorem Grows.bind (hp : p.Grows size m) (hle : m ≤ n) (hf : ∀ a, (f a).Grows size (n - m)) :
    (p >>= f).Grows size n := by
  induction p generalizing m n with
  | ret a => exact (hf a).mono (Nat.sub_le n m)
  | act u next ih =>
      intro i s
      obtain ⟨hact, hrest⟩ := hp i s
      refine ⟨by omega, ih i s hrest (by omega) fun a => ?_⟩
      exact (hf a).mono (by omega)

/-- The rule of an atomic section. -/
theorem Grows.atomic {f : ι → σ → α × σ} (h : ∀ i s, size (f i s).2 ≤ size s + n) :
    (Program.atomic f).Grows size n :=
  fun i s => ⟨h i s, trivial⟩

/-- The rule of an update. -/
theorem Grows.update {f : σ → σ} (h : ∀ s, size (f s) ≤ size s + n) :
    (Program.update f : Program ι σ Unit).Grows size n :=
  Grows.atomic fun _ => h

/-- Actions that add nothing. -/
theorem Always.grows (h : p.Always fun s s' => size s' ≤ size s) (n : Nat) :
    p.Grows size n := by
  induction p generalizing n with
  | ret a => trivial
  | act u next ih =>
      intro i s
      obtain ⟨hact, hrest⟩ := h i s
      exact ⟨by omega, ih i s hrest _⟩

end Program

end Grows

section AlwaysIf

variable {P : ι → Prop} {K : σ → Prop} {G : σ → σ → Prop}

/-- Every action of the program is in `G`, if its answer is in `P` and it finds the
state in `K`. -/
def Program.AlwaysIf (P : ι → Prop) (K : σ → Prop) (G : σ → σ → Prop) : Program ι σ α → Prop
  | .ret _ => True
  | .act u next => ∀ i s, P i → K s → G s (u i s) ∧ (next i s).AlwaysIf P K G

namespace Program

variable {p : Program ι σ α} {f : α → Program ι σ β}

/-- A finished program makes no move. -/
theorem AlwaysIf.ret (a : α) : (Program.ret a : Program ι σ α).AlwaysIf P K G := trivial

/-- A relation of all moves is one of those under the condition. -/
theorem Always.alwaysIf (h : p.Always G) : p.AlwaysIf P K G := by
  induction p with
  | ret a => trivial
  | act u next ih =>
      intro i s _ _
      obtain ⟨hact, hrest⟩ := h i s
      exact ⟨hact, ih i s hrest⟩

/-- A weaker relation holds of the same moves. -/
theorem AlwaysIf.mono {G' : σ → σ → Prop} (hG : ∀ s s', G s s' → G' s s')
    (h : p.AlwaysIf P K G) : p.AlwaysIf P K G' := by
  induction p with
  | ret a => trivial
  | act u next ih =>
      intro i s hi hs
      obtain ⟨hact, hrest⟩ := h i s hi hs
      exact ⟨hG _ _ hact, ih i s hrest⟩

/-- The moves of a sequence are those of its parts. -/
theorem AlwaysIf.bind (hp : p.AlwaysIf P K G) (hf : ∀ a, (f a).AlwaysIf P K G) :
    (p >>= f).AlwaysIf P K G := by
  induction p with
  | ret a => exact hf a
  | act u next ih =>
      intro i s hi hs
      obtain ⟨hact, hrest⟩ := hp i s hi hs
      exact ⟨hact, ih i s hrest⟩

/-- An action in front of a program that may use what the action saw. -/
theorem AlwaysIf.atomic_bind {g : ι → σ → α × σ}
    (h : ∀ i s, P i → K s → G s (g i s).2 ∧ (f (g i s).1).AlwaysIf P K G) :
    (Program.atomic g >>= f).AlwaysIf P K G := h

end Program

end AlwaysIf

section Run

variable [DecidableEq T] {code : T → L → Program ι σ L} {t₀ : T} {size : σ → Nat} {n : Nat}

/-- What is left of a body adds no more than the body. -/
theorem Pool.run_grows (hcode : ∀ l, (code t₀ l).Grows size n) {w : Pool T ι σ L}
    (hw : (w.threads t₀).Grows size n) (schedule : List (T × ι)) :
    ((w.run code schedule).threads t₀).Grows size n := by
  induction schedule generalizing w with
  | nil => exact hw
  | cons e rest ih =>
      refine ih (w := w.step code e.1 e.2) ?_
      by_cases ht : t₀ = e.1
      · subst ht
        cases hprog : w.threads e.1 with
        | ret l =>
            rw [(Pool.step_ret code hprog e.2).2]
            exact hcode l
        | act u next =>
            rw [hprog] at hw
            rw [(Pool.step_act code hprog e.2).2]
            exact (hw e.2 w.state).2.mono (Nat.sub_le n _)
      · rw [Pool.step_of_ne w ht]
        exact hw

/-- What every action of every thread preserves is kept from any moment on. -/
theorem Pool.run_preserves {G : σ → σ → Prop} (hcode : ∀ t l, (code t l).Always G)
    {J : σ → Prop} (hJ : ∀ s s', G s s' → J s → J s') {s : σ} {start : L}
    (before after : List (T × ι))
    (hbefore : J ((⟨s, fun _ => .ret start⟩ : Pool T ι σ L).run code before).state) :
    J ((⟨s, fun _ => .ret start⟩ : Pool T ι σ L).run code (before ++ after)).state := by
  induction after using List.reverseRecOn with
  | nil =>
      rw [List.append_nil]
      exact hbefore
  | append_singleton rest e ih =>
      rw [← List.append_assoc, Pool.run_concat]
      have hthread := Pool.run_threads_always (hcode e.1)
        (w := (⟨s, fun _ => .ret start⟩ : Pool T ι σ L)) (Program.Always.ret start) (before ++ rest)
      rcases Pool.step_always hthread e.2 with hsame | hact
      · rw [hsame]
        exact ih
      · exact hJ _ _ hact ih

/-- What every thread but one preserves is kept while that one rests. -/
theorem Pool.run_preserves_resting {G : σ → σ → Prop} {t₁ : T} {l : L}
    (hcode : ∀ t, t ≠ t₁ → ∀ l, (code t l).Always G) (hpoint : code t₁ l = .ret l)
    {J : σ → Prop} (hJ : ∀ s s', G s s' → J s → J s') {w : Pool T ι σ L}
    (hw : ∀ t, t ≠ t₁ → (w.threads t).Always G) (hrest : w.threads t₁ = .ret l)
    (hs : J w.state) (schedule : List (T × ι)) : J (w.run code schedule).state := by
  induction schedule using List.reverseRecOn with
  | nil => exact hs
  | append_singleton rest e ih =>
      rw [Pool.run_concat]
      by_cases ht : e.1 = t₁
      · have hstill := Pool.run_resting hrest hpoint rest
        rw [← ht] at hstill
        rw [(Pool.step_ret code hstill e.2).1]
        exact ih
      · have hthread := Pool.run_threads_always (hcode e.1 ht) (hw e.1 ht) rest
        rcases Pool.step_always hthread e.2 with hsame | hact
        · rw [hsame]
          exact ih
        · exact hJ _ _ hact ih

omit [DecidableEq T] in
/-- A bystander keeps its contract from any moment on. -/
theorem Program.Always.bystands {c : Contract σ} {p : Program ι σ L} (hp : p.Always c.rely)
    {Q : L → σ → Prop} (hQ : ∀ l s, Q l s) (s : σ) : wp c.bystander p Q s :=
  wp_mono (fun l s _ => hQ l s) (hp.triple (P := fun _ => True) (fun _ _ _ _ _ => trivial)
    (fun _ _ _ hact => hact) (fun _ _ _ _ => trivial) s trivial)

/-- The lone thread keeps its contract from a moment on. -/
theorem sound_lone_from {c : Contract σ} {I : L → σ → Prop} {w : Pool T ι σ L}
    (others : ∀ t, t ≠ t₀ → (w.threads t).Always c.rely)
    (hlone : wp c (w.threads t₀) I w.state) :
    Sound (loneContracts t₀ c) (lonePoint t₀ I) w := by
  intro t
  by_cases ht : t = t₀
  · subst ht
    rw [loneContracts, if_pos rfl]
    exact wp_mono (fun _ _ hs _ => hs) hlone
  · rw [loneContracts, if_neg ht]
    exact (others t ht).bystands (fun _ _ heq => absurd heq ht) w.state

/-- **Since a moment.**  A lone thread that keeps its contract at some moment keeps
it from then on, with what it and the bystanders preserve. -/
theorem Compatible.lone_since {c : Contract σ} {I : L → σ → Prop}
    (hc : Compatible code (loneContracts t₀ c) (lonePoint t₀ I)) {J : σ → Prop}
    (hguar : ∀ s s', c.guar s s' → J s → J s') (hrely : ∀ s s', c.rely s s' → J s → J s')
    {w : Pool T ι σ L} (others : ∀ t, t ≠ t₀ → (w.threads t).Always c.rely)
    (hlone : wp c (w.threads t₀) I w.state) (hJ : J w.state) (after : List (T × ι))
    (hknown : ∀ first, first <+: after → c.known (w.run code first).state) :
    (∀ l, (w.run code after).threads t₀ = .ret l → I l (w.run code after).state) ∧
      J (w.run code after).state := by
  have hsound := sound_lone_from others hlone
  refine ⟨fun l hl => ?_, ?_⟩
  · exact (Pool.run_sound hc hsound after (known_lone hknown)).at_point hl rfl
  · refine Pool.run_invariant hc (fun t s s' ht hs => ?_) hsound hJ after (known_lone hknown)
    by_cases heq : t = t₀
    · rw [loneContracts, if_pos heq] at ht
      exact hguar s s' ht hs
    · rw [loneContracts, if_neg heq] at ht
      exact hrely s s' ht hs

/-- What every action of every thread is in, while `P` and `K` last, holds between
the first state and the last. -/
theorem Pool.run_alwaysIf {P : ι → Prop} {K : σ → Prop} {G : σ → σ → Prop}
    (hrefl : ∀ s, G s s) (htrans : ∀ {s s' s''}, G s s' → G s' s'' → G s s'')
    (hcode : ∀ t l, (code t l).AlwaysIf P K G) {w : Pool T ι σ L}
    (hw : ∀ t, (w.threads t).AlwaysIf P K G) (schedule : List (T × ι))
    (hP : ∀ e ∈ schedule, P e.2)
    (hK : ∀ first, first <+: schedule → K (w.run code first).state) :
    G w.state (w.run code schedule).state := by
  induction schedule generalizing w with
  | nil => exact hrefl w.state
  | cons e rest ih =>
      have hi : P e.2 := hP e (by simp)
      have hs : K w.state := hK [] (by simp)
      obtain ⟨hact, hthread⟩ : G w.state (w.step code e.1 e.2).state ∧
          ((w.step code e.1 e.2).threads e.1).AlwaysIf P K G := by
        cases hprog : w.threads e.1 with
        | ret l =>
            obtain ⟨hstate, hthread⟩ := Pool.step_ret code hprog e.2
            rw [hstate, hthread]
            exact ⟨hrefl w.state, hcode e.1 l⟩
        | act u next =>
            obtain ⟨hstate, hthread⟩ := Pool.step_act code hprog e.2
            have hbody := hw e.1
            rw [hprog] at hbody
            rw [hstate, hthread]
            exact hbody e.2 w.state hi hs
      refine htrans hact (ih (w := w.step code e.1 e.2) (fun t => ?_) ?_ ?_)
      · by_cases ht : t = e.1
        · rw [ht]
          exact hthread
        · rw [Pool.step_of_ne w ht]
          exact hw t
      · exact fun e' he' => hP e' (List.mem_cons_of_mem e he')
      · exact fun first hfirst => hK (e :: first) (List.cons_prefix_cons.mpr ⟨rfl, hfirst⟩)

/-- **Notice is taken.**  What is left of the body a thread is in adds at most `n`;
nobody else adds anything; while `P` and `K` last no body of the thread does.  Then no
more than `n` is added in a run in which they last. -/
theorem Pool.run_noticed {P : ι → Prop} {K : σ → Prop}
    (others : ∀ t, t ≠ t₀ → ∀ l, (code t l).Always fun s s' => size s' ≤ size s)
    (hstill : ∀ l, (code t₀ l).AlwaysIf P K fun s s' => size s' ≤ size s) {w : Pool T ι σ L}
    (hothers : ∀ t, t ≠ t₀ → (w.threads t).Always fun s s' => size s' ≤ size s)
    (hlone : (w.threads t₀).Grows size n) (schedule : List (T × ι))
    (hP : ∀ e ∈ schedule, P e.2)
    (hK : ∀ first, first <+: schedule → K (w.run code first).state) :
    size (w.run code schedule).state ≤ size w.state + n := by
  induction schedule generalizing w n with
  | nil => exact Nat.le_add_right _ n
  | cons e rest ih =>
      have hP' : ∀ e' ∈ rest, P e'.2 := fun e' he' => hP e' (List.mem_cons_of_mem e he')
      have hK' : ∀ first, first <+: rest → K ((w.step code e.1 e.2).run code first).state :=
        fun first hfirst => hK (e :: first) (List.cons_prefix_cons.mpr ⟨rfl, hfirst⟩)
      have hothers' : ∀ t, t ≠ t₀ →
          ((w.step code e.1 e.2).threads t).Always fun s s' => size s' ≤ size s :=
        fun t ht => Pool.run_threads_always (others t ht) (hothers t ht) [e]
      by_cases ht : e.1 = t₀
      · subst ht
        cases hprog : w.threads e.1 with
        | ret l =>
            -- the body ends here, and from here on nothing is added
            obtain ⟨hstate, hthread⟩ := Pool.step_ret code hprog e.2
            have hrest := Pool.run_alwaysIf (G := fun s s' => size s' ≤ size s)
              (fun _ => Nat.le_refl _) (fun h h' => Nat.le_trans h' h) (fun t l => ?_)
              (w := w.step code e.1 e.2) (fun t => ?_) rest hP' hK'
            · rw [hstate] at hrest
              exact Nat.le_trans hrest (Nat.le_add_right _ n)
            · by_cases ht : t = e.1
              · rw [ht]
                exact hstill l
              · exact (others t ht l).alwaysIf
            · by_cases ht : t = e.1
              · rw [ht, hthread]
                exact hstill l
              · exact (hothers' t ht).alwaysIf
        | act u next =>
            obtain ⟨hstate, hthread⟩ := Pool.step_act code hprog e.2
            rw [hprog] at hlone
            obtain ⟨hact, hrest⟩ := hlone e.2 w.state
            rw [← hthread] at hrest
            have hlast := ih hothers' hrest hP' hK'
            rw [hstate] at hlast
            refine Nat.le_trans hlast ?_
            omega
      · have hstep : size (w.step code e.1 e.2).state ≤ size w.state := by
          rcases Pool.step_always (hothers e.1 ht) e.2 with hsame | hact
          · exact Nat.le_of_eq (congrArg size hsame)
          · exact hact
        have hsame : (w.step code e.1 e.2).threads t₀ = w.threads t₀ :=
          Pool.step_of_ne w (Ne.symm ht) e.2
        rw [← hsame] at hlone
        exact Nat.le_trans (ih hothers' hlone hP' hK') (Nat.add_le_add_right hstep n)

end Run

end Concurrency
