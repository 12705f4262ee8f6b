import Mathlib.Data.List.Induction
import WinInference.Concurrency.Program

/-!
# Rely/guarantee reasoning for pools of threads

A thread is verified alone, against a `Contract`.  The *rely* is what the other
threads may do to the state between two of its actions, the *guarantee* is what
each of its own actions does.  `known` holds of every state of the run and is
available for free; it carries earlier results and assumptions about the run
into a proof.

`Triple c P p Q` says: started in `P`, every action of `p` keeps the guarantee
and `p` ends in `Q`, whatever the rely allows in between.  The rules below take
a program apart, one action at a time.

`Pool.run_sound` is the parallel composition rule: when the guarantee of each
thread is allowed by the rely of every other one, the threads keep their
contracts in every interleaving, and a thread that stands at a control point is
in the assertion of that point.
-/

namespace Concurrency

/-- What a thread may assume and what it promises, one action at a time. -/
structure Contract (σ : Type) where
  known : σ → Prop
  rely : σ → σ → Prop
  guar : σ → σ → Prop
  rely_refl : ∀ s, rely s s
  rely_trans : ∀ {s t u}, rely s t → rely t u → rely s u

variable {ι σ α β T L : Type}

/-- An assertion the other threads cannot break. -/
def Stable (c : Contract σ) (P : σ → Prop) : Prop :=
  ∀ s s', P s → c.rely s s' → c.known s' → P s'

/-- Weakest precondition: from `s`, every action of the program keeps the
guarantee and the program ends in `Q`. -/
def wp (c : Contract σ) : Program ι σ α → (α → σ → Prop) → σ → Prop
  | .ret a, Q, s => Q a s
  | .act u n, Q, s => ∀ s', c.rely s s' → c.known s' → ∀ i, c.known (u i s') →
      c.guar s' (u i s') ∧ wp c (n i s') Q (u i s')

/-- The Hoare triple of a thread under its contract. -/
def Triple (c : Contract σ) (P : σ → Prop) (p : Program ι σ α)
    (Q : α → σ → Prop) : Prop :=
  ∀ s, P s → wp c p Q s

section Rules

variable {c : Contract σ} {P P' : σ → Prop} {p : Program ι σ α}
  {Q Q' : α → σ → Prop}

/-- A weaker postcondition has a weaker precondition. -/
theorem wp_mono (hQ : ∀ a s, Q a s → Q' a s) {s : σ} (h : wp c p Q s) :
    wp c p Q' s := by
  induction p generalizing s with
  | ret a => exact hQ a s h
  | act u n ih =>
      intro s' hrely hknown i hnext
      obtain ⟨hguar, hrest⟩ := h s' hrely hknown i hnext
      exact ⟨hguar, ih i s' hrest⟩

/-- The weakest precondition of a composition is taken apart. -/
theorem wp_bind {f : α → Program ι σ β} {R : β → σ → Prop} {s : σ}
    (h : wp c p (fun a => wp c (f a) R) s) : wp c (p >>= f) R s := by
  induction p generalizing s with
  | ret a => exact h
  | act u n ih =>
      intro s' hrely hknown i hnext
      obtain ⟨hguar, hrest⟩ := h s' hrely hknown i hnext
      exact ⟨hguar, ih i s' hrest⟩

/-- Interference does not break a weakest precondition with a stable
postcondition. -/
theorem wp_stable (hQ : ∀ a, Stable c (Q a)) : Stable c (wp c p Q) := by
  intro s s' h hrely hknown
  cases p with
  | ret a => exact hQ a s s' h hrely hknown
  | act u n =>
      intro s'' hrely' hknown' i hnext
      exact h s'' (c.rely_trans hrely hrely') hknown' i hnext

namespace Triple

/-- A finished program satisfies what already holds. -/
theorem ret {a : α} (h : ∀ s, P s → Q a s) :
    Triple c P (Program.ret a : Program ι σ α) Q := h

/-- The rule of consequence. -/
theorem conseq (h : Triple c P p Q) (hP : ∀ s, P' s → P s)
    (hQ : ∀ a s, Q a s → Q' a s) : Triple c P' p Q' :=
  fun s hs => wp_mono hQ (h s (hP s hs))

/-- The postcondition may be weakened. -/
theorem post (h : Triple c P p Q) (hQ : ∀ a s, Q a s → Q' a s) :
    Triple c P p Q' := h.conseq (fun _ hs => hs) hQ

/-- The precondition may be strengthened. -/
theorem pre (h : Triple c P p Q) (hP : ∀ s, P' s → P s) : Triple c P' p Q :=
  h.conseq hP (fun _ _ hs => hs)

/-- Composition: the middle assertion may depend on the value handed over. -/
theorem bind {f : α → Program ι σ β} {R : β → σ → Prop}
    (h : Triple c P p Q) (hf : ∀ a, Triple c (Q a) (f a) R) :
    Triple c P (p >>= f) R :=
  fun s hs => wp_bind (wp_mono (fun a s' => hf a s') (h s hs))

/-- One atomic action from a stable assertion. -/
theorem atomic (hP : Stable c P) {f : ι → σ → α × σ}
    (h : ∀ i s, P s → c.known s → c.known (f i s).2 →
      c.guar s (f i s).2 ∧ Q (f i s).1 (f i s).2) :
    Triple c P (Program.atomic f) Q := by
  intro s hs s' hrely hknown i hnext
  exact h i s' (hP s s' hs hrely hknown) hknown hnext

/-- The rule of an update. -/
theorem update (hP : Stable c P) {f : σ → σ} {R : Unit → σ → Prop}
    (h : ∀ s, P s → c.known s → c.known (f s) → c.guar s (f s) ∧ R () (f s)) :
    Triple c P (Program.update f : Program ι σ Unit) R :=
  atomic hP (fun _ s => h s)

/-- A look at the state keeps what was asserted and learns the value seen. -/
theorem read (hP : Stable c P) (hguar : ∀ s, c.guar s s) {f : σ → α} :
    Triple c P (Program.read f : Program ι σ α)
      (fun a s => P s ∧ a = f s) :=
  atomic hP (fun _ s hs _ _ => ⟨hguar s, hs, rfl⟩)

/-- A fact that does not mention the state can be taken out of the
precondition. -/
theorem of_fact {F : Prop} (h : F → Triple c P p Q) :
    Triple c (fun s => F ∧ P s) p Q :=
  fun s hs => h hs.1 s hs.2

/-- An existential precondition is proved for each witness. -/
theorem exists_pre {X : Type} {Px : X → σ → Prop}
    (h : ∀ x, Triple c (Px x) p Q) : Triple c (fun s => ∃ x, Px x s) p Q :=
  fun s ⟨x, hs⟩ => h x s hs

end Triple

end Rules

section Always

variable {G : σ → σ → Prop}

/-- Every action of the program is in `G`, whatever state it finds. -/
def Program.Always (G : σ → σ → Prop) : Program ι σ α → Prop
  | .ret _ => True
  | .act u n => ∀ i s, G s (u i s) ∧ (n i s).Always G

namespace Program

/-- A finished program makes no move. -/
theorem Always.ret (a : α) : (Program.ret a : Program ι σ α).Always G := trivial

/-- The moves of a sequence are those of its parts. -/
theorem Always.bind {p : Program ι σ α} {f : α → Program ι σ β}
    (hp : p.Always G) (hf : ∀ a, (f a).Always G) : (p >>= f).Always G := by
  induction p with
  | ret a => exact hf a
  | act u n ih =>
      intro i s
      exact ⟨(hp i s).1, ih i s (hp i s).2⟩

/-- The rule of an atomic section. -/
theorem Always.atomic {f : ι → σ → α × σ} (h : ∀ i s, G s (f i s).2) :
    (Program.atomic f).Always G :=
  fun i s => ⟨h i s, trivial⟩

/-- The rule of an update. -/
theorem Always.update {f : σ → σ} (h : ∀ s, G s (f s)) :
    (Program.update f : Program ι σ Unit).Always G :=
  Always.atomic (fun _ => h)

/-- The rule of a read. -/
theorem Always.read (hG : ∀ s, G s s) {f : σ → α} :
    (Program.read f : Program ι σ α).Always G :=
  Always.atomic (fun _ => hG)

/-- A weaker relation holds of the same moves. -/
theorem Always.mono {G' : σ → σ → Prop} (hG : ∀ s s', G s s' → G' s s')
    {p : Program ι σ α} (h : p.Always G) : p.Always G' := by
  induction p with
  | ret a => trivial
  | act u n ih =>
      intro i s
      exact ⟨hG _ _ (h i s).1, ih i s (h i s).2⟩

/-- Two relations hold of the same moves together. -/
theorem Always.and {G' : σ → σ → Prop} {p : Program ι σ α} (h : p.Always G)
    (h' : p.Always G') : p.Always (fun s s' => G s s' ∧ G' s s') := by
  induction p with
  | ret a => trivial
  | act u n ih =>
      intro i s
      exact ⟨⟨(h i s).1, (h' i s).1⟩, ih i s (h i s).2 (h' i s).2⟩

end Program

/-- A program whose actions are all in `G` keeps every stable assertion that
`G` keeps. -/
theorem Program.Always.triple {c : Contract σ} {P : σ → Prop}
    {p : Program ι σ α} (hp : p.Always G) (hP : Stable c P)
    (hguar : ∀ s s', P s → G s s' → c.guar s s')
    (hkeep : ∀ s s', P s → G s s' → P s') :
    Triple c P p (fun _ => P) := by
  induction p with
  | ret a => exact fun s hs => hs
  | act u n ih =>
      intro s hs s' hrely hknown i _
      have hs' := hP s s' hs hrely hknown
      obtain ⟨hact, hrest⟩ := hp i s'
      exact ⟨hguar _ _ hs' hact, ih i s' hrest _ (hkeep _ _ hs' hact)⟩

/-- Conversely, a program is proved to act in `G` by a triple that asserts
nothing and allows everything. -/
def watching (G : σ → σ → Prop) : Contract σ where
  known _ := True
  rely _ _ := True
  guar := G
  rely_refl _ := trivial
  rely_trans _ _ := trivial

/-- A triple under the watching contract says what every move does. -/
theorem Program.Always.of_triple {p : Program ι σ α}
    (h : Triple (watching G) (fun _ => True) p (fun _ _ => True)) : p.Always G := by
  induction p with
  | ret a => trivial
  | act u n ih =>
      intro i s
      obtain ⟨hact, hrest⟩ := h s trivial s trivial trivial i trivial
      refine ⟨hact, ih i s fun s' _ => ?_⟩
      exact wp_stable (fun _ _ _ _ _ _ => trivial) _ s' hrest trivial trivial

/-- A triple that asserts nothing, of a program whose actions are all in `G`. -/
theorem Program.Always.watched {p : Program ι σ α} (hp : p.Always G) :
    Triple (watching G) (fun _ => True) p (fun _ _ => True) :=
  hp.triple (fun _ _ _ _ _ => trivial) (fun _ _ _ hact => hact) (fun _ _ _ _ => trivial)

end Always

section Parallel

variable [DecidableEq T] {code : T → L → Program ι σ L}
  {c : T → Contract σ} {I : T → L → σ → Prop}

/-- A family of verified threads that may run side by side. -/
structure Compatible (code : T → L → Program ι σ L) (c : T → Contract σ)
    (I : T → L → σ → Prop) : Prop where
  /-- what one thread does, every other one allows -/
  allows : ∀ {t u}, t ≠ u → ∀ {s s'}, (c t).guar s s' → (c u).rely s s'
  stable : ∀ t l, Stable (c t) (I t l)
  body : ∀ t l, Triple (c t) (I t l) (code t l) (I t)

/-- Two contracts at once. -/
def Contract.and (c c' : Contract σ) : Contract σ where
  known s := c.known s ∧ c'.known s
  rely s s' := c.rely s s' ∧ c'.rely s s'
  guar s s' := c.guar s s' ∧ c'.guar s s'
  rely_refl s := ⟨c.rely_refl s, c'.rely_refl s⟩
  rely_trans h h' := ⟨c.rely_trans h.1 h'.1, c'.rely_trans h.2 h'.2⟩

/-- Two weakest preconditions under two contracts hold together under both. -/
theorem wp_and {c c' : Contract σ} {p : Program ι σ α} {Q Q' : α → σ → Prop} {s : σ}
    (h : wp c p Q s) (h' : wp c' p Q' s) : wp (c.and c') p (fun a s => Q a s ∧ Q' a s) s := by
  induction p generalizing s with
  | ret a => exact ⟨h, h'⟩
  | act u n ih =>
      intro s' hrely hknown i hnext
      obtain ⟨hguar, hrest⟩ := h s' hrely.1 hknown.1 i hnext.1
      obtain ⟨hguar', hrest'⟩ := h' s' hrely.2 hknown.2 i hnext.2
      exact ⟨⟨hguar, hguar'⟩, ih i s' hrest hrest'⟩

omit [DecidableEq T] in
/-- **Layering.**  Over threads that are already verified, further contracts
may use at each control point what was proved there, and may rely on what was
guaranteed. -/
theorem Compatible.and (h : Compatible code c I) {c' : T → Contract σ} {I' : T → L → σ → Prop}
    (allows : ∀ {t u}, t ≠ u → ∀ {s s'}, (c t).guar s s' → (c' t).guar s s' →
      (c' u).rely s s')
    (stable : ∀ t l, Stable (c' t) (I' t l))
    (body : ∀ t l, Triple (c' t) (fun s => I t l s ∧ I' t l s) (code t l)
      (fun a s => I t a s → I' t a s)) :
    Compatible code (fun t => (c t).and (c' t)) (fun t l s => I t l s ∧ I' t l s) := by
  constructor
  · intro t u htu s s' hguar
    exact ⟨h.allows htu hguar.1, allows htu hguar.1 hguar.2⟩
  · intro t l s s' hs hrely hknown
    exact ⟨h.stable t l s s' hs.1 hrely.1 hknown.1, stable t l s s' hs.2 hrely.2 hknown.2⟩
  · intro t l s hs
    refine wp_mono (fun a s' hboth => ?_) (wp_and (h.body t l s hs.1) (body t l s hs))
    exact ⟨hboth.1, hboth.2 hboth.1⟩

/-- Every thread still keeps its contract from here on. -/
def Sound (c : T → Contract σ) (I : T → L → σ → Prop) (w : Pool T ι σ L) :
    Prop :=
  ∀ t, wp (c t) (w.threads t) (I t) w.state

/-- The state satisfies what every thread takes for known. -/
def Known (c : T → Contract σ) (s : σ) : Prop := ∀ t, (c t).known s

/-- **One step.**  A pool that keeps its contracts still does after any thread
moves, and the step was a look at the program text or an action within the
guarantee of the thread that took it. -/
theorem Pool.step_sound (hc : Compatible code c I) {w : Pool T ι σ L}
    (hw : Sound c I w) {t : T} {i : ι} (hknown : Known c w.state)
    (hnext : Known c (w.step code t i).state) :
    Sound c I (w.step code t i) ∧
      ((w.step code t i).state = w.state ∨
        (c t).guar w.state (w.step code t i).state) := by
  cases hprog : w.threads t with
  | ret l =>
      have hstep : w.step code t i =
          { w with threads := Function.update w.threads t (code t l) } := by
        simp [Pool.step, hprog]
      refine ⟨?_, Or.inl (by rw [hstep])⟩
      intro u
      rw [hstep]
      by_cases hu : u = t
      · subst hu
        have hpoint : I u l w.state := by simpa [hprog, wp] using hw u
        simpa using hc.body u l w.state hpoint
      · simpa [Function.update_of_ne hu] using hw u
  | act f n =>
      have hstep : w.step code t i =
          { state := f i w.state
            threads := Function.update w.threads t (n i w.state) } := by
        simp [Pool.step, hprog]
      have hbody := hw t
      rw [hprog] at hbody
      rw [hstep] at hnext ⊢
      obtain ⟨hguar, hrest⟩ := hbody w.state ((c t).rely_refl _) (hknown t) i
        (hnext t)
      refine ⟨?_, Or.inr hguar⟩
      intro u
      by_cases hu : u = t
      · subst hu
        simpa using hrest
      · simpa [Function.update_of_ne hu] using wp_stable (hc.stable u) _ _
          (hw u) (hc.allows (Ne.symm hu) hguar) (hnext u)

/-- **Parallel composition.**  Contracts are kept along every interleaving
whose states satisfy what is known. -/
theorem Pool.run_sound (hc : Compatible code c I) {w : Pool T ι σ L}
    (hw : Sound c I w) (schedule : List (T × ι))
    (hknown : ∀ first, first <+: schedule →
      Known c (w.run code first).state) :
    Sound c I (w.run code schedule) := by
  induction schedule using List.reverseRecOn with
  | nil => exact hw
  | append_singleton rest e ih =>
      have hrest := ih (fun first h => hknown first (h.trans (List.prefix_append _ _)))
      rw [Pool.run_concat]
      refine (Pool.step_sound hc hrest ?_ ?_).1
      · exact hknown rest (List.prefix_append _ _)
      · rw [← Pool.run_concat]
        exact hknown _ List.prefix_rfl

omit [DecidableEq T] in
/-- A thread standing at a control point is in the assertion of that point. -/
theorem Sound.at_point {w : Pool T ι σ L} (hw : Sound c I w) {t : T} {l : L}
    (h : w.threads t = .ret l) : I t l w.state := by
  simpa [h, wp] using hw t

/-- **Invariants.**  What every guarantee preserves holds along every run. -/
theorem Pool.run_invariant (hc : Compatible code c I) {J : σ → Prop}
    (hJ : ∀ t s s', (c t).guar s s' → J s → J s')
    {w : Pool T ι σ L} (hw : Sound c I w) (hinit : J w.state)
    (schedule : List (T × ι))
    (hknown : ∀ first, first <+: schedule →
      Known c (w.run code first).state) :
    J (w.run code schedule).state := by
  induction schedule using List.reverseRecOn with
  | nil => exact hinit
  | append_singleton rest e ih =>
      have hprefix : ∀ first, first <+: rest →
          Known c (w.run code first).state :=
        fun first h => hknown first (h.trans (List.prefix_append _ _))
      have hsound := Pool.run_sound hc hw rest hprefix
      have hlast : Known c ((w.run code rest).step code e.1 e.2).state := by
        rw [← Pool.run_concat]
        exact hknown _ List.prefix_rfl
      obtain ⟨_, hstate | hguar⟩ := Pool.step_sound hc hsound
        (hknown rest (List.prefix_append _ _)) hlast
      · rw [Pool.run_concat, hstate]
        exact ih hprefix
      · rw [Pool.run_concat]
        exact hJ _ _ _ hguar (ih hprefix)

/-- A thread whose bodies are all in `G` has only actions in `G` before it. -/
theorem Pool.run_threads_always {G : σ → σ → Prop} {t : T} (hcode : ∀ l, (code t l).Always G)
    {w : Pool T ι σ L} (hw : (w.threads t).Always G) (schedule : List (T × ι)) :
    ((w.run code schedule).threads t).Always G := by
  induction schedule using List.reverseRecOn with
  | nil => exact hw
  | append_singleton rest e ih =>
      rw [Pool.run_concat]
      generalize w.run code rest = w at ih
      by_cases ht : t = e.1
      · subst ht
        cases hprog : w.threads e.1 with
        | ret l => simpa [Pool.step, hprog] using hcode l
        | act u n =>
            rw [hprog] at ih
            simpa [Pool.step, hprog] using (ih e.2 w.state).2
      · cases hprog : w.threads e.1 <;> simpa [Pool.step, hprog, ht] using ih

/-- A step of such a thread is in `G`, or leaves the state alone. -/
theorem Pool.step_always {G : σ → σ → Prop} {w : Pool T ι σ L} {t : T}
    (hw : (w.threads t).Always G) (i : ι) :
    (w.step code t i).state = w.state ∨ G w.state (w.step code t i).state := by
  cases hprog : w.threads t with
  | ret l => exact Or.inl (by simp [Pool.step, hprog])
  | act u n =>
      rw [hprog] at hw
      exact Or.inr (by simpa [Pool.step, hprog] using (hw i w.state).1)

/-- What does not hold at first and holds in the end came about in one step. -/
theorem Pool.exists_turn {P : σ → Prop} {w : Pool T ι σ L} {schedule : List (T × ι)}
    (hfirst : ¬ P w.state) (hlast : P (w.run code schedule).state) :
    ∃ before t i after, schedule = before ++ (t, i) :: after ∧
      ¬ P (w.run code before).state ∧ P ((w.run code before).step code t i).state := by
  induction schedule using List.reverseRecOn with
  | nil => exact absurd hlast hfirst
  | append_singleton rest e ih =>
      by_cases hrest : P (w.run code rest).state
      · obtain ⟨before, t, i, after, hsplit, hbefore, hturn⟩ := ih hrest
        exact ⟨before, t, i, after ++ [e], by simp [hsplit], hbefore, hturn⟩
      · rw [Pool.run_concat] at hlast
        exact ⟨rest, e.1, e.2, [], rfl, hrest, hlast⟩

/-- What every action of every thread preserves holds along every run. -/
theorem Pool.run_always {G : σ → σ → Prop} (hcode : ∀ t l, (code t l).Always G)
    {J : σ → Prop} (hJ : ∀ s s', G s s' → J s → J s') {s : σ} (hinit : J s) (start : L)
    (schedule : List (T × ι)) :
    J ((⟨s, fun _ => .ret start⟩ : Pool T ι σ L).run code schedule).state := by
  have hc : Compatible code (fun _ : T => (⟨fun _ => True, fun _ _ => True, G,
      fun _ => trivial, fun _ _ => trivial⟩ : Contract σ)) (fun _ _ _ => True) := by
    constructor
    · intros
      trivial
    · intro t l s s' _ _ _
      trivial
    · intro t l
      exact (hcode t l).triple (fun _ _ _ _ _ => trivial) (fun _ _ _ hact => hact)
        (fun _ _ _ _ => trivial)
  refine Pool.run_invariant hc (fun _ => hJ) (fun t => ?_) hinit schedule
    (fun _ _ _ => trivial)
  simp [wp]

end Parallel

end Concurrency
