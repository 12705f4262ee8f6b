import WinInference.Concurrency.RelyGuarantee

/-!
# One thread among bystanders

Often a single thread matters, and all that is needed of the others is that
each of their actions is in one relation `R`.  The thread is then verified
against `R` alone, as if there were no others.

`Lone` is a thread with its contract against `R`, and `Steady` a fact that `R`
keeps.  `Lone.compatible` makes contracts for all threads out of the one, and
`Lone.run` draws the conclusion for every run of the pool.
-/

namespace Concurrency

variable {T ι σ L : Type}

/-- The contract of a bystander of a thread under contract `c`. -/
def Contract.bystander (c : Contract σ) : Contract σ where
  known := c.known
  rely _ _ := True
  guar := c.rely
  rely_refl _ := trivial
  rely_trans _ _ := trivial

/-- What a lone thread may assume and promises: `always` holds after each of its
actions. -/
structure LoneSetup (σ : Type) where
  known : σ → Prop
  rely : σ → σ → Prop
  rely_refl : ∀ s, rely s s
  rely_trans : ∀ {s t u}, rely s t → rely t u → rely s u
  always : σ → Prop

namespace LoneSetup

variable (c : LoneSetup σ)

/-- An assertion that bystanders do not break. -/
def Steady (P : σ → Prop) : Prop := ∀ s s', P s → c.rely s s' → P s'

/-- The contract of the lone thread. -/
def contract : Contract σ where
  known := c.known
  rely := c.rely
  guar _ s' := c.always s'
  rely_refl := c.rely_refl
  rely_trans := c.rely_trans

theorem Steady.stable {c : LoneSetup σ} {P : σ → Prop} (h : c.Steady P) :
    Stable c.contract P :=
  fun s s' hs hrely _ => h s s' hs hrely

theorem Steady.and {c : LoneSetup σ} {P Q : σ → Prop} (hP : c.Steady P) (hQ : c.Steady Q) :
    c.Steady (fun s => P s ∧ Q s) :=
  fun s s' hs hrely => ⟨hP s s' hs.1 hrely, hQ s s' hs.2 hrely⟩

end LoneSetup

/-- A proof about the thread `t₀`: where it stands at its control points, and
what holds after each action. -/
structure Lone (code : T → L → Program ι σ L) (t₀ : T) (c : LoneSetup σ)
    (I : L → σ → Prop) : Prop where
  others : ∀ t, t ≠ t₀ → ∀ l, (code t l).Always c.rely
  steady : ∀ l, c.Steady (I l)
  steady_always : c.Steady c.always
  body : ∀ l, Triple c.contract (I l) (code t₀ l) I

section Run

variable [DecidableEq T] {code : T → L → Program ι σ L} {t₀ : T} {I : L → σ → Prop}

/-- Who keeps which contract. -/
def loneContracts (t₀ : T) (c : Contract σ) (t : T) : Contract σ :=
  if t = t₀ then c else c.bystander

/-- The assertions of `I` for the lone thread, none for the others. -/
def lonePoint (t₀ : T) (I : L → σ → Prop) (t : T) (l : L) (s : σ) : Prop :=
  t = t₀ → I l s

section Contract

variable {c : Contract σ}

/-- A thread that keeps its contract among bystanders. -/
theorem Compatible.lone (others : ∀ t, t ≠ t₀ → ∀ l, (code t l).Always c.rely)
    (stable : ∀ l, Stable c (I l)) (body : ∀ l, Triple c (I l) (code t₀ l) I) :
    Compatible code (loneContracts t₀ c) (lonePoint t₀ I) := by
  constructor
  · intro t u htu s s' hguar
    by_cases hu : u = t₀
    · have ht : t ≠ t₀ := fun ht => htu (ht.trans hu.symm)
      rw [loneContracts, if_neg ht] at hguar
      rw [loneContracts, if_pos hu]
      exact hguar
    · rw [loneContracts, if_neg hu]
      trivial
  · intro t l
    by_cases ht : t = t₀
    · intro s s' hs hrely hknown _
      rw [loneContracts, if_pos ht] at hrely hknown
      exact stable l s s' (hs ht) hrely hknown
    · exact fun _ _ _ _ _ heq => absurd heq ht
  · intro t l
    by_cases ht : t = t₀
    · subst ht
      rw [loneContracts, if_pos rfl]
      exact (body l).conseq (fun _ hs => hs rfl) (fun _ _ hs _ => hs)
    · rw [loneContracts, if_neg ht]
      refine ((others t ht l).triple (P := fun _ => True) ?_ ?_ ?_).conseq ?_ ?_
      · exact fun _ _ _ _ _ => trivial
      · exact fun _ _ _ hact => hact
      · exact fun _ _ _ _ => trivial
      · exact fun _ _ => trivial
      · exact fun _ _ _ heq => absurd heq ht

variable {w : Pool T ι σ L} {start : L} {schedule : List (T × ι)}

theorem known_lone (hknown : ∀ first, first <+: schedule → c.known (w.run code first).state)
    (first : List (T × ι)) (hfirst : first <+: schedule) :
    Known (loneContracts t₀ c) (w.run code first).state := by
  intro t
  by_cases ht : t = t₀
  · rw [loneContracts, if_pos ht]
    exact hknown first hfirst
  · rw [loneContracts, if_neg ht]
    exact hknown first hfirst

theorem sound_lone (hw : ∀ t, w.threads t = .ret start) (hstart : I start w.state) :
    Sound (loneContracts t₀ c) (lonePoint t₀ I) w := by
  intro t
  rw [hw t]
  exact fun _ => hstart

theorem Sound.lone (hw : Sound (loneContracts t₀ c) (lonePoint t₀ I) w) :
    wp c (w.threads t₀) I w.state := by
  have h := hw t₀
  rw [loneContracts, if_pos rfl] at h
  exact wp_mono (fun _ _ hs => hs rfl) h

/-- **From there on.**  What the lone thread and the bystanders both preserve
is kept from any moment of the run on. -/
theorem Compatible.lone_keeps (hc : Compatible code (loneContracts t₀ c) (lonePoint t₀ I))
    {J : σ → Prop} (hguar : ∀ s s', c.guar s s' → J s → J s')
    (hrely : ∀ s s', c.rely s s' → J s → J s')
    (hw : ∀ t, w.threads t = .ret start) (hstart : I start w.state) {before : List (T × ι)}
    (hbefore : before <+: schedule)
    (hknown : ∀ first, first <+: schedule → c.known (w.run code first).state)
    (hJ : J (w.run code before).state) : J (w.run code schedule).state := by
  have hall : ∀ first, first <+: schedule →
      Known (loneContracts t₀ c) (w.run code first).state := known_lone hknown
  have hsound := Pool.run_sound hc (sound_lone hw hstart) before
    fun first hfirst => hall first (hfirst.trans hbefore)
  obtain ⟨after, rfl⟩ := hbefore
  rw [Pool.run_append]
  refine Pool.run_invariant hc (fun t s s' ht hs => ?_) hsound hJ after fun first hfirst => ?_
  · by_cases heq : t = t₀
    · rw [loneContracts, if_pos heq] at ht
      exact hguar s s' ht hs
    · rw [loneContracts, if_neg heq] at ht
      exact hrely s s' ht hs
  · rw [← Pool.run_append]
    exact hall _ ((List.prefix_append_right_inj before).mpr hfirst)

end Contract

theorem Lone.compatible {c : LoneSetup σ} (h : Lone code t₀ c I) :
    Compatible code (loneContracts t₀ c.contract) (lonePoint t₀ I) :=
  Compatible.lone h.others (fun l => (h.steady l).stable) h.body

/-- **The lone rule.**  What is proved of the thread alone holds in every
interleaving. -/
theorem Lone.run {c : LoneSetup σ} (h : Lone code t₀ c I) {w : Pool T ι σ L} {start : L}
    (hw : ∀ t, w.threads t = .ret start) (hstart : I start w.state) (hJ : c.always w.state)
    (schedule : List (T × ι))
    (hknown : ∀ first, first <+: schedule → c.known (w.run code first).state) :
    (∀ l, (w.run code schedule).threads t₀ = .ret l → I l (w.run code schedule).state) ∧
      c.always (w.run code schedule).state := by
  refine ⟨fun l hl => ?_, h.compatible.lone_keeps (fun _ _ hs' _ => hs')
    (fun s s' hrely hs => h.steady_always s s' hs hrely) hw hstart List.nil_prefix hknown hJ⟩
  have hlone := (Pool.run_sound h.compatible (sound_lone hw hstart) schedule
    (known_lone hknown)).lone
  simpa [hl, wp] using hlone

end Run

end Concurrency
