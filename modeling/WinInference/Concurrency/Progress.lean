import Mathlib.Data.List.Count
import WinInference.Concurrency.RelyGuarantee

/-!
# Progress of one thread in a pool

Safety says where a thread may stand, progress that it gets somewhere.  A
thread gets somewhere when each of its bodies is a bounded number of actions
and lowers a rank of control point and state that the other threads do not
raise.  After enough moves of its own, whatever the others do in between, it
stands at a control point with rank zero.

The schedule is not asked to be fair: the number of moves that the thread gets
is counted in the schedule.
-/

namespace Concurrency

variable {ι σ α β T L : Type}

/-! ## The length of a program -/

namespace Program

/-- No path of the program has more than `n` actions. -/
def Within : Program ι σ α → Nat → Prop
  | .ret _, _ => True
  | .act _ next, n => 0 < n ∧ ∀ i s, (next i s).Within (n - 1)

/-- A finished program takes no step. -/
theorem Within.ret (a : α) (n : Nat) : (Program.ret a : Program ι σ α).Within n := trivial

/-- A bound may be raised. -/
theorem Within.mono {p : Program ι σ α} {m n : Nat} (h : p.Within m) (hle : m ≤ n) :
    p.Within n := by
  induction p generalizing m n with
  | ret a => trivial
  | act u next ih =>
      obtain ⟨hpos, hnext⟩ := h
      refine ⟨by omega, fun i s => ?_⟩
      exact ih i s (hnext i s) (by omega)

/-- A composition is as long as its parts together. -/
theorem Within.bind {p : Program ι σ α} {f : α → Program ι σ β} {m n : Nat}
    (hp : p.Within m) (hle : m ≤ n) (hf : ∀ a, (f a).Within (n - m)) : (p >>= f).Within n := by
  induction p generalizing m n with
  | ret a => exact (hf a).mono (Nat.sub_le n m)
  | act u next ih =>
      obtain ⟨hpos, hnext⟩ := hp
      refine ⟨by omega, fun i s => ?_⟩
      refine ih i s (hnext i s) (by omega) fun a => ?_
      exact (hf a).mono (by omega)

/-- An atomic section takes one step. -/
theorem Within.atomic (f : ι → σ → α × σ) : (Program.atomic f).Within 1 :=
  ⟨Nat.one_pos, fun _ _ => trivial⟩

/-- An update takes one step. -/
theorem Within.update (f : σ → σ) : (Program.update f : Program ι σ Unit).Within 1 :=
  Within.atomic _

/-- A read takes one step. -/
theorem Within.read (f : σ → α) : (Program.read f : Program ι σ α).Within 1 :=
  Within.atomic _

/-- A program without actions has ended. -/
theorem Within.ended {p : Program ι σ α} (h : p.Within 0) : ∃ a, p = .ret a := by
  cases p with
  | ret a => exact ⟨a, rfl⟩
  | act u next => exact absurd h.1 (Nat.lt_irrefl 0)

end Program

/-! ## Knowing more -/

section Observing

variable {c : Contract σ} {p : Program ι σ α} {Q Q' : α → σ → Prop} {K : σ → Prop} {s : σ}

/-- The contract of a thread that promises nothing, over runs of which `K` is
known besides. -/
def Contract.observing (c : Contract σ) (K : σ → Prop) : Contract σ where
  known s := c.known s ∧ K s
  rely := c.rely
  guar _ _ := True
  rely_refl := c.rely_refl
  rely_trans := c.rely_trans

/-- What is known of every state is known at the end. -/
theorem wp_observing (hs : K s) (h : wp c p Q s) :
    wp (c.observing K) p (fun a s => Q a s ∧ K s) s := by
  induction p generalizing s with
  | ret a => exact ⟨h, hs⟩
  | act u next ih =>
      intro s' hrely hknown i hnext
      obtain ⟨-, hrest⟩ := h s' hrely hknown.1 i hnext.1
      exact ⟨trivial, ih i s' hnext.2 hrest⟩

/-- An assertion that the other threads keep while `K` lasts. -/
def Lasts (c : Contract σ) (K P : σ → Prop) : Prop :=
  ∀ s s', P s → K s → c.rely s s' → K s' → P s'

section Lasts

variable {P : σ → Prop} (h : Lasts c K P)
include h

/-- What lasts is stable. -/
theorem Lasts.stable : Stable (c.observing K) (fun s => P s ∧ K s) :=
  fun s s' hs hrely hknown => ⟨h s s' hs.1 hs.2 hrely hknown.2, hknown.2⟩

/-- The rule of an atomic section for what lasts. -/
theorem Lasts.atomic {f : ι → σ → α × σ} {R : α → σ → Prop}
    (hf : ∀ i s, P s → K s → K (f i s).2 → R (f i s).1 (f i s).2) :
    Triple (c.observing K) (fun s => P s ∧ K s) (Program.atomic f) (fun a s => R a s ∧ K s) :=
  Triple.atomic h.stable fun i s hs _ hnext => ⟨trivial, hf i s hs.1 hs.2 hnext.2, hnext.2⟩

/-- The rule of an update for what lasts. -/
theorem Lasts.update {f : σ → σ} {R : σ → Prop} (hf : ∀ s, P s → K s → K (f s) → R (f s)) :
    Triple (c.observing K) (fun s => P s ∧ K s) (Program.update f : Program ι σ Unit)
      (fun _ s => R s ∧ K s) :=
  h.atomic fun _ => hf

/-- A program whose actions are all in a relation that keeps the assertion. -/
theorem Lasts.always {G : σ → σ → Prop} {p : Program ι σ α} (hp : p.Always G)
    (hkeep : ∀ s s', P s → K s → G s s' → K s' → P s') :
    Triple (c.observing K) (fun s => P s ∧ K s) p (fun _ s => P s ∧ K s) := by
  induction p with
  | ret a => exact fun s hs => hs
  | act u next ih =>
      intro s hs s' hrely hknown i hnext
      obtain ⟨hact, hrest⟩ := hp i s'
      have hthen := h s s' hs.1 hs.2 hrely hknown.2
      refine ⟨trivial, ih i s' hrest _ ⟨?_, hnext.2⟩⟩
      exact hkeep s' (u i s') hthen hknown.2 hact hnext.2

end Lasts

/-- A program that need not promise anything keeps its contract. -/
theorem Triple.unpromised (hguar : ∀ s s', c.guar s s') (p : Program ι σ α) :
    Triple c (fun _ => True) p (fun _ _ => True) := by
  induction p with
  | ret a => exact fun _ _ => trivial
  | act u next ih => exact fun s _ s' _ _ i _ => ⟨hguar _ _, ih i s' _ trivial⟩

/-- Two weakest preconditions hold together. -/
theorem wp_both (h : wp c p Q s) (h' : wp c p Q' s) :
    wp c p (fun a s => Q a s ∧ Q' a s) s := by
  induction p generalizing s with
  | ret a => exact ⟨h, h'⟩
  | act u next ih =>
      intro s' hrely hknown i hnext
      obtain ⟨hguar, hrest⟩ := h s' hrely hknown i hnext
      exact ⟨hguar, ih i s' hrest (h' s' hrely hknown i hnext).2⟩

end Observing

/-! ## Ranks -/

section Rank

variable [DecidableEq T] {code : T → L → Program ι σ L} {c : T → Contract σ}
  {I : T → L → σ → Prop} {t : T} {K : σ → Prop} {rank : L → σ → Nat} {k m n : Nat}

/-- While `K` lasts, the bodies of `t` lower the rank in at most `k` actions
each, and nobody else raises it. -/
structure Ranked (code : T → L → Program ι σ L) (c : T → Contract σ) (I : T → L → σ → Prop)
    (t : T) (K : σ → Prop) (rank : L → σ → Nat) (k : Nat) : Prop where
  within : ∀ l, (code t l).Within k
  steady : ∀ {l s s'}, I t l s → K s → (c t).rely s s' → K s' → rank l s' ≤ rank l s
  lowers : ∀ l m, Triple ((c t).observing K) (fun s => (I t l s ∧ rank l s ≤ m + 1) ∧ K s)
    (code t l) (fun l' s' => rank l' s' ≤ m)

/-- The assertion of a control point with a bound on the rank. -/
def Near (I : T → L → σ → Prop) (t : T) (K : σ → Prop) (rank : L → σ → Nat) (m : Nat) (l : L)
    (s : σ) : Prop :=
  (I t l s ∧ rank l s ≤ m) ∧ K s

omit [DecidableEq T] in
/-- Being near survives the moves of the others. -/
theorem Ranked.near_stable (hr : Ranked code c I t K rank k) (hc : Compatible code c I) (m : Nat)
    (l : L) : Stable ((c t).observing K) (Near I t K rank m l) := by
  intro s s' hs hrely hknown
  obtain ⟨⟨hpoint, hrank⟩, hK⟩ := hs
  refine ⟨⟨hc.stable t l s s' hpoint hrely hknown.1, ?_⟩, hknown.2⟩
  exact Nat.le_trans (hr.steady hpoint hK hrely hknown.2) hrank

omit [DecidableEq T] in
/-- A pass of the ranked thread comes one nearer. -/
theorem Ranked.near_body (hr : Ranked code c I t K rank k) (hc : Compatible code c I) (m : Nat)
    (l : L) : Triple ((c t).observing K) (Near I t K rank (m + 1) l) (code t l)
      (Near I t K rank m) := by
  intro s hs
  have hbody := wp_observing hs.2 (hc.body t l s hs.1.1)
  refine wp_mono (fun l' s' hboth => ?_) (wp_both hbody (hr.lowers l m s hs))
  exact ⟨⟨hboth.1.1, hboth.2⟩, hboth.1.2⟩

/-- **Getting there.**  With `n` actions before its next control point and a
rank of at most `m` there, the thread reaches rank zero within `n` moves and
`k + 1` more for each unit of rank. -/
theorem Ranked.reaches (hr : Ranked code c I t K rank k) (hc : Compatible code c I)
    {w : Pool T ι σ L} (hw : Sound c I w) (hwithin : (w.threads t).Within n)
    (hnear : wp ((c t).observing K) (w.threads t) (Near I t K rank m) w.state)
    {schedule : List (T × ι)}
    (hknown : ∀ first, first <+: schedule →
      Known c (w.run code first).state ∧ K (w.run code first).state)
    (hlong : n + m * (k + 1) ≤ schedule.countP (·.1 = t)) :
    ∃ first, first <+: schedule ∧
      ∃ l, (w.run code first).threads t = .ret l ∧ rank l (w.run code first).state = 0 := by
  induction schedule generalizing w n m with
  | nil =>
      have hzero : n = 0 ∧ m * (k + 1) = 0 := by
        rw [List.countP_nil] at hlong
        omega
      obtain ⟨rfl, hprod⟩ := hzero
      obtain rfl : m = 0 := (Nat.mul_eq_zero.mp hprod).resolve_right (Nat.succ_ne_zero k)
      obtain ⟨l, hl⟩ := hwithin.ended
      rw [hl] at hnear
      have hrank : rank l w.state ≤ 0 := hnear.1.2
      exact ⟨[], List.prefix_rfl, l, hl, Nat.le_zero.mp hrank⟩
  | cons e rest ih =>
      have hhere := hknown [] List.nil_prefix
      have hthere := hknown [e] (by simp)
      have hstep : w.run code [e] = w.step code e.1 e.2 := rfl
      rw [hstep] at hthere
      have hrest : ∀ first, first <+: rest →
          Known c ((w.step code e.1 e.2).run code first).state ∧
            K ((w.step code e.1 e.2).run code first).state := by
        intro first hfirst
        exact hknown (e :: first) ((List.prefix_cons_inj e).mpr hfirst)
      obtain ⟨hsound, hmove⟩ := Pool.step_sound (i := e.2) hc hw hhere.1 hthere.1
      -- what is left after the step is a run of the rest of the schedule
      have hgo : ∀ (a b : Nat), ((w.step code e.1 e.2).threads t).Within a →
          wp ((c t).observing K) ((w.step code e.1 e.2).threads t) (Near I t K rank b)
            (w.step code e.1 e.2).state →
          a + b * (k + 1) ≤ rest.countP (·.1 = t) →
          ∃ first, first <+: e :: rest ∧ ∃ l, (w.run code first).threads t = .ret l ∧
            rank l (w.run code first).state = 0 := by
        intro a b hwithin' hnear' hlong'
        obtain ⟨first, hfirst, l, hl, hzero⟩ := ih hsound hwithin' hnear' hrest hlong'
        exact ⟨e :: first, (List.prefix_cons_inj e).mpr hfirst, l, hl, hzero⟩
      by_cases ht : e.1 = t
      · have hcount : (e :: rest).countP (·.1 = t) = rest.countP (·.1 = t) + 1 := by
          rw [List.countP_cons_of_pos (by simpa using ht)]
        rw [hcount] at hlong
        subst ht
        cases hprog : w.threads e.1 with
        | ret l =>
            rw [hprog] at hnear
            have hpoint : Near I e.1 K rank m l w.state := hnear
            cases m with
            | zero => exact ⟨[], List.nil_prefix, l, hprog, Nat.le_zero.mp hpoint.1.2⟩
            | succ m =>
                obtain ⟨hstate, hthread⟩ := Pool.step_ret code hprog e.2
                refine hgo k m ?_ ?_ ?_
                · rw [hthread]
                  exact hr.within l
                · rw [hthread, hstate]
                  exact hr.near_body hc m l w.state hpoint
                · rw [Nat.succ_mul] at hlong
                  omega
        | act u next =>
            rw [hprog] at hnear hwithin
            obtain ⟨hstate, hthread⟩ := Pool.step_act code hprog e.2
            obtain ⟨hpos, hnext⟩ := hwithin
            rw [hstate] at hthere
            have hthen := hnear w.state ((c e.1).rely_refl _) ⟨hhere.1 e.1, hhere.2⟩ e.2
              ⟨hthere.1 e.1, hthere.2⟩
            refine hgo (n - 1) m ?_ ?_ (by omega)
            · rw [hthread]
              exact hnext e.2 w.state
            · rw [hthread, hstate]
              exact hthen.2
      · have hcount : (e :: rest).countP (·.1 = t) = rest.countP (·.1 = t) := by
          rw [List.countP_cons_of_neg (by simpa using ht)]
        rw [hcount] at hlong
        have hthread : (w.step code e.1 e.2).threads t = w.threads t :=
          Pool.step_of_ne w (Ne.symm ht) e.2
        have hrely : (c t).rely w.state (w.step code e.1 e.2).state := by
          rcases hmove with hsame | hguar
          · rw [hsame]
            exact (c t).rely_refl _
          · exact hc.allows ht hguar
        refine hgo n m ?_ ?_ hlong
        · rw [hthread]
          exact hwithin
        · rw [hthread]
          exact wp_stable (hr.near_stable hc m) _ _ hnear hrely ⟨hthere.1 t, hthere.2⟩

/-- **Progress.**  A thread with bodies of at most `k` actions reaches rank
zero from any moment of a run on, once it has moved often enough for the
highest rank there is. -/
theorem Ranked.progress (hr : Ranked code c I t K rank k) (hc : Compatible code c I)
    (hbound : ∀ l s, I t l s → K s → rank l s ≤ m) {w : Pool T ι σ L} (hw : Sound c I w)
    (hwithin : (w.threads t).Within k) {schedule : List (T × ι)}
    (hknown : ∀ first, first <+: schedule →
      Known c (w.run code first).state ∧ K (w.run code first).state)
    (hlong : (m + 1) * (k + 1) ≤ schedule.countP (·.1 = t)) :
    ∃ first, first <+: schedule ∧
      ∃ l, (w.run code first).threads t = .ret l ∧ rank l (w.run code first).state = 0 := by
  have hstart := wp_observing (hknown [] List.nil_prefix).2 (hw t)
  have hnear : wp ((c t).observing K) (w.threads t) (Near I t K rank m) w.state :=
    wp_mono (fun l s hs => ⟨⟨hs.1, hbound l s hs.1 hs.2⟩, hs.2⟩) hstart
  refine hr.reaches hc hw hwithin hnear hknown ?_
  rw [Nat.succ_mul] at hlong
  omega

/-- The threads of a pool are never further from their next control point than
their bodies are long. -/
theorem Pool.run_within {code : T → L → Program ι σ L} (hcode : ∀ l, (code t l).Within k)
    {w : Pool T ι σ L} (hw : (w.threads t).Within k) (schedule : List (T × ι)) :
    ((w.run code schedule).threads t).Within k := by
  induction schedule generalizing w with
  | nil => exact hw
  | cons e rest ih =>
      refine ih (w := w.step code e.1 e.2) ?_
      by_cases ht : t = e.1
      · subst ht
        cases hprog : w.threads e.1 with
        | ret l =>
            rw [(Pool.step_ret code hprog e.2).2]
            exact hcode l
        | act u next =>
            rw [hprog] at hw
            rw [(Pool.step_act code hprog e.2).2]
            exact (hw.2 e.2 w.state).mono (Nat.sub_le k 1)
      · rw [Pool.step_of_ne w ht]
        exact hw

end Rank

end Concurrency
