import Mathlib.Algebra.BigOperators.Group.Finset.Piecewise
import Mathlib.Algebra.Group.Basic
import Mathlib.Tactic.Abel

/-!
# Cells that threads add to

A thread adds to a cell in one atomic access, or in two: it loads the value and
stores the sum.  What others did between the two accesses is overwritten.  `lost`
adds up what was overwritten; with it the books of a cell balance in every
interleaving, and without any overlap it stays zero.

`Errand` is what a thread is about to do with the cell.  `Accounts.move` keeps
the books in any move, `Accounts.of_idle` reads the value off them when nobody
is on an errand, and `Fresh.move` says that nothing is lost while at most one
thread writes at a time.
-/

namespace Concurrency

/-- What a thread still has to do to a cell. -/
inductive Errand (G : Type) where
  | none
  /-- one atomic access -/
  | add (delta : G)
  /-- the first of two accesses -/
  | load (delta : G)
  | store (current delta : G)
deriving DecidableEq

namespace Errand

variable {G : Type}

/-- Whether there is nothing to do. -/
def isNone : Errand G → Bool
  | .none => true
  | .add _ | .load _ | .store _ _ => false

/-- The test for having nothing to do. -/
theorem isNone_iff {e : Errand G} : e.isNone = true ↔ e = .none := by
  cases e <;> simp [isNone]

/-- What is still to be added. -/
def owed [Zero G] : Errand G → G
  | .none => 0
  | .add delta | .load delta | .store _ delta => delta

/-- The next access changes the cell. -/
def isWriting : Errand G → Bool
  | .add _ | .store _ _ => true
  | .none | .load _ => false

end Errand

/-- A cell, with the threads that are about to add to it. -/
structure Cell (T G : Type) where
  value : G
  errands : T → Errand G
  /-- a history variable: what was added and then overwritten -/
  lost : G

namespace Cell

variable {T G : Type}

/-- A cell at zero, with nobody on an errand. -/
def initial [Zero G] : Cell T G := { value := 0, errands := fun _ => .none, lost := 0 }

/-- No thread is about to add. -/
def Idle (c : Cell T G) : Prop := ∀ t, c.errands t = .none

section Moves

variable [DecidableEq T]

/-- A thread sets out to add. -/
def order (c : Cell T G) (t : T) (e : Errand G) : Cell T G :=
  { c with errands := Function.update c.errands t e }

/-- Who is given an errand has it. -/
@[simp] theorem order_errands_self (c : Cell T G) (t : T) (e : Errand G) :
    (c.order t e).errands t = e := by
  simp [order]

/-- The errands of the others stay as they are. -/
theorem order_errands_of_ne (c : Cell T G) {t u : T} (h : u ≠ t) (e : Errand G) :
    (c.order t e).errands u = c.errands u := by
  simp [order, h]

/-- The next access of a thread. -/
def move [AddCommGroup G] (c : Cell T G) (t : T) : Cell T G :=
  match c.errands t with
  | .none => c
  | .add delta => { c.order t .none with value := c.value + delta }
  | .load delta => c.order t (.store c.value delta)
  | .store current delta =>
      { c.order t .none with
        value := current + delta
        lost := c.lost + (c.value - current) }

end Moves

/-! ## The books of a cell -/

section Books

variable [AddCommGroup G]

/-- All that was ever to be added to the cell, by threads of `S`, is in it, was lost,
or is still to be added. -/
structure Accounts (S : Finset T) (total : G) (c : Cell T G) : Prop where
  outside : ∀ t, t ∉ S → c.errands t = .none
  sum : c.value + c.lost + ∑ t ∈ S, (c.errands t).owed = total

/-- The books of a cell at zero. -/
theorem Accounts.initial (S : Finset T) : Accounts S 0 (Cell.initial : Cell T G) where
  outside _ _ := rfl
  sum := by simp [Cell.initial, Errand.owed]

/-- Once nobody is about to add. -/
theorem Accounts.of_idle {S : Finset T} {total : G} {c : Cell T G} (h : c.Accounts S total)
    (hidle : c.Idle) : c.value + c.lost = total := by
  have hsum : ∑ t ∈ S, (c.errands t).owed = 0 :=
    Finset.sum_eq_zero fun t _ => by rw [hidle t]; rfl
  rw [← h.sum, hsum, add_zero]

variable [DecidableEq T] {S : Finset T} {total : G} {c : Cell T G} {t : T}

/-- A new errand changes what is owed by the difference to the old one. -/
theorem owed_order (ht : t ∈ S) (c : Cell T G) (e : Errand G) :
    ∑ u ∈ S, ((c.order t e).errands u).owed =
      ∑ u ∈ S, (c.errands u).owed + (e.owed - (c.errands t).owed) := by
  have hupdate : (fun u => ((c.order t e).errands u).owed) =
      Function.update (fun u => (c.errands u).owed) t e.owed := by
    funext u
    exact Function.apply_update (fun _ => Errand.owed) c.errands t e u
  have hsplit : ∑ u ∈ S, (c.errands u).owed =
      (c.errands t).owed + ∑ u ∈ S \ {t}, (c.errands u).owed :=
    Finset.sum_eq_add_sum_sdiff_singleton_of_mem ht _
  rw [hupdate, Finset.sum_update_of_mem ht, hsplit]
  abel

/-- Giving an errand to a known thread leaves the others without one. -/
theorem order_outside (h : c.Accounts S total) (ht : t ∈ S) (e : Errand G) {u : T} (hu : u ∉ S) :
    (c.order t e).errands u = .none := by
  have hne : u ≠ t := fun heq => hu (heq ▸ ht)
  rw [order_errands_of_ne c hne]
  exact h.outside u hu

/-- More is to be added. -/
theorem Accounts.order (h : c.Accounts S total) (ht : t ∈ S) (hfree : c.errands t = .none)
    (e : Errand G) : (c.order t e).Accounts S (total + e.owed) where
  outside _ hu := order_outside h ht e hu
  sum := by
    have howed : (c.errands t).owed = 0 := by rw [hfree]; rfl
    rw [owed_order ht, howed, sub_zero, ← h.sum, ← add_assoc]
    rfl

/-- An access leaves the total alone. -/
theorem Accounts.move (h : c.Accounts S total) (t : T) : (c.move t).Accounts S total := by
  by_cases ht : t ∈ S
  · unfold Cell.move
    have hsum := h.sum
    split
    next => exact h
    next delta herrand =>
      refine ⟨fun u hu => order_outside h ht _ hu, ?_⟩
      dsimp only
      rw [owed_order ht, herrand, ← hsum]
      simp only [Errand.owed]
      show c.value + delta + c.lost + _ = _
      abel
    next delta herrand =>
      refine ⟨fun u hu => order_outside h ht _ hu, ?_⟩
      rw [owed_order ht, herrand, ← hsum]
      simp only [Errand.owed]
      show c.value + c.lost + _ = _
      abel
    next current delta herrand =>
      refine ⟨fun u hu => order_outside h ht _ hu, ?_⟩
      dsimp only
      rw [owed_order ht, herrand, ← hsum]
      simp only [Errand.owed]
      abel
  · have hnone : c.move t = c := by
      unfold Cell.move
      rw [h.outside t ht]
    rw [hnone]
    exact h

end Books

/-! ## Undisturbed -/

section Undisturbed

variable [DecidableEq T] {c : Cell T G} {t : T}

/-- Whoever is about to store has loaded what is in the cell. -/
def Fresh (c : Cell T G) : Prop :=
  ∀ t current delta, c.errands t = .store current delta → c.value = current

/-- At most one thread is about to change the cell. -/
def OneAtATime (c : Cell T G) : Prop :=
  ∀ t u, (c.errands t).isWriting = true → (c.errands u).isWriting = true → t = u

/-- An errand that is not a store leaves the loaded values fresh. -/
theorem Fresh.order (h : c.Fresh) {e : Errand G} (he : ∀ current delta, e ≠ .store current delta) :
    (c.order t e).Fresh := by
  intro u current delta herrand
  by_cases hu : u = t
  · rw [hu, order_errands_self] at herrand
    exact absurd herrand (he current delta)
  · rw [order_errands_of_ne c hu] at herrand
    exact h u current delta herrand

/-- After a change nobody else is about to store. -/
theorem fresh_of_changed (hone : c.OneAtATime) (ht : (c.errands t).isWriting = true) (value lost : G) :
    Fresh { c.order t .none with value := value, lost := lost } := by
  intro u current delta herrand
  have herrand : (c.order t .none).errands u = .store current delta := herrand
  by_cases hu : u = t
  · rw [hu, order_errands_self] at herrand
    cases herrand
  · rw [order_errands_of_ne c hu] at herrand
    exact absurd (hone u t (by rw [herrand]; rfl) ht) hu

/-- **Nothing is lost one at a time.** -/
theorem Fresh.move [AddCommGroup G] (h : c.Fresh) (hone : c.OneAtATime) (t : T) :
    (c.move t).Fresh ∧ (c.move t).lost = c.lost := by
  unfold Cell.move
  split
  next => exact ⟨h, rfl⟩
  next delta herrand =>
    exact ⟨fresh_of_changed hone (by rw [herrand]; rfl) _ _, rfl⟩
  next delta herrand =>
    refine ⟨fun u current delta' hstore => ?_, rfl⟩
    by_cases hu : u = t
    · rw [hu, order_errands_self] at hstore
      cases hstore
      rfl
    · rw [order_errands_of_ne c hu] at hstore
      exact h u current delta' hstore
  next current delta herrand =>
    refine ⟨fresh_of_changed hone (by rw [herrand]; rfl) _ _, ?_⟩
    dsimp only
    rw [h t current delta herrand, sub_self, add_zero]

end Undisturbed

end Cell

end Concurrency
