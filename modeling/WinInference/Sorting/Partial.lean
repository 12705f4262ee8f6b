import Mathlib.Algebra.BigOperators.Group.List.Basic
import Mathlib.Algebra.Order.BigOperators.Group.List
import Mathlib.Order.Bounds.Defs

/-!
# Partial sorting and the largest entries of a list

A partial sort brings the first entries of a list, in the order of a comparison,
to its front, and leaves the rest in any order.  Sorted downwards, its front is
made of the largest entries, so the sums of its prefixes are the sums of the
largest entries of the list.

`topSum_of_front` says that a front of largest entries has the largest sums,
`isLeast_iff_of_le` finds the least length whose sum reaches a bound, and
`topSum_mono` and `topSum_all` are the two ends of the scale.
-/

namespace Sorting

variable {α : Type} {β : Type*}

/-- The comparisons that a sort is specified for: a strict weak order. -/
structure StrictWeak (less : α → α → Bool) : Prop where
  asymm : ∀ {a b}, less a b = true → less b a = false
  negTrans : ∀ {a b c}, less a b = false → less b c = false → less a c = false

theorem StrictWeak.descending [LinearOrder β] (key : α → β) :
    StrictWeak fun a b => decide (key b < key a) where
  asymm h := decide_eq_false (not_lt_of_gt (of_decide_eq_true h))
  negTrans h h' := decide_eq_false
    (not_lt_of_ge (le_trans (not_lt.mp (of_decide_eq_false h)) (not_lt.mp (of_decide_eq_false h'))))

/-- A partial sort of the first `m` places.  The order of equal entries and that
of the rest are left open. -/
structure PartialSort (α : Type) where
  run : (α → α → Bool) → Nat → List α → List α
  perm : ∀ less m l, (run less m l).Perm l
  sorted : ∀ {less} m l, StrictWeak less →
    ((run less m l).take m).Pairwise fun a b => less b a = false
  first : ∀ {less} m l, StrictWeak less →
    ∀ a ∈ (run less m l).take m, ∀ b ∈ (run less m l).drop m, less b a = false

theorem StrictWeak.pairwise_mergeSort {less : α → α → Bool} (h : StrictWeak less) (l : List α) :
    (l.mergeSort fun a b => !less b a).Pairwise fun a b => less b a = false := by
  have htrans : ∀ a b c : α, (!less b a) = true → (!less c b) = true → (!less c a) = true := by
    intro a b c hab hbc
    rw [Bool.not_eq_true'] at hab hbc ⊢
    exact h.negTrans hbc hab
  have htotal : ∀ a b : α, (!less b a || !less a b) = true := by
    intro a b
    cases hab : less a b with
    | false => simp
    | true =>
        rw [h.asymm hab]
        rfl
  exact (List.pairwise_mergeSort htrans htotal l).imp fun hab => Bool.not_eq_true' _ ▸ hab

/-- Sorting everything is a partial sort. -/
def PartialSort.merge (α : Type) : PartialSort α where
  run less _ l := l.mergeSort fun a b => !less b a
  perm _ _ l := List.mergeSort_perm l _
  sorted _ l h := (h.pairwise_mergeSort l).sublist (List.take_sublist _ _)
  first := by
    intro less m l h a ha b hb
    have hall := h.pairwise_mergeSort l
    rw [← List.take_append_drop m (l.mergeSort _)] at hall
    exact (List.pairwise_append.mp hall).2.2 a ha b hb

/-! ## The largest entries -/

section Largest

variable {K : Type*} [LinearOrder K]

/-- The entries of a list from the largest down. -/
def descending (l : List K) : List K := l.mergeSort fun a b => decide (b ≤ a)

theorem descending_pairwise (l : List K) : (descending l).Pairwise (· ≥ ·) := by
  have htrans : ∀ a b c : K, decide (b ≤ a) = true → decide (c ≤ b) = true →
      decide (c ≤ a) = true := fun a b c hab hbc =>
    decide_eq_true (le_trans (of_decide_eq_true hbc) (of_decide_eq_true hab))
  have htotal : ∀ a b : K, (decide (b ≤ a) || decide (a ≤ b)) = true := fun a b => by
    simpa using le_total b a
  exact (List.pairwise_mergeSort htrans htotal l).imp fun hab => of_decide_eq_true hab

theorem descending_perm (l : List K) : (descending l).Perm l := List.mergeSort_perm l _

/-- A list whose front is sorted downwards and above the rest begins with the
largest entries. -/
theorem take_descending {l v : List K} (hperm : v.Perm l) {m : Nat}
    (hsorted : (v.take m).Pairwise (· ≥ ·)) (hfirst : ∀ a ∈ v.take m, ∀ b ∈ v.drop m, b ≤ a) :
    (descending l).take m = v.take m := by
  have hwhole : (v.take m ++ descending (v.drop m)).Pairwise (· ≥ ·) := by
    refine List.pairwise_append.mpr ⟨hsorted, descending_pairwise _, fun a ha b hb => ?_⟩
    exact hfirst a ha b ((descending_perm _).mem_iff.mp hb)
  have hsame : descending l = v.take m ++ descending (v.drop m) := by
    refine List.Perm.eq_of_pairwise (fun a b _ _ hab hba => le_antisymm hba hab)
      (descending_pairwise l) hwhole ?_
    have hparts := ((descending_perm (v.drop m)).append_left (v.take m))
    rw [List.take_append_drop] at hparts
    exact (descending_perm l).trans (hparts.trans hperm).symm
  rw [hsame]
  by_cases hm : m ≤ v.length
  · rw [List.take_append_of_le_length (by rw [List.length_take, Nat.min_eq_left hm]),
      List.take_take, Nat.min_self]
  · have hdrop : v.drop m = [] := List.drop_eq_nil_of_le (by omega)
    rw [hdrop]
    have hnil : descending ([] : List K) = [] := List.mergeSort_nil
    rw [hnil, List.append_nil, List.take_take, Nat.min_self]

/-- The first place where a growing sequence reaches a lower bound is also where
it reaches a higher one, unless it takes a value between the two. -/
theorem isLeast_iff_of_le {f : Nat → K} (hmono : Monotone f) {low high : K} (hle : low ≤ high)
    {n : Nat} (hn : IsLeast {k | low ≤ f k} n) :
    IsLeast {k | high ≤ f k} n ↔ ∀ k, ¬ (low ≤ f k ∧ f k < high) := by
  constructor
  · intro hhigh k hk
    have hnk : f n ≤ f k := hmono (hn.2 hk.1)
    exact absurd (hhigh.1.trans hnk) (not_le_of_gt hk.2)
  · intro hnone
    refine ⟨not_lt.mp fun hlt => hnone n ⟨hn.1, hlt⟩, fun k hk => ?_⟩
    have hlow : low ≤ f k := hle.trans hk
    exact hn.2 hlow

variable [AddCommGroup K]

/-- The sum of the `k` largest entries. -/
def topSum (k : Nat) (l : List K) : K := ((descending l).take k).sum

theorem topSum_all {k : Nat} {l : List K} (h : l.length ≤ k) : topSum k l = l.sum := by
  unfold topSum
  rw [List.take_of_length_le (by rw [(descending_perm l).length_eq]; exact h),
    (descending_perm l).sum_eq]

/-- More entries have a larger sum. -/
theorem topSum_mono [IsOrderedAddMonoid K] {l : List K} (hnonneg : ∀ x ∈ l, 0 ≤ x) {i j : Nat}
    (h : i ≤ j) :
    topSum i l ≤ topSum j l := by
  have hparts : topSum j l = topSum i l + (((descending l).take j).drop i).sum := by
    unfold topSum
    rw [← List.sum_take_add_sum_drop ((descending l).take j) i, List.take_take, Nat.min_eq_left h]
  rw [hparts]
  refine le_add_of_nonneg_right (List.sum_nonneg fun x hx => hnonneg x ?_)
  exact (descending_perm l).mem_iff.mp (List.mem_of_mem_take (List.mem_of_mem_drop hx))

/-- The prefix sums of a sorted front are the sums of the largest entries. -/
theorem topSum_of_front {l v : List K} (hperm : v.Perm l) {m : Nat}
    (hsorted : (v.take m).Pairwise (· ≥ ·)) (hfirst : ∀ a ∈ v.take m, ∀ b ∈ v.drop m, b ≤ a)
    {k : Nat} (hk : k ≤ m) : topSum k l = (v.take k).sum := by
  have hfront := congrArg (List.take k) (take_descending hperm hsorted hfirst)
  rw [List.take_take, List.take_take, Nat.min_eq_left hk] at hfront
  unfold topSum
  rw [hfront]

theorem topSum_replicate (k n : Nat) (x : K) : topSum k (List.replicate n x) = min k n • x := by
  have hsame : descending (List.replicate n x) = List.replicate n x :=
    List.perm_replicate.mp (descending_perm _)
  unfold topSum
  rw [hsame, List.take_replicate, List.sum_replicate]

end Largest

end Sorting
