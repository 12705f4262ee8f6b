import Mathlib.Algebra.BigOperators.Group.List.Basic
import Mathlib.Data.Nat.ModEq
import Mathlib.Order.Basic

/-!
# Values in buckets

Increasing bounds cut a linear order into buckets: a value goes to the first
bound that it does not exceed, or behind the last one.  Running sums over the
buckets count the values up to each bound.

`bucketOf_le_iff` says which values are in or below a bucket, `tally_concat` how
a value is counted, and `runningSums_bucketCounts` that the running sums are the
numbers of values up to each bound; by `cumulative_pairwise` they never fall.
-/

namespace Counting

/-! ## Classes -/

section Classes

variable {α : Type*}

/-- How many of the values are in each of the first `k` classes. -/
def tally (k : Nat) (classOf : α → Nat) (values : List α) : List Nat :=
  (List.range k).map fun i => values.countP fun v => decide (classOf v = i)

/-- There is one count for each class. -/
@[simp] theorem tally_length (k : Nat) (classOf : α → Nat) (values : List α) :
    (tally k classOf values).length = k := by
  simp [tally]

/-- The count of a class is the number of values in it. -/
theorem tally_getElem? (k : Nat) (classOf : α → Nat) (values : List α) {i : Nat} (hi : i < k) :
    (tally k classOf values)[i]? = some (values.countP fun v => decide (classOf v = i)) := by
  simp [tally, hi]

/-- Without values every count is zero. -/
theorem tally_nil (k : Nat) (classOf : α → Nat) : tally k classOf [] = List.replicate k 0 := by
  apply List.ext_getElem?
  intro i
  simp [tally, List.getElem?_replicate]

/-- One more value adds one to its class. -/
theorem tally_concat (k : Nat) (classOf : α → Nat) (values : List α) (v : α) :
    tally k classOf (values ++ [v]) = (tally k classOf values).modify (classOf v) (· + 1) := by
  apply List.ext_getElem?
  intro i
  rw [List.getElem?_modify]
  by_cases hi : i < k
  · rw [tally_getElem? k classOf _ hi, tally_getElem? k classOf _ hi, List.countP_append]
    by_cases hclass : classOf v = i <;> simp [hclass]
  · simp [tally, hi]

/-- One class more adds its own values. -/
theorem countP_lt_succ (classOf : α → Nat) (values : List α) (n : Nat) :
    values.countP (fun v => decide (classOf v < n + 1)) =
      values.countP (fun v => decide (classOf v < n)) +
        values.countP fun v => decide (classOf v = n) := by
  induction values with
  | nil => rfl
  | cons v rest ih =>
      rw [List.countP_cons, List.countP_cons, List.countP_cons, ih]
      rcases Nat.lt_trichotomy (classOf v) n with hlt | heq | hgt
      · simp [hlt, Nat.lt_succ_of_lt hlt, hlt.ne]
        omega
      · simp [heq]
        omega
      · simp [hgt.ne', not_lt_of_gt hgt, Nat.not_lt_of_le (Nat.succ_le_of_lt hgt)]

/-- The first classes together. -/
theorem sum_take_tally {k : Nat} (classOf : α → Nat) (values : List α) {n : Nat} (hn : n ≤ k) :
    ((tally k classOf values).take n).sum = values.countP fun v => decide (classOf v < n) := by
  have htake : (tally k classOf values).take n = tally n classOf values := by
    unfold tally
    rw [← List.map_take, List.take_range, Nat.min_eq_left hn]
  rw [htake]
  clear htake hn
  induction n with
  | zero => simp [tally]
  | succ n ih =>
      have hsucc : tally (n + 1) classOf values =
          tally n classOf values ++ [values.countP fun v => decide (classOf v = n)] := by
        unfold tally
        rw [List.range_succ, List.map_append, List.map_singleton]
      rw [hsucc, List.sum_append, List.sum_singleton, ih, countP_lt_succ]

end Classes

/-! ## Running sums -/

/-- The sums of the non-empty prefixes of a list, over a start. -/
def runningSums (total : Nat) : List Nat → List Nat
  | [] => []
  | n :: rest => (total + n) :: runningSums (total + n) rest

/-- There is one running sum for each number. -/
@[simp] theorem runningSums_length (total : Nat) (ns : List Nat) :
    (runningSums total ns).length = ns.length := by
  induction ns generalizing total with
  | nil => rfl
  | cons n rest ih => simp [runningSums, ih]

/-- A running sum is the sum of the numbers up to it. -/
theorem runningSums_getElem? (total : Nat) (ns : List Nat) {i : Nat} (hi : i < ns.length) :
    (runningSums total ns)[i]? = some (total + (ns.take (i + 1)).sum) := by
  induction ns generalizing total i with
  | nil => exact absurd hi (Nat.not_lt_zero i)
  | cons n rest ih =>
      unfold runningSums
      cases i with
      | zero => simp
      | succ i =>
          rw [List.length_cons] at hi
          rw [List.getElem?_cons_succ, ih (total + n) (by omega), List.take_succ_cons,
            List.sum_cons, Nat.add_assoc]

/-! ## Buckets -/

section Buckets

variable {α : Type*} [LinearOrder α]

/-- The first bucket whose bound a value does not exceed, or the one behind all
bounds. -/
def bucketOf (bounds : List α) (value : α) : Nat :=
  bounds.findIdx fun bound => decide (value ≤ bound)

/-- A bucket is one of the bounds', or the one above them. -/
theorem bucketOf_le (bounds : List α) (value : α) : bucketOf bounds value ≤ bounds.length :=
  List.findIdx_le_length

/-- A value is in one of the buckets up to a bound if it does not exceed it. -/
theorem bucketOf_le_iff {bounds : List α} (hbounds : bounds.Pairwise (· < ·)) (value : α) {i : Nat}
    (hi : i < bounds.length) : bucketOf bounds value ≤ i ↔ value ≤ bounds[i] := by
  constructor
  · intro hle
    have hlt : bucketOf bounds value < bounds.length := lt_of_le_of_lt hle hi
    have htaken := List.findIdx_getElem (p := fun bound => decide (value ≤ bound)) (w := hlt)
    have hfound : value ≤ bounds[bucketOf bounds value] := of_decide_eq_true htaken
    rcases Nat.lt_or_eq_of_le hle with hbefore | hsame
    · have hrising := List.pairwise_iff_getElem.mp hbounds _ i hlt hi hbefore
      exact hfound.trans hrising.le
    · simpa only [hsame] using hfound
  · intro hle
    by_contra hnot
    have hmissed := List.not_of_lt_findIdx (Nat.lt_of_not_le hnot)
    exact of_decide_eq_false hmissed hle

/-- The values in each bucket. -/
def bucketCounts (bounds : List α) (values : List α) : List Nat :=
  tally (bounds.length + 1) (bucketOf bounds) values

/-- There is one bucket more than bounds. -/
theorem bucketCounts_length (bounds values : List α) :
    (bucketCounts bounds values).length = bounds.length + 1 :=
  tally_length _ _ _

/-- The buckets up to a bound hold the values up to it. -/
theorem sum_take_bucketCounts {bounds : List α} (hbounds : bounds.Pairwise (· < ·))
    (values : List α) {i : Nat} (hi : i < bounds.length) :
    ((bucketCounts bounds values).take (i + 1)).sum =
      values.countP fun v => decide (v ≤ bounds[i]) := by
  unfold bucketCounts
  rw [sum_take_tally _ _ (by omega)]
  apply List.countP_congr
  intro v _
  rw [decide_eq_true_iff, decide_eq_true_iff, Nat.lt_succ_iff, bucketOf_le_iff hbounds v hi]

/-- All buckets hold all values. -/
theorem sum_bucketCounts (bounds values : List α) :
    ((bucketCounts bounds values).take (bounds.length + 1)).sum = values.length := by
  unfold bucketCounts
  rw [sum_take_tally _ _ (Nat.le_refl _), List.countP_eq_length]
  intro v _
  exact decide_eq_true (Nat.lt_succ_of_le (bucketOf_le bounds v))

/-- The number of values up to a bound. -/
def upTo (values : List α) (bound : α) : Nat := values.countP fun v => decide (v ≤ bound)

/-- A larger bound has at least as many values under it. -/
theorem upTo_mono (values : List α) {a b : α} (h : a ≤ b) : upTo values a ≤ upTo values b := by
  apply List.countP_mono_left
  intro v _ hv
  exact decide_eq_true ((of_decide_eq_true hv).trans h)

/-- No bound has more values under it than there are. -/
theorem upTo_le_length (values : List α) (bound : α) : upTo values bound ≤ values.length :=
  List.countP_le_length

/-- **Cumulative counts.**  The running sums of the buckets count the values up
to each bound, and at last all values. -/
theorem runningSums_bucketCounts {bounds : List α} (hbounds : bounds.Pairwise (· < ·))
    (values : List α) :
    runningSums 0 (bucketCounts bounds values) = bounds.map (upTo values) ++ [values.length] := by
  have hlength := bucketCounts_length bounds values
  apply List.ext_getElem?
  intro i
  rcases Nat.lt_trichotomy i bounds.length with hlt | rfl | hgt
  · rw [runningSums_getElem? 0 _ (by omega), Nat.zero_add, sum_take_bucketCounts hbounds values hlt,
      List.getElem?_append_left (by simpa using hlt), List.getElem?_map,
      List.getElem?_eq_getElem hlt]
    rfl
  · rw [runningSums_getElem? 0 _ (by omega), Nat.zero_add, sum_bucketCounts]
    simp
  · rw [List.getElem?_eq_none (by simp [hlength]; omega),
      List.getElem?_eq_none (by simp; omega)]

/-- Cumulative counts do not fall. -/
theorem cumulative_pairwise {bounds : List α} (hbounds : bounds.Pairwise (· < ·))
    (values : List α) : (bounds.map (upTo values) ++ [values.length]).Pairwise (· ≤ ·) := by
  rw [List.pairwise_append]
  refine ⟨?_, List.pairwise_singleton _ _, ?_⟩
  · apply List.pairwise_map.mpr
    exact hbounds.imp fun h => upTo_mono values (le_of_lt h)
  · intro count hcount total htotal
    obtain ⟨bound, -, rfl⟩ := List.mem_map.mp hcount
    rw [List.mem_singleton.mp htotal]
    exact upTo_le_length values bound

end Buckets

end Counting
