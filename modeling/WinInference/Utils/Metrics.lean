import Mathlib.Algebra.Order.Monoid.Unbundled.WithTop
import Mathlib.Data.List.AList
import Mathlib.Order.BoundedOrder.Basic
import WinInference.Counting.Buckets
import WinInference.Utils.Basic

/-!
# Metrics

The registry of `utils/metrics.cpp` and its export.  The numbers of type `double`
are a linear order with the two infinities as its ends; how they are added and
printed is left open.  A map is exported in the order of its entries, which the
code does not fix either.

`Observed` says that a histogram holds the counts of a list of values, as
`uint64_t`; `Observed.run` keeps it in every sequence of calls.
`histogramLines_eq` gives the exported lines in terms of the values, and
`exportPrometheus_contains` finds them in the text.
-/

namespace Qwen

open Counting

/-- `+=` on a `uint64_t`. -/
abbrev uint64Add (a b : Nat) : Nat := Wrapping.add 64 a b

/-- Histogram for latency distributions. -/
structure Histogram (α : Type) where
  bounds : List α
  /-- One bucket for each bound, and one for what is above. -/
  buckets : List Nat
  buckets_length : buckets.length = bounds.length + 1
  sum : α
  count : Nat

namespace Histogram

variable {α : Type}

/-- Constructor with custom bucket bounds. -/
def ofBounds [Zero α] (bucketBounds : List α) : Histogram α where
  bounds := bucketBounds
  buckets := List.replicate (bucketBounds.length + 1) 0
  buckets_length := List.length_replicate
  sum := 0
  count := 0

/-- Default constructor with standard latency buckets. -/
def standard [Zero α] [OfScientific α] : Histogram α :=
  ofBounds [0.001, 0.005, 0.01, 0.025, 0.05, 0.1, 0.25, 0.5, 1.0, 2.5, 5.0, 10.0]

variable [LinearOrder α]

/-- Find bucket. -/
def findBucket (h : Histogram α) (value : α) : Nat :=
  (h.bounds.findIdx? fun bound => decide (value ≤ bound)).getD h.bounds.length

/-- `observe`: the value goes into its bucket, the sum and the count. -/
def observe [Add α] (h : Histogram α) (value : α) : Histogram α where
  bounds := h.bounds
  buckets := h.buckets.modify (h.findBucket value) fun bucket => uint64Add bucket 1
  buckets_length := by rw [List.length_modify, h.buckets_length]
  sum := h.sum + value
  count := uint64Add h.count 1

/-- The bounds with their buckets, infinity the last. -/
def bucketPairs [OrderTop α] (h : Histogram α) : List (α × Nat) :=
  h.bounds.zip h.buckets ++ [(⊤, h.buckets.getLastD 0)]

end Histogram

/-- How numbers are written to a stream. -/
structure NumberFormat (α : Type) where
  /-- `std::fixed` with a precision. -/
  fixed : Nat → α → String

/-- The registry: counters, gauges and histograms by name. -/
structure MetricsRegistry (α : Type) where
  counters : AList fun _ : String => Nat := ∅
  gauges : AList fun _ : String => α := ∅
  histograms : AList fun _ : String => Histogram α := ∅

namespace MetricsRegistry

variable {α : Type}

/-! ## Registry -/

section Registry

variable [Zero α]

/-- `counter(name).increment(delta)`. -/
def incrementCounter (r : MetricsRegistry α) (name : String) (delta : Nat) : MetricsRegistry α :=
  { r with counters :=
      r.counters.insert name (uint64Add ((r.counters.lookup name).getD 0) delta) }

/-- `gauge(name).set(v)`. -/
def setGauge (r : MetricsRegistry α) (name : String) (v : α) : MetricsRegistry α :=
  { r with gauges := r.gauges.insert name v }

/-- `gauge(name).value()`: a gauge that is not there yet is zero. -/
def gaugeValue (r : MetricsRegistry α) (name : String) : α := (r.gauges.lookup name).getD 0

/-- `histogram(name)`: the histogram, and the registry that has it. -/
def histogram [OfScientific α] (r : MetricsRegistry α) (name : String) :
    Histogram α × MetricsRegistry α :=
  match r.histograms.lookup name with
  | some hist => (hist, r)
  | none => (.standard, { r with histograms := r.histograms.insert name .standard })

/-- `histogram(name).observe(value)`. -/
def observe [OfScientific α] [LinearOrder α] [Add α] (r : MetricsRegistry α) (name : String)
    (value : α) : MetricsRegistry α :=
  let (hist, r) := r.histogram name
  { r with histograms := r.histograms.insert name (hist.observe value) }

end Registry

/-- What other code does with the registry. -/
inductive Call (α : Type) where
  | counterIncrement (name : String) (delta : Nat)
  | gaugeSet (name : String) (v : α)
  | gaugeIncrement (name : String) (delta : α)
  | gaugeDecrement (name : String) (delta : α)
  | observe (name : String) (value : α)

/-- One call on the registry. -/
def perform [Zero α] [OfScientific α] [LinearOrder α] [Add α] [Sub α] (r : MetricsRegistry α) :
    Call α → MetricsRegistry α
  | .counterIncrement name delta => r.incrementCounter name delta
  | .gaugeSet name v => r.setGauge name v
  | .gaugeIncrement name delta => r.setGauge name (r.gaugeValue name + delta)
  | .gaugeDecrement name delta => r.setGauge name (r.gaugeValue name - delta)
  | .observe name value => r.observe name value

/-! ## Export -/

/-- The lines of a counter in the export. -/
def counterLines (name : String) (value : Nat) : List String :=
  ["# TYPE " ++ name ++ " counter\n", name ++ " " ++ toString value ++ "\n"]

/-- The lines of a gauge in the export. -/
def gaugeLines (fmt : NumberFormat α) (name : String) (value : α) : List String :=
  ["# TYPE " ++ name ++ " gauge\n", name ++ " " ++ fmt.fixed 6 value ++ "\n"]

section Export

variable [LinearOrder α] [BoundedOrder α] (fmt : NumberFormat α)

/-- `std::isinf`. -/
def isInf (x : α) : Bool := decide (x = ⊤ ∨ x = ⊥)

/-- The line printed for a bound.  Both infinities are printed as `+Inf`. -/
def bucketLine (name : String) (bound : α) (cumulative : Nat) : String :=
  if isInf bound then name ++ "_bucket\x7ble=\"+Inf\"\x7d " ++ toString cumulative ++ "\n"
  else name ++ "_bucket\x7ble=\"" ++ fmt.fixed 3 bound ++ "\"\x7d " ++ toString cumulative ++ "\n"

end Export

/-- The loop over the buckets: the bounds, each with the number printed for it. -/
def cumulate (cumulative : Nat) : List (α × Nat) → List (α × Nat)
  | [] => []
  | (bound, count) :: rest =>
      let cumulative := uint64Add cumulative count
      (bound, cumulative) :: cumulate cumulative rest

section Export

variable [LinearOrder α] [BoundedOrder α] (fmt : NumberFormat α)

/-- The lines of a histogram: cumulative buckets, then sum and count. -/
def histogramLines (name : String) (hist : Histogram α) : List String :=
  ["# TYPE " ++ name ++ " histogram\n"] ++
    ((cumulate 0 hist.bucketPairs).map fun (bound, cumulative) =>
      bucketLine fmt name bound cumulative) ++
    [name ++ "_sum " ++ fmt.fixed 6 hist.sum ++ "\n",
      name ++ "_count " ++ toString hist.count ++ "\n"]

/-- Export metrics in Prometheus text format: the lines of the text. -/
def exportLines (r : MetricsRegistry α) : List String :=
  (r.counters.entries.flatMap fun entry => counterLines entry.1 entry.2) ++
    (r.gauges.entries.flatMap fun entry => gaugeLines fmt entry.1 entry.2) ++
    r.histograms.entries.flatMap fun entry => histogramLines fmt entry.1 entry.2

/-- `export_prometheus`: the lines of all metrics, one after another. -/
def exportPrometheus (r : MetricsRegistry α) : String := String.join (exportLines fmt r)

end Export

end MetricsRegistry

/-! ## What a histogram holds -/

namespace Histogram

variable {α : Type} [LinearOrder α]

/-- A histogram after it has observed the values: its counters show the values
in each bucket and all of them modulo `2 ^ 64`. -/
structure Observed [Zero α] [Add α] (hist : Histogram α) (values : List α) : Prop where
  buckets : hist.buckets = (bucketCounts hist.bounds values).map (· % 2 ^ 64)
  sum : hist.sum = values.foldl (· + ·) 0
  count : hist.count = values.length % 2 ^ 64

section Fields

variable [Add α] (hist : Histogram α) (value : α)

/-- An observation leaves the bounds as they are. -/
@[simp] theorem observe_bounds : (hist.observe value).bounds = hist.bounds := rfl

/-- An observation counts in the bucket of its value only. -/
@[simp] theorem observe_buckets : (hist.observe value).buckets =
    hist.buckets.modify (hist.findBucket value) fun bucket => uint64Add bucket 1 := rfl

/-- An observation adds its value to the sum. -/
@[simp] theorem observe_sum : (hist.observe value).sum = hist.sum + value := rfl

/-- An observation adds one to the count. -/
@[simp] theorem observe_count : (hist.observe value).count = uint64Add hist.count 1 := rfl

/-- Observing keeps the bounds. -/
theorem foldl_observe_bounds (values : List α) :
    (values.foldl Histogram.observe hist).bounds = hist.bounds := by
  induction values generalizing hist with
  | nil => rfl
  | cons v rest ih => rw [List.foldl_cons, ih, observe_bounds]

end Fields

/-- The bucket the code finds is the one of the value among the bounds. -/
theorem findBucket_eq (hist : Histogram α) (value : α) :
    hist.findBucket value = bucketOf hist.bounds value :=
  List.findIdx_eq_getD_findIdx?.symm

section Run

variable [Zero α] [Add α]

/-- A new histogram has observed nothing. -/
theorem observed_ofBounds (bounds : List α) : (ofBounds bounds).Observed [] where
  buckets := by
    have hzero : bucketCounts bounds [] = List.replicate (bounds.length + 1) 0 := tally_nil _ _
    unfold ofBounds
    rw [hzero, List.map_replicate, Nat.zero_mod]
  sum := rfl
  count := rfl

/-- The step: one more value. -/
theorem Observed.observe {hist : Histogram α} {values : List α} (h : hist.Observed values)
    (value : α) : (hist.observe value).Observed (values ++ [value]) where
  buckets := by
    have hcounts : bucketCounts hist.bounds (values ++ [value]) =
        (bucketCounts hist.bounds values).modify (bucketOf hist.bounds value) (· + 1) :=
      tally_concat _ _ _ _
    rw [observe_buckets, observe_bounds, hcounts, findBucket_eq, h.buckets]
    apply List.ext_getElem?
    intro i
    rw [List.getElem?_modify, List.getElem?_map, List.getElem?_map, List.getElem?_modify]
    cases (bucketCounts hist.bounds values)[i]? with
    | none => rfl
    | some n =>
        by_cases hi : bucketOf hist.bounds value = i <;>
          simp [hi, Wrapping.add, Nat.mod_add_mod]
  sum := by
    rw [observe_sum, h.sum, List.foldl_append]
    rfl
  count := by
    rw [observe_count, h.count, List.length_append, List.length_singleton]
    exact Nat.mod_add_mod _ _ _

/-- A run of observations. -/
theorem Observed.run {hist : Histogram α} {before : List α} (h : hist.Observed before)
    (values : List α) : (values.foldl Histogram.observe hist).Observed (before ++ values) := by
  induction values generalizing hist before with
  | nil => rwa [List.append_nil]
  | cons v rest ih =>
      have hrest := ih (h.observe v)
      rwa [List.append_assoc, List.singleton_append] at hrest

end Run

end Histogram

/-! ## What is printed -/

namespace MetricsRegistry

variable {α : Type}

/-- The loop of the export runs through the running sums modulo `2 ^ 64`. -/
theorem cumulate_zip (total : Nat) (bounds : List α) (ns : List Nat) :
    cumulate (total % 2 ^ 64) (bounds.zip (ns.map (· % 2 ^ 64))) =
      bounds.zip ((runningSums total ns).map (· % 2 ^ 64)) := by
  induction ns generalizing total bounds with
  | nil => simp [cumulate, runningSums]
  | cons n rest ih =>
      cases bounds with
      | nil => rfl
      | cons bound bounds =>
          have hsum : uint64Add (total % 2 ^ 64) (n % 2 ^ 64) = (total + n) % 2 ^ 64 :=
            (Nat.add_mod _ _ _).symm
          rw [List.map_cons, List.zip_cons_cons, cumulate, hsum, ih, runningSums, List.map_cons,
            List.zip_cons_cons]

/-- The bounds with their counters, and the last counter under the top bound. -/
theorem zip_concat {bounds : List α} {ns : List Nat} (h : ns.length = bounds.length + 1)
    (top : α) : bounds.zip ns ++ [(top, ns.getLastD 0)] = (bounds ++ [top]).zip ns := by
  rcases List.eq_nil_or_concat' ns with rfl | ⟨init, last, rfl⟩
  · simp at h
  · rw [List.length_append, List.length_singleton] at h
    have hinit : bounds.length = init.length := by omega
    have hzip : (bounds ++ []).zip (init ++ [last]) = bounds.zip init ++ [].zip [last] :=
      List.zip_append hinit
    rw [List.append_nil, List.zip_nil_left, List.append_nil] at hzip
    rw [List.zip_append hinit, hzip, List.getLastD_concat]
    rfl

variable [LinearOrder α] [BoundedOrder α]

/-- The numbers printed for the bounds and for infinity. -/
theorem cumulate_bucketPairs [Zero α] [Add α] {hist : Histogram α} {values : List α}
    (h : hist.Observed values) (hbounds : hist.bounds.Pairwise (· < ·)) :
    cumulate 0 hist.bucketPairs =
      (hist.bounds.map fun bound => (bound, upTo values bound % 2 ^ 64)) ++
        [(⊤, values.length % 2 ^ 64)] := by
  have hpairs : hist.bucketPairs = (hist.bounds ++ [⊤]).zip hist.buckets :=
    zip_concat hist.buckets_length ⊤
  have hself : ∀ f : α → Nat, hist.bounds.zip (hist.bounds.map f) =
      hist.bounds.map fun bound => (bound, f bound) := by
    intro f
    rw [List.zip, List.zipWith_map_right, List.zipWith_self]
  have hloop := cumulate_zip 0 (hist.bounds ++ [⊤]) (bucketCounts hist.bounds values)
  rw [runningSums_bucketCounts hbounds, ← h.buckets, ← hpairs, Nat.zero_mod, List.map_append,
    List.map_map, List.zip_append (by simp), hself] at hloop
  exact hloop

section Lines

variable [Zero α] [Add α] (fmt : NumberFormat α)

/-- The lines of a histogram, from the values that it has observed. -/
def observedLines (name : String) (bounds values : List α) : List String :=
  ["# TYPE " ++ name ++ " histogram\n"] ++
    (bounds.map fun bound => bucketLine fmt name bound (upTo values bound % 2 ^ 64)) ++
    [bucketLine fmt name ⊤ (values.length % 2 ^ 64),
      name ++ "_sum " ++ fmt.fixed 6 (values.foldl (· + ·) 0) ++ "\n",
      name ++ "_count " ++ toString (values.length % 2 ^ 64) ++ "\n"]

/-- The exported lines of a histogram are those of the values it has observed. -/
theorem histogramLines_eq {hist : Histogram α} {values : List α} (h : hist.Observed values)
    (hbounds : hist.bounds.Pairwise (· < ·)) (name : String) :
    histogramLines fmt name hist = observedLines fmt name hist.bounds values := by
  unfold histogramLines observedLines
  rw [cumulate_bucketPairs h hbounds, h.sum, h.count]
  simp

omit [Zero α] [Add α] in
/-- The lines of a histogram stand in the export of its registry. -/
theorem histogramLines_exported {r : MetricsRegistry α} {name : String} {hist : Histogram α}
    (hname : r.histograms.lookup name = some hist) :
    histogramLines fmt name hist <:+: exportLines fmt r := by
  obtain ⟨before, after, hentries⟩ := List.append_of_mem (AList.mem_lookup_iff.mp hname)
  unfold exportLines
  rw [hentries, List.flatMap_append, List.flatMap_cons, ← List.append_assoc, ← List.append_assoc]
  exact List.infix_append _ _ _

/-- The lines of the observed values stand in the exported lines. -/
theorem observedLines_exported {bounds values : List α} (hbounds : bounds.Pairwise (· < ·))
    {r : MetricsRegistry α} {name : String}
    (hname : r.histograms.lookup name =
      some (values.foldl Histogram.observe (Histogram.ofBounds bounds))) :
    observedLines fmt name bounds values <:+: exportLines fmt r := by
  have hobserved : (values.foldl Histogram.observe (Histogram.ofBounds bounds)).Observed values :=
    (Histogram.observed_ofBounds bounds).run values
  have hkept : (values.foldl Histogram.observe (Histogram.ofBounds bounds)).bounds = bounds :=
    Histogram.foldl_observe_bounds _ values
  have hlines := histogramLines_eq fmt hobserved (by rwa [hkept]) name
  rw [hkept] at hlines
  rw [← hlines]
  exact histogramLines_exported fmt hname

omit [Zero α] [Add α] in
/-- Lines of the export stand in its text as one piece. -/
theorem exportPrometheus_contains {r : MetricsRegistry α} {lines : List String}
    (h : lines <:+: exportLines fmt r) :
    ∃ before after, exportPrometheus fmt r = before ++ String.join lines ++ after := by
  obtain ⟨before, after, hlines⟩ := h
  refine ⟨String.join before, String.join after, ?_⟩
  unfold exportPrometheus
  rw [← hlines, String.join_append, String.join_append]

/-! ## A run of the registry -/

section RegistryRun

variable [OfScientific α] [Sub α]

omit [Zero α] [Add α] [LinearOrder α] [BoundedOrder α] [OfScientific α] [Sub α] in
/-- The value that a call observes under a name. -/
def Call.valueOf (name : String) : Call α → Option α
  | .observe other value => if other = name then some value else none
  | _ => none

/-- One value more for a histogram, which is the standard one if it is new. -/
def observeInto (found : Option (Histogram α)) (value : α) : Option (Histogram α) :=
  some ((found.getD .standard).observe value)

omit [BoundedOrder α] [Sub α] in
/-- An observation changes the histogram of its own name only. -/
theorem observe_lookup (r : MetricsRegistry α) (name other : String) (value : α) :
    (r.observe name value).histograms.lookup other =
      if name = other then observeInto (r.histograms.lookup other) value
      else r.histograms.lookup other := by
  unfold observe histogram observeInto
  by_cases hname : name = other
  · subst hname
    cases r.histograms.lookup name <;> simp
  · cases r.histograms.lookup name <;> simp [hname, Ne.symm hname]

omit [BoundedOrder α] in
/-- A call changes the histogram of a name by the value that it observes. -/
theorem perform_lookup (r : MetricsRegistry α) (call : Call α) (name : String) :
    (r.perform call).histograms.lookup name =
      (call.valueOf name).toList.foldl observeInto (r.histograms.lookup name) := by
  cases call with
  | observe other value =>
      unfold perform Call.valueOf
      rw [observe_lookup]
      by_cases hname : other = name <;> simp [hname]
  | _ => rfl

omit [BoundedOrder α] in
/-- The histograms after a run: each has observed the values of its name. -/
theorem foldl_perform_lookup (r : MetricsRegistry α) (calls : List (Call α)) (name : String) :
    (calls.foldl perform r).histograms.lookup name =
      (calls.filterMap (Call.valueOf name)).foldl observeInto (r.histograms.lookup name) := by
  induction calls generalizing r with
  | nil => rfl
  | cons call rest ih =>
      rw [List.foldl_cons, ih, perform_lookup, List.filterMap_cons]
      cases call.valueOf name <;> rfl

omit [BoundedOrder α] [Sub α] in
/-- Observing a list of values is observing them one by one. -/
theorem foldl_observeInto (hist : Histogram α) (values : List α) :
    values.foldl observeInto (some hist) = some (values.foldl Histogram.observe hist) := by
  induction values generalizing hist with
  | nil => rfl
  | cons v rest ih => exact ih (hist.observe v)

/-- **Every run from an empty registry** exports a histogram for each name
observed, whatever else is counted between. -/
theorem export_run {name : String} {calls : List (Call α)}
    (hused : calls.filterMap (Call.valueOf name) ≠ [])
    (hstandard : (Histogram.standard : Histogram α).bounds.Pairwise (· < ·)) :
    ∃ before after, exportPrometheus fmt (calls.foldl perform {}) =
      before ++ String.join (observedLines fmt name (Histogram.standard : Histogram α).bounds
        (calls.filterMap (Call.valueOf name))) ++ after := by
  apply exportPrometheus_contains
  apply observedLines_exported fmt hstandard
  rw [foldl_perform_lookup]
  cases hvalues : calls.filterMap (Call.valueOf name) with
  | nil => exact absurd hvalues hused
  | cons v rest => exact foldl_observeInto _ rest

end RegistryRun

/-- **Exported histograms.**  In every registry, after any run of observations
on increasing bounds: the export shows for each bound the number of values up to
it, and for infinity the same number as the count, all modulo `2 ^ 64`.  With
fewer values the numbers are exact, and do not fall. -/
theorem export_cumulative {bounds : List α} (hbounds : bounds.Pairwise (· < ·)) (values : List α)
    (name : String) (r : MetricsRegistry α)
    (hname : r.histograms.lookup name =
      some (values.foldl Histogram.observe (Histogram.ofBounds bounds))) :
    (∃ before after, exportPrometheus fmt r =
        before ++ String.join (observedLines fmt name bounds values) ++ after) ∧
      (values.length < 2 ^ 64 →
        (∀ bound, upTo values bound % 2 ^ 64 = upTo values bound) ∧
        values.length % 2 ^ 64 = values.length ∧
        (bounds.map (upTo values) ++ [values.length]).Pairwise (· ≤ ·)) := by
  constructor
  · exact exportPrometheus_contains fmt (observedLines_exported fmt hbounds hname)
  · intro hfew
    refine ⟨?_, Nat.mod_eq_of_lt hfew, cumulative_pairwise hbounds values⟩
    intro bound
    exact Nat.mod_eq_of_lt (lt_of_le_of_lt (upTo_le_length values bound) hfew)

end Lines

/-- Whole numbers with two infinities. -/
abbrev Whole := WithBot (WithTop Int)

/-- Whole numbers written in decimal. -/
def wholeFormat : NumberFormat Whole where
  fixed precision x :=
    if x = ⊤ then "inf" else if x = ⊥ then "-inf"
    else toString ((x.unbotD 0).untopD 0) ++ "." ++ String.ofList (List.replicate precision '0')

/-- Three values in a histogram with two bounds, exported. -/
theorem export_cumulative_whole :
    let values : List Whole := [0, 2, 5]
    let hist := values.foldl Histogram.observe (Histogram.ofBounds [1, 2])
    let r : MetricsRegistry Whole := { histograms := AList.insert "latency" hist ∅ }
    (∃ before after, exportPrometheus wholeFormat r =
        before ++ String.join (observedLines wholeFormat "latency" [1, 2] values) ++ after) ∧
      ([1, 2].map (upTo values) ++ [values.length]).Pairwise (· ≤ ·) := by
  intro values hist r
  have hbounds : [(1 : Whole), 2].Pairwise (· < ·) := by decide
  have hname : r.histograms.lookup "latency" = some hist := AList.lookup_insert ∅
  obtain ⟨htext, hfew⟩ := export_cumulative wholeFormat hbounds values "latency" r hname
  exact ⟨htext, (hfew (by decide)).2.2⟩

/-- `n` equal values, and the bound that they meet. -/
theorem cumulate_replicate (n : Nat) :
    upTo (List.replicate n (0 : Whole)) 0 = n ∧
      cumulate 0 ((List.replicate n (0 : Whole)).foldl Histogram.observe
        (Histogram.ofBounds [0])).bucketPairs = [(0, n % 2 ^ 64), (⊤, n % 2 ^ 64)] := by
  have hupTo : upTo (List.replicate n (0 : Whole)) 0 = n := by
    unfold upTo
    rw [List.countP_replicate]
    rfl
  have hobserved := (Histogram.observed_ofBounds [(0 : Whole)]).run (List.replicate n 0)
  have hkept : ((List.replicate n (0 : Whole)).foldl Histogram.observe
      (Histogram.ofBounds [0])).bounds = [0] := Histogram.foldl_observe_bounds _ _
  have hprinted := cumulate_bucketPairs hobserved (by rw [hkept]; exact List.pairwise_singleton _ _)
  rw [hkept, List.nil_append, List.length_replicate, List.map_singleton, hupTo] at hprinted
  exact ⟨hupTo, hprinted⟩

/-- The counters come round after `2 ^ 64` values. -/
theorem export_wraps :
    let values := List.replicate (2 ^ 64) (0 : Whole)
    upTo values 0 = 2 ^ 64 ∧ values.length = 2 ^ 64 ∧
      cumulate 0 (values.foldl Histogram.observe (Histogram.ofBounds [0])).bucketPairs =
        [(0, 0), (⊤, 0)] := by
  intro values
  obtain ⟨hupTo, hprinted⟩ := cumulate_replicate (2 ^ 64)
  rw [Nat.mod_self] at hprinted
  exact ⟨hupTo, List.length_replicate, hprinted⟩

end MetricsRegistry

end Qwen
