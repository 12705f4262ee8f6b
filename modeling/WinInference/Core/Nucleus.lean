import Mathlib.Algebra.BigOperators.Ring.List
import Mathlib.Data.List.GetD
import WinInference.Core.Sampler

/-!
# The nucleus

`sample_top_p` looks for the nucleus among the tokens of largest logits only, and
it normalizes their weights by their own sum.  Up to the factor of that sum it
finds the least number of tokens whose probabilities reach `top_p`.

`maxCandidates` cuts the search to the 256 largest logits, or to the 1000
largest from a `top_p` of nine tenths on.  `nucleusLoop_spec` and
`nucleusLoop_least` are the loop that adds up probabilities, `findNucleus_spec`
is what it finds, and `softmax_sum` and `topSum_softmax` tie the weights of the
candidates to the probabilities of all tokens.  `sampleTopP_mem` says that the
sampled token lies in the nucleus.
-/

namespace Qwen

open Sorting

namespace Sampler

variable {K : Type} [Field K] [LinearOrder K]

/-! ## The largest logit -/

omit [Field K] in
/-- The largest entry so far stays the first of the largest ones. -/
theorem maxElementFrom_spec {l before rest : List K} (hl : l = before ++ rest) {best : Nat}
    {largest : K} (hbest : l[best]? = some largest) (hlt : best < before.length)
    (hle : ∀ y ∈ before, y ≤ largest) (hfirst : ∀ y ∈ l.take best, y < largest) :
    let found := maxElementFrom best largest before.length rest
    l[found.1]? = some found.2 ∧ (∀ y ∈ l, y ≤ found.2) ∧ ∀ y ∈ l.take found.1, y < found.2 := by
  induction rest generalizing before best largest with
  | nil =>
      rw [List.append_nil] at hl
      subst hl
      exact ⟨hbest, hle, hfirst⟩
  | cons x rest ih =>
      have hx : l[before.length]? = some x := by
        rw [hl]
        simp
      have htake : l.take before.length = before := by
        rw [hl, List.take_left]
      have hl' : l = (before ++ [x]) ++ rest := by simpa using hl
      have hlength : (before ++ [x]).length = before.length + 1 := by simp
      unfold maxElementFrom
      split
      next hlarger =>
        have hle' : ∀ y ∈ before ++ [x], y ≤ x := by
          intro y hy
          rcases List.mem_append.mp hy with hy | hy
          · exact (hle y hy).trans hlarger.le
          · rw [List.mem_singleton.mp hy]
        have hfirst' : ∀ y ∈ l.take before.length, y < x := by
          intro y hy
          rw [htake] at hy
          exact lt_of_le_of_lt (hle y hy) hlarger
        have hfound := ih hl' hx (by omega) hle' hfirst'
        rwa [hlength] at hfound
      next hlarger =>
        have hle' : ∀ y ∈ before ++ [x], y ≤ largest := by
          intro y hy
          rcases List.mem_append.mp hy with hy | hy
          · exact hle y hy
          · rw [List.mem_singleton.mp hy]
            exact not_lt.mp hlarger
        have hfound := ih hl' hbest (by omega) hle' hfirst
        rwa [hlength] at hfound

omit [Field K] in
/-- `max_element` finds the first of the largest entries. -/
theorem maxElement_spec {l : List K} (hne : l ≠ []) :
    ∃ i x, maxElement l = some (i, x) ∧ l[i]? = some x ∧ (∀ y ∈ l, y ≤ x) ∧
      ∀ y ∈ l.take i, y < x := by
  cases l with
  | nil => exact absurd rfl hne
  | cons x rest =>
      have hsplit : x :: rest = [x] ++ rest := rfl
      have hbest : (x :: rest)[0]? = some x := rfl
      have hspec := maxElementFrom_spec hsplit hbest (by simp) (by simp) (by simp)
      exact ⟨_, _, rfl, hspec⟩

/-! ## Candidates -/

/-- A map that never fails is the plain map. -/
theorem mapM_of_some {α β : Type} {f : α → Option β} {g : α → β} {l : List α}
    (h : ∀ a ∈ l, f a = some (g a)) : l.mapM f = some (l.map g) := by
  induction l with
  | nil => rfl
  | cons a rest ih =>
      rw [List.mapM_cons, h a List.mem_cons_self,
        ih fun b hb => h b (List.mem_cons_of_mem _ hb)]
      rfl

omit [LinearOrder K] in
/-- A map over the logits is one over their indices. -/
theorem map_eq_map_range {β : Type} (f : K → β) (logits : List K) :
    logits.map f = (List.range logits.length).map fun i => f (logits.getD i 0) := by
  refine List.ext_getElem (by simp) fun i h _ => ?_
  rw [List.length_map] at h
  simp [h]

section Library

variable {lib : SamplingLibrary K} {logits : List K} {m : Nat}

/-- The sorted indices are all the indices of the logits. -/
theorem partialSortIndices_perm :
    (partialSortIndices lib logits m).Perm (List.range logits.length) :=
  lib.partialSort.perm _ _ _

/-- There are as many sorted indices as logits. -/
theorem partialSortIndices_length :
    (partialSortIndices lib logits m).length = logits.length := by
  rw [partialSortIndices_perm.length_eq, List.length_range]

/-- The sorted indices are those below the number of logits. -/
theorem mem_partialSortIndices {i : Nat} :
    i ∈ partialSortIndices lib logits m ↔ i < logits.length := by
  rw [partialSortIndices_perm.mem_iff, List.mem_range]

/-- The front has falling logits. -/
theorem partialSortIndices_sorted :
    ((partialSortIndices lib logits m).take m).Pairwise fun i j =>
      logits.getD j 0 ≤ logits.getD i 0 :=
  (lib.partialSort.sorted m _ (StrictWeak.descending fun i => logits.getD i 0)).imp
    fun h => not_lt.mp (of_decide_eq_false h)

/-- No logit of the rest is above one of the front. -/
theorem partialSortIndices_first {i j : Nat} (hi : i ∈ (partialSortIndices lib logits m).take m)
    (hj : j ∈ (partialSortIndices lib logits m).drop m) : logits.getD j 0 ≤ logits.getD i 0 :=
  not_lt.mp (of_decide_eq_false
    (lib.partialSort.first m _ (StrictWeak.descending fun i => logits.getD i 0) i hi j hj))

/-- The tokens before `n` are tokens of largest logits. -/
structure Largest (logits : List K) (candidates : List Nat) : Prop where
  nodup : candidates.Nodup
  inRange : ∀ i ∈ candidates, i < logits.length
  above : ∀ i ∈ candidates, ∀ j < logits.length, j ∉ candidates →
    logits.getD j 0 ≤ logits.getD i 0

/-- The first indices are those of the largest logits. -/
theorem largest_take {n : Nat} (hn : n ≤ m) :
    Largest logits ((partialSortIndices lib logits m).take n) where
  nodup := (partialSortIndices_perm.nodup_iff.mpr List.nodup_range).sublist (List.take_sublist _ _)
  inRange i hi := mem_partialSortIndices.mp (List.mem_of_mem_take hi)
  above := by
    intro i hi j hj hnot
    have hfront : ((partialSortIndices lib logits m).take m).take n =
        (partialSortIndices lib logits m).take n := by
      rw [List.take_take, Nat.min_eq_left hn]
    have hmem : j ∈ partialSortIndices lib logits m := mem_partialSortIndices.mpr hj
    rw [← List.take_append_drop m (partialSortIndices lib logits m)] at hmem
    rcases List.mem_append.mp hmem with hj' | hj'
    · -- both are in the front, and `i` is before `j`
      have hsorted : ((partialSortIndices lib logits m).take m).Pairwise fun i j =>
        logits.getD j 0 ≤ logits.getD i 0 := partialSortIndices_sorted
      rw [← List.take_append_drop n ((partialSortIndices lib logits m).take m)] at hsorted hj'
      rw [hfront] at hsorted hj'
      have hlater := (List.mem_append.mp hj').resolve_left hnot
      exact (List.pairwise_append.mp hsorted).2.2 i hi j hlater
    · rw [← hfront] at hi
      exact partialSortIndices_first (List.mem_of_mem_take hi) hj'

/-! ## Weights -/

/-- The exponential of a logit over the largest one. -/
def weight (lib : SamplingLibrary K) (logits : List K) (maxLogit : K) (i : Nat) : K :=
  lib.exp (logits.getD i 0 - maxLogit)

/-- Every weight is positive. -/
theorem weight_pos (maxLogit : K) (i : Nat) : 0 < weight lib logits maxLogit i := lib.exp_pos _

/-- A division by a positive number succeeds. -/
theorem divide_of_pos {a b : K} (hb : 0 < b) : divide a b = some (a / b) := if_neg hb.ne'

/-- There is at least one candidate. -/
theorem maxCandidates_pos (hne : logits ≠ []) (topP : K) :
    0 < maxCandidates logits.length topP := by
  have hlength := List.length_pos_iff.mpr hne
  unfold maxCandidates
  split <;> omega

/-- Up to 256 logits, all of them are candidates. -/
theorem maxCandidates_of_le {n : Nat} (topP : K) (h : n ≤ 256) : maxCandidates n topP = n := by
  unfold maxCandidates
  split <;> omega

/-- The first of the sorted indices has the largest logit. -/
theorem expCandidates_eq (hne : logits ≠ []) (hm : 0 < m) {maxLogit : K}
    (hmem : maxLogit ∈ logits) (hmax : ∀ y ∈ logits, y ≤ maxLogit) :
    expCandidates lib logits (partialSortIndices lib logits m) m =
      some (((partialSortIndices lib logits m).take m).map (weight lib logits maxLogit)) := by
  have hsorted : Largest logits ((partialSortIndices lib logits m).take 1) := largest_take hm
  have hlength : (partialSortIndices lib logits m).length = logits.length :=
    partialSortIndices_length
  have hread : ∀ i ∈ partialSortIndices lib logits m, logits[i]? = some (logits.getD i 0) := by
    intro i hi
    have hlt := mem_partialSortIndices.mp hi
    rw [List.getD_eq_getElem _ _ hlt, List.getElem?_eq_getElem hlt]
  generalize partialSortIndices lib logits m = indices at hsorted hlength hread
  cases indices with
  | nil => exact absurd (List.eq_nil_of_length_eq_zero hlength.symm) hne
  | cons first rest =>
      have hfirst : logits.getD first 0 = maxLogit := by
        refine le_antisymm (hmax _ (List.mem_of_getElem? (hread first List.mem_cons_self))) ?_
        obtain ⟨j, hj, hvalue⟩ := List.mem_iff_getElem.mp hmem
        rw [← hvalue, ← List.getD_eq_getElem _ 0 hj]
        by_cases hsame : j = first
        · rw [hsame]
        · exact hsorted.above first List.mem_cons_self j hj (by simpa using hsame)
      unfold expCandidates
      rw [List.getElem?_cons_zero, Option.bind_eq_bind, Option.bind_some,
        hread first List.mem_cons_self, Option.bind_eq_bind, Option.bind_some, hfirst]
      refine mapM_of_some fun i hi => ?_
      rw [hread i (List.mem_of_mem_take hi)]
      rfl

/-! ## The loop -/

/-- The loop stops at the first prefix that reaches `top_p`, or at the end. -/
theorem nucleusLoop_spec {sumExp : K} (hsum : 0 < sumExp) (topP cumsum : K) (size : Nat)
    (es : List K) :
    ∃ n, nucleusLoop sumExp topP cumsum size es = some (size + n) ∧ n ≤ es.length ∧
      (es ≠ [] → 0 < n) ∧
      (∀ k, 0 < k → k < n → cumsum + (es.take k).sum / sumExp < topP) ∧
      (n = es.length ∨ topP ≤ cumsum + (es.take n).sum / sumExp) := by
  induction es generalizing cumsum size with
  | nil =>
      exact ⟨0, rfl, Nat.le_refl _, fun h => absurd rfl h,
        fun k _ hk => absurd hk (Nat.not_lt_zero k), .inl rfl⟩
  | cons e rest ih =>
      have hstep : ∀ k, cumsum + ((e :: rest).take (k + 1)).sum / sumExp =
          cumsum + e / sumExp + (rest.take k).sum / sumExp := by
        intro k
        rw [List.take_succ_cons, List.sum_cons, add_div, add_assoc]
      unfold nucleusLoop
      rw [divide_of_pos hsum, Option.bind_eq_bind, Option.bind_some]
      split
      next hreached =>
        refine ⟨1, rfl, Nat.succ_le_succ (Nat.zero_le _), fun _ => Nat.one_pos,
          fun k hk hk' => by omega, .inr ?_⟩
        rw [hstep 0, List.take_zero, List.sum_nil, zero_div, add_zero]
        exact hreached
      next hreached =>
        obtain ⟨n, hloop, hn, -, hbefore, hend⟩ := ih (cumsum + e / sumExp) (size + 1)
        refine ⟨n + 1, ?_, Nat.succ_le_succ hn, fun _ => Nat.succ_pos n, fun k hk hkn => ?_, ?_⟩
        · rw [hloop, Nat.add_assoc, Nat.add_comm 1 n]
        · obtain ⟨k, rfl⟩ : ∃ j, k = j + 1 := ⟨k - 1, by omega⟩
          rw [hstep k]
          by_cases hzero : k = 0
          · subst hzero
            rw [List.take_zero, List.sum_nil, zero_div, add_zero]
            exact not_le.mp hreached
          · exact hbefore k (Nat.pos_of_ne_zero hzero) (by omega)
        · rw [hstep n, List.length_cons]
          exact hend.imp (congrArg (· + 1)) id

/-- With `top_p` in its range, the loop finds the least prefix that reaches it. -/
theorem nucleusLoop_least {es : List K} (hsum : 0 < es.sum) {topP : K} (hpos : 0 < topP)
    (hone : topP ≤ 1) {n : Nat} (hloop : nucleusLoop es.sum topP 0 0 es = some n) :
    topP ≤ (es.take n).sum / es.sum ∧ ∀ k < n, (es.take k).sum / es.sum < topP := by
  obtain ⟨found, hfound, hn, -, hbefore, hend⟩ := nucleusLoop_spec hsum topP 0 0 es
  obtain rfl : n = found := by
    rw [hloop, Nat.zero_add] at hfound
    exact Option.some.inj hfound
  constructor
  · rcases hend with rfl | hend
    · rw [List.take_length, div_self hsum.ne']
      exact hone
    · simpa using hend
  · intro k hk
    by_cases hk0 : k = 0
    · subst hk0
      rw [List.take_zero, List.sum_nil, zero_div]
      exact hpos
    · simpa using hbefore k (Nat.pos_of_ne_zero hk0) hk

/-! ## Probabilities -/

variable [IsStrictOrderedRing K]

/-- A larger logit has a weight at least as large. -/
theorem weight_le {maxLogit : K} {i j : Nat} (h : logits.getD i 0 ≤ logits.getD j 0) :
    weight lib logits maxLogit i ≤ weight lib logits maxLogit j :=
  lib.exp_strictMono.monotone (sub_le_sub_right h _)

/-- The weights of some indices have a positive sum. -/
theorem sum_weight_pos {maxLogit : K} {indices : List Nat} (hne : indices ≠ []) :
    0 < (indices.map (weight lib logits maxLogit)).sum := by
  refine List.sum_pos _ (fun x hx => ?_) (by simpa using hne)
  obtain ⟨i, -, rfl⟩ := List.mem_map.mp hx
  exact weight_pos maxLogit i

/-- The probabilities of the whole vocabulary. -/
theorem softmax_eq (hne : logits ≠ []) {maxLogit : K} {i : Nat}
    (hmax : maxElement logits = some (i, maxLogit)) :
    softmax lib logits = some ((List.range logits.length).map fun i =>
      weight lib logits maxLogit i /
        ((List.range logits.length).map (weight lib logits maxLogit)).sum) := by
  have hexps : (logits.map fun logit => lib.exp (logit - maxLogit)) =
      (List.range logits.length).map (weight lib logits maxLogit) :=
    map_eq_map_range _ logits
  have hpos : 0 < ((List.range logits.length).map (weight lib logits maxLogit)).sum :=
    sum_weight_pos (by simpa using hne)
  unfold softmax
  rw [hmax, Option.bind_eq_bind, Option.bind_some]
  dsimp only
  rw [hexps, mapM_of_some fun p _ => divide_of_pos hpos, List.map_map]
  rfl

omit [LinearOrder K] [IsStrictOrderedRing K] in
/-- Dividing every term divides the sum. -/
theorem sum_map_div {α : Type} (f : α → K) (total : K) (l : List α) :
    (l.map fun a => f a / total).sum = (l.map f).sum / total := by
  simp only [div_eq_mul_inv, List.sum_map_mul_right]

section Probabilities

variable {probs : List K} {maxLogit : K} {i : Nat}

/-- The largest probabilities are those of the first sorted indices. -/
theorem topSum_softmax (hne : logits ≠ []) (hmax : maxElement logits = some (i, maxLogit))
    (hprobs : softmax lib logits = some probs) {k : Nat} (hk : k ≤ m) :
    topSum k probs =
      (((partialSortIndices lib logits m).take k).map (weight lib logits maxLogit)).sum /
        ((List.range logits.length).map (weight lib logits maxLogit)).sum := by
  rw [softmax_eq hne hmax] at hprobs
  have hpos : 0 < ((List.range logits.length).map (weight lib logits maxLogit)).sum :=
    sum_weight_pos (by simpa using hne)
  generalize ((List.range logits.length).map (weight lib logits maxLogit)).sum = total at *
  have hmono : ∀ {i j : Nat}, logits.getD i 0 ≤ logits.getD j 0 →
      weight lib logits maxLogit i / total ≤ weight lib logits maxLogit j / total :=
    fun h => div_le_div_of_nonneg_right (weight_le h) hpos.le
  have hperm : ((partialSortIndices lib logits m).map fun i =>
      weight lib logits maxLogit i / total).Perm probs := by
    rw [← Option.some.inj hprobs]
    exact partialSortIndices_perm.map _
  rw [topSum_of_front hperm (m := m) ?_ ?_ hk, ← List.map_take, sum_map_div]
  · rw [← List.map_take]
    exact List.pairwise_map.mpr (partialSortIndices_sorted.imp fun h => hmono h)
  · intro a ha b hb
    rw [← List.map_take] at ha
    rw [← List.map_drop] at hb
    obtain ⟨x, hx, rfl⟩ := List.mem_map.mp ha
    obtain ⟨y, hy, rfl⟩ := List.mem_map.mp hb
    exact hmono (partialSortIndices_first hx hy)

/-- Every probability of the softmax is positive. -/
theorem softmax_pos (hne : logits ≠ []) (hmax : maxElement logits = some (i, maxLogit))
    (hprobs : softmax lib logits = some probs) : ∀ p ∈ probs, 0 < p := by
  rw [softmax_eq hne hmax] at hprobs
  intro p hp
  rw [← Option.some.inj hprobs] at hp
  obtain ⟨j, -, rfl⟩ := List.mem_map.mp hp
  exact div_pos (weight_pos maxLogit j) (sum_weight_pos (by simpa using hne))

/-- The probabilities sum to one. -/
theorem softmax_sum (hne : logits ≠ []) (hmax : maxElement logits = some (i, maxLogit))
    (hprobs : softmax lib logits = some probs) :
    probs.length = logits.length ∧ probs.sum = 1 := by
  rw [softmax_eq hne hmax] at hprobs
  rw [← Option.some.inj hprobs]
  refine ⟨by simp, ?_⟩
  rw [sum_map_div, div_self (sum_weight_pos (by simpa using hne)).ne']

end Probabilities

/-! ## The nucleus found -/

/-- The tokens that are sampled from. -/
def Nucleus.candidates (nucleus : Nucleus K) : List Nat :=
  nucleus.indices.take nucleus.nucleusSize

/-- The exponentials of the candidates. -/
def candidateWeights (lib : SamplingLibrary K) (logits : List K) (maxLogit : K) (m : Nat) :
    List K :=
  ((partialSortIndices lib logits m).take m).map (weight lib logits maxLogit)

omit [IsStrictOrderedRing K] in
/-- There is one weight for each candidate. -/
theorem candidateWeights_length {maxLogit : K} (hm : m ≤ logits.length) :
    (candidateWeights lib logits maxLogit m).length = m := by
  unfold candidateWeights
  rw [List.length_map, List.length_take, partialSortIndices_length, Nat.min_eq_left hm]

variable (lib) in
omit [IsStrictOrderedRing K] in
/-- The weights of the candidates are positive. -/
theorem candidateWeights_pos {maxLogit : K} :
    ∀ e ∈ candidateWeights lib logits maxLogit m, 0 < e := by
  intro e he
  obtain ⟨i, -, rfl⟩ := List.mem_map.mp he
  exact weight_pos maxLogit i

variable (lib) in
/-- A nucleus is found for every `top_p`, and it is never empty. -/
theorem findNucleus_found (hne : logits ≠ []) (topP : K) :
    ∃ i maxLogit n, maxElement logits = some (i, maxLogit) ∧
      nucleusLoop (candidateWeights lib logits maxLogit (maxCandidates logits.length topP)).sum
          topP 0 0 (candidateWeights lib logits maxLogit (maxCandidates logits.length topP)) =
        some n ∧
      findNucleus lib logits topP = some
        { indices := partialSortIndices lib logits (maxCandidates logits.length topP)
          expLogits := candidateWeights lib logits maxLogit (maxCandidates logits.length topP)
          nucleusSize := n } ∧
      0 < n ∧ n ≤ maxCandidates logits.length topP := by
  obtain ⟨i, maxLogit, hmax, hread, hall, -⟩ := maxElement_spec hne
  have hm := maxCandidates_pos hne topP
  have hexp : expCandidates lib logits (partialSortIndices lib logits _) _ = _ :=
    expCandidates_eq hne hm (List.mem_of_getElem? hread) hall
  have hlength : (candidateWeights lib logits maxLogit (maxCandidates logits.length topP)).length =
      maxCandidates logits.length topP := candidateWeights_length (Nat.min_le_left _ _)
  have hnonempty := List.length_pos_iff.mp (hlength ▸ hm)
  have hsum := List.sum_pos _ (candidateWeights_pos lib) hnonempty
  obtain ⟨n, hloop, hn, hpos, -⟩ := nucleusLoop_spec hsum topP 0 0
    (candidateWeights lib logits maxLogit (maxCandidates logits.length topP))
  rw [Nat.zero_add] at hloop
  refine ⟨i, maxLogit, n, hmax, hloop, ?_, hpos hnonempty, hlength ▸ hn⟩
  unfold findNucleus
  dsimp only
  rw [hexp, Option.bind_eq_bind, Option.bind_some]
  unfold candidateWeights at hloop ⊢
  rw [hloop]
  rfl

variable (lib) in
/-- **The nucleus among the candidates.** -/
theorem findNucleus_spec (hne : logits ≠ []) {topP : K} (hpos : 0 < topP) (hone : topP ≤ 1) :
    ∃ probs nucleus, softmax lib logits = some probs ∧
      findNucleus lib logits topP = some nucleus ∧
      nucleus.indices = partialSortIndices lib logits (maxCandidates logits.length topP) ∧
      nucleus.nucleusSize ≤ maxCandidates logits.length topP ∧
      IsLeast {k | topP * topSum (maxCandidates logits.length topP) probs ≤ topSum k probs}
        nucleus.nucleusSize := by
  obtain ⟨i, maxLogit, n, hmax, hloop, hfound, -, hnm⟩ := findNucleus_found lib hne topP
  obtain ⟨probs, hprobs⟩ : ∃ probs, softmax lib logits = some probs :=
    ⟨_, softmax_eq hne hmax⟩
  have htotal : 0 < ((List.range logits.length).map (weight lib logits maxLogit)).sum :=
    sum_weight_pos (by simpa using hne)
  have htop : ∀ k ≤ maxCandidates logits.length topP, topSum k probs =
      ((candidateWeights lib logits maxLogit (maxCandidates logits.length topP)).take k).sum /
          ((List.range logits.length).map (weight lib logits maxLogit)).sum := by
    intro k hk
    rw [topSum_softmax hne hmax hprobs hk, candidateWeights, ← List.map_take, List.take_take,
      Nat.min_eq_left hk]
  have hlength : (candidateWeights lib logits maxLogit (maxCandidates logits.length topP)).length =
      maxCandidates logits.length topP := candidateWeights_length (Nat.min_le_left _ _)
  have hnonempty := List.length_pos_iff.mp (hlength ▸ maxCandidates_pos hne topP)
  have hsum := List.sum_pos _ (candidateWeights_pos lib) hnonempty
  refine ⟨probs, _, hprobs, hfound, rfl, hnm, ?_⟩
  dsimp only
  generalize maxCandidates logits.length topP = m at *
  generalize candidateWeights lib logits maxLogit m = es at *
  -- a prefix reaches `top_p` of the candidates when its probabilities do
  have hreach : ∀ k ≤ m, topP * topSum m probs ≤ topSum k probs ↔
      topP ≤ (es.take k).sum / es.sum := by
    intro k hk
    rw [htop m (Nat.le_refl m), htop k hk, ← mul_div_assoc, div_le_div_iff_of_pos_right htotal,
      le_div_iff₀ hsum, List.take_of_length_le hlength.le]
  obtain ⟨hreached, hbefore⟩ := nucleusLoop_least hsum hpos hone hloop
  constructor
  · exact (hreach n hnm).mpr hreached
  · intro k hk
    refine not_lt.mp fun hlt => ?_
    exact absurd ((hreach k (hlt.le.trans hnm)).mp hk) (not_le_of_gt (hbefore k hlt))

omit [IsStrictOrderedRing K] in
/-- The token that is sampled is one of the first indices. -/
theorem sampleIndex_mem {indices : List Nat} (probs : List K) (hsize : logits.length ≤ 2 ^ 31)
    (hindices : ∀ i ∈ indices, i < logits.length) (hlength : probs.length ≤ indices.length)
    (hne : probs ≠ []) (rng : lib.State) :
    ∃ result rng', sampleIndex lib logits indices probs rng = some (result, rng') ∧
      ∃ i ∈ indices.take probs.length, result.tokenId = i := by
  have hdraw : (lib.draw probs rng).1 < probs.length := by
    have hpos := List.length_pos_iff.mpr hne
    have hlt := lib.draw_lt probs rng
    rwa [max_eq_right hpos] at hlt
  have hread : indices[(lib.draw probs rng).1]? = some indices[(lib.draw probs rng).1] :=
    List.getElem?_eq_getElem _
  have hmem : indices[(lib.draw probs rng).1] ∈ indices.take probs.length := by
    have hlt : (lib.draw probs rng).1 < (indices.take probs.length).length := by
      rw [List.length_take, Nat.min_eq_left hlength]
      exact hdraw
    rw [← List.getElem_take (h := hlt)]
    exact List.getElem_mem hlt
  generalize indices[(lib.draw probs rng).1] = i at hread hmem
  have hi := hindices i (List.mem_of_mem_take hmem)
  have htoken : toInt32 (i : Int) = i := Wrapping.toSigned_of_lt (by omega)
  have hposition : Wrapping.ofInt 64 (i : Int) = i := Wrapping.ofInt_of_lt (by omega)
  unfold sampleIndex readAt
  dsimp only
  rw [hread, List.getElem?_eq_getElem hdraw, Option.bind_eq_bind, Option.bind_some]
  dsimp only [Option.bind_eq_bind, Option.bind_some]
  rw [htoken, hposition, List.getElem?_eq_getElem hi]
  exact ⟨_, _, rfl, i, hmem, rfl⟩

/-- Positive weights are normalized, and one of the first indices is sampled. -/
theorem sampleWeights_mem {indices : List Nat} {weights : List K}
    (hsize : logits.length ≤ 2 ^ 31) (hindices : ∀ i ∈ indices, i < logits.length)
    (hlength : weights.length ≤ indices.length) (hne : weights ≠ [])
    (hpos : ∀ w ∈ weights, 0 < w) (rng : lib.State) :
    ∃ result rng', (do
        let probs ← weights.mapM fun p => divide p weights.sum
        sampleIndex lib logits indices probs rng) = some (result, rng') ∧
      ∃ i ∈ indices.take weights.length, result.tokenId = i := by
  have hsum : 0 < weights.sum := List.sum_pos _ hpos hne
  have hprobs := mapM_of_some (l := weights) fun p _ => divide_of_pos (a := p) hsum
  have hsampled := sampleIndex_mem (weights.map fun p => p / weights.sum) hsize hindices
    (by rw [List.length_map]; exact hlength) (by simpa using hne) rng
  rw [List.length_map] at hsampled
  rw [hprobs, Option.bind_eq_bind, Option.bind_some]
  exact hsampled

/-- The sampled index is one of the nucleus. -/
theorem sampleTopP_mem (hne : logits ≠ []) (hsize : logits.length ≤ 2 ^ 31) {topP : K}
    {nucleus : Nucleus K} (hfound : findNucleus lib logits topP = some nucleus)
    (rng : lib.State) :
    ∃ result rng', sampleTopP lib logits topP rng = some (result, rng') ∧
      ∃ i ∈ nucleus.candidates, result.tokenId = i := by
  obtain ⟨i, maxLogit, n, -, -, hfound', hn, hnm⟩ := findNucleus_found lib hne topP
  have hmle : maxCandidates logits.length topP ≤ logits.length := Nat.min_le_left _ _
  have htake : ((candidateWeights lib logits maxLogit
      (maxCandidates logits.length topP)).take n).length = n := by
    rw [List.length_take, candidateWeights_length hmle, Nat.min_eq_left hnm]
  have hnonempty := List.length_pos_iff.mp (htake ▸ hn)
  have hindices : ∀ i ∈ partialSortIndices lib logits (maxCandidates logits.length topP),
      i < logits.length := fun i hi => mem_partialSortIndices.mp hi
  have hsampled := sampleWeights_mem hsize hindices
    (by rw [htake, partialSortIndices_length]; omega) hnonempty
    (fun e he => candidateWeights_pos lib e (List.mem_of_mem_take he)) rng
  rw [htake] at hsampled
  obtain rfl := Option.some.inj (hfound'.symm.trans hfound)
  unfold sampleTopP
  rw [hfound', Option.bind_eq_bind, Option.bind_some]
  exact hsampled

/-- **The nucleus found.**  It is made of the tokens of largest logits, and as
small as it can be with `top_p` of the probability of the candidates.  It is
never larger than the nucleus of the whole vocabulary, and smaller if and only if
some number of largest tokens has `top_p` of the candidates but not of the whole
vocabulary, which a vocabulary of candidates alone rules out. -/
theorem findNucleus_least (hne : logits ≠ []) {topP : K} (hpos : 0 < topP) (hone : topP ≤ 1) :
    ∃ probs nucleus, softmax lib logits = some probs ∧
      findNucleus lib logits topP = some nucleus ∧
      IsLeast {k | topP * topSum (maxCandidates logits.length topP) probs ≤ topSum k probs}
        nucleus.nucleusSize ∧
      nucleus.candidates.length = nucleus.nucleusSize ∧ Largest logits nucleus.candidates ∧
      (∀ k, IsLeast {k | topP ≤ topSum k probs} k → nucleus.nucleusSize ≤ k) ∧
      (IsLeast {k | topP ≤ topSum k probs} nucleus.nucleusSize ↔
        ∀ k, ¬ (topP * topSum (maxCandidates logits.length topP) probs ≤ topSum k probs ∧
          topSum k probs < topP)) ∧
      (maxCandidates logits.length topP = logits.length →
        IsLeast {k | topP ≤ topSum k probs} nucleus.nucleusSize) ∧
      (logits.length ≤ 2 ^ 31 → ∀ rng, ∃ result rng',
        sampleTopP lib logits topP rng = some (result, rng') ∧
          ∃ i ∈ nucleus.candidates, result.tokenId = i) := by
  obtain ⟨probs, nucleus, hprobs, hfound, hindices, hsize, hleast⟩ :=
    findNucleus_spec lib hne hpos hone
  obtain ⟨i, maxLogit, hmax, -⟩ := maxElement_spec hne
  have hpositive := softmax_pos hne hmax hprobs
  obtain ⟨hcount, hsum⟩ := softmax_sum hne hmax hprobs
  have hmono : Monotone fun k => topSum k probs :=
    fun _ _ h => topSum_mono (fun p hp => (hpositive p hp).le) h
  have hwhole : topSum logits.length probs = 1 := (topSum_all hcount.le).trans hsum
  have hpart : topSum (maxCandidates logits.length topP) probs ≤ 1 :=
    (hmono (Nat.min_le_left _ _)).trans hwhole.le
  have hlow : topP * topSum (maxCandidates logits.length topP) probs ≤ topP :=
    mul_le_of_le_one_right hpos.le hpart
  have hcandidates : nucleus.candidates =
      (partialSortIndices lib logits (maxCandidates logits.length topP)).take
        nucleus.nucleusSize := by
    unfold Nucleus.candidates
    rw [hindices]
  refine ⟨probs, nucleus, hprobs, hfound, hleast, ?_, ?_, ?_, ?_, ?_, ?_⟩
  · rw [hcandidates, List.length_take, partialSortIndices_length]
    exact Nat.min_eq_left (hsize.trans (Nat.min_le_left _ _))
  · rw [hcandidates]
    exact largest_take hsize
  · intro k hk
    have hreached : topP ≤ topSum k probs := hk.1
    exact hleast.2 (hlow.trans hreached)
  · exact isLeast_iff_of_le hmono hlow hleast
  · intro hall
    rw [hall, hwhole, mul_one] at hleast
    exact hleast
  · intro hvocab rng
    exact sampleTopP_mem hne hvocab hfound rng

end Library

/-! ## A flat distribution -/

/-- A positive, strictly increasing function of rational numbers. -/
def risingExp (x : ℚ) : ℚ := if 0 ≤ x then 1 + x else 1 / (1 - x)

/-- The rational stand-in for the exponential is positive. -/
theorem risingExp_pos (x : ℚ) : 0 < risingExp x := by
  unfold risingExp
  split
  · linarith
  · exact one_div_pos.mpr (by linarith)

/-- The rational stand-in for the exponential is strictly increasing. -/
theorem risingExp_strictMono : StrictMono risingExp := by
  intro x y hxy
  unfold risingExp
  by_cases hx : 0 ≤ x
  · rw [if_pos hx, if_pos (hx.trans hxy.le)]
    linarith
  · rw [if_neg hx]
    have hx' := not_le.mp hx
    by_cases hy : 0 ≤ y
    · rw [if_pos hy]
      have hsmall : 1 / (1 - x) < 1 := (div_lt_one (by linarith)).mpr (by linarith)
      linarith
    · rw [if_neg hy]
      exact one_div_lt_one_div_of_lt (by linarith [not_le.mp hy]) (by linarith)

/-- A library of rational numbers: a full sort, and the minimal standard
generator, which is taken as it is for the index drawn. -/
def rationalLibrary : SamplingLibrary ℚ where
  exp := risingExp
  exp_pos := risingExp_pos
  exp_strictMono := risingExp_strictMono
  partialSort := PartialSort.merge Nat
  State := Nat
  seed value := value % 2147483647
  next s := (s * 16807 % 2147483647, s * 16807 % 2147483647)
  draw weights s := (s * 16807 % 2147483647 % max 1 weights.length, s * 16807 % 2147483647)
  draw_lt _ _ := Nat.mod_lt _ (lt_of_lt_of_le Nat.one_pos (le_max_left _ _))
  castOutside _ := -2 ^ 31

/-- Three logits and half of the mass. -/
theorem findNucleus_least_sample :
    ∃ probs nucleus, softmax rationalLibrary [1, 3, 2] = some probs ∧
      findNucleus rationalLibrary [1, 3, 2] (1 / 2) = some nucleus ∧
      IsLeast {k | 1 / 2 ≤ topSum k probs} nucleus.nucleusSize := by
  obtain ⟨probs, nucleus, hprobs, hfound, -, -, -, -, -, hall, -⟩ :=
    @findNucleus_least ℚ _ _ rationalLibrary [1, 3, 2] _ (by decide) (1 / 2) (by norm_num)
      (by norm_num)
  exact ⟨probs, nucleus, hprobs, hfound, hall (maxCandidates_of_le _ (by decide))⟩

/-- Equal logits have equal probabilities. -/
theorem softmax_replicate {n : Nat} (hn : 0 < n) (x : ℚ) :
    softmax rationalLibrary (List.replicate n x) = some (List.replicate n (1 / (n : ℚ))) := by
  have hne : List.replicate n x ≠ [] := List.length_pos_iff.mp (by simpa using hn)
  obtain ⟨i, maxLogit, hmax, hread, -⟩ := maxElement_spec hne
  obtain rfl : maxLogit = x := List.eq_of_mem_replicate (List.mem_of_getElem? hread)
  have hone : rationalLibrary.exp (maxLogit - maxLogit) = 1 := by
    have hzero : risingExp 0 = 1 := by
      unfold risingExp
      norm_num
    rw [sub_self]
    exact hzero
  have hsum : (List.replicate n (1 : ℚ)).sum = n := by
    rw [List.sum_replicate, nsmul_eq_mul, mul_one]
  have hpos : (0 : ℚ) < n := by exact_mod_cast hn
  unfold softmax
  rw [hmax]
  dsimp only [Option.bind_eq_bind, Option.bind_some]
  rw [List.map_replicate, hone, hsum, mapM_of_some fun p _ => divide_of_pos hpos,
    List.map_replicate]

/-- Two thousand equal logits, and a nucleus of everything. -/
theorem findNucleus_truncated :
    ∃ probs nucleus, softmax rationalLibrary (List.replicate 2000 0) = some probs ∧
      findNucleus rationalLibrary (List.replicate 2000 0) 1 = some nucleus ∧
      IsLeast {k | 1 ≤ topSum k probs} 2000 ∧ nucleus.nucleusSize = 1000 := by
  have hlength : (List.replicate 2000 (0 : ℚ)).length = 2000 := List.length_replicate
  have hne : List.replicate 2000 (0 : ℚ) ≠ [] := List.length_pos_iff.mp (by rw [hlength]; decide)
  have hone : (0 : ℚ) < 1 := one_pos
  obtain ⟨probs, nucleus, hprobs, hfound, -, -, hleast⟩ :=
    findNucleus_spec rationalLibrary hne hone le_rfl
  have hm : maxCandidates (List.replicate 2000 (0 : ℚ)).length (1 : ℚ) = 1000 := by
    unfold maxCandidates
    rw [hlength, if_pos (by norm_num)]
    rfl
  rw [softmax_replicate (by decide)] at hprobs
  obtain rfl := Option.some.inj hprobs
  have hreach : ∀ a k, topSum a (List.replicate 2000 (1 / ((2000 : Nat) : ℚ))) ≤
      topSum k (List.replicate 2000 (1 / ((2000 : Nat) : ℚ))) ↔ min a 2000 ≤ min k 2000 := by
    intro a k
    have hpos : (0 : ℚ) < 1 / ((2000 : Nat) : ℚ) := by norm_num
    rw [topSum_replicate, topSum_replicate, nsmul_eq_mul, nsmul_eq_mul,
      mul_le_mul_iff_left₀ hpos]
    exact_mod_cast Iff.rfl
  have hwhole : topSum 2000 (List.replicate 2000 (1 / ((2000 : Nat) : ℚ))) = 1 := by
    rw [topSum_replicate, nsmul_eq_mul]
    norm_num
  refine ⟨_, nucleus, softmax_replicate (by decide) 0, hfound, ?_, ?_⟩
  · refine ⟨hwhole.ge, fun k hk => ?_⟩
    have hmin := (hreach 2000 k).mp (hwhole.le.trans hk)
    omega
  · rw [hm] at hleast
    simp only [one_mul, hreach] at hleast
    have hatLeast : min 1000 2000 ≤ min nucleus.nucleusSize 2000 := hleast.1
    have hatMost : nucleus.nucleusSize ≤ 1000 := hleast.2 (le_refl (min 1000 2000))
    omega

end Sampler

end Qwen
