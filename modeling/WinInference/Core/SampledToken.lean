import Mathlib.Data.Rat.Floor
import WinInference.Core.Nucleus
import WinInference.Core.Penalty

/-!
# The token that is sampled

Which token `sample` returns, on each of its three paths, and when there is none
because a vector is read outside of its range.  The weights that are divided by
are sums of exponentials, so they are positive; what can go wrong is an empty
vector of weights.

`Picks` says that a call stays in range and returns a token that fits, and
`LeavesCandidate` that there is a candidate to sample.  `sampleGreedy_first`,
`sampleTopK_mem` and `sampleTopP_mem` name the token of each path, `sample_eq`
puts the paths together, and `sampleFrom_peak` follows a single high logit
through all of them.
-/

namespace Qwen

open Sorting

namespace Sampler

variable {K : Type} [Field K] [LinearOrder K]

/-- The token of a result, as a position in the logits it was chosen from. -/
structure Names (logits : List K) (result : SampleResult K) (i : Nat) (logit : K) : Prop where
  tokenId : result.tokenId = i
  read : logits[i]? = some logit

/-- The number of tokens with a larger logit. -/
def larger (logits : List K) (logit : K) : Nat := logits.countP fun other => decide (logit < other)

/-- What `sample` is to return: a token with a logit, the first of the largest
ones at temperature zero, and one of the `top_k` largest ones if there is a
`top_k`.  The logits are the penalized ones. -/
def Fitting (logits : List K) (params : SamplingParams K) (result : SampleResult K) : Prop :=
  ∃ i logit, Names logits result i logit ∧
    (params.temperature ≤ 0 →
      (∀ other ∈ logits, other ≤ logit) ∧ ∀ other ∈ logits.take i, other < logit) ∧
    (0 < params.temperature → 0 < params.topK →
      (larger logits logit : K) < max 1 params.topK)

/-! ## Greedy -/

theorem sampleGreedy_first {logits : List K} (hne : logits ≠ []) (hsize : logits.length ≤ 2 ^ 31) :
    ∃ result i logit, sampleGreedy logits = some result ∧ Names logits result i logit ∧
      (∀ other ∈ logits, other ≤ logit) ∧ ∀ other ∈ logits.take i, other < logit := by
  obtain ⟨i, logit, hmax, hread, hall, hfirst⟩ := maxElement_spec hne
  obtain ⟨hi, -⟩ := List.getElem?_eq_some_iff.mp hread
  have htoken : toInt32 (i : Int) = i := Wrapping.toSigned_of_lt (by omega)
  unfold sampleGreedy
  rw [hmax, Option.bind_eq_bind, Option.bind_some]
  dsimp only
  rw [htoken]
  exact ⟨_, i, logit, rfl, ⟨rfl, hread⟩, hall, hfirst⟩

/-! ## Temperature -/

theorem applyTemperature_eq (logits : List K) {temperature : K} (h : 0 < temperature) :
    applyTemperature logits temperature = some (logits.map fun logit => logit / temperature) := by
  unfold applyTemperature
  split
  next hone =>
    subst hone
    simp
  next => exact mapM_of_some fun logit _ => divide_of_pos h

/-- A positive temperature keeps the order of the logits. -/
theorem larger_map_div [IsStrictOrderedRing K] (logits : List K) {temperature : K}
    (h : 0 < temperature) (logit : K) :
    larger (logits.map fun x => x / temperature) (logit / temperature) = larger logits logit := by
  unfold larger
  rw [List.countP_map]
  apply List.countP_congr
  intro other _
  simp [div_lt_div_iff_of_pos_right h]

section Library

variable {lib : SamplingLibrary K} {logits : List K}

/-! ## Ranks -/

theorem larger_eq (logit : K) :
    larger logits logit =
      ((List.range logits.length).filter fun j => decide (logit < logits.getD j 0)).length := by
  have hlogits : logits = (List.range logits.length).map fun j => logits.getD j 0 := by
    simpa using map_eq_map_range id logits
  unfold larger
  conv_lhs => rw [hlogits]
  rw [List.countP_map, List.countP_eq_length_filter]
  rfl

/-- Fewer tokens have a larger logit than one of the largest ones than there are
of these. -/
theorem Largest.larger_lt {candidates : List Nat} (h : Largest logits candidates) {i : Nat}
    (hi : i ∈ candidates) : larger logits (logits.getD i 0) < candidates.length := by
  have hnodup : (i :: (List.range logits.length).filter
      fun j => decide (logits.getD i 0 < logits.getD j 0)).Nodup := by
    rw [List.nodup_cons]
    exact ⟨by simp, List.nodup_range.filter _⟩
  have hsubset : (i :: (List.range logits.length).filter
      fun j => decide (logits.getD i 0 < logits.getD j 0)) ⊆ candidates := by
    intro j hj
    rcases List.mem_cons.mp hj with rfl | hj
    · exact hi
    · obtain ⟨hj, hlt⟩ := List.mem_filter.mp hj
      by_contra hnot
      have hle := h.above i hi j (List.mem_range.mp hj) hnot
      exact absurd (of_decide_eq_true hlt) (not_lt_of_ge hle)
  have hlength := (List.subperm_of_subset hnodup hsubset).length_le
  rw [List.length_cons, ← larger_eq] at hlength
  omega

/-! ## Without candidates -/

/-- Without a weight there is no probability to read. -/
theorem sampleTopK_eq_none {topK : Int} (hk : toSize topK = 0) (rng : lib.State) :
    sampleTopK lib logits topK rng = none := by
  have hexp : ∀ indices, expCandidates lib logits indices 0 = none ∨
      expCandidates lib logits indices 0 = some [] := by
    intro indices
    unfold expCandidates
    cases indices[0]? with
    | none => exact Or.inl rfl
    | some first =>
        rw [Option.bind_eq_bind, Option.bind_some]
        cases logits[first]? with
        | none => exact Or.inl rfl
        | some logit => exact Or.inr rfl
  have hindex : ∀ indices, sampleIndex lib logits indices [] rng = none := by
    intro indices
    unfold sampleIndex
    dsimp only
    cases indices[(lib.draw [] rng).1]? <;> rfl
  unfold sampleTopK
  dsimp only
  rw [show Wrapping.ofInt 64 topK = 0 from hk, Nat.zero_min]
  rcases hexp (partialSortIndices lib logits 0) with hnone | hempty
  · rw [hnone]
    rfl
  · rw [hempty]
    exact hindex _

/-! ## The conversion of `top_k` -/

section Conversion

variable [FloorRing K]

theorem truncate_of_lt {x : K} (hpos : 0 < x) (hlt : x < 2 ^ 31) : truncate lib x = ⌊x⌋ := by
  have hfloor : 0 ≤ ⌊x⌋ := Int.floor_nonneg.mpr hpos.le
  have hfloor' : ⌊x⌋ < 2 ^ 31 := by
    apply Int.floor_lt.mpr
    exact_mod_cast hlt
  unfold truncate
  rw [if_pos hpos.le]
  dsimp only
  rw [if_pos ⟨by omega, hfloor'⟩]

theorem toSize_truncate {x : K} (hpos : 0 < x) (hlt : x < 2 ^ 31) :
    toSize (truncate lib x) = ⌊x⌋.toNat := by
  have hfloor : 0 ≤ ⌊x⌋ := Int.floor_nonneg.mpr hpos.le
  have hfloor' : ⌊x⌋ < 2 ^ 31 := by
    apply Int.floor_lt.mpr
    exact_mod_cast hlt
  rw [truncate_of_lt hpos hlt]
  generalize ⌊x⌋ = n at hfloor hfloor'
  obtain ⟨n, rfl⟩ := Int.eq_ofNat_of_zero_le hfloor
  exact Wrapping.ofInt_of_lt (by omega)

/-- A positive `top_k` in the range of `int32_t` is lost if it is below one. -/
theorem toSize_truncate_ne_zero_iff {x : K} (hpos : 0 < x) (hlt : x < 2 ^ 31) :
    toSize (truncate lib x) ≠ 0 ↔ 1 ≤ x := by
  have hone : 1 ≤ ⌊x⌋ ↔ 1 ≤ x := by
    rw [Int.le_floor, Int.cast_one]
  rw [toSize_truncate hpos hlt, ← hone]
  omega

/-- A rank below the converted `top_k` is one below `top_k`. -/
theorem rank_lt [IsStrictOrderedRing K] {x : K} (hpos : 0 < x) {rank size : Nat}
    (hsize : size ≤ 2 ^ 31) (hrank : rank < min (toSize (truncate lib x)) size) :
    (rank : K) < max 1 x := by
  apply lt_max_of_lt_right
  by_cases hlt : x < 2 ^ 31
  · rw [toSize_truncate hpos hlt] at hrank
    have hfloor : ((rank : Int) : K) < (⌊x⌋ : K) := by
      apply Int.cast_lt.mpr
      omega
    rw [Int.cast_natCast] at hfloor
    exact hfloor.trans_le (Int.floor_le x)
  · have hlarge : (rank : K) < 2 ^ 31 := by
      have hnat : rank < 2 ^ 31 := by omega
      exact_mod_cast hnat
    exact hlarge.trans_le (not_lt.mp hlt)

end Conversion

/-! ## A single largest logit -/

/-- The token of a sampled index. -/
theorem sampleIndex_tokenId {indices : List Nat} {probs : List K} {rng rng' : lib.State}
    {result : SampleResult K}
    (h : sampleIndex lib logits indices probs rng = some (result, rng')) :
    ∃ index, indices[(lib.draw probs rng).1]? = some index ∧
      result.tokenId = toInt32 (index : Int) := by
  simp only [sampleIndex, Option.bind_eq_bind, Option.bind_eq_some_iff] at h
  obtain ⟨index, hindex, probability, -, logit, -, hresult⟩ := h
  generalize htoken : toInt32 (index : Int) = token at hresult
  cases hresult
  exact ⟨index, hindex, htoken.symm⟩

/-- A single largest logit comes first. -/
theorem partialSortIndices_head {p m : Nat} (hp : p < logits.length) (hm : 0 < m)
    (hpeak : ∀ j < logits.length, j ≠ p → logits.getD j 0 < logits.getD p 0) :
    (partialSortIndices lib logits m)[0]? = some p := by
  have hlargest : Largest logits ((partialSortIndices lib logits m).take 1) := largest_take hm
  have hlength : (partialSortIndices lib logits m).length = logits.length :=
    partialSortIndices_length
  generalize partialSortIndices lib logits m = indices at hlargest hlength ⊢
  cases indices with
  | nil =>
      rw [List.length_nil] at hlength
      omega
  | cons first rest =>
      have hfirst := hlargest.inRange first List.mem_cons_self
      by_cases hsame : first = p
      · rw [hsame]
        rfl
      · have habove := hlargest.above first List.mem_cons_self p hp (by simpa using Ne.symm hsame)
        exact absurd (hpeak first hfirst hsame) (not_lt_of_ge habove)

theorem sampleGreedy_peak {p : Nat} (hp : p < logits.length)
    (hpeak : ∀ j < logits.length, j ≠ p → logits.getD j 0 < logits.getD p 0)
    {result : SampleResult K} (h : sampleGreedy logits = some result) :
    result.tokenId = toInt32 (p : Int) := by
  have hne : logits ≠ [] := List.length_pos_iff.mp (Nat.zero_lt_of_lt hp)
  obtain ⟨i, logit, hmax, hread, hall, -⟩ := maxElement_spec hne
  obtain ⟨hi, hlogit⟩ := List.getElem?_eq_some_iff.mp hread
  have hsame : i = p := by
    by_contra hdiffers
    have hlt := hpeak i hi hdiffers
    rw [List.getD_eq_getElem _ _ hi, List.getD_eq_getElem _ _ hp, hlogit] at hlt
    exact absurd (hall _ (List.getElem_mem hp)) (not_le_of_gt hlt)
  subst hsame
  unfold sampleGreedy at h
  rw [hmax] at h
  generalize htoken : toInt32 (i : Int) = token
  rw [Option.bind_eq_bind, Option.bind_some] at h
  dsimp only at h
  rw [htoken] at h
  cases h
  rfl

/-- Logits with a single largest one, of the token `p`. -/
def peaked (n p : Nat) (height : K) : List K :=
  (List.range n).map fun j => if j = p then height else 0

omit [LinearOrder K] in
@[simp] theorem peaked_length (n p : Nat) (height : K) : (peaked n p height).length = n := by
  simp [peaked]

theorem peaked_lt {n p : Nat} (hp : p < n) {height : K} (hheight : 0 < height) :
    ∀ j < (peaked n p height).length, j ≠ p →
      (peaked n p height).getD j 0 < (peaked n p height).getD p 0 := by
  intro j hj hne
  rw [peaked_length] at hj
  simpa [peaked, hj, hp, hne] using hheight

omit [LinearOrder K] in
theorem peaked_div (n p : Nat) (height temperature : K) :
    (peaked n p height).map (fun logit => logit / temperature) =
      peaked n p (height / temperature) := by
  unfold peaked
  rw [List.map_map]
  apply List.map_congr_left
  intro j _
  simp only [Function.comp_apply]
  split <;> simp

/-- A generator that always draws the first candidate. -/
def drawsFirst (lib : SamplingLibrary K) : SamplingLibrary K where
  exp := lib.exp
  exp_pos := lib.exp_pos
  exp_strictMono := lib.exp_strictMono
  partialSort := lib.partialSort
  State := lib.State
  seed := lib.seed
  next := lib.next
  draw _ s := (0, s)
  draw_lt _ _ := lt_max_of_lt_left Nat.one_pos
  castOutside := lib.castOutside

variable [IsStrictOrderedRing K]

/-! ## Top-k -/

/-- Top-k sampling picks one of the `k` largest logits. -/
theorem sampleTopK_mem (hne : logits ≠ []) (hsize : logits.length ≤ 2 ^ 31) {topK : Int}
    (hk : toSize topK ≠ 0) (rng : lib.State) :
    ∃ result rng' i logit, sampleTopK lib logits topK rng = some (result, rng') ∧
      Names logits result i logit ∧ larger logits logit < min (toSize topK) logits.length := by
  obtain ⟨_, maxLogit, hmax, hread, hall, -⟩ := maxElement_spec hne
  have hpos : 0 < min (toSize topK) logits.length := by
    have hlength := List.length_pos_iff.mpr hne
    omega
  have hexp : expCandidates lib logits (partialSortIndices lib logits _) _ = _ :=
    expCandidates_eq hne hpos (List.mem_of_getElem? hread) hall
  have hmle : min (toSize topK) logits.length ≤ logits.length := Nat.min_le_right _ _
  unfold sampleTopK
  dsimp only
  rw [hexp, Option.bind_eq_bind, Option.bind_some]
  generalize min (toSize topK) logits.length = k at *
  have hlength : (candidateWeights lib logits maxLogit k).length = k := candidateWeights_length hmle
  have hindices : ∀ i ∈ partialSortIndices lib logits k, i < logits.length :=
    fun i hi => mem_partialSortIndices.mp hi
  obtain ⟨result, rng', hsampled, i, hi, htoken⟩ := sampleWeights_mem hsize hindices
    (by rw [hlength, partialSortIndices_length]; exact hmle)
    (List.length_pos_iff.mp (hlength ▸ hpos)) (candidateWeights_pos lib) rng
  rw [hlength] at hi
  have hlargest : Largest logits ((partialSortIndices lib logits k).take k) :=
    largest_take (Nat.le_refl k)
  have hlt := hlargest.larger_lt hi
  have hin := hlargest.inRange i hi
  rw [List.length_take, partialSortIndices_length, Nat.min_eq_left hmle] at hlt
  rw [List.getD_eq_getElem _ _ hin] at hlt
  exact ⟨result, rng', i, logits[i], hsampled, ⟨htoken, List.getElem?_eq_getElem hin⟩, hlt⟩

/-! ## The whole call -/

variable [FloorRing K]

/-- `sample` after the penalty and the temperature. -/
theorem sample_eq (s : Sampler lib) (hne : logits ≠ []) {params : SamplingParams K}
    (hpenalty : 0 < params.repetitionPenalty) {tokens : List Int}
    (htokens : ∀ t ∈ tokens, t < 2 ^ 31) :
    s.sample logits params tokens =
      if params.temperature ≤ 0 then
        (sampleGreedy (penalized params.repetitionPenalty tokens logits)).map
          fun result => (.ok result, s)
      else
        (sampleFrom ((penalized params.repetitionPenalty tokens logits).map
            fun logit => logit / params.temperature) params (s.createRng params).1).map
          fun sampled => (.ok sampled.1, (s.createRng params).2) := by
  have hmodified : ∀ rest : List K → Option (Result (SampleResult K) × Sampler lib),
      (if params.repetitionPenalty ≠ 1 ∧ tokens ≠ [] then
        applyRepetitionPenalty logits tokens params.repetitionPenalty >>= rest
      else some logits >>= rest) = rest (penalized params.repetitionPenalty tokens logits) := by
    intro rest
    split
    next =>
      rw [applyRepetitionPenalty_eq hpenalty logits htokens]
      rfl
    next hnone =>
      by_cases hone : params.repetitionPenalty = 1
      · rw [hone, penalized_one]
        rfl
      · have hnil : tokens = [] := by
          by_contra htokens
          exact hnone ⟨hone, htokens⟩
        rw [hnil, penalized_nil]
        rfl
  unfold sample
  rw [if_neg (by simpa using hne)]
  dsimp only
  rw [hmodified]
  split
  next => cases sampleGreedy (penalized params.repetitionPenalty tokens logits) <;> rfl
  next hpositive =>
    rw [applyTemperature_eq _ (not_le.mp hpositive), Option.bind_eq_bind, Option.bind_some]
    cases sampleFrom ((penalized params.repetitionPenalty tokens logits).map
      fun logit => logit / params.temperature) params (s.createRng params).1 <;> rfl

/-- A call that stays in range and returns a fitting token. -/
def Picks (s : Sampler lib) (logits : List K) (params : SamplingParams K) (tokens : List Int) :
    Prop :=
  ∃ result s', s.sample logits params tokens = some (.ok result, s') ∧
    Fitting (penalized params.repetitionPenalty tokens logits) params result

variable (lib) in
/-- There is a candidate to sample: `top_k` is not in use, or not lost in the
conversion. -/
def LeavesCandidate (params : SamplingParams K) : Prop :=
  params.temperature ≤ 0 ∨ params.topK ≤ 0 ∨ toSize (truncate lib params.topK) ≠ 0

section Call

variable {s : Sampler lib} {params : SamplingParams K} {tokens : List Int}

theorem Picks.leavesCandidate (hne : logits ≠ []) (hpenalty : 0 < params.repetitionPenalty)
    (htokens : ∀ t ∈ tokens, t < 2 ^ 31) (h : s.Picks logits params tokens) :
    LeavesCandidate lib params := by
  obtain ⟨result, s', hsample, -⟩ := h
  by_contra hnone
  unfold LeavesCandidate at hnone
  simp only [not_or, not_le, not_not] at hnone
  obtain ⟨htemperature, htopK, hlost⟩ := hnone
  rw [sample_eq s hne hpenalty htokens, if_neg (not_le_of_gt htemperature), sampleFrom,
    if_pos htopK, sampleTopK_eq_none hlost] at hsample
  cases hsample

/-- Sampling at a positive temperature, on the penalized logits. -/
theorem sampleFrom_fitting (hne : logits ≠ []) (hsize : logits.length ≤ 2 ^ 31)
    (htemperature : 0 < params.temperature)
    (hkept : params.topK ≤ 0 ∨ toSize (truncate lib params.topK) ≠ 0) (rng : lib.State) :
    ∃ result rng', sampleFrom (logits.map fun logit => logit / params.temperature) params rng =
      some (result, rng') ∧ Fitting logits params result := by
  have hzero : ¬ params.temperature ≤ 0 := not_le_of_gt htemperature
  have hne' : (logits.map fun logit => logit / params.temperature) ≠ [] := by simpa using hne
  have hsize' : (logits.map fun logit => logit / params.temperature).length ≤ 2 ^ 31 := by
    rw [List.length_map]
    exact hsize
  unfold sampleFrom
  by_cases htopK : params.topK > 0
  · have hused := hkept.resolve_left (not_le_of_gt htopK)
    obtain ⟨result, rng', i, scaled, hsampled, ⟨htoken, hread⟩, hlarger⟩ :=
      sampleTopK_mem hne' hsize' hused rng
    rw [List.getElem?_map, Option.map_eq_some_iff] at hread
    obtain ⟨logit, hread, rfl⟩ := hread
    rw [larger_map_div logits htemperature, List.length_map] at hlarger
    rw [if_pos htopK, hsampled]
    exact ⟨result, rng', rfl, i, logit, ⟨htoken, hread⟩, fun hgreedy => absurd hgreedy hzero,
      fun _ _ => rank_lt htopK hsize hlarger⟩
  · obtain ⟨_, _, n, -, -, hfound, -⟩ := findNucleus_found lib hne' params.topP
    obtain ⟨result, rng', hsampled, i, hi, htoken⟩ := sampleTopP_mem hne' hsize' hfound rng
    have hin := mem_partialSortIndices.mp (List.mem_of_mem_take hi)
    rw [List.length_map] at hin
    rw [if_neg htopK, hsampled]
    exact ⟨result, rng', rfl, i, logits[i], ⟨htoken, List.getElem?_eq_getElem hin⟩,
      fun hgreedy => absurd hgreedy hzero, fun _ hused => absurd hused htopK⟩

theorem LeavesCandidate.picks (hne : logits ≠ []) (hsize : logits.length ≤ 2 ^ 31)
    (hpenalty : 0 < params.repetitionPenalty) (htokens : ∀ t ∈ tokens, t < 2 ^ 31)
    (h : LeavesCandidate lib params) : s.Picks logits params tokens := by
  have hlength : (penalized params.repetitionPenalty tokens logits).length = logits.length :=
    penalized_length tokens logits
  rw [← hlength] at hsize
  have hne' : penalized params.repetitionPenalty tokens logits ≠ [] := by
    rw [← List.length_pos_iff, hlength]
    exact List.length_pos_iff.mpr hne
  unfold Picks
  rw [sample_eq s hne hpenalty htokens]
  by_cases htemperature : params.temperature ≤ 0
  · obtain ⟨result, i, logit, hgreedy, hnames, hfirst⟩ := sampleGreedy_first hne' hsize
    rw [if_pos htemperature, hgreedy]
    exact ⟨result, s, rfl, i, logit, hnames, fun _ => hfirst,
      fun hpositive => absurd hpositive (not_lt_of_ge htemperature)⟩
  · obtain ⟨result, rng', hsampled, hfitting⟩ := sampleFrom_fitting hne' hsize
      (not_le.mp htemperature) (h.resolve_left htemperature) (s.createRng params).1
    rw [if_neg htemperature, hsampled]
    exact ⟨result, (s.createRng params).2, rfl, hfitting⟩

end Call

/-! ## Tokens that have no `int32_t` -/

/-- A generator that draws the first candidate draws the largest logit. -/
theorem sampleFrom_peak (hfirst : ∀ weights rng, (lib.draw weights rng).1 = 0) {p : Nat}
    (hp : p < logits.length)
    (hpeak : ∀ j < logits.length, j ≠ p → logits.getD j 0 < logits.getD p 0)
    {params : SamplingParams K}
    (hkept : params.topK ≤ 0 ∨ toSize (truncate lib params.topK) ≠ 0)
    {rng rng' : lib.State} {result : SampleResult K}
    (h : sampleFrom logits params rng = some (result, rng')) :
    result.tokenId = toInt32 (p : Int) := by
  have hne : logits ≠ [] := List.length_pos_iff.mp (Nat.zero_lt_of_lt hp)
  have hdrawn : ∀ {m probs}, 0 < m →
      sampleIndex lib logits (partialSortIndices lib logits m) probs rng = some (result, rng') →
        result.tokenId = toInt32 (p : Int) := by
    intro m probs hm hsampled
    obtain ⟨index, hindex, htoken⟩ := sampleIndex_tokenId hsampled
    rw [hfirst, partialSortIndices_head hp hm hpeak] at hindex
    rw [htoken, Option.some.inj hindex]
  unfold sampleFrom at h
  by_cases htopK : params.topK > 0
  · have hpos : 0 < min (toSize (truncate lib params.topK)) logits.length := by
      have hsize := hkept.resolve_left (not_le_of_gt htopK)
      omega
    rw [if_pos htopK] at h
    simp only [sampleTopK, Option.bind_eq_bind, Option.bind_eq_some_iff] at h
    obtain ⟨_, -, probs, -, hsampled⟩ := h
    exact hdrawn hpos hsampled
  · obtain ⟨_, _, n, -, -, hfound, -⟩ := findNucleus_found lib hne params.topP
    rw [if_neg htopK] at h
    simp only [sampleTopP, hfound, Option.bind_eq_bind, Option.bind_some,
      Option.bind_eq_some_iff] at h
    obtain ⟨probs, -, hsampled⟩ := h
    exact hdrawn (maxCandidates_pos hne params.topP) hsampled

/-- With more than `2 ^ 31` logits there are tokens that cannot be returned. -/
theorem not_picks_peaked {n : Nat} (hn : 2 ^ 31 < n) {params : SamplingParams K}
    (hpenalty : 0 < params.repetitionPenalty) (s : Sampler (drawsFirst lib)) :
    ¬ s.Picks (peaked n (2 ^ 31) 1) params [] := by
  have htoken : toInt32 ((2 ^ 31 : Nat) : Int) = -2 ^ 31 := rfl
  have hne : ∀ height : K, peaked n (2 ^ 31) height ≠ [] := by
    intro height
    rw [← List.length_pos_iff, peaked_length]
    omega
  intro hpicks
  have hcandidate := hpicks.leavesCandidate (hne 1) hpenalty (by simp)
  obtain ⟨result, s', hsample, i, logit, hnames, -⟩ := hpicks
  have hnonneg := hnames.tokenId
  suffices hlost : result.tokenId = toInt32 ((2 ^ 31 : Nat) : Int) by
    rw [htoken] at hlost
    omega
  rw [sample_eq s (hne 1) hpenalty (by simp), penalized_nil, peaked_div] at hsample
  have hp : ∀ height : K, 2 ^ 31 < (peaked n (2 ^ 31) height).length := by
    intro height
    rw [peaked_length]
    exact hn
  split at hsample
  next htemperature =>
    obtain ⟨greedy, hgreedy, hresult⟩ := Option.map_eq_some_iff.mp hsample
    cases hresult
    exact sampleGreedy_peak (hp 1) (peaked_lt hn one_pos) hgreedy
  next htemperature =>
    obtain ⟨sampled, hsampled, hresult⟩ := Option.map_eq_some_iff.mp hsample
    cases hresult
    have hheight : 0 < 1 / params.temperature := one_div_pos.mpr (not_le.mp htemperature)
    exact sampleFrom_peak (fun _ _ => rfl) (hp _) (peaked_lt hn hheight)
      (hcandidate.resolve_left htemperature) hsampled

variable (lib) in
/-- **Sampling in range.**  In exact arithmetic, for every positive penalty and
tokens of type `int32_t`: on logits whose tokens are of this type too, a call
stays in range and returns a fitting token if and only if there is a candidate,
so for a `top_k` that converts, if it is zero, at least one or not in use; and
with any larger number of logits there is an input that returns none. -/
theorem sample_picks_iff {params : SamplingParams K} (hpenalty : 0 < params.repetitionPenalty) :
    (∀ logits : List K, logits ≠ [] → logits.length ≤ 2 ^ 31 →
      ∀ tokens : List Int, (∀ t ∈ tokens, t < 2 ^ 31) → ∀ s : Sampler lib,
        (s.Picks logits params tokens ↔ LeavesCandidate lib params)) ∧
      (params.topK < 2 ^ 31 →
        (LeavesCandidate lib params ↔
          params.temperature ≤ 0 ∨ params.topK ≤ 0 ∨ 1 ≤ params.topK)) ∧
      ∀ n > 2 ^ 31, ∃ logits : List K, logits.length = n ∧
        ∀ s : Sampler (drawsFirst lib), ¬ s.Picks logits params [] := by
  refine ⟨?_, ?_, ?_⟩
  · intro logits hne hsize tokens htokens s
    exact ⟨Picks.leavesCandidate hne hpenalty htokens,
      LeavesCandidate.picks hne hsize hpenalty htokens⟩
  · intro hlt
    unfold LeavesCandidate
    by_cases htopK : params.topK ≤ 0
    · simp [htopK]
    · rw [toSize_truncate_ne_zero_iff (not_le.mp htopK) hlt]
  · intro n hn
    exact ⟨peaked n (2 ^ 31) 1, peaked_length n (2 ^ 31) 1, not_picks_peaked hn hpenalty⟩

end Library

theorem sample_picks_iff_topTwo :
    Picks (⟨(0 : Nat)⟩ : Sampler rationalLibrary) [1, 3, 2] { topK := 2 } [] := by
  have hpenalty : 0 < ({ topK := 2 } : SamplingParams ℚ).repetitionPenalty := one_pos
  obtain ⟨hpicks, hconverts, -⟩ := sample_picks_iff rationalLibrary hpenalty
  have hcandidate : LeavesCandidate rationalLibrary ({ topK := 2 } : SamplingParams ℚ) :=
    (hconverts (by norm_num)).mpr (Or.inr (Or.inr (by norm_num)))
  exact (hpicks [1, 3, 2] (by decide) (by decide) [] (by decide) ⟨(0 : Nat)⟩).mpr hcandidate

/-- Half a candidate: the cast leaves no probability, and the first is read. -/
theorem sample_half_topK :
    (0 : ℚ) < ({ topK := 1 / 2, seed := some 42 } : SamplingParams ℚ).repetitionPenalty ∧
      sample (⟨(0 : Nat)⟩ : Sampler rationalLibrary) [0, 1] { topK := 1 / 2, seed := some 42 } [] =
        none := by
  refine ⟨one_pos, ?_⟩
  rw [sample_eq _ (by decide) one_pos (by decide), if_neg (by norm_num), sampleFrom,
    if_pos (by norm_num), sampleTopK_eq_none]
  · rfl
  · rw [toSize_truncate (by norm_num) (by norm_num)]
    norm_num

end Sampler

end Qwen
