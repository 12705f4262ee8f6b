import Mathlib.Data.List.AList
import Mathlib.Logic.Relation
import WinInference.Core.StopChecker
import WinInference.Words.Merging

/-!
# Byte-pair encoding

`apply_bpe` (`tokenizer/bpe.cpp`).  Each pass of its loop finds the neighbours of
lowest rank and merges all of them; it ends after at most one pass less than the
token has bytes.  For tables in which a merge ranks after the merges that make
its parts, it computes what merging one pair at a time does.

`bestPair_cases` is the search for the lowest rank, `Pass.shorter` the progress
of a pass, and `mergeLoop_ends` the termination.  `symbols_bytes` says that no
byte is lost, `applyBpe_normal` that no pair is left to merge, and
`reference_of_passes` takes a pass apart into single merges.
-/

namespace Qwen

/-- The merges with their ranks. -/
abbrev Merges := AList (fun _ : Bytes × Bytes => Int)

namespace Bpe

open Words

/-- `std::numeric_limits<int>::max()`. -/
def intMax : Int := 2 ^ 31 - 1

/-- Get the pairs of adjacent symbols in a word. -/
def getPairs (word : List Bytes) : List (Bytes × Bytes) := word.zip word.tail

/-- One pair of the scan for the lowest rank. -/
def scanPair (merges : Merges) (best : Int × (Bytes × Bytes)) (pair : Bytes × Bytes) :
    Int × (Bytes × Bytes) :=
  match merges.lookup pair with
  | some rank => if rank < best.1 then (rank, pair) else best
  | none => best

/-- The lowest rank of a pair, and that pair; `intMax` if no pair has a rank. -/
def bestPair (merges : Merges) (word : List Bytes) : Int × (Bytes × Bytes) :=
  (getPairs word).foldl (scanPair merges) (intMax, ([], []))

/-- Apply the merge of a pair. -/
def applyMerge (pair : Bytes × Bytes) (word : List Bytes) : List Bytes :=
  mergeAll pair.1 pair.2 (pair.1 ++ pair.2) word

/-- The loop of `apply_bpe`, if it ends within so many passes. -/
def mergeLoop (merges : Merges) (passes : Nat) (word : List Bytes) : Option (List Bytes) :=
  if (getPairs word).isEmpty then some word
  else
    let best := bestPair merges word
    if best.1 = intMax then some word
    else
      match passes with
      | 0 => none
      | passes + 1 =>
          let newWord := applyMerge best.2 word
          if newWord.length = 1 then some newWord else mergeLoop merges passes newWord

/-- Apply BPE merges to a word, if that takes at most so many passes. -/
def applyBpe (merges : Merges) (passes : Nat) (token : Bytes) : Option (List Bytes) :=
  let word := token.map fun c => [c]
  if word.length = 1 then some word else mergeLoop merges passes word

example : applyBpe ((AList.insert ([0x61], [0x61]) 0 ∅).insert ([0x61, 0x61], [0x62]) 1) 4
    [0x61, 0x61, 0x61, 0x62] = some [[0x61, 0x61], [0x61], [0x62]] := by decide

variable {merges : Merges} {word : List Bytes}

theorem mem_getPairs {a b : Bytes} : (a, b) ∈ getPairs word ↔ Neighbours a b word := mem_zip_tail

/-! ## The scan -/

variable (merges) in
/-- What a scan keeps: no rank is lower, and it is the rank of a pair unless it
is the one it began with. -/
theorem scan_spec (pairs : List (Bytes × Bytes)) (start : Int × (Bytes × Bytes)) :
    let best := pairs.foldl (scanPair merges) start
    (∀ pair ∈ pairs, ∀ rank, merges.lookup pair = some rank → best.1 ≤ rank) ∧
      best.1 ≤ start.1 ∧
      (best = start ∨
        best.2 ∈ pairs ∧ merges.lookup best.2 = some best.1 ∧ best.1 < start.1) := by
  induction pairs generalizing start with
  | nil => exact ⟨fun _ h => absurd h List.not_mem_nil, le_rfl, Or.inl rfl⟩
  | cons pair rest ih =>
      intro best
      obtain ⟨hlowest, hle, hfrom⟩ := ih (scanPair merges start pair)
      have hstep : (scanPair merges start pair).1 ≤ start.1 ∧
          (∀ rank, merges.lookup pair = some rank → (scanPair merges start pair).1 ≤ rank) ∧
          (scanPair merges start pair = start ∨
            merges.lookup pair = some (scanPair merges start pair).1 ∧
              (scanPair merges start pair).2 = pair ∧
              (scanPair merges start pair).1 < start.1) := by
        unfold scanPair
        cases hlookup : merges.lookup pair with
        | none => exact ⟨le_rfl, nofun, Or.inl rfl⟩
        | some rank =>
            dsimp only
            split
            next hlt =>
              refine ⟨hlt.le, fun rank' h => ?_, Or.inr ⟨rfl, rfl, hlt⟩⟩
              exact (Option.some.inj h).le
            next hge =>
              refine ⟨le_rfl, fun rank' h => ?_, Or.inl rfl⟩
              rw [← Option.some.inj h]
              exact not_lt.mp hge
      obtain ⟨hstart, hpair, hkept⟩ := hstep
      refine ⟨fun pair' hmem rank hrank => ?_, hle.trans hstart, ?_⟩
      · rcases List.mem_cons.mp hmem with rfl | hmem
        · exact hle.trans (hpair rank hrank)
        · exact hlowest pair' hmem rank hrank
      · rcases hfrom with hsame | ⟨hmem, hlookup, hlt⟩
        · rcases hkept with hkept | ⟨hlookup, hwhich, hlt⟩
          · exact Or.inl (hsame.trans hkept)
          · refine Or.inr ⟨?_, ?_, ?_⟩
            · show best.2 ∈ pair :: rest
              rw [show best = scanPair merges start pair from hsame, hwhich]
              exact List.mem_cons_self
            · show merges.lookup best.2 = some best.1
              rw [show best = scanPair merges start pair from hsame, hwhich]
              exact hlookup
            · show best.1 < start.1
              rw [show best = scanPair merges start pair from hsame]
              exact hlt
        · exact Or.inr ⟨List.mem_cons_of_mem _ hmem, hlookup, hlt.trans_le hstart⟩

/-- The pair of neighbours with the lowest rank. -/
structure Lowest (merges : Merges) (word : List Bytes) (pair : Bytes × Bytes) (rank : Int) :
    Prop where
  neighbours : Neighbours pair.1 pair.2 word
  lookup : merges.lookup pair = some rank
  lowest : ∀ x y rank', Neighbours x y word → merges.lookup (x, y) = some rank' → rank ≤ rank'

/-- No neighbours are in the table. -/
def Unmergeable (merges : Merges) (word : List Bytes) : Prop :=
  ∀ x y, Neighbours x y word → merges.lookup (x, y) = none

/-- Ranks that the scan does not take for the absence of a pair. -/
def Ranked (merges : Merges) : Prop := ∀ pair rank, merges.lookup pair = some rank → rank < intMax

/-- The scan finds the lowest pair, or there is none. -/
theorem bestPair_cases (hranked : Ranked merges) (word : List Bytes) :
    ((bestPair merges word).1 = intMax ∧ Unmergeable merges word) ∨
      ((bestPair merges word).1 ≠ intMax ∧
        Lowest merges word (bestPair merges word).2 (bestPair merges word).1) := by
  obtain ⟨hlowest, -, hfrom⟩ :=
    scan_spec merges (getPairs word) (intMax, ([], []))
  rcases hfrom with hsame | ⟨hmem, hlookup, hlt⟩
  · refine Or.inl ⟨congrArg Prod.fst hsame, fun x y hpair => ?_⟩
    cases hrank : merges.lookup (x, y) with
    | none => rfl
    | some rank =>
        have hle := hlowest (x, y) (mem_getPairs.mpr hpair) rank hrank
        rw [hsame] at hle
        exact absurd (hranked _ _ hrank) (not_lt.mpr hle)
  · refine Or.inr ⟨ne_of_lt hlt, mem_getPairs.mp hmem, hlookup, fun x y rank hpair hrank => ?_⟩
    exact hlowest (x, y) (mem_getPairs.mpr hpair) rank hrank

/-! ## The loop -/

/-- One pass of the loop. -/
inductive Pass (merges : Merges) : List Bytes → List Bytes → Prop where
  | merge {word : List Bytes} {pair : Bytes × Bytes} {rank : Int}
      (h : Lowest merges word pair rank) : Pass merges word (applyMerge pair word)

theorem Pass.shorter {word' : List Bytes} (h : Pass merges word word') :
    word'.length < word.length := by
  cases h with
  | merge h => exact length_mergeAll_lt h.neighbours

/-- **The loop ends.**  Fewer passes than there are symbols lead to a word
without neighbours in the table. -/
theorem mergeLoop_ends (hranked : Ranked merges) (word : List Bytes) :
    ∃ word', (∀ passes, word.length - 1 ≤ passes → mergeLoop merges passes word = some word') ∧
      Relation.ReflTransGen (Pass merges) word word' ∧ Unmergeable merges word' := by
  induction hn : word.length using Nat.strong_induction_on generalizing word with
  | _ n ih =>
      by_cases hempty : getPairs word = []
      · refine ⟨word, fun passes _ => ?_, .refl, fun x y hpair => ?_⟩
        · unfold mergeLoop
          rw [if_pos (List.isEmpty_iff.mpr hempty)]
        · have hmem := mem_getPairs.mpr hpair
          rw [hempty] at hmem
          exact absurd hmem List.not_mem_nil
      have hpairs : ¬ (getPairs word).isEmpty = true := fun h => hempty (List.isEmpty_iff.mp h)
      rcases bestPair_cases hranked word with ⟨hnone, hunmergeable⟩ | ⟨hsome, hlowest⟩
      · refine ⟨word, fun passes _ => ?_, .refl, hunmergeable⟩
        unfold mergeLoop
        rw [if_neg hpairs, if_pos hnone]
      have hpass : Pass merges word (applyMerge (bestPair merges word).2 word) := .merge hlowest
      have hshorter := hpass.shorter
      -- a pass is left, since the word has neighbours
      have hstep : ∀ passes, word.length - 1 ≤ passes → ∃ fewer, passes = fewer + 1 ∧
          (applyMerge (bestPair merges word).2 word).length - 1 ≤ fewer ∧
          mergeLoop merges passes word =
            if (applyMerge (bestPair merges word).2 word).length = 1 then
              some (applyMerge (bestPair merges word).2 word)
            else mergeLoop merges fewer (applyMerge (bestPair merges word).2 word) := by
        intro passes hpasses
        have htwo : 2 ≤ word.length := by
          have hle := hlowest.neighbours.length_le
          simpa using hle
        obtain ⟨fewer, rfl⟩ : ∃ fewer, passes = fewer + 1 := ⟨passes - 1, by omega⟩
        refine ⟨fewer, rfl, by omega, ?_⟩
        rw [mergeLoop, if_neg hpairs, if_neg hsome]
      by_cases hone : (applyMerge (bestPair merges word).2 word).length = 1
      · refine ⟨_, fun passes hpasses => ?_, .single hpass, fun x y hpair => ?_⟩
        · obtain ⟨fewer, -, -, heq⟩ := hstep passes (hn ▸ hpasses)
          rw [heq, if_pos hone]
        · obtain ⟨s, hs⟩ := List.length_eq_one_iff.mp hone
          rw [hs] at hpair
          exact absurd hpair not_neighbours_singleton
      · obtain ⟨word', hloop, hpasses', hunmergeable⟩ := ih _ (hn ▸ hshorter) _ rfl
        refine ⟨word', fun passes hpasses => ?_, .head hpass hpasses', hunmergeable⟩
        obtain ⟨fewer, -, hfewer, heq⟩ := hstep passes (hn ▸ hpasses)
        rw [heq, if_neg hone]
        exact hloop fewer hfewer

/-- What `apply_bpe` computes. -/
theorem applyBpe_ends (hranked : Ranked merges) (token : Bytes) :
    ∃ word, (∀ passes, token.length - 1 ≤ passes → applyBpe merges passes token = some word) ∧
      Relation.ReflTransGen (Pass merges) (token.map fun c => [c]) word ∧
      Unmergeable merges word := by
  by_cases hone : (token.map fun c => [c]).length = 1
  · refine ⟨token.map fun c => [c], fun passes _ => ?_, .refl, fun x y hpair => ?_⟩
    · unfold applyBpe
      rw [if_pos hone]
    · obtain ⟨s, hs⟩ := List.length_eq_one_iff.mp hone
      rw [hs] at hpair
      exact absurd hpair not_neighbours_singleton
  · obtain ⟨word, hloop, hpasses, hunmergeable⟩ :=
      mergeLoop_ends hranked (token.map fun c => [c])
    refine ⟨word, fun passes hle => ?_, hpasses, hunmergeable⟩
    unfold applyBpe
    rw [if_neg hone]
    exact hloop passes (by rwa [List.length_map])

/-! ## The symbols -/

/-- The symbols of a token: bytes and merges, none of them empty. -/
structure Symbols (merges : Merges) (token : Bytes) (word : List Bytes) : Prop where
  flatten : word.flatten = token
  nonempty : ∀ s ∈ word, s ≠ []
  made : ∀ s ∈ word, (∃ c, s = [c]) ∨ ∃ pair ∈ merges, s = pair.1 ++ pair.2

theorem symbols_bytes (merges : Merges) (token : Bytes) :
    Symbols merges token (token.map fun c => [c]) where
  flatten := by
    induction token with
    | nil => rfl
    | cons c rest ih => rw [List.map_cons, List.flatten_cons, ih, List.singleton_append]
  nonempty s hs := by
    obtain ⟨c, -, rfl⟩ := List.mem_map.mp hs
    exact List.cons_ne_nil c []
  made s hs := by
    obtain ⟨c, -, rfl⟩ := List.mem_map.mp hs
    exact Or.inl ⟨c, rfl⟩

/-- One pass. -/
theorem Symbols.pass {token : Bytes} {word' : List Bytes} (h : Symbols merges token word)
    (hpass : Pass merges word word') : Symbols merges token word' := by
  cases hpass with
  | @merge pair rank hlowest =>
      have hsymbol : ∀ s ∈ applyMerge pair word, s ∈ word ∨ s = pair.1 ++ pair.2 := by
        intro s hs
        rcases mem_mergeAll hs with hold | ⟨hnew, -⟩
        · exact Or.inl hold
        · exact Or.inr hnew
      refine ⟨(flatten_mergeAll _ _ _).trans h.flatten, fun s hs => ?_, fun s hs => ?_⟩
      · rcases hsymbol s hs with hold | rfl
        · exact h.nonempty s hold
        · have hmem : pair.1 ∈ word := hlowest.neighbours.subset List.mem_cons_self
          exact fun hnil => h.nonempty _ hmem (List.append_eq_nil_iff.mp hnil).1
      · rcases hsymbol s hs with hold | rfl
        · exact h.made s hold
        · refine Or.inr ⟨pair, ?_, rfl⟩
          exact AList.lookup_isSome.mp (Option.isSome_iff_exists.mpr ⟨rank, hlowest.lookup⟩)

theorem Symbols.passes {token : Bytes} {word' : List Bytes} (h : Symbols merges token word)
    (hpasses : Relation.ReflTransGen (Pass merges) word word') : Symbols merges token word' := by
  induction hpasses with
  | refl => exact h
  | tail _ hpass ih => exact ih.pass hpass

/-- **Byte-pair encoding ends in normal form.**  Within fewer passes than the
token has bytes, for every table: the symbols make up the token, none is empty,
each is a byte or a merge, and no two neighbours can be merged. -/
theorem applyBpe_normal (merges : Merges)
    (hranked : ∀ pair rank, merges.lookup pair = some rank → rank < intMax) (token : Bytes) :
    ∃ word, (∀ passes, token.length - 1 ≤ passes → applyBpe merges passes token = some word) ∧
      word.flatten = token ∧ (∀ s ∈ word, s ≠ []) ∧
      (∀ s ∈ word, (∃ c, s = [c]) ∨ ∃ pair ∈ merges, s = pair.1 ++ pair.2) ∧
      ∀ pair ∈ word.zip word.tail, pair ∉ merges := by
  obtain ⟨word, hends, hpasses, hunmergeable⟩ := applyBpe_ends hranked token
  obtain ⟨hflatten, hnonempty, hmade⟩ := (symbols_bytes merges token).passes hpasses
  refine ⟨word, hends, hflatten, hnonempty, hmade, fun ⟨x, y⟩ hpair hmem => ?_⟩
  have hnone := hunmergeable x y (mem_zip_tail.mp hpair)
  exact AList.lookup_eq_none.mp hnone hmem

theorem applyBpe_normal_sample :
    ∃ word, (∀ passes, 2 ≤ passes →
        applyBpe (AList.insert ([0x61], [0x61]) 7 ∅) passes [0x61, 0x61, 0x61] = some word) ∧
      word.flatten = [0x61, 0x61, 0x61] := by
  have hranked : ∀ pair rank,
      (AList.insert ([0x61], [0x61]) 7 (∅ : Merges)).lookup pair = some rank → rank < intMax := by
    intro pair rank h
    by_cases hpair : pair = ([0x61], [0x61])
    · subst hpair
      rw [AList.lookup_insert] at h
      rw [← Option.some.inj h]
      decide
    · rw [AList.lookup_insert_ne hpair, AList.lookup_empty] at h
      cases h
  obtain ⟨word, hends, hflatten, -⟩ :=
    applyBpe_normal (AList.insert ([0x61], [0x61]) 7 ∅) hranked [0x61, 0x61, 0x61]
  exact ⟨word, hends, hflatten⟩

/-! ## One pair at a time -/

/-- A step of the reference procedure: the leftmost occurrence of the pair of
neighbours with the lowest rank is merged. -/
inductive ReferenceStep (merges : Merges) : List Bytes → List Bytes → Prop where
  | merge {word : List Bytes} {pair : Bytes × Bytes} {rank : Int}
      (h : Lowest merges word pair rank) :
      ReferenceStep merges word (mergeFirst pair.1 pair.2 (pair.1 ++ pair.2) word)

/-- The reference procedure turns the bytes of a token into this word, in which
there is nothing left to merge. -/
def Reference (merges : Merges) (token : Bytes) (word : List Bytes) : Prop :=
  Relation.ReflTransGen (ReferenceStep merges) (token.map fun c => [c]) word ∧
    Unmergeable merges word

theorem Unmergeable.stuck (h : Unmergeable merges word) (word' : List Bytes) :
    ¬ ReferenceStep merges word word' := by
  rintro ⟨hlow⟩
  have hnone := h _ _ hlow.neighbours
  rw [hlow.lookup] at hnone
  cases hnone

/-- Tables in which a merge ranks after the merges that make its parts. -/
structure Consistent (merges : Merges) : Prop where
  ranked : Ranked merges
  distinct : ∀ pair pair' rank, merges.lookup pair = some rank →
    merges.lookup pair' = some rank → pair = pair'
  nonempty : ∀ pair ∈ merges, pair.1 ≠ [] ∧ pair.2 ≠ []
  later : ∀ a b x y rank rank', merges.lookup (a, b) = some rank →
    merges.lookup (x, y) = some rank' → a ++ b = x ∨ a ++ b = y → rank < rank'

/-- The steps are deterministic. -/
theorem referenceStep_unique (h : Consistent merges) {word' word'' : List Bytes}
    (hstep : ReferenceStep merges word word') (hstep' : ReferenceStep merges word word'') :
    word' = word'' := by
  cases hstep with
  | @merge pair rank hlow =>
      cases hstep' with
      | @merge pair' rank' hlow' =>
          have hle := hlow.lowest _ _ _ hlow'.neighbours hlow'.lookup
          have hge := hlow'.lowest _ _ _ hlow.neighbours hlow.lookup
          obtain rfl := le_antisymm hle hge
          rw [h.distinct pair pair' rank hlow.lookup hlow'.lookup]

/-- After a step no pair has a lower rank than the one that was merged. -/
theorem Lowest.mergeFirst (h : Consistent merges) {pair : Bytes × Bytes} {rank : Int}
    (hlow : Lowest merges word pair rank)
    (hagain : Neighbours pair.1 pair.2 (mergeFirst pair.1 pair.2 (pair.1 ++ pair.2) word)) :
    Lowest merges (mergeFirst pair.1 pair.2 (pair.1 ++ pair.2) word) pair rank where
  neighbours := hagain
  lookup := hlow.lookup
  lowest x y rank' hpair hrank := by
    rcases neighbours_mergeFirst hpair with hold | hleft | hright
    · exact hlow.lowest x y rank' hold hrank
    · exact (h.later _ _ x y rank rank' hlow.lookup hrank (Or.inl hleft.symm)).le
    · exact (h.later _ _ x y rank rank' hlow.lookup hrank (Or.inr hright.symm)).le

/-- A pass is a sequence of single merges. -/
theorem reference_of_lowest (h : Consistent merges) {pair : Bytes × Bytes} {rank : Int}
    (hlow : Lowest merges word pair rank) :
    Relation.ReflTransGen (ReferenceStep merges) word (applyMerge pair word) := by
  have hmem : pair ∈ merges :=
    AList.lookup_isSome.mp (Option.isSome_iff_exists.mpr ⟨rank, hlow.lookup⟩)
  obtain ⟨hfirst, hsecond⟩ := h.nonempty pair hmem
  have hnotFirst : pair.1 ++ pair.2 ≠ pair.1 := fun heq => hsecond (List.append_right_eq_self.mp heq)
  have hnotSecond : pair.1 ++ pair.2 ≠ pair.2 := fun heq => hfirst (List.append_left_eq_self.mp heq)
  induction hn : word.length using Nat.strong_induction_on generalizing word with
  | _ n ih =>
      have hsame : applyMerge pair (Words.mergeFirst pair.1 pair.2 (pair.1 ++ pair.2) word) =
          applyMerge pair word := mergeAll_mergeFirst hnotFirst hnotSecond
      have hstep : ReferenceStep merges word
          (Words.mergeFirst pair.1 pair.2 (pair.1 ++ pair.2) word) := .merge hlow
      rw [← hsame]
      by_cases hagain : Neighbours pair.1 pair.2
          (Words.mergeFirst pair.1 pair.2 (pair.1 ++ pair.2) word)
      · have hshorter := length_mergeFirst_lt (c := pair.1 ++ pair.2) hlow.neighbours
        exact .head hstep (ih _ (hn ▸ hshorter) (hlow.mergeFirst h hagain) rfl)
      · rw [applyMerge, mergeAll_of_not_neighbours hagain]
        exact .single hstep

theorem reference_of_passes (h : Consistent merges) {word' : List Bytes}
    (hpasses : Relation.ReflTransGen (Pass merges) word word') :
    Relation.ReflTransGen (ReferenceStep merges) word word' := by
  induction hpasses with
  | refl => exact .refl
  | tail _ hpass ih =>
      cases hpass with
      | merge hlow => exact ih.trans (reference_of_lowest h hlow)

/-- **Merging in passes is merging one at a time.**  For a consistent table,
`apply_bpe` returns the one word that the reference procedure ends in. -/
theorem applyBpe_reference (h : Consistent merges) (token : Bytes) (passes : Nat)
    (hpasses : token.length - 1 ≤ passes) :
    ∃ word, applyBpe merges passes token = some word ∧
      ∀ word', Reference merges token word' ↔ word' = word := by
  obtain ⟨word, hends, hsteps, hunmergeable⟩ := applyBpe_ends h.ranked token
  have hreached := reference_of_passes h hsteps
  refine ⟨word, hends passes hpasses, fun word' => ⟨?_, ?_⟩⟩
  · rintro ⟨hreached', hunmergeable'⟩
    -- two ends of a deterministic run are the same
    have hunique : Relator.RightUnique (ReferenceStep merges) := fun _ _ _ =>
      referenceStep_unique h
    rcases hreached.total_of_right_unique hunique hreached' with hafter | hafter
    · rcases hafter.cases_head with rfl | ⟨next, hnext, -⟩
      · rfl
      · exact absurd hnext (hunmergeable.stuck next)
    · rcases hafter.cases_head with rfl | ⟨next, hnext, -⟩
      · rfl
      · exact absurd hnext (hunmergeable'.stuck next)
  · rintro rfl
    exact ⟨hreached, hunmergeable⟩

/-- A run of one letter, in which the occurrences of the pair overlap. -/
def doublingMerges : Merges :=
  (AList.insert ([0x61], [0x61]) 0 ∅).insert ([0x61, 0x61], [0x61]) 1

theorem doublingMerges_lookup {pair : Bytes × Bytes} {rank : Int}
    (h : doublingMerges.lookup pair = some rank) :
    (pair = ([0x61], [0x61]) ∧ rank = 0) ∨ (pair = ([0x61, 0x61], [0x61]) ∧ rank = 1) := by
  unfold doublingMerges at h
  by_cases hsecond : pair = ([0x61, 0x61], [0x61])
  · subst hsecond
    rw [AList.lookup_insert] at h
    exact Or.inr ⟨rfl, (Option.some.inj h).symm⟩
  · rw [AList.lookup_insert_ne hsecond] at h
    by_cases hfirst : pair = ([0x61], [0x61])
    · subst hfirst
      rw [AList.lookup_insert] at h
      exact Or.inl ⟨rfl, (Option.some.inj h).symm⟩
    · rw [AList.lookup_insert_ne hfirst, AList.lookup_empty] at h
      cases h

theorem doublingMerges_consistent : Consistent doublingMerges where
  ranked pair rank h := by
    rcases doublingMerges_lookup h with ⟨-, rfl⟩ | ⟨-, rfl⟩ <;> decide
  distinct pair pair' rank h h' := by
    rcases doublingMerges_lookup h with ⟨rfl, rfl⟩ | ⟨rfl, rfl⟩ <;>
      rcases doublingMerges_lookup h' with ⟨rfl, hrank⟩ | ⟨rfl, hrank⟩ <;>
        first | rfl | cases hrank
  nonempty pair h := by
    obtain ⟨rank, hrank⟩ := Option.isSome_iff_exists.mp (AList.lookup_isSome.mpr h)
    rcases doublingMerges_lookup hrank with ⟨rfl, -⟩ | ⟨rfl, -⟩ <;> decide
  later a b x y rank rank' h h' hpart := by
    rcases doublingMerges_lookup h with ⟨hpair, rfl⟩ | ⟨hpair, rfl⟩ <;> cases hpair <;>
      rcases doublingMerges_lookup h' with ⟨hpair', rfl⟩ | ⟨hpair', rfl⟩ <;> cases hpair' <;>
        revert hpart <;> decide

/-- Five letters become a pair and a triple. -/
theorem applyBpe_reference_sample :
    applyBpe doublingMerges 4 [0x61, 0x61, 0x61, 0x61, 0x61] =
        some [[0x61, 0x61], [0x61, 0x61, 0x61]] ∧
      ∃ word, applyBpe doublingMerges 4 [0x61, 0x61, 0x61, 0x61, 0x61] = some word ∧
        ∀ word', Reference doublingMerges [0x61, 0x61, 0x61, 0x61, 0x61] word' ↔ word' = word :=
  ⟨by decide, applyBpe_reference doublingMerges_consistent _ 4 (by decide)⟩

end Bpe

end Qwen
