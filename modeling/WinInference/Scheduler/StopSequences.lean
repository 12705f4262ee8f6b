import Mathlib.Data.Nat.Find
import WinInference.Scheduler.Outcome

/-!
# Stop sequences and the returned text

A stop sequence is looked for at the end of the text, after each token, and only
when neither the token limit nor a stop token ends generation first; one match
is cut off.  So a sequence stays out of the returned text exactly when the first
token whose text makes one appear also makes it the end of the text, is not the
last token allowed or a stop token, and leaves nothing in front of the match.

`Shows` says that a sequence occurs in a text, and `CutsOff` that a token makes
one appear that the check finds and cuts off entirely.  `check_sequences` is the
verdict on the sequences, `cutsOff_iff` says when a token cuts off, and
`exists_first` finds the first token that shows one.
-/

namespace Qwen

namespace StopChecker

variable {text seq front : Bytes} {seqs : List Bytes}

/-- Some stop sequence occurs in the text. -/
def Shows (stopSequences : List Bytes) (text : Bytes) : Prop :=
  ∃ seq ∈ stopSequences, seq <:+: text

theorem Shows.mono {longer : Bytes} (h : Shows seqs text) (hsub : text <:+: longer) :
    Shows seqs longer := by
  obtain ⟨seq, hmem, hin⟩ := h
  exact ⟨seq, hmem, hin.trans hsub⟩

theorem endsWith_eq (text seq : Bytes) : endsWith text seq = seq.isSuffixOf text := by
  rw [Bool.eq_iff_iff, List.isSuffixOf_iff_suffix, List.suffix_iff_eq_drop, endsWith,
    Bool.and_eq_true, decide_eq_true_iff, beq_iff_eq]
  constructor
  · exact fun h => h.2.symm
  · intro h
    have hlength := congrArg List.length h
    rw [List.length_drop] at hlength
    exact ⟨by omega, h.symm⟩

/-- Of stop sequences that are not empty, the first one the text ends with. -/
theorem findStopSequence_eq (hne : ∀ seq ∈ seqs, seq ≠ []) (text : Bytes) :
    findStopSequence text seqs = seqs.find? (·.isSuffixOf text) := by
  induction seqs with
  | nil => rfl
  | cons first rest ih =>
      have hfirst : first ≠ [] := hne first List.mem_cons_self
      unfold findStopSequence
      rw [if_neg (by simpa using hfirst), endsWith_eq, List.find?_cons,
        ih fun seq hmem => hne seq (List.mem_cons_of_mem first hmem)]
      cases first.isSuffixOf text <;> rfl

theorem trimStopSequence_append (hne : seq ≠ []) (front : Bytes) :
    trimStopSequence (front ++ seq) seq = front := by
  have hend : endsWith (front ++ seq) seq = true := by
    rw [endsWith_eq, List.isSuffixOf_iff_suffix]
    exact List.suffix_append front seq
  rw [trimStopSequence, if_neg (by simpa using hne), if_pos hend]
  simp

/-- What is left after trimming is the beginning of the text. -/
theorem trimStopSequence_isPrefix (text seq : Bytes) : trimStopSequence text seq <+: text := by
  unfold trimStopSequence
  split
  · exact List.prefix_refl text
  · split
    · exact List.take_prefix _ text
    · exact List.prefix_refl text

/-- The last of these tokens ends generation with a stop sequence, and no stop
sequence is left in front of the one that is cut off. -/
structure CutsOff (t : Tokenizer) (stopSequences : List Bytes) (maxTokens : Int)
    (tokens : List Int) : Prop where
  /-- it is not the last token allowed -/
  below : toInt32 tokens.length < maxTokens
  /-- it is not a stop token -/
  ordinary : ∀ last, tokens.getLast? = some last → last ≠ t.eosTokenId ∧ last ≠ t.imEndId
  /-- the text ends with a stop sequence -/
  cut : ∃ front seq, stopSequences.find? (·.isSuffixOf (tokens.flatMap t.tokenText)) = some seq ∧
    tokens.flatMap t.tokenText = front ++ seq ∧ ¬ Shows stopSequences front

section Check

variable {t : Tokenizer} {tokens : List Int} {maxTokens : Int}

theorem stopTokenAt_none : stopTokenAt t tokens [] = none ↔
    ∀ last, tokens.getLast? = some last → last ≠ t.eosTokenId ∧ last ≠ t.imEndId := by
  unfold stopTokenAt
  cases tokens.getLast? with
  | none => simp
  | some last =>
      by_cases heos : last = t.eosTokenId
      · simp [heos]
      · by_cases hend : last = t.imEndId
        · simp [hend]
        · simp [heos, hend]

/-- What a check that reaches the stop sequences finds. -/
theorem check_sequences (hne : ∀ seq ∈ seqs, seq ≠ []) (hbelow : toInt32 tokens.length < maxTokens)
    (hordinary : stopTokenAt t tokens [] = none) :
    check t tokens text { stopSequences := seqs, maxTokens := maxTokens } =
      match seqs.find? (·.isSuffixOf text) with
      | some seq => { shouldStop := true, reason := .stop, matchedStopSequence := seq }
      | none => {} := by
  have hlimit : ¬(maxTokens > 0 ∧ toInt32 tokens.length ≥ maxTokens) := by omega
  rw [check, if_neg hlimit]
  dsimp only
  rw [hordinary, ← findStopSequence_eq hne]
  dsimp only
  split
  next hnone =>
    have hempty : findStopSequence text seqs = none := by
      rw [findStopSequence_eq hne, List.find?_eq_none]
      intro seq hmem hsuffix
      obtain hnil | htext := hnone
      · rw [List.isEmpty_iff.mp hnil] at hmem
        cases hmem
      · rw [List.isEmpty_iff.mp htext, List.isSuffixOf_iff_suffix, List.suffix_nil] at hsuffix
        exact hne seq hmem hsuffix
    rw [hempty]
  next => rfl

/-- A matched sequence was looked for. -/
theorem check_reached (h : (check t tokens text
    { stopSequences := seqs, maxTokens := maxTokens }).matchedStopSequence ≠ []) :
    ¬(maxTokens > 0 ∧ toInt32 tokens.length ≥ maxTokens) ∧ stopTokenAt t tokens [] = none := by
  unfold check at h
  split at h
  next => exact absurd rfl h
  next hlimit =>
    refine ⟨hlimit, ?_⟩
    dsimp only at h
    cases htoken : stopTokenAt t tokens [] with
    | none => rfl
    | some token =>
        rw [htoken] at h
        exact absurd rfl h

/-- When a stop sequence shows, it is kept out of the text exactly by cutting it
off. -/
theorem cutsOff_iff (hne : ∀ seq ∈ seqs, seq ≠ []) (hone : 1 ≤ maxTokens)
    (hshows : Shows seqs (tokens.flatMap t.tokenText)) :
    ¬ Shows seqs (trimStopSequence (tokens.flatMap t.tokenText)
        (check t tokens (tokens.flatMap t.tokenText)
          { stopSequences := seqs, maxTokens := maxTokens }).matchedStopSequence) ↔
      CutsOff t seqs maxTokens tokens := by
  constructor
  · intro hclean
    have hmatched : (check t tokens (tokens.flatMap t.tokenText)
        { stopSequences := seqs, maxTokens := maxTokens }).matchedStopSequence ≠ [] := by
      intro hnil
      rw [hnil] at hclean
      exact hclean hshows
    obtain ⟨hlimit, hordinary⟩ := check_reached hmatched
    have hbelow : toInt32 tokens.length < maxTokens := by omega
    rw [check_sequences hne hbelow hordinary] at hmatched hclean
    refine ⟨hbelow, stopTokenAt_none.mp hordinary, ?_⟩
    cases hfind : seqs.find? (·.isSuffixOf (tokens.flatMap t.tokenText)) with
    | none =>
        rw [hfind] at hmatched
        exact absurd rfl hmatched
    | some seq =>
        rw [hfind] at hmatched hclean
        have hsuffix := List.find?_some hfind
        rw [List.isSuffixOf_iff_suffix] at hsuffix
        obtain ⟨front, hfront⟩ := hsuffix
        refine ⟨front, seq, rfl, hfront.symm, ?_⟩
        rw [← hfront] at hclean
        dsimp only at hclean
        rwa [trimStopSequence_append hmatched] at hclean
  · rintro ⟨hbelow, hordinary, front, seq, hfind, hfront, hclean⟩
    rw [check_sequences hne hbelow (stopTokenAt_none.mpr hordinary), hfind, hfront]
    dsimp only
    rwa [trimStopSequence_append (hne seq (List.mem_of_find?_eq_some hfind))]

/-- Such a token stops generation. -/
theorem CutsOff.stops (h : CutsOff t seqs maxTokens tokens) (hne : ∀ seq ∈ seqs, seq ≠ []) :
    (check t tokens (tokens.flatMap t.tokenText)
      { stopSequences := seqs, maxTokens := maxTokens }).shouldStop = true := by
  obtain ⟨hbelow, hordinary, front, seq, hfind, -, -⟩ := h
  rw [check_sequences hne hbelow (stopTokenAt_none.mpr hordinary), hfind]

end Check

end StopChecker

namespace Scheduler

open StopChecker

variable {A : Type}

/-- The first moment a property holds. -/
theorem exists_first {P : Nat → Prop} {m : Nat} (h : P m) :
    ∃ first ≤ m, P first ∧ ∀ k < first, ¬ P k := by
  classical
  have hex : ∃ k, P k := ⟨m, h⟩
  exact ⟨Nat.find hex, Nat.find_min' hex h, Nat.find_spec hex, fun k => Nat.find_min hex⟩

section Runs

variable [IKVCacheAllocator A] [LawfulKVCacheAllocator A] {a : A} {g : Option GPURouter}
  {requests : RequestPtr → Request} {r : RequestPtr}

/-- **Stop sequences.**  They stay out of the text of a completed request, and
generation stops at the first token whose text shows one, exactly when that
token cuts it off. -/
theorem stop_sequences (d : SchedulerSetup) (hfresh : Fresh requests) (h : Unstarted (requests r))
    (hne : ∀ seq ∈ (requests r).stopSequences, seq ≠ []) (hone : 1 ≤ (requests r).maxTokens)
    (schedule : List (ThreadId × Answer)) :
    let q := ((System.initial (create a g requests)).run (code d) schedule).state.requests r
    let shown := fun m =>
      Shows (requests r).stopSequences ((q.outputTokens.take m).flatMap d.tokenizer.tokenText)
    q.state = .completed →
      ((¬ Shows (requests r).stopSequences q.outputText ∧
          ∀ m < q.outputTokens.length, ¬ shown m) ↔
        ∀ m ≤ q.outputTokens.length, shown m → (∀ k < m, ¬ shown k) →
          CutsOff d.tokenizer (requests r).stopSequences (requests r).maxTokens
            (q.outputTokens.take m)) := by
  intro q shown hcompleted
  obtain ⟨hbounded, -, hmax, houtcome⟩ := run_view (a := a) (g := g) d hfresh h schedule
  have hseqs : q.stopSequences = (requests r).stopSequences :=
    congrArg (fun t => t.2.2) ((constant_run d (create a g requests) schedule).input r)
  have hover : q.state.isOver = true := by rw [hcompleted]; rfl
  have htext : q.outputText =
      trimStopSequence (q.outputTokens.flatMap d.tokenizer.tokenText)
        (check d.tokenizer q.outputTokens (q.outputTokens.flatMap d.tokenizer.tokenText)
          { stopSequences := q.stopSequences, maxTokens := q.maxTokens }).matchedStopSequence :=
    (houtcome (Or.inr hover)).text
  have hearlier : ∀ k < q.outputTokens.length,
      (check d.tokenizer (q.outputTokens.take k)
        ((q.outputTokens.take k).flatMap d.tokenizer.tokenText)
        { stopSequences := q.stopSequences, maxTokens := q.maxTokens }).shouldStop = false :=
    hbounded.earlier
  have hmax : q.maxTokens = (requests r).maxTokens := hmax
  rw [hseqs, hmax] at htext hearlier
  have hall : q.outputTokens.take q.outputTokens.length = q.outputTokens := List.take_length
  constructor
  · rintro ⟨hclean, hprompt⟩ m hm hshown hfirst
    obtain rfl : m = q.outputTokens.length :=
      Nat.le_antisymm hm (Nat.le_of_not_lt fun hlt => hprompt m hlt hshown)
    dsimp only [shown] at hshown
    rw [hall] at hshown ⊢
    rw [htext] at hclean
    exact (cutsOff_iff hne hone hshown).mp hclean
  · intro hcuts
    have hprompt : ∀ m < q.outputTokens.length, ¬ shown m := by
      intro m hm hshown
      obtain ⟨first, hle, hshown, hfirst⟩ := exists_first hshown
      have hstops := (hcuts first (by omega) hshown hfirst).stops hne
      rw [hearlier first (by omega)] at hstops
      cases hstops
    refine ⟨?_, hprompt⟩
    rw [htext]
    by_cases hshown : shown q.outputTokens.length
    · have hcut := hcuts _ (Nat.le_refl _) hshown hprompt
      dsimp only [shown] at hshown
      rw [hall] at hcut hshown
      exact (cutsOff_iff hne hone hshown).mpr hcut
    · intro hleft
      refine hshown (hleft.mono ?_)
      rw [hall]
      exact (trimStopSequence_isPrefix _ _).isInfix

end Runs

theorem stop_sequences_sample :
    let q := (alikeRun stoppedRequest (firstSubmitted 45 {})).state.requests 0
    let shown := fun m =>
      Shows stoppedRequest.stopSequences
        ((q.outputTokens.take m).flatMap sampleSetup.tokenizer.tokenText)
    (¬ Shows stoppedRequest.stopSequences q.outputText ∧
        ∀ m < q.outputTokens.length, ¬ shown m) ↔
      ∀ m ≤ q.outputTokens.length, shown m → (∀ k < m, ¬ shown k) →
        CutsOff sampleSetup.tokenizer stoppedRequest.stopSequences stoppedRequest.maxTokens
          (q.outputTokens.take m) := by
  have hcompleted : ((alikeRun stoppedRequest (firstSubmitted 45 {})).state.requests 0).state =
      .completed := by
    decide +kernel
  exact stop_sequences (a := sampleContiguous) (g := some (sampleRouter 20000)) (r := 0)
    sampleSetup (numbered_fresh rfl) (numbered_unstarted stoppedRequest_unstarted 0) (by decide)
    (by decide) (firstSubmitted 45 {}) hcompleted

/-- A request for one token, with the text of every token as a stop sequence. -/
def limitedRequest : Request :=
  { shortRequest with maxTokens := 1, stopSequences := [[120]] }

/-- At the token limit the stop sequence is not looked for, and is returned. -/
theorem stop_sequence_returned :
    let q := (alikeRun limitedRequest (firstSubmitted 45 {})).state.requests 0
    q.state = .completed ∧ q.outputText = [120] ∧
      Shows limitedRequest.stopSequences q.outputText := by
  have htext : ((alikeRun limitedRequest (firstSubmitted 45 {})).state.requests 0).outputText =
      [120] := by
    decide +kernel
  refine ⟨by decide +kernel, htext, [120], List.mem_singleton_self _, ?_⟩
  exact htext.symm ▸ List.infix_refl _

end Scheduler

end Qwen
