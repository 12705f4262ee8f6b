import WinInference.Tokenizer.PromptBuilder

/-!
# Scanning for special tokens

The loop of `tokenize` cuts a text greedily: at a special token where one begins,
and otherwise into single bytes.  Every special token begins with a letter that
it has nowhere else, so none lies across the place where another begins, and the
text before a special token, the token and the text after it are cut
independently of each other.

`tokenizeLoop_succ` is one pass of the loop, `nextSpecial_first` the place it
finds, and `tokenize_cut` the cut.  `tokenize_seam` says when the tokens of two
texts are those of their concatenation, and `template_segment` cuts a prompt
into its messages.
-/

namespace Qwen

theorem Marker.headed (m : Marker) : Words.Headed (0x3C : UInt8) m.text := by
  cases m
  · exact ⟨literal "|endoftext|>", by decide, by decide⟩
  · exact ⟨literal "|im_start|>", by decide, by decide⟩
  · exact ⟨literal "|im_end|>", by decide, by decide⟩

/-- The greedy cut of a text. -/
inductive Cut : Bytes → List Piece → Prop where
  | nil : Cut [] []
  | marker (m : Marker) {rest : Bytes} {ps : List Piece} (h : Cut rest ps) :
      Cut (m.text ++ rest) (.marker m :: ps)
  | byte {c : UInt8} {rest : Bytes} {ps : List Piece}
      (hno : ∀ m : Marker, ¬ m.text <+: c :: rest) (h : Cut rest ps) :
      Cut (c :: rest) (.byte c :: ps)

namespace Cut

theorem of_nil {ps : List Piece} (h : Cut [] ps) : ps = [] := by
  generalize htext : ([] : Bytes) = text at h
  cases h with
  | nil => rfl
  | marker m _ => exact absurd (List.append_eq_nil_iff.mp htext.symm).1 m.text_ne_nil
  | byte _ _ => cases htext

theorem exists_cut (text : Bytes) : ∃ ps, Cut text ps := by
  induction hn : text.length using Nat.strong_induction_on generalizing text with
  | _ n ih =>
      cases text with
      | nil => exact ⟨[], .nil⟩
      | cons c rest =>
          by_cases hmarker : ∃ m : Marker, m.text <+: c :: rest
          · obtain ⟨m, after, hafter⟩ := hmarker
            have hpos := List.length_pos_iff.mpr m.text_ne_nil
            have hlength := congrArg List.length hafter
            rw [List.length_append, hn] at hlength
            obtain ⟨ps, hps⟩ := ih after.length (by omega) after rfl
            rw [← hafter]
            exact ⟨_, hps.marker m⟩
          · rw [List.length_cons] at hn
            obtain ⟨ps, hps⟩ := ih rest.length (by omega) rest rfl
            exact ⟨_, .byte (fun m hm => hmarker ⟨m, hm⟩) hps⟩

/-- **The seam.**  A special token between two texts is cut out. -/
theorem append_marker {a b : Bytes} {ps qs : List Piece} (ha : Cut a ps) (hb : Cut b qs)
    (m : Marker) : Cut (a ++ (m.text ++ b)) (ps ++ .marker m :: qs) := by
  induction ha with
  | nil => exact hb.marker m
  | marker m' _ ih =>
      rw [List.append_assoc]
      exact ih.marker m'
  | byte hno _ ih =>
      refine .byte (fun m' hm' => hno m' ?_) ih
      exact m'.headed.prefix_of_append m.headed (List.cons_ne_nil _ _) hm'

/-- Before the first special token a text is cut into bytes. -/
theorem chunk {text : Bytes} {ps : List Piece} (h : Cut text ps) {n : Nat}
    (hno : ∀ k < n, ∀ m : Marker, ¬ m.text <+: text.drop k) :
    ∃ qs, ps = (text.take n).map .byte ++ qs ∧ Cut (text.drop n) qs := by
  induction n generalizing text ps with
  | zero => exact ⟨ps, rfl, h⟩
  | succ n ih =>
      cases h with
      | nil => exact ⟨[], rfl, .nil⟩
      | marker m _ => exact absurd (List.prefix_append _ _) (hno 0 (Nat.succ_pos n) m)
      | byte _ hrest =>
          obtain ⟨qs, rfl, hqs⟩ := ih hrest fun k hk m => hno (k + 1) (Nat.succ_lt_succ hk) m
          exact ⟨qs, rfl, hqs⟩

end Cut

/-! ## The loop -/

/-- No occurrence is before the one that is found. -/
theorem findText_first {pattern text : Bytes} {pos : Nat} (h : findText pattern text = some pos) :
    ∀ k < pos, ¬ pattern <+: text.drop k := by
  induction text generalizing pos with
  | nil =>
      unfold findText at h
      split at h
      next =>
        cases h
        exact fun k hk => absurd hk (Nat.not_lt_zero k)
      next => cases h
  | cons c rest ih =>
      unfold findText at h
      split at h
      next =>
        cases h
        exact fun k hk => absurd hk (Nat.not_lt_zero k)
      next hprefix =>
        obtain ⟨later, hlater, rfl⟩ := Option.map_eq_some_iff.mp h
        intro k hk
        cases k with
        | zero => exact fun hbegins => hprefix (List.isPrefixOf_iff_prefix.mpr hbegins)
        | succ k => exact ih hlater k (Nat.lt_of_succ_lt_succ hk)

/-- The fold that keeps the earliest of the positions found ends at or before
each of them. -/
theorem foldl_earliest_le {α : Type} (find : α → Option Nat) (l : List α) (start : Nat) :
    let stop := l.foldl (fun stop e => (find e).elim stop fun pos =>
      if pos < stop then pos else stop) start
    stop ≤ start ∧ ∀ e ∈ l, ∀ pos, find e = some pos → stop ≤ pos := by
  induction l generalizing start with
  | nil => exact ⟨Nat.le_refl _, fun _ h => absurd h List.not_mem_nil⟩
  | cons e rest ih =>
      rw [List.foldl_cons]
      generalize hnext : ((find e).elim start fun pos => if pos < start then pos else start) = next
      obtain ⟨hnextLe, hrest⟩ := ih next
      have hstart : next ≤ start ∧ ∀ pos, find e = some pos → next ≤ pos := by
        cases hfind : find e with
        | none =>
            rw [hfind] at hnext
            exact ⟨hnext.ge, fun pos h => by cases h⟩
        | some pos =>
            rw [hfind, Option.elim_some] at hnext
            refine ⟨by split at hnext <;> omega, fun pos' h => ?_⟩
            cases h
            split at hnext <;> omega
      refine ⟨hnextLe.trans hstart.1, fun e' he' pos hpos => ?_⟩
      rcases List.mem_cons.mp he' with rfl | he'
      · exact hnextLe.trans (hstart.2 pos hpos)
      · exact hrest e' he' pos hpos

namespace QwenBPETokenizer

/-- No special token begins before the one that `nextSpecial` finds. -/
theorem nextSpecial_first {special : List (Sigma fun _ : Bytes => TokenId)} {remaining : Bytes} :
    ∀ k < nextSpecial special remaining, ∀ e ∈ special, ¬ e.1 <+: remaining.drop k := by
  have hfold : nextSpecial special remaining =
      special.foldl (fun stop e => (findText e.1 remaining).elim stop fun pos =>
        if pos < stop then pos else stop) remaining.length := by
    unfold nextSpecial
    congr
    funext stop e
    cases findText e.1 remaining <;> rfl
  intro k hk e he hprefix
  rw [hfold] at hk
  cases hfind : findText e.1 remaining with
  | none =>
      have hinfix : e.1 <:+: remaining := hprefix.isInfix.trans (List.drop_suffix k _).isInfix
      exact PromptBuilder.findText_eq_none hfind hinfix
  | some pos =>
      have hpos := (foldl_earliest_le (fun e => findText e.1 remaining) special
        remaining.length).2 e he pos hfind
      exact findText_first hfind k (lt_of_lt_of_le hk hpos) hprefix

/-- The special tokens are the default ones, in any order of iteration. -/
def Default (t : QwenBPETokenizer) : Prop :=
  t.specialTokenMap.entries.Perm (registerSpecialTokens {}).entries

/-- The token of a piece. -/
def pieceToken (t : QwenBPETokenizer) : Piece → TokenId
  | .byte c => (t.vocab.lookup [c]).getD c.toNat
  | .marker m => m.token

variable {t : QwenBPETokenizer}

theorem Default.mem_special (h : Default t) {e : Sigma fun _ : Bytes => TokenId} :
    e ∈ t.specialTokenMap.entries ↔ ∃ m : Marker, e = ⟨m.text, m.token⟩ := by
  have hbuiltin : Reordered builtinTokenizer
      { builtinTokenizer with specialTokenMap := t.specialTokenMap } :=
    ⟨rfl, rfl, List.Perm.refl _, List.Perm.refl _, h⟩
  exact hbuiltin.mem_special

/-- One pass of the loop: the tokens it adds, and the text after it. -/
def pass (t : QwenBPETokenizer) (remaining : Bytes) : List TokenId × Bytes :=
  match t.specialTokenMap.entries.find? (fun e => e.1.isPrefixOf remaining) with
  | some e => ([e.2], remaining.drop e.1.length)
  | none =>
      let stop := nextSpecial t.specialTokenMap.entries remaining
      (t.tokenizeChunk (remaining.take stop), remaining.drop stop)

theorem tokenizeLoop_succ (t : QwenBPETokenizer) (fuel : Nat) {remaining : Bytes}
    (hne : remaining ≠ []) :
    t.tokenizeLoop (fuel + 1) remaining =
      (t.pass remaining).1 ++ t.tokenizeLoop fuel (t.pass remaining).2 := by
  unfold pass
  rw [tokenizeLoop, if_neg (by simpa using hne)]
  cases t.specialTokenMap.entries.find? (fun e => e.1.isPrefixOf remaining) <;> rfl

/-- A pass cuts off a beginning of the text that is not empty. -/
theorem Default.pass_cut (h : Default t) {text : Bytes} {ps : List Piece} (hcut : Cut text ps)
    (hne : text ≠ []) :
    ∃ qs rs, ps = qs ++ rs ∧ (t.pass text).1 = qs.map t.pieceToken ∧
      Cut (t.pass text).2 rs ∧ (t.pass text).2.length < text.length := by
  have hlength := List.length_pos_iff.mpr hne
  unfold pass
  cases hfind : t.specialTokenMap.entries.find? (fun e => e.1.isPrefixOf text) with
  | some e =>
      obtain ⟨m, rfl⟩ := h.mem_special.mp (List.mem_of_find?_eq_some hfind)
      have hfound : m.text.isPrefixOf text = true := by simpa using List.find?_some hfind
      have hprefix := List.isPrefixOf_iff_prefix.mp hfound
      have hpos := List.length_pos_iff.mpr m.text_ne_nil
      cases hcut with
      | nil => exact absurd rfl hne
      | @marker m' rest qs hrest =>
          -- both special tokens begin the text, so one begins the other
          have hsame : m = m' := by
            rcases List.prefix_or_prefix_of_prefix hprefix (List.prefix_append _ _) with hm | hm
            · exact Marker.text_prefix hm
            · exact (Marker.text_prefix hm).symm
          subst hsame
          dsimp only
          rw [List.drop_left]
          rw [List.length_append] at hlength ⊢
          exact ⟨[.marker m], qs, rfl, rfl, hrest, by omega⟩
      | byte hno _ => exact absurd hprefix (hno m)
  | none =>
      have hnone : ∀ e ∈ t.specialTokenMap.entries, ¬ e.1 <+: text := by
        intro e he hprefix
        have hno := List.find?_eq_none.mp hfind e he
        exact hno (List.isPrefixOf_iff_prefix.mpr hprefix)
      have hpos := nextSpecial_pos hne hnone
      obtain ⟨qs, rfl, hqs⟩ := hcut.chunk (n := nextSpecial t.specialTokenMap.entries text)
        fun k hk m => nextSpecial_first k hk _ (h.mem_special.mpr ⟨m, rfl⟩)
      refine ⟨_, qs, rfl, ?_, hqs, ?_⟩
      · rw [List.map_map]
        rfl
      · dsimp only
        rw [List.length_drop]
        omega

/-- **The loop cuts greedily.**  As many passes as the text has bytes are enough. -/
theorem Default.loop_cut (h : Default t) {fuel : Nat} {text : Bytes} {ps : List Piece}
    (hcut : Cut text ps) (hfuel : text.length ≤ fuel) :
    t.tokenizeLoop fuel text = ps.map t.pieceToken := by
  induction fuel generalizing text ps with
  | zero =>
      obtain rfl := List.eq_nil_of_length_eq_zero (Nat.le_zero.mp hfuel)
      rw [hcut.of_nil]
      rfl
  | succ fuel ih =>
      by_cases hne : text = []
      · subst hne
        rw [hcut.of_nil]
        rfl
      · obtain ⟨qs, rs, rfl, htokens, hrest, hshorter⟩ := h.pass_cut hcut hne
        have hafter : (t.pass text).2.length ≤ fuel := by omega
        rw [tokenizeLoop_succ t fuel hne, htokens, ih hrest hafter, List.map_append]

theorem Default.tokenize_cut (h : Default t) {text : Bytes} {ps : List Piece}
    (hcut : Cut text ps) : t.tokenize text = ps.map t.pieceToken :=
  h.loop_cut hcut (Nat.le_refl _)

/-- **The end.**  A pass shortens the text, and the tokens are those of the pass
and those of what is left. -/
theorem Default.tokenize_pass (h : Default t) {text : Bytes} (hne : text ≠ []) :
    (t.pass text).2.length < text.length ∧
      t.tokenize text = (t.pass text).1 ++ t.tokenize (t.pass text).2 := by
  obtain ⟨ps, hcut⟩ := Cut.exists_cut text
  obtain ⟨qs, rs, rfl, htokens, hrest, hshorter⟩ := h.pass_cut hcut hne
  refine ⟨hshorter, ?_⟩
  rw [h.tokenize_cut hcut, htokens, h.tokenize_cut hrest, List.map_append]

/-- **The homomorphism.** -/
theorem Default.tokenize_seam (h : Default t) (a b : Bytes) {e : Sigma fun _ : Bytes => TokenId}
    (he : e ∈ t.specialTokenMap.entries) :
    t.tokenize (a ++ e.1 ++ b) = t.tokenize a ++ [e.2] ++ t.tokenize b := by
  obtain ⟨m, rfl⟩ := h.mem_special.mp he
  obtain ⟨ps, hps⟩ := Cut.exists_cut a
  obtain ⟨qs, hqs⟩ := Cut.exists_cut b
  have hseam := h.tokenize_cut (hps.append_marker hqs m)
  rw [List.append_assoc, hseam, h.tokenize_cut hps, h.tokenize_cut hqs, List.map_append,
    List.map_cons, List.append_assoc]
  rfl

/-- The order of iteration does not matter. -/
theorem Default.tokenize_order (h : Default t) {t' : QwenBPETokenizer}
    (hvocab : t'.vocab = t.vocab)
    (hspecial : t'.specialTokenMap.entries.Perm t.specialTokenMap.entries) (text : Bytes) :
    t'.tokenize text = t.tokenize text := by
  have h' : Default t' := hspecial.trans h
  obtain ⟨ps, hps⟩ := Cut.exists_cut text
  rw [h.tokenize_cut hps, h'.tokenize_cut hps]
  refine List.map_congr_left fun p _ => ?_
  cases p with
  | byte c =>
      unfold pieceToken
      rw [hvocab]
  | marker m => rfl

theorem Default.tokenize_plain (h : Default t) {text : Bytes}
    (hplain : ∀ e ∈ t.specialTokenMap.entries, ¬ e.1 <:+: text) :
    t.tokenize text = t.tokenizeChunk text := by
  obtain ⟨ps, hps⟩ := Cut.exists_cut text
  obtain ⟨qs, rfl, hqs⟩ := hps.chunk (n := text.length) fun k _ m hm =>
    hplain _ (h.mem_special.mpr ⟨m, rfl⟩) (hm.isInfix.trans (List.drop_suffix k text).isInfix)
  rw [List.drop_length] at hqs
  rw [h.tokenize_cut hps, hqs.of_nil, List.append_nil, List.take_length, List.map_map]
  rfl

/-- A text that is empty or begins with a special token. -/
def Default.Segment (t : QwenBPETokenizer) (s : Bytes) : Prop :=
  s = [] ∨ ∃ e ∈ t.specialTokenMap.entries, e.1 <+: s

/-- What begins with a special token is cut off from what stands before it. -/
theorem Default.tokenize_append (h : Default t) (a : Bytes) {s : Bytes}
    (hs : Default.Segment t s) : t.tokenize (a ++ s) = t.tokenize a ++ t.tokenize s := by
  have hempty : t.tokenize [] = [] := rfl
  rcases hs with rfl | ⟨e, he, rest, rfl⟩
  · rw [hempty, List.append_nil, List.append_nil]
  · have hbegins := h.tokenize_seam [] rest he
    rw [List.nil_append, hempty, List.nil_append] at hbegins
    rw [← List.append_assoc, h.tokenize_seam a rest he, hbegins, List.append_assoc]

/-- Segments are tokenized one by one. -/
theorem Default.tokenize_flatten (h : Default t) {segments : List Bytes}
    (hsegments : ∀ s ∈ segments, Default.Segment t s) (a : Bytes) :
    t.tokenize (a ++ segments.flatten) = t.tokenize a ++ segments.flatMap t.tokenize := by
  induction segments generalizing a with
  | nil =>
      rw [List.flatten_nil, List.append_nil]
      exact (List.append_nil _).symm
  | cons s rest ih =>
      rw [List.flatten_cons, ← List.append_assoc,
        ih (fun s hs => hsegments s (List.mem_cons_of_mem _ hs)),
        h.tokenize_append a (hsegments s List.mem_cons_self), List.flatMap_cons,
        List.append_assoc]

end QwenBPETokenizer

/-! ## The segments of a prompt -/

namespace PromptBuilder

open QwenBPETokenizer

/-- The segments of a prompt: the default system message, the messages and the
assistant start, or the raw prompt. -/
def segments (c : PromptBuilderConfig) (messages : List ChatMessage)
    (addGenerationPrompt : Bool) : List Bytes :=
  let template := defaultSystem c messages :: messages.map formatMessage ++
    [generationPrompt addGenerationPrompt]
  match messages with
  | [] => template
  | first :: _ =>
      if c.allowRawPrompt && isAlreadyFormatted first.content then [first.content] else template

theorem buildFormattedPrompt_segments (c : PromptBuilderConfig) (messages : List ChatMessage)
    (addGenerationPrompt : Bool) :
    buildFormattedPrompt c messages addGenerationPrompt =
      (segments c messages addGenerationPrompt).flatten := by
  have htemplate : defaultSystem c messages ++ messages.flatMap formatMessage ++
      generationPrompt addGenerationPrompt =
        (defaultSystem c messages :: messages.map formatMessage ++
          [generationPrompt addGenerationPrompt]).flatten := by
    simp [List.flatMap_def]
  unfold buildFormattedPrompt segments
  dsimp only
  rw [htemplate]
  cases messages with
  | nil => rfl
  | cons first rest =>
      dsimp only
      split
      · simp
      · rfl

variable {t : QwenBPETokenizer}

/-- What begins with `<|im_start|>` is a segment. -/
theorem segment_imStart (h : Default t) (rest : Bytes) :
    Default.Segment t (literal "<|im_start|>" ++ rest) :=
  .inr ⟨_, h.mem_special.mpr ⟨.imStart, rfl⟩, rest, rfl⟩

theorem template_segment (h : Default t) (c : PromptBuilderConfig) (messages : List ChatMessage)
    (addGenerationPrompt : Bool) :
    ∀ s ∈ defaultSystem c messages :: messages.map formatMessage ++
      [generationPrompt addGenerationPrompt], Default.Segment t s := by
  intro s hs
  simp only [List.cons_append, List.mem_cons, List.mem_append, List.mem_map, List.not_mem_nil,
    or_false] at hs
  rcases hs with rfl | ⟨message, -, rfl⟩ | rfl
  · unfold defaultSystem
    dsimp only
    split
    · have hstart : literal "<|im_start|>system\n" =
          literal "<|im_start|>" ++ literal "system\n" := by decide
      rw [hstart, List.append_assoc, List.append_assoc]
      exact segment_imStart h _
    · exact .inl rfl
  · unfold formatMessage
    simp only [List.append_assoc]
    exact segment_imStart h _
  · cases addGenerationPrompt
    · exact .inl rfl
    · exact segment_imStart h (literal "assistant\n")

/-- **The prompt.**  Its tokens are those of its segments, one after another. -/
theorem build_segments (h : Default t) {c : PromptBuilderConfig} {messages : List ChatMessage}
    {addGenerationPrompt : Bool} {p : BuiltPrompt}
    (hbuild : (PromptBuilder.mk (some t) c).build messages addGenerationPrompt = .ok p) :
    p.tokenIds = (segments c messages addGenerationPrompt).flatMap t.tokenize := by
  have htokens : p.tokenIds = t.tokenize (segments c messages addGenerationPrompt).flatten := by
    rw [← buildFormattedPrompt_segments]
    unfold build encode at hbuild
    dsimp only at hbuild
    split at hbuild
    · cases hbuild
    split at hbuild
    · cases hbuild
    split at hbuild
    · cases hbuild
    · cases hbuild
      simp
  rw [htokens]
  have htemplate := h.tokenize_flatten (template_segment h c messages addGenerationPrompt) []
  unfold segments
  dsimp only
  cases messages with
  | nil => exact htemplate
  | cons first rest =>
      dsimp only
      split
      · simp
      · exact htemplate

end PromptBuilder

/-! ## Scanning -/

/-- **Special tokens are seams.**  With the default special tokens, any vocabulary
and any order of iteration, the loop ends, a special token separates what is
before it from what is after it, a text without special tokens has one token per
byte, and a prompt is tokenized segment by segment. -/
theorem QwenBPETokenizer.tokenize_scanning {t : QwenBPETokenizer} (h : Default t) :
    (∀ text : Bytes, text ≠ [] → (t.pass text).2.length < text.length ∧
      t.tokenize text = (t.pass text).1 ++ t.tokenize (t.pass text).2) ∧
    (∀ a b : Bytes, ∀ e ∈ t.specialTokenMap.entries,
      t.tokenize (a ++ e.1 ++ b) = t.tokenize a ++ [e.2] ++ t.tokenize b) ∧
    (∀ t' : QwenBPETokenizer, t'.vocab = t.vocab →
      t'.specialTokenMap.entries.Perm t.specialTokenMap.entries →
      ∀ text, t'.tokenize text = t.tokenize text) ∧
    (∀ text : Bytes, (∀ e ∈ t.specialTokenMap.entries, ¬ e.1 <:+: text) →
      t.tokenize text = t.tokenizeChunk text ∧ (t.tokenize text).length = text.length) ∧
    (∀ (c : PromptBuilderConfig) (messages : List ChatMessage) (addGenerationPrompt : Bool)
      (p : BuiltPrompt), (PromptBuilder.mk (some t) c).build messages addGenerationPrompt = .ok p →
      p.tokenIds =
        (PromptBuilder.segments c messages addGenerationPrompt).flatMap t.tokenize) := by
  refine ⟨fun text hne => h.tokenize_pass hne, fun a b e he => h.tokenize_seam a b he,
    fun t' hvocab hspecial => h.tokenize_order hvocab hspecial, ?_,
    fun c messages gen p hbuild => PromptBuilder.build_segments h hbuild⟩
  intro text hplain
  rw [h.tokenize_plain hplain]
  exact ⟨rfl, List.length_map _⟩

/-- Pieces of a marker stand on both sides of one. -/
theorem QwenBPETokenizer.tokenize_scanning_sample :
    builtinTokenizer.tokenize (literal "<|im_" ++ literal "<|im_end|>" ++ literal "end|>") =
      builtinTokenizer.tokenize (literal "<|im_") ++ [151645] ++
        builtinTokenizer.tokenize (literal "end|>") := by
  have hdefault : Default builtinTokenizer := List.Perm.refl _
  exact (tokenize_scanning hdefault).2.1 _ _ ⟨literal "<|im_end|>", 151645⟩
    (hdefault.mem_special.mpr ⟨.imEnd, rfl⟩)

end Qwen
