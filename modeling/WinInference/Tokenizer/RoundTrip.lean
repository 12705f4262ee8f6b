import WinInference.Maps.Collect
import WinInference.Tokenizer.Tokenizer

/-!
# Encoding and decoding with the built-in vocabulary

The vocabulary knows every byte under the prefix marker, so the lookup of a
single byte finds nothing and its token is its value.  Hence `encode` cuts a text
into pieces, the special tokens and the bytes between them, and no two
texts have the same tokens.  `decode` writes the marker in front of each byte,
and the cleanup after it compares `char`s with a constant that no `char` is
equal to: so it undoes `encode` on texts that are made of special tokens alone.
-/

namespace Qwen

/-- The special tokens of the built-in vocabulary. -/
inductive Marker where
  | endOfText
  | imStart
  | imEnd
deriving DecidableEq

namespace Marker

/-- The text of a special token. -/
def text : Marker → Bytes
  | endOfText => literal "<|endoftext|>"
  | imStart => literal "<|im_start|>"
  | imEnd => literal "<|im_end|>"

/-- The id of a special token. -/
def token : Marker → Int
  | endOfText => 151643
  | imStart => 151644
  | imEnd => 151645

/-- No special token has an empty text. -/
theorem text_ne_nil (m : Marker) : m.text ≠ [] := by
  cases m <;> decide

/-- The special tokens have distinct ids. -/
theorem token_injective : Function.Injective token := by
  intro m m' h
  revert h
  cases m <;> cases m' <;> decide

/-- No marker begins another. -/
theorem text_prefix {m m' : Marker} (h : m.text <+: m'.text) : m = m' := by
  revert h
  cases m <;> cases m' <;> decide

/-- The id of a byte is below those of the special tokens. -/
theorem byte_lt_token (m : Marker) (c : UInt8) : (c.toNat : Int) < m.token := by
  have hc : c.toNat < 256 := c.toNat_lt
  cases m <;> (simp only [token]; omega)

end Marker

/-- What a text is cut into. -/
inductive Piece where
  | byte (c : UInt8)
  | marker (m : Marker)

namespace Piece

/-- The text a piece is encoded from. -/
def text : Piece → Bytes
  | byte c => [c]
  | marker m => m.text

/-- The id a piece is encoded as. -/
def token : Piece → Int
  | byte c => c.toNat
  | marker m => m.token

/-- What `decode` writes for a piece. -/
def shown : Piece → Bytes
  | byte c => QwenBPETokenizer.byteToken c.toNat
  | marker m => m.text

/-- Different pieces have different tokens. -/
theorem token_injective : Function.Injective token := by
  intro p p' h
  cases p with
  | byte c =>
      cases p' with
      | byte c' =>
          have hnat : c.toNat = c'.toNat := Int.ofNat_inj.mp h
          rw [UInt8.toNat_inj.mp hnat]
      | marker m => exact absurd h (m.byte_lt_token c).ne
  | marker m =>
      cases p' with
      | byte c => exact absurd h.symm (m.byte_lt_token c).ne
      | marker m' => rw [Marker.token_injective h]

end Piece

namespace QwenBPETokenizer

/-- The tokenizer that `main` initializes. -/
def builtinTokenizer : QwenBPETokenizer where
  vocab := setupMinimalVocab
  idToToken := reverseVocab setupMinimalVocab
  specialTokenMap := registerSpecialTokens {}
  initialized := true

/-- With no files configured, loading succeeds and gives the built-in tokenizer. -/
theorem builtinTokenizer_ok (readVocab : String → Result (AList (fun _ : Bytes => TokenId)))
    (readMerges : String → Result Unit) :
    initializeTokenizer readVocab readMerges {} = .ok builtinTokenizer := rfl

/-- The vocabulary of the built-in tokenizer. -/
theorem builtinTokenizer_vocab : builtinTokenizer.vocab = setupMinimalVocab := by
  simp only [builtinTokenizer]

/-- The reverse table of the built-in tokenizer. -/
theorem builtinTokenizer_idToToken :
    builtinTokenizer.idToToken = reverseVocab setupMinimalVocab := by
  simp only [builtinTokenizer]

/-- The same tokenizer, up to the order in which its maps iterate. -/
structure Reordered (t₀ t : QwenBPETokenizer) : Prop where
  config_eq : t.config = t₀.config
  initialized_eq : t.initialized = t₀.initialized
  vocab : t.vocab.entries.Perm t₀.vocab.entries
  idToToken : t.idToToken.entries.Perm t₀.idToToken.entries
  special : t.specialTokenMap.entries.Perm t₀.specialTokenMap.entries

/-! ## The built-in vocabulary -/

/-- The byte tokens are distinct texts. -/
theorem byteToken_injective {i j : Nat} (hi : i < 256) (hj : j < 256)
    (h : byteToken i = byteToken j) : i = j := by
  have hbyte : i.toUInt8 = j.toUInt8 := by
    have hlast := List.append_cancel_left h
    exact List.singleton_injective hlast
  have hnat : i % 256 = j % 256 := congrArg UInt8.toNat hbyte
  omega

/-- No byte token is a special token's text. -/
theorem byteToken_ne_marker (i : Nat) (m : Marker) : byteToken i ≠ m.text := by
  intro h
  have hlength : (byteToken i).length = m.text.length := congrArg List.length h
  have hthree : (byteToken i).length = 3 := rfl
  revert hlength
  rw [hthree]
  cases m <;> decide

/-- The special part of the vocabulary holds the three special tokens and nothing else. -/
theorem specialVocab_lookup {k : Bytes} {id : Int} :
    (((AList.insert (literal "<|endoftext|>") (151643 : TokenId) ∅).insert
        (literal "<|im_start|>") 151644).insert (literal "<|im_end|>") 151645 :
      AList (fun _ : Bytes => TokenId)).lookup k = some id ↔
        ∃ m : Marker, k = m.text ∧ id = m.token := by
  constructor
  · intro h
    by_cases hend : k = literal "<|im_end|>"
    · rw [hend, AList.lookup_insert] at h
      exact ⟨.imEnd, hend, (Option.some.inj h).symm⟩
    rw [AList.lookup_insert_ne hend] at h
    by_cases hstart : k = literal "<|im_start|>"
    · rw [hstart, AList.lookup_insert] at h
      exact ⟨.imStart, hstart, (Option.some.inj h).symm⟩
    rw [AList.lookup_insert_ne hstart] at h
    by_cases htext : k = literal "<|endoftext|>"
    · rw [htext, AList.lookup_insert] at h
      exact ⟨.endOfText, htext, (Option.some.inj h).symm⟩
    rw [AList.lookup_insert_ne htext] at h
    cases h
  · rintro ⟨m, rfl, rfl⟩
    cases m <;> decide

/-- The vocabulary holds one token for each byte and the special tokens. -/
theorem setupMinimalVocab_lookup {k : Bytes} {id : Int} :
    setupMinimalVocab.lookup k = some id ↔
      (∃ i < 256, k = byteToken i ∧ id = i) ∨ ∃ m : Marker, k = m.text ∧ id = m.token := by
  unfold setupMinimalVocab
  dsimp only
  by_cases hbyte : ∃ i < 256, k = byteToken i
  · obtain ⟨i, hi, rfl⟩ := hbyte
    rw [AList.lookup_foldl_insert_of_mem ⟨i, List.mem_range.mpr hi, rfl⟩ fun j hj hkey => by
      rw [byteToken_injective (List.mem_range.mp hj) hi hkey]]
    constructor
    · intro h
      exact Or.inl ⟨i, hi, rfl, (Option.some.inj h).symm⟩
    · rintro (⟨j, hj, hkey, rfl⟩ | ⟨m, hkey, -⟩)
      · rw [byteToken_injective hi hj hkey]
      · exact absurd hkey (byteToken_ne_marker i m)
  · have hothers : ∀ i ∈ List.range 256, byteToken i ≠ k := fun i hi h =>
      hbyte ⟨i, List.mem_range.mp hi, h.symm⟩
    rw [AList.lookup_foldl_insert_of_ne hothers, specialVocab_lookup]
    constructor
    · exact Or.inr
    · rintro (⟨i, hi, hkey, -⟩ | h)
      · exact absurd ⟨i, hi, hkey⟩ hbyte
      · exact h

/-- Single bytes are not in the vocabulary. -/
theorem setupMinimalVocab_byte (c : UInt8) : setupMinimalVocab.lookup [c] = none := by
  cases h : setupMinimalVocab.lookup [c] with
  | none => rfl
  | some id =>
      exfalso
      rcases setupMinimalVocab_lookup.mp h with ⟨i, -, hkey, -⟩ | ⟨m, hkey, -⟩
      · have hlength : 1 = 3 := congrArg List.length hkey
        omega
      · have hlength : 1 = m.text.length := congrArg List.length hkey
        revert hlength
        cases m <;> decide

/-- Decoding finds what a piece is shown as. -/
theorem reverseVocab_lookup (p : Piece) :
    (reverseVocab setupMinimalVocab).lookup p.token = some p.shown := by
  unfold reverseVocab
  have hspec : ∀ e : Sigma (fun _ : Bytes => TokenId), e ∈ setupMinimalVocab.entries ↔
      (∃ i < 256, e.1 = byteToken i ∧ e.2 = (i : Int)) ∨
        ∃ m : Marker, e.1 = m.text ∧ e.2 = m.token :=
    fun e => AList.mem_lookup_iff.symm.trans setupMinimalVocab_lookup
  refine AList.lookup_foldl_insert_of_mem ?_ ?_ _
  · refine ⟨⟨p.shown, p.token⟩, (hspec _).mpr ?_, rfl⟩
    cases p with
    | byte c => exact Or.inl ⟨c.toNat, c.toNat_lt, rfl, rfl⟩
    | marker m => exact Or.inr ⟨m, rfl, rfl⟩
  · intro e he htoken
    cases p with
    | byte c =>
        rcases (hspec e).mp he with ⟨i, -, hkey, hid⟩ | ⟨m, -, hid⟩
        · have hi : (i : Int) = c.toNat := hid.symm.trans htoken
          rw [hkey, Int.ofNat_inj.mp hi]
          rfl
        · exact absurd (htoken.symm.trans hid) (m.byte_lt_token c).ne
    | marker m =>
        rcases (hspec e).mp he with ⟨i, hi, -, hid⟩ | ⟨m', hkey, hid⟩
        · have hlt := m.byte_lt_token i.toUInt8
          have htoNat : i.toUInt8.toNat = i := Nat.mod_eq_of_lt hi
          rw [htoNat] at hlt
          exact absurd (hid.symm.trans htoken) hlt.ne
        · rw [hkey, Marker.token_injective (hid.symm.trans htoken)]
          rfl

/-! ## Tokenizing -/

section Builtin

variable {t : QwenBPETokenizer}

/-- The bare byte is not in the vocabulary, whatever the order of the map. -/
theorem Reordered.vocab_byte (h : Reordered builtinTokenizer t) (c : UInt8) :
    t.vocab.lookup [c] = none := by
  rw [AList.perm_lookup h.vocab, builtinTokenizer_vocab, setupMinimalVocab_byte]

/-- A piece is decoded to the text it is shown as. -/
theorem Reordered.decode_piece (h : Reordered builtinTokenizer t) (p : Piece) :
    t.decodeOrSkip p.token = p.shown := by
  unfold decodeOrSkip decodeToken
  rw [AList.perm_lookup h.idToToken, builtinTokenizer_idToToken, reverseVocab_lookup]

/-- The special tokens that `tokenize` looks for. -/
theorem Reordered.mem_special (h : Reordered builtinTokenizer t)
    {e : Sigma fun _ : Bytes => TokenId} :
    e ∈ t.specialTokenMap.entries ↔ ∃ m : Marker, e = ⟨m.text, m.token⟩ := by
  have hentries : builtinTokenizer.specialTokenMap.entries =
      [⟨Marker.endOfText.text, Marker.endOfText.token⟩, ⟨Marker.imEnd.text, Marker.imEnd.token⟩,
        ⟨Marker.imStart.text, Marker.imStart.token⟩] := rfl
  rw [h.special.mem_iff, hentries]
  constructor
  · intro he
    simp only [List.mem_cons, List.not_mem_nil, or_false] at he
    rcases he with rfl | rfl | rfl
    · exact ⟨.endOfText, rfl⟩
    · exact ⟨.imEnd, rfl⟩
    · exact ⟨.imStart, rfl⟩
  · rintro ⟨m, rfl⟩
    cases m <;> simp

/-- A pattern found at position zero is a prefix. -/
theorem findText_zero {pattern text : Bytes} (h : findText pattern text = some 0) :
    pattern <+: text := by
  cases text with
  | nil =>
      unfold findText at h
      by_cases hempty : pattern.isEmpty
      · obtain rfl := List.isEmpty_iff.mp hempty
        exact List.nil_prefix
      · rw [if_neg hempty] at h
        cases h
  | cons c rest =>
      unfold findText at h
      by_cases hprefix : pattern.isPrefixOf (c :: rest)
      · exact List.isPrefixOf_iff_prefix.mp hprefix
      · rw [if_neg hprefix] at h
        obtain ⟨pos, -, hpos⟩ := Option.map_eq_some_iff.mp h
        omega

/-- A chunk takes at least one byte. -/
theorem nextSpecial_pos {special : List (Sigma fun _ : Bytes => TokenId)} {remaining : Bytes}
    (hne : remaining ≠ []) (hnone : ∀ e ∈ special, ¬ e.1 <+: remaining) :
    0 < nextSpecial special remaining := by
  unfold nextSpecial
  refine List.foldlRecOn (motive := fun stop => 0 < stop) special _
    (List.length_pos_iff.mpr hne) ?_
  intro stop hstop e he
  cases hfind : findText e.1 remaining with
  | none => exact hstop
  | some pos =>
      have hpos : pos ≠ 0 := by
        rintro rfl
        exact hnone e he (findText_zero hfind)
      dsimp only
      split <;> omega

/-- **The pieces.**  Enough passes of the loop cut the whole text into pieces. -/
theorem Reordered.loop_pieces (h : Reordered builtinTokenizer t) {fuel : Nat} {remaining : Bytes}
    (hfuel : remaining.length ≤ fuel) :
    ∃ ps : List Piece, t.tokenizeLoop fuel remaining = ps.map Piece.token ∧
      ps.flatMap Piece.text = remaining := by
  induction fuel generalizing remaining with
  | zero =>
      obtain rfl := List.eq_nil_of_length_eq_zero (Nat.le_zero.mp hfuel)
      exact ⟨[], rfl, rfl⟩
  | succ fuel ih =>
      unfold tokenizeLoop
      by_cases hempty : remaining = []
      · subst hempty
        exact ⟨[], rfl, rfl⟩
      rw [if_neg (by simpa using hempty)]
      cases hfind : t.specialTokenMap.entries.find? (fun e => e.1.isPrefixOf remaining) with
      | some e =>
          obtain ⟨m, rfl⟩ := h.mem_special.mp (List.mem_of_find?_eq_some hfind)
          have hfound : m.text.isPrefixOf remaining = true := by simpa using List.find?_some hfind
          have hprefix : m.text <+: remaining := List.isPrefixOf_iff_prefix.mp hfound
          obtain ⟨rest, rfl⟩ := hprefix
          have hpos := List.length_pos_iff.mpr m.text_ne_nil
          dsimp only
          rw [List.drop_left]
          rw [List.length_append] at hfuel
          have hrest : rest.length ≤ fuel := by omega
          obtain ⟨ps, htokens, htext⟩ := ih hrest
          refine ⟨.marker m :: ps, ?_, ?_⟩
          · rw [htokens]
            rfl
          · rw [List.flatMap_cons, htext]
            rfl
      | none =>
          have hnone : ∀ e ∈ t.specialTokenMap.entries, ¬ e.1 <+: remaining := by
            intro e he hprefix
            have hno := List.find?_eq_none.mp hfind e he
            exact hno (List.isPrefixOf_iff_prefix.mpr hprefix)
          have hpos := nextSpecial_pos hempty hnone
          dsimp only
          generalize nextSpecial t.specialTokenMap.entries remaining = stop at hpos
          have hshorter : (remaining.drop stop).length ≤ fuel := by
            rw [List.length_drop]
            have := List.length_pos_iff.mpr hempty
            omega
          obtain ⟨ps, htokens, htext⟩ := ih hshorter
          have hchunk : t.tokenizeChunk (remaining.take stop) =
              ((remaining.take stop).map Piece.byte).map Piece.token := by
            unfold tokenizeChunk
            rw [List.map_map]
            refine List.map_congr_left fun c _ => ?_
            rw [h.vocab_byte]
            rfl
          refine ⟨(remaining.take stop).map Piece.byte ++ ps, ?_, ?_⟩
          · rw [hchunk, htokens, List.map_append]
          · have hbytes : ∀ text : Bytes, (text.map Piece.byte).flatMap Piece.text = text := by
              intro text
              induction text with
              | nil => rfl
              | cons c rest ihtext =>
                  rw [List.map_cons, List.flatMap_cons, ihtext]
                  rfl
            rw [List.flatMap_append, hbytes, htext, List.take_append_drop]

/-- Every text is encoded into pieces that spell it. -/
theorem Reordered.encode_pieces (h : Reordered builtinTokenizer t) (text : Bytes) :
    ∃ ps : List Piece, t.encode text false = .ok (ps.map Piece.token) ∧
      ps.flatMap Piece.text = text := by
  obtain ⟨ps, htokens, htext⟩ := h.loop_pieces (Nat.le_refl text.length)
  refine ⟨ps, ?_, htext⟩
  have hinit : t.initialized = true := h.initialized_eq
  unfold encode tokenize
  rw [hinit, htokens]
  simp

/-- **Encoding is injective.** -/
theorem Reordered.encode_injective (h : Reordered builtinTokenizer t) {text text' : Bytes}
    (heq : t.encode text false = t.encode text' false) : text = text' := by
  obtain ⟨ps, hps, rfl⟩ := h.encode_pieces text
  obtain ⟨ps', hps', rfl⟩ := h.encode_pieces text'
  rw [hps, hps'] at heq
  rw [List.map_injective_iff.mpr Piece.token_injective (Except.ok.inj heq)]

/-! ## Decoding -/

/-- No `char` is the marker, so the cleanup keeps everything. -/
theorem decodeBytes_eq (text : Bytes) : decodeBytes text = text := by
  induction text with
  | nil => rfl
  | cons c rest ih =>
      have hchar : c.toInt8.toInt ≠ markerChar := by
        have hlt := Int8.toInt_lt c.toInt8
        have hmarker : markerChar = 50336 := rfl
        omega
      unfold decodeBytes
      rw [if_neg fun h => hchar h.1, if_pos hchar, ih]

/-- A list of pieces is decoded piece by piece. -/
theorem Reordered.decode_pieces (h : Reordered builtinTokenizer t) (ps : List Piece) :
    t.decode (ps.map Piece.token) = .ok (ps.flatMap Piece.shown) := by
  have hinit : t.initialized = true := h.initialized_eq
  have hshown : (ps.map Piece.token).flatMap t.decodeOrSkip = ps.flatMap Piece.shown := by
    rw [List.flatMap_map]
    exact List.flatMap_congr fun p _ => h.decode_piece p
  unfold decode
  rw [hinit, hshown, decodeBytes_eq]
  rfl

/-- What is shown is longer than the text by two bytes for each byte outside the
markers. -/
theorem shown_length (ps : List Piece) :
    (ps.flatMap Piece.text).length ≤ (ps.flatMap Piece.shown).length ∧
      ((ps.flatMap Piece.shown).length = (ps.flatMap Piece.text).length →
        ∃ ms : List Marker, ps = ms.map Piece.marker) := by
  induction ps with
  | nil => exact ⟨Nat.le_refl _, fun _ => ⟨[], rfl⟩⟩
  | cons p rest ih =>
      obtain ⟨hle, hmarkers⟩ := ih
      simp only [List.flatMap_cons, List.length_append]
      cases p with
      | byte c =>
          have htext : (Piece.byte c).text.length = 1 := rfl
          have hshown : (Piece.byte c).shown.length = 3 := rfl
          rw [htext, hshown]
          exact ⟨by omega, fun heq => by omega⟩
      | marker m =>
          have hsame : (Piece.marker m).shown.length = (Piece.marker m).text.length := rfl
          rw [hsame]
          refine ⟨by omega, fun heq => ?_⟩
          obtain ⟨ms, rfl⟩ := hmarkers (by omega)
          exact ⟨m :: ms, rfl⟩

/-- A text made of markers is cut into these. -/
theorem Reordered.loop_markers (h : Reordered builtinTokenizer t) (ms : List Marker) {fuel : Nat}
    (hfuel : (ms.flatMap Marker.text).length ≤ fuel) :
    t.tokenizeLoop fuel (ms.flatMap Marker.text) = ms.map Marker.token := by
  induction ms generalizing fuel with
  | nil => cases fuel <;> rfl
  | cons m rest ih =>
      have hpos := List.length_pos_iff.mpr m.text_ne_nil
      rw [List.flatMap_cons, List.length_append] at hfuel
      obtain ⟨fuel, rfl⟩ : ∃ k, fuel = k + 1 := ⟨fuel - 1, by omega⟩
      unfold tokenizeLoop
      rw [List.flatMap_cons]
      have hne : ¬ (m.text ++ rest.flatMap Marker.text).isEmpty = true := by
        simp [m.text_ne_nil]
      rw [if_neg hne]
      cases hfind : t.specialTokenMap.entries.find?
          (fun e => e.1.isPrefixOf (m.text ++ rest.flatMap Marker.text)) with
      | some e =>
          obtain ⟨m', rfl⟩ := h.mem_special.mp (List.mem_of_find?_eq_some hfind)
          have hfound : m'.text.isPrefixOf (m.text ++ rest.flatMap Marker.text) = true := by
            simpa using List.find?_some hfind
          -- both markers begin the text, so one begins the other
          have hsame : m' = m := by
            rcases List.prefix_or_prefix_of_prefix (List.isPrefixOf_iff_prefix.mp hfound)
              (List.prefix_append _ _) with hprefix | hprefix
            · exact Marker.text_prefix hprefix
            · exact (Marker.text_prefix hprefix).symm
          subst hsame
          dsimp only
          rw [List.drop_left, ih (by omega), List.map_cons]
      | none =>
          have hno := List.find?_eq_none.mp hfind _ (h.mem_special.mpr ⟨m, rfl⟩)
          exact absurd (List.isPrefixOf_iff_prefix.mpr (List.prefix_append _ _)) hno

end Builtin

/-- **The round trip.**  With the built-in vocabulary, `decode` gives back what
`encode` was given if and only if that is made of special tokens alone. -/
theorem decode_encode_iff {t : QwenBPETokenizer} (h : Reordered builtinTokenizer t)
    (text : Bytes) :
    (t.encode text false >>= t.decode) = .ok text ↔
      ∃ ms : List Marker, text = ms.flatMap Marker.text := by
  constructor
  · intro hround
    obtain ⟨ps, hencode, rfl⟩ := h.encode_pieces text
    rw [hencode] at hround
    have hshown : ps.flatMap Piece.shown = ps.flatMap Piece.text :=
      Except.ok.inj ((h.decode_pieces ps).symm.trans hround)
    obtain ⟨ms, rfl⟩ := (shown_length ps).2 (congrArg List.length hshown)
    refine ⟨ms, ?_⟩
    rw [List.flatMap_map]
    rfl
  · rintro ⟨ms, rfl⟩
    have hinit : t.initialized = true := h.initialized_eq
    have hencode : t.encode (ms.flatMap Marker.text) false =
        .ok ((ms.map Piece.marker).map Piece.token) := by
      unfold encode tokenize
      rw [hinit, h.loop_markers ms (Nat.le_refl _), List.map_map]
      simp only [Bool.false_and, Bool.not_true, Bool.false_eq_true, if_false, List.nil_append,
        List.append_nil]
      rfl
    rw [hencode]
    refine (h.decode_pieces _).trans ?_
    rw [List.flatMap_map]
    rfl

/-- A tokenizer is a reordering of itself. -/
theorem Reordered.refl (t : QwenBPETokenizer) : Reordered t t :=
  ⟨rfl, rfl, List.Perm.refl _, List.Perm.refl _, List.Perm.refl _⟩

/-- Two special tokens, there and back. -/
theorem decode_encode_iff_sample :
    (builtinTokenizer.encode (literal "<|im_start|><|im_end|>") false >>=
        builtinTokenizer.decode) = .ok (literal "<|im_start|><|im_end|>") ↔
      ∃ ms : List Marker, literal "<|im_start|><|im_end|>" = ms.flatMap Marker.text :=
  decode_encode_iff (Reordered.refl builtinTokenizer) _

/-- A single byte is cut in one way. -/
theorem pieces_of_byte {ps : List Piece} {c : UInt8} (h : ps.flatMap Piece.text = [c]) :
    ps = [.byte c] := by
  have hpos : ∀ p : Piece, 0 < p.text.length := by
    intro p
    cases p with
    | byte c => exact Nat.one_pos
    | marker m => exact List.length_pos_iff.mpr m.text_ne_nil
  cases ps with
  | nil => cases h
  | cons p rest =>
      have hlength := congrArg List.length h
      rw [List.flatMap_cons, List.length_append, List.length_singleton] at hlength
      have hp := hpos p
      obtain rfl : rest = [] := by
        cases rest with
        | nil => rfl
        | cons q rest =>
            have hq := hpos q
            rw [List.flatMap_cons, List.length_append] at hlength
            omega
      rw [List.flatMap_cons, List.flatMap_nil, List.append_nil] at h
      cases p with
      | byte c' =>
          cases h
          rfl
      | marker m =>
          have hone : m.text.length ≠ 1 := by cases m <;> decide
          exact absurd (congrArg List.length h) hone

/-- A single letter comes back with the prefix marker in front of it. -/
theorem letter_comes_back_marked :
    (builtinTokenizer.encode (literal "H") false >>= builtinTokenizer.decode) =
        .ok (literal "ĠH") ∧
      ¬ (builtinTokenizer.encode (literal "H") false >>= builtinTokenizer.decode) =
        .ok (literal "H") := by
  have h := Reordered.refl builtinTokenizer
  have hround : (builtinTokenizer.encode (literal "H") false >>= builtinTokenizer.decode) =
      .ok (literal "ĠH") := by
    obtain ⟨ps, hencode, htext⟩ := h.encode_pieces (literal "H")
    obtain rfl := pieces_of_byte (c := 0x48) (htext.trans (by decide))
    rw [hencode]
    refine (h.decode_pieces _).trans (congrArg Except.ok ?_)
    decide
  refine ⟨hround, fun hsame => ?_⟩
  have hsame := hround.symm.trans hsame
  have hne : literal "ĠH" ≠ literal "H" := by decide
  exact hne (Except.ok.inj hsame)

end QwenBPETokenizer

end Qwen
