import Mathlib.Data.List.AList
import WinInference.Core.StopChecker

/-!
# The tokenizer

`QwenBPETokenizer` (`tokenizer/tokenizer.cpp`).  Text is cut at the special
tokens, and what lies between them is tokenized byte by byte: the merges are
loaded but never applied.  The vocabulary and merges files are read by the
environment.

An unordered map is an `AList`; the code iterates over it in the order of its
entries, which is unspecified.
-/

namespace Qwen

/-- The bytes of a string literal. -/
def literal (s : String) : Bytes := s.toUTF8.data.toList

/-- A token id, an `int32_t`. -/
abbrev TokenId := Int

/-- Special tokens for Qwen2.5. -/
structure SpecialTokens where
  padTokenId : TokenId := 151643
  eosTokenId : TokenId := 151645
  bosTokenId : TokenId := 151643
  imStartId : TokenId := 151644
  imEndId : TokenId := 151645
  padToken : Bytes := literal "<|endoftext|>"
  imStart : Bytes := literal "<|im_start|>"
  imEnd : Bytes := literal "<|im_end|>"

/-- Tokenizer configuration. -/
structure TokenizerConfig where
  vocabFile : String := ""
  mergesFile : String := ""
  specialTokens : SpecialTokens := {}
  addBos : Bool := false
  addEos : Bool := false

/-- The tokenizer: its settings, the vocabulary both ways, and the special tokens by their texts. -/
structure QwenBPETokenizer where
  config : TokenizerConfig := {}
  vocab : AList (fun _ : Bytes => TokenId) := ∅
  idToToken : AList (fun _ : TokenId => Bytes) := ∅
  specialTokenMap : AList (fun _ : Bytes => TokenId) := ∅
  initialized : Bool := false

/-- `text.find(pattern)`. -/
def findText (pattern : Bytes) : Bytes → Option Nat
  | [] => if pattern.isEmpty then some 0 else none
  | c :: rest =>
      if pattern.isPrefixOf (c :: rest) then some 0
      else (findText pattern rest).map (· + 1)

namespace QwenBPETokenizer

/-! ## Initialization -/

/-- `"Ġ" + std::string(1, static_cast<char>(i))`. -/
def byteToken (i : Nat) : Bytes := literal "Ġ" ++ [i.toUInt8]

/-- Minimal vocabulary for testing. -/
def setupMinimalVocab : AList (fun _ : Bytes => TokenId) :=
  let special : AList (fun _ : Bytes => TokenId) :=
    ((AList.insert (literal "<|endoftext|>") 151643 ∅).insert
      (literal "<|im_start|>") 151644).insert (literal "<|im_end|>") 151645
  (List.range 256).foldl (fun vocab i => vocab.insert (byteToken i) (i : TokenId)) special

/-- `readVocab` is what parsing the vocabulary file gives. -/
def loadVocab (readVocab : String → Result (AList (fun _ : Bytes => TokenId))) (path : String) :
    Result (AList (fun _ : Bytes => TokenId)) :=
  if path.isEmpty then .ok setupMinimalVocab else readVocab path

/-- `readMerges` is whether the merges file can be opened. -/
def loadMerges (readMerges : String → Result Unit) (path : String) : Result Unit :=
  if path.isEmpty then .ok () else readMerges path

/-- Build reverse vocabulary for decoding. -/
def reverseVocab (vocab : AList (fun _ : Bytes => TokenId)) : AList (fun _ : TokenId => Bytes) :=
  vocab.entries.foldl (fun tokens e => tokens.insert e.2 e.1) ∅

/-- Map special token strings. -/
def registerSpecialTokens (special : SpecialTokens) : AList (fun _ : Bytes => TokenId) :=
  ((AList.insert special.imStart special.imStartId ∅).insert
    special.imEnd special.imEndId).insert special.padToken special.padTokenId

/-- `initialize`: load the files that are configured and build the tables. -/
def initializeTokenizer (readVocab : String → Result (AList (fun _ : Bytes => TokenId)))
    (readMerges : String → Result Unit) (config : TokenizerConfig) :
    Result QwenBPETokenizer := do
  let vocab ← loadVocab readVocab config.vocabFile
  loadMerges readMerges config.mergesFile
  return { config := config, vocab := vocab, idToToken := reverseVocab vocab
           specialTokenMap := registerSpecialTokens config.specialTokens, initialized := true }

/-! ## Encoding -/

/-- Byte-level fallback tokenization. -/
def tokenizeChunk (t : QwenBPETokenizer) (text : Bytes) : List TokenId :=
  text.map fun c => (t.vocab.lookup [c]).getD c.toNat

/-- Where the next special token starts, or the end of the text. -/
def nextSpecial (special : List (Sigma fun _ : Bytes => TokenId)) (remaining : Bytes) : Nat :=
  special.foldl (fun stop e =>
    match findText e.1 remaining with
    | some pos => if pos < stop then pos else stop
    | none => stop) remaining.length

/-- The loop of `tokenize`, for at most `fuel` passes.  `remaining` is the text
from the current position on. -/
def tokenizeLoop (t : QwenBPETokenizer) : Nat → Bytes → List TokenId
  | 0, _ => []
  | fuel + 1, remaining =>
      if remaining.isEmpty then []
      else
        match t.specialTokenMap.entries.find? (fun e => e.1.isPrefixOf remaining) with
        | some e => e.2 :: t.tokenizeLoop fuel (remaining.drop e.1.length)
        | none =>
            let stop := nextSpecial t.specialTokenMap.entries remaining
            t.tokenizeChunk (remaining.take stop) ++ t.tokenizeLoop fuel (remaining.drop stop)

/-- A pass takes at least one byte, unless a special token is empty. -/
def tokenize (t : QwenBPETokenizer) (text : Bytes) : List TokenId :=
  t.tokenizeLoop text.length text

/-- `encode`: the tokens of a text, between the special ones that are configured. -/
def encode (t : QwenBPETokenizer) (text : Bytes) (addSpecialTokens : Bool) :
    Result (List TokenId) :=
  if !t.initialized then .error (.internal "Tokenizer not initialized")
  else
    .ok ((if addSpecialTokens && t.config.addBos then [t.config.specialTokens.bosTokenId] else []) ++
      t.tokenize text ++
      (if addSpecialTokens && t.config.addEos then [t.config.specialTokens.eosTokenId] else []))

/-! ## Decoding -/

/-- `decode_token`: the text of one token. -/
def decodeToken (t : QwenBPETokenizer) (token : TokenId) : Result Bytes :=
  match t.idToToken.lookup token with
  | none => .error (.invalidRequest ("Unknown token ID: " ++ toString token))
  | some text => .ok text

/-- The character constant `'Ġ'`.  Its character takes two bytes, so the
constant is an `int` of both of them, which no `char` is equal to. -/
def markerChar : Int := 0xC4A0

/-- Byte-level encoding cleanup. -/
def decodeBytes : Bytes → Bytes
  | [] => []
  | c :: rest =>
      if c.toInt8.toInt = markerChar ∧ rest ≠ [] then 0x20 :: decodeBytes rest
      else if c.toInt8.toInt ≠ markerChar then c :: decodeBytes rest
      else decodeBytes rest

/-- The text of a token, empty for an unknown one. -/
def decodeOrSkip (t : QwenBPETokenizer) (token : TokenId) : Bytes :=
  match t.decodeToken token with
  | .error _ => []
  | .ok text => text

/-- `decode`: the texts of the tokens in a row, without the unknown ones, cleaned up. -/
def decode (t : QwenBPETokenizer) (tokens : List TokenId) : Result Bytes :=
  if !t.initialized then .error (.internal "Tokenizer not initialized")
  else .ok (decodeBytes (tokens.flatMap t.decodeOrSkip))

/-- What the scheduler uses of the tokenizer. -/
def toTokenizer (t : QwenBPETokenizer) : Tokenizer where
  decodeToken := t.decodeToken
  eosTokenId := t.config.specialTokens.eosTokenId
  imEndId := t.config.specialTokens.imEndId

theorem toTokenizer_tokenText (t : QwenBPETokenizer) (token : TokenId) :
    t.toTokenizer.tokenText token = t.decodeOrSkip token := by
  unfold Tokenizer.tokenText decodeOrSkip toTokenizer
  dsimp only
  cases t.decodeToken token <;> rfl

end QwenBPETokenizer

end Qwen
