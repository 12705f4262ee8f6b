import WinInference.Api.Types

/-!
# The number of tokens asked for

`max_tokens` is converted to an `int32_t` when a body is read, and its range is
checked after that.  A double is an exact number, which a conversion truncates; a
number that does not fit into the type afterwards is converted to anything.

`getInt32_of_number` says what the conversion makes of a number,
`validate_maxTokens_iff` which converted numbers pass, and `accept_eq_some` when
a body is accepted as a whole.  A number outside of the range is accepted
exactly when it comes out inside of it.
-/

namespace Qwen

open Json RequestValidator

namespace Wire

/-! ## Reading and checking a body -/

/-- A number without its fraction. -/
def truncateRat (x : Rat) : Int := if 0 ≤ x then x.floor else x.ceil

/-- The conversions of doubles; `outside` are those that are not defined. -/
def rationalConversions (outside32 : Rat → Int32) (outside64 : Rat → Int64) : Conversions Rat where
  ofInt n := n
  toInt32 x :=
    if -2 ^ 31 ≤ truncateRat x ∧ truncateRat x < 2 ^ 31 then Int32.ofInt (truncateRat x)
    else outside32 x
  toInt64 x :=
    if -2 ^ 63 ≤ truncateRat x ∧ truncateRat x < 2 ^ 63 then Int64.ofInt (truncateRat x)
    else outside64 x

/-- The text of a byte string; a body that is parsed has no other strings. -/
def text (s : Bytes) : String := (String.fromUTF8? ⟨s.toArray⟩).getD ""

/-- The fields of a message that are validated. -/
def Message.checked {D : Type} (m : Message D) : Qwen.Message :=
  { role := m.role, content := text m.content, toolCallId := m.toolCallId.map text }

/-- The fields that are validated. -/
def ChatCompletionRequest.checked (r : ChatCompletionRequest Rat) : Qwen.ChatCompletionRequest :=
  { model := text r.model, messages := r.messages.map Message.checked
    temperature := r.temperature, topP := r.topP, maxTokens := r.maxTokens.map Int32.toInt
    stop := r.stop, seed := r.seed.map Int64.toInt }

/-- Read a body and validate what is read: the request, if there is no complaint. -/
def accept (c : Conversions Rat) (v : ValidationConfig) (j : Value Rat)
    (r₀ : ChatCompletionRequest Rat) : Option (ChatCompletionRequest Rat) :=
  match ChatCompletionRequest.fromJson c j r₀ with
  | .error _ => none
  | .ok r =>
      match validate v r.checked with
      | .error _ => none
      | .ok () => some r

/-- The number that is written. -/
def number : Value Rat → Option Rat
  | .numberInteger n => some n.toInt
  | .numberUnsigned n => some n.toNat
  | .numberFloat x => some x
  | _ => none

/-- An integer that may be asked for. -/
def InRange (v : ValidationConfig) (x : Rat) : Prop :=
  ∃ n : Int, x = n ∧ 1 ≤ n ∧ n ≤ v.maxCompletionTokens

variable {c : Conversions Rat} {v : ValidationConfig} {j value : Value Rat}
  {r r₀ : ChatCompletionRequest Rat}

/-- With the number of tokens in a body, nothing else is read in another way. -/
theorem fromJson_maxTokens {n : Int32} (hfind : j.find (literal "max_tokens") = some value)
    (hn : value.getInt32 c = .ok n)
    (h : ChatCompletionRequest.fromJson c (j.without (literal "max_tokens")) r₀ = .ok r) :
    ChatCompletionRequest.fromJson c j r₀ = .ok { r with maxTokens := some n } := by
  have hmaxTokens : j.getIf (Value.getInt32 c) (literal "max_tokens") = .ok (some n) := by
    unfold Value.getIf
    rw [hfind]
    exact congrArg (Except.map some) hn
  have hstop : getStop (j.without (literal "max_tokens")) r₀.stop = getStop j r₀.stop := by
    unfold getStop
    rw [Value.find_without_ne j (by decide)]
  have htools : getTools (j.without (literal "max_tokens")) r₀.tools = getTools j r₀.tools := by
    unfold getTools
    rw [Value.find_without_ne j (by decide)]
  unfold ChatCompletionRequest.fromJson at h ⊢
  simp (disch := decide) only [Value.at_without_ne, Value.getIf_without_ne,
    Value.valueOr_without_ne, Value.getIf_without_self, hstop, htools] at h
  rw [hmaxTokens]
  -- every other step of the reading goes through as it did
  obtain ⟨_, hmodel, h⟩ := Except.bind_eq_ok h
  obtain ⟨_, hmodelString, h⟩ := Except.bind_eq_ok h
  obtain ⟨_, hmessages, h⟩ := Except.bind_eq_ok h
  obtain ⟨_, heach, h⟩ := Except.bind_eq_ok h
  obtain ⟨_, htemperature, h⟩ := Except.bind_eq_ok h
  obtain ⟨_, htopP, h⟩ := Except.bind_eq_ok h
  obtain ⟨_, hnone, h⟩ := Except.bind_eq_ok h
  obtain ⟨_, hgetStop, h⟩ := Except.bind_eq_ok h
  obtain ⟨_, hstream, h⟩ := Except.bind_eq_ok h
  obtain ⟨_, hseed, h⟩ := Except.bind_eq_ok h
  obtain ⟨_, hgetTools, h⟩ := Except.bind_eq_ok h
  obtain ⟨_, hpresence, h⟩ := Except.bind_eq_ok h
  obtain ⟨_, hfrequency, h⟩ := Except.bind_eq_ok h
  obtain ⟨_, huser, h⟩ := Except.bind_eq_ok h
  cases h
  simp only [bind, Except.bind, hmodel, hmodelString, hmessages, heach, htemperature, htopP,
    hgetStop, hstream, hseed, hgetTools, hpresence, hfrequency, huser]
  rfl

theorem checked_maxTokens (r : ChatCompletionRequest Rat) (n : Int32) :
    ({ r with maxTokens := some n } : ChatCompletionRequest Rat).checked =
      { r.checked with maxTokens := some n.toInt } := rfl

/-- The number of tokens is validated apart from everything else. -/
theorem validate_maxTokens_iff (h : validate v r.checked = .ok ()) (n : Int32) :
    validate v ({ r with maxTokens := some n } : ChatCompletionRequest Rat).checked = .ok () ↔
      1 ≤ n.toInt ∧ n.toInt ≤ v.maxCompletionTokens := by
  rw [checked_maxTokens]
  obtain ⟨hmodel, hmessages, htemperature, htopP, -, hstop⟩ := validate_ok h
  constructor
  · intro hvalid
    obtain ⟨-, -, -, -, hmaxTokens, -⟩ := validate_ok hvalid
    exact validateMaxTokens_ok.mp hmaxTokens
  · intro hrange
    have hmaxTokens : validateIf (validateMaxTokens v) (some n.toInt) = .ok () :=
      validateMaxTokens_ok.mpr hrange
    unfold validate
    dsimp only
    rw [hmodel, hmessages, htemperature, htopP, hmaxTokens, hstop]
    rfl

theorem accept_eq_some {r' : ChatCompletionRequest Rat} :
    accept c v j r₀ = some r' ↔
      ChatCompletionRequest.fromJson c j r₀ = .ok r' ∧ validate v r'.checked = .ok () := by
  unfold accept
  cases hread : ChatCompletionRequest.fromJson c j r₀ with
  | error e => simp
  | ok r =>
      dsimp only
      cases hvalid : validate v r.checked with
      | error e =>
          constructor
          · exact fun h => absurd h nofun
          · rintro ⟨hsame, hvalid'⟩
            cases hsame
            rw [hvalid] at hvalid'
            cases hvalid'
      | ok u =>
          constructor
          · intro h
            cases h
            exact ⟨rfl, hvalid⟩
          · rintro ⟨hsame, -⟩
            cases hsame
            rfl

/-- A body that is valid but for the number of tokens is accepted with it if the
number it is converted to is in the range. -/
theorem accept_maxTokens {n : Int32} (hfind : j.find (literal "max_tokens") = some value)
    (hn : value.getInt32 c = .ok n)
    (h : accept c v (j.without (literal "max_tokens")) r₀ = some r)
    (r' : ChatCompletionRequest Rat) :
    accept c v j r₀ = some r' ↔ r' = { r with maxTokens := some n } ∧
      1 ≤ n.toInt ∧ n.toInt ≤ v.maxCompletionTokens := by
  obtain ⟨hread, hvalid⟩ := accept_eq_some.mp h
  rw [accept_eq_some, fromJson_maxTokens hfind hn hread, ← validate_maxTokens_iff hvalid]
  constructor
  · rintro ⟨hsame, hvalid'⟩
    cases hsame
    exact ⟨rfl, hvalid'⟩
  · rintro ⟨rfl, hvalid'⟩
    exact ⟨rfl, hvalid'⟩

/-! ## Conversions -/

variable {outside32 : Rat → Int32} {outside64 : Rat → Int64}

/-- A number in the range is converted to itself. -/
theorem getInt32_of_inRange (hmax : v.maxCompletionTokens < 2 ^ 31) {x : Rat} {n : Int32}
    (hnumber : number value = some x) (hrange : InRange v x)
    (hn : value.getInt32 (rationalConversions outside32 outside64) = .ok n) :
    (n.toInt : Rat) = x := by
  obtain ⟨m, rfl, hone, hle⟩ := hrange
  have hm : (Int32.ofInt m).toInt = m := Int32.toInt_ofInt_of_le (by omega) (by omega)
  cases value with
  | numberInteger k =>
      have hk : k.toInt = m := by exact_mod_cast Option.some.inj hnumber
      rw [← Except.ok.inj hn, hk, hm]
  | numberUnsigned k =>
      have hk : (k.toNat : Int) = m := by exact_mod_cast Option.some.inj hnumber
      rw [← Except.ok.inj hn, hk, hm]
  | numberFloat y =>
      obtain rfl := Option.some.inj hnumber
      have htruncate : truncateRat (m : Rat) = m := by
        unfold truncateRat
        rw [if_pos (by exact_mod_cast le_trans Int.one_nonneg hone), Rat.floor_intCast]
      have hinside : -2 ^ 31 ≤ truncateRat (m : Rat) ∧ truncateRat (m : Rat) < 2 ^ 31 := by
        rw [htruncate]
        omega
      rw [← Except.ok.inj hn, rationalConversions]
      dsimp only
      rw [if_pos hinside, htruncate, hm]
  | _ => cases hnumber

/-- A number is converted. -/
theorem getInt32_of_number {x : Rat} (hnumber : number value = some x) :
    ∃ n, value.getInt32 c = .ok n := by
  cases value with
  | numberInteger n => exact ⟨_, rfl⟩
  | numberUnsigned n => exact ⟨_, rfl⟩
  | numberFloat y => exact ⟨_, rfl⟩
  | _ => cases hnumber

/-- **The range of the number of tokens.**  A body that is otherwise valid is
accepted exactly with an integer in the range, and then asks for that many
tokens, if and only if the number is such an integer or is converted to a number
out of the range. -/
theorem accept_inRange_iff (outside32 : Rat → Int32) (outside64 : Rat → Int64)
    {v : ValidationConfig} (hmax : v.maxCompletionTokens < 2 ^ 31) {j value : Value Rat}
    {r₀ : ChatCompletionRequest Rat} {x : Rat}
    (hfind : j.find (literal "max_tokens") = some value) (hnumber : number value = some x)
    (hvalid : (accept (rationalConversions outside32 outside64) v
      (j.without (literal "max_tokens")) r₀).isSome) :
    (((accept (rationalConversions outside32 outside64) v j r₀).isSome ↔ InRange v x) ∧
      ∀ r, accept (rationalConversions outside32 outside64) v j r₀ = some r →
        ∃ n : Int32, r.maxTokens = some n ∧ (n.toInt : Rat) = x) ↔
      InRange v x ∨ ∀ n, value.getInt32 (rationalConversions outside32 outside64) = .ok n →
        ¬ (1 ≤ n.toInt ∧ n.toInt ≤ v.maxCompletionTokens) := by
  obtain ⟨r, hr⟩ := Option.isSome_iff_exists.mp hvalid
  obtain ⟨n, hn⟩ := getInt32_of_number
    (c := rationalConversions outside32 outside64) hnumber
  have haccept := accept_maxTokens hfind hn hr
  constructor
  · rintro ⟨hiff, -⟩
    by_contra hnot
    obtain ⟨hout, hconverted⟩ := not_or.mp hnot
    refine hconverted fun n' hn' hrange => hout (hiff.mp ?_)
    obtain rfl := Except.ok.inj (hn.symm.trans hn')
    exact Option.isSome_iff_exists.mpr ⟨_, (haccept _).mpr ⟨rfl, hrange⟩⟩
  · rintro (hrange | hout)
    · have hsame := getInt32_of_inRange hmax hnumber hrange hn
      obtain ⟨m, hm, hone, hle⟩ := id hrange
      have hint : n.toInt = m := by exact_mod_cast hsame.trans hm
      refine ⟨⟨fun _ => hrange, fun _ => ?_⟩, fun r' hr' => ?_⟩
      · exact Option.isSome_iff_exists.mpr ⟨_, (haccept _).mpr ⟨rfl, by omega⟩⟩
      · obtain ⟨rfl, -⟩ := (haccept r').mp hr'
        exact ⟨n, rfl, hsame⟩
    · have hnone : ∀ r', accept (rationalConversions outside32 outside64) v j r₀ ≠ some r' :=
        fun r' hr' => hout n hn ((haccept r').mp hr').2
      refine ⟨⟨fun hsome => ?_, fun hrange => ?_⟩, fun r' hr' => absurd hr' (hnone r')⟩
      · obtain ⟨r', hr'⟩ := Option.isSome_iff_exists.mp hsome
        exact absurd hr' (hnone r')
      · have hsame := getInt32_of_inRange hmax hnumber hrange hn
        obtain ⟨m, hm, hone, hle⟩ := hrange
        have hint : n.toInt = m := by exact_mod_cast hsame.trans hm
        exact absurd ⟨by omega, by omega⟩ (hout n hn)

/-! ## A number that wraps -/

/-- A body with this number of tokens. -/
def bodyWith (value : Value Rat) : Value Rat :=
  .object [(literal "max_tokens", value),
    (literal "messages", .array [.object [(literal "content", .string (literal "Hi")),
      (literal "role", .string (literal "user"))]]),
    (literal "model", .string (literal "q"))]

theorem defaultContext_int32 : -2 ^ 31 ≤ (70000 : Int) ∧ (70000 : Int) < 2 ^ 31 := by decide

/-- A server of one model. -/
def oneModel : ValidationConfig where
  supportedModels := ["q"]
  context_int32 := defaultContext_int32

/-- Conversions of a platform that turns what does not fit into zero. -/
def zeroConversions : Conversions Rat := rationalConversions (fun _ => 0) (fun _ => 0)

theorem accept_bodyWith : (accept zeroConversions oneModel
    ((bodyWith (.numberUnsigned 5)).without (literal "max_tokens")) {}).isSome := by
  decide +kernel

theorem accept_inRange_iff_five :
    (((accept zeroConversions oneModel (bodyWith (.numberUnsigned 5)) {}).isSome ↔
        InRange oneModel 5) ∧
      ∀ r, accept zeroConversions oneModel (bodyWith (.numberUnsigned 5)) {} = some r →
        ∃ n : Int32, r.maxTokens = some n ∧ (n.toInt : Rat) = 5) ↔
      InRange oneModel 5 ∨
        ∀ n, (Value.numberUnsigned 5).getInt32 zeroConversions = .ok n →
          ¬ (1 ≤ n.toInt ∧ n.toInt ≤ oneModel.maxCompletionTokens) := by
  have hfind : (bodyWith (.numberUnsigned 5)).find (literal "max_tokens") =
      some (.numberUnsigned 5) := rfl
  have hnumber : number (.numberUnsigned 5) = some 5 := rfl
  have hmax : oneModel.maxCompletionTokens < 2 ^ 31 := by decide
  exact accept_inRange_iff (fun _ => 0) (fun _ => 0) hmax hfind hnumber accept_bodyWith

/-- A number just above the range of `uint32_t` is accepted as one token. -/
theorem accept_wrapped :
    (accept zeroConversions oneModel (bodyWith (.numberUnsigned 4294967297)) {}).map
        (·.maxTokens) = some (some 1) ∧
      number (.numberUnsigned 4294967297) = some 4294967297 ∧ ¬ InRange oneModel 4294967297 := by
  refine ⟨by decide +kernel, rfl, ?_⟩
  rintro ⟨n, hn, -, hle⟩
  have hvalue : n = 4294967297 := by exact_mod_cast hn.symm
  have hbound : n ≤ 8192 := hle
  omega

end Wire

end Qwen
