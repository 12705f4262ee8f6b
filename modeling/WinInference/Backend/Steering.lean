import Mathlib.Data.List.Induction
import WinInference.Backend.NullBackend
import WinInference.Core.SampledToken
import WinInference.Scheduler.Draws

/-!
# A predetermined sequence

The decode thread with the null backend that it calls.  The backend gives the
tokens of `set_output_sequence` one by one to whoever calls `decode_step`.  With
temperature zero the sampler takes each of them, so the requests that are decoded
side by side share out the sequence: what it holds comes out in order, whole and
once, whatever is prefilled, cancelled or stopped in between.  The first token of
a request comes from its prefill, which is not predetermined.

The prefill, and any call past the end of the sequence, writes random logits,
EOS among them; a vocabulary that holds EOS keeps all of these writes inside of
the logits, and this is assumed throughout.  `takeTurn_greedy` is what one turn
does at temperature zero, `decodeStep_deals` what one call of `decode_step`
takes from the sequence, `Shared.step` that a move keeps the account, and
`sequence_shared` that every list of moves does.
-/

namespace Qwen

namespace DecodeThread

/-- The decode thread and its backend. -/
structure Serving (lib : SamplingLibrary ℚ) where
  decoder : Decoder lib
  backend : NullBackend
  /-- a history variable: the tokens sampled from an answer of `decode_step` -/
  dealt : List (Nat × Int) := []

/-- What the decode thread does next; `cancelled` is the cancel token as the
backend reads it. -/
inductive Move (lib : SamplingLibrary ℚ) where
  /-- `run_prefill` of a new request -/
  | prefill (r : Nat) (q : Generation lib) (seqLen : Int) (cancelled : Bool)
  /-- the body of the decode loop; the answer of `decode_step` is the backend's -/
  | decode (turn : Turn ℚ) (cancelled : Bool)

variable {lib : SamplingLibrary ℚ}

/-- The request was never decoded and is not active. -/
def Generation.isNew (q : Generation lib) : Bool := !q.active && q.outputTokens.isEmpty

/-- The turn gets as far as `decode_step`. -/
def Generation.callsBackend (q : Generation lib) (turn : Turn ℚ) : Bool :=
  q.active && !(turn.cancelled || turn.timedOut) && !turn.cancelledInside &&
    !q.outputTokens.isEmpty

namespace Serving

/-- A prefilled request joins the active ones. -/
def prefill (s : Serving lib) (r : Nat) (q : Generation lib) (seqLen : Int) (cancelled : Bool) :
    Serving lib :=
  if (s.decoder.requests r).isNew then
    let (result, backend) := s.backend.prefill seqLen cancelled
    match result with
    | .error _ => { s with backend := backend }
    | .ok output =>
        let q := { q with
          prefillLogits := output.logits.data, outputTokens := [], active := true }
        { s with
          decoder := { s.decoder with requests := Function.update s.decoder.requests r q }
          backend := backend }
  else s

/-- One pass of the decode loop over a request. -/
def decode (tokenizer : Tokenizer) (s : Serving lib) (turn : Turn ℚ) (cancelled : Bool) :
    Option (Serving lib) :=
  let q := s.decoder.requests turn.request
  if q.callsBackend turn then do
    let (answer, backend) := s.backend.decodeStep cancelled
    let turn := { turn with decode := answer.map (·.data) }
    let decoder ← takeTurn tokenizer s.decoder turn
    let appended := (decoder.requests turn.request).outputTokens.drop q.outputTokens.length
    return {
      decoder := decoder
      backend := backend
      dealt := s.dealt ++ appended.map fun token => (turn.request, token) }
  else do
    let decoder ← takeTurn tokenizer s.decoder turn
    return { s with decoder := decoder }

/-- One move. -/
def step (tokenizer : Tokenizer) (s : Serving lib) : Move lib → Option (Serving lib)
  | .prefill r q seqLen cancelled => some (s.prefill r q seqLen cancelled)
  | .decode turn cancelled => s.decode tokenizer turn cancelled

/-- The moves, one after the other. -/
def run (tokenizer : Tokenizer) (s : Serving lib) (moves : List (Move lib)) :
    Option (Serving lib) :=
  moves.foldlM (step tokenizer) s

/-- Nothing was prefilled yet. -/
def initial (sampler : Sampler lib) (b : NullBackend) : Serving lib :=
  { decoder := { sampler := sampler, requests := fun _ => { active := false } }, backend := b }

end Serving

/-! ## Temperature zero -/

section Greedy

variable (tokenizer : Tokenizer) (sampler : Sampler lib) {q : Generation lib} {logits : List ℚ}
  {previousTokens : List Int}

/-- What a step does to a request: it appends tokens, and the temperature stays. -/
structure Appends (q q' : Generation lib) (tokens : List Int) : Prop where
  outputTokens : q'.outputTokens = q.outputTokens ++ tokens
  temperature : q'.temperature = q.temperature
  active : q'.active = true → q.active = true

theorem Appends.refl (q : Generation lib) : Appends q q [] :=
  ⟨(List.append_nil _).symm, rfl, id⟩

theorem Appends.retire {q' : Generation lib} {tokens : List Int} (h : Appends q q' tokens) :
    Appends q { q' with active := false } tokens := ⟨h.outputTokens, h.temperature, nofun⟩

theorem checkStopAndContinue_appends (tokenizer : Tokenizer) (q : Generation lib) :
    Appends q (checkStopAndContinue tokenizer q).2 [] := by
  unfold checkStopAndContinue
  dsimp only
  split <;> exact ⟨(List.append_nil _).symm, rfl, id⟩

/-- The tokens that greedy sampling gives. -/
def greedyTokens (logits : List ℚ) : List Int :=
  (Sampler.sampleGreedy logits).toList.map (·.tokenId)

theorem sampleToken_greedy (htemperature : q.temperature ≤ 0) (logits : List ℚ)
    (previousTokens : List Int) :
    ∃ result q', sampleToken tokenizer sampler q logits previousTokens =
        some (result, q', sampler) ∧
      Appends q q' (greedyTokens logits) := by
  by_cases hne : logits = []
  · subst hne
    refine ⟨_, q, rfl, ?_⟩
    exact Appends.refl q
  · obtain ⟨i, logit, hmax, -⟩ := Sampler.maxElement_spec hne
    have hgreedy : ∃ result, Sampler.sampleGreedy logits = some result := by
      unfold Sampler.sampleGreedy
      rw [hmax]
      exact ⟨_, rfl⟩
    obtain ⟨result, hgreedy⟩ := hgreedy
    have hsample : sampler.sample logits q.samplingParams previousTokens =
        some (.ok result, sampler) := by
      have hempty : logits.isEmpty = false := by simpa using hne
      have hone : ¬ (q.samplingParams.repetitionPenalty ≠ 1 ∧ previousTokens ≠ []) := by
        simp [Generation.samplingParams]
      have hzero : q.samplingParams.temperature ≤ 0 := htemperature
      unfold Sampler.sample
      rw [hempty, if_neg Bool.false_ne_true, if_neg hone]
      simp only [Option.bind_eq_bind, Option.bind_some, if_pos hzero, hgreedy]
      rfl
    have htokens : greedyTokens logits = [result.tokenId] := by
      unfold greedyTokens
      rw [hgreedy]
      rfl
    unfold sampleToken
    rw [hsample, htokens]
    refine ⟨_, _, rfl, ?_⟩
    obtain ⟨houtput, htemp, hactive⟩ := checkStopAndContinue_appends tokenizer
      { q with
        outputTokens := q.outputTokens ++ [result.tokenId]
        outputText := q.outputText ++ tokenizer.tokenText result.tokenId
        draws := q.draws ++ (drawOf sampler logits q.samplingParams result.tokenId).toList }
    rw [List.append_nil] at houtput
    exact ⟨houtput, htemp, hactive⟩

/-- The tokens that a turn of a request at temperature zero appends. -/
def turnTokens (q : Generation lib) (turn : Turn ℚ) : List Int :=
  if !q.active || (turn.cancelled || turn.timedOut) || turn.cancelledInside then []
  else if q.outputTokens.isEmpty then greedyTokens q.prefillLogits
  else (turn.decode.toOption.map greedyTokens).getD []

theorem runDecodeStep_greedy (hactive : q.active = true) (htemperature : q.temperature ≤ 0)
    {turn : Turn ℚ} (hturn : (turn.cancelled || turn.timedOut) = false) :
    ∃ result q', runDecodeStep tokenizer sampler q turn = some (result, q', sampler) ∧
      Appends q q' (turnTokens q turn) := by
  have htokens : turnTokens q turn =
      if turn.cancelledInside then []
      else if q.outputTokens.isEmpty then greedyTokens q.prefillLogits
      else (turn.decode.toOption.map greedyTokens).getD [] := by
    unfold turnTokens
    rw [hactive, hturn]
    rfl
  rw [htokens]
  unfold runDecodeStep
  cases hinside : turn.cancelledInside with
  | true => exact ⟨_, q, rfl, Appends.refl q⟩
  | false =>
      cases hfirst : q.outputTokens.isEmpty with
      | true =>
          by_cases hempty : q.prefillLogits = []
          · rw [hempty]
            exact ⟨_, q, rfl, Appends.refl q⟩
          · have hfilled : q.prefillLogits.isEmpty = false := by simpa using hempty
            obtain ⟨result, q', hsample, happends⟩ :=
              sampleToken_greedy tokenizer sampler (q := { q with prefillLogits := [] })
                htemperature q.prefillLogits []
            refine ⟨result, q', ?_, happends.outputTokens, happends.temperature,
              happends.active⟩
            simp only [hfilled, Bool.false_eq_true, if_false, if_true]
            exact hsample
      | false =>
          cases hdecode : turn.decode with
          | error e => exact ⟨_, q, rfl, Appends.refl q⟩
          | ok logits =>
              obtain ⟨result, q', hsample, happends⟩ :=
                sampleToken_greedy tokenizer sampler htemperature logits q.outputTokens
              exact ⟨result, q', hsample, happends⟩

/-- A turn of a request at temperature zero. -/
theorem takeTurn_greedy {w : Decoder lib} (turn : Turn ℚ)
    (htemperature : (w.requests turn.request).active = true →
      (w.requests turn.request).temperature ≤ 0) :
    ∃ w', takeTurn tokenizer w turn = some w' ∧
      Appends (w.requests turn.request) (w'.requests turn.request)
        (turnTokens (w.requests turn.request) turn) ∧
      ∀ r, r ≠ turn.request → w'.requests r = w.requests r := by
  cases hactive : (w.requests turn.request).active with
  | false =>
      refine ⟨w, ?_, ?_, fun _ _ => rfl⟩
      · unfold takeTurn
        rw [hactive, if_neg Bool.false_ne_true]
      · unfold turnTokens
        rw [hactive]
        exact Appends.refl _
  | true =>
      obtain ⟨q, sampler', hdecode, happends⟩ : ∃ q sampler',
          decodeRequest tokenizer w.sampler (w.requests turn.request) turn = some (q, sampler') ∧
            Appends (w.requests turn.request) q
              (turnTokens (w.requests turn.request) turn) := by
        unfold decodeRequest
        cases hturn : turn.cancelled || turn.timedOut with
        | true =>
            refine ⟨_, _, rfl, ?_⟩
            unfold turnTokens
            rw [hactive, hturn]
            exact (Appends.refl _).retire
        | false =>
            obtain ⟨result, q', hstep, happends⟩ :=
              runDecodeStep_greedy tokenizer w.sampler hactive (htemperature hactive) hturn
            rw [if_neg Bool.false_ne_true, hstep]
            rcases result with e | continues
            · exact ⟨_, _, rfl, happends.retire⟩
            · cases continues with
              | false => exact ⟨_, _, rfl, happends.retire⟩
              | true => exact ⟨_, _, rfl, happends⟩
      refine ⟨{ sampler := sampler', requests := Function.update w.requests turn.request q },
        ?_, ?_, fun r hr => Function.update_of_ne hr _ _⟩
      · unfold takeTurn
        rw [hactive, if_pos rfl, hdecode]
        rfl
      · show Appends _ (Function.update w.requests turn.request q turn.request) _
        rw [Function.update_self]
        exact happends

end Greedy

/-! ## The backend's answers -/

section Answers

variable {b : NullBackend} {cancelled : Bool}

theorem toInt32_toSize {n : Int} (h : 0 ≤ n) (hlt : n < 2 ^ 31) :
    toInt32 (toSize n : Int) = n := by
  have hsize : toSize n = n.toNat := by
    unfold toSize Wrapping.ofInt
    omega
  rw [hsize, toInt32, Wrapping.toSigned_of_lt (by omega)]
  omega

/-- The logits that prefer a token. -/
theorem greedyTokens_preferred {token : Int} (h : b.InVocab token)
    (hvocab : b.config.vocabSize < 2 ^ 31) :
    greedyTokens (b.generateFakeLogits token).1.data = [token] := by
  obtain ⟨hnonneg, hlt⟩ := h
  have hdata : (b.generateFakeLogits token).1.data =
      (List.replicate (toSize b.config.vocabSize) (-10 : ℚ)).set (toSize token) 10 := by
    unfold NullBackend.generateFakeLogits
    rw [if_pos ⟨hnonneg, hlt⟩]
    rfl
  have hsize : toSize token < toSize b.config.vocabSize := by
    unfold toSize Wrapping.ofInt
    omega
  rw [hdata]
  set logits := (List.replicate (toSize b.config.vocabSize) (-10 : ℚ)).set (toSize token) 10
    with hlogits
  have hp : toSize token < logits.length := by
    rw [hlogits, List.length_set, List.length_replicate]
    exact hsize
  have hpeak : ∀ j < logits.length, j ≠ toSize token →
      logits.getD j 0 < logits.getD (toSize token) 0 := by
    intro j hj hne
    rw [List.getD_eq_getElem _ _ hj, List.getD_eq_getElem _ _ hp]
    simp only [hlogits, List.getElem_set, List.getElem_replicate, if_neg hne.symm, if_true]
    norm_num
  have hne : logits ≠ [] := List.length_pos_iff.mp (Nat.zero_lt_of_lt hp)
  obtain ⟨i, logit, hmax, -⟩ := Sampler.maxElement_spec hne
  obtain ⟨result, hgreedy⟩ : ∃ result, Sampler.sampleGreedy logits = some result := by
    unfold Sampler.sampleGreedy
    rw [hmax]
    exact ⟨_, rfl⟩
  have htoken := Sampler.sampleGreedy_peak hp hpeak hgreedy
  rw [toInt32_toSize hnonneg (by omega)] at htoken
  unfold greedyTokens
  rw [hgreedy, ← htoken]
  rfl

/-- The tokens that come of an answer. -/
def answerTokens (answer : Result Logits) : List Int :=
  ((answer.map (·.data)).toOption.map greedyTokens).getD []

/-- What a call of `decode_step` gives and where it leaves the sequence. -/
inductive Deals (b b' : NullBackend) : List Int → Prop where
  | refused (hindex : b'.outputIndex = b.outputIndex) : Deals b b' []
  | next {token : Int} (htoken : b.outputSequence[b.outputIndex]? = some token)
      (hindex : b'.outputIndex = b.outputIndex + 1) : Deals b b' [token]
  | past {tokens : List Int} (hover : b.outputSequence.length ≤ b.outputIndex)
      (hindex : b'.outputIndex = b.outputIndex) : Deals b b' tokens

/-- The backend stays loaded, with its configuration and its sequence. -/
structure SameSequence (b b' : NullBackend) : Prop where
  loaded : b'.loaded = b.loaded
  config : b'.config = b.config
  outputSequence : b'.outputSequence = b.outputSequence

theorem prefill_sameControl (b : NullBackend) (seqLen : Int) (cancelled : Bool) :
    NullBackend.SameControl b (b.prefill seqLen cancelled).2 := by
  rw [NullBackend.prefill_state]
  split
  · exact NullBackend.SameControl.generate_left b (-1)
  · exact ⟨rfl, rfl, rfl, rfl⟩

/-- **One call of `decode_step`.**  A call that is refused takes nothing from the
sequence, any other takes the next token. -/
theorem decodeStep_deals (hvocab : ∀ token ∈ b.outputSequence, b.InVocab token)
    (hsize : b.config.vocabSize < 2 ^ 31) (cancelled : Bool) :
    SameSequence b (b.decodeStep cancelled).2 ∧
      Deals b (b.decodeStep cancelled).2 (answerTokens (b.decodeStep cancelled).1) := by
  by_cases hready : b.Ready cancelled
  · by_cases hlt : b.outputIndex < b.outputSequence.length
    · have hstep : b.decodeStep cancelled =
          (.ok ({ b with outputIndex := b.outputIndex + 1 }.generateFakeLogits b.preferred).1,
            ({ b with outputIndex := b.outputIndex + 1 }.generateFakeLogits b.preferred).2) := by
        unfold NullBackend.decodeStep
        rw [hready.check]
        simp only [if_pos hlt]
      have hcontrol := NullBackend.SameControl.generate_left
        { b with outputIndex := b.outputIndex + 1 } b.preferred
      have hget : b.outputSequence[b.outputIndex]? = some b.outputSequence[b.outputIndex] :=
        List.getElem?_eq_getElem hlt
      have hpreferred : b.preferred = b.outputSequence[b.outputIndex] := by
        unfold NullBackend.preferred
        rw [hget, Option.getD_some]
      have hin : ({ b with outputIndex := b.outputIndex + 1 } : NullBackend).InVocab
          b.preferred := by
        rw [hpreferred]
        exact hvocab _ (List.getElem_mem hlt)
      rw [hstep]
      refine ⟨⟨hcontrol.loaded_eq, hcontrol.config_eq, hcontrol.outputSequence_eq⟩, ?_⟩
      have htokens : answerTokens (.ok ({ b with outputIndex := b.outputIndex + 1
          }.generateFakeLogits b.preferred).1) = [b.preferred] :=
        greedyTokens_preferred hin hsize
      rw [htokens, hpreferred]
      rw [hpreferred] at hcontrol
      exact .next hget hcontrol.outputIndex_eq
    · have hstep : (b.decodeStep cancelled).2 =
          (b.generateFakeLogits b.preferred).2 := by
        rw [NullBackend.decodeStep_state, if_pos hready, if_neg hlt]
      have hcontrol := NullBackend.SameControl.generate_left b b.preferred
      rw [hstep]
      exact ⟨⟨hcontrol.loaded_eq, hcontrol.config_eq, hcontrol.outputSequence_eq⟩,
        .past (not_lt.mp hlt) hcontrol.outputIndex_eq⟩
  · obtain ⟨e, he⟩ := NullBackend.check_of_not_ready hready
    have hstep : b.decodeStep cancelled = (.error e, b) := by
      unfold NullBackend.decodeStep
      rw [he]
    rw [hstep]
    exact ⟨⟨rfl, rfl, rfl⟩, .refused rfl⟩

end Answers

/-! ## Every run -/

/-- The sequence so far: `dealt` begins with it, each request has what it was dealt
after its first token, and the backend stands at the next token.  It has written
inside of its logits only. -/
structure Shared (config : ModelConfig) (tokens : List Int) (s : Serving lib) : Prop where
  loaded : s.backend.loaded = true
  config_eq : s.backend.config = config
  outputSequence : s.backend.outputSequence = tokens
  index : s.backend.outputIndex = min s.dealt.length tokens.length
  order : (s.dealt.map Prod.snd).take tokens.length = tokens.take s.dealt.length
  greedy : ∀ r, (s.decoder.requests r).active = true → (s.decoder.requests r).temperature ≤ 0
  shares : ∀ r, (s.decoder.requests r).outputTokens.drop 1 =
    (s.dealt.filter fun e => e.1 = r).map Prod.snd
  contained : s.backend.Contained

section Runs

variable {config : ModelConfig} {tokens : List Int} {s : Serving lib} (tokenizer : Tokenizer)

theorem Shared.prefill (h : Shared config tokens s)
    (heos : NullBackend.eosTokenId < config.vocabSize) {q : Generation lib}
    (hq : q.temperature ≤ 0) (r : Nat) (seqLen : Int) (cancelled : Bool) :
    Shared config tokens (s.prefill r q seqLen cancelled) := by
  have hcontrol := prefill_sameControl s.backend seqLen cancelled
  have hcontained : (s.backend.call (fun _ => s.backend.rng)
      (.prefill seqLen cancelled)).Contained :=
    h.contained.call (Or.inl (by rw [h.config_eq]; exact heos))
  unfold Serving.prefill
  split
  next hnew =>
    have houtput : (s.decoder.requests r).outputTokens = [] := by
      unfold Generation.isNew at hnew
      simp only [Bool.and_eq_true, List.isEmpty_iff] at hnew
      exact hnew.2
    dsimp only
    split
    · exact ⟨hcontrol.loaded_eq.trans h.loaded, hcontrol.config_eq.trans h.config_eq,
        hcontrol.outputSequence_eq.trans h.outputSequence, hcontrol.outputIndex_eq.trans h.index,
        h.order, h.greedy, h.shares, hcontained⟩
    · refine ⟨hcontrol.loaded_eq.trans h.loaded, hcontrol.config_eq.trans h.config_eq,
        hcontrol.outputSequence_eq.trans h.outputSequence, hcontrol.outputIndex_eq.trans h.index,
        h.order, fun u => ?_, fun u => ?_, hcontained⟩
      · by_cases hu : u = r
        · subst hu
          simp only [Function.update_self]
          exact fun _ => hq
        · simp only [Function.update_of_ne hu]
          exact h.greedy u
      · by_cases hu : u = r
        · subst hu
          rw [← h.shares u, houtput]
          simp only [Function.update_self]
        · simp only [Function.update_of_ne hu]
          exact h.shares u
  next => exact h

theorem greedyTokens_length (logits : List ℚ) : (greedyTokens logits).length ≤ 1 := by
  unfold greedyTokens
  cases Sampler.sampleGreedy logits <;> simp

/-- Without a call of the backend a turn appends the first token at most. -/
theorem turnTokens_without_call {q : Generation lib} {turn : Turn ℚ}
    (h : q.callsBackend turn = false) :
    (q.outputTokens ++ turnTokens q turn).drop 1 = q.outputTokens.drop 1 := by
  unfold Generation.callsBackend at h
  unfold turnTokens
  cases hquiet : !q.active || (turn.cancelled || turn.timedOut) || turn.cancelledInside with
  | true => rw [if_pos rfl, List.append_nil]
  | false =>
      have hfirst : q.outputTokens.isEmpty = true := by
        cases hactive : q.active <;> simp_all
      have hempty : q.outputTokens = [] := List.isEmpty_iff.mp hfirst
      have hlength := greedyTokens_length q.prefillLogits
      rw [if_neg Bool.false_ne_true, if_pos hfirst, hempty, List.nil_append, List.drop_nil,
        List.drop_eq_nil_of_le hlength]

/-- With a call it appends what the answer gives. -/
theorem turnTokens_call {q : Generation lib} {turn : Turn ℚ} (h : q.callsBackend turn = true)
    (answer : Result Logits) :
    q.outputTokens ≠ [] ∧
      turnTokens q { turn with decode := answer.map (·.data) } = answerTokens answer := by
  unfold Generation.callsBackend at h
  simp only [Bool.and_eq_true, Bool.not_eq_true'] at h
  obtain ⟨⟨⟨hactive, hturn⟩, hinside⟩, hlater⟩ := h
  refine ⟨by simpa using hlater, ?_⟩
  unfold turnTokens
  rw [hactive, hinside, hlater, hturn]
  rfl

/-- More of the sequence is dealt. -/
theorem order_concat (dealt : List Int) {more : List Int} {b b' : NullBackend}
    (hdeals : Deals b b' more) (hsequence : b.outputSequence = tokens)
    (hindex : b.outputIndex = min dealt.length tokens.length)
    (horder : dealt.take tokens.length = tokens.take dealt.length) :
    b'.outputIndex = min (dealt ++ more).length tokens.length ∧
      (dealt ++ more).take tokens.length = tokens.take (dealt ++ more).length := by
  cases hdeals with
  | refused hsame =>
      rw [List.append_nil]
      exact ⟨hsame.trans hindex, horder⟩
  | @next token htoken hnext =>
      rw [hsequence, hindex] at htoken
      obtain ⟨hlt, -⟩ := List.getElem?_eq_some_iff.mp htoken
      have hmore : dealt.length < tokens.length := by omega
      have hlength : min dealt.length tokens.length = dealt.length := by omega
      rw [hlength] at htoken
      rw [List.take_of_length_le hmore.le] at horder
      rw [List.length_append, List.length_singleton]
      refine ⟨by omega, ?_⟩
      rw [List.take_of_length_le (by rw [List.length_append, List.length_singleton]; omega),
        List.take_add_one, htoken, ← horder]
      rfl
  | past hover hsame =>
      rw [hsequence, hindex] at hover
      have hfull : tokens.length ≤ dealt.length := by omega
      rw [List.take_append_of_le_length hfull, List.length_append]
      refine ⟨by omega, ?_⟩
      rw [horder, List.take_of_length_le hfull, List.take_of_length_le (by omega)]

/-- A turn keeps all other requests, and what it appends to its own is known. -/
theorem greedy_turn {w w' : Decoder lib} {turn : Turn ℚ} {more : List Int}
    (hgreedy : ∀ r, (w.requests r).active = true → (w.requests r).temperature ≤ 0)
    (happends : Appends (w.requests turn.request) (w'.requests turn.request) more)
    (hothers : ∀ r, r ≠ turn.request → w'.requests r = w.requests r) (r : Nat)
    (hactive : (w'.requests r).active = true) : (w'.requests r).temperature ≤ 0 := by
  by_cases hr : r = turn.request
  · subst hr
    rw [happends.temperature]
    exact hgreedy _ (happends.active hactive)
  · rw [hothers r hr] at hactive ⊢
    exact hgreedy r hactive

/-- What each request has of the list, when more is dealt to one of them. -/
theorem shares_concat (dealt : List (Nat × Int)) (more : List Int) (t r : Nat) :
    ((dealt ++ more.map fun token => (t, token)).filter fun e => e.1 = r).map Prod.snd =
      (dealt.filter fun e => e.1 = r).map Prod.snd ++ if r = t then more else [] := by
  rw [List.filter_append, List.map_append]
  by_cases hr : r = t
  · have hmine : (more.map fun token => (t, token)).filter (fun e => decide (e.1 = r)) =
        more.map fun token => (t, token) :=
      List.filter_eq_self.mpr (by simp [hr])
    rw [hmine, if_pos hr, List.map_map]
    exact congrArg _ (List.map_id more)
  · have hothers : (more.map fun token => (t, token)).filter (fun e => decide (e.1 = r)) = [] :=
      List.filter_eq_nil_iff.mpr (by simp [Ne.symm hr])
    rw [hothers, if_neg hr]
    rfl

/-- A turn that does not get as far as `decode_step` deals nothing. -/
theorem Shared.decode_quiet (h : Shared config tokens s) {turn : Turn ℚ} (cancelled : Bool)
    (hcalls : (s.decoder.requests turn.request).callsBackend turn = false) :
    ∃ s', s.decode tokenizer turn cancelled = some s' ∧ Shared config tokens s' := by
  obtain ⟨w', hstep, happends, hothers⟩ :=
    takeTurn_greedy tokenizer turn (h.greedy turn.request)
  refine ⟨{ s with decoder := w' }, ?_, h.loaded, h.config_eq, h.outputSequence, h.index,
    h.order, greedy_turn h.greedy happends hothers, fun r => ?_, h.contained⟩
  · unfold Serving.decode
    simp only [hcalls, Bool.false_eq_true, if_false, hstep, Option.bind_eq_bind,
      Option.bind_some]
    rfl
  · rw [← h.shares r]
    by_cases hr : r = turn.request
    · subst hr
      rw [happends.outputTokens, turnTokens_without_call hcalls]
    · rw [hothers r hr]

/-- Any other turn deals what `decode_step` gives to the request whose turn it is. -/
theorem Shared.decode_call (h : Shared config tokens s)
    (heos : NullBackend.eosTokenId < config.vocabSize)
    (hvocab : ∀ token ∈ tokens, 0 ≤ token ∧ token < config.vocabSize)
    (hsize : config.vocabSize < 2 ^ 31) {turn : Turn ℚ} (cancelled : Bool)
    (hcalls : (s.decoder.requests turn.request).callsBackend turn = true) :
    ∃ s', s.decode tokenizer turn cancelled = some s' ∧ Shared config tokens s' := by
  obtain ⟨hlater, htokens⟩ := turnTokens_call hcalls (s.backend.decodeStep cancelled).1
  have hin : ∀ token ∈ s.backend.outputSequence, s.backend.InVocab token := by
    unfold NullBackend.InVocab
    rw [h.outputSequence, h.config_eq]
    exact hvocab
  obtain ⟨hsame, hdeals⟩ :=
    decodeStep_deals hin (by rw [h.config_eq]; exact hsize) cancelled
  obtain ⟨w', hstep, happends, hothers⟩ := takeTurn_greedy tokenizer
    { turn with decode := (s.backend.decodeStep cancelled).1.map (·.data) }
    (h.greedy turn.request)
  rw [htokens] at happends
  set more := answerTokens (s.backend.decodeStep cancelled).1 with hmore
  have happended : (w'.requests turn.request).outputTokens.drop
      (s.decoder.requests turn.request).outputTokens.length = more := by
    rw [happends.outputTokens, List.drop_left]
  obtain ⟨hindex, horder⟩ := order_concat (s.dealt.map Prod.snd) hdeals h.outputSequence
    (by rw [List.length_map]; exact h.index) (by rw [List.length_map]; exact h.order)
  have hdealt : (s.dealt ++ more.map fun token => (turn.request, token)).map Prod.snd =
      s.dealt.map Prod.snd ++ more := by
    rw [List.map_append, List.map_map]
    exact congrArg _ (List.map_id more)
  have hlength : (s.dealt ++ more.map fun token => (turn.request, token)).length =
      (s.dealt.map Prod.snd ++ more).length := by
    rw [← hdealt, List.length_map]
  refine ⟨{ decoder := w'
            backend := (s.backend.decodeStep cancelled).2
            dealt := s.dealt ++ more.map fun token => (turn.request, token) }, ?_,
    hsame.loaded.trans h.loaded, hsame.config.trans h.config_eq,
    hsame.outputSequence.trans h.outputSequence, ?_, ?_,
    greedy_turn h.greedy happends hothers, fun r => ?_,
    h.contained.decodeStep (Or.inl (by rw [h.config_eq]; exact heos))⟩
  · unfold Serving.decode
    simp only [hcalls, if_true, hstep, Option.bind_eq_bind, Option.bind_some, happended]
    rfl
  · rw [hlength]
    exact hindex
  · rw [hlength, hdealt]
    exact horder
  · dsimp only
    rw [shares_concat, ← h.shares r]
    by_cases hr : r = turn.request
    · subst hr
      have hlonger : 1 ≤ (s.decoder.requests turn.request).outputTokens.length :=
        List.length_pos_iff.mpr hlater
      rw [happends.outputTokens, List.drop_append_of_le_length hlonger, if_pos rfl]
    · rw [hothers r hr, if_neg hr, List.append_nil]

theorem Shared.step (h : Shared config tokens s)
    (heos : NullBackend.eosTokenId < config.vocabSize)
    (hvocab : ∀ token ∈ tokens, 0 ≤ token ∧ token < config.vocabSize)
    (hsize : config.vocabSize < 2 ^ 31) (move : Move lib)
    (hmove : ∀ r q seqLen cancelled, move = .prefill r q seqLen cancelled →
      q.temperature ≤ 0) :
    ∃ s', s.step tokenizer move = some s' ∧ Shared config tokens s' := by
  cases move with
  | prefill r q seqLen cancelled =>
      exact ⟨_, rfl, h.prefill heos (hmove r q seqLen cancelled rfl) r seqLen cancelled⟩
  | decode turn cancelled =>
      cases hcalls : (s.decoder.requests turn.request).callsBackend turn with
      | false => exact h.decode_quiet tokenizer cancelled hcalls
      | true => exact h.decode_call tokenizer heos hvocab hsize cancelled hcalls

/-- **A predetermined sequence is shared out.**  However the requests of temperature
zero come and go, the tokens that calls of `decode_step` lead to are, in the order of
the calls, those of the sequence, and after its first token each request has exactly
the tokens of its own calls.  No call writes outside of the logits. -/
theorem sequence_shared (sampler : Sampler lib) {b : NullBackend}
    (hloaded : b.loaded = true) (hnew : b.written = [])
    (heos : NullBackend.eosTokenId < b.config.vocabSize) (hsize : b.config.vocabSize < 2 ^ 31)
    (hvocab : ∀ token ∈ tokens, b.InVocab token) (moves : List (Move lib))
    (hmoves : ∀ r q seqLen cancelled, .prefill r q seqLen cancelled ∈ moves →
      q.temperature ≤ 0) :
    ∃ s, (Serving.initial sampler (b.setOutputSequence tokens)).run tokenizer moves = some s ∧
      Shared b.config tokens s := by
  induction moves using List.reverseRecOn with
  | nil =>
      have hcontained : (b.setOutputSequence tokens).Contained := by
        intro i hi
        rw [show (b.setOutputSequence tokens).written = [] from hnew] at hi
        cases hi
      refine ⟨_, rfl, hloaded, rfl, rfl, rfl, ?_, by simp [Serving.initial], fun r => rfl,
        hcontained⟩
      simp [Serving.initial]
  | append_singleton rest move ih =>
      obtain ⟨s, hrun, hshared⟩ := ih fun r q seqLen cancelled hmem =>
        hmoves r q seqLen cancelled (List.mem_append_left _ hmem)
      obtain ⟨s', hstep, hshared'⟩ := hshared.step tokenizer heos hvocab hsize move
        fun r q seqLen cancelled hmove => hmoves r q seqLen cancelled (by rw [hmove]; simp)
      refine ⟨s', ?_, hshared'⟩
      unfold Serving.run at hrun ⊢
      rw [List.foldlM_append, hrun]
      simp only [Option.bind_eq_bind, Option.bind_some, List.foldlM_cons, hstep, List.foldlM_nil]
      rfl

end Runs

/-- Two requests that are decoded in turn. -/
def sharingMoves : List (Move Sampler.rationalLibrary) :=
  [.prefill 0 { temperature := 0 } 1 false, .prefill 1 { temperature := 0 } 1 false] ++
    ([0, 1, 0, 1, 0].map fun r => .decode { request := r, decode := .ok [] } false)

/-- The draws of which the chance does not come out for EOS. -/
def commonDraws : Draws where
  tokens := NullBackend.eosDraws.tokens
  chance := mkRat 1 2
  nonneg := by decide +kernel
  lt_one := by decide +kernel

/-- The vocabulary of the model, EOS included. -/
def steeredBackend : NullBackend :=
  { loaded := true, rng := fun _ => commonDraws }

/-- Every token has the text "x". -/
def oneTextTokenizer : Tokenizer :=
  { decodeToken := fun _ => .ok [120], eosTokenId := -1, imEndId := -1 }

theorem sequence_shared_sample :
    (∀ token ∈ [5, 6, 7], steeredBackend.InVocab token) ∧
      NullBackend.eosTokenId < steeredBackend.config.vocabSize ∧
      ∃ s, (Serving.initial ⟨(0 : Nat)⟩ (steeredBackend.setOutputSequence [5, 6, 7])).run
          oneTextTokenizer sharingMoves = some s ∧
        Shared steeredBackend.config [5, 6, 7] s := by
  have hvocab : ∀ token ∈ [5, 6, 7], steeredBackend.InVocab token := by decide
  have heos : NullBackend.eosTokenId < steeredBackend.config.vocabSize := by decide
  refine ⟨hvocab, heos, ?_⟩
  refine sequence_shared _ _ rfl rfl heos (by decide) hvocab sharingMoves
    fun r q seqLen cancelled hmem => ?_
  simp only [sharingMoves, List.mem_append, List.mem_cons, List.mem_map, List.not_mem_nil,
    or_false, reduceCtorEq, and_false, exists_false, Move.prefill.injEq] at hmem
  rcases hmem with ⟨-, rfl, -⟩ | ⟨-, rfl, -⟩ <;> exact le_rfl

end DecodeThread

end Qwen
