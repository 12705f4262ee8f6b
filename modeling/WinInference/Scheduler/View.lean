import WinInference.KVCache.Laws
import WinInference.Scheduler.Solo

/-!
# One request, seen from the decode thread

What the decode thread does to one request leaves a `View`: the request's own
fields, its part of the history, and what went through its token queue.  The
predicates below follow a request from the queue to its last token; nothing
here mentions the scheduler's programs.

Each predicate has a lemma `*.alike`: it depends on the view only up to `Alike`,
which forgets what other threads may change.  `Written` is the write position of
the cache, `Limited` are the sizes that the handler makes sure of, `Course` a
generation with no reason to stop yet, and `Going` one between two tokens, with
the text and the stream so far.
-/

namespace Qwen

/-- The text of a token event. -/
def TokenEvent.text : TokenEvent → Bytes
  | .token _ text => text
  | _ => []

/-- One request as the decode thread leaves it. -/
structure View where
  request : Request
  delivered : List TokenEvent
  /-- whether the token queue is closed, and how many events it dropped -/
  queue : Option (Bool × Nat)
  history : List Event
  active : Bool
  decoding : Bool
  /-- completed or errored -/
  isOver : Bool
  /-- whether there is a router -/
  routes : Bool
  /-- the device of single-device allocations -/
  home : Int

namespace View

/-- The text of all tokens generated so far. -/
def spoken (t : Tokenizer) (v : View) : Bytes := v.request.outputTokens.flatMap t.tokenText

/-- The text of all token events. -/
def streamed (v : View) : Bytes := v.delivered.flatMap TokenEvent.text

/-- The stop check on everything generated so far. -/
def verdict (t : Tokenizer) (v : View) : StopCheckResult :=
  StopChecker.check t v.request.outputTokens (v.spoken t)
    { stopSequences := v.request.stopSequences, maxTokens := v.request.maxTokens }

/-- The stop check as it was after the first `k` tokens. -/
def verdictAt (t : Tokenizer) (v : View) (k : Nat) : StopCheckResult :=
  StopChecker.check t (v.request.outputTokens.take k)
    ((v.request.outputTokens.take k).flatMap t.tokenText)
    { stopSequences := v.request.stopSequences, maxTokens := v.request.maxTokens }

/-- The positions of the decode calls. -/
def positions (v : View) : List Int :=
  v.history.filterMap fun
    | .decodeCalled _ _ pos => some pos
    | _ => none

/-- The routings asked for. -/
def routings (v : View) : List (Nat × GPURouter) :=
  v.history.filterMap fun
    | .routed _ contextLength g => some (contextLength, g)
    | _ => none

/-- Taken out of the queue. -/
def taken (v : View) : Bool :=
  v.history.any fun
    | .dequeued _ => true
    | _ => false

/-- The sizes the handler makes sure of. -/
def Limited (v : View) : Prop :=
  1 ≤ v.request.maxTokens ∧ v.request.inputTokens.length + v.request.maxTokens < 2 ^ 31

/-- The devices a routing decision leads the allocator to. -/
def deviceOf (home : Int) (decision : RoutingDecision) : List Int :=
  if Scheduler.wantsTensorParallel (some decision) then decision.deviceIds else [home]

/-- The cache lies where the routing says: on the routed devices for
tensor parallelism, else on the allocator's own device. -/
def Placed (v : View) : Prop :=
  v.routes = true → ∃ g : GPURouter, v.routings = [(v.request.contextLength, g)] ∧
    v.request.assignedDevices = (g.route v.request.contextLength).1.deviceIds ∧
    v.request.kvCache.devices = deviceOf v.home (g.route v.request.contextLength).1

/-- Where generation ended: the whole text less the stop sequence it ended
with, the whole text streamed, and the reason. -/
structure Outcome (t : Tokenizer) (v : View) : Prop where
  text : v.request.outputText =
    StopChecker.trimStopSequence (v.spoken t) (v.verdict t).matchedStopSequence
  streamed : ∀ closed, v.queue = some (closed, 0) → v.streamed = v.spoken t
  limit : v.Limited → v.request.outputTokens.length = v.request.maxTokens →
    v.request.finishReason = .length

/-- What holds of a request at every moment. -/
structure Bounded (t : Tokenizer) (v : View) : Prop where
  tokens : v.Limited → v.request.outputTokens.length ≤ v.request.maxTokens
  cache : v.Limited → v.request.kvCache.currentLen ≤ v.request.kvCache.maxSeqLen
  positions : v.Limited → ∀ pos ∈ v.positions, pos < v.request.kvCache.maxSeqLen
  /-- the first decode call is at the position after the first token -/
  steps : ∀ (j : Nat) pos, v.positions[j]? = some pos →
    pos = toInt32 (v.request.inputTokens.length + 1 + j)
  reason : v.Limited → v.request.finishReason = .length →
    v.request.outputTokens.length = v.request.maxTokens
  placed : v.decoding = true → v.Placed
  /-- no check before the last one stopped generation -/
  earlier : ∀ k < v.request.outputTokens.length, (v.verdictAt t k).shouldStop = false
  outcome : v.isOver = true → v.Outcome t
  /-- nothing is streamed that was not generated -/
  heard : ∀ closed, v.queue = some (closed, 0) → v.streamed <+: v.spoken t

/-- What holds of a request between two rounds. -/
structure Settled (t : Tokenizer) (v : View) : Prop extends Bounded t v, Outcome t v

/-- A write position in `size_t`, after a prompt and some tokens. -/
structure Written (cur prompt tokens : Nat) : Prop where
  mod : cur % 2 ^ 64 = (prompt + tokens) % 2 ^ 64
  exact : prompt + tokens < 2 ^ 64 → cur = prompt + tokens

/-- After the prompt, before the first token. -/
theorem Written.start (n : Nat) : Written n n 0 := ⟨rfl, fun _ => rfl⟩

/-- One token further. -/
theorem Written.next {cur n k : Nat} (h : Written cur n k) :
    Written (sizeAdd cur 1) n (k + 1) := by
  constructor
  · rw [sizeAdd, Wrapping.add, Nat.mod_mod, Nat.add_mod, h.mod, ← Nat.add_mod, Nat.add_assoc]
  · intro hlt
    have hcur := h.exact (by omega)
    rw [sizeAdd, Wrapping.add_of_lt (by omega), hcur, Nat.add_assoc]

/-- As a signed position the wrap of `size_t` does not show. -/
theorem Written.position {cur n k : Nat} (h : Written cur n k) :
    toInt32 cur = toInt32 ((n : Int) + k) := by
  have hmod : cur % 2 ^ 32 = (n + k) % 2 ^ 32 := by
    have hdvd : (2 ^ 32 : Nat) ∣ 2 ^ 64 := by decide
    rw [← Nat.mod_mod_of_dvd cur hdvd, h.mod, Nat.mod_mod_of_dvd _ hdvd]
  have hint : ((cur : Int) % ((2 ^ 32 : Nat) : Int)) =
      ((n : Int) + k) % ((2 ^ 32 : Nat) : Int) := by
    exact_mod_cast hmod
  rw [toInt32, Wrapping.toSigned, toInt32, Wrapping.toSigned, ← Int.emod_bmod, hint,
    Int.emod_bmod]

/-- Not started: nothing was generated. -/
structure Idle (v : View) : Prop where
  tokens : v.request.outputTokens = []
  text : v.request.outputText = []
  cache : v.request.kvCache.currentLen = 0
  reason : v.request.finishReason = .none
  delivered : v.delivered = []
  queue : ∀ closed dropped, v.queue = some (closed, dropped) → closed = false
  positions : v.positions = []
  decoding : v.decoding = false
  notOver : v.isOver = false

/-- Generation has started and has found no reason to stop. -/
structure Course (t : Tokenizer) (v : View) : Prop extends Bounded t v where
  unfinished : v.request.finishReason = .none
  written : Written v.request.kvCache.currentLen v.request.inputTokens.length
    v.request.outputTokens.length
  maxSeqLen : v.request.kvCache.maxSeqLen = v.request.contextLength
  queue : ∀ closed dropped, v.queue = some (closed, dropped) → closed = false
  lies : v.Placed
  ongoing : v.isOver = false

/-- Between two tokens. -/
structure Going (t : Tokenizer) (v : View) : Prop extends Course t v where
  text : v.request.outputText = v.spoken t
  streamed : ∀ closed, v.queue = some (closed, 0) → v.streamed = v.spoken t
  continues : (v.verdict t).shouldStop = false

/-- Between two decode steps: one decode call for each token but the first. -/
structure Running (t : Tokenizer) (v : View) : Prop extends Going t v where
  calls : v.positions.length = v.request.outputTokens.length - 1

/-- Logits for the next token are there: one decode call for each token. -/
structure Ready (t : Tokenizer) (v : View) : Prop extends Going t v where
  calls : v.positions.length = v.request.outputTokens.length

/-- A token was appended; its text and its event are still to come. -/
structure Appended (t : Tokenizer) (token : Int) (v : View) : Prop extends Course t v where
  calls : v.positions.length = v.request.outputTokens.length - 1
  text : v.request.outputText ++ t.tokenText token = v.spoken t
  streamed : ∀ closed, v.queue = some (closed, 0) →
    v.streamed ++ t.tokenText token = v.spoken t

/-- The text of the token was appended; its event is still to come. -/
structure Spoken (t : Tokenizer) (token : Int) (v : View) : Prop extends Course t v where
  calls : v.positions.length = v.request.outputTokens.length - 1
  text : v.request.outputText = v.spoken t
  streamed : ∀ closed, v.queue = some (closed, 0) →
    v.streamed ++ t.tokenText token = v.spoken t

/-- The event of the token was pushed; the stop check is still to come. -/
structure Emitted (t : Tokenizer) (v : View) : Prop extends Course t v where
  calls : v.positions.length = v.request.outputTokens.length - 1
  text : v.request.outputText = v.spoken t
  streamed : ∀ closed, v.queue = some (closed, 0) → v.streamed = v.spoken t

/-- Between two rounds: what is not taken has not started, and what is active
is running. -/
structure Resting (t : Tokenizer) (v : View) : Prop extends Settled t v where
  untouched : v.taken = false → v.Idle ∧ v.routings = []
  running : v.active = true → v.Running t ∧ v.taken = true

section Bounds

variable {t : Tokenizer} {v : View}

/-- The context length is the sum it stands for. -/
theorem Limited.contextLength (h : v.Limited) :
    (v.request.contextLength : Int) =
      v.request.inputTokens.length + v.request.maxTokens := by
  obtain ⟨hone, hlt⟩ := h
  have hsize : (toSize v.request.maxTokens : Int) = v.request.maxTokens := by
    rw [toSize, Wrapping.ofInt, Int.emod_eq_of_lt (by omega) (by omega)]
    omega
  have hfit : v.request.inputTokens.length + toSize v.request.maxTokens < 2 ^ 64 := by omega
  rw [Request.contextLength, sizeAdd, Wrapping.add_of_lt hfit]
  omega

/-- The write position is exact under the limits. -/
theorem Written.limited {cur k : Nat} (h : Written cur v.request.inputTokens.length k)
    (hl : v.Limited) (hk : (k : Int) ≤ v.request.maxTokens) :
    cur = v.request.inputTokens.length + k := by
  refine h.exact ?_
  have hlt := hl.2
  omega

/-- The limit is what the stop check tests. -/
theorem verdict_length (t : Tokenizer) (hl : v.Limited)
    (hle : v.request.outputTokens.length ≤ v.request.maxTokens) :
    (v.verdict t).reason = .length ↔
      v.request.outputTokens.length = v.request.maxTokens := by
  obtain ⟨hone, hlt⟩ := hl
  have hexact : toInt32 v.request.outputTokens.length = v.request.outputTokens.length :=
    Wrapping.toSigned_of_lt (by omega)
  rw [verdict, StopChecker.check_reason_length]
  dsimp only
  rw [hexact]
  omega

/-- A request that goes on has no reason to stop. -/
theorem Going.verdict_eq (h : Going t v) : v.verdict t = {} :=
  StopChecker.check_continue h.continues

/-- While nothing stops it, generation is below the limit. -/
theorem Going.below (h : Going t v) (hl : v.Limited) :
    v.request.outputTokens.length < v.request.maxTokens := by
  refine lt_of_le_of_ne (h.tokens hl) fun heq => ?_
  have hlength := (verdict_length t hl (h.tokens hl)).mpr heq
  rw [h.verdict_eq] at hlength
  cases hlength

/-- It is settled between two rounds. -/
theorem Going.settled (h : Going t v) : v.Settled t where
  toBounded := h.toBounded
  text := by
    rw [h.verdict_eq, h.text]
    rfl
  streamed := h.streamed
  limit hl heq := absurd heq (ne_of_lt (h.below hl))

/-- A request that has not started is within its bounds. -/
theorem Idle.bounded (h : Idle v) (t : Tokenizer) : v.Bounded t where
  tokens hl := by
    have hone := hl.1
    rw [h.tokens]
    simp only [List.length_nil]
    omega
  cache _ := by
    rw [h.cache]
    exact Nat.zero_le _
  positions _ pos hpos := by
    rw [h.positions] at hpos
    cases hpos
  steps j pos hpos := by
    rw [h.positions] at hpos
    cases hpos
  reason _ hlength := by
    rw [h.reason] at hlength
    cases hlength
  placed hd := by
    rw [h.decoding] at hd
    cases hd
  earlier k hk := by
    rw [h.tokens] at hk
    exact absurd hk (Nat.not_lt_zero k)
  outcome ho := by
    rw [h.notOver] at ho
    cases ho
  heard _ _ := by
    rw [streamed, h.delivered]
    exact List.nil_prefix

/-- It has no reason to stop. -/
theorem Idle.verdict_eq (h : Idle v) (t : Tokenizer) : v.verdict t = {} := by
  rw [verdict, spoken, h.tokens]
  exact StopChecker.check_nil t _

/-- It is settled. -/
theorem Idle.settled (h : Idle v) (t : Tokenizer) : v.Settled t where
  toBounded := h.bounded t
  text := by
    rw [h.verdict_eq, h.text, spoken, h.tokens]
    rfl
  streamed _ _ := by
    rw [streamed, h.delivered, spoken, h.tokens]
    rfl
  limit hl heq := by
    have hone := hl.1
    rw [h.tokens] at heq
    simp only [List.length_nil] at heq
    omega

end Bounds

/-! ## What no predicate sees -/

/-- Two views that differ only in what the predicates do not mention. -/
structure Alike (v v' : View) : Prop where
  inputTokens : v'.request.inputTokens = v.request.inputTokens
  maxTokens : v'.request.maxTokens = v.request.maxTokens
  stopSequences : v'.request.stopSequences = v.request.stopSequences
  outputTokens : v'.request.outputTokens = v.request.outputTokens
  outputText : v'.request.outputText = v.request.outputText
  finishReason : v'.request.finishReason = v.request.finishReason
  currentLen : v'.request.kvCache.currentLen = v.request.kvCache.currentLen
  maxSeqLen : v'.request.kvCache.maxSeqLen = v.request.kvCache.maxSeqLen
  delivered : v'.delivered = v.delivered
  queue : v'.queue = v.queue
  positions : v'.positions = v.positions
  decoding : v'.decoding = true → v.decoding = true ∧ (v.Placed → v'.Placed)
  isOver : v'.isOver = true → v.isOver = true

section Alike

variable {t : Tokenizer} {v v' : View}

/-- Alike views have the same limits. -/
theorem Alike.limited (h : Alike v v') : v'.Limited ↔ v.Limited := by
  rw [Limited, h.maxTokens, h.inputTokens, Limited]

/-- They have the same text. -/
theorem Alike.spoken (h : Alike v v') (t : Tokenizer) : v'.spoken t = v.spoken t := by
  rw [View.spoken, h.outputTokens, View.spoken]

/-- They have the same events. -/
theorem Alike.streamed (h : Alike v v') : v'.streamed = v.streamed := by
  rw [View.streamed, h.delivered, View.streamed]

/-- They have the same reason to stop. -/
theorem Alike.verdict (h : Alike v v') (t : Tokenizer) : v'.verdict t = v.verdict t := by
  rw [View.verdict, h.spoken, h.outputTokens, h.stopSequences, h.maxTokens, View.verdict]

/-- They had the same one after every token. -/
theorem Alike.verdictAt (h : Alike v v') (t : Tokenizer) (k : Nat) :
    v'.verdictAt t k = v.verdictAt t k := by
  rw [View.verdictAt, h.outputTokens, h.stopSequences, h.maxTokens, View.verdictAt]

/-- They have the same outcome. -/
theorem Outcome.alike (ho : v.Outcome t) (h : Alike v v') : v'.Outcome t where
  text := by
    rw [h.outputText, h.spoken, h.verdict]
    exact ho.text
  streamed := by
    rw [h.queue, h.streamed, h.spoken]
    exact ho.streamed
  limit hl := by
    rw [h.finishReason, h.outputTokens, h.maxTokens]
    exact ho.limit (h.limited.mp hl)

/-- They are within the same bounds. -/
theorem Bounded.alike (hb : v.Bounded t) (h : Alike v v') : v'.Bounded t where
  tokens hl := by
    rw [h.outputTokens, h.maxTokens]
    exact hb.tokens (h.limited.mp hl)
  cache hl := by
    rw [h.currentLen, h.maxSeqLen]
    exact hb.cache (h.limited.mp hl)
  positions hl := by
    rw [h.positions, h.maxSeqLen]
    exact hb.positions (h.limited.mp hl)
  steps := by
    rw [h.positions, h.inputTokens]
    exact hb.steps
  reason hl := by
    rw [h.finishReason, h.outputTokens, h.maxTokens]
    exact hb.reason (h.limited.mp hl)
  placed hd := (h.decoding hd).2 (hb.placed (h.decoding hd).1)
  earlier k hk := by
    rw [h.verdictAt]
    rw [h.outputTokens] at hk
    exact hb.earlier k hk
  outcome ho := (hb.outcome (h.isOver ho)).alike h
  heard := by
    rw [h.queue, h.streamed, h.spoken]
    exact hb.heard

/-- They are settled alike. -/
theorem Settled.alike (hs : v.Settled t) (h : Alike v v') : v'.Settled t :=
  ⟨hs.toBounded.alike h, hs.toOutcome.alike h⟩

/-- They are over alike. -/
theorem Alike.not_over (h : Alike v v') (hover : v.isOver = false) : v'.isOver = false := by
  cases ho : v'.isOver with
  | false => rfl
  | true =>
      have hwas := h.isOver ho
      rw [hover] at hwas
      cases hwas

/-- They are idle alike. -/
theorem Idle.alike (hi : Idle v) (h : Alike v v') : Idle v' where
  tokens := h.outputTokens.trans hi.tokens
  text := h.outputText.trans hi.text
  cache := h.currentLen.trans hi.cache
  reason := h.finishReason.trans hi.reason
  delivered := h.delivered.trans hi.delivered
  queue := by
    rw [h.queue]
    exact hi.queue
  positions := h.positions.trans hi.positions
  decoding := by
    cases hd : v'.decoding with
    | false => rfl
    | true =>
        have hdecoding := (h.decoding hd).1
        rw [hi.decoding] at hdecoding
        cases hdecoding
  notOver := h.not_over hi.notOver

/-- They are on the same course. -/
theorem Course.alike (hc : Course t v) (h : Alike v v') (hplaced : v.Placed → v'.Placed) :
    Course t v' where
  toBounded := hc.toBounded.alike h
  unfinished := h.finishReason.trans hc.unfinished
  written := by
    rw [h.currentLen, h.inputTokens, h.outputTokens]
    exact hc.written
  maxSeqLen := by
    rw [h.maxSeqLen, Request.contextLength, h.inputTokens, h.maxTokens]
    exact hc.maxSeqLen
  queue := by
    rw [h.queue]
    exact hc.queue
  lies := hplaced hc.lies
  ongoing := h.not_over hc.ongoing

/-- They go on alike. -/
theorem Going.alike (hg : Going t v) (h : Alike v v') (hplaced : v.Placed → v'.Placed) :
    Going t v' where
  toCourse := hg.toCourse.alike h hplaced
  text := by
    rw [h.outputText, h.spoken]
    exact hg.text
  streamed := by
    rw [h.queue, h.streamed, h.spoken]
    exact hg.streamed
  continues := by
    rw [h.verdict]
    exact hg.continues

/-- They run alike. -/
theorem Running.alike (hr : Running t v) (h : Alike v v') (hplaced : v.Placed → v'.Placed) :
    Running t v' where
  toGoing := hr.toGoing.alike h hplaced
  calls := by
    rw [h.positions, h.outputTokens]
    exact hr.calls

/-- They are ready alike. -/
theorem Ready.alike (hr : Ready t v) (h : Alike v v') (hplaced : v.Placed → v'.Placed) :
    Ready t v' where
  toGoing := hr.toGoing.alike h hplaced
  calls := by
    rw [h.positions, h.outputTokens]
    exact hr.calls

end Alike

/-- The view after another thread changed the state of the request. -/
def calm (v : View) : View := { v with decoding := false, isOver := false }

/-- What the other threads do leaves a view alike. -/
theorem calm_alike (v : View) : Alike v v.calm :=
  ⟨rfl, rfl, rfl, rfl, rfl, rfl, rfl, rfl, rfl, rfl, rfl, nofun, nofun⟩

section Calm

variable {t : Tokenizer} {v : View} {token : Int}

/-- They keep a request on its course. -/
theorem Course.calm (h : Course t v) : Course t v.calm := h.alike v.calm_alike id

/-- They leave a token that was appended. -/
theorem Appended.calm (h : Appended t token v) : Appended t token v.calm :=
  ⟨h.toCourse.calm, h.calls, h.text, h.streamed⟩

/-- They leave its text. -/
theorem Spoken.calm (h : Spoken t token v) : Spoken t token v.calm :=
  ⟨h.toCourse.calm, h.calls, h.text, h.streamed⟩

/-- They leave its event. -/
theorem Emitted.calm (h : Emitted t v) : Emitted t v.calm :=
  ⟨h.toCourse.calm, h.calls, h.text, h.streamed⟩

/-- They leave a request at rest. -/
theorem Resting.calm (h : Resting t v) : Resting t v.calm where
  toSettled := h.toSettled.alike v.calm_alike
  untouched ht := ⟨(h.untouched ht).1.alike v.calm_alike, (h.untouched ht).2⟩
  running ha := ⟨(h.running ha).1.alike v.calm_alike id, (h.running ha).2⟩

end Calm

end View

end Qwen
