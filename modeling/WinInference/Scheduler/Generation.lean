import WinInference.Scheduler.View

/-!
# The generation of one request

Every action of the decode thread on a request is one lemma here, from one
predicate on its view to the next.

A request goes from `Idle` through `Prepared`, `Furnished` and `Running` to a
loop of `Ready`, `Appended`, `Spoken` and `Emitted`, once for each token, and
from there to `Settled`, `Ended` and `Resting`.  `Running.call` fixes the
position of a decode call, `Ready.append` counts the token, `Spoken.push` is
where the stream and the text of the request grow apart or stay together, and
`Emitted.stops` and `Emitted.goes_on` are the two ways out of the stop check.
-/

namespace Qwen

namespace View

/-- Rewrite the request. -/
def edit (v : View) (f : Request → Request) : View := { v with request := f v.request }

/-- Record an event. -/
def record (v : View) (e : Event) : View := { v with history := v.history ++ [e] }

/-- What pushing an event may do: nothing when there is no queue or it is
closed, count a drop when it is full, else deliver. -/
inductive Pushed (event : TokenEvent) (v : View) : View → Prop where
  | ignored (h : ∀ closed dropped, v.queue = some (closed, dropped) → closed = true) :
      Pushed event v v
  | dropped (n : Nat) (h : v.queue = some (false, n)) :
      Pushed event v { v with queue := some (false, n + 1) }
  | delivered (n : Nat) (h : v.queue = some (false, n)) :
      Pushed event v { v with delivered := v.delivered ++ [event] }

section Steps

variable {t : Tokenizer} {v v' : View} {token : Int}

theorem positions_record (v : View) {e : Event}
    (he : ∀ r input pos, e ≠ .decodeCalled r input pos) :
    (v.record e).positions = v.positions := by
  cases e with
  | decodeCalled r input pos => exact absurd rfl (he r input pos)
  | _ => simp [positions, record]

theorem routings_record (v : View) {e : Event} (he : ∀ r n g, e ≠ .routed r n g) :
    (v.record e).routings = v.routings := by
  cases e with
  | routed r n g => exact absurd rfl (he r n g)
  | _ => simp [routings, record]

theorem taken_record (h : v.taken = true) (e : Event) : (v.record e).taken = true := by
  rw [taken, List.any_eq_true] at h ⊢
  obtain ⟨first, hmem, hfirst⟩ := h
  exact ⟨first, List.mem_append_left _ hmem, hfirst⟩

/-- Nothing was added but events no predicate reads. -/
structure Logged (v v' : View) : Prop where
  kept : v' = { v with history := v'.history }
  positions : v'.positions = v.positions
  routings : v'.routings = v.routings
  taken : v.taken = true → v'.taken = true

theorem Logged.refl (v : View) : Logged v v := ⟨rfl, rfl, rfl, id⟩

theorem Logged.record (v : View) {e : Event} (hcall : ∀ r input pos, e ≠ .decodeCalled r input pos)
    (hroute : ∀ r n g, e ≠ .routed r n g) : Logged v (v.record e) :=
  ⟨rfl, positions_record v hcall, routings_record v hroute, fun h => taken_record h e⟩

theorem Logged.placed (h : Logged v v') (hplaced : v.Placed) : v'.Placed := by
  rw [Placed, h.routings, h.kept]
  exact hplaced

theorem Logged.alike (h : Logged v v') : Alike v v' := by
  have hpositions := h.positions
  have hplaced := h.placed
  rw [h.kept] at hpositions hplaced ⊢
  exact ⟨rfl, rfl, rfl, rfl, rfl, rfl, rfl, rfl, rfl, rfl, hpositions, fun hd => ⟨hd, hplaced⟩,
    id⟩

/-! ### Prefill -/

/-- Routed, not yet allocated. -/
structure Prepared (decision : Option RoutingDecision) (v : View) : Prop extends Idle v where
  out : v.taken = true
  decided : v.routes = true → ∃ g : GPURouter, v.routings = [(v.request.contextLength, g)] ∧
    v.request.assignedDevices = (g.route v.request.contextLength).1.deviceIds ∧
    decision = some (g.route v.request.contextLength).1

/-- Allocated, the prompt not yet run. -/
structure Furnished (v : View) : Prop extends Idle v where
  out : v.taken = true
  maxSeqLen : v.request.kvCache.maxSeqLen = v.request.contextLength
  lies : v.Placed

/-- Without a router there is nothing to route. -/
theorem Idle.unrouted (h : Idle v) (htaken : v.taken = true) (hroutes : v.routes = false) :
    Prepared none v where
  toIdle := h
  out := htaken
  decided hr := absurd (hroutes.symm.trans hr) (by decide)

/-- The request is routed. -/
theorem Idle.route (h : Idle v) (htaken : v.taken = true) (hnone : v.routings = [])
    (r : RequestPtr) (g : GPURouter) :
    Prepared (some (g.route v.request.contextLength).1)
      ((v.edit (fun q =>
        { q with assignedDevices := (g.route v.request.contextLength).1.deviceIds })).record
          (.routed r v.request.contextLength g)) where
  toIdle := h.alike ⟨rfl, rfl, rfl, rfl, rfl, rfl, rfl, rfl, rfl, rfl,
    positions_record (v.edit _) (by simp), fun hd => absurd hd (by simp [record, edit, h.decoding]),
    id⟩
  out := taken_record htaken _
  decided _ := by
    refine ⟨g, ?_, rfl, rfl⟩
    have hrouted : ((v.edit (fun q =>
        { q with assignedDevices := (g.route v.request.contextLength).1.deviceIds })).record
          (.routed r v.request.contextLength g)).routings =
        v.routings ++ [(v.request.contextLength, g)] := by
      simp [routings, record, edit]
    rw [hrouted, hnone, List.nil_append]
    rfl

theorem Prepared.logged {decision : Option RoutingDecision} (h : Prepared decision v)
    (hlog : Logged v v') : Prepared decision v' where
  toIdle := h.toIdle.alike hlog.alike
  out := hlog.taken h.out
  decided := by
    rw [hlog.routings, hlog.kept]
    exact h.decided

/-- The cache is allocated where the decision leads. -/
theorem Prepared.furnish {decision : Option RoutingDecision} (h : Prepared decision v)
    {handle : KVCacheHandle} (hmax : handle.maxSeqLen = v.request.contextLength)
    (hcur : handle.currentLen = 0)
    (hdevices : ∀ x, decision = some x → handle.devices = deviceOf v.home x) :
    Furnished (v.edit (fun q => { q with kvCache := handle })) where
  toIdle := ⟨h.tokens, h.text, hcur, h.reason, h.delivered, h.queue, h.positions, h.decoding,
    h.notOver⟩
  out := h.out
  maxSeqLen := hmax
  lies hroutes := by
    obtain ⟨g, hrouted, hassigned, hdecision⟩ := h.decided hroutes
    exact ⟨g, hrouted, hassigned, hdevices _ hdecision⟩

theorem Furnished.logged (h : Furnished v) (hlog : Logged v v') : Furnished v' where
  toIdle := h.toIdle.alike hlog.alike
  out := hlog.taken h.out
  maxSeqLen := by
    rw [hlog.kept]
    exact h.maxSeqLen
  lies := hlog.placed h.lies

/-- The prefill logits and the write position are stored. -/
theorem Furnished.store (h : Furnished v) (logits : Logits) :
    Running t (v.edit (fun q =>
      { q with
        prefillLogits := logits
        kvCache := { q.kvCache with currentLen := q.inputTokens.length } })) := by
  have hb := h.toIdle.bounded t
  have ho := (h.toIdle.settled t).toOutcome
  have hverdict := h.toIdle.verdict_eq t
  have hmax := h.maxSeqLen
  refine ⟨⟨⟨⟨hb.tokens, fun hl => ?_, hb.positions, hb.steps, hb.reason, fun _ => h.lies,
    hb.earlier, fun hover => ?_, hb.heard⟩, h.reason, ?_, hmax, h.queue, h.lies, h.notOver⟩, ?_,
    ho.streamed, ?_⟩, ?_⟩
  · have hctx : (v.request.contextLength : Int) =
        v.request.inputTokens.length + v.request.maxTokens := Limited.contextLength (v := v) hl
    have hone : 1 ≤ v.request.maxTokens := hl.1
    show v.request.inputTokens.length ≤ v.request.kvCache.maxSeqLen
    omega
  · exact absurd hover (by simp [edit, h.notOver])
  · have hlength : v.request.outputTokens.length = 0 := by rw [h.tokens]; rfl
    show Written v.request.inputTokens.length v.request.inputTokens.length
      v.request.outputTokens.length
    rw [hlength]
    exact Written.start _
  · show v.request.outputText = v.request.outputTokens.flatMap t.tokenText
    rw [h.text, h.tokens]
    rfl
  · show (v.verdict t).shouldStop = false
    rw [hverdict]
  · show v.positions.length = v.request.outputTokens.length - 1
    rw [h.positions, h.tokens]
    rfl

/-! ### One token -/

/-- The first token needs no decode call. -/
theorem Running.ready_first (h : Running t v) (hfirst : v.request.outputTokens = []) :
    Ready t v where
  toGoing := h.toGoing
  calls := by
    rw [h.calls, hfirst]
    rfl

/-- A decode call writes at the position after those already written. -/
theorem Running.call (h : Running t v) (hnext : v.request.outputTokens ≠ []) (r : RequestPtr)
    (input : Int) :
    Ready t (v.record (.decodeCalled r input (toInt32 v.request.kvCache.currentLen))) := by
  generalize hcalled : v.record (.decodeCalled r input (toInt32 v.request.kvCache.currentLen)) = v'
  have hpositions : v'.positions = v.positions ++ [toInt32 v.request.kvCache.currentLen] := by
    rw [← hcalled]
    simp [positions, record]
  have hrequest : v'.request = v.request := by rw [← hcalled]; rfl
  have hplaced : v'.Placed := by
    have hroutings : v'.routings = v.routings := by
      rw [← hcalled, routings_record v (by simp)]
    rw [Placed, hroutings, hrequest, ← hcalled]
    exact h.lies
  have hlimited : v'.Limited → v.Limited := by rw [Limited, hrequest]; exact id
  have hbounded : v'.Bounded t := by
    refine ⟨?_, ?_, fun hl pos hpos => ?_, fun j pos hpos => ?_, ?_, fun _ => hplaced, ?_, ?_, ?_⟩
    · rw [hrequest]
      exact fun hl => h.tokens (hlimited hl)
    · rw [hrequest]
      exact fun hl => h.cache (hlimited hl)
    · have hl' := hlimited hl
      rw [hrequest]
      rw [hpositions, List.mem_append, List.mem_singleton] at hpos
      obtain hpos | hpos := hpos
      · exact h.positions hl' pos hpos
      · have hbelow := h.below hl'
        have hctx := hl'.contextLength
        have hcur := h.written.limited hl' (h.tokens hl')
        have hmax := h.maxSeqLen
        have hlt := hl'.2
        rw [hpos, show toInt32 v.request.kvCache.currentLen = v.request.kvCache.currentLen from
          Wrapping.toSigned_of_lt (by omega)]
        omega
    · rw [hrequest]
      rw [hpositions] at hpos
      by_cases hj : j < v.positions.length
      · rw [List.getElem?_append_left hj] at hpos
        exact h.steps j pos hpos
      · rw [List.getElem?_append_right (by omega)] at hpos
        obtain ⟨hlt, hpos⟩ := List.getElem?_eq_some_iff.mp hpos
        have hpos' : pos = toInt32 v.request.kvCache.currentLen := by
          rw [← hpos, List.getElem_singleton]
        have hlength : 0 < v.request.outputTokens.length := List.length_pos_iff.mpr hnext
        have hcalls := h.calls
        rw [List.length_singleton] at hlt
        have hposition : ((v.request.inputTokens.length : Int) + v.request.outputTokens.length) =
            v.request.inputTokens.length + 1 + j := by omega
        rw [hpos', h.written.position, hposition]
    · rw [hrequest]
      exact fun hl => h.reason (hlimited hl)
    · rw [hrequest]
      unfold verdictAt
      rw [hrequest]
      exact h.earlier
    · intro hover
      exact absurd hover (by simp [← hcalled, record, h.ongoing])
    · rw [spoken, hrequest, ← hcalled]
      exact h.heard
  refine ⟨⟨⟨hbounded, ?_, ?_, ?_, ?_, hplaced, ?_⟩, ?_, ?_, ?_⟩, ?_⟩
  · rw [hrequest]
    exact h.unfinished
  · rw [hrequest]
    exact h.written
  · rw [hrequest]
    exact h.maxSeqLen
  · rw [← hcalled]
    exact h.queue
  · rw [← hcalled]
    exact h.ongoing
  · rw [spoken, hrequest]
    exact h.text
  · rw [← hcalled]
    exact h.streamed
  · rw [verdict, spoken, hrequest]
    exact h.continues
  · have hlength : 0 < v.request.outputTokens.length := List.length_pos_iff.mpr hnext
    rw [hpositions, List.length_append, h.calls, hrequest, List.length_singleton]
    omega

/-- The check after the last token so far is an earlier one from now on. -/
theorem Going.earlier_append (h : Going t v) (token : Int) :
    ∀ k < (v.request.outputTokens ++ [token]).length,
      (StopChecker.check t ((v.request.outputTokens ++ [token]).take k)
        (((v.request.outputTokens ++ [token]).take k).flatMap t.tokenText)
        { stopSequences := v.request.stopSequences
          maxTokens := v.request.maxTokens }).shouldStop = false := by
  intro k hk
  rw [List.length_append, List.length_singleton] at hk
  rw [List.take_append_of_le_length (by omega)]
  rcases Nat.lt_or_ge k v.request.outputTokens.length with hlt | hge
  · exact h.earlier k hlt
  · rw [List.take_of_length_le hge]
    exact h.continues

/-- Moving past a token leaves room for it: the token limit and the cache size
are not exceeded. -/
theorem Ready.append (h : Ready t v) (token : Int) :
    Appended t token (v.edit (fun q =>
      { q with
        outputTokens := q.outputTokens ++ [token]
        kvCache := { q.kvCache with currentLen := sizeAdd q.kvCache.currentLen 1 } })) := by
  have hspoken : (v.request.outputTokens ++ [token]).flatMap t.tokenText =
      v.spoken t ++ t.tokenText token := by
    rw [List.flatMap_append, List.flatMap_singleton, spoken]
  refine ⟨⟨⟨fun hl => ?_, fun hl => ?_, h.positions, h.steps, fun _ hreason => ?_,
    fun _ => h.lies, ?_, fun hover => ?_, fun closed hqueue => ?_⟩, h.unfinished, ?_,
    h.maxSeqLen, h.queue, h.lies, h.ongoing⟩, ?_, ?_, ?_⟩
  · have hbelow : v.request.outputTokens.length < v.request.maxTokens := h.below hl
    show ((v.request.outputTokens ++ [token]).length : Int) ≤ v.request.maxTokens
    rw [List.length_append, List.length_singleton]
    omega
  · have hl' : v.Limited := hl
    have hbelow := h.below hl'
    have hctx := hl'.contextLength
    have hcur := h.written.limited hl' (h.tokens hl')
    have hmax := h.maxSeqLen
    have hlt := hl'.2
    show sizeAdd v.request.kvCache.currentLen 1 ≤ v.request.kvCache.maxSeqLen
    rw [sizeAdd, Wrapping.add_of_lt (by omega)]
    omega
  · exact absurd (hreason.symm.trans h.unfinished) (by decide)
  · exact h.earlier_append token
  · exact absurd hover (by simp [edit, h.ongoing])
  · show v.streamed <+: (v.request.outputTokens ++ [token]).flatMap t.tokenText
    rw [hspoken]
    exact (h.heard closed hqueue).trans (List.prefix_append _ _)
  · show Written (sizeAdd v.request.kvCache.currentLen 1) v.request.inputTokens.length
      (v.request.outputTokens ++ [token]).length
    rw [List.length_append, List.length_singleton]
    exact h.written.next
  · show v.positions.length = (v.request.outputTokens ++ [token]).length - 1
    rw [h.calls, List.length_append, List.length_singleton, Nat.add_sub_cancel]
  · show v.request.outputText ++ t.tokenText token =
      (v.request.outputTokens ++ [token]).flatMap t.tokenText
    rw [hspoken, h.text]
  · intro closed hqueue
    show v.streamed ++ t.tokenText token = (v.request.outputTokens ++ [token]).flatMap t.tokenText
    rw [hspoken, h.streamed closed hqueue]

/-- The text of the token is appended. -/
theorem Appended.say (h : Appended t token v) :
    Spoken t token (v.edit (fun q =>
      { q with outputText := q.outputText ++ t.tokenText token })) where
  toCourse :=
    ⟨⟨h.tokens, h.cache, h.positions, h.steps, h.reason, h.placed, h.earlier,
      fun hover => absurd hover (by simp [edit, h.ongoing]), h.heard⟩,
      h.unfinished, h.written, h.maxSeqLen, h.queue, h.lies, h.ongoing⟩
  calls := h.calls
  text := h.text
  streamed := h.streamed

/-- What a push changes of a view. -/
theorem Pushed.kept {event : TokenEvent} (h : Pushed event v v') :
    v' = { v with delivered := v'.delivered, queue := v'.queue } := by
  cases h <;> rfl

/-- A push neither opens nor closes a queue. -/
theorem Pushed.closed {event : TokenEvent} (h : Pushed event v v') {closed : Bool} {n : Nat}
    (hqueue : v'.queue = some (closed, n)) : ∃ n', v.queue = some (closed, n') := by
  cases h with
  | ignored => exact ⟨n, hqueue⟩
  | dropped n' h =>
      obtain ⟨rfl, -⟩ := Prod.mk.inj (Option.some.inj hqueue)
      exact ⟨n', h⟩
  | delivered n' h => exact ⟨n, hqueue⟩

/-- As long as nothing is dropped, what is pushed to an open queue arrives. -/
theorem Pushed.streamed {event : TokenEvent} (h : Pushed event v v') {closed : Bool}
    (hqueue : v'.queue = some (closed, 0)) :
    v.queue = some (closed, 0) ∧
      v'.streamed = if closed then v.streamed else v.streamed ++ event.text := by
  cases h with
  | ignored hclosed =>
      refine ⟨hqueue, ?_⟩
      rw [hclosed closed 0 hqueue, if_pos rfl]
  | dropped n _ =>
      obtain ⟨-, hn⟩ := Prod.mk.inj (Option.some.inj hqueue)
      exact absurd hn (Nat.succ_ne_zero n)
  | delivered n hopen =>
      refine ⟨hqueue, ?_⟩
      obtain ⟨hclosed, -⟩ := Prod.mk.inj (Option.some.inj (hopen.symm.trans hqueue))
      rw [← hclosed, if_neg Bool.false_ne_true, View.streamed, View.streamed,
        List.flatMap_append, List.flatMap_singleton]

/-- The event of the token is pushed. -/
theorem Spoken.push (h : Spoken t token v) (hp : Pushed (.token token (t.tokenText token)) v v') :
    Emitted t v' := by
  have hopen : ∀ closed n, v'.queue = some (closed, n) → closed = false := by
    intro closed n hqueue
    obtain ⟨n', hwas⟩ := hp.closed hqueue
    exact h.queue closed n' hwas
  have hstreamed : ∀ closed, v'.queue = some (closed, 0) → v'.streamed = v.spoken t := by
    intro closed hqueue
    obtain ⟨hwas, heq⟩ := hp.streamed hqueue
    rw [heq, hopen closed 0 hqueue, if_neg Bool.false_ne_true]
    exact h.streamed closed hwas
  rw [hp.kept] at hopen hstreamed ⊢
  exact ⟨⟨⟨h.tokens, h.cache, h.positions, h.steps, h.reason, h.placed, h.earlier,
    fun hover => absurd hover (by simp [h.ongoing]),
    fun closed hqueue => hstreamed closed hqueue ▸ List.prefix_rfl⟩, h.unfinished, h.written, h.maxSeqLen,
    hopen, h.lies, h.ongoing⟩, h.calls, h.text, hstreamed⟩

/-- What the stop check looks at. -/
theorem Emitted.check_eq (h : Emitted t v) :
    StopChecker.check t v.request.outputTokens v.request.outputText
      { stopSequences := v.request.stopSequences, maxTokens := v.request.maxTokens } =
      v.verdict t := by
  rw [h.text, verdict]

/-- The stop check lets generation go on. -/
theorem Emitted.goes_on (h : Emitted t v) (hgo : (v.verdict t).shouldStop = false) :
    Running t v :=
  ⟨⟨h.toCourse, h.text, h.streamed, hgo⟩, h.calls⟩

/-- The stop check ends generation. -/
theorem Emitted.stops (h : Emitted t v) (text : Bytes)
    (htext : text = StopChecker.trimStopSequence v.request.outputText
      (v.verdict t).matchedStopSequence) :
    Settled t (v.edit (fun q =>
      { q with finishReason := (v.verdict t).reason, outputText := text })) where
  toBounded :=
    ⟨h.tokens, h.cache, h.positions, h.steps,
      fun hl hreason => (verdict_length (v := v) t hl (h.tokens hl)).mp hreason, h.placed,
      h.earlier,
      fun hover => absurd hover (by simp [edit, h.ongoing]), h.heard⟩
  text := by
    show text = StopChecker.trimStopSequence (v.spoken t) (v.verdict t).matchedStopSequence
    rw [htext, h.text]
  streamed := h.streamed
  limit hl hlength := (verdict_length (v := v) t hl (h.tokens hl)).mpr hlength

/-- Taking the prefill logits out of the request does not show. -/
theorem Running.take (h : Running t v) (logits : Logits) :
    Running t (v.edit (fun q => { q with prefillLogits := logits })) :=
  h.alike ⟨rfl, rfl, rfl, rfl, rfl, rfl, rfl, rfl, rfl, rfl, rfl, fun hd => ⟨hd, id⟩, id⟩ id

/-- The request starts decoding. -/
theorem Running.decode (h : Running t v) :
    Running t { v with decoding := true, isOver := false } :=
  ⟨⟨⟨⟨h.tokens, h.cache, h.positions, h.steps, h.toBounded.reason, fun _ => h.lies,
    h.earlier, nofun, h.heard⟩,
    h.unfinished, h.written, h.maxSeqLen, h.queue, h.lies, rfl⟩, h.text, h.streamed,
    h.continues⟩, h.calls⟩

/-! ### The end -/

/-- On its way out of the scheduler. -/
structure Ended (t : Tokenizer) (v : View) : Prop extends Settled t v where
  out : v.taken = true
  stopped : v.decoding = false

theorem Ended.alike (h : Ended t v) (ha : Alike v v') (htaken : v.taken = true → v'.taken = true) :
    Ended t v' where
  toSettled := h.toSettled.alike ha
  out := htaken h.out
  stopped := by
    cases hd : v'.decoding with
    | false => rfl
    | true =>
        have hwas := (ha.decoding hd).1
        rw [h.stopped] at hwas
        cases hwas

theorem Idle.ended (h : Idle v) (htaken : v.taken = true) : Ended t v :=
  ⟨h.settled t, htaken, h.decoding⟩

/-- The finish reason of a request that is cancelled between two tokens. -/
theorem Going.cancel (h : Going t v) :
    Settled t (v.edit (fun q => { q with finishReason := .stop })) where
  toBounded :=
    ⟨h.tokens, h.cache, h.positions, h.steps, fun _ hreason =>
      absurd (show FinishReason.stop = .length from hreason) (by decide),
      h.placed, h.earlier, fun hover => absurd hover (by simp [edit, h.ongoing]), h.heard⟩
  text := h.settled.text
  streamed := h.streamed
  limit hl hlength := absurd hlength (ne_of_lt (h.below hl))

/-- The request becomes terminal. -/
theorem Settled.finish (h : Settled t v) (htaken : v.taken = true) :
    Ended t { v with decoding := false, isOver := true } :=
  ⟨⟨⟨h.tokens, h.cache, h.positions, h.steps, h.reason, nofun, h.earlier,
    fun _ => ⟨h.text, h.streamed, h.limit⟩, h.heard⟩, h.text, h.streamed, h.limit⟩, htaken, rfl⟩

/-- The terminal event is pushed. -/
theorem Ended.push (h : Ended t v) {event : TokenEvent} (htext : event.text = [])
    (hp : Pushed event v v') : Ended t v' := by
  have hstreamed : ∀ closed, v'.queue = some (closed, 0) → v'.streamed = v.spoken t := by
    intro closed hqueue
    obtain ⟨hwas, heq⟩ := hp.streamed hqueue
    rw [heq, htext, List.append_nil, ite_self]
    exact h.streamed closed hwas
  rw [hp.kept] at hstreamed ⊢
  exact ⟨⟨⟨h.tokens, h.cache, h.positions, h.steps, h.reason, h.placed, h.earlier,
    fun _ => ⟨h.text, hstreamed, h.limit⟩,
    fun closed hqueue => hstreamed closed hqueue ▸ List.prefix_rfl⟩,
    h.text, hstreamed, h.limit⟩, h.out, h.stopped⟩

/-- The queue is closed. -/
theorem Ended.close (h : Ended t v) :
    Ended t { v with queue := v.queue.map (fun q => (true, q.2)) } := by
  have hstreamed : ∀ closed, v.queue.map (fun q => (true, q.2)) = some (closed, 0) →
      v.streamed = v.spoken t := by
    intro closed hqueue
    obtain ⟨⟨was, n⟩, hwas, heq⟩ := Option.map_eq_some_iff.mp hqueue
    obtain ⟨-, rfl⟩ := Prod.mk.inj heq
    exact h.streamed was hwas
  exact ⟨⟨⟨h.tokens, h.cache, h.positions, h.steps, h.reason, h.placed, h.earlier,
    fun _ => ⟨h.text, hstreamed, h.limit⟩,
    fun closed hqueue => hstreamed closed hqueue ▸ List.prefix_rfl⟩,
    h.text, hstreamed, h.limit⟩, h.out, h.stopped⟩

/-- The cache is freed. -/
theorem Ended.release (h : Ended t v) {handle : KVCacheHandle}
    (hmax : handle.maxSeqLen = v.request.kvCache.maxSeqLen)
    (hcur : handle.currentLen = v.request.kvCache.currentLen) :
    Ended t (v.edit (fun q => { q with kvCache := handle })) :=
  h.alike ⟨rfl, rfl, rfl, rfl, rfl, rfl, hcur, hmax, rfl, rfl, rfl,
    fun hd => absurd hd (by simp [edit, h.stopped]), id⟩ id

/-- The request is struck off the active list. -/
theorem Ended.strike (h : Ended t v) : Resting t { v with active := false } where
  toSettled := h.toSettled.alike
    ⟨rfl, rfl, rfl, rfl, rfl, rfl, rfl, rfl, rfl, rfl, rfl, fun hd => ⟨hd, id⟩, id⟩
  untouched ht := absurd (h.out.symm.trans ht) (by decide)
  running := nofun

theorem Running.resting (h : Running t v) (htaken : v.taken = true) : Resting t v where
  toSettled := h.settled
  untouched ht := absurd (htaken.symm.trans ht) (by decide)
  running _ := ⟨h, htaken⟩

end Steps

end View

end Qwen
