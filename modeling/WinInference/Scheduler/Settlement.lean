import WinInference.Scheduler.Decoding
import WinInference.Scheduler.Delivery

/-!
# How a request ends

The decode thread stores the reason or the error of a request before its
terminal state, and offers the terminal event after it.  So whoever finds a
request terminal, or takes its terminal event off the queue, finds the rest of
its result in place; and nothing touches that result any more.

`Coherent` is what holds at every moment, and `Tidy` what the decode thread
leaves behind between two requests: the result is undecided, or it has been
ruled.  `decodeLoop_tidy` keeps it, `coherent_run` is the run, and
`result_stays` says that a result is never changed.
-/

namespace Qwen

open Concurrency Concurrency.Program

/-- What is over is terminal. -/
theorem RequestState.isTerminal_of_isOver {st : RequestState} (h : st.isOver = true) :
    st.isTerminal = true := by
  cases st <;> first | rfl | cases h

/-- Only the decode thread ends a request so. -/
theorem RequestState.late_of_isOver {st : RequestState} (h : st.isOver = true) :
    st.late = true := by
  cases st <;> first | rfl | cases h

namespace Request

/-- The terminal event that the fields of a request call for. -/
def ending (q : Request) : Option TokenEvent :=
  match q.state, q.error with
  | .completed, none => some (.complete q.finishReason)
  | .errored, some error => some (.error error)
  | _, _ => none

/-- What an answer is made of. -/
def result (q : Request) :
    RequestState × Option Error × FinishReason × Bytes × List Int × List Int :=
  (q.state, q.error, q.finishReason, q.outputText, q.outputTokens, q.inputTokens)

section Result

variable {q q' : Request}

/-- The result has the state. -/
theorem state_of_result (h : q'.result = q.result) : q'.state = q.state := congrArg Prod.fst h

/-- The result has the error. -/
theorem error_of_result (h : q'.result = q.result) : q'.error = q.error := congrArg (·.2.1) h

/-- The result decides the terminal event. -/
theorem ending_of_result (h : q'.result = q.result) : q'.ending = q.ending := by
  have hreason : q'.finishReason = q.finishReason := congrArg (·.2.2.1) h
  rw [ending, state_of_result h, error_of_result h, hreason, ending]

/-- Only a request that is over calls for a terminal event. -/
theorem isOver_of_ending {event : TokenEvent} (h : q.ending = some event) :
    q.state.isOver = true := by
  unfold ending at h
  split at h
  next hstate _ => rw [hstate]; rfl
  next hstate _ => rw [hstate]; rfl
  next => cases h

end Result

end Request

namespace Scheduler

variable {A : Type}

/-! ## What an action tells about a request -/

/-- Nothing about `r` changes that its client could learn. -/
structure Untold (r : RequestPtr) (s s' : Scheduler A) : Prop where
  result : (s'.requests r).result = (s.requests r).result
  unheard : Unheard r s s'
  pushed : s'.pushed = s.pushed
  dequeued : s'.dequeued = s.dequeued

/-- The action leaves alone whether `r` was pushed, its state and its error. -/
structure Aside (r : RequestPtr) (s s' : Scheduler A) : Prop where
  pushed : r ∈ s'.pushed ↔ r ∈ s.pushed
  state : (s'.requests r).state = (s.requests r).state
  error : (s'.requests r).error = (s.requests r).error

/-- What the other threads do as the decode thread sees it: `r` is handed over
queued and without an error, and left alone from then on. -/
structure Entrusts (r : RequestPtr) (s s' : Scheduler A) : Prop where
  interference : Interference s s'
  aside : r ∈ s.pushed → Aside r s s'
  arrives : r ∉ s.pushed → r ∈ s'.pushed →
    (s'.requests r).error = none ∧ (s'.requests r).state = .queued

section Actions

variable {q r : RequestPtr} {s s' s'' : Scheduler A}

/-- Nothing new has been delivered to the client. -/
theorem Unheard.delivered (h : Unheard r s s') : s'.delivered r = s.delivered r := by
  have hpopped : s'.trace.filterMap (Event.poppedOff r) = s.trace.filterMap (Event.poppedOff r) :=
    h.popped
  rw [Scheduler.delivered, hpopped, h.queue, Scheduler.delivered]

/-- A push delivers at most its own event. -/
theorem mem_delivered_pushEvent {event e : TokenEvent}
    (h : e ∈ (s.pushEvent r event).delivered r) : e ∈ s.delivered r ∨ e = event := by
  cases hqueue : (s.requests r).tokenQueue with
  | none =>
      left
      simpa [Scheduler.delivered, pushEvent, modify, hqueue] using h
  | some t =>
      obtain ⟨heq, -, -⟩ | ⟨-, hevents, -⟩ := t.push_cases event
      · have hsplit : e ∈ s.trace.filterMap (Event.poppedOff r) ++ (t.events ++ [event]) := by
          simpa [Scheduler.delivered, pushEvent, modify, hqueue, heq] using h
        rw [← List.append_assoc] at hsplit
        rcases List.mem_append.mp hsplit with hold | hnew
        · left
          simpa [Scheduler.delivered, hqueue] using hold
        · exact Or.inr (List.mem_singleton.mp hnew)
      · left
        simpa [Scheduler.delivered, pushEvent, modify, hqueue, hevents] using h

/-- A close delivers nothing. -/
theorem delivered_closeQueue (s : Scheduler A) (r : RequestPtr) :
    (s.closeQueue r).delivered r = s.delivered r := by
  cases hqueue : (s.requests r).tokenQueue <;>
    simp [Scheduler.delivered, closeQueue, modify, hqueue, TokenQueue.close]

/-- No step tells nothing. -/
theorem Untold.refl (r : RequestPtr) (s : Scheduler A) : Untold r s s :=
  ⟨rfl, Unheard.refl r s, rfl, rfl⟩

/-- Steps that tell nothing can be chained. -/
theorem Untold.trans (h : Untold r s s') (h' : Untold r s' s'') : Untold r s s'' :=
  ⟨h'.result.trans h.result, h.unheard.trans h'.unheard, h'.pushed.trans h.pushed,
    h'.dequeued.trans h.dequeued⟩

/-- The client learns from the requests and the history alone. -/
theorem Untold.of_eq (hrequests : s'.requests = s.requests) (htrace : s'.trace = s.trace) :
    Untold r s s' :=
  ⟨by rw [hrequests], .of_eq hrequests htrace, by rw [Scheduler.pushed, htrace, Scheduler.pushed],
    by rw [Scheduler.dequeued, htrace, Scheduler.dequeued]⟩

/-- What the decode thread does for another request. -/
theorem Works.untold (h : Works q s s') (hr : r ≠ q) : Untold r s s' :=
  ⟨by rw [h.requests r hr], h.unheard hr, h.pushed, h.dequeued⟩

theorem Aside.refl (r : RequestPtr) (s : Scheduler A) : Aside r s s := ⟨Iff.rfl, rfl, rfl⟩

theorem Aside.trans (h : Aside r s s') (h' : Aside r s' s'') : Aside r s s'' :=
  ⟨h'.pushed.trans h.pushed, h'.state.trans h.state, h'.error.trans h.error⟩

/-- What tells nothing leaves state and error alone. -/
theorem Untold.aside (h : Untold r s s') : Aside r s s' :=
  ⟨by rw [h.pushed], Request.state_of_result h.result, Request.error_of_result h.result⟩

theorem Entrusts.refl (r : RequestPtr) (s : Scheduler A) : Entrusts r s s :=
  ⟨Interference.refl s, fun _ => Aside.refl r s, fun hun hpushed => absurd hpushed hun⟩

theorem Entrusts.trans (h : Entrusts r s s') (h' : Entrusts r s' s'') : Entrusts r s s'' := by
  refine ⟨h.interference.trans h'.interference, fun hpushed => ?_, fun hun hpushed => ?_⟩
  · have haside := h.aside hpushed
    exact haside.trans (h'.aside (haside.pushed.mpr hpushed))
  · by_cases hmid : r ∈ s'.pushed
    · have haside := h'.aside hmid
      obtain ⟨herror, hstate⟩ := h.arrives hun hmid
      exact ⟨haside.error.trans herror, haside.state.trans hstate⟩
    · exact h'.arrives hmid hpushed

end Actions

/-! ## The stages of a request -/

/-- Not ended, and if pushed then without an error. -/
structure Undecided (r : RequestPtr) (s : Scheduler A) : Prop where
  notOver : (s.requests r).state.isOver = false
  sound : r ∈ s.pushed → (s.requests r).error = none ∧ (s.requests r).isTerminal = false
  unended : ∀ e ∈ s.delivered r, e.isTerminal = false

/-- In the hands of the decode thread, with this error stored. -/
structure Deciding (r : RequestPtr) (error : Option Error) (s : Scheduler A) : Prop where
  error_eq : (s.requests r).error = error
  going : (s.requests r).isTerminal = false
  unended : ∀ e ∈ s.delivered r, e.isTerminal = false
  pushed : r ∈ s.pushed
  dequeued : r ∈ s.dequeued

/-- Ended, with this terminal event to offer: none other was offered. -/
structure Ruled (r : RequestPtr) (event : TokenEvent) (s : Scheduler A) : Prop where
  ending : (s.requests r).ending = some event
  offered : ∀ e ∈ s.delivered r, e.isTerminal = true → e = event
  pushed : r ∈ s.pushed
  dequeued : r ∈ s.dequeued

/-- Between two requests of the decode thread. -/
def Tidy (r : RequestPtr) (s : Scheduler A) : Prop :=
  Undecided r s ∨ ∃ event, Ruled r event s

/-- What holds at every moment: a request that is over has its result in place,
and before that no terminal event was offered. -/
structure Coherent (r : RequestPtr) (s : Scheduler A) : Prop where
  ruled : (s.requests r).state.isOver = true → ∃ event, Ruled r event s
  unended : (s.requests r).state.isOver = false → ∀ e ∈ s.delivered r, e.isTerminal = false
  terminal : r ∈ s.pushed → (s.requests r).isTerminal = true →
    (s.requests r).state.isOver = true

section Stages

variable {r : RequestPtr} {s s' : Scheduler A} {error : Option Error} {event : TokenEvent}

/-- A request in the hands of the decode thread has not ended. -/
theorem Deciding.notOver (h : Deciding r error s) : (s.requests r).state.isOver = false := by
  cases hover : (s.requests r).state.isOver with
  | false => rfl
  | true =>
      have hgoing : (s.requests r).state.isTerminal = false := h.going
      rw [RequestState.isTerminal_of_isOver hover] at hgoing
      cases hgoing

/-- Before its end a request has nothing to tell. -/
theorem Undecided.coherent (h : Undecided r s) : Coherent r s where
  ruled hover := by
    rw [h.notOver] at hover
    cases hover
  unended _ := h.unended
  terminal hpushed hterminal := by
    rw [(h.sound hpushed).2] at hterminal
    cases hterminal

/-- The same while the decode thread has it. -/
theorem Deciding.coherent (h : Deciding r error s) : Coherent r s where
  ruled hover := by
    rw [h.notOver] at hover
    cases hover
  unended _ := h.unended
  terminal _ hterminal := by
    rw [h.going] at hterminal
    cases hterminal

/-- A ruled request has ended. -/
theorem Ruled.isOver (h : Ruled r event s) : (s.requests r).state.isOver = true :=
  Request.isOver_of_ending h.ending

/-- A ruled request has the result that its event tells. -/
theorem Ruled.coherent (h : Ruled r event s) : Coherent r s where
  ruled _ := ⟨event, h⟩
  unended hover := by
    rw [h.isOver] at hover
    cases hover
  terminal _ _ := h.isOver

/-- Between two requests every request is coherent. -/
theorem Tidy.coherent (h : Tidy r s) : Coherent r s := by
  obtain hs | ⟨event, hs⟩ := h
  · exact hs.coherent
  · exact hs.coherent

/-- An undecided request that the decode thread takes. -/
theorem Undecided.deciding (h : Undecided r s) (hpushed : r ∈ s.pushed)
    (hdequeued : r ∈ s.dequeued) : Deciding r none s :=
  ⟨(h.sound hpushed).1, (h.sound hpushed).2, h.unended, hpushed, hdequeued⟩

/-- Without an error stored, nothing is decided. -/
theorem Deciding.undecided (h : Deciding r none s) : Undecided r s :=
  ⟨h.notOver, fun _ => ⟨h.error_eq, h.going⟩, h.unended⟩

/-! ### Other threads -/

/-- The other threads decide nothing. -/
theorem Undecided.entrusts (h : Undecided r s) (he : Entrusts r s s') : Undecided r s' where
  notOver := by
    cases hover : (s'.requests r).state.isOver with
    | false => rfl
    | true =>
        have hsame := he.interference.late r (RequestState.late_of_isOver hover)
        rw [hsame, h.notOver] at hover
        cases hover
  sound hpushed := by
    by_cases hbefore : r ∈ s.pushed
    · have haside := he.aside hbefore
      obtain ⟨herror, hgoing⟩ := h.sound hbefore
      refine ⟨haside.error.trans herror, ?_⟩
      rw [Request.isTerminal, haside.state]
      exact hgoing
    · obtain ⟨herror, hstate⟩ := he.arrives hbefore hpushed
      refine ⟨herror, ?_⟩
      rw [Request.isTerminal, hstate]
      rfl
  unended := by
    rw [he.interference.delivered r]
    exact h.unended

/-- They leave a request to the decode thread that has it. -/
theorem Deciding.entrusts (h : Deciding r error s) (he : Entrusts r s s') :
    Deciding r error s' := by
  have haside := he.aside h.pushed
  refine ⟨haside.error.trans h.error_eq, ?_, ?_, haside.pushed.mpr h.pushed, ?_⟩
  · rw [Request.isTerminal, haside.state]
    exact h.going
  · rw [he.interference.delivered r]
    exact h.unended
  · rw [he.interference.dequeued]
    exact h.dequeued

/-- Once a request is pushed, other threads leave its result alone. -/
theorem Entrusts.result (he : Entrusts r s s') (hpushed : r ∈ s.pushed) :
    (s'.requests r).result = (s.requests r).result := by
  have haside := he.aside hpushed
  have hcore := he.interference.core r
  have hreason : (s'.requests r).finishReason = (s.requests r).finishReason :=
    congrArg (·.finishReason) hcore
  have htext : (s'.requests r).outputText = (s.requests r).outputText :=
    congrArg (·.outputText) hcore
  have houtput : (s'.requests r).outputTokens = (s.requests r).outputTokens :=
    congrArg (·.outputTokens) hcore
  have hinput := he.interference.inputTokens r
  simp only [Request.result, haside.state, haside.error, hreason, htext, houtput, hinput]

/-- They leave an end as it is. -/
theorem Ruled.entrusts (h : Ruled r event s) (he : Entrusts r s s') :
    Ruled r event s' := by
  refine ⟨?_, ?_, (he.aside h.pushed).pushed.mpr h.pushed, ?_⟩
  · rw [Request.ending_of_result (he.result h.pushed)]
    exact h.ending
  · rw [he.interference.delivered r]
    exact h.offered
  · rw [he.interference.dequeued]
    exact h.dequeued

/-- They leave tidy what is tidy. -/
theorem Tidy.entrusts (h : Tidy r s) (he : Entrusts r s s') : Tidy r s' := by
  obtain hs | ⟨event, hs⟩ := h
  · exact Or.inl (hs.entrusts he)
  · exact Or.inr ⟨event, hs.entrusts he⟩

/-- A request that other threads leave over was over before. -/
theorem Entrusts.isOver (he : Entrusts r s s') (hover : (s'.requests r).state.isOver = true) :
    (s.requests r).state.isOver = true := by
  rw [← he.interference.late r (RequestState.late_of_isOver hover)]
  exact hover

/-- They leave coherent what is coherent. -/
theorem Coherent.entrusts (h : Coherent r s) (he : Entrusts r s s') : Coherent r s' := by
  by_cases hover : (s.requests r).state.isOver = true
  · obtain ⟨event, hs⟩ := h.ruled hover
    exact (hs.entrusts he).coherent
  · have hnot : (s.requests r).state.isOver = false := by simpa using hover
    refine ⟨fun hover' => absurd (he.isOver hover') hover, fun _ => ?_,
      fun hpushed hterminal => ?_⟩
    · rw [he.interference.delivered r]
      exact h.unended hnot
    · by_cases hbefore : r ∈ s.pushed
      · have hstate := (he.aside hbefore).state
        rw [Request.isTerminal, hstate] at hterminal
        rw [hstate]
        exact h.terminal hbefore hterminal
      · rw [Request.isTerminal, (he.arrives hbefore hpushed).2] at hterminal
        cases hterminal

/-! ### Actions that tell nothing -/

/-- What tells nothing decides nothing. -/
theorem Undecided.untold (h : Undecided r s) (hu : Untold r s s') : Undecided r s' where
  notOver := by
    rw [Request.state_of_result hu.result]
    exact h.notOver
  sound := by
    rw [hu.pushed, Request.error_of_result hu.result, Request.isTerminal,
      Request.state_of_result hu.result]
    exact h.sound
  unended := by
    rw [hu.unheard.delivered]
    exact h.unended

/-- What tells nothing leaves an end as it is. -/
theorem Ruled.untold (h : Ruled r event s) (hu : Untold r s s') : Ruled r event s' where
  ending := by
    rw [Request.ending_of_result hu.result]
    exact h.ending
  offered := by
    rw [hu.unheard.delivered]
    exact h.offered
  pushed := by
    rw [hu.pushed]
    exact h.pushed
  dequeued := by
    rw [hu.dequeued]
    exact h.dequeued

/-- What tells nothing leaves tidy what is tidy. -/
theorem Tidy.untold (h : Tidy r s) (hu : Untold r s s') : Tidy r s' := by
  obtain hs | ⟨event, hs⟩ := h
  · exact Or.inl (hs.untold hu)
  · exact Or.inr ⟨event, hs.untold hu⟩

end Stages

/-! ## The threads -/

/-- What the decode thread does: a request that was not pushed is left alone,
and one that is over keeps its result. -/
structure Decides (r : RequestPtr) (s s' : Scheduler A) : Prop where
  aside : r ∉ s.pushed → Aside r s s'
  coherent : Coherent r s'
  final : (s.requests r).state.isOver = true →
    (s'.requests r).result = (s.requests r).result

/-- The contract of the decode thread. -/
def decidingContract (maxActive : Nat) (r : RequestPtr) : Contract (Scheduler A) where
  known s := Life.Inv maxActive s.life
  rely := Entrusts r
  guar := Decides r
  rely_refl := Entrusts.refl r
  rely_trans := Entrusts.trans

/-- The contract of the submit call of `r`. -/
def entrustingContract (r : RequestPtr) : Contract (Scheduler A) where
  known _ := True
  rely s s' := r ∉ s.pushed → Aside r s s'
  guar := Entrusts r
  rely_refl s _ := Aside.refl r s
  rely_trans h h' hun := (h hun).trans (h' (mt (h hun).pushed.mp hun))

/-- The contract of the other threads. -/
def asideContract (r : RequestPtr) : Contract (Scheduler A) where
  known _ := True
  rely _ _ := True
  guar s s' := Interference s s' ∧ Aside r s s'
  rely_refl _ := trivial
  rely_trans _ _ := trivial

/-- Who keeps which contract. -/
def settlementContract (maxActive : Nat) (r : RequestPtr) : ThreadId → Contract (Scheduler A)
  | .decode => decidingContract maxActive r
  | .submit q => if q = r then entrustingContract r else asideContract r
  | _ => asideContract r

/-- Where a request stands at the control points of every thread. -/
def settlementPoint (r : RequestPtr) : ThreadId → Point → Scheduler A → Prop
  | .decode, _, s => Tidy r s
  | .submit q, .start, s => q = r → r ∉ s.pushed ∧ (s.requests r).error = none
  | _, _, _ => True

section Decode

variable {maxActive : Nat} {q r : RequestPtr} {error : Option Error} {event : TokenEvent}
  {s s' : Scheduler A}

/-- The other threads keep a request tidy. -/
theorem tidy_stable : Stable (decidingContract maxActive r) (Tidy (A := A) r) :=
  fun _ _ hs hrely _ => hs.entrusts hrely

/-- They keep it in the hands of the decode thread. -/
theorem deciding_stable : Stable (decidingContract maxActive r) (Deciding (A := A) r error) :=
  fun _ _ hs hrely _ => hs.entrusts hrely

/-- They keep its end. -/
theorem ruled_stable : Stable (decidingContract maxActive r) (Ruled (A := A) r event) :=
  fun _ _ hs hrely _ => hs.entrusts hrely

/-- An action on a request in hand. -/
theorem Deciding.decides (h : Deciding r error s) (hcoherent : Coherent r s') : Decides r s s' :=
  ⟨fun hun => absurd h.pushed hun, hcoherent, fun hover => by rw [h.notOver] at hover; cases hover⟩

/-- An action that tells nothing. -/
theorem Untold.decides (h : Untold r s s') (hcoherent : Coherent r s') : Decides r s s' :=
  ⟨fun _ => h.aside, hcoherent, fun _ => h.result⟩

/-- What the decode thread does for a request short of its end. -/
structure Serves (r : RequestPtr) (s s' : Scheduler A) : Prop where
  error : (s'.requests r).error = (s.requests r).error
  going : (s.requests r).isTerminal = false → (s'.requests r).isTerminal = false
  unended : (∀ e ∈ s.delivered r, e.isTerminal = false) →
    ∀ e ∈ s'.delivered r, e.isTerminal = false
  works : Works r s s'

/-- Serving a request leaves it undecided. -/
theorem Deciding.serves (h : Deciding r error s) (hs : Serves r s s') : Deciding r error s' :=
  ⟨hs.error.trans h.error_eq, hs.going h.going, hs.unended h.unended,
    hs.works.pushed ▸ h.pushed, hs.works.dequeued ▸ h.dequeued⟩

/-- An action that leaves result and queue of the request alone. -/
theorem serves_of_result (hresult : (s'.requests r).result = (s.requests r).result)
    (hunheard : Unheard r s s') (hworks : Works r s s') : Serves r s s' where
  error := Request.error_of_result hresult
  going hgoing := by
    rw [Request.isTerminal, Request.state_of_result hresult]
    exact hgoing
  unended := by
    rw [hunheard.delivered]
    exact id
  works := hworks

/-- A rewrite of the request that does not end it. -/
theorem serves_modify (s : Scheduler A) (r : RequestPtr) {f : Request → Request}
    (herror : ∀ q, (f q).error = q.error) (hqueue : ∀ q, (f q).tokenQueue = q.tokenQueue)
    (hgoing : ∀ q, q.isTerminal = false → (f q).isTerminal = false) :
    Serves r s (s.modify r f) where
  error := requests_modify_field s r r (·.error) herror
  going := by
    rw [requests_modify_self]
    exact hgoing _
  unended := by
    rw [(unheard_modify s r r hqueue).delivered]
    exact id
  works := works_modify s r f

/-- Offering the event that is called for. -/
theorem Ruled.push (h : Ruled r event s) : Ruled r event (s.pushEvent r event) where
  ending := by
    rw [pushEvent, requests_modify_self]
    exact h.ending
  offered e he hterminal := by
    rcases mem_delivered_pushEvent he with hold | hnew
    · exact h.offered e hold hterminal
    · exact hnew
  pushed := h.pushed
  dequeued := h.dequeued

/-- Closing the queue leaves the end as it is. -/
theorem Ruled.close (h : Ruled r event s) : Ruled r event (s.closeQueue r) where
  ending := by
    rw [closeQueue, requests_modify_self]
    exact h.ending
  offered := by
    rw [delivered_closeQueue]
    exact h.offered
  pushed := h.pushed
  dequeued := h.dequeued

/-- An action that keeps the result of a request that is over. -/
theorem Ruled.decides (h : Ruled r event s) (h' : Ruled r event s')
    (hresult : (s'.requests r).result = (s.requests r).result) : Decides r s s' :=
  ⟨fun hun => absurd h.pushed hun, h'.coherent, fun _ => hresult⟩

/-- The counters at the end tell nothing. -/
theorem ruled_update {f : Scheduler A → Scheduler A} (hf : ∀ s, Untold r s (f s)) :
    Triple (decidingContract maxActive r) (Ruled r event) (Program.update f : Sched A Unit)
      (fun _ => Ruled r event) :=
  Triple.update ruled_stable fun s hs _ _ =>
    ⟨(hf s).decides (hs.untold (hf s)).coherent, hs.untold (hf s)⟩

/-- The last store before the event: the terminal state. -/
theorem Deciding.decide (h : Deciding r error s) {st : RequestState}
    (hending : Request.ending { s.requests r with state := st } = some event) :
    Decides r s (s.modify r (fun q => { q with state := st })) ∧
      Ruled r event (s.modify r (fun q => { q with state := st })) := by
  have hruled : Ruled r event (s.modify r (fun q => { q with state := st })) := by
    refine ⟨?_, fun e he hterminal => ?_, h.pushed, h.dequeued⟩
    · rw [requests_modify_self]
      exact hending
    · have hsame := (unheard_modify s r r (f := fun q => { q with state := st })
        fun _ => rfl).delivered
      rw [hsame] at he
      rw [h.unended e he] at hterminal
      cases hterminal
  exact ⟨h.decides hruled.coherent, hruled⟩

variable [IKVCacheAllocator A]

/-- Leaving the scheduler is no part of the result. -/
theorem result_leave (r : RequestPtr) : LeaveChores r
    (fun s s' : Scheduler A => (s'.requests r).result = (s.requests r).result) where
  idle _ := rfl
  freeBudget s := by
    obtain ⟨heq, -⟩ | ⟨g, -, -, heq⟩ := freeBudget_cases s r
    · rw [heq]
    · rw [heq]
      rfl
  freeKvCache s := by
    unfold freeKvCache
    dsimp only
    rw [requests_modify_self]
    rfl
  eraseActive _ := rfl
  unregister _ := rfl
  gauge _ _ := rfl
  countCompleted _ _ := rfl
  countErrored _ _ := rfl

/-- Nor is a placement. -/
theorem result_place (r : RequestPtr) : PlaceChores r
    (fun s s' : Scheduler A => (s'.requests r).result = (s.requests r).result) where
  route s := by
    cases hrouter : s.gpuRouter with
    | none => rw [routeRequest_none hrouter]
    | some g =>
        rw [routeRequest_some hrouter, requests_log, requests_modify_self]
        rfl
  reserve s decision := by
    unfold reserveBudget
    split <;> rfl
  allocate s i decision := by
    obtain ⟨e, a, -, heq⟩ | ⟨handle, a, -, heq⟩ := allocateFor_cases s i r decision
    · rw [heq]
    · rw [heq]
      dsimp only
      rw [requests_modify_self]
      rfl
  unreserve s decision := by
    unfold unreserveBudget
    split <;> rfl
  commit s decision := by
    unfold commitBudget
    split <;> rfl

/-- What is left to do after the close of the queue tells nothing. -/
theorem untold_leave (r : RequestPtr) : LeaveChores r (Untold (A := A) r) := by
  have hboth {s s' : Scheduler A} (hresult : (s'.requests r).result = (s.requests r).result)
      (hunheard : Unheard r s s') (hworks : Works r s s') : Untold r s s' :=
    ⟨hresult, hunheard, hworks.pushed, hworks.dequeued⟩
  have hresult := result_leave (A := A) r
  have hunheard := unheard_leave (A := A) r
  have hworks := (works_chores (A := A) r).toLeaveChores
  exact {
    idle := Untold.refl r
    freeBudget s := hboth (hresult.freeBudget s) (hunheard.freeBudget s) (hworks.freeBudget s)
    freeKvCache s :=
      hboth (hresult.freeKvCache s) (hunheard.freeKvCache s) (hworks.freeKvCache s)
    eraseActive s :=
      hboth (hresult.eraseActive s) (hunheard.eraseActive s) (hworks.eraseActive s)
    unregister s := hboth (hresult.unregister s) (hunheard.unregister s) (hworks.unregister s)
    gauge s n := hboth (hresult.gauge s n) (hunheard.gauge s n) (hworks.gauge s n)
    countCompleted s n := hboth (hresult.countCompleted s n) (hunheard.countCompleted s n)
      (hworks.countCompleted s n)
    countErrored s n := hboth (hresult.countErrored s n) (hunheard.countErrored s n)
      (hworks.countErrored s n) }

/-- Generating a token is serving the request. -/
theorem serves_serve (r : RequestPtr) : ServeChores r (Serves (A := A) r) := by
  have hleave := result_leave (A := A) r
  have hplace := result_place (A := A) r
  have hworks := (works_chores (A := A) r).serve
  exact {
    idle := fun s => serves_of_result rfl (Unheard.refl r s) (hworks.idle s)
    edit := fun s f hf => by
      refine serves_modify s r (fun q => congrArg (·.2.2.1) (hf q))
        (fun q => congrArg (·.1.2.2.2.2.2) (hf q)) fun q hgoing => ?_
      have hstate : (f q).state = q.state := congrArg (·.2.1) (hf q)
      rw [Request.isTerminal, hstate]
      exact hgoing
    token := fun s tokenId text => by
      refine ⟨?_, ?_, fun hunended e he => ?_, hworks.token s tokenId text⟩
      · simp [pushEvent]
      · simp [pushEvent, Request.isTerminal]
      · rcases mem_delivered_pushEvent he with hold | rfl
        · exact hunended e hold
        · rfl
    decodeCalled := fun s input pos =>
      serves_of_result rfl (.of_log rfl rfl rfl) (hworks.decodeCalled s input pos)
    freeBudget := fun s => serves_of_result (hleave.freeBudget s) ((unheard_leave r).freeBudget s)
      (hworks.freeBudget s)
    freeKvCache := fun s => serves_of_result (hleave.freeKvCache s)
      ((unheard_leave r).freeKvCache s) (hworks.freeKvCache s)
    route := fun s => serves_of_result (hplace.route s) ((unheard_place r).route s)
      (hworks.route s)
    reserve := fun s decision => serves_of_result (hplace.reserve s decision)
      ((unheard_place r).reserve s decision) (hworks.reserve s decision)
    allocate := fun s i decision => serves_of_result (hplace.allocate s i decision)
      ((unheard_place r).allocate s i decision) (hworks.allocate s i decision)
    unreserve := fun s decision => serves_of_result (hplace.unreserve s decision)
      ((unheard_place r).unreserve s decision) (hworks.unreserve s decision)
    commit := fun s decision => serves_of_result (hplace.commit s decision)
      ((unheard_place r).commit s decision) (hworks.commit s decision)
    prefilling := fun s => serves_modify s r (fun _ => rfl) (fun _ => rfl) fun _ _ => rfl
    decoding := fun s => serves_modify s r (fun _ => rfl) (fun _ => rfl) fun _ _ => rfl
    gauge := fun s n => serves_of_result rfl (.of_eq rfl rfl) (hworks.gauge s n)
    prefillFailed := fun s handle =>
      serves_of_result rfl (.of_log rfl rfl rfl) (hworks.prefillFailed s handle) }

/-- Retiring a request offers its terminal event and no other. -/
theorem retire_ruled :
    Triple (decidingContract maxActive r) (Ruled r event) (retire r event : Sched A Unit)
      (fun _ => Ruled r event) := by
  have hpush : Triple (decidingContract maxActive r) (Ruled r event)
      (update (·.pushEvent r event) : Sched A Unit) (fun _ => Ruled r event) := by
    refine Triple.update ruled_stable fun s hs _ _ => ⟨hs.decides hs.push ?_, hs.push⟩
    rw [pushEvent, requests_modify_self]
    rfl
  have hclose : Triple (decidingContract maxActive r) (Ruled r event)
      (update (·.closeQueue r) : Sched A Unit) (fun _ => Ruled r event) := by
    refine Triple.update ruled_stable fun s hs _ _ => ⟨hs.decides hs.close ?_, hs.close⟩
    rw [closeQueue, requests_modify_self]
    rfl
  exact (untold_leave r).retire hpush hclose ruled_stable
    (fun _ _ hs hu => hu.decides (hs.untold hu).coherent) (fun _ _ hs hu => hs.untold hu)
    fun _ hs => hs

/-- A completed request is left tidy. -/
theorem completeRequest_tidy (reason : FinishReason) :
    Triple (decidingContract maxActive r) (Deciding r none)
      (completeRequest r reason : Sched A Unit) (fun _ => Tidy r) := by
  have hstable : Stable (decidingContract maxActive r) (fun s : Scheduler A =>
      Deciding r none s ∧ (s.requests r).finishReason = reason) := by
    intro s s' hs hrely _
    exact ⟨hs.1.entrusts hrely,
      (hrely.interference.field r (·.finishReason) fun _ => rfl).trans hs.2⟩
  refine Triple.bind (Q := fun _ s => Deciding r none s ∧ (s.requests r).finishReason = reason)
    (Triple.update deciding_stable fun s hs _ _ => ?_) fun _ => ?_
  · have hstored := hs.serves (serves_modify s r
      (f := fun q => { q with finishReason := reason }) (fun _ => rfl) (fun _ => rfl)
      fun _ hgoing => hgoing)
    refine ⟨hs.decides hstored.coherent, hstored, ?_⟩
    rw [requests_modify_self]
  refine Triple.bind (Q := fun _ => Ruled r (.complete reason))
    (Triple.update hstable fun s hs _ _ => ?_) fun _ => ?_
  · refine hs.1.decide ?_
    simp only [Request.ending, hs.1.error_eq, hs.2]
  refine Triple.bind retire_ruled fun _ => ?_
  exact (ruled_update fun s => (untold_leave r).countCompleted s _).post
    fun _ _ hs => Or.inr ⟨_, hs⟩

/-- So is a failed one. -/
theorem failRequest_tidy (error : Error) :
    Triple (decidingContract maxActive r) (Deciding r none) (failRequest r error : Sched A Unit)
      (fun _ => Tidy r) := by
  refine Triple.bind (Q := fun _ => Deciding r (some error))
    (Triple.update deciding_stable fun s hs _ _ => ?_) fun _ => ?_
  · have hstored : Deciding r (some error)
        (s.modify r (fun q => { q with error := some error })) := by
      refine ⟨by rw [requests_modify_self], ?_, ?_, hs.pushed, hs.dequeued⟩
      · rw [requests_modify_self]
        exact hs.going
      · have hsame := (unheard_modify s r r (f := fun q => { q with error := some error })
          fun _ => rfl).delivered
        rw [hsame]
        exact hs.unended
    exact ⟨hs.decides hstored.coherent, hstored⟩
  refine Triple.bind (Q := fun _ => Ruled r (.error error))
    (Triple.update deciding_stable fun s hs _ _ => ?_) fun _ => ?_
  · refine hs.decide ?_
    simp only [Request.ending, hs.error_eq]
  refine Triple.bind retire_ruled fun _ => ?_
  exact (ruled_update fun s => (untold_leave r).countErrored s _).post
    fun _ _ hs => Or.inr ⟨_, hs⟩

/-- Taking up a request leaves it tidy. -/
theorem startRequest_tidy (d : SchedulerSetup) :
    Triple (decidingContract maxActive r) (Deciding r none) (startRequest d r : Sched A Unit)
      (fun _ => Tidy r) := by
  refine (serves_serve r).startRequest deciding_stable
    (fun _ _ hs hg => hs.decides (hs.serves hg).coherent) (fun _ _ hs hg => hs.serves hg)
    (fun s hs => ?_) failRequest_tidy d
  have hactive : Serves r s { s with activeRequests := s.activeRequests ++ [r] } :=
    serves_of_result rfl (.of_eq rfl rfl) ((works_chores r).activate s)
  have hs' := hs.serves hactive
  exact ⟨hs.decides hs'.coherent, Or.inl hs'.undecided⟩

/-- So does a turn of it. -/
theorem decodeRequest_tidy (d : SchedulerSetup) :
    Triple (decidingContract maxActive r) (Deciding r none) (decodeRequest d r : Sched A Unit)
      (fun _ => Tidy r) :=
  (serves_serve r).toStepChores.decodeRequest deciding_stable
    (fun _ _ hs hg => hs.decides (hs.serves hg).coherent) (fun _ _ hs hg => hs.serves hg)
    (fun _ hs => Or.inl hs.undecided) completeRequest_tidy failRequest_tidy d

omit [IKVCacheAllocator A] in
/-- What the decode thread does for another request. -/
theorem tidy_elsewhere {α : Type} {p : Sched A α} (hp : p.Always (Works q)) (hq : r ≠ q) :
    Triple (decidingContract maxActive r) (Tidy r) p (fun _ => Tidy r) :=
  hp.triple tidy_stable
    (fun _ _ hs hw => (hw.untold hq).decides (hs.untold (hw.untold hq)).coherent)
    fun _ _ hs hw => hs.untold (hw.untold hq)

omit [IKVCacheAllocator A] in
/-- Between two requests. -/
theorem tidy_untold {α : Type} {p : Sched A α} (hp : p.Always (Untold r)) :
    Triple (decidingContract maxActive r) (Tidy r) p (fun _ => Tidy r) :=
  hp.triple tidy_stable (fun _ _ hs hu => hu.decides (hs.untold hu).coherent)
    fun _ _ hs hu => hs.untold hu

omit [IKVCacheAllocator A] in
/-- A request that comes off the queue is undecided. -/
theorem Tidy.dequeue {rest : List RequestPtr} (h : Tidy r s)
    (hinv : Life.Inv maxActive s.life) (hpend : s.pendingQueue = r :: rest) :
    Deciding r none ({ s with pendingQueue := rest }.log (.dequeued r)) := by
  have hmem : r ∈ s.life.pending := by simp [life, hpend]
  have hnot : r ∉ s.dequeued := hinv.not_dequeued_of_pending hmem
  have hpushed : r ∈ s.pushed := hinv.pushed_of_pending hmem
  obtain hs | ⟨event, hs⟩ := h
  · obtain ⟨herror, hgoing⟩ := hs.sound hpushed
    refine ⟨herror, hgoing, ?_, ?_, ?_⟩
    · have hsame : Unheard r s ({ s with pendingQueue := rest }.log (.dequeued r)) :=
        .of_log rfl rfl rfl
      rw [hsame.delivered]
      exact hs.unended
    · simpa [Scheduler.pushed, log] using hpushed
    · simp [Scheduler.dequeued, log]
  · exact absurd hs.dequeued hnot

omit [IKVCacheAllocator A] in
/-- Taking another request out of the queue. -/
theorem Tidy.dequeue_other (h : Tidy r s) (rest : List RequestPtr) (q : RequestPtr) :
    Decides r s ({ s with pendingQueue := rest }.log (.dequeued q)) ∧
      Tidy r ({ s with pendingQueue := rest }.log (.dequeued q)) := by
  have hunheard : Unheard r s ({ s with pendingQueue := rest }.log (.dequeued q)) :=
    .of_log rfl rfl rfl
  have hpushed : ({ s with pendingQueue := rest }.log (.dequeued q)).pushed = s.pushed := by
    simp [Scheduler.pushed, log]
  have htidy : Tidy r ({ s with pendingQueue := rest }.log (.dequeued q)) := by
    obtain hs | ⟨event, hs⟩ := h
    · refine Or.inl ⟨hs.notOver, ?_, ?_⟩
      · rw [hpushed]
        exact hs.sound
      · rw [hunheard.delivered]
        exact hs.unended
    · refine Or.inr ⟨event, hs.ending, ?_, ?_, ?_⟩
      · rw [hunheard.delivered]
        exact hs.offered
      · rw [hpushed]
        exact hs.pushed
      · have hmem := hs.dequeued
        simp only [Scheduler.dequeued, log, List.filterMap_append, List.mem_append] at hmem ⊢
        exact Or.inl hmem
  exact ⟨⟨fun _ => ⟨by rw [hpushed], rfl, rfl⟩, htidy.coherent, fun _ => rfl⟩, htidy⟩

omit [IKVCacheAllocator A] in
/-- A request that is still to come in this round is undecided. -/
theorem Tidy.select {rest : List RequestPtr} (h : Tidy r s)
    (hbetween : Life.Between maxActive (r :: rest) s.life) : Deciding r none s := by
  have hactive : r ∈ s.life.active := hbetween.rest_active r List.mem_cons_self
  have hdequeued : r ∈ s.life.dequeued := hbetween.inv.active_dequeued r hactive
  have hpushed : r ∈ s.life.pushed := hbetween.inv.pushed_of_dequeued hdequeued
  obtain hs | ⟨event, hs⟩ := h
  · exact hs.deciding hpushed hdequeued
  · have hstate : (s.requests r).state = .decoding :=
      (hbetween.book.running r hactive (by simp)).1
    have hover := hs.isOver
    rw [hstate] at hover
    cases hover

/-- So does every body of the decode thread. -/
theorem decodeLoop_tidy (d : SchedulerSetup) (l : Point) :
    Triple (decidingContract d.config.maxActiveRequests r)
      (fun s => decodePoint d.config.maxActiveRequests l s.life ∧ Tidy r s)
      (decodeLoop d l : Sched A Point) (fun _ => Tidy r) := by
  cases l with
  | start =>
      refine Triple.pre (P := Tidy r) ?_ fun _ hs => hs.2
      refine Triple.bind (tidy_untold (Always.atomic fun _ _ => .of_eq rfl rfl)) fun running => ?_
      cases running <;> exact Triple.ret fun _ hs => hs
  | processQueue =>
      refine Triple.pre (P := Tidy r) ?_ fun _ hs => hs.2
      refine Triple.bind (Q := fun next s => next.elim (Tidy r s) fun q =>
          (r = q → Deciding r none s) ∧ (r ≠ q → Tidy r s))
        (Triple.atomic tidy_stable fun _ s hs hknown _ => ?_) fun next => ?_
      · obtain heq | ⟨q, rest, hpend, -, heq⟩ := dequeue_cases s d.config.maxActiveRequests
        · rw [heq]
          exact ⟨(Untold.refl r s).decides hs.coherent, hs⟩
        · rw [heq]
          obtain ⟨hdecides, htidy⟩ := hs.dequeue_other rest q
          refine ⟨hdecides, fun hq => ?_, fun _ => htidy⟩
          subst hq
          exact hs.dequeue hknown hpend
      cases next with
      | none => exact Triple.ret fun _ hs => hs
      | some q =>
          by_cases hq : r = q
          · subst hq
            exact Triple.bind ((startRequest_tidy d).pre fun _ hs => hs.1 rfl)
              (fun _ => Triple.ret fun _ hs => hs)
          · exact Triple.bind ((tidy_elsewhere ((works_chores q).startRequest d) hq).pre
              fun _ hs => hs.2 hq) (fun _ => Triple.ret fun _ hs => hs)
  | copyActive =>
      refine Triple.pre (P := Tidy r) ?_ fun _ hs => hs.2
      refine Triple.bind (tidy_untold (Always.read (Untold.refl r))) fun active => ?_
      by_cases hempty : active.isEmpty
      · rw [if_pos hempty]
        exact Triple.ret fun _ hs => hs
      · rw [if_neg hempty]
        exact Triple.ret fun _ hs => hs
  | decodeEach rest =>
      cases rest with
      | nil => exact Triple.ret fun _ hs => hs.2
      | cons q rest =>
          by_cases hq : r = q
          · subst hq
            exact Triple.bind ((decodeRequest_tidy d).pre fun s hs => hs.2.select hs.1.1)
              (fun _ => Triple.ret fun _ hs => hs)
          · exact Triple.bind ((tidy_elsewhere ((works_chores q).decodeRequest d) hq).pre
              fun _ hs => hs.2) (fun _ => Triple.ret fun _ hs => hs)
  | join | returned => exact Triple.ret fun _ hs => hs.2

end Decode

section Submit

variable {q r : RequestPtr} {s s' : Scheduler A}

/-- Nothing about the request matters before its push. -/
theorem entrusts_unpushed (hi : Interference s s') (hun : r ∉ s.pushed) (hun' : r ∉ s'.pushed) :
    Entrusts r s s' :=
  ⟨hi, fun hpushed => absurd hpushed hun, fun _ hpushed => absurd hpushed hun'⟩

/-- On its way to the queue, without an error. -/
def Heading (r : RequestPtr) (s : Scheduler A) : Prop :=
  r ∉ s.pushed ∧ (s.requests r).error = none

/-- Nobody else touches a request on its way to the queue. -/
theorem heading_stable : Stable (entrustingContract r) (Heading (A := A) r) := by
  intro s s' hs hrely _
  have haside := hrely hs.1
  exact ⟨mt haside.pushed.mp hs.1, haside.error.trans hs.2⟩

/-- Nobody else pushes it. -/
theorem unpushed_stable : Stable (entrustingContract r) (fun s : Scheduler A => r ∉ s.pushed) :=
  fun _ _ hs hrely _ => mt (hrely hs).pushed.mp hs

/-- An accepted request is handed over queued and without an error. -/
theorem accept_entrusts (d : SchedulerSetup) :
    Triple (entrustingContract r) (Heading r) (accept d r : Sched A Unit) (fun _ _ => True) := by
  have hqueued : Stable (entrustingContract r) (fun s : Scheduler A =>
      Heading r s ∧ (s.requests r).state = .queued) := by
    intro s s' hs hrely hknown
    exact ⟨heading_stable s s' hs.1 hrely hknown, (hrely hs.1.1).state.trans hs.2⟩
  refine Triple.bind (Q := fun _ => Heading r)
    (Triple.update heading_stable fun s hs _ _ => ?_) fun _ => ?_
  · have hun : r ∉ (s.registryAdd r).pushed := by
      simpa [pushed, registryAdd, log] using hs.1
    exact ⟨entrusts_unpushed interference_registryAdd hs.1 hun, hun, hs.2⟩
  refine Triple.bind (Q := fun _ s => Heading r s ∧ (s.requests r).state = .queued)
    (Triple.update heading_stable fun s hs _ _ => ?_) fun _ => ?_
  · refine ⟨entrusts_unpushed (interference_setState rfl) hs.1 hs.1, ⟨hs.1, ?_⟩, ?_⟩
    · rw [requests_modify_self]
      exact hs.2
    · rw [requests_modify_self]
  refine Triple.bind (Q := fun _ s => Heading r s ∧ (s.requests r).state = .queued)
    (Triple.atomic hqueued fun i s hs _ _ => ?_) fun _ => ?_
  · have hi : Interference s (s.modify r (fun q => { q with timing := submitTiming d i.now })) :=
      interference_modify (fun _ => rfl) (fun _ => rfl) fun _ _ => rfl
    refine ⟨entrusts_unpushed hi hs.1.1 hs.1.1, ⟨hs.1.1, ?_⟩, ?_⟩
    · rw [requests_modify_self]
      exact hs.1.2
    · rw [requests_modify_self]
      exact hs.2
  refine Triple.update hqueued fun s hs _ _ => ⟨?_, trivial⟩
  exact ⟨interference_enqueue, fun hpushed => absurd hpushed hs.1.1, fun _ _ => ⟨hs.1.2, hs.2⟩⟩

/-- So is every request that is submitted. -/
theorem submit_entrusts [IKVCacheAllocator A] (d : SchedulerSetup) :
    Triple (entrustingContract r) (Heading r) (submit d r : Sched A (Result Unit))
      (fun _ _ => True) := by
  have hlook {α : Type} {p : Sched A α} (hp : p.Always Eq) :
      Triple (entrustingContract r) (Heading r) p (fun _ => Heading r) :=
    hp.triple heading_stable (fun s _ _ heq => heq ▸ Entrusts.refl r s)
      fun _ _ hs heq => heq ▸ hs
  refine Triple.bind (hlook (Always.read fun _ => rfl)) fun running => ?_
  cases running with
  | false => exact Triple.ret fun _ _ => trivial
  | true =>
      refine Triple.bind (hlook (admitRequest_always (fun _ => rfl) d r)) fun admitted => ?_
      cases admitted with
      | ok _ => exact Triple.bind (accept_entrusts d) (fun _ => Triple.ret fun _ hs => hs)
      | error e =>
          refine Triple.bind (Q := fun _ s => r ∉ s.pushed)
            (Triple.update heading_stable fun s hs _ _ =>
              ⟨entrusts_unpushed (interference_setState rfl) hs.1 hs.1, hs.1⟩) fun _ => ?_
          refine Triple.bind (Q := fun _ _ => True)
            (Triple.update unpushed_stable fun s hs _ _ => ⟨?_, trivial⟩)
            (fun _ => Triple.ret fun _ hs => hs)
          have hi : Interference s (s.modify r (fun q => { q with error := some e })) :=
            interference_modify (fun _ => rfl) (fun _ => rfl) fun _ _ => rfl
          exact entrusts_unpushed hi hs hs

/-- The submit call of another request. -/
theorem submit_aside (hq : r ≠ q) : SubmitChores q (Aside (A := A) r) := by
  have hmodify (s : Scheduler A) (f : Request → Request) : Aside r s (s.modify q f) := by
    refine ⟨Iff.rfl, ?_, ?_⟩ <;> rw [requests_modify_of_ne s f hq]
  exact {
    idle := Aside.refl r
    queue := fun s => hmodify s _
    reject := fun s => hmodify s _
    blame := fun s _ => hmodify s _
    stamp := fun s _ => hmodify s _
    register := fun s => ⟨by simp [pushed, registryAdd, log], rfl, rfl⟩
    enqueue := fun s => ⟨by simp [pushed, enqueue, log, hq], rfl, rfl⟩ }

/-- The HTTP threads leave state and error alone. -/
theorem http_aside : HttpChores (Aside (A := A) r) where
  idle := Aside.refl r
  cancel s q := ⟨Iff.rfl, requests_modify_field s q r (·.state) fun _ => rfl,
    requests_modify_field s q r (·.error) fun _ => rfl⟩
  pop s q := by
    obtain heq | ⟨t, event, rest, -, -, heq⟩ := popEvent_cases s q
    · rw [heq]
      exact Aside.refl r s
    · rw [heq]
      refine ⟨by simp [pushed, log, modify], ?_, ?_⟩
      · rw [requests_log]
        exact requests_modify_field s q r (·.state) fun _ => rfl
      · rw [requests_log]
        exact requests_modify_field s q r (·.error) fun _ => rfl
  trans := Aside.trans

end Submit

/-! ## Every interleaving -/

section Parallel

variable {maxActive : Nat} {r : RequestPtr} {s s' : Scheduler A}

/-- A thread that stands aside. -/
theorem aside_triple {α : Type} {p : Sched A α} (hp : p.Always Interference)
    (hp' : p.Always (Aside r)) :
    Triple (asideContract r) (fun _ => True) p (fun _ _ => True) :=
  (hp.and hp').triple (fun _ _ _ _ _ => trivial) (fun _ _ _ h => h) fun _ _ _ _ => trivial

/-- Standing aside is what the decode thread may rely on. -/
theorem entrusts_of_aside (h : Interference s s' ∧ Aside r s s') : Entrusts r s s' :=
  ⟨h.1, fun _ => h.2, fun hun hpushed => absurd (h.2.pushed.mp hpushed) hun⟩

/-- What one thread guarantees, the others may rely on. -/
theorem settlement_allows {t u : ThreadId} (htu : t ≠ u)
    (h : (settlementContract maxActive r t).guar s s') :
    (settlementContract maxActive r u).rely s s' := by
  have hother {q : RequestPtr} (hq : q ≠ r) :
      settlementContract (A := A) maxActive r (.submit q) = asideContract r := if_neg hq
  have hown : settlementContract (A := A) maxActive r (.submit r) = entrustingContract r :=
    if_pos rfl
  cases u with
  | decode =>
      cases t with
      | decode => exact absurd rfl htu
      | submit q =>
          by_cases hq : q = r
          · subst hq
            rw [hown] at h
            exact h
          · rw [hother hq] at h
            exact entrusts_of_aside h
      | cancel | disconnect | pop | stop => exact entrusts_of_aside h
  | submit p =>
      by_cases hp : p = r
      · subst hp
        rw [hown]
        cases t with
        | decode => exact h.aside
        | submit q =>
            have hq : q ≠ p := fun heq => htu (congrArg ThreadId.submit heq)
            rw [hother hq] at h
            exact fun _ => h.2
        | cancel | disconnect | pop | stop => exact fun _ => h.2
      · rw [hother hp]
        trivial
  | cancel | disconnect | pop | stop => trivial

/-- What holds at a control point is kept by the others. -/
theorem settlementPoint_stable (t : ThreadId) (l : Point) :
    Stable (settlementContract maxActive r t) (settlementPoint (A := A) r t l) := by
  cases t with
  | decode => exact tidy_stable
  | submit q =>
      cases l with
      | start =>
          intro s s' hs hrely hknown hq
          subst hq
          rw [settlementContract, if_pos rfl] at hrely hknown
          exact heading_stable s s' (hs rfl) hrely hknown
      | processQueue | copyActive | decodeEach | join | returned =>
          exact fun _ _ _ _ _ => trivial
  | cancel | disconnect | pop | stop => exact fun _ _ _ _ _ => trivial

/-- What any action does to a request: its result stays coherent, and does not
change once it is there. -/
theorem Coherent.guar (h : Coherent r s) {t : ThreadId}
    (hguar : (settlementContract maxActive r t).guar s s') :
    Coherent r s' ∧
      ((s.requests r).state.isOver = true → (s'.requests r).result = (s.requests r).result) := by
  have hother (he : Entrusts r s s') : Coherent r s' ∧
      ((s.requests r).state.isOver = true →
        (s'.requests r).result = (s.requests r).result) := by
    refine ⟨h.entrusts he, fun hover => ?_⟩
    obtain ⟨event, hs⟩ := h.ruled hover
    exact he.result hs.pushed
  cases t with
  | decode => exact ⟨hguar.coherent, hguar.final⟩
  | submit q =>
      by_cases hq : q = r
      · subst hq
        rw [settlementContract, if_pos rfl] at hguar
        exact hother hguar
      · rw [settlementContract, if_neg hq] at hguar
        exact hother (entrusts_of_aside hguar)
  | cancel | disconnect | pop | stop => exact hother (entrusts_of_aside hguar)

variable [IKVCacheAllocator A]

/-- Every body of every thread keeps its contract. -/
theorem settlement_body (d : SchedulerSetup) (t : ThreadId) (l : Point) :
    Triple (settlementContract d.config.maxActiveRequests r t)
      (fun s => lifePoint d.config.maxActiveRequests t l s ∧ settlementPoint r t l s)
      (code d t l : Sched A Point)
      (fun a s => lifePoint d.config.maxActiveRequests t a s → settlementPoint r t a s) := by
  have haside (ht : t ≠ .decode) (hown : t ≠ .submit r) :
      Triple (asideContract r) (fun _ => True) (code d t l : Sched A Point)
        (fun _ _ => True) := by
    refine aside_triple (code_interference d ht l) (others_always http_aside d ht
      (fun q hq => submit_aside ?_) (fun _ _ => ⟨Iff.rfl, rfl, rfl⟩) l)
    rintro rfl
    exact hown hq
  cases t with
  | decode => exact (decodeLoop_tidy d l).post fun _ _ hs _ => hs
  | submit q =>
      by_cases hq : q = r
      · subst hq
        rw [settlementContract, if_pos rfl]
        cases l with
        | start =>
            refine Triple.bind (Q := fun _ _ => True)
              ((submit_entrusts d).pre fun s hs => hs.2 rfl) fun result => ?_
            exact Triple.ret fun _ _ _ => trivial
        | processQueue | copyActive | decodeEach | join | returned =>
            exact Triple.ret fun _ _ _ => trivial
      · rw [settlementContract, if_neg hq]
        refine (haside nofun fun heq => hq (ThreadId.submit.inj heq)).conseq
          (fun _ _ => trivial) fun a s _ _ => ?_
        cases a with
        | start => exact fun heq => absurd heq hq
        | processQueue | copyActive | decodeEach | join | returned => trivial
  | cancel | disconnect | pop | stop =>
      exact (haside nofun nofun).conseq (fun _ _ => trivial) fun _ _ _ _ => trivial

/-- So the threads fit together. -/
theorem settlement_compatible (d : SchedulerSetup) (r : RequestPtr) :
    Compatible (code (A := A) d)
      (fun t => (lifeContract d.config.maxActiveRequests t).and
        (settlementContract d.config.maxActiveRequests r t))
      (fun t l s => lifePoint d.config.maxActiveRequests t l s ∧ settlementPoint r t l s) :=
  (life_compatible d).and (fun htu _ _ _ h => settlement_allows htu h) settlementPoint_stable
    (settlement_body d)

end Parallel

section Runs

variable [IKVCacheAllocator A] {a : A} {g : Option GPURouter} {requests : RequestPtr → Request}
  {r : RequestPtr} (d : SchedulerSetup)

omit [IKVCacheAllocator A] in
/-- A new request is tidy. -/
theorem tidy_create (h : Unstarted (requests r)) (herror : (requests r).error = none) :
    Tidy r (create a g requests) := by
  refine Or.inl ⟨?_, fun _ => ⟨herror, ?_⟩, ?_⟩
  · show (requests r).state.isOver = false
    rw [h.state]
    rfl
  · show (requests r).state.isTerminal = false
    rw [h.state]
    rfl
  · rw [h.delivered]
    exact fun _ he => absurd he List.not_mem_nil

/-- What the settlement contracts rely on in a run. -/
theorem settlement_known (hfresh : Fresh requests) (schedule : List (ThreadId × Answer)) :
    Known (fun t => (lifeContract d.config.maxActiveRequests t).and
        (settlementContract d.config.maxActiveRequests r t))
      ((System.initial (create a g requests)).run (code d) schedule).state := by
  intro t
  constructor
  · cases t <;> trivial
  · cases t with
    | decode => exact life_inv d hfresh schedule
    | submit q =>
        show (settlementContract d.config.maxActiveRequests r (.submit q)).known _
        by_cases hq : q = r
        · rw [settlementContract, if_pos hq]
          trivial
        · rw [settlementContract, if_neg hq]
          trivial
    | cancel | disconnect | pop | stop => trivial

/-- Every thread of a server keeps its contract. -/
theorem settlement_sound (hfresh : Fresh requests) (h : Unstarted (requests r))
    (herror : (requests r).error = none) (schedule : List (ThreadId × Answer)) :
    Sound (fun t => (lifeContract d.config.maxActiveRequests t).and
        (settlementContract d.config.maxActiveRequests r t))
      (fun t l s => lifePoint d.config.maxActiveRequests t l s ∧ settlementPoint r t l s)
      ((System.initial (create a g requests)).run (code d) schedule) := by
  refine Pool.run_sound (settlement_compatible d r) (fun t => ?_) schedule
    fun first _ => settlement_known d hfresh first
  refine ⟨(life_sound (a := a) (g := g) d hfresh []).at_point (t := t) rfl, ?_⟩
  cases t with
  | decode => exact tidy_create h herror
  | submit q =>
      rintro rfl
      exact ⟨by simp [System.initial, create, pushed], herror⟩
  | cancel | disconnect | pop | stop => trivial

/-- **The result is in place.**  At every moment of every run a request that is
over has the error or the reason that its state calls for, and no other terminal
event was offered. -/
theorem coherent_run (hfresh : Fresh requests) (h : Unstarted (requests r))
    (herror : (requests r).error = none) (schedule : List (ThreadId × Answer)) :
    Coherent r ((System.initial (create a g requests)).run (code d) schedule).state := by
  refine Pool.run_invariant (settlement_compatible d r) (J := Coherent r)
    (fun t s s' hguar hs => (hs.guar hguar.2).1) (settlement_sound d hfresh h herror [])
    (tidy_create h herror).coherent schedule fun first _ => settlement_known d hfresh first

/-- **The result stays.**  From the moment a request is over, nothing of its
result changes. -/
theorem result_stays (hfresh : Fresh requests) (h : Unstarted (requests r))
    (herror : (requests r).error = none) (before after : List (ThreadId × Answer)) :
    let w := (System.initial (create a g requests)).run (code d) before
    (w.state.requests r).state.isOver = true →
      ((w.run (code d) after).state.requests r).result = (w.state.requests r).result := by
  intro w hover
  have hkept : Coherent r (w.run (code d) after).state ∧
      ((w.run (code d) after).state.requests r).result = (w.state.requests r).result := by
    refine Pool.run_invariant (settlement_compatible d r)
      (J := fun s => Coherent r s ∧ (s.requests r).result = (w.state.requests r).result)
      (fun t s s' hguar hs => ?_) (settlement_sound d hfresh h herror before)
      ⟨coherent_run d hfresh h herror before, rfl⟩ after fun first _ => ?_
    · obtain ⟨hcoherent, hresult⟩ := hs.1.guar hguar.2
      have hstill : (s.requests r).state.isOver = true := by
        rw [Request.state_of_result hs.2]
        exact hover
      exact ⟨hcoherent, (hresult hstill).trans hs.2⟩
    · rw [← Pool.run_append]
      exact settlement_known d hfresh _
  exact hkept.2

end Runs

end Scheduler

end Qwen
