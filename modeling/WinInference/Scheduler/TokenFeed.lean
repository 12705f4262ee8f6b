import Mathlib.Data.List.Induction
import WinInference.Scheduler.Request

/-!
# What the consumer of a token queue receives

The scheduler thread offers one event for each token, then the terminal event,
and closes the queue.  The HTTP thread pops in between.  A `Feed` is a token
queue in the middle of this, with the events that `push` took and those that
`pop` handed out.

The terminal event goes through the same bounded `push` as the tokens.  Whether
it arrives is therefore decided at one moment: it does exactly when the queue
has room at the end of generation.
-/

namespace Qwen

/-- Complete or Error. -/
def TokenEvent.isTerminal : TokenEvent → Bool
  | .token _ _ => false
  | .complete _ | .error _ => true

/-- How far the scheduler thread is with a queue. -/
inductive FeedStage where
  | streaming
  /-- the terminal event was offered -/
  | ended
  | closed
deriving DecidableEq

/-- A token queue in use. -/
structure Feed where
  queue : TokenQueue
  stage : FeedStage := .streaming
  /-- the events that `push` took, in order -/
  accepted : List TokenEvent := []
  /-- the events that `pop` handed out, in order -/
  received : List TokenEvent := []

/-- What one of the two threads does with the queue. -/
inductive FeedMove where
  /-- the push of `emit_token` -/
  | emit (tokenId : Int) (text : Bytes)
  /-- the push of `complete_request` or `fail_request` -/
  | finish (event : TokenEvent)
  | close
  | pop

/-- The events of `emit_token`, in order. -/
def FeedMove.emitted : List FeedMove → List TokenEvent :=
  List.filterMap fun
    | .emit tokenId text => some (.token tokenId text)
    | _ => none

theorem TokenQueue.push_cases (q : TokenQueue) (event : TokenEvent) :
    (q.push event = (true, { q with events := q.events ++ [event] }) ∧ q.closed = false ∧
        q.events.length < q.maxSize) ∨
      ((q.push event).1 = false ∧ (q.push event).2.events = q.events ∧
        (q.push event).2.maxSize = q.maxSize ∧ (q.push event).2.closed = q.closed ∧
        (q.closed = true ∨ q.maxSize ≤ q.events.length)) := by
  cases hclosed : q.closed with
  | true => exact Or.inr (by simp [push, hclosed])
  | false =>
      by_cases hfull : q.maxSize ≤ q.events.length
      · exact Or.inr (by simp [push, hclosed, hfull])
      · exact Or.inl (by simp [push, hclosed, hfull]; omega)

namespace Feed

/-- A feed into an empty queue. -/
def start (maxSize : Nat) : Feed := { queue := { maxSize := maxSize } }

/-- `push`, with what it returned. -/
def offer (f : Feed) (event : TokenEvent) : Feed :=
  { f with
    queue := (f.queue.push event).2
    accepted := if (f.queue.push event).1 then f.accepted ++ [event] else f.accepted }

/-- `pop`, with what it returned. -/
def take (f : Feed) : Feed :=
  { f with
    queue := f.queue.pop.2
    received := f.received ++ f.queue.pop.1.toList }

/-- One move; the moves of the scheduler thread are possible in its order. -/
def step (f : Feed) : FeedMove → Option Feed
  | .emit tokenId text => if f.stage = .streaming then some (f.offer (.token tokenId text)) else none
  | .finish event =>
      if f.stage = .streaming ∧ event.isTerminal then
        some { f.offer event with stage := .ended }
      else none
  | .close =>
      if f.stage = .ended then some { f with queue := f.queue.close, stage := .closed } else none
  | .pop => some f.take

/-- Any interleaving of the two threads. -/
def run (f : Feed) (moves : List FeedMove) : Option Feed := moves.foldlM step f

/-- The consumer received the accepted tokens and then one terminal event. -/
def Delivers (f : Feed) : Prop :=
  ∃ ending : TokenEvent, ending.isTerminal ∧
    f.received = f.accepted.filter (fun e => !e.isTerminal) ++ [ending]

/-- When the terminal event is offered, the consumer is behind by less than the
capacity. -/
def RoomAtEnd (maxSize : Nat) (moves : List FeedMove) : Prop :=
  ∃ before event after f, moves = before ++ .finish event :: after ∧
    (start maxSize).run before = some f ∧ f.queue.events.length < maxSize

/-! ## One move -/

section Step

variable {f f' : Feed} {m : FeedMove}

/-- What a move can be. -/
theorem step_cases (h : f.step m = some f') :
    (∃ tokenId text, m = .emit tokenId text ∧ f.stage = .streaming ∧
        f' = f.offer (.token tokenId text)) ∨
      (∃ event, m = .finish event ∧ f.stage = .streaming ∧ event.isTerminal ∧
        f' = { f.offer event with stage := .ended }) ∨
      (m = .close ∧ f.stage = .ended ∧
        f' = { f with queue := f.queue.close, stage := .closed }) ∨
      (m = .pop ∧ f' = f.take) := by
  cases m with
  | emit tokenId text =>
      by_cases hstage : f.stage = .streaming
      · exact Or.inl ⟨tokenId, text, rfl, hstage, by simpa [step, hstage] using h.symm⟩
      · simp [step, hstage] at h
  | finish event =>
      by_cases hmay : f.stage = .streaming ∧ event.isTerminal
      · exact Or.inr (Or.inl ⟨event, rfl, hmay.1, hmay.2, by simpa [step, hmay] using h.symm⟩)
      · simp [step, hmay] at h
  | close =>
      by_cases hstage : f.stage = .ended
      · exact Or.inr (Or.inr (Or.inl ⟨rfl, hstage, by simpa [step, hstage] using h.symm⟩))
      · simp [step, hstage] at h
  | pop => exact Or.inr (Or.inr (Or.inr ⟨rfl, by simpa [step] using h.symm⟩))

/-- What holds of a queue in use. -/
structure Kept (maxSize : Nat) (f : Feed) : Prop where
  capacity : f.queue.maxSize = maxSize
  closed : f.queue.closed = true ↔ f.stage = .closed
  conserved : f.received ++ f.queue.events = f.accepted
  tokens : f.stage = .streaming → ∀ e ∈ f.accepted, e.isTerminal = false

variable {maxSize : Nat}

theorem Kept.start (maxSize : Nat) : Kept maxSize (start maxSize) :=
  ⟨rfl, by simp [Feed.start], rfl, by simp [Feed.start]⟩

/-- An open queue takes an event when it has room. -/
theorem Kept.offer_accepted (h : Kept maxSize f) (hstage : f.stage = .streaming)
    (event : TokenEvent) :
    (f.offer event).accepted =
      if f.queue.events.length < maxSize then f.accepted ++ [event] else f.accepted := by
  have hopen : f.queue.closed = false := by
    cases hclosed : f.queue.closed with
    | false => rfl
    | true =>
        have := h.closed.mp hclosed
        rw [hstage] at this
        cases this
  obtain ⟨heq, -, hroom⟩ | ⟨htaken, -, -, -, hwhy⟩ := f.queue.push_cases event
  · rw [h.capacity] at hroom
    rw [if_pos hroom]
    simp [offer, heq]
  · have hfull : ¬ f.queue.events.length < maxSize := by
      rw [hopen, h.capacity] at hwhy
      simpa using hwhy
    rw [if_neg hfull]
    simp [offer, htaken]

theorem Kept.offer (h : Kept maxSize f) (event : TokenEvent) :
    (f.offer event).queue.maxSize = maxSize ∧
      (f.offer event).queue.closed = f.queue.closed ∧
      (f.offer event).received ++ (f.offer event).queue.events = (f.offer event).accepted := by
  obtain ⟨heq, -, -⟩ | ⟨htaken, hevents, hsize, hclosed, -⟩ := f.queue.push_cases event
  · refine ⟨?_, ?_, ?_⟩
    · simpa [Feed.offer, heq] using h.capacity
    · simp [Feed.offer, heq]
    · simp [Feed.offer, heq, ← h.conserved]
  · refine ⟨hsize.trans h.capacity, hclosed, ?_⟩
    simpa [Feed.offer, htaken, hevents] using h.conserved

theorem Kept.step (h : Kept maxSize f) (hstep : f.step m = some f') : Kept maxSize f' := by
  obtain ⟨tokenId, text, -, hstage, rfl⟩ | ⟨event, -, hstage, -, rfl⟩ | ⟨-, -, rfl⟩ | ⟨-, rfl⟩ :=
    step_cases hstep
  · obtain ⟨hsize, hclosed, hconserved⟩ := h.offer (.token tokenId text)
    refine ⟨hsize, by rw [hclosed]; exact h.closed, hconserved, fun _ e he => ?_⟩
    rw [h.offer_accepted hstage] at he
    split at he
    · rcases List.mem_append.mp he with hold | hnew
      · exact h.tokens hstage e hold
      · obtain rfl := List.mem_singleton.mp hnew
        rfl
    · exact h.tokens hstage e he
  · obtain ⟨hsize, hclosed, hconserved⟩ := h.offer event
    refine ⟨hsize, ?_, hconserved, nofun⟩
    rw [hclosed, h.closed, hstage]
    simp
  · exact ⟨h.capacity, by simp [TokenQueue.close], h.conserved, nofun⟩
  · refine ⟨?_, ?_, ?_, h.tokens⟩
    · cases hevents : f.queue.events <;> simpa [take, TokenQueue.pop, hevents] using h.capacity
    · cases hevents : f.queue.events <;> simpa [take, TokenQueue.pop, hevents] using h.closed
    · have hconserved := h.conserved
      cases hevents : f.queue.events <;>
        simpa [take, TokenQueue.pop, hevents] using hconserved

end Step

/-! ## Runs -/

section Runs

variable {maxSize : Nat} {f f' : Feed} {moves : List FeedMove}

theorem run_cons (f : Feed) (m : FeedMove) (rest : List FeedMove) :
    f.run (m :: rest) = (f.step m).bind (·.run rest) := by
  rw [run, List.foldlM_cons]
  rfl

theorem run_append (f : Feed) (left right : List FeedMove) :
    f.run (left ++ right) = (f.run left).bind (·.run right) := by
  rw [run, List.foldlM_append]
  rfl

theorem run_concat (f : Feed) (rest : List FeedMove) (m : FeedMove) :
    f.run (rest ++ [m]) = (f.run rest).bind (·.step m) := by
  rw [run_append]
  congr
  funext f
  rw [run_cons]
  cases f.step m <;> rfl

/-- A run by one more move. -/
theorem run_next (h : f.run moves = some f') {m : FeedMove} {f'' : Feed}
    (hstep : f'.step m = some f'') : f.run (moves ++ [m]) = some f'' := by
  rw [run_concat, h]
  exact hstep

theorem Kept.run (h : Kept maxSize f) (hrun : f.run moves = some f') : Kept maxSize f' := by
  induction moves generalizing f with
  | nil =>
      obtain rfl := Option.some.inj hrun
      exact h
  | cons m rest ih =>
      rw [run_cons] at hrun
      obtain ⟨g, hstep, hrest⟩ := Option.bind_eq_some_iff.mp hrun
      exact ih (h.step hstep) hrest

/-- Once the terminal event was offered nothing more is. -/
theorem run_accepted (hstage : f.stage ≠ .streaming) (hrun : f.run moves = some f') :
    f'.accepted = f.accepted := by
  induction moves generalizing f with
  | nil =>
      obtain rfl := Option.some.inj hrun
      rfl
  | cons m rest ih =>
      rw [run_cons] at hrun
      obtain ⟨g, hstep, hrest⟩ := Option.bind_eq_some_iff.mp hrun
      obtain ⟨_, _, -, hs, -⟩ | ⟨_, -, hs, -, -⟩ | ⟨-, -, rfl⟩ | ⟨-, rfl⟩ := step_cases hstep
      · exact absurd hs hstage
      · exact absurd hs hstage
      · exact (ih (by simp) hrest).trans rfl
      · exact (ih (by exact hstage) hrest).trans rfl

/-- After the tokens, the terminal event was offered. -/
theorem run_finished (h : f.stage = .streaming) (hrun : f.run moves = some f')
    (hstage : f'.stage ≠ .streaming) :
    ∃ before event after, moves = before ++ .finish event :: after := by
  induction moves generalizing f with
  | nil =>
      obtain rfl := Option.some.inj hrun
      exact absurd h hstage
  | cons m rest ih =>
      rw [run_cons] at hrun
      obtain ⟨g, hstep, hrest⟩ := Option.bind_eq_some_iff.mp hrun
      have hlater (hg : g.stage = .streaming) :
          ∃ before event after, m :: rest = before ++ .finish event :: after := by
        obtain ⟨before, event, after, rfl⟩ := ih hg hrest
        exact ⟨m :: before, event, after, rfl⟩
      obtain ⟨_, _, -, hs, rfl⟩ | ⟨event, rfl, -⟩ | ⟨-, hs, -⟩ | ⟨-, rfl⟩ := step_cases hstep
      · exact hlater hs
      · exact ⟨[], event, rest, rfl⟩
      · rw [h] at hs
        cases hs
      · exact hlater h

/-- What was accepted at the end, from the moment of the terminal event. -/
theorem run_ending {before after : List FeedMove} {event : TokenEvent}
    (hrun : (start maxSize).run (before ++ .finish event :: after) = some f') :
    ∃ f, (start maxSize).run before = some f ∧ event.isTerminal = true ∧
      (∀ e ∈ f.accepted, e.isTerminal = false) ∧
      f'.accepted =
        if f.queue.events.length < maxSize then f.accepted ++ [event] else f.accepted := by
  rw [run_append] at hrun
  obtain ⟨f, hbefore, hrest⟩ := Option.bind_eq_some_iff.mp hrun
  rw [run_cons] at hrest
  obtain ⟨g, hstep, hafter⟩ := Option.bind_eq_some_iff.mp hrest
  have hkept : Kept maxSize f := (Kept.start maxSize).run hbefore
  obtain ⟨_, _, heq, -⟩ | ⟨e, heq, hstage, hterminal, rfl⟩ | ⟨heq, -⟩ | ⟨heq, -⟩ :=
    step_cases hstep
  · cases heq
  · cases heq
    refine ⟨f, hbefore, hterminal, hkept.tokens hstage, ?_⟩
    rw [← hkept.offer_accepted hstage event]
    exact (run_accepted (by simp) hafter).trans rfl
  · cases heq
  · cases heq

/-- The tokens that were taken are among those emitted, in the same order. -/
theorem run_sublist (hrun : f.run moves = some f') :
    ∃ more, f'.accepted.filter (fun e => !e.isTerminal) =
        f.accepted.filter (fun e => !e.isTerminal) ++ more ∧
      more.Sublist (FeedMove.emitted moves) := by
  induction moves generalizing f with
  | nil =>
      obtain rfl := Option.some.inj hrun
      exact ⟨[], (List.append_nil _).symm, List.Sublist.refl _⟩
  | cons m rest ih =>
      rw [run_cons] at hrun
      obtain ⟨g, hstep, hrest⟩ := Option.bind_eq_some_iff.mp hrun
      obtain ⟨more, hmore, hsub⟩ := ih hrest
      have hoffer (event : TokenEvent) : (f.offer event).accepted = f.accepted ++ [event] ∨
          (f.offer event).accepted = f.accepted := by
        rw [offer]
        dsimp only
        split
        · exact Or.inl rfl
        · exact Or.inr rfl
      obtain ⟨tokenId, text, rfl, -, rfl⟩ | ⟨event, rfl, -, hterminal, rfl⟩ | ⟨rfl, -, rfl⟩ |
        ⟨rfl, rfl⟩ := step_cases hstep
      · rw [hmore]
        rcases hoffer (.token tokenId text) with heq | heq
        · refine ⟨.token tokenId text :: more, ?_, hsub.cons_cons _⟩
          rw [heq]
          simp [TokenEvent.isTerminal]
        · exact ⟨more, by rw [heq], hsub.cons _⟩
      · refine ⟨more, ?_, hsub⟩
        rw [hmore]
        dsimp only
        rcases hoffer event with heq | heq
        · rw [heq]
          simp [hterminal]
        · rw [heq]
      · exact ⟨more, hmore, hsub⟩
      · exact ⟨more, hmore, hsub⟩

/-- **The terminal event.**  A consumer that has popped a closed queue empty has
received the accepted tokens, in the order of their emission, and the terminal
event if and only if there was room for it at the end. -/
theorem delivers_iff (hrun : (start maxSize).run moves = some f) (hclosed : f.queue.closed = true)
    (hempty : f.queue.events = []) :
    (f.accepted.filter (fun e => !e.isTerminal)).Sublist (FeedMove.emitted moves) ∧
      (f.Delivers ↔ RoomAtEnd maxSize moves) := by
  have hkept : Kept maxSize f := (Kept.start maxSize).run hrun
  have hall : f.received = f.accepted := by
    have hconserved := hkept.conserved
    rwa [hempty, List.append_nil] at hconserved
  refine ⟨?_, fun hdelivers => ?_, fun hroom => ?_⟩
  · obtain ⟨more, hmore, hsub⟩ := run_sublist hrun
    rw [hmore]
    exact hsub
  · have hstage : f.stage ≠ .streaming := by
      rw [hkept.closed.mp hclosed]
      nofun
    obtain ⟨before, event, after, rfl⟩ := run_finished rfl hrun hstage
    obtain ⟨f₀, hbefore, -, htokens, haccepted⟩ := run_ending hrun
    refine ⟨before, event, after, f₀, rfl, hbefore, ?_⟩
    by_contra hfull
    rw [if_neg hfull] at haccepted
    obtain ⟨ending, hterminal, heq⟩ := hdelivers
    have hmem : ending ∈ f₀.accepted := by
      rw [← haccepted, ← hall, heq]
      exact List.mem_append_right _ List.mem_cons_self
    rw [htokens ending hmem] at hterminal
    cases hterminal
  · obtain ⟨before, event, after, f₀, rfl, hbefore, hless⟩ := hroom
    obtain ⟨f₁, hbefore', hterminal, htokens, haccepted⟩ := run_ending hrun
    obtain rfl : f₀ = f₁ := Option.some.inj (hbefore.symm.trans hbefore')
    rw [if_pos hless] at haccepted
    refine ⟨event, hterminal, ?_⟩
    have hkeep : f₀.accepted.filter (fun e => !e.isTerminal) = f₀.accepted := by
      rw [List.filter_eq_self]
      intro e he
      simp [htokens e he]
    rw [hall, haccepted, List.filter_append, hkeep]
    simp [hterminal]

end Runs

/-! ## A consumer that is too far behind -/

section Lag

variable (maxSize : Nat) (tokenId : Int) (text : Bytes)

/-- `n` unread tokens. -/
def unread (n : Nat) : Feed :=
  { queue := { events := List.replicate n (.token tokenId text), maxSize := maxSize }
    accepted := List.replicate n (.token tokenId text) }

/-- A full queue that dropped the terminal event and was closed. -/
def overrun : Feed :=
  { queue :=
      { events := List.replicate maxSize (.token tokenId text), maxSize := maxSize
        closed := true, droppedCount := 1 }
    stage := .closed
    accepted := List.replicate maxSize (.token tokenId text) }

theorem run_emits {n : Nat} (hn : n ≤ maxSize) :
    (start maxSize).run (List.replicate n (.emit tokenId text)) =
      some (unread maxSize tokenId text n) := by
  induction n with
  | zero => rfl
  | succ n ih =>
      rw [List.replicate_succ', run_concat, ih (by omega)]
      have hroom : ¬ maxSize ≤ n := by omega
      simp [step, unread, offer, TokenQueue.push, hroom, ← List.replicate_succ']

/-- Reading `n` tokens off a closed queue. -/
theorem run_pops (f : Feed) (n : Nat)
    (hevents : f.queue.events = List.replicate n (.token tokenId text)) :
    ∃ f', f.run (List.replicate n .pop) = some f' ∧ f'.queue.closed = f.queue.closed ∧
      f'.queue.events = [] ∧ f'.accepted = f.accepted := by
  induction n generalizing f with
  | zero => exact ⟨f, rfl, rfl, hevents, rfl⟩
  | succ n ih =>
      have hrest : f.take.queue.events = List.replicate n (.token tokenId text) := by
        simp [take, TokenQueue.pop, hevents, List.replicate_succ]
      obtain ⟨f', hrun, hclosed, hempty, haccepted⟩ := ih f.take hrest
      refine ⟨f', ?_, ?_, hempty, haccepted⟩
      · rw [List.replicate_succ, run_cons]
        exact hrun
      · rw [hclosed]
        simp [take, TokenQueue.pop, hevents, List.replicate_succ]

theorem run_overrun {ending : TokenEvent} (hending : ending.isTerminal) :
    (start maxSize).run (List.replicate maxSize (.emit tokenId text) ++
      [.finish ending, .close]) = some (overrun maxSize tokenId text) := by
  rw [run_append, run_emits maxSize tokenId text (le_refl maxSize), Option.bind_some, run_cons]
  simp [run, step, unread, overrun, offer, TokenQueue.push, TokenQueue.close, hending]

include tokenId text in
/-- At every capacity the terminal event is lost on a consumer that reads
nothing before the end. -/
theorem terminal_lost {ending : TokenEvent} (hending : ending.isTerminal) :
    ∃ moves f, (start maxSize).run moves = some f ∧ f.queue.closed = true ∧
      f.queue.events = [] ∧ ¬ f.Delivers := by
  obtain ⟨f, hpops, hclosed, hempty, haccepted⟩ :=
    run_pops tokenId text (overrun maxSize tokenId text) maxSize rfl
  have hrun : (start maxSize).run (List.replicate maxSize (.emit tokenId text) ++
      [.finish ending, .close] ++ List.replicate maxSize .pop) = some f := by
    rw [run_append, run_overrun maxSize tokenId text hending]
    exact hpops
  refine ⟨_, f, hrun, hclosed, hempty, ?_⟩
  rintro ⟨last, hterminal, heq⟩
  have hkept : Kept maxSize f := (Kept.start maxSize).run hrun
  have hmem : last ∈ f.accepted := by
    rw [← hkept.conserved, heq]
    simp
  rw [haccepted] at hmem
  obtain rfl : last = .token tokenId text := (List.mem_replicate.mp hmem).2
  cases hterminal

end Lag

end Feed

end Qwen
