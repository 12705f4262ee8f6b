import WinInference.Concurrency.Positions

/-!
# The SSE streamer

`SSEStreamer` (`api/sse_streamer.cpp`): producers queue events and one thread
writes them out.  Each call is a thread.  Its control points are the reads and
writes of the flags, which take no lock, and the steps under the queue lock.

A step of `run` that writes is answered by the write callback: `true` when the
frame was taken.
-/

namespace Qwen

open Concurrency

/-- `SSEEventType`. -/
inductive SSEEventType where
  | chunk
  | done
  | error
deriving DecidableEq

/-- An event to be sent to the client. -/
structure SSEEvent (C E : Type) where
  type : SSEEventType
  chunk : Option C := none
  error : Option E := none

/-- After such an event `run` leaves its loop. -/
def SSEEvent.isTerminal {C E : Type} (event : SSEEvent C E) : Bool :=
  event.type = .done || event.type = .error

/-- `SSEStreamerConfig`, without the flush interval. -/
structure SSEStreamerConfig where
  maxQueueSize : Nat := 256
  enableBackpressure : Bool := true

namespace SSEStreamer

/-- The streamer's configuration and what its producers push.  The JSON library
throws where it gives no text. -/
structure Setup (C E : Type) where
  config : SSEStreamerConfig := {}
  hasCancelToken : Bool := true
  dumpChunk : C → Option String
  dumpError : E → Option String
  chunk : Nat → C
  error : Nat → E

/-- The calls on one streamer. -/
inductive Thread where
  | pushChunk (n : Nat)
  | pushError (n : Nat)
  | complete (n : Nat)
  | run
  /-- `stop`, from the destructor or from the cancellation token -/
  | stop (n : Nat)
deriving DecidableEq

/-- The streamer, with two histories: the frames written and the events queued. -/
structure Streamer (C E : Type) where
  active : Bool := true
  disconnected : Bool := false
  completed : Bool := false
  events : List (SSEEvent C E) := []
  frames : List String := []
  accepted : List (SSEEvent C E) := []

/-- The points of a call; `run` is at `start` before each round of its loop. -/
inductive Point (C E : Type) where
  | start
  /-- `push_chunk` saw the streamer active -/
  | connected
  | lock
  /-- the call queued an event, the `k`-th of all; `push_chunk` returned true -/
  | queued (k : Nat)
  /-- the call queued nothing; `push_chunk` returned false -/
  | refused
  /-- `run` about to look at the queue -/
  | wait
  | write (event : SSEEvent C E)
  | written (event : SSEEvent C E)
  /-- the write failed -/
  | failed
  | cancelling
  /-- left by an exception of the JSON library -/
  | threw
  | finished

section Code

variable {C E : Type} (setup : Setup C E)

/-- The call is over. -/
def Point.ended : Point C E → Bool
  | .queued _ | .refused | .threw | .finished => true
  | _ => false

/-- What a producer pushes. -/
def Setup.event? : Thread → Option (SSEEvent C E)
  | .pushChunk n => some { type := .chunk, chunk := some (setup.chunk n) }
  | .pushError n => some { type := .error, error := some (setup.error n) }
  | .complete _ => some { type := .done }
  | .run | .stop _ => none

/-- `format_sse_event`. -/
def Setup.formatSseEvent (event : SSEEvent C E) : Option String :=
  match event.type with
  | .chunk =>
      match event.chunk with
      | some chunk => (setup.dumpChunk chunk).map fun j => "data: " ++ j ++ "\n\n"
      | none => some ""
  | .done => some "data: [DONE]\n\n"
  | .error =>
      match event.error with
      | some error => (setup.dumpError error).map fun j => "data: " ++ j ++ "\n\n"
      | none => some ""

/-- The backpressure check. -/
def Setup.isFull (s : Streamer C E) : Bool :=
  setup.config.enableBackpressure && setup.config.maxQueueSize ≤ s.events.length

/-- `events_.push`. -/
def push (event : SSEEvent C E) (s : Streamer C E) : Point C E × Streamer C E :=
  (.queued s.accepted.length,
    { s with events := s.events ++ [event], accepted := s.accepted ++ [event] })

/-- `push_chunk` -/
def pushChunk (n : Nat) : Point C E → Streamer C E → Point C E × Streamer C E
  | .start, s => (if s.active then .connected else .refused, s)
  | .connected, s => (if s.disconnected then .refused else .lock, s)
  | .lock, s =>
      if setup.isFull s then (.refused, s)
      else push { type := .chunk, chunk := some (setup.chunk n) } s
  | point, s => (point, s)

/-- `push_error` -/
def pushError (n : Nat) : Point C E → Streamer C E → Point C E × Streamer C E
  | .start, s => (if s.active then .lock else .refused, s)
  | .lock, s => push { type := .error, error := some (setup.error n) } s
  | point, s => (point, s)

/-- `complete` -/
def complete : Point C E → Streamer C E → Point C E × Streamer C E
  | .start, s => (if s.active then .lock else .refused, s)
  | .lock, s => push { type := .done } { s with completed := true }
  | point, s => (point, s)

/-- The locked part of a round of `run`, once the wait is over. -/
def pop (s : Streamer C E) : Point C E × Streamer C E :=
  match s.events with
  | [] => (if s.active then .start else .finished, s)
  | event :: rest => (.write event, { s with events := rest })

/-- The write, answered by `taken`. -/
def tryWrite (event : SSEEvent C E) (taken : Bool) (s : Streamer C E) :
    Point C E × Streamer C E :=
  match setup.formatSseEvent event with
  | none => (.threw, s)
  | some data =>
      if taken then (.written event, { s with frames := s.frames ++ [data] }) else (.failed, s)

/-- `run` -/
def runLoop : Point C E → Bool → Streamer C E → Point C E × Streamer C E
  | .start, _, s => (if s.active then .wait else .finished, s)
  | .wait, _, s => pop s
  | .write event, taken, s => tryWrite setup event taken s
  | .failed, _, s =>
      (if setup.hasCancelToken then .cancelling else .finished, { s with disconnected := true })
  -- the callback that the constructor registered calls `stop`
  | .cancelling, _, s => (.finished, { s with active := false })
  | .written event, _, s =>
      if event.isTerminal then (.finished, { s with active := false }) else (.start, s)
  | point, _, s => (point, s)

/-- `stop` -/
def stop : Point C E → Streamer C E → Point C E × Streamer C E
  | .start, s => (.finished, { s with active := false })
  | point, s => (point, s)

/-- What a call does at each point. -/
def act : Thread → Point C E → Bool → Streamer C E → Point C E × Streamer C E
  | .pushChunk n, point, _, s => pushChunk setup n point s
  | .pushError n, point, _, s => pushError setup n point s
  | .complete _, point, _, s => complete point s
  | .run, point, taken, s => runLoop setup point taken s
  | .stop _, point, _, s => stop point s

/-- The bodies of the calls. -/
def code : Thread → Point C E → Program Bool (Streamer C E) (Point C E) :=
  perPoint Point.ended (act setup)

/-- A new streamer and the calls on it, before any of them. -/
def initial : Pool Thread Bool (Streamer C E) (Point C E) := ⟨{}, fun _ => .ret .start⟩

/-- An interleaving of the calls. -/
def run (schedule : List (Thread × Bool)) : Pool Thread Bool (Streamer C E) (Point C E) :=
  initial.run (code setup) schedule

end Code

/-! ## What a step can do -/

section Moves

variable {C E : Type} {setup : Setup C E} {s s' : Streamer C E} {point : Point C E} {t : Thread}

/-- The events that were written. -/
def Streamer.sent (s : Streamer C E) : List (SSEEvent C E) := s.accepted.take s.frames.length

/-- The events that were not. -/
def Streamer.unsent (s : Streamer C E) : List (SSEEvent C E) := s.accepted.drop s.frames.length

/-- A producer queues `event`. -/
structure Pushes (setup : Setup C E) (t : Thread) (event : SSEEvent C E) (point : Point C E)
    (s : Streamer C E) (point' : Point C E) (s' : Streamer C E) : Prop where
  event? : setup.event? t = some event
  lock : point = .lock
  roomy : event.type = .chunk → setup.isFull s = false
  point' : point' = .queued s.accepted.length
  events : s'.events = s.events ++ [event]
  accepted : s'.accepted = s.accepted ++ [event]
  frames : s'.frames = s.frames
  active : s'.active = s.active

/-- A call touches neither the queue nor the frames. -/
structure Idles (s s' : Streamer C E) (point' : Point C E) : Prop where
  point' : ∀ k, point' ≠ .queued k
  events : s'.events = s.events
  accepted : s'.accepted = s.accepted
  frames : s'.frames = s.frames

variable (setup s) in
/-- What a producer or `stop` does. -/
theorem act_producer (hend : point.ended = false) (ht : t ≠ .run) (taken : Bool) :
    (∃ event, Pushes setup t event point s (act setup t point taken s).1
      (act setup t point taken s).2) ∨
    (Idles s (act setup t point taken s).2 (act setup t point taken s).1 ∧
      ((∀ n, t ≠ .stop n) → (act setup t point taken s).2.active = s.active)) := by
  cases t with
  | run => exact absurd rfl ht
  | stop n =>
      refine .inr ⟨?_, fun hstop => absurd rfl (hstop n)⟩
      cases point with
      | queued _ | refused | threw | finished => cases hend
      | _ => constructor <;> simp [act, stop]
  | pushError n =>
      cases point with
      | lock => exact .inl ⟨_, rfl, rfl, nofun, rfl, rfl, rfl, rfl, rfl⟩
      | start =>
          refine .inr ⟨⟨fun k => ?_, rfl, rfl, rfl⟩, fun _ => rfl⟩
          simp only [act, pushError]
          split <;> simp
      | queued _ | refused | threw | finished => cases hend
      | _ => exact .inr ⟨⟨nofun, rfl, rfl, rfl⟩, fun _ => rfl⟩
  | complete n =>
      cases point with
      | lock => exact .inl ⟨_, rfl, rfl, nofun, rfl, rfl, rfl, rfl, rfl⟩
      | start =>
          refine .inr ⟨⟨fun k => ?_, rfl, rfl, rfl⟩, fun _ => rfl⟩
          simp only [act, complete]
          split <;> simp
      | queued _ | refused | threw | finished => cases hend
      | _ => exact .inr ⟨⟨nofun, rfl, rfl, rfl⟩, fun _ => rfl⟩
  | pushChunk n =>
      cases point with
      | lock =>
          cases hfull : setup.isFull s with
          | true =>
              refine .inr ⟨⟨fun k => ?_, ?_, ?_, ?_⟩, fun _ => ?_⟩ <;>
                simp [act, pushChunk, hfull]
          | false =>
              refine .inl ⟨_, rfl, rfl, fun _ => hfull, ?_, ?_, ?_, ?_, ?_⟩ <;>
                simp [act, pushChunk, push, hfull]
      | start | connected =>
          refine .inr ⟨⟨fun k => ?_, rfl, rfl, rfl⟩, fun _ => rfl⟩
          simp only [act, pushChunk]
          split <;> simp
      | queued _ | refused | threw | finished => cases hend
      | _ => exact .inr ⟨⟨nofun, rfl, rfl, rfl⟩, fun _ => rfl⟩

end Moves

/-! ## Invariants -/

section Invariants

variable {C E : Type}

/-- What `run` holds besides the queue, as long as it keeps every event. -/
def Point.inHand : Point C E → Option (List (SSEEvent C E))
  | .start | .wait | .written _ => some []
  | .write event => some [event]
  | _ => none

/-- `run` is on its way to a write. -/
def Point.isOpen : Point C E → Bool
  | .start | .wait | .write _ => true
  | _ => false

/-- The queued events are those of the calls that queued one, each at its place. -/
structure Queued (setup : Setup C E) (s : Streamer C E) (pos : Thread → Point C E) : Prop where
  queued : ∀ t k, pos t = .queued k →
    ∃ event, setup.event? t = some event ∧ s.accepted[k]? = some event
  pushed : ∀ k event, s.accepted[k]? = some event →
    ∃ t, pos t = .queued k ∧ setup.event? t = some event

/-- The frames are the first of the queued events, and `run` at `point` has the
others before it. -/
structure Streamed (setup : Setup C E) (s : Streamer C E) (point : Point C E) : Prop where
  frames : s.frames.map some = s.sent.map setup.formatSseEvent
  unsent : ∀ held, point.inHand = some held → s.unsent = held ++ s.events
  written : ∀ event, point = .written event → s.sent.getLast? = some event
  fresh : point.isOpen = true → ∀ e ∈ s.sent, e.isTerminal = false
  closed : ∀ e ∈ s.sent.dropLast, e.isTerminal = false

/-- No write failed and nothing stopped the streamer. -/
structure Undisturbed (s : Streamer C E) (point : Point C E) : Prop where
  active : s.active = false → point = .finished
  finished : point = .finished → ∃ e, s.sent.getLast? = some e ∧ e.isTerminal = true
  whole : point ≠ .failed ∧ point ≠ .cancelling

variable {setup : Setup C E} {s s' : Streamer C E} {point point' : Point C E} {t : Thread}
  {pos : Thread → Point C E}

theorem Streamed.length_le (h : Streamed setup s point) :
    s.frames.length ≤ s.accepted.length := by
  have hlen := congrArg List.length h.frames
  simp only [List.length_map, Streamer.sent, List.length_take] at hlen
  omega

/-- The same lists. -/
theorem Streamed.of_same (h : Streamed setup s point) (hevents : s'.events = s.events)
    (haccepted : s'.accepted = s.accepted) (hframes : s'.frames = s.frames) :
    Streamed setup s' point := by
  obtain ⟨hf, hu, hw, hfresh, hclosed⟩ := h
  constructor <;> simp only [Streamer.sent, Streamer.unsent, hevents, haccepted, hframes] at * <;>
    assumption

/-- A queued event is not yet written. -/
theorem Pushes.sent {event : SSEEvent C E} {p : Point C E}
    (hpush : Pushes setup t event p s point' s') (hle : s.frames.length ≤ s.accepted.length) :
    s'.sent = s.sent := by
  rw [Streamer.sent, hpush.accepted, hpush.frames, List.take_append_of_le_length hle]
  rfl

/-- An event is queued. -/
theorem Streamed.push {event : SSEEvent C E} {p : Point C E} (h : Streamed setup s point)
    (hpush : Pushes setup t event p s point' s') : Streamed setup s' point := by
  have hlen := h.length_le
  have hsent := hpush.sent hlen
  have hunsent : s'.unsent = s.unsent ++ [event] := by
    rw [Streamer.unsent, hpush.accepted, hpush.frames, List.drop_append_of_le_length hlen]
    rfl
  constructor
  · rw [hsent, hpush.frames]
    exact h.frames
  · intro held hheld
    rw [hunsent, h.unsent held hheld, hpush.events, List.append_assoc]
  · rw [hsent]
    exact h.written
  · rw [hsent]
    exact h.fresh
  · rw [hsent]
    exact h.closed

/-- `run` goes on without a write. -/
theorem Streamed.move (h : Streamed setup s point)
    (hunsent : ∀ held, point'.inHand = some held → s.unsent = held ++ s.events)
    (hwritten : ∀ event, point' ≠ .written event)
    (hfresh : point'.isOpen = true → point.isOpen = true) : Streamed setup s point' :=
  ⟨h.frames, hunsent, fun event he => absurd he (hwritten event), fun ho => h.fresh (hfresh ho),
    h.closed⟩

/-- `run` takes an event from the queue, or finds none. -/
theorem Streamed.pop (h : Streamed setup s .wait) : Streamed setup (pop s).2 (pop s).1 := by
  have hall := h.unsent [] rfl
  cases hevents : s.events with
  | nil =>
      simp only [SSEStreamer.pop, hevents]
      refine h.move ?_ ?_ ?_ <;> cases s.active <;> simp_all [Point.inHand, Point.isOpen]
  | cons event rest =>
      simp only [SSEStreamer.pop, hevents]
      refine ⟨h.frames, ?_, nofun, fun _ => h.fresh rfl, h.closed⟩
      intro held hheld
      obtain rfl : held = [event] := by simpa [Point.inHand] using hheld.symm
      show s.unsent = [event] ++ rest
      rw [hall, hevents]
      rfl

/-- A frame is written. -/
theorem Streamed.tryWrite {event : SSEEvent C E} (h : Streamed setup s (.write event))
    (taken : Bool) :
    Streamed setup (tryWrite setup event taken s).2 (tryWrite setup event taken s).1 := by
  unfold SSEStreamer.tryWrite
  have hall : s.unsent = event :: s.events := h.unsent [event] rfl
  cases hformat : setup.formatSseEvent event with
  | none => exact h.move nofun nofun nofun
  | some data =>
      cases taken with
      | false => exact h.move nofun nofun nofun
      | true =>
          have hsplit : s.accepted = s.sent ++ event :: s.events := by
            rw [← hall]
            exact (List.take_append_drop _ _).symm
          have hlen : s.sent.length = s.frames.length := List.length_take_of_le h.length_le
          have hsent : s.accepted.take (s.frames.length + 1) = s.sent ++ [event] := by
            rw [hsplit, ← hlen, List.take_length_add_append]
            rfl
          have hunsent : s.accepted.drop (s.frames.length + 1) = s.events := by
            rw [hsplit, ← hlen, List.drop_length_add_append]
            rfl
          constructor
          · simp only [Streamer.sent, List.length_append, List.length_singleton, if_true, hsent]
            rw [List.map_append, h.frames, List.map_append, List.map_singleton, List.map_singleton,
              hformat]
            rfl
          · intro held hheld
            obtain rfl : held = [] := by simpa [Point.inHand] using hheld.symm
            simpa [Streamer.unsent] using hunsent
          · intro event' he
            obtain rfl : event = event' := by simpa using he
            simp [Streamer.sent, hsent]
          · exact nofun
          · simp only [Streamer.sent, List.length_append, List.length_singleton, if_true, hsent,
              List.dropLast_concat]
            exact h.fresh rfl

/-- The test for a terminal event. -/
theorem Streamed.written_open {event : SSEEvent C E} (h : Streamed setup s (.written event))
    (hevent : event.isTerminal = false) : ∀ e ∈ s.sent, e.isTerminal = false := by
  have hlast := h.written event rfl
  have hsplit := List.dropLast_append_getLast? event hlast
  intro e he
  rw [← hsplit, List.mem_append] at he
  rcases he with he | he
  · exact h.closed e he
  · obtain rfl := List.mem_singleton.1 he
    exact hevent

/-- A step of `run`. -/
theorem Streamed.runLoop (h : Streamed setup s point) (taken : Bool) :
    Streamed setup (runLoop setup point taken s).2 (runLoop setup point taken s).1 := by
  cases point with
  | start =>
      refine h.move ?_ ?_ fun _ => rfl
      · intro held hheld
        refine h.unsent held ?_
        cases hactive : s.active <;> simp_all [SSEStreamer.runLoop, Point.inHand]
      · intro event
        cases hactive : s.active <;> simp [SSEStreamer.runLoop, hactive]
  | wait => exact h.pop
  | write event => exact h.tryWrite taken
  | written event =>
      simp only [SSEStreamer.runLoop]
      split
      · have hsame : Streamed setup { s with active := false } (.written event) :=
          h.of_same rfl rfl rfl
        exact hsame.move nofun nofun nofun
      · next hevent =>
          refine ⟨h.frames, fun held hheld => h.unsent held hheld, nofun, fun _ => ?_, h.closed⟩
          exact h.written_open (by simpa using hevent)
  | failed =>
      have hsame : Streamed setup { s with disconnected := true } .failed := h.of_same rfl rfl rfl
      refine hsame.move ?_ ?_ ?_ <;> cases hc : setup.hasCancelToken <;>
        simp [SSEStreamer.runLoop, hc, Point.inHand, Point.isOpen]
  | cancelling =>
      have hsame : Streamed setup { s with active := false } .cancelling := h.of_same rfl rfl rfl
      exact hsame.move nofun nofun nofun
  | connected | lock | queued _ | refused | threw | finished => exact h

/-- A step of `run` without a failing write. -/
theorem Undisturbed.runLoop (h : Undisturbed s point) (hs : Streamed setup s point)
    (hend : point.ended = false) :
    Undisturbed (runLoop setup point true s).2 (runLoop setup point true s).1 := by
  have hactive : s.active = true := by
    cases hactive : s.active with
    | true => rfl
    | false =>
        rw [h.active hactive] at hend
        cases hend
  cases point with
  | start => constructor <;> simp [SSEStreamer.runLoop, hactive]
  | wait =>
      simp only [SSEStreamer.runLoop, SSEStreamer.pop]
      split <;> constructor <;> simp [hactive]
  | write event =>
      simp only [SSEStreamer.runLoop, SSEStreamer.tryWrite]
      split <;> constructor <;> simp [hactive]
  | written event =>
      simp only [SSEStreamer.runLoop]
      split
      · next hevent =>
          exact ⟨fun _ => rfl, fun _ => ⟨event, hs.written event rfl, hevent⟩, nofun, nofun⟩
      · constructor <;> simp [hactive]
  | failed => exact absurd rfl h.whole.1
  | cancelling => exact absurd rfl h.whole.2
  | connected | lock => exact h
  | queued _ | refused | threw | finished => cases hend

/-- A producer's event. -/
theorem Undisturbed.push {event : SSEEvent C E} {p : Point C E} (h : Undisturbed s point)
    (hs : Streamed setup s point) (hpush : Pushes setup t event p s point' s') :
    Undisturbed s' point := by
  have hsent := hpush.sent hs.length_le
  refine ⟨fun ha => h.active (hpush.active ▸ ha), fun hp => ?_, h.whole⟩
  rw [hsent]
  exact h.finished hp

/-- A call queues its event. -/
theorem Queued.push {event : SSEEvent C E} (h : Queued setup s pos)
    (hpush : Pushes setup t event (pos t) s point' s') :
    Queued setup s' (Function.update pos t point') := by
  constructor
  · intro u k hu
    by_cases hut : u = t
    · subst hut
      rw [Function.update_self, hpush.point'] at hu
      obtain rfl : s.accepted.length = k := by simpa using hu
      exact ⟨event, hpush.event?, by simp [hpush.accepted]⟩
    · rw [Function.update_of_ne hut] at hu
      obtain ⟨e, he, hk⟩ := h.queued u k hu
      have hlt : k < s.accepted.length := (List.getElem?_eq_some_iff.1 hk).1
      exact ⟨e, he, by rw [hpush.accepted, List.getElem?_append_left hlt, hk]⟩
  · intro k e hk
    rw [hpush.accepted] at hk
    by_cases hlt : k < s.accepted.length
    · rw [List.getElem?_append_left hlt] at hk
      obtain ⟨u, hu, he⟩ := h.pushed k e hk
      have hut : u ≠ t := by
        rintro rfl
        rw [hpush.lock] at hu
        cases hu
      exact ⟨u, by rw [Function.update_of_ne hut, hu], he⟩
    · have hlen := (List.getElem?_eq_some_iff.1 hk).1
      rw [List.length_append, List.length_singleton] at hlen
      obtain rfl : k = s.accepted.length := by omega
      obtain rfl : event = e := by simpa using hk
      exact ⟨t, by rw [Function.update_self, hpush.point'], hpush.event?⟩

/-- A step that queues nothing. -/
theorem Queued.idle (h : Queued setup s pos) (hend : (pos t).ended = false)
    (hpoint : ∀ k, point' ≠ .queued k) (haccepted : s'.accepted = s.accepted) :
    Queued setup s' (Function.update pos t point') := by
  constructor
  · intro u k hu
    rw [haccepted]
    by_cases hut : u = t
    · subst hut
      rw [Function.update_self] at hu
      exact absurd hu (hpoint k)
    · rw [Function.update_of_ne hut] at hu
      exact h.queued u k hu
  · intro k e hk
    rw [haccepted] at hk
    obtain ⟨u, hu, he⟩ := h.pushed k e hk
    have hut : u ≠ t := by
      rintro rfl
      rw [hu] at hend
      cases hend
    exact ⟨u, by rw [Function.update_of_ne hut, hu], he⟩

variable (setup s) in
/-- `run` queues nothing. -/
theorem runLoop_accepted (hend : point.ended = false) (taken : Bool) :
    (runLoop setup point taken s).2.accepted = s.accepted ∧
      ∀ k, (runLoop setup point taken s).1 ≠ .queued k := by
  cases point with
  | queued _ | refused | threw | finished => cases hend
  | start => cases hactive : s.active <;> simp [SSEStreamer.runLoop, hactive]
  | wait =>
      simp only [SSEStreamer.runLoop, SSEStreamer.pop]
      cases s.events <;> cases s.active <;> simp
  | write event =>
      simp only [SSEStreamer.runLoop, SSEStreamer.tryWrite]
      cases setup.formatSseEvent event <;> cases taken <;> simp
  | written event => cases hevent : event.isTerminal <;> simp [SSEStreamer.runLoop, hevent]
  | failed => cases hc : setup.hasCancelToken <;> simp [SSEStreamer.runLoop, hc]
  | cancelling | connected | lock => simp [SSEStreamer.runLoop]

/-- The invariant of every run. -/
structure Inv (setup : Setup C E) (s : Streamer C E) (pos : Thread → Point C E) : Prop where
  queued : Queued setup s pos
  streamed : Streamed setup s (pos .run)

theorem inv_initial : Inv setup {} fun _ => .start := by
  constructor <;> constructor <;> simp [Streamer.sent, Streamer.unsent, Point.inHand]

/-- **One step.** -/
theorem Inv.act (h : Inv setup s pos) (hend : (pos t).ended = false) (taken : Bool) :
    Inv setup (act setup t (pos t) taken s).2
      (Function.update pos t (act setup t (pos t) taken s).1) := by
  by_cases ht : t = .run
  · subst ht
    obtain ⟨haccepted, hpoint⟩ := runLoop_accepted setup s hend taken
    refine ⟨h.queued.idle hend hpoint haccepted, ?_⟩
    rw [Function.update_self]
    exact h.streamed.runLoop taken
  · have hrun : Function.update pos t (SSEStreamer.act setup t (pos t) taken s).1 .run = pos .run :=
      Function.update_of_ne (Ne.symm ht) _ _
    rcases act_producer setup s hend ht taken with ⟨event, hpush⟩ | ⟨hidle, -⟩
    · refine ⟨h.queued.push hpush, ?_⟩
      rw [hrun]
      exact h.streamed.push hpush
    · refine ⟨h.queued.idle hend hidle.point' hidle.accepted, ?_⟩
      rw [hrun]
      exact h.streamed.of_same hidle.events hidle.accepted hidle.frames

/-- The steps without a failing write and without `stop`. -/
def Quiet (t : Thread) (taken : Bool) : Prop := (t = .run → taken = true) ∧ ∀ n, t ≠ .stop n

theorem undisturbed_initial : Undisturbed ({} : Streamer C E) .start := by
  constructor <;> simp

/-- One of these steps. -/
theorem Undisturbed.act {taken : Bool} (h : Undisturbed s (pos .run)) (hinv : Inv setup s pos)
    (hend : (pos t).ended = false) (hquiet : Quiet t taken) :
    Undisturbed (act setup t (pos t) taken s).2
      (Function.update pos t (act setup t (pos t) taken s).1 .run) := by
  by_cases ht : t = .run
  · subst ht
    rw [Function.update_self, hquiet.1 rfl]
    exact h.runLoop hinv.streamed hend
  · rw [Function.update_of_ne (Ne.symm ht)]
    rcases act_producer setup s hend ht taken with
      ⟨event, hpush⟩ | ⟨hidle, hactive⟩
    · exact h.push hinv.streamed hpush
    · refine ⟨fun ha => h.active (hactive hquiet.2 ▸ ha), fun hp => ?_, h.whole⟩
      rw [Streamer.sent, hidle.accepted, hidle.frames]
      exact h.finished hp

end Invariants

/-! ## Whole runs -/

section Runs

variable {C E : Type} {setup : Setup C E}

/-- Along every interleaving. -/
theorem run_inv (setup : Setup C E) (schedule : List (Thread × Bool)) :
    ∃ pos, (run setup schedule).Stands Point.ended (act setup) pos ∧
      Inv setup (run setup schedule).state pos :=
  Pool.run_positions (fun _ _ => True) inv_initial (fun _ i _ _ _ hend h => h.act hend i)
    schedule fun _ _ => trivial

/-- Along every interleaving in which no write fails and nothing stops the streamer. -/
theorem run_undisturbed (setup : Setup C E) (schedule : List (Thread × Bool))
    (hquiet : ∀ e ∈ schedule, Quiet e.1 e.2) :
    ∃ pos, (run setup schedule).Stands Point.ended (act setup) pos ∧
      Inv setup (run setup schedule).state pos ∧
      Undisturbed (run setup schedule).state (pos .run) :=
  Pool.run_positions Quiet (J := fun s pos => Inv setup s pos ∧ Undisturbed s (pos .run))
    ⟨inv_initial, undisturbed_initial⟩
    (fun _ i _ _ hq hend h => ⟨h.1.act hend i, h.2.act h.1 hend hq⟩) schedule hquiet

/-- No chunk was queued behind a terminal event. -/
def ChunksFirst (accepted : List (SSEEvent C E)) : Prop :=
  accepted.Pairwise fun e e' => e.isTerminal = true → e'.type ≠ .chunk

/-- The step of `t` is one of `push_chunk` under the lock, with room in the
queue, after a terminal event was queued. -/
def PushesLate (setup : Setup C E) (w : Pool Thread Bool (Streamer C E) (Point C E))
    (t : Thread) : Prop :=
  (∃ n, t = .pushChunk n) ∧ w.threads t = code setup t .lock ∧ setup.isFull w.state = false ∧
    ∃ e ∈ w.state.accepted, e.isTerminal = true

/-- A push under the lock. -/
theorem chunksFirst_push {t : Thread} {event : SSEEvent C E} {point point' : Point C E}
    {s s' : Streamer C E} (hpush : Pushes setup t event point s point' s') :
    ChunksFirst s'.accepted ↔ ChunksFirst s.accepted ∧
      ¬((∃ n, t = .pushChunk n) ∧ ∃ e ∈ s.accepted, e.isTerminal = true) := by
  have hchunk : event.type = .chunk ↔ ∃ n, t = .pushChunk n := by
    have hevent := hpush.event?
    cases t <;> simp only [Setup.event?] at hevent <;> cases hevent <;> simp
  rw [hpush.accepted, ChunksFirst, List.pairwise_append, ← hchunk]
  simp only [List.pairwise_singleton, true_and, List.mem_singleton, forall_eq, ChunksFirst]
  constructor
  · rintro ⟨hfirst, hlast⟩
    exact ⟨hfirst, fun ⟨htype, e, he, hterminal⟩ => hlast e he hterminal htype⟩
  · rintro ⟨hfirst, hnot⟩
    exact ⟨hfirst, fun e he hterminal htype => hnot ⟨htype, e, he, hterminal⟩⟩

/-- A step puts a chunk behind a terminal event only when it pushes late. -/
theorem step_chunksFirst {w : Pool Thread Bool (Streamer C E) (Point C E)}
    {pos : Thread → Point C E} (h : w.Stands Point.ended (act setup) pos) (t : Thread)
    (taken : Bool) :
    ChunksFirst (w.step (code setup) t taken).state.accepted ↔
      ChunksFirst w.state.accepted ∧ ¬PushesLate setup w t := by
  by_cases hlock : w.threads t = code setup t .lock
  · have hact : w.threads t = Program.atomic (act setup t .lock) :=
      hlock.trans (perPoint_atomic rfl)
    have hstate : (w.step (code setup) t taken).state = (act setup t .lock taken w.state).2 :=
      (Pool.step_act (code setup) hact taken).1
    by_cases ht : t = .run
    · subst ht
      have hnot : ¬PushesLate setup w .run := fun hlate => by simpa using hlate.1
      rw [hstate]
      exact ⟨fun hfirst => ⟨hfirst, hnot⟩, And.left⟩
    · have hend : (Point.lock : Point C E).ended = false := rfl
      rcases act_producer setup w.state hend ht taken with ⟨event, hpush⟩ | ⟨hidle, -⟩
      · have hroomy : (∃ n, t = .pushChunk n) → setup.isFull w.state = false := by
          rintro ⟨n, rfl⟩
          have hevent := hpush.event?
          cases hevent
          exact hpush.roomy rfl
        rw [hstate, chunksFirst_push hpush]
        refine and_congr_right fun _ => not_congr ⟨?_, ?_⟩
        · rintro ⟨hchunk, hterminal⟩
          exact ⟨hchunk, hlock, hroomy hchunk, hterminal⟩
        · rintro ⟨hchunk, -, -, hterminal⟩
          exact ⟨hchunk, hterminal⟩
      · have hnot : ¬PushesLate setup w t := by
          rintro ⟨⟨n, rfl⟩, -, hfull, -⟩
          refine hidle.point' w.state.accepted.length ?_
          simp [act, pushChunk, push, hfull]
        rw [hstate, hidle.accepted]
        exact ⟨fun hfirst => ⟨hfirst, hnot⟩, And.left⟩
  · have hnot : ¬PushesLate setup w t := fun hlate => hlock hlate.2.1
    have hsame : (w.step (code setup) t taken).state.accepted = w.state.accepted := by
      rcases h.step t taken with ⟨-, hstate⟩ | ⟨hact, hend, -, hstate⟩
      · exact congrArg Streamer.accepted hstate
      · refine (congrArg Streamer.accepted hstate).trans ?_
        by_cases ht : t = .run
        · subst ht
          exact (runLoop_accepted setup w.state hend taken).1
        · rcases act_producer setup w.state hend ht taken with ⟨event, hpush⟩ | ⟨hidle, -⟩
          · refine absurd (hact.trans ?_) hlock
            rw [hpush.lock]
            exact (perPoint_atomic rfl).symm
          · exact hidle.accepted
    rw [hsame]
    exact ⟨fun hfirst => ⟨hfirst, hnot⟩, And.left⟩

/-- The producers' order of a run, by its steps. -/
theorem run_chunksFirst (setup : Setup C E) (schedule : List (Thread × Bool)) :
    ChunksFirst (run setup schedule).state.accepted ↔
      ∀ first e, first ++ [e] <+: schedule → ¬PushesLate setup (run setup first) e.1 := by
  induction schedule using List.reverseRecOn with
  | nil =>
      refine ⟨fun _ first e hpre => ?_, fun _ => List.Pairwise.nil⟩
      simp at hpre
  | append_singleton rest e ih =>
      obtain ⟨pos, hstands, -⟩ := run_inv setup rest
      have hstep := step_chunksFirst hstands e.1 e.2
      have hrun : run setup (rest ++ [e]) = (run setup rest).step (code setup) e.1 e.2 :=
        Pool.run_concat _ _ _ _
      rw [hrun, hstep, ih]
      constructor
      · rintro ⟨hrest, hlast⟩ first e' hpre
        rcases List.prefix_concat_iff.1 hpre with heq | hpre
        · obtain ⟨rfl, rfl⟩ := List.append_singleton_inj.1 heq
          exact hlast
        · exact hrest first e' hpre
      · intro hall
        refine ⟨fun first e' hpre => hall first e' (hpre.trans (List.prefix_append _ _)), ?_⟩
        exact hall rest e (List.prefix_refl _)

/-- Each chunk for which `push_chunk` returned true is written, at its place. -/
def Delivered (setup : Setup C E) (w : Pool Thread Bool (Streamer C E) (Point C E)) : Prop :=
  ∀ n k, w.threads (.pushChunk n) = .ret (.queued k) →
    ∃ data, w.state.frames[k]? = some data ∧
      setup.formatSseEvent { type := .chunk, chunk := some (setup.chunk n) } = some data

/-- What a producer is promised. -/
structure Promises (setup : Setup C E) (w : Pool Thread Bool (Streamer C E) (Point C E)) :
    Prop where
  /-- the frames are those of the first queued events, in their order -/
  inOrder : w.state.frames.map some = w.state.sent.map setup.formatSseEvent
  /-- a terminal event is written last -/
  oneTerminal : ∀ e ∈ w.state.sent.dropLast, e.isTerminal = false
  delivered : w.threads .run = .ret .finished → Delivered setup w

section Delivery

variable {s : Streamer C E}

/-- The frame of a written event. -/
theorem Streamed.frame {point : Point C E} (h : Streamed setup s point) {k : Nat}
    {event : SSEEvent C E} (hk : s.accepted[k]? = some event) (hlt : k < s.frames.length) :
    ∃ data, s.frames[k]? = some data ∧ setup.formatSseEvent event = some data := by
  obtain ⟨data, hdata⟩ : ∃ data, s.frames[k]? = some data :=
    ⟨_, List.getElem?_eq_getElem hlt⟩
  have hmap := congrArg (fun l => l[k]?) h.frames
  simp only [List.getElem?_map, hdata, Streamer.sent, List.getElem?_take, hlt, if_true, hk,
    Option.map_some, Option.some.injEq] at hmap
  exact ⟨data, hdata, hmap.symm⟩

/-- An event in front of the last one that was written. -/
theorem mem_sent_dropLast {i : Nat} {event : SSEEvent C E} (hi : s.accepted[i]? = some event)
    (hlt : i + 1 < s.frames.length) (hle : s.frames.length ≤ s.accepted.length) :
    event ∈ s.sent.dropLast := by
  have hmem : s.sent.dropLast[i]? = some event := by
    rw [List.getElem?_dropLast, Streamer.sent, List.length_take, Nat.min_eq_left hle,
      if_pos (by omega), List.getElem?_take, if_pos (by omega), hi]
  exact List.mem_of_getElem? hmem

/-- Where the last event written is terminal, each chunk is written if and only
if none stands behind a terminal event. -/
theorem chunks_written_iff {point : Point C E} (h : Streamed setup s point)
    (hlast : ∃ e, s.sent.getLast? = some e ∧ e.isTerminal = true) :
    (∀ k event, s.accepted[k]? = some event → event.type = .chunk → k < s.frames.length) ↔
      ChunksFirst s.accepted := by
  have hle := h.length_le
  obtain ⟨last, hlast, hterminal⟩ := hlast
  have hlen : s.sent.length = s.frames.length := List.length_take_of_le hle
  have hpos : 0 < s.frames.length := by
    rw [← hlen, List.length_pos_iff]
    rintro hnil
    simp [hnil] at hlast
  have hlastAt : s.accepted[s.frames.length - 1]? = some last := by
    rw [List.getLast?_eq_getElem?, hlen, Streamer.sent, List.getElem?_take,
      if_pos (by omega)] at hlast
    exact hlast
  rw [ChunksFirst, List.pairwise_iff_getElem]
  constructor
  · intro hwritten i j hi hj hij hfirst htype
    have hlt := hwritten j _ (List.getElem?_eq_getElem hj) htype
    have hmem := mem_sent_dropLast (List.getElem?_eq_getElem hi) (by omega) hle
    rw [h.closed _ hmem] at hfirst
    cases hfirst
  · intro hordered k event hk htype
    by_contra hge
    obtain ⟨hlt, rfl⟩ := List.getElem?_eq_some_iff.1 hk
    obtain ⟨hlt', hlast'⟩ := List.getElem?_eq_some_iff.1 hlastAt
    refine hordered _ k hlt' hlt (by omega) ?_ htype
    rw [hlast']
    exact hterminal

/-- The same, by the calls that pushed the chunks. -/
theorem delivered_iff {w : Pool Thread Bool (Streamer C E) (Point C E)}
    {pos : Thread → Point C E} (hstands : w.Stands Point.ended (act setup) pos)
    (hinv : Inv setup w.state pos)
    (hlast : ∃ e, w.state.sent.getLast? = some e ∧ e.isTerminal = true) :
    Delivered setup w ↔ ChunksFirst w.state.accepted := by
  rw [← chunks_written_iff hinv.streamed hlast]
  constructor
  · intro hdelivered k event hk htype
    obtain ⟨t, ht, hevent⟩ := hinv.queued.pushed k event hk
    obtain ⟨n, rfl⟩ : ∃ n, t = .pushChunk n := by
      cases t <;> simp only [Setup.event?] at hevent <;> cases hevent <;> simp at htype ⊢
    have hend : (pos (.pushChunk n)).ended = true := by
      rw [ht]
      rfl
    have hthread := hstands.at_end hend
    rw [ht] at hthread
    obtain ⟨data, hdata, -⟩ := hdelivered n k hthread
    exact (List.getElem?_eq_some_iff.1 hdata).1
  · intro hwritten n k hthread
    obtain ⟨event, hevent, hk⟩ := hinv.queued.queued _ _ (hstands.at_point hthread)
    cases hevent
    exact hinv.streamed.frame hk (hwritten k _ hk rfl)

end Delivery

/-- **The promises of the streamer.**  In a run without a failing write and
without `stop` they are kept if and only if, when `run` has returned, no
`push_chunk` queued its chunk after a terminal event was queued: `active_` stays
true until that event is written, and nothing reads `completed_`. -/
theorem run_promises_iff (setup : Setup C E) (schedule : List (Thread × Bool))
    (hquiet : ∀ e ∈ schedule, Quiet e.1 e.2) :
    Promises setup (run setup schedule) ↔
      ((run setup schedule).threads .run = .ret .finished →
        ∀ first e, first ++ [e] <+: schedule → ¬PushesLate setup (run setup first) e.1) := by
  obtain ⟨pos, hstands, hinv, hcalm⟩ := run_undisturbed setup schedule hquiet
  rw [← run_chunksFirst setup schedule]
  constructor
  · intro hpromises hreturned
    have hlast := hcalm.finished (hstands.at_point hreturned)
    exact (delivered_iff hstands hinv hlast).1 (hpromises.delivered hreturned)
  · intro hfirst
    refine ⟨hinv.streamed.frames, hinv.streamed.closed, fun hreturned => ?_⟩
    have hlast := hcalm.finished (hstands.at_point hreturned)
    exact (delivered_iff hstands hinv hlast).2 (hfirst hreturned)

end Runs

/-- A streamer of chunks whose texts do not matter. -/
def sampleSetup : Setup Unit Unit where
  dumpChunk _ := some "{}"
  dumpError _ := some "{}"
  chunk _ := ()
  error _ := ()

/-- Two entries of the schedule for each point. -/
def points (t : Thread) (k : Nat) : List (Thread × Bool) := List.replicate (2 * k) (t, true)

theorem quiet_points {t : Thread} (ht : ∀ n, t ≠ .stop n) {k : Nat} {e : Thread × Bool}
    (he : e ∈ points t k) : Quiet e.1 e.2 := by
  obtain rfl := List.eq_of_mem_replicate he
  exact ⟨fun _ => rfl, ht⟩

/-- A chunk, the end, and `run`. -/
def ordered : List (Thread × Bool) :=
  points (.pushChunk 0) 3 ++ points (.complete 0) 2 ++ points .run 8

/-- The end, then a chunk, and `run`. -/
def late : List (Thread × Bool) :=
  points (.complete 0) 2 ++ points (.pushChunk 0) 3 ++ points .run 4

theorem quiet_ordered : ∀ e ∈ ordered, Quiet e.1 e.2 := by
  intro e he
  simp only [ordered, List.mem_append] at he
  rcases he with (he | he) | he <;> exact quiet_points (fun _ => by simp) he

theorem quiet_late : ∀ e ∈ late, Quiet e.1 e.2 := by
  intro e he
  simp only [late, List.mem_append] at he
  rcases he with (he | he) | he <;> exact quiet_points (fun _ => by simp) he

theorem run_promises_iff_ordered :
    (run sampleSetup ordered).state.frames = ["data: {}\n\n", "data: [DONE]\n\n"] ∧
      (run sampleSetup ordered).threads .run = .ret .finished ∧
      Promises sampleSetup (run sampleSetup ordered) := by
  refine ⟨rfl, rfl, (run_promises_iff sampleSetup ordered quiet_ordered).2 fun _ => ?_⟩
  refine (run_chunksFirst sampleSetup ordered).1 ?_
  show ChunksFirst [{ type := .chunk, chunk := some () }, { type := .done }]
  simp [ChunksFirst, SSEEvent.isTerminal]

/-- `push_chunk` returned true and `run` returned, but the chunk was never written. -/
theorem run_late_lost :
    (∀ e ∈ late, Quiet e.1 e.2) ∧
      (run sampleSetup late).threads (.pushChunk 0) = .ret (.queued 1) ∧
      (run sampleSetup late).threads .run = .ret .finished ∧
      (run sampleSetup late).state.frames = ["data: [DONE]\n\n"] ∧
      ¬Promises sampleSetup (run sampleSetup late) := by
  refine ⟨quiet_late, rfl, rfl, rfl, fun hpromises => ?_⟩
  obtain ⟨data, hdata, -⟩ := hpromises.delivered rfl 0 1 rfl
  have hframes : (run sampleSetup late).state.frames = ["data: [DONE]\n\n"] := rfl
  rw [hframes] at hdata
  cases hdata

end SSEStreamer

end Qwen
