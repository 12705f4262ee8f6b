import WinInference.Scheduler.Settlement
import WinInference.Scheduler.Shutdown

/-!
# A server and the HTTP thread of one request

`handlers::chat_completions` submits its request and then waits for it: it pops
the token queue, looks at the state of the request when nothing came, and may
cancel it.  An `Exchange` is a server together with such a handler, and its
runs are all interleavings of the two.

What the handler does to the server the server's own threads for that request
do as well, so a server in an exchange goes through a run of the server alone.
-/

namespace Qwen

open Concurrency

namespace Scheduler

variable {A : Type}

/-- The event that the next `pop` hands out. -/
def nextEvent (s : Scheduler A) (r : RequestPtr) : Option TokenEvent :=
  (s.requests r).tokenQueue.bind (fun t => t.pop.1)

end Scheduler

open Scheduler

/-- What a handler does to the server in one step. -/
inductive Deed where
  /-- nothing: it may read the state -/
  | look
  /-- the next action of its call of `submit` -/
  | submit
  | pop
  | cancel

/-- Who moves next: a thread of the server, or the handler.  `input` is what
the handler is told by the outside, besides the clock. -/
inductive Turn (ι : Type) where
  | server (t : ThreadId) (i : Answer)
  | handler (i : Answer) (input : ι)

/-- A server and the handler of a request. -/
structure Exchange (A H : Type) where
  system : System A
  handler : H

namespace Exchange

variable {A H ι : Type} [IKVCacheAllocator A]

/-- The code of a handler: what it does next, and how it goes on, from what it
finds in the server. -/
abbrev Handler (A H ι : Type) := Answer → ι → System A → H → Deed × H

/-- The threads of the server that stand for the handler of `r`. -/
def plays (r : RequestPtr) : ThreadId → Bool
  | .submit q | .pop q | .disconnect q => q = r
  | _ => false

/-- What the server goes through when the handler of `r` does something. -/
def perform (d : SchedulerSetup) (r : RequestPtr) (i : Answer) (w : System A) : Deed → System A
  | .look => w
  | .submit => w.step (code d) (.submit r) i
  | .pop => { w with state := w.state.popEvent r }
  | .cancel => { w with state := w.state.cancelToken r }

/-- One step of the server or of the handler of `r`. -/
def step (d : SchedulerSetup) (r : RequestPtr) (handle : Handler A H ι) (x : Exchange A H) :
    Turn ι → Exchange A H
  | .server t i =>
      if plays r t then x else { x with system := x.system.step (code d) t i }
  | .handler i input =>
      let (deed, next) := handle i input x.system x.handler
      { system := perform d r i x.system deed, handler := next }

/-- A server after `start`, and a handler about to begin. -/
def initial (s : Scheduler A) (handler : H) : Exchange A H :=
  { system := System.initial s, handler := handler }

/-- The run of a schedule. -/
def run (d : SchedulerSetup) (r : RequestPtr) (handle : Handler A H ι) (x : Exchange A H)
    (schedule : List (Turn ι)) : Exchange A H :=
  schedule.foldl (step d r handle) x

variable {d : SchedulerSetup} {r : RequestPtr} {handle : Handler A H ι}

theorem run_append (x : Exchange A H) (left right : List (Turn ι)) :
    x.run d r handle (left ++ right) = (x.run d r handle left).run d r handle right :=
  List.foldl_append

theorem run_concat (x : Exchange A H) (schedule : List (Turn ι)) (turn : Turn ι) :
    x.run d r handle (schedule ++ [turn]) = (x.run d r handle schedule).step d r handle turn := by
  simp [run]

/-- The server's threads do not move the handler. -/
theorem step_server_handler (handle : Handler A H ι) (x : Exchange A H) (t : ThreadId)
    (i : Answer) :
    (x.step d r handle (.server t i)).handler = x.handler := by
  unfold step
  dsimp only
  split <;> rfl

/-! ## The server in an exchange -/

/-- The server threads that stand for the handler are between two actions. -/
def Poised (r : RequestPtr) (w : System A) : Prop :=
  w.threads (.pop r) = .ret .start ∧ w.threads (.disconnect r) = .ret .start

/-- A run of the server alone leads from one state to the other. -/
def Leads (d : SchedulerSetup) (w w' : System A) : Prop :=
  ∃ moves : List (ThreadId × Answer), w' = w.run (code d) moves

theorem Leads.refl (w : System A) : Leads d w w := ⟨[], rfl⟩

theorem Leads.trans {w w' w'' : System A} (h : Leads d w w') (h' : Leads d w' w'') :
    Leads d w w'' := by
  obtain ⟨moves, rfl⟩ := h
  obtain ⟨moves', rfl⟩ := h'
  exact ⟨moves ++ moves', (Pool.run_append (code d) w moves moves').symm⟩

theorem Poised.other {w : System A} (h : Poised r w) {t : ThreadId} (hpop : t ≠ .pop r)
    (hdisconnect : t ≠ .disconnect r) (i : Answer) : Poised r (w.step (code d) t i) := by
  obtain ⟨hp, hd⟩ := h
  exact ⟨(Pool.step_of_ne w (Ne.symm hpop) i).trans hp,
    (Pool.step_of_ne w (Ne.symm hdisconnect) i).trans hd⟩

/-- What the handler does, the server could have done. -/
theorem leads_perform {w : System A} (h : Poised r w) (i : Answer) (deed : Deed) :
    Leads d w (perform d r i w deed) ∧ Poised r (perform d r i w deed) := by
  cases deed with
  | look => exact ⟨Leads.refl w, h⟩
  | submit => exact ⟨⟨[(.submit r, i)], rfl⟩, h.other (t := .submit r) nofun nofun i⟩
  | pop =>
      have hcode : code d (.pop r) .start =
          ((Program.update (·.popEvent r) : Sched A Unit) >>= fun _ => pure .start) := rfl
      exact ⟨⟨[(.pop r, i), (.pop r, i)], (Pool.run_loop h.1 hcode i).symm⟩, h⟩
  | cancel =>
      have hcode : code d (.disconnect r) .start =
          ((Program.update (·.cancelToken r) : Sched A Unit) >>= fun _ => pure .start) := rfl
      exact ⟨⟨[(.disconnect r, i), (.disconnect r, i)], (Pool.run_loop h.2 hcode i).symm⟩, h⟩

theorem leads_step (handle : Handler A H ι) {x : Exchange A H} (h : Poised r x.system)
    (turn : Turn ι) :
    Leads d x.system (x.step d r handle turn).system ∧
      Poised r (x.step d r handle turn).system := by
  cases turn with
  | server t i =>
      cases hplays : plays r t with
      | true =>
          rw [step, if_pos hplays]
          exact ⟨Leads.refl x.system, h⟩
      | false =>
          have hpop : t ≠ .pop r := by
            rintro rfl
            simp [plays] at hplays
          have hdisconnect : t ≠ .disconnect r := by
            rintro rfl
            simp [plays] at hplays
          rw [step, if_neg (by simp [hplays])]
          exact ⟨⟨[(t, i)], rfl⟩, h.other hpop hdisconnect i⟩
  | handler i input => exact leads_perform h i _

/-- **The server in an exchange.**  It goes through a run of the server alone. -/
theorem leads_run (handle : Handler A H ι) {x : Exchange A H} (h : Poised r x.system)
    (schedule : List (Turn ι)) :
    Leads d x.system (x.run d r handle schedule).system ∧
      Poised r (x.run d r handle schedule).system := by
  induction schedule using List.reverseRecOn with
  | nil => exact ⟨Leads.refl x.system, h⟩
  | append_singleton rest turn ih =>
      rw [run_concat]
      obtain ⟨hleads, hpoised⟩ := leads_step handle ih.2 turn
      exact ⟨ih.1.trans hleads, hpoised⟩

end Exchange

/-- What the `dump` of the JSON library takes. -/
def isUtf8 (text : Bytes) : Bool := (ByteArray.mk text.toArray).validateUTF8

/-- A server whose tokens all have this text. -/
def textSetup (text : Bytes) : SchedulerSetup :=
  { sampleSetup with
    tokenizer := { decodeToken := fun _ => .ok text, eosTokenId := -1, imEndId := -1 } }

end Qwen
