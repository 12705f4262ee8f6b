import WinInference.Scheduler.Turns

/-!
# Deadlines

The decode thread looks at the clock each time it turns to a request.  A request
that has expired is therefore given no more than what was under way for it: the
token of the decode step it is in.

`Spares` says of an action that it adds no token to a request and does not begin
its prefill.  Past the deadline every body of the decode thread spares the
request (`decodeLoop_expired`), and the other threads spare it anyway
(`others_spares`).  Only the submit call of a request sets its deadline
(`code_expires`), so after that call it stays for the rest of the run
(`expires_stays`).
-/

namespace Qwen

open Concurrency Concurrency.Program

namespace Scheduler

variable {A : Type}

/-- The request deadline of `r`. -/
def Expires (r : RequestPtr) (deadline : Nat) (s : Scheduler A) : Prop :=
  (s.requests r).timing.requestDeadline = some deadline

/-- Nothing new is begun for `r`. -/
structure Spares (r : RequestPtr) (s s' : Scheduler A) : Prop where
  tokens : s'.generated r ≤ s.generated r
  prefilling : (s'.requests r).state = .prefilling → (s.requests r).state = .prefilling

section Spares

variable {q r : RequestPtr} {deadline : Nat} {s s' s'' : Scheduler A}

/-- A move that leaves the request alone spares it. -/
theorem Spares.of_eq (h : s'.requests r = s.requests r) : Spares r s s' := by
  constructor
  · rw [generated, generated, h]
  · rw [h]
    exact id

/-- Doing nothing spares every request. -/
theorem Spares.refl (r : RequestPtr) (s : Scheduler A) : Spares r s s := .of_eq rfl

/-- Two sparing moves in a row spare the request. -/
theorem Spares.trans (h : Spares r s s') (h' : Spares r s' s'') : Spares r s s'' :=
  ⟨h'.tokens.trans h.tokens, fun hlast => h.prefilling (h'.prefilling hlast)⟩

/-- A move that keeps tokens and states spares every request. -/
theorem Keeps.spares (h : Keeps (fun q => (q.outputTokens, q.state)) s s') (r : RequestPtr) :
    Spares r s s' := by
  have hsame := h r
  simp only [Prod.mk.injEq] at hsame
  obtain ⟨htokens, hstate⟩ := hsame
  constructor
  · exact (congrArg List.length htokens).le
  · rw [hstate]
    exact id

/-- A program that keeps tokens and states spares every request. -/
theorem spares_of_keeps {α : Type} {p : Sched A α}
    (hp : p.Always (Keeps fun q => (q.outputTokens, q.state))) : p.Always (Spares r) :=
  hp.mono fun _ _ h => h.spares r

/-- A change of another field spares the request. -/
theorem spares_modify (s : Scheduler A) (q r : RequestPtr) {f : Request → Request}
    (htokens : ∀ p, (f p).outputTokens = p.outputTokens)
    (hstate : ∀ p, (f p).state = .prefilling → p.state = .prefilling) :
    Spares r s (s.modify q f) := by
  by_cases hq : q = r
  · subst hq
    constructor
    · simp [generated, htokens]
    · rw [requests_modify_self]
      exact hstate _
  · exact .of_eq (requests_modify_of_ne s f (Ne.symm hq))

/-- Setting a state other than prefilling spares the request. -/
theorem setState_spares (q r : RequestPtr) {newState : RequestState}
    (h : newState ≠ .prefilling) : (setState q newState : Sched A Unit).Always (Spares r) :=
  Always.update fun s => spares_modify s q r (fun _ => rfl) fun _ hlast => absurd hlast h

/-- A submit spares every request. -/
theorem submit_spares (q r : RequestPtr) : SubmitChores q (Spares (A := A) r) where
  idle := Spares.refl r
  queue s := spares_modify s q r (fun _ => rfl) fun _ hlast => by simp at hlast
  reject s := spares_modify s q r (fun _ => rfl) fun _ hlast => by simp at hlast
  blame s _ := spares_modify s q r (fun _ => rfl) fun _ => id
  stamp s _ := spares_modify s q r (fun _ => rfl) fun _ => id
  register _ := .of_eq rfl
  enqueue _ := .of_eq rfl

/-- The HTTP threads spare every request. -/
theorem http_spares (r : RequestPtr) : HttpChores (Spares (A := A) r) where
  idle := Spares.refl r
  cancel s q := spares_modify s q r (fun _ => rfl) fun _ => id
  pop s q := (keeps_popEvent (fun _ _ => rfl) s q).spares r
  trans := Spares.trans

variable [IKVCacheAllocator A]

/-- Completing a request spares it. -/
theorem completeRequest_spares (reason : FinishReason) :
    (completeRequest r reason : Sched A Unit).Always (Spares r) := by
  refine Always.bind (spares_of_keeps (modify_keeps fun _ => rfl)) fun _ => ?_
  refine Always.bind (setState_spares r r (by simp)) fun _ => ?_
  refine Always.bind (spares_of_keeps (retire_keeps (fun _ _ => rfl) (fun _ _ => rfl) _)) fun _ => ?_
  exact Always.update fun _ => Spares.of_eq rfl

/-- Failing a request spares it. -/
theorem failRequest_spares (error : Error) :
    (failRequest r error : Sched A Unit).Always (Spares r) := by
  refine Always.bind (spares_of_keeps (modify_keeps fun _ => rfl)) fun _ => ?_
  refine Always.bind (setState_spares r r (by simp)) fun _ => ?_
  refine Always.bind (spares_of_keeps (retire_keeps (fun _ _ => rfl) (fun _ _ => rfl) _)) fun _ => ?_
  exact Always.update fun _ => Spares.of_eq rfl

omit [IKVCacheAllocator A] in
/-- A request past its deadline fails the timeout test. -/
theorem Expires.timedOut (h : Expires r deadline s) {now : Nat} (hnow : deadline < now) :
    timedOut (s.requests r).timing.requestDeadline now = true := by
  rw [h]
  simpa [Qwen.timedOut] using hnow

/-- A request that has expired is failed where the queue is processed. -/
theorem startRequest_expired (d : SchedulerSetup) :
    (startRequest d r : Sched A Unit).AlwaysIf (fun i => deadline < i.now)
      (Expires r deadline) (Spares r) := by
  refine AlwaysIf.bind (Always.atomic fun _ s => Spares.refl r s).alwaysIf fun queueTimedOut => ?_
  cases queueTimedOut with
  | true => exact (failRequest_spares _).alwaysIf
  | false =>
      refine AlwaysIf.atomic_bind fun i s hnow hexpires => ⟨Spares.refl r s, ?_⟩
      rw [if_pos (hexpires.timedOut hnow)]
      exact (failRequest_spares _).alwaysIf

/-- And where it would be decoded, unless its client has cancelled it. -/
theorem decodeRequest_expired (d : SchedulerSetup) :
    (decodeRequest d r : Sched A Unit).AlwaysIf (fun i => deadline < i.now)
      (Expires r deadline) (Spares r) := by
  refine AlwaysIf.bind (Always.read (Spares.refl r)).alwaysIf fun cancelled => ?_
  cases cancelled with
  | true => exact (completeRequest_spares .stop).alwaysIf
  | false =>
      refine AlwaysIf.atomic_bind fun i s hnow hexpires => ⟨Spares.refl r s, ?_⟩
      rw [if_pos (hexpires.timedOut hnow)]
      exact (failRequest_spares _).alwaysIf

/-- A pass of the decode loop after the deadline adds no token to the request. -/
theorem decodeLoop_expired (d : SchedulerSetup) (r : RequestPtr) (deadline : Nat) (l : Point) :
    (decodeLoop d l : Sched A Point).AlwaysIf (fun i => deadline < i.now)
      (Expires r deadline) (Spares r) :=
  decodeLoop_alwaysIf (fun _ _ h => .of_eq (by rw [h]))
    (fun _ _ _ hq hworks => .of_eq (hworks.requests r (Ne.symm hq))) d (startRequest_expired d)
    (decodeRequest_expired d) l

end Spares

/-! ## The deadline stays -/

section Stays

variable {q r : RequestPtr} {deadline : Nat}

/-- Appending a token leaves every deadline alone. -/
theorem appendToken_requestDeadline (d : SchedulerSetup) (token : Int) :
    (appendToken d r token : Sched A Bool).Always (Keeps (·.timing.requestDeadline)) := by
  refine Always.bind (modify_keeps fun _ => rfl) fun _ => ?_
  refine Always.bind (modify_keeps fun _ => rfl) fun _ => ?_
  refine Always.bind (modify_keeps fun _ => rfl) fun _ => ?_
  exact (checkStop_silent d).mono fun _ _ h => h.requestDeadline

/-- A decode step leaves every deadline alone. -/
theorem runDecodeStep_requestDeadline (d : SchedulerSetup) :
    (runDecodeStep d r : Sched A (Result Bool)).Always (Keeps (·.timing.requestDeadline)) := by
  refine Always.bind (Always.read Keeps.refl) fun cancelled => ?_
  cases cancelled with
  | true => exact Always.ret _
  | false =>
      refine Always.bind (nextLogits_silent.mono fun _ _ h => h.requestDeadline) fun logits => ?_
      cases logits with
      | error e => exact Always.ret _
      | ok _ =>
          refine Always.bind (Always.atomic fun _ => Keeps.refl) fun sampled => ?_
          cases sampled with
          | error e => exact Always.ret _
          | ok token =>
              exact Always.bind (appendToken_requestDeadline d token) fun _ => Always.ret _

variable [IKVCacheAllocator A]

/-- The pass over one active request leaves every deadline alone. -/
theorem decodeRequest_requestDeadline (d : SchedulerSetup) :
    (decodeRequest d r : Sched A Unit).Always (Keeps (·.timing.requestDeadline)) := by
  have hcomplete : ∀ reason, (completeRequest r reason : Sched A Unit).Always
      (Keeps (·.timing.requestDeadline)) :=
    fun reason => (completeRequest_silent reason).mono fun _ _ h => h.requestDeadline
  have hfail : ∀ e, (failRequest r e : Sched A Unit).Always
      (Keeps (·.timing.requestDeadline)) :=
    fun e => (failRequest_silent e).mono fun _ _ h => h.requestDeadline
  refine Always.bind (Always.read Keeps.refl) fun cancelled => ?_
  cases cancelled with
  | true => exact hcomplete .stop
  | false =>
      refine Always.bind (Always.atomic fun _ => Keeps.refl) fun requestTimedOut => ?_
      cases requestTimedOut with
      | true => exact hfail _
      | false =>
          refine Always.bind (Always.atomic fun _ => Keeps.refl) fun decodeTimedOut => ?_
          cases decodeTimedOut with
          | true => exact hfail _
          | false =>
              refine Always.bind (runDecodeStep_requestDeadline d) fun result => ?_
              cases result with
              | error e => exact hfail e
              | ok goesOn =>
                  cases goesOn with
                  | true => exact Always.ret _
                  | false =>
                      exact Always.bind (Always.read Keeps.refl) fun reason => hcomplete reason

/-- The decode loop leaves every deadline alone. -/
theorem decodeLoop_requestDeadline (d : SchedulerSetup) (l : Point) :
    (decodeLoop d l : Sched A Point).Always (Keeps (·.timing.requestDeadline)) := by
  by_cases hround : ∃ q rest, l = .decodeEach (q :: rest)
  · obtain ⟨q, rest, rfl⟩ := hround
    exact Always.bind (decodeRequest_requestDeadline d) fun _ => Always.ret _
  · exact (betweenRounds_silent d fun q rest hl => hround ⟨q, rest, hl⟩).mono
      fun _ _ h => h.requestDeadline

omit [IKVCacheAllocator A] in
/-- A submit call does nothing to the requests of others. -/
theorem submit_others {β : Type} (part : Request → β) (hq : r ≠ q) :
    SubmitChores q (fun s s' : Scheduler A => part (s'.requests r) = part (s.requests r)) where
  idle _ := rfl
  queue s := congrArg part (requests_modify_of_ne s _ hq)
  reject s := congrArg part (requests_modify_of_ne s _ hq)
  blame s _ := congrArg part (requests_modify_of_ne s _ hq)
  stamp s _ := congrArg part (requests_modify_of_ne s _ hq)
  register _ := rfl
  enqueue _ := rfl

/-- Only its own submit call gives a request its deadline. -/
theorem code_expires (d : SchedulerSetup) {t : ThreadId} (ht : t ≠ .submit r) (l : Point) :
    (code d t l : Sched A Point).Always fun s s' =>
      (s'.requests r).timing.requestDeadline = (s.requests r).timing.requestDeadline := by
  by_cases hdecode : t = .decode
  · subst hdecode
    exact (decodeLoop_requestDeadline d l).mono fun _ _ h => h r
  · have hhttp : HttpChores (Keeps (A := A) (·.timing.requestDeadline)) :=
      http_keeps (fun _ _ => rfl) fun _ _ => rfl
    have hsame : HttpChores fun s s' : Scheduler A =>
        (s'.requests r).timing.requestDeadline = (s.requests r).timing.requestDeadline :=
      ⟨fun _ => rfl, fun s q => hhttp.cancel s q r, fun s q => hhttp.pop s q r,
        fun h h' => h'.trans h⟩
    refine others_always hsame d hdecode (fun q hq => ?_) (fun _ _ => rfl) l
    exact submit_others (·.timing.requestDeadline) fun heq => ht (by rw [hq, heq])

/-- It is not changed once that call has returned. -/
theorem expires_stays (d : SchedulerSetup) {w : System A} {result : Result Unit}
    (hthreads : ∀ t, t ≠ .submit r → (w.threads t).Always fun s s' =>
      (s'.requests r).timing.requestDeadline = (s.requests r).timing.requestDeadline)
    (hsubmitted : w.threads (.submit r) = .ret (.returned result))
    (hexpires : Expires r deadline w.state) (schedule : List (ThreadId × Answer)) :
    Expires r deadline (w.run (code d) schedule).state :=
  Pool.run_preserves_resting (fun _ ht l => code_expires d ht l) rfl
    (fun _ _ hact hs => hact.trans hs) hthreads hsubmitted hexpires schedule

end Stays

section Runs

variable [IKVCacheAllocator A] {r : RequestPtr} {deadline : Nat}

/-- Every thread but the decode thread spares every request. -/
theorem others_spares (d : SchedulerSetup) {t : ThreadId} (ht : t ≠ .decode) (l : Point) :
    (code d t l : Sched A Point).Always (Spares r) :=
  others_always (http_spares r) d ht (fun q _ => submit_spares q r) (fun _ _ => .of_eq rfl) l

/-- **An expired request costs no more than what is under way.**  From any moment on
at which the deadline of a submitted request has passed, in every interleaving, at
most one more token is generated for it; and none is, nor is it prefilled, if at that
moment the decode thread is between two requests. -/
theorem deadline_prompt (d : SchedulerSetup) (s : Scheduler A)
    (before after : List (ThreadId × Answer)) {result : Result Unit} :
    let first := (System.initial s).run (code d) before
    let last := (System.initial s).run (code d) (before ++ after)
    first.threads (.submit r) = .ret (.returned result) → Expires r deadline first.state →
    (∀ e ∈ after, deadline < e.2.now) →
      last.state.generated r ≤ first.state.generated r + 1 ∧
        ∀ l, first.threads .decode = .ret l → Spares r first.state last.state := by
  intro first last hsubmitted hexpires hnow
  have hlast : last = first.run (code d) after := Pool.run_append ..
  have hothers : ∀ t, t ≠ ThreadId.decode → (first.threads t).Always (Spares r) :=
    fun t ht => Pool.run_threads_always (others_spares d ht) (Always.ret _) before
  have hdeadline : ∀ t, t ≠ ThreadId.submit r → (first.threads t).Always fun s s' =>
      (s'.requests r).timing.requestDeadline = (s.requests r).timing.requestDeadline :=
    fun t ht => Pool.run_threads_always (code_expires d ht) (Always.ret _) before
  have hknown : ∀ rest, rest <+: after → Expires r deadline (first.run (code d) rest).state :=
    fun rest _ => expires_stays d hdeadline hsubmitted hexpires rest
  rw [hlast]
  constructor
  · have hgrows : ∀ l, (code d .decode l : Sched A Point).Grows (·.generated r) 1 :=
      decodeLoop_grows d r
    have hlone : (first.threads .decode).Grows (·.generated r) 1 :=
      Pool.run_grows hgrows (Grows.ret _ 1) before
    refine Pool.run_noticed (fun t ht l => (others_spares d ht l).mono fun _ _ h => h.tokens)
      (fun l => (decodeLoop_expired d r deadline l).mono fun _ _ h => h.tokens)
      (fun t ht => (hothers t ht).mono fun _ _ h => h.tokens) hlone after hnow hknown
  · intro l hl
    refine Pool.run_alwaysIf (P := fun i : Answer => deadline < i.now) (Spares.refl r)
      Spares.trans (fun t l => ?_) (fun t => ?_) after hnow hknown
    · by_cases ht : t = .decode
      · subst ht
        exact decodeLoop_expired d r deadline l
      · exact (others_spares d ht l).alwaysIf
    · by_cases ht : t = .decode
      · subst ht
        rw [hl]
        exact AlwaysIf.ret l
      · exact (hothers t ht).alwaysIf

end Runs

/-- The request has expired: its deadline was set at the clock reading zero. -/
def expiredTurns : List (ThreadId × Answer) := moves 20 .decode { now := 300000000001 }

/-- The token that is being sampled as the deadline passes still comes; between two
rounds nothing does. -/
theorem deadline_prompt_sample :
    let run := alikeRun { shortRequest with maxTokens := 5 }
    let sampling := firstSubmitted 27 {}
    let between := firstSubmitted 34 {}
    ((run sampling).state.generated 0 = 0 ∧ (run (sampling ++ expiredTurns)).state.generated 0 = 1 ∧
      (run (sampling ++ expiredTurns)).state.generated 0 ≤ (run sampling).state.generated 0 + 1) ∧
    ((run between).state.generated 0 = 1 ∧
      Spares 0 (run between).state (run (between ++ expiredTurns)).state) := by
  intro run sampling between
  have hsubmitted : ∀ before ∈ [sampling, between],
      ((run before).threads (.submit 0)).isAt (.returned (.ok ())) = true := by
    decide +kernel
  have hexpires : ∀ before ∈ [sampling, between],
      ((run before).state.requests 0).timing.requestDeadline = some 300000000000 := by
    decide +kernel
  have hnow : ∀ e ∈ expiredTurns, 300000000000 < e.2.now := by decide
  have hpoint : ((run between).threads .decode).isAt .start = true := by decide +kernel
  have hgenerated : (run sampling).state.generated 0 = 0 ∧
      (run (sampling ++ expiredTurns)).state.generated 0 = 1 ∧
      (run between).state.generated 0 = 1 := by
    decide +kernel
  have hsampling := deadline_prompt sampleSetup _ sampling expiredTurns
    (isAt_iff.mp (hsubmitted sampling (by simp))) (hexpires sampling (by simp)) hnow
  have hbetween := deadline_prompt sampleSetup _ between expiredTurns
    (isAt_iff.mp (hsubmitted between (by simp))) (hexpires between (by simp)) hnow
  exact ⟨⟨hgenerated.1, hgenerated.2.1, hsampling.1⟩, hgenerated.2.2,
    hbetween.2 .start (isAt_iff.mp hpoint)⟩

end Scheduler

end Qwen
