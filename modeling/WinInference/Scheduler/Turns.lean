import WinInference.Concurrency.Growth
import WinInference.Scheduler.Load
import WinInference.Scheduler.Outcome

/-!
# Whose turn it is

A token is appended in one place, the decode step of an active request, and
each round of the decode loop gives every active request one.  So requests that
are active together advance together, and a cancelled one advances at most once
more.

`decodeLoop_grows` bounds the tokens of one body, `Recalls` says that a
cancellation is never taken back.  `Level` are the moves that leave the lead of
one request over another alone, and `Leads` fixes that lead while both are
active: `decodeEach_leads` is the pass over the active requests, and
`leads_stable` what the other threads do about it.
-/

namespace Qwen

open Concurrency Concurrency.Program

/-- The tokens of a request, and when it expires. -/
def Request.due (q : Request) : (Int × List Int) × Option Nat :=
  (q.tokens, q.timing.requestDeadline)

namespace Scheduler

variable {A : Type}

/-! ## What appends no token -/

/-- No token is appended to any request. -/
abbrev NoToken (s s' : Scheduler A) : Prop := Keeps Request.tokens s s'

/-- No token is appended and no request is given another deadline. -/
abbrev KeepsDue (s s' : Scheduler A) : Prop := Keeps Request.due s s'

/-- What keeps tokens and deadlines appends no token. -/
theorem KeepsDue.noToken {s s' : Scheduler A} (h : KeepsDue s s') : NoToken s s' :=
  fun q => congrArg Prod.fst (h q)

/-- It keeps the request deadlines. -/
theorem KeepsDue.requestDeadline {s s' : Scheduler A} (h : KeepsDue s s') :
    Keeps (·.timing.requestDeadline) s s' :=
  fun q => congrArg Prod.snd (h q)

section KeepsDue

variable {r : RequestPtr}

/-- A rewrite of anything else keeps both. -/
theorem modify_silent {f : Request → Request} (hf : ∀ q, (f q).due = q.due) :
    (Program.update (fun s => s.modify r f) : Sched A Unit).Always KeepsDue := modify_keeps hf

variable [IKVCacheAllocator A]

/-- So does the completion of a request. -/
theorem completeRequest_silent (reason : FinishReason) :
    (completeRequest r reason : Sched A Unit).Always KeepsDue := by
  refine Always.bind (modify_silent fun _ => rfl) fun _ => ?_
  refine Always.bind (modify_silent fun _ => rfl) fun _ => ?_
  refine Always.bind (retire_keeps (fun _ _ => rfl) (fun _ _ => rfl) _) fun _ => ?_
  exact Always.update fun _ => keeps_of_requests rfl

/-- So does its failure. -/
theorem failRequest_silent (error : Error) :
    (failRequest r error : Sched A Unit).Always KeepsDue := by
  refine Always.bind (modify_silent fun _ => rfl) fun _ => ?_
  refine Always.bind (modify_silent fun _ => rfl) fun _ => ?_
  refine Always.bind (retire_keeps (fun _ _ => rfl) (fun _ _ => rfl) _) fun _ => ?_
  exact Always.update fun _ => keeps_of_requests rfl

/-- So does its prefill. -/
theorem runPrefill_silent : (runPrefill r : Sched A (Result Unit)).Always KeepsDue := by
  have hgauge : ∀ f : Int → Int, (Program.update (fun s =>
      { s with requestsActive := f s.requestsActive }) : Sched A Unit).Always KeepsDue :=
    fun _ => Always.update fun _ => keeps_of_requests rfl
  refine Always.bind (modify_silent fun _ => rfl) fun _ => ?_
  refine Always.bind (hgauge (· + 1)) fun _ => ?_
  refine Always.bind (place_keeps r (fun _ _ => rfl) (fun _ _ => rfl)).place fun placed => ?_
  cases placed with
  | error e => exact Always.bind (hgauge (· - 1)) (fun _ => Always.ret _)
  | ok _ =>
      refine Always.bind (Always.atomic fun i s => ?_) fun prefilled => ?_
      · cases i.prefill <;> exact keeps_of_requests rfl
      cases prefilled with
      | error e =>
          refine Always.bind (release_keeps r fun _ _ => rfl).freeResources fun _ => ?_
          exact Always.bind (hgauge (· - 1)) (fun _ => Always.ret _)
      | ok logits =>
          exact Always.bind (modify_silent fun _ => rfl) (fun _ => Always.ret _)

/-- So does taking it up. -/
theorem startRequest_silent (d : SchedulerSetup) :
    (startRequest d r : Sched A Unit).Always KeepsDue := by
  refine Always.bind (Always.atomic fun _ => Keeps.refl) fun queueTimedOut => ?_
  cases queueTimedOut with
  | true => exact failRequest_silent _
  | false =>
      refine Always.bind (Always.atomic fun _ => Keeps.refl) fun requestTimedOut => ?_
      cases requestTimedOut with
      | true => exact failRequest_silent _
      | false =>
          refine Always.bind runPrefill_silent fun result => ?_
          cases result with
          | error e => exact failRequest_silent e
          | ok _ =>
              refine Always.bind (modify_silent fun _ => rfl) fun _ => ?_
              refine Always.bind (Always.atomic fun i s => ?_) fun _ => ?_
              · dsimp only
                split
                · exact keeps_modify s r fun _ => rfl
                · exact Keeps.refl s
              · exact Always.update fun _ => keeps_of_requests rfl

omit [IKVCacheAllocator A] in
/-- Asking for logits appends no token. -/
theorem nextLogits_silent : (nextLogits r : Sched A (Result Logits)).Always KeepsDue := by
  refine Always.bind (Always.read Keeps.refl) fun first => ?_
  cases first with
  | true =>
      refine Always.atomic fun _ s => ?_
      dsimp only
      split
      · exact Keeps.refl s
      · dsimp only
        exact keeps_modify s r fun _ => rfl
  | false => exact Always.atomic fun _ _ => keeps_of_requests rfl

omit [IKVCacheAllocator A] in
/-- What follows the append in a decode step. -/
theorem checkStop_silent (d : SchedulerSetup) :
    (checkStopAndContinue d r : Sched A Bool).Always KeepsDue := by
  refine Always.atomic fun _ s => ?_
  dsimp only
  split
  · dsimp only
    exact keeps_modify s r fun _ => rfl
  · exact Keeps.refl s

end KeepsDue

/-! ## Cancellation -/

/-- How many tokens were generated for a request. -/
def generated (s : Scheduler A) (r : RequestPtr) : Nat := (s.requests r).outputTokens.length

/-- Without a new token as many were generated as before. -/
theorem Keeps.generated {s s' : Scheduler A} (h : NoToken s s') (r : RequestPtr) :
    s'.generated r = s.generated r :=
  congrArg (fun tokens : Int × List Int => tokens.2.length) (h r)

section Latency

variable {q r : RequestPtr} {maxActive : Nat}

theorem still_grows {α : Type} {p : Sched A α} (hp : p.Always KeepsDue) (n : Nat) :
    p.Grows (·.generated r) n :=
  (hp.mono fun _ _ h => (h.noToken.generated r).le).grows n

/-- Appending adds one token. -/
theorem appendToken_grows (d : SchedulerSetup) (token : Int) :
    (appendToken d r token : Sched A Bool).Grows (·.generated r) 1 := by
  have hrest : ∀ {f : Request → Request}, (∀ q, (f q).due = q.due) →
      (Program.update (fun s => s.modify r f) : Sched A Unit).Grows (·.generated r) 0 :=
    fun hf => still_grows (modify_silent hf) 0
  refine Grows.bind (Grows.update fun s => ?_) (Nat.le_refl 1) fun _ => ?_
  · simp [generated]
  · refine Grows.bind (hrest ?_) (Nat.le_refl 0) fun _ => ?_
    · exact fun _ => rfl
    refine Grows.bind (hrest ?_) (Nat.le_refl 0) fun _ => ?_
    · exact fun _ => rfl
    exact still_grows (checkStop_silent d) 0

/-- A decode step adds one at most. -/
theorem runDecodeStep_grows (d : SchedulerSetup) :
    (runDecodeStep d r : Sched A (Result Bool)).Grows (·.generated r) 1 := by
  refine Grows.bind (still_grows (Always.read Keeps.refl) 0) (by decide) fun cancelled => ?_
  cases cancelled with
  | true => exact Grows.ret _ _
  | false =>
      refine Grows.bind (still_grows nextLogits_silent 0) (by decide) fun logits => ?_
      cases logits with
      | error e => exact Grows.ret _ _
      | ok _ =>
          refine Grows.bind (still_grows (Always.atomic fun _ => Keeps.refl) 0) (by decide)
            fun sampled => ?_
          cases sampled with
          | error e => exact Grows.ret _ _
          | ok token =>
              exact Grows.bind (appendToken_grows d token) (Nat.le_refl 1) fun _ => Grows.ret _ _

variable [IKVCacheAllocator A]

/-- So does a turn of a request. -/
theorem decodeRequest_grows (d : SchedulerSetup) :
    (decodeRequest d r : Sched A Unit).Grows (·.generated r) 1 := by
  have hclock : ∀ {α : Type} (f : Answer → Scheduler A → α),
      (Program.atomic (fun i s => (f i s, s)) : Sched A α).Grows (·.generated r) 0 :=
    fun _ => still_grows (Always.atomic fun _ => Keeps.refl) 0
  refine Grows.bind (hclock _) (by decide) fun cancelled => ?_
  cases cancelled with
  | true => exact still_grows (completeRequest_silent .stop) _
  | false =>
      refine Grows.bind (hclock _) (by decide) fun requestTimedOut => ?_
      cases requestTimedOut with
      | true => exact still_grows (failRequest_silent _) _
      | false =>
          refine Grows.bind (hclock _) (by decide) fun decodeTimedOut => ?_
          cases decodeTimedOut with
          | true => exact still_grows (failRequest_silent _) _
          | false =>
              refine Grows.bind (runDecodeStep_grows d) (Nat.le_refl 1) fun result => ?_
              cases result with
              | error e => exact still_grows (failRequest_silent e) _
              | ok goesOn =>
                  cases goesOn with
                  | true => exact Grows.ret _ _
                  | false =>
                      refine Grows.bind (hclock _) (by decide) fun reason => ?_
                      exact still_grows (completeRequest_silent reason) _

/-- Between two requests of a round no token is appended. -/
theorem betweenRounds_silent (d : SchedulerSetup) {l : Point}
    (hl : ∀ q rest, l ≠ .decodeEach (q :: rest)) :
    (decodeLoop d l : Sched A Point).Always KeepsDue := by
  cases l with
  | start =>
      refine Always.bind (Always.atomic fun _ _ => keeps_of_requests rfl) fun running => ?_
      cases running <;> exact Always.ret _
  | processQueue =>
      refine Always.bind (Always.atomic fun _ s => ?_) fun next => ?_
      · obtain heq | ⟨r, rest, -, -, heq⟩ := dequeue_cases s d.config.maxActiveRequests <;>
          rw [heq] <;> exact keeps_of_requests rfl
      · cases next with
        | none => exact Always.ret _
        | some r => exact Always.bind (startRequest_silent d) fun _ => Always.ret _
  | copyActive =>
      refine Always.bind (Always.read Keeps.refl) fun active => ?_
      by_cases hnone : active.isEmpty
      · rw [if_pos hnone]
        exact Always.ret _
      · rw [if_neg hnone]
        exact Always.ret _
  | decodeEach rest =>
      cases rest with
      | nil => exact Always.ret _
      | cons q rest => exact absurd rfl (hl q rest)
  | join | returned => exact Always.ret _

/-- A body of the decode loop appends at most one token to a request. -/
theorem decodeLoop_grows (d : SchedulerSetup) (r : RequestPtr) (l : Point) :
    (decodeLoop d l : Sched A Point).Grows (·.generated r) 1 := by
  by_cases hround : ∃ q rest, l = .decodeEach (q :: rest)
  · obtain ⟨q, rest, rfl⟩ := hround
    by_cases hq : q = r
    · subst hq
      exact Grows.bind (decodeRequest_grows d) (Nat.le_refl 1) fun _ => Grows.ret _ _
    · have hworks := (works_chores (A := A) q).decodeRequest d
      refine Grows.bind ((hworks.mono fun s s' h => ?_).grows 0) (by decide)
        fun _ => Grows.ret _ _
      rw [generated, generated, h.requests r (Ne.symm hq)]
  · refine still_grows (betweenRounds_silent d fun q rest hl => hround ⟨q, rest, hl⟩) _

/-- What holds of every action while `P` and `K` last, if it does of the actions on
`r`, of those on other requests, and of those between two requests. -/
theorem decodeLoop_alwaysIf {P : Answer → Prop} {K : Scheduler A → Prop}
    {G : Scheduler A → Scheduler A → Prop} (hbetween : ∀ s s', s'.requests = s.requests → G s s')
    (hworks : ∀ q s s', q ≠ r → Works q s s' → G s s') (d : SchedulerSetup)
    (hstart : (startRequest d r : Sched A Unit).AlwaysIf P K G)
    (hdecode : (decodeRequest d r : Sched A Unit).AlwaysIf P K G) (l : Point) :
    (decodeLoop d l : Sched A Point).AlwaysIf P K G := by
  have hread : ∀ {α : Type} (f : Scheduler A → α), (Program.read f : Sched A α).AlwaysIf P K G :=
    fun f => (Always.read fun s => hbetween s s rfl).alwaysIf
  cases l with
  | start =>
      refine AlwaysIf.bind (Always.atomic fun _ s => hbetween s _ rfl).alwaysIf fun running => ?_
      cases running <;> exact AlwaysIf.ret _
  | processQueue =>
      refine AlwaysIf.bind (Always.atomic fun _ s => ?_).alwaysIf fun next => ?_
      · obtain heq | ⟨q, rest, -, -, heq⟩ := dequeue_cases s d.config.maxActiveRequests <;>
          rw [heq] <;> exact hbetween s _ rfl
      · cases next with
        | none => exact AlwaysIf.ret _
        | some q =>
            refine AlwaysIf.bind ?_ fun _ => AlwaysIf.ret _
            by_cases hq : q = r
            · subst hq
              exact hstart
            · exact (((works_chores q).startRequest d).mono fun s s' => hworks q s s' hq).alwaysIf
  | copyActive =>
      refine AlwaysIf.bind (hread _) fun active => ?_
      by_cases hnone : active.isEmpty
      · rw [if_pos hnone]
        exact AlwaysIf.ret _
      · rw [if_neg hnone]
        exact AlwaysIf.ret _
  | decodeEach rest =>
      cases rest with
      | nil => exact AlwaysIf.ret _
      | cons q rest =>
          refine AlwaysIf.bind ?_ fun _ => AlwaysIf.ret _
          by_cases hq : q = r
          · subst hq
            exact hdecode
          · exact (((works_chores q).decodeRequest d).mono fun s s' => hworks q s s' hq).alwaysIf
  | join | returned => exact AlwaysIf.ret _

/-- Where the cancellation is seen, no token is appended any more. -/
theorem decodeLoop_noticed (d : SchedulerSetup) (r : RequestPtr) (l : Point) :
    (decodeLoop d l : Sched A Point).AlwaysIf (fun _ => True)
      (fun s => (s.requests r).isCancelled = true) fun s s' => s'.generated r ≤ s.generated r := by
  have hstill : ∀ {α : Type} {p : Sched A α}, p.Always KeepsDue →
      p.AlwaysIf (fun _ => True) (fun s => (s.requests r).isCancelled = true)
        fun s s' => s'.generated r ≤ s.generated r :=
    fun hp => (hp.mono fun _ _ h => (h.noToken.generated r).le).alwaysIf
  have hdecode : (decodeRequest d r : Sched A Unit).AlwaysIf (fun _ => True)
      (fun s => (s.requests r).isCancelled = true) fun s s' => s'.generated r ≤ s.generated r := by
    refine AlwaysIf.atomic_bind fun _ s _ hcancelled => ⟨le_rfl, ?_⟩
    rw [if_pos hcancelled]
    exact hstill (completeRequest_silent .stop)
  refine decodeLoop_alwaysIf (fun s s' h => ?_) (fun q s s' hq hworks => ?_) d
    (hstill (startRequest_silent d)) hdecode l
  · rw [generated, generated, h]
  · rw [generated, generated, hworks.requests r (Ne.symm hq)]

/-- The token of a request is left alone, or cancelled. -/
def Recalls (r : RequestPtr) (s s' : Scheduler A) : Prop :=
  (s'.requests r).cancelToken = (s.requests r).cancelToken ∨
    (s'.requests r).cancelToken = (s.requests r).cancelToken.map fun _ => true

section Recalls

omit [IKVCacheAllocator A]

variable {s s' s'' : Scheduler A}

/-- A cancelled token stays cancelled. -/
theorem Recalls.cancelled (h : Recalls r s s') (hcancelled : (s.requests r).isCancelled = true) :
    (s'.requests r).isCancelled = true := by
  unfold Request.isCancelled at hcancelled ⊢
  simp only [decide_eq_true_eq] at hcancelled ⊢
  rcases h with h | h
  · rw [h, hcancelled]
  · rw [h, hcancelled]
    rfl

/-- A token that is not there, or cancelled, stays so. -/
theorem Recalls.ne_false (h : Recalls r s s')
    (hgone : (s.requests r).cancelToken ≠ some false) :
    (s'.requests r).cancelToken ≠ some false := by
  rcases h with h | h
  · rwa [h]
  · rw [h]
    cases (s.requests r).cancelToken <;> simp

theorem Recalls.trans (h : Recalls r s s') (h' : Recalls r s' s'') : Recalls r s s'' := by
  rcases h' with h' | h'
  · rw [Recalls, h']
    exact h
  · right
    rcases h with h | h <;> rw [h', h]
    rw [Option.map_map]
    rfl

/-- Leaving the token alone is such a step. -/
theorem Keeps.recalls (h : Keeps (·.cancelToken) s s') (r : RequestPtr) : Recalls r s s' :=
  .inl (h r)

/-- The HTTP threads only ever cancel it. -/
theorem http_recalls (r : RequestPtr) : HttpChores (Recalls (A := A) r) where
  idle _ := .inl rfl
  cancel s q := by
    by_cases hq : r = q
    · subst hq
      right
      rw [cancelToken, requests_modify_self]
    · left
      rw [cancelToken, requests_modify_of_ne s _ hq]
  pop s q := (keeps_popEvent (fun _ _ => rfl) s q).recalls r
  trans h h' := h.trans h'

end Recalls

/-- So does every thread. -/
theorem code_recalls (d : SchedulerSetup) (r : RequestPtr) (t : ThreadId) (l : Point) :
    (code d t l : Sched A Point).Always (Recalls r) := by
  by_cases ht : t = .decode
  · subst ht
    have hchores : ∀ q, Chores q (Keeps (A := A) fun q => q.cancelToken) := fun q =>
      chores_keeps q (fun _ hf q => congrArg (·.2.2.2.2.1) (hf q)) fun _ _ => rfl
    exact decodeLoop_always (fun q => (hchores q).mono fun _ _ h => h.recalls r)
      (fun _ => .inl rfl) (fun _ _ _ _ => .inl rfl) d l
  · refine others_always (http_recalls r) d ht (fun q _ => ?_) (fun _ _ => .inl rfl) l
    have hsubmit : SubmitChores q (Keeps (A := A) fun q => q.cancelToken) :=
      submit_keeps q (fun _ _ => rfl) (fun _ _ => rfl) fun _ _ => rfl
    exact ⟨fun s => (hsubmit.idle s).recalls r, fun s => (hsubmit.queue s).recalls r,
      fun s => (hsubmit.reject s).recalls r, fun s e => (hsubmit.blame s e).recalls r,
      fun s t => (hsubmit.stamp s t).recalls r, fun s => (hsubmit.register s).recalls r,
      fun s => (hsubmit.enqueue s).recalls r⟩

/-- **A cancellation takes effect at once.**  From any moment on at which the
token of a request is cancelled, in every interleaving, at most one more token
is generated for it. -/
theorem cancellation_prompt (d : SchedulerSetup) (s : Scheduler A)
    (before after : List (ThreadId × Answer))
    (h : (((System.initial s).run (code d) before).state.requests r).isCancelled = true) :
    ((System.initial s).run (code d) (before ++ after)).state.generated r ≤
      ((System.initial s).run (code d) before).state.generated r + 1 := by
  have hothers : ∀ t, t ≠ ThreadId.decode → ∀ l, (code d t l : Sched A Point).Always
      fun s s' => s'.generated r ≤ s.generated r := by
    intro t ht l
    refine (others_always http_tokens d ht (fun q _ => submit_tokens q)
      (fun _ _ => keeps_of_requests rfl) l).mono fun s s' hsame => ?_
    exact (hsame.generated r).le
  have hbystand : ∀ t, t ≠ ThreadId.decode →
      (((System.initial s).run (code d) before).threads t).Always
        fun s s' => s'.generated r ≤ s.generated r :=
    fun t ht => Pool.run_threads_always (hothers t ht) (Always.ret _) before
  have hgrows : ∀ l, (code d .decode l : Sched A Point).Grows (·.generated r) 1 :=
    decodeLoop_grows d r
  have hlone : (((System.initial s).run (code d) before).threads .decode).Grows
      (·.generated r) 1 := Pool.run_grows hgrows (Grows.ret _ 1) before
  rw [Pool.run_append]
  refine Pool.run_noticed hothers (fun l => decodeLoop_noticed d r l) hbystand hlone after
    (fun _ _ => trivial) fun first _ => ?_
  rw [← Pool.run_append]
  exact Pool.run_preserves (code_recalls d r) (fun _ _ hact hs => hact.cancelled hs) before first h

end Latency

/-- The token that is being sampled when the client disconnects still comes. -/
theorem cancellation_prompt_sample :
    let before := firstSubmitted 28 {} ++ moves 2 (.disconnect 0) {}
    let s := (alikeRun shortRequest before).state
    let s' := (alikeRun shortRequest (before ++ moves 20 .decode {})).state
    s.generated 0 = 0 ∧ s'.generated 0 = 1 ∧ s'.generated 0 ≤ s.generated 0 + 1 := by
  intro before s s'
  have hcancelled : (s.requests 0).isCancelled = true := by decide +kernel
  have hrun : s.generated 0 = 0 ∧ s'.generated 0 = 1 := by decide +kernel
  exact ⟨hrun.1, hrun.2, cancellation_prompt sampleSetup _ before _ hcancelled⟩

/-! ## Requests that are active together -/

/-- How many tokens `r` is ahead of `q`. -/
def lead (s : Scheduler A) (r q : RequestPtr) : Int := s.generated r - s.generated q

/-- The lead of `r` over `q` is `k`, as long as both are active. -/
def Leads (r q : RequestPtr) (k : Int) (s : Scheduler A) : Prop :=
  (r ∈ s.dequeued ∧ q ∈ s.dequeued) ∧
    (r ∈ s.activeRequests → q ∈ s.activeRequests → s.lead r q = k)

/-- Neither is more than one token further ahead than at first. -/
def Abreast (r q : RequestPtr) (k : Int) (s : Scheduler A) : Prop :=
  r ∈ s.activeRequests → q ∈ s.activeRequests → s.lead r q ≤ k + 1 ∧ k ≤ s.lead r q + 1

/-- Tokens, active list and dequeues stay. -/
structure Level (s s' : Scheduler A) : Prop where
  tokens : NoToken s s'
  activeRequests : s'.activeRequests = s.activeRequests
  dequeued : s'.dequeued = s.dequeued

/-- The contract of the decode thread between two moments at which the lead of
`r` over `q` is `k`. -/
def alikeContract (maxActive : Nat) (r q : RequestPtr) (k : Int) : Contract (Scheduler A) where
  known s := Life.Inv maxActive s.life
  rely := Level
  guar _ s' := Abreast r q k s'
  rely_refl s := ⟨Keeps.refl s, rfl, rfl⟩
  rely_trans h h' := ⟨h.tokens.trans h'.tokens, h'.activeRequests.trans h.activeRequests,
    h'.dequeued.trans h.dequeued⟩

/-- What is left of a round: those still to come in it are one token behind. -/
def behind (r q : RequestPtr) : Point → Int
  | .decodeEach rest => (if q ∈ rest then 1 else 0) - (if r ∈ rest then 1 else 0)
  | _ => 0

/-- The lead at the control points of the decode thread. -/
def alikePoint (r q : RequestPtr) (k : Int) (l : Point) (s : Scheduler A) : Prop :=
  Leads r q (k + behind r q l) s ∧ ∀ rest, l = .decodeEach rest → rest.Nodup

section Together

variable {maxActive : Nat} {p q r : RequestPtr} {j k : Int} {s s' : Scheduler A}

/-- On a level step nobody gets ahead. -/
theorem Level.lead (h : Level s s') (r q : RequestPtr) : s'.lead r q = s.lead r q := by
  rw [Scheduler.lead, Scheduler.lead, h.tokens.generated, h.tokens.generated]

/-- The lead is kept on a level step. -/
theorem Leads.level (h : Leads r q j s) (hlevel : Level s s') : Leads r q j s' := by
  rw [Leads, hlevel.dequeued, hlevel.activeRequests, hlevel.lead]
  exact h

/-- A lead one off at most is abreast. -/
theorem Leads.abreast (h : Leads r q j s) (hj : j ≤ k + 1 ∧ k ≤ j + 1) : Abreast r q k s := by
  intro hr hq
  rw [h.2 hr hq]
  exact hj

/-- Work on another request does not show. -/
theorem Leads.works (h : Leads r q j s) (hworks : Works p s s') (hr : p ≠ r) (hq : p ≠ q) :
    Leads r q j s' := by
  have hlead : s'.lead r q = s.lead r q := by
    rw [lead, lead, generated, generated, generated, generated, hworks.requests r (Ne.symm hr),
      hworks.requests q (Ne.symm hq)]
  rw [Leads, hworks.dequeued, hworks.listed r (Ne.symm hr), hworks.listed q (Ne.symm hq), hlead]
  exact h

/-- The other threads keep the lead. -/
theorem leads_stable (k : Int) : Stable (alikeContract (A := A) maxActive r q k) (Leads r q j) :=
  fun _ _ hs hrely _ => hs.level hrely

/-- One of the two has left the active list. -/
def Off (r q p : RequestPtr) (s : Scheduler A) : Prop :=
  (r ∈ s.dequeued ∧ q ∈ s.dequeued) ∧ (p = r ∨ p = q) ∧ p ∉ s.activeRequests

/-- Once one of the two is off, every lead may be claimed. -/
theorem Off.leads (h : Off r q p s) (j : Int) : Leads r q j s := by
  obtain ⟨hdequeued, rfl | rfl, hoff⟩ := h
  · exact ⟨hdequeued, fun hr => absurd hr hoff⟩
  · exact ⟨hdequeued, fun _ hq => absurd hq hoff⟩

/-- It stays off on a level step. -/
theorem Off.level (h : Off r q p s) (hlevel : Level s s') : Off r q p s' := by
  rw [Off, hlevel.dequeued, hlevel.activeRequests]
  exact h

/-- The other threads keep it off. -/
theorem off_stable (k : Int) : Stable (alikeContract (A := A) maxActive r q k) (Off r q p) :=
  fun _ _ hs hrely _ => hs.level hrely

/-- A program that keeps tokens, list and dequeues keeps the lead. -/
theorem level_leads {α : Type} {f : Sched A α} (hf : f.Always Level)
    (hj : j ≤ k + 1 ∧ k ≤ j + 1) :
    Triple (alikeContract maxActive r q k) (Leads r q j) f (fun _ => Leads r q j) :=
  hf.triple (leads_stable k) (fun _ _ hs hlevel => (hs.level hlevel).abreast hj)
    fun _ _ hs hlevel => hs.level hlevel

/-- So does a level program of the decode thread. -/
theorem level_off {α : Type} {f : Sched A α} (hf : f.Always Level) :
    Triple (alikeContract maxActive r q k) (Off r q p) f (fun _ => Off r q p) :=
  hf.triple (off_stable k)
    (fun _ _ hs hlevel => ((hs.level hlevel).leads k).abreast (by omega))
    fun _ _ hs hlevel => hs.level hlevel

/-- What is neither seen nor appends a token is level. -/
theorem level_of_quiet (hquiet : Quiet s s') (htokens : NoToken s s') : Level s s' :=
  ⟨htokens, congrArg Life.active hquiet, congrArg Life.dequeued hquiet⟩

/-- A rewrite that keeps the tokens is level. -/
theorem level_modify (s : Scheduler A) (p : RequestPtr) {f : Request → Request}
    (hf : ∀ q, (f q).tokens = q.tokens) : Level s (s.modify p f) :=
  ⟨keeps_modify s p hf, rfl, rfl⟩

theorem level_idle (s : Scheduler A) : Level s s := ⟨Keeps.refl s, rfl, rfl⟩

/-- Asking for logits is level. -/
theorem nextLogits_level : (nextLogits p : Sched A (Result Logits)).Always Level :=
  (nextLogits_silent.and (step_quiet p).nextLogits).mono fun _ _ h =>
    level_of_quiet h.2 h.1.noToken

/-- The one place at which a token is appended. -/
theorem leads_append (hp : p = r ∨ p = q) (hne : r ≠ q) (hs : Leads r q j s) {f : Request → Request}
    (hf : ∀ q, (f q).outputTokens.length = q.outputTokens.length + 1) :
    Leads r q (j + if p = r then 1 else -1) (s.modify p f) := by
  refine ⟨hs.1, fun hr hq => ?_⟩
  have hlead := hs.2 hr hq
  have hgrown : (s.modify p f).generated p = s.generated p + 1 := by
    rw [generated, requests_modify_self, hf]
    rfl
  have hother : ∀ q, q ≠ p → (s.modify p f).generated q = s.generated q := by
    intro q hq
    rw [generated, requests_modify_of_ne s f hq]
    rfl
  rw [lead] at hlead ⊢
  rcases hp with rfl | rfl
  · rw [if_pos rfl, hgrown, hother q (Ne.symm hne)]
    omega
  · rw [if_neg (Ne.symm hne), hgrown, hother r hne]
    omega

/-- A token moves the lead by one, one way or the other. -/
theorem appendToken_leads (d : SchedulerSetup) (hp : p = r ∨ p = q) (hne : r ≠ q)
    (hnext : (j + if p = r then 1 else -1) ≤ k + 1 ∧ k ≤ (j + if p = r then 1 else -1) + 1)
    (token : Int) :
    Triple (alikeContract maxActive r q k) (Leads r q j) (appendToken d p token : Sched A Bool)
      (fun _ => Leads r q (j + if p = r then 1 else -1)) := by
  refine Triple.bind (Triple.update (leads_stable k) (R := fun _ =>
    Leads r q (j + if p = r then 1 else -1)) fun s hs _ _ => ?_) fun _ => ?_
  · have hthen := leads_append hp hne hs (f := fun q => { q with
      outputTokens := q.outputTokens ++ [token]
      kvCache := { q.kvCache with currentLen := sizeAdd q.kvCache.currentLen 1 } })
      fun _ => by simp
    exact ⟨hthen.abreast hnext, hthen⟩
  refine level_leads ?_ hnext
  refine Always.bind (Always.update fun s => level_modify s p fun _ => rfl) fun _ => ?_
  refine Always.bind (Always.update fun s => level_modify s p fun _ => rfl) fun _ => ?_
  refine Always.atomic fun _ s => ?_
  dsimp only
  split
  · dsimp only
    exact level_modify s p fun _ => rfl
  · exact level_idle s

/-- A step that goes on has appended a token. -/
theorem runDecodeStep_leads (d : SchedulerSetup) (hp : p = r ∨ p = q) (hne : r ≠ q)
    (hj : j ≤ k + 1 ∧ k ≤ j + 1)
    (hnext : (j + if p = r then 1 else -1) ≤ k + 1 ∧ k ≤ (j + if p = r then 1 else -1) + 1) :
    Triple (alikeContract maxActive r q k) (Leads r q j)
      (runDecodeStep d p : Sched A (Result Bool)) (fun result s =>
        (result = .ok true → Leads r q (j + if p = r then 1 else -1) s) ∧
          (Leads r q j s ∨ Leads r q (j + if p = r then 1 else -1) s)) := by
  have hstopped : ∀ {result : Result Bool}, result ≠ .ok true →
      Triple (alikeContract maxActive r q k) (Leads r q j)
        (Program.ret result : Sched A (Result Bool)) (fun result s =>
          (result = .ok true → Leads r q (j + if p = r then 1 else -1) s) ∧
            (Leads r q j s ∨ Leads r q (j + if p = r then 1 else -1) s)) :=
    fun hne => Triple.ret fun _ hs => ⟨fun heq => absurd heq hne, Or.inl hs⟩
  refine Triple.bind (level_leads (Always.read level_idle) hj) fun cancelled => ?_
  cases cancelled with
  | true => exact hstopped (by simp)
  | false =>
      refine Triple.bind (level_leads nextLogits_level hj) fun logits => ?_
      cases logits with
      | error e => exact hstopped (by simp)
      | ok _ =>
          refine Triple.bind (level_leads (Always.atomic fun _ => level_idle) hj) fun sampled => ?_
          cases sampled with
          | error e => exact hstopped (by simp)
          | ok token =>
              refine Triple.bind (appendToken_leads d hp hne hnext token) fun goesOn => ?_
              exact Triple.ret fun _ hs => ⟨fun _ => hs, Or.inr hs⟩

variable [IKVCacheAllocator A]

/-- Releasing resources is level. -/
theorem release_level (p : RequestPtr) : ReleaseChores p (Level (A := A)) := by
  have hquiet := release_quiet (A := A) p
  have htokens : ReleaseChores p (NoToken (A := A)) := release_keeps p fun _ _ => rfl
  exact ⟨level_idle, fun s => level_of_quiet (hquiet.freeBudget s) (htokens.freeBudget s),
    fun s => level_of_quiet (hquiet.freeKvCache s) (htokens.freeKvCache s)⟩

/-- A request that is completed or failed leaves the active list. -/
theorem end_leads (hp : p = r ∨ p = q) (hj : j ≤ k + 1 ∧ k ≤ j + 1) {st : RequestState}
    {event : TokenEvent} {f : Request → Request} {count : Scheduler A → Scheduler A}
    (hf : ∀ s : Scheduler A, Level s (s.modify p f))
    (hcount : ∀ s : Scheduler A, Level s (count s)) :
    Triple (alikeContract maxActive r q k) (Leads r q j)
      (do Program.update (fun s => s.modify p f)
          setState p st
          retire p event
          Program.update count : Sched A Unit) (fun _ => Off r q p) := by
  have hmodify : ∀ {f : Request → Request}, (∀ q, (f q).tokens = q.tokens) →
      (Program.update (fun s => s.modify p f) : Sched A Unit).Always Level :=
    fun hf => Always.update fun s => level_modify s p hf
  refine Triple.bind (level_leads (Always.update hf) hj) fun _ => ?_
  refine Triple.bind (level_leads (hmodify fun _ => rfl) hj) fun _ => ?_
  refine Triple.bind (Q := fun _ => Off r q p) ?_ fun _ => level_off (Always.update hcount)
  refine Triple.bind (level_leads (hmodify fun _ => rfl) hj) fun _ => ?_
  refine Triple.bind (level_leads (hmodify fun _ => rfl) hj) fun _ => ?_
  refine Triple.bind (level_leads (release_level p).freeResources hj) fun _ => ?_
  refine Triple.bind (Triple.update (leads_stable k) (R := fun _ => Off r q p)
    fun s hs _ _ => ?_) fun _ => ?_
  · have hoff : Off r q p (s.eraseActive p) := ⟨hs.1, hp, by simp [eraseActive]⟩
    exact ⟨(hoff.leads k).abreast (by omega), hoff⟩
  refine Triple.bind (level_off (Always.update fun _ => ⟨keeps_of_requests rfl, rfl, rfl⟩))
    fun _ => ?_
  exact level_off (Always.update fun _ => ⟨keeps_of_requests rfl, rfl, rfl⟩)

/-- A completion takes one of the two off the list. -/
theorem completeRequest_leads (hp : p = r ∨ p = q) (hj : j ≤ k + 1 ∧ k ≤ j + 1)
    (reason : FinishReason) :
    Triple (alikeContract maxActive r q k) (Leads r q j) (completeRequest p reason : Sched A Unit)
      (fun _ => Off r q p) :=
  end_leads hp hj (fun s => level_modify s p fun _ => rfl)
    fun _ => ⟨keeps_of_requests rfl, rfl, rfl⟩

/-- So does a failure. -/
theorem failRequest_leads (hp : p = r ∨ p = q) (hj : j ≤ k + 1 ∧ k ≤ j + 1) (error : Error) :
    Triple (alikeContract maxActive r q k) (Leads r q j) (failRequest p error : Sched A Unit)
      (fun _ => Off r q p) :=
  end_leads hp hj (fun s => level_modify s p fun _ => rfl)
    fun _ => ⟨keeps_of_requests rfl, rfl, rfl⟩

/-- A round gives a request one token, or takes it off the active list. -/
theorem decodeRequest_leads (d : SchedulerSetup) (hp : p = r ∨ p = q) (hne : r ≠ q)
    (hj : j ≤ k + 1 ∧ k ≤ j + 1)
    (hnext : (j + if p = r then 1 else -1) ≤ k + 1 ∧ k ≤ (j + if p = r then 1 else -1) + 1) :
    Triple (alikeContract maxActive r q k) (Leads r q j) (decodeRequest d p : Sched A Unit)
      (fun _ => Leads r q (j + if p = r then 1 else -1)) := by
  have hcomplete : ∀ {i reason}, i ≤ k + 1 ∧ k ≤ i + 1 →
      Triple (alikeContract maxActive r q k) (Leads r q i)
        (completeRequest p reason : Sched A Unit)
        (fun _ => Leads r q (j + if p = r then 1 else -1)) :=
    fun hi => (completeRequest_leads hp hi _).post fun _ _ hs => hs.leads _
  have hfail : ∀ {i e}, i ≤ k + 1 ∧ k ≤ i + 1 →
      Triple (alikeContract maxActive r q k) (Leads r q i) (failRequest p e : Sched A Unit)
        (fun _ => Leads r q (j + if p = r then 1 else -1)) :=
    fun hi => (failRequest_leads hp hi _).post fun _ _ hs => hs.leads _
  have hclock : ∀ {α : Type} (f : Answer → Scheduler A → α),
      (Program.atomic (fun i s => (f i s, s)) : Sched A α).Always Level :=
    fun _ => Always.atomic fun _ => level_idle
  refine Triple.bind (level_leads (hclock _) hj) fun cancelled => ?_
  cases cancelled with
  | true => exact hcomplete hj
  | false =>
      refine Triple.bind (level_leads (hclock _) hj) fun requestTimedOut => ?_
      cases requestTimedOut with
      | true => exact hfail hj
      | false =>
          refine Triple.bind (level_leads (hclock _) hj) fun decodeTimedOut => ?_
          cases decodeTimedOut with
          | true => exact hfail hj
          | false =>
              refine Triple.bind (runDecodeStep_leads d hp hne hj hnext) fun result => ?_
              cases result with
              | error e =>
                  intro s hs
                  exact hs.2.elim (hfail hj s) (hfail hnext s)
              | ok goesOn =>
                  cases goesOn with
                  | true => exact Triple.ret fun _ hs => hs.1 rfl
                  | false =>
                      intro s hs
                      rcases hs.2 with hs | hs
                      · exact (level_leads (hclock _) hj).bind (fun _ => hcomplete hj) s hs
                      · exact (level_leads (hclock _) hnext).bind (fun _ => hcomplete hnext) s hs

/-- A request that is started was not dequeued before. -/
theorem startRequest_leads (d : SchedulerSetup) (hr : p ≠ r) (hq : p ≠ q)
    (hj : j ≤ k + 1 ∧ k ≤ j + 1) :
    Triple (alikeContract maxActive r q k) (Leads r q j) (startRequest d p : Sched A Unit)
      (fun _ => Leads r q j) :=
  ((works_chores p).startRequest d).triple (leads_stable k)
    (fun _ _ hs hworks => (hs.works hworks hr hq).abreast hj)
    fun _ _ hs hworks => hs.works hworks hr hq

omit [IKVCacheAllocator A] in
/-- A round is never more than one token uneven. -/
theorem behind_bounds (l : Point) :
    k + behind r q l ≤ k + 1 ∧ k ≤ k + behind r q l + 1 := by
  cases l with
  | decodeEach rest =>
      simp only [behind]
      split <;> split <;> omega
  | start | processQueue | copyActive | join | returned => simp [behind]

omit [IKVCacheAllocator A] in
/-- Between two rounds nobody is behind. -/
theorem alikePoint_of_leads (h : Leads r q k s) {l : Point}
    (hl : l ∈ [Point.start, .processQueue, .copyActive] ∨ ∃ result, l = .returned result) :
    alikePoint r q k l s := by
  have hbehind : behind r q l = 0 ∧ ∀ rest, l ≠ .decodeEach rest := by
    rcases hl with hl | ⟨result, rfl⟩
    · simp only [List.mem_cons, List.not_mem_nil, or_false] at hl
      rcases hl with rfl | rfl | rfl <;> exact ⟨rfl, nofun⟩
    · exact ⟨rfl, nofun⟩
  refine ⟨?_, fun rest heq => absurd heq (hbehind.2 rest)⟩
  rw [hbehind.1, Int.add_zero]
  exact h

/-- A turn in the round makes good what was behind. -/
theorem decodeEach_leads (d : SchedulerSetup) (hne : r ≠ q) (rest : List RequestPtr) :
    Triple (alikeContract maxActive r q k) (alikePoint r q k (.decodeEach (p :: rest)))
      (decodeLoop d (.decodeEach (p :: rest)) : Sched A Point) (alikePoint r q k) := by
  intro s hs
  obtain ⟨hleads, hnodup⟩ := hs
  obtain ⟨hfresh, hrest⟩ := List.nodup_cons.mp (hnodup _ rfl)
  have hbefore := behind_bounds (r := r) (q := q) (k := k) (.decodeEach (p :: rest))
  have hafter := behind_bounds (r := r) (q := q) (k := k) (.decodeEach rest)
  have hround : Triple (alikeContract maxActive r q k)
      (Leads r q (k + behind r q (.decodeEach (p :: rest)))) (decodeRequest d p : Sched A Unit)
      (fun _ => Leads r q (k + behind r q (.decodeEach rest))) := by
    by_cases hp : p = r ∨ p = q
    · have hturn : k + behind r q (.decodeEach (p :: rest)) + (if p = r then 1 else -1) =
          k + behind r q (.decodeEach rest) := by
        rcases hp with rfl | rfl
        · simp [behind, hfresh, Ne.symm hne]
          omega
        · simp [behind, hfresh, hne, Ne.symm hne]
          omega
      rw [← hturn] at hafter ⊢
      exact decodeRequest_leads d hp hne hbefore hafter
    · obtain ⟨hr, hq⟩ := not_or.mp hp
      have hsame : behind r q (.decodeEach (p :: rest)) = behind r q (.decodeEach rest) := by
        simp [behind, Ne.symm hr, Ne.symm hq]
      rw [hsame]
      exact ((works_chores p).decodeRequest d).triple (leads_stable k)
        (fun _ _ hs hworks => (hs.works hworks hr hq).abreast hafter)
        fun _ _ hs hworks => hs.works hworks hr hq
  refine (hround.bind fun _ => Triple.ret fun s hs => ⟨hs, fun rest' heq => ?_⟩) s hleads
  cases heq
  exact hrest

/-- Every body of the decode thread keeps the two abreast. -/
theorem decodeLoop_leads (d : SchedulerSetup) (hne : r ≠ q) (l : Point) :
    Triple (alikeContract d.config.maxActiveRequests r q k) (alikePoint r q k l)
      (decodeLoop d l : Sched A Point) (alikePoint r q k) := by
  have hk : k ≤ k + 1 ∧ k ≤ k + 1 := by omega
  have hhead : ∀ {l : Point} {s : Scheduler A}, behind r q l = 0 → alikePoint r q k l s →
      Leads r q k s := by
    intro l s hbehind hs
    have hleads := hs.1
    rw [hbehind, Int.add_zero] at hleads
    exact hleads
  have hret : ∀ {l : Point}, l ∈ [Point.start, .processQueue, .copyActive] ∨
      (∃ result, l = .returned result) →
      Triple (alikeContract d.config.maxActiveRequests r q k) (Leads r q k)
        (Program.ret l : Sched A Point) (alikePoint r q k) :=
    fun hl => Triple.ret fun _ hs => alikePoint_of_leads hs hl
  cases l with
  | start =>
      refine Triple.bind ((level_leads (Always.atomic fun _ _ =>
        ⟨keeps_of_requests rfl, rfl, rfl⟩) hk).pre fun _ => hhead rfl) fun running => ?_
      cases running with
      | true => exact hret (Or.inl (by simp))
      | false => exact hret (Or.inr ⟨_, rfl⟩)
  | processQueue =>
      refine Triple.bind (Q := fun next s => Leads r q k s ∧ ∀ p ∈ next, p ≠ r ∧ p ≠ q)
        ((Triple.atomic (leads_stable k) fun _ s hs hknown _ => ?_).pre fun _ => hhead rfl)
        fun next => ?_
      · obtain heq | ⟨p, rest, hpend, -, heq⟩ := dequeue_cases s d.config.maxActiveRequests
        · rw [heq]
          exact ⟨hs.abreast hk, hs, by simp⟩
        · have hnew : ∀ {q : RequestPtr}, q ∈ s.dequeued → p ≠ q := by
            rintro q hq rfl
            exact hknown.not_dequeued_of_pending (r := p) (by simp [life, hpend]) hq
          have hthen : Leads r q k ({ s with pendingQueue := rest }.log (.dequeued p)) := by
            refine ⟨?_, hs.2⟩
            have hgrown : ({ s with pendingQueue := rest }.log (.dequeued p)).dequeued =
                s.dequeued ++ [p] := by simp [dequeued, log]
            rw [hgrown]
            exact hs.1.imp (List.mem_append_left _) (List.mem_append_left _)
          rw [heq]
          refine ⟨hthen.abreast hk, hthen, fun p' hp' => ?_⟩
          cases hp'
          exact ⟨hnew hs.1.1, hnew hs.1.2⟩
      · cases next with
        | none => exact (hret (Or.inl (by simp))).pre fun _ hs => hs.1
        | some p =>
            intro s hs
            obtain ⟨hr, hq⟩ := hs.2 p rfl
            exact (startRequest_leads d hr hq hk).bind (fun _ => hret (Or.inl (by simp))) s hs.1
  | copyActive =>
      refine Triple.bind (Q := fun active s =>
          Leads r q k s ∧ active = s.activeRequests ∧ active.Nodup)
        ((Triple.atomic (leads_stable k) fun _ s hs hknown _ => ?_).pre fun _ => hhead rfl)
        fun active => ?_
      · exact ⟨hs.abreast hk, hs, rfl, hknown.active_nodup⟩
      by_cases hnone : active.isEmpty
      · rw [if_pos hnone]
        exact (hret (Or.inl (by simp))).pre fun _ hs => hs.1
      · rw [if_neg hnone]
        refine Triple.ret fun s hs => ?_
        obtain ⟨hleads, rfl, hnodup⟩ := hs
        refine ⟨⟨hleads.1, fun hr hq => ?_⟩, fun rest heq => ?_⟩
        · simp [behind, hr, hq, hleads.2 hr hq]
        · cases heq
          exact hnodup
  | decodeEach rest =>
      cases rest with
      | nil => exact (hret (Or.inl (by simp))).pre fun _ => hhead rfl
      | cons p rest => exact decodeEach_leads d hne rest
  | join | returned => exact Triple.ret fun _ hs => hs

/-- The other threads append no token and take nobody off. -/
theorem others_level (d : SchedulerSetup) {t : ThreadId} (ht : t ≠ .decode) (l : Point) :
    (code (A := A) d t l : Sched A Point).Always Level := by
  have hhttp : HttpChores (Level (A := A)) :=
    { idle := level_idle
      cancel := fun s p => level_of_quiet (http_quiet.cancel s p) (http_tokens.cancel s p)
      pop := fun s p => level_of_quiet (http_quiet.pop s p) (http_tokens.pop s p)
      trans := fun h h' => ⟨h.tokens.trans h'.tokens, h'.activeRequests.trans h.activeRequests,
        h'.dequeued.trans h.dequeued⟩ }
  refine others_always hhttp d ht (fun p _ => ?_) (fun _ s => ?_) l
  · have htokens := submit_tokens (A := A) p
    exact ⟨level_idle, fun s => ⟨htokens.queue s, rfl, rfl⟩, fun s => ⟨htokens.reject s, rfl, rfl⟩,
      fun s e => ⟨htokens.blame s e, rfl, rfl⟩, fun s t => ⟨htokens.stamp s t, rfl, rfl⟩,
      fun s => ⟨htokens.register s, rfl, by simp [registryAdd, dequeued, log]⟩,
      fun s => ⟨htokens.enqueue s, rfl, by simp [enqueue, dequeued, log]⟩⟩
  · exact ⟨keeps_of_requests rfl, rfl, rfl⟩

/-- **Requests that are active together are served alike.**  From any moment on
at which the decode thread is between two rounds and both requests are active,
in every interleaving, as long as both are active, neither has got more than
one token more than the other, and between two rounds both have got equally
many. -/
theorem served_alike (d : SchedulerSetup) {a : A} {g : Option GPURouter}
    {requests : RequestPtr → Request} (h : Fresh requests) (before after : List (ThreadId × Answer))
    (hhead : AtHead ((System.initial (create a g requests)).run (code d) before)) :
    let first := (System.initial (create a g requests)).run (code d) before
    let last := (System.initial (create a g requests)).run (code d) (before ++ after)
    r ∈ first.state.activeRequests → q ∈ first.state.activeRequests →
    r ∈ last.state.activeRequests → q ∈ last.state.activeRequests →
      last.state.lead r q ≤ first.state.lead r q + 1 ∧
        first.state.lead r q ≤ last.state.lead r q + 1 ∧
        (AtHead last → last.state.lead r q = first.state.lead r q) := by
  intro first last hr hq hr' hq'
  by_cases hne : r = q
  · subst hne
    simp only [lead, Int.sub_self]
    exact ⟨by decide, by decide, fun _ => trivial⟩
  have hlife : ∀ after, Life.Inv d.config.maxActiveRequests
      ((System.initial (create a g requests)).run (code d) (before ++ after)).state.life :=
    fun _ => life_inv d h _
  have hothers : ∀ t, t ≠ ThreadId.decode → (first.threads t).Always Level :=
    fun t ht => Pool.run_threads_always (others_level d ht) (Program.Always.ret Point.start) before
  have hleads : Leads r q (first.state.lead r q) first.state := by
    have hinv := life_inv (a := a) (g := g) d h before
    exact ⟨⟨hinv.active_dequeued r hr, hinv.active_dequeued q hq⟩, fun _ _ => rfl⟩
  have hlone : wp (alikeContract d.config.maxActiveRequests r q (first.state.lead r q))
      (first.threads .decode) (alikePoint r q (first.state.lead r q)) first.state := by
    have hstart : first.threads .decode = .ret .start := hhead
    rw [hstart]
    exact alikePoint_of_leads hleads (Or.inl (by simp))
  have hc := Compatible.lone (c := alikeContract (A := A) d.config.maxActiveRequests r q
      (first.state.lead r q)) (I := alikePoint r q (first.state.lead r q))
    (fun t ht => others_level d ht) (fun l s s' hs hrely _ => ⟨hs.1.level hrely, hs.2⟩)
    (fun l => decodeLoop_leads d hne l)
  have hrun := hc.lone_since (J := Abreast r q (first.state.lead r q)) (fun _ _ hguar _ => hguar)
    (fun s s' hrely hs => ?_) hothers hlone (hleads.abreast (by omega)) after fun rest _ => ?_
  · have hlast : last = first.run (code d) after := Pool.run_append ..
    rw [← hlast] at hrun
    refine ⟨(hrun.2 hr' hq').1, (hrun.2 hr' hq').2, fun hend => ?_⟩
    have hpoint := (hrun.1 .start hend).1.2 hr' hq'
    simpa [behind] using hpoint
  · intro hr hq
    rw [hrely.activeRequests] at hr hq
    rw [hrely.lead]
    exact hs hr hq
  · have hinv := hlife rest
    rw [Pool.run_append] at hinv
    exact hinv

end Together

/-- In the middle of a round the first of two requests is one token ahead. -/
theorem served_alike_sample :
    let request := { shortRequest with maxTokens := 5 }
    let before := moves 9 (.submit 0) {} ++ moves 9 (.submit 1) {} ++ moves 61 .decode {}
    let first := (alikeRun request before).state
    let last := (alikeRun request (before ++ moves 20 .decode {})).state
    first.lead 0 1 = 0 ∧ last.lead 0 1 = 1 ∧ last.lead 0 1 ≤ first.lead 0 1 + 1 := by
  intro request before first last
  have hhead : AtHead (alikeRun request before) := by decide +kernel
  have hfirst : first.lead 0 1 = 0 ∧ 0 ∈ first.activeRequests ∧ 1 ∈ first.activeRequests := by
    decide +kernel
  have hlast : last.lead 0 1 = 1 ∧ 0 ∈ last.activeRequests ∧ 1 ∈ last.activeRequests := by
    decide +kernel
  have hfresh : Fresh (numbered request) := numbered_fresh rfl
  have halike := served_alike (a := sampleContiguous) (g := some (sampleRouter 20000)) (r := 0)
    (q := 1) sampleSetup hfresh before (moves 20 .decode {}) hhead
  dsimp only [first, last, alikeRun] at hfirst hlast ⊢
  exact ⟨hfirst.1, hlast.1, (halike hfirst.2.1 hfirst.2.2 hlast.2.1 hlast.2.2).1⟩

end Scheduler

end Qwen
