import Mathlib.Algebra.Order.BigOperators.Group.List
import Mathlib.Algebra.Order.Ring.Nat
import WinInference.Concurrency.Progress
import WinInference.Scheduler.Lifecycle
import WinInference.Scheduler.Parts

/-!
# The load of the scheduler

What the waiting and the active requests still need, in rounds of the decode
loop.  Starting a request takes it off the queue and keeps its rounds; a round
of an active request appends a token, and so is one round less to do, or ends
the request.  Nothing else that the decode thread does shows in the load, and
what the other threads do shows only when they push.

`Calm` are the actions that do not show in the load, `Eases` those that lower
it.  `Low`, `Due`, `Served` and `Ending` are what is known of the load on the
way through one request, and `startRequest_drains` and `decodeRequest_drains`
say that at its end there is less to do.
-/

namespace Qwen

open Concurrency Concurrency.Program

/-- The tokens of a request, to be made and made. -/
def Request.tokens (q : Request) : Int × List Int := (q.maxTokens, q.outputTokens)

/-- The decode rounds a request can still need. -/
def Request.turnsLeft (q : Request) : Nat :=
  if q.isTerminal then 0 else (q.maxTokens - q.outputTokens.length).toNat + 1

/-- A request that has ended needs no more rounds. -/
theorem Request.turnsLeft_terminal {q : Request} (h : q.isTerminal = true) :
    q.turnsLeft = 0 := by
  simp [turnsLeft, h]

/-- Any other needs one for each token to come, and one to end. -/
theorem Request.turnsLeft_going {q : Request} (h : q.isTerminal = false) :
    q.turnsLeft = (q.maxTokens - q.outputTokens.length).toNat + 1 := by
  simp [turnsLeft, h]

/-- One more token, within the limit, is one round less. -/
theorem Request.turnsLeft_append {q q' : Request} (hstate : q'.state = q.state)
    (hmax : q'.maxTokens = q.maxTokens)
    (htokens : q'.outputTokens.length = q.outputTokens.length + 1)
    (hlimit : (q'.outputTokens.length : Int) ≤ q'.maxTokens) (hgoing : q.isTerminal = false) :
    q'.turnsLeft + 1 ≤ q.turnsLeft := by
  have hgoing' : q'.isTerminal = false := by
    rw [isTerminal, hstate]
    exact hgoing
  rw [turnsLeft_going hgoing, turnsLeft_going hgoing', hmax, htokens]
  rw [hmax, htokens] at hlimit
  omega

/-- What the load counts of a request. -/
def Request.work (q : Request) : Bool × Nat := (q.isTerminal, q.turnsLeft)

namespace Scheduler

variable {A : Type}

/-! ## The load -/

/-- What the pending and the active requests still need: five units for each
round of a request, one to take it off the queue. -/
def load (s : Scheduler A) : Nat :=
  (s.pendingQueue.map fun r => 5 * (s.requests r).turnsLeft + 1).sum +
    (s.activeRequests.map fun r => 5 * (s.requests r).turnsLeft).sum

/-- Nothing is waiting and nothing is active. -/
def Drained (s : Scheduler A) : Prop := s.pendingQueue = [] ∧ s.activeRequests = []

/-- What the load is made of stays, and so does the work on `r`. -/
structure Calm (r : RequestPtr) (s s' : Scheduler A) : Prop where
  pendingQueue : s'.pendingQueue = s.pendingQueue
  activeRequests : s'.activeRequests = s.activeRequests
  work : ∀ q, q ∈ s.pendingQueue ∨ q ∈ s.activeRequests ∨ q = r →
    (s'.requests q).isTerminal = (s.requests q).isTerminal ∧
      (s'.requests q).turnsLeft = (s.requests q).turnsLeft

/-- What may be taken off the load is. -/
structure Eases (s s' : Scheduler A) : Prop where
  pendingQueue : s'.pendingQueue = s.pendingQueue
  activeRequests : s'.activeRequests.Sublist s.activeRequests
  work : ∀ q, (s'.requests q).turnsLeft ≤ (s.requests q).turnsLeft

section Load

variable {r : RequestPtr} {s s' s'' : Scheduler A}

/-- The load depends on the lists and the rounds left alone. -/
theorem load_congr (hpending : s'.pendingQueue = s.pendingQueue)
    (hactive : s'.activeRequests = s.activeRequests)
    (hwork : ∀ q, q ∈ s.pendingQueue ∨ q ∈ s.activeRequests →
      (s'.requests q).turnsLeft = (s.requests q).turnsLeft) : s'.load = s.load := by
  have hqueue : ∀ q ∈ s.pendingQueue,
      5 * (s'.requests q).turnsLeft + 1 = 5 * (s.requests q).turnsLeft + 1 := by
    intro q hq
    rw [hwork q (Or.inl hq)]
  have hrounds : ∀ q ∈ s.activeRequests,
      5 * (s'.requests q).turnsLeft = 5 * (s.requests q).turnsLeft := by
    intro q hq
    rw [hwork q (Or.inr hq)]
  rw [load, load, hpending, hactive, List.map_congr_left hqueue, List.map_congr_left hrounds]

/-- A calm step leaves the load as it is. -/
theorem Calm.load (h : Calm r s s') : s'.load = s.load :=
  load_congr h.pendingQueue h.activeRequests
    fun q hq => (h.work q (hq.imp_right Or.inl)).2

/-- A step that eases does not add to it. -/
theorem Eases.load (h : Eases s s') : s'.load ≤ s.load := by
  have hpending : (s.pendingQueue.map fun q => 5 * (s'.requests q).turnsLeft + 1).sum ≤
      (s.pendingQueue.map fun q => 5 * (s.requests q).turnsLeft + 1).sum := by
    refine List.sum_le_sum fun q _ => ?_
    have := h.work q
    omega
  have hsub : (s'.activeRequests.map fun q => 5 * (s'.requests q).turnsLeft).sum ≤
      (s.activeRequests.map fun q => 5 * (s'.requests q).turnsLeft).sum :=
    (h.activeRequests.map _).sum_le_sum fun _ _ => Nat.zero_le _
  have hactive : (s.activeRequests.map fun q => 5 * (s'.requests q).turnsLeft).sum ≤
      (s.activeRequests.map fun q => 5 * (s.requests q).turnsLeft).sum :=
    List.sum_le_sum fun q _ => Nat.mul_le_mul_left 5 (h.work q)
  rw [Scheduler.load, Scheduler.load, h.pendingQueue]
  omega

/-- A step that leaves lists and requests alone is calm. -/
theorem Calm.of_requests (hpending : s'.pendingQueue = s.pendingQueue)
    (hactive : s'.activeRequests = s.activeRequests) (hrequests : s'.requests = s.requests) :
    Calm r s s' :=
  ⟨hpending, hactive, fun _ _ => by rw [hrequests]; exact ⟨rfl, rfl⟩⟩

/-- So is one that is not seen and keeps the work. -/
theorem Calm.of_quiet (hquiet : Quiet s s') (hwork : Keeps Request.work s s') : Calm r s s' :=
  ⟨congrArg Life.pending hquiet, congrArg Life.active hquiet, fun q _ => Prod.mk.inj (hwork q)⟩

theorem Calm.refl (r : RequestPtr) (s : Scheduler A) : Calm r s s := .of_requests rfl rfl rfl

theorem calm_log (s : Scheduler A) (e : Event) : Calm r s (s.log e) := .of_requests rfl rfl rfl

/-- A rewrite that keeps the tokens of a request, and whether it has ended. -/
theorem calm_modify {p : RequestPtr} {f : Request → Request}
    (hkeeps : (f (s.requests p)).maxTokens = (s.requests p).maxTokens ∧
      (f (s.requests p)).outputTokens = (s.requests p).outputTokens)
    (hgoing : (f (s.requests p)).isTerminal = (s.requests p).isTerminal) :
    Calm r s (s.modify p f) := by
  refine ⟨rfl, rfl, fun q _ => ?_⟩
  by_cases hq : q = p
  · subst hq
    rw [requests_modify_self]
    refine ⟨hgoing, ?_⟩
    rw [Request.turnsLeft, Request.turnsLeft, hgoing, hkeeps.1, hkeeps.2]
  · rw [requests_modify_of_ne s f hq]
    exact ⟨rfl, rfl⟩

end Load

/-! ## The actions of the decode thread -/

section Chores

variable {r : RequestPtr} {s s' : Scheduler A}

/-- What is calm for every request eases. -/
theorem Calm.eases (h : ∀ r, Calm r s s') : Eases s s' :=
  ⟨(h 0).pendingQueue, (h 0).activeRequests ▸ List.Sublist.refl _,
    fun q => ((h q).work q (Or.inr (Or.inr rfl))).2.le⟩

/-- A rewrite of a request that may only bring it nearer its end. -/
theorem eases_modify {f : Request → Request} (hturns : ∀ q, (f q).turnsLeft ≤ q.turnsLeft) :
    Eases s (s.modify r f) := by
  refine ⟨rfl, List.Sublist.refl _, fun q => ?_⟩
  by_cases hq : q = r
  · subst hq
    rw [requests_modify_self]
    exact hturns _
  · rw [requests_modify_of_ne s f hq]

variable [IKVCacheAllocator A]

/-- Releasing resources is calm. -/
theorem release_calm (q r : RequestPtr) : ReleaseChores r (Calm (A := A) q) := by
  have hquiet := release_quiet (A := A) r
  have hwork : ReleaseChores r (Keeps (A := A) Request.work) := release_keeps r fun _ _ => rfl
  exact ⟨Calm.refl q, fun s => .of_quiet (hquiet.freeBudget s) (hwork.freeBudget s),
    fun s => .of_quiet (hquiet.freeKvCache s) (hwork.freeKvCache s)⟩

/-- So is a placement. -/
theorem place_calm (r : RequestPtr) : PlaceChores r (Calm (A := A) r) := by
  have hquiet := place_quiet (A := A) r
  have hwork : PlaceChores r (Keeps (A := A) Request.work) :=
    place_keeps r (fun _ _ => rfl) fun _ _ => rfl
  exact ⟨fun s => .of_quiet (hquiet.route s) (hwork.route s),
    fun s decision => .of_quiet (hquiet.reserve s decision) (hwork.reserve s decision),
    fun s i decision => .of_quiet (hquiet.allocate s i decision) (hwork.allocate s i decision),
    fun s decision => .of_quiet (hquiet.unreserve s decision) (hwork.unreserve s decision),
    fun s decision => .of_quiet (hquiet.commit s decision) (hwork.commit s decision)⟩

/-- What is done for a request that has ended only takes it off the lists. -/
theorem leave_eases (r : RequestPtr) : LeaveChores r (Eases (A := A)) where
  idle s := Calm.eases fun q => Calm.refl q s
  freeBudget s := Calm.eases fun q => (release_calm q r).freeBudget s
  freeKvCache s := Calm.eases fun q => (release_calm q r).freeKvCache s
  eraseActive _ := ⟨rfl, List.filter_sublist, fun _ => Nat.le_refl _⟩
  unregister _ := Calm.eases fun _ => .of_requests rfl rfl rfl
  gauge _ _ := Calm.eases fun _ => .of_requests rfl rfl rfl
  countCompleted _ _ := Calm.eases fun _ => .of_requests rfl rfl rfl
  countErrored _ _ := Calm.eases fun _ => .of_requests rfl rfl rfl

/-- Retiring a request takes it off the load. -/
theorem retire_eases (r : RequestPtr) (event : TokenEvent) :
    (retire r event : Sched A Unit).Always Eases := by
  have hquiet : ∀ {f : Request → Request}, (∀ q, (f q).turnsLeft = q.turnsLeft) →
      (Program.update (fun s => s.modify r f) : Sched A Unit).Always Eases := fun hf =>
    Always.update fun s => eases_modify fun q => (hf q).le
  have hpush : Triple _ (fun _ => True)
      (Program.update (·.pushEvent r event) : Sched A Unit) (fun _ _ => True) :=
    Always.watched (hquiet fun _ => rfl)
  have hclose : Triple _ (fun _ => True)
      (Program.update (·.closeQueue r) : Sched A Unit) (fun _ _ => True) :=
    Always.watched (hquiet fun _ => rfl)
  refine .of_triple ((leave_eases r).retire hpush hclose (fun _ _ _ _ _ => trivial)
    (fun _ _ _ hact => hact) (fun _ _ _ _ => trivial)
    (fun _ _ => trivial))

omit [IKVCacheAllocator A] in
/-- The call of the runtime is calm. -/
theorem callPrefill_calm (r : RequestPtr) :
    (callPrefill r : Sched A (Result Logits)).Always (Calm r) := by
  refine Always.atomic fun i s => ?_
  cases i.prefill <;> exact .of_requests rfl rfl rfl

end Chores

/-! ## Contracts -/

/-- Nobody but the decode thread adds a token. -/
def tokenContract : Contract (Scheduler A) where
  known _ := True
  rely := Keeps Request.tokens
  guar _ _ := True
  rely_refl := Keeps.refl
  rely_trans := Keeps.trans

/-- What the decode thread relies on. -/
def drainContract (maxActive : Nat) : Contract (Scheduler A) :=
  (decodeContract maxActive).and tokenContract

/-- What is known while nothing new is pushed. -/
structure Ceased (maxActive : Nat) (requests : RequestPtr → Request) (arrived : List RequestPtr)
    (s : Scheduler A) : Prop where
  inv : Life.Inv maxActive s.life
  pushed : s.pushed = arrived
  limit : ∀ q, ((s.requests q).outputTokens.length : Int) ≤ (s.requests q).maxTokens
  maxTokens : ∀ q, (s.requests q).maxTokens = (requests q).maxTokens

section Contracts

/-- The HTTP threads add no token. -/
theorem http_tokens : HttpChores (Keeps (A := A) Request.tokens) :=
  http_keeps (fun _ _ => rfl) (fun _ _ => rfl)

/-- Nor does a submission. -/
theorem submit_tokens (r : RequestPtr) : SubmitChores r (Keeps (A := A) Request.tokens) :=
  submit_keeps r (fun _ _ => rfl) (fun _ _ => rfl) (fun _ _ => rfl)

variable {maxActive b : Nat} {requests : RequestPtr → Request} {arrived : List RequestPtr}
  {r : RequestPtr} {s s' : Scheduler A} {P : Scheduler A → Prop}

/-- With no arrivals, the other threads leave all work alone. -/
theorem work_of_rely (hs : Ceased maxActive requests arrived s)
    (hrely : (drainContract maxActive).rely s s') (hs' : Ceased maxActive requests arrived s') :
    s'.pendingQueue = s.pendingQueue ∧ s'.activeRequests = s.activeRequests ∧
      ∀ q ∈ arrived, (s'.requests q).isTerminal = (s.requests q).isTerminal ∧
        (s'.requests q).turnsLeft = (s.requests q).turnsLeft := by
  obtain ⟨⟨-, harrivals⟩, htokens⟩ := hrely
  obtain ⟨new, hpending, hpushed, -⟩ := harrivals.arrived
  have hold : s.life.pushed = arrived := hs.pushed
  have hnone : new = [] := by
    have hlength := congrArg List.length hpushed
    rw [show s'.life.pushed = arrived from hs'.pushed, List.length_append, hold] at hlength
    exact List.eq_nil_of_length_eq_zero (by omega)
  subst hnone
  rw [List.append_nil] at hpending
  refine ⟨hpending, harrivals.active_eq, fun q hq => ?_⟩
  rw [← hold] at hq
  have hstate : (s'.requests q).state = (s.requests q).state := (harrivals.kept q hq).1
  have hterminal : (s'.requests q).isTerminal = (s.requests q).isTerminal := by
    rw [Request.isTerminal, Request.isTerminal, hstate]
  refine ⟨hterminal, ?_⟩
  obtain ⟨hmax, houtput⟩ := Prod.mk.inj (htokens q)
  rw [Request.turnsLeft, Request.turnsLeft, hterminal, hmax, houtput]

/-- Who waits or is active has arrived. -/
theorem Ceased.listed (hs : Ceased maxActive requests arrived s)
    (hr : r ∈ s.pendingQueue ∨ r ∈ s.activeRequests) : r ∈ arrived := by
  rw [← hs.pushed]
  rcases hr with hr | hr
  · exact hs.inv.pushed_of_pending hr
  · exact hs.inv.pushed_of_dequeued (hs.inv.active_dequeued r hr)

/-- The other threads are calm for a request that has arrived. -/
theorem calm_of_rely (hr : r ∈ arrived) (hs : Ceased maxActive requests arrived s)
    (hrely : (drainContract maxActive).rely s s') (hs' : Ceased maxActive requests arrived s') :
    Calm r s s' := by
  obtain ⟨hpending, hactive, hwork⟩ := work_of_rely hs hrely hs'
  refine ⟨hpending, hactive, fun q hq => hwork q ?_⟩
  rcases hq with hq | hq | rfl
  · exact hs.listed (Or.inl hq)
  · exact hs.listed (Or.inr hq)
  · exact hr

/-- So what survives calm steps lasts. -/
theorem lasts_of_calm (hr : r ∈ arrived) (hcalm : ∀ s s', P s → Calm r s s' → P s') :
    Lasts (drainContract maxActive) (Ceased maxActive requests arrived) P :=
  fun s s' hP hs hrely hs' => hcalm s s' hP (calm_of_rely hr hs hrely hs')

end Contracts

/-! ## One request -/

/-- The load is down to `b`. -/
def Low (b : Nat) (s : Scheduler A) : Prop := s.load ≤ b

/-- `r` is off the queue and not yet on the active list. -/
def Due (r : RequestPtr) (b : Nat) (s : Scheduler A) : Prop :=
  (s.requests r).isTerminal = false ∧ s.load + 5 * (s.requests r).turnsLeft ≤ b

/-- `r` is active, and its round has not shown in the load yet. -/
def Served (r : RequestPtr) (b : Nat) (s : Scheduler A) : Prop :=
  r ∈ s.activeRequests ∧ (s.requests r).isTerminal = false ∧ s.load ≤ b + 5

/-- `r` need only end for the load to be down to `b`. -/
def Ending (r : RequestPtr) (b : Nat) (s : Scheduler A) : Prop := Served r b s ∨ Low b s

section Steps

variable {b : Nat} {r : RequestPtr} {s s' : Scheduler A}

/-- A low load stays low on a calm step. -/
theorem Low.calm (h : Low b s) (hcalm : Calm r s s') : Low b s' := by
  rw [Low, hcalm.load]
  exact h

/-- It stays low on one that eases. -/
theorem Low.eases (h : Low b s) (heases : Eases s s') : Low b s' := Nat.le_trans heases.load h

/-- A request that is due stays due. -/
theorem Due.calm (h : Due r b s) (hcalm : Calm r s s') : Due r b s' := by
  obtain ⟨hterminal, hturns⟩ := hcalm.work r (Or.inr (Or.inr rfl))
  rw [Due, hterminal, hturns, hcalm.load]
  exact h

/-- One that is served stays served. -/
theorem Served.calm (h : Served r b s) (hcalm : Calm r s s') : Served r b s' := by
  obtain ⟨hterminal, -⟩ := hcalm.work r (Or.inr (Or.inr rfl))
  rw [Served, hterminal, hcalm.activeRequests, hcalm.load]
  exact h

/-- One that need only end still need only end. -/
theorem Ending.calm (h : Ending r b s) (hcalm : Calm r s s') : Ending r b s' :=
  h.imp (·.calm hcalm) (·.calm hcalm)

/-- A request that is due weighs something. -/
theorem Due.low (h : Due r b s) : Low b s := Nat.le_trans (Nat.le_add_right _ _) h.2

/-- A sum in which one summand goes down by `n`. -/
theorem sum_map_add_le {l : List RequestPtr} {f g : RequestPtr → Nat} {n : Nat}
    (hle : ∀ q, f q ≤ g q) (hr : r ∈ l) (hlow : f r + n ≤ g r) :
    (l.map f).sum + n ≤ (l.map g).sum := by
  induction l with
  | nil => cases hr
  | cons q rest ih =>
      rw [List.map_cons, List.map_cons, List.sum_cons, List.sum_cons]
      rcases List.mem_cons.mp hr with rfl | hr
      · have hrest : (rest.map f).sum ≤ (rest.map g).sum := List.sum_le_sum fun p _ => hle p
        omega
      · have hrest := ih hr
        have := hle q
        omega

/-- A rewrite that brings the request of this round nearer its end. -/
theorem Served.low {f : Request → Request} (h : Served r b s)
    (hturns : (f (s.requests r)).turnsLeft + 1 ≤ (s.requests r).turnsLeft) :
    Low b (s.modify r f) := by
  obtain ⟨hactive, -, hload⟩ := h
  have hle : ∀ q, ((s.modify r f).requests q).turnsLeft ≤ (s.requests q).turnsLeft := by
    intro q
    by_cases hq : q = r
    · subst hq
      rw [requests_modify_self]
      omega
    · rw [requests_modify_of_ne s f hq]
  have hpending : (s.pendingQueue.map fun q => 5 * ((s.modify r f).requests q).turnsLeft + 1).sum ≤
      (s.pendingQueue.map fun q => 5 * (s.requests q).turnsLeft + 1).sum := by
    refine List.sum_le_sum fun q _ => ?_
    have := hle q
    omega
  have hrounds : (s.activeRequests.map fun q => 5 * ((s.modify r f).requests q).turnsLeft).sum + 5 ≤
      (s.activeRequests.map fun q => 5 * (s.requests q).turnsLeft).sum := by
    refine sum_map_add_le (fun q => Nat.mul_le_mul_left 5 (hle q)) hactive ?_
    rw [requests_modify_self]
    omega
  have hsame : (s.modify r f).load =
      (s.pendingQueue.map fun q => 5 * ((s.modify r f).requests q).turnsLeft + 1).sum +
        (s.activeRequests.map fun q => 5 * ((s.modify r f).requests q).turnsLeft).sum := rfl
  rw [Scheduler.load] at hload
  rw [Low, hsame]
  omega

/-- The terminal state of a request takes the rest of its rounds off the load. -/
theorem Ending.low (h : Ending r b s) {st : RequestState} (hst : st.isTerminal = true) :
    Low b (s.modify r (fun q => { q with state := st })) := by
  have hzero : ∀ q : Request, ({ q with state := st } : Request).turnsLeft = 0 :=
    fun q => Request.turnsLeft_terminal hst
  rcases h with hserved | hlow
  · refine hserved.low ?_
    rw [hzero, Request.turnsLeft_going hserved.2.1]
    exact Nat.le_add_left _ _
  · refine hlow.eases (eases_modify fun q => ?_)
    rw [hzero]
    exact Nat.zero_le _

end Steps

section Functions

variable {maxActive b : Nat} {requests : RequestPtr → Request} {arrived : List RequestPtr}
  {r : RequestPtr}

/-- What a program does to assertions while nothing new is pushed. -/
abbrev Drains {α : Type} (maxActive : Nat) (requests : RequestPtr → Request)
    (arrived : List RequestPtr) (P : Scheduler A → Prop) (p : Sched A α)
    (Q : α → Scheduler A → Prop) : Prop :=
  Triple ((drainContract maxActive).observing (Ceased maxActive requests arrived))
    (fun s => P s ∧ Ceased maxActive requests arrived s) p
    (fun a s => Q a s ∧ Ceased maxActive requests arrived s)

/-- A calm program keeps such an assertion. -/
theorem Drains.calm {α : Type} {p : Sched A α} {P : Scheduler A → Prop} (hr : r ∈ arrived)
    (hcalm : ∀ s s', P s → Calm r s s' → P s') (hp : p.Always (Calm r)) :
    Drains maxActive requests arrived P p (fun _ => P) :=
  (lasts_of_calm hr hcalm).always hp fun s s' hs _ hact _ => hcalm s s' hs hact

/-- One that eases keeps the load low. -/
theorem Drains.eases {p : Sched A Unit} (hr : r ∈ arrived) (hp : p.Always Eases) :
    Drains maxActive requests arrived (Low b) p (fun _ => Low b) :=
  (lasts_of_calm hr fun _ _ hs hcalm => Low.calm hs hcalm).always hp
    fun _ _ hs _ hact _ => hs.eases hact

/-- A state that is not terminal keeps the work on a request. -/
theorem setState_drains (hr : r ∈ arrived) {st : RequestState} (hst : st.isTerminal = false) :
    Drains maxActive requests arrived (Due r b) (setState r st : Sched A Unit)
      (fun _ => Due r b) := by
  refine (lasts_of_calm hr fun _ _ hs hcalm => Due.calm hs hcalm).update fun s hs _ _ => ?_
  refine hs.calm (calm_modify ⟨rfl, rfl⟩ ?_)
  rw [hs.1]
  exact hst

/-- The new token takes a round off the load, and the rest of the step leaves
the load alone. -/
theorem appendToken_drains (d : SchedulerSetup) (hr : r ∈ arrived) (token : Int) :
    Drains maxActive requests arrived (Served r b) (appendToken d r token : Sched A Bool)
      (fun _ => Low b) := by
  have hlow : ∀ {α : Type} {p : Sched A α}, p.Always (Calm r) →
      Drains maxActive requests arrived (Low b) p (fun _ => Low b) :=
    fun hp => Drains.calm hr (fun _ _ hs hcalm => Low.calm hs hcalm) hp
  refine Triple.bind ((lasts_of_calm hr fun _ _ hs hcalm => Served.calm hs hcalm).update
    (R := Low b) fun s hs _ hnext => ?_) fun _ => ?_
  · refine hs.low ?_
    have hlimit := hnext.limit r
    rw [requests_modify_self] at hlimit
    exact Request.turnsLeft_append rfl rfl (by simp) hlimit hs.2.1
  refine hlow ?_
  refine Always.bind (Always.update fun s => calm_modify ⟨rfl, rfl⟩ rfl) fun _ => ?_
  refine Always.bind (Always.update fun s => calm_modify ⟨rfl, rfl⟩ rfl) fun _ => ?_
  refine Always.atomic fun _ s => ?_
  dsimp only
  split
  · dsimp only
    exact calm_modify ⟨rfl, rfl⟩ rfl
  · exact Calm.refl r s

/-- Asking for logits is calm. -/
theorem nextLogits_calm (r : RequestPtr) :
    (nextLogits r : Sched A (Result Logits)).Always (Calm r) := by
  refine Always.bind (Always.read (Calm.refl r)) fun first => ?_
  cases first with
  | true =>
      refine Always.atomic fun _ s => ?_
      dsimp only
      split
      · exact Calm.refl r s
      · dsimp only
        exact calm_modify ⟨rfl, rfl⟩ rfl
  | false => exact Always.atomic fun _ s => calm_log s _

/-- A step that goes on has taken a round off the load. -/
theorem runDecodeStep_drains (d : SchedulerSetup) (hr : r ∈ arrived) :
    Drains maxActive requests arrived (Served r b) (runDecodeStep d r : Sched A (Result Bool))
      (fun result s => Ending r b s ∧ (result = .ok true → Low b s)) := by
  have hserved : ∀ {α : Type} {p : Sched A α}, p.Always (Calm r) →
      Drains maxActive requests arrived (Served r b) p (fun _ => Served r b) :=
    fun hp => Drains.calm hr (fun _ _ hs hcalm => Served.calm hs hcalm) hp
  have hfailed : ∀ {result : Result Bool}, result ≠ .ok true →
      Drains maxActive requests arrived (Served r b)
        (Program.ret result : Sched A (Result Bool))
        (fun result s => Ending r b s ∧ (result = .ok true → Low b s)) :=
    fun hne => Triple.ret fun s hs => ⟨⟨Or.inl hs.1, fun heq => absurd heq hne⟩, hs.2⟩
  refine Triple.bind (hserved (Always.read (Calm.refl r))) fun cancelled => ?_
  cases cancelled with
  | true => exact hfailed (by simp)
  | false =>
      refine Triple.bind (hserved (nextLogits_calm r)) fun logits => ?_
      cases logits with
      | error e => exact hfailed (by simp)
      | ok _ =>
          refine Triple.bind (hserved (Always.atomic fun _ => Calm.refl r)) fun sampled => ?_
          cases sampled with
          | error e => exact hfailed (by simp)
          | ok token =>
              refine Triple.bind (appendToken_drains d hr token) fun goesOn => ?_
              exact Triple.ret fun s hs => ⟨⟨Or.inr hs.1, fun _ => hs.1⟩, hs.2⟩

variable [IKVCacheAllocator A]

/-- A request that is completed or failed leaves the load. -/
theorem end_drains (hr : r ∈ arrived) {st : RequestState} (hst : st.isTerminal = true)
    {event : TokenEvent} {f : Request → Request} {count : Scheduler A → Scheduler A}
    (hf : ∀ s : Scheduler A, Calm r s (s.modify r f)) (hcount : ∀ s : Scheduler A, Eases s (count s)) :
    Drains maxActive requests arrived (Ending r b)
      (do Program.update (fun s => s.modify r f)
          setState r st
          retire r event
          Program.update count : Sched A Unit) (fun _ => Low b) := by
  have hlasts : Lasts (drainContract maxActive) (Ceased maxActive requests arrived)
      (Ending (A := A) r b) := lasts_of_calm hr fun _ _ hs hcalm => Ending.calm hs hcalm
  refine Triple.bind (Drains.calm hr (fun _ _ hs hcalm => hs.calm hcalm) (Always.update hf))
    fun _ => ?_
  refine Triple.bind (hlasts.update fun s hs _ _ => hs.low hst) fun _ => ?_
  refine Triple.bind (Drains.eases hr (retire_eases r event)) fun _ => ?_
  exact Drains.eases hr (Always.update hcount)

/-- A completion brings the load down. -/
theorem completeRequest_drains (hr : r ∈ arrived) (reason : FinishReason) :
    Drains maxActive requests arrived (Ending r b) (completeRequest r reason : Sched A Unit)
      (fun _ => Low b) :=
  end_drains hr rfl (fun _ => calm_modify ⟨rfl, rfl⟩ rfl)
    fun s => (leave_eases r).countCompleted s _

/-- So does a failure. -/
theorem failRequest_drains (hr : r ∈ arrived) (error : Error) :
    Drains maxActive requests arrived (Ending r b) (failRequest r error : Sched A Unit)
      (fun _ => Low b) :=
  end_drains hr rfl (fun _ => calm_modify ⟨rfl, rfl⟩ rfl)
    fun s => (leave_eases r).countErrored s _

/-! ### Starting a request -/

/-- A prefill leaves the request due. -/
theorem runPrefill_drains (hr : r ∈ arrived) :
    Drains maxActive requests arrived (Due r b) (runPrefill r : Sched A (Result Unit))
      (fun _ => Due r b) := by
  have hcalm : ∀ s s', Due (A := A) r b s → Calm r s s' → Due r b s' :=
    fun _ _ hs hcalm => hs.calm hcalm
  have hgauge : ∀ f : Int → Int, (Program.update (fun s =>
      { s with requestsActive := f s.requestsActive }) : Sched A Unit).Always (Calm r) :=
    fun _ => Always.update fun _ => .of_requests rfl rfl rfl
  refine Triple.bind (setState_drains hr rfl) fun _ => ?_
  refine Drains.calm hr hcalm ?_
  refine Always.bind (hgauge (· + 1)) fun _ => ?_
  refine Always.bind (place_calm r).place fun placed => ?_
  cases placed with
  | error e => exact Always.bind (hgauge (· - 1)) (fun _ => Always.ret _)
  | ok _ =>
      refine Always.bind (callPrefill_calm r) fun prefilled => ?_
      cases prefilled with
      | error e =>
          refine Always.bind (release_calm r r).freeResources fun _ => ?_
          exact Always.bind (hgauge (· - 1)) (fun _ => Always.ret _)
      | ok logits =>
          exact Always.bind (Always.update fun s => calm_modify ⟨rfl, rfl⟩ rfl)
            (fun _ => Always.ret _)

/-- Taking up a request brings the load down. -/
theorem startRequest_drains (d : SchedulerSetup) (hr : r ∈ arrived) :
    Drains maxActive requests arrived (Due r b) (startRequest d r : Sched A Unit)
      (fun _ => Low b) := by
  have hcalm : ∀ s s', Due (A := A) r b s → Calm r s s' → Due r b s' :=
    fun _ _ hs hcalm => hs.calm hcalm
  have hclock : ∀ {α : Type} (f : Answer → Scheduler A → α),
      (Program.atomic (fun i s => (f i s, s)) : Sched A α).Always (Calm r) :=
    fun _ => Always.atomic fun _ => Calm.refl r
  have hfail : ∀ e, Drains maxActive requests arrived (Due r b) (failRequest r e : Sched A Unit)
      (fun _ => Low b) :=
    fun e => (failRequest_drains hr e).pre fun s hs => ⟨Or.inr hs.1.low, hs.2⟩
  refine Triple.bind (Drains.calm hr hcalm (hclock _)) fun queueTimedOut => ?_
  cases queueTimedOut with
  | true => exact hfail _
  | false =>
      refine Triple.bind (Drains.calm hr hcalm (hclock _)) fun requestTimedOut => ?_
      cases requestTimedOut with
      | true => exact hfail _
      | false =>
          refine Triple.bind (runPrefill_drains hr) fun result => ?_
          cases result with
          | error e => exact hfail e
          | ok _ =>
              refine Triple.bind (setState_drains hr rfl) fun _ => ?_
              refine Triple.bind (Drains.calm hr hcalm (Always.atomic fun i s => ?_)) fun _ => ?_
              · dsimp only
                split
                · exact calm_modify ⟨rfl, rfl⟩ rfl
                · exact Calm.refl r s
              · refine (lasts_of_calm hr hcalm).update fun s hs _ _ => ?_
                have hload : ({ s with activeRequests := s.activeRequests ++ [r] }).load =
                    s.load + 5 * (s.requests r).turnsLeft := by
                  simp [load, Nat.add_assoc]
                rw [Low, hload]
                exact hs.2

/-! ### A round for a request -/

/-- So does a turn of it. -/
theorem decodeRequest_drains (d : SchedulerSetup) (hr : r ∈ arrived) :
    Drains maxActive requests arrived (Served r b) (decodeRequest d r : Sched A Unit)
      (fun _ => Low b) := by
  have hcomplete : ∀ reason, Drains maxActive requests arrived (Served r b)
      (completeRequest r reason : Sched A Unit) (fun _ => Low b) :=
    fun reason => (completeRequest_drains hr reason).pre fun _ hs => ⟨Or.inl hs.1, hs.2⟩
  have hfail : ∀ e, Drains maxActive requests arrived (Served r b)
      (failRequest r e : Sched A Unit) (fun _ => Low b) :=
    fun e => (failRequest_drains hr e).pre fun _ hs => ⟨Or.inl hs.1, hs.2⟩
  have hclock : ∀ {α : Type} (f : Answer → Scheduler A → α),
      Drains maxActive requests arrived (Served r b)
        (Program.atomic (fun i s => (f i s, s)) : Sched A α) (fun _ => Served r b) :=
    fun _ => Drains.calm hr (fun _ _ hs hcalm => hs.calm hcalm)
      (Always.atomic fun _ => Calm.refl r)
  refine Triple.bind (hclock _) fun cancelled => ?_
  cases cancelled with
  | true => exact hcomplete .stop
  | false =>
      refine Triple.bind (hclock _) fun requestTimedOut => ?_
      cases requestTimedOut with
      | true => exact hfail _
      | false =>
          refine Triple.bind (hclock _) fun decodeTimedOut => ?_
          cases decodeTimedOut with
          | true => exact hfail _
          | false =>
              refine Triple.bind (runDecodeStep_drains d hr) fun result => ?_
              cases result with
              | error e => exact (failRequest_drains hr e).pre fun _ hs => ⟨hs.1.1, hs.2⟩
              | ok goesOn =>
                  cases goesOn with
                  | true => exact Triple.ret fun _ hs => ⟨hs.1.2 rfl, hs.2⟩
                  | false =>
                      have hread : Drains maxActive requests arrived (Ending r b)
                          (Program.read fun s : Scheduler A => (s.requests r).finishReason)
                          (fun _ => Ending r b) :=
                        Drains.calm hr (fun _ _ hs hcalm => hs.calm hcalm)
                          (Always.read (Calm.refl r))
                      refine Triple.bind (hread.pre fun _ hs => ⟨hs.1.1, hs.2⟩) fun reason => ?_
                      exact completeRequest_drains hr reason

end Functions

end Scheduler

end Qwen
