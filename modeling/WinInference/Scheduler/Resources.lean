import WinInference.Scheduler.Tally

/-!
# The decode thread keeps its tally

Every function of the decode thread, from a balanced tally to a balanced tally:
between two requests the requests that hold a cache, those that are charged to
the router and those in `active_requests_` are the same, and nothing is
reserved.  `Solo.run` then gives it for every interleaving.

`Balanced` is the tally between two requests.  The lemmas `f_tally` are the
triples of the functions `f`; `place_tally` takes up the charge and the cache,
`freeResources_tally` gives them back, and `tally_run` is the balanced tally of
every run.
-/

namespace Qwen

open Concurrency Concurrency.Program

namespace Scheduler

variable {A : Type}

/-- An assertion that only depends on what the tally sees. -/
def Booked (P : Scheduler A → Prop) : Prop := ∀ s s', P s → Unmoved s s' → P s'

/-- What depends on the tally alone is steady. -/
theorem Booked.steady {P : Scheduler A → Prop} (h : Booked P) : Steady P :=
  fun s s' hs hi => h s s' hs (Unmoved.of_interference hi)

/-- Two such assertions hold together as one. -/
theorem Booked.and {P Q : Scheduler A → Prop} (hP : Booked P) (hQ : Booked Q) :
    Booked (fun s => P s ∧ Q s) :=
  fun s s' h hu => ⟨hP s s' h.1 hu, hQ s s' h.2 hu⟩

/-- What each proof about resources supposes: the allocator keeps track of its
live handles, the lifecycle invariant is known, and where the charges are known
to fit they do. -/
structure TallyProof [IKVCacheAllocator A] (maxActive : Nat) (T : TallySetup A)
    (K : Scheduler A → Prop) : Prop where
  laws : OwnershipLaws T.Good T.Sized
  life : ∀ s, K s → Life.Inv maxActive s.life
  fits : ∀ s, K s → T.fits → s.ChargesFit
  /-- a request whose prefill the runtime fails has a handle that `free`
  invalidates -/
  clears : ∀ s, K s → ∀ r h, .prefillFailed r h ∈ s.trace →
    ∀ a : A, (IKVCacheAllocator.free a h).1.isValid = false

section Quiet

/-- A gauge, a counter, the registry: not seen by the tally. -/
theorem unmoved_of_eq {s s' : Scheduler A} (hallocator : s'.kvAllocator = s.kvAllocator)
    (hrouter : s'.gpuRouter = s.gpuRouter) (hactive : s'.activeRequests = s.activeRequests)
    (hrequests : s'.requests = s.requests) (htrace : s'.trace = s.trace) : Unmoved s s' :=
  ⟨hallocator, hrouter, hactive, fun r => by rw [hrequests], fun r => by rw [hrequests],
    fun r => by rw [hrequests], by rw [accounts, htrace, accounts]⟩

/-- The gauge is no matter of the tally. -/
theorem gauge_unmoved (f : Int → Int) :
    (Program.update (fun s => { s with requestsActive := f s.requestsActive }) :
      Sched A Unit).Always Unmoved :=
  Always.update fun _ => unmoved_of_eq rfl rfl rfl rfl rfl

/-- Nor is a state. -/
theorem setState_unmoved (r : RequestPtr) (st : RequestState) :
    (setState r st : Sched A Unit).Always Unmoved :=
  Always.update fun s => Unmoved.modify s r (fun _ => rfl) (fun _ => rfl) (fun _ => rfl)

/-- Nor is an event on a token queue. -/
theorem pushEvent_unmoved (s : Scheduler A) (r : RequestPtr) (event : TokenEvent) :
    Unmoved s (s.pushEvent r event) := Unmoved.modify s r (fun _ => rfl) (fun _ => rfl) (fun _ => rfl)

/-- Nor is its close. -/
theorem closeQueue_unmoved (s : Scheduler A) (r : RequestPtr) :
    Unmoved s (s.closeQueue r) := Unmoved.modify s r (fun _ => rfl) (fun _ => rfl) (fun _ => rfl)

/-- A decode step moves nothing in the tally. -/
theorem step_unmoved (r : RequestPtr) : StepChores r (Unmoved (A := A)) where
  idle := Unmoved.refl
  edit s _ hf := Unmoved.modify s r (fun q => congrArg (·.2.2.2.1) (hf q))
    (fun q => congrArg (·.2.2.2.2) (hf q)) fun q => by
      have hshared : Request.shared _ = q.shared := congrArg Prod.fst (hf q)
      have hprompt : Request.inputTokens _ = q.inputTokens := congrArg (·.2.1) hshared
      have hmax : Request.maxTokens _ = q.maxTokens := congrArg (·.2.2.1) hshared
      rw [Request.contextLength, hprompt, hmax, Request.contextLength]
  token s _ _ := pushEvent_unmoved s r _
  decodeCalled s _ _ := Unmoved.log s rfl

end Quiet

section Proof

variable {maxActive : Nat} {T : TallySetup A} {K : Scheduler A → Prop} {r : RequestPtr}
  {live charged reserved act : List RequestPtr} {P : Scheduler A → Prop}

/-- The contract of the decode thread in these proofs. -/
abbrev tallyContract (K : Scheduler A → Prop) : Contract (Scheduler A) :=
  soloContract K (fun _ => True)

/-- A program that moves nothing keeps the assertion. -/
theorem Booked.quiet {α : Type} (h : Booked P) {p : Sched A α} (hp : p.Always Unmoved) :
    Triple (tallyContract K) P p (fun _ => P) :=
  hp.triple h.steady.stable (fun _ _ _ _ => trivial) (fun s s' hs hu => h s s' hs hu)

/-- One action that moves the books. -/
theorem Steady.update (h : Steady P) {Q : Scheduler A → Prop}
    {f : Scheduler A → Scheduler A} (hf : ∀ s, P s → K s → Q (f s)) :
    Triple (tallyContract K) P (Program.update f : Sched A Unit) (fun _ => Q) :=
  Triple.update h.stable fun s hs hK _ => ⟨trivial, hf s hs hK⟩

/-- The request holds a cache only if it is among the live ones. -/
def Backed (live : List RequestPtr) (r : RequestPtr) (s : Scheduler A) : Prop :=
  (s.requests r).kvCache.isValid → r ∈ live

/-- The request has no valid handle. -/
def Released (r : RequestPtr) (s : Scheduler A) : Prop :=
  (s.requests r).kvCache.isValid = false

/-- Taken out of the queue, nothing committed. -/
def Drawn (r : RequestPtr) (s : Scheduler A) : Prop :=
  r ∈ s.dequeued ∧ s.committedCount r = 0

/-- Handles stay as valid as they were. -/
theorem Unmoved.isValid {s s' : Scheduler A} (hu : Unmoved s s') (r : RequestPtr) :
    (s'.requests r).kvCache.isValid = (s.requests r).kvCache.isValid := by
  rw [← KVCacheHandle.grant_isValid, hu.grant r, KVCacheHandle.grant_isValid]

/-- Whether a cache is among the live ones is a matter of the tally. -/
theorem booked_backed : Booked (Backed (A := A) live r) :=
  fun _ _ hs hu hvalid => hs (by rwa [hu.isValid r] at hvalid)

/-- So is whether a handle was released. -/
theorem booked_released : Booked (Released (A := A) r) :=
  fun _ _ hs hu => (hu.isValid r).trans hs

/-- So is whether a request was just taken out of the queue. -/
theorem booked_drawn : Booked (Drawn (A := A) r) :=
  fun _ _ hs hu => ⟨(mem_dequeued_congr hu.accounts r).mpr hs.1,
    (committedCount_congr hu.accounts r).trans hs.2⟩

theorem steady_fact (F : Prop) : Steady (fun _ : Scheduler A => F) := fun _ _ h _ => h

variable [IKVCacheAllocator A]

/-- The tally, with the active list. -/
def Books (T : TallySetup A) (live charged reserved act : List RequestPtr)
    (s : Scheduler A) : Prop :=
  Tally T live charged reserved s ∧ s.activeRequests = act

/-- `free` will invalidate the handle of the request. -/
def Clearable (r : RequestPtr) (s : Scheduler A) : Prop :=
  ∀ a : A, (IKVCacheAllocator.free a (s.requests r).kvCache).1.isValid = false

/-- So are the books themselves. -/
theorem booked_books : Booked (Books (A := A) T live charged reserved act) :=
  fun _ _ hs hu => ⟨hs.1.unmoved hu, hu.activeRequests.trans hs.2⟩

/-- That `free` invalidates a handle is steady. -/
theorem steady_clearable : Steady (Clearable (A := A) r) :=
  fun _ _ hs hi a => by rw [hi.kvCache r]; exact hs a

/-! ### Release -/

/-- Releasing a cache changes no field of a request but the handle. -/
theorem freeKvCache_field {α : Type} (s : Scheduler A) (r q : RequestPtr)
    (field : Request → α)
    (h : ∀ q handle, field { q with kvCache := handle } = field q) :
    field ((s.freeKvCache r).requests q) = field (s.requests q) := by
  rw [freeKvCache]
  exact requests_modify_field { s with kvAllocator := _ } r q field (fun q => h q _)

/-- `free_resources` takes a live request out of the tally and leaves any other
one alone.  `clear` says that its handle is known to be invalidated. -/
theorem freeResources_tally (hT : TallyProof maxActive T K) (clear : Prop) :
    Triple (tallyContract K)
      (fun s => Books T live live [] act s ∧ Backed live r s ∧ (clear → Clearable r s))
      (freeResources r)
      (fun _ s => Books T (live.erase r) (live.erase r) [] act s ∧
        (clear → Released r s)) := by
  have hsteady : Steady (fun s : Scheduler A =>
      Books T live live [] act s ∧ Backed live r s ∧ (clear → Clearable r s)) :=
    booked_books.steady.and (booked_backed.steady.and
      (fun s s' hs hi hclear => steady_clearable s s' (hs hclear) hi))
  unfold freeResources
  refine Triple.bind (Q := fun valid s => match valid with
    | true => Books T live (live.erase r) [] act s ∧ r ∈ live ∧ (clear → Clearable r s)
    | false => Books T live live [] act s ∧ r ∉ live ∧ Released r s)
    (Triple.atomic hsteady.stable fun _ s hs hK _ => ?_) fun valid => ?_
  · obtain ⟨⟨htally, hact⟩, hbacked, hclear⟩ := hs
    refine ⟨trivial, ?_⟩
    cases hvalid : (s.requests r).kvCache.isValid with
    | true =>
        have hr := hbacked hvalid
        have hfree : (s.freeBudget r).kvAllocator = s.kvAllocator ∧
            (s.freeBudget r).requests = s.requests ∧
            (s.freeBudget r).activeRequests = s.activeRequests ∧
            (s.freeBudget r).dequeued = s.dequeued := by
          obtain ⟨heq, -⟩ | ⟨g, -, -, heq⟩ := freeBudget_cases s r
          · rw [heq]
            exact ⟨rfl, rfl, rfl, rfl⟩
          · rw [heq]
            exact ⟨rfl, rfl, rfl, by simp [dequeued, log]⟩
        obtain ⟨hallocator, hrequests, hactive, hdequeued⟩ := hfree
        refine ⟨⟨⟨?_, htally.budgets.free hr, htally.accounts.free htally.budgets hr
          (hT.fits s hK)⟩, hactive.trans hact⟩, hr, fun hc => ?_⟩
        · exact htally.caches.frame_of_eq hallocator hrequests hdequeued
        · intro a
          dsimp only
          rw [if_pos rfl, hrequests]
          exact hclear hc a
    | false =>
        refine ⟨⟨htally, hact⟩, fun hr => ?_, hvalid⟩
        have hsome := htally.caches.valid r hr
        rw [hvalid] at hsome
        cases hsome
  · cases valid with
    | true =>
        refine (Steady.update ?_ fun s hs _ => ?_)
        · exact booked_books.steady.and ((steady_fact _).and
            (fun s s' hs hi hclear => steady_clearable s s' (hs hclear) hi))
        · obtain ⟨⟨htally, hact⟩, hr, hclear⟩ := hs
          refine ⟨⟨⟨htally.caches.free hT.laws hr, ?_, ?_⟩, hact⟩, fun hc => ?_⟩
          · exact htally.budgets.frame rfl
              (fun q => freeKvCache_field s r q (·.assignedDevices) fun _ _ => rfl)
              (fun q => freeKvCache_field s r q (·.contextLength) fun _ _ => rfl)
          · exact htally.accounts.frame rfl
          · rw [Released, freeKvCache]
            simpa using hclear hc s.kvAllocator
    | false =>
        refine Triple.ret fun s hs => ?_
        obtain ⟨hbooks, hr, hreleased⟩ := hs
        rw [List.erase_of_not_mem hr]
        exact ⟨hbooks, fun _ => hreleased⟩

/-- Striking a request off the active list does not touch the tally. -/
theorem Tally.eraseActive {s : Scheduler A} (h : Tally T live charged reserved s) :
    Tally T live charged reserved (s.eraseActive r) :=
  ⟨h.caches.frame_of_eq rfl rfl rfl, h.budgets.frame rfl (fun _ => rfl) (fun _ => rfl),
    h.accounts.frame rfl⟩

/-- Retiring a request takes its cache and its charge off the books. -/
theorem retire_tally (hT : TallyProof maxActive T K) (event : TokenEvent) :
    Triple (tallyContract K)
      (fun s => Books T live live [] act s ∧ Backed live r s) (retire r event)
      (fun _ s => Books T (live.erase r) (live.erase r) [] (act.filter (· ≠ r)) s) := by
  unfold retire
  refine Triple.bind ((booked_books.and booked_backed).quiet
    (Always.update (pushEvent_unmoved · r event))) fun _ => ?_
  refine Triple.bind ((booked_books.and booked_backed).quiet
    (Always.update (closeQueue_unmoved · r))) fun _ => ?_
  refine Triple.bind ((freeResources_tally hT False).conseq
    (fun _ hs => ⟨hs.1, hs.2, False.elim⟩) (fun _ _ hs => hs.1)) fun _ => ?_
  refine Triple.bind (Steady.update
    (Q := Books T (live.erase r) (live.erase r) [] (act.filter (· ≠ r)))
    booked_books.steady fun s hs _ => ?_) fun _ => ?_
  · obtain ⟨htally, rfl⟩ := hs
    exact ⟨htally.eraseActive, rfl⟩
  refine Triple.bind (booked_books.quiet (Always.update fun s =>
    unmoved_of_eq rfl rfl rfl rfl rfl)) fun _ => ?_
  exact booked_books.quiet (gauge_unmoved (· - 1))

/-- Completing a request releases what it holds. -/
theorem completeRequest_tally (hT : TallyProof maxActive T K) (reason : FinishReason) :
    Triple (tallyContract K)
      (fun s => Books T live live [] act s ∧ Backed live r s) (completeRequest r reason)
      (fun _ s => Books T (live.erase r) (live.erase r) [] (act.filter (· ≠ r)) s) := by
  unfold completeRequest
  refine Triple.bind ((booked_books.and booked_backed).quiet
    (Always.update fun s => Unmoved.modify s r (fun _ => rfl) (fun _ => rfl) (fun _ => rfl))) fun _ => ?_
  refine Triple.bind ((booked_books.and booked_backed).quiet
    (setState_unmoved r _)) fun _ => ?_
  refine Triple.bind (retire_tally hT _) fun _ => ?_
  exact booked_books.quiet (Always.update fun s => unmoved_of_eq rfl rfl rfl rfl rfl)

/-- Failing a request releases what it holds. -/
theorem failRequest_tally (hT : TallyProof maxActive T K) (error : Error) :
    Triple (tallyContract K)
      (fun s => Books T live live [] act s ∧ Backed live r s) (failRequest r error)
      (fun _ s => Books T (live.erase r) (live.erase r) [] (act.filter (· ≠ r)) s) := by
  unfold failRequest
  refine Triple.bind ((booked_books.and booked_backed).quiet
    (Always.update fun s => Unmoved.modify s r (fun _ => rfl) (fun _ => rfl) (fun _ => rfl))) fun _ => ?_
  refine Triple.bind ((booked_books.and booked_backed).quiet
    (setState_unmoved r _)) fun _ => ?_
  refine Triple.bind (retire_tally hT _) fun _ => ?_
  exact booked_books.quiet (Always.update fun s => unmoved_of_eq rfl rfl rfl rfl rfl)

/-! ### Placement -/

/-- Where a failed placement leaves the tally. -/
def Unplaced (T : TallySetup A) (live act : List RequestPtr) (r : RequestPtr)
    (s : Scheduler A) : Prop :=
  Books T live live [] act s ∧ Released r s

/-- A new request before its placement. -/
def Unserved (T : TallySetup A) (live act : List RequestPtr) (r : RequestPtr)
    (s : Scheduler A) : Prop :=
  Unplaced T live act r s ∧ Drawn r s

/-- What a failed placement leaves is a matter of the tally. -/
theorem booked_unplaced : Booked (Unplaced (A := A) T live act r) :=
  booked_books.and booked_released

/-- So is a request before its placement. -/
theorem booked_unserved : Booked (Unserved (A := A) T live act r) :=
  booked_unplaced.and booked_drawn

/-- During a placement: `live'` already holds the cache, `reserved` what is
reserved. -/
structure Placing (T : TallySetup A) (live live' reserved act : List RequestPtr)
    (r : RequestPtr) (decision : RoutingDecision) (s : Scheduler A) : Prop where
  books : Books T live' live reserved act s
  drawn : Drawn r s
  decided : Decided T r decision s

/-- So is one in the middle of it. -/
theorem booked_placing {live' : List RequestPtr} {decision : RoutingDecision} :
    Booked (Placing (A := A) T live live' reserved act r decision) :=
  fun _ _ hs hu => ⟨booked_books _ _ hs.books hu, booked_drawn _ _ hs.drawn hu,
    hs.decided.frame (hu.assignedDevices r)⟩

/-- Routing sets the devices of the request, and nothing else the tally sees. -/
theorem routeRequest_tally {s : Scheduler A} (hs : Unserved T live act r s)
    (hr : r ∉ live) :
    ∃ decision, (s.routeRequest r).1 = some decision ∧
      Placing T live live [] act r decision (s.routeRequest r).2 ∧
      Released r (s.routeRequest r).2 := by
  obtain ⟨⟨⟨htally, hact⟩, hreleased⟩, hdrawn⟩ := hs
  obtain ⟨g, hrouter, -⟩ := htally.budgets.router
  obtain ⟨hdecided, hbudgets⟩ := htally.budgets.route hr hrouter
  refine ⟨_, by rw [routeRequest_some hrouter r], ?_⟩
  rw [routeRequest_some hrouter r] at hdecided hbudgets ⊢
  dsimp only at hdecided hbudgets ⊢
  generalize hs' : (({ s with
    gpuRouter := some (g.route (s.requests r).contextLength).2 } : Scheduler A).modify r
      (fun q => { q with assignedDevices :=
        (g.route (s.requests r).contextLength).1.deviceIds })).log
      (.routed r (s.requests r).contextLength g) = s' at hdecided hbudgets ⊢
  have hcache : ∀ q, (s'.requests q).kvCache = (s.requests q).kvCache := by
    intro q
    rw [← hs', requests_log]
    refine requests_modify_field { s with gpuRouter := _ } r q (·.kvCache) ?_
    exact fun _ => rfl
  have hlength : ∀ q, (s'.requests q).contextLength = (s.requests q).contextLength := by
    intro q
    rw [← hs', requests_log]
    refine requests_modify_field { s with gpuRouter := _ } r q (·.contextLength) ?_
    exact fun _ => rfl
  have haccounts : s'.accounts = s.accounts := by
    rw [← hs']
    simp [accounts, log, modify, Event.accounted]
  have hallocator : s'.kvAllocator = s.kvAllocator := by rw [← hs']; rfl
  have hactive : s'.activeRequests = s.activeRequests := by rw [← hs']; rfl
  refine ⟨⟨⟨⟨htally.caches.frame hallocator (fun q => by rw [hcache q]) hlength haccounts,
    hbudgets, htally.accounts.frame haccounts⟩, hactive.trans hact⟩,
    ⟨(mem_dequeued_congr haccounts r).mpr hdrawn.1,
      (committedCount_congr haccounts r).trans hdrawn.2⟩, hdecided⟩, ?_⟩
  rw [Released, hcache r]
  exact hreleased

/-- `reserve`, `unreserve` and `commit` only touch the router. -/
theorem Caches.reroute {s : Scheduler A} (h : Caches T live s) (g : Option GPURouter) :
    Caches T live { s with gpuRouter := g } :=
  h.frame_of_eq rfl rfl rfl

/-- A placement books a cache and a charge, or nothing. -/
theorem place_tally (hT : TallyProof maxActive T K) (hr : r ∉ live) :
    Triple (tallyContract K) (Unserved T live act r) (place r)
      (fun result s => match result with
        | .error _ => Unplaced T live act r s
        | .ok _ => Books T (r :: live) (r :: live) [] act s) := by
  unfold place
  refine Triple.bind (Q := fun decision s => ∃ x, decision = some x ∧
      Placing T live live [] act r x s ∧ Released r s)
    (Triple.atomic booked_unserved.steady.stable fun _ s hs _ _ =>
      ⟨trivial, routeRequest_tally hs hr⟩) fun decision => ?_
  refine Triple.exists_pre fun x => Triple.of_fact fun hx => ?_
  subst hx
  refine Triple.bind (Steady.update
    (Q := fun s => Placing T live live [r] act r x s ∧ Released r s)
    (booked_placing.and booked_released).steady fun s hs _ => ?_) fun _ => ?_
  · obtain ⟨⟨⟨htally, hact⟩, hdrawn, hdecided⟩, hreleased⟩ := hs
    have hbudgets := htally.budgets.reserve hdecided
    obtain ⟨g, hrouter, -⟩ := htally.budgets.router
    rw [reserveBudget_some hrouter] at hbudgets ⊢
    have hlog := Unmoved.log { s with gpuRouter := some (g.reserve x (s.estimatedBytes r)) }
      (e := .reserved r x (s.estimatedBytes r) g) rfl
    exact ⟨⟨⟨⟨htally.caches.frame_of_eq rfl rfl (by simp [dequeued, log]), hbudgets,
      htally.accounts.frame hlog.accounts⟩, hact⟩,
      ⟨(mem_dequeued_congr hlog.accounts r).mpr hdrawn.1,
        (committedCount_congr hlog.accounts r).trans hdrawn.2⟩,
      hdecided.frame rfl⟩, hreleased⟩
  refine Triple.bind (Q := fun result s => match result with
      | .error _ => Placing T live live [r] act r x s ∧ Released r s
      | .ok _ => Placing T live (r :: live) [r] act r x s)
    (Triple.atomic (booked_placing.and booked_released).steady.stable fun i s hs _ _ =>
      ⟨trivial, ?_⟩) fun result => ?_
  · obtain ⟨⟨⟨htally, hact⟩, hdrawn, hdecided⟩, hreleased⟩ := hs
    obtain ⟨e, a, hcall, heq⟩ | ⟨handle, a, hcall, heq⟩ := allocateFor_cases s i r (some x)
    · rw [heq]
      exact ⟨⟨⟨⟨htally.caches.allocate_error hT.laws hcall,
        htally.budgets.frame rfl (fun _ => rfl) (fun _ => rfl), htally.accounts.frame rfl⟩,
        hact⟩, hdrawn, hdecided.frame rfl⟩, hreleased⟩
    · rw [heq]
      have hcaches := htally.caches.allocate_ok hT.laws hcall hr hdrawn.1
      dsimp only
      generalize hs' : ({ s with kvAllocator := a } : Scheduler A).modify r
        (fun q => { q with kvCache := handle }) = s' at hcaches ⊢
      have hdevices : ∀ q, (s'.requests q).assignedDevices =
          (s.requests q).assignedDevices := by
        intro q
        rw [← hs']
        refine requests_modify_field { s with kvAllocator := a } r q (·.assignedDevices) ?_
        exact fun _ => rfl
      have hlength : ∀ q, (s'.requests q).contextLength = (s.requests q).contextLength := by
        intro q
        rw [← hs']
        refine requests_modify_field { s with kvAllocator := a } r q (·.contextLength) ?_
        exact fun _ => rfl
      have hrouter : s'.gpuRouter = s.gpuRouter := by rw [← hs']; rfl
      have haccounts : s'.accounts = s.accounts := by rw [← hs']; rfl
      have hactive : s'.activeRequests = s.activeRequests := by rw [← hs']; rfl
      exact ⟨⟨⟨hcaches, htally.budgets.frame hrouter hdevices hlength,
        htally.accounts.frame haccounts⟩, hactive.trans hact⟩,
        ⟨(mem_dequeued_congr haccounts r).mpr hdrawn.1,
          (committedCount_congr haccounts r).trans hdrawn.2⟩,
        hdecided.frame (hdevices r)⟩
  cases result with
  | error e =>
      refine Triple.bind (Steady.update (Q := Unplaced T live act r)
        (booked_placing.and booked_released).steady fun s hs _ => ?_)
        fun _ => Triple.ret fun _ hs => hs
      obtain ⟨⟨⟨htally, hact⟩, -, hdecided⟩, hreleased⟩ := hs
      have hbudgets := htally.budgets.unreserve hdecided
      obtain ⟨g, hrouter, -⟩ := htally.budgets.router
      rw [unreserveBudget_some hrouter] at hbudgets ⊢
      exact ⟨⟨⟨htally.caches.reroute _, hbudgets, htally.accounts.frame rfl⟩, hact⟩,
        hreleased⟩
  | ok _ =>
      refine Triple.bind (Steady.update (Q := Books T (r :: live) (r :: live) [] act)
        booked_placing.steady fun s hs _ => ?_) fun _ => Triple.ret fun _ hs => hs
      obtain ⟨⟨htally, hact⟩, hdrawn, hdecided⟩ := hs
      obtain ⟨g, hrouter, -⟩ := htally.budgets.router
      have hbudgets := htally.budgets.commit hdecided
      have haccounts := htally.accounts.commit x hdrawn.2 hdrawn.1 hrouter
      rw [commitBudget_some hrouter] at hbudgets haccounts ⊢
      exact ⟨⟨htally.caches.frame_of_eq rfl rfl (by simp [dequeued, log]), hbudgets,
        haccounts⟩, hact⟩

/-! ### The loop -/

/-- A prefill error of the runtime is followed by a release that invalidates the
handle. -/
theorem runPrefill_tally (hT : TallyProof maxActive T K) (hr : r ∉ live) :
    Triple (tallyContract K) (Unserved T live act r) (runPrefill r)
      (fun result s => match result with
        | .error _ => Unplaced T live act r s
        | .ok _ => Books T (r :: live) (r :: live) [] act s) := by
  unfold runPrefill
  refine Triple.bind (booked_unserved.quiet (setState_unmoved r _)) fun _ => ?_
  refine Triple.bind (booked_unserved.quiet (gauge_unmoved (· + 1))) fun _ => ?_
  refine Triple.bind (place_tally hT hr) fun placed => ?_
  cases placed with
  | error e =>
      exact Triple.bind (booked_unplaced.quiet (gauge_unmoved (· - 1)))
        (fun _ => Triple.ret fun _ hs => hs)
  | ok _ =>
      refine Triple.bind (Q := fun result s => Books T (r :: live) (r :: live) [] act s ∧
          ∀ e, result = .error e → Clearable r s)
        (Triple.atomic booked_books.steady.stable fun i s hs _ hnext => ⟨trivial, ?_⟩)
        fun result => ?_
      · cases hprefill : i.prefill with
        | ok logits => simpa [hprefill] using hs
        | error e =>
            dsimp only
            simp only [hprefill] at hnext ⊢
            refine ⟨booked_books _ _ hs (Unmoved.log s rfl), fun _ _ a => ?_⟩
            exact hT.clears _ hnext r _ (by simp [log]) a
      · cases result with
        | error e =>
            refine Triple.bind (Q := fun _ s => Unplaced T live act r s)
              ((freeResources_tally hT True).conseq
                (fun _ hs => ⟨hs.1, fun _ => List.mem_cons_self, fun _ => hs.2 e rfl⟩)
                (fun _ _ hs => ?_)) fun _ => ?_
            · obtain ⟨hbooks, hreleased⟩ := hs
              rw [List.erase_cons_head] at hbooks
              exact ⟨hbooks, hreleased trivial⟩
            · exact Triple.bind (booked_unplaced.quiet (gauge_unmoved (· - 1)))
                (fun _ => Triple.ret fun _ hs => hs)
        | ok logits =>
            refine Triple.bind (Triple.pre (booked_books.quiet (Always.update fun s =>
              Unmoved.modify s r ?_ ?_ ?_)) fun _ hs => hs.1) fun _ => Triple.ret fun _ hs => hs
            all_goals exact fun _ => rfl

/-- Between two requests: the active requests are those that hold a cache and
those that are charged. -/
def Balanced (T : TallySetup A) (s : Scheduler A) : Prop :=
  Tally T s.activeRequests s.activeRequests [] s

/-- Books of the active requests alone are balanced. -/
theorem Books.balanced {s : Scheduler A} (h : Books T live live [] live s) :
    Balanced T s := by
  obtain ⟨htally, rfl⟩ := h
  exact htally

/-- What is left after a request was released. -/
theorem Books.without {s : Scheduler A}
    (h : Books T (live.erase r) (live.erase r) [] (act.filter (· ≠ r)) s)
    (hlive : act.filter (· ≠ r) = live.erase r) : Balanced T s := by
  rw [hlive] at h
  exact h.balanced

/-- Taking away what is not there changes nothing. -/
theorem filter_eq_self_of_not_mem (hr : r ∉ act) : act.filter (· ≠ r) = act := by
  rw [List.filter_eq_self]
  intro q hq
  have hne : q ≠ r := fun hqr => hr (hqr ▸ hq)
  simpa using hne

/-- Taking up a request leaves the books balanced. -/
theorem startRequest_tally (hT : TallyProof maxActive T K) (d : SchedulerSetup)
    (hr : r ∉ act) :
    Triple (tallyContract K) (Unserved T act act r) (startRequest d r)
      (fun _ s => Balanced T s) := by
  have hfail : ∀ e : Error, Triple (tallyContract K) (Unplaced T act act r)
      (failRequest r e) (fun _ s => Balanced T s) := by
    intro e
    refine (failRequest_tally hT e).conseq (fun s hs => ⟨hs.1, fun hvalid => ?_⟩)
      (fun _ s hs => ?_)
    · rw [hs.2] at hvalid
      cases hvalid
    · exact Books.without hs (by
        rw [filter_eq_self_of_not_mem hr, List.erase_of_not_mem hr])
  unfold startRequest
  refine Triple.bind (booked_unserved.quiet ((step_unmoved r).clock _)) fun queueTimedOut => ?_
  cases queueTimedOut with
  | true => exact (hfail _).pre fun _ hs => hs.1
  | false =>
      refine Triple.bind (booked_unserved.quiet ((step_unmoved r).clock _))
        fun requestTimedOut => ?_
      cases requestTimedOut with
      | true => exact (hfail _).pre fun _ hs => hs.1
      | false =>
          refine Triple.bind (runPrefill_tally hT hr) fun result => ?_
          cases result with
          | error e => exact hfail e
          | ok _ =>
              refine Triple.bind (booked_books.quiet (setState_unmoved r _)) fun _ => ?_
              refine Triple.bind (booked_books.quiet (Always.atomic fun i s => ?_))
                fun _ => ?_
              · dsimp only
                split
                · exact Unmoved.modify s r (fun _ => rfl) (fun _ => rfl) (fun _ => rfl)
                · exact Unmoved.refl s
              · refine Steady.update booked_books.steady fun s hs _ => ?_
                obtain ⟨htally, hact⟩ := hs
                have hperm : (r :: act).Perm (s.activeRequests ++ [r]) := by
                  rw [hact]
                  exact (List.perm_append_singleton r act).symm
                exact (htally.perm hT.laws hperm hperm).activate

/-- A round of decoding leaves the tally balanced, and no request active that
was not. -/
theorem decodeRequest_tally (hT : TallyProof maxActive T K) (d : SchedulerSetup)
    (hr : r ∈ act) (hnodup : act.Nodup) :
    Triple (tallyContract K) (Books T act act [] act) (decodeRequest d r)
      (fun _ s => Balanced T s ∧ ∀ q ∈ act, q ≠ r → q ∈ s.activeRequests) := by
  have hwithout : act.filter (· ≠ r) = act.erase r := by
    rw [hnodup.erase_eq_filter]
    refine List.filter_congr fun q _ => ?_
    by_cases hqr : q = r <;> simp [hqr]
  have hend : ∀ s, Books T (act.erase r) (act.erase r) [] (act.filter (· ≠ r)) s →
      Balanced T s ∧ ∀ q ∈ act, q ≠ r → q ∈ s.activeRequests := by
    intro s hs
    refine ⟨Books.without hs hwithout, fun q hq hqr => ?_⟩
    rw [hs.2]
    exact List.mem_filter.mpr ⟨hq, by simpa using hqr⟩
  have hfail : ∀ e : Error, Triple (tallyContract K) (Books T act act [] act)
      (failRequest r e)
      (fun _ s => Balanced T s ∧ ∀ q ∈ act, q ≠ r → q ∈ s.activeRequests) :=
    fun e => (failRequest_tally hT e).conseq (fun _ hs => ⟨hs, fun _ => hr⟩)
      (fun _ s hs => hend s hs)
  have hcomplete : ∀ reason : FinishReason, Triple (tallyContract K)
      (Books T act act [] act) (completeRequest r reason)
      (fun _ s => Balanced T s ∧ ∀ q ∈ act, q ≠ r → q ∈ s.activeRequests) :=
    fun reason => (completeRequest_tally hT reason).conseq
      (fun _ hs => ⟨hs, fun _ => hr⟩) (fun _ s hs => hend s hs)
  refine (step_unmoved r).decodeRequest booked_books.steady.stable (fun _ _ _ _ => trivial)
    (fun s s' hs hu => booked_books s s' hs hu) (fun s hs => ?_) hcomplete hfail d
  refine ⟨hs.balanced, fun q hq _ => ?_⟩
  rw [hs.2]
  exact hq

/-- The tally at the control points of the decode thread. -/
def tallyPoint (T : TallySetup A) : Point → Scheduler A → Prop
  | .decodeEach rest, s =>
      Balanced T s ∧ rest.Nodup ∧ ∀ q ∈ rest, q ∈ s.activeRequests
  | _, s => Balanced T s

/-- Balanced books are a matter of the tally. -/
theorem booked_balanced : Booked (Balanced (A := A) T) := by
  intro s s' hs hu
  rw [Balanced, hu.activeRequests]
  exact Tally.unmoved hs hu

/-- So is what holds at a control point. -/
theorem booked_tallyPoint (l : Point) : Booked (tallyPoint (A := A) T l) := by
  cases l with
  | decodeEach rest =>
      intro s s' hs hu
      refine ⟨booked_balanced s s' hs.1 hu, hs.2.1, ?_⟩
      rw [hu.activeRequests]
      exact hs.2.2
  | start | processQueue | copyActive | join | returned => exact booked_balanced

/-- Every body of the decode thread leaves the books balanced. -/
theorem decodeLoop_tally {d : SchedulerSetup} (hT : TallyProof d.config.maxActiveRequests T K)
    (l : Point) :
    Triple (tallyContract K) (tallyPoint T l) (decodeLoop d l) (tallyPoint T) := by
  cases l with
  | start =>
      refine Triple.bind (booked_balanced.quiet (Always.atomic fun _ _ =>
        unmoved_of_eq rfl rfl rfl rfl rfl)) fun running => ?_
      cases running with
      | true => exact Triple.ret fun _ hs => hs
      | false => exact Triple.ret fun _ hs => hs
  | processQueue =>
      refine Triple.bind (Q := fun taken s => taken.elim (Balanced T s)
          fun r => ∃ act, r ∉ act ∧ Unserved T act act r s)
        (Triple.atomic booked_balanced.steady.stable fun _ s hs hK _ => ⟨trivial, ?_⟩)
        fun taken => ?_
      · obtain heq | ⟨r, rest, hpend, -, heq⟩ :=
          dequeue_cases s d.config.maxActiveRequests
        · rw [heq]
          exact hs
        · rw [heq]
          have hinv := hT.life s hK
          have hmem : r ∈ s.pendingQueue := by simp [hpend]
          obtain ⟨htally, hdequeued, hcommitted, hreleased⟩ :=
            Tally.dequeue hs (hinv.not_dequeued_of_pending hmem) rest
          exact ⟨s.activeRequests, hinv.not_active_of_pending hmem,
            ⟨⟨htally, rfl⟩, hreleased⟩, hdequeued, hcommitted⟩
      · cases taken with
        | none => exact Triple.ret fun _ hs => hs
        | some r =>
            refine Triple.bind (Triple.exists_pre fun act => Triple.of_fact fun hr =>
              startRequest_tally hT d hr) fun _ => Triple.ret fun _ hs => hs
  | copyActive =>
      refine Triple.bind (Triple.read booked_balanced.steady.stable fun _ => trivial)
        fun active => ?_
      by_cases hempty : active.isEmpty
      · rw [if_pos hempty]
        exact Triple.ret fun _ hs => hs.1
      · rw [if_neg hempty]
        refine Triple.ret fun s hs => ?_
        obtain ⟨hbalanced, rfl⟩ := hs
        exact ⟨hbalanced, Caches.nodup (Tally.caches hbalanced), fun _ hq => hq⟩
  | decodeEach rest =>
      cases rest with
      | nil => exact Triple.ret fun _ hs => hs.1
      | cons r rest =>
          have hround : Triple (tallyContract K) (tallyPoint T (.decodeEach (r :: rest)))
              (decodeRequest d r) (fun _ s => tallyPoint T (.decodeEach rest) s) := by
            intro s hs
            obtain ⟨hbalanced, hnodup, hactive⟩ := hs
            obtain ⟨hr, hrest⟩ := List.nodup_cons.mp hnodup
            refine wp_mono (fun _ s' hs' => ?_) (decodeRequest_tally hT d
              (hactive r List.mem_cons_self) (Tally.caches hbalanced).nodup s
              ⟨hbalanced, rfl⟩)
            refine ⟨hs'.1, hrest, fun q hq => hs'.2 q
              (hactive q (List.mem_cons_of_mem _ hq)) ?_⟩
            exact fun hqr => hr (hqr ▸ hq)
          exact Triple.bind hround fun _ => Triple.ret fun _ hs => hs
  | join => exact Triple.ret fun _ hs => hs
  | returned result => exact Triple.ret fun _ hs => hs

/-- So the decode thread alone is to be looked at. -/
theorem tally_solo {d : SchedulerSetup} (hT : TallyProof d.config.maxActiveRequests T K) :
    Solo d K (fun _ => True) (tallyPoint T) :=
  ⟨fun l => (booked_tallyPoint l).steady, fun _ _ _ _ => trivial, decodeLoop_tally hT⟩

/-- A scheduler as constructed, over an allocator without live handles and an
idle router, is balanced. -/
theorem balanced_create {a : A} {g : GPURouter} {requests : RequestPtr → Request}
    (hgood : T.Good a []) (hidle : g.Idle) (hdevices : g.deviceManager.devices = T.devices)
    (hsized : ∀ r, T.Sized (requests r).contextLength)
    (hnew : ∀ r, (requests r).kvCache = {}) :
    Balanced T (create a (some g) requests) := by
  have hinvalid : ∀ r, (requests r).kvCache.isValid = false := fun r => by
    rw [hnew r, KVCacheHandle.default_not_valid]
  refine ⟨⟨hgood, hsized, List.nodup_nil, by simp [create], fun r _ => hinvalid r,
    fun _ r hr => ?_⟩, ⟨⟨g, rfl, hdevices, hidle.ledger⟩, by simp [create]⟩, ?_⟩
  · rw [show ((create a (some g) requests).requests r).kvCache.isValid = false from
      hinvalid r] at hr
    cases hr
  · constructor <;> simp [create, committedCount, freedCount]

/-- The tally is balanced at every head of the decode loop. -/
theorem tally_run {d : SchedulerSetup} (hT : TallyProof d.config.maxActiveRequests T K)
    {a : A} {g : GPURouter} {requests : RequestPtr → Request}
    (hgood : T.Good a []) (hidle : g.Idle) (hdevices : g.deviceManager.devices = T.devices)
    (hsized : ∀ r, T.Sized (requests r).contextLength)
    (hnew : ∀ r, (requests r).kvCache = {}) (schedule : List (ThreadId × Answer))
    (hK : ∀ first, first <+: schedule →
      K ((System.initial (create a (some g) requests)).run (code d) first).state) :
    let w := (System.initial (create a (some g) requests)).run (code d) schedule
    AtHead w → Balanced T w.state :=
  fun hhead => ((tally_solo hT).run
    (balanced_create hgood hidle hdevices hsized hnew) trivial schedule hK).1 hhead

end Proof

end Scheduler

end Qwen
