import WinInference.Scheduler.Frame

/-!
# What the decode thread does to one request

The programs of the decode thread on a request, as the steps of `Generation` on
its view.  `Solo.run` then gives what holds of every request in every
interleaving.

A lemma of the form `f_resting` or `f_settled` is the triple of the function
`f`: the predicate on the view before it, and the one after it, under the rely
of the decode thread.  `sturdy_*` says that a predicate survives the moves of
the other threads.  `decodeLoop_resting` is the whole body, `restPoint_steady`
the point between two bodies, and `request_run` the run of the server.
-/

namespace Qwen

open Concurrency Concurrency.Program

namespace View

/-- An assertion about a view that other threads do not break and that keeps
the bounds. -/
structure Sturdy (t : Tokenizer) (P : View → Prop) : Prop where
  calm : ∀ v, P v → P v.calm
  bounded : ∀ v, P v → v.Bounded t

/-- With the request out of the queue. -/
def Out (P : View → Prop) (v : View) : Prop := P v ∧ v.taken = true

section Sturdy

variable {t : Tokenizer} {P : View → Prop}

/-- Being out of the queue is sturdy. -/
theorem Sturdy.out (h : Sturdy t P) : Sturdy t (Out P) :=
  ⟨fun v hv => ⟨h.calm v hv.1, hv.2⟩, fun v hv => h.bounded v hv.1⟩

/-- So is a placement that was decided on. -/
theorem sturdy_prepared (decision : Option RoutingDecision) : Sturdy t (Prepared decision) :=
  ⟨fun v h => ⟨h.toIdle.alike v.calm_alike, h.out, h.decided⟩, fun _ h => h.toIdle.bounded t⟩

/-- So is one that was carried out. -/
theorem sturdy_furnished : Sturdy t Furnished :=
  ⟨fun v h => ⟨h.toIdle.alike v.calm_alike, h.out, h.maxSeqLen, h.lies⟩,
    fun _ h => h.toIdle.bounded t⟩

/-- So is a request between two decode steps. -/
theorem sturdy_running : Sturdy t (Running t) :=
  ⟨fun v h => h.alike v.calm_alike id, fun _ h => h.toBounded⟩

/-- So is one with its next logits. -/
theorem sturdy_ready : Sturdy t (Ready t) :=
  ⟨fun v h => h.alike v.calm_alike id, fun _ h => h.toBounded⟩

/-- So is one with a new token. -/
theorem sturdy_appended (token : Int) : Sturdy t (Appended t token) :=
  ⟨fun _ h => h.calm, fun _ h => h.toBounded⟩

/-- So is one with its text. -/
theorem sturdy_spoken (token : Int) : Sturdy t (Spoken t token) :=
  ⟨fun _ h => h.calm, fun _ h => h.toBounded⟩

/-- So is one with its event. -/
theorem sturdy_emitted : Sturdy t (Emitted t) :=
  ⟨fun _ h => h.calm, fun _ h => h.toBounded⟩

/-- So is a settled request. -/
theorem sturdy_settled : Sturdy t (Settled t) :=
  ⟨fun v h => h.alike v.calm_alike, fun _ h => h.toBounded⟩

/-- So is one that has ended. -/
theorem sturdy_ended : Sturdy t (Ended t) :=
  ⟨fun v h => h.alike v.calm_alike id, fun _ h => h.toBounded⟩

/-- So is one at rest. -/
theorem sturdy_resting : Sturdy t (Resting t) :=
  ⟨fun _ h => h.calm, fun _ h => h.toBounded⟩

/-- Dequeued, nothing done yet. -/
def Fetched (v : View) : Prop := v.Idle ∧ v.routings = [] ∧ v.taken = true

/-- So is one that was just dequeued. -/
theorem sturdy_fetched : Sturdy t Fetched :=
  ⟨fun v h => ⟨h.1.alike v.calm_alike, h.2⟩, fun _ h => h.1.bounded t⟩

end Sturdy

end View

open View

namespace Scheduler

variable {A : Type} [IKVCacheAllocator A]

/-- An assertion about the view of `r`. -/
def On (r : RequestPtr) (P : View → Prop) (s : Scheduler A) : Prop := P (s.view r)

/-- The other threads only calm a view. -/
theorem On.steady {r : RequestPtr} {P : View → Prop} (hP : ∀ v, P v → P v.calm) :
    Steady (On (A := A) r P) := by
  intro s s' hs hi
  obtain heq | heq := hi.view r
  · rw [On, heq]
    exact hs
  · rw [On, heq]
    exact hP _ hs

/-- The contract of the decode thread: the bounds of `r` hold after each
action. -/
abbrev boundedContract (t : Tokenizer) (K : Scheduler A → Prop) (r : RequestPtr) :
    Contract (Scheduler A) := soloContract K (On r (Bounded t))

section Rules

variable {t : Tokenizer} {K : Scheduler A → Prop} {q r : RequestPtr} {P Q : View → Prop}

/-- One action, as a step on the view. -/
theorem On.update (hP : Sturdy t P) (hQ : Sturdy t Q) {f : Scheduler A → Scheduler A}
    (h : ∀ s, P (s.view r) → Q ((f s).view r)) :
    Triple (boundedContract t K r) (On r P) (Program.update f : Sched A Unit)
      (fun _ => On r Q) :=
  Triple.update (On.steady hP.calm).stable fun s hs _ _ =>
    ⟨hQ.bounded _ (h s hs), h s hs⟩

/-- One action with an outcome. -/
theorem On.atomic {α : Type} {R : α → View → Prop} (hP : Sturdy t P) (hR : ∀ a, Sturdy t (R a))
    {f : Answer → Scheduler A → α × Scheduler A}
    (h : ∀ i s, P (s.view r) → R (f i s).1 ((f i s).2.view r)) :
    Triple (boundedContract t K r) (On r P) (Program.atomic f) (fun a => On r (R a)) :=
  Triple.atomic (On.steady hP.calm).stable fun i s hs _ _ =>
    ⟨(hR _).bounded _ (h i s hs), h i s hs⟩

/-- A program that does not show. -/
theorem On.unseen {α : Type} (hP : Sturdy t P) {p : Sched A α} (hp : p.Always (Elsewhere r)) :
    Triple (boundedContract t K r) (On r P) p (fun _ => On r P) :=
  hp.triple (On.steady hP.calm).stable
    (fun s s' hs he => by
      show Bounded t (s'.view r)
      rw [show s'.view r = s.view r from he]
      exact hP.bounded _ hs)
    (fun s s' hs he => by
      show P (s'.view r)
      rw [show s'.view r = s.view r from he]
      exact hs)

/-- A look at the request. -/
theorem On.read {α : Type} (hP : Sturdy t P) {f : Scheduler A → α} {R : α → View → Prop}
    (h : ∀ s, P (s.view r) → R (f s) (s.view r)) :
    Triple (boundedContract t K r) (On r P) (Program.read f : Sched A α)
      (fun a => On r (R a)) :=
  Triple.atomic (On.steady hP.calm).stable fun _ s hs _ _ => ⟨hP.bounded (s.view r) hs, h s hs⟩

/-- A rewrite of fields that only the decode thread writes. -/
theorem On.modify (hP : Sturdy t P) (hQ : Sturdy t Q) {f : Request → Request}
    (h : ∀ v, P v → Q (v.edit f))
    (hcore : ∀ q, (f q).core = f q.core) (hqueue : ∀ q, (f q).tokenQueue = q.tokenQueue)
    (hstate : ∀ q, (f q).state = q.state) :
    Triple (boundedContract (A := A) t K r) (On r P)
      (Program.update (fun s => s.modify r f) : Sched A Unit) (fun _ => On r Q) :=
  On.update hP hQ fun s hs => by
    rw [view_modify s r hcore hqueue hstate]
    exact h _ hs

/-- A rewrite of fields no view shows. -/
theorem modify_unseen {f : Request → Request} (hcore : ∀ q, (f q).core = q.core)
    (hqueue : ∀ q, (f q).tokenQueue = q.tokenQueue) (hstate : ∀ q, (f q).state = q.state)
    (s : Scheduler A) : Elsewhere r s (s.modify r f) := by
  simp only [Elsewhere, view, requests_modify_self, hcore, hstate, delivered, queueStatus, hqueue]
  rfl

end Rules

section Programs

variable [LawfulKVCacheAllocator A] {t : Tokenizer} {K : Scheduler A → Prop} {r : RequestPtr}

/-! ### Release -/

/-- Releasing resources changes nothing about an end. -/
theorem freeResources_ended :
    Triple (boundedContract t K r) (On r (Ended t)) (freeResources r : Sched A Unit)
      (fun _ => On r (Ended t)) := by
  refine Triple.bind (On.atomic (R := fun _ => Ended t) sturdy_ended (fun _ => sturdy_ended)
    fun _ s hs => ?_) fun valid => ?_
  · dsimp only
    split
    · have hlog := (freeBudget_move s r).view
      exact hs.alike hlog.alike hlog.taken
    · exact hs
  · cases valid with
    | false => exact Triple.ret fun _ hs => hs
    | true =>
        refine On.update sturdy_ended sturdy_ended fun s hs => ?_
        obtain ⟨hmax, hcur⟩ :=
          LawfulKVCacheAllocator.free_shape s.kvAllocator (s.requests r).kvCache
        have hconfig := LawfulKVCacheAllocator.free_config s.kvAllocator (s.requests r).kvCache
        have hsame := reallocate_elsewhere (q := r) hconfig
        unfold freeKvCache
        dsimp only
        rw [view_modify, hsame]
        · exact hs.release hmax hcur
        all_goals exact fun _ => rfl

/-- A retired request is at rest. -/
theorem retire_resting {event : TokenEvent} (htext : event.text = []) :
    Triple (boundedContract t K r) (On r (Ended t)) (retire r event : Sched A Unit)
      (fun _ => On r (Resting t)) := by
  refine Triple.bind (On.update sturdy_ended sturdy_ended fun s hs =>
    hs.push htext (view_pushEvent s r event)) fun _ => ?_
  refine Triple.bind (On.update sturdy_ended sturdy_ended fun s hs => ?_) fun _ => ?_
  · rw [view_closeQueue]
    exact hs.close
  refine Triple.bind freeResources_ended fun _ => ?_
  refine Triple.bind (On.update sturdy_ended sturdy_resting fun s hs => ?_) fun _ => ?_
  · have hstruck : (s.eraseActive r).view r = { s.view r with active := false } := by
      have hgone : r ∉ (s.eraseActive r).activeRequests := by simp [eraseActive]
      simp only [view, decide_eq_false hgone]
      rfl
    rw [hstruck]
    exact hs.strike
  refine Triple.bind (On.unseen sturdy_resting
    (Always.update fun _ => elsewhere_of_eq rfl rfl rfl rfl rfl)) fun _ => ?_
  exact On.unseen sturdy_resting (gauge_elsewhere (· - 1))

/-- Ready to be completed for a reason. -/
structure Closing (t : Tokenizer) (why : FinishReason) (v : View) : Prop extends
    Settled t v where
  out : v.taken = true
  closes : Settled t (v.edit (fun q => { q with finishReason := why }))

/-- A request may wait to be completed. -/
theorem sturdy_closing (reason : FinishReason) : Sturdy t (Closing t reason) :=
  ⟨fun v h => ⟨h.toSettled.alike v.calm_alike, h.out, h.closes.alike (v.edit _).calm_alike⟩,
    fun _ h => h.toBounded⟩

omit [LawfulKVCacheAllocator A] in
/-- A change of the state that ends the request. -/
theorem setState_ended {st : RequestState} (hdecoding : st ≠ .decoding) (hover : st.isOver = true) :
    Triple (boundedContract t K r) (On r (Out (Settled t))) (setState r st : Sched A Unit)
      (fun _ => On r (Ended t)) := by
  refine On.update sturdy_settled.out sturdy_ended fun s hs => ?_
  rw [view_setState, hover, decide_eq_false hdecoding]
  exact hs.1.finish hs.2

/-- A completed request is at rest. -/
theorem completeRequest_resting (reason : FinishReason) :
    Triple (boundedContract t K r) (On r (Closing t reason))
      (completeRequest r reason : Sched A Unit) (fun _ => On r (Resting t)) := by
  refine Triple.bind (On.modify (sturdy_closing reason) sturdy_settled.out
    (fun v hv => ⟨hv.closes, hv.out⟩) (fun _ => rfl) (fun _ => rfl) fun _ => rfl) fun _ => ?_
  refine Triple.bind (setState_ended (by decide) rfl) fun _ => ?_
  refine Triple.bind (retire_resting rfl) fun _ => ?_
  exact On.unseen sturdy_resting (Always.update fun _ => elsewhere_of_eq rfl rfl rfl rfl rfl)

/-- So is a failed one. -/
theorem failRequest_resting (error : Error) :
    Triple (boundedContract t K r) (On r (Out (Settled t)))
      (failRequest r error : Sched A Unit) (fun _ => On r (Resting t)) := by
  refine Triple.bind (On.unseen sturdy_settled.out (Always.update
    (modify_unseen (fun _ => rfl) (fun _ => rfl) (fun _ => rfl)))) fun _ => ?_
  refine Triple.bind (setState_ended (by decide) rfl) fun _ => ?_
  refine Triple.bind (retire_resting rfl) fun _ => ?_
  exact On.unseen sturdy_resting (Always.update fun _ => elsewhere_of_eq rfl rfl rfl rfl rfl)

/-! ### Prefill -/

/-- What the allocator hands out. -/
theorem callAllocator_shape {s : Scheduler A} {i : Answer} {decision : Option RoutingDecision}
    {handle : KVCacheHandle} {a : A} (h : s.callAllocator i r decision = (.ok handle, a)) :
    handle.maxSeqLen = (s.requests r).contextLength ∧ handle.currentLen = 0 ∧
      ∀ x, decision = some x → handle.devices = deviceOf (s.view r).home x := by
  unfold callAllocator at h
  dsimp only at h
  by_cases hparallel : wantsTensorParallel decision
  · rw [if_pos hparallel] at h
    cases decision with
    | none => cases hparallel
    | some x =>
        have hlength : x.deviceIds.length > 1 := by
          simpa using (Bool.and_eq_true_iff.mp hparallel).2
        have hne : x.deviceIds ≠ [] := List.length_pos_iff.mp (by omega)
        obtain ⟨hdevices, -, hmax, hcur⟩ := LawfulKVCacheAllocator.tensorParallel_shape hne h
        refine ⟨hmax, hcur, fun y hy => ?_⟩
        obtain rfl := Option.some.inj hy
        rw [hdevices, deviceOf, if_pos hparallel]
  · rw [if_neg hparallel] at h
    obtain ⟨hdevices, -, hmax, hcur⟩ := LawfulKVCacheAllocator.allocate_shape h
    refine ⟨hmax, hcur, fun y hy => ?_⟩
    subst hy
    rw [hdevices, deviceOf, if_neg hparallel]
    rfl

/-- A placement furnishes the request or ends it. -/
theorem place_furnished :
    Triple (boundedContract t K r) (On r Fetched) (place r : Sched A (Result Unit))
      (fun result => On r (match result with
        | .error _ => Ended t
        | .ok _ => Furnished)) := by
  refine Triple.bind (On.atomic (R := Prepared) sturdy_fetched sturdy_prepared
    fun _ s hs => ?_) fun decision => ?_
  · obtain ⟨hidle, hnone, htaken⟩ := hs
    cases hrouter : s.gpuRouter with
    | none =>
        rw [routeRequest_none hrouter]
        exact hidle.unrouted htaken (by simp [view, hrouter])
    | some g =>
        rw [routeRequest_some hrouter]
        dsimp only
        have hsame := reroute_elsewhere (q := r) (s := s) (by rw [hrouter]; rfl)
          (g.route (s.requests r).contextLength).2
        rw [view_log, view_modify, hsame]
        · exact hidle.route htaken hnone r g
        all_goals first | exact fun _ => rfl | rfl
  refine Triple.bind (On.update (sturdy_prepared decision) (sturdy_prepared decision) fun s hs =>
    hs.logged (reserveBudget_move s r decision).view) fun _ => ?_
  refine Triple.bind (On.atomic (R := fun result => match result with
      | .error _ => Prepared decision
      | .ok _ => Furnished) (sturdy_prepared decision) (fun result => ?_) fun i s hs => ?_)
    fun result => ?_
  · cases result with
    | error e => exact sturdy_prepared decision
    | ok _ => exact sturdy_furnished
  · have hconfig := s.callAllocator_config i r decision
    obtain ⟨e, a, hcall, heq⟩ | ⟨handle, a, hcall, heq⟩ := allocateFor_cases s i r decision
    · rw [hcall] at hconfig
      have hsame := reallocate_elsewhere (q := r) hconfig
      rw [heq]
      dsimp only at hsame ⊢
      rw [hsame]
      exact hs
    · obtain ⟨hmax, hcur, hdevices⟩ := callAllocator_shape hcall
      rw [hcall] at hconfig
      have hsame := reallocate_elsewhere (q := r) hconfig
      rw [heq]
      dsimp only at hsame ⊢
      rw [view_modify, hsame]
      · exact hs.furnish hmax hcur hdevices
      all_goals exact fun _ => rfl
  cases result with
  | error e =>
      refine Triple.bind (On.update (sturdy_prepared decision) (sturdy_prepared decision)
        fun s hs => hs.logged (unreserveBudget_move s r decision).view) fun _ => ?_
      exact Triple.ret fun s hs => hs.toIdle.ended hs.out
  | ok _ =>
      refine Triple.bind (On.update sturdy_furnished sturdy_furnished fun s hs =>
        hs.logged (commitBudget_move s r decision).view) fun _ => ?_
      exact Triple.ret fun s hs => hs

/-- A prefill gets it running or ends it. -/
theorem runPrefill_running :
    Triple (boundedContract t K r) (On r Fetched) (runPrefill r : Sched A (Result Unit))
      (fun result => On r (match result with
        | .error _ => Ended t
        | .ok _ => Out (Running t))) := by
  refine Triple.bind (On.update sturdy_fetched sturdy_fetched fun s hs => ?_) fun _ => ?_
  · obtain ⟨hidle, hrest⟩ := hs
    rw [view_setState]
    exact ⟨hidle.alike (s.view r).calm_alike, hrest⟩
  refine Triple.bind (On.unseen sturdy_fetched (gauge_elsewhere (· + 1))) fun _ => ?_
  refine Triple.bind place_furnished fun placed => ?_
  cases placed with
  | error e =>
      exact Triple.bind (On.unseen sturdy_ended (gauge_elsewhere (· - 1)))
        (fun _ => Triple.ret fun _ hs => hs)
  | ok _ =>
      refine Triple.bind (On.atomic (R := fun _ => Furnished) sturdy_furnished
        (fun _ => sturdy_furnished) fun i s hs => ?_) fun prefilled => ?_
      · dsimp only
        split
        · exact hs
        · rw [view_log]
          · exact hs.logged (Logged.record _ (by simp) (by simp))
          all_goals rfl
      · cases prefilled with
        | error e =>
            refine Triple.bind ((freeResources_ended (t := t)).pre fun s hs =>
              Idle.ended hs.toIdle hs.out) fun _ => ?_
            exact Triple.bind (On.unseen sturdy_ended (gauge_elsewhere (· - 1)))
              (fun _ => Triple.ret fun _ hs => hs)
        | ok logits =>
            refine Triple.bind (On.modify sturdy_furnished sturdy_running.out
              (fun v hv => ⟨hv.store logits, hv.out⟩) (fun _ => rfl) (fun _ => rfl)
              fun _ => rfl) fun _ => ?_
            exact Triple.ret fun _ hs => hs

/-- A fetched request comes to rest: failed, or running. -/
theorem startRequest_resting (d : SchedulerSetup) :
    Triple (boundedContract t K r) (On r Fetched) (startRequest d r : Sched A Unit)
      (fun _ => On r (Resting t)) := by
  have hfail : ∀ e : Error, Triple (boundedContract t K r) (On r Fetched)
      (failRequest r e : Sched A Unit) (fun _ => On r (Resting t)) := fun e =>
    (failRequest_resting e).pre fun s hs => ⟨Idle.settled hs.1 t, hs.2.2⟩
  refine Triple.bind (On.unseen sturdy_fetched (clock_elsewhere _)) fun queueTimedOut => ?_
  cases queueTimedOut with
  | true => exact hfail _
  | false =>
      refine Triple.bind (On.unseen sturdy_fetched (clock_elsewhere _))
        fun requestTimedOut => ?_
      cases requestTimedOut with
      | true => exact hfail _
      | false =>
          refine Triple.bind runPrefill_running fun result => ?_
          cases result with
          | error e =>
              exact (failRequest_resting e).pre fun s hs => ⟨hs.toSettled, hs.out⟩
          | ok _ =>
              refine Triple.bind (On.update sturdy_running.out sturdy_running.out
                fun s hs => ?_) fun _ => ?_
              · rw [view_setState]
                exact ⟨hs.1.decode, hs.2⟩
              refine Triple.bind (On.unseen sturdy_running.out (Always.atomic fun i s => ?_))
                fun _ => ?_
              · dsimp only
                split
                · refine modify_unseen ?_ ?_ ?_ s <;> exact fun _ => rfl
                · exact Elsewhere.refl r s
              refine On.update sturdy_running.out sturdy_resting fun s hs => ?_
              have hadded : ({ s with activeRequests := s.activeRequests ++ [r] } :
                  Scheduler A).view r = { s.view r with active := true } := by
                have hmem : r ∈ s.activeRequests ++ [r] := by simp
                simp only [view, decide_eq_true hmem]
                rfl
              rw [hadded]
              refine Running.resting (hs.1.alike ?_ id) hs.2
              exact ⟨rfl, rfl, rfl, rfl, rfl, rfl, rfl, rfl, rfl, rfl, rfl,
                fun hd => ⟨hd, id⟩, id⟩

/-! ### Decode -/

omit [LawfulKVCacheAllocator A] in
/-- A token is appended and the stop check made: generation goes on, or it
ended. -/
theorem appendToken_settled (d : SchedulerSetup) (token : Int) :
    Triple (boundedContract d.tokenizer K r) (On r (Out (Ready d.tokenizer)))
      (appendToken d r token : Sched A Bool)
      (fun goesOn => On r (match goesOn with
        | true => Out (Running d.tokenizer)
        | false => Out (Settled d.tokenizer))) := by
  refine Triple.bind (On.modify sturdy_ready.out (sturdy_appended token).out
    (fun v hv => ⟨hv.1.append token, hv.2⟩) (fun _ => rfl) (fun _ => rfl) fun _ => rfl)
    fun _ => ?_
  refine Triple.bind (On.modify (sturdy_appended token).out (sturdy_spoken token).out
    (fun v hv => ⟨hv.1.say, hv.2⟩) (fun _ => rfl) (fun _ => rfl) fun _ => rfl) fun _ => ?_
  refine Triple.bind (On.update (sturdy_spoken token).out sturdy_emitted.out fun s hs => ?_)
    fun _ => ?_
  · have hpushed := view_pushEvent s r (.token token (d.tokenizer.tokenText token))
    refine ⟨hs.1.push hpushed, ?_⟩
    rw [hpushed.kept]
    exact hs.2
  refine On.atomic sturdy_emitted.out (fun goesOn => ?_) fun _ s hs => ?_
  · cases goesOn with
    | true => exact sturdy_running.out
    | false => exact sturdy_settled.out
  · obtain ⟨hemitted, htaken⟩ := hs
    have hcheck : StopChecker.check d.tokenizer (s.requests r).outputTokens
        (s.requests r).outputText
        { stopSequences := (s.requests r).stopSequences, maxTokens := (s.requests r).maxTokens } =
        (s.view r).verdict d.tokenizer := hemitted.check_eq
    dsimp only
    rw [hcheck]
    cases hstop : ((s.view r).verdict d.tokenizer).shouldStop with
    | false => exact ⟨hemitted.goes_on hstop, htaken⟩
    | true =>
        rw [if_pos rfl]
        dsimp only
        rw [view_modify]
        · refine ⟨hemitted.stops _ ?_, htaken⟩
          -- an empty sequence would trim nothing either
          split
          next hempty => rw [StopChecker.trimStopSequence, if_pos hempty]
          next => rfl
        all_goals exact fun _ => rfl

omit [LawfulKVCacheAllocator A] in
/-- The first token comes from the prefill logits, each later one from a decode
call. -/
theorem nextLogits_ready :
    Triple (boundedContract t K r) (On r (Out (Running t)))
      (nextLogits r : Sched A (Result Logits))
      (fun result => On r (match result with
        | .error _ => Out (Settled t)
        | .ok _ => Out (Ready t))) := by
  have hsturdy : ∀ result : Result Logits, Sturdy t (match result with
      | .error _ => Out (Settled t)
      | .ok _ => Out (Ready t)) := by
    intro result
    cases result with
    | error e => exact sturdy_settled.out
    | ok _ => exact sturdy_ready.out
  refine Triple.bind (On.read (R := fun first v =>
    Out (Running t) v ∧ first = v.request.outputTokens.isEmpty) sturdy_running.out
    fun s hs => ⟨hs, rfl⟩) fun first => ?_
  have hfirst : Sturdy t (fun v => Out (Running t) v ∧ first = v.request.outputTokens.isEmpty) :=
    ⟨fun v hv => ⟨sturdy_running.out.calm v hv.1, hv.2⟩,
      fun v hv => sturdy_running.out.bounded v hv.1⟩
  cases first with
  | true =>
      refine On.atomic hfirst hsturdy fun _ s hs => ?_
      obtain ⟨⟨hrunning, htaken⟩, hempty⟩ := hs
      have htokens : (s.view r).request.outputTokens = [] := by simpa using hempty.symm
      dsimp only
      split
      · exact ⟨hrunning.settled, htaken⟩
      · dsimp only
        rw [view_modify]
        · exact ⟨(hrunning.take _).ready_first htokens, htaken⟩
        all_goals exact fun _ => rfl
  | false =>
      refine On.atomic hfirst hsturdy fun i s hs => ?_
      obtain ⟨⟨hrunning, htaken⟩, hnonempty⟩ := hs
      have htokens : (s.view r).request.outputTokens ≠ [] := by simpa using hnonempty.symm
      have hready := hrunning.call htokens r ((s.requests r).outputTokens.getLastD 0)
      dsimp only
      rw [view_log]
      · cases i.decode with
        | error e => exact ⟨hready.settled, taken_record htaken _⟩
        | ok _ => exact ⟨hready, taken_record htaken _⟩
      all_goals rfl

omit [LawfulKVCacheAllocator A] in
/-- A decode step settles it. -/
theorem runDecodeStep_settled (d : SchedulerSetup) :
    Triple (boundedContract d.tokenizer K r) (On r (Out (Running d.tokenizer)))
      (runDecodeStep d r : Sched A (Result Bool))
      (fun result => On r (match result with
        | .ok true => Out (Running d.tokenizer)
        | _ => Out (Settled d.tokenizer))) := by
  refine Triple.bind (On.unseen sturdy_running.out (read_elsewhere _)) fun cancelled => ?_
  cases cancelled with
  | true => exact Triple.ret fun s hs => ⟨hs.1.settled, hs.2⟩
  | false =>
      refine Triple.bind nextLogits_ready fun logits => ?_
      cases logits with
      | error e => exact Triple.ret fun s hs => hs
      | ok _ =>
          refine Triple.bind (On.unseen sturdy_ready.out (clock_elsewhere _)) fun sampled => ?_
          cases sampled with
          | error e => exact Triple.ret fun s hs => ⟨hs.1.settled, hs.2⟩
          | ok token =>
              refine Triple.bind (appendToken_settled d token) fun goesOn => ?_
              cases goesOn with
              | true => exact Triple.ret fun s hs => hs
              | false => exact Triple.ret fun s hs => hs

/-- A running request comes to rest after each round. -/
theorem decodeRequest_resting (d : SchedulerSetup) :
    Triple (boundedContract d.tokenizer K r) (On r (Out (Running d.tokenizer)))
      (decodeRequest d r : Sched A Unit) (fun _ => On r (Resting d.tokenizer)) := by
  have hfail : ∀ e : Error, Triple (boundedContract d.tokenizer K r)
      (On r (Out (Running d.tokenizer))) (failRequest r e : Sched A Unit)
      (fun _ => On r (Resting d.tokenizer)) := fun e =>
    (failRequest_resting e).pre fun s hs => ⟨hs.1.settled, hs.2⟩
  refine Triple.bind (On.unseen sturdy_running.out (read_elsewhere _)) fun cancelled => ?_
  cases cancelled with
  | true =>
      exact (completeRequest_resting .stop).pre fun s hs =>
        ⟨hs.1.settled, hs.2, hs.1.cancel⟩
  | false =>
      refine Triple.bind (On.unseen sturdy_running.out (clock_elsewhere _))
        fun requestTimedOut => ?_
      cases requestTimedOut with
      | true => exact hfail _
      | false =>
          refine Triple.bind (On.unseen sturdy_running.out (clock_elsewhere _))
            fun decodeTimedOut => ?_
          cases decodeTimedOut with
          | true => exact hfail _
          | false =>
              refine Triple.bind (runDecodeStep_settled d) fun result => ?_
              cases result with
              | error e => exact failRequest_resting e
              | ok goesOn =>
                  cases goesOn with
                  | true => exact Triple.ret fun s hs => hs.1.resting hs.2
                  | false =>
                      refine Triple.bind (On.read (R := Closing d.tokenizer)
                        sturdy_settled.out fun s hs => ⟨hs.1, hs.2, hs.1⟩) fun reason => ?_
                      exact completeRequest_resting reason

/-! ### The loop -/

/-- A request at rest that is active if it is still to come in this round. -/
def Waiting (t : Tokenizer) (q : RequestPtr) (rest : List RequestPtr) (v : View) : Prop :=
  Resting t v ∧ (q ∈ rest → v.active = true)

/-- A request may wait for its turn. -/
theorem sturdy_waiting {q : RequestPtr} {rest : List RequestPtr} :
    Sturdy t (Waiting t q rest) :=
  ⟨fun _ h => ⟨h.1.calm, h.2⟩, fun _ h => h.1.toBounded⟩

/-- Where a request stands at the control points of the decode thread. -/
def restPoint (t : Tokenizer) (q : RequestPtr) : Point → Scheduler A → Prop
  | .decodeEach rest, s => rest.Nodup ∧ On q (Waiting t q rest) s
  | _, s => On q (Resting t) s

/-- The decode thread knows the lifecycle invariant. -/
abbrev lifeKnown (maxActive : Nat) (s : Scheduler A) : Prop := Life.Inv maxActive s.life

omit [LawfulKVCacheAllocator A] in
/-- A request that comes off the queue was never taken before. -/
theorem dequeue_fetched {maxActive : Nat} {s : Scheduler A} {rest : List RequestPtr}
    (hinv : Life.Inv maxActive s.life) (hpend : s.pendingQueue = r :: rest)
    (hs : On r (Resting t) s) :
    On r Fetched (({ s with pendingQueue := rest } : Scheduler A).log (.dequeued r)) := by
  have hmem : r ∈ s.life.pending := by
    show r ∈ s.pendingQueue
    simp [hpend]
  have hnot : r ∉ s.dequeued := hinv.not_dequeued_of_pending hmem
  have htaken : (s.view r).taken = false := by
    rw [taken, List.any_eq_false]
    intro e he
    obtain ⟨hown, hsubject⟩ := List.mem_filter.mp he
    obtain ⟨htrace, -⟩ := List.mem_filter.mp hown
    cases e with
    | dequeued p =>
        obtain rfl : p = r := of_decide_eq_true hsubject
        exact absurd (mem_dequeued.mpr htrace) hnot
    | _ => simp
  obtain ⟨hidle, hnone⟩ := hs.untouched htaken
  have hsame : ({ s with pendingQueue := rest } : Scheduler A).view r = s.view r := rfl
  have hview := view_log { s with pendingQueue := rest } (r := r) (e := .dequeued r) rfl
    rfl
  rw [On, hview, hsame]
  have hlog : Logged (s.view r) ((s.view r).record (.dequeued r)) :=
    Logged.record _ (by simp) (by simp)
  exact ⟨hidle.alike hlog.alike, hlog.routings.trans hnone, by simp [taken, record]⟩

/-- Every body of the decode thread leaves the others at rest. -/
theorem decodeLoop_resting (d : SchedulerSetup) (q : RequestPtr) (l : Point) :
    Triple (boundedContract d.tokenizer (lifeKnown (A := A) d.config.maxActiveRequests) q)
      (restPoint d.tokenizer q l) (decodeLoop d l) (restPoint d.tokenizer q) := by
  cases l with
  | start =>
      refine Triple.bind (On.unseen sturdy_resting (Always.atomic fun _ _ =>
        elsewhere_of_eq rfl rfl rfl rfl rfl)) fun running => ?_
      cases running with
      | true => exact Triple.ret fun _ hs => hs
      | false => exact Triple.ret fun _ hs => hs
  | processQueue =>
      refine Triple.bind (Q := fun next s => next.elim (On q (Resting d.tokenizer) s)
          fun r => (r = q ∧ On q Fetched s) ∨ (q ≠ r ∧ On q (Resting d.tokenizer) s))
        (Triple.atomic (On.steady (sturdy_resting (t := d.tokenizer)).calm).stable
          fun _ s hs hK _ => ?_) fun next => ?_
      · obtain heq | ⟨r, rest, hpend, -, heq⟩ := dequeue_cases s d.config.maxActiveRequests
        · rw [heq]
          exact ⟨hs.toBounded, hs⟩
        · rw [heq]
          by_cases hq : q = r
          · subst hq
            have hfetched := dequeue_fetched hK hpend hs
            exact ⟨sturdy_fetched.bounded _ hfetched, Or.inl ⟨rfl, hfetched⟩⟩
          · have hsame : (({ s with pendingQueue := rest } : Scheduler A).log
                (.dequeued r)).view q = s.view q := log_elsewhere (Ne.symm hq) _
            have hresting : On q (Resting d.tokenizer)
                (({ s with pendingQueue := rest } : Scheduler A).log (.dequeued r)) := by
              rw [On, hsame]
              exact hs
            exact ⟨hresting.toBounded, Or.inr ⟨hq, hresting⟩⟩
      · cases next with
        | none => exact Triple.ret fun _ hs => hs
        | some r =>
            have hstarted : Triple (boundedContract d.tokenizer
                (lifeKnown (A := A) d.config.maxActiveRequests) q)
                (fun s => (r = q ∧ On q Fetched s) ∨ (q ≠ r ∧ On q (Resting d.tokenizer) s))
                (startRequest d r) (fun _ => On q (Resting d.tokenizer)) := by
              rintro s (⟨rfl, hs⟩ | ⟨hq, hs⟩)
              · exact startRequest_resting d s hs
              · exact On.unseen sturdy_resting
                  (((chores_confined r).startRequest d).mono fun _ _ h => h.others q hq) s hs
            exact Triple.bind hstarted fun _ => Triple.ret fun _ hs => hs
  | copyActive =>
      refine Triple.bind (Q := fun active s => active.Nodup ∧
          On q (Waiting d.tokenizer q active) s)
        (Triple.atomic (On.steady (sturdy_resting (t := d.tokenizer)).calm).stable
          fun _ s hs hK _ => ⟨hs.toBounded, ?_, hs, fun hq => decide_eq_true hq⟩)
        fun active => ?_
      · exact hK.active_nodup
      · by_cases hempty : active.isEmpty
        · rw [if_pos hempty]
          exact Triple.ret fun _ hs => hs.2.1
        · rw [if_neg hempty]
          exact Triple.ret fun _ hs => hs
  | decodeEach rest =>
      cases rest with
      | nil => exact Triple.ret fun _ hs => hs.2.1
      | cons r rest =>
          refine Triple.of_fact fun hnodup => ?_
          obtain ⟨hr, hrest⟩ := List.nodup_cons.mp hnodup
          have hround : Triple (boundedContract d.tokenizer
              (lifeKnown (A := A) d.config.maxActiveRequests) q)
              (On q (Waiting d.tokenizer q (r :: rest))) (decodeRequest d r)
              (fun _ => On q (Waiting d.tokenizer q rest)) := by
            by_cases hq : q = r
            · subst hq
              refine (decodeRequest_resting d).conseq (fun s hs => ?_)
                (fun _ s hs => ⟨hs, fun hmem => absurd hmem hr⟩)
              exact hs.1.running (hs.2 List.mem_cons_self)
            · refine (On.unseen sturdy_waiting
                (((chores_confined r).decodeRequest d).mono fun _ _ h => h.others q hq)).post
                fun _ s hs => ⟨hs.1, fun hmem => hs.2 (List.mem_cons_of_mem r hmem)⟩
          exact Triple.bind hround fun _ => Triple.ret fun _ hs => ⟨hrest, hs⟩
  | join => exact Triple.ret fun _ hs => hs
  | returned result => exact Triple.ret fun _ hs => hs

omit [LawfulKVCacheAllocator A] in
/-- What holds at a control point is steady. -/
theorem restPoint_steady (q : RequestPtr) (l : Point) :
    Steady (restPoint (A := A) t q l) := by
  cases l with
  | decodeEach rest =>
      exact fun s s' hs hi => ⟨hs.1, On.steady (sturdy_waiting (t := t)).calm s s' hs.2 hi⟩
  | start | processQueue | copyActive | join | returned =>
      exact On.steady (sturdy_resting (t := t)).calm

/-- So the decode thread alone is to be looked at. -/
theorem resting_solo (d : SchedulerSetup) (q : RequestPtr) :
    Solo (A := A) d (lifeKnown d.config.maxActiveRequests) (On q (Bounded d.tokenizer))
      (restPoint d.tokenizer q) :=
  ⟨restPoint_steady q, On.steady fun v hv => hv.alike v.calm_alike, decodeLoop_resting d q⟩

end Programs

/-! ## What no thread changes -/

/-- The inputs of the requests, whether there is a router, and the device of
single-device allocations. -/
structure Constant (s s' : Scheduler A) : Prop where
  input : ∀ r, (s'.requests r).input = (s.requests r).input
  routes : s'.gpuRouter.isSome = s.gpuRouter.isSome
  home : (IKVCacheAllocator.config s'.kvAllocator).deviceId =
    (IKVCacheAllocator.config s.kvAllocator).deviceId

section Constant

variable {s s' : Scheduler A} {r : RequestPtr}

theorem Constant.refl (s : Scheduler A) : Constant s s := ⟨fun _ => rfl, rfl, rfl⟩

/-- Work on a request leaves the constants alone. -/
theorem Confined.constant (h : Confined r s s') : Constant s s' where
  input q := by
    by_cases hq : q = r
    · rw [hq]
      exact h.input
    · exact congrArg (fun v => v.request.input) (h.others q hq)
  routes := congrArg View.routes (h.others (r + 1) (Nat.succ_ne_self r))
  home := congrArg View.home (h.others (r + 1) (Nat.succ_ne_self r))

/-- So do the other threads. -/
theorem Interference.constant (h : Interference s s') : Constant s s' where
  input r := h.field r Request.input (fun _ => rfl)
  routes := by rw [h.gpuRouter]
  home := by rw [h.kvAllocator]

variable [LawfulKVCacheAllocator A]

/-- So does every body. -/
theorem code_constant (d : SchedulerSetup) (t : ThreadId) (l : Point) :
    (code d t l : Sched A Point).Always Constant := by
  by_cases ht : t = .decode
  · subst ht
    exact decodeLoop_always (fun r => (chores_confined r).mono fun _ _ h => h.constant)
      (fun _ => ⟨fun _ => rfl, rfl, rfl⟩) (fun _ _ _ _ => ⟨fun _ => rfl, rfl, rfl⟩) d l
  · exact (code_interference d ht l).mono fun _ _ h => h.constant

/-- What a scheduler starts with and keeps in every run. -/
theorem constant_run (d : SchedulerSetup) (s : Scheduler A)
    (schedule : List (ThreadId × Answer)) :
    Constant s ((System.initial s).run (code d) schedule).state := by
  refine Pool.run_always (code_constant d) (J := Constant s) (fun s' s'' h hs => ?_)
    (Constant.refl s) .start schedule
  exact ⟨fun r => (h.input r).trans (hs.input r), h.routes.trans hs.routes,
    h.home.trans hs.home⟩

end Constant

/-! ## Runs -/

/-- Nothing was generated for the request yet, and its queue is open. -/
structure Unstarted (q : Request) : Prop where
  state : q.state = .received
  tokens : q.outputTokens = []
  text : q.outputText = []
  reason : q.finishReason = .none
  cache : q.kvCache = {}
  events : ∀ t, q.tokenQueue = some t → t.events = [] ∧ t.closed = false

section Runs

variable {a : A} {g : Option GPURouter} {requests : RequestPtr → Request}

omit [IKVCacheAllocator A] in
/-- A new request has been told nothing. -/
theorem Unstarted.delivered {r : RequestPtr} (h : Unstarted (requests r)) :
    (create a g requests).delivered r = [] := by
  have hevents : ((requests r).tokenQueue.map (·.events)).getD [] = [] := by
    cases hqueue : (requests r).tokenQueue with
    | none => rfl
    | some t => exact (h.events t hqueue).1
  rw [Scheduler.delivered]
  simpa [create] using hevents

/-- An unstarted request is at rest. -/
theorem Unstarted.resting {r : RequestPtr} (h : Unstarted (requests r)) (t : Tokenizer) :
    On r (Resting t) (create a g requests) := by
  have hidle : ((create a g requests).view r).Idle := by
    refine ⟨h.tokens, h.text, ?_, h.reason, h.delivered, fun closed dropped hqueue => ?_, rfl, ?_,
      ?_⟩
    · show (requests r).kvCache.currentLen = 0
      rw [h.cache]
    · obtain ⟨t, ht, heq⟩ := Option.map_eq_some_iff.mp hqueue
      obtain ⟨rfl, -⟩ := Prod.mk.inj heq
      exact (h.events t ht).2
    · have hstate : (requests r).state ≠ .decoding := by simp [h.state]
      exact decide_eq_false hstate
    · show (requests r).state.isOver = false
      rw [h.state]
      rfl
  exact ⟨hidle.settled t, fun _ => ⟨hidle, rfl⟩, nofun⟩

/-- **Every request, at every moment.**  A request that was not started when it
was submitted is within its bounds in every state of every run, and at rest
whenever the decode thread is at the head of its loop. -/
theorem request_run [LawfulKVCacheAllocator A] (d : SchedulerSetup) (hfresh : Fresh requests)
    {r : RequestPtr} (h : Unstarted (requests r)) (schedule : List (ThreadId × Answer)) :
    let w := (System.initial (create a g requests)).run (code d) schedule
    (AtHead w → (w.state.view r).Resting d.tokenizer) ∧
      (w.state.view r).Bounded d.tokenizer :=
  (resting_solo d r).run (h.resting d.tokenizer) (h.resting d.tokenizer).toBounded schedule
    (fun first _ => life_inv d hfresh first)

end Runs

end Scheduler

end Qwen
