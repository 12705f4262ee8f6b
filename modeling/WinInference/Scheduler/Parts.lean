import WinInference.Scheduler.Frame

/-!
# Parts of a request

Most actions of the scheduler touch a few fields of one request.  `Keeps part`
says that an action leaves a part of every request as it is; it holds of the
actions of a function as soon as that part does not depend on the fields the
function writes.

`keeps_modify` and `BudgetMove.keeps` are the single actions.  `submit_keeps`,
`http_keeps`, `release_keeps`, `place_keeps` and `chores_keeps` turn a property
of the part into the lists of actions of `Chores`, which say it of whole
programs.
-/

namespace Qwen

open Concurrency Concurrency.Program

namespace Scheduler

variable {A β : Type}

/-- This part of every request stays. -/
def Keeps (part : Request → β) (s s' : Scheduler A) : Prop :=
  ∀ q, part (s'.requests q) = part (s.requests q)

section Keeps

variable {part : Request → β} {r : RequestPtr} {s s' s'' : Scheduler A}

/-- Rewrites of anything but the requests keep every part. -/
theorem keeps_of_requests (h : s'.requests = s.requests) : Keeps part s s' := fun q => by rw [h]

/-- Keeping is reflexive. -/
theorem Keeps.refl (s : Scheduler A) : Keeps part s s := fun _ => rfl

/-- Steps that keep the part can be chained. -/
theorem Keeps.trans (h : Keeps part s s') (h' : Keeps part s' s'') : Keeps part s s'' :=
  fun q => (h' q).trans (h q)

/-- A rewrite that leaves the part of a request alone keeps it in all of them. -/
theorem keeps_modify (s : Scheduler A) (r : RequestPtr) {f : Request → Request}
    (hf : ∀ q, part (f q) = part q) : Keeps part s (s.modify r f) :=
  fun q => requests_modify_field s r q part hf

/-- The same as an action of a thread. -/
theorem modify_keeps {f : Request → Request} (hf : ∀ q, part (f q) = part q) :
    (Program.update (fun s => s.modify r f) : Sched A Unit).Always (Keeps part) :=
  Always.update fun s => keeps_modify s r hf

/-- The router's books are no part of a request. -/
theorem BudgetMove.keeps (h : BudgetMove r s s') : Keeps part s s' := by
  cases h with
  | idle | silent | logged => exact keeps_of_requests rfl

/-- Popping touches the token queue alone. -/
theorem keeps_popEvent (hqueue : ∀ q t, part { q with tokenQueue := t } = part q)
    (s : Scheduler A) (r : RequestPtr) : Keeps part s (s.popEvent r) := by
  obtain heq | ⟨t, event, rest, -, -, heq⟩ := popEvent_cases s r
  · rw [heq]
    exact Keeps.refl s
  · rw [heq]
    exact keeps_modify s r fun q => hqueue q _

/-- The HTTP threads touch the cancel token and the token queue. -/
theorem http_keeps (hcancel : ∀ q c, part { q with cancelToken := c } = part q)
    (hqueue : ∀ q t, part { q with tokenQueue := t } = part q) :
    HttpChores (Keeps (A := A) part) :=
  ⟨Keeps.refl, fun s r => keeps_modify s r fun q => hcancel q _, keeps_popEvent hqueue,
    Keeps.trans⟩

/-- A submission touches the state, the error and the deadlines. -/
theorem submit_keeps (r : RequestPtr) (hstate : ∀ q st, part { q with state := st } = part q)
    (herror : ∀ q e, part { q with error := e } = part q)
    (htiming : ∀ q t, part { q with timing := t } = part q) :
    SubmitChores r (Keeps (A := A) part) where
  idle := Keeps.refl
  queue s := keeps_modify s r fun q => hstate q _
  reject s := keeps_modify s r fun q => hstate q _
  blame s _ := keeps_modify s r fun q => herror q _
  stamp s _ := keeps_modify s r fun q => htiming q _
  register _ := keeps_of_requests rfl
  enqueue _ := keeps_of_requests rfl

/-! ## The decode thread -/

variable [IKVCacheAllocator A]

/-- Releasing resources touches the cache handle. -/
theorem release_keeps (r : RequestPtr) (hcache : ∀ q h, part { q with kvCache := h } = part q) :
    ReleaseChores r (Keeps (A := A) part) where
  idle := Keeps.refl
  freeBudget s := (freeBudget_move s r).keeps
  freeKvCache s := by
    have hfreed : Keeps part s { s with
        kvAllocator := (IKVCacheAllocator.free s.kvAllocator (s.requests r).kvCache).2 } :=
      keeps_of_requests rfl
    exact hfreed.trans (keeps_modify _ r fun q => hcache q _)

/-- Leaving the scheduler touches the cache handle and the queues. -/
theorem leave_keeps (r : RequestPtr) (hcache : ∀ q h, part { q with kvCache := h } = part q) :
    LeaveChores r (Keeps (A := A) part) where
  toReleaseChores := release_keeps r hcache
  eraseActive _ := keeps_of_requests rfl
  unregister _ := keeps_of_requests rfl
  gauge _ _ := keeps_of_requests rfl
  countCompleted _ _ := keeps_of_requests rfl
  countErrored _ _ := keeps_of_requests rfl

/-- A placement touches the cache handle and the assigned devices. -/
theorem place_keeps (r : RequestPtr) (hcache : ∀ q h, part { q with kvCache := h } = part q)
    (hdevices : ∀ q l, part { q with assignedDevices := l } = part q) :
    PlaceChores r (Keeps (A := A) part) where
  route s := by
    cases hrouter : s.gpuRouter with
    | none =>
        rw [routeRequest_none hrouter]
        exact Keeps.refl s
    | some g =>
        rw [routeRequest_some hrouter]
        have hrouted : Keeps part s { s with
            gpuRouter := some (g.route (s.requests r).contextLength).2 } :=
          keeps_of_requests rfl
        exact hrouted.trans (keeps_modify _ r fun q => hdevices q _)
  reserve s decision := (reserveBudget_move s r decision).keeps
  allocate s i decision := by
    obtain ⟨e, a, -, heq⟩ | ⟨handle, a, -, heq⟩ := allocateFor_cases s i r decision
    · rw [heq]
      exact keeps_of_requests rfl
    · rw [heq]
      have hcalled : Keeps part s { s with kvAllocator := a } := keeps_of_requests rfl
      exact hcalled.trans (keeps_modify _ r fun q => hcache q _)
  unreserve s decision := (unreserveBudget_move s r decision).keeps
  commit s decision := (commitBudget_move s r decision).keeps

/-- Retiring a request touches its cache handle and its token queue. -/
theorem retire_keeps (hcache : ∀ q h, part { q with kvCache := h } = part q)
    (hqueue : ∀ q t, part { q with tokenQueue := t } = part q) (event : TokenEvent) :
    (retire r event : Sched A Unit).Always (Keeps part) := by
  have hpush : Triple _ (fun _ => True)
      (Program.update (·.pushEvent r event) : Sched A Unit) (fun _ _ => True) :=
    (modify_keeps fun q => hqueue q _).watched
  have hclose : Triple _ (fun _ => True)
      (Program.update (·.closeQueue r) : Sched A Unit) (fun _ _ => True) :=
    (modify_keeps fun q => hqueue q _).watched
  exact .of_triple ((leave_keeps r hcache).retire hpush hclose (fun _ _ _ _ _ => trivial)
    (fun _ _ _ hact => hact) (fun _ _ _ _ => trivial)
    (fun _ _ => trivial))

/-- Every action of the decode thread on a request keeps what other threads
share with it, but for its queue. -/
theorem chores_keeps (r : RequestPtr)
    (hedit : ∀ f : Request → Request, (∀ q, Request.shared (f q) = q.shared) →
      ∀ q, part (f q) = part q)
    (hqueue : ∀ q t, part { q with tokenQueue := t } = part q) :
    Chores r (Keeps (A := A) part) where
  toLeaveChores := leave_keeps r fun q h => hedit (fun q => { q with kvCache := h })
    (fun _ => rfl) q
  toPlaceChores := place_keeps r
    (fun q h => hedit (fun q => { q with kvCache := h }) (fun _ => rfl) q)
    (fun q l => hedit (fun q => { q with assignedDevices := l }) (fun _ => rfl) q)
  edit s f hf := keeps_modify s r (hedit f hf)
  push s _ := keeps_modify s r fun q => hqueue q _
  close s := keeps_modify s r fun q => hqueue q _
  call _ _ _ _ _ := keeps_of_requests rfl
  activate _ := keeps_of_requests rfl

end Keeps

end Scheduler

end Qwen
