import Mathlib.Data.List.Nodup
import WinInference.Concurrency.RelyGuarantee
import WinInference.Scheduler.Scheduler

/-!
# The lifecycle of requests, abstracted

What the lifecycle of requests needs of a scheduler state: the state of each
request, the registry, the two lists, the number of finished requests and the
order of registrations, pushes and dequeues.  Everything else, from the KV
cache to the output of a request, is forgotten.

Two kinds of threads change this view.  A submit call takes its own request
through registration to a push; the decode thread takes pushed requests, one at
a time, from the queue to the active list and to their end.  `Book held` is the
bookkeeping between two actions of the decode thread: it is exact for every
pushed request but the one `held`, which is on its way.

The lemmas `*_entry` say what a transition does to the four flags of one
request.  `Between`, `Holding` and `Leaving` are the three situations of the
decode thread, with no request in hand, with one taken off the queue, and with
one about to be settled; `Between.dequeue`, `Holding.activate` and
`Leaving.settle` go from one to the next.
-/

namespace Qwen

/-- The state changes a request may make. -/
inductive Legal : RequestState → RequestState → Prop where
  | receivedQueued : Legal .received .queued
  | receivedRejected : Legal .received .rejected
  | queuedPrefilling : Legal .queued .prefilling
  | queuedErrored : Legal .queued .errored
  | prefillingDecoding : Legal .prefilling .decoding
  | prefillingErrored : Legal .prefilling .errored
  | decodingCompleted : Legal .decoding .completed
  | decodingErrored : Legal .decoding .errored

/-- The lifecycle view of a scheduler state. -/
structure Life where
  state : RequestPtr → RequestState
  id : RequestPtr → String
  registry : AList (fun _ : String => RequestPtr)
  pending : List RequestPtr
  active : List RequestPtr
  /-- completed and errored requests together -/
  settled : Nat
  registered : List RequestPtr
  pushed : List RequestPtr
  dequeued : List RequestPtr

namespace Life

/-- The registry entry of a request. -/
def entry (l : Life) (r : RequestPtr) : Option RequestPtr := l.registry.lookup (l.id r)

/-- What holds of every reachable state, also between two critical sections. -/
structure Inv (maxActive : Nat) (l : Life) : Prop where
  ids : Function.Injective l.id
  /-- requests leave the queue in the order in which they entered it -/
  fifo : l.pushed = l.dequeued ++ l.pending
  pushed_nodup : l.pushed.Nodup
  pushed_registered : ∀ r ∈ l.pushed, r ∈ l.registered
  active_nodup : l.active.Nodup
  active_dequeued : ∀ r ∈ l.active, r ∈ l.dequeued
  active_le : l.active.length ≤ maxActive
  keys : ∀ k r, l.registry.lookup k = some r → k = l.id r ∧ r ∈ l.registered
  /-- between its registration and its push a request is in the registry -/
  announced : ∀ r ∈ l.registered, r ∉ l.pushed → l.entry r = some r

/-- The books of the decode thread, exact for all requests but `held`. -/
structure Book (held : Option RequestPtr) (l : Life) : Prop where
  count : l.settled + (l.active.filter (fun r => some r ≠ held)).length +
    held.toList.length = l.dequeued.length
  waiting : ∀ r ∈ l.pending, l.state r = .queued ∧ l.entry r = some r
  running : ∀ r ∈ l.active, some r ≠ held →
    l.state r = .decoding ∧ l.entry r = some r
  gone : ∀ r ∈ l.dequeued, r ∉ l.active → some r ≠ held →
    (l.state r).isTerminal ∧ l.entry r = none
  held_dequeued : ∀ r, held = some r → r ∈ l.dequeued

/-- What other threads do as the decode thread sees it: new requests arrive at
the end of the queue, pushed ones are left alone. -/
structure Arrivals (l l' : Life) : Prop where
  id_eq : l'.id = l.id
  active_eq : l'.active = l.active
  settled_eq : l'.settled = l.settled
  dequeued_eq : l'.dequeued = l.dequeued
  arrived : ∃ new, l'.pending = l.pending ++ new ∧ l'.pushed = l.pushed ++ new ∧
    ∀ r ∈ new, l'.state r = .queued ∧ l'.entry r = some r
  kept : ∀ r ∈ l.pushed, l'.state r = l.state r ∧ l'.entry r = l.entry r

/-- What the decode thread does to a view. -/
structure DecodeStep (maxActive : Nat) (l l' : Life) : Prop where
  id_eq : l'.id = l.id
  registered_eq : l'.registered = l.registered
  pushed_eq : l'.pushed = l.pushed
  unpushed : ∀ r, r ∉ l.pushed → l'.state r = l.state r ∧ l'.entry r = l.entry r
  inv : Inv maxActive l'
  legal : ∀ r, l'.state r = l.state r ∨ Legal (l.state r) (l'.state r)

/-- What the submit call of `r` may rely on: until `r` is pushed, nobody else
touches it. -/
structure Untouched (r : RequestPtr) (l l' : Life) : Prop where
  id_eq : l'.id = l.id
  kept : r ∉ l.pushed → r ∉ l'.pushed ∧ (r ∈ l'.registered ↔ r ∈ l.registered) ∧
    l'.state r = l.state r ∧ l'.entry r = l.entry r

/-- What the submit call of `r` does to a view. -/
structure SubmitStep (maxActive : Nat) (r : RequestPtr) (l l' : Life) : Prop where
  arrivals : Arrivals l l'
  others : ∀ q, q ≠ r → (q ∈ l'.pushed ↔ q ∈ l.pushed) ∧
    (q ∈ l'.registered ↔ q ∈ l.registered) ∧
    l'.state q = l.state q ∧ l'.entry q = l.entry q
  inv : Inv maxActive l'
  legal : ∀ q, l'.state q = l.state q ∨ Legal (l.state q) (l'.state q)

/-! ## Relations -/

theorem Arrivals.refl (l : Life) : Arrivals l l :=
  ⟨rfl, rfl, rfl, rfl, ⟨[], by simp⟩, fun _ _ => ⟨rfl, rfl⟩⟩

/-- Arrivals add up. -/
theorem Arrivals.trans {l m n : Life} (h : Arrivals l m) (h' : Arrivals m n) :
    Arrivals l n := by
  obtain ⟨new, hpend, hpush, hnew⟩ := h.arrived
  obtain ⟨new', hpend', hpush', hnew'⟩ := h'.arrived
  refine ⟨h'.id_eq.trans h.id_eq, h'.active_eq.trans h.active_eq,
    h'.settled_eq.trans h.settled_eq, h'.dequeued_eq.trans h.dequeued_eq,
    ⟨new ++ new', by simp [hpend', hpend], by simp [hpush', hpush], ?_⟩, ?_⟩
  · intro r hr
    rcases List.mem_append.mp hr with hr | hr
    · have hmem : r ∈ m.pushed := by rw [hpush]; exact List.mem_append_right _ hr
      rw [(h'.kept r hmem).1, (h'.kept r hmem).2]
      exact hnew r hr
    · exact hnew' r hr
  · intro r hr
    have hmem : r ∈ m.pushed := by rw [hpush]; exact List.mem_append_left _ hr
    exact ⟨(h'.kept r hmem).1.trans (h.kept r hr).1,
      (h'.kept r hmem).2.trans (h.kept r hr).2⟩

theorem Untouched.refl (r : RequestPtr) (l : Life) : Untouched r l l :=
  ⟨rfl, fun h => ⟨h, Iff.rfl, rfl, rfl⟩⟩

/-- What is left alone twice is left alone. -/
theorem Untouched.trans {r : RequestPtr} {l m n : Life} (h : Untouched r l m)
    (h' : Untouched r m n) : Untouched r l n := by
  refine ⟨h'.id_eq.trans h.id_eq, fun hr => ?_⟩
  obtain ⟨hpush, hreg, hstate, hentry⟩ := h.kept hr
  obtain ⟨hpush', hreg', hstate', hentry'⟩ := h'.kept hpush
  exact ⟨hpush', hreg'.trans hreg, hstate'.trans hstate, hentry'.trans hentry⟩

/-- What the decode thread does never touches a request before its push. -/
theorem DecodeStep.untouched {maxActive : Nat} {l l' : Life}
    (h : DecodeStep maxActive l l') (r : RequestPtr) : Untouched r l l' :=
  ⟨h.id_eq, fun hr => ⟨by rwa [h.pushed_eq], by rw [h.registered_eq],
    (h.unpushed r hr).1, (h.unpushed r hr).2⟩⟩

/-- Submit calls of different requests do not touch each other. -/
theorem SubmitStep.untouched {maxActive : Nat} {q r : RequestPtr} {l l' : Life}
    (h : SubmitStep maxActive r l l') (hq : q ≠ r) : Untouched q l l' := by
  obtain ⟨hpush, hreg, hstate, hentry⟩ := h.others q hq
  exact ⟨h.arrivals.id_eq, fun hun => ⟨mt hpush.mp hun, hreg, hstate, hentry⟩⟩

/-- Arrivals leave the books of the decode thread exact. -/
theorem Book.arrivals {maxActive : Nat} {held : Option RequestPtr} {l l' : Life}
    (hinv : Inv maxActive l) (hb : Book held l) (ha : Arrivals l l') :
    Book held l' := by
  obtain ⟨new, hpend, _, hnew⟩ := ha.arrived
  have hdeq : ∀ r ∈ l.dequeued, r ∈ l.pushed := by
    intro r hr
    rw [hinv.fifo]
    exact List.mem_append_left _ hr
  constructor
  · rw [ha.settled_eq, ha.active_eq, ha.dequeued_eq]
    exact hb.count
  · intro r hr
    rw [hpend] at hr
    rcases List.mem_append.mp hr with hr | hr
    · have hmem : r ∈ l.pushed := by
        rw [hinv.fifo]
        exact List.mem_append_right _ hr
      rw [(ha.kept r hmem).1, (ha.kept r hmem).2]
      exact hb.waiting r hr
    · exact hnew r hr
  · intro r hr hne
    rw [ha.active_eq] at hr
    have hmem := hdeq r (hinv.active_dequeued r hr)
    rw [(ha.kept r hmem).1, (ha.kept r hmem).2]
    exact hb.running r hr hne
  · intro r hr hact hne
    rw [ha.dequeued_eq] at hr
    rw [ha.active_eq] at hact
    rw [(ha.kept r (hdeq r hr)).1, (ha.kept r (hdeq r hr)).2]
    exact hb.gone r hr hact hne
  · intro r hr
    rw [ha.dequeued_eq]
    exact hb.held_dequeued r hr

/-! ## The transitions of the view -/

/-- A request is put into another state. -/
def setState (l : Life) (r : RequestPtr) (st : RequestState) : Life :=
  { l with state := Function.update l.state r st }

/-- A request is registered. -/
def register (l : Life) (r : RequestPtr) : Life :=
  { l with
    registry := l.registry.insert (l.id r) r
    registered := l.registered ++ [r] }

/-- A request is pushed on the queue. -/
def push (l : Life) (r : RequestPtr) : Life :=
  { l with pending := l.pending ++ [r], pushed := l.pushed ++ [r] }

/-- A request is taken off the queue, and `rest` stays. -/
def dequeue (l : Life) (r : RequestPtr) (rest : List RequestPtr) : Life :=
  { l with pending := rest, dequeued := l.dequeued ++ [r] }

/-- A request is put on the active list. -/
def activate (l : Life) (r : RequestPtr) : Life :=
  { l with active := l.active ++ [r] }

/-- It is taken off again. -/
def deactivate (l : Life) (r : RequestPtr) : Life :=
  { l with active := l.active.filter (· ≠ r) }

/-- A request leaves the registry. -/
def unregister (l : Life) (r : RequestPtr) : Life :=
  { l with registry := l.registry.erase (l.id r) }

/-- One more request has ended. -/
def settle (l : Life) : Life := { l with settled := l.settled + 1 }

section Entries

variable {l : Life} {q r : RequestPtr} {st : RequestState}

@[simp] theorem setState_entry : (l.setState r st).entry q = l.entry q := rfl

@[simp] theorem push_entry : (l.push r).entry q = l.entry q := rfl

@[simp] theorem dequeue_entry {rest : List RequestPtr} :
    (l.dequeue r rest).entry q = l.entry q := rfl

@[simp] theorem activate_entry : (l.activate r).entry q = l.entry q := rfl

@[simp] theorem deactivate_entry : (l.deactivate r).entry q = l.entry q := rfl

@[simp] theorem settle_entry : l.settle.entry q = l.entry q := rfl

/-- A registered request is found under its id. -/
@[simp] theorem register_entry_self : (l.register r).entry r = some r := by
  simp [entry, register]

/-- With distinct ids it hides no other. -/
theorem register_entry_of_ne (hids : Function.Injective l.id) (h : q ≠ r) :
    (l.register r).entry q = l.entry q :=
  AList.lookup_insert_ne (fun hid => h (hids hid))

/-- What left the registry is not found. -/
@[simp] theorem unregister_entry_self : (l.unregister r).entry r = none := by
  simp [entry, unregister]

/-- With distinct ids the others still are. -/
theorem unregister_entry_of_ne (hids : Function.Injective l.id) (h : q ≠ r) :
    (l.unregister r).entry q = l.entry q :=
  AList.lookup_erase_ne (fun hid => h (hids hid))

/-- The state of the request is the new one. -/
@[simp] theorem setState_state_self : (l.setState r st).state r = st := by
  simp [setState]

/-- The others keep theirs. -/
theorem setState_state_of_ne (h : q ≠ r) : (l.setState r st).state q = l.state q := by
  simp [setState, h]

end Entries

section Facts

variable {maxActive : Nat} {l : Life} {r : RequestPtr}

/-- What was dequeued was pushed. -/
theorem Inv.pushed_of_dequeued (h : Inv maxActive l) (hr : r ∈ l.dequeued) :
    r ∈ l.pushed := by
  rw [h.fifo]
  exact List.mem_append_left _ hr

/-- What waits was pushed. -/
theorem Inv.pushed_of_pending (h : Inv maxActive l) (hr : r ∈ l.pending) :
    r ∈ l.pushed := by
  rw [h.fifo]
  exact List.mem_append_right _ hr

/-- A request that waits has not been dequeued. -/
theorem Inv.not_dequeued_of_pending (h : Inv maxActive l) (hr : r ∈ l.pending) :
    r ∉ l.dequeued := by
  intro hd
  have hnd := h.pushed_nodup
  rw [h.fifo] at hnd
  exact (List.nodup_append'.mp hnd).2.2 hd hr

/-- What waits is not active. -/
theorem Inv.not_active_of_pending (h : Inv maxActive l) (hr : r ∈ l.pending) :
    r ∉ l.active :=
  fun ha => h.not_dequeued_of_pending hr (h.active_dequeued r ha)

/-- Leaving out a request that is not active leaves out nothing. -/
theorem active_without_of_not_mem (hr : r ∉ l.active) :
    l.active.filter (fun q => some q ≠ some r) = l.active := by
  rw [List.filter_eq_self]
  intro q hq
  have hne : q ≠ r := fun hqr => hr (hqr ▸ hq)
  simpa using hne

/-- Leaving out an active request shortens the list by one. -/
theorem Inv.active_without_length (h : Inv maxActive l) (hr : r ∈ l.active) :
    (l.active.filter (fun q => some q ≠ some r)).length + 1 = l.active.length := by
  have herase : l.active.filter (fun q => some q ≠ some r) = l.active.erase r := by
    rw [h.active_nodup.erase_eq_filter]
    refine List.filter_congr (fun q _ => ?_)
    by_cases hqr : q = r <;> simp [hqr]
  have hpos := List.length_pos_of_mem hr
  rw [herase, List.length_erase_of_mem hr]
  omega

/-- The count with no request held. -/
theorem Book.count_none (h : Book none l) :
    l.settled + l.active.length = l.dequeued.length := by
  have hcount := h.count
  simp only [ne_eq, reduceCtorEq, not_false_eq_true, decide_true,
    List.filter_true, Option.toList_none, List.length_nil] at hcount
  exact hcount

/-- The count while one request is held. -/
theorem Book.count_some (h : Book (some r) l) :
    l.settled + (l.active.filter (fun q => some q ≠ some r)).length + 1 =
      l.dequeued.length := h.count

end Facts

/-! ## Submit calls -/

/-- Before its registration. -/
structure Unsubmitted (maxActive : Nat) (r : RequestPtr) (l : Life) : Prop where
  inv : Inv maxActive l
  fresh : r ∉ l.registered
  received : l.state r = .received

/-- Registered, not yet pushed. -/
structure Announced (maxActive : Nat) (r : RequestPtr) (st : RequestState)
    (l : Life) : Prop where
  inv : Inv maxActive l
  registered : r ∈ l.registered
  unpushed : r ∉ l.pushed
  state : l.state r = st

section Submit

variable {maxActive : Nat} {l l' : Life} {r : RequestPtr} {st st' : RequestState}

/-- A request that was not submitted was not pushed. -/
theorem Unsubmitted.unpushed (h : Unsubmitted maxActive r l) : r ∉ l.pushed :=
  fun hr => h.fresh (h.inv.pushed_registered r hr)

/-- It stays so as long as nobody touches it. -/
theorem Unsubmitted.untouched (h : Unsubmitted maxActive r l)
    (hinv : Inv maxActive l') (hu : Untouched r l l') : Unsubmitted maxActive r l' := by
  obtain ⟨_, hreg, hstate, _⟩ := hu.kept h.unpushed
  exact ⟨hinv, mt hreg.mp h.fresh, hstate.trans h.received⟩

/-- The same for a request that is registered. -/
theorem Announced.untouched (h : Announced maxActive r st l)
    (hinv : Inv maxActive l') (hu : Untouched r l l') :
    Announced maxActive r st l' := by
  obtain ⟨hpush, hreg, hstate, _⟩ := hu.kept h.unpushed
  exact ⟨hinv, hreg.mpr h.registered, hpush, hstate.trans h.state⟩

/-- A state change of a request that is not pushed breaks no invariant. -/
theorem Inv.setState (h : Inv maxActive l) (r : RequestPtr) (st : RequestState) :
    Inv maxActive (l.setState r st) :=
  ⟨h.ids, h.fifo, h.pushed_nodup, h.pushed_registered, h.active_nodup,
    h.active_dequeued, h.active_le, h.keys, h.announced⟩

/-- A legal change of one state is legal for all requests. -/
theorem legal_setState (h : Legal (l.state r) st) (q : RequestPtr) :
    (l.setState r st).state q = l.state q ∨
      Legal (l.state q) ((l.setState r st).state q) := by
  by_cases hq : q = r
  · subst hq
    right
    simpa using h
  · exact Or.inl (setState_state_of_ne hq)

/-- A submit call changes the state of its own request. -/
theorem submitStep_setState (hinv : Inv maxActive l) (hun : r ∉ l.pushed)
    (hlegal : Legal (l.state r) st) : SubmitStep maxActive r l (l.setState r st) := by
  refine ⟨⟨rfl, rfl, rfl, rfl, ⟨[], by simp [Life.setState]⟩, ?_⟩, ?_,
    hinv.setState r st, legal_setState hlegal⟩
  · intro q hq
    exact ⟨setState_state_of_ne (fun h => hun (h ▸ hq)), rfl⟩
  · intro q hq
    exact ⟨Iff.rfl, Iff.rfl, setState_state_of_ne hq, rfl⟩

/-- A submit call may put its registered request into its next state. -/
theorem Announced.setState (h : Announced maxActive r st l) (hlegal : Legal st st') :
    SubmitStep maxActive r l (l.setState r st') ∧
      Announced maxActive r st' (l.setState r st') :=
  ⟨submitStep_setState h.inv h.unpushed (h.state ▸ hlegal),
    h.inv.setState r st', h.registered, h.unpushed, setState_state_self⟩

/-- It may register the request when it was not submitted before. -/
theorem Unsubmitted.register (h : Unsubmitted maxActive r l) :
    SubmitStep maxActive r l (l.register r) ∧
      Announced maxActive r .received (l.register r) := by
  have hunpushed := h.unpushed
  have hinv : Inv maxActive (l.register r) := by
    refine ⟨h.inv.ids, h.inv.fifo, h.inv.pushed_nodup, ?_, h.inv.active_nodup,
      h.inv.active_dequeued, h.inv.active_le, ?_, ?_⟩
    · intro q hq
      exact List.mem_append_left _ (h.inv.pushed_registered q hq)
    · intro k q hk
      by_cases hkr : k = l.id r
      · subst hkr
        have hq : r = q := by simpa [Life.register] using hk
        subst hq
        exact ⟨rfl, by simp [Life.register]⟩
      · have hold : l.registry.lookup k = some q := by
          simpa [Life.register, AList.lookup_insert_ne hkr] using hk
        obtain ⟨hkey, hmem⟩ := h.inv.keys k q hold
        exact ⟨hkey, List.mem_append_left _ hmem⟩
    · intro q hq hqp
      by_cases hqr : q = r
      · rw [hqr, register_entry_self]
      · rw [register_entry_of_ne h.inv.ids hqr]
        have hmem : q ∈ l.registered := by
          simpa [Life.register, hqr] using hq
        exact h.inv.announced q hmem hqp
  refine ⟨⟨⟨rfl, rfl, rfl, rfl, ⟨[], by simp [Life.register]⟩, ?_⟩, ?_, hinv,
    fun _ => Or.inl rfl⟩, hinv, by simp [Life.register], hunpushed, h.received⟩
  · intro q hq
    exact ⟨rfl, register_entry_of_ne h.inv.ids (fun hqr => hunpushed (hqr ▸ hq))⟩
  · intro q hq
    exact ⟨Iff.rfl, by simp [Life.register, hq], rfl,
      register_entry_of_ne h.inv.ids hq⟩

/-- It may push the request when it is queued. -/
theorem Announced.push (h : Announced maxActive r .queued l) :
    SubmitStep maxActive r l (l.push r) := by
  have hinv : Inv maxActive (l.push r) := by
    refine ⟨h.inv.ids, ?_, ?_, ?_, h.inv.active_nodup, h.inv.active_dequeued,
      h.inv.active_le, h.inv.keys, ?_⟩
    · simp [Life.push, h.inv.fifo]
    · exact h.inv.pushed_nodup.append (List.nodup_singleton r)
        (by simpa using h.unpushed)
    · intro q hq
      rcases List.mem_append.mp hq with hq | hq
      · exact h.inv.pushed_registered q hq
      · rw [List.mem_singleton.mp hq]
        exact h.registered
    · intro q hq hqp
      exact h.inv.announced q hq (fun hmem => hqp (List.mem_append_left _ hmem))
  refine ⟨⟨rfl, rfl, rfl, rfl, ⟨[r], rfl, rfl, ?_⟩, fun _ _ => ⟨rfl, rfl⟩⟩, ?_, hinv,
    fun _ => Or.inl rfl⟩
  · intro q hq
    rw [List.mem_singleton.mp hq]
    exact ⟨h.state, h.inv.announced r h.registered h.unpushed⟩
  · intro q hq
    exact ⟨by simp [Life.push, hq], Iff.rfl, rfl, rfl⟩

end Submit

/-! ## The decode thread -/

/-- Between two requests: the books are exact, and the requests still to come
in this round are active. -/
structure Between (maxActive : Nat) (rest : List RequestPtr) (l : Life) : Prop where
  inv : Inv maxActive l
  book : Book none l
  rest_active : ∀ q ∈ rest, q ∈ l.active

/-- The decode thread holds `r`, which is in state `st` and on the active list
or not. -/
structure Holding (maxActive : Nat) (rest : List RequestPtr) (r : RequestPtr)
    (st : RequestState) (onList : Bool) (l : Life) : Prop where
  inv : Inv maxActive l
  book : Book (some r) l
  rest_active : ∀ q ∈ rest, q ∈ l.active ∧ q ≠ r
  state : l.state r = st
  entry : l.entry r = some r
  list : r ∈ l.active ↔ onList
  room : onList = false → l.active.length < maxActive

/-- The request is out of the list and the registry, only the count is due. -/
structure Leaving (maxActive : Nat) (rest : List RequestPtr) (r : RequestPtr)
    (l : Life) : Prop where
  inv : Inv maxActive l
  book : Book (some r) l
  rest_active : ∀ q ∈ rest, q ∈ l.active
  terminal : (l.state r).isTerminal
  entry : l.entry r = none
  list : r ∉ l.active

section Decode

variable {maxActive : Nat} {l l' : Life} {r : RequestPtr} {st st' : RequestState}
  {rest : List RequestPtr} {onList : Bool}

/-- Arrivals leave the books exact. -/
theorem Between.arrivals (h : Between maxActive rest l) (hinv : Inv maxActive l')
    (ha : Arrivals l l') : Between maxActive rest l' :=
  ⟨hinv, h.book.arrivals h.inv ha, by rw [ha.active_eq]; exact h.rest_active⟩

/-- The request in hand was pushed. -/
theorem Holding.pushed (h : Holding maxActive rest r st onList l) : r ∈ l.pushed :=
  h.inv.pushed_of_dequeued (h.book.held_dequeued r rfl)

/-- Arrivals leave it in hand. -/
theorem Holding.arrivals (h : Holding maxActive rest r st onList l)
    (hinv : Inv maxActive l') (ha : Arrivals l l') :
    Holding maxActive rest r st onList l' := by
  obtain ⟨hstate, hentry⟩ := ha.kept r h.pushed
  refine ⟨hinv, h.book.arrivals h.inv ha, ?_, hstate.trans h.state,
    hentry.trans h.entry, ?_, ?_⟩
  · rw [ha.active_eq]; exact h.rest_active
  · rw [ha.active_eq]; exact h.list
  · rw [ha.active_eq]; exact h.room

/-- They do not keep it from leaving. -/
theorem Leaving.arrivals (h : Leaving maxActive rest r l) (hinv : Inv maxActive l')
    (ha : Arrivals l l') : Leaving maxActive rest r l' := by
  obtain ⟨hstate, hentry⟩ :=
    ha.kept r (h.inv.pushed_of_dequeued (h.book.held_dequeued r rfl))
  refine ⟨hinv, h.book.arrivals h.inv ha, ?_, hstate ▸ h.terminal,
    hentry.trans h.entry, ?_⟩
  · rw [ha.active_eq]; exact h.rest_active
  · rw [ha.active_eq]; exact h.list

/-- Taking the oldest request out of the queue. -/
theorem Between.dequeue (h : Between maxActive [] l) (hpend : l.pending = r :: rest)
    (hroom : l.active.length < maxActive) :
    DecodeStep maxActive l (l.dequeue r rest) ∧
      Holding maxActive [] r .queued false (l.dequeue r rest) := by
  have hmem : r ∈ l.pending := by simp [hpend]
  have hnact := h.inv.not_active_of_pending hmem
  have hfifo : l.pushed = (l.dequeued ++ [r]) ++ rest := by
    simp [h.inv.fifo, hpend]
  have hnodup := h.inv.pushed_nodup
  rw [hfifo] at hnodup
  have hinv : Inv maxActive (l.dequeue r rest) :=
    ⟨h.inv.ids, hfifo, h.inv.pushed_nodup, h.inv.pushed_registered,
      h.inv.active_nodup,
      fun q hq => List.mem_append_left _ (h.inv.active_dequeued q hq),
      h.inv.active_le, h.inv.keys, h.inv.announced⟩
  have hwait := h.book.waiting r hmem
  refine ⟨⟨rfl, rfl, rfl, fun _ _ => ⟨rfl, rfl⟩, hinv, fun _ => Or.inl rfl⟩,
    hinv, ?_, by simp, hwait.1, hwait.2, by simpa [Life.dequeue] using hnact,
    fun _ => hroom⟩
  constructor
  · have hcount := h.book.count_none
    simp only [Life.dequeue, active_without_of_not_mem hnact, List.length_append,
      Option.toList_some, List.length_singleton]
    omega
  · intro q hq
    exact h.book.waiting q (by rw [hpend]; exact List.mem_cons_of_mem _ hq)
  · intro q hq _
    exact h.book.running q hq (by simp)
  · intro q hq hqa hqr
    have hold : q ∈ l.dequeued := by
      rcases List.mem_append.mp hq with hq | hq
      · exact hq
      · exact absurd (congrArg some (List.mem_singleton.mp hq)) hqr
    exact h.book.gone q hold hqa (by simp)
  · intro q hq
    cases hq
    simp [Life.dequeue]

/-- Turning to the next active request of the round. -/
theorem Between.select (h : Between maxActive (r :: rest) l) (hr : r ∉ rest) :
    Holding maxActive rest r .decoding true l := by
  have hact := h.rest_active r List.mem_cons_self
  have hrun := h.book.running r hact (by simp)
  refine ⟨h.inv, ?_, ?_, hrun.1, hrun.2, by simpa using hact, by simp⟩
  · constructor
    · have hcount := h.book.count_none
      have hlength := h.inv.active_without_length hact
      simp only [Option.toList_some, List.length_singleton]
      omega
    · exact h.book.waiting
    · exact fun q hq _ => h.book.running q hq (by simp)
    · exact fun q hq hqa _ => h.book.gone q hq hqa (by simp)
    · intro q hq
      cases hq
      exact h.inv.active_dequeued r hact
  · intro q hq
    exact ⟨h.rest_active q (List.mem_cons_of_mem _ hq), fun hqr => hr (hqr ▸ hq)⟩

/-- A state change of the held request. -/
theorem Holding.setState (h : Holding maxActive rest r st onList l)
    (hlegal : Legal st st') :
    DecodeStep maxActive l (l.setState r st') ∧
      Holding maxActive rest r st' onList (l.setState r st') := by
  have hne : ∀ q, some q ≠ some r → (l.setState r st').state q = l.state q :=
    fun q hq => setState_state_of_ne (fun h => hq (congrArg some h))
  have hinv := h.inv.setState r st'
  refine ⟨⟨rfl, rfl, rfl, ?_, hinv, legal_setState (h.state ▸ hlegal)⟩, hinv, ?_,
    h.rest_active, setState_state_self, h.entry, h.list, h.room⟩
  · intro q hq
    exact ⟨setState_state_of_ne (fun hqr => hq (hqr ▸ h.pushed)), rfl⟩
  · refine ⟨h.book.count, ?_, ?_, ?_, h.book.held_dequeued⟩
    · intro q hq
      have hqr : q ≠ r := fun hqr => h.inv.not_dequeued_of_pending hq
        (hqr ▸ h.book.held_dequeued r rfl)
      rw [setState_state_of_ne hqr]
      exact h.book.waiting q hq
    · intro q hq hqr
      rw [hne q hqr]
      exact h.book.running q hq hqr
    · intro q hq hqa hqr
      rw [hne q hqr]
      exact h.book.gone q hq hqa hqr

/-- Striking the held request off the active list. -/
theorem Holding.deactivate (h : Holding maxActive rest r st onList l) :
    DecodeStep maxActive l (l.deactivate r) ∧
      Holding maxActive rest r st false (l.deactivate r) := by
  have hsub : ∀ q, q ∈ (l.deactivate r).active ↔ q ∈ l.active ∧ q ≠ r := by
    intro q
    simp [Life.deactivate]
  have hlen : (l.deactivate r).active.length ≤ l.active.length :=
    List.length_filter_le _ _
  have hroom : (l.deactivate r).active.length < maxActive := by
    by_cases hr : r ∈ l.active
    · have hlt : (l.deactivate r).active.length < l.active.length :=
        List.length_filter_lt_length_iff_exists.mpr ⟨r, hr, by simp⟩
      exact Nat.lt_of_lt_of_le hlt h.inv.active_le
    · have hoff : onList = false := by simpa using mt h.list.mpr hr
      exact Nat.lt_of_le_of_lt hlen (h.room hoff)
  have hinv : Inv maxActive (l.deactivate r) :=
    ⟨h.inv.ids, h.inv.fifo, h.inv.pushed_nodup, h.inv.pushed_registered,
      h.inv.active_nodup.filter _,
      fun q hq => h.inv.active_dequeued q ((hsub q).mp hq).1,
      hroom.le, h.inv.keys, h.inv.announced⟩
  refine ⟨⟨rfl, rfl, rfl, fun _ _ => ⟨rfl, rfl⟩, hinv, fun _ => Or.inl rfl⟩,
    hinv, ?_, ?_, h.state, h.entry, by simp [hsub], fun _ => hroom⟩
  · refine ⟨?_, h.book.waiting, ?_, ?_, h.book.held_dequeued⟩
    · have hsame : (l.deactivate r).active.filter (fun q => some q ≠ some r) =
          l.active.filter (fun q => some q ≠ some r) := by
        simp only [Life.deactivate, List.filter_filter]
        exact List.filter_congr (fun q _ => by simp)
      rw [hsame]
      exact h.book.count
    · intro q hq hqr
      exact h.book.running q ((hsub q).mp hq).1 hqr
    · intro q hq hqa hqr
      refine h.book.gone q hq (fun hmem => hqa ((hsub q).mpr ⟨hmem, ?_⟩)) hqr
      exact fun hq => hqr (congrArg some hq)
  · intro q hq
    obtain ⟨hact, hne⟩ := h.rest_active q hq
    exact ⟨(hsub q).mpr ⟨hact, hne⟩, hne⟩

/-- Removing the registry entry of a finished request. -/
theorem Holding.unregister (h : Holding maxActive rest r st false l)
    (hterm : st.isTerminal) :
    DecodeStep maxActive l (l.unregister r) ∧
      Leaving maxActive rest r (l.unregister r) := by
  have hids := h.inv.ids
  have hne : ∀ q, some q ≠ some r → (l.unregister r).entry q = l.entry q :=
    fun q hq => unregister_entry_of_ne hids (fun h => hq (congrArg some h))
  have hoff : r ∉ l.active := by simpa using h.list
  have hinv : Inv maxActive (l.unregister r) := by
    refine ⟨hids, h.inv.fifo, h.inv.pushed_nodup, h.inv.pushed_registered,
      h.inv.active_nodup, h.inv.active_dequeued, h.inv.active_le, ?_, ?_⟩
    · intro k q hk
      by_cases hkr : k = l.id r
      · subst hkr
        simp [Life.unregister] at hk
      · have hold : l.registry.lookup k = some q := by
          simpa [Life.unregister, AList.lookup_erase_ne hkr] using hk
        exact h.inv.keys k q hold
    · intro q hq hqp
      have hqr : q ≠ r := by
        intro hqr
        exact hqp (by rw [hqr]; exact h.pushed)
      rw [unregister_entry_of_ne hids hqr]
      exact h.inv.announced q hq hqp
  refine ⟨⟨rfl, rfl, rfl, ?_, hinv, fun _ => Or.inl rfl⟩,
    hinv, ?_, fun q hq => (h.rest_active q hq).1, ?_, unregister_entry_self, hoff⟩
  · intro q hq
    exact ⟨rfl, unregister_entry_of_ne hids (fun hqr => hq (hqr ▸ h.pushed))⟩
  · refine ⟨h.book.count, ?_, ?_, ?_, h.book.held_dequeued⟩
    · intro q hq
      have hqr : some q ≠ some r := fun hqr => h.inv.not_dequeued_of_pending hq
        (h.book.held_dequeued q hqr.symm)
      rw [hne q hqr]
      exact h.book.waiting q hq
    · intro q hq hqr
      rw [hne q hqr]
      exact h.book.running q hq hqr
    · intro q hq hqa hqr
      rw [hne q hqr]
      exact h.book.gone q hq hqa hqr
  · show (l.state r).isTerminal
    rw [h.state]
    exact hterm

/-- Counting a finished request closes its books. -/
theorem Leaving.settle (h : Leaving maxActive rest r l) :
    DecodeStep maxActive l l.settle ∧ Between maxActive rest l.settle := by
  have hinv : Inv maxActive l.settle :=
    ⟨h.inv.ids, h.inv.fifo, h.inv.pushed_nodup, h.inv.pushed_registered,
      h.inv.active_nodup, h.inv.active_dequeued, h.inv.active_le, h.inv.keys,
      h.inv.announced⟩
  refine ⟨⟨rfl, rfl, rfl, fun _ _ => ⟨rfl, rfl⟩, hinv, fun _ => Or.inl rfl⟩,
    hinv, ?_, h.rest_active⟩
  have hne : ∀ q, q ∈ l.active → some q ≠ some r :=
    fun q hq hqr => h.list (Option.some.inj hqr ▸ hq)
  constructor
  · have hcount := h.book.count_some
    rw [active_without_of_not_mem h.list] at hcount
    simp only [Life.settle, ne_eq, reduceCtorEq, not_false_eq_true, decide_true,
      List.filter_true, Option.toList_none, List.length_nil]
    omega
  · exact h.book.waiting
  · exact fun q hq _ => h.book.running q hq (hne q hq)
  · intro q hq hqa _
    by_cases hqr : some q = some r
    · rw [Option.some.inj hqr]
      exact ⟨h.terminal, h.entry⟩
    · exact h.book.gone q hq hqa hqr
  · exact fun q hq => absurd hq (by simp)

/-- Joining the active list. -/
theorem Holding.activate (h : Holding maxActive [] r .decoding false l) :
    DecodeStep maxActive l (l.activate r) ∧ Between maxActive [] (l.activate r) := by
  have hoff : r ∉ l.active := by simpa using h.list
  have hdeq := h.book.held_dequeued r rfl
  have hinv : Inv maxActive (l.activate r) := by
    refine ⟨h.inv.ids, h.inv.fifo, h.inv.pushed_nodup, h.inv.pushed_registered,
      ?_, ?_, ?_, h.inv.keys, h.inv.announced⟩
    · exact h.inv.active_nodup.append (List.nodup_singleton r) (by simpa using hoff)
    · intro q hq
      rcases List.mem_append.mp hq with hq | hq
      · exact h.inv.active_dequeued q hq
      · rw [List.mem_singleton.mp hq]
        exact hdeq
    · have := h.room rfl
      simp only [Life.activate, List.length_append, List.length_singleton]
      omega
  refine ⟨⟨rfl, rfl, rfl, fun _ _ => ⟨rfl, rfl⟩, hinv, fun _ => Or.inl rfl⟩,
    hinv, ?_, by simp⟩
  have hne : ∀ q, q ∈ l.active → some q ≠ some r :=
    fun q hq hqr => hoff (Option.some.inj hqr ▸ hq)
  constructor
  · have hcount := h.book.count_some
    rw [active_without_of_not_mem hoff] at hcount
    simp only [Life.activate, ne_eq, reduceCtorEq, not_false_eq_true, decide_true,
      List.filter_true, Option.toList_none, List.length_nil, List.length_append,
      List.length_singleton]
    omega
  · exact h.book.waiting
  · intro q hq _
    rcases List.mem_append.mp hq with hq | hq
    · exact h.book.running q hq (hne q hq)
    · rw [List.mem_singleton.mp hq]
      exact ⟨h.state, h.entry⟩
  · intro q hq hqa _
    refine h.book.gone q hq (fun hmem => hqa (List.mem_append_left _ hmem)) ?_
    intro hqr
    exact hqa (List.mem_append_right _ (by simpa using hqr))
  · exact fun q hq => absurd hq (by simp)

/-- A decode step that does not end the request. -/
theorem Holding.putBack (h : Holding maxActive rest r .decoding true l) :
    Between maxActive rest l := by
  have hon : r ∈ l.active := by simpa using h.list
  refine ⟨h.inv, ?_, fun q hq => (h.rest_active q hq).1⟩
  constructor
  · have hcount := h.book.count_some
    have hlength := h.inv.active_without_length hon
    simp only [ne_eq, reduceCtorEq, not_false_eq_true, decide_true,
      List.filter_true, Option.toList_none, List.length_nil]
    omega
  · exact h.book.waiting
  · intro q hq _
    by_cases hqr : q = r
    · rw [hqr]
      exact ⟨h.state, h.entry⟩
    · exact h.book.running q hq (fun hq' => hqr (Option.some.inj hq'))
  · intro q hq hqa _
    exact h.book.gone q hq hqa (fun hqr => hqa (Option.some.inj hqr ▸ hon))
  · exact fun q hq => absurd hq (by simp)

end Decode

end Life

end Qwen
