import Mathlib.Data.List.AList

/-!
# The values of a finite map, through a projection

A finite map that records who holds what is read backwards through a partial
projection of its values: `collect f m` lists what `f` sees.  Recording under a
fresh key adds one item and forgetting a key takes its item away.  While the
list has no duplicates, an item has one key.

A map filled from a list holds what the list says under each key.
-/

namespace AList

variable {α β γ : Type} [DecidableEq α] {f : β → Option γ} {m : AList fun _ : α => β}
  {k k' : α} {v v' : β} {x : γ}

/-- What the projection sees of the values. -/
def collect (f : β → Option γ) (m : AList fun _ : α => β) : List γ :=
  m.entries.filterMap fun e => f e.2

omit [DecidableEq α] in
@[simp] theorem collect_empty : collect f (∅ : AList fun _ : α => β) = [] := rfl

theorem mem_collect : x ∈ m.collect f ↔ ∃ k v, m.lookup k = some v ∧ f v = some x := by
  constructor
  · intro hx
    obtain ⟨e, he, hf⟩ := List.mem_filterMap.mp hx
    exact ⟨e.1, e.2, mem_lookup_iff.mpr he, hf⟩
  · rintro ⟨k, v, hk, hf⟩
    exact List.mem_filterMap.mpr ⟨⟨k, v⟩, mem_lookup_iff.mp hk, hf⟩

/-- A fresh key adds what is seen of its value. -/
theorem collect_insert (hk : k ∉ m) :
    (m.insert k v).collect f = (f v).toList ++ m.collect f := by
  unfold collect
  rw [entries_insert_of_notMem hk, List.filterMap_cons]
  cases f v <;> rfl

/-- Erasing a key takes away what is seen of its value. -/
theorem collect_erase (hk : m.lookup k = some v) :
    (m.collect f).Perm ((f v).toList ++ (m.erase k).collect f) := by
  have hmem : k ∈ m.entries.keys := lookup_isSome.mp (by rw [hk]; rfl)
  obtain ⟨b, l₁, l₂, -, hsplit, herase⟩ := List.exists_of_kerase hmem
  have hb : b = v := by
    have hlookup : m.lookup k = some b := mem_lookup_iff.mpr (by rw [hsplit]; simp)
    exact Option.some.inj (hlookup.symm.trans hk)
  subst hb
  have hentries : m.entries.Perm (⟨k, b⟩ :: (m.erase k).entries) := by
    show m.entries.Perm (⟨k, b⟩ :: List.kerase k m.entries)
    rw [herase, hsplit]
    exact List.perm_middle
  refine (hentries.filterMap _).trans ?_
  unfold collect
  rw [List.filterMap_cons]
  cases f b <;> exact List.Perm.refl _

/-- Without duplicates, an item is seen under one key. -/
theorem collect_key_unique (hnodup : (m.collect f).Nodup) (hk : m.lookup k = some v)
    (hk' : m.lookup k' = some v') (hv : f v = some x) (hv' : f v' = some x) : k = k' := by
  by_contra hne
  have hsplit := (collect_erase (f := f) hk).nodup_iff.mp hnodup
  rw [hv] at hsplit
  refine (List.nodup_cons.mp hsplit).1 (mem_collect.mpr ⟨k', v', ?_, hv'⟩)
  rw [lookup_erase_ne (Ne.symm hne)]
  exact hk'

/-! ## Filling a map from a list -/

section Fill

variable {ι : Type} {key : ι → α} {val : ι → β} {l : List ι}

/-- Filling a map leaves the other keys alone. -/
theorem lookup_foldl_insert_of_ne (h : ∀ i ∈ l, key i ≠ k) (m : AList fun _ : α => β) :
    (l.foldl (fun m i => m.insert (key i) (val i)) m).lookup k = m.lookup k := by
  induction l generalizing m with
  | nil => rfl
  | cons first rest ih =>
      rw [List.foldl_cons, ih fun i hi => h i (List.mem_cons_of_mem first hi)]
      exact lookup_insert_ne (Ne.symm (h first List.mem_cons_self))

/-- Where the items of a key agree on its value, filling a map puts it there. -/
theorem lookup_foldl_insert_of_mem (hkey : ∃ i ∈ l, key i = k)
    (hval : ∀ i ∈ l, key i = k → val i = v) (m : AList fun _ : α => β) :
    (l.foldl (fun m i => m.insert (key i) (val i)) m).lookup k = some v := by
  induction l generalizing m with
  | nil => simp at hkey
  | cons first rest ih =>
      rw [List.foldl_cons]
      by_cases hlater : ∃ i ∈ rest, key i = k
      · exact ih hlater (fun i hi => hval i (List.mem_cons_of_mem first hi)) _
      · have hfirst : key first = k := by
          obtain ⟨i, hi, hik⟩ := hkey
          rcases List.mem_cons.mp hi with rfl | hi
          · exact hik
          · exact absurd ⟨i, hi, hik⟩ hlater
        have hothers : ∀ i ∈ rest, key i ≠ k := fun i hi hik => hlater ⟨i, hi, hik⟩
        rw [lookup_foldl_insert_of_ne hothers, hfirst, lookup_insert,
          hval first List.mem_cons_self hfirst]

end Fill

end AList
