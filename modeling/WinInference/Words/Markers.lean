import Mathlib.Data.List.Infix

/-!
# Markers in words

A word with no border, that is, none of whose proper suffixes begins it, can only
overlap a copy of itself entirely.  So the first place where such a marker
occurs splits a text in one way, whatever the text before it ends in.

`Unbordered.infix_of_append` says where a marker in a text with a copy of it can
lie, and `Unbordered.split_unique` that the text around the first copy is
determined.  `Headed` is the simpler case of a word whose first letter occurs in
it once.
-/

namespace Words

variable {α : Type}

/-- No proper suffix of the word begins it. -/
def Unbordered (marker : List α) : Prop :=
  ∀ k, 0 < k → k < marker.length → ¬ marker.drop k <+: marker

instance [DecidableEq α] (marker : List α) : Decidable (Unbordered marker) :=
  decidable_of_iff (∀ k < marker.length, 0 < k → ¬ marker.drop k <+: marker)
    ⟨fun h k hpos hlt => h k hlt hpos, fun h k hlt hpos => h k hpos hlt⟩

theorem unbordered_singleton (a : α) : Unbordered [a] := by
  intro k hpos hlt
  rw [List.length_singleton] at hlt
  omega

/-- If a marker follows two texts at the ends of the first of which it begins
before, then it occurs in the longer one. -/
theorem Unbordered.infix_of_append {marker first second rest rest' : List α}
    (h : Unbordered marker) (heq : first ++ (marker ++ rest) = second ++ (marker ++ rest'))
    (hlt : first.length < second.length) : marker <:+: second := by
  obtain ⟨between, hsecond⟩ : first <+: second := by
    have hwhole : first <+: second ++ (marker ++ rest') := by
      rw [← heq]
      exact List.prefix_append _ _
    exact List.prefix_of_prefix_length_le hwhole (List.prefix_append _ _) hlt.le
  have hbetween : marker ++ rest = between ++ (marker ++ rest') := by
    rw [← hsecond, List.append_assoc] at heq
    exact List.append_cancel_left heq
  have hpos : 0 < between.length := by
    have hlength := congrArg List.length hsecond
    rw [List.length_append] at hlength
    omega
  rcases Nat.lt_or_ge between.length marker.length with hshort | hlong
  · -- what lies between begins the marker, so the rest of the marker borders it
    exfalso
    obtain ⟨tail, htail⟩ : between <+: marker := by
      have hbegins : between <+: marker ++ rest := by
        rw [hbetween]
        exact List.prefix_append _ _
      exact List.prefix_of_prefix_length_le hbegins (List.prefix_append _ _) hshort.le
    have hdrop : marker.drop between.length = tail := by
      rw [← htail, List.drop_left]
    have hafter : tail ++ rest = marker ++ rest' := by
      rw [← htail, List.append_assoc, List.append_assoc] at hbetween
      have hcancel := List.append_cancel_left hbetween
      rwa [← List.append_assoc, htail] at hcancel
    have hbegins : tail <+: marker ++ rest' := by
      rw [← hafter]
      exact List.prefix_append _ _
    have hle : tail.length ≤ marker.length := by
      rw [← htail, List.length_append]
      omega
    refine h between.length hpos hshort ?_
    rw [hdrop]
    exact List.prefix_of_prefix_length_le hbegins (List.prefix_append _ _) hle
  · -- the marker begins what lies between
    have hbegins : between <+: marker ++ rest := by
      rw [hbetween]
      exact List.prefix_append _ _
    have hstarts : marker <+: between :=
      List.prefix_of_prefix_length_le (List.prefix_append _ _) hbegins hlong
    rw [← hsecond]
    exact hstarts.isInfix.trans (List.suffix_append first between).isInfix

/-- **Splitting at a marker.**  A text is split in one way at the first occurrence
of a marker without borders. -/
theorem Unbordered.split_unique {marker first second rest rest' : List α} (h : Unbordered marker)
    (hfirst : ¬ marker <:+: first) (hsecond : ¬ marker <:+: second)
    (heq : first ++ (marker ++ rest) = second ++ (marker ++ rest')) :
    first = second ∧ rest = rest' := by
  rcases Nat.lt_trichotomy first.length second.length with hlt | hsame | hgt
  · exact absurd (h.infix_of_append heq hlt) hsecond
  · obtain ⟨rfl, htail⟩ := List.append_inj heq hsame
    exact ⟨rfl, List.append_cancel_left htail⟩
  · exact absurd (h.infix_of_append heq.symm hgt) hfirst

/-! ## Markers that begin with a letter of their own -/

/-- The first letter of the word comes back nowhere in it. -/
def Headed (head : α) (word : List α) : Prop := ∃ tail, word = head :: tail ∧ head ∉ tail

/-- A marker that begins a text followed by another marker begins that text: none
lies across the seam. -/
theorem Headed.prefix_of_append {head : α} {marker other text rest : List α}
    (h : Headed head marker) (hother : Headed head other) (hne : text ≠ [])
    (hstarts : marker <+: text ++ (other ++ rest)) : marker <+: text := by
  rcases Nat.lt_or_ge text.length marker.length with hshort | hlong
  · exfalso
    obtain ⟨across, hacross⟩ : text <+: marker :=
      List.prefix_of_prefix_length_le (List.prefix_append _ _) hstarts hshort.le
    obtain ⟨tail, htail, hhead⟩ := h
    obtain ⟨otherTail, hotherTail, -⟩ := hother
    obtain ⟨c, before, rfl⟩ := List.exists_cons_of_ne_nil hne
    -- what lies across begins with the first letter of the other marker
    have hbegins : across <+: other ++ rest := by
      rw [← hacross] at hstarts
      exact (List.prefix_append_right_inj _).mp hstarts
    have hmem : head ∈ across := by
      cases across with
      | nil =>
          rw [List.append_nil] at hacross
          rw [hacross] at hshort
          exact absurd hshort (Nat.lt_irrefl _)
      | cons x across =>
          rw [hotherTail] at hbegins
          obtain ⟨rfl, -⟩ := List.cons_prefix_cons.mp hbegins
          exact List.mem_cons_self
    rw [← hacross] at htail
    obtain ⟨-, rfl⟩ := List.cons.inj htail
    exact hhead (List.mem_append_right _ hmem)
  · exact List.prefix_of_prefix_length_le hstarts (List.prefix_append _ _) hlong

end Words
