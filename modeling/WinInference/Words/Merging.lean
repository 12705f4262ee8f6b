import Mathlib.Data.List.Infix

/-!
# Merging neighbours in a word

A pass replaces every pair `a b` of neighbours by the letter `c`, from left to
right and without overlaps; a single merge replaces the leftmost such pair.
When `c` is neither `a` nor `b`, a merge makes no new pair, so a pass is a
sequence of single merges.

`mergeAll_mergeFirst` is the step from a pass to single merges, and
`neighbours_mergeFirst` says that a merge makes no new pair.
`length_mergeAll_lt` bounds the number of passes, and `flatten_mergeAll` keeps
the text that the letters stand for.
-/

namespace Words

variable {α : Type}

/-- `a` and `b` stand next to each other. -/
def Neighbours (a b : α) (word : List α) : Prop := [a, b] <:+: word

theorem neighbours_cons {a b x y : α} {rest : List α} :
    Neighbours a b (x :: y :: rest) ↔ (a = x ∧ b = y) ∨ Neighbours a b (y :: rest) := by
  unfold Neighbours
  rw [List.infix_cons_iff]
  refine or_congr_left ?_
  simp [List.cons_prefix_cons]

theorem not_neighbours_singleton {a b x : α} : ¬ Neighbours a b [x] := by
  intro h
  have hlength := h.length_le
  simp at hlength

theorem not_neighbours_nil {a b : α} : ¬ Neighbours a b [] := by
  intro h
  have hlength := h.length_le
  simp at hlength

/-- The neighbours of a word, in order. -/
theorem mem_zip_tail {a b : α} {word : List α} :
    (a, b) ∈ word.zip word.tail ↔ Neighbours a b word := by
  induction word with
  | nil => simp [not_neighbours_nil]
  | cons x rest ih =>
      cases rest with
      | nil => simp [not_neighbours_singleton]
      | cons y rest =>
          rw [neighbours_cons, ← ih]
          simp

variable [DecidableEq α]

/-- Replace all pairs, from left to right. -/
def mergeAll (a b c : α) : List α → List α
  | x :: y :: rest =>
      if x = a ∧ y = b then c :: mergeAll a b c rest else x :: mergeAll a b c (y :: rest)
  | word => word

/-- Replace the leftmost pair. -/
def mergeFirst (a b c : α) : List α → List α
  | x :: y :: rest =>
      if x = a ∧ y = b then c :: rest else x :: mergeFirst a b c (y :: rest)
  | word => word

variable {a b c : α} {word : List α}

/-- Where the leftmost pair is. -/
theorem mergeFirst_split (h : Neighbours a b word) :
    ∃ before after, word = before ++ a :: b :: after ∧
      mergeFirst a b c word = before ++ c :: after ∧ ¬ Neighbours a b (before ++ [a]) := by
  induction word with
  | nil => exact absurd h not_neighbours_nil
  | cons x rest ih =>
      cases rest with
      | nil => exact absurd h not_neighbours_singleton
      | cons y rest =>
          by_cases hpair : x = a ∧ y = b
          · obtain ⟨rfl, rfl⟩ := hpair
            refine ⟨[], rest, rfl, ?_, not_neighbours_singleton⟩
            simp [mergeFirst]
          · have hlater : Neighbours a b (y :: rest) := by
              rcases neighbours_cons.mp h with ⟨rfl, rfl⟩ | hlater
              · exact absurd ⟨rfl, rfl⟩ hpair
              · exact hlater
            obtain ⟨before, after, hword, hmerge, hnone⟩ := ih hlater
            refine ⟨x :: before, after, congrArg (x :: ·) hword, ?_, ?_⟩
            · rw [mergeFirst, if_neg hpair, hmerge]
              rfl
            · cases before with
              | nil =>
                  intro hpair'
                  obtain ⟨rfl, rfl⟩ := List.cons.inj hword
                  rcases neighbours_cons.mp hpair' with ⟨rfl, rfl⟩ | hlast
                  · exact hpair ⟨rfl, rfl⟩
                  · exact not_neighbours_singleton hlast
              | cons z before =>
                  obtain ⟨rfl, -⟩ := List.cons.inj hword
                  intro hpair'
                  rcases neighbours_cons.mp hpair' with ⟨rfl, rfl⟩ | hlast
                  · exact hpair ⟨rfl, rfl⟩
                  · exact hnone hlast

theorem mergeAll_of_not_neighbours (h : ¬ Neighbours a b word) : mergeAll a b c word = word := by
  fun_induction mergeAll a b c word with
  | case1 x y rest hpair _ =>
      obtain ⟨rfl, rfl⟩ := hpair
      exact absurd (neighbours_cons.mpr (Or.inl ⟨rfl, rfl⟩)) h
  | case2 x y rest hpair ih =>
      rw [ih fun hlater => h (neighbours_cons.mpr (Or.inr hlater))]
  | case3 => rfl

/-- A pass merges the leftmost pair first. -/
theorem mergeAll_mergeFirst (hca : c ≠ a) (hcb : c ≠ b) :
    mergeAll a b c (mergeFirst a b c word) = mergeAll a b c word := by
  induction word with
  | nil => rfl
  | cons x rest ih =>
      cases rest with
      | nil => rfl
      | cons y rest =>
          by_cases hpair : x = a ∧ y = b
          · -- the new letter begins no pair
            have hskip : mergeAll a b c (c :: rest) = c :: mergeAll a b c rest := by
              cases rest with
              | nil => rfl
              | cons z rest => rw [mergeAll, if_neg fun h => hca h.1]
            rw [mergeFirst, if_pos hpair, hskip, mergeAll, if_pos hpair]
          · rw [mergeFirst, if_neg hpair, mergeAll, if_neg hpair, ← ih]
            -- nor does it end one
            cases rest with
            | nil =>
                show mergeAll a b c [x, y] = x :: mergeAll a b c [y]
                rw [mergeAll, if_neg hpair]
            | cons z rest =>
                by_cases hnext : y = a ∧ z = b
                · rw [mergeFirst, if_pos hnext, mergeAll, if_neg fun h => hcb h.2]
                · rw [mergeFirst, if_neg hnext, mergeAll, if_neg hpair]

/-- What stands next to what after a merge. -/
theorem neighbours_mergeFirst {x y : α} (h : Neighbours x y (mergeFirst a b c word)) :
    Neighbours x y word ∨ x = c ∨ y = c := by
  fun_induction mergeFirst a b c word with
  | case1 p q rest hpair =>
      cases rest with
      | nil => exact absurd h not_neighbours_singleton
      | cons z rest =>
          rcases neighbours_cons.mp h with ⟨rfl, -⟩ | hlater
          · exact Or.inr (Or.inl rfl)
          · exact Or.inl (neighbours_cons.mpr (Or.inr (neighbours_cons.mpr (Or.inr hlater))))
  | case2 p q rest hpair ih =>
      cases hmerge : mergeFirst a b c (q :: rest) with
      | nil =>
          rw [hmerge] at h
          exact absurd h not_neighbours_singleton
      | cons z tail =>
          rw [hmerge] at h ih
          rcases neighbours_cons.mp h with ⟨rfl, rfl⟩ | hlater
          · -- the letter after the head is the old one or the new one
            have hhead : y = q ∨ y = c := by
              cases rest with
              | nil => exact Or.inl (List.cons.inj hmerge).1.symm
              | cons w rest =>
                  rw [mergeFirst] at hmerge
                  split at hmerge
                  · exact Or.inr (List.cons.inj hmerge).1.symm
                  · exact Or.inl (List.cons.inj hmerge).1.symm
            rcases hhead with rfl | rfl
            · exact Or.inl (neighbours_cons.mpr (Or.inl ⟨rfl, rfl⟩))
            · exact Or.inr (Or.inr rfl)
          · rcases ih hlater with hbefore | hnew
            · exact Or.inl (neighbours_cons.mpr (Or.inr hbefore))
            · exact Or.inr hnew
  | case3 => exact Or.inl h

theorem length_mergeAll_le : (mergeAll a b c word).length ≤ word.length := by
  fun_induction mergeAll a b c word with
  | case1 x y rest hpair ih =>
      simp only [List.length_cons]
      omega
  | case2 x y rest hpair ih =>
      simp only [List.length_cons] at ih ⊢
      omega
  | case3 => exact Nat.le_refl _

/-- A pass that finds a pair makes the word shorter. -/
theorem length_mergeAll_lt (h : Neighbours a b word) :
    (mergeAll a b c word).length < word.length := by
  fun_induction mergeAll a b c word with
  | case1 x y rest hpair ih =>
      have hle : (mergeAll a b c rest).length ≤ rest.length := length_mergeAll_le
      simp only [List.length_cons]
      omega
  | case2 x y rest hpair ih =>
      have hlater : Neighbours a b (y :: rest) := by
        rcases neighbours_cons.mp h with ⟨rfl, rfl⟩ | hlater
        · exact absurd ⟨rfl, rfl⟩ hpair
        · exact hlater
      have hlt := ih hlater
      simp only [List.length_cons] at hlt ⊢
      omega
  | case3 w hshort =>
      cases w with
      | nil => exact absurd h not_neighbours_nil
      | cons x rest =>
          cases rest with
          | nil => exact absurd h not_neighbours_singleton
          | cons y rest => exact absurd rfl (hshort x y rest)

/-- The letters after a pass. -/
theorem mem_mergeAll {x : α} (h : x ∈ mergeAll a b c word) :
    x ∈ word ∨ (x = c ∧ Neighbours a b word) := by
  fun_induction mergeAll a b c word with
  | case1 p q rest hpair ih =>
      obtain ⟨rfl, rfl⟩ := hpair
      rcases List.mem_cons.mp h with rfl | hrest
      · exact Or.inr ⟨rfl, neighbours_cons.mpr (Or.inl ⟨rfl, rfl⟩)⟩
      · rcases ih hrest with hold | ⟨rfl, -⟩
        · exact Or.inl (List.mem_cons_of_mem _ (List.mem_cons_of_mem _ hold))
        · exact Or.inr ⟨rfl, neighbours_cons.mpr (Or.inl ⟨rfl, rfl⟩)⟩
  | case2 p q rest hpair ih =>
      rcases List.mem_cons.mp h with rfl | hrest
      · exact Or.inl List.mem_cons_self
      · rcases ih hrest with hold | ⟨rfl, hlater⟩
        · exact Or.inl (List.mem_cons_of_mem _ hold)
        · exact Or.inr ⟨rfl, neighbours_cons.mpr (Or.inr hlater)⟩
  | case3 => exact Or.inl h

/-- The word keeps its meaning when `c` stands for `a` and `b`. -/
theorem flatten_mergeAll {β : Type} [DecidableEq β] (a b : List β) (word : List (List β)) :
    (mergeAll a b (a ++ b) word).flatten = word.flatten := by
  fun_induction mergeAll a b (a ++ b) word with
  | case1 x y rest hpair ih =>
      obtain ⟨rfl, rfl⟩ := hpair
      simp only [List.flatten_cons, ih, List.append_assoc]
  | case2 x y rest hpair ih => exact congrArg (x ++ ·) ih
  | case3 => rfl

theorem length_mergeFirst_lt (h : Neighbours a b word) :
    (mergeFirst a b c word).length < word.length := by
  obtain ⟨before, after, hword, hmerge, -⟩ := mergeFirst_split (c := c) h
  rw [hmerge, hword]
  simp

end Words
