import Mathlib.Algebra.Order.Field.Basic
import Mathlib.Algebra.Order.Ring.Rat
import Mathlib.Tactic.FieldSimp
import WinInference.Core.Sampler

/-!
# The repetition penalty

`apply_repetition_penalty` changes the logits in place, one previous token after
the other.  A logit keeps its sign under the penalty, so in exact arithmetic the
order of the tokens makes no difference: a logit comes out penalized once for
each time its token occurs.

`penalizedLogit` is one token's penalty taken a number of times.
`penalize_penalized` is one pass of the loop, `applyRepetitionPenalty_penalized`
the loop, and `penalized_inj` says when two lists of tokens penalize alike: they
hold each token equally often, unless its logit is zero or the penalty is one.
-/

namespace Qwen

namespace Sampler

variable {K : Type} [Field K] [LinearOrder K]

/-- A logit penalized `times` times. -/
def penalizedLogit (penalty : K) (times : Nat) (logit : K) : K :=
  if logit > 0 then logit / penalty ^ times else logit * penalty ^ times

/-- The logits with each token penalized as often as it occurs. -/
def penalized (penalty : K) (tokens : List Int) (logits : List K) : List K :=
  logits.mapIdx fun i logit => penalizedLogit penalty (tokens.count (i : Int)) logit

/-! ## One logit -/

@[simp] theorem penalizedLogit_zero (penalty logit : K) :
    penalizedLogit penalty 0 logit = logit := by
  unfold penalizedLogit
  split <;> simp

@[simp] theorem penalizedLogit_one (times : Nat) (logit : K) :
    penalizedLogit 1 times logit = logit := by
  unfold penalizedLogit
  split <;> simp

section Positive

variable [IsStrictOrderedRing K] {penalty : K}

/-- The penalty keeps the sign of a logit. -/
theorem penalizedLogit_pos_iff (hpenalty : 0 < penalty) (times : Nat) (logit : K) :
    penalizedLogit penalty times logit > 0 ↔ logit > 0 := by
  have hpow : 0 < penalty ^ times := pow_pos hpenalty times
  unfold penalizedLogit
  split
  next hpos => exact iff_of_true (div_pos hpos hpow) hpos
  next hneg =>
    have hle := mul_nonpos_of_nonpos_of_nonneg (not_lt.mp hneg) hpow.le
    exact iff_of_false (not_lt_of_ge hle) hneg

/-- One penalty more. -/
theorem penalizedLogit_succ (hpenalty : 0 < penalty) (times : Nat) (logit : K) :
    penalizedLogit penalty (times + 1) logit =
      if penalizedLogit penalty times logit > 0 then penalizedLogit penalty times logit / penalty
      else penalizedLogit penalty times logit * penalty := by
  have hsign := penalizedLogit_pos_iff hpenalty times logit
  by_cases hpos : logit > 0
  · rw [if_pos (hsign.mpr hpos)]
    unfold penalizedLogit
    rw [if_pos hpos, if_pos hpos, pow_succ, div_div]
  · rw [if_neg (hsign.not.mpr hpos)]
    unfold penalizedLogit
    rw [if_neg hpos, if_neg hpos, pow_succ, mul_assoc]

/-- The number of penalties shows, unless the logit or the penalty hides it. -/
theorem penalizedLogit_inj (hpenalty : 0 < penalty) {m n : Nat} {logit : K} :
    penalizedLogit penalty m logit = penalizedLogit penalty n logit ↔
      m = n ∨ logit = 0 ∨ penalty = 1 := by
  by_cases hone : penalty = 1
  · subst hone
    simp
  have hpow : penalty ^ m = penalty ^ n ↔ m = n := pow_right_inj₀ hpenalty hone
  unfold penalizedLogit
  split
  next hpos =>
    rw [div_eq_div_iff (pow_pos hpenalty m).ne' (pow_pos hpenalty n).ne',
      mul_right_inj' (ne_of_gt hpos), eq_comm, hpow]
    simp [hone, ne_of_gt hpos]
  next hneg =>
    rw [mul_eq_mul_left_iff, hpow]
    simp [hone]

/-! ## All logits -/

omit [IsStrictOrderedRing K] in
@[simp] theorem penalized_length (tokens : List Int) (logits : List K) :
    (penalized penalty tokens logits).length = logits.length :=
  List.length_mapIdx

omit [IsStrictOrderedRing K] in
theorem penalized_getElem? (tokens : List Int) (logits : List K) (i : Nat) :
    (penalized penalty tokens logits)[i]? =
      (logits[i]?).map (penalizedLogit penalty (tokens.count (i : Int))) :=
  List.getElem?_mapIdx

omit [IsStrictOrderedRing K] in
@[simp] theorem penalized_nil (logits : List K) : penalized penalty [] logits = logits := by
  apply List.ext_getElem?
  intro i
  rw [penalized_getElem?]
  cases logits[i]? <;> simp

omit [IsStrictOrderedRing K] in
@[simp] theorem penalized_one (tokens : List Int) (logits : List K) :
    penalized 1 tokens logits = logits := by
  apply List.ext_getElem?
  intro i
  rw [penalized_getElem?]
  cases logits[i]? <;> simp

theorem count_concat (before : List Int) (token i : Int) :
    (before ++ [token]).count i = before.count i + if token = i then 1 else 0 := by
  rw [List.count_append, List.count_singleton]
  simp

omit [IsStrictOrderedRing K] in
/-- One more occurrence of the token `i` changes the logit of this token. -/
theorem penalized_concat (before : List Int) (logits : List K) {i : Nat} (hi : i < logits.length) :
    penalized penalty (before ++ [(i : Int)]) logits =
      (penalized penalty before logits).set i
        (penalizedLogit penalty (before.count (i : Int) + 1) logits[i]) := by
  apply List.ext_getElem?
  intro j
  rw [List.getElem?_set, penalized_getElem?, penalized_getElem?, penalized_length, count_concat]
  by_cases hij : i = j
  · subst hij
    simp [hi]
  · have hne : (i : Int) ≠ j := by exact_mod_cast hij
    rw [if_neg hij, if_neg hne, Nat.add_zero]

omit [IsStrictOrderedRing K] in
/-- An occurrence of a token without a logit changes nothing. -/
theorem penalized_concat_outside (before : List Int) (logits : List K) {token : Int}
    (htoken : ¬ (token ≥ 0 ∧ token < logits.length)) :
    penalized penalty (before ++ [token]) logits = penalized penalty before logits := by
  apply List.ext_getElem?
  intro i
  rw [penalized_getElem?, penalized_getElem?, count_concat]
  by_cases hi : i < logits.length
  · have hne : token ≠ i := by omega
    rw [if_neg hne, Nat.add_zero]
  · rw [List.getElem?_eq_none (Nat.le_of_not_lt hi)]
    rfl

/-- The step of the loop: one more occurrence of one token. -/
theorem penalize_penalized (hpenalty : 0 < penalty) (before : List Int) (logits : List K)
    {token : Int} (htoken : token < 2 ^ 31) :
    penalize penalty (penalized penalty before logits) token =
      some (penalized penalty (before ++ [token]) logits) := by
  unfold penalize
  rw [penalized_length]
  split
  next hrange =>
    obtain ⟨i, rfl⟩ := Int.eq_ofNat_of_zero_le hrange.1
    have hi : i < logits.length := by exact_mod_cast hrange.2
    have hposition : Wrapping.ofInt 64 (i : Int) = i := Wrapping.ofInt_of_lt (by omega)
    have hread : readAt (penalized penalty before logits) i =
        some (penalizedLogit penalty (before.count (i : Int)) logits[i]) := by
      unfold readAt
      rw [hposition, penalized_getElem?, List.getElem?_eq_getElem hi]
      rfl
    rw [penalized_concat before logits hi, penalizedLogit_succ hpenalty, hread]
    dsimp only [Option.bind_eq_bind, Option.bind_some]
    rw [divide, if_neg hpenalty.ne']
    split <;> rfl
  next hrange => rw [penalized_concat_outside before logits hrange]

/-- The loop, from any number of penalties on. -/
theorem applyRepetitionPenalty_penalized (hpenalty : 0 < penalty) (before : List Int)
    (logits : List K) {tokens : List Int} (htokens : ∀ t ∈ tokens, t < 2 ^ 31) :
    applyRepetitionPenalty (penalized penalty before logits) tokens penalty =
      some (penalized penalty (before ++ tokens) logits) := by
  unfold applyRepetitionPenalty
  induction tokens generalizing before with
  | nil =>
      rw [List.append_nil]
      rfl
  | cons token rest ih =>
      rw [List.foldlM_cons,
        penalize_penalized hpenalty before logits (htokens token List.mem_cons_self),
        Option.bind_eq_bind, Option.bind_some,
        ih (before ++ [token]) fun t ht => htokens t (List.mem_cons_of_mem _ ht),
        List.append_assoc, List.singleton_append]

/-- What the penalty comes to. -/
theorem applyRepetitionPenalty_eq (hpenalty : 0 < penalty) (logits : List K) {tokens : List Int}
    (htokens : ∀ t ∈ tokens, t < 2 ^ 31) :
    applyRepetitionPenalty logits tokens penalty = some (penalized penalty tokens logits) := by
  have hloop := applyRepetitionPenalty_penalized hpenalty [] logits htokens
  rwa [penalized_nil, List.nil_append] at hloop

/-- Two lists of tokens penalize alike, if every logit whose token they hold
differently often is hidden by its value or by the penalty. -/
theorem penalized_inj (hpenalty : 0 < penalty) {tokens tokens' : List Int} {logits : List K} :
    penalized penalty tokens logits = penalized penalty tokens' logits ↔
      ∀ (i : Nat) (logit : K), logits[i]? = some logit →
        tokens.count (i : Int) = tokens'.count (i : Int) ∨ logit = 0 ∨ penalty = 1 := by
  constructor
  · intro hsame i logit hlogit
    have hat : (penalized penalty tokens logits)[i]? = (penalized penalty tokens' logits)[i]? :=
      congrArg (·[i]?) hsame
    rw [penalized_getElem?, penalized_getElem?, hlogit] at hat
    exact (penalizedLogit_inj hpenalty).mp (Option.some.inj hat)
  · intro hall
    apply List.ext_getElem?
    intro i
    rw [penalized_getElem?, penalized_getElem?]
    cases hlogit : logits[i]? with
    | none => rfl
    | some logit => exact congrArg some ((penalizedLogit_inj hpenalty).mpr (hall i logit hlogit))

/-- **The penalty counts occurrences.**  For tokens of type `int32_t` it always
succeeds, and changes the logits of occurring tokens only, each as often as its
token occurs; so two lists of tokens give the same logits if and only if every
logit has its token as often in one as in the other, or is zero, or the penalty
is one.  Where no token with a logit is repeated, the elements of the lists are
enough. -/
theorem applyRepetitionPenalty_occurrences (hpenalty : 0 < penalty) (logits : List K)
    {tokens tokens' : List Int} (htokens : ∀ t ∈ tokens, t < 2 ^ 31)
    (htokens' : ∀ t ∈ tokens', t < 2 ^ 31) :
    ∃ after after', applyRepetitionPenalty logits tokens penalty = some after ∧
      applyRepetitionPenalty logits tokens' penalty = some after' ∧
      after.length = logits.length ∧
      (∀ (i : Nat) (logit : K), logits[i]? = some logit →
        after[i]? = some (if logit > 0 then logit / penalty ^ tokens.count (i : Int)
          else logit * penalty ^ tokens.count (i : Int))) ∧
      (∀ i : Nat, (i : Int) ∉ tokens → after[i]? = logits[i]?) ∧
      (after = after' ↔ ∀ (i : Nat) (logit : K), logits[i]? = some logit →
        tokens.count (i : Int) = tokens'.count (i : Int) ∨ logit = 0 ∨ penalty = 1) ∧
      ((∀ i < logits.length, tokens.count (i : Int) ≤ 1 ∧ tokens'.count (i : Int) ≤ 1 ∧
        ((i : Int) ∈ tokens ↔ (i : Int) ∈ tokens')) → after = after') := by
  refine ⟨_, _, applyRepetitionPenalty_eq hpenalty logits htokens,
    applyRepetitionPenalty_eq hpenalty logits htokens', penalized_length tokens logits,
    ?_, ?_, penalized_inj hpenalty, ?_⟩
  · intro i logit hlogit
    rw [penalized_getElem?, hlogit]
    rfl
  · intro i hi
    rw [penalized_getElem?, List.count_eq_zero_of_not_mem hi]
    cases logits[i]? <;> simp
  · intro honce
    apply (penalized_inj hpenalty).mpr
    intro i logit hlogit
    obtain ⟨hi, -⟩ := List.getElem?_eq_some_iff.mp hlogit
    obtain ⟨hcount, hcount', hmem⟩ := honce i hi
    rw [← List.count_pos_iff, ← List.count_pos_iff] at hmem
    left
    omega

end Positive

theorem applyRepetitionPenalty_occurrences_sample :
    ∃ after after', applyRepetitionPenalty [(2 : ℚ), -1, 3] [0, 1, -1] 2 = some after ∧
      applyRepetitionPenalty [(2 : ℚ), -1, 3] [7, 1, 0] 2 = some after' ∧
      (2 : Int) ∉ [(0 : Int), 1, -1] ∧ after[2]? = some 3 ∧ after = after' := by
  have hpenalty : (0 : ℚ) < 2 := two_pos
  have htokens : ∀ t ∈ [(0 : Int), 1, -1], t < 2 ^ 31 := by decide
  have htokens' : ∀ t ∈ [(7 : Int), 1, 0], t < 2 ^ 31 := by decide
  obtain ⟨after, after', hafter, hafter', -, -, hkept, -, hsame⟩ :=
    applyRepetitionPenalty_occurrences hpenalty [2, -1, 3] htokens htokens'
  refine ⟨after, after', hafter, hafter', by decide, hkept 2 (by decide), hsame ?_⟩
  decide

/-- A token that occurs twice is penalized twice. -/
theorem applyRepetitionPenalty_repeated :
    (∀ t : Int, t ∈ [(0 : Int)] ↔ t ∈ [(0 : Int), 0]) ∧
      applyRepetitionPenalty [(2 : ℚ)] [0] 2 = some [1] ∧
      applyRepetitionPenalty [(2 : ℚ)] [0, 0] 2 = some [1 / 2] ∧ (1 : ℚ) ≠ 1 / 2 := by
  refine ⟨by simp, by decide +kernel, by decide +kernel, by norm_num⟩

end Sampler

end Qwen
