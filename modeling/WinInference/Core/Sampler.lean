import Mathlib.Algebra.Order.Field.Basic
import Mathlib.Algebra.Order.Floor.Ring
import WinInference.Utils.Basic
import WinInference.Sorting.Partial

/-!
# The sampler

`Sampler` (`core/sampler.cpp`) in exact arithmetic: the numbers are those of any
ordered field, and the exponential is any positive, strictly increasing function.
An access outside of a vector and a division by zero are `none`.

After the repetition penalty three paths lead to a token: greedy at a
temperature that is not positive, and otherwise top-k or top-p on the logits
divided by the temperature.  Every path returns the position of a logit,
narrowed to an `int`, with its probability and its logit.  Each call draws from
a generator of its own, seeded by the request or else from the default
generator, and the sampler does not keep it.
-/

namespace Qwen

/-- Sampling parameters. -/
structure SamplingParams (K : Type) [Zero K] [One K] where
  /-- Zero is greedy. -/
  temperature : K := 1
  topP : K := 1
  /-- Zero is disabled. -/
  topK : K := 0
  repetitionPenalty : K := 1
  seed : Option Int := none

/-- A sampled token with its probability and its logit. -/
structure SampleResult (K : Type) where
  tokenId : Int
  probability : K
  logit : K

/-- What the sampler uses of the standard library. -/
structure SamplingLibrary (K : Type) [Field K] [LinearOrder K] where
  exp : K → K
  exp_pos : ∀ x, 0 < exp x
  exp_strictMono : StrictMono exp
  partialSort : Sorting.PartialSort Nat
  /-- The states of a generator. -/
  State : Type
  seed : Nat → State
  next : State → Nat × State
  /-- A draw from the discrete distribution with these weights. -/
  draw : List K → State → Nat × State
  draw_lt : ∀ weights s, (draw weights s).1 < max 1 weights.length
  /-- The conversion to `int32_t` of a number outside of its range. -/
  castOutside : K → Int

/-- The generator behind requests without a seed. -/
structure Sampler {K : Type} [Field K] [LinearOrder K] (lib : SamplingLibrary K) where
  defaultRng : lib.State

namespace Sampler

variable {K : Type} [Field K] [LinearOrder K]

/-- A division, without a result for a divisor of zero. -/
def divide (a b : K) : Option K := if b = 0 then none else some (a / b)

/-- `v[i]` for a signed index. -/
def readAt (v : List K) (i : Int) : Option K := v[Wrapping.ofInt 64 i]?

/-! ## Logits -/

/-- Divide the logits by the temperature, unless it is one. -/
def applyTemperature (logits : List K) (temperature : K) : Option (List K) :=
  if temperature = 1 then some logits
  else logits.mapM fun logit => divide logit temperature

/-- The penalty for one previous token. -/
def penalize (penalty : K) (logits : List K) (token : Int) : Option (List K) :=
  if token ≥ 0 ∧ token < logits.length then do
    let logit ← readAt logits token
    if logit > 0 then
      let lower ← divide logit penalty
      return logits.set token.toNat lower
    else return logits.set token.toNat (logit * penalty)
  else some logits

/-- Penalize the logits of the previous tokens, one token after the other. -/
def applyRepetitionPenalty (logits : List K) (previousTokens : List Int) (penalty : K) :
    Option (List K) :=
  previousTokens.foldlM (penalize penalty) logits

/-- The loop of `std::max_element` from the index `i` on. -/
def maxElementFrom (best : Nat) (largest : K) : Nat → List K → Nat × K
  | _, [] => (best, largest)
  | i, x :: rest =>
      if largest < x then maxElementFrom i x (i + 1) rest
      else maxElementFrom best largest (i + 1) rest

/-- `std::max_element`: the first index of a largest entry, and the entry. -/
def maxElement : List K → Option (Nat × K)
  | [] => none
  | x :: rest => some (maxElementFrom 0 x 1 rest)

section Softmax

variable (lib : SamplingLibrary K)

/-- Compute softmax probabilities. -/
def softmax (logits : List K) : Option (List K) := do
  let (_, maxLogit) ← maxElement logits
  let exps := logits.map fun logit => lib.exp (logit - maxLogit)
  exps.mapM fun p => divide p exps.sum

/-! ## Sampling -/

/-- Optimized greedy: just find argmax. -/
def sampleGreedy (logits : List K) : Option (SampleResult K) := do
  let (index, maxLogit) ← maxElement logits
  return { tokenId := toInt32 index, probability := 1, logit := maxLogit }

/-- The indices of the logits, the first `m` by falling logit. -/
def partialSortIndices (logits : List K) (m : Nat) : List Nat :=
  lib.partialSort.run (fun a b => decide (logits.getD a 0 > logits.getD b 0)) m
    (List.range logits.length)

/-- The exponentials of the first `m` of the sorted logits, over the largest. -/
def expCandidates (logits : List K) (indices : List Nat) (m : Nat) : Option (List K) := do
  let first ← indices[0]?
  let maxLogit ← logits[first]?
  (indices.take m).mapM fun i => do
    let logit ← logits[i]?
    return lib.exp (logit - maxLogit)

/-- Sample an index and look up its token. -/
def sampleIndex (logits : List K) (indices : List Nat) (probs : List K) (rng : lib.State) :
    Option (SampleResult K × lib.State) := do
  let (sampledIdx, rng) := lib.draw probs rng
  let index ← indices[sampledIdx]?
  let tokenId := toInt32 index
  let probability ← probs[sampledIdx]?
  let logit ← readAt logits tokenId
  return ({ tokenId := tokenId, probability := probability, logit := logit }, rng)

/-- How many candidates are looked at. -/
def maxCandidates (vocabSize : Nat) (topP : K) : Nat :=
  min vocabSize (if topP ≥ 9 / 10 then 1000 else 256)

/-- The loop that finds the nucleus. -/
def nucleusLoop (sumExp topP : K) (cumsum : K) (nucleusSize : Nat) : List K → Option Nat
  | [] => some nucleusSize
  | e :: rest => do
      let prob ← divide e sumExp
      if cumsum + prob ≥ topP then return nucleusSize + 1
      else nucleusLoop sumExp topP (cumsum + prob) (nucleusSize + 1) rest

/-- What `sample_top_p` has found when it samples. -/
structure Nucleus (K : Type) where
  indices : List Nat
  expLogits : List K
  nucleusSize : Nat

/-- The largest logits, as many as it takes to reach `top_p`, or all candidates. -/
def findNucleus (logits : List K) (topP : K) : Option (Nucleus K) := do
  let m := maxCandidates logits.length topP
  let indices := partialSortIndices lib logits m
  let expLogits ← expCandidates lib logits indices m
  let nucleusSize ← nucleusLoop expLogits.sum topP 0 0 expLogits
  return { indices := indices, expLogits := expLogits, nucleusSize := nucleusSize }

/-- Top-p (nucleus) sampling. -/
def sampleTopP (logits : List K) (topP : K) (rng : lib.State) :
    Option (SampleResult K × lib.State) := do
  let nucleus ← findNucleus lib logits topP
  -- renormalize probabilities in nucleus
  let nucleusExp := nucleus.expLogits.take nucleus.nucleusSize
  let nucleusProbs ← nucleusExp.mapM fun p => divide p nucleusExp.sum
  sampleIndex lib logits nucleus.indices nucleusProbs rng

/-- Top-k sampling. -/
def sampleTopK (logits : List K) (topK : Int) (rng : lib.State) :
    Option (SampleResult K × lib.State) := do
  let k := min (Wrapping.ofInt 64 topK) logits.length
  let indices := partialSortIndices lib logits k
  let expLogits ← expCandidates lib logits indices k
  let topKProbs ← expLogits.mapM fun p => divide p expLogits.sum
  sampleIndex lib logits indices topKProbs rng

variable [FloorRing K]

/-- `static_cast<int32_t>` of a number. -/
def truncate (x : K) : Int :=
  let n := if x ≥ 0 then ⌊x⌋ else ⌈x⌉
  if -2 ^ 31 ≤ n ∧ n < 2 ^ 31 then n else lib.castOutside x

variable {lib}

/-- The generator of one call, with seed if provided. -/
def createRng (s : Sampler lib) (params : SamplingParams K) : lib.State × Sampler lib :=
  match params.seed with
  | some seed => (lib.seed (Wrapping.ofInt 32 seed), s)
  | none =>
      let (value, defaultRng) := lib.next s.defaultRng
      (lib.seed value, { s with defaultRng := defaultRng })

/-- What is sampled at a positive temperature, and the generator after it. -/
def sampleFrom (logits : List K) (params : SamplingParams K) (rng : lib.State) :
    Option (SampleResult K × lib.State) :=
  if params.topK > 0 then sampleTopK lib logits (truncate lib params.topK) rng
  else sampleTopP lib logits params.topP rng

/-- Sample a token from logits. -/
def sample (s : Sampler lib) (logits : List K) (params : SamplingParams K)
    (previousTokens : List Int) : Option (Result (SampleResult K) × Sampler lib) :=
  if logits.isEmpty then some (.error (.internal "Empty logits"), s)
  else do
    let modified ←
      if params.repetitionPenalty ≠ 1 ∧ previousTokens ≠ [] then
        applyRepetitionPenalty logits previousTokens params.repetitionPenalty
      else some logits
    if params.temperature ≤ 0 then
      let result ← sampleGreedy modified
      return (.ok result, s)
    else
      let modified ← applyTemperature modified params.temperature
      let (rng, s) := createRng s params
      let (result, _) ← sampleFrom modified params rng
      return (.ok result, s)

end Softmax

end Sampler

end Qwen
