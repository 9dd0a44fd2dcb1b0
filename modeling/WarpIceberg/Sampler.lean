/-
# `sampleTableIndex`: the weighted sampler

`sampleTableIndex(rng, dist, numTables)` draws `rng.NormFloat64()*stddev +
dist.Mean` until a sample lands in `[0, 1]`, at most `maxSamples` times,
keeps `0` when none does, and turns the value into `int(value *
float64(numTables))` clamped to `[0, numTables - 1]`.

* `sampleTableIndex_mem`: for every `numTables ≥ 1` the index is in
  `[0, numTables - 1]`, whatever the generator, the distribution and the
  conversion `int(x)` give (`clampIndex_mem`: the clamps alone do it).
* `sampleTableIndex_fallback`: with a variance that is not a finite number
  `≥ 0` (negative, infinite or NaN) every draw is rejected and the index is 0.
* `sampleTableIndex_draws`: a call takes between 1 and `maxSamples` draws,
  all `maxSamples` of them in that case.
* `indexStream`: the indices one generator yields, call after call; a worker
  that calls `sampleTableIndex` `k` times has seen the first `k` of them
  however many draws each call took (`rngAfter_succ`).

`math/rand` is a parameter (`Rand`): the generator a seed starts, and
`NormFloat64`.

Key definitions: `sampleLoop`, `clampIndex`, `sampleTableIndex`, `indexStream`.
-/
import WarpIceberg.Float64
import Mathlib.Logic.Function.Iterate

namespace Warp

/-- `WeightedDistribution`: `count` workers sampling table positions around
`mean` with variance `variance`. -/
structure WeightedDistribution where
  count : ℤ
  mean : F64
  variance : F64
  deriving DecidableEq, Repr

/-- `math/rand` as a worker uses it: the generator `rand.New(rand.NewSource(seed))`
starts, and `NormFloat64`, which returns a draw and the advanced generator. -/
structure Rand (σ : Type) where
  newSource : BitVec 64 → σ
  normFloat64 : σ → F64 × σ

/-- `const maxSamples = 100000`. -/
def maxSamples : ℕ := 100000

/-- The two clamps after the conversion: `idx >= numTables` gives
`numTables - 1`, then `idx < 0` gives `0`. -/
def clampIndex (numTables idx : ℤ) : ℤ :=
  let idx := if idx ≥ numTables then numTables - 1 else idx
  if idx < 0 then 0 else idx

/-- **The clamps keep every index in range.** -/
theorem clampIndex_mem {numTables : ℤ} (h : 0 < numTables) (idx : ℤ) :
    0 ≤ clampIndex numTables idx ∧ clampIndex numTables idx < numTables := by
  unfold clampIndex; dsimp only
  split_ifs <;> omega

example : clampIndex 4 9 = 3 ∧ clampIndex 4 (-2) = 0 ∧ clampIndex 4 2 = 2 := by decide

theorem clampIndex_zero {numTables : ℤ} (h : 0 < numTables) : clampIndex numTables 0 = 0 := by
  unfold clampIndex; dsimp only
  split_ifs <;> omega

section Sample

variable {σ : Type} (R : Rand σ) (cvt : F64 → ℤ)

/-- The rejection loop with `n` draws left: the first sample in `[0, 1]`, if
any, and the generator after the draws taken. -/
def sampleLoop (stddev mean : F64) : ℕ → σ → Option F64 × σ
  | 0, rng => (none, rng)
  | n + 1, rng =>
    let sample := (R.normFloat64 rng).1 * stddev + mean
    if 0 ≤ sample ∧ sample ≤ 1 then (some sample, (R.normFloat64 rng).2)
    else sampleLoop stddev mean n (R.normFloat64 rng).2

/-- `sampleTableIndex(rng, dist, numTables)`: the index and the generator
after. `cvt` is what Go's `int(x)` gives where it is implementation-specific. -/
def sampleTableIndex (rng : σ) (dist : WeightedDistribution) (numTables : ℤ) : ℤ × σ :=
  let stddev := F64.sqrt dist.variance
  let r := sampleLoop R stddev dist.mean maxSamples rng
  (clampIndex numTables (F64.toInt cvt (r.1.getD 0 * F64.ofInt numTables)), r.2)

/-- **The sampler's index is in `[0, numTables - 1]`** for every generator,
distribution and conversion. -/
theorem sampleTableIndex_mem (rng : σ) (dist : WeightedDistribution) {numTables : ℤ}
    (h : 0 < numTables) :
    0 ≤ (sampleTableIndex R cvt rng dist numTables).1 ∧
      (sampleTableIndex R cvt rng dist numTables).1 < numTables :=
  clampIndex_mem h _

/-- One table: the index is always 0. -/
theorem sampleTableIndex_one (rng : σ) (dist : WeightedDistribution) :
    (sampleTableIndex R cvt rng dist 1).1 = 0 := by
  have := sampleTableIndex_mem R cvt rng dist Int.one_pos
  omega

/-- A loop whose every sample falls outside `[0, 1]` finds nothing. -/
theorem sampleLoop_none {stddev mean : F64}
    (h : ∀ d : F64, ¬ (0 ≤ d * stddev + mean ∧ d * stddev + mean ≤ 1)) :
    ∀ (n : ℕ) (rng : σ), (sampleLoop R stddev mean n rng).1 = none
  | 0, _ => rfl
  | n + 1, rng => by
    simp only [sampleLoop, if_neg (h _)]
    exact sampleLoop_none h n _

/-- With a NaN or `+Inf` standard deviation no sample is in `[0, 1]`. -/
theorem not_unit_of_root {s : F64} (hs : s = .nan ∨ s = .inf false) (d mean : F64) :
    ¬ (0 ≤ d * s + mean ∧ d * s + mean ≤ 1) := by
  rcases hs with rfl | rfl
  · simp
  · rcases F64.mul_posInf d with h | ⟨a, h⟩
    · simp [h]
    · rw [h]
      rcases F64.inf_add a mean with h' | ⟨b, h'⟩
      · simp [h']
      · rw [h']
        exact F64.not_unit_inf b

/-- **The fallback.** With a variance that is not a finite number `≥ 0`, every
draw is rejected and the index is 0. -/
theorem sampleTableIndex_fallback (rng : σ) {dist : WeightedDistribution}
    (hv : ¬ (dist.variance.IsFinite ∧ 0 ≤ dist.variance)) {numTables : ℤ} (h : 0 < numTables) :
    (sampleTableIndex R cvt rng dist numTables).1 = 0 := by
  have hnone := sampleLoop_none R
    (fun d => not_unit_of_root (F64.sqrt_of_not_finite_nonneg hv) d dist.mean) maxSamples rng
  simp only [sampleTableIndex, hnone, Option.getD_none]
  have h0 : F64.toInt cvt (0 * F64.ofInt numTables) = 0 := by
    simp [F64.mul_def, F64.mul, F64.ofInt, F64.toInt, F64.trunc]
  rw [h0, clampIndex_zero h]

/-- The rejection loop with `n` draws left takes `k ≤ n` of them, at least one
when `n > 0`, and all `n` when no sample is accepted. -/
theorem sampleLoop_draws {stddev mean : F64} : ∀ (n : ℕ) (rng : σ), ∃ k ≤ n,
    (sampleLoop R stddev mean n rng).2 = (fun r => (R.normFloat64 r).2)^[k] rng ∧
      ((sampleLoop R stddev mean n rng).1 = none → k = n) ∧ (0 < n → 0 < k)
  | 0, _ => ⟨0, le_rfl, rfl, fun _ => rfl, fun h => h⟩
  | n + 1, rng => by
    simp only [sampleLoop]
    split
    · exact ⟨1, by omega, rfl, nofun, fun _ => Nat.one_pos⟩
    · obtain ⟨k, hk, h2, h1, -⟩ := sampleLoop_draws n (R.normFloat64 rng).2
      exact ⟨k + 1, by omega, by rw [h2, Function.iterate_succ_apply], fun h => by rw [h1 h],
        fun _ => Nat.succ_pos k⟩

/-- **Each call costs between one and `maxSamples` normal draws**, and exactly
`maxSamples` (100000) when the variance is not a finite number `≥ 0`, in which
case it returns table 0. -/
theorem sampleTableIndex_draws (rng : σ) (dist : WeightedDistribution) (numTables : ℤ) :
    ∃ k, 1 ≤ k ∧ k ≤ maxSamples ∧
      (sampleTableIndex R cvt rng dist numTables).2 = (fun r => (R.normFloat64 r).2)^[k] rng ∧
      (¬ (dist.variance.IsFinite ∧ 0 ≤ dist.variance) →
        k = maxSamples ∧ (0 < numTables → (sampleTableIndex R cvt rng dist numTables).1 = 0)) := by
  obtain ⟨k, hk, h2, h1, hpos⟩ :=
    @sampleLoop_draws σ R (F64.sqrt dist.variance) dist.mean maxSamples rng
  refine ⟨k, hpos (by decide), hk, h2, fun hv => ⟨h1 ?_, sampleTableIndex_fallback R cvt rng hv⟩⟩
  exact sampleLoop_none R
    (fun d => not_unit_of_root (F64.sqrt_of_not_finite_nonneg hv) d dist.mean) maxSamples rng

/-! ### The index stream of one generator -/

/-- The generator after `k` calls of `sampleTableIndex`. -/
def rngAfter (rng : σ) (dist : WeightedDistribution) (numTables : ℤ) (k : ℕ) : σ :=
  (fun r => (sampleTableIndex R cvt r dist numTables).2)^[k] rng

/-- The index the `k`-th call of `sampleTableIndex` returns. -/
def indexStream (rng : σ) (dist : WeightedDistribution) (numTables : ℤ) (k : ℕ) : ℤ :=
  (sampleTableIndex R cvt (rngAfter R cvt rng dist numTables k) dist numTables).1

theorem rngAfter_zero (rng : σ) (dist : WeightedDistribution) (numTables : ℤ) :
    rngAfter R cvt rng dist numTables 0 = rng := rfl

theorem rngAfter_succ (rng : σ) (dist : WeightedDistribution) (numTables : ℤ) (k : ℕ) :
    rngAfter R cvt rng dist numTables (k + 1) =
      (sampleTableIndex R cvt (rngAfter R cvt rng dist numTables k) dist numTables).2 :=
  Function.iterate_succ_apply' _ k rng

end Sample

end Warp
