/-
# float64 values as the weighted benchmark compares them

The benchmark reads three kinds of `float64`: the `--reader-mean`,
`--writer-mean` and variance flags, the draws of `rng.NormFloat64()`, and the
samples `sampleTableIndex` builds from them. What the code does with them is
compare (`sample >= 0.0 && sample <= 1.0`, `mean < 0.0 || mean > 1.0`), take
`math.Sqrt`, multiply, add, and convert from and to `int`.

A value is NaN, an infinity, or finite, `m·2^e` (every finite `float64` is
one). Comparisons are IEEE 754's: false whenever NaN is involved. NaN and the
infinities propagate through `*`, `+` and `math.Sqrt` as IEEE 754 says. A
finite result is the exact one rounded as IEEE 754 rounds (`round`): to
nearest, ties to even, at 53 significant bits or at the subnormal quantum
`2^-1074`, and an infinity once the rounded magnitude reaches `2^1024`. The
square root is rounded from `⌊√·⌋` and a sticky bit, which is the correctly
rounded root. Go may fuse `x*y + z` into one rounding on some targets (arm64,
or amd64 built for v3); the model rounds the product and the sum apart, as
the default amd64 build does. The sign of a zero is not kept: no comparison,
product or conversion here tells `-0` from `+0`.

Key definitions: `F64`, `F64.lt`, `F64.le`, `F64.round`, `F64.sqrt`, `F64.toInt`.
Key definitions: `F64`, `F64.lt`, `F64.le`, `F64.sqrt`, `F64.toInt`.
-/
import Mathlib.Algebra.Order.Ring.Int

namespace Warp

/-- A `float64`: NaN, `+Inf` or `-Inf` (`inf neg`), or the finite `m·2^e`. -/
inductive F64 where
  | nan
  | inf (neg : Bool)
  | fin (m e : ℤ)
  deriving DecidableEq, Repr

namespace F64

/-- The mantissas of two finite values, both as multiples of `2^(min e₁ e₂)`. -/
def align (m₁ e₁ m₂ e₂ : ℤ) : ℤ × ℤ :=
  (m₁ * 2 ^ (e₁ - min e₁ e₂).toNat, m₂ * 2 ^ (e₂ - min e₁ e₂).toNat)

/-- `x < y`. -/
def lt : F64 → F64 → Bool
  | nan, _ | _, nan => false
  | inf a, inf b => a && !b
  | inf a, fin _ _ => a
  | fin _ _, inf b => !b
  | fin m₁ e₁, fin m₂ e₂ => decide ((align m₁ e₁ m₂ e₂).1 < (align m₁ e₁ m₂ e₂).2)

/-- `x <= y`. -/
def le : F64 → F64 → Bool
  | nan, _ | _, nan => false
  | inf a, inf b => a || !b
  | inf a, fin _ _ => a
  | fin _ _, inf b => !b
  | fin m₁ e₁, fin m₂ e₂ => decide ((align m₁ e₁ m₂ e₂).1 ≤ (align m₁ e₁ m₂ e₂).2)

instance : LT F64 := ⟨fun x y => x.lt y = true⟩
instance : LE F64 := ⟨fun x y => x.le y = true⟩
instance (x y : F64) : Decidable (x < y) := inferInstanceAs (Decidable (_ = true))
instance (x y : F64) : Decidable (x ≤ y) := inferInstanceAs (Decidable (_ = true))

instance : OfNat F64 n := ⟨fin n 0⟩
instance : Neg F64 := ⟨fun
  | nan => nan
  | inf a => inf !a
  | fin m e => fin (-m) e⟩

/-- The number of binary digits of `n`, within `fuel` halvings. -/
def bitLen : ℕ → ℕ → ℕ
  | 0, _ => 0
  | fuel + 1, n => if n = 0 then 0 else bitLen fuel (n / 2) + 1

/-- `n / 2^s` rounded to nearest, ties to even: the quotient, plus one when
the remainder is over half, or half and the quotient odd. -/
def rne (n s : ℕ) : ℕ :=
  if 2 ^ s < 2 * (n % 2 ^ s) ∨ (2 * (n % 2 ^ s) = 2 ^ s ∧ n / 2 ^ s % 2 = 1) then n / 2 ^ s + 1
  else n / 2 ^ s

/-- The exponent of the last bit a `float64` keeps of `n·2^e`: 53 significant
bits, and none below `2^-1074`. -/
def quantum (n : ℕ) (e : ℤ) : ℤ := max (e + bitLen n n - 53) (-1074)

/-- `m·2^e` rounded to nearest, ties to even, at its quantum, as a mantissa
and an exponent; the exponent is unbounded above. -/
def roundBits (m e : ℤ) : ℤ × ℤ :=
  if e < quantum m.natAbs e then
    (m.sign * rne m.natAbs (quantum m.natAbs e - e).toNat, quantum m.natAbs e)
  else (m, e)

/-- The exact finite value `m·2^e` as a `float64` result: zero, the rounded
value, or an infinity of its sign when the rounded magnitude reaches
`2^1024`. -/
def round (m e : ℤ) : F64 :=
  if m = 0 then fin 0 0
  else if 1024 < (roundBits m e).2 + bitLen (roundBits m e).1.natAbs (roundBits m e).1.natAbs then
    inf (decide (m < 0))
  else fin (roundBits m e).1 (roundBits m e).2

@[simp] theorem round_zero (e : ℤ) : round 0 e = fin 0 0 := if_pos rfl

/-- `x * y`. -/
def mul : F64 → F64 → F64
  | nan, _ | _, nan => nan
  | inf a, inf b => inf (a != b)
  | inf a, fin m _ | fin m _, inf a => if m = 0 then nan else inf (a != decide (m < 0))
  | fin m₁ e₁, fin m₂ e₂ => round (m₁ * m₂) (e₁ + e₂)

/-- `x + y`. -/
def add : F64 → F64 → F64
  | nan, _ | _, nan => nan
  | inf a, inf b => if a = b then inf a else nan
  | inf a, fin _ _ | fin _ _, inf a => inf a
  | fin m₁ e₁, fin m₂ e₂ => round ((align m₁ e₁ m₂ e₂).1 + (align m₁ e₁ m₂ e₂).2) (min e₁ e₂)

-- `0.1 + 0.2 = 0.30000000000000004`; half the least subnormal rounds to the
-- even 0; the largest finite value doubled overflows.
example : add (fin 7205759403792794 (-56)) (fin 7205759403792794 (-55)) =
    fin 5404319552844596 (-54) := by decide
example : mul (fin 1 (-1074)) (fin 1 (-1)) = fin 0 (-1074) := by decide
example : mul (fin (2 ^ 53 - 1) 971) (fin 2 0) = inf false := by decide

instance : Mul F64 := ⟨mul⟩
instance : Add F64 := ⟨add⟩

theorem lt_def (x y : F64) : x < y ↔ x.lt y = true := Iff.rfl
theorem le_def (x y : F64) : x ≤ y ↔ x.le y = true := Iff.rfl
theorem mul_def (x y : F64) : x * y = x.mul y := rfl
theorem add_def (x y : F64) : x + y = x.add y := rfl

/-- The largest `r' < r + 2^k` with `r' * r' ≤ n`, given `r * r ≤ n`. -/
def bisect (n : ℕ) : ℕ → ℕ → ℕ
  | 0, r => r
  | k + 1, r => if (r + 2 ^ k) * (r + 2 ^ k) ≤ n then bisect n k (r + 2 ^ k) else bisect n k r

/-- `⌊√n⌋`. -/
def isqrt (n : ℕ) : ℕ := bisect n (bitLen n n / 2 + 1) 0

/-- `math.Sqrt`: NaN below zero and for NaN, `+Inf` for `+Inf`. For
`m·2^e = m₀·2^e₀` with `e₀` even, `√ = 2√(m₀·2^128)·2^(e₀/2-65)`; with
`r = ⌊√(m₀·2^128)⌋` (65 bits or more) the doubled root lies in `[2r, 2r+2)`
and is never `2r+1`, so `2r` plus a sticky bit for an inexact root rounds as
the root does: rounding drops at least 13 bits, and no rounding boundary lies
strictly between `2r` and `2r+2`. -/
def sqrt : F64 → F64
  | nan => nan
  | inf true => nan
  | inf false => inf false
  | fin m e =>
    if m < 0 then nan
    else
      let m₀ := if e % 2 = 0 then m.toNat else 2 * m.toNat
      let e₀ := if e % 2 = 0 then e else e - 1
      let r := isqrt (m₀ * 2 ^ 128)
      round (2 * r + if r * r < m₀ * 2 ^ 128 then 1 else 0) (e₀ / 2 - 65)

-- `math.Sqrt(2)` is `6369051672525773·2^-52`.
set_option maxRecDepth 2000 in
example : sqrt (fin 2 0) = fin 6369051672525773 (-52) := by decide

/-- `float64(n)` for an `int` `n`: rounded to 53 bits. An `int` has 64 bits,
so the conversion never overflows. -/
def ofInt (n : ℤ) : F64 := fin (roundBits n 0).1 (roundBits n 0).2

/-- `m·2^e` rounded toward zero. -/
def trunc (m e : ℤ) : ℤ := if 0 ≤ e then m * 2 ^ e.toNat else m.tdiv (2 ^ (-e).toNat)

/-- Go's `int(x)`: `x` rounded toward zero when that fits an `int`; for NaN,
the infinities and values out of range the result is implementation-specific,
`other x`. -/
def toInt (other : F64 → ℤ) : F64 → ℤ
  | fin m e => if -2 ^ 63 ≤ trunc m e ∧ trunc m e < 2 ^ 63 then trunc m e else other (fin m e)
  | x => other x

/-- `x` is neither NaN nor an infinity. -/
def IsFinite : F64 → Prop
  | fin _ _ => True
  | _ => False

instance : DecidablePred IsFinite
  | fin _ _ => isTrue trivial
  | nan => isFalse id
  | inf _ => isFalse id

theorem align_swap (m₁ e₁ m₂ e₂ : ℤ) :
    align m₂ e₂ m₁ e₁ = ((align m₁ e₁ m₂ e₂).2, (align m₁ e₁ m₂ e₂).1) := by
  simp [align, min_comm]

/-- Apart from NaN the order is total. -/
theorem le_of_not_lt {x y : F64} (hx : x ≠ nan) (hy : y ≠ nan) (h : ¬ x < y) : y ≤ x := by
  cases x with
  | nan => exact absurd rfl hx
  | inf a =>
    cases y with
    | nan => exact absurd rfl hy
    | inf b => cases a <;> cases b <;> simp_all [lt_def, le_def, lt, le]
    | fin _ _ => cases a <;> simp_all [lt_def, le_def, lt, le]
  | fin m₁ e₁ =>
    cases y with
    | nan => exact absurd rfl hy
    | inf b => cases b <;> simp_all [lt_def, le_def, lt, le]
    | fin m₂ e₂ =>
      simp only [lt_def, le_def, lt, le, decide_eq_true_eq, not_lt] at h ⊢
      rwa [align_swap]

/-! ### NaN and the infinities -/

@[simp] theorem nan_lt (x : F64) : ¬ nan < x := by cases x <;> simp [lt_def, lt]
@[simp] theorem lt_nan (x : F64) : ¬ x < nan := by cases x <;> simp [lt_def, lt]
@[simp] theorem nan_le (x : F64) : ¬ nan ≤ x := by cases x <;> simp [le_def, le]
@[simp] theorem le_nan (x : F64) : ¬ x ≤ nan := by cases x <;> simp [le_def, le]

@[simp] theorem nan_mul (x : F64) : nan * x = nan := by cases x <;> rfl
@[simp] theorem mul_nan (x : F64) : x * nan = nan := by cases x <;> rfl
@[simp] theorem nan_add (x : F64) : nan + x = nan := by cases x <;> rfl
@[simp] theorem add_nan (x : F64) : x + nan = nan := by cases x <;> rfl

@[simp] theorem sqrt_nan : sqrt nan = nan := rfl
@[simp] theorem sqrt_posInf : sqrt (inf false) = inf false := rfl
@[simp] theorem sqrt_negInf : sqrt (inf true) = nan := rfl

/-- `+Inf` times anything is NaN or an infinity. -/
theorem mul_posInf (x : F64) : x * inf false = nan ∨ ∃ a, x * inf false = inf a := by
  cases x with
  | nan => exact .inl rfl
  | inf a => exact .inr ⟨_, rfl⟩
  | fin m e => by_cases hm : m = 0 <;> simp [mul_def, mul, hm]

/-- An infinity plus anything is NaN or an infinity. -/
theorem inf_add (a : Bool) (y : F64) : inf a + y = nan ∨ ∃ b, inf a + y = inf b := by
  cases y with
  | nan => exact .inl rfl
  | inf b => by_cases hab : a = b <;> simp [add_def, add, hab]
  | fin m e => exact .inr ⟨_, rfl⟩

/-- No infinity lies in `[0, 1]`. -/
theorem not_unit_inf (a : Bool) : ¬ (0 ≤ inf a ∧ inf a ≤ 1) := by
  cases a <;> decide

/-- A variance that is not a finite number `≥ 0` has a root that is NaN or
`+Inf`. -/
theorem sqrt_of_not_finite_nonneg {v : F64} (h : ¬ (v.IsFinite ∧ 0 ≤ v)) :
    sqrt v = nan ∨ sqrt v = inf false := by
  cases v with
  | nan => exact .inl rfl
  | inf a => cases a <;> simp
  | fin m e =>
    have hm : m < 0 := by
      by_contra hm
      refine h ⟨trivial, ?_⟩
      simp only [le_def, le, align, decide_eq_true_eq, Int.ofNat_eq_coe, Nat.cast_zero, zero_mul]
      exact Int.mul_nonneg (by omega) (pow_nonneg (by decide) _)
    exact .inl (by simp [sqrt, hm])

end F64

end Warp
