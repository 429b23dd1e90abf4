/-
The binary digits of the sines of small natural numbers.

`exp I` is approximated by the first 21 terms of its series, a Gaussian rational with the
denominator `20!`. Its powers are computed exactly, and their imaginary parts are close to the
sines; `floor_abs_sin` reads the integer part of `2 ^ 32` times a sine off them.
-/

import Mathlib.Analysis.Complex.Basic
import Mathlib.Analysis.Complex.Trigonometric
import Mathlib.Tactic.LinearCombination

namespace Sine

open Complex Finset

/-- `20!` times the real part of the approximation. -/
def re : Int := 1314502564969066301

/-- `20!` times its imaginary part. -/
def im : Int := 2047216448761506340

/-- The power of the approximation, times `20! ^ n`. -/
def power : Nat → Int × Int
  | 0 => (1, 0)
  | n + 1 => ((power n).1 * re - (power n).2 * im, (power n).1 * im + (power n).2 * re)

/-- The first terms of the series. -/
noncomputable def start : ℂ := ∑ m ∈ range 21, I ^ m / m.factorial

/-- `re` and `im` are the parts of the series up to its twentieth term. -/
theorem start_eq : start * Nat.factorial 20 = re + im * I := by
  have four : (I : ℂ) ^ 4 = 1 := I_pow_four
  rw [start, re, im, Finset.sum_mul]
  simp only [sum_range_succ, sum_range_zero, Nat.factorial]
  norm_num [pow_succ, Complex.ext_iff]

/-- `power` computes the powers without fractions. -/
theorem power_eq (n : Nat) :
    start ^ n * (Nat.factorial 20 : ℂ) ^ n = (power n).1 + (power n).2 * I := by
  induction n with
  | zero => simp [power]
  | succ n ih =>
    calc start ^ (n + 1) * (Nat.factorial 20 : ℂ) ^ (n + 1)
        = start ^ n * (Nat.factorial 20 : ℂ) ^ n * (start * Nat.factorial 20) := by ring
      _ = ((power n).1 + (power n).2 * I) * (re + im * I) := by rw [ih, start_eq]
      _ = (power (n + 1)).1 + (power (n + 1)).2 * I := by
        simp only [power]
        push_cast
        linear_combination ((power n).2 * im : ℂ) * I_sq

/-- The terms that are left out add up to less than `2 ^ -60`. -/
theorem start_close : ‖exp I - start‖ ≤ 1 / 2 ^ 60 := by
  have bound := exp_bound (x := I) (by simp) (n := 21) (by norm_num)
  refine bound.trans ?_
  rw [norm_I]
  norm_num [Nat.factorial]

/-- The powers drift apart by at most the same amount at each step. -/
theorem power_close {n : Nat} (small : n ≤ 64) : ‖exp I ^ n - start ^ n‖ ≤ n / 2 ^ 59 := by
  have unit : ‖exp I‖ = 1 := by simpa using norm_exp_ofReal_mul_I 1
  induction n with
  | zero => simp
  | succ n ih =>
    have before : ‖exp I ^ n - start ^ n‖ ≤ n / 2 ^ 59 := ih (by omega)
    have size : ‖start ^ n‖ ≤ 2 := by
      have split : start ^ n = exp I ^ n - (exp I ^ n - start ^ n) := by ring
      have less : (n : ℝ) ≤ 64 := by exact_mod_cast (by omega : n ≤ 64)
      calc ‖start ^ n‖ ≤ ‖exp I ^ n‖ + ‖exp I ^ n - start ^ n‖ := by
            nth_rewrite 1 [split]
            exact norm_sub_le _ _
        _ ≤ 1 + n / 2 ^ 59 := by
            rw [norm_pow, unit, one_pow]
            linarith
        _ ≤ 2 := by linarith
    have step : exp I ^ (n + 1) - start ^ (n + 1) =
        exp I * (exp I ^ n - start ^ n) + (exp I - start) * start ^ n := by ring
    calc ‖exp I ^ (n + 1) - start ^ (n + 1)‖
        ≤ ‖exp I‖ * ‖exp I ^ n - start ^ n‖ + ‖exp I - start‖ * ‖start ^ n‖ := by
          rw [step, ← norm_mul, ← norm_mul]
          exact norm_add_le _ _
      _ ≤ 1 * (n / 2 ^ 59) + 1 / 2 ^ 60 * 2 := by
          rw [unit]
          have last : ‖exp I - start‖ * ‖start ^ n‖ ≤ 1 / 2 ^ 60 * 2 :=
            mul_le_mul start_close size (norm_nonneg _) (by norm_num)
          linarith
      _ = (n + 1 : ℕ) / 2 ^ 59 := by
          push_cast
          ring

/-- The sine of a small number is that close to the imaginary part of the power. -/
theorem sin_close {n : Nat} (small : n ≤ 64) :
    |Real.sin n - (power n).2 / (Nat.factorial 20 : ℝ) ^ n| ≤ 1 / 2 ^ 53 := by
  have sin : (exp I ^ n).im = Real.sin n := by
    rw [← exp_nat_mul, ← ofReal_natCast, exp_ofReal_mul_I_im]
  have imaginary : (start ^ n).im = (power n).2 / (Nat.factorial 20 : ℝ) ^ n := by
    have nonzero : (Nat.factorial 20 : ℝ) ^ n ≠ 0 :=
      pow_ne_zero n (by exact_mod_cast Nat.factorial_ne_zero 20)
    have part := congrArg Complex.im (power_eq n)
    rw [eq_div_iff nonzero]
    rw [← ofReal_natCast, ← ofReal_pow, im_mul_ofReal] at part
    simpa using part
  rw [← sin, ← imaginary, ← sub_im]
  calc |(exp I ^ n - start ^ n).im| ≤ ‖exp I ^ n - start ^ n‖ := abs_im_le_norm _
    _ ≤ n / 2 ^ 59 := power_close small
    _ ≤ 1 / 2 ^ 53 := by
      have less : (n : ℝ) ≤ 64 := by exact_mod_cast small
      linarith

/-- The digits of the approximation, with room for the error on both sides. -/
def Digits (n t : Nat) : Prop :=
  (t * 2 ^ 21 + 1) * Nat.factorial 20 ^ n ≤ 2 ^ 53 * (power n).2.natAbs ∧
    2 ^ 53 * (power n).2.natAbs + Nat.factorial 20 ^ n < (t + 1) * 2 ^ 21 * Nat.factorial 20 ^ n

instance (n t : Nat) : Decidable (Digits n t) := inferInstanceAs (Decidable (_ ∧ _))

/-- Digits with room on both sides are the integer part of the table entry. -/
theorem floor_abs_sin {n t : Nat} (small : n ≤ 64) (digits : Digits n t) :
    ⌊2 ^ 32 * |Real.sin n|⌋₊ = t := by
  have pos : (0 : ℝ) < (Nat.factorial 20 : ℝ) ^ n :=
    pow_pos (by exact_mod_cast Nat.factorial_pos 20) n
  have close :
      |(|Real.sin n| - |((power n).2 : ℝ)| / (Nat.factorial 20 : ℝ) ^ n)| ≤ 1 / 2 ^ 53 := by
    have apart := abs_abs_sub_abs_le_abs_sub (Real.sin n) ((power n).2 / (Nat.factorial 20 : ℝ) ^ n)
    rw [abs_div, abs_of_pos pos] at apart
    exact apart.trans (sin_close small)
  have size : ((power n).2.natAbs : ℝ) = |((power n).2 : ℝ)| := by
    rw [Nat.cast_natAbs, Int.cast_abs]
  have low :
      (t * 2 ^ 21 + 1 : ℝ) ≤ 2 ^ 53 * (|((power n).2 : ℝ)| / (Nat.factorial 20 : ℝ) ^ n) := by
    rw [← mul_div_assoc, le_div_iff₀ pos, ← size]
    exact_mod_cast digits.1
  have high :
      2 ^ 53 * (|((power n).2 : ℝ)| / (Nat.factorial 20 : ℝ) ^ n) + 1 < (t + 1) * 2 ^ 21 := by
    rw [← mul_div_assoc, div_add_one pos.ne', div_lt_iff₀ pos, ← size]
    exact_mod_cast digits.2
  obtain ⟨below, above⟩ := abs_le.mp close
  rw [Nat.floor_eq_iff (by positivity)]
  constructor <;> linarith

end Sine
