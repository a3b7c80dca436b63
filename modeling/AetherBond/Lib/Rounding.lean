import Mathlib.Tactic
import Mathlib.Data.Rat.Floor

set_option autoImplicit false

/-! # Rounded arithmetic

Floating-point numbers are rationals here, and the result of each operation is rounded. A
`Rounding` keeps the order, and is close on numbers of ordinary size; the rounding of doubles is
one, and so is none at all (`Rounding.exact`). What overflows, or is not a number, is left out.

`decimals` is the rounding to a number of decimals, exactly half way to the even digit.
-/

namespace AetherBond.Lib

/-- The nearest integer, and of two the even one. -/
def roundHalfEven (x : ℚ) : ℤ :=
  if x - ⌊x⌋ < 1 / 2 then ⌊x⌋
  else if 1 / 2 < x - ⌊x⌋ then ⌊x⌋ + 1
  else if ⌊x⌋ % 2 = 0 then ⌊x⌋ else ⌊x⌋ + 1

/-- What comes closer to 1 than to 0 does not round to 0. -/
theorem roundHalfEven_pos {x : ℚ} (h : 1 / 2 < x) : 0 < roundHalfEven x := by
  have hfloor : 0 ≤ ⌊x⌋ := Int.floor_nonneg.mpr (by linarith)
  unfold roundHalfEven
  by_cases hzero : ⌊x⌋ = 0
  · rw [hzero, Int.cast_zero, sub_zero, if_neg (by linarith), if_pos h]
    decide
  · split_ifs <;> omega

/-- What is at most an integer rounds to at most that. -/
theorem roundHalfEven_le {x : ℚ} {n : ℤ} (h : x ≤ n) : roundHalfEven x ≤ n := by
  have hfloor : ⌊x⌋ ≤ n := Int.floor_le_iff.mpr (by linarith)
  obtain hlt | rfl := lt_or_eq_of_le hfloor
  · unfold roundHalfEven
    split_ifs <;> omega
  · -- it is that integer
    have hzero : x - ⌊x⌋ < 1 / 2 := by linarith
    unfold roundHalfEven
    rw [if_pos hzero]

/-- A rounding of the results of arithmetic. -/
structure Rounding where
  round : ℚ → ℚ
  mono : Monotone round
  near : ∀ x, 1 / 1000 ≤ x → x ≤ 1000 → |round x - x| ≤ x / 1000

namespace Rounding

/-- Nothing is rounded. -/
def exact : Rounding where
  round := id
  mono := monotone_id
  near x hx _ := by
    rw [id, sub_self, abs_zero]
    linarith

/-- A sum, from left to right. -/
def sum (fl : Rounding) (xs : List ℚ) : ℚ := xs.foldl (fun acc x => fl.round (acc + x)) 0

theorem exact_sum (xs : List ℚ) : exact.sum xs = xs.sum :=
  List.sum_eq_foldl.symm

/-- `round(x, n)`. -/
def decimals (fl : Rounding) (n : Nat) (x : ℚ) : ℚ :=
  fl.round (roundHalfEven (x * 10 ^ n) / 10 ^ n)

variable (fl : Rounding)

theorem round_pos {x : ℚ} (h : 1 / 1000 ≤ x) : 0 < fl.round x := by
  have hnear := abs_le.mp (fl.near (1 / 1000) le_rfl (by norm_num))
  have hmono := fl.mono h
  linarith [hnear.1]

/-- A number that is at least a tenth stays positive with two decimals. -/
theorem decimals_two_pos {x : ℚ} (h : fl.round (1 / 10) ≤ x) : 0 < fl.decimals 2 x := by
  have hnear := abs_le.mp (fl.near (1 / 10) (by norm_num) (by norm_num))
  have hint : 0 < roundHalfEven (x * 10 ^ 2) := roundHalfEven_pos (by linarith [hnear.1])
  have hcast : (1 : ℚ) ≤ roundHalfEven (x * 10 ^ 2) := by exact_mod_cast hint
  apply fl.round_pos
  rw [le_div_iff₀ (by norm_num)]
  calc (1 : ℚ) / 1000 * 10 ^ 2 ≤ 1 := by norm_num
    _ ≤ _ := hcast

/-- What is at most an integer that is kept has at most that with some decimals. -/
theorem decimals_le {x : ℚ} {n : ℤ} (hn : fl.round n = n) (h : x ≤ n) (k : Nat) :
    fl.decimals k x ≤ n := by
  have hpow : (0 : ℚ) < 10 ^ k := by positivity
  have hint : roundHalfEven (x * 10 ^ k) ≤ n * 10 ^ k := by
    apply roundHalfEven_le
    push_cast
    gcongr
  have hcast : ((roundHalfEven (x * 10 ^ k) : ℤ) : ℚ) ≤ n * 10 ^ k := by exact_mod_cast hint
  calc fl.decimals k x ≤ fl.round n := fl.mono ((div_le_iff₀ hpow).mpr hcast)
    _ = n := hn

end Rounding

end AetherBond.Lib
