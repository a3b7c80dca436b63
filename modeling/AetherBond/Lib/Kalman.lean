import Mathlib.Tactic

set_option autoImplicit false

/-! # The scalar Kalman filter

A quantity that drifts with variance `q` is measured with variance `r`. A filter whose estimate
has variance `p` moves it towards the next measurement by `gain q r p` of the way, which leaves
the variance `posterior q r p`. Both grow with `p`, so a variance that falls once falls for ever,
and the gain with it (`posterior_falls`, `gain_falls`).
-/

namespace AetherBond.Lib.Kalman

variable {K : Type*} [Field K]

/-- The weight of a measurement. -/
def gain (q r p : K) : K := (p + q) / (p + q + r)

/-- The variance after a measurement. -/
def posterior (q r p : K) : K := (p + q) * (1 - gain q r p)

variable [LinearOrder K] [IsStrictOrderedRing K] {q r p p' : K}

theorem gain_pos (hq : 0 < q) (hr : 0 < r) (hp : 0 ≤ p) : 0 < gain q r p := by
  unfold gain
  positivity

theorem gain_lt_one (hq : 0 < q) (hr : 0 < r) (hp : 0 ≤ p) : gain q r p < 1 := by
  unfold gain
  rw [div_lt_one (by positivity)]
  linarith

/-- The less is known, the more a measurement counts. -/
theorem gain_le_gain (hq : 0 < q) (hr : 0 < r) (hp : 0 ≤ p) (h : p ≤ p') :
    gain q r p ≤ gain q r p' := by
  have hp' : 0 ≤ p' := hp.trans h
  have hsum : 0 < p + q + r := by positivity
  have hsum' : 0 < p' + q + r := by positivity
  unfold gain
  rw [div_le_div_iff₀ hsum hsum']
  nlinarith

theorem posterior_eq (hq : 0 < q) (hr : 0 < r) (hp : 0 ≤ p) : posterior q r p = r * gain q r p := by
  have hsum : p + q + r ≠ 0 := by positivity
  unfold posterior gain
  field_simp
  ring

theorem posterior_pos (hq : 0 < q) (hr : 0 < r) (hp : 0 ≤ p) : 0 < posterior q r p := by
  rw [posterior_eq hq hr hp]
  exact mul_pos hr (gain_pos hq hr hp)

theorem posterior_lt (hq : 0 < q) (hr : 0 < r) (hp : 0 ≤ p) : posterior q r p < r := by
  rw [posterior_eq hq hr hp]
  exact mul_lt_of_lt_one_right hr (gain_lt_one hq hr hp)

theorem posterior_le_posterior (hq : 0 < q) (hr : 0 < r) (hp : 0 ≤ p) (h : p ≤ p') :
    posterior q r p ≤ posterior q r p' := by
  rw [posterior_eq hq hr hp, posterior_eq hq hr (hp.trans h)]
  exact mul_le_mul_of_nonneg_left (gain_le_gain hq hr hp h) hr.le

/-- **A variance that falls once falls for ever.** -/
theorem posterior_falls (hq : 0 < q) (hr : 0 < r) (hp : 0 ≤ p) (h : posterior q r p ≤ p) :
    posterior q r (posterior q r p) ≤ posterior q r p :=
  posterior_le_posterior hq hr (posterior_pos hq hr hp).le h

/-- The gain falls with it. -/
theorem gain_falls (hq : 0 < q) (hr : 0 < r) (hp : 0 ≤ p) (h : posterior q r p ≤ p) :
    gain q r (posterior q r p) ≤ gain q r p :=
  gain_le_gain hq hr (posterior_pos hq hr hp).le h

end AetherBond.Lib.Kalman
