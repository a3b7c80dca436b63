import AetherBond.Core.Congestion
import AetherBond.Lib.Kalman
import Mathlib.Analysis.Convex.Basic

set_option autoImplicit false

/-! # The jitter filter

`JitterKalmanFilter` is a scalar Kalman filter (`Lib.Kalman`): `p` is its variance and `k` its
gain. With the parameters of `default` the first update lowers `p`, so from then on `p` and `k`
never rise, and the estimate stays in the range of the measurements (`updates_default`).
-/

namespace AetherBond.Core

open AetherBond.Lib AetherBond.Lib.Kalman

namespace JitterKalmanFilter

variable {K : Type*} [Field K]

/-- **An update is a step of the filter.** -/
theorem update_eq (f : JitterKalmanFilter K) (z : K) :
    f.update z =
      { f with
        x := f.x + gain f.q f.r f.p * (z - f.x)
        p := posterior f.q f.r f.p
        k := gain f.q f.r f.p } := rfl

variable [LinearOrder K] [IsStrictOrderedRing K]

/-- The estimate is in the range, and the variance falls with the next update. -/
structure Settles (M : K) (f : JitterKalmanFilter K) : Prop where
  q_pos : 0 < f.q
  r_pos : 0 < f.r
  estimate : f.x ∈ Set.Icc 0 M
  p_pos : 0 < f.p
  falls : posterior f.q f.r f.p ≤ f.p

/-- What holds after an update. -/
structure Bounded (M : K) (f : JitterKalmanFilter K) : Prop extends Settles M f where
  k_pos : 0 < f.k
  k_lt_one : f.k < 1
  p_lt : f.p < f.r
  /-- The next gain is not larger. -/
  k_falls : gain f.q f.r f.p ≤ f.k

variable {M z : K} {f : JitterKalmanFilter K}

theorem default_settles (hM : 0 ≤ M) : (default : JitterKalmanFilter K).Settles M where
  q_pos := by norm_num [default]
  r_pos := by norm_num [default]
  estimate := by simpa [default] using hM
  p_pos := by norm_num [default]
  falls := by norm_num [default, posterior, gain]

/-- **The step lemma.** -/
theorem Settles.update (h : f.Settles M) (hz : z ∈ Set.Icc 0 M) : (f.update z).Bounded M where
  q_pos := h.q_pos
  r_pos := h.r_pos
  estimate := by
    have hpos := gain_pos h.q_pos h.r_pos h.p_pos.le
    have hlt := gain_lt_one h.q_pos h.r_pos h.p_pos.le
    rw [update_eq]
    exact (convex_Icc 0 M).add_smul_sub_mem h.estimate hz ⟨hpos.le, hlt.le⟩
  p_pos := posterior_pos h.q_pos h.r_pos h.p_pos.le
  falls := posterior_falls h.q_pos h.r_pos h.p_pos.le h.falls
  k_pos := gain_pos h.q_pos h.r_pos h.p_pos.le
  k_lt_one := gain_lt_one h.q_pos h.r_pos h.p_pos.le
  p_lt := posterior_lt h.q_pos h.r_pos h.p_pos.le
  k_falls := gain_falls h.q_pos h.r_pos h.p_pos.le h.falls

theorem Settles.updates (h : f.Settles M) {zs : List K} (hzs : ∀ z ∈ zs, z ∈ Set.Icc 0 M) :
    (f.updates zs).Settles M := by
  induction zs generalizing f with
  | nil => exact h
  | cons z zs ih =>
      have hfirst := h.update (hzs z List.mem_cons_self)
      exact ih hfirst.toSettles fun y hy => hzs y (List.mem_cons_of_mem z hy)

/-- **The jitter filter.** After every update of the default filter by measurements between 0 and
`M` the estimate is between 0 and `M`, the gain between 0 and 1 and the variance between 0 and
`r`; and the next update raises neither the variance nor the gain. -/
theorem updates_default (M : K) (zs : List K) (z : K) (hzs : ∀ y ∈ zs ++ [z], 0 ≤ y ∧ y ≤ M) :
    let before := JitterKalmanFilter.default.updates zs
    let f := before.update z
    (0 ≤ f.getEstimate ∧ f.getEstimate ≤ M) ∧ (0 < f.k ∧ f.k < 1) ∧ (0 < f.p ∧ f.p < f.r) ∧
      f.p ≤ before.p ∧ ∀ y, (f.update y).p ≤ f.p ∧ (f.update y).k ≤ f.k := by
  have hz : 0 ≤ z ∧ z ≤ M := hzs z (by simp)
  have hbefore : (default.updates zs).Settles M :=
    (default_settles (hz.1.trans hz.2)).updates fun y hy => hzs y (by simp [hy])
  have hafter := hbefore.update hz
  exact ⟨hafter.estimate, ⟨hafter.k_pos, hafter.k_lt_one⟩, ⟨hafter.p_pos, hafter.p_lt⟩,
    hbefore.falls, fun y => ⟨hafter.falls, hafter.k_falls⟩⟩

/-- Two measurements of at most 10. -/
theorem updates_default_two :
    ((default.updates [3]).update (7 : ℚ)).p ≤ (default.updates [(3 : ℚ)]).p :=
  (updates_default 10 [3] (7 : ℚ) (by decide +kernel)).2.2.2.1

end JitterKalmanFilter

end AetherBond.Core
