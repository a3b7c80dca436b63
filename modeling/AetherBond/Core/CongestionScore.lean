import AetherBond.Core.Congestion
import Mathlib.Analysis.SpecialFunctions.Exp

set_option autoImplicit false

/-! # The score of a path

`calculate_scheduling_score` subtracts its penalties from ten points per Mbps and clamps the
result to the range from 1 to 100. A path of more than 10 Mbps starts above the range, and a
penalty that does not bring it back below 100 is lost in the clamp (`score_lt_iff`).
-/

namespace AetherBond.Core

open AetherBond.Lib

namespace BbrPathMetrics

/-- The state with another loss rate. -/
def withLossRate {K : Type*} (m : BbrPathMetrics K) (lossRate : K) : BbrPathMetrics K :=
  { m with packetLossRate := lossRate }

/-- A clamped number falls with what is taken from it, or is at the floor, exactly if the
difference is below the ceiling. -/
theorem clamp_lt_iff {x y floor ceiling : ℝ} (hy : 0 < y) (hrange : floor < ceiling) :
    (min (max (x - y) floor) ceiling < min (max x floor) ceiling ∨
      min (max x floor) ceiling = floor) ↔ x - y < ceiling := by
  constructor
  · rintro h
    by_contra habove
    rw [not_lt] at habove
    have hleft : min (max (x - y) floor) ceiling = ceiling :=
      min_eq_right (habove.trans (le_max_left _ _))
    have hright : min (max x floor) ceiling = ceiling :=
      min_eq_right ((by linarith : ceiling ≤ x).trans (le_max_left _ _))
    rw [hleft, hright] at h
    rcases h with h | h
    · exact lt_irrefl _ h
    · exact hrange.ne' h
  · intro hbelow
    by_cases hx : x ≤ floor
    · right
      rw [max_eq_right hx, min_eq_left hrange.le]
    · left
      rw [not_le] at hx
      have hmax : max (x - y) floor < max x floor := by
        rw [max_eq_left hx.le]
        exact max_lt (by linarith) hx
      have hceiling : max (x - y) floor < ceiling := max_lt hbelow hrange
      exact lt_min ((min_le_left _ _).trans_lt hmax) ((min_le_left _ _).trans_lt hceiling)

variable {m : BbrPathMetrics ℝ}

theorem otherPenalties_le (m : BbrPathMetrics ℝ) : m.otherPenalties ≤ 50 := by
  have hjitter := min_le_right (m.jitterFilter.getEstimate / 10) 20
  unfold otherPenalties
  split_ifs <;> linarith

theorem score_eq (hm : m.isOnline) :
    m.calculateSchedulingScore Real.exp =
      min (max (m.maxBandwidthBps / 1000000 * 10 - m.otherPenalties -
        if 2 / 100 < m.packetLossRate then min (Real.exp (m.packetLossRate * 50)) 80 else 0) 1)
        100 := by
  unfold calculateSchedulingScore otherPenalties
  rw [if_neg (not_not.mpr hm)]
  ring_nf

theorem score_of_le (hm : m.isOnline) {rate : ℝ} (h : rate ≤ 2 / 100) :
    (m.withLossRate rate).calculateSchedulingScore Real.exp =
      min (max (m.maxBandwidthBps / 1000000 * 10 - m.otherPenalties) 1) 100 := by
  have hrate : ¬ 2 / 100 < (m.withLossRate rate).packetLossRate := h.not_gt
  rw [score_eq (m := m.withLossRate rate) hm, if_neg hrate, sub_zero]
  rfl

theorem score_of_gt (hm : m.isOnline) {rate : ℝ} (h : 2 / 100 < rate) :
    (m.withLossRate rate).calculateSchedulingScore Real.exp =
      min (max (m.maxBandwidthBps / 1000000 * 10 - m.otherPenalties -
        min (Real.exp (rate * 50)) 80) 1) 100 := by
  have hrate : 2 / 100 < (m.withLossRate rate).packetLossRate := h
  rw [score_eq (m := m.withLossRate rate) hm, if_pos hrate]
  rfl

/-- The loss is felt exactly if the other points, less the penalty for it, are below the range. -/
theorem withLossRate_lt_iff (hm : m.isOnline) (low high : ℝ) (hlow : low ≤ 2 / 100)
    (hhigh : 2 / 100 < high) :
    ((m.withLossRate high).calculateSchedulingScore Real.exp <
        (m.withLossRate low).calculateSchedulingScore Real.exp ∨
      (m.withLossRate low).calculateSchedulingScore Real.exp = 1) ↔
    m.maxBandwidthBps / 1000000 * 10 - m.otherPenalties - min (Real.exp (high * 50)) 80 < 100 := by
  have hpenalty : 0 < min (Real.exp (high * 50)) 80 := lt_min (Real.exp_pos _) (by norm_num)
  rw [score_of_le hm hlow, score_of_gt hm hhigh]
  exact clamp_lt_iff hpenalty (by norm_num)

/-- **Loss costs score, and exactly when.** Raising the loss rate of an online path above 2%
lowers its score, or the score was 1, if and only if ten points per Mbps are less than 100 and
all penalties together. -/
theorem score_lt_iff (m : BbrPathMetrics ℝ) (hm : m.isOnline) (low high : ℝ) (hlow : low ≤ 2 / 100)
    (hhigh : 2 / 100 < high) :
    ((m.withLossRate high).calculateSchedulingScore Real.exp <
        (m.withLossRate low).calculateSchedulingScore Real.exp ∨
      (m.withLossRate low).calculateSchedulingScore Real.exp = 1) ↔
    m.maxBandwidthBps / 1000000 * 10 < 100 + min (Real.exp (high * 50)) 80 +
      min (m.jitterFilter.getEstimate / 10) 20 + if m.detectQueueBuildup then 30 else 0 := by
  rw [withLossRate_lt_iff hm low high hlow hhigh, otherPenalties]
  constructor <;> intro h <;> linarith

/-- A new path, at 1 Mbps. -/
theorem score_lt_new :
    ((new "eth0" 0).withLossRate (1 / 20)).calculateSchedulingScore Real.exp <
        ((new "eth0" 0).withLossRate 0).calculateSchedulingScore Real.exp ∨
      ((new "eth0" 0).withLossRate 0).calculateSchedulingScore Real.exp = 1 := by
  refine (score_lt_iff (new "eth0" 0) rfl 0 (1 / 20) (by norm_num) (by norm_num)).mpr ?_
  have hexp : 0 < min (Real.exp (1 / 20 * 50)) 80 := lt_min (Real.exp_pos _) (by norm_num)
  have hqueue : (new "eth0" 0 : BbrPathMetrics ℝ).detectQueueBuildup = false := by
    simp only [detectQueueBuildup, new, Duration.fromMillis, Duration.asSecsF64]
    norm_num
  rw [hqueue]
  simp only [new, JitterKalmanFilter.getEstimate, JitterKalmanFilter.default]
  norm_num
  linarith

/-- A path of 80 Mbps keeps its score of 100 when a packet is lost. -/
theorem loss_costs_nothing :
    ¬ ∀ (calls : List Call) (low high : ℝ), low ≤ 2 / 100 → 2 / 100 < high →
      (((new "eth0" 0).run calls).withLossRate high).calculateSchedulingScore Real.exp <
          (((new "eth0" 0).run calls).withLossRate low).calculateSchedulingScore Real.exp ∨
        (((new "eth0" 0).run calls).withLossRate low).calculateSchedulingScore Real.exp = 1 := by
  intro h
  let fast := (new "eth0" 0 : BbrPathMetrics ℝ).run [.bandwidth 100000 (.fromMillis 10) (10 ^ 7)]
  have honline : fast.isOnline := run_isOnline (new "eth0" 0) _
  have hfast := (withLossRate_lt_iff honline 0 (1 / 20) (by norm_num) (by norm_num)).mp
    (h _ 0 (1 / 20) (by norm_num) (by norm_num))
  -- 800 points, of which at most 130 are taken off
  have hsample : sampleBps ℝ 100000 (.fromMillis 10) = 80000000 := by
    norm_num [sampleBps, Duration.fromMillis, Duration.asSecsF64]
  have hbandwidth : sampleBps ℝ 100000 (.fromMillis 10) ≤ fast.maxBandwidthBps :=
    le_registerBandwidthSample (new "eth0" 0) 100000 (10 ^ 7) (by decide)
  have hpenalty := min_le_right (Real.exp (1 / 20 * 50)) 80
  have hothers := otherPenalties_le fast
  linarith

end BbrPathMetrics

end AetherBond.Core
