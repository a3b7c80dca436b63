import AetherBond.Lib.Rounding
import AetherBond.Lib.Run

set_option autoImplicit false

/-! # The congestion state of a path

`JitterKalmanFilter` and `BbrPathMetrics` of `aetherbond-core/src/congestion/mod.rs`. A float is a
number of an ordered field `K` and nothing is rounded; a run can be evaluated over `ℚ`, and the
exponential of the score is a parameter. A `Duration` and an `Instant` count nanoseconds, and
each call is given what `Instant::now()` returns in it.

Every call that measures ends with `recalculate_congestion_window`, so the window is never below
four frames (`run_cwndBytes`). The pacing rate has no such floor: it is a multiple of the largest
bandwidth, which a sample of no bytes replaces once it has expired (`run_canSend_iff`).
-/

namespace AetherBond.Core

open AetherBond.Lib

/-! ## The jitter filter -/

structure JitterKalmanFilter (K : Type*) where
  q : K
  r : K
  x : K
  p : K
  k : K

namespace JitterKalmanFilter

variable {K : Type*} [Field K]

/-- `JitterKalmanFilter::default`. -/
def default : JitterKalmanFilter K where
  q := 1 / 20
  r := 2
  x := 0
  p := 1
  k := 0

def new (processNoise measurementNoise : K) : JitterKalmanFilter K where
  q := processNoise
  r := measurementNoise
  x := 0
  p := 1
  k := 0

/-- `update`. It returns the new `x`. -/
def update (f : JitterKalmanFilter K) (measurement : K) : JitterKalmanFilter K :=
  let p := f.p + f.q
  let k := p / (p + f.r)
  { f with
    x := f.x + k * (measurement - f.x)
    p := p * (1 - k)
    k := k }

def getEstimate (f : JitterKalmanFilter K) : K := f.x

/-- A list of measurements, one after the other. -/
def updates (f : JitterKalmanFilter K) (measurements : List K) : JitterKalmanFilter K :=
  measurements.foldl update f

end JitterKalmanFilter

/-! ## The metrics -/

/-- Nanoseconds. -/
abbrev Duration := Nat

/-- Nanoseconds since some moment before the program started. -/
abbrev Instant := Nat

def Duration.fromMillis (n : Nat) : Duration := n * 10 ^ 6

def Duration.fromSecs (n : Nat) : Duration := n * 10 ^ 9

/-- `as_secs_f64`. -/
def Duration.asSecsF64 (K : Type*) [Field K] (d : Duration) : K := (d : K) / 10 ^ 9

/-- `Duration::from_secs_f64`, to the nearest nanosecond. -/
def Duration.fromSecsF64 (secs : ℚ) : Duration := (roundHalfEven (secs * 10 ^ 9)).toNat

/-- `duration_since`: zero if `earlier` is later. -/
def Instant.durationSince (now earlier : Instant) : Duration := now - earlier

/-- `as usize` of a float, which saturates. -/
def asUsize {K : Type*} [Field K] [LinearOrder K] [FloorRing K] (x : K) : Nat :=
  min ⌊x⌋.toNat (2 ^ 64 - 1)

structure BbrPathMetrics (K : Type*) where
  interfaceIp : String
  smoothedRtt : Duration
  minRtt : Duration
  minRttTimestamp : Instant
  observedBandwidthBps : K
  maxBandwidthBps : K
  maxBwTimestamp : Instant
  packetLossRate : K
  jitterFilter : JitterKalmanFilter K
  cwndBytes : Nat
  pacingRateBps : K
  isOnline : Bool

namespace BbrPathMetrics

/-! ### The two extremes -/

/-- The sliding window over which the extremes are kept. -/
def window : Duration := .fromSecs 10

section Tracking

variable {K : Type*} (m : BbrPathMetrics K)

/-- The update of `min_rtt`. -/
def trackMinRtt (rtt : Duration) (now : Instant) : BbrPathMetrics K :=
  if rtt < m.minRtt ∨ window < now.durationSince m.minRttTimestamp then
    { m with minRtt := rtt, minRttTimestamp := now }
  else m

@[simp] theorem trackMinRtt_maxBandwidthBps (rtt : Duration) (now : Instant) :
    (m.trackMinRtt rtt now).maxBandwidthBps = m.maxBandwidthBps := by
  unfold trackMinRtt
  split_ifs <;> rfl

@[simp] theorem trackMinRtt_maxBwTimestamp (rtt : Duration) (now : Instant) :
    (m.trackMinRtt rtt now).maxBwTimestamp = m.maxBwTimestamp := by
  unfold trackMinRtt
  split_ifs <;> rfl

@[simp] theorem trackMinRtt_isOnline (rtt : Duration) (now : Instant) :
    (m.trackMinRtt rtt now).isOnline = m.isOnline := by
  unfold trackMinRtt
  split_ifs <;> rfl

variable [LinearOrder K]

/-- The update of `max_bandwidth_bps`. -/
def trackMaxBandwidth (bps : K) (now : Instant) : BbrPathMetrics K :=
  if m.maxBandwidthBps < bps ∨ window < now.durationSince m.maxBwTimestamp then
    { m with maxBandwidthBps := bps, maxBwTimestamp := now }
  else m

/-- A sample is not above the largest bandwidth it leaves behind. -/
theorem le_trackMaxBandwidth (bps : K) (now : Instant) :
    bps ≤ (m.trackMaxBandwidth bps now).maxBandwidthBps := by
  unfold trackMaxBandwidth
  split_ifs with h
  · exact le_rfl
  · exact not_lt.mp (not_or.mp h).1

@[simp] theorem trackMaxBandwidth_isOnline (bps : K) (now : Instant) :
    (m.trackMaxBandwidth bps now).isOnline = m.isOnline := by
  unfold trackMaxBandwidth
  split_ifs <;> rfl

@[simp] theorem trackMaxBandwidth_minRtt (bps : K) (now : Instant) :
    (m.trackMaxBandwidth bps now).minRtt = m.minRtt := by
  unfold trackMaxBandwidth
  split_ifs <;> rfl

@[simp] theorem trackMaxBandwidth_minRttTimestamp (bps : K) (now : Instant) :
    (m.trackMaxBandwidth bps now).minRttTimestamp = m.minRttTimestamp := by
  unfold trackMaxBandwidth
  split_ifs <;> rfl

end Tracking

/-! ### The calls -/

variable {K : Type*} [Field K]

def new (interfaceIp : String) (now : Instant) : BbrPathMetrics K where
  interfaceIp := interfaceIp
  smoothedRtt := .fromMillis 50
  minRtt := .fromMillis 50
  minRttTimestamp := now
  observedBandwidthBps := 0
  maxBandwidthBps := 1000000
  maxBwTimestamp := now
  packetLossRate := 0
  jitterFilter := .default
  cwndBytes := 1472 * 10
  pacingRateBps := 1000000
  isOnline := true

/-- `register_transmission`. -/
def registerTransmission (m : BbrPathMetrics K) (isLost : Bool) : BbrPathMetrics K :=
  let alpha : K := 1 / 20
  let sample : K := if isLost then 1 else 0
  { m with packetLossRate := m.packetLossRate * (1 - alpha) + sample * alpha }

variable [LinearOrder K]

/-- `detect_queue_buildup`: above the least RTT by 30% and 15 ms. -/
def detectQueueBuildup (m : BbrPathMetrics K) : Bool :=
  let threshold : K := m.minRtt.asSecsF64 K * (13 / 10) + 15 / 1000
  threshold < m.smoothedRtt.asSecsF64 K

/-- `calculate_scheduling_score`, for an exponential function. -/
def calculateSchedulingScore (exp : K → K) (m : BbrPathMetrics K) : K :=
  if ¬ m.isOnline then 0
  else
    let baseBwMbps := m.maxBandwidthBps / 1000000
    let lossPenalty :=
      if 2 / 100 < m.packetLossRate then min (exp (m.packetLossRate * 50)) 80 else 0
    let jitterPenalty := min (m.jitterFilter.getEstimate / 10) 20
    let queuePenalty : K := if m.detectQueueBuildup then 30 else 0
    let rawScore := baseBwMbps * 10 - lossPenalty - jitterPenalty - queuePenalty
    min (max rawScore 1) 100

/-- The two penalties that have nothing to do with loss. -/
def otherPenalties (m : BbrPathMetrics K) : K :=
  min (m.jitterFilter.getEstimate / 10) 20 + if m.detectQueueBuildup then 30 else 0

variable [FloorRing K]

/-- `recalculate_congestion_window`. -/
def recalculateCongestionWindow (m : BbrPathMetrics K) : BbrPathMetrics K :=
  let bdpBytes := asUsize (m.maxBandwidthBps * m.minRtt.asSecsF64 K / 8)
  let multiplier : K := if m.detectQueueBuildup then 5 / 4 else 2
  let targetCwnd := asUsize ((bdpBytes : K) * multiplier)
  let pacingGain : K := if m.detectQueueBuildup then 3 / 4 else 5 / 4
  { m with
    cwndBytes := max targetCwnd (1472 * 4)
    pacingRateBps := m.maxBandwidthBps * pacingGain }

/-- `register_rtt_sample`. -/
def registerRttSample (m : BbrPathMetrics K) (rtt : Duration) (now : Instant) : BbrPathMetrics K :=
  let smoothedRtt := Duration.fromSecsF64
    (m.smoothedRtt.asSecsF64 ℚ * (7 / 8) + rtt.asSecsF64 ℚ * (1 / 8))
  let m := { m with smoothedRtt := smoothedRtt }.trackMinRtt rtt now
  let jitterDeviationMs := |rtt.asSecsF64 K - m.smoothedRtt.asSecsF64 K| * 1000
  { m with jitterFilter := m.jitterFilter.update jitterDeviationMs }.recalculateCongestionWindow

/-- The throughput of a sample, in bits per second. -/
def sampleBps (K : Type*) [Field K] (bytes : Nat) (elapsed : Duration) : K :=
  (bytes : K) * 8 / elapsed.asSecsF64 K

/-- `register_bandwidth_sample`. -/
def registerBandwidthSample (m : BbrPathMetrics K) (bytes : Nat) (elapsed : Duration)
    (now : Instant) : BbrPathMetrics K :=
  if elapsed = 0 then m
  else
    let bps := sampleBps K bytes elapsed
    ({ m with observedBandwidthBps := bps }.trackMaxBandwidth bps now).recalculateCongestionWindow

/-! ## Runs -/

/-- A call, with the time it is made at where the code reads the clock. -/
inductive Call
  | rtt (rtt : Duration) (now : Instant)
  | bandwidth (bytes : Nat) (elapsed : Duration) (now : Instant)
  | transmission (isLost : Bool)
  deriving DecidableEq, Repr

def apply (m : BbrPathMetrics K) : Call → BbrPathMetrics K
  | .rtt rtt now => m.registerRttSample rtt now
  | .bandwidth bytes elapsed now => m.registerBandwidthSample bytes elapsed now
  | .transmission isLost => m.registerTransmission isLost

/-- The metrics after a list of calls. -/
def run (m : BbrPathMetrics K) (calls : List Call) : BbrPathMetrics K := calls.foldl apply m

@[simp] theorem run_nil (m : BbrPathMetrics K) : m.run [] = m := rfl

@[simp] theorem run_concat (m : BbrPathMetrics K) (calls : List Call) (c : Call) :
    m.run (calls ++ [c]) = (m.run calls).apply c := by
  simp [run]

/-! ## What a call changes -/

section Fields

variable (m : BbrPathMetrics K) (rtt : Duration) (bytes : Nat) (now : Instant)

@[simp] theorem recalculate_minRtt : m.recalculateCongestionWindow.minRtt = m.minRtt := rfl

@[simp] theorem recalculate_minRttTimestamp :
    m.recalculateCongestionWindow.minRttTimestamp = m.minRttTimestamp := rfl

@[simp] theorem recalculate_maxBandwidthBps :
    m.recalculateCongestionWindow.maxBandwidthBps = m.maxBandwidthBps := rfl

@[simp] theorem recalculate_maxBwTimestamp :
    m.recalculateCongestionWindow.maxBwTimestamp = m.maxBwTimestamp := rfl

@[simp] theorem recalculate_isOnline : m.recalculateCongestionWindow.isOnline = m.isOnline := rfl

@[simp] theorem registerRttSample_maxBandwidthBps :
    (m.registerRttSample rtt now).maxBandwidthBps = m.maxBandwidthBps := by
  simp [registerRttSample]

theorem registerBandwidthSample_zero : m.registerBandwidthSample bytes 0 now = m := rfl

theorem le_registerBandwidthSample {elapsed : Duration} (h : elapsed ≠ 0) :
    sampleBps K bytes elapsed ≤ (m.registerBandwidthSample bytes elapsed now).maxBandwidthBps := by
  rw [registerBandwidthSample, if_neg h]
  exact le_trackMaxBandwidth _ _ now

/-- No call takes a path offline. -/
theorem apply_isOnline (c : Call) : (m.apply c).isOnline = m.isOnline := by
  cases c with
  | rtt rtt now => simp [apply, registerRttSample]
  | bandwidth bytes elapsed now =>
      by_cases helapsed : elapsed = 0 <;> simp [apply, registerBandwidthSample, helapsed]
  | transmission isLost => rfl

theorem run_isOnline (calls : List Call) : (m.run calls).isOnline = m.isOnline := by
  induction calls using List.reverseRecOn with
  | nil => rfl
  | append_singleton calls c ih => rw [run_concat, apply_isOnline, ih]

end Fields

/-! ## Sending

The window has a floor, the rate has none: it is a gain times the largest bandwidth. -/

/-- The rate is positive, and the window holds four frames. -/
def CanSend (m : BbrPathMetrics K) : Prop := 0 < m.pacingRateBps ∧ 1472 * 4 ≤ m.cwndBytes

instance (m : BbrPathMetrics K) : Decidable m.CanSend := inferInstanceAs (Decidable (_ ∧ _))

/-- A sample of no bytes comes while the largest bandwidth has not expired. -/
def KeepsRate (m : BbrPathMetrics K) : Call → Prop
  | .bandwidth bytes elapsed now =>
      bytes = 0 → elapsed = 0 ∨ now.durationSince m.maxBwTimestamp ≤ window
  | _ => True

theorem run_cwndBytes (interfaceIp : String) (start : Instant) (calls : List Call) :
    1472 * 4 ≤ ((new interfaceIp start : BbrPathMetrics K).run calls).cwndBytes := by
  induction calls using List.reverseRecOn with
  | nil => simp [new]
  | append_singleton calls c ih =>
      rw [run_concat]
      cases c with
      | rtt rtt now => simp [apply, registerRttSample, recalculateCongestionWindow]
      | bandwidth bytes elapsed now =>
          by_cases helapsed : elapsed = 0
          · simpa [apply, helapsed, registerBandwidthSample_zero] using ih
          · simp [apply, registerBandwidthSample, helapsed, recalculateCongestionWindow]
      | transmission isLost => simpa [apply, registerTransmission] using ih

instance (m : BbrPathMetrics K) : ∀ c, Decidable (m.KeepsRate c)
  | .rtt _ _ => isTrue trivial
  | .bandwidth _ _ _ => inferInstanceAs (Decidable (_ → _))
  | .transmission _ => isTrue trivial

section Sending

variable [IsStrictOrderedRing K]

theorem sampleBps_pos_iff {bytes : Nat} {elapsed : Duration} (h : elapsed ≠ 0) :
    0 < sampleBps K bytes elapsed ↔ bytes ≠ 0 := by
  have helapsed : (0 : K) < elapsed.asSecsF64 K := by
    unfold Duration.asSecsF64
    have : (0 : K) < (elapsed : K) := by exact_mod_cast Nat.pos_of_ne_zero h
    positivity
  unfold sampleBps
  rw [div_pos_iff_of_pos_right helapsed]
  simp [Nat.pos_iff_ne_zero]

/-- What ends with `recalculate_congestion_window` can send exactly if it has a bandwidth. -/
theorem recalculate_canSend_iff (m : BbrPathMetrics K) :
    m.recalculateCongestionWindow.CanSend ↔ 0 < m.maxBandwidthBps := by
  have hgain : (0 : K) < if m.detectQueueBuildup then 3 / 4 else 5 / 4 := by
    split_ifs <;> norm_num
  unfold CanSend recalculateCongestionWindow
  dsimp only
  rw [mul_pos_iff_of_pos_right hgain]
  simp

/-- **The step lemma**: a call keeps the largest bandwidth positive, or nothing more is sent. -/
theorem apply_canSend_iff {m : BbrPathMetrics K} (hbw : 0 < m.maxBandwidthBps) (hm : m.CanSend)
    (c : Call) : (m.apply c).CanSend ↔ m.KeepsRate c := by
  cases c with
  | rtt rtt now =>
      simp [apply, registerRttSample, recalculate_canSend_iff, KeepsRate, hbw]
  | bandwidth bytes elapsed now =>
      by_cases helapsed : elapsed = 0
      · simpa [apply, helapsed, registerBandwidthSample_zero, KeepsRate] using hm
      · have hbps : 0 < sampleBps K bytes elapsed ↔ bytes ≠ 0 := sampleBps_pos_iff helapsed
        have hzero : bytes = 0 → sampleBps K bytes elapsed = 0 := by
          rintro rfl
          simp [sampleBps]
        simp only [apply, registerBandwidthSample, helapsed, if_false, recalculate_canSend_iff,
          trackMaxBandwidth, KeepsRate, false_or]
        split_ifs with hnew
        · -- the sample is the largest one now, whatever it is
          rw [hbps]
          constructor
          · exact fun hne hz => absurd hz hne
          · intro hkeeps hz
            rcases hnew with hlt | hexpired
            · rw [hzero hz] at hlt
              exact absurd hlt hbw.not_gt
            · exact absurd (hkeeps hz) hexpired.not_ge
        · simp only [hbw, true_iff]
          exact fun _ => not_lt.mp fun hexpired => hnew (Or.inr hexpired)
  | transmission isLost => simpa [apply, registerTransmission, CanSend, KeepsRate] using hm

/-- As long as a path can send, it has a bandwidth. -/
theorem CanSend.maxBandwidthBps_pos {m : BbrPathMetrics K} {c : Call}
    (hbw : 0 < m.maxBandwidthBps) (h : (m.apply c).CanSend) : 0 < (m.apply c).maxBandwidthBps := by
  cases c with
  | rtt rtt now => simpa [apply] using hbw
  | bandwidth bytes elapsed now =>
      by_cases helapsed : elapsed = 0
      · simpa [apply, helapsed, registerBandwidthSample_zero] using hbw
      · simp only [apply, registerBandwidthSample, helapsed, if_false] at h ⊢
        exact (recalculate_canSend_iff _).mp h
  | transmission isLost => simpa [apply, registerTransmission] using hbw

omit [FloorRing K] in
theorem new_canSend (interfaceIp : String) (start : Instant) :
    (new interfaceIp start : BbrPathMetrics K).CanSend := by
  simp [CanSend, new]

/-- **A path can always send, and exactly when.** In every state of a run the rate is positive and
the window holds four frames if and only if no sample of no bytes comes when the largest bandwidth
has expired. -/
theorem run_canSend_iff (interfaceIp : String) (start : Instant) (calls : List Call) :
    (∀ pre, pre <+: calls → ((new interfaceIp start : BbrPathMetrics K).run pre).CanSend) ↔
      ∀ pre c, pre ++ [c] <+: calls →
        ((new interfaceIp start : BbrPathMetrics K).run pre).KeepsRate c := by
  have hinit : (new interfaceIp start : BbrPathMetrics K).CanSend := new_canSend interfaceIp start
  rw [forall_prefix_iff hinit]
  refine forall_prefixes_iff
    (J := fun pre => 0 < ((new interfaceIp start : BbrPathMetrics K).run pre).maxBandwidthBps ∧
      ((new interfaceIp start : BbrPathMetrics K).run pre).CanSend) ⟨?_, hinit⟩ ?_ ?_
  · simp [new]
  · intro pre c _ hpre
    rw [run_concat]
    exact apply_canSend_iff hpre.1 hpre.2 c
  · intro pre c _ hpre hkeeps
    rw [run_concat]
    have hsend := (apply_canSend_iff hpre.1 hpre.2 c).mpr hkeeps
    exact ⟨hsend.maxBandwidthBps_pos hpre.1, hsend⟩

/-- A packet a second, and one that is lost. -/
theorem run_canSend_busy :
    ((new "eth0" 0 : BbrPathMetrics ℚ).run
      [.bandwidth 1500 (.fromSecs 1) (10 ^ 9), .transmission true]).CanSend := by
  refine (run_canSend_iff "eth0" 0 _).mpr (forall_prefixes_iff_take.mpr ?_) _ (List.prefix_refl _)
  decide +kernel

end Sending

/-- Nothing was sent for eleven seconds: the rate is 0 from then on. -/
theorem idle_stops :
    ¬ ∀ (calls : List Call) (pre : List Call), pre <+: calls →
      ((new "eth0" 0 : BbrPathMetrics ℚ).run pre).CanSend := by
  intro h
  have hidle := h [.bandwidth 0 (.fromSecs 1) (11 * 10 ^ 9)] _ (List.prefix_refl _)
  revert hidle
  decide +kernel

end BbrPathMetrics

end AetherBond.Core
