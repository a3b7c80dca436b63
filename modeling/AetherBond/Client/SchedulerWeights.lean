import AetherBond.Client.Scheduler
import AetherBond.Lib.Cumulative

set_option autoImplicit false

/-! # The shares of the links

In exact arithmetic the weighted selection divides the line from 0 to the sum of the scores among
the active links: each has a piece as long as its score, in the order of the registry, and it is
picked exactly for the draws in its piece (`wrr_proportional`). The `return` behind the loop and
the uniform choice are never reached.
-/

namespace AetherBond.Client

open AetherBond.Lib

/-- Each link is registered under its own address. -/
def PathMonitor.Named (s : PathMonitor) : Prop :=
  ∀ ip m, s.metrics.get? ip = some m → m.ip = ip

theorem PathMonitor.named_of_run {fl : Rounding} {es : List PathMonitor.Event} {s : PathMonitor}
    (hrun : runFrom (PathMonitor.step fl) .new es = some s) : s.Named :=
  (PathMonitor.tracks_of_run hrun).named

theorem PathMonitor.named_of_entries {s : PathMonitor} (h : ∀ e ∈ s.metrics.entries, e.2.ip = e.1) :
    s.Named :=
  fun ip m hget => h (ip, m) (Dict.get?_eq_some_iff.mp hget)

namespace Scheduler

variable {s : PathMonitor} {r cumulative : ℚ} {links : List LinkMetrics} {link : LinkMetrics}
  {i : Nat} {ip : String}

/-- The sum of the scores of the active links. -/
def totalScore (s : PathMonitor) : ℚ := ((getActiveLinks s).map LinkMetrics.score).sum

/-- The sum of the scores of the first `i` active links. -/
def scoreBefore (s : PathMonitor) (i : Nat) : ℚ := before LinkMetrics.score (getActiveLinks s) i

/-- The draws in the piece of the active link number `i`; the first one also has the draw 0. -/
def share (s : PathMonitor) (i : Nat) : Set ℚ :=
  if i = 0 then Set.Icc 0 (scoreBefore s 1) else Set.Ioc (scoreBefore s i) (scoreBefore s (i + 1))

/-! ## The active links -/

theorem active_eligible (h : link ∈ getActiveLinks s) : link.isOnline = true ∧ 0 < link.score :=
  of_decide_eq_true (List.mem_filter.mp h).2

theorem score_nonneg : ∀ link ∈ getActiveLinks s, 0 ≤ link.score :=
  fun _ h => (active_eligible h).2.le

/-- No two active links have the same address. -/
theorem activeIps_nodup (h : s.Named) : ((getActiveLinks s).map LinkMetrics.ip).Nodup := by
  have hkeys : s.metrics.values.map LinkMetrics.ip = s.metrics.keys := by
    unfold Dict.values Dict.keys
    rw [List.map_map]
    exact List.map_congr_left fun e he => h e.1 e.2 (Dict.get?_eq_some_iff.mpr he)
  have hnodup : (s.metrics.values.map LinkMetrics.ip).Nodup := by
    rw [hkeys]
    exact s.metrics.nodup
  exact hnodup.sublist (List.filter_sublist.map _)

theorem active_inj (h : s.Named) {j : Nat} {link' : LinkMetrics}
    (hi : (getActiveLinks s)[i]? = some link) (hj : (getActiveLinks s)[j]? = some link')
    (hip : link.ip = link'.ip) : i = j := by
  have hlt : i < ((getActiveLinks s).map LinkMetrics.ip).length := by
    rw [List.length_map]
    exact (List.getElem?_eq_some_iff.mp hi).1
  apply (List.getElem?_inj hlt (activeIps_nodup h)).mp
  rw [List.getElem?_map, List.getElem?_map, hi, hj, Option.map_some, Option.map_some, hip]

theorem totalScore_pos (h : getActiveLinks s ≠ []) : 0 < totalScore s := by
  apply List.sum_pos
  · intro x hx
    obtain ⟨link, hlink, rfl⟩ := List.mem_map.mp hx
    exact (active_eligible hlink).2
  · exact fun hnil => h (List.map_eq_nil_iff.mp hnil)

/-! ## The loop -/

/-- The loop of the source walks along the pieces. -/
theorem weighted_exact (r cumulative : ℚ) (links : List LinkMetrics) :
    weighted .exact r cumulative links =
      (pickAt LinkMetrics.score r cumulative links).bind fun i =>
        links[i]?.map LinkMetrics.ip := by
  induction links generalizing cumulative with
  | nil => rfl
  | cons link links ih =>
      show (if r ≤ cumulative + link.score then some link.ip
        else weighted .exact r (cumulative + link.score) links) = _
      unfold pickAt
      by_cases hle : r ≤ cumulative + link.score
      · rw [if_pos hle, if_pos hle]
        rfl
      · rw [if_neg hle, if_neg hle, ih]
        cases pickAt LinkMetrics.score r (cumulative + link.score) links with
        | none => rfl
        | some j => rfl

/-- A draw in the range lies in the piece of one of the links, and the loop finds it. -/
theorem weighted_picks (hactive : getActiveLinks s ≠ []) (hr : r ≤ totalScore s) :
    ∃ i link, (getActiveLinks s)[i]? = some link ∧
      pickAt LinkMetrics.score r 0 (getActiveLinks s) = some i ∧
      weighted .exact r 0 (getActiveLinks s) = some link.ip := by
  obtain ⟨i, hi⟩ : ∃ i, pickAt LinkMetrics.score r 0 (getActiveLinks s) = some i :=
    exists_pickAt hactive (hr.trans_eq (zero_add _).symm)
  have hlt := ((pickAt_eq_some_iff score_nonneg).mp hi).1
  refine ⟨i, (getActiveLinks s)[i], List.getElem?_eq_getElem hlt, hi, ?_⟩
  rw [weighted_exact, hi, Option.bind_some, List.getElem?_eq_getElem hlt]
  rfl

/-- The selection returns what the loop finds. -/
theorem selectInterfaceWrr_exact (hactive : getActiveLinks s ≠ []) (choice : Nat)
    (h : weighted .exact r 0 (getActiveLinks s) = some ip) :
    selectInterfaceWrr .exact s r choice = .ok ip := by
  have hpos := totalScore_pos hactive
  unfold selectInterfaceWrr
  unfold totalScore at hpos
  cases hlinks : getActiveLinks s with
  | nil => exact absurd hlinks hactive
  | cons link links =>
      rw [hlinks] at h hpos
      dsimp only
      rw [Rounding.exact_sum, if_neg (not_le.mpr hpos), h]
      rfl

/-! ## The shares -/

/-- The draws for which the walk stops at place `i`. -/
theorem pickAt_iff_share (h0 : 0 ≤ r) (hi : i < (getActiveLinks s).length) :
    pickAt LinkMetrics.score r 0 (getActiveLinks s) = some i ↔ r ∈ share s i := by
  rw [pickAt_eq_some_iff score_nonneg, zero_add, zero_add]
  unfold share scoreBefore
  by_cases hzero : i = 0
  · subst hzero
    rw [if_pos rfl]
    exact ⟨fun h => ⟨h0, h.2.2⟩, fun h => ⟨hi, .inl rfl, h.2⟩⟩
  · rw [if_neg hzero]
    exact ⟨fun h => ⟨h.2.1.resolve_left hzero, h.2.2⟩, fun h => ⟨hi, .inr h.1, h.2⟩⟩

/-- The pieces lie in the range of the draws. -/
theorem share_subset (hi : i < (getActiveLinks s).length) (h : r ∈ share s i) :
    0 ≤ r ∧ r ≤ totalScore s := by
  have hlow : 0 ≤ scoreBefore s i := before_nonneg score_nonneg i
  have hhigh : scoreBefore s (i + 1) ≤ totalScore s := by
    unfold scoreBefore totalScore
    rw [← before_length]
    exact before_mono score_nonneg hi
  unfold share at h
  split_ifs at h with hzero
  · subst hzero
    exact ⟨h.1, h.2.trans hhigh⟩
  · exact ⟨hlow.trans h.1.le, h.2.trans hhigh⟩

/-- The weighted selection in exact arithmetic. -/
structure Proportional (s : PathMonitor) (choice : Nat) : Prop where
  /-- A draw picks the active link in whose piece it lies. -/
  picks : ∀ r, 0 ≤ r → r ≤ totalScore s → ∃ i link, (getActiveLinks s)[i]? = some link ∧
    r ∈ share s i ∧ selectInterfaceWrr .exact s r choice = .ok link.ip ∧
    link.isOnline = true ∧ 0 < link.score
  /-- The draws that pick a link are its piece, which is as long as its score. -/
  draws : ∀ i link, (getActiveLinks s)[i]? = some link →
    {r | 0 ≤ r ∧ r ≤ totalScore s ∧ selectInterfaceWrr .exact s r choice = .ok link.ip} =
      share s i ∧ scoreBefore s (i + 1) - scoreBefore s i = link.score
  /-- Neither the uniform choice nor the `return` behind the loop is reached. -/
  noFallback : 0 < totalScore s ∧
    ∀ r, 0 ≤ r → r ≤ totalScore s → weighted .exact r 0 (getActiveLinks s) ≠ none

/-- **Each active link is picked for a set of draws as long as its score**, for every registry. -/
theorem wrr_proportional (s : PathMonitor) (choice : Nat) (hnamed : s.Named)
    (hactive : getActiveLinks s ≠ []) : Proportional s choice := by
  constructor
  case picks =>
    intro r h0 hr
    obtain ⟨i, link, hlink, hpick, hweighted⟩ := weighted_picks hactive hr
    have hlt := (List.getElem?_eq_some_iff.mp hlink).1
    obtain ⟨honline, hscore⟩ := active_eligible (List.mem_of_getElem? hlink)
    exact ⟨i, link, hlink, (pickAt_iff_share h0 hlt).mp hpick,
      selectInterfaceWrr_exact hactive choice hweighted, honline, hscore⟩
  case draws =>
    intro i link hlink
    have hlt := (List.getElem?_eq_some_iff.mp hlink).1
    refine ⟨Set.ext fun r => ⟨?_, fun hshare => ?_⟩, ?_⟩
    · rintro ⟨h0, hr, hselect⟩
      -- the link that the loop finds has this address, so it is this one
      obtain ⟨j, link', hlink', hpick, hweighted⟩ := weighted_picks hactive hr
      rw [selectInterfaceWrr_exact hactive choice hweighted] at hselect
      obtain rfl := active_inj hnamed hlink hlink' (Except.ok.inj hselect).symm
      exact (pickAt_iff_share h0 hlt).mp hpick
    · obtain ⟨h0, hr⟩ := share_subset hlt hshare
      refine ⟨h0, hr, selectInterfaceWrr_exact hactive choice ?_⟩
      rw [weighted_exact, (pickAt_iff_share h0 hlt).mpr hshare, Option.bind_some, hlink]
      rfl
    · unfold scoreBefore
      rw [before_succ hlink]
      exact add_sub_cancel_left _ _
  case noFallback =>
    refine ⟨totalScore_pos hactive, fun r _ hr hnone => ?_⟩
    obtain ⟨i, link, -, -, hweighted⟩ := weighted_picks hactive hr
    rw [hweighted] at hnone
    cases hnone

/-- Two links in use, and one between them that is down. -/
def failoverRegistry : PathMonitor where
  metrics :=
    ⟨[("192.168.1.50", { LinkMetrics.new "WiFi" "192.168.1.50" true with score := 50 }),
      ("10.0.0.50",
        { LinkMetrics.new "Ethernet" "10.0.0.50" true with score := 100, isOnline := false }),
      ("192.168.8.50", { LinkMetrics.new "LTE" "192.168.8.50" true with score := 20 })],
      by decide⟩

theorem wrr_proportional_failover : Proportional failoverRegistry 0 :=
  wrr_proportional failoverRegistry 0 (PathMonitor.named_of_entries (by decide)) (by decide +kernel)

end Scheduler

end AetherBond.Client
