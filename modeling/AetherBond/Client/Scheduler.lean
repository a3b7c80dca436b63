import AetherBond.Client.Metrics
import Mathlib.Data.List.Sort

set_option autoImplicit false

/-! # The scheduler

`Scheduler` of `aetherbond/client/scheduler.py`. The random number of the weighted selection is an
argument, and so is the choice among links without scores.

Both selections pick one of the active links (`selectInterfaceWrr_mem`,
`selectInterfaceLowestLatency_mem`). A link is active as long as it is online and has a positive
score, so a link that stops answering stays active however many of its probes time out, unless it
was down before (`silent_link_excluded_iff`).
-/

namespace AetherBond.Client

open AetherBond.Lib

namespace Scheduler

/-! ## The source -/

/-- `get_active_links`. -/
def getActiveLinks (s : PathMonitor) : List LinkMetrics :=
  s.metrics.values.filter fun m => m.isOnline ∧ 0 < m.score

/-- The loop of the weighted selection, from `cumulative` on. -/
def weighted (fl : Rounding) (r : ℚ) : ℚ → List LinkMetrics → Option String
  | _, [] => none
  | cumulative, link :: links =>
      let cumulative := fl.round (cumulative + link.score)
      if r ≤ cumulative then some link.ip else weighted fl r cumulative links

/-- `select_interface_wrr`, where `random.uniform` returns `r`, or `random.choice` the link with
number `choice`. -/
def selectInterfaceWrr (fl : Rounding) (s : PathMonitor) (r : ℚ) (choice : Nat) :
    Except String String :=
  match getActiveLinks s with
  | [] => .error "No active network interfaces are online."
  | link :: links =>
      let totalScore := fl.sum ((link :: links).map LinkMetrics.score)
      if totalScore ≤ 0 then .ok (((link :: links)[choice]?).getD link).ip
      -- the sums are rounded, so `r` may be above the last of them
      else .ok ((weighted fl r 0 (link :: links)).getD link.ip)

/-- `select_interface_lowest_latency`. -/
def selectInterfaceLowestLatency (s : PathMonitor) : Except String String :=
  match (getActiveLinks s).mergeSort fun a b => a.rttMs ≤ b.rttMs with
  | [] => .error "No active network interfaces are online."
  | link :: _ => .ok link.ip

/-- An entry of `get_telemetry`; the loss is in percent. -/
structure Telemetry where
  name : String
  ip : String
  isSimulated : Bool
  isOnline : Bool
  rttMs : ℚ
  jitterMs : ℚ
  lossRate : ℚ
  bandwidthMbps : ℚ
  score : ℚ
  deriving DecidableEq

/-- `get_telemetry`. -/
def getTelemetry (fl : Rounding) (s : PathMonitor) : List Telemetry :=
  s.metrics.values.map fun m =>
    { name := m.name
      ip := m.ip
      isSimulated := m.isSimulated
      isOnline := m.isOnline
      rttMs := fl.decimals 2 m.rttMs
      jitterMs := fl.decimals 2 m.jitterMs
      lossRate := fl.decimals 2 (fl.round (m.lossRate * 100))
      bandwidthMbps := fl.decimals 2 m.bandwidthMbps
      score := m.score }

/-! ## What is selected -/

variable {fl : Rounding} {s s' : PathMonitor} {ip : String} {m : LinkMetrics}

theorem weighted_mem {r cumulative : ℚ} {links : List LinkMetrics}
    (h : weighted fl r cumulative links = some ip) : ∃ m ∈ links, m.ip = ip := by
  induction links generalizing cumulative with
  | nil => cases h
  | cons link links ih =>
      unfold weighted at h
      dsimp only at h
      split_ifs at h with hle
      · exact ⟨link, List.mem_cons_self, Option.some.inj h⟩
      · obtain ⟨m, hm, hip⟩ := ih h
        exact ⟨m, List.mem_cons_of_mem _ hm, hip⟩

/-- The weighted selection picks an active link. -/
theorem selectInterfaceWrr_mem {r : ℚ} {choice : Nat}
    (h : selectInterfaceWrr fl s r choice = .ok ip) : ∃ m ∈ getActiveLinks s, m.ip = ip := by
  unfold selectInterfaceWrr at h
  cases hlinks : getActiveLinks s with
  | nil =>
      rw [hlinks] at h
      cases h
  | cons link links =>
      rw [hlinks] at h
      dsimp only at h
      split_ifs at h
      · have hip := Except.ok.inj h
        cases hchoice : (link :: links)[choice]? with
        | none =>
            rw [hchoice] at hip
            exact ⟨link, List.mem_cons_self, hip⟩
        | some m =>
            rw [hchoice] at hip
            exact ⟨m, List.mem_of_getElem? hchoice, hip⟩
      · have hip := Except.ok.inj h
        cases hweighted : weighted fl r 0 (link :: links) with
        | none =>
            rw [hweighted] at hip
            exact ⟨link, List.mem_cons_self, hip⟩
        | some picked =>
            rw [hweighted] at hip
            exact weighted_mem (hweighted.trans (congrArg some hip))

/-- The selection by latency picks an active link. -/
theorem selectInterfaceLowestLatency_mem (h : selectInterfaceLowestLatency s = .ok ip) :
    ∃ m ∈ getActiveLinks s, m.ip = ip := by
  unfold selectInterfaceLowestLatency at h
  cases hsorted : (getActiveLinks s).mergeSort fun a b => a.rttMs ≤ b.rttMs with
  | nil =>
      rw [hsorted] at h
      cases h
  | cons link links =>
      rw [hsorted] at h
      have hfirst : link ∈ (getActiveLinks s).mergeSort fun a b => a.rttMs ≤ b.rttMs := by
        rw [hsorted]
        exact List.mem_cons_self
      exact ⟨link, List.mem_mergeSort.mp hfirst, Except.ok.inj h⟩

/-! ## Failover -/

/-- The link is not among the active ones, and neither selection picks it. -/
structure Excluded (fl : Rounding) (s : PathMonitor) (ip : String) : Prop where
  inactive : ∀ m ∈ getActiveLinks s, m.ip ≠ ip
  wrr : ∀ r choice, selectInterfaceWrr fl s r choice ≠ .ok ip
  lowestLatency : selectInterfaceLowestLatency s ≠ .ok ip

theorem Excluded.of_inactive (h : ∀ m ∈ getActiveLinks s, m.ip ≠ ip) : Excluded fl s ip where
  inactive := h
  wrr r choice hpicked := by
    obtain ⟨m, hm, hip⟩ := selectInterfaceWrr_mem hpicked
    exact h m hm hip
  lowestLatency hpicked := by
    obtain ⟨m, hm, hip⟩ := selectInterfaceLowestLatency_mem hpicked
    exact h m hm hip

/-- A link with a score is excluded exactly while it is offline. -/
theorem excluded_iff {es : List PathMonitor.Event} (h : PathMonitor.Tracks es s)
    (hget : s.metrics.get? ip = some m) (hscore : m.isOnline = true → 0 < m.score) :
    Excluded fl s ip ↔ m.isOnline = false := by
  constructor
  · intro hexcluded
    by_contra honline
    have honline := eq_true_of_ne_false honline
    refine hexcluded.inactive m (List.mem_filter.mpr ⟨Dict.mem_values.mpr ⟨ip, hget⟩, ?_⟩)
      (h.named ip m hget)
    exact decide_eq_true ⟨honline, hscore honline⟩
  · intro hoffline
    -- an active link of that address would be this one
    refine Excluded.of_inactive fun m' hm' hip => ?_
    obtain ⟨hvalue, hactive⟩ := List.mem_filter.mp hm'
    obtain ⟨k, hk⟩ := Dict.mem_values.mp hvalue
    obtain rfl : ip = k := hip.symm.trans (h.named k m' hk)
    obtain rfl : m = m' := Option.some.inj (hget.symm.trans hk)
    rw [hoffline] at hactive
    cases (of_decide_eq_true hactive).1

/-- A link that has been probed is excluded exactly if the last probe that showed anything showed
it to be down. -/
theorem probed_link_excluded_iff {es : List PathMonitor.Event}
    (hrun : runFrom (PathMonitor.step fl) .new es = some s) (hphysical : s.Physical ip)
    (hprobed : ∃ p ∈ PathMonitor.probesOf ip es, p.Completed) :
    Excluded fl s ip ↔ LastDown (PathMonitor.probesOf ip es) := by
  have htracks := PathMonitor.tracks_of_run hrun
  obtain ⟨m, hget, hsimulated⟩ := hphysical
  have hfollows := htracks.follows ip m hget hsimulated
  rw [excluded_iff htracks hget (hfollows.score hprobed), hfollows.online]
  unfold LastDown
  cases ((PathMonitor.probesOf ip es).filterMap Probe.verdict).getLast? with
  | none => simp
  | some b => simp

/-- Probes that time out show nothing. -/
theorem lastDown_timeouts (probes : List Probe) (k : Nat) :
    LastDown (probes ++ List.replicate k .timeout) ↔ LastDown probes := by
  unfold LastDown
  have hnone : (List.replicate k Probe.timeout).filterMap Probe.verdict = [] :=
    List.filterMap_eq_nil_iff.mpr fun p hp => by rw [(List.mem_replicate.mp hp).2]; rfl
  rw [List.filterMap_append, hnone, List.append_nil]

/-- **Silence excludes only a link that was down before.** After any number of probes that time
out, whatever the other links do in between, a link is excluded exactly if the last probe before
that showed anything showed it to be down. -/
theorem silent_link_excluded_iff (fl : Rounding) (es es' : List PathMonitor.Event) (k : Nat)
    (hrun : runFrom (PathMonitor.step fl) .new es = some s) (hphysical : s.Physical ip)
    (hrun' : runFrom (PathMonitor.step fl) s es' = some s') (hk : 0 < k)
    (hsilent : PathMonitor.probesOf ip es' = List.replicate k .timeout) :
    Excluded fl s' ip ↔ LastDown (PathMonitor.probesOf ip es) := by
  have hphysical' : s'.Physical ip :=
    runFrom_invariant (I := PathMonitor.Physical ip) (fun _ _ _ h hstep => h.step hstep) hphysical
      hrun'
  have hprobes : PathMonitor.probesOf ip (es ++ es') =
      PathMonitor.probesOf ip es ++ List.replicate k .timeout := by
    rw [PathMonitor.probesOf_append, hsilent]
  -- a probe that times out shows nothing, but it ends with a score
  have hprobed : ∃ p ∈ PathMonitor.probesOf ip (es ++ es'), p.Completed := by
    refine ⟨.timeout, ?_, fun _ h => nomatch h⟩
    rw [hprobes]
    exact List.mem_append_right _ (List.mem_replicate.mpr ⟨hk.ne', rfl⟩)
  rw [probed_link_excluded_iff (runFrom_append_eq_some.mpr ⟨s, hrun, hrun'⟩) hphysical' hprobed,
    hprobes, lastDown_timeouts]

/-- A link whose socket cannot be bound, and one that answers. -/
def boundAndUnbound : List PathMonitor.Event :=
  [.register "eth0" "10.0.0.2" false none, .register "wlan0" "10.0.0.3" false none,
    .probe "10.0.0.3" (.answered 20), .probe "10.0.0.2" (.raises false)]

theorem probesOf_timeouts (ip : String) (k : Nat) :
    PathMonitor.probesOf ip (List.replicate k (.probe ip .timeout)) =
      List.replicate k .timeout := by
  unfold PathMonitor.probesOf
  rw [List.filterMap_replicate_of_some]
  exact if_pos rfl

theorem silent_link_excluded_unbound :
    ∃ s s', runFrom (PathMonitor.step .exact) .new boundAndUnbound = some s ∧
      runFrom (PathMonitor.step .exact) s (List.replicate 3 (.probe "10.0.0.2" .timeout)) =
        some s' ∧
      Excluded .exact s' "10.0.0.2" := by
  have hphysical : ∃ s, runFrom (PathMonitor.step .exact) .new boundAndUnbound = some s ∧
      s.Physical "10.0.0.2" := ⟨_, rfl, _, rfl, rfl⟩
  obtain ⟨s, hrun, hphysical⟩ := hphysical
  obtain ⟨s', hrun'⟩ := hphysical.timeouts .exact 3
  have hdown : LastDown (PathMonitor.probesOf "10.0.0.2" boundAndUnbound) := rfl
  exact ⟨s, s', hrun, hrun', (silent_link_excluded_iff .exact _ _ 3 hrun hphysical hrun'
    (by decide) (probesOf_timeouts _ 3)).mpr hdown⟩

/-- A link that has answered once is never excluded by silence. -/
theorem silent_link_stays_active :
    ¬ ∃ k : Nat, ∀ (fl : Rounding) (es es' : List PathMonitor.Event) (s s' : PathMonitor)
      (ip : String), runFrom (PathMonitor.step fl) .new es = some s → s.Physical ip →
        runFrom (PathMonitor.step fl) s es' = some s' →
          PathMonitor.probesOf ip es' = List.replicate k .timeout → Excluded fl s' ip := by
  rintro ⟨k, hall⟩
  have hphysical : ∃ s, runFrom (PathMonitor.step .exact) .new
      [.register "eth0" "10.0.0.2" false none, .probe "10.0.0.2" (.answered 20)] = some s ∧
        s.Physical "10.0.0.2" := ⟨_, rfl, _, rfl, rfl⟩
  obtain ⟨s, hrun, hphysical⟩ := hphysical
  obtain ⟨s', hrun'⟩ := hphysical.timeouts .exact k
  have hexcluded := hall .exact _ _ s s' _ hrun hphysical hrun' (probesOf_timeouts _ k)
  have hphysical' : s'.Physical "10.0.0.2" :=
    runFrom_invariant (I := PathMonitor.Physical _) (fun _ _ _ h hstep => h.step hstep) hphysical
      hrun'
  have hlast := (probed_link_excluded_iff (runFrom_append_eq_some.mpr ⟨s, hrun, hrun'⟩) hphysical'
    ⟨.answered 20, List.mem_cons_self, fun _ h => nomatch h⟩).mp hexcluded
  rw [PathMonitor.probesOf_append, probesOf_timeouts, lastDown_timeouts] at hlast
  cases hlast

end Scheduler

end AetherBond.Client
