import AetherBond.Lib.Dict
import AetherBond.Lib.Rounding
import AetherBond.Lib.Run

set_option autoImplicit false

/-! # The metrics of the links

`LinkMetrics` and `PathMonitor` of `aetherbond/client/metrics.py`. The loop of a link works on the
metrics of that link alone, and what it changes before an `await` is a counter that nothing else
reads, so a turn of the loop is one step. What a probe meets, how long it took and what the
simulator knows are the event's. A float is a rational, and each result is rounded by `fl`.

Whether a link is online is decided by its last probe that was answered or raised; a probe that
times out decides nothing (`Tracks.online`). The score of an online link is positive whatever the
losses are (`LinkMetrics.updateScore_pos`).
-/

namespace AetherBond.Client

open AetherBond.Lib

structure LinkMetrics where
  name : String
  ip : String
  isSimulated : Bool
  rttMs : ℚ
  jitterMs : ℚ
  lossRate : ℚ
  bandwidthMbps : ℚ
  isOnline : Bool
  score : ℚ
  rttHistory : List ℚ
  sentPackets : Nat
  receivedPackets : Nat
  deriving DecidableEq

/-- How a turn of the loop of a physical link ends. -/
inductive Probe
  | answered (rtt : ℚ)
  /-- No answer in 1.5 seconds. -/
  | timeout
  /-- `bind` raises, or after the packet was counted `sock_sendto` or `sock_recv`. -/
  | raises (sent : Bool)
  /-- `socket.socket` raises. -/
  | noSocket
  /-- The loop is cancelled, before or after the packet was counted. -/
  | cancelled (sent : Bool)
  deriving DecidableEq

/-- What the simulator says about a link. -/
inductive SimulatedLink
  | alive (bandwidthMbps latencyMs jitter : ℚ) (lost : Bool)
  | dead
  deriving DecidableEq

namespace LinkMetrics

/-- `__init__`. -/
def new (name ip : String) (isSimulated : Bool) : LinkMetrics where
  name := name
  ip := ip
  isSimulated := isSimulated
  rttMs := 0
  jitterMs := 0
  lossRate := 0
  bandwidthMbps := 0
  isOnline := true
  score := 0
  rttHistory := []
  sentPackets := 0
  receivedPackets := 0

variable (fl : Rounding)

/-- `update_score`. -/
def updateScore (m : LinkMetrics) : LinkMetrics :=
  if m.isOnline then
    let rttFactor := max 1 m.rttMs
    let lossPenalty := fl.round (m.lossRate * 500)
    -- a link of unknown bandwidth counts as one of 10 Mbps
    let bw := if 0 < m.bandwidthMbps then m.bandwidthMbps else 10
    let score := fl.round (fl.round (bw * 100) / fl.round (rttFactor + lossPenalty))
    { m with score := fl.decimals 2 (max (fl.round (1 / 10)) score) }
  else { m with score := 0 }

/-- `PathMonitor._record_rtt`. -/
def recordRtt (m : LinkMetrics) (rtt : ℚ) : LinkMetrics :=
  let appended := m.rttHistory ++ [rtt]
  -- the last ten samples
  let history := if 10 < appended.length then appended.drop 1 else appended
  let rttMs := fl.round (fl.sum history / history.length)
  { m with
    rttHistory := history
    rttMs := rttMs
    jitterMs :=
      if 1 < history.length then
        fl.round (fl.sum (history.map fun r => |fl.round (r - rttMs)|) / history.length)
      else 0 }

/-- The loss rate over all packets so far. -/
def updateLoss (m : LinkMetrics) : LinkMetrics :=
  if 0 < m.sentPackets then
    { m with
      lossRate := fl.round ((m.sentPackets - m.receivedPackets : ℚ) / m.sentPackets) }
  else m

def countSent (m : LinkMetrics) : LinkMetrics := { m with sentPackets := m.sentPackets + 1 }

def countReceived (m : LinkMetrics) : LinkMetrics :=
  { m with receivedPackets := m.receivedPackets + 1 }

/-- The metrics of a link that is down. -/
def down (m : LinkMetrics) : LinkMetrics :=
  { m with isOnline := false, lossRate := 1, rttMs := 9999 }

/-- A turn of `_monitor_loop` of a physical link. -/
def probe (m : LinkMetrics) : Probe → LinkMetrics
  | .answered rtt =>
      let answered := { m.countSent.countReceived with isOnline := true }
      ((answered.recordRtt fl rtt).updateLoss fl).updateScore fl
  -- the loss grows, and the link stays as it was
  | .timeout => (m.countSent.updateLoss fl).updateScore fl
  | .raises sent => (if sent then m.countSent else m).down.updateScore fl
  | .noSocket => { m with isOnline := false }.updateScore fl
  | .cancelled sent => if sent then m.countSent else m

/-- A turn of `_monitor_loop` of a simulated link. -/
def simulate (m : LinkMetrics) : SimulatedLink → LinkMetrics
  | .alive bandwidthMbps latencyMs jitter lost =>
      let m := { m with isOnline := true, bandwidthMbps := bandwidthMbps }.countSent
      let currentRtt := max 1 (fl.round (fl.round (latencyMs * 2) + jitter))
      let m := if lost then m else m.countReceived.recordRtt fl currentRtt
      (m.updateLoss fl).updateScore fl
  | .dead => m.down.updateScore fl

end LinkMetrics

structure PathMonitor where
  metrics : Dict String LinkMetrics

namespace PathMonitor

/-- `__init__`. -/
def new : PathMonitor := ⟨.empty⟩

/-- `register_interface`; `simulated` is the bandwidth the simulator has for the link, if it
knows it. -/
def registerInterface (s : PathMonitor) (name ip : String) (isSimulated : Bool)
    (simulated : Option ℚ) : PathMonitor :=
  match s.metrics.get? ip with
  -- a link that is known keeps its metrics
  | some _ => s
  | none =>
      let m := LinkMetrics.new name ip isSimulated
      ⟨s.metrics.set ip
        { m with bandwidthMbps := if isSimulated then simulated.getD m.bandwidthMbps else 50 }⟩

inductive Event
  | register (name ip : String) (isSimulated : Bool) (simulated : Option ℚ)
  | probe (ip : String) (probe : Probe)
  | simulate (ip : String) (link : SimulatedLink)
  deriving DecidableEq

def step (fl : Rounding) (s : PathMonitor) : Event → Option PathMonitor
  | .register name ip isSimulated simulated =>
      some (s.registerInterface name ip isSimulated simulated)
  | .probe ip probe =>
      match s.metrics.get? ip with
      | some m => if m.isSimulated then none else some ⟨s.metrics.set ip (m.probe fl probe)⟩
      | none => none
  | .simulate ip link =>
      match s.metrics.get? ip with
      | some m => if m.isSimulated then some ⟨s.metrics.set ip (m.simulate fl link)⟩ else none
      | none => none

/-- The steps, by what they find. -/
inductive Steps (fl : Rounding) (s : PathMonitor) : Event → PathMonitor → Prop
  | register (name ip : String) (isSimulated : Bool) (simulated : Option ℚ) :
      Steps fl s (.register name ip isSimulated simulated)
        (s.registerInterface name ip isSimulated simulated)
  | probe {ip : String} {m : LinkMetrics} (hget : s.metrics.get? ip = some m)
      (hphysical : m.isSimulated = false) (probe : Probe) :
      Steps fl s (.probe ip probe) ⟨s.metrics.set ip (m.probe fl probe)⟩
  | simulate {ip : String} {m : LinkMetrics} (hget : s.metrics.get? ip = some m)
      (hsimulated : m.isSimulated = true) (link : SimulatedLink) :
      Steps fl s (.simulate ip link) ⟨s.metrics.set ip (m.simulate fl link)⟩

theorem step_cases {fl : Rounding} {s s' : PathMonitor} {e : Event}
    (hstep : s.step fl e = some s') : Steps fl s e s' := by
  cases e with
  | register name ip isSimulated simulated =>
      exact Option.some.inj hstep ▸ .register name ip isSimulated simulated
  | probe ip probe =>
      unfold PathMonitor.step at hstep
      dsimp only at hstep
      split at hstep
      · next hget =>
          split_ifs at hstep with hsimulated
          exact Option.some.inj hstep ▸ .probe hget (eq_false_of_ne_true hsimulated) probe
      · cases hstep
  | simulate ip link =>
      unfold PathMonitor.step at hstep
      dsimp only at hstep
      split at hstep
      · next hget =>
          split_ifs at hstep with hsimulated
          exact Option.some.inj hstep ▸ .simulate hget hsimulated link
      · cases hstep

end PathMonitor

/-! ## What a probe decides -/

/-- Whether a probe shows the link to be up or down; `none` if it shows neither. -/
def Probe.verdict : Probe → Option Bool
  | .answered _ => some true
  | .timeout => none
  | .raises _ => some false
  | .noSocket => some false
  | .cancelled _ => none

/-- The probe was not cut short. -/
def Probe.Completed (p : Probe) : Prop := ∀ sent, p ≠ .cancelled sent

/-- The last probe that showed anything showed that the link is down. -/
def LastDown (probes : List Probe) : Prop := (probes.filterMap Probe.verdict).getLast? = some false

namespace LinkMetrics

variable (fl : Rounding) (m : LinkMetrics)

/-- What the link is and whether it is online are the same. -/
structure Same (m m' : LinkMetrics) : Prop where
  ip : m'.ip = m.ip
  isSimulated : m'.isSimulated = m.isSimulated
  isOnline : m'.isOnline = m.isOnline

theorem Same.trans {m₁ m₂ m₃ : LinkMetrics} (h : Same m₁ m₂) (h' : Same m₂ m₃) : Same m₁ m₃ :=
  ⟨h'.ip.trans h.ip, h'.isSimulated.trans h.isSimulated, h'.isOnline.trans h.isOnline⟩

theorem updateScore_same : Same m (m.updateScore fl) := by
  unfold updateScore
  split_ifs <;> exact ⟨rfl, rfl, rfl⟩

theorem recordRtt_same (rtt : ℚ) : Same m (m.recordRtt fl rtt) := ⟨rfl, rfl, rfl⟩

theorem updateLoss_same : Same m (m.updateLoss fl) := by
  unfold updateLoss
  split_ifs <;> exact ⟨rfl, rfl, rfl⟩

/-- The clamp keeps the score of an online link positive. -/
theorem updateScore_pos (h : m.isOnline = true) : 0 < (m.updateScore fl).score := by
  unfold updateScore
  rw [if_pos h]
  exact fl.decimals_two_pos (le_max_left _ _)

/-- **What a turn decides**: the link is online as its probe shows, and as before if that shows
nothing. -/
theorem probe_isOnline (p : Probe) :
    (m.probe fl p).isOnline = p.verdict.getD m.isOnline := by
  cases p with
  | answered rtt =>
      exact (((recordRtt_same fl _ rtt).trans (updateLoss_same fl _)).trans
        (updateScore_same fl _)).isOnline
  | timeout => exact ((updateLoss_same fl m.countSent).trans (updateScore_same fl _)).isOnline
  | raises sent => exact (updateScore_same fl _).isOnline
  | noSocket => exact (updateScore_same fl _).isOnline
  | cancelled sent => cases sent <;> rfl

theorem probe_link (p : Probe) :
    (m.probe fl p).ip = m.ip ∧ (m.probe fl p).isSimulated = m.isSimulated := by
  cases p with
  | answered rtt =>
      have hrecord := recordRtt_same fl { m.countSent.countReceived with isOnline := true } rtt
      have hsame := (hrecord.trans (updateLoss_same fl _)).trans (updateScore_same fl _)
      exact ⟨hsame.ip, hsame.isSimulated⟩
  | timeout =>
      have hsame := (updateLoss_same fl m.countSent).trans (updateScore_same fl _)
      exact ⟨hsame.ip, hsame.isSimulated⟩
  | raises sent =>
      have hsame := updateScore_same fl (if sent then m.countSent else m).down
      cases sent <;> exact ⟨hsame.ip, hsame.isSimulated⟩
  | noSocket =>
      have hsame := updateScore_same fl { m with isOnline := false }
      exact ⟨hsame.ip, hsame.isSimulated⟩
  | cancelled sent => cases sent <;> exact ⟨rfl, rfl⟩

/-- A turn that was not cut short ends with a new score. -/
theorem probe_score_pos {p : Probe} (hp : p.Completed) (h : (m.probe fl p).isOnline = true) :
    0 < (m.probe fl p).score := by
  have hscore : ∃ m' : LinkMetrics, m.probe fl p = m'.updateScore fl := by
    cases p with
    | answered rtt => exact ⟨_, rfl⟩
    | timeout => exact ⟨_, rfl⟩
    | raises sent => exact ⟨_, rfl⟩
    | noSocket => exact ⟨_, rfl⟩
    | cancelled sent => exact absurd rfl (hp sent)
  -- `update_score` comes last and does not change `is_online`
  obtain ⟨m', heq⟩ := hscore
  rw [heq] at h ⊢
  exact updateScore_pos fl m' ((updateScore_same fl m').isOnline.symm.trans h)

theorem simulate_link (link : SimulatedLink) :
    (m.simulate fl link).ip = m.ip ∧ (m.simulate fl link).isSimulated = m.isSimulated := by
  cases link with
  | dead =>
      have hsame := updateScore_same fl m.down
      exact ⟨hsame.ip, hsame.isSimulated⟩
  | alive bandwidthMbps latencyMs jitter lost =>
      cases lost with
      | true =>
          have hsame := (updateLoss_same fl
            { m with isOnline := true, bandwidthMbps := bandwidthMbps }.countSent).trans
              (updateScore_same fl _)
          exact ⟨hsame.ip, hsame.isSimulated⟩
      | false =>
          have hsame := ((recordRtt_same fl { m with
              isOnline := true
              bandwidthMbps := bandwidthMbps }.countSent.countReceived
                (max 1 (fl.round (fl.round (latencyMs * 2) + jitter)))).trans
              (updateLoss_same fl _)).trans (updateScore_same fl _)
          exact ⟨hsame.ip, hsame.isSimulated⟩

end LinkMetrics

/-! ## Runs -/

namespace PathMonitor

variable {fl : Rounding} {s s' : PathMonitor} {ip : String} {m : LinkMetrics} {es : List Event}

/-- The probe of the link `ip` that an event is. -/
def Event.probe? (ip : String) : Event → Option Probe
  | .register _ _ _ _ => none
  | .probe ip' p => if ip' = ip then some p else none
  | .simulate _ _ => none

/-- The probes of the link `ip`. -/
def probesOf (ip : String) (es : List Event) : List Probe := es.filterMap (Event.probe? ip)

theorem probesOf_append (ip : String) (es es' : List Event) :
    probesOf ip (es ++ es') = probesOf ip es ++ probesOf ip es' := List.filterMap_append

theorem probesOf_concat_of_none {e : Event} (h : e.probe? ip = none) :
    probesOf ip (es ++ [e]) = probesOf ip es := by
  rw [probesOf_append, probesOf, probesOf, List.filterMap_cons_none h]
  exact List.append_nil _

/-- The metrics of a physical link follow from its probes. -/
structure Follows (probes : List Probe) (m : LinkMetrics) : Prop where
  online : m.isOnline = ((probes.filterMap Probe.verdict).getLast?).getD true
  score : (∃ p ∈ probes, p.Completed) → m.isOnline = true → 0 < m.score

/-- The metrics after a run. -/
structure Tracks (es : List Event) (s : PathMonitor) : Prop where
  named : ∀ ip m, s.metrics.get? ip = some m → m.ip = ip
  unknown : ∀ ip, s.metrics.get? ip = none → probesOf ip es = []
  follows : ∀ ip m, s.metrics.get? ip = some m → m.isSimulated = false →
    Follows (probesOf ip es) m

theorem Follows.probe {probes : List Probe} (h : Follows probes m) (p : Probe) :
    Follows (probes ++ [p]) (m.probe fl p) := by
  constructor
  case online =>
    rw [LinkMetrics.probe_isOnline, List.filterMap_append, h.online]
    cases hverdict : p.verdict with
    | none => simp [hverdict]
    | some b => simp [hverdict]
  case score =>
    rintro ⟨q, hq, hcompleted⟩ honline
    -- a turn that was cut short leaves the score of an earlier one
    by_cases hp : p.Completed
    · exact m.probe_score_pos fl hp honline
    obtain ⟨sent, rfl⟩ : ∃ sent, p = .cancelled sent := by
      unfold Probe.Completed at hp
      push Not at hp
      exact hp
    have hold : q ∈ probes := (List.mem_append.mp hq).resolve_right fun hlast =>
      hcompleted sent (List.mem_singleton.mp hlast)
    have hscore := h.score ⟨q, hold, hcompleted⟩
    cases sent <;> exact hscore honline

/-- What changes is the metrics of one link. -/
theorem Tracks.set (h : Tracks es s) {e : Event} (hname : m.ip = ip)
    (hother : ∀ k ≠ ip, e.probe? k = none)
    (hfollows : m.isSimulated = false → Follows (probesOf ip (es ++ [e])) m) :
    Tracks (es ++ [e]) ⟨s.metrics.set ip m⟩ := by
  constructor
  case named => exact Dict.forall_get?_set hname fun k x _ => h.named k x
  case unknown =>
    intro k hk
    obtain ⟨hne, hk⟩ := Dict.get?_set_eq_none.mp hk
    rw [probesOf_concat_of_none (hother k hne)]
    exact h.unknown k hk
  case follows =>
    refine Dict.forall_get?_set hfollows fun k x hne hold => ?_
    rw [probesOf_concat_of_none (hother k hne)]
    exact h.follows k x hold

/-- A link that nobody probes is registered, or was already. -/
theorem Tracks.register (h : Tracks es s) (name ip : String) (isSimulated : Bool)
    (simulated : Option ℚ) :
    Tracks (es ++ [.register name ip isSimulated simulated])
      (s.registerInterface name ip isSimulated simulated) := by
  have hprobes : ∀ k, probesOf k (es ++ [.register name ip isSimulated simulated]) =
      probesOf k es := fun k => probesOf_concat_of_none rfl
  unfold registerInterface
  cases hget : s.metrics.get? ip with
  | some m =>
      exact ⟨h.named, fun k hk => (hprobes k).trans (h.unknown k hk),
        fun k x hk hphysical => by rw [hprobes]; exact h.follows k x hk hphysical⟩
  | none =>
      refine h.set rfl (fun _ _ => rfl) fun _ => ?_
      rw [hprobes, h.unknown ip hget]
      exact ⟨rfl, fun ⟨_, hp, _⟩ => nomatch hp⟩

/-- **Step lemma.** -/
theorem Tracks.step {e : Event} (h : Tracks es s) (hstep : s.step fl e = some s') :
    Tracks (es ++ [e]) s' := by
  cases step_cases hstep with
  | register name ip isSimulated simulated => exact h.register name ip isSimulated simulated
  | @probe ip m hget hphysical p =>
      refine h.set ((m.probe_link fl p).1.trans (h.named ip m hget))
        (fun k hk => if_neg hk.symm) fun _ => ?_
      have hone : probesOf ip [.probe ip p] = [p] := by
        simp [probesOf, Event.probe?]
      rw [probesOf_append, hone]
      exact (h.follows ip m hget hphysical).probe p
  | @simulate ip m hget hsimulated link =>
      -- nothing is said about simulated links
      refine h.set ((m.simulate_link fl link).1.trans (h.named ip m hget)) (fun _ _ => rfl)
        fun hnot => ?_
      rw [(m.simulate_link fl link).2, hsimulated] at hnot
      cases hnot

/-- **Run lemma.** -/
theorem tracks_of_run (hrun : runFrom (PathMonitor.step fl) new es = some s) : Tracks es s := by
  -- the invariant is about the probes so far, so the run is taken apart at its end
  induction es using List.reverseRecOn generalizing s with
  | nil =>
      obtain rfl := Option.some.inj hrun
      exact ⟨fun _ _ h => (nomatch h), fun _ _ => rfl, fun _ _ h => nomatch h⟩
  | append_singleton es e ih =>
      obtain ⟨s₁, hfirst, hlast⟩ := runFrom_append_eq_some.mp hrun
      obtain ⟨s₂, hstep, hnil⟩ := runFrom_cons_eq_some.mp hlast
      obtain rfl := Option.some.inj hnil
      exact (ih hfirst).step hstep

/-- A physical link that was registered stays one. -/
def Physical (ip : String) (s : PathMonitor) : Prop :=
  ∃ m, s.metrics.get? ip = some m ∧ m.isSimulated = false

theorem Physical.step {e : Event} (h : Physical ip s) (hstep : s.step fl e = some s') :
    Physical ip s' := by
  obtain ⟨m, hm, hphysical⟩ := h
  have hset : ∀ {k : String} {x x' : LinkMetrics}, s.metrics.get? k = some x →
      x'.isSimulated = x.isSimulated → Physical ip ⟨s.metrics.set k x'⟩ := by
    intro k x x' hk hsame
    unfold Physical
    rw [Dict.get?_set]
    by_cases heq : ip = k
    · rw [if_pos heq]
      obtain rfl : m = x := Option.some.inj (hm.symm.trans (heq ▸ hk))
      exact ⟨x', rfl, hsame.trans hphysical⟩
    · rw [if_neg heq]
      exact ⟨m, hm, hphysical⟩
  cases step_cases hstep with
  | register name k isSimulated simulated =>
      -- a link that is known is not registered a second time
      unfold registerInterface
      cases hk : s.metrics.get? k with
      | some x => exact ⟨m, hm, hphysical⟩
      | none =>
          refine ⟨m, ?_, hphysical⟩
          rw [Dict.get?_set, if_neg fun heq => ?_, hm]
          rw [heq, hk] at hm
          cases hm
  | @probe k x hget _ p => exact hset hget (x.probe_link fl p).2
  | @simulate k x hget _ link => exact hset hget (x.simulate_link fl link).2

/-- A physical link can time out any number of times. -/
theorem Physical.timeouts (h : Physical ip s) (fl : Rounding) (k : Nat) :
    ∃ s', runFrom (PathMonitor.step fl) s (List.replicate k (.probe ip .timeout)) = some s' := by
  induction k generalizing s with
  | zero => exact ⟨s, rfl⟩
  | succ k ih =>
      obtain ⟨m, hm, hphysical⟩ := h
      have hstep : s.step fl (.probe ip .timeout) =
          some ⟨s.metrics.set ip (m.probe fl .timeout)⟩ := by
        simp only [PathMonitor.step, hm, hphysical]
        rfl
      obtain ⟨s', hrun⟩ := ih (Physical.step ⟨m, hm, hphysical⟩ hstep)
      exact ⟨s', runFrom_cons_eq_some.mpr ⟨_, hstep, hrun⟩⟩

end PathMonitor

end AetherBond.Client
