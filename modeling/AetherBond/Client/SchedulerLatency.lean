import AetherBond.Client.Scheduler

set_option autoImplicit false

/-! # The link of lowest latency

`rtt_ms` is the average of the last ten answers from the first answer on, but it is 0 before that
and 9999 from when a link goes down to its next answer. A probe that is lost in between leaves
such a link online, with a score, so it takes part in the selection with a time that nobody has
measured.

In a run without such a probe every active link has a measured time (`Timed`), and the selection
by latency picks the link whose average is lowest (`run_lowestMeasured`).
-/

namespace AetherBond.Client

open AetherBond.Lib

/-! ## Answers -/

/-- The last ten of a list. -/
def lastTen (l : List ℚ) : List ℚ := l.drop (l.length - 10)

/-- The average of RTT samples, as it is computed. -/
def average (fl : Rounding) (rtts : List ℚ) : ℚ := fl.round (fl.sum rtts / rtts.length)

/-- `rtt_ms` is the average of answers. -/
def LinkMetrics.Measured (fl : Rounding) (m : LinkMetrics) : Prop :=
  m.rttHistory ≠ [] ∧ m.rttMs = average fl m.rttHistory

instance (fl : Rounding) (m : LinkMetrics) : Decidable (m.Measured fl) :=
  inferInstanceAs (Decidable (_ ∧ _))

namespace PathMonitor

/-- The RTT of the answer of the link `ip` that an event is. -/
def Event.answer? (fl : Rounding) (ip : String) : Event → Option ℚ
  | .register _ _ _ _ => none
  | .probe ip' (.answered rtt) => if ip' = ip then some rtt else none
  | .probe _ _ => none
  | .simulate ip' (.alive _ latencyMs jitter false) =>
      if ip' = ip then some (max 1 (fl.round (fl.round (latencyMs * 2) + jitter))) else none
  | .simulate _ _ => none

/-- The RTTs of the answers of the link `ip`. -/
def answersOf (fl : Rounding) (ip : String) (es : List Event) : List ℚ :=
  es.filterMap (Event.answer? fl ip)

/-- The average over the last ten answers of the link `ip`. -/
def averageRtt (fl : Rounding) (ip : String) (es : List Event) : ℚ :=
  average fl (lastTen (answersOf fl ip es))

/-- No probe is lost of a link that counts as online, or comes back, without a measured time. -/
def MeasuredFirst (fl : Rounding) (s : PathMonitor) : Event → Prop
  | .probe ip .timeout => ∀ m ∈ s.metrics.get? ip, m.isOnline = true → m.Measured fl
  | .simulate ip (.alive _ _ _ true) => ∀ m ∈ s.metrics.get? ip, m.Measured fl
  | _ => True

instance (fl : Rounding) (s : PathMonitor) : ∀ e, Decidable (MeasuredFirst fl s e)
  | .probe _ .timeout => inferInstanceAs (Decidable (∀ m ∈ _, _ → _))
  | .simulate _ (.alive _ _ _ true) => inferInstanceAs (Decidable (∀ m ∈ _, _))
  | .register _ _ _ _ => isTrue trivial
  | .probe _ (.answered _) => isTrue trivial
  | .probe _ (.raises _) => isTrue trivial
  | .probe _ .noSocket => isTrue trivial
  | .probe _ (.cancelled _) => isTrue trivial
  | .simulate _ (.alive _ _ _ false) => isTrue trivial
  | .simulate _ .dead => isTrue trivial

end PathMonitor

/-! ## A turn of the loop -/

theorem lastTen_concat (l : List ℚ) (x : ℚ) :
    lastTen (l ++ [x]) =
      if 10 < (lastTen l ++ [x]).length then (lastTen l ++ [x]).drop 1 else lastTen l ++ [x] := by
  unfold lastTen
  rw [List.length_append, List.length_append, List.length_drop, List.length_singleton]
  by_cases h : l.length < 10
  · rw [if_neg (by omega), show l.length + 1 - 10 = 0 by omega, show l.length - 10 = 0 by omega,
      List.drop_zero, List.drop_zero]
  · rw [if_pos (by omega), List.drop_append_of_le_length (by omega),
      List.drop_append_of_le_length (by rw [List.length_drop]; omega), List.drop_drop,
      show l.length - 10 + 1 = l.length + 1 - 10 by omega]

theorem lastTen_ne_nil {l : List ℚ} : lastTen l ≠ [] ↔ l ≠ [] := by
  unfold lastTen
  rw [ne_eq, List.drop_eq_nil_iff, ne_eq, ← List.length_eq_zero_iff]
  omega

namespace LinkMetrics

variable (fl : Rounding) (m : LinkMetrics)

/-- The samples and what was computed from them are the same. -/
def SameRtt (m m' : LinkMetrics) : Prop := m'.rttHistory = m.rttHistory ∧ m'.rttMs = m.rttMs

variable {fl m}

theorem SameRtt.measured {m' : LinkMetrics} (h : SameRtt m m') (hm : m.Measured fl) :
    m'.Measured fl := by
  unfold Measured
  rw [h.1, h.2]
  exact hm

theorem SameRtt.trans {m₁ m₂ m₃ : LinkMetrics} (h : SameRtt m₁ m₂) (h' : SameRtt m₂ m₃) :
    SameRtt m₁ m₃ := ⟨h'.1.trans h.1, h'.2.trans h.2⟩

variable (fl m)

theorem updateScore_sameRtt : SameRtt m (m.updateScore fl) := by
  unfold updateScore
  split_ifs <;> exact ⟨rfl, rfl⟩

theorem updateLoss_sameRtt : SameRtt m (m.updateLoss fl) := by
  unfold updateLoss
  split_ifs <;> exact ⟨rfl, rfl⟩

/-- The loss rate and the score say nothing about the samples. -/
theorem scored_sameRtt : SameRtt m ((m.updateLoss fl).updateScore fl) :=
  (updateLoss_sameRtt fl m).trans (updateScore_sameRtt fl _)

/-- A recorded answer makes the time a measured one. -/
theorem recordRtt_measured (rtt : ℚ) : (m.recordRtt fl rtt).Measured fl := by
  refine ⟨?_, rfl⟩
  show (if 10 < (m.rttHistory ++ [rtt]).length then (m.rttHistory ++ [rtt]).drop 1
    else m.rttHistory ++ [rtt]) ≠ []
  split_ifs with h
  · intro hnil
    have := List.drop_eq_nil_iff.mp hnil
    omega
  · simp

/-- The samples are the last ten. -/
theorem recordRtt_history {rtts : List ℚ} (h : m.rttHistory = lastTen rtts) (rtt : ℚ) :
    (m.recordRtt fl rtt).rttHistory = lastTen (rtts ++ [rtt]) := by
  rw [lastTen_concat, ← h]
  rfl

end LinkMetrics

/-! ## Runs -/

namespace PathMonitor

variable {fl : Rounding} {s s' : PathMonitor} {ip : String} {m : LinkMetrics} {es : List Event}

/-- The times of the links after a run. -/
structure Timed (fl : Rounding) (es : List Event) (s : PathMonitor) : Prop where
  named : ∀ ip m, s.metrics.get? ip = some m → m.ip = ip
  unknown : ∀ ip, s.metrics.get? ip = none → answersOf fl ip es = []
  history : ∀ ip m, s.metrics.get? ip = some m → m.rttHistory = lastTen (answersOf fl ip es)
  measured : ∀ ip m, s.metrics.get? ip = some m → m.isOnline = true → 0 < m.score → m.Measured fl

theorem answersOf_concat (fl : Rounding) (ip : String) (es : List Event) (e : Event) :
    answersOf fl ip (es ++ [e]) = answersOf fl ip es ++ (e.answer? fl ip).toList := by
  unfold answersOf
  rw [List.filterMap_append]
  cases h : e.answer? fl ip with
  | none => rw [List.filterMap_cons_none h]; rfl
  | some rtt => rw [List.filterMap_cons_some h]; rfl

theorem answersOf_concat_of_none {e : Event} (h : e.answer? fl ip = none) :
    answersOf fl ip (es ++ [e]) = answersOf fl ip es := by
  rw [answersOf_concat, h]
  exact List.append_nil _

/-- What changes is the metrics of one link. -/
theorem Timed.set (h : Timed fl es s) {e : Event} (hname : m.ip = ip)
    (hother : ∀ k ≠ ip, e.answer? fl k = none)
    (hhistory : m.rttHistory = lastTen (answersOf fl ip (es ++ [e])))
    (hmeasured : m.isOnline = true → 0 < m.score → m.Measured fl) :
    Timed fl (es ++ [e]) ⟨s.metrics.set ip m⟩ := by
  constructor
  case named => exact Dict.forall_get?_set hname fun k x _ => h.named k x
  case unknown =>
    intro k hk
    obtain ⟨hne, hk⟩ := Dict.get?_set_eq_none.mp hk
    rw [answersOf_concat_of_none (hother k hne)]
    exact h.unknown k hk
  case history =>
    refine Dict.forall_get?_set hhistory fun k x hne hold => ?_
    rw [answersOf_concat_of_none (hother k hne)]
    exact h.history k x hold
  case measured => exact Dict.forall_get?_set hmeasured fun k x _ => h.measured k x

theorem Timed.register (h : Timed fl es s) (name ip : String) (isSimulated : Bool)
    (simulated : Option ℚ) :
    Timed fl (es ++ [.register name ip isSimulated simulated])
      (s.registerInterface name ip isSimulated simulated) := by
  have hanswers : ∀ k, answersOf fl k (es ++ [.register name ip isSimulated simulated]) =
      answersOf fl k es := fun k => answersOf_concat_of_none rfl
  unfold registerInterface
  cases hget : s.metrics.get? ip with
  | some m =>
      exact ⟨h.named, fun k hk => (hanswers k).trans (h.unknown k hk),
        fun k x hk => by rw [hanswers]; exact h.history k x hk, h.measured⟩
  | none =>
      refine h.set rfl (fun _ _ => rfl) ?_ fun _ hscore => absurd hscore (lt_irrefl 0)
      rw [hanswers, h.unknown ip hget]
      rfl

/-- A probe that records nothing. -/
theorem Timed.lost (h : Timed fl es s) {e : Event} {m' : LinkMetrics}
    (hget : s.metrics.get? ip = some m) (hname : m'.ip = m.ip)
    (hnone : ∀ k, e.answer? fl k = none) (hhistory : m'.rttHistory = m.rttHistory)
    (hmeasured : m'.isOnline = true → 0 < m'.score → m'.Measured fl) :
    Timed fl (es ++ [e]) ⟨s.metrics.set ip m'⟩ := by
  refine h.set (hname.trans (h.named ip m hget)) (fun k _ => hnone k) ?_ hmeasured
  rw [answersOf_concat_of_none (hnone ip), hhistory]
  exact h.history ip m hget

/-- A probe that is answered. -/
theorem Timed.answered (h : Timed fl es s) {e : Event} {m₁ m' : LinkMetrics} {rtt : ℚ}
    (hget : s.metrics.get? ip = some m) (hname : m'.ip = m.ip)
    (hanswer : e.answer? fl ip = some rtt) (hother : ∀ k ≠ ip, e.answer? fl k = none)
    (hbefore : m₁.rttHistory = m.rttHistory) (hsame : (m₁.recordRtt fl rtt).SameRtt m') :
    Timed fl (es ++ [e]) ⟨s.metrics.set ip m'⟩ := by
  refine h.set (hname.trans (h.named ip m hget)) hother ?_
    fun _ _ => hsame.measured (m₁.recordRtt_measured fl rtt)
  rw [hsame.1, answersOf_concat, hanswer]
  exact m₁.recordRtt_history fl (hbefore.trans (h.history ip m hget)) rtt

/-- **Step lemma.** -/
theorem Timed.step {e : Event} (h : Timed fl es s) (hfirst : MeasuredFirst fl s e)
    (hstep : s.step fl e = some s') : Timed fl (es ++ [e]) s' := by
  cases step_cases hstep with
  | register name ip isSimulated simulated => exact h.register name ip isSimulated simulated
  | @probe ip m hget hphysical p =>
      have hname := (m.probe_link fl p).1
      have honline := m.probe_isOnline fl p
      cases p with
      | answered rtt =>
          exact h.answered hget hname (if_pos rfl) (fun k hk => if_neg hk.symm) rfl
            (LinkMetrics.scored_sameRtt fl _)
      | timeout =>
          have hsame : m.SameRtt (m.probe fl .timeout) := LinkMetrics.scored_sameRtt fl m.countSent
          refine h.lost hget hname (fun _ => rfl) hsame.1 fun hon _ => ?_
          exact hsame.measured (hfirst m hget (honline.symm.trans hon))
      | raises sent =>
          refine h.lost hget hname (fun _ => rfl) ?_ fun hon => ?_
          · cases sent <;> exact (LinkMetrics.updateScore_sameRtt fl _).1
          · rw [honline] at hon
            cases hon
      | noSocket =>
          refine h.lost hget hname (fun _ => rfl) (LinkMetrics.updateScore_sameRtt fl _).1
            fun hon => ?_
          rw [honline] at hon
          cases hon
      | cancelled sent =>
          -- a turn that was cut short leaves the score as it was
          have hold := h.measured ip m hget
          refine h.lost hget hname (fun _ => rfl) ?_ ?_
          · cases sent <;> rfl
          · cases sent <;> exact hold
  | @simulate ip m hget hsimulated link =>
      have hname := (m.simulate_link fl link).1
      cases link with
      | dead =>
          refine h.lost hget hname (fun _ => rfl) (LinkMetrics.updateScore_sameRtt fl _).1
            fun hon => ?_
          have hdown : (m.simulate fl .dead).isOnline = false :=
            (LinkMetrics.updateScore_same fl m.down).isOnline
          rw [hdown] at hon
          cases hon
      | alive bandwidthMbps latencyMs jitter lost =>
          cases lost with
          | true =>
              have hsame : m.SameRtt (m.simulate fl (.alive bandwidthMbps latencyMs jitter true)) :=
                LinkMetrics.scored_sameRtt fl
                  { m with isOnline := true, bandwidthMbps := bandwidthMbps }.countSent
              exact h.lost hget hname (fun _ => rfl) hsame.1
                fun _ _ => hsame.measured (hfirst m hget)
          | false =>
              exact h.answered hget hname (if_pos rfl) (fun k hk => if_neg hk.symm) rfl
                (LinkMetrics.scored_sameRtt fl _)

/-- **Run lemma.** -/
theorem timed_of_run (hrun : runFrom (PathMonitor.step fl) new es = some s)
    (hfirst : Along (PathMonitor.step fl) (MeasuredFirst fl) new es) : Timed fl es s := by
  induction es using List.reverseRecOn generalizing s with
  | nil =>
      obtain rfl := Option.some.inj hrun
      exact ⟨fun _ _ h => (nomatch h), fun _ _ => rfl, fun _ _ h => (nomatch h),
        fun _ _ h => nomatch h⟩
  | append_singleton es e ih =>
      obtain ⟨s₁, hinit, hlast⟩ := runFrom_append_eq_some.mp hrun
      obtain ⟨s₂, hstep, hnil⟩ := runFrom_cons_eq_some.mp hlast
      obtain rfl := Option.some.inj hnil
      obtain ⟨hpre, hrest⟩ := along_append.mp hfirst
      exact (ih hinit hpre).step (hrest s₁ hinit).1 hstep

end PathMonitor

/-! ## The selection -/

namespace Scheduler

open PathMonitor

variable {fl : Rounding} {s : PathMonitor} {es : List PathMonitor.Event}

/-- The selection picks an active link whose `rtt_ms` no other one is below. -/
theorem selectInterfaceLowestLatency_min (h : getActiveLinks s ≠ []) :
    ∃ best ∈ getActiveLinks s, selectInterfaceLowestLatency s = .ok best.ip ∧
      ∀ m ∈ getActiveLinks s, best.rttMs ≤ m.rttMs := by
  have hsorted : ((getActiveLinks s).mergeSort fun a b => a.rttMs ≤ b.rttMs).Pairwise
      fun a b => a.rttMs ≤ b.rttMs := by
    have hpairwise := @List.pairwise_mergeSort _ (fun a b => decide (a.rttMs ≤ b.rttMs))
      (fun a b c hab hbc => decide_eq_true ((of_decide_eq_true hab).trans (of_decide_eq_true hbc)))
      (fun a b => by simpa using le_total a.rttMs b.rttMs) (getActiveLinks s)
    exact hpairwise.imp of_decide_eq_true
  unfold selectInterfaceLowestLatency
  cases hlinks : (getActiveLinks s).mergeSort fun a b => a.rttMs ≤ b.rttMs with
  | nil =>
      have hperm := List.mergeSort_perm (getActiveLinks s) fun a b => a.rttMs ≤ b.rttMs
      rw [hlinks] at hperm
      exact absurd hperm.symm.eq_nil h
  | cons best rest =>
      have hmem : ∀ m, m ∈ best :: rest ↔ m ∈ getActiveLinks s := fun m => by
        rw [← hlinks, List.mem_mergeSort]
      rw [hlinks] at hsorted
      refine ⟨best, (hmem best).mp List.mem_cons_self, rfl, fun m hm => ?_⟩
      rcases List.mem_cons.mp ((hmem m).mpr hm) with rfl | hrest
      · exact le_rfl
      · exact List.rel_of_pairwise_cons hsorted hrest

/-- If an active link has answered, the selection picks one that has, and whose average over its
last ten answers is the lowest among those that have. -/
def LowestMeasured (fl : Rounding) (es : List PathMonitor.Event) (s : PathMonitor) : Prop :=
  (∃ m ∈ getActiveLinks s, answersOf fl m.ip es ≠ []) →
    ∃ best ∈ getActiveLinks s, selectInterfaceLowestLatency s = .ok best.ip ∧
      answersOf fl best.ip es ≠ [] ∧
      ∀ m ∈ getActiveLinks s, answersOf fl m.ip es ≠ [] →
        averageRtt fl best.ip es ≤ averageRtt fl m.ip es

/-- An active link has answered, and `rtt_ms` is the average of its last answers. -/
theorem rttMs_of_active (h : Timed fl es s) {m : LinkMetrics} (hm : m ∈ getActiveLinks s) :
    answersOf fl m.ip es ≠ [] ∧ m.rttMs = averageRtt fl m.ip es := by
  obtain ⟨hvalue, hactive⟩ := List.mem_filter.mp hm
  obtain ⟨honline, hscore⟩ := of_decide_eq_true hactive
  obtain ⟨k, hk⟩ := Dict.mem_values.mp hvalue
  obtain ⟨hsome, hrtt⟩ := h.measured k m hk honline hscore
  obtain rfl := h.named k m hk
  rw [h.history _ m hk] at hsome hrtt
  exact ⟨lastTen_ne_nil.mp hsome, hrtt⟩

/-- **The selection by latency goes by measured times** in every run in which no probe is lost of
a link that is online, or comes back, without a measured time. -/
theorem run_lowestMeasured (fl : Rounding) (es : List PathMonitor.Event)
    (hrun : runFrom (PathMonitor.step fl) .new es = some s)
    (hfirst : Along (PathMonitor.step fl) (MeasuredFirst fl) .new es) :
    LowestMeasured fl es s := by
  rintro ⟨m₀, hm₀, -⟩
  have htimed := timed_of_run hrun hfirst
  obtain ⟨best, hbest, hselect, hmin⟩ :=
    selectInterfaceLowestLatency_min (List.ne_nil_of_mem hm₀)
  obtain ⟨hanswered, hrtt⟩ := rttMs_of_active htimed hbest
  refine ⟨best, hbest, hselect, hanswered, fun m hm _ => ?_⟩
  calc averageRtt fl best.ip es = best.rttMs := hrtt.symm
    _ ≤ m.rttMs := hmin m hm
    _ = averageRtt fl m.ip es := (rttMs_of_active htimed hm).2

/-- Two links that answer, and one of them loses a probe later. -/
def lossAfterAnswers : List PathMonitor.Event :=
  [.register "eth0" "10.0.0.2" false none, .register "wlan0" "10.0.0.3" false none,
    .probe "10.0.0.3" (.answered 20), .probe "10.0.0.2" (.answered 8), .probe "10.0.0.2" .timeout]

theorem run_lowestMeasured_lossAfterAnswers :
    ∃ s, runFrom (PathMonitor.step .exact) .new lossAfterAnswers = some s ∧
      LowestMeasured .exact lossAfterAnswers s :=
  ⟨_, rfl, run_lowestMeasured .exact lossAfterAnswers rfl (by decide +kernel)⟩

/-- The first probe of one link is lost, the other link answers. -/
def lossBeforeAnswer : List PathMonitor.Event :=
  [.register "eth0" "10.0.0.2" false none, .register "wlan0" "10.0.0.3" false none,
    .probe "10.0.0.2" .timeout, .probe "10.0.0.3" (.answered 20)]

/-- The link that has never answered is the one that is picked. -/
theorem unanswered_link_selected :
    ∃ s, runFrom (PathMonitor.step .exact) .new lossBeforeAnswer = some s ∧
      selectInterfaceLowestLatency s = .ok "10.0.0.2" ∧
      ¬ LowestMeasured .exact lossBeforeAnswer s := by
  have hactive : ∀ s ∈ runFrom (PathMonitor.step .exact) .new lossBeforeAnswer,
      (∃ m ∈ getActiveLinks s, answersOf .exact m.ip lossBeforeAnswer ≠ []) ∧
      ∀ m ∈ getActiveLinks s, (∀ m' ∈ getActiveLinks s, m.rttMs ≤ m'.rttMs) →
        m.ip = "10.0.0.2" := by
    decide +kernel
  obtain ⟨s, hrun⟩ : ∃ s, runFrom (PathMonitor.step .exact) .new lossBeforeAnswer = some s :=
    ⟨_, rfl⟩
  obtain ⟨hanswered, hlowest⟩ := hactive s hrun
  have hsome : getActiveLinks s ≠ [] := fun hnil => by simp [hnil] at hanswered
  -- it has the time 0, which is below that of the other link
  obtain ⟨best, hbest, hselect, hmin⟩ := selectInterfaceLowestLatency_min hsome
  rw [hlowest best hbest hmin] at hselect
  refine ⟨s, hrun, hselect, fun h => ?_⟩
  obtain ⟨picked, -, hpicked, hpickedAnswered, -⟩ := h hanswered
  rw [hselect] at hpicked
  exact hpickedAnswered (by rw [← Except.ok.inj hpicked]; rfl)

end Scheduler

end AetherBond.Client
