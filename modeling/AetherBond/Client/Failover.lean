import AetherBond.Client.SimulatedDownload
import AetherBond.Client.SchedulerWeights

set_option autoImplicit false

/-! # A link that goes down

A link of the simulator that goes down is looked at by three parts of the code, each at a time of
its own. `throttle_stream` looks before it sleeps and not after, so what sleeps when the link goes
down arrives all the same: 64 KB for each worker at most. The monitor looks every two seconds; from
its next turn on the scheduler does not pick the link any more. In between, an attempt that is given
the link raises at once. `run_failover` says this of every run, until the link is switched on again.
-/

namespace AetherBond.Client

open AetherBond.Lib AetherBond.Common

namespace WorkerLink

/-- The bytes the worker sleeps for, if it is for the link `o`. -/
def pending (o : Nat) (l : WorkerLink) : Nat :=
  l.transfer.elim 0 fun x => if x.1 = o then x.2 else 0

theorem pending_of_none {l : WorkerLink} (h : l.transfer = none) (o : Nat) : l.pending o = 0 := by
  unfold pending
  rw [h]
  rfl

end WorkerLink

namespace SimulatedDownload

variable {fl : Rounding} {s s' : SimulatedDownload} {e : Event} {ip : String} {o w n : Nat}

/-- The bytes of a link. -/
def total (o : Nat) (s : SimulatedDownload) : Nat :=
  (s.simulator.objects[o]?).elim 0 SimulatedInterface.totalBytesTransferred

/-- The bytes that workers sleep for. -/
def pending (o : Nat) (s : SimulatedDownload) : Nat := (s.links.map (WorkerLink.pending o)).sum

/-- The link `o` has this address, and is down. -/
structure Down (ip : String) (o : Nat) (s : SimulatedDownload) : Prop where
  entry : s.simulator.interfaces.get? ip = some o
  dead : ∀ link ∈ s.simulator.objects[o]?, link.isAlive = false

/-! ## Slots -/

/-- A slot changes. -/
theorem sum_pending_modify {links : List WorkerLink} {l : WorkerLink} (f : WorkerLink → WorkerLink)
    (hl : links[w]? = some l) (o : Nat) :
    ((links.modify w f).map (WorkerLink.pending o)).sum + l.pending o =
      (links.map (WorkerLink.pending o)).sum + (f l).pending o :=
  DownloadSession.sum_map_modify (WorkerLink.pending o) f hl

/-- A worker that is not asleep adds nothing. -/
theorem Works.pending_le {es : List DownloadSession.Event} (h : Works w es s s') (o : Nat) :
    s'.pending o ≤ s.pending o := by
  obtain ⟨f, hlinks, hf⟩ := h.links
  unfold SimulatedDownload.pending
  rw [hlinks]
  cases hl : s.links[w]? with
  | none => rw [List.modify_eq_self (List.getElem?_eq_none_iff.mp hl)]
  | some l =>
      have hsum := sum_pending_modify f hl o
      rw [WorkerLink.pending_of_none (hf l)] at hsum
      omega

/-- What a worker slept for is over. -/
theorem Works.pending_wakes {es : List DownloadSession.Event} (h : Works w es s s') {o' : Nat}
    (hl : s.links[w]? = some ⟨ip, some (o', n)⟩) (o : Nat) :
    s'.pending o + (if o' = o then n else 0) = s.pending o := by
  obtain ⟨f, hlinks, hf⟩ := h.links
  have hsum := sum_pending_modify f hl o
  rw [WorkerLink.pending_of_none (hf _)] at hsum
  unfold SimulatedDownload.pending
  rw [hlinks]
  exact hsum

/-- There are eight slots at most, and none is for more than 64 KB. -/
structure Slots (s : SimulatedDownload) : Prop where
  length : s.links.length ≤ 8
  bounded : ∀ l ∈ s.links, ∀ x ∈ l.transfer, x.2 ≤ 64 * 1024

theorem Slots.pending_le (h : Slots s) (o : Nat) : s.pending o ≤ 8 * (64 * 1024) := by
  have hone : ∀ n ∈ s.links.map (WorkerLink.pending o), n ≤ 64 * 1024 := by
    intro n hn
    obtain ⟨l, hl, rfl⟩ := List.mem_map.mp hn
    unfold WorkerLink.pending
    cases hx : l.transfer with
    | none => exact Nat.zero_le _
    | some x =>
        have := h.bounded l hl x hx
        show (if x.1 = o then x.2 else 0) ≤ 64 * 1024
        split_ifs <;> omega
  have hlength := h.length
  calc s.pending o ≤ (s.links.map (WorkerLink.pending o)).length * (64 * 1024) :=
        List.sum_le_card_nsmul _ _ hone
    _ ≤ 8 * (64 * 1024) := by
        rw [List.length_map]
        exact Nat.mul_le_mul_right _ hlength

theorem Slots.modify (h : Slots s) {f : WorkerLink → WorkerLink}
    (hf : ∀ l, ∀ x ∈ (f l).transfer, x.2 ≤ 64 * 1024) (hlinks : s'.links = s.links.modify w f) :
    Slots s' := by
  refine ⟨?_, fun l hl => ?_⟩
  · rw [hlinks, List.length_modify]
    exact h.length
  · rw [hlinks] at hl
    obtain ⟨i, hi⟩ := List.mem_iff_getElem?.mp hl
    rw [List.getElem?_modify] at hi
    obtain ⟨l₀, hl₀, rfl⟩ := Option.map_eq_some_iff.mp hi
    by_cases hw : w = i
    · rw [if_pos hw]
      exact hf l₀
    · rw [if_neg hw]
      exact h.bounded l₀ (List.mem_of_getElem? hl₀)

theorem Slots.works {es : List DownloadSession.Event} (h : Slots s) (hworks : Works w es s s') :
    Slots s' := by
  obtain ⟨f, hlinks, hf⟩ := hworks.links
  exact h.modify (fun l x hx => by rw [hf l] at hx; cases hx) hlinks

theorem Slots.step (h : Slots s) (hstep : s.step fl e = some s') : Slots s' := by
  cases step_moves hstep with
  | toggle | enable | disable | monitor | probe => exact ⟨h.length, h.bounded⟩
  | works hworks | passes _ _ hworks | receives hworks => exact h.works hworks
  | sleeps =>
      refine h.modify (fun l x hx => ?_) rfl
      obtain rfl := Option.some.inj hx
      exact min_le_left _ _
  | @wakes w o n ip now _ _ hworks =>
      have h' : Slots { s with simulator := s.simulator.transferred fl o n now } :=
        ⟨h.length, h.bounded⟩
      exact h'.works hworks
  | joins =>
      refine ⟨?_, fun l hl => ?_⟩
      · rw [List.length_map]
        exact h.length
      · obtain ⟨l₀, -, rfl⟩ := List.mem_map.mp hl
        intro x hx
        cases hx

theorem start_slots (simulator : LinkSimulator) (interfaces : List InterfaceInfo)
    (chunks : List Chunk) (file : Bytes) : Slots (start simulator interfaces chunks file) := by
  refine ⟨?_, fun l hl => ?_⟩
  · unfold start
    rw [List.length_replicate]
    omega
  · rw [List.eq_of_mem_replicate hl]
    simp

/-! ## The link stays down -/

/-- The event does not switch the link on. -/
def LeavesDown (ip : String) : Event → Prop
  | .toggle ip' state => ip' = ip → state = some false
  | _ => True

theorem Down.step (h : s.Down ip o) (he : LeavesDown ip e) (hstep : s.step fl e = some s') :
    s'.Down ip o := by
  have hsame : s'.simulator = s.simulator → s'.Down ip o := by
    intro heq
    exact ⟨by rw [heq]; exact h.entry, by rw [heq]; exact h.dead⟩
  cases step_moves hstep with
  | toggle ip' state =>
      refine ⟨by simpa using h.entry, fun link hlink => ?_⟩
      rw [LinkSimulator.getElem?_toggle] at hlink
      obtain ⟨link₀, hlink₀, rfl⟩ := Option.map_eq_some_iff.mp hlink
      split_ifs with hentry
      · rw [he (LinkSimulator.entry_inj hentry h.entry)]
        rfl
      · exact h.dead link₀ hlink₀
  | enable | disable | monitor | probe | sleeps | joins => exact ⟨h.entry, h.dead⟩
  | works hworks | passes _ _ hworks | receives hworks => exact hsame hworks.simulator
  | wakes _ hworks =>
      refine ⟨by rw [hworks.simulator]; exact h.entry, fun link hlink => ?_⟩
      rw [hworks.simulator, LinkSimulator.getElem?_transferred] at hlink
      obtain ⟨link₀, hlink₀, rfl⟩ := Option.map_eq_some_iff.mp hlink
      split_ifs
      · rw [SimulatedInterface.updateBytes_isAlive]
        exact h.dead link₀ hlink₀
      · exact h.dead link₀ hlink₀

/-! ## Its bytes -/

theorem total_toggle (s : SimulatedDownload) (ip : String) (state : Option Bool) (o : Nat) :
    total o { s with simulator := s.simulator.toggle ip state } = s.total o := by
  unfold total
  rw [LinkSimulator.getElem?_toggle]
  cases s.simulator.objects[o]? with
  | none => rfl
  | some link =>
      simp only [Option.map_some, Option.elim_some]
      split_ifs <;> rfl

/-- A transfer adds to its link what it is for. -/
theorem total_transferred_le (fl : Rounding) (s : SimulatedDownload) (o' n : Nat) (now : ℚ)
    (o : Nat) :
    total o { s with simulator := s.simulator.transferred fl o' n now } ≤
      s.total o + if o' = o then n else 0 := by
  unfold total
  rw [LinkSimulator.getElem?_transferred]
  cases s.simulator.objects[o]? with
  | none => exact Nat.zero_le _
  | some link =>
      simp only [Option.map_some, Option.elim_some]
      split_ifs
      · rw [SimulatedInterface.updateBytes_total]
      · exact le_rfl

/-- **Step lemma**: what a link that is down has and what workers sleep for does not get more. -/
theorem Down.bytes_step (h : s.Down ip o) (hstep : s.step fl e = some s') :
    s'.total o + s'.pending o ≤ s.total o + s.pending o := by
  have hworks : ∀ {w : Nat} {es : List DownloadSession.Event}, Works w es s s' →
      s'.total o + s'.pending o ≤ s.total o + s.pending o := by
    intro w es hworks
    have hle := hworks.pending_le o
    unfold total
    rw [hworks.simulator]
    omega
  cases step_moves hstep with
  | toggle ip' state => rw [total_toggle]; exact le_rfl
  | enable | disable | monitor | probe => exact le_rfl
  | works h | passes _ _ h | receives h => exact hworks h
  | @sleeps w _ _ _ o' _ ip' link _ hlink ho halive =>
      -- a link that is down lets nobody in
      have hne : o' ≠ o := by
        rintro rfl
        rw [h.dead link ho] at halive
        cases halive
      refine Nat.add_le_add_left ?_ (s.total o)
      have hsum := fun f => sum_pending_modify f hlink o
      have hnew : ∀ n, WorkerLink.pending o ⟨ip', some (o', n)⟩ = 0 := fun n => if_neg hne
      refine (Nat.le_add_right _ _).trans ((hsum _).le.trans_eq ?_)
      rw [hnew]
      rfl
  | @wakes w o' n ip' now _ hlink hwakes =>
      have hpending := hwakes.pending_wakes hlink o
      have htotal := total_transferred_le fl s o' n now o
      have hsim :
          s'.total o = total o { s with simulator := s.simulator.transferred fl o' n now } := by
        unfold total
        rw [hwakes.simulator]
      have hsame : SimulatedDownload.pending o
        { s with simulator := s.simulator.transferred fl o' n now } = s.pending o := rfl
      omega
  | joins =>
      have hzero : ∀ n ∈ (s.links.map fun l => { l with transfer := none }).map
          (WorkerLink.pending o), n = 0 := by
        intro n hn
        obtain ⟨l, hl, rfl⟩ := List.mem_map.mp hn
        obtain ⟨l₀, -, rfl⟩ := List.mem_map.mp hl
        exact WorkerLink.pending_of_none rfl o
      refine Nat.add_le_add_left ?_ _
      exact (List.sum_eq_zero hzero).le.trans (Nat.zero_le _)

/-! ## The monitor notices -/

/-- The monitor takes the link for down. -/
def Noticed (ip : String) (s : SimulatedDownload) : Prop :=
  ∃ m, s.monitor.metrics.get? ip = some m ∧ m.isSimulated = true ∧ m.isOnline = false

theorem reading_dead (h : s.Down ip o) (uniform roll : ℚ) :
    reading fl s.simulator ip uniform roll = .dead := by
  unfold reading
  rw [LinkSimulator.getInterface_of_entry h.entry]
  cases hlink : s.simulator.objects[o]? with
  | none => rfl
  | some link =>
      dsimp only
      rw [h.dead link hlink]
      rfl

theorem simulate_dead_isOnline (m : LinkMetrics) : (m.simulate fl .dead).isOnline = false :=
  (LinkMetrics.updateScore_same fl m.down).isOnline

/-- The monitor has a turn for the link. -/
theorem Down.noticed {uniform roll : ℚ} (h : s.Down ip o)
    (hstep : s.step fl (.monitor ip uniform roll) = some s') : s'.Noticed ip := by
  obtain ⟨monitor, hmonitor, rfl⟩ := Option.map_eq_some_iff.mp hstep
  rw [reading_dead h] at hmonitor
  cases PathMonitor.step_cases hmonitor with
  | @simulate _ m _ hsimulated =>
      refine ⟨m.simulate fl .dead, Dict.get?_set_self .., ?_, simulate_dead_isOnline m⟩
      exact (m.simulate_link fl .dead).2.trans hsimulated

/-- No turn finds the link alive while it is down. -/
theorem Noticed.step (h : s.Noticed ip) (hdown : s.Down ip o) (hstep : s.step fl e = some s') :
    s'.Noticed ip := by
  obtain ⟨m, hm, hsimulated, hoffline⟩ := h
  have hsame : s'.monitor = s.monitor → s'.Noticed ip := by
    intro heq
    exact ⟨m, by rw [heq]; exact hm, hsimulated, hoffline⟩
  cases step_moves hstep with
  | toggle | enable | disable | sleeps | joins => exact hsame rfl
  | works hworks | passes _ _ hworks | receives hworks | wakes _ hworks =>
      exact hsame hworks.monitor
  | @monitor ip' uniform roll monitor hmonitor =>
      by_cases hip : ip' = ip
      · subst hip
        exact hdown.noticed hstep
      · cases PathMonitor.step_cases hmonitor with
        | simulate =>
            refine ⟨m, ?_, hsimulated, hoffline⟩
            rw [Dict.get?_set, if_neg (Ne.symm hip)]
            exact hm
  | @probe ip' probe monitor hprobe =>
      cases PathMonitor.step_cases hprobe with
      | @probe _ m' hget hphysical =>
          refine ⟨m, ?_, hsimulated, hoffline⟩
          rw [Dict.get?_set, if_neg ?_]
          · exact hm
          · -- the link is not a physical one
            rintro rfl
            obtain rfl : m = m' := Option.some.inj (hm.symm.trans hget)
            rw [hsimulated] at hphysical
            cases hphysical

/-- The scheduler does not pick the link. -/
theorem Noticed.excluded {es : List PathMonitor.Event} (h : s.Noticed ip)
    (hrun : runFrom (PathMonitor.step fl) .new es = some s.monitor) :
    Scheduler.Excluded fl s.monitor ip := by
  obtain ⟨m, hm, -, hoffline⟩ := h
  have hscore : m.isOnline = true → 0 < m.score := by
    rw [hoffline]
    exact fun h => absurd h Bool.false_ne_true
  exact (Scheduler.excluded_iff (PathMonitor.tracks_of_run hrun) hm hscore).mpr hoffline

/-- **Run lemma**: the link stays down, and gets no more than was on its way. -/
theorem Down.run {es : List Event} (h : s.Down ip o) (hleaves : ∀ e ∈ es, LeavesDown ip e)
    (hrun : runFrom (SimulatedDownload.step fl) s es = some s') :
    s'.Down ip o ∧ s'.total o + s'.pending o ≤ s.total o + s.pending o := by
  have hstep : ∀ s₁ e s₂, (Down ip o s₁ ∧ s₁.total o + s₁.pending o ≤ s.total o + s.pending o) →
      LeavesDown ip e → s₁.step fl e = some s₂ →
      Down ip o s₂ ∧ s₂.total o + s₂.pending o ≤ s.total o + s.pending o :=
    fun _ _ _ h₁ he hs => ⟨h₁.1.step he hs, (h₁.1.bytes_step hs).trans h₁.2⟩
  exact runFrom_invariant_along hstep ⟨h, le_rfl⟩ (along_of_forall hleaves) hrun

/-- **Run lemma**: what the monitor has noticed stays noticed. -/
theorem Noticed.run {es : List Event} (h : s.Noticed ip) (hdown : s.Down ip o)
    (hleaves : ∀ e ∈ es, LeavesDown ip e)
    (hrun : runFrom (SimulatedDownload.step fl) s es = some s') :
    s'.Noticed ip := by
  have hstep : ∀ s₁ e s₂, (Noticed ip s₁ ∧ Down ip o s₁) → LeavesDown ip e →
      s₁.step fl e = some s₂ → Noticed ip s₂ ∧ Down ip o s₂ :=
    fun _ _ _ h₁ he hs => ⟨h₁.1.step h₁.2 hs, h₁.2.step he hs⟩
  exact (runFrom_invariant_along hstep ⟨h, hdown⟩ (along_of_forall hleaves) hrun).1

/-- **Failover.** In every run, from the moment a link is down and as long as nobody switches it on:
it gets at most what its workers slept for then, 64 KB for each of eight, and once the monitor has
had a turn for it neither selection of the scheduler picks it, whatever else happens. -/
theorem run_failover (fl : Rounding) (simulator : LinkSimulator) (interfaces : List InterfaceInfo)
    (chunks : List Chunk) (file : Bytes) (es es' : List Event) (s s' : SimulatedDownload)
    (hrun : runFrom (step fl) (start simulator interfaces chunks file) es = some s)
    (hdown : s.Down ip o) (hleaves : ∀ e ∈ es', LeavesDown ip e)
    (hrun' : runFrom (step fl) s es' = some s') :
    s'.total o ≤ s.total o + s.pending o ∧ s.pending o ≤ 8 * (64 * 1024) ∧
      ((∃ uniform roll, .monitor ip uniform roll ∈ es') →
        Scheduler.Excluded fl s'.monitor ip) := by
  have hslots : Slots s := runFrom_invariant (fun _ _ _ h hs => Slots.step h hs)
    (start_slots simulator interfaces chunks file) hrun
  refine ⟨?_, hslots.pending_le o, ?_⟩
  · have hbytes := (hdown.run hleaves hrun').2
    omega
  · rintro ⟨uniform, roll, hturn⟩
    obtain ⟨before, after, rfl⟩ := List.append_of_mem hturn
    obtain ⟨s₁, hbefore, hrest⟩ := runFrom_append_eq_some.mp hrun'
    obtain ⟨s₂, hmonitor, hafter⟩ := runFrom_cons_eq_some.mp hrest
    have hdown₁ := (hdown.run (fun e he => hleaves e (List.mem_append_left _ he)) hbefore).1
    have hdown₂ := hdown₁.step (e := .monitor ip uniform roll) trivial hmonitor
    have hnoticed := (hdown₁.noticed hmonitor).run hdown₂
      (fun e he => hleaves e (List.mem_append_right _ (List.mem_cons_of_mem _ he))) hafter
    obtain ⟨es₁, hes₁⟩ := monitor_of_run (runFrom_append_eq_some.mpr ⟨s, hrun, hrun'⟩)
    exact hnoticed.excluded hes₁

/-- Two links, of which the second goes down while a worker is asleep on it. -/
def twoLinks : LinkSimulator :=
  ((LinkSimulator.new.addInterface "Sim_WiFi" "192.168.99.10" 15 15 0 0).addInterface
    "Sim_Ethernet" "192.168.99.20" 45 8 0 0).enable

theorem run_failover_asleep :
    ∃ s s', runFrom (step .exact) (start twoLinks
        [⟨"Sim_WiFi", "192.168.99.10", true⟩, ⟨"Sim_Ethernet", "192.168.99.20", true⟩]
        [.new 0 0 99999] [])
        [.monitor "192.168.99.10" 0 0, .monitor "192.168.99.20" 0 0, .attempt 0 100 0 0 0,
          .delayed 0, .stream 0, .toggle "192.168.99.20" none] = some s ∧
      runFrom (step .exact) s
        [.throttled 0 2, .stream 0, .monitor "192.168.99.20" 0 0] = some s' ∧
      s.total 1 = 0 ∧ s'.total 1 = 64 * 1024 ∧
      s'.total 1 ≤ s.total 1 + s.pending 1 ∧ s.pending 1 ≤ 8 * (64 * 1024) ∧
      Scheduler.Excluded .exact s'.monitor "192.168.99.20" := by
  have hall : ∃ s ∈ runFrom (step .exact) (start twoLinks
      [⟨"Sim_WiFi", "192.168.99.10", true⟩, ⟨"Sim_Ethernet", "192.168.99.20", true⟩]
      [.new 0 0 99999] [])
      [.monitor "192.168.99.10" 0 0, .monitor "192.168.99.20" 0 0, .attempt 0 100 0 0 0,
        .delayed 0, .stream 0, .toggle "192.168.99.20" none],
      s.simulator.interfaces.get? "192.168.99.20" = some 1 ∧
      (∀ link ∈ s.simulator.objects[1]?, link.isAlive = false) ∧ s.total 1 = 0 ∧
      ∃ s' ∈ runFrom (step .exact) s
        [.throttled 0 2, .stream 0, .monitor "192.168.99.20" 0 0],
        s'.total 1 = 64 * 1024 := by decide +kernel
  obtain ⟨s, hrun, hentry, hdead, hzero, s', hrun', htotal⟩ := hall
  have hleaves : ∀ e ∈ [Event.throttled 0 2, .stream 0, .monitor "192.168.99.20" 0 0],
      LeavesDown "192.168.99.20" e := by
    intro e he
    simp only [List.mem_cons, List.not_mem_nil, or_false] at he
    rcases he with rfl | rfl | rfl <;> trivial
  obtain ⟨hbytes, hpending, hexcluded⟩ :=
    run_failover .exact _ _ _ _ _ _ s s' hrun ⟨hentry, hdead⟩ hleaves hrun'
  exact ⟨s, s', hrun, hrun', hzero, htotal, hbytes, hpending, hexcluded ⟨0, 0, by simp⟩⟩

end SimulatedDownload

end AetherBond.Client
