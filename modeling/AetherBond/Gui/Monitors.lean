import AetherBond.Gui.Dashboard

set_option autoImplicit false

/-! # The monitors of the dashboard

Every request that is let past the guard stops the active monitor and starts another one. Two that
overlap stop the same one and start one each, and the first of these is never stopped: there are
exactly as many running monitors too many as there were calls of `stop` that came too late
(`run_monitors`). Where no requests overlap the active monitor is the only one that runs, and it is
the one that the scheduler of every download under way reads (`run_watched`).
-/

namespace AetherBond.Gui

open AetherBond.Lib AetherBond.Common AetherBond.Client

namespace Dashboard

variable {fl : Rounding} {lower : String → String} {s s' : Dashboard} {e : Event} {m : Nat}

/-- The monitors that run. -/
def running (s : Dashboard) : Nat := s.monitors.countP Monitor.isRunning

/-- The requests that are in the `stop` of a monitor. -/
def stopping (s : Dashboard) : Nat := s.server.requests.countP fun pc => pc = .stopping

def Runs (s : Dashboard) (m : Nat) : Prop := ∃ x ∈ s.monitors[m]?, x.isRunning = true

instance (s : Dashboard) (m : Nat) : Decidable (s.Runs m) :=
  inferInstanceAs (Decidable (∃ x ∈ s.monitors[m]?, _))

/-- The step calls `active_monitor.stop()`. -/
def Stops (lower : String → String) (s : Dashboard) : Event → Prop
  | .request req scan _ => s.found lower req scan ≠ []
  | .shutdown => True
  | _ => False

instance (s : Dashboard) : ∀ e, Decidable (s.Stops lower e)
  | .request _ _ _ => inferInstanceAs (Decidable (_ ≠ _))
  | .shutdown => isTrue trivial
  | .stopped .. | .initialized .. | .begins _ | .ends _ | .works .. | .simulate .. | .probe ..
  | .toggle .. | .status | .connect | .poll _ | .disconnect _ => isFalse id

/-- A call of `stop` that finds the active monitor stopped already. -/
def lateStop (lower : String → String) (s : Dashboard) (e : Event) : Option Event :=
  if s.Stops lower e ∧ ∀ m ∈ s.activeMonitor, ¬ s.Runs m then some e else none

/-! ## Counting -/

/-- The balance of starts and stops. -/
def Balanced (s : Dashboard) (late : Nat) : Prop :=
  s.running + s.stopping + (if s.isShutDown then 1 else 0) = 1 + late

theorem running_stopMonitor (hm : m < s.monitors.length) :
    (s.stopMonitor m).running + (if s.Runs m then 1 else 0) = s.running := by
  obtain ⟨x, hx⟩ : ∃ x, s.monitors[m]? = some x := ⟨_, List.getElem?_eq_getElem hm⟩
  have hcount := countP_modify_add Monitor.isRunning (fun x => { x with isRunning := false }) hx
  have hruns : s.Runs m ↔ x.isRunning = true := by simp [Runs, hx]
  simp only [hruns]
  simpa [running, stopMonitor] using hcount

theorem running_prepare (s : Dashboard) (x : Incoming) (prepared : Bool) :
    (s.prepare x prepared).running = s.running + 1 := by
  simp [running, prepare]

/-- A turn of a loop. -/
theorem running_loop {x : Monitor} (metrics : PathMonitor) (hx : s.monitors[m]? = some x) :
    running { s with monitors := s.monitors.set m { x with metrics := metrics } } = s.running := by
  have hcount := countP_set_add (a := ⟨x.isRunning, metrics⟩) Monitor.isRunning hx
  unfold running
  dsimp only at hcount ⊢
  omega

/-- A request goes on to another place, of which none is `stop`. -/
theorem stopping_set {server : Server} {r : Nat} {pc pc' : RequestPc}
    (hr : s.server.requests[r]? = some pc) (hpc' : pc' ≠ .stopping)
    (hrequests : server.requests = s.server.requests.set r pc') :
    stopping { s with server := server } + (if pc = .stopping then 1 else 0) = s.stopping := by
  have hcount := countP_set_add (a := pc') (fun pc => decide (pc = .stopping)) hr
  unfold stopping
  rw [hrequests]
  simpa [hpc'] using hcount

theorem lateStop_length_letPast {req : DownloadRequest} {scan : Scan} {prepared : Bool}
    (hfound : s.found lower req scan ≠ []) (hactive : s.activeMonitor = some m) :
    (s.lateStop lower (.request req scan prepared)).toList.length = if s.Runs m then 0 else 1 := by
  unfold lateStop Stops
  by_cases hruns : s.Runs m <;> simp [hfound, hactive, hruns]

theorem lateStop_length_shutdown (hactive : s.activeMonitor = some m) :
    (s.lateStop lower .shutdown).toList.length = if s.Runs m then 0 else 1 := by
  unfold lateStop Stops
  by_cases hruns : s.Runs m <;> simp [hactive, hruns]

theorem lateStop_of_not (h : ¬ s.Stops lower e) : s.lateStop lower e = none :=
  if_neg fun hstops => h hstops.1

/-- A step that neither starts nor stops a monitor keeps the balance. -/
theorem Balanced.keep {late : Nat} (h : s.Balanced late) (hnot : ¬ s.Stops lower e)
    (hrunning : s'.running = s.running) (hstopping : s'.stopping = s.stopping)
    (hdown : s'.isShutDown = s.isShutDown) :
    s'.Balanced (late + (s.lateStop lower e).toList.length) := by
  rw [lateStop_of_not hnot]
  unfold Balanced
  rw [hrunning, hstopping, hdown]
  exact h

/-- **Step lemma.** -/
theorem Balanced.step {late : Nat} (hs : Sound s) (h : s.Balanced late)
    (hstep : s.step fl lower e = some s') :
    s'.Balanced (late + (s.lateStop lower e).toList.length) := by
  obtain ⟨m, hm, hactive⟩ := hs.monitor
  cases step_moves hstep with
  | @turnedAway req scan prepared simulator hfound =>
      obtain ⟨text, heq⟩ := comes_turnedAway simulator prepared hfound
      refine h.keep (fun hstops => hstops hfound) rfl ?_ rfl
      unfold stopping
      rw [heq]
      simp
  | @letPast req scan prepared simulator m' hfound hactive' =>
      obtain rfl : m = m' := Option.some.inj (hactive.symm.trans hactive')
      have hrunning : ((s.comes lower req scan prepared simulator).stopMonitor m).running +
          (if s.Runs m then 1 else 0) = s.running :=
        running_stopMonitor (s := s.comes lower req scan prepared simulator) hm
      have hstopping : ((s.comes lower req scan prepared simulator).stopMonitor m).stopping =
          s.stopping + 1 := by
        unfold stopping
        rw [stopMonitor_server, comes_letPast hs.server simulator prepared hfound]
        simp
      rw [lateStop_length_letPast hfound hactive]
      unfold Balanced at h ⊢
      have hdown : ((s.comes lower req scan prepared simulator).stopMonitor m).isShutDown =
          s.isShutDown := rfl
      rw [hstopping, hdown]
      by_cases hruns : s.Runs m
      · rw [if_pos hruns] at hrunning ⊢
        omega
      · rw [if_neg hruns] at hrunning ⊢
        omega
  | unmonitored hnone => cases hactive.symm.trans hnone
  | @stopped r prepared server x hserver hx =>
      have hprepares := Server.step_prepares hserver
      have hstopping := stopping_set (s := s) hprepares.stopping
        (by cases prepared <;> simp) hprepares.requests
      have hnot : ¬ s.Stops lower (.stopped r prepared) := fun hstops => hstops
      have hrunning := running_prepare { s with server := server } x prepared
      rw [if_pos rfl] at hstopping
      rw [lateStop_of_not hnot]
      unfold Balanced at h ⊢
      calc (prepare { s with server := server } x prepared).running +
            stopping { s with server := server } + (if s.isShutDown then 1 else 0)
          = s.running + 1 + stopping { s with server := server } +
            (if s.isShutDown then 1 else 0) := by rw [hrunning]; rfl
        _ = s.running + s.stopping + (if s.isShutDown then 1 else 0) := by omega
        _ = 1 + late := h
  | @initialized r totalSize chunks ok server hserver =>
      obtain ⟨own, hlaunches⟩ := Server.step_launches hserver
      obtain ⟨a, ha⟩ := hlaunches.requests
      exact h.keep (fun hstops => hstops) rfl
        (stopping_set (s := s) hlaunches.initializing (by simp) ha) rfl
  | begins hserver | ends hserver =>
      cases Server.step_cases hserver
      exact h.keep (fun hstops => hstops) rfl rfl rfl
  | works | toggle | status | connect | polled | left | disconnect =>
      exact h.keep (fun hstops => hstops) rfl rfl rfl
  | simulate metrics hx | probe metrics hx =>
      exact h.keep (fun hstops => hstops) (running_loop metrics hx) rfl rfl
  | shutdown hup =>
      have hrunning := running_stopMonitor hm
      rw [lateStop_length_shutdown hactive, hactive]
      unfold Balanced at h ⊢
      rw [hup, if_neg Bool.false_ne_true] at h
      show (s.stopMonitor m).running + s.stopping + 1 = _
      by_cases hruns : s.Runs m
      · rw [if_pos hruns] at hrunning ⊢
        omega
      · rw [if_neg hruns] at hrunning ⊢
        omega

/-! ## Monitors that nobody stops -/

/-- The monitor runs, and the globals do not refer to it. -/
structure Leaked (m : Nat) (s : Dashboard) : Prop where
  runs : s.Runs m
  inactive : s.activeMonitor ≠ some m

theorem Runs.lt (h : s.Runs m) : m < s.monitors.length := by
  obtain ⟨x, hx, -⟩ := h
  exact (List.getElem?_eq_some_iff.mp hx).1

theorem Runs.stopMonitor {k : Nat} (h : s.Runs m) (hne : k ≠ m) : (s.stopMonitor k).Runs m := by
  obtain ⟨x, hx, hrunning⟩ := h
  refine ⟨x, ?_, hrunning⟩
  show (s.monitors.modify k _)[m]? = some x
  rw [List.getElem?_modify, show s.monitors[m]? = some x from hx]
  simp [hne]

theorem Runs.prepare (h : s.Runs m) (x : Incoming) (prepared : Bool) :
    (s.prepare x prepared).Runs m := by
  obtain ⟨y, hy, hrunning⟩ := h
  exact ⟨y, (List.getElem?_append_left (List.getElem?_eq_some_iff.mp hy).1).trans hy, hrunning⟩

/-- A turn of a loop of any monitor. -/
theorem runs_loop {k : Nat} {x : Monitor} (metrics : PathMonitor) (hx : s.monitors[k]? = some x) :
    Runs { s with monitors := s.monitors.set k { x with metrics := metrics } } m ↔ s.Runs m := by
  unfold Runs
  dsimp only
  rw [List.getElem?_set]
  by_cases hk : k = m
  · subst hk
    rw [if_pos rfl, if_pos (List.getElem?_eq_some_iff.mp hx).1, hx]
    simp
  · rw [if_neg hk]

/-- **Step lemma**: nothing stops such a monitor. -/
theorem Leaked.step (h : Leaked m s) (hstep : s.step fl lower e = some s') (hs : Sound s) :
    Leaked m s' := by
  obtain ⟨k, hk, hactive⟩ := hs.monitor
  have hne : k ≠ m := fun heq => h.inactive (heq ▸ hactive)
  cases step_moves hstep with
  | turnedAway | initialized | begins | ends | works | toggle | status | connect | polled | left
  | disconnect => exact ⟨h.runs, h.inactive⟩
  | letPast simulator hfound hactive' =>
      obtain rfl := Option.some.inj (hactive.symm.trans hactive')
      exact ⟨Runs.stopMonitor (s := s.comes lower _ _ _ simulator) h.runs hne, h.inactive⟩
  | unmonitored hnone => cases hactive.symm.trans hnone
  | @stopped r prepared server x hserver hx =>
      refine ⟨Runs.prepare (s := { s with server := server }) h.runs x prepared, fun heq => ?_⟩
      have hlt := h.runs.lt
      have hlast : s.monitors.length = m := Option.some.inj heq
      omega
  | simulate metrics hx | probe metrics hx => exact ⟨(runs_loop metrics hx).mpr h.runs, h.inactive⟩
  | shutdown =>
      rw [hactive]
      exact ⟨h.runs.stopMonitor hne, h.inactive⟩

/-- **The monitors.** In every run: those that run, the requests in `stop` and the shutdown are one
more than the calls of `stop` that came too late. And a monitor that runs but is not the active one
runs on, whatever happens. -/
theorem run_monitors (fl : Rounding) (lower : String → String) (now : ℚ) (es : List Event)
    (s : Dashboard) (hrun : runFrom (step fl lower) (startup fl lower now) es = some s) :
    s.running + s.stopping + (if s.isShutDown then 1 else 0) =
        1 + (observe (step fl lower) (lateStop lower) (startup fl lower now) es).length ∧
      ∀ m, s.Runs m → s.activeMonitor ≠ some m → ∀ es' s',
        runFrom (step fl lower) s es' = some s' → s'.Runs m ∧ s'.activeMonitor ≠ some m := by
  refine ⟨?_, fun m hruns hinactive es' s' hrun' => ?_⟩
  · have hstep : ∀ (s : Dashboard) (e : Event) (s' : Dashboard) (xs : List Event),
        (Sound s ∧ s.Balanced xs.length) → s.step fl lower e = some s' →
        Sound s' ∧ s'.Balanced (xs ++ (s.lateStop lower e).toList).length := by
      intro s e s' xs h hs
      rw [List.length_append]
      exact ⟨h.1.step hs, h.2.step h.1 hs⟩
    have hinit : Sound (startup fl lower now) ∧
        (startup fl lower now).Balanced ([] : List Event).length := ⟨startup_sound now, rfl⟩
    exact (runFrom_observe_one hstep hinit hrun).2
  · have hleaked := runFrom_invariant (I := fun s => Sound s ∧ Leaked m s)
      (fun _ _ _ h hs => ⟨h.1.step hs, h.2.step hs h.1⟩)
      ⟨sound_of_run hrun, hruns, hinactive⟩ hrun'
    exact ⟨hleaked.2.runs, hleaked.2.inactive⟩

/-- A second request comes while the first is in `stop`. -/
def overlapping : List Event :=
  [.request ⟨"a", "a.iso", true⟩ (.adapters []) true,
    .request ⟨"b", "b.iso", true⟩ (.adapters []) true, .stopped 0 true, .stopped 1 true]

theorem run_monitors_overlapping :
    ∃ s, runFrom (step .exact id) (startup .exact id 0) overlapping = some s ∧
      s.activeMonitor = some 2 ∧ s.running = 2 ∧
      ∀ es' s', runFrom (step .exact id) s es' = some s' → s'.Runs 1 := by
  have hall : ∃ s ∈ runFrom (step .exact id) (startup .exact id 0) overlapping,
      s.activeMonitor = some 2 ∧ s.running = 2 ∧ s.Runs 1 := by decide +kernel
  obtain ⟨s, hrun, hactive, hcount, hruns⟩ := hall
  have hnot : s.activeMonitor ≠ some 1 := by
    rw [hactive]
    decide
  exact ⟨s, hrun, hactive, hcount, fun es' s' hrun' =>
    ((run_monitors .exact id 0 overlapping s hrun).2 1 hruns hnot es' s' hrun').1⟩

/-! ## Requests that do not overlap -/

def Event.isShutdown : Event → Bool
  | .shutdown => true
  | .request .. | .stopped .. | .initialized .. | .begins _ | .ends _ | .works .. | .simulate ..
  | .probe .. | .toggle .. | .status | .connect | .poll _ | .disconnect _ => false

/-- The condition on a step: it is calm for the server, and the dashboard stays up. -/
def Calm (lower : String → String) (s : Dashboard) (e : Event) : Prop :=
  e.isShutdown = false ∧ ∀ e' ∈ s.serverEvent? lower e, s.server.Calm e'

instance (s : Dashboard) (e : Event) : Decidable (s.Calm lower e) :=
  inferInstanceAs (Decidable (_ ∧ ∀ e' ∈ s.serverEvent? lower e, _))

/-- The scheduler of the session is over the active monitor. -/
def Reads (s : Dashboard) (o : Nat) : Prop :=
  ∃ i, s.sessions[o]? = some i ∧ s.activeMonitor = some i.scheduler

/-- The active monitor runs, and no other, unless a request is in `stop`; and a session that is
initialized, or has a task that is not done, reads it. -/
structure Watched (s : Dashboard) : Prop where
  alone : ∀ m, s.Runs m ↔ s.activeMonitor = some m ∧ .stopping ∉ s.server.requests
  live : ∀ t ∈ s.server.tasks, t.pc ≠ .done → s.Reads t.session
  own : ∀ r o : Nat, s.server.requests[r]? = some (.initializing o) → s.Reads o

theorem startup_watched (now : ℚ) : Watched (startup fl lower now) where
  alone m := by
    cases m with
    | zero => simp [Runs, startup, Server.startup]
    | succ m => simp [Runs, startup, Server.startup]
  live _ h := by cases h
  own _ _ h := by cases h

theorem reads_modify {o k : Nat} {f : SessionInfo → SessionInfo}
    (hf : ∀ i, (f i).scheduler = i.scheduler) (h : s.Reads o) :
    Reads { s with sessions := s.sessions.modify k f } o := by
  obtain ⟨i, hi, hactive⟩ := h
  refine ⟨if k = o then f i else i, ?_, ?_⟩
  · show (s.sessions.modify k f)[o]? = _
    rw [List.getElem?_modify, hi]
    simp
  · rw [hactive]
    split_ifs
    · rw [hf]
    · rfl

/-- A step that leaves the monitors and the server as they are. -/
theorem Watched.keep (h : Watched s) (hruns : ∀ m, s'.Runs m ↔ s.Runs m)
    (hactive : s'.activeMonitor = s.activeMonitor) (hserver : s'.server = s.server)
    (hreads : ∀ o, s.Reads o → s'.Reads o) : Watched s' where
  alone m := by rw [hruns, hactive, hserver, h.alone]
  live t ht hlive := hreads _ (h.live t (hserver ▸ ht) hlive)
  own r o hr := hreads _ (h.own r o (hserver ▸ hr))

theorem not_runs_stopMonitor (s : Dashboard) (m : Nat) : ¬ (s.stopMonitor m).Runs m := by
  rintro ⟨x, hx, hrunning⟩
  have hmodified : (s.monitors.modify m fun x => { x with isRunning := false })[m]? = some x := hx
  rw [List.getElem?_modify] at hmodified
  obtain ⟨y, -, heq⟩ := Option.map_eq_some_iff.mp hmodified
  rw [if_pos rfl] at heq
  subst heq
  cases hrunning

theorem runs_stopMonitor_ne {k : Nat} (hne : m ≠ k) : (s.stopMonitor m).Runs k ↔ s.Runs k := by
  unfold Runs stopMonitor
  dsimp only
  rw [List.getElem?_modify]
  cases s.monitors[k]? with
  | none => simp
  | some x => simp [hne]

/-- A request is let past the guard: nothing else is under way. -/
theorem Watched.letPast {req : DownloadRequest} {scan : Scan} (h : Watched s)
    (hs : s.server.Started) (simulator : LinkSimulator) (prepared : Bool)
    (hfound : s.found lower req scan ≠ []) (hactive : s.activeMonitor = some m)
    (hnone : ∀ pc ∈ s.server.requests, ¬ pc.InFlight)
    (hdone : ∀ t ∈ s.server.tasks, t.pc = .done) :
    Watched ((s.comes lower req scan prepared simulator).stopMonitor m) := by
  have heq := comes_letPast hs simulator prepared hfound
  constructor
  case alone =>
    intro k
    rw [stopMonitor_server, heq]
    refine ⟨fun hruns => ?_, fun hall => absurd (List.mem_append_right _ (by simp)) hall.2⟩
    by_cases hk : m = k
    · subst hk
      exact absurd hruns (not_runs_stopMonitor _ m)
    · have hold : s.Runs k :=
        (runs_stopMonitor_ne (s := s.comes lower req scan prepared simulator) hk).mp hruns
      exact absurd (Option.some.inj (hactive.symm.trans ((h.alone k).mp hold).1)) hk
  case live =>
    intro t ht hlive
    rw [stopMonitor_server, heq] at ht
    exact absurd (hdone t ht) hlive
  case own =>
    intro r o hr
    rw [stopMonitor_server, heq] at hr
    obtain ⟨hnew, -⟩ | hold := getElem?_concat_cases hr
    · cases hnew
    · exact absurd trivial (hnone _ (List.mem_of_getElem? hold))

/-- `stop` returns to the only request that is under way. -/
theorem Watched.prepare {r : Nat} {prepared : Bool} {server : Server} (h : Watched s)
    (hs : Sound s) (hseq : s.server.Sequential) (hprepares : s.server.Prepares r prepared server)
    (x : Incoming) : Watched ({ s with server := server }.prepare x prepared) := by
  obtain ⟨honly, hdone⟩ := hseq.inFlight r .stopping hprepares.stopping trivial
  -- the requests after the step
  have hset : ∀ (r' : Nat) (pc : RequestPc), server.requests[r']? = some pc → pc.InFlight →
      r' = r ∧ prepared = true ∧ pc = .initializing s.server.sessions.length := by
    intro r' pc hr' hflight
    rw [hprepares.requests] at hr'
    obtain ⟨hnew, rfl⟩ | ⟨hne, hold⟩ := getElem?_set_cases hr'
    · cases prepared with
      | false =>
          rw [hnew] at hflight
          exact absurd hflight id
      | true => exact ⟨rfl, rfl, hnew⟩
    · exact absurd (honly r' pc hold hflight) hne
  constructor
  case alone =>
    intro k
    have hnone : .stopping ∉ server.requests := by
      intro hmem
      obtain ⟨r', hr'⟩ := List.mem_iff_getElem?.mp hmem
      cases (hset r' _ hr' trivial).2.2
    have hold : ¬ s.Runs k := fun hruns =>
      ((h.alone k).mp hruns).2 (List.mem_of_getElem? hprepares.stopping)
    refine ⟨fun ⟨y, hy, hrunning⟩ => ⟨?_, hnone⟩, fun ⟨hactive, _⟩ => ?_⟩
    · obtain ⟨-, rfl⟩ | hy := getElem?_concat_cases hy
      · rfl
      · exact absurd ⟨y, hy, hrunning⟩ hold
    · obtain rfl : s.monitors.length = k := Option.some.inj hactive
      exact ⟨_, List.getElem?_concat_length, rfl⟩
  case live =>
    intro t ht hlive
    have hmem : t ∈ server.tasks := ht
    rw [hprepares.tasks] at hmem
    exact absurd (hdone t hmem) hlive
  case own =>
    intro r' o hr'
    obtain ⟨-, rfl, heq⟩ := hset r' _ hr' trivial
    obtain rfl := RequestPc.initializing.inj heq
    refine ⟨.new x.request s.monitors.length, ?_, rfl⟩
    show (s.sessions ++ [_])[s.server.sessions.length]? = _
    rw [← hs.sessions]
    exact List.getElem?_concat_length

/-- `initialize` returns to the only request that is under way. -/
theorem Watched.launch {r own chunks : Nat} {totalSize : Int} {server : Server} (h : Watched s)
    (hseq : s.server.Sequential) (hlaunches : s.server.Launches r own totalSize server) :
    Watched { s with server := server, sessions := s.initializeSession r chunks } := by
  obtain ⟨honly, hdone⟩ := hseq.inFlight r _ hlaunches.initializing trivial
  obtain ⟨a, ha⟩ := hlaunches.requests
  have hreads : ∀ o, s.Reads o →
      Reads { s with server := server, sessions := s.initializeSession r chunks } o := by
    intro o ho
    unfold initializeSession
    rw [hlaunches.initializing]
    exact reads_modify (s := { s with server := server }) (fun _ => rfl) ho
  have hnone : ∀ (r' : Nat) (pc : RequestPc), server.requests[r']? = some pc → ¬ pc.InFlight := by
    intro r' pc hr' hflight
    rw [ha] at hr'
    obtain ⟨rfl, -⟩ | ⟨hne, hold⟩ := getElem?_set_cases hr'
    · exact hflight
    · exact hne (honly r' pc hold hflight)
  constructor
  case alone =>
    intro k
    refine (h.alone k).trans (and_congr_right fun _ => iff_of_true (fun hmem => ?_) fun hmem => ?_)
    · obtain ⟨r', hr'⟩ := List.mem_iff_getElem?.mp hmem
      have hsame := honly r' _ hr' trivial
      subst hsame
      cases hr'.symm.trans hlaunches.initializing
    · obtain ⟨r', hr'⟩ := List.mem_iff_getElem?.mp hmem
      exact hnone r' _ hr' trivial
  case live =>
    intro t ht hlive
    have hmem : t ∈ server.tasks := ht
    obtain hsame | ⟨o, hactive, hnew⟩ := hlaunches.tasks
    · rw [hsame] at hmem
      exact absurd (hdone t hmem) hlive
    · rw [hnew] at hmem
      obtain hold | hlast := List.mem_append.mp hmem
      · exact absurd (hdone t hold) hlive
      · obtain rfl := List.mem_singleton.mp hlast
        have hown := (hseq.own r own hlaunches.initializing).1
        obtain rfl : own = o := Option.some.inj (hown.symm.trans hactive)
        exact hreads own (h.own r own hlaunches.initializing)
  case own =>
    intro r' o hr'
    exact absurd trivial (hnone r' _ hr')

/-- A task goes on. -/
theorem Watched.advance {t o : Nat} {pc pc' : TaskPc} {server : Server} (h : Watched s)
    (ht : s.server.tasks[t]? = some ⟨o, pc⟩) (hlive : pc ≠ .done)
    (hrequests : server.requests = s.server.requests)
    (htasks : server.tasks = s.server.tasks.set t ⟨o, pc'⟩) :
    Watched { s with server := server } := by
  constructor
  case alone =>
    intro k
    show s.Runs k ↔ s.activeMonitor = some k ∧ .stopping ∉ server.requests
    rw [hrequests]
    exact h.alone k
  case live =>
    intro u hu hulive
    have hmem : u ∈ server.tasks := hu
    rw [htasks] at hmem
    obtain hold | rfl := List.mem_or_eq_of_mem_set hmem
    · exact h.live u hold hulive
    · exact h.live ⟨o, pc⟩ (List.mem_of_getElem? ht) hlive
  case own =>
    intro r k hr
    have hold : server.requests[r]? = some (.initializing k) := hr
    rw [hrequests] at hold
    exact h.own r k hold

/-- **Step lemma.** -/
theorem Watched.step (h : Watched s) (hs : Sound s) (hseq : s.server.Sequential)
    (hcalm : s.Calm lower e) (hstep : s.step fl lower e = some s') : Watched s' := by
  obtain ⟨m, hm, hactive⟩ := hs.monitor
  cases step_moves hstep with
  | @turnedAway req scan prepared simulator hfound =>
      obtain ⟨text, heq⟩ := comes_turnedAway simulator prepared hfound
      constructor
      case alone =>
        intro k
        have halone : s.Runs k ↔ s.activeMonitor = some k ∧ .stopping ∉ s.server.requests :=
          h.alone k
        rw [heq]
        exact halone.trans (and_congr_right fun _ => by simp)
      case live =>
        intro t ht hlive
        rw [heq] at ht
        exact h.live t ht hlive
      case own =>
        intro r o hr
        rw [heq] at hr
        obtain ⟨hnew, -⟩ | hold := getElem?_concat_cases hr
        · cases hnew
        · exact h.own r o hold
  | @letPast req scan prepared simulator m' hfound hactive' =>
      have hpast := not_refuses_of_found hfound
      have hserver : s.server.Calm (.request (!(s.found lower req scan).isEmpty) prepared) :=
        hcalm.2 _ rfl
      obtain ⟨hnone, hbegun⟩ := (hserver.resolve_left hpast).resolve_left (by simpa using hfound)
      exact h.letPast hs.server simulator prepared hfound hactive' hnone
        (hseq.all_done hpast hbegun)
  | unmonitored hnone => cases hactive.symm.trans hnone
  | stopped hserver _ => exact h.prepare hs hseq (Server.step_prepares hserver) _
  | initialized hserver =>
      obtain ⟨own, hlaunches⟩ := Server.step_launches hserver
      exact h.launch hseq hlaunches
  | begins hserver =>
      cases Server.step_cases hserver with
      | begins ht => exact h.advance ht (by simp) rfl rfl
  | ends hserver =>
      cases Server.step_cases hserver with
      | ends ht => exact h.advance ht (by simp) rfl rfl
  | works => exact h.keep (fun _ => Iff.rfl) rfl rfl fun o => reads_modify fun _ => rfl
  | simulate metrics hx | probe metrics hx =>
      exact h.keep (fun _ => runs_loop metrics hx) rfl rfl fun _ hr => hr
  | toggle | status | connect | polled | left | disconnect =>
      exact h.keep (fun _ => Iff.rfl) rfl rfl fun _ hr => hr
  | shutdown => cases hcalm.1

/-- The invariant of a run whose requests do not overlap. -/
structure Orderly (s : Dashboard) : Prop where
  sound : Sound s
  sequential : s.server.Sequential
  watched : Watched s

theorem Orderly.step (h : Orderly s) (hcalm : s.Calm lower e)
    (hstep : s.step fl lower e = some s') : Orderly s' := by
  refine ⟨h.sound.step hstep, ?_, h.watched.step h.sound h.sequential hcalm hstep⟩
  have hserver := h.sound.server_step hstep
  cases he : s.serverEvent? lower e with
  | none =>
      rw [he] at hserver
      exact (show s'.server = s.server from hserver) ▸ h.sequential
  | some e' =>
      rw [he] at hserver
      exact h.sequential.step (hcalm.2 e' he) hserver

/-- **Downloads are watched.** In every run of requests that do not overlap, the active monitor is
the only one that runs, unless a request is in its `stop`; and it is running, and the one that the
scheduler reads, for every download that is not done. -/
theorem run_watched (fl : Rounding) (lower : String → String) (now : ℚ) (es : List Event)
    (s : Dashboard) (hrun : runFrom (step fl lower) (startup fl lower now) es = some s)
    (hcalm : Along (step fl lower) (Calm lower) (startup fl lower now) es) :
    (∀ m, s.Runs m ↔ s.activeMonitor = some m ∧ .stopping ∉ s.server.requests) ∧
      ∀ t ∈ s.server.tasks, t.pc ≠ .done → ∃ i, s.sessions[t.session]? = some i ∧
        s.activeMonitor = some i.scheduler ∧ s.Runs i.scheduler := by
  have h : Orderly s := runFrom_invariant_along (fun _ _ _ h hG hs => Orderly.step h hG hs)
    ⟨startup_sound now, Server.startup_sequential, startup_watched now⟩ hcalm hrun
  refine ⟨h.watched.alone, fun t ht hlive => ?_⟩
  obtain ⟨i, hi, hactive⟩ := h.watched.live t ht hlive
  refine ⟨i, hi, hactive, (h.watched.alone _).mpr ⟨hactive, fun hmem => ?_⟩⟩
  -- while a task is under way no request is
  obtain ⟨r, hr⟩ := List.mem_iff_getElem?.mp hmem
  exact h.sequential.none_inFlight ht hlive hr trivial

/-- Two downloads, one after the other. -/
def twice : List Event :=
  [.request ⟨"a", "a.iso", true⟩ (.adapters []) true, .stopped 0 true, .initialized 0 100 1 true,
    .begins 0, .ends 0, .request ⟨"b", "b.iso", true⟩ (.adapters []) true, .stopped 1 true,
    .initialized 1 50 1 true, .begins 1]

theorem run_watched_twice :
    ∃ s, runFrom (step .exact id) (startup .exact id 0) twice = some s ∧
      s.monitors.length = 3 ∧ ∀ m, s.Runs m ↔ s.activeMonitor = some m ∧
        .stopping ∉ s.server.requests := by
  have hall : ∃ s ∈ runFrom (step .exact id) (startup .exact id 0) twice,
      s.monitors.length = 3 := by decide +kernel
  obtain ⟨s, hrun, hlength⟩ := hall
  exact ⟨s, hrun, hlength, (run_watched .exact id 0 twice s hrun (by decide +kernel)).1⟩

end Dashboard

end AetherBond.Gui
