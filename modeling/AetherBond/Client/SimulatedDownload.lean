import AetherBond.Client.DownloaderAccounting
import AetherBond.Client.DownloaderSteps
import AetherBond.Client.Interfaces
import AetherBond.Client.Scheduler

set_option autoImplicit false

/-! # A download over the simulator

The simulator, the monitor of its links and the download that the scheduler spreads over them, as
one system: a link goes down and comes up (`/api/interface/toggle`), the monitor looks at it every
two seconds, and each attempt at a chunk takes the link the scheduler picks then. `simulate_delay`
and `throttle_stream` are called with the simulator as it is, so what an attempt meets is not the
event's any more, but for the random numbers and the clock.

A worker asleep in `throttle_stream` keeps the link and the number of bytes of the call
(`WorkerLink.transfer`). The session takes steps of its own model throughout (`step_session`), and
so does the monitor.
-/

namespace AetherBond.Client

open AetherBond.Lib AetherBond.Common

/-! ## The system -/

/-- What a worker keeps besides its place: the interface of its attempt, and the link and the bytes
of the `throttle_stream` it sleeps in. -/
structure WorkerLink where
  interfaceIp : String
  transfer : Option (Nat × Nat)
  deriving DecidableEq

structure SimulatedDownload where
  simulator : LinkSimulator
  monitor : PathMonitor
  session : DownloadSession
  links : List WorkerLink

namespace SimulatedDownload

/-- `start`, with the monitor over the interfaces. -/
def start (simulator : LinkSimulator) (interfaces : List InterfaceInfo) (chunks : List Chunk)
    (file : Bytes) : SimulatedDownload where
  simulator := simulator
  monitor := .start .new simulator interfaces
  session := .start chunks file
  links := List.replicate (min 8 chunks.length) ⟨"", none⟩

inductive Event
  /-- The link at an address is switched on, off or over. -/
  | toggle (ip : String) (state : Option Bool)
  | enable
  | disable
  /-- The monitor looks at a simulated link. -/
  | monitor (ip : String) (uniform roll : ℚ)
  /-- A turn of the monitor for a physical link. -/
  | probe (ip : String) (probe : Probe)
  /-- A worker at the head of its loop, or after a pause, goes on. -/
  | attempt (w : Nat) (r : ℚ) (choice : Nat) (roll uniform : ℚ)
  /-- `simulate_delay` returns. -/
  | delayed (w : Nat)
  /-- A worker calls `throttle_stream`. -/
  | stream (w : Nat)
  /-- `throttle_stream` has slept. -/
  | throttled (w : Nat) (now : ℚ)
  /-- The disk, the physical path or `join`. -/
  | session (e : DownloadSession.Event)
  deriving DecidableEq

variable (fl : Rounding)

/-- What a turn of `_monitor_loop` reads from the simulator. -/
def reading (simulator : LinkSimulator) (ip : String) (uniform roll : ℚ) : SimulatedLink :=
  match simulator.getInterface ip with
  | none => .dead
  | some link =>
      if link.isAlive then
        .alive link.bandwidthMbps link.latencyMs
          (fl.round (fl.round (link.latencyMs * 2) * uniform))
          (0 < link.lossRate ∧ roll < link.lossRate)
      else .dead

/-- The worker's slot gets a new interface, or a new transfer. -/
def setLink (s : SimulatedDownload) (w : Nat) (f : WorkerLink → WorkerLink) : SimulatedDownload :=
  { s with links := s.links.modify w f }

/-- The worker goes on in its session; whatever it was asleep in is over. -/
def advance (s : SimulatedDownload) (w : Nat) (e : DownloadSession.Event) :
    Option SimulatedDownload :=
  (s.session.step e).map fun session =>
    { s with session := session }.setLink w fun l => { l with transfer := none }

/-- The kind of the link the scheduler picks for an attempt. -/
def choose (s : SimulatedDownload) (picked : Except String String) : Choice :=
  match picked with
  | .error _ => .raises
  | .ok ip =>
      if (s.monitor.metrics.get? ip).elim false LinkMetrics.isSimulated then .simulated
      else .physical

/-- The event with which a worker takes a chunk, or the same chunk again. -/
def resume (s : SimulatedDownload) (w : Nat) (choice : Choice) : DownloadSession.Event :=
  if s.session.workers[w]? = some .ready then .loop w choice else .slept w choice

/-- The head of an attempt. -/
def attempt (s : SimulatedDownload) (w : Nat) (picked : Except String String) (roll uniform : ℚ) :
    Option SimulatedDownload :=
  (s.advance w (s.resume w (s.choose picked))).bind fun s =>
    match picked with
    | .error _ => some s
    | .ok ip =>
        match s.session.workers[w]? with
        | some (.busy _ _ .delaying) =>
            let s := s.setLink w fun l => { l with interfaceIp := ip }
            match s.simulator.simulateDelay fl ip roll uniform with
            | .raises _ => s.advance w (.raises w)
            | _ => some s
        | some (.busy _ _ (.requesting _)) =>
            some (s.setLink w fun l => { l with interfaceIp := ip })
        -- there was no attempt: the queue is empty, or all retries have failed
        | _ => some s

/-- A worker in the simulated stream calls `throttle_stream` for the next 64 KB. -/
def stream (s : SimulatedDownload) (w : Nat) : Option SimulatedDownload :=
  match s.session.current w, s.links[w]? with
  | some (_, _, .throttling downloaded, c), some ⟨ip, none⟩ =>
      let n := min (64 * 1024) (c.size - downloaded).toNat
      match s.simulator.throttleStream fl ip n with
      | .returns => s.advance w (.throttled w)
      | .raises _ => s.advance w (.raises w)
      | .sleeps o _ => some (s.setLink w fun l => { l with transfer := some (o, n) })
  | _, _ => none

/-- The events of a session that do not come from the simulator. -/
def external (s : SimulatedDownload) : DownloadSession.Event → Bool
  | .written _ | .responded _ _ _ | .received _ _ | .bodyEnds _ | .joined => true
  -- over the simulator only its own calls raise, and the write
  | .raises w =>
      match s.session.workers[w]? with
      | some (.busy _ _ .delaying) | some (.busy _ _ (.throttling _)) => false
      | _ => true
  | _ => false

def step (s : SimulatedDownload) : Event → Option SimulatedDownload
  | .toggle ip state => some { s with simulator := s.simulator.toggle ip state }
  | .enable => some { s with simulator := s.simulator.enable }
  | .disable => some { s with simulator := s.simulator.disable }
  | .monitor ip uniform roll =>
      (s.monitor.step fl (.simulate ip (reading fl s.simulator ip uniform roll))).map fun monitor =>
        { s with monitor := monitor }
  | .probe ip probe =>
      (s.monitor.step fl (.probe ip probe)).map fun monitor => { s with monitor := monitor }
  | .attempt w r choice roll uniform =>
      s.attempt fl w (Scheduler.selectInterfaceWrr fl s.monitor r choice) roll uniform
  | .delayed w => s.advance w (.delayed w)
  | .stream w => s.stream fl w
  | .throttled w now =>
      match s.links[w]? with
      | some ⟨_, some (o, n)⟩ =>
          { s with simulator := s.simulator.transferred fl o n now }.advance w (.throttled w)
      | _ => none
  | .session e =>
      if s.external e then
        match e.worker? with
        | some w => s.advance w e
        -- the workers are cancelled once `join` has returned
        | none => (s.session.step e).map fun session =>
            { s with
              session := session
              links := s.links.map fun l => { l with transfer := none } }
      else none

/-! ## What a step can do -/

variable {fl} {s s' s'' : SimulatedDownload} {e : Event} {w : Nat}

/-- Worker `w` takes the steps `es` in its session, and sleeps in no transfer afterwards. -/
structure Works (w : Nat) (es : List DownloadSession.Event) (s s' : SimulatedDownload) : Prop where
  simulator : s'.simulator = s.simulator
  monitor : s'.monitor = s.monitor
  run : runFrom DownloadSession.step s.session es = some s'.session
  own : ∀ e ∈ es, e.worker? = some w
  links : ∃ f : WorkerLink → WorkerLink, s'.links = s.links.modify w f ∧
    ∀ l, (f l).transfer = none

theorem works_advance {e : DownloadSession.Event} (hw : e.worker? = some w)
    (h : s.advance w e = some s') : Works w [e] s s' := by
  obtain ⟨session, hstep, rfl⟩ := Option.map_eq_some_iff.mp h
  exact ⟨rfl, rfl, runFrom_cons_eq_some.mpr ⟨session, hstep, rfl⟩, by simpa using hw, _, rfl,
    fun _ => rfl⟩

theorem Works.setIp {es : List DownloadSession.Event} (h : Works w es s s') (ip : String) :
    Works w es s (s'.setLink w fun l => { l with interfaceIp := ip }) := by
  obtain ⟨f, hlinks, hf⟩ := h.links
  refine ⟨h.simulator, h.monitor, h.run, h.own, fun l => { f l with interfaceIp := ip }, ?_, hf⟩
  show s'.links.modify w _ = _
  rw [hlinks, List.modify_modify_eq]
  rfl

theorem Works.trans {es es' : List DownloadSession.Event} (h : Works w es s s')
    (h' : Works w es' s' s'') : Works w (es ++ es') s s'' := by
  obtain ⟨f, hlinks, -⟩ := h.links
  obtain ⟨g, hlinks', hg⟩ := h'.links
  refine ⟨h'.simulator.trans h.simulator, h'.monitor.trans h.monitor,
    runFrom_append_eq_some.mpr ⟨_, h.run, h'.run⟩, ?_, g ∘ f, ?_, fun l => hg (f l)⟩
  · intro e he
    exact (List.mem_append.mp he).elim (h.own e) (h'.own e)
  · rw [hlinks', hlinks, List.modify_modify_eq]

theorem resume_worker (s : SimulatedDownload) (w : Nat) (choice : Choice) :
    (s.resume w choice).worker? = some w := by
  unfold resume
  split_ifs <;> rfl

/-- The bytes come with the step, over no link of the simulator. -/
def direct (fl : Rounding) (s : SimulatedDownload) : Event → Option Nat
  | .stream w =>
      match s.session.current w, s.links[w]? with
      | some (_, _, .throttling downloaded, c), some l =>
          let n := min (64 * 1024) (c.size - downloaded).toNat
          if s.simulator.throttleStream fl l.interfaceIp n = .returns then some n else none
      | _, _ => none
  | .session (.received _ n) => some n
  | _ => none

/-- The steps, by what they find. -/
inductive Moves (fl : Rounding) (s : SimulatedDownload) : Event → SimulatedDownload → Prop
  | toggle (ip : String) (state : Option Bool) :
      Moves fl s (.toggle ip state) { s with simulator := s.simulator.toggle ip state }
  | enable : Moves fl s .enable { s with simulator := s.simulator.enable }
  | disable : Moves fl s .disable { s with simulator := s.simulator.disable }
  | monitor {ip : String} {uniform roll : ℚ} {monitor : PathMonitor}
      (hstep : s.monitor.step fl (.simulate ip (reading fl s.simulator ip uniform roll)) =
        some monitor) : Moves fl s (.monitor ip uniform roll) { s with monitor := monitor }
  | probe {ip : String} {probe : Probe} {monitor : PathMonitor}
      (hstep : s.monitor.step fl (.probe ip probe) = some monitor) :
      Moves fl s (.probe ip probe) { s with monitor := monitor }
  /-- A worker goes on, and no bytes come. -/
  | works {e : Event} {w : Nat} {es : List DownloadSession.Event} {s' : SimulatedDownload}
      (hworks : Works w es s s') (hstill : ∀ e ∈ es, e.arrives = false)
      (hdirect : s.direct fl e = none) : Moves fl s e s'
  /-- `throttle_stream` returns at once. -/
  | passes {w i retries downloaded : Nat} {c : Chunk} {s' : SimulatedDownload}
      (hcur : s.session.current w = some (i, retries, .throttling downloaded, c))
      (hdirect : s.direct fl (.stream w) = some (min (64 * 1024) (c.size - downloaded).toNat))
      (hworks : Works w [.throttled w] s s') : Moves fl s (.stream w) s'
  /-- Bytes come over a physical link. -/
  | receives {w n : Nat} {s' : SimulatedDownload} (hworks : Works w [.received w n] s s') :
      Moves fl s (.session (.received w n)) s'
  /-- `throttle_stream` sleeps, for a live link. -/
  | sleeps {w i retries downloaded o : Nat} {c : Chunk} {ip : String} {link : SimulatedInterface}
      (hcur : s.session.current w = some (i, retries, .throttling downloaded, c))
      (hlink : s.links[w]? = some ⟨ip, none⟩) (ho : s.simulator.objects[o]? = some link)
      (halive : link.isAlive = true) (hdirect : s.direct fl (.stream w) = none) :
      Moves fl s (.stream w) (s.setLink w fun l =>
        { l with transfer := some (o, min (64 * 1024) (c.size - downloaded).toNat) })
  | wakes {w o n : Nat} {ip : String} {now : ℚ} {s' : SimulatedDownload}
      (hlink : s.links[w]? = some ⟨ip, some (o, n)⟩)
      (hworks : Works w [.throttled w]
        { s with simulator := s.simulator.transferred fl o n now } s') :
      Moves fl s (.throttled w now) s'
  | joins {session : DownloadSession} (hstep : s.session.step .joined = some session) :
      Moves fl s (.session .joined)
        { s with
          session := session
          links := s.links.map fun l => { l with transfer := none } }

theorem attempt_works {picked : Except String String} {roll uniform : ℚ}
    (h : s.attempt fl w picked roll uniform = some s') :
    ∃ es, Works w es s s' ∧ ∀ e ∈ es, e.arrives = false := by
  have hstill : (s.resume w (s.choose picked)).arrives = false := by
    unfold resume
    split_ifs <;> rfl
  obtain ⟨s₁, hadv, hrest⟩ := Option.bind_eq_some_iff.mp h
  have hfirst := works_advance (resume_worker s w _) hadv
  cases picked with
  | error message =>
      obtain rfl := Option.some.inj hrest
      exact ⟨_, hfirst, by simpa using hstill⟩
  | ok ip =>
      dsimp only at hrest
      split at hrest
      · have hset := hfirst.setIp ip
        split at hrest
        · exact ⟨_, hset.trans (works_advance rfl hrest), by simpa using ⟨hstill, rfl⟩⟩
        · obtain rfl := Option.some.inj hrest
          exact ⟨_, hset, by simpa using hstill⟩
      · obtain rfl := Option.some.inj hrest
        exact ⟨_, hfirst.setIp ip, by simpa using hstill⟩
      · obtain rfl := Option.some.inj hrest
        exact ⟨_, hfirst, by simpa using hstill⟩

theorem stream_moves (h : s.stream fl w = some s') : Moves fl s (.stream w) s' := by
  unfold stream at h
  split at h
  · next i retries downloaded c ip hcur hlink =>
      have hdirect : ∀ x, s.simulator.throttleStream fl ip (min (64 * 1024)
          (c.size - downloaded).toNat) = x → s.direct fl (.stream w) =
            if x = .returns then some (min (64 * 1024) (c.size - downloaded).toNat) else none := by
        rintro x rfl
        simp only [direct, hcur, hlink]
      dsimp only at h
      split at h
      · next hreturns => exact .passes hcur (hdirect _ hreturns) (works_advance rfl h)
      · next hraises =>
          exact .works (works_advance rfl h) (by simp [DownloadSession.Event.arrives])
            (hdirect _ hraises)
      · next hsleeps =>
          obtain rfl := Option.some.inj h
          obtain ⟨-, link, ho, halive⟩ := LinkSimulator.throttleStream_sleeps hsleeps
          exact .sleeps hcur hlink ho halive (hdirect _ hsleeps)
  · cases h

theorem session_moves {e : DownloadSession.Event} (h : s.step fl (.session e) = some s') :
    Moves fl s (.session e) s' := by
  unfold step at h
  dsimp only at h
  split_ifs at h with hext
  cases e with
  | written w | responded w status body | bodyEnds w | raises w =>
      exact .works (works_advance rfl h) (by simp [DownloadSession.Event.arrives]) rfl
  | received w n => exact .receives (works_advance rfl h)
  | joined =>
      obtain ⟨session, hstep, rfl⟩ := Option.map_eq_some_iff.mp h
      exact .joins hstep
  | loop | delayed | throttled | slept => cases hext

/-- **The step function, inverted once.** -/
theorem step_moves (h : s.step fl e = some s') : Moves fl s e s' := by
  cases e with
  | toggle ip state => exact Option.some.inj h ▸ .toggle ip state
  | enable => exact Option.some.inj h ▸ .enable
  | disable => exact Option.some.inj h ▸ .disable
  | monitor ip uniform roll =>
      obtain ⟨monitor, hstep, rfl⟩ := Option.map_eq_some_iff.mp h
      exact .monitor hstep
  | probe ip probe =>
      obtain ⟨monitor, hstep, rfl⟩ := Option.map_eq_some_iff.mp h
      exact .probe hstep
  | attempt w r choice roll uniform =>
      obtain ⟨es, hworks, hstill⟩ := attempt_works h
      exact .works hworks hstill rfl
  | delayed w =>
      exact .works (works_advance rfl h) (by simp [DownloadSession.Event.arrives]) rfl
  | stream w => exact stream_moves h
  | throttled w now =>
      unfold step at h
      dsimp only at h
      split at h
      · next hlink => exact .wakes hlink (works_advance rfl h)
      · cases h
  | session e => exact session_moves h

/-- **The session follows its own model.** -/
theorem step_session (h : s.step fl e = some s') :
    ∃ es, runFrom DownloadSession.step s.session es = some s'.session := by
  cases step_moves h with
  | toggle | enable | disable | monitor | probe | sleeps => exact ⟨[], rfl⟩
  | works hworks | passes _ _ hworks | receives hworks | wakes _ hworks => exact ⟨_, hworks.run⟩
  | joins hstep => exact ⟨[.joined], runFrom_cons_eq_some.mpr ⟨_, hstep, rfl⟩⟩

/-- So what holds in every run of a session holds in every run over the simulator. -/
theorem session_of_run {es : List Event} (hrun : runFrom (step fl) s es = some s') :
    ∃ es', runFrom DownloadSession.step s.session es' = some s'.session := by
  have hstep : ∀ s₁ e s₂, (∃ es', runFrom DownloadSession.step s.session es' = some s₁.session) →
      step fl s₁ e = some s₂ → ∃ es', runFrom DownloadSession.step s.session es' =
        some s₂.session := by
    rintro s₁ e s₂ ⟨es₁, hrun₁⟩ h
    obtain ⟨es₂, hrun₂⟩ := step_session h
    exact ⟨es₁ ++ es₂, runFrom_append_eq_some.mpr ⟨_, hrun₁, hrun₂⟩⟩
  exact runFrom_invariant hstep ⟨[], rfl⟩ hrun

/-- **The monitor follows its own model.** -/
theorem step_monitor (h : s.step fl e = some s') :
    ∃ es, runFrom (PathMonitor.step fl) s.monitor es = some s'.monitor := by
  cases step_moves h with
  | toggle | enable | disable | sleeps | joins => exact ⟨[], rfl⟩
  | works hworks | passes _ _ hworks | receives hworks | wakes _ hworks =>
      exact ⟨[], congrArg some hworks.monitor.symm⟩
  | monitor hstep | probe hstep => exact ⟨[_], runFrom_cons_eq_some.mpr ⟨_, hstep, rfl⟩⟩

/-- The monitor of a run is one of the monitor's own runs, from its construction on. -/
theorem monitor_of_run {simulator : LinkSimulator} {interfaces : List InterfaceInfo}
    {chunks : List Chunk} {file : Bytes} {es : List Event}
    (hrun : runFrom (step fl) (start simulator interfaces chunks file) es = some s) :
    ∃ es', runFrom (PathMonitor.step fl) .new es' = some s.monitor := by
  have hstep : ∀ s₁ e s₂, (∃ es', runFrom (PathMonitor.step fl) .new es' = some s₁.monitor) →
      step fl s₁ e = some s₂ → ∃ es', runFrom (PathMonitor.step fl) .new es' =
        some s₂.monitor := by
    rintro s₁ e s₂ ⟨es₁, hrun₁⟩ h
    obtain ⟨es₂, hrun₂⟩ := step_monitor h
    exact ⟨es₁ ++ es₂, runFrom_append_eq_some.mpr ⟨_, hrun₁, hrun₂⟩⟩
  exact runFrom_invariant hstep ⟨_, PathMonitor.start_run fl .new simulator interfaces⟩ hrun

end SimulatedDownload

end AetherBond.Client
