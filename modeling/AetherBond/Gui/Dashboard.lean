import AetherBond.Client.Scheduler
import AetherBond.Client.SimulatedDownload
import AetherBond.Gui.Server

set_option autoImplicit false

/-! # The dashboard

The whole of `aetherbond/gui/server.py`: the endpoints over the globals, the simulator, the monitors
there have been, and the clients of the websocket. `start_download` is that of `Server`, with what
it does to the simulator and to `active_monitor` (`server_of_run`).

The loops of a monitor stop with it; a probe that is on its way may still end. What the task of a
session does to its bytes, its speed and its chunks is the event's, and so is the number of chunks
that `initialize` makes. `str.lower` is an argument. A status is `none` where `get_system_status`
raises: it reads `time` once the session has started, and the module does not import it.
-/

namespace AetherBond.Gui

open AetherBond.Lib AetherBond.Common AetherBond.Client

/-! ## The source -/

/-- A `PathMonitor`, and whether it is running. -/
structure Monitor where
  isRunning : Bool
  metrics : PathMonitor

structure DownloadRequest where
  url : String
  outputPath : String
  useSimulation : Bool

/-- A request, with the interfaces it has found. -/
structure Incoming where
  request : DownloadRequest
  interfaces : List InterfaceInfo

/-- What a status says of a chunk. -/
structure ChunkInfo where
  index : Nat
  status : ChunkStatus
  interfaceIp : String
  deriving DecidableEq

/-- What a status says of a session besides its flags and its size, and the monitor its scheduler
has. -/
structure SessionInfo where
  url : String
  outputPath : String
  scheduler : Nat
  totalDownloadedBytes : Nat
  currentSpeedBps : ℚ
  chunks : List ChunkInfo

/-- `DownloadSession.__init__`. -/
def SessionInfo.new (req : DownloadRequest) (scheduler : Nat) : SessionInfo where
  url := req.url
  outputPath := req.outputPath
  scheduler := scheduler
  totalDownloadedBytes := 0
  currentSpeedBps := 0
  chunks := []

/-- What the workers and the speed loop have done. -/
def SessionInfo.work (downloaded : Nat) (speed : ℚ) (chunk : Nat → ChunkStatus × String)
    (i : SessionInfo) : SessionInfo :=
  { i with
    totalDownloadedBytes := downloaded
    currentSpeedBps := speed
    chunks := i.chunks.map fun c => ⟨c.index, (chunk c.index).1, (chunk c.index).2⟩ }

/-- The globals, with everything there has been. -/
structure Dashboard where
  server : Server
  simulator : LinkSimulator
  monitors : List Monitor
  /-- The monitor that is also that of `active_scheduler`. -/
  activeMonitor : Option Nat
  requests : List Incoming
  sessions : List SessionInfo
  /-- The clients of the websocket: open or not. -/
  sockets : List Bool
  isShutDown : Bool

/-- `os.path.basename`. -/
def basename (path : String) : String :=
  String.ofList (path.toList.reverse.takeWhile fun c => c ≠ '/').reverse

structure DownloadInfo where
  url : String
  filename : String
  totalSize : Int
  downloaded : Nat
  percent : ℚ
  speedMbps : ℚ
  isStarted : Bool
  isCompleted : Bool
  elapsedSec : ℚ
  chunks : List ChunkInfo

structure Status where
  simulatorEnabled : Bool
  interfaces : List Scheduler.Telemetry
  download : Option DownloadInfo

namespace Dashboard

inductive Event
  /-- `start_download` up to its first pause, with what `psutil` answers. -/
  | request (req : DownloadRequest) (scan : Scan) (prepared : Bool)
  | stopped (r : Nat) (prepared : Bool)
  /-- `initialize` returns `ok`, with so many chunks. -/
  | initialized (r : Nat) (totalSize : Int) (chunks : Nat) (ok : Bool)
  | begins (t : Nat)
  | ends (t : Nat)
  /-- A task gets on, with what it makes of every chunk. -/
  | works (t downloaded : Nat) (speed : ℚ) (chunk : Nat → ChunkStatus × String)
  /-- A loop of a monitor reads a link of the simulator. -/
  | simulate (m : Nat) (ip : String) (uniform roll : ℚ)
  /-- A loop of a monitor probes a physical link. -/
  | probe (m : Nat) (ip : String) (probe : Probe)
  | toggle (ip : String) (state : Option Bool)
  | shutdown
  /-- `GET /api/status`. -/
  | status
  /-- A client of the websocket comes, gets its next status, or is gone when it is sent one. -/
  | connect
  | poll (k : Nat)
  | disconnect (k : Nat)

variable (fl : Rounding) (lower : String → String)

/-- `startup_event`. -/
def startup (now : ℚ) : Dashboard :=
  let simulator := (LinkSimulator.simulatorRegistry fl now).enable
  { server := .startup
    simulator := simulator
    monitors := [⟨true,
      PathMonitor.new.start simulator (getActiveInterfaces simulator lower (.adapters []) true)⟩]
    activeMonitor := some 0
    requests := []
    sessions := []
    sockets := []
    isShutDown := false }

/-- `PathMonitor.stop`, up to its pause. -/
def stopMonitor (s : Dashboard) (m : Nat) : Dashboard :=
  { s with monitors := s.monitors.modify m fun x => { x with isRunning := false } }

/-- From the new monitor to `initialize`. -/
def prepare (s : Dashboard) (x : Incoming) (prepared : Bool) : Dashboard :=
  { s with
    monitors := s.monitors ++ [⟨true, PathMonitor.new.start s.simulator x.interfaces⟩]
    activeMonitor := some s.monitors.length
    sessions := if prepared then s.sessions ++ [.new x.request s.monitors.length] else s.sessions }

/-- A request comes to the server. -/
def arrive (s : Dashboard) (x : Incoming) (prepared : Bool) : Dashboard :=
  { s with
    server := s.server.request (!x.interfaces.isEmpty) prepared
    requests := s.requests ++ [x] }

/-- The simulator setting of a request. -/
def adjust (s : Dashboard) (useSimulation : Bool) : Dashboard :=
  { s with simulator := if useSimulation then s.simulator.enable else s.simulator.disable }

/-- `start_download`, up to its first pause. -/
def request (s : Dashboard) (req : DownloadRequest) (scan : Scan) (prepared : Bool) : Dashboard :=
  if s.server.Refuses then s.arrive ⟨req, []⟩ prepared
  else
    let s := s.adjust req.useSimulation
    let x : Incoming := ⟨req, getActiveInterfaces s.simulator lower scan req.useSimulation⟩
    if x.interfaces.isEmpty then s.arrive x prepared
    else
      match s.activeMonitor with
      | some m => (s.arrive x prepared).stopMonitor m
      | none => (s.arrive x prepared).prepare x prepared

/-- The chunks `initialize` makes. -/
def freshChunks (n : Nat) : List ChunkInfo := (List.range n).map fun i => ⟨i, .pending, ""⟩

/-- `initialize` of the session of a request. -/
def initializeSession (s : Dashboard) (r chunks : Nat) : List SessionInfo :=
  match s.server.requests[r]? with
  | some (.initializing own) =>
      s.sessions.modify own fun x => { x with chunks := freshChunks chunks }
  | _ => s.sessions

/-- A turn of a loop of a monitor. -/
def loop (s : Dashboard) (m : Nat) (e : PathMonitor.Event) : Option Dashboard :=
  (s.monitors[m]?).bind fun x => (x.metrics.step fl e).map fun metrics =>
    { s with monitors := s.monitors.set m { x with metrics := metrics } }

/-- What `get_system_status` says of a session, unless it raises. -/
def downloadInfo (x : Session) (i : SessionInfo) : Option DownloadInfo :=
  -- `time.time()` is a `NameError`
  if x.isStarted then none
  else some
    { url := i.url
      filename := basename i.outputPath
      totalSize := x.totalSize
      downloaded := i.totalDownloadedBytes
      percent :=
        if 0 < x.totalSize then
          fl.decimals 1 (fl.round (fl.round (i.totalDownloadedBytes / x.totalSize) * 100))
        else 0
      speedMbps := fl.decimals 2 (fl.round (fl.round (i.currentSpeedBps * 8) / 1000000))
      isStarted := x.isStarted
      isCompleted := x.isCompleted
      elapsedSec := 0
      chunks := i.chunks }

/-- The active session, as a status reads it. -/
def active? (s : Dashboard) : Option (Session × SessionInfo) :=
  s.server.activeSession.bind fun o => (s.server.sessions[o]?).bind fun x =>
    (s.sessions[o]?).map fun i => (x, i)

/-- `get_telemetry` of the active scheduler. -/
def telemetry (s : Dashboard) : List Scheduler.Telemetry :=
  (s.activeMonitor.bind fun m => s.monitors[m]?).elim [] fun x =>
    Scheduler.getTelemetry fl x.metrics

/-- `get_system_status`. -/
def getSystemStatus (s : Dashboard) : Option Status :=
  match s.active? with
  | none => some ⟨s.simulator.isEnabled, s.telemetry fl, none⟩
  | some (x, i) =>
      (downloadInfo fl x i).map fun info => ⟨s.simulator.isEnabled, s.telemetry fl, some info⟩

/-- The answer of `toggle_interface`: the status and the text of an error, or the name, the address
and the state of the link. -/
def toggleInterface (s : Dashboard) (ip : String) (state : Option Bool) :
    Dashboard × Except (Nat × String) (String × String × Bool) :=
  match s.simulator.getInterface ip with
  | none => (s, .error (404, "Simulated interface not found."))
  | some link =>
      ({ s with simulator := s.simulator.toggle ip state },
        .ok (link.name, link.ip, (link.toggle state).isAlive))

def close (s : Dashboard) (k : Nat) : Dashboard := { s with sockets := s.sockets.set k false }

def step (s : Dashboard) : Event → Option Dashboard
  | .request req scan prepared => some (s.request lower req scan prepared)
  | .stopped r prepared =>
      (s.server.step (.stopped r prepared)).bind fun server => (s.requests[r]?).map fun x =>
        { s with server := server }.prepare x prepared
  | .initialized r totalSize chunks ok =>
      (s.server.step (.initialized r totalSize ok)).map fun server =>
        { s with server := server, sessions := s.initializeSession r chunks }
  | .begins t => (s.server.step (.begins t)).map fun server => { s with server := server }
  | .ends t => (s.server.step (.ends t)).map fun server => { s with server := server }
  | .works t downloaded speed chunk =>
      match s.server.tasks[t]? with
      | some ⟨o, .running⟩ =>
          some { s with sessions := s.sessions.modify o (.work downloaded speed chunk) }
      | _ => none
  | .simulate m ip uniform roll =>
      if ∃ x ∈ s.monitors[m]?, x.isRunning = true then
        s.loop fl m (.simulate ip (SimulatedDownload.reading fl s.simulator ip uniform roll))
      else none
  | .probe m ip probe => s.loop fl m (.probe ip probe)
  | .toggle ip state => some (s.toggleInterface ip state).1
  | .shutdown =>
      if s.isShutDown then none
      else some { s.activeMonitor.elim s s.stopMonitor with isShutDown := true }
  | .status => some s
  | .connect => some { s with sockets := s.sockets ++ [true] }
  | .poll k =>
      if s.sockets[k]? = some true then
        some (if (s.getSystemStatus fl).isSome then s else s.close k)
      else none
  | .disconnect k => if s.sockets[k]? = some true then some (s.close k) else none

/-! ## What a step can do -/

variable {fl : Rounding} {lower : String → String} {s s' : Dashboard} {e : Event}

/-- What a request finds: nothing if the guard refuses it. -/
def found (lower : String → String) (s : Dashboard) (req : DownloadRequest) (scan : Scan) :
    List InterfaceInfo :=
  if s.server.Refuses then []
  else getActiveInterfaces (s.adjust req.useSimulation).simulator lower scan req.useSimulation

/-- A request, with another setting of the simulator, comes to the server. -/
def comes (lower : String → String) (s : Dashboard) (req : DownloadRequest) (scan : Scan)
    (prepared : Bool) (simulator : LinkSimulator) : Dashboard :=
  { s with simulator := simulator }.arrive ⟨req, s.found lower req scan⟩ prepared

inductive Moves (fl : Rounding) (lower : String → String) (s : Dashboard) : Event → Dashboard → Prop
  /-- The guard refuses a request, or it finds no interface. -/
  | turnedAway {req : DownloadRequest} {scan : Scan} {prepared : Bool} (simulator : LinkSimulator)
      (hfound : s.found lower req scan = []) :
      Moves fl lower s (.request req scan prepared) (s.comes lower req scan prepared simulator)
  | letPast {req : DownloadRequest} {scan : Scan} {prepared : Bool} (simulator : LinkSimulator)
      {m : Nat} (hfound : s.found lower req scan ≠ []) (hactive : s.activeMonitor = some m) :
      Moves fl lower s (.request req scan prepared)
        ((s.comes lower req scan prepared simulator).stopMonitor m)
  | unmonitored {req : DownloadRequest} {scan : Scan} {prepared : Bool} {s' : Dashboard}
      (hactive : s.activeMonitor = none) : Moves fl lower s (.request req scan prepared) s'
  | stopped {r : Nat} {prepared : Bool} {server : Server} {x : Incoming}
      (hserver : s.server.step (.stopped r prepared) = some server)
      (hx : s.requests[r]? = some x) :
      Moves fl lower s (.stopped r prepared) ({ s with server := server }.prepare x prepared)
  | initialized {r : Nat} {totalSize : Int} {chunks : Nat} {ok : Bool} {server : Server}
      (hserver : s.server.step (.initialized r totalSize ok) = some server) :
      Moves fl lower s (.initialized r totalSize chunks ok)
        { s with server := server, sessions := s.initializeSession r chunks }
  | begins {t : Nat} {server : Server} (hserver : s.server.step (.begins t) = some server) :
      Moves fl lower s (.begins t) { s with server := server }
  | ends {t : Nat} {server : Server} (hserver : s.server.step (.ends t) = some server) :
      Moves fl lower s (.ends t) { s with server := server }
  | works {t o downloaded : Nat} {speed : ℚ} {chunk : Nat → ChunkStatus × String}
      (ht : s.server.tasks[t]? = some ⟨o, .running⟩) :
      Moves fl lower s (.works t downloaded speed chunk)
        { s with sessions := s.sessions.modify o (SessionInfo.work downloaded speed chunk) }
  | simulate {m : Nat} {ip : String} {uniform roll : ℚ} {x : Monitor} (metrics : PathMonitor)
      (hx : s.monitors[m]? = some x) :
      Moves fl lower s (.simulate m ip uniform roll)
        { s with monitors := s.monitors.set m { x with metrics := metrics } }
  | probe {m : Nat} {ip : String} {probe : Probe} {x : Monitor} (metrics : PathMonitor)
      (hx : s.monitors[m]? = some x) :
      Moves fl lower s (.probe m ip probe)
        { s with monitors := s.monitors.set m { x with metrics := metrics } }
  | toggle {ip : String} {state : Option Bool} (simulator : LinkSimulator) :
      Moves fl lower s (.toggle ip state) { s with simulator := simulator }
  | shutdown (hup : s.isShutDown = false) :
      Moves fl lower s .shutdown { s.activeMonitor.elim s s.stopMonitor with isShutDown := true }
  | status : Moves fl lower s .status s
  | connect : Moves fl lower s .connect { s with sockets := s.sockets ++ [true] }
  | polled {k : Nat} (hstatus : (s.getSystemStatus fl).isSome) : Moves fl lower s (.poll k) s
  /-- The status raises, and the client of the websocket is left. -/
  | left {k : Nat} (hopen : s.sockets[k]? = some true) (hstatus : s.getSystemStatus fl = none) :
      Moves fl lower s (.poll k) (s.close k)
  | disconnect {k : Nat} : Moves fl lower s (.disconnect k) (s.close k)

theorem request_moves (req : DownloadRequest) (scan : Scan) (prepared : Bool) :
    Moves fl lower s (.request req scan prepared) (s.request lower req scan prepared) := by
  unfold request
  by_cases hrefuses : s.server.Refuses
  · have hfound : s.found lower req scan = [] := if_pos hrefuses
    rw [if_pos hrefuses]
    have hmoves : Moves fl lower s (.request req scan prepared)
        (s.comes lower req scan prepared s.simulator) := .turnedAway s.simulator hfound
    unfold comes at hmoves
    rwa [hfound] at hmoves
  · have hfound : s.found lower req scan = getActiveInterfaces
        (s.adjust req.useSimulation).simulator lower scan req.useSimulation := if_neg hrefuses
    rw [if_neg hrefuses]
    dsimp only
    rw [← hfound]
    split_ifs with hnone
    · exact .turnedAway _ (List.isEmpty_iff.mp hnone)
    · split
      · next m hactive =>
          exact .letPast _ (fun h => hnone (List.isEmpty_iff.mpr h)) hactive
      · next hactive => exact .unmonitored hactive

theorem step_moves (h : s.step fl lower e = some s') : Moves fl lower s e s' := by
  cases e with
  | request req scan prepared =>
      obtain rfl := Option.some.inj h
      exact request_moves req scan prepared
  | stopped r prepared =>
      obtain ⟨server, hserver, hrest⟩ := Option.bind_eq_some_iff.mp h
      obtain ⟨x, hx, rfl⟩ := Option.map_eq_some_iff.mp hrest
      exact .stopped hserver hx
  | initialized r totalSize chunks ok =>
      obtain ⟨server, hserver, rfl⟩ := Option.map_eq_some_iff.mp h
      exact .initialized hserver
  | begins t =>
      obtain ⟨server, hserver, rfl⟩ := Option.map_eq_some_iff.mp h
      exact .begins hserver
  | ends t =>
      obtain ⟨server, hserver, rfl⟩ := Option.map_eq_some_iff.mp h
      exact .ends hserver
  | works t downloaded speed chunk =>
      simp only [step] at h
      split at h
      · next ht =>
          obtain rfl := Option.some.inj h
          exact .works ht
      · cases h
  | simulate m ip uniform roll =>
      simp only [step] at h
      split_ifs at h
      obtain ⟨x, hx, hrest⟩ := Option.bind_eq_some_iff.mp h
      obtain ⟨metrics, -, rfl⟩ := Option.map_eq_some_iff.mp hrest
      exact .simulate metrics hx
  | probe m ip probe =>
      obtain ⟨x, hx, hrest⟩ := Option.bind_eq_some_iff.mp h
      obtain ⟨metrics, -, rfl⟩ := Option.map_eq_some_iff.mp hrest
      exact .probe metrics hx
  | toggle ip state =>
      obtain rfl := Option.some.inj h
      unfold toggleInterface
      split
      · exact .toggle s.simulator
      · exact .toggle _
  | shutdown =>
      simp only [step] at h
      split_ifs at h with hup
      obtain rfl := Option.some.inj h
      exact .shutdown (eq_false_of_ne_true hup)
  | status =>
      obtain rfl := Option.some.inj h
      exact .status
  | connect =>
      obtain rfl := Option.some.inj h
      exact .connect
  | poll k =>
      simp only [step] at h
      split_ifs at h with hopen hstatus
      · obtain rfl := Option.some.inj h
        exact .polled hstatus
      · obtain rfl := Option.some.inj h
        exact .left hopen (Option.not_isSome_iff_eq_none.mp hstatus)
  | disconnect k =>
      simp only [step] at h
      split_ifs at h
      obtain rfl := Option.some.inj h
      exact .disconnect

end Dashboard

/-! ## What a step does to the server -/

namespace Server

variable {s s' : Server} {r own : Nat} {prepared interfaces : Bool}

theorem request_turnedAway (h : s.Refuses ∨ interfaces = false) (prepared : Bool) :
    ∃ text, s.request interfaces prepared =
      { s with requests := s.requests ++ [.answered none (.error 400 text)] } := by
  unfold Server.request
  by_cases hrefuses : s.Refuses
  · exact ⟨_, if_pos hrefuses⟩
  · rw [if_neg hrefuses, if_pos (h.resolve_left hrefuses)]
    exact ⟨_, rfl⟩

theorem request_letPast (h : s.Started) (hpast : ¬ s.Refuses) (prepared : Bool) :
    s.request true prepared = { s with requests := s.requests ++ [.stopping] } :=
  Option.some.inj (h.step_request hpast prepared)

/-- What `stop` returns to. -/
structure Prepares (s : Server) (r : Nat) (prepared : Bool) (s' : Server) : Prop where
  stopping : s.requests[r]? = some .stopping
  requests : s'.requests = s.requests.set r
    (if prepared then .initializing s.sessions.length else .answered none .raised)
  sessions : s'.sessions = if prepared then s.sessions ++ [⟨0, false, false⟩] else s.sessions
  active : s'.activeSession = if prepared then some s.sessions.length else s.activeSession
  tasks : s'.tasks = s.tasks

theorem step_prepares (hstep : s.step (.stopped r prepared) = some s') :
    Prepares s r prepared s' := by
  cases step_cases hstep with
  | stopped hr =>
      cases prepared with
      | false | true => exact ⟨hr, rfl, rfl, rfl, rfl⟩

/-- What `initialize` returns to. -/
structure Launches (s : Server) (r own : Nat) (totalSize : Int) (s' : Server) : Prop where
  initializing : s.requests[r]? = some (.initializing own)
  requests : ∃ a, s'.requests = s.requests.set r (.answered (some own) a)
  sessions : s'.sessions = s.sessions.modify own fun x => { x with totalSize := totalSize }
  active : s'.activeSession = s.activeSession
  tasks : s'.tasks = s.tasks ∨
    ∃ o, s.activeSession = some o ∧ s'.tasks = s.tasks ++ [⟨o, .created⟩]

theorem step_launches {totalSize : Int} {ok : Bool}
    (hstep : s.step (.initialized r totalSize ok) = some s') :
    ∃ own, Launches s r own totalSize s' := by
  cases step_cases hstep with
  | @initialized _ own hr =>
      refine ⟨own, ?_⟩
      unfold Server.afterInitialize Server.launch
      dsimp only
      cases ok with
      | false => exact ⟨hr, ⟨_, rfl⟩, rfl, rfl, .inl rfl⟩
      | true =>
          cases hactive : s.activeSession with
          | none => exact ⟨hr, ⟨_, rfl⟩, rfl, hactive.symm, .inl rfl⟩
          | some o => exact ⟨hr, ⟨_, rfl⟩, rfl, hactive.symm, .inr ⟨o, hactive, rfl⟩⟩

end Server

namespace Dashboard

variable {fl : Rounding} {lower : String → String} {s s' : Dashboard} {e : Event}

/-! ## The server in it -/

/-- The step of the server that an event is. -/
def serverEvent? (lower : String → String) (s : Dashboard) : Event → Option Server.Event
  | .request req scan prepared => some (.request (!(s.found lower req scan).isEmpty) prepared)
  | .stopped r prepared => some (.stopped r prepared)
  | .initialized r totalSize _ ok => some (.initialized r totalSize ok)
  | .begins t => some (.begins t)
  | .ends t => some (.ends t)
  | .works .. | .simulate .. | .probe .. | .toggle .. | .shutdown | .status | .connect | .poll _
  | .disconnect _ => none

/-- The requests and the sessions are those of the server, and there is a monitor. -/
structure Sound (s : Dashboard) : Prop where
  server : s.server.Started
  requests : s.requests.length = s.server.requests.length
  sessions : s.sessions.length = s.server.sessions.length
  monitor : ∃ m < s.monitors.length, s.activeMonitor = some m

theorem startup_sound (now : ℚ) : Sound (startup fl lower now) where
  server := Server.startup_started
  requests := rfl
  sessions := rfl
  monitor := ⟨0, Nat.one_pos, rfl⟩

@[simp] theorem stopMonitor_server (s : Dashboard) (m : Nat) :
    (s.stopMonitor m).server = s.server := rfl

@[simp] theorem shutdown_server (s : Dashboard) :
    (s.activeMonitor.elim s s.stopMonitor).server = s.server := by
  cases s.activeMonitor with
  | none | some m => rfl

/-- A step of the dashboard is the step of the server that its event says, or none. -/
theorem Sound.server_step (h : Sound s) (hstep : s.step fl lower e = some s') :
    (s.serverEvent? lower e).elim (s'.server = s.server) fun e' =>
      s.server.step e' = some s'.server := by
  cases step_moves hstep with
  | turnedAway | letPast => rfl
  | unmonitored hactive =>
      obtain ⟨m, -, hm⟩ := h.monitor
      cases hm.symm.trans hactive
  | stopped hserver | initialized hserver | begins hserver | ends hserver => exact hserver
  | works | simulate | probe | toggle | status | connect | polled | left | disconnect => rfl
  | shutdown => exact shutdown_server s

theorem length_initializeSession (s : Dashboard) (r chunks : Nat) :
    (s.initializeSession r chunks).length = s.sessions.length := by
  unfold initializeSession
  split
  · exact List.length_modify ..
  · rfl

theorem not_refuses_of_found {req : DownloadRequest} {scan : Scan}
    (hfound : s.found lower req scan ≠ []) : ¬ s.server.Refuses :=
  fun hrefuses => hfound (if_pos hrefuses)

theorem comes_turnedAway {req : DownloadRequest} {scan : Scan} (simulator : LinkSimulator)
    (prepared : Bool) (hfound : s.found lower req scan = []) :
    ∃ text, (s.comes lower req scan prepared simulator).server =
      { s.server with requests := s.server.requests ++ [.answered none (.error 400 text)] } := by
  unfold comes arrive
  rw [hfound]
  exact Server.request_turnedAway (.inr rfl) prepared

theorem comes_letPast {req : DownloadRequest} {scan : Scan} (h : s.server.Started)
    (simulator : LinkSimulator) (prepared : Bool) (hfound : s.found lower req scan ≠ []) :
    (s.comes lower req scan prepared simulator).server =
      { s.server with requests := s.server.requests ++ [.stopping] } := by
  unfold comes arrive
  rw [show (!(s.found lower req scan).isEmpty) = true by simpa using hfound]
  exact Server.request_letPast h (not_refuses_of_found hfound) prepared

theorem Sound.step (h : Sound s) (hstep : s.step fl lower e = some s') : Sound s' := by
  have hserver : s'.server.Started := by
    have hs := h.server_step hstep
    cases he : s.serverEvent? lower e with
    | none =>
        rw [he] at hs
        exact (show s'.server = s.server from hs) ▸ h.server
    | some e' =>
        rw [he] at hs
        exact h.server.step hs
  obtain ⟨m, hm, hactive⟩ := h.monitor
  have hrequests := h.requests
  have hsessions := h.sessions
  cases step_moves hstep with
  | @turnedAway req scan prepared simulator hfound =>
      obtain ⟨text, heq⟩ := comes_turnedAway simulator prepared hfound
      refine ⟨hserver, ?_, ?_, m, hm, hactive⟩
      · rw [heq]
        simp [comes, arrive, hrequests]
      · rw [heq]
        exact hsessions
  | @letPast req scan prepared simulator _ hfound =>
      have heq := comes_letPast h.server simulator prepared hfound
      refine ⟨hserver, ?_, ?_, m, (List.length_modify ..).symm ▸ hm, hactive⟩
      · show (s.comes lower req scan prepared simulator).requests.length = _
        rw [stopMonitor_server, heq]
        simp [comes, arrive, hrequests]
      · rw [stopMonitor_server, heq]
        exact hsessions
  | unmonitored hnone => cases hactive.symm.trans hnone
  | @stopped r prepared server x hs hx =>
      have hprepares := Server.step_prepares hs
      refine ⟨hserver, ?_, ?_, s.monitors.length, by simp [prepare], rfl⟩
      · show s.requests.length = server.requests.length
        rw [hprepares.requests, List.length_set]
        exact hrequests
      · show (if prepared then _ else _ : List SessionInfo).length = server.sessions.length
        rw [hprepares.sessions]
        cases prepared with
        | false => exact hsessions
        | true => simp [hsessions]
  | @initialized r totalSize chunks ok server hs =>
      obtain ⟨own, hlaunches⟩ := Server.step_launches hs
      obtain ⟨a, ha⟩ := hlaunches.requests
      refine ⟨hserver, ?_, ?_, m, hm, hactive⟩
      · show s.requests.length = server.requests.length
        rw [ha, List.length_set]
        exact hrequests
      · show (s.initializeSession r chunks).length = server.sessions.length
        rw [length_initializeSession, hlaunches.sessions, List.length_modify]
        exact hsessions
  | begins hs | ends hs =>
      cases Server.step_cases hs
      exact ⟨hserver, hrequests, hsessions.trans (List.length_modify ..).symm, m, hm, hactive⟩
  | works => exact ⟨hserver, hrequests, (List.length_modify ..).trans hsessions, m, hm, hactive⟩
  | simulate | probe =>
      exact ⟨hserver, hrequests, hsessions, m, by rwa [List.length_set], hactive⟩
  | toggle | status | connect | polled | left | disconnect =>
      exact ⟨hserver, hrequests, hsessions, m, hm, hactive⟩
  | shutdown =>
      rw [hactive]
      exact ⟨hactive ▸ hserver, hrequests, hsessions, m, (List.length_modify ..).symm ▸ hm, hactive⟩

theorem sound_of_run {now : ℚ} {es : List Event}
    (hrun : runFrom (step fl lower) (startup fl lower now) es = some s) : Sound s :=
  runFrom_invariant (fun _ _ _ h hs => Sound.step h hs) (startup_sound now) hrun

end Dashboard

end AetherBond.Gui
