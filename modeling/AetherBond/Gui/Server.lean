import AetherBond.Lib.Run

set_option autoImplicit false

/-! # The download endpoint of the dashboard

`start_download` of `aetherbond/gui/server.py`. A request runs without a pause up to
`active_monitor.stop()`, from there up to `initialize`, and from there to its answer; in the two
pauses other requests and the tasks of `start` run. The event loop begins a task some time after
`create_task`, and only then is `is_started` set. What `get_active_interfaces` and `initialize`
find, and whether the output directory and the session can be made, are the event's; the session
itself is `Client.DownloadSession`, of which the endpoint reads the two flags and the size.

Which session a request has initialized is history where its answer does not say it. One download
at a time is kept in runs where a request is let past the guard only when no other is under way and
every task has begun (`run_singleDownload`). From any other request that is let past the guard two
downloads can come to run at once (`two_downloads_of_let_past`).
-/

namespace AetherBond.Gui

open AetherBond.Lib

/-! ## The source -/

/-- A `DownloadSession`, as far as the endpoint looks at it. -/
structure Session where
  totalSize : Int
  isStarted : Bool
  isCompleted : Bool
  deriving DecidableEq

/-- The answer to a request. -/
inductive Answer
  | error (status : Nat) (text : String)
  /-- The request raises, which is answered with status 500. -/
  | raised
  /-- "Download started.", with the size `total_size_mb` is computed from. -/
  | started (totalSize : Int)
  deriving DecidableEq

/-- Where a request is: in `active_monitor.stop()`, in `initialize` of its session, or answered,
with the session if there was one. -/
inductive RequestPc
  | stopping
  | initializing (session : Nat)
  | answered (session : Option Nat) (answer : Answer)
  deriving DecidableEq

/-- The request has no answer yet. -/
def RequestPc.InFlight : RequestPc → Prop
  | .stopping => True
  | .initializing _ => True
  | .answered _ _ => False

instance : ∀ pc : RequestPc, Decidable pc.InFlight
  | .stopping => isTrue trivial
  | .initializing _ => isTrue trivial
  | .answered _ _ => isFalse id

/-- Where a task is: created, but not begun; between its first step and its last; or done. -/
inductive TaskPc
  | created
  | running
  | done
  deriving DecidableEq

/-- A task of `session.start()`. -/
structure DownloadTask where
  session : Nat
  pc : TaskPc
  deriving DecidableEq

/-- The globals of the module, with every session, request and task there has been. -/
structure Server where
  activeMonitor : Bool
  activeSession : Option Nat
  currentDownloadTask : Option Nat
  sessions : List Session
  requests : List RequestPc
  tasks : List DownloadTask
  deriving DecidableEq

namespace Server

/-- After `startup_event`, which starts a monitor. -/
def startup : Server where
  activeMonitor := true
  activeSession := none
  currentDownloadTask := none
  sessions := []
  requests := []
  tasks := []

inductive Event
  /-- A request comes in; the interfaces it finds are not none if `interfaces`. -/
  | request (interfaces prepared : Bool)
  /-- `active_monitor.stop()` returns to a request. -/
  | stopped (r : Nat) (prepared : Bool)
  /-- `initialize` returns `ok` to a request. -/
  | initialized (r : Nat) (totalSize : Int) (ok : Bool)
  /-- The event loop begins a task. -/
  | begins (t : Nat)
  /-- `start` returns. -/
  | ends (t : Nat)
  deriving DecidableEq

def setRequest (s : Server) (r : Nat) (pc : RequestPc) : Server :=
  { s with requests := s.requests.set r pc }

/-- The guard of `start_download`. -/
def Refuses (s : Server) : Prop :=
  ∃ o ∈ s.activeSession, ∃ x ∈ s.sessions[o]?, x.isStarted ∧ ¬ x.isCompleted

instance (s : Server) : Decidable s.Refuses :=
  inferInstanceAs (Decidable (∃ o ∈ s.activeSession, ∃ x ∈ s.sessions[o]?, _))

/-- From the new monitor to `initialize`; `prepared` if neither `makedirs` nor the constructor
raises. -/
def prepare (s : Server) (r : Nat) (prepared : Bool) : Server :=
  if prepared then
    { s.setRequest r (.initializing s.sessions.length) with
      activeMonitor := true
      activeSession := some s.sessions.length
      sessions := s.sessions ++ [⟨0, false, false⟩] }
  else { s.setRequest r (.answered none .raised) with activeMonitor := true }

/-- A request, up to its first pause. -/
def request (s : Server) (interfaces prepared : Bool) : Server :=
  if s.Refuses then
    { s with
      requests := s.requests ++
        [.answered none (.error 400 "A download is already in progress.")] }
  else if interfaces = false then
    { s with
      requests := s.requests ++
        [.answered none (.error 400 "No active network interfaces detected.")] }
  else
    let s' := { s with requests := s.requests ++ [.stopping] }
    -- the first pause is in the `stop` of a monitor
    if s.activeMonitor then s' else s'.prepare s.requests.length prepared

/-- `create_task(active_session.start())`, and the answer. -/
def launch (s : Server) (r own : Nat) : Server :=
  match s.activeSession with
  -- the global: by now it may be the session of another request
  | some o =>
      { s.setRequest r (.answered (some own)
            (.started ((s.sessions[o]?.map Session.totalSize).getD 0))) with
        currentDownloadTask := some s.tasks.length
        tasks := s.tasks ++ [⟨o, .created⟩] }
  | none => s.setRequest r (.answered (some own) .raised)

/-- After `initialize`. -/
def afterInitialize (s : Server) (r own : Nat) (totalSize : Int) (ok : Bool) : Server :=
  let s := { s with sessions := s.sessions.modify own fun x => { x with totalSize := totalSize } }
  if ok then s.launch r own
  else
    s.setRequest r
      (.answered (some own) (.error 400 "Failed to initialize download range requests."))

def step (s : Server) : Event → Option Server
  | .request interfaces prepared => some (s.request interfaces prepared)
  | .stopped r prepared =>
      match s.requests[r]? with
      | some .stopping => some (s.prepare r prepared)
      | _ => none
  | .initialized r totalSize ok =>
      match s.requests[r]? with
      | some (.initializing own) => some (s.afterInitialize r own totalSize ok)
      | _ => none
  | .begins t =>
      match s.tasks[t]? with
      | some ⟨o, .created⟩ =>
          some { s with
            tasks := s.tasks.set t ⟨o, .running⟩
            sessions := s.sessions.modify o fun x => { x with isStarted := true } }
      | _ => none
  | .ends t =>
      match s.tasks[t]? with
      | some ⟨o, .running⟩ =>
          some { s with
            tasks := s.tasks.set t ⟨o, .done⟩
            sessions := s.sessions.modify o fun x => { x with isCompleted := true } }
      | _ => none

/-- The steps, by what they find. -/
inductive Steps (s : Server) : Event → Server → Prop
  | request (interfaces prepared : Bool) :
      Steps s (.request interfaces prepared) (s.request interfaces prepared)
  | stopped {r : Nat} (hr : s.requests[r]? = some .stopping) (prepared : Bool) :
      Steps s (.stopped r prepared) (s.prepare r prepared)
  | initialized {r own : Nat} (hr : s.requests[r]? = some (.initializing own)) (totalSize : Int)
      (ok : Bool) : Steps s (.initialized r totalSize ok) (s.afterInitialize r own totalSize ok)
  | begins {t o : Nat} (ht : s.tasks[t]? = some ⟨o, .created⟩) :
      Steps s (.begins t) { s with
        tasks := s.tasks.set t ⟨o, .running⟩
        sessions := s.sessions.modify o fun x => { x with isStarted := true } }
  | ends {t o : Nat} (ht : s.tasks[t]? = some ⟨o, .running⟩) :
      Steps s (.ends t) { s with
        tasks := s.tasks.set t ⟨o, .done⟩
        sessions := s.sessions.modify o fun x => { x with isCompleted := true } }

theorem step_cases {s s' : Server} {e : Event} (hstep : s.step e = some s') : Steps s e s' := by
  cases e with
  | request interfaces prepared => exact Option.some.inj hstep ▸ .request interfaces prepared
  | stopped r prepared =>
      unfold Server.step at hstep
      dsimp only at hstep
      split at hstep
      · next hr => exact Option.some.inj hstep ▸ .stopped hr prepared
      · cases hstep
  | initialized r totalSize ok =>
      unfold Server.step at hstep
      dsimp only at hstep
      split at hstep
      · next hr => exact Option.some.inj hstep ▸ .initialized hr totalSize ok
      · cases hstep
  | begins t =>
      unfold Server.step at hstep
      dsimp only at hstep
      split at hstep
      · next ht => exact Option.some.inj hstep ▸ .begins ht
      · cases hstep
  | ends t =>
      unfold Server.step at hstep
      dsimp only at hstep
      split at hstep
      · next ht => exact Option.some.inj hstep ▸ .ends ht
      · cases hstep

/-! ## One download at a time -/

/-- At most one task is running, no session has two, and a request that was answered "Download
started." has one for the session it initialized. -/
structure SingleDownload (s : Server) : Prop where
  alone : (s.tasks.filter fun t => t.pc = .running).length ≤ 1
  once : ∀ o, (s.tasks.map DownloadTask.session).count o ≤ 1
  started : ∀ o totalSize, .answered (some o) (.started totalSize) ∈ s.requests →
    (s.tasks.map DownloadTask.session).count o = 1

/-- The condition on a step: a request that the guard lets past is the only one under way, and no
task is still to begin. -/
def Calm (s : Server) : Event → Prop
  | .request interfaces _ =>
      s.Refuses ∨ interfaces = false ∨
        (∀ pc ∈ s.requests, ¬ pc.InFlight) ∧ ∀ t ∈ s.tasks, t.pc ≠ .created
  | .stopped _ _ => True
  | .initialized _ _ _ => True
  | .begins _ => True
  | .ends _ => True

instance (s : Server) : ∀ e, Decidable (s.Calm e)
  | .request interfaces _ => inferInstanceAs (Decidable (_ ∨ interfaces = false ∨ _ ∧ _))
  | .stopped _ _ => isTrue trivial
  | .initialized _ _ _ => isTrue trivial
  | .begins _ => isTrue trivial
  | .ends _ => isTrue trivial

variable {s s' : Server} {r t o own : Nat} {totalSize : Int} {pc : RequestPc}

/-! ## The invariant -/

/-- No session has two tasks; a task that is not done is for the active session, which the guard
knows once the task runs; and while a request is under way there is no other and no such task. -/
structure Sequential (s : Server) : Prop where
  once : (s.tasks.map DownloadTask.session).Nodup
  bounded : ∀ t ∈ s.tasks, t.session < s.sessions.length
  live : ∀ t ∈ s.tasks, t.pc ≠ .done → s.activeSession = some t.session ∧
    ∃ x, s.sessions[t.session]? = some x ∧ x.isCompleted = false ∧
      (t.pc = .running → x.isStarted = true)
  inFlight : ∀ (r : Nat) (pc : RequestPc), s.requests[r]? = some pc → pc.InFlight →
    (∀ (r' : Nat) (pc' : RequestPc), s.requests[r']? = some pc' → pc'.InFlight → r' = r) ∧
      ∀ t ∈ s.tasks, t.pc = .done
  own : ∀ (r o : Nat), s.requests[r]? = some (.initializing o) → s.activeSession = some o ∧
    o ∉ s.tasks.map DownloadTask.session ∧ ∃ x, s.sessions[o]? = some x ∧ x.isCompleted = false
  started : ∀ (r o : Nat) (totalSize : Int),
    s.requests[r]? = some (.answered (some o) (.started totalSize)) →
    o ∈ s.tasks.map DownloadTask.session

theorem startup_sequential : Sequential startup where
  once := List.nodup_nil
  bounded _ h := nomatch h
  live _ h := nomatch h
  inFlight _ _ h := nomatch h
  own _ _ h := nomatch h
  started _ _ _ h := nomatch h

/-- A request with an answer that does not say "Download started.". -/
def Refused (pc : RequestPc) : Prop :=
  ∃ o a, pc = .answered o a ∧ ∀ totalSize, a ≠ .started totalSize

/-- Requests that end without a download change nothing. -/
theorem Sequential.refuse (h : Sequential s) {requests : List RequestPc}
    (hold : ∀ (r : Nat) (pc : RequestPc), requests[r]? = some pc →
      Refused pc ∨ s.requests[r]? = some pc) :
    Sequential { s with requests := requests } where
  once := h.once
  bounded := h.bounded
  live := h.live
  inFlight r pc hpc hflight := by
    have hkept : ∀ (r : Nat) (pc : RequestPc), requests[r]? = some pc → pc.InFlight →
        s.requests[r]? = some pc := by
      intro r pc hpc hflight
      refine (hold r pc hpc).resolve_left ?_
      rintro ⟨o, a, rfl, _⟩
      exact hflight
    obtain ⟨honly, hdone⟩ := h.inFlight r pc (hkept r pc hpc hflight) hflight
    exact ⟨fun r' pc' hpc' hflight' => honly r' pc' (hkept r' pc' hpc' hflight') hflight', hdone⟩
  own r o hpc := by
    refine h.own r o ((hold r _ hpc).resolve_left ?_)
    rintro ⟨o, a, heq, _⟩
    nomatch heq
  started r o totalSize hpc := by
    refine h.started r o totalSize ((hold r _ hpc).resolve_left ?_)
    rintro ⟨o, a, heq, hnot⟩
    exact hnot totalSize (RequestPc.answered.inj heq).2.symm

/-- A request ends without a download. -/
theorem Sequential.refuse_set (h : Sequential s) (r : Nat) (hpc : Refused pc) :
    Sequential (s.setRequest r pc) :=
  h.refuse fun r' pc' hpc' => (getElem?_set_cases hpc').imp
    (fun heq : pc' = pc ∧ r' = r => heq.1 ▸ hpc) And.right

/-- A request is refused at once. -/
theorem Sequential.refuse_new (h : Sequential s) (hpc : Refused pc) :
    Sequential { s with requests := s.requests ++ [pc] } :=
  h.refuse fun r' pc' hpc' => (getElem?_concat_cases hpc').imp_left
    fun heq : pc' = pc ∧ r' = s.requests.length => heq.1 ▸ hpc

/-- No task is under way if the guard lets a request past and none is still to begin. -/
theorem Sequential.all_done (h : Sequential s) (hpast : ¬ s.Refuses)
    (hbegun : ∀ t ∈ s.tasks, t.pc ≠ .created) : ∀ t ∈ s.tasks, t.pc = .done := by
  intro t ht
  by_contra hnot
  obtain ⟨hactive, x, hx, hcompleted, hstarted⟩ := h.live t ht hnot
  -- a task that has begun and is not done is known to the guard
  have hrunning : t.pc = .running := by
    cases hat : t.pc with
    | created => exact absurd hat (hbegun t ht)
    | running => rfl
    | done => exact absurd hat hnot
  exact hpast ⟨t.session, hactive, x, hx, hstarted hrunning,
    by rw [hcompleted]; exact Bool.noConfusion⟩

/-- A request goes past the guard. -/
theorem Sequential.enter (h : Sequential s) (hnone : ∀ pc ∈ s.requests, ¬ pc.InFlight)
    (hdone : ∀ t ∈ s.tasks, t.pc = .done) :
    Sequential { s with requests := s.requests ++ [.stopping] } := by
  have hnew : ∀ (r : Nat) (pc : RequestPc), (s.requests ++ [.stopping])[r]? = some pc →
      pc.InFlight →
      r = s.requests.length := by
    intro r pc hpc hflight
    obtain ⟨_, hr⟩ | hold := getElem?_concat_cases hpc
    · exact hr
    · exact absurd hflight (hnone pc (List.mem_of_getElem? hold))
  constructor
  case once => exact h.once
  case bounded => exact h.bounded
  case live => exact h.live
  case inFlight =>
    intro r pc hpc hflight
    refine ⟨fun r' pc' hpc' hflight' => ?_, hdone⟩
    rw [hnew r pc hpc hflight, hnew r' pc' hpc' hflight']
  case own =>
    intro r o hpc
    obtain ⟨heq, _⟩ | hold := getElem?_concat_cases hpc
    · nomatch heq
    · exact h.own r o hold
  case started =>
    intro r o totalSize hpc
    obtain ⟨heq, _⟩ | hold := getElem?_concat_cases hpc
    · nomatch heq
    · exact h.started r o totalSize hold

/-- A request makes its session, which no task has yet. -/
theorem Sequential.prepare (h : Sequential s) (hr : s.requests[r]? = some .stopping)
    (prepared : Bool) : Sequential (s.prepare r prepared) := by
  cases prepared with
  | false =>
      have hset : Sequential (s.setRequest r (.answered none .raised)) :=
        h.refuse_set r ⟨none, .raised, rfl, fun _ h => nomatch h⟩
      exact ⟨hset.once, hset.bounded, hset.live, hset.inFlight, hset.own, hset.started⟩
  | true =>
      obtain ⟨honly, hdone⟩ := h.inFlight r .stopping hr trivial
      -- tasks are for older sessions
      have hfresh : s.sessions.length ∉ s.tasks.map DownloadTask.session := by
        intro hmem
        obtain ⟨t, ht, heq⟩ := List.mem_map.mp hmem
        have := h.bounded t ht
        omega
      constructor
      case once => exact h.once
      case bounded =>
        intro t ht
        have := h.bounded t ht
        show t.session < (s.sessions ++ [_]).length
        rw [List.length_append]
        omega
      case live => exact fun t ht hnot => absurd (hdone t ht) hnot
      case inFlight =>
        intro r' pc hpc hflight
        have hat : ∀ (r' : Nat) (pc : RequestPc),
            (s.requests.set r (.initializing s.sessions.length))[r']? = some pc → pc.InFlight →
            r' = r := by
          intro r' pc hpc hflight
          obtain ⟨_, heq⟩ | ⟨_, hold⟩ := getElem?_set_cases hpc
          · exact heq
          · exact honly r' pc hold hflight
        refine ⟨fun r'' pc' hpc' hflight' => ?_, hdone⟩
        rw [hat r' pc hpc hflight, hat r'' pc' hpc' hflight']
      case own =>
        intro r' o hpc
        obtain ⟨heq, _⟩ | ⟨hne, hold⟩ := getElem?_set_cases hpc
        · obtain rfl := RequestPc.initializing.inj heq
          exact ⟨rfl, hfresh, _, List.getElem?_concat_length, rfl⟩
        · exact absurd (honly r' _ hold trivial) hne
      case started =>
        intro r' o totalSize hpc
        obtain ⟨heq, _⟩ | ⟨_, hold⟩ := getElem?_set_cases hpc
        · nomatch heq
        · exact h.started r' o totalSize hold

/-- A request creates the task of its session, and is answered. -/
theorem Sequential.launch (h : Sequential s) (hr : s.requests[r]? = some (.initializing own)) :
    Sequential (s.launch r own) := by
  obtain ⟨hactive, hfresh, x, hx, hcompleted⟩ := h.own r own hr
  obtain ⟨honly, hdone⟩ := h.inFlight r _ hr trivial
  unfold Server.launch
  rw [hactive]
  constructor
  case once =>
    show ((s.tasks ++ [_]).map DownloadTask.session).Nodup
    rw [List.map_append]
    exact h.once.append (List.nodup_singleton own)
      (List.disjoint_singleton.mpr hfresh)
  case bounded =>
    intro t ht
    obtain hold | hnew := List.mem_append.mp ht
    · exact h.bounded t hold
    · rw [List.mem_singleton.mp hnew]
      exact (List.getElem?_eq_some_iff.mp hx).1
  case live =>
    intro t ht hnot
    obtain hold | hnew := List.mem_append.mp ht
    · exact absurd (hdone t hold) hnot
    · obtain rfl := List.mem_singleton.mp hnew
      exact ⟨hactive, x, hx, hcompleted, fun h => nomatch h⟩
  case inFlight =>
    intro r' pc hpc hflight
    obtain ⟨rfl, _⟩ | ⟨hne, hold⟩ := getElem?_set_cases hpc
    · exact absurd hflight id
    · exact absurd (honly r' pc hold hflight) hne
  case own =>
    intro r' o hpc
    obtain ⟨heq, _⟩ | ⟨hne, hold⟩ := getElem?_set_cases hpc
    · nomatch heq
    · exact absurd (honly r' _ hold trivial) hne
  case started =>
    intro r' o totalSize hpc
    show o ∈ (s.tasks ++ [_]).map DownloadTask.session
    rw [List.map_append]
    obtain ⟨heq, _⟩ | ⟨_, hold⟩ := getElem?_set_cases hpc
    · obtain rfl := Option.some.inj (RequestPc.answered.inj heq).1
      exact List.mem_append_right _ (List.mem_singleton.mpr rfl)
    · exact List.mem_append_left _ (h.started r' o totalSize hold)

/-- The size of a session is not looked at. -/
theorem Sequential.setSize (h : Sequential s) (o : Nat) (totalSize : Int) :
    Sequential { s with
      sessions := s.sessions.modify o fun x => { x with totalSize := totalSize } } := by
  have hkept : ∀ {k : Nat} {x : Session}, s.sessions[k]? = some x →
      ∃ x', (s.sessions.modify o fun x => { x with totalSize := totalSize })[k]? = some x' ∧
        x'.isCompleted = x.isCompleted ∧ x'.isStarted = x.isStarted := by
    intro k x hx
    rw [List.getElem?_modify, hx]
    by_cases hk : o = k
    · exact ⟨{ x with totalSize := totalSize }, by simp [hk], rfl, rfl⟩
    · exact ⟨x, by simp [hk], rfl, rfl⟩
  constructor
  case once => exact h.once
  case bounded =>
    intro t ht
    show t.session < (s.sessions.modify _ _).length
    rw [List.length_modify]
    exact h.bounded t ht
  case live =>
    intro t ht hnot
    obtain ⟨hactive, x, hx, hcompleted, hstarted⟩ := h.live t ht hnot
    obtain ⟨x', hx', hcompleted', hstarted'⟩ := hkept hx
    exact ⟨hactive, x', hx', hcompleted'.trans hcompleted,
      fun hrun => hstarted'.trans (hstarted hrun)⟩
  case inFlight => exact h.inFlight
  case own =>
    intro r o hpc
    obtain ⟨hactive, hfresh, x, hx, hcompleted⟩ := h.own r o hpc
    obtain ⟨x', hx', hcompleted', _⟩ := hkept hx
    exact ⟨hactive, hfresh, x', hx', hcompleted'.trans hcompleted⟩
  case started => exact h.started

theorem Sequential.afterInitialize (h : Sequential s)
    (hr : s.requests[r]? = some (.initializing own)) (totalSize : Int) (ok : Bool) :
    Sequential (s.afterInitialize r own totalSize ok) := by
  have hsize := h.setSize own totalSize
  cases ok with
  | true => exact hsize.launch hr
  | false => exact hsize.refuse_set r ⟨some own, _, rfl, fun _ h => nomatch h⟩

/-- While a task is under way no request is. -/
theorem Sequential.none_inFlight (h : Sequential s) {task : DownloadTask} (ht : task ∈ s.tasks)
    (hlive : task.pc ≠ .done) (hr : s.requests[r]? = some pc) : ¬ pc.InFlight :=
  fun hflight => hlive ((h.inFlight r pc hr hflight).2 task ht)

/-- A task keeps its session when it goes on. -/
theorem sessions_set {task : DownloadTask} (ht : s.tasks[t]? = some task) (pc : TaskPc) :
    (s.tasks.set t ⟨task.session, pc⟩).map DownloadTask.session =
      s.tasks.map DownloadTask.session := by
  obtain ⟨hlt, rfl⟩ := List.getElem?_eq_some_iff.mp ht
  rw [List.map_set]
  have hlt' : t < (s.tasks.map DownloadTask.session).length := by rwa [List.length_map]
  rw [← List.set_getElem_self hlt', List.getElem_map]
  simp

/-- What follows for the next state once its live tasks are known to be in order. -/
theorem Sequential.advance (h : Sequential s) {task : DownloadTask}
    (ht : s.tasks[t]? = some task) (hlive : task.pc ≠ .done) (pc : TaskPc) (f : Session → Session)
    (hnext : ∀ u ∈ s.tasks.set t ⟨task.session, pc⟩, u.pc ≠ .done →
      s.activeSession = some u.session ∧
        ∃ x, (s.sessions.modify task.session f)[u.session]? = some x ∧ x.isCompleted = false ∧
          (u.pc = .running → x.isStarted = true)) :
    Sequential { s with
      tasks := s.tasks.set t ⟨task.session, pc⟩
      sessions := s.sessions.modify task.session f } := by
  have hin : task ∈ s.tasks := List.mem_of_getElem? ht
  have hsessions := sessions_set ht pc
  constructor
  case once =>
    dsimp only
    rw [hsessions]
    exact h.once
  case bounded =>
    intro u hu
    show u.session < (s.sessions.modify _ _).length
    rw [List.length_modify]
    obtain hold | rfl := List.mem_or_eq_of_mem_set hu
    · exact h.bounded u hold
    · exact h.bounded task hin
  case live => exact hnext
  case inFlight => exact fun r pc hpc hflight => absurd hflight (h.none_inFlight hin hlive hpc)
  case own => exact fun r o hpc => absurd trivial (h.none_inFlight hin hlive hpc)
  case started =>
    intro r o totalSize hpc
    dsimp only
    rw [hsessions]
    exact h.started r o totalSize hpc

/-- A task begins: the guard knows from now on. -/
theorem Sequential.begin (h : Sequential s) (ht : s.tasks[t]? = some ⟨o, .created⟩) :
    Sequential { s with
      tasks := s.tasks.set t ⟨o, .running⟩
      sessions := s.sessions.modify o fun x => { x with isStarted := true } } := by
  have hin := List.mem_of_getElem? ht
  obtain ⟨hactive, x, hx, hcompleted, _⟩ := h.live _ hin fun h => nomatch h
  refine h.advance ht (fun h => nomatch h) .running _ fun u hu hnot => ?_
  -- whatever is under way is for the active session, and this one is it
  have hsession : u.session = o := by
    obtain hold | rfl := List.mem_or_eq_of_mem_set hu
    · exact Option.some.inj ((h.live u hold hnot).1.symm.trans hactive)
    · rfl
  rw [hsession]
  refine ⟨hactive, { x with isStarted := true }, ?_, hcompleted, fun _ => rfl⟩
  dsimp only at hx
  rw [List.getElem?_modify_eq, hx]
  rfl

/-- A task ends, and no other was under way. -/
theorem Sequential.finish (h : Sequential s) (ht : s.tasks[t]? = some ⟨o, .running⟩) :
    Sequential { s with
      tasks := s.tasks.set t ⟨o, .done⟩
      sessions := s.sessions.modify o fun x => { x with isCompleted := true } } := by
  have hin := List.mem_of_getElem? ht
  obtain ⟨hactive, _⟩ := h.live _ hin fun h => nomatch h
  refine h.advance ht (fun h => nomatch h) .done _ fun u hu hnot => ?_
  obtain ⟨i, hi⟩ := List.mem_iff_getElem?.mp hu
  obtain ⟨rfl, _⟩ | ⟨hne, hold⟩ := getElem?_set_cases hi
  · exact absurd rfl hnot
  -- another live task would be for the same session, which has one task only
  have hsession : u.session = o :=
    Option.some.inj ((h.live u (List.mem_of_getElem? hold) hnot).1.symm.trans hactive)
  have hi : (s.tasks.map DownloadTask.session)[i]? = some o := by
    rw [List.getElem?_map, hold, ← hsession]
    rfl
  have htask : (s.tasks.map DownloadTask.session)[t]? = some o := by
    rw [List.getElem?_map, ht]
    rfl
  obtain ⟨hlt, _⟩ := List.getElem?_eq_some_iff.mp hi
  exact absurd ((List.getElem?_inj hlt h.once).mp (hi.trans htask.symm)) hne

/-- **Step lemma.** A calm step keeps the invariant. -/
theorem Sequential.step {e : Event} (h : Sequential s) (hcalm : s.Calm e)
    (hstep : s.step e = some s') : Sequential s' := by
  cases step_cases hstep with
  | request interfaces prepared =>
      unfold Server.request
      by_cases hrefuses : s.Refuses
      · rw [if_pos hrefuses]
        exact h.refuse_new ⟨none, _, rfl, fun _ h => nomatch h⟩
      rw [if_neg hrefuses]
      by_cases hinterfaces : interfaces = false
      · rw [if_pos hinterfaces]
        exact h.refuse_new ⟨none, _, rfl, fun _ h => nomatch h⟩
      rw [if_neg hinterfaces]
      -- the guard lets the request past, so the condition says that it is alone
      obtain ⟨hnone, hbegun⟩ := (hcalm.resolve_left hrefuses).resolve_left hinterfaces
      have henter := h.enter hnone (h.all_done hrefuses hbegun)
      dsimp only
      split_ifs
      · exact henter
      · exact henter.prepare List.getElem?_concat_length prepared
  | stopped hr prepared => exact h.prepare hr prepared
  | initialized hr totalSize ok => exact h.afterInitialize hr totalSize ok
  | begins ht => exact h.begin ht
  | ends ht => exact h.finish ht

/-! ## Runs -/

theorem Sequential.singleDownload (h : Sequential s) : SingleDownload s := by
  have hcount := List.nodup_iff_count_le_one.mp h.once
  constructor
  case alone =>
    have hnodup : ((s.tasks.filter fun t => t.pc = .running).map DownloadTask.session).Nodup :=
      h.once.sublist (List.filter_sublist.map _)
    have hsame : ∀ t ∈ s.tasks.filter fun t => t.pc = .running,
        s.activeSession = some t.session := by
      intro t ht
      obtain ⟨htask, hrunning⟩ := List.mem_filter.mp ht
      refine (h.live t htask fun hdone => ?_).1
      nomatch (of_decide_eq_true hrunning).symm.trans hdone
    -- two of them would be for one session
    cases hl : s.tasks.filter fun t => t.pc = .running with
    | nil => exact Nat.zero_le 1
    | cons t rest =>
        cases rest with
        | nil => exact le_rfl
        | cons u rest =>
            rw [hl] at hnodup hsame
            have hactive := hsame t List.mem_cons_self
            rw [hsame u (List.mem_cons_of_mem _ List.mem_cons_self)] at hactive
            have hnot := (List.nodup_cons.mp hnodup).1
            rw [List.map_cons, Option.some.inj hactive] at hnot
            exact absurd List.mem_cons_self hnot
  case once => exact hcount
  case started =>
    intro o totalSize hmem
    obtain ⟨r, hr⟩ := List.mem_iff_getElem?.mp hmem
    have hpos := List.count_pos_iff.mpr (h.started r o totalSize hr)
    have := hcount o
    omega

/-- **Run theorem.** There is one download at a time in a run in which no request is let past the
guard while another is under way or a task is still to begin. -/
theorem run_singleDownload (es : List Event) (hrun : runFrom Server.step startup es = some s)
    (hcalm : Along Server.step Calm startup es) : SingleDownload s :=
  (runFrom_invariant_along (I := Sequential) (fun _ _ _ h hG hstep => h.step hG hstep)
    startup_sequential hcalm hrun).singleDownload

/-- Two downloads one after the other, with a request that is refused in between. -/
def oneAfterTheOther : List Event :=
  [.request true true, .stopped 0 true, .initialized 0 100 true, .begins 0, .request true true,
    .ends 0, .request true true, .stopped 2 true, .initialized 2 50 true, .begins 1]

theorem run_singleDownload_oneAfterTheOther :
    ∃ s, runFrom Server.step startup oneAfterTheOther = some s ∧ SingleDownload s :=
  ⟨_, rfl, run_singleDownload oneAfterTheOther rfl (by decide +kernel)⟩

/-- A second request while the first is in `initialize`: the session is then the second one's, and
both requests start it. -/
def sessionReplaced : List Event :=
  [.request true true, .stopped 0 true, .request true true, .stopped 1 true,
    .initialized 0 100 true, .initialized 1 50 true, .begins 0, .begins 1]

theorem replaced_session_starts_twice :
    ∃ s, runFrom Server.step startup sessionReplaced = some s ∧ ¬ SingleDownload s ∧
      (s.tasks.filter fun t => t.pc = .running).length = 2 ∧
      (s.tasks.map DownloadTask.session).count 0 = 0 ∧
      (s.tasks.map DownloadTask.session).count 1 = 2 :=
  ⟨_, rfl, fun h => absurd h.alone (by decide +kernel), by decide +kernel, by decide +kernel,
    by decide +kernel⟩

/-! ## Requests that should not have been let past -/

/-- There is a monitor to stop, and a session while one is initialized. -/
structure Started (s : Server) : Prop where
  monitor : s.activeMonitor = true
  active : ∀ (r o : Nat), s.requests[r]? = some (.initializing o) → s.activeSession ≠ none

theorem startup_started : Started startup where
  monitor := rfl
  active _ _ h := nomatch h

theorem Started.step {e : Event} (h : Started s) (hstep : s.step e = some s') : Started s' := by
  cases step_cases hstep with
  | request interfaces prepared =>
      have happend : ∀ pc : RequestPc, (∀ o, pc ≠ .initializing o) →
          Started { s with requests := s.requests ++ [pc] } := by
        refine fun pc hpc => ⟨h.monitor, fun r o hr => ?_⟩
        obtain ⟨heq, _⟩ | hold := getElem?_concat_cases hr
        · exact absurd heq.symm (hpc o)
        · exact h.active r o hold
      unfold Server.request
      split_ifs with hrefuses hnone hmonitor
      · exact happend _ fun o h => nomatch h
      · exact happend _ fun o h => nomatch h
      · exact happend _ fun o h => nomatch h
      · exact absurd h.monitor hmonitor
  | stopped hr prepared =>
      cases prepared with
      | true => exact ⟨rfl, fun _ _ _ h => nomatch h⟩
      | false =>
          refine ⟨rfl, fun r' o hr' => ?_⟩
          obtain ⟨heq, _⟩ | ⟨_, hold⟩ := getElem?_set_cases hr'
          · nomatch heq
          · exact h.active r' o hold
  | @initialized r own hr totalSize ok =>
      have hset : ∀ (o : Option Nat) (a : Answer) (r' k : Nat),
          (s.requests.set r (.answered o a))[r']? = some (.initializing k) →
            s.activeSession ≠ none := by
        intro o a r' k hr'
        obtain ⟨heq, _⟩ | ⟨_, hold⟩ := getElem?_set_cases hr'
        · nomatch heq
        · exact h.active r' k hold
      cases ok with
      | false => exact ⟨h.monitor, hset _ _⟩
      | true =>
          obtain ⟨o, ho⟩ := Option.ne_none_iff_exists'.mp (h.active r own hr)
          simp only [Server.afterInitialize, Server.launch, ho, if_true]
          exact ⟨h.monitor, fun _ _ _ hnone => nomatch hnone⟩
  | begins => exact ⟨h.monitor, h.active⟩
  | ends => exact ⟨h.monitor, h.active⟩

theorem step_begins (ht : s.tasks[t]? = some ⟨o, .created⟩) :
    s.step (.begins t) = some { s with
      tasks := s.tasks.set t ⟨o, .running⟩
      sessions := s.sessions.modify o fun x => { x with isStarted := true } } := by
  simp only [Server.step, ht]

/-- The next things that happen are that a request gets its task running. -/
def Completes (s : Server) (r : Nat) (s' : Server) : Prop :=
  ∃ es o, runFrom Server.step s es = some s' ∧ s'.tasks = s.tasks ++ [⟨o, .running⟩] ∧
    ∀ r' ≠ r, s'.requests[r']? = s.requests[r']?

theorem Started.completes_initializing (h : Started s)
    (hr : s.requests[r]? = some (.initializing own)) : ∃ s', Completes s r s' := by
  obtain ⟨o, ho⟩ := Option.ne_none_iff_exists'.mp (h.active r own hr)
  have hfirst : s.step (.initialized r 0 true) = some (s.afterInitialize r own 0 true) := by
    simp only [Server.step, hr]
  have htasks : (s.afterInitialize r own 0 true).tasks = s.tasks ++ [⟨o, .created⟩] := by
    simp only [afterInitialize, launch, ho, if_true]
  have hrequests : ∀ r' ≠ r, (s.afterInitialize r own 0 true).requests[r']? = s.requests[r']? := by
    intro r' hne
    simp only [afterInitialize, launch, ho, if_true, setRequest]
    exact List.getElem?_set_ne hne.symm
  have hcreated : (s.afterInitialize r own 0 true).tasks[s.tasks.length]? =
      some ⟨o, .created⟩ := by
    rw [htasks]
    exact List.getElem?_concat_length
  have hsecond := step_begins hcreated
  refine ⟨_, [.initialized r 0 true, .begins s.tasks.length], o,
    runFrom_cons_eq_some.mpr ⟨_, hfirst, runFrom_cons_eq_some.mpr ⟨_, hsecond, rfl⟩⟩, ?_, hrequests⟩
  dsimp only
  rw [htasks, List.set_append_right _ _ le_rfl, Nat.sub_self]
  rfl

/-- Any request that is under way may get its task running, before anything else happens. -/
theorem Started.completes (h : Started s) (hr : s.requests[r]? = some pc)
    (hflight : pc.InFlight) : ∃ s', Completes s r s' := by
  cases pc with
  | answered o a => exact absurd hflight id
  | initializing own => exact h.completes_initializing hr
  | stopping =>
      have hstep : s.step (.stopped r true) = some (s.prepare r true) := by
        simp only [Server.step, hr]
      have hlt := (List.getElem?_eq_some_iff.mp hr).1
      have hat : (s.prepare r true).requests[r]? = some (.initializing s.sessions.length) :=
        List.getElem?_set_self hlt
      obtain ⟨s', es, o, hrun, htasks, hrequests⟩ := (h.step hstep).completes_initializing hat
      refine ⟨s', .stopped r true :: es, o, runFrom_cons_eq_some.mpr ⟨_, hstep, hrun⟩, htasks, ?_⟩
      intro r' hne
      rw [hrequests r' hne]
      exact List.getElem?_set_ne hne.symm

/-- A second task that runs. -/
theorem not_singleDownload {tasks : List DownloadTask} {task : DownloadTask} (hin : task ∈ tasks)
    (hrunning : task.pc = .running) (htasks : s.tasks = tasks ++ [⟨o, .running⟩]) :
    ¬ SingleDownload s := by
  intro h
  have halone := h.alone
  rw [htasks, List.filter_append, List.length_append] at halone
  have hpos : 0 < (tasks.filter fun t => t.pc = .running).length :=
    List.length_pos_of_mem (List.mem_filter.mpr ⟨hin, decide_eq_true hrunning⟩)
  have hone : ([(⟨o, .running⟩ : DownloadTask)].filter fun t => t.pc = .running).length = 1 := rfl
  omega

/-- A request that is let past the guard waits for the monitor. -/
theorem Started.step_request (h : Started s) (hrefuses : ¬ s.Refuses) (prepared : Bool) :
    s.step (.request true prepared) = some { s with requests := s.requests ++ [.stopping] } := by
  show some (s.request true prepared) = _
  unfold Server.request
  rw [if_neg hrefuses, if_neg Bool.noConfusion]
  exact congrArg some (if_pos h.monitor)

/-- Two requests under way may get their tasks running, one after the other. -/
theorem Started.two_downloads (h : Started s) {r₁ r₂ : Nat} {pc₁ pc₂ : RequestPc}
    (hr₁ : s.requests[r₁]? = some pc₁) (hflight₁ : pc₁.InFlight)
    (hr₂ : s.requests[r₂]? = some pc₂) (hflight₂ : pc₂.InFlight) (hne : r₂ ≠ r₁) :
    ∃ es s', runFrom Server.step s es = some s' ∧ ¬ SingleDownload s' := by
  obtain ⟨s₁, es₁, o₁, hrun₁, htasks₁, hrequests₁⟩ := h.completes hr₁ hflight₁
  have hstarted₁ : Started s₁ :=
    runFrom_invariant (I := Started) (fun _ _ _ h hstep => h.step hstep) h hrun₁
  -- the first has not touched the second
  obtain ⟨s₂, es₂, o₂, hrun₂, htasks₂, _⟩ :=
    hstarted₁.completes ((hrequests₁ r₂ hne).trans hr₂) hflight₂
  have hfirst : (⟨o₁, .running⟩ : DownloadTask) ∈ s₁.tasks := by
    rw [htasks₁]
    exact List.mem_append_right _ (List.mem_singleton.mpr rfl)
  exact ⟨es₁ ++ es₂, s₂, runFrom_append_eq_some.mpr ⟨s₁, hrun₁, hrun₂⟩,
    not_singleDownload hfirst rfl htasks₂⟩

/-- A task that is still to begin runs before a request under way gets its own running. -/
theorem Started.two_downloads_of_created (h : Started s) (ht : s.tasks[t]? = some ⟨o, .created⟩)
    (hr : s.requests[r]? = some pc) (hflight : pc.InFlight) :
    ∃ es s', runFrom Server.step s es = some s' ∧ ¬ SingleDownload s' := by
  have hbegins := step_begins ht
  obtain ⟨s', es, o', hrun, htasks, _⟩ := (h.step hbegins).completes hr hflight
  have hfirst : (⟨o, .running⟩ : DownloadTask) ∈ s.tasks.set t ⟨o, .running⟩ :=
    List.mem_set (List.getElem?_eq_some_iff.mp ht).1 _
  exact ⟨.begins t :: es, s', runFrom_cons_eq_some.mpr ⟨_, hbegins, hrun⟩,
    not_singleDownload hfirst rfl htasks⟩

/-- **The condition is exact**: after any request that is let past the guard without it, two
downloads may come to run at once. -/
theorem two_downloads_of_let_past (es : List Event)
    (hrun : runFrom Server.step startup es = some s) {prepared : Bool}
    (hpast : ¬ s.Calm (.request true prepared)) :
    ∃ es' s', runFrom Server.step s (.request true prepared :: es') = some s' ∧
      ¬ SingleDownload s' := by
  have hstarted : Started s :=
    runFrom_invariant (I := Started) (fun _ _ _ h hstep => h.step hstep) startup_started hrun
  obtain ⟨hrefuses, hrest⟩ := not_or.mp hpast
  have hunder := (not_or.mp hrest).2
  have hstep := hstarted.step_request hrefuses prepared
  have hstarted' := hstarted.step hstep
  have hnew : (s.requests ++ [RequestPc.stopping])[s.requests.length]? = some .stopping :=
    List.getElem?_concat_length
  have hafter : ∃ es' s', runFrom Server.step
      { s with requests := s.requests ++ [.stopping] } es' = some s' ∧ ¬ SingleDownload s' := by
    by_cases hflight : ∃ pc ∈ s.requests, pc.InFlight
    · obtain ⟨pc, hpc, hflight⟩ := hflight
      obtain ⟨r, hr⟩ := List.mem_iff_getElem?.mp hpc
      have hlt := (List.getElem?_eq_some_iff.mp hr).1
      have hr' : (s.requests ++ [RequestPc.stopping])[r]? = some pc :=
        (List.getElem?_append_left hlt).trans hr
      exact hstarted'.two_downloads hr' hflight hnew trivial hlt.ne'
    · have hcreated : ∃ task ∈ s.tasks, task.pc = .created := by
        by_contra hnone
        exact hunder ⟨fun pc hpc h => hflight ⟨pc, hpc, h⟩, fun t ht h => hnone ⟨t, ht, h⟩⟩
      obtain ⟨⟨o, _⟩, htask, rfl⟩ := hcreated
      obtain ⟨t, ht⟩ := List.mem_iff_getElem?.mp htask
      exact hstarted'.two_downloads_of_created ht hnew trivial
  obtain ⟨es', s', hrun', htwo⟩ := hafter
  exact ⟨es', s', runFrom_cons_eq_some.mpr ⟨_, hstep, hrun'⟩, htwo⟩

end Server

end AetherBond.Gui
