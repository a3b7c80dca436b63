import AetherBond.Gui.Dashboard

set_option autoImplicit false

/-! # What the dashboard shows

`get_system_status` computes how long a download has been under way with `time`, which the module
does not import. So it raises as soon as the active session has started, `/api/status` fails and the
loop of every client of the websocket ends, until another request makes a session. No status ever
shows a download that has started, a byte of one, or a chunk that is not pending (`run_status`).
-/

namespace AetherBond.Gui

open AetherBond.Lib AetherBond.Common AetherBond.Client

namespace Dashboard

variable {fl : Rounding} {lower : String → String} {s s' : Dashboard} {e : Event} {o k : Nat}

/-- The status that a step sends. -/
def sent? (fl : Rounding) (s : Dashboard) : Event → Option Status
  | .status | .poll _ => s.getSystemStatus fl
  | .request .. | .stopped .. | .initialized .. | .begins _ | .ends _ | .works .. | .simulate ..
  | .probe .. | .toggle .. | .shutdown | .connect | .disconnect _ => none

/-- The client of the websocket whose turn it is. -/
def polled? (_ : Dashboard) : Event → Option Nat
  | .poll k => some k
  | .request .. | .stopped .. | .initialized .. | .begins _ | .ends _ | .works .. | .simulate ..
  | .probe .. | .toggle .. | .shutdown | .status | .connect | .disconnect _ => none

/-- Nothing has happened to the session. -/
structure Untouched (i : SessionInfo) : Prop where
  bytes : i.totalDownloadedBytes = 0
  chunks : ∀ c ∈ i.chunks, c.status = .pending ∧ c.interfaceIp = ""

theorem new_untouched (req : DownloadRequest) (scheduler : Nat) :
    Untouched (.new req scheduler) := ⟨rfl, fun _ h => by cases h⟩

theorem freshChunks_pending (n : Nat) :
    ∀ c ∈ freshChunks n, c.status = .pending ∧ c.interfaceIp = "" := by
  intro c hc
  obtain ⟨i, -, rfl⟩ := List.mem_map.mp hc
  exact ⟨rfl, rfl⟩

/-- The download of the session has started. -/
def Begun (s : Dashboard) (o : Nat) : Prop := ∃ x ∈ s.server.sessions[o]?, x.isStarted = true

/-! ## The invariant -/

/-- A session that has not started is untouched and not completed, and a task that has begun has
started its session. -/
structure Quiet (s : Dashboard) : Prop where
  untouched : ∀ (o : Nat) (x : Session) (i : SessionInfo), s.server.sessions[o]? = some x →
    s.sessions[o]? = some i → x.isStarted = false → x.isCompleted = false ∧ Untouched i
  begun : ∀ t ∈ s.server.tasks, t.pc ≠ .created → s.Begun t.session
  bounded : ∀ t ∈ s.server.tasks, t.session < s.server.sessions.length
  active : ∀ o ∈ s.server.activeSession, o < s.server.sessions.length

theorem startup_quiet (now : ℚ) : Quiet (startup fl lower now) where
  untouched _ _ _ h := by cases h
  begun _ h := by cases h
  bounded _ h := by cases h
  active _ h := by cases h

/-- A step that changes neither the server nor a session. -/
theorem Quiet.keep (h : Quiet s) (hserver : s'.server = s.server)
    (hsessions : s'.sessions = s.sessions) : Quiet s' where
  untouched o x i hx hi := h.untouched o x i (hserver ▸ hx) (hsessions ▸ hi)
  begun t ht hpc := by
    obtain ⟨x, hx, hstarted⟩ := h.begun t (hserver ▸ ht) hpc
    exact ⟨x, hserver ▸ hx, hstarted⟩
  bounded t ht := by
    rw [hserver] at ht ⊢
    exact h.bounded t ht
  active o ho := by
    rw [hserver] at ho ⊢
    exact h.active o ho

/-- A step that changes the requests of the server only. -/
theorem Quiet.requests (h : Quiet s) {requests : List RequestPc}
    (hserver : s'.server = { s.server with requests := requests })
    (hsessions : s'.sessions = s.sessions) : Quiet s' where
  untouched o x i hx hi := by
    rw [hserver] at hx
    exact h.untouched o x i hx (hsessions ▸ hi)
  begun t ht hpc := by
    rw [hserver] at ht
    obtain ⟨x, hx, hstarted⟩ := h.begun t ht hpc
    refine ⟨x, ?_, hstarted⟩
    rw [hserver]
    exact hx
  bounded t ht := by
    rw [hserver] at ht ⊢
    exact h.bounded t ht
  active o ho := by
    rw [hserver] at ho ⊢
    exact h.active o ho

/-- A session that has started stays so when it goes on. -/
theorem begun_modify {server : Server} {f : Session → Session}
    (hsessions : server.sessions = s.server.sessions.modify k f)
    (hf : ∀ x, x.isStarted = true → (f x).isStarted = true) (h : s.Begun o)
    (hserver : s'.server = server) : s'.Begun o := by
  obtain ⟨x, hx, hstarted⟩ := h
  refine ⟨if k = o then f x else x, ?_, ?_⟩
  · rw [hserver, hsessions, List.getElem?_modify, show s.server.sessions[o]? = some x from hx]
    simp
  · split_ifs
    · exact hf x hstarted
    · exact hstarted

/-- A request makes its session. -/
theorem Quiet.prepare {r : Nat} {prepared : Bool} {server : Server} (h : Quiet s) (hs : Sound s)
    (hprepares : s.server.Prepares r prepared server) (x : Incoming) :
    Quiet ({ s with server := server }.prepare x prepared) := by
  have hserver : ({ s with server := server }.prepare x prepared).server = server := rfl
  cases prepared with
  | false =>
      have hsessions : server.sessions = s.server.sessions := hprepares.sessions
      have hactive : server.activeSession = s.server.activeSession := hprepares.active
      constructor
      case untouched =>
        intro o y i hy hi
        rw [hserver, hsessions] at hy
        exact h.untouched o y i hy hi
      case begun =>
        intro t ht hpc
        rw [hserver, hprepares.tasks] at ht
        obtain ⟨y, hy, hstarted⟩ := h.begun t ht hpc
        exact ⟨y, by rwa [hserver, hsessions], hstarted⟩
      case bounded =>
        intro t ht
        rw [hserver, hprepares.tasks] at ht
        rw [hserver, hsessions]
        exact h.bounded t ht
      case active =>
        intro o ho
        rw [hserver, hactive] at ho
        rw [hserver, hsessions]
        exact h.active o ho
  | true =>
      have hsessions : server.sessions = s.server.sessions ++ [⟨0, false, false⟩] :=
        hprepares.sessions
      have hactive : server.activeSession = some s.server.sessions.length := hprepares.active
      constructor
      case untouched =>
        intro o y i hy hi hnot
        rw [hserver, hsessions] at hy
        have hlength := hs.sessions
        obtain ⟨rfl, ho⟩ | hold := getElem?_concat_cases hy
        · obtain ⟨rfl, -⟩ | hold := getElem?_concat_cases hi
          · exact ⟨rfl, new_untouched _ _⟩
          · have hlt : o < s.sessions.length := (List.getElem?_eq_some_iff.mp hold).1
            omega
        · have hlt := (List.getElem?_eq_some_iff.mp hold).1
          obtain ⟨-, ho⟩ | hi := getElem?_concat_cases hi
          · have hlast : o = s.sessions.length := ho
            omega
          · exact h.untouched o y i hold hi hnot
      case begun =>
        intro t ht hpc
        rw [hserver, hprepares.tasks] at ht
        obtain ⟨y, hy, hstarted⟩ := h.begun t ht hpc
        refine ⟨y, ?_, hstarted⟩
        rw [hserver, hsessions]
        exact (List.getElem?_append_left (List.getElem?_eq_some_iff.mp hy).1).trans hy
      case bounded =>
        intro t ht
        rw [hserver, hprepares.tasks] at ht
        have hlt := h.bounded t ht
        rw [hserver, hsessions, List.length_append]
        omega
      case active =>
        intro o ho
        rw [hserver, hactive] at ho
        obtain rfl : s.server.sessions.length = o := Option.some.inj ho
        rw [hserver, hsessions]
        simp

/-- `initialize` returns. -/
theorem Quiet.launch {r own chunks : Nat} {totalSize : Int} {server : Server} (h : Quiet s)
    (hlaunches : s.server.Launches r own totalSize server) :
    Quiet { s with server := server, sessions := s.initializeSession r chunks } := by
  have hinfos : s.initializeSession r chunks =
      s.sessions.modify own fun x => { x with chunks := freshChunks chunks } := by
    unfold initializeSession
    rw [hlaunches.initializing]
  constructor
  case untouched =>
    intro o x i hx hi hnot
    have hx' : server.sessions[o]? = some x := hx
    have hi' : (s.initializeSession r chunks)[o]? = some i := hi
    rw [hlaunches.sessions] at hx'
    rw [hinfos] at hi'
    obtain ⟨y, hy, ⟨rfl, rfl⟩ | ⟨hne, rfl⟩⟩ := getElem?_modify_cases hx'
    · obtain ⟨j, hj, ⟨-, rfl⟩ | ⟨hne, -⟩⟩ := getElem?_modify_cases hi'
      · obtain ⟨hcompleted, huntouched⟩ := h.untouched own y j hy hj hnot
        exact ⟨hcompleted, huntouched.bytes, freshChunks_pending chunks⟩
      · exact absurd rfl hne
    · obtain ⟨j, hj, ⟨heq, -⟩ | ⟨-, rfl⟩⟩ := getElem?_modify_cases hi'
      · exact absurd heq hne
      · exact h.untouched o x i hy hj hnot
  case begun =>
    intro t ht hpc
    have hmem : t ∈ server.tasks := ht
    have hold : t ∈ s.server.tasks := by
      obtain hsame | ⟨o, -, hnew⟩ := hlaunches.tasks
      · rwa [hsame] at hmem
      · rw [hnew] at hmem
        obtain hold | hlast := List.mem_append.mp hmem
        · exact hold
        · rw [List.mem_singleton.mp hlast] at hpc
          exact absurd rfl hpc
    exact begun_modify hlaunches.sessions (fun _ h => h) (h.begun t hold hpc) rfl
  case bounded =>
    intro t ht
    have hmem : t ∈ server.tasks := ht
    show t.session < server.sessions.length
    rw [hlaunches.sessions, List.length_modify]
    obtain hsame | ⟨o, hactive, hnew⟩ := hlaunches.tasks
    · rw [hsame] at hmem
      exact h.bounded t hmem
    · rw [hnew] at hmem
      obtain hold | hlast := List.mem_append.mp hmem
      · exact h.bounded t hold
      · rw [List.mem_singleton.mp hlast]
        exact h.active o hactive
  case active =>
    intro o ho
    have ho' : o ∈ server.activeSession := ho
    rw [hlaunches.active] at ho'
    show o < server.sessions.length
    rw [hlaunches.sessions, List.length_modify]
    exact h.active o ho'

/-- A task begins, which starts its session, or ends. -/
theorem Quiet.advance {t o : Nat} {pc pc' : TaskPc} {server : Server} {f : Session → Session}
    (h : Quiet s) (ht : s.server.tasks[t]? = some ⟨o, pc⟩)
    (hsessions : server.sessions = s.server.sessions.modify o f)
    (htasks : server.tasks = s.server.tasks.set t ⟨o, pc'⟩)
    (hactive : server.activeSession = s.server.activeSession)
    (hstarts : ∀ x, s.server.sessions[o]? = some x → (f x).isStarted = true)
    (hkeeps : ∀ x, x.isStarted = true → (f x).isStarted = true) :
    Quiet { s with server := server } := by
  have hlength : server.sessions.length = s.server.sessions.length := by
    rw [hsessions, List.length_modify]
  have ho : o < s.server.sessions.length := h.bounded ⟨o, pc⟩ (List.mem_of_getElem? ht)
  constructor
  case untouched =>
    intro k x i hx hi hnot
    have hx' : server.sessions[k]? = some x := hx
    rw [hsessions] at hx'
    obtain ⟨y, hy, ⟨rfl, rfl⟩ | ⟨-, rfl⟩⟩ := getElem?_modify_cases hx'
    · cases (hstarts y hy).symm.trans hnot
    · exact h.untouched k x i hy hi hnot
  case begun =>
    intro u hu hpc
    have hmem : u ∈ server.tasks := hu
    rw [htasks] at hmem
    obtain hold | rfl := List.mem_or_eq_of_mem_set hmem
    · exact begun_modify hsessions hkeeps (h.begun u hold hpc) rfl
    · refine ⟨f s.server.sessions[o], ?_, hstarts _ (List.getElem?_eq_getElem ho)⟩
      show server.sessions[o]? = _
      rw [hsessions, List.getElem?_modify, List.getElem?_eq_getElem ho]
      simp
  case bounded =>
    intro u hu
    have hmem : u ∈ server.tasks := hu
    show u.session < server.sessions.length
    rw [htasks] at hmem
    rw [hlength]
    obtain hold | rfl := List.mem_or_eq_of_mem_set hmem
    · exact h.bounded u hold
    · exact ho
  case active =>
    intro k hk
    have hk' : k ∈ server.activeSession := hk
    show k < server.sessions.length
    rw [hactive] at hk'
    rw [hlength]
    exact h.active k hk'

/-- The work of a task that has begun. -/
theorem Quiet.work {t : Nat} {f : SessionInfo → SessionInfo} (h : Quiet s)
    (ht : s.server.tasks[t]? = some ⟨o, .running⟩) :
    Quiet { s with sessions := s.sessions.modify o f } := by
  refine ⟨fun k x i hx hi hnot => ?_, h.begun, h.bounded, h.active⟩
  obtain ⟨j, hj, ⟨rfl, -⟩ | ⟨-, rfl⟩⟩ := getElem?_modify_cases hi
  · obtain ⟨y, hy, hstarted⟩ := h.begun _ (List.mem_of_getElem? ht) (by simp)
    obtain rfl : y = x := Option.some.inj (hy.symm.trans hx)
    cases hstarted.symm.trans hnot
  · exact h.untouched k x i hx hj hnot

/-- **Step lemma.** -/
theorem Quiet.step (h : Quiet s) (hs : Sound s) (hstep : s.step fl lower e = some s') :
    Quiet s' := by
  cases step_moves hstep with
  | turnedAway simulator hfound =>
      obtain ⟨text, heq⟩ := comes_turnedAway simulator _ hfound
      exact h.requests heq rfl
  | letPast simulator hfound =>
      exact h.requests (comes_letPast hs.server simulator _ hfound) rfl
  | unmonitored hnone =>
      obtain ⟨m, -, hactive⟩ := hs.monitor
      cases hactive.symm.trans hnone
  | stopped hserver _ => exact h.prepare hs (Server.step_prepares hserver) _
  | initialized hserver =>
      obtain ⟨own, hlaunches⟩ := Server.step_launches hserver
      exact h.launch hlaunches
  | begins hserver =>
      cases Server.step_cases hserver with
      | begins ht => exact h.advance ht rfl rfl rfl (fun _ _ => rfl) fun _ _ => rfl
  | ends hserver =>
      cases Server.step_cases hserver with
      | ends ht =>
          obtain ⟨y, hy, hstarted⟩ := h.begun _ (List.mem_of_getElem? ht) (by simp)
          refine h.advance ht rfl rfl rfl (fun x hx => ?_) fun _ hx => hx
          obtain rfl : y = x := Option.some.inj (hy.symm.trans hx)
          exact hstarted
  | works ht => exact h.work ht
  | simulate | probe | toggle | status | connect | polled | left | disconnect =>
      exact h.keep rfl rfl
  | shutdown =>
      obtain ⟨m, -, hactive⟩ := hs.monitor
      rw [hactive]
      exact h.keep rfl rfl

/-! ## What a status says -/

/-- The session of a status is that of the server. -/
theorem active?_eq (hs : Sound s) (hactive : s.server.activeSession = some o) {x : Session}
    (hx : s.server.sessions[o]? = some x) :
    ∃ i, s.sessions[o]? = some i ∧ s.active? = some (x, i) := by
  have ho : o < s.sessions.length := hs.sessions ▸ (List.getElem?_eq_some_iff.mp hx).1
  refine ⟨_, List.getElem?_eq_getElem ho, ?_⟩
  unfold active?
  rw [hactive, Option.bind_some, hx, Option.bind_some, List.getElem?_eq_getElem ho]
  rfl

/-- No status of a download that has started. -/
theorem status_begun (hs : Sound s) (hactive : s.server.activeSession = some o)
    (hbegun : s.Begun o) : s.getSystemStatus fl = none := by
  obtain ⟨x, hx, hstarted⟩ := hbegun
  obtain ⟨i, -, hread⟩ := active?_eq hs hactive hx
  unfold getSystemStatus downloadInfo
  rw [hread]
  simp [hstarted]

/-- The download of a status has not started, and nothing has happened to it. -/
structure Idle (d : DownloadInfo) : Prop where
  notStarted : d.isStarted = false
  notCompleted : d.isCompleted = false
  bytes : d.downloaded = 0
  chunks : ∀ c ∈ d.chunks, c.status = .pending ∧ c.interfaceIp = ""

theorem Quiet.idle (h : Quiet s) {x : Status} (hx : s.getSystemStatus fl = some x) :
    ∀ d ∈ x.download, Idle d := by
  intro d hd
  unfold getSystemStatus at hx
  split at hx
  · obtain rfl := Option.some.inj hx
    cases hd
  · next y i hread =>
      obtain ⟨o, -, hrest⟩ := Option.bind_eq_some_iff.mp hread
      obtain ⟨y', hy, hi⟩ := Option.bind_eq_some_iff.mp hrest
      obtain ⟨i', hi, heq⟩ := Option.map_eq_some_iff.mp hi
      cases heq
      obtain ⟨info, hinfo, rfl⟩ := Option.map_eq_some_iff.mp hx
      obtain rfl : info = d := Option.some.inj hd
      unfold downloadInfo at hinfo
      by_cases hstarted : y.isStarted = true
      · rw [if_pos hstarted] at hinfo
        cases hinfo
      · have hnot := eq_false_of_ne_true hstarted
        rw [if_neg hstarted] at hinfo
        obtain rfl := Option.some.inj hinfo
        obtain ⟨hcompleted, huntouched⟩ := h.untouched o y i hy hi hnot
        exact ⟨hnot, hcompleted, huntouched.bytes, huntouched.chunks⟩

/-! ## A download that has started -/

theorem Begun.step (h : s.Begun o) (hs : Sound s) (hstep : s.step fl lower e = some s') :
    s'.Begun o := by
  obtain ⟨m, -, hactive⟩ := hs.monitor
  obtain ⟨x, hx, hstarted⟩ := h
  cases step_moves hstep with
  | turnedAway simulator hfound =>
      obtain ⟨text, heq⟩ := comes_turnedAway simulator _ hfound
      refine ⟨x, ?_, hstarted⟩
      rw [heq]
      exact hx
  | letPast simulator hfound =>
      refine ⟨x, ?_, hstarted⟩
      rw [stopMonitor_server, comes_letPast hs.server simulator _ hfound]
      exact hx
  | unmonitored hnone => cases hactive.symm.trans hnone
  | @stopped r prepared server y hserver _ =>
      refine ⟨x, ?_, hstarted⟩
      show server.sessions[o]? = some x
      rw [(Server.step_prepares hserver).sessions]
      split_ifs
      · exact (List.getElem?_append_left (List.getElem?_eq_some_iff.mp hx).1).trans hx
      · exact hx
  | initialized hserver =>
      obtain ⟨own, hlaunches⟩ := Server.step_launches hserver
      exact begun_modify hlaunches.sessions (fun _ h => h) ⟨x, hx, hstarted⟩ rfl
  | begins hserver =>
      cases Server.step_cases hserver
      exact begun_modify rfl (fun _ _ => rfl) ⟨x, hx, hstarted⟩ rfl
  | ends hserver =>
      cases Server.step_cases hserver
      exact begun_modify (f := fun x => { x with isCompleted := true }) rfl (fun _ h => h)
        ⟨x, hx, hstarted⟩ rfl
  | works | simulate | probe | toggle | status | connect | polled | left | disconnect =>
      exact ⟨x, hx, hstarted⟩
  | shutdown =>
      rw [hactive]
      exact ⟨x, hx, hstarted⟩

/-- The active session stays, or is a new one. -/
theorem activeSession_step (hs : Sound s) (hstep : s.step fl lower e = some s') :
    s'.server.activeSession = s.server.activeSession ∨
      s'.server.activeSession = some s.server.sessions.length := by
  obtain ⟨m, -, hactive⟩ := hs.monitor
  cases step_moves hstep with
  | turnedAway simulator hfound =>
      obtain ⟨text, heq⟩ := comes_turnedAway simulator _ hfound
      rw [heq]
      exact .inl rfl
  | letPast simulator hfound =>
      rw [stopMonitor_server, comes_letPast hs.server simulator _ hfound]
      exact .inl rfl
  | unmonitored hnone => cases hactive.symm.trans hnone
  | @stopped r prepared server y hserver _ =>
      have hprepares := (Server.step_prepares hserver).active
      cases prepared with
      | false => exact .inl hprepares
      | true => exact .inr hprepares
  | initialized hserver =>
      obtain ⟨own, hlaunches⟩ := Server.step_launches hserver
      exact .inl hlaunches.active
  | begins hserver | ends hserver =>
      cases Server.step_cases hserver
      exact .inl rfl
  | works | simulate | probe | toggle | status | connect | polled | left | disconnect =>
      exact .inl rfl
  | shutdown =>
      rw [hactive]
      exact .inl rfl

theorem close_closed {j : Nat} (h : s.sockets[k]? = some false) :
    (s.close j).sockets[k]? = some false := by
  show (s.sockets.set j false)[k]? = some false
  rw [List.getElem?_set]
  split_ifs with hj hlt
  · rfl
  · rw [hj] at hlt
    exact absurd (List.getElem?_eq_some_iff.mp h).1 hlt
  · exact h

theorem close_self (h : s.sockets[k]? = some true) : (s.close k).sockets[k]? = some false := by
  show (s.sockets.set k false)[k]? = some false
  exact List.getElem?_set_self (List.getElem?_eq_some_iff.mp h).1

/-- A client of the websocket that was left stays so. -/
theorem closed_step (h : s.sockets[k]? = some false) (hs : Sound s)
    (hstep : s.step fl lower e = some s') : s'.sockets[k]? = some false := by
  obtain ⟨m, -, hactive⟩ := hs.monitor
  cases step_moves hstep with
  | turnedAway | letPast | stopped | initialized | begins | ends | works | simulate | probe
  | toggle | status | polled => exact h
  | unmonitored hnone => cases hactive.symm.trans hnone
  | connect => exact (List.getElem?_append_left (List.getElem?_eq_some_iff.mp h).1).trans h
  | left | disconnect => exact close_closed h
  | shutdown =>
      rw [hactive]
      exact h

/-- The session is the active one and has started, and what was sent and polled since: no status was
sent, and who was polled was left. -/
structure Dark (o : Nat) (s : Dashboard) (statuses : List Status) (polled : List Nat) : Prop where
  active : s.server.activeSession = some o
  begun : s.Begun o
  nothing : statuses = []
  closed : ∀ k ∈ polled, s.sockets[k]? = some false

/-- **Step lemma.** -/
theorem Dark.step {statuses : List Status} {polled : List Nat} (h : Dark o s statuses polled)
    (hs : Sound s) (hstep : s.step fl lower e = some s')
    (hactive : s'.server.activeSession = some o) :
    Dark o s' (statuses ++ (s.sent? fl e).toList) (polled ++ (s.polled? e).toList) := by
  have hnone : s.getSystemStatus fl = none := status_begun hs h.active h.begun
  refine ⟨hactive, h.begun.step hs hstep, ?_, fun k hk => ?_⟩
  · have hsent : s.sent? fl e = none := by
      cases e with
      | status | poll k => exact hnone
      | request | stopped | initialized | begins | ends | works | simulate | probe | toggle
      | shutdown | connect | disconnect => rfl
    rw [hsent, h.nothing]
    rfl
  · obtain hold | hnew := List.mem_append.mp hk
    · exact closed_step (h.closed k hold) hs hstep
    · have he : e = .poll k := by
        cases e with
        | poll j => rw [show k = j by simpa [polled?] using hnew]
        | status | request | stopped | initialized | begins | ends | works | simulate | probe
        | toggle | shutdown | connect | disconnect => cases hnew
      subst he
      cases step_moves hstep with
      | polled hstatus =>
          rw [hnone] at hstatus
          cases hstatus
      | left hopen => exact close_self hopen

theorem status_of_sent {x : Status} (h : s.sent? fl e = some x) :
    s.getSystemStatus fl = some x := by
  cases e with
  | status | poll k => exact h
  | request | stopped | initialized | begins | ends | works | simulate | probe | toggle | shutdown
  | connect | disconnect => cases h

/-- A later session is the active one. -/
def Past (o : Nat) (s : Dashboard) : Prop := ∃ o', o < o' ∧ s.server.activeSession = some o'

theorem Past.step (h : s.Past o) (hs : Sound s) (hq : Quiet s)
    (hstep : s.step fl lower e = some s') : s'.Past o := by
  obtain ⟨o', hlt, hactive⟩ := h
  obtain hsame | hnew := activeSession_step hs hstep
  · exact ⟨o', hlt, hsame.trans hactive⟩
  · exact ⟨_, hlt.trans (hq.active o' hactive), hnew⟩

theorem Dark.goes_on {statuses : List Status} {polled : List Nat} (h : Dark o s statuses polled)
    (hs : Sound s) (hq : Quiet s) (hstep : s.step fl lower e = some s') :
    Dark o s' (statuses ++ (s.sent? fl e).toList) (polled ++ (s.polled? e).toList) ∨
      s'.Past o := by
  obtain hsame | hnew := activeSession_step hs hstep
  · exact .inl (h.step hs hstep (hsame.trans h.active))
  · exact .inr ⟨_, hq.active o h.active, hnew⟩

/-- **The status.** In every run: a status shows no download that has started. From when the active
session has started until another one is made, no status is sent, and every client of the websocket
whose turn comes is left. -/
theorem run_status (fl : Rounding) (lower : String → String) (now : ℚ) (es : List Event)
    (s : Dashboard) (hrun : runFrom (step fl lower) (startup fl lower now) es = some s) :
    (∀ x ∈ observe (step fl lower) (sent? fl) (startup fl lower now) es, ∀ d ∈ x.download,
        Idle d) ∧
      ∀ t ∈ s.server.tasks, t.pc ≠ .created → s.server.activeSession = some t.session →
        ∀ es' s', runFrom (step fl lower) s es' = some s' →
          s'.server.activeSession = some t.session →
          observe (step fl lower) (sent? fl) s es' = [] ∧
            ∀ k ∈ observe (step fl lower) polled? s es', s'.sockets[k]? = some false := by
  have hquiet : Sound s ∧ Quiet s := runFrom_invariant (I := fun s => Sound s ∧ Quiet s)
    (fun _ _ _ h hs => ⟨h.1.step hs, h.2.step h.1 hs⟩) ⟨startup_sound now, startup_quiet now⟩ hrun
  refine ⟨?_, fun t ht hpc hactive es' s' hrun' hstill => ?_⟩
  · have hstep : ∀ (s : Dashboard) (e : Event) (s' : Dashboard) (xs : List Status),
        ((Sound s ∧ Quiet s) ∧ ∀ x ∈ xs, ∀ d ∈ x.download, Idle d) → s.step fl lower e = some s' →
        (Sound s' ∧ Quiet s') ∧ ∀ x ∈ xs ++ (s.sent? fl e).toList, ∀ d ∈ x.download, Idle d := by
      intro s e s' xs h hs
      refine ⟨⟨h.1.1.step hs, h.1.2.step h.1.1 hs⟩, fun x hx => ?_⟩
      obtain hold | hnew := List.mem_append.mp hx
      · exact h.2 x hold
      · exact h.1.2.idle (status_of_sent (Option.mem_toList.mp hnew))
    have hinit : (Sound (startup fl lower now) ∧ Quiet (startup fl lower now)) ∧
        ∀ x ∈ ([] : List Status), ∀ d ∈ x.download, Idle d :=
      ⟨⟨startup_sound now, startup_quiet now⟩, fun _ h => by cases h⟩
    exact (runFrom_observe_one hstep hinit hrun).2
  · have hdark : Dark t.session s [] [] :=
      ⟨hactive, hquiet.2.begun t ht hpc, rfl, fun _ h => by cases h⟩
    have hstep : ∀ (s : Dashboard) (e : Event) (s' : Dashboard) (xs : List Status) (ys : List Nat),
        (Sound s ∧ Quiet s) ∧ (Dark t.session s xs ys ∨ s.Past t.session) →
        s.step fl lower e = some s' →
        (Sound s' ∧ Quiet s') ∧ (Dark t.session s' (xs ++ (s.sent? fl e).toList)
          (ys ++ (s.polled? e).toList) ∨ s'.Past t.session) := by
      intro s e s' xs ys h hs
      refine ⟨⟨h.1.1.step hs, h.1.2.step h.1.1 hs⟩, ?_⟩
      obtain hdark | hpast := h.2
      · exact hdark.goes_on h.1.1 h.1.2 hs
      · exact .inr (hpast.step h.1.1 h.1.2 hs)
    obtain ⟨-, hend | ⟨o, hlt, hlater⟩⟩ := runFrom_observe hstep ⟨hquiet, .inl hdark⟩ hrun'
    · exact ⟨hend.nothing, hend.closed⟩
    · have hsame := Option.some.inj (hlater.symm.trans hstill)
      omega

/-- A download that has started, and a client of the websocket. -/
def underWay : List Event :=
  [.request ⟨"a", "a.iso", true⟩ (.adapters []) true, .stopped 0 true, .initialized 0 100 1 true,
    .connect, .poll 0, .begins 0]

theorem run_status_underWay :
    ∃ s, runFrom (step .exact id) (startup .exact id 0) underWay = some s ∧
      s.sockets = [true] ∧ ∀ es' s', runFrom (step .exact id) s es' = some s' →
        s'.server.activeSession = some 0 →
        ∀ k ∈ observe (step .exact id) polled? s es', s'.sockets[k]? = some false := by
  have hall : ∃ s ∈ runFrom (step .exact id) (startup .exact id 0) underWay,
      s.sockets = [true] ∧ s.server.activeSession = some 0 ∧
        s.server.tasks = [⟨0, .running⟩] := by decide +kernel
  obtain ⟨s, hrun, hsockets, hactive, htasks⟩ := hall
  have hmem : ⟨0, .running⟩ ∈ s.server.tasks := by
    rw [htasks]
    exact List.mem_singleton_self _
  exact ⟨s, hrun, hsockets, fun es' s' hrun' hstill =>
    ((run_status .exact id 0 underWay s hrun).2 ⟨0, .running⟩ hmem (by simp) hactive es' s' hrun'
      hstill).2⟩

end Dashboard

end AetherBond.Gui
