import AetherBond.Control.Monitor

set_option autoImplicit false

/-! # The monitor from boot to `Stop`

`main` of `aetherbond-control/main.go` starts the polling goroutine and the netlink one, and calls
`Stop` once a signal arrives. `Stop` closes `stopChan` and waits until both goroutines have
returned. The polling goroutine looks at the channel in its `select`, the netlink one at the head
of its loop, and in between it is in a `Read` without a timeout. Their scans are those of
`InterfaceMonitor`, of which every run here is a run (`monitor_of_run`).

Once `Stop` has returned the links do not change any more. But if the netlink goroutine is in its
`Read` when `Stop` is called, `Stop` returns only after the kernel has sent another message
(`run_stop`).
-/

namespace AetherBond.Control

open AetherBond.Lib

/-! ## The source -/

/-- Where the polling goroutine is. -/
inductive PollerPc
  | scanning
  /-- In the `select`. -/
  | selecting
  | ended
  deriving DecidableEq

/-- Where the netlink goroutine is. -/
inductive NetlinkPc
  /-- Before its socket is open and bound. -/
  | opening
  /-- At the head of its loop. -/
  | checking
  /-- In `syscall.Read`. -/
  | reading
  /-- In a scan, with more messages that ask for one to come. -/
  | scanning (left : Nat)
  | ended
  deriving DecidableEq

def NetlinkPc.scans : NetlinkPc → Bool
  | scanning _ => true
  | _ => false

/-- After a scan: the next message that asks for one, or the head of the loop. -/
def NetlinkPc.scanned : NetlinkPc → NetlinkPc
  | scanning (left + 1) => scanning left
  | _ => checking

/-- Where `Stop` is. -/
inductive StopPc
  | notCalled
  /-- In `im.wg.Wait()`. -/
  | waiting
  | returned
  deriving DecidableEq

/-- The monitor with the goroutines of `Start` and `StartNetlinkListener`. -/
structure ControlPlane where
  monitor : InterfaceMonitor
  poller : PollerPc
  netlink : NetlinkPc
  stop : StopPc

/-- The goroutine a step of a scan is of. -/
def InterfaceMonitor.Event.goroutine? : InterfaceMonitor.Event → Option Goroutine
  | .change _ => none
  | .list g _ | .lock g | .iface g _ _ | .finish g _ => some g

namespace ControlPlane

/-- `main`, after `Start` and `StartNetlinkListener`. -/
def boot (os : OsTable) : ControlPlane where
  monitor := .new os
  poller := .scanning
  netlink := .opening
  stop := .notCalled

/-- The goroutine is in `scanInterfaces`. -/
def Scanning (s : ControlPlane) : Goroutine → Prop
  | .poller => s.poller = .scanning
  | .netlink => s.netlink.scans = true

instance (s : ControlPlane) : ∀ g, Decidable (s.Scanning g)
  | .poller => inferInstanceAs (Decidable (_ = _))
  | .netlink => inferInstanceAs (Decidable (_ = _))

/-- `scanInterfaces` returns to a goroutine. -/
def scanned (s : ControlPlane) : Goroutine → ControlPlane
  | .poller => { s with poller := .selecting }
  | .netlink => { s with netlink := s.netlink.scanned }

/-- `stopChan` is closed. -/
def Closed (s : ControlPlane) : Prop := s.stop ≠ .notCalled

instance (s : ControlPlane) : Decidable s.Closed := inferInstanceAs (Decidable (_ ≠ _))

inductive Event
  /-- A step of a scan, or the operating system changes. -/
  | monitor (e : InterfaceMonitor.Event)
  | tick
  /-- The `select` takes the closed channel. -/
  | pollerReturns
  /-- The socket is open and bound if `ok`. -/
  | opened (ok : Bool)
  /-- The netlink goroutine looks at the channel. -/
  | checks
  /-- `Read` returns: an error, also of the parser, or so many messages that ask for a scan. -/
  | read (messages : Option Nat)
  | stop
  | stopReturns

def step (s : ControlPlane) : Event → Option ControlPlane
  | .monitor e =>
      (s.monitor.step e).bind fun monitor =>
        match e.goroutine? with
        | none => some { s with monitor := monitor }
        | some g =>
            if s.Scanning g then
              if monitor.scan g = .idle then some ({ s with monitor := monitor }.scanned g)
              else some { s with monitor := monitor }
            else none
  -- with the channel closed too, the `select` takes either
  | .tick => if s.poller = .selecting then some { s with poller := .scanning } else none
  | .pollerReturns =>
      if s.poller = .selecting ∧ s.Closed then some { s with poller := .ended } else none
  | .opened ok =>
      if s.netlink = .opening then
        some { s with netlink := if ok then .checking else .ended }
      else none
  | .checks =>
      if s.netlink = .checking then
        some { s with netlink := if s.Closed then .ended else .reading }
      else none
  | .read messages =>
      if s.netlink = .reading then
        match messages with
        | some (left + 1) => some { s with netlink := .scanning left }
        | _ => some { s with netlink := .checking }
      else none
  | .stop => if s.stop = .notCalled then some { s with stop := .waiting } else none
  | .stopReturns =>
      if s.stop = .waiting ∧ s.poller = .ended ∧ s.netlink = .ended then
        some { s with stop := .returned }
      else none

/-! ## What a step can do -/

variable {s s' : ControlPlane} {e : Event} {g : Goroutine} {os : OsTable}

inductive Moves (s : ControlPlane) : Event → ControlPlane → Prop
  | change (os : OsTable) :
      Moves s (.monitor (.change os)) { s with monitor := { s.monitor with os := os } }
  | scans {e : InterfaceMonitor.Event} {g : Goroutine} {monitor : InterfaceMonitor}
      (hg : e.goroutine? = some g) (hstep : s.monitor.step e = some monitor)
      (hscanning : s.Scanning g) (hgoes : monitor.scan g ≠ .idle) :
      Moves s (.monitor e) { s with monitor := monitor }
  | scanned {e : InterfaceMonitor.Event} {g : Goroutine} {monitor : InterfaceMonitor}
      (hg : e.goroutine? = some g) (hstep : s.monitor.step e = some monitor)
      (hscanning : s.Scanning g) (hidle : monitor.scan g = .idle) :
      Moves s (.monitor e) ({ s with monitor := monitor }.scanned g)
  | tick (h : s.poller = .selecting) : Moves s .tick { s with poller := .scanning }
  | pollerReturns (h : s.poller = .selecting) (hclosed : s.Closed) :
      Moves s .pollerReturns { s with poller := .ended }
  | opened (h : s.netlink = .opening) (ok : Bool) :
      Moves s (.opened ok) { s with netlink := if ok then .checking else .ended }
  | checks (h : s.netlink = .checking) :
      Moves s .checks { s with netlink := if s.Closed then .ended else .reading }
  | readNothing (h : s.netlink = .reading) {messages : Option Nat} :
      Moves s (.read messages) { s with netlink := .checking }
  | reads (h : s.netlink = .reading) (left : Nat) :
      Moves s (.read (some (left + 1))) { s with netlink := .scanning left }
  | stop (h : s.stop = .notCalled) : Moves s .stop { s with stop := .waiting }
  | stopReturns (h : s.stop = .waiting) (hpoller : s.poller = .ended)
      (hnetlink : s.netlink = .ended) : Moves s .stopReturns { s with stop := .returned }

theorem step_moves (h : s.step e = some s') : Moves s e s' := by
  cases e with
  | monitor e =>
      obtain ⟨monitor, hstep, hrest⟩ := Option.bind_eq_some_iff.mp h
      cases hg : e.goroutine? with
      | none =>
          rw [hg] at hrest
          cases e with
          | change os =>
              obtain rfl := Option.some.inj hstep
              obtain rfl := Option.some.inj hrest
              exact .change os
          | list | lock | iface | finish => cases hg
      | some g =>
          rw [hg] at hrest
          dsimp only at hrest
          split_ifs at hrest with hscanning hidle
          · obtain rfl := Option.some.inj hrest
            exact .scanned hg hstep hscanning hidle
          · obtain rfl := Option.some.inj hrest
            exact .scans hg hstep hscanning hidle
  | tick =>
      simp only [step] at h
      split_ifs at h with hpc
      obtain rfl := Option.some.inj h
      exact .tick hpc
  | pollerReturns =>
      simp only [step] at h
      split_ifs at h with hpc
      obtain rfl := Option.some.inj h
      exact .pollerReturns hpc.1 hpc.2
  | opened ok =>
      simp only [step] at h
      by_cases hpc : s.netlink = .opening
      · rw [if_pos hpc] at h
        exact Option.some.inj h ▸ .opened hpc ok
      · rw [if_neg hpc] at h
        cases h
  | checks =>
      simp only [step] at h
      by_cases hpc : s.netlink = .checking
      · rw [if_pos hpc] at h
        exact Option.some.inj h ▸ .checks hpc
      · rw [if_neg hpc] at h
        cases h
  | read messages =>
      simp only [step] at h
      split_ifs at h with hpc
      split at h
      · next left =>
          obtain rfl := Option.some.inj h
          exact .reads hpc left
      · obtain rfl := Option.some.inj h
        exact .readNothing hpc
  | stop =>
      simp only [step] at h
      split_ifs at h with hpc
      obtain rfl := Option.some.inj h
      exact .stop hpc
  | stopReturns =>
      simp only [step] at h
      split_ifs at h with hpc
      obtain rfl := Option.some.inj h
      exact .stopReturns hpc.1 hpc.2.1 hpc.2.2

@[simp] theorem scanned_monitor (s : ControlPlane) (g : Goroutine) :
    (s.scanned g).monitor = s.monitor := by
  cases g with
  | poller | netlink => rfl

@[simp] theorem scanned_stop (s : ControlPlane) (g : Goroutine) : (s.scanned g).stop = s.stop := by
  cases g with
  | poller | netlink => rfl

/-- **The monitor takes steps of its own model throughout.** -/
theorem monitor_of_run {es : List Event} (hrun : runFrom step (boot os) es = some s) :
    Reachable InterfaceMonitor.step (.new os) s.monitor := by
  refine runFrom_invariant (I := fun s : ControlPlane =>
    Reachable InterfaceMonitor.step (.new os) s.monitor) (fun s e s' h hs => ?_) ⟨[], rfl⟩ hrun
  obtain ⟨es', hes'⟩ := h
  cases step_moves hs with
  | change os => exact ⟨_, runFrom_concat (e := .change os) hes' rfl⟩
  | scans _ hstep => exact ⟨_, runFrom_concat hes' hstep⟩
  | scanned _ hstep =>
      rw [scanned_monitor]
      exact ⟨_, runFrom_concat hes' hstep⟩
  | tick | pollerReturns | opened | checks | readNothing | reads | stop | stopReturns =>
      exact ⟨es', hes'⟩

end ControlPlane

/-! ## A step of a scan -/

namespace InterfaceMonitor

variable {m m' : InterfaceMonitor} {e : Event} {g : Goroutine}

/-- The scan is in the loop over the interfaces. -/
def InLoop (m : InterfaceMonitor) (g : Goroutine) : Prop :=
  ∃ list ifaces activeNames, m.scan g = .sweeping list ifaces activeNames

/-- Who is in the loop holds the mutex. -/
def Exclusive (m : InterfaceMonitor) : Prop := ∀ g, InLoop m g ↔ m.mutex = some g

/-- What is left of a scan, if the operating system does not change. -/
def scanWork (m : InterfaceMonitor) (g : Goroutine) : Nat :=
  match m.scan g with
  | .idle => m.os.entries.length + 3
  | .waiting _ ifaces => ifaces.length + 2
  | .sweeping _ ifaces _ => ifaces.length + 1

theorem inLoop_setScan (m : InterfaceMonitor) (g k : Goroutine) (scan : Scan) :
    InLoop (m.setScan g scan) k ↔
      if k = g then ∃ list ifaces activeNames, scan = .sweeping list ifaces activeNames
      else InLoop m k := by
  unfold InLoop
  rw [scan_setScan]
  by_cases hk : k = g
  · rw [if_pos hk, if_pos hk]
  · rw [if_neg hk, if_neg hk]

theorem Exclusive.step (h : m.Exclusive) (hstep : m.step e = some m') : m'.Exclusive := by
  cases step_move hstep with
  | change | noList => exact h
  | @list g hidle =>
      intro k
      refine (inLoop_setScan m g k _).trans ?_
      by_cases hk : k = g
      · subst hk
        rw [if_pos rfl]
        refine ⟨fun ⟨_, _, _, heq⟩ => (by cases heq), fun howner => ?_⟩
        obtain ⟨_, _, _, hscan⟩ := (h k).mpr howner
        rw [hidle] at hscan
        cases hscan
      · rw [if_neg hk]
        exact h k
  | @lock g list ifaces hwaiting hfree =>
      intro k
      refine (inLoop_setScan m g k _).trans ?_
      by_cases hk : k = g
      · subst hk
        rw [if_pos rfl]
        exact ⟨fun _ => rfl, fun _ => ⟨_, _, _, rfl⟩⟩
      · rw [if_neg hk]
        refine (h k).trans ⟨fun howner => ?_, fun howner => absurd (Option.some.inj howner).symm hk⟩
        rw [hfree] at howner
        cases howner
  | @iface g list iface rest activeNames ok now hsweeping =>
      intro k
      refine (inLoop_setScan m g k _).trans ?_
      by_cases hk : k = g
      · subst hk
        rw [if_pos rfl]
        exact ⟨fun _ => (h k).mp ⟨_, _, _, hsweeping⟩, fun _ => ⟨_, _, _, rfl⟩⟩
      · rw [if_neg hk]
        exact h k
  | @finish g list activeNames now hsweeping =>
      intro k
      refine (inLoop_setScan m g k _).trans ?_
      have howner := (h g).mp ⟨_, _, _, hsweeping⟩
      by_cases hk : k = g
      · rw [if_pos hk]
        exact ⟨fun ⟨_, _, _, heq⟩ => (by cases heq), fun hnone => (by cases hnone)⟩
      · rw [if_neg hk]
        refine (h k).trans ⟨fun hother => ?_, fun hnone => by cases hnone⟩
        exact absurd (Option.some.inj (hother.symm.trans howner)) hk

/-- A goroutine gets on with its scan; the other one and the operating system stay. -/
structure GetsOn (m : InterfaceMonitor) (g : Goroutine) (m' : InterfaceMonitor) : Prop where
  os : m'.os = m.os
  other : ∀ k ≠ g, m'.scan k = m.scan k
  work : m'.scan g = .idle ∨ scanWork m' g < scanWork m g

theorem getsOn_step (hg : e.goroutine? = some g) (hstep : m.step e = some m') : GetsOn m g m' := by
  have hother : ∀ scan, ∀ k ≠ g, (m.setScan g scan).scan k = m.scan k := by
    intro scan k hk
    rw [scan_setScan, if_neg hk]
  have hown : ∀ scan, (m.setScan g scan).scan g = scan := by
    intro scan
    rw [scan_setScan, if_pos rfl]
  cases step_move hstep with
  | change => cases hg
  | noList hidle =>
      cases hg
      exact ⟨rfl, fun _ _ => rfl, .inl hidle⟩
  | list hidle =>
      cases hg
      refine ⟨rfl, hother _, .inr ?_⟩
      simp only [scanWork, hown, hidle, interfaces, List.length_map]
      omega
  | lock hwaiting hfree =>
      cases hg
      refine ⟨rfl, hother _, .inr ?_⟩
      simp only [scanWork, hown, hwaiting]
      omega
  | iface ok now hsweeping =>
      cases hg
      refine ⟨rfl, hother _, .inr ?_⟩
      simp only [scanWork, hown, hsweeping, List.length_cons]
      omega
  | finish now hsweeping =>
      cases hg
      exact ⟨rfl, hother _, .inl (hown _)⟩

/-- Some step of a scan is possible: its own, or one of the scan that holds the mutex. -/
theorem exists_scan_step (h : m.Exclusive) (g : Goroutine) :
    ∃ e k, e.goroutine? = some k ∧ (m.step e).isSome ∧ (k = g ∨ m.scan k ≠ .idle) := by
  have hloop : ∀ k, InLoop m k → ∃ e, e.goroutine? = some k ∧ (m.step e).isSome := by
    rintro k ⟨list, ifaces, activeNames, hscan⟩
    cases ifaces with
    | nil => exact ⟨.finish k 0, rfl, by simp [InterfaceMonitor.step, hscan]⟩
    | cons => exact ⟨.iface k true 0, rfl, by simp [InterfaceMonitor.step, hscan]⟩
  cases hscan : m.scan g with
  | idle => exact ⟨.list g true, g, rfl, by simp [InterfaceMonitor.step, hscan], .inl rfl⟩
  | sweeping list ifaces activeNames =>
      obtain ⟨e, hg, hsome⟩ := hloop g ⟨_, _, _, hscan⟩
      exact ⟨e, g, hg, hsome, .inl rfl⟩
  | waiting list ifaces =>
      cases hmutex : m.mutex with
      | none => exact ⟨.lock g, g, rfl, by simp [InterfaceMonitor.step, hscan, hmutex], .inl rfl⟩
      | some k =>
          have hk : InLoop m k := (h k).mpr hmutex
          obtain ⟨e, hg, hsome⟩ := hloop k hk
          obtain ⟨_, _, _, hsweeping⟩ := hk
          exact ⟨e, k, hg, hsome, .inr (by rw [hsweeping]; simp)⟩

end InterfaceMonitor

/-! ## The invariant -/

namespace ControlPlane

variable {s s' : ControlPlane} {e : Event} {g k : Goroutine} {os : OsTable}

/-- Who is in a scan was called from its loop, and `Stop` has returned only if both loops have. -/
structure Sound (s : ControlPlane) : Prop where
  exclusive : s.monitor.Exclusive
  called : ∀ g, s.monitor.scan g ≠ .idle → s.Scanning g
  finished : s.stop = .returned → s.poller = .ended ∧ s.netlink = .ended

theorem boot_sound (os : OsTable) : Sound (boot os) where
  exclusive g := ⟨fun ⟨_, _, _, h⟩ => (by cases h), fun h => (by cases h)⟩
  called g h := absurd rfl h
  finished h := by cases h

theorem scanning_scanned (hk : k ≠ g) (h : s.Scanning k) : (s.scanned g).Scanning k := by
  cases g with
  | poller =>
      cases k with
      | poller => exact absurd rfl hk
      | netlink => exact h
  | netlink =>
      cases k with
      | poller => exact h
      | netlink => exact absurd rfl hk

/-- Somebody is in a scan, so `Stop` has not returned. -/
theorem Sound.not_returned (h : Sound s) (hscanning : s.Scanning g) : s.stop ≠ .returned := by
  intro hstop
  obtain ⟨hpoller, hnetlink⟩ := h.finished hstop
  cases g with
  | poller => cases hpoller.symm.trans hscanning
  | netlink =>
      have hscans : s.netlink.scans = true := hscanning
      rw [hnetlink] at hscans
      cases hscans

/-- The polling goroutine moves outside of its scans. -/
theorem Sound.setPoller (h : Sound s) (hselecting : s.poller = .selecting) (pc : PollerPc) :
    Sound { s with poller := pc } := by
  refine ⟨h.exclusive, fun g hg => ?_, fun hstop => ?_⟩
  · have hcalled := h.called g hg
    cases g with
    | poller => cases hselecting.symm.trans hcalled
    | netlink => exact hcalled
  · cases hselecting.symm.trans (h.finished hstop).1

/-- The netlink goroutine moves outside of its scans. -/
theorem Sound.setNetlink (h : Sound s) (hscans : s.netlink.scans = false)
    (hgoes : s.netlink ≠ .ended) (pc : NetlinkPc) : Sound { s with netlink := pc } := by
  refine ⟨h.exclusive, fun g hg => ?_, fun hstop => absurd (h.finished hstop).2 hgoes⟩
  have hcalled := h.called g hg
  cases g with
  | poller => exact hcalled
  | netlink => cases hscans.symm.trans hcalled

theorem Sound.step (h : Sound s) (hstep : s.step e = some s') : Sound s' := by
  cases step_moves hstep with
  | change os => exact ⟨h.exclusive, h.called, h.finished⟩
  | @scans _ g monitor hg hmonitor hscanning hgoes =>
      have hgets := InterfaceMonitor.getsOn_step hg hmonitor
      refine ⟨h.exclusive.step hmonitor, fun k hk => ?_,
        fun hstop => absurd hstop (h.not_returned hscanning)⟩
      by_cases hkg : k = g
      · exact hkg ▸ hscanning
      · exact h.called k (hgets.other k hkg ▸ hk)
  | @scanned _ g monitor hg hmonitor hscanning hidle =>
      have hgets := InterfaceMonitor.getsOn_step hg hmonitor
      refine ⟨?_, fun k hk => ?_, fun hstop => ?_⟩
      · rw [scanned_monitor]
        exact h.exclusive.step hmonitor
      · rw [scanned_monitor] at hk
        have hkg : k ≠ g := fun heq => hk (heq ▸ hidle)
        exact scanning_scanned hkg (h.called k (hgets.other k hkg ▸ hk))
      · rw [scanned_stop] at hstop
        exact absurd hstop (h.not_returned hscanning)
  | tick hpc | pollerReturns hpc => exact h.setPoller hpc _
  | opened hpc | checks hpc | readNothing hpc | reads hpc =>
      exact h.setNetlink (by rw [hpc]; rfl) (by rw [hpc]; simp) _
  | stop => exact ⟨h.exclusive, h.called, fun hstop => by cases hstop⟩
  | stopReturns hwaiting hpoller hnetlink =>
      exact ⟨h.exclusive, h.called, fun _ => ⟨hpoller, hnetlink⟩⟩

/-! ## Winding down -/

def pollerWork (s : ControlPlane) : Nat :=
  match s.poller with
  | .scanning => s.monitor.scanWork .poller + 2
  | .selecting => 1
  | .ended => 0

def netlinkWork (s : ControlPlane) : Nat :=
  match s.netlink with
  | .opening => 2
  | .checking => 1
  | .reading | .ended => 0
  | .scanning left => left * (s.monitor.os.entries.length + 4) + s.monitor.scanWork .netlink + 2

def stopWork (s : ControlPlane) : Nat :=
  match s.stop with
  | .notCalled | .waiting => 1
  | .returned => 0

/-- What is left until `Stop` returns. -/
def work (s : ControlPlane) : Nat := s.pollerWork + s.netlinkWork + s.stopWork

/-- The event leads towards the return of `Stop`, and does not need the kernel. -/
def Winds : Event → Prop
  | .monitor e => e.goroutine?.isSome
  | .pollerReturns | .opened _ | .checks | .stopReturns => True
  | .tick | .read _ | .stop => False

/-- `Stop` has been called, and not while the netlink goroutine was in its `Read`. -/
structure Winding (s : ControlPlane) : Prop where
  sound : Sound s
  closed : s.Closed
  awake : s.netlink ≠ .reading

theorem scanWork_other {m m' : InterfaceMonitor} (h : InterfaceMonitor.GetsOn m g m') (hk : k ≠ g) :
    m'.scanWork k = m.scanWork k := by
  unfold InterfaceMonitor.scanWork
  rw [h.other k hk, h.os]

theorem scanWork_idle {m : InterfaceMonitor} (h : m.scan g = .idle) :
    m.scanWork g = m.os.entries.length + 3 := by
  unfold InterfaceMonitor.scanWork
  rw [h]

theorem scanWork_pos (m : InterfaceMonitor) (g : Goroutine) : 0 < m.scanWork g := by
  unfold InterfaceMonitor.scanWork
  split <;> omega

/-- A scan gets on. -/
theorem work_scans_lt {monitor : InterfaceMonitor} (h : s.monitor.GetsOn g monitor)
    (hscanning : s.Scanning g) (hgoes : monitor.scan g ≠ .idle) :
    work { s with monitor := monitor } < s.work := by
  have hwork := h.work.resolve_left hgoes
  cases g with
  | poller =>
      have hpc : s.poller = .scanning := hscanning
      have hother := scanWork_other h (k := .netlink) (by simp)
      simp only [work, pollerWork, netlinkWork, stopWork, hpc, hother, h.os]
      omega
  | netlink =>
      have hother := scanWork_other h (k := .poller) (by simp)
      cases hpc : s.netlink with
      | scanning left =>
          simp only [work, pollerWork, netlinkWork, stopWork, hpc, hother, h.os]
          omega
      | opening | checking | reading | ended =>
          have hscans : s.netlink.scans = true := hscanning
          rw [hpc] at hscans
          cases hscans

/-- A scan is over. -/
theorem work_scanned_lt {monitor : InterfaceMonitor} (h : s.monitor.GetsOn g monitor)
    (hscanning : s.Scanning g) (hidle : monitor.scan g = .idle) :
    work ({ s with monitor := monitor }.scanned g) < s.work := by
  have hpos := scanWork_pos s.monitor g
  have hnew := scanWork_idle hidle
  cases g with
  | poller =>
      have hpc : s.poller = .scanning := hscanning
      have hother := scanWork_other h (k := .netlink) (by simp)
      simp only [work, pollerWork, netlinkWork, stopWork, scanned, hpc, hother, h.os]
      omega
  | netlink =>
      have hother := scanWork_other h (k := .poller) (by simp)
      cases hpc : s.netlink with
      | scanning left =>
          cases left with
          | zero =>
              simp only [work, pollerWork, netlinkWork, stopWork, scanned, NetlinkPc.scanned, hpc,
                hother]
              omega
          | succ left =>
              simp only [work, pollerWork, netlinkWork, stopWork, scanned, NetlinkPc.scanned, hpc,
                hother, hnew, h.os, Nat.succ_mul]
              omega
      | opening | checking | reading | ended =>
          have hscans : s.netlink.scans = true := hscanning
          rw [hpc] at hscans
          cases hscans

/-- **Step lemma**: what is left gets less, and the netlink goroutine does not read again. -/
theorem Winding.step (h : Winding s) (hwinds : Winds e) (hstep : s.step e = some s') :
    Winding s' ∧ s'.work < s.work := by
  have hsound := h.sound.step hstep
  cases step_moves hstep with
  | change => cases hwinds
  | scans hg hmonitor hscanning hgoes =>
      exact ⟨⟨hsound, h.closed, h.awake⟩,
        work_scans_lt (InterfaceMonitor.getsOn_step hg hmonitor) hscanning hgoes⟩
  | @scanned _ g monitor hg hmonitor hscanning hidle =>
      refine ⟨⟨hsound, ?_, ?_⟩,
        work_scanned_lt (InterfaceMonitor.getsOn_step hg hmonitor) hscanning hidle⟩
      · unfold Closed
        rw [scanned_stop]
        exact h.closed
      · cases g with
        | poller => exact h.awake
        | netlink =>
            show s.netlink.scanned ≠ .reading
            unfold NetlinkPc.scanned
            split <;> simp
  | pollerReturns hpc =>
      refine ⟨⟨hsound, h.closed, h.awake⟩, ?_⟩
      simp only [work, pollerWork, netlinkWork, stopWork, hpc]
      omega
  | opened hpc ok =>
      refine ⟨⟨hsound, h.closed, ?_⟩, ?_⟩
      · cases ok <;> simp
      · cases ok <;> simp [work, pollerWork, netlinkWork, stopWork, hpc]
  | checks hpc =>
      have hended : (if s.Closed then NetlinkPc.ended else .reading) = .ended := if_pos h.closed
      refine ⟨⟨hsound, h.closed, ?_⟩, ?_⟩
      · dsimp only
        rw [hended]
        simp
      · rw [hended]
        simp only [work, pollerWork, netlinkWork, stopWork, hpc]
        omega
  | tick | readNothing | reads | stop => exact absurd hwinds id
  | stopReturns hwaiting hpoller hnetlink =>
      refine ⟨⟨hsound, by simp [Closed], h.awake⟩, ?_⟩
      simp [work, pollerWork, netlinkWork, stopWork, hpoller, hnetlink, hwaiting]

/-- A step of a scan is a step here, if the scan was called from a loop. -/
theorem isSome_monitor {e : InterfaceMonitor.Event} (hg : e.goroutine? = some k)
    (hsome : (s.monitor.step e).isSome) (hscanning : s.Scanning k) :
    (s.step (.monitor e)).isSome := by
  obtain ⟨monitor, hmonitor⟩ := Option.isSome_iff_exists.mp hsome
  simp only [ControlPlane.step, hmonitor, Option.bind_some, hg, if_pos hscanning]
  split_ifs <;> rfl

theorem Sound.exists_winds (h : Sound s) (hscanning : s.Scanning g) :
    ∃ e, Winds e ∧ (s.step e).isSome := by
  obtain ⟨e, k, hk, hsome, hwho⟩ := InterfaceMonitor.exists_scan_step h.exclusive g
  have hcalled : s.Scanning k := by
    obtain rfl | hbusy := hwho
    · exact hscanning
    · exact h.called k hbusy
  exact ⟨.monitor e, by simp [Winds, hk], isSome_monitor hk hsome hcalled⟩

/-- **Progress**: until `Stop` has returned, some step leads towards its return. -/
theorem Winding.exists_step (h : Winding s) (hstop : s.stop ≠ .returned) :
    ∃ e, Winds e ∧ (s.step e).isSome := by
  have hwaiting : s.stop = .waiting := by
    cases hpc : s.stop with
    | notCalled => exact absurd hpc h.closed
    | waiting => rfl
    | returned => exact absurd hpc hstop
  cases hpoller : s.poller with
  | scanning => exact h.sound.exists_winds (g := .poller) hpoller
  | selecting => exact ⟨.pollerReturns, trivial, by simp [ControlPlane.step, hpoller, h.closed]⟩
  | ended =>
      cases hnetlink : s.netlink with
      | opening => exact ⟨.opened true, trivial, by simp [ControlPlane.step, hnetlink]⟩
      | checking => exact ⟨.checks, trivial, by simp [ControlPlane.step, hnetlink]⟩
      | reading => exact absurd hnetlink h.awake
      | scanning left =>
          have hscanning : s.Scanning .netlink := by
            show s.netlink.scans = true
            rw [hnetlink]
            rfl
          exact h.sound.exists_winds hscanning
      | ended =>
          exact ⟨.stopReturns, trivial, by simp [ControlPlane.step, hwaiting, hpoller, hnetlink]⟩

theorem Winding.exists_returned (h : Winding s) :
    ∃ es s', (∀ e ∈ es, Winds e) ∧ runFrom ControlPlane.step s es = some s' ∧
      s'.stop = .returned := by
  have hlowers : ∀ s e s', Winding s → Winds e → ControlPlane.step s e = some s' →
      Winding s' ∧ s'.work < s.work := fun _ _ _ h hwinds hs => h.step hwinds hs
  exact exists_runFrom_done hlowers (fun _ h hstop => h.exists_step hstop) h

/-! ## The return of `Stop` -/

/-- Without a message the netlink goroutine stays in its `Read`. -/
theorem netlink_of_step (h : s.netlink = .reading) (he : ∀ messages, e ≠ .read messages)
    (hstep : s.step e = some s') : s'.netlink = .reading := by
  cases step_moves hstep with
  | change | scans | tick | pollerReturns | stop => exact h
  | @scanned _ g _ _ _ hscanning =>
      cases g with
      | poller => exact h
      | netlink =>
          have hscans : s.netlink.scans = true := hscanning
          rw [h] at hscans
          cases hscans
  | opened hpc | checks hpc => cases hpc.symm.trans h
  | readNothing | reads => exact absurd rfl (he _)
  | stopReturns _ _ hnetlink => cases hnetlink.symm.trans h

/-- Once `Stop` has returned only the operating system moves. -/
theorem Sound.frozen_step (h : Sound s) (hstop : s.stop = .returned)
    (hstep : s.step e = some s') :
    s'.stop = .returned ∧ s'.monitor.links = s.monitor.links := by
  obtain ⟨hpoller, hnetlink⟩ := h.finished hstop
  cases step_moves hstep with
  | change => exact ⟨hstop, rfl⟩
  | scans _ _ hscanning | scanned _ _ hscanning => exact absurd hstop (h.not_returned hscanning)
  | tick hpc | pollerReturns hpc => cases hpc.symm.trans hpoller
  | opened hpc | checks hpc | readNothing hpc | reads hpc => cases hpc.symm.trans hnetlink
  | stop hpc | stopReturns hpc => cases hpc.symm.trans hstop

theorem sound_of_run {es : List Event} (hrun : runFrom step (boot os) es = some s) : Sound s :=
  runFrom_invariant (fun _ _ _ h hs => Sound.step h hs) (boot_sound os) hrun

/-- **The return of `Stop`.** After it the links stay as they are. It comes without another return
of `Read` if and only if the netlink goroutine is not in one, and any one return of it is enough. -/
theorem run_stop (os : OsTable) (es : List Event) (s : ControlPlane)
    (hrun : runFrom step (boot os) es = some s) :
    (s.stop = .returned → ∀ es' s', runFrom step s es' = some s' →
      s'.monitor.links = s.monitor.links) ∧
    (s.stop = .waiting →
      ((∃ es' s', (∀ e ∈ es', ∀ messages, e ≠ .read messages) ∧ runFrom step s es' = some s' ∧
          s'.stop = .returned) ↔ s.netlink ≠ .reading) ∧
      (s.netlink = .reading → ∀ messages, ∃ es' s',
        (∀ e ∈ es', ∀ messages, e ≠ .read messages) ∧
          runFrom step s (.read messages :: es') = some s' ∧ s'.stop = .returned)) := by
  have hsound := sound_of_run hrun
  have hquiet : ∀ e, Winds e → ∀ messages, e ≠ .read messages := by
    rintro e hwinds messages rfl
    exact hwinds
  refine ⟨fun hstop es' s' hrun' => ?_, fun hwaiting => ⟨⟨?_, fun hawake => ?_⟩, ?_⟩⟩
  · have hfrozen := runFrom_invariant
      (I := fun s' => Sound s' ∧ s'.stop = .returned ∧ s'.monitor.links = s.monitor.links)
      (fun s₁ e s₂ h hs => by
        obtain ⟨hstop₂, hlinks⟩ := h.1.frozen_step h.2.1 hs
        exact ⟨h.1.step hs, hstop₂, hlinks.trans h.2.2⟩) ⟨hsound, hstop, rfl⟩ hrun'
    exact hfrozen.2.2
  · rintro ⟨es', s', hes, hrun', hreturned⟩ hreading
    have hstep : ∀ (s₁ : ControlPlane) (e : Event) (s₂ : ControlPlane), s₁.netlink = .reading →
        (∀ messages, e ≠ .read messages) → step s₁ e = some s₂ → s₂.netlink = .reading :=
      fun _ _ _ h he hs => netlink_of_step h he hs
    have hstays := runFrom_invariant_along hstep hreading (along_of_forall hes) hrun'
    have hended := (runFrom_invariant (fun _ _ _ h hs => Sound.step h hs) hsound hrun').finished
      hreturned
    cases hended.2.symm.trans hstays
  · have hwinding : Winding s := ⟨hsound, by rw [Closed, hwaiting]; simp, hawake⟩
    obtain ⟨es', s', hes, hrest⟩ := hwinding.exists_returned
    exact ⟨es', s', fun e he => hquiet e (hes e he), hrest⟩
  · intro hreading messages
    have hread : ∃ s₁, s.step (.read messages) = some s₁ ∧ s₁.netlink ≠ .reading ∧ s₁.Closed := by
      have hclosed : s.Closed := by
        rw [Closed, hwaiting]
        simp
      simp only [step, if_pos hreading]
      split
      · exact ⟨_, rfl, by simp, hclosed⟩
      · exact ⟨_, rfl, by simp, hclosed⟩
    obtain ⟨s₁, hs, hawake, hclosed⟩ := hread
    obtain ⟨es', s', hes, hrun', hreturned⟩ :=
      Winding.exists_returned ⟨hsound.step hs, hclosed, hawake⟩
    exact ⟨es', s', fun e he => hquiet e (hes e he), runFrom_cons_eq_some.mpr ⟨s₁, hs, hrun'⟩,
      hreturned⟩

/-- `Stop` is called, and the netlink goroutine has just gone into its `Read`. -/
theorem run_stop_reading :
    ∃ s, runFrom step (boot .empty) [.monitor (.list .poller false), .opened true, .checks, .stop] =
        some s ∧
      ¬ ∃ es' s', (∀ e ∈ es', ∀ messages, e ≠ .read messages) ∧ runFrom step s es' = some s' ∧
        s'.stop = .returned := by
  have hall : ∃ s ∈ runFrom step (boot .empty)
      [.monitor (.list .poller false), .opened true, .checks, .stop],
      s.stop = .waiting ∧ s.netlink = .reading := by decide +kernel
  obtain ⟨s, hmem, hwaiting, hreading⟩ := hall
  exact ⟨s, hmem, fun hreturns => ((run_stop _ _ s hmem).2 hwaiting).1.mp hreturns hreading⟩

end ControlPlane

end AetherBond.Control
