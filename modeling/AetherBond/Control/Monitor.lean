import AetherBond.Lib.Bytes
import AetherBond.Lib.Dict
import AetherBond.Lib.Run

set_option autoImplicit false

/-! # The interface monitor

`InterfaceMonitor` of `aetherbond-control/pkg/interfaces/monitor.go`, with the two goroutines that
call `scanInterfaces`: the polling one and, from `monitor_linux.go`, the netlink one. A scan takes
the list of interfaces from the operating system, then the mutex, and then asks the operating
system for the addresses of each interface that is up; in between the other goroutine may scan and
the operating system may change, and both may fail to answer.

`lists` and `applied` are history: the tables of the operating system from which the lists were
taken, and which of them the links were last brought up to. The links show the newest list when
every scan is over, provided that no scan takes the mutex with a list that is out of date and the
addresses are still those of the list (`run_showsNewest`).
-/

namespace AetherBond.Control

open AetherBond.Lib

/-! ## The operating system -/

/-- `net.Addr`: an `*net.IPNet`, or something else. -/
inductive Addr
  | ipNet (ip : Bytes)
  | other
  deriving DecidableEq

/-- An interface as the operating system knows it, with the bits of its flags. -/
structure OsInterface where
  name : String
  flags : Nat
  addrs : List Addr
  deriving DecidableEq

/-- The interfaces of the operating system, by their index. -/
abbrev OsTable := Dict Nat OsInterface

/-- `net.Interface`. -/
structure Interface where
  index : Nat
  name : String
  flags : Nat
  deriving DecidableEq

/-- `net.FlagUp`. -/
def flagUp : Nat := 1

/-- `net.FlagLoopback`. -/
def flagLoopback : Nat := 4

/-- One interface of the list. -/
def listed (e : Nat × OsInterface) : Interface := ⟨e.1, e.2.name, e.2.flags⟩

/-- `net.Interfaces()`. -/
def interfaces (os : OsTable) : List Interface := os.entries.map listed

/-- `iface.Addrs()` by the index; an interface that is gone has no addresses. -/
def addrsOf (os : OsTable) (index : Nat) : List Addr :=
  ((os.get? index).map OsInterface.addrs).getD []

/-- `ip.To4()`. -/
def to4 (ip : Bytes) : Option Bytes :=
  if ip.length = 4 then some ip
  else if ip.length = 16 ∧ ip.take 12 = List.replicate 10 0 ++ [0xff, 0xff] then some (ip.drop 12)
  else none

/-- The IPv4 address of an address, if it is one. -/
def Addr.ip4 : Addr → Option Bytes
  | .ipNet ip => to4 ip
  | .other => none

/-! ## The source -/

/-- `LinkState`. -/
structure LinkState where
  name : String
  ip : String
  isOnline : Bool
  checkedAt : Nat
  deriving DecidableEq

/-- The links of the monitor, by name. -/
abbrev Links := Dict String LinkState

/-- The first IPv4 address, where the loop over the addresses breaks. -/
def firstIP4 (addrs : List Addr) : Option Bytes := addrs.findSome? Addr.ip4

/-- The interface is passed over before its addresses are asked for. -/
def Interface.Ignored (iface : Interface) : Prop :=
  iface.flags &&& flagLoopback ≠ 0 ∨ iface.flags &&& flagUp = 0

instance (iface : Interface) : Decidable iface.Ignored := inferInstanceAs (Decidable (_ ∨ _))

/-- The link `name` is online at `ip`. -/
def recordLink (links : Links) (name ip : String) (now : Nat) : Links :=
  match links.get? name with
  | some state => links.set name { state with ip := ip, isOnline := true, checkedAt := now }
  | none => links.set name ⟨name, ip, true, now⟩

/-- The body of the loop over the interfaces, with `activeNames`; `addrs` is `none` if the
addresses cannot be had. -/
def scanInterface (links : Links) (activeNames : List String) (iface : Interface)
    (addrs : Option (List Addr)) (now : Nat) : Links × List String :=
  if iface.Ignored then (links, activeNames)
  else
    match addrs.bind firstIP4 with
    | none => (links, activeNames)
    | some ip4 => (recordLink links iface.name (ipString ip4) now, iface.name :: activeNames)

/-- The link after the last loop: offline if it is not active. -/
def flagLink (activeNames : List String) (now : Nat) (name : String) (state : LinkState) :
    LinkState :=
  if name ∉ activeNames ∧ state.isOnline then
    { state with isOnline := false, checkedAt := now }
  else state

/-- "Flag dropped interfaces". -/
def flagDropped (links : Links) (activeNames : List String) (now : Nat) : Links :=
  links.map (flagLink activeNames now)

/-- `GetLinks`. -/
def getLinks (links : Links) : List LinkState := links.values

/-! ## The goroutines -/

/-- The callers of `scanInterfaces`. -/
inductive Goroutine
  | poller
  | netlink
  deriving DecidableEq

def Goroutine.other : Goroutine → Goroutine
  | .poller => .netlink
  | .netlink => .poller

theorem Goroutine.other_ne (g : Goroutine) : g.other ≠ g := by
  cases g <;> decide

/-- Where a goroutine is in `scanInterfaces`: outside, before the mutex with its list, or in the
loop with what is left of it. The number of the list is history. -/
inductive Scan
  | idle
  | waiting (list : Nat) (ifaces : List Interface)
  | sweeping (list : Nat) (ifaces : List Interface) (activeNames : List String)
  deriving DecidableEq

/-- `InterfaceMonitor` and the operating system. `mutex` is who holds the mutex for writing. -/
structure InterfaceMonitor where
  os : OsTable
  links : Links
  mutex : Option Goroutine
  scan : Goroutine → Scan
  lists : List OsTable
  applied : Option Nat

namespace InterfaceMonitor

/-- Before the first scan. -/
def new (os : OsTable) : InterfaceMonitor where
  os := os
  links := .empty
  mutex := none
  scan := fun _ => .idle
  lists := []
  applied := none

inductive Event
  /-- The operating system changes. -/
  | change (os : OsTable)
  /-- `net.Interfaces()`, without an error if `ok`. -/
  | list (g : Goroutine) (ok : Bool)
  /-- `im.mu.Lock()`. -/
  | lock (g : Goroutine)
  /-- The next interface of the loop; `iface.Addrs()` answers if `ok`. -/
  | iface (g : Goroutine) (ok : Bool) (now : Nat)
  /-- The dropped interfaces, and `im.mu.Unlock()`. -/
  | finish (g : Goroutine) (now : Nat)

def setScan (s : InterfaceMonitor) (g : Goroutine) (scan : Scan) : InterfaceMonitor :=
  { s with scan := Function.update s.scan g scan }

def step (s : InterfaceMonitor) : Event → Option InterfaceMonitor
  | .change os => some { s with os := os }
  | .list g ok =>
      match s.scan g with
      | .idle =>
          -- without a list the scan is over
          if ok then
            some { s.setScan g (.waiting s.lists.length (interfaces s.os)) with
              lists := s.lists ++ [s.os] }
          else some s
      | _ => none
  | .lock g =>
      match s.scan g, s.mutex with
      | .waiting list ifaces, none =>
          -- the list is not taken again under the mutex
          some { s.setScan g (.sweeping list ifaces []) with mutex := some g, applied := some list }
      | _, _ => none
  | .iface g ok now =>
      match s.scan g with
      | .sweeping list (iface :: rest) activeNames =>
          -- the addresses are those of now, not of when the list was taken
          let addrs := if ok then some (addrsOf s.os iface.index) else none
          let out := scanInterface s.links activeNames iface addrs now
          some { s.setScan g (.sweeping list rest out.2) with links := out.1 }
      | _ => none
  | .finish g now =>
      match s.scan g with
      | .sweeping _ [] activeNames =>
          some { s.setScan g .idle with
            links := flagDropped s.links activeNames now
            mutex := none }
      | _ => none

/-! ## What the links should show -/

/-- One of the addresses is an IPv4 address. -/
def HasIP4 (addrs : List Addr) : Prop := ∃ a ∈ addrs, a.ip4.isSome

instance (addrs : List Addr) : Decidable (HasIP4 addrs) :=
  inferInstanceAs (Decidable (∃ a ∈ addrs, _))

/-- The interface is up, not loopback and has an IPv4 address. -/
def Usable (i : OsInterface) : Prop :=
  i.flags &&& flagUp ≠ 0 ∧ i.flags &&& flagLoopback = 0 ∧ HasIP4 i.addrs

instance (i : OsInterface) : Decidable (Usable i) := inferInstanceAs (Decidable (_ ∧ _ ∧ _))

/-- There is a usable interface of this name. -/
def UsableName (entries : List (Nat × OsInterface)) (name : String) : Prop :=
  ∃ e ∈ entries, e.2.name = name ∧ Usable e.2

/-- The names of the usable interfaces. -/
def usableNames (entries : List (Nat × OsInterface)) : List String :=
  (entries.filter fun e => Usable e.2).map fun e => e.2.name

/-- There is a link of this name, and it is online. -/
def Online (links : Links) (name : String) : Prop :=
  ∃ link ∈ getLinks links, link.name = name ∧ link.isOnline

/-- If no scan is under way, the links that are online are the usable interfaces of the newest
list. -/
def ShowsNewest (s : InterfaceMonitor) : Prop :=
  (∀ g, s.scan g = .idle) → ∀ os, s.lists.getLast? = some os →
    ∀ name, Online s.links name ↔ UsableName os.entries name

/-- The same interfaces are usable in both tables. -/
def SameUsable (os os' : OsTable) : Prop :=
  (∀ name ∈ usableNames os.entries, name ∈ usableNames os'.entries) ∧
    ∀ name ∈ usableNames os'.entries, name ∈ usableNames os.entries

instance (os os' : OsTable) : Decidable (SameUsable os os') :=
  inferInstanceAs (Decidable (_ ∧ _))

/-- The goroutine waits for the mutex with the newest list. -/
def waitsNewest (s : InterfaceMonitor) (g : Goroutine) : Bool :=
  match s.scan g with
  | .waiting list _ => list + 1 = s.lists.length
  | _ => false

/-- What a scan brings to the mutex is up to date: the newest list has the same usable interfaces,
or is still waiting for its turn. -/
def UpToDate (s : InterfaceMonitor) (g : Goroutine) : Scan → Prop
  | .waiting list _ => s.waitsNewest g.other ∨
      ∀ os ∈ s.lists[list]?, ∀ newest ∈ s.lists.getLast?, SameUsable os newest
  | .idle => True
  | .sweeping _ _ _ => True

/-- The addresses that the next interface of the loop is found to have, if it is asked for them,
are an IPv4 address exactly if it had one in the list. -/
def AsListed (s : InterfaceMonitor) (ok : Bool) : Scan → Prop
  | .sweeping list (iface :: _) _ =>
      iface.Ignored ∨ ∀ os ∈ s.lists[list]?,
        (ok ∧ HasIP4 (addrsOf s.os iface.index) ↔ HasIP4 (addrsOf os iface.index))
  | .sweeping _ [] _ => True
  | .idle => True
  | .waiting _ _ => True

/-- The condition on a step: the mutex is not taken with a list that is out of date, and the
addresses are still those of the list. -/
def Ordered (s : InterfaceMonitor) : Event → Prop
  | .lock g => UpToDate s g (s.scan g)
  | .iface g ok _ => AsListed s ok (s.scan g)
  | .change _ => True
  | .list _ _ => True
  | .finish _ _ => True

instance (s : InterfaceMonitor) (g : Goroutine) : ∀ scan, Decidable (s.UpToDate g scan)
  | .waiting _ _ => inferInstanceAs (Decidable (_ ∨ ∀ os ∈ _, ∀ newest ∈ _, SameUsable os newest))
  | .idle => isTrue trivial
  | .sweeping _ _ _ => isTrue trivial

instance (s : InterfaceMonitor) (ok : Bool) : ∀ scan, Decidable (s.AsListed ok scan)
  | .sweeping _ (_ :: _) _ => inferInstanceAs (Decidable (_ ∨ ∀ os ∈ _, (_ ↔ _)))
  | .sweeping _ [] _ => isTrue trivial
  | .idle => isTrue trivial
  | .waiting _ _ => isTrue trivial

instance (s : InterfaceMonitor) : ∀ e, Decidable (s.Ordered e)
  | .lock g => inferInstanceAs (Decidable (s.UpToDate g (s.scan g)))
  | .iface g ok _ => inferInstanceAs (Decidable (s.AsListed ok (s.scan g)))
  | .change _ => isTrue trivial
  | .list _ _ => isTrue trivial
  | .finish _ _ => isTrue trivial

variable {s s' : InterfaceMonitor} {links : Links} {name : String} {os : OsTable}
  {activeNames : List String} {iface : Interface} {now : Nat}

/-- What a step can do. -/
inductive Move (s : InterfaceMonitor) : Event → InterfaceMonitor → Prop
  | change (os : OsTable) : Move s (.change os) { s with os := os }
  | noList {g : Goroutine} : s.scan g = .idle → Move s (.list g false) s
  | list {g : Goroutine} : s.scan g = .idle → Move s (.list g true)
      { s.setScan g (.waiting s.lists.length (interfaces s.os)) with lists := s.lists ++ [s.os] }
  | lock {g : Goroutine} {list : Nat} {ifaces : List Interface} :
      s.scan g = .waiting list ifaces → s.mutex = none → Move s (.lock g)
        { s.setScan g (.sweeping list ifaces []) with mutex := some g, applied := some list }
  | iface {g : Goroutine} {list : Nat} {iface : Interface} {rest : List Interface}
      {activeNames : List String} (ok : Bool) (now : Nat) :
      s.scan g = .sweeping list (iface :: rest) activeNames → Move s (.iface g ok now)
        { s.setScan g (.sweeping list rest
            (scanInterface s.links activeNames iface
              (if ok then some (addrsOf s.os iface.index) else none) now).2) with
          links := (scanInterface s.links activeNames iface
            (if ok then some (addrsOf s.os iface.index) else none) now).1 }
  | finish {g : Goroutine} {list : Nat} {activeNames : List String} (now : Nat) :
      s.scan g = .sweeping list [] activeNames → Move s (.finish g now)
        { s.setScan g .idle with links := flagDropped s.links activeNames now, mutex := none }

/-- A step does one of these things. -/
theorem step_move {e : Event} (hstep : s.step e = some s') : Move s e s' := by
  cases e with
  | change os =>
      obtain rfl := Option.some.inj hstep
      exact .change os
  | list g ok =>
      unfold InterfaceMonitor.step at hstep
      cases hg : s.scan g with
      | waiting list ifaces => simp [hg] at hstep
      | sweeping list ifaces activeNames => simp [hg] at hstep
      | idle =>
          simp only [hg] at hstep
          cases ok with
          | false =>
              obtain rfl := Option.some.inj hstep
              exact .noList hg
          | true =>
              obtain rfl := Option.some.inj hstep
              exact .list hg
  | lock g =>
      unfold InterfaceMonitor.step at hstep
      cases hg : s.scan g with
      | idle => simp [hg] at hstep
      | sweeping list ifaces activeNames => simp [hg] at hstep
      | waiting list ifaces =>
          cases hmutex : s.mutex with
          | some k => simp [hg, hmutex] at hstep
          | none =>
              simp only [hg, hmutex] at hstep
              obtain rfl := Option.some.inj hstep
              exact .lock hg hmutex
  | iface g ok now =>
      unfold InterfaceMonitor.step at hstep
      cases hg : s.scan g with
      | idle => simp [hg] at hstep
      | waiting list ifaces => simp [hg] at hstep
      | sweeping list ifaces activeNames =>
          cases ifaces with
          | nil => simp [hg] at hstep
          | cons iface ifaces =>
              simp only [hg] at hstep
              obtain rfl := Option.some.inj hstep
              exact .iface ok now hg
  | finish g now =>
      unfold InterfaceMonitor.step at hstep
      cases hg : s.scan g with
      | idle => simp [hg] at hstep
      | waiting list ifaces => simp [hg] at hstep
      | sweeping list ifaces activeNames =>
          cases ifaces with
          | cons iface ifaces => simp [hg] at hstep
          | nil =>
              simp only [hg] at hstep
              obtain rfl := Option.some.inj hstep
              exact .finish now hg

/-! ## One sweep -/

/-- The state of the link of this name is online. -/
def OnlineAt (links : Links) (name : String) : Prop :=
  ∃ state, links.get? name = some state ∧ state.isOnline

/-- Every link has the name it is filed under. -/
def Named (links : Links) : Prop :=
  ∀ name state, links.get? name = some state → state.name = name

theorem online_iff (h : Named links) : Online links name ↔ OnlineAt links name := by
  constructor
  · rintro ⟨link, hlink, hname, honline⟩
    obtain ⟨k, hk⟩ := Dict.mem_values.mp hlink
    rw [← hname, h k link hk]
    exact ⟨link, hk, honline⟩
  · rintro ⟨state, hstate, honline⟩
    exact ⟨state, Dict.mem_values.mpr ⟨name, hstate⟩, h name state hstate, honline⟩

theorem firstIP4_isSome (addrs : List Addr) : (firstIP4 addrs).isSome ↔ HasIP4 addrs := by
  unfold firstIP4 HasIP4
  rw [List.findSome?_isSome_iff]

theorem get?_recordLink (links : Links) (name ip : String) (now : Nat) :
    ∃ state : LinkState, state.isOnline ∧ (Named links → state.name = name) ∧
      ∀ k, (recordLink links name ip now).get? k = if k = name then some state
        else links.get? k := by
  unfold recordLink
  cases h : links.get? name with
  | none => exact ⟨⟨name, ip, true, now⟩, rfl, fun _ => rfl, fun k => Dict.get?_set _ _ _ _⟩
  | some state =>
      exact ⟨{ state with ip := ip, isOnline := true, checkedAt := now }, rfl,
        fun hnamed => hnamed name state h, fun k => Dict.get?_set _ _ _ _⟩

/-- After the loop over `done`: the active names are those of the usable interfaces, and their
links are online. -/
structure Swept (done : List (Nat × OsInterface)) (links : Links) (activeNames : List String) :
    Prop where
  active : ∀ name, name ∈ activeNames ↔ UsableName done name
  online : ∀ name ∈ activeNames, OnlineAt links name

theorem Swept.nil (links : Links) : Swept [] links [] where
  active := fun _ => ⟨fun h => (nomatch h), fun ⟨_, h, _⟩ => (nomatch h)⟩
  online := fun _ h => nomatch h

theorem mem_usableNames {entries : List (Nat × OsInterface)} :
    name ∈ usableNames entries ↔ UsableName entries name := by
  unfold usableNames UsableName
  rw [List.mem_map]
  refine exists_congr fun e => ?_
  rw [List.mem_filter, decide_eq_true_iff, and_assoc]
  exact and_congr_right fun _ => and_comm

theorem usableName_concat (done : List (Nat × OsInterface)) (e : Nat × OsInterface) :
    UsableName (done ++ [e]) name ↔ UsableName done name ∨ e.2.name = name ∧ Usable e.2 := by
  unfold UsableName
  simp only [List.mem_append, List.mem_singleton, or_and_right, exists_or, exists_eq_left]

/-- What the loop body does: nothing for an interface that is not usable as far as it can tell;
otherwise the name is active and its link online. -/
theorem scanInterface_cases (links : Links) (activeNames : List String) (iface : Interface)
    (addrs : Option (List Addr)) (now : Nat) :
    ((iface.Ignored ∨ ∀ l ∈ addrs, ¬ HasIP4 l) ∧
        scanInterface links activeNames iface addrs now = (links, activeNames)) ∨
      ¬ iface.Ignored ∧ (∃ l ∈ addrs, HasIP4 l) ∧ ∃ ip,
        scanInterface links activeNames iface addrs now =
          (recordLink links iface.name ip now, iface.name :: activeNames) := by
  unfold scanInterface
  by_cases hignored : iface.Ignored
  · exact .inl ⟨.inl hignored, if_pos hignored⟩
  rw [if_neg hignored]
  cases addrs with
  | none => exact .inl ⟨.inr fun l hl => (nomatch hl), rfl⟩
  | some l =>
      have hsome := firstIP4_isSome l
      cases hfirst : firstIP4 l with
      | none =>
          rw [hfirst] at hsome
          refine .inl ⟨.inr fun l' hl' h => ?_, by simp [hfirst]⟩
          obtain rfl : l = l' := Option.some.inj hl'
          nomatch hsome.mpr h
      | some ip =>
          rw [hfirst] at hsome
          exact .inr ⟨hignored, ⟨l, rfl, hsome.mp rfl⟩, ipString ip, by simp [hfirst]⟩

/-- The loop body keeps the names of the links. -/
theorem Named.scanInterface (h : Named links) (addrs : Option (List Addr)) :
    Named (scanInterface links activeNames iface addrs now).1 := by
  obtain ⟨_, hout⟩ | ⟨_, _, ip, hout⟩ := scanInterface_cases links activeNames iface addrs now
  · rw [hout]
    exact h
  · rw [hout]
    obtain ⟨state, _, hname, hget⟩ := get?_recordLink links iface.name ip now
    intro k state' hk
    rw [hget] at hk
    split_ifs at hk with heq
    · rw [← Option.some.inj hk, hname h, heq]
    · exact h k state' hk

/-- The loop body brings the links up to one more interface of the list. -/
theorem Swept.scanInterface {done : List (Nat × OsInterface)} {e : Nat × OsInterface}
    (h : Swept done links activeNames) (addrs : Option (List Addr))
    (hsame : (listed e).Ignored ∨ ((∃ l ∈ addrs, HasIP4 l) ↔ HasIP4 e.2.addrs)) :
    Swept (done ++ [e]) (scanInterface links activeNames (listed e) addrs now).1
      (scanInterface links activeNames (listed e) addrs now).2 := by
  obtain ⟨hnot, hout⟩ | ⟨hnot, hhas, ip, hout⟩ :=
    scanInterface_cases links activeNames (listed e) addrs now
  · rw [hout]
    constructor
    case online => exact h.online
    case active =>
      intro name
      rw [usableName_concat, h.active]
      refine ⟨.inl, fun h' => h'.resolve_right fun ⟨_, hup, hloop, hip⟩ => ?_⟩
      have hnotignored : ¬ (listed e).Ignored := fun hi => hi.elim (fun hi => hi hloop) hup
      obtain ⟨l, hl, hhas⟩ := (hsame.resolve_left hnotignored).mpr hip
      exact (hnot.resolve_left hnotignored) l hl hhas
  · rw [hout]
    have husable : Usable e.2 :=
      ⟨fun hup => hnot (.inr hup), by_contra fun hloop => hnot (.inl hloop),
        (hsame.resolve_left hnot).mp hhas⟩
    obtain ⟨state, honline, _, hget⟩ := get?_recordLink links (listed e).name ip now
    constructor
    case active =>
      intro name
      rw [usableName_concat, List.mem_cons, h.active, or_comm]
      exact or_congr_right ⟨fun hname => ⟨hname.symm, husable⟩, fun hname => hname.1.symm⟩
    case online =>
      intro name hname
      unfold OnlineAt
      rw [hget]
      by_cases heq : name = (listed e).name
      · rw [if_pos heq]
        exact ⟨state, rfl, honline⟩
      · rw [if_neg heq]
        exact h.online name ((List.mem_cons.mp hname).resolve_left heq)

theorem get?_flagDropped (links : Links) (activeNames : List String) (now : Nat) (name : String) :
    (flagDropped links activeNames now).get? name =
      (links.get? name).map (flagLink activeNames now name) := Dict.get?_map _ _ _

theorem Named.flagDropped (h : Named links) : Named (flagDropped links activeNames now) := by
  intro name state hget
  rw [get?_flagDropped] at hget
  obtain ⟨old, hold, rfl⟩ := Option.map_eq_some_iff.mp hget
  unfold flagLink
  split_ifs
  · exact h name old hold
  · exact h name old hold

/-- **After the sweep** the links that are online are the usable interfaces of the list. -/
theorem Swept.flagDropped (h : Swept os.entries links activeNames) :
    OnlineAt (flagDropped links activeNames now) name ↔ UsableName os.entries name := by
  rw [← h.active]
  unfold OnlineAt
  rw [get?_flagDropped]
  constructor
  · rintro ⟨state, hstate, honline⟩
    obtain ⟨old, _, rfl⟩ := Option.map_eq_some_iff.mp hstate
    by_contra hnot
    unfold flagLink at honline
    by_cases hdrop : name ∉ activeNames ∧ old.isOnline
    · rw [if_pos hdrop] at honline
      nomatch honline
    · rw [if_neg hdrop] at honline
      exact hdrop ⟨hnot, honline⟩
  · intro hactive
    obtain ⟨state, hstate, honline⟩ := h.online name hactive
    refine ⟨flagLink activeNames now name state, by rw [hstate]; rfl, ?_⟩
    unfold flagLink
    rw [if_neg fun hdrop => hdrop.1 hactive]
    exact honline

/-! ## The invariant -/

/-- What one goroutine has done so far with the list it scans. -/
def Progress (s : InterfaceMonitor) (g : Goroutine) : Scan → Prop
  | .idle => True
  | .waiting list ifaces => ∃ os, s.lists[list]? = some os ∧ ifaces = interfaces os
  | .sweeping list ifaces activeNames =>
      s.mutex = some g ∧ s.applied = some list ∧ ∃ os done rest, s.lists[list]? = some os ∧
        os.entries = done ++ rest ∧ ifaces = rest.map listed ∧ Swept done s.links activeNames

/-- The lists have the same usable interfaces. -/
def Agree (s : InterfaceMonitor) (list list' : Nat) : Prop :=
  ∃ os os', s.lists[list]? = some os ∧ s.lists[list']? = some os' ∧
    ∀ name, UsableName os.entries name ↔ UsableName os'.entries name

/-- The invariant of the monitor: who holds the mutex is in the loop, the links show the list
that was applied last once the mutex is free, and the newest list agrees with that list or is
waiting to be applied. -/
structure Fresh (s : InterfaceMonitor) : Prop where
  named : Named s.links
  progress : ∀ g, s.Progress g (s.scan g)
  owner : ∀ g, s.mutex = some g →
    ∃ list ifaces activeNames, s.scan g = .sweeping list ifaces activeNames
  shown : s.mutex = none → ∀ list, s.applied = some list →
    ∃ os, s.lists[list]? = some os ∧ ∀ name, OnlineAt s.links name ↔ UsableName os.entries name
  newest : ∀ last, s.lists.length = last + 1 →
    (∃ list, s.applied = some list ∧ s.Agree list last) ∨
      ∃ g ifaces, s.scan g = .waiting last ifaces

theorem new_fresh (os : OsTable) : Fresh (new os) where
  named := fun _ _ h => nomatch h
  progress := fun _ => trivial
  owner := fun _ h => nomatch h
  shown := fun _ _ h => nomatch h
  newest := fun _ h => nomatch h

theorem scan_setScan (s : InterfaceMonitor) (g k : Goroutine) (scan : Scan) :
    (s.setScan g scan).scan k = if k = g then scan else s.scan k := by
  show Function.update s.scan g scan k = _
  rw [Function.update_apply]

/-- Who does not hold the mutex is outside the loop, and there only the lists matter to it. -/
theorem Progress.of_not_owner {s t : InterfaceMonitor} {k : Goroutine} {scan : Scan}
    (h : s.Progress k scan) (hmutex : s.mutex ≠ some k) (hlists : t.lists = s.lists) :
    t.Progress k scan := by
  cases scan with
  | idle => exact trivial
  | waiting list ifaces =>
      unfold Progress
      rw [hlists]
      exact h
  | sweeping list ifaces activeNames => exact absurd h.1 hmutex

theorem getElem?_lists_concat {list : Nat} (h : s.lists[list]? = some os) (os' : OsTable) :
    (s.lists ++ [os'])[list]? = some os := by
  rw [List.getElem?_append_left (List.getElem?_eq_some_iff.mp h).1]
  exact h

theorem Fresh.change (h : Fresh s) (os : OsTable) : Fresh { s with os := os } where
  named := h.named
  progress := h.progress
  owner := h.owner
  shown := h.shown
  newest := h.newest

variable {g : Goroutine} {ifaces : List Interface} {list : Nat} {ok : Bool}

/-- A list that is taken is the newest, and it is waiting. -/
theorem Fresh.takeList (h : Fresh s) (hg : s.scan g = .idle) :
    Fresh { s.setScan g (.waiting s.lists.length (interfaces s.os)) with
      lists := s.lists ++ [s.os] } := by
  have hscan := s.scan_setScan g
  constructor
  case named => exact h.named
  case progress =>
    intro k
    dsimp only
    rw [hscan]
    by_cases hk : k = g
    · rw [if_pos hk]
      exact ⟨s.os, List.getElem?_concat_length, rfl⟩
    · rw [if_neg hk]
      have hprogress := h.progress k
      -- the numbers of older lists stand for the same tables
      cases hat : s.scan k with
      | idle => exact trivial
      | waiting list ifaces =>
          rw [hat] at hprogress
          obtain ⟨os, hos, hifaces⟩ := hprogress
          exact ⟨os, getElem?_lists_concat hos _, hifaces⟩
      | sweeping list ifaces activeNames =>
          rw [hat] at hprogress
          obtain ⟨hmutex, happlied, os, done, rest, hos, hsplit⟩ := hprogress
          exact ⟨hmutex, happlied, os, done, rest, getElem?_lists_concat hos _, hsplit⟩
  case owner =>
    intro k hk
    obtain ⟨list, ifaces, activeNames, hat⟩ := h.owner k hk
    have hne : k ≠ g := by
      rintro rfl
      rw [hg] at hat
      nomatch hat
    exact ⟨list, ifaces, activeNames, by rw [hscan, if_neg hne, hat]⟩
  case shown =>
    intro hmutex list happlied
    obtain ⟨os, hos, honline⟩ := h.shown hmutex list happlied
    exact ⟨os, getElem?_lists_concat hos _, honline⟩
  case newest =>
    intro list hlength
    rw [List.length_append, List.length_singleton] at hlength
    obtain rfl : s.lists.length = list := by omega
    exact .inr ⟨g, interfaces s.os, by rw [hscan, if_pos rfl]⟩

/-- The newest list waits in one goroutine, or agrees with the one that takes the mutex. -/
theorem agree_of_upToDate (hos : s.lists[list]? = some os)
    (h : s.UpToDate g (.waiting list ifaces)) {last : Nat} (hlast : s.lists.length = last + 1) :
    s.Agree list last ∨ ∃ k ifaces', k ≠ g ∧ s.scan k = .waiting last ifaces' := by
  rcases h with hother | hsame
  · unfold waitsNewest at hother
    split at hother
    · next list' ifaces' hat =>
        obtain rfl : list' = last := by
          have := of_decide_eq_true hother
          omega
        exact .inr ⟨g.other, ifaces', g.other_ne, hat⟩
    · cases hother
  · obtain ⟨newest, hnewest⟩ : ∃ newest, s.lists[last]? = some newest :=
      ⟨_, List.getElem?_eq_getElem (by omega)⟩
    have hget : s.lists.getLast? = some newest := by
      rw [List.getLast?_eq_getElem?, hlast]
      exact hnewest
    obtain ⟨hsub, hsup⟩ := hsame os hos newest hget
    refine .inl ⟨os, newest, hos, hnewest, fun name => ?_⟩
    rw [← mem_usableNames, ← mem_usableNames]
    exact ⟨hsub name, hsup name⟩

/-- Taking the mutex with a list that is up to date. -/
theorem Fresh.takeMutex (h : Fresh s) (hg : s.scan g = .waiting list ifaces)
    (hmutex : s.mutex = none) (horder : s.UpToDate g (.waiting list ifaces)) :
    Fresh { s.setScan g (.sweeping list ifaces []) with
      mutex := some g
      applied := some list } := by
  have hscan := s.scan_setScan g
  have hprogress := h.progress g
  rw [hg] at hprogress
  obtain ⟨os, hos, hifaces⟩ := hprogress
  constructor
  case named => exact h.named
  case progress =>
    intro k
    dsimp only
    rw [hscan]
    by_cases hk : k = g
    · rw [if_pos hk, hk]
      exact ⟨rfl, rfl, os, [], os.entries, hos, rfl, hifaces, Swept.nil s.links⟩
    · rw [if_neg hk]
      exact (h.progress k).of_not_owner (by rw [hmutex]; exact fun h => nomatch h) rfl
  case owner =>
    intro k hk
    obtain rfl : g = k := Option.some.inj hk
    exact ⟨list, ifaces, [], by rw [hscan, if_pos rfl]⟩
  case shown => exact fun hfree => nomatch hfree
  case newest =>
    intro last (hlength : s.lists.length = last + 1)
    obtain hagree | ⟨k, ifaces', hk, hat⟩ := agree_of_upToDate hos horder hlength
    · exact .inl ⟨list, rfl, hagree⟩
    · exact .inr ⟨k, ifaces', by rw [hscan, if_neg hk, hat]⟩

/-- A goroutine in the loop is not the one whose list waits. -/
theorem Fresh.newest_setScan (h : Fresh s) (hg : s.scan g = .sweeping list ifaces activeNames)
    (scan : Scan) (last : Nat) (hlength : s.lists.length = last + 1) :
    (∃ list, s.applied = some list ∧ s.Agree list last) ∨
      ∃ k ifaces, (s.setScan g scan).scan k = .waiting last ifaces := by
  refine (h.newest last hlength).imp_right fun ⟨k, ifaces', hk⟩ => ⟨k, ifaces', ?_⟩
  have hne : k ≠ g := by
    rintro rfl
    rw [hg] at hk
    nomatch hk
  rw [scan_setScan, if_neg hne, hk]

/-- One interface of the loop, found as it was listed. -/
theorem Fresh.sweep (h : Fresh s)
    (hg : s.scan g = .sweeping list (iface :: ifaces) activeNames)
    (hsame : s.AsListed ok (.sweeping list (iface :: ifaces) activeNames)) (now : Nat) :
    Fresh { s.setScan g (.sweeping list ifaces
        (scanInterface s.links activeNames iface
          (if ok then some (addrsOf s.os iface.index) else none) now).2) with
      links := (scanInterface s.links activeNames iface
        (if ok then some (addrsOf s.os iface.index) else none) now).1 } := by
  have hscan := s.scan_setScan g
  have hprogress := h.progress g
  rw [hg] at hprogress
  obtain ⟨hmutex, happlied, os, done, rest, hos, hsplit, hifaces, hswept⟩ := hprogress
  obtain ⟨e, rest, rfl, rfl, rfl⟩ : ∃ e rest', rest = e :: rest' ∧ iface = listed e ∧
      ifaces = rest'.map listed := by
    cases rest with
    | nil => nomatch hifaces
    | cons e rest => exact ⟨e, rest, rfl, List.cons.inj hifaces⟩
  -- in the table of the list the interface is found by its index
  have haddrs : addrsOf os (listed e).index = e.2.addrs := by
    have hget : os.get? e.1 = some e.2 :=
      Dict.get?_eq_some_iff.mpr (by rw [hsplit]; exact List.mem_append_right _ List.mem_cons_self)
    show ((os.get? e.1).map OsInterface.addrs).getD [] = _
    rw [hget]
    rfl
  have hfound : (listed e).Ignored ∨
      ((∃ l ∈ (if ok then some (addrsOf s.os (listed e).index) else none), HasIP4 l) ↔
        HasIP4 e.2.addrs) := by
    refine hsame.imp_right fun hiff => ?_
    rw [← haddrs, ← hiff os hos]
    cases ok with
    | false => exact ⟨fun ⟨_, hl, _⟩ => (nomatch hl), fun hnot => nomatch hnot.1⟩
    | true =>
        rw [if_pos rfl]
        exact ⟨fun ⟨l, hl, hhas⟩ => ⟨rfl, by rwa [Option.some.inj hl]⟩,
          fun hhas => ⟨_, rfl, hhas.2⟩⟩
  constructor
  case named => exact h.named.scanInterface _
  case progress =>
    intro k
    dsimp only
    rw [hscan]
    by_cases hk : k = g
    · rw [if_pos hk, hk]
      exact ⟨hmutex, happlied, os, done ++ [e], rest, hos, by simp [hsplit], rfl,
        hswept.scanInterface _ hfound⟩
    · rw [if_neg hk]
      refine (h.progress k).of_not_owner (fun howner => hk ?_) rfl
      exact Option.some.inj (howner.symm.trans hmutex)
  case owner =>
    intro k hk
    obtain rfl : g = k := Option.some.inj (hmutex.symm.trans hk)
    exact ⟨list, _, _, by rw [hscan, if_pos rfl]⟩
  case shown => exact fun hfree => nomatch hmutex.symm.trans hfree
  case newest => exact h.newest_setScan hg _

/-- The end of the loop: the links show the list. -/
theorem Fresh.unlock (h : Fresh s) (hg : s.scan g = .sweeping list [] activeNames) (now : Nat) :
    Fresh { s.setScan g .idle with
      links := flagDropped s.links activeNames now
      mutex := none } := by
  have hscan := s.scan_setScan g
  have hprogress := h.progress g
  rw [hg] at hprogress
  obtain ⟨hmutex, happlied, os, done, rest, hos, hsplit, hifaces, hswept⟩ := hprogress
  obtain rfl : rest = [] := List.map_eq_nil_iff.mp hifaces.symm
  rw [List.append_nil] at hsplit
  rw [← hsplit] at hswept
  constructor
  case named => exact h.named.flagDropped
  case progress =>
    intro k
    dsimp only
    rw [hscan]
    by_cases hk : k = g
    · rw [if_pos hk]
      exact trivial
    · rw [if_neg hk]
      refine (h.progress k).of_not_owner (fun howner => hk ?_) rfl
      exact Option.some.inj (howner.symm.trans hmutex)
  case owner => exact fun _ hk => nomatch hk
  case shown =>
    intro _ list' happlied'
    obtain rfl : list = list' := Option.some.inj (happlied.symm.trans happlied')
    exact ⟨os, hos, fun name => hswept.flagDropped⟩
  case newest => exact h.newest_setScan hg _

/-- **Step lemma.** A step in order keeps the invariant. -/
theorem Fresh.step {e : Event} (h : Fresh s) (hordered : s.Ordered e) (hstep : s.step e = some s') :
    Fresh s' := by
  cases step_move hstep with
  | change os => exact h.change os
  | noList hg => exact h
  | list hg => exact h.takeList hg
  | @lock g list ifaces hg hmutex =>
      have horder : s.UpToDate g (s.scan g) := hordered
      rw [hg] at horder
      exact h.takeMutex hg hmutex horder
  | @iface g list iface rest activeNames ok now hg =>
      have hsame : s.AsListed ok (s.scan g) := hordered
      rw [hg] at hsame
      exact h.sweep hg hsame now
  | finish now hg => exact h.unlock hg now

/-! ## Runs -/

theorem Fresh.showsNewest (h : Fresh s) : ShowsNewest s := by
  intro hidle os hlast name
  -- an owner would be in the loop
  have hmutex : s.mutex = none := by
    by_contra hsome
    obtain ⟨g, hg⟩ := Option.ne_none_iff_exists'.mp hsome
    obtain ⟨list, ifaces, activeNames, hat⟩ := h.owner g hg
    nomatch (hidle g).symm.trans hat
  rw [List.getLast?_eq_getElem?] at hlast
  have hlt := (List.getElem?_eq_some_iff.mp hlast).1
  obtain ⟨list, happlied, hagree⟩ | ⟨g, ifaces, hat⟩ := h.newest (s.lists.length - 1) (by omega)
  · obtain ⟨os₁, hos₁, honline⟩ := h.shown hmutex _ happlied
    obtain ⟨os₂, os₃, hos₂, hos₃, hsame⟩ := hagree
    obtain rfl : os₁ = os₂ := Option.some.inj (hos₁.symm.trans hos₂)
    obtain rfl : os = os₃ := Option.some.inj (hlast.symm.trans hos₃)
    rw [online_iff h.named]
    exact (honline name).trans (hsame name)
  · nomatch (hidle g).symm.trans hat

/-- **Run theorem.** In a run whose scans take the mutex with lists that are up to date and find
the addresses as listed, the links show the newest list whenever no scan is under way. -/
theorem run_showsNewest (os : OsTable) (es : List Event)
    (hrun : runFrom InterfaceMonitor.step (new os) es = some s)
    (hordered : Along InterfaceMonitor.step Ordered (new os) es) : ShowsNewest s :=
  (runFrom_invariant_along (I := Fresh) (fun _ _ _ h hG hstep => h.step hG hstep) (new_fresh os)
    hordered hrun).showsNewest

/-- `eth0` without a carrier. -/
def unplugged : OsTable := ⟨[(2, ⟨"eth0", 0, [.ipNet [192, 168, 1, 10]]⟩)], by decide⟩

/-- `eth0` in use. -/
def pluggedIn : OsTable := ⟨[(2, ⟨"eth0", 1, [.ipNet [192, 168, 1, 10]]⟩)], by decide⟩

/-- The netlink goroutine takes its list during a poll, and waits for the mutex. The next poll is
overtaken by a list that says the same. -/
def waitingTurn : List Event :=
  [.list .poller true, .lock .poller, .change pluggedIn, .list .netlink true,
    .iface .poller true 1, .finish .poller 1, .lock .netlink, .iface .netlink true 2,
    .finish .netlink 2, .list .poller true, .list .netlink true, .lock .netlink,
    .iface .netlink true 3, .finish .netlink 3, .lock .poller, .iface .poller true 4,
    .finish .poller 4]

theorem run_showsNewest_waitingTurn :
    ∃ s, runFrom InterfaceMonitor.step (new unplugged) waitingTurn = some s ∧ ShowsNewest s :=
  ⟨_, rfl, run_showsNewest unplugged waitingTurn rfl (by decide +kernel)⟩

/-- The netlink goroutine takes its list after the poll and the mutex before it. -/
def overtakingScan : List Event :=
  [.list .poller true, .change pluggedIn, .list .netlink true, .lock .netlink,
    .iface .netlink true 1, .finish .netlink 1, .lock .poller, .iface .poller true 2,
    .finish .poller 2]

/-- The poll then takes `eth0` offline by a list that was out of date. -/
theorem overtaken_scan_goes_back :
    ∃ s, runFrom InterfaceMonitor.step (new unplugged) overtakingScan = some s ∧
      ¬ ShowsNewest s := by
  refine ⟨_, rfl, fun h => ?_⟩
  have husable : UsableName pluggedIn.entries "eth0" :=
    ⟨_, List.mem_singleton.mpr rfl, rfl, by decide⟩
  obtain ⟨link, hlink, _, honline⟩ :=
    (h (fun g => by cases g <;> rfl) pluggedIn rfl "eth0").mpr husable
  obtain rfl := List.mem_singleton.mp hlink
  nomatch honline

end InterfaceMonitor

end AetherBond.Control
