import AetherBond.Client.Metrics
import AetherBond.Common.Simulator

set_option autoImplicit false

/-! # The interfaces the monitor starts with

`get_active_interfaces` of `aetherbond/client/interfaces.py`, and what `PathMonitor.start`
registers. What the operating system answers is an argument, and so is `str.lower`.

A monitor that was started over the links of the simulator knows links of the simulator only
(`OverSimulator`).
-/

namespace AetherBond.Client

open AetherBond.Lib AetherBond.Common

structure InterfaceInfo where
  name : String
  ip : String
  isSimulated : Bool
  deriving DecidableEq

/-- A network adapter: whether it is up, if `net_if_stats` has it, and its addresses, with whether
each is an IPv4 one. -/
structure Adapter where
  name : String
  isUp : Option Bool
  addresses : List (Bool × String)
  deriving DecidableEq

/-- What a scan finds. -/
inductive Scan
  | adapters (adapters : List Adapter)
  /-- `psutil` raises; then the address of the host name is taken, if there is one. -/
  | raises (hostIp : Option String)
  deriving DecidableEq

/-- `ip.startswith("127.")`. -/
def isLoopbackIp (ip : String) : Bool := "127.".toList.isPrefixOf ip.toList

/-- The name, in lower case, contains "loopback" or "localhost". -/
def isLoopbackName (lowerName : String) : Bool :=
  decide ("loopback".toList <:+: lowerName.toList ∨ "localhost".toList <:+: lowerName.toList)

/-- The interfaces of one adapter. -/
def Adapter.interfaces (lower : String → String) (a : Adapter) : List InterfaceInfo :=
  if a.isUp = some false then []
  else if isLoopbackName (lower a.name) then []
  else
    a.addresses.filterMap fun x =>
      if x.1 = true ∧ isLoopbackIp x.2 = false then some ⟨a.name, x.2, false⟩ else none

/-- `get_active_interfaces`. -/
def getActiveInterfaces (simulator : LinkSimulator) (lower : String → String) (scan : Scan)
    (useSimulation : Bool) : List InterfaceInfo :=
  if useSimulation then
    simulator.interfaces.entries.filterMap fun e =>
      (simulator.objects[e.2]?).bind fun link =>
        if link.isAlive then some ⟨link.name, link.ip, true⟩ else none
  else
    match scan with
    | .adapters adapters => adapters.flatMap (Adapter.interfaces lower)
    | .raises none => []
    | .raises (some ip) => if isLoopbackIp ip then [] else [⟨"PrimaryAdapter", ip, false⟩]

variable {simulator : LinkSimulator} {lower : String → String} {scan : Scan} {i : InterfaceInfo}

/-- Simulated interfaces are live links of the simulator. -/
theorem simulated_of_mem (h : i ∈ getActiveInterfaces simulator lower scan true) :
    i.isSimulated = true ∧ ∃ o link, simulator.interfaces.get? i.ip = some o ∧
      simulator.objects[o]? = some link ∧ link.isAlive = true := by
  unfold getActiveInterfaces at h
  rw [if_pos rfl] at h
  obtain ⟨e, he, hlink⟩ := List.mem_filterMap.mp h
  obtain ⟨link, hget, halive⟩ := Option.bind_eq_some_iff.mp hlink
  split_ifs at halive with hon
  obtain rfl := Option.some.inj halive
  have hentry : simulator.interfaces.get? e.1 = some e.2 := Dict.get?_eq_some_iff.mpr he
  obtain ⟨link', hget', hip⟩ := simulator.known e.1 e.2 hentry
  obtain rfl : link = link' := Option.some.inj (hget.symm.trans hget')
  exact ⟨rfl, e.2, link, by rw [hip]; exact hentry, hget, hon⟩

/-! ## The monitor -/

namespace PathMonitor

variable {s : PathMonitor} {interfaces : List InterfaceInfo} {ip : String} {m : LinkMetrics}

/-- The registration of an interface. -/
def registration (simulator : LinkSimulator) (i : InterfaceInfo) : Event :=
  .register i.name i.ip i.isSimulated
    ((simulator.getInterface i.ip).map SimulatedInterface.bandwidthMbps)

/-- The registrations of `start`. -/
def start (s : PathMonitor) (simulator : LinkSimulator) (interfaces : List InterfaceInfo) :
    PathMonitor :=
  interfaces.foldl (fun s i => s.registerInterface i.name i.ip i.isSimulated
    ((simulator.getInterface i.ip).map SimulatedInterface.bandwidthMbps)) s

theorem start_run (fl : Rounding) (s : PathMonitor) (simulator : LinkSimulator)
    (interfaces : List InterfaceInfo) :
    runFrom (PathMonitor.step fl) s (interfaces.map (registration simulator)) =
      some (s.start simulator interfaces) := by
  induction interfaces generalizing s with
  | nil => rfl
  | cons i interfaces ih =>
      exact runFrom_cons_eq_some.mpr ⟨_, rfl, ih _⟩

/-- What is registered has the kind of one of the interfaces. -/
theorem start_mem (h : (start .new simulator interfaces).metrics.get? ip = some m) :
    ∃ i ∈ interfaces, i.ip = ip ∧ m.isSimulated = i.isSimulated := by
  -- the list grows at its end
  induction interfaces using List.reverseRecOn generalizing m with
  | nil => cases h
  | append_singleton interfaces i ih =>
      have hold : (start .new simulator interfaces).metrics.get? ip = some m →
          ∃ j ∈ interfaces ++ [i], j.ip = ip ∧ m.isSimulated = j.isSimulated := by
        intro hget
        obtain ⟨j, hj, hip, hsim⟩ := ih hget
        exact ⟨j, List.mem_append_left _ hj, hip, hsim⟩
      unfold start at h
      rw [List.foldl_append, List.foldl_cons, List.foldl_nil] at h
      unfold registerInterface at h
      split at h
      · exact hold h
      · obtain ⟨rfl, rfl⟩ | ⟨-, hget⟩ := Dict.get?_set_cases h
        · exact ⟨i, List.mem_append_right _ (List.mem_singleton_self i), rfl, rfl⟩
        · exact hold hget

/-- The monitor watches links of the simulator only. -/
def OverSimulator (simulator : LinkSimulator) (s : PathMonitor) : Prop :=
  ∀ ip m, s.metrics.get? ip = some m →
    m.isSimulated = true ∧ ∃ o, simulator.interfaces.get? ip = some o

theorem start_overSimulator (simulator : LinkSimulator) (lower : String → String) (scan : Scan) :
    (start .new simulator (getActiveInterfaces simulator lower scan true)).OverSimulator
      simulator := by
  intro ip m hget
  obtain ⟨i, hi, rfl, hsim⟩ := start_mem hget
  obtain ⟨hkind, o, -, hentry, -⟩ := simulated_of_mem hi
  exact ⟨hsim.trans hkind, o, hentry⟩

end PathMonitor

end AetherBond.Client
