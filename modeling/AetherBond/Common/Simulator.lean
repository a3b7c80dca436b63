import AetherBond.Lib.Dict
import AetherBond.Lib.Rounding

set_option autoImplicit false

/-! # The link simulator

`SimulatedInterface` and `LinkSimulator` of `aetherbond/common/simulator.py`. A transfer keeps a
reference to its link across `asyncio.sleep`, so the links are objects, named by their index, and
the dictionary refers to them. The random numbers and the clock are arguments.

`windows` is history that no code reads: the bytes and the length of each interval a speed was
computed for. Every byte of a link is in one of them or in the current interval (`Metered`).
-/

namespace AetherBond.Common

open AetherBond.Lib

/-! ## One link -/

structure SimulatedInterface where
  name : String
  ip : String
  bandwidthMbps : ℚ
  latencyMs : ℚ
  lossRate : ℚ
  isAlive : Bool
  totalBytesTransferred : Nat
  currentSpeedBps : ℚ
  lastSpeedUpdate : ℚ
  intervalBytes : Nat
  windows : List (Nat × ℚ)
  deriving DecidableEq

namespace SimulatedInterface

/-- `__init__`. -/
def new (name ip : String) (bandwidthMbps latencyMs lossRate now : ℚ) : SimulatedInterface where
  name := name
  ip := ip
  bandwidthMbps := bandwidthMbps
  latencyMs := latencyMs
  lossRate := lossRate
  isAlive := true
  totalBytesTransferred := 0
  currentSpeedBps := 0
  lastSpeedUpdate := now
  intervalBytes := 0
  windows := []

variable (fl : Rounding)

/-- `get_bandwidth_bps`, in bytes per second. -/
def getBandwidthBps (link : SimulatedInterface) : ℚ :=
  fl.round (fl.round (link.bandwidthMbps * 1000000) / 8)

/-- `update_bytes`. -/
def updateBytes (link : SimulatedInterface) (numBytes : Nat) (now : ℚ) : SimulatedInterface :=
  let total := link.totalBytesTransferred + numBytes
  let interval := link.intervalBytes + numBytes
  let elapsed := fl.round (now - link.lastSpeedUpdate)
  if 1 ≤ elapsed then
    { link with
      totalBytesTransferred := total
      currentSpeedBps := fl.round (interval / elapsed)
      lastSpeedUpdate := now
      intervalBytes := 0
      windows := link.windows ++ [(interval, elapsed)] }
  else { link with totalBytesTransferred := total, intervalBytes := interval }

/-- `toggle`. -/
def toggle (link : SimulatedInterface) (state : Option Bool) : SimulatedInterface :=
  { link with isAlive := state.getD (!link.isAlive) }

/-- The total is that of the windows and of the current interval, a window is a second at least,
and the speed is that of the last one. -/
structure Metered (link : SimulatedInterface) : Prop where
  total : link.totalBytesTransferred = (link.windows.map Prod.fst).sum + link.intervalBytes
  second : ∀ x ∈ link.windows, 1 ≤ x.2
  speed : link.currentSpeedBps =
    (link.windows.getLast?.elim 0 fun x => fl.round (x.1 / x.2))

variable {fl} {link : SimulatedInterface}

theorem new_metered (name ip : String) (bandwidthMbps latencyMs lossRate now : ℚ) :
    (new name ip bandwidthMbps latencyMs lossRate now).Metered fl :=
  ⟨rfl, by simp [new], rfl⟩

theorem Metered.updateBytes (h : link.Metered fl) (numBytes : Nat) (now : ℚ) :
    (link.updateBytes fl numBytes now).Metered fl := by
  have htotal := h.total
  unfold SimulatedInterface.updateBytes
  dsimp only
  split_ifs with helapsed
  · refine ⟨?_, fun x hx => ?_, ?_⟩
    · simp only [List.map_append, List.sum_append, List.map_cons, List.map_nil, List.sum_cons,
        List.sum_nil]
      omega
    · rcases List.mem_append.mp hx with hx | hx
      · exact h.second x hx
      · rw [List.mem_singleton.mp hx]
        exact helapsed
    · simp
  · exact ⟨by dsimp only; omega, h.second, h.speed⟩

theorem Metered.toggle (h : link.Metered fl) (state : Option Bool) :
    (link.toggle state).Metered fl :=
  ⟨h.total, h.second, h.speed⟩

@[simp] theorem updateBytes_ip (numBytes : Nat) (now : ℚ) :
    (link.updateBytes fl numBytes now).ip = link.ip := by
  unfold updateBytes
  dsimp only
  split_ifs <;> rfl

@[simp] theorem updateBytes_isAlive (numBytes : Nat) (now : ℚ) :
    (link.updateBytes fl numBytes now).isAlive = link.isAlive := by
  unfold updateBytes
  dsimp only
  split_ifs <;> rfl

@[simp] theorem updateBytes_total (numBytes : Nat) (now : ℚ) :
    (link.updateBytes fl numBytes now).totalBytesTransferred =
      link.totalBytesTransferred + numBytes := by
  unfold updateBytes
  dsimp only
  split_ifs <;> rfl

@[simp] theorem toggle_ip (state : Option Bool) : (link.toggle state).ip = link.ip := rfl

@[simp] theorem toggle_total (state : Option Bool) :
    (link.toggle state).totalBytesTransferred = link.totalBytesTransferred := rfl

end SimulatedInterface

/-! ## The registry -/

/-- The dictionary refers to an object with its address. -/
structure LinkSimulator where
  objects : List SimulatedInterface
  interfaces : Dict String Nat
  isEnabled : Bool
  known : ∀ ip o, interfaces.get? ip = some o → ∃ link, objects[o]? = some link ∧ link.ip = ip

/-- What the simulator raises. -/
inductive LinkError
  /-- `ConnectionResetError`. -/
  | down (name ip : String)
  /-- `OSError`. -/
  | loss (name ip : String)
  /-- `ZeroDivisionError`. -/
  | zeroBandwidth
  deriving DecidableEq

def LinkError.message : LinkError → String
  | .down name ip => "Simulated link " ++ name ++ " (" ++ ip ++ ") is down."
  | .loss name ip => "Simulated packet loss on link " ++ name ++ " (" ++ ip ++ ")."
  | .zeroBandwidth => "Simulated interface bandwidth is set to zero."

/-- How an `async` function gets to its `asyncio.sleep`, if it does, and what it keeps. -/
inductive Wait (α : Type)
  | returns
  | raises (error : LinkError)
  | sleeps (kept : α) (seconds : ℚ)
  deriving DecidableEq

namespace LinkSimulator

/-- `__init__`. -/
def new : LinkSimulator := ⟨[], .empty, false, by simp⟩

/-- `add_interface`; transfers over a link of that address keep the old one. -/
def addInterface (s : LinkSimulator) (name ip : String)
    (bandwidthMbps latencyMs lossRate now : ℚ) : LinkSimulator where
  objects := s.objects ++ [.new name ip bandwidthMbps latencyMs lossRate now]
  interfaces := s.interfaces.set ip s.objects.length
  isEnabled := s.isEnabled
  known := by
    refine Dict.forall_get?_set ⟨_, List.getElem?_concat_length, rfl⟩ fun k o _ hold => ?_
    obtain ⟨link, hlink, hip⟩ := s.known k o hold
    have hlt := (List.getElem?_eq_some_iff.mp hlink).1
    exact ⟨link, (List.getElem?_append_left hlt).trans hlink, hip⟩

/-- `get_interface`. -/
def getInterface (s : LinkSimulator) (ip : String) : Option SimulatedInterface :=
  (s.interfaces.get? ip).bind fun o => s.objects[o]?

def enable (s : LinkSimulator) : LinkSimulator := { s with isEnabled := true }

def disable (s : LinkSimulator) : LinkSimulator := { s with isEnabled := false }

/-- A method of the object `o` is called. -/
def modifyLink (s : LinkSimulator) (o : Nat) (f : SimulatedInterface → SimulatedInterface)
    (hf : ∀ link, (f link).ip = link.ip) : LinkSimulator where
  objects := s.objects.modify o f
  interfaces := s.interfaces
  isEnabled := s.isEnabled
  known ip o' hentry := by
    obtain ⟨link, hlink, hip⟩ := s.known ip o' hentry
    rw [List.getElem?_modify, hlink]
    by_cases heq : o = o'
    · exact ⟨f link, by simp [heq], (hf link).trans hip⟩
    · exact ⟨link, by simp [heq], hip⟩

/-- `toggle` of the link at an address, if there is one. -/
def toggle (s : LinkSimulator) (ip : String) (state : Option Bool) : LinkSimulator :=
  match s.interfaces.get? ip with
  | none => s
  | some o => s.modifyLink o (·.toggle state) fun _ => rfl

variable (fl : Rounding)

/-- `simulate_delay` up to its sleep; `roll` is what `random.random()` returns and `uniform` what
`random.uniform(-0.1, 0.1)` does. -/
def simulateDelay (s : LinkSimulator) (ip : String) (roll uniform : ℚ) : Wait Unit :=
  if s.isEnabled then
    match s.getInterface ip with
    | none => .returns
    | some link =>
        if ¬ link.isAlive then .raises (.down link.name ip)
        else if 0 < link.lossRate ∧ roll < link.lossRate then .raises (.loss link.name ip)
        else
          let delay := fl.round (fl.round (link.latencyMs * 2) / 1000)
          let jitter := fl.round (delay * uniform)
          .sleeps () (max (fl.round (1 / 1000)) (fl.round (delay + jitter)))
  else .returns

/-- `throttle_stream` up to its sleep, across which it keeps its link. -/
def throttleStream (s : LinkSimulator) (ip : String) (chunkSize : Nat) : Wait Nat :=
  if s.isEnabled then
    match s.interfaces.get? ip with
    | none => .returns
    | some o =>
        match s.objects[o]? with
        | none => .returns
        | some link =>
            if ¬ link.isAlive then .raises (.down link.name ip)
            else if link.getBandwidthBps fl ≤ 0 then .raises .zeroBandwidth
            else .sleeps o (fl.round (chunkSize / link.getBandwidthBps fl))
  else .returns

/-- `throttle_stream` after its sleep. -/
def transferred (s : LinkSimulator) (o chunkSize : Nat) (now : ℚ) : LinkSimulator :=
  s.modifyLink o (·.updateBytes fl chunkSize now) fun _ => SimulatedInterface.updateBytes_ip _ _

/-- `simulator_registry`, as the module fills it. -/
def simulatorRegistry (now : ℚ) : LinkSimulator :=
  ((new.addInterface "Sim_WiFi" "192.168.99.10" 15 15 (fl.round (1 / 100)) now).addInterface
    "Sim_Ethernet" "192.168.99.20" 45 8 0 now).addInterface "Sim_Cellular" "192.168.99.30" 8 60
      (fl.round (3 / 100)) now

/-! ## The object behind an address -/

variable {fl} {s : LinkSimulator} {ip : String} {o n : Nat} {link : SimulatedInterface}

theorem getInterface_of_entry (hentry : s.interfaces.get? ip = some o) :
    s.getInterface ip = s.objects[o]? := by
  unfold getInterface
  rw [hentry]
  rfl

/-- A link of another address is another object. -/
theorem entry_inj {ip' : String} (h : s.interfaces.get? ip = some o)
    (h' : s.interfaces.get? ip' = some o) : ip = ip' := by
  obtain ⟨link, hlink, hip⟩ := s.known ip o h
  obtain ⟨link', hlink', hip'⟩ := s.known ip' o h'
  obtain rfl : link = link' := Option.some.inj (hlink.symm.trans hlink')
  exact hip.symm.trans hip'

theorem getElem?_modifyLink {f : SimulatedInterface → SimulatedInterface}
    (hf : ∀ link, (f link).ip = link.ip) (o' : Nat) :
    (s.modifyLink o' f hf).objects[o]? =
      (s.objects[o]?).map fun link => if o' = o then f link else link :=
  List.getElem?_modify f o' s.objects o

@[simp] theorem length_modifyLink {f : SimulatedInterface → SimulatedInterface}
    (hf : ∀ link, (f link).ip = link.ip) (o' : Nat) :
    (s.modifyLink o' f hf).objects.length = s.objects.length := List.length_modify ..

@[simp] theorem length_toggle (ip' : String) (state : Option Bool) :
    (s.toggle ip' state).objects.length = s.objects.length := by
  unfold toggle
  split
  · rfl
  · exact length_modifyLink _ _

@[simp] theorem length_transferred (o' : Nat) (now : ℚ) :
    (s.transferred fl o' n now).objects.length = s.objects.length := length_modifyLink ..

@[simp] theorem interfaces_toggle (ip' : String) (state : Option Bool) :
    (s.toggle ip' state).interfaces = s.interfaces := by
  unfold toggle
  split <;> rfl

/-- `toggle` changes the link at its address. -/
theorem getElem?_toggle (ip' : String) (state : Option Bool) :
    (s.toggle ip' state).objects[o]? = (s.objects[o]?).map fun link =>
      if s.interfaces.get? ip' = some o then link.toggle state else link := by
  unfold toggle
  cases hentry : s.interfaces.get? ip' with
  | none => simp
  | some o' =>
      simp only [Option.some.injEq]
      exact getElem?_modifyLink _ o'

/-- A transfer changes its link. -/
theorem getElem?_transferred (o' : Nat) (now : ℚ) :
    (s.transferred fl o' n now).objects[o]? = (s.objects[o]?).map fun link =>
      if o' = o then link.updateBytes fl n now else link :=
  getElem?_modifyLink _ o'

/-- What sleeps in `throttle_stream` sleeps for the live link at its address. -/
theorem throttleStream_sleeps {seconds : ℚ} (h : s.throttleStream fl ip n = .sleeps o seconds) :
    s.interfaces.get? ip = some o ∧ ∃ link, s.objects[o]? = some link ∧ link.isAlive = true := by
  unfold throttleStream at h
  split_ifs at h
  split at h
  · cases h
  · next o' hentry =>
      split at h
      · cases h
      · next link hlink =>
          split_ifs at h with halive
          cases h
          exact ⟨hentry, link, hlink, by simpa using halive⟩

/-! ## The meters -/

/-- Every link's meter is right. -/
def Metered (fl : Rounding) (s : LinkSimulator) : Prop := ∀ link ∈ s.objects, link.Metered fl

theorem Metered.addInterface (h : s.Metered fl) (name ip : String)
    (bandwidthMbps latencyMs lossRate now : ℚ) :
    (s.addInterface name ip bandwidthMbps latencyMs lossRate now).Metered fl := by
  intro link hlink
  rcases List.mem_append.mp hlink with hlink | hlink
  · exact h link hlink
  · rw [List.mem_singleton.mp hlink]
    exact SimulatedInterface.new_metered ..

theorem Metered.modifyLink {f : SimulatedInterface → SimulatedInterface} (h : s.Metered fl)
    (hf : ∀ link, (f link).ip = link.ip) (hkeep : ∀ link, link.Metered fl → (f link).Metered fl)
    (o' : Nat) : (s.modifyLink o' f hf).Metered fl := by
  intro link hlink
  obtain ⟨i, hi⟩ := List.mem_iff_getElem?.mp hlink
  rw [getElem?_modifyLink] at hi
  obtain ⟨link₀, hlink₀, rfl⟩ := Option.map_eq_some_iff.mp hi
  have h₀ := h link₀ (List.mem_of_getElem? hlink₀)
  split_ifs
  · exact hkeep link₀ h₀
  · exact h₀

theorem Metered.toggle (h : s.Metered fl) (ip' : String) (state : Option Bool) :
    (s.toggle ip' state).Metered fl := by
  unfold LinkSimulator.toggle
  split
  · exact h
  · exact h.modifyLink (f := fun link => link.toggle state) (fun _ => rfl)
      (fun _ hlink => hlink.toggle state) _

theorem Metered.transferred (h : s.Metered fl) (o' : Nat) (now : ℚ) :
    (s.transferred fl o' n now).Metered fl :=
  h.modifyLink (fun link => link.updateBytes_ip n now) (fun _ hlink => hlink.updateBytes n now) o'

theorem new_metered : (new).Metered fl := by simp [Metered, new]

theorem simulatorRegistry_metered (now : ℚ) : (simulatorRegistry fl now).Metered fl :=
  ((new_metered.addInterface _ _ _ _ _ now).addInterface _ _ _ _ _ now).addInterface _ _ _ _ _ now

end LinkSimulator

end AetherBond.Common
