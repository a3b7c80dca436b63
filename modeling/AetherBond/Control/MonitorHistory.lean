import AetherBond.Control.Monitor

set_option autoImplicit false

/-! # The table of links over many scans

`scanInterfaces` holds the mutex from the first interface to the last, so between two scans the
links are what a list of completed scans has made of the empty table (`linksAfter`, and for the
two goroutines `run_linksAfter`). That table has an entry for every name that was ever usable,
with the address it had when it was last usable, and online if the last scan found it usable
(`linksAfter_get?`). A scan that gets no list does nothing.
-/

namespace AetherBond.Control

open AetherBond.Lib

/-! ## Whole scans -/

/-- An interface of the list, what it is found to have when the loop comes to it, and when that
is; `addrs` is `none` if the addresses cannot be had. -/
structure Found where
  iface : Interface
  addrs : Option (List Addr)
  now : Nat

/-- The interfaces of a scan, and when the dropped ones are flagged. -/
structure Sweep where
  found : List Found
  now : Nat

/-- The loop over the interfaces. -/
def sweepInterfaces (links : Links) (found : List Found) : Links × List String :=
  found.foldl (fun out f => scanInterface out.1 out.2 f.iface f.addrs f.now) (links, [])

/-- `scanInterfaces`; there is no sweep if `net.Interfaces()` fails. -/
def scanInterfaces (links : Links) : Option Sweep → Links
  | none => links
  | some sweep =>
      let out := sweepInterfaces links sweep.found
      flagDropped out.1 out.2 sweep.now

/-- The links after a list of scans. -/
def linksAfter (scans : List (Option Sweep)) : Links := scans.foldl scanInterfaces .empty

theorem sweepInterfaces_concat (links : Links) (found : List Found) (f : Found) :
    sweepInterfaces links (found ++ [f]) =
      scanInterface (sweepInterfaces links found).1 (sweepInterfaces links found).2 f.iface f.addrs
        f.now := by
  simp [sweepInterfaces]

theorem linksAfter_concat (scans : List (Option Sweep)) (scan : Option Sweep) :
    linksAfter (scans ++ [scan]) = scanInterfaces (linksAfter scans) scan := by
  simp [linksAfter]

/-! ## What the table should be -/

/-- The IPv4 address an interface is used with, if it is up, no loopback and its addresses can be
had. -/
def Found.ip4? (f : Found) : Option Bytes :=
  if f.iface.Ignored then none else f.addrs.bind firstIP4

/-- The address found for a name: that of the last interface of the list that has the name and an
address. -/
def ip4Of? (name : String) (found : List Found) : Option Bytes :=
  found.reverse.findSome? fun f => if f.iface.name = name then f.ip4? else none

/-- The name is eligible in the scan. -/
def Sweep.Eligible (sweep : Sweep) (name : String) : Prop :=
  ∃ f ∈ sweep.found, f.iface.name = name ∧ f.ip4?.isSome

/-- The scans that got a list. -/
def successful (scans : List (Option Sweep)) : List Sweep := scans.filterMap id

/-- The entry of a name, but for its time: the address, and whether it is online. -/
def Shows (links : Links) (name : String) (entry : Option (Bytes × Bool)) : Prop :=
  (links.get? name).map (fun state => (state.name, state.ip, state.isOnline)) =
    entry.map fun e => (name, ipString e.1, e.2)

/-- What a sweep makes of an entry. -/
def sweepEntry (ip : Option Bytes) (entry : Option (Bytes × Bool)) : Option (Bytes × Bool) :=
  ip.elim (entry.map fun e => (e.1, false)) fun ip => some (ip, true)

/-- The entry of a name after a list of scans. -/
def entryAfter (name : String) (sweeps : List Sweep) : Option (Bytes × Bool) :=
  sweeps.foldl (fun entry sweep => sweepEntry (ip4Of? name sweep.found) entry) none

variable {links : Links} {name : String} {found : List Found} {entry : Option (Bytes × Bool)}

theorem ip4Of?_concat (name : String) (found : List Found) (f : Found) :
    ip4Of? name (found ++ [f]) =
      (if f.iface.name = name then f.ip4? else none).or (ip4Of? name found) := by
  unfold ip4Of?
  rw [List.reverse_append, List.reverse_singleton, List.singleton_append, List.findSome?_cons]
  cases (if f.iface.name = name then f.ip4? else none) <;> rfl

theorem ip4Of?_isSome_iff (sweep : Sweep) (name : String) :
    (ip4Of? name sweep.found).isSome ↔ sweep.Eligible name := by
  unfold ip4Of? Sweep.Eligible
  rw [List.findSome?_isSome_iff]
  constructor
  · rintro ⟨f, hf, hsome⟩
    by_cases hname : f.iface.name = name
    · rw [if_pos hname] at hsome
      exact ⟨f, List.mem_reverse.mp hf, hname, hsome⟩
    · rw [if_neg hname] at hsome
      cases hsome
  · rintro ⟨f, hf, hname, hsome⟩
    exact ⟨f, List.mem_reverse.mpr hf, by rwa [if_pos hname]⟩

/-- If no name is listed twice, it is the address of the interface of that name. -/
theorem ip4Of?_of_nodup (hnodup : (found.map fun f => f.iface.name).Nodup) {f : Found}
    (hf : f ∈ found) : ip4Of? f.iface.name found = f.ip4? := by
  cases hip : ip4Of? f.iface.name found with
  | none =>
      have hnone := List.findSome?_eq_none_iff.mp hip f (List.mem_reverse.mpr hf)
      rw [if_pos rfl] at hnone
      exact hnone.symm
  | some ip =>
      obtain ⟨f', hf', hsome⟩ := List.exists_of_findSome?_eq_some hip
      by_cases hname : f'.iface.name = f.iface.name
      · rw [if_pos hname] at hsome
        rw [← List.inj_on_of_nodup_map hnodup (List.mem_reverse.mp hf') hf hname]
        exact hsome.symm
      · rw [if_neg hname] at hsome
        cases hsome

/-! ## One scan -/

/-- The loop body records the address of the interface, if it has one. -/
theorem scanInterface_eq (links : Links) (activeNames : List String) (f : Found) :
    scanInterface links activeNames f.iface f.addrs f.now =
      f.ip4?.elim (links, activeNames) fun ip =>
        (recordLink links f.iface.name (ipString ip) f.now, f.iface.name :: activeNames) := by
  unfold scanInterface Found.ip4?
  by_cases hignored : f.iface.Ignored
  · rw [if_pos hignored, if_pos hignored]
    rfl
  · rw [if_neg hignored, if_neg hignored]
    cases f.addrs.bind firstIP4 <;> rfl

theorem Shows.name_eq (h : Shows links name entry) {state : LinkState}
    (hget : links.get? name = some state) : state.name = name := by
  unfold Shows at h
  rw [hget] at h
  obtain ⟨e, -, he⟩ := Option.map_eq_some_iff.mp h.symm
  exact (congrArg Prod.fst he).symm

theorem shows_empty (name : String) : Shows .empty name none := rfl

theorem Shows.recordLink (h : Shows links name entry) (name' : String) (ip : Bytes) (now : Nat) :
    Shows (recordLink links name' (ipString ip) now) name
      (if name' = name then some (ip, true) else entry) := by
  unfold Control.recordLink
  by_cases hname : name' = name
  · subst hname
    rw [if_pos rfl]
    cases hget : links.get? name' with
    | none => simp [Shows, Dict.get?_set]
    | some state => simp [Shows, Dict.get?_set, h.name_eq hget]
  · rw [if_neg hname]
    cases links.get? name' with
    | none => simpa [Shows, Dict.get?_set, Ne.symm hname] using h
    | some state => simpa [Shows, Dict.get?_set, Ne.symm hname] using h

/-- The loop over the interfaces. -/
theorem Shows.sweepInterfaces (h : Shows links name entry) (found : List Found) :
    Shows (sweepInterfaces links found).1 name
        ((ip4Of? name found).elim entry fun ip => some (ip, true)) ∧
      (name ∈ (sweepInterfaces links found).2 ↔ (ip4Of? name found).isSome) := by
  induction found using List.reverseRecOn with
  | nil => exact ⟨h, by simp [Control.sweepInterfaces, ip4Of?]⟩
  | append_singleton found f ih =>
      obtain ⟨hshows, hactive⟩ := ih
      rw [sweepInterfaces_concat, scanInterface_eq, ip4Of?_concat]
      cases hip : f.ip4? with
      | none => simpa using ⟨hshows, hactive⟩
      | some ip =>
          have hrecord := hshows.recordLink f.iface.name ip f.now
          by_cases hname : f.iface.name = name
          · rw [if_pos hname] at hrecord ⊢
            exact ⟨hrecord, by simp [hname]⟩
          · rw [if_neg hname] at hrecord ⊢
            exact ⟨hrecord, by simpa [Ne.symm hname] using hactive⟩

theorem Shows.flagDropped (h : Shows links name entry) (activeNames : List String) (now : Nat) :
    Shows (flagDropped links activeNames now) name
      (if name ∈ activeNames then entry else entry.map fun e => (e.1, false)) := by
  unfold Shows at h ⊢
  rw [InterfaceMonitor.get?_flagDropped]
  cases hget : links.get? name with
  | none =>
      rw [hget] at h
      cases entry with
      | none => simp
      | some e => cases h
  | some state =>
      rw [hget] at h
      obtain ⟨e, rfl, he⟩ := Option.map_eq_some_iff.mp h.symm
      obtain ⟨hname, hip, honline⟩ : name = state.name ∧ ipString e.1 = state.ip ∧
          e.2 = state.isOnline := by simpa using he
      by_cases hactive : name ∈ activeNames
      · simp [flagLink, hactive, ← hname, ← hip, ← honline]
      · cases hdrop : state.isOnline with
        | false => simp [flagLink, hactive, hdrop, ← hname, ← hip]
        | true => simp [flagLink, hactive, hdrop, ← hname, ← hip]

/-- **One scan.** -/
theorem Shows.scanInterfaces (h : Shows links name entry) (sweep : Sweep) :
    Shows (scanInterfaces links (some sweep)) name
      (sweepEntry (ip4Of? name sweep.found) entry) := by
  obtain ⟨hshows, hactive⟩ := h.sweepInterfaces sweep.found
  have hflagged := hshows.flagDropped (Control.sweepInterfaces links sweep.found).2 sweep.now
  cases hip : ip4Of? name sweep.found with
  | none =>
      rw [hip] at hflagged hactive
      rw [if_neg (by simp [hactive])] at hflagged
      exact hflagged
  | some ip =>
      rw [hip] at hflagged hactive
      rw [if_pos (hactive.mpr rfl)] at hflagged
      exact hflagged

/-! ## Many scans -/

theorem entryAfter_concat (name : String) (sweeps : List Sweep) (sweep : Sweep) :
    entryAfter name (sweeps ++ [sweep]) =
      sweepEntry (ip4Of? name sweep.found) (entryAfter name sweeps) := by
  simp [entryAfter]

/-- **The run lemma**: the table is that of the scans that got a list. -/
theorem linksAfter_shows (scans : List (Option Sweep)) (name : String) :
    Shows (linksAfter scans) name (entryAfter name (successful scans)) := by
  induction scans using List.reverseRecOn with
  | nil => exact shows_empty name
  | append_singleton scans scan ih =>
      rw [linksAfter_concat]
      cases scan with
      | none =>
          have hsuccessful : successful (scans ++ [none]) = successful scans := by
            simp [successful]
          rw [hsuccessful]
          exact ih
      | some sweep =>
          have hsuccessful : successful (scans ++ [some sweep]) = successful scans ++ [sweep] := by
            simp [successful]
          rw [hsuccessful, entryAfter_concat]
          exact ih.scanInterfaces sweep

theorem sweepEntry_isSome (ip : Option Bytes) (entry : Option (Bytes × Bool)) :
    (sweepEntry ip entry).isSome ↔ ip.isSome ∨ entry.isSome := by
  cases ip <;> simp [sweepEntry]

/-- A name has an entry if some scan found it eligible. -/
theorem entryAfter_isSome_iff (name : String) (sweeps : List Sweep) :
    (entryAfter name sweeps).isSome ↔ ∃ sweep ∈ sweeps, sweep.Eligible name := by
  induction sweeps using List.reverseRecOn with
  | nil => simp [entryAfter]
  | append_singleton sweeps sweep ih =>
      rw [entryAfter_concat, sweepEntry_isSome, ip4Of?_isSome_iff, ih]
      simp only [List.mem_append, List.mem_singleton, or_and_right, exists_or, exists_eq_left]
      exact or_comm

/-- It is online if the last scan found it eligible. -/
theorem entryAfter_online {sweeps : List Sweep} {ip : Bytes} {online : Bool}
    (h : entryAfter name sweeps = some (ip, online)) :
    online ↔ ∃ last ∈ sweeps.getLast?, last.Eligible name := by
  obtain rfl | ⟨earlier, sweep, rfl⟩ := List.eq_nil_or_concat' sweeps
  · cases h
  · have heligible := ip4Of?_isSome_iff sweep name
    rw [entryAfter_concat] at h
    rw [List.getLast?_append, List.getLast?_singleton]
    cases hip : ip4Of? name sweep.found with
    | none =>
        rw [hip] at h heligible
        obtain ⟨e, -, he⟩ := Option.map_eq_some_iff.mp h
        simp [← (Prod.mk.inj he).2, ← heligible]
    | some last =>
        rw [hip] at h heligible
        simp [← (Prod.mk.inj (Option.some.inj h)).2, ← heligible]

/-- Its address is that of the last scan that found it eligible. -/
theorem entryAfter_ip {sweeps : List Sweep} {ip : Bytes} {online : Bool}
    (h : entryAfter name sweeps = some (ip, online)) :
    ∃ earlier sweep later, sweeps = earlier ++ sweep :: later ∧
      (∀ after ∈ later, ¬ after.Eligible name) ∧ ip4Of? name sweep.found = some ip := by
  induction sweeps using List.reverseRecOn generalizing online with
  | nil => cases h
  | append_singleton sweeps sweep ih =>
      rw [entryAfter_concat] at h
      cases hip : ip4Of? name sweep.found with
      | none =>
          rw [hip] at h
          obtain ⟨e, hentry, he⟩ := Option.map_eq_some_iff.mp h
          obtain ⟨rfl, -⟩ := Prod.mk.inj he
          obtain ⟨earlier, last, later, rfl, hlater, hlast⟩ := ih hentry
          refine ⟨earlier, last, later ++ [sweep], by simp, fun after hafter => ?_, hlast⟩
          rcases List.mem_append.mp hafter with hafter | hafter
          · exact hlater after hafter
          · rw [List.mem_singleton.mp hafter, ← ip4Of?_isSome_iff, hip]
            exact Bool.false_ne_true
      | some last =>
          rw [hip] at h
          obtain ⟨rfl, -⟩ := Prod.mk.inj (Option.some.inj h)
          exact ⟨sweeps, sweep, [], rfl, by simp, hip⟩

/-- `GetLinks` gives each entry once, under its own name. -/
theorem mem_getLinks_iff (scans : List (Option Sweep)) (state : LinkState) :
    state ∈ getLinks (linksAfter scans) ↔ (linksAfter scans).get? state.name = some state := by
  unfold getLinks
  rw [Dict.mem_values]
  constructor
  · rintro ⟨name, hget⟩
    rw [(linksAfter_shows scans name).name_eq hget]
    exact hget
  · exact fun hget => ⟨state.name, hget⟩

/-- **The table after any list of scans.** Its names are those that some scan found eligible. An
entry has its own name; it is online if and only if the last scan that got a list found the name
eligible; and its address is the one from the last scan that did. A scan that gets no list changes
nothing. -/
theorem linksAfter_get? (scans : List (Option Sweep)) (name : String) :
    (((linksAfter scans).get? name).isSome ↔
        ∃ sweep ∈ successful scans, sweep.Eligible name) ∧
      (∀ state, (linksAfter scans).get? name = some state →
        state.name = name ∧
        (state.isOnline ↔ ∃ last ∈ (successful scans).getLast?, last.Eligible name) ∧
        ∃ earlier sweep later ip, successful scans = earlier ++ sweep :: later ∧
          (∀ after ∈ later, ¬ after.Eligible name) ∧ ip4Of? name sweep.found = some ip ∧
          state.ip = ipString ip) ∧
      linksAfter (scans ++ [none]) = linksAfter scans := by
  have hshows := linksAfter_shows scans name
  refine ⟨?_, ?_, linksAfter_concat scans none⟩
  · rw [← entryAfter_isSome_iff]
    have hsome := congrArg Option.isSome hshows
    rw [Option.isSome_map, Option.isSome_map] at hsome
    rw [hsome]
  · intro state hget
    unfold Shows at hshows
    rw [hget] at hshows
    obtain ⟨⟨ip, online⟩, hentry, he⟩ := Option.map_eq_some_iff.mp hshows.symm
    obtain ⟨hname, hip, honline⟩ : name = state.name ∧ ipString ip = state.ip ∧
        online = state.isOnline := by simpa using he
    obtain ⟨earlier, sweep, later, hsplit, hlater, hlast⟩ := entryAfter_ip hentry
    refine ⟨hname.symm, ?_, earlier, sweep, later, ip, hsplit, hlater, hlast, hip.symm⟩
    rw [← honline]
    exact entryAfter_online hentry

/-! ## The two goroutines -/

namespace InterfaceMonitor

variable {s s' : InterfaceMonitor} {scans : List (Option Sweep)}

/-- The scans that are over have made the links, and what is in the loop goes on from there. -/
structure History (s : InterfaceMonitor) (scans : List (Option Sweep)) : Prop where
  links : s.mutex = none → s.links = linksAfter scans
  loop : ∀ g list ifaces activeNames, s.scan g = .sweeping list ifaces activeNames →
    s.mutex = some g ∧ ∃ found, sweepInterfaces (linksAfter scans) found = (s.links, activeNames)

def Event.isFinish : Event → Bool
  | .finish _ _ => true
  | _ => false

theorem scan_setScan_cases {g k : Goroutine} {scan scan' : Scan}
    (h : (s.setScan g scan).scan k = scan') : k = g ∧ scan = scan' ∨ k ≠ g ∧ s.scan k = scan' := by
  rw [scan_setScan] at h
  by_cases hk : k = g
  · rw [if_pos hk] at h
    exact Or.inl ⟨hk, h⟩
  · rw [if_neg hk] at h
    exact Or.inr ⟨hk, h⟩

/-- Only who holds the mutex is in the loop. -/
theorem History.of_owner (h : History s scans) {g k : Goroutine} (hmutex : s.mutex = some g)
    (hk : k ≠ g) {list : Nat} {ifaces : List Interface} {activeNames : List String} :
    s.scan k ≠ .sweeping list ifaces activeNames := fun hscan =>
  hk (Option.some.inj ((h.loop k list ifaces activeNames hscan).1.symm.trans hmutex))

/-- **Step lemma.** Only the end of a loop adds a scan. -/
theorem History.step {e : Event} (h : History s scans) (hstep : s.step e = some s') :
    ∃ more, more.length = [e].countP Event.isFinish ∧ History s' (scans ++ more) := by
  cases step_move hstep with
  | change os => exact ⟨[], rfl, by simpa using ⟨h.links, h.loop⟩⟩
  | noList hg => exact ⟨[], rfl, by simpa using h⟩
  | @list g hg =>
      refine ⟨[], rfl, ?_, fun k list ifaces activeNames hk => ?_⟩
      · rw [List.append_nil]
        exact h.links
      · rw [List.append_nil]
        rcases scan_setScan_cases hk with ⟨-, hsame⟩ | ⟨-, hother⟩
        · cases hsame
        · exact h.loop k list ifaces activeNames hother
  | @lock g list ifaces hg hmutex =>
      refine ⟨[], rfl, fun hfree => by simp at hfree, fun k list ifaces activeNames hk => ?_⟩
      rw [List.append_nil]
      rcases scan_setScan_cases hk with ⟨rfl, hsame⟩ | ⟨-, hother⟩
      · obtain ⟨-, -, rfl⟩ := Scan.sweeping.inj hsame
        refine ⟨rfl, [], ?_⟩
        show (linksAfter scans, []) = (s.links, [])
        rw [h.links hmutex]
      · have howner := (h.loop k list ifaces activeNames hother).1
        rw [hmutex] at howner
        cases howner
  | @iface g list iface rest activeNames ok now hg =>
      obtain ⟨hmutex, found, hfound⟩ := h.loop g list _ activeNames hg
      refine ⟨[], rfl, fun hfree => ?_, fun k list' ifaces activeNames' hk => ?_⟩
      · cases hmutex.symm.trans hfree
      · rw [List.append_nil]
        rcases scan_setScan_cases hk with ⟨rfl, hsame⟩ | ⟨hkg, hother⟩
        · obtain ⟨-, -, rfl⟩ := Scan.sweeping.inj hsame
          refine ⟨hmutex, found ++
            [⟨iface, if ok then some (addrsOf s.os iface.index) else none, now⟩], ?_⟩
          rw [sweepInterfaces_concat, hfound]
        · exact absurd hother (h.of_owner hmutex hkg)
  | @finish g list activeNames now hg =>
      obtain ⟨hmutex, found, hfound⟩ := h.loop g list [] activeNames hg
      refine ⟨[some ⟨found, now⟩], rfl, fun _ => ?_, fun k list' ifaces activeNames' hk => ?_⟩
      · rw [linksAfter_concat]
        show Control.flagDropped _ _ _ = Control.flagDropped _ _ _
        rw [hfound]
      · rcases scan_setScan_cases hk with ⟨-, hsame⟩ | ⟨hkg, hother⟩
        · cases hsame
        · exact absurd hother (h.of_owner hmutex hkg)

/-- **Whatever the two goroutines do**, the links are those after as many scans as loops are over,
whenever the mutex is free. -/
theorem run_linksAfter (os : OsTable) {es : List Event}
    (hrun : runFrom InterfaceMonitor.step (new os) es = some s) :
    ∃ scans, scans.length = es.countP Event.isFinish ∧ History s scans := by
  induction es using List.reverseRecOn generalizing s with
  | nil =>
      obtain rfl : new os = s := by simpa using hrun
      exact ⟨[], rfl, fun _ => rfl, fun g list ifaces activeNames hg => by cases hg⟩
  | append_singleton es e ih =>
      obtain ⟨s₁, hrun₁, hlast⟩ := runFrom_append_eq_some.mp hrun
      obtain ⟨s₂, hstep, hnil⟩ := runFrom_cons_eq_some.mp hlast
      obtain rfl : s₂ = s := by simpa using hnil
      obtain ⟨scans, hlength, hscans⟩ := ih hrun₁
      obtain ⟨more, hmore, hhistory⟩ := hscans.step hstep
      refine ⟨scans ++ more, ?_, hhistory⟩
      rw [List.length_append, List.countP_append, hlength, hmore]

end InterfaceMonitor

end AetherBond.Control
