import AetherBond.Client.SimulatedDownload

set_option autoImplicit false

/-! # The bytes of the links and of the download

Each link of the simulator counts the bytes that went over it, and the session counts those of the
download. A transfer is counted by its link when `throttle_stream` wakes up, and by the session
right after it, with the number of bytes the call was made with (`InFlight`). So in every state of a
run what the links have got is what the download has got, but for the bytes that came over no link
of the simulator: over a physical link, or while the simulator was disabled (`run_bytes`).
-/

namespace AetherBond.Client

open AetherBond.Lib AetherBond.Common

/-! ## The session's total -/

namespace DownloadSession

variable {s s' s'' : DownloadSession} {e : Event} {es : List Event} {w i retries downloaded n : Nat}
  {a : Attempt} {c : Chunk}

theorem total_attempt (s : DownloadSession) (w i retries : Nat) (c : Chunk) (choice : Choice) :
    (s.attempt w i retries c choice).totalDownloadedBytes = s.totalDownloadedBytes := by
  cases choice <;> rfl

/-- Without bytes the total stays. -/
theorem total_still (h : s.step e = some s') (he : e.arrives = false) :
    s'.totalDownloadedBytes = s.totalDownloadedBytes := by
  cases step_move h with
  | takes => exact total_attempt ..
  | retries => exact total_attempt ..
  | delayed => exact simulate_total ..
  | throttled | received => cases he
  | leaves | writeFails | written | refused | responded | bodyEnds | raises | givesUp | joins => rfl

theorem total_throttled (h : s.step (.throttled w) = some s')
    (hcur : s.current w = some (i, retries, .throttling downloaded, c)) :
    s'.totalDownloadedBytes =
      s.totalDownloadedBytes + min (64 * 1024) (c.size - downloaded).toNat := by
  cases step_move h with
  | throttled hcur' =>
      obtain ⟨rfl, rfl, hd, rfl⟩ : _ ∧ _ ∧ _ ∧ _ := by
        simpa using Option.some.inj (hcur'.symm.trans hcur)
      rw [hd]
      exact simulate_total ..

theorem total_received (h : s.step (.received w n) = some s') :
    s'.totalDownloadedBytes = s.totalDownloadedBytes + n := by
  cases step_move h with
  | received _ _ hn =>
      show s.totalDownloadedBytes + (List.take n _).length = _
      rw [List.length_take_of_le hn]

/-! ## What other workers leave as it is -/

/-- The chunks have their sizes. -/
def SameSizes (s s' : DownloadSession) : Prop :=
  ∀ (i : Nat) (c : Chunk), s.chunks[i]? = some c →
    ∃ c' : Chunk, s'.chunks[i]? = some c' ∧ c'.size = c.size

theorem SameRanges.sizes (h : SameRanges s s') : SameSizes s s' := by
  obtain ⟨j, f, hchunks, hf⟩ := h
  intro i c hc
  refine ⟨if j = i then f c else c, ?_, ?_⟩
  · rw [hchunks, List.getElem?_modify, hc]
    rfl
  · unfold Chunk.size
    split_ifs
    · rw [(hf c).1, (hf c).2]
    · rfl

theorem SameSizes.trans (h : SameSizes s s') (h' : SameSizes s' s'') : SameSizes s s'' := by
  intro i c hc
  obtain ⟨c', hc', hsize⟩ := h i c hc
  obtain ⟨c'', hc'', hsize'⟩ := h' i c' hc'
  exact ⟨c'', hc'', hsize'.trans hsize⟩

/-- The other workers are where they were, at chunks of the same sizes. -/
structure Apart (w : Nat) (s s' : DownloadSession) : Prop where
  workers : ∀ u ≠ w, s'.workers[u]? = s.workers[u]?
  sizes : SameSizes s s'

theorem apart_run (h : runFrom step s es = some s') (hown : ∀ e ∈ es, e.worker? = some w) :
    Apart w s s' := by
  induction es generalizing s with
  | nil =>
      obtain rfl : s = s' := by simpa using h
      exact ⟨fun _ _ => rfl, fun i c hc => ⟨c, hc, rfl⟩⟩
  | cons e es ih =>
      obtain ⟨s₁, hstep, hrest⟩ := runFrom_cons_eq_some.mp h
      have hframe := frame_step hstep (hown e List.mem_cons_self)
      have hlater := ih hrest fun e he => hown e (List.mem_cons_of_mem _ he)
      exact ⟨fun u hu => (hlater.workers u hu).trans (hframe.workers u hu),
        hframe.chunks.sizes.trans hlater.sizes⟩

theorem Apart.current {u : Nat} (h : Apart w s s') (hu : u ≠ w)
    (hcur : s.current u = some (i, retries, a, c)) :
    ∃ c', s'.current u = some (i, retries, a, c') ∧ c'.size = c.size := by
  obtain ⟨hworker, hc⟩ := current_eq_some hcur
  obtain ⟨c', hc', hsize⟩ := h.sizes i c hc
  refine ⟨c', ?_, hsize⟩
  unfold DownloadSession.current
  rw [h.workers u hu, hworker]
  dsimp only
  rw [hc']
  rfl

theorem total_run (h : runFrom step s es = some s') (hstill : ∀ e ∈ es, e.arrives = false) :
    s'.totalDownloadedBytes = s.totalDownloadedBytes := by
  induction es generalizing s with
  | nil =>
      obtain rfl : s = s' := by simpa using h
      rfl
  | cons e es ih =>
      obtain ⟨s₁, hstep, hrest⟩ := runFrom_cons_eq_some.mp h
      exact (ih hrest fun e he => hstill e (List.mem_cons_of_mem _ he)).trans
        (total_still hstep (hstill e List.mem_cons_self))

end DownloadSession

namespace SimulatedDownload

variable {fl : Rounding} {s s' : SimulatedDownload} {e : Event} {w : Nat}

/-! ## The links' total -/

/-- The bytes of all links. -/
def bytes (simulator : LinkSimulator) : Nat :=
  (simulator.objects.map SimulatedInterface.totalBytesTransferred).sum

theorem bytes_toggle (simulator : LinkSimulator) (ip : String) (state : Option Bool) :
    bytes (simulator.toggle ip state) = bytes simulator := by
  unfold LinkSimulator.toggle
  split
  · rfl
  · next o hentry =>
      obtain ⟨link, hlink, -⟩ := simulator.known ip o hentry
      have hsum := DownloadSession.sum_map_modify SimulatedInterface.totalBytesTransferred
        (fun link => link.toggle state) hlink
      rw [SimulatedInterface.toggle_total] at hsum
      exact Nat.add_right_cancel hsum

theorem bytes_transferred {simulator : LinkSimulator} {o : Nat} (ho : o < simulator.objects.length)
    (n : Nat) (now : ℚ) : bytes (simulator.transferred fl o n now) = bytes simulator + n := by
  have hsum := DownloadSession.sum_map_modify SimulatedInterface.totalBytesTransferred
    (fun link => link.updateBytes fl n now) (List.getElem?_eq_getElem ho)
  rw [SimulatedInterface.updateBytes_total] at hsum
  have heq : bytes (simulator.transferred fl o n now) = ((simulator.objects.modify o
    fun link => link.updateBytes fl n now).map SimulatedInterface.totalBytesTransferred).sum := rfl
  have heq' : bytes simulator =
    (simulator.objects.map SimulatedInterface.totalBytesTransferred).sum := rfl
  omega

/-! ## What is in flight -/

/-- A worker asleep in `throttle_stream` is in its stream, with the bytes that come next. -/
def InFlight (s : SimulatedDownload) : Prop :=
  ∀ (w : Nat) (l : WorkerLink) (o n : Nat), s.links[w]? = some l → l.transfer = some (o, n) →
    o < s.simulator.objects.length ∧ ∃ i retries downloaded c,
      s.session.current w = some (i, retries, .throttling downloaded, c) ∧
        n = min (64 * 1024) (c.size - downloaded).toNat

theorem InFlight.works {es : List DownloadSession.Event} (h : InFlight s)
    (hworks : Works w es s s') : InFlight s' := by
  obtain ⟨f, hlinks, hf⟩ := hworks.links
  have hapart := DownloadSession.apart_run hworks.run hworks.own
  intro u l o n hl htransfer
  rw [hlinks, List.getElem?_modify] at hl
  obtain ⟨l₀, hl₀, rfl⟩ := Option.map_eq_some_iff.mp hl
  by_cases hu : w = u
  · rw [if_pos hu, hf l₀] at htransfer
    cases htransfer
  · rw [if_neg hu] at htransfer
    obtain ⟨ho, i, retries, downloaded, c, hcur, hn⟩ := h u l₀ o n hl₀ htransfer
    obtain ⟨c', hcur', hsize⟩ := hapart.current (Ne.symm hu) hcur
    rw [hworks.simulator]
    exact ⟨ho, i, retries, downloaded, c', hcur', by rw [hsize]; exact hn⟩

/-- The registry changes, and has as many links. -/
theorem InFlight.simulator (h : InFlight s) {simulator : LinkSimulator}
    (hlength : simulator.objects.length = s.simulator.objects.length) :
    InFlight { s with simulator := simulator } := by
  intro w l o n hl ht
  obtain ⟨ho, hcur⟩ := h w l o n hl ht
  exact ⟨hlength ▸ ho, hcur⟩

/-! ## The accounts -/

/-- Every link's meter is right, and the download has what the links have got since the start and
what came over none of them. -/
structure Accounts (fl : Rounding) (start : LinkSimulator) (s : SimulatedDownload)
    (directs : List Nat) : Prop where
  inFlight : InFlight s
  metered : s.simulator.Metered fl
  total : s.session.totalDownloadedBytes + bytes start = bytes s.simulator + directs.sum

/-- A worker goes on, and `directs` are the bytes that come. -/
theorem Accounts.works {start : LinkSimulator} {directs new : List Nat}
    {es : List DownloadSession.Event} (h : Accounts fl start s directs) (hworks : Works w es s s')
    (hnew : s'.session.totalDownloadedBytes = s.session.totalDownloadedBytes + new.sum) :
    Accounts fl start s' (directs ++ new) := by
  have htotal := h.total
  refine ⟨h.inFlight.works hworks, hworks.simulator ▸ h.metered, ?_⟩
  rw [hnew, hworks.simulator, List.sum_append]
  omega

theorem Accounts.sleeps {start : LinkSimulator} {directs : List Nat}
    (h : Accounts fl start s directs) {i retries downloaded o : Nat} {c : Chunk}
    (hcur : s.session.current w = some (i, retries, .throttling downloaded, c))
    (ho : o < s.simulator.objects.length) :
    Accounts fl start (s.setLink w fun l =>
      { l with transfer := some (o, min (64 * 1024) (c.size - downloaded).toNat) }) directs := by
  refine ⟨fun u l o' n hl ht => ?_, h.metered, h.total⟩
  have hget : (s.links.modify w _)[u]? = some l := hl
  rw [List.getElem?_modify] at hget
  obtain ⟨l₀, hl₀, rfl⟩ := Option.map_eq_some_iff.mp hget
  by_cases hu : w = u
  · rw [if_pos hu] at ht
    cases ht
    exact ⟨ho, i, retries, downloaded, c, hu ▸ hcur, rfl⟩
  · rw [if_neg hu] at ht
    exact h.inFlight u l₀ o' n hl₀ ht

/-- The link counts the bytes, and the session as many. -/
theorem Accounts.wakes {start : LinkSimulator} {directs : List Nat}
    (h : Accounts fl start s directs) {o n : Nat} {ip : String} {now : ℚ}
    (hlink : s.links[w]? = some ⟨ip, some (o, n)⟩)
    (hworks : Works w [.throttled w]
      { s with simulator := s.simulator.transferred fl o n now } s') :
    Accounts fl start s' directs := by
  have htotal := h.total
  obtain ⟨ho, i, retries, downloaded, c, hcur, hn⟩ := h.inFlight w _ o n hlink rfl
  have hflight : InFlight { s with simulator := s.simulator.transferred fl o n now } :=
    h.inFlight.simulator (LinkSimulator.length_transferred o now)
  obtain ⟨session, hstep, hnil⟩ := runFrom_cons_eq_some.mp hworks.run
  obtain rfl := Option.some.inj hnil
  have hcame := DownloadSession.total_throttled hstep hcur
  refine ⟨hflight.works hworks, ?_, ?_⟩
  · rw [hworks.simulator]
    exact h.metered.transferred o now
  · rw [hworks.simulator, bytes_transferred ho, hcame, ← hn]
    show s.session.totalDownloadedBytes + n + bytes start = bytes s.simulator + n + directs.sum
    omega

/-- **Step lemma.** -/
theorem Accounts.step {start : LinkSimulator} {directs : List Nat}
    (h : Accounts fl start s directs) (hstep : s.step fl e = some s') :
    Accounts fl start s' (directs ++ (s.direct fl e).toList) := by
  have htotal := h.total
  cases step_moves hstep with
  | toggle ip state =>
      refine ⟨h.inFlight.simulator (LinkSimulator.length_toggle ip state),
        h.metered.toggle ip state, ?_⟩
      rw [bytes_toggle]
      simpa [direct] using htotal
  | enable | disable | monitor | probe => simpa [direct] using ⟨h.inFlight, h.metered, htotal⟩
  | works hworks hstill hdirect =>
      rw [hdirect]
      exact h.works hworks (DownloadSession.total_run hworks.run hstill)
  | passes hcur hdirect hworks =>
      obtain ⟨session, hsession, hnil⟩ := runFrom_cons_eq_some.mp hworks.run
      obtain rfl := Option.some.inj hnil
      rw [hdirect]
      exact h.works hworks (DownloadSession.total_throttled hsession hcur)
  | receives hworks =>
      obtain ⟨session, hsession, hnil⟩ := runFrom_cons_eq_some.mp hworks.run
      obtain rfl := Option.some.inj hnil
      exact h.works hworks (DownloadSession.total_received hsession)
  | sleeps hcur hlink ho halive hdirect =>
      rw [hdirect, Option.toList_none, List.append_nil]
      exact h.sleeps hcur (List.getElem?_eq_some_iff.mp ho).1
  | wakes hlink hworks => simpa [direct] using h.wakes hlink hworks
  | joins hsession =>
      refine ⟨fun w l o n hl ht => ?_, h.metered, ?_⟩
      · have hget : (s.links.map fun l => { l with transfer := none })[w]? = some l := hl
        rw [List.getElem?_map] at hget
        obtain ⟨l₀, -, rfl⟩ := Option.map_eq_some_iff.mp hget
        cases ht
      · rw [show _ = s.session.totalDownloadedBytes from
          DownloadSession.total_still hsession rfl]
        simpa [direct] using htotal

/-- **The links account for the download.** In every run, whatever goes down, fails or is taken up
again: the bytes the download has counted are those the links of the simulator have counted since
its start, and those that came over a physical link or while the simulator was disabled. And each
link's bytes are those of the intervals it has computed a speed for, of a second at least each, and
of the current one. -/
theorem run_bytes (fl : Rounding) (simulator : LinkSimulator) (interfaces : List InterfaceInfo)
    (chunks : List Chunk) (file : Bytes) (es : List Event) (s : SimulatedDownload)
    (hmetered : simulator.Metered fl)
    (hrun : runFrom (step fl) (start simulator interfaces chunks file) es = some s) :
    s.session.totalDownloadedBytes + bytes simulator = bytes s.simulator +
        (observe (step fl) (direct fl) (start simulator interfaces chunks file) es).sum ∧
      s.simulator.Metered fl := by
  have hstart : Accounts fl simulator (start simulator interfaces chunks file) [] := by
    refine ⟨fun w l o n hl ht => ?_, hmetered, (Nat.zero_add _).trans (Nat.add_zero _).symm⟩
    have hslot := List.eq_of_mem_replicate (List.mem_of_getElem? hl)
    rw [hslot] at ht
    cases ht
  have h := runFrom_observe_one (f := direct fl) (I := Accounts fl simulator)
    (fun s e s' directs h hs => h.step hs) hstart hrun
  exact ⟨h.total, h.metered⟩

/-- A link goes down with a worker asleep on it, and then the simulator is disabled: the link has
the 64 KB it was left for, and the rest comes over none. -/
def overDown : List Event :=
  [.monitor "192.168.99.20" 0 0, .attempt 0 100 0 1 0, .delayed 0, .stream 0,
    .toggle "192.168.99.20" none, .throttled 0 2, .stream 0, .disable, .attempt 0 100 0 1 0,
    .delayed 0, .stream 0, .stream 0]

theorem run_bytes_overDown :
    ∃ s, runFrom (step .exact) (start (LinkSimulator.simulatorRegistry .exact 0).enable
        [⟨"Sim_Ethernet", "192.168.99.20", true⟩] [.new 0 0 99999] []) overDown = some s ∧
      bytes s.simulator = 64 * 1024 ∧
      s.session.totalDownloadedBytes + bytes (LinkSimulator.simulatorRegistry .exact 0).enable =
        bytes s.simulator + (observe (step .exact) (direct .exact)
          (start (LinkSimulator.simulatorRegistry .exact 0).enable
            [⟨"Sim_Ethernet", "192.168.99.20", true⟩] [.new 0 0 99999] []) overDown).sum ∧
      s.simulator.Metered .exact := by
  have hall : ∃ s ∈ runFrom (step .exact) (start (LinkSimulator.simulatorRegistry .exact 0).enable
      [⟨"Sim_Ethernet", "192.168.99.20", true⟩] [.new 0 0 99999] []) overDown,
      bytes s.simulator = 64 * 1024 := by decide +kernel
  obtain ⟨s, hrun, hbytes⟩ := hall
  exact ⟨s, hrun, hbytes, run_bytes .exact _ _ _ _ _ s
    (LinkSimulator.simulatorRegistry_metered 0) hrun⟩

end SimulatedDownload

end AetherBond.Client
