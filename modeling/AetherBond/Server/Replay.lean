import AetherBond.Server.Main
import AetherBond.Server.ReceiverTimed

set_option autoImplicit false

/-! # Replayed packets

A packet the server has handled once is known to it: its number is dropped from then on
(`Known.step`). So when the network, or somebody who has captured it, delivers it again, at any
time and from any address, the run goes on as if it had not come (`run_replay`), but for one thing:
`datagram_received` notes the sender's address before it looks at the packet, so what the server
sends on that path id goes to the sender of the replay until another datagram comes on it.

The two runs are kept side by side. Between its arrival and its turn the replayed packet waits in
the inbox (`Ahead`), and afterwards the inboxes are the same.
-/

namespace AetherBond.Server.AetherServerProtocol

open AetherBond.Lib AetherBond.Common

variable {p : AetherProtocol} {s s' t : AetherServerProtocol} {e : Event} {data : Bytes}
  {addr : Addr}

/-! ## Handled packets -/

/-- The packet whose task runs. -/
def handled (s : AetherServerProtocol) : Event → Option Bytes
  | .handle _ _ => s.inbox.head?.map Prod.fst
  | _ => none

/-- What a packet holds does not depend on when it is unpacked. -/
theorem unpackAndDecrypt_again (nowUs' : Int) {nowUs : Int} {payload : Bytes} {seq pathId : Nat}
    {latency : ℚ} (h : p.unpackAndDecrypt data nowUs = .ok (payload, seq, pathId, latency)) :
    ∃ latency', p.unpackAndDecrypt data nowUs' = .ok (payload, seq, pathId, latency') := by
  unfold AetherProtocol.unpackAndDecrypt at h ⊢
  split_ifs at h ⊢ with hlen
  dsimp only at h ⊢
  cases hn : packNonce (unpackHeader (data.take headerSize)).1
      (unpackHeader (data.take headerSize)).2.1 with
  | error err =>
      rw [hn] at h
      cases h
  | ok nonce =>
      rw [hn] at h
      dsimp only [Except.bind] at h ⊢
      cases hd : p.cipher.decrypt? p.key nonce (data.take headerSize) (data.drop headerSize) with
      | none =>
          rw [hd] at h
          cases h
      | some plain =>
          rw [hd] at h
          cases h
          exact ⟨_, rfl⟩

/-- The number of the packet, if it decrypts, is dropped. -/
def Known (p : AetherProtocol) (data : Bytes) (s : AetherServerProtocol) : Prop :=
  ∀ nowUs payload seq pathId latency,
    p.unpackAndDecrypt data nowUs = .ok (payload, seq, pathId, latency) → s.resequencer.drops seq

/-- What the resequencer drops it drops ever after. -/
theorem drops_step (hs : s.resequencer.Settled) (hstep : s.step p e = some s') {seq : Nat}
    (hdrops : s.resequencer.drops seq) : s'.resequencer.drops seq := by
  rcases step_cases hstep with ⟨heq, -⟩ | ⟨_, _, _, _, _, _, _, _, _, -, -, hput⟩ |
    ⟨_, _, -, hflush⟩ | ⟨_, -, -, -, heq⟩
  · exact heq ▸ hdrops
  · exact hs.drops_step hput hdrops
  · exact hs.drops_step hflush hdrops
  · exact heq ▸ hdrops

theorem Known.step (h : Known p data s) (hs : s.resequencer.Settled)
    (hstep : s.step p e = some s') : Known p data s' :=
  fun nowUs payload seq pathId latency hok =>
    drops_step hs hstep (h nowUs payload seq pathId latency hok)

/-- A packet is known once its task has run. -/
theorem known_handle (hs : s.resequencer.Settled) (hhandled : s.handled e = some data)
    (hstep : s.step p e = some s') : Known p data s' := by
  cases e with
  | handle nowUs now =>
      obtain ⟨data', addr, inbox, hin, hcases⟩ := handle_cases hstep
      have hdata : data' = data := by simpa [handled, hin] using hhandled
      subst hdata
      intro nowUs' payload seq pathId latency hok
      obtain ⟨latency', hok'⟩ := unpackAndDecrypt_again nowUs hok
      rcases hcases with ⟨err, herr, -⟩ | ⟨payload', seq', pathId', _, b, hnow, hput, rfl⟩
      · rw [herr] at hok'
        cases hok'
      · obtain ⟨rfl, rfl, rfl, -⟩ : _ ∧ _ ∧ _ ∧ _ := by simpa using hok'.symm.trans hnow
        by_cases hdrops : s.resequencer.drops seq
        · exact hs.drops_step (e := .put seq (payload, addr, pathId) now) hput hdrops
        · exact hs.put_takes hdrops hput
  | connectionMade | datagram | flushCheck | router => cases hhandled

/-- A packet whose number is dropped has no effect. -/
theorem handleClientPacket_of_drops {nowUs : Int} {payload : Bytes} {seq pathId : Nat} {latency : ℚ}
    (hok : p.unpackAndDecrypt data nowUs = .ok (payload, seq, pathId, latency))
    (hdrops : s.resequencer.drops seq) (addr : Addr) (now : Int) :
    s.handleClientPacket p data addr nowUs now = some s := by
  have hput : s.resequencer.put callback s.router seq (payload, addr, pathId) now
      = some (s.resequencer, s.router) := by
    unfold ResequencingBuffer.put
    rw [if_pos hdrops]
  unfold handleClientPacket
  rw [hok]
  dsimp only
  rw [hput]
  rfl

/-- A known packet has no effect. -/
theorem Known.ignored (h : Known p data s) (addr : Addr) (nowUs now : Int) :
    s.handleClientPacket p data addr nowUs now = some s := by
  cases hok : p.unpackAndDecrypt data nowUs with
  | error err =>
      unfold handleClientPacket
      rw [hok]
  | ok content =>
      obtain ⟨payload, seq, pathId, latency⟩ := content
      exact handleClientPacket_of_drops hok (h nowUs payload seq pathId latency hok) addr now

/-! ## Two servers side by side -/

/-- The two servers differ at most in their inboxes, in the addresses of the path ids `diverted`,
and, if there are any, in where packets were sent to. -/
structure Alike (diverted : List Nat) (s t : AetherServerProtocol) : Prop where
  transport : s.transport = t.transport
  router : s.router = t.router
  resequencer : s.resequencer = t.resequencer
  addresses : ∀ q ∉ diverted, s.pathAddresses.get? q = t.pathAddresses.get? q
  packets : s.transmitted.map Prod.fst = t.transmitted.map Prod.fst
  targets : diverted = [] → s.transmitted = t.transmitted

variable {diverted : List Nat}

/-- The inbox does not matter. -/
theorem Alike.setInbox (h : Alike diverted s t) (inbox inbox' : List (Bytes × Addr)) :
    Alike diverted { s with inbox := inbox } { t with inbox := inbox' } :=
  ⟨h.transport, h.router, h.resequencer, h.addresses, h.packets, h.targets⟩

theorem Alike.datagram (h : Alike diverted s t) (data : Bytes) (addr : Addr) :
    Alike diverted (s.datagramReceived data addr) (t.datagramReceived data addr) := by
  refine ⟨h.transport, h.router, h.resequencer, fun q hq => ?_, h.packets, h.targets⟩
  unfold datagramReceived
  dsimp only
  split_ifs
  · rw [Dict.get?_set, Dict.get?_set, h.addresses q hq]
  · exact h.addresses q hq

/-- The packets of the responses are the same, and without diverted paths so are their targets. -/
theorem Alike.sendto (h : Alike diverted s t) (responses : List (Bytes × Addr × Nat)) :
    (s.sendto responses).map Prod.fst = (t.sendto responses).map Prod.fst ∧
      (diverted = [] → s.sendto responses = t.sendto responses) := by
  unfold AetherServerProtocol.sendto
  rw [h.transport]
  split_ifs
  · constructor
    · rw [List.map_map, List.map_map]
      rfl
    · rintro rfl
      apply List.map_congr_left
      intro x _
      unfold datagramFor
      rw [h.addresses x.2.2 List.not_mem_nil]
  · exact ⟨rfl, fun _ => rfl⟩

/-- Both make every step but a turn of the inbox. -/
theorem Alike.local (h : Alike diverted s t) (he : ∀ nowUs now, e ≠ .handle nowUs now)
    (hstep : s.step p e = some s') : ∃ t', t.step p e = some t' ∧ Alike diverted s' t' := by
  have hroute : ∀ e : Router.Event, s.routerStep p e = some s' →
      ∃ t', t.routerStep p e = some t' ∧ Alike diverted s' t' := by
    intro e hroute
    obtain ⟨r, hr, rfl⟩ := routerStep_eq_some.mp hroute
    have hnew : s.newResponses r = t.newResponses r := by
      unfold newResponses
      rw [h.router]
    obtain ⟨hpackets, htargets⟩ := h.sendto (t.newResponses r)
    rw [h.router] at hr
    refine ⟨_, routerStep_eq_some.mpr ⟨r, hr, rfl⟩, h.transport, rfl, h.resequencer, h.addresses,
      ?_, fun hnone => ?_⟩
    · rw [List.map_append, List.map_append, hnew, h.packets, hpackets]
    · rw [hnew, h.targets hnone, htargets hnone]
  cases e with
  | connectionMade =>
      obtain rfl := Option.some.inj hstep
      exact ⟨_, rfl, rfl, h.router, h.resequencer, h.addresses, h.packets, h.targets⟩
  | datagram data addr =>
      obtain rfl := Option.some.inj hstep
      exact ⟨_, rfl, h.datagram data addr⟩
  | handle nowUs now => exact absurd rfl (he nowUs now)
  | flushCheck task now =>
      obtain ⟨b, hflush, rfl⟩ := Option.map_eq_some_iff.mp hstep
      rw [h.resequencer, h.router] at hflush
      exact ⟨_, Option.map_eq_some_iff.mpr ⟨b, hflush, rfl⟩, h.transport, rfl, rfl, h.addresses,
        h.packets, h.targets⟩
  | router e =>
      cases e with
      | deliver packetInfo => cases hstep
      | _ => exact hroute _ hstep

/-- Both run the task of the same packet. -/
theorem Alike.handle (h : Alike diverted s t) {x : Bytes × Addr} {rest rest' : List (Bytes × Addr)}
    (hs : s.inbox = x :: rest) (ht : t.inbox = x :: rest') {nowUs now : Int}
    (hstep : s.step p (.handle nowUs now) = some s') :
    s'.inbox = rest ∧ ∃ t', t.step p (.handle nowUs now) = some t' ∧ Alike diverted s' t' ∧
      t'.inbox = rest' := by
  unfold AetherServerProtocol.step at hstep ⊢
  rw [hs] at hstep
  rw [ht]
  dsimp only at hstep ⊢
  unfold handleClientPacket at hstep ⊢
  split at hstep
  · obtain rfl := Option.some.inj hstep
    exact ⟨rfl, _, rfl, h.setInbox _ _, rfl⟩
  · obtain ⟨b, hput, rfl⟩ := Option.map_eq_some_iff.mp hstep
    dsimp only at hput
    rw [h.resequencer, h.router] at hput
    refine ⟨rfl, _, Option.map_eq_some_iff.mpr ⟨b, hput, rfl⟩, ?_, rfl⟩
    exact ⟨h.transport, rfl, rfl, h.addresses, h.packets, h.targets⟩

/-! ## The replayed packet in the inbox -/

/-- How many tasks of the inbox run with the event. -/
def Event.turns : Event → Nat
  | .handle _ _ => 1
  | _ => 0

/-- How many tasks have run. -/
def turns (es : List Event) : Nat := (es.map Event.turns).sum

/-- How many datagrams have come. -/
def arrived (es : List Event) : Nat := (es.map fun e => e.arrivals.length).sum

theorem turns_of_ne (he : ∀ nowUs now, e ≠ .handle nowUs now) : e.turns = 0 := by
  cases e with
  | handle nowUs now => exact absurd rfl (he nowUs now)
  | connectionMade | datagram | flushCheck | router => rfl

theorem step_inbox_length (hstep : s.step p e = some s') :
    s'.inbox.length + e.turns = s.inbox.length + e.arrivals.length := by
  by_cases he : ∃ nowUs now, e = .handle nowUs now
  · obtain ⟨nowUs, now, rfl⟩ := he
    obtain ⟨data, addr, inbox, hin, hcases⟩ := handle_cases hstep
    rw [hin]
    rcases hcases with ⟨_, -, rfl⟩ | ⟨_, _, _, _, b, -, -, rfl⟩ <;> rfl
  · have hne : ∀ nowUs now, e ≠ .handle nowUs now := fun nowUs now heq => he ⟨nowUs, now, heq⟩
    rw [(step_setInbox hne hstep []).1, turns_of_ne hne, List.length_append, Nat.add_zero]

/-- The inbox holds what has come and not had its turn. -/
theorem inbox_length {es : List Event} (hrun : runFrom (step p) s es = some s') :
    s'.inbox.length + turns es = s.inbox.length + arrived es := by
  induction es generalizing s with
  | nil =>
      obtain rfl : s = s' := by simpa using hrun
      rfl
  | cons e es ih =>
      obtain ⟨s₁, hstep, hrest⟩ := runFrom_cons_eq_some.mp hrun
      have hone := step_inbox_length hstep
      have hall := ih hrest
      unfold turns arrived at hall ⊢
      rw [List.map_cons, List.map_cons, List.sum_cons, List.sum_cons]
      omega

/-- The first server has the packet `x` in its inbox besides, behind `k` others. -/
def Ahead (diverted : List Nat) (x : Bytes × Addr) (k : Nat) (s t : AetherServerProtocol) : Prop :=
  Alike diverted s t ∧ ∃ before after, before.length = k ∧
    s.inbox = before ++ x :: after ∧ t.inbox = before ++ after

variable {x : Bytes × Addr} {k : Nat}

theorem Ahead.step (h : Ahead diverted x k s t) (hk : e.turns ≤ k) (hstep : s.step p e = some s') :
    ∃ t', t.step p e = some t' ∧ Ahead diverted x (k - e.turns) s' t' := by
  obtain ⟨halike, before, after, rfl, hs, ht⟩ := h
  by_cases he : ∃ nowUs now, e = .handle nowUs now
  · obtain ⟨nowUs, now, rfl⟩ := he
    cases before with
    | nil => exact absurd hk (by simp [Event.turns])
    | cons y before =>
        obtain ⟨hs', t', ht', halike', hin⟩ := halike.handle hs ht hstep
        exact ⟨t', ht', halike', before, after, rfl, hs', hin⟩
  · have hne : ∀ nowUs now, e ≠ .handle nowUs now := fun nowUs now heq => he ⟨nowUs, now, heq⟩
    obtain ⟨t', ht', halike'⟩ := halike.local hne hstep
    refine ⟨t', ht', halike', before, after ++ e.arrivals, ?_, ?_, ?_⟩
    · rw [turns_of_ne hne, Nat.sub_zero]
    · rw [(step_setInbox hne hstep []).1, hs, List.append_assoc, List.cons_append]
    · rw [(step_setInbox hne ht' []).1, ht, List.append_assoc]

theorem Ahead.run {es : List Event} (h : Ahead diverted x (turns es) s t)
    (hrun : runFrom (AetherServerProtocol.step p) s es = some s') :
    ∃ t', runFrom (AetherServerProtocol.step p) t es = some t' ∧ Ahead diverted x 0 s' t' := by
  induction es generalizing s t with
  | nil =>
      obtain rfl : s = s' := by simpa using hrun
      exact ⟨t, rfl, h⟩
  | cons e es ih =>
      obtain ⟨s₁, hstep, hrest⟩ := runFrom_cons_eq_some.mp hrun
      have hturns : turns (e :: es) = e.turns + turns es := by
        unfold turns
        rw [List.map_cons, List.sum_cons]
      obtain ⟨t₁, ht₁, h₁⟩ := h.step (by omega) hstep
      rw [hturns, Nat.add_sub_cancel_left] at h₁
      obtain ⟨t', hrun', h'⟩ := ih h₁ hrest
      exact ⟨t', runFrom_cons_eq_some.mpr ⟨t₁, ht₁, hrun'⟩, h'⟩

/-- From the same inbox on both servers go on alike. -/
theorem Alike.run {es : List Event} (h : Alike diverted s t) (hin : s.inbox = t.inbox)
    (hrun : runFrom (AetherServerProtocol.step p) s es = some s') :
    ∃ t', runFrom (AetherServerProtocol.step p) t es = some t' ∧ Alike diverted s' t' ∧
      s'.inbox = t'.inbox := by
  induction es generalizing s t with
  | nil =>
      obtain rfl : s = s' := by simpa using hrun
      exact ⟨t, rfl, h, hin⟩
  | cons e es ih =>
      obtain ⟨s₁, hstep, hrest⟩ := runFrom_cons_eq_some.mp hrun
      have hone : ∃ t₁, t.step p e = some t₁ ∧ Alike diverted s₁ t₁ ∧ s₁.inbox = t₁.inbox := by
        by_cases he : ∃ nowUs now, e = .handle nowUs now
        · obtain ⟨nowUs, now, rfl⟩ := he
          obtain ⟨data, addr, inbox, hs, -⟩ := handle_cases hstep
          obtain ⟨hs₁, t₁, ht₁, h₁, ht₁in⟩ := h.handle hs (hin ▸ hs) hstep
          exact ⟨t₁, ht₁, h₁, hs₁.trans ht₁in.symm⟩
        · have hne : ∀ nowUs now, e ≠ .handle nowUs now :=
            fun nowUs now heq => he ⟨nowUs, now, heq⟩
          obtain ⟨t₁, ht₁, h₁⟩ := h.local hne hstep
          refine ⟨t₁, ht₁, h₁, ?_⟩
          rw [(step_setInbox hne hstep []).1, (step_setInbox hne ht₁ []).1, hin]
      obtain ⟨t₁, ht₁, h₁, hin₁⟩ := hone
      obtain ⟨t', hrun', h', hin'⟩ := ih h₁ hin₁ hrest
      exact ⟨t', runFrom_cons_eq_some.mpr ⟨t₁, ht₁, hrun'⟩, h', hin'⟩

/-! ## Runs -/

/-- What has been handled is known. -/
theorem known_of_run {es : List Event} (hrun : runFrom (step p) init es = some s) :
    ∀ data ∈ observe (step p) handled init es, Known p data s := by
  have hstep : ∀ s e s' (xs : List Bytes),
      (s.resequencer.Settled ∧ ∀ data ∈ xs, Known p data s) → step p s e = some s' →
      s'.resequencer.Settled ∧ ∀ data ∈ xs ++ (s.handled e).toList, Known p data s' := by
    rintro s e s' xs ⟨hsettled, hknown⟩ hs
    refine ⟨settled_step hsettled hs, fun data hdata => ?_⟩
    rcases List.mem_append.mp hdata with hold | hnew
    · exact (hknown data hold).step hsettled hs
    · exact known_handle hsettled (Option.mem_toList.mp hnew) hs
  have hinit : init.resequencer.Settled ∧ ∀ data ∈ ([] : List Bytes), Known p data init :=
    ⟨ResequencingBuffer.init_settled _, by simp⟩
  exact (runFrom_observe_one hstep hinit hrun).2

/-- The packet is noted under its path id already, or too short to be. -/
def Noted (data : Bytes) (addr : Addr) (s : AetherServerProtocol) : Prop :=
  data.length < headerSize ∨ s.pathAddresses.get? (headerPathId data) = some addr

instance (data : Bytes) (addr : Addr) (s : AetherServerProtocol) : Decidable (Noted data addr s) :=
  inferInstanceAs (Decidable (_ ∨ _))

/-- The replay comes. -/
theorem ahead_datagram (s : AetherServerProtocol) (data : Bytes) (addr : Addr)
    (hdiverted : Noted data addr s ∨ headerPathId data ∈ diverted) :
    Ahead diverted (data, addr) s.inbox.length (s.datagramReceived data addr) s := by
  refine ⟨⟨rfl, rfl, rfl, fun q hq => ?_, rfl, fun _ => rfl⟩, s.inbox, [], rfl, rfl,
    (List.append_nil _).symm⟩
  unfold datagramReceived
  dsimp only
  split_ifs with hlen
  · rw [Dict.get?_set]
    split_ifs with heq
    · rcases hdiverted with (hshort | hnoted) | hpath
      · omega
      · rw [heq, hnoted]
      · exact absurd (heq ▸ hpath) hq
    · rfl
  · rfl

/-- The run without the replay. -/
theorem exists_run_without {es₁ es₂ es₃ : List Event} {nowUs now : Int}
    {s₁ : AetherServerProtocol} (hrun₁ : runFrom (step p) init es₁ = some s₁)
    (hrun : runFrom (step p) (s₁.datagramReceived data addr)
      (es₂ ++ .handle nowUs now :: es₃) = some s)
    (hturn : arrived es₁ = turns es₁ + turns es₂)
    (hreplay : data ∈ observe (step p) handled init (es₁ ++ .datagram data addr :: es₂))
    (hdiverted : Noted data addr s₁ ∨ headerPathId data ∈ diverted) :
    ∃ t, runFrom (step p) s₁ (es₂ ++ es₃) = some t ∧ Alike diverted s t ∧ s.inbox = t.inbox := by
  obtain ⟨s₂, hrun₂, hrest⟩ := runFrom_append_eq_some.mp hrun
  obtain ⟨s₃, hhandle, hrun₃⟩ := runFrom_cons_eq_some.mp hrest
  have hlength : s₁.inbox.length + turns es₁ = 0 + arrived es₁ := inbox_length hrun₁
  have hahead := ahead_datagram s₁ data addr hdiverted
  rw [show s₁.inbox.length = turns es₂ by omega] at hahead
  obtain ⟨t₂, ht₂, halike, before, after, hbefore, hs₂, ht₂in⟩ := hahead.run hrun₂
  obtain rfl := List.length_eq_zero_iff.mp hbefore
  have hknown := known_of_run (runFrom_append_eq_some.mpr ⟨s₁, hrun₁,
    runFrom_cons_eq_some.mpr ⟨_, rfl, hrun₂⟩⟩) data hreplay
  have hs₃ : s₃ = { s₂ with inbox := after } := by
    unfold AetherServerProtocol.step at hhandle
    rw [hs₂] at hhandle
    dsimp only [List.nil_append] at hhandle
    have hsame : Known p data { s₂ with inbox := after } := hknown
    rw [hsame.ignored] at hhandle
    exact (Option.some.inj hhandle).symm
  have halike₃ : Alike diverted s₃ t₂ := hs₃ ▸ halike.setInbox after t₂.inbox
  have hin₃ : s₃.inbox = t₂.inbox := by rw [hs₃, ht₂in, List.nil_append]
  obtain ⟨t, ht, h, hin⟩ := halike₃.run hin₃ hrun₃
  exact ⟨t, runFrom_append_eq_some.mpr ⟨t₂, ht₂, ht⟩, h, hin⟩

/-- **A replay changes nothing but an address.** A datagram arrives, and by its turn a datagram with
the same content has been handled before: without it the run goes on as well, and ends with the same
router, the same resequencer, the same inbox, the same addresses for other path ids and the same
packets transmitted; and they go to the same addresses, if the replay came from where the last
datagram on its path id did. -/
theorem run_replay (p : AetherProtocol) (es₁ es₂ es₃ : List Event) (data : Bytes) (addr : Addr)
    (nowUs now : Int) (s : AetherServerProtocol)
    (hrun : runFrom (step p) init
      (es₁ ++ .datagram data addr :: (es₂ ++ .handle nowUs now :: es₃)) = some s)
    (hturn : arrived es₁ = turns es₁ + turns es₂)
    (hreplay : data ∈ observe (step p) handled init (es₁ ++ .datagram data addr :: es₂)) :
    ∃ t, runFrom (step p) init (es₁ ++ (es₂ ++ es₃)) = some t ∧
      Alike [headerPathId data] s t ∧ s.inbox = t.inbox ∧
      ((∀ s₁ ∈ runFrom (step p) init es₁, Noted data addr s₁) → s.transmitted = t.transmitted) := by
  obtain ⟨s₁, hrun₁, hrest⟩ := runFrom_append_eq_some.mp hrun
  obtain ⟨_, hdatagram, hlater⟩ := runFrom_cons_eq_some.mp hrest
  obtain rfl := Option.some.inj hdatagram
  obtain ⟨t, ht, halike, hin⟩ :=
    exists_run_without hrun₁ hlater hturn hreplay (.inr List.mem_cons_self)
  refine ⟨t, runFrom_append_eq_some.mpr ⟨s₁, hrun₁, ht⟩, halike, hin, fun hnoted => ?_⟩
  obtain ⟨t', ht', halike', -⟩ :=
    exists_run_without hrun₁ hlater hturn hreplay (.inl (hnoted s₁ hrun₁))
  obtain rfl : t = t' := Option.some.inj (ht.symm.trans ht')
  exact halike'.targets rfl

/-- A captured CONNECT is sent again from elsewhere: no second session, but the answer goes there.
-/
theorem run_replay_captured :
    ∃ es₁ es₂ data s t,
      runFrom (step (.new .checksum [1])) init
        (es₁ ++ .datagram data ("203.0.113.5", 7) :: (es₂ ++ .handle 0 0 :: [])) = some s ∧
      s.transmitted.map Prod.snd = [("203.0.113.5", 7)] ∧
      runFrom (step (.new .checksum [1])) init (es₁ ++ (es₂ ++ [])) = some t ∧
      t.transmitted.map Prod.snd = [("192.0.2.1", 9)] ∧
      Alike [headerPathId data] s t ∧ s.inbox = t.inbox := by
  let p : AetherProtocol := .new .checksum [1]
  let packet : Bytes := (p.encryptAndPack (frame 1 7 [1, 0, 80, 97]) 0 0 0).toOption.getD []
  let es₁ : List Event := [.connectionMade, .datagram packet ("192.0.2.1", 9), .handle 0 0,
    .router (.start .done true), .router (.opened 0 true)]
  let es₂ : List Event := [.router (.relayData 1 [104] 0)]
  have hwith : ∃ s ∈ runFrom (step p) init
      (es₁ ++ .datagram packet ("203.0.113.5", 7) :: (es₂ ++ .handle 0 0 :: [])),
      s.transmitted.map Prod.snd = [("203.0.113.5", 7)] := by decide +kernel
  have hwithout : ∀ t ∈ runFrom (step p) init (es₁ ++ (es₂ ++ [])),
      t.transmitted.map Prod.snd = [("192.0.2.1", 9)] := by decide +kernel
  obtain ⟨s, hrun, hsent⟩ := hwith
  obtain ⟨t, ht, halike, hin, -⟩ := run_replay p es₁ es₂ [] packet ("203.0.113.5", 7) 0 0 s hrun
    (by decide +kernel) (by decide +kernel)
  exact ⟨es₁, es₂, packet, s, t, hrun, hsent, ht, hwithout t ht, halike, hin⟩

end AetherBond.Server.AetherServerProtocol
