import AetherBond.Tunnel.Downlink

set_option autoImplicit false

/-! # The tunnel at rest

What was written at either end is always a part of what was read at the other (`Stream.lean`,
`Downlink.lean`). When both ends still relay a session and none of its bytes are on their way
(`AtRest`), the parts are the whole: if no step of the run tore a hole, everything the client read
from the application was written to its destination, and everything the server read there was
written to the application (`run_atRest`). So between two pauses the tunnel is a plain connection.
-/

namespace AetherBond

open AetherBond.Lib AetherBond.Common AetherBond.Client AetherBond.Server

/-- The session at the server takes DATA, and its relay loop is at its read. -/
def Server.Router.Relays (k : Nat) (r : Router) : Prop :=
  ∃ o ∈ r.sessions.get? k, (∃ s ∈ r.objects[o]?, s.active = true) ∧ Pc.relayRead o ∈ r.tasks

instance (k : Nat) (r : Router) : Decidable (r.Relays k) :=
  inferInstanceAs (Decidable (∃ o ∈ r.sessions.get? k, (∃ s ∈ r.objects[o]?, s.active = true) ∧
    Pc.relayRead o ∈ r.tasks))

namespace Tunnel

variable {p : AetherProtocol} {t : Tunnel} {lossless : Prop} {h : Nat}
  {reads : List (Nat × Bytes)} {requests : List (List Char × Nat)}

/-- Both ends relay session `h + 1`, and nothing is on its way between them. -/
structure AtRest (h : Nat) (t : Tunnel) : Prop where
  handler : t.client.handlers[h]? = some .reading
  sockets : t.client.activeSockets ≠ []
  /-- The server has been through all numbers of the client, and its tasks have all started. -/
  received : t.server.resequencer.expectedSeq = t.client.payloads.length
  queue : t.server.router.queue = []
  relays : t.server.router.Relays (h + 1)
  /-- The client has been through all numbers of the server, and has written what came. -/
  returned : t.resequencer.expectedSeq = t.server.router.payloads.length
  writes : bodiesFor h t.client.writes = []
  session : ∀ s ∈ t.client.objects[h]?, s.open

instance (h : Nat) (t : Tunnel) : Decidable (AtRest h t) :=
  decidable_of_iff (t.client.handlers[h]? = some .reading ∧ t.client.activeSockets ≠ [] ∧
      t.server.resequencer.expectedSeq = t.client.payloads.length ∧ t.server.router.queue = [] ∧
      t.server.router.Relays (h + 1) ∧
      t.resequencer.expectedSeq = t.server.router.payloads.length ∧
      bodiesFor h t.client.writes = [] ∧ ∀ s ∈ t.client.objects[h]?, s.open)
    ⟨fun ⟨h₁, h₂, h₃, h₄, h₅, h₆, h₇, h₈⟩ => ⟨h₁, h₂, h₃, h₄, h₅, h₆, h₇, h₈⟩,
      fun ⟨h₁, h₂, h₃, h₄, h₅, h₆, h₇, h₈⟩ => ⟨h₁, h₂, h₃, h₄, h₅, h₆, h₇, h₈⟩⟩

/-- Everything read from the application has got a number. -/
theorem AtRest.sent (hrest : AtRest h t) (hv : Conveys p lossless h t) :
    t.client.payloads.filterMap (Server.dataFor (h + 1)) = bodiesFor h t.client.chunks := by
  have hall := hv.client.relaying.current .reading (by rw [hrest.handler]; rfl) (by decide)
    hrest.sockets
  calc t.client.payloads.filterMap (Server.dataFor (h + 1))
      = AetherVPNClient.sentFor (h + 1) t.client := by
        unfold AetherVPNClient.payloads AetherVPNClient.sentFor
        rw [List.filterMap_map]
        exact List.filterMap_congr fun call _ => dataFor_eq_dataFor (h + 1) call.payload
    _ = bodiesFor h t.client.chunks := by
        rw [hall]
        exact (List.append_nil _).symm

/-- **The way there.** -/
theorem AtRest.uplink (hrest : AtRest h t) (hv : Conveys p lossless h t) (hw : lossless) :
    t.server.router.writtenTo (h + 1) = bodiesFor h t.client.chunks := by
  obtain ⟨hcomplete, hstream⟩ := hv.server.whole hw
  have hwhole : t.server.router.writtenTo (h + 1) = t.server.router.startedFor (h + 1) := by
    obtain ⟨o, hentry, ⟨s, ho, hactive⟩, -⟩ := hrest.relays
    refine hstream.whole.resolve_right fun hidle => ?_
    rw [hidle o s hentry ho] at hactive
    cases hactive
  have hstarted : t.server.router.startedFor (h + 1)
      = t.server.resequencer.delivered.filterMap fun x => Server.dataFor (h + 1) x.2.1 := by
    have hqueued := hv.server.queued
    rw [hrest.queue, List.map_nil, List.append_nil] at hqueued
    unfold Router.startedFor
    rw [hqueued, List.filterMap_map]
    rfl
  calc t.server.router.writtenTo (h + 1)
      = t.server.router.startedFor (h + 1) := hwhole
    _ = t.server.resequencer.delivered.filterMap (fun x => Server.dataFor (h + 1) x.2.1) :=
        hstarted
    _ = (t.client.payloads.take t.server.resequencer.expectedSeq).filterMap
          (Server.dataFor (h + 1)) := hcomplete
    _ = t.client.payloads.filterMap (Server.dataFor (h + 1)) := by
        rw [hrest.received, List.take_length]
    _ = bodiesFor h t.client.chunks := hrest.sent hv

/-- Everything read from the destination has got a number. -/
theorem AtRest.responses (hrest : AtRest h t) (hv : Returns p lossless h t reads requests) :
    t.server.router.payloads.filterMap (Client.dataFor (h + 1)) = bodiesFor (h + 1) reads := by
  obtain ⟨reads', nums, hordered, rfl⟩ := hv.relays
  have hids : t.server.router.ids.Nodup := hv.connects.nodup hv.conveys
  have hid : ∀ k ∈ t.server.router.ids, k < 2 ^ 32 := by
    intro k hk
    obtain ⟨s, hs, rfl⟩ := List.mem_map.mp hk
    exact (hv.connects.application hv.conveys hs).1
  obtain ⟨o, hentry, -, hloop⟩ := hrest.relays
  obtain ⟨u, hpc⟩ := List.getElem?_of_mem hloop
  have hlabel : t.server.router.ids[o]? = some (h + 1) := by
    obtain ⟨s', hs', hk⟩ := (hv.conveys h).server.tcp.entry (h + 1) o hentry
    unfold Router.ids
    rw [List.getElem?_map, hs', Option.map_some, hk]
  obtain ⟨hreads, hnums⟩ := hordered.lt
  -- the relay task of the object holds no chunk
  have hheld := (RelayInv.holder hordered u _ o hpc rfl).2
  rw [hordered.dataFor hid, bodiesFor_label hids hnums hlabel, bodiesFor_label hids hreads hlabel,
    hheld]
  exact (List.append_nil _).symm

/-- **The way back.** -/
theorem AtRest.downlink (hrest : AtRest h t) (hv : Returns p lossless h t reads requests)
    (hw : lossless) : bodiesFor h t.client.written = bodiesFor (h + 1) reads := by
  have hlt : h < t.client.objects.length := by
    rw [← hv.connects.ids.handlers]
    exact (List.getElem?_eq_some_iff.mp hrest.handler).1
  have hs : t.client.objects[h]? = some t.client.objects[h] := List.getElem?_eq_getElem hlt
  have hwritten := ((hv.writes.2 _ hs).pending (hrest.session _ hs)).2
  rw [hrest.writes, List.append_nil] at hwritten
  have hcomplete := hv.complete hw
  calc bodiesFor h t.client.written
      = t.client.deliveredTo h := hwritten
    _ = (t.server.router.payloads.take t.resequencer.expectedSeq).filterMap
          (Client.dataFor (h + 1)) := by
        unfold AetherVPNClient.deliveredTo
        rw [hv.ends.acted, List.filterMap_map]
        exact hcomplete
    _ = t.server.router.payloads.filterMap (Client.dataFor (h + 1)) := by
        rw [hrest.returned, List.take_length]
    _ = bodiesFor (h + 1) reads := hrest.responses hv

/-- **At rest the tunnel has kept nothing back.** In every run without a hole, whatever the network
and the timers did: when both ends relay a session and nothing is on its way, its destination has
got all that was read from the application, and the application all that was read from its
destination, in order and once each. -/
theorem run_atRest (p : AetherProtocol) (hcipher : p.cipher.Correct)
    (activeSockets : List String) (es : List Event) (t : Tunnel)
    (hrun : runFrom (step p) (init activeSockets) es = some t) (h : Nat)
    (hunbroken : Along (step p) (Unbroken (h + 1)) (init activeSockets) es)
    (hkeeps : Along (step p) (Keeps (h + 1)) (init activeSockets) es) (hrest : AtRest h t) :
    t.server.router.writtenTo (h + 1) = bodiesFor h t.client.chunks ∧
      bodiesFor h t.client.written =
        bodiesFor (h + 1) (observe (step p) chunkRead (init activeSockets) es) := by
  have hthere : Conveys p True h t :=
    runFrom_invariant_along (fun _ _ _ hv hun hstep => hv.step hcipher (fun _ => hun) hstep)
      (init_conveys p True h activeSockets) hunbroken hrun
  have hstep : ∀ (t : Tunnel) (e : Event) (t' : Tunnel) (reads : List (Nat × Bytes))
      (requests : List (List Char × Nat)), Returns p True h t reads requests →
      Keeps (h + 1) t e → t.step p e = some t' →
      Returns p True h t' (reads ++ (t.chunkRead e).toList) (requests ++ e.request?.toList) :=
    fun _ _ _ _ _ hv hk hs => hv.step hcipher (fun _ => hk) hs
  have hback := runFrom_observe_along hstep (init_returns p True h activeSockets) hkeeps hrun
  exact ⟨hrest.uplink hthere trivial, hrest.downlink hback trivial⟩

/-- "h" and "i" go out, the second first; "x" comes back. -/
theorem run_atRest_overtaking :
    ∃ (es : List Event) (t : Tunnel),
      runFrom (step (.new .checksum [1])) (init ["10.0.0.1"]) es = some t ∧
      t.server.router.writtenTo 1 = [[104], [105]] ∧ bodiesFor 0 t.client.written = [[120]] ∧
      t.server.router.writtenTo 1 = bodiesFor 0 t.client.chunks ∧
      bodiesFor 0 t.client.written = bodiesFor 1
        (observe (step (.new .checksum [1])) chunkRead (init ["10.0.0.1"]) es) := by
  let es : List Event := [.client (.accepted ['a'] 80),
    .client (.replied 0 true ⟨some "10.0.0.1", 0⟩ ⟨none, 0⟩), .client (.sent 0 ⟨none, 0⟩),
    .client (.received 0 [104] ⟨some "10.0.0.1", 0⟩ ⟨none, 0⟩),
    .client (.paced 0 true 0 ⟨none, 0⟩), .client (.sent 0 ⟨none, 0⟩),
    .client (.received 0 [105] ⟨some "10.0.0.1", 0⟩ ⟨none, 0⟩),
    .client (.paced 0 true 0 ⟨none, 0⟩), .client (.sent 0 ⟨none, 0⟩),
    .uplink 0 ("192.0.2.1", 9), .server .connectionMade,
    .server (.handle 0 0), .server (.router (.start .done true)),
    .server (.router (.opened 0 true)), .uplink 2 ("192.0.2.1", 9), .uplink 1 ("192.0.2.1", 9),
    .server (.handle 0 0), .server (.handle 0 0), .server (.router (.start .done true)),
    .server (.router (.start .done true)), .server (.router (.relayData 1 [120] 0)),
    .downlink 0 0 0, .client (.startWrite .done)]
  have hend : ∃ t ∈ runFrom (step (.new .checksum [1])) (init ["10.0.0.1"]) es,
      t.server.router.writtenTo 1 = [[104], [105]] ∧ bodiesFor 0 t.client.written = [[120]] ∧
      AtRest 0 t := by decide +kernel
  obtain ⟨t, hrun, hwritten, hback, hrest⟩ := hend
  exact ⟨es, t, hrun, hwritten, hback, run_atRest _ Aead.checksum_correct _ es t hrun 0
    (by decide +kernel) (by decide +kernel) hrest⟩

end Tunnel

end AetherBond
