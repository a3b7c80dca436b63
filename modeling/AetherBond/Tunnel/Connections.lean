import AetherBond.Client.VpnRequests
import AetherBond.Server.RouterRequests
import AetherBond.Tunnel.Codec
import AetherBond.Tunnel.Packets

set_option autoImplicit false

/-! # The connections of the server

An application that is accepted at the client asks for a destination; a session object of the server
opens a connection. The object is made from a CONNECT frame, this from the request of the
application whose session it names, and the client sends it once; so each connection has its own
application and goes where this one wanted (`run_connections`).
-/

namespace AetherBond

open AetherBond.Lib AetherBond.Common AetherBond.Client AetherBond.Server

/-! ## Frames -/

/-- A CONNECT frame says what it was packed with; the port has two bytes. -/
theorem Server.parsePayload_connectPayload {sessionId port port' k : Nat} {host host' : List Char}
    {payload : Bytes} {protocol : Transport}
    (hpack : AetherVPNClient.connectPayload k port host = some payload)
    (hparse : parsePayload payload = some (.connect sessionId protocol port' host')) :
    sessionId = k ∧ protocol = .tcp ∧ port' = port % 2 ^ 16 ∧ host' = host := by
  unfold AetherVPNClient.connectPayload packFrame at hpack
  split_ifs at hpack with hlt
  obtain rfl := Option.some.inj hpack
  have hbytes : toBE 2 port = toBE 2 (port % 2 ^ 16) := by
    have hlen : (toBE 2 port).length = 2 := length_toBE 2 port
    have hof : ofBE (toBE 2 port) = port % 2 ^ 16 := ofBE_toBE 2 port
    calc toBE 2 port = toBE (toBE 2 port).length (ofBE (toBE 2 port)) := (toBE_ofBE _).symm
      _ = toBE 2 (port % 2 ^ 16) := by rw [hlen, hof]
  rw [hbytes, parsePayload_connect hlt (Nat.mod_lt _ (by decide))] at hparse
  split_ifs at hparse
  cases hparse
  exact ⟨rfl, rfl, rfl, rfl⟩

/-- A payload that the server reads as CONNECT is one by its command. -/
theorem commandFor_of_parsePayload {payload : Bytes} {sessionId port : Nat} {protocol : Transport}
    {host : List Char}
    (hparse : parsePayload payload = some (.connect sessionId protocol port host)) :
    commandFor sessionId payload = some 1 := by
  unfold parsePayload at hparse
  unfold commandFor
  cases hsplit : splitFrame payload with
  | none =>
      rw [hsplit] at hparse
      cases hparse
  | some x =>
      obtain ⟨command, k, body⟩ := x
      rw [hsplit] at hparse
      dsimp only at hparse ⊢
      by_cases hconnect : command = 1
      · rw [if_pos hconnect] at hparse
        split_ifs at hparse <;> (cases hparse; rw [if_pos rfl, hconnect])
      · rw [if_neg hconnect] at hparse
        split_ifs at hparse <;> cases hparse

/-- A value that is seen at two places is counted twice. -/
theorem two_le_count {α β : Type*} [BEq β] [LawfulBEq β] {f : α → Option β} {l : List α}
    {i j : Nat} {a b : α} {x : β} (hlt : i < j) (hi : l[i]? = some a) (hj : l[j]? = some b)
    (ha : f a = some x) (hb : f b = some x) : 2 ≤ (l.filterMap f).count x := by
  have hfirst : a ∈ l.take j := by
    refine List.mem_of_getElem? (i := i) ?_
    rw [List.getElem?_take_of_lt hlt]
    exact hi
  have hsecond : b ∈ l.drop j := by
    refine List.mem_of_getElem? (i := 0) ?_
    rw [List.getElem?_drop]
    exact hj
  have hone : 0 < ((l.take j).filterMap f).count x :=
    List.count_pos_iff.mpr (List.mem_filterMap.mpr ⟨a, hfirst, ha⟩)
  have htwo : 0 < ((l.drop j).filterMap f).count x :=
    List.count_pos_iff.mpr (List.mem_filterMap.mpr ⟨b, hsecond, hb⟩)
  rw [← List.take_append_drop j l, List.filterMap_append, List.count_append]
  omega

namespace Tunnel

variable {p : AetherProtocol} {t t' : Tunnel} {e : Event} {requests : List (List Char × Nat)}

/-- The client takes a step of its own. -/
theorem step_client {e : AetherVPNClient.Event} (hstep : t.step p (.client e) = some t') :
    ∃ c, t.client.step p e = some c ∧ t' = { t with client := c } := by
  have hmap : (t.client.step p e).map (fun c => { t with client := c }) = some t' := by
    cases e with
    | deliver payload => cases hstep
    | _ => exact hstep
  obtain ⟨c, hc, rfl⟩ := Option.map_eq_some_iff.mp hmap
  exact ⟨c, hc, rfl⟩

/-- The server takes a step of its own. -/
theorem step_server {e : AetherServerProtocol.Event} (hstep : t.step p (.server e) = some t') :
    ∃ s, t.server.step p e = some s ∧ t' = { t with server := s } := by
  have hmap : (t.server.step p e).map (fun s => { t with server := s }) = some t' := by
    cases e with
    | datagram data addr => cases hstep
    | _ => exact hstep
  obtain ⟨s, hs, rfl⟩ := Option.map_eq_some_iff.mp hmap
  exact ⟨s, hs, rfl⟩

/-- What an application that is accepted asks for. -/
def Event.request? : Event → Option (List Char × Nat)
  | .client e => e.request?
  | _ => none

/-- The applications of a run, in the order they were accepted. -/
def requestsOf (es : List Event) : List (List Char × Nat) := es.filterMap Event.request?

/-- The invariant of the run, with the applications so far. -/
structure Connects (p : AetherProtocol) (requests : List (List Char × Nat)) (t : Tunnel) :
    Prop where
  settled : t.Settled
  ids : t.client.Ids
  once : ∀ h, t.client.Phase h
  client : t.client.Requested requests
  server : Router.Asked t.server.router.started t.server.router.requests

theorem init_connects (p : AetherProtocol) (activeSockets : List String) :
    Connects p [] (init activeSockets) where
  settled := init_settled activeSockets
  ids := AetherVPNClient.init_ids activeSockets
  once h := AetherVPNClient.init_phase h activeSockets
  client := AetherVPNClient.init_requested activeSockets
  server :=
    ⟨List.nodup_nil, by simp [init, AetherServerProtocol.init, Router.init, Router.requests]⟩

/-- The requests of the applications, at the client. -/
theorem Connects.requested (h : Connects p requests t) (hstep : t.step p e = some t') :
    t'.client.Requested (requests ++ e.request?.toList) := by
  have hnone : e.request? = none → t'.client.Requested requests →
      t'.client.Requested (requests ++ e.request?.toList) := by
    intro he hc
    rw [he, Option.toList_none, List.append_nil]
    exact hc
  have hother : (∀ e', e ≠ .client e') → e.request? = none := by
    intro he
    cases e with
    | client e' => exact absurd rfl (he e')
    | _ => rfl
  by_cases hclient : ∃ e', e = .client e'
  · obtain ⟨e', rfl⟩ := hclient
    obtain ⟨c, hc, rfl⟩ := step_client hstep
    exact h.client.step h.ids hc
  refine hnone (hother fun e' he => hclient ⟨e', he⟩) ?_
  rcases step_cases hstep with rfl | ⟨e', he, -⟩ | ⟨e', hbuffer, -⟩ | ⟨_, -, -, -, hc, -⟩
  · exact h.client
  · exact absurd ⟨e', he⟩ hclient
  · obtain ⟨run, heff⟩ := ResequencingBuffer.step_effect h.settled.1 hbuffer
    rw [heff.callback]
    exact ResequencingBuffer.runCallback_invariant (Q := fun _ => True)
      (fun payload c _ hc => hc.congr (c.deliver_sentSame payload)) (fun _ _ => trivial) h.client
  · rw [hc]
    exact h.client

/-- **The step lemma.** -/
theorem Connects.step (h : Connects p requests t) (hstep : t.step p e = some t') :
    Connects p (requests ++ e.request?.toList) t' := by
  have hclient : t'.client.Ids ∧ ∀ h, t'.client.Phase h :=
    client_invariant (I := fun c => c.Ids ∧ ∀ h, c.Phase h)
      (fun _ _ _ hc hs => ⟨hc.1.step hs, fun h => (hc.2 h).step hc.1 hs⟩) h.settled
      ⟨h.ids, h.once⟩ hstep
  refine ⟨h.settled.step hstep, hclient.1, hclient.2, h.requested hstep, ?_⟩
  rcases step_cases hstep with rfl | ⟨_, -, -, -, hserver⟩ | ⟨_, -, hserver⟩ |
    ⟨_, -, -, hserver, -, -⟩
  · exact h.server
  · exact hserver ▸ h.server
  · exact hserver ▸ h.server
  · exact AetherServerProtocol.router_invariant (I := fun r => Router.Asked r.started r.requests)
      (fun _ _ _ hr hs => hr.step hs) h.settled.2 h.server hserver

/-- What the server has started comes from the client, in order. -/
theorem started_sublist (hv : ∀ h, Conveys p False h t) :
    t.server.router.started.Sublist t.client.payloads := by
  have hv := hv 0
  have hqueued : t.server.router.started <+: t.server.resequencer.delivered.map fun x => x.2.1 :=
    ⟨_, hv.server.queued⟩
  calc t.server.router.started.Sublist (t.server.resequencer.delivered.map fun x => x.2.1) :=
        hqueued.sublist
    List.Sublist _ (t.client.payloads.take t.server.resequencer.expectedSeq) :=
        hv.server.follows.delivered
    List.Sublist _ t.client.payloads := List.take_sublist _ _

/-- The object was made from a CONNECT frame that is its own. -/
theorem Connects.object (h : Connects p requests t) {o : Nat} {s : UserSpaceSession}
    (ho : t.server.router.objects[o]? = some s) :
    ∃ payload, t.server.router.started[s.frame]? = some payload ∧
      parsePayload payload = some (.connect s.sessionId s.protocol s.destPort s.destIp) := by
  have hin : s.request ∈ t.server.router.requests :=
    List.mem_append_left _ (List.mem_map_of_mem (List.mem_of_getElem? ho))
  obtain ⟨payload, hp, hparse⟩ := Option.bind_eq_some_iff.mp (h.server.said s.request hin)
  exact ⟨payload, hp, hparse⟩

/-- The object is the one of an application, and goes where this wants. -/
theorem Connects.application (h : Connects p requests t) (hv : ∀ h, Conveys p False h t)
    {s : UserSpaceSession} (hs : s ∈ t.server.router.objects) :
    s.sessionId < 2 ^ 32 ∧ ∃ h dstAddr dstPort, requests[h]? = some (dstAddr, dstPort) ∧
      s.sessionId = h + 1 ∧ s.protocol = .tcp ∧ s.destIp = dstAddr ∧
        s.destPort = dstPort % 2 ^ 16 := by
  obtain ⟨o, ho⟩ := List.getElem?_of_mem hs
  obtain ⟨payload, hp, hparse⟩ := h.object ho
  obtain ⟨n, dstAddr, dstPort, hid, hget, hpack⟩ := h.client.connects payload
    ((started_sublist hv).subset (List.mem_of_getElem? hp)) s.sessionId
    (commandFor_of_parsePayload hparse)
  obtain ⟨-, hprotocol, hport, hip⟩ := parsePayload_connectPayload hpack hparse
  refine ⟨?_, n, dstAddr, dstPort, hget, hid, hprotocol, hip, hport⟩
  unfold AetherVPNClient.connectPayload packFrame at hpack
  split_ifs at hpack with hlt
  exact hlt

/-- Two objects come from two frames. -/
theorem Connects.frame_inj (h : Connects p requests t) {o o' : Nat} {s s' : UserSpaceSession}
    (ho : t.server.router.objects[o]? = some s) (ho' : t.server.router.objects[o']? = some s')
    (heq : s.frame = s'.frame) : o = o' := by
  have hnodup : (t.server.router.objects.map UserSpaceSession.frame).Nodup := by
    have hall := h.server.frames
    unfold Router.requests at hall
    rw [List.map_append, List.map_map] at hall
    exact hall.of_append_left
  obtain ⟨hlt, -⟩ := List.getElem?_eq_some_iff.mp ho
  refine (List.getElem?_inj (by rwa [List.length_map]) hnodup).mp ?_
  rw [List.getElem?_map, List.getElem?_map, ho, ho']
  exact congrArg some heq

/-- Two objects are of two sessions: the client connects a session once. -/
theorem Connects.session_inj (h : Connects p requests t) (hv : ∀ h, Conveys p False h t)
    {o o' : Nat} {s s' : UserSpaceSession} (ho : t.server.router.objects[o]? = some s)
    (ho' : t.server.router.objects[o']? = some s') (heq : s.sessionId = s'.sessionId) : o = o' := by
  obtain ⟨q, hq, hparse⟩ := h.object ho
  obtain ⟨q', hq', hparse'⟩ := h.object ho'
  have hcommand := commandFor_of_parsePayload hparse
  have hcommand' := commandFor_of_parsePayload hparse'
  rw [← heq] at hcommand'
  obtain ⟨n, _, _, hid, -, -⟩ := h.client.connects q
    ((started_sublist hv).subset (List.mem_of_getElem? hq)) s.sessionId hcommand
  have hmap : t.client.payloads.filterMap (commandFor s.sessionId) =
      AetherVPNClient.commandsFor (n + 1) t.client := by
    rw [hid]
    exact List.filterMap_map
  have hone := (h.once n).connect_once
  rw [← hmap] at hone
  have hle : (t.server.router.started.filterMap (commandFor s.sessionId)).count 1 ≤ 1 :=
    (((started_sublist hv).filterMap _).count_le 1).trans hone
  by_contra hne
  rcases Nat.lt_or_gt_of_ne fun hframe => hne (h.frame_inj ho ho' hframe) with hlt | hlt
  · have htwo := two_le_count hlt hq hq' hcommand hcommand'
    omega
  · have htwo := two_le_count hlt hq' hq hcommand' hcommand
    omega

theorem Connects.nodup (h : Connects p requests t) (hv : ∀ h, Conveys p False h t) :
    (t.server.router.objects.map UserSpaceSession.sessionId).Nodup := by
  refine List.nodup_iff_getElem?_ne_getElem?.mpr fun i j hlt hj heq => ?_
  rw [List.length_map] at hj
  obtain ⟨s, hs⟩ : ∃ s, t.server.router.objects[i]? = some s :=
    ⟨_, List.getElem?_eq_getElem (hlt.trans hj)⟩
  obtain ⟨s', hs'⟩ : ∃ s', t.server.router.objects[j]? = some s' :=
    ⟨_, List.getElem?_eq_getElem hj⟩
  rw [List.getElem?_map, List.getElem?_map, hs, hs'] at heq
  exact absurd (h.session_inj hv hs hs' (Option.some.inj heq)) hlt.ne

/-- **The connections of a run.** In every run, whatever the network does: each session object of
the server belongs to one application the client has accepted, carries its session id and connects
by TCP to the host and port this application asked for; and no two objects have one session id. -/
theorem run_connections (p : AetherProtocol) (hcipher : p.cipher.Correct)
    (activeSockets : List String) (es : List Event) (t : Tunnel)
    (hrun : runFrom (step p) (init activeSockets) es = some t) :
    (∀ s ∈ t.server.router.objects, ∃ h dstAddr dstPort,
        (requestsOf es)[h]? = some (dstAddr, dstPort) ∧ s.sessionId = h + 1 ∧
          s.protocol = .tcp ∧ s.destIp = dstAddr ∧ s.destPort = dstPort % 2 ^ 16) ∧
      (t.server.router.objects.map UserSpaceSession.sessionId).Nodup := by
  have hv : ∀ h, Conveys p False h t := fun h =>
    runFrom_invariant (fun _ _ _ hv hstep => hv.step hcipher False.elim hstep)
      (init_conveys p False h activeSockets) hrun
  have hc : Connects p (requestsOf es) t :=
    runFrom_history (I := fun t requests => Connects p requests t)
      (fun _ _ _ _ hc hstep => hc.step hstep) (init_connects p activeSockets) hrun
  exact ⟨fun s hs => (hc.application hv hs).2, hc.nodup hv⟩

/-- Two applications; the CONNECT of the second comes back from the network first, and twice. -/
theorem run_connections_two :
    ∃ t, runFrom (step (.new .checksum [1])) (init ["10.0.0.1"])
        [.client (.accepted ['a'] 80), .client (.accepted ['b'] 443),
          .client (.replied 0 true ⟨some "10.0.0.1", 0⟩ ⟨none, 0⟩),
          .client (.replied 1 true ⟨some "10.0.0.1", 0⟩ ⟨none, 0⟩),
          .uplink 1 ("192.0.2.1", 9), .uplink 0 ("192.0.2.1", 9), .uplink 1 ("192.0.2.1", 9),
          .server (.handle 0 0), .server (.handle 0 0), .server (.handle 0 0),
          .server (.router (.start .done true)), .server (.router (.start .done true)),
          .server (.router (.opened 0 true)), .server (.router (.resume 1 true 0))] = some t ∧
      t.server.router.objects.map (fun s => (s.sessionId, s.destIp, s.destPort)) =
        [(1, ['a'], 80), (2, ['b'], 443)] ∧
      (t.server.router.objects.map UserSpaceSession.sessionId).Nodup := by
  have hrun : (runFrom (step (.new .checksum [1])) (init ["10.0.0.1"])
      [.client (.accepted ['a'] 80), .client (.accepted ['b'] 443),
        .client (.replied 0 true ⟨some "10.0.0.1", 0⟩ ⟨none, 0⟩),
        .client (.replied 1 true ⟨some "10.0.0.1", 0⟩ ⟨none, 0⟩),
        .uplink 1 ("192.0.2.1", 9), .uplink 0 ("192.0.2.1", 9), .uplink 1 ("192.0.2.1", 9),
        .server (.handle 0 0), .server (.handle 0 0), .server (.handle 0 0),
        .server (.router (.start .done true)), .server (.router (.start .done true)),
        .server (.router (.opened 0 true)), .server (.router (.resume 1 true 0))]).map
      (fun t => t.server.router.objects.map fun s => (s.sessionId, s.destIp, s.destPort)) =
        some [(1, ['a'], 80), (2, ['b'], 443)] := by decide +kernel
  obtain ⟨t, hrun, hobjects⟩ := Option.map_eq_some_iff.mp hrun
  exact ⟨t, hrun, hobjects, (run_connections _ Aead.checksum_correct _ _ t hrun).2⟩

end Tunnel

end AetherBond
