import AetherBond.Server.ReceiverStream
import AetherBond.Server.RouterStream
import AetherBond.Tunnel.Nonces

set_option autoImplicit false

/-! # The byte stream of a session, end to end

The frames the client encrypts are a numbered list. The resequencer follows this list, the
router starts its tasks in the order of the deliveries, and each task writes its chunk or drops
it; so what reaches the destination of a session is always a part of the chunks read from its
application, in their order. There is no retransmission: where the resequencer has waited long
enough for a packet it goes on without it, and the stream has a hole. Without such a skip, and
if the connection is opened before the first of its DATA tasks starts, what reaches the
destination is the beginning of what was read (`run_stream`).
-/

namespace AetherBond

open AetherBond.Lib AetherBond.Common AetherBond.Client AetherBond.Server

/-! ## The client's frames -/

namespace Client.AetherVPNClient

variable {p : AetherProtocol} {c c' : AetherVPNClient} {h : Nat}

/-- The frames given to `encrypt_and_pack`, in order. -/
def payloads (c : AetherVPNClient) : List Bytes := c.encryptCalls.map EncryptCall.payload

/-- A packet of the client carries the frame with its number. -/
theorem Numbered.decrypt (hn : Numbered p c) (hcipher : p.cipher.Correct) {data payload : Bytes}
    {seq pathId : Nat} {nowUs : Int} {latency : ℚ} (hdata : data ∈ c.datagrams)
    (hok : p.unpackAndDecrypt data nowUs = .ok (payload, seq, pathId, latency)) :
    c.payloads[seq]? = some payload := by
  obtain ⟨call, hcall, hpack⟩ := hn.packets data hdata
  rw [unpackAndDecrypt_encryptAndPack hcipher hpack nowUs] at hok
  cases hok
  exact payload_at_seq hn.seqs hcall

/-- No frame of a client asks for a UDP session. -/
theorem Framed.onlyTcp {payload : Bytes} (hframe : Framed (some payload)) : OnlyTcp payload := by
  intro sessionId protocol port destIp hp
  have hparse : ∀ {cmd : UInt8} {sid : Nat} {body : Bytes},
      packFrame cmd sid body = some payload → splitFrame payload = some (cmd, sid, body) := by
    intro cmd sid body hpack
    unfold packFrame at hpack
    split_ifs at hpack with hlt
    rw [← Option.some.inj hpack]
    exact splitFrame_frame body hlt
  unfold parsePayload at hp
  generalize hq : some payload = q at hframe
  cases hframe with
  | connect sid dstPort dstAddr =>
      rw [hparse hq.symm] at hp
      dsimp only at hp
      rw [if_pos rfl] at hp
      split_ifs at hp with hlen htcp
      · cases hp
        rfl
      · exact absurd rfl htcp
  | data sid data =>
      rw [hparse hq.symm] at hp
      cases hp
  | close sid =>
      rw [hparse hq.symm] at hp
      cases hp

/-- The invariant of the client. -/
structure Sending (p : AetherProtocol) (h : Nat) (c : AetherVPNClient) : Prop where
  ids : c.Ids
  numbered : c.Numbered p
  relaying : c.Relaying h
  framed : ∀ call ∈ c.encryptCalls, Framed (some call.payload)

theorem init_sending (p : AetherProtocol) (h : Nat) (activeSockets : List String) :
    Sending p h (init activeSockets) :=
  ⟨init_ids activeSockets, init_numbered p activeSockets, init_relaying h activeSockets,
    by simp [init]⟩

theorem Sending.step (hs : Sending p h c) {e : Event} (hstep : c.step p e = some c') :
    Sending p h c' := by
  refine ⟨hs.ids.step hstep, hs.numbered.step hstep, hs.relaying.step hs.ids hstep,
    fun call hcall => ?_⟩
  obtain ⟨calls, packets, hsends⟩ := step_sends hstep
  rw [hsends.encryptCalls] at hcall
  exact (List.mem_append.mp hcall).elim (hs.framed call) (hsends.framed call)

theorem Sending.onlyTcp (hs : Sending p h c) : ∀ payload ∈ c.payloads, OnlyTcp payload := by
  intro payload hp
  obtain ⟨call, hcall, rfl⟩ := List.mem_map.mp hp
  exact (hs.framed call hcall).onlyTcp

/-- What was sent stays sent. -/
structure Extends (c c' : AetherVPNClient) : Prop where
  payloads : c.payloads <+: c'.payloads
  datagrams : ∀ data ∈ c.datagrams, data ∈ c'.datagrams

theorem Extends.refl (c : AetherVPNClient) : c.Extends c := ⟨List.prefix_rfl, fun _ h => h⟩

theorem Extends.step {c₀ : AetherVPNClient} (h : c₀.Extends c) {e : Event}
    (hstep : c.step p e = some c') : c₀.Extends c' := by
  obtain ⟨calls, packets, hsends⟩ := step_sends hstep
  constructor
  · refine h.payloads.trans ⟨calls.map EncryptCall.payload, ?_⟩
    unfold AetherVPNClient.payloads
    rw [hsends.encryptCalls, List.map_append]
  · intro data hdata
    rw [hsends.datagrams]
    exact List.mem_append_left _ (h.datagrams data hdata)

end Client.AetherVPNClient

/-- Both ends read DATA frames alike. -/
theorem dataFor_eq_dataFor (k : Nat) (payload : Bytes) :
    Server.dataFor k payload = Client.dataFor k payload := by
  unfold Server.dataFor Client.dataFor parsePayload
  cases hp : splitFrame payload with
  | none => rfl
  | some x =>
      obtain ⟨cmd, sessionId, body⟩ := x
      dsimp only
      by_cases h₁ : cmd = 1
      · have h₂ : ¬ (cmd = 2 ∧ sessionId = k) := by
          rintro ⟨h, -⟩
          rw [h₁] at h
          cases h
        rw [if_pos h₁, if_neg h₂]
        split_ifs <;> rfl
      · by_cases h₂ : cmd = 2
        · rw [if_neg h₁, if_pos h₂]
          exact if_congr (by simp [h₂]) rfl rfl
        · have hno : ¬ (cmd = 2 ∧ sessionId = k) := fun h => h₂ h.1
          rw [if_neg h₁, if_neg h₂, if_neg hno]
          split_ifs <;> rfl

/-! ## The server -/

namespace Server.AetherServerProtocol

variable {p : AetherProtocol} {s s' : AetherServerProtocol} {e : Event} {lossless : Prop}
  {k : Nat} {l l' : List Bytes} {b b' : ResequencingBuffer (Bytes × Addr × Nat)} {r r' : Router}

/-- Resequencer and router pass on the list `l` of frames, as far as session `k` goes: in order,
and `lossless` runs without a hole. -/
structure PassesOn (lossless : Prop) (k : Nat) (l : List Bytes)
    (b : ResequencingBuffer (Bytes × Addr × Nat)) (r : Router) : Prop where
  settled : b.Settled
  follows : b.Follows Prod.fst l
  queued : r.started ++ r.queue.map Prod.fst = b.delivered.map fun x => x.2.1
  tcp : r.Tcp
  written : (r.writtenTo k).Sublist (r.startedFor k)
  whole : lossless → b.Complete Prod.fst (dataFor k) l ∧ r.Stream k

theorem init_passesOn (lossless : Prop) (k : Nat) (l : List Bytes) :
    PassesOn lossless k l .init .init where
  settled := ResequencingBuffer.init_settled _
  follows := ResequencingBuffer.init_follows _ _ _
  queued := rfl
  tcp := Router.init_tcp
  written := List.nil_sublist _
  whole _ := ⟨ResequencingBuffer.init_complete _ _ _ _, Router.init_stream k⟩

theorem PassesOn.mono (h : PassesOn lossless k l b r) (hl : l <+: l') :
    PassesOn lossless k l' b r :=
  ⟨h.settled, h.follows.mono hl, h.queued, h.tcp, h.written, fun hw =>
    ⟨(h.whole hw).1.mono h.follows hl, (h.whole hw).2⟩⟩

/-- The resequencer takes a step. -/
theorem PassesOn.buffer (h : PassesOn lossless k l b r) (htcp : ∀ payload ∈ l, OnlyTcp payload)
    {e : ResequencingBuffer.Event (Bytes × Addr × Nat)}
    (hnew : ∀ x, b.Accepts x e → l[x.seq]? = some x.payload.1)
    (hmiss : lossless → ¬ b.Misses (dataFor k) l e)
    (hstep : ResequencingBuffer.step callback (b, r) e = some (b', r')) :
    PassesOn lossless k l b' r' := by
  obtain ⟨run, heff⟩ := ResequencingBuffer.step_effect h.settled hstep
  have hr : r' = { r with queue := r.queue ++ run.map Entry.payload } :=
    heff.callback.trans (runCallback_callback run r)
  have hdelivered := ResequencingBuffer.delivered_of_effect heff Prod.fst
  constructor
  case settled =>
    exact ResequencingBuffer.settled_of_run (s := (b, r)) h.settled
      (runFrom_cons_eq_some.mpr ⟨_, hstep, runFrom_nil _⟩)
  case follows => exact h.follows.effect heff hnew
  case queued =>
    rw [hr, hdelivered, ← h.queued]
    simp
  case tcp =>
    rw [hr]
    refine ⟨⟨h.tcp.entry, h.tcp.carried, h.tcp.objects⟩, fun x hx => ?_, h.tcp.suspended⟩
    rcases List.mem_append.mp hx with hx | hx
    · exact h.tcp.queue x hx
    · obtain ⟨y, hy, rfl⟩ := List.mem_map.mp hx
      -- what is released is a frame of the client, and those ask for TCP only
      have hget := heff.follows h.follows hnew y (List.mem_append_left _ hy)
      exact htcp _ (List.mem_of_getElem? hget)
  case written =>
    rw [hr]
    exact h.written
  case whole =>
    intro hw
    obtain ⟨hcomplete, hstream⟩ := h.whole hw
    refine ⟨hcomplete.effect h.follows heff hnew (hmiss hw), ?_⟩
    rw [hr]
    exact ⟨hstream.prefixed, hstream.whole⟩

/-- The router takes a step of its own. -/
theorem PassesOn.router (h : PassesOn lossless k l b r) {e : Router.Event}
    (hdeliver : ∀ packetInfo, e ≠ .deliver packetInfo)
    (hopens : lossless → r.OpensFirst k e) (hstep : r.step p e = some r') :
    PassesOn lossless k l b r' := by
  have hnone : e.delivered = [] := by
    cases e with
    | deliver packetInfo => exact absurd rfl (hdeliver packetInfo)
    | _ => rfl
  refine ⟨h.settled, h.follows, ?_, h.tcp.step hstep (by simp [hnone]),
    h.tcp.sublist_step h.written hstep, fun hw => ⟨(h.whole hw).1, ?_⟩⟩
  · rw [Router.step_started_append_queue hstep, hnone, List.map_nil, List.append_nil]
    exact h.queued
  · exact (h.whole hw).2.step h.tcp (hopens hw) hstep

/-- **The server takes a step**, with the datagrams of a client. -/
theorem PassesOn.step {c : AetherVPNClient} {h : Nat} (hc : c.Sending p h)
    (hcipher : p.cipher.Correct) (hs : PassesOn lossless k c.payloads s.resequencer s.router)
    (hinbox : ∀ x ∈ s.inbox, x.1 ∈ c.datagrams)
    (hmiss : lossless → ∀ task now, e = .flushCheck task now →
      ¬ s.resequencer.Misses (dataFor k) c.payloads (.flushCheck task now))
    (hopens : lossless → ∀ e', e = .router e' → s.router.OpensFirst k e')
    (hstep : s.step p e = some s') :
    PassesOn lossless k c.payloads s'.resequencer s'.router := by
  rcases step_cases hstep with ⟨hres, hrouter⟩ |
    ⟨payload, seq, pathId, now, data, addr, inbox, nowUs, latency, hin, hok, hput⟩ |
    ⟨task, now, he, hflush⟩ | ⟨e', he, hdeliver, hrouter, hres⟩
  · rw [hres, hrouter]
    exact hs
  · refine hs.buffer hc.onlyTcp (fun x hx => ?_) (fun _ hmiss => ?_) hput
    · rw [hx.2]
      exact hc.numbered.decrypt hcipher (hinbox (data, addr) (hin ▸ List.mem_cons_self)) hok
    · obtain ⟨n, hn, -⟩ := hmiss
      cases hn
  · exact hs.buffer (e := .flushCheck task now) hc.onlyTcp (fun _ hx => hx.elim)
      (fun hw => hmiss hw task now he) hflush
  · rw [hres]
    exact hs.router hdeliver (fun hw => hopens hw e' he) hrouter

end Server.AetherServerProtocol

/-! ## The tunnel -/

namespace Tunnel

variable {p : AetherProtocol} {t t' : Tunnel} {e : Event} {lossless : Prop} {h k : Nat}

/-- The step tears no hole into session `k`: the flush task of the server gives up on none of
its DATA frames, and its connection is opened before a task of one of them has started. -/
def Unbroken (k : Nat) (t : Tunnel) : Event → Prop
  | .server (.flushCheck task now) =>
      ¬ t.server.resequencer.Misses (Server.dataFor k) t.client.payloads (.flushCheck task now)
  | .server (.router e) => t.server.router.OpensFirst k e
  | _ => True

instance (k : Nat) (t : Tunnel) : ∀ e : Event, Decidable (Unbroken k t e)
  | .server (.flushCheck _ _) => inferInstanceAs (Decidable (¬ _))
  | .server (.router e) => inferInstanceAs (Decidable (t.server.router.OpensFirst k e))
  | .server .connectionMade | .server (.datagram _ _) | .server (.handle _ _) | .client _
  | .uplink _ _ | .downlink _ _ _ | .flushCheck _ _ => isTrue trivial

/-- The invariant of the tunnel, for session `h + 1`. -/
structure Conveys (p : AetherProtocol) (lossless : Prop) (h : Nat) (t : Tunnel) : Prop where
  client : t.client.Sending p h
  resequencer : t.resequencer.Settled
  inbox : ∀ x ∈ t.server.inbox, x.1 ∈ t.client.datagrams
  server : AetherServerProtocol.PassesOn lossless (h + 1) t.client.payloads t.server.resequencer
    t.server.router

theorem init_conveys (p : AetherProtocol) (lossless : Prop) (h : Nat)
    (activeSockets : List String) : Conveys p lossless h (init activeSockets) where
  client := AetherVPNClient.init_sending p h activeSockets
  resequencer := ResequencingBuffer.init_settled _
  inbox := by simp [init, AetherServerProtocol.init]
  server := AetherServerProtocol.init_passesOn lossless (h + 1) _

/-- **The step lemma.** -/
theorem Conveys.step (hcipher : p.cipher.Correct) (hv : Conveys p lossless h t)
    (hun : lossless → Unbroken (h + 1) t e) (hstep : t.step p e = some t') :
    Conveys p lossless h t' := by
  have hset : t.Settled := ⟨hv.resequencer, hv.server.settled⟩
  have hclient : t'.client.Sending p h ∧ t.client.Extends t'.client :=
    client_invariant (I := fun c => c.Sending p h ∧ t.client.Extends c)
      (fun _ _ _ hc hs => ⟨hc.1.step hs, hc.2.step hs⟩) hset ⟨hv.client, .refl _⟩ hstep
  obtain ⟨hsending, hext⟩ := hclient
  have hset' := hset.step hstep
  -- the client's side moves under the server
  have hsame : t'.server = t.server → Conveys p lossless h t' := by
    intro hserver
    refine ⟨hsending, hset'.1, ?_, ?_⟩
    · rw [hserver]
      exact fun x hx => hext.datagrams _ (hv.inbox x hx)
    · rw [hserver]
      exact hv.server.mono hext.payloads
  rcases step_cases hstep with rfl | ⟨_, -, -, -, hserver⟩ | ⟨_, -, hserver⟩ |
    ⟨e', he, hdata, hs, hc, -⟩
  · exact hv
  · exact hsame hserver
  · exact hsame hserver
  · refine ⟨hsending, hset'.1, fun x hx => ?_, ?_⟩
    · rw [hc]
      rcases AetherServerProtocol.mem_inbox_of_step hs hx with hx | hx
      · exact hv.inbox x hx
      · exact hdata x.1 x.2 hx
    · rw [hc]
      refine hv.server.step hv.client hcipher hv.inbox (fun hw task now heq => ?_)
        (fun hw e₁ heq => ?_) hs
      · rcases he with rfl | ⟨_, _, hd⟩
        · subst heq
          exact hun hw
        · rw [hd] at heq
          cases heq
      · rcases he with rfl | ⟨_, _, hd⟩
        · subst heq
          exact hun hw
        · rw [hd] at heq
          cases heq

/-- What was started for a session is a beginning of what was delivered for it. -/
theorem startedFor_prefix_delivered (hv : Conveys p lossless h t) (k : Nat) :
    t.server.router.startedFor k
      <+: t.server.resequencer.delivered.filterMap fun x => Server.dataFor k x.2.1 := by
  refine ⟨(t.server.router.queue.map Prod.fst).filterMap (Server.dataFor k), ?_⟩
  unfold Router.startedFor
  rw [← List.filterMap_append, hv.server.queued, List.filterMap_map]
  rfl

/-- The frames below some number carry a beginning of the chunks. -/
theorem sentFor_take_prefix_chunks (hv : Conveys p lossless h t) (n : Nat) :
    (t.client.payloads.take n).filterMap (Server.dataFor (h + 1))
      <+: bodiesFor h t.client.chunks := by
  have hall : t.client.payloads.filterMap (Server.dataFor (h + 1))
      = AetherVPNClient.sentFor (h + 1) t.client := by
    unfold AetherVPNClient.payloads AetherVPNClient.sentFor
    rw [List.filterMap_map]
    exact List.filterMap_congr fun call _ => dataFor_eq_dataFor (h + 1) call.payload
  have hsent := hv.client.relaying.sent
  rw [← hall] at hsent
  exact ((List.take_prefix n _).filterMap _).trans hsent

theorem Conveys.sublist (hv : Conveys p lossless h t) :
    (t.server.router.writtenTo (h + 1)).Sublist (bodiesFor h t.client.chunks) := by
  have hdelivered := hv.server.follows.delivered.filterMap (Server.dataFor (h + 1))
  rw [List.filterMap_map] at hdelivered
  calc (t.server.router.writtenTo (h + 1)).Sublist (t.server.router.startedFor (h + 1)) :=
        hv.server.written
    List.Sublist _ (t.server.resequencer.delivered.filterMap
        fun x => Server.dataFor (h + 1) x.2.1) := (startedFor_prefix_delivered hv (h + 1)).sublist
    List.Sublist _ ((t.client.payloads.take t.server.resequencer.expectedSeq).filterMap
        (Server.dataFor (h + 1))) := hdelivered
    List.Sublist _ (bodiesFor h t.client.chunks) := (sentFor_take_prefix_chunks hv _).sublist

theorem Conveys.beginning (hv : Conveys p lossless h t) (hw : lossless) :
    t.server.router.writtenTo (h + 1) <+: bodiesFor h t.client.chunks := by
  obtain ⟨hcomplete, hstream⟩ := hv.server.whole hw
  calc t.server.router.writtenTo (h + 1)
      <+: t.server.router.startedFor (h + 1) := hstream.prefixed
    _ <+: t.server.resequencer.delivered.filterMap (fun x => Server.dataFor (h + 1) x.2.1) :=
        startedFor_prefix_delivered hv (h + 1)
    _ = (t.client.payloads.take t.server.resequencer.expectedSeq).filterMap
          (Server.dataFor (h + 1)) := hcomplete
    _ <+: bodiesFor h t.client.chunks := sentFor_take_prefix_chunks hv _

/-- **The stream of a session.** In every run, whatever the network and the timers do, what was
written to the destination of a session are whole chunks of its application, in the order they
were read and each at most once; and if no step tears a hole, they are a prefix of what was
read. -/
theorem run_stream (p : AetherProtocol) (hcipher : p.cipher.Correct)
    (activeSockets : List String) (es : List Event) (t : Tunnel)
    (hrun : runFrom (step p) (init activeSockets) es = some t) (h : Nat) :
    (t.server.router.writtenTo (h + 1)).Sublist (bodiesFor h t.client.chunks) ∧
      (Along (step p) (Unbroken (h + 1)) (init activeSockets) es →
        (t.server.router.writtenTo (h + 1)).flatten
          <+: (bodiesFor h t.client.chunks).flatten) := by
  constructor
  · have hv : Conveys p False h t :=
      runFrom_invariant (fun _ _ _ hv hstep => hv.step hcipher False.elim hstep)
        (init_conveys p False h activeSockets) hrun
    exact hv.sublist
  · intro hall
    have hv : Conveys p True h t :=
      runFrom_invariant_along (fun _ _ _ hv hun hstep => hv.step hcipher (fun _ => hun) hstep)
        (init_conveys p True h activeSockets) hall hrun
    exact (hv.beginning trivial).flatten

/-- A session sends "h" and "i", and the second packet overtakes the first. -/
theorem run_stream_overtaking :
    ∃ t, runFrom (step (.new .checksum [1])) (init ["10.0.0.1"])
        [.client (.accepted ['a'] 80), .client (.replied 0 true ⟨some "10.0.0.1", 0⟩ ⟨none, 0⟩),
          .client (.sent 0 ⟨none, 0⟩),
          .client (.received 0 [104] ⟨some "10.0.0.1", 0⟩ ⟨none, 0⟩),
          .client (.paced 0 true 0 ⟨none, 0⟩), .client (.sent 0 ⟨none, 0⟩),
          .client (.received 0 [105] ⟨some "10.0.0.1", 0⟩ ⟨none, 0⟩),
          .client (.paced 0 true 0 ⟨none, 0⟩), .uplink 0 ("192.0.2.1", 9),
          .server (.handle 0 0), .server (.router (.start .done true)),
          .server (.router (.opened 0 true)), .uplink 2 ("192.0.2.1", 9),
          .uplink 1 ("192.0.2.1", 9), .server (.handle 0 0), .server (.handle 0 0),
          .server (.router (.start .done true)), .server (.router (.start .done true))]
        = some t ∧
      t.server.router.writtenTo 1 = [[104], [105]] ∧
      (t.server.router.writtenTo 1).Sublist (bodiesFor 0 t.client.chunks) ∧
      (t.server.router.writtenTo 1).flatten <+: (bodiesFor 0 t.client.chunks).flatten := by
  have hboth : (runFrom (step (.new .checksum [1])) (init ["10.0.0.1"])
      [.client (.accepted ['a'] 80), .client (.replied 0 true ⟨some "10.0.0.1", 0⟩ ⟨none, 0⟩),
        .client (.sent 0 ⟨none, 0⟩), .client (.received 0 [104] ⟨some "10.0.0.1", 0⟩ ⟨none, 0⟩),
        .client (.paced 0 true 0 ⟨none, 0⟩), .client (.sent 0 ⟨none, 0⟩),
        .client (.received 0 [105] ⟨some "10.0.0.1", 0⟩ ⟨none, 0⟩),
        .client (.paced 0 true 0 ⟨none, 0⟩), .uplink 0 ("192.0.2.1", 9),
        .server (.handle 0 0), .server (.router (.start .done true)),
        .server (.router (.opened 0 true)), .uplink 2 ("192.0.2.1", 9),
        .uplink 1 ("192.0.2.1", 9), .server (.handle 0 0), .server (.handle 0 0),
        .server (.router (.start .done true)), .server (.router (.start .done true))]).map
      (fun t => t.server.router.writtenTo 1) = some [[104], [105]] := by decide +kernel
  obtain ⟨t, hrun, hwritten⟩ := Option.map_eq_some_iff.mp hboth
  obtain ⟨hpart, hwhole⟩ := run_stream _ Aead.checksum_correct _ _ t hrun 0
  exact ⟨t, hrun, hwritten, hpart, hwhole (by decide +kernel)⟩

/-- The packet with "h" is lost: after 40 ms the resequencer goes on, and "i" alone is
written. -/
theorem lost_packet_leaves_hole :
    ¬ ∀ (p : AetherProtocol) (activeSockets : List String) (es : List Event) (t : Tunnel)
      (h : Nat), p.cipher.Correct → runFrom (step p) (init activeSockets) es = some t →
      (t.server.router.writtenTo (h + 1)).flatten
        <+: (bodiesFor h t.client.chunks).flatten := by
  intro hall
  have hbad : (runFrom (step (.new .checksum [1])) (init ["10.0.0.1"])
      [.client (.accepted ['a'] 80), .client (.replied 0 true ⟨some "10.0.0.1", 0⟩ ⟨none, 0⟩),
        .client (.sent 0 ⟨none, 0⟩), .client (.received 0 [104] ⟨some "10.0.0.1", 0⟩ ⟨none, 0⟩),
        .client (.paced 0 true 0 ⟨none, 0⟩), .client (.sent 0 ⟨none, 0⟩),
        .client (.received 0 [105] ⟨some "10.0.0.1", 0⟩ ⟨none, 0⟩),
        .client (.paced 0 true 0 ⟨none, 0⟩), .uplink 0 ("192.0.2.1", 9),
        .server (.handle 0 0), .server (.router (.start .done true)),
        .server (.router (.opened 0 true)), .uplink 2 ("192.0.2.1", 9), .server (.handle 0 0),
        .server (.flushCheck 0 40000000), .server (.router (.start .done true))]).map
      (fun t => ((t.server.router.writtenTo 1).flatten, (bodiesFor 0 t.client.chunks).flatten))
      = some ([105], [104, 105]) := by decide +kernel
  obtain ⟨t, hrun, hsent⟩ := Option.map_eq_some_iff.mp hbad
  obtain ⟨hwritten, hread⟩ := Prod.mk.inj hsent
  have hpre := hall _ _ _ t 0 Aead.checksum_correct hrun
  rw [hwritten, hread] at hpre
  revert hpre
  decide

end Tunnel

end AetherBond
