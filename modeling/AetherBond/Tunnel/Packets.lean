import AetherBond.Tunnel.Stream

set_option autoImplicit false

/-! # The packets of the two ends, under any network

What both ends do besides talking to each other is the same whatever network lies between
them: each numbers its calls of `encrypt_and_pack` from 0, everything it hands to the network
is a packet of one of these calls, and what it acts on came out of its resequencer (`Ends`).
`Move` lists the changes of a tunnel with the datagrams the network may bring left open, so
that `Ends.move` holds for an honest network and for a hostile one.
-/

namespace AetherBond

open AetherBond.Lib AetherBond.Common AetherBond.Client AetherBond.Server

/-! ## The router's packets -/

namespace Server.Router

variable {p : AetherProtocol}

/-- The frames given to `encrypt_and_pack`, in order. -/
def payloads (r : Router) : List Bytes := r.encryptCalls.map EncryptCall.payload

/-- Since `r₀`, the calls were numbered on, and each response is a packet of one of them. -/
structure Answering (p : AetherProtocol) (r₀ r : Router) : Prop where
  numbered : r.Numbered
  grows : r₀.encryptCalls <+: r.encryptCalls
  packets : ∀ x ∈ r.responses, ∃ call ∈ r.encryptCalls,
    p.encryptAndPack call.payload call.seq call.pathId call.nowUs = .ok x.1

theorem answering_invariant (p : AetherProtocol) (r₀ : Router) :
    Router.Invariant p (fun _ => True) (fun _ => True) (Router.Answering p r₀) where
  tasks _ _ _ h _ _ := ⟨h.numbered, h.grows, h.packets⟩
  object _ _ h _ _ := ⟨h.numbered, h.grows, h.packets⟩
  make h _ := ⟨h.numbered, h.grows, h.packets⟩
  pop _ h := ⟨h.numbered, h.grows, h.packets⟩
  clear h := ⟨h.numbered, h.grows, h.packets⟩
  sendBack := by
    intro r o s data isClose nowUs h ho
    refine ⟨(numbered_invariant p).sendBack data isClose nowUs h.numbered ho, ?_, ?_⟩
    · obtain ⟨responses, heq⟩ := Router.sendBackToClient_frame (p := p) r s.sessionId data
        s.clientAddr s.pathId isClose nowUs
      rw [heq]
      exact h.grows.trans (List.prefix_append _ _)
    · unfold Router.sendBackToClient
      dsimp only
      cases hpack : p.encryptAndPack (frame (if isClose then 3 else 2) s.sessionId data)
        r.nextSeqOut s.pathId nowUs with
      | ok packet =>
          intro x hx
          rcases List.mem_append.mp hx with hx | hx
          · obtain ⟨call, hcall, hok⟩ := h.packets x hx
            exact ⟨call, List.mem_append_left _ hcall, hok⟩
          · rw [List.mem_singleton.mp hx]
            exact ⟨_, List.mem_append_right _ List.mem_cons_self, hpack⟩
      | error err =>
          intro x hx
          obtain ⟨call, hcall, hok⟩ := h.packets x hx
          exact ⟨call, List.mem_append_left _ hcall, hok⟩
  sends _ _ h _ := ⟨h.numbered, h.grows, h.packets⟩
  starts h _ := ⟨h.numbered, h.grows, h.packets⟩
  started _ h := ⟨h.numbered, h.grows, h.packets⟩

theorem Answering.step {r₀ r r' : Router} {e : Event} (h : Answering p r₀ r)
    (hstep : r.step p e = some r') : Answering p r₀ r' :=
  (answering_invariant p r₀).step h hstep (fun _ _ => ⟨h.numbered, h.grows, h.packets⟩)
    (fun _ _ _ _ => trivial) fun _ _ _ _ _ _ => trivial

end Server.Router

/-! ## The server -/

namespace Server.AetherServerProtocol

variable {p : AetherProtocol} {s s' : AetherServerProtocol} {e : Event}

/-- What is transmitted was transmitted before or is a response of the router. -/
theorem mem_transmitted_of_step (hstep : s.step p e = some s') {x : Bytes × Addr}
    (hx : x ∈ s'.transmitted) :
    x ∈ s.transmitted ∨ ∃ y ∈ s'.router.responses, y.1 = x.1 := by
  have hroute : ∀ e' : Router.Event, s.routerStep p e' = some s' →
      x ∈ s.transmitted ∨ ∃ y ∈ s'.router.responses, y.1 = x.1 := by
    intro e' h
    obtain ⟨r, -, rfl⟩ := routerStep_eq_some.mp h
    rcases List.mem_append.mp hx with hx | hx
    · exact Or.inl hx
    · unfold sendto at hx
      split_ifs at hx
      · obtain ⟨y, hy, rfl⟩ := List.mem_map.mp hx
        exact Or.inr ⟨y, List.mem_of_mem_drop hy, rfl⟩
      · cases hx
  cases e with
  | connectionMade =>
      obtain rfl := Option.some.inj hstep
      exact Or.inl hx
  | datagram data addr =>
      obtain rfl := Option.some.inj hstep
      exact Or.inl hx
  | handle nowUs now =>
      obtain ⟨_, _, _, -, hcases⟩ := handle_cases hstep
      rcases hcases with ⟨_, -, rfl⟩ | ⟨_, _, _, _, b, -, -, rfl⟩
      · exact Or.inl hx
      · exact Or.inl hx
  | flushCheck task now =>
      obtain ⟨b, -, rfl⟩ := Option.map_eq_some_iff.mp hstep
      exact Or.inl hx
  | router e' =>
      cases e' with
      | deliver packetInfo => cases hstep
      | _ => exact hroute _ hstep

/-- The invariant of the server, whatever it receives. -/
structure Answers (p : AetherProtocol) (s : AetherServerProtocol) : Prop where
  settled : s.resequencer.Settled
  numbered : s.router.Numbered
  packets : ∀ x ∈ s.router.responses, ∃ call ∈ s.router.encryptCalls,
    p.encryptAndPack call.payload call.seq call.pathId call.nowUs = .ok x.1
  transmitted : ∀ x ∈ s.transmitted, ∃ call ∈ s.router.encryptCalls,
    p.encryptAndPack call.payload call.seq call.pathId call.nowUs = .ok x.1
  queued : s.router.started ++ s.router.queue.map Prod.fst
    = s.resequencer.delivered.map fun x => x.2.1

theorem init_answers (p : AetherProtocol) : Answers p init where
  settled := ResequencingBuffer.init_settled _
  numbered := rfl
  packets := by simp [init, Router.init]
  transmitted := by simp [init]
  queued := rfl

/-- What the resequencer releases is queued. -/
theorem queued_of_effect {b b' : ResequencingBuffer (Bytes × Addr × Nat)} {r r' : Router}
    {run : List (Entry (Bytes × Addr × Nat))}
    {e : ResequencingBuffer.Event (Bytes × Addr × Nat)}
    (heff : ResequencingBuffer.Effect callback e run b r b' r')
    (h : r.started ++ r.queue.map Prod.fst = b.delivered.map fun x => x.2.1) :
    r'.started ++ r'.queue.map Prod.fst = b'.delivered.map fun x => x.2.1 := by
  have hr : r' = { r with queue := r.queue ++ run.map Entry.payload } :=
    heff.callback.trans (runCallback_callback run r)
  rw [hr, ResequencingBuffer.delivered_of_effect heff Prod.fst, ← h]
  simp

theorem Answers.step (h : s.Answers p) (hstep : s.step p e = some s') :
    s'.Answers p ∧ s.router.encryptCalls <+: s'.router.encryptCalls := by
  have hrouter : Router.Answering p s.router s'.router :=
    router_invariant (fun _ _ _ hr hs => hr.step hs) h.settled
      ⟨h.numbered, List.prefix_rfl, h.packets⟩ hstep
  refine ⟨⟨settled_step h.settled hstep, hrouter.numbered, hrouter.packets, fun x hx => ?_, ?_⟩,
    hrouter.grows⟩
  · rcases mem_transmitted_of_step hstep hx with hx | ⟨y, hy, heq⟩
    · obtain ⟨call, hcall, hpack⟩ := h.transmitted x hx
      exact ⟨call, hrouter.grows.subset hcall, hpack⟩
    · rw [← heq]
      exact hrouter.packets y hy
  · rcases step_cases hstep with ⟨hres, hr⟩ | ⟨_, _, _, _, _, _, _, _, _, -, -, hput⟩ |
      ⟨_, _, -, hflush⟩ | ⟨e', -, hdeliver, hr, hres⟩
    · rw [hres, hr]
      exact h.queued
    · obtain ⟨run, heff⟩ := ResequencingBuffer.step_effect h.settled hput
      exact queued_of_effect heff h.queued
    · obtain ⟨run, heff⟩ := ResequencingBuffer.step_effect h.settled hflush
      exact queued_of_effect heff h.queued
    · have hnone : e'.delivered = [] := by
        cases e' with
        | deliver packetInfo => exact absurd rfl (hdeliver packetInfo)
        | _ => rfl
      rw [Router.step_started_append_queue hr, hnone, List.map_nil, List.append_nil, hres]
      exact h.queued

end Server.AetherServerProtocol

/-! ## The client -/

namespace Client.AetherVPNClient

variable {p : AetherProtocol} {c c' : AetherVPNClient}

theorem deliver_delivered (c : AetherVPNClient) (payload : Bytes) :
    (c.handleReorderedServerPacket payload).delivered = c.delivered ++ [payload] := by
  rcases deliver_cases c payload with ⟨heq, -⟩ | ⟨_, _, _, -, -, heq⟩ | ⟨_, o, _, -, -, heq⟩
  · rw [heq]
  · rw [heq]
  · obtain ⟨objects, hframe⟩ :=
      closeWriter_frame { c with delivered := c.delivered ++ [payload] } o true
    rw [heq, hframe]

theorem delivered_stable (p : AetherProtocol) (l : List Bytes) :
    Stable p fun c => c.delivered = l where
  setHandler h _ _ := h
  chunk _ _ h := h
  send payload pathId interfaceIp nowUs h _ :=
    (sendToVps_sameLocal p _ payload pathId interfaceIp nowUs).delivered.trans h
  unregister := by
    intro c h pc hc _
    obtain ⟨objects, heq⟩ := closeWriter_frame
      { c with sessions := c.sessions.pop (c.sessionId h) } h false
    unfold unregister
    rw [heq]
    exact hc

/-- Only a delivery delivers. -/
theorem step_delivered {e : Event} (hstep : c.step p e = some c')
    (hdeliver : ∀ payload, e ≠ .deliver payload) : c'.delivered = c.delivered := by
  cases step_cases hstep with
  | accepted dstAddr dstPort => rfl
  | deliver payload => exact absurd rfl (hdeliver payload)
  | @startWrite o body writes _ outcome =>
      exact (write_log { c with writes := writes } o body outcome).2.2
  | drained => rfl
  | @drainFails i o => exact (deactivate_log { c with draining := c.draining.eraseIdx i } o).2.2
  | stop => exact (stop_log c).2.2
  | _ =>
      exact (delivered_stable p c.delivered).step rfl hstep (by simp) (by simp) (by simp)
        (by simp) (by simp)

end Client.AetherVPNClient

/-! ## The tunnel -/

namespace Tunnel

variable {p : AetherProtocol} {t t' : Tunnel} {e : Event} {toClient toServer : Bytes → Prop}

/-- What the resequencer releases is delivered to the client. -/
theorem runCallback_delivered (run : List (Entry Bytes)) (c : AetherVPNClient) :
    (ResequencingBuffer.runCallback callback run c).delivered
      = c.delivered ++ run.map Entry.payload := by
  unfold ResequencingBuffer.runCallback
  induction run generalizing c with
  | nil => exact (List.append_nil _).symm
  | cons x run ih =>
      have hx : (callback x.payload c).2.delivered = c.delivered ++ [x.payload] :=
        c.deliver_delivered x.payload
      rw [List.foldl_cons, ih, hx, List.append_assoc, List.map_cons]
      rfl

/-- The changes of a tunnel; `toClient` and `toServer` are the datagrams the network may
bring. -/
inductive Move (p : AetherProtocol) (toClient toServer : Bytes → Prop) (t t' : Tunnel) : Prop
  | client (e : AetherVPNClient.Event) : (∀ payload, e ≠ .deliver payload) →
      t.client.step p e = some t'.client → t'.resequencer = t.resequencer →
      t'.server = t.server → Move p toClient toServer t t'
  | receive (data : Bytes) (nowUs now : Int) : toClient data →
      t.receive p data nowUs now = some t' → Move p toClient toServer t t'
  | flush (task : Nat) (now : Int) :
      ResequencingBuffer.step callback (t.resequencer, t.client) (.flushCheck task now)
        = some (t'.resequencer, t'.client) → t'.server = t.server → Move p toClient toServer t t'
  | server (e : AetherServerProtocol.Event) :
      (∀ data addr, e = .datagram data addr → toServer data) →
      t.server.step p e = some t'.server → t'.client = t.client →
      t'.resequencer = t.resequencer → Move p toClient toServer t t'

/-- **The honest network** brings each end the packets of the other. -/
theorem step_move (hstep : t.step p e = some t') :
    Move p (fun data => ∃ x ∈ t.server.transmitted, x.1 = data) (· ∈ t.client.datagrams) t t' := by
  cases e with
  | client e' =>
      have hdeliver : ∀ payload, e' ≠ .deliver payload := by
        rintro payload rfl
        cases hstep
      have hmap : (t.client.step p e').map (fun c => { t with client := c }) = some t' := by
        cases e' with
        | deliver payload => cases hstep
        | _ => exact hstep
      obtain ⟨c, hc, rfl⟩ := Option.map_eq_some_iff.mp hmap
      exact .client e' hdeliver hc rfl rfl
  | server e' =>
      have hdata : ∀ data addr, e' ≠ .datagram data addr := by
        rintro data addr rfl
        cases hstep
      have hmap : (t.server.step p e').map (fun s => { t with server := s }) = some t' := by
        cases e' with
        | datagram data addr => cases hstep
        | _ => exact hstep
      obtain ⟨s, hs, rfl⟩ := Option.map_eq_some_iff.mp hmap
      exact .server e' (fun data addr heq => absurd heq (hdata data addr)) hs rfl rfl
  | uplink i addr =>
      obtain ⟨data, hdata, rfl⟩ := Option.map_eq_some_iff.mp hstep
      refine .server (.datagram data addr) (fun data' addr' heq => ?_) rfl rfl rfl
      cases heq
      exact List.mem_of_getElem? hdata
  | downlink i nowUs now =>
      obtain ⟨x, hx, hreceive⟩ := Option.bind_eq_some_iff.mp hstep
      exact .receive x.1 nowUs now ⟨x, List.mem_of_getElem? hx, rfl⟩ hreceive
  | flushCheck task now =>
      obtain ⟨b, hb, rfl⟩ := Option.map_eq_some_iff.mp hstep
      exact .flush task now hb rfl

/-- What `_receive_loop` does: nothing, or a put with the content of the packet. -/
theorem receive_cases {data : Bytes} {nowUs now : Int}
    (h : t.receive p data nowUs now = some t') :
    t' = t ∨ ∃ payload seq pathId latency,
      p.unpackAndDecrypt data nowUs = .ok (payload, seq, pathId, latency) ∧
      ResequencingBuffer.step callback (t.resequencer, t.client) (.put seq payload now)
        = some (t'.resequencer, t'.client) ∧ t'.server = t.server := by
  unfold receive at h
  split at h
  · exact Or.inl (Option.some.inj h).symm
  · next payload seq pathId latency hok =>
      obtain ⟨b, hput, rfl⟩ := Option.map_eq_some_iff.mp h
      exact Or.inr ⟨payload, seq, pathId, latency, hok, hput, rfl⟩

/-- The invariant of both ends, under any network. -/
structure Ends (p : AetherProtocol) (t : Tunnel) : Prop where
  settled : t.resequencer.Settled
  client : t.client.Numbered p
  server : t.server.Answers p
  acted : t.client.delivered = t.resequencer.delivered.map Prod.snd

theorem init_ends (p : AetherProtocol) (activeSockets : List String) :
    Ends p (init activeSockets) where
  settled := ResequencingBuffer.init_settled _
  client := AetherVPNClient.init_numbered p activeSockets
  server := AetherServerProtocol.init_answers p
  acted := rfl

/-- The calls of both ends go on. -/
structure Grows (t t' : Tunnel) : Prop where
  client : t.client.Extends t'.client
  server : t.server.router.encryptCalls <+: t'.server.router.encryptCalls

/-- The client's resequencer takes a step. -/
theorem Ends.buffer (h : t.Ends p) {e : ResequencingBuffer.Event Bytes}
    (hstep : ResequencingBuffer.step callback (t.resequencer, t.client) e
      = some (t'.resequencer, t'.client)) (hserver : t'.server = t.server) :
    t'.Ends p ∧ t.Grows t' := by
  obtain ⟨run, heff⟩ := ResequencingBuffer.step_effect h.settled hstep
  have hcall : ∀ (payload : Bytes) (c : AetherVPNClient), True →
      c.Numbered p ∧ t.client.Extends c →
      (callback payload c).2.Numbered p ∧ t.client.Extends (callback payload c).2 := by
    intro payload c _ hc
    have hdeliver : c.step p (.deliver payload) = some (callback payload c).2 := rfl
    exact ⟨hc.1.step hdeliver, hc.2.step hdeliver⟩
  have hclient : t'.client.Numbered p ∧ t.client.Extends t'.client := by
    rw [heff.callback]
    exact ResequencingBuffer.runCallback_invariant (Q := fun _ => True) hcall
      (fun _ _ => trivial) ⟨h.client, .refl _⟩
  refine ⟨⟨?_, hclient.1, hserver ▸ h.server, ?_⟩, hclient.2, hserver ▸ List.prefix_rfl⟩
  · exact ResequencingBuffer.settled_of_run (s := (t.resequencer, t.client)) h.settled
      (runFrom_cons_eq_some.mpr ⟨_, hstep, runFrom_nil _⟩)
  · rw [heff.callback, runCallback_delivered, heff.delivered, List.map_append, ← h.acted,
      List.map_map]
    rfl

/-- **The step lemma**, under any network. -/
theorem Ends.move (h : t.Ends p) (hmove : Move p toClient toServer t t') :
    t'.Ends p ∧ t.Grows t' := by
  cases hmove with
  | client e hdeliver hstep hres hserver =>
      refine ⟨⟨hres ▸ h.settled, h.client.step hstep, hserver ▸ h.server, ?_⟩,
        (AetherVPNClient.Extends.refl _).step hstep, hserver ▸ List.prefix_rfl⟩
      rw [AetherVPNClient.step_delivered hstep hdeliver, hres]
      exact h.acted
  | receive data nowUs now _ hreceive =>
      rcases receive_cases hreceive with rfl | ⟨_, _, _, _, -, hput, hserver⟩
      · exact ⟨h, .refl _, List.prefix_rfl⟩
      · exact h.buffer hput hserver
  | flush task now hstep hserver => exact h.buffer hstep hserver
  | server e _ hstep hclient hres =>
      obtain ⟨hanswers, hgrows⟩ := h.server.step hstep
      refine ⟨⟨hres ▸ h.settled, hclient ▸ h.client, hanswers, ?_⟩, ?_, hgrows⟩
      · rw [hclient, hres]
        exact h.acted
      · rw [hclient]
        exact .refl _

end Tunnel

end AetherBond
