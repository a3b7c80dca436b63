import AetherBond.Tunnel.Packets

set_option autoImplicit false

/-! # Whose payloads the two ends act on

A hostile network brings any packet of either end to either end, from any address, and bytes of
its own making, which do not decrypt. So everything an end acts on was packed by one of the two
ends. Which one it was the packet does not say: header, nonce, associated data and commands are
the same in both directions and so is the key. A packet that comes back to its own sender passes
`unpack_and_decrypt` there as it does at the other end, and only in a run in which none comes
back is everything an end acts on from the other end (`run_origin`).
-/

namespace AetherBond

open AetherBond.Lib AetherBond.Common AetherBond.Client AetherBond.Server

/-! ## What is in a resequencer -/

namespace Server.ResequencingBuffer

variable {P σ : Type*} {callback : Callback P σ} {b b' : ResequencingBuffer P} {st st' : σ}
  {e : Event P} {run : List (Entry P)} {Q Q' : P → Prop}

/-- All payloads that are buffered or were delivered have the property. -/
structure Holds (Q : P → Prop) (b : ResequencingBuffer P) : Prop where
  heap : ∀ x ∈ b.heap, Q x.payload
  delivered : ∀ d ∈ b.delivered, Q d.2

theorem init_holds (Q : P → Prop) (flushTimeout : Int) : Holds Q (init flushTimeout) :=
  ⟨by simp [init], by simp [init]⟩

theorem Holds.mono (h : Holds Q b) (hQ : ∀ x, Q x → Q' x) : Holds Q' b :=
  ⟨fun x hx => hQ _ (h.heap x hx), fun d hd => hQ _ (h.delivered d hd)⟩

theorem Holds.effect (h : Holds Q b) (heff : Effect callback e run b st b' st')
    (hnew : ∀ x, b.Accepts x e → Q x.payload) : Holds Q b' := by
  have hall : ∀ x ∈ run ++ b'.heap, Q x.payload := fun x hx =>
    (heff.entries x hx).elim (h.heap x) (hnew x)
  refine ⟨fun x hx => hall x (List.mem_append_right _ hx), fun d hd => ?_⟩
  rw [heff.delivered] at hd
  rcases List.mem_append.mp hd with hd | hd
  · exact h.delivered d hd
  · obtain ⟨x, hx, rfl⟩ := List.mem_map.mp hd
    exact hall x (List.mem_append_left _ hx)

end Server.ResequencingBuffer

namespace Tunnel

variable {p : AetherProtocol} {t t' : Tunnel} {data payload : Bytes} {reflected : Prop}

/-! ## The hostile network -/

/-- A datagram the network brings: a packet of either end, or bytes of its own making. -/
inductive Datagram
  | ofClient (i : Nat)
  | ofServer (i : Nat)
  | forged (data : Bytes)
  deriving DecidableEq

/-- The bytes of a datagram, if there are such: the network has no key, so what it makes up is
rejected. -/
def Datagram.bytes? (p : AetherProtocol) (t : Tunnel) : Datagram → Option Bytes
  | ofClient i => t.client.datagrams[i]?
  | ofServer i => t.server.transmitted[i]?.map Prod.fst
  | forged data => if (p.unpackAndDecrypt data 0).toBool then none else some data

inductive HostileEvent
  | own (e : Event)
  | toServer (datagram : Datagram) (addr : Addr)
  | toClient (datagram : Datagram) (nowUs now : Int)
  deriving DecidableEq

def hostileStep (p : AetherProtocol) (t : Tunnel) : HostileEvent → Option Tunnel
  | .own e => t.step p e
  | .toServer datagram addr =>
      (datagram.bytes? p t).map fun data =>
        { t with server := t.server.datagramReceived data addr }
  | .toClient datagram nowUs now =>
      (datagram.bytes? p t).bind fun data => t.receive p data nowUs now

/-- A packet comes back to its own sender. -/
def HostileEvent.Reflects : HostileEvent → Prop
  | .toServer (.ofServer _) _ => True
  | .toClient (.ofClient _) _ _ => True
  | _ => False

instance : DecidablePred HostileEvent.Reflects
  | .toServer (.ofServer _) _ | .toClient (.ofClient _) _ _ => isTrue trivial
  | .own _ | .toServer (.ofClient _) _ | .toServer (.forged _) _ | .toClient (.ofServer _) _ _
  | .toClient (.forged _) _ _ => isFalse id

/-! ## Where a datagram comes from -/

/-- The data is a packet of one of the server's calls. -/
def FromServer (p : AetherProtocol) (t : Tunnel) (data : Bytes) : Prop :=
  ∃ call ∈ t.server.router.encryptCalls,
    p.encryptAndPack call.payload call.seq call.pathId call.nowUs = .ok data

/-- What the network may bring the client. -/
def ToClient (reflected : Prop) (p : AetherProtocol) (t : Tunnel) (data : Bytes) : Prop :=
  FromServer p t data ∨ reflected ∧ data ∈ t.client.datagrams ∨
    AetherServerProtocol.Rejects p data

/-- What the network may bring the server. -/
def ToServer (reflected : Prop) (p : AetherProtocol) (t : Tunnel) (data : Bytes) : Prop :=
  data ∈ t.client.datagrams ∨ reflected ∧ FromServer p t data ∨
    AetherServerProtocol.Rejects p data

theorem Move.mono {toClient toServer toClient' toServer' : Bytes → Prop}
    (h : Move p toClient toServer t t') (hclient : ∀ data, toClient data → toClient' data)
    (hserver : ∀ data, toServer data → toServer' data) : Move p toClient' toServer' t t' := by
  cases h with
  | client e hdeliver hstep hres hser => exact .client e hdeliver hstep hres hser
  | receive data nowUs now hdata hreceive =>
      exact .receive data nowUs now (hclient _ hdata) hreceive
  | flush task now hstep hser => exact .flush task now hstep hser
  | server e hdata hstep hcl hres =>
      exact .server e (fun data addr heq => hserver _ (hdata data addr heq)) hstep hcl hres

theorem hostileStep_move (h : t.Ends p) {e : HostileEvent} (hreflects : e.Reflects → reflected)
    (hstep : t.hostileStep p e = some t') :
    Move p (ToClient reflected p t) (ToServer reflected p t) t t' := by
  have hsent : ∀ {i : Nat} {data : Bytes}, t.server.transmitted[i]?.map Prod.fst = some data →
      FromServer p t data := by
    intro i data hdata
    obtain ⟨x, hx, rfl⟩ := Option.map_eq_some_iff.mp hdata
    exact h.server.transmitted x (List.mem_of_getElem? hx)
  have hforged : ∀ {data data' : Bytes}, Datagram.bytes? p t (.forged data) = some data' →
      AetherServerProtocol.Rejects p data' := by
    intro data data' hdata
    unfold Datagram.bytes? at hdata
    dsimp only at hdata
    split_ifs at hdata with hok
    obtain rfl := Option.some.inj hdata
    exact AetherServerProtocol.rejects_of_toBool (by simpa using hok)
  cases e with
  | own e =>
      refine (step_move hstep).mono (fun data hdata => Or.inl ?_) fun data hdata => Or.inl hdata
      obtain ⟨x, hx, rfl⟩ := hdata
      exact h.server.transmitted x hx
  | toServer datagram addr =>
      obtain ⟨data, hdata, rfl⟩ := Option.map_eq_some_iff.mp hstep
      refine .server (.datagram data addr) (fun data' addr' heq => ?_) rfl rfl rfl
      obtain ⟨rfl, -⟩ := AetherServerProtocol.Event.datagram.inj heq
      cases datagram with
      | ofClient i => exact Or.inl (List.mem_of_getElem? hdata)
      | ofServer i => exact Or.inr (Or.inl ⟨hreflects trivial, hsent hdata⟩)
      | forged bytes => exact Or.inr (Or.inr (hforged hdata))
  | toClient datagram nowUs now =>
      obtain ⟨data, hdata, hreceive⟩ := Option.bind_eq_some_iff.mp hstep
      refine .receive data nowUs now ?_ hreceive
      cases datagram with
      | ofClient i => exact Or.inr (Or.inl ⟨hreflects trivial, List.mem_of_getElem? hdata⟩)
      | ofServer i => exact Or.inl (hsent hdata)
      | forged bytes => exact Or.inr (Or.inr (hforged hdata))

/-! ## Where a payload comes from -/

/-- What the client may act on: payloads of the server, or its own that have come back. -/
def ClientMayTake (reflected : Prop) (t : Tunnel) (payload : Bytes) : Prop :=
  payload ∈ t.server.router.payloads ∨ reflected ∧ payload ∈ t.client.payloads

def ServerMayTake (reflected : Prop) (t : Tunnel) (payload : Bytes) : Prop :=
  payload ∈ t.client.payloads ∨ reflected ∧ payload ∈ t.server.router.payloads

/-- A packet opens to the payload it was packed with. -/
theorem payload_of_call (hcipher : p.cipher.Correct) {call : EncryptCall}
    (hpack : p.encryptAndPack call.payload call.seq call.pathId call.nowUs = .ok data)
    {seq pathId : Nat} {nowUs : Int} {latency : ℚ}
    (hok : p.unpackAndDecrypt data nowUs = .ok (payload, seq, pathId, latency)) :
    payload = call.payload := by
  rw [unpackAndDecrypt_encryptAndPack hcipher hpack nowUs] at hok
  cases hok
  rfl

section Origins

variable (hcipher : p.cipher.Correct) {seq pathId : Nat} {nowUs : Int} {latency : ℚ}
include hcipher

theorem Ends.payload_of_client (h : t.Ends p) (hdata : data ∈ t.client.datagrams)
    (hok : p.unpackAndDecrypt data nowUs = .ok (payload, seq, pathId, latency)) :
    payload ∈ t.client.payloads := by
  obtain ⟨call, hcall, hpack⟩ := h.client.packets data hdata
  rw [payload_of_call hcipher hpack hok]
  exact List.mem_map_of_mem hcall

theorem FromServer.made (hdata : FromServer p t data)
    (hok : p.unpackAndDecrypt data nowUs = .ok (payload, seq, pathId, latency)) :
    payload ∈ t.server.router.payloads := by
  obtain ⟨call, hcall, hpack⟩ := hdata
  rw [payload_of_call hcipher hpack hok]
  exact List.mem_map_of_mem hcall

theorem ToClient.made (h : t.Ends p) (hdata : ToClient reflected p t data)
    (hok : p.unpackAndDecrypt data nowUs = .ok (payload, seq, pathId, latency)) :
    ClientMayTake reflected t payload := by
  rcases hdata with hdata | ⟨hre, hdata⟩ | hrej
  · exact Or.inl (hdata.made hcipher hok)
  · exact Or.inr ⟨hre, h.payload_of_client hcipher hdata hok⟩
  · obtain ⟨err, herr⟩ := hrej nowUs
    cases herr.symm.trans hok

theorem ToServer.made (h : t.Ends p) (hdata : ToServer reflected p t data)
    (hok : p.unpackAndDecrypt data nowUs = .ok (payload, seq, pathId, latency)) :
    ServerMayTake reflected t payload := by
  rcases hdata with hdata | ⟨hre, hdata⟩ | hrej
  · exact Or.inl (h.payload_of_client hcipher hdata hok)
  · exact Or.inr ⟨hre, hdata.made hcipher hok⟩
  · obtain ⟨err, herr⟩ := hrej nowUs
    cases herr.symm.trans hok

end Origins

/-- The invariant. -/
structure Origin (reflected : Prop) (p : AetherProtocol) (t : Tunnel) : Prop where
  ends : t.Ends p
  inbox : ∀ x ∈ t.server.inbox, ToServer reflected p t x.1
  server : t.server.resequencer.Holds fun x => ServerMayTake reflected t x.1
  client : t.resequencer.Holds (ClientMayTake reflected t)

theorem init_origin (reflected : Prop) (p : AetherProtocol) (activeSockets : List String) :
    Origin reflected p (init activeSockets) where
  ends := init_ends p activeSockets
  inbox := by simp [init, AetherServerProtocol.init]
  server := ResequencingBuffer.init_holds _ _
  client := ResequencingBuffer.init_holds _ _

/-- What was made stays made. -/
theorem Grows.toServer (h : t.Grows t') (hdata : ToServer reflected p t data) :
    ToServer reflected p t' data := by
  rcases hdata with hdata | ⟨hre, call, hcall, hpack⟩ | hrej
  · exact Or.inl (h.client.datagrams _ hdata)
  · exact Or.inr (Or.inl ⟨hre, call, h.server.subset hcall, hpack⟩)
  · exact Or.inr (Or.inr hrej)

theorem Grows.router_payloads (h : t.Grows t') (hp : payload ∈ t.server.router.payloads) :
    payload ∈ t'.server.router.payloads := (h.server.map EncryptCall.payload).subset hp

theorem Grows.clientMayTake (h : t.Grows t') (hp : ClientMayTake reflected t payload) :
    ClientMayTake reflected t' payload :=
  hp.imp h.router_payloads fun hre => ⟨hre.1, h.client.payloads.subset hre.2⟩

theorem Grows.serverMayTake (h : t.Grows t') (hp : ServerMayTake reflected t payload) :
    ServerMayTake reflected t' payload :=
  hp.imp (fun hin => h.client.payloads.subset hin) fun hre => ⟨hre.1, h.router_payloads hre.2⟩

/-- **The step lemma.** -/
theorem Origin.move (hcipher : p.cipher.Correct) (h : Origin reflected p t)
    (hmove : Move p (ToClient reflected p t) (ToServer reflected p t) t t') :
    Origin reflected p t' := by
  obtain ⟨hends, hgrows⟩ := h.ends.move hmove
  have hserver : t'.server.resequencer = t.server.resequencer →
      t'.server.resequencer.Holds fun x => ServerMayTake reflected t' x.1 := by
    intro heq
    rw [heq]
    exact h.server.mono fun x hx => hgrows.serverMayTake hx
  have hclient : t'.resequencer = t.resequencer →
      t'.resequencer.Holds (ClientMayTake reflected t') := by
    intro heq
    rw [heq]
    exact h.client.mono fun x hx => hgrows.clientMayTake hx
  have hinbox : t'.server = t.server → ∀ x ∈ t'.server.inbox, ToServer reflected p t' x.1 := by
    intro heq x hx
    rw [heq] at hx
    exact hgrows.toServer (h.inbox x hx)
  -- the client's resequencer takes a step
  have hbuffer : ∀ e : ResequencingBuffer.Event Bytes,
      (∀ x, t.resequencer.Accepts x e → ClientMayTake reflected t x.payload) →
      ResequencingBuffer.step callback (t.resequencer, t.client) e
        = some (t'.resequencer, t'.client) →
      t'.server = t.server → Origin reflected p t' := by
    intro e hnew hstep heq
    obtain ⟨run, heff⟩ := ResequencingBuffer.step_effect h.ends.settled hstep
    exact ⟨hends, hinbox heq, hserver (congrArg _ heq),
      (h.client.effect heff hnew).mono fun x hx => hgrows.clientMayTake hx⟩
  cases hmove with
  | client e _ _ hres heq => exact ⟨hends, hinbox heq, hserver (congrArg _ heq), hclient hres⟩
  | receive data nowUs now hdata hreceive =>
      rcases receive_cases hreceive with rfl | ⟨payload, seq, pathId, latency, hok, hput, heq⟩
      · exact h
      · refine hbuffer _ (fun x hx => ?_) hput heq
        rw [hx.2]
        exact hdata.made hcipher h.ends hok
  | flush task now hstep heq =>
      exact hbuffer (.flushCheck task now) (fun _ hx => hx.elim) hstep heq
  | server e hdata hstep hcl hres =>
      refine ⟨hends, fun x hx => hgrows.toServer ?_, ?_, hclient hres⟩
      · rcases AetherServerProtocol.mem_inbox_of_step hstep hx with hx | hx
        · exact h.inbox x hx
        · exact hdata x.1 x.2 hx
      · rcases AetherServerProtocol.step_cases hstep with ⟨heq, -⟩ |
          ⟨payload, seq, pathId, now, data, addr, inbox, nowUs, latency, hin, hok, hput⟩ |
          ⟨task, now, -, hflush⟩ | ⟨_, -, -, -, heq⟩
        · exact hserver heq
        · obtain ⟨run, heff⟩ := ResequencingBuffer.step_effect h.ends.server.settled hput
          refine (h.server.effect heff fun x hx => ?_).mono fun x hx => hgrows.serverMayTake hx
          rw [hx.2]
          exact (h.inbox (data, addr) (hin ▸ List.mem_cons_self)).made hcipher h.ends hok
        · obtain ⟨run, heff⟩ := ResequencingBuffer.step_effect h.ends.server.settled hflush
          exact (h.server.effect heff fun _ hx => hx.elim).mono fun x hx =>
            hgrows.serverMayTake hx
        · exact hserver heq

/-- **The run lemma.** -/
theorem Origin.run (hcipher : p.cipher.Correct) {activeSockets : List String}
    {es : List HostileEvent} (hreflects : ∀ e ∈ es, e.Reflects → reflected)
    (hrun : runFrom (hostileStep p) (init activeSockets) es = some t) :
    Origin reflected p t := by
  have hall : ∀ (es : List HostileEvent) (t₀ : Tunnel), (∀ e ∈ es, e.Reflects → reflected) →
      Origin reflected p t₀ → runFrom (hostileStep p) t₀ es = some t → Origin reflected p t := by
    intro es
    induction es with
    | nil =>
        intro t₀ _ h hrun
        obtain rfl := Option.some.inj hrun
        exact h
    | cons e es ih =>
        intro t₀ hre h hrun
        obtain ⟨t₁, hstep, hrest⟩ := runFrom_cons_eq_some.mp hrun
        have hmove := hostileStep_move h.ends (hre e List.mem_cons_self) hstep
        exact ih t₁ (fun e' he' => hre e' (List.mem_cons_of_mem _ he')) (h.move hcipher hmove) hrest
  exact hall es _ hreflects (init_origin reflected p activeSockets) hrun

/-- What the two ends have acted on. -/
theorem Origin.acted (h : Origin reflected p t) :
    (∀ payload ∈ t.server.router.started, ServerMayTake reflected t payload) ∧
      ∀ payload ∈ t.client.delivered, ClientMayTake reflected t payload := by
  constructor
  · intro payload hp
    have hin : payload ∈ t.server.resequencer.delivered.map fun x => x.2.1 := by
      rw [← h.ends.server.queued]
      exact List.mem_append_left _ hp
    obtain ⟨d, hd, rfl⟩ := List.mem_map.mp hin
    exact h.server.delivered d hd
  · intro payload hp
    rw [h.ends.acted] at hp
    obtain ⟨d, hd, rfl⟩ := List.mem_map.mp hp
    exact h.client.delivered d hd

/-- **Origin of what the two ends act on.** In every run over a hostile network: each payload
the router processes and each payload the client handles was packed by one of the two ends; if
no packet comes back to its own sender, by the other one; and whatever either end has packed
and sent decrypts to a payload it packed, at the receiver as at the sender itself. -/
theorem run_origin (p : AetherProtocol) (hcipher : p.cipher.Correct)
    (activeSockets : List String) (es : List HostileEvent) (t : Tunnel)
    (hrun : runFrom (hostileStep p) (init activeSockets) es = some t) :
    (∀ payload, payload ∈ t.server.router.started ∨ payload ∈ t.client.delivered →
        payload ∈ t.client.payloads ∨ payload ∈ t.server.router.payloads) ∧
      ((∀ e ∈ es, ¬ e.Reflects) →
        (∀ payload ∈ t.server.router.started, payload ∈ t.client.payloads) ∧
          ∀ payload ∈ t.client.delivered, payload ∈ t.server.router.payloads) ∧
      (∀ data ∈ t.client.datagrams, ∀ nowUs, ∃ payload ∈ t.client.payloads, ∃ seq pathId latency,
        p.unpackAndDecrypt data nowUs = .ok (payload, seq, pathId, latency)) ∧
      ∀ x ∈ t.server.transmitted, ∀ nowUs, ∃ payload ∈ t.server.router.payloads,
        ∃ seq pathId latency,
          p.unpackAndDecrypt x.1 nowUs = .ok (payload, seq, pathId, latency) := by
  have h : Origin True p t := Origin.run hcipher (fun _ _ _ => trivial) hrun
  obtain ⟨hstarted, hdelivered⟩ := h.acted
  refine ⟨?_, fun hnone => ?_, fun data hdata nowUs => ?_, fun x hx nowUs => ?_⟩
  · rintro payload (hp | hp)
    · exact (hstarted payload hp).imp_right And.right
    · exact ((hdelivered payload hp).imp_right And.right).symm
  · have hhonest : Origin False p t :=
      Origin.run hcipher (fun e he hre => absurd hre (hnone e he)) hrun
    obtain ⟨hstarted', hdelivered'⟩ := hhonest.acted
    exact ⟨fun payload hp => (hstarted' payload hp).resolve_right fun hre => hre.1,
      fun payload hp => (hdelivered' payload hp).resolve_right fun hre => hre.1⟩
  · obtain ⟨call, hcall, hpack⟩ := h.ends.client.packets data hdata
    exact ⟨call.payload, List.mem_map_of_mem hcall, _, _, _,
      unpackAndDecrypt_encryptAndPack hcipher hpack nowUs⟩
  · obtain ⟨call, hcall, hpack⟩ := h.ends.server.transmitted x hx
    exact ⟨call.payload, List.mem_map_of_mem hcall, _, _, _,
      unpackAndDecrypt_encryptAndPack hcipher hpack nowUs⟩

/-- A client's first packet reaches the server from a foreign address, after a forged one. -/
theorem run_origin_redirected :
    ∃ t, runFrom (hostileStep (.new .checksum [1])) (init ["10.0.0.1"])
        [.own (.client (.accepted ['a'] 80)),
          .own (.client (.replied 0 true ⟨some "10.0.0.1", 0⟩ ⟨none, 0⟩)),
          .toServer (.forged [0]) ("192.0.2.1", 9), .toServer (.ofClient 0) ("192.0.2.2", 9),
          .own (.server (.handle 0 0)), .own (.server (.handle 0 0)),
          .own (.server (.router (.start .done true)))] = some t ∧
      t.server.router.started.length = 1 ∧
      (∀ payload ∈ t.server.router.started, payload ∈ t.client.payloads) ∧
        ∀ payload ∈ t.client.delivered, payload ∈ t.server.router.payloads := by
  have hstarted : (runFrom (hostileStep (.new .checksum [1])) (init ["10.0.0.1"])
      [.own (.client (.accepted ['a'] 80)),
        .own (.client (.replied 0 true ⟨some "10.0.0.1", 0⟩ ⟨none, 0⟩)),
        .toServer (.forged [0]) ("192.0.2.1", 9), .toServer (.ofClient 0) ("192.0.2.2", 9),
        .own (.server (.handle 0 0)), .own (.server (.handle 0 0)),
        .own (.server (.router (.start .done true)))]).map
      (fun t => t.server.router.started.length) = some 1 := by decide +kernel
  obtain ⟨t, hrun, hlen⟩ := Option.map_eq_some_iff.mp hstarted
  exact ⟨t, hrun, hlen,
    (run_origin _ Aead.checksum_correct _ _ t hrun).2.1 (by decide)⟩

/-- The client's own DATA packet comes back to it, and "h" is queued for the application that
sent it. -/
theorem reflected_packet_accepted :
    ¬ ∀ (p : AetherProtocol) (activeSockets : List String) (es : List HostileEvent)
      (t : Tunnel), p.cipher.Correct →
      runFrom (hostileStep p) (init activeSockets) es = some t →
      (∀ payload ∈ t.server.router.started, payload ∈ t.client.payloads) ∧
        ∀ payload ∈ t.client.delivered, payload ∈ t.server.router.payloads := by
  intro h
  have hbad : (runFrom (hostileStep (.new .checksum [1])) (init ["10.0.0.1"])
      [.own (.client (.accepted ['a'] 80)),
        .own (.client (.replied 0 true ⟨some "10.0.0.1", 0⟩ ⟨none, 0⟩)),
        .own (.client (.sent 0 ⟨none, 0⟩)),
        .own (.client (.received 0 [104] ⟨some "10.0.0.1", 0⟩ ⟨none, 0⟩)),
        .own (.client (.paced 0 true 0 ⟨none, 0⟩)),
        .toClient (.ofClient 0) 0 0, .toClient (.ofClient 1) 0 0]).map
      (fun t => (t.client.delivered.getLast?, t.client.writes, t.server.router.payloads))
      = some (some (frame 2 1 [104]), [(0, [104])], []) := by decide +kernel
  obtain ⟨t, hrun, heq⟩ := Option.map_eq_some_iff.mp hbad
  obtain ⟨hlast, hrest⟩ := Prod.mk.inj heq
  obtain ⟨-, hnone⟩ := Prod.mk.inj hrest
  have hin := (h _ _ _ t Aead.checksum_correct hrun).2 _ (List.mem_of_getLast? hlast)
  rw [hnone] at hin
  cases hin

end Tunnel

end AetherBond
