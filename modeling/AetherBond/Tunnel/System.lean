import AetherBond.Client.VpnUplink
import AetherBond.Server.Main

set_option autoImplicit false

/-! # A client and a server

The two ends of a tunnel with the network between them. The network carries the datagrams the
client has handed over to the server, and the packets the server has sent to the client; it may
lose, repeat, delay and reorder them, so any one of them may arrive at any time. The client
takes what arrives through its own resequencer (`_receive_loop` of
`aetherbond/client/vpn.py`).
-/

namespace AetherBond

open AetherBond.Lib AetherBond.Common AetherBond.Client AetherBond.Server

structure Tunnel where
  client : AetherVPNClient
  /-- The client's resequencer. -/
  resequencer : ResequencingBuffer Bytes
  server : AetherServerProtocol

namespace Tunnel

def init (activeSockets : List String) : Tunnel where
  client := .init activeSockets
  resequencer := .init
  server := .init

/-- The callback the client gives its resequencer. -/
def callback : Callback Bytes AetherVPNClient :=
  fun payload c => (.ok (), c.handleReorderedServerPacket payload)

/-- A turn of `_receive_loop`; an exception is only logged. -/
def receive (p : AetherProtocol) (t : Tunnel) (data : Bytes) (nowUs now : Int) : Option Tunnel :=
  match p.unpackAndDecrypt data nowUs with
  | .error _ => some t
  | .ok (payload, seq, _, _) =>
      (t.resequencer.put callback t.client seq payload now).map fun b =>
        { t with resequencer := b.1, client := b.2 }

inductive Event
  | client (e : AetherVPNClient.Event)
  | server (e : AetherServerProtocol.Event)
  /-- A datagram of the client reaches the server from some address. -/
  | uplink (i : Nat) (addr : Addr)
  /-- A packet of the server reaches the client. -/
  | downlink (i : Nat) (nowUs now : Int)
  /-- The flush task of the client's resequencer makes a turn. -/
  | flushCheck (task : Nat) (now : Int)
  deriving DecidableEq

def step (p : AetherProtocol) (t : Tunnel) : Event → Option Tunnel
  -- what is delivered to the client comes from its resequencer
  | .client (.deliver _) => none
  | .client e => (t.client.step p e).map fun c => { t with client := c }
  -- what the server receives comes from the network
  | .server (.datagram _ _) => none
  | .server e => (t.server.step p e).map fun s => { t with server := s }
  | .uplink i addr =>
      t.client.datagrams[i]?.map fun data =>
        { t with server := t.server.datagramReceived data addr }
  | .downlink i nowUs now =>
      t.server.transmitted[i]?.bind fun x => t.receive p x.1 nowUs now
  | .flushCheck task now =>
      (ResequencingBuffer.step callback (t.resequencer, t.client) (.flushCheck task now)).map
        fun b => { t with resequencer := b.1, client := b.2 }

/-! ## What a step does to either end -/

variable {p : AetherProtocol} {t t' : Tunnel} {e : Event}

/-- **One end takes a step**: the client by itself; the client through its resequencer; or the
server, which receives only datagrams of the client. -/
theorem step_cases (hstep : t.step p e = some t') :
    t' = t ∨
    (∃ e', e = .client e' ∧ t.client.step p e' = some t'.client ∧
      t'.resequencer = t.resequencer ∧ t'.server = t.server) ∨
    (∃ e', ResequencingBuffer.step callback (t.resequencer, t.client) e'
        = some (t'.resequencer, t'.client) ∧ t'.server = t.server) ∨
    (∃ e', (e = .server e' ∨ ∃ data addr, e' = .datagram data addr) ∧
      (∀ data addr, e' = .datagram data addr → data ∈ t.client.datagrams) ∧
      t.server.step p e' = some t'.server ∧ t'.client = t.client ∧
      t'.resequencer = t.resequencer) := by
  have hclient : ∀ e' : AetherVPNClient.Event,
      (t.client.step p e').map (fun c => { t with client := c }) = some t' →
      t.client.step p e' = some t'.client ∧ t'.resequencer = t.resequencer ∧
        t'.server = t.server := by
    intro e' h
    obtain ⟨c, hc, rfl⟩ := Option.map_eq_some_iff.mp h
    exact ⟨hc, rfl, rfl⟩
  have hserver : ∀ e' : AetherServerProtocol.Event,
      (t.server.step p e').map (fun s => { t with server := s }) = some t' →
      t.server.step p e' = some t'.server ∧ t'.client = t.client ∧
        t'.resequencer = t.resequencer := by
    intro e' h
    obtain ⟨s, hs, rfl⟩ := Option.map_eq_some_iff.mp h
    exact ⟨hs, rfl, rfl⟩
  cases e with
  | client e' =>
      refine Or.inr (Or.inl ⟨e', rfl, ?_⟩)
      cases e' with
      | deliver payload => cases hstep
      | _ => exact hclient _ hstep
  | server e' =>
      refine Or.inr (Or.inr (Or.inr ⟨e', Or.inl rfl, ?_⟩))
      cases e' with
      | datagram data addr => cases hstep
      | _ => exact ⟨by simp, hserver _ hstep⟩
  | uplink i addr =>
      obtain ⟨data, hdata, rfl⟩ := Option.map_eq_some_iff.mp hstep
      refine Or.inr (Or.inr (Or.inr ⟨.datagram data addr, Or.inr ⟨data, addr, rfl⟩, ?_, rfl, rfl,
        rfl⟩))
      intro data' addr' heq
      cases heq
      exact List.mem_of_getElem? hdata
  | downlink i nowUs now =>
      obtain ⟨x, -, hreceive⟩ := Option.bind_eq_some_iff.mp hstep
      unfold receive at hreceive
      split at hreceive
      · exact Or.inl (Option.some.inj hreceive).symm
      · next payload seq _ _ _ =>
          obtain ⟨b, hput, rfl⟩ := Option.map_eq_some_iff.mp hreceive
          exact Or.inr (Or.inr (Or.inl ⟨.put seq payload now, hput, rfl⟩))
  | flushCheck task now =>
      obtain ⟨b, hb, rfl⟩ := Option.map_eq_some_iff.mp hstep
      exact Or.inr (Or.inr (Or.inl ⟨.flushCheck task now, hb, rfl⟩))

/-- Both resequencers are settled. -/
def Settled (t : Tunnel) : Prop := t.resequencer.Settled ∧ t.server.resequencer.Settled

theorem init_settled (activeSockets : List String) : (init activeSockets).Settled :=
  ⟨ResequencingBuffer.init_settled _, ResequencingBuffer.init_settled _⟩

theorem Settled.step (h : t.Settled) (hstep : t.step p e = some t') : t'.Settled := by
  rcases step_cases hstep with rfl | ⟨_, -, -, hres, hser⟩ | ⟨e', hres, hser⟩ |
    ⟨_, -, -, hser, -, hres⟩
  · exact h
  · exact ⟨hres ▸ h.1, hser ▸ h.2⟩
  · exact ⟨ResequencingBuffer.settled_of_run (s := (t.resequencer, t.client)) h.1
      (runFrom_cons_eq_some.mpr ⟨_, hres, runFrom_nil _⟩), hser ▸ h.2⟩
  · exact ⟨hres ▸ h.1, AetherServerProtocol.settled_step h.2 hser⟩

/-- **An invariant of the client** is one of the tunnel. -/
theorem client_invariant {I : AetherVPNClient → Prop}
    (hI : ∀ c e c', I c → AetherVPNClient.step p c e = some c' → I c') (hset : t.Settled)
    (ht : I t.client) (hstep : t.step p e = some t') : I t'.client := by
  rcases step_cases hstep with rfl | ⟨e', -, hc, -, -⟩ | ⟨e', hres, -⟩ | ⟨_, -, -, -, hc, -⟩
  · exact ht
  · exact hI _ _ _ ht hc
  · obtain ⟨run, heff⟩ := ResequencingBuffer.step_effect hset.1 hres
    rw [heff.callback]
    exact ResequencingBuffer.runCallback_invariant (Q := fun _ => True)
      (fun payload c _ hc => hI c (.deliver payload) _ hc rfl) (fun _ _ => trivial) ht
  · rwa [hc]

end Tunnel

namespace Server.AetherServerProtocol

variable {p : AetherProtocol} {s s' : AetherServerProtocol} {e : Event}

/-- **An invariant of the router** is one of the server. -/
theorem router_invariant {I : Router → Prop}
    (hI : ∀ r e r', I r → Router.step p r e = some r' → I r') (hset : s.resequencer.Settled)
    (hs : I s.router) (hstep : s.step p e = some s') : I s'.router := by
  have hbuffer : ∀ e', ResequencingBuffer.step callback (s.resequencer, s.router) e'
      = some (s'.resequencer, s'.router) → I s'.router := by
    intro e' h
    obtain ⟨run, heff⟩ := ResequencingBuffer.step_effect hset h
    rw [heff.callback]
    exact ResequencingBuffer.runCallback_invariant (Q := fun _ => True)
      (fun x r _ hr => hI r (.deliver x) _ hr rfl) (fun _ _ => trivial) hs
  rcases step_cases hstep with ⟨-, heq⟩ | ⟨_, _, _, _, _, _, _, _, _, -, -, hput⟩ |
    ⟨_, _, -, hflush⟩ | ⟨e', -, -, hr, -⟩
  · rwa [heq]
  · exact hbuffer _ hput
  · exact hbuffer _ hflush
  · exact hI _ _ _ hs hr

end Server.AetherServerProtocol

end AetherBond
