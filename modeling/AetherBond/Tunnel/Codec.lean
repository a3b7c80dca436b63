import AetherBond.Client.Socks
import AetherBond.Client.Vpn
import AetherBond.Server.Router

set_option autoImplicit false

/-! # The frames of the tunnel, from end to end

A frame is built at one end, packed by `encrypt_and_pack`, unpacked by `unpack_and_decrypt` and
parsed at the other end. `Arrives` says that the other end reads what was meant, under the same
number and path. Every frame of either end arrives but one kind: the server ignores a CONNECT
without a host, although the client has accepted the request for it (`codec_arrives_iff`).
-/

namespace AetherBond

open AetherBond.Lib AetherBond.Common

/-- The payload packs, and the other end reads `x` from it, with the same number and path. -/
def Arrives {α : Type*} (p : AetherProtocol) (parse : Bytes → Option α) (x : α)
    (payload : Option Bytes) (seq pathId : Nat) (timestampUs nowUs : Int) : Prop :=
  ∃ sent ∈ payload, ∃ packet, p.encryptAndPack sent seq pathId timestampUs = .ok packet ∧
    ∃ received latency, p.unpackAndDecrypt packet nowUs = .ok (received, seq, pathId, latency) ∧
      parse received = some x

/-- What is left of the way is the parser. -/
theorem arrives_iff {α : Type*} {p : AetherProtocol} (hcipher : p.cipher.Correct)
    {parse : Bytes → Option α} {x : α} {payload : Bytes} {seq pathId : Nat} {timestampUs : Int}
    (hfits : Packable seq timestampUs pathId) (nowUs : Int) :
    Arrives p parse x (some payload) seq pathId timestampUs nowUs ↔ parse payload = some x := by
  constructor
  · rintro ⟨sent, hsent, packet, hpack, received, latency, hunpack, hparse⟩
    obtain rfl := Option.some.inj hsent
    rw [unpackAndDecrypt_encryptAndPack hcipher hpack] at hunpack
    cases hunpack
    exact hparse
  · intro hparse
    obtain ⟨packet, hpack⟩ := (encryptAndPack_ok_iff p payload).mpr hfits
    exact ⟨payload, rfl, packet, hpack, payload, _,
      unpackAndDecrypt_encryptAndPack hcipher hpack nowUs, hparse⟩

/-! ## Upwards -/

namespace Client

/-- The frames of a handler. -/
inductive HandlerFrame
  | connect
  | data (body : Bytes)
  | close
  deriving DecidableEq

/-- What the handler of session `sessionId` sends. -/
def HandlerFrame.payload (sessionId : Nat) (dstAddr : List Char) (dstPort : Nat) :
    HandlerFrame → Option Bytes
  | connect => AetherVPNClient.connectPayload sessionId dstPort dstAddr
  | data body => AetherVPNClient.dataPayload sessionId body
  | close => AetherVPNClient.closePayload sessionId

/-- What it means by it. -/
def HandlerFrame.command (sessionId : Nat) (dstAddr : List Char) (dstPort : Nat) :
    HandlerFrame → Server.Command
  | connect => .connect sessionId .tcp dstPort dstAddr
  | data body => .data sessionId body
  | close => .close sessionId

end Client

namespace Server

variable {sessionId port : Nat}

/-- **The server reads a CONNECT frame if it names a host**, and ignores it otherwise. -/
theorem parsePayload_connect (hid : sessionId < 2 ^ 32) (hport : port < 2 ^ 16)
    (host : List Char) :
    parsePayload (frame 1 sessionId (1 :: (toBE 2 port ++ encode host)))
      = if host = [] then none else some (.connect sessionId .tcp port host) := by
  have hlen : (toBE 2 port).length = 2 := length_toBE 2 port
  have hdrop : (toBE 2 port ++ encode host).drop 2 = encode host := by
    rw [List.drop_append_of_le_length hlen.ge, List.drop_of_length_le hlen.le, List.nil_append]
  have htake : (toBE 2 port ++ encode host).take 2 = toBE 2 port := by
    rw [List.take_append_of_le_length hlen.ge, List.take_of_length_le hlen.le]
  have hfield : ofBE (toBE 2 port) = port := ofBE_toBE_of_lt (by omega)
  unfold parsePayload
  rw [splitFrame_frame _ hid]
  dsimp only
  rw [if_pos rfl, List.length_cons, List.length_append, hlen]
  cases host with
  | nil =>
      rw [if_pos rfl]
      exact if_pos (by decide)
  | cons c host =>
      have hpos : 0 < (encode (c :: host)).length := by
        unfold encode
        rw [List.flatMap_cons, List.length_append, String.length_utf8EncodeChar]
        have := c.utf8Size_pos
        omega
      rw [if_neg (by omega), if_neg (List.cons_ne_nil _ _), List.drop_succ_cons,
        List.drop_succ_cons, List.drop_zero, htake, hdrop, hfield, decodeIgnore_encode]
      rfl

theorem parsePayload_data (hid : sessionId < 2 ^ 32) (body : Bytes) :
    parsePayload (frame 2 sessionId body) = some (.data sessionId body) := by
  unfold parsePayload
  rw [splitFrame_frame _ hid]
  rfl

theorem parsePayload_close (hid : sessionId < 2 ^ 32) (body : Bytes) :
    parsePayload (frame 3 sessionId body) = some (.close sessionId) := by
  unfold parsePayload
  rw [splitFrame_frame _ hid]
  rfl

end Server

/-- **What the server makes of a frame of the handler.** -/
theorem Client.HandlerFrame.arrives_iff {p : AetherProtocol} (hcipher : p.cipher.Correct)
    {sessionId seq pathId dstPort : Nat} {timestampUs : Int} (hid : sessionId < 2 ^ 32)
    (hport : dstPort < 2 ^ 16) (hfits : Packable seq timestampUs pathId) (nowUs : Int)
    (dstAddr : List Char) (f : HandlerFrame) :
    Arrives p Server.parsePayload (f.command sessionId dstAddr dstPort)
        (f.payload sessionId dstAddr dstPort) seq pathId timestampUs nowUs ↔
      ¬ (f = .connect ∧ dstAddr = []) := by
  have hpack : ∀ command body, packFrame command sessionId body
      = some (frame command sessionId body) := fun _ _ => if_pos hid
  cases f with
  | connect =>
      unfold payload AetherVPNClient.connectPayload
      dsimp only
      rw [hpack, AetherBond.arrives_iff hcipher hfits, Server.parsePayload_connect hid hport]
      by_cases hhost : dstAddr = []
      · simp [hhost]
      · simp [hhost, command]
  | data body =>
      unfold payload AetherVPNClient.dataPayload
      dsimp only
      rw [hpack, AetherBond.arrives_iff hcipher hfits, Server.parsePayload_data hid]
      simp [command]
  | close =>
      unfold payload AetherVPNClient.closePayload
      dsimp only
      rw [hpack, AetherBond.arrives_iff hcipher hfits, Server.parsePayload_close hid]
      simp [command]

/-! ## Downwards -/

namespace Server

/-- What `_send_back_to_client` sends. -/
inductive Reply
  | data (sessionId : Nat) (body : Bytes)
  | close (sessionId : Nat)
  deriving DecidableEq

def Reply.sessionId : Reply → Nat
  | data sessionId _ | close sessionId => sessionId

/-- The arguments of `_send_back_to_client`. -/
def Reply.payload : Reply → Bytes
  | data sessionId body => frame 2 sessionId body
  | close sessionId => frame 3 sessionId []

/-- A relay loop sends a DATA frame. -/
theorem Router.sendBackToClient_data (p : AetherProtocol) (r : Router) (sessionId : Nat)
    (body : Bytes) (clientAddr : Addr) (pathId : Nat) (nowUs : Int) :
    (r.sendBackToClient p sessionId body clientAddr pathId false nowUs).1.encryptCalls
      = r.encryptCalls ++ [⟨(Reply.data sessionId body).payload, r.nextSeqOut, pathId, nowUs⟩] := by
  obtain ⟨responses, heq⟩ :=
    sendBackToClient_frame (p := p) r sessionId body clientAddr pathId false nowUs
  rw [heq]
  rfl

/-- A failed connect sends a CLOSE frame without a body. -/
theorem Router.sendBackToClient_close (p : AetherProtocol) (r : Router) (sessionId : Nat)
    (clientAddr : Addr) (pathId : Nat) (nowUs : Int) :
    (r.sendBackToClient p sessionId [] clientAddr pathId true nowUs).1.encryptCalls
      = r.encryptCalls ++ [⟨(Reply.close sessionId).payload, r.nextSeqOut, pathId, nowUs⟩] := by
  obtain ⟨responses, heq⟩ :=
    sendBackToClient_frame (p := p) r sessionId [] clientAddr pathId true nowUs
  rw [heq]
  rfl

end Server

namespace Client

/-- What `_handle_reordered_server_packet` reads from a payload it does not ignore. -/
def parseReply (payload : Bytes) : Option Server.Reply :=
  match splitFrame payload with
  | none => none
  | some (status, sessionId, body) =>
      if status = 2 then some (.data sessionId body)
      else if status = 3 then some (.close sessionId)
      else none

/-- What it does then, if the session is known. -/
def AetherVPNClient.handleReply (c : AetherVPNClient) : Server.Reply → AetherVPNClient
  | .data sessionId body =>
      match c.sessions.get? sessionId with
      | none => c
      | some o => { c with writes := c.writes ++ [(o, body)] }
  | .close sessionId =>
      match c.sessions.get? sessionId with
      | none => c
      | some o => { c.closeWriter o true with sessions := c.sessions.pop sessionId }

/-- **The client acts on what it reads**, and on nothing else. -/
theorem AetherVPNClient.handleReorderedServerPacket_eq (c : AetherVPNClient) (payload : Bytes) :
    c.handleReorderedServerPacket payload
      = (parseReply payload).elim { c with delivered := c.delivered ++ [payload] }
          { c with delivered := c.delivered ++ [payload] }.handleReply := by
  unfold handleReorderedServerPacket parseReply
  dsimp only
  cases splitFrame payload with
  | none => rfl
  | some x =>
      obtain ⟨status, sessionId, body⟩ := x
      dsimp only
      by_cases hdata : status = 2
      · rw [if_pos hdata]
        unfold handleReply Option.elim
        dsimp only
        cases c.sessions.get? sessionId with
        | none => rfl
        | some o => exact if_pos hdata
      rw [if_neg hdata]
      by_cases hclose : status = 3
      · rw [if_pos hclose]
        unfold handleReply Option.elim
        dsimp only
        cases c.sessions.get? sessionId with
        | none => rfl
        | some o =>
            dsimp only
            rw [if_neg hdata, if_pos hclose]
      rw [if_neg hclose]
      cases c.sessions.get? sessionId with
      | none => rfl
      | some o =>
          dsimp only
          rw [if_neg hdata, if_neg hclose]
          rfl

/-- The client reads back what the server meant. -/
theorem parseReply_payload {reply : Server.Reply} (hid : reply.sessionId < 2 ^ 32) :
    parseReply reply.payload = some reply := by
  unfold parseReply
  cases reply with
  | data sessionId body =>
      unfold Server.Reply.payload
      dsimp only
      rw [splitFrame_frame body (show sessionId < 2 ^ 32 from hid)]
      rfl
  | close sessionId =>
      unfold Server.Reply.payload
      dsimp only
      rw [splitFrame_frame [] (show sessionId < 2 ^ 32 from hid)]
      rfl

end Client

/-- **The client reads every frame of the server.** -/
theorem Server.Reply.arrives {p : AetherProtocol} (hcipher : p.cipher.Correct)
    {seq pathId : Nat} {timestampUs : Int} (hfits : Packable seq timestampUs pathId)
    (nowUs : Int) (reply : Reply) (hid : reply.sessionId < 2 ^ 32) :
    Arrives p Client.parseReply reply (some reply.payload) seq pathId timestampUs nowUs :=
  (arrives_iff hcipher hfits nowUs).mpr (Client.parseReply_payload hid)

/-! ## Both directions -/

/-- **The codec, and exactly when it loses a frame.** For every request the client accepts,
a frame of its handler arrives if and only if it is not the CONNECT of a request that names no
host; every frame of the server arrives. -/
theorem codec_arrives_iff (p : AetherProtocol) (hcipher : p.cipher.Correct) (socks : Bytes)
    (dstAddr : List Char) (dstPort : Nat) (rest : Bytes)
    (haccepted : (Client.handshake socks).2 = .accepted dstAddr dstPort rest)
    (seq pathId : Nat) (timestampUs nowUs : Int) (hseq : seq < 2 ^ 32) (hpath : pathId < 2 ^ 32)
    (htime : 0 ≤ timestampUs ∧ timestampUs < 2 ^ 64) :
    (∀ (sessionId : Nat) (f : Client.HandlerFrame), sessionId < 2 ^ 32 →
      (Arrives p Server.parsePayload (f.command sessionId dstAddr dstPort)
          (f.payload sessionId dstAddr dstPort) seq pathId timestampUs nowUs ↔
        ¬ (f = .connect ∧ Client.NamesNoHost socks))) ∧
    ∀ reply : Server.Reply, reply.sessionId < 2 ^ 32 →
      Arrives p Client.parseReply reply (some reply.payload) seq pathId timestampUs nowUs := by
  have hfits : Packable seq timestampUs pathId := ⟨hseq, htime, hpath⟩
  obtain ⟨hnil, hport⟩ := Client.handshake_accepted haccepted
  constructor
  · intro sessionId f hid
    rw [f.arrives_iff hcipher hid hport hfits, hnil]
  · exact fun reply hid => reply.arrives hcipher hfits nowUs hid

/-- A request for the host `a`, port 80. -/
theorem codec_arrives_connect :
    Arrives (.new .checksum [1]) Server.parsePayload (.connect 1 .tcp 80 ['a'])
      (Client.HandlerFrame.connect.payload 1 ['a'] 80) 0 0 0 0 :=
  ((codec_arrives_iff (.new .checksum [1]) Aead.checksum_correct
    [5, 1, 0, 5, 1, 0, 3, 1, 97, 0, 80] ['a'] 80 [] (by decide +kernel) 0 0 0 0 (by decide)
    (by decide) (by decide)).1 1 .connect (by decide)).mpr (by decide)

/-- The application asks for a domain of length zero; the client accepts, and the server ignores
the CONNECT frame. -/
theorem connect_without_host_lost :
    ¬ ∀ (p : AetherProtocol) (socks : Bytes) (dstAddr : List Char) (dstPort : Nat) (rest : Bytes)
      (sessionId seq pathId : Nat) (timestampUs nowUs : Int) (f : Client.HandlerFrame),
      p.cipher.Correct → (Client.handshake socks).2 = .accepted dstAddr dstPort rest →
      sessionId < 2 ^ 32 → seq < 2 ^ 32 → pathId < 2 ^ 32 →
      0 ≤ timestampUs ∧ timestampUs < 2 ^ 64 →
      Arrives p Server.parsePayload (f.command sessionId dstAddr dstPort)
        (f.payload sessionId dstAddr dstPort) seq pathId timestampUs nowUs := by
  intro h
  have harrives := h (.new .checksum [1]) [5, 1, 0, 5, 1, 0, 3, 0, 0, 80] [] 80 [] 1 0 0 0 0
    .connect Aead.checksum_correct (by decide +kernel) (by decide) (by decide) (by decide)
    (by decide)
  have hread := (Client.HandlerFrame.arrives_iff Aead.checksum_correct (by decide) (by decide)
    ⟨by decide, by decide, by decide⟩ 0 [] .connect).mp harrives
  exact hread ⟨rfl, rfl⟩

end AetherBond
