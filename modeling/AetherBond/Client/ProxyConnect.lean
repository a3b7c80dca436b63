import AetherBond.Client.Proxy
import AetherBond.Client.SchedulerLatency

set_option autoImplicit false

/-! # The reply of the proxy

The connection step of `_handle_client` of `aetherbond/client/proxy.py`. What can fail in it is
the event's: the resolution, the choice of a link from the registry as it is then, and each call
that opens a socket. An exception in the resolution is answered, and one in the three steps of a
physical connection; the other steps are in no `try` but the outer one, which only logs.

So a complete request gets its one reply, with the right status, exactly if its domain is text and
none of these other steps raises (`handleClient_repliesOnce_iff`).
-/

namespace AetherBond.Client

open AetherBond.Lib

namespace Socks5Proxy

/-! ## The source -/

/-- What a connection depends on besides the request. -/
structure Surroundings where
  /-- The monitor when the name is resolved, and when the link is drawn. -/
  resolving : PathMonitor
  selecting : PathMonitor
  fl : Rounding
  draw : ℚ
  choice : Nat
  /-- `socket.getaddrinfo`: it raises, or gives addresses. -/
  getaddrinfo : List Char → Nat → Option (List String)
  /-- `asyncio.open_connection` to an address succeeds. -/
  openConnection : String → Nat → Bool
  socket : Bool
  bind : String → Bool
  sockConnect : String → Nat → Bool
  /-- `asyncio.open_connection(sock=sock)` succeeds. -/
  openStream : Bool

/-- How the connection step ends. -/
inductive Connection
  | established (isSim : Bool)
  /-- An `except` clause replies. -/
  | fails (status : UInt8)
  /-- To the outer `except` clause. -/
  | raises
  deriving DecidableEq

/-- How `_handle_client` ends, as far as its relays. -/
inductive ClientEnd
  | returns
  | raises
  /-- The relays start, with what the application has sent behind its request. -/
  | relays (isSim : Bool) (reader : Bytes)
  deriving DecidableEq

namespace Surroundings

/-- The resolution. -/
def resolve (o : Surroundings) (dstAddr : List Char) (dstPort : Nat) : Option String :=
  match Scheduler.selectInterfaceLowestLatency o.resolving with
  | .error _ => none
  | .ok _dnsLinkIp =>
      match o.getaddrinfo dstAddr dstPort with
      | some (resolvedIp :: _) => some resolvedIp
      -- it raises, or the index does
      | _ => none

/-- The link of the session. -/
def outgoingInterface (o : Surroundings) : Except String String :=
  Scheduler.selectInterfaceWrr o.fl o.selecting o.draw o.choice

def isSim (o : Surroundings) (outgoingInterfaceIp : String) : Bool :=
  match o.selecting.metrics.get? outgoingInterfaceIp with
  | some metric => metric.isSimulated
  | none => false

/-- The connection step. -/
def connect (o : Surroundings) (dstAddr : List Char) (dstPort : Nat) : Connection :=
  match o.resolve dstAddr dstPort with
  | none => .fails 4
  | some resolvedIp =>
      match o.outgoingInterface with
      | .error _ => .raises
      | .ok outgoingInterfaceIp =>
          if o.isSim outgoingInterfaceIp then
            if o.openConnection resolvedIp dstPort then .established true else .raises
          else if o.socket then
            if o.bind outgoingInterfaceIp && o.sockConnect resolvedIp dstPort && o.openStream then
              .established false
            else .fails 3
          else .raises

end Surroundings

/-- `_handle_client` up to its relays, with what it has written. -/
def handleClient (o : Surroundings) (reader : Bytes) : Bytes × ClientEnd :=
  match readHandshake reader with
  | (written, .connects dstAddr dstPort reader) =>
      match o.connect dstAddr dstPort with
      | .established isSim => (written ++ sendReply 0, .relays isSim reader)
      | .fails status => (written ++ sendReply status, .returns)
      | .raises => (written, .raises)
  | (written, .returns) => (written, .returns)
  | (written, .raises) => (written, .raises)

/-! ## One reply -/

variable {o : Surroundings} {dstAddr : List Char} {dstPort : Nat}

theorem length_sendReply (status : UInt8) : (sendReply status).length = 10 := rfl

/-- All calls that the outbound connection takes succeed. -/
def Established (o : Surroundings) (dstAddr : List Char) (dstPort : Nat) : Prop :=
  ∃ resolvedIp ∈ o.resolve dstAddr dstPort, ∃ ip, o.outgoingInterface = .ok ip ∧
    if o.isSim ip then o.openConnection resolvedIp dstPort
    else o.socket ∧ o.bind ip ∧ o.sockConnect resolvedIp dstPort ∧ o.openStream

/-- The request is answered once, behind the greeting, with status 0 exactly if the connection is
established. -/
def RepliesOnce (o : Surroundings) (r : ConnectRequest) (rest : Bytes) : Prop :=
  ∃ status, (handleClient o (r.encode ++ rest)).1 = [5, 0] ++ sendReply status ∧
    (status = 0 ↔ ∃ dstAddr ∈ r.destination.text, Established o dstAddr r.port)

/-- No step raises outside of the clauses that reply: the name is not resolved, or a link is
drawn, and over a simulated link there is a connection, for a physical link a socket. -/
def Answered (o : Surroundings) (dstAddr : List Char) (dstPort : Nat) : Prop :=
  ∀ resolvedIp ∈ o.resolve dstAddr dstPort, ∃ ip, o.outgoingInterface = .ok ip ∧
    if o.isSim ip then o.openConnection resolvedIp dstPort else o.socket

/-- **The ends of the connection step**: all its calls succeed, or it fails with a status, or a
step raises that is not answered. -/
theorem connect_cases (o : Surroundings) (dstAddr : List Char) (dstPort : Nat) :
    (∃ isSim, o.connect dstAddr dstPort = .established isSim ∧
        Established o dstAddr dstPort ∧ Answered o dstAddr dstPort) ∨
      (∃ status, o.connect dstAddr dstPort = .fails status ∧ status ≠ 0 ∧
        ¬ Established o dstAddr dstPort ∧ Answered o dstAddr dstPort) ∨
      o.connect dstAddr dstPort = .raises ∧ ¬ Answered o dstAddr dstPort := by
  unfold Surroundings.connect Established Answered
  cases o.resolve dstAddr dstPort with
  | none => exact .inr (.inl ⟨4, rfl, by decide, by simp, by simp⟩)
  | some resolvedIp =>
      cases o.outgoingInterface with
      | error => exact .inr (.inr ⟨rfl, by simp⟩)
      | ok ip =>
          dsimp only
          by_cases hsim : o.isSim ip
          · by_cases hopen : o.openConnection resolvedIp dstPort
            · exact .inl ⟨true, by simp [hsim, hopen]⟩
            · exact .inr (.inr (by simp [hsim, hopen]))
          · by_cases hsocket : o.socket
            · by_cases hrest : o.bind ip && o.sockConnect resolvedIp dstPort && o.openStream
              · exact .inl ⟨false, by simp_all⟩
              · exact .inr (.inl ⟨3, by simp_all⟩)
            · exact .inr (.inr (by simp [hsim, hsocket]))

/-- A complete request for a destination that is text comes to the connection step. -/
theorem handleClient_text {r : ConnectRequest} (htext : r.destination.text = some dstAddr)
    (rest : Bytes) : handleClient o (r.encode ++ rest) =
      match o.connect dstAddr r.port with
      | .established isSim => ([5, 0] ++ sendReply 0, .relays isSim rest)
      | .fails status => ([5, 0] ++ sendReply status, .returns)
      | .raises => ([5, 0], .raises) := by
  unfold handleClient
  rw [readHandshake_encode, htext]

/-- Any other raises. -/
theorem handleClient_not_text {r : ConnectRequest} (htext : r.destination.text = none)
    (rest : Bytes) : handleClient o (r.encode ++ rest) = ([5, 0], .raises) := by
  unfold handleClient
  rw [readHandshake_encode, htext]

/-- The answer to the greeting is no reply to the request. -/
theorem greeting_ne_reply (status : UInt8) : ([5, 0] : Bytes) ≠ [5, 0] ++ sendReply status := by
  intro h
  have hlength := congrArg List.length h
  rw [List.length_append, length_sendReply] at hlength
  cases hlength

/-- **A complete request is answered once, with status 0 exactly for a connection, if and only if
its destination is text and no step raises that is not answered**, whatever the surroundings. -/
theorem handleClient_repliesOnce_iff (o : Surroundings) (r : ConnectRequest) (rest : Bytes) :
    RepliesOnce o r rest ↔
      ∃ dstAddr, r.destination.text = some dstAddr ∧ Answered o dstAddr r.port := by
  unfold RepliesOnce
  cases htext : r.destination.text with
  | none =>
      rw [handleClient_not_text htext]
      constructor
      · rintro ⟨status, hwritten, -⟩
        exact absurd hwritten (greeting_ne_reply status)
      · rintro ⟨dstAddr, hnone, -⟩
        cases hnone
  | some dstAddr =>
      have hanswered : (∃ dstAddr', some dstAddr = some dstAddr' ∧ Answered o dstAddr' r.port) ↔
          Answered o dstAddr r.port := by simp
      have hestablished : (∃ dstAddr' ∈ some dstAddr, Established o dstAddr' r.port) ↔
          Established o dstAddr r.port := by simp
      rw [hanswered, hestablished, handleClient_text htext]
      obtain ⟨isSim, hconnect, hyes, hall⟩ | ⟨status, hconnect, hstatus, hno, hall⟩ |
          ⟨hconnect, hraises⟩ := connect_cases o dstAddr r.port
      · rw [hconnect]
        exact iff_of_true ⟨0, rfl, iff_of_true rfl hyes⟩ hall
      · rw [hconnect]
        exact iff_of_true ⟨status, rfl, iff_of_false hstatus hno⟩ hall
      · rw [hconnect]
        refine iff_of_false ?_ hraises
        rintro ⟨status, hwritten, -⟩
        exact greeting_ne_reply status hwritten

/-- A registry with one simulated link. -/
def simulatedLink : PathMonitor where
  metrics :=
    ⟨[("10.0.0.2", { LinkMetrics.new "eth0" "10.0.0.2" true with score := 50 })], by decide⟩

/-- The link is in use throughout, and the destination refuses the connection. -/
def refusing : Surroundings where
  resolving := simulatedLink
  selecting := simulatedLink
  fl := .exact
  draw := 0
  choice := 0
  getaddrinfo := fun _ _ => some ["127.0.0.1"]
  openConnection := fun _ _ => false
  socket := true
  bind := fun _ => true
  sockConnect := fun _ _ => false
  openStream := true

/-- A request for port 80 of the local host. -/
def localRequest : ConnectRequest where
  methods := [0]
  version := 5
  rsv := 0
  destination := .ipv4 127 0 0 1
  port := 80
  methods_length := by decide
  port_lt := by decide

theorem refusing_resolves (dstAddr : List Char) (dstPort : Nat) :
    refusing.resolve dstAddr dstPort = some "127.0.0.1" := by
  have hactive : Scheduler.getActiveLinks simulatedLink ≠ [] := by decide +kernel
  obtain ⟨best, -, hselect, -⟩ := Scheduler.selectInterfaceLowestLatency_min hactive
  unfold Surroundings.resolve
  rw [show refusing.resolving = simulatedLink from rfl, hselect]
  rfl

/-- The application gets no reply at all. -/
theorem refused_connection_no_reply :
    (handleClient refusing (localRequest.encode ++ [])).1 = [5, 0] ∧
      ¬ RepliesOnce refusing localRequest [] := by
  have hraises : refusing.connect (inetNtoa 127 0 0 1) 80 = .raises := by
    unfold Surroundings.connect
    rw [refusing_resolves]
    decide +kernel
  have htext : localRequest.destination.text = some (inetNtoa 127 0 0 1) := rfl
  have hwritten : (handleClient refusing (localRequest.encode ++ [])).1 = [5, 0] := by
    rw [handleClient_text htext, show localRequest.port = 80 from rfl, hraises]
  refine ⟨hwritten, ?_⟩
  rintro ⟨status, hreply, -⟩
  rw [hwritten] at hreply
  exact greeting_ne_reply status hreply

end Socks5Proxy

end AetherBond.Client
