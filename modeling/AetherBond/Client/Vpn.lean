import AetherBond.Common.Frame
import AetherBond.Common.Protocol
import AetherBond.Lib.Dict
import AetherBond.Lib.Run
import AetherBond.Lib.Utf8

set_option autoImplicit false

/-! # The VPN client

`AetherVPNClient` and `VPNClientSession` of `aetherbond/client/vpn.py`. Upwards, each local
SOCKS5 connection has a handler, `_handle_local_client`, that reads chunks and sends them in
frames; `HandlerPc` lists where it can be suspended once its session is registered. Downwards,
the resequencer calls `_handle_reordered_server_packet`, which spawns write tasks; these start
in the order of their creation.

A handler and its session object have the same index, in `handlers` and in `objects`. No code
of the client gives up control while it holds `self._lock`, so the lock is free at every
`await` and is not part of the state. A suspended `sock_sendto` does nothing but delay its
handler, so the packet is recorded in `datagrams` when it is handed over; the network may lose,
delay or repeat it, which also covers a `sock_sendto` that raises.

History that no code reads: `encryptCalls`, the chunks the handlers read (`chunks`), the
payloads the resequencer delivered (`delivered`), what was written to the local sockets
(`written`), and `openedAt` of a session.
-/

namespace AetherBond.Client

open AetherBond.Lib AetherBond.Common

/-! ## State -/

/-- `VPNClientSession`. `openedAt` is history: the number of payloads delivered before it was
registered. -/
structure VPNClientSession where
  sessionId : Nat
  active : Bool
  writerClosed : Bool
  openedAt : Nat
  deriving DecidableEq

/-- Where `_handle_local_client` is, after it registered its session. -/
inductive HandlerPc
  /-- In `drain` after the SOCKS5 success reply. -/
  | replying (dstAddr : List Char) (dstPort : Nat)
  /-- In `sock_sendto` of the CONNECT frame. -/
  | connecting
  /-- In `reader.read`. -/
  | reading
  /-- In the simulated delay (which may be nothing) before a chunk is sent. -/
  | pacing (data : Bytes) (interfaceIp : String) (pathId : Nat)
  /-- In `sock_sendto` of a DATA frame. -/
  | sending
  /-- In `sock_sendto` of the CLOSE frame. -/
  | closing
  /-- Returned, or left by an exception. -/
  | ended
  deriving DecidableEq

/-- What a send draws from outside: the interface `select_interface_wrr` picks (`none` if it
raises) and the clock in microseconds. -/
structure Draw where
  interfaceIp : Option String
  nowUs : Int
  deriving DecidableEq

/-- What a write to a local socket does: it completes, suspends in `drain`, or raises, before
or after the bytes went out. -/
inductive WriteOutcome
  | done
  | suspends
  | fails (written : Bool)
  deriving DecidableEq

structure AetherVPNClient where
  sessions : Dict Nat Nat
  /-- The keys of `active_sockets`. -/
  activeSockets : List String
  nextSeqOut : Nat
  nextSessionId : Nat
  objects : List VPNClientSession
  handlers : List HandlerPc
  /-- The write tasks that have not started, and the sessions of those suspended in `drain`. -/
  writes : List (Nat × Bytes)
  draining : List Nat
  datagrams : List Bytes
  encryptCalls : List EncryptCall
  chunks : List (Nat × Bytes)
  delivered : List Bytes
  written : List (Nat × Bytes)

/-- How `_send_to_vps` leaves its caller. -/
inductive SendResult
  | returns
  | raises
  | suspends
  deriving DecidableEq

namespace AetherVPNClient

/-- `__init__` and `_init_multipath_sockets`, with the interfaces whose socket was bound. -/
def init (activeSockets : List String) : AetherVPNClient where
  sessions := .empty
  activeSockets := activeSockets
  nextSeqOut := 0
  nextSessionId := 1
  objects := []
  handlers := []
  writes := []
  draining := []
  datagrams := []
  encryptCalls := []
  chunks := []
  delivered := []
  written := []

def setHandler (c : AetherVPNClient) (h : Nat) (pc : HandlerPc) : AetherVPNClient :=
  { c with handlers := c.handlers.set h pc }

/-! ## Sending -/

/-- `select_interface_wrr()` and `list(self.active_sockets.keys()).index(interface_ip)`; either
may raise. -/
def selectPath (c : AetherVPNClient) (draw : Draw) : Option (String × Nat) :=
  draw.interfaceIp.bind fun ip => (c.activeSockets.idxOf? ip).map fun pathId => (ip, pathId)

/-- `_send_to_vps` for a payload that may have failed to pack. -/
def sendToVps (p : AetherProtocol) (c : AetherVPNClient) (payload : Option Bytes) (pathId : Nat)
    (interfaceIp : String) (nowUs : Int) : AetherVPNClient × SendResult :=
  match payload with
  -- `struct.pack` raised before the call
  | none => (c, .raises)
  | some payload =>
      if interfaceIp ∈ c.activeSockets then
        let seq := c.nextSeqOut
        let c := { c with
          nextSeqOut := seq + 1
          encryptCalls := c.encryptCalls ++ [⟨payload, seq, pathId, nowUs⟩] }
        -- the number is taken, also when this raises
        match p.encryptAndPack payload seq pathId nowUs with
        | .ok packet => ({ c with datagrams := c.datagrams ++ [packet] }, .suspends)
        | .error _ => (c, .raises)
      else (c, .returns)

/-- The frames of a handler. -/
def connectPayload (sessionId dstPort : Nat) (dstAddr : List Char) : Option Bytes :=
  packFrame 1 sessionId (1 :: (toBE 2 dstPort ++ encode dstAddr))

def dataPayload (sessionId : Nat) (data : Bytes) : Option Bytes := packFrame 2 sessionId data

def closePayload (sessionId : Nat) : Option Bytes := packFrame 3 sessionId []

/-! ## The handler -/

/-- The session id of a handler; it is the one of its session object. -/
def sessionId (c : AetherVPNClient) (h : Nat) : Nat := c.objects[h]?.elim 0 (·.sessionId)

def isActive (c : AetherVPNClient) (h : Nat) : Bool := c.objects[h]?.elim false (·.active)

/-- `self.writer.close()`, with or without `self.active = False` before it. -/
def closeWriter (c : AetherVPNClient) (h : Nat) (deactivate : Bool) : AetherVPNClient :=
  match c.objects[h]? with
  | none => c
  | some s =>
      { c with
        objects := c.objects.set h
          { s with active := s.active && !deactivate, writerClosed := true } }

/-- The `finally` clause after the CLOSE frame. -/
def unregister (c : AetherVPNClient) (h : Nat) : AetherVPNClient :=
  ({ c with sessions := c.sessions.pop (c.sessionId h) }.closeWriter h false).setHandler h .ended

/-- The `finally` clause; an exception in it leaves the handler at once. -/
def finish (p : AetherProtocol) (c : AetherVPNClient) (h : Nat) (draw : Draw) :
    AetherVPNClient :=
  match c.selectPath draw with
  -- the session stays in the dictionary and its writer open
  | none => c.setHandler h .ended
  | some (ip, pathId) =>
      let (c, result) := c.sendToVps p (closePayload (c.sessionId h)) pathId ip draw.nowUs
      match result with
      | .returns => c.unregister h
      -- so too when the frame does not go out
      | .raises => c.setHandler h .ended
      | .suspends => c.setHandler h .closing

/-- The head of the relay loop: `while session.active`. -/
def loop (p : AetherProtocol) (c : AetherVPNClient) (h : Nat) (last : Draw) : AetherVPNClient :=
  if c.isActive h then c.setHandler h .reading else c.finish p h last

/-- A frame of the handler goes out over the drawn link; `last` is drawn if the handler comes
to its `finally` clause. -/
def sendFrame (p : AetherProtocol) (c : AetherVPNClient) (h : Nat) (payload : Option Bytes)
    (pathId : Nat) (interfaceIp : String) (nowUs : Int) (pc : HandlerPc) (last : Draw) :
    AetherVPNClient :=
  let (c, result) := c.sendToVps p payload pathId interfaceIp nowUs
  match result with
  | .returns => c.loop p h last
  | .raises => c.finish p h last
  | .suspends => c.setHandler h pc

/-! ## The downlink -/

/-- `_handle_reordered_server_packet`. -/
def handleReorderedServerPacket (c : AetherVPNClient) (payload : Bytes) : AetherVPNClient :=
  let c := { c with delivered := c.delivered ++ [payload] }
  match splitFrame payload with
  | none => c
  | some (status, sessionId, body) =>
      match c.sessions.get? sessionId with
      | none => c
      | some o =>
          -- the write runs later, in a task of its own; CLOSE acts at once
          if status = 2 then { c with writes := c.writes ++ [(o, body)] }
          else if status = 3 then
            { c.closeWriter o true with sessions := c.sessions.pop sessionId }
          else c

/-- `self.active = False` after a failed write. -/
def deactivate (c : AetherVPNClient) (o : Nat) : AetherVPNClient :=
  match c.objects[o]? with
  | none => c
  | some s => { c with objects := c.objects.set o { s with active := false } }

/-- `VPNClientSession.write` in a task that starts. What is written to a closed writer is
dropped by its transport. -/
def write (c : AetherVPNClient) (o : Nat) (body : Bytes) (outcome : WriteOutcome) :
    AetherVPNClient :=
  match c.objects[o]? with
  | none => c
  | some s =>
      if s.active then
        let logged :=
          if s.writerClosed then c else { c with written := c.written ++ [(o, body)] }
        match outcome with
        | .done => logged
        | .suspends => { logged with draining := logged.draining ++ [o] }
        -- `drain` raised, so the bytes are with the transport; otherwise `write` did
        | .fails true => logged.deactivate o
        | .fails false => c.deactivate o
      else c

/-! ## Events -/

inductive Event
  /-- A local application has asked for a destination; its session is registered. -/
  | accepted (dstAddr : List Char) (dstPort : Nat)
  /-- The `drain` of the SOCKS5 reply returns, or raises. -/
  | replied (h : Nat) (ok : Bool) (draw last : Draw)
  /-- A read of a handler returns. -/
  | received (h : Nat) (data : Bytes) (draw last : Draw)
  /-- A read of a handler raises. -/
  | readFails (h : Nat) (last : Draw)
  /-- The simulated delay of a chunk is over, or raises. -/
  | paced (h : Nat) (ok : Bool) (nowUs : Int) (last : Draw)
  /-- A `sock_sendto` of a handler returns or raises. -/
  | sent (h : Nat) (last : Draw)
  /-- The resequencer delivers a payload. -/
  | deliver (payload : Bytes)
  /-- The oldest write task starts. -/
  | startWrite (outcome : WriteOutcome)
  /-- A suspended `drain` of a write task returns or raises. -/
  | drained (i : Nat) (ok : Bool)
  /-- `stop` closes the sessions and the tunnel sockets. -/
  | stop
  deriving DecidableEq

/-- The tail of `stop`, which does not give up control. -/
def stop (c : AetherVPNClient) : AetherVPNClient :=
  let c := c.sessions.values.foldl (fun c o => c.closeWriter o true) c
  { c with sessions := .empty, activeSockets := [] }

def step (p : AetherProtocol) (c : AetherVPNClient) : Event → Option AetherVPNClient
  | .accepted dstAddr dstPort =>
      some { c with
        nextSessionId := c.nextSessionId + 1
        objects := c.objects ++ [⟨c.nextSessionId, true, false, c.delivered.length⟩]
        handlers := c.handlers ++ [.replying dstAddr dstPort]
        sessions := c.sessions.set c.nextSessionId c.objects.length }
  | .replied h ok draw last =>
      match c.handlers[h]? with
      | some (.replying dstAddr dstPort) =>
          if ok then
            match c.selectPath draw with
            | none => some (c.finish p h last)
            | some (ip, pathId) =>
                some (c.sendFrame p h (connectPayload (c.sessionId h) dstPort dstAddr) pathId ip
                  draw.nowUs .connecting last)
          else some (c.finish p h last)
      | _ => none
  | .received h data draw last =>
      match c.handlers[h]? with
      | some .reading =>
          if data = [] then some (c.finish p h last)
          else
            -- the chunk is read, whatever becomes of it
            let c := { c with chunks := c.chunks ++ [(h, data)] }
            match c.selectPath draw with
            | none => some (c.finish p h last)
            | some (ip, pathId) => some (c.setHandler h (.pacing data ip pathId))
      | _ => none
  | .readFails h last =>
      match c.handlers[h]? with
      | some .reading => some (c.finish p h last)
      | _ => none
  | .paced h ok nowUs last =>
      match c.handlers[h]? with
      | some (.pacing data ip pathId) =>
          if ok then
            some (c.sendFrame p h (dataPayload (c.sessionId h) data) pathId ip nowUs .sending last)
          else some (c.finish p h last)
      | _ => none
  | .sent h last =>
      match c.handlers[h]? with
      | some .connecting | some .sending => some (c.loop p h last)
      | some .closing => some (c.unregister h)
      | _ => none
  | .deliver payload => some (c.handleReorderedServerPacket payload)
  | .startWrite outcome =>
      match c.writes with
      | [] => none
      | (o, body) :: writes => some ({ c with writes := writes }.write o body outcome)
  | .drained i ok =>
      match c.draining[i]? with
      | none => none
      | some o =>
          let c := { c with draining := c.draining.eraseIdx i }
          some (if ok then c else c.deactivate o)
  | .stop => some c.stop

/-! ## What a step can do -/

/-- The steps, by what they find. -/
inductive Steps (p : AetherProtocol) (c : AetherVPNClient) : Event → AetherVPNClient → Prop
  | accepted (dstAddr : List Char) (dstPort : Nat) :
      Steps p c (.accepted dstAddr dstPort) { c with
        nextSessionId := c.nextSessionId + 1
        objects := c.objects ++ [⟨c.nextSessionId, true, false, c.delivered.length⟩]
        handlers := c.handlers ++ [.replying dstAddr dstPort]
        sessions := c.sessions.set c.nextSessionId c.objects.length }
  | replyFails {h dstPort : Nat} {dstAddr : List Char}
      (hpc : c.handlers[h]? = some (.replying dstAddr dstPort)) (draw last : Draw) :
      Steps p c (.replied h false draw last) (c.finish p h last)
  | connectUnsent {h dstPort : Nat} {dstAddr : List Char}
      (hpc : c.handlers[h]? = some (.replying dstAddr dstPort)) {draw : Draw}
      (hsel : c.selectPath draw = none) (last : Draw) :
      Steps p c (.replied h true draw last) (c.finish p h last)
  | connects {h dstPort : Nat} {dstAddr : List Char}
      (hpc : c.handlers[h]? = some (.replying dstAddr dstPort)) {draw : Draw} {ip : String}
      {pathId : Nat} (hsel : c.selectPath draw = some (ip, pathId)) (last : Draw) :
      Steps p c (.replied h true draw last)
        (c.sendFrame p h (connectPayload (c.sessionId h) dstPort dstAddr) pathId ip draw.nowUs
          .connecting last)
  | endOfStream {h : Nat} (hpc : c.handlers[h]? = some .reading) (draw last : Draw) :
      Steps p c (.received h [] draw last) (c.finish p h last)
  | chunkUnsent {h : Nat} (hpc : c.handlers[h]? = some .reading) {data : Bytes}
      (hdata : data ≠ []) {draw : Draw}
      (hsel : { c with chunks := c.chunks ++ [(h, data)] }.selectPath draw = none)
      (last : Draw) :
      Steps p c (.received h data draw last)
        ({ c with chunks := c.chunks ++ [(h, data)] }.finish p h last)
  | chunk {h : Nat} (hpc : c.handlers[h]? = some .reading) {data : Bytes} (hdata : data ≠ [])
      {draw : Draw} {ip : String} {pathId : Nat}
      (hsel : { c with chunks := c.chunks ++ [(h, data)] }.selectPath draw = some (ip, pathId))
      (last : Draw) :
      Steps p c (.received h data draw last)
        ({ c with chunks := c.chunks ++ [(h, data)] }.setHandler h (.pacing data ip pathId))
  | readFails {h : Nat} (hpc : c.handlers[h]? = some .reading) (last : Draw) :
      Steps p c (.readFails h last) (c.finish p h last)
  | paced {h pathId : Nat} {data : Bytes} {ip : String}
      (hpc : c.handlers[h]? = some (.pacing data ip pathId)) (nowUs : Int) (last : Draw) :
      Steps p c (.paced h true nowUs last)
        (c.sendFrame p h (dataPayload (c.sessionId h) data) pathId ip nowUs .sending last)
  | pacingFails {h pathId : Nat} {data : Bytes} {ip : String}
      (hpc : c.handlers[h]? = some (.pacing data ip pathId)) (nowUs : Int) (last : Draw) :
      Steps p c (.paced h false nowUs last) (c.finish p h last)
  | connectSent {h : Nat} (hpc : c.handlers[h]? = some .connecting) (last : Draw) :
      Steps p c (.sent h last) (c.loop p h last)
  | dataSent {h : Nat} (hpc : c.handlers[h]? = some .sending) (last : Draw) :
      Steps p c (.sent h last) (c.loop p h last)
  | closeSent {h : Nat} (hpc : c.handlers[h]? = some .closing) (last : Draw) :
      Steps p c (.sent h last) (c.unregister h)
  | deliver (payload : Bytes) : Steps p c (.deliver payload) (c.handleReorderedServerPacket payload)
  | startWrite {o : Nat} {body : Bytes} {writes : List (Nat × Bytes)}
      (hwrites : c.writes = (o, body) :: writes) (outcome : WriteOutcome) :
      Steps p c (.startWrite outcome) ({ c with writes := writes }.write o body outcome)
  | drained {i o : Nat} (hdraining : c.draining[i]? = some o) :
      Steps p c (.drained i true) { c with draining := c.draining.eraseIdx i }
  | drainFails {i o : Nat} (hdraining : c.draining[i]? = some o) :
      Steps p c (.drained i false) ({ c with draining := c.draining.eraseIdx i }.deactivate o)
  | stop : Steps p c .stop c.stop

/-- **The step function, inverted once**: every invariant goes through these cases. -/
theorem step_cases {p : AetherProtocol} {c c' : AetherVPNClient} {e : Event}
    (hstep : c.step p e = some c') : Steps p c e c' := by
  cases e with
  | accepted dstAddr dstPort => exact Option.some.inj hstep ▸ .accepted dstAddr dstPort
  | replied h ok draw last =>
      unfold AetherVPNClient.step at hstep
      dsimp only at hstep
      split at hstep
      · next hpc =>
          cases ok with
          | false => exact Option.some.inj hstep ▸ .replyFails hpc draw last
          | true =>
              rw [if_pos rfl] at hstep
              split at hstep
              · next hsel => exact Option.some.inj hstep ▸ .connectUnsent hpc hsel last
              · next hsel => exact Option.some.inj hstep ▸ .connects hpc hsel last
      · cases hstep
  | received h data draw last =>
      unfold AetherVPNClient.step at hstep
      dsimp only at hstep
      split at hstep
      · next hpc =>
          split_ifs at hstep with hdata
          · subst hdata
            exact Option.some.inj hstep ▸ .endOfStream hpc draw last
          · split at hstep
            · next hsel => exact Option.some.inj hstep ▸ .chunkUnsent hpc hdata hsel last
            · next hsel => exact Option.some.inj hstep ▸ .chunk hpc hdata hsel last
      · cases hstep
  | readFails h last =>
      unfold AetherVPNClient.step at hstep
      dsimp only at hstep
      split at hstep
      · next hpc => exact Option.some.inj hstep ▸ .readFails hpc last
      · cases hstep
  | paced h ok nowUs last =>
      unfold AetherVPNClient.step at hstep
      dsimp only at hstep
      split at hstep
      · next hpc =>
          cases ok with
          | false => exact Option.some.inj hstep ▸ .pacingFails hpc nowUs last
          | true => exact Option.some.inj hstep ▸ .paced hpc nowUs last
      · cases hstep
  | sent h last =>
      unfold AetherVPNClient.step at hstep
      dsimp only at hstep
      split at hstep
      · next hpc => exact Option.some.inj hstep ▸ .connectSent hpc last
      · next hpc => exact Option.some.inj hstep ▸ .dataSent hpc last
      · next hpc => exact Option.some.inj hstep ▸ .closeSent hpc last
      · cases hstep
  | deliver payload => exact Option.some.inj hstep ▸ .deliver payload
  | startWrite outcome =>
      unfold AetherVPNClient.step at hstep
      dsimp only at hstep
      split at hstep
      · cases hstep
      · next hwrites => exact Option.some.inj hstep ▸ .startWrite hwrites outcome
  | drained i ok =>
      unfold AetherVPNClient.step at hstep
      dsimp only at hstep
      split at hstep
      · cases hstep
      · next hdraining =>
          cases ok with
          | true => exact Option.some.inj hstep ▸ .drained hdraining
          | false => exact Option.some.inj hstep ▸ .drainFails hdraining
  | stop => exact Option.some.inj hstep ▸ .stop

end AetherVPNClient

end AetherBond.Client
