import AetherBond.Common.Frame
import AetherBond.Common.Protocol
import AetherBond.Lib.Dict
import AetherBond.Lib.Lock
import AetherBond.Lib.Run
import AetherBond.Lib.Utf8

set_option autoImplicit false

/-! # The router

`AetherRouter` and `UserSpaceSession` of `aetherbond/server/router.py`, with the tasks they
run in. A task is stopped at one of the `await`s that can give up control; `Pc` lists these
points with what the task keeps in its local variables. Between two of them a task runs
alone, so one `Event` is one such stretch of code: which task runs next, what a socket
operation answers and what the clock reads are the event's, and all orders are runs.

Session objects live in `objects` and are named by their index, since the dictionary, the
relay task and suspended tasks keep references to one object. `self._lock` is an
`asyncio.Lock`, first come first served.

The response sender neither suspends nor fails, nor does it touch the router, so its calls are
recorded in `responses` for the server to carry out. Four more fields are history that no
code reads: the payloads whose task has started (`started`), what was written to a
destination (`written`), the objects whose `connect` failed (`failed`) and the calls of
`encrypt_and_pack` (`encryptCalls`).
-/

namespace AetherBond.Server

open AetherBond.Lib AetherBond.Common

/-! ## Payloads -/

/-- A client address as `asyncio` reports it. -/
abbrev Addr := String × Nat

inductive Transport
  | tcp
  | udp
  deriving DecidableEq

/-- What `_process_payload` reads from a payload it does not ignore. -/
inductive Command
  | connect (sessionId : Nat) (protocol : Transport) (port : Nat) (destIp : List Char)
  | data (sessionId : Nat) (body : Bytes)
  | close (sessionId : Nat)
  deriving DecidableEq

def parsePayload (payload : Bytes) : Option Command :=
  match splitFrame payload with
  | none => none
  | some (cmd, sessionId, body) =>
      if cmd = 1 then
        if body.length < 4 then none
        else
          some (.connect sessionId (if body.head? = some 1 then .tcp else .udp)
            (ofBE ((body.drop 1).take 2)) (decodeIgnore (body.drop 3)))
      else if cmd = 2 then some (.data sessionId body)
      else if cmd = 3 then some (.close sessionId)
      else none

/-! ## State -/

/-- `UserSpaceSession`, with the client address and path its `on_data_received` answers to.
The writer or socket is there whenever the session is active. `frame` is history: the number
of payloads started before the CONNECT that made the object. -/
structure UserSpaceSession where
  sessionId : Nat
  destIp : List Char
  destPort : Nat
  protocol : Transport
  clientAddr : Addr
  pathId : Nat
  active : Bool
  relayTask : Option Nat
  frame : Nat
  deriving DecidableEq

/-- Where a task is. -/
inductive Pc
  /-- Returned, or cancelled. -/
  | ended
  /-- CONNECT at `async with self._lock`, with the session it is going to make. -/
  | connectLock (session : UserSpaceSession)
  /-- CONNECT closing the session it replaces. -/
  | connectClose (session : UserSpaceSession)
  /-- CONNECT in `asyncio.open_connection` for the object `o`. -/
  | connectOpen (o : Nat)
  /-- CONNECT after a failed connect, at the lock in `_send_back_to_client`. -/
  | connectFailed (o : Nat)
  /-- DATA in `writer.drain`. -/
  | sendDrain (o : Nat)
  /-- DATA in `loop.sock_sendto`, with the session and the bytes. -/
  | sendTo (o : Nat) (session : UserSpaceSession) (body : Bytes)
  /-- DATA closing its session after a failed send. -/
  | sendClose
  /-- CLOSE at `async with self._lock`. -/
  | closeLock (sessionId : Nat)
  /-- CLOSE closing the session it removed. -/
  | closeClose
  /-- A relay loop at its read. -/
  | relayRead (o : Nat)
  /-- A relay loop at the lock in `_send_back_to_client`. -/
  | relayLock (o : Nat) (data : Bytes)
  /-- `cleanup` at `async with self._lock`. -/
  | cleanupLock
  /-- `cleanup` closing a session, with those still to close. -/
  | cleanupClose (rest : List Nat)
  deriving DecidableEq

/-- In a relay loop. -/
def Pc.relay : Pc → Bool
  | .relayRead _ | .relayLock _ _ => true
  | _ => false

structure Router where
  sessions : Dict Nat Nat
  nextSeqOut : Nat
  lock : FairLock Nat
  objects : List UserSpaceSession
  tasks : List Pc
  /-- The `_process_payload` tasks that have not started, in order of creation. -/
  queue : List (Bytes × Addr × Nat)
  responses : List (Bytes × Addr × Nat)
  started : List Bytes
  written : List (UserSpaceSession × Bytes)
  failed : List Nat
  encryptCalls : List EncryptCall

/-- What a socket send answers: it completes at once, it suspends, or it raises (for a TCP
session, before or after the bytes went to the transport). -/
inductive SendOutcome
  | done
  | suspends
  | fails (written : Bool)
  deriving DecidableEq

namespace Router

/-- `__init__`. -/
def init : Router where
  sessions := .empty
  nextSeqOut := 0
  lock := .free
  objects := []
  tasks := []
  queue := []
  responses := []
  started := []
  written := []
  failed := []
  encryptCalls := []

def setPc (r : Router) (t : Nat) (pc : Pc) : Router := { r with tasks := r.tasks.set t pc }

/-- Task `t` reaches its end inside `async with self._lock`. -/
def leave (r : Router) (t : Nat) : Router := { r.setPc t .ended with lock := r.lock.release }

/-! ## Sessions -/

/-- `task.cancel()` on a relay task, which catches the cancellation and ends: its session is
not active any more. -/
def cancelTask (r : Router) (t : Nat) : Router :=
  match r.tasks[t]? with
  | some (.relayRead _) => r.setPc t .ended
  | some (.relayLock _ _) => { r.setPc t .ended with lock := r.lock.cancel t }
  -- the task has ended already
  | _ => r

/-- `self.active = False` for the object `o`, which is `s`. -/
def deactivate (r : Router) (o : Nat) (s : UserSpaceSession) : Router :=
  { r with objects := r.objects.set o { s with active := false } }

/-- `UserSpaceSession.close`, and whether it suspends in `wait_closed`. -/
def closeSession (r : Router) (o : Nat) : Router × Bool :=
  match r.objects[o]? with
  | none => (r, false)
  | some s =>
      if s.active then
        (s.relayTask.elim (r.deactivate o s) (r.deactivate o s).cancelTask, s.protocol = .tcp)
      else (r, false)

/-- The bytes reach the socket of a session. -/
def write (r : Router) (s : UserSpaceSession) (body : Bytes) : Router :=
  { r with written := r.written ++ [(s, body)] }

/-- `UserSpaceSession.send` in task `t` after the socket raised. -/
def sendFailed (r : Router) (t o : Nat) : Router :=
  let (r, suspends) := r.closeSession o
  r.setPc t (if suspends then .sendClose else .ended)

/-- `UserSpaceSession.send` in task `t`. -/
def send (r : Router) (t o : Nat) (body : Bytes) (outcome : SendOutcome) : Router :=
  match r.objects[o]? with
  | none => r.setPc t .ended
  | some s =>
      if s.active then
        match s.protocol, outcome with
        | _, .done => (r.write s body).setPc t .ended
        -- `writer.write` has taken the bytes before `drain` suspends; `sock_sendto` has not
        | .tcp, .suspends => (r.write s body).setPc t (.sendDrain o)
        | .udp, .suspends => r.setPc t (.sendTo o s body)
        | .tcp, .fails true => (r.write s body).sendFailed t o
        | _, .fails _ => r.sendFailed t o
      else r.setPc t .ended

/-! ## The response direction -/

/-- `_send_back_to_client` in a task that has just acquired the lock, and whether
`encrypt_and_pack` raises. -/
def sendBackToClient (p : AetherProtocol) (r : Router) (sessionId : Nat) (data : Bytes)
    (clientAddr : Addr) (pathId : Nat) (isClose : Bool) (nowUs : Int) : Router × Bool :=
  let payload := frame (if isClose then 3 else 2) sessionId data
  let seq := r.nextSeqOut
  let r := { r with
    nextSeqOut := seq + 1
    lock := r.lock.release
    encryptCalls := r.encryptCalls ++ [⟨payload, seq, pathId, nowUs⟩] }
  -- outside the lock, with the number taken
  match p.encryptAndPack payload seq pathId nowUs with
  | .ok packet => ({ r with responses := r.responses ++ [(packet, clientAddr, pathId)] }, false)
  | .error _ => (r, true)

/-- The `finally` clause of a relay loop. The task cancels itself in `close`, so it ends at
the first `await` in there. -/
def relayEnds (r : Router) (t o : Nat) : Router := ((r.setPc t .ended).closeSession o).1

/-- A relay task with the lock: the response goes out, and the task reads on. -/
def relaySend (p : AetherProtocol) (r : Router) (t o : Nat) (data : Bytes) (nowUs : Int) :
    Router :=
  match r.objects[o]? with
  | none => r.leave t
  | some s =>
      let (r, raised) := (r.setPc t (.relayRead o)).sendBackToClient p s.sessionId data
        s.clientAddr s.pathId false nowUs
      if raised then r.relayEnds t o else r

/-! ## The critical sections of `_process_payload` and `cleanup` -/

def connectSucceeded (r : Router) (t o : Nat) : Router :=
  match r.objects[o]? with
  | none => r.leave t
  | some s =>
      { r with
        objects := r.objects.set o { s with active := true, relayTask := some r.tasks.length }
        tasks := r.tasks ++ [Pc.relayRead o] }.leave t

/-- `connect` returned `False`: `_send_back_to_client` acquires the lock. -/
def connectFails (r : Router) (t o : Nat) : Router :=
  { r.setPc t (.connectFailed o) with
    lock := r.lock.acquire t
    failed := r.failed ++ [o] }

/-- The rest of the failure branch, if the lock is acquired. -/
def connectFailedRest (p : AetherProtocol) (r : Router) (t o : Nat) (nowUs : Int) : Router :=
  match r.objects[o]? with
  | none => r.leave t
  | some s =>
      let (r, raised) := r.sendBackToClient p s.sessionId [] s.clientAddr s.pathId true nowUs
      if raised then r.leave t
      else { r with sessions := r.sessions.pop s.sessionId }.leave t

/-- CONNECT from the construction of the session on. -/
def makeSession (r : Router) (t : Nat) (session : UserSpaceSession) (udpOk : Bool) : Router :=
  let o := r.objects.length
  let r := { r with
    objects := r.objects ++ [session]
    sessions := r.sessions.set session.sessionId o }
  match session.protocol with
  | .tcp => r.setPc t (.connectOpen o)
  -- a UDP socket is made without an `await`
  | .udp => if udpOk then r.connectSucceeded t o else r.connectFails t o

/-- CONNECT from the acquired lock on. -/
def connect (r : Router) (t : Nat) (session : UserSpaceSession) (udpOk : Bool) : Router :=
  match r.sessions.get? session.sessionId with
  | none => r.makeSession t session udpOk
  | some o =>
      let (r, suspends) := r.closeSession o
      if suspends then r.setPc t (.connectClose session) else r.makeSession t session udpOk

/-- CLOSE from the acquired lock on. -/
def close (r : Router) (t sessionId : Nat) : Router :=
  match r.sessions.get? sessionId with
  | none => r.leave t
  | some o =>
      let (r, suspends) := { r with sessions := r.sessions.pop sessionId }.closeSession o
      if suspends then r.setPc t .closeClose else r.leave t

/-- The loop of `cleanup` over the sessions still to close. -/
def cleanupLoop (r : Router) (t : Nat) : List Nat → Router
  | [] => { r with sessions := .empty }.leave t
  | o :: rest =>
      let (r, suspends) := r.closeSession o
      if suspends then r.setPc t (.cleanupClose rest) else r.cleanupLoop t rest

/-! ## Tasks and events -/

/-- A task at the lock goes on with it. -/
def enter (p : AetherProtocol) (r : Router) (t : Nat) (udpOk : Bool) (nowUs : Int) :
    Option Router :=
  match r.tasks[t]? with
  | some (.connectLock session) => some (r.connect t session udpOk)
  | some (.connectFailed o) => some (r.connectFailedRest p t o nowUs)
  | some (.closeLock sessionId) => some (r.close t sessionId)
  | some (.relayLock o data) => some (r.relaySend p t o data nowUs)
  | some .cleanupLock => some (r.cleanupLoop t r.sessions.values)
  | _ => none

/-- Task `t` reaches `async with self._lock` at `pc`, and goes on if the lock is free. -/
def acquireLock (p : AetherProtocol) (r : Router) (t : Nat) (pc : Pc) (udpOk : Bool)
    (nowUs : Int) : Router :=
  let r := { r.setPc t pc with lock := r.lock.acquire t }
  if r.lock.owner = some t then (r.enter p t udpOk nowUs).getD r else r

/-- `_handle_reordered_packet`: the task it creates is queued. -/
def handleReorderedPacket (r : Router) (packetInfo : Bytes × Addr × Nat) : Router :=
  { r with queue := r.queue ++ [packetInfo] }

/-- `_process_payload` in the new task `t`, up to the first `await` that suspends. -/
def processPayload (p : AetherProtocol) (r : Router) (t : Nat) (packetInfo : Bytes × Addr × Nat)
    (outcome : SendOutcome) (udpOk : Bool) : Router :=
  match parsePayload packetInfo.1 with
  | none => r
  | some (.connect sessionId protocol port destIp) =>
      r.acquireLock p t (.connectLock
        { sessionId := sessionId
          destIp := destIp
          destPort := port
          protocol := protocol
          clientAddr := packetInfo.2.1
          pathId := packetInfo.2.2
          active := false
          relayTask := none
          frame := r.started.length }) udpOk 0
  -- DATA alone does not take the lock
  | some (.data sessionId body) =>
      match r.sessions.get? sessionId with
      | none => r
      | some o => r.send t o body outcome
  | some (.close sessionId) => r.acquireLock p t (.closeLock sessionId) udpOk 0

inductive Event
  /-- The resequencer delivers a payload. -/
  | deliver (packetInfo : Bytes × Addr × Nat)
  /-- The oldest queued `_process_payload` task starts. -/
  | start (outcome : SendOutcome) (udpOk : Bool)
  /-- A task that was handed the lock goes on. -/
  | resume (t : Nat) (udpOk : Bool) (nowUs : Int)
  /-- `wait_closed` returns in a task. -/
  | closed (t : Nat) (udpOk : Bool)
  /-- `open_connection` returns or raises in a task. -/
  | opened (t : Nat) (ok : Bool)
  /-- A suspended send returns or raises in a task. -/
  | sent (t : Nat) (ok : Bool)
  /-- A relay task reads bytes from its destination. -/
  | relayData (t : Nat) (data : Bytes) (nowUs : Int)
  /-- The read of a relay task raises. -/
  | relayFails (t : Nat)
  /-- `cleanup` is called. -/
  | cleanup
  deriving DecidableEq

/-- The payload an event delivers. -/
def Event.delivered : Event → List (Bytes × Addr × Nat)
  | .deliver packetInfo => [packetInfo]
  | _ => []

/-- Whether `b''` from a read ends the relay loop of an object: it does for TCP. -/
def endOfStream (r : Router) (o : Nat) (data : Bytes) : Bool :=
  data.isEmpty && (r.objects[o]?.elim true fun s => s.protocol = .tcp)

def step (p : AetherProtocol) (r : Router) : Event → Option Router
  | .deliver packetInfo => some (r.handleReorderedPacket packetInfo)
  | .start outcome udpOk =>
      match r.queue with
      | [] => none
      | packetInfo :: queue =>
          -- the new task may end at once, and ends here if no branch suspends it
          let t := r.tasks.length
          let r' := { r with queue := queue, tasks := r.tasks ++ [Pc.ended] }.processPayload p t
            packetInfo outcome udpOk
          some { r' with started := r.started ++ [packetInfo.1] }
  | .resume t udpOk nowUs =>
      -- an owner that waits for its own lock is never woken
      if r.lock.owner = some t ∧ t ∉ r.lock.waiters then r.enter p t udpOk nowUs else none
  | .closed t udpOk =>
      match r.tasks[t]? with
      | some (.connectClose session) => some (r.makeSession t session udpOk)
      | some .closeClose => some (r.leave t)
      | some .sendClose => some (r.setPc t .ended)
      | some (.cleanupClose rest) => some (r.cleanupLoop t rest)
      | _ => none
  | .opened t ok =>
      match r.tasks[t]? with
      | some (.connectOpen o) => some (if ok then r.connectSucceeded t o else r.connectFails t o)
      | _ => none
  | .sent t ok =>
      match r.tasks[t]? with
      | some (.sendDrain o) => some (if ok then r.setPc t .ended else r.sendFailed t o)
      | some (.sendTo o s body) =>
          some (if ok then (r.write s body).setPc t .ended else r.sendFailed t o)
      | _ => none
  | .relayData t data nowUs =>
      match r.tasks[t]? with
      | some (.relayRead o) =>
          some (if r.endOfStream o data then r.relayEnds t o
            else r.acquireLock p t (.relayLock o data) true nowUs)
      | _ => none
  | .relayFails t =>
      match r.tasks[t]? with
      | some (.relayRead o) => some (r.relayEnds t o)
      | _ => none
  | .cleanup =>
      some ({ r with tasks := r.tasks ++ [Pc.ended] }.acquireLock p r.tasks.length .cleanupLock
        true 0)

/-! ## What a step can do -/

/-- A task at the lock, with its place in the queue. -/
def arrive (r : Router) (t : Nat) (pc : Pc) : Router :=
  { r.setPc t pc with lock := r.lock.acquire t }

/-- What a task does that goes on with the lock. -/
inductive Enters (p : AetherProtocol) (r : Router) (t : Nat) (udpOk : Bool) (nowUs : Int) :
    Router → Prop
  | connect {session : UserSpaceSession} (hpc : r.tasks[t]? = some (.connectLock session)) :
      Enters p r t udpOk nowUs (r.connect t session udpOk)
  | connectFailed {o : Nat} (hpc : r.tasks[t]? = some (.connectFailed o)) :
      Enters p r t udpOk nowUs (r.connectFailedRest p t o nowUs)
  | close {sessionId : Nat} (hpc : r.tasks[t]? = some (.closeLock sessionId)) :
      Enters p r t udpOk nowUs (r.close t sessionId)
  | relay {o : Nat} {data : Bytes} (hpc : r.tasks[t]? = some (.relayLock o data)) :
      Enters p r t udpOk nowUs (r.relaySend p t o data nowUs)
  | cleanup (hpc : r.tasks[t]? = some .cleanupLock) :
      Enters p r t udpOk nowUs (r.cleanupLoop t r.sessions.values)

/-- The steps, by what they find. -/
inductive Steps (p : AetherProtocol) (r : Router) : Event → Router → Prop
  | deliver (packetInfo : Bytes × Addr × Nat) :
      Steps p r (.deliver packetInfo) (r.handleReorderedPacket packetInfo)
  | start {packetInfo : Bytes × Addr × Nat} {queue : List (Bytes × Addr × Nat)}
      (hqueue : r.queue = packetInfo :: queue) (outcome : SendOutcome) (udpOk : Bool) :
      Steps p r (.start outcome udpOk)
        { { r with queue := queue, tasks := r.tasks ++ [Pc.ended] }.processPayload p
            r.tasks.length packetInfo outcome udpOk with
          started := r.started ++ [packetInfo.1] }
  | resume {t : Nat} {udpOk : Bool} {nowUs : Int} {r' : Router} (howner : r.lock.owner = some t)
      (hwaits : t ∉ r.lock.waiters) (henters : Enters p r t udpOk nowUs r') :
      Steps p r (.resume t udpOk nowUs) r'
  | closedConnect {t : Nat} {session : UserSpaceSession}
      (hpc : r.tasks[t]? = some (.connectClose session)) (udpOk : Bool) :
      Steps p r (.closed t udpOk) (r.makeSession t session udpOk)
  | closedClose {t : Nat} (hpc : r.tasks[t]? = some .closeClose) (udpOk : Bool) :
      Steps p r (.closed t udpOk) (r.leave t)
  | closedSend {t : Nat} (hpc : r.tasks[t]? = some .sendClose) (udpOk : Bool) :
      Steps p r (.closed t udpOk) (r.setPc t .ended)
  | closedCleanup {t : Nat} {rest : List Nat} (hpc : r.tasks[t]? = some (.cleanupClose rest))
      (udpOk : Bool) : Steps p r (.closed t udpOk) (r.cleanupLoop t rest)
  | opened {t o : Nat} (hpc : r.tasks[t]? = some (.connectOpen o)) :
      Steps p r (.opened t true) (r.connectSucceeded t o)
  | refused {t o : Nat} (hpc : r.tasks[t]? = some (.connectOpen o)) :
      Steps p r (.opened t false) (r.connectFails t o)
  | drained {t o : Nat} (hpc : r.tasks[t]? = some (.sendDrain o)) :
      Steps p r (.sent t true) (r.setPc t .ended)
  | drainFails {t o : Nat} (hpc : r.tasks[t]? = some (.sendDrain o)) :
      Steps p r (.sent t false) (r.sendFailed t o)
  | sentTo {t o : Nat} {s : UserSpaceSession} {body : Bytes}
      (hpc : r.tasks[t]? = some (.sendTo o s body)) :
      Steps p r (.sent t true) ((r.write s body).setPc t .ended)
  | sendToFails {t o : Nat} {s : UserSpaceSession} {body : Bytes}
      (hpc : r.tasks[t]? = some (.sendTo o s body)) :
      Steps p r (.sent t false) (r.sendFailed t o)
  | relayEof {t o : Nat} {data : Bytes} (hpc : r.tasks[t]? = some (.relayRead o))
      (heos : r.endOfStream o data = true) (nowUs : Int) :
      Steps p r (.relayData t data nowUs) (r.relayEnds t o)
  | relayChunk {t o : Nat} {data : Bytes} (hpc : r.tasks[t]? = some (.relayRead o))
      (heos : r.endOfStream o data = false) (nowUs : Int) :
      Steps p r (.relayData t data nowUs) (r.acquireLock p t (.relayLock o data) true nowUs)
  | relayFails {t o : Nat} (hpc : r.tasks[t]? = some (.relayRead o)) :
      Steps p r (.relayFails t) (r.relayEnds t o)
  | cleanup :
      Steps p r .cleanup ({ r with tasks := r.tasks ++ [Pc.ended] }.acquireLock p r.tasks.length
        .cleanupLock true 0)

variable {p : AetherProtocol} {r r' : Router} {t : Nat} {pc : Pc}

theorem enter_cases {udpOk : Bool} {nowUs : Int} (hent : r.enter p t udpOk nowUs = some r') :
    Enters p r t udpOk nowUs r' := by
  unfold Router.enter at hent
  split at hent
  · next hpc => exact Option.some.inj hent ▸ .connect hpc
  · next hpc => exact Option.some.inj hent ▸ .connectFailed hpc
  · next hpc => exact Option.some.inj hent ▸ .close hpc
  · next hpc => exact Option.some.inj hent ▸ .relay hpc
  · next hpc => exact Option.some.inj hent ▸ .cleanup hpc
  · cases hent

/-- A relay task with the lock has only its response to send. -/
theorem Enters.relay_eq {udpOk : Bool} {nowUs : Int} {o : Nat} {data : Bytes}
    (henters : Enters p r t udpOk nowUs r') (hpc : r.tasks[t]? = some (.relayLock o data)) :
    r' = r.relaySend p t o data nowUs := by
  cases henters with
  | connect hpc' => cases hpc'.symm.trans hpc
  | connectFailed hpc' => cases hpc'.symm.trans hpc
  | close hpc' => cases hpc'.symm.trans hpc
  | relay hpc' =>
      obtain ⟨rfl, rfl⟩ := Pc.relayLock.inj (Option.some.inj (hpc'.symm.trans hpc))
      rfl
  | cleanup hpc' => cases hpc'.symm.trans hpc

/-- **The step function, inverted once**: every invariant goes through these cases. -/
theorem step_cases {e : Event} (hstep : r.step p e = some r') : Steps p r e r' := by
  cases e with
  | deliver packetInfo => exact Option.some.inj hstep ▸ .deliver packetInfo
  | start outcome udpOk =>
      unfold Router.step at hstep
      dsimp only at hstep
      split at hstep
      · cases hstep
      · next hqueue => exact Option.some.inj hstep ▸ .start hqueue outcome udpOk
  | resume t udpOk nowUs =>
      unfold Router.step at hstep
      dsimp only at hstep
      split_ifs at hstep with hgo
      exact .resume hgo.1 hgo.2 (enter_cases hstep)
  | closed t udpOk =>
      unfold Router.step at hstep
      dsimp only at hstep
      split at hstep
      · next hpc => exact Option.some.inj hstep ▸ .closedConnect hpc udpOk
      · next hpc => exact Option.some.inj hstep ▸ .closedClose hpc udpOk
      · next hpc => exact Option.some.inj hstep ▸ .closedSend hpc udpOk
      · next hpc => exact Option.some.inj hstep ▸ .closedCleanup hpc udpOk
      · cases hstep
  | opened t ok =>
      unfold Router.step at hstep
      dsimp only at hstep
      split at hstep
      · next hpc =>
          cases ok with
          | true => exact Option.some.inj hstep ▸ .opened hpc
          | false => exact Option.some.inj hstep ▸ .refused hpc
      · cases hstep
  | sent t ok =>
      unfold Router.step at hstep
      dsimp only at hstep
      split at hstep
      · next hpc =>
          cases ok with
          | true => exact Option.some.inj hstep ▸ .drained hpc
          | false => exact Option.some.inj hstep ▸ .drainFails hpc
      · next hpc =>
          cases ok with
          | true => exact Option.some.inj hstep ▸ .sentTo hpc
          | false => exact Option.some.inj hstep ▸ .sendToFails hpc
      · cases hstep
  | relayData t data nowUs =>
      unfold Router.step at hstep
      dsimp only at hstep
      split at hstep
      · next o hpc =>
          cases heos : r.endOfStream o data with
          | true =>
              rw [if_pos heos] at hstep
              exact Option.some.inj hstep ▸ .relayEof hpc heos nowUs
          | false =>
              rw [if_neg (by rw [heos]; exact Bool.false_ne_true)] at hstep
              exact Option.some.inj hstep ▸ .relayChunk hpc heos nowUs
      · cases hstep
  | relayFails t =>
      unfold Router.step at hstep
      dsimp only at hstep
      split at hstep
      · next hpc => exact Option.some.inj hstep ▸ .relayFails hpc
      · cases hstep
  | cleanup => exact Option.some.inj hstep ▸ .cleanup

/-- A task that comes to the lock while another task has it waits. -/
theorem acquireLock_of_held {r : Router} {t u : Nat} (h : r.lock.owner = some t) (hne : t ≠ u)
    (pc : Pc) (udpOk : Bool) (nowUs : Int) :
    r.acquireLock p u pc udpOk nowUs = r.arrive u pc := by
  have hheld : r.lock.owner ≠ none := by
    rw [h]
    simp
  have howner : (r.lock.acquire u).owner ≠ some u := by
    rw [(FairLock.acquire_of_held hheld u).1, h]
    exact fun heq => hne (Option.some.inj heq)
  unfold acquireLock
  exact if_neg howner

/-- A task that comes to the lock has its place in the queue, or goes on at once. -/
theorem acquireLock_cases (r : Router) (t : Nat) (pc : Pc) (udpOk : Bool) (nowUs : Int) :
    r.acquireLock p t pc udpOk nowUs = r.arrive t pc ∨
      (r.arrive t pc).lock.owner = some t ∧
        Enters p (r.arrive t pc) t udpOk nowUs (r.acquireLock p t pc udpOk nowUs) := by
  unfold acquireLock
  dsimp only
  split_ifs with howner
  · cases hent : (r.arrive t pc).enter p t udpOk nowUs with
    | none => exact .inl (congrArg (Option.getD · (r.arrive t pc)) hent)
    | some r₁ =>
        have heq : ((r.arrive t pc).enter p t udpOk nowUs).getD (r.arrive t pc) = r₁ := by
          rw [hent]
          rfl
        exact .inr ⟨howner, heq ▸ enter_cases hent⟩
  · exact .inl rfl

/-! ## Other tasks -/

/-- Cancelling a relay task does not touch another task. -/
theorem cancelTask_tasks (hpc : r.tasks[t]? = some pc) (hrelay : ¬ pc.relay) (u : Nat) :
    (r.cancelTask u).tasks[t]? = some pc := by
  have hne : ∀ {pcu : Pc}, r.tasks[u]? = some pcu → pcu.relay → t ≠ u := by
    rintro pcu hpcu hr rfl
    exact hrelay (Option.some.inj (hpcu.symm.trans hpc) ▸ hr)
  unfold Router.cancelTask
  split
  · next hpcu => exact (List.getElem?_set_ne (hne hpcu rfl).symm).trans hpc
  · next hpcu => exact (List.getElem?_set_ne (hne hpcu rfl).symm).trans hpc
  · exact hpc

/-- `close` changes nothing, or deactivates the session and cancels its relay task. -/
theorem closeSession_cases (r : Router) (o : Nat) :
    r.closeSession o = (r, false) ∨ ∃ s, r.objects[o]? = some s ∧ s.active ∧
      ((r.closeSession o).1 = r.deactivate o s ∨
        ∃ u, (r.closeSession o).1 = (r.deactivate o s).cancelTask u) := by
  unfold Router.closeSession
  split
  · exact Or.inl rfl
  · next s hs =>
      by_cases hact : s.active
      · rw [if_pos hact]
        refine Or.inr ⟨s, hs, hact, ?_⟩
        cases s.relayTask with
        | none => exact Or.inl rfl
        | some u => exact Or.inr ⟨u, rfl⟩
      · rw [if_neg hact]
        exact Or.inl rfl

/-- Closing a session touches no task but a relay loop. -/
theorem closeSession_tasks (hpc : r.tasks[t]? = some pc) (hrelay : ¬ pc.relay) (o : Nat) :
    (r.closeSession o).1.tasks[t]? = some pc := by
  rcases closeSession_cases r o with heq | ⟨s, -, -, heq | ⟨u, heq⟩⟩ <;> rw [heq]
  · exact hpc
  · exact hpc
  · exact cancelTask_tasks (r := r.deactivate o s) hpc hrelay u

/-- Closing a session edits its object, the tasks and the lock, and nothing else. -/
theorem closeSession_frame (r : Router) (o : Nat) : ∃ objects tasks lock,
    (r.closeSession o).1 = { r with objects := objects, tasks := tasks, lock := lock } := by
  have hcancel : ∀ (r : Router) (u : Nat), ∃ tasks lock,
      r.cancelTask u = { r with tasks := tasks, lock := lock } := by
    intro r u
    unfold Router.cancelTask
    split <;> exact ⟨_, _, rfl⟩
  rcases closeSession_cases r o with heq | ⟨s, -, -, heq | ⟨u, heq⟩⟩
  · exact ⟨r.objects, r.tasks, r.lock, by rw [heq]⟩
  · exact ⟨_, r.tasks, r.lock, heq⟩
  · obtain ⟨tasks, lock, hcancelled⟩ := hcancel (r.deactivate o s) u
    exact ⟨_, tasks, lock, heq.trans hcancelled⟩

/-- A response takes a number and gives the lock up; that it raises shows in `responses` alone. -/
theorem sendBackToClient_frame (r : Router) (sessionId : Nat) (data : Bytes) (clientAddr : Addr)
    (pathId : Nat) (isClose : Bool) (nowUs : Int) : ∃ responses,
    (r.sendBackToClient p sessionId data clientAddr pathId isClose nowUs).1 = { r with
      nextSeqOut := r.nextSeqOut + 1
      lock := r.lock.release
      responses := responses
      encryptCalls := r.encryptCalls ++
        [⟨frame (if isClose then 3 else 2) sessionId data, r.nextSeqOut, pathId, nowUs⟩] } := by
  unfold sendBackToClient
  dsimp only
  split <;> exact ⟨_, rfl⟩

end Router

end AetherBond.Server
