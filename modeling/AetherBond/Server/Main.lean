import AetherBond.Server.ReceiverSteps
import AetherBond.Server.Router

set_option autoImplicit false

/-! # The server

`AetherServerProtocol` of `aetherbond/server/main.py`, together with the resequencer its router
owns. `datagram_received` notes the sender's address under the path id of the header and
creates a task for `handle_client_packet`; these tasks start in the order of their creation and
run to their end without giving up control.

The address is noted before anything is checked, so even a packet that does not decrypt has an
effect, unless it is too short to have a header or the address was noted already
(`rejected_noEffect_iff`).
-/

namespace AetherBond.Server

open AetherBond.Lib AetherBond.Common

/-! ## The source -/

structure AetherServerProtocol where
  /-- Whether `connection_made` was called. -/
  transport : Bool
  pathAddresses : Dict Nat Addr
  router : Router
  resequencer : ResequencingBuffer (Bytes × Addr × Nat)
  /-- The `handle_client_packet` tasks that have not started. -/
  inbox : List (Bytes × Addr)
  /-- The calls of `transport.sendto`. -/
  transmitted : List (Bytes × Addr)

namespace AetherServerProtocol

/-- `__init__`. -/
def init : AetherServerProtocol where
  transport := false
  pathAddresses := .empty
  router := .init
  resequencer := .init
  inbox := []
  transmitted := []

/-- The path id in the header of a packet. -/
def headerPathId (data : Bytes) : Nat := (unpackHeader (data.take headerSize)).2.2

def datagramReceived (s : AetherServerProtocol) (data : Bytes) (addr : Addr) :
    AetherServerProtocol :=
  { s with
    pathAddresses :=
      if headerSize ≤ data.length then s.pathAddresses.set (headerPathId data) addr
      else s.pathAddresses
    inbox := s.inbox ++ [(data, addr)] }

def sendResponse (s : AetherServerProtocol) (response : Bytes × Addr × Nat) :
    AetherServerProtocol :=
  let (packetBytes, clientAddr, pathId) := response
  if s.transport then
    { s with
      transmitted :=
        s.transmitted ++ [(packetBytes, (s.pathAddresses.get? pathId).getD clientAddr)] }
  else s

/-- The callback the router gives its resequencer. -/
def callback : Callback (Bytes × Addr × Nat) Router :=
  fun packetInfo r => (.ok (), r.handleReorderedPacket packetInfo)

/-- `AetherRouter.handle_client_packet`; an exception is only logged. -/
def handleClientPacket (p : AetherProtocol) (s : AetherServerProtocol) (packetBytes : Bytes)
    (clientAddr : Addr) (nowUs now : Int) : Option AetherServerProtocol :=
  match p.unpackAndDecrypt packetBytes nowUs with
  | .error _ => some s
  | .ok (payload, seq, pathId, _) =>
      (s.resequencer.put callback s.router seq (payload, clientAddr, pathId) now).map fun b =>
        { s with resequencer := b.1, router := b.2 }

/-- The router makes a step; what it answers is sent on. -/
def routerStep (p : AetherProtocol) (s : AetherServerProtocol) (e : Router.Event) :
    Option AetherServerProtocol :=
  (s.router.step p e).map fun r =>
    (r.responses.drop s.router.responses.length).foldl sendResponse { s with router := r }

inductive Event
  | connectionMade
  | datagram (data : Bytes) (addr : Addr)
  /-- The oldest `handle_client_packet` task runs. -/
  | handle (nowUs now : Int)
  /-- The flush task of the resequencer makes a turn. -/
  | flushCheck (task : Nat) (now : Int)
  | router (e : Router.Event)
  deriving DecidableEq

def step (p : AetherProtocol) (s : AetherServerProtocol) : Event → Option AetherServerProtocol
  | .connectionMade => some { s with transport := true }
  | .datagram data addr => some (s.datagramReceived data addr)
  | .handle nowUs now =>
      match s.inbox with
      | [] => none
      | (data, addr) :: inbox => { s with inbox := inbox }.handleClientPacket p data addr nowUs now
  | .flushCheck task now =>
      (ResequencingBuffer.step callback (s.resequencer, s.router) (.flushCheck task now)).map
        fun b => { s with resequencer := b.1, router := b.2 }
  -- the resequencer alone delivers to the router
  | .router (.deliver _) => none
  | .router e => s.routerStep p e

/-! ## What a step reads -/

variable {p : AetherProtocol} {s s' t : AetherServerProtocol} {e : Event} {data : Bytes}
  {addr : Addr}

/-- What `send_response` hands to the transport. -/
def datagramFor (pathAddresses : Dict Nat Addr) (response : Bytes × Addr × Nat) : Bytes × Addr :=
  (response.1, (pathAddresses.get? response.2.2).getD response.2.1)

/-- The packets a list of responses becomes. -/
def sendto (s : AetherServerProtocol) (responses : List (Bytes × Addr × Nat)) :
    List (Bytes × Addr) :=
  if s.transport then responses.map (datagramFor s.pathAddresses) else []

theorem foldl_sendResponse (responses : List (Bytes × Addr × Nat)) (s : AetherServerProtocol) :
    responses.foldl sendResponse s
      = { s with transmitted := s.transmitted ++ s.sendto responses } := by
  unfold sendto
  by_cases ht : s.transport
  · rw [if_pos ht]
    induction responses generalizing s with
    | nil => rw [List.map_nil, List.append_nil]; rfl
    | cons response responses ih =>
        have hsend : s.sendResponse response
            = { s with transmitted := s.transmitted ++ [datagramFor s.pathAddresses response] } :=
          if_pos ht
        rw [List.foldl_cons, hsend, ih]
        · dsimp only
          rw [List.map_cons, List.append_assoc]
          rfl
        · exact ht
  · rw [if_neg ht, List.append_nil]
    induction responses with
    | nil => rfl
    | cons response responses ih =>
        have hsend : s.sendResponse response = s := if_neg ht
        rw [List.foldl_cons, hsend]
        exact ih

/-- The responses a router step has added. -/
def newResponses (s : AetherServerProtocol) (r : Router) : List (Bytes × Addr × Nat) :=
  r.responses.drop s.router.responses.length

/-- **A step of the router** changes the router and sends its new responses. -/
theorem routerStep_eq_some {e : Router.Event} :
    s.routerStep p e = some s' ↔ ∃ r, s.router.step p e = some r ∧
      s' = { s with router := r, transmitted := s.transmitted ++ s.sendto (s.newResponses r) } := by
  unfold routerStep
  constructor
  · intro h
    obtain ⟨r, hr, rfl⟩ := Option.map_eq_some_iff.mp h
    exact ⟨r, hr, foldl_sendResponse _ _⟩
  · rintro ⟨r, hr, rfl⟩
    exact Option.map_eq_some_iff.mpr ⟨r, hr, foldl_sendResponse _ _⟩

/-! ## The inbox

Besides the tasks of `handle_client_packet` themselves, nothing looks at the inbox. -/

/-- What an event puts in the inbox. -/
def Event.arrivals : Event → List (Bytes × Addr)
  | .datagram data addr => [(data, addr)]
  | _ => []

theorem handleClientPacket_setInbox (p : AetherProtocol) (s : AetherServerProtocol) (data : Bytes)
    (addr : Addr) (nowUs now : Int) (inbox : List (Bytes × Addr)) :
    { s with inbox := inbox }.handleClientPacket p data addr nowUs now
      = (s.handleClientPacket p data addr nowUs now).map ({ · with inbox := inbox }) := by
  unfold handleClientPacket
  split
  · rfl
  · rw [Option.map_map]
    rfl

/-- **Every event but `handle`** does the same whatever the inbox holds. -/
theorem step_setInbox (he : ∀ nowUs now, e ≠ .handle nowUs now) (hstep : s.step p e = some s')
    (inbox : List (Bytes × Addr)) :
    s'.inbox = s.inbox ++ e.arrivals ∧
      { s with inbox := inbox }.step p e = some { s' with inbox := inbox ++ e.arrivals } := by
  have hroute : ∀ e : Router.Event, s.routerStep p e = some s' → s'.inbox = s.inbox ∧
      { s with inbox := inbox }.routerStep p e = some { s' with inbox := inbox } := by
    intro e hroute
    obtain ⟨r, hr, rfl⟩ := routerStep_eq_some.mp hroute
    exact ⟨rfl, routerStep_eq_some.mpr ⟨r, hr, rfl⟩⟩
  cases e with
  | connectionMade =>
      obtain rfl := Option.some.inj hstep
      exact ⟨(List.append_nil _).symm, by dsimp only [Event.arrivals]; rw [List.append_nil]; rfl⟩
  | datagram data addr =>
      obtain rfl := Option.some.inj hstep
      exact ⟨rfl, rfl⟩
  | handle nowUs now => exact absurd rfl (he nowUs now)
  | flushCheck task now =>
      obtain ⟨b, hb, rfl⟩ := Option.map_eq_some_iff.mp hstep
      refine ⟨(List.append_nil _).symm, ?_⟩
      dsimp only [Event.arrivals]
      rw [List.append_nil]
      exact Option.map_eq_some_iff.mpr ⟨b, hb, rfl⟩
  | router e =>
      dsimp only [Event.arrivals]
      rw [List.append_nil, List.append_nil]
      cases e with
      | deliver packetInfo => cases hstep
      | _ => exact hroute _ hstep

/-- **What a task does**: it fails, or it puts what its packet holds into the resequencer. -/
theorem handle_cases {nowUs now : Int} (hstep : s.step p (.handle nowUs now) = some s') :
    ∃ data addr inbox, s.inbox = (data, addr) :: inbox ∧
      ((∃ err, p.unpackAndDecrypt data nowUs = .error err ∧ s' = { s with inbox := inbox }) ∨
        ∃ payload seq pathId latency b,
          p.unpackAndDecrypt data nowUs = .ok (payload, seq, pathId, latency) ∧
          s.resequencer.put callback s.router seq (payload, addr, pathId) now = some b ∧
          s' = { s with inbox := inbox, resequencer := b.1, router := b.2 }) := by
  unfold AetherServerProtocol.step at hstep
  dsimp only at hstep
  split at hstep
  · cases hstep
  · next data addr inbox hin =>
      refine ⟨data, addr, inbox, hin, ?_⟩
      unfold handleClientPacket at hstep
      split at hstep
      · next err hfail => exact Or.inl ⟨err, hfail, (Option.some.inj hstep).symm⟩
      · next payload seq pathId latency hok =>
          obtain ⟨b, hput, heq⟩ := Option.map_eq_some_iff.mp hstep
          exact Or.inr ⟨payload, seq, pathId, latency, b, hok, hput, heq.symm⟩

/-- What waits was waiting before or has just arrived. -/
theorem mem_inbox_of_step (hstep : s.step p e = some s') {x : Bytes × Addr} (hx : x ∈ s'.inbox) :
    x ∈ s.inbox ∨ e = .datagram x.1 x.2 := by
  by_cases he : ∃ nowUs now, e = .handle nowUs now
  · obtain ⟨nowUs, now, rfl⟩ := he
    left
    obtain ⟨data, addr, inbox, hin, hcases⟩ := handle_cases hstep
    rw [hin]
    rcases hcases with ⟨_, -, rfl⟩ | ⟨_, _, _, _, b, -, -, rfl⟩
    · exact List.mem_cons_of_mem _ hx
    · exact List.mem_cons_of_mem _ hx
  · obtain ⟨hin, -⟩ := step_setInbox (fun nowUs now heq => he ⟨nowUs, now, heq⟩) hstep []
    rw [hin] at hx
    rcases List.mem_append.mp hx with hx | hx
    · exact Or.inl hx
    · cases e with
      | datagram data addr => exact Or.inr (by rw [List.mem_singleton.mp hx])
      | _ => cases hx

/-- A packet that decrypts has a header, and the path id comes from it. -/
theorem unpackAndDecrypt_ok {nowUs : Int} {payload : Bytes} {seq pathId : Nat} {latency : ℚ}
    (h : p.unpackAndDecrypt data nowUs = .ok (payload, seq, pathId, latency)) :
    headerSize ≤ data.length ∧ pathId = headerPathId data := by
  unfold AetherProtocol.unpackAndDecrypt at h
  split_ifs at h with hlen
  dsimp only at h
  cases hn : packNonce (unpackHeader (data.take headerSize)).1
      (unpackHeader (data.take headerSize)).2.1 with
  | error err =>
      rw [hn] at h
      cases h
  | ok nonce =>
      rw [hn] at h
      dsimp only [Except.bind] at h
      split at h
      · cases h
      · cases h
        exact ⟨not_lt.mp hlen, rfl⟩

/-- A packet that does not decrypt leaves its task no effect. -/
theorem handleClientPacket_rejected {nowUs : Int} {err : ProtocolError}
    (h : p.unpackAndDecrypt data nowUs = .error err) (now : Int) :
    s.handleClientPacket p data addr nowUs now = some s := by
  unfold handleClientPacket
  rw [h]

/-- **What a step does to the resequencer and the router**: nothing; or the resequencer takes a
step, in `put` with the content of the oldest waiting packet; or the router does. -/
theorem step_cases (hstep : s.step p e = some s') :
    (s'.resequencer = s.resequencer ∧ s'.router = s.router) ∨
    (∃ payload seq pathId now, (∃ data addr inbox nowUs latency,
        s.inbox = (data, addr) :: inbox ∧
        p.unpackAndDecrypt data nowUs = .ok (payload, seq, pathId, latency) ∧
        ResequencingBuffer.step callback (s.resequencer, s.router)
          (.put seq (payload, addr, pathId) now) = some (s'.resequencer, s'.router))) ∨
    (∃ task now, e = .flushCheck task now ∧
      ResequencingBuffer.step callback (s.resequencer, s.router) (.flushCheck task now)
        = some (s'.resequencer, s'.router)) ∨
    (∃ e', e = .router e' ∧ (∀ packetInfo, e' ≠ .deliver packetInfo) ∧
      s.router.step p e' = some s'.router ∧ s'.resequencer = s.resequencer) := by
  have hroute : ∀ e' : Router.Event, s.routerStep p e' = some s' →
      s.router.step p e' = some s'.router ∧ s'.resequencer = s.resequencer := by
    intro e' hroute
    obtain ⟨r, hr, rfl⟩ := routerStep_eq_some.mp hroute
    exact ⟨hr, rfl⟩
  cases e with
  | connectionMade =>
      obtain rfl := Option.some.inj hstep
      exact Or.inl ⟨rfl, rfl⟩
  | datagram data addr =>
      obtain rfl := Option.some.inj hstep
      exact Or.inl ⟨rfl, rfl⟩
  | handle nowUs now =>
      obtain ⟨data, addr, inbox, hin, hcases⟩ := handle_cases hstep
      rcases hcases with ⟨_, -, rfl⟩ | ⟨payload, seq, pathId, latency, b, hp, hb, rfl⟩
      · exact Or.inl ⟨rfl, rfl⟩
      · exact Or.inr (Or.inl ⟨payload, seq, pathId, now, data, addr, inbox, nowUs, latency, hin, hp,
          hb⟩)
  | flushCheck task now =>
      obtain ⟨b, hb, rfl⟩ := Option.map_eq_some_iff.mp hstep
      exact Or.inr (Or.inr (Or.inl ⟨task, now, rfl, hb⟩))
  | router e' =>
      refine Or.inr (Or.inr (Or.inr ⟨e', rfl, ?_⟩))
      cases e' with
      -- only the resequencer delivers
      | deliver packetInfo => cases hstep
      | _ => exact ⟨by simp, hroute _ hstep⟩

/-- In every run the resequencer is settled. -/
theorem settled_step (hs : s.resequencer.Settled) (hstep : s.step p e = some s') :
    s'.resequencer.Settled := by
  have hbuffer : ∀ e', ResequencingBuffer.step callback (s.resequencer, s.router) e'
      = some (s'.resequencer, s'.router) → s'.resequencer.Settled := fun _ h =>
    ResequencingBuffer.settled_of_run (s := (s.resequencer, s.router)) hs
      (runFrom_cons_eq_some.mpr ⟨_, h, runFrom_nil _⟩)
  rcases step_cases hstep with ⟨heq, -⟩ | ⟨_, _, _, _, _, _, _, _, _, -, -, hput⟩ |
    ⟨_, _, -, hflush⟩ | ⟨_, -, -, -, heq⟩
  · rwa [heq]
  · exact hbuffer _ hput
  · exact hbuffer _ hflush
  · rwa [heq]

/-- What the resequencer releases is queued in the router. -/
theorem runCallback_callback (run : List (Entry (Bytes × Addr × Nat))) (r : Router) :
    ResequencingBuffer.runCallback callback run r
      = { r with queue := r.queue ++ run.map Entry.payload } := by
  unfold ResequencingBuffer.runCallback
  induction run generalizing r with
  | nil => rw [List.map_nil, List.append_nil]; rfl
  | cons x run ih =>
      rw [List.foldl_cons, ih, List.map_cons]
      show { r with queue := r.queue ++ [x.payload] ++ run.map Entry.payload } = _
      rw [List.append_assoc]
      rfl

/-! ## Unauthenticated datagrams -/

/-- `unpack_and_decrypt` raises on the packet, whatever the clock reads. -/
def Rejects (p : AetherProtocol) (data : Bytes) : Prop :=
  ∀ nowUs, ∃ err, p.unpackAndDecrypt data nowUs = .error err

/-- The clock only enters the latency of an accepted packet. -/
theorem rejects_of_toBool (h : (p.unpackAndDecrypt data 0).toBool = false) : Rejects p data := by
  intro nowUs
  unfold AetherProtocol.unpackAndDecrypt at h ⊢
  split_ifs at h ⊢
  · exact ⟨_, rfl⟩
  · dsimp only at h ⊢
    cases hn : packNonce (unpackHeader (data.take headerSize)).1
        (unpackHeader (data.take headerSize)).2.1 with
    | error err => exact ⟨err, rfl⟩
    | ok nonce =>
        rw [hn] at h
        dsimp only [Except.bind] at h ⊢
        split at h
        · exact ⟨_, rfl⟩
        · cases h

/-- The states differ in one waiting task only, that of the packet `x`, which `s` has. -/
def Waiting (x : Bytes × Addr) (s t : AetherServerProtocol) : Prop :=
  s = { t with inbox := s.inbox } ∧ ∃ l₁ l₂, s.inbox = l₁ ++ x :: l₂ ∧ t.inbox = l₁ ++ l₂

/-- The task of a rejected packet makes the states equal; everything else both do alike. -/
theorem Waiting.step (h : Waiting (data, addr) s t) (hrej : Rejects p data)
    (hstep : s.step p e = some s') :
    (∃ nowUs now, e = .handle nowUs now ∧ s' = t) ∨
      ∃ t', t.step p e = some t' ∧ Waiting (data, addr) s' t' := by
  obtain ⟨heq, l₁, l₂, hs, ht⟩ := h
  by_cases he : ∃ nowUs now, e = .handle nowUs now
  · obtain ⟨nowUs, now, rfl⟩ := he
    unfold AetherServerProtocol.step at hstep
    rw [hs] at hstep
    -- the waiting task runs, or one ahead of it does
    cases l₁ with
    | nil =>
        obtain ⟨err, herr⟩ := hrej nowUs
        have hs' := Option.some.inj ((handleClientPacket_rejected herr now).symm.trans hstep)
        refine Or.inl ⟨nowUs, now, rfl, ?_⟩
        calc s' = { s with inbox := l₂ } := hs'.symm
          _ = { t with inbox := l₂ } := by rw [heq]
          _ = t := by rw [show l₂ = t.inbox from ht.symm]
    | cons y l₁ =>
        right
        unfold AetherServerProtocol.step
        rw [ht]
        dsimp only [List.cons_append] at hstep ⊢
        have hst : { s with inbox := l₁ ++ (data, addr) :: l₂ }
            = { t with inbox := l₁ ++ (data, addr) :: l₂ } := by rw [heq]
        rw [hst, handleClientPacket_setInbox] at hstep
        rw [handleClientPacket_setInbox]
        obtain ⟨u, hu, rfl⟩ := Option.map_eq_some_iff.mp hstep
        exact ⟨_, Option.map_eq_some_iff.mpr ⟨u, hu, rfl⟩, rfl, l₁, l₂, rfl, rfl⟩
  · have hne : ∀ nowUs now, e ≠ .handle nowUs now := fun nowUs now h => he ⟨nowUs, now, h⟩
    obtain ⟨hin, hother⟩ := step_setInbox hne hstep t.inbox
    have hst : { s with inbox := t.inbox } = t := by rw [heq]
    rw [hst] at hother
    refine Or.inr ⟨_, hother, rfl, l₁, l₂ ++ e.arrivals, ?_, ?_⟩
    · rw [hin, hs, List.append_assoc, List.cons_append]
    · dsimp only
      rw [ht, List.append_assoc]

/-- The datagram has no effect in `s`: however the server goes on, it is where it would be
without the datagram, up to the waiting task, and exactly there once the task has run. -/
def NoEffect (p : AetherProtocol) (s : AetherServerProtocol) (data : Bytes) (addr : Addr) :
    Prop :=
  ∀ (es : List Event) (t : AetherServerProtocol),
    runFrom (step p) s (.datagram data addr :: es) = some t →
    (∃ t', runFrom (step p) s es = some t' ∧ Waiting (data, addr) t t') ∨
      ∃ es₁ nowUs now es₂, es = es₁ ++ .handle nowUs now :: es₂ ∧
        runFrom (step p) s (es₁ ++ es₂) = some t

/-- **The run lemma** of `Waiting`. -/
theorem Waiting.run (hrej : Rejects p data) {es : List Event} (h : Waiting (data, addr) s t)
    (hrun : runFrom (AetherServerProtocol.step p) s es = some s') :
    (∃ t', runFrom (AetherServerProtocol.step p) t es = some t' ∧ Waiting (data, addr) s' t') ∨
      ∃ es₁ nowUs now es₂, es = es₁ ++ .handle nowUs now :: es₂ ∧
        runFrom (AetherServerProtocol.step p) t (es₁ ++ es₂) = some s' := by
  induction es generalizing s t with
  | nil =>
      obtain rfl : s = s' := by simpa using hrun
      exact Or.inl ⟨t, rfl, h⟩
  | cons e es ih =>
      obtain ⟨s₁, h₁, hrest⟩ := runFrom_cons_eq_some.mp hrun
      rcases h.step hrej h₁ with ⟨nowUs, now, rfl, rfl⟩ | ⟨t₁, ht₁, hw⟩
      · exact Or.inr ⟨[], nowUs, now, es, rfl, hrest⟩
      · rcases ih hw hrest with ⟨t', hrun', hw'⟩ | ⟨es₁, nowUs, now, es₂, rfl, hrun'⟩
        · exact Or.inl ⟨t', runFrom_cons_eq_some.mpr ⟨t₁, ht₁, hrun'⟩, hw'⟩
        · exact Or.inr ⟨e :: es₁, nowUs, now, es₂, rfl,
            runFrom_cons_eq_some.mpr ⟨t₁, ht₁, hrun'⟩⟩

/-- **When a rejected datagram has no effect**: exactly when it is too short to have a header,
or its sender's address is already the one noted for the path id in its header. -/
theorem rejected_noEffect_iff (p : AetherProtocol) (s : AetherServerProtocol) (data : Bytes)
    (addr : Addr) (hrej : Rejects p data) :
    NoEffect p s data addr ↔
      data.length < headerSize ∨ s.pathAddresses.get? (headerPathId data) = some addr := by
  constructor
  · intro h
    by_contra hno
    push Not at hno
    obtain ⟨hlen, hget⟩ := hno
    rcases h [] _ rfl with ⟨t', hrun, heq, -⟩ | ⟨es₁, nowUs, now, es₂, hes, -⟩
    · obtain rfl : s = t' := by simpa using hrun
      have hpath := congrArg AetherServerProtocol.pathAddresses heq
      unfold datagramReceived at hpath
      dsimp only at hpath
      rw [if_pos hlen] at hpath
      exact hget (Dict.set_eq_self_iff.mp hpath)
    · simp at hes
  · intro h es t hrun
    obtain ⟨s₁, h₁, hrest⟩ := runFrom_cons_eq_some.mp hrun
    refine Waiting.run hrej ⟨?_, s.inbox, [], ?_, (List.append_nil _).symm⟩ hrest
    · obtain rfl := Option.some.inj h₁
      have hpath : (s.datagramReceived data addr).pathAddresses = s.pathAddresses := by
        unfold datagramReceived
        dsimp only
        split_ifs with hlen
        · exact Dict.set_eq_self_iff.mpr (h.resolve_left (not_lt.mpr hlen))
        · rfl
      show s.datagramReceived data addr = { s with inbox := _ }
      rw [← hpath]
      rfl
    · obtain rfl := Option.some.inj h₁
      rfl

/-- Sixteen zero bytes from the address the server already knows for path 0. -/
theorem noEffect_known_address :
    NoEffect (.new .checksum [1]) (init.datagramReceived (List.replicate 16 0) ("192.0.2.1", 9))
      (List.replicate 16 0) ("192.0.2.1", 9) :=
  (rejected_noEffect_iff _ _ _ _ (rejects_of_toBool (by decide +kernel))).mpr
    (Or.inr (by decide +kernel))

/-- A bare header for path 0 from elsewhere: the answer to the client goes there instead. -/
theorem rejected_redirects_response :
    ¬ ∀ (p : AetherProtocol) (s : AetherServerProtocol) (data : Bytes) (addr : Addr),
      Reachable (step p) init s → Rejects p data → NoEffect p s data addr := by
  intro h
  let p : AetherProtocol := .new .checksum [1]
  let packet : Bytes := (p.encryptAndPack (frame 1 7 [1, 0, 80, 97]) 0 0 0).toOption.getD []
  let es : List Event := [.connectionMade, .datagram packet ("192.0.2.1", 9), .handle 0 0,
    .router (.start .done true), .router (.opened 0 true)]
  let forged : Event := .datagram (List.replicate 16 0) ("203.0.113.5", 7)
  let answer : Event := .router (.relayData 1 [104] 0)
  have hwith : (runFrom (step p) init (es ++ [forged, answer])).map
      (fun t => t.transmitted.map Prod.snd) = some [("203.0.113.5", 7)] := by decide +kernel
  have hwithout : (runFrom (step p) init (es ++ [answer])).map
      (fun t => t.transmitted.map Prod.snd) = some [("192.0.2.1", 9)] := by decide +kernel
  obtain ⟨t, ht, hsent⟩ := Option.map_eq_some_iff.mp hwith
  obtain ⟨t', ht', hsent'⟩ := Option.map_eq_some_iff.mp hwithout
  obtain ⟨s, hs, hrun⟩ := runFrom_append_eq_some.mp ht
  obtain ⟨s', hs', hrun'⟩ := runFrom_append_eq_some.mp ht'
  obtain rfl : s = s' := Option.some.inj (hs.symm.trans hs')
  have hrej : Rejects p (List.replicate 16 0) := rejects_of_toBool (by decide +kernel)
  rcases h p s _ _ ⟨es, hs⟩ hrej [answer] t hrun with
    ⟨t'', hrun'', heq, -⟩ | ⟨es₁, nowUs, now, es₂, hes, -⟩
  · obtain rfl : t' = t'' := Option.some.inj (hrun'.symm.trans hrun'')
    rw [heq] at hsent
    have hbad := hsent'.symm.trans hsent
    revert hbad
    decide
  · cases es₁ with
    | nil => simp [answer] at hes
    | cons e es₁ => simp at hes

end AetherServerProtocol

end AetherBond.Server
