import AetherBond.Client.Vpn

set_option autoImplicit false

/-! # Invariants of the client, once for all handler events

A handler does three things to the client besides moving on: it records a chunk, it sends a
frame (`Framed`), and at its end it removes its session and closes the writer. `Stable` says that a
property is closed under these; then every event of a handler keeps it (`Stable.step`).

The first such property is `Ids`: session ids are the positions of the session objects,
counted from one, so no two sessions ever share an id.
-/

namespace AetherBond.Client

open AetherBond.Lib AetherBond.Common

/-- Past the relay loop: the session is being given up. -/
def HandlerPc.leaving : HandlerPc → Bool
  | .closing | .ended => true
  | _ => false

namespace AetherVPNClient

variable {p : AetherProtocol} {c c' : AetherVPNClient} {h o : Nat} {pc : HandlerPc}

/-- The frames a handler sends; `none` is one that did not pack. -/
inductive Framed : Option Bytes → Prop
  | connect (sessionId dstPort : Nat) (dstAddr : List Char) :
      Framed (connectPayload sessionId dstPort dstAddr)
  | data (sessionId : Nat) (data : Bytes) : Framed (dataPayload sessionId data)
  | close (sessionId : Nat) : Framed (closePayload sessionId)

/-- Closed under what the handlers do. -/
structure Stable (p : AetherProtocol) (I : AetherVPNClient → Prop) : Prop where
  /-- A handler that has not begun to leave moves anywhere; one that has, only to its end. -/
  setHandler : ∀ {c : AetherVPNClient} {h : Nat} {pc pc' : HandlerPc}, I c →
    c.handlers[h]? = some pc → (pc.leaving → pc' = .ended) → I (c.setHandler h pc')
  chunk : ∀ {c : AetherVPNClient} (h : Nat) (data : Bytes), I c →
    I { c with chunks := c.chunks ++ [(h, data)] }
  send : ∀ {c : AetherVPNClient} (payload : Option Bytes) (pathId : Nat) (interfaceIp : String)
    (nowUs : Int), I c → Framed payload → I (c.sendToVps p payload pathId interfaceIp nowUs).1
  unregister : ∀ {c : AetherVPNClient} {h : Nat} {pc : HandlerPc}, I c →
    c.handlers[h]? = some pc → I (c.unregister h)

/-! ## Sending touches nothing else -/

/-- The two states differ at most in the numbering and in what was sent. -/
structure SameLocal (c c' : AetherVPNClient) : Prop where
  nextSessionId : c'.nextSessionId = c.nextSessionId
  sessions : c'.sessions = c.sessions
  activeSockets : c'.activeSockets = c.activeSockets
  objects : c'.objects = c.objects
  handlers : c'.handlers = c.handlers
  writes : c'.writes = c.writes
  chunks : c'.chunks = c.chunks
  delivered : c'.delivered = c.delivered
  written : c'.written = c.written

theorem sendToVps_sameLocal (p : AetherProtocol) (c : AetherVPNClient) (payload : Option Bytes)
    (pathId : Nat) (interfaceIp : String) (nowUs : Int) :
    c.SameLocal (c.sendToVps p payload pathId interfaceIp nowUs).1 := by
  unfold sendToVps
  split
  · exact ⟨rfl, rfl, rfl, rfl, rfl, rfl, rfl, rfl, rfl⟩
  · split_ifs
    · dsimp only
      split <;> exact ⟨rfl, rfl, rfl, rfl, rfl, rfl, rfl, rfl, rfl⟩
    · exact ⟨rfl, rfl, rfl, rfl, rfl, rfl, rfl, rfl, rfl⟩

theorem sendToVps_handlers (c : AetherVPNClient) (payload : Option Bytes) (pathId : Nat)
    (interfaceIp : String) (nowUs : Int) :
    (c.sendToVps p payload pathId interfaceIp nowUs).1.handlers = c.handlers :=
  (sendToVps_sameLocal p c payload pathId interfaceIp nowUs).handlers

/-! ## The events of the handlers -/

namespace Stable

variable {I : AetherVPNClient → Prop} (hI : Stable p I)
include hI

theorem finish (hc : I c) (hpc : c.handlers[h]? = some pc) (hstay : ¬ pc.leaving) (draw : Draw) :
    I (c.finish p h draw) := by
  unfold AetherVPNClient.finish
  split
  · exact hI.setHandler hc hpc fun _ => rfl
  · next ip pathId _ =>
      have hsend := hI.send (closePayload (c.sessionId h)) pathId ip draw.nowUs hc (.close _)
      have hpc' := hpc
      rw [← sendToVps_handlers (p := p) c (closePayload (c.sessionId h)) pathId ip draw.nowUs]
        at hpc'
      dsimp only
      split
      · exact hI.unregister hsend hpc'
      · exact hI.setHandler hsend hpc' fun _ => rfl
      · exact hI.setHandler hsend hpc' fun hl => absurd hl hstay

theorem loop (hc : I c) (hpc : c.handlers[h]? = some pc) (hstay : ¬ pc.leaving) (last : Draw) :
    I (c.loop p h last) := by
  unfold AetherVPNClient.loop
  split_ifs
  · exact hI.setHandler hc hpc fun hl => absurd hl hstay
  · exact hI.finish hc hpc hstay last

theorem sendFrame (hc : I c) (hpc : c.handlers[h]? = some pc) (hstay : ¬ pc.leaving)
    {payload : Option Bytes} (hframe : Framed payload) (pathId : Nat) (interfaceIp : String)
    (nowUs : Int) (pc' : HandlerPc) (last : Draw) :
    I (c.sendFrame p h payload pathId interfaceIp nowUs pc' last) := by
  have hsend := hI.send payload pathId interfaceIp nowUs hc hframe
  have hpc' := hpc
  rw [← sendToVps_handlers (p := p) c payload pathId interfaceIp nowUs] at hpc'
  unfold AetherVPNClient.sendFrame
  dsimp only
  split
  · exact hI.loop hsend hpc' hstay last
  · exact hI.finish hsend hpc' hstay last
  · exact hI.setHandler hsend hpc' fun hl => absurd hl hstay

/-- **The events of the handlers**, given those of the local side. -/
theorem step (hc : I c) {e : Event} (hstep : c.step p e = some c')
    (haccepted : ∀ dstAddr dstPort, e ≠ .accepted dstAddr dstPort)
    (hdeliver : ∀ payload, e ≠ .deliver payload) (hwrite : ∀ outcome, e ≠ .startWrite outcome)
    (hdrained : ∀ i ok, e ≠ .drained i ok) (hstop : e ≠ .stop) : I c' := by
  cases step_cases hstep with
  | accepted dstAddr dstPort => exact absurd rfl (haccepted dstAddr dstPort)
  | deliver payload => exact absurd rfl (hdeliver payload)
  | startWrite _ outcome => exact absurd rfl (hwrite outcome)
  | drained => exact absurd rfl (hdrained _ _)
  | drainFails => exact absurd rfl (hdrained _ _)
  | stop => exact absurd rfl hstop
  | replyFails hpc _ last => exact hI.finish hc hpc (by simp [HandlerPc.leaving]) last
  | connectUnsent hpc _ last => exact hI.finish hc hpc (by simp [HandlerPc.leaving]) last
  | connects hpc _ last =>
      exact hI.sendFrame hc hpc (by simp [HandlerPc.leaving]) (.connect _ _ _) _ _ _ _ last
  | endOfStream hpc _ last => exact hI.finish hc hpc (by simp [HandlerPc.leaving]) last
  | chunkUnsent hpc _ _ last =>
      exact hI.finish (hI.chunk _ _ hc) hpc (by simp [HandlerPc.leaving]) last
  | chunk hpc => exact hI.setHandler (hI.chunk _ _ hc) hpc (by simp [HandlerPc.leaving])
  | readFails hpc last => exact hI.finish hc hpc (by simp [HandlerPc.leaving]) last
  | paced hpc _ last =>
      exact hI.sendFrame hc hpc (by simp [HandlerPc.leaving]) (.data _ _) _ _ _ _ last
  | pacingFails hpc _ last => exact hI.finish hc hpc (by simp [HandlerPc.leaving]) last
  | connectSent hpc last => exact hI.loop hc hpc (by simp [HandlerPc.leaving]) last
  | dataSent hpc last => exact hI.loop hc hpc (by simp [HandlerPc.leaving]) last
  | closeSent hpc => exact hI.unregister hc hpc

end Stable

/-! ## Session ids -/

/-- The object at position `o` has the session id `o + 1`, in the dictionary too. -/
structure Ids (c : AetherVPNClient) : Prop where
  next : c.nextSessionId = c.objects.length + 1
  handlers : c.handlers.length = c.objects.length
  id : ∀ o s, c.objects[o]? = some s → s.sessionId = o + 1
  entry : ∀ k o, c.sessions.get? k = some o → k = o + 1 ∧ o < c.objects.length
  written : ∀ x ∈ c.written, x.1 < c.objects.length
  writes : ∀ x ∈ c.writes, x.1 < c.objects.length

theorem Ids.congr (hids : c.Ids) (hs : c.SameLocal c') : c'.Ids := by
  constructor
  case next =>
    rw [hs.nextSessionId, hs.objects]
    exact hids.next
  case handlers =>
    rw [hs.handlers, hs.objects]
    exact hids.handlers
  case id =>
    rw [hs.objects]
    exact hids.id
  case entry =>
    rw [hs.sessions, hs.objects]
    exact hids.entry
  case written =>
    rw [hs.written, hs.objects]
    exact hids.written
  case writes =>
    rw [hs.writes, hs.objects]
    exact hids.writes

theorem init_ids (activeSockets : List String) : (init activeSockets).Ids := by
  constructor <;> simp [init]

theorem sessionId_eq (hids : c.Ids) (hlt : h < c.objects.length) : c.sessionId h = h + 1 := by
  unfold sessionId
  rw [List.getElem?_eq_getElem hlt]
  exact hids.id h _ (List.getElem?_eq_getElem hlt)

/-- Switching an object's flags keeps the ids. -/
theorem Ids.setObject (hids : c.Ids) {s s' : VPNClientSession} (ho : c.objects[o]? = some s)
    (hs : s'.sessionId = s.sessionId) : Ids { c with objects := c.objects.set o s' } := by
  have hlen : (c.objects.set o s').length = c.objects.length := List.length_set
  constructor
  case next => exact hids.next.trans (by rw [hlen])
  case handlers => exact hids.handlers.trans hlen.symm
  case id =>
    intro u su hu
    by_cases huo : u = o
    · subst huo
      obtain ⟨hlt, heq⟩ := List.getElem?_eq_some_iff.mp hu
      rw [List.getElem_set_self] at heq
      rw [← heq, hs]
      exact hids.id u s ho
    · exact hids.id u su ((List.getElem?_set_ne (Ne.symm huo)).symm.trans hu)
  case entry =>
    intro k u hku
    obtain ⟨hk, hlt⟩ := hids.entry k u hku
    exact ⟨hk, hlt.trans_eq hlen.symm⟩
  case written => exact fun x hx => (hids.written x hx).trans_eq hlen.symm
  case writes => exact fun x hx => (hids.writes x hx).trans_eq hlen.symm

/-- Removing entries keeps the ids. -/
theorem Ids.setSessions (hids : c.Ids) {sessions : Dict Nat Nat}
    (hsub : ∀ k o, sessions.get? k = some o → c.sessions.get? k = some o) :
    Ids { c with sessions := sessions } :=
  ⟨hids.next, hids.handlers, hids.id, fun k o hko => hids.entry k o (hsub k o hko), hids.written,
    hids.writes⟩

/-- Closing a writer changes nothing but the session objects. -/
theorem closeWriter_frame (c : AetherVPNClient) (o : Nat) (deactivate : Bool) :
    ∃ objects, c.closeWriter o deactivate = { c with objects := objects } := by
  unfold closeWriter
  split
  · exact ⟨c.objects, rfl⟩
  · exact ⟨_, rfl⟩

theorem closeWriter_sessions (c : AetherVPNClient) (o : Nat) (deactivate : Bool) :
    (c.closeWriter o deactivate).sessions = c.sessions := by
  obtain ⟨objects, heq⟩ := closeWriter_frame c o deactivate
  rw [heq]

theorem closeWriters_frame (c : AetherVPNClient) (l : List Nat) :
    ∃ objects, l.foldl (fun c o => c.closeWriter o true) c = { c with objects := objects } := by
  refine List.foldlRecOn (motive := fun c' : AetherVPNClient =>
    ∃ objects, c' = { c with objects := objects }) l _ ⟨c.objects, rfl⟩ ?_
  rintro _ ⟨objects, rfl⟩ o -
  exact closeWriter_frame { c with objects := objects } o true

/-- `stop` besides takes away the sessions and the tunnel sockets. -/
theorem stop_frame (c : AetherVPNClient) :
    ∃ objects, c.stop
      = { c with objects := objects, sessions := .empty, activeSockets := [] } := by
  obtain ⟨objects, heq⟩ := closeWriters_frame c c.sessions.values
  refine ⟨objects, ?_⟩
  unfold stop
  rw [heq]

theorem deactivate_frame (c : AetherVPNClient) (o : Nat) :
    ∃ objects, c.deactivate o = { c with objects := objects } := by
  unfold deactivate
  split
  · exact ⟨c.objects, rfl⟩
  · exact ⟨_, rfl⟩

theorem Ids.closeWriter (hids : c.Ids) (o : Nat) (deactivate : Bool) :
    (c.closeWriter o deactivate).Ids := by
  unfold AetherVPNClient.closeWriter
  split
  · exact hids
  · next s ho => exact hids.setObject ho rfl

theorem Ids.deactivate (hids : c.Ids) (o : Nat) : (c.deactivate o).Ids := by
  unfold AetherVPNClient.deactivate
  split
  · exact hids
  · next s ho => exact hids.setObject ho rfl

theorem Ids.setHandler (hids : c.Ids) (h : Nat) (pc : HandlerPc) : (c.setHandler h pc).Ids :=
  ⟨hids.next, List.length_set.trans hids.handlers, hids.id, hids.entry, hids.written,
    hids.writes⟩

theorem Ids.unregister (hids : c.Ids) (h : Nat) : (c.unregister h).Ids :=
  have hpop := hids.setSessions fun _ _ hko => (Dict.get?_of_get?_pop hko).2
  (hpop.closeWriter h false).setHandler h _

theorem ids_stable (p : AetherProtocol) : Stable p Ids where
  setHandler hids _ _ := hids.setHandler _ _
  chunk _ _ hids := ⟨hids.next, hids.handlers, hids.id, hids.entry, hids.written, hids.writes⟩
  send payload pathId interfaceIp nowUs hids _ :=
    hids.congr (sendToVps_sameLocal p _ payload pathId interfaceIp nowUs)
  unregister hids _ := hids.unregister _

theorem Ids.accepted (hids : c.Ids) {dstAddr : List Char} {dstPort : Nat}
    (hstep : c.step p (.accepted dstAddr dstPort) = some c') : c'.Ids := by
  obtain rfl := Option.some.inj hstep
  have hlt : ∀ {n : Nat}, n < c.objects.length → n < (c.objects ++
      [(⟨c.nextSessionId, true, false, c.delivered.length⟩ : VPNClientSession)]).length := by
    intro n hn
    rw [List.length_append]
    omega
  constructor
  case next =>
    rw [List.length_append, List.length_singleton]
    exact congrArg (· + 1) hids.next
  case handlers =>
    rw [List.length_append, List.length_append, hids.handlers]
    rfl
  case id =>
    intro o s ho
    by_cases hold : o < c.objects.length
    · rw [List.getElem?_append_left hold] at ho
      exact hids.id o s ho
    · rw [List.getElem?_append_right (by omega)] at ho
      obtain ⟨hi, hs⟩ := List.getElem?_eq_some_iff.mp ho
      rw [List.length_singleton] at hi
      rw [← hs, List.getElem_singleton]
      show c.nextSessionId = o + 1
      rw [hids.next]
      omega
  case entry =>
    intro k o hko
    obtain ⟨hk, rfl⟩ | ⟨-, hold⟩ := Dict.get?_set_cases hko
    · refine ⟨by rw [hk, hids.next], ?_⟩
      rw [List.length_append, List.length_singleton]
      omega
    · obtain ⟨hk', ho⟩ := hids.entry k o hold
      exact ⟨hk', hlt ho⟩
  case written => exact fun x hx => hlt (hids.written x hx)
  case writes => exact fun x hx => hlt (hids.writes x hx)

theorem Ids.deliver (hids : c.Ids) (payload : Bytes) :
    (c.handleReorderedServerPacket payload).Ids := by
  have hlog : Ids { c with delivered := c.delivered ++ [payload] } :=
    ⟨hids.next, hids.handlers, hids.id, hids.entry, hids.written, hids.writes⟩
  unfold handleReorderedServerPacket
  dsimp only
  split
  · exact hlog
  · next status sessionId body _ =>
      split
      · exact hlog
      · next o ho =>
          split_ifs
          · refine ⟨hids.next, hids.handlers, hids.id, hids.entry, hids.written, fun x hx => ?_⟩
            rcases List.mem_append.mp hx with hx | hx
            · exact hids.writes x hx
            · rw [List.mem_singleton.mp hx]
              exact (hids.entry sessionId o ho).2
          · have hclosed := hlog.closeWriter o true
            refine hclosed.setSessions fun k u hku => ?_
            rw [closeWriter_sessions]
            exact (Dict.get?_of_get?_pop hku).2
          · exact hlog

theorem Ids.write (hids : c.Ids) (hlt : o < c.objects.length) (body : Bytes)
    (outcome : WriteOutcome) : (c.write o body outcome).Ids := by
  have hlogged : ∀ s : VPNClientSession, Ids (if s.writerClosed then c
      else { c with written := c.written ++ [(o, body)] }) := by
    intro s
    split_ifs
    · exact hids
    · refine ⟨hids.next, hids.handlers, hids.id, hids.entry, fun x hx => ?_, hids.writes⟩
      rcases List.mem_append.mp hx with hx | hx
      · exact hids.written x hx
      · rw [List.mem_singleton.mp hx]
        exact hlt
  unfold AetherVPNClient.write
  split
  · exact hids
  · next s _ =>
      have h := hlogged s
      by_cases hs : s.active
      · rw [if_pos hs]
        dsimp only
        split
        · exact h
        · exact ⟨h.next, h.handlers, h.id, h.entry, h.written, h.writes⟩
        · exact h.deactivate o
        · exact hids.deactivate o
      · rw [if_neg hs]
        exact hids

/-- A write task is taken off the queue. -/
theorem Ids.takeWrite (hids : c.Ids) {body : Bytes} {writes : List (Nat × Bytes)}
    (hw : c.writes = (o, body) :: writes) :
    Ids { c with writes := writes } ∧ o < c.objects.length := by
  have hall := hids.writes
  rw [hw] at hall
  exact ⟨⟨hids.next, hids.handlers, hids.id, hids.entry, hids.written,
    fun x hx => hall x (List.mem_cons_of_mem _ hx)⟩, hall (o, body) List.mem_cons_self⟩

theorem Ids.stop (hids : c.Ids) : c.stop.Ids := by
  have h := List.foldlRecOn (motive := Ids) c.sessions.values _ hids
    fun _ h o _ => h.closeWriter o true
  unfold AetherVPNClient.stop
  exact ⟨h.next, h.handlers, h.id, by simp, h.written, h.writes⟩

/-- **The step lemma** of `Ids`. -/
theorem Ids.step (hids : c.Ids) {e : Event} (hstep : c.step p e = some c') : c'.Ids := by
  cases step_cases hstep with
  | accepted dstAddr dstPort => exact hids.accepted hstep
  | deliver payload => exact hids.deliver payload
  | startWrite hwrites outcome =>
      obtain ⟨hrest, hlt⟩ := hids.takeWrite hwrites
      exact hrest.write hlt _ outcome
  | drained =>
      exact ⟨hids.next, hids.handlers, hids.id, hids.entry, hids.written, hids.writes⟩
  | @drainFails i o _ =>
      have hrest : Ids { c with draining := c.draining.eraseIdx i } :=
        ⟨hids.next, hids.handlers, hids.id, hids.entry, hids.written, hids.writes⟩
      exact hrest.deactivate o
  | stop => exact hids.stop
  | _ => exact (ids_stable p).step hids hstep (by simp) (by simp) (by simp) (by simp) (by simp)

end AetherVPNClient

end AetherBond.Client
