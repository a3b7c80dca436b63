import AetherBond.Client.Socks
import AetherBond.Client.VpnDownlink
import AetherBond.Client.VpnUplink

set_option autoImplicit false

/-! # The end of a local session

The handler of a local connection ends in its `finally` clause. Before the session is registered
that clause closes the writer and has nothing else to do. After that it first draws a link for a
CLOSE frame, looks its path up and sends the frame, and each of these can raise: then the session
stays in the dictionary and the writer stays open.

`exit` is the client as a handler finds it when it comes to the clause. In every run every handler
that has ended has cleaned up, if and only if at each of these moments the CLOSE frame could go
out, or the session had been closed already, by the server or by `stop` (`run_cleanedUp_iff`).
-/

namespace AetherBond.Client

open AetherBond.Lib AetherBond.Common

namespace AetherVPNClient

variable {p : AetherProtocol} {c c' c₁ c₂ : AetherVPNClient} {h o : Nat} {pc : HandlerPc}
  {draw last : Draw}

/-- The session of handler `h` is not in the dictionary, and its writer is closed. -/
def Gone (c : AetherVPNClient) (h : Nat) : Prop :=
  ∃ s ∈ c.objects[h]?, c.sessions.get? s.sessionId = none ∧ s.writerClosed = true

instance (c : AetherVPNClient) (h : Nat) : Decidable (Gone c h) :=
  inferInstanceAs (Decidable (∃ s ∈ c.objects[h]?, _))

/-- The CLOSE frame of handler `h` is packed and handed to a socket. -/
def closeGoesOut (p : AetherProtocol) (c : AetherVPNClient) (h : Nat) (draw : Draw) : Bool :=
  match c.selectPath draw, closePayload (c.sessionId h) with
  | some (_, pathId), some payload =>
      (p.encryptAndPack payload c.nextSeqOut pathId draw.nowUs).isOk
  | _, _ => false

/-! ## The way to the `finally` clause -/

/-- The head of the relay loop, if the session is not active any more. -/
def loopExit (c : AetherVPNClient) (h : Nat) : Option AetherVPNClient :=
  if c.isActive h then none else some c

/-- A frame that raises, or comes back to the head of a loop that is over. -/
def sendFrameExit (p : AetherProtocol) (c : AetherVPNClient) (h : Nat) (payload : Option Bytes)
    (pathId : Nat) (interfaceIp : String) (nowUs : Int) : Option AetherVPNClient :=
  let (c, result) := c.sendToVps p payload pathId interfaceIp nowUs
  match result with
  | .returns => c.loopExit h
  | .raises => some c
  | .suspends => none

/-- The handler that comes to its `finally` clause in an event, what it draws there, and the client
as it is then. -/
def exit (p : AetherProtocol) (c : AetherVPNClient) : Event → Option (Nat × Draw × AetherVPNClient)
  | .replied h ok draw last =>
      match c.handlers[h]? with
      | some (.replying dstAddr dstPort) =>
          let left :=
            if ok then
              match c.selectPath draw with
              | none => some c
              | some (ip, pathId) =>
                  c.sendFrameExit p h (connectPayload (c.sessionId h) dstPort dstAddr) pathId ip
                    draw.nowUs
            else some c
          left.map fun c => (h, last, c)
      | _ => none
  | .received h data draw last =>
      match c.handlers[h]? with
      | some .reading =>
          if data = [] then some (h, last, c)
          else
            let c := { c with chunks := c.chunks ++ [(h, data)] }
            match c.selectPath draw with
            | none => some (h, last, c)
            | some _ => none
      | _ => none
  | .readFails h last =>
      match c.handlers[h]? with
      | some .reading => some (h, last, c)
      | _ => none
  | .paced h ok nowUs last =>
      match c.handlers[h]? with
      | some (.pacing data ip pathId) =>
          let left :=
            if ok then c.sendFrameExit p h (dataPayload (c.sessionId h) data) pathId ip nowUs
            else some c
          left.map fun c => (h, last, c)
      | _ => none
  | .sent h last =>
      match c.handlers[h]? with
      | some .connecting | some .sending => (c.loopExit h).map fun c => (h, last, c)
      | _ => none
  | .accepted _ _ => none
  | .deliver _ => none
  | .startWrite _ => none
  | .drained _ _ => none
  | .stop => none

/-- The two states have the same sessions, and their handlers are at the same places. -/
structure SameSessions (c c' : AetherVPNClient) : Prop where
  sessions : c'.sessions = c.sessions
  objects : c'.objects = c.objects
  handlers : c'.handlers = c.handlers

theorem SameSessions.refl (c : AetherVPNClient) : c.SameSessions c := ⟨rfl, rfl, rfl⟩

theorem SameSessions.trans (h₁ : c.SameSessions c₁) (h₂ : c₁.SameSessions c₂) :
    c.SameSessions c₂ :=
  ⟨h₂.sessions.trans h₁.sessions, h₂.objects.trans h₁.objects, h₂.handlers.trans h₁.handlers⟩

theorem sendToVps_sameSessions (p : AetherProtocol) (c : AetherVPNClient) (payload : Option Bytes)
    (pathId : Nat) (interfaceIp : String) (nowUs : Int) :
    c.SameSessions (c.sendToVps p payload pathId interfaceIp nowUs).1 :=
  have hs := sendToVps_sameLocal p c payload pathId interfaceIp nowUs
  ⟨hs.sessions, hs.objects, hs.handlers⟩

theorem SameSessions.gone_iff (hs : c.SameSessions c') : Gone c' h ↔ Gone c h := by
  unfold Gone
  rw [hs.objects, hs.sessions]

/-- Only the place of the handler changes. -/
theorem gone_setHandler (h' : Nat) : Gone (c.setHandler h' pc) h ↔ Gone c h := Iff.rfl

/-- A step of a handler inside its loop: it is somewhere else, and not at its end. -/
def StaysIn (c : AetherVPNClient) (h : Nat) (c' : AetherVPNClient) : Prop :=
  ∃ c₁ pc, c.SameSessions c₁ ∧ c' = c₁.setHandler h pc ∧ pc ≠ .ended

/-- A step in which handler `h` comes to its `finally` clause. -/
def Leaves (p : AetherProtocol) (c : AetherVPNClient) (h : Nat) (last : Draw)
    (c₁ c' : AetherVPNClient) : Prop :=
  c.SameSessions c₁ ∧ c' = c₁.finish p h last

theorem loop_exit (c : AetherVPNClient) (h : Nat) (last : Draw) :
    (∃ c₁, c.loopExit h = some c₁ ∧ Leaves p c h last c₁ (c.loop p h last)) ∨
      c.loopExit h = none ∧ StaysIn c h (c.loop p h last) := by
  unfold loopExit loop
  by_cases hactive : c.isActive h
  · rw [if_pos hactive, if_pos hactive]
    exact .inr ⟨rfl, c, .reading, .refl c, rfl, by simp⟩
  · rw [if_neg hactive, if_neg hactive]
    exact .inl ⟨c, rfl, .refl c, rfl⟩

theorem sendFrame_exit (c : AetherVPNClient) (h : Nat) (payload : Option Bytes) (pathId : Nat)
    (interfaceIp : String) (nowUs : Int) (hpc : pc ≠ .ended) (last : Draw) :
    (∃ c₁, c.sendFrameExit p h payload pathId interfaceIp nowUs = some c₁ ∧
        Leaves p c h last c₁ (c.sendFrame p h payload pathId interfaceIp nowUs pc last)) ∨
      c.sendFrameExit p h payload pathId interfaceIp nowUs = none ∧
        StaysIn c h (c.sendFrame p h payload pathId interfaceIp nowUs pc last) := by
  have hs := sendToVps_sameSessions p c payload pathId interfaceIp nowUs
  unfold sendFrameExit sendFrame
  dsimp only
  cases (c.sendToVps p payload pathId interfaceIp nowUs).2 with
  | returns =>
      obtain ⟨c₁, heq, hsame, hfinish⟩ | ⟨heq, c₁, pc', hsame, hset, hne⟩ :=
        loop_exit (p := p) (c.sendToVps p payload pathId interfaceIp nowUs).1 h last
      · exact .inl ⟨c₁, heq, hs.trans hsame, hfinish⟩
      · exact .inr ⟨heq, c₁, pc', hs.trans hsame, hset, hne⟩
  | raises => exact .inl ⟨_, rfl, hs, rfl⟩
  | suspends => exact .inr ⟨rfl, _, pc, hs, rfl, hpc⟩

/-- What a step does to the handlers. -/
inductive Ending (p : AetherProtocol) (c : AetherVPNClient) (e : Event) (c' : AetherVPNClient) :
    Prop
  /-- One of them comes to its `finally` clause. -/
  | leaves {h : Nat} {last : Draw} {c₁ : AetherVPNClient} {pc : HandlerPc}
      (hpc : c.handlers[h]? = some pc) (hexit : c.exit p e = some (h, last, c₁))
      (hleaves : Leaves p c h last c₁ c')
  | stays {h : Nat} (hexit : c.exit p e = none) (hstays : StaysIn c h c')
  /-- One of them is through with its CLOSE frame. -/
  | unregisters {h : Nat} {pc : HandlerPc} (hexit : c.exit p e = none)
      (hpc : c.handlers[h]? = some pc) (heq : c' = c.unregister h)
  /-- None of them moves. -/
  | waits (hexit : c.exit p e = none) (hhandlers : c'.handlers = c.handlers)
  | accepts (hexit : c.exit p e = none) {dstAddr : List Char} {dstPort : Nat}
      (hhandlers : c'.handlers = c.handlers ++ [.replying dstAddr dstPort])

theorem step_ending {e : Event} (hstep : c.step p e = some c') : Ending p c e c' := by
  cases step_cases hstep with
  | accepted dstAddr dstPort => exact .accepts rfl rfl
  | @replyFails h dstPort dstAddr hpc draw last =>
      exact .leaves hpc (by simp [exit, hpc]) ⟨.refl c, rfl⟩
  | @connectUnsent h dstPort dstAddr hpc draw hsel last =>
      exact .leaves hpc (by simp [exit, hpc, hsel]) ⟨.refl c, rfl⟩
  | @connects h dstPort dstAddr hpc draw ip pathId hsel last =>
      obtain ⟨c₁, heq, hleaves⟩ | ⟨heq, hstays⟩ := sendFrame_exit (p := p) c h
        (connectPayload (c.sessionId h) dstPort dstAddr) pathId ip draw.nowUs
        (show HandlerPc.connecting ≠ .ended by simp) last
      · exact .leaves hpc (by simp [exit, hpc, hsel, heq]) hleaves
      · exact .stays (by simp [exit, hpc, hsel, heq]) hstays
  | @endOfStream h hpc draw last => exact .leaves hpc (by simp [exit, hpc]) ⟨.refl c, rfl⟩
  | @chunkUnsent h hpc data hdata draw hsel last =>
      have hexit : c.exit p (.received h data draw last) =
          some (h, last, { c with chunks := c.chunks ++ [(h, data)] }) := by
        simp only [exit, hpc, if_neg hdata, hsel]
      exact .leaves hpc hexit ⟨⟨rfl, rfl, rfl⟩, rfl⟩
  | @chunk h hpc data hdata draw ip pathId hsel last =>
      have hexit : c.exit p (.received h data draw last) = none := by
        simp only [exit, hpc, if_neg hdata, hsel]
      have hsame : c.SameSessions { c with chunks := c.chunks ++ [(h, data)] } := ⟨rfl, rfl, rfl⟩
      exact .stays hexit ⟨_, .pacing data ip pathId, hsame, rfl, by simp⟩
  | @readFails h hpc last => exact .leaves hpc (by simp [exit, hpc]) ⟨.refl c, rfl⟩
  | @paced h pathId data ip hpc nowUs last =>
      obtain ⟨c₁, heq, hleaves⟩ | ⟨heq, hstays⟩ := sendFrame_exit (p := p) c h
        (dataPayload (c.sessionId h) data) pathId ip nowUs
        (show HandlerPc.sending ≠ .ended by simp) last
      · exact .leaves hpc (by simp [exit, hpc, heq]) hleaves
      · exact .stays (by simp [exit, hpc, heq]) hstays
  | @pacingFails h pathId data ip hpc nowUs last =>
      exact .leaves hpc (by simp [exit, hpc]) ⟨.refl c, rfl⟩
  | @connectSent h hpc last =>
      obtain ⟨c₁, heq, hleaves⟩ | ⟨heq, hstays⟩ := loop_exit (p := p) c h last
      · exact .leaves hpc (by simp [exit, hpc, heq]) hleaves
      · exact .stays (by simp [exit, hpc, heq]) hstays
  | @dataSent h hpc last =>
      obtain ⟨c₁, heq, hleaves⟩ | ⟨heq, hstays⟩ := loop_exit (p := p) c h last
      · exact .leaves hpc (by simp [exit, hpc, heq]) hleaves
      · exact .stays (by simp [exit, hpc, heq]) hstays
  | @closeSent h hpc last => exact .unregisters (by simp [exit, hpc]) hpc rfl
  | deliver payload => exact .waits rfl (deliver_sentSame c payload).handlers
  | startWrite hwrites outcome =>
      exact .waits rfl (step_sentSame hstep (.inr (.inl ⟨_, rfl⟩))).handlers
  | drained => exact .waits rfl rfl
  | drainFails => exact .waits rfl (step_sentSame hstep (.inr (.inr ⟨_, _, rfl⟩))).handlers
  | stop => exact .waits rfl (stop_sentSame c).handlers

/-! ## The `finally` clause -/

theorem finish_of_closeGoesOut (hclose : closeGoesOut p c h draw = true) :
    ∃ c₁, c.SameSessions c₁ ∧ c.finish p h draw = c₁.setHandler h .closing := by
  unfold closeGoesOut at hclose
  split at hclose
  · next ip pathId payload hsel hpayload =>
      have hs := sendToVps_sameSessions p c (some payload) pathId ip draw.nowUs
      refine ⟨_, hs, ?_⟩
      unfold finish sendToVps
      simp only [hsel, hpayload, if_pos (selectPath_mem hsel)]
      cases hpack : p.encryptAndPack payload c.nextSeqOut pathId draw.nowUs with
      | ok packet => rfl
      | error text =>
          rw [hpack] at hclose
          cases hclose
  · cases hclose

/-- Otherwise the handler is at its end at once. -/
theorem finish_of_not_closeGoesOut (hclose : ¬ closeGoesOut p c h draw = true) :
    ∃ c₁, c.SameSessions c₁ ∧ c.finish p h draw = c₁.setHandler h .ended := by
  unfold closeGoesOut at hclose
  unfold finish
  cases hsel : c.selectPath draw with
  | none => exact ⟨c, .refl c, rfl⟩
  | some path =>
      obtain ⟨ip, pathId⟩ := path
      have hs := sendToVps_sameSessions p c (closePayload (c.sessionId h)) pathId ip draw.nowUs
      refine ⟨_, hs, ?_⟩
      unfold sendToVps
      dsimp only
      cases hpayload : closePayload (c.sessionId h) with
      | none => rfl
      | some payload =>
          simp only [hsel, hpayload] at hclose
          simp only [if_pos (selectPath_mem hsel)]
          cases hpack : p.encryptAndPack payload c.nextSeqOut pathId draw.nowUs with
          | ok packet =>
              rw [hpack] at hclose
              exact absurd rfl hclose
          | error text => rfl

/-! ## A session that is gone stays gone -/

/-- No session comes back under a number that was given away, and no writer is opened again. -/
structure Ages (c c' : AetherVPNClient) : Prop where
  next : c.nextSessionId ≤ c'.nextSessionId
  objects : ∀ (o : Nat) (s : VPNClientSession), c.objects[o]? = some s →
    ∃ s' : VPNClientSession, c'.objects[o]? = some s' ∧ s'.sessionId = s.sessionId ∧
      (s.writerClosed = true → s'.writerClosed = true)
  sessions : ∀ k < c.nextSessionId, c.sessions.get? k = none → c'.sessions.get? k = none

theorem Ages.of_eq (hnext : c'.nextSessionId = c.nextSessionId) (hobjects : c'.objects = c.objects)
    (hsessions : c'.sessions = c.sessions) : Ages c c' where
  next := hnext.ge
  objects o s ho := ⟨s, by rw [hobjects, ho], rfl, id⟩
  sessions k _ hk := by rw [hsessions, hk]

theorem Ages.trans (h₁ : Ages c c₁) (h₂ : Ages c₁ c₂) : Ages c c₂ where
  next := h₁.next.trans h₂.next
  objects o s ho := by
    obtain ⟨s₁, ho₁, hid₁, hclosed₁⟩ := h₁.objects o s ho
    obtain ⟨s₂, ho₂, hid₂, hclosed₂⟩ := h₂.objects o s₁ ho₁
    exact ⟨s₂, ho₂, hid₂.trans hid₁, fun h => hclosed₂ (hclosed₁ h)⟩
  sessions k hk hnone := h₂.sessions k (hk.trans_le h₁.next) (h₁.sessions k hk hnone)

/-- Switching an object's flags, but for the writer back to open. -/
theorem ages_setObject {s s' : VPNClientSession} (ho : c.objects[o]? = some s)
    (hid : s'.sessionId = s.sessionId) (hclosed : s.writerClosed = true → s'.writerClosed = true) :
    Ages c { c with objects := c.objects.set o s' } where
  next := le_rfl
  objects u su hu := by
    by_cases huo : u = o
    · subst huo
      obtain rfl : su = s := Option.some.inj (hu.symm.trans ho)
      exact ⟨s', List.getElem?_set_self (List.getElem?_eq_some_iff.mp hu).1, hid, hclosed⟩
    · exact ⟨su, (List.getElem?_set_ne (Ne.symm huo)).trans hu, rfl, id⟩
  sessions _ _ hk := hk

theorem ages_pop (k : Nat) : Ages c { c with sessions := c.sessions.pop k } where
  next := le_rfl
  objects o s ho := ⟨s, ho, rfl, id⟩
  sessions k' _ hk' := by
    show (c.sessions.pop k).get? k' = none
    rw [Dict.get?_pop, hk', ite_self]

theorem ages_closeWriter (o : Nat) (deactivate : Bool) : Ages c (c.closeWriter o deactivate) := by
  unfold closeWriter
  split
  · exact .of_eq rfl rfl rfl
  · next s ho => exact ages_setObject ho rfl fun _ => rfl

theorem ages_deactivate (o : Nat) : Ages c (c.deactivate o) := by
  unfold deactivate
  split
  · exact .of_eq rfl rfl rfl
  · next s ho => exact ages_setObject ho rfl id

theorem ages_unregister (h : Nat) : Ages c (c.unregister h) :=
  ((ages_pop (c.sessionId h)).trans (ages_closeWriter h false)).trans (.of_eq rfl rfl rfl)

theorem ages_stable (p : AetherProtocol) (c₀ : AetherVPNClient) : Stable p (Ages c₀) where
  setHandler hc _ _ := hc.trans (.of_eq rfl rfl rfl)
  chunk _ _ hc := hc.trans (.of_eq rfl rfl rfl)
  send payload pathId interfaceIp nowUs hc _ :=
    have hs := sendToVps_sameLocal p _ payload pathId interfaceIp nowUs
    hc.trans (.of_eq hs.nextSessionId hs.objects hs.sessions)
  unregister hc _ := hc.trans (ages_unregister _)

theorem ages_accepted (s : VPNClientSession) (handlers : List HandlerPc) :
    Ages c { c with
      nextSessionId := c.nextSessionId + 1
      objects := c.objects ++ [s]
      handlers := handlers
      sessions := c.sessions.set c.nextSessionId c.objects.length } where
  next := Nat.le_succ _
  objects o su hu :=
    ⟨su, (List.getElem?_append_left (List.getElem?_eq_some_iff.mp hu).1).trans hu, rfl, id⟩
  sessions k hk hnone := by
    show (c.sessions.set _ _).get? k = none
    rw [Dict.get?_set, if_neg hk.ne, hnone]

theorem ages_deliver (payload : Bytes) : Ages c (c.handleReorderedServerPacket payload) := by
  rcases deliver_cases c payload with ⟨heq, -⟩ | ⟨_, _, _, -, -, heq⟩ | ⟨k, o, _, -, -, heq⟩
  · rw [heq]
    exact .of_eq rfl rfl rfl
  · rw [heq]
    exact .of_eq rfl rfl rfl
  · rw [heq]
    have hlog : Ages c { c with delivered := c.delivered ++ [payload] } := .of_eq rfl rfl rfl
    have hclosed := hlog.trans (ages_closeWriter o true)
    exact ⟨hclosed.next, hclosed.objects, (ages_pop k).sessions⟩

theorem ages_write (o : Nat) (body : Bytes) (outcome : WriteOutcome) :
    Ages c (c.write o body outcome) := by
  have hlogged : ∀ s : VPNClientSession, Ages c
      (if s.writerClosed then c else { c with written := c.written ++ [(o, body)] }) := by
    intro s
    split_ifs <;> exact .of_eq rfl rfl rfl
  unfold write
  split
  · exact .of_eq rfl rfl rfl
  · next s _ =>
      by_cases hactive : s.active
      · rw [if_pos hactive]
        dsimp only
        split
        · exact hlogged s
        · exact (hlogged s).trans (.of_eq rfl rfl rfl)
        · exact (hlogged s).trans (ages_deactivate o)
        · exact ages_deactivate o
      · rw [if_neg hactive]
        exact .of_eq rfl rfl rfl

theorem ages_stop : Ages c c.stop := by
  have hclosed := List.foldlRecOn (motive := Ages c) c.sessions.values _ (.of_eq rfl rfl rfl)
    fun _ h o _ => h.trans (ages_closeWriter o true)
  exact ⟨hclosed.next, hclosed.objects, fun _ _ _ => rfl⟩

/-- **The step lemma** of `Ages`. -/
theorem step_ages {e : Event} (hstep : c.step p e = some c') : Ages c c' := by
  cases step_cases hstep with
  | accepted dstAddr dstPort => exact ages_accepted _ _
  | deliver payload => exact ages_deliver payload
  | @startWrite o body writes hwrites outcome =>
      have hrest : Ages c { c with writes := writes } := .of_eq rfl rfl rfl
      exact hrest.trans (ages_write o body outcome)
  | drained => exact .of_eq rfl rfl rfl
  | @drainFails i o _ =>
      have hrest : Ages c { c with draining := c.draining.eraseIdx i } := .of_eq rfl rfl rfl
      exact hrest.trans (ages_deactivate o)
  | stop => exact ages_stop
  | _ =>
      exact (ages_stable p c).step (.of_eq rfl rfl rfl) hstep (by simp) (by simp) (by simp)
        (by simp) (by simp)

theorem Gone.ages (hgone : Gone c h) (hids : c.Ids) (hages : Ages c c') : Gone c' h := by
  obtain ⟨s, hs, hnone, hclosed⟩ := hgone
  have hs : c.objects[h]? = some s := hs
  obtain ⟨s', hs', hid, hstill⟩ := hages.objects h s hs
  have hlt : s.sessionId < c.nextSessionId := by
    have hlen := (List.getElem?_eq_some_iff.mp hs).1
    rw [hids.id h s hs, hids.next]
    omega
  refine ⟨s', hs', ?_, hstill hclosed⟩
  rw [hid]
  exact hages.sessions _ hlt hnone

/-- The `finally` clause after the CLOSE frame does its work. -/
theorem gone_unregister (hids : c.Ids) (hpc : c.handlers[h]? = some pc) :
    Gone (c.unregister h) h := by
  have hlt : h < c.objects.length := hids.handlers ▸ (List.getElem?_eq_some_iff.mp hpc).1
  have hs := List.getElem?_eq_getElem hlt
  have hobject : (c.unregister h).objects[h]? = some
      { c.objects[h] with active := c.objects[h].active && !false, writerClosed := true } :=
    closeWriter_objects_self (c := { c with sessions := c.sessions.pop (c.sessionId h) }) hs false
  refine ⟨_, hobject, ?_, rfl⟩
  show ((c.unregister h).sessions).get? c.objects[h].sessionId = none
  have hsessions : (c.unregister h).sessions = c.sessions.pop (c.sessionId h) :=
    closeWriter_sessions _ _ _
  have hid : c.sessionId h = c.objects[h].sessionId := by
    unfold sessionId
    rw [hs]
    rfl
  rw [hsessions, hid, Dict.get?_pop, if_pos rfl]

/-! ## Every handler that has ended -/

/-- The handler can clean up: its CLOSE frame goes out, or its session is gone already. -/
def CleansUp (p : AetherProtocol) (c : AetherVPNClient) (h : Nat) (draw : Draw) : Prop :=
  closeGoesOut p c h draw = true ∨ Gone c h

instance (p : AetherProtocol) (c : AetherVPNClient) (h : Nat) (draw : Draw) :
    Decidable (CleansUp p c h draw) := inferInstanceAs (Decidable (_ ∨ _))

/-- All handlers that have ended have cleaned up. -/
def AllGone (c : AetherVPNClient) : Prop := ∀ h, c.handlers[h]? = some .ended → Gone c h

/-- A step that moves handler `h` somewhere else than to its end. -/
theorem AllGone.setHandler (hall : AllGone c) (hids : c.Ids) (hages : Ages c c') {pc' : HandlerPc}
    (hhandlers : c'.handlers = c.handlers.set h pc') (hpc' : pc' ≠ .ended) : AllGone c' := by
  intro h' hended
  rw [hhandlers] at hended
  obtain ⟨heq, -⟩ | ⟨-, hold⟩ := getElem?_set_cases hended
  · exact absurd heq.symm hpc'
  · exact (hall h' hold).ages hids hages

/-- A step that brings handler `h` to its end, with its session gone. -/
theorem AllGone.ended (hall : AllGone c) (hids : c.Ids) (hages : Ages c c')
    (hhandlers : c'.handlers = c.handlers.set h .ended) (hgone : Gone c' h) : AllGone c' := by
  intro h' hended
  rw [hhandlers] at hended
  obtain ⟨-, rfl⟩ | ⟨-, hold⟩ := getElem?_set_cases hended
  · exact hgone
  · exact (hall h' hold).ages hids hages

/-- **Step lemma.** -/
theorem AllGone.step (hall : AllGone c) (hids : c.Ids) {e : Event} (hstep : c.step p e = some c')
    (hcleans : ∀ x ∈ c.exit p e, CleansUp p x.2.2 x.1 x.2.1) : AllGone c' := by
  have hages := step_ages hstep
  cases step_ending hstep with
  | @leaves h last c₁ pc hpc hexit hleaves =>
      obtain ⟨hsame, rfl⟩ := hleaves
      by_cases hclose : closeGoesOut p c₁ h last = true
      · obtain ⟨c₂, hsame₂, heq⟩ := finish_of_closeGoesOut hclose
        refine hall.setHandler (h := h) hids hages ?_ (show HandlerPc.closing ≠ .ended by simp)
        rw [heq]
        show c₂.handlers.set h .closing = _
        rw [hsame₂.handlers, hsame.handlers]
      · obtain ⟨c₂, hsame₂, heq⟩ := finish_of_not_closeGoesOut hclose
        have hgone := (hcleans _ hexit).resolve_left hclose
        refine hall.ended (h := h) hids hages ?_ ?_
        · rw [heq]
          show c₂.handlers.set h .ended = _
          rw [hsame₂.handlers, hsame.handlers]
        · rw [heq, gone_setHandler]
          exact hsame₂.gone_iff.mpr hgone
  | @stays h _ hstays =>
      obtain ⟨c₁, pc, hsame, rfl, hne⟩ := hstays
      exact hall.setHandler hids hages (congrArg (fun l => l.set h pc) hsame.handlers) hne
  | @unregisters h pc _ hpc heq =>
      subst heq
      exact hall.ended hids hages (unregister_moves c h).1 (gone_unregister hids hpc)
  | waits _ hhandlers =>
      intro h' hended
      rw [hhandlers] at hended
      exact (hall h' hended).ages hids hages
  | accepts _ hhandlers =>
      intro h' hended
      rw [hhandlers] at hended
      obtain ⟨heq, -⟩ | hold := getElem?_concat_cases hended
      · cases heq
      · exact (hall h' hold).ages hids hages

/-- A handler that cannot clean up ends all the same. -/
theorem cleansUp_of_step {e : Event} (hstep : c.step p e = some c')
    (hall : AllGone c') {h : Nat} {last : Draw} (hexit : c.exit p e = some (h, last, c₁)) :
    CleansUp p c₁ h last := by
  by_cases hclose : closeGoesOut p c₁ h last = true
  · exact .inl hclose
  refine .inr ?_
  cases step_ending hstep with
  | @leaves h' last' c₁' pc hpc hexit' hleaves =>
      obtain ⟨rfl, hrest⟩ := Prod.mk.inj (Option.some.inj (hexit'.symm.trans hexit))
      obtain ⟨rfl, rfl⟩ := Prod.mk.inj hrest
      obtain ⟨hsame, rfl⟩ := hleaves
      obtain ⟨c₂, hsame₂, heq⟩ := finish_of_not_closeGoesOut hclose
      have hlt : h' < c₂.handlers.length := by
        rw [hsame₂.handlers, hsame.handlers]
        exact (List.getElem?_eq_some_iff.mp hpc).1
      have hended : (c₂.setHandler h' .ended).handlers[h']? = some .ended :=
        List.getElem?_set_self hlt
      rw [heq] at hall
      have hgone : (c₂.setHandler h' .ended).Gone h' := hall h' hended
      exact hsame₂.gone_iff.mp ((gone_setHandler h').mp hgone)
  | stays hnone => cases hnone.symm.trans hexit
  | unregisters hnone => cases hnone.symm.trans hexit
  | waits hnone => cases hnone.symm.trans hexit
  | accepts hnone => cases hnone.symm.trans hexit

end AetherVPNClient

/-! ## Local connections

The handler of a connection is in the handshake first. If that is accepted it goes on as one of
the handlers of the client; otherwise it ends there. -/

inductive ConnectionPc
  | handshaking
  /-- Handler `h` of the client. -/
  | registered (h : Nat)
  | ended
  deriving DecidableEq

/-- A connection, and whether its writer was closed before a session was registered. -/
structure LocalConnection where
  pc : ConnectionPc
  writerClosed : Bool
  deriving DecidableEq

/-- The `finally` clause while `session_id` is 0. -/
def LocalConnection.leave (conn : LocalConnection) : LocalConnection :=
  { conn with pc := .ended, writerClosed := true }

structure LocalSide where
  client : AetherVPNClient
  connections : List LocalConnection

namespace LocalSide

open AetherVPNClient LocalConnection

def start (activeSockets : List String) : LocalSide := ⟨.init activeSockets, []⟩

inductive Event
  /-- An application connects. -/
  | connects
  /-- The handshake is over: what the application sends, and whether an `await` raises. -/
  | handshake (k : Nat) (socks : Bytes) (raises : Bool)
  | client (e : AetherVPNClient.Event)
  deriving DecidableEq

def step (p : AetherProtocol) (s : LocalSide) : Event → Option LocalSide
  | .connects => some { s with connections := s.connections ++ [⟨.handshaking, false⟩] }
  | .handshake k socks raises =>
      match s.connections[k]? with
      | some ⟨.handshaking, writerClosed⟩ =>
          match if raises then .raised else (handshake socks).2 with
          | .accepted dstAddr dstPort _ =>
              (s.client.step p (.accepted dstAddr dstPort)).map fun client =>
                { client := client
                  connections :=
                    s.connections.set k ⟨.registered s.client.handlers.length, writerClosed⟩ }
          -- `writer.close()` before the `return`
          | .refused =>
              some { s with connections := s.connections.set k (leave ⟨.handshaking, true⟩) }
          | .raised =>
              some { s with
                connections := s.connections.set k (leave ⟨.handshaking, writerClosed⟩) }
      | _ => none
  | .client (.accepted _ _) => none
  | .client e => (s.client.step p e).map fun client => { s with client := client }

variable {p : AetherProtocol} {s s' : LocalSide} {es : List Event}

/-- The handlers that have ended: the writer is closed, and no session is left of them. -/
structure CleanedUp (s : LocalSide) : Prop where
  unregistered : ∀ (k : Nat) (conn : LocalConnection), s.connections[k]? = some conn →
    conn.pc = .ended → conn.writerClosed = true
  registered : s.client.AllGone

/-- That is so whenever a handler has ended. -/
def AlwaysCleanedUp (p : AetherProtocol) (activeSockets : List String) (es : List Event) : Prop :=
  ∀ pre s, pre <+: es → runFrom (step p) (start activeSockets) pre = some s → s.CleanedUp

/-- A handler that comes to its `finally` clause can clean up. -/
def MayCleanUp (p : AetherProtocol) (s : LocalSide) : Event → Prop
  | .client e => ∀ x ∈ s.client.exit p e, CleansUp p x.2.2 x.1 x.2.1
  | .connects => True
  | .handshake _ _ _ => True

instance (p : AetherProtocol) (s : LocalSide) : ∀ e, Decidable (MayCleanUp p s e)
  | .client _ => inferInstanceAs (Decidable (∀ x ∈ _, _))
  | .connects => isTrue trivial
  | .handshake _ _ _ => isTrue trivial

/-- A step of the client, or one before a session is registered. -/
inductive Steps (p : AetherProtocol) (s : LocalSide) : Event → LocalSide → Prop
  | connects :
      Steps p s .connects { s with connections := s.connections ++ [⟨.handshaking, false⟩] }
  | accepted {k : Nat} {socks : Bytes} {raises : Bool} {dstAddr : List Char} {dstPort : Nat}
      {client : AetherVPNClient}
      (hclient : s.client.step p (.accepted dstAddr dstPort) = some client)
      (h : Nat) (writerClosed : Bool) :
      Steps p s (.handshake k socks raises)
        ⟨client, s.connections.set k ⟨.registered h, writerClosed⟩⟩
  | leaves (k : Nat) (socks : Bytes) (raises : Bool) :
      Steps p s (.handshake k socks raises)
        { s with connections := s.connections.set k ⟨.ended, true⟩ }
  | client {e : AetherVPNClient.Event} {client : AetherVPNClient}
      (hclient : s.client.step p e = some client) :
      Steps p s (.client e) { s with client := client }

theorem step_cases {e : Event} (hstep : s.step p e = some s') : Steps p s e s' := by
  cases e with
  | connects => exact Option.some.inj hstep ▸ .connects
  | handshake k socks raises =>
      unfold LocalSide.step at hstep
      dsimp only at hstep
      split at hstep
      · split at hstep
        · obtain ⟨client, hclient, rfl⟩ := Option.map_eq_some_iff.mp hstep
          exact .accepted hclient _ _
        · exact Option.some.inj hstep ▸ .leaves k socks raises
        · exact Option.some.inj hstep ▸ .leaves k socks raises
      · cases hstep
  | client e =>
      cases e with
      | accepted dstAddr dstPort => cases hstep
      | _ =>
          unfold LocalSide.step at hstep
          obtain ⟨client, hclient, rfl⟩ := Option.map_eq_some_iff.mp hstep
          exact .client hclient

/-- The invariant. -/
def Clean (s : LocalSide) : Prop := s.client.Ids ∧ s.CleanedUp

theorem start_clean (activeSockets : List String) : (start activeSockets).Clean :=
  ⟨init_ids activeSockets, ⟨fun _ _ hk => (nomatch hk), fun _ hh => nomatch hh⟩⟩

/-- **Step lemma.** -/
theorem Clean.step (h : s.Clean) {e : Event} (hmay : MayCleanUp p s e)
    (hstep : s.step p e = some s') : s'.Clean := by
  obtain ⟨hids, hclean⟩ := h
  cases step_cases hstep with
  | connects =>
      refine ⟨hids, fun k conn hk hended => ?_, hclean.registered⟩
      obtain ⟨rfl, -⟩ | hold := getElem?_concat_cases hk
      · cases hended
      · exact hclean.unregistered k conn hold hended
  | @accepted k _ _ _ _ client hclient h writerClosed =>
      refine ⟨hids.step hclient, fun j conn hj hended => ?_,
        hclean.registered.step hids hclient fun x hx => nomatch hx⟩
      obtain ⟨rfl, -⟩ | ⟨-, hold⟩ := getElem?_set_cases hj
      · cases hended
      · exact hclean.unregistered j conn hold hended
  | leaves k =>
      refine ⟨hids, fun j conn hj hended => ?_, hclean.registered⟩
      obtain ⟨rfl, -⟩ | ⟨-, hold⟩ := getElem?_set_cases hj
      · rfl
      · exact hclean.unregistered j conn hold hended
  | client hclient =>
      exact ⟨hids.step hclient, hclean.unregistered, hclean.registered.step hids hclient hmay⟩

/-- **Whenever a handler has ended its session is gone and its writer closed, exactly if each
handler that comes to its `finally` clause can send its CLOSE frame or is closed already**, in
every run of the client, whatever the applications send and wherever it fails. -/
theorem run_cleanedUp_iff (p : AetherProtocol) (activeSockets : List String) (es : List Event)
    (s : LocalSide) (hrun : runFrom (step p) (start activeSockets) es = some s) :
    AlwaysCleanedUp p activeSockets es ↔
      Along (step p) (MayCleanUp p) (start activeSockets) es := by
  constructor
  · intro halways
    refine along_of_steps hrun fun pre e s₁ s₂ hprefix hpre hstep => ?_
    cases e with
    | connects => trivial
    | handshake k socks raises => trivial
    | client e =>
        rintro ⟨h, last, c₁⟩ hexit
        have hclean := halways _ s₂ hprefix (runFrom_concat hpre hstep)
        cases step_cases hstep with
        | client hclient => exact cleansUp_of_step hclient hclean.registered hexit
  · rintro hmay pre s₁ ⟨post, rfl⟩ hpre
    have hinvariant := runFrom_invariant_along (I := Clean)
      (fun _ _ _ h hG hstep => h.step hG hstep)
      (start_clean activeSockets) (along_append.mp hmay).1 hpre
    exact hinvariant.2

/-- An application connects to port 80 of `a` and ends; the events of its handler. -/
def oneSession (last : Draw) : List Event :=
  [.connects, .handshake 0 [5, 1, 0, 5, 1, 0, 3, 1, 97, 0, 80] false,
    .client (.replied 0 true ⟨some "10.0.0.2", 5⟩ last), .client (.sent 0 last),
    .client (.received 0 [] ⟨none, 0⟩ last)]

/-- The link is up to the end. -/
theorem run_cleanedUp_oneSession :
    AlwaysCleanedUp (.new .checksum [1]) ["10.0.0.2"]
      (oneSession ⟨some "10.0.0.2", 6⟩ ++ [.client (.sent 0 ⟨none, 0⟩)]) := by
  obtain ⟨s, hrun⟩ := Option.isSome_iff_exists.mp
    (show (runFrom (step (.new .checksum [1])) (start ["10.0.0.2"])
      (oneSession ⟨some "10.0.0.2", 6⟩ ++ [.client (.sent 0 ⟨none, 0⟩)])).isSome by decide +kernel)
  exact (run_cleanedUp_iff _ _ _ s hrun).mpr (by decide +kernel)

/-- No link is up any more when the application ends: the session stays, and its writer stays
open. -/
theorem links_down_session_stays :
    ¬ ∀ (p : AetherProtocol) (activeSockets : List String) (es : List Event) (s : LocalSide),
      runFrom (step p) (start activeSockets) es = some s → AlwaysCleanedUp p activeSockets es := by
  intro h
  have hstays : ∀ s ∈ runFrom (step (.new .checksum [1])) (start ["10.0.0.2"])
      (oneSession ⟨none, 6⟩), s.client.handlers[0]? = some .ended ∧ ¬ s.client.Gone 0 := by
    decide +kernel
  obtain ⟨s, hrun⟩ := Option.isSome_iff_exists.mp
    (show (runFrom (step (.new .checksum [1])) (start ["10.0.0.2"])
      (oneSession ⟨none, 6⟩)).isSome by decide +kernel)
  obtain ⟨hended, hnot⟩ := hstays s hrun
  exact hnot ((h _ _ _ s hrun _ s List.prefix_rfl hrun).registered 0 hended)

end LocalSide

end AetherBond.Client
