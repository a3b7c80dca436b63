import AetherBond.Client.VpnUplink

set_option autoImplicit false

/-! # The frames of one session, in order

A handler gives its frames to `encrypt_and_pack` one after the other: CONNECT, the DATA frames, and
CLOSE (`InOrder`). Where the handler is says how far it has come (`Sent`); `Turn` is what one
stretch of its code adds to the calls, and `Phase.step` is the step lemma.
-/

namespace AetherBond.Client

open AetherBond.Lib AetherBond.Common

/-- The command of a frame for session `k`. -/
def commandFor (k : Nat) (payload : Bytes) : Option UInt8 :=
  match splitFrame payload with
  | none => none
  | some (command, sessionId, _) => if sessionId = k then some command else none

/-- CONNECT, then DATA, then CLOSE; a handler that leaves before its CONNECT sends no DATA. -/
def InOrder (commands : List UInt8) : Prop :=
  ∃ connect n close, commands = connect ++ List.replicate n 2 ++ close ∧
    (connect = [1] ∨ connect = [] ∧ n = 0) ∧ (close = [] ∨ close = [3])

/-- The commands a handler has sent when it is at `pc`. -/
def HandlerPc.Sent (commands : List UInt8) : HandlerPc → Prop
  | .replying _ _ => commands = []
  | .connecting => commands = [1]
  | .reading | .pacing _ _ _ | .sending => ∃ n, commands = 1 :: List.replicate n 2
  | .closing | .ended => InOrder commands

variable {commands : List UInt8} {k : Nat}

theorem InOrder.nothing : InOrder [] := ⟨[], 0, [], rfl, .inr ⟨rfl, rfl⟩, .inl rfl⟩

/-- A session that has not sent its CLOSE may send it. -/
theorem HandlerPc.Sent.close {pc : HandlerPc} (h : pc.Sent commands) (hstay : ¬ pc.leaving)
    {close : List UInt8} (hclose : close = [] ∨ close = [3]) : InOrder (commands ++ close) := by
  have hrelay : ∀ n, commands = 1 :: List.replicate n 2 → InOrder (commands ++ close) := by
    rintro n rfl
    exact ⟨[1], n, close, rfl, .inl rfl, hclose⟩
  cases pc with
  | replying dstAddr dstPort =>
      rw [show commands = [] from h]
      exact ⟨[], 0, close, rfl, .inr ⟨rfl, rfl⟩, hclose⟩
  -- CONNECT, and no DATA yet
  | connecting => exact hrelay 0 h
  | reading => exact h.elim hrelay
  | pacing data ip pathId => exact h.elim hrelay
  | sending => exact h.elim hrelay
  | closing => exact absurd rfl hstay
  | ended => exact absurd rfl hstay

theorem HandlerPc.Sent.inOrder {pc : HandlerPc} (h : pc.Sent commands) : InOrder commands := by
  by_cases hstay : pc.leaving
  · cases pc with
    | closing => exact h
    | ended => exact h
    | _ => cases hstay
  · have hnone := h.close hstay (.inl rfl)
    rwa [List.append_nil] at hnone

theorem HandlerPc.sent_of_leaving {pc : HandlerPc} (hl : pc.leaving) (h : InOrder commands) :
    pc.Sent commands := by
  cases pc with
  | closing => exact h
  | ended => exact h
  | _ => cases hl

/-- A frame belongs to the session whose id is packed into it. -/
theorem commandFor_packFrame {command : UInt8} {sessionId : Nat} {body payload : Bytes}
    (hpack : packFrame command sessionId body = some payload) :
    commandFor k payload = if sessionId = k then some command else none := by
  unfold packFrame at hpack
  split_ifs at hpack with hlt
  obtain rfl := Option.some.inj hpack
  unfold commandFor
  rw [splitFrame_frame body hlt]

namespace AetherVPNClient

variable {p : AetherProtocol} {c c' : AetherVPNClient} {h h' : Nat} {pc pc' : HandlerPc}
  {new : List Bytes}

/-- The commands of the frames for session `k` that were given to `encrypt_and_pack`. -/
def commandsFor (k : Nat) (c : AetherVPNClient) : List UInt8 :=
  c.encryptCalls.filterMap fun call => commandFor k call.payload

/-! ## The turns of a handler -/

/-- Handler `h` moves to `pc'` and gives `new` to `encrypt_and_pack` on the way. -/
structure Turn (c c' : AetherVPNClient) (h : Nat) (pc' : HandlerPc) (new : List Bytes) : Prop where
  handlers : c'.handlers = c.handlers.set h pc'
  payloads : c'.encryptCalls.map EncryptCall.payload = c.encryptCalls.map EncryptCall.payload ++ new

theorem Turn.commandsFor (ht : Turn c c' h pc' new) (k : Nat) :
    commandsFor k c' = AetherVPNClient.commandsFor k c ++ new.filterMap (commandFor k) := by
  have hmap : ∀ c : AetherVPNClient, AetherVPNClient.commandsFor k c =
      (c.encryptCalls.map EncryptCall.payload).filterMap (commandFor k) := by
    intro c
    rw [List.filterMap_map]
    rfl
  rw [hmap, hmap, ht.payloads, List.filterMap_append]

/-- What is given to `encrypt_and_pack` for a payload. -/
theorem sendToVps_payloads (c : AetherVPNClient) (payload : Option Bytes) (pathId : Nat)
    (interfaceIp : String) (nowUs : Int) :
    ∃ new, (c.sendToVps p payload pathId interfaceIp nowUs).1.encryptCalls.map EncryptCall.payload =
        c.encryptCalls.map EncryptCall.payload ++ new ∧ (new = [] ∨ payload.toList = new) ∧
      ((c.sendToVps p payload pathId interfaceIp nowUs).2 = .suspends →
        ∃ x, payload = some x ∧ new = [x]) ∧
      ((c.sendToVps p payload pathId interfaceIp nowUs).2 = .returns →
        new = [] ∧ interfaceIp ∉ c.activeSockets) := by
  unfold sendToVps
  cases payload with
  | none => exact ⟨[], (List.append_nil _).symm, .inl rfl, by simp, by simp⟩
  | some x =>
      dsimp only
      split_ifs with hip
      · refine ⟨[x], ?_, .inr rfl, fun _ => ⟨x, rfl, rfl⟩, ?_⟩
        · split <;> exact List.map_append
        · split <;> simp
      · exact ⟨[], (List.append_nil _).symm, .inl rfl, by simp, fun _ => ⟨rfl, hip⟩⟩

/-- The `finally` clause sends at most the CLOSE frame. -/
theorem finish_turn (c : AetherVPNClient) (h : Nat) (draw : Draw) :
    ∃ pc' new, pc'.leaving ∧ Turn c (c.finish p h draw) h pc' new ∧
      (new = [] ∨ (closePayload (c.sessionId h)).toList = new) := by
  unfold finish
  split
  · exact ⟨.ended, [], rfl, ⟨rfl, (List.append_nil _).symm⟩, .inl rfl⟩
  · next ip pathId _ =>
      obtain ⟨new, hpayloads, hnew, -, -⟩ := sendToVps_payloads (p := p) c
        (closePayload (c.sessionId h)) pathId ip draw.nowUs
      have hhandlers := sendToVps_handlers (p := p) c (closePayload (c.sessionId h)) pathId ip
        draw.nowUs
      dsimp only
      split
      · have hs := closeWriter_sentSame { (c.sendToVps p (closePayload (c.sessionId h)) pathId ip
          draw.nowUs).1 with sessions := (c.sendToVps p (closePayload (c.sessionId h)) pathId ip
          draw.nowUs).1.sessions.pop ((c.sendToVps p (closePayload (c.sessionId h)) pathId ip
          draw.nowUs).1.sessionId h) } h false
        refine ⟨.ended, new, rfl, ⟨?_, ?_⟩, hnew⟩
        · exact congrArg (fun l => l.set h HandlerPc.ended) (hs.handlers.trans hhandlers)
        · exact (congrArg (List.map EncryptCall.payload) hs.encryptCalls).trans hpayloads
      · exact ⟨.ended, new, rfl, ⟨congrArg (fun l => l.set h HandlerPc.ended) hhandlers,
          hpayloads⟩, hnew⟩
      · exact ⟨.closing, new, rfl, ⟨congrArg (fun l => l.set h HandlerPc.closing) hhandlers,
          hpayloads⟩, hnew⟩

theorem loop_turn (c : AetherVPNClient) (h : Nat) (last : Draw) :
    ∃ pc' new, Turn c (c.loop p h last) h pc' new ∧
      (pc' = .reading ∧ new = [] ∨
        pc'.leaving ∧ (new = [] ∨ (closePayload (c.sessionId h)).toList = new)) := by
  unfold loop
  split_ifs
  · exact ⟨.reading, [], ⟨rfl, (List.append_nil _).symm⟩, .inl ⟨rfl, rfl⟩⟩
  · obtain ⟨pc', new, hl, ht, hnew⟩ := finish_turn (p := p) c h last
    exact ⟨pc', new, ht, .inr ⟨hl, hnew⟩⟩

/-- A frame goes out, and the handler moves on, goes back to its loop, or leaves. -/
theorem sendFrame_turn (c : AetherVPNClient) (h : Nat) (payload : Option Bytes) (pathId : Nat)
    (interfaceIp : String) (nowUs : Int) (pc : HandlerPc) (last : Draw) :
    ∃ pc' sent close, Turn c (c.sendFrame p h payload pathId interfaceIp nowUs pc last) h pc'
        (sent ++ close) ∧ (sent = [] ∨ payload.toList = sent) ∧
      (close = [] ∨ (closePayload (c.sessionId h)).toList = close) ∧
      (pc'.leaving ∨ close = [] ∧
        (pc' = pc ∧ (∃ x, payload = some x ∧ sent = [x]) ∨
          pc' = .reading ∧ sent = [] ∧ interfaceIp ∉ c.activeSockets)) := by
  obtain ⟨sent, hpayloads, hsent, hsuspends, hreturns⟩ :=
    sendToVps_payloads (p := p) c payload pathId interfaceIp nowUs
  have hs := sendToVps_sameLocal p c payload pathId interfaceIp nowUs
  have hid : (c.sendToVps p payload pathId interfaceIp nowUs).1.sessionId h = c.sessionId h := by
    unfold sessionId
    rw [hs.objects]
  have hthen : ∀ {c' : AetherVPNClient} {pc' : HandlerPc} {close : List Bytes},
      Turn (c.sendToVps p payload pathId interfaceIp nowUs).1 c' h pc' close →
      Turn c c' h pc' (sent ++ close) := by
    rintro c' pc' close ⟨h₁, h₂⟩
    exact ⟨by rw [h₁, hs.handlers], by rw [h₂, hpayloads, List.append_assoc]⟩
  unfold sendFrame
  dsimp only
  split
  · next heq =>
      obtain ⟨pc', close, ht, ⟨hpc', hnil⟩ | ⟨hl, hclose⟩⟩ := loop_turn (p := p)
        (c.sendToVps p payload pathId interfaceIp nowUs).1 h last
      · obtain ⟨hnone, hip⟩ := hreturns heq
        exact ⟨pc', sent, close, hthen ht, hsent, .inl hnil, .inr ⟨hnil, .inr ⟨hpc', hnone, hip⟩⟩⟩
      · rw [hid] at hclose
        exact ⟨pc', sent, close, hthen ht, hsent, hclose, .inl hl⟩
  · obtain ⟨pc', close, hl, ht, hclose⟩ := finish_turn (p := p)
      (c.sendToVps p payload pathId interfaceIp nowUs).1 h last
    rw [hid] at hclose
    exact ⟨pc', sent, close, hthen ht, hsent, hclose, .inl hl⟩
  · next heq =>
      exact ⟨pc, sent, [], hthen ⟨rfl, (List.append_nil _).symm⟩, hsent, .inl rfl,
        .inr ⟨rfl, .inl ⟨rfl, hsuspends heq⟩⟩⟩

/-! ## The order of the frames -/

/-- Where the handler of session `h + 1` is says what it has sent. -/
structure Phase (h : Nat) (c : AetherVPNClient) : Prop where
  unborn : c.handlers[h]? = none → commandsFor (h + 1) c = []
  sent : ∀ pc, c.handlers[h]? = some pc → pc.Sent (commandsFor (h + 1) c)

theorem init_phase (h : Nat) (activeSockets : List String) : Phase h (init activeSockets) :=
  ⟨fun _ => rfl, fun _ hpc => (nomatch hpc)⟩

theorem Phase.congr (hp : Phase h c) (hs : c.SentSame c') : Phase h c' := by
  have hsame : commandsFor (h + 1) c' = commandsFor (h + 1) c := by
    unfold commandsFor
    rw [hs.encryptCalls]
  constructor
  · rw [hs.handlers, hsame]
    exact hp.unborn
  · rw [hs.handlers, hsame]
    exact hp.sent

theorem Phase.inOrder (hp : Phase h c) : InOrder (commandsFor (h + 1) c) := by
  cases hpc : c.handlers[h]? with
  | none =>
      rw [hp.unborn hpc]
      exact InOrder.nothing
  | some pc => exact (hp.sent pc hpc).inOrder

/-- The frames of one session are none of another's. -/
theorem filterMap_commandFor {command : UInt8} {sessionId : Nat} {body : Bytes}
    (hnew : new = [] ∨ (packFrame command sessionId body).toList = new) (k : Nat) :
    (sessionId ≠ k → new.filterMap (commandFor k) = []) ∧
      (new.filterMap (commandFor k) = [] ∨ new.filterMap (commandFor k) = [command]) := by
  obtain rfl | rfl := hnew
  · exact ⟨fun _ => rfl, .inl rfl⟩
  cases hpack : packFrame command sessionId body with
  | none => exact ⟨fun _ => rfl, .inl rfl⟩
  | some payload =>
      have hcommand := commandFor_packFrame (k := k) hpack
      by_cases hk : sessionId = k
      · rw [if_pos hk] at hcommand
        exact ⟨fun hne => absurd hk hne, .inr (List.filterMap_cons_some hcommand)⟩
      · rw [if_neg hk] at hcommand
        have hnil : [payload].filterMap (commandFor k) = [] := List.filterMap_cons_none hcommand
        exact ⟨fun _ => hnil, .inl hnil⟩

/-- A handler takes a turn: the other sessions do not notice. -/
theorem Phase.turn (hp : Phase h c) (hpc : c.handlers[h']? = some pc)
    (ht : Turn c c' h' pc' new)
    (hother : ∀ k, h' + 1 ≠ k → new.filterMap (commandFor k) = [])
    (hown : pc.Sent (commandsFor (h' + 1) c) →
      pc'.Sent (commandsFor (h' + 1) c ++ new.filterMap (commandFor (h' + 1)))) : Phase h c' := by
  by_cases hh : h' = h
  · subst hh
    obtain ⟨hlt, -⟩ := List.getElem?_eq_some_iff.mp hpc
    have hpc' : c'.handlers[h']? = some pc' := by
      rw [ht.handlers]
      exact List.getElem?_set_self hlt
    refine ⟨fun hnone => (nomatch hpc'.symm.trans hnone), fun pc'' hpc'' => ?_⟩
    obtain rfl : pc' = pc'' := Option.some.inj (hpc'.symm.trans hpc'')
    rw [ht.commandsFor]
    exact hown (hp.sent pc hpc)
  · have hsame : c'.handlers[h]? = c.handlers[h]? := by
      rw [ht.handlers]
      exact List.getElem?_set_ne hh
    have hcommands : commandsFor (h + 1) c' = commandsFor (h + 1) c := by
      rw [ht.commandsFor, hother (h + 1) (by omega), List.append_nil]
    constructor
    · rw [hsame, hcommands]
      exact hp.unborn
    · rw [hsame, hcommands]
      exact hp.sent

/-- A handler leaves without another frame but its CLOSE. -/
theorem Phase.leaves (hp : Phase h c) (hpc : c.handlers[h']? = some pc) (hstay : ¬ pc.leaving)
    (hid : c.sessionId h' = h' + 1) (ht : Turn c c' h' pc' new) (hl : pc'.leaving)
    (hnew : new = [] ∨ (closePayload (c.sessionId h')).toList = new) : Phase h c' := by
  rw [hid] at hnew
  have hclose := filterMap_commandFor hnew
  refine hp.turn hpc ht (fun k hk => (hclose k).1 hk) fun hsent => ?_
  exact HandlerPc.sent_of_leaving hl (hsent.close hstay (hclose _).2)

theorem Phase.finish (hp : Phase h c) (hids : c.Ids) (hpc : c.handlers[h']? = some pc)
    (hstay : ¬ pc.leaving) (draw : Draw) : Phase h (c.finish p h' draw) := by
  obtain ⟨hlt, -⟩ := List.getElem?_eq_some_iff.mp hpc
  obtain ⟨pc', new, hl, ht, hnew⟩ := finish_turn (p := p) c h' draw
  exact hp.leaves hpc hstay (sessionId_eq hids (hids.handlers ▸ hlt)) ht hl hnew

theorem Phase.loop (hp : Phase h c) (hids : c.Ids) (hpc : c.handlers[h']? = some pc)
    (hstay : ¬ pc.leaving) (hrelay : ∀ commands, pc.Sent commands → HandlerPc.reading.Sent commands)
    (last : Draw) : Phase h (c.loop p h' last) := by
  obtain ⟨hlt, -⟩ := List.getElem?_eq_some_iff.mp hpc
  obtain ⟨pc', new, ht, ⟨rfl, rfl⟩ | ⟨hl, hnew⟩⟩ := loop_turn (p := p) c h' last
  · refine hp.turn hpc ht (fun _ _ => rfl) fun hsent => ?_
    rw [List.filterMap_nil, List.append_nil]
    exact hrelay _ hsent
  · exact hp.leaves hpc hstay (sessionId_eq hids (hids.handlers ▸ hlt)) ht hl hnew

/-- A handler sends the frame that is next. -/
theorem Phase.sendFrame (hp : Phase h c) (hids : c.Ids) (hpc : c.handlers[h']? = some pc)
    (hstay : ¬ pc.leaving) {next : HandlerPc} (hstay' : ¬ next.leaving) {command : UInt8}
    (hnext : ∀ commands, pc.Sent commands → next.Sent (commands ++ [command]))
    {interfaceIp : String} (hback : interfaceIp ∈ c.activeSockets ∨
      ∀ commands, pc.Sent commands → HandlerPc.reading.Sent commands)
    (body : Bytes) (pathId : Nat) (nowUs : Int) (last : Draw) :
    Phase h (c.sendFrame p h' (packFrame command (c.sessionId h') body) pathId interfaceIp nowUs
      next last) := by
  obtain ⟨hlt, -⟩ := List.getElem?_eq_some_iff.mp hpc
  obtain ⟨pc', sent, close, ht, hsent, hclose, hmoves⟩ := sendFrame_turn (p := p) c h'
    (packFrame command (c.sessionId h') body) pathId interfaceIp nowUs next last
  rw [sessionId_eq hids (hids.handlers ▸ hlt)] at hsent hclose
  have hsent' := filterMap_commandFor hsent
  have hclose' := filterMap_commandFor hclose
  refine hp.turn hpc ht (fun k hk => ?_) fun hcommands => ?_
  · rw [List.filterMap_append, (hsent' k).1 hk, (hclose' k).1 hk]
    rfl
  rw [List.filterMap_append]
  obtain hl | ⟨rfl, ⟨rfl, x, hx, rfl⟩ | ⟨rfl, rfl, hip⟩⟩ := hmoves
  · -- the handler leaves, after the frame or without it
    refine HandlerPc.sent_of_leaving hl ?_
    obtain hnone | hone := (hsent' (h' + 1)).2
    · rw [hnone, List.nil_append]
      exact hcommands.close hstay (hclose' _).2
    · rw [hone, ← List.append_assoc]
      exact (hnext _ hcommands).close hstay' (hclose' _).2
  · rw [sessionId_eq hids (hids.handlers ▸ hlt)] at hx
    have hcommand := commandFor_packFrame (k := h' + 1) hx
    rw [if_pos rfl] at hcommand
    rw [List.filterMap_cons_some hcommand, List.filterMap_nil, List.append_nil]
    exact hnext _ hcommands
  · rw [List.filterMap_nil, List.append_nil, List.append_nil]
    exact (hback.resolve_left hip) _ hcommands

/-- A DATA frame more. -/
theorem sent_data (data : Bytes) (ip : String) (pathId : Nat) (commands : List UInt8)
    (h : (HandlerPc.pacing data ip pathId).Sent commands) :
    HandlerPc.sending.Sent (commands ++ [2]) := by
  obtain ⟨n, rfl⟩ := h
  exact ⟨n + 1, by rw [List.replicate_succ', List.cons_append]⟩

theorem Phase.accepted (hp : Phase h c) {dstAddr : List Char} {dstPort : Nat}
    (hstep : c.step p (.accepted dstAddr dstPort) = some c') : Phase h c' := by
  obtain rfl := Option.some.inj hstep
  refine ⟨fun hnone => hp.unborn ?_, fun pc hpc => ?_⟩
  · rw [List.getElem?_eq_none_iff, List.length_append] at hnone
    exact List.getElem?_eq_none_iff.mpr (by omega)
  · obtain ⟨rfl, rfl⟩ | hold := getElem?_concat_cases hpc
    -- the new handler is of a session that has sent nothing
    · exact hp.unborn (List.getElem?_eq_none_iff.mpr le_rfl)
    · exact hp.sent pc hold

/-- A chunk is read, and nothing sent. -/
theorem Phase.chunk (hp : Phase h c) (h' : Nat) (data : Bytes) :
    Phase h { c with chunks := c.chunks ++ [(h', data)] } := ⟨hp.unborn, hp.sent⟩

/-- **The step lemma** of `Phase`. -/
theorem Phase.step (hp : Phase h c) (hids : c.Ids) {e : Event} (hstep : c.step p e = some c') :
    Phase h c' := by
  cases step_cases hstep with
  | accepted dstAddr dstPort => exact hp.accepted hstep
  | deliver payload => exact hp.congr (step_sentSame hstep (Or.inl ⟨payload, rfl⟩))
  | startWrite _ outcome =>
      exact hp.congr (step_sentSame hstep (Or.inr (Or.inl ⟨outcome, rfl⟩)))
  | drained => exact hp.congr (step_sentSame hstep (Or.inr (Or.inr ⟨_, true, rfl⟩)))
  | drainFails => exact hp.congr (step_sentSame hstep (Or.inr (Or.inr ⟨_, false, rfl⟩)))
  | stop =>
      exact Phase.congr (c := { c with activeSockets := [] }) ⟨hp.unborn, hp.sent⟩ (stop_sentSame c)
  | replyFails hpc _ last => exact hp.finish hids hpc (by simp [HandlerPc.leaving]) last
  | connectUnsent hpc _ last => exact hp.finish hids hpc (by simp [HandlerPc.leaving]) last
  | connects hpc hsel =>
      refine hp.sendFrame hids hpc (by simp [HandlerPc.leaving]) (by simp [HandlerPc.leaving]) ?_
        (.inl (selectPath_mem hsel)) _ _ _ _
      rintro commands rfl
      exact rfl
  | endOfStream hpc _ last => exact hp.finish hids hpc (by simp [HandlerPc.leaving]) last
  | @chunkUnsent h' hpc data _ _ _ last =>
      exact (hp.chunk h' data).finish ((ids_stable p).chunk h' data hids) hpc
        (by simp [HandlerPc.leaving]) last
  | @chunk h' hpc data _ _ ip pathId _ _ =>
      have ht : Turn { c with chunks := c.chunks ++ [(h', data)] }
          ({ c with chunks := c.chunks ++ [(h', data)] }.setHandler h' (.pacing data ip pathId))
          h' (.pacing data ip pathId) [] :=
        ⟨rfl, (List.append_nil _).symm⟩
      -- the chunk waits for its delay
      refine (hp.chunk h' data).turn hpc ht (fun _ _ => rfl) fun hsent => ?_
      rw [List.filterMap_nil, List.append_nil]
      exact hsent
  | readFails hpc last => exact hp.finish hids hpc (by simp [HandlerPc.leaving]) last
  | @paced h' pathId data ip hpc =>
      exact hp.sendFrame hids hpc (by simp [HandlerPc.leaving]) (by simp [HandlerPc.leaving])
        (sent_data data ip pathId) (.inr fun _ hsent => hsent) _ _ _ _
  | pacingFails hpc _ last => exact hp.finish hids hpc (by simp [HandlerPc.leaving]) last
  | connectSent hpc last =>
      refine hp.loop hids hpc (by simp [HandlerPc.leaving]) ?_ last
      rintro commands rfl
      exact ⟨0, rfl⟩
  | dataSent hpc last =>
      exact hp.loop hids hpc (by simp [HandlerPc.leaving]) (fun _ hsent => hsent) last
  | @closeSent h' hpc =>
      have hs := closeWriter_sentSame { c with sessions := c.sessions.pop (c.sessionId h') } h'
        false
      have ht : Turn c (c.unregister h') h' .ended [] := by
        refine ⟨congrArg (fun l => l.set h' HandlerPc.ended) hs.handlers, ?_⟩
        rw [List.append_nil]
        exact congrArg (List.map EncryptCall.payload) hs.encryptCalls
      -- the CLOSE is out already
      refine hp.turn hpc ht (fun _ _ => rfl) fun hsent => ?_
      rw [List.filterMap_nil, List.append_nil]
      exact hsent

end AetherVPNClient

end AetherBond.Client
