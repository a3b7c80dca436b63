import AetherBond.Client.VpnDownlink

set_option autoImplicit false

/-! # What the client sends

Every step gives some frames to `encrypt_and_pack`, with the next numbers, and hands over some
of the packets (`Sends`, `step_sends`). `Numbered`: the calls of `encrypt_and_pack` have the
numbers 0, 1, 2, …, and every datagram is the packet of one of them. `Relaying`: the DATA frames
of a session are, in their order, the first of the chunks its handler has read, all of them as
long as the handler is in its loop and the tunnel sockets are there.
-/

namespace AetherBond.Client

open AetherBond.Lib AetherBond.Common

/-- The chunk a handler has read and not sent yet. -/
def HandlerPc.unsent : HandlerPc → List Bytes
  | .pacing data _ _ => [data]
  | _ => []

namespace AetherVPNClient

variable {p : AetherProtocol} {c c' : AetherVPNClient} {h h' k : Nat} {pc pc' : HandlerPc}

/-! ## The events of the local side -/

/-- The two states have sent the same, and their handlers are at the same places. -/
structure SentSame (c c' : AetherVPNClient) : Prop where
  encryptCalls : c'.encryptCalls = c.encryptCalls
  nextSeqOut : c'.nextSeqOut = c.nextSeqOut
  datagrams : c'.datagrams = c.datagrams
  chunks : c'.chunks = c.chunks
  handlers : c'.handlers = c.handlers
  activeSockets : c'.activeSockets = c.activeSockets

theorem SentSame.refl (c : AetherVPNClient) : c.SentSame c := ⟨rfl, rfl, rfl, rfl, rfl, rfl⟩

theorem SentSame.trans {c₁ c₂ c₃ : AetherVPNClient} (h : c₁.SentSame c₂) (h' : c₂.SentSame c₃) :
    c₁.SentSame c₃ :=
  ⟨h'.encryptCalls.trans h.encryptCalls, h'.nextSeqOut.trans h.nextSeqOut,
    h'.datagrams.trans h.datagrams, h'.chunks.trans h.chunks, h'.handlers.trans h.handlers,
    h'.activeSockets.trans h.activeSockets⟩

theorem closeWriter_sentSame (c : AetherVPNClient) (o : Nat) (deactivate : Bool) :
    c.SentSame (c.closeWriter o deactivate) := by
  obtain ⟨objects, heq⟩ := closeWriter_frame c o deactivate
  rw [heq]
  exact ⟨rfl, rfl, rfl, rfl, rfl, rfl⟩

theorem deactivate_sentSame (c : AetherVPNClient) (o : Nat) : c.SentSame (c.deactivate o) := by
  obtain ⟨objects, heq⟩ := deactivate_frame c o
  rw [heq]
  exact ⟨rfl, rfl, rfl, rfl, rfl, rfl⟩

theorem write_sentSame (c : AetherVPNClient) (o : Nat) (body : Bytes) (outcome : WriteOutcome) :
    c.SentSame (c.write o body outcome) := by
  have hlogged : ∀ s : VPNClientSession, c.SentSame
      (if s.writerClosed then c else { c with written := c.written ++ [(o, body)] }) := by
    intro s
    split_ifs <;> exact ⟨rfl, rfl, rfl, rfl, rfl, rfl⟩
  unfold write
  split
  · exact SentSame.refl c
  · next s _ =>
      have hlog := hlogged s
      by_cases ha : s.active
      · rw [if_pos ha]
        dsimp only
        split
        · exact hlog
        · exact hlog.trans ⟨rfl, rfl, rfl, rfl, rfl, rfl⟩
        · exact hlog.trans (deactivate_sentSame _ o)
        · exact deactivate_sentSame c o
      · rw [if_neg ha]
        exact SentSame.refl c

theorem deliver_sentSame (c : AetherVPNClient) (payload : Bytes) :
    c.SentSame (c.handleReorderedServerPacket payload) := by
  rcases deliver_cases c payload with ⟨heq, -⟩ | ⟨_, _, _, -, -, heq⟩ | ⟨_, o, _, -, -, heq⟩
  · rw [heq]
    exact ⟨rfl, rfl, rfl, rfl, rfl, rfl⟩
  · rw [heq]
    exact ⟨rfl, rfl, rfl, rfl, rfl, rfl⟩
  · rw [heq]
    have hclose := closeWriter_sentSame { c with delivered := c.delivered ++ [payload] } o true
    exact ⟨hclose.encryptCalls, hclose.nextSeqOut, hclose.datagrams, hclose.chunks,
      hclose.handlers, hclose.activeSockets⟩

/-- Deliveries and write tasks send nothing. -/
theorem step_sentSame {e : Event} (hstep : c.step p e = some c')
    (he : (∃ payload, e = .deliver payload) ∨ (∃ outcome, e = .startWrite outcome) ∨
      ∃ i ok, e = .drained i ok) : c.SentSame c' := by
  rcases he with ⟨payload, rfl⟩ | ⟨outcome, rfl⟩ | ⟨i, ok, rfl⟩
  · obtain rfl := Option.some.inj hstep
    exact deliver_sentSame c payload
  · cases step_cases hstep with
    | @startWrite o body writes =>
        have hwrite := write_sentSame { c with writes := writes } o body outcome
        exact ⟨hwrite.encryptCalls, hwrite.nextSeqOut, hwrite.datagrams, hwrite.chunks,
          hwrite.handlers, hwrite.activeSockets⟩
  · cases step_cases hstep with
    | drained => exact ⟨rfl, rfl, rfl, rfl, rfl, rfl⟩
    | @drainFails i o =>
        have hoff := deactivate_sentSame { c with draining := c.draining.eraseIdx i } o
        exact ⟨hoff.encryptCalls, hoff.nextSeqOut, hoff.datagrams, hoff.chunks, hoff.handlers,
          hoff.activeSockets⟩

/-- `stop` takes the tunnel sockets away. -/
theorem stop_sentSame (c : AetherVPNClient) :
    { c with activeSockets := [] }.SentSame c.stop := by
  obtain ⟨objects, heq⟩ := stop_frame c
  rw [heq]
  exact ⟨rfl, rfl, rfl, rfl, rfl, rfl⟩

/-! ## Calls and packets -/

/-- Between two states the frames of `calls` are given to `encrypt_and_pack`, and `packets` are
handed over. -/
structure Sends (p : AetherProtocol) (calls : List EncryptCall) (packets : List Bytes)
    (c c' : AetherVPNClient) : Prop where
  encryptCalls : c'.encryptCalls = c.encryptCalls ++ calls
  datagrams : c'.datagrams = c.datagrams ++ packets
  nextSeqOut : c'.nextSeqOut = c.nextSeqOut + calls.length
  seqs : calls.map EncryptCall.seq = List.range' c.nextSeqOut calls.length
  framed : ∀ call ∈ calls, Framed (some call.payload)
  packed : ∀ packet ∈ packets, ∃ call ∈ calls,
    p.encryptAndPack call.payload call.seq call.pathId call.nowUs = .ok packet

/-- Nothing is sent. -/
theorem Sends.nothing (hcalls : c'.encryptCalls = c.encryptCalls)
    (hseq : c'.nextSeqOut = c.nextSeqOut) (hdata : c'.datagrams = c.datagrams) :
    Sends p [] [] c c' where
  encryptCalls := hcalls.trans (List.append_nil _).symm
  datagrams := hdata.trans (List.append_nil _).symm
  nextSeqOut := hseq
  seqs := rfl
  framed := by simp
  packed := by simp

theorem SentSame.sends (h : c.SentSame c') : Sends p [] [] c c' :=
  .nothing h.encryptCalls h.nextSeqOut h.datagrams

theorem Sends.trans {c₁ c₂ c₃ : AetherVPNClient} {calls calls' : List EncryptCall}
    {packets packets' : List Bytes} (h : Sends p calls packets c₁ c₂)
    (h' : Sends p calls' packets' c₂ c₃) :
    Sends p (calls ++ calls') (packets ++ packets') c₁ c₃ where
  encryptCalls := by rw [h'.encryptCalls, h.encryptCalls, List.append_assoc]
  datagrams := by rw [h'.datagrams, h.datagrams, List.append_assoc]
  nextSeqOut := by rw [h'.nextSeqOut, h.nextSeqOut, List.length_append, Nat.add_assoc]
  seqs := by
    rw [List.map_append, h.seqs, h'.seqs, h.nextSeqOut, List.length_append]
    exact List.range'_append_1
  framed call hcall := (List.mem_append.mp hcall).elim (h.framed call) (h'.framed call)
  packed packet hp := by
    rcases List.mem_append.mp hp with hp | hp
    · obtain ⟨call, hcall, hpack⟩ := h.packed packet hp
      exact ⟨call, List.mem_append_left _ hcall, hpack⟩
    · obtain ⟨call, hcall, hpack⟩ := h'.packed packet hp
      exact ⟨call, List.mem_append_right _ hcall, hpack⟩

theorem sendToVps_sends (c : AetherVPNClient) {payload : Option Bytes} (hframe : Framed payload)
    (pathId : Nat) (interfaceIp : String) (nowUs : Int) :
    ∃ calls packets,
      Sends p calls packets c (c.sendToVps p payload pathId interfaceIp nowUs).1 := by
  unfold sendToVps
  split
  · exact ⟨[], [], .nothing rfl rfl rfl⟩
  · next payload =>
      split_ifs
      · let call : EncryptCall := ⟨payload, c.nextSeqOut, pathId, nowUs⟩
        have hframed : ∀ call' ∈ [call], Framed (some call'.payload) := by
          intro call' hcall
          rw [List.mem_singleton.mp hcall]
          exact hframe
        dsimp only
        split
        · next packet hpack =>
            refine ⟨[call], [packet], rfl, rfl, rfl, rfl, hframed, fun packet' hp => ?_⟩
            rw [List.mem_singleton.mp hp]
            exact ⟨call, List.mem_cons_self, hpack⟩
        · exact ⟨[call], [], rfl, (List.append_nil _).symm, rfl, rfl, hframed, by simp⟩
      · exact ⟨[], [], .nothing rfl rfl rfl⟩

theorem sends_stable (p : AetherProtocol) (c₀ : AetherVPNClient) :
    Stable p fun c => ∃ calls packets, Sends p calls packets c₀ c where
  setHandler h _ _ := by
    obtain ⟨calls, packets, h⟩ := h
    exact ⟨_, _, h.trans (.nothing rfl rfl rfl)⟩
  chunk _ _ h := by
    obtain ⟨calls, packets, h⟩ := h
    exact ⟨_, _, h.trans (.nothing rfl rfl rfl)⟩
  send payload pathId interfaceIp nowUs h hframe := by
    obtain ⟨calls, packets, h⟩ := h
    obtain ⟨calls', packets', h'⟩ := sendToVps_sends _ hframe pathId interfaceIp nowUs
    exact ⟨_, _, h.trans h'⟩
  unregister := by
    rintro c h' pc ⟨calls, packets, h⟩ _
    have hs := closeWriter_sentSame { c with sessions := c.sessions.pop (c.sessionId h') } h' false
    exact ⟨_, _, h.trans (.nothing hs.encryptCalls hs.nextSeqOut hs.datagrams)⟩

/-- **What a step sends.** -/
theorem step_sends {e : Event} (hstep : c.step p e = some c') :
    ∃ calls packets, Sends p calls packets c c' := by
  cases e with
  | accepted dstAddr dstPort =>
      obtain rfl := Option.some.inj hstep
      exact ⟨[], [], .nothing rfl rfl rfl⟩
  | deliver payload => exact ⟨[], [], (step_sentSame hstep (Or.inl ⟨payload, rfl⟩)).sends⟩
  | startWrite outcome =>
      exact ⟨[], [], (step_sentSame hstep (Or.inr (Or.inl ⟨outcome, rfl⟩))).sends⟩
  | drained i ok => exact ⟨[], [], (step_sentSame hstep (Or.inr (Or.inr ⟨i, ok, rfl⟩))).sends⟩
  | stop =>
      obtain rfl := Option.some.inj hstep
      have hs := stop_sentSame c
      exact ⟨[], [], .nothing hs.encryptCalls hs.nextSeqOut hs.datagrams⟩
  | _ =>
      exact (sends_stable p c).step ⟨[], [], .nothing rfl rfl rfl⟩ hstep (by simp) (by simp)
        (by simp) (by simp) (by simp)

/-- Numbers are given out in order, each once, and the datagrams are packets of the calls. -/
structure Numbered (p : AetherProtocol) (c : AetherVPNClient) : Prop where
  seqs : c.encryptCalls.map EncryptCall.seq = List.range c.nextSeqOut
  packets : ∀ packet ∈ c.datagrams, ∃ call ∈ c.encryptCalls,
    p.encryptAndPack call.payload call.seq call.pathId call.nowUs = .ok packet

theorem init_numbered (p : AetherProtocol) (activeSockets : List String) :
    Numbered p (init activeSockets) :=
  ⟨rfl, by simp [init]⟩

/-- **The step lemma** of `Numbered`. -/
theorem Numbered.step (hn : Numbered p c) {e : Event} (hstep : c.step p e = some c') :
    Numbered p c' := by
  obtain ⟨calls, packets, hs⟩ := step_sends hstep
  constructor
  · calc c'.encryptCalls.map EncryptCall.seq
        = List.range' 0 c.nextSeqOut ++ List.range' c.nextSeqOut calls.length := by
          rw [hs.encryptCalls, List.map_append, hn.seqs, hs.seqs, List.range_eq_range']
      _ = List.range' 0 (c.nextSeqOut + calls.length) := by
          rw [← List.range'_append_1, Nat.zero_add]
      _ = List.range c'.nextSeqOut := by rw [hs.nextSeqOut, List.range_eq_range']
  · rw [hs.datagrams, hs.encryptCalls]
    intro packet hp
    rcases List.mem_append.mp hp with hp | hp
    · obtain ⟨call, hcall, hpack⟩ := hn.packets packet hp
      exact ⟨call, List.mem_append_left _ hcall, hpack⟩
    · obtain ⟨call, hcall, hpack⟩ := hs.packed packet hp
      exact ⟨call, List.mem_append_right _ hcall, hpack⟩

/-! ## The chunks of one session -/

/-- The bodies of the DATA frames for session `k` that were given to `encrypt_and_pack`. -/
def sentFor (k : Nat) (c : AetherVPNClient) : List Bytes :=
  c.encryptCalls.filterMap fun call => dataFor k call.payload

/-- What a handler has sent of what it has read. -/
structure Relaying (h : Nat) (c : AetherVPNClient) : Prop where
  sent : sentFor (h + 1) c <+: bodiesFor h c.chunks
  unread : c.handlers[h]? = none → bodiesFor h c.chunks = []
  /-- As long as the sockets are there, everything read was sent or is about to be. -/
  current : ∀ pc ∈ c.handlers[h]?, ¬ pc.leaving → c.activeSockets ≠ [] →
    bodiesFor h c.chunks = sentFor (h + 1) c ++ pc.unsent
  socket : ∀ data ip pathId, c.handlers[h]? = some (HandlerPc.pacing data ip pathId) →
    c.activeSockets ≠ [] → ip ∈ c.activeSockets

theorem init_relaying (h : Nat) (activeSockets : List String) :
    Relaying h (init activeSockets) :=
  ⟨List.nil_prefix, fun _ => rfl, by simp [init], by simp [init]⟩

theorem sentFor_congr (hs : c.SentSame c') (k : Nat) : sentFor k c' = sentFor k c := by
  unfold sentFor
  rw [hs.encryptCalls]

theorem Relaying.congr (hr : Relaying h c) (hs : c.SentSame c') : Relaying h c' := by
  constructor
  · rw [sentFor_congr hs, hs.chunks]
    exact hr.sent
  · rw [hs.handlers, hs.chunks]
    exact hr.unread
  · rw [hs.handlers, hs.activeSockets, hs.chunks, sentFor_congr hs]
    exact hr.current
  · rw [hs.handlers, hs.activeSockets]
    exact hr.socket

/-! ## The moves of a handler -/

/-- Handler `h` moves to `pc'`, and what it gives to `encrypt_and_pack` for session `k` on the
way is `new k`. -/
structure Moves (c c' : AetherVPNClient) (h : Nat) (pc' : HandlerPc) (new : Nat → List Bytes) :
    Prop where
  handlers : c'.handlers = c.handlers.set h pc'
  chunks : c'.chunks = c.chunks
  activeSockets : c'.activeSockets = c.activeSockets
  sentFor : ∀ k, sentFor k c' = AetherVPNClient.sentFor k c ++ new k

/-- What `_send_to_vps` sends for session `k`. -/
def newFor (c : AetherVPNClient) (payload : Option Bytes) (interfaceIp : String) (k : Nat) :
    List Bytes :=
  if interfaceIp ∈ c.activeSockets then (payload.bind (dataFor k)).toList else []

theorem sendToVps_sentFor (c : AetherVPNClient) (payload : Option Bytes) (pathId : Nat)
    (interfaceIp : String) (nowUs : Int) (k : Nat) :
    sentFor k (c.sendToVps p payload pathId interfaceIp nowUs).1
      = sentFor k c ++ newFor c payload interfaceIp k := by
  unfold sendToVps newFor
  split
  · rw [Option.bind_none]
    split_ifs <;> exact (List.append_nil _).symm
  · next payload =>
      by_cases hip : interfaceIp ∈ c.activeSockets
      · let new : EncryptCall := ⟨payload, c.nextSeqOut, pathId, nowUs⟩
        -- whether or not the packet is built, the call is on record
        have hsent : (c.encryptCalls ++ [new]).filterMap
            (fun call : EncryptCall => dataFor k call.payload)
              = sentFor k c ++ (dataFor k payload).toList := by
          rw [List.filterMap_append]
          cases hd : dataFor k payload with
          | none => simp [hd, sentFor, new]
          | some body => simp [hd, sentFor, new]
        rw [if_pos hip, if_pos hip]
        dsimp only
        split <;> exact hsent
      · rw [if_neg hip, if_neg hip]
        exact (List.append_nil _).symm

/-- The CLOSE frame is no DATA frame. -/
theorem dataFor_closePayload (sessionId k : Nat) :
    (closePayload sessionId).bind (dataFor k) = none := by
  unfold closePayload packFrame
  split_ifs with hlt
  · show dataFor k (frame 3 sessionId []) = none
    rw [dataFor_eq (splitFrame_frame [] hlt)]
    exact if_neg fun h => by cases h.1
  · rfl

theorem dataFor_connectPayload (sessionId dstPort : Nat) (dstAddr : List Char) (k : Nat) :
    (connectPayload sessionId dstPort dstAddr).bind (dataFor k) = none := by
  unfold connectPayload packFrame
  split_ifs with hlt
  · let body : Bytes := 1 :: (toBE 2 dstPort ++ encode dstAddr)
    show dataFor k (frame 1 sessionId body) = none
    rw [dataFor_eq (splitFrame_frame body hlt)]
    exact if_neg fun h => by cases h.1
  · rfl

theorem dataFor_dataPayload (sessionId : Nat) (data : Bytes) (k : Nat) :
    (dataPayload sessionId data).bind (dataFor k)
      = if sessionId = k ∧ sessionId < 2 ^ 32 then some data else none := by
  unfold dataPayload packFrame
  by_cases hlt : sessionId < 2 ^ 32
  · rw [if_pos hlt]
    show dataFor k (frame 2 sessionId data) = _
    rw [dataFor_eq (splitFrame_frame data hlt)]
    by_cases hk : sessionId = k
    · rw [if_pos ⟨rfl, hk⟩, if_pos ⟨hk, hlt⟩]
    · rw [if_neg fun h => hk h.2, if_neg fun h => hk h.1]
  · rw [if_neg hlt, if_neg fun h => hlt h.2]
    rfl

/-- Removing the session sends nothing. -/
theorem unregister_moves (c : AetherVPNClient) (h : Nat) :
    Moves c (c.unregister h) h .ended fun _ => [] := by
  have hs := closeWriter_sentSame { c with sessions := c.sessions.pop (c.sessionId h) } h false
  refine ⟨?_, hs.chunks, hs.activeSockets, fun k => ?_⟩
  · exact congrArg (fun l => l.set h HandlerPc.ended) hs.handlers
  · rw [List.append_nil]
    exact sentFor_congr hs k

/-- The `finally` clause sends no DATA frame. -/
theorem finish_moves (c : AetherVPNClient) (h : Nat) (draw : Draw) :
    ∃ pc', pc'.leaving ∧ Moves c (c.finish p h draw) h pc' fun _ => [] := by
  have hnone : ∀ k ip, newFor c (closePayload (c.sessionId h)) ip k = [] := by
    intro k ip
    unfold newFor
    rw [dataFor_closePayload]
    split_ifs <;> rfl
  unfold finish
  split
  · exact ⟨.ended, rfl, rfl, rfl, rfl, fun k => (List.append_nil _).symm⟩
  · next ip pathId _ =>
      have hs := sendToVps_sameLocal p c (closePayload (c.sessionId h)) pathId ip draw.nowUs
      have hsame : ∀ k, sentFor k (c.sendToVps p (closePayload (c.sessionId h)) pathId ip
          draw.nowUs).1 = sentFor k c ++ [] := fun k => by rw [sendToVps_sentFor, hnone k ip]
      dsimp only
      split
      · obtain ⟨h₁, h₂, h₃, h₄⟩ := unregister_moves
          (c.sendToVps p (closePayload (c.sessionId h)) pathId ip draw.nowUs).1 h
        refine ⟨.ended, rfl, by rw [h₁, hs.handlers], h₂.trans hs.chunks,
          h₃.trans hs.activeSockets, fun k => ?_⟩
        rw [h₄ k, hsame k, List.append_nil]
      · exact ⟨.ended, rfl, congrArg (fun l => l.set h HandlerPc.ended) hs.handlers, hs.chunks,
          hs.activeSockets, hsame⟩
      · exact ⟨.closing, rfl, congrArg (fun l => l.set h HandlerPc.closing) hs.handlers,
          hs.chunks, hs.activeSockets, hsame⟩

theorem loop_moves (c : AetherVPNClient) (h : Nat) (last : Draw) :
    ∃ pc' : HandlerPc, (pc'.leaving ∨ pc' = .reading) ∧
      Moves c (c.loop p h last) h pc' fun _ => [] := by
  unfold loop
  split_ifs
  · exact ⟨.reading, Or.inr rfl, rfl, rfl, rfl, fun k => (List.append_nil _).symm⟩
  · obtain ⟨pc', hl, hm⟩ := finish_moves (p := p) c h last
    exact ⟨pc', Or.inl hl, hm⟩

/-- A frame goes out, and the handler moves on, goes back to its loop, or leaves. -/
theorem sendFrame_moves (c : AetherVPNClient) (h : Nat) (payload : Option Bytes) (pathId : Nat)
    (interfaceIp : String) (nowUs : Int) (pc : HandlerPc) (last : Draw) :
    ∃ pc' : HandlerPc, (pc'.leaving ∨ payload ≠ none ∧ (pc' = .reading ∨ pc' = pc)) ∧
      Moves c (c.sendFrame p h payload pathId interfaceIp nowUs pc last) h pc'
        (newFor c payload interfaceIp) := by
  have hs := sendToVps_sameLocal p c payload pathId interfaceIp nowUs
  have hthen : ∀ {c' : AetherVPNClient} {pc' : HandlerPc},
      Moves (c.sendToVps p payload pathId interfaceIp nowUs).1 c' h pc' (fun _ => []) →
      Moves c c' h pc' (newFor c payload interfaceIp) := by
    rintro c' pc' ⟨h₁, h₂, h₃, h₄⟩
    refine ⟨by rw [h₁, hs.handlers], h₂.trans hs.chunks, h₃.trans hs.activeSockets, fun k => ?_⟩
    rw [h₄ k, sendToVps_sentFor, List.append_nil]
  -- a frame that did not pack raises
  have hsome : ∀ result, (c.sendToVps p payload pathId interfaceIp nowUs).2 = result →
      result ≠ .raises → payload ≠ none := by
    rintro result heq hne rfl
    exact hne heq.symm
  unfold sendFrame
  dsimp only
  split
  · next heq =>
      obtain ⟨pc', hl | hl, hm⟩ := loop_moves (p := p)
        (c.sendToVps p payload pathId interfaceIp nowUs).1 h last
      · exact ⟨pc', Or.inl hl, hthen hm⟩
      · exact ⟨pc', Or.inr ⟨hsome _ heq (by simp), Or.inl hl⟩, hthen hm⟩
  · obtain ⟨pc', hl, hm⟩ := finish_moves (p := p)
      (c.sendToVps p payload pathId interfaceIp nowUs).1 h last
    exact ⟨pc', Or.inl hl, hthen hm⟩
  · next heq =>
      exact ⟨pc, Or.inr ⟨hsome _ heq (by simp), Or.inr rfl⟩,
        hthen ⟨rfl, rfl, rfl, fun k => (List.append_nil _).symm⟩⟩

/-! ## The step lemma -/

/-- A handler of another session moves. -/
theorem Relaying.other (hr : Relaying h c) {new : Nat → List Bytes} (hm : Moves c c' h' pc' new)
    (hne : h ≠ h') (hnew : new (h + 1) = []) : Relaying h c' := by
  have hpc : c'.handlers[h]? = c.handlers[h]? := by
    rw [hm.handlers]
    exact List.getElem?_set_ne (Ne.symm hne)
  have hsent : sentFor (h + 1) c' = sentFor (h + 1) c := by
    rw [hm.sentFor, hnew, List.append_nil]
  constructor
  · rw [hsent, hm.chunks]
    exact hr.sent
  · rw [hpc, hm.chunks]
    exact hr.unread
  · rw [hpc, hm.activeSockets, hm.chunks, hsent]
    exact hr.current
  · rw [hpc, hm.activeSockets]
    exact hr.socket

/-- The handler of the session itself moves, and sends at most the chunk it has read. -/
theorem Relaying.own (hr : Relaying h c) (hpc : c.handlers[h]? = some pc)
    {new : Nat → List Bytes} (hm : Moves c c' h pc' new)
    (hnew : new (h + 1) = [] ∨
      ¬ pc.leaving ∧ c.activeSockets ≠ [] ∧ new (h + 1) <+: pc.unsent)
    (hcur : ¬ pc'.leaving → ¬ pc.leaving ∧ pc'.unsent = [] ∧
      (c.activeSockets ≠ [] → pc.unsent = new (h + 1))) : Relaying h c' := by
  obtain ⟨hlt, -⟩ := List.getElem?_eq_some_iff.mp hpc
  have hpc' : c'.handlers[h]? = some pc' := by
    rw [hm.handlers]
    exact List.getElem?_set_self hlt
  have hsent : sentFor (h + 1) c' = sentFor (h + 1) c ++ new (h + 1) := hm.sentFor (h + 1)
  constructor
  case sent =>
    rw [hsent, hm.chunks]
    rcases hnew with hnil | ⟨hstay, hsock, hpre⟩
    · rw [hnil, List.append_nil]
      exact hr.sent
    · rw [hr.current pc hpc hstay hsock]
      exact (List.prefix_append_right_inj _).mpr hpre
  case unread =>
    intro hnone
    rw [hpc'] at hnone
    cases hnone
  case current =>
    intro pc'' hpc'' hstay' hsock
    obtain rfl : pc' = pc'' := Option.some.inj (hpc'.symm.trans hpc'')
    obtain ⟨hstay, hunsent, hall⟩ := hcur hstay'
    rw [hm.activeSockets] at hsock
    rw [hm.chunks, hsent, hunsent, List.append_nil, ← hall hsock]
    exact hr.current pc hpc hstay hsock
  case socket =>
    intro data ip pathId hpacing
    obtain rfl := Option.some.inj (hpc'.symm.trans hpacing)
    have hstay : ¬ (HandlerPc.pacing data ip pathId).leaving := by simp [HandlerPc.leaving]
    obtain ⟨-, hunsent, -⟩ := hcur hstay
    cases hunsent

/-- A handler leaves, or goes back to its loop with nothing left to send. -/
theorem Relaying.moves (hr : Relaying h c) (hpc : c.handlers[h']? = some pc)
    (hm : Moves c c' h' pc' fun _ => [])
    (hcur : ¬ pc'.leaving → ¬ pc.leaving ∧ pc'.unsent = [] ∧ pc.unsent = []) :
    Relaying h c' := by
  by_cases hh : h = h'
  · subst hh
    refine hr.own hpc hm (Or.inl rfl) fun hstay => ?_
    obtain ⟨h₁, h₂, h₃⟩ := hcur hstay
    exact ⟨h₁, h₂, fun _ => h₃⟩
  · exact hr.other hm hh rfl

theorem Relaying.finish (hr : Relaying h c) (hpc : c.handlers[h']? = some pc) (draw : Draw) :
    Relaying h (c.finish p h' draw) := by
  obtain ⟨pc', hleave, hm⟩ := finish_moves (p := p) c h' draw
  exact hr.moves hpc hm fun hstay => absurd hleave hstay

theorem selectPath_mem {draw : Draw} {ip : String} {pathId : Nat}
    (hsel : c.selectPath draw = some (ip, pathId)) : ip ∈ c.activeSockets := by
  obtain ⟨ip', -, hmap⟩ := Option.bind_eq_some_iff.mp hsel
  obtain ⟨i, hi, heq⟩ := Option.map_eq_some_iff.mp hmap
  obtain ⟨rfl, -⟩ := Prod.mk.inj heq
  by_contra hnot
  rw [List.idxOf?_eq_none_iff.mpr hnot] at hi
  cases hi

theorem bodiesFor_concat (l : List (Nat × Bytes)) (data : Bytes) :
    bodiesFor h (l ++ [(h', data)]) = bodiesFor h l ++ if h' = h then [data] else [] := by
  rw [bodiesFor_append]
  by_cases hh : h' = h
  · rw [if_pos hh, hh, bodiesFor_cons_self]
    rfl
  · rw [if_neg hh, bodiesFor_cons_of_ne hh]
    rfl

/-- Another session's handler reads a chunk. -/
theorem Relaying.chunk_other (hr : Relaying h c) (hne : h' ≠ h) (data : Bytes) :
    Relaying h { c with chunks := c.chunks ++ [(h', data)] } := by
  have hsame : bodiesFor h (c.chunks ++ [(h', data)]) = bodiesFor h c.chunks := by
    rw [bodiesFor_concat, if_neg hne, List.append_nil]
  refine ⟨?_, fun hnone => ?_, fun pc hpc hstay hsock => ?_, hr.socket⟩
  · rw [hsame]
    exact hr.sent
  · exact hsame.trans (hr.unread hnone)
  · exact hsame.trans (hr.current pc hpc hstay hsock)

/-- The chunk that was just read is not sent: the handler leaves. -/
theorem Relaying.chunk_finish (hr : Relaying h c) (hpc : c.handlers[h]? = some pc)
    (data : Bytes) (last : Draw) :
    Relaying h (AetherVPNClient.finish p { c with chunks := c.chunks ++ [(h, data)] } h last) := by
  obtain ⟨hlt, -⟩ := List.getElem?_eq_some_iff.mp hpc
  obtain ⟨pc', hleave, hm⟩ := finish_moves (p := p) { c with chunks := c.chunks ++ [(h, data)] } h
    last
  have hpc' : (AetherVPNClient.finish p { c with chunks := c.chunks ++ [(h, data)] } h
      last).handlers[h]? = some pc' := by
    rw [hm.handlers]
    exact List.getElem?_set_self hlt
  refine ⟨?_, fun hnone => ?_, fun pc'' hpc'' hstay => ?_, fun _ _ _ hp => ?_⟩
  · rw [hm.sentFor, List.append_nil, hm.chunks, bodiesFor_concat]
    exact hr.sent.trans (List.prefix_append _ _)
  · rw [hpc'] at hnone
    cases hnone
  · obtain rfl : pc' = pc'' := Option.some.inj (hpc'.symm.trans hpc'')
    exact absurd hleave hstay
  · obtain rfl := Option.some.inj (hpc'.symm.trans hp)
    cases hleave

/-- The chunk that was just read waits to be sent. -/
theorem Relaying.chunk_pacing (hr : Relaying h c) (hpc : c.handlers[h]? = some .reading)
    (data : Bytes) {ip : String} (hip : ip ∈ c.activeSockets) (pathId : Nat) :
    Relaying h ({ c with chunks := c.chunks ++ [(h, data)] }.setHandler h
      (.pacing data ip pathId)) := by
  obtain ⟨hlt, -⟩ := List.getElem?_eq_some_iff.mp hpc
  have hpc' : (c.handlers.set h (.pacing data ip pathId))[h]?
      = some (.pacing data ip pathId) := List.getElem?_set_self hlt
  have hread : bodiesFor h (c.chunks ++ [(h, data)]) = bodiesFor h c.chunks ++ [data] := by
    rw [bodiesFor_concat, if_pos rfl]
  refine ⟨?_, fun hnone => ?_, fun pc'' hpc'' _ hsock => ?_, fun _ _ _ hp _ => ?_⟩
  · show sentFor (h + 1) c <+: bodiesFor h (c.chunks ++ [(h, data)])
    rw [hread]
    exact hr.sent.trans (List.prefix_append _ _)
  · have := hpc'.symm.trans hnone
    cases this
  · obtain rfl := Option.some.inj (hpc'.symm.trans hpc'')
    have hcur := hr.current _ hpc (by simp [HandlerPc.leaving]) hsock
    calc bodiesFor h (c.chunks ++ [(h, data)])
        = bodiesFor h c.chunks ++ [data] := hread
      _ = sentFor (h + 1) c ++ [] ++ [data] := by
          rw [hcur]
          rfl
      _ = sentFor (h + 1) c ++ [data] := by rw [List.append_nil]
  · have heq := Option.some.inj (hpc'.symm.trans hp)
    cases heq
    exact hip

/-- The handler reads a chunk. -/
theorem Relaying.received (hr : Relaying h c) {data : Bytes} {draw last : Draw}
    (hstep : c.step p (.received h' data draw last) = some c') : Relaying h c' := by
  cases step_cases hstep with
  | endOfStream hpc => exact hr.finish hpc last
  | chunkUnsent hpc =>
      by_cases hh : h = h'
      · subst hh
        exact hr.chunk_finish hpc data last
      · exact (hr.chunk_other (Ne.symm hh) data).finish hpc last
  | @chunk _ hpc _ _ _ ip pathId hsel =>
      by_cases hh : h = h'
      · subst hh
        exact hr.chunk_pacing hpc data (selectPath_mem hsel) pathId
      · have hm : Moves { c with chunks := c.chunks ++ [(h', data)] }
            ({ c with chunks := c.chunks ++ [(h', data)] }.setHandler h'
              (.pacing data ip pathId)) h' (.pacing data ip pathId) fun _ => [] :=
          ⟨rfl, rfl, rfl, fun k => (List.append_nil _).symm⟩
        exact (hr.chunk_other (Ne.symm hh) data).other hm hh rfl

/-- The chunk is sent. -/
theorem Relaying.paced (hr : Relaying h c) (hids : c.Ids) {ok : Bool} {nowUs : Int} {last : Draw}
    (hstep : c.step p (.paced h' ok nowUs last) = some c') : Relaying h c' := by
  cases step_cases hstep with
  | pacingFails hpc => exact hr.finish hpc last
  | @paced _ pathId data ip hpc =>
      obtain ⟨hlt, -⟩ := List.getElem?_eq_some_iff.mp hpc
      have hid : c.sessionId h' = h' + 1 := sessionId_eq hids (hids.handlers ▸ hlt)
      obtain ⟨pc', hpc', hm⟩ := sendFrame_moves (p := p) c h' (dataPayload (c.sessionId h') data)
        pathId ip nowUs .sending last
      -- what this send adds to the DATA frames of session `k`
      have hnew : ∀ k, newFor c (dataPayload (c.sessionId h') data) ip k
          = if ip ∈ c.activeSockets ∧ h' + 1 = k ∧ h' + 1 < 2 ^ 32 then [data] else [] := by
        intro k
        unfold newFor
        rw [dataFor_dataPayload, hid]
        by_cases hip : ip ∈ c.activeSockets
        · by_cases hk : h' + 1 = k ∧ h' + 1 < 2 ^ 32
          · rw [if_pos hip, if_pos hk, if_pos ⟨hip, hk⟩]
            rfl
          · rw [if_pos hip, if_neg hk, if_neg fun h => hk h.2]
            rfl
        · rw [if_neg hip, if_neg fun h => hip h.1]
      by_cases hh : h = h'
      · subst hh
        refine hr.own hpc hm ?_ fun hstay => ?_
        · rw [hnew]
          split_ifs with hall
          · have hne : c.activeSockets ≠ [] := List.ne_nil_of_mem hall.1
            exact Or.inr ⟨by simp [HandlerPc.leaving], hne, List.prefix_refl _⟩
          · exact Or.inl rfl
        · obtain ⟨hsome, hor⟩ := hpc'.resolve_left hstay
          -- a session id that does not pack raises, and the handler leaves
          have hfits : h + 1 < 2 ^ 32 := by
            by_contra hbig
            apply hsome
            unfold dataPayload packFrame
            rw [hid, if_neg hbig]
          refine ⟨by simp [HandlerPc.leaving], ?_, fun hsock => ?_⟩
          · rcases hor with rfl | rfl <;> rfl
          · rw [hnew, if_pos ⟨hr.socket data ip pathId hpc hsock, rfl, hfits⟩]
            rfl
      · refine hr.other hm hh ?_
        rw [hnew, if_neg]
        rintro ⟨-, heq, -⟩
        omega

/-- A new handler has read and sent nothing. -/
theorem Relaying.accepted (hr : Relaying h c) {dstAddr : List Char} {dstPort : Nat}
    (hstep : c.step p (.accepted dstAddr dstPort) = some c') : Relaying h c' := by
  obtain rfl := Option.some.inj hstep
  rcases lt_trichotomy h c.handlers.length with hlt | rfl | hgt
  · -- an older session
    have hpc : (c.handlers ++ [.replying dstAddr dstPort])[h]? = c.handlers[h]? :=
      List.getElem?_append_left hlt
    refine ⟨hr.sent, fun hnone => hr.unread (hpc.symm.trans hnone), fun pc hin =>
      hr.current pc (hpc.symm.trans hin), fun data ip pathId hin =>
      hr.socket data ip pathId (hpc.symm.trans hin)⟩
  · have hpc : (c.handlers ++ [.replying dstAddr dstPort])[c.handlers.length]?
        = some (.replying dstAddr dstPort) := List.getElem?_concat_length
    have hread : bodiesFor c.handlers.length c.chunks = [] := hr.unread (by simp)
    have hsent : sentFor (c.handlers.length + 1) c = [] := by
      have hpre := hr.sent
      rw [hread] at hpre
      exact List.prefix_nil.mp hpre
    refine ⟨hr.sent, fun hnone => ?_, fun pc hin _ _ => ?_, fun data ip pathId hin => ?_⟩
    · have := hpc.symm.trans hnone
      cases this
    · obtain rfl := Option.some.inj (hpc.symm.trans hin)
      show bodiesFor c.handlers.length c.chunks = sentFor (c.handlers.length + 1) c ++ []
      rw [hread, hsent]
      rfl
    · have := Option.some.inj (hpc.symm.trans hin)
      cases this
  · -- a session that does not exist yet
    have hnone : (c.handlers ++ [.replying dstAddr dstPort])[h]? = none := by
      rw [List.getElem?_eq_none_iff, List.length_append, List.length_singleton]
      omega
    refine ⟨hr.sent, fun _ => hr.unread ?_, fun pc hin => ?_, fun data ip pathId hin => ?_⟩
    · exact List.getElem?_eq_none_iff.mpr (by omega)
    · have := hnone.symm.trans hin
      cases this
    · have := hnone.symm.trans hin
      cases this

/-- The CONNECT frame goes out. -/
theorem Relaying.replied (hr : Relaying h c) {ok : Bool} {draw last : Draw}
    (hstep : c.step p (.replied h' ok draw last) = some c') : Relaying h c' := by
  cases step_cases hstep with
  | replyFails hpc => exact hr.finish hpc last
  | connectUnsent hpc => exact hr.finish hpc last
  | @connects _ dstPort dstAddr hpc _ ip pathId _ =>
      obtain ⟨pc', hpc', hm⟩ := sendFrame_moves (p := p) c h'
        (connectPayload (c.sessionId h') dstPort dstAddr) pathId ip draw.nowUs .connecting last
      have hnil : newFor c (connectPayload (c.sessionId h') dstPort dstAddr) ip
          = fun _ => [] := by
        funext k
        unfold newFor
        rw [dataFor_connectPayload]
        split_ifs <;> rfl
      rw [hnil] at hm
      refine hr.moves hpc hm fun hstay => ⟨by simp [HandlerPc.leaving], ?_, rfl⟩
      obtain ⟨-, rfl | rfl⟩ := hpc'.resolve_left hstay <;> rfl

/-- A send is over. -/
theorem Relaying.sendReturns (hr : Relaying h c) {last : Draw}
    (hstep : c.step p (.sent h' last) = some c') : Relaying h c' := by
  have hloop : ∀ {pc : HandlerPc}, c.handlers[h']? = some pc → ¬ pc.leaving →
      pc.unsent = [] → Relaying h (c.loop p h' last) := by
    intro pc hpc hstay hunsent
    obtain ⟨pc', hor, hm⟩ := loop_moves (p := p) c h' last
    refine hr.moves hpc hm fun hstay' => ⟨hstay, ?_, hunsent⟩
    rw [hor.resolve_left hstay']
    rfl
  cases step_cases hstep with
  | connectSent hpc => exact hloop hpc (by simp [HandlerPc.leaving]) rfl
  | dataSent hpc => exact hloop hpc (by simp [HandlerPc.leaving]) rfl
  | closeSent hpc => exact hr.moves hpc (unregister_moves c h') fun hstay => absurd rfl hstay

/-- **The step lemma** of `Relaying`. -/
theorem Relaying.step (hr : Relaying h c) (hids : c.Ids) {e : Event}
    (hstep : c.step p e = some c') : Relaying h c' := by
  cases e with
  | accepted dstAddr dstPort => exact hr.accepted hstep
  | replied h' ok draw last => exact hr.replied hstep
  | received h' data draw last => exact hr.received hstep
  | readFails h' last =>
      cases step_cases hstep with
      | readFails hpc => exact hr.finish hpc last
  | paced h' ok nowUs last => exact hr.paced hids hstep
  | sent h' last => exact hr.sendReturns hstep
  | deliver payload => exact hr.congr (step_sentSame hstep (Or.inl ⟨payload, rfl⟩))
  | startWrite outcome =>
      exact hr.congr (step_sentSame hstep (Or.inr (Or.inl ⟨outcome, rfl⟩)))
  | drained i ok => exact hr.congr (step_sentSame hstep (Or.inr (Or.inr ⟨i, ok, rfl⟩)))
  | stop =>
      obtain rfl := Option.some.inj hstep
      refine Relaying.congr (c := { c with activeSockets := [] }) ?_ (stop_sentSame c)
      exact ⟨hr.sent, hr.unread, fun _ _ _ hne => absurd rfl hne, fun _ _ _ _ hne =>
        absurd rfl hne⟩

end AetherVPNClient

end AetherBond.Client
