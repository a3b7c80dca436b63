import AetherBond.Tunnel.Packets

set_option autoImplicit false

/-! # The end of the sequence numbers

`next_seq_out` is a Python integer and grows without bound; the field of the header has 32
bits. The receivers compare plain integers, so order is no concern at any number, but the call
after the first `2 ^ 32` and every later one raises. Both directions keep going exactly as long
as neither end has made more than `2 ^ 32` calls (`run_keepsGoing_iff`).
-/

namespace AetherBond

open AetherBond.Lib AetherBond.Common AetherBond.Client AetherBond.Server

/-! ## The packet expected next -/

namespace Server.ResequencingBuffer

variable {P σ : Type*} {callback : Callback P σ} {b : ResequencingBuffer P}

/-- **The packet expected next is delivered at once**, whatever its number. -/
theorem Settled.put_next (hb : Settled b) (callback : Callback P σ) (st : σ) (payload : P)
    (now : Int) : ∃ b' st' rest, b.put callback st b.expectedSeq payload now = some (b', st') ∧
      b'.delivered = b.delivered ++ (b.expectedSeq, payload) :: rest := by
  have hnew : ¬ b.drops b.expectedSeq := by
    rintro (hseen | hlt)
    · rw [hb.seen, List.mem_toFinset] at hseen
      exact absurd (hb.above _ hseen) (lt_irrefl _)
    · exact absurd hlt (lt_irrefl _)
  obtain ⟨run, b₁, st₁, hput, hr, -⟩ := hb.put_new hnew callback st payload now
  -- the new entry is the first of the heap
  have hpush : heappush b.heap ⟨b.expectedSeq, payload, now⟩
      = ⟨b.expectedSeq, payload, now⟩ :: b.heap := by
    unfold heappush
    cases hheap : b.heap with
    | nil => rfl
    | cons x heap =>
        exact if_pos (hb.lt_oldest hheap).le
  obtain ⟨later, rfl⟩ := hr.starts hpush rfl
  have hdel : b₁.delivered = b.delivered ++ (b.expectedSeq, payload) :: later.map Entry.packet :=
    hr.delivered
  refine ⟨b₁.manageFlushTask, st₁, later.map Entry.packet, hput, ?_⟩
  rw [(manageFlushTask_frame b₁).2.2.1, hdel]

end Server.ResequencingBuffer

/-! ## Sequence space -/

/-- Every number that was taken fits the header. -/
def SeqsFit (calls : List EncryptCall) : Prop := ∀ call ∈ calls, call.seq < 2 ^ 32

theorem Consecutive.seqsFit_iff {calls : List EncryptCall} (h : Consecutive calls) :
    SeqsFit calls ↔ calls.length ≤ 2 ^ 32 := by
  constructor
  · intro hfit
    by_contra hlong
    obtain ⟨call, hcall⟩ : ∃ call, calls[2 ^ 32]? = some call :=
      ⟨_, List.getElem?_eq_getElem (not_le.mp hlong)⟩
    have hlt := hfit call (List.mem_of_getElem? hcall)
    rw [h.seq hcall] at hlt
    exact lt_irrefl _ hlt
  · intro hlen call hcall
    obtain ⟨i, hi⟩ := List.mem_iff_getElem?.mp hcall
    obtain ⟨hlt, -⟩ := List.getElem?_eq_some_iff.mp hi
    rw [h.seq hi]
    exact hlt.trans_le hlen

/-- Every call after the first `2 ^ 32` raises. -/
theorem Consecutive.raises {calls : List EncryptCall} (h : Consecutive calls) (p : AetherProtocol)
    {k : Nat} {call : EncryptCall} (hk : calls[k]? = some call) (hlarge : 2 ^ 32 ≤ k) :
    p.encryptAndPack call.payload call.seq call.pathId call.nowUs = .error .structError := by
  refine encryptAndPack_of_not_packable p _ fun hfits => ?_
  have hlt := hfits.1
  rw [h.seq hk] at hlt
  omega

namespace Tunnel

variable {p : AetherProtocol} {t t' : Tunnel} {e : Event}

/-! ## Sending order -/

/-- The invariant: each resequencer follows the frames of the other end. -/
structure InStep (p : AetherProtocol) (t : Tunnel) : Prop where
  ends : t.Ends p
  inbox : ∀ x ∈ t.server.inbox, x.1 ∈ t.client.datagrams
  uplink : t.server.resequencer.Follows Prod.fst t.client.payloads
  downlink : t.resequencer.Follows (fun payload => payload) t.server.router.payloads

theorem init_inStep (p : AetherProtocol) (activeSockets : List String) :
    InStep p (init activeSockets) where
  ends := init_ends p activeSockets
  inbox := by simp [init, AetherServerProtocol.init]
  uplink := ResequencingBuffer.init_follows _ _ _
  downlink := ResequencingBuffer.init_follows _ _ _

/-- **The step lemma.** -/
theorem InStep.step (hcipher : p.cipher.Correct) (h : InStep p t) (hstep : t.step p e = some t') :
    InStep p t' := by
  have hmove := step_move hstep
  obtain ⟨hends, hgrows⟩ := h.ends.move hmove
  have hpayloads : t.server.router.payloads <+: t'.server.router.payloads :=
    hgrows.server.map EncryptCall.payload
  have hinbox : t'.server = t.server → ∀ x ∈ t'.server.inbox, x.1 ∈ t'.client.datagrams := by
    intro heq x hx
    rw [heq] at hx
    exact hgrows.client.datagrams _ (h.inbox x hx)
  have huplink : t'.server.resequencer = t.server.resequencer →
      t'.server.resequencer.Follows Prod.fst t'.client.payloads := by
    intro heq
    rw [heq]
    exact h.uplink.mono hgrows.client.payloads
  have hdownlink : t'.resequencer = t.resequencer →
      t'.resequencer.Follows (fun payload => payload) t'.server.router.payloads := by
    intro heq
    rw [heq]
    exact h.downlink.mono hpayloads
  -- the client's resequencer takes a step
  have hbuffer : ∀ e : ResequencingBuffer.Event Bytes,
      (∀ x, t.resequencer.Accepts x e → t.server.router.payloads[x.seq]? = some x.payload) →
      ResequencingBuffer.step callback (t.resequencer, t.client) e
        = some (t'.resequencer, t'.client) →
      t'.server = t.server → InStep p t' := by
    intro e hnew hstep heq
    obtain ⟨run, heff⟩ := ResequencingBuffer.step_effect h.ends.settled hstep
    exact ⟨hends, hinbox heq, huplink (congrArg _ heq),
      (h.downlink.effect heff hnew).mono hpayloads⟩
  cases hmove with
  | client e _ _ hres heq =>
      exact ⟨hends, hinbox heq, huplink (congrArg _ heq), hdownlink hres⟩
  | receive data nowUs now hdata hreceive =>
      rcases receive_cases hreceive with rfl | ⟨payload, seq, pathId, latency, hok, hput, heq⟩
      · exact h
      · refine hbuffer _ (fun x hx => ?_) hput heq
        obtain ⟨y, hy, rfl⟩ := hdata
        obtain ⟨call, hcall, hpack⟩ := h.ends.server.transmitted y hy
        rw [unpackAndDecrypt_encryptAndPack hcipher hpack nowUs] at hok
        cases hok
        rw [hx.2]
        exact payload_at_seq h.ends.server.numbered hcall
  | flush task now hstep heq =>
      exact hbuffer (.flushCheck task now) (fun _ hx => hx.elim) hstep heq
  | server e hdata hstep hcl hres =>
      refine ⟨hends, fun x hx => ?_, ?_, hdownlink hres⟩
      · apply hgrows.client.datagrams
        rcases AetherServerProtocol.mem_inbox_of_step hstep hx with hx | hx
        · exact h.inbox x hx
        · exact hdata x.1 x.2 hx
      · rcases AetherServerProtocol.step_cases hstep with ⟨heq, -⟩ |
          ⟨payload, seq, pathId, now, data, addr, inbox, nowUs, latency, hin, hok, hput⟩ |
          ⟨task, now, -, hflush⟩ | ⟨_, -, -, -, heq⟩
        · exact huplink heq
        · obtain ⟨run, heff⟩ := ResequencingBuffer.step_effect h.ends.server.settled hput
          refine (h.uplink.effect heff fun x hx => ?_).mono hgrows.client.payloads
          rw [hx.2]
          exact h.ends.client.decrypt hcipher (h.inbox (data, addr) (hin ▸ List.mem_cons_self)) hok
        · obtain ⟨run, heff⟩ := ResequencingBuffer.step_effect h.ends.server.settled hflush
          exact (h.uplink.effect heff fun _ hx => hx.elim).mono hgrows.client.payloads
        · exact huplink heq

/-! ## Both directions -/

/-- Both directions keep going: the numbers fit, so that a call raises only for its time or its
path; each receiver has delivered frames of the other end in the order they were sent; and it
delivers the one expected next as soon as that arrives. -/
structure KeepsGoing (p : AetherProtocol) (t : Tunnel) : Prop where
  clientFits : SeqsFit t.client.encryptCalls
  serverFits : SeqsFit t.server.router.encryptCalls
  packs : ∀ call ∈ t.client.encryptCalls ++ t.server.router.encryptCalls,
    0 ≤ call.nowUs → call.nowUs < 2 ^ 64 → call.pathId < 2 ^ 32 →
      ∃ packet, p.encryptAndPack call.payload call.seq call.pathId call.nowUs = .ok packet
  uplink : (t.server.resequencer.delivered.map fun x => x.2.1).Sublist t.client.payloads
  downlink : (t.resequencer.delivered.map Prod.snd).Sublist t.server.router.payloads
  serverNext : ∀ payload now, ∃ b' r' rest,
    t.server.resequencer.put AetherServerProtocol.callback t.server.router
      t.server.resequencer.expectedSeq payload now = some (b', r') ∧
    b'.delivered = t.server.resequencer.delivered
      ++ (t.server.resequencer.expectedSeq, payload) :: rest
  clientNext : ∀ payload now, ∃ b' c' rest,
    t.resequencer.put callback t.client t.resequencer.expectedSeq payload now = some (b', c') ∧
    b'.delivered = t.resequencer.delivered ++ (t.resequencer.expectedSeq, payload) :: rest

theorem InStep.keepsGoing (h : InStep p t) (hclient : SeqsFit t.client.encryptCalls)
    (hserver : SeqsFit t.server.router.encryptCalls) : KeepsGoing p t where
  clientFits := hclient
  serverFits := hserver
  packs call hcall hpos hlt hpath := by
    refine (encryptAndPack_ok_iff p call.payload).mpr ⟨?_, ⟨hpos, hlt⟩, hpath⟩
    exact (List.mem_append.mp hcall).elim (hclient call) (hserver call)
  uplink := h.uplink.delivered.trans (List.take_sublist _ _)
  downlink := h.downlink.delivered.trans (List.take_sublist _ _)
  serverNext payload now := h.ends.server.settled.put_next _ _ payload now
  clientNext payload now := h.ends.settled.put_next _ _ payload now

/-- **Sequence space, and exactly how much of it.** In every run of a client and a server, both
directions keep going if and only if neither end has made more than `2 ^ 32` calls; and every
call beyond that raises. -/
theorem run_keepsGoing_iff (p : AetherProtocol) (hcipher : p.cipher.Correct)
    (activeSockets : List String) (es : List Event) (t : Tunnel)
    (hrun : runFrom (step p) (init activeSockets) es = some t) :
    (KeepsGoing p t ↔ t.client.encryptCalls.length ≤ 2 ^ 32 ∧
        t.server.router.encryptCalls.length ≤ 2 ^ 32) ∧
      ∀ (k : Nat) (call : EncryptCall), 2 ^ 32 ≤ k →
        t.client.encryptCalls[k]? = some call ∨ t.server.router.encryptCalls[k]? = some call →
        p.encryptAndPack call.payload call.seq call.pathId call.nowUs = .error .structError := by
  have h : InStep p t := runFrom_invariant (fun _ _ _ h hstep => h.step hcipher hstep)
    (init_inStep p activeSockets) hrun
  have hclient : Consecutive t.client.encryptCalls := consecutive_of_range h.ends.client.seqs
  have hserver : Consecutive t.server.router.encryptCalls :=
    consecutive_of_range h.ends.server.numbered
  constructor
  · constructor
    · intro hgo
      exact ⟨hclient.seqsFit_iff.mp hgo.clientFits, hserver.seqsFit_iff.mp hgo.serverFits⟩
    · rintro ⟨hc, hs⟩
      exact h.keepsGoing (hclient.seqsFit_iff.mpr hc) (hserver.seqsFit_iff.mpr hs)
  · rintro k call hlarge (hk | hk)
    · exact hclient.raises p hk hlarge
    · exact hserver.raises p hk hlarge

/-- A short run, with one packet of the client. -/
theorem run_keepsGoing_one_packet :
    ∃ t, runFrom (step (.new .checksum [1])) (init ["10.0.0.1"])
        [.client (.accepted ['a'] 80), .client (.replied 0 true ⟨some "10.0.0.1", 0⟩ ⟨none, 0⟩)]
        = some t ∧ t.client.encryptCalls.length = 1 ∧ KeepsGoing (.new .checksum [1]) t := by
  have hlens : (runFrom (step (.new .checksum [1])) (init ["10.0.0.1"])
      [.client (.accepted ['a'] 80),
        .client (.replied 0 true ⟨some "10.0.0.1", 0⟩ ⟨none, 0⟩)]).map
      (fun t => (t.client.encryptCalls.length, t.server.router.encryptCalls.length))
      = some (1, 0) := by decide +kernel
  obtain ⟨t, hrun, heq⟩ := Option.map_eq_some_iff.mp hlens
  obtain ⟨hc, hs⟩ := Prod.mk.inj heq
  refine ⟨t, hrun, hc, (run_keepsGoing_iff _ Aead.checksum_correct _ _ t hrun).1.mpr ⟨?_, ?_⟩⟩
  · rw [hc]
    decide
  · rw [hs]
    decide

end Tunnel

/-! ## A session that sends for long -/

namespace Client.AetherVPNClient

variable {p : AetherProtocol} {c : AetherVPNClient} {n : Nat}

/-- There is one session, its handler is at `pc`, and the next number is `n`. -/
structure SoleSession (pc : HandlerPc) (n : Nat) (c : AetherVPNClient) : Prop where
  handlers : c.handlers = [pc]
  objects : c.objects = [⟨1, true, false, 0⟩]
  activeSockets : c.activeSockets = ["10.0.0.1"]
  nextSeqOut : c.nextSeqOut = n

/-- The handler reads a byte. -/
theorem SoleSession.received (h : SoleSession .reading n c) :
    ∃ c', c.step p (.received 0 [104] ⟨some "10.0.0.1", 0⟩ ⟨none, 0⟩) = some c' ∧
      SoleSession (.pacing [104] "10.0.0.1" 0) n c' := by
  refine ⟨{ c with
    chunks := c.chunks ++ [(0, [104])]
    handlers := [.pacing [104] "10.0.0.1" 0] }, ?_,
    ⟨rfl, h.objects, h.activeSockets, h.nextSeqOut⟩⟩
  simp [step, selectPath, setHandler, h.handlers, h.activeSockets, List.idxOf?,
    List.findIdx?_cons]

/-- The packet with that byte takes the number, which fits or not. -/
theorem SoleSession.paced (h : SoleSession (.pacing [104] "10.0.0.1" 0) n c) :
    ∃ c', c.step p (.paced 0 true 0 ⟨none, 0⟩) = some c' ∧ c'.nextSeqOut = n + 1 ∧
      (n < 2 ^ 32 → SoleSession .sending (n + 1) c') := by
  have hstep : c.step p (.paced 0 true 0 ⟨none, 0⟩) = some (c.sendFrame p 0
      (some (frame 2 1 [104])) 0 "10.0.0.1" 0 .sending ⟨none, 0⟩) := by
    simp [step, h.handlers, sessionId, h.objects, dataPayload, packFrame]
  refine ⟨_, hstep, ?_⟩
  unfold sendFrame sendToVps
  dsimp only
  rw [if_pos (by simp [h.activeSockets])]
  cases hpacket : p.encryptAndPack (frame 2 1 [104]) c.nextSeqOut 0 0 with
  | ok packet =>
      have hnext : c.nextSeqOut + 1 = n + 1 := by rw [h.nextSeqOut]
      refine ⟨hnext, fun _ => ⟨?_, h.objects, h.activeSockets, hnext⟩⟩
      simp [setHandler, h.handlers]
  | error err =>
      refine ⟨by simp [finish, selectPath, setHandler, h.nextSeqOut], fun hn => ?_⟩
      obtain ⟨packet, hok⟩ := (encryptAndPack_ok_iff p (frame 2 1 [104])).mpr
        ⟨show c.nextSeqOut < 2 ^ 32 by rwa [h.nextSeqOut], ⟨le_refl (0 : Int), by decide⟩,
          show 0 < 2 ^ 32 by decide⟩
      rw [hok] at hpacket
      cases hpacket

/-- The packet is out, and the handler reads on. -/
theorem SoleSession.sent (h : SoleSession .sending n c) :
    ∃ c', c.step p (.sent 0 ⟨none, 0⟩) = some c' ∧ SoleSession .reading n c' := by
  refine ⟨{ c with handlers := [.reading] }, ?_, ⟨rfl, h.objects, h.activeSockets, h.nextSeqOut⟩⟩
  simp [step, h.handlers, loop, isActive, h.objects, setHandler]

/-- The session has been opened, and its CONNECT packet is out. -/
theorem run_opened : ∃ es c, runFrom (AetherVPNClient.step (.new .checksum [1]))
      (init ["10.0.0.1"]) es = some c ∧ (∀ e ∈ es, ∀ payload, e ≠ .deliver payload) ∧
    SoleSession .reading 1 c := by
  have hopened : (runFrom (AetherVPNClient.step (.new .checksum [1])) (init ["10.0.0.1"])
      [.accepted ['a'] 80, .replied 0 true ⟨some "10.0.0.1", 0⟩ ⟨none, 0⟩,
        .sent 0 ⟨none, 0⟩]).map
      (fun c => (c.handlers, c.objects, c.activeSockets, c.nextSeqOut))
      = some ([.reading], [⟨1, true, false, 0⟩], ["10.0.0.1"], 1) := by decide +kernel
  obtain ⟨c, hrun, heq⟩ := Option.map_eq_some_iff.mp hopened
  simp only [Prod.mk.injEq] at heq
  obtain ⟨hhandlers, hobjects, hactive, hseq⟩ := heq
  exact ⟨_, c, hrun, by simp, ⟨hhandlers, hobjects, hactive, hseq⟩⟩

/-- The session sends as many packets as there are numbers. -/
theorem run_relays {n : Nat} (hpos : 1 ≤ n) (hn : n ≤ 2 ^ 32) :
    ∃ es c, runFrom (AetherVPNClient.step (.new .checksum [1])) (init ["10.0.0.1"]) es = some c ∧
      (∀ e ∈ es, ∀ payload, e ≠ .deliver payload) ∧ SoleSession .reading n c := by
  induction n, hpos using Nat.le_induction with
  | base => exact run_opened
  | succ n _ ih =>
      obtain ⟨es, c, hrun, hown, h⟩ := ih (by omega)
      obtain ⟨c₁, hstep₁, h₁⟩ := h.received
      obtain ⟨c₂, hstep₂, -, h₂⟩ := h₁.paced
      obtain ⟨c₃, hstep₃, h₃⟩ := (h₂ (by omega)).sent
      have hrun₃ := runFrom_concat (runFrom_concat (runFrom_concat hrun hstep₁) hstep₂) hstep₃
      refine ⟨_, c₃, hrun₃, ?_, h₃⟩
      simpa [or_imp, forall_and] using hown

/-- The packet after these takes a number that does not fit. -/
theorem run_exhausts :
    ∃ es c, runFrom (AetherVPNClient.step (.new .checksum [1])) (init ["10.0.0.1"]) es = some c ∧
      (∀ e ∈ es, ∀ payload, e ≠ .deliver payload) ∧ c.nextSeqOut = 2 ^ 32 + 1 := by
  obtain ⟨es, c, hrun, hown, h⟩ := run_relays (n := 2 ^ 32) (by decide) le_rfl
  obtain ⟨c₁, hstep₁, h₁⟩ := h.received
  obtain ⟨c₂, hstep₂, hseq, -⟩ := h₁.paced
  refine ⟨_, c₂, runFrom_concat (runFrom_concat hrun hstep₁) hstep₂, ?_, hseq⟩
  simpa [or_imp, forall_and] using hown

end Client.AetherVPNClient

namespace Tunnel

/-- A run of the client alone, with nothing from the server. -/
theorem run_client {p : AetherProtocol} {t : Tunnel} {es : List AetherVPNClient.Event}
    {c : AetherVPNClient} (hown : ∀ e ∈ es, ∀ payload, e ≠ .deliver payload)
    (hrun : runFrom (AetherVPNClient.step p) t.client es = some c) :
    runFrom (step p) t (es.map .client) = some { t with client := c } := by
  induction es generalizing t with
  | nil =>
      obtain rfl : t.client = c := Option.some.inj hrun
      rfl
  | cons e es ih =>
      obtain ⟨c₁, hstep, hrest⟩ := runFrom_cons_eq_some.mp hrun
      have htunnel : t.step p (.client e) = some { t with client := c₁ } := by
        cases e with
        | deliver payload => exact absurd rfl (hown _ List.mem_cons_self payload)
        | _ => exact congrArg (Option.map fun c => { t with client := c }) hstep
      exact runFrom_cons_eq_some.mpr ⟨{ t with client := c₁ }, htunnel,
        ih (fun e he => hown e (List.mem_cons_of_mem _ he)) hrest⟩

/-- Once the session has sent `2 ^ 32` frames, the next one is numbered `2 ^ 32`. -/
theorem sequence_space_exhausted :
    ¬ ∀ (p : AetherProtocol) (activeSockets : List String) (es : List Event) (t : Tunnel),
      p.cipher.Correct → runFrom (step p) (init activeSockets) es = some t → KeepsGoing p t := by
  intro hall
  obtain ⟨es, c, hclient, hown, hseq⟩ := AetherVPNClient.run_exhausts
  have hrun := run_client (t := init ["10.0.0.1"]) hown hclient
  have hgo := hall _ _ _ _ Aead.checksum_correct hrun
  have hend : InStep (.new .checksum [1]) { init ["10.0.0.1"] with client := c } :=
    runFrom_invariant (fun _ _ _ h hstep => h.step Aead.checksum_correct hstep)
      (init_inStep _ _) hrun
  -- the calls are as many as the numbers taken
  have hlen : c.encryptCalls.length = 2 ^ 32 + 1 := by
    have hmap := congrArg List.length hend.ends.client.seqs
    rwa [List.length_map, List.length_range, hseq] at hmap
  have hle := (consecutive_of_range hend.ends.client.seqs).seqsFit_iff.mp hgo.clientFits
  rw [hlen] at hle
  omega

end Tunnel

end AetherBond
