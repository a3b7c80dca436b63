import AetherBond.Client.VpnOrder
import AetherBond.Tunnel.Exhaustion
import AetherBond.Tunnel.RelayOrder

set_option autoImplicit false

/-! # Who gets which sequence number

Each end counts its calls of `encrypt_and_pack`, and each call makes a packet unless it raises. So
the numbers are 0, 1, 2, … in any case, and along them each session of the client sends its frames
and each session of the server the chunks it has read, in order; but a number is used by a packet
exactly if the header has room for it (`run_allocated_iff`).
-/

namespace AetherBond

open AetherBond.Lib AetherBond.Common AetherBond.Client AetherBond.Server

namespace Common.EncryptCall

/-- The packet the call makes; `none` if it raises. -/
def packet? (p : AetherProtocol) (call : EncryptCall) : Option Bytes :=
  (p.encryptAndPack call.payload call.seq call.pathId call.nowUs).toOption

/-- The session of a frame. -/
def sessionId? (call : EncryptCall) : Option Nat := (splitFrame call.payload).map fun x => x.2.1

theorem packet?_isSome_iff (p : AetherProtocol) (call : EncryptCall) :
    (call.packet? p).isSome ↔ call.Fits := by
  have hok :
      (∃ packet, p.encryptAndPack call.payload call.seq call.pathId call.nowUs = .ok packet) ↔
        Packable call.seq call.nowUs call.pathId := encryptAndPack_ok_iff p call.payload
  unfold packet? Fits
  rw [← hok]
  cases p.encryptAndPack call.payload call.seq call.pathId call.nowUs <;> simp [Except.toOption]

end Common.EncryptCall

/-! ## Calls and packets -/

/-- The numbers of one end are 0, 1, 2, …, and the `k`-th packet is the one with number `k`. -/
structure Allocates (p : AetherProtocol) (calls : List EncryptCall) (next : Nat)
    (packets : List Bytes) : Prop where
  numbers : calls.map EncryptCall.seq = List.range next
  packets : calls.map (EncryptCall.packet? p) = packets.map some

/-- The packets of the calls that do not raise are those of all calls if none raises. -/
theorem map_packet?_eq_iff (p : AetherProtocol) (calls : List EncryptCall) :
    calls.map (EncryptCall.packet? p) = (calls.filterMap (EncryptCall.packet? p)).map some ↔
      ∀ call ∈ calls, call.Fits := by
  constructor
  · intro heq call hcall
    have hin : call.packet? p ∈ (calls.filterMap (EncryptCall.packet? p)).map some := by
      rw [← heq]
      exact List.mem_map_of_mem hcall
    obtain ⟨packet, -, hpacket⟩ := List.mem_map.mp hin
    rw [← EncryptCall.packet?_isSome_iff p, ← hpacket]
    rfl
  · intro hfits
    induction calls with
    | nil => rfl
    | cons call calls ih =>
        obtain ⟨packet, hpacket⟩ := Option.isSome_iff_exists.mp
          ((EncryptCall.packet?_isSome_iff p call).mpr (hfits call List.mem_cons_self))
        rw [List.map_cons, List.filterMap_cons_some hpacket, List.map_cons, hpacket,
          ih fun call' hcall' => hfits call' (List.mem_cons_of_mem _ hcall')]

theorem filterMap_packet?_concat (p : AetherProtocol) (calls : List EncryptCall)
    (call : EncryptCall) : (calls ++ [call]).filterMap (EncryptCall.packet? p) =
      calls.filterMap (EncryptCall.packet? p) ++ (call.packet? p).toList := by
  rw [List.filterMap_append]
  cases hpacket : call.packet? p with
  | none => rw [List.filterMap_cons_none hpacket]; rfl
  | some packet => rw [List.filterMap_cons_some hpacket]; rfl

/-- Some of the calls, in order, have increasing numbers. -/
theorem seqs_increasing {calls some' : List EncryptCall} {n : Nat}
    (hseqs : calls.map EncryptCall.seq = List.range n) (hsub : some'.Sublist calls) :
    (some'.map EncryptCall.seq).Pairwise (· < ·) := by
  have hrange := hsub.map EncryptCall.seq
  rw [hseqs] at hrange
  exact List.pairwise_lt_range.sublist hrange

/-! ## The client -/

namespace Client.AetherVPNClient

variable {p : AetherProtocol} {c c' : AetherVPNClient}

/-- The datagrams are the packets of the calls. -/
def Packed (p : AetherProtocol) (c : AetherVPNClient) : Prop :=
  c.datagrams = c.encryptCalls.filterMap (EncryptCall.packet? p)

theorem Packed.congr (h : Packed p c) (hs : c.SentSame c') : Packed p c' := by
  unfold Packed
  rw [hs.datagrams, hs.encryptCalls]
  exact h

theorem packed_stable (p : AetherProtocol) : Stable p (Packed p) where
  setHandler h _ _ := h
  chunk _ _ h := h
  send := by
    intro c payload pathId interfaceIp nowUs h _
    have hnew : ∀ payload, (c.encryptCalls ++
        [(⟨payload, c.nextSeqOut, pathId, nowUs⟩ : EncryptCall)]).filterMap
          (EncryptCall.packet? p) = c.datagrams ++
          (p.encryptAndPack payload c.nextSeqOut pathId nowUs).toOption.toList := by
      intro payload
      rw [filterMap_packet?_concat, ← h]
      rfl
    unfold sendToVps
    split
    · exact h
    -- the number is taken whether or not there is a packet
    · next bytes _ =>
        split_ifs
        · have hcalls := hnew bytes
          dsimp only
          split
          · next packet hok =>
              rw [hok] at hcalls
              exact hcalls.symm
          · next err herr =>
              rw [herr] at hcalls
              exact (hcalls.trans (List.append_nil _)).symm
        · exact h
  unregister := by
    intro c h' pc h _
    have hpop : Packed p { c with sessions := c.sessions.pop (c.sessionId h') } := h
    have hclosed := hpop.congr (closeWriter_sentSame _ h' false)
    exact hclosed

theorem Packed.step (h : Packed p c) {e : Event} (hstep : c.step p e = some c') : Packed p c' := by
  cases e with
  | accepted dstAddr dstPort =>
      obtain rfl := Option.some.inj hstep
      exact h
  | deliver payload => exact h.congr (step_sentSame hstep (Or.inl ⟨payload, rfl⟩))
  | startWrite outcome => exact h.congr (step_sentSame hstep (Or.inr (Or.inl ⟨outcome, rfl⟩)))
  | drained i ok => exact h.congr (step_sentSame hstep (Or.inr (Or.inr ⟨i, ok, rfl⟩)))
  | stop =>
      obtain rfl := Option.some.inj hstep
      have hclosed : Packed p { c with activeSockets := [] } := h
      exact hclosed.congr (stop_sentSame c)
  | _ => exact (packed_stable p).step h hstep (by simp) (by simp) (by simp) (by simp) (by simp)

/-- The sessions send in order: CONNECT, DATA as read, CLOSE, with increasing numbers. -/
structure SendsInOrder (c : AetherVPNClient) (h : Nat) : Prop where
  frames : InOrder (commandsFor (h + 1) c)
  data : sentFor (h + 1) c <+: bodiesFor h c.chunks
  increasing : ((c.encryptCalls.filter fun call => call.sessionId? = some (h + 1)).map
    EncryptCall.seq).Pairwise (· < ·)

/-- What the client does in every run. -/
structure Sender (p : AetherProtocol) (c : AetherVPNClient) : Prop where
  ids : c.Ids
  numbered : Numbered p c
  packed : Packed p c
  phase : ∀ h, Phase h c
  relaying : ∀ h, Relaying h c

theorem sender_of_run {activeSockets : List String} {es : List Event}
    (hrun : runFrom (AetherVPNClient.step p) (init activeSockets) es = some c) : Sender p c := by
  have hinit : Sender p (init activeSockets) :=
    ⟨init_ids activeSockets, init_numbered p activeSockets, rfl,
      fun h => init_phase h activeSockets, fun h => init_relaying h activeSockets⟩
  have hstep : ∀ (c : AetherVPNClient) (e : Event) (c' : AetherVPNClient), Sender p c →
      c.step p e = some c' → Sender p c' := fun _ _ _ hc hs =>
    ⟨hc.ids.step hs, hc.numbered.step hs, hc.packed.step hs, fun h => (hc.phase h).step hc.ids hs,
      fun h => (hc.relaying h).step hc.ids hs⟩
  exact runFrom_invariant hstep hinit hrun

theorem Sender.inOrder (hc : Sender p c) (h : Nat) : SendsInOrder c h where
  frames := (hc.phase h).inOrder
  data := (hc.relaying h).sent
  increasing := seqs_increasing hc.numbered.seqs List.filter_sublist

theorem Sender.allocates_iff (hc : Sender p c) :
    Allocates p c.encryptCalls c.nextSeqOut c.datagrams ↔ ∀ call ∈ c.encryptCalls, call.Fits := by
  rw [← map_packet?_eq_iff p, ← hc.packed]
  exact ⟨fun h => h.packets, fun h => ⟨hc.numbered.seqs, h⟩⟩

end Client.AetherVPNClient

/-! ## The server -/

namespace Server.Router

variable {p : AetherProtocol} {r r' : Router}

/-- The responses are the packets of the calls. -/
def Packed (p : AetherProtocol) (r : Router) : Prop :=
  r.responses.map Prod.fst = r.encryptCalls.filterMap (EncryptCall.packet? p)

theorem packed_invariant (p : AetherProtocol) :
    Router.Invariant p (fun _ => True) (fun _ => True) (Router.Packed p) where
  tasks _ _ _ h _ _ := h
  object _ _ h _ _ := h
  make h _ := h
  pop _ h := h
  clear h := h
  sendBack := by
    intro r o s data isClose nowUs h _
    have hcalls : (r.encryptCalls ++ [(⟨frame (if isClose then 3 else 2) s.sessionId data,
        r.nextSeqOut, s.pathId, nowUs⟩ : EncryptCall)]).filterMap (EncryptCall.packet? p) =
          r.responses.map Prod.fst ++ (p.encryptAndPack (frame (if isClose then 3 else 2)
            s.sessionId data) r.nextSeqOut s.pathId nowUs).toOption.toList := by
      rw [filterMap_packet?_concat, ← h]
      rfl
    unfold Router.sendBackToClient
    dsimp only
    cases hpack : p.encryptAndPack (frame (if isClose then 3 else 2) s.sessionId data)
      r.nextSeqOut s.pathId nowUs with
    | ok packet =>
        rw [hpack] at hcalls
        exact (List.map_append).trans hcalls.symm
    | error err =>
        rw [hpack] at hcalls
        exact (hcalls.trans (List.append_nil _)).symm
  sends _ _ h _ := h
  starts h _ := h
  started _ h := h

/-- The sessions respond in order: the chunks as read, with increasing numbers. -/
structure RespondsInOrder (r : Router) (reads nums : List (Nat × Bytes)) : Prop where
  /-- The `n`-th call is of the `n`-th chunk. -/
  calls : List.Forall₂ (fun call x =>
    ∃ s, r.objects[x.1]? = some s ∧ call.payload = frame 2 s.sessionId x.2) r.encryptCalls nums
  data : ∀ o, bodiesFor o nums <+: bodiesFor o reads
  increasing : ∀ o, (((r.encryptCalls.zip nums).filter fun x => x.2.1 = o).map
    fun x => x.1.seq).Pairwise (· < ·)

theorem Ordered.respondsInOrder {reads nums : List (Nat × Bytes)} (h : r.Ordered reads nums)
    (hseqs : r.Numbered) : r.RespondsInOrder reads nums where
  calls := by
    refine (RelayInv.calls h).imp fun call x => ?_
    rintro ⟨k, hk, hpayload⟩
    rw [List.getElem?_map] at hk
    obtain ⟨s, hs, rfl⟩ := Option.map_eq_some_iff.mp hk
    exact ⟨s, hs, hpayload⟩
  data := RelayInv.numbered h
  increasing o := by
    have hfst : (r.encryptCalls.zip nums).map Prod.fst = r.encryptCalls :=
      List.map_fst_zip (RelayInv.calls h).length_eq.le
    have hsub : (((r.encryptCalls.zip nums).filter fun x => x.2.1 = o).map Prod.fst).Sublist
        r.encryptCalls := by
      have hfilter := (List.filter_sublist (l := r.encryptCalls.zip nums)
        (p := fun x => x.2.1 = o)).map Prod.fst
      rwa [hfst] at hfilter
    have hpairs := seqs_increasing hseqs hsub
    rwa [List.map_map] at hpairs

theorem allocates_of_run {es : List Event} (hrun : runFrom (Router.step p) init es = some r) :
    r.Numbered ∧ (Allocates p r.encryptCalls r.nextSeqOut (r.responses.map Prod.fst) ↔
      ∀ call ∈ r.encryptCalls, call.Fits) := by
  have hstep : ∀ (r : Router) (e : Event) (r' : Router), r.Numbered ∧ r.Packed p →
      r.step p e = some r' → r'.Numbered ∧ r'.Packed p := fun r e r' h hs =>
    ⟨(numbered_invariant p).step h.1 hs (fun _ _ => h.1) (fun _ _ _ _ => trivial)
        fun _ _ _ _ _ _ => trivial,
      (packed_invariant p).step h.2 hs (fun _ _ => h.2) (fun _ _ _ _ => trivial)
        fun _ _ _ _ _ _ => trivial⟩
  have hinit : init.Numbered ∧ init.Packed p := ⟨rfl, rfl⟩
  obtain ⟨hnumbered, hpacked⟩ := runFrom_invariant hstep hinit hrun
  refine ⟨hnumbered, ?_⟩
  rw [← map_packet?_eq_iff p, ← hpacked]
  exact ⟨fun h => h.packets, fun h => ⟨hnumbered, h⟩⟩

end Server.Router

/-! ## Both ends -/

namespace Tunnel

/-- The numbers of both ends are 0, 1, 2, …, each used by one packet, and along them every session
sends in order. -/
structure Allocated (p : AetherProtocol) (c : AetherVPNClient) (r : Router)
    (reads nums : List (Nat × Bytes)) : Prop where
  client : Allocates p c.encryptCalls c.nextSeqOut c.datagrams
  clientOrder : ∀ h, c.SendsInOrder h
  server : Allocates p r.encryptCalls r.nextSeqOut (r.responses.map Prod.fst)
  serverOrder : r.RespondsInOrder reads nums

/-- The clock reading and the path of a call fit the header. -/
def TimeAndPathFit (call : EncryptCall) : Prop :=
  (0 ≤ call.nowUs ∧ call.nowUs < 2 ^ 64) ∧ call.pathId < 2 ^ 32

instance (call : EncryptCall) : Decidable (TimeAndPathFit call) :=
  inferInstanceAs (Decidable (_ ∧ _))

theorem fits_iff {calls : List EncryptCall} {n : Nat}
    (hseqs : calls.map EncryptCall.seq = List.range n) :
    (∀ call ∈ calls, call.Fits) ↔
      calls.length ≤ 2 ^ 32 ∧ ∀ call ∈ calls, TimeAndPathFit call := by
  rw [← (consecutive_of_range hseqs).seqsFit_iff]
  exact ⟨fun h => ⟨fun call hcall => (h call hcall).1, fun call hcall => (h call hcall).2⟩,
    fun h call hcall => ⟨h.1 call hcall, h.2 call hcall⟩⟩

/-- **Sequence allocation, and exactly when it holds.** In every run of a client and every run of a
router, with any number of sessions and any order of their steps, the sessions send in order; and
the numbers are used by one packet each if and only if neither end takes more than `2 ^ 32` of them
and the times and paths fit the header. -/
theorem run_allocated_iff (p : AetherProtocol) (activeSockets : List String)
    (es : List AetherVPNClient.Event) (c : AetherVPNClient)
    (hclient : runFrom (AetherVPNClient.step p) (.init activeSockets) es = some c)
    (es' : List Router.Event) (r : Router)
    (hserver : runFrom (Router.step p) .init es' = some r) :
    Allocated p c r (observe (Router.step p) Router.chunkRead .init es')
        (observe (Router.step p) Router.chunkNumbered .init es') ↔
      (c.encryptCalls.length ≤ 2 ^ 32 ∧ ∀ call ∈ c.encryptCalls, TimeAndPathFit call) ∧
        r.encryptCalls.length ≤ 2 ^ 32 ∧ ∀ call ∈ r.encryptCalls, TimeAndPathFit call := by
  have hsender := AetherVPNClient.sender_of_run hclient
  obtain ⟨hnumbered, hallocates⟩ := Router.allocates_of_run hserver
  have hordered := Router.ordered_of_run hserver
  rw [← fits_iff hsender.numbered.seqs, ← fits_iff hnumbered, ← hsender.allocates_iff, ← hallocates]
  -- the order of the sessions does not depend on the bound
  constructor
  · exact fun h => ⟨h.client, h.server⟩
  · exact fun ⟨hc, hr⟩ => ⟨hc, hsender.inOrder, hr, hordered.respondsInOrder hnumbered⟩

/-- Two sessions of the client, and a session of the server that responds twice. -/
theorem run_allocated_interleaved :
    ∃ c r, runFrom (AetherVPNClient.step (.new .checksum [1])) (.init ["10.0.0.1"])
        [.accepted ['a'] 80, .accepted ['b'] 80,
          .replied 1 true ⟨some "10.0.0.1", 5⟩ ⟨none, 0⟩,
          .replied 0 true ⟨some "10.0.0.1", 6⟩ ⟨none, 0⟩] = some c ∧
      runFrom (Router.step (.new .checksum [1])) .init
        [.deliver (frame 1 7 [1, 0, 80, 97], ("10.0.0.1", 4000), 0), .start .done true,
          .opened 0 true, .relayData 1 [104] 5, .relayData 1 [105] 6] = some r ∧
      Allocated (.new .checksum [1]) c r
        (observe (Router.step (.new .checksum [1])) Router.chunkRead .init
          [.deliver (frame 1 7 [1, 0, 80, 97], ("10.0.0.1", 4000), 0), .start .done true,
            .opened 0 true, .relayData 1 [104] 5, .relayData 1 [105] 6])
        (observe (Router.step (.new .checksum [1])) Router.chunkNumbered .init
          [.deliver (frame 1 7 [1, 0, 80, 97], ("10.0.0.1", 4000), 0), .start .done true,
            .opened 0 true, .relayData 1 [104] 5, .relayData 1 [105] 6]) := by
  have hclient : ∃ c ∈ runFrom (AetherVPNClient.step (.new .checksum [1])) (.init ["10.0.0.1"])
      [.accepted ['a'] 80, .accepted ['b'] 80,
        .replied 1 true ⟨some "10.0.0.1", 5⟩ ⟨none, 0⟩,
        .replied 0 true ⟨some "10.0.0.1", 6⟩ ⟨none, 0⟩],
      c.encryptCalls.length ≤ 2 ^ 32 ∧ ∀ call ∈ c.encryptCalls, TimeAndPathFit call := by
    decide +kernel
  have hserver : ∃ r ∈ runFrom (Router.step (.new .checksum [1])) .init
      [.deliver (frame 1 7 [1, 0, 80, 97], ("10.0.0.1", 4000), 0), .start .done true,
        .opened 0 true, .relayData 1 [104] 5, .relayData 1 [105] 6],
      r.encryptCalls.length ≤ 2 ^ 32 ∧ ∀ call ∈ r.encryptCalls, TimeAndPathFit call := by
    decide +kernel
  obtain ⟨c, hc, hfits⟩ := hclient
  obtain ⟨r, hr, hfits'⟩ := hserver
  exact ⟨c, r, hc, hr, (run_allocated_iff _ _ _ c hc _ r hr).mpr ⟨hfits, hfits'⟩⟩

/-- One session of the client takes the number `2 ^ 32`, and no packet has it. -/
theorem number_without_packet :
    ¬ ∀ (p : AetherProtocol) (activeSockets : List String) (es : List AetherVPNClient.Event)
      (c : AetherVPNClient) (es' : List Router.Event) (r : Router),
      runFrom (AetherVPNClient.step p) (.init activeSockets) es = some c →
      runFrom (Router.step p) .init es' = some r →
      Allocated p c r (observe (Router.step p) Router.chunkRead .init es')
        (observe (Router.step p) Router.chunkNumbered .init es') := by
  intro hall
  obtain ⟨es, c, hclient, -, hseq⟩ := AetherVPNClient.run_exhausts
  have hallocated := hall _ _ es c [] .init hclient rfl
  have hsender := AetherVPNClient.sender_of_run hclient
  -- the numbers are counted, so there has been one call too many
  have hlen : c.encryptCalls.length = 2 ^ 32 + 1 := by
    have hmap := congrArg List.length hsender.numbered.seqs
    rwa [List.length_map, List.length_range, hseq] at hmap
  have hle := ((fits_iff hsender.numbered.seqs).mp
    (hsender.allocates_iff.mp hallocated.client)).1
  rw [hlen] at hle
  omega

end Tunnel

end AetherBond
