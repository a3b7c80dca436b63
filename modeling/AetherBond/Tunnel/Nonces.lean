import AetherBond.Server.RouterSteps
import AetherBond.Tunnel.System

set_option autoImplicit false

/-! # Nonces of the two ends

Client and server encrypt under one key and both count from 0. The nonce is the sequence number
and the clock reading, so the calls of one end have distinct nonces, and the two calls with the
same number, one of each end, have distinct nonces exactly when their clocks read differently
(`run_nonces_nodup_iff`).
-/

namespace AetherBond

open AetherBond.Lib AetherBond.Common AetherBond.Client AetherBond.Server

/-! ## The nonce of a call -/

namespace Common.EncryptCall

/-- The nonce the call gives to the cipher; `none` if the header or the nonce does not pack. -/
def nonce? (call : EncryptCall) : Option Bytes :=
  match packHeader call.seq call.nowUs call.pathId with
  | .error _ => none
  | .ok _ => (packNonce call.seq call.nowUs).toOption

/-- The fields of the call fit the header. -/
def Fits (call : EncryptCall) : Prop := Packable call.seq call.nowUs call.pathId

instance (call : EncryptCall) : Decidable call.Fits := inferInstanceAs (Decidable (Packable _ _ _))

variable {call call' : EncryptCall}

theorem nonce?_of_fits (h : call.Fits) :
    call.nonce? = some (toBE 4 call.seq ++ toBE 8 call.nowUs.toNat) := by
  unfold nonce?
  rw [packHeader_of_packable h, packNonce_of_packable h]
  rfl

theorem nonce?_of_not_fits (h : ¬ call.Fits) : call.nonce? = none := by
  unfold nonce?
  rw [packHeader_of_not_packable h]

theorem fits_of_nonce? {nonce : Bytes} (h : call.nonce? = some nonce) : call.Fits := by
  by_contra hno
  rw [nonce?_of_not_fits hno] at h
  cases h

/-- Number and clock reading can be read off the nonce. -/
theorem nonce?_eq_iff (h : call.Fits) (h' : call'.Fits) :
    call.nonce? = call'.nonce? ↔ call.seq = call'.seq ∧ call.nowUs = call'.nowUs := by
  rw [nonce?_of_fits h, nonce?_of_fits h']
  obtain ⟨hseq, ⟨hpos, hlt⟩, -⟩ := h
  obtain ⟨hseq', ⟨hpos', hlt'⟩, -⟩ := h'
  constructor
  · intro heq
    have hbytes := Option.some.inj heq
    obtain ⟨h₁, h₂⟩ := append_toBE_inj (by omega) (by omega) hbytes
    have h₃ : call.nowUs.toNat = call'.nowUs.toNat := toBE_inj (by omega) (by omega) h₂
    exact ⟨h₁, by omega⟩
  · rintro ⟨h₁, h₂⟩
    rw [h₁, h₂]

end Common.EncryptCall

/-! ## One end -/

/-- Calls that are numbered 0, 1, 2, … -/
def Consecutive (calls : List EncryptCall) : Prop :=
  calls.map EncryptCall.seq = List.range calls.length

theorem Consecutive.seq {calls : List EncryptCall} (h : Consecutive calls) {k : Nat}
    {call : EncryptCall} (hk : calls[k]? = some call) : call.seq = k := by
  obtain ⟨hlt, -⟩ := List.getElem?_eq_some_iff.mp hk
  have hmap : (calls.map EncryptCall.seq)[k]? = some call.seq := by
    rw [List.getElem?_map, hk]
    rfl
  rw [h, List.getElem?_range hlt] at hmap
  exact (Option.some.inj hmap).symm

/-- The frame of a call stands at its number. -/
theorem payload_at_seq {calls : List EncryptCall} {n : Nat}
    (hseqs : calls.map EncryptCall.seq = List.range n) {call : EncryptCall} (hcall : call ∈ calls) :
    (calls.map EncryptCall.payload)[call.seq]? = some call.payload := by
  obtain ⟨i, hi⟩ := List.mem_iff_getElem?.mp hcall
  have hseq : (calls.map EncryptCall.seq)[i]? = some call.seq := by
    rw [List.getElem?_map, hi]
    rfl
  rw [hseqs] at hseq
  obtain ⟨hlt, heq⟩ := List.getElem?_eq_some_iff.mp hseq
  rw [List.getElem_range] at heq
  rw [List.getElem?_map, ← heq, hi]
  rfl

theorem Consecutive.nonces_nodup {calls : List EncryptCall} (h : Consecutive calls) :
    (calls.filterMap EncryptCall.nonce?).Nodup := by
  have hseqs : calls.Pairwise fun a b => a.seq ≠ b.seq := by
    have hnd : (calls.map EncryptCall.seq).Nodup := by
      rw [h]
      exact List.nodup_range
    exact List.pairwise_map.mp hnd
  rw [List.Nodup, List.pairwise_filterMap]
  refine hseqs.imp fun hne nonce hnonce nonce' hnonce' heq => hne ?_
  rw [heq] at hnonce
  exact ((EncryptCall.nonce?_eq_iff (EncryptCall.fits_of_nonce? hnonce)
    (EncryptCall.fits_of_nonce? hnonce')).mp (hnonce.trans hnonce'.symm)).1

/-- The server's numbers. -/
def Server.Router.Numbered (r : Router) : Prop :=
  r.encryptCalls.map EncryptCall.seq = List.range r.nextSeqOut

theorem Server.Router.numbered_invariant (p : AetherProtocol) :
    Router.Invariant p (fun _ => True) (fun _ => True) Router.Numbered where
  tasks _ _ _ h _ _ := h
  object _ _ h _ _ := h
  make h _ := h
  pop _ h := h
  clear h := h
  sendBack := by
    intro r o s data isClose nowUs h _
    have hnew : ∀ call : EncryptCall, call.seq = r.nextSeqOut →
        (r.encryptCalls ++ [call]).map EncryptCall.seq = List.range (r.nextSeqOut + 1) := by
      intro call hcall
      rw [List.map_append, h, List.range_succ, List.map_singleton, hcall]
    obtain ⟨responses, heq⟩ :=
      Router.sendBackToClient_frame (p := p) r s.sessionId data s.clientAddr s.pathId isClose nowUs
    rw [heq]
    exact hnew _ rfl
  sends _ _ h _ := h
  starts h _ := h
  started _ h := h

theorem consecutive_of_range {calls : List EncryptCall} {n : Nat}
    (h : calls.map EncryptCall.seq = List.range n) : Consecutive calls := by
  have hlen : calls.length = n := by
    have := congrArg List.length h
    rwa [List.length_map, List.length_range] at this
  unfold Consecutive
  rw [hlen]
  exact h

/-! ## Both ends -/

namespace Tunnel

variable {p : AetherProtocol} {t t' : Tunnel} {e : Event}

/-- Both ends count their calls. -/
structure Counting (p : AetherProtocol) (t : Tunnel) : Prop where
  settled : t.Settled
  client : t.client.Numbered p
  server : t.server.router.Numbered

theorem init_counting (p : AetherProtocol) (activeSockets : List String) :
    Counting p (init activeSockets) :=
  ⟨init_settled activeSockets, AetherVPNClient.init_numbered p activeSockets, rfl⟩

theorem Counting.step (h : Counting p t) (hstep : t.step p e = some t') : Counting p t' := by
  refine ⟨h.settled.step hstep,
    client_invariant (fun _ _ _ hc hs => hc.step hs) h.settled h.client hstep, ?_⟩
  have hrouter : ∀ (r : Router) (e : Router.Event) (r' : Router), r.Numbered →
      Router.step p r e = some r' → r'.Numbered := fun r e r' hr hs =>
    (Router.numbered_invariant p).step hr hs (fun _ _ => hr) (fun _ _ _ _ => trivial)
      fun _ _ _ _ _ _ => trivial
  rcases step_cases hstep with rfl | ⟨_, -, -, -, hser⟩ | ⟨_, -, hser⟩ | ⟨_, -, -, hser, -, -⟩
  · exact h.server
  · exact hser ▸ h.server
  · exact hser ▸ h.server
  · exact AetherServerProtocol.router_invariant hrouter h.settled.2 h.server hser

/-- **Nonce uniqueness, and exactly when.** In every run of a client and a server with one key,
no nonce is used twice if and only if, for no `k`, the `k`-th call of the client and the `k`-th
call of the server, both with fields that fit the header, read the same time. -/
theorem run_nonces_nodup_iff (p : AetherProtocol) (activeSockets : List String)
    (es : List Event) (t : Tunnel) (hrun : runFrom (step p) (init activeSockets) es = some t) :
    ((t.client.encryptCalls ++ t.server.router.encryptCalls).filterMap
        EncryptCall.nonce?).Nodup ↔
      ∀ (k : Nat) (a b : EncryptCall), t.client.encryptCalls[k]? = some a →
        t.server.router.encryptCalls[k]? = some b → a.Fits → b.Fits → a.nowUs ≠ b.nowUs := by
  have h : Counting p t := runFrom_invariant (fun _ _ _ h hstep => h.step hstep)
    (init_counting p activeSockets) hrun
  have hclient : Consecutive t.client.encryptCalls := consecutive_of_range h.client.seqs
  have hserver : Consecutive t.server.router.encryptCalls := consecutive_of_range h.server
  rw [List.filterMap_append, List.nodup_append]
  constructor
  · rintro ⟨-, -, hdisjoint⟩ k a b ha hb hfa hfb hnow
    have heq : a.nonce? = b.nonce? :=
      (EncryptCall.nonce?_eq_iff hfa hfb).mpr ⟨(hclient.seq ha).trans (hserver.seq hb).symm, hnow⟩
    have hna := EncryptCall.nonce?_of_fits hfa
    refine hdisjoint _ (List.mem_filterMap.mpr ⟨a, List.mem_of_getElem? ha, hna⟩) _
      (List.mem_filterMap.mpr ⟨b, List.mem_of_getElem? hb, heq.symm.trans hna⟩) rfl
  · intro hapart
    refine ⟨hclient.nonces_nodup, hserver.nonces_nodup, ?_⟩
    rintro nonce hin nonce' hin' rfl
    obtain ⟨a, ha, hna⟩ := List.mem_filterMap.mp hin
    obtain ⟨b, hb, hnb⟩ := List.mem_filterMap.mp hin'
    obtain ⟨k, hk⟩ := List.mem_iff_getElem?.mp ha
    obtain ⟨j, hj⟩ := List.mem_iff_getElem?.mp hb
    have hfa := EncryptCall.fits_of_nonce? hna
    have hfb := EncryptCall.fits_of_nonce? hnb
    obtain ⟨hseq, hnow⟩ := (EncryptCall.nonce?_eq_iff hfa hfb).mp (hna.trans hnb.symm)
    obtain rfl : k = j := (hclient.seq hk).symm.trans (hseq.trans (hserver.seq hj))
    exact hapart k a b hk hj hfa hfb hnow

/-- A CONNECT at 5 µs, answered by a chunk at 6 µs. -/
theorem run_nonces_nodup_apart :
    ∃ t, runFrom (step (.new .checksum [1])) (init ["10.0.0.1"])
        [.client (.accepted ['a'] 80), .client (.replied 0 true ⟨some "10.0.0.1", 5⟩ ⟨none, 0⟩),
          .uplink 0 ("192.0.2.1", 9), .server (.handle 0 0),
          .server (.router (.start .done true)), .server (.router (.opened 0 true)),
          .server (.router (.relayData 1 [104] 6))] = some t ∧
      ((t.client.encryptCalls ++ t.server.router.encryptCalls).filterMap
        EncryptCall.nonce?).Nodup := by
  have hall : ∃ t ∈ runFrom (step (.new .checksum [1])) (init ["10.0.0.1"])
      [.client (.accepted ['a'] 80), .client (.replied 0 true ⟨some "10.0.0.1", 5⟩ ⟨none, 0⟩),
        .uplink 0 ("192.0.2.1", 9), .server (.handle 0 0),
        .server (.router (.start .done true)), .server (.router (.opened 0 true)),
        .server (.router (.relayData 1 [104] 6))],
      (∀ a ∈ t.client.encryptCalls, a.nowUs = 5) ∧
        ∀ b ∈ t.server.router.encryptCalls, b.nowUs = 6 := by decide +kernel
  obtain ⟨t, hrun, hclient, hserver⟩ := hall
  refine ⟨t, hrun, (run_nonces_nodup_iff _ _ _ t hrun).mpr fun k a b ha hb _ _ => ?_⟩
  rw [hclient a (List.mem_of_getElem? ha), hserver b (List.mem_of_getElem? hb)]
  decide

/-- The client's CONNECT and the server's first answer, both at 5 µs. -/
theorem first_packets_share_nonce :
    ¬ ∀ (p : AetherProtocol) (activeSockets : List String) (es : List Event) (t : Tunnel),
      runFrom (step p) (init activeSockets) es = some t →
      ((t.client.encryptCalls ++ t.server.router.encryptCalls).filterMap
        EncryptCall.nonce?).Nodup := by
  intro h
  have hbad : (runFrom (step (.new .checksum [1])) (init ["10.0.0.1"])
      [.client (.accepted ['a'] 80), .client (.replied 0 true ⟨some "10.0.0.1", 5⟩ ⟨none, 0⟩),
        .uplink 0 ("192.0.2.1", 9), .server (.handle 0 0),
        .server (.router (.start .done true)), .server (.router (.opened 0 true)),
        .server (.router (.relayData 1 [104] 5))]).map
      (fun t => decide ((t.client.encryptCalls ++ t.server.router.encryptCalls).filterMap
        EncryptCall.nonce?).Nodup) = some false := by decide +kernel
  obtain ⟨t, hrun, hno⟩ := Option.map_eq_some_iff.mp hbad
  exact of_decide_eq_false hno (h _ _ _ t hrun)

end Tunnel

end AetherBond
