import AetherBond.Client.VpnWritten
import AetherBond.Tunnel.Connections
import AetherBond.Tunnel.RelayOrder

set_option autoImplicit false

/-! # The way back, end to end

What the relay of a session reads from its destination is numbered in order, the client's
resequencer follows these numbers, and the client writes what is delivered for a session to the
socket of its application. One session of the client has at most one relay at the server
(`run_connections`), and nothing for it arrives before it is registered, since the server must have
its CONNECT first. So the application gets a part of what its destination sent, in order; and the
beginning of it where the resequencer gives up on none of its frames (`run_downlink_stream`).
-/

namespace AetherBond

open AetherBond.Lib AetherBond.Common AetherBond.Client AetherBond.Server

/-! ## Chunks by session -/

/-- The session of the object a chunk is of. -/
def label (ids : List Nat) (x : Nat × Bytes) : Nat × Bytes := (ids[x.1]?.getD 0, x.2)

section Label

variable {ids ids' : List Nat} {l : List (Nat × Bytes)} {k o : Nat}

theorem label_of_prefix (hids : ids <+: ids') (hl : ∀ x ∈ l, x.1 < ids.length) :
    l.map (label ids') = l.map (label ids) := by
  obtain ⟨new, rfl⟩ := hids
  refine List.map_congr_left fun x hx => ?_
  unfold label
  rw [List.getElem?_append_left (hl x hx)]

/-- The chunks of a session are those of its object, as long as it has one. -/
theorem bodiesFor_label (hids : ids.Nodup) (hl : ∀ x ∈ l, x.1 < ids.length)
    (ho : ids[o]? = some k) :
    bodiesFor k (l.map (label ids)) = bodiesFor o l := by
  obtain ⟨hlt, hk⟩ := List.getElem?_eq_some_iff.mp ho
  unfold bodiesFor
  rw [List.filterMap_map]
  refine List.filterMap_congr fun x hx => if_congr ?_ rfl rfl
  have hx' := hl x hx
  show ids[x.1]?.getD 0 = k ↔ x.1 = o
  rw [List.getElem?_eq_getElem hx', Option.getD_some, ← hk]
  exact hids.getElem_inj_iff

theorem bodiesFor_label_eq_nil (hl : ∀ x ∈ l, x.1 < ids.length) (hk : k ∉ ids) :
    bodiesFor k (l.map (label ids)) = [] := by
  unfold bodiesFor
  rw [List.filterMap_map, List.filterMap_eq_nil_iff]
  intro x hx
  have hx' := hl x hx
  refine if_neg fun heq => hk ?_
  have hk' : ids[x.1]?.getD 0 = k := heq
  rw [List.getElem?_eq_getElem hx', Option.getD_some] at hk'
  exact hk' ▸ List.getElem_mem hx'

end Label

/-! ## The router -/

namespace Server.Router

variable {p : AetherProtocol} {r r' : Router} {reads nums : List (Nat × Bytes)} {k : Nat}

/-- The session ids of the objects. -/
def ids (r : Router) : List Nat := r.objects.map UserSpaceSession.sessionId

/-- Objects are added, and keep their session. -/
theorem ids_invariant (p : AetherProtocol) (l : List Nat) :
    Router.Invariant p (fun _ => True) (fun _ => True) fun r => l <+: r.ids where
  tasks _ _ _ h _ _ := h
  object active relayTask h ho _ := by
    unfold ids
    rw [ids_set ho active relayTask]
    exact h
  make h _ := by
    unfold ids
    rw [List.map_append]
    exact h.trans (List.prefix_append _ _)
  pop _ h := h
  clear h := h
  sendBack := by
    intro r o s data isClose nowUs h _
    obtain ⟨responses, heq⟩ :=
      Router.sendBackToClient_frame (p := p) r s.sessionId data s.clientAddr s.pathId isClose nowUs
    rw [heq]
    exact h
  sends _ _ h _ := h
  starts h _ := h
  started _ h := h

/-- The chunks are of objects that are there. -/
theorem Ordered.lt (h : r.Ordered reads nums) :
    (∀ x ∈ reads, x.1 < r.ids.length) ∧ ∀ x ∈ nums, x.1 < r.ids.length := by
  have hread : ∀ x ∈ reads, x.1 < r.ids.length := by
    intro x hx
    by_contra hge
    have hnil := RelayInv.unborn h x.1 (Nat.le_of_not_lt hge)
    unfold bodiesFor at hnil
    have hnone := List.filterMap_eq_nil_iff.mp hnil x hx
    rw [if_pos rfl] at hnone
    cases hnone
  refine ⟨hread, fun x hx => ?_⟩
  have hin : x.2 ∈ bodiesFor x.1 nums := List.mem_filterMap.mpr ⟨x, hx, if_pos rfl⟩
  obtain ⟨y, hy, heq⟩ := List.mem_filterMap.mp ((RelayInv.numbered h x.1).subset hin)
  split_ifs at heq with hxy
  rw [← hxy]
  exact hread y hy

theorem Ordered.chunkRead_lt (h : r.Ordered reads nums) {e : Event} {x : Nat × Bytes}
    (hread : r.chunkRead e = some x) : x.1 < r.ids.length := by
  unfold Router.chunkRead at hread
  split at hread
  · next t data nowUs =>
      split at hread
      · next o hpc =>
          split_ifs at hread
          obtain rfl := Option.some.inj hread
          exact (RelayInv.holder h t _ o hpc rfl).1
      · cases hread
  · cases hread

/-- The DATA frames of a session carry its chunks, as far as they have numbers. -/
theorem Ordered.dataFor (h : r.Ordered reads nums) (hid : ∀ k ∈ r.ids, k < 2 ^ 32) (k : Nat) :
    r.payloads.filterMap (Client.dataFor k) = bodiesFor k (nums.map (label r.ids)) := by
  have hall : ∀ {calls : List EncryptCall} {nums : List (Nat × Bytes)},
      List.Forall₂ (fun call x => ∃ k, r.ids[x.1]? = some k ∧ call.payload = frame 2 k x.2)
        calls nums → (calls.map EncryptCall.payload).filterMap (Client.dataFor k) =
          bodiesFor k (nums.map (label r.ids)) := by
    intro calls nums hcalls
    induction hcalls with
    | nil => rfl
    | @cons call x calls nums hcall _ ih =>
        obtain ⟨n, hn, hpayload⟩ := hcall
        have hsplit : splitFrame (frame 2 n x.2) = some (2, n, x.2) :=
          splitFrame_frame x.2 (hid n (List.mem_of_getElem? hn))
        have hlabel : label r.ids x = (n, x.2) := by
          unfold label
          rw [hn, Option.getD_some]
        rw [List.map_cons, List.map_cons, hlabel, hpayload, List.filterMap_cons,
          AetherVPNClient.dataFor_eq hsplit]
        by_cases hk : n = k
        · subst hk
          rw [if_pos ⟨rfl, rfl⟩, bodiesFor_cons_self, ← ih]
        · rw [if_neg fun h' => hk h'.2, bodiesFor_cons_of_ne hk, ← ih]
  exact hall (RelayInv.calls h)

/-- What a session responds is the beginning of what was read for it. -/
theorem Ordered.prefix (h : r.Ordered reads nums) (hids : r.ids.Nodup)
    (hid : ∀ k ∈ r.ids, k < 2 ^ 32) (k : Nat) :
    r.payloads.filterMap (Client.dataFor k) <+: bodiesFor k (reads.map (label r.ids)) := by
  obtain ⟨hreads, hnums⟩ := h.lt
  rw [h.dataFor hid]
  by_cases hk : k ∈ r.ids
  · obtain ⟨o, ho⟩ := List.getElem?_of_mem hk
    rw [bodiesFor_label hids hnums ho, bodiesFor_label hids hreads ho]
    exact RelayInv.numbered h o
  · rw [bodiesFor_label_eq_nil hnums hk]
    exact List.nil_prefix

end Server.Router

/-! ## The server -/

namespace Server.AetherServerProtocol

variable {p : AetherProtocol} {s s' : AetherServerProtocol} {e : Event}
  {reads nums : List (Nat × Bytes)}

/-- The chunk of an object that a step reads. -/
def chunkRead (s : AetherServerProtocol) : Event → Option (Nat × Bytes)
  | .router e => s.router.chunkRead e
  | _ => none

theorem chunkRead_lt (h : s.router.Ordered reads nums) {x : Nat × Bytes}
    (hread : s.chunkRead e = some x) : x.1 < s.router.ids.length := by
  cases e with
  | router e' => exact h.chunkRead_lt hread
  | _ => cases hread

theorem ordered_step (h : s.router.Ordered reads nums) (hlocked : s.router.Locked)
    (hset : s.resequencer.Settled) (hstep : s.step p e = some s') :
    s'.router.Locked ∧
      ∃ nums', s'.router.Ordered (reads ++ (s.chunkRead e).toList) nums' := by
  refine ⟨router_invariant (I := Router.Locked) (fun _ _ _ hr hs => hr.step hs) hset hlocked hstep,
    ?_⟩
  by_cases hrouter : ∃ e', e = .router e'
  · obtain ⟨e', rfl⟩ := hrouter
    have hroute : s.routerStep p e' = some s' := by
      cases e' with
      | deliver packetInfo => cases hstep
      | _ => exact hstep
    obtain ⟨r, hr, rfl⟩ := routerStep_eq_some.mp hroute
    exact ⟨_, h.step hlocked hr⟩
  · have hnone : s.chunkRead e = none := by
      cases e with
      | router e' => exact absurd ⟨e', rfl⟩ hrouter
      | _ => rfl
    rw [hnone, Option.toList_none, List.append_nil]
    -- the router only takes deliveries
    have hbuffer : ∀ e', ResequencingBuffer.step callback (s.resequencer, s.router) e'
        = some (s'.resequencer, s'.router) → s'.router.Ordered reads nums := by
      intro e' hb
      obtain ⟨run, heff⟩ := ResequencingBuffer.step_effect hset hb
      rw [heff.callback, runCallback_callback]
      exact h
    rcases step_cases hstep with ⟨-, heq⟩ | ⟨_, _, _, _, _, _, _, _, _, -, -, hput⟩ |
      ⟨_, _, -, hflush⟩ | ⟨e', he, -⟩
    · exact ⟨nums, heq ▸ h⟩
    · exact ⟨nums, hbuffer _ hput⟩
    · exact ⟨nums, hbuffer _ hflush⟩
    · exact absurd ⟨e', he⟩ hrouter

theorem ids_step (hset : s.resequencer.Settled) (hstep : s.step p e = some s') :
    s.router.ids <+: s'.router.ids :=
  router_invariant (I := fun r => s.router.ids <+: r.ids) (fun _ _ _ hr hs =>
    (Router.ids_invariant p s.router.ids).step hr hs (fun _ _ => hr) (fun _ _ _ _ => trivial)
      fun _ _ _ _ _ _ => trivial) hset List.prefix_rfl hstep

end Server.AetherServerProtocol

/-! ## The tunnel -/

namespace Tunnel

variable {p : AetherProtocol} {t t' : Tunnel} {e : Event} {lossless : Prop} {h k : Nat}
  {reads : List (Nat × Bytes)} {requests : List (List Char × Nat)}

/-- The chunk a step reads from a destination, with the session it is of. -/
def chunkRead (t : Tunnel) : Event → Option (Nat × Bytes)
  | .server e => (t.server.chunkRead e).map (label t.server.router.ids)
  | _ => none

/-- The flush task of the client gives up on no DATA frame of session `k`. -/
def Keeps (k : Nat) (t : Tunnel) : Event → Prop
  | .flushCheck task now =>
      ¬ t.resequencer.Misses (Client.dataFor k) t.server.router.payloads (.flushCheck task now)
  | _ => True

instance (k : Nat) (t : Tunnel) : ∀ e : Event, Decidable (Keeps k t e)
  | .flushCheck _ _ => inferInstanceAs (Decidable (¬ _))
  | .client _ | .server _ | .uplink _ _ | .downlink _ _ _ => isTrue trivial

/-- The invariant, for session `h + 1`. -/
structure Returns (p : AetherProtocol) (lossless : Prop) (h : Nat) (t : Tunnel)
    (reads : List (Nat × Bytes)) (requests : List (List Char × Nat)) : Prop where
  ends : t.Ends p
  conveys : ∀ h, Conveys p False h t
  connects : Connects p requests t
  locked : t.server.router.Locked
  relays : ∃ reads' nums, t.server.router.Ordered reads' nums ∧
    reads = reads'.map (label t.server.router.ids)
  follows : t.resequencer.Follows id t.server.router.payloads
  complete : lossless →
    t.resequencer.Complete id (Client.dataFor (h + 1)) t.server.router.payloads
  writes : t.client.WritesOn h
  separate : t.client.Separate h

theorem init_returns (p : AetherProtocol) (lossless : Prop) (h : Nat)
    (activeSockets : List String) : Returns p lossless h (init activeSockets) [] [] where
  ends := init_ends p activeSockets
  conveys h := init_conveys p False h activeSockets
  connects := init_connects p activeSockets
  locked := Router.init_locked
  relays := by
    refine ⟨[], [], ⟨.nil, fun _ => List.nil_prefix, fun _ _ => rfl, ?_, ?_⟩, rfl⟩ <;>
      simp [init, AetherServerProtocol.init, Router.init]
  follows := ResequencingBuffer.init_follows _ _ _
  complete _ := ResequencingBuffer.init_complete _ _ _ _
  writes := AetherVPNClient.init_writesOn h activeSockets
  separate := AetherVPNClient.init_separate h activeSockets

/-- What the server responds for a session is the beginning of what it read for it. -/
theorem Returns.responses (hv : Returns p lossless h t reads requests) (k : Nat) :
    t.server.router.payloads.filterMap (Client.dataFor k) <+: bodiesFor k reads := by
  obtain ⟨reads', nums, hordered, rfl⟩ := hv.relays
  refine hordered.prefix (hv.connects.nodup hv.conveys) (fun k hk => ?_) k
  obtain ⟨s, hs, rfl⟩ := List.mem_map.mp hk
  exact (hv.connects.application hv.conveys hs).1

/-- What was delivered to the client are frames of the server. -/
theorem Returns.delivered (hv : Returns p lossless h t reads requests) :
    t.client.delivered.Sublist (t.server.router.payloads.take t.resequencer.expectedSeq) := by
  rw [hv.ends.acted]
  exact hv.follows.delivered

/-- Nothing is delivered for a session that the client does not have yet. -/
theorem Returns.early (hv : Returns p lossless h t reads requests)
    (hlen : t.client.objects.length ≤ h) : t.client.deliveredTo h = [] := by
  obtain ⟨reads', nums, hordered, -⟩ := hv.relays
  have hbounds : ∀ k ∈ t.server.router.ids, k < 2 ^ 32 ∧ k ≤ t.client.objects.length := by
    intro k hk
    obtain ⟨s, hs, rfl⟩ := List.mem_map.mp hk
    obtain ⟨hlt, n, _, _, hget, hid, -⟩ := hv.connects.application hv.conveys hs
    have hn := (List.getElem?_eq_some_iff.mp hget).1
    rw [hv.connects.client.count, hv.connects.ids.handlers] at hn
    exact ⟨hlt, by omega⟩
  have hno : h + 1 ∉ t.server.router.ids := fun hin => by
    have := (hbounds _ hin).2
    omega
  have hnone : t.server.router.payloads.filterMap (Client.dataFor (h + 1)) = [] := by
    rw [hordered.dataFor fun k hk => (hbounds k hk).1]
    exact bodiesFor_label_eq_nil hordered.lt.2 hno
  have hsub : (t.client.deliveredTo h).Sublist
      (t.server.router.payloads.filterMap (Client.dataFor (h + 1))) :=
    (hv.delivered.trans (List.take_sublist _ _)).filterMap _
  rw [hnone] at hsub
  exact List.eq_nil_of_sublist_nil hsub

/-- A packet of the server carries the frame with its number. -/
theorem Ends.decrypt (hv : t.Ends p) (hcipher : p.cipher.Correct) {x : Bytes × Addr}
    (hx : x ∈ t.server.transmitted) {payload : Bytes} {seq pathId : Nat} {nowUs : Int} {latency : ℚ}
    (hok : p.unpackAndDecrypt x.1 nowUs = .ok (payload, seq, pathId, latency)) :
    t.server.router.payloads[seq]? = some payload := by
  obtain ⟨call, hcall, hpack⟩ := hv.server.transmitted x hx
  rw [unpackAndDecrypt_encryptAndPack hcipher hpack nowUs] at hok
  cases hok
  exact payload_at_seq hv.server.numbered hcall

/-- The client's resequencer goes along the frames of the server. -/
theorem Returns.buffer (hcipher : p.cipher.Correct) (hv : Returns p lossless h t reads requests)
    (hkeeps : lossless → Keeps (h + 1) t e) (hstep : t.step p e = some t') :
    t'.resequencer.Follows id t'.server.router.payloads ∧ (lossless →
      t'.resequencer.Complete id (Client.dataFor (h + 1)) t'.server.router.payloads) := by
  obtain ⟨-, hgrows⟩ := hv.ends.move (step_move hstep)
  have hmore : t.server.router.payloads <+: t'.server.router.payloads :=
    hgrows.server.map EncryptCall.payload
  have hsame : t'.resequencer = t.resequencer →
      t'.resequencer.Follows id t'.server.router.payloads ∧ (lossless →
        t'.resequencer.Complete id (Client.dataFor (h + 1)) t'.server.router.payloads) := by
    intro heq
    rw [heq]
    exact ⟨hv.follows.mono hmore, fun hw => (hv.complete hw).mono hv.follows hmore⟩
  have heffect : ∀ e' : ResequencingBuffer.Event Bytes,
      ResequencingBuffer.step callback (t.resequencer, t.client) e' =
        some (t'.resequencer, t'.client) →
      (∀ x, t.resequencer.Accepts x e' → t.server.router.payloads[x.seq]? = some x.payload) →
      (lossless → ¬ t.resequencer.Misses (Client.dataFor (h + 1)) t.server.router.payloads e') →
      t'.resequencer.Follows id t'.server.router.payloads ∧ (lossless →
        t'.resequencer.Complete id (Client.dataFor (h + 1)) t'.server.router.payloads) := by
    intro e' hb hnew hmiss
    obtain ⟨run, heff⟩ := ResequencingBuffer.step_effect hv.ends.settled hb
    have hfollows := hv.follows.effect heff hnew
    exact ⟨hfollows.mono hmore, fun hw =>
      ((hv.complete hw).effect hv.follows heff hnew (hmiss hw)).mono hfollows hmore⟩
  cases e with
  | client e' =>
      obtain ⟨c, -, rfl⟩ := step_client hstep
      exact hsame rfl
  | server e' =>
      obtain ⟨s, -, rfl⟩ := step_server hstep
      exact hsame rfl
  | uplink i addr =>
      obtain ⟨data, -, rfl⟩ := Option.map_eq_some_iff.mp hstep
      exact hsame rfl
  | downlink i nowUs now =>
      obtain ⟨x, hx, hreceive⟩ := Option.bind_eq_some_iff.mp hstep
      rcases receive_cases hreceive with rfl | ⟨payload, seq, pathId, latency, hok, hput, -⟩
      · exact hsame rfl
      · refine heffect (.put seq payload now) hput (fun y hy => ?_) fun _ hmiss => ?_
        · rw [hy.2]
          exact hv.ends.decrypt hcipher (List.mem_of_getElem? hx) hok
        · obtain ⟨n, hn, -⟩ := hmiss
          cases hn
  | flushCheck task now =>
      obtain ⟨b, hb, rfl⟩ := Option.map_eq_some_iff.mp hstep
      exact heffect (.flushCheck task now) hb (fun _ hx => hx.elim) hkeeps

/-- Only a step of the server reads. -/
theorem chunkRead_cases (hstep : t.step p e = some t') :
    t'.server = t.server ∧ t.chunkRead e = none ∨ ∃ e', t.server.step p e' = some t'.server ∧
      t.chunkRead e = (t.server.chunkRead e').map (label t.server.router.ids) := by
  cases e with
  | client e' =>
      obtain ⟨c, -, rfl⟩ := step_client hstep
      exact .inl ⟨rfl, rfl⟩
  | server e' =>
      obtain ⟨s, hs, rfl⟩ := step_server hstep
      exact .inr ⟨e', hs, rfl⟩
  | uplink i addr =>
      obtain ⟨data, -, rfl⟩ := Option.map_eq_some_iff.mp hstep
      exact .inr ⟨.datagram data addr, rfl, rfl⟩
  | downlink i nowUs now =>
      obtain ⟨x, -, hreceive⟩ := Option.bind_eq_some_iff.mp hstep
      rcases receive_cases hreceive with rfl | ⟨_, _, _, _, -, -, heq⟩
      · exact .inl ⟨rfl, rfl⟩
      · exact .inl ⟨heq, rfl⟩
  | flushCheck task now =>
      obtain ⟨b, -, rfl⟩ := Option.map_eq_some_iff.mp hstep
      exact .inl ⟨rfl, rfl⟩

/-- The relays of the server, with what the step reads. -/
theorem Returns.relay (hv : Returns p lossless h t reads requests) (hstep : t.step p e = some t') :
    t'.server.router.Locked ∧ ∃ reads' nums, t'.server.router.Ordered reads' nums ∧
      reads ++ (t.chunkRead e).toList = reads'.map (label t'.server.router.ids) := by
  obtain ⟨reads', nums, hordered, hreads⟩ := hv.relays
  rcases chunkRead_cases hstep with ⟨heq, hnone⟩ | ⟨e', hs, hread⟩
  · rw [heq, hnone, Option.toList_none, List.append_nil]
    exact ⟨hv.locked, reads', nums, hordered, hreads⟩
  · obtain ⟨hlocked, nums', hordered'⟩ := AetherServerProtocol.ordered_step hordered hv.locked
      hv.ends.server.settled hs
    have hids := AetherServerProtocol.ids_step hv.ends.server.settled hs
    have hnew : ∀ x ∈ (t.server.chunkRead e').toList, x.1 < t.server.router.ids.length :=
      fun x hx => AetherServerProtocol.chunkRead_lt hordered (Option.mem_toList.mp hx)
    refine ⟨hlocked, _, nums', hordered', ?_⟩
    rw [hread, hreads, List.map_append, label_of_prefix hids hordered.lt.1,
      label_of_prefix hids hnew]
    cases t.server.chunkRead e' <;> rfl

/-- **The step lemma.** -/
theorem Returns.step (hcipher : p.cipher.Correct) (hv : Returns p lossless h t reads requests)
    (hkeeps : lossless → Keeps (h + 1) t e) (hstep : t.step p e = some t') :
    Returns p lossless h t' (reads ++ (t.chunkRead e).toList)
      (requests ++ e.request?.toList) := by
  obtain ⟨hlocked, hrelays⟩ := hv.relay hstep
  obtain ⟨hfollows, hcomplete⟩ := hv.buffer hcipher hkeeps hstep
  have hset : t.Settled := hv.connects.settled
  have hseparate : t'.client.Separate h :=
    client_invariant (I := AetherVPNClient.Separate h) (fun _ _ _ hc hs => hc.step hs) hset
      hv.separate hstep
  have hwrites : t'.client.WritesOn h := by
    rcases step_cases hstep with rfl | ⟨e', -, hc, -⟩ | ⟨e', hbuffer, -⟩ | ⟨_, -, -, -, hc, -⟩
    · exact hv.writes
    · exact hv.writes.step hv.early hc
    · obtain ⟨run, heff⟩ := ResequencingBuffer.step_effect hset.1 hbuffer
      rw [heff.callback]
      exact ResequencingBuffer.runCallback_invariant (Q := fun _ => True)
        (fun payload c _ hc => hc.deliver payload) (fun _ _ => trivial) hv.writes
    · rw [hc]
      exact hv.writes
  exact {
    ends := (hv.ends.move (step_move hstep)).1
    conveys := fun h => (hv.conveys h).step hcipher False.elim hstep
    connects := hv.connects.step hstep
    locked := hlocked
    relays := hrelays
    follows := hfollows
    complete := hcomplete
    writes := hwrites
    separate := hseparate }

/-- What the client got for a session is a part of what the server read for it. -/
theorem Returns.deliveredTo_sublist (hv : Returns p lossless h t reads requests) :
    (t.client.deliveredTo h).Sublist (bodiesFor (h + 1) reads) :=
  calc (t.client.deliveredTo h).Sublist ((t.server.router.payloads.take
          t.resequencer.expectedSeq).filterMap (Client.dataFor (h + 1))) := hv.delivered.filterMap _
    List.Sublist _ (t.server.router.payloads.filterMap (Client.dataFor (h + 1))) :=
        (List.take_sublist _ _).filterMap _
    List.Sublist _ (bodiesFor (h + 1) reads) := (hv.responses (h + 1)).sublist

theorem Returns.deliveredTo_prefix (hv : Returns p lossless h t reads requests) (hw : lossless) :
    t.client.deliveredTo h <+: bodiesFor (h + 1) reads := by
  have hall : t.client.deliveredTo h = (t.server.router.payloads.take
      t.resequencer.expectedSeq).filterMap (Client.dataFor (h + 1)) := by
    unfold AetherVPNClient.deliveredTo
    rw [hv.ends.acted, List.filterMap_map]
    exact hv.complete hw
  calc t.client.deliveredTo h
      = (t.server.router.payloads.take t.resequencer.expectedSeq).filterMap
          (Client.dataFor (h + 1)) := hall
    _ <+: t.server.router.payloads.filterMap (Client.dataFor (h + 1)) :=
        (List.take_prefix _ _).filterMap _
    _ <+: bodiesFor (h + 1) reads := hv.responses (h + 1)

/-- **The stream back to an application.** In every run, whatever the network and the timers do,
what was written to the socket of an application are whole chunks that the server read from this
application's own destination, in the order they were read and each at most once; and if the
client's flush task gives up on none of its frames, they are the first of those chunks. -/
theorem run_downlink_stream (p : AetherProtocol) (hcipher : p.cipher.Correct)
    (activeSockets : List String) (es : List Event) (t : Tunnel)
    (hrun : runFrom (step p) (init activeSockets) es = some t) (h : Nat) :
    (bodiesFor h t.client.written).Sublist
        (bodiesFor (h + 1) (observe (step p) chunkRead (init activeSockets) es)) ∧
      (Along (step p) (Keeps (h + 1)) (init activeSockets) es →
        bodiesFor h t.client.written
          <+: bodiesFor (h + 1) (observe (step p) chunkRead (init activeSockets) es)) := by
  constructor
  · have hstep : ∀ (t : Tunnel) (e : Event) (t' : Tunnel) (reads : List (Nat × Bytes))
        (requests : List (List Char × Nat)), Returns p False h t reads requests →
        t.step p e = some t' → Returns p False h t' (reads ++ (t.chunkRead e).toList)
          (requests ++ e.request?.toList) := fun _ _ _ _ _ hv hs => hv.step hcipher False.elim hs
    have hv := runFrom_observe hstep (init_returns p False h activeSockets) hrun
    exact ((List.sublist_append_left _ _).trans hv.separate.2).trans hv.deliveredTo_sublist
  · intro hkeeps
    have hstep : ∀ (t : Tunnel) (e : Event) (t' : Tunnel) (reads : List (Nat × Bytes))
        (requests : List (List Char × Nat)), Returns p True h t reads requests →
        Keeps (h + 1) t e → t.step p e = some t' →
        Returns p True h t' (reads ++ (t.chunkRead e).toList) (requests ++ e.request?.toList) :=
      fun _ _ _ _ _ hv hk hs => hv.step hcipher (fun _ => hk) hs
    have hv := runFrom_observe_along hstep (init_returns p True h activeSockets) hkeeps hrun
    cases ho : t.client.objects[h]? with
    | none =>
        have hlog := hv.separate.2
        rw [show t.client.delivered.filterMap (Client.dataFor (h + 1)) = [] from
          hv.early (List.getElem?_eq_none_iff.mp ho)] at hlog
        rw [(List.append_eq_nil_iff.mp (List.eq_nil_of_sublist_nil hlog)).1]
        exact List.nil_prefix
    | some s => exact ((hv.writes.2 s ho).written).trans (hv.deliveredTo_prefix trivial)

/-- Two applications; the packet with "i" overtakes the one with "h", and "x" is for the other. -/
theorem run_downlink_stream_overtaking :
    ∃ (es : List Event) (t : Tunnel),
      runFrom (step (.new .checksum [1])) (init ["10.0.0.1"]) es = some t ∧
      bodiesFor 0 t.client.written = [[104], [105]] ∧
      bodiesFor 0 t.client.written <+: bodiesFor 1
        (observe (step (.new .checksum [1])) chunkRead (init ["10.0.0.1"]) es) := by
  let es : List Event := [.client (.accepted ['a'] 80), .client (.accepted ['b'] 80),
    .client (.replied 0 true ⟨some "10.0.0.1", 0⟩ ⟨none, 0⟩),
    .client (.replied 1 true ⟨some "10.0.0.1", 0⟩ ⟨none, 0⟩),
    .uplink 0 ("192.0.2.1", 9), .uplink 1 ("192.0.2.1", 9), .server .connectionMade,
    .server (.handle 0 0), .server (.handle 0 0),
    .server (.router (.start .done true)), .server (.router (.opened 0 true)),
    .server (.router (.start .done true)), .server (.router (.opened 2 true)),
    .server (.router (.relayData 1 [104] 0)), .server (.router (.relayData 3 [120] 0)),
    .server (.router (.relayData 1 [105] 0)), .downlink 2 0 0, .downlink 1 0 0, .downlink 0 0 0,
    .client (.startWrite .done), .client (.startWrite .done), .client (.startWrite .suspends)]
  have hboth : (runFrom (step (.new .checksum [1])) (init ["10.0.0.1"]) es).map
      (fun t => bodiesFor 0 t.client.written) = some [[104], [105]] := by decide +kernel
  obtain ⟨t, hrun, hwritten⟩ := Option.map_eq_some_iff.mp hboth
  have hstream := run_downlink_stream _ Aead.checksum_correct _ es t hrun 0
  exact ⟨es, t, hrun, hwritten, hstream.2 (by decide +kernel)⟩

end Tunnel

end AetherBond
