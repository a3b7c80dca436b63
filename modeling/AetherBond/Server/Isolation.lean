import AetherBond.Server.Replay
import AetherBond.Server.RouterSteps

set_option autoImplicit false

/-! # Two clients on one server

The server keeps nothing per client: one resequencer, one table of addresses by path id, one
table of sessions. So a second client goes unnoticed exactly as long as its datagrams are
discarded by the duplicate check and stay off the first client's path ids (`Unnoticed`). Then
the run with it and the run without it agree (`run_unnoticed`). A datagram that is accepted
takes its number away from the first client, and one on a path id takes its responses.

Which datagrams come from the second client is a predicate `fromB` on datagrams and their
source addresses.
-/

namespace AetherBond.Server

open AetherBond.Lib AetherBond.Common

/-! ## Path ids in the router -/

/-- Every path id the router may answer on is one of `paths`. -/
structure Router.PathsIn (paths : List Nat) (r : Router) : Prop where
  queue : ∀ x ∈ r.queue, x.2.2 ∈ paths
  carried : ∀ s, r.Carries s → s.pathId ∈ paths
  objects : ∀ s ∈ r.objects, s.pathId ∈ paths
  responses : ∀ x ∈ r.responses, x.2.2 ∈ paths

theorem Router.pathsIn_invariant (p : AetherProtocol) (paths : List Nat) :
    Router.Invariant p (fun s => s.pathId ∈ paths) (fun _ => True) (Router.PathsIn paths) where
  tasks tasks _ _ h _ hcarry := by
    refine ⟨h.queue, fun s ⟨pc, hpc, hs⟩ => ?_, h.objects, h.responses⟩
    rcases hcarry pc hpc s hs with hold | hfresh
    · exact h.carried s hold
    · exact hfresh
  object := by
    intro r o s active relayTask h ho _
    refine ⟨h.queue, h.carried, fun u hu => ?_, h.responses⟩
    rcases List.mem_or_eq_of_mem_set hu with hu | rfl
    · exact h.objects u hu
    · exact h.objects s (List.mem_of_getElem? ho)
  make := by
    intro r s h hc
    refine ⟨h.queue, h.carried, fun u hu => ?_, h.responses⟩
    rcases List.mem_append.mp hu with hu | hu
    · exact h.objects u hu
    · rw [List.mem_singleton.mp hu]
      exact h.carried s hc
  pop _ h := ⟨h.queue, h.carried, h.objects, h.responses⟩
  clear h := ⟨h.queue, h.carried, h.objects, h.responses⟩
  sendBack := by
    intro r o s data isClose nowUs h ho
    unfold Router.sendBackToClient
    dsimp only
    split
    · refine ⟨h.queue, h.carried, h.objects, fun x hx => ?_⟩
      rcases List.mem_append.mp hx with hx | hx
      · exact h.responses x hx
      · rw [List.mem_singleton.mp hx]
        exact h.objects s (List.mem_of_getElem? ho)
    · exact ⟨h.queue, h.carried, h.objects, h.responses⟩
  sends _ _ h hcarry :=
    ⟨h.queue, fun s ⟨pc, hpc, hs⟩ => h.carried s (hcarry pc hpc s hs), h.objects, h.responses⟩
  starts h hq := by
    refine ⟨fun x hx => h.queue x ?_, h.carried, h.objects, h.responses⟩
    rw [hq]
    exact List.mem_cons_of_mem _ hx
  started _ h := ⟨h.queue, h.carried, h.objects, h.responses⟩

/-- A step of the router that is not a delivery. -/
theorem Router.PathsIn.step {p : AetherProtocol} {paths : List Nat} {r r' : Router}
    {e : Router.Event} (h : r.PathsIn paths) (hstep : r.step p e = some r')
    (hdeliver : ∀ packetInfo, e ≠ .deliver packetInfo) : r'.PathsIn paths := by
  apply (Router.pathsIn_invariant p paths).step h hstep
  · exact fun packetInfo heq => absurd heq (hdeliver packetInfo)
  · intro packetInfo hin s hs
    rw [hs.pathId]
    exact h.queue packetInfo hin
  · exact fun _ _ _ _ _ _ => trivial

namespace AetherServerProtocol

variable {p : AetherProtocol} {fromB : Bytes × Addr → Bool} {paths : List Nat}
  {s s' t : AetherServerProtocol} {e : Event} {data : Bytes} {addr : Addr}

/-! ## The two runs -/

/-- What the run without the second client takes: not its datagrams, and not their tasks. -/
def withoutB (fromB : Bytes × Addr → Bool) (s : AetherServerProtocol) : Event → Bool
  | .datagram data addr => !fromB (data, addr)
  | .handle _ _ => s.inbox.head?.all fun x => !fromB x
  | _ => true

/-- The path ids of the first client's datagrams, where they have a header. -/
def pathsOfA (fromB : Bytes × Addr → Bool) (es : List Event) : List Nat :=
  es.filterMap fun
    | .datagram data addr =>
        if fromB (data, addr) ∨ data.length < headerSize then none else some (headerPathId data)
    | _ => none

/-- The packet goes no further than the duplicate check. -/
def Discards (p : AetherProtocol) (s : AetherServerProtocol) (data : Bytes) (nowUs : Int) :
    Prop :=
  ∀ content ∈ (p.unpackAndDecrypt data nowUs).toOption, s.resequencer.drops content.2.1

instance (p : AetherProtocol) (s : AetherServerProtocol) (data : Bytes) (nowUs : Int) :
    Decidable (Discards p s data nowUs) :=
  inferInstanceAs (Decidable (∀ _ ∈ _, _))

/-- The datagram leaves the addresses of `paths` alone. -/
def LeavesPaths (paths : List Nat) (s : AetherServerProtocol) (data : Bytes) (addr : Addr) :
    Prop :=
  data.length < headerSize ∨ headerPathId data ∉ paths ∨
    s.pathAddresses.get? (headerPathId data) = some addr

instance (paths : List Nat) (s : AetherServerProtocol) (data : Bytes) (addr : Addr) :
    Decidable (LeavesPaths paths s data addr) :=
  inferInstanceAs (Decidable (_ ∨ _ ∨ _))

/-- A datagram of the second client arrives on none of `paths`, and is discarded when its task
runs. -/
def Unnoticed (p : AetherProtocol) (fromB : Bytes × Addr → Bool) (paths : List Nat)
    (s : AetherServerProtocol) : Event → Prop
  | .datagram data addr => fromB (data, addr) → LeavesPaths paths s data addr
  | .handle nowUs _ => ∀ x ∈ s.inbox.head?, fromB x → Discards p s x.1 nowUs
  | _ => True

instance (p : AetherProtocol) (fromB : Bytes × Addr → Bool) (paths : List Nat)
    (s : AetherServerProtocol) : ∀ e : Event, Decidable (Unnoticed p fromB paths s e)
  | .datagram _ _ => inferInstanceAs (Decidable (_ → _))
  | .handle _ _ => inferInstanceAs (Decidable (∀ _ ∈ _, _ → _))
  | .connectionMade | .flushCheck _ _ | .router _ => isTrue trivial

/-- The first client's datagrams use the path ids `paths`. -/
def Event.On (fromB : Bytes × Addr → Bool) (paths : List Nat) : Event → Prop
  | .datagram data addr =>
      fromB (data, addr) = false → headerSize ≤ data.length → headerPathId data ∈ paths
  | _ => True

theorem on_pathsOfA (fromB : Bytes × Addr → Bool) (es : List Event) :
    ∀ e ∈ es, e.On fromB (pathsOfA fromB es) := by
  intro e he
  cases e with
  | datagram data addr =>
      intro hA hlen
      refine List.mem_filterMap.mpr ⟨_, he, if_neg ?_⟩
      rintro (hB | hshort)
      · rw [hA] at hB
        cases hB
      · omega
  | _ => trivial

/-- The states of the two runs: they differ in the waiting packets of the second client, and in
the addresses of path ids the first client does not use. -/
structure Same (fromB : Bytes × Addr → Bool) (paths : List Nat) (s t : AetherServerProtocol) :
    Prop where
  transport : s.transport = t.transport
  router : s.router = t.router
  resequencer : s.resequencer = t.resequencer
  transmitted : s.transmitted = t.transmitted
  inbox : t.inbox = s.inbox.filter fun x => !fromB x
  addresses : ∀ q ∈ paths, s.pathAddresses.get? q = t.pathAddresses.get? q
  settled : s.resequencer.Settled
  inboxPaths : ∀ x ∈ t.inbox, headerSize ≤ x.1.length → headerPathId x.1 ∈ paths
  heapPaths : ∀ x ∈ s.resequencer.heap, x.payload.2.2 ∈ paths
  routerPaths : s.router.PathsIn paths

theorem init_same (fromB : Bytes × Addr → Bool) (paths : List Nat) :
    Same fromB paths init init where
  transport := rfl
  router := rfl
  resequencer := rfl
  transmitted := rfl
  inbox := rfl
  addresses _ _ := rfl
  settled := ResequencingBuffer.init_settled _
  inboxPaths := by simp [init]
  heapPaths := by simp [init, ResequencingBuffer.init]
  routerPaths := by constructor <;> simp [init, Router.init, Router.Carries]

/-! ## Steps the two runs share -/

/-- A step of the resequencer keeps to the path ids if the packet it accepts does. -/
theorem paths_bufferStep {b b' : ResequencingBuffer (Bytes × Addr × Nat)} {r r' : Router}
    {e : ResequencingBuffer.Event (Bytes × Addr × Nat)} (hb : b.Settled)
    (hheap : ∀ x ∈ b.heap, x.payload.2.2 ∈ paths) (hr : r.PathsIn paths)
    (hnew : ∀ x, b.Accepts x e → x.payload.2.2 ∈ paths)
    (hstep : ResequencingBuffer.step callback (b, r) e = some (b', r')) :
    b'.Settled ∧ (∀ x ∈ b'.heap, x.payload.2.2 ∈ paths) ∧ r'.PathsIn paths := by
  obtain ⟨run, heff⟩ := ResequencingBuffer.step_effect hb hstep
  have hall : ∀ x ∈ run ++ b'.heap, x.payload.2.2 ∈ paths := by
    intro x hx
    rcases heff.entries x hx with hx | hx
    · exact hheap x hx
    · exact hnew x hx
  have hb' : b'.Settled :=
    ResequencingBuffer.settled_of_run (s := (b, r)) hb
      (runFrom_cons_eq_some.mpr ⟨_, hstep, runFrom_nil _⟩)
  refine ⟨hb', fun x hx => hall x (List.mem_append_right _ hx), ?_⟩
  rw [heff.callback]
  refine ResequencingBuffer.runCallback_invariant (Q := fun x => x.2.2 ∈ paths) ?_
    (fun x hx => hall x (List.mem_append_left _ hx)) hr
  intro x r hx hr
  refine ⟨fun y hy => ?_, hr.carried, hr.objects, hr.responses⟩
  rcases List.mem_append.mp hy with hy | hy
  · exact hr.queue y hy
  · rw [List.mem_singleton.mp hy]
    exact hx

theorem Same.datagram (h : Same fromB paths s t) (hA : fromB (data, addr) = false)
    (hon : headerSize ≤ data.length → headerPathId data ∈ paths) :
    Same fromB paths (s.datagramReceived data addr) (t.datagramReceived data addr) where
  transport := h.transport
  router := h.router
  resequencer := h.resequencer
  transmitted := h.transmitted
  inbox := by
    unfold datagramReceived
    dsimp only
    rw [h.inbox, List.filter_append, List.filter_cons_of_pos (by rw [hA]; rfl), List.filter_nil]
  addresses := by
    intro q hq
    unfold datagramReceived
    dsimp only
    split_ifs
    · rw [Dict.get?_set, Dict.get?_set, h.addresses q hq]
    · exact h.addresses q hq
  settled := h.settled
  inboxPaths := by
    intro x hx hlen
    rcases List.mem_append.mp hx with hx | hx
    · exact h.inboxPaths x hx hlen
    · rw [List.mem_singleton.mp hx] at hlen ⊢
      exact hon hlen
  heapPaths := h.heapPaths
  routerPaths := h.routerPaths

/-- A packet of the first client is handled alike. -/
theorem Same.handle (h : Same fromB paths s t) {x : Bytes × Addr} {rest : List (Bytes × Addr)}
    (hin : s.inbox = x :: rest) (hA : fromB x = false) {nowUs now : Int}
    (hstep : s.step p (.handle nowUs now) = some s') :
    ∃ t', t.step p (.handle nowUs now) = some t' ∧ Same fromB paths s' t' := by
  obtain ⟨data, addr⟩ := x
  have htin : t.inbox = (data, addr) :: rest.filter fun x => !fromB x := by
    rw [h.inbox, hin, List.filter_cons_of_pos (by rw [hA]; rfl)]
  have hrest : ∀ x ∈ rest.filter (fun x => !fromB x), headerSize ≤ x.1.length →
      headerPathId x.1 ∈ paths := fun x hx =>
    h.inboxPaths x (by rw [htin]; exact List.mem_cons_of_mem _ hx)
  unfold AetherServerProtocol.step at hstep ⊢
  rw [hin] at hstep
  rw [htin]
  dsimp only at hstep ⊢
  unfold handleClientPacket at hstep ⊢
  split at hstep
  · obtain rfl := Option.some.inj hstep
    exact ⟨_, rfl, h.transport, h.router, h.resequencer, h.transmitted, rfl, h.addresses,
      h.settled, hrest, h.heapPaths, h.routerPaths⟩
  · next payload seq pathId latency hok =>
      obtain ⟨⟨b, r⟩, hput, rfl⟩ := Option.map_eq_some_iff.mp hstep
      obtain ⟨hlen, hpath⟩ := unpackAndDecrypt_ok hok
      have hpathIn : pathId ∈ paths := by
        rw [hpath]
        exact h.inboxPaths (data, addr) (by rw [htin]; exact List.mem_cons_self) hlen
      obtain ⟨hb, hheap, hr⟩ := paths_bufferStep h.settled h.heapPaths h.routerPaths
        (e := .put seq (payload, addr, pathId) now) (fun x hx => by rw [hx.2]; exact hpathIn) hput
      dsimp only at hput ⊢
      rw [h.resequencer, h.router] at hput
      rw [hput]
      exact ⟨_, rfl, h.transport, rfl, rfl, h.transmitted, rfl, h.addresses, hb, hrest, hheap,
        hr⟩

/-- The flush task and the router see the same state in both runs. -/
theorem Same.local (h : Same fromB paths s t) (hdatagram : ∀ data addr, e ≠ .datagram data addr)
    (hhandle : ∀ nowUs now, e ≠ .handle nowUs now) (hstep : s.step p e = some s') :
    ∃ t', t.step p e = some t' ∧ Same fromB paths s' t' := by
  have hroute : ∀ e : Router.Event, (∀ packetInfo, e ≠ .deliver packetInfo) →
      s.routerStep p e = some s' → ∃ t', t.routerStep p e = some t' ∧ Same fromB paths s' t' := by
    intro e hdeliver hroute
    obtain ⟨r, hr, rfl⟩ := routerStep_eq_some.mp hroute
    have hrp := h.routerPaths.step hr hdeliver
    -- responses go out on paths of A, and there the addresses agree
    have hsend : s.sendto (s.newResponses r) = t.sendto (t.newResponses r) := by
      unfold sendto newResponses
      rw [h.transport, h.router]
      split_ifs
      · apply List.map_congr_left
        intro x hx
        unfold datagramFor
        rw [h.addresses x.2.2 (hrp.responses x (List.mem_of_mem_drop hx))]
      · rfl
    rw [h.router] at hr
    refine ⟨_, routerStep_eq_some.mpr ⟨r, hr, rfl⟩, h.transport, rfl, h.resequencer, ?_, h.inbox,
      h.addresses, h.settled, h.inboxPaths, h.heapPaths, hrp⟩
    dsimp only
    rw [h.transmitted, hsend]
  cases e with
  | connectionMade =>
      obtain rfl := Option.some.inj hstep
      exact ⟨_, rfl, rfl, h.router, h.resequencer, h.transmitted, h.inbox, h.addresses, h.settled,
        h.inboxPaths, h.heapPaths, h.routerPaths⟩
  | datagram data addr => exact absurd rfl (hdatagram data addr)
  | handle nowUs now => exact absurd rfl (hhandle nowUs now)
  | flushCheck task now =>
      obtain ⟨⟨b, r⟩, hflush, rfl⟩ := Option.map_eq_some_iff.mp hstep
      obtain ⟨hb, hheap, hr⟩ := paths_bufferStep h.settled h.heapPaths h.routerPaths
        (e := .flushCheck task now) (fun x hx => hx.elim) hflush
      rw [h.resequencer, h.router] at hflush
      exact ⟨_, Option.map_eq_some_iff.mpr ⟨_, hflush, rfl⟩, h.transport, rfl, rfl, h.transmitted,
        h.inbox, h.addresses, hb, h.inboxPaths, hheap, hr⟩
  | router e =>
      cases e with
      | deliver packetInfo => cases hstep
      | _ => exact hroute _ (by simp) hstep

/-- **The steps both runs take.** -/
theorem Same.keep (h : Same fromB paths s t) (hon : e.On fromB paths)
    (hkeep : withoutB fromB s e) (hstep : s.step p e = some s') :
    ∃ t', t.step p e = some t' ∧ Same fromB paths s' t' := by
  by_cases hd : ∃ data addr, e = .datagram data addr
  · obtain ⟨data, addr, rfl⟩ := hd
    obtain rfl := Option.some.inj hstep
    have hA : fromB (data, addr) = false := by simpa [withoutB] using hkeep
    exact ⟨_, rfl, h.datagram hA (hon hA)⟩
  by_cases hh : ∃ nowUs now, e = .handle nowUs now
  · obtain ⟨nowUs, now, rfl⟩ := hh
    rcases hin : s.inbox with _ | ⟨x, rest⟩
    · unfold AetherServerProtocol.step at hstep
      rw [hin] at hstep
      cases hstep
    · have hA : fromB x = false := by simpa [withoutB, hin] using hkeep
      exact h.handle hin hA hstep
  · exact h.local (fun data addr heq => hd ⟨data, addr, heq⟩)
      (fun nowUs now heq => hh ⟨nowUs, now, heq⟩) hstep

/-- **The steps only the run with the second client takes.** -/
theorem Same.drop (h : Same fromB paths s t) (hun : Unnoticed p fromB paths s e)
    (hdrop : ¬ withoutB fromB s e) (hstep : s.step p e = some s') : Same fromB paths s' t := by
  cases e with
  | datagram data addr =>
      obtain rfl := Option.some.inj hstep
      have hB : fromB (data, addr) = true := by simpa [withoutB] using hdrop
      -- the datagram adds a task of B and, for a path of A, no new address
      refine ⟨h.transport, h.router, h.resequencer, h.transmitted, ?_, fun q hq => ?_, h.settled,
        h.inboxPaths, h.heapPaths, h.routerPaths⟩
      · unfold datagramReceived
        dsimp only
        rw [List.filter_append, List.filter_cons_of_neg (by rw [hB]; simp), List.filter_nil,
          List.append_nil]
        exact h.inbox
      · unfold datagramReceived
        dsimp only
        split_ifs with hlen
        · rcases hun hB with hshort | hnot | hsame
          · omega
          · have hne : q ≠ headerPathId data := fun heq => hnot (heq ▸ hq)
            rw [Dict.get?_set, if_neg hne]
            exact h.addresses q hq
          · rw [Dict.set_eq_self_iff.mpr hsame]
            exact h.addresses q hq
        · exact h.addresses q hq
  | handle nowUs now =>
      obtain ⟨data, addr, rest, hin, hcases⟩ := handle_cases hstep
      have hB : fromB (data, addr) = true := by simpa [withoutB, hin] using hdrop
      have hdisc : Discards p s data nowUs := hun (data, addr) (by rw [hin]; rfl) hB
      -- the task fails, or the resequencer drops its packet
      have hs' : s' = { s with inbox := rest } := by
        rcases hcases with ⟨_, -, heq⟩ | ⟨payload, seq, pathId, latency, b, hok, hput, rfl⟩
        · exact heq
        · have hdrops : s.resequencer.drops seq :=
            hdisc (payload, seq, pathId, latency) (by rw [hok]; rfl)
          unfold ResequencingBuffer.put at hput
          rw [if_pos hdrops] at hput
          obtain rfl := Option.some.inj hput
          rfl
      rw [hs']
      refine ⟨h.transport, h.router, h.resequencer, h.transmitted, ?_, h.addresses, h.settled,
        h.inboxPaths, h.heapPaths, h.routerPaths⟩
      rw [h.inbox, hin, List.filter_cons_of_neg (by rw [hB]; simp)]
  | connectionMade => exact absurd rfl hdrop
  | flushCheck task now => exact absurd rfl hdrop
  | router e => exact absurd rfl hdrop

/-! ## Runs -/

/-- **A second client that goes unnoticed, and why no other does.** In every run in which each
datagram of the second client stays off the first client's path ids and is discarded when its
task runs, the router, the resequencer and what was sent are those of the run without the second
client. And whichever packet the server handles, in every continuation it drops the number of
that packet, and no packet with the number has an effect. -/
theorem run_unnoticed (p : AetherProtocol) (fromB : Bytes × Addr → Bool) :
    (∀ (es : List Event) (s : AetherServerProtocol), runFrom (step p) init es = some s →
      Along (step p) (Unnoticed p fromB (pathsOfA fromB es)) init es →
      ∃ t, runFrom (step p) init (project (step p) (withoutB fromB) init es) = some t ∧
        s.router = t.router ∧ s.resequencer = t.resequencer ∧ s.transmitted = t.transmitted) ∧
    ∀ (s s' : AetherServerProtocol) (data : Bytes) (addr : Addr) (nowUs now : Int)
      (payload : Bytes) (seq pathId : Nat) (latency : ℚ), Reachable (step p) init s →
      s.inbox.head? = some (data, addr) →
      p.unpackAndDecrypt data nowUs = .ok (payload, seq, pathId, latency) →
      s.step p (.handle nowUs now) = some s' →
      ∀ (es : List Event) (t : AetherServerProtocol), runFrom (step p) s' es = some t →
        t.resequencer.drops seq ∧
          ∀ (data' : Bytes) (addr' : Addr) (nowUs' now' : Int) (payload' : Bytes) (pathId' : Nat)
            (latency' : ℚ),
            p.unpackAndDecrypt data' nowUs' = .ok (payload', seq, pathId', latency') →
            t.handleClientPacket p data' addr' nowUs' now' = some t := by
  constructor
  · intro es s hrun halong
    have hon := along_and (P := Event.On fromB (pathsOfA fromB es)) (on_pathsOfA fromB es) halong
    have hkeep : ∀ (s t : AetherServerProtocol) (e : Event) (s' : AetherServerProtocol),
        Same fromB (pathsOfA fromB es) s t →
        (e.On fromB (pathsOfA fromB es) ∧ Unnoticed p fromB (pathsOfA fromB es) s e) →
        withoutB fromB s e → s.step p e = some s' →
        ∃ t', t.step p e = some t' ∧ Same fromB (pathsOfA fromB es) s' t' :=
      fun _ _ _ _ hR hG hk hstep => hR.keep hG.1 hk hstep
    obtain ⟨t, ht, hsame⟩ := runFrom_project hkeep
      (fun _ _ _ _ hR hG hdrop hstep => hR.drop hG.2 hdrop hstep)
      (init_same fromB (pathsOfA fromB es)) hon hrun
    exact ⟨t, ht, hsame.router, hsame.resequencer, hsame.transmitted⟩
  · intro s s' data addr nowUs now payload seq pathId latency hreach hhead hok hhandle es t hrun
    have hs : s.resequencer.Settled := hreach.invariant
      (fun _ _ _ hs hstep => settled_step hs hstep) (ResequencingBuffer.init_settled _)
    have hhandled : s.handled (.handle nowUs now) = some data := by
      unfold handled
      rw [hhead]
      rfl
    have hknown : Known p data s' := known_handle hs hhandled hhandle
    have hkept : ∀ (s : AetherServerProtocol) (e : Event) (s' : AetherServerProtocol),
        s.resequencer.Settled ∧ s.resequencer.drops seq → s.step p e = some s' →
        s'.resequencer.Settled ∧ s'.resequencer.drops seq :=
      fun _ _ _ h hstep => ⟨settled_step h.1 hstep, drops_step h.1 hstep h.2⟩
    obtain ⟨-, hdrops⟩ := runFrom_invariant hkept
      ⟨settled_step hs hhandle, hknown nowUs payload seq pathId latency hok⟩ hrun
    exact ⟨hdrops, fun _ addr' _ now' _ _ _ hok' =>
      handleClientPacket_of_drops hok' hdrops addr' now'⟩

/-- A replay by the second client on a path of its own, after the first client's packet. -/
theorem run_unnoticed_replay : ∃ s es,
    runFrom (step (.new .checksum [1])) init es = some s ∧
    ∃ t, runFrom (step (.new .checksum [1])) init
        (project (step (.new .checksum [1])) (withoutB fun x => x.2.2 = 7) init es) = some t ∧
      s.router = t.router ∧ s.resequencer = t.resequencer ∧ s.transmitted = t.transmitted := by
  let p : AetherProtocol := .new .checksum [1]
  let packetA : Bytes := (p.encryptAndPack (frame 1 7 [1, 0, 80, 97]) 0 0 0).toOption.getD []
  let packetB : Bytes := (p.encryptAndPack (frame 1 7 [1, 0, 80, 98]) 0 1 5).toOption.getD []
  let es : List Event := [.connectionMade, .datagram packetA ("192.0.2.1", 9), .handle 0 0,
    .datagram packetB ("203.0.113.5", 7), .handle 0 0, .router (.start .done true)]
  have hsome : (runFrom (step p) init es).isSome := by decide +kernel
  obtain ⟨s, hrun⟩ := Option.isSome_iff_exists.mp hsome
  have halong : Along (step p) (Unnoticed p (fun x => x.2.2 = 7)
      (pathsOfA (fun x => x.2.2 = 7) es)) init es := by decide +kernel
  exact ⟨s, es, hrun, (run_unnoticed p fun x => x.2.2 = 7).1 es s hrun halong⟩

/-- Two clients that both begin with the number 0: the first client's CONNECT is not processed. -/
theorem second_client_takes_number :
    ¬ ∀ (p : AetherProtocol) (ofB : Addr → Bool) (es : List Event) (s t : AetherServerProtocol),
      runFrom (step p) init es = some s →
      runFrom (step p) init (project (step p) (withoutB fun x => ofB x.2) init es) = some t →
      (s.resequencer.delivered.filter fun x => !ofB x.2.2.1)
        = t.resequencer.delivered.filter fun x => !ofB x.2.2.1 := by
  intro h
  let p : AetherProtocol := .new .checksum [1]
  let ofB : Addr → Bool := fun addr => addr.2 = 7
  let packetA : Bytes := (p.encryptAndPack (frame 1 7 [1, 0, 80, 97]) 0 0 0).toOption.getD []
  let packetB : Bytes := (p.encryptAndPack (frame 1 7 [1, 0, 80, 98]) 0 0 5).toOption.getD []
  let es : List Event := [.connectionMade, .datagram packetB ("203.0.113.5", 7), .handle 0 0,
    .datagram packetA ("192.0.2.1", 9), .handle 0 0]
  have hwith : (runFrom (step p) init es).map
      (fun s => (s.resequencer.delivered.filter fun x => !ofB x.2.2.1).length) = some 0 := by
    decide +kernel
  have hwithout : (runFrom (step p) init
      (project (step p) (withoutB fun x => ofB x.2) init es)).map
      (fun s => (s.resequencer.delivered.filter fun x => !ofB x.2.2.1).length) = some 1 := by
    decide +kernel
  obtain ⟨s, hs, hlen⟩ := Option.map_eq_some_iff.mp hwith
  obtain ⟨t, ht, hlen'⟩ := Option.map_eq_some_iff.mp hwithout
  have hbad := congrArg List.length (h p ofB es s t hs ht)
  omega

end AetherServerProtocol

end AetherBond.Server
