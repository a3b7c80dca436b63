import AetherBond.Server.Router

set_option autoImplicit false

/-! # Invariants of the router, once for all operations

Apart from the sends, the router's code is made of a few updates: task counters and the lock
change, an object is switched on or off, a session is made and registered, an entry is removed,
a response goes out. `Stable` says that a property is closed under these, and then every
operation and every event but the sends keeps it (`Stable.step`). `Invariant` adds the sends,
and then every event keeps it (`Invariant.step`).
-/

namespace AetherBond.Server

open AetherBond.Lib AetherBond.Common

namespace Pc

/-- The session a CONNECT task is going to make. -/
def session? : Pc → Option UserSpaceSession
  | .connectLock session | .connectClose session => some session
  | _ => none

/-- The send a task is suspended in, if the bytes did not leave before it suspended. -/
def suspendedSend : Pc → Option (UserSpaceSession × Bytes)
  | .sendTo _ s body => some (s, body)
  | _ => none

end Pc

/-- A session as the CONNECT frame of a packet asks for it. -/
structure UserSpaceSession.MadeBy (s : UserSpaceSession) (packetInfo : Bytes × Addr × Nat) :
    Prop where
  payload : parsePayload packetInfo.1
    = some (.connect s.sessionId s.protocol s.destPort s.destIp)
  clientAddr : s.clientAddr = packetInfo.2.1
  pathId : s.pathId = packetInfo.2.2
  active : s.active = false

namespace Router

variable {p : AetherProtocol} {r r' : Router} {t o : Nat} {pc : Pc}

/-- The sends that have begun and whose bytes have not left. -/
def suspended (r : Router) : List (UserSpaceSession × Bytes) :=
  r.tasks.filterMap Pc.suspendedSend

/-- Some CONNECT task is going to make this session. -/
def Carries (r : Router) (s : UserSpaceSession) : Prop := ∃ pc ∈ r.tasks, s ∈ pc.session?

/-- Task `t` is not suspended in a send. -/
def Quiet (r : Router) (t : Nat) : Prop :=
  ∀ pc, r.tasks[t]? = some pc → pc.suspendedSend = none

/-- Closed under what the router does besides sending. `Fresh` holds of the sessions that new
CONNECT tasks carry, `Active` of the TCP sessions whose connection is opened. -/
structure Stable (p : AetherProtocol) (Fresh Active : UserSpaceSession → Prop)
    (I : Router → Prop) : Prop where
  tasks : ∀ {r : Router} (tasks : List Pc) (lock : FairLock Nat) (failed : List Nat), I r →
    tasks.filterMap Pc.suspendedSend = r.suspended →
    (∀ pc ∈ tasks, ∀ s ∈ pc.session?, r.Carries s ∨ Fresh s) →
    I { r with tasks := tasks, lock := lock, failed := failed }
  object : ∀ {r : Router} {o : Nat} {s : UserSpaceSession} (active : Bool)
    (relayTask : Option Nat), I r → r.objects[o]? = some s →
    (active → s.protocol = .udp ∨ Active s) →
    I { r with objects := r.objects.set o { s with active := active, relayTask := relayTask } }
  make : ∀ {r : Router} {s : UserSpaceSession}, I r → r.Carries s →
    I { r with
      objects := r.objects ++ [s]
      sessions := r.sessions.set s.sessionId r.objects.length }
  pop : ∀ {r : Router} (k : Nat), I r → I { r with sessions := r.sessions.pop k }
  clear : ∀ {r : Router}, I r → I { r with sessions := .empty }
  sendBack : ∀ {r : Router} {o : Nat} {s : UserSpaceSession} (data : Bytes) (isClose : Bool)
    (nowUs : Int), I r → r.objects[o]? = some s →
    I (r.sendBackToClient p s.sessionId data s.clientAddr s.pathId isClose nowUs).1

/-! ## Quiet tasks -/

theorem quiet_of_pc (hpc : r.tasks[t]? = some pc) (hs : pc.suspendedSend = none) : r.Quiet t := by
  intro pc' hpc'
  obtain rfl : pc = pc' := Option.some.inj (hpc.symm.trans hpc')
  exact hs

/-- Replacing an entry by one with the same value keeps what `filterMap` collects. -/
theorem filterMap_set {α β : Type*} (f : α → Option β) (l : List α) (t : Nat) (a : α)
    (h : ∀ b, l[t]? = some b → f b = f a) : (l.set t a).filterMap f = l.filterMap f := by
  induction l generalizing t with
  | nil => rfl
  | cons b l ih =>
      cases t with
      | zero =>
          have hb : f b = f a := h b rfl
          rw [List.set_cons_zero, List.filterMap_cons, List.filterMap_cons, hb]
      | succ t =>
          have hrest := ih t fun b hb => h b (by simpa using hb)
          rw [List.set_cons_succ, List.filterMap_cons, List.filterMap_cons, hrest]

theorem Quiet.set {tasks : List Pc} (ht : ∀ pc, tasks[t]? = some pc → pc.suspendedSend = none)
    (hs : pc.suspendedSend = none) (u : Nat) (pc' : Pc)
    (hu : ∀ pc, tasks[u]? = some pc → pc.suspendedSend = none)
    (hpc' : (tasks.set t pc)[u]? = some pc') : pc'.suspendedSend = none := by
  by_cases hut : u = t
  · subst hut
    obtain ⟨hlt, heq⟩ := List.getElem?_eq_some_iff.mp hpc'
    rw [← heq, List.getElem_set_self]
    exact hs
  · exact hu pc' ((List.getElem?_set_ne (Ne.symm hut)).symm.trans hpc')

theorem quiet_cancelTask {u : Nat} (h : r.Quiet u) (t : Nat) : (r.cancelTask t).Quiet u := by
  unfold cancelTask
  split
  · next hpc => exact fun pc hu => Quiet.set (quiet_of_pc hpc rfl) rfl u pc h hu
  · next hpc => exact fun pc hu => Quiet.set (quiet_of_pc hpc rfl) rfl u pc h hu
  · exact h

theorem quiet_closeSession {u : Nat} (h : r.Quiet u) (o : Nat) : (r.closeSession o).1.Quiet u := by
  rcases closeSession_cases r o with heq | ⟨s, -, -, heq | ⟨t, heq⟩⟩ <;> rw [heq]
  · exact h
  · exact h
  · exact quiet_cancelTask (r := r.deactivate o s) h t

theorem carries_of_pc {s : UserSpaceSession} (hpc : r.tasks[t]? = some pc)
    (hs : s ∈ pc.session?) : r.Carries s := ⟨pc, List.mem_of_getElem? hpc, hs⟩

theorem sendBackToClient_tasks (r : Router) (sessionId : Nat) (data : Bytes) (clientAddr : Addr)
    (pathId : Nat) (isClose : Bool) (nowUs : Int) :
    (r.sendBackToClient p sessionId data clientAddr pathId isClose nowUs).1.tasks = r.tasks := by
  obtain ⟨responses, heq⟩ :=
    sendBackToClient_frame (p := p) r sessionId data clientAddr pathId isClose nowUs
  rw [heq]

/-! ## The operations -/

namespace Stable

variable {Fresh Active : UserSpaceSession → Prop} {I : Router → Prop}
  (h : Stable p Fresh Active I)
include h

/-- One counter changes, and with it perhaps the lock. -/
theorem set (hr : I r) (ht : r.Quiet t) (hsus : pc.suspendedSend = none)
    (hpc : ∀ s ∈ pc.session?, r.Carries s ∨ Fresh s) (lock : FairLock Nat) (failed : List Nat) :
    I { r with tasks := r.tasks.set t pc, lock := lock, failed := failed } := by
  apply h.tasks _ _ _ hr
  · exact filterMap_set _ _ _ _ fun pc' hpc' => (ht pc' hpc').trans hsus.symm
  · intro pc' hpc' s hs
    rcases List.mem_or_eq_of_mem_set hpc' with hin | rfl
    · exact Or.inl ⟨pc', hin, hs⟩
    · exact hpc s hs

theorem setPc (hr : I r) (ht : r.Quiet t) (hsus : pc.suspendedSend = none)
    (hpc : ∀ s ∈ pc.session?, r.Carries s ∨ Fresh s) : I (r.setPc t pc) :=
  h.set hr ht hsus hpc r.lock r.failed

theorem newTask (hr : I r) (hsus : pc.suspendedSend = none) (hpc : pc.session? = none) :
    I { r with tasks := r.tasks ++ [pc] } := by
  apply h.tasks _ r.lock r.failed hr
  · rw [List.filterMap_append, List.filterMap_cons_none hsus, List.filterMap_nil,
      List.append_nil]
    rfl
  · intro pc' hpc' s hs
    rcases List.mem_append.mp hpc' with hin | hin
    · exact Or.inl ⟨pc', hin, hs⟩
    · rw [List.mem_singleton.mp hin, hpc] at hs
      cases hs

theorem leave (hr : I r) (ht : r.Quiet t) : I (r.leave t) :=
  h.set hr ht rfl (by simp [Pc.session?]) r.lock.release r.failed

theorem cancelTask (hr : I r) (t : Nat) : I (r.cancelTask t) := by
  unfold Router.cancelTask
  split
  · next hpc => exact h.setPc hr (quiet_of_pc hpc rfl) rfl (by simp [Pc.session?])
  · next hpc => exact h.set hr (quiet_of_pc hpc rfl) rfl (by simp [Pc.session?]) _ _
  · exact hr

theorem closeSession (hr : I r) (o : Nat) : I (r.closeSession o).1 := by
  rcases closeSession_cases r o with heq | ⟨s, ho, -, hor⟩
  · rw [heq]
    exact hr
  · have hoff : I (r.deactivate o s) :=
      h.object false s.relayTask hr ho fun hoff => absurd hoff Bool.false_ne_true
    rcases hor with heq | ⟨t, heq⟩ <;> rw [heq]
    · exact hoff
    · exact h.cancelTask hoff t

theorem sendFailed (hr : I r) (ht : r.Quiet t) (o : Nat) : I (r.sendFailed t o) := by
  apply h.setPc (h.closeSession hr o) (quiet_closeSession ht o)
  · split_ifs <;> rfl
  · split_ifs <;> simp [Pc.session?]

theorem relayEnds (hr : I r) (ht : r.Quiet t) (o : Nat) : I (r.relayEnds t o) :=
  h.closeSession (h.setPc hr ht rfl (by simp [Pc.session?])) o

theorem relaySend (hr : I r) (ht : r.Quiet t) (o : Nat) (data : Bytes) (nowUs : Int) :
    I (r.relaySend p t o data nowUs) := by
  unfold Router.relaySend
  split
  · exact h.leave hr ht
  · next s ho =>
      have hset : I (r.setPc t (.relayRead o)) := h.setPc hr ht rfl (by simp [Pc.session?])
      have hsend := h.sendBack data false nowUs hset ho
      dsimp only
      split_ifs
      · refine h.relayEnds hsend (fun pc hpc => ?_) o
        rw [sendBackToClient_tasks] at hpc
        exact Quiet.set ht rfl t pc ht hpc
      · exact hsend

theorem connectSucceeded (hr : I r) (ht : r.Quiet t) (o : Nat)
    (hactive : ∀ s, r.objects[o]? = some s → s.protocol = .udp ∨ Active s) :
    I (r.connectSucceeded t o) := by
  unfold Router.connectSucceeded
  split
  · exact h.leave hr ht
  · next s ho =>
      have hon := h.object true (some r.tasks.length) hr ho fun _ => hactive s ho
      have hnew := h.newTask hon (rfl : (Pc.relayRead o).suspendedSend = none) rfl
      refine h.leave hnew fun pc hpc => ?_
      by_cases hlt : t < r.tasks.length
      · exact ht pc ((List.getElem?_append_left hlt).symm.trans hpc)
      · have hin := (List.getElem?_append_right (by omega)).symm.trans hpc
        rw [List.mem_singleton.mp (List.mem_of_getElem? hin)]
        rfl

theorem connectFails (hr : I r) (ht : r.Quiet t) (o : Nat) : I (r.connectFails t o) :=
  h.set hr ht rfl (by simp [Pc.session?]) _ _

theorem connectFailedRest (hr : I r) (ht : r.Quiet t) (o : Nat) (nowUs : Int) :
    I (r.connectFailedRest p t o nowUs) := by
  unfold Router.connectFailedRest
  split
  · exact h.leave hr ht
  · next s ho =>
      have hsend := h.sendBack [] true nowUs hr ho
      have ht' : Quiet (r.sendBackToClient p s.sessionId [] s.clientAddr s.pathId true nowUs).1 t :=
        fun pc hpc => ht pc (by rwa [sendBackToClient_tasks] at hpc)
      dsimp only
      split_ifs
      · exact h.leave hsend ht'
      · exact h.leave (h.pop s.sessionId hsend) ht'

theorem makeSession (hr : I r) (ht : r.Quiet t) {session : UserSpaceSession}
    (hc : r.Carries session) (udpOk : Bool) : I (r.makeSession t session udpOk) := by
  have hmade := h.make hr hc
  unfold Router.makeSession
  dsimp only
  split
  · exact h.setPc hmade ht rfl (by simp [Pc.session?])
  · next hudp =>
      split_ifs
      · refine h.connectSucceeded hmade ht _ fun s hs => Or.inl ?_
        obtain rfl : session = s := by simpa using hs
        exact hudp
      · exact h.connectFails hmade ht _

theorem connect (hr : I r) {session : UserSpaceSession}
    (hpc : r.tasks[t]? = some (Pc.connectLock session)) (udpOk : Bool) :
    I (r.connect t session udpOk) := by
  have ht : r.Quiet t := quiet_of_pc hpc rfl
  unfold Router.connect
  split
  · exact h.makeSession hr ht (carries_of_pc hpc rfl) udpOk
  · next o _ =>
      have hclosed := h.closeSession hr o
      have ht' := quiet_closeSession ht o
      have hc : (r.closeSession o).1.Carries session :=
        carries_of_pc (closeSession_tasks hpc (by simp [Pc.relay]) o) rfl
      dsimp only
      split_ifs
      · refine h.setPc hclosed ht' rfl fun s hs => Or.inl ?_
        rw [← Option.some.inj (show some session = some s from hs)]
        exact hc
      · exact h.makeSession hclosed ht' hc udpOk

theorem close (hr : I r) (ht : r.Quiet t) (sessionId : Nat) : I (r.close t sessionId) := by
  unfold Router.close
  split
  · exact h.leave hr ht
  · next o _ =>
      have hclosed := h.closeSession (h.pop sessionId hr) o
      have ht' := quiet_closeSession (r := { r with sessions := r.sessions.pop sessionId }) ht o
      dsimp only
      split_ifs
      · exact h.setPc hclosed ht' rfl (by simp [Pc.session?])
      · exact h.leave hclosed ht'

theorem cleanupLoop (hr : I r) (ht : r.Quiet t) (rest : List Nat) : I (r.cleanupLoop t rest) := by
  induction rest generalizing r with
  | nil => exact h.leave (h.clear hr) ht
  | cons o rest ih =>
      have hclosed := h.closeSession hr o
      have ht' := quiet_closeSession ht o
      unfold Router.cleanupLoop
      dsimp only
      split_ifs
      · exact h.setPc hclosed ht' rfl (by simp [Pc.session?])
      · exact ih hclosed ht'

theorem enter (hr : I r) {udpOk : Bool} {nowUs : Int} (henters : Enters p r t udpOk nowUs r') :
    I r' := by
  cases henters with
  | connect hpc => exact h.connect hr hpc udpOk
  | connectFailed hpc => exact h.connectFailedRest hr (quiet_of_pc hpc rfl) _ _
  | close hpc => exact h.close hr (quiet_of_pc hpc rfl) _
  | relay hpc => exact h.relaySend hr (quiet_of_pc hpc rfl) _ _ _
  | cleanup hpc => exact h.cleanupLoop hr (quiet_of_pc hpc rfl) _

theorem acquireLock (hr : I r) (ht : r.Quiet t) (hsus : pc.suspendedSend = none)
    (hpc : ∀ s ∈ pc.session?, r.Carries s ∨ Fresh s) (udpOk : Bool) (nowUs : Int) :
    I (r.acquireLock p t pc udpOk nowUs) := by
  have hset : I (r.arrive t pc) := h.set hr ht hsus hpc _ _
  rcases acquireLock_cases (p := p) r t pc udpOk nowUs with heq | ⟨-, henters⟩
  · rw [heq]
    exact hset
  · exact h.enter hset henters

/-- **Every event besides deliveries and sends.** -/
theorem step (hr : I r) {e : Event} (hstep : r.step p e = some r')
    (hdeliver : ∀ packetInfo, e ≠ .deliver packetInfo)
    (hstart : ∀ outcome udpOk, e ≠ .start outcome udpOk) (hsent : ∀ t ok, e ≠ .sent t ok)
    (hactive : ∀ t o s, e = .opened t true → r.tasks[t]? = some (Pc.connectOpen o) →
      r.objects[o]? = some s → Active s) : I r' := by
  cases step_cases hstep with
  | deliver packetInfo => exact absurd rfl (hdeliver packetInfo)
  | start _ outcome udpOk => exact absurd rfl (hstart outcome udpOk)
  | drained => exact absurd rfl (hsent _ _)
  | drainFails => exact absurd rfl (hsent _ _)
  | sentTo => exact absurd rfl (hsent _ _)
  | sendToFails => exact absurd rfl (hsent _ _)
  | resume _ _ henters => exact h.enter hr henters
  | closedConnect hpc =>
      exact h.makeSession hr (quiet_of_pc hpc rfl) (carries_of_pc hpc rfl) _
  | closedClose hpc => exact h.leave hr (quiet_of_pc hpc rfl)
  | closedSend hpc => exact h.setPc hr (quiet_of_pc hpc rfl) rfl (by simp [Pc.session?])
  | closedCleanup hpc => exact h.cleanupLoop hr (quiet_of_pc hpc rfl) _
  | opened hpc =>
      exact h.connectSucceeded hr (quiet_of_pc hpc rfl) _ fun s hs =>
        Or.inr (hactive _ _ s rfl hpc hs)
  | refused hpc => exact h.connectFails hr (quiet_of_pc hpc rfl) _
  | relayEof hpc => exact h.relayEnds hr (quiet_of_pc hpc rfl) _
  | relayChunk hpc =>
      exact h.acquireLock hr (quiet_of_pc hpc rfl) rfl (by simp [Pc.session?]) _ _
  | relayFails hpc => exact h.relayEnds hr (quiet_of_pc hpc rfl) _
  | cleanup =>
      have hlast : (r.tasks ++ [Pc.ended])[r.tasks.length]? = some .ended := by simp
      exact h.acquireLock (h.newTask hr rfl rfl) (quiet_of_pc hlast rfl) rfl
        (by simp [Pc.session?]) _ _

end Stable

/-- Closed under the sends and under the start of a task as well. -/
structure Invariant (p : AetherProtocol) (Fresh Active : UserSpaceSession → Prop)
    (I : Router → Prop) : Prop extends Stable p Fresh Active I where
  sends : ∀ {r : Router} (tasks : List Pc) (written : List (UserSpaceSession × Bytes)), I r →
    (∀ pc ∈ tasks, ∀ s ∈ pc.session?, r.Carries s) →
    I { r with tasks := tasks, written := written }
  starts : ∀ {r : Router} {packetInfo : Bytes × Addr × Nat} {queue : List (Bytes × Addr × Nat)},
    I r → r.queue = packetInfo :: queue → I { r with queue := queue }
  started : ∀ {r : Router} (started : List Bytes), I r → I { r with started := started }

namespace Invariant

variable {Fresh Active : UserSpaceSession → Prop} {I : Router → Prop}
  (h : Invariant p Fresh Active I)
include h

theorem setSend (hr : I r) (written : List (UserSpaceSession × Bytes)) (hpc : pc.session? = none) :
    I { r with tasks := r.tasks.set t pc, written := written } := by
  apply h.sends _ _ hr
  intro pc' hpc' s hs
  rcases List.mem_or_eq_of_mem_set hpc' with hin | rfl
  · exact ⟨pc', hin, hs⟩
  · rw [hpc] at hs
    cases hs

theorem send (hr : I r) (ht : r.Quiet t) (o : Nat) (body : Bytes) (outcome : SendOutcome) :
    I (r.send t o body outcome) := by
  have hwrite : ∀ s, I (r.write s body) := fun s =>
    h.sends r.tasks _ hr fun pc hpc s hs => ⟨pc, hpc, hs⟩
  unfold Router.send
  split
  · exact h.setSend hr r.written rfl
  · split_ifs
    · split
      · exact h.setSend hr _ rfl
      · exact h.setSend hr _ rfl
      · exact h.setSend hr r.written rfl
      · exact h.sendFailed (hwrite _) ht o
      · exact h.sendFailed hr ht o
    · exact h.setSend hr r.written rfl

theorem processPayload (hr : I r) (ht : r.Quiet t) (packetInfo : Bytes × Addr × Nat)
    (hfresh : ∀ s, s.MadeBy packetInfo → Fresh s)
    (outcome : SendOutcome) (udpOk : Bool) :
    I (r.processPayload p t packetInfo outcome udpOk) := by
  unfold Router.processPayload
  split
  · exact hr
  · next hp =>
      refine h.acquireLock hr ht rfl (fun s hs => Or.inr ?_) _ _
      rw [← Option.some.inj (show some _ = some s from hs)]
      exact hfresh _ ⟨hp, rfl, rfl, rfl⟩
  · split
    · exact hr
    · exact h.send hr ht _ _ _
  · exact h.acquireLock hr ht rfl (by simp [Pc.session?]) _ _

/-- **Every event besides deliveries.** -/
theorem step (hr : I r) {e : Event} (hstep : r.step p e = some r')
    (hdeliver : ∀ packetInfo, e = .deliver packetInfo → I (r.handleReorderedPacket packetInfo))
    (hfresh : ∀ packetInfo ∈ r.queue, ∀ s : UserSpaceSession, s.MadeBy packetInfo → Fresh s)
    (hactive : ∀ t o s, e = .opened t true → r.tasks[t]? = some (Pc.connectOpen o) →
      r.objects[o]? = some s → Active s) : I r' := by
  by_cases he : ∃ packetInfo, e = .deliver packetInfo
  · obtain ⟨packetInfo, rfl⟩ := he
    obtain rfl := Option.some.inj hstep
    exact hdeliver packetInfo rfl
  by_cases hstart : ∃ outcome udpOk, e = .start outcome udpOk
  · obtain ⟨outcome, udpOk, rfl⟩ := hstart
    cases step_cases hstep with
    | @start packetInfo queue hqueue =>
        have hlast : (r.tasks ++ [Pc.ended])[r.tasks.length]? = some .ended := by simp
        apply h.started
        apply h.processPayload (h.newTask (h.starts hr hqueue) rfl rfl) (quiet_of_pc hlast rfl)
        exact hfresh packetInfo (by rw [hqueue]; exact List.mem_cons_self)
  by_cases hsent : ∃ t ok, e = .sent t ok
  · obtain ⟨t, ok, rfl⟩ := hsent
    cases step_cases hstep with
    | drained => exact h.setSend hr r.written rfl
    | drainFails hpc => exact h.sendFailed hr (quiet_of_pc hpc rfl) _
    | sentTo => exact h.setSend hr _ rfl
    | sendToFails => exact h.setSend (h.closeSession hr _) _ (by split_ifs <;> rfl)
  exact Stable.step h.toStable hr hstep (fun packetInfo heq => he ⟨packetInfo, heq⟩)
    (fun outcome udpOk heq => hstart ⟨outcome, udpOk, heq⟩) (fun t ok heq => hsent ⟨t, ok, heq⟩)
    hactive

end Invariant

end Router

end AetherBond.Server
