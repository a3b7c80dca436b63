import AetherBond.Server.RouterSends
import Mathlib.Data.List.Perm.Subperm

set_option autoImplicit false

/-! # What the sessions were asked for

A CONNECT task carries the session it is going to make until it makes it, and makes it once. So the
requests of the objects and of the tasks (`requests`) come from different CONNECT frames, and each
says what its frame says (`Asked`); the other operations only drop requests.
-/

namespace AetherBond.Server

open AetherBond.Lib AetherBond.Common

/-! ## Values held in a list -/

section Held

variable {α β : Type*} {f : α → Option β} {l : List α} {t : Nat} {a a' : α} {b : β}

theorem filterMap_set_sublist (h : f a = none) :
    ((l.set t a).filterMap f).Sublist (l.filterMap f) := by
  induction l generalizing t with
  | nil => simp
  | cons c l ih =>
      cases t with
      | zero =>
          rw [List.set_cons_zero, List.filterMap_cons_none h]
          exact (List.sublist_cons_self c l).filterMap f
      | succ t =>
          rw [List.set_cons_succ, List.filterMap_cons, List.filterMap_cons]
          cases f c with
          | none => exact ih
          | some b => exact ih.cons_cons b

/-- The value at `t` is given up. -/
theorem filterMap_set_perm (hl : l[t]? = some a) (ha : f a = some b) (ha' : f a' = none) :
    (b :: (l.set t a').filterMap f).Perm (l.filterMap f) := by
  induction l generalizing t with
  | nil => cases hl
  | cons c l ih =>
      cases t with
      | zero =>
          obtain rfl : c = a := by simpa using hl
          rw [List.set_cons_zero, List.filterMap_cons_none ha', List.filterMap_cons_some ha]
      | succ t =>
          have hrest := ih (by simpa using hl)
          rw [List.set_cons_succ, List.filterMap_cons, List.filterMap_cons]
          cases f c with
          | none => exact hrest
          | some b' => exact (List.Perm.swap b' b _).trans (hrest.cons b')

end Held

/-! ## Requests -/

/-- The position of the CONNECT frame among the started payloads, and what it asks for. -/
def UserSpaceSession.request (s : UserSpaceSession) : Nat × Command :=
  (s.frame, .connect s.sessionId s.protocol s.destPort s.destIp)

def Pc.request? (pc : Pc) : Option (Nat × Command) := pc.session?.map UserSpaceSession.request

namespace Router

variable {p : AetherProtocol} {r r' : Router} {t o : Nat} {pc pc' : Pc} {s : UserSpaceSession}

/-- The requests of the objects, and of the tasks that have not made theirs. -/
def requests (r : Router) : List (Nat × Command) :=
  r.objects.map UserSpaceSession.request ++ r.tasks.filterMap Pc.request?

theorem requests_setPc (hpc : pc.request? = none) :
    (r.setPc t pc).requests.Subperm r.requests :=
  ((filterMap_set_sublist hpc).append_left _).subperm

/-- A task moves on with its request. -/
theorem requests_setPc_eq (hpc : r.tasks[t]? = some pc) (heq : pc'.request? = pc.request?) :
    (r.setPc t pc').requests = r.requests := by
  unfold requests Router.setPc
  dsimp only
  rw [filterMap_set Pc.request? r.tasks t pc' fun b hb => ?_]
  rw [heq, Option.some.inj (hpc.symm.trans hb)]

theorem requests_object (ho : r.objects[o]? = some s) (active : Bool) (relayTask : Option Nat) :
    requests { r with
        objects := r.objects.set o { s with active := active, relayTask := relayTask } }
      = r.requests := by
  have hmap : (r.objects.set o { s with active := active, relayTask := relayTask }).map
      UserSpaceSession.request = r.objects.map UserSpaceSession.request := by
    rw [← List.filterMap_eq_map, filterMap_set _ _ _ _ fun b hb => ?_]
    obtain rfl := Option.some.inj (ho.symm.trans hb)
    rfl
  unfold requests
  rw [hmap]

theorem requests_concat (hpc : pc.request? = none) :
    requests { r with tasks := r.tasks ++ [pc] } = r.requests := by
  unfold requests
  rw [List.filterMap_append, List.filterMap_cons_none hpc, List.filterMap_nil, List.append_nil]

theorem requests_leave (r : Router) (t : Nat) : (r.leave t).requests.Subperm r.requests := by
  have hend : (r.setPc t .ended).requests.Subperm r.requests := requests_setPc rfl
  exact hend

theorem requests_cancelTask (r : Router) (t : Nat) :
    (r.cancelTask t).requests.Subperm r.requests := by
  have hend : (r.setPc t .ended).requests.Subperm r.requests := requests_setPc rfl
  unfold Router.cancelTask
  split
  · exact hend
  · exact hend
  · exact .refl _

theorem requests_closeSession (r : Router) (o : Nat) :
    (r.closeSession o).1.requests.Subperm r.requests := by
  rcases closeSession_cases r o with heq | ⟨s, ho, -, hor⟩
  · rw [heq]
  · have hoff : (r.deactivate o s).requests = r.requests := requests_object ho false s.relayTask
    rcases hor with heq | ⟨t, heq⟩ <;> rw [heq, ← hoff]
    exact requests_cancelTask _ t

theorem requests_sendFailed (r : Router) (t o : Nat) :
    (r.sendFailed t o).requests.Subperm r.requests :=
  (requests_setPc (by split_ifs <;> rfl)).trans (requests_closeSession r o)

theorem requests_relayEnds (r : Router) (t o : Nat) :
    (r.relayEnds t o).requests.Subperm r.requests :=
  (requests_closeSession _ o).trans (requests_setPc rfl)

theorem requests_send (r : Router) (t o : Nat) (body : Bytes) (outcome : SendOutcome) :
    (r.send t o body outcome).requests.Subperm r.requests := by
  have hwrite : ∀ s, (r.write s body).requests = r.requests := fun _ => rfl
  unfold Router.send
  split
  · exact requests_setPc rfl
  · next s _ =>
      split_ifs
      · split
        · exact (hwrite s).symm ▸ requests_setPc rfl
        · exact (hwrite s).symm ▸ requests_setPc rfl
        · exact requests_setPc rfl
        · exact (hwrite s).symm ▸ requests_sendFailed (r.write s body) t o
        · exact requests_sendFailed r t o
      · exact requests_setPc rfl

theorem requests_sendBackToClient (r : Router) (sessionId : Nat) (data : Bytes) (clientAddr : Addr)
    (pathId : Nat) (isClose : Bool) (nowUs : Int) :
    (r.sendBackToClient p sessionId data clientAddr pathId isClose nowUs).1.requests =
      r.requests := by
  obtain ⟨responses, heq⟩ :=
    sendBackToClient_frame (p := p) r sessionId data clientAddr pathId isClose nowUs
  rw [heq]
  rfl

theorem requests_relaySend (r : Router) (t o : Nat) (data : Bytes) (nowUs : Int) :
    (r.relaySend p t o data nowUs).requests.Subperm r.requests := by
  unfold Router.relaySend
  split
  · exact requests_leave r t
  · next s _ =>
      have hsent : ((r.setPc t (.relayRead o)).sendBackToClient p s.sessionId data s.clientAddr
          s.pathId false nowUs).1.requests.Subperm r.requests := by
        rw [requests_sendBackToClient]
        exact requests_setPc rfl
      dsimp only
      split_ifs
      · exact (requests_relayEnds _ t o).trans hsent
      · exact hsent

theorem requests_connectFailedRest (r : Router) (t o : Nat) (nowUs : Int) :
    (r.connectFailedRest p t o nowUs).requests.Subperm r.requests := by
  unfold Router.connectFailedRest
  split
  · exact requests_leave r t
  · next s _ =>
      rw [← requests_sendBackToClient (p := p) r s.sessionId [] s.clientAddr s.pathId true nowUs]
      dsimp only
      split_ifs
      · exact requests_leave _ t
      · exact requests_leave { (r.sendBackToClient p s.sessionId [] s.clientAddr s.pathId true
          nowUs).1 with sessions := _ } t

/-- The new relay task asks for nothing. -/
theorem requests_connectSucceeded (hpc : r.tasks[t]? = some pc) (o : Nat) :
    (r.connectSucceeded t o).requests = (r.setPc t .ended).requests := by
  obtain ⟨hlt, -⟩ := List.getElem?_eq_some_iff.mp hpc
  unfold Router.connectSucceeded
  split
  · rfl
  · next s ho =>
      have hset : (r.tasks ++ [Pc.relayRead o]).set t .ended =
          r.tasks.set t .ended ++ [Pc.relayRead o] := List.set_append_left _ _ hlt
      have hon := requests_object ho true (some r.tasks.length)
      unfold requests at hon
      unfold requests Router.leave Router.setPc
      dsimp only at hon ⊢
      rw [hset, List.filterMap_append, List.filterMap_cons_none rfl, List.filterMap_nil,
        List.append_nil, List.append_cancel_right hon]

/-- **A session is made once**: the object takes over the request of the task. -/
theorem requests_make (hpc : r.tasks[t]? = some pc) (hs : pc.session? = some s)
    (hpc' : pc'.request? = none) :
    (r.objects.map UserSpaceSession.request ++ [s.request] ++
      (r.tasks.set t pc').filterMap Pc.request?).Perm r.requests := by
  have hrequest : pc.request? = some s.request := by
    unfold Pc.request?
    rw [hs]
    rfl
  rw [List.append_assoc]
  exact (filterMap_set_perm hpc hrequest hpc').append_left _

theorem requests_makeSession (hpc : r.tasks[t]? = some pc) (hs : pc.session? = some s)
    (udpOk : Bool) : (r.makeSession t s udpOk).requests.Subperm r.requests := by
  have hmake : ∀ pc' : Pc, pc'.request? = none → (setPc { r with
      objects := r.objects ++ [s]
      sessions := r.sessions.set s.sessionId r.objects.length } t pc').requests.Subperm
        r.requests := by
    intro pc' hpc'
    unfold requests Router.setPc
    dsimp only
    rw [List.map_append]
    exact (requests_make hpc hs hpc').subperm
  unfold Router.makeSession
  dsimp only
  split
  · exact hmake _ rfl
  · split_ifs
    · have hon := requests_connectSucceeded (r := { r with
        objects := r.objects ++ [s]
        sessions := r.sessions.set s.sessionId r.objects.length }) hpc r.objects.length
      rw [hon]
      exact hmake _ rfl
    · exact hmake _ rfl

theorem requests_connect (hpc : r.tasks[t]? = some (Pc.connectLock s)) (udpOk : Bool) :
    (r.connect t s udpOk).requests.Subperm r.requests := by
  unfold Router.connect
  split
  · exact requests_makeSession hpc rfl udpOk
  · next o _ =>
      have hpc' := closeSession_tasks hpc (by simp [Pc.relay]) o
      refine List.Subperm.trans ?_ (requests_closeSession r o)
      dsimp only
      split_ifs
      · exact List.Perm.subperm (.of_eq (requests_setPc_eq hpc' rfl))
      · exact requests_makeSession hpc' rfl udpOk

theorem requests_close (r : Router) (t sessionId : Nat) :
    (r.close t sessionId).requests.Subperm r.requests := by
  unfold Router.close
  split
  · exact requests_leave r t
  · next o _ =>
      have hclosed :
          (closeSession { r with sessions := r.sessions.pop sessionId } o).1.requests.Subperm
            r.requests := requests_closeSession _ o
      refine List.Subperm.trans ?_ hclosed
      dsimp only
      split_ifs
      · exact requests_setPc rfl
      · exact requests_leave _ t

theorem requests_cleanupLoop (r : Router) (t : Nat) (rest : List Nat) :
    (r.cleanupLoop t rest).requests.Subperm r.requests := by
  induction rest generalizing r with
  | nil => exact requests_leave { r with sessions := .empty } t
  | cons o rest ih =>
      refine List.Subperm.trans ?_ (requests_closeSession r o)
      unfold Router.cleanupLoop
      dsimp only
      split_ifs
      · exact requests_setPc rfl
      · exact ih _

theorem requests_enter {udpOk : Bool} {nowUs : Int} (henters : Enters p r t udpOk nowUs r') :
    r'.requests.Subperm r.requests := by
  cases henters with
  | connect hpc => exact requests_connect hpc udpOk
  | connectFailed => exact requests_connectFailedRest r t _ nowUs
  | close => exact requests_close r t _
  | relay => exact requests_relaySend r t _ _ nowUs
  | cleanup => exact requests_cleanupLoop r t _

theorem requests_acquireLock (r : Router) (t : Nat) (pc : Pc) (udpOk : Bool) (nowUs : Int) :
    (r.acquireLock p t pc udpOk nowUs).requests.Subperm (r.setPc t pc).requests := by
  have harrive : (r.arrive t pc).requests = (r.setPc t pc).requests := rfl
  rcases acquireLock_cases (p := p) r t pc udpOk nowUs with heq | ⟨-, henters⟩
  · rw [heq, harrive]
  · exact harrive ▸ requests_enter henters

/-! ## Steps -/

/-- A task that starts takes up at most the request of its own payload. -/
theorem requests_processPayload (hpc : r.tasks[t]? = some .ended)
    (packetInfo : Bytes × Addr × Nat) (outcome : SendOutcome) (udpOk : Bool) :
    (r.processPayload p t packetInfo outcome udpOk).requests.Subperm r.requests ∨
      ∃ c, parsePayload packetInfo.1 = some c ∧
        (r.processPayload p t packetInfo outcome udpOk).requests.Subperm
          ((r.started.length, c) :: r.requests) := by
  unfold Router.processPayload
  split
  · exact .inl (.refl _)
  · next sessionId protocol port destIp hp =>
      refine .inr ⟨_, hp, (requests_acquireLock _ t _ udpOk 0).trans ?_⟩
      generalize hsession : UserSpaceSession.mk sessionId destIp port protocol packetInfo.2.1
        packetInfo.2.2 false none r.started.length = session
      have hrequest : session.request =
          (r.started.length, .connect sessionId protocol port destIp) := hsession ▸ rfl
      have hend : (r.setPc t .ended).requests = r.requests := requests_setPc_eq hpc rfl
      have hlock : (r.tasks.set t (.connectLock session))[t]? = some (.connectLock session) :=
        List.getElem?_set_self (List.getElem?_eq_some_iff.mp hpc).1
      have htaken : (session.request :: ((r.tasks.set t (.connectLock session)).set t
          .ended).filterMap Pc.request?).Perm
          ((r.tasks.set t (.connectLock session)).filterMap Pc.request?) :=
        filterMap_set_perm hlock rfl rfl
      rw [List.set_set] at htaken
      have hperm : (session.request :: (r.setPc t .ended).requests).Perm
          (r.setPc t (.connectLock session)).requests :=
        (List.perm_middle.symm).trans (htaken.append_left _)
      rw [hend, hrequest] at hperm
      exact hperm.symm.subperm
  · split
    · exact .inl (.refl _)
    · exact .inl (requests_send _ t _ _ outcome)
  · next sessionId _ =>
      have hclose : (r.setPc t (.closeLock sessionId)).requests.Subperm r.requests :=
        requests_setPc rfl
      exact .inl ((requests_acquireLock _ t _ udpOk 0).trans hclose)

/-- The requests come from different frames of `payloads`, and say what their frames say. -/
structure Asked (payloads : List Bytes) (requests : List (Nat × Command)) : Prop where
  frames : (requests.map Prod.fst).Nodup
  said : ∀ x ∈ requests, payloads[x.1]?.bind parsePayload = some x.2

theorem Asked.subperm {payloads : List Bytes} {l l' : List (Nat × Command)} (h : Asked payloads l)
    (hsub : l'.Subperm l) : Asked payloads l' where
  frames := by
    obtain ⟨l₁, hperm, hsublist⟩ := hsub
    exact (hperm.map Prod.fst).nodup_iff.mp (h.frames.sublist (hsublist.map Prod.fst))
  said x hx := h.said x (hsub.subset hx)

theorem Asked.lt {payloads : List Bytes} {l : List (Nat × Command)} (h : Asked payloads l)
    {x : Nat × Command} (hx : x ∈ l) : x.1 < payloads.length := by
  obtain ⟨q, hq, -⟩ := Option.bind_eq_some_iff.mp (h.said x hx)
  exact (List.getElem?_eq_some_iff.mp hq).1

/-- One more payload is started. -/
theorem Asked.mono {payloads : List Bytes} {l : List (Nat × Command)} (h : Asked payloads l)
    (payload : Bytes) : Asked (payloads ++ [payload]) l where
  frames := h.frames
  said x hx := by
    rw [List.getElem?_append_left (h.lt hx)]
    exact h.said x hx

theorem Asked.cons {payloads : List Bytes} {l : List (Nat × Command)} (h : Asked payloads l)
    {payload : Bytes} {c : Command} (hc : parsePayload payload = some c) :
    Asked (payloads ++ [payload]) ((payloads.length, c) :: l) where
  frames := by
    refine List.nodup_cons.mpr ⟨fun hin => ?_, h.frames⟩
    -- all frames so far are older
    obtain ⟨x, hx, heq⟩ := List.mem_map.mp hin
    exact absurd heq (h.lt hx).ne
  said x hx := by
    rcases List.mem_cons.mp hx with rfl | hx
    · rw [List.getElem?_concat_length]
      exact hc
    · exact (h.mono payload).said x hx

/-- Any other event only drops requests. -/
theorem requests_step {e : Event} (hstep : r.step p e = some r')
    (hstart : ∀ outcome udpOk, e ≠ .start outcome udpOk) : r'.requests.Subperm r.requests := by
  have hset : ∀ (r : Router) (t : Nat), (r.setPc t .ended).requests.Subperm r.requests :=
    fun _ _ => requests_setPc rfl
  cases step_cases hstep with
  | deliver => exact .refl _
  | start _ outcome udpOk => exact absurd rfl (hstart outcome udpOk)
  | resume _ _ henters => exact requests_enter henters
  | closedConnect hpc udpOk => exact requests_makeSession hpc rfl udpOk
  | @closedClose t => exact requests_leave r t
  | @closedSend t => exact hset r t
  | @closedCleanup t rest => exact requests_cleanupLoop r t rest
  | @opened t o hpc =>
      rw [requests_connectSucceeded hpc o]
      exact hset r t
  | @refused t o =>
      have hfails : (r.setPc t (.connectFailed o)).requests.Subperm r.requests := requests_setPc rfl
      exact hfails
  | @drained t => exact hset r t
  | @drainFails t o => exact requests_sendFailed r t o
  | @sentTo t o s body => exact hset (r.write s body) t
  | @sendToFails t o => exact requests_sendFailed r t o
  | @relayEof t o => exact requests_relayEnds r t o
  | @relayChunk t o data =>
      have hlock : (r.setPc t (.relayLock o data)).requests.Subperm r.requests := requests_setPc rfl
      exact (requests_acquireLock r t _ _ _).trans hlock
  | @relayFails t o => exact requests_relayEnds r t o
  | cleanup =>
      have hnew : requests { r with tasks := r.tasks ++ [Pc.ended] } = r.requests :=
        requests_concat rfl
      have hlock : (setPc { r with tasks := r.tasks ++ [Pc.ended] } r.tasks.length
          .cleanupLock).requests.Subperm r.requests := hnew ▸ requests_setPc rfl
      exact (requests_acquireLock _ _ _ _ _).trans hlock

/-- **Step lemma.** -/
theorem Asked.step (h : Asked r.started r.requests) {e : Event} (hstep : r.step p e = some r') :
    Asked r'.started r'.requests := by
  by_cases hstart : ∃ outcome udpOk, e = .start outcome udpOk
  · obtain ⟨outcome, udpOk, rfl⟩ := hstart
    cases step_cases hstep with
    | @start packetInfo queue =>
        have hlast : (r.tasks ++ [Pc.ended])[r.tasks.length]? = some .ended :=
          List.getElem?_concat_length
        have hnew : requests { r with queue := queue, tasks := r.tasks ++ [Pc.ended] } =
            r.requests := requests_concat (r := { r with queue := queue }) rfl
        have hmore := requests_processPayload (p := p)
          (r := { r with queue := queue, tasks := r.tasks ++ [Pc.ended] }) hlast packetInfo outcome
          udpOk
        rw [hnew] at hmore
        rcases hmore with hsub | ⟨c, hc, hsub⟩
        · exact (h.mono packetInfo.1).subperm hsub
        · exact (h.cons hc).subperm hsub
  have hother : ∀ outcome udpOk, e ≠ .start outcome udpOk := fun outcome udpOk heq =>
    hstart ⟨outcome, udpOk, heq⟩
  have hstarted : r'.started = r.started := by
    by_cases hsent : ∃ t ok, e = .sent t ok
    · obtain ⟨t, ok, rfl⟩ := hsent
      exact (step_sent hstep).2.1
    · exact (step_keeps hstep hother fun t ok heq => hsent ⟨t, ok, heq⟩).1
  rw [hstarted]
  exact h.subperm (requests_step hstep hother)

end Router

end AetherBond.Server
