import AetherBond.Client.VpnUplink
import AetherBond.Server.RouterLock

set_option autoImplicit false

/-! # The responses of one session, in order

Each session object of the router has at most one relay task, which reads a chunk, takes a number
for it and reads on. So the chunks of an object that have their numbers are, in their order, the
first of those that were read, all but the one its task is at the lock with (`RelayInv`).

What was read and what was numbered is not part of the router's state; it is read off the run
(`observe`), by `chunkRead` and `chunkNumbered`.
-/

namespace AetherBond

open AetherBond.Lib AetherBond.Common AetherBond.Client AetherBond.Server

namespace Server.Pc

/-- The object whose connection the task makes or reads. -/
def object? : Pc → Option Nat
  | .connectOpen o | .relayRead o | .relayLock o _ => some o
  | _ => none

/-- The chunk that was read and has no number yet. -/
def unnumbered : Pc → List Bytes
  | .relayLock _ data => [data]
  | _ => []

end Server.Pc

/-! ## The invariant -/

/-- The chunks `nums` have their numbers, of the chunks `reads` of objects with these ids. -/
structure Server.RelayInv (ids : List Nat) (tasks : List Pc) (calls : List EncryptCall)
    (reads nums : List (Nat × Bytes)) : Prop where
  /-- The `n`-th call is of the `n`-th chunk. -/
  calls : List.Forall₂ (fun call x => ∃ k, ids[x.1]? = some k ∧ call.payload = frame 2 k x.2)
    calls nums
  numbered : ∀ o, bodiesFor o nums <+: bodiesFor o reads
  unborn : ∀ o, ids.length ≤ o → bodiesFor o reads = []
  holder : ∀ (t : Nat) (pc : Pc) (o : Nat), tasks[t]? = some pc → pc.object? = some o →
    o < ids.length ∧ bodiesFor o reads = bodiesFor o nums ++ pc.unnumbered
  unique : ∀ (t t' : Nat) (pc pc' : Pc) (o : Nat), tasks[t]? = some pc → tasks[t']? = some pc' →
    pc.object? = some o → pc'.object? = some o → t = t'

namespace Server.RelayInv

variable {ids : List Nat} {tasks : List Pc} {calls : List EncryptCall}
  {reads nums : List (Nat × Bytes)} {t o k : Nat} {pc pc' : Pc} {data : Bytes}

/-- Whoever holds an object after a task moved held it before. -/
theorem held_before (hpc : tasks[t]? = some pc)
    (hmove : pc'.object? = none ∨ pc'.object? = pc.object?) {u : Nat} {pcu : Pc}
    (hu : (tasks.set t pc')[u]? = some pcu) (ho : pcu.object? = some o) :
    ∃ pc₀, tasks[u]? = some pc₀ ∧ pc₀.object? = some o := by
  obtain ⟨rfl, rfl⟩ | ⟨-, hold⟩ := getElem?_set_cases hu
  · obtain hnone | hobject := hmove
    -- a task that holds nothing now does not count
    · cases hnone.symm.trans ho
    · exact ⟨pc, hpc, hobject.symm.trans ho⟩
  · exact ⟨pcu, hold, ho⟩

theorem unique_set (h : RelayInv ids tasks calls reads nums) (hpc : tasks[t]? = some pc)
    (hmove : pc'.object? = none ∨ pc'.object? = pc.object?) (u u' : Nat) (pcu pcu' : Pc) (o : Nat)
    (hu : (tasks.set t pc')[u]? = some pcu) (hu' : (tasks.set t pc')[u']? = some pcu')
    (ho : pcu.object? = some o) (ho' : pcu'.object? = some o) : u = u' := by
  obtain ⟨pc₀, hu₀, ho₀⟩ := held_before hpc hmove hu ho
  obtain ⟨pc₁, hu₁, ho₁⟩ := held_before hpc hmove hu' ho'
  exact h.unique u u' pc₀ pc₁ o hu₀ hu₁ ho₀ ho₁

/-- A task moves, and holds what it held or nothing. -/
theorem set (h : RelayInv ids tasks calls reads nums) (hpc : tasks[t]? = some pc)
    (hmove : pc'.object? = none ∨ pc'.object? = pc.object? ∧ pc'.unnumbered = pc.unnumbered) :
    RelayInv ids (tasks.set t pc') calls reads nums := by
  refine ⟨h.calls, h.numbered, h.unborn, fun u pcu o hu ho => ?_,
    h.unique_set hpc (hmove.imp_right And.left)⟩
  obtain ⟨rfl, rfl⟩ | ⟨-, hold⟩ := getElem?_set_cases hu
  · obtain hnone | ⟨hobject, hchunk⟩ := hmove
    · cases hnone.symm.trans ho
    · rw [hchunk]
      exact h.holder u pc o hpc (hobject.symm.trans ho)
  · exact h.holder u pcu o hold ho

theorem append (h : RelayInv ids tasks calls reads nums) (hpc : pc.object? = none) :
    RelayInv ids (tasks ++ [pc]) calls reads nums := by
  have hold : ∀ {u : Nat} {pcu : Pc} {o : Nat}, (tasks ++ [pc])[u]? = some pcu →
      pcu.object? = some o → tasks[u]? = some pcu := by
    intro u pcu o hu ho
    obtain ⟨rfl, -⟩ | hu := getElem?_concat_cases hu
    · cases hpc.symm.trans ho
    · exact hu
  exact ⟨h.calls, h.numbered, h.unborn, fun u pcu o hu ho => h.holder u pcu o (hold hu ho) ho,
    fun u u' pcu pcu' o hu hu' ho ho' =>
      h.unique u u' pcu pcu' o (hold hu ho) (hold hu' ho') ho ho'⟩

/-- A new object, that nobody holds. -/
theorem make (h : RelayInv ids tasks calls reads nums) (k : Nat) :
    RelayInv (ids ++ [k]) tasks calls reads nums where
  calls := h.calls.imp fun call x ⟨k', hk, hpayload⟩ =>
    ⟨k', (List.getElem?_append_left (List.getElem?_eq_some_iff.mp hk).1).trans hk, hpayload⟩
  numbered := h.numbered
  unborn o ho := by
    rw [List.length_append] at ho
    exact h.unborn o (by omega)
  holder t pc o hpc ho := by
    obtain ⟨hlt, hreads⟩ := h.holder t pc o hpc ho
    refine ⟨?_, hreads⟩
    rw [List.length_append]
    omega
  unique := h.unique

/-- A task takes an object that nobody else holds and whose chunks all have numbers. -/
theorem take (h : RelayInv ids tasks calls reads nums) (hpc : tasks[t]? = some pc)
    (hfree : ∀ (u : Nat) (pcu : Pc), u ≠ t → tasks[u]? = some pcu → pcu.object? ≠ some o)
    (ho : o < ids.length) (hreads : bodiesFor o reads = bodiesFor o nums)
    (hobject : pc'.object? = some o) (hchunk : pc'.unnumbered = []) :
    RelayInv ids (tasks.set t pc') calls reads nums := by
  refine ⟨h.calls, h.numbered, h.unborn, fun u pcu o' hu ho' => ?_,
    fun u u' pcu pcu' o' hu hu' ho' ho'' => ?_⟩
  · obtain ⟨rfl, rfl⟩ | ⟨-, hold⟩ := getElem?_set_cases hu
    · obtain rfl : o = o' := Option.some.inj (hobject.symm.trans ho')
      rw [hchunk, List.append_nil]
      exact ⟨ho, hreads⟩
    · exact h.holder u pcu o' hold ho'
  · obtain ⟨rfl, rfl⟩ | ⟨hne, hold⟩ := getElem?_set_cases hu
    · obtain rfl : o = o' := Option.some.inj (hobject.symm.trans ho')
      obtain ⟨-, heq⟩ | ⟨hne, hold⟩ := getElem?_set_cases hu'
      · exact heq.symm
      · exact absurd ho'' (hfree u' pcu' hne hold)
    · obtain ⟨rfl, rfl⟩ | ⟨-, hold'⟩ := getElem?_set_cases hu'
      · obtain rfl : o = o' := Option.some.inj (hobject.symm.trans ho'')
        exact absurd ho' (hfree u pcu hne hold)
      · exact h.unique u u' pcu pcu' o' hold hold' ho' ho''

/-- A relay task has read a chunk. -/
theorem read (h : RelayInv ids tasks calls reads nums)
    (hpc : tasks[t]? = some (Pc.relayRead o)) (data : Bytes) :
    RelayInv ids (tasks.set t (.relayLock o data)) calls (reads ++ [(o, data)]) nums := by
  obtain ⟨hlt, hreads⟩ := h.holder t _ o hpc rfl
  refine ⟨h.calls, fun o' => ?_, fun o' ho' => ?_, fun u pcu o' hu ho' => ?_,
    h.unique_set hpc (.inr rfl)⟩
  · rw [bodiesFor_append]
    exact (h.numbered o').trans (List.prefix_append _ _)
  · rw [bodiesFor_append, bodiesFor_cons_of_ne (by omega), h.unborn o' ho']
    rfl
  · obtain ⟨rfl, rfl⟩ | ⟨hne, hold⟩ := getElem?_set_cases hu
    · obtain rfl := Option.some.inj (ho' : some o = some o')
      rw [bodiesFor_append, bodiesFor_cons_self, hreads]
      exact ⟨hlt, by simp [Pc.unnumbered, bodiesFor]⟩
    · obtain ⟨hlt', hreads'⟩ := h.holder u pcu o' hold ho'
      have hother : o ≠ o' := by
        rintro rfl
        exact hne (h.unique u t pcu _ o hold hpc ho' rfl)
      rw [bodiesFor_append, bodiesFor_cons_of_ne hother]
      exact ⟨hlt', by rw [← hreads']; exact List.append_nil _⟩

/-- The chunk gets its number, and the task reads on. -/
theorem number (h : RelayInv ids tasks calls reads nums)
    (hpc : tasks[t]? = some (Pc.relayLock o data)) (hk : ids[o]? = some k) {call : EncryptCall}
    (hcall : call.payload = frame 2 k data) :
    RelayInv ids (tasks.set t (.relayRead o)) (calls ++ [call]) reads (nums ++ [(o, data)]) := by
  obtain ⟨hlt, hreads⟩ := h.holder t _ o hpc rfl
  have hbodies : bodiesFor o (nums ++ [(o, data)]) = bodiesFor o reads := by
    rw [bodiesFor_append, bodiesFor_cons_self, hreads]
    rfl
  have hothers : ∀ o', o ≠ o' → bodiesFor o' (nums ++ [(o, data)]) = bodiesFor o' nums := by
    intro o' hne
    rw [bodiesFor_append, bodiesFor_cons_of_ne hne]
    exact List.append_nil _
  refine ⟨?_, fun o' => ?_, h.unborn, fun u pcu o' hu ho' => ?_, h.unique_set hpc (.inr rfl)⟩
  · exact List.rel_append h.calls (.cons ⟨k, hk, hcall⟩ .nil)
  · by_cases hne : o = o'
    · rw [← hne, hbodies]
    · rw [hothers o' hne]
      exact h.numbered o'
  · obtain ⟨rfl, rfl⟩ | ⟨hne, hold⟩ := getElem?_set_cases hu
    · obtain rfl := Option.some.inj (ho' : some o = some o')
      exact ⟨hlt, hbodies.symm.trans (List.append_nil _).symm⟩
    · have hother : o ≠ o' := by
        rintro rfl
        exact hne (h.unique u t pcu _ o hold hpc ho' rfl)
      rw [hothers o' hother]
      exact h.holder u pcu o' hold ho'

end Server.RelayInv

/-! ## The operations -/

namespace Server.Router

variable {p : AetherProtocol} {r r' : Router} {t u o : Nat} {pc pc' : Pc} {data : Bytes}
  {reads nums : List (Nat × Bytes)} {session : UserSpaceSession}

/-- The invariant, of a router. -/
def Ordered (r : Router) (reads nums : List (Nat × Bytes)) : Prop :=
  RelayInv (r.objects.map UserSpaceSession.sessionId) r.tasks r.encryptCalls reads nums

/-- Switching an object's flags keeps the ids. -/
theorem ids_set {objects : List UserSpaceSession} {s : UserSpaceSession}
    (ho : objects[o]? = some s) (active : Bool) (relayTask : Option Nat) :
    (objects.set o { s with active := active, relayTask := relayTask }).map
      UserSpaceSession.sessionId = objects.map UserSpaceSession.sessionId := by
  obtain ⟨hlt, rfl⟩ := List.getElem?_eq_some_iff.mp ho
  have hlt' : o < (objects.map UserSpaceSession.sessionId).length := by rwa [List.length_map]
  rw [List.map_set]
  calc (objects.map UserSpaceSession.sessionId).set o objects[o].sessionId
      = (objects.map UserSpaceSession.sessionId).set o
          (objects.map UserSpaceSession.sessionId)[o] := by rw [List.getElem_map]
    _ = objects.map UserSpaceSession.sessionId := List.set_getElem_self hlt'

theorem Ordered.setPc (h : r.Ordered reads nums) (hpc : r.tasks[t]? = some pc)
    (hnone : pc'.object? = none) : (r.setPc t pc').Ordered reads nums :=
  RelayInv.set h hpc (.inl hnone)

theorem Ordered.leave (h : r.Ordered reads nums) (hpc : r.tasks[t]? = some pc) :
    (r.leave t).Ordered reads nums := RelayInv.set h hpc (.inl rfl)

theorem Ordered.cancelTask (h : r.Ordered reads nums) (u : Nat) :
    (r.cancelTask u).Ordered reads nums := by
  unfold Router.cancelTask
  split
  · next hpc => exact h.setPc hpc rfl
  · next hpc => exact RelayInv.set h hpc (.inl rfl)
  · exact h

theorem Ordered.closeSession (h : r.Ordered reads nums) (o : Nat) :
    (r.closeSession o).1.Ordered reads nums := by
  obtain heq | ⟨s, ho, -, hor⟩ := closeSession_cases r o
  · rw [heq]
    exact h
  · have hoff : (r.deactivate o s).Ordered reads nums := by
      unfold Ordered Router.deactivate
      dsimp only
      rw [ids_set ho false s.relayTask]
      exact h
    obtain heq | ⟨u, heq⟩ := hor <;> rw [heq]
    · exact hoff
    · exact hoff.cancelTask u

theorem Ordered.sendFailed (h : r.Ordered reads nums) (hpc : r.tasks[t]? = some pc)
    (hrelay : ¬ pc.relay) (o : Nat) : (r.sendFailed t o).Ordered reads nums := by
  refine (h.closeSession o).setPc (closeSession_tasks hpc hrelay o) ?_
  split_ifs <;> rfl

theorem Ordered.relayEnds (h : r.Ordered reads nums) (hpc : r.tasks[t]? = some pc) (o : Nat) :
    (r.relayEnds t o).Ordered reads nums := (h.setPc hpc rfl).closeSession o

theorem Ordered.send (h : r.Ordered reads nums) (hpc : r.tasks[t]? = some pc)
    (hrelay : ¬ pc.relay) (o : Nat) (body : Bytes) (outcome : SendOutcome) :
    (r.send t o body outcome).Ordered reads nums := by
  have hwrite : ∀ s, (r.write s body).Ordered reads nums := fun _ => h
  unfold Router.send
  split
  · exact h.setPc hpc rfl
  · split_ifs
    · split
      · exact (hwrite _).setPc hpc rfl
      · exact (hwrite _).setPc hpc rfl
      · exact h.setPc hpc rfl
      · exact (hwrite _).sendFailed hpc hrelay o
      · exact h.sendFailed hpc hrelay o
    · exact h.setPc hpc rfl

/-- The chunk a relay task is at the lock with gets its number. -/
theorem Ordered.relaySend (h : r.Ordered reads nums)
    (hpc : r.tasks[t]? = some (Pc.relayLock o data)) (nowUs : Int) :
    (r.relaySend p t o data nowUs).Ordered reads (nums ++ [(o, data)]) := by
  obtain ⟨hlt, -⟩ := RelayInv.holder h t _ o hpc rfl
  rw [List.length_map] at hlt
  have ho : r.objects[o]? = some r.objects[o] := List.getElem?_eq_getElem hlt
  obtain ⟨responses, heq⟩ := sendBackToClient_frame (p := p) (r.setPc t (.relayRead o))
    r.objects[o].sessionId data r.objects[o].clientAddr r.objects[o].pathId false nowUs
  have hsent : ((r.setPc t (.relayRead o)).sendBackToClient p r.objects[o].sessionId data
      r.objects[o].clientAddr r.objects[o].pathId false nowUs).1.Ordered reads
        (nums ++ [(o, data)]) := by
    rw [heq]
    refine RelayInv.number h hpc (k := r.objects[o].sessionId) ?_ rfl
    rw [List.getElem?_map, ho]
    rfl
  have hread : ((r.setPc t (.relayRead o)).sendBackToClient p r.objects[o].sessionId data
      r.objects[o].clientAddr r.objects[o].pathId false nowUs).1.tasks[t]? =
        some (Pc.relayRead o) := by
    rw [heq]
    exact List.getElem?_set_self (List.getElem?_eq_some_iff.mp hpc).1
  unfold Router.relaySend
  simp only [ho]
  split_ifs
  · exact hsent.relayEnds hread o
  · exact hsent

/-- The relay task of an object that nobody else holds. -/
theorem Ordered.connectSucceeded (h : r.Ordered reads nums) (hpc : r.tasks[t]? = some pc)
    (hfree : ∀ (u : Nat) (pcu : Pc), u ≠ t → r.tasks[u]? = some pcu → pcu.object? ≠ some o)
    (hlt : o < r.objects.length) (hreads : bodiesFor o reads = bodiesFor o nums) :
    (r.connectSucceeded t o).Ordered reads nums := by
  have ho : r.objects[o]? = some r.objects[o] := List.getElem?_eq_getElem hlt
  obtain ⟨htlt, -⟩ := List.getElem?_eq_some_iff.mp hpc
  have hended : RelayInv (r.objects.map UserSpaceSession.sessionId)
      (r.tasks.set t .ended ++ [.ended]) r.encryptCalls reads nums :=
    (RelayInv.set h hpc (.inl rfl)).append rfl
  have hlast : (r.tasks.set t .ended ++ [Pc.ended])[r.tasks.length]? = some .ended := by
    have hconcat := List.getElem?_concat_length (l := r.tasks.set t Pc.ended) (a := Pc.ended)
    rwa [List.length_set] at hconcat
  have hfree' : ∀ (v : Nat) (pcv : Pc), v ≠ r.tasks.length →
      (r.tasks.set t .ended ++ [Pc.ended])[v]? = some pcv → pcv.object? ≠ some o := by
    intro v pcv _ hv hov
    obtain ⟨rfl, -⟩ | hv := getElem?_concat_cases hv
    · cases hov
    · obtain ⟨rfl, -⟩ | ⟨hvt, hv⟩ := getElem?_set_cases hv
      · cases hov
      · exact hfree v pcv hvt hv hov
  have htaken : RelayInv (r.objects.map UserSpaceSession.sessionId)
      ((r.tasks.set t .ended ++ [Pc.ended]).set r.tasks.length (.relayRead o)) r.encryptCalls
      reads nums := hended.take hlast hfree' (by rwa [List.length_map]) hreads rfl rfl
  unfold Router.connectSucceeded
  simp only [ho]
  unfold Ordered Router.leave Router.setPc
  dsimp only
  rw [ids_set ho true (some r.tasks.length)]
  -- the new task is added before the old one ends; the other order comes to the same
  have htasks : (r.tasks ++ [Pc.relayRead o]).set t .ended =
      (r.tasks.set t .ended ++ [Pc.ended]).set r.tasks.length (.relayRead o) := by
    rw [List.set_append_left _ _ htlt, List.set_append_right _ _ (by simp)]
    simp
  rw [htasks]
  exact htaken

theorem Ordered.makeSession (h : r.Ordered reads nums) (hpc : r.tasks[t]? = some pc)
    (session : UserSpaceSession) (udpOk : Bool) :
    (r.makeSession t session udpOk).Ordered reads nums := by
  have hmade : Ordered { r with
      objects := r.objects ++ [session]
      sessions := r.sessions.set session.sessionId r.objects.length } reads nums := by
    unfold Ordered
    rw [List.map_append]
    exact RelayInv.make h session.sessionId
  have hfree : ∀ (u : Nat) (pcu : Pc), u ≠ t → r.tasks[u]? = some pcu →
      pcu.object? ≠ some r.objects.length := by
    intro u pcu _ hu ho
    have hlt := (RelayInv.holder h u pcu _ hu ho).1
    rw [List.length_map] at hlt
    exact lt_irrefl _ hlt
  -- nothing was read of an object that did not exist
  have hreads : bodiesFor r.objects.length reads = bodiesFor r.objects.length nums := by
    have hnone := RelayInv.unborn h r.objects.length (by rw [List.length_map])
    have hprefix := RelayInv.numbered h r.objects.length
    rw [hnone] at hprefix ⊢
    exact (List.prefix_nil.mp hprefix).symm
  have hlt : r.objects.length < (r.objects ++ [session]).length := by simp
  unfold Router.makeSession
  dsimp only
  split
  · exact RelayInv.take hmade hpc hfree (by rwa [List.length_map]) hreads rfl rfl
  · split_ifs
    · exact hmade.connectSucceeded hpc hfree hlt hreads
    · exact RelayInv.set hmade hpc (.inl rfl)

theorem Ordered.connect (h : r.Ordered reads nums) (hpc : r.tasks[t]? = some pc)
    (hrelay : ¬ pc.relay) (session : UserSpaceSession) (udpOk : Bool) :
    (r.connect t session udpOk).Ordered reads nums := by
  unfold Router.connect
  split
  · exact h.makeSession hpc session udpOk
  · next o _ =>
      have hpc' := closeSession_tasks hpc hrelay o
      dsimp only
      split_ifs
      · exact (h.closeSession o).setPc hpc' rfl
      · exact (h.closeSession o).makeSession hpc' session udpOk

theorem Ordered.close (h : r.Ordered reads nums) (hpc : r.tasks[t]? = some pc)
    (hrelay : ¬ pc.relay) (sessionId : Nat) : (r.close t sessionId).Ordered reads nums := by
  unfold Router.close
  split
  · exact h.leave hpc
  · next o _ =>
      have hpop : Ordered { r with sessions := r.sessions.pop sessionId } reads nums := h
      have hpc' := closeSession_tasks (r := { r with sessions := r.sessions.pop sessionId }) hpc
        hrelay o
      dsimp only
      split_ifs
      · exact (hpop.closeSession o).setPc hpc' rfl
      · exact (hpop.closeSession o).leave hpc'

theorem Ordered.cleanupLoop (h : r.Ordered reads nums) (hpc : r.tasks[t]? = some pc)
    (hrelay : ¬ pc.relay) (rest : List Nat) : (r.cleanupLoop t rest).Ordered reads nums := by
  induction rest generalizing r with
  | nil => exact RelayInv.set h hpc (.inl rfl)
  | cons o rest ih =>
      have hpc' := closeSession_tasks hpc hrelay o
      unfold Router.cleanupLoop
      dsimp only
      split_ifs
      · exact (h.closeSession o).setPc hpc' rfl
      · exact ih (h.closeSession o) hpc'

/-! ## Steps -/

/-- The chunk of an object that a step reads. -/
def chunkRead (r : Router) : Event → Option (Nat × Bytes)
  | .relayData t data _ =>
      match r.tasks[t]? with
      | some (.relayRead o) => if r.endOfStream o data then none else some (o, data)
      | _ => none
  | _ => none

/-- The chunk whose number a step takes: its task comes to a free lock, or goes on with the lock. -/
def chunkNumbered (r : Router) : Event → Option (Nat × Bytes)
  | .relayData t data nowUs =>
      if r.lock.owner = none then r.chunkRead (.relayData t data nowUs) else none
  | .resume t _ _ =>
      match r.tasks[t]? with
      | some (.relayLock o data) => some (o, data)
      | _ => none
  | _ => none

/-- A task other than a relay goes on with the lock. -/
theorem Ordered.enter (h : r.Ordered reads nums) (hlocked : r.Locked)
    (howner : r.lock.owner = some t) (hw : t ∉ r.lock.waiters)
    (hrelay : ∀ o data, r.tasks[t]? ≠ some (.relayLock o data)) {udpOk : Bool} {nowUs : Int}
    (henters : Enters p r t udpOk nowUs r') : r'.Ordered reads nums := by
  cases henters with
  | connect hpc => exact h.connect hpc (by simp [Pc.relay]) _ udpOk
  | connectFailed hpc => exact absurd ((LockInv.selfWait hlocked t howner).mpr ⟨_, hpc⟩) hw
  | close hpc => exact h.close hpc (by simp [Pc.relay]) _
  | relay hpc => exact absurd hpc (hrelay _ _)
  | cleanup hpc => exact h.cleanupLoop hpc (by simp [Pc.relay]) _

/-- A new task arrives at the lock. -/
theorem Ordered.acquireLock (h : r.Ordered reads nums) (hlocked : r.Locked)
    (hpc : r.tasks[t]? = some .ended) (hat : pc.atLock) (hin : ¬ pc.inside)
    (hnone : pc.object? = none) (udpOk : Bool) (nowUs : Int) :
    (r.acquireLock p t pc udpOk nowUs).Ordered reads nums := by
  obtain ⟨ho, hw⟩ := LockInv.outside hlocked hpc (by simp [Pc.atLock]) (by simp [Pc.inside])
  have hself : (r.tasks.set t pc)[t]? = some pc :=
    List.getElem?_set_self (List.getElem?_eq_some_iff.mp hpc).1
  have h' : (r.arrive t pc).Ordered reads nums := RelayInv.set h hpc (.inl hnone)
  obtain ⟨hlocked', heq | ⟨howner, hw', henters⟩⟩ :=
    hlocked.acquireLock_cases (p := p) hpc ho hw hat hin udpOk nowUs
  · rw [heq]
    exact h'
  · refine h'.enter hlocked' howner hw' (fun o data heq => ?_) henters
    rw [Option.some.inj (hself.symm.trans heq)] at hnone
    cases hnone

/-- A relay task that has read a chunk comes to the lock. -/
theorem Ordered.acquireLock_relay (h : r.Ordered reads nums) (hlocked : r.Locked)
    (hpc : r.tasks[t]? = some (Pc.relayRead o)) (data : Bytes) (nowUs : Int) :
    (r.acquireLock p t (.relayLock o data) true nowUs).Ordered (reads ++ [(o, data)])
      (nums ++ if r.lock.owner = none then [(o, data)] else []) := by
  obtain ⟨ho, -⟩ := LockInv.outside hlocked hpc (by simp [Pc.atLock]) (by simp [Pc.inside])
  have hread : (r.arrive t (.relayLock o data)).Ordered (reads ++ [(o, data)]) nums :=
    RelayInv.read h hpc data
  have hself : (r.tasks.set t (.relayLock o data))[t]? = some (Pc.relayLock o data) :=
    List.getElem?_set_self (List.getElem?_eq_some_iff.mp hpc).1
  unfold Router.acquireLock
  by_cases hfree : r.lock.owner = none
  · have howner : (r.lock.acquire t).owner = some t := by rw [FairLock.acquire_of_free hfree]
    rw [if_pos hfree]
    dsimp only
    rw [if_pos howner]
    unfold Router.enter
    simp only [Router.setPc, hself, Option.getD_some]
    exact hread.relaySend hself nowUs
  · have howner : (r.lock.acquire t).owner ≠ some t := by
      rwa [(FairLock.acquire_of_held hfree t).1]
    rw [if_neg hfree, List.append_nil]
    dsimp only
    rw [if_neg howner]
    exact hread

theorem Ordered.newTask (h : r.Ordered reads nums) (queue : List (Bytes × Addr × Nat)) :
    Ordered { r with queue := queue, tasks := r.tasks ++ [.ended] } reads nums :=
  RelayInv.append h rfl

theorem Ordered.processPayload (h : r.Ordered reads nums) (hlocked : r.Locked)
    (hpc : r.tasks[t]? = some .ended) (packetInfo : Bytes × Addr × Nat) (outcome : SendOutcome)
    (udpOk : Bool) : (r.processPayload p t packetInfo outcome udpOk).Ordered reads nums := by
  unfold Router.processPayload
  split
  · exact h
  · exact h.acquireLock hlocked hpc rfl (by simp [Pc.inside]) rfl _ _
  · split
    · exact h
    · exact h.send hpc (by simp [Pc.relay]) _ _ _
  · exact h.acquireLock hlocked hpc rfl (by simp [Pc.inside]) rfl _ _

/-- **Step lemma**: a step reads and numbers what `chunkRead` and `chunkNumbered` say. -/
theorem Ordered.step (h : r.Ordered reads nums) (hlocked : r.Locked) {e : Event}
    (hstep : r.step p e = some r') :
    r'.Ordered (reads ++ (r.chunkRead e).toList) (nums ++ (r.chunkNumbered e).toList) := by
  have hnone : r'.Ordered reads nums → r.chunkRead e = none → r.chunkNumbered e = none →
      r'.Ordered (reads ++ (r.chunkRead e).toList) (nums ++ (r.chunkNumbered e).toList) := by
    intro h' hread hnumbered
    rw [hread, hnumbered, Option.toList_none, List.append_nil, List.append_nil]
    exact h'
  have hlast : ∀ l : List Pc, (l ++ [Pc.ended])[l.length]? = some .ended :=
    fun _ => List.getElem?_concat_length
  cases step_cases hstep with
  | deliver packetInfo => exact hnone h rfl rfl
  | @start packetInfo queue _ outcome udpOk =>
      have hlocked' : Locked { r with queue := queue, tasks := r.tasks ++ [.ended] } :=
        LockInv.append hlocked (by simp [Pc.inside])
      have hpayload := (h.newTask queue).processPayload (p := p) hlocked' (hlast r.tasks)
        packetInfo outcome udpOk
      exact hnone hpayload rfl rfl
  | @resume t udpOk nowUs _ howner hwaits henters =>
      by_cases hrelay : ∃ o data, r.tasks[t]? = some (Pc.relayLock o data)
      · obtain ⟨o, data, hpc⟩ := hrelay
        rw [henters.relay_eq hpc]
        simp only [chunkRead, chunkNumbered, hpc, Option.toList_none, Option.toList_some,
          List.append_nil]
        exact h.relaySend hpc nowUs
      · refine hnone ?_ rfl ?_
        · exact h.enter hlocked howner hwaits (fun o data hpc => hrelay ⟨o, data, hpc⟩) henters
        · unfold chunkNumbered
          dsimp only
          split
          · next o data hpc => exact absurd ⟨o, data, hpc⟩ hrelay
          · rfl
  | closedConnect hpc => exact hnone (h.makeSession hpc _ _) rfl rfl
  | closedClose hpc => exact hnone (h.leave hpc) rfl rfl
  | closedSend hpc => exact hnone (h.setPc hpc rfl) rfl rfl
  | closedCleanup hpc => exact hnone (h.cleanupLoop hpc (by simp [Pc.relay]) _) rfl rfl
  | @opened t o hpc =>
      -- nobody has read from a session that is not connected yet
      obtain ⟨hlt, hreads⟩ := RelayInv.holder h t _ o hpc rfl
      rw [List.length_map] at hlt
      have hsucceeded : (r.connectSucceeded t o).Ordered reads nums := by
        refine h.connectSucceeded hpc (fun u pcu hne hu ho => ?_) hlt ?_
        · exact hne (RelayInv.unique h u t pcu _ o hu hpc ho rfl)
        · rw [hreads]
          exact List.append_nil _
      exact hnone hsucceeded rfl rfl
  | @refused t o hpc =>
      have hfails : (r.connectFails t o).Ordered reads nums := RelayInv.set h hpc (.inl rfl)
      exact hnone hfails rfl rfl
  | drained hpc => exact hnone (h.setPc hpc rfl) rfl rfl
  | drainFails hpc => exact hnone (h.sendFailed hpc (by simp [Pc.relay]) _) rfl rfl
  | @sentTo t o s body hpc =>
      have hsent : Ordered ((r.write s body).setPc t .ended) reads nums :=
        RelayInv.set h hpc (.inl rfl)
      exact hnone hsent rfl rfl
  | sendToFails hpc => exact hnone (h.sendFailed hpc (by simp [Pc.relay]) _) rfl rfl
  | @relayEof t o data hpc heos nowUs =>
      have hread : r.chunkRead (.relayData t data nowUs) = none := by
        simp only [chunkRead, hpc, if_pos heos]
      have hnumbered : r.chunkNumbered (.relayData t data nowUs) = none := by
        simp only [chunkNumbered, hread, ite_self]
      exact hnone (h.relayEnds hpc o) hread hnumbered
  | @relayChunk t o data hpc heos nowUs =>
      have hread : r.chunkRead (.relayData t data nowUs) = some (o, data) := by
        simp only [chunkRead, hpc, heos, Bool.false_eq_true, if_false]
      have hnumbered : (r.chunkNumbered (.relayData t data nowUs)).toList =
          if r.lock.owner = none then [(o, data)] else [] := by
        unfold chunkNumbered
        dsimp only
        rw [hread]
        split_ifs <;> rfl
      rw [hread, hnumbered]
      exact h.acquireLock_relay hlocked hpc data nowUs
  | relayFails hpc => exact hnone (h.relayEnds hpc _) rfl rfl
  | cleanup =>
      have hlocked' : Locked { r with tasks := r.tasks ++ [.ended] } :=
        LockInv.append hlocked (by simp [Pc.inside])
      have harrives := (h.newTask r.queue).acquireLock (p := p) hlocked' (hlast r.tasks)
        (rfl : Pc.cleanupLock.atLock = true) (by simp [Pc.inside]) rfl true 0
      exact hnone harrives rfl rfl

/-- **Run lemma**, with what was read and numbered in the run. -/
theorem ordered_of_run {es : List Event} (hrun : runFrom (Router.step p) init es = some r) :
    r.Ordered (observe (Router.step p) chunkRead init es)
      (observe (Router.step p) chunkNumbered init es) := by
  have hinit : init.Locked ∧ init.Ordered [] [] := by
    refine ⟨init_locked, .nil, fun _ => List.nil_prefix, fun _ _ => rfl, ?_, ?_⟩ <;> simp [init]
  have hstep : ∀ (r : Router) (e : Event) (r' : Router) (reads nums : List (Nat × Bytes)),
      r.Locked ∧ r.Ordered reads nums → r.step p e = some r' →
      r'.Locked ∧
        r'.Ordered (reads ++ (r.chunkRead e).toList) (nums ++ (r.chunkNumbered e).toList) :=
    fun _ _ _ _ _ h hstep => ⟨h.1.step hstep, h.2.step h.1 hstep⟩
  exact (runFrom_observe hstep hinit hrun).2

end Server.Router

end AetherBond
