import AetherBond.Server.RouterLock

set_option autoImplicit false

/-! # After a refused connect

The task of a CONNECT that was refused queues for the lock it holds (`RouterLock.lean`), and
nobody ever wakes it. From there on the server is frozen (`Frozen`), whatever is received, read or
answered: nobody gets past the lock, so no entry of the session table is made or removed again, no
session becomes active, no packet goes back to any client, and `cleanup` does not finish. A relay
loop reads at most one more chunk from its destination, which nobody gets (`run_refused_frozen`).

What does not need the lock goes on: DATA for the sessions that are still active, and sends that
fail deactivate theirs and cancel their relay loops, also those that wait at the lock.
-/

namespace AetherBond.Server

open AetherBond.Lib AetherBond.Common

/-- Only the lock moves the task on, or what it awaits under the lock. A relay loop is left out: it
can be cancelled as well. -/
def Pc.stuck (pc : Pc) : Bool := (pc.atLock || pc.inside) && !pc.relay

namespace Router

/-- The relay task that an event reads bytes in. -/
def Event.reader? : Event → Option Nat
  | .relayData t _ _ => some t
  | _ => none

variable {p : AetherProtocol} {r r' r'' : Router} {t u o : Nat} {pc pc' : Pc}

/-- The connect of task `t` was refused. -/
structure Refused (r : Router) (t o : Nat) : Prop where
  pending : r.tasks[t]? = some (Pc.connectFailed o)
  owner : r.lock.owner = some t

/-- What a router and a later one have in common when nobody got past the lock. -/
structure Frozen (r r' : Router) : Prop where
  sessions : r'.sessions = r.sessions
  nextSeqOut : r'.nextSeqOut = r.nextSeqOut
  encryptCalls : r'.encryptCalls = r.encryptCalls
  responses : r'.responses = r.responses
  failed : r'.failed = r.failed
  owner : r'.lock.owner = r.lock.owner
  /-- No object is made. -/
  length : r'.objects.length = r.objects.length
  /-- No object becomes active. -/
  active : ∀ (o : Nat) (s : UserSpaceSession), r'.objects[o]? = some s → s.active = true →
    r.objects[o]? = some s
  /-- A task at the lock or inside it stays there, unless it is a relay loop. -/
  stuck : ∀ (u : Nat) (pc : Pc), r.tasks[u]? = some pc → pc.stuck = true → r'.tasks[u]? = some pc
  /-- No relay loop comes back to its read. -/
  read : ∀ u o : Nat, r'.tasks[u]? = some (Pc.relayRead o) → r.tasks[u]? = some (Pc.relayRead o)

theorem Frozen.refl (r : Router) : r.Frozen r :=
  ⟨rfl, rfl, rfl, rfl, rfl, rfl, rfl, fun _ _ hs _ => hs, fun _ _ hpc _ => hpc, fun _ _ hpc => hpc⟩

theorem Frozen.trans (h : r.Frozen r') (h' : r'.Frozen r'') : r.Frozen r'' where
  sessions := h'.sessions.trans h.sessions
  nextSeqOut := h'.nextSeqOut.trans h.nextSeqOut
  encryptCalls := h'.encryptCalls.trans h.encryptCalls
  responses := h'.responses.trans h.responses
  failed := h'.failed.trans h.failed
  owner := h'.owner.trans h.owner
  length := h'.length.trans h.length
  active o s hs hon := h.active o s (h'.active o s hs hon) hon
  stuck u pc hpc hstuck := h'.stuck u pc (h.stuck u pc hpc hstuck) hstuck
  read u o hpc := h.read u o (h'.read u o hpc)

theorem Refused.frozen (h : r.Refused t o) (hfrozen : r.Frozen r') : r'.Refused t o :=
  ⟨hfrozen.stuck t _ h.pending rfl, hfrozen.owner.trans h.owner⟩

theorem Refused.ne (h : r.Refused t o) (hpc : r.tasks[u]? = some pc)
    (hne : pc ≠ .connectFailed o) : t ≠ u := by
  rintro rfl
  exact hne (Option.some.inj (hpc.symm.trans h.pending))

/-- Nobody else is inside a critical section. -/
theorem Refused.not_inside (h : r.Refused t o) (hlocked : r.Locked)
    (hpc : r.tasks[u]? = some pc) (hne : pc ≠ .connectFailed o) : ¬ pc.inside := by
  intro hin
  have howner := hlocked.inside u pc hpc hin
  exact h.ne hpc hne (Option.some.inj (h.owner.symm.trans howner))

/-- A connect has failed exactly when a task is left in the failure branch. -/
theorem Locked.refused (h : r.Locked) (hfailed : r.failed ≠ []) : ∃ t o, r.Refused t o := by
  obtain ⟨t, o, hpc⟩ := h.failed.mp hfailed
  exact ⟨t, o, hpc, h.inside t _ hpc rfl⟩

/-! ## The operations leave the router frozen -/

/-- A task that is not stuck goes where it does not read again. -/
theorem setPc_frozen (hpc : r.tasks[u]? = some pc) (hstuck : pc.stuck = false)
    (hread : ∀ o, pc' ≠ .relayRead o) {lock : FairLock Nat} (howner : lock.owner = r.lock.owner) :
    r.Frozen { r.setPc u pc' with lock := lock } where
  sessions := rfl
  nextSeqOut := rfl
  encryptCalls := rfl
  responses := rfl
  failed := rfl
  owner := howner
  length := rfl
  active _ _ hs _ := hs
  stuck v pcv hv hvstuck := by
    have hne : v ≠ u := by
      rintro rfl
      obtain rfl : pcv = pc := Option.some.inj (hv.symm.trans hpc)
      simp [hstuck] at hvstuck
    exact (List.getElem?_set_ne hne.symm).trans hv
  read v o hv := by
    obtain ⟨heq, -⟩ | ⟨-, hv⟩ := getElem?_set_cases hv
    · exact absurd heq.symm (hread o)
    · exact hv

theorem written_frozen (r : Router) (written : List (UserSpaceSession × Bytes)) :
    r.Frozen { r with written := written } :=
  ⟨rfl, rfl, rfl, rfl, rfl, rfl, rfl, fun _ _ hs _ => hs, fun _ _ hpc _ => hpc, fun _ _ hpc => hpc⟩

theorem deactivate_frozen (r : Router) (o : Nat) (s : UserSpaceSession) :
    r.Frozen (r.deactivate o s) where
  sessions := rfl
  nextSeqOut := rfl
  encryptCalls := rfl
  responses := rfl
  failed := rfl
  owner := rfl
  length := List.length_set
  active o' s' hs' hon := by
    obtain ⟨rfl, -⟩ | ⟨-, hs'⟩ := getElem?_set_cases hs'
    · exact absurd hon Bool.false_ne_true
    · exact hs'
  stuck _ _ hpc _ := hpc
  read _ _ hpc := hpc

theorem Refused.cancelTask (h : r.Refused t o) (u : Nat) : r.Frozen (r.cancelTask u) := by
  unfold Router.cancelTask
  split
  · next hpc => exact setPc_frozen hpc rfl (by simp) rfl
  · next hpc =>
      have hne := h.ne hpc (by simp)
      -- a relay task that waits leaves the queue
      have hnot : r.lock.owner ≠ some u := by
        rw [h.owner]
        exact fun heq => hne (Option.some.inj heq)
      exact setPc_frozen hpc rfl (by simp) (FairLock.cancel_of_not_owner hnot).1
  · exact .refl r

theorem Refused.closeSession (h : r.Refused t o) (o' : Nat) : r.Frozen (r.closeSession o').1 := by
  obtain heq | ⟨s, -, -, heq | ⟨u, heq⟩⟩ := closeSession_cases r o' <;> rw [heq]
  · exact .refl r
  · exact deactivate_frozen r o' s
  · have hoff := deactivate_frozen r o' s
    exact hoff.trans ((h.frozen hoff).cancelTask u)

theorem Refused.sendFailed (h : r.Refused t o) (hpc : r.tasks[u]? = some pc)
    (hrelay : ¬ pc.relay) (hstuck : pc.stuck = false) (o' : Nat) :
    r.Frozen (r.sendFailed u o') := by
  have hset : (r.closeSession o').1.Frozen (r.sendFailed u o') := by
    refine setPc_frozen (closeSession_tasks hpc hrelay o') hstuck ?_ rfl
    intro o''
    split_ifs <;> simp
  exact (h.closeSession o').trans hset

theorem Refused.relayEnds (h : r.Refused t o) {o' : Nat}
    (hpc : r.tasks[u]? = some (Pc.relayRead o')) : r.Frozen (r.relayEnds u o') := by
  have hset : r.Frozen (r.setPc u .ended) := setPc_frozen hpc rfl (by simp) rfl
  exact hset.trans ((h.frozen hset).closeSession o')

theorem Refused.send (h : r.Refused t o) (hpc : r.tasks[u]? = some .ended) (o' : Nat)
    (body : Bytes) (outcome : SendOutcome) : r.Frozen (r.send u o' body outcome) := by
  have hset : ∀ pc', (∀ o, pc' ≠ .relayRead o) → r.Frozen (r.setPc u pc') :=
    fun pc' hread => setPc_frozen hpc rfl hread rfl
  have hwrite : ∀ s, r.Frozen (r.write s body) := fun s => written_frozen r _
  have hwriteSet : ∀ s pc', (∀ o, pc' ≠ .relayRead o) → r.Frozen ((r.write s body).setPc u pc') :=
    fun s pc' hread => (hset pc' hread).trans (written_frozen _ _)
  unfold Router.send
  split
  · exact hset _ (by simp)
  · split_ifs
    · split
      · exact hwriteSet _ _ (by simp)
      · exact hwriteSet _ _ (by simp)
      · exact hset _ (by simp)
      · exact (hwrite _).trans
          ((h.frozen (hwrite _)).sendFailed hpc (by simp [Pc.relay]) rfl o')
      · exact h.sendFailed hpc (by simp [Pc.relay]) rfl o'
    · exact hset _ (by simp)

theorem Refused.acquireLock (h : r.Refused t o) (hpc : r.tasks[u]? = some pc)
    (hstuck : pc.stuck = false) (hread : ∀ o, pc' ≠ .relayRead o) (udpOk : Bool) (nowUs : Int) :
    r.Frozen (r.acquireLock p u pc' udpOk nowUs) := by
  have hne : t ≠ u := by
    refine h.ne hpc ?_
    rintro rfl
    cases hstuck
  have hheld : r.lock.owner ≠ none := by
    rw [h.owner]
    simp
  rw [acquireLock_of_held h.owner hne]
  exact setPc_frozen hpc hstuck hread (FairLock.acquire_of_held hheld u).1

theorem newTask_frozen (r : Router) (queue : List (Bytes × Addr × Nat)) :
    r.Frozen { r with queue := queue, tasks := r.tasks ++ [.ended] } where
  sessions := rfl
  nextSeqOut := rfl
  encryptCalls := rfl
  responses := rfl
  failed := rfl
  owner := rfl
  length := rfl
  active _ _ hs _ := hs
  stuck u pc hpc _ :=
    (List.getElem?_append_left (List.getElem?_eq_some_iff.mp hpc).1).trans hpc
  read u o hpc := by
    obtain ⟨heq, -⟩ | hpc := getElem?_concat_cases hpc
    · cases heq
    · exact hpc

theorem Refused.processPayload (h : r.Refused t o) (hpc : r.tasks[u]? = some .ended)
    (packetInfo : Bytes × Addr × Nat) (outcome : SendOutcome) (udpOk : Bool) :
    r.Frozen (r.processPayload p u packetInfo outcome udpOk) := by
  unfold Router.processPayload
  split
  · exact .refl r
  · exact h.acquireLock hpc rfl (by simp) _ _
  · split
    · exact .refl r
    · exact h.send hpc _ _ _
  · exact h.acquireLock hpc rfl (by simp) _ _

/-! ## Every step does -/

/-- **Step lemma**: whatever happens after a refused connect, the router is frozen. -/
theorem Refused.step (h : r.Refused t o) (hlocked : r.Locked) {e : Event}
    (hstep : r.step p e = some r') : r.Frozen r' := by
  have hlast : (r.tasks ++ [Pc.ended])[r.tasks.length]? = some .ended := by simp
  cases step_cases hstep with
  | deliver packetInfo =>
      exact ⟨rfl, rfl, rfl, rfl, rfl, rfl, rfl, fun _ _ hs _ => hs, fun _ _ hpc _ => hpc,
        fun _ _ hpc => hpc⟩
  | @start packetInfo queue _ outcome udpOk =>
      have hnew := newTask_frozen r queue
      have hpayload := (h.frozen hnew).processPayload (p := p) hlast packetInfo outcome udpOk
      have hstarted := hnew.trans hpayload
      exact ⟨hstarted.sessions, hstarted.nextSeqOut, hstarted.encryptCalls, hstarted.responses,
        hstarted.failed, hstarted.owner, hstarted.length, hstarted.active, hstarted.stuck,
        hstarted.read⟩
  | resume howner hwaits henters =>
      -- the owner waits for itself, so it is not woken
      obtain rfl := Option.some.inj (h.owner.symm.trans howner)
      exact absurd ((LockInv.selfWait hlocked _ howner).mpr ⟨o, h.pending⟩) hwaits
  | closedConnect hpc => exact absurd rfl (h.not_inside hlocked hpc (by simp))
  | closedClose hpc => exact absurd rfl (h.not_inside hlocked hpc (by simp))
  | closedSend hpc => exact setPc_frozen hpc rfl (by simp) rfl
  | closedCleanup hpc => exact absurd rfl (h.not_inside hlocked hpc (by simp))
  | opened hpc => exact absurd rfl (h.not_inside hlocked hpc (by simp))
  | refused hpc => exact absurd rfl (h.not_inside hlocked hpc (by simp))
  | drained hpc => exact setPc_frozen hpc rfl (by simp) rfl
  | drainFails hpc => exact h.sendFailed hpc (by simp [Pc.relay]) rfl _
  | @sentTo _ _ s body hpc =>
      have hset : r.Frozen (r.setPc _ .ended) := setPc_frozen hpc rfl (by simp) rfl
      exact hset.trans (written_frozen _ _)
  | sendToFails hpc => exact h.sendFailed hpc (by simp [Pc.relay]) rfl _
  | relayEof hpc => exact h.relayEnds hpc
  | relayChunk hpc => exact h.acquireLock hpc rfl (by simp) _ _
  | relayFails hpc => exact h.relayEnds hpc
  | cleanup =>
      have hnew := newTask_frozen r r.queue
      exact hnew.trans ((h.frozen hnew).acquireLock hlast rfl (by simp) true 0)

/-- A relay loop that has read a chunk waits with it. -/
theorem Refused.relayData (h : r.Refused t o) {data : Bytes} {nowUs : Int}
    (hstep : r.step p (.relayData u data nowUs) = some r') (o' : Nat) :
    r'.tasks[u]? ≠ some (Pc.relayRead o') := by
  cases step_cases hstep with
  | @relayEof _ o'' _ hpc =>
      have hset : r.Frozen (r.setPc u .ended) := setPc_frozen hpc rfl (by simp) rfl
      have hended : (r.setPc u .ended).tasks[u]? = some .ended :=
        List.getElem?_set_self (List.getElem?_eq_some_iff.mp hpc).1
      intro hread
      have hend := ((h.frozen hset).closeSession o'').read u o' hread
      rw [hended] at hend
      cases hend
  | relayChunk hpc =>
      have hwaits : ∀ pc, (r.arrive u pc).tasks[u]? = some pc := fun pc =>
        List.getElem?_set_self (List.getElem?_eq_some_iff.mp hpc).1
      rw [acquireLock_of_held h.owner (h.ne hpc (by simp)), hwaits]
      simp

/-- `us` are the relay tasks that have read since the connect was refused in `r`. -/
structure Readers (r r' : Router) (us : List Nat) : Prop where
  locked : r'.Locked
  frozen : r.Frozen r'
  nodup : us.Nodup
  /-- None of them reads again. -/
  done : ∀ u ∈ us, ∀ o : Nat, r'.tasks[u]? ≠ some (Pc.relayRead o)

theorem Readers.step (hrefused : r.Refused t o) {us : List Nat} (h : r.Readers r' us) {e : Event}
    (hstep : r'.step p e = some r'') : r.Readers r'' (us ++ e.reader?.toList) := by
  have hnow := hrefused.frozen h.frozen
  have hfrozen := hnow.step h.locked hstep
  have hold : ∀ u ∈ us, ∀ o : Nat, r''.tasks[u]? ≠ some (Pc.relayRead o) :=
    fun u hu o hread => h.done u hu o (hfrozen.read u o hread)
  refine ⟨h.locked.step hstep, h.frozen.trans hfrozen, ?_, ?_⟩
  · cases e with
    | relayData u data nowUs =>
        -- it was at its read, so it is not one of those before
        have hnew : u ∉ us := by
          intro hu
          cases step_cases hstep with
          | relayEof hpc => exact h.done u hu _ hpc
          | relayChunk hpc => exact h.done u hu _ hpc
        simpa [Event.reader?] using h.nodup.concat hnew
    | _ => simpa [Event.reader?] using h.nodup
  · cases e with
    | relayData u data nowUs =>
        intro v hv o' hread
        rcases List.mem_append.mp hv with hv | hv
        · exact hold v hv o' hread
        · obtain rfl : v = u := by simpa [Event.reader?] using hv
          exact hnow.relayData hstep o' hread
    | _ => simpa [Event.reader?] using hold

/-- **A refused connect freezes the server**: in every continuation of every run in which a
connect failed, the session table, the counter and what was sent back stay as they were, no task
but a relay loop leaves the lock, and each relay loop reads at most once more. -/
theorem run_refused_frozen (p : AetherProtocol) (es es' : List Event) (r r' : Router)
    (hrun : runFrom (Router.step p) init es = some r) (hfailed : r.failed ≠ [])
    (hrun' : runFrom (Router.step p) r es' = some r') :
    r.Frozen r' ∧ (es'.filterMap Event.reader?).Nodup := by
  have hlocked : r.Locked := locked_of_run hrun
  obtain ⟨t, o, hrefused⟩ := hlocked.refused hfailed
  have hstart : r.Readers r [] := ⟨hlocked, .refl r, List.nodup_nil, by simp⟩
  have h := runFrom_history (f := Event.reader?) (I := fun r' us => r.Readers r' us)
    (fun _ _ _ _ h hstep => h.step hrefused hstep) hstart hrun'
  exact ⟨h.frozen, by simpa using h.nodup⟩

/-- Session 7 relays, the connect of session 8 is refused. DATA goes on; the chunk that is read, the
CLOSE and `cleanup` wait. -/
theorem run_refused_frozen_second :
    ∃ r r', runFrom (Router.step (.new .checksum [1])) init
        [.deliver (frame 1 7 [1, 0, 80, 97], ("10.0.0.1", 4000), 0), .start .done true,
          .opened 0 true, .deliver (frame 1 8 [1, 0, 80, 98], ("10.0.0.1", 4000), 0),
          .start .done true, .opened 2 false] = some r ∧
      runFrom (Router.step (.new .checksum [1])) r
        [.relayData 1 [104] 5, .deliver (frame 2 7 [120], ("10.0.0.1", 4000), 1),
          .start .done true, .deliver (frame 3 7 [], ("10.0.0.1", 4000), 0), .start .done true,
          .cleanup] = some r' ∧
      r.Frozen r' ∧ [1].Nodup := by
  obtain ⟨r', hall⟩ := Option.isSome_iff_exists.mp (show (runFrom
    (Router.step (.new .checksum [1])) init
    ([.deliver (frame 1 7 [1, 0, 80, 97], ("10.0.0.1", 4000), 0), .start .done true,
      .opened 0 true, .deliver (frame 1 8 [1, 0, 80, 98], ("10.0.0.1", 4000), 0),
      .start .done true, .opened 2 false] ++
      [.relayData 1 [104] 5, .deliver (frame 2 7 [120], ("10.0.0.1", 4000), 1),
        .start .done true, .deliver (frame 3 7 [], ("10.0.0.1", 4000), 0), .start .done true,
        .cleanup])).isSome by decide)
  obtain ⟨r, hrun, hrun'⟩ := runFrom_append_eq_some.mp hall
  have hfailed : (some r).map Router.failed = some [1] := by
    rw [← hrun]
    decide
  exact ⟨r, r', hrun, hrun', run_refused_frozen _ _ _ r r' hrun
    (by rw [Option.some.inj hfailed]; simp) hrun'⟩

end Router

end AetherBond.Server
