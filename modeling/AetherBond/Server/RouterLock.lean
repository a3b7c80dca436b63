import AetherBond.Server.Router

set_option autoImplicit false

/-! # The router's lock

Who holds `self._lock`, who waits for it, and when a task does both.

`LockInv` ties the lock to the program counters: the owner is a task that is at the lock (it
was handed over and the task has not gone on yet) or inside a critical section, a waiter is
at the lock, and a task inside a critical section is the owner. The one place where the owner
queues for its own lock is the failure branch of CONNECT, so a connect fails in a run exactly
when the run ends with the owner waiting for itself (`run_lockSafe_iff`). From then on no task
gets past the lock.
-/

namespace AetherBond.Server

open AetherBond.Lib AetherBond.Common

/-! ## The invariant -/

namespace Pc

/-- At `async with self._lock`, not inside another one. -/
def atLock : Pc → Bool
  | .connectLock _ | .closeLock _ | .relayLock _ _ | .cleanupLock => true
  | _ => false

/-- Inside `async with self._lock`. -/
def inside : Pc → Bool
  | .connectClose _ | .connectOpen _ | .connectFailed _ | .closeClose | .cleanupClose _ => true
  | _ => false

end Pc

structure LockInv (tasks : List Pc) (lock : FairLock Nat) (failed : List Nat) : Prop where
  nodup : lock.waiters.Nodup
  waiter : ∀ t ∈ lock.waiters, ∃ pc, tasks[t]? = some pc ∧ (pc.atLock ∨ pc.inside)
  owner : ∀ t, lock.owner = some t → ∃ pc, tasks[t]? = some pc ∧ (pc.atLock ∨ pc.inside)
  inside : ∀ t pc, tasks[t]? = some pc → pc.inside → lock.owner = some t
  /-- The owner waits exactly in the failure branch. -/
  selfWait : ∀ t, lock.owner = some t →
    (t ∈ lock.waiters ↔ ∃ o : Nat, tasks[t]? = some (Pc.connectFailed o))
  failed : failed ≠ [] ↔ ∃ t o : Nat, tasks[t]? = some (Pc.connectFailed o)

namespace LockInv

variable {tasks : List Pc} {lock : FairLock Nat} {failed : List Nat} {t u o : Nat} {pc pc' : Pc}

theorem not_mem_waiters (h : LockInv tasks lock failed) (ho : lock.owner = some t)
    (hpc : tasks[t]? = some pc) (hne : ∀ o, pc ≠ .connectFailed o) : t ∉ lock.waiters := by
  intro hin
  obtain ⟨o, hfail⟩ := (h.selfWait t ho).mp hin
  exact hne o (Option.some.inj (hpc.symm.trans hfail))

/-- A waiter that does not hold the lock is at the lock. -/
theorem waiter_atLock (h : LockInv tasks lock failed) (hin : u ∈ lock.waiters)
    (hne : lock.owner ≠ some u) : ∃ pc, tasks[u]? = some pc ∧ pc.atLock ∧ ¬ pc.inside := by
  obtain ⟨pc, hpc, hor⟩ := h.waiter u hin
  have hnot : ¬ pc.inside := fun hi => hne (h.inside u pc hpc hi)
  exact ⟨pc, hpc, hor.resolve_right hnot, hnot⟩

/-- A task that is neither at the lock nor inside has nothing to do with it. -/
theorem outside (h : LockInv tasks lock failed) (hpc : tasks[t]? = some pc)
    (ha : ¬ pc.atLock) (hi : ¬ pc.inside) : lock.owner ≠ some t ∧ t ∉ lock.waiters := by
  constructor
  · intro ho
    obtain ⟨pc', hpc', hor⟩ := h.owner t ho
    obtain rfl : pc = pc' := Option.some.inj (hpc.symm.trans hpc')
    exact hor.elim ha hi
  · intro hin
    obtain ⟨pc', hpc', hor⟩ := h.waiter t hin
    obtain rfl : pc = pc' := Option.some.inj (hpc.symm.trans hpc')
    exact hor.elim ha hi

/-- Replacing the counter of one task by one that is not in the failure branch. -/
theorem failed_set (h : LockInv tasks lock failed) (hpc : tasks[t]? = some pc)
    (hold : ∀ o, pc ≠ .connectFailed o) (hnew : ∀ o, pc' ≠ .connectFailed o) :
    failed ≠ [] ↔ ∃ u o : Nat, (tasks.set t pc')[u]? = some (Pc.connectFailed o) := by
  rw [h.failed]
  constructor
  · rintro ⟨u, o, hu⟩
    have hne : u ≠ t := by
      rintro rfl
      exact hold o (Option.some.inj (hpc.symm.trans hu))
    exact ⟨u, o, by rw [List.getElem?_set_ne hne.symm]; exact hu⟩
  · rintro ⟨u, o, hu⟩
    obtain ⟨heq, -⟩ | ⟨-, hu⟩ := getElem?_set_cases hu
    · exact absurd heq.symm (hnew o)
    · exact ⟨u, o, hu⟩

/-- After a move of task `t`, those inside still hold the lock if the lock was not taken from
any other task and `t` holds it as far as it is inside. -/
theorem inside_set (h : LockInv tasks lock failed) (hpc : tasks[t]? = some pc)
    {lock' : FairLock Nat} (hkeep : ∀ u ≠ t, lock.owner = some u → lock'.owner = some u)
    (hself : pc'.inside → lock'.owner = some t) :
    ∀ u pcu, (tasks.set t pc')[u]? = some pcu → pcu.inside → lock'.owner = some u := by
  intro u pcu hu hin
  obtain ⟨rfl, rfl⟩ | ⟨hut, hu⟩ := getElem?_set_cases hu
  · exact hself hin
  · exact hkeep u hut (h.inside u pcu hu hin)

/-- A task that does not wait changes nothing for those that do. -/
theorem waiter_set (h : LockInv tasks lock failed) (hw : t ∉ lock.waiters) (pc' : Pc) :
    ∀ u ∈ lock.waiters, ∃ pc, (tasks.set t pc')[u]? = some pc ∧ (pc.atLock ∨ pc.inside) := by
  intro u hu
  rw [List.getElem?_set_ne (by rintro rfl; exact hw hu)]
  exact h.waiter u hu

theorem not_connectFailed (h : ¬ pc.inside) : ∀ o, pc ≠ .connectFailed o := by
  rintro o rfl
  exact h rfl

/-- A task outside the lock moves to a counter outside every critical section. -/
theorem set_outside (h : LockInv tasks lock failed) (hpc : tasks[t]? = some pc)
    (ho : lock.owner ≠ some t) (hw : t ∉ lock.waiters) (hi' : ¬ pc'.inside) :
    LockInv (tasks.set t pc') lock failed := by
  have hi : ¬ pc.inside := fun hi => ho (h.inside t pc hpc hi)
  constructor
  case nodup => exact h.nodup
  case waiter => exact h.waiter_set hw pc'
  case owner =>
    intro u hu
    rw [List.getElem?_set_ne (by rintro rfl; exact ho hu)]
    exact h.owner u hu
  case inside => exact h.inside_set hpc (fun _ _ hu => hu) fun hin => absurd hin hi'
  case selfWait =>
    intro u hu
    rw [List.getElem?_set_ne (by rintro rfl; exact ho hu)]
    exact h.selfWait u hu
  case failed => exact h.failed_set hpc (not_connectFailed hi) (not_connectFailed hi')

/-- A new task starts outside every critical section. -/
theorem append (h : LockInv tasks lock failed) (hi : ¬ pc.inside) :
    LockInv (tasks ++ [pc]) lock failed := by
  have hold : ∀ {u : Nat} {pcu : Pc}, tasks[u]? = some pcu → (tasks ++ [pc])[u]? = some pcu := by
    intro u pcu hu
    obtain ⟨hlt, -⟩ := List.getElem?_eq_some_iff.mp hu
    rw [List.getElem?_append_left hlt]
    exact hu
  have hnew : ∀ {u : Nat} {pcu : Pc}, (tasks ++ [pc])[u]? = some pcu →
      tasks[u]? = some pcu ∨ pcu = pc :=
    fun hu => (getElem?_concat_cases hu).symm.imp_right And.left
  constructor
  case nodup => exact h.nodup
  case waiter =>
    intro u hu
    obtain ⟨pcu, hpcu, hor⟩ := h.waiter u hu
    exact ⟨pcu, hold hpcu, hor⟩
  case owner =>
    intro u hu
    obtain ⟨pcu, hpcu, hor⟩ := h.owner u hu
    exact ⟨pcu, hold hpcu, hor⟩
  case inside =>
    intro u pcu hu hin
    rcases hnew hu with hu | rfl
    · exact h.inside u pcu hu hin
    · exact absurd hin hi
  case selfWait =>
    intro u hu
    rw [h.selfWait u hu]
    constructor
    · rintro ⟨o, hfail⟩
      exact ⟨o, hold hfail⟩
    · rintro ⟨o, hfail⟩
      exact ⟨o, (hnew hfail).resolve_right fun heq => hi (heq ▸ rfl)⟩
  case failed =>
    rw [h.failed]
    constructor
    · rintro ⟨u, o, hu⟩
      exact ⟨u, o, hold hu⟩
    · rintro ⟨u, o, hu⟩
      exact ⟨u, o, (hnew hu).resolve_right fun heq => hi (heq ▸ rfl)⟩

/-- The owner moves inside its critical section. -/
theorem set_owner (h : LockInv tasks lock failed) (hpc : tasks[t]? = some pc)
    (ho : lock.owner = some t) (hw : t ∉ lock.waiters) (hi' : pc'.inside)
    (hnew : ∀ o, pc' ≠ .connectFailed o) : LockInv (tasks.set t pc') lock failed := by
  have hold : ∀ o, pc ≠ .connectFailed o := by
    rintro o rfl
    exact hw ((h.selfWait t ho).mpr ⟨o, hpc⟩)
  constructor
  case nodup => exact h.nodup
  case waiter => exact h.waiter_set hw pc'
  case owner =>
    intro u hu
    obtain rfl : t = u := Option.some.inj (ho.symm.trans hu)
    exact ⟨pc', List.getElem?_set_self (List.getElem?_eq_some_iff.mp hpc).1, Or.inr hi'⟩
  case inside => exact h.inside_set hpc (fun _ _ hu => hu) fun _ => ho
  case selfWait =>
    intro u hu
    obtain rfl : t = u := Option.some.inj (ho.symm.trans hu)
    rw [List.getElem?_set_self (List.getElem?_eq_some_iff.mp hpc).1]
    constructor
    · exact fun hin => absurd hin hw
    · rintro ⟨o, hfail⟩
      exact absurd (Option.some.inj hfail) (hnew o)
  case failed => exact h.failed_set hpc hold hnew

/-- The owner gives the lock up on its way out of the critical section. -/
theorem release (h : LockInv tasks lock failed) (hpc : tasks[t]? = some pc)
    (ho : lock.owner = some t) (hw : t ∉ lock.waiters) (hi' : ¬ pc'.inside) :
    LockInv (tasks.set t pc') lock.release failed := by
  have hold : ∀ o, pc ≠ .connectFailed o := by
    rintro o rfl
    exact hw ((h.selfWait t ho).mpr ⟨o, hpc⟩)
  -- whoever waited was at the lock, and so is the one that gets it
  have hwait : ∀ u ∈ lock.waiters, ∃ pcu : Pc, (tasks.set t pc')[u]? = some pcu ∧ pcu.atLock ∧
      ¬ pcu.inside := by
    intro u hu
    have hut : u ≠ t := by rintro rfl; exact hw hu
    obtain ⟨pcu, hpcu, hat, hin⟩ := h.waiter_atLock hu
      (fun heq => hut (Option.some.inj (heq.symm.trans ho)))
    exact ⟨pcu, by rw [List.getElem?_set_ne hut.symm]; exact hpcu, hat, hin⟩
  constructor
  case nodup => exact FairLock.nodup_release h.nodup
  case waiter =>
    intro u hu
    obtain ⟨pcu, hpcu, hat, -⟩ := hwait u (FairLock.mem_waiters_release hu)
    exact ⟨pcu, hpcu, Or.inl hat⟩
  case owner =>
    intro u hu
    obtain ⟨pcu, hpcu, hat, -⟩ := hwait u (FairLock.owner_release h.nodup hu).1
    exact ⟨pcu, hpcu, Or.inl hat⟩
  case inside =>
    refine h.inside_set hpc (fun u hut hu => ?_) fun hin => absurd hin hi'
    exact absurd (Option.some.inj (hu.symm.trans ho)) hut
  case selfWait =>
    intro u hu
    obtain ⟨hin, hout⟩ := FairLock.owner_release h.nodup hu
    constructor
    · exact fun hin' => absurd hin' hout
    · rintro ⟨o, hfail⟩
      obtain ⟨pcu, hpcu, -, hnot⟩ := hwait u hin
      exact absurd (Option.some.inj (hpcu.symm.trans hfail)) (not_connectFailed hnot o)
  case failed => exact h.failed_set hpc hold (not_connectFailed hi')

/-- A task outside the lock arrives at it. -/
theorem acquire (h : LockInv tasks lock failed) (hpc : tasks[t]? = some pc)
    (ho : lock.owner ≠ some t) (hw : t ∉ lock.waiters) (hat : pc'.atLock) (hi' : ¬ pc'.inside) :
    LockInv (tasks.set t pc') (lock.acquire t) failed := by
  have h' := h.set_outside hpc ho hw hi'
  have hself : (tasks.set t pc')[t]? = some pc' :=
    List.getElem?_set_self (List.getElem?_eq_some_iff.mp hpc).1
  have hnodup := FairLock.nodup_acquire h.nodup hw
  have hwaiter : ∀ u ∈ (lock.acquire t).waiters, ∃ pcu, (tasks.set t pc')[u]? = some pcu ∧
      (pcu.atLock ∨ pcu.inside) := by
    intro u hu
    rcases FairLock.mem_waiters_acquire hu with hu | rfl
    · exact h'.waiter u hu
    · exact ⟨pc', hself, Or.inl hat⟩
  by_cases hfree : lock.owner = none
  · -- the task gets the lock at once
    rw [FairLock.acquire_of_free hfree] at hnodup hwaiter ⊢
    constructor
    case nodup => exact hnodup
    case waiter => exact hwaiter
    case owner =>
      intro u hu
      obtain rfl : t = u := Option.some.inj hu
      exact ⟨pc', hself, Or.inl hat⟩
    case inside =>
      intro u pcu hu hin
      exact absurd (hfree.symm.trans (h'.inside u pcu hu hin)) (by simp)
    case selfWait =>
      intro u hu
      obtain rfl : t = u := Option.some.inj hu
      constructor
      · exact fun hin => by cases hin
      · rintro ⟨o, hfail⟩
        exact absurd (Option.some.inj (hself.symm.trans hfail)) (not_connectFailed hi' o)
    case failed => exact h'.failed
  · obtain ⟨hown, hwait⟩ := FairLock.acquire_of_held hfree t
    constructor
    case nodup => exact hnodup
    case waiter => exact hwaiter
    case owner =>
      intro u hu
      exact h'.owner u (hown ▸ hu)
    case inside =>
      intro u pcu hu hin
      rw [hown]
      exact h'.inside u pcu hu hin
    case selfWait =>
      intro u hu
      rw [hown] at hu
      have hut : u ≠ t := by rintro rfl; exact ho hu
      rw [hwait, List.mem_append, List.mem_singleton, ← h'.selfWait u hu]
      exact or_iff_left hut
    case failed => exact h'.failed

/-- The failure branch of CONNECT: the owner queues for the lock it holds. -/
theorem fails (h : LockInv tasks lock failed) (hpc : tasks[t]? = some pc)
    (ho : lock.owner = some t) (hw : t ∉ lock.waiters) (o : Nat) :
    LockInv (tasks.set t (.connectFailed o)) (lock.acquire t) (failed ++ [o]) := by
  have hself : (tasks.set t (.connectFailed o))[t]? = some (Pc.connectFailed o) :=
    List.getElem?_set_self (List.getElem?_eq_some_iff.mp hpc).1
  obtain ⟨hown, hwait⟩ := FairLock.acquire_of_held (l := lock) (by rw [ho]; simp) t
  constructor
  case nodup => exact FairLock.nodup_acquire h.nodup hw
  case waiter =>
    intro u hu
    by_cases hut : u = t
    · rw [hut]
      exact ⟨_, hself, Or.inr rfl⟩
    · rw [List.getElem?_set_ne (Ne.symm hut)]
      exact h.waiter u ((FairLock.mem_waiters_acquire hu).resolve_right hut)
  case owner =>
    intro u hu
    obtain rfl : t = u := Option.some.inj (ho.symm.trans (hown.symm.trans hu))
    exact ⟨_, hself, Or.inr rfl⟩
  case inside => exact h.inside_set hpc (fun _ _ hu => hown.trans hu) fun _ => hown.trans ho
  case selfWait =>
    intro u hu
    obtain rfl : t = u := Option.some.inj (ho.symm.trans (hown.symm.trans hu))
    rw [hwait]
    exact ⟨fun _ => ⟨o, hself⟩, fun _ => by simp⟩
  case failed => exact ⟨fun _ => ⟨t, o, hself⟩, fun _ => by simp⟩

/-- Cancelling a relay task that waits for the lock or was just handed it. -/
theorem cancel (h : LockInv tasks lock failed) {data : Bytes}
    (hpc : tasks[t]? = some (Pc.relayLock o data)) :
    LockInv (tasks.set t .ended) (lock.cancel t) failed := by
  by_cases ho : lock.owner = some t
  · rw [FairLock.cancel_of_owner ho]
    exact h.release hpc ho (h.not_mem_waiters ho hpc (by simp)) (by simp [Pc.inside])
  · obtain ⟨hown, hwait⟩ := FairLock.cancel_of_not_owner ho
    have hne : ∀ u, u ∈ (lock.cancel t).waiters → u ∈ lock.waiters ∧ u ≠ t := by
      intro u hu
      rw [hwait] at hu
      simpa using hu
    constructor
    case nodup =>
      rw [hwait]
      exact h.nodup.filter _
    case waiter =>
      intro u hu
      rw [List.getElem?_set_ne (hne u hu).2.symm]
      exact h.waiter u (hne u hu).1
    case owner =>
      intro u hu
      rw [hown] at hu
      rw [List.getElem?_set_ne (by rintro rfl; exact ho hu)]
      exact h.owner u hu
    case inside =>
      exact h.inside_set hpc (fun _ _ hu => hown.trans hu) fun hin => by simp [Pc.inside] at hin
    case selfWait =>
      intro u hu
      rw [hown] at hu
      have hut : u ≠ t := by rintro rfl; exact ho hu
      rw [List.getElem?_set_ne hut.symm, ← h.selfWait u hu, hwait]
      simp [hut]
    case failed => exact h.failed_set hpc (by simp) (by simp)

end LockInv

/-! ## The operations keep it -/

namespace Router

variable {p : AetherProtocol} {r r' : Router} {t o : Nat} {pc : Pc}

def Locked (r : Router) : Prop := LockInv r.tasks r.lock r.failed

/-- Task `t` is running inside `async with self._lock`, and is not a relay task. -/
structure Running (r : Router) (t : Nat) : Prop where
  locked : r.Locked
  owner : r.lock.owner = some t
  waits : t ∉ r.lock.waiters
  pc : ∃ pc, r.tasks[t]? = some pc ∧ ¬ pc.relay

theorem Locked.cancelTask (h : r.Locked) (t : Nat) : (r.cancelTask t).Locked := by
  unfold Router.cancelTask
  split
  · next hpc =>
      obtain ⟨ho, hw⟩ := LockInv.outside h hpc (by simp [Pc.atLock]) (by simp [Pc.inside])
      exact LockInv.set_outside h hpc ho hw (by simp [Pc.inside])
  · next hpc => exact LockInv.cancel h hpc
  · exact h

/-- Cancelling a relay task does not touch another task's hold on the lock. -/
theorem Running.cancelTask (h : r.Running t) (u : Nat) : (r.cancelTask u).Running t := by
  obtain ⟨pc, hpc, hrelay⟩ := h.pc
  have hne : ∀ {o : Nat} {data : Bytes}, r.tasks[u]? = some (Pc.relayLock o data) →
      r.lock.owner ≠ some u := by
    intro o data hpcu heq
    obtain rfl := Option.some.inj (h.owner.symm.trans heq)
    exact hrelay (Option.some.inj (hpcu.symm.trans hpc) ▸ rfl)
  refine ⟨h.locked.cancelTask u, ?_, ?_, pc, cancelTask_tasks hpc hrelay u, hrelay⟩
  · unfold Router.cancelTask
    split
    · exact h.owner
    · next hpcu =>
        exact (FairLock.cancel_of_not_owner (hne hpcu)).1.trans h.owner
    · exact h.owner
  · unfold Router.cancelTask
    split
    · exact h.waits
    · next hpcu =>
        obtain ⟨-, hwait⟩ := FairLock.cancel_of_not_owner (hne hpcu)
        show t ∉ (FairLock.cancel _ _).waiters
        rw [hwait]
        exact fun hin => h.waits (List.mem_filter.mp hin).1
    · exact h.waits

theorem Locked.closeSession (h : r.Locked) (o : Nat) : (r.closeSession o).1.Locked := by
  rcases closeSession_cases r o with heq | ⟨s, -, -, heq | ⟨u, heq⟩⟩ <;> rw [heq]
  · exact h
  · exact h
  · exact Locked.cancelTask (r := r.deactivate o s) h u

theorem Running.closeSession (h : r.Running t) (o : Nat) : (r.closeSession o).1.Running t := by
  rcases closeSession_cases r o with heq | ⟨s, -, -, heq | ⟨u, heq⟩⟩ <;> rw [heq]
  · exact h
  · exact ⟨h.locked, h.owner, h.waits, h.pc⟩
  · exact Running.cancelTask (r := r.deactivate o s) ⟨h.locked, h.owner, h.waits, h.pc⟩ u

theorem Running.setPc (h : r.Running t) (hin : pc.inside) (hne : ∀ o, pc ≠ .connectFailed o) :
    (r.setPc t pc).Locked := by
  obtain ⟨pc₀, hpc, -⟩ := h.pc
  exact LockInv.set_owner h.locked hpc h.owner h.waits hin hne

theorem Running.leave (h : r.Running t) : (r.leave t).Locked := by
  obtain ⟨pc₀, hpc, -⟩ := h.pc
  exact LockInv.release h.locked hpc h.owner h.waits (by simp [Pc.inside])

theorem Running.connectFails (h : r.Running t) (o : Nat) : (r.connectFails t o).Locked := by
  obtain ⟨pc₀, hpc, -⟩ := h.pc
  exact LockInv.fails h.locked hpc h.owner h.waits o

/-- A new task does not disturb the running one. -/
theorem Running.append (h : r.Running t) (hin : ¬ pc.inside) :
    Running { r with tasks := r.tasks ++ [pc] } t := by
  obtain ⟨pc₀, hpc, hrelay⟩ := h.pc
  obtain ⟨hlt, -⟩ := List.getElem?_eq_some_iff.mp hpc
  refine ⟨LockInv.append h.locked hin, h.owner, h.waits, pc₀, ?_, hrelay⟩
  rw [← hpc]
  exact List.getElem?_append_left hlt

theorem Running.connectSucceeded (h : r.Running t) (o : Nat) :
    (r.connectSucceeded t o).Locked := by
  unfold Router.connectSucceeded
  split
  · exact h.leave
  · have h' : Running { r with tasks := r.tasks ++ [.relayRead o] } t :=
      h.append (by simp [Pc.inside])
    exact Running.leave ⟨h'.locked, h'.owner, h'.waits, h'.pc⟩

theorem Running.makeSession (h : r.Running t) (session : UserSpaceSession) (udpOk : Bool) :
    (r.makeSession t session udpOk).Locked := by
  have h' : Running { r with
      objects := r.objects ++ [session]
      sessions := r.sessions.set session.sessionId r.objects.length } t :=
    ⟨h.locked, h.owner, h.waits, h.pc⟩
  unfold Router.makeSession
  dsimp only
  split
  · exact h'.setPc rfl (by simp)
  · by_cases hok : udpOk = true
    · rw [if_pos hok]
      exact h'.connectSucceeded _
    · rw [if_neg hok]
      exact h'.connectFails _

theorem Running.connect (h : r.Running t) (session : UserSpaceSession) (udpOk : Bool) :
    (r.connect t session udpOk).Locked := by
  unfold Router.connect
  split
  · exact h.makeSession session udpOk
  · next o _ =>
      have h' := h.closeSession o
      dsimp only
      by_cases hs : (r.closeSession o).2 = true
      · rw [if_pos hs]
        exact h'.setPc rfl (by simp)
      · rw [if_neg hs]
        exact h'.makeSession session udpOk

theorem Running.close (h : r.Running t) (sessionId : Nat) : (r.close t sessionId).Locked := by
  unfold Router.close
  split
  · exact h.leave
  · next o _ =>
      have h' : Running { r with sessions := r.sessions.pop sessionId } t :=
        ⟨h.locked, h.owner, h.waits, h.pc⟩
      have h'' := h'.closeSession o
      dsimp only
      split_ifs
      · exact h''.setPc rfl (by simp)
      · exact h''.leave

theorem Running.cleanupLoop (h : r.Running t) (rest : List Nat) :
    (r.cleanupLoop t rest).Locked := by
  induction rest generalizing r with
  | nil => exact Running.leave ⟨h.locked, h.owner, h.waits, h.pc⟩
  | cons o rest ih =>
      have h' := h.closeSession o
      unfold Router.cleanupLoop
      dsimp only
      split_ifs
      · exact h'.setPc rfl (by simp)
      · exact ih h'

/-- A relay task with the lock gives it up at once. -/
theorem Locked.relaySend (h : r.Locked) {data : Bytes}
    (hpc : r.tasks[t]? = some (Pc.relayLock o data))
    (howner : r.lock.owner = some t) (hw : t ∉ r.lock.waiters) (data' : Bytes) (nowUs : Int) :
    (r.relaySend p t o data' nowUs).Locked := by
  unfold Router.relaySend
  split
  · exact LockInv.release h hpc howner hw (by simp [Pc.inside])
  · next s _ =>
      have hrel : LockInv (r.tasks.set t (.relayRead o)) r.lock.release r.failed :=
        LockInv.release h hpc howner hw (by simp [Pc.inside])
      have hself : (r.tasks.set t (.relayRead o))[t]? = some (Pc.relayRead o) :=
        List.getElem?_set_self (List.getElem?_eq_some_iff.mp hpc).1
      obtain ⟨ho', hw'⟩ := hrel.outside hself (by simp [Pc.atLock]) (by simp [Pc.inside])
      unfold Router.sendBackToClient
      dsimp only
      split
      · exact hrel
      · refine Locked.closeSession ?_ o
        exact hrel.set_outside hself ho' hw' (by simp [Pc.inside])

/-- A task that goes on with the lock keeps the invariant. -/
theorem Locked.enter (h : r.Locked) (howner : r.lock.owner = some t) (hw : t ∉ r.lock.waiters)
    {udpOk : Bool} {nowUs : Int} (henters : Enters p r t udpOk nowUs r') : r'.Locked := by
  cases henters with
  | connect hpc => exact Running.connect ⟨h, howner, hw, _, hpc, by simp [Pc.relay]⟩ _ _
  | connectFailed hpc =>
      -- its owner would be waiting
      exact absurd ((LockInv.selfWait h t howner).mpr ⟨_, hpc⟩) hw
  | close hpc => exact Running.close ⟨h, howner, hw, _, hpc, by simp [Pc.relay]⟩ _
  | relay hpc => exact h.relaySend hpc howner hw _ _
  | cleanup hpc => exact Running.cleanupLoop ⟨h, howner, hw, _, hpc, by simp [Pc.relay]⟩ _

/-- A task that comes to the lock and goes on at once does not wait as well. -/
theorem Locked.acquireLock_cases (h : r.Locked) {pc₀ : Pc} (hpc : r.tasks[t]? = some pc₀)
    (ho : r.lock.owner ≠ some t) (hw : t ∉ r.lock.waiters) (hat : pc.atLock)
    (hin : ¬ pc.inside) (udpOk : Bool) (nowUs : Int) : (r.arrive t pc).Locked ∧
      (r.acquireLock p t pc udpOk nowUs = r.arrive t pc ∨
        (r.arrive t pc).lock.owner = some t ∧ t ∉ (r.arrive t pc).lock.waiters ∧
          Enters p (r.arrive t pc) t udpOk nowUs (r.acquireLock p t pc udpOk nowUs)) := by
  have h' : LockInv (r.tasks.set t pc) (r.lock.acquire t) r.failed :=
    LockInv.acquire h hpc ho hw hat hin
  refine ⟨h', (Router.acquireLock_cases r t pc udpOk nowUs).imp_right fun ⟨howner, henters⟩ => ?_⟩
  have hself : (r.arrive t pc).tasks[t]? = some pc :=
    List.getElem?_set_self (List.getElem?_eq_some_iff.mp hpc).1
  exact ⟨howner, h'.not_mem_waiters howner hself (LockInv.not_connectFailed hin), henters⟩

theorem Locked.acquireLock (h : r.Locked) {pc₀ : Pc} (hpc : r.tasks[t]? = some pc₀)
    (ho : r.lock.owner ≠ some t) (hw : t ∉ r.lock.waiters) (hat : pc.atLock)
    (hin : ¬ pc.inside) (udpOk : Bool) (nowUs : Int) :
    (r.acquireLock p t pc udpOk nowUs).Locked := by
  obtain ⟨h', heq | ⟨howner, hw', henters⟩⟩ :=
    h.acquireLock_cases (p := p) hpc ho hw hat hin udpOk nowUs
  · rw [heq]
    exact h'
  · exact h'.enter howner hw' henters

/-- A task outside the lock moves to a counter outside it. -/
theorem Locked.setPc (h : r.Locked) {pc₀ : Pc} (hpc : r.tasks[t]? = some pc₀)
    (ha : ¬ pc₀.atLock) (hi : ¬ pc₀.inside) (hi' : ¬ pc.inside) : (r.setPc t pc).Locked := by
  obtain ⟨ho, hw⟩ := LockInv.outside h hpc ha hi
  exact LockInv.set_outside h hpc ho hw hi'

theorem Locked.sendFailed (h : r.Locked) (hpc : r.tasks[t]? = some pc) (ha : ¬ pc.atLock)
    (hi : ¬ pc.inside) (hr : ¬ pc.relay) (o : Nat) : (r.sendFailed t o).Locked := by
  refine (h.closeSession o).setPc (closeSession_tasks hpc hr o) ha hi ?_
  split_ifs <;> simp [Pc.inside]

theorem Locked.relayEnds (h : r.Locked) (hpc : r.tasks[t]? = some (Pc.relayRead o)) :
    (r.relayEnds t o).Locked := by
  refine Locked.closeSession ?_ o
  exact h.setPc hpc (by simp [Pc.atLock]) (by simp [Pc.inside]) (by simp [Pc.inside])

theorem Locked.send (h : r.Locked) (hpc : r.tasks[t]? = some .ended) (body : Bytes)
    (outcome : SendOutcome) : (r.send t o body outcome).Locked := by
  have hset : ∀ (r' : Router) (pc' : Pc), r'.Locked → r'.tasks[t]? = some .ended → ¬ pc'.inside →
      (r'.setPc t pc').Locked := fun r' pc' h' hpc' hi' =>
    h'.setPc hpc' (by simp [Pc.atLock]) (by simp [Pc.inside]) hi'
  have hfail : ∀ r' : Router, r'.Locked → r'.tasks[t]? = some .ended → (r'.sendFailed t o).Locked :=
    fun r' h' hpc' => h'.sendFailed hpc' (by simp [Pc.atLock]) (by simp [Pc.inside])
      (by simp [Pc.relay]) o
  unfold Router.send
  split
  · exact hset r .ended h hpc (by simp [Pc.inside])
  · split_ifs
    · split
      · exact hset (r.write _ _) .ended h hpc (by simp [Pc.inside])
      · exact hset (r.write _ _) (.sendDrain o) h hpc (by simp [Pc.inside])
      · exact hset r (.sendTo o _ body) h hpc (by simp [Pc.inside])
      · exact hfail (r.write _ _) h hpc
      · exact hfail r h hpc
    · exact hset r .ended h hpc (by simp [Pc.inside])

theorem Locked.newTask (h : r.Locked) (hi : ¬ pc.inside) :
    Locked { r with tasks := r.tasks ++ [pc] } := LockInv.append h hi

theorem Locked.processPayload (h : r.Locked) (hpc : r.tasks[t]? = some .ended)
    (packetInfo : Bytes × Addr × Nat) (outcome : SendOutcome) (udpOk : Bool) :
    (r.processPayload p t packetInfo outcome udpOk).Locked := by
  obtain ⟨ho, hw⟩ := LockInv.outside h hpc (by simp [Pc.atLock]) (by simp [Pc.inside])
  unfold Router.processPayload
  split
  · exact h
  · exact h.acquireLock hpc ho hw rfl (by simp [Pc.inside]) _ _
  · split
    · exact h
    · exact h.send hpc _ _
  · exact h.acquireLock hpc ho hw rfl (by simp [Pc.inside]) _ _

/-- A task inside the lock that is neither failing nor a relay is the running one. -/
theorem Locked.running (h : r.Locked) (hpc : r.tasks[t]? = some pc) (hin : pc.inside)
    (hne : ∀ o, pc ≠ .connectFailed o) (hrelay : ¬ pc.relay) : r.Running t :=
  have howner := h.inside t pc hpc hin
  ⟨h, howner, h.not_mem_waiters howner hpc hne, pc, hpc, hrelay⟩

/-- **The step lemma**: every event keeps the invariant. -/
theorem Locked.step (h : r.Locked) {e : Event} (hstep : r.step p e = some r') : r'.Locked := by
  have hlast : ∀ l : List Pc, (l ++ [Pc.ended])[l.length]? = some .ended := by simp
  cases step_cases hstep with
  | deliver packetInfo => exact h
  | @start packetInfo queue _ outcome udpOk =>
      exact Locked.processPayload (r := { r with queue := queue, tasks := r.tasks ++ [.ended] })
        (h.newTask (by simp [Pc.inside])) (hlast r.tasks) packetInfo outcome udpOk
  | resume howner hwaits henters => exact h.enter howner hwaits henters
  -- a task in `wait_closed` holds the lock, except below `send`
  | closedConnect hpc => exact (h.running hpc rfl (by simp) (by simp [Pc.relay])).makeSession _ _
  | closedClose hpc => exact (h.running hpc rfl (by simp) (by simp [Pc.relay])).leave
  | closedSend hpc =>
      exact h.setPc hpc (by simp [Pc.atLock]) (by simp [Pc.inside]) (by simp [Pc.inside])
  | closedCleanup hpc => exact (h.running hpc rfl (by simp) (by simp [Pc.relay])).cleanupLoop _
  -- `open_connection` was awaited under the lock
  | opened hpc => exact (h.running hpc rfl (by simp) (by simp [Pc.relay])).connectSucceeded _
  | refused hpc => exact (h.running hpc rfl (by simp) (by simp [Pc.relay])).connectFails _
  | drained hpc =>
      exact h.setPc hpc (by simp [Pc.atLock]) (by simp [Pc.inside]) (by simp [Pc.inside])
  | drainFails hpc =>
      exact h.sendFailed hpc (by simp [Pc.atLock]) (by simp [Pc.inside]) (by simp [Pc.relay]) _
  | @sentTo t o s body hpc =>
      exact Locked.setPc (r := r.write s body) h hpc (by simp [Pc.atLock]) (by simp [Pc.inside])
        (by simp [Pc.inside])
  | sendToFails hpc =>
      exact h.sendFailed hpc (by simp [Pc.atLock]) (by simp [Pc.inside]) (by simp [Pc.relay]) _
  | relayEof hpc => exact h.relayEnds hpc
  | relayChunk hpc =>
      obtain ⟨ho, hw⟩ := LockInv.outside h hpc (by simp [Pc.atLock]) (by simp [Pc.inside])
      exact h.acquireLock hpc ho hw rfl (by simp [Pc.inside]) _ _
  | relayFails hpc => exact h.relayEnds hpc
  | cleanup =>
      have h' : Locked { r with tasks := r.tasks ++ [.ended] } := h.newTask (by simp [Pc.inside])
      obtain ⟨ho, hw⟩ := LockInv.outside h' (hlast r.tasks) (by simp [Pc.atLock])
        (by simp [Pc.inside])
      exact h'.acquireLock (hlast r.tasks) ho hw rfl (by simp [Pc.inside]) _ _

theorem init_locked : init.Locked := by
  constructor <;> simp [init, FairLock.free]

theorem locked_of_run {es : List Event} (hrun : runFrom (Router.step p) init es = some r) :
    r.Locked :=
  runFrom_invariant (fun _ _ _ h hstep => Locked.step h hstep) init_locked hrun

/-! ## Self-deadlock -/

/-- What the lock is for: its owner never waits for it, and behind every failed connect the
dictionary entry is gone and a CLOSE frame went out. -/
structure LockSafe (r : Router) : Prop where
  notSelfWait : ¬ r.lock.SelfWait
  cleanedUp : ∀ o ∈ r.failed, ∀ s, r.objects[o]? = some s →
    r.sessions.get? s.sessionId ≠ some o ∧
      ∃ c ∈ r.encryptCalls, c.payload = frame 3 s.sessionId []

/-- The owner waits for its own lock as soon as a connect has failed, and only then. -/
theorem Locked.selfWait_iff (h : r.Locked) : r.lock.SelfWait ↔ r.failed ≠ [] := by
  rw [h.failed]
  constructor
  · rintro ⟨t, ho, hw⟩
    obtain ⟨o, hpc⟩ := (h.selfWait t ho).mp hw
    exact ⟨t, o, hpc⟩
  · rintro ⟨t, o, hpc⟩
    have ho := h.inside t _ hpc rfl
    exact ⟨t, ho, (h.selfWait t ho).mpr ⟨o, hpc⟩⟩

/-- **The lock is safe exactly until a connect fails**, in every run of the router, with any
frames, relay data, answers of the sockets and order of the tasks. -/
theorem run_lockSafe_iff (p : AetherProtocol) (es : List Event) (r : Router)
    (hrun : runFrom (Router.step p) init es = some r) : r.LockSafe ↔ r.failed = [] := by
  have h := (locked_of_run hrun).selfWait_iff
  constructor
  · intro hsafe
    by_contra hne
    exact hsafe.notSelfWait (h.mpr hne)
  · intro hnil
    refine ⟨fun hself => h.mp hself hnil, fun o ho => ?_⟩
    rw [hnil] at ho
    cases ho

/-- A session that connects, carries a response and is closed. -/
theorem run_lockSafe_connected :
    ∃ r, runFrom (Router.step (.new .checksum [1])) init
        [.deliver (frame 1 7 [1, 0, 80, 97], ("10.0.0.1", 4000), 0),
          .deliver (frame 3 7 [], ("10.0.0.1", 4000), 1), .start .done true, .start .done true,
          .opened 0 true, .relayData 2 [104, 105] 5, .resume 1 true 6, .closed 1 true] = some r ∧
      r.LockSafe := by
  have hall : ∃ r ∈ runFrom (Router.step (.new .checksum [1])) init
      [.deliver (frame 1 7 [1, 0, 80, 97], ("10.0.0.1", 4000), 0),
        .deliver (frame 3 7 [], ("10.0.0.1", 4000), 1), .start .done true, .start .done true,
        .opened 0 true, .relayData 2 [104, 105] 5, .resume 1 true 6, .closed 1 true],
      r.failed = [] := by decide
  obtain ⟨r, hrun, hfailed⟩ := hall
  exact ⟨r, hrun, (run_lockSafe_iff _ _ _ hrun).mpr hfailed⟩

/-- A CONNECT to a TCP destination that refuses the connection: its task holds the lock and
waits for it, and neither the entry is gone nor a CLOSE frame out. -/
theorem refused_not_lockSafe :
    ¬ ∀ (p : AetherProtocol) (es : List Event) (r : Router),
      runFrom (Router.step p) init es = some r → r.LockSafe := by
  intro h
  obtain ⟨r, hrun⟩ := Option.isSome_iff_exists.mp (show (runFrom
    (Router.step (.new .checksum [1])) init
    [.deliver (frame 1 7 [1, 0, 80, 97], ("10.0.0.1", 4000), 0), .start .done true,
      .opened 0 false]).isSome by decide)
  have hlock : (some r).map (fun r => (r.lock.owner, r.lock.waiters)) = some (some 0, [0]) := by
    rw [← hrun]
    decide
  obtain ⟨howner, hwaiters⟩ := Prod.mk.inj (Option.some.inj hlock)
  exact (h _ _ _ hrun).notSelfWait ⟨0, howner, by rw [hwaiters]; exact List.mem_singleton_self 0⟩

end Router

end AetherBond.Server
