import Mathlib.Tactic

set_option autoImplicit false

/-! # A first-come-first-served lock

`FairLock T` is the state of a lock that tasks of type `T` acquire and release, in the manner
of `asyncio.Lock`: a task that finds the lock taken joins the end of a queue of waiters, and a
release hands the lock to the first of them. The lock is not re-entrant, and nothing stops
its owner from queueing for it again; `SelfWait` is that deadlock.

For each of the three operations there is a lemma that says who waits afterwards and one that
says that nobody waits twice. A new owner after a release no longer waits. While the owner keeps
the lock (`Kept`), tasks join the queue and leave it, and nobody overtakes anybody.
-/

namespace AetherBond.Lib

/-- The owner of a lock and the tasks waiting for it, first come first. A free lock has no
waiters. -/
structure FairLock (T : Type*) where
  owner : Option T
  waiters : List T
  idle : owner = none → waiters = []

namespace FairLock

variable {T : Type*}

/-- A lock nobody holds. -/
def free : FairLock T := ⟨none, [], fun _ => rfl⟩

/-- `t` takes the lock if it is free, and queues for it otherwise. -/
def acquire (l : FairLock T) (t : T) : FairLock T :=
  if h : l.owner = none then ⟨some t, [], by simp⟩
  else ⟨l.owner, l.waiters ++ [t], fun hno => absurd hno h⟩

/-- The owner gives the lock up; the first waiter gets it. -/
def release (l : FairLock T) : FairLock T :=
  match l.waiters with
  | [] => free
  | w :: ws => ⟨some w, ws, by simp⟩

/-- `t` is cancelled: it leaves the queue, or gives up a lock it was just handed. -/
def cancel [DecidableEq T] (l : FairLock T) (t : T) : FairLock T :=
  if l.owner = some t then l.release
  else ⟨l.owner, l.waiters.filter (· ≠ t), fun h => by rw [l.idle h]; rfl⟩

/-- The owner is waiting for the lock it holds. -/
def SelfWait (l : FairLock T) : Prop := ∃ t, l.owner = some t ∧ t ∈ l.waiters

variable {l : FairLock T} {t u : T}

/-! ## Acquire -/

theorem acquire_of_free (h : l.owner = none) (t : T) : l.acquire t = ⟨some t, [], by simp⟩ :=
  dif_pos h

theorem acquire_of_held (h : l.owner ≠ none) (t : T) :
    (l.acquire t).owner = l.owner ∧ (l.acquire t).waiters = l.waiters ++ [t] := by
  unfold acquire
  rw [dif_neg h]
  exact ⟨rfl, rfl⟩

theorem mem_waiters_acquire (h : u ∈ (l.acquire t).waiters) : u ∈ l.waiters ∨ u = t := by
  by_cases hfree : l.owner = none
  · rw [acquire_of_free hfree] at h
    cases h
  · rw [(acquire_of_held hfree t).2, List.mem_append, List.mem_singleton] at h
    exact h

theorem nodup_acquire (hnd : l.waiters.Nodup) (hnew : t ∉ l.waiters) :
    (l.acquire t).waiters.Nodup := by
  by_cases hfree : l.owner = none
  · rw [acquire_of_free hfree]
    exact List.nodup_nil
  · rw [(acquire_of_held hfree t).2, ← List.concat_eq_append]
    exact hnd.concat hnew

/-! ## Release -/

theorem mem_waiters_release (h : u ∈ l.release.waiters) : u ∈ l.waiters := by
  unfold release at h
  split at h
  · cases h
  · next hws =>
      rw [hws]
      exact List.mem_cons_of_mem _ h

theorem nodup_release (hnd : l.waiters.Nodup) : l.release.waiters.Nodup := by
  unfold release
  split
  · exact List.nodup_nil
  · next hws =>
      rw [hws] at hnd
      exact (List.nodup_cons.mp hnd).2

/-- The new owner was the first waiter, and waits no more. -/
theorem owner_release (hnd : l.waiters.Nodup) (h : l.release.owner = some u) :
    u ∈ l.waiters ∧ u ∉ l.release.waiters := by
  unfold release at h ⊢
  split at h
  · cases h
  · next w ws hws =>
      obtain rfl : w = u := Option.some.inj h
      rw [hws] at hnd
      dsimp only
      rw [hws]
      exact ⟨List.mem_cons_self, (List.nodup_cons.mp hnd).1⟩

/-! ## Cancel -/

theorem cancel_of_owner [DecidableEq T] (h : l.owner = some t) : l.cancel t = l.release :=
  if_pos h

theorem cancel_of_not_owner [DecidableEq T] (h : l.owner ≠ some t) :
    (l.cancel t).owner = l.owner ∧ (l.cancel t).waiters = l.waiters.filter (· ≠ t) := by
  unfold cancel
  rw [if_neg h]
  exact ⟨rfl, rfl⟩

/-! ## While the owner keeps the lock -/

/-- The owner is the same, some waiters have left and the new ones are behind the others. -/
structure Kept (l l' : FairLock T) : Prop where
  owner : l'.owner = l.owner
  queue : ∃ (keep : T → Bool) (late : List T), l'.waiters = l.waiters.filter keep ++ late

theorem Kept.refl (l : FairLock T) : l.Kept l :=
  ⟨rfl, fun _ => true, [], by rw [List.filter_true, List.append_nil]⟩

theorem Kept.trans {l' l'' : FairLock T} (h : l.Kept l') (h' : l'.Kept l'') : l.Kept l'' := by
  obtain ⟨keep, late, hqueue⟩ := h.queue
  obtain ⟨keep', late', hqueue'⟩ := h'.queue
  refine ⟨h'.owner.trans h.owner, fun t => keep' t && keep t, late.filter keep' ++ late', ?_⟩
  rw [hqueue', hqueue, List.filter_append, List.filter_filter, List.append_assoc]

theorem kept_acquire (h : l.owner ≠ none) (t : T) : l.Kept (l.acquire t) := by
  obtain ⟨howner, hwaiters⟩ := acquire_of_held h t
  exact ⟨howner, fun _ => true, [t], by rw [hwaiters, List.filter_true]⟩

theorem kept_cancel [DecidableEq T] (h : l.owner ≠ some t) : l.Kept (l.cancel t) := by
  obtain ⟨howner, hwaiters⟩ := cancel_of_not_owner h
  exact ⟨howner, (· ≠ t), [], by rw [hwaiters, List.append_nil]⟩

/-- After a release the first waiter has the lock, and the others are the queue. -/
theorem release_of_cons {ts : List T} (h : l.waiters = t :: ts) :
    l.release.owner = some t ∧ l.release.waiters = ts := by
  unfold release
  split
  · next hnil => nomatch hnil.symm.trans h
  · next hws =>
      obtain ⟨rfl, rfl⟩ := List.cons.inj (hws.symm.trans h)
      exact ⟨rfl, rfl⟩

end FairLock

end AetherBond.Lib
