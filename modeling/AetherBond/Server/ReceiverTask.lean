import AetherBond.Server.ReceiverSteps

set_option autoImplicit false

/-! # The flush task of the resequencing buffer

`put` starts a flush task when packets are left waiting and the buffer refers to none; the task
drops the reference and ends on a turn that finds the heap empty. Between two critical sections
the tasks that have not ended are the one the buffer refers to, and while packets wait there is
one (`Attended`). So there are never two, and no packet waits for a task that has ended
(`run_flushTask`); the task that is left gives up on the gap in front of the oldest packet as
soon as it has waited long enough (`run_oldest_leaves`).
-/

namespace AetherBond.Server.ResequencingBuffer

open AetherBond.Lib

variable {P σ : Type*} {callback : Callback P σ} {b b' : ResequencingBuffer P} {st st' : σ}
  {e : Event P}

/-- What holds of the flush task while the lock is free. -/
structure Attended (b : ResequencingBuffer P) : Prop where
  live : b.liveTasks = b.flushTask.toList
  waiting : b.heap ≠ [] → b.flushTask.isSome

theorem init_attended (flushTimeout : Int) :
    Attended (init flushTimeout : ResequencingBuffer P) where
  live := rfl
  waiting h := absurd rfl h

/-- A task that has not ended is the one the buffer refers to. -/
theorem Attended.flushTask_eq (hb : Attended b) {task : Nat} (htask : task ∈ b.liveTasks) :
    b.flushTask = some task := by
  rw [hb.live] at htask
  exact Option.mem_toList.mp htask

/-- While packets wait, there is exactly one task. -/
theorem Attended.exists_task (hb : Attended b) (hheap : b.heap ≠ []) :
    ∃ task, b.liveTasks = [task] := by
  obtain ⟨task, htask⟩ := Option.isSome_iff_exists.mp (hb.waiting hheap)
  refine ⟨task, ?_⟩
  rw [hb.live, htask]
  rfl

/-- After the end of `put` there is a task for the packets that wait. -/
theorem manageFlushTask_attended (hlive : b.liveTasks = b.flushTask.toList) :
    Attended b.manageFlushTask := by
  unfold manageFlushTask
  by_cases hstart : ¬ b.heap.isEmpty ∧ b.flushTask = none
  · rw [if_pos hstart]
    refine ⟨?_, fun _ => rfl⟩
    show b.liveTasks ++ [b.nextTask] = [b.nextTask]
    rw [hlive, hstart.2]
    rfl
  · rw [if_neg hstart]
    refine ⟨hlive, fun hheap => ?_⟩
    by_contra hnone
    have hnotEmpty : ¬ b.heap.isEmpty := fun h => hheap (List.isEmpty_iff.mp h)
    exact hstart ⟨hnotEmpty, Option.not_isSome_iff_eq_none.mp hnone⟩

/-- **Step lemma.** -/
theorem Attended.step (hb : Attended b) (hsettled : Settled b)
    (hstep : step callback (b, st) e = some (b', st')) : Attended b' := by
  have henabled : e.Enabled b := enabled_of_step hstep
  cases step_move hsettled hstep with
  | drops => exact hb
  | @puts seq payload now hnew run b₁ st₁ hr =>
      -- the release itself leaves the tasks alone
      refine manageFlushTask_attended ?_
      rw [hr.liveTasks, hr.flushTask]
      exact hb.live
  | @leaves task now hheap =>
      refine ⟨?_, fun h => absurd hheap h⟩
      show b.liveTasks.erase task = []
      rw [hb.live, hb.flushTask_eq henabled]
      exact List.erase_cons_head (a := task) (l := [])
  | waits => exact hb
  | @skips task now oldest rest hheap hlt htime run b₁ st₁ hr =>
      refine ⟨?_, fun _ => ?_⟩
      · rw [hr.liveTasks, hr.flushTask]
        exact hb.live
      · rw [hr.flushTask]
        exact hb.waiting (by rw [hheap]; exact List.cons_ne_nil _ _)

/-- **The run lemma.** -/
theorem attended_of_run {flushTimeout : Int} {st₀ : σ} {es : List (Event P)}
    (hrun : runFrom (step callback) (init flushTimeout, st₀) es = some (b, st)) :
    Settled b ∧ Attended b := by
  refine runFrom_invariant (I := fun s => Settled s.1 ∧ Attended s.1)
    (fun s e s' hs hstep => ⟨?_, hs.2.step hs.1 hstep⟩)
    ⟨init_settled flushTimeout, init_attended flushTimeout⟩ hrun
  exact settled_of_run hs.1 (runFrom_concat (runFrom_nil s) hstep)

/-- **The flush task.** After any run of puts and flush turns, with any payloads, clock readings
and callback: the tasks that have not ended are the one the buffer refers to, so there is at most
one; while packets wait there is one; and the number expected next is below that of the oldest
packet, so that a turn of the flush loop never finds a head it could release without skipping. -/
theorem run_flushTask (callback : Callback P σ) (flushTimeout : Int) (st : σ)
    (es : List (Event P)) (b : ResequencingBuffer P) (st' : σ)
    (hrun : runFrom (step callback) (init flushTimeout, st) es = some (b, st')) :
    b.liveTasks = b.flushTask.toList ∧ b.liveTasks.length ≤ 1 ∧
      (b.heap ≠ [] → ∃ task, task ∈ b.liveTasks) ∧
      ∀ oldest rest, b.heap = oldest :: rest → b.expectedSeq < oldest.seq := by
  obtain ⟨hsettled, hattended⟩ := attended_of_run hrun
  refine ⟨hattended.live, ?_, fun hheap => ?_, fun oldest rest hheap => ?_⟩
  · rw [hattended.live]
    exact Option.length_toList_le
  · obtain ⟨task, htask⟩ := hattended.exists_task hheap
    exact ⟨task, by rw [htask]; exact List.mem_singleton_self task⟩
  · exact hsettled.lt_oldest hheap

/-- A task starts, ends on an empty heap, and the next gap starts another one. -/
theorem run_flushTask_restart :
    ∃ b st', runFrom (step fun _ n => (.error "full", n + 1)) (init, 0)
        [.put 1 'b' 0, .put 0 'a' 0, .flushCheck 0 1, .put 3 'd' 1, .flushCheck 1 2]
      = some (b, st') ∧
      b.liveTasks = b.flushTask.toList ∧ b.liveTasks.length ≤ 1 ∧
      (b.heap ≠ [] → ∃ task, task ∈ b.liveTasks) ∧
      ∀ oldest rest, b.heap = oldest :: rest → b.expectedSeq < oldest.seq := by
  obtain ⟨⟨b, st'⟩, hrun⟩ := Option.isSome_iff_exists.mp (show (runFrom
    (step fun _ n => (.error "full", n + 1)) (init, 0)
    [.put 1 'b' 0, .put 0 'a' 0, .flushCheck 0 1, .put 3 'd' 1, .flushCheck 1 2]).isSome
    by decide)
  exact ⟨b, st', hrun, run_flushTask _ _ _ _ _ _ hrun⟩

/-- **No packet is stuck.** While packets wait, the one task there is can take a turn; a turn that
comes when the oldest packet has waited long enough hands it over, and the task goes on. -/
theorem run_oldest_leaves {flushTimeout : Int} {st₀ : σ} {es : List (Event P)}
    (hrun : runFrom (step callback) (init flushTimeout, st₀) es = some (b, st))
    {oldest : Entry P} {rest : List (Entry P)} (hheap : b.heap = oldest :: rest) :
    ∃ task, b.liveTasks = [task] ∧
      ∀ now, b.flushTimeout ≤ now - oldest.arrivalTime →
        ∃ b' st', step callback (b, st) (.flushCheck task now) = some (b', st') ∧
          oldest.packet ∈ b'.delivered ∧ b'.liveTasks = [task] := by
  obtain ⟨hsettled, hattended⟩ := attended_of_run hrun
  have hwaits : b.heap ≠ [] := by
    rw [hheap]
    exact List.cons_ne_nil _ _
  obtain ⟨task, htask⟩ := hattended.exists_task hwaits
  have hlive : task ∈ b.liveTasks := by
    rw [htask]
    exact List.mem_singleton_self task
  refine ⟨task, htask, fun now htime => ?_⟩
  obtain ⟨run, b', st', hrelease, hr, -⟩ := (hsettled.skip hheap).release callback st
  refine ⟨b', st', ?_, ?_, hr.liveTasks.trans htask⟩
  · show (if task ∈ b.liveTasks then b.flushCheck callback st task now else none) = _
    rw [if_pos hlive, flushCheck_of_cons hheap, if_pos (hsettled.lt_oldest hheap), if_pos htime,
      hrelease]
  · obtain ⟨later, rfl⟩ := hr.starts hheap rfl
    rw [hr.delivered]
    exact List.mem_append_right _ List.mem_cons_self

end AetherBond.Server.ResequencingBuffer
