import AetherBond.Client.DownloaderAccounting
import AetherBond.Client.DownloaderSteps

set_option autoImplicit false

/-! # The download comes to an end

Nothing bounds how often a chunk fails and goes back to the queue, so a download need not end. But
from any state it can be in, whatever has failed so far, it does end once nothing fails any more:
every step then lowers what is left to do (`work_lt`), and as long as `start` has not returned some
step is possible (`progress`). In particular the workers, `queue.join()` and the semaphore do not
deadlock, also when all other workers have left because the queue was empty and the last one puts
its chunk back.
-/

namespace AetherBond.Client

open AetherBond.Lib

/-! ## What is left to do -/

/-- What is left of an attempt at a chunk of at most `size` bytes, with bodies of at most `bound`.
-/
def Attempt.work (size bound : Nat) : Attempt → Nat
  | .delaying => size + 5
  | .throttling downloaded => size - downloaded + 4
  | .writing => 3
  | .requesting _ => bound + 4
  | .streaming _ _ _ rest => rest.length + 3
  -- the chunk may go back to the queue
  | .sleeping => size + bound + 8

def WorkerPc.work (size bound : Nat) : WorkerPc → Nat
  | .ready => 1
  | .busy _ _ a => a.work size bound
  | .left => 0

namespace DownloadSession

variable {s s' : DownloadSession} {e : Event} {w i retries bound : Nat} {a : Attempt} {c : Chunk}
  {pc pc' : WorkerPc}

/-- What is left of a queued chunk. -/
def queuedWork (bound : Nat) (s : DownloadSession) : Nat := sizes s.chunks + bound + 6

def work (bound : Nat) (s : DownloadSession) : Nat :=
  (s.workers.map (WorkerPc.work (sizes s.chunks) bound)).sum +
    s.queue.length * s.queuedWork bound + if s.isCompleted then 0 else 1

/-- Nothing fails with the event, and a body has at most `bound` bytes. -/
def Smooth (bound : Nat) : Event → Prop
  | .loop _ choice | .slept _ choice => choice ≠ .raises
  | .responded _ status body => (status = 200 ∨ status = 206) ∧ body.length ≤ bound
  | .raises _ => False
  | _ => True

/-! ## Every step does some of it -/

theorem size_le_sizes (hc : s.chunks[i]? = some c) : c.size.toNat ≤ sizes s.chunks :=
  List.single_le_sum (by simp) _ (List.mem_map_of_mem (List.mem_of_getElem? hc))

/-- A worker moves on. -/
theorem work_set_lt (hw : s.workers[w]? = some pc) (hworkers : s'.workers = s.workers.set w pc')
    (hsizes : sizes s'.chunks = sizes s.chunks) (hcompleted : s'.isCompleted = s.isCompleted)
    (hlt : pc'.work (sizes s.chunks) bound + s'.queue.length * s.queuedWork bound <
      pc.work (sizes s.chunks) bound + s.queue.length * s.queuedWork bound) :
    s'.work bound < s.work bound := by
  have hsum := sum_map_modify (WorkerPc.work (sizes s.chunks) bound) (fun _ => pc') hw
  rw [← List.set_eq_modify, ← hworkers] at hsum
  unfold work
  rw [hcompleted, show s'.queuedWork bound = s.queuedWork bound by unfold queuedWork; rw [hsizes],
    hsizes]
  omega

/-- A worker moves on with its chunk. -/
theorem work_busy_lt {a' : Attempt} {j retries' : Nat}
    (hcur : s.current w = some (i, retries, a, c)) (hstep : s.step e = some s')
    (hworkers : s'.workers = s.workers.set w (.busy j retries' a')) (hqueue : s'.queue = s.queue)
    (hcompleted : s'.isCompleted = s.isCompleted)
    (hlt : a'.work (sizes s.chunks) bound < a.work (sizes s.chunks) bound) :
    s'.work bound < s.work bound := by
  refine work_set_lt (current_eq_some hcur).1 hworkers (step_sizes hstep) hcompleted ?_
  rw [hqueue]
  exact Nat.add_lt_add_right hlt _

/-- An attempt that begins is less than a pause or a queued chunk. -/
theorem attempt_begins (s : DownloadSession) (w i retries : Nat) (c : Chunk) {choice : Choice}
    (hchoice : choice ≠ .raises) (size bound : Nat) :
    ∃ a, (s.attempt w i retries c choice).workers = s.workers.set w (.busy i retries a) ∧
      (s.attempt w i retries c choice).queue = s.queue ∧
      (s.attempt w i retries c choice).isCompleted = s.isCompleted ∧
      a.work size bound ≤ size + bound + 5 := by
  cases choice with
  | raises => exact absurd rfl hchoice
  | simulated =>
      refine ⟨.delaying, rfl, rfl, rfl, ?_⟩
      simp only [Attempt.work]
      omega
  | physical =>
      refine ⟨.requesting c.next, rfl, rfl, rfl, ?_⟩
      simp only [Attempt.work]
      omega

/-- The head of the simulated stream is in it, or before the write. -/
theorem simulate_worker (s : DownloadSession) (w i retries : Nat) (c : Chunk) (downloaded : Nat) :
    ∃ a, (s.simulate w i retries c downloaded).workers = s.workers.set w (.busy i retries a) ∧
      (s.simulate w i retries c downloaded).queue = s.queue ∧
      (s.simulate w i retries c downloaded).isCompleted = s.isCompleted ∧
      (a = .throttling downloaded ∧ (downloaded : Int) < c.size ∨ a = .writing) := by
  unfold simulate
  split_ifs with hlt
  · exact ⟨_, rfl, rfl, rfl, .inl ⟨rfl, hlt⟩⟩
  · exact ⟨_, rfl, rfl, rfl, .inr rfl⟩

/-- A worker leaves its chunk, and `n` chunks are queued more. -/
theorem work_taskDone_lt (hcur : s.current w = some (i, retries, a, c))
    (hstep : s.step e = some s') (hworkers : s'.workers = s.workers.set w .ready) {n : Nat}
    (hqueue : s'.queue.length = s.queue.length + n) (hcompleted : s'.isCompleted = s.isCompleted)
    (hlt : 1 + n * s.queuedWork bound < a.work (sizes s.chunks) bound) :
    s'.work bound < s.work bound := by
  refine work_set_lt (current_eq_some hcur).1 hworkers (step_sizes hstep) hcompleted ?_
  rw [hqueue, Nat.add_mul]
  simp only [WorkerPc.work]
  omega

/-- The write is at a position that exists. -/
theorem step_written (hcur : s.current w = some (i, retries, .writing, c)) (hstart : 0 ≤ c.start) :
    s.step (.written w) = some ((s.writeZeros c).complete w i) := by
  simp only [step, hcur]
  rw [if_neg (not_lt.mpr hstart)]

theorem step_responded {first : Int} {status : Nat} {body : Bytes}
    (hcur : s.current w = some (i, retries, .requesting first, c)) (hstart : 0 ≤ c.start)
    (hstatus : status = 200 ∨ status = 206) :
    s.step (.responded w status body) =
      some (s.setWorker w (.busy i retries (.streaming status first c.next.toNat body))) := by
  have hnext : 0 ≤ c.next := by
    unfold Chunk.next
    omega
  simp only [step, hcur]
  rw [if_neg (by omega)]

theorem work_written_lt (hcur : s.current w = some (i, retries, .writing, c))
    (hstep : s.step e = some ((s.writeZeros c).complete w i)) :
    ((s.writeZeros c).complete w i).work bound < s.work bound := by
  refine work_taskDone_lt (n := 0) hcur hstep rfl rfl rfl ?_
  simp only [Attempt.work]
  omega

theorem work_responded_lt {first : Int} {status pos : Nat} {body : Bytes}
    (hcur : s.current w = some (i, retries, .requesting first, c)) (hbody : body.length ≤ bound)
    (hstep : s.step e =
      some (s.setWorker w (.busy i retries (.streaming status first pos body)))) :
    (s.setWorker w (.busy i retries (.streaming status first pos body))).work bound <
      s.work bound := by
  refine work_busy_lt hcur hstep rfl rfl rfl ?_
  simp only [Attempt.work]
  omega

/-- No chunk begins before the file. -/
def StartsInFile (s : DownloadSession) : Prop := ∀ c ∈ s.chunks, 0 ≤ c.start

/-- **Step lemma**: what is left to do gets less. -/
theorem work_lt (hstarts : StartsInFile s) (hsmooth : Smooth bound e) (hstep : s.step e = some s') :
    s'.work bound < s.work bound := by
  cases step_move hstep with
  | leaves hw hqueue =>
      refine work_set_lt hw rfl rfl rfl ?_
      exact Nat.add_lt_add_right Nat.zero_lt_one _
  | @takes w i choice rest c hw hqueue hc =>
      obtain ⟨a, hworkers, hrest, hcompleted, hle⟩ :=
        attempt_begins { s with queue := rest } w i 0 c hsmooth (sizes s.chunks) bound
      refine work_set_lt hw hworkers (step_sizes hstep) hcompleted ?_
      rw [hrest, hqueue, List.length_cons, Nat.succ_mul]
      simp only [WorkerPc.work, queuedWork] at hle ⊢
      omega
  | @delayed w i retries c hcur =>
      obtain ⟨a, hworkers, hqueue, hcompleted, ⟨rfl, -⟩ | rfl⟩ := simulate_worker s w i retries c 0
      · refine work_busy_lt hcur hstep hworkers hqueue hcompleted ?_
        simp only [Attempt.work]
        omega
      · refine work_busy_lt hcur hstep hworkers hqueue hcompleted ?_
        simp only [Attempt.work]
        omega
  | @throttled w i retries downloaded c hcur =>
      have hsize := size_le_sizes (current_eq_some hcur).2
      unfold advance at hstep ⊢
      dsimp only at hstep ⊢
      obtain ⟨a, hworkers, hqueue, hcompleted, ⟨rfl, hlt⟩ | rfl⟩ := simulate_worker _ w i retries c
        (downloaded + min (64 * 1024) (c.size - downloaded).toNat)
      · refine work_busy_lt hcur hstep hworkers hqueue hcompleted ?_
        simp only [Attempt.work]
        omega
      · refine work_busy_lt hcur hstep hworkers hqueue hcompleted ?_
        simp only [Attempt.work]
        omega
  | writeFails hcur =>
      have hstart := hstarts _ (List.mem_of_getElem? (current_eq_some hcur).2)
      have heq := Option.some.inj (hstep.symm.trans (step_written hcur hstart))
      rw [heq] at hstep ⊢
      exact work_written_lt hcur hstep
  | written hcur => exact work_written_lt hcur hstep
  | refused hcur =>
      have hstart := hstarts _ (List.mem_of_getElem? (current_eq_some hcur).2)
      have heq := Option.some.inj (hstep.symm.trans (step_responded hcur hstart hsmooth.1))
      rw [heq] at hstep ⊢
      exact work_responded_lt hcur hsmooth.2 hstep
  | responded hcur => exact work_responded_lt hcur hsmooth.2 hstep
  | received hcur hpos hn =>
      refine work_busy_lt hcur hstep rfl rfl rfl ?_
      simp only [Attempt.work]
      rw [List.length_drop]
      omega
  | bodyEnds hcur =>
      refine work_taskDone_lt (n := 0) hcur hstep rfl rfl rfl ?_
      simp only [Attempt.work]
      omega
  | raises hcur => exact absurd hsmooth id
  | @retries w i retries choice c hcur =>
      obtain ⟨a, hworkers, hqueue, hcompleted, hle⟩ :=
        attempt_begins s w i retries c hsmooth (sizes s.chunks) bound
      refine work_busy_lt hcur hstep hworkers hqueue hcompleted ?_
      simp only [Attempt.work] at hle ⊢
      omega
  | givesUp hcur =>
      refine work_taskDone_lt (n := 1) hcur hstep rfl List.length_append rfl ?_
      simp only [Attempt.work, queuedWork]
      omega
  | joins hwoken =>
      have hnot : s.isCompleted = false := by
        simp only [step] at hstep
        split_ifs at hstep with hjoin
        simpa using hjoin.2
      have hsum : ((s.workers.map fun _ => WorkerPc.left).map
          (WorkerPc.work (sizes s.chunks) bound)).sum = 0 := by
        rw [List.map_map]
        exact List.sum_eq_zero fun n hn => by
          obtain ⟨_, -, rfl⟩ := List.mem_map.mp hn
          rfl
      unfold work queuedWork
      dsimp only
      rw [hsum, hnot, if_pos rfl, if_neg Bool.false_ne_true]
      omega

/-! ## Some step is possible -/

theorem StartsInFile.step (h : StartsInFile s) (hstep : s.step e = some s') : StartsInFile s' := by
  obtain ⟨i, f, hchunks, hf⟩ := step_sameRanges hstep
  intro c hc
  obtain ⟨j, hj⟩ := List.mem_iff_getElem?.mp hc
  rw [hchunks, List.getElem?_modify] at hj
  obtain ⟨c₀, hc₀, rfl⟩ := Option.map_eq_some_iff.mp hj
  have hstart := h c₀ (List.mem_of_getElem? hc₀)
  split_ifs
  · exact (hf c₀).1 ▸ hstart
  · exact hstart

/-- `join` does not wait without reason. -/
def Woken (s : DownloadSession) : Prop := s.unfinished = 0 → s.joinWoken = true

theorem Woken.taskDone (h : Woken s) (w : Nat) : Woken (s.taskDone w) := by
  intro hzero
  have hone : s.unfinished - 1 = 0 := hzero
  show (s.joinWoken || decide (s.unfinished = 1)) = true
  rcases Nat.eq_zero_or_pos s.unfinished with hnone | hsome
  · rw [h hnone, Bool.true_or]
  · rw [decide_eq_true (by omega), Bool.or_true]

theorem Woken.step (h : Woken s) (hstep : s.step e = some s') : Woken s' := by
  have hworks : ∀ {s₀ s₁ : DownloadSession} {w i : Nat}, Woken s₀ → Works s₀ w i s₁ → Woken s₁ :=
    fun h₀ hworks hzero => hworks.joinWoken ▸ h₀ (hworks.unfinished ▸ hzero)
  cases step_effect hstep with
  | leaves | joins => exact h
  | @takes w i rest c s' _ _ _ hw => exact hworks (show Woken { s with queue := rest } from h) hw
  | works _ hw => exact hworks h hw
  | @completes w =>
      refine Woken.taskDone ?_ w
      exact h
  | @requeues w =>
      refine Woken.taskDone ?_ w
      exact fun hzero => absurd hzero (Nat.succ_ne_zero _)

/-- Something can happen next to a worker at a chunk. -/
theorem exists_step_of_current (bound : Nat) (hstarts : StartsInFile s)
    (hcur : s.current w = some (i, retries, a, c)) :
    ∃ e, Smooth bound e ∧ (s.step e).isSome := by
  have hstart := hstarts c (List.mem_of_getElem? (current_eq_some hcur).2)
  cases a with
  | delaying => exact ⟨.delayed w, trivial, by simp [DownloadSession.step, hcur]⟩
  | throttling => exact ⟨.throttled w, trivial, by simp [DownloadSession.step, hcur]⟩
  | writing => exact ⟨.written w, trivial, by rw [step_written hcur hstart]; rfl⟩
  | requesting =>
      refine ⟨.responded w 206 [], ⟨.inr rfl, Nat.zero_le _⟩, ?_⟩
      rw [step_responded hcur hstart (.inr rfl)]
      rfl
  | streaming status first pos rest =>
      cases rest with
      | nil => exact ⟨.bodyEnds w, trivial, by simp [DownloadSession.step, hcur]⟩
      | cons => exact ⟨.received w 1, trivial, by simp [DownloadSession.step, hcur]⟩
  | sleeping =>
      exact ⟨.slept w .physical, by simp [Smooth], by simp [DownloadSession.step, hcur]⟩

/-- While something is unfinished a worker is at it, or about to take it. -/
theorem Pooled.attended (h : Pooled s) (hne : s.unfinished ≠ 0) :
    (∃ w i retries a c, s.current w = some (i, retries, a, c)) ∨
      ∃ (w i : Nat) (rest : List Nat) (c : Chunk), s.workers[w]? = some WorkerPc.ready ∧
        s.queue = i :: rest ∧ s.chunks[i]? = some c := by
  obtain ⟨P, hs, hP⟩ := h
  have hchunk : ∀ {i : Nat}, i ∈ P.items → ∃ c, s.chunks[i]? = some c := by
    intro i hi
    have hlt := List.mem_range.mp (hP.conserved.mem_iff.mp hi)
    exact ⟨_, List.getElem?_eq_getElem hlt⟩
  have hwork : P.queue ≠ [] ∨ P.held ≠ [] := by
    by_contra hnone
    push Not at hnone
    have hcount := hs.unfinished
    rw [hnone.1, hnone.2] at hcount
    exact hne hcount
  have hworker : ∀ {w : Nat} {slot : Slot Nat}, P.workers[w]? = some slot →
      ∃ pc, s.workers[w]? = some pc ∧ pc.slot = slot := by
    intro w slot hw
    rw [hs.workers, List.getElem?_map] at hw
    exact Option.map_eq_some_iff.mp hw
  rcases hP.attended hwork with ⟨w, i, hw⟩ | ⟨hqueue, w, hw⟩
  · obtain ⟨pc, hpc, hslot⟩ := hworker hw
    have hitem : i ∈ P.items :=
      List.mem_append_right _ (List.mem_append_left _ (Pool.mem_held.mpr ⟨w, hw⟩))
    obtain ⟨c, hc⟩ := hchunk hitem
    cases pc with
    | busy j retries a =>
        cases hslot
        refine .inl ⟨w, i, retries, a, c, ?_⟩
        unfold current
        rw [hpc]
        dsimp only
        rw [hc]
        rfl
    | ready | left => cases hslot
  · obtain ⟨pc, hpc, hslot⟩ := hworker hw
    obtain ⟨i, rest, heq⟩ := List.exists_cons_of_ne_nil hqueue
    obtain ⟨c, hc⟩ := hchunk (List.mem_append_left _ (heq ▸ List.mem_cons_self))
    cases pc with
    | ready => exact .inr ⟨w, i, rest, c, hpc, hs.queue ▸ heq, hc⟩
    | busy | left => cases hslot

/-- **Progress**: until `start` has returned some step is possible in which nothing fails. -/
theorem progress (bound : Nat) (hp : Pooled s) (hwoken : Woken s) (hstarts : StartsInFile s)
    (hnot : s.isCompleted = false) : ∃ e, Smooth bound e ∧ (s.step e).isSome := by
  by_cases hjoin : s.joinWoken = true
  · exact ⟨.joined, trivial, by simp [DownloadSession.step, hjoin, hnot]⟩
  · have hne : s.unfinished ≠ 0 := fun hzero => hjoin (hwoken hzero)
    rcases hp.attended hne with ⟨w, i, retries, a, c, hcur⟩ | ⟨w, i, rest, c, hw, hqueue, hc⟩
    · exact exists_step_of_current bound hstarts hcur
    · exact ⟨.loop w .physical, by simp [Smooth], by simp [DownloadSession.step, hw, hqueue, hc]⟩

/-! ## Runs -/

/-- What holds in every state of a download. -/
structure Sane (s : DownloadSession) : Prop where
  pooled : Pooled s
  woken : Woken s
  starts : StartsInFile s

theorem Sane.step (h : Sane s) (hstep : s.step e = some s') : Sane s' :=
  ⟨h.pooled.step hstep, h.woken.step hstep, h.starts.step hstep⟩

/-- A negative chunk size makes one chunk at most. -/
theorem fdiv_le_one_of_neg {totalSize chunkSize : Int} (hpos : 0 < totalSize)
    (hneg : chunkSize < 0) : (totalSize + chunkSize - 1).fdiv chunkSize ≤ 1 := by
  have hmod : (totalSize + chunkSize - 1).fmod chunkSize ≤ 0 := by
    have hlt := Int.emod_lt_abs (totalSize + chunkSize - 1) hneg.ne
    rw [abs_of_neg hneg] at hlt
    rw [Int.fmod_eq_emod]
    split_ifs with h
    · rw [Int.emod_eq_zero_of_dvd (h.resolve_left (by omega))]
      exact le_rfl
    · omega
  have heq := Int.mul_fdiv_add_fmod (totalSize + chunkSize - 1) chunkSize
  by_contra hlarge
  have hmul : chunkSize * (totalSize + chunkSize - 1).fdiv chunkSize ≤ chunkSize * 2 :=
    mul_le_mul_of_nonpos_left (by omega) hneg.le
  omega

theorem initializeChunks_sane {chunkSize totalSize : Int} {acceptRanges : Bool}
    {chunks : List Chunk} {file : Bytes}
    (hinit : initializeChunks chunkSize totalSize acceptRanges = some (chunks, file)) :
    Sane (start chunks file) := by
  have hnew : ∀ c ∈ chunks, 0 ≤ c.start ∧ c.status ≠ .completed := by
    unfold initializeChunks at hinit
    dsimp only at hinit
    split_ifs at hinit with hsize hranges hzero
    · obtain ⟨rfl, -⟩ := Prod.mk.inj (Option.some.inj hinit)
      intro c hc
      obtain ⟨i, hi, rfl⟩ := List.mem_map.mp hc
      refine ⟨?_, by simp [Chunk.new]⟩
      show 0 ≤ (i : Int) * chunkSize
      rcases lt_or_gt_of_ne hzero with hneg | hpos
      · have hone := fdiv_le_one_of_neg (not_le.mp hsize) hneg
        have hlt := List.mem_range.mp hi
        obtain rfl : i = 0 := by omega
        simp
      · positivity
    · obtain ⟨rfl, -⟩ := Prod.mk.inj (Option.some.inj hinit)
      intro c hc
      obtain rfl := List.mem_singleton.mp hc
      exact ⟨le_rfl, by simp [Chunk.new]⟩
  exact ⟨start_pooled (fun c hc => (hnew c hc).2) file,
    fun hzero => decide_eq_true hzero, fun c hc => (hnew c hc).1⟩

/-- **The download ends once nothing fails any more.** Whatever has happened so far: the steps in
which nothing fails, with bodies of at most `bound` bytes, can go on until `start` has returned with
every chunk completed, in any order, and there are never more of them than there is work. -/
theorem run_finishes (chunkSize totalSize : Int) (acceptRanges : Bool) (chunks : List Chunk)
    (file : Bytes) (es : List Event) (s : DownloadSession) (bound : Nat)
    (hinit : initializeChunks chunkSize totalSize acceptRanges = some (chunks, file))
    (hrun : runFrom step (start chunks file) es = some s) :
    (∀ es' s', (∀ e ∈ es', Smooth bound e) → runFrom step s es' = some s' →
      es'.length ≤ s.work bound ∧
        if s'.isCompleted then ∀ c ∈ s'.chunks, c.status = .completed
        else ∃ e, Smooth bound e ∧ (s'.step e).isSome) ∧
    ∃ es' s', (∀ e ∈ es', Smooth bound e) ∧ runFrom step s es' = some s' ∧
      s'.isCompleted = true := by
  have hsane : Sane s := runFrom_invariant (fun _ _ _ h hs => Sane.step h hs)
    (initializeChunks_sane hinit) hrun
  have hstep : ∀ s e s', Sane s → Smooth bound e → DownloadSession.step s e = some s' →
      Sane s' ∧ s'.work bound < s.work bound :=
    fun s e s' h hsmooth hs => ⟨h.step hs, work_lt h.starts hsmooth hs⟩
  refine ⟨fun es' s' hsmooth hrun' => ?_, ?_⟩
  · obtain ⟨hsane', hle⟩ := runFrom_length_le hstep hsane hsmooth hrun'
    refine ⟨(Nat.le_add_right _ _).trans hle, ?_⟩
    split_ifs with hcompleted
    · exact hsane'.pooled.noneLost.completed hcompleted
    · exact progress bound hsane'.pooled hsane'.woken hsane'.starts (by simpa using hcompleted)
  · exact exists_runFrom_done hstep
      (fun s h hnot => progress bound h.pooled h.woken h.starts (by simpa using hnot)) hsane

/-- The second worker has left, and the first one puts its chunk back. -/
def requeuedLate : List Event :=
  [.loop 0 .physical, .loop 1 .physical, .responded 1 206 [99], .received 1 1, .bodyEnds 1,
    .loop 1 .physical, .raises 0, .slept 0 .raises, .slept 0 .raises, .slept 0 .physical]

theorem run_finishes_requeuedLate :
    ∃ s, runFrom step (start [.new 0 0 1, .new 1 2 2] [0, 0, 0]) requeuedLate = some s ∧
      s.queue = [0] ∧ s.workers = [.ready, .left] ∧
      ∃ es' s', (∀ e ∈ es', Smooth 3 e) ∧ runFrom step s es' = some s' ∧ s'.isCompleted = true := by
  have hall : ∃ s ∈ runFrom step (start [.new 0 0 1, .new 1 2 2] [0, 0, 0]) requeuedLate,
      s.queue = [0] ∧ s.workers = [.ready, .left] := by decide +kernel
  obtain ⟨s, hrun, hqueue, hworkers⟩ := hall
  exact ⟨s, hrun, hqueue, hworkers,
    (run_finishes 2 3 true _ _ requeuedLate s 3 (by decide +kernel) hrun).2⟩

end DownloadSession

end AetherBond.Client
