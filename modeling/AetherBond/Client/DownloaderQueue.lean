import AetherBond.Client.Downloader
import AetherBond.Lib.Pool

set_option autoImplicit false

/-! # The workers and the queue

The workers of `start` are a pool over the chunks: `Represents` relates the two, and every step
is a move of the pool (`step_move`). The counter of unfinished tasks counts the chunks that are
queued or held, so that `join` returns only when all are done, and no chunk is lost, taken twice
or taken again (`run_chunks`).
-/

namespace AetherBond.Client

open AetherBond.Lib

/-- What the pool sees of a worker. -/
def WorkerPc.slot : WorkerPc → Slot Nat
  | ready => .idle
  | busy i _ _ => .holds i
  | left => .left

namespace DownloadSession

variable {s s' : DownloadSession} {e : Event} {w i retries n : Nat} {c : Chunk}

/-! ## What a step does -/

/-- Worker `w` goes on with chunk `i`, which is not completed by it. -/
structure Works (s : DownloadSession) (w i : Nat) (s' : DownloadSession) : Prop where
  queue : s'.queue = s.queue
  unfinished : s'.unfinished = s.unfinished
  joinWoken : s'.joinWoken = s.joinWoken
  isCompleted : s'.isCompleted = s.isCompleted
  workers : ∃ retries a, s'.workers = s.workers.set w (.busy i retries a)
  chunks : ∃ f : Chunk → Chunk, s'.chunks = s.chunks.modify i f ∧
    ∀ c, (f c).status = .completed → c.status = .completed

theorem works_setWorker (s : DownloadSession) (w i retries : Nat) (a : Attempt) :
    Works s w i (s.setWorker w (.busy i retries a)) :=
  ⟨rfl, rfl, rfl, rfl, ⟨_, _, rfl⟩, id, (List.modify_id i s.chunks).symm, fun _ h => h⟩

theorem works_status (s : DownloadSession) (w i retries : Nat) (a : Attempt) {status : ChunkStatus}
    (hstatus : status ≠ .completed) :
    Works s w i ((s.modifyChunk i fun c => { c with status := status }).setWorker w
      (.busy i retries a)) :=
  ⟨rfl, rfl, rfl, rfl, ⟨_, _, rfl⟩, _, rfl, fun _ h => absurd h hstatus⟩

theorem works_fail (s : DownloadSession) (w i retries : Nat) : Works s w i (s.fail w i retries) :=
  works_status s w i _ _ (by decide)

theorem works_attempt (s : DownloadSession) (w i retries : Nat) (c : Chunk) (choice : Choice) :
    Works s w i (s.attempt w i retries c choice) := by
  cases choice with
  | raises => exact works_fail s w i retries
  | simulated => exact works_status s w i _ _ (by decide)
  | physical => exact works_status s w i _ _ (by decide)

theorem works_simulate (s : DownloadSession) (w i retries : Nat) (c : Chunk) (downloaded : Nat) :
    Works s w i (s.simulate w i retries c downloaded) := by
  unfold simulate
  split <;> exact works_setWorker _ _ _ _ _

theorem works_advance (s : DownloadSession) (w i retries : Nat) (c : Chunk) (downloaded : Nat) :
    Works s w i (s.advance w i retries c downloaded) := by
  unfold advance simulate
  dsimp only
  split <;> exact ⟨rfl, rfl, rfl, rfl, ⟨_, _, rfl⟩, _, rfl, fun _ h => h⟩

theorem works_receive (s : DownloadSession) (w i retries status : Nat) (first : Int) (pos : Nat)
    (rest : Bytes) (n : Nat) : Works s w i (s.receive w i retries status first pos rest n) :=
  ⟨rfl, rfl, rfl, rfl, ⟨_, _, rfl⟩, _, rfl, fun _ h => h⟩

/-- What a step does to queue and workers. -/
inductive Effect (s : DownloadSession) : DownloadSession → Prop
  /-- A worker finds the queue empty. -/
  | leaves {w : Nat} (hw : s.workers[w]? = some .ready) (hqueue : s.queue = []) :
      Effect s (s.setWorker w .left)
  /-- A worker takes the first chunk of the queue. -/
  | takes {w i : Nat} {rest : List Nat} {c : Chunk} {s' : DownloadSession}
      (hw : s.workers[w]? = some .ready) (hqueue : s.queue = i :: rest)
      (hc : s.chunks[i]? = some c) (h : Works { s with queue := rest } w i s') : Effect s s'
  | works {w i retries : Nat} {a : Attempt} {c : Chunk} {s' : DownloadSession}
      (hcur : s.current w = some (i, retries, a, c)) (h : Works s w i s') : Effect s s'
  | completes {w i retries : Nat} {a : Attempt} {c : Chunk}
      (hcur : s.current w = some (i, retries, a, c)) (file : Bytes) :
      Effect s ({ s with file := file }.complete w i)
  | requeues {w i retries : Nat} {a : Attempt} {c : Chunk}
      (hcur : s.current w = some (i, retries, a, c)) : Effect s (s.requeue w i)
  /-- `join` returns. -/
  | joins (hwoken : s.joinWoken) :
      Effect s { s with workers := s.workers.map fun _ => .left, isCompleted := true }

theorem step_effect (h : s.step e = some s') : Effect s s' := by
  cases step_move h with
  | leaves hw hqueue => exact .leaves hw hqueue
  | takes hw hqueue hc => exact .takes hw hqueue hc (works_attempt ..)
  | delayed hcur => exact .works hcur (works_simulate ..)
  | throttled hcur => exact .works hcur (works_advance ..)
  | writeFails hcur => exact .works hcur (works_fail ..)
  | written hcur => exact .completes hcur _
  | refused hcur => exact .works hcur (works_fail ..)
  | responded hcur _ => exact .works hcur (works_setWorker ..)
  | received hcur _ _ => exact .works hcur (works_receive ..)
  | bodyEnds hcur => exact .completes hcur s.file
  | raises hcur => exact .works hcur (works_fail ..)
  | retries hcur => exact .works hcur (works_attempt ..)
  | givesUp hcur => exact .requeues hcur
  | joins hwoken => exact .joins hwoken

/-! ## The pool -/

/-- The session and the pool it implements. -/
structure Represents (s : DownloadSession) (P : Pool Nat) : Prop where
  queue : P.queue = s.queue
  workers : P.workers = s.workers.map WorkerPc.slot
  done : ∀ i c, s.chunks[i]? = some c → (i ∈ P.done ↔ c.status = .completed)
  unfinished : s.unfinished = P.queue.length + P.held.length
  woken : s.joinWoken → s.unfinished = 0
  joined : s.isCompleted → s.joinWoken

variable {P : Pool Nat} {pc : WorkerPc}

theorem Represents.worker (h : Represents s P) (hw : s.workers[w]? = some pc) :
    P.workers[w]? = some pc.slot := by
  rw [h.workers, List.getElem?_map, hw]
  rfl

theorem Represents.setWorker (h : Represents s P) (w : Nat) (pc : WorkerPc) :
    (P.setWorker w pc.slot).workers = (s.workers.set w pc).map WorkerPc.slot := by
  unfold Pool.setWorker
  rw [List.map_set, h.workers]

/-- The status of one chunk changes. -/
theorem Represents.modify (h : Represents s P) {f : Chunk → Chunk} {done : List Nat}
    (hother : ∀ j, j ≠ i → (j ∈ done ↔ j ∈ P.done))
    (hown : ∀ c, s.chunks[i]? = some c → (i ∈ done ↔ (f c).status = .completed)) :
    ∀ j c, (s.chunks.modify i f)[j]? = some c → (j ∈ done ↔ c.status = .completed) := by
  intro j c hc
  rw [List.getElem?_modify] at hc
  obtain ⟨c₀, hc₀, rfl⟩ := Option.map_eq_some_iff.mp hc
  by_cases hij : i = j
  · subst hij
    rw [if_pos rfl]
    exact hown c₀ hc₀
  · rw [if_neg hij, hother j (Ne.symm hij)]
    exact h.done j c₀ hc₀

/-- While a worker holds a chunk, `join` waits. -/
theorem Represents.not_woken (h : Represents s P) (hw : P.workers[w]? = some (.holds i)) :
    s.joinWoken = false := by
  have hmem : i ∈ P.held := Pool.mem_held.mpr ⟨w, hw⟩
  have hpos : 0 < P.held.length := List.length_pos_of_mem hmem
  by_contra hwoken
  have hzero := h.woken (by simpa using hwoken)
  have := h.unfinished
  omega

theorem Represents.not_completed (h : Represents s P) (hw : P.workers[w]? = some (.holds i)) :
    ¬ s.isCompleted = true := by
  intro hcompleted
  have hyes := h.joined hcompleted
  rw [h.not_woken hw] at hyes
  cases hyes

/-- The chunks, by their places. -/
def places (s : DownloadSession) : List Nat := List.range s.chunks.length

/-- A chunk that is queued or held is not done, so it does not become so by being worked on. -/
theorem Represents.works (h : Represents s P) {f : Chunk → Chunk}
    (hf : ∀ c, (f c).status = .completed → c.status = .completed) (hi : i ∉ P.done) :
    ∀ j c, (s.chunks.modify i f)[j]? = some c → (j ∈ P.done ↔ c.status = .completed) := by
  refine h.modify (fun _ _ => Iff.rfl) fun c hc => ⟨fun hmem => absurd hmem hi, fun hstatus => ?_⟩
  exact (h.done i c hc).mpr (hf c hstatus)

theorem not_done_of_held (hP : Pool.Sound s.places P) (hw : P.workers[w]? = some (.holds i)) :
    i ∉ P.done :=
  fun hmem => (hP.not_again List.nodup_range hmem).2 w hw

theorem Represents.takes_move (h : Represents s P) (hP : Pool.Sound s.places P) {rest : List Nat}
    (hw : s.workers[w]? = some .ready) (hqueue : s.queue = i :: rest)
    (hworks : Works { s with queue := rest } w i s') : ∃ P', P.Move P' ∧ Represents s' P' := by
  have hpool := h.worker hw
  have hq : P.queue = i :: rest := h.queue.trans hqueue
  have hnot : i ∉ P.done := fun hmem =>
    (hP.not_again List.nodup_range hmem).1 (hq ▸ List.mem_cons_self)
  refine ⟨_, .claim hpool hq, hworks.queue.symm, ?_, ?_, ?_, ?_, ?_⟩
  · obtain ⟨retries, a, heq⟩ := hworks.workers
    rw [heq]
    exact h.setWorker w (.busy i retries a)
  · obtain ⟨f, heq, hf⟩ := hworks.chunks
    rw [heq]
    exact h.works hf hnot
  · have hlen := (Pool.held_claim hpool i).length_eq
    rw [hworks.unfinished]
    show s.unfinished = rest.length + (P.setWorker w (.holds i)).held.length
    rw [hlen, h.unfinished, hq, List.length_cons, List.length_cons]
    omega
  · rw [hworks.joinWoken, hworks.unfinished]
    exact h.woken
  · rw [hworks.joinWoken, hworks.isCompleted]
    exact h.joined

theorem Represents.works_move (h : Represents s P) (hP : Pool.Sound s.places P) {a : Attempt}
    (hcur : s.current w = some (i, retries, a, c)) (hworks : Works s w i s') :
    Represents s' P := by
  have hpool := h.worker (current_eq_some hcur).1
  refine ⟨h.queue.trans hworks.queue.symm, ?_, ?_, ?_, ?_, ?_⟩
  · obtain ⟨retries', a', heq⟩ := hworks.workers
    obtain ⟨hlt, hget⟩ := List.getElem?_eq_some_iff.mp hpool
    rw [heq, ← h.setWorker w (.busy i retries' a')]
    show P.workers = P.workers.set w (.holds i)
    rw [← show P.workers[w] = .holds i from hget, List.set_getElem_self]
  · obtain ⟨f, heq, hf⟩ := hworks.chunks
    rw [heq]
    exact h.works hf (not_done_of_held hP hpool)
  · rw [hworks.unfinished, h.unfinished]
  · rw [hworks.joinWoken, hworks.unfinished]
    exact h.woken
  · rw [hworks.joinWoken, hworks.isCompleted]
    exact h.joined

theorem Represents.completes_move (h : Represents s P) {a : Attempt}
    (hcur : s.current w = some (i, retries, a, c)) (file : Bytes) :
    ∃ P', P.Move P' ∧ Represents ({ s with file := file }.complete w i) P' := by
  have hpool := h.worker (current_eq_some hcur).1
  have hlen := (Pool.held_release hpool).length_eq
  have hwoken := h.not_woken hpool
  rw [List.length_cons] at hlen
  refine ⟨_, .finish hpool, h.queue, h.setWorker w .ready, ?_, ?_, ?_, ?_⟩
  · refine h.modify (fun j hj => ?_) fun c hc => ?_
    · rw [List.mem_append, List.mem_singleton]
      exact or_iff_left hj
    · exact ⟨fun _ => rfl, fun _ => List.mem_append_right _ List.mem_cons_self⟩
  · show s.unfinished - 1 = P.queue.length + (P.setWorker w .idle).held.length
    rw [h.unfinished]
    omega
  · show (s.joinWoken || decide (s.unfinished = 1)) = true → s.unfinished - 1 = 0
    rw [hwoken, Bool.false_or, decide_eq_true_eq]
    omega
  · exact fun hcompleted => absurd hcompleted (h.not_completed hpool)

theorem Represents.requeues_move (h : Represents s P) (hP : Pool.Sound s.places P) {a : Attempt}
    (hcur : s.current w = some (i, retries, a, c)) :
    ∃ P', P.Move P' ∧ Represents (s.requeue w i) P' := by
  have hpool := h.worker (current_eq_some hcur).1
  have hlen := (Pool.held_release hpool).length_eq
  have hwoken := h.not_woken hpool
  rw [List.length_cons] at hlen
  refine ⟨_, .requeue hpool, congrArg (· ++ [i]) h.queue, h.setWorker w .ready, ?_, ?_, ?_, ?_⟩
  · refine h.works (fun _ hstatus => ?_) (not_done_of_held hP hpool)
    cases hstatus
  · show s.unfinished + 1 - 1 = (P.queue ++ [i]).length + (P.setWorker w .idle).held.length
    rw [h.unfinished, List.length_append, List.length_singleton]
    omega
  · show (s.joinWoken || decide (s.unfinished + 1 = 1)) = true → s.unfinished + 1 - 1 = 0
    rw [hwoken, Bool.false_or, decide_eq_true_eq]
    omega
  · exact fun hcompleted => absurd hcompleted (h.not_completed hpool)

/-- **Every step is a move of the pool.** -/
theorem Represents.step (h : Represents s P) (hP : Pool.Sound s.places P)
    (hstep : s.step e = some s') : ∃ P', P.Move P' ∧ Represents s' P' := by
  cases step_effect hstep with
  | @leaves w hw hqueue =>
      have hlen := (Pool.held_leave (h.worker hw)).length_eq
      refine ⟨_, .leave (h.worker hw) (h.queue.trans hqueue), h.queue, h.setWorker w .left, h.done,
        ?_, h.woken, h.joined⟩
      show s.unfinished = P.queue.length + (P.setWorker w .left).held.length
      rw [hlen, h.unfinished]
  | takes hw hqueue hc hworks => exact h.takes_move hP hw hqueue hworks
  | works hcur hworks => exact ⟨P, .stay, h.works_move hP hcur hworks⟩
  | completes hcur file => exact h.completes_move hcur file
  | requeues hcur => exact h.requeues_move hP hcur
  | joins hwoken =>
      -- nothing is unfinished, so nothing is queued or held
      have hzero := h.unfinished.symm.trans (h.woken hwoken)
      have hqueue : P.queue = [] := List.length_eq_zero_iff.mp (by omega)
      have hheld : P.held = [] := List.length_eq_zero_iff.mp (by omega)
      refine ⟨_, .dissolve hqueue hheld, h.queue, ?_, h.done, ?_, h.woken, fun _ => hwoken⟩
      · rw [h.workers, List.map_map, List.map_map]
        rfl
      · rw [Pool.held_dissolve, h.unfinished, hheld]

/-- Steps keep the number of chunks. -/
theorem step_places (hstep : s.step e = some s') : s'.places = s.places := by
  unfold places
  have hmodify : ∀ {i f}, s'.chunks = s.chunks.modify i f → s'.chunks.length = s.chunks.length :=
    fun heq => by rw [heq, List.length_modify]
  congr 1
  cases step_effect hstep with
  | leaves | joins => rfl
  | takes _ _ _ hworks => exact hmodify hworks.chunks.choose_spec.1
  | works _ hworks => exact hmodify hworks.chunks.choose_spec.1
  | completes _ file => exact List.length_modify ..
  | requeues => exact List.length_modify ..

/-- The pool is sound, and the session implements it. -/
def Pooled (s : DownloadSession) : Prop := ∃ P, Represents s P ∧ Pool.Sound s.places P

theorem Pooled.step (h : Pooled s) (hstep : s.step e = some s') : Pooled s' := by
  obtain ⟨P, hs, hP⟩ := h
  obtain ⟨P', hmove, hs'⟩ := hs.step hP hstep
  exact ⟨P', hs', (step_places hstep).symm ▸ hP.move hmove⟩

theorem start_pooled {chunks : List Chunk} (hnew : ∀ c ∈ chunks, c.status ≠ .completed)
    (file : Bytes) : Pooled (start chunks file) := by
  have hheld : (List.replicate (min 8 chunks.length) (.idle : Slot Nat)).filterMap
      Slot.item? = [] := List.filterMap_eq_nil_iff.mpr fun slot hslot => by
    rw [List.eq_of_mem_replicate hslot]
    rfl
  refine ⟨⟨List.range chunks.length, List.replicate (min 8 chunks.length) .idle, []⟩,
    ⟨rfl, ?_, ?_, ?_, ?_, ?_⟩, ⟨?_, ?_⟩⟩
  · show List.replicate _ Slot.idle = (List.replicate _ WorkerPc.ready).map WorkerPc.slot
    rw [List.map_replicate]
    rfl
  · intro j c hc
    exact ⟨fun hmem => absurd hmem List.not_mem_nil, fun hstatus =>
      absurd hstatus (hnew c (List.mem_of_getElem? hc))⟩
  · unfold Pool.held
    rw [hheld, List.length_range]
    rfl
  · exact fun hwoken => of_decide_eq_true hwoken
  · exact fun hcompleted => by cases hcompleted
  · unfold Pool.items Pool.held
    rw [hheld, List.append_nil, List.append_nil]
    exact List.Perm.refl _
  · intro hne
    have hpos : 0 < chunks.length := by
      by_contra hno
      exact hne (by rw [show chunks.length = 0 by omega]; rfl)
    exact ⟨.idle, List.mem_replicate.mpr ⟨by omega, rfl⟩, by simp⟩

/-! ## No chunk is lost -/

/-- What holds of the chunks in a state. -/
structure NoneLost (s : DownloadSession) : Prop where
  /-- `join` waits for every chunk. -/
  join : s.joinWoken → ∀ c ∈ s.chunks, c.status = .completed
  completed : s.isCompleted → ∀ c ∈ s.chunks, c.status = .completed
  /-- No chunk is with two workers. -/
  single : ∀ (w w' i retries retries' : Nat) (a a' : Attempt),
    s.workers[w]? = some (.busy i retries a) → s.workers[w']? = some (.busy i retries' a') → w = w'
  /-- No completed chunk is queued or worked on. -/
  notAgain : ∀ (i : Nat) (c : Chunk), s.chunks[i]? = some c → c.status = .completed →
    i ∉ s.queue ∧ ∀ (w retries : Nat) (a : Attempt), s.workers[w]? ≠ some (.busy i retries a)
  /-- Some worker is there as long as a chunk is missing. -/
  working : (∃ c ∈ s.chunks, c.status ≠ .completed) → ∃ pc ∈ s.workers, pc ≠ .left

theorem Pooled.noneLost (h : Pooled s) : NoneLost s := by
  obtain ⟨P, hs, hP⟩ := h
  have hplace : ∀ {i c}, s.chunks[i]? = some c → i ∈ s.places := fun hc =>
    List.mem_range.mpr (List.getElem?_eq_some_iff.mp hc).1
  have hjoin : s.joinWoken → ∀ c ∈ s.chunks, c.status = .completed := by
    intro hwoken c hc
    obtain ⟨i, hi⟩ := List.mem_iff_getElem?.mp hc
    have hzero := hs.unfinished.symm.trans (hs.woken hwoken)
    have hdone := hP.all_done (List.length_eq_zero_iff.mp (by omega))
      (List.length_eq_zero_iff.mp (by omega)) (hplace hi)
    exact (hs.done i c hi).mp hdone
  refine ⟨hjoin, fun hcompleted => hjoin (hs.joined hcompleted), ?_, ?_, ?_⟩
  · intro w w' i retries retries' a a' hw hw'
    exact hP.holder_unique List.nodup_range (hs.worker hw) (hs.worker hw')
  · intro i c hc hstatus
    obtain ⟨hqueue, hheld⟩ := hP.not_again List.nodup_range ((hs.done i c hc).mpr hstatus)
    exact ⟨hs.queue ▸ hqueue, fun w retries a hw => hheld w (hs.worker hw)⟩
  · rintro ⟨c, hc, hstatus⟩
    obtain ⟨i, hi⟩ := List.mem_iff_getElem?.mp hc
    obtain ⟨slot, hslot, hleft⟩ :=
      hP.working (hplace hi) fun hdone => hstatus ((hs.done i c hi).mp hdone)
    rw [hs.workers] at hslot
    obtain ⟨pc, hpc, rfl⟩ := List.mem_map.mp hslot
    exact ⟨pc, hpc, fun heq => hleft (by rw [heq]; rfl)⟩

/-- No other worker than `w` is at chunk `i`. -/
def Alone (s : DownloadSession) (w i : Nat) : Prop :=
  ∀ w' : Nat, w' ≠ w → ∀ (retries : Nat) (a : Attempt), s.workers[w']? ≠ some (.busy i retries a)

/-- Nobody is at a chunk that is queued. -/
theorem Pooled.alone_of_queued (h : Pooled s) (hi : i ∈ s.queue) (w : Nat) : Alone s w i := by
  obtain ⟨P, hs, hP⟩ := h
  exact fun w' _ retries a hw =>
    hP.not_held List.nodup_range (hs.queue ▸ hi) w' (hs.worker hw)

/-- Nobody else is at the chunk of a worker. -/
theorem Pooled.alone (h : Pooled s) {a : Attempt} (hw : s.workers[w]? = some (.busy i retries a)) :
    Alone s w i :=
  fun w' hne retries' a' hw' => hne (h.noneLost.single w' w i retries' retries a' a hw' hw)

/-- A completed chunk does not change any more. -/
theorem Pooled.chunk_stays (h : Pooled s) (hstep : s.step e = some s')
    (hc : s.chunks[i]? = some c) (hstatus : c.status = .completed) : s'.chunks[i]? = some c := by
  obtain ⟨hqueue, hheld⟩ := h.noneLost.notAgain i c hc hstatus
  have hmodify : ∀ {j : Nat} {f : Chunk → Chunk}, j ≠ i →
      (s.chunks.modify j f)[i]? = some c := fun hne => (List.getElem?_modify_ne _ _ hne).trans hc
  have hcurrent : ∀ {w j retries a c'}, s.current w = some (j, retries, a, c') → j ≠ i := by
    rintro w j retries a c' hcur rfl
    exact hheld w retries a (current_eq_some hcur).1
  cases step_effect hstep with
  | leaves | joins => exact hc
  | @takes w j rest c' s' hw hq hc' hworks =>
      obtain ⟨f, heq, -⟩ := hworks.chunks
      rw [heq]
      refine hmodify ?_
      rintro rfl
      exact hqueue (hq ▸ List.mem_cons_self)
  | works hcur hworks =>
      obtain ⟨f, heq, -⟩ := hworks.chunks
      rw [heq]
      exact hmodify (hcurrent hcur)
  | completes hcur file => exact hmodify (hcurrent hcur)
  | requeues hcur => exact hmodify (hcurrent hcur)

/-- What holds of every chunk, and of every attempt at one. -/
structure EachChunk (R : Chunk → Prop) (Q : Chunk → Attempt → Prop) (s : DownloadSession) :
    Prop where
  chunks : ∀ (i : Nat) (c : Chunk), s.chunks[i]? = some c → R c
  attempts : ∀ (w i retries : Nat) (a : Attempt) (c : Chunk),
    s.workers[w]? = some (.busy i retries a) → s.chunks[i]? = some c → Q c a

/-- A worker in an attempt, its chunk, and where it is. -/
theorem EachChunk.current {R : Chunk → Prop} {Q : Chunk → Attempt → Prop} (h : EachChunk R Q s)
    (hp : Pooled s) {a : Attempt} (hcur : s.current w = some (i, retries, a, c)) :
    Alone s w i ∧ s.chunks[i]? = some c ∧ Q c a := by
  obtain ⟨hw, hc⟩ := current_eq_some hcur
  exact ⟨hp.alone hw, hc, h.attempts w i retries a c hw hc⟩

/-- Worker `w` goes on, and the chunk nobody else is at changes. -/
theorem EachChunk.update {R : Chunk → Prop} {Q : Chunk → Attempt → Prop} (h : EachChunk R Q s)
    {f : Chunk → Chunk} {pc : WorkerPc} (hfree : Alone s w i)
    (hworkers : s'.workers = s.workers.set w pc) (hchunks : s'.chunks = s.chunks.modify i f)
    (hc : s.chunks[i]? = some c) (hR : R (f c))
    (hQ : ∀ j retries a, pc = .busy j retries a → i = j ∧ Q (f c) a) : EachChunk R Q s' := by
  have hchunk : ∀ {j : Nat} {c : Chunk}, s'.chunks[j]? = some c →
      ∃ c₀, s.chunks[j]? = some c₀ ∧ c = if i = j then f c₀ else c₀ := by
    intro j c hc
    rw [hchunks, List.getElem?_modify] at hc
    obtain ⟨c₀, hc₀, heq⟩ := Option.map_eq_some_iff.mp hc
    exact ⟨c₀, hc₀, heq.symm⟩
  constructor
  · intro j c' hc'
    obtain ⟨c₀, hc₀, rfl⟩ := hchunk hc'
    split
    · next hij =>
        obtain rfl : c = c₀ := Option.some.inj (hc.symm.trans (hij ▸ hc₀))
        exact hR
    · exact h.chunks j c₀ hc₀
  · intro w' j retries a c' hw hc'
    obtain ⟨c₀, hc₀, rfl⟩ := hchunk hc'
    rw [hworkers] at hw
    obtain ⟨hpc, rfl⟩ | ⟨hother, hold⟩ := getElem?_set_cases hw
    · obtain ⟨hij, hon⟩ := hQ j retries a hpc.symm
      obtain rfl : c = c₀ := Option.some.inj (hc.symm.trans (hij ▸ hc₀))
      rwa [if_pos hij]
    · split
      · next hij => exact absurd (hij ▸ hold) (hfree w' hother retries a)
      · exact h.attempts w' j retries a c₀ hold hc₀

/-- Workers that are at no chunk any more are at none wrongly. -/
theorem EachChunk.leave {R : Chunk → Prop} {Q : Chunk → Attempt → Prop} (h : EachChunk R Q s)
    (hchunks : s'.chunks = s.chunks)
    (hworkers : ∀ (w i retries : Nat) (a : Attempt), s'.workers[w]? = some (.busy i retries a) →
      s.workers[w]? = some (.busy i retries a)) : EachChunk R Q s' := by
  constructor
  · intro i c hc
    exact h.chunks i c (hchunks ▸ hc)
  · intro w i retries a c hw hc
    exact h.attempts w i retries a c (hworkers w i retries a hw) (hchunks ▸ hc)

theorem busy_of_leaves {pc : WorkerPc} {w' : Nat} {a : Attempt}
    (hpc : ∀ i retries a, pc ≠ .busy i retries a)
    (hw : (s.workers.set w pc)[w']? = some (.busy i retries a)) :
    s.workers[w']? = some (.busy i retries a) := by
  obtain ⟨heq, -⟩ | ⟨-, hold⟩ := getElem?_set_cases hw
  · exact absurd heq.symm (hpc i retries a)
  · exact hold

theorem not_busy_of_joins {a : Attempt} :
    (s.workers.map fun _ => WorkerPc.left)[w]? ≠ some (.busy i retries a) := by
  intro hw
  rw [List.getElem?_map] at hw
  obtain ⟨pc, -, heq⟩ := Option.map_eq_some_iff.mp hw
  cases heq

theorem not_busy_of_start {chunks : List Chunk} {file : Bytes} {a : Attempt} :
    (start chunks file).workers[w]? ≠ some (.busy i retries a) := by
  intro hw
  have hmem : WorkerPc.busy i retries a ∈ List.replicate (min 8 chunks.length) WorkerPc.ready :=
    List.mem_of_getElem? hw
  cases List.eq_of_mem_replicate hmem

/-- **No chunk is lost and none is done twice.** For every list of chunks, every order of the
workers and every exception: in every state of a run no chunk is with two workers, `join`
returns only when all are completed, and a worker is there until then; a completed chunk stays
as it is, and nobody takes it again. -/
theorem run_chunks (ranges : List (Nat × Int × Int)) (file : Bytes) (es later : List Event)
    (s s' : DownloadSession)
    (hrun : runFrom step (start (ranges.map fun r => .new r.1 r.2.1 r.2.2) file) es = some s)
    (hlater : runFrom step s later = some s') :
    NoneLost s ∧ ∀ (i : Nat) (c : Chunk), s.chunks[i]? = some c → c.status = .completed →
      s'.chunks[i]? = some c ∧ i ∉ s'.queue ∧
        ∀ (w retries : Nat) (a : Attempt), s'.workers[w]? ≠ some (.busy i retries a) := by
  have hnew : ∀ c ∈ ranges.map fun r => Chunk.new r.1 r.2.1 r.2.2, c.status ≠ .completed := by
    intro c hc
    obtain ⟨r, -, rfl⟩ := List.mem_map.mp hc
    show ChunkStatus.pending ≠ .completed
    decide
  have h : Pooled s := runFrom_invariant (fun _ _ _ h hstep => h.step hstep)
    (start_pooled hnew file) hrun
  refine ⟨h.noneLost, fun i c hc hstatus => ?_⟩
  have hstays : Pooled s' ∧ s'.chunks[i]? = some c :=
    runFrom_invariant (I := fun s => Pooled s ∧ s.chunks[i]? = some c)
      (fun _ _ _ h hstep => ⟨h.1.step hstep, h.1.chunk_stays hstep h.2 hstatus⟩) ⟨h, hc⟩ hlater
  exact ⟨hstays.2, hstays.1.noneLost.notAgain i c hstays.2 hstatus⟩

/-- One chunk of two bytes: the first attempt fails, the second one completes it, and `join`
returns. -/
theorem run_chunks_retry :
    ∃ s s', runFrom step (start ([(0, 0, 1)].map fun r => .new r.1 r.2.1 r.2.2) [0, 0])
        [.loop 0 .physical, .responded 0 206 [97, 98], .received 0 1, .raises 0, .slept 0 .physical,
          .responded 0 206 [98], .received 0 1, .bodyEnds 0] = some s ∧
      runFrom step s [.joined] = some s' ∧ s'.isCompleted ∧ NoneLost s ∧
      s'.chunks[0]? = some ⟨0, 0, 1, 2, .completed⟩ := by
  have hfirst : (runFrom step (start ([(0, 0, 1)].map fun r => .new r.1 r.2.1 r.2.2) [0, 0])
      [.loop 0 .physical, .responded 0 206 [97, 98], .received 0 1, .raises 0, .slept 0 .physical,
        .responded 0 206 [98], .received 0 1, .bodyEnds 0]).map
      (fun s => (s.chunks, s.joinWoken, s.isCompleted))
      = some ([⟨0, 0, 1, 2, .completed⟩], true, false) := by decide +kernel
  obtain ⟨s, hrun, heq⟩ := Option.map_eq_some_iff.mp hfirst
  simp only [Prod.mk.injEq] at heq
  obtain ⟨hchunks, hwoken, hcompleted⟩ := heq
  have hjoin : runFrom step s [.joined] = some { s with
      workers := s.workers.map fun _ => .left
      isCompleted := true } := by
    simp [runFrom, step, hwoken, hcompleted]
  obtain ⟨hnone, hlast⟩ := run_chunks [(0, 0, 1)] [0, 0] _ _ s _ hrun hjoin
  exact ⟨s, _, hrun, hjoin, rfl, hnone, (hlast 0 _ (by rw [hchunks]; rfl) rfl).1⟩

end DownloadSession

end AetherBond.Client
