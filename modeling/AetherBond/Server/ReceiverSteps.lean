import AetherBond.Server.ReceiverOrder

set_option autoImplicit false

/-! # What a step of the resequencing buffer does

Whatever happens to a settled buffer, `expected_seq` passes over some numbers: first those the
flush task gives up on (`skippedSeqs`), then those of the entries that are released to the
callback (`Effect`, `step_effect`). An invariant of the buffer and of its callback's state is
then an invariant of this one kind of change.
-/

namespace AetherBond.Server.ResequencingBuffer

open AetherBond.Lib

variable {P σ : Type*} {callback : Callback P σ} {b b' : ResequencingBuffer P} {st st' : σ}
  {e : Event P} {run : List (Entry P)}

/-- The numbers the flush task gives up on. -/
def skippedSeqs (b : ResequencingBuffer P) : Event P → List Nat
  | .put _ _ _ => []
  | .flushCheck _ now =>
      match b.heap with
      | [] => []
      | oldest :: _ =>
          if b.expectedSeq < oldest.seq ∧ b.flushTimeout ≤ now - oldest.arrivalTime then
            List.range' b.expectedSeq (oldest.seq - b.expectedSeq)
          else []

/-- The entry is the one the event puts into the buffer. -/
def Accepts (b : ResequencingBuffer P) (x : Entry P) : Event P → Prop
  | .put seq payload now => ¬ b.drops seq ∧ x = ⟨seq, payload, now⟩
  | .flushCheck _ _ => False

/-- The entries `run` are released. -/
structure Effect (callback : Callback P σ) (e : Event P) (run : List (Entry P))
    (b : ResequencingBuffer P) (st : σ) (b' : ResequencingBuffer P) (st' : σ) : Prop where
  grows : b.expectedSeq ≤ b'.expectedSeq
  /-- The numbers `expected_seq` passes over. -/
  passed : List.range' b.expectedSeq (b'.expectedSeq - b.expectedSeq)
    = b.skippedSeqs e ++ run.map Entry.seq
  delivered : b'.delivered = b.delivered ++ run.map Entry.packet
  callback : st' = runCallback callback run st
  /-- What is released or left was there before or has just been put. -/
  entries : ∀ x ∈ run ++ b'.heap, x ∈ b.heap ∨ b.Accepts x e

/-- **What a step does to a settled buffer.** -/
inductive Move (callback : Callback P σ) (b : ResequencingBuffer P) (st : σ) :
    Event P → ResequencingBuffer P → σ → Prop
  | drops {seq : Nat} {payload : P} {now : Int} (hdrop : b.drops seq) :
      Move callback b st (.put seq payload now) b st
  | puts {seq : Nat} {payload : P} {now : Int} (hnew : ¬ b.drops seq) {run : List (Entry P)}
      {b₁ : ResequencingBuffer P} {st₁ : σ}
      (hr : Released callback run (b.stored seq payload now) st b₁ st₁) :
      Move callback b st (.put seq payload now) b₁.manageFlushTask st₁
  /-- The flush task finds the heap empty and ends. -/
  | leaves {task : Nat} {now : Int} (hheap : b.heap = []) :
      Move callback b st (.flushCheck task now)
        { b with flushTask := none, liveTasks := b.liveTasks.erase task } st
  | waits {task : Nat} {now : Int} {oldest : Entry P} {rest : List (Entry P)}
      (hheap : b.heap = oldest :: rest) (htime : ¬ b.flushTimeout ≤ now - oldest.arrivalTime) :
      Move callback b st (.flushCheck task now) b st
  /-- It gives up on the numbers below the oldest buffered one. -/
  | skips {task : Nat} {now : Int} {oldest : Entry P} {rest : List (Entry P)}
      (hheap : b.heap = oldest :: rest) (hlt : b.expectedSeq < oldest.seq)
      (htime : b.flushTimeout ≤ now - oldest.arrivalTime) {run : List (Entry P)}
      {b₁ : ResequencingBuffer P} {st₁ : σ}
      (hr : Released callback run { b with expectedSeq := oldest.seq } st b₁ st₁) :
      Move callback b st (.flushCheck task now) b₁ st₁

theorem step_move (hb : Settled b) (hstep : step callback (b, st) e = some (b', st')) :
    Move callback b st e b' st' := by
  cases e with
  | put seq payload now =>
      have hput : b.put callback st seq payload now = some (b', st') := hstep
      by_cases hdrop : b.drops seq
      · rw [ResequencingBuffer.put, if_pos hdrop] at hput
        obtain ⟨rfl, rfl⟩ := Prod.mk.inj (Option.some.inj hput)
        exact .drops hdrop
      · obtain ⟨run, b₁, st₁, hnew, hr, -⟩ := hb.put_new hdrop callback st payload now
        obtain ⟨rfl, rfl⟩ := Prod.mk.inj (Option.some.inj (hnew.symm.trans hput))
        exact .puts hdrop hr
  | flushCheck task now =>
      unfold ResequencingBuffer.step at hstep
      dsimp only at hstep
      split_ifs at hstep
      rcases hheap : b.heap with _ | ⟨oldest, rest⟩
      · rw [flushCheck_of_nil hheap] at hstep
        obtain ⟨rfl, rfl⟩ := Prod.mk.inj (Option.some.inj hstep)
        exact .leaves hheap
      have hlt : b.expectedSeq < oldest.seq := hb.lt_oldest hheap
      rw [flushCheck_of_cons hheap, if_pos hlt] at hstep
      split_ifs at hstep with htime
      · obtain ⟨run, b₁, st₁, hrun, hr, -⟩ := (hb.skip hheap).release callback st
        rw [hrun] at hstep
        obtain ⟨rfl, rfl⟩ := Prod.mk.inj (Option.some.inj hstep)
        exact .skips hheap hlt htime hr
      · obtain ⟨rfl, rfl⟩ := Prod.mk.inj (Option.some.inj hstep)
        exact .waits hheap htime

theorem manageFlushTask_frame (b : ResequencingBuffer P) :
    b.manageFlushTask.expectedSeq = b.expectedSeq ∧ b.manageFlushTask.heap = b.heap ∧
      b.manageFlushTask.delivered = b.delivered ∧ b.manageFlushTask.seenSeqs = b.seenSeqs := by
  unfold manageFlushTask
  split_ifs <;> exact ⟨rfl, rfl, rfl, rfl⟩

/-- Nothing is skipped or released. -/
theorem Effect.nothing (hskip : b.skippedSeqs e = []) (hseq : b'.expectedSeq = b.expectedSeq)
    (hdel : b'.delivered = b.delivered) (hheap : b'.heap = b.heap) :
    Effect callback e [] b st b' st where
  grows := hseq.ge
  passed := by rw [hskip, hseq, Nat.sub_self]; rfl
  delivered := by rw [hdel, List.map_nil, List.append_nil]
  callback := rfl
  entries x hx := Or.inl (by rwa [hheap] at hx)

/-- A release passes over the numbers of its entries. -/
theorem Released.passed (h : Released callback run b st b' st') :
    List.range' b.expectedSeq (b'.expectedSeq - b.expectedSeq) = run.map Entry.seq := by
  rw [h.expectedSeq, Nat.add_sub_cancel_left, h.seqs]

theorem flushCheck_skippedSeqs {oldest : Entry P} {rest : List (Entry P)}
    (hheap : b.heap = oldest :: rest) (task : Nat) (now : Int) :
    b.skippedSeqs (.flushCheck task now)
      = if b.expectedSeq < oldest.seq ∧ b.flushTimeout ≤ now - oldest.arrivalTime then
          List.range' b.expectedSeq (oldest.seq - b.expectedSeq)
        else [] := by
  unfold skippedSeqs
  dsimp only
  rw [hheap]

/-- **Every step is of this kind.** -/
theorem step_effect (hb : Settled b) (hstep : step callback (b, st) e = some (b', st')) :
    ∃ run, Effect callback e run b st b' st' := by
  cases step_move hb hstep with
  | drops => exact ⟨[], .nothing rfl rfl rfl rfl⟩
  | @puts seq payload now hnew run b₁ _ hr =>
      -- a put skips no number: what it passes it releases
      have hpassed := hr.passed
      have hgrows : b.expectedSeq ≤ b₁.expectedSeq := Nat.le.intro hr.expectedSeq.symm
      obtain ⟨hseq, hheap, hdel, -⟩ := manageFlushTask_frame b₁
      refine ⟨run, hseq ▸ hgrows, hseq ▸ hpassed, hdel.trans hr.delivered, hr.callback,
        fun x hx => ?_⟩
      rw [hheap, ← hr.heap] at hx
      rcases (List.mem_orderedInsert _).mp hx with rfl | hx
      · exact Or.inr ⟨hnew, rfl⟩
      · exact Or.inl hx
  | @leaves task now hheap =>
      have hskip : b.skippedSeqs (.flushCheck task now) = [] := by
        unfold skippedSeqs
        dsimp only
        rw [hheap]
      exact ⟨[], .nothing hskip rfl rfl rfl⟩
  | @waits task now _ _ hheap htime =>
      have hskip := flushCheck_skippedSeqs hheap task now
      rw [if_neg fun h => htime h.2] at hskip
      exact ⟨[], .nothing hskip rfl rfl rfl⟩
  | @skips task now oldest _ hheap hlt htime run _ _ hr =>
      have hskip := flushCheck_skippedSeqs hheap task now
      rw [if_pos ⟨hlt, htime⟩] at hskip
      have hle : oldest.seq ≤ b'.expectedSeq := Nat.le.intro hr.expectedSeq.symm
      refine ⟨run, hlt.le.trans hle, ?_, hr.delivered, hr.callback, fun x hx => Or.inl ?_⟩
      · -- first up to the oldest buffered number, then the released ones
        have hmid : b.expectedSeq + (oldest.seq - b.expectedSeq) = oldest.seq := by omega
        have hsum : b'.expectedSeq - b.expectedSeq
            = (oldest.seq - b.expectedSeq) + (b'.expectedSeq - oldest.seq) := by omega
        have hpassed : List.range' oldest.seq (b'.expectedSeq - oldest.seq)
            = run.map Entry.seq := hr.passed
        rw [hskip, hsum, ← List.range'_append_1, hmid, hpassed]
      · rw [← hr.heap] at hx
        exact hx

/-- An accepted number is taken: it will be dropped from now on. -/
theorem Settled.put_takes (hb : Settled b) {seq : Nat} {payload : P} {now : Int}
    (hnew : ¬ b.drops seq) (hput : b.put callback st seq payload now = some (b', st')) :
    b'.drops seq := by
  obtain ⟨run, b₁, st₁, heq, hr, hb₁⟩ := hb.put_new hnew callback st payload now
  obtain ⟨rfl, rfl⟩ := Prod.mk.inj (Option.some.inj (heq.symm.trans hput))
  obtain ⟨hseq, -, -, hseen⟩ := manageFlushTask_frame b₁
  have hin : (seq, payload) ∈ b₁.accepted := by
    rw [hr.accepted]
    exact List.mem_append_right _ List.mem_cons_self
  unfold drops
  rw [hseq, hseen]
  rcases List.mem_append.mp (hb₁.perm.mem_iff.mp hin) with hdel | hheap
  · exact Or.inr (hb₁.below _ hdel)
  · obtain ⟨x, hx, heq⟩ := List.mem_map.mp hheap
    left
    rw [hb₁.seen, List.mem_toFinset]
    exact mem_heapSeqs.mpr ⟨x, hx, congrArg Prod.fst heq⟩

/-- What a run of calls of the callback preserves. -/
theorem runCallback_invariant {I : σ → Prop} {Q : P → Prop}
    (hcall : ∀ payload st, Q payload → I st → I (callback payload st).2)
    (hrun : ∀ x ∈ run, Q x.payload) (hst : I st) : I (runCallback callback run st) := by
  induction run generalizing st with
  | nil => exact hst
  | cons x run ih =>
      have hx : I (callback x.payload st).2 := hcall _ _ (hrun x List.mem_cons_self) hst
      exact ih (fun y hy => hrun y (List.mem_cons_of_mem _ hy)) hx

end AetherBond.Server.ResequencingBuffer
