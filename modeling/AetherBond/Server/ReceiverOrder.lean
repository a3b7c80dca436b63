import AetherBond.Server.Receiver

set_option autoImplicit false

/-! # Order and conservation in the resequencing buffer

`Settled` is the joint invariant of `heap`, `seen_seqs` and `expected_seq` between two
critical sections. Inside one, before the release loop has run, the number expected next may
itself be in the heap; that weaker state is `Consistent`, and the release loop takes a
`Consistent` buffer to a `Settled` one (`Released.settled`).
-/

namespace AetherBond.Server.ResequencingBuffer

open AetherBond.Lib

variable {P σ : Type*}

/-- Every accepted put was delivered or is in the heap, once, and no number was accepted
twice. -/
def Conserved (b : ResequencingBuffer P) : Prop :=
  (b.accepted.map Prod.fst).Nodup ∧ b.accepted.Perm (b.delivered ++ b.heap.map Entry.packet)

/-- The sequence numbers of the calls of the callback are strictly increasing. -/
def InOrder (b : ResequencingBuffer P) : Prop := (b.delivered.map Prod.fst).Pairwise (· < ·)

/-- What holds inside a critical section, before the release loop. -/
structure Consistent (b : ResequencingBuffer P) : Prop where
  sorted : (heapSeqs b.heap).Pairwise (· < ·)
  atLeast : ∀ s ∈ heapSeqs b.heap, b.expectedSeq ≤ s
  seen : b.seenSeqs = (heapSeqs b.heap).toFinset
  inOrder : b.InOrder
  below : ∀ d ∈ b.delivered, d.1 < b.expectedSeq
  perm : b.accepted.Perm (b.delivered ++ b.heap.map Entry.packet)

/-- What holds while the lock is free. -/
structure Settled (b : ResequencingBuffer P) : Prop extends Consistent b where
  above : ∀ s ∈ heapSeqs b.heap, b.expectedSeq < s

theorem init_settled (flushTimeout : Int) : Settled (init flushTimeout : ResequencingBuffer P) := by
  constructor
  · constructor <;> simp [init, heapSeqs, InOrder]
  · simp [init, heapSeqs]

theorem mem_heapSeqs {heap : List (Entry P)} {s : Nat} :
    s ∈ heapSeqs heap ↔ ∃ e ∈ heap, e.seq = s :=
  List.mem_map

/-- Between two critical sections the buffer waits for a missing number. -/
theorem Settled.lt_oldest {b : ResequencingBuffer P} (hb : Settled b) {oldest : Entry P}
    {rest : List (Entry P)} (hheap : b.heap = oldest :: rest) : b.expectedSeq < oldest.seq :=
  hb.above oldest.seq (by simp [hheap, heapSeqs])

theorem map_fst_packet (l : List (Entry P)) : (l.map Entry.packet).map Prod.fst = heapSeqs l := by
  simp [heapSeqs, Entry.packet, Function.comp_def]

/-- Delivered numbers are below `expected_seq` and buffered ones not, so no number was
accepted twice. -/
theorem Consistent.conserved {b : ResequencingBuffer P} (h : Consistent b) : b.Conserved := by
  refine ⟨?_, h.perm⟩
  rw [(h.perm.map Prod.fst).nodup_iff, List.map_append, map_fst_packet, List.nodup_append]
  refine ⟨h.inOrder.imp ne_of_lt, h.sorted.imp ne_of_lt, ?_⟩
  intro x hx y hy
  obtain ⟨d, hd, rfl⟩ := List.mem_map.mp hx
  have h₁ := h.below d hd
  have h₂ := h.atLeast y hy
  omega

/-! ## The heap -/

theorem heapSeqs_heappush (heap : List (Entry P)) (e : Entry P) :
    heapSeqs (heappush heap e) = (heapSeqs heap).orderedInsert (· ≤ ·) e.seq :=
  List.map_orderedInsert _ _ _ _ _ (fun _ _ => Iff.rfl) (fun _ _ => Iff.rfl)

theorem mem_heapSeqs_heappush {heap : List (Entry P)} {e : Entry P} {s : Nat} :
    s ∈ heapSeqs (heappush heap e) ↔ s = e.seq ∨ s ∈ heapSeqs heap := by
  rw [heapSeqs_heappush, List.mem_orderedInsert]

theorem heappush_sorted {heap : List (Entry P)} {e : Entry P}
    (h : (heapSeqs heap).Pairwise (· < ·)) (hnew : e.seq ∉ heapSeqs heap) :
    (heapSeqs (heappush heap e)).Pairwise (· < ·) := by
  rw [heapSeqs_heappush]
  have hle : ((heapSeqs heap).orderedInsert (· ≤ ·) e.seq).Pairwise (· ≤ ·) :=
    List.Pairwise.orderedInsert e.seq _ (h.imp le_of_lt)
  have hnd : ((heapSeqs heap).orderedInsert (· ≤ ·) e.seq).Nodup :=
    (List.perm_orderedInsert _ _ _).nodup_iff.mpr
      (List.nodup_cons.mpr ⟨hnew, h.imp ne_of_lt⟩)
  exact (hle.and hnd).imp fun hab => lt_of_le_of_ne hab.1 hab.2

/-! ## The critical sections -/

variable {callback : Callback P σ} {run : List (Entry P)} {b b' : ResequencingBuffer P}
  {st st' : σ}

/-- Nothing that is left in the heap after a release was released. -/
theorem Released.settled (h : Released callback run b st b' st') (hb : Consistent b) :
    Settled b' := by
  have hheap : heapSeqs b.heap = run.map Entry.seq ++ heapSeqs b'.heap := by
    rw [h.heap]; exact List.map_append
  obtain ⟨-, hsorted, hlt⟩ := List.pairwise_append.mp (hheap ▸ hb.sorted)
  -- the released numbers are consecutive and the rest of the heap lies above them
  have hge : ∀ s ∈ heapSeqs b'.heap, b'.expectedSeq ≤ s := by
    intro s hs
    rw [h.expectedSeq]
    cases hrun : run.length with
    | zero => exact hb.atLeast s (hheap ▸ List.mem_append_right _ hs)
    | succ n =>
        have hlast : b.expectedSeq + n ∈ run.map Entry.seq := by
          rw [h.seqs, List.mem_range'_1]; omega
        have := hlt _ hlast s hs
        omega
  have hdel : b'.delivered.map Prod.fst = b.delivered.map Prod.fst ++ run.map Entry.seq := by
    rw [h.delivered, List.map_append, List.map_map]; rfl
  refine ⟨⟨hsorted, hge, ?_, ?_, ?_, ?_⟩, ?_⟩
  · -- `seen_seqs` lost the released numbers, and so did the heap
    rw [h.seenSeqs, hb.seen, hheap]
    ext s
    simp only [List.toFinset_append, Finset.mem_sdiff, Finset.mem_union, List.mem_toFinset]
    constructor
    · rintro ⟨hs | hs, hnot⟩
      · exact absurd hs hnot
      · exact hs
    · exact fun hs => ⟨Or.inr hs, fun hin => lt_irrefl s (hlt s hin s hs)⟩
  · rw [InOrder, hdel, h.seqs]
    refine List.pairwise_append.mpr ⟨hb.inOrder, List.pairwise_lt_range', ?_⟩
    intro x hx y hy
    obtain ⟨d, hd, rfl⟩ := List.mem_map.mp hx
    exact lt_of_lt_of_le (hb.below d hd) (List.mem_range'_1.mp hy).1
  · intro d hd
    have hmem : d.1 ∈ b.delivered.map Prod.fst ++ run.map Entry.seq :=
      hdel ▸ List.mem_map_of_mem hd
    rw [h.expectedSeq]
    rcases List.mem_append.mp hmem with hd | hd
    · obtain ⟨d', hd', heq⟩ := List.mem_map.mp hd
      have := hb.below d' hd'
      omega
    · rw [h.seqs] at hd
      exact (List.mem_range'_1.mp hd).2
  · rw [h.accepted, h.delivered, List.append_assoc]
    have hperm := hb.perm
    rw [h.heap, List.map_append] at hperm
    exact hperm
  · intro s hs
    refine lt_of_le_of_ne (hge s hs) fun heq => ?_
    -- only the first entry can carry the number expected next, and `stop` excludes it
    cases hh : b'.heap with
    | nil => rw [hh] at hs; simp [heapSeqs] at hs
    | cons e rest =>
        have hfirst : b'.expectedSeq ≤ e.seq := hge e.seq (by simp [hh, heapSeqs])
        have hne : e.seq ≠ b'.expectedSeq := h.stop e (by rw [hh]; rfl)
        rw [hh] at hs hsorted
        rcases List.mem_cons.mp hs with rfl | hs
        · exact hne heq.symm
        · have := (List.pairwise_cons.mp hsorted).1 s hs
          omega

/-- A release starts with the oldest entry, if that is the one expected next. -/
theorem Released.starts (h : Released callback run b st b' st') {oldest : Entry P}
    {rest : List (Entry P)} (hheap : b.heap = oldest :: rest)
    (hnext : oldest.seq = b.expectedSeq) : ∃ later, run = oldest :: later := by
  have hsplit : oldest :: rest = run ++ b'.heap := hheap.symm.trans h.heap
  cases run with
  | nil =>
      -- nothing released, so the entry would stop the release
      have hhead : b'.heap.head? = some oldest := by
        rw [← List.nil_append b'.heap, ← hsplit]
        rfl
      exact absurd (hnext.trans h.expectedSeq.symm) (h.stop oldest hhead)
  | cons first later =>
      obtain ⟨rfl, -⟩ := List.cons.inj hsplit
      exact ⟨later, rfl⟩

theorem Consistent.release (hb : Consistent b) (callback : Callback P σ) (st : σ) :
    ∃ run b' st', releaseContiguousPacketsUnlocked callback b st = some (b', st') ∧
      Released callback run b st b' st' ∧ Settled b' := by
  obtain ⟨run, b', st', hrun, hr⟩ := release_released callback b st
    (hb.sorted.imp ne_of_lt) (fun s hs => by rw [hb.seen]; exact List.mem_toFinset.mpr hs)
  exact ⟨run, b', st', hrun, hr, hr.settled hb⟩

theorem Settled.manageFlushTask (hb : Settled b) : Settled b.manageFlushTask := by
  rw [ResequencingBuffer.manageFlushTask]
  split_ifs
  · exact ⟨⟨hb.sorted, hb.atLeast, hb.seen, hb.inOrder, hb.below, hb.perm⟩, hb.above⟩
  · exact hb

/-- The buffer of an accepted put just before the release loop. -/
def stored (b : ResequencingBuffer P) (seq : Nat) (payload : P) (now : Int) :
    ResequencingBuffer P :=
  { b with
    heap := heappush b.heap ⟨seq, payload, now⟩
    seenSeqs := insert seq b.seenSeqs
    accepted := b.accepted ++ [(seq, payload)] }

theorem Settled.stored (hb : Settled b) {seq : Nat} (payload : P) (now : Int)
    (hnew : ¬ b.drops seq) : Consistent (b.stored seq payload now) := by
  obtain ⟨hunseen, hge⟩ := not_or.mp hnew
  have hnotin : seq ∉ heapSeqs b.heap := fun hs =>
    hunseen (by rw [hb.seen]; exact List.mem_toFinset.mpr hs)
  constructor
  case sorted => exact heappush_sorted hb.sorted hnotin
  case atLeast =>
    intro s hs
    rcases mem_heapSeqs_heappush.mp hs with rfl | hs
    · exact not_lt.mp hge
    · exact hb.atLeast s hs
  case seen =>
    show insert seq b.seenSeqs = (heapSeqs (heappush b.heap _)).toFinset
    ext s
    rw [hb.seen, Finset.mem_insert, List.mem_toFinset, List.mem_toFinset, mem_heapSeqs_heappush]
  case inOrder => exact hb.inOrder
  case below => exact hb.below
  case perm =>
    show (b.accepted ++ [(seq, payload)]).Perm
      (b.delivered ++ (heappush b.heap ⟨seq, payload, now⟩).map Entry.packet)
    have hpush : ((heappush b.heap ⟨seq, payload, now⟩).map Entry.packet).Perm
        (b.heap.map Entry.packet ++ [(seq, payload)]) :=
      ((List.perm_orderedInsert _ _ b.heap).map Entry.packet).trans
        (List.perm_append_singleton _ _).symm
    have hold : (b.accepted ++ [(seq, payload)]).Perm
        (b.delivered ++ (b.heap.map Entry.packet ++ [(seq, payload)])) := by
      rw [← List.append_assoc]
      exact hb.perm.append_right _
    exact hold.trans (hpush.symm.append_left _)

/-- A put of a new number is stored, and what can be released is. -/
theorem Settled.put_new (hb : Settled b) {seq : Nat} (hnew : ¬ b.drops seq)
    (callback : Callback P σ) (st : σ) (payload : P) (now : Int) :
    ∃ run b₁ st₁, b.put callback st seq payload now = some (b₁.manageFlushTask, st₁) ∧
      Released callback run (b.stored seq payload now) st b₁ st₁ ∧ Settled b₁ := by
  obtain ⟨run, b₁, st₁, hrun, hr, hb₁⟩ := (hb.stored payload now hnew).release callback st
  refine ⟨run, b₁, st₁, ?_, hr, hb₁⟩
  rw [ResequencingBuffer.stored] at hrun
  rw [ResequencingBuffer.put, if_neg hnew, hrun]
  rfl

theorem Settled.put (hb : Settled b) (callback : Callback P σ) (st : σ) (seq : Nat) (payload : P)
    (now : Int) : ∃ b' st', b.put callback st seq payload now = some (b', st') ∧ Settled b' := by
  by_cases hdrop : b.drops seq
  · exact ⟨b, st, if_pos hdrop, hb⟩
  · obtain ⟨-, b₁, st₁, hput, -, hb₁⟩ := hb.put_new hdrop callback st payload now
    exact ⟨_, st₁, hput, hb₁.manageFlushTask⟩

/-- Skipping to the oldest buffered number keeps the buffer consistent. -/
theorem Settled.skip (hb : Settled b) {oldest : Entry P} {rest : List (Entry P)}
    (hheap : b.heap = oldest :: rest) : Consistent { b with expectedSeq := oldest.seq } where
  sorted := hb.sorted
  atLeast s hs := by
    have hsorted := hb.sorted
    dsimp only at hs
    rw [hheap] at hs hsorted
    rcases List.mem_cons.mp hs with rfl | hs
    · exact le_rfl
    · exact ((List.pairwise_cons.mp hsorted).1 s hs).le
  seen := hb.seen
  inOrder := hb.inOrder
  below d hd := (hb.below d hd).trans (hb.lt_oldest hheap)
  perm := hb.perm

theorem Settled.flushCheck (hb : Settled b) (callback : Callback P σ) (st : σ) (task : Nat)
    (now : Int) : ∃ b' st', b.flushCheck callback st task now = some (b', st') ∧ Settled b' := by
  rcases hheap : b.heap with _ | ⟨oldest, rest⟩
  · exact ⟨_, st, flushCheck_of_nil hheap,
      ⟨⟨hb.sorted, hb.atLeast, hb.seen, hb.inOrder, hb.below, hb.perm⟩, hb.above⟩⟩
  · rw [flushCheck_of_cons hheap, if_pos (hb.lt_oldest hheap)]
    split_ifs
    · obtain ⟨-, b', st', hrun, -, hb'⟩ := (hb.skip hheap).release callback st
      exact ⟨b', st', hrun, hb'⟩
    · exact ⟨b, st, rfl, hb⟩

/-- **The step lemma**: an enabled event returns and keeps the invariant. -/
theorem Settled.step {s : ResequencingBuffer P × σ} (hs : Settled s.1) (callback : Callback P σ)
    {e : Event P} (he : e.Enabled s.1) :
    ∃ s', ResequencingBuffer.step callback s e = some s' ∧ Settled s'.1 := by
  cases e with
  | put seq payload now =>
      obtain ⟨b', st', hrun, hb'⟩ := hs.put callback s.2 seq payload now
      exact ⟨(b', st'), hrun, hb'⟩
  | flushCheck task now =>
      obtain ⟨b', st', hrun, hb'⟩ := hs.flushCheck callback s.2 task now
      exact ⟨(b', st'), (if_pos he).trans hrun, hb'⟩

/-- The step of an event that is not enabled does not exist. -/
theorem enabled_of_step {s s' : ResequencingBuffer P × σ} {e : Event P}
    (h : ResequencingBuffer.step callback s e = some s') : e.Enabled s.1 := by
  cases e with
  | put seq payload now => trivial
  | flushCheck task now =>
      by_contra hno
      exact absurd ((if_neg hno).symm.trans h) (by simp)

/-- **The run lemma**: every reachable buffer is settled. -/
theorem settled_of_run {callback : Callback P σ} {s s' : ResequencingBuffer P × σ}
    {es : List (Event P)} (hs : Settled s.1)
    (hrun : runFrom (ResequencingBuffer.step callback) s es = some s') : Settled s'.1 := by
  refine runFrom_invariant (I := fun s => Settled s.1) (fun s e s' hs hstep => ?_) hs hrun
  obtain ⟨s'', hstep', hs''⟩ := hs.step callback (enabled_of_step hstep)
  obtain rfl : s'' = s' := Option.some.inj (hstep'.symm.trans hstep)
  exact hs''

/-- **Order and conservation.** After any run of puts and flush turns, with any payloads, clock
readings and callback: the numbers handed to the callback are strictly increasing; every
accepted put was delivered or is in the heap, exactly once, with the payload it was accepted
with; `seen_seqs` is the set of buffered numbers; these are above `expected_seq`; and the next
event, if it can happen at all, does not fail. -/
theorem run_inOrder_conserved (callback : Callback P σ) (flushTimeout : Int) (st : σ)
    (es : List (Event P)) (b : ResequencingBuffer P) (st' : σ)
    (hrun : runFrom (ResequencingBuffer.step callback) (init flushTimeout, st) es
      = some (b, st')) :
    b.InOrder ∧ b.Conserved ∧ b.seenSeqs = (heapSeqs b.heap).toFinset ∧
      (∀ s ∈ heapSeqs b.heap, b.expectedSeq < s) ∧
      ∀ e : Event P, e.Enabled b → (ResequencingBuffer.step callback (b, st') e).isSome := by
  have hb : Settled b := settled_of_run (init_settled flushTimeout) hrun
  refine ⟨hb.inOrder, hb.conserved, hb.seen, hb.above, fun e he => ?_⟩
  obtain ⟨s', hstep, -⟩ := Settled.step (s := (b, st')) hb callback he
  rw [hstep]
  rfl

/-- A late packet, a replay and a timed-out gap, with a callback that always raises. -/
theorem run_inOrder_conserved_replay :
    ∃ b st', runFrom (ResequencingBuffer.step fun _ n => (.error "full", n + 1))
        (init, 0) [.put 1 'b' 0, .put 1 'x' 0, .put 0 'a' 0, .put 3 'd' 0,
          .flushCheck 0 40000000]
      = some (b, st') ∧ b.InOrder ∧ b.Conserved ∧ b.seenSeqs = (heapSeqs b.heap).toFinset ∧
      (∀ s ∈ heapSeqs b.heap, b.expectedSeq < s) ∧
      ∀ e : Event Char, e.Enabled b →
        (ResequencingBuffer.step (fun _ n => (.error "full", n + 1)) (b, st') e).isSome := by
  obtain ⟨⟨b, st'⟩, hrun⟩ := Option.isSome_iff_exists.mp (show (runFrom
    (ResequencingBuffer.step fun _ n => (.error "full", n + 1)) (init, 0)
    [.put 1 'b' 0, .put 1 'x' 0, .put 0 'a' 0, .put 3 'd' 0,
      .flushCheck 0 40000000]).isSome by decide)
  exact ⟨b, st', hrun, run_inOrder_conserved _ _ _ _ _ _ hrun⟩

end AetherBond.Server.ResequencingBuffer
