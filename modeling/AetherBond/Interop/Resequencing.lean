import AetherBond.Server.ReceiverSteps
import AetherBond.Core.ResequencingOrder

set_option autoImplicit false

/-! # The Rust resequencer refines the Python one

Both buffers take the same timed events: packets, and checks of the timeout (`tick` in Rust, a
turn of the flush task in Python). The two keep their packets in an ordered map and in a heap
with a set of numbers, and decide by `>` and `>=` that a packet has waited for too long.

`Agree` is what the two have in common and `Simulates` the invariant that carries it. The two
release loops run in lockstep on a sorted heap (`Agree.release`), one event is `Simulates.step`,
and `run_refines` is the result about runs.
-/

namespace AetherBond.Interop

open AetherBond.Lib AetherBond.Core AetherBond.Server
open AetherBond.Server.ResequencingBuffer (init heappush heapSeqs releaseLoop)

variable {σ : Type*}

/-! ## Common runs -/

/-- An event of both buffers, with the clock reading. -/
inductive TimedEvent
  | put (seq : Nat) (payload : List UInt8) (now : Nat)
  | check (now : Nat)

namespace TimedEvent

/-- The number that is put. -/
def seq? : TimedEvent → Option Nat
  | put seq _ _ => some seq
  | check _ => none

/-- The event on the Python side. Without a flush task there is nothing to check. -/
def python (callback : Callback (List UInt8) σ) (s : ResequencingBuffer (List UInt8) × σ) :
    TimedEvent → Option (ResequencingBuffer (List UInt8) × σ)
  | put seq payload now => ResequencingBuffer.step callback s (.put seq payload now)
  | check now =>
      match s.1.flushTask with
      | none => some s
      | some task => ResequencingBuffer.step callback s (.flushCheck task now)

/-- The event on the Rust side. -/
def rust (profile : Profile) (r : Resequencer) : TimedEvent → Option Resequencer
  | put seq payload now => r.put profile seq payload now
  | check now => r.tick profile now

/-- A packet finds the buffer below its size limit, and a check does not come exactly at the
end of the waiting time of a buffered packet. -/
def Roomy (r : Resequencer) : TimedEvent → Prop
  | put _ _ _ => r.buffer.len < r.maxBufferSize
  | check now => ∀ x ∈ r.buffer.entries, now ≠ x.2.timestamp + r.adaptiveTimeout

instance (r : Resequencer) : DecidablePred (Roomy r)
  | put _ _ _ => inferInstanceAs (Decidable (_ < _))
  | check _ => inferInstanceAs (Decidable (∀ x ∈ _, _ ≠ _))

end TimedEvent

/-- The Rust buffer started at the number 0 with the timeout `T`. -/
def started (T maxBufferSize : Nat) : Resequencer :=
  { Resequencer.new 0 maxBufferSize with adaptiveTimeout := T }

/-- The Rust form of an entry of the heap. -/
def toReseq (x : Entry (List UInt8)) : Nat × ReseqPacket :=
  (x.seq, ⟨x.payload, x.arrivalTime.toNat⟩)

/-- The two buffers expect the same number, hold the same packets and have delivered the same
ones in the same order. -/
structure Agree (b : ResequencingBuffer (List UInt8)) (r : Resequencer) : Prop where
  nextSeq : r.nextSeq = b.expectedSeq
  buffered : r.buffer.entries = b.heap.map toReseq
  delivered : r.delivered = b.delivered

variable {callback : Callback (List UInt8) σ} {b b' : ResequencingBuffer (List UInt8)}
  {r r' : Resequencer} {st st' : σ} {profile : Profile} {heap : List (Entry (List UInt8))}
  {x : Entry (List UInt8)} {T : Nat} {e : TimedEvent}

/-! ## The two data structures -/

theorem Agree.first? (h : Agree b r) : r.buffer.first? = b.heap.head?.map toReseq := by
  unfold OrderedMap.first?
  rw [h.buffered, List.head?_map]

theorem Agree.len (h : Agree b r) : r.buffer.len = b.heap.length := by
  unfold OrderedMap.len
  rw [h.buffered, List.length_map]

/-- Inserting into the map is pushing on the heap, for a number not buffered yet. -/
theorem insertEntry_toReseq (hnew : x.seq ∉ heapSeqs heap) :
    insertEntry x.seq (toReseq x).2 (heap.map toReseq) = (heappush heap x).map toReseq := by
  induction heap with
  | nil => rfl
  | cons y heap ih =>
      obtain ⟨hne, hrest⟩ := not_or.mp (List.mem_cons.not.mp hnew)
      unfold heappush at ih ⊢
      rw [List.map_cons, insertEntry, List.orderedInsert]
      by_cases hlt : x.seq < y.seq
      · rw [if_pos (show x.seq < (toReseq y).1 from hlt), if_pos hlt.le]
        rfl
      · rw [if_neg (show ¬ x.seq < (toReseq y).1 from hlt),
          if_neg (show ¬ x.seq = (toReseq y).1 from hne), if_neg (fun hle => hlt ?_), ih hrest]
        · rfl
        · exact lt_of_le_of_ne hle hne

/-- Removing the smallest number from the map is popping it from the heap. -/
theorem remove_toReseq {rest : List (Entry (List UInt8))}
    (hbuf : r.buffer.entries = (x :: rest).map toReseq)
    (hsorted : (heapSeqs (x :: rest)).Pairwise (· < ·)) :
    (r.buffer.remove x.seq).entries = rest.map toReseq := by
  have habove := (List.pairwise_cons.mp hsorted).1
  have hkeep : (rest.map toReseq).filter (fun y => y.1 ≠ x.seq) = rest.map toReseq := by
    refine List.filter_eq_self.mpr fun y hy => ?_
    obtain ⟨z, hz, rfl⟩ := List.mem_map.mp hy
    exact decide_eq_true (habove z.seq (List.mem_map_of_mem hz)).ne'
  unfold OrderedMap.remove
  dsimp only
  rw [hbuf, List.map_cons, List.filter_cons_of_neg (by simp [toReseq]), hkeep]

/-- **The two release loops run in lockstep.** -/
theorem Agree.release (profile : Profile) {fuel : Nat} (h : Agree { b with heap := heap } r)
    (hsorted : (heapSeqs heap).Pairwise (· < ·))
    (hge : ∀ s ∈ heapSeqs heap, b.expectedSeq ≤ s) (hmax : ∀ s ∈ heapSeqs heap, s < u32Max)
    (hfuel : heap.length ≤ fuel) (hrun : releaseLoop callback heap b st = some (b', st')) :
    ∃ r', Resequencer.flushLoop profile fuel r = some r' ∧ Agree b' r' ∧
      r'.adaptiveTimeout = r.adaptiveTimeout := by
  have hbuf : r.buffer.entries = heap.map toReseq := h.buffered
  have hnext : r.nextSeq = b.expectedSeq := h.nextSeq
  induction heap generalizing b r st fuel with
  | nil =>
      have hnone : r.buffer.get? r.nextSeq = none :=
        OrderedMap.get?_eq_none_iff.mpr (by simp [hbuf])
      obtain ⟨rfl, rfl⟩ := Prod.mk.inj (Option.some.inj hrun)
      refine ⟨r, ?_, h, rfl⟩
      cases fuel with
      | zero => rfl
      | succ fuel => rw [Resequencer.flushLoop, hnone]
  | cons x rest ih =>
      obtain ⟨fuel, rfl⟩ : ∃ k, fuel = k + 1 := Nat.exists_eq_succ_of_ne_zero (by
        intro hzero
        rw [hzero] at hfuel
        exact absurd hfuel (Nat.not_succ_le_zero _))
      rw [Resequencer.flushLoop]
      by_cases hseq : x.seq = b.expectedSeq
      · -- both hand over the head
        have hget : r.buffer.get? r.nextSeq = some (toReseq x).2 := by
          rw [OrderedMap.get?_eq_some_iff, hnext, ← hseq, hbuf]
          exact List.mem_cons_self
        have hlt : r.nextSeq < u32Max := by
          rw [hnext, ← hseq]
          exact hmax x.seq List.mem_cons_self
        rw [hget]
        dsimp only
        rw [Resequencer.addOneU32_of_lt hlt, Option.bind_some]
        rw [releaseLoop, if_pos hseq] at hrun
        split_ifs at hrun with hseen
        have habove := (List.pairwise_cons.mp hsorted).1
        have hremove : (r.buffer.remove r.nextSeq).entries = rest.map toReseq := by
          rw [hnext, ← hseq]
          exact remove_toReseq hbuf hsorted
        refine ih ?_ (List.pairwise_cons.mp hsorted).2 ?_
          (fun s hs => hmax s (List.mem_cons_of_mem _ hs)) (Nat.le_of_succ_le_succ hfuel) hrun
          hremove (congrArg (· + 1) hnext)
        · constructor
          case nextSeq => exact congrArg (· + 1) hnext
          case buffered => exact hremove
          case delivered =>
            have hdel : r.delivered = b.delivered := h.delivered
            dsimp only
            rw [hdel, hnext, hseq]
            rfl
        · intro s hs
          have hxs := habove s hs
          dsimp only
          omega
      · -- both stop: the head lies above the number expected next
        have hlt : b.expectedSeq < x.seq :=
          lt_of_le_of_ne (hge x.seq List.mem_cons_self) (Ne.symm hseq)
        have hnone : r.buffer.get? r.nextSeq = none := by
          refine OrderedMap.get?_eq_none_iff.mpr fun y hy => ?_
          rw [hbuf] at hy
          obtain ⟨z, hz, rfl⟩ := List.mem_map.mp hy
          rcases List.mem_cons.mp hz with rfl | hz
          · exact hnext ▸ hlt.ne'
          · have hxz := (List.pairwise_cons.mp hsorted).1 z.seq (List.mem_map_of_mem hz)
            exact hnext ▸ (hlt.trans hxz).ne'
        rw [releaseLoop, if_neg hseq] at hrun
        obtain ⟨rfl, rfl⟩ := Prod.mk.inj (Option.some.inj hrun)
        rw [hnone]
        exact ⟨r, rfl, h, rfl⟩

/-! ## The simulation -/

/-- The simulation relation. -/
structure Simulates (T : Nat) (b : ResequencingBuffer (List UInt8)) (r : Resequencer) : Prop
    extends Agree b r where
  settled : b.Settled
  flushTimeout : b.flushTimeout = T
  adaptiveTimeout : r.adaptiveTimeout = T
  belowMax : ∀ s ∈ heapSeqs b.heap, s < u32Max
  arrived : ∀ x ∈ b.heap, 0 ≤ x.arrivalTime
  /-- While a packet waits, a flush task runs. -/
  watched : b.heap ≠ [] → b.flushTask ≠ none
  live : ∀ task, b.flushTask = some task → task ∈ b.liveTasks

theorem init_simulates (T maxBufferSize : Nat) :
    Simulates T (init T) (started T maxBufferSize) := by
  constructor
  case toAgree => exact ⟨rfl, rfl, rfl⟩
  case settled => exact ResequencingBuffer.init_settled _
  case flushTimeout => rfl
  case adaptiveTimeout => rfl
  case belowMax => simp [init, heapSeqs]
  case arrived => simp [init]
  case watched => exact fun h => absurd rfl h
  case live => exact fun task h => by cases h

theorem watched_manageFlushTask (b : ResequencingBuffer (List UInt8))
    (hlive : ∀ task, b.flushTask = some task → task ∈ b.liveTasks) :
    b.manageFlushTask.flushTimeout = b.flushTimeout ∧
      (b.manageFlushTask.heap ≠ [] → b.manageFlushTask.flushTask ≠ none) ∧
      ∀ task, b.manageFlushTask.flushTask = some task → task ∈ b.manageFlushTask.liveTasks := by
  unfold ResequencingBuffer.manageFlushTask
  split_ifs with h
  · refine ⟨rfl, fun _ => Option.some_ne_none _, fun task htask => ?_⟩
    obtain rfl := Option.some.inj htask
    exact List.mem_append_right _ List.mem_cons_self
  · refine ⟨rfl, fun hheap hnone => h ⟨?_, hnone⟩, hlive⟩
    rw [List.isEmpty_iff]
    exact hheap

section Steps

variable (callback : Callback (List UInt8) σ) (profile : Profile) (st : σ)

/-- A put that neither side has seen before. -/
theorem Simulates.put (h : Simulates T b r) {seq : Nat} (payload : List UInt8) (now : Nat)
    (hnew : seq ∉ heapSeqs b.heap) (hmax : seq < u32Max)
    (hroom : r.buffer.len < r.maxBufferSize) :
    ∃ b' st' r', b.put callback st seq payload now = some (b', st') ∧
      r.put profile seq payload now = some r' ∧ Simulates T b' r' ∧
      ∀ s ∈ heapSeqs b'.heap, s = seq ∨ s ∈ heapSeqs b.heap := by
  have hunseen : seq ∉ b.seenSeqs := by
    rw [h.settled.seen, List.mem_toFinset]
    exact hnew
  unfold ResequencingBuffer.put Resequencer.put
  by_cases hlate : seq < r.nextSeq
  · have hdropped : b.drops seq := Or.inr (h.nextSeq ▸ hlate)
    rw [if_pos hdropped, if_pos hlate]
    exact ⟨b, st, r, rfl, rfl, h, fun s hs => Or.inr hs⟩
  · have hkept : ¬ b.drops seq := not_or.mpr ⟨hunseen, h.nextSeq ▸ hlate⟩
    rw [if_neg hkept, if_neg hlate, if_neg (not_le.mpr hroom), Option.bind_some]
    have hcons := h.settled.stored payload (now : Int) hkept
    obtain ⟨run, b₁, st₁, hrun, hr, hb₁⟩ := hcons.release callback st
    have hinsert : Agree (b.stored seq payload now)
        { r with buffer := r.buffer.insert seq ⟨payload, now⟩ } := by
      constructor
      case nextSeq => exact h.nextSeq
      case buffered =>
        show insertEntry seq _ r.buffer.entries = _
        rw [h.buffered]
        exact insertEntry_toReseq (x := ⟨seq, payload, now⟩) hnew
      case delivered => exact h.delivered
    have hbelow : ∀ s ∈ heapSeqs (b.stored seq payload now).heap, s < u32Max := by
      intro s hs
      rcases ResequencingBuffer.mem_heapSeqs_heappush.mp hs with rfl | hs
      · exact hmax
      · exact h.belowMax s hs
    obtain ⟨r', hflush, hagree, htimeout⟩ := Agree.release profile hinsert
      hcons.sorted hcons.atLeast hbelow hinsert.len.ge hrun
    have hleft : ∀ y ∈ b₁.heap, y = ⟨seq, payload, now⟩ ∨ y ∈ b.heap := by
      intro y hy
      have hy' : y ∈ (b.stored seq payload now).heap := by
        rw [hr.heap]
        exact List.mem_append_right _ hy
      exact (List.mem_orderedInsert _).mp hy'
    obtain ⟨hseq, hheap, hdel, -⟩ := ResequencingBuffer.manageFlushTask_frame b₁
    obtain ⟨htimeoutP, hwatched, hlive⟩ := watched_manageFlushTask b₁ (by
      rw [hr.flushTask, hr.liveTasks]
      exact h.live)
    unfold ResequencingBuffer.stored at hrun
    refine ⟨b₁.manageFlushTask, st₁, r', by rw [hrun]; rfl, hflush, ?_, ?_⟩
    · constructor
      case toAgree =>
        exact ⟨hseq ▸ hagree.nextSeq, hheap ▸ hagree.buffered, hdel ▸ hagree.delivered⟩
      case settled => exact hb₁.manageFlushTask
      case flushTimeout => exact (htimeoutP.trans hr.flushTimeout).trans h.flushTimeout
      case adaptiveTimeout => exact htimeout.trans h.adaptiveTimeout
      case belowMax =>
        intro s hs
        rw [hheap] at hs
        obtain ⟨y, hy, rfl⟩ := ResequencingBuffer.mem_heapSeqs.mp hs
        rcases hleft y hy with rfl | hy
        · exact hmax
        · exact h.belowMax _ (ResequencingBuffer.mem_heapSeqs.mpr ⟨y, hy, rfl⟩)
      case arrived =>
        intro y hy
        rw [hheap] at hy
        rcases hleft y hy with rfl | hy
        · exact Int.natCast_nonneg now
        · exact h.arrived y hy
      case watched => exact hwatched
      case live => exact hlive
    · intro s hs
      rw [hheap] at hs
      obtain ⟨y, hy, rfl⟩ := ResequencingBuffer.mem_heapSeqs.mp hs
      exact (hleft y hy).imp (congrArg Entry.seq)
        fun hy => ResequencingBuffer.mem_heapSeqs.mpr ⟨y, hy, rfl⟩

/-- Both sides skip to the oldest buffered packet and release from there. -/
theorem Simulates.skip (h : Simulates T b r) {oldest : Entry (List UInt8)}
    {rest : List (Entry (List UInt8))} (hheap : b.heap = oldest :: rest) :
    ∃ b' st' r', ResequencingBuffer.releaseContiguousPacketsUnlocked callback
        { b with expectedSeq := oldest.seq } st = some (b', st') ∧
      Resequencer.flushConsecutive profile { r with nextSeq := oldest.seq } = some r' ∧
      Simulates T b' r' ∧ ∀ s ∈ heapSeqs b'.heap, s ∈ heapSeqs b.heap := by
  have hcons := h.settled.skip hheap
  obtain ⟨run, b₁, st₁, hrun, hr, hb₁⟩ := hcons.release callback st
  have hskip : Agree { b with expectedSeq := oldest.seq } { r with nextSeq := oldest.seq } :=
    ⟨rfl, h.buffered, h.delivered⟩
  obtain ⟨r', hflush, hagree, htimeout⟩ := Agree.release profile hskip
    hcons.sorted hcons.atLeast h.belowMax hskip.len.ge hrun
  have hleft : ∀ y ∈ b₁.heap, y ∈ b.heap := by
    intro y hy
    have hheap' : b.heap = run ++ b₁.heap := hr.heap
    rw [hheap']
    exact List.mem_append_right _ hy
  have hseqs : ∀ s ∈ heapSeqs b₁.heap, s ∈ heapSeqs b.heap := by
    intro s hs
    obtain ⟨y, hy, rfl⟩ := ResequencingBuffer.mem_heapSeqs.mp hs
    exact ResequencingBuffer.mem_heapSeqs.mpr ⟨y, hleft y hy, rfl⟩
  refine ⟨b₁, st₁, r', hrun, hflush, ?_, hseqs⟩
  constructor
  case toAgree => exact hagree
  case settled => exact hb₁
  case flushTimeout => exact hr.flushTimeout.trans h.flushTimeout
  case adaptiveTimeout => exact htimeout.trans h.adaptiveTimeout
  case belowMax => exact fun s hs => h.belowMax s (hseqs s hs)
  case arrived => exact fun y hy => h.arrived y (hleft y hy)
  case watched =>
    rw [hr.flushTask]
    intro _
    exact h.watched (by rw [hheap]; exact List.cons_ne_nil _ _)
  case live =>
    rw [hr.flushTask, hr.liveTasks]
    exact h.live

/-- The flush task ends over an empty heap. -/
theorem Simulates.taskEnds (h : Simulates T b r) (hheap : b.heap = []) (liveTasks : List Nat) :
    Simulates T { b with flushTask := none, liveTasks := liveTasks } r :=
  { h with
    settled := ⟨⟨h.settled.sorted, h.settled.atLeast, h.settled.seen, h.settled.inOrder,
      h.settled.below, h.settled.perm⟩, h.settled.above⟩
    watched := fun hne => absurd hheap hne
    live := fun _ htask => absurd htask.symm (Option.some_ne_none _) }

/-- A check of the timeout, by `>=` on one side and by `>` on the other. -/
theorem Simulates.check (h : Simulates T b r) {now : Nat}
    (htime : ∀ x ∈ r.buffer.entries, now ≠ x.2.timestamp + r.adaptiveTimeout) :
    ∃ b' st' r', TimedEvent.python callback (b, st) (.check now) = some (b', st') ∧
      r.tick profile now = some r' ∧ Simulates T b' r' ∧
      ∀ s ∈ heapSeqs b'.heap, s ∈ heapSeqs b.heap := by
  have hfirst := h.first?
  unfold TimedEvent.python Resequencer.tick
  dsimp only
  rcases hheap : b.heap with _ | ⟨oldest, rest⟩
  · rw [hheap] at hfirst
    rw [hfirst]
    cases htask : b.flushTask with
    | none => exact ⟨b, st, r, rfl, rfl, h, fun s hs => hheap ▸ hs⟩
    | some task =>
        have hlive := h.live task htask
        dsimp only
        unfold ResequencingBuffer.step
        dsimp only
        rw [if_pos hlive, ResequencingBuffer.flushCheck_of_nil hheap]
        exact ⟨_, st, r, rfl, rfl, h.taskEnds hheap _, fun s hs => hheap ▸ hs⟩
  · rw [hheap] at hfirst
    have hin : oldest ∈ b.heap := by
      rw [hheap]
      exact List.mem_cons_self
    obtain ⟨task, htask⟩ := Option.ne_none_iff_exists'.mp
      (h.watched (by rw [hheap]; exact List.cons_ne_nil _ _))
    have hlive := h.live task htask
    have hlt : b.expectedSeq < oldest.seq :=
      h.settled.above _ (ResequencingBuffer.mem_heapSeqs.mpr ⟨oldest, hin, rfl⟩)
    -- the two comparisons differ only where no check comes
    have hexpired : b.flushTimeout ≤ (now : Int) - oldest.arrivalTime
        ↔ r.adaptiveTimeout < now - oldest.arrivalTime.toNat := by
      have hne : now ≠ oldest.arrivalTime.toNat + r.adaptiveTimeout :=
        htime (toReseq oldest) (by rw [h.buffered]; exact List.mem_map_of_mem hin)
      have harrived := h.arrived oldest hin
      rw [h.flushTimeout]
      rw [h.adaptiveTimeout] at hne ⊢
      omega
    rw [hfirst, htask]
    unfold ResequencingBuffer.step
    dsimp only [List.head?_cons, Option.map_some, toReseq]
    rw [if_pos hlive, ResequencingBuffer.flushCheck_of_cons hheap, if_pos hlt]
    by_cases hwaited : b.flushTimeout ≤ (now : Int) - oldest.arrivalTime
    · rw [if_pos hwaited, if_pos (hexpired.mp hwaited)]
      exact hheap ▸ h.skip callback profile st hheap
    · rw [if_neg hwaited, if_neg fun hR => hwaited (hexpired.mpr hR)]
      exact ⟨b, st, r, rfl, rfl, h, fun s hs => hheap ▸ hs⟩

/-- **The step lemma.** -/
theorem Simulates.step (h : Simulates T b r) (hnew : ∀ s, e.seq? = some s → s ∉ heapSeqs b.heap)
    (hmax : ∀ s, e.seq? = some s → s < u32Max) (hroomy : TimedEvent.Roomy r e) :
    ∃ b' st' r', TimedEvent.python callback (b, st) e = some (b', st') ∧
      TimedEvent.rust profile r e = some r' ∧ Simulates T b' r' ∧
      ∀ s ∈ heapSeqs b'.heap, e.seq? = some s ∨ s ∈ heapSeqs b.heap := by
  cases e with
  | put seq payload now =>
      obtain ⟨b', st', r', hp, hr, hsim, hseqs⟩ :=
        h.put callback profile st payload now (hnew seq rfl) (hmax seq rfl) hroomy
      exact ⟨b', st', r', hp, hr, hsim,
        fun s hs => (hseqs s hs).imp_left fun heq => congrArg some heq.symm⟩
  | check now =>
      obtain ⟨b', st', r', hp, hr, hsim, hseqs⟩ :=
        h.check callback profile st hroomy
      exact ⟨b', st', r', hp, hr, hsim, fun s hs => Or.inr (hseqs s hs)⟩

/-- **The run lemma.** The numbers still to come are not buffered. -/
theorem Simulates.run {es : List TimedEvent} (h : Simulates T b r)
    (hnodup : (es.filterMap TimedEvent.seq?).Nodup)
    (hmax : ∀ s ∈ es.filterMap TimedEvent.seq?, s < u32Max)
    (hnew : ∀ s ∈ es.filterMap TimedEvent.seq?, s ∉ heapSeqs b.heap)
    (hroomy : Along (TimedEvent.rust profile) TimedEvent.Roomy r es) :
    ∃ b' st' r', runFrom (TimedEvent.python callback) (b, st) es = some (b', st') ∧
      runFrom (TimedEvent.rust profile) r es = some r' ∧ Simulates T b' r' := by
  induction es generalizing b st r with
  | nil => exact ⟨b, st, r, rfl, rfl, h⟩
  | cons e es ih =>
      have hcons : ∀ s, e.seq? = some s ∨ s ∈ es.filterMap TimedEvent.seq?
          → s ∈ (e :: es).filterMap TimedEvent.seq? := by
        rintro s (hs | hs)
        · rw [List.filterMap_cons_some hs]
          exact List.mem_cons_self
        · obtain ⟨e', he', hs'⟩ := List.mem_filterMap.mp hs
          exact List.mem_filterMap.mpr ⟨e', List.mem_cons_of_mem _ he', hs'⟩
      obtain ⟨b₁, st₁, r₁, hp, hr, hsim, hseqs⟩ := h.step callback profile st (e := e)
        (fun s hs => hnew s (hcons s (Or.inl hs))) (fun s hs => hmax s (hcons s (Or.inl hs)))
        hroomy.1
      have hsplit : (es.filterMap TimedEvent.seq?).Nodup ∧
          ∀ s, e.seq? = some s → s ∉ es.filterMap TimedEvent.seq? := by
        cases hs : e.seq? with
        | none =>
            rw [List.filterMap_cons_none hs] at hnodup
            exact ⟨hnodup, fun s hs => by cases hs⟩
        | some s =>
            rw [List.filterMap_cons_some hs] at hnodup
            obtain ⟨hnotin, hnodup'⟩ := List.nodup_cons.mp hnodup
            exact ⟨hnodup', fun s' hs' => Option.some.inj hs' ▸ hnotin⟩
      obtain ⟨b', st', r', hp', hr', hsim'⟩ := ih st₁ hsim hsplit.1
        (fun s hs => hmax s (hcons s (Or.inr hs)))
        (fun s hs hin => (hseqs s hin).elim (fun heq => hsplit.2 s heq hs)
          (hnew s (hcons s (Or.inr hs))))
        (hroomy.2 r₁ hr)
      exact ⟨b', st', r', runFrom_cons_eq_some.mpr ⟨_, hp, hp'⟩,
        runFrom_cons_eq_some.mpr ⟨_, hr, hr'⟩, hsim'⟩

end Steps

/-- **The Rust resequencer refines the Python one.** Started at the number 0 with the same
timeout, on a common timed run that puts no number twice and only numbers below `u32::MAX`,
that never fills the Rust buffer and never checks exactly when a buffered packet has waited
for the timeout: after every event both have returned, expect the same number, hold the same
packets and have delivered the same payloads in the same order. -/
theorem run_refines (profile : Profile) (callback : Callback (List UInt8) σ)
    (T maxBufferSize : Nat) (st : σ) (es : List TimedEvent)
    (hnodup : (es.filterMap TimedEvent.seq?).Nodup)
    (hmax : ∀ s ∈ es.filterMap TimedEvent.seq?, s < u32Max)
    (hroomy : Along (TimedEvent.rust profile) TimedEvent.Roomy (started T maxBufferSize) es) :
    ∀ pre, pre <+: es →
      ∃ b st' r, runFrom (TimedEvent.python callback) (init T, st) pre = some (b, st') ∧
        runFrom (TimedEvent.rust profile) (started T maxBufferSize) pre = some r ∧
        Agree b r := by
  rintro pre ⟨post, rfl⟩
  rw [List.filterMap_append] at hnodup hmax
  obtain ⟨b, st', r, hp, hr, hsim⟩ := (init_simulates T maxBufferSize).run
    callback profile st (List.nodup_append.mp hnodup).1
    (fun s hs => hmax s (List.mem_append_left _ hs)) (fun s _ => List.not_mem_nil)
    (along_append.mp hroomy).1
  exact ⟨b, st', r, hp, hr, hsim.toAgree⟩

/-- A late packet, a gap that times out and a packet after its skip. -/
theorem run_refines_skip :
    ∃ b st' r, runFrom (TimedEvent.python fun _ n => (.error "full", n + 1)) (init 40, 0)
        [.put 1 [98] 0, .check 39, .put 3 [100] 10, .check 41, .put 0 [97] 42, .put 2 [99] 43]
      = some (b, st') ∧
      runFrom (TimedEvent.rust .debug) (started 40 4)
        [.put 1 [98] 0, .check 39, .put 3 [100] 10, .check 41, .put 0 [97] 42, .put 2 [99] 43]
      = some r ∧ Agree b r :=
  run_refines .debug _ 40 4 0 _ (by decide) (by decide) (by decide) _ List.prefix_rfl

end AetherBond.Interop
