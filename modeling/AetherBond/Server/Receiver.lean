import AetherBond.Lib.Run

set_option autoImplicit false

/-! # The Python resequencing buffer

`ResequencingBuffer` of `aetherbond/server/receiver.py`, used by the server for the packets of
the client and by the client for those of the server. It is generic in the payload `P` and in
the state `σ` its callback works on.

The heap of `heapq` is kept as a list sorted by sequence number: the code only pushes, pops the
smallest entry and looks at it. Clock readings and the timeout are in nanoseconds; the clock
may go back. Both critical sections (`put` and one turn of the flush loop) run without giving
up control, so each is one step; the states between steps are those in which the lock is free.

Two history variables that no code reads are there for stating properties: `accepted`, the puts
that passed the duplicate check, and `delivered`, the calls of the callback.
-/

namespace AetherBond.Server

open AetherBond.Lib

/-! ## The source -/

/-- An entry of the heap. -/
structure Entry (P : Type*) where
  seq : Nat
  payload : P
  arrivalTime : Int

/-- The number and the payload of an entry. -/
def Entry.packet {P : Type*} (e : Entry P) : Nat × P := (e.seq, e.payload)

structure ResequencingBuffer (P : Type*) where
  flushTimeout : Int
  expectedSeq : Nat
  heap : List (Entry P)
  seenSeqs : Finset Nat
  /-- The task the buffer refers to as its flush task. -/
  flushTask : Option Nat
  /-- The flush tasks that have not ended, and the id of the next task. -/
  liveTasks : List Nat
  nextTask : Nat
  /-- History: the accepted puts, oldest first. -/
  accepted : List (Nat × P)
  /-- History: the calls of the callback, oldest first. -/
  delivered : List (Nat × P)

/-- A callback on the state `σ`; it may raise an exception. -/
abbrev Callback (P σ : Type*) := P → σ → Except String Unit × σ

variable {P σ : Type*}

namespace ResequencingBuffer

/-- `__init__`; the timeout is 40 ms unless the caller says otherwise. -/
def init (flushTimeout : Int := 40000000) : ResequencingBuffer P where
  flushTimeout := flushTimeout
  expectedSeq := 0
  heap := []
  seenSeqs := ∅
  flushTask := none
  liveTasks := []
  nextTask := 0
  accepted := []
  delivered := []

/-- `heapq.heappush` on entries with distinct sequence numbers. -/
def heappush (heap : List (Entry P)) (e : Entry P) : List (Entry P) :=
  heap.orderedInsert (fun a b => a.seq ≤ b.seq) e

/-- The loop of `_release_contiguous_packets_unlocked`, over the entries still in the heap.
`none` is the `KeyError` of `seen_seqs.remove`. An exception of the callback is only logged. -/
def releaseLoop (callback : Callback P σ) :
    List (Entry P) → ResequencingBuffer P → σ → Option (ResequencingBuffer P × σ)
  | [], b, st => some ({ b with heap := [] }, st)
  | e :: rest, b, st =>
      if e.seq = b.expectedSeq then
        if e.seq ∈ b.seenSeqs then
          releaseLoop callback rest
            { b with
              seenSeqs := b.seenSeqs.erase e.seq
              delivered := b.delivered ++ [(e.seq, e.payload)]
              expectedSeq := b.expectedSeq + 1 }
            (callback e.payload st).2
        else none
      else some ({ b with heap := e :: rest }, st)

def releaseContiguousPacketsUnlocked (callback : Callback P σ) (b : ResequencingBuffer P)
    (st : σ) : Option (ResequencingBuffer P × σ) :=
  releaseLoop callback b.heap b st

/-- The end of `put`: start a flush task if packets wait and none is referred to. -/
def manageFlushTask (b : ResequencingBuffer P) : ResequencingBuffer P :=
  if ¬ b.heap.isEmpty ∧ b.flushTask = none then
    { b with
      flushTask := some b.nextTask
      liveTasks := b.liveTasks ++ [b.nextTask]
      nextTask := b.nextTask + 1 }
  else b

/-- The duplicate check of `put`. -/
def drops (b : ResequencingBuffer P) (seq : Nat) : Prop :=
  seq ∈ b.seenSeqs ∨ seq < b.expectedSeq

instance (b : ResequencingBuffer P) (seq : Nat) : Decidable (b.drops seq) :=
  inferInstanceAs (Decidable (_ ∨ _))

def put (callback : Callback P σ) (b : ResequencingBuffer P) (st : σ) (seq : Nat) (payload : P)
    (now : Int) : Option (ResequencingBuffer P × σ) :=
  if b.drops seq then some (b, st)
  else
    (releaseContiguousPacketsUnlocked callback
      { b with
        heap := heappush b.heap ⟨seq, payload, now⟩
        seenSeqs := insert seq b.seenSeqs
        accepted := b.accepted ++ [(seq, payload)] } st).map
      fun r => (r.1.manageFlushTask, r.2)

/-- One turn of the loop of `_wait_and_flush_missing`, run by the flush task `task`. -/
def flushCheck (callback : Callback P σ) (b : ResequencingBuffer P) (st : σ) (task : Nat)
    (now : Int) : Option (ResequencingBuffer P × σ) :=
  match b.heap with
  | [] => some ({ b with flushTask := none, liveTasks := b.liveTasks.erase task }, st)
  | oldest :: _ =>
      if b.expectedSeq < oldest.seq then
        if b.flushTimeout ≤ now - oldest.arrivalTime then
          -- skip the missing numbers
          releaseContiguousPacketsUnlocked callback { b with expectedSeq := oldest.seq } st
        else some (b, st)
      else releaseContiguousPacketsUnlocked callback b st

theorem flushCheck_of_nil {callback : Callback P σ} {b : ResequencingBuffer P} {st : σ}
    {task : Nat} {now : Int} (h : b.heap = []) :
    b.flushCheck callback st task now
      = some ({ b with flushTask := none, liveTasks := b.liveTasks.erase task }, st) := by
  unfold flushCheck
  split
  · rfl
  · next heq => simp [h] at heq

theorem flushCheck_of_cons {callback : Callback P σ} {b : ResequencingBuffer P} {st : σ}
    {task : Nat} {now : Int} {oldest : Entry P} {rest : List (Entry P)}
    (h : b.heap = oldest :: rest) :
    b.flushCheck callback st task now =
      if b.expectedSeq < oldest.seq then
        if b.flushTimeout ≤ now - oldest.arrivalTime then
          releaseContiguousPacketsUnlocked callback { b with expectedSeq := oldest.seq } st
        else some (b, st)
      else releaseContiguousPacketsUnlocked callback b st := by
  unfold flushCheck
  split
  · next heq => simp [h] at heq
  · next heq =>
      obtain ⟨rfl, -⟩ := List.cons.inj (heq.symm.trans h)
      rfl

/-- What can happen to a buffer. -/
inductive Event (P : Type*)
  | put (seq : Nat) (payload : P) (now : Int)
  | flushCheck (task : Nat) (now : Int)

/-- A flush turn needs a flush task that has not ended. -/
def Event.Enabled (b : ResequencingBuffer P) : Event P → Prop
  | .put _ _ _ => True
  | .flushCheck task _ => task ∈ b.liveTasks

def step (callback : Callback P σ) (s : ResequencingBuffer P × σ) :
    Event P → Option (ResequencingBuffer P × σ)
  | .put seq payload now => s.1.put callback s.2 seq payload now
  | .flushCheck task now =>
      if task ∈ s.1.liveTasks then s.1.flushCheck callback s.2 task now else none

/-! ## What a release does -/

/-- The state of the callback after it was called on the payloads of `run`. -/
def runCallback (callback : Callback P σ) (run : List (Entry P)) (st : σ) : σ :=
  run.foldl (fun st e => (callback e.payload st).2) st

/-- Everything `_release_contiguous_packets_unlocked` does: the entries `run` at the front of
the heap, numbered consecutively from `expected_seq`, leave the heap and go to the callback,
and the heap that remains does not start with the number expected next. -/
structure Released (callback : Callback P σ) (run : List (Entry P))
    (b : ResequencingBuffer P) (st : σ) (b' : ResequencingBuffer P) (st' : σ) : Prop where
  heap : b.heap = run ++ b'.heap
  seqs : run.map Entry.seq = List.range' b.expectedSeq run.length
  expectedSeq : b'.expectedSeq = b.expectedSeq + run.length
  stop : ∀ e, b'.heap.head? = some e → e.seq ≠ b'.expectedSeq
  seenSeqs : b'.seenSeqs = b.seenSeqs \ (run.map Entry.seq).toFinset
  delivered : b'.delivered = b.delivered ++ run.map Entry.packet
  callback : st' = runCallback callback run st
  accepted : b'.accepted = b.accepted
  flushTimeout : b'.flushTimeout = b.flushTimeout
  flushTask : b'.flushTask = b.flushTask
  liveTasks : b'.liveTasks = b.liveTasks
  nextTask : b'.nextTask = b.nextTask

/-- The sequence numbers of a heap. -/
def heapSeqs (heap : List (Entry P)) : List Nat := heap.map Entry.seq

theorem releaseLoop_released (callback : Callback P σ) (heap : List (Entry P))
    (b : ResequencingBuffer P) (st : σ) (hnd : (heapSeqs heap).Nodup)
    (hseen : ∀ s ∈ heapSeqs heap, s ∈ b.seenSeqs) :
    ∃ run b' st', releaseLoop callback heap b st = some (b', st') ∧
      Released callback run { b with heap := heap } st b' st' := by
  induction heap generalizing b st with
  | nil => exact ⟨[], _, st, rfl, by constructor <;> simp [runCallback]⟩
  | cons e rest ih =>
      rw [releaseLoop]
      by_cases hnext : e.seq = b.expectedSeq
      · have hmem : e.seq ∈ b.seenSeqs := hseen e.seq (by simp [heapSeqs])
        obtain ⟨hnotin, hndrest⟩ := List.nodup_cons.mp hnd
        rw [if_pos hnext, if_pos hmem]
        obtain ⟨run, b', st', hrun, hr⟩ := ih
          { b with
            seenSeqs := b.seenSeqs.erase e.seq
            delivered := b.delivered ++ [(e.seq, e.payload)]
            expectedSeq := b.expectedSeq + 1 }
          (callback e.payload st).2 hndrest
          (fun s hs => Finset.mem_erase.mpr
            ⟨fun heq => hnotin (heq ▸ hs), hseen s (List.mem_cons_of_mem _ hs)⟩)
        refine ⟨e :: run, b', st', hrun, ?_⟩
        constructor
        case heap => simpa using hr.heap
        case seqs => simp [hr.seqs, hnext, List.range'_succ]
        case expectedSeq => rw [hr.expectedSeq, List.length_cons]; dsimp only; omega
        case stop => exact hr.stop
        case seenSeqs =>
          rw [hr.seenSeqs]
          ext s
          simp only [Finset.mem_sdiff, Finset.mem_erase, List.map_cons, List.toFinset_cons,
            Finset.mem_insert]
          tauto
        case delivered => simp [hr.delivered, Entry.packet]
        case callback => simpa [runCallback] using hr.callback
        case accepted => exact hr.accepted
        case flushTimeout => exact hr.flushTimeout
        case flushTask => exact hr.flushTask
        case liveTasks => exact hr.liveTasks
        case nextTask => exact hr.nextTask
      · rw [if_neg hnext]
        exact ⟨[], _, st, rfl, by constructor <;> simp [runCallback, hnext]⟩

/-- **The release loop never fails** on a heap of distinct numbers that are all recorded in
`seen_seqs`, and does what `Released` says. -/
theorem release_released (callback : Callback P σ) (b : ResequencingBuffer P) (st : σ)
    (hnd : (heapSeqs b.heap).Nodup) (hseen : ∀ s ∈ heapSeqs b.heap, s ∈ b.seenSeqs) :
    ∃ run b' st', releaseContiguousPacketsUnlocked callback b st = some (b', st') ∧
      Released callback run b st b' st' :=
  releaseLoop_released callback b.heap b st hnd hseen

end ResequencingBuffer

end AetherBond.Server
