import AetherBond.Lib.Overwrite
import AetherBond.Lib.Run

set_option autoImplicit false

/-! # The chunk downloader

`Chunk` and `DownloadSession` of `aetherbond/client/downloader.py`: `initialize` cuts the file
into chunks, and `start` runs up to eight workers over a queue of them. A worker is stopped at
one of the `await`s of `_download_chunk`, or at the head of its loop, where it takes the next
chunk; that it may be stopped there too allows more orders than the event loop does.

Which interface the scheduler picks, what the server answers and where an exception is raised
are the event's. The semaphore has twelve permits for eight workers, so nobody ever waits for
it; `get` is called on a queue that is not empty, and `put` on an unbounded one, so neither
suspends. `is_started` is true throughout. A file object is closed at the end of the attempt
that opened it, so its buffer only delays a write within the attempt, and writes are carried
out at once here. Times, logs and the progress loop are left out.

`writes` is history that no code reads: for each write of data from a server the chunk, the
position and the bytes.
-/

namespace AetherBond.Client

open AetherBond.Lib

/-! ## Chunks -/

inductive ChunkStatus
  | pending
  | downloading
  | completed
  | failed
  deriving DecidableEq

/-- `Chunk`, from `start` to `stop` (its `end`) inclusive. -/
structure Chunk where
  index : Nat
  start : Int
  stop : Int
  bytesDownloaded : Nat
  status : ChunkStatus
  deriving DecidableEq

/-- `Chunk.__init__`. -/
def Chunk.new (index : Nat) (start stop : Int) : Chunk := ⟨index, start, stop, 0, .pending⟩

def Chunk.size (c : Chunk) : Int := c.stop - c.start + 1

/-- `chunk.start + chunk.bytes_downloaded`. -/
def Chunk.next (c : Chunk) : Int := c.start + c.bytesDownloaded

/-! ## State -/

/-- Where an attempt at a chunk is. -/
inductive Attempt
  /-- In `simulate_delay`. -/
  | delaying
  /-- In `throttle_stream`, after `downloaded` bytes. -/
  | throttling (downloaded : Nat)
  /-- Before the simulated write. -/
  | writing
  /-- In `session.get`, for the bytes from `first` on. -/
  | requesting (first : Int)
  /-- In `iter_chunked`: the status, the first byte asked for, the position in the file and
  what of the body is to come. -/
  | streaming (status : Nat) (first : Int) (pos : Nat) (rest : Bytes)
  /-- In `asyncio.sleep`, after an exception. -/
  | sleeping
  deriving DecidableEq

inductive WorkerPc
  /-- At the head of its loop, or not started yet. -/
  | ready
  /-- In `_download_chunk`, with the chunk's place in `chunks`. -/
  | busy (chunk retries : Nat) (attempt : Attempt)
  /-- Returned, or cancelled. -/
  | left
  deriving DecidableEq

structure DownloadSession where
  chunks : List Chunk
  /-- The queue, of places in `chunks`, and its counter of unfinished tasks. -/
  queue : List Nat
  unfinished : Nat
  /-- `queue.join()` does not wait, or not any longer. -/
  joinWoken : Bool
  workers : List WorkerPc
  totalDownloadedBytes : Nat
  file : Bytes
  isCompleted : Bool
  writes : List (Nat × Nat × Bytes)

/-- What an attempt starts with: `select_interface_wrr` raises, or picks an interface. -/
inductive Choice
  | raises
  | simulated
  | physical
  deriving DecidableEq

namespace DownloadSession

/-- `initialize`: the chunks and the file it makes, once the server has told the size of the file
and whether it accepts ranges; `none` if an exception is raised. -/
def initializeChunks (chunkSize totalSize : Int) (acceptRanges : Bool) :
    Option (List Chunk × Bytes) :=
  if totalSize ≤ 0 then none
  else
    let file := List.replicate totalSize.toNat 0
    if acceptRanges then
      if chunkSize = 0 then none
      else
        let numChunks := (totalSize + chunkSize - 1).fdiv chunkSize
        let chunk (i : Nat) : Chunk :=
          .new i (i * chunkSize) (min (i * chunkSize + chunkSize - 1) (totalSize - 1))
        some ((List.range numChunks.toNat).map chunk, file)
    else some ([.new 0 0 (totalSize - 1)], file)

/-- `start`, up to `queue.join()`. -/
def start (chunks : List Chunk) (file : Bytes) : DownloadSession where
  chunks := chunks
  queue := List.range chunks.length
  unfinished := chunks.length
  joinWoken := chunks.length = 0
  workers := List.replicate (min 8 chunks.length) .ready
  totalDownloadedBytes := 0
  file := file
  isCompleted := false
  writes := []

def setWorker (s : DownloadSession) (w : Nat) (pc : WorkerPc) : DownloadSession :=
  { s with workers := s.workers.set w pc }

def modifyChunk (s : DownloadSession) (i : Nat) (f : Chunk → Chunk) : DownloadSession :=
  { s with chunks := s.chunks.modify i f }

/-! ## An attempt -/

def maxRetries : Nat := 3

/-- The `except` clause. -/
def fail (s : DownloadSession) (w i retries : Nat) : DownloadSession :=
  (s.modifyChunk i fun c => { c with status := .failed }).setWorker w
    (.busy i (retries + 1) .sleeping)

/-- The head of an attempt at chunk `i`, which is `c`. -/
def attempt (s : DownloadSession) (w i retries : Nat) (c : Chunk) (choice : Choice) :
    DownloadSession :=
  match choice with
  | .raises => s.fail w i retries
  | .simulated =>
      (s.modifyChunk i fun c => { c with status := .downloading }).setWorker w
        (.busy i retries .delaying)
  | .physical =>
      (s.modifyChunk i fun c => { c with status := .downloading }).setWorker w
        (.busy i retries (.requesting c.next))

/-- The head of the simulated stream. -/
def simulate (s : DownloadSession) (w i retries : Nat) (c : Chunk) (downloaded : Nat) :
    DownloadSession :=
  if (downloaded : Int) < c.size then s.setWorker w (.busy i retries (.throttling downloaded))
  else s.setWorker w (.busy i retries .writing)

/-- The next 64 KB of the simulated stream have come. -/
def advance (s : DownloadSession) (w i retries : Nat) (c : Chunk) (downloaded : Nat) :
    DownloadSession :=
  let step := min (64 * 1024) (c.size - downloaded).toNat
  let s := s.modifyChunk i fun c => { c with bytesDownloaded := downloaded + step }
  { s with totalDownloadedBytes := s.totalDownloadedBytes + step }.simulate w i retries c
    (downloaded + step)

/-- `queue.task_done()`, after which the worker is at the head of its loop. -/
def taskDone (s : DownloadSession) (w : Nat) : DownloadSession :=
  { s.setWorker w .ready with
    unfinished := s.unfinished - 1
    joinWoken := s.joinWoken || s.unfinished = 1 }

/-- The chunk is downloaded. -/
def complete (s : DownloadSession) (w i : Nat) : DownloadSession :=
  (s.modifyChunk i fun c => { c with status := .completed }).taskDone w

/-- All retries have failed: the chunk goes back to the queue. -/
def requeue (s : DownloadSession) (w i : Nat) : DownloadSession :=
  let s := s.modifyChunk i fun c => { c with status := .pending, bytesDownloaded := 0 }
  -- it is counted again before the old count is taken back
  { s with queue := s.queue ++ [i], unfinished := s.unfinished + 1 }.taskDone w

/-- The bytes of the simulated path. -/
def writeZeros (s : DownloadSession) (c : Chunk) : DownloadSession :=
  { s with file := overwrite s.file c.start.toNat (List.replicate c.size.toNat 0) }

/-- The next `n` bytes of a body are written. -/
def receive (s : DownloadSession) (w i retries status : Nat) (first : Int) (pos : Nat)
    (rest : Bytes) (n : Nat) : DownloadSession :=
  let data := rest.take n
  let s := s.modifyChunk i fun c => { c with bytesDownloaded := c.bytesDownloaded + data.length }
  { s.setWorker w (.busy i retries (.streaming status first (pos + data.length) (rest.drop n))) with
    totalDownloadedBytes := s.totalDownloadedBytes + data.length
    file := overwrite s.file pos data
    writes := s.writes ++ [(i, pos, data)] }

/-! ## Events -/

inductive Event
  /-- A worker at the head of its loop goes on. -/
  | loop (w : Nat) (choice : Choice)
  /-- `simulate_delay` returns. -/
  | delayed (w : Nat)
  /-- `throttle_stream` returns. -/
  | throttled (w : Nat)
  /-- The simulated write is made. -/
  | written (w : Nat)
  /-- The server answers a request, with the body it is about to send. -/
  | responded (w status : Nat) (body : Bytes)
  /-- The next `n` bytes of a body arrive. -/
  | received (w n : Nat)
  /-- A body ends. -/
  | bodyEnds (w : Nat)
  /-- An exception is raised in an attempt. -/
  | raises (w : Nat)
  /-- The pause after an exception is over. -/
  | slept (w : Nat) (choice : Choice)
  /-- `queue.join()` returns, and `start` with it. -/
  | joined
  deriving DecidableEq

/-- The chunk worker `w` is at, where it is in `chunks`, and how far it has come. -/
def current (s : DownloadSession) (w : Nat) : Option (Nat × Nat × Attempt × Chunk) :=
  match s.workers[w]? with
  | some (.busy i retries a) => s.chunks[i]?.map fun c => (i, retries, a, c)
  | _ => none

def step (s : DownloadSession) : Event → Option DownloadSession
  | .loop w choice =>
      match s.workers[w]?, s.queue with
      | some .ready, [] => some (s.setWorker w .left)
      | some .ready, i :: queue =>
          s.chunks[i]?.map fun c => { s with queue := queue }.attempt w i 0 c choice
      | _, _ => none
  | .delayed w =>
      match s.current w with
      | some (i, retries, .delaying, c) => some (s.simulate w i retries c 0)
      | _ => none
  | .throttled w =>
      match s.current w with
      | some (i, retries, .throttling downloaded, c) =>
          some (s.advance w i retries c downloaded)
      | _ => none
  | .written w =>
      match s.current w with
      | some (i, retries, .writing, c) =>
          -- `seek` refuses a negative position
          some (if c.start < 0 then s.fail w i retries else (s.writeZeros c).complete w i)
      | _ => none
  | .responded w status body =>
      match s.current w with
      | some (i, retries, .requesting first, c) =>
          some (if status ≠ 200 ∧ status ≠ 206 ∨ c.next < 0 then s.fail w i retries
            else s.setWorker w (.busy i retries (.streaming status first c.next.toNat body)))
      | _ => none
  | .received w n =>
      match s.current w with
      | some (i, retries, .streaming status first pos rest, _) =>
          if 0 < n ∧ n ≤ 65536 ∧ n ≤ rest.length then
            some (s.receive w i retries status first pos rest n)
          else none
      | _ => none
  | .bodyEnds w =>
      match s.current w with
      | some (i, _, .streaming _ _ _ [], _) => some (s.complete w i)
      | _ => none
  | .raises w =>
      match s.current w with
      | some (_, _, .sleeping, _) => none
      | some (i, retries, _, _) => some (s.fail w i retries)
      | none => none
  | .slept w choice =>
      match s.current w with
      | some (i, retries, .sleeping, c) =>
          some (if retries < maxRetries then s.attempt w i retries c choice else s.requeue w i)
      | _ => none
  | .joined =>
      if s.joinWoken ∧ ¬ s.isCompleted then
        some { s with workers := s.workers.map fun _ => .left, isCompleted := true }
      else none

/-! ## The cases of a step -/

variable {s s' : DownloadSession} {e : Event} {w i retries : Nat} {a : Attempt} {c : Chunk}

/-- The worker and its chunk. -/
theorem current_eq_some (h : s.current w = some (i, retries, a, c)) :
    s.workers[w]? = some (.busy i retries a) ∧ s.chunks[i]? = some c := by
  unfold current at h
  split at h
  · next hw =>
      obtain ⟨c', hc, heq⟩ := Option.map_eq_some_iff.mp h
      cases heq
      exact ⟨hw, hc⟩
  · cases h

/-- What each event does, and where. -/
inductive Move (s : DownloadSession) : Event → DownloadSession → Prop
  /-- The queue is empty. -/
  | leaves {w : Nat} {choice : Choice} (hw : s.workers[w]? = some .ready) (hqueue : s.queue = []) :
      Move s (.loop w choice) (s.setWorker w .left)
  | takes {w i : Nat} {choice : Choice} {rest : List Nat} {c : Chunk}
      (hw : s.workers[w]? = some .ready) (hqueue : s.queue = i :: rest)
      (hc : s.chunks[i]? = some c) :
      Move s (.loop w choice) ({ s with queue := rest }.attempt w i 0 c choice)
  | delayed {w i retries : Nat} {c : Chunk} (hcur : s.current w = some (i, retries, .delaying, c)) :
      Move s (.delayed w) (s.simulate w i retries c 0)
  | throttled {w i retries downloaded : Nat} {c : Chunk}
      (hcur : s.current w = some (i, retries, .throttling downloaded, c)) :
      Move s (.throttled w) (s.advance w i retries c downloaded)
  | writeFails {w i retries : Nat} {c : Chunk}
      (hcur : s.current w = some (i, retries, .writing, c)) :
      Move s (.written w) (s.fail w i retries)
  | written {w i retries : Nat} {c : Chunk}
      (hcur : s.current w = some (i, retries, .writing, c)) :
      Move s (.written w) ((s.writeZeros c).complete w i)
  | refused {w i retries status : Nat} {first : Int} {body : Bytes} {c : Chunk}
      (hcur : s.current w = some (i, retries, .requesting first, c)) :
      Move s (.responded w status body) (s.fail w i retries)
  | responded {w i retries status : Nat} {first : Int} {body : Bytes} {c : Chunk}
      (hcur : s.current w = some (i, retries, .requesting first, c))
      (hstatus : status = 200 ∨ status = 206) :
      Move s (.responded w status body)
        (s.setWorker w (.busy i retries (.streaming status first c.next.toNat body)))
  | received {w i retries status pos n : Nat} {first : Int} {rest : Bytes} {c : Chunk}
      (hcur : s.current w = some (i, retries, .streaming status first pos rest, c)) (hpos : 0 < n)
      (hn : n ≤ rest.length) :
      Move s (.received w n) (s.receive w i retries status first pos rest n)
  | bodyEnds {w i retries status pos : Nat} {first : Int} {c : Chunk}
      (hcur : s.current w = some (i, retries, .streaming status first pos [], c)) :
      Move s (.bodyEnds w) (s.complete w i)
  | raises {w i retries : Nat} {a : Attempt} {c : Chunk}
      (hcur : s.current w = some (i, retries, a, c)) : Move s (.raises w) (s.fail w i retries)
  | retries {w i retries : Nat} {choice : Choice} {c : Chunk}
      (hcur : s.current w = some (i, retries, .sleeping, c)) :
      Move s (.slept w choice) (s.attempt w i retries c choice)
  | givesUp {w i retries : Nat} {choice : Choice} {c : Chunk}
      (hcur : s.current w = some (i, retries, .sleeping, c)) :
      Move s (.slept w choice) (s.requeue w i)
  | joins (hwoken : s.joinWoken) :
      Move s .joined { s with workers := s.workers.map fun _ => .left, isCompleted := true }

theorem step_move (h : s.step e = some s') : Move s e s' := by
  cases e with
  | loop w choice =>
      simp only [step] at h
      split at h
      · next hw hq =>
          cases h
          exact .leaves hw hq
      · next hw hq =>
          obtain ⟨c, hc, rfl⟩ := Option.map_eq_some_iff.mp h
          exact .takes hw hq hc
      · cases h
  | delayed w =>
      simp only [step] at h
      split at h
      · next hcur =>
          cases h
          exact .delayed hcur
      · cases h
  | throttled w =>
      simp only [step] at h
      split at h
      · next hcur =>
          cases h
          exact .throttled hcur
      · cases h
  | written w =>
      simp only [step] at h
      split at h
      · next hcur =>
          cases h
          split
          · exact .writeFails hcur
          · exact .written hcur
      · cases h
  | responded w status body =>
      simp only [step] at h
      split at h
      · next hcur =>
          cases h
          split
          · exact .refused hcur
          · next hok => exact .responded hcur (by omega)
      · cases h
  | received w n =>
      simp only [step] at h
      split at h
      · next hcur =>
          split at h
          · next hn =>
              cases h
              exact .received hcur hn.1 hn.2.2
          · cases h
      · cases h
  | bodyEnds w =>
      simp only [step] at h
      split at h
      · next hcur =>
          cases h
          exact .bodyEnds hcur
      · cases h
  | raises w =>
      simp only [step] at h
      split at h
      · cases h
      · next hcur =>
          cases h
          exact .raises hcur
      · cases h
  | slept w choice =>
      simp only [step] at h
      split at h
      · next hcur =>
          cases h
          split
          · exact .retries hcur
          · exact .givesUp hcur
      · cases h
  | joined =>
      simp only [step] at h
      split at h
      · next hjoin =>
          cases h
          exact .joins hjoin.1
      · cases h

end DownloadSession

end AetherBond.Client
