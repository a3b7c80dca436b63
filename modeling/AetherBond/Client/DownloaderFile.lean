import AetherBond.Client.DownloaderChunks
import AetherBond.Client.DownloaderQueue

set_option autoImplicit false

/-! # The downloaded file

A server that answers a request for a range with 206 and that range, or with 200 and the whole
file (`Honest`), over physical interfaces. The downloader writes what it gets at the next byte
of the chunk, whatever the status, so a 200 reply goes to the right place only when the request
was for the file from its first byte on, and it stays inside the chunk only as far as the chunk
goes (`Resumes`). In runs where every 200 reply is of this kind the file is the remote one once
`start` returns, and no write leaves its chunk (`run_downloads`).
-/

namespace AetherBond.Client

open AetherBond.Lib

/-! ## The server -/

/-- The bytes from `first` to `stop`. -/
def byteRange (remote : Bytes) (first stop : Int) : Bytes :=
  (remote.take (stop + 1).toNat).drop first.toNat

/-- A request that waits for its reply. -/
structure RangeRequest where
  first : Int
  stop : Int

/-- A reply that is being written, with the request it answers. -/
structure RangeReply where
  status : Nat
  request : RangeRequest
  pos : Nat

namespace DownloadSession

def request? (s : DownloadSession) (w : Nat) : Option RangeRequest :=
  match s.current w with
  | some (_, _, .requesting first, c) => some ⟨first, c.stop⟩
  | _ => none

def reply? (s : DownloadSession) (w : Nat) : Option RangeReply :=
  match s.current w with
  | some (_, _, .streaming status first pos _, c) => some ⟨status, ⟨first, c.stop⟩, pos⟩
  | _ => none

/-- The server sends the range it is asked for, or the whole file; the interfaces are physical. -/
def Honest (remote : Bytes) (s : DownloadSession) : Event → Prop
  | .loop _ choice | .slept _ choice => choice ≠ .simulated
  | .responded w status body => ∀ r ∈ s.request? w,
      (status = 206 → body = byteRange remote r.first r.stop) ∧ (status = 200 → body = remote)
  | _ => True

/-- A 200 reply is to a request from the first byte on, and ends no later than its chunk. -/
def Resumes (s : DownloadSession) : Event → Prop
  | .received w n => ∀ r ∈ s.reply? w, r.status = 200 →
      r.request.first = 0 ∧ (r.pos : Int) + n ≤ r.request.stop + 1
  | _ => True

instance (remote : Bytes) (s : DownloadSession) : ∀ e, Decidable (Honest remote s e)
  | .loop _ _ | .slept _ _ => inferInstanceAs (Decidable (_ ≠ _))
  | .responded w _ _ => inferInstanceAs (Decidable (∀ r ∈ s.request? w, _))
  | .delayed _ | .throttled _ | .written _ | .received _ _ | .bodyEnds _ | .raises _ | .joined =>
      isTrue trivial

instance (s : DownloadSession) : ∀ e, Decidable (Resumes s e)
  | .received w _ => inferInstanceAs (Decidable (∀ r ∈ s.reply? w, _))
  | .loop _ _ | .slept _ _ | .responded _ _ _ | .delayed _ | .throttled _ | .written _
  | .bodyEnds _ | .raises _ | .joined => isTrue trivial

variable {remote file : Bytes} {s s' : DownloadSession} {e : Event} {w i retries n : Nat}
  {c : Chunk}

theorem request?_of_current {first : Int}
    (hcur : s.current w = some (i, retries, .requesting first, c)) :
    s.request? w = some ⟨first, c.stop⟩ := by
  unfold request?
  rw [hcur]

theorem reply?_of_current {status pos : Nat} {first : Int} {rest : Bytes}
    (hcur : s.current w = some (i, retries, .streaming status first pos rest, c)) :
    s.reply? w = some ⟨status, ⟨first, c.stop⟩, pos⟩ := by
  unfold reply?
  rw [hcur]

/-! ## The invariant -/

/-- What a chunk has downloaded is in the file. -/
structure Fetched (remote file : Bytes) (c : Chunk) : Prop where
  start : 0 ≤ c.start
  stop : c.stop < remote.length
  next : c.next ≤ c.stop + 1
  bytes : ∀ k : Nat, c.start ≤ k → (k : Int) < c.next → file[k]? = remote[k]?
  whole : c.status = .completed → c.next = c.stop + 1

/-- What is still to come of a reply belongs where it is going to be written: up to the end of
the chunk, or of the file. -/
structure Fits (remote : Bytes) (c : Chunk) (status pos : Nat) (rest : Bytes) : Prop where
  piece : rest <+: remote.drop pos
  ranged : status = 206 → (pos : Int) + rest.length = c.stop + 1
  full : status = 200 → pos + rest.length = remote.length

/-- Where an attempt at the chunk is; of a 200 reply that does not fit nothing has been written. -/
def OnTrack (remote : Bytes) (c : Chunk) : Attempt → Prop
  | .requesting first => first = c.next
  | .streaming status first pos rest => c.next = pos ∧ (status = 200 ∨ status = 206) ∧
      (Fits remote c status pos rest ∨ status = 200 ∧ first ≠ 0 ∧ rest ≠ [])
  | .sleeping => True
  -- the simulated path
  | _ => False

structure Faithful (remote : Bytes) (s : DownloadSession) : Prop where
  length : s.file.length = remote.length
  chunks : ∀ (i : Nat) (c : Chunk), s.chunks[i]? = some c → Fetched remote s.file c
  attempts : ∀ (w i retries : Nat) (a : Attempt) (c : Chunk),
    s.workers[w]? = some (.busy i retries a) → s.chunks[i]? = some c → OnTrack remote c a
  writes : ∀ x ∈ s.writes, ∃ c, s.chunks[x.1]? = some c ∧ c.start ≤ x.2.1 ∧
    (x.2.1 : Int) + x.2.2.length ≤ c.stop + 1
  covers : ∀ k : Nat, k < remote.length → ∃ c ∈ s.chunks, c.start ≤ k ∧ (k : Int) ≤ c.stop

/-! ## Frames -/

/-- The change keeps what a chunk is a chunk of. -/
def KeepsRange (f : Chunk → Chunk) : Prop := ∀ c, (f c).start = c.start ∧ (f c).stop = c.stop

theorem Faithful.each (h : Faithful remote s) :
    EachChunk (Fetched remote s.file) (OnTrack remote) s :=
  ⟨h.chunks, h.attempts⟩

/-- Worker `w` goes on, and the chunk nobody else is at changes. -/
theorem Faithful.update (h : Faithful remote s) {f : Chunk → Chunk} {pc : WorkerPc}
    (hfree : Alone s w i) (hworkers : s'.workers = s.workers.set w pc)
    (hchunks : s'.chunks = s.chunks.modify i f) (hfile : s'.file = s.file)
    (hwrites : s'.writes = s.writes) (hf : KeepsRange f)
    (hc : s.chunks[i]? = some c) (hfetched : Fetched remote s.file (f c))
    (htrack : ∀ j retries a, pc = .busy j retries a → i = j ∧ OnTrack remote (f c) a) :
    Faithful remote s' := by
  have hrange : ∀ {j : Nat} {c₀ : Chunk}, s.chunks[j]? = some c₀ →
      ∃ c, s'.chunks[j]? = some c ∧ c.start = c₀.start ∧ c.stop = c₀.stop := by
    intro j c₀ hc₀
    refine ⟨if i = j then f c₀ else c₀, ?_, ?_⟩
    · rw [hchunks, List.getElem?_modify, hc₀]
      rfl
    · split
      · exact hf c₀
      · exact ⟨rfl, rfl⟩
  have heach := h.each.update hfree hworkers hchunks hc hfetched htrack
  refine ⟨hfile ▸ h.length, hfile ▸ heach.chunks, heach.attempts, ?_, ?_⟩
  · intro x hx
    rw [hwrites] at hx
    obtain ⟨c₀, hc₀, hin⟩ := h.writes x hx
    obtain ⟨c, hc, hstart, hstop⟩ := hrange hc₀
    exact ⟨c, hc, by rwa [hstart, hstop]⟩
  · intro k hk
    obtain ⟨c₀, hmem, hin⟩ := h.covers k hk
    obtain ⟨j, hc₀⟩ := List.mem_iff_getElem?.mp hmem
    obtain ⟨c, hc, hstart, hstop⟩ := hrange hc₀
    exact ⟨c, List.mem_of_getElem? hc, by rwa [hstart, hstop]⟩

/-- A piece of the remote file is written where it belongs, inside chunk `i`. -/
theorem Faithful.write (h : Faithful remote s) {pos : Nat} {data : Bytes}
    (hpiece : data <+: remote.drop pos) (hc : s.chunks[i]? = some c) (hstart : c.start ≤ pos)
    (hstop : (pos : Int) + data.length ≤ c.stop + 1) :
    Faithful remote { s with
      file := overwrite s.file pos data
      writes := s.writes ++ [(i, pos, data)] } := by
  obtain ⟨hlen, hagrees⟩ := overwrite_agrees h.length hpiece
  refine ⟨hlen, fun j c' hc' => ?_, h.attempts, ?_, h.covers⟩
  · have hold := h.chunks j c' hc'
    refine ⟨hold.start, hold.stop, hold.next, fun k hk hlt => ?_, hold.whole⟩
    show (overwrite s.file pos data)[k]? = remote[k]?
    rw [hagrees]
    split
    · rfl
    · exact hold.bytes k hk hlt
  · intro x hx
    rcases List.mem_append.mp hx with hx | hx
    · exact h.writes x hx
    · obtain rfl := List.mem_singleton.mp hx
      exact ⟨c, hc, hstart, hstop⟩

/-! ## Steps -/

section Steps

variable {a : Attempt} (h : Faithful remote s) (hfree : Alone s w i)
  (hc : s.chunks[i]? = some c)

include h hfree hc

/-- The status changes, but not to completed. -/
theorem Faithful.status {status : ChunkStatus} (hstatus : status ≠ .completed)
    (ha : OnTrack remote { c with status := status } a) :
    Faithful remote ((s.modifyChunk i fun c => { c with status := status }).setWorker w
      (.busy i retries a)) := by
  have hold := h.chunks i c hc
  refine h.update hfree rfl rfl rfl rfl (fun _ => ⟨rfl, rfl⟩) hc ?_ fun j retries a heq => ?_
  · exact ⟨hold.start, hold.stop, hold.next, hold.bytes, fun hcompleted =>
      absurd hcompleted hstatus⟩
  · cases heq
    exact ⟨rfl, ha⟩

theorem Faithful.fail : Faithful remote (s.fail w i retries) :=
  h.status hfree hc (by decide) trivial

theorem Faithful.attempt {choice : Choice} (hchoice : choice ≠ .simulated) :
    Faithful remote (s.attempt w i retries c choice) := by
  cases choice with
  | raises => exact h.fail hfree hc
  | simulated => exact absurd rfl hchoice
  | physical => exact h.status hfree hc (by decide) rfl

theorem Faithful.complete (hwhole : c.next = c.stop + 1) : Faithful remote (s.complete w i) := by
  have hold := h.chunks i c hc
  refine h.update hfree rfl rfl rfl rfl (fun _ => ⟨rfl, rfl⟩) hc ?_ fun j retries a heq => ?_
  · exact ⟨hold.start, hold.stop, hold.next, hold.bytes, fun _ => hwhole⟩
  · cases heq

theorem Faithful.requeue : Faithful remote (s.requeue w i) := by
  have hold := h.chunks i c hc
  have hnext := hold.next
  unfold Chunk.next at hnext
  refine h.update (f := fun c => { c with status := .pending, bytesDownloaded := 0 }) hfree rfl rfl
    rfl rfl (fun _ => ⟨rfl, rfl⟩) hc ?_ fun j retries a heq => ?_
  · refine ⟨hold.start, hold.stop, ?_, fun k hk hlt => ?_, fun hcompleted => ?_⟩
    · show c.start + ((0 : Nat) : Int) ≤ c.stop + 1
      omega
    · have hlt' : (k : Int) < c.start + ((0 : Nat) : Int) := hlt
      have hk' : c.start ≤ k := hk
      omega
    · cases hcompleted
  · cases heq

theorem Faithful.responded (hne : remote ≠ []) {first : Int} (hfirst : first = c.next)
    {status : Nat} (hstatus : status = 200 ∨ status = 206) {body : Bytes}
    (hranged : status = 206 → body = byteRange remote first c.stop)
    (hfull : status = 200 → body = remote) :
    Faithful remote
      (s.setWorker w (.busy i retries (.streaming status first c.next.toNat body))) := by
  have hold := h.chunks i c hc
  obtain ⟨hstart, hstop, hnext⟩ := And.intro hold.start (And.intro hold.stop hold.next)
  have hpos : (c.next.toNat : Int) = c.next := by
    unfold Chunk.next
    omega
  refine h.update (f := id) hfree rfl (List.modify_id i s.chunks).symm rfl rfl
    (fun _ => ⟨rfl, rfl⟩) hc hold fun j retries a heq => ?_
  cases heq
  refine ⟨rfl, hpos.symm, hstatus, ?_⟩
  rcases hstatus with h200 | h206
  · rw [hfull h200]
    by_cases hzero : first = 0
    · have hpos₀ : c.next.toNat = 0 := by omega
      refine Or.inl ⟨?_, fun hno => absurd (h200.symm.trans hno) (by decide), fun _ => ?_⟩
      · rw [hpos₀, List.drop_zero]
      · rw [hpos₀, Nat.zero_add]
    · exact Or.inr ⟨h200, hzero, hne⟩
  · rw [hranged h206, hfirst]
    unfold byteRange
    refine Or.inl ⟨?_, fun _ => ?_, fun hno => absurd (h206.symm.trans hno) (by decide)⟩
    · rw [List.drop_take]
      exact List.take_prefix _ _
    · rw [List.length_drop, List.length_take]
      show (c.next.toNat : Int) + _ = c.stop + 1
      omega

theorem Faithful.receive {status : Nat} {first : Int} {pos : Nat} {rest : Bytes}
    (hnext : c.next = pos) (hfits : Fits remote c status pos rest)
    (hstatus : status = 200 ∨ status = 206) (hpos : 0 < n) (hn : n ≤ rest.length)
    (hresumes : status = 200 → (pos : Int) + n ≤ c.stop + 1) :
    Faithful remote (s.receive w i retries status first pos rest n) := by
  have hlen : (rest.take n).length = n := List.length_take_of_le hn
  have hpiece : rest.take n <+: remote.drop pos := (List.take_prefix n rest).trans hfits.piece
  have hstart : c.start ≤ pos := by
    rw [← hnext]
    unfold Chunk.next
    omega
  have hstop : (pos : Int) + (rest.take n).length ≤ c.stop + 1 := by
    rw [hlen]
    rcases hstatus with h200 | h206
    · exact hresumes h200
    · have := hfits.ranged h206
      omega
  have hnew : ∀ c' : Chunk, c' = { c with bytesDownloaded := c.bytesDownloaded
      + (rest.take n).length } → c'.next = pos + n := by
    rintro c' rfl
    rw [← hnext, hlen]
    unfold Chunk.next
    push_cast
    omega
  have hwritten := h.write hpiece hc hstart hstop
  have hold := hwritten.chunks i c hc
  refine hwritten.update (f := fun c => { c with bytesDownloaded :=
    c.bytesDownloaded + (rest.take n).length }) hfree rfl rfl rfl rfl (fun _ => ⟨rfl, rfl⟩) hc ?_
    fun j retries a heq => ?_
  · refine ⟨hold.start, hold.stop, ?_, fun k hk hlt => ?_, fun hcompleted => ?_⟩
    · rw [hnew _ rfl, ← hlen]
      exact hstop
    · rw [hnew _ rfl] at hlt
      by_cases hin : (k : Int) < c.next
      · exact hold.bytes k hk hin
      · show (overwrite s.file pos (rest.take n))[k]? = remote[k]?
        rw [(overwrite_agrees h.length hpiece).2, if_pos (by omega)]
    · have hwhole := hold.whole hcompleted
      omega
  · cases heq
    refine ⟨rfl, ?_, hstatus, Or.inl ⟨?_, fun h206 => ?_, fun h200 => ?_⟩⟩
    · rw [hnew _ rfl, hlen]
      push_cast
      rfl
    · rw [hlen, ← List.drop_drop]
      exact hfits.piece.drop n
    · have := hfits.ranged h206
      rw [hlen, List.length_drop]
      push_cast
      show (pos : Int) + n + _ = c.stop + 1
      omega
    · have := hfits.full h200
      rw [hlen, List.length_drop]
      omega

omit hfree in
/-- A reply that has been written to its end has filled the chunk. -/
theorem Faithful.ends {status pos : Nat} (hnext : c.next = pos)
    (hfits : Fits remote c status pos []) (hstatus : status = 200 ∨ status = 206) :
    c.next = c.stop + 1 := by
  have hold := h.chunks i c hc
  have hle := hold.next
  have hstop := hold.stop
  rcases hstatus with h200 | h206
  · have := hfits.full h200
    rw [List.length_nil] at this
    omega
  · have := hfits.ranged h206
    rw [List.length_nil] at this
    omega

end Steps

/-- **The step lemma.** -/
theorem Faithful.step (hne : remote ≠ []) (hp : Pooled s) (h : Faithful remote s)
    (hhonest : Honest remote s e) (hresumes : Resumes s e) (hstep : s.step e = some s') :
    Faithful remote s' := by
  have hcurrent : ∀ {w i retries a c}, s.current w = some (i, retries, a, c) →
      Alone s w i ∧ s.chunks[i]? = some c ∧ OnTrack remote c a := h.each.current hp
  cases step_move hstep with
  | @leaves w _ hw hqueue =>
      have heach : EachChunk (Fetched remote s.file) (OnTrack remote) (s.setWorker w .left) :=
        h.each.leave rfl fun _ _ _ _ => busy_of_leaves fun _ _ _ => WorkerPc.noConfusion
      exact ⟨h.length, heach.chunks, heach.attempts, h.writes, h.covers⟩
  | @takes w i _ rest _ hw hqueue hc =>
      have hfree : Alone s w i := hp.alone_of_queued (hqueue ▸ List.mem_cons_self) w
      have hrest : Faithful remote { s with queue := rest } :=
        ⟨h.length, h.chunks, h.attempts, h.writes, h.covers⟩
      exact hrest.attempt hfree hc hhonest
  -- nobody is on the simulated path
  | delayed hcur => exact absurd (hcurrent hcur).2.2 id
  | throttled hcur => exact absurd (hcurrent hcur).2.2 id
  | writeFails hcur => exact absurd (hcurrent hcur).2.2 id
  | written hcur => exact absurd (hcurrent hcur).2.2 id
  | refused hcur =>
      obtain ⟨hfree, hc, -⟩ := hcurrent hcur
      exact h.fail hfree hc
  | @responded w _ _ _ first _ c hcur hstatus =>
      obtain ⟨hfree, hc, hfirst⟩ := hcurrent hcur
      have hrequest := request?_of_current hcur
      obtain ⟨hranged, hfull⟩ := hhonest _ hrequest
      exact h.responded hfree hc hne hfirst hstatus hranged hfull
  | @received w _ _ status pos _ first _ c hcur hpos hn =>
      obtain ⟨hfree, hc, hnext, hstatus, htrack⟩ := hcurrent hcur
      have hreply := reply?_of_current hcur
      have hresume := hresumes _ hreply
      rcases htrack with hfits | ⟨h200, hfirst, -⟩
      · exact h.receive hfree hc hnext hfits hstatus hpos hn fun h200 => (hresume h200).2
      · exact absurd (hresume h200).1 hfirst
  | bodyEnds hcur =>
      obtain ⟨hfree, hc, hnext, hstatus, htrack⟩ := hcurrent hcur
      rcases htrack with hfits | ⟨-, -, hrest⟩
      · exact h.complete hfree hc (h.ends hc hnext hfits hstatus)
      · exact absurd rfl hrest
  | raises hcur =>
      obtain ⟨hfree, hc, -⟩ := hcurrent hcur
      exact h.fail hfree hc
  | retries hcur =>
      obtain ⟨hfree, hc, -⟩ := hcurrent hcur
      exact h.attempt hfree hc hhonest
  | givesUp hcur =>
      obtain ⟨hfree, hc, -⟩ := hcurrent hcur
      exact h.requeue hfree hc
  | joins hwoken =>
      have heach : EachChunk (Fetched remote s.file) (OnTrack remote)
          { s with workers := s.workers.map fun _ => .left, isCompleted := true } :=
        h.each.leave rfl fun _ _ _ _ hw => absurd hw not_busy_of_joins
      exact ⟨h.length, heach.chunks, heach.attempts, h.writes, h.covers⟩

/-! ## The chunks of a file -/

/-- Chunks that cut a file of `total` bytes, with nothing downloaded. -/
structure Cuts (total : Nat) (chunks : List Chunk) : Prop where
  fresh : ∀ c ∈ chunks, c.bytesDownloaded = 0 ∧ c.status = .pending
  inside : ∀ c ∈ chunks, 0 ≤ c.start ∧ c.start ≤ c.stop + 1 ∧ c.stop < total
  covers : ∀ k : Nat, k < total → ∃ c ∈ chunks, c.start ≤ k ∧ (k : Int) ≤ c.stop

/-- A partition of the file cuts it, if nothing is downloaded. -/
theorem Cuts.of_partition {total : Nat} {chunks : List Chunk}
    (hfresh : ∀ c ∈ chunks, c.bytesDownloaded = 0 ∧ c.status = .pending)
    (h : Partition total chunks) : Cuts total chunks where
  fresh := hfresh
  inside c hc := by
    have hle := h.nonempty c hc
    have hstart := (h.covers c.start).mp ⟨c, hc, le_rfl, hle⟩
    have hstop := (h.covers c.stop).mp ⟨c, hc, hle, le_rfl⟩
    omega
  covers k hk := (h.covers k).mpr (by omega)

/-- **`initialize` cuts the file**, if the chunk size is positive. -/
theorem initializeChunks_cuts {total : Nat} {chunkSize : Int} {acceptRanges : Bool}
    {chunks : List Chunk} (hsize : acceptRanges = true → 0 < chunkSize)
    (hinit : initializeChunks chunkSize total acceptRanges = some (chunks, file)) :
    Cuts total chunks ∧ file.length = total := by
  unfold initializeChunks at hinit
  dsimp only at hinit
  split at hinit
  · cases hinit
  · next hpos =>
      have hfile : (List.replicate (total : Int).toNat (0 : UInt8)).length = total := by
        rw [List.length_replicate, Int.toNat_natCast]
      split at hinit
      · next hranges =>
          split at hinit
          · cases hinit
          · cases hinit
            refine ⟨Cuts.of_partition (fun c hc => ?_)
              (partition_ranged (by omega) (hsize hranges)), hfile⟩
            obtain ⟨i, -, rfl⟩ := List.mem_map.mp hc
            exact ⟨rfl, rfl⟩
      · cases hinit
        refine ⟨Cuts.of_partition (fun c hc => ?_) (partition_single (by omega)), hfile⟩
        obtain rfl := List.mem_singleton.mp hc
        exact ⟨rfl, rfl⟩

theorem start_faithful {chunks : List Chunk} (hcuts : Cuts remote.length chunks)
    (hlen : file.length = remote.length) : Faithful remote (start chunks file) where
  length := hlen
  chunks i c hc := by
    have hmem := List.mem_of_getElem? hc
    obtain ⟨hbytes, hstatus⟩ := hcuts.fresh c hmem
    obtain ⟨hstart, hle, hstop⟩ := hcuts.inside c hmem
    have hnext : c.next = c.start := by
      unfold Chunk.next
      omega
    refine ⟨hstart, hstop, hnext ▸ hle, fun k hk hlt => ?_, fun hcompleted => ?_⟩
    · omega
    · rw [hstatus] at hcompleted
      cases hcompleted
  attempts w i retries a c hw _ := absurd hw not_busy_of_start
  writes x hx := by cases hx
  covers := hcuts.covers

/-! ## Runs -/

/-- When all chunks are completed, the file is the remote one. -/
theorem Faithful.file_eq (h : Faithful remote s) (hall : ∀ c ∈ s.chunks, c.status = .completed) :
    s.file = remote := by
  refine List.ext_getElem? fun k => ?_
  by_cases hk : k < remote.length
  · obtain ⟨c, hmem, hstart, hstop⟩ := h.covers k hk
    obtain ⟨i, hc⟩ := List.mem_iff_getElem?.mp hmem
    have hfetched := h.chunks i c hc
    have hwhole := hfetched.whole (hall c hmem)
    exact hfetched.bytes k hstart (by omega)
  · rw [List.getElem?_eq_none (by rw [h.length]; omega), List.getElem?_eq_none (by omega)]

/-- **The downloaded file.** A server that sends ranges or the whole file, physical interfaces, a
positive chunk size, every order of the workers and every exception: in a run where each 200
reply that is written answers a request from the first byte on and ends with its chunk, every
write stays inside its chunk, and the file is the remote one once `start` has returned. -/
theorem run_downloads (remote : Bytes) (chunkSize : Int) (acceptRanges : Bool)
    (chunks : List Chunk) (file : Bytes) (es : List Event) (s : DownloadSession)
    (hinit : initializeChunks chunkSize remote.length acceptRanges = some (chunks, file))
    (hrun : runFrom step (start chunks file) es = some s)
    (hhonest : Along step (Honest remote) (start chunks file) es)
    (hsize : acceptRanges = true → 0 < chunkSize)
    (hresumes : Along step Resumes (start chunks file) es) :
    (∀ x ∈ s.writes, ∃ c, s.chunks[x.1]? = some c ∧ c.start ≤ x.2.1 ∧
      (x.2.1 : Int) + x.2.2.length ≤ c.stop + 1) ∧
    (s.isCompleted → s.file = remote ∧ s.file.length = remote.length) := by
  have hne : remote ≠ [] := by
    rintro rfl
    cases hinit
  obtain ⟨hcuts, hlen⟩ := initializeChunks_cuts hsize hinit
  have hpooled : Pooled (start chunks file) := start_pooled (fun c hc hcompleted => by
    rw [(hcuts.fresh c hc).2] at hcompleted
    cases hcompleted) file
  have h : Pooled s ∧ Faithful remote s :=
    runFrom_invariant_along (I := fun s => Pooled s ∧ Faithful remote s)
      (fun s e s' h hG hstep => ⟨h.1.step hstep, h.2.step hne h.1 hG.1 hG.2 hstep⟩)
      ⟨hpooled, start_faithful hcuts hlen⟩ (hhonest.and hresumes) hrun
  refine ⟨h.2.writes, fun hcompleted => ?_⟩
  have heq := h.2.file_eq (h.1.noneLost.completed hcompleted)
  exact ⟨heq, congrArg List.length heq⟩

/-- Two chunks by two workers, one of which resumes after an exception. -/
theorem run_downloads_resumed :
    ∃ s, runFrom step (start [.new 0 0 1, .new 1 2 2] [0, 0, 0])
        [.loop 0 .physical, .loop 1 .physical, .responded 0 206 [97, 98], .received 0 1,
          .raises 0, .responded 1 206 [99], .received 1 1, .slept 0 .physical,
          .responded 0 206 [98], .received 0 1, .bodyEnds 1, .bodyEnds 0, .joined] = some s ∧
      s.isCompleted ∧ s.file = [97, 98, 99] := by
  have hcompleted : (runFrom step (start [.new 0 0 1, .new 1 2 2] [0, 0, 0])
      [.loop 0 .physical, .loop 1 .physical, .responded 0 206 [97, 98], .received 0 1,
        .raises 0, .responded 1 206 [99], .received 1 1, .slept 0 .physical,
        .responded 0 206 [98], .received 0 1, .bodyEnds 1, .bodyEnds 0, .joined]).map
      (fun s => s.isCompleted) = some true := by decide +kernel
  obtain ⟨s, hrun, heq⟩ := Option.map_eq_some_iff.mp hcompleted
  exact ⟨s, hrun, heq, ((run_downloads [97, 98, 99] 2 true _ _ _ s (by decide +kernel) hrun
    (by decide +kernel) (by decide) (by decide +kernel)).2 heq).1⟩

/-- A server without ranges sends the whole file for each request. The first reply breaks off
after one byte, and the second one is written behind it. -/
theorem resumed_download_corrupt :
    ¬ ∀ (remote : Bytes) (chunkSize : Int) (acceptRanges : Bool) (chunks : List Chunk)
      (file : Bytes) (es : List Event) (s : DownloadSession),
      initializeChunks chunkSize remote.length acceptRanges = some (chunks, file) →
      runFrom step (start chunks file) es = some s →
      Along step (Honest remote) (start chunks file) es →
      (∀ x ∈ s.writes, ∃ c, s.chunks[x.1]? = some c ∧ c.start ≤ x.2.1 ∧
        (x.2.1 : Int) + x.2.2.length ≤ c.stop + 1) ∧
      (s.isCompleted → s.file = remote ∧ s.file.length = remote.length) := by
  intro h
  have hbad : (runFrom step (start [.new 0 0 1] [0, 0])
      [.loop 0 .physical, .responded 0 200 [97, 98], .received 0 1, .raises 0, .slept 0 .physical,
        .responded 0 200 [97, 98], .received 0 2, .bodyEnds 0, .joined]).map
      (fun s => (s.isCompleted, s.file)) = some (true, [97, 97, 98]) := by decide +kernel
  obtain ⟨s, hrun, heq⟩ := Option.map_eq_some_iff.mp hbad
  obtain ⟨hcompleted, hfile⟩ := Prod.mk.inj heq
  have hsame := ((h [97, 98] 5242880 false _ _ _ s (by decide +kernel) hrun
    (by decide +kernel)).2 hcompleted).1
  rw [hfile] at hsame
  cases hsame

end DownloadSession

end AetherBond.Client
