import AetherBond.Client.DownloaderFile
import AetherBond.Lib.Rounding

set_option autoImplicit false

/-! # What the downloader has counted

Each chunk counts its bytes, and the session counts those of all chunks. The two are not kept
together where an attempt starts over: the simulated path counts its chunk from 0 again, and a
chunk that goes back to the queue is set to 0, but the total keeps what it had.

`drift` is how far the total is ahead of the chunks, and `forgotten` is what a step adds to it.
In every state of a run the total is that of the chunks exactly if no step forgets anything, and
then it stays within the size of the file as long as the replies do (`run_accounts_iff`).
-/

namespace AetherBond.Client

open AetherBond.Lib

namespace DownloadSession

variable {s s' : DownloadSession} {e : Event} {w i retries n : Nat} {c : Chunk}

/-! ## The two counts -/

/-- The bytes of all chunks. -/
def accounted (s : DownloadSession) : Nat := (s.chunks.map Chunk.bytesDownloaded).sum

/-- How far the total is ahead of the chunks. -/
def drift (s : DownloadSession) : Int := s.totalDownloadedBytes - s.accounted

/-- What a step takes from its chunk and leaves in the total. -/
def forgotten (s : DownloadSession) : Event → Int
  | .throttled w =>
      match s.current w with
      | some (_, _, .throttling downloaded, c) => c.bytesDownloaded - downloaded
      | _ => 0
  | .slept w _ =>
      match s.current w with
      | some (_, retries, .sleeping, c) => if retries < maxRetries then 0 else c.bytesDownloaded
      | _ => 0
  | _ => 0

/-- The step does not start over with a chunk that has something. -/
def NothingForgotten (s : DownloadSession) (e : Event) : Prop := s.forgotten e = 0

instance (s : DownloadSession) (e : Event) : Decidable (NothingForgotten s e) :=
  inferInstanceAs (Decidable (_ = _))

theorem sum_map_modify {α : Type*} (g : α → Nat) (f : α → α) {a : α} {l : List α}
    (h : l[i]? = some a) : ((l.modify i f).map g).sum + g a = (l.map g).sum + g (f a) := by
  induction l generalizing i with
  | nil => cases h
  | cons b l ih =>
      cases i with
      | zero =>
          obtain rfl : b = a := Option.some.inj h
          rw [List.modify_zero_cons, List.map_cons, List.map_cons, List.sum_cons, List.sum_cons]
          omega
      | succ i =>
          have hrest := ih (i := i) h
          rw [List.modify_succ_cons, List.map_cons, List.map_cons, List.sum_cons, List.sum_cons]
          omega

/-- One chunk changes, and the total grows by `k`. -/
theorem drift_modify {f : Chunk → Chunk} (k : Nat) (hc : s.chunks[i]? = some c)
    (hchunks : s'.chunks = s.chunks.modify i f)
    (htotal : s'.totalDownloadedBytes = s.totalDownloadedBytes + k) :
    s'.drift = s.drift + k + c.bytesDownloaded - (f c).bytesDownloaded := by
  have hsum := sum_map_modify Chunk.bytesDownloaded f hc
  unfold drift accounted
  rw [hchunks, htotal]
  omega

/-- One chunk changes, and neither count does. -/
theorem drift_keep {f : Chunk → Chunk} (hc : s.chunks[i]? = some c)
    (hchunks : s'.chunks = s.chunks.modify i f)
    (htotal : s'.totalDownloadedBytes = s.totalDownloadedBytes)
    (hf : (f c).bytesDownloaded = c.bytesDownloaded) : s'.drift = s.drift := by
  have h := drift_modify 0 hc hchunks htotal
  omega

theorem drift_fail (hc : s.chunks[i]? = some c) : (s.fail w i retries).drift = s.drift :=
  drift_keep hc rfl rfl rfl

theorem drift_attempt (hc : s.chunks[i]? = some c) (choice : Choice) :
    (s.attempt w i retries c choice).drift = s.drift := by
  cases choice with
  | raises | simulated | physical => exact drift_keep hc rfl rfl rfl

theorem simulate_chunks (s : DownloadSession) (w i retries : Nat) (c : Chunk) (downloaded : Nat) :
    (s.simulate w i retries c downloaded).chunks = s.chunks := by
  unfold simulate
  split <;> rfl

theorem simulate_total (s : DownloadSession) (w i retries : Nat) (c : Chunk) (downloaded : Nat) :
    (s.simulate w i retries c downloaded).totalDownloadedBytes = s.totalDownloadedBytes := by
  unfold simulate
  split <;> rfl

theorem drift_simulate (s : DownloadSession) (w i retries : Nat) (c : Chunk) (downloaded : Nat) :
    (s.simulate w i retries c downloaded).drift = s.drift := by
  unfold simulate
  split <;> rfl

/-- The simulated path counts from what this attempt has read. -/
theorem drift_advance (hc : s.chunks[i]? = some c) (downloaded : Nat) :
    (s.advance w i retries c downloaded).drift = s.drift + (c.bytesDownloaded - downloaded) := by
  set step := min (64 * 1024) (c.size - downloaded).toNat with hstep
  have hchunks : (s.advance w i retries c downloaded).chunks =
      s.chunks.modify i fun c => { c with bytesDownloaded := downloaded + step } :=
    simulate_chunks ..
  have htotal : (s.advance w i retries c downloaded).totalDownloadedBytes =
      s.totalDownloadedBytes + step := simulate_total ..
  have h := drift_modify step hc hchunks htotal
  dsimp only at h
  push_cast at h
  omega

theorem drift_complete (hc : s.chunks[i]? = some c) : (s.complete w i).drift = s.drift :=
  drift_keep hc rfl rfl rfl

theorem drift_requeue (hc : s.chunks[i]? = some c) :
    (s.requeue w i).drift = s.drift + c.bytesDownloaded := by
  have hchunks : (s.requeue w i).chunks =
      s.chunks.modify i fun c => { c with status := .pending, bytesDownloaded := 0 } := rfl
  have h := drift_modify 0 hc hchunks rfl
  dsimp only at h
  omega

theorem drift_receive (hc : s.chunks[i]? = some c) (status : Nat) (first : Int) (pos : Nat)
    (rest : Bytes) : (s.receive w i retries status first pos rest n).drift = s.drift := by
  have hchunks : (s.receive w i retries status first pos rest n).chunks = s.chunks.modify i
      fun c => { c with bytesDownloaded := c.bytesDownloaded + (rest.take n).length } := rfl
  have h := drift_modify (rest.take n).length hc hchunks rfl
  dsimp only at h
  push_cast at h
  omega

/-- After the pause there is another attempt, or there have been enough. -/
theorem step_slept {choice : Choice} (h : s.step (.slept w choice) = some s') :
    ∃ i retries c, s.current w = some (i, retries, .sleeping, c) ∧
      (retries < maxRetries ∧ s' = s.attempt w i retries c choice ∨
        ¬ retries < maxRetries ∧ s' = s.requeue w i) := by
  simp only [step] at h
  split at h
  · next i retries c hcur =>
      obtain rfl := Option.some.inj h
      refine ⟨i, retries, c, hcur, ?_⟩
      split
      · next hlt => exact .inl ⟨hlt, rfl⟩
      · next hge => exact .inr ⟨hge, rfl⟩
  · cases h

theorem drift_slept {choice : Choice} (h : s.step (.slept w choice) = some s') :
    s'.drift = s.drift + s.forgotten (.slept w choice) := by
  obtain ⟨i, retries, c, hcur, ⟨hlt, rfl⟩ | ⟨hge, rfl⟩⟩ := step_slept h
  · have hzero : s.forgotten (.slept w choice) = 0 := by
      rw [forgotten, hcur]
      exact if_pos hlt
    rw [drift_attempt (current_eq_some hcur).2, hzero, add_zero]
  · have hall : s.forgotten (.slept w choice) = c.bytesDownloaded := by
      rw [forgotten, hcur]
      exact if_neg hge
    rw [drift_requeue (current_eq_some hcur).2, hall]

/-- **The step lemma**: the total gets ahead by what is forgotten. -/
theorem drift_step (h : s.step e = some s') : s'.drift = s.drift + s.forgotten e := by
  have hnone : ∀ {d : Int}, s.forgotten e = 0 → d = s.drift → d = s.drift + s.forgotten e :=
    fun hzero hd => by rw [hzero, hd, add_zero]
  cases step_move h with
  | @takes _ i _ rest c _ _ hc =>
      have hrest : ({ s with queue := rest } : DownloadSession).chunks[i]? = some c := hc
      exact hnone rfl (drift_attempt hrest _)
  | delayed hcur => exact hnone rfl (drift_simulate ..)
  | throttled hcur => rw [drift_advance (current_eq_some hcur).2, forgotten, hcur]
  | @written w i _ c hcur =>
      have hc : (s.writeZeros c).chunks[i]? = some c := (current_eq_some hcur).2
      exact hnone rfl (drift_complete hc)
  | received hcur => exact hnone rfl (drift_receive (current_eq_some hcur).2 ..)
  | bodyEnds hcur => exact hnone rfl (drift_complete (current_eq_some hcur).2)
  | writeFails hcur | refused hcur | raises hcur =>
      exact hnone rfl (drift_fail (current_eq_some hcur).2)
  | retries | givesUp => exact drift_slept h
  | leaves | responded | joins => exact hnone rfl rfl

/-! ## The size of the file -/

/-- No reply carries more than the range it is asked for. -/
def RepliesFit (s : DownloadSession) : Event → Prop
  | .responded w _ body => ∀ r ∈ s.request? w, body.length ≤ (r.stop + 1 - r.first).toNat
  | _ => True

instance (s : DownloadSession) : ∀ e, Decidable (RepliesFit s e)
  | .responded w _ _ => inferInstanceAs (Decidable (∀ r ∈ s.request? w, _))
  | .loop _ _ | .slept _ _ | .received _ _ | .delayed _ | .throttled _ | .written _
  | .bodyEnds _ | .raises _ | .joined => isTrue trivial

/-- A chunk has counted no more than its size. -/
def WithinSize (c : Chunk) : Prop := c.bytesDownloaded ≤ c.size.toNat

/-- What an attempt is still going to count fits into the chunk as well. -/
def StaysWithin (c : Chunk) : Attempt → Prop
  | .throttling downloaded => (downloaded : Int) < c.size
  | .requesting first => first = c.next
  | .streaming _ _ _ rest => c.bytesDownloaded + rest.length ≤ c.size.toNat
  | _ => True

/-- No chunk has more than its size, and none is going to. -/
abbrev Contained (s : DownloadSession) : Prop := EachChunk WithinSize StaysWithin s

section Steps

variable {a : Attempt} (h : Contained s) (hfree : Alone s w i) (hc : s.chunks[i]? = some c)

include h hfree hc

/-- Worker `w` goes on, and only the status of its chunk changes. -/
theorem Contained.status (status : ChunkStatus)
    (ha : StaysWithin { c with status := status } a) :
    Contained ((s.modifyChunk i fun c => { c with status := status }).setWorker w
      (.busy i retries a)) := by
  refine h.update hfree rfl rfl hc (h.chunks i c hc) fun j retries a heq => ?_
  cases heq
  exact ⟨rfl, ha⟩

theorem Contained.goOn (ha : StaysWithin c a) : Contained (s.setWorker w (.busy i retries a)) := by
  refine h.update (f := id) hfree rfl (List.modify_id i s.chunks).symm hc (h.chunks i c hc)
    fun j retries a heq => ?_
  cases heq
  exact ⟨rfl, ha⟩

theorem Contained.fail : Contained (s.fail w i retries) := h.status hfree hc _ trivial

theorem Contained.attempt (choice : Choice) : Contained (s.attempt w i retries c choice) := by
  cases choice with
  | raises => exact h.fail hfree hc
  | simulated => exact h.status hfree hc _ trivial
  | physical => exact h.status hfree hc _ rfl

theorem Contained.simulate {downloaded : Nat} :
    Contained (s.simulate w i retries c downloaded) := by
  unfold DownloadSession.simulate
  split
  · next hlt => exact h.goOn hfree hc hlt
  · exact h.goOn hfree hc trivial

/-- What the simulated path reads next is at most the rest of the chunk. -/
theorem Contained.advance {downloaded : Nat} (hlt : (downloaded : Int) < c.size) :
    Contained (s.advance w i retries c downloaded) := by
  unfold DownloadSession.advance DownloadSession.simulate
  dsimp only
  set step := min (64 * 1024) (c.size - downloaded).toNat with hstep
  have hwithin : WithinSize { c with bytesDownloaded := downloaded + step } := by
    show downloaded + step ≤ c.size.toNat
    omega
  split
  · next hmore =>
      refine h.update hfree rfl rfl hc hwithin fun j retries a heq => ?_
      cases heq
      exact ⟨rfl, hmore⟩
  · refine h.update hfree rfl rfl hc hwithin fun j retries a heq => ?_
    cases heq
    exact ⟨rfl, trivial⟩

theorem Contained.complete : Contained (s.complete w i) := by
  refine h.update hfree rfl rfl hc (h.chunks i c hc) fun j retries a heq => ?_
  cases heq

theorem Contained.requeue : Contained (s.requeue w i) := by
  refine h.update hfree rfl rfl hc (Nat.zero_le _) fun j retries a heq => ?_
  cases heq

theorem Contained.responded {first : Int} (hfirst : first = c.next) {body : Bytes}
    (hfit : body.length ≤ (c.stop + 1 - first).toNat) (status : Nat) :
    Contained (s.setWorker w (.busy i retries (.streaming status first c.next.toNat body))) := by
  have hwithin : c.bytesDownloaded ≤ c.size.toNat := h.chunks i c hc
  refine h.goOn hfree hc ?_
  show c.bytesDownloaded + body.length ≤ c.size.toNat
  rw [hfirst] at hfit
  unfold Chunk.next at hfit
  unfold Chunk.size at hwithin ⊢
  omega

theorem Contained.receive {rest : Bytes} (hrest : c.bytesDownloaded + rest.length ≤ c.size.toNat)
    (status : Nat) (first : Int) (pos n : Nat) :
    Contained (s.receive w i retries status first pos rest n) := by
  have hsplit : (rest.take n).length + (rest.drop n).length = rest.length := by
    rw [← List.length_append, List.take_append_drop]
  refine h.update (f := fun c => { c with bytesDownloaded :=
    c.bytesDownloaded + (rest.take n).length }) hfree rfl rfl hc ?_ fun j retries a heq => ?_
  · show c.bytesDownloaded + (rest.take n).length ≤ c.size.toNat
    omega
  · cases heq
    refine ⟨rfl, ?_⟩
    show c.bytesDownloaded + (rest.take n).length + (rest.drop n).length ≤ c.size.toNat
    omega

end Steps

/-- **The step lemma**: no chunk gets more than its size. -/
theorem Contained.step (hp : Pooled s) (h : Contained s) (hfit : RepliesFit s e)
    (hstep : s.step e = some s') : Contained s' := by
  have hcurrent : ∀ {w i retries a c}, s.current w = some (i, retries, a, c) →
      Alone s w i ∧ s.chunks[i]? = some c ∧ StaysWithin c a := h.current hp
  cases step_move hstep with
  | leaves => exact h.leave rfl fun _ _ _ _ => busy_of_leaves fun _ _ _ => WorkerPc.noConfusion
  | @takes w i _ rest _ hw hqueue hc =>
      have hfree : Alone s w i := hp.alone_of_queued (hqueue ▸ List.mem_cons_self) w
      have hrest : Contained { s with queue := rest } := ⟨h.chunks, h.attempts⟩
      exact hrest.attempt hfree hc _
  | delayed hcur =>
      obtain ⟨hfree, hc, -⟩ := hcurrent hcur
      exact h.simulate hfree hc
  | throttled hcur =>
      obtain ⟨hfree, hc, hlt⟩ := hcurrent hcur
      exact h.advance hfree hc hlt
  | @written _ _ _ c hcur =>
      obtain ⟨hfree, hc, -⟩ := hcurrent hcur
      have hzeros : Contained (s.writeZeros c) := ⟨h.chunks, h.attempts⟩
      exact hzeros.complete hfree hc
  | @responded w _ _ _ first _ c hcur _ =>
      obtain ⟨hfree, hc, hfirst⟩ := hcurrent hcur
      have hrequest := request?_of_current hcur
      exact h.responded hfree hc hfirst (hfit _ hrequest) _
  | received hcur =>
      obtain ⟨hfree, hc, hrest⟩ := hcurrent hcur
      exact h.receive hfree hc hrest ..
  | bodyEnds hcur =>
      obtain ⟨hfree, hc, -⟩ := hcurrent hcur
      exact h.complete hfree hc
  | retries hcur =>
      obtain ⟨hfree, hc, -⟩ := hcurrent hcur
      exact h.attempt hfree hc _
  | givesUp hcur =>
      obtain ⟨hfree, hc, -⟩ := hcurrent hcur
      exact h.requeue hfree hc
  | writeFails hcur | refused hcur | raises hcur =>
      obtain ⟨hfree, hc, -⟩ := hcurrent hcur
      exact h.fail hfree hc
  | joins => exact h.leave rfl fun _ _ _ _ hw => absurd hw not_busy_of_joins

/-- A chunk changes, but not the part of the file that it is. -/
theorem sizes_modify {f : Chunk → Chunk} (hchunks : s'.chunks = s.chunks.modify i f)
    (hf : ∀ c, (f c).size = c.size) : sizes s'.chunks = sizes s.chunks := by
  rw [hchunks]
  unfold sizes
  congr 1
  refine List.ext_getElem? fun j => ?_
  rw [List.getElem?_map, List.getElem?_map, List.getElem?_modify]
  cases s.chunks[j]? with
  | none => rfl
  | some c =>
      show some (if i = j then f c else c).size.toNat = some c.size.toNat
      split
      · rw [hf]
      · rfl

theorem sizes_attempt (s : DownloadSession) (w i retries : Nat) (c : Chunk) (choice : Choice) :
    sizes (s.attempt w i retries c choice).chunks = sizes s.chunks := by
  cases choice with
  | raises | simulated | physical => exact sizes_modify rfl fun _ => rfl

theorem step_sizes (h : s.step e = some s') : sizes s'.chunks = sizes s.chunks := by
  cases step_move h with
  | takes | retries => exact sizes_attempt ..
  | delayed => rw [simulate_chunks]
  | throttled => exact sizes_modify (simulate_chunks ..) fun _ => rfl
  | writeFails | written | refused | received | bodyEnds | raises | givesUp =>
      exact sizes_modify rfl fun _ => rfl
  | leaves | responded | joins => rfl

theorem accounted_le_sizes (h : Contained s) : s.accounted ≤ sizes s.chunks := by
  refine List.sum_le_sum fun c hc => ?_
  obtain ⟨i, hi⟩ := List.mem_iff_getElem?.mp hc
  exact h.chunks i c hi

/-! ## Runs -/

/-- The percentage `_track_speed_loop` reports. -/
def percent (fl : Rounding) (s : DownloadSession) (totalSize : Int) : ℚ :=
  if 0 < totalSize then
    fl.decimals 1 (fl.round (fl.round (s.totalDownloadedBytes / totalSize) * 100))
  else 0

theorem percent_le (fl : Rounding) (hone : fl.round 1 = 1) (hhundred : fl.round 100 = 100)
    {totalSize : Int} (h : s.totalDownloadedBytes ≤ totalSize) : s.percent fl totalSize ≤ 100 := by
  unfold percent
  split
  · next hpos =>
      have hcast : (0 : ℚ) < totalSize := by exact_mod_cast hpos
      have hpart : (s.totalDownloadedBytes : ℚ) / totalSize ≤ 1 :=
        (div_le_one hcast).mpr (by exact_mod_cast h)
      have hratio : fl.round (s.totalDownloadedBytes / totalSize) ≤ 1 :=
        (fl.mono hpart).trans hone.le
      have hpercent : fl.round (fl.round (s.totalDownloadedBytes / totalSize) * 100) ≤ 100 :=
        (fl.mono (by linarith)).trans hhundred.le
      exact_mod_cast fl.decimals_le (n := 100) (by exact_mod_cast hhundred)
        (by exact_mod_cast hpercent) 1
  · norm_num

/-- **The accounting of a run**: in each of its states the total is that of the chunks, and if
`initialize` has made these and the replies fit, it is within the size of the file. -/
structure Accounts (fl : Rounding) (chunks : List Chunk) (s : DownloadSession) (file : Bytes)
    (es : List Event) : Prop where
  total : s.totalDownloadedBytes = s.accounted
  bounded : ∀ (chunkSize totalSize : Int) (acceptRanges : Bool),
    initializeChunks chunkSize totalSize acceptRanges = some (chunks, file) →
    Along step RepliesFit (start chunks file) es →
    s.totalDownloadedBytes ≤ totalSize ∧ s.percent fl totalSize ≤ 100

/-- At every moment of a run. -/
def AlwaysAccounts (fl : Rounding) (chunks : List Chunk) (file : Bytes) (es : List Event) : Prop :=
  ∀ pre s, pre <+: es → runFrom step (start chunks file) pre = some s →
    Accounts fl chunks s file pre

theorem start_accounted {chunks : List Chunk} (hfresh : ∀ c ∈ chunks, c.bytesDownloaded = 0)
    (file : Bytes) : (start chunks file).drift = 0 := by
  have hzero : (start chunks file).accounted = 0 := List.sum_eq_zero fun k hk => by
    obtain ⟨c, hc, rfl⟩ := List.mem_map.mp hk
    exact hfresh c hc
  unfold drift
  rw [hzero]
  rfl

theorem start_contained {chunks : List Chunk} (hfresh : ∀ c ∈ chunks, c.bytesDownloaded = 0)
    (file : Bytes) : Contained (start chunks file) where
  chunks i c hc := by
    show c.bytesDownloaded ≤ c.size.toNat
    rw [hfresh c (List.mem_of_getElem? hc)]
    exact Nat.zero_le _
  attempts w i retries a c hw _ := absurd hw not_busy_of_start

/-- As long as the replies fit, the chunks have no more than their sizes. -/
theorem accounted_le_of_run {chunks : List Chunk} {file : Bytes} {es : List Event}
    (hfresh : ∀ c ∈ chunks, c.bytesDownloaded = 0 ∧ c.status = .pending)
    (hrun : runFrom step (start chunks file) es = some s)
    (hfit : Along step RepliesFit (start chunks file) es) : s.accounted ≤ sizes chunks := by
  have hpooled : Pooled (start chunks file) := start_pooled (fun c hc hcompleted => by
    rw [(hfresh c hc).2] at hcompleted
    cases hcompleted) file
  have h : Pooled s ∧ Contained s ∧ sizes s.chunks = sizes chunks :=
    runFrom_invariant_along (I := fun s => Pooled s ∧ Contained s ∧ sizes s.chunks = sizes chunks)
      (fun _ _ _ h hfit hstep =>
        ⟨h.1.step hstep, h.2.1.step h.1 hfit hstep, (step_sizes hstep).trans h.2.2⟩)
      ⟨hpooled, start_contained (fun c hc => (hfresh c hc).1) file, rfl⟩ hfit hrun
  exact h.2.2 ▸ accounted_le_sizes h.2.1

/-- **The download is accounted for at every moment exactly if no step forgets anything**, for
every list of chunks, every order of the workers, simulated and physical interfaces, and every
failure. -/
theorem run_accounts_iff (fl : Rounding) (hone : fl.round 1 = 1) (hhundred : fl.round 100 = 100)
    (ranges : List (Nat × Int × Int)) (file : Bytes) (es : List Event) (s : DownloadSession)
    (hrun : runFrom step (start (ranges.map fun r => .new r.1 r.2.1 r.2.2) file) es = some s) :
    AlwaysAccounts fl (ranges.map fun r => .new r.1 r.2.1 r.2.2) file es ↔
      Along step NothingForgotten (start (ranges.map fun r => .new r.1 r.2.1 r.2.2) file) es := by
  have hfresh : ∀ c ∈ ranges.map fun r => Chunk.new r.1 r.2.1 r.2.2,
      c.bytesDownloaded = 0 ∧ c.status = .pending := by
    intro c hc
    obtain ⟨r, -, rfl⟩ := List.mem_map.mp hc
    exact ⟨rfl, rfl⟩
  constructor
  · intro halways
    refine along_of_steps hrun fun pre e s₁ s₂ hprefix hpre hstep => ?_
    have hbefore := (halways pre s₁ ((List.prefix_append pre [e]).trans hprefix) hpre).total
    have hafter := (halways _ s₂ hprefix (runFrom_concat hpre hstep)).total
    have hdrift := drift_step hstep
    unfold drift at hdrift
    show s₁.forgotten e = 0
    omega
  · rintro hnothing pre s₁ ⟨post, rfl⟩ hpre
    have hdrift : s₁.drift = 0 :=
      runFrom_invariant_along (I := fun s => s.drift = 0)
        (fun _ _ _ h hzero hstep => by rw [drift_step hstep, h, hzero, add_zero])
        (start_accounted (fun c hc => (hfresh c hc).1) file) (along_append.mp hnothing).1 hpre
    have htotal : s₁.totalDownloadedBytes = s₁.accounted := by
      unfold drift at hdrift
      omega
    refine ⟨htotal, fun chunkSize totalSize acceptRanges hinit hfit => ?_⟩
    have hsizes := initializeChunks_sizes hinit
    have hle := accounted_le_of_run hfresh hpre hfit
    have hbound : (s₁.totalDownloadedBytes : Int) ≤ totalSize := by omega
    exact ⟨hbound, percent_le fl hone hhundred hbound⟩

/-- A simulated chunk, and a physical one that resumes after an exception. -/
theorem run_accounts_resumed :
    AlwaysAccounts .exact ([(0, 0, 1), (1, 2, 3)].map fun r => .new r.1 r.2.1 r.2.2) [0, 0, 0, 0]
      [.loop 0 .simulated, .loop 1 .physical, .delayed 0, .responded 1 206 [97, 98],
        .received 1 1, .raises 1, .throttled 0, .slept 1 .physical, .responded 1 206 [98],
        .written 0, .received 1 1, .bodyEnds 1, .joined] := by
  obtain ⟨s, hrun⟩ := Option.isSome_iff_exists.mp
    (show (runFrom step (start ([(0, 0, 1), (1, 2, 3)].map fun r => .new r.1 r.2.1 r.2.2)
      [0, 0, 0, 0]) [.loop 0 .simulated, .loop 1 .physical, .delayed 0, .responded 1 206 [97, 98],
        .received 1 1, .raises 1, .throttled 0, .slept 1 .physical, .responded 1 206 [98],
        .written 0, .received 1 1, .bodyEnds 1, .joined]).isSome by decide +kernel)
  exact (run_accounts_iff .exact rfl rfl _ _ _ s hrun).mpr (by decide +kernel)

/-- All attempts at a chunk fail, the first one after its two bytes, and it is loaded again from
the queue. -/
def failsAndReturns : List Event :=
  [.loop 0 .physical, .responded 0 206 [97, 98], .received 0 2, .raises 0, .slept 0 .raises,
    .slept 0 .raises, .slept 0 .raises, .loop 0 .physical, .responded 0 206 [97, 98],
    .received 0 2]

/-- The total is then four bytes, of a file of two. -/
theorem requeued_bytes_counted_twice :
    ¬ ∀ (ranges : List (Nat × Int × Int)) (file : Bytes) (es : List Event) (s : DownloadSession),
      runFrom step (start (ranges.map fun r => .new r.1 r.2.1 r.2.2) file) es = some s →
      AlwaysAccounts .exact (ranges.map fun r => .new r.1 r.2.1 r.2.2) file es := by
  intro h
  have htotal : (runFrom step (start ([(0, 0, 1)].map fun r => .new r.1 r.2.1 r.2.2) [0, 0])
      failsAndReturns).map (fun s => (s.totalDownloadedBytes, s.accounted)) = some (4, 2) := by
    decide +kernel
  obtain ⟨s, hrun, heq⟩ := Option.map_eq_some_iff.mp htotal
  obtain ⟨hfour, htwo⟩ := Prod.mk.inj heq
  have hsame := (h _ _ _ s hrun _ s List.prefix_rfl hrun).total
  rw [hfour, htwo] at hsame
  cases hsame

end DownloadSession

end AetherBond.Client
