import AetherBond.Client.DownloaderFile

set_option autoImplicit false

/-! # What a step of the download touches

An event is of one worker, or it is the return of `join`. A worker leaves the other workers where
they are (`Frame`), and no step changes which part of the file a chunk is (`step_sameRanges`).
-/

namespace AetherBond.Client

open AetherBond.Lib

namespace DownloadSession

variable {s s' : DownloadSession} {e : Event} {w : Nat}

/-- The worker an event is of. -/
def Event.worker? : Event → Option Nat
  | .loop w _ | .delayed w | .throttled w | .written w | .responded w _ _ | .received w _
  | .bodyEnds w | .raises w | .slept w _ => some w
  | .joined => none

/-- Bytes come with the event. -/
def Event.arrives : Event → Bool
  | .throttled _ | .received _ _ => true
  | _ => false

/-- A chunk has changed, but not its range. -/
def SameRanges (s s' : DownloadSession) : Prop :=
  ∃ (i : Nat) (f : Chunk → Chunk), s'.chunks = s.chunks.modify i f ∧ KeepsRange f

/-- Worker `w` has moved, and has changed a chunk. -/
structure Frame (w : Nat) (s s' : DownloadSession) : Prop where
  workers : ∀ u ≠ w, s'.workers[u]? = s.workers[u]?
  chunks : SameRanges s s'

theorem sameRanges_of_eq (h : s'.chunks = s.chunks) : SameRanges s s' :=
  ⟨0, id, h.trans (List.modify_id 0 s.chunks).symm, fun _ => ⟨rfl, rfl⟩⟩

theorem frame_set {pc : WorkerPc} (hworkers : s'.workers = s.workers.set w pc)
    (hchunks : SameRanges s s') : Frame w s s' := by
  refine ⟨fun u hu => ?_, hchunks⟩
  rw [hworkers]
  exact List.getElem?_set_ne (Ne.symm hu)

theorem frame_attempt (queue : List Nat) (i retries : Nat) (c : Chunk) (choice : Choice) :
    Frame w s ({ s with queue := queue }.attempt w i retries c choice) := by
  cases choice with
  | raises | simulated | physical => exact frame_set rfl ⟨i, _, rfl, fun _ => ⟨rfl, rfl⟩⟩

theorem frame_simulate {s₁ : DownloadSession} (hworkers : s₁.workers = s.workers)
    (hchunks : SameRanges s s₁) (j retries : Nat) (c : Chunk) (downloaded : Nat) :
    Frame w s (s₁.simulate w j retries c downloaded) := by
  have hset : ∀ pc, (s₁.setWorker w pc).workers = s.workers.set w pc := by
    intro pc
    unfold setWorker
    rw [hworkers]
  unfold simulate
  split_ifs
  · exact frame_set (hset _) hchunks
  · exact frame_set (hset _) hchunks

theorem frame_advance (s : DownloadSession) (w i retries : Nat) (c : Chunk) (downloaded : Nat) :
    Frame w s (s.advance w i retries c downloaded) := by
  unfold advance
  dsimp only
  refine frame_simulate ?_ ?_ i retries c _
  · rfl
  · exact ⟨i, _, rfl, fun _ => ⟨rfl, rfl⟩⟩

theorem frame_step (h : s.step e = some s') (hw : e.worker? = some w) : Frame w s s' := by
  cases step_move h with
  | leaves | responded => cases hw; exact frame_set rfl (sameRanges_of_eq rfl)
  | takes => cases hw; exact frame_attempt ..
  | retries => cases hw; exact frame_attempt s.queue ..
  | delayed => cases hw; exact frame_simulate rfl (sameRanges_of_eq rfl) ..
  | throttled => cases hw; exact frame_advance ..
  | @writeFails _ i | @written _ i | @refused _ i | @received _ i | @bodyEnds _ i | @raises _ i
  | @givesUp _ i => cases hw; exact frame_set rfl ⟨i, _, rfl, fun _ => ⟨rfl, rfl⟩⟩
  | joins => cases hw

theorem step_sameRanges (h : s.step e = some s') : SameRanges s s' := by
  cases hw : e.worker? with
  | some w => exact (frame_step h hw).chunks
  | none =>
      cases step_move h with
      | joins => exact sameRanges_of_eq rfl
      | _ => cases hw

end DownloadSession

end AetherBond.Client
