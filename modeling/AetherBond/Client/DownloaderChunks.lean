import AetherBond.Client.Downloader
import AetherBond.Lib.Intervals

set_option autoImplicit false

/-! # The chunks of a file

`initialize` rejects a file without content, and cuts any other into chunks; only the chunk size
is taken as it comes. With a positive one, or without ranges, the chunks partition the file. A
chunk size of 0 raises, and with a negative one no chunk contains the first byte
(`initializeChunks_partition_iff`).
-/

namespace AetherBond.Client

open AetherBond.Lib

/-- The byte range of a chunk. -/
def Chunk.range (c : Chunk) : Int × Int := (c.start, c.stop)

/-- The chunks, in the order of their indices, partition the bytes of the file. -/
structure Partition (totalSize : Int) (chunks : List Chunk) : Prop where
  inOrder : chunks.map Chunk.index = List.range chunks.length
  nonempty : ∀ c ∈ chunks, c.start ≤ c.stop
  contiguous : ∀ (i : Nat) (c d : Chunk), chunks[i]? = some c → chunks[i + 1]? = some d →
    d.start = c.stop + 1
  disjoint : chunks.Pairwise fun c d => c.stop < d.start
  covers : ∀ k : Int, (∃ c ∈ chunks, c.start ≤ k ∧ k ≤ c.stop) ↔ 0 ≤ k ∧ k ≤ totalSize - 1

/-- A tiling of the file by the chunks is a partition. -/
theorem Partition.of_tiles {totalSize : Int} {chunks : List Chunk}
    (hindex : chunks.map Chunk.index = List.range chunks.length)
    (h : Tiles 0 (totalSize - 1) (chunks.map Chunk.range)) : Partition totalSize chunks where
  inOrder := hindex
  nonempty c hc := h.nonempty c.range (List.mem_map_of_mem hc)
  contiguous i c d hc hd := by
    have hc' : (chunks.map Chunk.range)[i]? = some c.range := by rw [List.getElem?_map, hc]; rfl
    have hd' : (chunks.map Chunk.range)[i + 1]? = some d.range := by
      rw [List.getElem?_map, hd]
      rfl
    exact h.contiguous hc' hd'
  disjoint := List.pairwise_map.mp h.pairwise
  covers k := by
    rw [← h.covers_iff k]
    constructor
    · rintro ⟨c, hc, hin⟩
      exact ⟨c.range, List.mem_map_of_mem hc, hin⟩
    · rintro ⟨x, hx, hin⟩
      obtain ⟨c, hc, rfl⟩ := List.mem_map.mp hx
      exact ⟨c, hc, hin⟩

namespace DownloadSession

variable {chunkSize totalSize : Int}

/-- The chunk number `i` of `initialize` if the server accepts ranges. -/
def rangedChunk (chunkSize totalSize : Int) (i : Nat) : Chunk :=
  .new i (i * chunkSize) (min (i * chunkSize + chunkSize - 1) (totalSize - 1))

theorem tiles_single (hpos : 0 < totalSize) :
    Tiles 0 (totalSize - 1) ([.new 0 0 (totalSize - 1)].map Chunk.range) := by
  refine ⟨rfl, ?_, rfl⟩
  show (0 : Int) ≤ totalSize - 1
  omega

theorem tiles_ranged (hpos : 0 < totalSize) (hsize : 0 < chunkSize) :
    Tiles 0 (totalSize - 1)
      (((List.range ((totalSize + chunkSize - 1).fdiv chunkSize).toNat).map
        (rangedChunk chunkSize totalSize)).map Chunk.range) := by
  have htiles := tiles_pieces hsize (show 0 ≤ totalSize - 1 by omega)
  rw [Int.fdiv_eq_ediv_of_nonneg _ hsize.le, List.map_map,
    show totalSize + chunkSize - 1 = totalSize - 1 + chunkSize by ring]
  exact htiles

theorem partition_single (hpos : 0 < totalSize) :
    Partition totalSize [.new 0 0 (totalSize - 1)] :=
  Partition.of_tiles rfl (tiles_single hpos)

theorem partition_ranged (hpos : 0 < totalSize) (hsize : 0 < chunkSize) :
    Partition totalSize
      ((List.range ((totalSize + chunkSize - 1).fdiv chunkSize).toNat).map
        (rangedChunk chunkSize totalSize)) := by
  refine Partition.of_tiles ?_ (tiles_ranged hpos hsize)
  rw [List.map_map, List.length_map, List.length_range]
  exact List.map_id _

/-- With a negative chunk size a chunk ends before it starts. -/
theorem size_rangedChunk_neg (hsize : chunkSize < 0) (i : Nat) :
    (rangedChunk chunkSize totalSize i).size ≤ 0 := by
  have hmin : (rangedChunk chunkSize totalSize i).stop ≤ i * chunkSize + chunkSize - 1 :=
    min_le_left _ _
  have hstart : (rangedChunk chunkSize totalSize i).start = i * chunkSize := rfl
  unfold Chunk.size
  omega

/-- With a negative chunk size no chunk contains the first byte of the file. -/
theorem not_partition_ranged (hpos : 0 < totalSize) (hsize : chunkSize < 0) (count : Nat) :
    ¬ Partition totalSize ((List.range count).map (rangedChunk chunkSize totalSize)) := by
  intro h
  obtain ⟨c, hc, -⟩ := (h.covers 0).mpr (by omega)
  have hle := h.nonempty c hc
  obtain ⟨i, -, rfl⟩ := List.mem_map.mp hc
  have hneg : (rangedChunk chunkSize totalSize i).size ≤ 0 := size_rangedChunk_neg hsize i
  unfold Chunk.size at hneg
  omega

/-- **The chunks partition the file exactly if the chunk size is positive or ranges are not
accepted**, for every size, whenever `initialize` succeeds. -/
theorem initializeChunks_partition_iff (chunkSize totalSize : Int) (acceptRanges : Bool)
    (chunks : List Chunk) (file : Bytes)
    (hinit : initializeChunks chunkSize totalSize acceptRanges = some (chunks, file)) :
    0 < totalSize ∧
      (Partition totalSize chunks ↔ (acceptRanges = true → 0 < chunkSize)) := by
  unfold initializeChunks at hinit
  dsimp only at hinit
  split at hinit
  · cases hinit
  · next hpos =>
      refine ⟨not_le.mp hpos, ?_⟩
      cases acceptRanges with
      | false =>
          obtain ⟨rfl, -⟩ := Prod.mk.inj (Option.some.inj hinit)
          exact ⟨fun _ h => absurd h Bool.false_ne_true, fun _ => partition_single (not_le.mp hpos)⟩
      | true =>
          rw [if_pos rfl] at hinit
          split at hinit
          · cases hinit
          -- a chunk size of 0 has raised
          · next hzero =>
              obtain ⟨rfl, -⟩ := Prod.mk.inj (Option.some.inj hinit)
              constructor
              · intro h _
                by_contra hneg
                exact not_partition_ranged (not_le.mp hpos) (by omega) _ h
              · exact fun h => partition_ranged (not_le.mp hpos) (h rfl)

/-- The bytes of the file that the chunks ask for. -/
def sizes (chunks : List Chunk) : Nat := (chunks.map fun c => c.size.toNat).sum

theorem sizes_of_tiles {chunks : List Chunk}
    (h : Tiles 0 (totalSize - 1) (chunks.map Chunk.range)) : (sizes chunks : Int) = totalSize := by
  have hsum := h.sum_lengths
  rw [List.map_map] at hsum
  exact hsum.trans (by omega)

/-- The chunks are no larger than the file together, whatever the chunk size. -/
theorem initializeChunks_sizes {chunkSize totalSize : Int} {acceptRanges : Bool}
    {chunks : List Chunk} {file : Bytes}
    (hinit : initializeChunks chunkSize totalSize acceptRanges = some (chunks, file)) :
    (sizes chunks : Int) ≤ totalSize := by
  unfold initializeChunks at hinit
  dsimp only at hinit
  split_ifs at hinit with hempty hranges hzero
  · obtain ⟨rfl, -⟩ := Prod.mk.inj (Option.some.inj hinit)
    obtain hneg | hpos := lt_or_gt_of_ne hzero
    · have hnone : sizes ((List.range ((totalSize + chunkSize - 1).fdiv chunkSize).toNat).map
          (rangedChunk chunkSize totalSize)) = 0 := by
        refine List.sum_eq_zero fun k hk => ?_
        obtain ⟨c, hc, rfl⟩ := List.mem_map.mp hk
        obtain ⟨i, -, rfl⟩ := List.mem_map.mp hc
        exact Int.toNat_of_nonpos (size_rangedChunk_neg hneg i)
      exact (congrArg Nat.cast hnone).le.trans (by omega)
    · exact (sizes_of_tiles (tiles_ranged (by omega) hpos)).le
  · obtain ⟨rfl, -⟩ := Prod.mk.inj (Option.some.inj hinit)
    exact (sizes_of_tiles (tiles_single (by omega))).le

/-- Ten bytes in chunks of four. -/
theorem initializeChunks_partition_four :
    0 < (10 : Int) ∧ Partition 10 [.new 0 0 3, .new 1 4 7, .new 2 8 9] := by
  obtain ⟨hpos, hpartition⟩ := initializeChunks_partition_iff 4 10 true
    [.new 0 0 3, .new 1 4 7, .new 2 8 9] (List.replicate 10 0) (by decide)
  exact ⟨hpos, hpartition.mpr fun _ => by decide⟩

/-- Ten bytes in chunks of minus five: no chunk at all. -/
theorem negative_chunk_size_no_chunks :
    ¬ ∀ (chunkSize totalSize : Int) (acceptRanges : Bool) (chunks : List Chunk) (file : Bytes),
      initializeChunks chunkSize totalSize acceptRanges = some (chunks, file) →
      0 < totalSize ∧ Partition totalSize chunks := by
  intro h
  obtain ⟨-, hpart⟩ := h (-5) 10 true [] (List.replicate 10 0) (by decide)
  obtain ⟨c, hc, -⟩ := (hpart.covers 0).mpr (by decide)
  cases hc

end DownloadSession

end AetherBond.Client
