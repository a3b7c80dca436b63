import Mathlib.Tactic

set_option autoImplicit false

/-! # Tilings of an integer interval

`Tiles a b l` says that the intervals of `l`, each given by its two ends and both of these
included, follow each other without a gap from `a` up to `b`, none of them empty. Such a list is
pairwise disjoint and covers exactly the numbers from `a` to `b` (`Tiles.pairwise`,
`Tiles.covers_iff`). `tiles_pieces` is the tiling by pieces of one size, with what is left over
as the last piece.
-/

namespace AetherBond.Lib

/-- The intervals of the list are non-empty and follow each other from `a` up to `b`. -/
def Tiles : Int → Int → List (Int × Int) → Prop
  | a, b, [] => b + 1 = a
  | a, b, x :: l => x.1 = a ∧ a ≤ x.2 ∧ Tiles (x.2 + 1) b l

namespace Tiles

variable {a b : Int} {l : List (Int × Int)}

/-- A tiling ends where its list does. -/
theorem le (h : Tiles a b l) : a ≤ b + 1 := by
  induction l generalizing a with
  | nil => exact h.ge
  | cons x l ih =>
      obtain ⟨-, hle, hrest⟩ := h
      have := ih hrest
      omega

theorem nonempty (h : Tiles a b l) : ∀ x ∈ l, x.1 ≤ x.2 := by
  induction l generalizing a with
  | nil => exact fun x hx => absurd hx List.not_mem_nil
  | cons y l ih =>
      obtain ⟨rfl, hle, hrest⟩ := h
      intro x hx
      rcases List.mem_cons.mp hx with rfl | hx
      · exact hle
      · exact ih hrest x hx

/-- Every interval lies in what is tiled. -/
theorem inside (h : Tiles a b l) : ∀ x ∈ l, a ≤ x.1 ∧ x.2 ≤ b := by
  induction l generalizing a with
  | nil => exact fun x hx => absurd hx List.not_mem_nil
  | cons y l ih =>
      obtain ⟨rfl, hle, hrest⟩ := h
      intro x hx
      rcases List.mem_cons.mp hx with rfl | hx
      · exact ⟨le_rfl, by have := hrest.le; omega⟩
      · obtain ⟨hlow, hhigh⟩ := ih hrest x hx
        exact ⟨by omega, hhigh⟩

/-- **The intervals are disjoint**: each one ends before any later one starts. -/
theorem pairwise (h : Tiles a b l) : l.Pairwise fun x y => x.2 < y.1 := by
  induction l generalizing a with
  | nil => exact List.Pairwise.nil
  | cons x l ih =>
      obtain ⟨-, -, hrest⟩ := h
      refine List.pairwise_cons.mpr ⟨fun y hy => ?_, ih hrest⟩
      have := (hrest.inside y hy).1
      omega

/-- The intervals are as long together as what is tiled. -/
theorem sum_lengths (h : Tiles a b l) :
    (((l.map fun x => (x.2 - x.1 + 1).toNat).sum : Nat) : Int) = b - a + 1 := by
  induction l generalizing a with
  | nil =>
      have hend : b + 1 = a := h
      rw [List.map_nil, List.sum_nil]
      omega
  | cons x l ih =>
      obtain ⟨rfl, hle, hrest⟩ := h
      have hsum := ih hrest
      rw [List.map_cons, List.sum_cons]
      omega

/-- **The intervals cover** exactly what is tiled. -/
theorem covers_iff (h : Tiles a b l) (k : Int) :
    (∃ x ∈ l, x.1 ≤ k ∧ k ≤ x.2) ↔ a ≤ k ∧ k ≤ b := by
  constructor
  · rintro ⟨x, hx, hlow, hhigh⟩
    obtain ⟨ha, hb⟩ := h.inside x hx
    omega
  · intro hk
    induction l generalizing a with
    | nil =>
        have hend : b + 1 = a := h
        omega
    | cons x l ih =>
        obtain ⟨rfl, -, hrest⟩ := h
        by_cases hfirst : k ≤ x.2
        · exact ⟨x, List.mem_cons_self, hk.1, hfirst⟩
        · obtain ⟨y, hy, hin⟩ := ih hrest (by omega)
          exact ⟨y, List.mem_cons_of_mem _ hy, hin⟩

/-- **The intervals are contiguous.** -/
theorem contiguous (h : Tiles a b l) {i : Nat} {x y : Int × Int} (hx : l[i]? = some x)
    (hy : l[i + 1]? = some y) : y.1 = x.2 + 1 := by
  induction l generalizing a i with
  | nil => cases hx
  | cons z l ih =>
      obtain ⟨-, -, hrest⟩ := h
      cases i with
      | succ i => exact ih hrest hx hy
      | zero =>
          obtain rfl := Option.some.inj hx
          cases l with
          | nil => cases hy
          | cons w l =>
              obtain rfl := Option.some.inj hy
              exact hrest.1

end Tiles

/-- Piece `i` of an interval that starts at 0 and ends at `b`, cut into pieces of one size. -/
def piece (size b : Int) (i : Nat) : Int × Int :=
  (i * size, min (i * size + size - 1) b)

/-- The pieces from number `first` on. -/
theorem tiles_pieces_from {size b : Int} (hsize : 0 < size) {first count : Nat}
    (hmore : (first + count - 1) * size ≤ b) (hall : b < (first + count) * size)
    (hcount : 0 < count) :
    Tiles (first * size) b ((List.range' first count).map (piece size b)) := by
  induction count generalizing first with
  | zero => exact absurd hcount (lt_irrefl 0)
  | succ count ih =>
      rw [List.range'_succ, List.map_cons]
      have hcast : ((first + 1 : Nat) : Int) * size = first * size + size := by push_cast; ring
      rcases Nat.eq_zero_or_pos count with rfl | hpos
      · -- the last piece
        have hfirst : (first : Int) * size ≤ b := by simpa using hmore
        have hend : b < first * size + size := by
          have := hall
          push_cast at this
          linarith
        refine ⟨rfl, le_min (by omega) hfirst, ?_⟩
        show b + 1 = min (first * size + size - 1) b + 1
        omega
      -- a full piece, and the others from its end on
      · have hnext : (first : Int) * size + size ≤ b := by
          have hle : ((first : Int) + 1) * size ≤ (first + (count + 1 : Nat) - 1) * size :=
            mul_le_mul_of_nonneg_right (by push_cast; omega) hsize.le
          linarith
        have hrest : Tiles (((first + 1 : Nat) : Int) * size) b
            ((List.range' (first + 1) count).map (piece size b)) :=
          ih (by push_cast at hmore ⊢; linarith) (by push_cast at hall ⊢; linarith) hpos
        refine ⟨rfl, le_min (by omega) (by omega), ?_⟩
        have hstop : (piece size b first).2 + 1 = ((first + 1 : Nat) : Int) * size := by
          show min (first * size + size - 1) b + 1 = _
          omega
        rw [hstop]
        exact hrest

/-- **The pieces tile the interval** if their number is the quotient, rounded up. -/
theorem tiles_pieces {size b : Int} (hsize : 0 < size) (hb : 0 ≤ b) :
    Tiles 0 b ((List.range ((b + size) / size).toNat).map (piece size b)) := by
  set count := (b + size) / size with hcount
  have hone : 1 ≤ count := (Int.le_ediv_iff_mul_le hsize).mpr (by linarith)
  have hcast : ((count.toNat : Nat) : Int) = count := Int.toNat_of_nonneg (by omega)
  -- what the division says about `count`, without the division
  have hlow : count * size ≤ b + size := Int.ediv_mul_le _ hsize.ne'
  have hhigh : b + size < (count + 1) * size := Int.lt_ediv_add_one_mul_self _ hsize
  have h : Tiles (((0 : Nat) : Int) * size) b ((List.range' 0 count.toNat).map (piece size b)) :=
    tiles_pieces_from hsize (by rw [hcast]; push_cast; linarith)
      (by rw [hcast]; push_cast; linarith) (by omega)
  rw [List.range_eq_range']
  simpa using h

end AetherBond.Lib
