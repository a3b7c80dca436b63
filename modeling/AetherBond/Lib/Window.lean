import Mathlib.Tactic

set_option autoImplicit false

/-! # Sliding windows, and the ring that stores one

A window of size `m` over a history is its `m` most recent elements. Histories are lists with
the most recent element first, so the window is `List.take m`, and what has left it is
`List.drop m`. `slide m` adds an element that is not in the window (`slideAll` for many), and
`RingOf` says that the cells of a ring buffer hold the window, each cell the last element
written to it.
-/

namespace AetherBond.Lib

variable {α : Type*}

/-! ## Windows -/

/-- What has left the window does not come back. -/
theorem mem_drop_of_suffix {m : Nat} {history history' : List α} (h : history <:+ history') {x : α}
    (hx : x ∈ history.drop m) : x ∈ history'.drop m := by
  obtain ⟨recent, rfl⟩ := h
  rw [List.drop_append]
  exact List.mem_append_right _ (List.drop_subset_drop_left _ (Nat.sub_le m _) hx)

/-- The window after an arrival. -/
theorem mem_take_cons {m : Nat} {history : List α} {x y : α} (hm : 0 < m) :
    y ∈ (x :: history).take m ↔ y = x ∨ y ∈ history.take (m - 1) := by
  obtain ⟨k, rfl⟩ := Nat.exists_eq_succ_of_ne_zero hm.ne'
  rw [List.take_succ_cons, List.mem_cons, Nat.succ_sub_one]

section Window

variable [DecidableEq α] {m : Nat}

/-- One element arrives: it is taken unless it is in the window. -/
def slide (m : Nat) (history : List α) (x : α) : List α :=
  if x ∈ history.take m then history else x :: history

/-- The history after a list of arrivals. -/
def slideAll (m : Nat) (xs : List α) : List α := xs.foldl (slide m) []

theorem slideAll_concat (xs : List α) (x : α) :
    slideAll m (xs ++ [x]) = slide m (slideAll m xs) x := by
  simp [slideAll]

/-- A history only grows, at its recent end. -/
theorem slideAll_suffix (xs ys : List α) : slideAll m xs <:+ slideAll m (xs ++ ys) := by
  induction ys using List.reverseRecOn with
  | nil => rw [List.append_nil]
  | append_singleton ys y ih =>
      rw [← List.append_assoc, slideAll_concat]
      unfold slide
      split_ifs
      · exact ih
      · exact ih.trans (List.suffix_cons y _)

end Window

/-! ## Rings -/

/-- The cells of a ring of size `m` after `history` was written to it, one cell after the other
and round again, from cell 0 on; a cell not written yet holds `fill`. From the cell that is
written next on, the cells hold the window with its oldest element first. -/
structure RingOf (fill : α) (m : Nat) (history cells : List α) : Prop where
  length : cells.length = m
  cell : ∀ j, j < m →
    cells[(history.length + j) % m]? = some ((history[m - 1 - j]?).getD fill)

namespace RingOf

variable {fill : α} {m : Nat} {history cells : List α}

theorem init (fill : α) (m : Nat) : RingOf fill m [] (List.replicate m fill) where
  length := List.length_replicate
  cell j hj := by
    have hlt : (([] : List α).length + j) % m < m := Nat.mod_lt _ (by omega)
    rw [List.getElem?_replicate, if_pos hlt]
    rfl

/-- The cell that is written next holds the oldest element of a full window. -/
theorem oldest (h : RingOf fill m history cells) (hm : 0 < m) :
    cells[history.length % m]? = some ((history[m - 1]?).getD fill) := h.cell 0 hm

/-- **A write** overwrites the oldest cell. -/
theorem write (h : RingOf fill m history cells) (x : α) :
    RingOf fill m (x :: history) (cells.set (history.length % m) x) where
  length := by rw [List.length_set, h.length]
  cell j hj := by
    have hidx : history.length % m < cells.length := by
      rw [h.length]
      exact Nat.mod_lt _ (by omega)
    rw [List.length_cons]
    by_cases hlast : j = m - 1
    · -- the cell just written, a whole round ahead
      have hround : history.length + 1 + j = history.length + m := by omega
      have hnewest : m - 1 - j = 0 := by omega
      rw [hround, Nat.add_mod_right, List.getElem?_set_self hidx, hnewest]
      rfl
    · have hne : history.length % m ≠ (history.length + (j + 1)) % m := by
        intro heq
        have hdvd : m ∣ (history.length + (j + 1)) - history.length :=
          (Nat.modEq_iff_dvd' (Nat.le_add_right _ _)).mp heq
        rw [Nat.add_sub_cancel_left] at hdvd
        have := Nat.le_of_dvd (Nat.succ_pos j) hdvd
        omega
      have hprev : m - 1 - j = (m - 1 - (j + 1)) + 1 := by omega
      have hcell := h.cell (j + 1) (by omega)
      rw [Nat.add_assoc, Nat.add_comm 1 j, List.getElem?_set_ne hne, hcell, hprev]
      rfl

end RingOf

end AetherBond.Lib
