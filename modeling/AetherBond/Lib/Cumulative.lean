import Mathlib.Tactic

set_option autoImplicit false

/-! # Selection by cumulative weight

The elements of a list own adjacent pieces of a line, each as long as its weight, in the order of
the list. `pickAt w r c l` walks along the pieces, the first of which starts at `c`, and gives the
place of the element whose piece `r` lies in; a piece contains its right end and not its left, and
the first one contains everything to its left (`pickAt_eq_some_iff`). Nothing that does not exceed
the whole weight lies outside the pieces (`exists_pickAt`).
-/

namespace AetherBond.Lib

variable {α K : Type*} [AddCommGroup K]

/-- The weight in front of place `i`. -/
def before (w : α → K) (l : List α) (i : Nat) : K := ((l.take i).map w).sum

/-- The place of the first element with which the weight from `c` on reaches `r`. -/
def pickAt [LE K] [DecidableLE K] (w : α → K) (r : K) : K → List α → Option Nat
  | _, [] => none
  | c, x :: l => if r ≤ c + w x then some 0 else (pickAt w r (c + w x) l).map (· + 1)

variable {w : α → K} {r c : K} {l : List α} {x : α} {i : Nat}

@[simp] theorem before_zero (w : α → K) (l : List α) : before w l 0 = 0 := rfl

theorem before_cons_succ (w : α → K) (x : α) (l : List α) (i : Nat) :
    before w (x :: l) (i + 1) = w x + before w l i := by
  unfold before
  rw [List.take_succ_cons, List.map_cons, List.sum_cons]

theorem before_succ (h : l[i]? = some x) : before w l (i + 1) = before w l i + w x := by
  unfold before
  rw [List.take_add_one, h, Option.toList_some, List.map_append, List.sum_append,
    List.map_singleton, List.sum_singleton]

theorem before_length (w : α → K) (l : List α) : before w l l.length = (l.map w).sum := by
  unfold before
  rw [List.take_length]

variable [LinearOrder K]

/-- What does not exceed the whole weight lies in a piece. -/
theorem exists_pickAt (hl : l ≠ []) (hr : r ≤ c + (l.map w).sum) :
    ∃ i, pickAt w r c l = some i := by
  induction l generalizing c with
  | nil => exact absurd rfl hl
  | cons x l ih =>
      unfold pickAt
      by_cases hle : r ≤ c + w x
      · exact ⟨0, if_pos hle⟩
      · rw [List.map_cons, List.sum_cons, ← add_assoc] at hr
        have hne : l ≠ [] := by
          rintro rfl
          exact hle (by simpa using hr)
        obtain ⟨i, hi⟩ := ih hne hr
        exact ⟨i + 1, by rw [if_neg hle, hi]; rfl⟩

variable [IsOrderedAddMonoid K]

theorem before_nonneg (hw : ∀ x ∈ l, 0 ≤ w x) (i : Nat) : 0 ≤ before w l i := by
  apply List.sum_nonneg
  intro y hy
  obtain ⟨x, hx, rfl⟩ := List.mem_map.mp hy
  exact hw x (List.mem_of_mem_take hx)

theorem before_mono (hw : ∀ x ∈ l, 0 ≤ w x) {j : Nat} (hij : i ≤ j) :
    before w l i ≤ before w l j := by
  induction hij with
  | refl => exact le_rfl
  | @step j _ ih =>
      refine ih.trans ?_
      cases hx : l[j]? with
      | none =>
          have hlen := List.getElem?_eq_none_iff.mp hx
          unfold before
          rw [List.take_of_length_le hlen, List.take_of_length_le (Nat.le_succ_of_le hlen)]
      | some x =>
          rw [before_succ hx]
          exact le_add_of_nonneg_right (hw x (List.mem_of_getElem? hx))

/-- **The piece of the picked element contains `r`.** -/
theorem pickAt_eq_some_iff (hw : ∀ x ∈ l, 0 ≤ w x) :
    pickAt w r c l = some i ↔
      i < l.length ∧ (i = 0 ∨ c + before w l i < r) ∧ r ≤ c + before w l (i + 1) := by
  induction l generalizing c i with
  | nil => simp [pickAt]
  | cons x l ih =>
      have hl : ∀ y ∈ l, 0 ≤ w y := fun y hy => hw y (List.mem_cons_of_mem _ hy)
      unfold pickAt
      by_cases hle : r ≤ c + w x
      · rw [if_pos hle, Option.some_inj]
        cases i with
        | zero => simpa [before_cons_succ] using hle
        | succ j =>
            -- no later piece starts before the end of the first
            have hpos := before_nonneg hl j
            rw [before_cons_succ, ← add_assoc]
            constructor
            · exact fun h => nomatch h
            · rintro ⟨-, hzero | hlt, -⟩
              · cases hzero
              · exact absurd (hlt.trans_le hle) (not_lt.mpr (le_add_of_nonneg_right hpos))
      · rw [if_neg hle]
        cases i with
        | zero =>
            have hnot : ¬ r ≤ c + before w (x :: l) 1 := by
              rwa [before_cons_succ, before_zero, add_zero]
            constructor
            · intro h
              obtain ⟨j, -, hj⟩ := Option.map_eq_some_iff.mp h
              cases hj
            · exact fun h => absurd h.2.2 hnot
        | succ j =>
            have hstep : (pickAt w r (c + w x) l).map (· + 1) = some (j + 1) ↔
                pickAt w r (c + w x) l = some j := by
              rw [Option.map_eq_some_iff]
              constructor
              · rintro ⟨k, hk, heq⟩
                rw [hk, Nat.succ_injective heq]
              · exact fun h => ⟨j, h, rfl⟩
            rw [hstep, ih hl, before_cons_succ, before_cons_succ, ← add_assoc, ← add_assoc,
              List.length_cons, Nat.succ_lt_succ_iff]
            have hfirst : (j = 0 ∨ c + w x + before w l j < r) ↔
                (j + 1 = 0 ∨ c + w x + before w l j < r) := by
              constructor
              · rintro (rfl | hlt)
                · exact .inr (by simpa using hle)
                · exact .inr hlt
              · rintro (hzero | hlt)
                · cases hzero
                · exact .inr hlt
            rw [hfirst]

end AetherBond.Lib
