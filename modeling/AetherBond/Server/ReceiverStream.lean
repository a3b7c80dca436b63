import AetherBond.Server.ReceiverSteps

set_option autoImplicit false

/-! # The resequencing buffer on a numbered list

When every packet put under number `i` carries element `i` of a list `l`, the packets the buffer
releases carry a part of `l` in the order of `l` (`Follows`); and of the elements that some `g`
selects, all up to `expected_seq`, if the flush task gives up on none of these (`Misses`,
`Complete`). The list may grow while the buffer runs.
-/

namespace AetherBond.Server.ResequencingBuffer

open AetherBond.Lib

/-- The elements at consecutive positions. -/
theorem take_eq_take_append {α : Type*} (l : List α) {m n : Nat} (h : m ≤ n) :
    l.take n = l.take m ++ (List.range' m (n - m)).filterMap (l[·]?) := by
  obtain ⟨d, rfl⟩ := Nat.exists_eq_add_of_le h
  rw [Nat.add_sub_cancel_left]
  clear h
  induction d with
  | zero => exact (List.append_nil _).symm
  | succ d ih =>
      rw [← Nat.add_assoc, List.take_add_one, ih, List.range'_concat, List.filterMap_append,
        List.append_assoc, Nat.one_mul]
      cases hx : l[m + d]? with
      | none => rw [List.filterMap_cons_none hx]; rfl
      | some x => rw [List.filterMap_cons_some hx]; rfl

variable {P σ α β : Type*} {callback : Callback P σ} {b b' : ResequencingBuffer P} {st st' : σ}
  {e : Event P} {run : List (Entry P)} {f : P → α} {g : α → Option β} {l l' : List α}

/-- Everything in the buffer carries the element at its number, and what was delivered is a part
of the elements below `expected_seq`. -/
structure Follows (f : P → α) (l : List α) (b : ResequencingBuffer P) : Prop where
  heap : ∀ x ∈ b.heap, l[x.seq]? = some (f x.payload)
  bounded : b.expectedSeq ≤ l.length
  delivered : (b.delivered.map fun x => f x.2).Sublist (l.take b.expectedSeq)

theorem init_follows (f : P → α) (l : List α) (flushTimeout : Int) :
    Follows f l (init flushTimeout) where
  heap := by simp [init]
  bounded := Nat.zero_le _
  delivered := List.nil_sublist _

/-- The list may grow. -/
theorem Follows.mono (h : Follows f l b) (hl : l <+: l') : Follows f l' b := by
  obtain ⟨new, rfl⟩ := hl
  refine ⟨fun x hx => ?_, h.bounded.trans (by simp), ?_⟩
  · have hget := h.heap x hx
    obtain ⟨hlt, -⟩ := List.getElem?_eq_some_iff.mp hget
    rw [List.getElem?_append_left hlt]
    exact hget
  · rw [List.take_append_of_le_length h.bounded]
    exact h.delivered

/-- The entries of an effect carry the elements at their numbers. -/
theorem Effect.follows (heff : Effect callback e run b st b' st') (h : Follows f l b)
    (hnew : ∀ x, b.Accepts x e → l[x.seq]? = some (f x.payload)) :
    ∀ x ∈ run ++ b'.heap, l[x.seq]? = some (f x.payload) := fun x hx =>
  (heff.entries x hx).elim (h.heap x) (hnew x)

/-- The elements `expected_seq` passes over: those given up, and those released. -/
theorem Effect.take (heff : Effect callback e run b st b' st')
    (hrun : ∀ x ∈ run, l[x.seq]? = some (f x.payload)) :
    l.take b'.expectedSeq = l.take b.expectedSeq ++ (b.skippedSeqs e).filterMap (l[·]?)
      ++ run.map (fun x => f x.payload) := by
  have hreleased : (run.map Entry.seq).filterMap (l[·]?) = run.map fun x => f x.payload := by
    rw [List.filterMap_map, ← List.filterMap_eq_map]
    exact List.filterMap_congr hrun
  rw [take_eq_take_append l heff.grows, heff.passed, List.filterMap_append, hreleased,
    List.append_assoc]

/-- Everything passed over has an element. -/
theorem Effect.bounded (heff : Effect callback e run b st b' st') (h : Follows f l b)
    (hrun : ∀ x ∈ run, l[x.seq]? = some (f x.payload)) :
    b'.expectedSeq ≤ l.length := by
  have hskipped : ∀ n ∈ b.skippedSeqs e, n < l.length := by
    intro n hn
    cases e with
    | put seq payload now => cases hn
    | flushCheck task now =>
        rcases hheap : b.heap with _ | ⟨oldest, rest⟩
        · unfold skippedSeqs at hn
          dsimp only at hn
          rw [hheap] at hn
          cases hn
        · obtain ⟨hlt, -⟩ := List.getElem?_eq_some_iff.mp
            (h.heap oldest (by rw [hheap]; exact List.mem_cons_self))
          rw [flushCheck_skippedSeqs hheap] at hn
          split_ifs at hn with hskip
          · have hn' := (List.mem_range'_1.mp hn).2
            omega
          · cases hn
  have hpassed : ∀ n ∈ List.range' b.expectedSeq (b'.expectedSeq - b.expectedSeq),
      n < l.length := by
    rw [heff.passed]
    intro n hn
    rcases List.mem_append.mp hn with hn | hn
    · exact hskipped n hn
    · obtain ⟨x, hx, rfl⟩ := List.mem_map.mp hn
      exact (List.getElem?_eq_some_iff.mp (hrun x hx)).1
  have hgrows := heff.grows
  have hbounded := h.bounded
  by_contra hlt
  have hlast := hpassed (b'.expectedSeq - 1) (List.mem_range'_1.mpr (by omega))
  omega

theorem delivered_of_effect (heff : Effect callback e run b st b' st') (f : P → α) :
    (b'.delivered.map fun x => f x.2)
      = (b.delivered.map fun x => f x.2) ++ run.map fun x => f x.payload := by
  rw [heff.delivered, List.map_append, List.map_map]
  rfl

/-- **The step lemma** of `Follows`. -/
theorem Follows.effect (h : Follows f l b) (heff : Effect callback e run b st b' st')
    (hnew : ∀ x, b.Accepts x e → l[x.seq]? = some (f x.payload)) : Follows f l b' := by
  have hall := heff.follows h hnew
  have hrun : ∀ x ∈ run, l[x.seq]? = some (f x.payload) := fun x hx =>
    hall x (List.mem_append_left _ hx)
  refine ⟨fun x hx => hall x (List.mem_append_right _ hx), heff.bounded h hrun, ?_⟩
  rw [delivered_of_effect heff, heff.take hrun]
  exact (h.delivered.trans (List.sublist_append_left _ _)).append (List.Sublist.refl _)

/-! ## Without a gap -/

/-- The flush task gives up on an element that `g` selects. -/
def Misses (g : α → Option β) (l : List α) (b : ResequencingBuffer P) (e : Event P) : Prop :=
  ∃ n ∈ b.skippedSeqs e, (l[n]?.bind g).isSome

instance (g : α → Option β) (l : List α) (b : ResequencingBuffer P) (e : Event P) :
    Decidable (b.Misses g l e) := inferInstanceAs (Decidable (∃ _ ∈ _, _))

/-- All the elements below `expected_seq` that `g` selects were delivered. -/
def Complete (f : P → α) (g : α → Option β) (l : List α) (b : ResequencingBuffer P) : Prop :=
  b.delivered.filterMap (fun x => g (f x.2)) = (l.take b.expectedSeq).filterMap g

theorem init_complete (f : P → α) (g : α → Option β) (l : List α) (flushTimeout : Int) :
    Complete f g l (init flushTimeout) := rfl

theorem Complete.mono (hc : Complete f g l b) (h : Follows f l b) (hl : l <+: l') :
    Complete f g l' b := by
  obtain ⟨new, rfl⟩ := hl
  unfold Complete
  rw [List.take_append_of_le_length h.bounded]
  exact hc

/-- **The step lemma** of `Complete`. -/
theorem Complete.effect (hc : Complete f g l b) (h : Follows f l b)
    (heff : Effect callback e run b st b' st')
    (hnew : ∀ x, b.Accepts x e → l[x.seq]? = some (f x.payload)) (hmiss : ¬ b.Misses g l e) :
    Complete f g l b' := by
  have hrun : ∀ x ∈ run, l[x.seq]? = some (f x.payload) := fun x hx =>
    heff.follows h hnew x (List.mem_append_left _ hx)
  have hskipped : ((b.skippedSeqs e).filterMap (l[·]?)).filterMap g = [] := by
    rw [List.filterMap_filterMap, List.filterMap_eq_nil_iff]
    intro n hn
    by_contra hsome
    exact hmiss ⟨n, hn, Option.isSome_iff_ne_none.mpr hsome⟩
  unfold Complete
  calc b'.delivered.filterMap (fun x => g (f x.2))
      = b.delivered.filterMap (fun x => g (f x.2))
          ++ (run.map Entry.packet).filterMap (fun x => g (f x.2)) := by
        rw [heff.delivered, List.filterMap_append]
    _ = (l.take b.expectedSeq).filterMap g
          ++ (run.map (fun x => f x.payload)).filterMap g := by
        rw [hc, List.filterMap_map, List.filterMap_map]
        rfl
    _ = (l.take b'.expectedSeq).filterMap g := by
        rw [heff.take hrun, List.filterMap_append, List.filterMap_append, hskipped,
          List.append_nil]

end AetherBond.Server.ResequencingBuffer
