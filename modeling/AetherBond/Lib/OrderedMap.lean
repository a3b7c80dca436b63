import Mathlib.Tactic

set_option autoImplicit false

/-! # Finite maps kept in key order

`OrderedMap K V` is a finite map stored as the list of its entries in strictly increasing key
order, so that its first entry is the one with the smallest key. It models the ordered map of
a standard library (`BTreeMap`) by what such a map guarantees: one entry per key, iteration in
key order, insertion that replaces the value of a key already present.

Strict sortedness is a field of the structure, so every lemma below is free of
well-formedness hypotheses. Membership in `entries` is the working view of a map: `mem_insert`
and `mem_remove` say what the two updates do to it, and `get?_eq_some_iff` reads a lookup as
a membership.
-/

namespace AetherBond.Lib

variable {K V : Type*} [LinearOrder K]

/-- Insertion into an entry list, replacing the entry of an equal key. -/
def insertEntry (k : K) (v : V) : List (K × V) → List (K × V)
  | [] => [(k, v)]
  | e :: l =>
      if k < e.1 then (k, v) :: e :: l
      else if k = e.1 then (k, v) :: l
      else e :: insertEntry k v l

theorem mem_insertEntry {k : K} {v : V} {l : List (K × V)}
    (hl : l.Pairwise fun a b => a.1 < b.1) (x : K × V) :
    x ∈ insertEntry k v l ↔ x = (k, v) ∨ x.1 ≠ k ∧ x ∈ l := by
  induction l with
  | nil => simp [insertEntry]
  | cons e l ih =>
      obtain ⟨hlt, htl⟩ := List.pairwise_cons.mp hl
      have htail : k ≤ e.1 → ∀ y ∈ l, y.1 ≠ k := fun hk y hy heq =>
        absurd (hlt y hy) (by rw [heq]; exact not_lt.mpr hk)
      rw [insertEntry]
      split_ifs with h₁ h₂
      · have hne : ∀ y ∈ e :: l, y.1 ≠ k := by
          intro y hy
          rcases List.mem_cons.mp hy with rfl | hy
          · exact (ne_of_lt h₁).symm
          · exact htail h₁.le y hy
        rw [List.mem_cons]
        exact or_congr_right ⟨fun hx => ⟨hne x hx, hx⟩, And.right⟩
      · subst h₂
        rw [List.mem_cons, List.mem_cons]
        refine or_congr_right ⟨fun hx => ⟨htail le_rfl x hx, Or.inr hx⟩, ?_⟩
        rintro ⟨hne, rfl | hx⟩
        · exact absurd rfl hne
        · exact hx
      · rw [List.mem_cons, List.mem_cons, ih htl]
        constructor
        · rintro (rfl | rfl | ⟨hne, hx⟩)
          · exact Or.inr ⟨Ne.symm h₂, Or.inl rfl⟩
          · exact Or.inl rfl
          · exact Or.inr ⟨hne, Or.inr hx⟩
        · rintro (rfl | ⟨hne, rfl | hx⟩)
          · exact Or.inr (Or.inl rfl)
          · exact Or.inl rfl
          · exact Or.inr (Or.inr ⟨hne, hx⟩)

theorem insertEntry_sorted (k : K) (v : V) {l : List (K × V)}
    (hl : l.Pairwise fun a b => a.1 < b.1) :
    (insertEntry k v l).Pairwise fun a b => a.1 < b.1 := by
  induction l with
  | nil => simp [insertEntry]
  | cons e l ih =>
      obtain ⟨hlt, htl⟩ := List.pairwise_cons.mp hl
      rw [insertEntry]
      split_ifs with h₁ h₂
      · refine List.pairwise_cons.mpr ⟨fun y hy => ?_, hl⟩
        rcases List.mem_cons.mp hy with rfl | hy
        · exact h₁
        · exact h₁.trans (hlt y hy)
      · exact List.pairwise_cons.mpr ⟨fun y hy => h₂ ▸ hlt y hy, htl⟩
      · have hek : e.1 < k := lt_of_le_of_ne (not_lt.mp h₁) (Ne.symm h₂)
        refine List.pairwise_cons.mpr ⟨fun y hy => ?_, ih htl⟩
        rcases (mem_insertEntry htl y).mp hy with rfl | ⟨-, hy⟩
        · exact hek
        · exact hlt y hy

/-- A finite map, as its entries in strictly increasing key order. -/
structure OrderedMap (K V : Type*) [LinearOrder K] where
  entries : List (K × V)
  sorted : entries.Pairwise fun a b => a.1 < b.1

namespace OrderedMap

/-- The map without entries. -/
def empty : OrderedMap K V := ⟨[], List.Pairwise.nil⟩

/-- Bind `k` to `v`, whether or not `k` was bound before. -/
def insert (m : OrderedMap K V) (k : K) (v : V) : OrderedMap K V :=
  ⟨insertEntry k v m.entries, insertEntry_sorted k v m.sorted⟩

/-- Drop the entry of `k`, if there is one. -/
def remove (m : OrderedMap K V) (k : K) : OrderedMap K V :=
  ⟨m.entries.filter fun e => e.1 ≠ k, m.sorted.filter _⟩

/-- The value bound to `k`. -/
def get? (m : OrderedMap K V) (k : K) : Option V :=
  (m.entries.find? fun e => e.1 = k).map Prod.snd

/-- The entry with the smallest key. -/
def first? (m : OrderedMap K V) : Option (K × V) := m.entries.head?

/-- The number of entries. -/
def len (m : OrderedMap K V) : Nat := m.entries.length

variable {m : OrderedMap K V} {k : K} {v : V}

@[simp] theorem entries_empty : (empty : OrderedMap K V).entries = [] := rfl

theorem mem_insert (x : K × V) :
    x ∈ (m.insert k v).entries ↔ x = (k, v) ∨ x.1 ≠ k ∧ x ∈ m.entries :=
  mem_insertEntry m.sorted x

theorem mem_remove (x : K × V) : x ∈ (m.remove k).entries ↔ x.1 ≠ k ∧ x ∈ m.entries := by
  simp [remove, and_comm]

/-- An entry is determined by its key. -/
theorem eq_of_key_eq {x y : K × V} (hx : x ∈ m.entries) (hy : y ∈ m.entries)
    (hxy : x.1 = y.1) : x = y := by
  have hkeys : (m.entries.map Prod.fst).Nodup :=
    List.pairwise_map.mpr (m.sorted.imp ne_of_lt)
  exact List.inj_on_of_nodup_map hkeys hx hy hxy

theorem get?_eq_some_iff : m.get? k = some v ↔ (k, v) ∈ m.entries := by
  constructor
  · intro h
    obtain ⟨e, he, rfl⟩ := Option.map_eq_some_iff.mp h
    have hk : e.1 = k := by simpa using List.find?_some he
    exact hk ▸ List.mem_of_find?_eq_some he
  · intro h
    have hsome : (m.entries.find? fun e => e.1 = k).isSome :=
      List.find?_isSome.mpr ⟨(k, v), h, by simp⟩
    obtain ⟨e, he⟩ := Option.isSome_iff_exists.mp hsome
    have hk : e.1 = k := by simpa using List.find?_some he
    rw [get?, he, eq_of_key_eq (List.mem_of_find?_eq_some he) h hk]
    rfl

theorem get?_eq_none_iff : m.get? k = none ↔ ∀ x ∈ m.entries, x.1 ≠ k := by
  simp [get?]

theorem first?_eq_none_iff : m.first? = none ↔ m.entries = [] := List.head?_eq_none_iff

theorem mem_of_first? {e : K × V} (h : m.first? = some e) : e ∈ m.entries :=
  List.mem_of_head? h

/-- The first entry has the smallest key. -/
theorem first?_le {e x : K × V} (h : m.first? = some e) (hx : x ∈ m.entries) : e.1 ≤ x.1 := by
  obtain ⟨l, hl⟩ : ∃ l, m.entries = e :: l := by
    cases hm : m.entries with
    | nil => simp [first?, hm] at h
    | cons a l =>
        obtain rfl : a = e := by simpa [first?, hm] using h
        exact ⟨l, rfl⟩
  have hs := m.sorted
  rw [hl] at hs hx
  rcases List.mem_cons.mp hx with rfl | hx
  · exact le_rfl
  · exact ((List.pairwise_cons.mp hs).1 x hx).le

/-- An entry that is no larger than any other is the first one. -/
theorem first?_eq_of_le {e : K × V} (he : e ∈ m.entries) (hle : ∀ x ∈ m.entries, e.1 ≤ x.1) :
    m.first? = some e := by
  cases hf : m.first? with
  | none => rw [first?_eq_none_iff.mp hf] at he; simp at he
  | some f =>
      have hfm := mem_of_first? hf
      rw [eq_of_key_eq hfm he (le_antisymm (first?_le hf he) (hle f hfm))]

/-- Dropping a bound key leaves one entry less. -/
theorem len_remove_lt (h : m.get? k = some v) : (m.remove k).len < m.len :=
  List.length_filter_lt_length_iff_exists.mpr ⟨(k, v), get?_eq_some_iff.mp h, by simp⟩

theorem get?_remove (m : OrderedMap K V) (k k' : K) :
    (m.remove k).get? k' = if k' = k then none else m.get? k' := by
  by_cases hk : k' = k
  · rw [if_pos hk, get?_eq_none_iff]
    intro x hx
    rw [hk]
    exact ((mem_remove x).mp hx).1
  · rw [if_neg hk]
    cases hget : m.get? k' with
    | none =>
        rw [get?_eq_none_iff] at hget ⊢
        exact fun x hx => hget x ((mem_remove x).mp hx).2
    | some v =>
        rw [get?_eq_some_iff] at hget ⊢
        exact (mem_remove _).mpr ⟨hk, hget⟩

/-! ## How many entries -/

theorem entries_nodup (m : OrderedMap K V) : m.entries.Nodup :=
  m.sorted.imp fun hlt heq => absurd (congrArg Prod.fst heq) hlt.ne

theorem len_le_of_subset {m' : OrderedMap K V} (h : m'.entries ⊆ m.entries) : m'.len ≤ m.len :=
  m'.entries_nodup.length_le_of_subset h

/-- A map that lacks an entry of another one is smaller. -/
theorem len_lt_of_subset {m' : OrderedMap K V} (h : m'.entries ⊆ m.entries) {x : K × V}
    (hx : x ∈ m.entries) (hx' : x ∉ m'.entries) : m'.len < m.len := by
  have hnodup : (x :: m'.entries).Nodup := List.nodup_cons.mpr ⟨hx', m'.entries_nodup⟩
  have hsubset : x :: m'.entries ⊆ m.entries := List.cons_subset.mpr ⟨hx, h⟩
  exact hnodup.length_le_of_subset hsubset

/-- An insertion adds one entry at most. -/
theorem len_insert_le (m : OrderedMap K V) (k : K) (v : V) : (m.insert k v).len ≤ m.len + 1 := by
  have hsubset : (m.insert k v).entries ⊆ (k, v) :: m.entries := by
    intro x hx
    rcases (mem_insert x).mp hx with rfl | ⟨-, hx⟩
    · exact List.mem_cons_self
    · exact List.mem_cons_of_mem _ hx
  exact (m.insert k v).entries_nodup.length_le_of_subset hsubset

/-! ## Runs of consecutive keys -/

section Runs

variable {m : OrderedMap ℕ V} {k : ℕ} {vs : List V}

/-- `vs` are the values of the keys from `k` up to the first one that is not bound. -/
def IsRunFrom (m : OrderedMap ℕ V) : ℕ → List V → Prop
  | k, [] => m.get? k = none
  | k, v :: vs => m.get? k = some v ∧ m.IsRunFrom (k + 1) vs

/-- A run does not see what is bound below it. -/
theorem isRunFrom_remove {j : ℕ} (hj : j < k) : (m.remove j).IsRunFrom k vs ↔ m.IsRunFrom k vs := by
  induction vs generalizing k with
  | nil =>
      unfold IsRunFrom
      rw [get?_remove, if_neg hj.ne']
  | cons v vs ih =>
      unfold IsRunFrom
      rw [get?_remove, if_neg hj.ne', ih (hj.trans k.lt_succ_self)]

/-- The run has every bound key from `k` on, and the key after it is free. -/
theorem isRunFrom_iff : m.IsRunFrom k vs ↔
    (∀ i, i < vs.length → m.get? (k + i) = vs[i]?) ∧ m.get? (k + vs.length) = none := by
  induction vs generalizing k with
  | nil => simp [IsRunFrom]
  | cons v vs ih =>
      unfold IsRunFrom
      rw [ih, List.length_cons]
      constructor
      · rintro ⟨hfirst, hrest, hfree⟩
        refine ⟨fun i hi => ?_, ?_⟩
        · cases i with
          | zero => exact hfirst
          | succ i =>
              rw [List.getElem?_cons_succ, ← hrest i (by omega)]
              congr 1
              omega
        · rw [← hfree]
          congr 1
          omega
      · rintro ⟨hbound, hfree⟩
        refine ⟨hbound 0 (by omega), fun i hi => ?_, ?_⟩
        · have hnext := hbound (i + 1) (by omega)
          rw [List.getElem?_cons_succ] at hnext
          rw [← hnext]
          congr 1
          omega
        · rw [← hfree]
          congr 1
          omega

end Runs

end OrderedMap

end AetherBond.Lib
