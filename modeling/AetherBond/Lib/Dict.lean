import Mathlib.Tactic

set_option autoImplicit false

/-! # Insertion-ordered dictionaries

`Dict K V` is a dictionary in the sense of Python: a finite map whose keys keep the order in
which they were first inserted. Assigning to a present key replaces its value in place, and
popping a key drops it. That no key occurs twice is a field of the structure, so two
dictionaries with the same entries are the same dictionary (`ext`).

A lookup is described by what the last update did to it: `get?_set` and `get?_pop`.
-/

namespace AetherBond.Lib

variable {K V : Type*} [DecidableEq K]

/-- The value of the first entry with key `k`. -/
def getEntry (k : K) : List (K × V) → Option V
  | [] => none
  | e :: l => if e.1 = k then some e.2 else getEntry k l

/-- Replace the value of `k` in place, or append an entry for it. -/
def setEntry (k : K) (v : V) : List (K × V) → List (K × V)
  | [] => [(k, v)]
  | e :: l => if e.1 = k then (k, v) :: l else e :: setEntry k v l

theorem mem_keys_setEntry {k k' : K} {v : V} {l : List (K × V)} :
    k' ∈ (setEntry k v l).map Prod.fst ↔ k' = k ∨ k' ∈ l.map Prod.fst := by
  induction l with
  | nil => simp [setEntry]
  | cons e l ih =>
      unfold setEntry
      by_cases h : e.1 = k
      · rw [if_pos h, List.map_cons, List.map_cons, List.mem_cons, List.mem_cons, h]
        tauto
      · rw [if_neg h, List.map_cons, List.map_cons, List.mem_cons, List.mem_cons, ih]
        tauto

theorem setEntry_nodup {k : K} {v : V} {l : List (K × V)} (hl : (l.map Prod.fst).Nodup) :
    ((setEntry k v l).map Prod.fst).Nodup := by
  induction l with
  | nil => simp [setEntry]
  | cons e l ih =>
      obtain ⟨hnotin, hnd⟩ := List.nodup_cons.mp hl
      unfold setEntry
      by_cases h : e.1 = k
      · rw [if_pos h]
        exact List.nodup_cons.mpr ⟨h ▸ hnotin, hnd⟩
      · rw [if_neg h]
        refine List.nodup_cons.mpr ⟨fun hin => ?_, ih hnd⟩
        rcases mem_keys_setEntry.mp hin with heq | hin
        · exact h heq
        · exact hnotin hin

theorem getEntry_setEntry (k k' : K) (v : V) (l : List (K × V)) :
    getEntry k' (setEntry k v l) = if k' = k then some v else getEntry k' l := by
  induction l with
  | nil => simp [setEntry, getEntry, eq_comm]
  | cons e l ih =>
      unfold setEntry
      by_cases h : e.1 = k
      · rw [if_pos h, getEntry, getEntry, h]
        by_cases hk : k' = k
        · simp [hk]
        · simp [hk, Ne.symm hk]
      · rw [if_neg h, getEntry, ih, getEntry]
        by_cases hk : k' = k
        · subst hk
          simp [h]
        · simp [hk]

theorem getEntry_filter_ne (k k' : K) (l : List (K × V)) :
    getEntry k' (l.filter fun e => e.1 ≠ k) = if k' = k then none else getEntry k' l := by
  induction l with
  | nil => simp [getEntry]
  | cons e l ih =>
      by_cases h : e.1 = k
      · rw [List.filter_cons_of_neg (by simp [h]), ih, getEntry, h]
        by_cases hk : k' = k
        · simp [hk]
        · simp [hk, Ne.symm hk]
      · rw [List.filter_cons_of_pos (by simp [h]), getEntry, ih, getEntry]
        by_cases hk : k' = k
        · subst hk
          simp [h]
        · simp [hk]

/-- Assigning the value a key has changes nothing. -/
theorem setEntry_of_getEntry {k : K} {v : V} {l : List (K × V)} (h : getEntry k l = some v) :
    setEntry k v l = l := by
  induction l with
  | nil => simp [getEntry] at h
  | cons e l ih =>
      unfold getEntry at h
      unfold setEntry
      by_cases hk : e.1 = k
      · rw [if_pos hk] at h ⊢
        rw [← hk, ← Option.some.inj h]
      · rw [if_neg hk] at h ⊢
        rw [ih h]

theorem getEntry_eq_some_iff {k : K} {v : V} {l : List (K × V)} (hl : (l.map Prod.fst).Nodup) :
    getEntry k l = some v ↔ (k, v) ∈ l := by
  induction l with
  | nil => simp [getEntry]
  | cons e l ih =>
      obtain ⟨hnotin, hnd⟩ := List.nodup_cons.mp hl
      unfold getEntry
      by_cases h : e.1 = k
      · rw [if_pos h, List.mem_cons, Option.some.injEq]
        constructor
        · rintro rfl
          exact .inl (Prod.ext h.symm rfl)
        · rintro (heq | hin)
          · rw [← heq]
          · exact absurd (List.mem_map_of_mem hin) (h ▸ hnotin)
      · rw [if_neg h, ih hnd, List.mem_cons]
        exact ⟨.inr, fun hin => hin.resolve_left fun heq => h (by rw [← heq])⟩

theorem length_setEntry_le (k : K) (v : V) (l : List (K × V)) :
    (setEntry k v l).length ≤ l.length + 1 := by
  induction l with
  | nil => exact le_rfl
  | cons e l ih =>
      unfold setEntry
      split_ifs
      · exact Nat.le_succ _
      · exact Nat.succ_le_succ ih

/-- A dictionary: its entries in order of first insertion, no key twice. -/
@[ext] structure Dict (K V : Type*) where
  entries : List (K × V)
  nodup : (entries.map Prod.fst).Nodup

namespace Dict

/-- `{}`. -/
def empty : Dict K V := ⟨[], List.nodup_nil⟩

/-- `d.get(k)`. -/
def get? (d : Dict K V) (k : K) : Option V := getEntry k d.entries

/-- `d[k] = v`. -/
def set (d : Dict K V) (k : K) (v : V) : Dict K V :=
  ⟨setEntry k v d.entries, setEntry_nodup d.nodup⟩

/-- `d.pop(k, None)`, without its result. -/
def pop (d : Dict K V) (k : K) : Dict K V :=
  ⟨d.entries.filter fun e => e.1 ≠ k,
    d.nodup.sublist (List.filter_sublist.map _)⟩

/-- `list(d.keys())`. -/
def keys (d : Dict K V) : List K := d.entries.map Prod.fst

/-- `list(d.values())`. -/
def values (d : Dict K V) : List V := d.entries.map Prod.snd

/-- Every value replaced by what `f` makes of it. -/
def map {W : Type*} (d : Dict K V) (f : K → V → W) : Dict K W :=
  ⟨d.entries.map fun e => (e.1, f e.1 e.2), by rw [List.map_map]; exact d.nodup⟩

/-- `len(d)`. -/
def len (d : Dict K V) : Nat := d.entries.length

@[simp] theorem get?_empty (k : K) : (empty : Dict K V).get? k = none := rfl

theorem get?_set (d : Dict K V) (k k' : K) (v : V) :
    (d.set k v).get? k' = if k' = k then some v else d.get? k' :=
  getEntry_setEntry k k' v d.entries

theorem get?_pop (d : Dict K V) (k k' : K) :
    (d.pop k).get? k' = if k' = k then none else d.get? k' :=
  getEntry_filter_ne k k' d.entries

theorem get?_set_self (d : Dict K V) (k : K) (v : V) : (d.set k v).get? k = some v := by
  rw [get?_set, if_pos rfl]

/-- A value is the one that was set, or was there before under another key. -/
theorem get?_set_cases {d : Dict K V} {k k' : K} {v v' : V}
    (h : (d.set k v).get? k' = some v') : k' = k ∧ v = v' ∨ k' ≠ k ∧ d.get? k' = some v' := by
  rw [get?_set] at h
  split_ifs at h with hk
  · exact .inl ⟨hk, Option.some.inj h⟩
  · exact .inr ⟨hk, h⟩

/-- What holds of the value that is set, and of the others before, holds of all afterwards. -/
theorem forall_get?_set {P : K → V → Prop} {d : Dict K V} {k : K} {v : V} (hnew : P k v)
    (hold : ∀ k' v', k' ≠ k → d.get? k' = some v' → P k' v') :
    ∀ k' v', (d.set k v).get? k' = some v' → P k' v' := by
  intro k' v' hget
  obtain ⟨rfl, rfl⟩ | ⟨hne, hget⟩ := get?_set_cases hget
  · exact hnew
  · exact hold k' v' hne hget

theorem get?_set_eq_none {d : Dict K V} {k k' : K} {v : V} :
    (d.set k v).get? k' = none ↔ k' ≠ k ∧ d.get? k' = none := by
  rw [get?_set]
  split_ifs with hk
  · simp [hk]
  · simp [hk]

/-- What is left after a `pop` was there before, under another key. -/
theorem get?_of_get?_pop {d : Dict K V} {k k' : K} {v : V} (h : (d.pop k).get? k' = some v) :
    k' ≠ k ∧ d.get? k' = some v := by
  rw [get?_pop] at h
  split_ifs at h with hk
  exact ⟨hk, h⟩

theorem get?_eq_some_iff {d : Dict K V} {k : K} {v : V} :
    d.get? k = some v ↔ (k, v) ∈ d.entries := getEntry_eq_some_iff d.nodup

theorem mem_values {d : Dict K V} {v : V} : v ∈ d.values ↔ ∃ k, d.get? k = some v := by
  unfold values
  rw [List.mem_map]
  constructor
  · rintro ⟨⟨k, _⟩, hin, rfl⟩
    exact ⟨k, get?_eq_some_iff.mpr hin⟩
  · rintro ⟨k, hk⟩
    exact ⟨(k, v), get?_eq_some_iff.mp hk, rfl⟩

theorem get?_map {W : Type*} (d : Dict K V) (f : K → V → W) (k : K) :
    (d.map f).get? k = (d.get? k).map (f k) := by
  obtain ⟨l, hl⟩ := d
  show getEntry k (l.map fun e => (e.1, f e.1 e.2)) = (getEntry k l).map (f k)
  clear hl
  induction l with
  | nil => rfl
  | cons e l ih =>
      rw [List.map_cons, getEntry, getEntry]
      by_cases h : e.1 = k
      · rw [if_pos h, if_pos h, h]
        rfl
      · rw [if_neg h, if_neg h, ih]

theorem len_set_le (d : Dict K V) (k : K) (v : V) : (d.set k v).len ≤ d.len + 1 :=
  length_setEntry_le k v d.entries

theorem len_pop_le (d : Dict K V) (k : K) : (d.pop k).len ≤ d.len :=
  List.length_filter_le _ _

/-- **An assignment changes the dictionary exactly when the key did not have the value.** -/
theorem set_eq_self_iff {d : Dict K V} {k : K} {v : V} : d.set k v = d ↔ d.get? k = some v := by
  constructor
  · intro h
    rw [← h]
    exact get?_set_self d k v
  · intro h
    exact Dict.ext (setEntry_of_getEntry h)

end Dict

end AetherBond.Lib
