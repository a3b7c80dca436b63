import AetherBond.Lib.Run
import AetherBond.Lib.Window

set_option autoImplicit false

/-! # The de-duplicator

`SlidingDeDuplicator` of `aetherbond-core/src/redundancy/mod.rs`: a ring of the numbers
accepted last and a hash set of the same numbers. The lock of the source guards nothing more
than `&mut self` does and is left out.

The ring is filled with zeros, and a zero about to be overwritten is taken for a cell that was
never written: the set keeps the number 0 for ever once it was accepted. So the window is exact
until 0 leaves it, and never again (`run_exactWindow_iff`).
-/

namespace AetherBond.Core

open AetherBond.Lib

/-! ## The source -/

structure SlidingDeDuplicator where
  maxHistory : Nat
  history : List UInt32
  set : Finset UInt32
  writeIdx : Nat

namespace SlidingDeDuplicator

def new (maxHistory : Nat) : SlidingDeDuplicator where
  maxHistory := maxHistory
  history := List.replicate maxHistory 0
  set := ∅
  writeIdx := 0

/-- `register`: whether the number is new. `none` is the panic of `history[write_idx]` on an
empty ring. -/
def register (d : SlidingDeDuplicator) (seq : UInt32) : Option (Bool × SlidingDeDuplicator) :=
  if seq ∈ d.set then some (false, d)
  else
    match d.history[d.writeIdx]? with
    | none => none
    | some oldSeq =>
        -- 0 marks an empty cell
        let set := if oldSeq ≠ 0 then d.set.erase oldSeq else d.set
        some (true,
          { d with
            history := d.history.set d.writeIdx seq
            set := insert seq set
            writeIdx := (d.writeIdx + 1) % d.maxHistory })

def size (d : SlidingDeDuplicator) : Nat := d.set.card

/-! ## Runs -/

/-- A call of `register`, with the numbers accepted so far, the last one first. -/
def step (s : SlidingDeDuplicator × List UInt32) (seq : UInt32) :
    Option (SlidingDeDuplicator × List UInt32) :=
  (s.1.register seq).map fun r => (r.2, if r.1 then seq :: s.2 else s.2)

/-- `register` accepts exactly the numbers that are not among the `maxHistory` accepted last,
and `size` counts these. -/
def ExactWindow (maxHistory : Nat) (s : SlidingDeDuplicator × List UInt32) : Prop :=
  (∀ seq, ∃ isNew d, s.1.register seq = some (isNew, d) ∧
    (isNew = true ↔ seq ∉ s.2.take maxHistory)) ∧
  s.1.size = min maxHistory s.2.length

/-- The ring holds the numbers accepted last, the set holds these and the number 0 once it was
accepted. -/
structure Tracks (m : Nat) (s : SlidingDeDuplicator × List UInt32) : Prop where
  maxHistory : s.1.maxHistory = m
  ring : RingOf 0 m s.2 s.1.history
  writeIdx : s.1.writeIdx = s.2.length % m
  set : ∀ seq, seq ∈ s.1.set ↔ seq ∈ s.2.take m ∨ seq = 0 ∧ 0 ∈ s.2
  nodup : (s.2.take m).Nodup
  zeroOnce : s.2.count 0 ≤ 1

variable {m : Nat} {s s' : SlidingDeDuplicator × List UInt32} {seq : UInt32}

theorem new_tracks (m : Nat) : Tracks m (new m, []) where
  maxHistory := rfl
  ring := RingOf.init 0 m
  writeIdx := (Nat.zero_mod m).symm
  set := by simp [new]
  nodup := by simp
  zeroOnce := by simp

theorem register_of_mem {d : SlidingDeDuplicator} (h : seq ∈ d.set) :
    d.register seq = some (false, d) := if_pos h

/-- The number an accepted one replaces. -/
def evicted (m : Nat) (history : List UInt32) : UInt32 := (history[m - 1]?).getD 0

theorem Tracks.register_of_not_mem (h : Tracks m s) (hm : 0 < m) (hnew : seq ∉ s.1.set) :
    s.1.register seq = some (true,
      { s.1 with
        history := s.1.history.set s.1.writeIdx seq
        set := insert seq (if evicted m s.2 ≠ 0 then s.1.set.erase (evicted m s.2) else s.1.set)
        writeIdx := (s.1.writeIdx + 1) % s.1.maxHistory }) := by
  have hold : s.1.history[s.1.writeIdx]? = some (evicted m s.2) := by
    rw [h.writeIdx]
    exact h.ring.oldest hm
  unfold register
  rw [if_neg hnew, hold]

/-- What is left in the set when the evicted number is removed. -/
theorem Tracks.mem_evict (h : Tracks m s) (hm : 0 < m) (x : UInt32) :
    (x ∈ if evicted m s.2 ≠ 0 then s.1.set.erase (evicted m s.2) else s.1.set) ↔
      x ∈ s.2.take (m - 1) ∨ x = 0 ∧ 0 ∈ s.2 := by
  have hset := h.set x
  have hnodup := h.nodup
  have hsplit : s.2.take m = s.2.take (m - 1) ++ (s.2[m - 1]?).toList := by
    rw [← List.take_add_one, Nat.sub_add_cancel hm]
  rw [hsplit] at hset hnodup
  unfold evicted
  cases hget : s.2[m - 1]? with
  | none =>
      -- the ring is not full: the cell holds its first 0
      rw [hget, Option.toList_none, List.append_nil] at hset
      rw [Option.getD_none, if_neg (by simp)]
      exact hset
  | some old =>
      rw [hget, Option.toList_some, List.mem_append, List.mem_singleton] at hset
      rw [hget, Option.toList_some] at hnodup
      have hmem : old ∈ s.2 := List.mem_of_getElem? hget
      have hnotin : old ∉ s.2.take (m - 1) := fun hin =>
        (List.nodup_append.mp hnodup).2.2 old hin old (List.mem_singleton_self old) rfl
      rw [Option.getD_some]
      by_cases hzero : old = 0
      · rw [if_neg (not_not.mpr hzero), hset]
        constructor
        · rintro ((hin | rfl) | hx)
          · exact Or.inl hin
          · exact Or.inr ⟨hzero, hzero ▸ hmem⟩
          · exact Or.inr hx
        · rintro (hin | hx)
          · exact Or.inl (Or.inl hin)
          · exact Or.inr hx
      · rw [if_pos hzero, Finset.mem_erase, hset]
        constructor
        · rintro ⟨hne, (hin | heq) | hx⟩
          · exact Or.inl hin
          · exact absurd heq hne
          · exact Or.inr hx
        · rintro (hin | ⟨rfl, hx⟩)
          · exact ⟨fun heq => hnotin (heq ▸ hin), Or.inl (Or.inl hin)⟩
          · exact ⟨fun heq => hzero heq.symm, Or.inr ⟨rfl, hx⟩⟩

/-- **The step lemma.** -/
theorem Tracks.step (h : Tracks m s) (hm : 0 < m) (seq : UInt32) :
    ∃ s', SlidingDeDuplicator.step s seq = some s' ∧ Tracks m s' ∧
      s'.2 = if seq ∈ s.1.set then s.2 else seq :: s.2 := by
  unfold SlidingDeDuplicator.step
  by_cases hin : seq ∈ s.1.set
  · rw [register_of_mem hin, if_pos hin]
    exact ⟨s, rfl, h, rfl⟩
  · rw [h.register_of_not_mem hm hin, if_neg hin]
    refine ⟨_, rfl, ?_, rfl⟩
    have hfresh : ¬ (seq ∈ s.2.take m ∨ seq = 0 ∧ 0 ∈ s.2) := fun hold =>
      hin ((h.set seq).mpr hold)
    obtain ⟨hwindow, hzero⟩ := not_or.mp hfresh
    constructor
    case maxHistory => exact h.maxHistory
    case ring =>
      show RingOf 0 m (seq :: s.2) (s.1.history.set s.1.writeIdx seq)
      rw [h.writeIdx]
      exact h.ring.write seq
    case writeIdx =>
      show (s.1.writeIdx + 1) % s.1.maxHistory = (seq :: s.2).length % m
      rw [h.writeIdx, h.maxHistory, Nat.mod_add_mod, List.length_cons]
    case set =>
      intro x
      show x ∈ insert seq _ ↔ x ∈ (seq :: s.2).take m ∨ x = 0 ∧ 0 ∈ seq :: s.2
      rw [Finset.mem_insert, h.mem_evict hm, mem_take_cons hm, List.mem_cons]
      constructor
      · rintro (hx | hx | ⟨hx, h0⟩)
        · exact Or.inl (Or.inl hx)
        · exact Or.inl (Or.inr hx)
        · exact Or.inr ⟨hx, Or.inr h0⟩
      · rintro ((hx | hx) | ⟨hx, heq | h0⟩)
        · exact Or.inl hx
        · exact Or.inr (Or.inl hx)
        · exact Or.inl (hx.trans heq)
        · exact Or.inr (Or.inr ⟨hx, h0⟩)
    case nodup =>
      obtain ⟨k, rfl⟩ := Nat.exists_eq_succ_of_ne_zero hm.ne'
      have hsub : (s.2.take k).Sublist (s.2.take (k + 1)) :=
        List.take_sublist_take_left (Nat.le_succ k)
      show ((seq :: s.2).take (k + 1)).Nodup
      rw [List.take_succ_cons]
      exact List.nodup_cons.mpr ⟨fun hk => hwindow (hsub.subset hk), h.nodup.sublist hsub⟩
    case zeroOnce =>
      show (seq :: s.2).count 0 ≤ 1
      by_cases hseq : seq = 0
      · have hno : s.2.count 0 = 0 := List.count_eq_zero.mpr fun h0 => hzero ⟨hseq, h0⟩
        rw [hseq, List.count_cons_self, hno]
      · rw [List.count_cons_of_ne hseq]
        exact h.zeroOnce

/-! ## When the window is exact -/

/-- **Exactness**: the window is exact as long as 0 has not left it, and not any more. -/
theorem Tracks.exactWindow_iff (h : Tracks m s) (hm : 0 < m) :
    ExactWindow m s ↔ 0 ∉ s.2.drop m := by
  have hmem : ∀ x, x ∈ s.2.take m ∨ x ∈ s.2.drop m ↔ x ∈ s.2 := fun x => by
    rw [← List.mem_append, List.take_append_drop]
  constructor
  · rintro ⟨hregister, -⟩ hleft
    have hin : 0 ∈ s.1.set := (h.set 0).mpr (Or.inr ⟨rfl, (hmem 0).mp (Or.inr hleft)⟩)
    obtain ⟨isNew, d, hcall, hnew⟩ := hregister 0
    rw [register_of_mem hin] at hcall
    obtain ⟨rfl, -⟩ := Prod.mk.inj (Option.some.inj hcall)
    have hwindow : 0 ∈ s.2.take m := by
      by_contra hno
      cases hnew.mpr hno
    -- 0 would have been accepted twice
    have htwice : 2 ≤ s.2.count 0 := by
      rw [← List.take_append_drop m s.2, List.count_append]
      have h₁ := List.count_pos_iff.mpr hwindow
      have h₂ := List.count_pos_iff.mpr hleft
      omega
    have := h.zeroOnce
    omega
  · intro hstays
    have hset : ∀ x, x ∈ s.1.set ↔ x ∈ s.2.take m := by
      intro x
      rw [h.set]
      constructor
      · rintro (hx | ⟨rfl, hx⟩)
        · exact hx
        · exact ((hmem 0).mpr hx).resolve_right hstays
      · exact Or.inl
    constructor
    · intro seq
      by_cases hin : seq ∈ s.1.set
      · refine ⟨false, s.1, register_of_mem hin, ?_⟩
        simp [(hset seq).mp hin]
      · refine ⟨true, _, h.register_of_not_mem hm hin, ?_⟩
        simp [mt (hset seq).mpr hin]
    · have heq : s.1.set = (s.2.take m).toFinset := by
        ext x
        rw [hset, List.mem_toFinset]
      rw [size, heq, List.toFinset_card_of_nodup h.nodup, List.length_take]

/-- A call in an exact state does what the ideal window does. -/
theorem ExactWindow.step (h : ExactWindow m s) (hstep : SlidingDeDuplicator.step s seq = some s') :
    s'.2 = slide m s.2 seq := by
  obtain ⟨isNew, d, hcall, hnew⟩ := h.1 seq
  unfold SlidingDeDuplicator.step at hstep
  rw [hcall] at hstep
  obtain rfl := Option.some.inj hstep
  show (if isNew then seq :: s.2 else s.2) = slide m s.2 seq
  unfold slide
  by_cases hin : seq ∈ s.2.take m
  · rw [if_pos hin, if_neg fun hyes => hnew.mp hyes hin]
  · rw [if_neg hin, if_pos (hnew.mpr hin)]

/-- The states of a run on `seqs`, its first and its last one included, are all exact. -/
def AlwaysExact (m : Nat) (seqs : List UInt32) : Prop :=
  ∀ pre post, seqs = pre ++ post →
    ∃ s, runFrom SlidingDeDuplicator.step (new m, []) pre = some s ∧ ExactWindow m s

/-- One more call at the end of a run in which the ideal window was followed. -/
theorem run_concat {pre : List UInt32} (hm : 0 < m)
    (hrun : runFrom SlidingDeDuplicator.step (new m, []) pre = some s) (htracks : Tracks m s)
    (hideal : s.2 = slideAll m pre) (hexact : ExactWindow m s) (seq : UInt32) :
    ∃ s', runFrom SlidingDeDuplicator.step (new m, []) (pre ++ [seq]) = some s' ∧
      Tracks m s' ∧ s'.2 = slideAll m (pre ++ [seq]) := by
  obtain ⟨s', hstep, htracks', -⟩ := htracks.step hm seq
  refine ⟨s', ?_, htracks', ?_⟩
  · exact runFrom_append_eq_some.mpr
      ⟨s, hrun, runFrom_cons_eq_some.mpr ⟨s', hstep, runFrom_nil s'⟩⟩
  · rw [slideAll_concat, ← hideal]
    exact hexact.step hstep

/-- As long as 0 stays in the ideal window, `register` follows the ideal window. -/
theorem run_of_stays (hm : 0 < m) {seqs : List UInt32} (hstays : 0 ∉ (slideAll m seqs).drop m) :
    ∃ s, runFrom SlidingDeDuplicator.step (new m, []) seqs = some s ∧ Tracks m s ∧
      s.2 = slideAll m seqs := by
  induction seqs using List.reverseRecOn with
  | nil => exact ⟨_, runFrom_nil _, new_tracks m, rfl⟩
  | append_singleton seqs seq ih =>
      have hbefore : 0 ∉ (slideAll m seqs).drop m := fun hleft =>
        hstays (mem_drop_of_suffix (slideAll_suffix seqs [seq]) hleft)
      obtain ⟨s, hrun, htracks, hideal⟩ := ih hbefore
      rw [← hideal] at hbefore
      exact run_concat hm hrun htracks hideal ((htracks.exactWindow_iff hm).mpr hbefore) seq

theorem AlwaysExact.run (hm : 0 < m) {seqs : List UInt32} (h : AlwaysExact m seqs) :
    ∃ s, runFrom SlidingDeDuplicator.step (new m, []) seqs = some s ∧ Tracks m s ∧
      s.2 = slideAll m seqs := by
  induction seqs using List.reverseRecOn with
  | nil => exact ⟨_, runFrom_nil _, new_tracks m, rfl⟩
  | append_singleton seqs seq ih =>
      have hbefore : AlwaysExact m seqs := fun pre post heq =>
        h pre (post ++ [seq]) (by rw [heq, List.append_assoc])
      obtain ⟨s, hrun, htracks, hideal⟩ := ih hbefore
      obtain ⟨s₁, hrun₁, hexact⟩ := hbefore seqs [] (List.append_nil seqs).symm
      obtain rfl : s₁ = s := Option.some.inj (hrun₁.symm.trans hrun)
      exact run_concat hm hrun htracks hideal hexact seq

/-- **The window is exact, and exactly when.** For every list of calls: in every state of its
run `register` tells the numbers outside the window from those inside, and `size` is right, if
and only if 0 has not left the ideal window of the list. -/
theorem run_exactWindow_iff (m : Nat) (hm : 1 ≤ m) (seqs : List UInt32) :
    AlwaysExact m seqs ↔ 0 ∉ (slideAll m seqs).drop m := by
  constructor
  · intro h
    obtain ⟨s, hrun, htracks, hideal⟩ := h.run hm
    obtain ⟨s₁, hrun₁, hexact⟩ := h seqs [] (List.append_nil seqs).symm
    obtain rfl : s₁ = s := Option.some.inj (hrun₁.symm.trans hrun)
    rw [← hideal]
    exact (htracks.exactWindow_iff hm).mp hexact
  · rintro hstays pre post rfl
    have hbefore : 0 ∉ (slideAll m pre).drop m := fun hleft =>
      hstays (mem_drop_of_suffix (slideAll_suffix pre post) hleft)
    obtain ⟨s, hrun, htracks, hideal⟩ := run_of_stays hm hbefore
    rw [← hideal] at hbefore
    exact ⟨s, hrun, (htracks.exactWindow_iff hm).mpr hbefore⟩

/-- Two cells: 7 is accepted, dropped, and pushed out by 8; 0 stays. -/
theorem run_exactWindow_two_cells : AlwaysExact 2 [7, 0, 7, 8] :=
  (run_exactWindow_iff 2 (by decide) [7, 0, 7, 8]).mpr (by decide)

/-- One cell: after 0 and 5 the set still holds 0, and counts two numbers. -/
theorem zero_never_evicted :
    ¬ ∀ (m : Nat) (seqs : List UInt32), 1 ≤ m → AlwaysExact m seqs := by
  intro h
  obtain ⟨s, hrun, -, hsize⟩ := h 1 [0, 5] le_rfl [0, 5] [] rfl
  have hbad : (runFrom SlidingDeDuplicator.step (new 1, []) [0, 5]).map
      (fun s => (s.1.size, s.2.length)) = some (2, 2) := by decide
  rw [hrun] at hbad
  obtain ⟨hcard, hlen⟩ := Prod.mk.inj (Option.some.inj hbad)
  rw [hcard, hlen] at hsize
  cases hsize

end SlidingDeDuplicator

end AetherBond.Core
