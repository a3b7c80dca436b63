import AetherBond.Core.Resequencing

set_option autoImplicit false

/-! # Order of delivery of the Rust resequencer

`Ordered` is the invariant behind in-order delivery: every buffered number is above
`next_seq` and every delivered one below it. `tick`, `force_flush_head` and the storing half
of `put` preserve it. The one call that can break it is a `put` into a full buffer whose
number the forced flush overtakes: it passes the lateness check against the old `next_seq`
and is stored below the new one. `AboveHeadRun` excludes exactly these calls
(`run_inOrder_while_aboveHeadRun`).
-/

namespace AetherBond.Core.Resequencer

open AetherBond.Lib

/-- The sequence numbers handed to the callback are strictly increasing. -/
def InOrder (r : Resequencer) : Prop := (r.delivered.map Prod.fst).Pairwise (· < ·)

/-- The invariant of in-order delivery. -/
structure Ordered (r : Resequencer) : Prop where
  above : ∀ x ∈ r.buffer.entries, r.nextSeq < x.1
  belowMax : ∀ x ∈ r.buffer.entries, x.1 < u32Max
  below : ∀ d ∈ r.delivered, d.1 < r.nextSeq
  inOrder : r.InOrder

theorem new_ordered (initialSeq maxBufferSize : Nat) : Ordered (new initialSeq maxBufferSize) where
  above := by simp [new]
  belowMax := by simp [new]
  below := by simp [new]
  inOrder := by simp [InOrder, new]

/-- A flush establishes the invariant as soon as no buffered number is below `next_seq`. -/
theorem Flushed.ordered {r r' : Resequencer} (h : Flushed r r')
    (hge : ∀ x ∈ r.buffer.entries, r.nextSeq ≤ x.1)
    (hmax : ∀ x ∈ r.buffer.entries, x.1 < u32Max)
    (hbelow : ∀ d ∈ r.delivered, d.1 < r.nextSeq) (hin : r.InOrder) : Ordered r' where
  above x hx := by
    obtain ⟨hx₁, hout⟩ := (h.mem_buffer x).mp hx
    have h₁ := hge x hx₁
    have h₂ := h.stop x hx
    omega
  belowMax x hx := hmax x ((h.mem_buffer x).mp hx).1
  below d hd := by
    obtain ⟨ds, hds, hrange⟩ := h.delivered
    have hle := h.le
    rw [hds] at hd
    rcases List.mem_append.mp hd with hd | hd
    · exact lt_of_lt_of_le (hbelow d hd) hle
    · have hmem : d.1 ∈ List.range' r.nextSeq (r'.nextSeq - r.nextSeq) :=
        hrange ▸ List.mem_map_of_mem hd
      have := List.mem_range'_1.mp hmem
      omega
  inOrder := by
    obtain ⟨ds, hds, hrange⟩ := h.delivered
    rw [InOrder, hds, List.map_append, hrange]
    refine List.pairwise_append.mpr ⟨hin, List.pairwise_lt_range', ?_⟩
    intro a ha b hb
    obtain ⟨d, hd, rfl⟩ := List.mem_map.mp ha
    exact lt_of_lt_of_le (hbelow d hd) (List.mem_range'_1.mp hb).1

/-! ## What the calls preserve -/

/-- Moving `next_seq` up to the smallest buffered number and flushing. -/
theorem Ordered.flush_from_first {r : Resequencer} (h : Ordered r) (profile : Profile)
    {e : Nat × ReseqPacket} (he : r.buffer.first? = some e) :
    ∃ r', flushConsecutive profile { r with nextSeq := e.1 } = some r' ∧
      Flushed { r with nextSeq := e.1 } r' ∧ Ordered r' ∧ r.nextSeq ≤ r'.nextSeq := by
  have hlt : r.nextSeq < e.1 := h.above e (OrderedMap.mem_of_first? he)
  obtain ⟨r', hrun, hr'⟩ :=
    flushConsecutive_flushed profile (r := { r with nextSeq := e.1 }) h.belowMax
  have hle : e.1 ≤ r'.nextSeq := hr'.le
  refine ⟨r', hrun, hr', ?_, by omega⟩
  exact hr'.ordered (fun x hx => OrderedMap.first?_le he hx) h.belowMax
    (fun d hd => (h.below d hd).trans hlt) h.inOrder

theorem Ordered.tick {r : Resequencer} (h : Ordered r) (profile : Profile) (now : Nat) :
    ∃ r', r.tick profile now = some r' ∧ Ordered r' ∧ r.nextSeq ≤ r'.nextSeq := by
  rw [Resequencer.tick]
  cases he : r.buffer.first? with
  | none => exact ⟨r, rfl, h, le_rfl⟩
  | some e =>
      dsimp only
      split_ifs
      · obtain ⟨r', hrun, -, hord, hle⟩ := h.flush_from_first profile he
        exact ⟨r', hrun, hord, hle⟩
      · exact ⟨r, rfl, h, le_rfl⟩

/-- The storing half of `put`, for a number that is not late. -/
theorem Ordered.store {r : Resequencer} (h : Ordered r) (profile : Profile) {seq : Nat}
    (hseq : r.nextSeq ≤ seq) (hmax : seq < u32Max) (p : ReseqPacket) :
    ∃ r', flushConsecutive profile { r with buffer := r.buffer.insert seq p } = some r' ∧
      Ordered r' ∧ r.nextSeq ≤ r'.nextSeq := by
  have hmem : ∀ x ∈ (r.buffer.insert seq p).entries, r.nextSeq ≤ x.1 ∧ x.1 < u32Max := by
    intro x hx
    rcases (OrderedMap.mem_insert x).mp hx with rfl | ⟨-, hx⟩
    · exact ⟨hseq, hmax⟩
    · exact ⟨(h.above x hx).le, h.belowMax x hx⟩
  obtain ⟨r', hrun, hr'⟩ := flushConsecutive_flushed profile
    (r := { r with buffer := r.buffer.insert seq p }) (fun x hx => (hmem x hx).2)
  have hle : r.nextSeq ≤ r'.nextSeq := hr'.le
  exact ⟨r', hrun, hr'.ordered (fun x hx => (hmem x hx).1) (fun x hx => (hmem x hx).2)
    h.below h.inOrder, hle⟩

/-- Some number from the smallest buffered one up to that of the `put` is not buffered, if the
buffer is full and the `put` is not late. The other calls meet the condition. -/
def AboveHeadRun (r : Resequencer) : Call → Prop
  | .put seq _ _ =>
      r.maxBufferSize ≤ r.buffer.len → r.nextSeq ≤ seq → ∀ e, r.buffer.first? = some e →
        ∃ j, e.1 ≤ j ∧ j ≤ seq ∧ r.buffer.get? j = none
  | .tick _ => True
  | .updateTimeout _ => True

/-- A flush from the smallest buffered number stops at or below the first free number. -/
theorem Flushed.nextSeq_le {r r' : Resequencer} {first j : Nat}
    (h : Flushed { r with nextSeq := first } r') (hj : first ≤ j)
    (hfree : r.buffer.get? j = none) : r'.nextSeq ≤ j := by
  by_contra hlt
  obtain ⟨p, hp⟩ := h.run j hj (not_le.mp hlt)
  exact OrderedMap.get?_eq_none_iff.mp hfree _ hp rfl

theorem Ordered.put {r : Resequencer} (h : Ordered r) (profile : Profile) {seq : Nat}
    {payload : List UInt8} {now : Nat} (hmax : seq < u32Max)
    (habove : AboveHeadRun r (.put seq payload now)) :
    ∃ r', r.put profile seq payload now = some r' ∧ Ordered r' ∧ r.nextSeq ≤ r'.nextSeq := by
  rw [Resequencer.put]
  by_cases hlate : seq < r.nextSeq
  · exact ⟨r, if_pos hlate, h, le_rfl⟩
  have hseq : r.nextSeq ≤ seq := not_lt.mp hlate
  rw [if_neg hlate]
  by_cases hfull : r.maxBufferSize ≤ r.buffer.len
  · rw [if_pos hfull, forceFlushHead]
    cases he : r.buffer.first? with
    | none => exact h.store profile hseq hmax _
    | some e =>
        obtain ⟨r₁, hrun₁, hfl, hord₁, hle₁⟩ := h.flush_from_first profile he
        -- the forced flush stops at or below the free number, hence at or below `seq`
        obtain ⟨j, hj₁, hj₂, hfree⟩ := habove hfull hseq e he
        have hnext : r₁.nextSeq ≤ seq := (hfl.nextSeq_le hj₁ hfree).trans hj₂
        obtain ⟨r₂, hrun₂, hord₂, hle₂⟩ := hord₁.store profile hnext hmax ⟨payload, now⟩
        dsimp only
        rw [hrun₁]
        exact ⟨r₂, hrun₂, hord₂, hle₁.trans hle₂⟩
  · rw [if_neg hfull]
    exact h.store profile hseq hmax _

/-- **The step lemma.** A call that meets `AboveHeadRun` returns, keeps the invariant and does
not lower `next_seq`. -/
theorem Ordered.step {r : Resequencer} (h : Ordered r) (profile : Profile) {c : Call}
    (hmax : c.BelowMax) (habove : AboveHeadRun r c) :
    ∃ r', r.step profile c = some r' ∧ Ordered r' ∧ r.nextSeq ≤ r'.nextSeq := by
  cases c with
  | put seq payload now => exact h.put profile hmax habove
  | tick now => exact h.tick profile now
  | updateTimeout scaled =>
      exact ⟨r.updateTimeout scaled, rfl, ⟨h.above, h.belowMax, h.below, h.inOrder⟩, le_rfl⟩

/-- **The run lemma.** -/
theorem Ordered.run {profile : Profile} {cs : List Call} {r : Resequencer} (h : Ordered r)
    (hmax : ∀ c ∈ cs, c.BelowMax) (habove : Along (Resequencer.step profile) AboveHeadRun r cs) :
    ∃ r', runFrom (Resequencer.step profile) r cs = some r' ∧ Ordered r' ∧
      r.nextSeq ≤ r'.nextSeq := by
  induction cs generalizing r with
  | nil => exact ⟨r, rfl, h, le_rfl⟩
  | cons c cs ih =>
      obtain ⟨r₁, hstep, hord, hle⟩ := h.step profile (hmax c (by simp)) habove.1
      obtain ⟨r', hrun, hord', hle'⟩ :=
        ih hord (fun c hc => hmax c (by simp [hc])) (habove.2 r₁ hstep)
      exact ⟨r', runFrom_cons_eq_some.mpr ⟨r₁, hstep, hrun⟩, hord', hle.trans hle'⟩

/-! ## What goes wrong otherwise -/

/-- A packet stored below `next_seq` stays in the buffer: the flush after it finds nothing. -/
theorem Ordered.store_overtaken {r : Resequencer} (h : Ordered r) (profile : Profile) {seq : Nat}
    (hlt : seq < r.nextSeq) (hmax : seq < u32Max) (p : ReseqPacket) :
    ∃ r', flushConsecutive profile { r with buffer := r.buffer.insert seq p } = some r' ∧
      (∀ x, x ∈ r'.buffer.entries ↔ x = (seq, p) ∨ x.1 ≠ seq ∧ x ∈ r.buffer.entries) ∧
      r.delivered <+: r'.delivered := by
  obtain ⟨r', hrun, hfl⟩ := flushConsecutive_flushed profile
    (r := { r with buffer := r.buffer.insert seq p }) (fun x hx => by
      rcases (OrderedMap.mem_insert x).mp hx with rfl | ⟨-, hx⟩
      · exact hmax
      · exact h.belowMax x hx)
  have hstay : r'.nextSeq = r.nextSeq := by
    by_contra hne
    have hle : r.nextSeq ≤ r'.nextSeq := hfl.le
    obtain ⟨q, hq⟩ := hfl.run r.nextSeq le_rfl (by omega)
    rcases (OrderedMap.mem_insert _).mp hq with heq | ⟨-, hq⟩
    · have : r.nextSeq = seq := congrArg Prod.fst heq
      omega
    · exact absurd (h.above _ hq) (lt_irrefl _)
  refine ⟨r', hrun, fun x => ?_, ?_⟩
  · rw [hfl.mem_buffer, hstay]
    exact ⟨fun hx => (OrderedMap.mem_insert x).mp hx.1,
      fun hx => ⟨(OrderedMap.mem_insert x).mpr hx, fun hin => absurd hin.2 (not_lt.mpr hin.1)⟩⟩
  · obtain ⟨ds, hds, -⟩ := hfl.delivered
    exact ⟨ds, hds.symm⟩

/-- The forced flush of a `put` that does not meet `AboveHeadRun` passes over its number:
everything from the smallest buffered number up to it is buffered. -/
theorem Flushed.overtakes {r r' : Resequencer} {e : Nat × ReseqPacket} {seq : Nat}
    (h : Flushed { r with nextSeq := e.1 } r')
    (hrun : ∀ j, ¬ (e.1 ≤ j ∧ j ≤ seq ∧ r.buffer.get? j = none)) : seq < r'.nextSeq := by
  by_contra hle
  have hfirst : e.1 ≤ r'.nextSeq := h.le
  cases hget : r.buffer.get? r'.nextSeq with
  | none => exact hrun r'.nextSeq ⟨hfirst, not_lt.mp hle, hget⟩
  | some p =>
      have hp := OrderedMap.get?_eq_some_iff.mp hget
      have hp' : (r'.nextSeq, p) ∈ r'.buffer.entries :=
        (h.mem_buffer _).mpr ⟨hp, fun hin => absurd hin.2 (lt_irrefl _)⟩
      exact h.stop _ hp' rfl

/-- A `put` that does not meet `AboveHeadRun` is stored below `next_seq` and at or below the
number delivered last. -/
theorem Ordered.put_overtaken {r : Resequencer} (h : Ordered r) (profile : Profile) {seq : Nat}
    {payload : List UInt8} {now : Nat} (hmax : seq < u32Max)
    (hbad : ¬ AboveHeadRun r (.put seq payload now)) :
    ∃ r', r.put profile seq payload now = some r' ∧
      r'.buffer.first? = some (seq, ⟨payload, now⟩) ∧
      (∀ x ∈ r'.buffer.entries, x.1 < u32Max) ∧ (∃ d ∈ r'.delivered, seq ≤ d.1) := by
  simp only [AboveHeadRun, not_forall, not_exists] at hbad
  obtain ⟨hfull, hseq, e, he, hrun⟩ := hbad
  obtain ⟨r₁, hrun₁, hfl, hord₁, -⟩ := h.flush_from_first profile he
  have hlt : seq < r₁.nextSeq := hfl.overtakes hrun
  have hpos : e.1 < r₁.nextSeq := hfl.passes_first he
  obtain ⟨r₂, hrun₂, hmem, hdel⟩ := hord₁.store_overtaken profile hlt hmax ⟨payload, now⟩
  refine ⟨r₂, ?_, OrderedMap.first?_eq_of_le ((hmem _).mpr (Or.inl rfl)) ?_, ?_, ?_⟩
  · rw [Resequencer.put, if_neg (not_lt.mpr hseq), if_pos hfull, forceFlushHead, he]
    dsimp only
    rw [hrun₁]
    exact hrun₂
  · intro x hx
    rcases (hmem x).mp hx with rfl | ⟨-, hx⟩
    · exact le_rfl
    · exact (hlt.trans (hord₁.above x hx)).le
  · intro x hx
    rcases (hmem x).mp hx with rfl | ⟨-, hx⟩
    · exact hmax
    · exact hord₁.belowMax x hx
  · -- the last number the forced flush delivered
    have hlast : e.1 ≤ r₁.nextSeq - 1 := by omega
    obtain ⟨d, hd, hd₁⟩ := hfl.mem_delivered (s := r₁.nextSeq - 1) hlast (by omega)
    exact ⟨d, hdel.subset hd, by omega⟩

/-- A packet stored at or below the number delivered last is handed over by the next tick that
finds it timed out: out of order, or for the second time. -/
theorem tick_stale_not_inOrder {r : Resequencer} (profile : Profile) {e : Nat × ReseqPacket}
    (he : r.buffer.first? = some e) (hmax : ∀ x ∈ r.buffer.entries, x.1 < u32Max)
    (hstale : ∃ d ∈ r.delivered, e.1 ≤ d.1) {now : Nat}
    (hlate : r.adaptiveTimeout < now - e.2.timestamp) :
    ∃ r', r.tick profile now = some r' ∧ ¬ r'.InOrder := by
  obtain ⟨r', hrun, hfl⟩ :=
    flushConsecutive_flushed profile (r := { r with nextSeq := e.1 }) hmax
  refine ⟨r', by rw [Resequencer.tick, he]; dsimp only; rw [if_pos hlate]; exact hrun, ?_⟩
  have hpos : e.1 < r'.nextSeq := hfl.passes_first he
  obtain ⟨ds, hds, hrange⟩ := hfl.delivered
  obtain ⟨d, hd, hd₁⟩ := hstale
  intro hin
  rw [InOrder, hds, List.map_append, List.pairwise_append] at hin
  have hfirst : e.1 ∈ ds.map Prod.fst := by
    rw [hrange, List.mem_range'_1]
    show e.1 ≤ e.1 ∧ e.1 < e.1 + (r'.nextSeq - e.1)
    omega
  have := hin.2.2 d.1 (List.mem_map_of_mem hd) e.1 hfirst
  omega

/-! ## In-order delivery -/

/-- `next_seq` never decreases along the run `cs` of calls. -/
def NextSeqMonotone (profile : Profile) (r₀ : Resequencer) (cs : List Call) : Prop :=
  ∀ cs₁ cs₂ r₁ r₂, cs = cs₁ ++ cs₂ → runFrom (step profile) r₀ cs₁ = some r₁ →
    runFrom (step profile) r₁ cs₂ = some r₂ → r₁.nextSeq ≤ r₂.nextSeq

/-- **In-order delivery, and exactly when.** A run of calls that all meet `AboveHeadRun`
returns, hands over strictly increasing sequence numbers and never lowers `next_seq`. The
first `put` that does not meet it breaks the order: one late tick after it hands over a number
that is not above the ones before. -/
theorem run_inOrder_while_aboveHeadRun (profile : Profile) (initialSeq maxBufferSize : Nat)
    (cs : List Call) (hmax : ∀ c ∈ cs, c.BelowMax)
    (habove : Along (step profile) AboveHeadRun (new initialSeq maxBufferSize) cs) :
    ∃ r, runFrom (step profile) (new initialSeq maxBufferSize) cs = some r ∧ r.InOrder ∧
      NextSeqMonotone profile (new initialSeq maxBufferSize) cs ∧
      ∀ seq payload now, seq < u32Max → ¬ AboveHeadRun r (.put seq payload now) →
        ∃ late r', runFrom (step profile) r [.put seq payload now, .tick late] = some r' ∧
          ¬ r'.InOrder := by
  obtain ⟨r, hrun, hord, -⟩ := (new_ordered initialSeq maxBufferSize).run hmax habove
  refine ⟨r, hrun, hord.inOrder, ?_, ?_⟩
  · rintro cs₁ cs₂ r₁ r₂ rfl h₁ h₂
    obtain ⟨habove₁, habove₂⟩ := along_append.mp habove
    obtain ⟨r₁', h₁', hord₁, -⟩ := (new_ordered initialSeq maxBufferSize).run
      (fun c hc => hmax c (by simp [hc])) habove₁
    obtain rfl : r₁' = r₁ := Option.some.inj (h₁'.symm.trans h₁)
    obtain ⟨r₂', h₂', -, hle⟩ := hord₁.run (fun c hc => hmax c (by simp [hc])) (habove₂ _ h₁)
    obtain rfl : r₂' = r₂ := Option.some.inj (h₂'.symm.trans h₂)
    exact hle
  · intro seq payload now hseq hbad
    obtain ⟨r₁, hput, hfirst, hmax₁, hstale⟩ := hord.put_overtaken profile hseq hbad
    have hlate : r₁.adaptiveTimeout < (now + r₁.adaptiveTimeout + 1) - now := by omega
    obtain ⟨r', htick, hout⟩ := tick_stale_not_inOrder profile hfirst hmax₁ hstale hlate
    exact ⟨_, r', runFrom_cons_eq_some.mpr
      ⟨r₁, hput, runFrom_cons_eq_some.mpr ⟨r', htick, rfl⟩⟩, hout⟩

theorem run_inOrder_three_packets :
    ∃ r, runFrom (step .debug) (new 100 50)
        [.put 102 [3] 0, .put 100 [1] 0, .put 101 [2] 0] = some r ∧ r.InOrder ∧
      NextSeqMonotone .debug (new 100 50) [.put 102 [3] 0, .put 100 [1] 0, .put 101 [2] 0] ∧
      ∀ seq payload now, seq < u32Max → ¬ AboveHeadRun r (.put seq payload now) →
        ∃ late r', runFrom (step .debug) r [.put seq payload now, .tick late] = some r' ∧
          ¬ r'.InOrder :=
  run_inOrder_while_aboveHeadRun .debug 100 50 _
    (by simp [Call.BelowMax, u32Max])
    ⟨by simp [AboveHeadRun, new, OrderedMap.len], fun r₁ h₁ => by
      obtain rfl := Option.some.inj h₁
      refine ⟨fun hfull => absurd hfull (by decide), fun r₂ h₂ => ?_⟩
      obtain rfl := Option.some.inj h₂
      refine ⟨fun hfull => absurd hfull (by decide), fun r₃ h₃ => trivial⟩⟩

/-- With room for one packet, `put 5`, `put 3` and a late tick deliver `5` before `3`: the
second `put` forces out `5` and is then stored below `next_seq = 6`. -/
theorem put_overtaken_not_inOrder :
    ¬ ∀ (profile : Profile) (initialSeq maxBufferSize : Nat) (cs : List Call),
      1 ≤ maxBufferSize → (∀ c ∈ cs, c.BelowMax) →
      (∀ r, runFrom (step profile) (new initialSeq maxBufferSize) cs = some r → r.InOrder) ∧
        NextSeqMonotone profile (new initialSeq maxBufferSize) cs := by
  intro h
  have hbad := (h .debug 0 1 [.put 5 [5] 0, .put 3 [3] 0, .tick 50000000] (by decide)
    (by simp [Call.BelowMax, u32Max])).1 _ rfl
  revert hbad
  show ¬ ([5, 3] : List Nat).Pairwise (· < ·)
  decide

end AetherBond.Core.Resequencer
