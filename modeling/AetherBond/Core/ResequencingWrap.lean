import AetherBond.Core.ResequencingOrder

set_option autoImplicit false

/-! # The Rust resequencer at the end of the `u32` range

`next_seq += 1` overflows after the packet `u32::MAX` has been handed over. A debug build then
panics, so a run of the debug build returns exactly if no addition overflows, and a run that
returns is the same in both builds (`flushLoop_debug`).

`Climbs` is the condition for an overflow: from where its flush starts, a call finds every
number up to `u32::MAX` buffered (`step_climbs`). A sender reaches it as soon as its numbering
does: a stream whose packets all arrive, displaced by less than the buffer size, is delivered
in order if and only if it ends below `u32::MAX` (`run_noOverflow_iff`).
-/

namespace AetherBond.Core.Resequencer

open AetherBond.Lib

variable {r r₁ r' : Resequencer} {profile : Profile}

/-! ## The flush, with its overflow -/

/-- Every number from `start` to `u32::MAX` is buffered. -/
def FullFrom (r : Resequencer) (start : Nat) : Prop :=
  ∀ s, start ≤ s → s ≤ u32Max → ∃ p, (s, p) ∈ r.buffer.entries

/-- A flush without overflow. -/
structure SafeFlush (r r' : Resequencer) : Prop extends Flushed r r' where
  bounded : r'.nextSeq ≤ u32Max
  payloads : ∀ d ∈ r'.delivered,
    d ∈ r.delivered ∨ ∃ p, (d.1, p) ∈ r.buffer.entries ∧ d.2 = p.payload

theorem SafeFlush.refl (hnext : r.nextSeq ≤ u32Max)
    (h : ∀ x ∈ r.buffer.entries, x.1 ≠ r.nextSeq) : SafeFlush r r where
  toFlushed := Flushed.refl h
  bounded := hnext
  payloads _ hd := Or.inl hd

/-- The number a flush stops at was not buffered. -/
theorem Flushed.next_free (h : Flushed r r') (p : ReseqPacket) :
    (r'.nextSeq, p) ∉ r.buffer.entries := by
  intro hin
  have hstays : (r'.nextSeq, p) ∈ r'.buffer.entries :=
    (h.mem_buffer _).mpr ⟨hin, fun hpassed => absurd hpassed.2 (lt_irrefl _)⟩
  exact h.stop _ hstays rfl

theorem SafeFlush.not_fullFrom (h : SafeFlush r r') : ¬ FullFrom r r.nextSeq := by
  intro hfull
  obtain ⟨p, hp⟩ := hfull r'.nextSeq h.le h.bounded
  exact h.next_free p hp

/-- The flush overflows if it climbs to the end of the range. Otherwise it does the same in
both builds. -/
theorem flushLoop_debug {fuel : Nat} (hnext : r.nextSeq ≤ u32Max) (hfuel : r.buffer.len ≤ fuel) :
    (flushLoop .debug fuel r = none ∧ FullFrom r r.nextSeq) ∨
      ∃ r', (∀ profile, flushLoop profile fuel r = some r') ∧ SafeFlush r r' := by
  induction fuel generalizing r with
  | zero =>
      have hempty : r.buffer.entries = [] := List.length_eq_zero_iff.mp (Nat.le_zero.mp hfuel)
      exact Or.inr ⟨r, fun _ => rfl, SafeFlush.refl hnext (by simp [hempty])⟩
  | succ fuel ih =>
      unfold flushLoop
      cases hget : r.buffer.get? r.nextSeq with
      | none =>
          exact Or.inr ⟨r, fun _ => rfl,
            SafeFlush.refl hnext (OrderedMap.get?_eq_none_iff.mp hget)⟩
      | some p =>
          have hp := OrderedMap.get?_eq_some_iff.mp hget
          dsimp only
          rcases Nat.eq_or_lt_of_le hnext with hmax | hlt
          · -- the addition after `u32::MAX`
            refine Or.inl ⟨?_, fun s hge hle => ⟨p, ?_⟩⟩
            · unfold addOneU32
              rw [if_neg (by omega)]
              rfl
            · obtain rfl : s = r.nextSeq := by omega
              exact hp
          · have hless := len_takeNext_lt hget (r.nextSeq + 1)
            rcases ih (r := r.takeNext p (r.nextSeq + 1)) hlt (by omega) with
              ⟨hnone, hfull⟩ | ⟨r', hrun, hr'⟩
            · refine Or.inl ⟨?_, fun s hge hle => ?_⟩
              · rw [addOneU32_of_lt hlt]
                exact hnone
              · rcases Nat.eq_or_lt_of_le hge with rfl | hgt
                · exact ⟨p, hp⟩
                · obtain ⟨q, hq⟩ := hfull s hgt hle
                  exact ⟨q, mem_of_mem_takeNext hq⟩
            · refine Or.inr ⟨r', fun profile => ?_, ?_⟩
              · rw [addOneU32_of_lt hlt]
                exact hrun profile
              · constructor
                case toFlushed =>
                  have hflushed := hr'.toFlushed
                  refine Flushed.cons hp ?_ ?_ ?_ ?_ ?_ hflushed <;> rfl
                case bounded => exact hr'.bounded
                case payloads =>
                  intro d hd
                  rcases hr'.payloads d hd with hold | ⟨q, hq, hpay⟩
                  · rcases List.mem_append.mp hold with hold | hlast
                    · exact Or.inl hold
                    · obtain rfl := List.mem_singleton.mp hlast
                      exact Or.inr ⟨p, hp, rfl⟩
                  · exact Or.inr ⟨q, mem_of_mem_takeNext hq, hpay⟩

theorem flushConsecutive_debug (hnext : r.nextSeq ≤ u32Max) :
    (flushConsecutive .debug r = none ∧ FullFrom r r.nextSeq) ∨
      ∃ r', (∀ profile, flushConsecutive profile r = some r') ∧ SafeFlush r r' :=
  flushLoop_debug hnext le_rfl

/-! ## When a call overflows -/

/-- Every number in the buffer is a `u32`, and `u32::MAX` was never handed over. -/
structure InRange (r : Resequencer) : Prop where
  nextSeq : r.nextSeq ≤ u32Max
  buffer : ∀ x ∈ r.buffer.entries, x.1 ≤ u32Max
  delivered : ∀ d ∈ r.delivered, d.1 < u32Max

theorem new_inRange {initialSeq : Nat} (h : initialSeq ≤ u32Max) (maxBufferSize : Nat) :
    InRange (new initialSeq maxBufferSize) where
  nextSeq := h
  buffer := by simp [new]
  delivered := by simp [new]

theorem SafeFlush.inRange (h : SafeFlush r r') (hr : InRange r) : InRange r' where
  nextSeq := h.bounded
  buffer x hx := hr.buffer x ((h.mem_buffer x).mp hx).1
  delivered d hd := by
    obtain ⟨ds, hds, hrange⟩ := h.delivered
    rw [hds] at hd
    rcases List.mem_append.mp hd with hd | hd
    · exact hr.delivered d hd
    · have hmem : d.1 ∈ List.range' r.nextSeq (r'.nextSeq - r.nextSeq) :=
        hrange ▸ List.mem_map_of_mem hd
      have hle := h.le
      have hbounded := h.bounded
      have hlt := (List.mem_range'_1.mp hmem).2
      omega

/-- The sequence number of the call is a `u32`. -/
def Call.InRange : Call → Prop
  | .put seq _ _ => seq ≤ u32Max
  | .tick _ => True
  | .updateTimeout _ => True

/-- Where the flushes of a `put` start: at the smallest buffered number if the buffer is full. -/
def flushStart (r : Resequencer) : Nat :=
  if r.maxBufferSize ≤ r.buffer.len then (r.buffer.first?.map Prod.fst).getD r.nextSeq
  else r.nextSeq

/-- From where its flush starts, the call finds every number up to `u32::MAX` buffered, a `put`
with its own number counted. -/
def Climbs (r : Resequencer) : Call → Prop
  | .put seq _ _ =>
      r.nextSeq ≤ seq ∧ ∀ s, r.flushStart ≤ s → s ≤ u32Max →
        s = seq ∨ ∃ p, (s, p) ∈ r.buffer.entries
  | .tick now =>
      ∃ e, r.buffer.first? = some e ∧ r.adaptiveTimeout < now - e.2.timestamp ∧ FullFrom r e.1
  | .updateTimeout _ => False

/-- Storing a packet and flushing, after the forced flush if there was one. -/
theorem InRange.store (hr : InRange r) {seq : Nat} (hseq : seq ≤ u32Max) (p : ReseqPacket) :
    (flushConsecutive .debug { r with buffer := r.buffer.insert seq p } = none ∧
        ∀ s, r.nextSeq ≤ s → s ≤ u32Max → s = seq ∨ ∃ q, (s, q) ∈ r.buffer.entries) ∨
      ((¬ ∀ s, r.nextSeq ≤ s → s ≤ u32Max → s = seq ∨ ∃ q, (s, q) ∈ r.buffer.entries) ∧
        ∃ r', (∀ profile,
            flushConsecutive profile { r with buffer := r.buffer.insert seq p } = some r') ∧
          SafeFlush { r with buffer := r.buffer.insert seq p } r' ∧ InRange r') := by
  have hin : InRange { r with buffer := r.buffer.insert seq p } := by
    refine ⟨hr.nextSeq, fun x hx => ?_, hr.delivered⟩
    rcases (OrderedMap.mem_insert x).mp hx with rfl | ⟨-, hx⟩
    · exact hseq
    · exact hr.buffer x hx
  rcases flushConsecutive_debug hin.nextSeq with ⟨hnone, hfull⟩ | ⟨r', hrun, hr'⟩
  · refine Or.inl ⟨hnone, fun s hge hle => ?_⟩
    obtain ⟨q, hq⟩ := hfull s hge hle
    rcases (OrderedMap.mem_insert _).mp hq with heq | ⟨-, hq⟩
    · exact Or.inl (congrArg Prod.fst heq)
    · exact Or.inr ⟨q, hq⟩
  · refine Or.inr ⟨fun hall => hr'.not_fullFrom fun s hge hle => ?_, r', hrun, hr',
      hr'.inRange hin⟩
    by_cases hs : s = seq
    · exact ⟨p, (OrderedMap.mem_insert _).mpr (Or.inl (hs ▸ rfl))⟩
    · obtain ⟨q, hq⟩ := (hall s hge hle).resolve_left hs
      exact ⟨q, (OrderedMap.mem_insert _).mpr (Or.inr ⟨hs, hq⟩)⟩

theorem InRange.put (hr : InRange r) {seq : Nat} (hseq : seq ≤ u32Max) (payload : List UInt8)
    (now : Nat) :
    (r.put .debug seq payload now = none ∧ Climbs r (.put seq payload now)) ∨
      (¬ Climbs r (.put seq payload now) ∧
        ∃ r', (∀ profile, r.put profile seq payload now = some r') ∧ InRange r') := by
  unfold Resequencer.put Climbs
  by_cases hlate : seq < r.nextSeq
  · refine Or.inr ⟨fun h => absurd h.1 (not_le.mpr hlate), r, fun profile => ?_, hr⟩
    rw [if_pos hlate]
  have hge : r.nextSeq ≤ seq := not_lt.mp hlate
  simp only [if_neg hlate]
  by_cases hfull : r.maxBufferSize ≤ r.buffer.len
  · simp only [if_pos hfull, forceFlushHead, flushStart]
    cases he : r.buffer.first? with
    | none =>
        dsimp only [Option.map_none, Option.getD_none, Option.bind_some]
        rcases hr.store hseq ⟨payload, now⟩ with ⟨hnone, hall⟩ | ⟨hnot, r', hrun, -, hr'⟩
        · exact Or.inl ⟨hnone, hge, hall⟩
        · exact Or.inr ⟨fun h => hnot h.2, r', hrun, hr'⟩
    | some e =>
        dsimp only [Option.map_some, Option.getD_some]
        have hfrom : InRange { r with nextSeq := e.1 } :=
          ⟨hr.buffer e (OrderedMap.mem_of_first? he), hr.buffer, hr.delivered⟩
        rcases flushConsecutive_debug hfrom.nextSeq with ⟨hnone, hrunFull⟩ | ⟨r₁, hrun₁, hfl⟩
        · -- the forced flush itself climbs to the end
          rw [hnone, Option.bind_none]
          exact Or.inl ⟨rfl, hge, fun s h₁ h₂ => Or.inr (hrunFull s h₁ h₂)⟩
        · have hr₁ := hfl.inRange hfrom
          have hle : e.1 ≤ r₁.nextSeq := hfl.le
          -- below the first gap everything is buffered, above it nothing has changed
          have hiff : (∀ s, e.1 ≤ s → s ≤ u32Max →
              s = seq ∨ ∃ p, (s, p) ∈ r.buffer.entries) ↔
              ∀ s, r₁.nextSeq ≤ s → s ≤ u32Max →
                s = seq ∨ ∃ p, (s, p) ∈ r₁.buffer.entries := by
            constructor
            · intro h s h₁ h₂
              refine (h s (hle.trans h₁) h₂).imp_right ?_
              rintro ⟨p, hp⟩
              exact ⟨p, (hfl.mem_buffer _).mpr ⟨hp, fun hin => absurd hin.2 (not_lt.mpr h₁)⟩⟩
            · intro h s h₁ h₂
              rcases lt_or_ge s r₁.nextSeq with hlt | hge'
              · exact Or.inr (hfl.run s h₁ hlt)
              · refine (h s hge' h₂).imp_right ?_
                rintro ⟨p, hp⟩
                exact ⟨p, ((hfl.mem_buffer _).mp hp).1⟩
          simp only [hrun₁, Option.bind_some, hiff]
          rcases hr₁.store hseq ⟨payload, now⟩ with ⟨hnone, hall⟩ | ⟨hnot, r', hrun, -, hr'⟩
          · exact Or.inl ⟨hnone, hge, hall⟩
          · exact Or.inr ⟨fun h => hnot h.2, r', hrun, hr'⟩
  · simp only [if_neg hfull, flushStart, Option.bind_some]
    rcases hr.store hseq ⟨payload, now⟩ with ⟨hnone, hall⟩ | ⟨hnot, r', hrun, -, hr'⟩
    · exact Or.inl ⟨hnone, hge, hall⟩
    · exact Or.inr ⟨fun h => hnot h.2, r', hrun, hr'⟩

theorem InRange.tick (hr : InRange r) (now : Nat) :
    (r.tick .debug now = none ∧ Climbs r (.tick now)) ∨
      (¬ Climbs r (.tick now) ∧ ∃ r', (∀ profile, r.tick profile now = some r') ∧ InRange r') := by
  unfold Resequencer.tick Climbs
  cases he : r.buffer.first? with
  | none => exact Or.inr ⟨fun ⟨_, h, _⟩ => Option.some_ne_none _ h.symm, r, fun _ => rfl, hr⟩
  | some e =>
      dsimp only
      by_cases hlate : r.adaptiveTimeout < now - e.2.timestamp
      · simp only [if_pos hlate]
        have hfrom : InRange { r with nextSeq := e.1 } :=
          ⟨hr.buffer e (OrderedMap.mem_of_first? he), hr.buffer, hr.delivered⟩
        rcases flushConsecutive_debug hfrom.nextSeq with ⟨hnone, hfull⟩ | ⟨r', hrun, hfl⟩
        · exact Or.inl ⟨hnone, e, rfl, hlate, hfull⟩
        · refine Or.inr ⟨?_, r', hrun, hfl.inRange hfrom⟩
          rintro ⟨e', heq, -, hfull⟩
          obtain rfl := Option.some.inj heq
          exact hfl.not_fullFrom hfull
      · simp only [if_neg hlate]
        refine Or.inr ⟨?_, r, fun _ => rfl, hr⟩
        rintro ⟨e', heq, hlate', -⟩
        obtain rfl := Option.some.inj heq
        exact hlate hlate'

/-- **The step lemma**: a call overflows if it climbs; otherwise it returns, the same in both
builds. -/
theorem step_climbs (hr : InRange r) {c : Call} (hc : c.InRange) :
    (r.step .debug c = none ∧ Climbs r c) ∨
      (¬ Climbs r c ∧ ∃ r', (∀ profile, r.step profile c = some r') ∧ InRange r') := by
  cases c with
  | put seq payload now => exact hr.put hc payload now
  | tick now => exact hr.tick now
  | updateTimeout scaled =>
      exact Or.inr ⟨id, r.updateTimeout scaled, fun _ => rfl,
        ⟨hr.nextSeq, hr.buffer, hr.delivered⟩⟩

/-- **The run lemma**: a run overflows unless no call climbs. -/
theorem run_climbs {cs : List Call} (hr : InRange r) (hcs : ∀ c ∈ cs, c.InRange) :
    (runFrom (step .debug) r cs).isSome ↔ Along (step .debug) (fun r c => ¬ Climbs r c) r cs := by
  induction cs generalizing r with
  | nil => exact ⟨fun _ => trivial, fun _ => rfl⟩
  | cons c cs ih =>
      unfold runFrom Along
      rcases step_climbs hr (hcs c List.mem_cons_self) with ⟨hnone, hclimb⟩ | ⟨hnot, r₁, hrun, hr₁⟩
      · rw [hnone]
        exact ⟨fun h => absurd h Bool.false_ne_true, fun h => absurd hclimb h.1⟩
      · have hrest := ih hr₁ fun c hc => hcs c (List.mem_cons_of_mem _ hc)
        rw [hrun .debug, Option.bind_some, hrest]
        constructor
        · intro h
          refine ⟨hnot, fun r₂ hr₂ => ?_⟩
          obtain rfl := Option.some.inj hr₂
          exact h
        · exact fun h => h.2 r₁ rfl

theorem inRange_of_run {cs : List Call} (hr : InRange r) (hcs : ∀ c ∈ cs, c.InRange)
    (hrun : runFrom (step .debug) r cs = some r') : InRange r' := by
  induction cs generalizing r with
  | nil =>
      obtain rfl := Option.some.inj hrun
      exact hr
  | cons c cs ih =>
      obtain ⟨r₁, hstep, hrest⟩ := runFrom_cons_eq_some.mp hrun
      rcases step_climbs hr (hcs c List.mem_cons_self) with ⟨hnone, -⟩ | ⟨-, r₂, hrun₂, hr₂⟩
      · rw [hnone] at hstep
        cases hstep
      · obtain rfl := Option.some.inj ((hrun₂ .debug).symm.trans hstep)
        exact ih hr₂ (fun c hc => hcs c (List.mem_cons_of_mem _ hc)) hrest

/-! ## A sender that counts modulo `2 ^ 32` -/

/-- An event at the receiver of a stream: its `k`-th packet arrives, or the timer ticks. -/
inductive Arrival
  | packet (k : Nat) (now : Nat)
  | tick (now : Nat)

/-- The position in the stream of a packet that arrives. -/
def Arrival.index? : Arrival → Option Nat
  | .packet k _ => some k
  | .tick _ => none

/-- The packet number `k` of a stream that starts at `initialSeq`. -/
def sentPacket (initialSeq : Nat) (payload : Nat → List UInt8) (k : Nat) : Nat × List UInt8 :=
  ((initialSeq + k) % 2 ^ 32, payload k)

def Arrival.call (initialSeq : Nat) (payload : Nat → List UInt8) : Arrival → Call
  | .packet k now =>
      .put (sentPacket initialSeq payload k).1 (sentPacket initialSeq payload k).2 now
  | .tick now => .tick now

/-- All of the `n` packets arrive, each displaced by less than `window` positions. -/
structure Displaced (window n : Nat) (arrivals : List Nat) : Prop where
  all : arrivals.Perm (List.range n)
  near : ∀ i k, arrivals[i]? = some k → i < k + window ∧ k < i + window

/-- A tick finds no packet timed out. -/
def NoTimeout (r : Resequencer) : Call → Prop
  | .put _ _ _ => True
  | .tick now => ∀ e, r.buffer.first? = some e → now - e.2.timestamp ≤ r.adaptiveTimeout
  | .updateTimeout _ => True

/-- The receiver after the arrivals `pre` of a stream that does not wrap: the first `m` packets
are delivered and the others buffered. -/
structure Receiving (initialSeq maxBufferSize : Nat) (payload : Nat → List UInt8)
    (pre : List Nat) (m : Nat) (r : Resequencer) : Prop where
  nextSeq : r.nextSeq = initialSeq + m
  released : ∀ k < m, k ∈ pre
  delivered : r.delivered
    = (List.range' initialSeq m).map fun s => (s, payload (s - initialSeq))
  buffered : ∀ x ∈ r.buffer.entries,
    ∃ k ∈ pre, m < k ∧ x.1 = initialSeq + k ∧ x.2.payload = payload k
  kept : ∀ k ∈ pre, k < m ∨ ∃ p, (initialSeq + k, p) ∈ r.buffer.entries
  size : r.maxBufferSize = maxBufferSize

variable {initialSeq maxBufferSize n m : Nat} {payload : Nat → List UInt8}
  {pre post arrivals : List Nat}

theorem new_receiving (initialSeq maxBufferSize : Nat) (payload : Nat → List UInt8) :
    Receiving initialSeq maxBufferSize payload [] 0 (new initialSeq maxBufferSize) where
  nextSeq := rfl
  released k hk := absurd hk (Nat.not_lt_zero k)
  delivered := rfl
  buffered := by simp [new]
  kept k hk := absurd hk List.not_mem_nil
  size := rfl

/-- The packet to be delivered next has not arrived. -/
theorem Receiving.next_missing (h : Receiving initialSeq maxBufferSize payload pre m r) :
    m ∉ pre := by
  intro hin
  rcases h.kept m hin with hlt | ⟨p, hp⟩
  · exact lt_irrefl m hlt
  · obtain ⟨k, -, hlt, hk, -⟩ := h.buffered _ hp
    have hk' : initialSeq + m = initialSeq + k := hk
    omega

/-- What is delivered or buffered has arrived. -/
theorem Receiving.len_le (h : Receiving initialSeq maxBufferSize payload pre m r) :
    m + r.buffer.len ≤ pre.length := by
  have hkeys : (r.buffer.entries.map fun x => x.1 - initialSeq).Nodup := by
    refine List.pairwise_map.mpr (r.buffer.sorted.imp_of_mem ?_)
    intro x y hx hy hlt
    obtain ⟨i, -, -, hi, -⟩ := h.buffered x hx
    obtain ⟨j, -, -, hj, -⟩ := h.buffered y hy
    omega
  have hsplit : (List.range m ++ r.buffer.entries.map fun x => x.1 - initialSeq).Nodup := by
    refine List.nodup_append.mpr ⟨List.nodup_range, hkeys, fun i hi j hj => ?_⟩
    obtain ⟨x, hx, rfl⟩ := List.mem_map.mp hj
    obtain ⟨k, -, hlt, hk, -⟩ := h.buffered x hx
    have him := List.mem_range.mp hi
    omega
  have hsub : (List.range m ++ r.buffer.entries.map fun x => x.1 - initialSeq) ⊆ pre := by
    intro i hi
    rcases List.mem_append.mp hi with hi | hi
    · exact h.released i (List.mem_range.mp hi)
    · obtain ⟨x, hx, rfl⟩ := List.mem_map.mp hi
      obtain ⟨k, hk, -, heq, -⟩ := h.buffered x hx
      rwa [heq, Nat.add_sub_cancel_left]
  have hlen := (List.subperm_of_subset hsplit hsub).length_le
  rwa [List.length_append, List.length_range, List.length_map] at hlen

/-- **Room for the next packet**: the one to be delivered next is late by as many positions as
packets are buffered. -/
theorem Receiving.room (h : Receiving initialSeq maxBufferSize payload pre m r) {k : Nat}
    (hdisp : Displaced maxBufferSize n (pre ++ k :: post)) :
    r.buffer.len < maxBufferSize := by
  have hnodup := hdisp.all.nodup_iff.mpr List.nodup_range
  have hk : k ∉ pre := fun hin =>
    (List.nodup_append.mp hnodup).2.2 k hin k List.mem_cons_self rfl
  have hkn : k < n :=
    List.mem_range.mp (hdisp.all.subset (List.mem_append_right _ List.mem_cons_self))
  have hmn : m < n := by
    by_contra hle
    exact hk (h.released k (by omega))
  have hm : m ∈ k :: post :=
    (List.mem_append.mp (hdisp.all.symm.subset (List.mem_range.mpr hmn))).resolve_left
      h.next_missing
  obtain ⟨j, hj⟩ := List.getElem?_of_mem hm
  have hpos : (pre ++ k :: post)[pre.length + j]? = some m := by
    rw [List.getElem?_append_right (Nat.le_add_right _ _), Nat.add_sub_cancel_left, hj]
  have hnear := (hdisp.near _ _ hpos).1
  have hlen := h.len_le
  omega

/-- The receiver after the arrivals `pre` and before the flush: the packet to be delivered next
may be in the buffer. -/
structure Storing (initialSeq maxBufferSize : Nat) (payload : Nat → List UInt8)
    (pre : List Nat) (m : Nat) (r : Resequencer) : Prop where
  nextSeq : r.nextSeq = initialSeq + m
  released : ∀ k < m, k ∈ pre
  delivered : r.delivered
    = (List.range' initialSeq m).map fun s => (s, payload (s - initialSeq))
  buffered : ∀ x ∈ r.buffer.entries,
    ∃ k ∈ pre, m ≤ k ∧ x.1 = initialSeq + k ∧ x.2.payload = payload k
  kept : ∀ k ∈ pre, k < m ∨ ∃ p, (initialSeq + k, p) ∈ r.buffer.entries
  size : r.maxBufferSize = maxBufferSize

/-- A new packet is stored. -/
theorem Receiving.store (h : Receiving initialSeq maxBufferSize payload pre m r) {k : Nat}
    (hk : k ∉ pre) (now : Nat) :
    Storing initialSeq maxBufferSize payload (pre ++ [k]) m
      { r with buffer := r.buffer.insert (initialSeq + k) ⟨payload k, now⟩ } where
  nextSeq := h.nextSeq
  released j hj := List.mem_append_left _ (h.released j hj)
  delivered := h.delivered
  buffered := by
    intro x hx
    rcases (OrderedMap.mem_insert x).mp hx with rfl | ⟨-, hx⟩
    · have hmk : m ≤ k := not_lt.mp fun hlt => hk (h.released k hlt)
      exact ⟨k, List.mem_append_right _ List.mem_cons_self, hmk, rfl, rfl⟩
    · obtain ⟨j, hj, hlt, hseq, hpay⟩ := h.buffered x hx
      exact ⟨j, List.mem_append_left _ hj, hlt.le, hseq, hpay⟩
  kept := by
    intro j hj
    rcases List.mem_append.mp hj with hj | hj
    · by_cases hjk : j = k
      · exact absurd (hjk ▸ hj) hk
      · refine (h.kept j hj).imp_right fun ⟨p, hp⟩ => ⟨p, (OrderedMap.mem_insert _).mpr ?_⟩
        exact Or.inr ⟨by dsimp only; omega, hp⟩
    · obtain rfl := List.mem_singleton.mp hj
      exact Or.inr ⟨_, (OrderedMap.mem_insert _).mpr (Or.inl rfl)⟩
  size := h.size

/-- A flush hands over the payloads of the packets, in their order. -/
theorem Storing.flush_delivered (h : Storing initialSeq maxBufferSize payload pre m r)
    (hr' : SafeFlush r r') {m' : Nat} (hm' : r'.nextSeq = initialSeq + m') (hmm : m ≤ m') :
    r'.delivered = (List.range' initialSeq m').map fun s => (s, payload (s - initialSeq)) := by
  obtain ⟨ds, hds, hrange⟩ := hr'.delivered
  rw [h.nextSeq, hm', Nat.add_sub_add_left] at hrange
  have hpayload : ∀ d ∈ r'.delivered, d.2 = payload (d.1 - initialSeq) := by
    intro d hd
    rcases hr'.payloads d hd with hold | ⟨p, hp, hpay⟩
    · rw [h.delivered] at hold
      obtain ⟨s, -, rfl⟩ := List.mem_map.mp hold
      rfl
    · obtain ⟨j, -, -, hseq, hpay'⟩ := h.buffered _ hp
      have hseq' : d.1 = initialSeq + j := hseq
      rw [hpay, hseq', Nat.add_sub_cancel_left]
      exact hpay'
  have hdsmap : ds = (ds.map Prod.fst).map fun s => (s, payload (s - initialSeq)) := by
    rw [List.map_map]
    refine (List.map_id ds).symm.trans (List.map_congr_left fun d hd => ?_)
    have hd' := hpayload d (hds ▸ List.mem_append_right _ hd)
    exact Prod.ext rfl hd'
  calc r'.delivered
      = r.delivered ++ ds := hds
    _ = (List.range' initialSeq m ++ List.range' (initialSeq + m) (m' - m)).map
          fun s => (s, payload (s - initialSeq)) := by
        rw [hdsmap, hrange, h.delivered, List.map_append]
    _ = (List.range' initialSeq m').map fun s => (s, payload (s - initialSeq)) := by
        rw [List.range'_append_1, Nat.add_sub_cancel' hmm]

/-- A flush that returns leaves only packets after the next missing one. -/
theorem Storing.flush (h : Storing initialSeq maxBufferSize payload pre m r)
    (hr' : SafeFlush r r') : ∃ m', Receiving initialSeq maxBufferSize payload pre m' r' := by
  have hnext := h.nextSeq
  have hle : initialSeq + m ≤ r'.nextSeq := hnext ▸ hr'.le
  obtain ⟨m', hm'⟩ : ∃ m', r'.nextSeq = initialSeq + m' :=
    ⟨r'.nextSeq - initialSeq, by omega⟩
  have hmm : m ≤ m' := by omega
  refine ⟨m', ?_⟩
  constructor
  case nextSeq => exact hm'
  case released =>
    intro j hj
    by_cases hjm : j < m
    · exact h.released j hjm
    · obtain ⟨p, hp⟩ := hr'.run (initialSeq + j) (by rw [hnext]; omega) (by rw [hm']; omega)
      obtain ⟨i, hi, -, hseq, -⟩ := h.buffered _ hp
      obtain rfl : j = i := Nat.add_left_cancel hseq
      exact hi
  case delivered => exact h.flush_delivered hr' hm' hmm
  case buffered =>
    intro x hx
    obtain ⟨hx₀, hout⟩ := (hr'.mem_buffer x).mp hx
    have hne := hr'.stop x hx
    obtain ⟨j, hj, hmj, hseq, hpay⟩ := h.buffered x hx₀
    rw [hnext, hm', hseq] at hout
    rw [hm', hseq] at hne
    exact ⟨j, hj, by omega, hseq, hpay⟩
  case kept =>
    intro j hj
    rcases h.kept j hj with hlt | ⟨p, hp⟩
    · exact Or.inl (hlt.trans_le hmm)
    · by_cases hjm : j < m'
      · exact Or.inl hjm
      · refine Or.inr ⟨p, (hr'.mem_buffer _).mpr ⟨hp, fun hin => hjm ?_⟩⟩
        have hlt : initialSeq + j < r'.nextSeq := hin.2
        omega
  case size => exact hr'.maxBufferSize.trans h.size

/-- A packet arrives. -/
theorem Receiving.packet (h : Receiving initialSeq maxBufferSize payload pre m r) {k : Nat}
    (hdisp : Displaced maxBufferSize n (pre ++ k :: post)) (hfit : initialSeq + n ≤ u32Max)
    (now : Nat) :
    ∃ m' r', (∀ profile, r.put profile (initialSeq + k) (payload k) now = some r') ∧
      Receiving initialSeq maxBufferSize payload (pre ++ [k]) m' r' := by
  have hroom := h.room hdisp
  have hbelow : ∀ j ∈ pre ++ k :: post, j < n :=
    fun j hj => List.mem_range.mp (hdisp.all.subset hj)
  have hkn : k < n := hbelow k (List.mem_append_right _ List.mem_cons_self)
  have hk : k ∉ pre := fun hin =>
    (List.nodup_append.mp (hdisp.all.nodup_iff.mpr List.nodup_range)).2.2 k hin k
      List.mem_cons_self rfl
  have hmk : m ≤ k := not_lt.mp fun hlt => hk (h.released k hlt)
  have hlate : ¬ initialSeq + k < r.nextSeq := by
    rw [h.nextSeq]
    omega
  have hstored := h.store hk now
  have hnext := hstored.nextSeq
  rcases flushConsecutive_debug (by rw [hnext]; omega) with ⟨-, hfull⟩ | ⟨r', hrun, hr'⟩
  · -- no packet of the stream is numbered `u32::MAX`
    obtain ⟨p, hp⟩ := hfull u32Max (by rw [hnext]; omega) le_rfl
    obtain ⟨j, hj, -, hseq, -⟩ := hstored.buffered _ hp
    have hjn : j < n := by
      rcases List.mem_append.mp hj with hj | hj
      · exact hbelow j (List.mem_append_left _ hj)
      · exact List.mem_singleton.mp hj ▸ hkn
    have hseq' : u32Max = initialSeq + j := hseq
    omega
  obtain ⟨m', h'⟩ := hstored.flush hr'
  refine ⟨m', r', fun profile => ?_, h'⟩
  unfold Resequencer.put
  rw [if_neg hlate, if_neg (not_le.mpr (h.size ▸ hroom)), Option.bind_some]
  exact hrun profile

theorem sentPacket_fst (hfit : initialSeq + n ≤ u32Max) {k : Nat} (hk : k < n) :
    (sentPacket initialSeq payload k).1 = initialSeq + k :=
  Nat.mod_eq_of_lt (by unfold u32Max at hfit; omega)

/-- **The run lemma** for a stream that does not wrap. -/
theorem Receiving.run {es : List Arrival}
    (h : Receiving initialSeq maxBufferSize payload pre m r)
    (hdisp : Displaced maxBufferSize n (pre ++ es.filterMap Arrival.index?))
    (hfit : initialSeq + n ≤ u32Max)
    (hquiet : Along (step .debug) NoTimeout r (es.map (Arrival.call initialSeq payload))) :
    ∃ m' r', (∀ profile,
        runFrom (step profile) r (es.map (Arrival.call initialSeq payload)) = some r') ∧
      Receiving initialSeq maxBufferSize payload (pre ++ es.filterMap Arrival.index?) m' r' := by
  induction es generalizing pre m r with
  | nil => exact ⟨m, r, fun _ => rfl, by rwa [List.filterMap_nil, List.append_nil]⟩
  | cons e es ih =>
      cases e with
      | packet k now =>
          rw [List.filterMap_cons_some (show (Arrival.packet k now).index? = some k from rfl)]
            at hdisp ⊢
          obtain ⟨m₁, r₁, hput, h₁⟩ := h.packet hdisp hfit now
          have hkn : k < n :=
            List.mem_range.mp (hdisp.all.subset (List.mem_append_right _ List.mem_cons_self))
          have hstep : ∀ profile, step profile r
              ((Arrival.packet k now).call initialSeq payload) = some r₁ := by
            intro profile
            show r.put profile (sentPacket initialSeq payload k).1 (payload k) now = some r₁
            rw [sentPacket_fst hfit hkn]
            exact hput profile
          rw [List.append_cons] at hdisp ⊢
          obtain ⟨m', r', hrun, h'⟩ := ih h₁ hdisp (hquiet.2 r₁ (hstep .debug))
          exact ⟨m', r', fun profile =>
            runFrom_cons_eq_some.mpr ⟨r₁, hstep profile, hrun profile⟩, h'⟩
      | tick now =>
          rw [List.filterMap_cons_none (show (Arrival.tick now).index? = none from rfl)]
            at hdisp ⊢
          have hstep : ∀ profile, step profile r
              ((Arrival.tick now).call initialSeq payload) = some r := by
            intro profile
            show r.tick profile now = some r
            have hquiet₁ : ∀ e, r.buffer.first? = some e → _ := hquiet.1
            unfold Resequencer.tick
            cases he : r.buffer.first? with
            | none => rfl
            | some e => exact if_neg (not_lt.mpr (hquiet₁ e he))
          obtain ⟨m', r', hrun, h'⟩ := ih h hdisp (hquiet.2 r (hstep .debug))
          exact ⟨m', r', fun profile =>
            runFrom_cons_eq_some.mpr ⟨r, hstep profile, hrun profile⟩, h'⟩

/-- Once every packet has arrived every one is delivered. -/
theorem Receiving.complete (h : Receiving initialSeq maxBufferSize payload arrivals m r)
    (hall : arrivals.Perm (List.range n)) (hfit : initialSeq + n ≤ u32Max) :
    r.delivered = (List.range n).map (sentPacket initialSeq payload) := by
  have hm : m = n := by
    refine le_antisymm (not_lt.mp fun hlt => ?_) (not_lt.mp fun hlt => ?_)
    · exact absurd (List.mem_range.mp (hall.subset (h.released n hlt))) (lt_irrefl n)
    · exact h.next_missing (hall.symm.subset (List.mem_range.mpr hlt))
  rw [h.delivered, hm, List.range'_eq_map_range, List.map_map]
  refine List.map_congr_left fun k hk => Prod.ext ?_ ?_
  · exact (sentPacket_fst hfit (List.mem_range.mp hk)).symm
  · show payload (initialSeq + k - initialSeq) = payload k
    rw [Nat.add_sub_cancel_left]

/-- **The end of the range, and exactly when it is reached.** No addition of a run overflows if
and only if none of its calls climbs to `u32::MAX`. And a stream of `n` packets numbered from
`initialSeq` modulo `2 ^ 32`, that all arrive, displaced by less than the buffer size and
without a timeout, is delivered without overflow and in the sender's order if and only if it
ends below `u32::MAX`. -/
theorem run_noOverflow_iff (initialSeq maxBufferSize : Nat) (hinit : initialSeq ≤ u32Max) :
    (∀ cs : List Call, (∀ c ∈ cs, c.InRange) →
      ((runFrom (step .debug) (new initialSeq maxBufferSize) cs).isSome ↔
        Along (step .debug) (fun r c => ¬ Climbs r c) (new initialSeq maxBufferSize) cs)) ∧
    ∀ (payload : Nat → List UInt8) (n : Nat) (es : List Arrival),
      Displaced maxBufferSize n (es.filterMap Arrival.index?) →
      Along (step .debug) NoTimeout (new initialSeq maxBufferSize)
        (es.map (Arrival.call initialSeq payload)) →
      ((∃ r, (∀ profile, runFrom (step profile) (new initialSeq maxBufferSize)
            (es.map (Arrival.call initialSeq payload)) = some r) ∧
          r.delivered = (List.range n).map (sentPacket initialSeq payload)) ↔
        initialSeq + n ≤ u32Max) := by
  refine ⟨fun cs hcs => run_climbs (new_inRange hinit maxBufferSize) hcs,
    fun payload n es hdisp hquiet => ⟨?_, fun hfit => ?_⟩⟩
  · rintro ⟨r, hrun, hdel⟩
    by_contra hover
    have hcalls : ∀ c ∈ es.map (Arrival.call initialSeq payload), c.InRange := by
      intro c hc
      obtain ⟨e, -, rfl⟩ := List.mem_map.mp hc
      cases e with
      | packet k now =>
          show (initialSeq + k) % 2 ^ 32 ≤ u32Max
          unfold u32Max
          omega
      | tick now => trivial
    have hr := inRange_of_run (new_inRange hinit maxBufferSize) hcalls (hrun .debug)
    -- the packet numbered `u32::MAX` would have been handed over
    have hlast : sentPacket initialSeq payload (u32Max - initialSeq) ∈ r.delivered := by
      rw [hdel]
      exact List.mem_map_of_mem (List.mem_range.mpr (by omega))
    have hlt : (initialSeq + (u32Max - initialSeq)) % 2 ^ 32 < u32Max := hr.delivered _ hlast
    rw [Nat.add_sub_cancel' hinit] at hlt
    exact absurd hlt (by decide)
  · obtain ⟨m, r, hrun, hr⟩ := (new_receiving initialSeq maxBufferSize payload).run
      hdisp hfit hquiet
    exact ⟨r, hrun, hr.complete hdisp.all hfit⟩

/-- The last two packets below `u32::MAX`, in the wrong order. -/
theorem run_noOverflow_last_two :
    (runFrom (step .debug) (new 4294967293 2)
        [.put 4294967294 [2] 0, .put 4294967293 [1] 0]).isSome ∧
      ∃ r, (∀ profile, runFrom (step profile) (new 4294967293 2)
          [.put 4294967294 [2] 0, .put 4294967293 [1] 0] = some r) ∧
        r.delivered = [(4294967293, [1]), (4294967294, [2])] := by
  obtain ⟨hclimb, hstream⟩ := run_noOverflow_iff 4294967293 2 (by decide)
  -- a gap is left below the first packet, and one above the second
  have hfirst : ¬ Climbs (new 4294967293 2) (.put 4294967294 [2] 0) := by
    rintro ⟨-, hall⟩
    obtain hself | ⟨p, hp⟩ := hall 4294967293 (by decide) (by decide)
    · exact absurd hself (by decide)
    · cases hp
  have hsecond : ∀ r, (new 4294967293 2).step .debug (.put 4294967294 [2] 0) = some r →
      ¬ Climbs r (.put 4294967293 [1] 0) := by
    rintro r hr ⟨-, hall⟩
    obtain rfl := Option.some.inj hr
    obtain hself | ⟨p, hp⟩ := hall u32Max (by decide) le_rfl
    · exact absurd hself (by decide)
    · have hseq : u32Max = 4294967294 := congrArg Prod.fst (List.mem_singleton.mp hp)
      exact absurd hseq (by decide)
  have hcalm : Along (step .debug) (fun r c => ¬ Climbs r c) (new 4294967293 2)
      [.put 4294967294 [2] 0, .put 4294967293 [1] 0] :=
    ⟨hfirst, fun r hr => ⟨hsecond r hr, fun _ _ => trivial⟩⟩
  refine ⟨(hclimb _ (by simp [Call.InRange, u32Max])).mpr hcalm, ?_⟩
  refine (hstream (fun k => if k = 0 then [1] else [2]) 2 [.packet 1 0, .packet 0 0]
    ⟨by decide, fun i k hik => ?_⟩ ⟨trivial, fun _ _ => ⟨trivial, fun _ _ => trivial⟩⟩).mpr
    (by decide)
  rcases i with _ | _ | i
  · obtain rfl := Option.some.inj hik
    decide
  · obtain rfl := Option.some.inj hik
    decide
  · cases hik

/-- A packet numbered `u32::MAX` makes a debug build panic. In a release build the packet after
it, numbered 0, is lost if it overtakes it. -/
theorem put_max_overflows :
    (runFrom (step .debug) (new u32Max 8) [.put u32Max [1] 0]).isNone ∧
      (runFrom (step .release) (new u32Max 8) [.put 0 [2] 0, .put u32Max [1] 0]).map delivered
        = some [(u32Max, [1])] ∧
      ¬ ∀ (profile : Profile) (initialSeq maxBufferSize : Nat), initialSeq ≤ u32Max →
        (∀ cs : List Call, (∀ c ∈ cs, c.InRange) →
          (runFrom (step .debug) (new initialSeq maxBufferSize) cs).isSome) ∧
        ∀ (payload : Nat → List UInt8) (n : Nat) (es : List Arrival),
          Displaced maxBufferSize n (es.filterMap Arrival.index?) →
          Along (step profile) NoTimeout (new initialSeq maxBufferSize)
            (es.map (Arrival.call initialSeq payload)) →
          ∃ r, runFrom (step profile) (new initialSeq maxBufferSize)
              (es.map (Arrival.call initialSeq payload)) = some r ∧
            r.delivered = (List.range n).map (sentPacket initialSeq payload) := by
  refine ⟨by decide, by decide, fun h => ?_⟩
  have hreturns := (h .debug u32Max 8 le_rfl).1 [.put u32Max [1] 0] (by simp [Call.InRange])
  exact absurd hreturns (by decide)

end AetherBond.Core.Resequencer
