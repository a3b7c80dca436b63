import AetherBond.Core.Resequencing

set_option autoImplicit false

/-! # What the Rust resequencer buffers

`flush_consecutive` is a `while` loop (`FlushWhile`). Every turn takes a packet out of the buffer,
so the loop ends; it has then handed over the run of consecutive packets from `next_seq` up to
the first number that is not buffered (`FlushedRun`). Each call of `put` and `tick` ends with such
a flush or changes nothing, so nothing that could be released is held back, and a `put` makes
room before it stores: the buffer never outgrows `max_buffer_size` (`Bounded`,
`run_bounded_released`).
-/

namespace AetherBond.Core.Resequencer

open AetherBond.Lib

variable {profile : Profile} {r r₁ r' : Resequencer}

/-! ## The loop -/

/-- `len`. -/
def len (r : Resequencer) : Nat := r.buffer.len

/-- The loop of `flush_consecutive`, entered in `r`, ends in `r'`. -/
inductive FlushWhile (profile : Profile) : Resequencer → Resequencer → Prop
  | exit {r : Resequencer} (hfree : r.buffer.get? r.nextSeq = none) : FlushWhile profile r r
  | turn {r r' : Resequencer} {packet : ReseqPacket} {next : Nat}
      (hpacket : r.buffer.get? r.nextSeq = some packet)
      (hnext : addOneU32 profile r.nextSeq = some next)
      (hrest : FlushWhile profile (r.takeNext packet next) r') : FlushWhile profile r r'

theorem flushWhile_of_free (hfree : r.buffer.get? r.nextSeq = none) :
    FlushWhile profile r r' ↔ r = r' := by
  constructor
  · intro h
    cases h with
    | exit => rfl
    | turn hpacket => exact absurd (hfree.symm.trans hpacket) (Option.some_ne_none _).symm
  · rintro rfl
    exact .exit hfree

theorem flushWhile_of_buffered {packet : ReseqPacket}
    (hpacket : r.buffer.get? r.nextSeq = some packet) :
    FlushWhile profile r r' ↔ ∃ next, addOneU32 profile r.nextSeq = some next ∧
      FlushWhile profile (r.takeNext packet next) r' := by
  constructor
  · intro h
    cases h with
    | exit hfree => exact absurd (hfree.symm.trans hpacket) (Option.some_ne_none _).symm
    | @turn _ _ packet' next hpacket' hnext hrest =>
        obtain rfl : packet' = packet := Option.some.inj (hpacket'.symm.trans hpacket)
        exact ⟨next, hnext, hrest⟩
  · rintro ⟨next, hnext, hrest⟩
    exact .turn hpacket hnext hrest

/-- One turn per entry is enough, whatever is buffered. -/
theorem flushLoop_eq_some_iff {fuel : Nat} (hfuel : r.len ≤ fuel) :
    flushLoop profile fuel r = some r' ↔ FlushWhile profile r r' := by
  induction fuel generalizing r with
  | zero =>
      have hempty : r.buffer.entries = [] := List.length_eq_zero_iff.mp (Nat.le_zero.mp hfuel)
      have hfree : r.buffer.get? r.nextSeq = none :=
        OrderedMap.get?_eq_none_iff.mpr (by simp [hempty])
      rw [flushWhile_of_free hfree]
      exact Option.some_inj
  | succ fuel ih =>
      unfold flushLoop
      cases hget : r.buffer.get? r.nextSeq with
      | none =>
          rw [flushWhile_of_free hget]
          exact Option.some_inj
      | some packet =>
          rw [flushWhile_of_buffered hget]
          dsimp only
          rw [Option.bind_eq_some_iff]
          refine exists_congr fun next => and_congr_right fun _ => ih ?_
          exact Nat.lt_succ_iff.mp ((len_takeNext_lt hget next).trans_le hfuel)

/-- What `flush_consecutive` returns is where its loop ends. -/
theorem flushConsecutive_eq_some_iff :
    flushConsecutive profile r = some r' ↔ FlushWhile profile r r' :=
  flushLoop_eq_some_iff le_rfl

theorem addOneU32_release (x : Nat) : ∃ next, addOneU32 .release x = some next := by
  unfold addOneU32
  split_ifs
  · exact ⟨x + 1, rfl⟩
  · exact ⟨0, rfl⟩

theorem flushLoop_release (fuel : Nat) (r : Resequencer) :
    ∃ r', flushLoop .release fuel r = some r' := by
  induction fuel generalizing r with
  | zero => exact ⟨r, rfl⟩
  | succ fuel ih =>
      unfold flushLoop
      cases r.buffer.get? r.nextSeq with
      | none => exact ⟨r, rfl⟩
      | some packet =>
          obtain ⟨next, hnext⟩ := addOneU32_release r.nextSeq
          dsimp only
          rw [hnext, Option.bind_some]
          exact ih _

/-- In a release build it returns from every state, also past `u32::MAX`. -/
theorem flushConsecutive_release (r : Resequencer) : ∃ r', flushConsecutive .release r = some r' :=
  flushLoop_release r.buffer.len r

/-! ## The run it hands over -/

/-- The packets with their numbers, counted from `next`. -/
def numbered (next : Nat) (packets : List ReseqPacket) : List (Nat × List UInt8) :=
  (packets.zipIdx next).map fun p => (p.2, p.1.payload)

/-- The loop hands over the run `packets` and touches nothing else. -/
structure FlushedRun (packets : List ReseqPacket) (r r' : Resequencer) : Prop where
  run : r.buffer.IsRunFrom r.nextSeq packets
  nextSeq : r'.nextSeq = r.nextSeq + packets.length
  delivered : r'.delivered = r.delivered ++ numbered r.nextSeq packets
  buffer : ∀ s, r'.buffer.get? s =
    if r.nextSeq ≤ s ∧ s < r.nextSeq + packets.length then none else r.buffer.get? s

theorem FlushedRun.exit (hfree : r.buffer.get? r.nextSeq = none) : FlushedRun [] r r where
  run := hfree
  nextSeq := rfl
  delivered := (List.append_nil _).symm
  buffer s := by
    rw [if_neg (by simp)]

theorem FlushedRun.turn {packet : ReseqPacket} {packets : List ReseqPacket}
    (hpacket : r.buffer.get? r.nextSeq = some packet)
    (h : FlushedRun packets (r.takeNext packet (r.nextSeq + 1)) r') :
    FlushedRun (packet :: packets) r r' where
  run := ⟨hpacket, (OrderedMap.isRunFrom_remove r.nextSeq.lt_succ_self).mp h.run⟩
  nextSeq := by
    rw [h.nextSeq, List.length_cons]
    show r.nextSeq + 1 + packets.length = _
    omega
  delivered := by
    rw [h.delivered]
    show r.delivered ++ [_] ++ _ = r.delivered ++ (_ :: _)
    rw [List.append_assoc]
    rfl
  buffer s := by
    rw [h.buffer s, List.length_cons]
    show (if r.nextSeq + 1 ≤ s ∧ s < r.nextSeq + 1 + packets.length then none
      else (r.buffer.remove r.nextSeq).get? s) = _
    rw [OrderedMap.get?_remove]
    split_ifs <;> first | rfl | omega

/-- Numbers below `u32::MAX` cannot overflow `next_seq`. -/
theorem FlushWhile.flushedRun (h : FlushWhile profile r r')
    (hmax : ∀ x ∈ r.buffer.entries, x.1 < u32Max) : ∃ packets, FlushedRun packets r r' := by
  induction h with
  | exit hfree => exact ⟨[], .exit hfree⟩
  | @turn r r' packet next hpacket hnext hrest ih =>
      have hlt : r.nextSeq < u32Max := hmax _ (OrderedMap.get?_eq_some_iff.mp hpacket)
      obtain rfl : r.nextSeq + 1 = next := Option.some.inj ((addOneU32_of_lt hlt).symm.trans hnext)
      obtain ⟨packets, hpackets⟩ := ih fun x hx => hmax x (mem_of_mem_takeNext hx)
      exact ⟨packet :: packets, hpackets.turn hpacket⟩

/-! ## The bound -/

/-- What holds between two calls. -/
structure Bounded (r : Resequencer) : Prop where
  belowMax : ∀ x ∈ r.buffer.entries, x.1 < u32Max
  size : r.len ≤ r.maxBufferSize
  /-- Nothing that could be released is held back. -/
  free : r.buffer.get? r.nextSeq = none

theorem new_bounded (initialSeq maxBufferSize : Nat) : Bounded (new initialSeq maxBufferSize) where
  belowMax := by simp [new]
  size := Nat.zero_le _
  free := rfl

/-- A flush adds nothing to the buffer. -/
theorem Flushed.subset (h : Flushed r r') : r'.buffer.entries ⊆ r.buffer.entries :=
  fun x hx => ((h.mem_buffer x).mp hx).1

theorem Flushed.bounded (h : Flushed r r') (hmax : ∀ x ∈ r.buffer.entries, x.1 < u32Max)
    (hsize : r.len ≤ r.maxBufferSize) : Bounded r' where
  belowMax x hx := hmax x (h.subset hx)
  size := by
    rw [h.maxBufferSize]
    exact (OrderedMap.len_le_of_subset h.subset).trans hsize
  free := OrderedMap.get?_eq_none_iff.mpr h.stop

/-- A flush from the smallest buffered number takes that one out. -/
theorem Flushed.len_lt {e : Nat × ReseqPacket} (h : Flushed { r with nextSeq := e.1 } r')
    (he : r.buffer.first? = some e) : r'.len < r.len := by
  have hpasses : e.1 < r'.nextSeq := h.passes_first he
  refine OrderedMap.len_lt_of_subset h.subset (OrderedMap.mem_of_first? he) fun hin => ?_
  exact ((h.mem_buffer e).mp hin).2 ⟨le_rfl, hpasses⟩

theorem Bounded.flush_from_first (h : Bounded r) (profile : Profile) {e : Nat × ReseqPacket}
    (he : r.buffer.first? = some e) :
    ∃ r', flushConsecutive profile { r with nextSeq := e.1 } = some r' ∧ Bounded r' ∧
      r'.len < r'.maxBufferSize ∧ r'.maxBufferSize = r.maxBufferSize := by
  obtain ⟨r', hrun, hflushed⟩ :=
    flushConsecutive_flushed profile (r := { r with nextSeq := e.1 }) h.belowMax
  have hsame : r'.maxBufferSize = r.maxBufferSize := hflushed.maxBufferSize
  refine ⟨r', hrun, hflushed.bounded h.belowMax h.size, ?_, hsame⟩
  calc r'.len < r.len := hflushed.len_lt he
    _ ≤ r.maxBufferSize := h.size
    _ = r'.maxBufferSize := hsame.symm

/-- Storing a packet when there is room. The number may be below `next_seq`, or buffered already. -/
theorem Bounded.store (h : Bounded r) (profile : Profile) (hroom : r.len < r.maxBufferSize)
    {seq : Nat} (hseq : seq < u32Max) (packet : ReseqPacket) :
    ∃ r', flushConsecutive profile { r with buffer := r.buffer.insert seq packet } = some r' ∧
      Bounded r' ∧ r'.maxBufferSize = r.maxBufferSize := by
  have hmax : ∀ x ∈ (r.buffer.insert seq packet).entries, x.1 < u32Max := by
    intro x hx
    rcases (OrderedMap.mem_insert x).mp hx with rfl | ⟨-, hx⟩
    · exact hseq
    · exact h.belowMax x hx
  have hsize : (r.buffer.insert seq packet).len ≤ r.maxBufferSize :=
    calc (r.buffer.insert seq packet).len ≤ r.buffer.len + 1 := OrderedMap.len_insert_le _ _ _
      _ ≤ r.maxBufferSize := hroom
  obtain ⟨r', hrun, hflushed⟩ := flushConsecutive_flushed profile
    (r := { r with buffer := r.buffer.insert seq packet }) hmax
  exact ⟨r', hrun, hflushed.bounded hmax hsize, hflushed.maxBufferSize⟩

theorem Bounded.put (h : Bounded r) (profile : Profile) (hpos : 1 ≤ r.maxBufferSize) {seq : Nat}
    (hseq : seq < u32Max) (payload : List UInt8) (now : Nat) :
    ∃ r', r.put profile seq payload now = some r' ∧ Bounded r' ∧
      r'.maxBufferSize = r.maxBufferSize := by
  unfold Resequencer.put
  by_cases hlate : seq < r.nextSeq
  · rw [if_pos hlate]
    exact ⟨r, rfl, h, rfl⟩
  rw [if_neg hlate]
  by_cases hfull : r.maxBufferSize ≤ r.buffer.len
  · rw [if_pos hfull]
    unfold forceFlushHead
    cases he : r.buffer.first? with
    | none =>
        -- a full buffer is not empty
        have hempty : r.buffer.len = 0 :=
          List.length_eq_zero_iff.mpr (OrderedMap.first?_eq_none_iff.mp he)
        omega
    | some e =>
        obtain ⟨r₁, hrun₁, hbounded₁, hroom, hsame₁⟩ := h.flush_from_first profile he
        obtain ⟨r', hrun, hbounded, hsame⟩ := hbounded₁.store profile hroom hseq ⟨payload, now⟩
        refine ⟨r', ?_, hbounded, hsame.trans hsame₁⟩
        dsimp only
        rw [hrun₁, Option.bind_some]
        exact hrun
  · rw [if_neg hfull, Option.bind_some]
    exact h.store profile (not_le.mp hfull) hseq ⟨payload, now⟩

theorem Bounded.tick (h : Bounded r) (profile : Profile) (now : Nat) :
    ∃ r', r.tick profile now = some r' ∧ Bounded r' ∧ r'.maxBufferSize = r.maxBufferSize := by
  unfold Resequencer.tick
  cases he : r.buffer.first? with
  | none => exact ⟨r, rfl, h, rfl⟩
  | some e =>
      dsimp only
      split_ifs
      · obtain ⟨r', hrun, hbounded, -, hsame⟩ := h.flush_from_first profile he
        exact ⟨r', hrun, hbounded, hsame⟩
      · exact ⟨r, rfl, h, rfl⟩

/-- **The step lemma.** -/
theorem Bounded.step (h : Bounded r) (profile : Profile) (hpos : 1 ≤ r.maxBufferSize) {c : Call}
    (hmax : c.BelowMax) :
    ∃ r', r.step profile c = some r' ∧ Bounded r' ∧ r'.maxBufferSize = r.maxBufferSize := by
  cases c with
  | put seq payload now => exact h.put profile hpos hmax payload now
  | tick now => exact h.tick profile now
  | updateTimeout scaled =>
      exact ⟨r.updateTimeout scaled, rfl, ⟨h.belowMax, h.size, h.free⟩, rfl⟩

/-- **The run lemma.** -/
theorem Bounded.run {cs : List Call} (h : Bounded r) (hpos : 1 ≤ r.maxBufferSize)
    (hmax : ∀ c ∈ cs, c.BelowMax) :
    ∃ r', runFrom (Resequencer.step profile) r cs = some r' ∧ Bounded r' ∧
      r'.maxBufferSize = r.maxBufferSize := by
  induction cs generalizing r with
  | nil => exact ⟨r, rfl, h, rfl⟩
  | cons c cs ih =>
      obtain ⟨r₁, hstep, hbounded₁, hsame₁⟩ := h.step profile hpos (hmax c List.mem_cons_self)
      obtain ⟨r', hrun, hbounded, hsame⟩ :=
        ih hbounded₁ (hsame₁ ▸ hpos) fun c hc => hmax c (List.mem_cons_of_mem _ hc)
      exact ⟨r', runFrom_cons_eq_some.mpr ⟨r₁, hstep, hrun⟩, hbounded, hsame.trans hsame₁⟩

/-- **Memory bound and complete release.** With room for a packet at least, every run of calls with
numbers below `u32::MAX` returns with no more packets in the buffer than there is room for, and
with the next number not among them. From every state with such numbers the loop of
`flush_consecutive` ends, having handed over exactly the run of consecutive packets that starts at
`next_seq`. In a release build the loop ends from every state. -/
theorem run_bounded_released (profile : Profile) (initialSeq maxBufferSize : Nat)
    (hpos : 1 ≤ maxBufferSize) :
    (∀ cs : List Call, (∀ c ∈ cs, c.BelowMax) →
      ∃ r, runFrom (step profile) (new initialSeq maxBufferSize) cs = some r ∧
        r.len ≤ maxBufferSize ∧ r.buffer.get? r.nextSeq = none) ∧
    (∀ r : Resequencer, (∀ x ∈ r.buffer.entries, x.1 < u32Max) →
      ∃ r' packets, flushConsecutive profile r = some r' ∧ FlushWhile profile r r' ∧
        (∀ i, i < packets.length → r.buffer.get? (r.nextSeq + i) = packets[i]?) ∧
        r.buffer.get? (r.nextSeq + packets.length) = none ∧
        r'.delivered = r.delivered ++ numbered r.nextSeq packets ∧
        r'.nextSeq = r.nextSeq + packets.length ∧
        ∀ s, r'.buffer.get? s =
          if r.nextSeq ≤ s ∧ s < r.nextSeq + packets.length then none else r.buffer.get? s) ∧
    ∀ r : Resequencer, ∃ r', flushConsecutive .release r = some r' ∧ FlushWhile .release r r' := by
  refine ⟨fun cs hmax => ?_, fun r hmax => ?_, fun r => ?_⟩
  · obtain ⟨r, hrun, hbounded, hsame⟩ := (new_bounded initialSeq maxBufferSize).run hpos hmax
    refine ⟨r, hrun, ?_, hbounded.free⟩
    calc r.len ≤ r.maxBufferSize := hbounded.size
      _ = maxBufferSize := hsame
  · obtain ⟨r', hrun, -⟩ := flushConsecutive_flushed profile hmax
    have hloop : FlushWhile profile r r' := flushConsecutive_eq_some_iff.mp hrun
    obtain ⟨packets, hpackets⟩ := hloop.flushedRun hmax
    obtain ⟨hbuffered, hfree⟩ := OrderedMap.isRunFrom_iff.mp hpackets.run
    exact ⟨r', packets, hrun, hloop, hbuffered, hfree, hpackets.delivered, hpackets.nextSeq,
      hpackets.buffer⟩
  · obtain ⟨r', hrun⟩ := flushConsecutive_release r
    exact ⟨r', hrun, flushConsecutive_eq_some_iff.mp hrun⟩

/-- Room for one packet: the second `put` forces the first packet out and is stored below
`next_seq`; two buffered packets and a third one after a gap. -/
theorem run_bounded_released_room_for_one :
    (∃ r, runFrom (step .debug) (new 0 1) [.put 5 [5] 0, .put 3 [3] 0, .tick 1] = some r ∧
      r.len ≤ 1 ∧ r.buffer.get? r.nextSeq = none) ∧
    ∃ r' packets, flushConsecutive .debug
        { new 7 4 with
          buffer := ((OrderedMap.empty.insert 8 ⟨[8], 0⟩).insert 7 ⟨[7], 1⟩).insert 10 ⟨[10], 2⟩ }
          = some r' ∧
      r'.nextSeq = 7 + packets.length ∧ r'.delivered = numbered 7 packets := by
  obtain ⟨hruns, hflush, -⟩ := run_bounded_released .debug 0 1 le_rfl
  refine ⟨hruns _ (by simp [Call.BelowMax, u32Max]), ?_⟩
  obtain ⟨r', packets, hrun, -, -, -, hdelivered, hnext, -⟩ := hflush
    { new 7 4 with
      buffer := ((OrderedMap.empty.insert 8 ⟨[8], 0⟩).insert 7 ⟨[7], 1⟩).insert 10 ⟨[10], 2⟩ }
    (by decide)
  exact ⟨r', packets, hrun, hnext, hdelivered⟩

end AetherBond.Core.Resequencer
