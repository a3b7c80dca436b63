import AetherBond.Core.Resequencing

set_option autoImplicit false

/-! # Repeated packets at the Rust resequencer

The duplicator of the sender repeats packets on purpose. `put` recognises a repeated packet by
its lateness alone: below `next_seq` the call does nothing, whatever it carries. A number that
is not below `next_seq` is stored as if it were new, also when it is buffered (its payload and
its arrival time are overwritten) or was handed over before `next_seq` went back, and a full
buffer is flushed for it first. So a repeated `put` is without effect exactly below `next_seq`
(`idempotent_iff`), in every state and in both build profiles.
-/

namespace AetherBond.Core.Resequencer

open AetherBond.Lib

variable {profile : Profile} {r r' : Resequencer} {seq : Nat}

/-! ## What a flush hands over -/

/-- What was handed over stays handed over, also where `next_seq` overflows. -/
theorem flushLoop_delivered {fuel : Nat} (hrun : flushLoop profile fuel r = some r') :
    r.delivered <+: r'.delivered := by
  induction fuel generalizing r with
  | zero =>
      obtain rfl := Option.some.inj hrun
      exact List.prefix_rfl
  | succ fuel ih =>
      rw [flushLoop] at hrun
      cases hget : r.buffer.get? r.nextSeq with
      | none =>
          rw [hget] at hrun
          obtain rfl := Option.some.inj hrun
          exact List.prefix_rfl
      | some packet =>
          rw [hget] at hrun
          obtain ⟨next, -, hrest⟩ := Option.bind_eq_some_iff.mp hrun
          exact (List.prefix_append _ _).trans (ih hrest)

/-- A flush that finds its number hands it over. -/
theorem flushConsecutive_delivers {packet : ReseqPacket}
    (hget : r.buffer.get? r.nextSeq = some packet)
    (hrun : flushConsecutive profile r = some r') :
    r.delivered.length < r'.delivered.length := by
  have hpos : 0 < r.buffer.len :=
    List.length_pos_of_mem (OrderedMap.get?_eq_some_iff.mp hget)
  obtain ⟨fuel, hfuel⟩ := Nat.exists_eq_succ_of_ne_zero hpos.ne'
  unfold flushConsecutive at hrun
  rw [hfuel, Nat.succ_eq_add_one, flushLoop, hget] at hrun
  obtain ⟨next, -, hrest⟩ := Option.bind_eq_some_iff.mp hrun
  have hle := (flushLoop_delivered hrest).length_le
  rw [List.length_append, List.length_singleton] at hle
  omega

/-- A flush that does not find its number does nothing. -/
theorem flushConsecutive_of_get?_none (h : r.buffer.get? r.nextSeq = none) :
    flushConsecutive profile r = some r := by
  unfold flushConsecutive
  cases r.buffer.len with
  | zero => rfl
  | succ fuel => rw [flushLoop, h]

/-! ## What a `put` leaves behind -/

/-- A late packet is dropped before anything else. -/
theorem put_late (hlate : seq < r.nextSeq) (payload : List UInt8) (now : Nat) :
    r.put profile seq payload now = some r := if_pos hlate

/-- Into a full buffer: its head is handed over first, if it has one. -/
theorem put_full_empty (hlate : ¬ seq < r.nextSeq) (hfull : r.maxBufferSize ≤ r.buffer.len)
    {payload : List UInt8} {now : Nat} (hput : r.put profile seq payload now = some r')
    (hdelivered : r'.delivered = r.delivered) : r.buffer.entries = [] := by
  unfold Resequencer.put at hput
  rw [if_neg hlate, if_pos hfull] at hput
  obtain ⟨r₁, hforce, hflush⟩ := Option.bind_eq_some_iff.mp hput
  unfold forceFlushHead at hforce
  cases hfirst : r.buffer.first? with
  | none => exact OrderedMap.first?_eq_none_iff.mp hfirst
  | some e =>
      rw [hfirst] at hforce
      have hget : r.buffer.get? e.1 = some e.2 :=
        OrderedMap.get?_eq_some_iff.mpr (OrderedMap.mem_of_first? hfirst)
      have hlt : r.delivered.length < r₁.delivered.length :=
        flushConsecutive_delivers (r := { r with nextSeq := e.1 }) hget hforce
      have hle : r₁.delivered.length ≤ r'.delivered.length := (flushLoop_delivered hflush).length_le
      have hlen := congrArg List.length hdelivered
      omega

/-- A packet that is not late and hands nothing over is stored, over what was there. -/
theorem put_stores (hlate : ¬ seq < r.nextSeq) {payload : List UInt8} {now : Nat}
    (hput : r.put profile seq payload now = some r') (hdelivered : r'.delivered = r.delivered) :
    r'.buffer = r.buffer.insert seq ⟨payload, now⟩ := by
  have hflush : flushConsecutive profile
      { r with buffer := r.buffer.insert seq ⟨payload, now⟩ } = some r' := by
    have hput' := hput
    unfold Resequencer.put at hput'
    rw [if_neg hlate] at hput'
    by_cases hfull : r.maxBufferSize ≤ r.buffer.len
    · have hnone : r.buffer.first? = none :=
        OrderedMap.first?_eq_none_iff.mpr (put_full_empty hlate hfull hput hdelivered)
      rw [if_pos hfull, forceFlushHead, hnone] at hput'
      exact hput'
    · rw [if_neg hfull] at hput'
      exact hput'
  cases hget : (r.buffer.insert seq ⟨payload, now⟩).get? r.nextSeq with
  | none =>
      rw [flushConsecutive_of_get?_none (r := { r with buffer := r.buffer.insert seq _ }) hget]
        at hflush
      rw [← Option.some.inj hflush]
  | some packet =>
      have hlt : r.delivered.length < r'.delivered.length :=
        flushConsecutive_delivers (r := { r with buffer := r.buffer.insert seq _ }) hget hflush
      have hlen := congrArg List.length hdelivered
      omega

/-! ## Repeated packets -/

/-- A `put` of the number has no effect, whatever it carries and whenever it comes. -/
def Idempotent (profile : Profile) (r : Resequencer) (seq : Nat) : Prop :=
  ∀ (payload : List UInt8) (now : Nat), ∃ r', r.put profile seq payload now = some r' ∧
    r'.delivered = r.delivered ∧ r'.buffer = r.buffer ∧ r'.nextSeq = r.nextSeq

/-- After the calls `cs` the number is buffered, was handed over, or was passed by `next_seq`. -/
def Known (profile : Profile) (r₀ : Resequencer) (cs : List Call) (r : Resequencer)
    (seq : Nat) : Prop :=
  (∃ packet, (seq, packet) ∈ r.buffer.entries) ∨ (∃ payload, (seq, payload) ∈ r.delivered) ∨
    ∃ pre r₁, pre <+: cs ∧ runFrom (step profile) r₀ pre = some r₁ ∧ seq < r₁.nextSeq

/-- **A repeated packet is without effect exactly below `next_seq`**: in every state, at any
fill level, for every number, in either build. -/
theorem idempotent_iff (profile : Profile) (r : Resequencer) (seq : Nat) :
    Idempotent profile r seq ↔ seq < r.nextSeq := by
  constructor
  · intro h
    by_contra hlate
    have hstored : ∀ payload now, (seq, ReseqPacket.mk payload now) ∈ r.buffer.entries := by
      intro payload now
      obtain ⟨r', hput, hdelivered, hbuffer, -⟩ := h payload now
      rw [← hbuffer, put_stores hlate hput hdelivered]
      exact (OrderedMap.mem_insert _).mpr (Or.inl rfl)
    -- two packets cannot both be there already
    have heq := OrderedMap.eq_of_key_eq (hstored [] 0) (hstored [] 1) rfl
    simp at heq
  · intro hlate payload now
    exact ⟨r, put_late hlate payload now, rfl, rfl, rfl⟩

/-- The packet 1 waits with payload "a" since 0 ns. Repeated at 5 ns with payload "b", it waits
as "b" since 5 ns. -/
theorem repeated_packet_overwrites :
    ¬ ∀ (profile : Profile) (initialSeq maxBufferSize : Nat) (cs : List Call) (r : Resequencer)
      (seq : Nat), runFrom (step profile) (new initialSeq maxBufferSize) cs = some r →
      Known profile (new initialSeq maxBufferSize) cs r seq → Idempotent profile r seq := by
  intro h
  obtain ⟨r, hrun⟩ := Option.isSome_iff_exists.mp
    (show (runFrom (step .release) (new 0 8) [.put 1 [97] 0]).isSome by decide)
  have hentries : (some r).map (fun r => (r.nextSeq, r.buffer.entries))
      = some (0, [(1, ⟨[97], 0⟩)]) := by
    rw [← hrun]
    decide
  obtain ⟨hnext, hbuffer⟩ := Prod.mk.inj (Option.some.inj hentries)
  have hidem := h .release 0 8 _ r 1 hrun (Or.inl ⟨⟨[97], 0⟩, by rw [hbuffer]; simp⟩)
  obtain ⟨r', hput, -, hsame, -⟩ := hidem [98] 5
  have hbad : (runFrom (step .release) (new 0 8) [.put 1 [97] 0, .put 1 [98] 5]).map
      (fun r => r.buffer.entries) = some [(1, ⟨[98], 5⟩)] := by decide
  have hrun' : runFrom (step .release) (new 0 8) [.put 1 [97] 0, .put 1 [98] 5] = some r' :=
    runFrom_concat hrun hput
  rw [hrun', Option.map_some, hsame, hbuffer] at hbad
  simp at hbad

end AetherBond.Core.Resequencer
