import AetherBond.Lib.Run
import AetherBond.Lib.OrderedMap

set_option autoImplicit false

/-! # The Rust resequencer

`Resequencer` of `aetherbond-core/src/resequencing/mod.rs`. Sequence numbers are `u32`, kept
here as `Nat`; the only arithmetic on them is `next_seq += 1`, whose overflow is explicit
(`addOneU32`): a panic in a debug build, a wrap to `0` in a release build. Instants and
durations are counted in nanoseconds. The callback is modelled by the list of its calls
(`delivered`), oldest first, each with the sequence number of its payload.

`Flushed` says everything `flush_consecutive` does, and the rest of the file is derived from
it. The lateness check of `put` is made *before* `force_flush_head` moves `next_seq`, so a
`put` into a full buffer can store a packet below the new `next_seq`; `AboveHeadRun` is the
exact condition under which it does not.
-/

namespace AetherBond.Core

open AetherBond.Lib

/-! ## The source -/

/-- `u32::MAX`. -/
def u32Max : Nat := 4294967295

/-- The build profile decides what an overflowing `+=` does. -/
inductive Profile
  | debug
  | release
  deriving DecidableEq, Repr

/-- `x += 1` on a `u32`; `none` is the panic of a debug build. -/
def addOneU32 (profile : Profile) (x : Nat) : Option Nat :=
  if x < u32Max then some (x + 1)
  else match profile with
    | .debug => none
    | .release => some 0

/-- An out-of-order packet with its insertion time. -/
structure ReseqPacket where
  payload : List UInt8
  timestamp : Nat
  deriving DecidableEq, Repr

structure Resequencer where
  nextSeq : Nat
  buffer : OrderedMap Nat ReseqPacket
  /-- The calls of the callback, with the sequence number of each payload. -/
  delivered : List (Nat × List UInt8)
  adaptiveTimeout : Nat
  maxBufferSize : Nat

namespace Resequencer

/-- `Resequencer::new`: the baseline timeout is 40 ms. -/
def new (initialSeq maxBufferSize : Nat) : Resequencer where
  nextSeq := initialSeq
  buffer := OrderedMap.empty
  delivered := []
  adaptiveTimeout := 40000000
  maxBufferSize := maxBufferSize

/-- `update_timeout`: clamp to 15 ms … 250 ms. `scaled` is `jitter_delta.mul_f64(1.5)`. -/
def updateTimeout (r : Resequencer) (scaled : Nat) : Resequencer :=
  { r with adaptiveTimeout := min (max scaled 15000000) 250000000 }

/-- The loop of `flush_consecutive`. Every turn removes an entry, so `fuel` turns are enough
for a buffer of at most `fuel` entries. -/
def flushLoop (profile : Profile) : Nat → Resequencer → Option Resequencer
  | 0, r => some r
  | fuel + 1, r =>
      match r.buffer.get? r.nextSeq with
      | none => some r
      | some packet =>
          (addOneU32 profile r.nextSeq).bind fun next =>
            flushLoop profile fuel
              { r with
                buffer := r.buffer.remove r.nextSeq
                delivered := r.delivered ++ [(r.nextSeq, packet.payload)]
                nextSeq := next }

def flushConsecutive (profile : Profile) (r : Resequencer) : Option Resequencer :=
  flushLoop profile r.buffer.len r

def forceFlushHead (profile : Profile) (r : Resequencer) : Option Resequencer :=
  match r.buffer.first? with
  | none => some r
  | some (lowestSeq, _) => flushConsecutive profile { r with nextSeq := lowestSeq }

def put (profile : Profile) (r : Resequencer) (seq : Nat) (payload : List UInt8) (now : Nat) :
    Option Resequencer :=
  if seq < r.nextSeq then some r
  else
    (if r.maxBufferSize ≤ r.buffer.len then forceFlushHead profile r else some r).bind fun r =>
      flushConsecutive profile { r with buffer := r.buffer.insert seq ⟨payload, now⟩ }

/-- `tick`. `duration_since` saturates at zero, as subtraction on `Nat` does. -/
def tick (profile : Profile) (r : Resequencer) (now : Nat) : Option Resequencer :=
  match r.buffer.first? with
  | none => some r
  | some (firstSeq, packet) =>
      if r.adaptiveTimeout < now - packet.timestamp then
        flushConsecutive profile { r with nextSeq := firstSeq }
      else some r

/-- A call on the resequencer, with the instant it reads. -/
inductive Call
  | put (seq : Nat) (payload : List UInt8) (now : Nat)
  | tick (now : Nat)
  | updateTimeout (scaled : Nat)

def step (profile : Profile) (r : Resequencer) : Call → Option Resequencer
  | .put seq payload now => r.put profile seq payload now
  | .tick now => r.tick profile now
  | .updateTimeout scaled => some (r.updateTimeout scaled)

/-- The call carries no sequence number, or one below `u32::MAX`. -/
def Call.BelowMax : Call → Prop
  | .put seq _ _ => seq < u32Max
  | .tick _ => True
  | .updateTimeout _ => True

/-! ## What `flush_consecutive` does -/

/-- Everything `flush_consecutive` does in a state `r` where `next_seq` cannot overflow: it
hands over the run of consecutive packets from `r.nextSeq` up to `r'.nextSeq`, which is not
buffered, and touches nothing else. -/
structure Flushed (r r' : Resequencer) : Prop where
  le : r.nextSeq ≤ r'.nextSeq
  run : ∀ s, r.nextSeq ≤ s → s < r'.nextSeq → ∃ p, (s, p) ∈ r.buffer.entries
  mem_buffer : ∀ x, x ∈ r'.buffer.entries ↔
    x ∈ r.buffer.entries ∧ ¬ (r.nextSeq ≤ x.1 ∧ x.1 < r'.nextSeq)
  stop : ∀ x ∈ r'.buffer.entries, x.1 ≠ r'.nextSeq
  delivered : ∃ ds, r'.delivered = r.delivered ++ ds ∧
    ds.map Prod.fst = List.range' r.nextSeq (r'.nextSeq - r.nextSeq)
  timeout : r'.adaptiveTimeout = r.adaptiveTimeout
  maxBufferSize : r'.maxBufferSize = r.maxBufferSize

theorem Flushed.refl {r : Resequencer} (h : ∀ x ∈ r.buffer.entries, x.1 ≠ r.nextSeq) :
    Flushed r r where
  le := le_rfl
  run s h₁ h₂ := absurd h₂ (by omega)
  mem_buffer x := ⟨fun hx => ⟨hx, by omega⟩, And.left⟩
  stop := h
  delivered := ⟨[], by simp, by simp⟩
  timeout := rfl
  maxBufferSize := rfl

/-- Every number passed over was delivered. -/
theorem Flushed.mem_delivered {r r' : Resequencer} (h : Flushed r r') {s : Nat}
    (hge : r.nextSeq ≤ s) (hlt : s < r'.nextSeq) : ∃ d ∈ r'.delivered, d.1 = s := by
  obtain ⟨ds, hds, hrange⟩ := h.delivered
  have hs : s ∈ ds.map Prod.fst := by
    rw [hrange, List.mem_range'_1]
    omega
  obtain ⟨d, hd, hd₁⟩ := List.mem_map.mp hs
  exact ⟨d, by rw [hds]; exact List.mem_append_right _ hd, hd₁⟩

/-- A flush from the smallest buffered number delivers that one at least. -/
theorem Flushed.passes_first {r r' : Resequencer} {e : Nat × ReseqPacket}
    (h : Flushed { r with nextSeq := e.1 } r') (he : r.buffer.first? = some e) :
    e.1 < r'.nextSeq := by
  refine lt_of_le_of_ne h.le fun heq => ?_
  have heq' : e.1 = r'.nextSeq := heq
  have hstays : e ∈ r'.buffer.entries := by
    refine (h.mem_buffer e).mpr ⟨OrderedMap.mem_of_first? he, ?_⟩
    omega
  exact h.stop e hstays heq'

theorem addOneU32_of_lt {profile : Profile} {x : Nat} (h : x < u32Max) :
    addOneU32 profile x = some (x + 1) := if_pos h

/-- One turn of the loop, then the rest of it. -/
theorem Flushed.cons {r r₁ r' : Resequencer} {p : ReseqPacket}
    (hp : (r.nextSeq, p) ∈ r.buffer.entries) (hnext : r₁.nextSeq = r.nextSeq + 1)
    (hbuf : r₁.buffer = r.buffer.remove r.nextSeq)
    (hdel : r₁.delivered = r.delivered ++ [(r.nextSeq, p.payload)])
    (htime : r₁.adaptiveTimeout = r.adaptiveTimeout)
    (hmax : r₁.maxBufferSize = r.maxBufferSize) (h : Flushed r₁ r') : Flushed r r' where
  le := by have := h.le; omega
  run s h₁ h₂ := by
    rcases Nat.eq_or_lt_of_le h₁ with rfl | hlt
    · exact ⟨p, hp⟩
    · obtain ⟨q, hq⟩ := h.run s (by omega) h₂
      rw [hbuf] at hq
      exact ⟨q, ((OrderedMap.mem_remove _).mp hq).2⟩
  mem_buffer x := by
    have hle := h.le
    rw [h.mem_buffer, hbuf, OrderedMap.mem_remove, hnext]
    constructor
    · rintro ⟨⟨hne, hx⟩, hout⟩
      exact ⟨hx, by omega⟩
    · rintro ⟨hx, hout⟩
      exact ⟨⟨by omega, hx⟩, by omega⟩
  stop := h.stop
  delivered := by
    obtain ⟨ds, hds, hrange⟩ := h.delivered
    have hle := h.le
    refine ⟨(r.nextSeq, p.payload) :: ds, by rw [hds, hdel]; simp, ?_⟩
    have hlen : r'.nextSeq - r.nextSeq = (r'.nextSeq - r₁.nextSeq) + 1 := by omega
    rw [List.map_cons, hrange, hlen, List.range'_succ, hnext]
  timeout := h.timeout.trans htime
  maxBufferSize := h.maxBufferSize.trans hmax

/-- A turn of the loop, which hands over `packet` and goes on with the number `next`. -/
def takeNext (r : Resequencer) (packet : ReseqPacket) (next : Nat) : Resequencer :=
  { r with
    buffer := r.buffer.remove r.nextSeq
    delivered := r.delivered ++ [(r.nextSeq, packet.payload)]
    nextSeq := next }

/-- A turn takes an entry out of the buffer. -/
theorem len_takeNext_lt {r : Resequencer} {packet : ReseqPacket}
    (hpacket : r.buffer.get? r.nextSeq = some packet) (next : Nat) :
    (r.takeNext packet next).buffer.len < r.buffer.len :=
  OrderedMap.len_remove_lt hpacket

/-- A turn puts no entry into it. -/
theorem mem_of_mem_takeNext {r : Resequencer} {packet : ReseqPacket} {next : Nat}
    {x : Nat × ReseqPacket} (hx : x ∈ (r.takeNext packet next).buffer.entries) :
    x ∈ r.buffer.entries :=
  ((OrderedMap.mem_remove x).mp hx).2

theorem flushLoop_flushed (profile : Profile) {r : Resequencer} {fuel : Nat}
    (hmax : ∀ x ∈ r.buffer.entries, x.1 < u32Max) (hfuel : r.buffer.len ≤ fuel) :
    ∃ r', flushLoop profile fuel r = some r' ∧ Flushed r r' := by
  induction fuel generalizing r with
  | zero =>
      have hempty : r.buffer.entries = [] := List.length_eq_zero_iff.mp (Nat.le_zero.mp hfuel)
      exact ⟨r, rfl, Flushed.refl (by simp [hempty])⟩
  | succ fuel ih =>
      rw [flushLoop]
      cases hget : r.buffer.get? r.nextSeq with
      | none => exact ⟨r, rfl, Flushed.refl (OrderedMap.get?_eq_none_iff.mp hget)⟩
      | some p =>
          have hp := OrderedMap.get?_eq_some_iff.mp hget
          dsimp only
          rw [addOneU32_of_lt (hmax _ hp), Option.bind_some]
          have hless := len_takeNext_lt hget (r.nextSeq + 1)
          obtain ⟨r', hrun, hr'⟩ := ih (r := r.takeNext p (r.nextSeq + 1))
            (fun x hx => hmax x (mem_of_mem_takeNext hx)) (by omega)
          refine ⟨r', hrun, Flushed.cons hp ?_ ?_ ?_ ?_ ?_ hr'⟩ <;> rfl

/-- **`flush_consecutive` terminates**, without overflow while every buffered number is below
`u32::MAX`, and does what `Flushed` says. -/
theorem flushConsecutive_flushed (profile : Profile) {r : Resequencer}
    (hmax : ∀ x ∈ r.buffer.entries, x.1 < u32Max) :
    ∃ r', flushConsecutive profile r = some r' ∧ Flushed r r' :=
  flushLoop_flushed profile hmax le_rfl

end Resequencer

end AetherBond.Core
