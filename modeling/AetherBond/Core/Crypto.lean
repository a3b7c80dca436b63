import AetherBond.Lib.Aead
import AetherBond.Core.Resequencing

set_option autoImplicit false

/-! # The Rust packet cipher

`AetherCrypto` of `aetherbond-core/src/crypto/mod.rs`. A packet is a 16-byte header (sequence
number, microsecond timestamp, path id) followed by the sealed payload, with the header as
associated data. The nonce is four zero bytes and the eight bytes of `now_us ^ seq`.

The source comments call that nonce unique. Two calls use the same one exactly when their
sequence numbers and their clock readings differ in the same bit positions
(`nonceSeq_eq_iff`), and that happens to a sender that counts up by one on a clock that never
goes back.
-/

namespace AetherBond.Core

open AetherBond.Lib

/-! ## The source -/

/-- Why an operation gives no result: ring's `Unspecified`, or the overflow panic of a debug
build. -/
inductive CryptoFault
  | unspecified
  | overflow
  deriving DecidableEq, Repr

/-- A nonce sequence of ring; `seq` is the next value. -/
structure AetherNonceSequence where
  seq : UInt64

/-- `NonceSequence::advance`: four zero bytes, the counter, and `seq += 1`. -/
def AetherNonceSequence.advance (profile : Profile) (s : AetherNonceSequence) :
    Except CryptoFault (Bytes × AetherNonceSequence) :=
  if s.seq = UInt64.ofNat (2 ^ 64 - 1) ∧ profile = .debug then .error .overflow
  else .ok (List.replicate 4 0 ++ toBE 8 s.seq.toNat, ⟨s.seq + 1⟩)

structure AetherCrypto where
  secretKey : Bytes

namespace AetherCrypto

/-- The value the nonce sequence of one call starts at, `now_us ^ (seq as u64)`. -/
def nonceSeq (seq : UInt32) (nowUs : UInt64) : UInt64 := nowUs ^^^ seq.toUInt64

def header (seq : UInt32) (nowUs : UInt64) (pathId : UInt32) : Bytes :=
  toBE 4 seq.toNat ++ toBE 8 nowUs.toNat ++ toBE 4 pathId.toNat

/-- `encrypt`. The sealing key advances its nonce sequence once. -/
def encrypt (cipher : Aead) (profile : Profile) (c : AetherCrypto) (payload : Bytes)
    (seq pathId : UInt32) (nowUs : UInt64) : Except CryptoFault Bytes := do
  let (nonce, _) ← AetherNonceSequence.advance profile ⟨nonceSeq seq nowUs⟩
  let header := header seq nowUs pathId
  return header ++ cipher.encrypt c.secretKey nonce header payload

/-- `decrypt`: the payload, the sequence number, the path id and the latency in ms. -/
def decrypt (cipher : Aead) (profile : Profile) (c : AetherCrypto) (packet : Bytes)
    (nowUs : UInt64) : Except CryptoFault (Bytes × UInt32 × UInt32 × ℚ) := do
  if packet.length < 32 then throw .unspecified
  let seq := UInt32.ofNat (ofBE (packet.take 4))
  let timestampUs := UInt64.ofNat (ofBE ((packet.drop 4).take 8))
  let pathId := UInt32.ofNat (ofBE ((packet.drop 12).take 4))
  let (nonce, _) ← AetherNonceSequence.advance profile ⟨nonceSeq seq timestampUs⟩
  let latencyMs : ℚ :=
    if timestampUs < nowUs then ((nowUs.toNat - timestampUs.toNat : ℕ) : ℚ) / 1000 else 0
  match cipher.decrypt? c.secretKey nonce (packet.take 16) (packet.drop 16) with
  | none => throw .unspecified
  | some payload => return (payload, seq, pathId, latencyMs)

/-! ## Nonces -/

/-- A call of `encrypt`, as far as its nonce goes: the sequence number and the clock. -/
structure EncryptCall where
  seq : UInt32
  nowUs : UInt64
  deriving DecidableEq, Repr

/-- The nonce a call seals with; `none` if it panics before it seals. -/
def EncryptCall.nonce? (profile : Profile) (call : EncryptCall) : Option Bytes :=
  match AetherNonceSequence.advance profile ⟨nonceSeq call.seq call.nowUs⟩ with
  | .ok (nonce, _) => some nonce
  | .error _ => none

/-- `encrypt` seals with `EncryptCall.nonce?`. -/
theorem encrypt_eq (cipher : Aead) (profile : Profile) (c : AetherCrypto) (payload : Bytes)
    (seq pathId : UInt32) (nowUs : UInt64) :
    c.encrypt cipher profile payload seq pathId nowUs =
      match EncryptCall.nonce? profile ⟨seq, nowUs⟩ with
      | some nonce => .ok (header seq nowUs pathId ++
          cipher.encrypt c.secretKey nonce (header seq nowUs pathId) payload)
      | none => .error .overflow := by
  rw [encrypt, EncryptCall.nonce?, AetherNonceSequence.advance]
  split_ifs <;> rfl

/-- The nonces a run of `encrypt` calls seals with, in order. -/
def sealNonces (profile : Profile) (calls : List EncryptCall) : List Bytes :=
  calls.filterMap (EncryptCall.nonce? profile)

/-- The call reaches the cipher: in a debug build the counter must not be `u64::MAX`. -/
def EncryptCall.seals (profile : Profile) (call : EncryptCall) : Bool :=
  ¬ (nonceSeq call.seq call.nowUs = UInt64.ofNat (2 ^ 64 - 1) ∧ profile = .debug)

/-- At some bit position exactly one of the two, the sequence numbers or the clock readings,
differs. -/
def EncryptCall.BitsApart (a b : EncryptCall) : Prop :=
  ∃ i, (a.seq.toNat.testBit i ^^ b.seq.toNat.testBit i) ≠
    (a.nowUs.toNat.testBit i ^^ b.nowUs.toNat.testBit i)

/-- Two calls start their nonce sequences at the same value exactly when their sequence
numbers and their clock readings differ in the same bits. -/
theorem nonceSeq_eq_iff (a b : EncryptCall) :
    nonceSeq a.seq a.nowUs = nonceSeq b.seq b.nowUs ↔ ¬ a.BitsApart b := by
  rw [EncryptCall.BitsApart, not_exists, ← UInt64.toNat_inj]
  simp only [nonceSeq, UInt64.toNat_xor, UInt32.toNat_toUInt64, ne_eq, not_not]
  constructor
  · intro h i
    have hi := congrArg (Nat.testBit · i) h
    simp only [Nat.testBit_xor] at hi
    revert hi
    generalize a.seq.toNat.testBit i = x, b.seq.toNat.testBit i = y,
      a.nowUs.toNat.testBit i = z, b.nowUs.toNat.testBit i = w
    revert x y z w
    decide
  · intro h
    refine Nat.eq_of_testBit_eq fun i => ?_
    have hi := h i
    simp only [Nat.testBit_xor]
    revert hi
    generalize a.seq.toNat.testBit i = x, b.seq.toNat.testBit i = y,
      a.nowUs.toNat.testBit i = z, b.nowUs.toNat.testBit i = w
    revert x y z w
    decide

theorem nonce?_of_seals {profile : Profile} {call : EncryptCall} (h : call.seals profile) :
    call.nonce? profile
      = some (List.replicate 4 0 ++ toBE 8 (nonceSeq call.seq call.nowUs).toNat) := by
  have hno : ¬ (nonceSeq call.seq call.nowUs = UInt64.ofNat (2 ^ 64 - 1) ∧ profile = .debug) :=
    of_decide_eq_true h
  rw [EncryptCall.nonce?, AetherNonceSequence.advance, if_neg hno]

theorem nonce?_of_not_seals {profile : Profile} {call : EncryptCall} (h : ¬ call.seals profile) :
    call.nonce? profile = none := by
  have hyes : nonceSeq call.seq call.nowUs = UInt64.ofNat (2 ^ 64 - 1) ∧ profile = .debug :=
    not_not.mp fun hno => h (decide_eq_true hno)
  rw [EncryptCall.nonce?, AetherNonceSequence.advance, if_pos hyes]

/-- Two sealing calls share their nonce exactly when no bit tells them apart. -/
theorem nonce?_ne_iff {profile : Profile} {a b : EncryptCall} (ha : a.seals profile)
    (hb : b.seals profile) : a.nonce? profile ≠ b.nonce? profile ↔ a.BitsApart b := by
  rw [nonce?_of_seals ha, nonce?_of_seals hb, not_iff_comm, ← nonceSeq_eq_iff]
  constructor
  · intro h
    rw [h]
  · intro h
    have hbytes : toBE 8 (nonceSeq a.seq a.nowUs).toNat = toBE 8 (nonceSeq b.seq b.nowUs).toNat :=
      List.append_cancel_left (Option.some.inj h)
    exact UInt64.toNat_inj.mp (toBE_inj (UInt64.toNat_lt _) (UInt64.toNat_lt _) hbytes)

/-- **Nonce uniqueness, and exactly when.** -/
theorem sealNonces_nodup_iff (profile : Profile) (calls : List EncryptCall) :
    (sealNonces profile calls).Nodup ↔
      (calls.filter (EncryptCall.seals profile)).Pairwise EncryptCall.BitsApart := by
  rw [List.Nodup, sealNonces, List.pairwise_filterMap, List.pairwise_filter]
  refine List.Pairwise.iff (fun a b => ?_)
  constructor
  · intro h ha hb
    refine (nonce?_ne_iff ha hb).mp fun heq => ?_
    exact h _ (nonce?_of_seals ha) _ (heq.symm.trans (nonce?_of_seals ha)) rfl
  · rintro h n hn n' hn' rfl
    have ha : a.seals profile := by
      by_contra hno
      simp [nonce?_of_not_seals hno] at hn
    have hb : b.seals profile := by
      by_contra hno
      simp [nonce?_of_not_seals hno] at hn'
    exact (nonce?_ne_iff ha hb).mpr (h ha hb) (hn.trans hn'.symm)

/-- A sender that counts up by one on a clock that goes forward: packet `0` at `4 µs` and
packet `1` at `5 µs` are sealed with the same nonce. -/
theorem sealNonces_collision :
    ¬ ∀ (profile : Profile) (calls : List EncryptCall), calls.Nodup →
      (calls.IsChain fun a b => b.seq = a.seq + 1 ∧ a.nowUs ≤ b.nowUs) →
      (sealNonces profile calls).Nodup := by
  intro h
  have hbad := h .release [⟨0, 4⟩, ⟨1, 5⟩] (by decide) (by simp)
  revert hbad
  decide

end AetherCrypto

end AetherBond.Core
