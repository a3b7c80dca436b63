import AetherBond.Core.Crypto

set_option autoImplicit false

/-! # The Rust packets

A packet of `encrypt` is a header and a sealed payload, and `decrypt` rebuilds the nonce from two
fields of the header, which is the associated data as well. So with an ideal cipher it opens the
packets that were made, with what was put into them, and no other.

The one thing in its way is the counter of the nonce sequence: it is advanced after the nonce is
formed, and in a debug build `u64::MAX + 1` panics. Anybody can send a packet that makes `decrypt`
do that (`roundTrips_iff`).
-/

namespace AetherBond.Core

open AetherBond.Lib

namespace AetherCrypto

variable {cipher : Aead} {profile : Profile} {c : AetherCrypto} {seq pathId : UInt32}
  {timestampUs nowUs : UInt64} {packet encrypted : Bytes}

/-! ## The fields of a header -/

/-- The first four bytes of a packet. -/
def packetSeq (packet : Bytes) : UInt32 := UInt32.ofNat (ofBE (packet.take 4))

/-- The next eight. -/
def packetTime (packet : Bytes) : UInt64 := UInt64.ofNat (ofBE ((packet.drop 4).take 8))

/-- And four more. -/
def packetPath (packet : Bytes) : UInt32 := UInt32.ofNat (ofBE ((packet.drop 12).take 4))

@[simp] theorem length_header (seq pathId : UInt32) (timestampUs : UInt64) :
    (header seq timestampUs pathId).length = 16 := by
  simp [header]

theorem header_append (seq pathId : UInt32) (timestampUs : UInt64) (encrypted : Bytes) :
    header seq timestampUs pathId ++ encrypted =
      toBE 4 seq.toNat ++ (toBE 8 timestampUs.toNat ++ (toBE 4 pathId.toNat ++ encrypted)) := by
  simp [header]

@[simp] theorem packetSeq_header :
    packetSeq (header seq timestampUs pathId ++ encrypted) = seq := by
  have hfield : ofBE (toBE 4 seq.toNat) = seq.toNat := ofBE_toBE_of_lt seq.toNat_lt
  rw [packetSeq, header_append, List.take_left' (length_toBE _ _), hfield, UInt32.ofNat_toNat]

@[simp] theorem packetTime_header :
    packetTime (header seq timestampUs pathId ++ encrypted) = timestampUs := by
  have hfield : ofBE (toBE 8 timestampUs.toNat) = timestampUs.toNat :=
    ofBE_toBE_of_lt timestampUs.toNat_lt
  rw [packetTime, header_append, List.drop_left' (length_toBE _ _),
    List.take_left' (length_toBE _ _), hfield, UInt64.ofNat_toNat]

@[simp] theorem packetPath_header :
    packetPath (header seq timestampUs pathId ++ encrypted) = pathId := by
  have hfield : ofBE (toBE 4 pathId.toNat) = pathId.toNat := ofBE_toBE_of_lt pathId.toNat_lt
  have hfront : (toBE 4 seq.toNat ++ toBE 8 timestampUs.toNat).length = 12 := by simp
  rw [packetPath, header_append, ← List.append_assoc, List.drop_left' hfront,
    List.take_left' (length_toBE _ _), hfield, UInt32.ofNat_toNat]

/-! ## What `decrypt` does -/

/-- `decrypt` in one equation. -/
theorem decrypt_eq (cipher : Aead) (profile : Profile) (c : AetherCrypto) (packet : Bytes)
    (nowUs : UInt64) :
    ∃ latencyMs, c.decrypt cipher profile packet nowUs =
      if packet.length < 32 then .error .unspecified
      else
        match EncryptCall.nonce? profile ⟨packetSeq packet, packetTime packet⟩ with
        | none => .error .overflow
        | some nonce =>
            match cipher.decrypt? c.secretKey nonce (packet.take 16) (packet.drop 16) with
            | none => .error .unspecified
            | some payload => .ok (payload, packetSeq packet, packetPath packet, latencyMs) := by
  refine ⟨if packetTime packet < nowUs then
    ((nowUs.toNat - (packetTime packet).toNat : ℕ) : ℚ) / 1000 else 0, ?_⟩
  by_cases hshort : packet.length < 32
  · rw [decrypt, if_pos hshort, if_pos hshort]
    rfl
  · rw [decrypt, if_neg hshort, if_neg hshort]
    show (AetherNonceSequence.advance profile ⟨nonceSeq (packetSeq packet) (packetTime packet)⟩ >>=
      _) = _
    by_cases hmax : nonceSeq (packetSeq packet) (packetTime packet) = UInt64.ofNat (2 ^ 64 - 1) ∧
      profile = .debug
    · have hnone : EncryptCall.nonce? profile ⟨packetSeq packet, packetTime packet⟩ = none :=
        nonce?_of_not_seals fun h => of_decide_eq_true h hmax
      rw [hnone, AetherNonceSequence.advance, if_pos hmax]
      rfl
    · rw [nonce?_of_seals (decide_eq_true hmax), AetherNonceSequence.advance, if_neg hmax]
      dsimp only [bind, Except.bind]
      generalize cipher.decrypt? c.secretKey _ (packet.take 16) (packet.drop 16) = opened
      cases opened <;> rfl

/-- What `decrypt` does to a header with a sealed payload behind it. -/
theorem decrypt_header_append (cipher : Aead) (profile : Profile) (c : AetherCrypto)
    (seq pathId : UInt32) (timestampUs nowUs : UInt64) {encrypted : Bytes}
    (hlen : 16 ≤ encrypted.length) :
    ∃ latencyMs, c.decrypt cipher profile (header seq timestampUs pathId ++ encrypted) nowUs =
      match EncryptCall.nonce? profile ⟨seq, timestampUs⟩ with
      | none => .error .overflow
      | some nonce =>
          match cipher.decrypt? c.secretKey nonce (header seq timestampUs pathId) encrypted with
          | none => .error .unspecified
          | some payload => .ok (payload, seq, pathId, latencyMs) := by
  have hheader : (header seq timestampUs pathId).length = 16 := length_header seq pathId timestampUs
  have hlong : ¬ (header seq timestampUs pathId ++ encrypted).length < 32 := by
    rw [List.length_append]
    omega
  obtain ⟨latencyMs, hdecrypt⟩ := decrypt_eq cipher profile c
    (header seq timestampUs pathId ++ encrypted) nowUs
  refine ⟨latencyMs, ?_⟩
  rw [hdecrypt, if_neg hlong, List.take_left' hheader, List.drop_left' hheader, packetSeq_header,
    packetTime_header, packetPath_header]

/-! ## What was sealed -/

/-- A call of `encrypt`, with what it reads of the clock. -/
structure SealCall where
  payload : Bytes
  seq : UInt32
  pathId : UInt32
  nowUs : UInt64
  deriving DecidableEq, Repr

namespace SealCall

/-- The packet the call returns. -/
def packet? (cipher : Aead) (profile : Profile) (c : AetherCrypto) (call : SealCall) :
    Except CryptoFault Bytes :=
  c.encrypt cipher profile call.payload call.seq call.pathId call.nowUs

def header (call : SealCall) : Bytes := AetherCrypto.header call.seq call.nowUs call.pathId

/-- What the call hands to the cipher, if it comes to that. -/
def sealing? (profile : Profile) (call : SealCall) : Option Sealing :=
  (EncryptCall.nonce? profile ⟨call.seq, call.nowUs⟩).map fun nonce =>
    ⟨nonce, call.header, call.payload⟩

end SealCall

/-- What was sealed by a list of calls. -/
def sealings (profile : Profile) (calls : List SealCall) : List Sealing :=
  calls.filterMap (SealCall.sealing? profile)

/-- **The round trip.** Each call returns a packet that `decrypt` opens, with what was put into it,
and `decrypt` rejects a packet that none of them returned. -/
def RoundTrips (cipher : Aead) (profile : Profile) (c : AetherCrypto) (calls : List SealCall)
    (received : Bytes) (nowUs : UInt64) : Prop :=
  (∀ call ∈ calls, ∃ packet latencyMs, call.packet? cipher profile c = .ok packet ∧
    c.decrypt cipher profile packet nowUs = .ok (call.payload, call.seq, call.pathId, latencyMs)) ∧
  ((∀ call ∈ calls, call.packet? cipher profile c ≠ .ok received) →
    c.decrypt cipher profile received nowUs = .error .unspecified)

variable {call : SealCall} {calls : List SealCall} {received : Bytes}

/-- A call that has a nonce returns its header with the sealed payload behind it. -/
theorem SealCall.packet?_eq (cipher : Aead) (profile : Profile) (c : AetherCrypto)
    (call : SealCall) :
    call.packet? cipher profile c =
      match call.sealing? profile with
      | some s => .ok (s.aad ++ cipher.encrypt c.secretKey s.nonce s.aad s.plain)
      | none => .error .overflow := by
  rw [packet?, encrypt_eq, sealing?]
  cases EncryptCall.nonce? profile ⟨call.seq, call.nowUs⟩ <;> rfl

theorem length_nonce? {e : EncryptCall} {nonce : Bytes} (h : e.nonce? profile = some nonce) :
    nonce.length = 12 := by
  by_cases hseals : e.seals profile
  · rw [nonce?_of_seals hseals] at h
    simp [← Option.some.inj h]
  · rw [nonce?_of_not_seals hseals] at h
    cases h

theorem seals_iff (profile : Profile) (e : EncryptCall) :
    e.seals profile ↔ profile = .release ∨ nonceSeq e.seq e.nowUs ≠ UInt64.ofNat (2 ^ 64 - 1) := by
  cases profile <;> simp [EncryptCall.seals]

/-- A call that returns a packet came to the cipher, and put its header in front. -/
theorem SealCall.of_packet? {packet : Bytes} (h : call.packet? cipher profile c = .ok packet) :
    EncryptCall.seals profile ⟨call.seq, call.nowUs⟩ ∧
      ∃ encrypted, packet = call.header ++ encrypted := by
  rw [packet?_eq, sealing?] at h
  by_cases hseals : EncryptCall.seals profile ⟨call.seq, call.nowUs⟩
  · rw [nonce?_of_seals hseals] at h
    exact ⟨hseals, _, (Except.ok.inj h).symm⟩
  · rw [nonce?_of_not_seals hseals] at h
    cases h

/-- What the cipher sealed is in the packet of a call. -/
theorem packet?_of_mem_sealings (cipher : Aead) (c : AetherCrypto) {s : Sealing}
    (h : s ∈ sealings profile calls) :
    ∃ call ∈ calls, call.packet? cipher profile c =
      .ok (s.aad ++ cipher.encrypt c.secretKey s.nonce s.aad s.plain) := by
  obtain ⟨call, hmem, hsealing⟩ := List.mem_filterMap.mp h
  refine ⟨call, hmem, ?_⟩
  rw [SealCall.packet?_eq, hsealing]

/-- **A packet is opened** by an ideal cipher that sealed it. -/
theorem decrypt_packet? (hideal : cipher.IdealFor c.secretKey (sealings profile calls))
    (htagged : cipher.Tagged) (hmem : call ∈ calls)
    (hseals : EncryptCall.seals profile ⟨call.seq, call.nowUs⟩) (nowUs : UInt64) :
    ∃ packet latencyMs, call.packet? cipher profile c = .ok packet ∧
      c.decrypt cipher profile packet nowUs =
        .ok (call.payload, call.seq, call.pathId, latencyMs) := by
  have hnonce := nonce?_of_seals hseals
  set nonce := List.replicate 4 0 ++ toBE 8 (nonceSeq call.seq call.nowUs).toNat
  have hsealing : call.sealing? profile = some ⟨nonce, call.header, call.payload⟩ := by
    rw [SealCall.sealing?, hnonce]
    rfl
  have hsealed : (⟨nonce, call.header, call.payload⟩ : Sealing) ∈ sealings profile calls :=
    List.mem_filterMap.mpr ⟨call, hmem, hsealing⟩
  set encrypted := cipher.encrypt c.secretKey nonce call.header call.payload
  have hopened := (hideal nonce call.header encrypted call.payload).mpr ⟨hsealed, rfl⟩
  have hlen : 16 ≤ encrypted.length := by
    rw [htagged _ _ _ _ (length_nonce? hnonce)]
    exact Nat.le_add_left _ _
  obtain ⟨latencyMs, hdecrypt⟩ := decrypt_header_append cipher profile c call.seq call.pathId
    call.nowUs nowUs hlen
  refine ⟨call.header ++ encrypted, latencyMs, ?_, ?_⟩
  · rw [SealCall.packet?_eq, hsealing]
  · rw [SealCall.header, hdecrypt, hnonce]
    dsimp only
    rw [← SealCall.header, hopened]

/-- **Nothing else is opened**: a packet that no call returned is rejected, or the counter of its
nonce overflows. -/
theorem decrypt_forged (hideal : cipher.IdealFor c.secretKey (sealings profile calls))
    (hforged : ∀ call ∈ calls, call.packet? cipher profile c ≠ .ok received) (nowUs : UInt64) :
    c.decrypt cipher profile received nowUs =
      if received.length < 32 ∨ EncryptCall.seals profile ⟨packetSeq received, packetTime received⟩
      then .error .unspecified else .error .overflow := by
  obtain ⟨latencyMs, hdecrypt⟩ := decrypt_eq cipher profile c received nowUs
  rw [hdecrypt]
  by_cases hshort : received.length < 32
  · rw [if_pos hshort, if_pos (Or.inl hshort)]
  by_cases hseals : EncryptCall.seals profile ⟨packetSeq received, packetTime received⟩
  · rw [if_neg hshort, if_pos (Or.inr hseals), nonce?_of_seals hseals]
    dsimp only
    cases hopen : cipher.decrypt? c.secretKey _ (received.take 16) (received.drop 16) with
    | none => rfl
    | some plain =>
        -- what it opens was sealed, so a call returned the packet
        obtain ⟨hsealed, htext⟩ := (hideal _ _ _ _).mp hopen
        obtain ⟨call, hmem, hpacket⟩ := packet?_of_mem_sealings cipher c hsealed
        rw [← htext, List.take_append_drop] at hpacket
        exact absurd hpacket (hforged call hmem)
  · rw [if_neg hshort, if_neg (by simp [hshort, hseals]), nonce?_of_not_seals hseals]

/-- **Packets make the round trip, and exactly when.** Under an ideal cipher the calls return
packets that are opened again, and another packet is rejected, in a release build always, and in
a debug build if and only if no clock reading and no header lets the counter of a nonce sequence
start at `u64::MAX`. -/
theorem roundTrips_iff (cipher : Aead) (profile : Profile) (c : AetherCrypto)
    (calls : List SealCall) (received : Bytes) (nowUs : UInt64)
    (hideal : cipher.IdealFor c.secretKey (sealings profile calls)) (htagged : cipher.Tagged) :
    RoundTrips cipher profile c calls received nowUs ↔
      profile = .release ∨
        (∀ call ∈ calls, nonceSeq call.seq call.nowUs ≠ UInt64.ofNat (2 ^ 64 - 1)) ∧
          (received.length < 32 ∨
            nonceSeq (packetSeq received) (packetTime received) ≠ UInt64.ofNat (2 ^ 64 - 1)) := by
  have hcondition : (∀ call ∈ calls, EncryptCall.seals profile ⟨call.seq, call.nowUs⟩) ∧
      (received.length < 32 ∨
        EncryptCall.seals profile ⟨packetSeq received, packetTime received⟩) ↔
      profile = .release ∨
        (∀ call ∈ calls, nonceSeq call.seq call.nowUs ≠ UInt64.ofNat (2 ^ 64 - 1)) ∧
          (received.length < 32 ∨
            nonceSeq (packetSeq received) (packetTime received) ≠ UInt64.ofNat (2 ^ 64 - 1)) := by
    simp only [seals_iff]
    cases profile <;> simp
  rw [← hcondition]
  constructor
  · rintro ⟨hopened, hrejected⟩
    have hcalls : ∀ call ∈ calls, EncryptCall.seals profile ⟨call.seq, call.nowUs⟩ := by
      intro call hmem
      obtain ⟨packet, -, hpacket, -⟩ := hopened call hmem
      exact (SealCall.of_packet? hpacket).1
    refine ⟨hcalls, ?_⟩
    by_cases hforged : ∀ call ∈ calls, call.packet? cipher profile c ≠ .ok received
    · by_contra hpanics
      have hreject := hrejected hforged
      rw [decrypt_forged hideal hforged, if_neg hpanics] at hreject
      cases hreject
    · -- it is the packet of a call, whose header it has
      push Not at hforged
      obtain ⟨call, hmem, hpacket⟩ := hforged
      obtain ⟨hseals, encrypted, rfl⟩ := SealCall.of_packet? hpacket
      have hseq : packetSeq (call.header ++ encrypted) = call.seq := packetSeq_header
      have htime : packetTime (call.header ++ encrypted) = call.nowUs := packetTime_header
      rw [hseq, htime]
      exact Or.inr hseals
  · rintro ⟨hcalls, hreceived⟩
    refine ⟨fun call hmem => decrypt_packet? hideal htagged hmem (hcalls call hmem) nowUs, ?_⟩
    intro hforged
    rw [decrypt_forged hideal hforged, if_pos hreceived]

/-- One packet, and a string of zeros. -/
theorem roundTrips_one_packet :
    RoundTrips (Aead.ledger (sealings .debug [⟨[72, 105], 999, 2, 1700000000000000⟩])) .debug
      ⟨List.replicate 32 7⟩ [⟨[72, 105], 999, 2, 1700000000000000⟩] (List.replicate 40 0) 0 :=
  (roundTrips_iff _ _ ⟨List.replicate 32 7⟩ _ _ 0 (Aead.ledger_idealFor _ _)
    (Aead.ledger_tagged _)).mpr (Or.inr (by decide))

/-- 32 bytes that anybody can send: the number 0 and the timestamp `u64::MAX`. A debug build
panics on them. -/
theorem forged_counter_panics :
    ¬ ∀ (cipher : Aead) (profile : Profile) (c : AetherCrypto) (calls : List SealCall)
      (received : Bytes) (nowUs : UInt64), cipher.IdealFor c.secretKey (sealings profile calls) →
      cipher.Tagged → RoundTrips cipher profile c calls received nowUs := by
  intro h
  let calls : List SealCall := [⟨[72, 105], 999, 2, 1700000000000000⟩]
  let received : Bytes := List.replicate 4 0 ++ List.replicate 8 255 ++ List.replicate 20 0
  have hrejects := (h (Aead.ledger (sealings .debug calls)) .debug ⟨List.replicate 32 7⟩ calls
    received 0 (Aead.ledger_idealFor _ _) (Aead.ledger_tagged _)).2
  have hforged : ∀ call ∈ calls, call.packet? (Aead.ledger (sealings .debug calls)) .debug
      ⟨List.replicate 32 7⟩ ≠ .ok received := by
    intro call hmem hpacket
    obtain rfl := List.mem_singleton.mp hmem
    obtain ⟨-, encrypted, hheader⟩ := SealCall.of_packet? hpacket
    have hseq : packetSeq received = 999 := by
      rw [hheader]
      exact packetSeq_header
    exact absurd hseq (by decide)
  have hpanics := decrypt_forged (Aead.ledger_idealFor _ _) hforged 0
  rw [hrejects hforged, if_neg (by decide)] at hpanics
  cases hpanics

end AetherCrypto

end AetherBond.Core
