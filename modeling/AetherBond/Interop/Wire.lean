import AetherBond.Common.Protocol
import AetherBond.Core.CryptoPacket

set_option autoImplicit false

/-! # The two packet formats

Python (`AetherProtocol`) and Rust (`AetherCrypto`) use one cipher, one header and the header as
associated data, but two nonces: sequence number and timestamp side by side on the one side,
four zero bytes and the `xor` of the two on the other. The nonces agree for the number 0 only
(`nonces_agree_iff`), and a packet of one side passes the other exactly then
(`wireFormat_agrees_iff`).
-/

namespace AetherBond.Interop

open AetherBond.Lib AetherBond.Core AetherBond.Common

variable {cipher : Aead} {profile : Profile} {key payload : Bytes} {seq pathId : UInt32}
  {timestampUs : UInt64}

/-! ## Headers and nonces -/

theorem packable_of_fields (seq pathId : UInt32) (timestampUs : UInt64) :
    Packable seq.toNat (timestampUs.toNat : Int) pathId.toNat := by
  have hseq := seq.toNat_lt
  have htime := timestampUs.toNat_lt
  have hpath := pathId.toNat_lt
  exact ⟨hseq, ⟨Int.natCast_nonneg _, by omega⟩, hpath⟩

/-- **One header**, for all values of the fields. -/
theorem packHeader_eq_header (seq pathId : UInt32) (timestampUs : UInt64) :
    packHeader seq.toNat timestampUs.toNat pathId.toNat
      = .ok (AetherCrypto.header seq timestampUs pathId) := by
  rw [packHeader_of_packable (packable_of_fields seq pathId timestampUs)]
  unfold AetherCrypto.header
  rw [Int.toNat_natCast, List.append_assoc]

/-- `struct.pack("!IQ", seq, timestamp_us)`. -/
def pythonNonce (seq : UInt32) (timestampUs : UInt64) : Bytes :=
  toBE 4 seq.toNat ++ toBE 8 timestampUs.toNat

/-- The first nonce of an `AetherNonceSequence`. -/
def rustNonce (seq : UInt32) (timestampUs : UInt64) : Bytes :=
  List.replicate 4 0 ++ toBE 8 (AetherCrypto.nonceSeq seq timestampUs).toNat

theorem length_pythonNonce (seq : UInt32) (timestampUs : UInt64) :
    (pythonNonce seq timestampUs).length = 12 := by
  simp [pythonNonce]

theorem length_rustNonce (seq : UInt32) (timestampUs : UInt64) :
    (rustNonce seq timestampUs).length = 12 := by
  simp [rustNonce]

/-- **Two nonces**: they differ but for the number 0. -/
theorem nonces_agree_iff (seq : UInt32) (timestampUs : UInt64) :
    pythonNonce seq timestampUs = rustNonce seq timestampUs ↔ seq = 0 := by
  unfold pythonNonce rustNonce
  constructor
  · intro h
    have hzero : toBE 4 seq.toNat = toBE 4 0 := (List.append_inj h (by simp)).1
    exact UInt32.toNat_inj.mp (toBE_inj seq.toNat_lt (by decide) hzero)
  · rintro rfl
    have hxor : AetherCrypto.nonceSeq 0 timestampUs = timestampUs := by
      unfold AetherCrypto.nonceSeq
      simp
    rw [hxor]
    rfl

/-- The build of the Rust side can form its nonce: a debug build panics on the counter
`u64::MAX`. -/
def Counts (profile : Profile) (seq : UInt32) (timestampUs : UInt64) : Prop :=
  profile = .debug → AetherCrypto.nonceSeq seq timestampUs ≠ UInt64.ofNat (2 ^ 64 - 1)

theorem nonce?_eq (profile : Profile) (seq : UInt32) (timestampUs : UInt64) :
    (Counts profile seq timestampUs ∧
        AetherCrypto.EncryptCall.nonce? profile ⟨seq, timestampUs⟩
          = some (rustNonce seq timestampUs)) ∨
      (¬ Counts profile seq timestampUs ∧
        AetherCrypto.EncryptCall.nonce? profile ⟨seq, timestampUs⟩ = none) := by
  unfold Counts
  by_cases h : AetherCrypto.EncryptCall.seals profile ⟨seq, timestampUs⟩
  · exact Or.inl ⟨fun hp hmax => of_decide_eq_true h ⟨hmax, hp⟩, AetherCrypto.nonce?_of_seals h⟩
  · have hstops : AetherCrypto.nonceSeq seq timestampUs = UInt64.ofNat (2 ^ 64 - 1) ∧
        profile = .debug := not_not.mp fun hno => h (decide_eq_true hno)
    exact Or.inr ⟨fun hc => hc hstops.2 hstops.1, AetherCrypto.nonce?_of_not_seals h⟩

/-! ## The two directions -/

/-- A packet of Python's `encrypt_and_pack` is accepted by Rust's `decrypt` with the same
values. -/
def AcceptedByRust (cipher : Aead) (profile : Profile) (key payload : Bytes)
    (seq pathId : UInt32) (timestampUs nowUs : UInt64) : Prop :=
  ∃ packet latencyMs,
    (AetherProtocol.new cipher key).encryptAndPack payload seq.toNat pathId.toNat
      timestampUs.toNat = .ok packet ∧
    AetherCrypto.decrypt cipher profile ⟨key⟩ packet nowUs = .ok (payload, seq, pathId, latencyMs)

/-- A packet of Rust's `encrypt` is accepted by Python's `unpack_and_decrypt` with the same
values. -/
def AcceptedByPython (cipher : Aead) (profile : Profile) (key payload : Bytes)
    (seq pathId : UInt32) (timestampUs : UInt64) (nowUs : Int) : Prop :=
  ∃ packet latencyMs,
    AetherCrypto.encrypt cipher profile ⟨key⟩ payload seq pathId timestampUs = .ok packet ∧
    (AetherProtocol.new cipher key).unpackAndDecrypt packet nowUs
      = .ok (payload, seq.toNat, pathId.toNat, latencyMs)

theorem new_key (cipher : Aead) (hkey : key.length = 32) :
    (AetherProtocol.new cipher key).key = key := by
  unfold AetherProtocol.new
  exact if_neg (not_not.mpr hkey)

/-- The packet Python builds. -/
theorem python_packet (cipher : Aead) (hkey : key.length = 32) (payload : Bytes)
    (seq pathId : UInt32) (timestampUs : UInt64) :
    (AetherProtocol.new cipher key).encryptAndPack payload seq.toNat pathId.toNat timestampUs.toNat
      = .ok (AetherCrypto.header seq timestampUs pathId ++
          cipher.encrypt key (pythonNonce seq timestampUs)
            (AetherCrypto.header seq timestampUs pathId) payload) := by
  rw [encryptAndPack_of_packable _ payload (packable_of_fields seq pathId timestampUs),
    new_key cipher hkey]
  unfold AetherCrypto.header pythonNonce
  rw [Int.toNat_natCast, List.append_assoc (toBE 4 seq.toNat)]
  rfl

theorem acceptedByRust_iff (hcorrect : cipher.Correct) (htagged : cipher.Tagged)
    (hbound : cipher.NonceBound) (hkey : key.length = 32) (nowUs : UInt64) :
    AcceptedByRust cipher profile key payload seq pathId timestampUs nowUs ↔
      seq = 0 ∧ Counts profile seq timestampUs := by
  set header := AetherCrypto.header seq timestampUs pathId with hheader
  set encrypted := cipher.encrypt key (pythonNonce seq timestampUs) header payload with hencrypted
  have hlen : 16 ≤ encrypted.length := by
    rw [hencrypted, htagged _ _ _ _ (length_pythonNonce seq timestampUs)]
    exact Nat.le_add_left _ _
  have hpacket := python_packet cipher hkey payload seq pathId timestampUs
  obtain ⟨latencyMs, hdecrypt⟩ := AetherCrypto.decrypt_header_append cipher profile ⟨key⟩ seq pathId
    timestampUs nowUs hlen
  constructor
  · rintro ⟨packet, latency, hpack, hopen⟩
    obtain rfl := Except.ok.inj (hpacket.symm.trans hpack)
    rw [← hheader, ← hencrypted, hdecrypt] at hopen
    rcases nonce?_eq profile seq timestampUs with ⟨hcounts, hnonce⟩ | ⟨-, hnonce⟩
    · refine ⟨(nonces_agree_iff seq timestampUs).mp ?_, hcounts⟩
      by_contra hne
      rw [hnonce] at hopen
      dsimp only at hopen
      rw [← hheader, hencrypted, hbound _ _ _ _ _ (length_pythonNonce seq timestampUs)
        (length_rustNonce seq timestampUs) hne] at hopen
      cases hopen
    · rw [hnonce] at hopen
      cases hopen
  · rintro ⟨hzero, hcounts⟩
    have hnonce := (nonce?_eq profile seq timestampUs).resolve_right fun h => h.1 hcounts
    refine ⟨_, latencyMs, hpacket, ?_⟩
    rw [← hheader, ← hencrypted, hdecrypt, hnonce.2,
      ← (nonces_agree_iff seq timestampUs).mpr hzero]
    dsimp only
    rw [← hheader, hencrypted, hcorrect]

theorem acceptedByPython_iff (hcorrect : cipher.Correct) (hbound : cipher.NonceBound)
    (hkey : key.length = 32) (nowUs : Int) :
    AcceptedByPython cipher profile key payload seq pathId timestampUs nowUs ↔
      seq = 0 ∧ Counts profile seq timestampUs := by
  have hopen : ∀ encrypted, (AetherProtocol.new cipher key).unpackAndDecrypt
      (AetherCrypto.header seq timestampUs pathId ++ encrypted) nowUs
      = (cipher.decrypt? key (pythonNonce seq timestampUs)
          (AetherCrypto.header seq timestampUs pathId) encrypted).elim (.error .invalidTag)
        fun payload =>
          .ok (payload, seq.toNat, pathId.toNat, (nowUs - (timestampUs.toNat : Int)) / 1000) := by
    intro encrypted
    have h := unpackAndDecrypt_header_append (AetherProtocol.new cipher key)
      (packable_of_fields seq pathId timestampUs) encrypted nowUs
    rw [new_key cipher hkey, Int.toNat_natCast, ← List.append_assoc (toBE 4 seq.toNat)] at h
    generalize hopened : cipher.decrypt? key (pythonNonce seq timestampUs)
      (AetherCrypto.header seq timestampUs pathId) encrypted = opened
    have hsame : (AetherProtocol.new cipher key).cipher.decrypt? key
        (toBE 4 seq.toNat ++ toBE 8 timestampUs.toNat)
        (toBE 4 seq.toNat ++ toBE 8 timestampUs.toNat ++ toBE 4 pathId.toNat) encrypted = opened :=
      hopened
    rw [hsame] at h
    cases opened <;> exact h
  rcases nonce?_eq profile seq timestampUs with ⟨hcounts, hnonce⟩ | ⟨hstops, hnonce⟩
  · have hencrypt : AetherCrypto.encrypt cipher profile ⟨key⟩ payload seq pathId timestampUs =
        .ok (AetherCrypto.header seq timestampUs pathId ++
          cipher.encrypt key (rustNonce seq timestampUs)
            (AetherCrypto.header seq timestampUs pathId) payload) := by
      rw [AetherCrypto.encrypt_eq, hnonce]
    constructor
    · rintro ⟨packet, latency, hpack, hres⟩
      obtain rfl := Except.ok.inj (hencrypt.symm.trans hpack)
      refine ⟨(nonces_agree_iff seq timestampUs).mp ?_, hcounts⟩
      by_contra hne
      rw [hopen, hbound _ _ _ _ _ (length_rustNonce seq timestampUs)
        (length_pythonNonce seq timestampUs) (Ne.symm hne)] at hres
      cases hres
    · rintro ⟨hzero, -⟩
      refine ⟨_, (nowUs - (timestampUs.toNat : Int)) / 1000, hencrypt, ?_⟩
      rw [hopen, (nonces_agree_iff seq timestampUs).mpr hzero, hcorrect, Option.elim_some]
  · have hencrypt : AetherCrypto.encrypt cipher profile ⟨key⟩ payload seq pathId timestampUs =
        .error .overflow := by
      rw [AetherCrypto.encrypt_eq, hnonce]
    constructor
    · rintro ⟨packet, latency, hpack, -⟩
      rw [hencrypt] at hpack
      cases hpack
    · exact fun h => absurd h.2 hstops

/-- **Where the two formats agree.** For every 32-byte key and all values of the fields, the
two sides write the same header. A packet of either side is accepted by the other, with the
same payload, number and path, exactly if its number is 0 (and, in a debug build, its timestamp
is not `u64::MAX`): for every other number the nonces differ. -/
theorem wireFormat_agrees_iff (cipher : Aead) (hcorrect : cipher.Correct) (htagged : cipher.Tagged)
    (hbound : cipher.NonceBound) (profile : Profile) (key : Bytes) (hkey : key.length = 32)
    (payload : Bytes) (seq pathId : UInt32) (timestampUs : UInt64) :
    packHeader seq.toNat timestampUs.toNat pathId.toNat
        = .ok (AetherCrypto.header seq timestampUs pathId) ∧
      (∀ nowUs, AcceptedByRust cipher profile key payload seq pathId timestampUs nowUs ↔
        seq = 0 ∧ Counts profile seq timestampUs) ∧
      ∀ nowUs, AcceptedByPython cipher profile key payload seq pathId timestampUs nowUs ↔
        seq = 0 ∧ Counts profile seq timestampUs :=
  ⟨packHeader_eq_header seq pathId timestampUs,
    acceptedByRust_iff hcorrect htagged hbound hkey,
    acceptedByPython_iff hcorrect hbound hkey⟩

theorem wireFormat_agrees_first_packet :
    packHeader 0 1700000000000000 7 = .ok (AetherCrypto.header 0 1700000000000000 7) ∧
      (∀ nowUs, AcceptedByRust Aead.nonceTagged .release (List.replicate 32 1) [104, 105] 0 7
        1700000000000000 nowUs) ∧
      ∀ nowUs, AcceptedByPython Aead.nonceTagged .release (List.replicate 32 1) [104, 105] 0 7
        1700000000000000 nowUs := by
  obtain ⟨hheader, hrust, hpython⟩ := wireFormat_agrees_iff Aead.nonceTagged
    Aead.nonceTagged_correct Aead.nonceTagged_tagged Aead.nonceTagged_nonceBound .release _
    List.length_replicate [104, 105] 0 7 1700000000000000
  have hcounts : Counts .release 0 1700000000000000 := fun h => nomatch h
  exact ⟨hheader, fun nowUs => (hrust nowUs).mpr ⟨rfl, hcounts⟩,
    fun nowUs => (hpython nowUs).mpr ⟨rfl, hcounts⟩⟩

/-- A packet numbered 1 is accepted in neither direction. -/
theorem second_packet_rejected :
    ¬ ∀ (cipher : Aead), cipher.Correct → cipher.Tagged → cipher.NonceBound →
      ∀ (profile : Profile) (key payload : Bytes) (seq pathId : UInt32) (timestampUs : UInt64),
        key.length = 32 →
        (∀ nowUs, AcceptedByRust cipher profile key payload seq pathId timestampUs nowUs) ∧
          ∀ nowUs, AcceptedByPython cipher profile key payload seq pathId timestampUs nowUs := by
  intro h
  have haccepted := (h Aead.nonceTagged Aead.nonceTagged_correct Aead.nonceTagged_tagged
    Aead.nonceTagged_nonceBound .release (List.replicate 32 1) [104, 105] 1 7 1700000000000000
    List.length_replicate).1 1700000000000000
  have hzero := ((acceptedByRust_iff Aead.nonceTagged_correct Aead.nonceTagged_tagged
    Aead.nonceTagged_nonceBound List.length_replicate _).mp haccepted).1
  exact absurd hzero (by decide)

end AetherBond.Interop
