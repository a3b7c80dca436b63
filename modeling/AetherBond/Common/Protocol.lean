import AetherBond.Lib.Aead

set_option autoImplicit false

/-! # The packet format

`AetherProtocol` of `aetherbond/common/protocol.py`. A packet is a 16-byte header (sequence
number, timestamp in microseconds, path id; `struct` format `"!IQI"`) followed by the
encrypted payload. The nonce is the first two fields of the header again (`"!IQ"`), and the
header is the associated data.

`time.time()` is an argument of the two methods, already in whole microseconds; a clock may
read anything, so it is an `Int`, and `struct.pack` raises on what does not fit its field.
-/

namespace AetherBond.Common

open AetherBond.Lib

/-! ## The source -/

/-- The exceptions of `AetherProtocol`. -/
inductive ProtocolError
  | valueError (message : String)
  | structError
  | invalidTag
  deriving DecidableEq, Repr

/-- `struct.calcsize("!IQI")`. -/
def headerSize : Nat := 16

/-- `struct.pack("!IQI", seq, timestamp_us, path_id)`. -/
def packHeader (seq : Nat) (timestampUs : Int) (pathId : Nat) : Except ProtocolError Bytes :=
  if seq < 2 ^ 32 ∧ 0 ≤ timestampUs ∧ timestampUs < 2 ^ 64 ∧ pathId < 2 ^ 32 then
    .ok (toBE 4 seq ++ (toBE 8 timestampUs.toNat ++ toBE 4 pathId))
  else .error .structError

/-- `struct.pack("!IQ", seq, timestamp_us)`. -/
def packNonce (seq : Nat) (timestampUs : Int) : Except ProtocolError Bytes :=
  if seq < 2 ^ 32 ∧ 0 ≤ timestampUs ∧ timestampUs < 2 ^ 64 then
    .ok (toBE 4 seq ++ toBE 8 timestampUs.toNat)
  else .error .structError

/-- `struct.unpack("!IQI", header)` on the first 16 bytes of a packet. -/
def unpackHeader (packet : Bytes) : Nat × Int × Nat :=
  (ofBE (packet.take 4), ofBE ((packet.drop 4).take 8), ofBE ((packet.drop 12).take 4))

structure AetherProtocol where
  key : Bytes
  cipher : Aead

namespace AetherProtocol

/-- `__init__`: a key of another length is padded with zero bytes or cut to 32 bytes. -/
def new (cipher : Aead) (secretKey : Bytes) : AetherProtocol where
  key :=
    if secretKey.length ≠ 32 then
      (secretKey ++ List.replicate (32 - secretKey.length) 0).take 32
    else secretKey
  cipher := cipher

def encryptAndPack (p : AetherProtocol) (payload : Bytes) (seq pathId : Nat) (nowUs : Int) :
    Except ProtocolError Bytes := do
  let header ← packHeader seq nowUs pathId
  let nonce ← packNonce seq nowUs
  return header ++ p.cipher.encrypt p.key nonce header payload

/-- `unpack_and_decrypt`: the payload, the sequence number, the path id and the latency in
milliseconds. -/
def unpackAndDecrypt (p : AetherProtocol) (packet : Bytes) (nowUs : Int) :
    Except ProtocolError (Bytes × Nat × Nat × ℚ) :=
  if packet.length < headerSize then
    .error (.valueError "Packet is too small to contain AetherBond header.")
  else
    let header := packet.take headerSize
    let encryptedPayload := packet.drop headerSize
    let (seq, timestampUs, pathId) := unpackHeader header
    (packNonce seq timestampUs).bind fun nonce =>
      match p.cipher.decrypt? p.key nonce header encryptedPayload with
      | none => .error .invalidTag
      | some payload => .ok (payload, seq, pathId, (nowUs - timestampUs) / 1000)

end AetherProtocol

/-- The arguments of a call of `encrypt_and_pack`, and the clock it read. -/
structure EncryptCall where
  payload : Bytes
  seq : Nat
  pathId : Nat
  nowUs : Int
  deriving DecidableEq

/-! ## Headers -/

/-- The fields of a packet that fit the header. -/
def Packable (seq : Nat) (timestampUs : Int) (pathId : Nat) : Prop :=
  seq < 2 ^ 32 ∧ (0 ≤ timestampUs ∧ timestampUs < 2 ^ 64) ∧ pathId < 2 ^ 32

instance (seq : Nat) (timestampUs : Int) (pathId : Nat) :
    Decidable (Packable seq timestampUs pathId) :=
  inferInstanceAs (Decidable (_ ∧ _))

variable {seq pathId : Nat} {timestampUs : Int}

theorem packHeader_of_packable (h : Packable seq timestampUs pathId) :
    packHeader seq timestampUs pathId
      = .ok (toBE 4 seq ++ (toBE 8 timestampUs.toNat ++ toBE 4 pathId)) := by
  obtain ⟨hseq, ⟨hpos, hlt⟩, hpath⟩ := h
  exact if_pos ⟨hseq, hpos, hlt, hpath⟩

theorem packHeader_of_not_packable (h : ¬ Packable seq timestampUs pathId) :
    packHeader seq timestampUs pathId = .error .structError :=
  if_neg fun ⟨hseq, hpos, hlt, hpath⟩ => h ⟨hseq, ⟨hpos, hlt⟩, hpath⟩

theorem packNonce_of_packable (h : Packable seq timestampUs pathId) :
    packNonce seq timestampUs = .ok (toBE 4 seq ++ toBE 8 timestampUs.toNat) :=
  if_pos ⟨h.1, h.2.1.1, h.2.1.2⟩

theorem length_header (seq timestampUs pathId : Nat) :
    (toBE 4 seq ++ (toBE 8 timestampUs ++ toBE 4 pathId)).length = headerSize := by
  simp [headerSize]

/-- Unpacking reads the three fields back, whatever follows the header. -/
theorem unpackHeader_packed (h : Packable seq timestampUs pathId) (rest : Bytes) :
    unpackHeader ((toBE 4 seq ++ (toBE 8 timestampUs.toNat ++ toBE 4 pathId)) ++ rest)
      = (seq, timestampUs, pathId) := by
  obtain ⟨hseq, ⟨hpos, hlt⟩, hpath⟩ := h
  have h₁ : ofBE (toBE 4 seq) = seq := ofBE_toBE_of_lt (by omega)
  have h₂ : (ofBE (toBE 8 timestampUs.toNat) : Int) = timestampUs := by
    rw [ofBE_toBE_of_lt (by omega)]
    exact Int.toNat_of_nonneg hpos
  have h₃ : ofBE (toBE 4 pathId) = pathId := ofBE_toBE_of_lt (by omega)
  have h₄ : (toBE 4 seq).drop 12 = [] := List.drop_of_length_le (by simp)
  unfold unpackHeader
  simp [List.drop_append, h₁, h₂, h₃, h₄]

/-! ## Packing and unpacking -/

theorem encryptAndPack_of_packable (p : AetherProtocol) (payload : Bytes)
    (h : Packable seq timestampUs pathId) :
    p.encryptAndPack payload seq pathId timestampUs
      = .ok ((toBE 4 seq ++ (toBE 8 timestampUs.toNat ++ toBE 4 pathId)) ++
          p.cipher.encrypt p.key (toBE 4 seq ++ toBE 8 timestampUs.toNat)
            (toBE 4 seq ++ (toBE 8 timestampUs.toNat ++ toBE 4 pathId)) payload) := by
  unfold AetherProtocol.encryptAndPack
  rw [packHeader_of_packable h, packNonce_of_packable h]
  rfl

theorem encryptAndPack_of_not_packable (p : AetherProtocol) (payload : Bytes)
    (h : ¬ Packable seq timestampUs pathId) :
    p.encryptAndPack payload seq pathId timestampUs = .error .structError := by
  unfold AetherProtocol.encryptAndPack
  rw [packHeader_of_not_packable h]
  rfl

/-- `encrypt_and_pack` returns exactly on the fields that fit. -/
theorem encryptAndPack_ok_iff (p : AetherProtocol) (payload : Bytes) :
    (∃ packet, p.encryptAndPack payload seq pathId timestampUs = .ok packet) ↔
      Packable seq timestampUs pathId := by
  constructor
  · rintro ⟨packet, hp⟩
    by_contra hno
    rw [encryptAndPack_of_not_packable p payload hno] at hp
    cases hp
  · exact fun h => ⟨_, encryptAndPack_of_packable p payload h⟩

/-- What `unpack_and_decrypt` does to a header with anything behind it. -/
theorem unpackAndDecrypt_header_append (p : AetherProtocol) (h : Packable seq timestampUs pathId)
    (encrypted : Bytes) (nowUs : Int) :
    p.unpackAndDecrypt
        ((toBE 4 seq ++ (toBE 8 timestampUs.toNat ++ toBE 4 pathId)) ++ encrypted) nowUs
      = match p.cipher.decrypt? p.key (toBE 4 seq ++ toBE 8 timestampUs.toNat)
          (toBE 4 seq ++ (toBE 8 timestampUs.toNat ++ toBE 4 pathId)) encrypted with
        | none => .error .invalidTag
        | some payload => .ok (payload, seq, pathId, (nowUs - timestampUs) / 1000) := by
  set header := toBE 4 seq ++ (toBE 8 timestampUs.toNat ++ toBE 4 pathId) with hheader
  have hlen : header.length = headerSize := length_header _ _ _
  have htake : (header ++ encrypted).take headerSize = header := by
    rw [List.take_append_of_le_length hlen.ge, List.take_of_length_le hlen.le]
  have hdrop : (header ++ encrypted).drop headerSize = encrypted := by
    rw [List.drop_append_of_le_length hlen.ge, List.drop_of_length_le hlen.le, List.nil_append]
  have hfields : unpackHeader header = (seq, timestampUs, pathId) := by
    have := unpackHeader_packed h []
    rwa [List.append_nil] at this
  have hnot : ¬ (header ++ encrypted).length < headerSize := by
    rw [List.length_append]
    omega
  unfold AetherProtocol.unpackAndDecrypt
  rw [if_neg hnot]
  dsimp only
  rw [htake, hdrop, hfields]
  dsimp only
  rw [packNonce_of_packable h]
  rfl

/-- **Round trip**: what was packed unpacks to the same payload, number and path. -/
theorem unpackAndDecrypt_encryptAndPack {p : AetherProtocol} (hc : p.cipher.Correct)
    {payload packet : Bytes} (hpack : p.encryptAndPack payload seq pathId timestampUs = .ok packet)
    (nowUs : Int) :
    p.unpackAndDecrypt packet nowUs
      = .ok (payload, seq, pathId, (nowUs - timestampUs) / 1000) := by
  have h : Packable seq timestampUs pathId := (encryptAndPack_ok_iff p payload).mp ⟨packet, hpack⟩
  rw [encryptAndPack_of_packable p payload h] at hpack
  obtain rfl := Except.ok.inj hpack
  rw [unpackAndDecrypt_header_append p h, hc]

end AetherBond.Common
