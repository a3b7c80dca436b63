import AetherBond.Lib.Bytes

set_option autoImplicit false

/-! # Authenticated encryption with associated data

`Aead` is the interface of a cipher such as ChaCha20-Poly1305: `encrypt` returns the ciphertext
with its tag appended, `decrypt?` returns the plaintext or rejects. The cipher itself is code
outside the programs that use it, so it is a parameter of their models, and what those
programs rely on is stated by properties of it: `Aead.Correct` and `Aead.Authentic`, and for
nonces of 12 bytes `Aead.Tagged` and `Aead.NonceBound`. Nobody who lacks the key can seal anything:
that is `Aead.IdealFor`, with a list of what was sealed under the key.
-/

namespace AetherBond.Lib

/-- The operations of an authenticated cipher. Arguments are, in order, the key, the nonce,
the associated data and the plaintext or ciphertext. -/
structure Aead where
  encrypt : Bytes → Bytes → Bytes → Bytes → Bytes
  decrypt? : Bytes → Bytes → Bytes → Bytes → Option Bytes

/-- What was encrypted decrypts to the same plaintext. -/
def Aead.Correct (c : Aead) : Prop :=
  ∀ key nonce aad plain, c.decrypt? key nonce aad (c.encrypt key nonce aad plain) = some plain

/-- Nothing is accepted but what encryption gives: the tag is a function of the other inputs,
and a string that is not the encrypted form of a plaintext is rejected. -/
def Aead.Authentic (c : Aead) : Prop :=
  ∀ key nonce aad sealed plain, c.decrypt? key nonce aad sealed = some plain →
    sealed = c.encrypt key nonce aad plain

/-- A ciphertext is 16 bytes longer than its plaintext. -/
def Aead.Tagged (c : Aead) : Prop :=
  ∀ key nonce aad plain, nonce.length = 12 →
    (c.encrypt key nonce aad plain).length = plain.length + 16

/-- What was encrypted under one nonce is rejected under every other. -/
def Aead.NonceBound (c : Aead) : Prop :=
  ∀ key nonce nonce' aad plain, nonce.length = 12 → nonce'.length = 12 → nonce ≠ nonce' →
    c.decrypt? key nonce' aad (c.encrypt key nonce aad plain) = none

/-- What a cipher was given to seal. -/
structure Sealing where
  nonce : Bytes
  aad : Bytes
  plain : Bytes
  deriving DecidableEq

/-- An ideal cipher whose key was used for some plaintexts: it opens their ciphertexts, under the
nonce and with the associated data of each, and nothing else. -/
def Aead.IdealFor (c : Aead) (key : Bytes) (sealings : List Sealing) : Prop :=
  ∀ nonce aad text plain, c.decrypt? key nonce aad text = some plain ↔
    ⟨nonce, aad, plain⟩ ∈ sealings ∧ text = c.encrypt key nonce aad plain

/-- A 16-byte sum over all the inputs of a cipher. -/
def checksumTag (key nonce aad plain : Bytes) : Bytes :=
  List.replicate 16 ((key ++ nonce ++ aad ++ plain).foldl (· + ·) 0)

/-- A stand-in where a concrete cipher is needed: the plaintext followed by a tag. -/
def Aead.checksum : Aead where
  encrypt key nonce aad plain := plain ++ checksumTag key nonce aad plain
  decrypt? key nonce aad text :=
    let plain := text.take (text.length - 16)
    if text = plain ++ checksumTag key nonce aad plain then some plain else none

/-- A 16-byte tag that spells the nonce out, with a sum over the other inputs. -/
def nonceTag (key nonce aad plain : Bytes) : Bytes :=
  (nonce ++ List.replicate 12 0).take 12 ++
    List.replicate 4 ((key ++ aad ++ plain).foldl (· + ·) 0)

/-- A second stand-in, whose tags tell nonces apart. -/
def Aead.nonceTagged : Aead where
  encrypt key nonce aad plain := plain ++ nonceTag key nonce aad plain
  decrypt? key nonce aad text :=
    let plain := text.take (text.length - 16)
    if text = plain ++ nonceTag key nonce aad plain then some plain else none

theorem Aead.checksum_correct : Aead.checksum.Correct := by
  intro key nonce aad plain
  have htake : (plain ++ checksumTag key nonce aad plain).take
      ((plain ++ checksumTag key nonce aad plain).length - 16) = plain := by
    rw [List.length_append]
    simp [checksumTag]
  unfold Aead.checksum
  dsimp only
  rw [htake]
  exact if_pos rfl

@[simp] theorem length_nonceTag (key nonce aad plain : Bytes) :
    (nonceTag key nonce aad plain).length = 16 := by
  simp [nonceTag]

/-- The part of a tagged text in front of the tag. -/
theorem take_append_nonceTag (key nonce aad plain : Bytes) :
    (plain ++ nonceTag key nonce aad plain).take
      ((plain ++ nonceTag key nonce aad plain).length - 16) = plain := by
  rw [List.length_append]
  simp

theorem Aead.nonceTagged_correct : Aead.nonceTagged.Correct := by
  intro key nonce aad plain
  unfold Aead.nonceTagged
  dsimp only
  rw [take_append_nonceTag]
  exact if_pos rfl

theorem Aead.nonceTagged_tagged : Aead.nonceTagged.Tagged := by
  intro key nonce aad plain _
  unfold Aead.nonceTagged
  dsimp only
  rw [List.length_append, length_nonceTag]

theorem Aead.nonceTagged_nonceBound : Aead.nonceTagged.NonceBound := by
  intro key nonce nonce' aad plain hlen hlen' hne
  unfold Aead.nonceTagged
  dsimp only
  rw [take_append_nonceTag]
  refine if_neg fun heq => hne ?_
  have htag := List.append_cancel_left heq
  unfold nonceTag at htag
  rw [List.take_append_of_le_length hlen.ge, List.take_append_of_le_length hlen'.ge,
    List.take_of_length_le hlen.le, List.take_of_length_le hlen'.le] at htag
  exact (List.append_inj htag (hlen.trans hlen'.symm)).1

/-- An ideal cipher: that of `nonceTagged`, which looks up what was sealed before it opens. -/
def Aead.ledger (sealings : List Sealing) : Aead where
  encrypt := Aead.nonceTagged.encrypt
  decrypt? key nonce aad text :=
    (Aead.nonceTagged.decrypt? key nonce aad text).filter fun plain =>
      ⟨nonce, aad, plain⟩ ∈ sealings

theorem Aead.ledger_tagged (sealings : List Sealing) : (Aead.ledger sealings).Tagged :=
  Aead.nonceTagged_tagged

theorem Aead.nonceTagged_authentic : Aead.nonceTagged.Authentic := by
  intro key nonce aad text plain h
  unfold Aead.nonceTagged at h ⊢
  dsimp only at h ⊢
  split_ifs at h with heq
  obtain rfl := Option.some.inj h
  exact heq

theorem Aead.ledger_idealFor (key : Bytes) (sealings : List Sealing) :
    (Aead.ledger sealings).IdealFor key sealings := by
  intro nonce aad text plain
  unfold Aead.ledger
  dsimp only
  rw [Option.filter_eq_some_iff, decide_eq_true_eq, and_comm]
  constructor
  · exact fun h => ⟨h.1, Aead.nonceTagged_authentic _ _ _ _ _ h.2⟩
  · rintro ⟨hmem, rfl⟩
    exact ⟨hmem, Aead.nonceTagged_correct key nonce aad plain⟩

end AetherBond.Lib
