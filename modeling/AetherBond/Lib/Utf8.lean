import AetherBond.Lib.Bytes

set_option autoImplicit false

/-! # UTF-8 with errors ignored, and without

`decodeIgnore` is Python's `bytes.decode('utf-8', errors='ignore')`: a machine that reads one
byte at a time. A byte that cannot continue the character begun so far drops what was read of
that character, and is then read as the first byte of a new one; a byte that begins no
character is dropped. `decode` is `bytes.decode('utf-8')`: the same machine, which refuses such
bytes, and a text that ends inside a character.

`encode` is `str.encode()`, and both give the text back (`decodeIgnore_encode`, `decode_encode`).
-/

namespace AetherBond.Lib

/-- Between two characters, or inside one: the bits read so far, how many bytes are missing,
and the range of the next one. -/
inductive Utf8State
  | start
  | inside (code missing low high : Nat)

namespace Utf8State

/-- The first byte of a character. -/
def lead (b : Nat) : Option Char × Utf8State :=
  if b ≤ 0x7F then (some (Char.ofNat b), start)
  else if 0xC2 ≤ b ∧ b ≤ 0xDF then (none, inside (b % 32) 1 0x80 0xBF)
  else if 0xE0 ≤ b ∧ b ≤ 0xEF then
    (none, inside (b % 16) 2 (if b = 0xE0 then 0xA0 else 0x80) (if b = 0xED then 0x9F else 0xBF))
  else if 0xF0 ≤ b ∧ b ≤ 0xF4 then
    (none, inside (b % 8) 3 (if b = 0xF0 then 0x90 else 0x80) (if b = 0xF4 then 0x8F else 0xBF))
  else (none, start)

/-- One byte: the character it completes, if any, and the state after it. -/
def next : Utf8State → Nat → Option Char × Utf8State
  | start, b => lead b
  | inside code missing low high, b =>
      if low ≤ b ∧ b ≤ high then
        if missing = 1 then (some (Char.ofNat (code * 64 + b % 64)), start)
        else (none, inside (code * 64 + b % 64) (missing - 1) 0x80 0xBF)
      else lead b

end Utf8State

def decodeFrom : Utf8State → Bytes → List Char
  | _, [] => []
  | st, b :: bs => (st.next b.toNat).1.toList ++ decodeFrom (st.next b.toNat).2 bs

def decodeIgnore (bs : Bytes) : List Char := decodeFrom .start bs

/-- The byte can stand here: it begins a character, or continues the one begun. -/
def Utf8State.accepts : Utf8State → Nat → Bool
  | start, b => b ≤ 0x7F || (0xC2 ≤ b && b ≤ 0xF4)
  | inside _ _ low high, b => low ≤ b && b ≤ high

def decodeStrictFrom : Utf8State → Bytes → Option (List Char)
  | .start, [] => some []
  | .inside _ _ _ _, [] => none
  | st, b :: bs =>
      if st.accepts b.toNat then
        (decodeStrictFrom (st.next b.toNat).2 bs).map ((st.next b.toNat).1.toList ++ ·)
      else none

/-- `none` is the `UnicodeDecodeError`. -/
def decode (bs : Bytes) : Option (List Char) := decodeStrictFrom .start bs

def encode (cs : List Char) : Bytes := cs.flatMap String.utf8EncodeChar

/-! ## The round trip -/

variable {code missing low high b : Nat} {bs : Bytes}

/-- Reading the bytes from a state, none of which is out of place, gives the characters and ends
in the other state. -/
inductive Utf8State.Reads : Utf8State → Bytes → List Char → Utf8State → Prop
  | nil (st : Utf8State) : Reads st [] [] st
  | cons {st st' : Utf8State} {b : UInt8} {bs : Bytes} {cs : List Char}
      (haccepts : st.accepts b.toNat) (hrest : Reads (st.next b.toNat).2 bs cs st') :
      Reads st (b :: bs) ((st.next b.toNat).1.toList ++ cs) st'

theorem Utf8State.Reads.append {st st' st'' : Utf8State} {as bs : Bytes} {cs ds : List Char}
    (h : st.Reads as cs st') (hrest : st'.Reads bs ds st'') :
    st.Reads (as ++ bs) (cs ++ ds) st'' := by
  induction h with
  | nil => exact hrest
  | cons haccepts _ ih =>
      rw [List.cons_append, List.append_assoc]
      exact .cons haccepts (ih hrest)

theorem decodeFrom_of_reads {st st' : Utf8State} {as : Bytes} {cs : List Char}
    (h : st.Reads as cs st') (bs : Bytes) :
    decodeFrom st (as ++ bs) = cs ++ decodeFrom st' bs := by
  induction h with
  | nil => rfl
  | cons haccepts hrest ih =>
      rw [List.cons_append, decodeFrom, ih, List.append_assoc]

theorem decodeStrictFrom_of_reads {st st' : Utf8State} {as : Bytes} {cs : List Char}
    (h : st.Reads as cs st') (bs : Bytes) :
    decodeStrictFrom st (as ++ bs) = (decodeStrictFrom st' bs).map (cs ++ ·) := by
  induction h with
  | nil => exact Option.map_id'.symm
  | cons haccepts hrest ih =>
      rw [List.cons_append, decodeStrictFrom, if_pos haccepts, ih, Option.map_map]
      exact congrArg (Option.map · _) (funext fun _ => (List.append_assoc ..).symm)

theorem charOfNat_eq {c : Char} {n : Nat} (h : n = c.val.toNat) : Char.ofNat n = c := by
  rw [h]
  exact Char.ofNat_toNat c

variable {c : Char} {cs : List Char} {st st₁ : Utf8State}

/-- One byte, by what the machine does with it. -/
theorem Utf8State.Reads.byte {found : Option Char} (hb : b < 256) (haccepts : st.accepts b)
    (hnext : st.next b = (found, st₁)) {st' : Utf8State} (hrest : st₁.Reads bs cs st') :
    st.Reads (UInt8.ofNat b :: bs) (found.toList ++ cs) st' := by
  have h : (UInt8.ofNat b).toNat = b := by simp; omega
  rw [← h] at haccepts hnext
  have hreads := Utf8State.Reads.cons haccepts (by rwa [hnext])
  rwa [hnext] at hreads

theorem reads_single (hb : b ≤ 0x7F) (hc : b = c.val.toNat) :
    Utf8State.start.Reads [UInt8.ofNat b] [c] .start := by
  have hnext : Utf8State.start.next b = (some c, .start) := by
    rw [Utf8State.next, Utf8State.lead, if_pos hb, charOfNat_eq hc]
  exact .byte (by omega) (by simp [Utf8State.accepts, hb]) hnext (.nil _)

/-- The first byte of a longer character. -/
theorem reads_lead (haccepts : 0xC2 ≤ b ∧ b ≤ 0xF4) (hlead : Utf8State.lead b = (none, st₁))
    (hrest : st₁.Reads bs cs st) : Utf8State.start.Reads (UInt8.ofNat b :: bs) cs st := by
  have hnext : Utf8State.start.next b = (none, st₁) := hlead
  exact .byte (by omega) (by simp [Utf8State.accepts, haccepts]) hnext hrest

theorem reads_more (hmissing : missing ≠ 1) (hb : b < 256) (hlow : low ≤ b) (hhigh : b ≤ high)
    (hrest : (Utf8State.inside (code * 64 + b % 64) (missing - 1) 0x80 0xBF).Reads bs cs st) :
    (Utf8State.inside code missing low high).Reads (UInt8.ofNat b :: bs) cs st := by
  have hnext : (Utf8State.inside code missing low high).next b =
      (none, .inside (code * 64 + b % 64) (missing - 1) 0x80 0xBF) := by
    rw [Utf8State.next, if_pos ⟨hlow, hhigh⟩, if_neg hmissing]
  exact .byte hb (by simp [Utf8State.accepts, hlow, hhigh]) hnext hrest

theorem reads_last (hb : b < 256) (hlow : low ≤ b) (hhigh : b ≤ high)
    (hc : code * 64 + b % 64 = c.val.toNat) :
    (Utf8State.inside code 1 low high).Reads [UInt8.ofNat b] [c] .start := by
  have hnext : (Utf8State.inside code 1 low high).next b = (some c, .start) := by
    rw [Utf8State.next, if_pos ⟨hlow, hhigh⟩, if_pos rfl, charOfNat_eq hc]
  exact .byte hb (by simp [Utf8State.accepts, hlow, hhigh]) hnext (.nil _)

/-- The encoding of a character is read as that character. -/
theorem reads_encodeChar (c : Char) :
    Utf8State.start.Reads (String.utf8EncodeChar c) [c] .start := by
  have hvalid : c.val.toNat < 0xD800 ∨ 0xDFFF < c.val.toNat ∧ c.val.toNat < 0x110000 := c.valid
  unfold String.utf8EncodeChar
  dsimp only
  generalize hv : c.val.toNat = v at hvalid
  by_cases h₁ : v ≤ 0x7f
  · rw [if_pos h₁]
    exact reads_single h₁ hv.symm
  rw [if_neg h₁]
  by_cases h₂ : v ≤ 0x7ff
  · rw [if_pos h₂]
    have hlead : Utf8State.lead (v / 64 % 0x20 + 0xc0) =
        (none, .inside ((v / 64 % 0x20 + 0xc0) % 32) 1 0x80 0xBF) := by
      rw [Utf8State.lead, if_neg (by omega), if_pos (by omega)]
    exact reads_lead (by omega) hlead (reads_last (by omega) (by omega) (by omega) (by omega))
  rw [if_neg h₂]
  by_cases h₃ : v ≤ 0xffff
  · rw [if_pos h₃]
    refine reads_lead (by omega)
      (by rw [Utf8State.lead, if_neg (by omega), if_neg (by omega), if_pos (by omega)]) ?_
    -- the two narrowed ranges exclude overlong forms and surrogates
    exact reads_more (by omega) (by omega) (by split_ifs <;> omega) (by split_ifs <;> omega)
      (reads_last (by omega) (by omega) (by omega) (by omega))
  rw [if_neg h₃]
  refine reads_lead (by omega) (by
    rw [Utf8State.lead, if_neg (by omega), if_neg (by omega), if_neg (by omega),
      if_pos (by omega)]) ?_
  exact reads_more (by omega) (by omega) (by split_ifs <;> omega) (by split_ifs <;> omega)
    (reads_more (by omega) (by omega) (by omega) (by omega)
      (reads_last (by omega) (by omega) (by omega) (by omega)))

/-! ## Strict decoding -/

/-- A byte that can stand between two characters is one, or begins a longer one. -/
theorem Utf8State.lead_cases (h : Utf8State.start.accepts b) :
    (∃ c, lead b = (some c, start)) ∨
      ∃ code missing low high, 0 < missing ∧ lead b = (none, inside code missing low high) := by
  have hb : b ≤ 0x7F ∨ 0xC2 ≤ b ∧ b ≤ 0xF4 := by simpa [accepts] using h
  unfold lead
  by_cases h₁ : b ≤ 0x7F
  · exact Or.inl ⟨_, if_pos h₁⟩
  rw [if_neg h₁]
  by_cases h₂ : 0xC2 ≤ b ∧ b ≤ 0xDF
  · exact Or.inr ⟨_, 1, _, _, by decide, if_pos h₂⟩
  rw [if_neg h₂]
  by_cases h₃ : 0xE0 ≤ b ∧ b ≤ 0xEF
  · exact Or.inr ⟨_, 2, _, _, by decide, if_pos h₃⟩
  rw [if_neg h₃]
  exact Or.inr ⟨_, 3, _, _, by decide, if_pos (by omega)⟩

/-- Inside a character, a text that decodes has one more to come. -/
theorem decodeStrictFrom_inside_ne_nil (hmissing : 0 < missing) :
    decodeStrictFrom (.inside code missing low high) bs ≠ some [] := by
  induction bs generalizing code missing low high with
  | nil => exact fun h => by cases h
  | cons b bs ih =>
      intro h
      unfold decodeStrictFrom at h
      split at h
      · next haccepts =>
          obtain ⟨cs, hcs, heq⟩ := Option.map_eq_some_iff.mp h
          have hrange : low ≤ b.toNat ∧ b.toNat ≤ high := by
            simpa [Utf8State.accepts] using haccepts
          rw [Utf8State.next, if_pos hrange] at hcs heq
          by_cases hlast : missing = 1
          · rw [if_pos hlast] at heq
            cases heq
          · rw [if_neg hlast] at hcs heq
            obtain rfl : cs = [] := heq
            exact ih (by omega) hcs
      · cases h

/-- Only no bytes decode to no text. -/
theorem decode_eq_nil (h : decode bs = some []) : bs = [] := by
  cases bs with
  | nil => rfl
  | cons b bs =>
      unfold decode decodeStrictFrom at h
      split at h
      · next haccepts =>
          obtain ⟨cs, hcs, heq⟩ := Option.map_eq_some_iff.mp h
          unfold Utf8State.next at hcs heq
          dsimp only at hcs heq
          rcases Utf8State.lead_cases haccepts with ⟨c, hlead⟩ |
            ⟨code, missing, low, high, hmissing, hlead⟩
          · rw [hlead] at heq
            cases heq
          · rw [hlead] at hcs heq
            obtain rfl : cs = [] := heq
            exact absurd hcs (decodeStrictFrom_inside_ne_nil hmissing)
      · cases h

/-! ## Encoded text -/

/-- Encoded text is read as that text. -/
theorem reads_encode (cs : List Char) : Utf8State.start.Reads (encode cs) cs .start := by
  unfold encode
  induction cs with
  | nil => exact .nil _
  | cons c cs ih =>
      rw [List.flatMap_cons]
      exact (reads_encodeChar c).append ih

/-- **Round trip**: encoded text decodes to itself. -/
theorem decodeIgnore_encode (cs : List Char) : decodeIgnore (encode cs) = cs := by
  have h := decodeFrom_of_reads (reads_encode cs) []
  rwa [List.append_nil, decodeFrom, List.append_nil] at h

/-- **Round trip** for the strict decoding. -/
theorem decode_encode (cs : List Char) : decode (encode cs) = some cs := by
  have h := decodeStrictFrom_of_reads (reads_encode cs) []
  rwa [List.append_nil, decodeStrictFrom, Option.map_some, List.append_nil] at h

end AetherBond.Lib
