import Mathlib.Tactic

set_option autoImplicit false

/-! # Big-endian integers in byte strings

`toBE w n` writes `n` in `w` bytes, most significant byte first, dropping what does not fit;
`ofBE` reads such a string back. They are the network byte order of `struct` in Python
(`"!I"`, `"!Q"`) and of `to_be_bytes` / `from_be_bytes` in Rust. A field of fixed width can
always be cut out again, so records of such fields are injective (`append_toBE_inj`).
-/

namespace AetherBond.Lib

/-- A byte string. -/
abbrev Bytes := List UInt8

/-- The `w` low-order bytes of `n`, most significant first. -/
def toBE : Nat → Nat → Bytes
  | 0, _ => []
  | w + 1, n => toBE w (n / 256) ++ [UInt8.ofNat n]

/-- The number a byte string spells, most significant byte first. -/
def ofBE (bs : Bytes) : Nat := bs.foldl (fun acc b => acc * 256 + b.toNat) 0

@[simp] theorem length_toBE (w n : Nat) : (toBE w n).length = w := by
  induction w generalizing n with
  | zero => rfl
  | succ w ih => simp [toBE, ih]

theorem ofBE_concat (bs : Bytes) (b : UInt8) : ofBE (bs ++ [b]) = ofBE bs * 256 + b.toNat := by
  simp [ofBE]

/-- What `bs` spells fits its bytes. -/
theorem ofBE_lt (bs : Bytes) : ofBE bs < 256 ^ bs.length := by
  induction bs using List.reverseRecOn with
  | nil => decide
  | append_singleton bs b ih =>
      have hb : b.toNat < 256 := b.toNat_lt
      rw [ofBE_concat, List.length_append, List.length_singleton, Nat.pow_succ]
      omega

/-- Reading back what was written gives the part of `n` that fits. -/
theorem ofBE_toBE (w n : Nat) : ofBE (toBE w n) = n % 256 ^ w := by
  induction w generalizing n with
  | zero => simp [toBE, ofBE, Nat.mod_one]
  | succ w ih =>
      have hlow : (UInt8.ofNat n).toNat = n % 256 := by simp
      rw [toBE, ofBE_concat, ih, hlow, Nat.pow_succ, Nat.mul_comm (256 ^ w) 256,
        Nat.mod_mul, Nat.add_comm, Nat.mul_comm]

theorem ofBE_toBE_of_lt {w n : Nat} (h : n < 256 ^ w) : ofBE (toBE w n) = n := by
  rw [ofBE_toBE, Nat.mod_eq_of_lt h]

theorem toBE_inj {w n m : Nat} (hn : n < 256 ^ w) (hm : m < 256 ^ w)
    (h : toBE w n = toBE w m) : n = m := by
  rw [← ofBE_toBE_of_lt hn, ← ofBE_toBE_of_lt hm, h]

/-- Writing what was read gives the byte string back. -/
theorem toBE_ofBE (bs : Bytes) : toBE bs.length (ofBE bs) = bs := by
  induction bs using List.reverseRecOn with
  | nil => rfl
  | append_singleton bs b ih =>
      have hb : b.toNat < 256 := b.toNat_lt
      have hhigh : (ofBE bs * 256 + b.toNat) / 256 = ofBE bs := by omega
      have hlow : UInt8.ofNat (ofBE bs * 256 + b.toNat) = b := by
        apply UInt8.toNat_inj.mp
        rw [UInt8.toNat_ofNat']
        omega
      rw [ofBE_concat, List.length_append, List.length_singleton, toBE, hhigh, hlow, ih]

/-- A field of fixed width in front of a byte string can be cut off again. -/
theorem append_toBE_inj {w n m : Nat} {as bs : Bytes} (hn : n < 256 ^ w) (hm : m < 256 ^ w)
    (h : toBE w n ++ as = toBE w m ++ bs) : n = m ∧ as = bs := by
  have hcut := List.append_inj h (by rw [length_toBE, length_toBE])
  exact ⟨toBE_inj hn hm hcut.1, hcut.2⟩

/-- The bytes in decimal with dots between them, as of an IPv4 address. -/
def ipString (b : Bytes) : String := ".".intercalate (b.map fun x => toString x.toNat)

/-- The bytes can be read off their decimals with dots between them. -/
theorem dotted_inj {a b : Bytes} (ha : a ≠ []) (hb : b ≠ [])
    (h : ['.'].intercalate (a.map fun x => x.toNat.repr.toList) =
      ['.'].intercalate (b.map fun x => x.toNat.repr.toList)) : a = b := by
  have hsplit : ∀ {l : Bytes}, l ≠ [] →
      (['.'].intercalate (l.map fun x => x.toNat.repr.toList)).splitOn '.' =
        l.map fun x => x.toNat.repr.toList := by
    intro l hl
    refine List.splitOn_intercalate '.' ?_ (by simpa using hl)
    intro d hd hdot
    obtain ⟨x, -, rfl⟩ := List.mem_map.mp hd
    -- a dot is no digit
    have hdigit : '.'.isDigit = true := by
      apply Nat.isDigit_of_mem_toDigits (b := 10) (n := x.toNat) (by decide) (by decide)
      rw [← Nat.toList_repr]
      exact hdot
    exact absurd hdigit (by decide)
  have hmap := hsplit ha
  rw [h, hsplit hb] at hmap
  refine List.map_injective_iff.mpr (fun x y hxy => ?_) hmap.symm
  have hdigits : Nat.toDigits 10 x.toNat = Nat.toDigits 10 y.toNat := by
    rw [← Nat.toList_repr, ← Nat.toList_repr]
    exact hxy
  apply UInt8.toNat_inj.mp
  rw [← Nat.ofDigitChars_ten_toDigits (n := x.toNat), hdigits, Nat.ofDigitChars_ten_toDigits]

theorem ipString_inj {a b : Bytes} (ha : a ≠ []) (hb : b ≠ []) (h : ipString a = ipString b) :
    a = b := by
  have hlist : (ipString a).toList = (ipString b).toList := congrArg _ h
  unfold ipString at hlist
  rw [String.toList_intercalate, String.toList_intercalate, List.map_map, List.map_map] at hlist
  exact dotted_inj ha hb hlist

/-! ## Slices -/

/-- The bytes from `i` up to `j`, the latter excluded; `none` if there are not that many. -/
def slice? (bs : Bytes) (i j : Nat) : Option Bytes :=
  if i ≤ j ∧ j ≤ bs.length then some ((bs.drop i).take (j - i)) else none

theorem slice?_of_le {bs : Bytes} {i j : Nat} (hij : i ≤ j) (hj : j ≤ bs.length) :
    slice? bs i j = some ((bs.drop i).take (j - i)) := if_pos ⟨hij, hj⟩

end AetherBond.Lib
