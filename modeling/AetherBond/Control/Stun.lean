import AetherBond.Lib.Bytes

set_option autoImplicit false

/-! # The STUN response

`DiscoverNAT` of `aetherbond-control/pkg/nat/stun.go`, from the datagram it has received on: a
datagram is read into a buffer of 512 bytes, and what does not fit is lost. An index or a slice
outside the buffer panics.

The loop over the attributes checks that the value of an attribute ends in the datagram, and then
reads the eight bytes of a mapped address wherever the value ends. `reads` is history: each byte
that was read as part of a mapped address, with the value it was read for. The loop always
terminates (`discoverNAT_terminates`); it does not panic and reads a mapped address only from the
value of its attribute exactly if each attribute of that kind it comes to has room for one
(`discoverNAT_inBounds_iff`).
-/

namespace AetherBond.Control

open AetherBond.Lib

/-! ## The source -/

/-- `stunMagicCookie`. -/
def stunMagicCookie : Nat := 0x2112A442

/-- `NatProfile`. -/
structure NatProfile where
  publicIP : String
  publicPort : Nat
  natType : String
  deriving DecidableEq

/-- A byte that was read as part of a mapped address: its index, and the value of its
attribute. -/
structure MappedRead where
  index : Nat
  start : Nat
  len : Nat
  deriving DecidableEq

/-- The variables of the attribute loop. `publicIP` is `none` for the empty string. -/
structure ParseState where
  idx : Nat
  publicIP : Option Bytes
  publicPort : Nat
  reads : List MappedRead
  deriving DecidableEq

/-- How a turn of the loop ends. -/
inductive Turn
  | continues (s : ParseState)
  | breaks (s : ParseState)
  | panics (s : ParseState)
  deriving DecidableEq

/-- How the loop ends; `running` if `fuel` turns were not enough. -/
inductive LoopEnd
  | finished (s : ParseState)
  | panicked (s : ParseState)
  | running (s : ParseState)
  deriving DecidableEq

/-- `buf := make([]byte, 512)`, after `conn.Read(buf)`. -/
def readBuffer (datagram : Bytes) : Bytes :=
  datagram.take 512 ++ List.replicate (512 - datagram.length) 0

/-- The number of bytes `conn.Read` returns. -/
def readLength (datagram : Bytes) : Nat := min datagram.length 512

/-- `binary.BigEndian.Uint16(buf[i : i+2])`. -/
def uint16 (buf : Bytes) (i : Nat) : Option Nat := (slice? buf i (i + 2)).map ofBE

/-- `binary.BigEndian.Uint32(buf[i : i+4])`. -/
def uint32 (buf : Bytes) (i : Nat) : Option Nat := (slice? buf i (i + 4)).map ofBE

/-- The address and port in the value that starts at `idx`: `none` is a panic, and an address
that is not IPv4 is left alone. -/
def mappedAddress (buf : Bytes) (xor : Bool) (idx : Nat) : Option (Option (Nat × Bytes)) :=
  match buf[idx + 1]? with
  | none => none
  | some family =>
      if family = 1 then
        match uint16 buf (idx + 2), slice? buf (idx + 4) (idx + 8) with
        | some port, some ip =>
            if xor then
              some (some (port ^^^ (stunMagicCookie >>> 16), toBE 4 (ofBE ip ^^^ stunMagicCookie)))
            else some (some (port, ip))
        | _, _ => none
      else some none

/-- The bytes from `first` to before `last`, read for the value at `idx`. -/
def readsFor (idx attrLen first last : Nat) : List MappedRead :=
  (List.range' first (last - first)).map fun i => ⟨i, idx, attrLen⟩

/-- One turn of the loop. -/
def turn (buf : Bytes) (n : Nat) (s : ParseState) : Turn :=
  match uint16 buf s.idx, uint16 buf (s.idx + 2) with
  | some attrType, some attrLen =>
      let idx := s.idx + 4
      -- the one check of the value: that it ends in what was received
      if n < idx + attrLen then .breaks { s with idx := idx }
      else
        -- values are padded to a multiple of four bytes
        let next := idx + attrLen + (4 - attrLen % 4) % 4
        -- 0x0001 is MAPPED-ADDRESS, 0x0020 XOR-MAPPED-ADDRESS
        if attrType = 0x0001 ∨ attrType = 0x0020 then
          match mappedAddress buf (attrType = 0x0020) idx with
          | none => .panics { s with idx := idx }
          | some none =>
              .continues { s with
                idx := next
                reads := s.reads ++ readsFor idx attrLen (idx + 1) (idx + 2) }
          | some (some (port, ip)) =>
              .continues
                { idx := next
                  publicIP := some ip
                  publicPort := port
                  reads := s.reads ++ readsFor idx attrLen (idx + 1) (idx + 8) }
        else .continues { s with idx := next }
  | _, _ => .panics s

/-- `for idx+4 <= n && idx < end`. -/
def attributeLoop (buf : Bytes) (n stop : Nat) : Nat → ParseState → LoopEnd
  | 0, s => .running s
  | fuel + 1, s =>
      if s.idx + 4 ≤ n ∧ s.idx < stop then
        match turn buf n s with
        | .continues s' => attributeLoop buf n stop fuel s'
        | .breaks s' => .finished s'
        | .panics s' => .panicked s'
      else .finished s

/-- What `DiscoverNAT` does with a datagram. -/
inductive Outcome
  | profile (profile : NatProfile)
  | error (text : String)
  | panic
  | running
  deriving DecidableEq

/-- The classification after the loop. -/
def classify (localIP : String) (s : ParseState) : Outcome :=
  match s.publicIP with
  | none => .error "no mapped address found in STUN response"
  | some ip =>
      let natType :=
        if ipString ip = localIP then "Public Address (No NAT)"
        else if localIP = "127.0.0.1" ∨ localIP = "0.0.0.0" then "Simulated Loopback NAT"
        else "NAT (Symmetric/Cone)"
      .profile ⟨ipString ip, s.publicPort, natType⟩

/-- `0x%X` without its prefix. -/
def hex (n : Nat) : String := String.ofList ((Nat.toDigits 16 n).map Char.toUpper)

/-- `DiscoverNAT` after `conn.Read`, with the bytes it read as parts of mapped addresses. -/
def discoverNAT (localIP : String) (datagram : Bytes) : Outcome × List MappedRead :=
  let buf := readBuffer datagram
  let n := readLength datagram
  if n < 20 then (.error ("STUN packet too short: " ++ toString n ++ " bytes"), [])
  else
    match uint32 buf 4, uint16 buf 2 with
    | some cookie, some length =>
        if cookie ≠ stunMagicCookie then
          (.error ("invalid STUN cookie in response: 0x" ++ hex cookie), [])
        else
          match attributeLoop buf n (20 + length) n ⟨20, none, 0, []⟩ with
          | .finished s => (classify localIP s, s.reads)
          | .panicked s => (.panic, s.reads)
          | .running s => (.running, s.reads)
    | _, _ => (.panic, [])

/-! ## The attributes of a response -/

/-- An attribute: its type, and where its value starts and how long it is. -/
structure Attribute where
  attrType : Nat
  start : Nat
  len : Nat
  deriving DecidableEq

/-- The attribute whose header is at `idx`. -/
def attributeAt (buf : Bytes) (idx : Nat) : Attribute where
  attrType := ofBE ((buf.drop idx).take 2)
  start := idx + 4
  len := ofBE ((buf.drop (idx + 2)).take 2)

/-- Where the next attribute starts, on a multiple of four bytes behind this one. -/
def Attribute.next (a : Attribute) : Nat := a.start + a.len + (4 - a.len % 4) % 4

/-- A mapped address, XORed or not. -/
def Attribute.IsAddress (a : Attribute) : Prop := a.attrType = 0x0001 ∨ a.attrType = 0x0020

instance (a : Attribute) : Decidable a.IsAddress := inferInstanceAs (Decidable (_ ∨ _))

/-- What the loop takes from an attribute; `none` is a panic. -/
def Attribute.address (buf : Bytes) (a : Attribute) : Option (Option (Nat × Bytes)) :=
  if a.IsAddress then mappedAddress buf (a.attrType = 0x0020) a.start else some none

/-- The bytes the loop reads as part of a mapped address, when it does not panic. -/
def Attribute.mappedReads (buf : Bytes) (a : Attribute) : List MappedRead :=
  if a.IsAddress then
    readsFor a.start a.len (a.start + 1) (a.start + if buf[a.start + 1]? = some 1 then 8 else 2)
  else []

/-- The port and the address found so far. -/
def ParseState.found (s : ParseState) : Option (Nat × Bytes) :=
  s.publicIP.map fun ip => (s.publicPort, ip)

/-- The attributes from `idx` on whose value ends in the first `n` bytes, up to the first whose
value does not. -/
def attributes (buf : Bytes) (n stop : Nat) : Nat → Nat → List Attribute
  | 0, _ => []
  | fuel + 1, idx =>
      let a := attributeAt buf idx
      if idx + 4 ≤ n ∧ idx < stop ∧ a.start + a.len ≤ n then
        a :: attributes buf n stop fuel a.next
      else []

/-- If it is a mapped address, the value has room for a family, and for an IPv4 address if that
is its family, in the declared length. -/
def Attribute.HasRoom (buf : Bytes) (stop : Nat) (a : Attribute) : Prop :=
  a.IsAddress → 2 ≤ a.len ∧ a.start + 2 ≤ stop ∧
    (buf[a.start + 1]? = some 1 → 8 ≤ a.len ∧ a.start + 8 ≤ stop)

instance (buf : Bytes) (stop : Nat) (a : Attribute) : Decidable (a.HasRoom buf stop) :=
  inferInstanceAs (Decidable (_ → _))

/-! ## One turn -/

/-- The byte lies in the value it was read for, in the first `n` bytes and before `stop`. -/
structure MappedRead.Inside (n stop : Nat) (x : MappedRead) : Prop where
  start : x.start ≤ x.index
  value : x.index < x.start + x.len
  received : x.index < n
  declared : x.index < stop

/-- The loop ended without a panic, and the bytes it read were where they should be. -/
def LoopEnd.InBounds (n stop : Nat) : LoopEnd → Prop
  | .finished s => ∀ x ∈ s.reads, x.Inside n stop
  | .panicked _ => False
  | .running _ => False

variable {buf : Bytes} {n stop idx first last len : Nat} {s : ParseState}

theorem uint16_eq (h : idx + 2 ≤ buf.length) :
    uint16 buf idx = some (ofBE ((buf.drop idx).take 2)) := by
  unfold uint16
  rw [slice?_of_le (Nat.le_add_right _ _) h, Nat.add_sub_cancel_left]
  rfl

/-- A range of bytes is read from inside exactly if its ends are. -/
theorem readsFor_inside (hlt : first < last) (hstart : idx ≤ first) (hn : idx + len ≤ n) :
    (∀ x ∈ readsFor idx len first last, x.Inside n stop) ↔ last ≤ idx + len ∧ last ≤ stop := by
  constructor
  · intro h
    have hin : (⟨last - 1, idx, len⟩ : MappedRead).Inside n stop :=
      h _ (List.mem_map.mpr ⟨last - 1, List.mem_range'_1.mpr (by omega), rfl⟩)
    have hvalue := hin.value
    have hdeclared := hin.declared
    dsimp only at hvalue hdeclared
    omega
  · rintro ⟨hvalue, hdeclared⟩ x hx
    obtain ⟨i, hi, rfl⟩ := List.mem_map.mp hx
    have hi' := List.mem_range'_1.mp hi
    constructor
    case start => exact hstart.trans hi'.1
    case value =>
      show i < idx + len
      omega
    case received =>
      show i < n
      omega
    case declared =>
      show i < stop
      omega

/-- A mapped address for which the value has no room in the buffer is a panic. -/
theorem mappedAddress_none (xor : Bool) (h : mappedAddress buf xor idx = none) :
    buf.length ≤ idx + 1 ∨ buf[idx + 1]? = some 1 ∧ buf.length < idx + 8 := by
  unfold mappedAddress at h
  cases hfamily : buf[idx + 1]? with
  | none => exact .inl (List.getElem?_eq_none_iff.mp hfamily)
  | some family =>
      by_cases hone : family = 1
      case neg => simp [hfamily, hone] at h
      refine .inr ⟨by rw [hone], ?_⟩
      by_contra hroom
      rw [uint16_eq (by omega), slice?_of_le (by omega) (by omega)] at h
      cases xor <;> simp [hfamily, hone] at h

/-- Only an IPv4 address is read whole; of another only the family is. -/
theorem mappedAddress_some {xor : Bool} {r : Option (Nat × Bytes)}
    (h : mappedAddress buf xor idx = some r) : r.isSome ↔ buf[idx + 1]? = some 1 := by
  unfold mappedAddress at h
  cases hfamily : buf[idx + 1]? with
  | none => simp [hfamily] at h
  | some family =>
      by_cases hone : family = 1
      case neg =>
        obtain rfl : none = r := by simpa [hfamily, hone] using h
        simp [hone]
      simp only [hfamily, hone, if_true] at h
      split at h
      · cases xor <;> · obtain rfl := Option.some.inj h; simp [hone]
      · nomatch h

/-- An attribute that the loop panics at has no room for its address. -/
theorem Attribute.not_hasRoom {a : Attribute} (hvalue : a.start + a.len ≤ buf.length)
    (h : a.address buf = none) : ¬ a.HasRoom buf stop := by
  unfold Attribute.address at h
  split at h
  case isFalse => cases h
  case isTrue haddress =>
    intro hroom
    obtain ⟨htwo, -, height⟩ := hroom haddress
    obtain hshort | ⟨hfamily, hshort⟩ := mappedAddress_none _ h
    · omega
    · have := (height hfamily).1
      omega

/-- What is read of an attribute is inside exactly if the attribute has room for it. -/
theorem Attribute.mappedReads_inside {a : Attribute} (hvalue : a.start + a.len ≤ n) :
    (∀ x ∈ a.mappedReads buf, x.Inside n stop) ↔ a.HasRoom buf stop := by
  unfold Attribute.mappedReads Attribute.HasRoom
  by_cases haddress : a.IsAddress
  case neg =>
    rw [if_neg haddress]
    exact ⟨fun _ h => absurd h haddress, fun _ x hx => absurd hx List.not_mem_nil⟩
  rw [if_pos haddress]
  by_cases hfamily : buf[a.start + 1]? = some 1
  · rw [if_pos hfamily, readsFor_inside (by omega) (by omega) hvalue]
    constructor
    · exact fun h _ => ⟨by omega, by omega, fun _ => ⟨by omega, h.2⟩⟩
    · intro h
      obtain ⟨-, -, height⟩ := h haddress
      have := height hfamily
      omega
  · rw [if_neg hfamily, readsFor_inside (by omega) (by omega) hvalue]
    constructor
    · exact fun h _ => ⟨by omega, h.2, fun hone => absurd hone hfamily⟩
    · intro h
      obtain ⟨htwo, hstop, -⟩ := h haddress
      omega

/-- The loop goes on behind an attribute, of which it has read what there is to read. -/
structure Attribute.Parsed (buf : Bytes) (a : Attribute) (s s' : ParseState) : Prop where
  idx : s'.idx = a.next
  reads : s'.reads = s.reads ++ a.mappedReads buf
  address : ∃ r, a.address buf = some r ∧ s'.found = r.or s.found

/-- A turn that finds a whole attribute panics, or goes on behind it. -/
theorem turn_attribute (hn : n ≤ buf.length) (hidx : s.idx + 4 ≤ n)
    (hvalue : (attributeAt buf s.idx).start + (attributeAt buf s.idx).len ≤ n) :
    (∃ s', turn buf n s = .panics s' ∧ (attributeAt buf s.idx).address buf = none) ∨
      ∃ s', turn buf n s = .continues s' ∧ (attributeAt buf s.idx).Parsed buf s s' := by
  obtain ⟨a, ha⟩ : ∃ a, attributeAt buf s.idx = a := ⟨_, rfl⟩
  have htype : uint16 buf s.idx = some a.attrType := by rw [← ha]; exact uint16_eq (by omega)
  have hlen : uint16 buf (s.idx + 2) = some a.len := by rw [← ha]; exact uint16_eq (by omega)
  have hstart : s.idx + 4 = a.start := by rw [← ha]; rfl
  rw [ha] at hvalue ⊢
  have hwhole : ¬ n < s.idx + 4 + a.len := by omega
  unfold turn
  simp only [htype, hlen, if_neg hwhole]
  by_cases haddress : a.attrType = 0x0001 ∨ a.attrType = 0x0020
  case neg =>
    have hreads : a.mappedReads buf = [] := if_neg haddress
    rw [if_neg haddress]
    refine .inr ⟨_, rfl, ?_, ?_, none, if_neg haddress, rfl⟩
    · rw [hstart]
      rfl
    · rw [hreads, List.append_nil]
  have htaken : a.address buf = mappedAddress buf (a.attrType = 0x0020) a.start := if_pos haddress
  have hreads : a.mappedReads buf = readsFor a.start a.len (a.start + 1)
      (a.start + if buf[a.start + 1]? = some 1 then 8 else 2) := if_pos haddress
  rw [if_pos haddress, hstart]
  cases hread : mappedAddress buf (a.attrType = 0x0020) a.start with
  | none => exact .inl ⟨_, rfl, htaken.trans hread⟩
  | some r =>
      have hfamily := mappedAddress_some hread
      cases r with
      | none =>
          rw [if_neg fun hone => absurd (hfamily.mpr hone) (by simp)] at hreads
          exact .inr ⟨_, rfl, rfl, by rw [hreads], none, htaken.trans hread, rfl⟩
      | some r =>
          rw [if_pos (hfamily.mp rfl)] at hreads
          exact .inr ⟨_, rfl, rfl, by rw [hreads], some r, htaken.trans hread, rfl⟩

/-- A turn that finds an attribute whose value is cut off ends the loop and reads nothing. -/
theorem turn_cut (hn : n ≤ buf.length) (hidx : s.idx + 4 ≤ n)
    (hvalue : ¬ (attributeAt buf s.idx).start + (attributeAt buf s.idx).len ≤ n) :
    turn buf n s = .breaks { s with idx := s.idx + 4 } := by
  have htype : uint16 buf s.idx = some (ofBE ((buf.drop s.idx).take 2)) := uint16_eq (by omega)
  have hlen : uint16 buf (s.idx + 2) = some (ofBE ((buf.drop (s.idx + 2)).take 2)) :=
    uint16_eq (by omega)
  unfold turn
  rw [htype, hlen]
  exact if_pos (Nat.lt_of_not_le hvalue)

/-! ## The loop -/

/-- The next attribute starts behind the header of this one. -/
theorem Attribute.le_next (a : Attribute) : a.start ≤ a.next := by
  unfold Attribute.next
  omega

/-- **One turn of the loop**: it ends with what it had, as there is no whole attribute left; it
panics at an attribute; or it goes on behind one. -/
theorem attributeLoop_succ (fuel : Nat) (s : ParseState) (stop : Nat) (hn : n ≤ buf.length) :
    (∃ s', attributeLoop buf n stop (fuel + 1) s = .finished s' ∧ s'.reads = s.reads ∧
        s'.found = s.found ∧ attributes buf n stop (fuel + 1) s.idx = []) ∨
      ∃ a, a.start + a.len ≤ n ∧ ((∃ s' as, attributeLoop buf n stop (fuel + 1) s = .panicked s' ∧
          attributes buf n stop (fuel + 1) s.idx = a :: as ∧ a.address buf = none) ∨
        ∃ s', attributeLoop buf n stop (fuel + 1) s = attributeLoop buf n stop fuel s' ∧
          attributes buf n stop (fuel + 1) s.idx = a :: attributes buf n stop fuel s'.idx ∧
          s.idx + 4 ≤ min n s'.idx ∧ a.Parsed buf s s') := by
  rw [attributeLoop, attributes]
  by_cases hcond : s.idx + 4 ≤ n ∧ s.idx < stop
  case neg =>
    rw [if_neg hcond, if_neg fun h => hcond ⟨h.1, h.2.1⟩]
    exact .inl ⟨s, rfl, rfl, rfl, rfl⟩
  rw [if_pos hcond]
  by_cases hvalue : (attributeAt buf s.idx).start + (attributeAt buf s.idx).len ≤ n
  case neg =>
    rw [turn_cut hn hcond.1 hvalue, if_neg fun h => hvalue h.2.2]
    exact .inl ⟨_, rfl, rfl, rfl, rfl⟩
  rw [if_pos ⟨hcond.1, hcond.2, hvalue⟩]
  refine .inr ⟨attributeAt buf s.idx, hvalue, ?_⟩
  obtain ⟨s', hturn, hnone⟩ | ⟨s', hturn, hparsed⟩ := turn_attribute hn hcond.1 hvalue
  · rw [hturn]
    exact .inl ⟨s', _, rfl, rfl, hnone⟩
  · have hmore : s.idx + 4 ≤ s'.idx := by
      rw [hparsed.idx]
      exact (attributeAt buf s.idx).le_next
    rw [hturn, ← hparsed.idx]
    exact .inr ⟨s', rfl, rfl, le_min hcond.1 hmore, hparsed⟩

/-- Bytes read where they should not be stay read. -/
theorem attributeLoop_reads (fuel : Nat) (s : ParseState) (hn : n ≤ buf.length)
    (hout : ¬ ∀ x ∈ s.reads, x.Inside n stop) :
    ¬ (attributeLoop buf n stop fuel s).InBounds n stop := by
  induction fuel generalizing s with
  | zero => exact id
  | succ fuel ih =>
      obtain ⟨s', hloop, hreads, -⟩ | ⟨a, -, ⟨s', as, hloop, -⟩ | ⟨s', hloop, -, -, hparsed⟩⟩ :=
        attributeLoop_succ fuel s stop hn
      · rw [hloop]
        show ¬ ∀ x ∈ s'.reads, x.Inside n stop
        rwa [hreads]
      · rw [hloop]
        exact id
      · rw [hloop]
        refine ih s' fun h => hout fun x hx => h x ?_
        rw [hparsed.reads]
        exact List.mem_append_left _ hx

/-- **Loop lemma.** With a turn for every four bytes the loop ends, and it stays in bounds exactly
if every attribute it comes to has room. -/
theorem attributeLoop_inBounds_iff (fuel : Nat) (s : ParseState) (hn : n ≤ buf.length)
    (hpos : 0 < fuel) (hfuel : n < s.idx + 4 * fuel) (hin : ∀ x ∈ s.reads, x.Inside n stop) :
    (attributeLoop buf n stop fuel s).InBounds n stop ↔
      ∀ a ∈ attributes buf n stop fuel s.idx, a.HasRoom buf stop := by
  induction fuel generalizing s with
  | zero => exact absurd hpos (Nat.lt_irrefl 0)
  | succ fuel ih =>
      obtain ⟨s', hloop, hreads, -, hnil⟩ | ⟨a, hvalue, ⟨s', as, hloop, hcons, hnone⟩ |
          ⟨s', hloop, hcons, hmore, hparsed⟩⟩ := attributeLoop_succ fuel s stop hn
      · rw [hloop, hnil]
        refine ⟨fun _ a ha => absurd ha List.not_mem_nil, fun _ => ?_⟩
        show ∀ x ∈ s'.reads, x.Inside n stop
        rwa [hreads]
      · rw [hloop, hcons]
        exact ⟨False.elim, fun h =>
          a.not_hasRoom (hvalue.trans hn) hnone (h a List.mem_cons_self)⟩
      · rw [hloop, hcons, List.forall_mem_cons]
        have hreads := hparsed.reads
        have hroom : (∀ x ∈ a.mappedReads buf, x.Inside n stop) ↔ a.HasRoom buf stop :=
          a.mappedReads_inside hvalue
        -- a byte read outside spoils the whole run, and its attribute had no room
        by_cases hnew : ∀ x ∈ a.mappedReads buf, x.Inside n stop
        case neg =>
          have hout : ¬ ∀ x ∈ s'.reads, x.Inside n stop := fun h => hnew fun x hx => h x (by
            rw [hreads]; exact List.mem_append_right _ hx)
          exact ⟨fun h => absurd h (attributeLoop_reads fuel s' hn hout),
            fun h => absurd (hroom.mpr h.1) hnew⟩
        have hin' : ∀ x ∈ s'.reads, x.Inside n stop := by
          rw [hreads]
          exact List.forall_mem_append.mpr ⟨hin, hnew⟩
        have hrest := ih s' (by omega) (by omega) hin'
        exact hrest.trans ⟨fun h => ⟨hroom.mp hnew, h⟩, fun h => h.2⟩

/-- With a turn for every four bytes the loop ends. -/
theorem attributeLoop_ends (fuel : Nat) (s : ParseState) (hn : n ≤ buf.length) (hpos : 0 < fuel)
    (hfuel : n < s.idx + 4 * fuel) (s' : ParseState) :
    attributeLoop buf n stop fuel s ≠ .running s' := by
  induction fuel generalizing s with
  | zero => exact absurd hpos (Nat.lt_irrefl 0)
  | succ fuel ih =>
      obtain ⟨s₁, hloop, -⟩ | ⟨a, -, ⟨s₁, as, hloop, -⟩ | ⟨s₁, hloop, -, hmore, -⟩⟩ :=
        attributeLoop_succ fuel s stop hn
      · rw [hloop]
        exact fun h => nomatch h
      · rw [hloop]
        exact fun h => nomatch h
      · rw [hloop]
        exact ih s₁ (by omega) (by omega)

/-! ## The response -/

/-- The received part of a datagram that gets as far as the attributes: it has a header, with the
cookie. -/
def IsResponse (datagram : Bytes) : Prop :=
  20 ≤ readLength datagram ∧ uint32 (readBuffer datagram) 4 = some stunMagicCookie

/-- Where the attributes end by the length in the header. -/
def declaredEnd (datagram : Bytes) : Nat := 20 + ofBE (((readBuffer datagram).drop 2).take 2)

/-- The attributes of a datagram that its loop comes to. -/
def responseAttributes (datagram : Bytes) : List Attribute :=
  attributes (readBuffer datagram) (readLength datagram) (declaredEnd datagram)
    (readLength datagram) 20

/-- The loop ends, nothing is evaluated outside the buffer, and each byte that is read as part of
a mapped address lies in the value of its attribute, in what was received and in the declared
length. -/
structure InBounds (localIP : String) (datagram : Bytes) : Prop where
  terminates : (discoverNAT localIP datagram).1 ≠ .running
  safe : (discoverNAT localIP datagram).1 ≠ .panic
  inside : ∀ x ∈ (discoverNAT localIP datagram).2,
    x.Inside (readLength datagram) (declaredEnd datagram)

theorem length_readBuffer (datagram : Bytes) : (readBuffer datagram).length = 512 := by
  rw [readBuffer, List.length_append, List.length_take, List.length_replicate]
  omega

theorem readLength_le (datagram : Bytes) : readLength datagram ≤ (readBuffer datagram).length := by
  rw [length_readBuffer]
  exact Nat.min_le_right _ _

/-- The end of the loop over the attributes of a datagram. -/
def responseLoop (datagram : Bytes) : LoopEnd :=
  attributeLoop (readBuffer datagram) (readLength datagram) (declaredEnd datagram)
    (readLength datagram) ⟨20, none, 0, []⟩

/-- Either the datagram is refused before the loop, or the outcome is that of the loop. -/
theorem discoverNAT_cases (localIP : String) (datagram : Bytes) :
    (¬ IsResponse datagram ∧ ∃ text, discoverNAT localIP datagram = (.error text, [])) ∨
      IsResponse datagram ∧ discoverNAT localIP datagram =
        match responseLoop datagram with
        | .finished s => (classify localIP s, s.reads)
        | .panicked s => (.panic, s.reads)
        | .running s => (.running, s.reads) := by
  have hlength := length_readBuffer datagram
  by_cases hshort : readLength datagram < 20
  · exact .inl ⟨fun h => absurd h.1 (by omega), _, if_pos hshort⟩
  obtain ⟨cookie, hcookie⟩ : ∃ cookie, uint32 (readBuffer datagram) 4 = some cookie :=
    ⟨_, by unfold uint32; rw [slice?_of_le (by omega) (by omega)]; rfl⟩
  have hdeclared : uint16 (readBuffer datagram) 2 =
      some (ofBE (((readBuffer datagram).drop 2).take 2)) := uint16_eq (by omega)
  by_cases hmagic : cookie = stunMagicCookie
  · refine .inr ⟨⟨by omega, by rw [hcookie, hmagic]⟩, ?_⟩
    simp only [discoverNAT, hcookie, hdeclared, if_neg hshort, hmagic, ne_eq, not_true, if_false]
    rfl
  · refine .inl ⟨fun h => hmagic (Option.some.inj (hcookie.symm.trans h.2)),
      "invalid STUN cookie in response: 0x" ++ hex cookie, ?_⟩
    simp only [discoverNAT, hcookie, hdeclared, if_neg hshort]
    exact if_pos hmagic

theorem classify_ne_running (localIP : String) (s : ParseState) :
    classify localIP s ≠ .running := by
  unfold classify
  split <;> exact fun h => nomatch h

theorem classify_ne_panic (localIP : String) (s : ParseState) :
    classify localIP s ≠ .panic := by
  unfold classify
  split <;> exact fun h => nomatch h

/-- The parser terminates, whatever it receives. -/
theorem discoverNAT_terminates (localIP : String) (datagram : Bytes) :
    (discoverNAT localIP datagram).1 ≠ .running := by
  obtain ⟨_, text, herror⟩ | ⟨hresponse, hloop⟩ := discoverNAT_cases localIP datagram
  · rw [herror]
    exact fun h => nomatch h
  · have hpos := hresponse.1
    cases hend : responseLoop datagram with
    | finished s =>
        rw [hloop, hend]
        exact classify_ne_running localIP s
    | panicked s =>
        rw [hloop, hend]
        exact fun h => nomatch h
    | running s =>
        exact absurd hend
          (attributeLoop_ends _ _ (readLength_le datagram) (by omega) (by dsimp only; omega) s)

/-- The parser stays in bounds exactly if each mapped address of the response has room for what is
read of it. -/
theorem discoverNAT_inBounds_iff (localIP : String) (datagram : Bytes) :
    InBounds localIP datagram ↔
      (IsResponse datagram → ∀ a ∈ responseAttributes datagram,
        a.HasRoom (readBuffer datagram) (declaredEnd datagram)) := by
  obtain ⟨hnot, text, herror⟩ | ⟨hresponse, hloop⟩ := discoverNAT_cases localIP datagram
  · refine ⟨fun _ h => absurd h hnot, fun _ => ⟨?_, ?_, ?_⟩⟩
    case refine_1 => rw [herror]; exact fun h => nomatch h
    case refine_2 => rw [herror]; exact fun h => nomatch h
    case refine_3 => rw [herror]; exact fun x hx => nomatch hx
  have hpos := hresponse.1
  have hends : (responseLoop datagram).InBounds (readLength datagram) (declaredEnd datagram) ↔ _ :=
    attributeLoop_inBounds_iff _ _ (readLength_le datagram) (by omega)
      (by dsimp only; omega) (fun x hx => nomatch hx)
  refine Iff.trans ?_ (hends.trans ⟨fun h _ => h, fun h => h hresponse⟩)
  cases hend : responseLoop datagram with
  | finished s =>
      rw [hend] at hloop
      constructor
      · intro h
        have hinside := h.inside
        rw [hloop] at hinside
        exact hinside
      · intro h
        constructor
        case terminates => exact discoverNAT_terminates localIP datagram
        case safe =>
          rw [hloop]
          exact classify_ne_panic localIP s
        case inside =>
          rw [hloop]
          exact h
  | panicked s =>
      rw [hend] at hloop
      exact ⟨fun h => h.safe (by rw [hloop]), False.elim⟩
  | running s =>
      rw [hend] at hloop
      exact ⟨fun h => h.terminates (by rw [hloop]), False.elim⟩

/-- A MAPPED-ADDRESS without a value as the last four bytes of a full datagram, behind an attribute
of another kind that fills it up to there: its family is read behind the buffer. -/
def emptyAddressResponse : Bytes :=
  [1, 1] ++ toBE 2 492 ++ toBE 4 stunMagicCookie ++ List.replicate 12 0 ++
    ([0x80, 0x22] ++ toBE 2 484 ++ List.replicate 484 0) ++ ([0, 1] ++ toBE 2 0)

theorem empty_address_panics :
    emptyAddressResponse.length = 512 ∧
      ¬ InBounds "192.168.1.10" emptyAddressResponse :=
  ⟨by decide +kernel, fun h => h.safe (by decide +kernel)⟩

end AetherBond.Control
