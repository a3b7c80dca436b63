import AetherBond.Control.StunMatching
import Mathlib.Data.Nat.Bitwise

set_option autoImplicit false

/-! # Decoding the mapped address

A `StunResponse` is a well-formed Binding Success Response over IPv4: any attributes in any
order, each with its padding. The loop comes to exactly its attributes (`attributes_encode`) and
takes the address of the last one that has any, whatever its kind. So the address is that of an
XOR-MAPPED-ADDRESS, where there is one, exactly if the last address of all is such
(`discoverNAT_decodes_iff`).
-/

namespace AetherBond.Control

open AetherBond.Lib

/-! ## Responses -/

/-- An IPv4 address and a port. -/
structure Endpoint where
  ip : Bytes
  port : Nat
  ip_length : ip.length = 4
  port_lt : port < 2 ^ 16
  deriving DecidableEq

/-- An attribute of another kind, with its padding. -/
structure UnknownAttribute where
  attrType : Nat
  value : Bytes
  padding : Bytes
  attrType_lt : attrType < 2 ^ 16
  unknown : attrType ≠ 0x0001 ∧ attrType ≠ 0x0020
  value_lt : value.length < 2 ^ 16
  padding_length : padding.length = (4 - value.length % 4) % 4
  deriving DecidableEq

/-- The first byte of a mapped address is reserved. -/
inductive StunAttribute
  | mappedAddress (reserved : UInt8) (e : Endpoint)
  | xorMappedAddress (reserved : UInt8) (e : Endpoint)
  | unknown (a : UnknownAttribute)
  deriving DecidableEq

namespace StunAttribute

def attrType : StunAttribute → Nat
  | mappedAddress _ _ => 0x0001
  | xorMappedAddress _ _ => 0x0020
  | unknown a => a.attrType

def value : StunAttribute → Bytes
  | mappedAddress reserved e => reserved :: 1 :: (toBE 2 e.port ++ e.ip)
  | xorMappedAddress reserved e =>
      reserved :: 1 :: (toBE 2 (e.port ^^^ (stunMagicCookie >>> 16)) ++
        toBE 4 (ofBE e.ip ^^^ stunMagicCookie))
  | unknown a => a.value

def padding : StunAttribute → Bytes
  | unknown a => a.padding
  | _ => []

def encode (a : StunAttribute) : Bytes :=
  toBE 2 a.attrType ++ (toBE 2 a.value.length ++ (a.value ++ a.padding))

/-- The address in it. -/
def endpoint? : StunAttribute → Option Endpoint
  | mappedAddress _ e | xorMappedAddress _ e => some e
  | unknown _ => none

def xorMapped? : StunAttribute → Option Endpoint
  | xorMappedAddress _ e => some e
  | _ => none

def mapped? : StunAttribute → Option Endpoint
  | mappedAddress _ e => some e
  | _ => none

end StunAttribute

def encodeAttributes (as : List StunAttribute) : Bytes := as.flatMap StunAttribute.encode

/-- A Binding Success Response of at most 512 bytes. -/
structure StunResponse where
  transactionId : TransactionId
  attributes : List StunAttribute
  fits : 20 + (encodeAttributes attributes).length ≤ 512

namespace StunResponse

def encode (r : StunResponse) : Bytes :=
  toBE 2 0x0101 ++ (toBE 2 (encodeAttributes r.attributes).length ++ (toBE 4 stunMagicCookie ++
    (r.transactionId.bytes ++ encodeAttributes r.attributes)))

/-- The addresses of all attributes, in order. -/
def addresses (r : StunResponse) : List Endpoint := r.attributes.filterMap StunAttribute.endpoint?

def xorMapped (r : StunResponse) : List Endpoint := r.attributes.filterMap StunAttribute.xorMapped?

def mapped (r : StunResponse) : List Endpoint := r.attributes.filterMap StunAttribute.mapped?

end StunResponse

/-- The outcome is a profile with this address and port. -/
def Outcome.Reports (e : Endpoint) (outcome : Outcome) : Prop :=
  ∃ natType, outcome = .profile ⟨ipString e.ip, e.port, natType⟩

/-- What is reported is the address of an XOR-MAPPED-ADDRESS, if there is one, or else that of a
MAPPED-ADDRESS, or else an error. -/
structure Decodes (localIP : String) (r : StunResponse) : Prop where
  xorMapped : r.xorMapped ≠ [] → ∃ e ∈ r.xorMapped, (discoverNAT localIP r.encode).1.Reports e
  mapped : r.xorMapped = [] → r.mapped ≠ [] →
    ∃ e ∈ r.mapped, (discoverNAT localIP r.encode).1.Reports e
  error : r.xorMapped = [] → r.mapped = [] →
    ∃ text, (discoverNAT localIP r.encode).1 = .error text

/-! ## One attribute -/

variable {buf rest : Bytes} {n idx : Nat} {a : StunAttribute}

theorem xor_lt {port : Nat} (h : port < 2 ^ 16) :
    port ^^^ (stunMagicCookie >>> 16) < 2 ^ 16 :=
  Nat.xor_lt_two_pow h (by decide)

theorem length_value_lt (a : StunAttribute) : a.value.length < 2 ^ 16 := by
  cases a with
  | mappedAddress reserved e => simp [StunAttribute.value, e.ip_length]
  | xorMappedAddress reserved e => simp [StunAttribute.value]
  | unknown a => exact a.value_lt

theorem attrType_lt (a : StunAttribute) : a.attrType < 2 ^ 16 := by
  cases a with
  | mappedAddress | xorMappedAddress => simp [StunAttribute.attrType]
  | unknown a => exact a.attrType_lt

theorem length_padding (a : StunAttribute) :
    a.padding.length = (4 - a.value.length % 4) % 4 := by
  cases a with
  | mappedAddress reserved e => simp [StunAttribute.padding, StunAttribute.value, e.ip_length]
  | xorMappedAddress reserved e => simp [StunAttribute.padding, StunAttribute.value]
  | unknown a => exact a.padding_length

theorem length_encode (a : StunAttribute) :
    a.encode.length = 4 + a.value.length + (4 - a.value.length % 4) % 4 := by
  simp only [StunAttribute.encode, List.length_append, length_toBE, length_padding]
  omega

/-- The header and the value of an attribute that is in the buffer at `idx`. -/
theorem attributeAt_encode (h : buf.drop idx = a.encode ++ rest) :
    attributeAt buf idx = ⟨a.attrType, idx + 4, a.value.length⟩ := by
  have htype : (buf.drop idx).take 2 = toBE 2 a.attrType := by
    rw [h, StunAttribute.encode, List.append_assoc, List.take_left' (length_toBE ..)]
  have hlen : (buf.drop (idx + 2)).take 2 = toBE 2 a.value.length := by
    rw [← List.drop_drop, h, StunAttribute.encode, List.append_assoc,
      List.drop_left' (length_toBE ..), List.append_assoc, List.take_left' (length_toBE ..)]
  unfold attributeAt
  rw [htype, hlen, ofBE_toBE_of_lt (attrType_lt a), ofBE_toBE_of_lt (length_value_lt a)]

theorem drop_value (h : buf.drop idx = a.encode ++ rest) :
    buf.drop (idx + 4) = a.value ++ (a.padding ++ rest) := by
  have hheader : (toBE 2 a.attrType ++ toBE 2 a.value.length).length = 4 := by simp
  rw [← List.drop_drop, h, StunAttribute.encode, ← List.append_assoc (toBE 2 a.attrType),
    List.append_assoc, List.drop_left' hheader, List.append_assoc]

/-- The eight bytes of an address, XORed or not. -/
theorem mappedAddress_value (xor : Bool) {reserved : UInt8} {port : Nat} {ip : Bytes}
    (hport : port < 2 ^ 16) (hip : ip.length = 4)
    (h : buf.drop idx = reserved :: 1 :: (toBE 2 port ++ ip) ++ rest) :
    mappedAddress buf xor idx = some (some
      (if xor then (port ^^^ (stunMagicCookie >>> 16), toBE 4 (ofBE ip ^^^ stunMagicCookie))
      else (port, ip))) := by
  have hlength : idx + 8 ≤ buf.length := by
    have hdrop := congrArg List.length h
    simp only [List.length_drop, List.length_append, List.length_cons, length_toBE, hip] at hdrop
    omega
  have hfamily : buf[idx + 1]? = some 1 := by
    rw [← List.getElem?_drop, h]
    rfl
  have hportField : uint16 buf (idx + 2) = some port := by
    rw [uint16_eq (by omega), ← List.drop_drop, h]
    show some (ofBE (((toBE 2 port ++ ip) ++ rest).take 2)) = some port
    rw [List.append_assoc, List.take_left' (length_toBE ..), ofBE_toBE_of_lt hport]
  have hipField : slice? buf (idx + 4) (idx + 8) = some ip := by
    rw [slice?_of_le (by omega) hlength, ← List.drop_drop, h,
      show idx + 8 - (idx + 4) = 4 by omega]
    show some ((((toBE 2 port ++ ip) ++ rest).drop 2).take 4) = some ip
    rw [List.append_assoc, List.drop_left' (length_toBE ..), List.take_left' hip]
  unfold mappedAddress
  rw [hfamily, hportField, hipField]
  cases xor <;> rfl

/-- What the loop takes from an attribute is the address in it. -/
theorem address_encode (h : buf.drop idx = a.encode ++ rest) :
    (attributeAt buf idx).address buf = some (a.endpoint?.map fun e => (e.port, e.ip)) := by
  have hvalue := drop_value h
  rw [attributeAt_encode h]
  cases a with
  | mappedAddress reserved e =>
      exact mappedAddress_value false e.port_lt e.ip_length hvalue
  | xorMappedAddress reserved e =>
      have hxor : ofBE e.ip ^^^ stunMagicCookie < 256 ^ 4 := by
        have hip := ofBE_lt e.ip
        rw [e.ip_length] at hip
        exact Nat.xor_lt_two_pow (n := 32) hip (by decide)
      have hip :
          toBE 4 (ofBE (toBE 4 (ofBE e.ip ^^^ stunMagicCookie)) ^^^ stunMagicCookie) = e.ip := by
        rw [ofBE_toBE_of_lt hxor, Nat.xor_xor_cancel_right, ← e.ip_length, toBE_ofBE]
      have hport : e.port ^^^ (stunMagicCookie >>> 16) ^^^ (stunMagicCookie >>> 16) = e.port :=
        Nat.xor_xor_cancel_right ..
      have hread := mappedAddress_value true (xor_lt e.port_lt) (length_toBE ..) hvalue
      rw [if_pos rfl, hip, hport] at hread
      exact hread
  | unknown a =>
      exact if_neg (not_or.mpr a.unknown)

/-! ## The whole response -/

/-- The loop comes to the attributes of the response, and takes the addresses in them. -/
theorem attributes_encode (as : List StunAttribute) (fuel idx : Nat)
    (h : buf.drop idx = encodeAttributes as ++ rest)
    (hn : n = idx + (encodeAttributes as).length) (hfuel : n < idx + 4 * fuel) :
    (attributes buf n n fuel idx).map (Attribute.address buf) =
      as.map fun a => some (a.endpoint?.map fun e => (e.port, e.ip)) := by
  induction as generalizing fuel idx with
  | nil =>
      have hend : n = idx := hn
      cases fuel with
      | zero => rfl
      | succ fuel =>
          rw [attributes, if_neg (by omega)]
          rfl
  | cons a as ih =>
      have hsplit : encodeAttributes (a :: as) = a.encode ++ encodeAttributes as :=
        List.flatMap_cons
      rw [hsplit, List.append_assoc] at h
      rw [hsplit, List.length_append, length_encode] at hn
      cases fuel with
      | zero => omega
      | succ fuel =>
          have hat := attributeAt_encode h
          have hnext : (attributeAt buf idx).next = idx + a.encode.length := by
            rw [hat, length_encode]
            show idx + 4 + a.value.length + (4 - a.value.length % 4) % 4 = _
            omega
          have hrest : buf.drop (idx + a.encode.length) = encodeAttributes as ++ rest := by
            rw [← List.drop_drop, h, List.drop_left]
          have hwhole : idx + 4 ≤ n ∧ idx < n ∧
              (attributeAt buf idx).start + (attributeAt buf idx).len ≤ n := by
            rw [hat]
            dsimp only
            omega
          have hlength := length_encode a
          rw [attributes, if_pos hwhole, hnext, List.map_cons, List.map_cons, address_encode h,
            ih fuel _ hrest (by omega) (by omega)]

variable (r : StunResponse)

theorem length_response :
    r.encode.length = 20 + (encodeAttributes r.attributes).length := by
  simp only [StunResponse.encode, List.length_append, length_toBE, r.transactionId.length_eq]
  omega

theorem readBuffer_response :
    ∃ rest, readBuffer r.encode = r.encode ++ rest := by
  have hfits := r.fits
  have hlength := length_response r
  exact ⟨_, congrArg (· ++ _) (List.take_of_length_le (by omega))⟩

theorem readLength_response : readLength r.encode = r.encode.length :=
  Nat.min_eq_left (by rw [length_response]; exact r.fits)

/-- The response has a header that `DiscoverNAT` accepts, with the length of its attributes. -/
theorem isResponse_encode : IsResponse r.encode ∧ declaredEnd r.encode = r.encode.length := by
  obtain ⟨rest, hbuf⟩ := readBuffer_response r
  have hlength := length_response r
  have hfits := r.fits
  have htail : (readBuffer r.encode).drop 2 = toBE 2 (encodeAttributes r.attributes).length ++
      (toBE 4 stunMagicCookie ++ (r.transactionId.bytes ++ encodeAttributes r.attributes) ++
        rest) := by
    rw [hbuf, StunResponse.encode, List.append_assoc, List.drop_left' (length_toBE ..),
      List.append_assoc]
  have hcookie : uint32 (readBuffer r.encode) 4 = some stunMagicCookie := by
    unfold uint32
    rw [slice?_of_le (by omega) (by rw [length_readBuffer]; omega),
      show (readBuffer r.encode).drop 4 = ((readBuffer r.encode).drop 2).drop 2 by
        rw [List.drop_drop],
      htail, List.drop_left' (length_toBE ..), List.append_assoc, Option.map_some]
    rw [List.take_left' (by rw [length_toBE]), ofBE_toBE_of_lt (by decide)]
  refine ⟨⟨?_, hcookie⟩, ?_⟩
  · rw [readLength_response]
    omega
  · unfold declaredEnd
    rw [htail, List.take_left' (length_toBE ..), ofBE_toBE_of_lt (by omega)]
    omega

/-- What the loop takes from the response, in order. -/
theorem responseAttributes_encode :
    (responseAttributes r.encode).map (Attribute.address (readBuffer r.encode)) =
      r.attributes.map fun a => some (a.endpoint?.map fun e => (e.port, e.ip)) := by
  obtain ⟨rest, hbuf⟩ := readBuffer_response r
  have hlength := length_response r
  unfold responseAttributes
  rw [(isResponse_encode r).2, readLength_response]
  have hheader : (toBE 2 0x0101 ++ (toBE 2 (encodeAttributes r.attributes).length ++
      (toBE 4 stunMagicCookie ++ r.transactionId.bytes))).length = 20 := by
    simp [r.transactionId.length_eq]
  have hencode : r.encode = (toBE 2 0x0101 ++ (toBE 2 (encodeAttributes r.attributes).length ++
      (toBE 4 stunMagicCookie ++ r.transactionId.bytes))) ++ encodeAttributes r.attributes := by
    simp only [StunResponse.encode, List.append_assoc]
  have hdrop : (readBuffer r.encode).drop 20 = encodeAttributes r.attributes ++ rest := by
    rw [hbuf, hencode, List.append_assoc, List.drop_left' hheader]
  exact attributes_encode r.attributes _ 20 hdrop hlength (by omega)

/-- The last of the addresses is what is found. -/
theorem lastFound_of_map {as : List Attribute} {before : Option (Nat × Bytes)}
    (sas : List StunAttribute)
    (h : as.map (Attribute.address buf) =
      sas.map fun a => some (a.endpoint?.map fun e => (e.port, e.ip))) :
    lastFound buf before as =
      ((sas.filterMap StunAttribute.endpoint?).getLast?.map fun e => (e.port, e.ip)).or before := by
  induction sas generalizing as before with
  | nil =>
      obtain rfl : as = [] := List.map_eq_nil_iff.mp h
      rfl
  | cons sa sas ih =>
      obtain ⟨a, as, rfl, ha, has⟩ := List.map_eq_cons_iff.mp h
      have hstep : lastFound buf before (a :: as) =
          lastFound buf ((sa.endpoint?.map fun e => (e.port, e.ip)).or before) as := by
        rw [lastFound, List.foldl_cons, ha]
        rfl
      rw [hstep, ih has, List.filterMap_cons]
      cases sa.endpoint? with
      | none => rfl
      | some e =>
          -- an address behind it takes its place
          rw [List.getLast?_cons]
          cases (sas.filterMap StunAttribute.endpoint?).getLast? <;> rfl

/-- **The outcome for a well-formed response** is the last of its addresses, or an error if it has
none. -/
theorem discoverNAT_encode (localIP : String) :
    (∃ e ∈ r.addresses.getLast?, (discoverNAT localIP r.encode).1.Reports e) ∨
      r.addresses = [] ∧ ∃ text, (discoverNAT localIP r.encode).1 = .error text := by
  obtain ⟨hnot, -⟩ | ⟨hresponse, hloop⟩ := discoverNAT_cases localIP r.encode
  · exact absurd (isResponse_encode r).1 hnot
  have hmap := responseAttributes_encode r
  obtain ⟨s', -, a, ha, hnone⟩ | ⟨s', hend, -, hfound⟩ := responseLoop_found hresponse
  · -- each attribute can be read
    have hmem : a.address (readBuffer r.encode) ∈
        (responseAttributes r.encode).map (Attribute.address (readBuffer r.encode)) :=
      List.mem_map_of_mem ha
    rw [hmap, hnone] at hmem
    obtain ⟨sa, -, hsome⟩ := List.mem_map.mp hmem
    cases hsome
  · have hlast : s'.found = r.addresses.getLast?.map fun e => (e.port, e.ip) := by
      rw [hfound, lastFound_of_map _ hmap]
      exact Option.or_none
    rw [hloop, hend]
    cases hcase : r.addresses.getLast? with
    | none =>
        refine .inr ⟨List.getLast?_eq_none_iff.mp hcase, ?_⟩
        rw [hcase] at hlast
        exact (classify_error_iff localIP s').mpr (Option.map_eq_none_iff.mp hlast)
    | some e =>
        refine .inl ⟨e, rfl, ?_⟩
        rw [hcase] at hlast
        obtain ⟨ip, hip, heq⟩ := Option.map_eq_some_iff.mp hlast
        obtain ⟨hport, rfl⟩ := Prod.mk.inj heq
        show Outcome.Reports e (classify localIP s')
        unfold classify
        rw [hip, hport]
        exact ⟨_, rfl⟩

/-! ## The addresses -/

/-- A profile tells its address and port. -/
theorem Outcome.Reports.inj {e e' : Endpoint} {outcome : Outcome} (h : outcome.Reports e)
    (h' : outcome.Reports e') : e = e' := by
  obtain ⟨natType, rfl⟩ := h
  obtain ⟨natType', heq⟩ := h'
  obtain ⟨hip, hport, -⟩ := NatProfile.mk.inj (Outcome.profile.inj heq)
  have hne : ∀ e : Endpoint, e.ip ≠ [] := fun e hnil => by
    have hlength := e.ip_length
    rw [hnil] at hlength
    cases hlength
  have hips := ipString_inj (hne e) (hne e') hip
  obtain ⟨ip, port, _, _⟩ := e
  obtain ⟨ip', port', _, _⟩ := e'
  obtain rfl : ip = ip' := hips
  obtain rfl : port = port' := hport
  rfl

/-- Each address is of one kind or the other. -/
theorem mem_addresses {e : Endpoint} : e ∈ r.addresses ↔ e ∈ r.xorMapped ∨ e ∈ r.mapped := by
  unfold StunResponse.addresses StunResponse.xorMapped StunResponse.mapped
  rw [List.mem_filterMap, List.mem_filterMap, List.mem_filterMap, ← exists_or]
  refine exists_congr fun a => ?_
  rw [← and_or_left]
  refine and_congr_right fun _ => ?_
  cases a <;> simp [StunAttribute.endpoint?, StunAttribute.xorMapped?, StunAttribute.mapped?]

/-- **The address is decoded exactly if no MAPPED-ADDRESS with another one stands behind the last
XOR-MAPPED-ADDRESS**: for every well-formed response, what is reported is as it should be if and
only if the last of its addresses is that of an XOR-MAPPED-ADDRESS, where there is one. -/
theorem discoverNAT_decodes_iff (localIP : String) (r : StunResponse) :
    Decodes localIP r ↔
      (r.xorMapped ≠ [] → ∃ e ∈ r.addresses.getLast?, e ∈ r.xorMapped) := by
  constructor
  · intro h hxor
    obtain ⟨e, he, hreports⟩ := h.xorMapped hxor
    obtain ⟨e', he', hreports'⟩ | ⟨hnone, -⟩ := discoverNAT_encode r localIP
    · obtain rfl := hreports.inj hreports'
      exact ⟨e, he', he⟩
    · have hmem : e ∈ r.addresses := (mem_addresses r).mpr (.inl he)
      rw [hnone] at hmem
      cases hmem
  · intro h
    obtain ⟨e, he, hreports⟩ | ⟨hnone, herror⟩ := discoverNAT_encode r localIP
    · have hmem := (mem_addresses r).mp (List.mem_of_getLast? he)
      constructor
      case xorMapped =>
        intro hxor
        obtain ⟨e', he', hin⟩ := h hxor
        obtain rfl : e = e' := Option.some.inj (he.symm.trans he')
        exact ⟨e, hin, hreports⟩
      case mapped =>
        intro hxor _
        rw [hxor] at hmem
        exact ⟨e, hmem.resolve_left List.not_mem_nil, hreports⟩
      case error =>
        intro hxor hmapped
        rw [hxor, hmapped] at hmem
        simp at hmem
    · have hempty : ∀ e, ¬ (e ∈ r.xorMapped ∨ e ∈ r.mapped) := fun e he => by
        have hmem := (mem_addresses r).mpr he
        rw [hnone] at hmem
        cases hmem
      have hxor : r.xorMapped = [] :=
        List.eq_nil_iff_forall_not_mem.mpr fun e he => hempty e (.inl he)
      have hmapped : r.mapped = [] :=
        List.eq_nil_iff_forall_not_mem.mpr fun e he => hempty e (.inr he)
      exact ⟨fun hne => absurd hxor hne, fun _ hne => absurd hmapped hne, fun _ _ => herror⟩

/-- Behind the XORed address stands the address of a gateway that has rewritten the plain one. -/
def rewrittenResponse : StunResponse where
  transactionId := ⟨List.replicate 12 7, rfl⟩
  attributes :=
    [.xorMappedAddress 0 ⟨[203, 0, 113, 5], 40000, rfl, by decide⟩,
      .mappedAddress 0 ⟨[10, 0, 0, 1], 1024, rfl, by decide⟩]
  fits := by decide

/-- It is the rewritten address that is reported. -/
theorem rewritten_address_reported :
    (discoverNAT "192.168.1.10" rewrittenResponse.encode).1 =
        .profile ⟨"10.0.0.1", 1024, "NAT (Symmetric/Cone)"⟩ ∧
      ¬ Decodes "192.168.1.10" rewrittenResponse := by
  have hprofile : (discoverNAT "192.168.1.10" rewrittenResponse.encode).1 =
      .profile ⟨"10.0.0.1", 1024, "NAT (Symmetric/Cone)"⟩ := by decide +kernel
  refine ⟨hprofile, fun h => ?_⟩
  obtain ⟨e, he, natType, hreports⟩ := h.xorMapped (by decide)
  obtain rfl : e = ⟨[203, 0, 113, 5], 40000, rfl, by decide⟩ := List.mem_singleton.mp he
  have hport := (NatProfile.mk.inj (Outcome.profile.inj (hprofile.symm.trans hreports))).2.1
  exact absurd hport (by decide)

end AetherBond.Control
