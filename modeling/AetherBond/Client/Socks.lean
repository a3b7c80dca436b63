import AetherBond.Lib.Utf8

set_option autoImplicit false

/-! # The SOCKS5 request

The part of `_handle_local_client` of `aetherbond/client/vpn.py` before the session is
registered: the handshake and the request of the local application. `handshake` reads
everything the application ever sends, and returns what was written back with how it ended.
A `readexactly` that meets the end of the stream raises.

The handler accepts an IPv4 address or any domain that is UTF-8, the empty one included
(`accepted_nil_iff`).
-/

namespace AetherBond.Client

open AetherBond.Lib

/-- How the handler leaves the handshake. -/
inductive SocksResult
  /-- The session is registered; `rest` is what the application sent after its request. -/
  | accepted (dstAddr : List Char) (dstPort : Nat) (rest : Bytes)
  /-- The writer is closed by a `return`. -/
  | refused
  /-- `IncompleteReadError` or `UnicodeDecodeError`. -/
  | raised
  deriving DecidableEq

/-- `struct.pack("!BBBB4sH", 5, code, 0, 1, b"\x00\x00\x00\x00", 0)`. -/
def socksReply (code : UInt8) : Bytes := [5, code, 0, 1, 0, 0, 0, 0, 0, 0]

/-- The decimal digits of a byte. -/
def octet (b : UInt8) : List Char := (Nat.repr b.toNat).toList

/-- `socket.inet_ntoa`. -/
def inetNtoa (a b c d : UInt8) : List Char :=
  octet a ++ '.' :: (octet b ++ '.' :: (octet c ++ '.' :: octet d))

/-- The port and the end of the request. -/
def requestPort (dstAddr : List Char) : Bytes → SocksResult
  | high :: low :: rest => .accepted dstAddr (ofBE [high, low]) rest
  | _ => .raised

/-- The address of a request with the given type. -/
def requestAddr (atyp : UInt8) (stream : Bytes) : SocksResult :=
  if atyp = 1 then
    match stream with
    | a :: b :: c :: d :: stream => requestPort (inetNtoa a b c d) stream
    | _ => .raised
  else if atyp = 3 then
    match stream with
    | length :: stream =>
        if stream.length < length.toNat then .raised
        else
          match decode (stream.take length.toNat) with
          | none => .raised
          | some dstAddr => requestPort dstAddr (stream.drop length.toNat)
    | [] => .raised
  else .refused

/-- The request: what is written back, and how it ends. -/
def connectRequest : Bytes → Bytes × SocksResult
  -- the version is not checked again, and the reserved byte is not looked at
  | _version :: cmd :: _rsv :: atyp :: stream =>
      if cmd ≠ 1 then (socksReply 7, .refused)
      else
        match requestAddr atyp stream with
        | .accepted dstAddr dstPort rest => (socksReply 0, .accepted dstAddr dstPort rest)
        | .refused => (socksReply 8, .refused)
        | .raised => ([], .raised)
  | _ => ([], .raised)

/-- The greeting and the request. -/
def handshake : Bytes → Bytes × SocksResult
  | version :: nmethods :: stream =>
      if version ≠ 5 then ([], .refused)
      else if stream.length < nmethods.toNat then ([], .raised)
      else
        -- no authentication, whatever the methods
        let (replies, result) := connectRequest (stream.drop nmethods.toNat)
        ([5, 0] ++ replies, result)
  | _ => ([], .raised)

/-! ## The destination of an accepted request -/

/-- A request for a domain of length zero. -/
def NamesNoHost : Bytes → Prop
  | _ :: nmethods :: stream =>
      (stream.drop nmethods.toNat)[3]? = some 3 ∧ (stream.drop nmethods.toNat)[4]? = some 0
  | _ => False

instance : ∀ socks : Bytes, Decidable (NamesNoHost socks)
  | _ :: _ :: _ => inferInstanceAs (Decidable (_ ∧ _))
  | [] => isFalse id
  | [_] => isFalse id

variable {socks stream rest : Bytes} {dstAddr host : List Char} {dstPort : Nat} {atyp : UInt8}

theorem inetNtoa_ne_nil (a b c d : UInt8) : inetNtoa a b c d ≠ [] := by
  unfold inetNtoa
  simp

/-- The port fits its field. -/
theorem requestPort_accepted (h : requestPort host stream = .accepted dstAddr dstPort rest) :
    dstAddr = host ∧ dstPort < 2 ^ 16 := by
  unfold requestPort at h
  split at h
  · next high low _ =>
      cases h
      have hport : ofBE [high, low] < 256 ^ 2 := ofBE_lt [high, low]
      exact ⟨rfl, hport.trans_eq (by decide)⟩
  · cases h

/-- The destination is empty exactly if the length of the domain is zero. -/
theorem requestAddr_accepted (h : requestAddr atyp stream = .accepted dstAddr dstPort rest) :
    (dstAddr = [] ↔ atyp = 3 ∧ stream[0]? = some 0) ∧ dstPort < 2 ^ 16 := by
  unfold requestAddr at h
  split at h
  · next hatyp =>
      split at h
      · next a b c d _ =>
          obtain ⟨rfl, hport⟩ := requestPort_accepted h
          refine ⟨⟨fun hnil => absurd hnil (inetNtoa_ne_nil a b c d), fun hdom => ?_⟩, hport⟩
          rw [hatyp] at hdom
          exact absurd hdom.1 (by decide)
      · cases h
  · split at h
    · next hatyp =>
        split at h
        · next length stream =>
            split at h
            · cases h
            · next hlen =>
                split at h
                · cases h
                · next domain hdecode =>
                    obtain ⟨rfl, hport⟩ := requestPort_accepted h
                    refine ⟨⟨?_, ?_⟩, hport⟩
                    · rintro rfl
                      have htake := congrArg List.length (decode_eq_nil hdecode)
                      rw [List.length_take, List.length_nil] at htake
                      have hzero : length.toNat = 0 := by omega
                      exact ⟨hatyp, congrArg some (UInt8.toNat.inj hzero)⟩
                    · rintro ⟨-, hzero⟩
                      obtain rfl : length = 0 := Option.some.inj hzero
                      exact (Option.some.inj hdecode).symm
        · cases h
    · cases h

/-- **An accepted destination is empty exactly if the request names no host**, and its port fits
the two bytes of a frame. -/
theorem handshake_accepted (h : (handshake socks).2 = .accepted dstAddr dstPort rest) :
    (dstAddr = [] ↔ NamesNoHost socks) ∧ dstPort < 2 ^ 16 := by
  unfold handshake at h
  split at h
  · next version nmethods stream =>
      split_ifs at h
      unfold NamesNoHost
      dsimp only at h ⊢
      unfold connectRequest at h
      split at h
      · next cmd _ atyp request hrequest =>
          rw [hrequest]
          split_ifs at h
          split at h
          · next haddr =>
              cases h
              obtain ⟨hnil, hport⟩ := requestAddr_accepted haddr
              refine ⟨hnil.trans (and_congr_left' ?_), hport⟩
              exact Option.some_inj.symm
          · cases h
          · cases h
      · cases h
  · cases h

end AetherBond.Client
