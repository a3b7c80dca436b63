import AetherBond.Client.Socks

set_option autoImplicit false

/-! # The SOCKS5 front end of the proxy

`_handle_client` of `aetherbond/client/proxy.py` up to its connection step: the greeting and the
request, read with `readexactly` from what the application sends. What is written back and how it
ends is the same as in the tunnel client, whose `handshake` is written on its own
(`handleClient_agrees`), and both read back what a request encodes (`frontEnds_agree`).
-/

namespace AetherBond.Client

open AetherBond.Lib

/-! ## The source -/

/-- `reader.readexactly(n)`: the bytes and what is left, or an `IncompleteReadError`. -/
def readexactly (reader : Bytes) (n : Nat) : Option (Bytes × Bytes) :=
  if n ≤ reader.length then some (reader.take n, reader.drop n) else none

namespace Socks5Proxy

/-- How `_handle_client` leaves the part before the connection step. -/
inductive RequestEnd
  | connects (dstAddr : List Char) (dstPort : Nat) (reader : Bytes)
  /-- `return`, after `writer.close()`. -/
  | returns
  /-- `IncompleteReadError` or `UnicodeDecodeError`. -/
  | raises
  deriving DecidableEq

/-- How reading the destination address ends. -/
inductive DstAddr
  | read (dstAddr : List Char) (reader : Bytes)
  | unsupported
  | raises
  deriving DecidableEq

/-- `_send_reply`. -/
def sendReply (status : UInt8) : Bytes := [5, status, 0, 1] ++ [0, 0, 0, 0] ++ toBE 2 0

/-- The destination address. -/
def readDstAddr (atyp : UInt8) (reader : Bytes) : DstAddr :=
  if atyp = 1 then
    match readexactly reader 4 with
    | some ([a, b, c, d], reader) => .read (inetNtoa a b c d) reader
    | _ => .raises
  else if atyp = 3 then
    match readexactly reader 1 with
    | some ([domainLength], reader) =>
        match readexactly reader domainLength.toNat with
        | some (domainBytes, reader) =>
            match decode domainBytes with
            | some dstAddr => .read dstAddr reader
            | none => .raises
        | none => .raises
    | _ => .raises
  -- IPv6 has a branch of its own, which does the same
  else .unsupported

/-- The destination address and port. -/
def readDestination (atyp : UInt8) (reader : Bytes) : Bytes × RequestEnd :=
  match readDstAddr atyp reader with
  | .unsupported => (sendReply 8, .returns)
  | .raises => ([], .raises)
  | .read dstAddr reader =>
      match readexactly reader 2 with
      | some (portBytes, reader) => ([], .connects dstAddr (ofBE portBytes) reader)
      | none => ([], .raises)

/-- The request. -/
def readRequest (reader : Bytes) : Bytes × RequestEnd :=
  match readexactly reader 4 with
  | some ([_version, cmd, _rsv, atyp], reader) =>
      if cmd ≠ 1 then (sendReply 7, .returns) else readDestination atyp reader
  | _ => ([], .raises)

/-- `_handle_client` up to the connection step, with what it has written. -/
def readHandshake (reader : Bytes) : Bytes × RequestEnd :=
  match readexactly reader 2 with
  | some ([version, nmethods], reader) =>
      if version ≠ 5 then ([], .returns)
      else
        match readexactly reader nmethods.toNat with
        | some (_methods, reader) =>
            let (written, result) := readRequest reader
            ([5, 0] ++ written, result)
        | none => ([], .raises)
  | _ => ([], .raises)

/-! ## Reading exactly -/

variable {reader rest : Bytes} {n : Nat}

theorem readexactly_append (bs rest : Bytes) :
    readexactly (bs ++ rest) bs.length = some (bs, rest) := by
  unfold readexactly
  rw [if_pos (by simp), List.take_left, List.drop_left]

theorem readexactly_none (h : reader.length < n) : readexactly reader n = none :=
  if_neg (Nat.not_le.mpr h)

/-- A number of bytes that is written out. -/
theorem readexactly_of_append {bs : Bytes} (h : bs.length = n) :
    readexactly (bs ++ rest) n = some (bs, rest) := h ▸ readexactly_append bs rest

/-! ## The two front ends -/

/-- The outcomes of the two are the same: both connect to the same destination, with the same
bytes left, or neither gets so far, and they have written the same. -/
def Agree (proxy : Bytes × RequestEnd) (vpn : Bytes × SocksResult) : Prop :=
  (∃ dstAddr dstPort rest, proxy.2 = .connects dstAddr dstPort rest ∧
      vpn.2 = .accepted dstAddr dstPort rest) ∨
    ((∀ dstAddr dstPort rest, proxy.2 ≠ .connects dstAddr dstPort rest) ∧
      (∀ dstAddr dstPort rest, vpn.2 ≠ .accepted dstAddr dstPort rest) ∧ proxy.1 = vpn.1)

theorem agree_returns (written : Bytes) : Agree (written, .returns) (written, .refused) :=
  .inr ⟨fun _ _ _ h => (nomatch h), fun _ _ _ h => (nomatch h), rfl⟩

theorem agree_raises (written : Bytes) : Agree (written, .raises) (written, .raised) :=
  .inr ⟨fun _ _ _ h => (nomatch h), fun _ _ _ h => (nomatch h), rfl⟩

theorem agree_connects (dstAddr : List Char) (dstPort : Nat) (rest written written' : Bytes) :
    Agree (written, .connects dstAddr dstPort rest) (written', .accepted dstAddr dstPort rest) :=
  .inl ⟨dstAddr, dstPort, rest, rfl, rfl⟩

/-- What is written before does not matter. -/
theorem Agree.append {proxy : Bytes × RequestEnd} {vpn : Bytes × SocksResult} (h : Agree proxy vpn)
    (before : Bytes) : Agree (before ++ proxy.1, proxy.2) (before ++ vpn.1, vpn.2) := by
  obtain ⟨dstAddr, dstPort, rest, hproxy, hvpn⟩ | ⟨hproxy, hvpn, hwritten⟩ := h
  · exact .inl ⟨dstAddr, dstPort, rest, hproxy, hvpn⟩
  · exact .inr ⟨hproxy, hvpn, congrArg (before ++ ·) hwritten⟩

/-- The address and port in the tunnel client, as `readDestination` has them. -/
def tunnelDestination (atyp : UInt8) (stream : Bytes) : Bytes × SocksResult :=
  match requestAddr atyp stream with
  | .accepted dstAddr dstPort rest => (socksReply 0, .accepted dstAddr dstPort rest)
  | .refused => (socksReply 8, .refused)
  | .raised => ([], .raised)

/-- The port. -/
theorem port_agrees (dstAddr : List Char) (reader : Bytes) :
    Agree
      (match readexactly reader 2 with
        | some (portBytes, reader) => ([], .connects dstAddr (ofBE portBytes) reader)
        | none => ([], .raises))
      (match requestPort dstAddr reader with
        | .accepted dstAddr dstPort rest => (socksReply 0, .accepted dstAddr dstPort rest)
        | .refused => (socksReply 8, .refused)
        | .raised => ([], .raised)) := by
  match reader with
  | [] | [_] => exact agree_raises []
  | high :: low :: rest =>
      have hread : readexactly (high :: low :: rest) 2 = some ([high, low], rest) :=
        readexactly_append [high, low] rest
      rw [hread]
      exact agree_connects ..

theorem destination_agrees (atyp : UInt8) (reader : Bytes) :
    Agree (readDestination atyp reader) (tunnelDestination atyp reader) := by
  unfold readDestination tunnelDestination readDstAddr requestAddr
  by_cases hipv4 : atyp = 1
  · rw [if_pos hipv4, if_pos hipv4]
    match reader with
    | [] | [_] | [_, _] | [_, _, _] => exact agree_raises []
    | a :: b :: c :: d :: rest =>
        have hread : readexactly (a :: b :: c :: d :: rest) 4 = some ([a, b, c, d], rest) :=
          readexactly_append [a, b, c, d] rest
        rw [hread]
        exact port_agrees ..
  rw [if_neg hipv4, if_neg hipv4]
  by_cases hdomain : atyp = 3
  case neg =>
    rw [if_neg hdomain, if_neg hdomain]
    exact agree_returns _
  rw [if_pos hdomain, if_pos hdomain]
  match reader with
  | [] => exact agree_raises []
  | domainLength :: reader =>
      have hread : readexactly (domainLength :: reader) 1 = some ([domainLength], reader) :=
        readexactly_append [domainLength] reader
      rw [hread]
      dsimp only
      by_cases hlength : reader.length < domainLength.toNat
      · rw [readexactly_none hlength, if_pos hlength]
        exact agree_raises []
      · rw [readexactly, if_pos (Nat.le_of_not_lt hlength), if_neg hlength]
        dsimp only
        cases decode (reader.take domainLength.toNat) with
        | none => exact agree_raises []
        | some dstAddr => exact port_agrees ..

theorem request_agrees (reader : Bytes) : Agree (readRequest reader) (connectRequest reader) := by
  match reader with
  | [] | [_] | [_, _] | [_, _, _] => exact agree_raises []
  | version :: cmd :: rsv :: atyp :: reader =>
      have hread : readexactly (version :: cmd :: rsv :: atyp :: reader) 4 =
          some ([version, cmd, rsv, atyp], reader) :=
        readexactly_append [version, cmd, rsv, atyp] reader
      unfold readRequest connectRequest
      rw [hread]
      dsimp only
      by_cases hcmd : cmd = 1
      · rw [if_neg (not_not.mpr hcmd), if_neg (not_not.mpr hcmd)]
        exact destination_agrees atyp reader
      · rw [if_pos hcmd, if_pos hcmd]
        exact agree_returns _

/-- The two front ends agree on every byte stream. -/
theorem readHandshake_agrees (stream : Bytes) :
    Agree (readHandshake stream) (handshake stream) := by
  match stream with
  | [] | [_] => exact agree_raises []
  | version :: nmethods :: reader =>
      have hread : readexactly (version :: nmethods :: reader) 2 =
          some ([version, nmethods], reader) := readexactly_append [version, nmethods] reader
      unfold readHandshake handshake
      rw [hread]
      dsimp only
      by_cases hversion : version = 5
      case neg =>
        rw [if_pos hversion, if_pos hversion]
        exact agree_returns []
      rw [if_neg (not_not.mpr hversion), if_neg (not_not.mpr hversion)]
      by_cases hmethods : reader.length < nmethods.toNat
      · rw [readexactly_none hmethods, if_pos hmethods]
        exact agree_raises []
      · rw [readexactly, if_pos (Nat.le_of_not_lt hmethods), if_neg hmethods]
        exact (request_agrees _).append [5, 0]

/-! ## Requests -/

/-- The destination of a request: any four bytes, or any up to 255. -/
inductive Destination
  | ipv4 (a b c d : UInt8)
  | domain (domainBytes : Bytes) (fits : domainBytes.length ≤ 255)

namespace Destination

/-- The text a handler makes of it, if it can. -/
def text : Destination → Option (List Char)
  | ipv4 a b c d => some (inetNtoa a b c d)
  | domain domainBytes _ => decode domainBytes

def atyp : Destination → UInt8
  | ipv4 _ _ _ _ => 1
  | domain _ _ => 3

def addr : Destination → Bytes
  | ipv4 a b c d => [a, b, c, d]
  | domain domainBytes _ => UInt8.ofNat domainBytes.length :: domainBytes

end Destination

/-- A complete greeting and a complete CONNECT request; nobody looks at the version and the
reserved byte of the latter. -/
structure ConnectRequest where
  methods : Bytes
  version : UInt8
  rsv : UInt8
  destination : Destination
  port : Nat
  methods_length : methods.length ≤ 255
  port_lt : port < 2 ^ 16

namespace ConnectRequest

def greeting (r : ConnectRequest) : Bytes := 5 :: UInt8.ofNat r.methods.length :: r.methods

def request (r : ConnectRequest) : Bytes :=
  [r.version, 1, r.rsv, r.destination.atyp] ++ (r.destination.addr ++ toBE 2 r.port)

def encode (r : ConnectRequest) : Bytes := r.greeting ++ r.request

end ConnectRequest

theorem toNat_ofNat_length {k : Nat} (h : k ≤ 255) : (UInt8.ofNat k).toNat = k := by
  rw [UInt8.toNat_ofNat']
  omega

/-- The address is read as its text. -/
theorem readDstAddr_addr (d : Destination) (rest : Bytes) :
    readDstAddr d.atyp (d.addr ++ rest) =
      match d.text with
      | some dstAddr => .read dstAddr rest
      | none => .raises := by
  cases d with
  | ipv4 a b c d =>
      have hread : readexactly (a :: b :: c :: d :: rest) 4 = some ([a, b, c, d], rest) :=
        readexactly_append [a, b, c, d] rest
      simp [readDstAddr, Destination.atyp, Destination.addr, Destination.text, hread]
  | domain domainBytes fits =>
      have hlength : readexactly (UInt8.ofNat domainBytes.length :: (domainBytes ++ rest)) 1 =
          some ([UInt8.ofNat domainBytes.length], domainBytes ++ rest) :=
        readexactly_append [UInt8.ofNat domainBytes.length] (domainBytes ++ rest)
      have hdomain : readexactly (domainBytes ++ rest) (UInt8.ofNat domainBytes.length).toNat =
          some (domainBytes, rest) := by
        rw [toNat_ofNat_length fits, readexactly_append]
      simp only [readDstAddr, Destination.atyp, Destination.addr, Destination.text,
        List.cons_append, hlength, hdomain]
      rfl

theorem readRequest_request (r : ConnectRequest) (rest : Bytes) :
    readRequest (r.request ++ rest) =
      match r.destination.text with
      | some dstAddr => ([], .connects dstAddr r.port rest)
      | none => ([], .raises) := by
  have hsplit : r.request ++ rest = [r.version, 1, r.rsv, r.destination.atyp] ++
      (r.destination.addr ++ (toBE 2 r.port ++ rest)) := by
    simp only [ConnectRequest.request, List.append_assoc]
  have hheader : readexactly (r.request ++ rest) 4 = some
      ([r.version, 1, r.rsv, r.destination.atyp],
        r.destination.addr ++ (toBE 2 r.port ++ rest)) := by
    rw [hsplit]
    exact readexactly_append _ _
  have hport : readexactly (toBE 2 r.port ++ rest) 2 = some (toBE 2 r.port, rest) :=
    readexactly_of_append (length_toBE ..)
  unfold readRequest
  rw [hheader]
  dsimp only
  rw [if_neg (by decide), readDestination, readDstAddr_addr]
  cases r.destination.text with
  | none => rfl
  | some dstAddr =>
      have hvalue : ofBE (toBE 2 r.port) = r.port := ofBE_toBE_of_lt r.port_lt
      dsimp only
      rw [hport]
      dsimp only
      rw [hvalue]

/-- What the proxy makes of a request: it connects to the destination, if that is a text. -/
theorem readHandshake_encode (r : ConnectRequest) (rest : Bytes) :
    readHandshake (r.encode ++ rest) =
      match r.destination.text with
      | some dstAddr => ([5, 0], .connects dstAddr r.port rest)
      | none => ([5, 0], .raises) := by
  have hsplit : r.encode ++ rest =
      [5, UInt8.ofNat r.methods.length] ++ (r.methods ++ (r.request ++ rest)) := by
    simp only [ConnectRequest.encode, ConnectRequest.greeting, List.append_assoc, List.cons_append,
      List.nil_append]
  have hgreeting : readexactly (r.encode ++ rest) 2 =
      some ([5, UInt8.ofNat r.methods.length], r.methods ++ (r.request ++ rest)) := by
    rw [hsplit]
    exact readexactly_append _ _
  have hmethods : readexactly (r.methods ++ (r.request ++ rest))
      (UInt8.ofNat r.methods.length).toNat = some (r.methods, r.request ++ rest) := by
    rw [toNat_ofNat_length r.methods_length]
    exact readexactly_append _ _
  unfold readHandshake
  rw [hgreeting]
  dsimp only
  rw [if_neg (by decide), hmethods]
  dsimp only
  rw [readRequest_request]
  cases r.destination.text <;> rfl

/-! ## What a request encodes -/

/-- An address or a name, as an application has it. -/
inductive Host
  | ipv4 (a b c d : UInt8)
  | name (cs : List Char) (fits : (Lib.encode cs).length ≤ 255)

namespace Host

/-- The text of it. -/
def text : Host → List Char
  | ipv4 a b c d => inetNtoa a b c d
  | name cs _ => cs

/-- The request for it. -/
def destination : Host → Destination
  | ipv4 a b c d => .ipv4 a b c d
  | name cs fits => .domain (Lib.encode cs) fits

end Host

theorem text_destination (host : Host) : host.destination.text = some host.text := by
  cases host with
  | ipv4 => rfl
  | name cs => exact decode_encode cs

theorem inetNtoa_eq (a b c d : UInt8) :
    inetNtoa a b c d = ['.'].intercalate ([a, b, c, d].map fun x => x.toNat.repr.toList) := by
  simp [inetNtoa, octet, List.intercalate]

/-- The text of an address tells its bytes. -/
theorem inetNtoa_injective :
    Function.Injective fun x : UInt8 × UInt8 × UInt8 × UInt8 =>
      inetNtoa x.1 x.2.1 x.2.2.1 x.2.2.2 := by
  rintro ⟨a, b, c, d⟩ ⟨a', b', c', d'⟩ h
  dsimp only at h
  rw [inetNtoa_eq, inetNtoa_eq] at h
  simpa using dotted_inj (List.cons_ne_nil _ _) (List.cons_ne_nil _ _) h

/-- The request for a host. -/
def ConnectRequest.to (r : ConnectRequest) (host : Host) : ConnectRequest :=
  { r with destination := host.destination }

/-- Both front ends read the request as one for the host and port that it encodes. -/
structure ReadBack (r : ConnectRequest) (host : Host) (rest : Bytes) : Prop where
  proxy : (readHandshake ((r.to host).encode ++ rest)).2 = .connects host.text r.port rest
  tunnel : (handshake ((r.to host).encode ++ rest)).2 = .accepted host.text r.port rest

theorem readBack (r : ConnectRequest) (host : Host) (rest : Bytes) : ReadBack r host rest := by
  have hproxy :
      (readHandshake ((r.to host).encode ++ rest)).2 = .connects host.text r.port rest := by
    have htext : (r.to host).destination.text = some host.text := text_destination host
    rw [readHandshake_encode, htext]
    rfl
  refine ⟨hproxy, ?_⟩
  -- the tunnel client does the same, as the two agree
  obtain ⟨dstAddr, dstPort, left, hconnects, haccepted⟩ | ⟨hnever, -⟩ :=
    readHandshake_agrees ((r.to host).encode ++ rest)
  · rw [hproxy] at hconnects
    cases hconnects
    exact haccepted
  · exact absurd hproxy (hnever _ _ _)

/-- **The two SOCKS5 front ends agree** on every byte stream, and read back every IPv4 address and
every name of up to 255 bytes, with every port; the text of an address tells its bytes. -/
theorem frontEnds_agree :
    (∀ stream, Agree (readHandshake stream) (handshake stream)) ∧
      (∀ (r : ConnectRequest) (host : Host) (rest : Bytes), ReadBack r host rest) ∧
      Function.Injective fun x : UInt8 × UInt8 × UInt8 × UInt8 =>
        (Host.ipv4 x.1 x.2.1 x.2.2.1 x.2.2.2).text :=
  ⟨readHandshake_agrees, readBack, inetNtoa_injective⟩

end Socks5Proxy

end AetherBond.Client
