import AetherBond.Control.Stun

set_option autoImplicit false

/-! # Requests and answers

`DiscoverNAT` draws a transaction id for its request and does not look at it again: of what it
receives it checks the length and the cookie, and then takes the last mapped address there is
(`attributeLoop_found`). So a datagram that does not answer the request is refused exactly if it
has no cookie, or no mapped address to take (`discoverNAT_matches_iff`).
-/

namespace AetherBond.Control

open AetherBond.Lib

/-! ## What the loop finds -/

/-- The last address among the attributes, or what was found before. -/
def lastFound (buf : Bytes) (before : Option (Nat × Bytes)) (as : List Attribute) :
    Option (Nat × Bytes) :=
  as.foldl (fun found a => (a.address buf).join.or found) before

variable {buf : Bytes} {n stop : Nat} {s : ParseState}

/-- **Loop lemma.** The loop panics at an attribute, or ends with the last address. -/
theorem attributeLoop_found (fuel : Nat) (s : ParseState) (hn : n ≤ buf.length) (hpos : 0 < fuel)
    (hfuel : n < s.idx + 4 * fuel) :
    (∃ s', attributeLoop buf n stop fuel s = .panicked s' ∧
        ∃ a ∈ attributes buf n stop fuel s.idx, a.address buf = none) ∨
      ∃ s', attributeLoop buf n stop fuel s = .finished s' ∧
        (∀ a ∈ attributes buf n stop fuel s.idx, a.address buf ≠ none) ∧
        s'.found = lastFound buf s.found (attributes buf n stop fuel s.idx) := by
  induction fuel generalizing s with
  | zero => exact absurd hpos (Nat.lt_irrefl 0)
  | succ fuel ih =>
      obtain ⟨s', hloop, -, hfound, hnil⟩ | ⟨a, -, ⟨s', as, hloop, hcons, hnone⟩ |
          ⟨s', hloop, hcons, hmore, hparsed⟩⟩ := attributeLoop_succ fuel s stop hn
      · rw [hloop, hnil]
        exact .inr ⟨s', rfl, fun _ ha => absurd ha List.not_mem_nil, hfound⟩
      · rw [hloop, hcons]
        exact .inl ⟨s', rfl, a, List.mem_cons_self, hnone⟩
      obtain ⟨r, hsome, hfound⟩ := hparsed.address
      rw [hloop, hcons]
      obtain ⟨s'', hrest, a', ha', hnone⟩ | ⟨s'', hrest, hall, hlast⟩ :=
        ih s' (by omega) (by omega)
      · exact .inl ⟨s'', hrest, a', List.mem_cons_of_mem _ ha', hnone⟩
      · refine .inr ⟨s'', hrest, ?_, ?_⟩
        · rw [List.forall_mem_cons]
          exact ⟨by rw [hsome]; exact Option.some_ne_none r, hall⟩
        · rw [hlast, hfound, lastFound, lastFound, List.foldl_cons, hsome]
          rfl

/-- The loop over the attributes of a response panics at one, or ends with the last address. -/
theorem responseLoop_found {datagram : Bytes} (hresponse : IsResponse datagram) :
    (∃ s', responseLoop datagram = .panicked s' ∧
        ∃ a ∈ responseAttributes datagram, a.address (readBuffer datagram) = none) ∨
      ∃ s', responseLoop datagram = .finished s' ∧
        (∀ a ∈ responseAttributes datagram, a.address (readBuffer datagram) ≠ none) ∧
        s'.found = lastFound (readBuffer datagram) none (responseAttributes datagram) := by
  have hpos := hresponse.1
  exact attributeLoop_found (readLength datagram) ⟨20, none, 0, []⟩ (readLength_le datagram)
    (by omega) (by dsimp only; omega)

/-- Nothing is found exactly if nothing was found before and no attribute has an address. -/
theorem lastFound_eq_none {before : Option (Nat × Bytes)} {as : List Attribute} :
    lastFound buf before as = none ↔ before = none ∧ ∀ a ∈ as, (a.address buf).join = none := by
  unfold lastFound
  induction as generalizing before with
  | nil => simp
  | cons a as ih =>
      rw [List.foldl_cons, ih, Option.or_eq_none_iff, List.forall_mem_cons]
      tauto

/-! ## The request -/

/-- The twelve bytes of `rand.Read(packet[8:20])`. -/
structure TransactionId where
  bytes : Bytes
  length_eq : bytes.length = 12

/-- `packet`. -/
def bindingRequest (transactionId : TransactionId) : Bytes :=
  toBE 2 0x0001 ++ toBE 2 0x0000 ++ toBE 4 stunMagicCookie ++ transactionId.bytes

/-- `DiscoverNAT` from the draw of the transaction id on: the packet it writes, and its outcome
with the datagram it reads. -/
def exchange (localIP : String) (transactionId : TransactionId) (datagram : Bytes) :
    Bytes × Outcome :=
  (bindingRequest transactionId, (discoverNAT localIP datagram).1)

/-- A Binding Success Response with the cookie and the transaction id of the request. -/
def Answers (request datagram : Bytes) : Prop :=
  uint16 datagram 0 = some 0x0101 ∧ slice? datagram 4 8 = slice? request 4 8 ∧
    slice? datagram 8 20 = slice? request 8 20

instance (request datagram : Bytes) : Decidable (Answers request datagram) :=
  inferInstanceAs (Decidable (_ ∧ _))

/-- Only an answer gives a profile, and everything else an error. -/
structure Matches (localIP : String) (transactionId : TransactionId) (datagram : Bytes) :
    Prop where
  profiles : ∀ profile, (exchange localIP transactionId datagram).2 = .profile profile →
    Answers (exchange localIP transactionId datagram).1 datagram
  others : ¬ Answers (exchange localIP transactionId datagram).1 datagram →
    ∃ text, (exchange localIP transactionId datagram).2 = .error text

/-- If it is a mapped address, its family can be read, and is another one than IPv4. -/
def Attribute.Silent (buf : Bytes) (a : Attribute) : Prop :=
  a.IsAddress → ∃ family ∈ buf[a.start + 1]?, family ≠ 1

instance (buf : Bytes) (a : Attribute) : Decidable (a.Silent buf) :=
  inferInstanceAs (Decidable (_ → _))

/-- There is nothing to take from such an attribute, and only from such. -/
theorem address_eq_none_iff (a : Attribute) : a.address buf = some none ↔ a.Silent buf := by
  unfold Attribute.address Attribute.Silent
  by_cases haddress : a.IsAddress
  case neg => simp [haddress]
  rw [if_pos haddress]
  constructor
  · intro h _
    have hfamily := mappedAddress_some h
    unfold mappedAddress at h
    cases hbyte : buf[a.start + 1]? with
    | none => simp [hbyte] at h
    | some family =>
        refine ⟨family, rfl, fun hone => ?_⟩
        exact absurd (hfamily.mpr (by rw [hbyte, hone])) (by simp)
  · intro h
    obtain ⟨family, hbyte, hne⟩ := h haddress
    unfold mappedAddress
    rw [Option.mem_def.mp hbyte]
    exact if_neg hne

theorem classify_error_iff (localIP : String) (s : ParseState) :
    (∃ text, classify localIP s = .error text) ↔ s.publicIP = none := by
  unfold classify
  cases s.publicIP with
  | none => exact ⟨fun _ => rfl, fun _ => ⟨_, rfl⟩⟩
  | some ip => exact ⟨fun ⟨_, h⟩ => (nomatch h), fun h => (nomatch h)⟩

/-- A datagram is refused without a cookie, or if there is no address to take. -/
theorem discoverNAT_error_iff (localIP : String) (datagram : Bytes) :
    (∃ text, (discoverNAT localIP datagram).1 = .error text) ↔
      (IsResponse datagram →
        ∀ a ∈ responseAttributes datagram, a.Silent (readBuffer datagram)) := by
  obtain ⟨hnot, text, herror⟩ | ⟨hresponse, hloop⟩ := discoverNAT_cases localIP datagram
  · exact ⟨fun _ h => absurd h hnot, fun _ => ⟨text, by rw [herror]⟩⟩
  obtain ⟨s', hend, a, ha, hnone⟩ | ⟨s', hend, hall, hfound⟩ := responseLoop_found hresponse
  · rw [hend] at hloop
    constructor
    · rintro ⟨text, herror⟩
      rw [hloop] at herror
      cases herror
    · intro h
      have hsilent := (address_eq_none_iff a).mpr (h hresponse a ha)
      rw [hnone] at hsilent
      cases hsilent
  · rw [hend] at hloop
    have hjoin : ∀ a ∈ responseAttributes datagram,
        ((a.address (readBuffer datagram)).join = none ↔ a.Silent (readBuffer datagram)) := by
      intro a ha
      rw [← address_eq_none_iff]
      cases haddress : a.address (readBuffer datagram) with
      | none => exact absurd haddress (hall a ha)
      | some r => simp
    calc (∃ text, (discoverNAT localIP datagram).1 = .error text) ↔ s'.publicIP = none := by
          rw [hloop]
          exact classify_error_iff localIP s'
      _ ↔ s'.found = none := by
          unfold ParseState.found
          rw [Option.map_eq_none_iff]
      _ ↔ ∀ a ∈ responseAttributes datagram, a.Silent (readBuffer datagram) := by
          rw [hfound, lastFound_eq_none]
          exact ⟨fun h a ha => (hjoin a ha).mp (h.2 a ha),
            fun h => ⟨rfl, fun a ha => (hjoin a ha).mpr (h a ha)⟩⟩
      _ ↔ _ := ⟨fun h _ => h, fun h => h hresponse⟩

/-- **Only answers to the request give a profile exactly if every other datagram has no cookie or
no address to take**: for every transaction id and datagram, the two are matched if and only if
one of these holds. -/
theorem discoverNAT_matches_iff (localIP : String) (transactionId : TransactionId)
    (datagram : Bytes) :
    Matches localIP transactionId datagram ↔
      Answers (bindingRequest transactionId) datagram ∨ (IsResponse datagram →
        ∀ a ∈ responseAttributes datagram, a.Silent (readBuffer datagram)) := by
  rw [← discoverNAT_error_iff localIP datagram]
  constructor
  · intro h
    by_cases hanswers : Answers (bindingRequest transactionId) datagram
    · exact .inl hanswers
    · exact .inr (h.others hanswers)
  · rintro (hanswers | ⟨text, herror⟩)
    · exact ⟨fun _ _ => hanswers, fun hnot => absurd hanswers hnot⟩
    · refine ⟨fun profile hprofile => ?_, fun _ => ⟨text, herror⟩⟩
      cases herror.symm.trans hprofile

/-- A Binding Request of somebody else, with a mapped address in it. -/
def foreignRequest : Bytes :=
  toBE 2 0x0001 ++ toBE 2 12 ++ toBE 4 stunMagicCookie ++ List.replicate 12 7 ++
    [0, 1, 0, 8, 0, 1, 0, 80, 203, 0, 113, 5]

/-- It is taken for the answer. -/
theorem foreign_request_accepted :
    (exchange "192.168.1.10" ⟨List.replicate 12 0, rfl⟩ foreignRequest).2 =
        .profile ⟨"203.0.113.5", 80, "NAT (Symmetric/Cone)"⟩ ∧
      ¬ Matches "192.168.1.10" ⟨List.replicate 12 0, rfl⟩ foreignRequest := by
  have hprofile : (exchange "192.168.1.10" ⟨List.replicate 12 0, rfl⟩ foreignRequest).2 =
      .profile ⟨"203.0.113.5", 80, "NAT (Symmetric/Cone)"⟩ := by decide +kernel
  exact ⟨hprofile, fun h => absurd (h.profiles _ hprofile) (by decide +kernel)⟩

end AetherBond.Control
