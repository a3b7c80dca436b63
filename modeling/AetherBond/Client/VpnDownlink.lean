import AetherBond.Client.VpnSteps
import Mathlib.Data.List.TakeWhile

set_option autoImplicit false

/-! # Completeness of the downlink

A DATA frame of the server is written by a task that starts later, a CLOSE frame takes effect
at once. So what the application gets is what the frames before the CLOSE say if their write
tasks have started by then (`DrainedAtClose`), and less otherwise. In every run, what is
written to a socket comes from frames for its own session.
-/

namespace AetherBond.Client

open AetherBond.Lib AetherBond.Common

/-! ## The frames of one session -/

/-- The body of a DATA frame for session `k`. -/
def dataFor (k : Nat) (payload : Bytes) : Option Bytes :=
  match splitFrame payload with
  | none => none
  | some (status, sessionId, body) => if status = 2 ∧ sessionId = k then some body else none

/-- A CLOSE frame for session `k`. -/
def closesFor (k : Nat) (payload : Bytes) : Bool :=
  match splitFrame payload with
  | none => false
  | some (status, sessionId, _) => status = 3 ∧ sessionId = k

/-- The bodies of the DATA frames for session `k` before the first CLOSE for it. -/
def bodiesBeforeClose (k : Nat) (payloads : List Bytes) : List Bytes :=
  (payloads.takeWhile fun q => !closesFor k q).filterMap (dataFor k)

/-- The entries of a write log, or of the queued writes, for the object `o`. -/
def bodiesFor (o : Nat) (l : List (Nat × Bytes)) : List Bytes :=
  l.filterMap fun x => if x.1 = o then some x.2 else none

theorem bodiesFor_append (o : Nat) (l l' : List (Nat × Bytes)) :
    bodiesFor o (l ++ l') = bodiesFor o l ++ bodiesFor o l' := List.filterMap_append

theorem bodiesFor_cons_self (o : Nat) (body : Bytes) (l : List (Nat × Bytes)) :
    bodiesFor o ((o, body) :: l) = body :: bodiesFor o l :=
  List.filterMap_cons_some (if_pos rfl)

theorem bodiesFor_cons_of_ne {o o' : Nat} (h : o' ≠ o) (body : Bytes) (l : List (Nat × Bytes)) :
    bodiesFor o ((o', body) :: l) = bodiesFor o l :=
  List.filterMap_cons_none (if_neg h)

theorem bodiesFor_eq_nil {o : Nat} {l : List (Nat × Bytes)} (h : ∀ x ∈ l, x.1 < o) :
    bodiesFor o l = [] := by
  apply List.filterMap_eq_nil_iff.mpr
  intro x hx
  have := h x hx
  exact if_neg (by omega)

variable {k : Nat} {payload : Bytes} {payloads : List Bytes}

theorem bodiesBeforeClose_of_open (h : ∀ q ∈ payloads, ¬ closesFor k q) :
    bodiesBeforeClose k payloads = payloads.filterMap (dataFor k) := by
  unfold bodiesBeforeClose
  rw [List.takeWhile_eq_self_iff.mpr (by simpa using h)]

/-- The CLOSE frame itself adds nothing. -/
theorem bodiesBeforeClose_close (h : ∀ q ∈ payloads, ¬ closesFor k q) (hc : closesFor k payload) :
    bodiesBeforeClose k (payloads ++ [payload]) = payloads.filterMap (dataFor k) := by
  unfold bodiesBeforeClose
  rw [List.takeWhile_append_of_pos (by simpa using h), List.takeWhile_cons_of_neg (by simp [hc]),
    List.append_nil]

/-- After the first CLOSE nothing counts any more. -/
theorem bodiesBeforeClose_append (h : ∃ q ∈ payloads, closesFor k q) :
    bodiesBeforeClose k (payloads ++ [payload]) = bodiesBeforeClose k payloads := by
  unfold bodiesBeforeClose
  have hshort : (payloads.takeWhile fun q => !closesFor k q).length ≠ payloads.length := by
    intro hlen
    obtain ⟨q, hq, hclose⟩ := h
    have hself := (List.takeWhile_prefix _).eq_of_length hlen
    have := List.takeWhile_eq_self_iff.mp hself q hq
    simp [hclose] at this
  rw [List.takeWhile_append, if_neg hshort]

namespace AetherVPNClient

variable {p : AetherProtocol} {c c' : AetherVPNClient} {h : Nat} {s : VPNClientSession}

/-! ## The invariant of one session -/

/-- The handler of a session has begun to give it up. -/
def Leaving (c : AetherVPNClient) (h : Nat) : Prop := ∃ pc ∈ c.handlers[h]?, pc.leaving

instance (c : AetherVPNClient) (h : Nat) : Decidable (c.Leaving h) :=
  inferInstanceAs (Decidable (∃ pc ∈ _, _))

structure Downlink (c : AetherVPNClient) (h : Nat) (s : VPNClientSession) : Prop where
  opened : s.openedAt ≤ c.delivered.length
  /-- While the session is open, the frames are written or their tasks queued. -/
  pending : s.active → bodiesFor h c.written ++ bodiesFor h c.writes
    = (c.delivered.drop s.openedAt).filterMap (dataFor (h + 1))
  unclosed : s.active → ∀ q ∈ c.delivered.drop s.openedAt, ¬ closesFor (h + 1) q
  registered : s.active → ¬ c.Leaving h →
    c.sessions.get? (h + 1) = some h ∧ s.writerClosed = false
  /-- After the CLOSE, everything before it is written. -/
  complete : ¬ s.active → (bodiesFor h c.written).flatten
    = (bodiesBeforeClose (h + 1) (c.delivered.drop s.openedAt)).flatten
  closed : ¬ s.active → ∃ q ∈ c.delivered.drop s.openedAt, closesFor (h + 1) q

/-- The invariant of the session at position `h`, once it is there. -/
def Followed (h : Nat) (c : AetherVPNClient) : Prop :=
  c.Ids ∧ ∀ s, c.objects[h]? = some s → c.Downlink h s

/-- A write for the session fails, or the client is stopped. -/
def disturbs (h : Nat) (c : AetherVPNClient) : Event → Bool
  | .startWrite (.fails _) => c.writes.head?.elim false fun w => w.1 = h
  | .drained i false => c.draining[i]? = some h
  | .stop => true
  | _ => false

/-- The local side does its part: while the session is open, its handler is not on its way out,
no write for it raises and the client is not stopped. -/
def Undisturbed (h : Nat) (c : AetherVPNClient) (e : Event) : Prop :=
  c.isActive h → ¬ c.Leaving h ∧ ¬ c.disturbs h e

instance (h : Nat) (c : AetherVPNClient) (e : Event) : Decidable (Undisturbed h c e) :=
  inferInstanceAs (Decidable (_ → _))

/-- The payload an event delivers. -/
def Event.payload? : Event → Option Bytes
  | .deliver payload => some payload
  | _ => none

/-- When the CLOSE of an open session is handled, no bytes are left to tasks that have not
started. -/
def DrainedAtClose (h : Nat) (c : AetherVPNClient) (e : Event) : Prop :=
  ∀ payload ∈ Event.payload? e, c.isActive h → closesFor (h + 1) payload →
    (bodiesFor h c.writes).flatten = []

instance (h : Nat) (c : AetherVPNClient) (e : Event) : Decidable (DrainedAtClose h c e) :=
  inferInstanceAs (Decidable (∀ _ ∈ _, _ → _ → _))

theorem isActive_eq (ho : c.objects[h]? = some s) : c.isActive h = s.active := by
  unfold isActive
  rw [ho]
  rfl

/-! ## Handlers -/

theorem Leaving.of_set {h' : Nat} {pc pc' : HandlerPc} (hl : c.Leaving h)
    (hpc : c.handlers[h']? = some pc) (hmove : pc.leaving → pc' = .ended)
    (hset : c'.handlers = c.handlers.set h' pc') : c'.Leaving h := by
  obtain ⟨pc₀, hpc₀, hlv⟩ := hl
  unfold Leaving
  rw [hset]
  by_cases heq : h = h'
  · subst heq
    obtain rfl : pc = pc₀ := Option.some.inj (hpc.symm.trans hpc₀)
    obtain ⟨hlt, -⟩ := List.getElem?_eq_some_iff.mp hpc
    refine ⟨pc', List.getElem?_set_self hlt, ?_⟩
    rw [hmove hlv]
    rfl
  · exact ⟨pc₀, (List.getElem?_set_ne (Ne.symm heq)).trans hpc₀, hlv⟩

/-- The invariant reads six fields of the client, and of the two logs only the part of `h`. -/
theorem Downlink.congr (hd : c.Downlink h s) (hdel : c'.delivered = c.delivered)
    (hwritten : bodiesFor h c'.written = bodiesFor h c.written)
    (hwrites : bodiesFor h c'.writes = bodiesFor h c.writes)
    (hsess : c'.sessions.get? (h + 1) = c.sessions.get? (h + 1))
    (hleave : c.Leaving h → c'.Leaving h) : c'.Downlink h s where
  opened := hdel ▸ hd.opened
  pending hact := by
    rw [hwritten, hwrites, hdel]
    exact hd.pending hact
  unclosed hact := hdel ▸ hd.unclosed hact
  registered hact hnl := by
    rw [hsess]
    exact hd.registered hact fun hl => hnl (hleave hl)
  complete hact := by
    rw [hwritten, hdel]
    exact hd.complete hact
  closed hact := hdel ▸ hd.closed hact

theorem followed_stable (p : AetherProtocol) (h : Nat) : Stable p (Followed h) where
  setHandler hf hpc hmove := ⟨hf.1.setHandler _ _, fun s ho =>
    (hf.2 s ho).congr rfl rfl rfl rfl fun hl => hl.of_set hpc hmove rfl⟩
  chunk h' data hf := ⟨(ids_stable p).chunk h' data hf.1, fun s ho =>
    (hf.2 s ho).congr rfl rfl rfl rfl id⟩
  send := by
    intro c payload pathId interfaceIp nowUs hf hframe
    refine ⟨(ids_stable p).send payload pathId interfaceIp nowUs hf.1 hframe, fun s ho => ?_⟩
    have hs := sendToVps_sameLocal p c payload pathId interfaceIp nowUs
    rw [hs.objects] at ho
    refine (hf.2 s ho).congr hs.delivered (by rw [hs.written]) (by rw [hs.writes])
      (by rw [hs.sessions]) fun hl => ?_
    unfold Leaving
    rw [hs.handlers]
    exact hl
  unregister := by
    intro c h' pc hf hpc
    refine ⟨hf.1.unregister h', fun s ho => ?_⟩
    have hlt : h' < c.objects.length := by
      obtain ⟨hlt, -⟩ := List.getElem?_eq_some_iff.mp hpc
      rwa [hf.1.handlers] at hlt
    obtain ⟨s', hs'⟩ : ∃ s', c.objects[h']? = some s' := ⟨_, List.getElem?_eq_getElem hlt⟩
    have heq : c.unregister h' = { c with
        sessions := c.sessions.pop (h' + 1)
        objects := c.objects.set h'
          { s' with active := s'.active && !false, writerClosed := true }
        handlers := c.handlers.set h' .ended } := by
      unfold AetherVPNClient.unregister closeWriter
      rw [sessionId_eq hf.1 hlt]
      dsimp only
      rw [hs']
      rfl
    rw [heq] at ho ⊢
    by_cases hh : h = h'
    · subst hh
      -- the handler is at its end, so nothing is asked of the registration
      obtain ⟨hlt', -⟩ := List.getElem?_eq_some_iff.mp hpc
      have hgone : Leaving { c with
          sessions := c.sessions.pop (h + 1)
          objects := c.objects.set h
            { s' with active := s'.active && !false, writerClosed := true }
          handlers := c.handlers.set h .ended } h :=
        ⟨.ended, List.getElem?_set_self hlt', rfl⟩
      rw [List.getElem?_set_self hlt] at ho
      obtain rfl := Option.some.inj ho
      have hd := hf.2 s' hs'
      have hact : ∀ {b : Bool}, b = (s'.active && !false) → (b ↔ s'.active) := by
        rintro b rfl
        simp
      exact {
        opened := hd.opened
        pending := fun ha => hd.pending ((hact rfl).mp ha)
        unclosed := fun ha => hd.unclosed ((hact rfl).mp ha)
        registered := fun _ hnl => absurd hgone hnl
        complete := fun ha => hd.complete fun h' => ha ((hact rfl).mpr h')
        closed := fun ha => hd.closed fun h' => ha ((hact rfl).mpr h') }
    · rw [List.getElem?_set_ne (Ne.symm hh)] at ho
      refine (hf.2 s ho).congr rfl rfl rfl ?_ fun hl => hl.of_set hpc (fun _ => rfl) rfl
      rw [Dict.get?_pop, if_neg (by omega)]

/-! ## The local events -/

theorem Followed.accepted (hf : Followed h c) {dstAddr : List Char} {dstPort : Nat}
    (hstep : c.step p (.accepted dstAddr dstPort) = some c') : Followed h c' := by
  refine ⟨hf.1.accepted hstep, fun s ho => ?_⟩
  obtain rfl := Option.some.inj hstep
  dsimp only at ho
  by_cases hlt : h < c.objects.length
  · rw [List.getElem?_append_left hlt] at ho
    refine (hf.2 s ho).congr rfl rfl rfl ?_ ?_
    · rw [Dict.get?_set, if_neg (by rw [hf.1.next]; omega)]
    · rintro ⟨pc, hpc, hl⟩
      exact ⟨pc, by rw [List.getElem?_append_left (hf.1.handlers ▸ hlt)]; exact hpc, hl⟩
  · -- the session has just been registered
    rw [List.getElem?_append_right (by omega)] at ho
    obtain ⟨hi, hs⟩ := List.getElem?_eq_some_iff.mp ho
    rw [List.length_singleton] at hi
    obtain rfl : h = c.objects.length := by omega
    rw [List.getElem_singleton] at hs
    subst hs
    have hnil : c.delivered.drop c.delivered.length = [] := List.drop_length
    exact {
      opened := le_rfl
      pending := fun _ => by
        rw [bodiesFor_eq_nil hf.1.written, bodiesFor_eq_nil hf.1.writes]
        dsimp only
        rw [hnil]
        rfl
      unclosed := fun _ q hq => by
        dsimp only at hq
        rw [hnil] at hq
        cases hq
      registered := fun _ _ =>
        ⟨by rw [hf.1.next]; exact Dict.get?_set_self _ _ _, rfl⟩
      complete := fun ha => absurd rfl ha
      closed := fun ha => absurd rfl ha }

/-! ## Deliveries -/

theorem closeWriter_objects_self (ho : c.objects[h]? = some s) (deactivate : Bool) :
    (c.closeWriter h deactivate).objects[h]?
      = some { s with active := s.active && !deactivate, writerClosed := true } := by
  obtain ⟨hlt, -⟩ := List.getElem?_eq_some_iff.mp ho
  unfold closeWriter
  rw [ho]
  exact List.getElem?_set_self hlt

theorem closeWriter_objects_of_ne {o : Nat} (hne : h ≠ o) (deactivate : Bool) :
    (c.closeWriter o deactivate).objects[h]? = c.objects[h]? := by
  unfold closeWriter
  split
  · rfl
  · exact List.getElem?_set_ne (Ne.symm hne)

theorem dataFor_eq {status : UInt8} {sessionId : Nat} {body : Bytes}
    (hp : splitFrame payload = some (status, sessionId, body)) (k : Nat) :
    dataFor k payload = if status = 2 ∧ sessionId = k then some body else none := by
  unfold dataFor
  rw [hp]

theorem closesFor_iff {status : UInt8} {sessionId : Nat} {body : Bytes}
    (hp : splitFrame payload = some (status, sessionId, body)) (k : Nat) :
    closesFor k payload ↔ status = 3 ∧ sessionId = k := by
  unfold closesFor
  rw [hp]
  exact decide_eq_true_iff

/-- **What a delivery does**: nothing besides recording the payload, unless it is a DATA or
CLOSE frame for a registered session. -/
theorem deliver_cases (c : AetherVPNClient) (payload : Bytes) :
    (c.handleReorderedServerPacket payload = { c with delivered := c.delivered ++ [payload] } ∧
      ∀ k o, c.sessions.get? k = some o →
        dataFor k payload = none ∧ ¬ closesFor k payload) ∨
    (∃ k o body, c.sessions.get? k = some o ∧ splitFrame payload = some (2, k, body) ∧
      c.handleReorderedServerPacket payload = { c with
        delivered := c.delivered ++ [payload], writes := c.writes ++ [(o, body)] }) ∨
    (∃ k o body, c.sessions.get? k = some o ∧ splitFrame payload = some (3, k, body) ∧
      c.handleReorderedServerPacket payload = { closeWriter { c with
        delivered := c.delivered ++ [payload] } o true with sessions := c.sessions.pop k }) := by
  unfold handleReorderedServerPacket
  dsimp only
  split
  · next hp =>
      refine Or.inl ⟨rfl, fun k o _ => ?_⟩
      unfold dataFor closesFor
      rw [hp]
      exact ⟨rfl, by simp⟩
  · next status sessionId body hp =>
      split
      · next hnone =>
          refine Or.inl ⟨rfl, fun k o hko => ?_⟩
          have hne : sessionId ≠ k := by
            rintro rfl
            rw [hnone] at hko
            cases hko
          rw [dataFor_eq hp, closesFor_iff hp]
          exact ⟨if_neg fun h => hne h.2, fun h => hne h.2⟩
      · next o hget =>
          by_cases h₂ : status = 2
          · rw [if_pos h₂]
            exact Or.inr (Or.inl ⟨sessionId, o, body, hget, h₂ ▸ hp, rfl⟩)
          rw [if_neg h₂]
          by_cases h₃ : status = 3
          · rw [if_pos h₃]
            exact Or.inr (Or.inr ⟨sessionId, o, body, hget, h₃ ▸ hp, rfl⟩)
          · rw [if_neg h₃]
            refine Or.inl ⟨rfl, fun k o _ => ?_⟩
            rw [dataFor_eq hp, closesFor_iff hp]
            exact ⟨if_neg fun h => h₂ h.1, fun h => h₃ h.1⟩

/-- A payload that is neither DATA nor CLOSE for an open session. -/
theorem Downlink.skip (hd : c.Downlink h s) (hdata : s.active → dataFor (h + 1) payload = none)
    (hclose : s.active → ¬ closesFor (h + 1) payload)
    (hdel : c'.delivered = c.delivered ++ [payload]) (hwritten : c'.written = c.written)
    (hwrites : bodiesFor h c'.writes = bodiesFor h c.writes)
    (hsess : s.active → c'.sessions.get? (h + 1) = c.sessions.get? (h + 1))
    (hleave : c.Leaving h → c'.Leaving h) : c'.Downlink h s := by
  have hdrop : c'.delivered.drop s.openedAt = c.delivered.drop s.openedAt ++ [payload] := by
    rw [hdel, List.drop_append_of_le_length hd.opened]
  constructor
  case opened =>
    rw [hdel, List.length_append]
    exact hd.opened.trans (Nat.le_add_right _ _)
  case pending =>
    intro ha
    rw [hdrop, List.filterMap_append, List.filterMap_cons_none (hdata ha), List.filterMap_nil,
      List.append_nil, hwritten, hwrites]
    exact hd.pending ha
  case unclosed =>
    intro ha q hq
    rw [hdrop] at hq
    rcases List.mem_append.mp hq with hq | hq
    · exact hd.unclosed ha q hq
    · rw [List.mem_singleton.mp hq]
      exact hclose ha
  case registered =>
    intro ha hnl
    rw [hsess ha]
    exact hd.registered ha fun hl => hnl (hleave hl)
  case complete =>
    intro ha
    rw [hdrop, bodiesBeforeClose_append (hd.closed ha), hwritten]
    exact hd.complete ha
  case closed =>
    intro ha
    obtain ⟨q, hq, hc⟩ := hd.closed ha
    exact ⟨q, by rw [hdrop]; exact List.mem_append_left _ hq, hc⟩

/-- A DATA frame queues its body. -/
theorem Downlink.data (hd : c.Downlink h s) {body : Bytes}
    (hp : splitFrame payload = some (2, h + 1, body)) :
    Downlink { c with
      delivered := c.delivered ++ [payload], writes := c.writes ++ [(h, body)] } h s := by
  have hdrop : (c.delivered ++ [payload]).drop s.openedAt
      = c.delivered.drop s.openedAt ++ [payload] := List.drop_append_of_le_length hd.opened
  have hnot : ¬ closesFor (h + 1) payload := by
    rw [closesFor_iff hp]
    rintro ⟨h₃, -⟩
    cases h₃
  have hbody : dataFor (h + 1) payload = some body := by
    rw [dataFor_eq hp]
    exact if_pos ⟨rfl, rfl⟩
  constructor
  case opened =>
    dsimp only
    rw [List.length_append]
    exact hd.opened.trans (Nat.le_add_right _ _)
  case pending =>
    intro ha
    dsimp only
    rw [hdrop, List.filterMap_append, List.filterMap_cons_some hbody, List.filterMap_nil,
      bodiesFor_append, bodiesFor_cons_self, ← List.append_assoc, hd.pending ha]
    rfl
  case unclosed =>
    intro ha q hq
    dsimp only at hq
    rw [hdrop] at hq
    rcases List.mem_append.mp hq with hq | hq
    · exact hd.unclosed ha q hq
    · rw [List.mem_singleton.mp hq]
      exact hnot
  case registered => exact fun ha hnl => hd.registered ha hnl
  case complete =>
    intro ha
    dsimp only
    rw [hdrop, bodiesBeforeClose_append (hd.closed ha)]
    exact hd.complete ha
  case closed =>
    intro ha
    obtain ⟨q, hq, hc⟩ := hd.closed ha
    exact ⟨q, by dsimp only; rw [hdrop]; exact List.mem_append_left _ hq, hc⟩

/-- A CLOSE frame closes the session; no bytes may be left to tasks that have not started. -/
theorem Downlink.close (hd : c.Downlink h s) (hc : closesFor (h + 1) payload)
    (hdrain : s.active → (bodiesFor h c.writes).flatten = []) {s' : VPNClientSession}
    (hop : s'.openedAt = s.openedAt) (hact : s'.active = false)
    (hdel : c'.delivered = c.delivered ++ [payload]) (hwritten : c'.written = c.written) :
    c'.Downlink h s' := by
  have hdrop : c'.delivered.drop s'.openedAt = c.delivered.drop s.openedAt ++ [payload] := by
    rw [hdel, hop, List.drop_append_of_le_length hd.opened]
  have hoff : ¬ s'.active := by rw [hact]; exact Bool.false_ne_true
  constructor
  case opened =>
    rw [hdel, hop, List.length_append]
    exact hd.opened.trans (Nat.le_add_right _ _)
  case pending => exact fun ha => absurd ha hoff
  case unclosed => exact fun ha => absurd ha hoff
  case registered => exact fun ha => absurd ha hoff
  case complete =>
    intro _
    rw [hdrop, hwritten]
    by_cases ha : s.active
    · rw [bodiesBeforeClose_close (hd.unclosed ha) hc, ← hd.pending ha, List.flatten_append,
        hdrain ha, List.append_nil]
    · rw [bodiesBeforeClose_append (hd.closed ha)]
      exact hd.complete ha
  case closed =>
    exact fun _ => ⟨payload, by rw [hdrop]; exact List.mem_append_right _ (by simp), hc⟩

theorem Followed.deliver (hf : Followed h c) (payload : Bytes)
    (hstay : c.isActive h → ¬ c.Leaving h)
    (hdrain : c.isActive h → closesFor (h + 1) payload → (bodiesFor h c.writes).flatten = []) :
    Followed h (c.handleReorderedServerPacket payload) := by
  refine ⟨hf.1.deliver payload, fun s' ho' => ?_⟩
  -- an active session is registered, so no frame for it goes astray
  have hreg : ∀ s, c.objects[h]? = some s → s.active → c.sessions.get? (h + 1) = some h := by
    intro s ho ha
    have hact : c.isActive h := (isActive_eq ho).trans ha
    exact ((hf.2 s ho).registered ha (hstay hact)).1
  rcases deliver_cases c payload with ⟨heq, hno⟩ | ⟨k, o, body, hget, hp, heq⟩ |
    ⟨k, o, body, hget, hp, heq⟩
  · rw [heq] at ho' ⊢
    exact (hf.2 s' ho').skip (fun ha => (hno _ _ (hreg s' ho' ha)).1)
      (fun ha => (hno _ _ (hreg s' ho' ha)).2) rfl rfl rfl (fun _ => rfl) id
  · obtain ⟨rfl, -⟩ := hf.1.entry k o hget
    rw [heq] at ho' ⊢
    by_cases hoh : o = h
    · subst hoh
      exact (hf.2 s' ho').data hp
    -- a write for another session
    · have hdata : dataFor (h + 1) payload = none := by
        rw [dataFor_eq hp]
        exact if_neg fun h' => hoh (Nat.succ.inj h'.2)
      have hclose : ¬ closesFor (h + 1) payload := by
        rw [closesFor_iff hp]
        exact fun h' => hoh (Nat.succ.inj h'.2)
      refine (hf.2 s' ho').skip (fun _ => hdata) (fun _ => hclose) rfl rfl ?_ (fun _ => rfl) id
      rw [bodiesFor_append, bodiesFor_cons_of_ne hoh]
      exact List.append_nil _
  · obtain ⟨rfl, hlt⟩ := hf.1.entry k o hget
    let c₁ : AetherVPNClient := { c with delivered := c.delivered ++ [payload] }
    obtain ⟨hdel, hwritten, hwrites, hhandlers⟩ :
        (c₁.closeWriter o true).delivered = c₁.delivered ∧
        (c₁.closeWriter o true).written = c₁.written ∧
        (c₁.closeWriter o true).writes = c₁.writes ∧
        (c₁.closeWriter o true).handlers = c₁.handlers := by
      obtain ⟨objects, hframe⟩ := closeWriter_frame c₁ o true
      rw [hframe]
      exact ⟨rfl, rfl, rfl, rfl⟩
    rw [heq] at ho' ⊢
    by_cases hoh : h = o
    · subst hoh
      -- the CLOSE of this session; by `hdrain` no body waits any more
      have ho : c.objects[h]? = some c.objects[h] := List.getElem?_eq_getElem hlt
      have hc : closesFor (h + 1) payload := (closesFor_iff hp _).mpr ⟨rfl, rfl⟩
      have hself := closeWriter_objects_self
        (c := { c with delivered := c.delivered ++ [payload] }) ho true
      obtain rfl := Option.some.inj (hself.symm.trans ho')
      exact (hf.2 _ ho).close hc (fun ha => hdrain ((isActive_eq ho).trans ha) hc) rfl (by simp)
        hdel hwritten
    -- the CLOSE of another session
    · have ho : c.objects[h]? = some s' := by
        rw [← ho']
        exact (closeWriter_objects_of_ne
          (c := { c with delivered := c.delivered ++ [payload] }) hoh true).symm
      have hdata : dataFor (h + 1) payload = none := by
        rw [dataFor_eq hp]
        exact if_neg fun h' => by cases h'.1
      have hclose : ¬ closesFor (h + 1) payload := by
        rw [closesFor_iff hp]
        exact fun h' => hoh (Nat.succ.inj h'.2).symm
      refine (hf.2 s' ho).skip (fun _ => hdata) (fun _ => hclose) hdel hwritten ?_ (fun _ => ?_)
        fun ⟨pc, hpc, hl⟩ => ⟨pc, by dsimp only; rw [hhandlers]; exact hpc, hl⟩
      · dsimp only
        rw [hwrites]
      · rw [Dict.get?_pop, if_neg (by omega)]

/-! ## Write tasks -/

theorem Downlink.write (hd : c.Downlink h s) (hreg : s.active → s.writerClosed = false)
    {o : Nat} {body : Bytes} {writes : List (Nat × Bytes)} (hw : c.writes = (o, body) :: writes)
    (hdel : c'.delivered = c.delivered) (hwrites : c'.writes = writes)
    (hlog : bodiesFor h c'.written = bodiesFor h c.written ++
      if o = h ∧ s.active ∧ s.writerClosed = false then [body] else [])
    (hsess : c'.sessions = c.sessions) (hleave : c.Leaving h → c'.Leaving h) :
    c'.Downlink h s := by
  constructor
  case opened => exact hdel ▸ hd.opened
  case pending =>
    intro ha
    have hp := hd.pending ha
    rw [hlog, hwrites, hdel, ← hp, hw]
    by_cases hoh : o = h
    · rw [if_pos ⟨hoh, ha, hreg ha⟩, hoh, bodiesFor_cons_self, List.append_assoc]
      rfl
    · rw [if_neg fun h' => hoh h'.1, bodiesFor_cons_of_ne hoh, List.append_nil]
  case unclosed => exact fun ha => hdel ▸ hd.unclosed ha
  case registered =>
    intro ha hnl
    rw [hsess]
    exact hd.registered ha fun hl => hnl (hleave hl)
  case complete =>
    intro ha
    rw [hlog, if_neg fun h' => ha h'.2.1, List.append_nil, hdel]
    exact hd.complete ha
  case closed => exact fun ha => hdel ▸ hd.closed ha

/-- What a write task that does not fail does: it logs the body if the session is open. -/
theorem write_eq {o : Nat} (ho : c.objects[o]? = some s) (body : Bytes) {outcome : WriteOutcome}
    (hok : ∀ b, outcome ≠ .fails b) :
    c.write o body outcome = { c with
      written := c.written ++ if s.active ∧ s.writerClosed = false then [(o, body)] else []
      draining := c.draining ++ if s.active ∧ outcome = .suspends then [o] else [] } := by
  unfold AetherVPNClient.write
  rw [ho]
  dsimp only
  by_cases ha : s.active
  · rw [if_pos ha]
    cases outcome with
    | fails b => exact absurd rfl (hok b)
    | done => cases hw : s.writerClosed <;> simp [ha]
    | suspends => cases hw : s.writerClosed <;> simp [ha]
  · rw [if_neg ha]
    simp [ha]

theorem Followed.write_of_ok (hf : Followed h c) {o : Nat} {body : Bytes} {outcome : WriteOutcome}
    {writes : List (Nat × Bytes)} (hw : c.writes = (o, body) :: writes)
    (hstay : c.isActive h → ¬ c.Leaving h) (hok : ∀ b, outcome ≠ .fails b) :
    Followed h (AetherVPNClient.write { c with writes := writes } o body outcome) := by
  obtain ⟨hrest, hlt⟩ := hf.1.takeWrite hw
  have ho : c.objects[o]? = some c.objects[o] := List.getElem?_eq_getElem hlt
  refine ⟨hrest.write hlt body outcome, fun s hs => ?_⟩
  rw [write_eq (c := { c with writes := writes }) ho body hok] at hs ⊢
  dsimp only at hs
  have hreg : s.active → s.writerClosed = false := fun ha =>
    ((hf.2 s hs).registered ha (hstay ((isActive_eq hs).trans ha))).2
  refine (hf.2 s hs).write hreg hw rfl rfl ?_ rfl id
  dsimp only
  rw [bodiesFor_append]
  congr 1
  by_cases hoh : o = h
  · subst hoh
    obtain rfl : c.objects[o] = s := Option.some.inj (ho.symm.trans hs)
    by_cases hopen : c.objects[o].active ∧ c.objects[o].writerClosed = false
    · rw [if_pos hopen, if_pos ⟨rfl, hopen⟩]
      exact bodiesFor_cons_self o body []
    · rw [if_neg hopen, if_neg fun h' => hopen h'.2]
      rfl
  · rw [if_neg (show ¬ (o = h ∧ _) from fun h' => hoh h'.1)]
    split_ifs
    · exact bodiesFor_cons_of_ne hoh body []
    · rfl

/-! ## Failures beside the session

A write that fails for another session, or after this one is closed, leaves the invariant, and
so does `stop` once the session is closed.
-/

/-- Once the session is closed, the invariant reads two logs. -/
theorem Downlink.of_closed (hd : c.Downlink h s) (hoff : ¬ s.active) {s' : VPNClientSession}
    (hop : s'.openedAt = s.openedAt) (hact : s'.active → s.active)
    (hdel : c'.delivered = c.delivered) (hwritten : c'.written = c.written) :
    c'.Downlink h s' := by
  have hoff' : ¬ s'.active := fun ha => hoff (hact ha)
  constructor
  case opened =>
    rw [hop, hdel]
    exact hd.opened
  case pending => exact fun ha => absurd ha hoff'
  case unclosed => exact fun ha => absurd ha hoff'
  case registered => exact fun ha => absurd ha hoff'
  case complete =>
    intro _
    rw [hop, hdel, hwritten]
    exact hd.complete hoff
  case closed =>
    intro _
    rw [hop, hdel]
    exact hd.closed hoff

theorem deactivate_of_none {o : Nat} (ho : c.objects[o]? = none) : c.deactivate o = c := by
  unfold AetherVPNClient.deactivate
  rw [ho]

theorem deactivate_eq {o : Nat} (ho : c.objects[o]? = some s) :
    c.deactivate o = { c with objects := c.objects.set o { s with active := false } } := by
  unfold AetherVPNClient.deactivate
  rw [ho]

theorem deactivate_of_inactive {o : Nat} (ho : c.objects[o]? = some s) (hoff : ¬ s.active) :
    c.deactivate o = c := by
  obtain ⟨hlt, hs⟩ := List.getElem?_eq_some_iff.mp ho
  have hsame : { s with active := false } = c.objects[o] := by
    rw [hs, ← Bool.eq_false_of_not_eq_true hoff]
  rw [deactivate_eq ho, hsame, List.set_getElem_self]

theorem Followed.deactivate (hf : Followed h c) {o : Nat} (hoff : o = h → ¬ c.isActive h) :
    Followed h (c.deactivate o) := by
  have hids := hf.1.deactivate o
  cases ho : c.objects[o]? with
  | none =>
      rw [deactivate_of_none ho]
      exact hf
  | some s₀ =>
      by_cases hoh : o = h
      · subst hoh
        rw [deactivate_of_inactive ho fun ha => hoff rfl ((isActive_eq ho).trans ha)]
        exact hf
      · rw [deactivate_eq ho] at hids ⊢
        refine ⟨hids, fun s hs => ?_⟩
        dsimp only at hs
        rw [List.getElem?_set_ne hoh] at hs
        exact (hf.2 s hs).congr rfl rfl rfl rfl id

/-- A write task that fails does what one does that is done, or nothing, and gives the session
up. -/
theorem write_fails {o : Nat} (ho : c.objects[o]? = some s) (body : Bytes) (drained : Bool) :
    c.write o body (.fails drained)
      = (if drained then c.write o body .done else c).deactivate o := by
  unfold AetherVPNClient.write
  rw [ho]
  dsimp only
  by_cases ha : s.active
  · rw [if_pos ha, if_pos ha]
    cases drained <;> rfl
  · rw [if_neg ha, if_neg ha, ite_self, deactivate_of_inactive ho ha]

/-- A write task goes without a trace. -/
theorem Followed.takeWrite (hf : Followed h c) {o : Nat} {body : Bytes}
    {writes : List (Nat × Bytes)} (hw : c.writes = (o, body) :: writes)
    (hoff : o = h → ¬ c.isActive h) : Followed h { c with writes := writes } := by
  refine ⟨(hf.1.takeWrite hw).1, fun s hs => ?_⟩
  by_cases hoh : o = h
  · have hoff' : ¬ s.active := fun ha => hoff hoh ((isActive_eq hs).trans ha)
    exact (hf.2 s hs).of_closed hoff' rfl id rfl rfl
  · refine (hf.2 s hs).congr rfl rfl ?_ rfl id
    rw [hw, bodiesFor_cons_of_ne hoh]

theorem Followed.write (hf : Followed h c) {o : Nat} {body : Bytes} {outcome : WriteOutcome}
    {writes : List (Nat × Bytes)} (hw : c.writes = (o, body) :: writes)
    (hund : Undisturbed h c (.startWrite outcome)) :
    Followed h (AetherVPNClient.write { c with writes := writes } o body outcome) := by
  have hstay : c.isActive h → ¬ c.Leaving h := fun ha => (hund ha).1
  cases outcome with
  | done => exact hf.write_of_ok hw hstay (by simp)
  | suspends => exact hf.write_of_ok hw hstay (by simp)
  | fails drained =>
      have hoff : o = h → ¬ c.isActive h := by
        rintro rfl ha
        refine (hund ha).2 ?_
        unfold disturbs
        rw [hw]
        exact decide_eq_true rfl
      obtain ⟨-, hlt⟩ := hf.1.takeWrite hw
      have ho : c.objects[o]? = some c.objects[o] := List.getElem?_eq_getElem hlt
      rw [write_fails (c := { c with writes := writes }) ho]
      cases drained with
      | false => exact (hf.takeWrite hw hoff).deactivate hoff
      | true =>
          have hdone :
              Followed h (AetherVPNClient.write { c with writes := writes } o body .done) :=
            hf.write_of_ok hw hstay (by simp)
          refine hdone.deactivate fun hoh => ?_
          rw [write_eq (c := { c with writes := writes }) ho body (by simp)]
          exact hoff hoh

/-- Closing a writer does not open a session. -/
theorem closeWriter_object {o : Nat} {deactivate : Bool}
    (hs : (c.closeWriter o deactivate).objects[h]? = some s) :
    ∃ s₀, c.objects[h]? = some s₀ ∧ s.openedAt = s₀.openedAt ∧ (s.active → s₀.active) := by
  by_cases hoh : h = o
  · subst hoh
    cases ho : c.objects[h]? with
    | none =>
        unfold closeWriter at hs
        rw [ho] at hs
        exact absurd (ho.symm.trans hs) (by simp)
    | some s₀ =>
        rw [closeWriter_objects_self ho] at hs
        obtain rfl := Option.some.inj hs
        exact ⟨s₀, rfl, rfl, fun ha => (Bool.and_eq_true_iff.mp ha).1⟩
  · rw [closeWriter_objects_of_ne hoh] at hs
    exact ⟨s, hs, rfl, id⟩

theorem stop_object (hs : c.stop.objects[h]? = some s) :
    ∃ s₀, c.objects[h]? = some s₀ ∧ s.openedAt = s₀.openedAt ∧ (s.active → s₀.active) := by
  refine List.foldlRecOn (motive := fun c' : AetherVPNClient => ∀ s, c'.objects[h]? = some s →
    ∃ s₀, c.objects[h]? = some s₀ ∧ s.openedAt = s₀.openedAt ∧ (s.active → s₀.active))
    c.sessions.values (fun c o => c.closeWriter o true) (fun s hs => ⟨s, hs, rfl, id⟩) ?_ s hs
  intro c' ih o _ s hs
  obtain ⟨s₁, hs₁, hop₁, hact₁⟩ := closeWriter_object hs
  obtain ⟨s₀, hs₀, hop₀, hact₀⟩ := ih s₁ hs₁
  exact ⟨s₀, hs₀, hop₁.trans hop₀, fun ha => hact₀ (hact₁ ha)⟩

theorem stop_log (c : AetherVPNClient) :
    c.stop.written = c.written ∧ c.stop.writes = c.writes ∧ c.stop.delivered = c.delivered := by
  obtain ⟨objects, heq⟩ := stop_frame c
  rw [heq]
  exact ⟨rfl, rfl, rfl⟩

theorem Followed.stop (hf : Followed h c) (hoff : ¬ c.isActive h) : Followed h c.stop := by
  refine ⟨hf.1.stop, fun s hs => ?_⟩
  obtain ⟨s₀, hs₀, hop, hact⟩ := stop_object hs
  obtain ⟨hwritten, -, hdel⟩ := stop_log c
  have hoff₀ : ¬ s₀.active := fun ha => hoff ((isActive_eq hs₀).trans ha)
  exact (hf.2 s₀ hs₀).of_closed hoff₀ hop hact hdel hwritten

/-! ## Runs -/

theorem init_followed (h : Nat) (activeSockets : List String) :
    Followed h (init activeSockets) := by
  refine ⟨init_ids activeSockets, fun s ho => ?_⟩
  cases ho

/-- **The step lemma** of `Followed`. -/
theorem Followed.step (hf : Followed h c) {e : Event} (hund : Undisturbed h c e)
    (hdrain : DrainedAtClose h c e) (hstep : c.step p e = some c') : Followed h c' := by
  have hids := hf.1.step hstep
  cases step_cases hstep with
  | accepted dstAddr dstPort => exact hf.accepted hstep
  | deliver payload => exact hf.deliver payload (fun ha => (hund ha).1) (hdrain payload rfl)
  | startWrite hwrites outcome => exact hf.write hwrites hund
  | drained => exact ⟨hids, fun s ho => (hf.2 s ho).congr rfl rfl rfl rfl id⟩
  | @drainFails i o hi =>
      have hrest : Followed h { c with draining := c.draining.eraseIdx i } :=
        ⟨⟨hf.1.next, hf.1.handlers, hf.1.id, hf.1.entry, hf.1.written, hf.1.writes⟩,
          fun s ho => (hf.2 s ho).congr rfl rfl rfl rfl id⟩
      refine hrest.deactivate ?_
      rintro rfl ha
      exact (hund ha).2 (decide_eq_true hi)
  | stop => exact hf.stop fun ha => (hund ha).2 rfl
  | _ =>
      exact (followed_stable p h).step hf hstep (by simp) (by simp) (by simp) (by simp) (by simp)

/-- However the run goes, the bytes for one session are a part of what the frames for it say. -/
def Separate (h : Nat) (c : AetherVPNClient) : Prop :=
  c.Ids ∧ (bodiesFor h c.written ++ bodiesFor h c.writes).Sublist
    (c.delivered.filterMap (dataFor (h + 1)))

theorem init_separate (h : Nat) (activeSockets : List String) :
    Separate h (init activeSockets) :=
  ⟨init_ids activeSockets, List.nil_sublist _⟩

/-- Less may be written or waiting, and more delivered. -/
theorem Separate.of_sublist (hs : Separate h c) (hids : c'.Ids)
    (hlog : (bodiesFor h c'.written ++ bodiesFor h c'.writes).Sublist
      (bodiesFor h c.written ++ bodiesFor h c.writes))
    (hdel : c.delivered.Sublist c'.delivered) : Separate h c' :=
  ⟨hids, (hlog.trans hs.2).trans (hdel.filterMap _)⟩

theorem separate_stable (p : AetherProtocol) (h : Nat) : Stable p (Separate h) where
  setHandler hs _ _ := hs.of_sublist (hs.1.setHandler _ _) (List.Sublist.refl _)
    (List.Sublist.refl _)
  chunk h' data hs := hs.of_sublist ((ids_stable p).chunk h' data hs.1) (List.Sublist.refl _)
    (List.Sublist.refl _)
  send := by
    intro c payload pathId interfaceIp nowUs hs hframe
    have hids := (ids_stable p).send payload pathId interfaceIp nowUs hs.1 hframe
    have hsame := sendToVps_sameLocal p c payload pathId interfaceIp nowUs
    refine hs.of_sublist hids ?_ ?_
    · rw [hsame.written, hsame.writes]
    · rw [hsame.delivered]
  unregister := by
    intro c h' pc hs _
    refine ⟨hs.1.unregister h', ?_⟩
    obtain ⟨objects, heq⟩ := closeWriter_frame
      { c with sessions := c.sessions.pop (c.sessionId h') } h' false
    unfold AetherVPNClient.unregister
    rw [heq]
    exact hs.2

theorem Separate.deliver (hs : Separate h c) (payload : Bytes) :
    Separate h (c.handleReorderedServerPacket payload) := by
  have hids := hs.1.deliver payload
  rcases deliver_cases c payload with ⟨heq, -⟩ | ⟨k, o, body, hget, hp, heq⟩ |
    ⟨k, o, body, hget, hp, heq⟩
  · rw [heq] at hids ⊢
    exact hs.of_sublist hids (List.Sublist.refl _) (List.sublist_append_left _ _)
  · obtain ⟨rfl, -⟩ := hs.1.entry k o hget
    rw [heq] at hids ⊢
    refine ⟨hids, ?_⟩
    dsimp only
    rw [bodiesFor_append, ← List.append_assoc, List.filterMap_append]
    refine hs.2.append ?_
    by_cases hoh : o = h
    · subst hoh
      have hbody : dataFor (o + 1) payload = some body := by
        rw [dataFor_eq hp]
        exact if_pos ⟨rfl, rfl⟩
      rw [bodiesFor_cons_self, List.filterMap_cons_some hbody]
      exact List.Sublist.refl _
    · rw [bodiesFor_cons_of_ne hoh]
      exact List.nil_sublist _
  · obtain ⟨objects, hframe⟩ :=
      closeWriter_frame { c with delivered := c.delivered ++ [payload] } o true
    rw [heq, hframe] at hids ⊢
    exact hs.of_sublist hids (List.Sublist.refl _) (List.sublist_append_left _ _)

theorem deactivate_log (c : AetherVPNClient) (o : Nat) :
    (c.deactivate o).written = c.written ∧ (c.deactivate o).writes = c.writes ∧
      (c.deactivate o).delivered = c.delivered := by
  obtain ⟨objects, heq⟩ := deactivate_frame c o
  rw [heq]
  exact ⟨rfl, rfl, rfl⟩

/-- A write task logs its body or nothing. -/
theorem write_log (c : AetherVPNClient) (o : Nat) (body : Bytes) (outcome : WriteOutcome) :
    (c.write o body outcome).written.Sublist (c.written ++ [(o, body)]) ∧
      (c.write o body outcome).writes = c.writes ∧
      (c.write o body outcome).delivered = c.delivered := by
  have hnone := List.sublist_append_left c.written [(o, body)]
  have hlogged : ∀ s : VPNClientSession,
      let c₁ := if s.writerClosed then c else { c with written := c.written ++ [(o, body)] }
      c₁.written.Sublist (c.written ++ [(o, body)]) ∧ c₁.writes = c.writes ∧
        c₁.delivered = c.delivered := by
    intro s
    dsimp only
    split_ifs
    · exact ⟨hnone, rfl, rfl⟩
    · exact ⟨List.Sublist.refl _, rfl, rfl⟩
  unfold AetherVPNClient.write
  split
  · exact ⟨hnone, rfl, rfl⟩
  · next s _ =>
      have hlog := hlogged s
      by_cases ha : s.active
      · rw [if_pos ha]
        dsimp only at hlog ⊢
        split
        · exact hlog
        · exact hlog
        · obtain ⟨h₁, h₂, h₃⟩ := deactivate_log
            (if s.writerClosed then c else { c with written := c.written ++ [(o, body)] }) o
          rw [h₁, h₂, h₃]
          exact hlog
        · obtain ⟨h₁, h₂, h₃⟩ := deactivate_log c o
          rw [h₁, h₂, h₃]
          exact ⟨hnone, rfl, rfl⟩
      · rw [if_neg ha]
        exact ⟨hnone, rfl, rfl⟩

/-- **The step lemma** of `Separate`; it asks nothing of the event. -/
theorem Separate.step (hs : Separate h c) {e : Event} (hstep : c.step p e = some c') :
    Separate h c' := by
  have hids := hs.1.step hstep
  cases step_cases hstep with
  | accepted dstAddr dstPort => exact ⟨hids, hs.2⟩
  | deliver payload => exact hs.deliver payload
  | @startWrite o body writes hwrites outcome =>
      obtain ⟨hlog, hwaits, hdel⟩ := write_log { c with writes := writes } o body outcome
      refine hs.of_sublist hids ?_ (by rw [hdel])
      rw [hwaits, hwrites]
      calc (bodiesFor h _ ++ bodiesFor h writes).Sublist
            (bodiesFor h (c.written ++ [(o, body)]) ++ bodiesFor h writes) :=
            (hlog.filterMap _).append (List.Sublist.refl _)
        _ = bodiesFor h c.written ++ bodiesFor h ((o, body) :: writes) := by
            rw [bodiesFor_append, List.append_assoc, ← bodiesFor_append]
            rfl
  | drained => exact ⟨hids, hs.2⟩
  | @drainFails i o =>
      obtain ⟨h₁, h₂, h₃⟩ := deactivate_log { c with draining := c.draining.eraseIdx i } o
      refine ⟨hids, ?_⟩
      rw [h₁, h₂, h₃]
      exact hs.2
  | stop =>
      obtain ⟨h₁, h₂, h₃⟩ := stop_log c
      refine ⟨hids, ?_⟩
      rw [h₁, h₂, h₃]
      exact hs.2
  | _ =>
      exact (separate_stable p h).step hs hstep (by simp) (by simp) (by simp) (by simp) (by simp)

/-- **The downlink is complete when no CLOSE overtakes a write.** In every run the bytes written
to the socket of a session come from DATA frames for that session, in their order. And in every
run that leaves the local side of the session at position `h` alone while it is open, and in
which no CLOSE for it is handled while bytes for it wait in tasks that have not started, once all
write tasks have started exactly the bodies before the first CLOSE are written. -/
theorem run_downlink_complete (p : AetherProtocol) (activeSockets : List String)
    (es : List Event) (c : AetherVPNClient)
    (hrun : runFrom (step p) (init activeSockets) es = some c) (h : Nat)
    (s : VPNClientSession) (ho : c.objects[h]? = some s) :
    (bodiesFor h c.written).Sublist (c.delivered.filterMap (dataFor s.sessionId)) ∧
      (Along (step p) (fun c e => Undisturbed h c e ∧ DrainedAtClose h c e)
          (init activeSockets) es →
        (s.active → bodiesFor h c.written ++ bodiesFor h c.writes
          = bodiesBeforeClose s.sessionId (c.delivered.drop s.openedAt)) ∧
        (c.writes = [] → (bodiesFor h c.written).flatten
          = (bodiesBeforeClose s.sessionId (c.delivered.drop s.openedAt)).flatten)) := by
  have hsep : Separate h c := runFrom_invariant (fun _ _ _ hs hstep => Separate.step hs hstep)
    (init_separate h activeSockets) hrun
  have hid : s.sessionId = h + 1 := hsep.1.id h s ho
  rw [hid]
  refine ⟨(List.sublist_append_left _ _).trans hsep.2, fun halong => ?_⟩
  have hf : Followed h c := runFrom_invariant_along
    (fun _ _ _ hf hG hstep => Followed.step hf hG.1 hG.2 hstep) (init_followed h activeSockets)
    halong hrun
  have hd := hf.2 s ho
  have hopen : s.active → bodiesFor h c.written ++ bodiesFor h c.writes
      = bodiesBeforeClose (h + 1) (c.delivered.drop s.openedAt) := fun ha =>
    (hd.pending ha).trans (bodiesBeforeClose_of_open (hd.unclosed ha)).symm
  refine ⟨hopen, fun hnil => ?_⟩
  by_cases ha : s.active
  · have hall := hopen ha
    rw [hnil] at hall
    rw [← hall]
    exact (congrArg List.flatten (List.append_nil _)).symm
  · exact hd.complete ha

/-- Two chunks written in their tasks before the CLOSE is handled; `stop` comes after it. -/
theorem run_downlink_complete_two_chunks :
    ∃ (c : AetherVPNClient) (s : VPNClientSession), c.objects[0]? = some s ∧
      (bodiesFor 0 c.written).flatten
        = (bodiesBeforeClose s.sessionId (c.delivered.drop s.openedAt)).flatten := by
  let es : List Event := [.accepted ['a'] 80, .deliver (frame 2 1 [104]), .startWrite .done,
    .deliver (frame 2 1 [105]), .startWrite .suspends, .drained 0 true, .deliver (frame 3 1 []),
    .stop]
  obtain ⟨c, hrun⟩ := Option.isSome_iff_exists.mp
    (show (runFrom (step (.new .checksum [1])) (init ["10.0.0.1"]) es).isSome by decide)
  have hend : (some c).map (fun c => (c.objects, c.writes))
      = some ([⟨1, false, true, 0⟩], []) := by
    rw [← hrun]
    rfl
  obtain ⟨ho, hw⟩ : c.objects = [⟨1, false, true, 0⟩] ∧ c.writes = [] := by simpa using hend
  have ho₀ : c.objects[0]? = some ⟨1, false, true, 0⟩ := by rw [ho]; rfl
  have hcomplete := run_downlink_complete _ _ es c hrun 0 _ ho₀
  exact ⟨c, _, ho₀, (hcomplete.2 (by decide)).2 hw⟩

/-- No write of any session raises, and the client is not stopped. -/
def Event.harmless : Event → Bool
  | .startWrite (.fails _) | .stop => false
  | .drained _ ok => ok
  | _ => true

/-- A CLOSE released together with the DATA before it: the body is lost, although no write
fails at all and the application has not closed. -/
theorem closed_before_written_loses_data :
    ¬ ∀ (p : AetherProtocol) (activeSockets : List String) (es : List Event)
      (c : AetherVPNClient), runFrom (step p) (init activeSockets) es = some c →
      ∀ (h : Nat) (s : VPNClientSession), c.objects[h]? = some s →
      Along (step p) (fun c e => Undisturbed h c e ∧ Event.harmless e)
        (init activeSockets) es → c.writes = [] →
      (bodiesFor h c.written).flatten
        = (bodiesBeforeClose s.sessionId (c.delivered.drop s.openedAt)).flatten := by
  intro hall
  let es : List Event := [.accepted ['a'] 80, .deliver (frame 2 1 [104]),
    .deliver (frame 3 1 []), .startWrite .done]
  obtain ⟨c, hrun⟩ := Option.isSome_iff_exists.mp
    (show (runFrom (step (.new .checksum [1])) (init ["10.0.0.1"]) es).isSome by decide)
  have hend : (some c).map (fun c => (c.objects, c.writes, c.written, c.delivered))
      = some ([⟨1, false, true, 0⟩], [], [], [frame 2 1 [104], frame 3 1 []]) := by
    rw [← hrun]
    rfl
  obtain ⟨ho, hw, hwritten, hdel⟩ : c.objects = [⟨1, false, true, 0⟩] ∧ c.writes = [] ∧
      c.written = [] ∧ c.delivered = [frame 2 1 [104], frame 3 1 []] := by simpa using hend
  have hbad := hall _ _ es c hrun 0 _ (by rw [ho]; rfl) (by decide) hw
  rw [hwritten, hdel] at hbad
  revert hbad
  decide

end AetherVPNClient

end AetherBond.Client
