import AetherBond.Client.VpnDownlink

set_option autoImplicit false

/-! # What is written to an application is a beginning of its stream

A session that is open, active with an open writer, is registered, so each DATA frame for it is
queued and each queued body is written. Once it is not open it is never open again, and nothing more
is written to it. So, whatever closes the session and however its writes fail, what was written is a
beginning of what was delivered for it (`Written`), if nothing was delivered for it before it was
registered.
-/

namespace AetherBond.Client

open AetherBond.Lib AetherBond.Common

/-- The session takes bytes for its application. -/
def VPNClientSession.open (s : VPNClientSession) : Prop := s.active ∧ s.writerClosed = false

instance (s : VPNClientSession) : Decidable s.open := inferInstanceAs (Decidable (_ ∧ _))

namespace AetherVPNClient

variable {p : AetherProtocol} {c c' : AetherVPNClient} {h o : Nat} {s s' : VPNClientSession}
  {payload body : Bytes}

/-- The bodies for the session that were delivered. -/
def deliveredTo (h : Nat) (c : AetherVPNClient) : List Bytes :=
  c.delivered.filterMap (dataFor (h + 1))

/-- The invariant of one session. -/
structure Written (c : AetherVPNClient) (h : Nat) (s : VPNClientSession) : Prop where
  written : bodiesFor h c.written <+: c.deliveredTo h
  pending : s.open → c.sessions.get? (h + 1) = some h ∧
    bodiesFor h c.written ++ bodiesFor h c.writes = c.deliveredTo h

/-- The invariant of the client, for the session at position `h`. -/
def WritesOn (h : Nat) (c : AetherVPNClient) : Prop :=
  c.Ids ∧ ∀ s, c.objects[h]? = some s → c.Written h s

theorem init_writesOn (h : Nat) (activeSockets : List String) : WritesOn h (init activeSockets) :=
  ⟨init_ids activeSockets, by simp [init]⟩

/-! ## What is delivered -/

/-- A payload more, and its body if there is one. -/
theorem deliveredTo_concat (hdel : c'.delivered = c.delivered ++ [payload]) :
    c'.deliveredTo h = c.deliveredTo h ++ (dataFor (h + 1) payload).toList := by
  unfold deliveredTo
  rw [hdel, List.filterMap_append]
  cases hdata : dataFor (h + 1) payload <;> simp [hdata]

theorem deliveredTo_eq (hdel : c'.delivered = c.delivered) :
    c'.deliveredTo h = c.deliveredTo h := by
  unfold deliveredTo
  rw [hdel]

/-- The invariant reads four fields of the client, and of the logs only the part of `h`. -/
theorem Written.congr (hd : c.Written h s) (hdel : c'.delivered = c.delivered)
    (hwritten : bodiesFor h c'.written = bodiesFor h c.written)
    (hwrites : bodiesFor h c'.writes = bodiesFor h c.writes)
    (hsess : c'.sessions.get? (h + 1) = c.sessions.get? (h + 1)) : c'.Written h s where
  written := by
    rw [hwritten, deliveredTo_eq hdel]
    exact hd.written
  pending hopen := by
    rw [hsess, hwritten, hwrites, deliveredTo_eq hdel]
    exact hd.pending hopen

/-- A session that has closed only sees its stream go on. -/
theorem Written.shut (hd : c.Written h s) (hshut : ¬ s'.open)
    (hdel : c'.delivered = c.delivered ∨ ∃ payload, c'.delivered = c.delivered ++ [payload])
    (hwritten : bodiesFor h c'.written = bodiesFor h c.written) : c'.Written h s' := by
  refine ⟨?_, fun hopen => absurd hopen hshut⟩
  rw [hwritten]
  rcases hdel with hdel | ⟨payload, hdel⟩
  · rw [deliveredTo_eq hdel]
    exact hd.written
  · rw [deliveredTo_concat hdel]
    exact hd.written.trans (List.prefix_append _ _)

/-- A payload that is no DATA for the open session. -/
theorem Written.skip (hd : c.Written h s) (hdata : s.open → dataFor (h + 1) payload = none)
    (hdel : c'.delivered = c.delivered ++ [payload])
    (hwritten : bodiesFor h c'.written = bodiesFor h c.written)
    (hwrites : bodiesFor h c'.writes = bodiesFor h c.writes)
    (hsess : s.open → c'.sessions.get? (h + 1) = c.sessions.get? (h + 1)) : c'.Written h s := by
  by_cases hopen : s.open
  · have hsame : c'.deliveredTo h = c.deliveredTo h := by
      rw [deliveredTo_concat hdel, hdata hopen, Option.toList_none, List.append_nil]
    refine ⟨?_, fun _ => ?_⟩
    · rw [hwritten, hsame]
      exact hd.written
    · rw [hsess hopen, hwritten, hwrites, hsame]
      exact hd.pending hopen
  · exact hd.shut hopen (.inr ⟨payload, hdel⟩) hwritten

/-- A DATA frame queues its body. -/
theorem Written.data (hd : c.Written h s) (hdata : dataFor (h + 1) payload = some body) :
    Written { c with
      delivered := c.delivered ++ [payload], writes := c.writes ++ [(h, body)] } h s := by
  have hmore : deliveredTo h { c with
      delivered := c.delivered ++ [payload], writes := c.writes ++ [(h, body)] } =
        c.deliveredTo h ++ (dataFor (h + 1) payload).toList := deliveredTo_concat rfl
  rw [hdata] at hmore
  refine ⟨?_, fun hopen => ?_⟩
  · rw [hmore]
    exact hd.written.trans (List.prefix_append _ _)
  · obtain ⟨hreg, hall⟩ := hd.pending hopen
    refine ⟨hreg, ?_⟩
    rw [hmore, ← hall, List.append_assoc, bodiesFor_append, bodiesFor_cons_self]
    rfl

/-! ## Operations -/

/-- A session object is replaced by one that is shut; the others are as they were. -/
theorem WritesOn.setObject (hw : WritesOn h c) {o : Nat} (ho : c.objects[o]? = some s)
    (hid : s'.sessionId = s.sessionId) (hshut : ¬ s'.open) :
    WritesOn h { c with objects := c.objects.set o s' } := by
  refine ⟨hw.1.setObject ho hid, fun s₁ ho₁ => ?_⟩
  obtain ⟨rfl, rfl⟩ | ⟨-, hold⟩ := getElem?_set_cases ho₁
  · exact (hw.2 s ho).shut hshut (.inl rfl) rfl
  · exact (hw.2 s₁ hold).congr rfl rfl rfl rfl

theorem WritesOn.closeWriter (hw : WritesOn h c) (o : Nat) (deactivate : Bool) :
    WritesOn h (c.closeWriter o deactivate) := by
  unfold AetherVPNClient.closeWriter
  split
  · exact hw
  · next s ho => exact hw.setObject ho rfl (by simp [VPNClientSession.open])

theorem WritesOn.deactivate (hw : WritesOn h c) (o : Nat) : WritesOn h (c.deactivate o) := by
  unfold AetherVPNClient.deactivate
  split
  · exact hw
  · next s ho => exact hw.setObject ho rfl (by simp [VPNClientSession.open])

theorem shut_of_closeWriter {deactivate : Bool}
    (ho : (c.closeWriter h deactivate).objects[h]? = some s) : ¬ s.open := by
  unfold AetherVPNClient.closeWriter at ho
  cases hold : c.objects[h]? with
  | none =>
      rw [hold] at ho
      cases hold.symm.trans ho
  | some s₀ =>
      rw [hold] at ho
      obtain ⟨rfl, -⟩ | ⟨hne, -⟩ := getElem?_set_cases ho
      · simp [VPNClientSession.open]
      · exact absurd rfl hne

/-- Removing the entry of a session that is shut. -/
theorem WritesOn.pop (hw : WritesOn h c) (k : Nat)
    (hshut : k = h + 1 → ∀ s, c.objects[h]? = some s → ¬ s.open) :
    WritesOn h { c with sessions := c.sessions.pop k } := by
  refine ⟨hw.1.setSessions fun _ _ hko => (Dict.get?_of_get?_pop hko).2, fun s ho => ?_⟩
  by_cases hk : k = h + 1
  · exact (hw.2 s ho).shut (hshut hk s ho) (.inl rfl) rfl
  · refine (hw.2 s ho).congr rfl rfl rfl ?_
    dsimp only
    rw [Dict.get?_pop, if_neg fun heq => hk heq.symm]

theorem writesOn_stable (p : AetherProtocol) (h : Nat) : Stable p (WritesOn h) where
  setHandler hw _ _ := ⟨hw.1.setHandler _ _, fun s ho => (hw.2 s ho).congr rfl rfl rfl rfl⟩
  chunk h' data hw := ⟨(ids_stable p).chunk h' data hw.1, fun s ho =>
    (hw.2 s ho).congr rfl rfl rfl rfl⟩
  send := by
    intro c payload pathId interfaceIp nowUs hw hframe
    refine ⟨(ids_stable p).send payload pathId interfaceIp nowUs hw.1 hframe, fun s ho => ?_⟩
    have hs := sendToVps_sameLocal p c payload pathId interfaceIp nowUs
    rw [hs.objects] at ho
    exact (hw.2 s ho).congr hs.delivered (by rw [hs.written]) (by rw [hs.writes])
      (by rw [hs.sessions])
  unregister := by
    intro c h' pc hw hpc
    have hlt : h' < c.objects.length := by
      obtain ⟨hlt, -⟩ := List.getElem?_eq_some_iff.mp hpc
      rwa [hw.1.handlers] at hlt
    have hclosed := (hw.closeWriter h' false).pop (h' + 1) fun hk s ho => by
      obtain rfl : h' = h := by omega
      exact shut_of_closeWriter ho
    have heq : c.unregister h' =
        setHandler { c.closeWriter h' false with
          sessions := (c.closeWriter h' false).sessions.pop (h' + 1) } h' .ended := by
      unfold AetherVPNClient.unregister
      rw [sessionId_eq hw.1 hlt, closeWriter_sessions]
      unfold AetherVPNClient.closeWriter
      dsimp only
      split <;> rfl
    rw [heq]
    exact ⟨hclosed.1.setHandler _ _, fun s ho => (hclosed.2 s ho).congr rfl rfl rfl rfl⟩

/-! ## Events -/

theorem WritesOn.accepted (hw : WritesOn h c) {dstAddr : List Char} {dstPort : Nat}
    (hearly : c.objects.length ≤ h → c.deliveredTo h = [])
    (hstep : c.step p (.accepted dstAddr dstPort) = some c') : WritesOn h c' := by
  refine ⟨hw.1.accepted hstep, fun s ho => ?_⟩
  obtain rfl := Option.some.inj hstep
  obtain ⟨rfl, rfl⟩ | hold := getElem?_concat_cases ho
  · -- nothing was delivered for the session, and nothing queued
    have hnone := hearly le_rfl
    refine ⟨?_, fun _ => ?_⟩
    · rw [bodiesFor_eq_nil hw.1.written]
      exact List.nil_prefix
    · rw [bodiesFor_eq_nil hw.1.written, bodiesFor_eq_nil hw.1.writes, hw.1.next]
      exact ⟨Dict.get?_set_self _ _ _, hnone.symm⟩
  · have hlt := (List.getElem?_eq_some_iff.mp hold).1
    refine (hw.2 s hold).congr rfl rfl rfl ?_
    dsimp only
    rw [Dict.get?_set, if_neg]
    rw [hw.1.next]
    omega

theorem WritesOn.deliver (hw : WritesOn h c) (payload : Bytes) :
    WritesOn h (c.handleReorderedServerPacket payload) := by
  have hids := hw.1.deliver payload
  rcases deliver_cases c payload with ⟨heq, hno⟩ | ⟨k, o, body, hget, hp, heq⟩ |
    ⟨k, o, body, hget, hp, heq⟩
  · rw [heq] at hids ⊢
    refine ⟨hids, fun s ho => (hw.2 s ho).skip (fun hopen => ?_) rfl rfl rfl fun _ => rfl⟩
    exact (hno _ _ ((hw.2 s ho).pending hopen).1).1
  · obtain ⟨rfl, -⟩ := hw.1.entry k o hget
    rw [heq] at hids ⊢
    refine ⟨hids, fun s ho => ?_⟩
    by_cases hoh : o = h
    · subst hoh
      refine (hw.2 s ho).data ?_
      rw [dataFor_eq hp, if_pos ⟨rfl, rfl⟩]
    · refine (hw.2 s ho).skip (fun _ => ?_) rfl rfl ?_ fun _ => rfl
      · rw [dataFor_eq hp, if_neg fun h' => hoh (Nat.succ.inj h'.2)]
      · dsimp only
        rw [bodiesFor_append, bodiesFor_cons_of_ne hoh]
        exact List.append_nil _
  · obtain ⟨rfl, -⟩ := hw.1.entry k o hget
    -- the CLOSE is recorded first; it is no DATA
    have hdata : dataFor (h + 1) payload = none := by
      rw [dataFor_eq hp, if_neg fun h' => by cases h'.1]
    have hlog : WritesOn h { c with delivered := c.delivered ++ [payload] } :=
      ⟨⟨hw.1.next, hw.1.handlers, hw.1.id, hw.1.entry, hw.1.written, hw.1.writes⟩, fun s ho =>
        (hw.2 s ho).skip (fun _ => hdata) rfl rfl rfl fun _ => rfl⟩
    have hclosed := (hlog.closeWriter o true).pop (o + 1) fun hk s ho => by
      obtain rfl : o = h := by omega
      exact shut_of_closeWriter ho
    rw [closeWriter_sessions] at hclosed
    rw [heq]
    exact hclosed

/-- What a write task does with the object of its session. -/
structure Wrote (c c' : AetherVPNClient) (o : Nat) (body : Bytes) (s s' : VPNClientSession) :
    Prop where
  objects : c'.objects = c.objects.set o s'
  delivered : c'.delivered = c.delivered
  writes : c'.writes = c.writes
  sessions : c'.sessions = c.sessions
  /-- The body is logged if the session stays open, and never if it was not. -/
  written : c'.written = c.written ++ [(o, body)] ∧ s.open ∨ c'.written = c.written ∧ ¬ s'.open
  shut : s'.open → s.open

theorem write_wrote (ho : c.objects[o]? = some s) (body : Bytes) (outcome : WriteOutcome) :
    ∃ s', Wrote c (c.write o body outcome) o body s s' := by
  have hself : c.objects = c.objects.set o s := by
    obtain ⟨hlt, rfl⟩ := List.getElem?_eq_some_iff.mp ho
    exact (List.set_getElem_self hlt).symm
  have hoff : ∀ c₁ : AetherVPNClient, c₁.objects = c.objects →
      c₁.deactivate o = { c₁ with objects := c.objects.set o { s with active := false } } := by
    intro c₁ hc₁
    unfold AetherVPNClient.deactivate
    rw [hc₁, ho]
  unfold AetherVPNClient.write
  rw [ho]
  dsimp only
  by_cases ha : s.active
  · rw [if_pos ha]
    by_cases hcl : s.writerClosed = false
    · have hopen : s.open := ⟨ha, hcl⟩
      rw [if_neg (by simp [hcl])]
      cases outcome with
      | done => exact ⟨s, hself, rfl, rfl, rfl, .inl ⟨rfl, hopen⟩, id⟩
      | suspends => exact ⟨s, hself, rfl, rfl, rfl, .inl ⟨rfl, hopen⟩, id⟩
      | fails written =>
          cases written with
          | true =>
              dsimp only
              rw [hoff { c with written := c.written ++ [(o, body)] } rfl]
              exact ⟨_, rfl, rfl, rfl, rfl, .inl ⟨rfl, hopen⟩, fun _ => hopen⟩
          | false =>
              dsimp only
              rw [hoff _ rfl]
              exact ⟨_, rfl, rfl, rfl, rfl, .inr ⟨rfl, by simp [VPNClientSession.open]⟩,
                fun _ => hopen⟩
    · have hshut : ¬ s.open := fun hopen => hcl hopen.2
      rw [if_pos (by simpa using hcl)]
      cases outcome with
      | done => exact ⟨s, hself, rfl, rfl, rfl, .inr ⟨rfl, hshut⟩, id⟩
      | suspends => exact ⟨s, hself, rfl, rfl, rfl, .inr ⟨rfl, hshut⟩, id⟩
      | fails written =>
          have hno : ¬ VPNClientSession.open { s with active := false } := by
            simp [VPNClientSession.open]
          cases written <;>
          · dsimp only
            rw [hoff _ rfl]
            exact ⟨_, rfl, rfl, rfl, rfl, .inr ⟨rfl, hno⟩, fun hopen => absurd hopen hno⟩
  · have hshut : ¬ s.open := fun hopen => ha hopen.1
    rw [if_neg ha]
    exact ⟨s, hself, rfl, rfl, rfl, .inr ⟨rfl, hshut⟩, id⟩

theorem WritesOn.write (hw : WritesOn h c) {writes : List (Nat × Bytes)}
    (hwrites : c.writes = (o, body) :: writes) (outcome : WriteOutcome)
    (hids : (AetherVPNClient.write { c with writes := writes } o body outcome).Ids) :
    WritesOn h (AetherVPNClient.write { c with writes := writes } o body outcome) := by
  have hlt : o < c.objects.length :=
    hw.1.writes (o, body) (by rw [hwrites]; exact List.mem_cons_self)
  obtain ⟨s', ht⟩ := write_wrote (c := { c with writes := writes })
    (List.getElem?_eq_getElem hlt) body outcome
  refine ⟨hids, fun s₁ ho₁ => ?_⟩
  rw [ht.objects] at ho₁
  obtain ⟨rfl, rfl⟩ | ⟨hne, hold⟩ := getElem?_set_cases ho₁
  · have hd := hw.2 _ (List.getElem?_eq_getElem hlt)
    rcases ht.written with ⟨hlog, hopen⟩ | ⟨hlog, hshut⟩
    · -- the head of the queue is written
      obtain ⟨hreg, hall⟩ := hd.pending hopen
      rw [hwrites, bodiesFor_cons_self] at hall
      have hmore : bodiesFor h (AetherVPNClient.write { c with writes := writes } h body
          outcome).written = bodiesFor h c.written ++ [body] := by
        rw [hlog, bodiesFor_append, bodiesFor_cons_self]
        rfl
      have hsame := deliveredTo_eq (h := h) ht.delivered
      refine ⟨?_, fun _ => ?_⟩
      · rw [hmore, hsame]
        exact ⟨bodiesFor h writes, by rw [List.append_assoc]; exact hall⟩
      · rw [ht.sessions, ht.writes, hmore, hsame]
        exact ⟨hreg, by rw [List.append_assoc]; exact hall⟩
    · exact hd.shut hshut (.inl ht.delivered) (by rw [hlog])
  · refine (hw.2 s₁ hold).congr ht.delivered ?_ ?_ (by rw [ht.sessions])
    · rcases ht.written with ⟨hlog, -⟩ | ⟨hlog, -⟩
      · rw [hlog, bodiesFor_append, bodiesFor_cons_of_ne (Ne.symm hne)]
        exact List.append_nil _
      · rw [hlog]
    · rw [ht.writes, hwrites, bodiesFor_cons_of_ne (Ne.symm hne)]

theorem WritesOn.stop (hw : WritesOn h c) : WritesOn h c.stop := by
  have hfold : ∀ (l : List Nat) (c : AetherVPNClient), WritesOn h c →
      WritesOn h (l.foldl (fun c o => c.closeWriter o true) c) ∧
        (h ∈ l → ∀ s, (l.foldl (fun c o => c.closeWriter o true) c).objects[h]? = some s →
          ¬ s.open) := by
    intro l
    induction l using List.reverseRecOn with
    | nil => exact fun c hc => ⟨hc, by simp⟩
    | append_singleton l o ih =>
        intro c hc
        obtain ⟨hl, hshut⟩ := ih c hc
        rw [List.foldl_append]
        refine ⟨hl.closeWriter o true, fun hmem s ho => ?_⟩
        by_cases hoh : h = o
        · subst hoh
          exact shut_of_closeWriter ho
        · have hin : h ∈ l := by simpa [hoh] using hmem
          refine hshut hin s ?_
          rw [← ho]
          exact (closeWriter_objects_of_ne hoh true).symm
  obtain ⟨hclosed, hshut⟩ := hfold c.sessions.values c hw
  have hids := hw.1.stop
  unfold AetherVPNClient.stop at hids ⊢
  refine ⟨hids, fun s ho => (hclosed.2 s ho).shut ?_ (.inl rfl) rfl⟩
  -- an open session is registered, so it is among those that were closed
  intro hopen
  obtain ⟨hreg, -⟩ := (hclosed.2 s ho).pending hopen
  obtain ⟨objects, heq⟩ := closeWriters_frame c c.sessions.values
  rw [heq] at hreg
  exact hshut (Dict.mem_values.mpr ⟨h + 1, hreg⟩) s ho hopen

/-- **The step lemma**, where nothing is delivered for a session before it is there. -/
theorem WritesOn.step (hw : WritesOn h c) (hearly : c.objects.length ≤ h → c.deliveredTo h = [])
    {e : Event} (hstep : c.step p e = some c') : WritesOn h c' := by
  have hids := hw.1.step hstep
  cases step_cases hstep with
  | accepted dstAddr dstPort => exact hw.accepted hearly hstep
  | deliver payload => exact hw.deliver payload
  | startWrite hwrites outcome => exact hw.write hwrites outcome hids
  | drained => exact ⟨hids, fun s ho => (hw.2 s ho).congr rfl rfl rfl rfl⟩
  | @drainFails i o =>
      have hless : WritesOn h { c with draining := c.draining.eraseIdx i } :=
        ⟨⟨hw.1.next, hw.1.handlers, hw.1.id, hw.1.entry, hw.1.written, hw.1.writes⟩, fun s ho =>
          (hw.2 s ho).congr rfl rfl rfl rfl⟩
      exact hless.deactivate o
  | stop => exact hw.stop
  | _ =>
      exact (writesOn_stable p h).step hw hstep (by simp) (by simp) (by simp) (by simp) (by simp)

end AetherVPNClient

end AetherBond.Client
