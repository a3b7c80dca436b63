import AetherBond.Server.RouterUplink

set_option autoImplicit false

/-! # The byte stream of one session

Whatever the tasks do, what is written for session `k` is a part of the DATA frames for `k` in
the order their tasks started (`Tcp.sublist_step`). It is all of them up to some point if the
connection of the session is never opened after a DATA task for it has started (`OpensFirst`):
from then on a frame is dropped only when the session is closed, and it stays closed.

This is about routers whose sessions are all TCP; a UDP send may be overtaken while it is
suspended.
-/

namespace AetherBond.Server

open AetherBond.Lib AetherBond.Common

/-- The payload does not ask for a UDP session. -/
def OnlyTcp (payload : Bytes) : Prop :=
  ∀ sessionId protocol port destIp,
    parsePayload payload = some (.connect sessionId protocol port destIp) → protocol = .tcp

/-- The object a task is opening a connection for. -/
def Pc.opening? : Pc → Option Nat
  | .connectOpen o => some o
  | _ => none

namespace Router

variable {p : AetherProtocol} {r r' : Router} {t o k : Nat} {e : Event} {payload body : Bytes}
  {s : UserSpaceSession}

/-- What was written for session `k`. -/
def writtenTo (k : Nat) (r : Router) : List Bytes :=
  r.written.filterMap fun x => if x.1.sessionId = k then some x.2 else none

/-- The bodies of the DATA frames for session `k` whose tasks have started. -/
def startedFor (k : Nat) (r : Router) : List Bytes := r.started.filterMap (dataFor k)

/-- When the connection of session `k` is opened, no DATA task for it has started. -/
def OpensFirst (k : Nat) (r : Router) : Event → Prop
  | .opened t true => ∀ pc ∈ r.tasks[t]?, ∀ o ∈ pc.opening?, ∀ s ∈ r.objects[o]?,
      s.sessionId = k → r.startedFor k = []
  | _ => True

instance (k : Nat) (r : Router) : ∀ e : Event, Decidable (OpensFirst k r e)
  | .opened _ true => inferInstanceAs (Decidable (∀ _ ∈ _, ∀ _ ∈ _, ∀ _ ∈ _, _ → _))
  | .opened _ false => isTrue trivial
  | .deliver _ | .start _ _ | .resume _ _ _ | .closed _ _ | .sent _ _ | .relayData _ _ _
  | .relayFails _ | .cleanup => isTrue trivial

/-! ## Registered sessions -/

/-- A dictionary entry names an object with that session id; all sessions are TCP, and those
still to be made are not active. -/
structure Plain (r : Router) : Prop where
  entry : ∀ k o, r.sessions.get? k = some o → ∃ s, r.objects[o]? = some s ∧ s.sessionId = k
  carried : ∀ s, r.Carries s → s.protocol = .tcp ∧ s.active = false
  objects : ∀ s ∈ r.objects, s.protocol = .tcp

/-- The session registered under `k`, if any, is not active. -/
def Idle (k : Nat) (r : Router) : Prop :=
  ∀ o s, r.sessions.get? k = some o → r.objects[o]? = some s → s.active = false

theorem Plain.tasks (h : r.Plain) {tasks : List Pc} {r' : Router}
    (hcarry : ∀ pc ∈ tasks, ∀ s ∈ pc.session?,
      r.Carries s ∨ s.protocol = .tcp ∧ s.active = false)
    (htasks : r'.tasks = tasks) (hobjects : r'.objects = r.objects)
    (hsessions : r'.sessions = r.sessions) : r'.Plain := by
  refine ⟨?_, fun s hs => ?_, ?_⟩
  · rw [hobjects, hsessions]
    exact h.entry
  · obtain ⟨pc, hpc, hs⟩ := hs
    rw [htasks] at hpc
    rcases hcarry pc hpc s hs with hold | hfresh
    · exact h.carried s hold
    · exact hfresh
  · rw [hobjects]
    exact h.objects

theorem Plain.object (h : r.Plain) {s s' : UserSpaceSession} (ho : r.objects[o]? = some s)
    (hid : s'.sessionId = s.sessionId) (hproto : s'.protocol = s.protocol) :
    Plain { r with objects := r.objects.set o s' } := by
  obtain ⟨hlt, -⟩ := List.getElem?_eq_some_iff.mp ho
  refine ⟨fun k u hku => ?_, h.carried, fun u hu => ?_⟩
  · obtain ⟨su, hsu, hk⟩ := h.entry k u hku
    by_cases huo : u = o
    · subst huo
      obtain rfl : s = su := Option.some.inj (ho.symm.trans hsu)
      exact ⟨s', List.getElem?_set_self hlt, hid.trans hk⟩
    · exact ⟨su, (List.getElem?_set_ne (Ne.symm huo)).trans hsu, hk⟩
  · rcases List.mem_or_eq_of_mem_set hu with hu | rfl
    · exact h.objects u hu
    · rw [hproto]
      exact h.objects s (List.mem_of_getElem? ho)

theorem Plain.make (h : r.Plain) {s : UserSpaceSession} (hs : s.protocol = .tcp) :
    Plain { r with
      objects := r.objects ++ [s]
      sessions := r.sessions.set s.sessionId r.objects.length } := by
  refine ⟨Dict.forall_get?_set ?_ fun k u _ hold => ?_, h.carried, fun u hu => ?_⟩
  · exact ⟨s, List.getElem?_concat_length, rfl⟩
  · obtain ⟨su, hsu, hid⟩ := h.entry k u hold
    obtain ⟨hlt, -⟩ := List.getElem?_eq_some_iff.mp hsu
    exact ⟨su, (List.getElem?_append_left hlt).trans hsu, hid⟩
  · rcases List.mem_append.mp hu with hu | hu
    · exact h.objects u hu
    · rw [List.mem_singleton.mp hu]
      exact hs

/-- Removing entries. -/
theorem Plain.sessions (h : r.Plain) {sessions : Dict Nat Nat}
    (hsub : ∀ k o, sessions.get? k = some o → r.sessions.get? k = some o) :
    Plain { r with sessions := sessions } :=
  ⟨fun k o hko => h.entry k o (hsub k o hko), h.carried, h.objects⟩

/-- The new CONNECT tasks carry such sessions. -/
def PlainFresh (s : UserSpaceSession) : Prop := s.protocol = .tcp ∧ s.active = false

theorem plain_invariant (p : AetherProtocol) :
    Invariant p PlainFresh (fun _ => True) Plain where
  tasks _ _ _ h _ hcarry := h.tasks hcarry rfl rfl rfl
  object _ _ h ho _ := h.object ho rfl rfl
  make h hc := h.make (h.carried _ hc).1
  pop _ h := h.sessions fun _ _ hko => (Dict.get?_of_get?_pop hko).2
  clear h := h.sessions (by simp)
  sendBack := by
    intro r o s data isClose nowUs h _
    obtain ⟨responses, heq⟩ :=
      sendBackToClient_frame (p := p) r s.sessionId data s.clientAddr s.pathId isClose nowUs
    rw [heq]
    exact ⟨h.entry, h.carried, h.objects⟩
  sends _ _ h hcarry := h.tasks (fun pc hpc s hs => Or.inl (hcarry pc hpc s hs)) rfl rfl rfl
  starts h _ := ⟨h.entry, h.carried, h.objects⟩
  started _ h := ⟨h.entry, h.carried, h.objects⟩

/-- **An idle session stays idle**, unless its connection is opened. -/
theorem plain_idle_invariant (p : AetherProtocol) (k : Nat) :
    Invariant p PlainFresh (fun s => s.sessionId ≠ k) (fun r => r.Plain ∧ r.Idle k) where
  tasks _ _ _ h hsus hcarry := ⟨(plain_invariant p).tasks _ _ _ h.1 hsus hcarry, h.2⟩
  object := by
    intro r o s active relayTask h ho hact
    refine ⟨h.1.object ho rfl rfl, fun u su hku hu => ?_⟩
    by_cases huo : u = o
    · subst huo
      obtain ⟨hlt, heq⟩ := List.getElem?_eq_some_iff.mp hu
      rw [List.getElem_set_self] at heq
      obtain ⟨s₀, hs₀, hid⟩ := h.1.entry k u hku
      obtain rfl : s = s₀ := Option.some.inj (ho.symm.trans hs₀)
      rw [← heq]
      cases active with
      | false => rfl
      | true =>
          -- only a UDP session or one of another id becomes active
          rcases hact rfl with hudp | hne
          · have htcp := h.1.objects s (List.mem_of_getElem? ho)
            rw [hudp] at htcp
            cases htcp
          · exact absurd hid hne
    · exact h.2 u su hku ((List.getElem?_set_ne (Ne.symm huo)).symm.trans hu)
  make := by
    intro r s h hc
    refine ⟨(plain_invariant p).make h.1 hc, fun u su hku hu => ?_⟩
    dsimp only at hu
    obtain ⟨-, rfl⟩ | ⟨-, hold⟩ := Dict.get?_set_cases hku
    · obtain rfl : s = su := by simpa using hu
      exact (h.1.carried s hc).2
    · obtain ⟨s₀, hs₀, -⟩ := h.1.entry k u hold
      obtain ⟨hlt, -⟩ := List.getElem?_eq_some_iff.mp hs₀
      exact h.2 u su hold ((List.getElem?_append_left hlt).symm.trans hu)
  pop j h := ⟨(plain_invariant p).pop j h.1, fun u su hku hu =>
    h.2 u su (Dict.get?_of_get?_pop hku).2 hu⟩
  clear h := ⟨(plain_invariant p).clear h.1, fun u su hku _ => by simp at hku⟩
  sendBack := by
    intro r o s data isClose nowUs h ho
    refine ⟨(plain_invariant p).sendBack data isClose nowUs h.1 ho, ?_⟩
    obtain ⟨responses, heq⟩ :=
      sendBackToClient_frame (p := p) r s.sessionId data s.clientAddr s.pathId isClose nowUs
    rw [heq]
    exact h.2
  sends tasks written h hcarry := ⟨(plain_invariant p).sends tasks written h.1 hcarry, h.2⟩
  starts h hq := ⟨(plain_invariant p).starts h.1 hq, h.2⟩
  started _ h := ⟨(plain_invariant p).started _ h.1, h.2⟩

/-! ## The stream -/

/-- The router of a client that only opens TCP sessions. -/
structure Tcp (r : Router) : Prop extends Plain r where
  queue : ∀ x ∈ r.queue, OnlyTcp x.1
  suspended : r.suspended = []

theorem init_tcp : init.Tcp where
  entry := by simp [init]
  carried := by simp [init, Carries]
  objects := by simp [init]
  queue := by simp [init]
  suspended := rfl

theorem plainFresh_of_queue (h : r.Tcp) :
    ∀ x ∈ r.queue, ∀ s : UserSpaceSession, s.MadeBy x → PlainFresh s := fun x hx _ hs =>
  ⟨h.queue x hx _ _ _ _ hs.payload, hs.active⟩

/-- What the start of a task sends for a registered session. -/
theorem sends_data (h : r.Plain) {s : UserSpaceSession} {body : Bytes}
    (hs : r.sends payload = some (s, body)) :
    dataFor k payload = (if s.sessionId = k then some body else none) ∧ s.protocol = .tcp := by
  unfold sends at hs
  split at hs
  · next sessionId body' hp =>
      obtain ⟨s', hs', hact⟩ := Option.bind_eq_some_iff.mp hs
      obtain ⟨o, hko, ho⟩ := Option.bind_eq_some_iff.mp hs'
      split_ifs at hact
      obtain ⟨rfl, rfl⟩ := Prod.mk.inj (Option.some.inj hact)
      obtain ⟨s₀, hs₀, hid⟩ := h.entry sessionId o hko
      obtain rfl : s' = s₀ := Option.some.inj (ho.symm.trans hs₀)
      refine ⟨?_, h.objects s' (List.mem_of_getElem? ho)⟩
      unfold dataFor
      rw [hp, hid]
  · cases hs

/-- The start of a task writes its body, or nothing. -/
theorem Tcp.start (h : r.Tcp) {outcome : SendOutcome} {udpOk : Bool}
    (hstep : r.step p (.start outcome udpOk) = some r') :
    ∃ packetInfo queue, r.queue = packetInfo :: queue ∧ r'.queue = queue ∧
      r'.started = r.started ++ [packetInfo.1] ∧ r'.suspended = [] ∧
      (r'.written = r.written ∧
          ((∃ s body, r.sends packetInfo.1 = some (s, body)) → ∃ w, outcome = .fails w) ∨
        ∃ s body, r.sends packetInfo.1 = some (s, body) ∧
          r'.written = r.written ++ [(s, body)]) := by
  obtain ⟨packetInfo, queue, hq, hq', hstarted, hatt⟩ := step_start hstep
  refine ⟨packetInfo, queue, hq, hq', hstarted, ?_⟩
  generalize hx : r.sends packetInfo.1 = x at hatt
  cases hatt with
  | nothing hw hsus =>
      refine ⟨hsus.trans h.suspended, Or.inl ⟨hw, ?_⟩⟩
      rintro ⟨s, body, hs⟩
      cases hs
  | writes hw hsus => exact ⟨hsus.trans h.suspended, Or.inr ⟨_, _, rfl, hw⟩⟩
  | suspends hudp hw hsus =>
      have htcp := (sends_data (k := 0) h.toPlain hx).2
      rw [hudp] at htcp
      cases htcp
  | fails hw hsus => exact ⟨hsus.trans h.suspended, Or.inl ⟨hw, fun _ => ⟨_, rfl⟩⟩⟩

/-- Every other event sends nothing. -/
theorem Tcp.keeps (h : r.Tcp) (hstep : r.step p e = some r')
    (hstart : ∀ outcome udpOk, e ≠ .start outcome udpOk) :
    r'.started = r.started ∧ r'.written = r.written ∧ r'.suspended = [] ∧
      r'.queue = r.queue ++ e.delivered := by
  by_cases hsent : ∃ t ok, e = .sent t ok
  · obtain ⟨t, ok, rfl⟩ := hsent
    obtain ⟨hq, hs, hor⟩ := step_sent hstep
    refine ⟨hs, ?_, ?_, hq.trans (List.append_nil _).symm⟩ <;>
      rcases hor with ⟨hw, hsus⟩ | ⟨x, before, after, hsus, -⟩
    · exact hw
    · rw [h.suspended] at hsus
      simp at hsus
    · exact hsus.trans h.suspended
    · rw [h.suspended] at hsus
      simp at hsus
  · obtain ⟨hs, hw, hsus, hq⟩ := step_keeps hstep hstart fun t ok heq => hsent ⟨t, ok, heq⟩
    exact ⟨hs, hw, hsus.trans h.suspended, hq⟩

/-- **The step lemma** of `Tcp`. -/
theorem Tcp.step (h : r.Tcp) (hstep : r.step p e = some r')
    (hdeliver : ∀ x ∈ e.delivered, OnlyTcp x.1) : r'.Tcp := by
  have hplain : r'.Plain := by
    refine (plain_invariant p).step h.toPlain hstep (fun packetInfo _ => ?_)
      (plainFresh_of_queue h) (fun _ _ _ _ _ _ => trivial)
    exact ⟨h.entry, h.carried, h.objects⟩
  by_cases hstart : ∃ outcome udpOk, e = .start outcome udpOk
  · obtain ⟨outcome, udpOk, rfl⟩ := hstart
    obtain ⟨packetInfo, queue, hq, hq', -, hsus, -⟩ := h.start hstep
    refine ⟨hplain, fun x hx => h.queue x ?_, hsus⟩
    rw [hq]
    exact List.mem_cons_of_mem _ (hq' ▸ hx)
  · obtain ⟨-, -, hsus, hq⟩ := h.keeps hstep fun outcome udpOk heq => hstart ⟨outcome, udpOk, heq⟩
    refine ⟨hplain, fun x hx => ?_, hsus⟩
    rw [hq] at hx
    rcases List.mem_append.mp hx with hx | hx
    · exact h.queue x hx
    · exact hdeliver x hx

theorem writtenTo_append (hw : r'.written = r.written ++ [(s, body)]) :
    writtenTo k r' = writtenTo k r ++ if s.sessionId = k then [body] else [] := by
  unfold writtenTo
  rw [hw, List.filterMap_append]
  by_cases hk : s.sessionId = k
  · rw [if_pos hk]
    exact congrArg _ (List.filterMap_cons_some (if_pos hk))
  · rw [if_neg hk]
    exact congrArg _ (List.filterMap_cons_none (if_neg hk))

theorem writtenTo_congr (hw : r'.written = r.written) : writtenTo k r' = writtenTo k r := by
  unfold writtenTo
  rw [hw]

theorem startedFor_append (hs : r'.started = r.started ++ [payload]) :
    startedFor k r' = startedFor k r ++ (dataFor k payload).toList := by
  unfold startedFor
  rw [hs, List.filterMap_append]
  cases hd : dataFor k payload with
  | none => exact congrArg _ (List.filterMap_cons_none hd)
  | some body => exact congrArg _ (List.filterMap_cons_some hd)

theorem startedFor_congr (hs : r'.started = r.started) : startedFor k r' = startedFor k r := by
  unfold startedFor
  rw [hs]

/-- **What is written is a part of what was started**, in the same order. -/
theorem Tcp.sublist_step (h : r.Tcp) (hpart : (writtenTo k r).Sublist (startedFor k r))
    (hstep : r.step p e = some r') : (writtenTo k r').Sublist (startedFor k r') := by
  by_cases hstart : ∃ outcome udpOk, e = .start outcome udpOk
  · obtain ⟨outcome, udpOk, rfl⟩ := hstart
    obtain ⟨packetInfo, queue, -, -, hs, -, ⟨hw, -⟩ | ⟨s, body, hsends, hw⟩⟩ := h.start hstep
    · rw [writtenTo_congr hw, startedFor_append hs]
      exact hpart.trans (List.sublist_append_left _ _)
    · rw [writtenTo_append hw, startedFor_append hs, (sends_data (k := k) h.toPlain hsends).1]
      refine hpart.append ?_
      split_ifs <;> exact List.Sublist.refl _
  · obtain ⟨hs, hw, -, -⟩ := h.keeps hstep fun outcome udpOk heq => hstart ⟨outcome, udpOk, heq⟩
    rw [writtenTo_congr hw, startedFor_congr hs]
    exact hpart

/-! ## No hole -/

/-- What is written is the beginning of what was started; if there is more, it was dropped, and
the session is closed. -/
structure Stream (k : Nat) (r : Router) : Prop where
  prefixed : writtenTo k r <+: startedFor k r
  whole : writtenTo k r = startedFor k r ∨ r.Idle k

theorem init_stream (k : Nat) : Stream k init := ⟨List.prefix_rfl, Or.inl rfl⟩

theorem cancelTask_sessions_objects (r : Router) (t : Nat) :
    (r.cancelTask t).sessions = r.sessions ∧ (r.cancelTask t).objects = r.objects := by
  unfold cancelTask
  split <;> exact ⟨rfl, rfl⟩

/-- `close` leaves the dictionary alone, and the session inactive. -/
theorem closeSession_inactive (r : Router) (o : Nat) :
    (r.closeSession o).1.sessions = r.sessions ∧
      ∀ s, (r.closeSession o).1.objects[o]? = some s → s.active = false := by
  unfold closeSession
  split
  · next hnone =>
      refine ⟨rfl, fun s hs => ?_⟩
      rw [hnone] at hs
      cases hs
  · next s ho =>
      obtain ⟨hlt, -⟩ := List.getElem?_eq_some_iff.mp ho
      by_cases ha : s.active
      · have hoff : ∀ s', (r.deactivate o s).objects[o]? = some s' → s'.active = false := by
          intro s' hs'
          have hself : (r.deactivate o s).objects[o]? = some { s with active := false } :=
            List.getElem?_set_self hlt
          obtain rfl := Option.some.inj (hself.symm.trans hs')
          rfl
        rw [if_pos ha]
        cases s.relayTask with
        | none => exact ⟨rfl, hoff⟩
        | some u =>
            obtain ⟨h₁, h₂⟩ := cancelTask_sessions_objects (r.deactivate o s) u
            refine ⟨h₁, fun s' hs' => hoff s' ?_⟩
            rw [← h₂]
            exact hs'
      · rw [if_neg ha]
        refine ⟨rfl, fun s' hs' => ?_⟩
        obtain rfl : s = s' := Option.some.inj (ho.symm.trans hs')
        exact Bool.not_eq_true _ ▸ ha

/-- A send that raises closes its session. -/
theorem start_fails_idle {w udpOk : Bool} {packetInfo : Bytes × Addr × Nat}
    {queue : List (Bytes × Addr × Nat)} {body : Bytes}
    (hstep : r.step p (.start (.fails w) udpOk) = some r') (hq : r.queue = packetInfo :: queue)
    (hp : parsePayload packetInfo.1 = some (.data k body)) : r'.Idle k := by
  -- `sendFailed` closes the session, and it is the one under `k`
  have hfail : ∀ (r : Router) (t o : Nat), r.sessions.get? k = some o →
      (r.sendFailed t o).Idle k := by
    intro r t o hko u s hku hu
    obtain ⟨hsess, hoff⟩ := closeSession_inactive r o
    obtain rfl : o = u := by
      have hku' : (r.closeSession o).1.sessions.get? k = some u := hku
      rw [hsess] at hku'
      exact Option.some.inj (hko.symm.trans hku')
    exact hoff s hu
  have hend : ∀ {r₁ r₂ : Router}, r₁.Idle k → r₂.sessions = r₁.sessions →
      r₂.objects = r₁.objects → r₂.Idle k := by
    intro r₁ r₂ h hs ho u s hku hu
    exact h u s (hs ▸ hku) (ho ▸ hu)
  unfold Router.step at hstep
  rw [hq] at hstep
  obtain rfl := Option.some.inj hstep
  unfold processPayload
  rw [hp]
  dsimp only
  cases hko : r.sessions.get? k with
  | none =>
      intro u s hku _
      have := hko.symm.trans hku
      cases this
  | some o =>
      unfold send
      dsimp only
      cases ho : r.objects[o]? with
      | none =>
          intro u s hku hu
          obtain rfl : o = u := Option.some.inj (hko.symm.trans hku)
          have := ho.symm.trans hu
          cases this
      | some s =>
          dsimp only
          by_cases ha : s.active
          · let r₁ : Router := { r with queue := queue, tasks := r.tasks ++ [Pc.ended] }
            rw [if_pos ha]
            have hplain := hfail r₁ r.tasks.length o hko
            cases w with
            | false => cases s.protocol <;> exact hend hplain rfl rfl
            | true =>
                cases s.protocol with
                | tcp => exact hend (hfail (r₁.write s body) r.tasks.length o hko) rfl rfl
                | udp => exact hend hplain rfl rfl
          · rw [if_neg ha]
            intro u s' hku hu
            obtain rfl : o = u := Option.some.inj (hko.symm.trans hku)
            obtain rfl : s = s' := Option.some.inj (ho.symm.trans hu)
            exact Bool.not_eq_true _ ▸ ha

/-- Without an active session under `k`, a DATA frame for `k` is dropped. -/
theorem idle_of_sends_eq_none {body : Bytes} (hp : parsePayload payload = some (.data k body))
    (hs : r.sends payload = none) : r.Idle k := by
  intro o s hko ho
  unfold sends at hs
  rw [hp] at hs
  dsimp only at hs
  rw [hko, Option.bind_some, ho, Option.bind_some] at hs
  split_ifs at hs with ha
  exact Bool.not_eq_true _ ▸ ha

/-- An active session is not idle. -/
theorem not_idle_of_sends (ht : r.Tcp) {s : UserSpaceSession} {body : Bytes}
    (hs : r.sends payload = some (s, body)) : ¬ r.Idle s.sessionId := by
  intro hi
  unfold sends at hs
  split at hs
  · next sessionId body' _ =>
      obtain ⟨s', hs', hact⟩ := Option.bind_eq_some_iff.mp hs
      obtain ⟨o, hko, ho⟩ := Option.bind_eq_some_iff.mp hs'
      split_ifs at hact with ha
      obtain ⟨rfl, -⟩ := Prod.mk.inj (Option.some.inj hact)
      obtain ⟨s₀, hs₀, hid⟩ := ht.entry sessionId o hko
      obtain rfl : s' = s₀ := Option.some.inj (ho.symm.trans hs₀)
      rw [← hid] at hko
      rw [hi o s' hko ho] at ha
      cases ha
  · cases hs

/-- A task that writes nothing. If it dropped a body for `k`, session `k` is idle. -/
theorem Stream.drops (h : Stream k r) (hw : r'.written = r.written)
    (hs : r'.started = r.started ++ [payload]) (hkeep : r.Idle k → r'.Idle k)
    (hdrop : ∀ body ∈ dataFor k payload, r'.Idle k) : Stream k r' := by
  have hpre := h.prefixed
  rw [← writtenTo_congr hw] at hpre
  cases hd : dataFor k payload with
  | none =>
      have hsame : startedFor k r' = startedFor k r := by
        rw [startedFor_append hs, hd]
        exact List.append_nil _
      refine ⟨by rw [hsame]; exact hpre, h.whole.imp (fun heq => ?_) hkeep⟩
      rw [hsame, writtenTo_congr hw]
      exact heq
  | some body =>
      refine ⟨?_, Or.inr (hdrop body hd)⟩
      rw [startedFor_append hs]
      exact hpre.trans (List.prefix_append _ _)

/-- A task that writes the body of its frame. -/
theorem Stream.writes (h : Stream k r) (ht : r.Tcp) {s : UserSpaceSession} {body : Bytes}
    (hsends : r.sends payload = some (s, body)) (hw : r'.written = r.written ++ [(s, body)])
    (hs : r'.started = r.started ++ [payload]) (hkeep : r.Idle k → r'.Idle k) : Stream k r' := by
  obtain ⟨hdata, -⟩ := sends_data (k := k) ht.toPlain hsends
  by_cases hk : s.sessionId = k
  · have hwhole : writtenTo k r = startedFor k r :=
      h.whole.resolve_right fun hi => not_idle_of_sends ht hsends (hk ▸ hi)
    have hall : writtenTo k r' = startedFor k r' := by
      calc writtenTo k r' = startedFor k r ++ [body] := by
            rw [writtenTo_append hw, if_pos hk, hwhole]
        _ = startedFor k r' := by
            rw [startedFor_append hs, hdata, if_pos hk]
            rfl
    exact ⟨hall ▸ List.prefix_rfl, Or.inl hall⟩
  · have hw' : writtenTo k r' = writtenTo k r := by
      rw [writtenTo_append hw, if_neg hk, List.append_nil]
    have hs' : startedFor k r' = startedFor k r := by
      rw [startedFor_append hs, hdata, if_neg hk]
      exact List.append_nil _
    refine ⟨by rw [hw', hs']; exact h.prefixed, h.whole.imp (fun heq => ?_) hkeep⟩
    rw [hw', hs', heq]

theorem parsePayload_of_dataFor (hd : dataFor k payload = some body) :
    parsePayload payload = some (.data k body) := by
  unfold dataFor at hd
  split at hd
  · next hp =>
      split_ifs at hd with hk
      rw [hp, hk, Option.some.inj hd]
  · cases hd

/-- **The step lemma** of `Stream`. -/
theorem Stream.step (h : Stream k r) (ht : r.Tcp) (hopens : OpensFirst k r e)
    (hstep : r.step p e = some r') : Stream k r' := by
  have hidle : r.Idle k → (∀ t o s, e = .opened t true →
      r.tasks[t]? = some (Pc.connectOpen o) → r.objects[o]? = some s → s.sessionId ≠ k) →
      r'.Idle k := fun hi hactive =>
    ((plain_idle_invariant p k).step ⟨ht.toPlain, hi⟩ hstep
      (fun _ _ => ⟨⟨ht.entry, ht.carried, ht.objects⟩, hi⟩) (plainFresh_of_queue ht) hactive).2
  by_cases hstart : ∃ outcome udpOk, e = .start outcome udpOk
  · obtain ⟨outcome, udpOk, rfl⟩ := hstart
    have hkeep : r.Idle k → r'.Idle k := fun hi => hidle hi (by simp)
    obtain ⟨packetInfo, queue, hq, -, hs, -, ⟨hw, hfails⟩ | ⟨s, body, hsends, hw⟩⟩ :=
      ht.start hstep
    · refine h.drops hw hs hkeep fun body hd => ?_
      have hp := parsePayload_of_dataFor hd
      -- dropped because no active session was found, or because the send raised
      cases hsends : r.sends packetInfo.1 with
      | none => exact hkeep (idle_of_sends_eq_none hp hsends)
      | some x =>
          obtain ⟨w, rfl⟩ := hfails ⟨x.1, x.2, hsends⟩
          exact start_fails_idle hstep hq hp
    · exact h.writes ht hsends hw hs hkeep
  · obtain ⟨hs, hw, -, -⟩ := ht.keeps hstep fun outcome udpOk heq => hstart ⟨outcome, udpOk, heq⟩
    refine ⟨by rw [writtenTo_congr hw, startedFor_congr hs]; exact h.prefixed, ?_⟩
    rw [writtenTo_congr hw, startedFor_congr hs]
    by_cases hempty : r.startedFor k = []
    · left
      have hpre := h.prefixed
      rw [hempty] at hpre
      rw [List.prefix_nil.mp hpre, hempty]
    · -- a session that has lost a frame is not opened again
      refine h.whole.imp id fun hi => hidle hi ?_
      rintro t o s rfl hpc ho hk
      exact hempty (hopens _ hpc o rfl s ho hk)

end Router

end AetherBond.Server
