import AetherBond.Server.RouterLock
import AetherBond.Server.RouterSteps

set_option autoImplicit false

/-! # The session table

Which entries of `sessions` are of active sessions, and who is told when a session ends.

A CONNECT, a CLOSE and `cleanup` edit the table and close sessions inside the lock, so outside of
it their entries are in order (`Tabled`): between its two updates such a task excuses the entries it
is at work on (`Pc.Excuses`). A session that ends on the server side, in its relay loop or in a
send, is deactivated and nothing else: its entry stays, and no CLOSE frame is ever given to
`encrypt_and_pack`. The table therefore holds only live sessions, with the clients of all others
told, exactly until a session ends on the server side (`run_liveTable_iff`).
-/

namespace AetherBond.Server

open AetherBond.Lib AetherBond.Common

namespace Pc

/-- The entries whose session need not be active while a task is there. -/
def Excuses : Pc → Nat → Nat → Prop
  | .connectClose session, k, _ => k = session.sessionId
  | .connectOpen o, _, u => u = o
  | .connectFailed o, _, u => u = o
  | .cleanupClose _, _, _ => True
  | _, _, _ => False

theorem inside_of_excuses {pc : Pc} {k u : Nat} (h : pc.Excuses k u) : pc.inside := by
  cases pc <;> first | rfl | exact h.elim

theorem not_relay_of_inside {pc : Pc} (h : pc.inside) : ¬ pc.relay := by
  cases pc <;> simp [inside, relay] at h ⊢

end Pc

namespace Router

variable {p : AetherProtocol} {r r' r'' : Router} {t o k : Nat} {pc : Pc} {data : Bytes}

/-! ## The end of a session on the server side -/

/-- Steps of the relay tasks and of the sends. -/
def ServerSide (r : Router) : Event → Prop
  | .relayData _ _ _ => True
  | .relayFails _ => True
  | .sent _ _ => True
  | .start _ _ => ∃ x ∈ r.queue.head?, ∃ sessionId body,
      parsePayload x.1 = some (.data sessionId body)
  | .resume t _ _ => ∃ o data, r.tasks[t]? = some (.relayLock o data)
  | .deliver _ => False
  | .closed _ _ => False
  | .opened _ _ => False
  | .cleanup => False

/-- The object is of an active session. -/
def Active (r : Router) (o : Nat) : Prop := ∃ s, r.objects[o]? = some s ∧ s.active = true

instance (r : Router) (o : Nat) : Decidable (r.Active o) :=
  inferInstanceAs (Decidable (∃ s ∈ r.objects[o]?, s.active = true))

/-- A step of the run is one of the server side, and deactivates the session. -/
def EndedOnServer (p : AetherProtocol) (es : List Event) (o : Nat) : Prop :=
  ∃ pre e post r r', es = pre ++ e :: post ∧ runFrom (Router.step p) init pre = some r ∧
    r.step p e = some r' ∧ r.ServerSide e ∧ r.Active o ∧ ¬ r'.Active o

/-- The entries are of active sessions, and for each session that ended on the server side a CLOSE
frame was given to `encrypt_and_pack`. -/
structure LiveTable (p : AetherProtocol) (es : List Event) (r : Router) : Prop where
  active : ∀ k o, r.sessions.get? k = some o → r.Active o
  notified : ∀ o s, EndedOnServer p es o → r.objects[o]? = some s →
    ∃ call ∈ r.encryptCalls, ∃ body, call.payload = frame 3 s.sessionId body

/-! ## The table -/

/-- Every entry is of an object with its id that is active or in `D`, or excused by `X`; and only
DATA frames were packed. -/
structure Table (r : Router) (D : Nat → Prop) (X : Nat → Nat → Prop) : Prop where
  entry : ∀ k o, r.sessions.get? k = some o →
    ∃ s, r.objects[o]? = some s ∧ s.sessionId = k ∧ ((s.active = true ∨ D o) ∨ X k o)
  dataOnly : ∀ call ∈ r.encryptCalls, ∃ k data, call.payload = frame 2 k data

/-- The entries are excused by the tasks that are inside a critical section. -/
def Tabled (r : Router) (D : Nat → Prop) : Prop :=
  r.Table D fun k u => ∃ (t : Nat) (pc : Pc), r.tasks[t]? = some pc ∧ pc.Excuses k u

/-- Nothing was edited in the table or in the objects, and only DATA frames were packed. -/
structure Quietly (r r' : Router) : Prop where
  sessions : r'.sessions = r.sessions
  objects : r'.objects = r.objects
  calls : ∀ call ∈ r'.encryptCalls, call ∈ r.encryptCalls ∨
    ∃ k data, call.payload = frame 2 k data

/-- The tasks inside a critical section are where they were. -/
def KeepsInside (r r' : Router) : Prop :=
  ∀ (u : Nat) (pc : Pc), r.tasks[u]? = some pc → pc.inside → r'.tasks[u]? = some pc

/-- What a step of the server side does: at most one active session is deactivated. -/
structure Served (r r' : Router) : Prop where
  sessions : r'.sessions = r.sessions
  objects : r'.objects = r.objects ∨ ∃ o s, r.objects[o]? = some s ∧ s.active = true ∧
    r'.objects = r.objects.set o { s with active := false }
  calls : ∀ call ∈ r'.encryptCalls, call ∈ r.encryptCalls ∨
    ∃ k data, call.payload = frame 2 k data
  inside : r.KeepsInside r'

theorem Quietly.refl (r : Router) : r.Quietly r := ⟨rfl, rfl, fun _ => .inl⟩

theorem Quietly.served (h : r.Quietly r') (hinside : r.KeepsInside r') : r.Served r' :=
  ⟨h.sessions, .inl h.objects, h.calls, hinside⟩

theorem calls_trans (h : ∀ call ∈ r'.encryptCalls, call ∈ r.encryptCalls ∨
      ∃ k data, call.payload = frame 2 k data)
    (h' : ∀ call ∈ r''.encryptCalls, call ∈ r'.encryptCalls ∨
      ∃ k data, call.payload = frame 2 k data) :
    ∀ call ∈ r''.encryptCalls, call ∈ r.encryptCalls ∨
      ∃ k data, call.payload = frame 2 k data :=
  fun call hcall => (h' call hcall).elim (h call) .inr

theorem Quietly.then (h : r.Quietly r') (hinside : r.KeepsInside r') (h' : r'.Served r'') :
    r.Served r'' where
  sessions := h'.sessions.trans h.sessions
  objects := by
    have hobjects := h'.objects
    rw [h.objects] at hobjects
    exact hobjects
  calls := calls_trans h.calls h'.calls
  inside u pc hu hin := h'.inside u pc (hinside u pc hu hin) hin

theorem Served.then (h : r.Served r') (h' : r'.Quietly r'') (hinside : r'.KeepsInside r'') :
    r.Served r'' where
  sessions := h'.sessions.trans h.sessions
  objects := by
    rw [h'.objects]
    exact h.objects
  calls := calls_trans h.calls h'.calls
  inside u pc hu hin := hinside u pc (h.inside u pc hu hin) hin

/-- Moving a task that is not inside a critical section. -/
theorem keepsInside_set (hpc : r.tasks[t]? = some pc) (hin : ¬ pc.inside)
    (pc' : Pc) (htasks : r'.tasks = r.tasks.set t pc') : r.KeepsInside r' := by
  intro u pcu hu hinu
  have hne : u ≠ t := by
    rintro rfl
    obtain rfl : pc = pcu := Option.some.inj (hpc.symm.trans hu)
    exact hin hinu
  rw [htasks, List.getElem?_set_ne hne.symm]
  exact hu

/-! ## Closing a session -/

theorem cancelTask_quietly (r : Router) (u : Nat) : r.Quietly (r.cancelTask u) := by
  unfold Router.cancelTask
  split <;> exact ⟨rfl, rfl, fun _ => .inl⟩

/-- `close` leaves the table alone and deactivates at most its own object. -/
theorem closeSession_effect (r : Router) (o : Nat) :
    r.Quietly (r.closeSession o).1 ∨ ∃ s, r.objects[o]? = some s ∧ s.active = true ∧
      (r.deactivate o s).Quietly (r.closeSession o).1 := by
  obtain heq | ⟨s, ho, hactive, heq | ⟨u, heq⟩⟩ := closeSession_cases r o
  · rw [heq]
    exact .inl (Quietly.refl r)
  · rw [heq]
    exact .inr ⟨s, ho, hactive, Quietly.refl _⟩
  · rw [heq]
    exact .inr ⟨s, ho, hactive, cancelTask_quietly _ u⟩

theorem keepsInside_closeSession (r : Router) (o : Nat) :
    r.KeepsInside (r.closeSession o).1 :=
  fun _ _ hu hin => closeSession_tasks hu (Pc.not_relay_of_inside hin) o

theorem closeSession_served (r : Router) (o : Nat) : r.Served (r.closeSession o).1 := by
  obtain h | ⟨s, ho, hactive, h⟩ := closeSession_effect r o
  · exact h.served (keepsInside_closeSession r o)
  · exact ⟨h.sessions, .inr ⟨o, s, ho, hactive, h.objects⟩, h.calls, keepsInside_closeSession r o⟩

/-! ## The server side -/

theorem setPc_quietly (r : Router) (t : Nat) (pc : Pc) : r.Quietly (r.setPc t pc) :=
  ⟨rfl, rfl, fun _ => .inl⟩

theorem keepsInside_setPc (hpc : r.tasks[t]? = some pc) (hin : ¬ pc.inside) (pc' : Pc) :
    r.KeepsInside (r.setPc t pc') := keepsInside_set hpc hin pc' rfl

theorem relayEnds_served (hpc : r.tasks[t]? = some (Pc.relayRead o)) (u : Nat) :
    r.Served (r.relayEnds t u) :=
  (setPc_quietly r t .ended).then (keepsInside_setPc hpc (by simp [Pc.inside]) _)
    (closeSession_served _ u)

theorem sendFailed_served (hpc : r.tasks[t]? = some pc) (hin : ¬ pc.inside) (hrelay : ¬ pc.relay)
    (o : Nat) : r.Served (r.sendFailed t o) :=
  (closeSession_served r o).then (setPc_quietly _ t _)
    (keepsInside_setPc (closeSession_tasks hpc hrelay o) hin _)

/-- A DATA response: its frame is packed. -/
theorem sendBackToClient_quietly (r : Router) (sessionId : Nat) (data : Bytes) (clientAddr : Addr)
    (pathId : Nat) (nowUs : Int) :
    r.Quietly (r.sendBackToClient p sessionId data clientAddr pathId false nowUs).1 := by
  have hcalls : ∀ call ∈ r.encryptCalls ++ [⟨frame 2 sessionId data, r.nextSeqOut, pathId, nowUs⟩],
      call ∈ r.encryptCalls ∨ ∃ k data, call.payload = frame 2 k data := by
    intro call hcall
    refine (List.mem_append.mp hcall).imp_right fun hlast => ⟨sessionId, data, ?_⟩
    rw [List.mem_singleton.mp hlast]
  obtain ⟨responses, heq⟩ :=
    sendBackToClient_frame (p := p) r sessionId data clientAddr pathId false nowUs
  rw [heq]
  exact ⟨rfl, rfl, hcalls⟩

theorem relaySend_served (hpc : r.tasks[t]? = some (Pc.relayLock o data)) (u : Nat) (data' : Bytes)
    (nowUs : Int) : r.Served (r.relaySend p t u data' nowUs) := by
  have hin : ¬ (Pc.relayLock o data).inside := by simp [Pc.inside]
  unfold relaySend
  cases hs : r.objects[u]? with
  | none =>
      exact Quietly.served ⟨rfl, rfl, fun _ => .inl⟩ (keepsInside_set hpc hin .ended rfl)
  | some s =>
      have hquiet := (sendBackToClient_quietly (p := p) (r.setPc t (.relayRead u)) s.sessionId data'
        s.clientAddr s.pathId nowUs)
      have htasks := sendBackToClient_tasks (p := p) (r.setPc t (.relayRead u)) s.sessionId data'
        s.clientAddr s.pathId false nowUs
      have hkeep : r.KeepsInside ((r.setPc t (.relayRead u)).sendBackToClient p s.sessionId data'
          s.clientAddr s.pathId false nowUs).1 := keepsInside_set hpc hin (.relayRead u) htasks
      have hall : r.Quietly ((r.setPc t (.relayRead u)).sendBackToClient p s.sessionId data'
          s.clientAddr s.pathId false nowUs).1 := ⟨hquiet.sessions, hquiet.objects, hquiet.calls⟩
      dsimp only
      split_ifs
      · refine hall.then hkeep (relayEnds_served (o := u) ?_ u)
        rw [htasks]
        exact List.getElem?_set_self (List.getElem?_eq_some_iff.mp hpc).1
      · exact hall.served hkeep

/-- A relay task with a response arrives at the lock. -/
theorem acquireLock_relay_served (hpc : r.tasks[t]? = some (Pc.relayRead o)) (data : Bytes)
    (nowUs : Int) : r.Served (r.acquireLock p t (.relayLock o data) true nowUs) := by
  have hin : ¬ (Pc.relayRead o).inside := by simp [Pc.inside]
  have hkeep : r.KeepsInside (r.arrive t (.relayLock o data)) := keepsInside_set hpc hin _ rfl
  have hquiet : r.Quietly (r.arrive t (.relayLock o data)) := ⟨rfl, rfl, fun _ => .inl⟩
  have hat : (r.arrive t (.relayLock o data)).tasks[t]? = some (Pc.relayLock o data) :=
    List.getElem?_set_self (List.getElem?_eq_some_iff.mp hpc).1
  rcases acquireLock_cases (p := p) r t (.relayLock o data) true nowUs with heq | ⟨-, henters⟩
  · rw [heq]
    exact hquiet.served hkeep
  · rw [henters.relay_eq hat]
    exact hquiet.then hkeep (relaySend_served hat o data nowUs)

theorem send_served (hpc : r.tasks[t]? = some .ended) (o : Nat) (body : Bytes)
    (outcome : SendOutcome) : r.Served (r.send t o body outcome) := by
  have hin : ¬ Pc.ended.inside := by simp [Pc.inside]
  have hrelay : ¬ Pc.ended.relay := by simp [Pc.relay]
  have hset : ∀ (s : UserSpaceSession) (pc : Pc), r.Served ((r.write s body).setPc t pc) :=
    fun s pc => Quietly.served ⟨rfl, rfl, fun _ => .inl⟩ (keepsInside_set hpc hin pc rfl)
  have hstay : ∀ pc : Pc, r.Served (r.setPc t pc) :=
    fun pc => (setPc_quietly r t pc).served (keepsInside_setPc hpc hin pc)
  have hfail : ∀ s : UserSpaceSession, r.Served ((r.write s body).sendFailed t o) := by
    intro s
    have hwrite : r.Quietly (r.write s body) := ⟨rfl, rfl, fun _ => .inl⟩
    exact hwrite.then (fun _ _ hu _ => hu)
      (sendFailed_served (r := r.write s body) hpc hin hrelay o)
  unfold send
  split
  · exact hstay _
  · split_ifs
    · split
      · exact hset _ _
      · exact hset _ _
      · exact hstay _
      · exact hfail _
      · exact sendFailed_served hpc hin hrelay o
    · exact hstay _

/-- **Steps of the server side.** -/
theorem step_served {e : Event} (hside : r.ServerSide e) (hstep : r.step p e = some r') :
    r.Served r' := by
  cases step_cases hstep with
  | deliver packetInfo => exact hside.elim
  | closedConnect => exact hside.elim
  | closedClose => exact hside.elim
  | closedSend => exact hside.elim
  | closedCleanup => exact hside.elim
  | opened => exact hside.elim
  | refused => exact hside.elim
  | cleanup => exact hside.elim
  | @start packetInfo queue hq outcome udpOk =>
      obtain ⟨x, hx, sessionId, body, hparse⟩ := hside
      rw [hq, List.head?_cons] at hx
      obtain rfl : packetInfo = x := Option.some.inj hx
      have hlast : (r.tasks ++ [Pc.ended])[r.tasks.length]? = some .ended :=
        List.getElem?_concat_length
      set r₁ : Router := { r with queue := queue, tasks := r.tasks ++ [.ended] } with hr₁
      have hnew : r.KeepsInside r₁ := by
        intro u pc hu _
        obtain ⟨hlt, -⟩ := List.getElem?_eq_some_iff.mp hu
        exact (List.getElem?_append_left hlt).trans hu
      have hquiet : r.Quietly r₁ := ⟨rfl, rfl, fun _ => .inl⟩
      have hpayload : r₁.Served (r₁.processPayload p r.tasks.length packetInfo outcome udpOk) := by
        unfold processPayload
        simp only [hparse]
        split
        · exact (Quietly.refl r₁).served fun _ _ hu _ => hu
        · exact send_served hlast _ _ _
      exact (hquiet.then hnew hpayload).then ⟨rfl, rfl, fun _ => .inl⟩ fun _ _ hu _ => hu
  | resume _ _ henters =>
      obtain ⟨o, data, hpc⟩ := hside
      rw [henters.relay_eq hpc]
      exact relaySend_served hpc _ _ _
  | drained hpc =>
      exact (setPc_quietly r _ _).served (keepsInside_setPc hpc (by simp [Pc.inside]) _)
  | drainFails hpc => exact sendFailed_served hpc (by simp [Pc.inside]) (by simp [Pc.relay]) _
  | sentTo hpc =>
      exact Quietly.served ⟨rfl, rfl, fun _ => .inl⟩
        (keepsInside_set hpc (by simp [Pc.inside]) .ended rfl)
  | sendToFails hpc => exact sendFailed_served hpc (by simp [Pc.inside]) (by simp [Pc.relay]) _
  | relayEof hpc => exact relayEnds_served hpc _
  | relayChunk hpc _ nowUs => exact acquireLock_relay_served hpc _ nowUs
  | relayFails hpc => exact relayEnds_served hpc _

/-! ## The critical sections -/

variable {D D' : Nat → Prop} {X Y : Nat → Nat → Prop} {session : UserSpaceSession}

theorem Table.mono (h : r.Table D X) (hsub : ∀ k u, X k u → Y k u) : r.Table D Y where
  entry k u hku := by
    obtain ⟨s, hs, hid, hor⟩ := h.entry k u hku
    exact ⟨s, hs, hid, hor.imp_right (hsub k u)⟩
  dataOnly := h.dataOnly

theorem Table.quietly (h : r.Table D X) (hquiet : r.Quietly r') : r'.Table D X where
  entry := by
    rw [hquiet.sessions, hquiet.objects]
    exact h.entry
  dataOnly call hcall := (hquiet.calls call hcall).elim (h.dataOnly call) id

/-- One object changes, and keeps its number; its entry is in order, or excused. -/
theorem Table.setObject (h : r.Table D X) (ho : r.objects[o]? = some session)
    {session' : UserSpaceSession} (hid : session'.sessionId = session.sessionId)
    (hother : ∀ k u, u ≠ o → X k u → Y k u) (hself : ∀ k, session'.active = true ∨ Y k o) :
    Table { r with objects := r.objects.set o session' } D Y := by
  refine ⟨fun k u hku => ?_, h.dataOnly⟩
  obtain ⟨s, hs, hnumber, hor⟩ := h.entry k u hku
  by_cases hu : u = o
  · subst hu
    obtain rfl : session = s := Option.some.inj (ho.symm.trans hs)
    obtain ⟨hlt, -⟩ := List.getElem?_eq_some_iff.mp ho
    exact ⟨session', List.getElem?_set_self hlt, hid.trans hnumber, (hself k).imp_left .inl⟩
  · exact ⟨s, (List.getElem?_set_ne (Ne.symm hu)).trans hs, hnumber,
      hor.imp_right (hother k u hu)⟩

/-- Closing a session excuses its entry. -/
theorem Table.closeSession (h : r.Table D X) (o : Nat) :
    (r.closeSession o).1.Table D fun k u => X k u ∨ u = o := by
  obtain hquiet | ⟨s₀, ho, -, hquiet⟩ := closeSession_effect r o
  · exact (h.mono fun _ _ => .inl).quietly hquiet
  · have hoff : (r.deactivate o s₀).Table D fun k u => X k u ∨ u = o :=
      h.setObject ho rfl (fun _ _ _ => .inl) fun _ => .inr (.inr rfl)
    exact hoff.quietly hquiet

/-- Two entries of one object have one key. -/
theorem Table.key_unique (h : r.Table D X) {k' u : Nat} (hk : r.sessions.get? k = some u)
    (hk' : r.sessions.get? k' = some u) : k = k' := by
  obtain ⟨s, hs, hid, -⟩ := h.entry k u hk
  obtain ⟨s', hs', hid', -⟩ := h.entry k' u hk'
  obtain rfl : s = s' := Option.some.inj (hs.symm.trans hs')
  exact hid.symm.trans hid'

theorem Table.tabled (h : r.Table D fun _ _ => False) : r.Tabled D := h.mono fun _ _ hno => hno.elim

theorem Table.tabled_of_pc (hpc : r.tasks[t]? = some pc) (h : r.Table D pc.Excuses) : r.Tabled D :=
  h.mono fun _ _ hexcuses => ⟨t, pc, hpc, hexcuses⟩

theorem Table.leave (h : r.Table D fun _ _ => False) (t : Nat) : (r.leave t).Tabled D := by
  have hleft : (r.leave t).Table D fun _ _ => False := h.quietly ⟨rfl, rfl, fun _ => .inl⟩
  exact hleft.tabled

/-- A task goes on inside its critical section. -/
theorem Table.setPc {pc' : Pc} (h : r.Table D pc'.Excuses) (hpc : r.tasks[t]? = some pc) :
    (r.setPc t pc').Tabled D :=
  (h.quietly (setPc_quietly r t pc')).tabled_of_pc
    (List.getElem?_set_self (List.getElem?_eq_some_iff.mp hpc).1)

theorem Table.connectSucceeded (h : r.Table D fun _ u => u = o) (t : Nat) :
    (r.connectSucceeded t o).Tabled D := by
  unfold Router.connectSucceeded
  cases ho : r.objects[o]? with
  | none =>
      -- no entry is of an object that does not exist
      refine Table.leave ⟨fun k u hku => ?_, h.dataOnly⟩ t
      obtain ⟨s, hs, hid, hor⟩ := h.entry k u hku
      refine ⟨s, hs, hid, .inl (hor.resolve_right fun hu => ?_)⟩
      rw [hu, ho] at hs
      cases hs
  | some s₀ =>
      have hon : Table { r with
          objects := r.objects.set o
            { s₀ with active := true, relayTask := some r.tasks.length } } D fun _ _ => False :=
        h.setObject ho rfl (fun _ _ hu heq => hu heq) fun _ => .inl rfl
      have hrelay : Table { r with
          objects := r.objects.set o { s₀ with active := true, relayTask := some r.tasks.length }
          tasks := r.tasks ++ [Pc.relayRead o] } D fun _ _ => False :=
        hon.quietly ⟨rfl, rfl, fun _ => .inl⟩
      exact hrelay.leave t

theorem Table.connectFails (hpc : r.tasks[t]? = some pc) (h : r.Table D fun _ u => u = o) :
    (r.connectFails t o).Tabled D :=
  have hself : (r.connectFails t o).tasks[t]? = some (.connectFailed o) :=
    List.getElem?_set_self (List.getElem?_eq_some_iff.mp hpc).1
  Table.tabled_of_pc hself (h.quietly ⟨rfl, rfl, fun _ => .inl⟩)

theorem Table.makeSession (hpc : r.tasks[t]? = some pc)
    (h : r.Table D fun k _ => k = session.sessionId) (udpOk : Bool) :
    (r.makeSession t session udpOk).Tabled D := by
  have hmade : Table { r with
      objects := r.objects ++ [session]
      sessions := r.sessions.set session.sessionId r.objects.length } D
      fun _ u => u = r.objects.length := by
    refine ⟨Dict.forall_get?_set ?_ fun k u hk hold => ?_, h.dataOnly⟩
    · exact ⟨session, List.getElem?_concat_length, rfl, .inr rfl⟩
    -- what was excused is the entry that has been replaced
    · obtain ⟨s, hs, hid, hor⟩ := h.entry k u hold
      obtain ⟨hlt, -⟩ := List.getElem?_eq_some_iff.mp hs
      exact ⟨s, (List.getElem?_append_left hlt).trans hs, hid, .inl (hor.resolve_right hk)⟩
  unfold Router.makeSession
  dsimp only
  split
  · have hopen : Table { r with
        objects := r.objects ++ [session]
        sessions := r.sessions.set session.sessionId r.objects.length } D
        (Pc.connectOpen r.objects.length).Excuses := hmade
    exact hopen.setPc hpc
  · split_ifs
    · exact hmade.connectSucceeded t
    · exact Table.connectFails hpc hmade

theorem Table.connect (h : r.Table D fun _ _ => False)
    (hpc : r.tasks[t]? = some (Pc.connectLock session)) (udpOk : Bool) :
    (r.connect t session udpOk).Tabled D := by
  unfold Router.connect
  cases hk : r.sessions.get? session.sessionId with
  | none => exact Table.makeSession hpc (h.mono fun _ _ hno => hno.elim) udpOk
  | some o =>
      have hpc' := closeSession_tasks hpc (by simp [Pc.relay]) o
      have hsessions := (closeSession_served r o).sessions
      -- what is excused is the entry of the object, and that is the one to be replaced
      have hclosed : (r.closeSession o).1.Table D fun k _ => k = session.sessionId := by
        have htable := h.closeSession o
        refine ⟨fun k u hku => ?_, htable.dataOnly⟩
        obtain ⟨s, hs, hid, hor⟩ := htable.entry k u hku
        refine ⟨s, hs, hid, hor.imp_right fun hu => ?_⟩
        obtain rfl : u = o := hu.resolve_left id
        rw [hsessions] at hku
        exact h.key_unique hku hk
      dsimp only
      split_ifs
      · exact hclosed.setPc hpc'
      · exact Table.makeSession hpc' hclosed udpOk

theorem Table.close (h : r.Table D fun _ _ => False) (hpc : r.tasks[t]? = some pc)
    (hrelay : ¬ pc.relay) (sessionId : Nat) : (r.close t sessionId).Tabled D := by
  unfold Router.close
  cases hk : r.sessions.get? sessionId with
  | none => exact h.leave t
  | some o =>
      have hpop : Table { r with sessions := r.sessions.pop sessionId } D fun _ _ => False :=
        ⟨fun k u hku => h.entry k u (Dict.get?_of_get?_pop hku).2, h.dataOnly⟩
      have hpc' := closeSession_tasks (r := { r with sessions := r.sessions.pop sessionId }) hpc
        hrelay o
      have hsessions := (closeSession_served
        { r with sessions := r.sessions.pop sessionId } o).sessions
      -- the object of the entry that is gone has no other
      have hclosed :
          (Router.closeSession { r with sessions := r.sessions.pop sessionId } o).1.Table D
            fun _ _ => False := by
        have htable := hpop.closeSession o
        refine ⟨fun k u hku => ?_, htable.dataOnly⟩
        obtain ⟨s, hs, hid, hor⟩ := htable.entry k u hku
        refine ⟨s, hs, hid, .inl (hor.resolve_right fun hu => ?_)⟩
        obtain rfl : u = o := hu.resolve_left id
        rw [hsessions] at hku
        obtain ⟨hne, hold⟩ := Dict.get?_of_get?_pop hku
        exact hne (h.key_unique hold hk)
      dsimp only
      split_ifs
      · exact hclosed.setPc hpc'
      · exact hclosed.leave t

theorem Table.cleanupLoop (hpc : r.tasks[t]? = some pc) (hrelay : ¬ pc.relay)
    (h : r.Table D fun _ _ => True) (rest : List Nat) : (r.cleanupLoop t rest).Tabled D := by
  induction rest generalizing r with
  | nil =>
      have hempty : Table { r with sessions := .empty } D fun _ _ => False :=
        ⟨fun k u hku => (nomatch hku), h.dataOnly⟩
      exact hempty.leave t
  | cons o rest ih =>
      have hpc' := closeSession_tasks hpc hrelay o
      have hclosed := (h.closeSession o).mono fun _ _ _ => trivial
      unfold Router.cleanupLoop
      dsimp only
      split_ifs
      · exact hclosed.setPc hpc'
      · exact ih hpc' hclosed

/-! ## Steps -/

theorem Tabled.quietly (h : r.Tabled D) (hquiet : r.Quietly r') (hinside : r.KeepsInside r') :
    r'.Tabled D :=
  (Table.mono h fun _ _ ⟨t, pc, hpc, hexcuses⟩ =>
    ⟨t, pc, hinside t pc hpc (Pc.inside_of_excuses hexcuses), hexcuses⟩).quietly hquiet

/-- Seen from the task that holds the lock nobody else excuses an entry. -/
theorem Tabled.of_owner (h : r.Tabled D) (hlocked : r.Locked) (howner : r.lock.owner = some t)
    (hpc : r.tasks[t]? = some pc) : r.Table D pc.Excuses := by
  refine Table.mono h fun k u ⟨t', pc', hpc', hexcuses⟩ => ?_
  have hinside := hlocked.inside t' pc' hpc' (Pc.inside_of_excuses hexcuses)
  -- whoever excuses an entry is inside, and so is the owner
  obtain rfl : t = t' := Option.some.inj (howner.symm.trans hinside)
  obtain rfl : pc = pc' := Option.some.inj (hpc.symm.trans hpc')
  exact hexcuses

/-- A task other than a relay goes on with the lock. -/
theorem Tabled.enter (h : r.Tabled D) (hlocked : r.Locked) (howner : r.lock.owner = some t)
    (hw : t ∉ r.lock.waiters) (hrelay : ∀ o data, r.tasks[t]? ≠ some (.relayLock o data))
    {udpOk : Bool} {nowUs : Int} (henters : Enters p r t udpOk nowUs r') : r'.Tabled D := by
  have htable : ∀ {pc}, r.tasks[t]? = some pc → r.Table D pc.Excuses :=
    fun hpc => h.of_owner hlocked howner hpc
  cases henters with
  | connect hpc => exact Table.connect (htable hpc) hpc udpOk
  | connectFailed hpc => exact absurd ((LockInv.selfWait hlocked t howner).mpr ⟨_, hpc⟩) hw
  | close hpc => exact Table.close (htable hpc) hpc (by simp [Pc.relay]) _
  | relay hpc => exact absurd hpc (hrelay _ _)
  | cleanup hpc =>
      exact Table.cleanupLoop hpc (by simp [Pc.relay]) ((htable hpc).mono fun _ _ _ => trivial) _

/-- A new task arrives at the lock. -/
theorem Tabled.acquireLock (h : r.Tabled D) (hlocked : r.Locked)
    (hpc : r.tasks[t]? = some .ended) (hat : pc.atLock) (hin : ¬ pc.inside)
    (hrelay : ∀ o data, pc ≠ .relayLock o data) (udpOk : Bool) (nowUs : Int) :
    (r.acquireLock p t pc udpOk nowUs).Tabled D := by
  obtain ⟨ho, hw⟩ := LockInv.outside hlocked hpc (by simp [Pc.atLock]) (by simp [Pc.inside])
  have hself : (r.tasks.set t pc)[t]? = some pc :=
    List.getElem?_set_self (List.getElem?_eq_some_iff.mp hpc).1
  have h' : Tabled (r.arrive t pc) D :=
    h.quietly ⟨rfl, rfl, fun _ => .inl⟩ (keepsInside_set hpc (by simp [Pc.inside]) pc rfl)
  obtain ⟨hlocked', heq | ⟨howner, hw', henters⟩⟩ :=
    hlocked.acquireLock_cases (p := p) hpc ho hw hat hin udpOk nowUs
  · rw [heq]
    exact h'
  · refine h'.enter hlocked' howner hw' (fun o data heq => ?_) henters
    exact hrelay o data (Option.some.inj (hself.symm.trans heq))

theorem Tabled.newTask (h : r.Tabled D) (queue : List (Bytes × Addr × Nat)) (pc : Pc) :
    Tabled { r with queue := queue, tasks := r.tasks ++ [pc] } D :=
  h.quietly ⟨rfl, rfl, fun _ => .inl⟩ fun _ _ hu _ =>
    (List.getElem?_append_left (List.getElem?_eq_some_iff.mp hu).1).trans hu

/-- A session that ends on the server side keeps its entry. -/
theorem Tabled.served (h : r.Tabled D) (hserved : r.Served r')
    (hended : ∀ o, r.Active o → r'.Active o ∨ D o) : r'.Tabled D := by
  obtain heq | ⟨o, s₀, ho, hactive, heq⟩ := hserved.objects
  · exact h.quietly ⟨hserved.sessions, heq, hserved.calls⟩ hserved.inside
  -- one session ended in the step, so its object is in `D`
  obtain ⟨hlt, -⟩ := List.getElem?_eq_some_iff.mp ho
  have hoff : r'.objects[o]? = some { s₀ with active := false } := by
    rw [heq, List.getElem?_set_self hlt]
  have hD : D o := by
    refine (hended o ⟨s₀, ho, hactive⟩).resolve_left ?_
    rintro ⟨s, hs, hon⟩
    rw [← Option.some.inj (hoff.symm.trans hs)] at hon
    cases hon
  refine ⟨fun k u hku => ?_, fun call hcall => (hserved.calls call hcall).elim (h.dataOnly call) id⟩
  rw [hserved.sessions] at hku
  obtain ⟨s, hs, hid, hor⟩ := h.entry k u hku
  by_cases hu : u = o
  · subst hu
    obtain rfl : s₀ = s := Option.some.inj (ho.symm.trans hs)
    exact ⟨_, hoff, hid, .inl (.inr hD)⟩
  · refine ⟨s, ?_, hid, hor.imp_right ?_⟩
    · rw [heq, List.getElem?_set_ne (Ne.symm hu)]
      exact hs
    · rintro ⟨t, pc, hpc, hexcuses⟩
      exact ⟨t, pc, hserved.inside t pc hpc (Pc.inside_of_excuses hexcuses), hexcuses⟩

/-- **Step lemma**: every step keeps the table in order, but for the sessions in `D`, if those it
ends on the server side are there. -/
theorem Tabled.step (h : r.Tabled D) (hlocked : r.Locked) {e : Event}
    (hstep : r.step p e = some r')
    (hended : r.ServerSide e → ∀ o, r.Active o → r'.Active o ∨ D o) : r'.Tabled D := by
  by_cases hside : r.ServerSide e
  · exact h.served (step_served hside hstep) (hended hside)
  have hlast : ∀ l : List Pc, (l ++ [Pc.ended])[l.length]? = some .ended :=
    fun _ => List.getElem?_concat_length
  have htable : ∀ {t : Nat} {pc : Pc}, r.tasks[t]? = some pc → pc.inside → r.Table D pc.Excuses :=
    fun hpc hin => h.of_owner hlocked (hlocked.inside _ _ hpc hin) hpc
  cases step_cases hstep with
  | drained => exact absurd trivial hside
  | drainFails => exact absurd trivial hside
  | sentTo => exact absurd trivial hside
  | sendToFails => exact absurd trivial hside
  | relayEof => exact absurd trivial hside
  | relayChunk => exact absurd trivial hside
  | relayFails => exact absurd trivial hside
  | deliver packetInfo => exact h.quietly ⟨rfl, rfl, fun _ => .inl⟩ fun _ _ hu _ => hu
  | @start packetInfo queue hq outcome udpOk =>
      have hnew := h.newTask queue .ended
      have hlocked' : Locked { r with queue := queue, tasks := r.tasks ++ [.ended] } :=
        LockInv.append hlocked (by simp [Pc.inside])
      have hpayload : (processPayload p { r with queue := queue, tasks := r.tasks ++ [.ended] }
          r.tasks.length packetInfo outcome udpOk).Tabled D := by
        unfold processPayload
        split
        · exact hnew
        · exact hnew.acquireLock hlocked' (hlast r.tasks) rfl (by simp [Pc.inside]) (by simp) _ _
        · next sessionId body hparse =>
            exact absurd ⟨packetInfo, by rw [hq]; rfl, sessionId, body, hparse⟩ hside
        · exact hnew.acquireLock hlocked' (hlast r.tasks) rfl (by simp [Pc.inside]) (by simp) _ _
      exact hpayload.quietly ⟨rfl, rfl, fun _ => .inl⟩ fun _ _ hu _ => hu
  | resume howner hwaits henters =>
      exact h.enter hlocked howner hwaits (fun o data hpc => hside ⟨o, data, hpc⟩) henters
  | closedConnect hpc => exact Table.makeSession hpc (htable hpc rfl) _
  | closedClose hpc => exact Table.leave ((htable hpc rfl).mono fun _ _ hno => hno.elim) _
  | closedSend hpc =>
      exact h.quietly (setPc_quietly r _ _) (keepsInside_setPc hpc (by simp [Pc.inside]) _)
  | closedCleanup hpc => exact Table.cleanupLoop hpc (by simp [Pc.relay]) (htable hpc rfl) _
  | opened hpc => exact Table.connectSucceeded (htable hpc rfl) _
  | refused hpc => exact Table.connectFails hpc (htable hpc rfl)
  | cleanup =>
      have hlocked' : Locked { r with tasks := r.tasks ++ [.ended] } :=
        LockInv.append hlocked (by simp [Pc.inside])
      exact (h.newTask r.queue .ended).acquireLock hlocked' (hlast r.tasks) rfl
        (by simp [Pc.inside]) (by simp) _ _

/-! ## Runs -/

theorem Tabled.mono (h : r.Tabled D) (hsub : ∀ o, D o → D' o) : r.Tabled D' where
  entry k u hku := by
    obtain ⟨s, hs, hid, hor⟩ := h.entry k u hku
    exact ⟨s, hs, hid, hor.imp_left (Or.imp_right (hsub u))⟩
  dataOnly := h.dataOnly

theorem EndedOnServer.append {es : List Event} (h : EndedOnServer p es o) (e : Event) :
    EndedOnServer p (es ++ [e]) o := by
  obtain ⟨pre, e', post, r, r', rfl, hrest⟩ := h
  exact ⟨pre, e', post ++ [e], r, r', by simp, hrest⟩

/-- **Run lemma**: outside of the critical sections only the sessions that ended on the server side
have an entry without being active, and no CLOSE frame is ever packed. -/
theorem tabled_of_run {es : List Event} (hrun : runFrom (Router.step p) init es = some r) :
    r.Tabled (EndedOnServer p es) := by
  induction es using List.reverseRecOn generalizing r with
  | nil =>
      obtain rfl : init = r := Option.some.inj hrun
      exact ⟨fun _ _ hku => (nomatch hku), fun _ hcall => (nomatch hcall)⟩
  | append_singleton es e ih =>
      obtain ⟨r₀, hrun₀, hlast⟩ := runFrom_append_eq_some.mp hrun
      obtain ⟨r₁, hstep, hnil⟩ := runFrom_cons_eq_some.mp hlast
      obtain rfl : r₁ = r := Option.some.inj hnil
      have h := (ih hrun₀).mono fun o ho => ho.append e
      refine h.step (locked_of_run hrun₀) hstep fun hside o hactive => ?_
      by_cases hactive' : r₁.Active o
      · exact .inl hactive'
      · exact .inr ⟨es, e, [], r₀, r₁, rfl, hrun₀, hstep, hside, hactive, hactive'⟩

/-- The router keeps its session objects. -/
theorem made_invariant (p : AetherProtocol) (o : Nat) :
    Invariant p (fun _ => True) (fun _ => True) fun r => o < r.objects.length where
  tasks _ _ _ h _ _ := h
  object _ _ h _ _ := by rwa [List.length_set]
  make h _ := by
    rw [List.length_append]
    exact Nat.lt_add_right _ h
  pop _ h := h
  clear h := h
  sendBack := by
    intro r _ s data isClose nowUs h _
    obtain ⟨responses, heq⟩ :=
      sendBackToClient_frame (p := p) r s.sessionId data s.clientAddr s.pathId isClose nowUs
    rw [heq]
    exact h
  sends _ _ h _ := h
  starts h _ := h
  started _ h := h

theorem made_of_run {es : List Event} (ho : o < r.objects.length)
    (hrun : runFrom (Router.step p) r es = some r') : o < r'.objects.length :=
  runFrom_invariant (I := fun r => o < r.objects.length) (fun _ _ _ h hstep =>
    (made_invariant p o).step h hstep (fun _ _ => h) (fun _ _ _ _ => trivial)
      fun _ _ _ _ _ _ => trivial) ho hrun

theorem EndedOnServer.made {es : List Event} (h : EndedOnServer p es o)
    (hrun : runFrom (Router.step p) init es = some r) : ∃ s, r.objects[o]? = some s := by
  obtain ⟨pre, e, post, r₁, r₂, rfl, hrun₁, -, -, ⟨s, hs, -⟩, -⟩ := h
  obtain ⟨hlt, -⟩ := List.getElem?_eq_some_iff.mp hs
  obtain ⟨r₁', hrun₁', hrest⟩ := runFrom_append_eq_some.mp hrun
  obtain rfl : r₁ = r₁' := Option.some.inj (hrun₁.symm.trans hrun₁')
  exact ⟨_, List.getElem?_eq_getElem (made_of_run hlt hrest)⟩

theorem frame_close_ne (k k' : Nat) (body body' : Bytes) : frame 3 k body ≠ frame 2 k' body' := by
  unfold frame
  simp

/-- **The table holds only live sessions, and the clients of all others were told**, exactly until a
session ends on the server side: in every run of the router, whenever no task is inside the lock. -/
theorem run_liveTable_iff (p : AetherProtocol) (es : List Event) (r : Router)
    (hrun : runFrom (Router.step p) init es = some r)
    (hout : ∀ (t : Nat) (pc : Pc), r.tasks[t]? = some pc → ¬ pc.inside) :
    r.LiveTable p es ↔ ∀ o, ¬ EndedOnServer p es o := by
  have htabled := tabled_of_run hrun
  constructor
  · intro hlive o hended
    obtain ⟨s, hs⟩ := hended.made hrun
    obtain ⟨call, hcall, body, hclose⟩ := hlive.notified o s hended hs
    obtain ⟨k, data, hdata⟩ := htabled.dataOnly call hcall
    exact frame_close_ne _ _ _ _ (hclose.symm.trans hdata)
  · intro hnone
    refine ⟨fun k o hko => ?_, fun o s hended => absurd hended (hnone o)⟩
    obtain ⟨s, hs, -, hor⟩ := htabled.entry k o hko
    have hnot : ¬ ∃ (t : Nat) (pc : Pc), r.tasks[t]? = some pc ∧ pc.Excuses k o :=
      fun ⟨t, pc, hpc, hexcuses⟩ => hout t pc hpc (Pc.inside_of_excuses hexcuses)
    exact ⟨s, hs, (hor.resolve_right hnot).resolve_right (hnone o)⟩

/-- Where no step deactivates a session, none ends on the server side. -/
theorem not_endedOnServer {es : List Event}
    (h : Along (Router.step p) (fun r e => ∀ r' ∈ r.step p e, ∀ o < r.objects.length,
      r.Active o → r'.Active o) init es) (o : Nat) : ¬ EndedOnServer p es o := by
  rintro ⟨pre, e, post, r, r', rfl, hpre, hstep, -, hactive, hoff⟩
  obtain ⟨hkeeps, -⟩ := (along_append.mp h).2 r hpre
  have hlt : o < r.objects.length := by
    obtain ⟨s, hs, -⟩ := hactive
    exact (List.getElem?_eq_some_iff.mp hs).1
  exact hoff (hkeeps r' hstep o hlt hactive)

/-- A session that connects and carries a response. -/
theorem run_liveTable_connected :
    ∃ r, runFrom (Router.step (.new .checksum [1])) init
        [.deliver (frame 1 7 [1, 0, 80, 97], ("10.0.0.1", 4000), 0), .start .done true,
          .opened 0 true, .relayData 1 [104, 105] 5] = some r ∧
      r.LiveTable (.new .checksum [1])
        [.deliver (frame 1 7 [1, 0, 80, 97], ("10.0.0.1", 4000), 0), .start .done true,
          .opened 0 true, .relayData 1 [104, 105] 5] := by
  obtain ⟨r, hrun⟩ := Option.isSome_iff_exists.mp (show (runFrom
    (Router.step (.new .checksum [1])) init
    [.deliver (frame 1 7 [1, 0, 80, 97], ("10.0.0.1", 4000), 0), .start .done true,
      .opened 0 true, .relayData 1 [104, 105] 5]).isSome by decide)
  have htasks : (some r).map Router.tasks = some [Pc.ended, Pc.relayRead 0] := by
    rw [← hrun]
    decide
  refine ⟨r, hrun, (run_liveTable_iff _ _ _ hrun fun t pc hpc => ?_).mpr
    (not_endedOnServer (by decide))⟩
  rw [Option.some.inj htasks] at hpc
  have hmem := List.mem_of_getElem? hpc
  simp only [List.mem_cons, List.not_mem_nil, or_false] at hmem
  obtain rfl | rfl := hmem <;> simp [Pc.inside]

/-- A destination that closes its connection: the session is over, and its entry stays. -/
theorem destination_eof_not_liveTable :
    ¬ ∀ (p : AetherProtocol) (es : List Event) (r : Router),
      runFrom (Router.step p) init es = some r →
      (∀ (t : Nat) (pc : Pc), r.tasks[t]? = some pc → ¬ pc.inside) → r.LiveTable p es := by
  intro h
  obtain ⟨r, hrun⟩ := Option.isSome_iff_exists.mp (show (runFrom
    (Router.step (.new .checksum [1])) init
    [.deliver (frame 1 7 [1, 0, 80, 97], ("10.0.0.1", 4000), 0), .start .done true,
      .opened 0 true, .relayData 1 [] 5]).isSome by decide)
  have hend : (some r).map (fun r => (r.tasks, r.sessions.get? 7, (r.objects[0]?).map
      UserSpaceSession.active)) = some ([Pc.ended, Pc.ended], some 0, some false) := by
    rw [← hrun]
    decide
  obtain ⟨htasks, hrest⟩ := Prod.mk.inj (Option.some.inj hend)
  obtain ⟨hentry, hinactive⟩ := Prod.mk.inj hrest
  have hlive := h _ _ r hrun fun t pc hpc => by
    rw [htasks] at hpc
    have hmem := List.mem_of_getElem? hpc
    simp only [List.mem_cons, List.not_mem_nil, or_false, or_self] at hmem
    rw [hmem]
    simp [Pc.inside]
  obtain ⟨s, hs, hactive⟩ := hlive.active 7 0 hentry
  rw [hs, Option.map_some, hactive] at hinactive
  cases hinactive

end Router

end AetherBond.Server
