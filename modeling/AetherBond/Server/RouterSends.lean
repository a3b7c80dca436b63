import AetherBond.Server.RouterSteps

set_option autoImplicit false

/-! # What the router's events send to the destinations

Every event but two leaves the sends alone (`step_keeps`): only the start of a DATA task begins
one (`step_start`), and only the return of a suspended one ends one (`step_sent`). What the
router writes is read off these three facts, without looking into the tasks again.
-/

namespace AetherBond.Server

open AetherBond.Lib AetherBond.Common

namespace Router

variable {p : AetherProtocol} {r r' : Router} {t o : Nat} {pc : Pc}

/-- What the task of a payload sends: the body of a DATA frame whose session is active. -/
def sends (r : Router) (payload : Bytes) : Option (UserSpaceSession × Bytes) :=
  match parsePayload payload with
  | some (.data sessionId body) =>
      ((r.sessions.get? sessionId).bind fun o => r.objects[o]?).bind fun s =>
        if s.active then some (s, body) else none
  | _ => none

/-- Nothing was sent and no send began or ended between two states. -/
structure Keeps (r r' : Router) : Prop where
  queue : r'.queue = r.queue
  started : r'.started = r.started
  written : r'.written = r.written
  suspended : r'.suspended = r.suspended

theorem Keeps.refl (r : Router) : r.Keeps r := ⟨rfl, rfl, rfl, rfl⟩

theorem keeps_stable (p : AetherProtocol) (r₀ : Router) :
    Stable p (fun _ => True) (fun _ => True) r₀.Keeps where
  tasks _ _ _ h hsus _ := ⟨h.queue, h.started, h.written, hsus.trans h.suspended⟩
  object _ _ h _ _ := ⟨h.queue, h.started, h.written, h.suspended⟩
  make h _ := ⟨h.queue, h.started, h.written, h.suspended⟩
  pop _ h := ⟨h.queue, h.started, h.written, h.suspended⟩
  clear h := ⟨h.queue, h.started, h.written, h.suspended⟩
  sendBack := by
    intro r o s data isClose nowUs h _
    obtain ⟨responses, heq⟩ :=
      sendBackToClient_frame (p := p) r s.sessionId data s.clientAddr s.pathId isClose nowUs
    rw [heq]
    exact ⟨h.queue, h.started, h.written, h.suspended⟩

theorem keeps_setPc (ht : r.Quiet t) (hs : pc.suspendedSend = none) : r.Keeps (r.setPc t pc) :=
  ⟨rfl, rfl, rfl, filterMap_set _ _ _ _ fun pc' hpc' => (ht pc' hpc').trans hs.symm⟩

/-- Replacing an entry by one without a value drops its value. -/
theorem filterMap_set_none {α β : Type*} (f : α → Option β) (l : List α) (t : Nat) (a b : α)
    (v : β) (hb : l[t]? = some b) (hv : f b = some v) (ha : f a = none) :
    ∃ l₁ l₂, l.filterMap f = l₁ ++ v :: l₂ ∧ (l.set t a).filterMap f = l₁ ++ l₂ := by
  induction l generalizing t with
  | nil => simp at hb
  | cons c l ih =>
      cases t with
      | zero =>
          obtain rfl : c = b := by simpa using hb
          exact ⟨[], l.filterMap f, by rw [List.filterMap_cons_some hv]; rfl,
            by rw [List.set_cons_zero, List.filterMap_cons_none ha]; rfl⟩
      | succ t =>
          obtain ⟨l₁, l₂, h₁, h₂⟩ := ih t (by simpa using hb)
          cases hc : f c with
          | none =>
              exact ⟨l₁, l₂, by rw [List.filterMap_cons_none hc, h₁],
                by rw [List.set_cons_succ, List.filterMap_cons_none hc, h₂]⟩
          | some w =>
              exact ⟨w :: l₁, l₂, by rw [List.filterMap_cons_some hc, h₁]; rfl,
                by rw [List.set_cons_succ, List.filterMap_cons_some hc, h₂]; rfl⟩

/-! ## The events -/

/-- What became of the send of a new task, if it has one. -/
inductive Attempt (r r' : Router) : Option (UserSpaceSession × Bytes) → SendOutcome → Prop
  | nothing {outcome : SendOutcome} :
      r'.written = r.written → r'.suspended = r.suspended → Attempt r r' none outcome
  | writes {s : UserSpaceSession} {body : Bytes} {outcome : SendOutcome} :
      r'.written = r.written ++ [(s, body)] → r'.suspended = r.suspended →
        Attempt r r' (some (s, body)) outcome
  | suspends {s : UserSpaceSession} {body : Bytes} :
      s.protocol = .udp → r'.written = r.written → r'.suspended = r.suspended ++ [(s, body)] →
        Attempt r r' (some (s, body)) .suspends
  | fails {s : UserSpaceSession} {body : Bytes} {w : Bool} :
      r'.written = r.written → r'.suspended = r.suspended →
        Attempt r r' (some (s, body)) (.fails w)

/-- Only what was written and what is suspended counts. -/
theorem Attempt.congr {r₁ r₂ : Router} {x : Option (UserSpaceSession × Bytes)}
    {outcome : SendOutcome} (h : Attempt r₁ r₂ x outcome) (hw : r₁.written = r.written)
    (hs : r₁.suspended = r.suspended) (hw' : r'.written = r₂.written)
    (hs' : r'.suspended = r₂.suspended) : Attempt r r' x outcome := by
  cases h with
  | nothing h₁ h₂ => exact .nothing (hw'.trans (h₁.trans hw)) (hs'.trans (h₂.trans hs))
  | writes h₁ h₂ => exact .writes (by rw [hw', h₁, hw]) (hs'.trans (h₂.trans hs))
  | suspends hudp h₁ h₂ => exact .suspends hudp (hw'.trans (h₁.trans hw)) (by rw [hs', h₂, hs])
  | fails h₁ h₂ => exact .fails (hw'.trans (h₁.trans hw)) (hs'.trans (h₂.trans hs))

theorem Keeps.attempt_nothing (h : r.Keeps r') {outcome : SendOutcome} :
    Attempt r r' none outcome := .nothing h.written h.suspended

/-- `send` in a new task, which is the last one. -/
theorem send_attempt (p : AetherProtocol) {l : List Pc} (hl : r.tasks = l ++ [.ended]) (o : Nat)
    (body : Bytes) (outcome : SendOutcome) :
    (r.send l.length o body outcome).queue = r.queue ∧
      (r.send l.length o body outcome).started = r.started ∧
      Attempt r (r.send l.length o body outcome)
        (r.objects[o]?.bind fun s => if s.active then some (s, body) else none) outcome := by
  have hlast : r.tasks[l.length]? = some .ended := by rw [hl]; simp
  have ht : r.Quiet l.length := quiet_of_pc hlast rfl
  have hend : r.Keeps (r.setPc l.length .ended) := keeps_setPc ht rfl
  have hfail : ∀ r : Router, r.Quiet l.length → r.Keeps (r.sendFailed l.length o) :=
    fun r ht => (keeps_stable p r).sendFailed (Keeps.refl r) ht o
  have hwrite : ∀ (s : UserSpaceSession) (r' : Router), (r.write s body).Keeps r' →
      r'.queue = r.queue ∧ r'.started = r.started ∧ r'.written = r.written ++ [(s, body)] ∧
        r'.suspended = r.suspended := fun s r' h => ⟨h.queue, h.started, h.written, h.suspended⟩
  unfold send
  cases ho : r.objects[o]? with
  | none => exact ⟨hend.queue, hend.started, hend.attempt_nothing⟩
  | some s =>
      rw [Option.bind_some]
      dsimp only
      split_ifs
      · split
        · obtain ⟨hq, hs, hw, hsus⟩ := hwrite s _ (keeps_setPc (r := r.write s body) ht
            (rfl : Pc.suspendedSend .ended = none))
          exact ⟨hq, hs, .writes hw hsus⟩
        · obtain ⟨hq, hs, hw, hsus⟩ := hwrite s _ (keeps_setPc (r := r.write s body) ht
            (rfl : Pc.suspendedSend (.sendDrain o) = none))
          exact ⟨hq, hs, .writes hw hsus⟩
        · next hudp =>
            refine ⟨rfl, rfl, .suspends hudp rfl ?_⟩
            have htasks :
                (r.setPc l.length (.sendTo o s body)).tasks = l ++ [.sendTo o s body] := by
              show r.tasks.set _ _ = _
              rw [hl]
              simp
            unfold Router.suspended
            rw [htasks, hl, List.filterMap_append, List.filterMap_append]
            simp [Pc.suspendedSend]
        · obtain ⟨hq, hs, hw, hsus⟩ := hwrite s _ (hfail (r.write s body) ht)
          exact ⟨hq, hs, .writes hw hsus⟩
        · have hk := hfail r ht
          exact ⟨hk.queue, hk.started, .fails hk.written hk.suspended⟩
      · exact ⟨hend.queue, hend.started, hend.attempt_nothing⟩

/-- **The start of a task** takes the oldest payload off the queue and attempts the send of its
DATA frame. -/
theorem step_start {outcome : SendOutcome} {udpOk : Bool}
    (h : r.step p (.start outcome udpOk) = some r') :
    ∃ packetInfo queue, r.queue = packetInfo :: queue ∧ r'.queue = queue ∧
      r'.started = r.started ++ [packetInfo.1] ∧ Attempt r r' (r.sends packetInfo.1) outcome := by
  cases step_cases h with
  | @start packetInfo queue hq =>
      refine ⟨packetInfo, queue, hq, ?_⟩
      set r₁ : Router := { r with queue := queue, tasks := r.tasks ++ [.ended] } with hr₁
      have hw₁ : r₁.written = r.written := rfl
      -- a task that has just been made suspends nothing
      have hs₁ : r₁.suspended = r.suspended := by
        unfold Router.suspended
        rw [hr₁, List.filterMap_append]
        simp [Pc.suspendedSend]
      have hlast : r₁.tasks[r.tasks.length]? = some .ended := by simp [hr₁]
      have ht : r₁.Quiet r.tasks.length := quiet_of_pc hlast rfl
      have hkeep : ∀ r₂ : Router, r₁.Keeps r₂ → r₂.queue = queue ∧
          Attempt r { r₂ with started := r.started ++ [packetInfo.1] } none outcome :=
        fun r₂ hk => ⟨hk.queue, hk.attempt_nothing.congr hw₁ hs₁ rfl rfl⟩
      unfold processPayload sends
      cases hp : parsePayload packetInfo.1 with
      | none =>
          obtain ⟨hqueue, hatt⟩ := hkeep _ (Keeps.refl r₁)
          exact ⟨hqueue, rfl, hatt⟩
      | some c =>
          cases c with
          | connect sessionId protocol port destIp =>
              obtain ⟨hqueue, hatt⟩ := hkeep _ ((keeps_stable p r₁).acquireLock (Keeps.refl r₁) ht
                (rfl : Pc.suspendedSend (.connectLock _) = none) (by simp) udpOk 0)
              exact ⟨hqueue, rfl, hatt⟩
          | data sessionId body =>
              dsimp only
              cases hk : r.sessions.get? sessionId with
              | none =>
                  obtain ⟨hqueue, hatt⟩ := hkeep _ (Keeps.refl r₁)
                  exact ⟨hqueue, rfl, hatt⟩
              | some o =>
                  obtain ⟨hqueue, -, hatt⟩ := send_attempt (r := r₁) p rfl o body outcome
                  exact ⟨hqueue, rfl, hatt.congr hw₁ hs₁ rfl rfl⟩
          | close sessionId =>
              obtain ⟨hqueue, hatt⟩ := hkeep _ ((keeps_stable p r₁).acquireLock (Keeps.refl r₁) ht
                (rfl : Pc.suspendedSend (.closeLock sessionId) = none) (by simp) udpOk 0)
              exact ⟨hqueue, rfl, hatt⟩

/-- **The return of a suspended send** takes it off the suspended ones, and its bytes are out
unless it raised; the return of `drain` changes nothing. -/
theorem step_sent {ok : Bool} (h : r.step p (.sent t ok) = some r') :
    r'.queue = r.queue ∧ r'.started = r.started ∧
      (r'.written = r.written ∧ r'.suspended = r.suspended ∨
        ∃ x before after, r.suspended = before ++ x :: after ∧ r'.suspended = before ++ after ∧
          (r'.written = if ok then r.written ++ [x] else r.written) ∧
          r.tasks[t]?.bind Pc.suspendedSend = some x) := by
  cases step_cases h with
  | drained hpc =>
      have hk := keeps_setPc (quiet_of_pc hpc rfl) (rfl : Pc.ended.suspendedSend = none)
      exact ⟨hk.queue, hk.started, Or.inl ⟨hk.written, hk.suspended⟩⟩
  | @drainFails t o hpc =>
      have hk := (keeps_stable p r).sendFailed (Keeps.refl r) (quiet_of_pc hpc rfl) o
      exact ⟨hk.queue, hk.started, Or.inl ⟨hk.written, hk.suspended⟩⟩
  | @sentTo t o s body hpc =>
      obtain ⟨before, after, hb, ha⟩ := filterMap_set_none Pc.suspendedSend r.tasks t .ended _
        (s, body) hpc rfl rfl
      exact ⟨rfl, rfl, Or.inr ⟨(s, body), before, after, hb, ha, rfl, by rw [hpc]; rfl⟩⟩
  | @sendToFails t o s body hpc =>
      -- the counter is set after the session was closed, which does not touch this task
      have hk := (keeps_stable p r).closeSession (Keeps.refl r) o
      have hpc' := closeSession_tasks hpc (by simp [Pc.relay]) o
      obtain ⟨before, after, hb, ha⟩ := filterMap_set_none Pc.suspendedSend
        (r.closeSession o).1.tasks t (if (r.closeSession o).2 then .sendClose else .ended) _
        (s, body) hpc' rfl (by split_ifs <;> rfl)
      exact ⟨hk.queue, hk.started, Or.inr ⟨(s, body), before, after,
        hk.suspended.symm.trans hb, ha, hk.written, by rw [hpc]; rfl⟩⟩

/-- **Every other event** keeps the sends, and only a delivery adds to the queue. -/
theorem step_keeps {e : Event} (h : r.step p e = some r')
    (hstart : ∀ outcome udpOk, e ≠ .start outcome udpOk) (hsent : ∀ t ok, e ≠ .sent t ok) :
    r'.started = r.started ∧ r'.written = r.written ∧ r'.suspended = r.suspended ∧
      r'.queue = r.queue ++ e.delivered := by
  by_cases he : ∃ packetInfo, e = .deliver packetInfo
  · obtain ⟨packetInfo, rfl⟩ := he
    obtain rfl := Option.some.inj h
    exact ⟨rfl, rfl, rfl, rfl⟩
  · have hk : r.Keeps r' := (keeps_stable p r).step (Keeps.refl r) h
      (fun packetInfo heq => he ⟨packetInfo, heq⟩) hstart hsent fun _ _ _ _ _ _ => trivial
    refine ⟨hk.started, hk.written, hk.suspended, ?_⟩
    rw [hk.queue]
    cases e <;> simp [Event.delivered] at he ⊢

end Router

end AetherBond.Server
