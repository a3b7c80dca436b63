import AetherBond.Server.RouterLock
import AetherBond.Server.RouterSteps

set_option autoImplicit false

/-! # A connect that is pending

CONNECT awaits `open_connection` inside `async with self._lock`, as CLOSE and `cleanup` await
`wait_closed` there: whoever edits the session table has it for himself until he is through. So
while a connect is pending its task has the lock (`Behind`), and whatever else needs the lock, a
response chunk of another session that is to get its number or a CLOSE, joins the queue. What does
not need it goes on, DATA to the destinations above all.

The queue is first come first served, and when the connect is made the first waiter goes on at
once (`run_connecting_headOfLine`).
-/

namespace AetherBond.Server

open AetherBond.Lib AetherBond.Common

namespace Router

variable {p : AetherProtocol} {r r' r'' : Router} {t u o : Nat} {pc : Pc}

/-- Task `t` has the lock and awaits `open_connection` for the object `o`. -/
structure Connecting (r : Router) (t o : Nat) : Prop where
  pending : r.tasks[t]? = some (Pc.connectOpen o)
  owner : r.lock.owner = some t

/-- What stays as it is behind the back of task `t`: the table, the counter and what was sent. -/
structure Behind (r : Router) (t : Nat) (r' : Router) : Prop where
  sessions : r'.sessions = r.sessions
  nextSeqOut : r'.nextSeqOut = r.nextSeqOut
  encryptCalls : r'.encryptCalls = r.encryptCalls
  responses : r'.responses = r.responses
  lock : r.lock.Kept r'.lock
  pending : ∀ o, r.tasks[t]? = some (Pc.connectOpen o) → r'.tasks[t]? = some (Pc.connectOpen o)

theorem Behind.refl (r : Router) (t : Nat) : r.Behind t r :=
  ⟨rfl, rfl, rfl, rfl, .refl _, fun _ hpc => hpc⟩

theorem Behind.trans (h : r.Behind t r') (h' : r'.Behind t r'') : r.Behind t r'' where
  sessions := h'.sessions.trans h.sessions
  nextSeqOut := h'.nextSeqOut.trans h.nextSeqOut
  encryptCalls := h'.encryptCalls.trans h.encryptCalls
  responses := h'.responses.trans h.responses
  lock := h.lock.trans h'.lock
  pending o hpc := h'.pending o (h.pending o hpc)

theorem Connecting.behind (h : r.Connecting t o) (hbehind : r.Behind t r') :
    r'.Connecting t o :=
  ⟨hbehind.pending o h.pending, hbehind.lock.owner.trans h.owner⟩

theorem Connecting.ne (h : r.Connecting t o) (hpc : r.tasks[u]? = some pc)
    (hne : pc ≠ .connectOpen o) : t ≠ u := by
  rintro rfl
  exact hne (Option.some.inj (hpc.symm.trans h.pending))

/-- Nobody else is inside a critical section. -/
theorem Connecting.not_inside (h : r.Connecting t o) (hlocked : r.Locked)
    (hpc : r.tasks[u]? = some pc) (hne : pc ≠ .connectOpen o) : ¬ pc.inside := by
  intro hin
  have howner := hlocked.inside u pc hpc hin
  exact h.ne hpc hne (Option.some.inj (h.owner.symm.trans howner))

/-! ## Behind the lock -/

theorem setPc_behind (hne : t ≠ u) (r : Router) (pc : Pc) : r.Behind t (r.setPc u pc) :=
  ⟨rfl, rfl, rfl, rfl, .refl _, fun _ hpc => (List.getElem?_set_ne hne.symm).trans hpc⟩

theorem Connecting.cancelTask (h : r.Connecting t o) (u : Nat) : r.Behind t (r.cancelTask u) := by
  unfold Router.cancelTask
  split
  · next hpc => exact setPc_behind (h.ne hpc (by simp)) r _
  · next hpc =>
      have hne := h.ne hpc (by simp)
      -- a relay task that waits leaves the queue
      refine ⟨rfl, rfl, rfl, rfl, FairLock.kept_cancel ?_, (setPc_behind hne r _).pending⟩
      rw [h.owner]
      exact fun heq => hne (Option.some.inj heq)
  · exact .refl r t

theorem Connecting.closeSession (h : r.Connecting t o) (o' : Nat) :
    r.Behind t (r.closeSession o').1 := by
  have hoff : ∀ s, r.Behind t (r.deactivate o' s) :=
    fun _ => ⟨rfl, rfl, rfl, rfl, .refl _, fun _ hpc => hpc⟩
  obtain heq | ⟨s, -, -, heq | ⟨u, heq⟩⟩ := closeSession_cases r o' <;> rw [heq]
  · exact .refl r t
  · exact hoff s
  · exact (hoff s).trans ((h.behind (hoff s)).cancelTask u)

theorem Connecting.sendFailed (h : r.Connecting t o) (hne : t ≠ u) (o' : Nat) :
    r.Behind t (r.sendFailed u o') :=
  (h.closeSession o').trans (setPc_behind hne _ _)

theorem Connecting.relayEnds (h : r.Connecting t o) (hne : t ≠ u) (o' : Nat) :
    r.Behind t (r.relayEnds u o') := by
  have hset := setPc_behind hne r .ended
  exact hset.trans ((h.behind hset).closeSession o')

theorem Connecting.send (h : r.Connecting t o) (hne : t ≠ u) (o' : Nat) (body : Bytes)
    (outcome : SendOutcome) : r.Behind t (r.send u o' body outcome) := by
  have hwrite : ∀ s, r.Behind t (r.write s body) :=
    fun _ => ⟨rfl, rfl, rfl, rfl, .refl _, fun _ hpc => hpc⟩
  have hset : ∀ s pc, r.Behind t ((r.write s body).setPc u pc) :=
    fun s pc => (hwrite s).trans (setPc_behind hne _ pc)
  unfold Router.send
  split
  · exact setPc_behind hne r _
  · split_ifs
    · split
      · exact hset _ _
      · exact hset _ _
      · exact setPc_behind hne r _
      · exact (hwrite _).trans ((h.behind (hwrite _)).sendFailed hne o')
      · exact h.sendFailed hne o'
    · exact setPc_behind hne r _

theorem Connecting.acquireLock (h : r.Connecting t o) (hne : t ≠ u) (pc : Pc) (udpOk : Bool)
    (nowUs : Int) : r.Behind t (r.acquireLock p u pc udpOk nowUs) ∧
      (r.acquireLock p u pc udpOk nowUs).lock.waiters = r.lock.waiters ++ [u] := by
  have hheld : r.lock.owner ≠ none := by
    rw [h.owner]
    simp
  rw [acquireLock_of_held h.owner hne]
  exact ⟨⟨rfl, rfl, rfl, rfl, FairLock.kept_acquire hheld u, (setPc_behind hne r pc).pending⟩,
    (FairLock.acquire_of_held hheld u).2⟩

/-! ## Steps -/

theorem newTask_behind (r : Router) (t : Nat) (queue : List (Bytes × Addr × Nat)) (pc : Pc) :
    r.Behind t { r with queue := queue, tasks := r.tasks ++ [pc] } :=
  ⟨rfl, rfl, rfl, rfl, .refl _, fun _ hpc =>
    (List.getElem?_append_left (List.getElem?_eq_some_iff.mp hpc).1).trans hpc⟩

theorem Connecting.lt (h : r.Connecting t o) : t < r.tasks.length :=
  (List.getElem?_eq_some_iff.mp h.pending).1

theorem Connecting.processPayload (h : r.Connecting t o) (hne : t ≠ u)
    (packetInfo : Bytes × Addr × Nat) (outcome : SendOutcome) (udpOk : Bool) :
    r.Behind t (r.processPayload p u packetInfo outcome udpOk) := by
  unfold Router.processPayload
  split
  · exact .refl r t
  · exact (h.acquireLock hne _ _ _).1
  · split
    · exact .refl r t
    · exact h.send hne _ _ _
  · exact (h.acquireLock hne _ _ _).1

/-- **Step lemma**: but for the return of the connect, every step leaves the table, the counter and
what was sent as they are. -/
theorem Connecting.step (h : r.Connecting t o) (hlocked : r.Locked) {e : Event}
    (hopened : ∀ ok, e ≠ .opened t ok) (hstep : r.step p e = some r') : r.Behind t r' := by
  have hnew : ∀ queue, r.Behind t { r with queue := queue, tasks := r.tasks ++ [.ended] } :=
    fun queue => newTask_behind r t queue .ended
  cases step_cases hstep with
  | deliver packetInfo => exact ⟨rfl, rfl, rfl, rfl, .refl _, fun _ hpc => hpc⟩
  | @start packetInfo queue _ outcome udpOk =>
      have hpayload := (h.behind (hnew queue)).processPayload (p := p) h.lt.ne packetInfo outcome
        udpOk
      have hstarted := (hnew queue).trans hpayload
      exact ⟨hstarted.sessions, hstarted.nextSeqOut, hstarted.encryptCalls, hstarted.responses,
        hstarted.lock, hstarted.pending⟩
  | resume howner hwaits henters =>
      -- the owner is in `open_connection`, so nobody is woken
      obtain rfl := Option.some.inj (h.owner.symm.trans howner)
      cases henters with
      | connect hpc => cases hpc.symm.trans h.pending
      | connectFailed hpc => cases hpc.symm.trans h.pending
      | close hpc => cases hpc.symm.trans h.pending
      | relay hpc => cases hpc.symm.trans h.pending
      | cleanup hpc => cases hpc.symm.trans h.pending
  | closedConnect hpc => exact absurd rfl (h.not_inside hlocked hpc (by simp))
  | closedClose hpc => exact absurd rfl (h.not_inside hlocked hpc (by simp))
  | closedSend hpc => exact setPc_behind (h.ne hpc (by simp)) r _
  | closedCleanup hpc => exact absurd rfl (h.not_inside hlocked hpc (by simp))
  | opened hpc =>
      obtain rfl := Option.some.inj (h.owner.symm.trans (hlocked.inside _ _ hpc rfl))
      exact absurd rfl (hopened true)
  | refused hpc =>
      obtain rfl := Option.some.inj (h.owner.symm.trans (hlocked.inside _ _ hpc rfl))
      exact absurd rfl (hopened false)
  | drained hpc => exact setPc_behind (h.ne hpc (by simp)) r _
  | drainFails hpc => exact h.sendFailed (h.ne hpc (by simp)) _
  | sentTo hpc =>
      exact ⟨rfl, rfl, rfl, rfl, .refl _, (setPc_behind (h.ne hpc (by simp)) r .ended).pending⟩
  | sendToFails hpc => exact h.sendFailed (h.ne hpc (by simp)) _
  | relayEof hpc => exact h.relayEnds (h.ne hpc (by simp)) _
  | relayChunk hpc => exact (h.acquireLock (h.ne hpc (by simp)) _ _ _).1
  | relayFails hpc => exact h.relayEnds (h.ne hpc (by simp)) _
  | cleanup =>
      have hwait := (h.behind (hnew r.queue)).acquireLock (p := p) h.lt.ne .cleanupLock true 0
      exact (hnew r.queue).trans hwait.1

/-- **Run lemma**: until the connect returns, the table, the counter and what was sent are as they
were, and the queue for the lock keeps its order. -/
theorem Connecting.run {es : List Event} (h : r.Connecting t o) (hlocked : r.Locked)
    (hopened : ∀ ok, .opened t ok ∉ es) (hrun : runFrom (Router.step p) r es = some r') :
    r.Behind t r' := by
  induction es generalizing r with
  | nil =>
      obtain rfl : r = r' := Option.some.inj hrun
      exact .refl r t
  | cons e es ih =>
      obtain ⟨r₁, hstep, hrest⟩ := runFrom_cons_eq_some.mp hrun
      have hbehind := h.step hlocked
        (fun ok heq => hopened ok (heq ▸ List.mem_cons_self)) hstep
      exact hbehind.trans (ih (h.behind hbehind) (hlocked.step hstep)
        (fun ok hin => hopened ok (List.mem_cons_of_mem _ hin)) hrest)

/-! ## The head of the line -/

/-- The session whose connect task `t` awaits holds up the others, and they hold their places. -/
structure HeadOfLine (p : AetherProtocol) (r : Router) (t : Nat) : Prop where
  owner : r.lock.owner = some t
  behind : ∀ es r', (∀ ok, .opened t ok ∉ es) → runFrom (Router.step p) r es = some r' →
    r.Behind t r'
  /-- A response chunk that is read joins the queue. -/
  chunk : ∀ u o data nowUs, r.tasks[u]? = some (Pc.relayRead o) → r.endOfStream o data = false →
    ∃ r', r.step p (.relayData u data nowUs) = some r' ∧
      r'.tasks[u]? = some (Pc.relayLock o data) ∧ r'.lock.waiters = r.lock.waiters ++ [u]
  /-- So does a CLOSE. -/
  close : ∀ packetInfo queue sessionId outcome udpOk, r.queue = packetInfo :: queue →
    parsePayload packetInfo.1 = some (.close sessionId) →
    ∃ r', r.step p (.start outcome udpOk) = some r' ∧
      r'.tasks[r.tasks.length]? = some (Pc.closeLock sessionId) ∧
      r'.lock.waiters = r.lock.waiters ++ [r.tasks.length]
  /-- DATA to a destination does not wait. -/
  data : ∀ packetInfo queue sessionId body o s udpOk, r.queue = packetInfo :: queue →
    parsePayload packetInfo.1 = some (.data sessionId body) →
    r.sessions.get? sessionId = some o → r.objects[o]? = some s → s.active = true →
    ∃ r', r.step p (.start .done udpOk) = some r' ∧ r'.written = r.written ++ [(s, body)]
  /-- When the connect is made the first chunk in the queue gets the next number, -/
  chunkNext : ∀ u us o s data udpOk nowUs, r.lock.waiters = u :: us →
    r.tasks[u]? = some (Pc.relayLock o data) → r.objects[o]? = some s →
    ∃ r' r'', r.step p (.opened t true) = some r' ∧
      r'.step p (.resume u udpOk nowUs) = some r'' ∧
      r''.encryptCalls = r.encryptCalls ++
        [⟨frame 2 s.sessionId data, r.nextSeqOut, s.pathId, nowUs⟩]
  /-- or the first CLOSE is carried out. -/
  closeNext : ∀ u us sessionId udpOk nowUs, r.lock.waiters = u :: us →
    r.tasks[u]? = some (Pc.closeLock sessionId) →
    ∃ r' r'', r.step p (.opened t true) = some r' ∧
      r'.step p (.resume u udpOk nowUs) = some r'' ∧ r''.sessions.get? sessionId = none

/-- What waits at the lock for another session goes on before the connect in task `t` returns. -/
structure GoesOn (p : AetherProtocol) (r : Router) (t o : Nat) : Prop where
  chunk : ∀ (u o' : Nat) (s : UserSpaceSession) (data : Bytes),
    r.tasks[u]? = some (Pc.relayLock o' data) → o' ≠ o →
    r.objects[o']? = some s → s.active = true →
    ∃ es r', (∀ ok, .opened t ok ∉ es) ∧ runFrom (Router.step p) r es = some r' ∧
      ∃ call ∈ r'.encryptCalls, call ∉ r.encryptCalls ∧ call.payload = frame 2 s.sessionId data
  close : ∀ (u sessionId : Nat), r.tasks[u]? = some (Pc.closeLock sessionId) →
    r.sessions.get? sessionId ≠ some o →
    ∃ es r', (∀ ok, .opened t ok ∉ es) ∧ runFrom (Router.step p) r es = some r' ∧
      r'.sessions.get? sessionId = none

theorem Connecting.chunk (h : r.Connecting t o) {o' : Nat} {data : Bytes}
    (hpc : r.tasks[u]? = some (Pc.relayRead o')) (hdata : r.endOfStream o' data = false)
    (nowUs : Int) : ∃ r', r.step p (.relayData u data nowUs) = some r' ∧
      r'.tasks[u]? = some (Pc.relayLock o' data) ∧ r'.lock.waiters = r.lock.waiters ++ [u] := by
  have hne := h.ne hpc (by simp)
  refine ⟨r.acquireLock p u (.relayLock o' data) true nowUs, ?_, ?_, (h.acquireLock hne _ _ _).2⟩
  · unfold Router.step
    simp only [hpc, hdata, Bool.false_eq_true, if_false]
  · rw [acquireLock_of_held h.owner hne]
    exact List.getElem?_set_self (List.getElem?_eq_some_iff.mp hpc).1

theorem Connecting.close (h : r.Connecting t o) {packetInfo : Bytes × Addr × Nat}
    {queue : List (Bytes × Addr × Nat)} {sessionId : Nat} (hqueue : r.queue = packetInfo :: queue)
    (hparse : parsePayload packetInfo.1 = some (.close sessionId)) (outcome : SendOutcome)
    (udpOk : Bool) : ∃ r', r.step p (.start outcome udpOk) = some r' ∧
      r'.tasks[r.tasks.length]? = some (Pc.closeLock sessionId) ∧
      r'.lock.waiters = r.lock.waiters ++ [r.tasks.length] := by
  have hnew := h.behind (newTask_behind r t queue .ended)
  have hlast : (r.tasks ++ [Pc.ended])[r.tasks.length]? = some .ended :=
    List.getElem?_concat_length
  unfold Router.step
  simp only [hqueue, Router.processPayload, hparse]
  refine ⟨_, rfl, ?_, (hnew.acquireLock h.lt.ne _ _ _).2⟩
  rw [acquireLock_of_held hnew.owner h.lt.ne]
  exact List.getElem?_set_self (List.getElem?_eq_some_iff.mp hlast).1

theorem start_data {packetInfo : Bytes × Addr × Nat} {queue : List (Bytes × Addr × Nat)}
    {sessionId : Nat} {body : Bytes} {s : UserSpaceSession}
    (hqueue : r.queue = packetInfo :: queue)
    (hparse : parsePayload packetInfo.1 = some (.data sessionId body))
    (hentry : r.sessions.get? sessionId = some o) (ho : r.objects[o]? = some s)
    (hactive : s.active = true) (udpOk : Bool) :
    ∃ r', r.step p (.start .done udpOk) = some r' ∧ r'.written = r.written ++ [(s, body)] := by
  unfold Router.step
  simp only [hqueue, Router.processPayload, hparse, hentry, Router.send, ho, hactive, if_true]
  exact ⟨_, rfl, rfl⟩

/-- The first waiter gets the lock when the connect is made. -/
theorem Connecting.opened (h : r.Connecting t o) (hlocked : r.Locked) {us : List Nat}
    (hwaiters : r.lock.waiters = u :: us) (hpc : r.tasks[u]? = some pc)
    (hne : pc ≠ .connectOpen o) :
    ∃ r', r.step p (.opened t true) = some r' ∧ r'.lock.owner = some u ∧ u ∉ r'.lock.waiters ∧
      r'.tasks[u]? = some pc ∧ r'.nextSeqOut = r.nextSeqOut ∧ r'.encryptCalls = r.encryptCalls ∧
      ∀ (o' : Nat) (s : UserSpaceSession), r.objects[o']? = some s →
        ∃ s', r'.objects[o']? = some s' ∧ s'.sessionId = s.sessionId ∧ s'.pathId = s.pathId := by
  have htu := h.ne hpc hne
  obtain ⟨howner, hrest⟩ := FairLock.release_of_cons hwaiters
  have hnotin : u ∉ r.lock.release.waiters := by
    have hnodup := hlocked.nodup
    rw [hwaiters] at hnodup
    rw [hrest]
    exact (List.nodup_cons.mp hnodup).1
  refine ⟨r.connectSucceeded t o, ?_, ?_⟩
  · unfold Router.step
    simp only [h.pending, if_true]
  unfold Router.connectSucceeded
  cases ho : r.objects[o]? with
  | none =>
      exact ⟨howner, hnotin, (List.getElem?_set_ne htu).trans hpc, rfl, rfl,
        fun o' s hs => ⟨s, hs, rfl, rfl⟩⟩
  | some s₀ =>
      obtain ⟨hlt, -⟩ := List.getElem?_eq_some_iff.mp hpc
      refine ⟨howner, hnotin, ?_, rfl, rfl, fun o' s hs => ?_⟩
      · exact (List.getElem?_set_ne htu).trans ((List.getElem?_append_left hlt).trans hpc)
      · by_cases heq : o' = o
        · subst heq
          obtain rfl : s₀ = s := Option.some.inj (ho.symm.trans hs)
          obtain ⟨hlt', -⟩ := List.getElem?_eq_some_iff.mp ho
          exact ⟨_, List.getElem?_set_self hlt', rfl, rfl⟩
        · exact ⟨s, (List.getElem?_set_ne (Ne.symm heq)).trans hs, rfl, rfl⟩

/-- The chunk that has its turn is numbered. -/
theorem relaySend_encryptCalls {data : Bytes} {s : UserSpaceSession}
    (ho : r.objects[o]? = some s) (nowUs : Int) :
    (r.relaySend p u o data nowUs).encryptCalls = r.encryptCalls ++
      [⟨frame 2 s.sessionId data, r.nextSeqOut, s.pathId, nowUs⟩] := by
  unfold Router.relaySend Router.relayEnds Router.sendBackToClient
  simp only [ho]
  cases p.encryptAndPack (frame (if false then 3 else 2) s.sessionId data)
      (r.setPc u (.relayRead o)).nextSeqOut s.pathId nowUs with
  | ok packet => rfl
  | error err =>
      dsimp only
      rw [if_pos rfl]
      obtain ⟨_, _, _, heq⟩ := closeSession_frame _ o
      rw [heq]
      rfl

/-- A CLOSE takes the entry out of the table. -/
theorem close_get? (r : Router) (u sessionId : Nat) :
    (r.close u sessionId).sessions.get? sessionId = none := by
  unfold Router.close
  cases hk : r.sessions.get? sessionId with
  | none => exact hk
  | some o =>
      obtain ⟨_, _, _, heq⟩ :=
        closeSession_frame { r with sessions := r.sessions.pop sessionId } o
      have hpop : (r.sessions.pop sessionId).get? sessionId = none := by
        rw [Dict.get?_pop, if_pos rfl]
      dsimp only
      split_ifs
      · rw [heq]
        exact hpop
      · rw [heq]
        exact hpop

/-- **A pending connect is the head of a line**, in every reachable state of the router. -/
theorem run_connecting_headOfLine (p : AetherProtocol) (es : List Event) (r : Router)
    (hrun : runFrom (Router.step p) init es = some r) (t o : Nat)
    (hpc : r.tasks[t]? = some (Pc.connectOpen o)) : r.HeadOfLine p t := by
  have hlocked : r.Locked := locked_of_run hrun
  have h : r.Connecting t o := ⟨hpc, hlocked.inside t _ hpc rfl⟩
  constructor
  case owner => exact h.owner
  case behind => exact fun es' r' hopened hrun' => h.run hlocked hopened hrun'
  case chunk => exact fun u o' data nowUs hu hdata => h.chunk hu hdata nowUs
  case close =>
    exact fun packetInfo queue sessionId outcome udpOk hqueue hparse =>
      h.close hqueue hparse outcome udpOk
  case data =>
    exact fun packetInfo queue sessionId body o' s udpOk hqueue hparse hentry ho hactive =>
      start_data hqueue hparse hentry ho hactive udpOk
  case chunkNext =>
    intro u us o' s data udpOk nowUs hwaiters hu hs
    obtain ⟨r', hstep, howner, hnotin, hu', hseq, hcalls, hobjects⟩ :=
      h.opened (p := p) hlocked hwaiters hu (by simp)
    obtain ⟨s', hs', hid, hpath⟩ := hobjects o' s hs
    refine ⟨r', r'.relaySend p u o' data nowUs, hstep, ?_, ?_⟩
    · unfold Router.step
      dsimp only
      rw [if_pos ⟨howner, hnotin⟩]
      unfold Router.enter
      rw [hu']
    · rw [relaySend_encryptCalls hs', hcalls, hseq, hid, hpath]
  case closeNext =>
    intro u us sessionId udpOk nowUs hwaiters hu
    obtain ⟨r', hstep, howner, hnotin, hu', -⟩ :=
      h.opened (p := p) hlocked hwaiters hu (by simp)
    refine ⟨r', r'.close u sessionId, hstep, ?_, close_get? r' u sessionId⟩
    unfold Router.step
    dsimp only
    rw [if_pos ⟨howner, hnotin⟩]
    unfold Router.enter
    rw [hu']

/-- A session is relaying when the connect of another one is pending. -/
theorem run_connecting_headOfLine_second :
    ∃ r, runFrom (Router.step (.new .checksum [1])) init
        [.deliver (frame 1 7 [1, 0, 80, 97], ("10.0.0.1", 4000), 0), .start .done true,
          .opened 0 true, .deliver (frame 1 8 [1, 0, 80, 98], ("10.0.0.1", 4000), 0),
          .start .done true] = some r ∧ r.HeadOfLine (.new .checksum [1]) 2 := by
  obtain ⟨r, hrun⟩ := Option.isSome_iff_exists.mp (show (runFrom
    (Router.step (.new .checksum [1])) init
    [.deliver (frame 1 7 [1, 0, 80, 97], ("10.0.0.1", 4000), 0), .start .done true,
      .opened 0 true, .deliver (frame 1 8 [1, 0, 80, 98], ("10.0.0.1", 4000), 0),
      .start .done true]).isSome by decide)
  have hpc : (some r).bind (fun r => r.tasks[2]?) = some (Pc.connectOpen 1) := by
    rw [← hrun]
    decide
  exact ⟨r, hrun, run_connecting_headOfLine _ _ _ hrun 2 1 hpc⟩

/-- A chunk of the first session is read then, and gets no number before the connect returns. -/
theorem chunk_waits_for_connect :
    ¬ ∀ (p : AetherProtocol) (es : List Event) (r : Router) (t o : Nat),
      runFrom (Router.step p) init es = some r → r.tasks[t]? = some (Pc.connectOpen o) →
      r.GoesOn p t o := by
  intro h
  obtain ⟨r, hrun⟩ := Option.isSome_iff_exists.mp (show (runFrom
    (Router.step (.new .checksum [1])) init
    [.deliver (frame 1 7 [1, 0, 80, 97], ("10.0.0.1", 4000), 0), .start .done true,
      .opened 0 true, .deliver (frame 1 8 [1, 0, 80, 98], ("10.0.0.1", 4000), 0),
      .start .done true, .relayData 1 [104] 5]).isSome by decide)
  have htasks : (some r).map Router.tasks =
      some [.ended, .relayLock 0 [104], .connectOpen 1] := by
    rw [← hrun]
    decide
  have hactive : (some r).bind (fun r => (r.objects[0]?).map UserSpaceSession.active) =
      some true := by
    rw [← hrun]
    decide
  obtain ⟨s, hs, hon⟩ := Option.map_eq_some_iff.mp hactive
  have hpc : r.tasks[2]? = some (Pc.connectOpen 1) := by
    rw [Option.some.inj htasks]
    rfl
  have hchunk : r.tasks[1]? = some (Pc.relayLock 0 [104]) := by
    rw [Option.some.inj htasks]
    rfl
  obtain ⟨es', r', hopened, hrun', call, hcall, hnew, -⟩ :=
    (h _ _ r 2 1 hrun hpc).chunk 1 0 s [104] hchunk (by decide) hs hon
  have hlocked := locked_of_run hrun
  have hconnecting : r.Connecting 2 1 := ⟨hpc, hlocked.inside 2 _ hpc rfl⟩
  rw [(hconnecting.run hlocked hopened hrun').encryptCalls] at hcall
  exact hnew hcall

end Router

end AetherBond.Server
