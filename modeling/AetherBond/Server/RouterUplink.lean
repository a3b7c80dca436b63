import AetherBond.Server.RouterSends
import Mathlib.Data.List.TakeWhile

set_option autoImplicit false

/-! # Completeness of the uplink

What a session's destination should receive is a function of the payloads alone: the bodies of
the DATA frames between its CONNECT and the next CONNECT or CLOSE for the same id
(`bodiesBetween`). Which session a DATA task finds depends on the tasks: CONNECT registers its
session before it is active, and CLOSE may still wait for the lock. `DataAligned` says of one
CONNECT that a DATA task finds its session exactly when the frame belongs to it, and then every
byte for it arrives, whatever becomes of the other sessions (`run_uplink_complete`).
-/

namespace AetherBond.Server

open AetherBond.Lib AetherBond.Common

/-! ## The windows of a list of payloads -/

/-- The session a CONNECT frame opens. -/
def connectFor (payload : Bytes) : Option Nat :=
  match parsePayload payload with
  | some (.connect sessionId _ _ _) => some sessionId
  | _ => none

/-- A CONNECT or CLOSE for session `k`. -/
def endsSession (k : Nat) (payload : Bytes) : Bool :=
  match parsePayload payload with
  | some (.connect sessionId _ _ _) => sessionId = k
  | some (.close sessionId) => sessionId = k
  | _ => false

/-- The body of a DATA frame for session `k`. -/
def dataFor (k : Nat) (payload : Bytes) : Option Bytes :=
  match parsePayload payload with
  | some (.data sessionId body) => if sessionId = k then some body else none
  | _ => none

/-- The bodies of the DATA frames between the CONNECT at position `i` and the next CONNECT or
CLOSE for its session. -/
def bodiesBetween (payloads : List Bytes) (i : Nat) : List Bytes :=
  match payloads[i]?.bind connectFor with
  | none => []
  | some k =>
      ((payloads.drop (i + 1)).takeWhile fun q => !endsSession k q).filterMap (dataFor k)

/-- The position of the CONNECT for session `k` that no CONNECT or CLOSE for it follows. -/
def openConnect (k : Nat) (payloads : List Bytes) : Option Nat :=
  payloads.zipIdx.foldl
    (fun current q =>
      if connectFor q.1 = some k then some q.2
      else if endsSession k q.1 then none
      else current)
    none

variable {k i : Nat} {payloads : List Bytes} {payload : Bytes}

theorem openConnect_append (k : Nat) (payloads : List Bytes) (payload : Bytes) :
    openConnect k (payloads ++ [payload]) =
      if connectFor payload = some k then some payloads.length
      else if endsSession k payload then none
      else openConnect k payloads := by
  unfold openConnect
  rw [List.zipIdx_append, List.foldl_append]
  simp

theorem endsSession_of_connectFor (h : connectFor payload = some k) : endsSession k payload := by
  unfold connectFor at h
  unfold endsSession
  split at h
  · next hp =>
      rw [hp]
      simpa using h
  · cases h

theorem openConnect_eq_some_iff :
    openConnect k payloads = some i ↔
      payloads[i]?.bind connectFor = some k ∧
        ∀ q ∈ payloads.drop (i + 1), ¬ endsSession k q := by
  induction payloads using List.reverseRecOn generalizing i with
  | nil => simp [openConnect]
  | append_singleton payloads payload ih =>
      rw [openConnect_append]
      -- an older CONNECT, the new payload itself, or neither
      rcases lt_trichotomy i payloads.length with hlt | rfl | hgt
      · rw [List.getElem?_append_left hlt, List.drop_append_of_le_length (by omega)]
        constructor
        · intro h
          split_ifs at h with hc he
          · obtain rfl := Option.some.inj h
            exact absurd hlt (lt_irrefl _)
          · obtain ⟨hconn, hrest⟩ := ih.mp h
            refine ⟨hconn, fun q hq => ?_⟩
            rcases List.mem_append.mp hq with hq | hq
            · exact hrest q hq
            · rw [List.mem_singleton.mp hq]
              exact he
        · rintro ⟨hconn, hrest⟩
          have he : ¬ endsSession k payload := hrest payload (by simp)
          rw [if_neg fun hc => he (endsSession_of_connectFor hc), if_neg he]
          exact ih.mpr ⟨hconn, fun q hq => hrest q (List.mem_append_left _ hq)⟩
      · have hold : openConnect k payloads ≠ some payloads.length := by
          intro h
          simpa using (ih.mp h).1
        rw [List.getElem?_concat_length, List.drop_of_length_le (by simp), Option.bind_some]
        constructor
        · intro h
          split_ifs at h with hc he
          · exact ⟨hc, by simp⟩
          · exact absurd h hold
        · rintro ⟨hc, -⟩
          rw [if_pos hc]
      · have hnone : (payloads ++ [payload])[i]? = none := by
          rw [List.getElem?_eq_none_iff, List.length_append, List.length_singleton]
          omega
        have hold : openConnect k payloads ≠ some i := by
          intro h
          have hn : payloads[i]? = none := List.getElem?_eq_none_iff.mpr (by omega)
          simpa [hn] using (ih.mp h).1
        rw [hnone]
        constructor
        · intro h
          split_ifs at h with hc he
          · have := Option.some.inj h
            omega
          · exact absurd h hold
        · rintro ⟨hconn, -⟩
          cases hconn

/-- The body that one more payload adds to the window of the CONNECT at position `i`. -/
def bodyIn (payloads : List Bytes) (payload : Bytes) (i : Nat) : List Bytes :=
  match parsePayload payload with
  | some (.data k body) => if openConnect k payloads = some i then [body] else []
  | _ => []

/-- A payload that adds to a window is a DATA frame for the session of its open CONNECT. -/
theorem bodyIn_eq_nil (h : ∀ k, openConnect k payloads ≠ some i) :
    bodyIn payloads payload i = [] := by
  unfold bodyIn
  split
  · next k body _ => exact if_neg (h k)
  · rfl

theorem bodyIn_of_open (h : openConnect k payloads = some i) :
    bodyIn payloads payload i = (dataFor k payload).toList := by
  unfold bodyIn dataFor
  split
  · next k' body _ =>
      by_cases hk : k' = k
      · rw [hk, if_pos h, if_pos rfl]
        rfl
      · rw [if_neg hk, if_neg fun h' => hk ?_]
        · rfl
        · have h₁ := (openConnect_eq_some_iff.mp h).1
          have h₂ := (openConnect_eq_some_iff.mp h').1
          exact Option.some.inj (h₂.symm.trans h₁)
  · rfl

theorem dataFor_of_endsSession (h : endsSession k payload) : dataFor k payload = none := by
  unfold endsSession at h
  unfold dataFor
  split
  · next hp =>
      rw [hp] at h
      cases h
  · rfl

theorem bodiesBetween_append (payloads : List Bytes) (payload : Bytes) (i : Nat) :
    bodiesBetween (payloads ++ [payload]) i
      = bodiesBetween payloads i ++ bodyIn payloads payload i := by
  unfold bodiesBetween
  by_cases hlt : i < payloads.length
  · rw [List.getElem?_append_left hlt, List.drop_append_of_le_length (by omega)]
    cases hc : payloads[i]?.bind connectFor with
    | none =>
        dsimp only
        rw [bodyIn_eq_nil fun k hk => ?_, List.append_nil]
        rw [(openConnect_eq_some_iff.mp hk).1] at hc
        cases hc
    | some k =>
        dsimp only
        by_cases hall : ∀ q ∈ payloads.drop (i + 1), ¬ endsSession k q
        · -- the window reaches the new payload
          have hopen : openConnect k payloads = some i := openConnect_eq_some_iff.mpr ⟨hc, hall⟩
          have hall' : ∀ q ∈ payloads.drop (i + 1), (!endsSession k q) = true := by
            simpa using hall
          have hself : (payloads.drop (i + 1)).takeWhile (fun q => !endsSession k q)
              = payloads.drop (i + 1) := List.takeWhile_eq_self_iff.mpr hall'
          rw [List.takeWhile_append_of_pos hall', List.filterMap_append, hself,
            bodyIn_of_open hopen, List.append_cancel_left_eq]
          by_cases he : endsSession k payload
          · rw [dataFor_of_endsSession he]
            simp [he]
          · cases hd : dataFor k payload <;> simp [he, hd]
        · -- it ended before
          have hshort : ((payloads.drop (i + 1)).takeWhile fun q => !endsSession k q).length
              ≠ (payloads.drop (i + 1)).length := by
            intro hlen
            apply hall
            have hself := (List.takeWhile_prefix _).eq_of_length hlen
            simpa using List.takeWhile_eq_self_iff.mp hself
          rw [List.takeWhile_append, if_neg hshort, bodyIn_eq_nil fun k' hk' => ?_,
            List.append_nil]
          obtain ⟨hconn, hrest⟩ := openConnect_eq_some_iff.mp hk'
          obtain rfl : k' = k := Option.some.inj (hconn.symm.trans hc)
          exact hall hrest
  · have hnone : payloads[i]? = none := List.getElem?_eq_none_iff.mpr (by omega)
    have hdrop : (payloads ++ [payload]).drop (i + 1) = [] :=
      List.drop_of_length_le (by rw [List.length_append, List.length_singleton]; omega)
    rw [hnone, hdrop, bodyIn_eq_nil fun k hk => ?_]
    · cases (payloads ++ [payload])[i]?.bind connectFor <;> rfl
    · have hconn := (openConnect_eq_some_iff.mp hk).1
      rw [hnone] at hconn
      cases hconn

/-! ## The windows and the tasks -/

namespace Router

variable {p : AetherProtocol} {r r' : Router} {i : Nat}

/-- What went out for the CONNECT at position `i`. -/
def sendsTo (i : Nat) (l : List (UserSpaceSession × Bytes)) : List Bytes :=
  l.filterMap fun x => if x.1.frame = i then some x.2 else none

/-- The position of the CONNECT that made the session registered under `k`, if the session is
active. -/
def activeFrame (r : Router) (k : Nat) : Option Nat :=
  ((r.sessions.get? k).bind fun o => r.objects[o]?).bind fun s =>
    if s.active then some s.frame else none

/-- A send for the CONNECT at position `i` raises. -/
def sendFails (i : Nat) (r : Router) : Event → Bool
  | .start (.fails _) _ =>
      (r.queue.head?.bind fun x => r.sends x.1).elim false fun x => x.1.frame = i
  | .sent t false => (r.tasks[t]?.bind Pc.suspendedSend).elim false fun x => x.1.frame = i
  | _ => false

/-- The session of a DATA frame. -/
def dataSession (payload : Bytes) : Option Nat :=
  match parsePayload payload with
  | some (.data k _) => some k
  | _ => none

/-- A DATA task finds the active session of the CONNECT at position `i` if and only if that
CONNECT is open for its id, and then no earlier send to that session is still suspended. -/
def DataAligned (i : Nat) (r : Router) (payload : Bytes) : Prop :=
  ∀ k ∈ dataSession payload, (r.activeFrame k = some i ↔ openConnect k r.started = some i) ∧
    (r.activeFrame k = some i → sendsTo i r.suspended = [])

instance (i : Nat) (r : Router) (payload : Bytes) : Decidable (DataAligned i r payload) :=
  inferInstanceAs (Decidable (∀ _ ∈ _, _ ∧ _))

/-- The payload whose task an event starts. -/
def starts (r : Router) : Event → Option Bytes
  | .start _ _ => r.queue.head?.map Prod.fst
  | _ => none

/-- The condition on a step: the task it starts, if any, is aligned. -/
def StepAligned (i : Nat) (r : Router) (e : Event) : Prop :=
  ∀ payload ∈ r.starts e, DataAligned i r payload

instance (i : Nat) (r : Router) (e : Event) : Decidable (StepAligned i r e) :=
  inferInstanceAs (Decidable (∀ _ ∈ _, _))

/-- Everything sent so far for one CONNECT, with the sends still suspended, is what the payloads
whose tasks have started say. -/
structure UplinkComplete (i : Nat) (r : Router) : Prop where
  sends : sendsTo i r.written ++ sendsTo i r.suspended = bodiesBetween r.started i
  single : (sendsTo i r.suspended).length ≤ 1

theorem sendsTo_append (i : Nat) (l l' : List (UserSpaceSession × Bytes)) :
    sendsTo i (l ++ l') = sendsTo i l ++ sendsTo i l' := List.filterMap_append

theorem sendsTo_singleton (i : Nat) (s : UserSpaceSession) (body : Bytes) :
    sendsTo i [(s, body)] = if s.frame = i then [body] else [] := by
  unfold sendsTo
  split_ifs with h <;> simp [h]

/-- The send of an aligned task belongs to the window of its payload. -/
theorem DataAligned.bodyIn {payload : Bytes} (h : DataAligned i r payload) :
    bodyIn r.started payload i = ((r.sends payload).map fun x => sendsTo i [x]).getD [] := by
  unfold Server.bodyIn sends
  cases hp : parsePayload payload with
  | none => rfl
  | some c =>
      cases c with
      | connect sessionId protocol port destIp => rfl
      | close sessionId => rfl
      | data k body =>
          have hk : k ∈ dataSession payload := by unfold dataSession; rw [hp]; rfl
          dsimp only
          rw [if_congr (h k hk).1.symm rfl rfl]
          unfold activeFrame
          cases (r.sessions.get? k).bind fun o => r.objects[o]? with
          | none => rfl
          | some s =>
              rw [Option.bind_some, Option.bind_some]
              by_cases hact : s.active
              · rw [if_pos hact, if_pos hact, Option.map_some, Option.getD_some, sendsTo_singleton]
                simp
              · rw [if_neg hact, if_neg hact]
                rfl

/-- The session an aligned task sends to has no suspended send. -/
theorem DataAligned.unsuspended {payload : Bytes} (h : DataAligned i r payload)
    {s : UserSpaceSession} {body : Bytes} (hs : r.sends payload = some (s, body))
    (hi : s.frame = i) : sendsTo i r.suspended = [] := by
  unfold sends at hs
  split at hs
  · next k body' hp =>
      have hk : k ∈ dataSession payload := by unfold dataSession; rw [hp]; rfl
      apply (h k hk).2
      unfold activeFrame
      cases hl : (r.sessions.get? k).bind fun o => r.objects[o]? with
      | none => rw [hl] at hs; cases hs
      | some s' =>
          rw [hl, Option.bind_some] at hs
          rw [Option.bind_some]
          split_ifs at hs ⊢ with hact
          obtain ⟨rfl, -⟩ := Prod.mk.inj (Option.some.inj hs)
          rw [hi]
  · cases hs

theorem UplinkComplete.start (h : UplinkComplete i r) {outcome : SendOutcome} {udpOk : Bool}
    (hok : ¬ r.sendFails i (.start outcome udpOk)) (hal : StepAligned i r (.start outcome udpOk))
    (hstep : r.step p (.start outcome udpOk) = some r') : UplinkComplete i r' := by
  obtain ⟨packetInfo, queue, hq, -, hstarted, hatt⟩ := step_start hstep
  have hal' : DataAligned i r packetInfo.1 := hal packetInfo.1 (by unfold starts; rw [hq]; rfl)
  have hbody := hal'.bodyIn
  have hfree : ∀ s body, r.sends packetInfo.1 = some (s, body) → s.frame = i →
      sendsTo i r.suspended = [] := fun s body hs hi => hal'.unsuspended hs hi
  have hraise : ∀ s body w, r.sends packetInfo.1 = some (s, body) → outcome = .fails w →
      s.frame ≠ i := by
    rintro s body w hs rfl hi
    refine hok ?_
    unfold sendFails
    rw [hq, List.head?_cons, Option.bind_some, hs]
    exact decide_eq_true hi
  have hgoal : (sendsTo i r'.written ++ sendsTo i r'.suspended
      = bodiesBetween r.started i ++ bodyIn r.started packetInfo.1 i) →
      (sendsTo i r'.suspended).length ≤ 1 → UplinkComplete i r' := fun hsends hsingle =>
    ⟨by rw [hstarted, bodiesBetween_append, hsends], hsingle⟩
  generalize r.sends packetInfo.1 = x at hatt hbody hfree hraise
  cases hatt with
  | nothing hw hs =>
      apply hgoal
      · calc sendsTo i r'.written ++ sendsTo i r'.suspended
            = sendsTo i r.written ++ sendsTo i r.suspended := by rw [hw, hs]
          _ = bodiesBetween r.started i := h.sends
          _ = bodiesBetween r.started i ++ bodyIn r.started packetInfo.1 i := by
              rw [hbody]
              exact (List.append_nil _).symm
      · rw [hs]
        exact h.single
  | @writes s body _ hw hs =>
      -- a suspended send would come after this one, but its session has none
      have hswap : sendsTo i [(s, body)] ++ sendsTo i r.suspended
          = sendsTo i r.suspended ++ sendsTo i [(s, body)] := by
        by_cases hi : s.frame = i
        · rw [hfree s body rfl hi, List.append_nil, List.nil_append]
        · rw [sendsTo_singleton, if_neg hi, List.append_nil, List.nil_append]
      apply hgoal
      · calc sendsTo i r'.written ++ sendsTo i r'.suspended
            = sendsTo i r.written ++ (sendsTo i [(s, body)] ++ sendsTo i r.suspended) := by
              rw [hw, hs, sendsTo_append, List.append_assoc]
          _ = sendsTo i r.written ++ sendsTo i r.suspended ++ sendsTo i [(s, body)] := by
              rw [hswap, List.append_assoc]
          _ = bodiesBetween r.started i ++ bodyIn r.started packetInfo.1 i := by
              rw [h.sends, hbody]
              rfl
      · rw [hs]
        exact h.single
  | @suspends s body _ hw hs =>
      apply hgoal
      · calc sendsTo i r'.written ++ sendsTo i r'.suspended
            = sendsTo i r.written ++ sendsTo i r.suspended ++ sendsTo i [(s, body)] := by
              rw [hw, hs, sendsTo_append, List.append_assoc]
          _ = bodiesBetween r.started i ++ bodyIn r.started packetInfo.1 i := by
              rw [h.sends, hbody]
              rfl
      · rw [hs, sendsTo_append, sendsTo_singleton]
        by_cases hi : s.frame = i
        · rw [hfree s body rfl hi, if_pos hi]
          exact le_rfl
        · rw [if_neg hi, List.append_nil]
          exact h.single
  | @fails s body w hw hs =>
      -- the send of another session
      have hne : s.frame ≠ i := hraise s body w rfl rfl
      apply hgoal
      · calc sendsTo i r'.written ++ sendsTo i r'.suspended
            = bodiesBetween r.started i := by rw [hw, hs, h.sends]
          _ = bodiesBetween r.started i ++ bodyIn r.started packetInfo.1 i := by
              rw [hbody, Option.map_some, Option.getD_some, sendsTo_singleton, if_neg hne,
                List.append_nil]
      · rw [hs]
        exact h.single

theorem UplinkComplete.sent (h : UplinkComplete i r) {t : Nat} {ok : Bool}
    (hok : ¬ r.sendFails i (.sent t ok)) (hstep : r.step p (.sent t ok) = some r') :
    UplinkComplete i r' := by
  obtain ⟨-, hstarted, ⟨hw, hs⟩ | ⟨⟨s, body⟩, before, after, hb, ha, hw, hx⟩⟩ := step_sent hstep
  · constructor
    · rw [hw, hs, hstarted]
      exact h.sends
    · rw [hs]
      exact h.single
  · have hsingle := h.single
    have hsends := h.sends
    rw [hb] at hsingle hsends
    -- the returning send leaves the middle of the list and goes to the end of `written`
    have hout : sendsTo i r'.written = sendsTo i r.written ++ sendsTo i [(s, body)] := by
      cases ok with
      | true => rw [hw, if_pos rfl, sendsTo_append]
      | false =>
          have hne : s.frame ≠ i := by
            intro hi
            refine hok ?_
            unfold sendFails
            dsimp only
            rw [hx]
            exact decide_eq_true hi
          rw [hw, if_neg Bool.false_ne_true, sendsTo_singleton, if_neg hne, List.append_nil]
    have hsplit : sendsTo i (before ++ (s, body) :: after)
        = sendsTo i before ++ (sendsTo i [(s, body)] ++ sendsTo i after) := by
      rw [sendsTo_append, ← sendsTo_append i [(s, body)]]
      rfl
    have hfirst : sendsTo i [(s, body)] ++ (sendsTo i before ++ sendsTo i after)
        = sendsTo i (before ++ (s, body) :: after) := by
      rw [hsplit]
      by_cases hi : s.frame = i
      · -- it was the only suspended send of its session
        have hlen := hsingle
        rw [hsplit, sendsTo_singleton, if_pos hi, List.length_append, List.length_append,
          List.length_singleton] at hlen
        have hbefore : sendsTo i before = [] := List.length_eq_zero_iff.mp (by omega)
        rw [hbefore, List.nil_append, List.nil_append]
      · rw [sendsTo_singleton, if_neg hi, List.nil_append, List.nil_append]
    constructor
    · calc sendsTo i r'.written ++ sendsTo i r'.suspended
          = sendsTo i r.written
              ++ (sendsTo i [(s, body)] ++ (sendsTo i before ++ sendsTo i after)) := by
            rw [hout, ha, sendsTo_append, List.append_assoc]
        _ = sendsTo i r.written ++ sendsTo i (before ++ (s, body) :: after) := by rw [hfirst]
        _ = bodiesBetween r'.started i := by rw [hsends, hstarted]
    · have hlen := hsingle
      rw [hsplit, List.length_append, List.length_append] at hlen
      rw [ha, sendsTo_append, List.length_append]
      omega

/-- **The step lemma.** -/
theorem UplinkComplete.step (h : UplinkComplete i r) {e : Event} (hok : ¬ r.sendFails i e)
    (hal : StepAligned i r e) (hstep : r.step p e = some r') : UplinkComplete i r' := by
  by_cases hstart : ∃ outcome udpOk, e = .start outcome udpOk
  · obtain ⟨outcome, udpOk, rfl⟩ := hstart
    exact h.start hok hal hstep
  by_cases hsent : ∃ t ok, e = .sent t ok
  · obtain ⟨t, ok, rfl⟩ := hsent
    exact h.sent hok hstep
  obtain ⟨hst, hw, hs, -⟩ := step_keeps hstep
    (fun outcome udpOk heq => hstart ⟨outcome, udpOk, heq⟩)
    (fun t ok heq => hsent ⟨t, ok, heq⟩)
  constructor
  · rw [hw, hs, hst]
    exact h.sends
  · rw [hs]
    exact h.single

theorem init_uplinkComplete (i : Nat) : UplinkComplete i init :=
  ⟨by simp [init, suspended, sendsTo, bodiesBetween], by simp [init, suspended, sendsTo]⟩

/-- The payloads a run delivers, in order. -/
def deliveredPayloads (es : List Event) : List Bytes := (es.flatMap Event.delivered).map Prod.fst

/-- A payload moves from the queue to the started ones. -/
theorem step_started_append_queue {e : Event} (hstep : r.step p e = some r') :
    r'.started ++ r'.queue.map Prod.fst
      = r.started ++ r.queue.map Prod.fst ++ e.delivered.map Prod.fst := by
  by_cases hstart : ∃ outcome udpOk, e = .start outcome udpOk
  · obtain ⟨outcome, udpOk, rfl⟩ := hstart
    obtain ⟨packetInfo, queue, hq, hq', hst, -⟩ := step_start hstep
    rw [hq, hq', hst]
    simp [Event.delivered]
  by_cases hsent : ∃ t ok, e = .sent t ok
  · obtain ⟨t, ok, rfl⟩ := hsent
    obtain ⟨hq, hst, -⟩ := step_sent hstep
    rw [hq, hst]
    simp [Event.delivered]
  obtain ⟨hst, -, -, hq⟩ := step_keeps hstep
    (fun outcome udpOk heq => hstart ⟨outcome, udpOk, heq⟩)
    (fun t ok heq => hsent ⟨t, ok, heq⟩)
  rw [hq, hst, List.map_append, List.append_assoc]

/-- Delivered payloads are started or queued, in order. -/
theorem started_append_queue {es : List Event} {r₀ : Router}
    (hrun : runFrom (Router.step p) r₀ es = some r) :
    r.started ++ r.queue.map Prod.fst
      = r₀.started ++ r₀.queue.map Prod.fst ++ deliveredPayloads es := by
  induction es generalizing r₀ with
  | nil =>
      obtain rfl : r₀ = r := by simpa using hrun
      simp [deliveredPayloads]
  | cons e es ih =>
      obtain ⟨r₁, hstep, hrest⟩ := runFrom_cons_eq_some.mp hrun
      rw [ih hrest, step_started_append_queue hstep]
      simp [deliveredPayloads]

/-- **Uplink completeness.** In every run, for every CONNECT no send of which raises and to which
the DATA tasks are aligned, what was written for it, together with its suspended send, is at every
moment what the started payloads say; and once all tasks have started and no send for it is
suspended, it is what the delivered payloads say. -/
theorem run_uplink_complete (p : AetherProtocol) (es : List Event) (r : Router)
    (hrun : runFrom (Router.step p) init es = some r) (i : Nat)
    (hal : Along (Router.step p) (fun r e => ¬ r.sendFails i e ∧ StepAligned i r e) init es) :
    sendsTo i r.written ++ sendsTo i r.suspended = bodiesBetween r.started i ∧
      (r.queue = [] → sendsTo i r.suspended = [] →
        sendsTo i r.written = bodiesBetween (deliveredPayloads es) i) := by
  have h : UplinkComplete i r :=
    runFrom_invariant_along (fun _ _ _ h hG hstep => UplinkComplete.step h hG.1 hG.2 hstep)
      (init_uplinkComplete i) hal hrun
  refine ⟨h.sends, fun hq hs => ?_⟩
  have hall : r.started = deliveredPayloads es := by
    have h₀ := started_append_queue hrun
    rw [hq] at h₀
    simpa [init] using h₀
  calc sendsTo i r.written
      = sendsTo i r.written ++ sendsTo i r.suspended := by rw [hs, List.append_nil]
    _ = bodiesBetween r.started i := h.sends
    _ = bodiesBetween (deliveredPayloads es) i := by rw [hall]

/-- A session that is connected before its DATA tasks start, the second of which suspends. Another
one is released with its DATA and loses it. -/
theorem run_uplink_complete_two_chunks :
    ∃ r, runFrom (Router.step (.new .checksum [1])) init
        [.deliver (frame 1 7 [1, 0, 80, 97], ("10.0.0.1", 4000), 0), .start .done true,
          .opened 0 true, .deliver (frame 2 7 [104], ("10.0.0.1", 4000), 0),
          .deliver (frame 2 7 [105], ("10.0.0.1", 4000), 1), .start .done true,
          .start .suspends true, .sent 3 true,
          .deliver (frame 1 8 [1, 0, 80, 97], ("10.0.0.1", 4000), 0),
          .deliver (frame 2 8 [106], ("10.0.0.1", 4000), 0), .start .done true,
          .start .done true] = some r ∧
      sendsTo 0 r.written = [[104], [105]] := by
  let es : List Event := [.deliver (frame 1 7 [1, 0, 80, 97], ("10.0.0.1", 4000), 0),
    .start .done true, .opened 0 true, .deliver (frame 2 7 [104], ("10.0.0.1", 4000), 0),
    .deliver (frame 2 7 [105], ("10.0.0.1", 4000), 1), .start .done true, .start .suspends true,
    .sent 3 true, .deliver (frame 1 8 [1, 0, 80, 97], ("10.0.0.1", 4000), 0),
    .deliver (frame 2 8 [106], ("10.0.0.1", 4000), 0), .start .done true, .start .done true]
  have hall : ∃ r ∈ runFrom (Router.step (.new .checksum [1])) init es,
      r.queue.isEmpty ∧ sendsTo 0 r.suspended = [] := by decide
  obtain ⟨r, hrun, hqueue, hs⟩ := hall
  have hq : r.queue = [] := List.isEmpty_iff.mp hqueue
  obtain ⟨-, hcomplete⟩ := run_uplink_complete _ es r hrun 0 (by decide)
  have hdata : bodiesBetween (deliveredPayloads es) 0 = [[104], [105]] := by decide
  exact ⟨r, hrun, (hcomplete hq hs).trans hdata⟩

/-- No send raises. -/
def Event.SendsSucceed : Event → Prop
  | .start (.fails _) _ => False
  | .sent _ ok => ok = true
  | _ => True

/-- A CONNECT and a DATA frame released together: the DATA task runs while the connection is
being opened, and its body is lost although the connect succeeds. -/
theorem released_together_loses_data :
    ¬ ∀ (p : AetherProtocol) (es : List Event) (r : Router),
      runFrom (Router.step p) init es = some r → (∀ e ∈ es, e.SendsSucceed) →
      r.failed = [] → r.queue = [] → r.suspended = [] →
      ∀ i, (sendsTo i r.written).flatten = (bodiesBetween (deliveredPayloads es) i).flatten := by
  intro h
  obtain ⟨r, hrun⟩ := Option.isSome_iff_exists.mp (show (runFrom
    (Router.step (.new .checksum [1])) init
    [.deliver (frame 1 7 [1, 0, 80, 97], ("10.0.0.1", 4000), 0),
      .deliver (frame 2 7 [104], ("10.0.0.1", 4000), 0), .start .done true, .start .done true,
      .opened 0 true]).isSome by decide)
  have hend : (some r).map (fun r => (r.failed, r.queue, r.suspended, r.written))
      = some ([], [], [], []) := by
    rw [← hrun]
    rfl
  obtain ⟨hf, hq, hs, hw⟩ : r.failed = [] ∧ r.queue = [] ∧ r.suspended = [] ∧ r.written = [] := by
    simpa using hend
  have hbad := h _ _ r hrun (by simp [Event.SendsSucceed]) hf hq hs 0
  rw [hw] at hbad
  revert hbad
  decide

end Router

end AetherBond.Server
