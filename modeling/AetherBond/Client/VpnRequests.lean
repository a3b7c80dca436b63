import AetherBond.Client.VpnOrder

set_option autoImplicit false

/-! # The requests of the local applications

The handler of the `n`-th application that was accepted asks for what this application named, under
the session id `n + 1`: no other CONNECT frame is ever given to `encrypt_and_pack` (`Requested`).
-/

namespace AetherBond.Client

open AetherBond.Lib AetherBond.Common

namespace AetherVPNClient

variable {p : AetherProtocol} {c c' : AetherVPNClient} {h : Nat} {pc pc' : HandlerPc}
  {new : List Bytes} {requests : List (List Char × Nat)}

/-- The destination of an application that is accepted. -/
def Event.request? : Event → Option (List Char × Nat)
  | .accepted dstAddr dstPort => some (dstAddr, dstPort)
  | _ => none

/-- Before its reply is out, a handler knows its request; a CONNECT frame names the request of its
session. -/
structure Requested (requests : List (List Char × Nat)) (c : AetherVPNClient) : Prop where
  count : requests.length = c.handlers.length
  replying : ∀ (h : Nat) (dstAddr : List Char) (dstPort : Nat),
    c.handlers[h]? = some (.replying dstAddr dstPort) → requests[h]? = some (dstAddr, dstPort)
  connects : ∀ payload ∈ c.encryptCalls.map EncryptCall.payload, ∀ k,
    commandFor k payload = some 1 → ∃ (h : Nat) (dstAddr : List Char) (dstPort : Nat), k = h + 1 ∧
      requests[h]? = some (dstAddr, dstPort) ∧ connectPayload k dstPort dstAddr = some payload

theorem init_requested (activeSockets : List String) : Requested [] (init activeSockets) where
  count := rfl
  replying := by simp [init]
  connects := by simp [init]

theorem Requested.congr (hr : Requested requests c) (hs : c.SentSame c') :
    Requested requests c' where
  count := by
    rw [hs.handlers]
    exact hr.count
  replying := by
    rw [hs.handlers]
    exact hr.replying
  connects := by
    rw [hs.encryptCalls]
    exact hr.connects

/-- The command of a frame that was packed. -/
theorem command_of_mem {command command' : UInt8} {sessionId k : Nat} {body payload : Bytes}
    (hnew : new = [] ∨ (packFrame command sessionId body).toList = new) (hmem : payload ∈ new)
    (hcommand : commandFor k payload = some command') : command' = command := by
  obtain rfl | rfl := hnew
  · cases hmem
  · rw [commandFor_packFrame (Option.mem_toList.mp hmem)] at hcommand
    split_ifs at hcommand
    exact (Option.some.inj hcommand).symm

/-- A handler moves on from its reply; the CONNECT it may send is the one of its request. -/
theorem Requested.turn (hr : Requested requests c) (ht : Turn c c' h pc' new)
    (hpc' : ∀ dstAddr dstPort, pc' ≠ .replying dstAddr dstPort)
    (hnew : ∀ payload ∈ new, ∀ k, commandFor k payload = some 1 → ∃ dstAddr dstPort, k = h + 1 ∧
      requests[h]? = some (dstAddr, dstPort) ∧ connectPayload k dstPort dstAddr = some payload) :
    Requested requests c' where
  count := by
    rw [ht.handlers, List.length_set]
    exact hr.count
  replying h' dstAddr dstPort hpc := by
    rw [ht.handlers] at hpc
    obtain ⟨heq, -⟩ | ⟨-, hold⟩ := getElem?_set_cases hpc
    · exact absurd heq.symm (hpc' dstAddr dstPort)
    · exact hr.replying h' dstAddr dstPort hold
  connects payload hp k hk := by
    rw [ht.payloads] at hp
    rcases List.mem_append.mp hp with hp | hp
    · exact hr.connects payload hp k hk
    · obtain ⟨dstAddr, dstPort, hconnect⟩ := hnew payload hp k hk
      exact ⟨h, dstAddr, dstPort, hconnect⟩

theorem not_replying_of_leaving (hl : pc.leaving) (dstAddr : List Char) (dstPort : Nat) :
    pc ≠ .replying dstAddr dstPort := by
  rintro rfl
  cases hl

/-- A CLOSE frame is no CONNECT. -/
theorem no_connect {command : UInt8} (hc : command ≠ 1) {sessionId : Nat} {body : Bytes}
    (hnew : new = [] ∨ (packFrame command sessionId body).toList = new) :
    ∀ payload ∈ new, ∀ k, commandFor k payload ≠ some 1 :=
  fun _ hmem _ hk => hc (command_of_mem hnew hmem hk).symm

theorem Requested.finish (hr : Requested requests c) (h : Nat) (draw : Draw) :
    Requested requests (c.finish p h draw) := by
  obtain ⟨pc', new, hl, ht, hnew⟩ := finish_turn (p := p) c h draw
  exact hr.turn ht (not_replying_of_leaving hl) fun payload hmem k hk =>
    absurd hk (no_connect (by decide) hnew payload hmem k)

theorem Requested.loop (hr : Requested requests c) (h : Nat) (last : Draw) :
    Requested requests (c.loop p h last) := by
  obtain ⟨pc', new, ht, ⟨rfl, rfl⟩ | ⟨hl, hnew⟩⟩ := loop_turn (p := p) c h last
  · exact hr.turn ht (by simp) (by simp)
  · exact hr.turn ht (not_replying_of_leaving hl) fun payload hmem k hk =>
      absurd hk (no_connect (by decide) hnew payload hmem k)

theorem Requested.sendFrame (hr : Requested requests c) (h : Nat) {payload : Option Bytes}
    (hpayload : ∀ q ∈ payload, ∀ k, commandFor k q = some 1 → ∃ dstAddr dstPort, k = h + 1 ∧
      requests[h]? = some (dstAddr, dstPort) ∧ connectPayload k dstPort dstAddr = some q)
    {next : HandlerPc} (hnext : ∀ dstAddr dstPort, next ≠ .replying dstAddr dstPort)
    (pathId : Nat) (interfaceIp : String) (nowUs : Int) (last : Draw) :
    Requested requests (c.sendFrame p h payload pathId interfaceIp nowUs next last) := by
  obtain ⟨pc', sent, close, ht, hsent, hclose, hmoves⟩ :=
    sendFrame_turn (p := p) c h payload pathId interfaceIp nowUs next last
  refine hr.turn ht ?_ fun q hq k hk => ?_
  · rcases hmoves with hl | ⟨-, ⟨rfl, -⟩ | ⟨rfl, -⟩⟩
    · exact not_replying_of_leaving hl
    · exact hnext
    · simp
  · rcases List.mem_append.mp hq with hq | hq
    · rcases hsent with rfl | rfl
      · cases hq
      · exact hpayload q (Option.mem_toList.mp hq) k hk
    · exact absurd hk (no_connect (by decide) hclose q hq k)

theorem Requested.accepted (hr : Requested requests c) {dstAddr : List Char} {dstPort : Nat}
    (hstep : c.step p (.accepted dstAddr dstPort) = some c') :
    Requested (requests ++ [(dstAddr, dstPort)]) c' := by
  obtain rfl := Option.some.inj hstep
  have hold : ∀ {h : Nat} {x : List Char × Nat}, requests[h]? = some x →
      (requests ++ [(dstAddr, dstPort)])[h]? = some x := by
    intro h x hx
    rw [List.getElem?_append_left (List.getElem?_eq_some_iff.mp hx).1]
    exact hx
  constructor
  case count => simp [hr.count]
  case replying =>
    intro h dstAddr' dstPort' hpc
    obtain ⟨heq, rfl⟩ | hpc := getElem?_concat_cases hpc
    · obtain ⟨rfl, rfl⟩ := HandlerPc.replying.inj heq
      rw [← hr.count]
      exact List.getElem?_concat_length
    · exact hold (hr.replying h dstAddr' dstPort' hpc)
  case connects =>
    intro payload hp k hk
    obtain ⟨h, dstAddr', dstPort', hid, hget, hconnect⟩ := hr.connects payload hp k hk
    exact ⟨h, dstAddr', dstPort', hid, hold hget, hconnect⟩

/-- **The step lemma.** -/
theorem Requested.step (hr : Requested requests c) (hids : c.Ids) {e : Event}
    (hstep : c.step p e = some c') : Requested (requests ++ e.request?.toList) c' := by
  have hnone : Requested requests c' → e.request? = none →
      Requested (requests ++ e.request?.toList) c' := by
    intro hr' he
    rw [he, Option.toList_none, List.append_nil]
    exact hr'
  cases step_cases hstep with
  | accepted dstAddr dstPort => exact hr.accepted hstep
  | deliver payload => exact hnone (hr.congr (deliver_sentSame c payload)) rfl
  | startWrite _ outcome =>
      exact hnone (hr.congr (step_sentSame hstep (.inr (.inl ⟨outcome, rfl⟩)))) rfl
  | drained => exact hnone (hr.congr (step_sentSame hstep (.inr (.inr ⟨_, true, rfl⟩)))) rfl
  | drainFails => exact hnone (hr.congr (step_sentSame hstep (.inr (.inr ⟨_, false, rfl⟩)))) rfl
  | stop =>
      have hsockets : Requested requests { c with activeSockets := [] } :=
        ⟨hr.count, hr.replying, hr.connects⟩
      exact hnone (hsockets.congr (stop_sentSame c)) rfl
  | @replyFails h => exact hnone (hr.finish h _) rfl
  | @connectUnsent h => exact hnone (hr.finish h _) rfl
  | @connects h dstPort dstAddr hpc =>
      obtain ⟨hlt, -⟩ := List.getElem?_eq_some_iff.mp hpc
      have hid : c.sessionId h = h + 1 := sessionId_eq hids (hids.handlers ▸ hlt)
      refine hnone (hr.sendFrame h (fun q hq k hk => ?_) (by simp) _ _ _ _) rfl
      have hcommand := commandFor_packFrame (k := k) hq
      rw [hk] at hcommand
      split_ifs at hcommand with hk'
      obtain rfl := hk'
      exact ⟨dstAddr, dstPort, hid, hr.replying h dstAddr dstPort hpc, hq⟩
  | @endOfStream h => exact hnone (hr.finish h _) rfl
  | @chunkUnsent h _ data =>
      have hchunk : Requested requests { c with chunks := c.chunks ++ [(h, data)] } :=
        ⟨hr.count, hr.replying, hr.connects⟩
      exact hnone (hchunk.finish h _) rfl
  | @chunk h _ data _ _ ip pathId =>
      have hchunk : Requested requests { c with chunks := c.chunks ++ [(h, data)] } :=
        ⟨hr.count, hr.replying, hr.connects⟩
      have ht : Turn { c with chunks := c.chunks ++ [(h, data)] }
          ({ c with chunks := c.chunks ++ [(h, data)] }.setHandler h (.pacing data ip pathId)) h
          (.pacing data ip pathId) [] := ⟨rfl, (List.append_nil _).symm⟩
      exact hnone (hchunk.turn ht (by simp) (by simp)) rfl
  | @readFails h => exact hnone (hr.finish h _) rfl
  | @paced h pathId data ip hpc =>
      refine hnone (hr.sendFrame h (fun q hq k hk => ?_) (by simp) _ _ _ _) rfl
      have hdata := no_connect (by decide) (.inr (congrArg Option.toList hq)) q
        (List.mem_singleton.mpr rfl) k
      exact absurd hk hdata
  | @pacingFails h => exact hnone (hr.finish h _) rfl
  | @connectSent h => exact hnone (hr.loop h _) rfl
  | @dataSent h => exact hnone (hr.loop h _) rfl
  | @closeSent h =>
      have hs := closeWriter_sentSame { c with sessions := c.sessions.pop (c.sessionId h) } h false
      have ht : Turn c (c.unregister h) h .ended [] := by
        refine ⟨congrArg (fun l => l.set h HandlerPc.ended) hs.handlers, ?_⟩
        rw [List.append_nil]
        exact congrArg (List.map EncryptCall.payload) hs.encryptCalls
      exact hnone (hr.turn ht (by simp) (by simp)) rfl

/-- A session is connected at most once. -/
theorem Phase.connect_once (hp : Phase h c) : (commandsFor (h + 1) c).count 1 ≤ 1 := by
  obtain ⟨connect, n, close, heq, hconnect, hclose⟩ := hp.inOrder
  have hdata : (List.replicate n (2 : UInt8)).count 1 = 0 := by simp [List.count_replicate]
  have hend : close.count 1 = 0 := by
    rcases hclose with rfl | rfl
    · rfl
    · rfl
  have hstart : connect.count 1 ≤ 1 := by
    rcases hconnect with rfl | ⟨rfl, -⟩
    · rfl
    · exact Nat.zero_le 1
  rw [heq, List.count_append, List.count_append]
  omega

end AetherVPNClient

end AetherBond.Client
