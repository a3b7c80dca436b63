import AetherBond.Lib.Bytes
import AetherBond.Lib.Run
import Mathlib.Logic.Function.Basic

set_option autoImplicit false

/-! # The relays of the proxy

`_relay_stream` of `aetherbond/client/proxy.py`, twice: the relay from a peer copies what that
peer sends to the other one, and closes the writer of the other one when its input ends. To close
a writer is to close its socket, in both directions: what has not arrived there by then never
does, and its reader ends behind what has arrived.

A relay has written all that its peer sends once it has ended, except for what was still on its
way when the other relay closed the socket. So both directions are complete, in a run to the end,
exactly if each relay comes to its end only when the other peer's bytes have all arrived
(`run_lossless_iff`). There is such an end to every run (`run_extends`).

Nothing fails here, and `stop` is not called. The two waits of a simulated link are one.
-/

namespace AetherBond.Client

open AetherBond.Lib

/-! ## The source -/

/-- The two ends of a connection through the proxy. -/
inductive Peer
  | client
  | remote
  deriving DecidableEq

instance : Fintype Peer where
  elems := {.client, .remote}
  complete p := by cases p <;> decide

def Peer.other : Peer → Peer
  | client => remote
  | remote => client

inductive RelayPc
  /-- In `reader.read`. -/
  | reading
  /-- In `simulate_delay` or `throttle_stream`. -/
  | pacing (data : Bytes)
  /-- In `writer.drain`. -/
  | draining
  /-- In `writer.wait_closed`. -/
  | closing
  | ended
  deriving DecidableEq

/-- What a relay has read and not written. -/
def RelayPc.inflight : RelayPc → Bytes
  | pacing data => data
  | _ => []

/-- The relay from a peer. -/
structure Relay where
  /-- What the peer sends and has not arrived. -/
  incoming : Bytes
  /-- The buffer of the reader, and whether it has its EOF. -/
  buffer : Bytes
  eof : Bool
  pc : RelayPc
  /-- What was written to the other peer. -/
  written : Bytes
  deriving DecidableEq

/-- `uplink` is the relay from the client, and `downlink` that from the remote. -/
structure RelayPair where
  isSim : Bool
  relay : Peer → Relay
  /-- The writer to a peer was closed. -/
  closed : Peer → Bool
  /-- The socket of a peer is closed. -/
  lost : Peer → Bool

namespace RelayPair

def bufferSize : Nat := 32 * 1024

/-- The start of the relays; `sent` is what each peer sends before its EOF. -/
def start (isSim : Bool) (sent : Peer → Bytes) : RelayPair where
  isSim := isSim
  relay p := ⟨sent p, [], false, .reading, []⟩
  closed _ := false
  lost _ := false

def setRelay (s : RelayPair) (p : Peer) (r : Relay) : RelayPair :=
  { s with relay := Function.update s.relay p r }

/-- `writer.write(data)`, and on to `writer.drain()`. -/
def write (s : RelayPair) (p : Peer) (data : Bytes) : RelayPair :=
  s.setRelay p { s.relay p with written := (s.relay p).written ++ data, pc := .draining }

/-- `reader.read` has returned data. -/
def forward (s : RelayPair) (p : Peer) : RelayPair :=
  let data := (s.relay p).buffer.take bufferSize
  let s := s.setRelay p { s.relay p with buffer := (s.relay p).buffer.drop bufferSize }
  if s.isSim then s.setRelay p { s.relay p with pc := .pacing data } else s.write p data

/-- `reader.read` has returned nothing: the `finally` clause closes the writer. -/
def finish (s : RelayPair) (p : Peer) : RelayPair :=
  { s.setRelay p { s.relay p with pc := .closing } with
    closed := Function.update s.closed p.other true }

inductive Event
  /-- The next `n` bytes of a peer arrive. -/
  | arrives (p : Peer) (n : Nat)
  /-- The EOF of a peer arrives. -/
  | eofArrives (p : Peer)
  /-- `reader.read` returns. -/
  | reads (p : Peer)
  /-- The waits of a simulated link are over. -/
  | paced (p : Peer)
  | drained (p : Peer)
  /-- The socket of a peer is closed, after `writer.close()`. -/
  | connectionLost (p : Peer)
  /-- `writer.wait_closed()` returns. -/
  | closedWaited (p : Peer)
  deriving DecidableEq

def step (s : RelayPair) : Event → Option RelayPair
  | .arrives p n =>
      let r := s.relay p
      if 0 < n ∧ n ≤ r.incoming.length ∧ ¬ s.closed p then
        some (s.setRelay p
          { r with incoming := r.incoming.drop n, buffer := r.buffer ++ r.incoming.take n })
      else none
  | .eofArrives p =>
      let r := s.relay p
      if r.incoming = [] ∧ ¬ r.eof ∧ ¬ s.closed p then some (s.setRelay p { r with eof := true })
      else none
  | .reads p =>
      let r := s.relay p
      if r.pc = .reading then
        if r.buffer ≠ [] then some (s.forward p) else if r.eof then some (s.finish p) else none
      else none
  | .paced p =>
      match (s.relay p).pc with
      | .pacing data => some (s.write p data)
      | _ => none
  | .drained p =>
      if (s.relay p).pc = .draining then some (s.setRelay p { s.relay p with pc := .reading })
      else none
  | .connectionLost p =>
      if s.closed p ∧ ¬ s.lost p then
        some { s.setRelay p { s.relay p with eof := true } with
          lost := Function.update s.lost p true }
      else none
  | .closedWaited p =>
      if (s.relay p).pc = .closing ∧ s.lost p.other then
        some (s.setRelay p { s.relay p with pc := .ended })
      else none

/-! ## The cases of a step -/

variable {s s' : RelayPair} {e : Event} {p q : Peer} {n : Nat}

theorem other_ne (p : Peer) : p.other ≠ p := by cases p <;> decide

theorem other_other (p : Peer) : p.other.other = p := by cases p <;> rfl

@[simp] theorem setRelay_self (s : RelayPair) (p : Peer) (r : Relay) :
    (s.setRelay p r).relay p = r := Function.update_self ..

@[simp] theorem setRelay_other (r : Relay) (h : q ≠ p) : (s.setRelay p r).relay q = s.relay q :=
  Function.update_of_ne h ..

theorem forward_eq (s : RelayPair) (p : Peer) : ∃ pc written,
    (pc = .pacing ((s.relay p).buffer.take bufferSize) ∧ written = [] ∨
      pc = .draining ∧ written = (s.relay p).buffer.take bufferSize) ∧
    s.forward p = s.setRelay p { s.relay p with
      buffer := (s.relay p).buffer.drop bufferSize
      pc := pc
      written := (s.relay p).written ++ written } := by
  unfold forward write
  dsimp only
  rw [setRelay_self]
  split
  · refine ⟨_, [], .inl ⟨rfl, rfl⟩, ?_⟩
    rw [List.append_nil]
    simp only [setRelay, Function.update_idem]
  · refine ⟨_, _, .inr ⟨rfl, rfl⟩, ?_⟩
    simp only [setRelay, Function.update_idem]

/-- **What a step does**, and when it can be taken. -/
inductive Move (s : RelayPair) : Event → RelayPair → Prop
  | arrives {p : Peer} {n : Nat} (hpos : 0 < n) (hn : n ≤ (s.relay p).incoming.length)
      (hopen : s.closed p = false) :
      Move s (.arrives p n) (s.setRelay p { s.relay p with
        incoming := (s.relay p).incoming.drop n
        buffer := (s.relay p).buffer ++ (s.relay p).incoming.take n })
  | eofArrives {p : Peer} (hincoming : (s.relay p).incoming = []) (heof : (s.relay p).eof = false) :
      Move s (.eofArrives p) (s.setRelay p { s.relay p with eof := true })
  | forwards {p : Peer} (hpc : (s.relay p).pc = .reading) (hbuffer : (s.relay p).buffer ≠ [])
      {pc : RelayPc} {written : Bytes}
      (hdata : pc = .pacing ((s.relay p).buffer.take bufferSize) ∧ written = [] ∨
        pc = .draining ∧ written = (s.relay p).buffer.take bufferSize) :
      Move s (.reads p) (s.setRelay p { s.relay p with
        buffer := (s.relay p).buffer.drop bufferSize
        pc := pc
        written := (s.relay p).written ++ written })
  | finishes {p : Peer} (hpc : (s.relay p).pc = .reading) (hbuffer : (s.relay p).buffer = [])
      (heof : (s.relay p).eof = true) : Move s (.reads p) (s.finish p)
  | paced {p : Peer} {data : Bytes} (hpc : (s.relay p).pc = .pacing data) :
      Move s (.paced p) (s.write p data)
  | drained {p : Peer} (hpc : (s.relay p).pc = .draining) :
      Move s (.drained p) (s.setRelay p { s.relay p with pc := .reading })
  | connectionLost {p : Peer} (hclosed : s.closed p = true) (hlost : s.lost p = false) :
      Move s (.connectionLost p) { s.setRelay p { s.relay p with eof := true } with
        lost := Function.update s.lost p true }
  | closedWaited {p : Peer} (hpc : (s.relay p).pc = .closing) (hlost : s.lost p.other = true) :
      Move s (.closedWaited p) (s.setRelay p { s.relay p with pc := .ended })

theorem step_move (h : s.step e = some s') : Move s e s' := by
  cases e with
  | arrives p n =>
      simp only [step] at h
      split_ifs at h with hif
      obtain rfl := Option.some.inj h
      obtain ⟨hpos, hn, hopen⟩ := hif
      exact .arrives hpos hn (by simpa using hopen)
  | eofArrives p =>
      simp only [step] at h
      split_ifs at h with hif
      obtain rfl := Option.some.inj h
      exact .eofArrives hif.1 (by simpa using hif.2.1)
  | reads p =>
      simp only [step] at h
      split_ifs at h with hpc hbuffer heof
      · obtain rfl := Option.some.inj h
        obtain ⟨pc, written, hdata, heq⟩ := forward_eq s p
        rw [heq]
        exact .forwards hpc hbuffer hdata
      · obtain rfl := Option.some.inj h
        exact .finishes hpc (not_not.mp hbuffer) heof
  | paced p =>
      simp only [step] at h
      split at h
      · next data hpc =>
          obtain rfl := Option.some.inj h
          exact .paced hpc
      · cases h
  | drained p =>
      simp only [step] at h
      split_ifs at h with hpc
      obtain rfl := Option.some.inj h
      exact .drained hpc
  | connectionLost p =>
      simp only [step] at h
      split_ifs at h with hif
      obtain rfl := Option.some.inj h
      exact .connectionLost hif.1 (by simpa using hif.2)
  | closedWaited p =>
      simp only [step] at h
      split_ifs at h with hif
      obtain rfl := Option.some.inj h
      exact .closedWaited hif.1 hif.2

/-- What a step does to the relay from `p`, if anything. -/
inductive Change (s : RelayPair) (p : Peer) : Relay → Prop
  | stays : Change s p (s.relay p)
  | arrives {n : Nat} (hpos : 0 < n) (hn : n ≤ (s.relay p).incoming.length)
      (hopen : s.closed p = false) :
      Change s p { s.relay p with
        incoming := (s.relay p).incoming.drop n
        buffer := (s.relay p).buffer ++ (s.relay p).incoming.take n }
  | eof (heof : (s.relay p).incoming = [] ∨ s.closed p = true) :
      Change s p { s.relay p with eof := true }
  | reads (hpc : (s.relay p).pc = .reading) (hbuffer : (s.relay p).buffer ≠ []) {pc : RelayPc}
      {written : Bytes} (hdata : pc = .pacing ((s.relay p).buffer.take bufferSize) ∧ written = [] ∨
        pc = .draining ∧ written = (s.relay p).buffer.take bufferSize) :
      Change s p { s.relay p with
        buffer := (s.relay p).buffer.drop bufferSize
        pc := pc
        written := (s.relay p).written ++ written }
  | paced {data : Bytes} (hpc : (s.relay p).pc = .pacing data) :
      Change s p { s.relay p with written := (s.relay p).written ++ data, pc := .draining }
  | drained (hpc : (s.relay p).pc = .draining) : Change s p { s.relay p with pc := .reading }
  | finishes (hpc : (s.relay p).pc = .reading) (hbuffer : (s.relay p).buffer = [])
      (heof : (s.relay p).eof = true) : Change s p { s.relay p with pc := .closing }
  | ends (hpc : (s.relay p).pc = .closing) : Change s p { s.relay p with pc := .ended }

/-- Only one relay changes. -/
theorem Change.setRelay {r : Relay} (h : Change s p r) (q : Peer) :
    Change s q ((s.setRelay p r).relay q) := by
  by_cases hq : q = p
  · subst hq
    rw [setRelay_self]
    exact h
  · rw [setRelay_other r hq]
    exact .stays

/-- The step closes the writer to `p`, as the relay from the other peer has come to its end. -/
def Closes (s : RelayPair) (e : Event) (p : Peer) : Prop :=
  e = .reads p.other ∧ (s.relay p.other).pc = .reading ∧ (s.relay p.other).buffer = [] ∧
    (s.relay p.other).eof = true

instance (s : RelayPair) (e : Event) (p : Peer) : Decidable (Closes s e p) :=
  inferInstanceAs (Decidable (_ ∧ _))

/-- A step changes one relay, and closes at most one writer. -/
theorem step_change (h : s.step e = some s') (p : Peer) :
    Change s p (s'.relay p) ∧ (s'.closed p = true ↔ s.closed p = true ∨ Closes s e p) := by
  have hclosed : ∀ {s' : RelayPair}, s'.closed = s.closed → (∀ q, e ≠ .reads q) →
      (s'.closed p = true ↔ s.closed p = true ∨ Closes s e p) := by
    intro s' heq hne
    rw [heq]
    exact ⟨.inl, fun hor => hor.resolve_right fun hcloses => hne _ hcloses.1⟩
  cases step_move h with
  | arrives hpos hn hopen =>
      exact ⟨(Change.arrives hpos hn hopen).setRelay p, hclosed rfl (by simp)⟩
  | eofArrives hincoming =>
      exact ⟨(Change.eof (.inl hincoming)).setRelay p, hclosed rfl (by simp)⟩
  | @forwards q hpc hbuffer pc written hdata =>
      refine ⟨(Change.reads hpc hbuffer hdata).setRelay p, ⟨.inl, fun hor => ?_⟩⟩
      refine hor.resolve_right fun hcloses => ?_
      obtain rfl : q = p.other := by simpa using hcloses.1
      exact hbuffer hcloses.2.2.1
  | @finishes q hpc hbuffer heof =>
      refine ⟨(Change.finishes hpc hbuffer heof).setRelay p, ?_⟩
      show Function.update s.closed q.other true p = true ↔ _
      by_cases hp : p = q.other
      · subst hp
        rw [Function.update_self]
        refine iff_of_true rfl (.inr ?_)
        unfold Closes
        rw [other_other]
        exact ⟨rfl, hpc, hbuffer, heof⟩
      · rw [Function.update_of_ne hp]
        refine ⟨.inl, fun hor => hor.resolve_right fun hcloses => hp ?_⟩
        obtain rfl : q = p.other := by simpa using hcloses.1
        exact (other_other p).symm
  | paced hpc => exact ⟨(Change.paced hpc).setRelay p, hclosed rfl (by simp)⟩
  | drained hpc => exact ⟨(Change.drained hpc).setRelay p, hclosed rfl (by simp)⟩
  | connectionLost htrue => exact ⟨(Change.eof (.inr htrue)).setRelay p, hclosed rfl (by simp)⟩
  | closedWaited hpc => exact ⟨(Change.ends hpc).setRelay p, hclosed rfl (by simp)⟩

/-- A relay that reads leaves the other one alone. -/
theorem step_reads_other (h : s.step (.reads p.other) = some s') : s'.relay p = s.relay p := by
  cases step_move h with
  | forwards | finishes => exact setRelay_other _ (other_ne p).symm

/-! ## The invariant -/

/-- The bytes a relay has to do with are those that its peer sends, and where it is at its end
there is nothing left in the reader; an EOF comes behind them, or when the socket is closed. -/
structure SoundRelay (sent : Bytes) (closed : Bool) (r : Relay) : Prop where
  bytes : sent = r.written ++ (r.pc.inflight ++ (r.buffer ++ r.incoming))
  eof : r.eof = true → r.incoming = [] ∨ closed = true
  done : r.pc = .closing ∨ r.pc = .ended → r.buffer = [] ∧ r.eof = true

variable {sent : Bytes} {closed : Bool} {r : Relay}

theorem SoundRelay.change (h : SoundRelay sent (s.closed p) (s.relay p)) (hchange : Change s p r)
    (hclosed : s.closed p = true → closed = true) : SoundRelay sent closed r := by
  have hbytes := h.bytes
  have heof : (s.relay p).eof = true → (s.relay p).incoming = [] ∨ closed = true :=
    fun heof => (h.eof heof).imp_right hclosed
  cases hchange with
  | stays => exact ⟨hbytes, heof, h.done⟩
  | @arrives n hpos hn hopen =>
      have hne : (s.relay p).incoming ≠ [] := fun hnil => by
        rw [hnil, List.length_nil] at hn
        omega
      -- there is no EOF yet, so the relay is not at its end
      have hnot : (s.relay p).eof ≠ true := fun htrue =>
        (h.eof htrue).elim hne fun hclosed => by simp [hopen] at hclosed
      refine ⟨?_, fun htrue => absurd htrue hnot, fun hpc => absurd (h.done hpc).2 hnot⟩
      rw [hbytes]
      simp only [List.append_assoc, List.take_append_drop]
  | eof hnil => exact ⟨hbytes, fun _ => hnil.imp_right hclosed, fun hpc => ⟨(h.done hpc).1, rfl⟩⟩
  | reads hpc _ hdata =>
      rw [hpc] at hbytes
      obtain ⟨rfl, rfl⟩ | ⟨rfl, rfl⟩ := hdata
      · refine ⟨?_, heof, fun hor => by simp at hor⟩
        rw [hbytes]
        simp only [RelayPc.inflight, List.append_nil, List.nil_append]
        rw [← List.append_assoc (List.take _ _), List.take_append_drop]
      · refine ⟨?_, heof, fun hor => by simp at hor⟩
        rw [hbytes]
        simp only [RelayPc.inflight, List.nil_append, List.append_assoc]
        rw [← List.append_assoc (List.take _ _), List.take_append_drop]
  | paced hpc =>
      rw [hpc] at hbytes
      refine ⟨?_, heof, fun hor => by simp at hor⟩
      rw [hbytes]
      simp only [RelayPc.inflight, List.nil_append, List.append_assoc]
  | drained hpc =>
      rw [hpc] at hbytes
      exact ⟨hbytes, heof, fun hor => by simp at hor⟩
  | finishes hpc hbuffer htrue =>
      rw [hpc] at hbytes
      exact ⟨hbytes, heof, fun _ => ⟨hbuffer, htrue⟩⟩
  | ends hpc =>
      have hdone := h.done (.inl hpc)
      rw [hpc] at hbytes
      exact ⟨hbytes, heof, fun _ => hdone⟩

/-- Nothing arrives any more where there is nothing, or from a closed socket. -/
theorem Change.incoming (hchange : Change s p r)
    (h : (s.relay p).incoming = [] ∨ s.closed p = true) : r.incoming = (s.relay p).incoming := by
  cases hchange with
  | arrives hpos hn hopen =>
      rcases h with hnil | hclosed
      · rw [hnil, List.length_nil] at hn
        omega
      · simp [hopen] at hclosed
  | stays | eof | reads | paced | drained | finishes | ends => rfl

/-- A relay closes the writer to the other peer when everything of that peer has arrived. -/
def ClosesLate (s : RelayPair) (e : Event) : Prop :=
  ∀ p, Closes s e p → (s.relay p).incoming = []

instance (s : RelayPair) (e : Event) : Decidable (ClosesLate s e) :=
  inferInstanceAs (Decidable (∀ p, Closes s e p → _))

/-- What holds in every state: the relays are sound. -/
def Sound (sent : Peer → Bytes) (s : RelayPair) : Prop :=
  ∀ p, SoundRelay (sent p) (s.closed p) (s.relay p)

variable {sent : Peer → Bytes} {isSim : Bool} {es : List Event}

theorem sound_of_run (hrun : runFrom step (start isSim sent) es = some s) : Sound sent s := by
  have hstart : Sound sent (start isSim sent) := fun p =>
    ⟨rfl, fun heof => (nomatch heof), fun hpc => by cases hpc <;> contradiction⟩
  refine runFrom_invariant (fun s e s' h hstep p => ?_) hstart hrun
  obtain ⟨hchange, hclosed⟩ := step_change hstep p
  exact (h p).change hchange fun htrue => hclosed.mpr (.inl htrue)

/-- Where each relay closes late, nothing is on its way from a closed socket. -/
theorem late_of_run (hrun : runFrom step (start isSim sent) es = some s)
    (hlate : Along step ClosesLate (start isSim sent) es) :
    ∀ p, s.closed p = true → (s.relay p).incoming = [] := by
  refine runFrom_invariant_along
    (I := fun s => ∀ p, s.closed p = true → (s.relay p).incoming = [])
    (fun s e s' h hlate hstep p htrue => ?_) (fun p htrue => by cases htrue) hlate hrun
  obtain ⟨hchange, hclosed⟩ := step_change hstep p
  have hnil : (s.relay p).incoming = [] := (hclosed.mp htrue).elim (h p) (hlate p)
  rw [hchange.incoming (.inl hnil), hnil]

/-- What is on its way from a closed socket stays there. -/
theorem incoming_of_closed (hclosed : s.closed p = true) (hrun : runFrom step s es = some s') :
    (s'.relay p).incoming = (s.relay p).incoming := by
  have h : s'.closed p = true ∧ (s'.relay p).incoming = (s.relay p).incoming := by
    refine runFrom_invariant
      (I := fun s' => s'.closed p = true ∧ (s'.relay p).incoming = (s.relay p).incoming)
      (fun s₁ e s₂ h hstep => ?_) ⟨hclosed, rfl⟩ hrun
    obtain ⟨hchange, hiff⟩ := step_change hstep p
    exact ⟨hiff.mpr (.inl h.1), (hchange.incoming (.inr h.1)).trans h.2⟩
  exact h.2

/-! ## Every run comes to its end

Each step takes something off the work that is left, and as long as a relay has not ended there is
a step to take. -/

/-- Both relays have ended. -/
def Ended (s : RelayPair) : Prop := ∀ p, (s.relay p).pc = .ended

instance (s : RelayPair) : Decidable (Ended s) :=
  inferInstanceAs (Decidable (∀ p : Peer, (s.relay p).pc = .ended))

/-- How far a relay is from its end, by its place; to read costs less than a byte is worth. -/
def place : RelayPc → Nat
  | .reading => 2
  | .pacing _ => 4
  | .draining => 3
  | .closing => 1
  | .ended => 0

/-- What is left to do for the bytes of a peer; `lost` says whether its socket is closed. -/
def workOf (lost : Bool) (r : Relay) : Nat :=
  5 * r.incoming.length + 4 * r.buffer.length + place r.pc + (!r.eof).toNat + (!lost).toNat

def work (s : RelayPair) : Nat :=
  workOf (s.lost .client) (s.relay .client) + workOf (s.lost .remote) (s.relay .remote)

/-- A closed socket has its EOF, and a relay that waits for one has closed it. -/
structure Orderly (s : RelayPair) : Prop where
  lost : ∀ p, s.lost p = true → (s.relay p).eof = true
  closing : ∀ p, (s.relay p).pc = .closing → s.closed p.other = true

theorem Orderly.setRelay (h : Orderly s) {r : Relay}
    (heof : (s.relay q).eof = true → r.eof = true)
    (hpc : r.pc = .closing → (s.relay q).pc = .closing) : Orderly (s.setRelay q r) := by
  constructor
  · intro p hlost
    by_cases hp : p = q
    · subst hp
      rw [setRelay_self]
      exact heof (h.lost p hlost)
    · rw [setRelay_other r hp]
      exact h.lost p hlost
  · intro p hclosing
    by_cases hp : p = q
    · subst hp
      rw [setRelay_self] at hclosing
      exact h.closing p (hpc hclosing)
    · rw [setRelay_other r hp] at hclosing
      exact h.closing p hclosing

theorem Orderly.finish (h : Orderly s) (q : Peer) : Orderly (s.finish q) := by
  constructor
  · intro p hlost
    have heof := h.lost p hlost
    unfold RelayPair.finish
    by_cases hp : p = q
    · subst hp
      simpa using heof
    · simpa [hp] using heof
  · intro p hclosing
    show Function.update s.closed q.other true p.other = true
    by_cases hp : p = q
    · subst hp
      exact Function.update_self ..
    · have hother : p.other ≠ q.other := fun heq => hp (by
        rw [← other_other p, heq, other_other])
      have hold : (s.relay p).pc = .closing := by simpa [RelayPair.finish, hp] using hclosing
      rw [Function.update_of_ne hother]
      exact h.closing p hold

theorem Orderly.step (h : Orderly s) (hstep : s.step e = some s') : Orderly s' := by
  cases step_move hstep with
  | arrives => exact h.setRelay id id
  | eofArrives => exact h.setRelay (fun _ => rfl) id
  | forwards _ _ hdata =>
      refine h.setRelay id fun hpc => ?_
      obtain ⟨rfl, -⟩ | ⟨rfl, -⟩ := hdata <;> cases hpc
  | finishes => exact h.finish _
  | paced | drained | closedWaited => exact h.setRelay id fun hpc => by cases hpc
  | @connectionLost q =>
      have hset := h.setRelay (r := { s.relay q with eof := true }) (fun _ => rfl) id
      refine ⟨fun p hlost => ?_, hset.closing⟩
      by_cases hp : p = q
      · subst hp
        show ((s.setRelay p _).relay p).eof = true
        rw [setRelay_self]
      · have hold : Function.update s.lost q true p = true := hlost
        rw [Function.update_of_ne hp] at hold
        exact hset.lost p hold

/-- As long as a relay has not ended there is a step to take. -/
theorem Orderly.exists_step (h : Orderly s) (hnot : ¬ Ended s) : ∃ e, (s.step e).isSome := by
  obtain ⟨p, hp⟩ := not_forall.mp hnot
  cases hpc : (s.relay p).pc with
  | reading =>
      by_cases hbuffer : (s.relay p).buffer = []
      case neg => exact ⟨.reads p, by simp [RelayPair.step, hpc, hbuffer]⟩
      by_cases heof : (s.relay p).eof = true
      · exact ⟨.reads p, by simp [RelayPair.step, hpc, hbuffer, heof]⟩
      -- the reader waits: for its socket to be closed, for more bytes or for an EOF
      by_cases hclosed : s.closed p = true
      · have hlost : ¬ s.lost p = true := fun hlost => heof (h.lost p hlost)
        exact ⟨.connectionLost p, by simp [RelayPair.step, hclosed, hlost]⟩
      by_cases hincoming : (s.relay p).incoming = []
      · exact ⟨.eofArrives p, by simp [RelayPair.step, hincoming, heof, hclosed]⟩
      · have hpos : 1 ≤ (s.relay p).incoming.length := List.length_pos_iff.mpr hincoming
        exact ⟨.arrives p 1, by simp [RelayPair.step, hpos, hclosed]⟩
  | pacing data => exact ⟨.paced p, by simp [RelayPair.step, hpc]⟩
  | draining => exact ⟨.drained p, by simp [RelayPair.step, hpc]⟩
  | closing =>
      by_cases hlost : s.lost p.other = true
      · exact ⟨.closedWaited p, by simp [RelayPair.step, hpc, hlost]⟩
      · exact ⟨.connectionLost p.other, by simp [RelayPair.step, h.closing p hpc, hlost]⟩
  | ended => exact absurd hpc hp

/-- Only the peer of the step has less to do. -/
theorem work_lt (q : Peer) (hrelay : s'.relay q.other = s.relay q.other)
    (hlost : s'.lost q.other = s.lost q.other)
    (hlt : workOf (s'.lost q) (s'.relay q) < workOf (s.lost q) (s.relay q)) : s'.work < s.work := by
  unfold work
  cases q with
  | client =>
      have hother : workOf (s'.lost .remote) (s'.relay .remote) =
          workOf (s.lost .remote) (s.relay .remote) := congrArg₂ workOf hlost hrelay
      omega
  | remote =>
      have hother : workOf (s'.lost .client) (s'.relay .client) =
          workOf (s.lost .client) (s.relay .client) := congrArg₂ workOf hlost hrelay
      omega

theorem work_setRelay {r : Relay} (hlt : workOf (s.lost q) r < workOf (s.lost q) (s.relay q)) :
    (s.setRelay q r).work < s.work := by
  refine work_lt q (setRelay_other r (other_ne q)) rfl ?_
  rw [setRelay_self]
  exact hlt

/-- **Each step takes something off the work.** -/
theorem step_work (hstep : s.step e = some s') : s'.work < s.work := by
  cases step_move hstep with
  | arrives hpos hn =>
      apply work_setRelay
      simp only [workOf, List.length_append, List.length_take, List.length_drop]
      omega
  | eofArrives _ heof =>
      apply work_setRelay
      simp [workOf, heof]
  | @forwards q hpc hbuffer pc written hdata =>
      have hpos : 0 < (s.relay q).buffer.length := List.length_pos_iff.mpr hbuffer
      have hplace : place pc ≤ 4 := by
        obtain ⟨rfl, -⟩ | ⟨rfl, -⟩ := hdata <;> simp [place]
      have hreading : place (s.relay q).pc = 2 := by rw [hpc]; rfl
      apply work_setRelay
      simp only [workOf, List.length_drop, hreading, bufferSize]
      omega
  | @finishes q hpc =>
      refine work_lt q (setRelay_other _ (other_ne q)) rfl ?_
      show workOf (s.lost q) ((s.setRelay q _).relay q) < _
      rw [setRelay_self]
      simp [workOf, hpc, place]
  | paced hpc =>
      apply work_setRelay
      simp [workOf, hpc, place]
  | drained hpc =>
      apply work_setRelay
      simp [workOf, hpc, place]
  | @connectionLost q _ hlost =>
      refine work_lt q (setRelay_other _ (other_ne q)) (Function.update_of_ne (other_ne q) ..) ?_
      show workOf (Function.update s.lost q true q) ((s.setRelay q _).relay q) < _
      rw [setRelay_self, Function.update_self]
      simp only [workOf, hlost]
      simp
  | closedWaited hpc =>
      apply work_setRelay
      simp [workOf, hpc, place]

/-- A run takes no more steps than there is work. -/
theorem run_work (hrun : runFrom step s es = some s') : es.length + s'.work ≤ s.work := by
  induction es generalizing s with
  | nil =>
      obtain rfl : s = s' := by simpa using hrun
      simp
  | cons e es ih =>
      obtain ⟨s₁, hstep, hrest⟩ := runFrom_cons_eq_some.mp hrun
      have hless := step_work hstep
      have hrest' := ih hrest
      rw [List.length_cons]
      omega

/-- **Every run goes on until both relays have ended.** -/
theorem Orderly.run_ends (h : Orderly s) :
    ∃ es s', runFrom RelayPair.step s es = some s' ∧ Ended s' := by
  induction hwork : s.work using Nat.strong_induction_on generalizing s with
  | _ k ih =>
      by_cases hended : Ended s
      · exact ⟨[], s, rfl, hended⟩
      obtain ⟨e, hsome⟩ := h.exists_step hended
      obtain ⟨s₁, hstep⟩ := Option.isSome_iff_exists.mp hsome
      obtain ⟨es, s', hrest, hended'⟩ := ih s₁.work (hwork ▸ step_work hstep) (h.step hstep) rfl
      exact ⟨e :: es, s', runFrom_cons_eq_some.mpr ⟨s₁, hstep, hrest⟩, hended'⟩

/-- No order of the steps gets stuck, and none goes on for ever. -/
theorem run_extends (hrun : runFrom step (start isSim sent) es = some s) :
    es.length ≤ (start isSim sent).work ∧
      ∃ es' s', runFrom step s es' = some s' ∧ Ended s' := by
  have hbound := run_work hrun
  have hstart : Orderly (start isSim sent) :=
    ⟨fun _ hlost => (nomatch hlost), fun _ hclosing => (nomatch hclosing)⟩
  have horderly := runFrom_invariant (fun _ _ _ h hstep => h.step hstep) hstart hrun
  exact ⟨by omega, horderly.run_ends⟩

/-! ## What is written in the end -/

/-- Everything that each peer sends is written to the other. -/
def Lossless (sent : Peer → Bytes) (s : RelayPair) : Prop := ∀ p, (s.relay p).written = sent p

instance (sent : Peer → Bytes) (s : RelayPair) : Decidable (Lossless sent s) :=
  inferInstanceAs (Decidable (∀ p : Peer, (s.relay p).written = sent p))

/-- A relay that has ended has written everything that has arrived. -/
theorem sent_eq (h : Sound sent s) (hended : (s.relay p).pc = .ended) :
    sent p = (s.relay p).written ++ (s.relay p).incoming := by
  have hbytes := (h p).bytes
  rw [hended, ((h p).done (.inr hended)).1] at hbytes
  exact hbytes

/-- **Both directions are complete exactly if each relay closes late**: for all that the peers
send and every order of the steps, at the end everything is written if and only if no relay comes
to its end before the other peer's bytes have all arrived. -/
theorem run_lossless_iff (isSim : Bool) (sent : Peer → Bytes) (es : List Event) (s : RelayPair)
    (hrun : runFrom step (start isSim sent) es = some s) (hended : Ended s) :
    Lossless sent s ↔ Along step ClosesLate (start isSim sent) es := by
  have hsound := sound_of_run hrun
  constructor
  · intro hlossless
    refine along_of_steps hrun fun pre e s₁ s₂ hprefix hpre hstep p hcloses => ?_
    obtain ⟨post, rfl⟩ := hprefix
    obtain ⟨s₂', hpre', hpost⟩ := runFrom_append_eq_some.mp hrun
    obtain rfl : s₂ = s₂' := Option.some.inj ((runFrom_concat hpre hstep).symm.trans hpre')
    obtain ⟨hchange, hclosed⟩ := step_change hstep p
    -- what has not arrived by now does not arrive later, and nothing is missing at the end
    have hlast : (s.relay p).incoming = (s₂.relay p).incoming :=
      incoming_of_closed (hclosed.mpr (.inr hcloses)) hpost
    have hnil : (s.relay p).incoming = [] := by
      have hsent := sent_eq hsound (hended p)
      rw [hlossless p] at hsent
      exact List.append_right_eq_self.mp hsent.symm
    obtain ⟨rfl, -⟩ := hcloses
    rw [← step_reads_other hstep, ← hlast, hnil]
  · intro hlate p
    have hincoming : (s.relay p).incoming = [] :=
      ((hsound p).eof ((hsound p).done (.inr (hended p))).2).elim id (late_of_run hrun hlate p)
    rw [sent_eq hsound (hended p), hincoming, List.append_nil]

/-- What the peers send, for the two runs below. -/
def greetings (hello welcome : Bytes) : Peer → Bytes
  | .client => hello
  | .remote => welcome

/-- The remote's byte has arrived when the client ends. -/
def replyArrivesFirst : List Event :=
  [.arrives .client 2, .reads .client, .drained .client, .arrives .remote 1, .eofArrives .client,
    .reads .client, .connectionLost .remote, .closedWaited .client, .reads .remote,
    .drained .remote, .reads .remote, .connectionLost .client, .closedWaited .remote]

theorem run_lossless_replyArrivesFirst :
    ∃ s, runFrom step (start false (greetings [1, 2] [3])) replyArrivesFirst = some s ∧ Ended s ∧
      Lossless (greetings [1, 2] [3]) s := by
  obtain ⟨s, hrun⟩ := Option.isSome_iff_exists.mp
    (show (runFrom step (start false (greetings [1, 2] [3])) replyArrivesFirst).isSome by
      decide +kernel)
  have hended : ∀ s ∈ runFrom step (start false (greetings [1, 2] [3])) replyArrivesFirst,
      Ended s := by decide +kernel
  exact ⟨s, hrun, hended s hrun,
    (run_lossless_iff false _ _ s hrun (hended s hrun)).mpr (by decide +kernel)⟩

/-- The client ends without a byte, and the remote's is still on its way. -/
def replyOutstanding : List Event :=
  [.eofArrives .client, .reads .client, .connectionLost .remote, .closedWaited .client,
    .reads .remote, .connectionLost .client, .closedWaited .remote]

/-- It is never written. -/
theorem half_close_loses_reply :
    ¬ ∀ (isSim : Bool) (sent : Peer → Bytes) (es : List Event) (s : RelayPair),
      runFrom step (start isSim sent) es = some s → Ended s → Lossless sent s := by
  intro h
  have hlost : ∀ s ∈ runFrom step (start false (greetings [] [3])) replyOutstanding,
      Ended s ∧ ¬ Lossless (greetings [] [3]) s := by decide +kernel
  obtain ⟨s, hrun⟩ := Option.isSome_iff_exists.mp
    (show (runFrom step (start false (greetings [] [3])) replyOutstanding).isSome by decide +kernel)
  obtain ⟨hended, hnot⟩ := hlost s hrun
  exact hnot (h false _ _ s hrun hended)

end RelayPair

end AetherBond.Client
