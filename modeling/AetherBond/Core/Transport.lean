import AetherBond.Lib.Dict
import AetherBond.Lib.Run

set_option autoImplicit false

/-! # The stream registry of the QUIC multiplexer

`QuicMultiplexer` of `aetherbond-core/src/transport/mod.rs`. The clones of a multiplexer share
one map of streams behind a mutex, and each method is one critical section, so the calls of any
number of threads are a list of calls. An `Arc<QuicVirtualStream>` is the index of the stream in
`made`, which keeps all streams ever created; the order of a `HashMap` is left open by the code
and is that of the insertions here.

The limit is kept in every run (`len_le_of_run`). A stream stays registered until it is closed
as long as no id is created a second time while it is open (`run_registryLaw_iff`): `insert`
replaces the entry of an open id, and the first stream is out of reach from then on.
-/

namespace AetherBond.Core

open AetherBond.Lib

/-- `QuicVirtualStream`; its sender is a channel for `bufferSize` payloads. -/
structure QuicVirtualStream where
  streamId : UInt32
  priority : UInt8
  bufferSize : Nat
  deriving DecidableEq

/-- One clone of the multiplexer, without the map it shares. -/
structure QuicMultiplexer where
  maxStreams : Nat
  deriving DecidableEq

/-- What the clones share. -/
structure SharedStreams where
  streams : Dict UInt32 Nat
  made : List QuicVirtualStream

namespace QuicMultiplexer

/-- `create_stream`, with the stream it returns. -/
def createStream (mux : QuicMultiplexer) (shared : SharedStreams) (streamId : UInt32)
    (priority : UInt8) : SharedStreams × Option Nat :=
  if mux.maxStreams ≤ shared.streams.len then (shared, none)
  else
    -- an id that is open is not looked for: its entry is replaced
    ({ streams := shared.streams.set streamId shared.made.length
       made := shared.made ++ [⟨streamId, priority, 128⟩] }, some shared.made.length)

/-- `get_stream`. -/
def getStream (shared : SharedStreams) (streamId : UInt32) : Option Nat :=
  shared.streams.get? streamId

/-- `close_stream`. -/
def closeStream (shared : SharedStreams) (streamId : UInt32) : SharedStreams :=
  { shared with streams := shared.streams.pop streamId }

/-- `get_stream_priorities`. -/
def getStreamPriorities (shared : SharedStreams) : List (UInt32 × UInt8) :=
  shared.streams.entries.filterMap fun e =>
    shared.made[e.2]?.map fun stream => (e.1, stream.priority)

end QuicMultiplexer

/-- The clones of one multiplexer. -/
structure Transport extends SharedStreams where
  clones : List QuicMultiplexer

namespace Transport

/-- A call on clone `i`. -/
inductive Call
  | clone (i : Nat)
  | createStream (i : Nat) (streamId : UInt32) (priority : UInt8)
  | getStream (i : Nat) (streamId : UInt32)
  | closeStream (i : Nat) (streamId : UInt32)
  | getStreamPriorities (i : Nat)
  deriving DecidableEq

/-- `QuicMultiplexer::new`. -/
def new (maxStreams : Nat) : Transport where
  streams := .empty
  made := []
  clones := [⟨maxStreams⟩]

/-- What `create_stream` returns on clone `i`. -/
def created (t : Transport) (i : Nat) (streamId : UInt32) (priority : UInt8) : Option Nat :=
  t.clones[i]?.bind fun mux => (mux.createStream t.toSharedStreams streamId priority).2

def getStream (t : Transport) (streamId : UInt32) : Option Nat :=
  QuicMultiplexer.getStream t.toSharedStreams streamId

def step (t : Transport) : Call → Option Transport
  | .clone i => t.clones[i]?.map fun mux => { t with clones := t.clones ++ [mux] }
  | .createStream i streamId priority =>
      t.clones[i]?.map fun mux =>
        { t with
          toSharedStreams := (mux.createStream t.toSharedStreams streamId priority).1 }
  | .getStream i _ => t.clones[i]?.map fun _ => t
  | .closeStream i streamId =>
      t.clones[i]?.map fun _ =>
        { t with toSharedStreams := QuicMultiplexer.closeStream t.toSharedStreams streamId }
  | .getStreamPriorities i => t.clones[i]?.map fun _ => t

variable {m : Nat} {t t' : Transport} {streamId : UInt32} {o : Nat} {c : Call} {cs : List Call}

/-! ## The limit -/

/-- Every clone has the limit, and it is kept; the registered streams have been made. -/
structure Limited (m : Nat) (t : Transport) : Prop where
  clones : ∀ mux ∈ t.clones, mux.maxStreams = m
  len : t.streams.len ≤ m
  made : ∀ k o, t.streams.get? k = some o → o < t.made.length

theorem new_limited (m : Nat) : Limited m (new m) where
  clones := by simp [new]
  len := Nat.zero_le m
  made := by simp [new]

theorem Limited.create (h : Limited m t) {mux : QuicMultiplexer} (hmux : mux ∈ t.clones)
    (streamId : UInt32) (priority : UInt8) :
    Limited m { t with
      toSharedStreams := (mux.createStream t.toSharedStreams streamId priority).1 } := by
  unfold QuicMultiplexer.createStream
  split_ifs with hfull
  · exact h
  · rw [h.clones mux hmux] at hfull
    refine ⟨h.clones, (Dict.len_set_le _ _ _).trans (not_le.mp hfull), fun k o hko => ?_⟩
    dsimp only
    rw [List.length_append, List.length_singleton]
    obtain ⟨-, rfl⟩ | ⟨-, hold⟩ := Dict.get?_set_cases hko
    · exact Nat.lt_succ_self _
    · exact (h.made k o hold).trans (Nat.lt_succ_self _)

/-- **The step lemma** of `Limited`. -/
theorem Limited.step (h : Limited m t) (hstep : t.step c = some t') : Limited m t' := by
  cases c with
  | clone i =>
      obtain ⟨mux, hmux, rfl⟩ := Option.map_eq_some_iff.mp hstep
      refine ⟨fun mux' hin => ?_, h.len, h.made⟩
      rcases List.mem_append.mp hin with hin | hin
      · exact h.clones mux' hin
      · rw [List.mem_singleton.mp hin]
        exact h.clones mux (List.mem_of_getElem? hmux)
  | createStream i streamId priority =>
      obtain ⟨mux, hmux, rfl⟩ := Option.map_eq_some_iff.mp hstep
      exact h.create (List.mem_of_getElem? hmux) streamId priority
  | closeStream i streamId =>
      obtain ⟨mux, -, rfl⟩ := Option.map_eq_some_iff.mp hstep
      exact ⟨h.clones, (Dict.len_pop_le _ _).trans h.len,
        fun k o hko => h.made k o (Dict.get?_of_get?_pop hko).2⟩
  | getStream i streamId =>
      obtain ⟨mux, -, rfl⟩ := Option.map_eq_some_iff.mp hstep
      exact h
  | getStreamPriorities i =>
      obtain ⟨mux, -, rfl⟩ := Option.map_eq_some_iff.mp hstep
      exact h

theorem limited_of_run (hrun : runFrom step (new m) cs = some t) : Limited m t :=
  runFrom_invariant (fun _ _ _ h hstep => Limited.step h hstep) (new_limited m) hrun

/-! ## What a call does to one id -/

/-- The call closes the id. -/
def Call.Closes (streamId : UInt32) : Call → Prop
  | .closeStream _ k => k = streamId
  | _ => False

/-- The call opens the id: there is room for it. -/
def Call.Opens (streamId : UInt32) (t : Transport) : Call → Prop
  | .createStream i k priority => k = streamId ∧ (t.created i k priority).isSome
  | _ => False

/-- A successful `create_stream` registers a stream made for it. -/
theorem step_created {i : Nat} {priority : UInt8} (ho : t.created i streamId priority = some o)
    (hstep : t.step (.createStream i streamId priority) = some t') :
    t'.getStream streamId = some o ∧ o = t.made.length := by
  obtain ⟨mux, hmux, rfl⟩ := Option.map_eq_some_iff.mp hstep
  unfold created at ho
  rw [hmux, Option.bind_some] at ho
  unfold getStream QuicMultiplexer.getStream
  unfold QuicMultiplexer.createStream at ho ⊢
  split_ifs at ho ⊢
  obtain rfl := Option.some.inj ho
  exact ⟨Dict.get?_set_self _ _ _, rfl⟩

/-- Every other call leaves the id as it is. -/
theorem step_getStream (hstep : t.step c = some t') (hcloses : ¬ c.Closes streamId)
    (hopens : ¬ c.Opens streamId t) : t'.getStream streamId = t.getStream streamId := by
  cases c with
  | createStream i k priority =>
      obtain ⟨mux, hmux, rfl⟩ := Option.map_eq_some_iff.mp hstep
      -- of this id it was refused; of another it does not touch this entry
      by_cases hk : k = streamId
      · have hnone : ¬ (t.created i k priority).isSome := fun hsome => hopens ⟨hk, hsome⟩
        unfold created at hnone
        rw [hmux, Option.bind_some] at hnone
        unfold getStream QuicMultiplexer.getStream
        unfold QuicMultiplexer.createStream at hnone ⊢
        split_ifs at hnone ⊢
        · rfl
        · exact absurd rfl hnone
      · unfold getStream QuicMultiplexer.getStream QuicMultiplexer.createStream
        split_ifs
        · rfl
        · dsimp only
          rw [Dict.get?_set, if_neg (Ne.symm hk)]
  | closeStream i k =>
      obtain ⟨mux, -, rfl⟩ := Option.map_eq_some_iff.mp hstep
      have hk : ¬ k = streamId := hcloses
      unfold getStream QuicMultiplexer.getStream QuicMultiplexer.closeStream
      dsimp only
      rw [Dict.get?_pop, if_neg (Ne.symm hk)]
  | clone i =>
      obtain ⟨mux, -, rfl⟩ := Option.map_eq_some_iff.mp hstep
      rfl
  | getStream i k =>
      obtain ⟨mux, -, rfl⟩ := Option.map_eq_some_iff.mp hstep
      rfl
  | getStreamPriorities i =>
      obtain ⟨mux, -, rfl⟩ := Option.map_eq_some_iff.mp hstep
      rfl

/-- A close leaves nothing under its id. -/
theorem step_closes (hstep : t.step c = some t') (hcloses : c.Closes streamId) :
    t'.getStream streamId = none := by
  cases c with
  | closeStream i k =>
      obtain ⟨mux, -, rfl⟩ := Option.map_eq_some_iff.mp hstep
      obtain rfl : k = streamId := hcloses
      exact (Dict.get?_pop _ _ _).trans (if_pos rfl)
  | _ => exact absurd hcloses id

/-! ## The law of the registry -/

/-- While there is room, no id is created that is open already. -/
def NoReopen (maxStreams : Nat) (t : Transport) : Call → Prop
  | .createStream _ streamId _ => t.streams.len < maxStreams → t.getStream streamId = none
  | _ => True

instance (maxStreams : Nat) (t : Transport) : ∀ c : Call, Decidable (NoReopen maxStreams t c)
  | .createStream _ _ _ => inferInstanceAs (Decidable (_ → _))
  | .clone _ | .getStream _ _ | .closeStream _ _ | .getStreamPriorities _ => isTrue trivial

/-- A stream is created if and only if there is room. -/
theorem Limited.created_isSome_iff (h : Limited m t) {i : Nat} {mux : QuicMultiplexer}
    (hmux : t.clones[i]? = some mux) (streamId : UInt32) (priority : UInt8) :
    (t.created i streamId priority).isSome ↔ t.streams.len < m := by
  have hmax := h.clones mux (List.mem_of_getElem? hmux)
  unfold created QuicMultiplexer.createStream
  rw [hmux, Option.bind_some, hmax]
  split_ifs with hfull
  · exact iff_of_false (by simp) (not_lt.mpr hfull)
  · exact iff_of_true rfl (not_le.mp hfull)

theorem NoReopen.getStream (h : NoReopen m t c) (hlimited : Limited m t)
    (hopens : c.Opens streamId t) : t.getStream streamId = none := by
  cases c with
  | createStream i k priority =>
      obtain ⟨rfl, hsome⟩ := hopens
      obtain ⟨o, ho⟩ := Option.isSome_iff_exists.mp hsome
      obtain ⟨mux, hmux, -⟩ := Option.bind_eq_some_iff.mp ho
      exact h ((hlimited.created_isSome_iff hmux k priority).mp hsome)
  | _ => exact absurd hopens id

/-- In the calls `cs`, `create_stream` returned the stream `o` for the id, and no later call
closes the id. -/
def OpenSince (m : Nat) (cs : List Call) (streamId : UInt32) (o : Nat) : Prop :=
  ∃ pre i priority mid t, cs = pre ++ .createStream i streamId priority :: mid ∧
    (∀ c ∈ mid, ¬ c.Closes streamId) ∧ runFrom step (new m) pre = some t ∧
    t.created i streamId priority = some o

/-- The law of the registry, over the calls `cs`: the limit is kept, and `get_stream` returns
the stream that was created until it is closed. -/
structure RegistryLaw (m : Nat) (cs : List Call) : Prop where
  limit : ∀ pre t, pre <+: cs → runFrom step (new m) pre = some t → t.streams.len ≤ m
  kept : ∀ pre t streamId o, pre <+: cs → runFrom step (new m) pre = some t →
    OpenSince m pre streamId o → t.getStream streamId = some o

theorem OpenSince.concat (h : OpenSince m cs streamId o) (hcloses : ¬ c.Closes streamId) :
    OpenSince m (cs ++ [c]) streamId o := by
  obtain ⟨pre, i, priority, mid, t, rfl, hmid, hrun, ho⟩ := h
  refine ⟨pre, i, priority, mid ++ [c], t, by simp, fun c' hc' => ?_, hrun, ho⟩
  rcases List.mem_append.mp hc' with hc' | hc'
  · exact hmid c' hc'
  · rw [List.mem_singleton.mp hc']
    exact hcloses

/-- What is registered was created and not closed since. -/
theorem openSince_of_getStream (hrun : runFrom step (new m) cs = some t)
    (ho : t.getStream streamId = some o) : OpenSince m cs streamId o := by
  induction cs using List.reverseRecOn generalizing t with
  | nil =>
      obtain rfl := Option.some.inj hrun
      cases ho
  | append_singleton cs c ih =>
      obtain ⟨t₁, hrun₁, hlast⟩ := runFrom_append_eq_some.mp hrun
      obtain ⟨t₂, hstep, rfl⟩ : ∃ t₂, t₁.step c = some t₂ ∧ t₂ = t := by
        obtain ⟨t₂, hstep, hnil⟩ := runFrom_cons_eq_some.mp hlast
        exact ⟨t₂, hstep, Option.some.inj hnil⟩
      have hcloses : ¬ c.Closes streamId := fun hcloses => by
        rw [step_closes hstep hcloses] at ho
        cases ho
      -- the last call opened the id, or left it as it was
      by_cases hopens : c.Opens streamId t₁
      · cases c with
        | createStream i k priority =>
            obtain ⟨rfl, hsome⟩ := hopens
            obtain ⟨o', ho'⟩ := Option.isSome_iff_exists.mp hsome
            obtain rfl : o' = o :=
              Option.some.inj ((step_created ho' hstep).1.symm.trans ho)
            exact ⟨cs, i, priority, [], t₁, rfl, by simp, hrun₁, ho'⟩
        | _ => exact absurd hopens id
      · rw [step_getStream hstep hcloses hopens] at ho
        exact (ih hrun₁ ho).concat hcloses

/-- If no open id is opened again, a stream stays registered until it is closed. -/
theorem OpenSince.getStream (h : OpenSince m cs streamId o)
    (hrun : runFrom step (new m) cs = some t) (halong : Along step (NoReopen m) (new m) cs) :
    t.getStream streamId = some o := by
  obtain ⟨pre, i, priority, mid, t₀, rfl, hmid, hpre, ho⟩ := h
  obtain ⟨t₁, hpre₁, hrest⟩ := runFrom_append_eq_some.mp hrun
  obtain rfl : t₀ = t₁ := Option.some.inj (hpre.symm.trans hpre₁)
  obtain ⟨t₂, hcreate, hlast⟩ := runFrom_cons_eq_some.mp hrest
  have halong₂ : Along step (NoReopen m) t₂ mid :=
    ((along_append.mp halong).2 t₀ hpre).2 t₂ hcreate
  have hlimited₂ : Limited m t₂ := (limited_of_run hpre).step hcreate
  -- from the creation on no call closes the id, and none opens it again
  have hkept : ∀ (t : Transport) (c : Call) (t' : Transport),
      Limited m t ∧ t.getStream streamId = some o → ¬ c.Closes streamId ∧ NoReopen m t c →
      t.step c = some t' → Limited m t' ∧ t'.getStream streamId = some o := by
    rintro t c t' ⟨hlimited, hopen⟩ ⟨hcloses, hnew⟩ hstep
    have hopens : ¬ c.Opens streamId t := fun hopens => by
      rw [hnew.getStream hlimited hopens] at hopen
      cases hopen
    exact ⟨hlimited.step hstep, (step_getStream hstep hcloses hopens).trans hopen⟩
  exact (runFrom_invariant_along hkept ⟨hlimited₂, (step_created ho hcreate).1⟩
    (along_and hmid halong₂) hlast).2

/-- **The limit** is kept in every run. -/
theorem len_le_of_run (hrun : runFrom step (new m) cs = some t) : t.streams.len ≤ m :=
  (limited_of_run hrun).len

/-- **The registry keeps its law exactly if no open id is created again while there is room**, for
every limit and every order of the calls on any clones. -/
theorem run_registryLaw_iff (m : Nat) (cs : List Call) (t : Transport)
    (hrun : runFrom step (new m) cs = some t) :
    RegistryLaw m cs ↔ Along step (NoReopen m) (new m) cs := by
  constructor
  · intro hlaw
    refine along_of_steps hrun fun pre c t₁ t₂ hprefix hpre hstep => ?_
    cases c with
    | createStream i k priority =>
        intro hroom
        by_contra hopen
        obtain ⟨o, ho⟩ := Option.ne_none_iff_exists'.mp hopen
        obtain ⟨mux, hmux, -⟩ := Option.map_eq_some_iff.mp hstep
        obtain ⟨o', ho'⟩ := Option.isSome_iff_exists.mp
          (((limited_of_run hpre).created_isSome_iff hmux k priority).mpr hroom)
        -- the new stream is registered, though the old one was not closed
        have hkept := hlaw.kept _ t₂ k o hprefix (runFrom_concat hpre hstep)
          ((openSince_of_getStream hpre ho).concat id)
        obtain ⟨hnew, rfl⟩ := step_created ho' hstep
        obtain rfl : t₁.made.length = o := Option.some.inj (hnew.symm.trans hkept)
        exact lt_irrefl _ ((limited_of_run hpre).made k _ ho)
    | _ => trivial
  · intro halong
    refine ⟨fun pre t₁ _ hpre => len_le_of_run hpre, fun pre t₁ streamId o hprefix hpre hopen => ?_⟩
    obtain ⟨post, rfl⟩ := hprefix
    exact hopen.getStream hpre (along_append.mp halong).1

/-- With room for one stream: a second one and a second 10 are refused, and 10 is opened again
after it was closed, through another clone. -/
theorem run_registryLaw_reused : RegistryLaw 1
    [.createStream 0 10 0, .clone 0, .createStream 1 20 1, .createStream 0 10 9,
      .closeStream 1 10, .createStream 1 10 5] := by
  obtain ⟨t, hrun⟩ := Option.isSome_iff_exists.mp (show (runFrom step (new 1)
    [.createStream 0 10 0, .clone 0, .createStream 1 20 1, .createStream 0 10 9,
      .closeStream 1 10, .createStream 1 10 5]).isSome by decide)
  exact (run_registryLaw_iff 1 _ t hrun).mpr (by decide)

/-- Stream 10 is created twice: the second stream takes the place of the first. -/
theorem open_stream_replaced :
    ¬ ∀ (m : Nat) (cs : List Call) (t : Transport), runFrom step (new m) cs = some t →
      RegistryLaw m cs := by
  intro h
  have hget : (runFrom step (new 5) [.createStream 0 10 0, .createStream 0 10 7]).map
      (fun t => t.getStream 10) = some (some 1) := by decide
  obtain ⟨t, hrun, hnew⟩ := Option.map_eq_some_iff.mp hget
  have hopen : OpenSince 5 [.createStream 0 10 0, .createStream 0 10 7] 10 0 :=
    ⟨[], 0, 0, [.createStream 0 10 7], new 5, rfl, by simp [Call.Closes], rfl, by decide⟩
  have hold := (h 5 _ t hrun).kept _ t 10 0 List.prefix_rfl hrun hopen
  rw [hnew] at hold
  cases hold

end Transport

end AetherBond.Core
