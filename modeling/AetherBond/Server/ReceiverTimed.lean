import AetherBond.Server.ReceiverSteps

set_option autoImplicit false

/-! # The resequencing buffer against the clock

The flush task looks at the arrival time of the smallest buffered packet only. That is enough
as long as the reordering is bounded by the timeout: the number expected next then still has
time to arrive whenever a packet above it waits, so nothing is skipped and everything is
delivered (`run_delivers_all`).
-/

namespace AetherBond.Server.ResequencingBuffer

open AetherBond.Lib

variable {P σ : Type*} {callback : Callback P σ} {b b' : ResequencingBuffer P} {st st' : σ}
  {e : Event P} {es pre post : List (Event P)} {T : Int} {n : Nat} {payload : Nat → P}

/-! ## Timed runs -/

/-- The clock reading of an event. -/
def Event.now : Event P → Int
  | .put _ _ now => now
  | .flushCheck _ now => now

/-- Payload and time of an event that puts the number `s`. -/
def Event.puts? (s : Nat) : Event P → Option (P × Int)
  | .put seq payload now => if seq = s then some (payload, now) else none
  | .flushCheck _ _ => none

/-- Payload and time of the first arrival of the number `s`. -/
def firstPut (es : List (Event P)) (s : Nat) : Option (P × Int) := es.findSome? (Event.puts? s)

theorem firstPut_append (es es' : List (Event P)) (s : Nat) :
    firstPut (es ++ es') s = (firstPut es s).or (firstPut es' s) := List.findSome?_append

theorem mem_of_puts? {s : Nat} {x : P × Int} (h : e.puts? s = some x) : e = .put s x.1 x.2 := by
  cases e with
  | put seq payload now =>
      unfold Event.puts? at h
      dsimp only at h
      split_ifs at h with hs
      · rw [hs, ← Option.some.inj h]
  | flushCheck task now => cases h

theorem mem_of_firstPut {s : Nat} {x : P × Int} (h : firstPut es s = some x) :
    Event.put s x.1 x.2 ∈ es := by
  obtain ⟨e, he, hx⟩ := List.exists_of_findSome?_eq_some h
  exact mem_of_puts? hx ▸ he

/-- The packets `0, …, n - 1` and no others arrive, on a clock that never goes back, and each
one earlier than `T` after the first arrival of any packet above it. -/
structure BoundedReordering (T : Int) (n : Nat) (payload : Nat → P) (es : List (Event P)) :
    Prop where
  clock : (es.map Event.now).Pairwise (· ≤ ·)
  below : ∀ s x now, Event.put s x now ∈ es → s < n
  arrives : ∀ s < n, ∃ t, firstPut es s = some (payload s, t)
  soon : ∀ s u x y, s < u → firstPut es s = some x → firstPut es u = some y → x.2 < y.2 + T

/-! ## What a step keeps -/

/-- The puts accepted stay accepted, and the timeout stays. -/
theorem step_frame (hb : Settled b) (hstep : step callback (b, st) e = some (b', st')) :
    b'.flushTimeout = b.flushTimeout ∧ b.accepted <+: b'.accepted := by
  cases step_move hb hstep with
  | drops | leaves | waits => exact ⟨rfl, List.prefix_rfl⟩
  | @puts seq payload now _ _ b₁ _ hr =>
      have hframe : b₁.manageFlushTask.flushTimeout = b₁.flushTimeout ∧
          b₁.manageFlushTask.accepted = b₁.accepted := by
        unfold manageFlushTask
        split_ifs <;> exact ⟨rfl, rfl⟩
      rw [hframe.1, hframe.2, hr.flushTimeout, hr.accepted]
      exact ⟨rfl, List.prefix_append _ _⟩
  | skips _ _ _ hr => exact ⟨hr.flushTimeout, by rw [hr.accepted]⟩

/-- A number is dropped if it was accepted or lies below the one expected next. -/
theorem Settled.drops_iff (hb : Settled b) {s : Nat} :
    b.drops s ↔ s ∈ b.accepted.map Prod.fst ∨ s < b.expectedSeq := by
  have hmem : s ∈ b.accepted.map Prod.fst ↔ s ∈ b.delivered.map Prod.fst ∨ s ∈ heapSeqs b.heap := by
    rw [(hb.perm.map Prod.fst).mem_iff, List.map_append, map_fst_packet, List.mem_append]
  unfold drops
  rw [hb.seen, List.mem_toFinset, hmem]
  constructor
  · rintro (hs | hs)
    · exact Or.inl (Or.inr hs)
    · exact Or.inr hs
  · rintro ((hs | hs) | hs)
    · obtain ⟨d, hd, rfl⟩ := List.mem_map.mp hs
      exact Or.inr (hb.below d hd)
    · exact Or.inl hs
    · exact Or.inr hs

/-- Numbers that are dropped stay so. -/
theorem Settled.drops_step (hb : Settled b)
    (hstep : ResequencingBuffer.step callback (b, st) e = some (b', st')) {s : Nat}
    (hs : b.drops s) : b'.drops s := by
  have hb' : Settled b' := settled_of_run (s := (b, st)) hb
    (runFrom_cons_eq_some.mpr ⟨_, hstep, runFrom_nil _⟩)
  obtain ⟨run, heff⟩ := step_effect hb hstep
  obtain ⟨-, haccepted⟩ := step_frame hb hstep
  rcases hb.drops_iff.mp hs with hin | hlt
  · exact hb'.drops_iff.mpr (Or.inl ((haccepted.map Prod.fst).subset hin))
  · exact hb'.drops_iff.mpr (Or.inr (hlt.trans_le heff.grows))

/-! ## No skip -/

/-- The invariant, after the events `pre` of the run `es`. -/
structure InTime (T : Int) (n : Nat) (payload : Nat → P) (es pre : List (Event P))
    (b : ResequencingBuffer P) : Prop where
  settled : Settled b
  flushTimeout : b.flushTimeout = T
  bounded : b.expectedSeq ≤ n
  /-- Whatever has arrived is not accepted again. -/
  taken : ∀ s, (firstPut pre s).isSome → b.drops s
  /-- A buffered packet is the first one under its number. -/
  heap : ∀ x ∈ b.heap, firstPut es x.seq = some (x.payload, x.arrivalTime)
  delivered : b.delivered = (List.range b.expectedSeq).map fun s => (s, payload s)

theorem init_inTime (T : Int) (n : Nat) (payload : Nat → P) (es : List (Event P)) :
    InTime T n payload es [] (init T) where
  settled := init_settled T
  flushTimeout := rfl
  bounded := Nat.zero_le n
  taken s hs := by cases hs
  heap := by simp [init]
  delivered := rfl

/-- The number expected next has not arrived. -/
theorem InTime.expected_not_arrived (h : InTime T n payload es pre b) :
    firstPut pre b.expectedSeq = none := by
  by_contra hsome
  rcases h.taken _ (Option.isSome_iff_ne_none.mpr hsome) with hseen | hlt
  · rw [h.settled.seen, List.mem_toFinset] at hseen
    exact absurd (h.settled.above _ hseen) (lt_irrefl _)
  · exact absurd hlt (lt_irrefl _)

/-- **The flush task gives up on nothing**: the number it would skip first is still to come,
within its allowance. -/
theorem InTime.skips_nothing (h : InTime T n payload es pre b)
    (hes : BoundedReordering T n payload es) (hsplit : es = pre ++ e :: post) :
    b.skippedSeqs e = [] := by
  cases e with
  | put seq x now => rfl
  | flushCheck task now =>
      rcases hheap : b.heap with _ | ⟨oldest, rest⟩
      · unfold skippedSeqs
        dsimp only
        rw [hheap]
      · rw [flushCheck_skippedSeqs hheap, if_neg]
        rintro ⟨hlt, hexpired⟩
        have holdest := h.heap oldest (by rw [hheap]; exact List.mem_cons_self)
        have hbelow : oldest.seq < n := hes.below _ _ _ (mem_of_firstPut holdest)
        obtain ⟨t, ht⟩ := hes.arrives b.expectedSeq (hlt.trans hbelow)
        have hsoon : t < oldest.arrivalTime + T := hes.soon _ _ _ _ hlt ht holdest
        -- its first arrival is an event after this one
        have hnot := h.expected_not_arrived
        have hclock := hes.clock
        rw [hsplit, firstPut_append, hnot, Option.none_or] at ht
        rw [hsplit, List.map_append, List.map_cons, List.pairwise_append] at hclock
        have hlater : now ≤ t := by
          rcases List.mem_cons.mp (mem_of_firstPut ht) with heq | hin
          · cases heq
          · exact (List.pairwise_cons.mp hclock.2.1).1 t
              (List.mem_map.mpr ⟨_, hin, rfl⟩)
        rw [h.flushTimeout] at hexpired
        omega

/-- **The step lemma.** -/
theorem InTime.step (h : InTime T n payload es pre b) (hes : BoundedReordering T n payload es)
    (hsplit : es = pre ++ e :: post)
    (hstep : ResequencingBuffer.step callback (b, st) e = some (b', st')) :
    InTime T n payload es (pre ++ [e]) b' := by
  obtain ⟨run, heff⟩ := step_effect h.settled hstep
  have hgrows := heff.grows
  have hfirst : ∀ x ∈ run ++ b'.heap, firstPut es x.seq = some (x.payload, x.arrivalTime) := by
    intro x hx
    rcases heff.entries x hx with hold | hnew
    · exact h.heap x hold
    · cases e with
      | put seq x' now =>
          obtain ⟨hfresh, rfl⟩ := hnew
          have hnot : firstPut pre seq = none := by
            by_contra hsome
            exact hfresh (h.taken seq (Option.isSome_iff_ne_none.mpr hsome))
          rw [hsplit, firstPut_append, hnot, Option.none_or]
          simp [firstPut, Event.puts?]
      | flushCheck task now => exact hnew.elim
  have hpassed : run.map Entry.seq
      = List.range' b.expectedSeq (b'.expectedSeq - b.expectedSeq) := by
    rw [heff.passed, h.skips_nothing hes hsplit, List.nil_append]
  constructor
  case settled =>
    exact settled_of_run (s := (b, st)) h.settled
      (runFrom_cons_eq_some.mpr ⟨_, hstep, runFrom_nil _⟩)
  case flushTimeout => exact (step_frame h.settled hstep).1.trans h.flushTimeout
  case bounded =>
    by_contra hlt
    have hbounded := h.bounded
    have hlast : b'.expectedSeq - 1 ∈ run.map Entry.seq := by
      rw [hpassed, List.mem_range'_1]
      omega
    obtain ⟨x, hx, hseq⟩ := List.mem_map.mp hlast
    have hbelow := hes.below _ _ _ (mem_of_firstPut (hfirst x (List.mem_append_left _ hx)))
    omega
  case taken =>
    intro s hs
    rw [firstPut_append] at hs
    cases hpre : firstPut pre s with
    | some x => exact h.settled.drops_step hstep (h.taken s (by rw [hpre]; rfl))
    | none =>
        rw [hpre, Option.none_or] at hs
        obtain ⟨x, hx⟩ := Option.isSome_iff_exists.mp hs
        obtain rfl := List.mem_singleton.mp (mem_of_firstPut hx)
        by_cases hdrop : b.drops s
        · exact h.settled.drops_step hstep hdrop
        · exact h.settled.put_takes hdrop hstep
  case heap => exact fun x hx => hfirst x (List.mem_append_right _ hx)
  case delivered =>
    have hpackets : run.map Entry.packet
        = (run.map Entry.seq).map fun s => (s, payload s) := by
      rw [List.map_map]
      refine List.map_congr_left fun x hx => ?_
      have hx' := hfirst x (List.mem_append_left _ hx)
      obtain ⟨t, ht⟩ := hes.arrives x.seq (hes.below _ _ _ (mem_of_firstPut hx'))
      have heq : x.payload = payload x.seq :=
        congrArg Prod.fst (Option.some.inj (hx'.symm.trans ht))
      show (x.seq, x.payload) = (x.seq, payload x.seq)
      rw [heq]
    have hrange : List.range b'.expectedSeq
        = List.range b.expectedSeq
          ++ List.range' b.expectedSeq (b'.expectedSeq - b.expectedSeq) := by
      have happend := @List.range'_append_1 0 b.expectedSeq (b'.expectedSeq - b.expectedSeq)
      rw [Nat.zero_add, Nat.add_sub_cancel' hgrows] at happend
      rw [List.range_eq_range', List.range_eq_range', happend]
    calc b'.delivered
        = b.delivered ++ run.map Entry.packet := heff.delivered
      _ = (List.range b.expectedSeq).map (fun s => (s, payload s))
          ++ (run.map Entry.seq).map (fun s => (s, payload s)) := by
          rw [h.delivered, hpackets]
      _ = (List.range b'.expectedSeq).map fun s => (s, payload s) := by
          rw [hpassed, ← List.map_append, ← hrange]

/-- **The run lemma**, for the rest of a run. -/
theorem InTime.run (h : InTime T n payload es pre b) (hes : BoundedReordering T n payload es)
    (hsplit : es = pre ++ post)
    (hrun : runFrom (ResequencingBuffer.step callback) (b, st) post = some (b', st')) :
    InTime T n payload es es b' := by
  induction post generalizing pre b st with
  | nil =>
      obtain ⟨rfl, rfl⟩ := Prod.mk.inj (Option.some.inj hrun)
      rw [List.append_nil] at hsplit
      exact hsplit ▸ h
  | cons e post ih =>
      obtain ⟨⟨b₁, st₁⟩, hstep, hrest⟩ := runFrom_cons_eq_some.mp hrun
      exact ih (h.step hes hsplit hstep) (by rw [hsplit, List.append_assoc]; rfl) hrest

/-- **Nothing is lost under bounded reordering.** If the packets `0, …, n - 1` all arrive, each
earlier than the timeout after the first arrival of any packet above it, with any duplicates
and flush checks at any time, then exactly these packets are delivered, in order, and the heap
ends empty. -/
theorem run_delivers_all (callback : Callback P σ) (T : Int) (n : Nat) (payload : Nat → P)
    (st : σ) (es : List (Event P)) (b : ResequencingBuffer P) (st' : σ)
    (hes : BoundedReordering T n payload es)
    (hrun : runFrom (ResequencingBuffer.step callback) (init T, st) es = some (b, st')) :
    b.delivered = (List.range n).map (fun s => (s, payload s)) ∧ b.heap = [] := by
  have h := (init_inTime T n payload es).run hes (List.nil_append es).symm hrun
  have hempty : b.heap = [] := by
    by_contra hheap
    obtain ⟨oldest, holdest⟩ := List.exists_mem_of_ne_nil _ hheap
    have hlt := h.settled.above _ (mem_heapSeqs.mpr ⟨oldest, holdest, rfl⟩)
    have hbelow := hes.below _ _ _ (mem_of_firstPut (h.heap oldest holdest))
    obtain ⟨t, ht⟩ := hes.arrives b.expectedSeq (hlt.trans hbelow)
    rw [h.expected_not_arrived] at ht
    cases ht
  have hall : b.expectedSeq = n := by
    refine le_antisymm h.bounded (not_lt.mp fun hlt => ?_)
    obtain ⟨t, ht⟩ := hes.arrives b.expectedSeq hlt
    rcases h.taken _ (by rw [ht]; rfl) with hseen | hless
    · rw [h.settled.seen, hempty] at hseen
      simp [heapSeqs] at hseen
    · exact absurd hless (lt_irrefl _)
  rw [h.delivered, hall]
  exact ⟨rfl, hempty⟩

/-- The number 1 arrives first and a second time, the number 0 one nanosecond before the
timeout of the number 1. -/
def overtaken : List (Event Char) :=
  [.put 1 'b' 0, .flushCheck 0 30000000, .put 1 'b' 35000000, .flushCheck 0 39999999,
    .put 0 'a' 39999999, .flushCheck 0 90000000]

theorem overtaken_bounded :
    BoundedReordering 40000000 2 (fun s => if s = 0 then 'a' else 'b') overtaken where
  clock := by decide
  below := by
    intro s x now h
    simp only [overtaken, List.mem_cons, List.not_mem_nil, Event.put.injEq, reduceCtorEq,
      false_or, or_false] at h
    omega
  arrives := by
    intro s hs
    interval_cases s
    · exact ⟨39999999, rfl⟩
    · exact ⟨0, rfl⟩
  soon := by
    intro s u x y hsu hx hy
    have hmem := mem_of_firstPut hy
    simp only [overtaken, List.mem_cons, List.not_mem_nil, Event.put.injEq, reduceCtorEq,
      false_or, or_false] at hmem
    obtain ⟨rfl, rfl⟩ : u = 1 ∧ s = 0 := by omega
    obtain rfl := Option.some.inj (hx.symm.trans (show _ = some ('a', 39999999) from rfl))
    obtain rfl := Option.some.inj (hy.symm.trans (show _ = some ('b', 0) from rfl))
    decide

theorem run_delivers_all_overtaken :
    ∃ b st', runFrom (ResequencingBuffer.step fun _ n => (.ok (), n + 1))
        (init 40000000, 0) overtaken = some (b, st') ∧
      b.delivered = (List.range 2).map (fun s => (s, if s = 0 then 'a' else 'b')) ∧
      b.heap = [] := by
  obtain ⟨⟨b, st'⟩, hrun⟩ := Option.isSome_iff_exists.mp (show (runFrom
    (ResequencingBuffer.step fun _ n => (.ok (), n + 1)) (init 40000000, 0)
    overtaken).isSome by decide)
  exact ⟨b, st', hrun, run_delivers_all _ _ _ _ _ _ _ _ overtaken_bounded hrun⟩

end AetherBond.Server.ResequencingBuffer
