import Mathlib.Tactic

set_option autoImplicit false

/-! # Runs of a partial step function

A system is a partial step function `step : σ → ε → Option σ`: `step s e = none` says that
the event `e` cannot happen in the state `s`. A run is a list of events; `runFrom` executes
it, and fails as soon as one event cannot happen.

Two proof rules carry an argument about one step to an argument about all runs.
`runFrom_invariant_along` is the invariant rule for runs whose steps all meet a condition `G` on
the state before the step and the event (`Along`), which is how a property is proved under a
condition on the environment. `runFrom_invariant` is the case without a condition.
-/

namespace AetherBond.Lib

variable {σ ε : Type*}

/-- Execute a list of events from `s`, first to last. -/
def runFrom (step : σ → ε → Option σ) : σ → List ε → Option σ
  | s, [] => some s
  | s, e :: es => (step s e).bind fun s' => runFrom step s' es

/-- Every step of the run from `s` meets `G`, read in the state before the step. -/
def Along (step : σ → ε → Option σ) (G : σ → ε → Prop) : σ → List ε → Prop
  | _, [] => True
  | s, e :: es => G s e ∧ ∀ s', step s e = some s' → Along step G s' es

/-- The states a run from `init` can end in. -/
def Reachable (step : σ → ε → Option σ) (init s : σ) : Prop :=
  ∃ es, runFrom step init es = some s

variable {step : σ → ε → Option σ} {G : σ → ε → Prop} {I : σ → Prop}

@[simp] theorem runFrom_nil (s : σ) : runFrom step s [] = some s := rfl

theorem runFrom_cons_eq_some {s s'' : σ} {e : ε} {es : List ε} :
    runFrom step s (e :: es) = some s'' ↔
      ∃ s', step s e = some s' ∧ runFrom step s' es = some s'' := by
  simp [runFrom, Option.bind_eq_some_iff]

theorem runFrom_append (s : σ) (es₁ es₂ : List ε) :
    runFrom step s (es₁ ++ es₂) = (runFrom step s es₁).bind fun s' => runFrom step s' es₂ := by
  induction es₁ generalizing s with
  | nil => rfl
  | cons e es ih =>
      show (step s e).bind _ = ((step s e).bind _).bind _
      rw [Option.bind_assoc]
      exact congrArg _ (funext ih)

theorem runFrom_append_eq_some {s s'' : σ} {es₁ es₂ : List ε} :
    runFrom step s (es₁ ++ es₂) = some s'' ↔
      ∃ s', runFrom step s es₁ = some s' ∧ runFrom step s' es₂ = some s'' := by
  rw [runFrom_append, Option.bind_eq_some_iff]

/-- One more step. -/
theorem runFrom_concat {s s' s'' : σ} {es : List ε} {e : ε} (hrun : runFrom step s es = some s')
    (hstep : step s' e = some s'') : runFrom step s (es ++ [e]) = some s'' :=
  runFrom_append_eq_some.mpr ⟨s', hrun, runFrom_cons_eq_some.mpr ⟨s'', hstep, rfl⟩⟩

theorem along_append {s : σ} {es₁ es₂ : List ε} :
    Along step G s (es₁ ++ es₂) ↔
      Along step G s es₁ ∧ ∀ s', runFrom step s es₁ = some s' → Along step G s' es₂ := by
  induction es₁ generalizing s with
  | nil => simp [Along]
  | cons e es ih =>
      simp only [List.cons_append, Along, ih, runFrom_cons_eq_some]
      constructor
      · rintro ⟨hG, hrest⟩
        exact ⟨⟨hG, fun s₁ h₁ => (hrest s₁ h₁).1⟩,
          fun s' ⟨s₁, h₁, hrun⟩ => (hrest s₁ h₁).2 s' hrun⟩
      · rintro ⟨⟨hG, hrest⟩, hlast⟩
        exact ⟨hG, fun s₁ h₁ => ⟨hrest s₁ h₁, fun s' hrun => hlast s' ⟨s₁, h₁, hrun⟩⟩⟩

/-- A run that meets two conditions meets both. -/
theorem Along.and {G' : σ → ε → Prop} {s : σ} {es : List ε} (hG : Along step G s es)
    (hG' : Along step G' s es) : Along step (fun s e => G s e ∧ G' s e) s es := by
  induction es generalizing s with
  | nil => trivial
  | cons e es ih =>
      exact ⟨⟨hG.1, hG'.1⟩, fun s' hs' => ih (hG.2 s' hs') (hG'.2 s' hs')⟩

theorem along_of_forall {P : ε → Prop} {s : σ} {es : List ε} (hP : ∀ e ∈ es, P e) :
    Along step (fun _ e => P e) s es := by
  induction es generalizing s with
  | nil => trivial
  | cons e es ih =>
      exact ⟨hP e List.mem_cons_self,
        fun _ _ => ih fun e' he' => hP e' (List.mem_cons_of_mem _ he')⟩

/-- Every run meets the condition that asks for nothing. -/
theorem along_true (s : σ) (es : List ε) : Along step (fun _ _ => True) s es :=
  along_of_forall fun _ _ => trivial

/-- A condition that holds wherever the run has come to holds along it. -/
theorem along_of_prefixes {s : σ} {es : List ε}
    (h : ∀ pre e post s', es = pre ++ e :: post → runFrom step s pre = some s' → G s' e) :
    Along step G s es := by
  induction es generalizing s with
  | nil => trivial
  | cons e es ih =>
      refine ⟨h [] e es s rfl rfl, fun s₁ h₁ => ih fun pre e' post s' hes hrun => ?_⟩
      exact h (e :: pre) e' post s' (by rw [hes]; rfl) (runFrom_cons_eq_some.mpr ⟨s₁, h₁, hrun⟩)

/-- A condition that holds at every step the run makes holds along it. -/
theorem along_of_steps {s s' : σ} {es : List ε} (hrun : runFrom step s es = some s')
    (h : ∀ pre e s₁ s₂, pre ++ [e] <+: es → runFrom step s pre = some s₁ → step s₁ e = some s₂ →
      G s₁ e) : Along step G s es := by
  refine along_of_prefixes fun pre e post s₁ hes hpre => ?_
  have hprefix : pre ++ [e] <+: es := ⟨post, by rw [hes, List.append_assoc, List.singleton_append]⟩
  rw [hes] at hrun
  obtain ⟨s₁', hpre', hrest⟩ := runFrom_append_eq_some.mp hrun
  obtain rfl : s₁ = s₁' := Option.some.inj (hpre.symm.trans hpre')
  obtain ⟨s₂, hstep, -⟩ := runFrom_cons_eq_some.mp hrest
  exact h pre e s₁ s₂ hprefix hpre hstep

/-- A condition on the state and one on the events can be checked separately. -/
theorem along_and {P : ε → Prop} {s : σ} {es : List ε} (hP : ∀ e ∈ es, P e)
    (hG : Along step G s es) : Along step (fun s e => P e ∧ G s e) s es :=
  (along_of_forall hP).and hG

instance decidableAlong [∀ s e, Decidable (G s e)] :
    ∀ (s : σ) (es : List ε), Decidable (Along step G s es)
  | _, [] => isTrue trivial
  | s, e :: es =>
      have : ∀ s', Decidable (Along step G s' es) := fun s' => decidableAlong s' es
      inferInstanceAs (Decidable (G s e ∧ ∀ s' ∈ step s e, Along step G s' es))

/-- **The invariant rule under a condition**: what every step that meets `G` preserves, a run
whose steps all meet `G` preserves. -/
theorem runFrom_invariant_along (hstep : ∀ s e s', I s → G s e → step s e = some s' → I s')
    {s s' : σ} {es : List ε} (hs : I s) (hG : Along step G s es)
    (hrun : runFrom step s es = some s') : I s' := by
  induction es generalizing s with
  | nil =>
      obtain rfl : s = s' := by simpa using hrun
      exact hs
  | cons e es ih =>
      obtain ⟨s₁, h₁, hrest⟩ := runFrom_cons_eq_some.mp hrun
      exact ih (hstep s e s₁ hs hG.1 h₁) (hG.2 s₁ h₁) hrest

/-- **The invariant rule**: what one step preserves, a run preserves. -/
theorem runFrom_invariant (hstep : ∀ s e s', I s → step s e = some s' → I s')
    {s s' : σ} {es : List ε} (hs : I s) (hrun : runFrom step s es = some s') : I s' :=
  runFrom_invariant_along (fun s e s' hs _ => hstep s e s' hs) hs (along_true s es) hrun

/-! ## Two runs of one system

A relation between two states is kept along two runs when each event of the first is taken by
the second as well, or left out by it without harm. -/

/-- The events of a run that `keep` selects, read in the state before the step. -/
def project (step : σ → ε → Option σ) (keep : σ → ε → Bool) : σ → List ε → List ε
  | _, [] => []
  | s, e :: es =>
      let rest := (step s e).elim [] fun s' => project step keep s' es
      if keep s e then e :: rest else rest

/-- **The simulation rule**: the second run takes exactly the selected events. -/
theorem runFrom_project {keep : σ → ε → Bool} {R : σ → σ → Prop}
    (hkeep : ∀ s t e s', R s t → G s e → keep s e → step s e = some s' →
      ∃ t', step t e = some t' ∧ R s' t')
    (hdrop : ∀ s t e s', R s t → G s e → ¬ keep s e → step s e = some s' → R s' t)
    {s t s' : σ} {es : List ε} (hR : R s t) (hG : Along step G s es)
    (hrun : runFrom step s es = some s') :
    ∃ t', runFrom step t (project step keep s es) = some t' ∧ R s' t' := by
  induction es generalizing s t with
  | nil =>
      obtain rfl : s = s' := by simpa using hrun
      exact ⟨t, rfl, hR⟩
  | cons e es ih =>
      obtain ⟨s₁, h₁, hrest⟩ := runFrom_cons_eq_some.mp hrun
      unfold project
      dsimp only
      rw [h₁]
      by_cases hk : keep s e
      · obtain ⟨t₁, ht₁, hR₁⟩ := hkeep s t e s₁ hR hG.1 hk h₁
        obtain ⟨t', hrun', hR'⟩ := ih hR₁ (hG.2 s₁ h₁) hrest
        rw [if_pos hk]
        exact ⟨t', runFrom_cons_eq_some.mpr ⟨t₁, ht₁, hrun'⟩, hR'⟩
      · rw [if_neg hk]
        exact ih (hdrop s t e s₁ hR hG.1 hk h₁) (hG.2 s₁ h₁) hrest

theorem Reachable.invariant (hstep : ∀ s e s', I s → step s e = some s' → I s')
    {init s : σ} (hinit : I init) (hs : Reachable step init s) : I s := by
  obtain ⟨es, hrun⟩ := hs
  exact runFrom_invariant hstep hinit hrun

/-! ## What a run shows

Something that happens in a step and leaves no trace in the state can be read off the run. -/

/-- What `f` sees in the steps of a run, in order. -/
def observe {β : Type*} (step : σ → ε → Option σ) (f : σ → ε → Option β) : σ → List ε → List β
  | _, [] => []
  | s, e :: es => (f s e).toList ++ (step s e).elim [] fun s' => observe step f s' es

/-- **The invariant rule with observations**, for a run whose steps all meet `G`: `I` is about
the state and what was seen so far. -/
theorem runFrom_observe_along {β γ : Type*} {f : σ → ε → Option β} {g : σ → ε → Option γ}
    {I : σ → List β → List γ → Prop}
    (hstep : ∀ s e s' xs ys, I s xs ys → G s e → step s e = some s' →
      I s' (xs ++ (f s e).toList) (ys ++ (g s e).toList))
    {s s' : σ} {es : List ε} {xs : List β} {ys : List γ} (hs : I s xs ys) (hG : Along step G s es)
    (hrun : runFrom step s es = some s') :
    I s' (xs ++ observe step f s es) (ys ++ observe step g s es) := by
  induction es generalizing s xs ys with
  | nil =>
      obtain rfl : s = s' := by simpa using hrun
      simpa [observe] using hs
  | cons e es ih =>
      obtain ⟨s₁, h₁, hrest⟩ := runFrom_cons_eq_some.mp hrun
      have hall := ih (hstep s e s₁ xs ys hs hG.1 h₁) (hG.2 s₁ h₁) hrest
      rw [List.append_assoc, List.append_assoc] at hall
      unfold observe
      rw [h₁]
      exact hall

/-- The rule without a condition. -/
theorem runFrom_observe {β γ : Type*} {f : σ → ε → Option β} {g : σ → ε → Option γ}
    {I : σ → List β → List γ → Prop}
    (hstep : ∀ s e s' xs ys, I s xs ys → step s e = some s' →
      I s' (xs ++ (f s e).toList) (ys ++ (g s e).toList))
    {s s' : σ} {es : List ε} {xs : List β} {ys : List γ} (hs : I s xs ys)
    (hrun : runFrom step s es = some s') :
    I s' (xs ++ observe step f s es) (ys ++ observe step g s es) :=
  runFrom_observe_along (fun s e s' xs ys hs _ => hstep s e s' xs ys hs) hs (along_true s es) hrun

/-- The rule for one observation. -/
theorem runFrom_observe_one {β : Type*} {f : σ → ε → Option β} {I : σ → List β → Prop}
    (hstep : ∀ s e s' xs, I s xs → step s e = some s' → I s' (xs ++ (f s e).toList))
    {s s' : σ} {es : List ε} {xs : List β} (hs : I s xs) (hrun : runFrom step s es = some s') :
    I s' (xs ++ observe step f s es) := by
  have hstep' : ∀ s e s' (xs ys : List β), (I s xs ∧ xs = ys) → step s e = some s' →
      I s' (xs ++ (f s e).toList) ∧ xs ++ (f s e).toList = ys ++ (f s e).toList := by
    rintro s e s' xs _ ⟨h, rfl⟩ hs
    exact ⟨hstep s e s' xs h hs, rfl⟩
  exact (runFrom_observe hstep' ⟨hs, rfl⟩ hrun).1

/-- **The invariant rule with a history**: what the events so far show does not depend on the
state. -/
theorem runFrom_history {β : Type*} {f : ε → Option β} {I : σ → List β → Prop}
    (hstep : ∀ s e s' xs, I s xs → step s e = some s' → I s' (xs ++ (f e).toList))
    {s s' : σ} {es : List ε} {xs : List β} (hs : I s xs) (hrun : runFrom step s es = some s') :
    I s' (xs ++ es.filterMap f) := by
  induction es generalizing s xs with
  | nil =>
      obtain rfl : s = s' := by simpa using hrun
      simpa using hs
  | cons e es ih =>
      obtain ⟨s₁, h₁, hrest⟩ := runFrom_cons_eq_some.mp hrun
      have hall := ih (hstep s e s₁ xs hs h₁) hrest
      have hsplit : (e :: es).filterMap f = (f e).toList ++ es.filterMap f := by
        cases hfe : f e <;> simp [hfe]
      rw [hsplit, ← List.append_assoc]
      exact hall

/-! ## What holds at every step of a list of events

`pre` is what came before `e`; a statement about the state in between is one about `pre`. -/

section Prefixes

variable {es : List ε} {J : List ε → Prop} {P Q : List ε → ε → Prop}

/-- What each event keeps holds after every prefix. -/
theorem prefix_invariant (hinit : J [])
    (hkeep : ∀ pre e, pre ++ [e] <+: es → J pre → J (pre ++ [e]))
    {pre : List ε} (hpre : pre <+: es) : J pre := by
  induction pre using List.reverseRecOn with
  | nil => exact hinit
  | append_singleton pre e ih =>
      exact hkeep pre e hpre (ih ((List.prefix_append pre [e]).trans hpre))

/-- **The rule for exact conditions**: if `P` and `Q` agree wherever the invariant holds, and
`Q` keeps the invariant, then `P` holds at every event exactly when `Q` does. -/
theorem forall_prefixes_iff (hinit : J [])
    (hiff : ∀ pre e, pre ++ [e] <+: es → J pre → (P pre e ↔ Q pre e))
    (hkeep : ∀ pre e, pre ++ [e] <+: es → J pre → Q pre e → J (pre ++ [e])) :
    (∀ pre e, pre ++ [e] <+: es → P pre e) ↔ ∀ pre e, pre ++ [e] <+: es → Q pre e := by
  have hbefore : ∀ {pre : List ε} {e : ε}, pre ++ [e] <+: es → pre <+: es := fun h =>
    (List.prefix_append _ _).trans h
  constructor
  · intro hP pre e h
    have hJ : J pre := prefix_invariant hinit
      (fun pre e h hJ => hkeep pre e h hJ ((hiff pre e h hJ).mp (hP pre e h))) (hbefore h)
    exact (hiff pre e h hJ).mp (hP pre e h)
  · intro hQ pre e h
    have hJ : J pre := prefix_invariant hinit
      (fun pre e h hJ => hkeep pre e h hJ (hQ pre e h)) (hbefore h)
    exact (hiff pre e h hJ).mpr (hQ pre e h)

/-- Every prefix is the empty one, or ends with an event. -/
theorem forall_prefix_iff (hinit : J []) :
    (∀ pre, pre <+: es → J pre) ↔ ∀ pre e, pre ++ [e] <+: es → J (pre ++ [e]) := by
  constructor
  · exact fun h pre e hpre => h (pre ++ [e]) hpre
  · intro h pre hpre
    cases pre using List.reverseRecOn with
    | nil => exact hinit
    | append_singleton pre e => exact h pre e hpre

/-- The same by position, where it can be evaluated. -/
theorem forall_prefixes_iff_take :
    (∀ pre e, pre ++ [e] <+: es → P pre e) ↔ ∀ i, (h : i < es.length) → P (es.take i) es[i] := by
  constructor
  · intro hP i h
    apply hP
    rw [List.take_append_getElem h]
    exact List.take_prefix (i + 1) es
  · rintro hP pre e ⟨post, rfl⟩
    have h := hP pre.length (by simp)
    simpa using h

end Prefixes

/-! ## Liveness

A rank that every step of some kind lowers bounds the runs of such steps; and if one of them is
possible wherever `Done` does not hold, some run of them leads to a state where it does. -/

section Liveness

variable {P : ε → Prop} {Done : σ → Prop} {rank : σ → Nat}

/-- **The ranking rule.** -/
theorem runFrom_length_le
    (hstep : ∀ s e s', I s → P e → step s e = some s' → I s' ∧ rank s' < rank s) {s s' : σ}
    {es : List ε} (hs : I s) (hP : ∀ e ∈ es, P e) (hrun : runFrom step s es = some s') :
    I s' ∧ es.length + rank s' ≤ rank s := by
  induction es generalizing s with
  | nil =>
      obtain rfl : s = s' := by simpa using hrun
      exact ⟨hs, by simp⟩
  | cons e es ih =>
      obtain ⟨s₁, h₁, hrest⟩ := runFrom_cons_eq_some.mp hrun
      obtain ⟨hI, hlt⟩ := hstep s e s₁ hs (hP e List.mem_cons_self) h₁
      obtain ⟨hI', hle⟩ := ih hI (fun e he => hP e (List.mem_cons_of_mem _ he)) hrest
      exact ⟨hI', by rw [List.length_cons]; omega⟩

/-- **The progress rule.** -/
theorem exists_runFrom_done
    (hstep : ∀ s e s', I s → P e → step s e = some s' → I s' ∧ rank s' < rank s)
    (hprogress : ∀ s, I s → ¬ Done s → ∃ e, P e ∧ (step s e).isSome) {s : σ} (hs : I s) :
    ∃ es s', (∀ e ∈ es, P e) ∧ runFrom step s es = some s' ∧ Done s' := by
  induction hrank : rank s using Nat.strong_induction_on generalizing s with
  | _ n ih =>
      by_cases hdone : Done s
      · exact ⟨[], s, by simp, rfl, hdone⟩
      · obtain ⟨e, hP, hsome⟩ := hprogress s hs hdone
        obtain ⟨s₁, h₁⟩ := Option.isSome_iff_exists.mp hsome
        obtain ⟨hI, hlt⟩ := hstep s e s₁ hs hP h₁
        obtain ⟨es, s', hes, hrun, hdone'⟩ := ih (rank s₁) (hrank ▸ hlt) hI rfl
        exact ⟨e :: es, s', by simpa using ⟨hP, hes⟩, runFrom_cons_eq_some.mpr ⟨s₁, h₁, hrun⟩,
          hdone'⟩

end Liveness

/-! ## Processes in a list

The processes of a system are often kept in a list, by number: one of them takes a step and is
replaced, or a new one is added at the end. -/

variable {α : Type*} {l : List α} {a b : α} {i j : Nat}

theorem getElem?_set_cases (h : (l.set i a)[j]? = some b) :
    b = a ∧ j = i ∨ j ≠ i ∧ l[j]? = some b := by
  rw [List.getElem?_set] at h
  split_ifs at h with heq hlt
  · exact .inl ⟨(Option.some.inj h).symm, heq.symm⟩
  · exact .inr ⟨fun hji => heq hji.symm, h⟩

theorem getElem?_concat_cases (h : (l ++ [a])[i]? = some b) :
    b = a ∧ i = l.length ∨ l[i]? = some b := by
  obtain hlt | hge := Nat.lt_or_ge i l.length
  · exact .inr (by rwa [List.getElem?_append_left hlt] at h)
  · rw [List.getElem?_append_right hge, List.getElem?_singleton] at h
    split_ifs at h with hzero
    exact .inl ⟨(Option.some.inj h).symm, by omega⟩

theorem getElem?_modify_cases {f : α → α} (h : (l.modify i f)[j]? = some b) :
    ∃ a, l[j]? = some a ∧ (i = j ∧ b = f a ∨ i ≠ j ∧ b = a) := by
  rw [List.getElem?_modify] at h
  obtain ⟨a, ha, rfl⟩ := Option.map_eq_some_iff.mp h
  by_cases hij : i = j
  · exact ⟨a, ha, .inl ⟨hij, if_pos hij⟩⟩
  · exact ⟨a, ha, .inr ⟨hij, if_neg hij⟩⟩

/-- What the step of one process does to a number of processes. -/
theorem countP_modify_add (p : α → Bool) (f : α → α) (h : l[i]? = some b) :
    (l.modify i f).countP p + (if p b then 1 else 0) =
      l.countP p + (if p (f b) then 1 else 0) := by
  induction l generalizing i with
  | nil => simp at h
  | cons x l ih =>
      cases i with
      | zero =>
          obtain rfl : x = b := by simpa using h
          rw [List.modify_zero_cons, List.countP_cons, List.countP_cons]
          omega
      | succ i =>
          have hl := ih (by simpa using h)
          rw [List.modify_succ_cons, List.countP_cons, List.countP_cons]
          omega

theorem countP_set_add (p : α → Bool) (h : l[i]? = some b) :
    (l.set i a).countP p + (if p b then 1 else 0) = l.countP p + (if p a then 1 else 0) := by
  rw [List.set_eq_modify]
  exact countP_modify_add p _ h

end AetherBond.Lib
