import Mathlib.Data.List.Basic
import Mathlib.Tactic.Basic

/-!
# Machines driven by events

A machine answers an event with its next state, or refuses it. A run is a list of events that
are answered one after another. What one step preserves, a run preserves; a guard that every
step of a run meets can be assumed at each of them; a machine that follows another one step by
step follows it along whole runs.

## Main definitions

* `Machine σ ε`: a partial step function on states `σ` and events `ε`
* `Machine.run`: the state after a list of events
* `Machine.StepsMeet`: every step of a run meets a guard
* `Machine.Always`: every state of a run has a property
* `Machine.Follows`: each step is matched by a run of another machine

## Main results

* `run_history`: an invariant of the state and its history holds after every run
* `run_invariant`: an invariant of the state holds after every run
* `run_iff`: a property that holds after a run exactly when every step of it meets a guard
* `always_iff`: a property that each step keeps exactly when it meets a guard
* `history_iff`: a property of the history that each step keeps exactly when it meets a guard
* `exists_run_replicate`: an event that lowers a measure until a state is quiet can be repeated
  until the state is quiet
* `Follows.run`: a machine that follows another does so along runs
* `exists_run_of_steps`: the same for steps between states with an invariant
-/

namespace EventDriven

variable {σ ε τ δ : Type*}

/-- A machine answers an event in a state with the next state, or refuses it. -/
structure Machine (σ ε : Type*) where
  step : σ → ε → Option σ

namespace Machine

/-- The state after the events of a list, `none` when one of them is refused. -/
def run (M : Machine σ ε) : σ → List ε → Option σ
  | s, [] => some s
  | s, e :: es => (M.step s e).bind fun t => M.run t es

/-- Every step of the run from a state meets the guard. -/
def StepsMeet (M : Machine σ ε) (G : σ → ε → Prop) : σ → List ε → Prop
  | _, [] => True
  | s, e :: es => G s e ∧ ∀ t, M.step s e = some t → M.StepsMeet G t es

instance decidableStepsMeet (M : Machine σ ε) (G : σ → ε → Prop) [∀ s e, Decidable (G s e)] :
    ∀ s es, Decidable (M.StepsMeet G s es)
  | _, [] => isTrue trivial
  | s, e :: es =>
    match h : M.step s e with
    | none => decidable_of_iff (G s e) ⟨fun hG => ⟨hG, fun t ht => by simp [h] at ht⟩, And.left⟩
    | some t =>
      have := decidableStepsMeet M G t es
      decidable_of_iff (G s e ∧ M.StepsMeet G t es)
        (and_congr_right fun _ => ⟨fun hr u hu => by rwa [← Option.some.inj (h.symm.trans hu)],
          fun hr => hr t h⟩)

/-- Every state that the run comes through has the property. -/
def Always (M : Machine σ ε) (Q : σ → Prop) (s : σ) (es : List ε) : Prop :=
  ∀ pre post t, es = pre ++ post → M.run s pre = some t → Q t

/-- Each step of `M` is matched by a run of `N` between the images of its states. -/
def Follows (M : Machine σ ε) (N : Machine τ δ) (f : σ → τ) (g : σ → ε → List δ) : Prop :=
  ∀ s e t, M.step s e = some t → N.run (f s) (g s e) = some (f t)

variable {M : Machine σ ε} {G : σ → ε → Prop} {s t u : σ} {e : ε} {es fs : List ε}

@[simp] theorem run_nil (s : σ) : M.run s [] = some s := rfl

theorem run_cons : M.run s (e :: es) = some u ↔ ∃ t, M.step s e = some t ∧ M.run t es = some u := by
  simp only [run, Option.bind_eq_some_iff]

theorem run_append :
    M.run s (es ++ fs) = some u ↔ ∃ t, M.run s es = some t ∧ M.run t fs = some u := by
  induction es generalizing s with
  | nil => simp
  | cons e es ih =>
    rw [List.cons_append, run_cons]
    constructor
    · rintro ⟨v, hv, hrun⟩
      obtain ⟨t, ht, hu⟩ := ih.mp hrun
      exact ⟨t, run_cons.mpr ⟨v, hv, ht⟩, hu⟩
    · rintro ⟨t, ht, hu⟩
      obtain ⟨v, hv, hrun⟩ := run_cons.mp ht
      exact ⟨v, hv, ih.mpr ⟨t, hrun, hu⟩⟩

theorem run_append_cons : M.run s (es ++ e :: fs) = some u ↔
    ∃ t v, M.run s es = some t ∧ M.step t e = some v ∧ M.run v fs = some u := by
  simp only [run_append, run_cons]
  constructor
  · rintro ⟨t, ht, v, hv, hu⟩
    exact ⟨t, v, ht, hv, hu⟩
  · rintro ⟨t, v, ht, hv, hu⟩
    exact ⟨t, ht, v, hv, hu⟩

/-- **Induction over a run**, with the history of events so far: what each step meeting the
guard preserves holds after every run whose steps meet it. -/
theorem run_history {I : List ε → σ → Prop}
    (hstep : ∀ hist s e t, I hist s → G s e → M.step s e = some t → I (hist ++ [e]) t)
    {hist : List ε} (hs : I hist s) (hG : M.StepsMeet G s es) (hrun : M.run s es = some t) :
    I (hist ++ es) t := by
  -- Induction on the events to come, for every history before them.
  induction es generalizing s hist with
  | nil =>
    obtain rfl : s = t := Option.some.inj hrun
    simpa using hs
  | cons e es ih =>
    obtain ⟨v, hv, hrun⟩ := run_cons.mp hrun
    have hI : I (hist ++ [e]) v := hstep hist s e v hs hG.1 hv
    simpa using ih hI (hG.2 v hv) hrun

/-- The trivial guard is met by every run. -/
theorem stepsMeet_true : M.StepsMeet (fun _ _ => True) s es := by
  induction es generalizing s with
  | nil => trivial
  | cons e es ih => exact ⟨trivial, fun _ _ => ih⟩

/-- A guard on the events alone is met when every event of the list meets it. -/
theorem stepsMeet_of_forall {P : ε → Prop} (h : ∀ e ∈ es, P e) :
    M.StepsMeet (fun _ e => P e) s es := by
  induction es generalizing s with
  | nil => trivial
  | cons e es ih =>
    exact ⟨h e (List.mem_cons_self ..), fun _ _ => ih fun e' h' => h e' (List.mem_cons_of_mem _ h')⟩

/-- A guard on the events alone is met by a run exactly when every event of it meets it. -/
theorem stepsMeet_iff_forall {P : ε → Prop} (hrun : M.run s es = some t) :
    M.StepsMeet (fun _ e => P e) s es ↔ ∀ e ∈ es, P e := by
  refine ⟨fun h => ?_, stepsMeet_of_forall⟩
  -- Induction on the events, none of which is refused.
  induction es generalizing s with
  | nil => exact fun e he => absurd he List.not_mem_nil
  | cons e es ih =>
    obtain ⟨u, hu, hrun⟩ := run_cons.mp hrun
    intro e' he'
    rcases List.mem_cons.mp he' with rfl | he'
    · exact h.1
    · exact ih hrun (h.2 u hu) e' he'

theorem StepsMeet.and {H : σ → ε → Prop} (hG : M.StepsMeet G s es) (hH : M.StepsMeet H s es) :
    M.StepsMeet (fun s e => G s e ∧ H s e) s es := by
  induction es generalizing s with
  | nil => trivial
  | cons e es ih => exact ⟨⟨hG.1, hH.1⟩, fun t ht => ih (hG.2 t ht) (hH.2 t ht)⟩

/-- **An invariant of the state** that every step meeting the guard preserves holds after every
run whose steps meet it. -/
theorem run_invariant {I : σ → Prop} (hstep : ∀ s e t, I s → G s e → M.step s e = some t → I t)
    (hs : I s) (hG : M.StepsMeet G s es) (hrun : M.run s es = some t) : I t := by
  have hstep' : ∀ (hist : List ε) s e t, I s → G s e → M.step s e = some t → I t :=
    fun _ => hstep
  exact @run_history σ ε M G s t es (fun _ s => I s) hstep' [] hs hG hrun

/-- **The exact guard of a run.** As long as the steps meet the guard an invariant holds, which
gives the property; a step that misses it leaves a damage that stays and excludes the property. -/
theorem run_iff {I D Q : σ → Prop} (hstep : ∀ s e t, I s → G s e → M.step s e = some t → I t)
    (hmiss : ∀ s e t, I s → ¬ G s e → M.step s e = some t → D t)
    (hstay : ∀ s e t, D s → M.step s e = some t → D t) (hI : ∀ s, I s → Q s)
    (hD : ∀ s, D s → ¬ Q s) (hs : I s) (hrun : M.run s es = some t) :
    Q t ↔ M.StepsMeet G s es := by
  constructor
  · intro hQ
    -- Induction on the events: the first step that misses the guard would be seen at the end.
    induction es generalizing s with
    | nil => trivial
    | cons e es ih =>
      obtain ⟨v, hv, hrun⟩ := run_cons.mp hrun
      have hmeets : G s e := by
        by_contra hnot
        have hDt : D t := run_invariant (G := fun _ _ => True)
          (fun s e t h _ hst => hstay s e t h hst) (hmiss s e v hs hnot hv) stepsMeet_true hrun
        exact hD t hDt hQ
      refine ⟨hmeets, fun u hu => ?_⟩
      obtain rfl : v = u := Option.some.inj (hv.symm.trans hu)
      exact ih (hstep s e v hs hmeets hv) hrun
  · intro hG
    exact hI t (run_invariant hstep hs hG hrun)

theorem always_cons {Q : σ → Prop} (hv : M.step s e = some t) :
    M.Always Q s (e :: es) ↔ Q s ∧ M.Always Q t es := by
  constructor
  · intro h
    refine ⟨h [] (e :: es) s rfl rfl, fun pre post u hes hu => ?_⟩
    exact h (e :: pre) post u (by rw [hes]; rfl) (run_cons.mpr ⟨t, hv, hu⟩)
  · rintro ⟨hs, h⟩ pre post u hes hu
    cases pre with
    | nil =>
      obtain rfl : s = u := Option.some.inj hu
      exact hs
    | cons f pre =>
      obtain ⟨rfl, hes'⟩ := List.cons.inj hes
      obtain ⟨v, hv', hu⟩ := run_cons.mp hu
      obtain rfl : t = v := Option.some.inj (hv.symm.trans hv')
      exact h pre post u hes' hu

/-- **A property that each step keeps exactly when it meets the guard** holds all along a run
exactly when every step of it meets the guard. -/
theorem always_iff {Q : σ → Prop} (hstep : ∀ s e t, Q s → M.step s e = some t → (Q t ↔ G s e))
    (hs : Q s) (hrun : M.run s es = some t) : M.Always Q s es ↔ M.StepsMeet G s es := by
  -- Induction on the events.
  induction es generalizing s with
  | nil =>
    refine iff_of_true (fun pre post u hes hu => ?_) trivial
    obtain ⟨rfl, -⟩ := List.append_eq_nil_iff.mp hes.symm
    obtain rfl : s = u := Option.some.inj hu
    exact hs
  | cons e es ih =>
    obtain ⟨v, hv, hrun⟩ := run_cons.mp hrun
    rw [always_cons hv]
    constructor
    · rintro ⟨-, h⟩
      have hQ : Q v := h [] es v rfl rfl
      refine ⟨(hstep s e v hs hv).mp hQ, fun u hu => ?_⟩
      obtain rfl : v = u := Option.some.inj (hv.symm.trans hu)
      exact (ih hQ hrun).mp h
    · rintro ⟨hmeets, h⟩
      have hQ : Q v := (hstep s e v hs hv).mpr hmeets
      exact ⟨hs, (ih hQ hrun).mpr (h v hv)⟩

/-- **A property of the history that each step keeps exactly when it meets the guard** holds after a
run exactly when it held before and every step of the run meets the guard. -/
theorem history_iff {I : List ε → σ → Prop} {P : List ε → Prop}
    (hstep : ∀ hist s e t, I hist s → M.step s e = some t → I (hist ++ [e]) t)
    (hkeep : ∀ hist s e t, I hist s → M.step s e = some t → (P (hist ++ [e]) ↔ P hist ∧ G s e))
    {hist : List ε} (hs : I hist s) (hrun : M.run s es = some t) :
    P (hist ++ es) ↔ P hist ∧ M.StepsMeet G s es := by
  -- Induction on the events to come, for every history before them.
  induction es generalizing s hist with
  | nil => simp [StepsMeet]
  | cons e es ih =>
    obtain ⟨v, hv, hrun⟩ := run_cons.mp hrun
    have hrest := ih (hstep hist s e v hs hv) hrun
    rw [List.append_assoc, List.singleton_append] at hrest
    rw [hrest, hkeep hist s e v hs hv, and_assoc]
    refine and_congr_right fun _ => and_congr_right fun _ => ⟨fun h u hu => ?_, fun h => h v hv⟩
    obtain rfl : v = u := Option.some.inj (hv.symm.trans hu)
    exact h

/-- An event that lowers a measure as long as the state is not quiet can be repeated until it
is. -/
theorem exists_run_replicate {I quiet : σ → Prop} (μ : σ → ℕ)
    (hstep : ∀ s, I s → ¬ quiet s → ∃ t, M.step s e = some t ∧ I t ∧ μ t < μ s) (hs : I s) :
    ∃ n t, M.run s (List.replicate n e) = some t ∧ I t ∧ quiet t := by
  -- Strong induction on the measure.
  induction hn : μ s using Nat.strongRecOn generalizing s with
  | ind n ih =>
    by_cases hq : quiet s
    · exact ⟨0, s, rfl, hs, hq⟩
    · obtain ⟨t, ht, hI, hlt⟩ := hstep s hs hq
      obtain ⟨m, u, hrun, hu⟩ := ih (μ t) (hn ▸ hlt) hI rfl
      exact ⟨m + 1, u, by rw [List.replicate_succ]; exact run_cons.mpr ⟨t, ht, hrun⟩, hu⟩

/-- A machine that follows another one step by step follows it along every run. -/
theorem Follows.run {N : Machine τ δ} {f : σ → τ} {g : σ → ε → List δ} (h : M.Follows N f g)
    (hrun : M.run s es = some t) : ∃ ds, N.run (f s) ds = some (f t) := by
  -- Induction on the events: the runs that match the steps follow each other.
  induction es generalizing s with
  | nil =>
    obtain rfl : s = t := Option.some.inj hrun
    exact ⟨[], rfl⟩
  | cons e es ih =>
    obtain ⟨v, hv, hrun⟩ := run_cons.mp hrun
    obtain ⟨ds, hds⟩ := ih hrun
    exact ⟨g s e ++ ds, run_append.mpr ⟨f v, h s e v hv, hds⟩⟩

/-- **A refinement**: when each step between states with an invariant is matched by a run of another
machine between their images, every run is. -/
theorem exists_run_of_steps {N : Machine τ δ} {f : σ → τ} {I : List ε → σ → Prop}
    (hI : ∀ hist s e t, I hist s → M.step s e = some t → I (hist ++ [e]) t)
    (hstep : ∀ hist s e t, I hist s → M.step s e = some t → ∃ ds, N.run (f s) ds = some (f t))
    {hist : List ε} (hs : I hist s) (hrun : M.run s es = some t) :
    ∃ ds, N.run (f s) ds = some (f t) := by
  -- Induction on the events, for every history before them.
  induction es generalizing s hist with
  | nil =>
    obtain rfl : s = t := Option.some.inj hrun
    exact ⟨[], rfl⟩
  | cons e es ih =>
    obtain ⟨v, hv, hrun⟩ := run_cons.mp hrun
    obtain ⟨first, hfirst⟩ := hstep hist s e v hs hv
    obtain ⟨rest, hrest⟩ := ih (hI hist s e v hs hv) hrun
    exact ⟨first ++ rest, run_append.mpr ⟨f v, hfirst, hrest⟩⟩

end Machine

end EventDriven
