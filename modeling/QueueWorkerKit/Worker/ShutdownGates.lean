import QueueWorkerKit.Worker.GracefulShutdownOrder

/-!
# Gates of a shutdown

A process that runs the shutdown controller settles the promise of a step under a condition of its
own, which it keeps from the call of that step on. The condition is then a gate: it holds in every
state in which the promise of the step has settled, so once the next step was called, and once the
process has exited by the end of the list.

## Main definitions

* `Gate`: a step whose promise settles only under a condition

## Main results

* `runs_of_run`: which runs the controller calls and settles along its own run
* `Gate.closed_run`: **a step that is over has its condition**
* `Gate.closed_of_next`, `Gate.closed_of_exit`: the condition holds once the next step was called,
  and once the exit with code 0 was scheduled
* `exists_settlement_of_exit`: a step that returns a promise was over by an event of the run then
-/

namespace QueueWorkerKit

open Ecma EventDriven

namespace Shutdown

variable {steps : List StepRun} {u v : State} {i : ℕ} {ds : List Event}

/-- **What a run does to the runs.** It only adds to those that were called, and settles a run that
is pending when it is returned only by a settlement of that run. -/
theorem runs_of_run (hrun : (machine steps).run u ds = some v) :
    u.called ⊆ v.called ∧ ∀ j, steps[j]? = some (.returns none) → (∀ r, .runSettles j r ∉ ds) →
      v.loop.settled (.run j) = u.loop.settled (.run j) := by
  -- Induction on the events.
  induction ds generalizing u with
  | nil =>
    obtain rfl : u = v := Option.some.inj hrun
    exact ⟨List.Subset.refl _, fun _ _ _ => rfl⟩
  | cons e ds ih =>
    obtain ⟨t, hstep, hrun⟩ := Machine.run_cons.mp hrun
    obtain ⟨hcalled, hsettled⟩ := runs_of_step hstep
    obtain ⟨hcalled', hsettled'⟩ := ih hrun
    refine ⟨List.Subset.trans hcalled hcalled', fun j hj hnot => ?_⟩
    rw [hsettled' j hj fun r hr => hnot r (List.mem_cons_of_mem e hr)]
    refine hsettled j hj fun r he => hnot r ?_
    rw [he]
    exact List.mem_cons_self ..

/-- The call of `shutdown` leaves a run that returns a pending promise pending. -/
theorem settled_run_start (hi : steps[i]? = some (.returns none)) :
    (start steps).loop.settled (.run i) = none := by
  rw [start, settled_awaitRace, settled_run_runFrom List.drop_zero hi]
  rfl

theorem inv_run {hist : List Event} (hu : Inv steps hist u)
    (hrun : (machine steps).run u ds = some v) : Inv steps (hist ++ ds) v :=
  Machine.run_history (I := Inv steps) (G := fun _ _ => True)
    (fun _ _ _ _ hI _ hstep => inv_step hI hstep) hu Machine.stepsMeet_true hrun

/-- An exit with code 0 is scheduled only once every step is over. -/
theorem settled_of_exit {hist : List Event} (h : Inv steps hist v) (hexit : 0 ∈ v.exits)
    (hi : i < steps.length) : StepSettled steps v i := by
  obtain ⟨hsteps, hrace⟩ := h
  rcases hrace.shutdown with ⟨-, hnone⟩ | ⟨-, hdecided, ⟨-, hone⟩ | ⟨hfired, -⟩⟩
  · rw [hnone] at hexit
    cases hexit
  · rw [hone] at hexit
    simp at hexit
  · -- the race was decided for the loop over the steps
    have hcomplete : v.loop.settled .complete ≠ none := by
      rcases hrace.race with ⟨hnone, -⟩ | ⟨-, -, hcomplete⟩ | ⟨-, hf⟩
      · exact absurd hnone hdecided
      · exact hcomplete
      · exact absurd hf hfired
    rcases hrace.complete with hnone | ⟨-, hover⟩
    · exact absurd hnone hcomplete
    · rcases hsteps.phase with ⟨k, hk⟩ | hfin
      · exact absurd hk.pending hover
      · exact hfin.all i hi

section Gates

variable {σ ε : Type*} {M : Machine σ ε} {f : σ → State} {g : σ → ε → List Event}
  {Closed : σ → Prop} {s t : σ} {es : List ε}

/-- A process that has exited with code 0 has passed on a settlement of every promise that a step
returns. -/
theorem exists_settlement_of_exit (hM : M.Follows (machine steps) f g)
    (hi : steps[i]? = some (.returns none)) (hs : f s = start steps)
    (hrun : M.run s es = some t) (hexit : 0 ∈ (f t).exits) :
    ∃ e ∈ es, ∃ u r, Event.runSettles i r ∈ g u e := by
  by_contra hnone
  -- Without one the promise is as pending as it is when it is returned.
  have hpending : (f t).loop.settled (.run i) = none := by
    refine Machine.run_invariant (I := fun u => (f u).loop.settled (.run i) = none)
      (G := fun _ e => ∀ u r, Event.runSettles i r ∉ g u e) (fun u e v hu hnot hstep => ?_) ?_
      (Machine.stepsMeet_of_forall fun e he u r hmem => hnone ⟨e, he, u, r, hmem⟩) hrun
    · rw [(runs_of_run (hM u e v hstep)).2 i hi fun r => hnot u r]
      exact hu
    · rw [hs]
      exact settled_run_start hi
  obtain ⟨ds, hds⟩ := hM.run hrun
  rw [hs] at hds
  have hover := settled_of_exit (inv_run (inv_start steps) hds) hexit
    (List.getElem?_eq_some_iff.mp hi).1
  rcases hover.2 with ⟨error, herror⟩ | hne
  · rw [hi] at herror
    cases herror
  · exact hne hpending

/-- The promise of a step settles only under a condition, which stays from the call of the step
on. -/
structure Gate (M : Machine σ ε) (steps : List StepRun) (f : σ → State)
    (g : σ → ε → List Event) (i : ℕ) (Closed : σ → Prop) : Prop where
  returns : steps[i]? = some (.returns none)
  settles : ∀ s e t r, M.step s e = some t → .runSettles i r ∈ g s e → Closed t
  keeps : ∀ s e t, M.step s e = some t → i ∈ (f s).called → Closed s → Closed t

/-- The controller of a process, with the condition of a gate. -/
def GateInv (steps : List StepRun) (f : σ → State) (i : ℕ) (Closed : σ → Prop) (s : σ) : Prop :=
  (∃ hist, Inv steps hist (f s)) ∧ ((f s).loop.settled (.run i) ≠ none → Closed s)

theorem Gate.inv_start (gate : Gate M steps f g i Closed) (hs : f s = start steps) :
    GateInv steps f i Closed s := by
  refine ⟨⟨[], hs ▸ Shutdown.inv_start steps⟩, fun hne => absurd ?_ hne⟩
  rw [hs]
  exact settled_run_start gate.returns

theorem Gate.inv_step (gate : Gate M steps f g i Closed) (hM : M.Follows (machine steps) f g)
    {e : ε} (hinv : GateInv steps f i Closed s) (hstep : M.step s e = some t) :
    GateInv steps f i Closed t := by
  obtain ⟨⟨hist, hcontroller⟩, hclosed⟩ := hinv
  have hrun := hM s e t hstep
  refine ⟨⟨_, inv_run hcontroller hrun⟩, fun hne => ?_⟩
  by_cases hmem : ∃ r, Event.runSettles i r ∈ g s e
  · obtain ⟨r, hr⟩ := hmem
    exact gate.settles s e t r hstep hr
  · rw [not_exists] at hmem
    rw [(runs_of_run hrun).2 i gate.returns hmem] at hne
    refine gate.keeps s e t hstep ?_ (hclosed hne)
    by_contra huncalled
    exact hne (hcontroller.1.uncalled i huncalled)

theorem Gate.inv_run (gate : Gate M steps f g i Closed) (hM : M.Follows (machine steps) f g)
    (hs : f s = start steps) (hrun : M.run s es = some t) : GateInv steps f i Closed t :=
  Machine.run_invariant (G := fun _ _ => True)
    (fun _ _ _ hinv _ hstep => gate.inv_step hM hinv hstep) (gate.inv_start hs)
    Machine.stepsMeet_true hrun

/-- **A step that is over has its condition.** -/
theorem Gate.closed_run (gate : Gate M steps f g i Closed) (hM : M.Follows (machine steps) f g)
    (hs : f s = start steps) (hrun : M.run s es = some t) (hover : StepSettled steps (f t) i) :
    Closed t := by
  refine (gate.inv_run hM hs hrun).2 ?_
  rcases hover.2 with ⟨error, herror⟩ | hne
  · rw [gate.returns] at herror
    cases herror
  · exact hne

/-- The condition of a step holds once the next one was called. -/
theorem Gate.closed_of_next (gate : Gate M steps f g i Closed)
    (hM : M.Follows (machine steps) f g) (hs : f s = start steps) (hrun : M.run s es = some t)
    (hnext : i + 1 ∈ (f t).called) : Closed t := by
  obtain ⟨⟨hist, hinv⟩, -⟩ := gate.inv_run hM hs hrun
  exact gate.closed_run hM hs hrun (hinv.1.before i hnext)

/-- The condition of a step holds once an exit with code 0 was scheduled. -/
theorem Gate.closed_of_exit (gate : Gate M steps f g i Closed)
    (hM : M.Follows (machine steps) f g) (hs : f s = start steps) (hrun : M.run s es = some t)
    (hexit : 0 ∈ (f t).exits) : Closed t := by
  obtain ⟨⟨hist, hinv⟩, -⟩ := gate.inv_run hM hs hrun
  have hi : i < steps.length := (List.getElem?_eq_some_iff.mp gate.returns).1
  exact gate.closed_run hM hs hrun (settled_of_exit hinv hexit hi)

end Gates

end Shutdown

end QueueWorkerKit
