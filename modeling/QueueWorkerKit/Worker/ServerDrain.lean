import QueueWorkerKit.Config.Defaults
import QueueWorkerKit.Worker.GracefulShutdownOrder
import QueueWorkerKit.Worker.Server

/-!
# Dead-letter writes at shutdown

The workers step waits for its closes with `Promise.all`, which rejects with the first of them that
does, and the controller goes on after a failed step. So the drain can be called while a worker
still has active jobs, and misses the writes that these start. When no close rejects before the jobs
have ended, the workers are idle once their step is over: the drain then waits for the last writes
there are.

## Main definitions

* `RejectsIdle`: a close that rejects finds the workers idle
* `DrainInv`: the invariant of a shutdown whose rejections do
* `Quiet`: no write is in flight and no active job can start one

## Main results

* `steps_in_order`: the process calls its steps in their order
* `drainInv_step`: what a step preserves
* `quiet_of_queues`: **no write is in flight once the queues are closed**
-/

namespace QueueWorkerKit

open Ecma EventDriven

namespace Server

variable {W : Type} {o : ServerOptions} {workers : List W} {s t : State W}
  {e : Event W} {active : W → ℕ} {writes : ℕ}

/-- No worker has an active job. -/
def Idle (workers : List W) (s : State W) : Prop := ∀ w ∈ workers, s.active w = 0

/-- A close rejects only once no worker has an active job. -/
def RejectsIdle (workers : List W) (s : State W) : Event W → Prop
  | .closeRejects _ _ => Idle workers s
  | _ => True

/-- The deadline of the drain does not expire. -/
def InTime : Event W → Prop
  | .drainDeadline => False
  | _ => True

/-- No write is in flight, no job is active, and none is fetched. -/
structure Quiet (o : ServerOptions) (workers : List W) (s : State W) : Prop where
  inFlight : s.inFlight = []
  idle : Idle workers s
  closing : s.Called o .workers

instance (workers : List W) (s : State W) : Decidable (Idle workers s) :=
  inferInstanceAs (Decidable (∀ w ∈ workers, s.active w = 0))

instance (workers : List W) (s : State W) (e : Event W) : Decidable (RejectsIdle workers s e) := by
  cases e <;> unfold RejectsIdle <;> infer_instance

/-! ## The declared steps -/

theorem getElem?_workers : (steps o)[stepIndex o .workers]? = some (.returns none) := rfl

theorem getElem?_deadLetterDrain : (steps o)[stepIndex o .deadLetterDrain]? = some (.returns none) :=
  rfl

theorem stepIndex_workers : stepIndex o .workers = 1 := rfl

theorem stepIndex_deadLetterDrain : stepIndex o .deadLetterDrain = 2 := rfl

/-- Only the workers step and the drain have their indices, and the queues are closed after them. -/
theorem stepIndex_of_ne {name : StepName} (hworkers : name ≠ .workers)
    (hdrain : name ≠ .deadLetterDrain) : stepIndex o name ≠ 1 ∧ stepIndex o name ≠ 2 := by
  obtain ⟨metricsServer, queueEvents, closing⟩ := o
  cases metricsServer <;> cases queueEvents <;> cases name <;> simp_all [stepIndex, stepNames]

theorem two_lt_stepIndex_queues : 2 < stepIndex o .queues := by
  obtain ⟨metricsServer, queueEvents, closing⟩ := o
  cases metricsServer <;> cases queueEvents <;> simp [stepIndex, stepNames]

/-- What the controller says of the first steps: the ones before a called step are over. -/
theorem settled_workers_of_drain (h : Shutdown.StepsInv (steps o) s.shutdown)
    (hcalled : s.Called o .deadLetterDrain) :
    s.shutdown.loop.settled (.run (stepIndex o .workers)) ≠ none := by
  obtain ⟨-, hover⟩ := h.before (stepIndex o .workers) hcalled
  rcases hover with ⟨error, herror⟩ | hne
  · rw [getElem?_workers] at herror
    cases herror
  · exact hne

theorem settled_drain_of_queues (h : Shutdown.StepsInv (steps o) s.shutdown)
    (hcalled : s.Called o .queues) :
    s.Called o .deadLetterDrain ∧
      s.shutdown.loop.settled (.run (stepIndex o .deadLetterDrain)) ≠ none := by
  have hlt := @two_lt_stepIndex_queues o
  have hmem : ∀ i, i ≤ stepIndex o .queues → i ∈ s.shutdown.called := by
    intro i hi
    have hcalled' := hcalled
    unfold State.Called at hcalled'
    rw [h.called_eq.1, List.mem_range] at hcalled' ⊢
    omega
  have hthree : stepIndex o .deadLetterDrain + 1 ∈ s.shutdown.called :=
    hmem _ (by rw [stepIndex_deadLetterDrain]; omega)
  refine ⟨hmem _ (by rw [stepIndex_deadLetterDrain]; omega), ?_⟩
  obtain ⟨-, hover⟩ := h.before (stepIndex o .deadLetterDrain) hthree
  rcases hover with ⟨error, herror⟩ | hne
  · rw [getElem?_deadLetterDrain] at herror
    cases herror
  · exact hne

/-! ## The invariant -/

/-- What holds of the process as long as closes reject idle workers only and the drain is in
time. -/
structure DrainInv (o : ServerOptions) (workers : List W) (s : State W) : Prop where
  controller : ∃ hist, Shutdown.Inv (steps o) hist s.shutdown
  resolved : ∀ w, s.closes w = some (.ok ()) → s.active w = 0
  rejections : ∀ w error, s.closes w = some (.error error) → s.firstRejection ≠ none
  closing : ∀ w, s.closes w ≠ none → s.Called o .workers
  rejected : s.firstRejection ≠ none → s.Called o .workers ∧ Idle workers s
  closed : s.shutdown.loop.settled (.run (stepIndex o .workers)) ≠ none → Idle workers s
  drained : ∀ ws, s.drained = some ws → s.Called o .deadLetterDrain ∧ s.inFlight ⊆ ws
  done : s.shutdown.loop.settled (.run (stepIndex o .deadLetterDrain)) ≠ none → s.inFlight = []

theorem DrainInv.stepsInv (h : DrainInv o workers s) : Shutdown.StepsInv (steps o) s.shutdown := by
  obtain ⟨hist, hsteps, -⟩ := h.controller
  exact hsteps

/-- Once the drain was called, the workers are idle. -/
theorem DrainInv.idle (h : DrainInv o workers s) (hcalled : s.Called o .deadLetterDrain) :
    Idle workers s :=
  h.closed (settled_workers_of_drain h.stepsInv hcalled)

/-- A run that has settled was called. -/
theorem DrainInv.called (h : DrainInv o workers s) {name : StepName}
    (hsettled : s.shutdown.loop.settled (.run (stepIndex o name)) ≠ none) : s.Called o name := by
  by_contra hcalled
  exact hsettled (h.stepsInv.uncalled _ hcalled)

/-- The drain is called after the workers step. -/
theorem DrainInv.called_workers (h : DrainInv o workers s) (hcalled : s.Called o .deadLetterDrain) :
    s.Called o .workers :=
  h.called (settled_workers_of_drain h.stepsInv hcalled)

/-- A step of the controller keeps the invariant, when the workers are idle if it ends their step,
and no write is in flight if it ends the drain. -/
theorem DrainInv.proceed (h : DrainInv o workers s) {shutdown : Shutdown.State}
    {e : Shutdown.Event} (hrun : (Shutdown.machine (steps o)).run s.shutdown [e] = some shutdown)
    (hworkers : (∃ r, e = .runSettles (stepIndex o .workers) r) → Idle workers s)
    (hdrain : (∃ r, e = .runSettles (stepIndex o .deadLetterDrain) r) → s.inFlight = []) :
    DrainInv o workers (s.proceed o shutdown) := by
  obtain ⟨next, hstep, hnext⟩ := Machine.run_cons.mp hrun
  rw [Option.some.inj hnext] at hstep
  obtain ⟨hist, hinv⟩ := h.controller
  obtain ⟨hcalled, hsettled⟩ := Shutdown.runs_of_step hstep
  have hmono : ∀ name, s.Called o name → (s.proceed o shutdown).Called o name :=
    fun name hname => hcalled hname
  have hkeep : ∀ name, (steps o)[stepIndex o name]? = some (.returns none) →
      shutdown.loop.settled (.run (stepIndex o name)) ≠ none →
        (∃ r, e = .runSettles (stepIndex o name) r) ∨
          s.shutdown.loop.settled (.run (stepIndex o name)) ≠ none := by
    intro name hname hne
    by_cases he : ∃ r, e = .runSettles (stepIndex o name) r
    · exact Or.inl he
    · rw [not_exists] at he
      rw [hsettled _ hname he] at hne
      exact Or.inr hne
  refine ⟨⟨_, Shutdown.inv_step hinv hstep⟩, h.resolved, h.rejections,
    fun w hw => hmono _ (h.closing w hw), fun hr => ?_, fun hne => ?_, fun ws hws => ?_,
    fun hne => ?_⟩
  · obtain ⟨hclosing, hidle⟩ := h.rejected hr
    exact ⟨hmono _ hclosing, hidle⟩
  · rcases hkeep .workers getElem?_workers hne with he | hne
    · exact hworkers he
    · exact h.closed hne
  · cases hd : s.drained with
    | some ws' =>
      simp only [State.proceed, hd] at hws
      obtain rfl := Option.some.inj hws
      obtain ⟨hdrain, hsub⟩ := h.drained ws' hd
      exact ⟨hmono _ hdrain, hsub⟩
    | none =>
      -- the drain has just been called, and takes what is in flight
      simp only [State.proceed, hd] at hws
      split_ifs at hws with hnow
      obtain rfl := Option.some.inj hws
      exact ⟨hnow, List.Subset.refl _⟩
  · rcases hkeep .deadLetterDrain getElem?_deadLetterDrain hne with he | hne
    · exact hdrain he
    · exact h.done hne

theorem drainInv_start : DrainInv o workers (start o active writes) := by
  have hsteps := Shutdown.inv_start (steps o)
  have hpending : ∀ i, i ≠ 0 → (start o active writes).shutdown.loop.settled (.run i) = none := by
    intro i hi
    apply hsteps.1.uncalled i
    -- the call of `shutdown` calls the first step only
    show i ∉ [0]
    simpa using hi
  refine ⟨⟨[], hsteps⟩, ?_, ?_, fun w hw => absurd rfl hw, fun hr => absurd rfl hr, fun hne => ?_, ?_,
    fun hne => ?_⟩
  · rintro w ⟨⟩
  · rintro w error ⟨⟩
  · exact absurd (hpending _ (by rw [stepIndex_workers]; omega)) hne
  · rintro ws ⟨⟩
  · exact absurd (hpending _ (by rw [stepIndex_deadLetterDrain]; omega)) hne

/-- Once the queues are closed, the invariant leaves no write. -/
theorem DrainInv.quiet (h : DrainInv o workers s) (hcalled : s.Called o .queues) :
    Quiet o workers s := by
  obtain ⟨hdrain, hsettled⟩ := settled_drain_of_queues h.stepsInv hcalled
  exact ⟨h.done hsettled, h.idle hdrain, h.called_workers hdrain⟩

/-! ## Steps and runs -/

variable [DecidableEq W]

/-- A job that ends, before the drain is called. -/
theorem DrainInv.jobEnds (h : DrainInv o workers s) {w : W} (how : JobEnd) (hmem : w ∈ workers)
    (hactive : 0 < s.active w) : DrainInv o workers (s.endJob w how) := by
  have hbusy : ¬ Idle workers s := fun hidle => by
    rw [hidle w hmem] at hactive
    exact absurd hactive (Nat.lt_irrefl 0)
  have hundrained : ¬ s.Called o .deadLetterDrain := fun hcalled => hbusy (h.idle hcalled)
  have hactive' : ∀ w', (s.endJob w how).active w' ≤ s.active w' := by
    intro w'
    rw [active_endJob, Function.update_apply]
    split_ifs with heq
    · rw [heq]
      exact Nat.sub_le ..
    · exact le_rfl
  -- what presupposes idle workers or the call of the drain does not arise while a job is active
  refine ⟨?_, fun w' hw' => ?_, ?_, fun w' hw' => ?_, fun hr => ?_, fun hne => ?_, fun ws hws => ?_,
    fun hne => ?_⟩
  · rw [shutdown_endJob]
    exact h.controller
  · rw [closes_endJob] at hw'
    exact Nat.le_zero.mp (h.resolved w' hw' ▸ hactive' w')
  · rw [closes_endJob, firstRejection_endJob]
    exact h.rejections
  · rw [closes_endJob] at hw'
    unfold State.Called
    rw [shutdown_endJob]
    exact h.closing w' hw'
  · rw [firstRejection_endJob] at hr
    exact absurd (h.rejected hr).2 hbusy
  · rw [shutdown_endJob] at hne
    exact absurd (h.closed hne) hbusy
  · rw [drained_endJob] at hws
    exact absurd (h.drained ws hws).1 hundrained
  · rw [shutdown_endJob] at hne
    exact absurd (h.called hne) hundrained

/-- An answer of a worker is the one just given, or was there before. -/
theorem eq_or_closes {w w' : W} {answer answer' : Option (Except JsValue Unit)}
    (h : Function.update s.closes w answer w' = answer') :
    w' = w ∧ answer = answer' ∨ s.closes w' = answer' := by
  rw [Function.update_apply] at h
  split_ifs at h with hww
  · exact Or.inl ⟨hww, h⟩
  · exact Or.inr h

/-- In every run of the process its steps are called in the declared order, each after the one
before it is over: the controller it runs calls them so. -/
theorem steps_in_order {es : List (Event W)}
    (hrun : (machine o workers).run (start o active writes) es = some s) :
    s.shutdown.called = List.range s.shutdown.called.length ∧
      ∀ i, i + 1 ∈ s.shutdown.called → Shutdown.StepSettled (steps o) s.shutdown i := by
  obtain ⟨ds, hds⟩ := machine_follows.run hrun
  obtain ⟨hsteps, -⟩ := Shutdown.inv_of_run hds
  exact ⟨hsteps.called_eq.1, hsteps.before⟩

/-- **Every step keeps the invariant**, when it meets both conditions. -/
theorem drainInv_step (h : DrainInv o workers s) (hrejects : RejectsIdle workers s e)
    (htime : InTime e) (hstep : (machine o workers).step s e = some t) :
    DrainInv o workers t := by
  have hother : ∀ {i j : ℕ} {r' : Shutdown.Settled}, i ≠ j →
      ¬ ∃ r, Shutdown.Event.runSettles i r' = .runSettles j r := by
    rintro i j r' hne ⟨r, heq⟩
    exact hne (Shutdown.Event.runSettles.inj heq).1
  have hne : stepIndex o .workers ≠ stepIndex o .deadLetterDrain := by
    rw [stepIndex_workers, stepIndex_deadLetterDrain]
    omega
  cases step_cases hstep with
  | jobStarts w hmem hfetching =>
    -- before the workers step is called no worker was asked to close
    have hnone : ∀ w, s.closes w = none := fun w => by
      by_contra hw
      exact hfetching (h.closing w hw)
    refine ⟨h.controller, fun w' hw' => ?_, h.rejections, h.closing, fun hr => ?_, fun hne => ?_,
      h.drained, h.done⟩
    · rw [hnone w'] at hw'
      cases hw'
    · exact absurd (h.rejected hr).1 hfetching
    · exact absurd (h.called hne) hfetching
  | jobEnds w how hmem hactive => exact h.jobEnds how hmem hactive
  | writeSettles write =>
    refine ⟨h.controller, h.resolved, h.rejections, h.closing, h.rejected, h.closed, ?_, ?_⟩
    · intro ws hws
      obtain ⟨hcalled, hsub⟩ := h.drained ws hws
      exact ⟨hcalled, List.Subset.trans (List.erase_subset ..) hsub⟩
    · intro hne
      show s.inFlight.erase write = []
      rw [h.done hne]
      rfl
  | closeResolves w hcalled hidle =>
    refine ⟨h.controller, fun w' hw' => ?_, fun w' error hw' => ?_, fun _ _ => hcalled, h.rejected,
      h.closed, h.drained, h.done⟩
    · rcases eq_or_closes hw' with ⟨rfl, -⟩ | hw'
      · exact hidle
      · exact h.resolved w' hw'
    · rcases eq_or_closes hw' with ⟨-, ⟨⟩⟩ | hw'
      exact h.rejections w' error hw'
  | closeRejects w error hcalled =>
    have hidle : Idle workers s := hrejects
    have hrejection : (s.firstRejection <|> some error) ≠ none := by
      cases s.firstRejection <;> simp
    refine ⟨h.controller, fun w' hw' => ?_, fun _ _ _ => hrejection, fun _ _ => hcalled,
      fun _ => ⟨hcalled, hidle⟩, h.closed, h.drained, h.done⟩
    rcases eq_or_closes hw' with ⟨-, ⟨⟩⟩ | hw'
    exact h.resolved w' hw'
  | workersSettle hcalled hanswers shutdown hrun =>
    -- the step ends with a rejection, which found the workers idle, or once all have closed
    refine h.proceed hrun (fun _ => ?_) fun he => absurd he (hother hne)
    by_cases hr : s.firstRejection = none
    · intro w hw
      rcases hanswers with hanswers | hanswers
      · rw [hr] at hanswers
        cases hanswers
      · obtain ⟨answer, hanswer⟩ := Option.isSome_iff_exists.mp (hanswers w hw)
        cases answer with
        | ok => exact h.resolved w hanswer
        | error error => exact absurd hr (h.rejections w error hanswer)
    · exact (h.rejected hr).2
  | drainSettles ws hdrained hgone shutdown hrun =>
    refine h.proceed hrun (fun he => absurd he (hother hne.symm)) fun _ => ?_
    -- every write in flight is one the drain waits for, and these are gone
    rw [List.eq_nil_iff_forall_not_mem]
    intro write hwrite
    exact hgone write ((h.drained ws hdrained).2 hwrite) hwrite
  | drainDeadline shutdown hrun => exact absurd htime id
  | stepSettles name r hworkers hdrain shutdown hrun =>
    obtain ⟨h1, h2⟩ := @stepIndex_of_ne o name hworkers hdrain
    exact h.proceed hrun (fun he => absurd he (hother h1)) fun he => absurd he (hother h2)
  | deadlineFires shutdown hrun =>
    exact h.proceed hrun (by rintro ⟨r, ⟨⟩⟩) (by rintro ⟨r, ⟨⟩⟩)
  | microtask shutdown hrun =>
    exact h.proceed hrun (by rintro ⟨r, ⟨⟩⟩) (by rintro ⟨r, ⟨⟩⟩)

/-- **No write is in flight once the queues are closed.** In every run of the process in which each
close that rejects finds the workers without active jobs, and the deadline of the drain does not
expire: from the call of the queues step on no write is in flight, no job is active and none is
fetched, so none starts. -/
theorem quiet_of_queues (o : ServerOptions) (workers : List W) (active : W → ℕ) (writes : ℕ)
    {es : List (Event W)} {s : State W}
    (hrejects : (machine o workers).StepsMeet (RejectsIdle workers) (start o active writes) es)
    (htime : ∀ e ∈ es, InTime e)
    (hrun : (machine o workers).run (start o active writes) es = some s)
    (hqueues : s.Called o .queues) : Quiet o workers s := by
  have hstep : ∀ s e t, DrainInv o workers s → RejectsIdle workers s e ∧ InTime e →
      (machine o workers).step s e = some t → DrainInv o workers t :=
    fun s e t h hG hstep => drainInv_step h hG.1 hG.2 hstep
  have hinv := Machine.run_invariant hstep drainInv_start
    (hrejects.and (Machine.stepsMeet_of_forall htime)) hrun
  exact hinv.quiet hqueues

/-! ### Three workers -/

/-- A process without optional parts, whose queues and connection close at once. -/
def plainOptions : ServerOptions := ⟨false, false, fun _ => .returns (some (.fulfilled .undefined))⟩

/-- One job of a queue is active, and no write is in flight. -/
def oneJob (queue : QueueName) : State QueueName :=
  start plainOptions (fun w => if w = queue then 1 else 0) 0

/-- A final failure. -/
def finalFailure : JobEnd := .failed (some .epoch)

theorem quiet_of_queues_oneJob : ∃ s,
    (machine plainOptions workerQueueNames).run (oneJob .email)
        [.stepSettles .markDraining (.fulfilled .undefined), .microtask, .jobEnds .email finalFailure,
          .closeResolves .email, .closeResolves .reports, .closeResolves .maintenance,
          .workersSettle, .microtask, .writeSettles 0, .drainSettles, .microtask] = some s ∧
      s.Called plainOptions .queues ∧ Quiet plainOptions workerQueueNames s := by
  obtain ⟨s, hrun, hqueues⟩ : ∃ s,
      (machine plainOptions workerQueueNames).run (oneJob .email)
          [.stepSettles .markDraining (.fulfilled .undefined), .microtask,
            .jobEnds .email finalFailure, .closeResolves .email, .closeResolves .reports,
            .closeResolves .maintenance, .workersSettle, .microtask, .writeSettles 0, .drainSettles,
            .microtask] = some s ∧ s.Called plainOptions .queues :=
    ⟨_, rfl, by decide⟩
  refine ⟨s, hrun, hqueues, quiet_of_queues plainOptions workerQueueNames _ 0 ?_ ?_ hrun hqueues⟩
  · decide
  · simp [InTime]

/-- **A write starts after the queues are closed.** The close of one worker rejects while a job of
another is active. The drain finds nothing in flight, the queues are closed, and the job fails for
good. -/
theorem rejected_close_loses_write : ∃ es s,
    (machine plainOptions workerQueueNames).run (oneJob .reports) es = some s ∧
      (∀ e ∈ es, InTime e) ∧ s.Called plainOptions .queues ∧ s.inFlight ≠ [] := by
  refine ⟨[.stepSettles .markDraining (.fulfilled .undefined), .microtask,
    .closeRejects .email (.string (js "connection is closed")), .workersSettle, .microtask,
    .drainSettles, .microtask, .jobEnds .reports finalFailure], ?_⟩
  obtain ⟨s, hrun, hqueues, hflight⟩ : ∃ s,
      (machine plainOptions workerQueueNames).run (oneJob .reports)
          [.stepSettles .markDraining (.fulfilled .undefined), .microtask,
            .closeRejects .email (.string (js "connection is closed")), .workersSettle, .microtask,
            .drainSettles, .microtask, .jobEnds .reports finalFailure] = some s ∧
        s.Called plainOptions .queues ∧ s.inFlight = [0] :=
    ⟨_, rfl, by decide, rfl⟩
  refine ⟨s, hrun, by simp [InTime], hqueues, ?_⟩
  rw [hflight]
  exact List.cons_ne_nil _ _

end Server

end QueueWorkerKit
