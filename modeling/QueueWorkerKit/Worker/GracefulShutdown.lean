import QueueWorkerKit.Library.EventLoop
import QueueWorkerKit.Library.Heap
import QueueWorkerKit.Library.Machine

/-!
# The shutdown controller

`createShutdownController` of `worker/graceful-shutdown.ts`, on which `shutdown` is called once: a
loop that awaits the declared steps one after another races a deadline timer, and the loop keeps
running after it has lost the race. The promises are those of the source, the reactions are the
continuations of its awaits, of `then` and of `Promise.race`. Timers and promises of the steps
settle at any moment; the timer fires when no microtask is left.

## Main definitions

* `StepRun`: what the `run` of a step does when it is called
* `Promise`, `Reaction`: the promises of a shutdown and the continuations that subscribe to them
* `start`, `resume`, `machine`: the call of `shutdown`, its continuations, and its runs
* `StepSettled`, `LastSettled`: a step was called and its run is over

## Main results

* `keepsRace_settle`, `keepsRace_subscribe`: what the loop over the steps leaves alone
* `keepsSteps_fireDeadline`: what the deadline leaves alone
* `runs_of_step`: which runs a step calls and settles
-/

namespace QueueWorkerKit

open Ecma EventDriven

namespace Shutdown

/-- The values that the promises of a shutdown are fulfilled with. -/
inductive Value
  | undefined
  | complete
  | timeout
  deriving DecidableEq

abbrev Settled := Settlement Value JsValue

/-- What the `run` of a step does when it is called: throw, or return a promise that is pending or
settled already. -/
inductive StepRun
  | throws (error : JsValue)
  | returns (settled : Option Settled)

/-- The promises: the one each `run` returns, the one of `runSteps`, what its `then` returns, the
deadline, the race, and the one `shutdown` returns. -/
inductive Promise
  | run (i : ℕ)
  | steps
  | complete
  | deadline
  | race
  | shutdown
  deriving DecidableEq

/-- The continuations: after each awaited step, of `then`, of the two entries of the race, and
after the awaited race. -/
inductive Reaction
  | stepResume (i : ℕ)
  | toComplete
  | raceComplete
  | raceDeadline
  | raceResume
  deriving DecidableEq

/-- The promise a continuation is subscribed to. -/
def src : Reaction → Promise
  | .stepResume i => .run i
  | .toComplete => .steps
  | .raceComplete => .complete
  | .raceDeadline => .deadline
  | .raceResume => .race

/-- The promises, the runs called so far in order, the deadline timer, and the codes of the exits
that were scheduled. -/
structure State where
  loop : Loop Promise Reaction Value JsValue
  called : List ℕ
  timerArmed : Bool
  exits : List ℕ

inductive Event
  | runSettles (i : ℕ) (settled : Settled)
  | deadlineFires
  | microtask

namespace State

def settle (s : State) (p : Promise) (r : Settled) : State := { s with loop := s.loop.settle p r }

def subscribe (s : State) (k : Reaction) : State := { s with loop := s.loop.subscribe (src k) k }

def call (s : State) (i : ℕ) : State := { s with called := s.called ++ [i] }

/-- The callback of the deadline timer. -/
def fireDeadline (s : State) : State :=
  { s with timerArmed := false }.settle .deadline (.fulfilled .timeout)

end State

/-- The loop of `runSteps` from the step `i`, whose runs are given from there on: up to the first
run that returns a promise, which is awaited, or to the end. -/
def runFrom (s : State) (i : ℕ) : List StepRun → State
  | [] => s.settle .steps (.fulfilled .undefined)
  | .throws _ :: rest => runFrom (s.call i) (i + 1) rest
  | .returns none :: _ => (s.call i).subscribe (.stepResume i)
  | .returns (some r) :: _ => ((s.call i).settle (.run i) r).subscribe (.stepResume i)

/-- The `then` on the loop over the steps, and the awaited race of it with the deadline. -/
def State.awaitRace (s : State) : State :=
  (((s.subscribe .toComplete).subscribe .raceComplete).subscribe .raceDeadline).subscribe
    .raceResume

/-- The call of `shutdown`: the deadline timer is armed, the loop over the steps runs up to its
first await, and is raced with the deadline. -/
def start (steps : List StepRun) : State := (runFrom ⟨.start, [], true, []⟩ 0 steps).awaitRace

/-- What a continuation does with the settlement of its promise. -/
def resume (steps : List StepRun) (s : State) : Reaction → Settled → State
  -- a rejected step is logged, and the loop goes on as after a fulfilled one
  | .stepResume i, _ => runFrom s (i + 1) (steps.drop (i + 1))
  | .toComplete, .fulfilled _ => s.settle .complete (.fulfilled .complete)
  | .toComplete, .rejected error => s.settle .complete (.rejected error)
  | .raceComplete, r => s.settle .race r
  | .raceDeadline, r => s.settle .race r
  | .raceResume, .fulfilled outcome =>
    { s with
      timerArmed := false
      exits := s.exits ++ [if outcome = Value.timeout then 1 else 0] }.settle .shutdown
        (.fulfilled .undefined)
  | .raceResume, .rejected error => { s with timerArmed := false }.settle .shutdown (.rejected error)

/-- The runs of a shutdown. -/
def machine (steps : List StepRun) : Machine State Event where
  step s
    | .runSettles i r =>
      match steps[i]? with
      | some (.returns _) => if i ∈ s.called then some (s.settle (.run i) r) else none
      | _ => none
    | .deadlineFires =>
      if s.timerArmed ∧ s.loop.queue = [] then some s.fireDeadline else none
    | .microtask => s.loop.pop.map fun job => resume steps { s with loop := job.2 } job.1.1 job.1.2

/-- The run of a step was called, and threw or has settled. -/
def StepSettled (steps : List StepRun) (s : State) (i : ℕ) : Prop :=
  i ∈ s.called ∧ ((∃ error, steps[i]? = some (.throws error)) ∨ s.loop.settled (.run i) ≠ none)

/-- The run of the last step is over, if there is one. -/
def LastSettled (steps : List StepRun) (s : State) : Prop :=
  ∀ i, i + 1 = steps.length → StepSettled steps s i

variable {steps : List StepRun} {s t u : State} {i j : ℕ} {p q : Promise} {k : Reaction}
  {r : Settled}

@[simp] theorem called_settle : (s.settle p r).called = s.called := rfl

@[simp] theorem timerArmed_settle : (s.settle p r).timerArmed = s.timerArmed := rfl

@[simp] theorem exits_settle : (s.settle p r).exits = s.exits := rfl

@[simp] theorem loop_settle : (s.settle p r).loop = s.loop.settle p r := rfl

@[simp] theorem loop_fireDeadline : s.fireDeadline.loop =
    s.loop.settle .deadline (.fulfilled .timeout) := rfl

@[simp] theorem called_subscribe : (s.subscribe k).called = s.called := rfl

@[simp] theorem loop_subscribe : (s.subscribe k).loop = s.loop.subscribe (src k) k := rfl

@[simp] theorem called_call : (s.call i).called = s.called ++ [i] := rfl

@[simp] theorem loop_call : (s.call i).loop = s.loop := rfl

/-! ## The two halves of a state

The loop over the steps and the race share their promises only at the end of the loop. What
changes one half keeps the other. -/

/-- The race, its entries and its outcome are the same in both states. -/
structure KeepsRace (s t : State) : Prop where
  settled : ∀ q, (∀ i, q ≠ .run i) → q ≠ .steps → t.loop.settled q = s.loop.settled q
  steps : s.loop.settled .steps ≠ none → t.loop.settled .steps ≠ none
  live : ∀ k, (∀ i, k ≠ .stepResume i) → (t.loop.Live src k ↔ s.loop.Live src k)
  queue : ∃ jobs, t.loop.queue = s.loop.queue ++ jobs
  timerArmed : t.timerArmed = s.timerArmed
  exits : t.exits = s.exits

/-- The loop over the steps stands at the same place in both states. -/
structure KeepsSteps (s t : State) : Prop where
  called : t.called = s.called
  run : ∀ i, t.loop.settled (.run i) = s.loop.settled (.run i)
  steps : t.loop.settled .steps = s.loop.settled .steps
  live : ∀ i, t.loop.Live src (.stepResume i) ↔ s.loop.Live src (.stepResume i)

theorem KeepsRace.trans (h : KeepsRace s t) (h' : KeepsRace t u) : KeepsRace s u where
  settled q hrun hsteps := (h'.settled q hrun hsteps).trans (h.settled q hrun hsteps)
  steps := h'.steps ∘ h.steps
  live k hk := (h'.live k hk).trans (h.live k hk)
  queue := by
    obtain ⟨jobs, hjobs⟩ := h.queue
    obtain ⟨jobs', hjobs'⟩ := h'.queue
    exact ⟨jobs ++ jobs', by rw [hjobs', hjobs, List.append_assoc]⟩
  timerArmed := h'.timerArmed.trans h.timerArmed
  exits := h'.exits.trans h.exits

theorem keepsRace_call : KeepsRace s (s.call i) :=
  ⟨fun _ _ _ => rfl, id, fun _ _ => Iff.rfl, ⟨[], (List.append_nil _).symm⟩, rfl, rfl⟩

/-- Settling a run or the loop over the steps keeps the race. -/
theorem keepsRace_settle (hwf : s.loop.WellFormed src) (hp : (∃ i, p = .run i) ∨ p = .steps) :
    KeepsRace s (s.settle p r) where
  settled q hrun hsteps := by
    apply Loop.settled_settle_of_ne
    rintro rfl
    rcases hp with ⟨i, hi⟩ | hp
    · exact hrun i hi
    · exact hsteps hp
  steps h := Loop.settled_settle_ne_none h
  live k _ := Loop.live_settle hwf
  queue := Loop.exists_queue_settle
  timerArmed := rfl
  exits := rfl

/-- Awaiting a run keeps the race. -/
theorem keepsRace_subscribe : KeepsRace s (s.subscribe (.stepResume i)) where
  settled q _ _ := by rw [loop_subscribe, Loop.settled_subscribe]
  steps h := by rwa [loop_subscribe, Loop.settled_subscribe]
  live k hk := by
    rw [loop_subscribe, Loop.live_subscribe rfl]
    exact or_iff_right (hk i)
  queue := Loop.exists_queue_subscribe
  timerArmed := rfl
  exits := rfl

/-- The deadline keeps the loop over the steps. -/
theorem keepsSteps_fireDeadline (hwf : s.loop.WellFormed src) : KeepsSteps s s.fireDeadline where
  called := rfl
  run _ := Loop.settled_settle_of_ne (by simp)
  steps := Loop.settled_settle_of_ne (by simp)
  live _ := Loop.live_settle hwf

/-! ## Runs that are called and runs that settle -/

/-- The run at the head of what is left of the list. -/
theorem drop_cons {run : StepRun} {rest : List StepRun} (h : steps.drop i = run :: rest) :
    steps[i]? = some run ∧ i < steps.length ∧ steps.drop (i + 1) = rest := by
  have hget : steps[i]? = some run := by rw [← List.head?_drop, h, List.head?_cons]
  refine ⟨hget, (List.getElem?_eq_some_iff.mp hget).1, ?_⟩
  rw [← List.tail_drop, h, List.tail_cons]

/-- The loop over the steps only adds to the runs it has called. -/
theorem called_subset_runFrom {rest : List StepRun} : s.called ⊆ (runFrom s i rest).called := by
  -- Induction on the steps left.
  induction rest generalizing s i with
  | nil => exact List.Subset.refl _
  | cons run rest ih =>
    have hcall : s.called ⊆ (s.call i).called := List.subset_append_left ..
    match run with
    | .throws _ => exact List.Subset.trans hcall ih
    | .returns none => exact hcall
    | .returns (some _) => exact hcall

/-- The loop over the steps leaves the promise of a run that is pending when it is returned. -/
theorem settled_run_runFrom {rest : List StepRun} (hrest : steps.drop i = rest)
    (hj : steps[j]? = some (.returns none)) :
    (runFrom s i rest).loop.settled (.run j) = s.loop.settled (.run j) := by
  induction rest generalizing s i with
  | nil => exact Loop.settled_settle_of_ne (by simp)
  | cons run rest ih =>
    obtain ⟨hget, -, hrest'⟩ := drop_cons hrest
    match run with
    | .throws _ => exact ih hrest'
    | .returns none =>
      show (s.loop.subscribe _ _).settled _ = _
      rw [Loop.settled_subscribe]
    | .returns (some r) =>
      -- the run that is settled here is not one that is pending when it is returned
      have hne : Promise.run j ≠ .run i := by
        rintro ⟨⟩
        rw [hj] at hget
        cases hget
      show ((s.loop.settle _ _).subscribe _ _).settled _ = _
      rw [Loop.settled_subscribe, Loop.settled_settle_of_ne hne]

/-- A continuation only adds to the runs that were called. -/
theorem called_subset_resume : s.called ⊆ (resume steps s k r).called := by
  match k, r with
  | .stepResume _, _ => exact called_subset_runFrom
  | .toComplete, .fulfilled _ => exact List.Subset.refl _
  | .toComplete, .rejected _ => exact List.Subset.refl _
  | .raceComplete, _ => exact List.Subset.refl _
  | .raceDeadline, _ => exact List.Subset.refl _
  | .raceResume, .fulfilled _ => exact List.Subset.refl _
  | .raceResume, .rejected _ => exact List.Subset.refl _

/-- A continuation leaves the promise of a run that is pending when it is returned. -/
theorem settled_run_resume (hj : steps[j]? = some (.returns none)) :
    (resume steps s k r).loop.settled (.run j) = s.loop.settled (.run j) := by
  match k, r with
  | .stepResume _, _ => exact settled_run_runFrom rfl hj
  | .toComplete, .fulfilled _ => exact Loop.settled_settle_of_ne (by simp)
  | .toComplete, .rejected _ => exact Loop.settled_settle_of_ne (by simp)
  | .raceComplete, _ => exact Loop.settled_settle_of_ne (by simp)
  | .raceDeadline, _ => exact Loop.settled_settle_of_ne (by simp)
  | .raceResume, .fulfilled _ => exact Loop.settled_settle_of_ne (by simp)
  | .raceResume, .rejected _ => exact Loop.settled_settle_of_ne (by simp)

/-- What each event does where it can happen, with what it finds there. -/
inductive Step (steps : List StepRun) (s : State) : Event → State → Prop
  | runSettles (i : ℕ) (r : Settled) (called : i ∈ s.called) :
      Step steps s (.runSettles i r) (s.settle (.run i) r)
  | deadlineFires (armed : s.timerArmed = true) (quiet : s.loop.queue = []) :
      Step steps s .deadlineFires s.fireDeadline
  | microtask (k : Reaction) (r : Settled) (loop : Loop Promise Reaction Value JsValue)
      (pop : s.loop.pop = some ((k, r), loop)) :
      Step steps s .microtask (resume steps { s with loop } k r)

/-- **What a step does**: one case for each event. -/
theorem step_cases {e : Event} (hstep : (machine steps).step s e = some t) : Step steps s e t := by
  cases e with
  | runSettles i r =>
    simp only [machine] at hstep
    split at hstep
    · split_ifs at hstep with hi
      obtain rfl := Option.some.inj hstep
      exact .runSettles i r hi
    · cases hstep
  | deadlineFires =>
    simp only [machine] at hstep
    split_ifs at hstep with hfires
    obtain rfl := Option.some.inj hstep
    exact .deadlineFires hfires.1 hfires.2
  | microtask =>
    obtain ⟨⟨⟨k, r⟩, loop⟩, hpop, rfl⟩ := Option.map_eq_some_iff.mp hstep
    exact .microtask k r loop hpop

/-- **What a step does to the runs.** It only adds to those that were called, and settles a run that
is pending when it is returned only by the settlement of that run. -/
theorem runs_of_step {e : Event} (hstep : (machine steps).step s e = some t) :
    s.called ⊆ t.called ∧ ∀ j, steps[j]? = some (.returns none) → (∀ r, e ≠ .runSettles j r) →
      t.loop.settled (.run j) = s.loop.settled (.run j) := by
  cases step_cases hstep with
  | runSettles i r =>
    refine ⟨List.Subset.refl _, fun j _ hne => Loop.settled_settle_of_ne ?_⟩
    rintro ⟨⟩
    exact hne r rfl
  | deadlineFires =>
    exact ⟨List.Subset.refl _, fun j _ _ => Loop.settled_settle_of_ne (by simp)⟩
  | microtask k r loop hpop =>
    refine ⟨called_subset_resume (s := { s with loop := loop }), fun j hj _ => ?_⟩
    rw [settled_run_resume hj]
    exact congrFun (Loop.settled_pop hpop) _

end Shutdown

end QueueWorkerKit
