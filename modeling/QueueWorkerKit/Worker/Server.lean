import QueueWorkerKit.Worker.GracefulShutdown

/-!
# The worker process

The process that `main` of `worker/server.ts` sets up, from the call of `shutdown` on: its workers
with their active jobs, the dead-letter writes in flight, and the declared steps, which the shutdown
controller runs. A failed job that BullMQ has given up starts a write, which nothing awaits but the
drain. The drain waits for the writes that are in flight when it is called.

A worker answers its `close` by resolving after its active jobs have ended, or by rejecting at any
time; it fetches no job after that call.

## Main definitions

* `StepName`, `ServerOptions`, `steps`: the declared steps
* `JobEnd`, `JobEnd.startsRecord`: how an active job ends, and when that is recorded
* `State`, `Event`, `machine`: the runs of the process

## Main results

* `machine_follows`: the process runs the shutdown controller
-/

namespace QueueWorkerKit

open Ecma EventDriven

namespace Server

open Shutdown (StepRun)

inductive StepName
  | markDraining
  | workers
  | deadLetterDrain
  | metricsServer
  | queueEvents
  | queues
  | redis
  deriving DecidableEq

/-- Which optional parts the process has, and what the `run` of each closing step does when it is
called. -/
structure ServerOptions where
  metricsServer : Bool
  queueEvents : Bool
  closing : StepName → StepRun

/-- The declared steps, in their order. -/
def stepNames (o : ServerOptions) : List StepName :=
  .markDraining :: .workers :: .deadLetterDrain ::
    ((if o.metricsServer then [.metricsServer] else []) ++
      (if o.queueEvents then [.queueEvents] else []) ++ [.queues, .redis])

/-- The `run` of a step. The first three are asynchronous functions, whose promises are pending
when they are returned. -/
def stepRun (o : ServerOptions) : StepName → StepRun
  | .markDraining => .returns none
  | .workers => .returns none
  | .deadLetterDrain => .returns none
  | name => o.closing name

def steps (o : ServerOptions) : List StepRun := (stepNames o).map (stepRun o)

def stepIndex (o : ServerOptions) (name : StepName) : ℕ := (stepNames o).idxOf name

/-- How an active job ends: it completes, or fails, with its `finishedOn` or without a reference to
it. -/
inductive JobEnd
  | completed
  | failed (finishedOn : Option TimeValue)
  | failedWithoutJob

/-- The `failed` handler records the failures that BullMQ has decided to be final. -/
def JobEnd.startsRecord : JobEnd → Bool
  | completed => false
  | failed finishedOn => finishedOn.isSome
  | failedWithoutJob => false

/-- The controller, the number of active jobs of each worker, the settled answers to `close` with
the first rejection among them, the writes in flight, and those the drain waits for. -/
structure State (W : Type) where
  shutdown : Shutdown.State
  active : W → ℕ
  closes : W → Option (Except JsValue Unit)
  firstRejection : Option JsValue
  inFlight : List ℕ
  nextWrite : ℕ
  drained : Option (List ℕ)

/-- What happens in the process: to jobs and writes, to the promises that the steps wait for, and
in the event loop. -/
inductive Event (W : Type)
  | jobStarts (w : W)
  | jobEnds (w : W) (how : JobEnd)
  | writeSettles (write : ℕ)
  | closeResolves (w : W)
  | closeRejects (w : W) (error : JsValue)
  | workersSettle
  | drainSettles
  | drainDeadline
  | stepSettles (name : StepName) (settled : Shutdown.Settled)
  | deadlineFires
  | microtask

variable {W : Type}

/-- The `run` of a step was called. -/
def State.Called (o : ServerOptions) (s : State W) (name : StepName) : Prop :=
  stepIndex o name ∈ s.shutdown.called

instance (o : ServerOptions) (s : State W) (name : StepName) : Decidable (s.Called o name) :=
  inferInstanceAs (Decidable (_ ∈ _))

/-- The state after a step of the controller. A call of the drain takes the writes in flight. -/
def State.proceed (o : ServerOptions) (s : State W) (shutdown : Shutdown.State) : State W :=
  { s with
    shutdown
    drained :=
      match s.drained with
      | some writes => some writes
      | none => if stepIndex o .deadLetterDrain ∈ shutdown.called then some s.inFlight else none }

/-- The events of the controller that an event of the process amounts to. The promise of the workers
step settles as `Promise.all` of the closes does: with the first rejection, or when all have
resolved. -/
def forwarded (o : ServerOptions) (s : State W) : Event W → List Shutdown.Event
  | .workersSettle =>
    [.runSettles (stepIndex o .workers) (match s.firstRejection with
      | some error => .rejected error
      | none => .fulfilled .undefined)]
  | .drainSettles => [.runSettles (stepIndex o .deadLetterDrain) (.fulfilled .undefined)]
  | .drainDeadline => [.runSettles (stepIndex o .deadLetterDrain) (.fulfilled .undefined)]
  | .stepSettles name r => [.runSettles (stepIndex o name) r]
  | .deadlineFires => [.deadlineFires]
  | .microtask => [.microtask]
  | _ => []

/-- A step of the controller. -/
def State.control (o : ServerOptions) (s : State W) (e : Event W) : Option (State W) :=
  ((Shutdown.machine (steps o)).run s.shutdown (forwarded o s e)).map (s.proceed o)

/-- The call of `shutdown`, with some jobs active and some writes in flight. -/
def start (o : ServerOptions) (active : W → ℕ) (writes : ℕ) : State W :=
  ⟨Shutdown.start (steps o), active, fun _ => none, none, List.range writes, writes, none⟩

variable [DecidableEq W]

/-- The end of a job, whose failure may start a write. -/
def State.endJob (s : State W) (w : W) (how : JobEnd) : State W :=
  let s := { s with active := Function.update s.active w (s.active w - 1) }
  if how.startsRecord then
    { s with inFlight := s.inFlight ++ [s.nextWrite], nextWrite := s.nextWrite + 1 }
  else s

/-- The runs of the process with these workers. -/
def machine (o : ServerOptions) (workers : List W) : Machine (State W) (Event W) where
  step s
    | .jobStarts w =>
      if w ∈ workers ∧ ¬ s.Called o .workers then
        some { s with active := Function.update s.active w (s.active w + 1) }
      else none
    | .jobEnds w how => if w ∈ workers ∧ 0 < s.active w then some (s.endJob w how) else none
    | .writeSettles write =>
      if write ∈ s.inFlight then some { s with inFlight := s.inFlight.erase write } else none
    | .closeResolves w =>
      if w ∈ workers ∧ s.Called o .workers ∧ (s.closes w).isNone ∧ s.active w = 0 then
        some { s with closes := Function.update s.closes w (some (.ok ())) }
      else none
    | .closeRejects w error =>
      if w ∈ workers ∧ s.Called o .workers ∧ (s.closes w).isNone then
        some { s with
          closes := Function.update s.closes w (some (.error error))
          firstRejection := s.firstRejection <|> some error }
      else none
    | .workersSettle =>
      if s.Called o .workers ∧ (s.firstRejection.isSome ∨ ∀ w ∈ workers, (s.closes w).isSome) then
        s.control o .workersSettle
      else none
    | .drainSettles =>
      match s.drained with
      | some writes =>
        if ∀ write ∈ writes, write ∉ s.inFlight then s.control o .drainSettles else none
      | none => none
    | .drainDeadline =>
      match s.drained with
      | some writes => if writes ≠ [] then s.control o .drainDeadline else none
      | none => none
    | .stepSettles name r =>
      if name ≠ .workers ∧ name ≠ .deadLetterDrain then s.control o (.stepSettles name r) else none
    | .deadlineFires => s.control o .deadlineFires
    | .microtask => s.control o .microtask

variable {o : ServerOptions} {workers : List W} {s t : State W} {e : Event W}

/-- What each event does where it can happen, with what it finds there. -/
inductive Step (o : ServerOptions) (workers : List W) (s : State W) : Event W → State W → Prop
  | jobStarts (w : W) (mem : w ∈ workers) (fetching : ¬ s.Called o .workers) :
      Step o workers s (.jobStarts w)
        { s with active := Function.update s.active w (s.active w + 1) }
  | jobEnds (w : W) (how : JobEnd) (mem : w ∈ workers) (active : 0 < s.active w) :
      Step o workers s (.jobEnds w how) (s.endJob w how)
  | writeSettles (write : ℕ) : Step o workers s (.writeSettles write)
      { s with inFlight := s.inFlight.erase write }
  | closeResolves (w : W) (called : s.Called o .workers) (idle : s.active w = 0) :
      Step o workers s (.closeResolves w)
        { s with closes := Function.update s.closes w (some (.ok ())) }
  | closeRejects (w : W) (error : JsValue) (called : s.Called o .workers) :
      Step o workers s (.closeRejects w error)
        { s with
          closes := Function.update s.closes w (some (.error error))
          firstRejection := s.firstRejection <|> some error }
  | workersSettle (called : s.Called o .workers)
      (answers : s.firstRejection.isSome ∨ ∀ w ∈ workers, (s.closes w).isSome)
      (shutdown : Shutdown.State)
      (run : (Shutdown.machine (steps o)).run s.shutdown (forwarded o s .workersSettle) =
        some shutdown) : Step o workers s .workersSettle (s.proceed o shutdown)
  | drainSettles (writes : List ℕ) (drained : s.drained = some writes)
      (gone : ∀ write ∈ writes, write ∉ s.inFlight) (shutdown : Shutdown.State)
      (run : (Shutdown.machine (steps o)).run s.shutdown (forwarded o s .drainSettles) =
        some shutdown) : Step o workers s .drainSettles (s.proceed o shutdown)
  | drainDeadline (shutdown : Shutdown.State)
      (run : (Shutdown.machine (steps o)).run s.shutdown (forwarded o s .drainDeadline) =
        some shutdown) : Step o workers s .drainDeadline (s.proceed o shutdown)
  | stepSettles (name : StepName) (r : Shutdown.Settled) (workers_ne : name ≠ .workers)
      (drain_ne : name ≠ .deadLetterDrain) (shutdown : Shutdown.State)
      (run : (Shutdown.machine (steps o)).run s.shutdown (forwarded o s (.stepSettles name r)) =
        some shutdown) : Step o workers s (.stepSettles name r) (s.proceed o shutdown)
  | deadlineFires (shutdown : Shutdown.State)
      (run : (Shutdown.machine (steps o)).run s.shutdown [.deadlineFires] = some shutdown) :
      Step o workers s .deadlineFires (s.proceed o shutdown)
  | microtask (shutdown : Shutdown.State)
      (run : (Shutdown.machine (steps o)).run s.shutdown [.microtask] = some shutdown) :
      Step o workers s .microtask (s.proceed o shutdown)

omit [DecidableEq W] in
/-- A step of the process that is one of the controller. -/
theorem control_eq_some : s.control o e = some t ↔
    ∃ shutdown, (Shutdown.machine (steps o)).run s.shutdown (forwarded o s e) = some shutdown ∧
      t = s.proceed o shutdown := by
  rw [State.control, Option.map_eq_some_iff]
  constructor
  · rintro ⟨shutdown, hrun, rfl⟩
    exact ⟨shutdown, hrun, rfl⟩
  · rintro ⟨shutdown, hrun, rfl⟩
    exact ⟨shutdown, hrun, rfl⟩

/-- **What a step does**: one case for each event. -/
theorem step_cases (hstep : (machine o workers).step s e = some t) : Step o workers s e t := by
  cases e with
  | jobStarts w =>
    simp only [machine, Option.ite_none_right_eq_some] at hstep
    obtain ⟨⟨hmem, hfetching⟩, ⟨⟩⟩ := hstep
    exact .jobStarts w hmem hfetching
  | jobEnds w how =>
    simp only [machine, Option.ite_none_right_eq_some] at hstep
    obtain ⟨⟨hmem, hactive⟩, ⟨⟩⟩ := hstep
    exact .jobEnds w how hmem hactive
  | writeSettles write =>
    simp only [machine, Option.ite_none_right_eq_some] at hstep
    obtain ⟨-, ⟨⟩⟩ := hstep
    exact .writeSettles write
  | closeResolves w =>
    simp only [machine, Option.ite_none_right_eq_some] at hstep
    obtain ⟨⟨-, hcalled, -, hidle⟩, ⟨⟩⟩ := hstep
    exact .closeResolves w hcalled hidle
  | closeRejects w error =>
    simp only [machine, Option.ite_none_right_eq_some] at hstep
    obtain ⟨⟨-, hcalled, -⟩, ⟨⟩⟩ := hstep
    exact .closeRejects w error hcalled
  | workersSettle =>
    simp only [machine, Option.ite_none_right_eq_some] at hstep
    obtain ⟨⟨hcalled, hanswers⟩, hcontrol⟩ := hstep
    obtain ⟨shutdown, hrun, rfl⟩ := control_eq_some.mp hcontrol
    exact .workersSettle hcalled hanswers shutdown hrun
  | drainSettles =>
    simp only [machine] at hstep
    split at hstep
    · next writes hdrained =>
      split_ifs at hstep with hgone
      obtain ⟨shutdown, hrun, rfl⟩ := control_eq_some.mp hstep
      exact .drainSettles writes hdrained hgone shutdown hrun
    · cases hstep
  | drainDeadline =>
    simp only [machine] at hstep
    split at hstep
    · split_ifs at hstep
      obtain ⟨shutdown, hrun, rfl⟩ := control_eq_some.mp hstep
      exact .drainDeadline shutdown hrun
    · cases hstep
  | stepSettles name r =>
    simp only [machine, Option.ite_none_right_eq_some] at hstep
    obtain ⟨⟨hworkers, hdrain⟩, hcontrol⟩ := hstep
    obtain ⟨shutdown, hrun, rfl⟩ := control_eq_some.mp hcontrol
    exact .stepSettles name r hworkers hdrain shutdown hrun
  | deadlineFires =>
    obtain ⟨shutdown, hrun, rfl⟩ := control_eq_some.mp hstep
    exact .deadlineFires shutdown hrun
  | microtask =>
    obtain ⟨shutdown, hrun, rfl⟩ := control_eq_some.mp hstep
    exact .microtask shutdown hrun

@[simp] theorem shutdown_endJob {w : W} {how : JobEnd} :
    (s.endJob w how).shutdown = s.shutdown := by
  unfold State.endJob
  split_ifs <;> rfl

@[simp] theorem closes_endJob {w : W} {how : JobEnd} : (s.endJob w how).closes = s.closes := by
  unfold State.endJob
  split_ifs <;> rfl

@[simp] theorem firstRejection_endJob {w : W} {how : JobEnd} :
    (s.endJob w how).firstRejection = s.firstRejection := by
  unfold State.endJob
  split_ifs <;> rfl

@[simp] theorem drained_endJob {w : W} {how : JobEnd} : (s.endJob w how).drained = s.drained := by
  unfold State.endJob
  split_ifs <;> rfl

@[simp] theorem active_endJob {w : W} {how : JobEnd} :
    (s.endJob w how).active = Function.update s.active w (s.active w - 1) := by
  unfold State.endJob
  split_ifs <;> rfl

/-- **The process runs the shutdown controller**: each of its steps is one of the controller, or
leaves that where it is. -/
theorem machine_follows :
    (machine o workers).Follows (Shutdown.machine (steps o)) State.shutdown (forwarded o) := by
  intro s e t hstep
  cases step_cases hstep with
  | jobEnds w how => rw [shutdown_endJob]; rfl
  | workersSettle _ _ shutdown hrun => exact hrun
  | drainSettles _ _ _ shutdown hrun => exact hrun
  | drainDeadline shutdown hrun => exact hrun
  | stepSettles _ _ _ _ shutdown hrun => exact hrun
  | deadlineFires shutdown hrun => exact hrun
  | microtask shutdown hrun => exact hrun
  | _ => rfl

end Server

end QueueWorkerKit
