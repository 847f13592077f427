import QueueWorkerKit.Jobs.Registry
import QueueWorkerKit.Library.EventLoop
import QueueWorkerKit.Library.Machine
import QueueWorkerKit.Queue.Defaults
import QueueWorkerKit.Utils.SerializeError

/-!
# The job processor

One call of `processJob` of `worker/processor.ts`, with the `raceWithAbort` it awaits and the
`invoke` of `jobs/registry.ts` it starts. The promises are those of the source, the reactions are
the continuations of its awaits, of `Promise.race` and of the `catch` on abandoned work. The
handler is known by what it does when it is called; its promise settles at any moment, also after
the attempt is over, and it may settle it from a listener of its own on the abort signal.

## Main definitions

* `ActiveJob`, `HandlerRun`: a job and its handler
* `catchRun`: the catch path, with its verdict whether the job will be retried
* `abortError`: the error of an aborted signal, unless the class test of its reason throws
* `Promise`, `Reaction`: the promises of an attempt and the continuations that subscribe to them
* `start`, `resume`, `machine`: the call of `processJob`, its continuations, and its runs
-/

namespace QueueWorkerKit

open Ecma EventDriven

namespace Attempt

abbrev Settled := Settlement JsValue Thrown

/-- A job as the processor reads it. -/
structure ActiveJob where
  name : JsString
  data : Data
  attemptsMade : ℕ
  attempts : Option JsNumber

/-- What the processor of a job does when it is called: throw, or return a promise that is pending
or settled already. -/
inductive HandlerRun
  | throws (error : Thrown)
  | returns (settled : Option Settled)

inductive Counter
  | started
  | completed
  | failed
  | retrying
  | duration
  deriving DecidableEq

structure Labels where
  queue : JsString
  jobName : JsString

/-- What a processor is created with. -/
structure ProcessorOptions where
  queueName : JsString
  env : Env
  fmt : Formats
  heap : Heap ErrorClass

/-- A call of the processor: the job, its handler, and the reason the worker's signal was aborted
with before the race against it is entered. -/
structure Call where
  job : ActiveJob
  handler : HandlerRun
  aborted : Option JsValue

/-! ## The catch path -/

/-- `attempt < (job.opts.attempts ?? 1)`. -/
def attemptsRemain (job : ActiveJob) : Bool :=
  (JsNumber.ofNat (job.attemptsMade + 1)).lt (job.attempts.getD (.ofNat 1))

/-- The projection of a thrown value for the log, which may throw. An error of the kit has texts
where a projection reads them. -/
def logError (h : Heap ErrorClass) : Thrown → Answer Unit
  | .kit _ => .ok ()
  | .value v => (serializeError h v 0).map fun _ => ()

/-- What the catch path does with a thrown value: its verdict, which moves the counter of retried
jobs, and the value it rejects with, the thrown one unless looking at it throws another. -/
structure CatchRun where
  willRetry : Bool
  rejection : Thrown

def catchRun (h : Heap ErrorClass) (job : ActiveJob) (error : Thrown) : CatchRun :=
  match classifyError h error with
  | .error v => ⟨false, .value v⟩
  | .ok classification =>
    let willRetry := classification = .retryable && attemptsRemain job
    match logError h error with
    | .error v => ⟨willRetry, .value v⟩
    | .ok () => ⟨willRetry, error⟩

/-- The text of the error for a reason that is no error. -/
def cancelledMessage : JsValue → JsString
  | .string s => s
  | _ => js "worker cancelled the job"

/-- The error for the reason of the worker. The class test may throw. -/
def cancellation (h : Heap ErrorClass) (reason : JsValue) : Answer Thrown :=
  (reason.instanceOf h .error).map fun isError =>
    if isError then .value reason else .kit (.jobCancelled (cancelledMessage reason))

/-- The error of an aborted signal, which is not that of its reason once the deadline has passed. -/
def abortError (h : Heap ErrorClass) (timedOut : Bool) (reason : JsValue) (timeoutMs : ℕ) :
    Answer Thrown :=
  if timedOut then .ok (.kit (.jobTimeout timeoutMs)) else cancellation h reason

/-- What is thrown by a statement that throws an error, unless making the error throws. -/
def thrown : Answer Thrown → Thrown
  | .ok error => error
  | .error v => .value v

/-! ## The attempt -/

/-- The promises: the one the handler returns, the one of `invoke`, the one that an abort rejects,
the race of these two, the one of `raceWithAbort`, the one of `processJob`, and the one that
`catch` returns on abandoned work. -/
inductive Promise
  | handler
  | work
  | aborted
  | race
  | raced
  | attempt
  | silenced
  deriving DecidableEq

/-- The continuations: of the await in `invoke`, of the two entries of the race, of the await in
`raceWithAbort`, of the `catch` on the work, of the await in `processJob`, and of the caller. -/
inductive Reaction
  | invokeResume
  | raceWork
  | raceAborted
  | raceResume
  | catchNoop
  | jobResume
  | callerResume
  deriving DecidableEq

/-- The promise a continuation is subscribed to. -/
def src : Reaction → Promise
  | .invokeResume => .handler
  | .raceWork => .work
  | .raceAborted => .aborted
  | .raceResume => .race
  | .catchNoop => .work
  | .jobResume => .raced
  | .callerResume => .attempt

/-- The promises of an attempt, its timer, the signals, its listener, whether its clock runs, and
the increments it made. -/
structure State where
  loop : Loop Promise Reaction JsValue Thrown
  timerArmed : Bool
  timedOut : Bool
  reason : Option JsValue
  listening : Bool
  started : Bool
  increments : List (Counter × Labels)

/-- What happens to an attempt from outside. An abort reaches a listener of the handler first,
which may settle the handler's promise. -/
inductive Event
  | handlerSettles (settled : Settled)
  | timerFires (listener : Option Settled)
  | workerAborts (reason : JsValue) (listener : Option Settled)
  | microtask

namespace State

def settle (s : State) (p : Promise) (r : Settled) : State := { s with loop := s.loop.settle p r }

def subscribe (s : State) (k : Reaction) : State := { s with loop := s.loop.subscribe (src k) k }

def count (s : State) (labels : Labels) (counters : List Counter) : State :=
  { s with increments := s.increments ++ counters.map fun counter => (counter, labels) }

def clearTimer (s : State) : State := { s with timerArmed := false }

def removeListener (s : State) : State := { s with listening := false }

end State

section Processor

variable (o : ProcessorOptions) (c : Call)

/-- The definition under the name of the job. -/
def Call.definition : Option JobDefinition := getJobDefinition o.fmt c.job.name

/-- The labels of the counters: the name of the definition, or that of the job without one. -/
def Call.labels : Labels :=
  ⟨o.queueName, ((c.definition o).map JobDefinition.name).getD c.job.name⟩

def Call.timeoutMs : ℕ := ((c.definition o).bind JobDefinition.timeoutMs).getD o.env.jobTimeoutMs

/-- The duration of a job whose clock was started. -/
def State.observe (s : State) (labels : Labels) : State :=
  if s.started then s.count labels [.duration] else s

/-- The start of `invoke`: the checks of the stored data, and the call of the handler, whose
promise is awaited. -/
def State.invoke (s : State) (definition : JobDefinition) : State :=
  match validate o.fmt definition c.job.data with
  | .error e => s.settle .work (.rejected (.kit e))
  | .ok _ =>
    let s := { s.count (c.labels o) [.started] with started := true }
    match c.handler with
    | .throws error => s.settle .work (.rejected error)
    | .returns none => s.subscribe .invokeResume
    | .returns (some r) => (s.settle .handler r).subscribe .invokeResume

/-- The start of `raceWithAbort`. A signal that is aborted already ends it before the work is
raced, or otherwise subscribed to. -/
def State.raceWithAbort (s : State) : State :=
  match c.aborted with
  | some reason =>
    { s with reason := some reason }.settle .raced
      (.rejected (thrown (abortError o.heap s.timedOut reason (c.timeoutMs o))))
  | none =>
    (({ s with listening := true }.subscribe .raceWork).subscribe .raceAborted).subscribe
      .raceResume

/-- The await of the race, and the caller's subscription to the attempt. -/
def State.awaitRace (s : State) : State := (s.subscribe .jobResume).subscribe .callerResume

/-- The call of `processJob`. -/
def start : State :=
  match c.definition o with
  | none =>
    ((⟨.start, false, false, none, false, false, []⟩ : State).count (c.labels o) [.failed] |>.settle
      .attempt (.rejected (.kit (.unknownJob c.job.name)))).subscribe .callerResume
  | some definition =>
    ((State.invoke o c ⟨.start, true, false, none, false, false, []⟩ definition).raceWithAbort o
      c).awaitRace

/-- A listener that the handler put on the signal, which may settle the handler's promise. -/
def State.handlerListener (s : State) (listener : Option Settled) : State :=
  match c.handler, listener with
  | .returns _, some r => if s.started then s.settle .handler r else s
  | _, _ => s

/-- The listener of `raceWithAbort`, which is removed when it is called. -/
def State.onAbort (s : State) (reason : JsValue) : State :=
  if s.listening then
    match abortError o.heap s.timedOut reason (c.timeoutMs o) with
    | .ok error => s.removeListener.settle .aborted (.rejected error)
    -- the listener throws before it calls `reject`, which is reported to the host
    | .error _ => s.removeListener
  else s

/-- An abort of the signal: the first one calls the listeners, the handler's before that of the
race, which was added after it. -/
def State.abort (s : State) (reason : JsValue) (listener : Option Settled) : State :=
  match s.reason with
  | some _ => s
  | none => ({ s with reason := some reason }.handlerListener c listener).onAbort o c reason

/-- What a continuation does with the settlement of its promise. -/
def resume (s : State) : Reaction → Settled → State
  | .invokeResume, r => s.settle .work r
  | .raceWork, r => s.settle .race r
  | .raceAborted, r => s.settle .race r
  | .raceResume, r => (s.removeListener.subscribe .catchNoop).settle .raced r
  | .catchNoop, _ => s.settle .silenced (.fulfilled .undefined)
  | .jobResume, .fulfilled value =>
    (s.count (c.labels o) [.duration, .completed]).clearTimer.settle .attempt (.fulfilled value)
  | .jobResume, .rejected error =>
    let caught := catchRun o.heap c.job error
    ((s.observe (c.labels o)).count (c.labels o)
      (if caught.willRetry then [.failed, .retrying] else [.failed])).clearTimer.settle .attempt
        (.rejected caught.rejection)
  | .callerResume, _ => s

/-- The runs of an attempt. -/
def machine : Machine State Event where
  step s
    | .handlerSettles r =>
      match c.handler with
      | .returns _ => if s.started then some (s.settle .handler r) else none
      | .throws _ => none
    | .timerFires listener =>
      if s.timerArmed ∧ s.loop.queue = [] then
        some ({ s.clearTimer with timedOut := true }.abort o c (.string (js "job timeout"))
          listener)
      else none
    | .workerAborts reason listener => some (s.abort o c reason listener)
    | .microtask => s.loop.pop.map fun job => resume o c { s with loop := job.2 } job.1.1 job.1.2

end Processor

end Attempt

end QueueWorkerKit
