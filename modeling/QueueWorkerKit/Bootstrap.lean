import QueueWorkerKit.Library.Machine
import QueueWorkerKit.Utils.SerializeError

/-!
# The bootstraps

`main` of `worker/server.ts` and of `api/server.ts` as the operations that they run one after
another, with what each of them opens, and the `catch` at the top level. An operation that rejects
ends `main`; the `catch` reports the error and sets the exit code, and closes nothing. What is open
is closed by the shutdown alone, which the signal handlers start. The worker installs them last, the
API before it listens.

## Main definitions

* `Operation`, `Entrypoint.operations`: what the two processes run, in order
* `Operation.acquires`: what an operation opens
* `Entrypoint.report`: what the `catch` writes
* `State`, `Event`, `machine`: the runs of a process
* `State.LeavesNothing`: what a failed boot has to leave behind

## Main results

* `booted_of_run`: what is open is what the finished operations have acquired
* `failedBoot_leavesNothing_iff`: a failed boot leaves nothing behind exactly when it fails before
  the Redis client is created
* `not_released_of_quiet`: without a shutdown, what was opened is never released
-/

namespace QueueWorkerKit

open Ecma EventDriven

namespace Bootstrap

/-! ## What the two processes run -/

/-- The switches of the environment that decide what the worker sets up. -/
structure BootEnv where
  enableJobSchedulers : Bool
  enableQueueEvents : Bool
  enableWorkerMetricsServer : Bool

inductive Entrypoint
  | worker
  | api

inductive Operation
  | loadEnv
  | createLoggerFromEnv
  | createMetrics
  | createJobRegistry
  | createRedisConnection
  | waitUntilRedisReady
  | createQueue (name : QueueName)
  | createDeadLetterWriter
  | upsertSchedules
  | createQueueEvents (name : QueueName)
  | createWorker (name : QueueName)
  | startWorkerMetricsServer
  | createEnqueuer
  | registerQueueDepthCollector
  | buildApp
  | createShutdownController
  | installSignalHandlers
  | listen
  deriving DecidableEq

/-- What a process acquires while it boots. -/
inductive Resource
  | redisClient
  | queue (name : QueueName)
  | schedule (id : JsString)
  | queueEvents (name : QueueName)
  | worker (name : QueueName)
  | metricsServer
  | httpServer
  | signalHandlers
  deriving DecidableEq

/-- What an operation has acquired once it resolves. A queue registry and the listeners of queue
events are created one queue at a time. The app of the API holds no socket before it listens. -/
def Operation.acquires : Operation → List Resource
  | createRedisConnection => [.redisClient]
  | createQueue name => [.queue name]
  | upsertSchedules => [.schedule maintenanceSchedulerId]
  | createQueueEvents name => [.queueEvents name]
  | createWorker name => [.worker name]
  | startWorkerMetricsServer => [.metricsServer]
  | listen => [.httpServer]
  | installSignalHandlers => [.signalHandlers]
  | _ => []

/-- The operations that may throw or reject. The wait for Redis resolves in any case, and the
others only build closures or register listeners. -/
def Operation.mayReject : Operation → Bool
  | waitUntilRedisReady => false
  | createDeadLetterWriter => false
  | createEnqueuer => false
  | createShutdownController => false
  | installSignalHandlers => false
  | _ => true

/-- A resource that holds connections or a socket until it is closed. A schedule is an entry of the
queue, and handlers do not keep a process alive. -/
def Resource.closable : Resource → Bool
  | schedule _ => false
  | signalHandlers => false
  | _ => true

def workerOperations (env : BootEnv) : List Operation :=
  [.loadEnv, .createLoggerFromEnv, .createMetrics, .createJobRegistry, .createRedisConnection,
      .waitUntilRedisReady] ++
    allQueueNames.map .createQueue ++ [.createDeadLetterWriter] ++
    (if env.enableJobSchedulers then [.upsertSchedules] else []) ++
    (if env.enableQueueEvents then workerQueueNames.map .createQueueEvents else []) ++
    workerQueueNames.map .createWorker ++
    (if env.enableWorkerMetricsServer then [.startWorkerMetricsServer] else []) ++
    [.createShutdownController, .installSignalHandlers]

def apiOperations : List Operation :=
  [.loadEnv, .createLoggerFromEnv, .createMetrics, .createRedisConnection, .waitUntilRedisReady] ++
    allQueueNames.map .createQueue ++
    [.createEnqueuer, .registerQueueDepthCollector, .buildApp, .createShutdownController,
      .installSignalHandlers, .listen]

/-- The operations of `main`. -/
def Entrypoint.operations (p : Entrypoint) (env : BootEnv) : List Operation :=
  match p with
  | worker => workerOperations env
  | api => apiOperations

/-! ## The top-level `catch` -/

/-- What an operation rejects with: the error of an invalid configuration, or any other value. -/
inductive BootError
  | config (issues : List JsString)
  | other (value : JsValue)

def configErrorMessage (issues : List JsString) : JsString :=
  js "Invalid environment configuration:\n  - " ++ join (js "\n  - ") issues

def Entrypoint.text : Entrypoint → JsString
  | worker => js "worker"
  | api => js "api"

/-- What the `catch` writes to the standard error stream. -/
def Entrypoint.report (p : Entrypoint) (h : Heap ErrorClass) : BootError → Answer JsString
  | .config issues => .ok (configErrorMessage issues ++ js "\n")
  | .other value => do
    let serialized ← serializeError h value 0
    return p.text ++ js " failed to start: " ++ serialized.jsonText ++ js "\n"

def portMessage : JsString := js "listen EADDRINUSE: address already in use 0.0.0.0:9090"

/-- The error of a server whose port is bound already. -/
def portInUse : JsObject ErrorClass where
  callable := false
  instanceOf c := .ok (c = .error)
  get key := .ok <|
    if key = "name" then .string (js "Error")
    else if key = "message" then .string portMessage
    else if key = "code" then .string (js "EADDRINUSE")
    else .undefined
  toText := .ok (js "Error: " ++ portMessage)
  toJson := .ok (some (js "\x7b\x7d"))

theorem serializeError_portInUse : serializeError (fun _ => portInUse) (.object 0) 0 =
    .ok (.mk (js "Error") (some portMessage) none (some (js "EADDRINUSE")) none) := by
  have hname : 0 < (js "Error").length := by decide
  simp [serializeError, serializeErrorFrom, portInUse, JsValue.instanceOf, readProperty,
    JsValue.property, errorName, errorMessage, errorStack, readCode, hname, bind, Except.bind,
    pure, Except.pure, errorCauseMaxDepth]

theorem report_portInUse : Entrypoint.worker.report (fun _ => portInUse) (.other (.object 0)) =
    .ok (js "worker failed to start: " ++ (SerializedError.mk (js "Error") (some portMessage) none
      (some (js "EADDRINUSE")) none).jsonText ++ js "\n") := by
  rw [Entrypoint.report, serializeError_portInUse]
  rfl

/-! ## The process -/

/-- The operations to come, what is open or was closed again, the queues that jobs were taken from,
what `main` rejected with, what was written to the standard error stream, the exit code, and whether
a shutdown has begun. -/
structure State where
  left : List Operation
  opened : List Resource
  closed : List Resource
  taken : List QueueName
  rejection : Option BootError
  stderr : List JsString
  exitCode : Option ℕ
  stopping : Bool

/-- What happens in a process: the operation at hand resolves or rejects, the `catch` runs, a
worker takes a job, a signal or an uncaught error reaches the handlers, or the shutdown closes
something. -/
inductive Event
  | resolves
  | rejects (error : BootError)
  | catches
  | takesJob (name : QueueName)
  | signal
  | closes (r : Resource)

/-- The worker of a queue takes jobs from its creation until it is closed. -/
def State.Consuming (s : State) (name : QueueName) : Prop :=
  .worker name ∈ s.opened ∧ .worker name ∉ s.closed

/-- Whatever was opened has been closed. -/
def State.Released (s : State) : Prop := ∀ r ∈ s.opened, r.closable = true → r ∈ s.closed

instance (s : State) (name : QueueName) : Decidable (s.Consuming name) :=
  inferInstanceAs (Decidable (_ ∧ _))

instance (s : State) : Decidable s.Released :=
  inferInstanceAs (Decidable (∀ r ∈ s.opened, _ → _))

/-- The code that a process ends with by itself, which it does when nothing is open. The timer of
the shutdown controller, which makes a process exit after a shutdown though something is still open,
is left out. -/
def State.endsWith (s : State) : Option ℕ := if s.Released then s.exitCode else none

/-- Nothing of a boot that has failed is running: no worker consumes jobs, whatever was opened has
been closed, and the process ends with the exit code of a failure. -/
structure State.LeavesNothing (s : State) : Prop where
  idle : ∀ name, ¬ s.Consuming name
  released : s.Released
  ends : s.endsWith = some 1

/-- A process at the call of `main`. -/
def start (p : Entrypoint) (env : BootEnv) : State :=
  ⟨p.operations env, [], [], [], none, [], none, false⟩

/-- The runs of a process. The `catch` reports the error and sets the exit code. -/
def machine (p : Entrypoint) (h : Heap ErrorClass) : Machine State Event where
  step s
    | .resolves =>
      match s.rejection, s.left with
      | none, op :: left => some { s with left, opened := s.opened ++ op.acquires }
      | _, _ => none
    | .rejects error =>
      match s.rejection, s.left with
      | none, op :: _ => if op.mayReject then some { s with rejection := some error } else none
      | _, _ => none
    | .catches =>
      match s.rejection, s.exitCode with
      | some error, none =>
        match p.report h error with
        | .ok text => some { s with stderr := s.stderr ++ [text], exitCode := some 1 }
        | .error _ => none
      | _, _ => none
    | .takesJob name =>
      if s.Consuming name then some { s with taken := s.taken ++ [name] } else none
    | .signal => if .signalHandlers ∈ s.opened then some { s with stopping := true } else none
    | .closes r =>
      if s.stopping = true ∧ r ∈ s.opened ∧ r ∉ s.closed then
        some { s with closed := s.closed ++ [r] }
      else none

/-- What each event does where it can happen, with what it finds there. -/
inductive Step (p : Entrypoint) (h : Heap ErrorClass) (s : State) : Event → State → Prop
  | resolves (op : Operation) (left : List Operation) (running : s.rejection = none)
      (next : s.left = op :: left) :
      Step p h s .resolves { s with left, opened := s.opened ++ op.acquires }
  | rejects (error : BootError) (op : Operation) (left : List Operation)
      (running : s.rejection = none) (next : s.left = op :: left) :
      Step p h s (.rejects error) { s with rejection := some error }
  | catches (error : BootError) (text : JsString) (rejected : s.rejection = some error)
      (uncaught : s.exitCode = none) (report : p.report h error = .ok text) :
      Step p h s .catches { s with stderr := s.stderr ++ [text], exitCode := some 1 }
  | takesJob (name : QueueName) (consuming : s.Consuming name) :
      Step p h s (.takesJob name) { s with taken := s.taken ++ [name] }
  | signal (handlers : .signalHandlers ∈ s.opened) :
      Step p h s .signal { s with stopping := true }
  | closes (r : Resource) (stopping : s.stopping = true) :
      Step p h s (.closes r) { s with closed := s.closed ++ [r] }

variable {p : Entrypoint} {h : Heap ErrorClass} {env : BootEnv} {s t : State} {e : Event}
  {es : List Event} {error : BootError}

/-- **What a step does**: one case for each event. -/
theorem step_cases (hstep : (machine p h).step s e = some t) : Step p h s e t := by
  cases e with
  | resolves =>
    simp only [machine] at hstep
    split at hstep
    · next op left hrunning hnext =>
      cases hstep
      exact .resolves op left hrunning hnext
    · cases hstep
  | rejects error =>
    simp only [machine] at hstep
    split at hstep
    · next op left hrunning hnext =>
      split_ifs at hstep
      cases hstep
      exact .rejects error op left hrunning hnext
    · cases hstep
  | catches =>
    simp only [machine] at hstep
    split at hstep
    · next error hrejected huncaught =>
      split at hstep
      · next text hreport =>
        cases hstep
        exact .catches error text hrejected huncaught hreport
      · cases hstep
    · cases hstep
  | takesJob name =>
    simp only [machine, Option.ite_none_right_eq_some] at hstep
    obtain ⟨hconsuming, ⟨⟩⟩ := hstep
    exact .takesJob name hconsuming
  | signal =>
    simp only [machine, Option.ite_none_right_eq_some] at hstep
    obtain ⟨hhandlers, ⟨⟩⟩ := hstep
    exact .signal hhandlers
  | closes r =>
    simp only [machine, Option.ite_none_right_eq_some] at hstep
    obtain ⟨⟨hstopping, -⟩, ⟨⟩⟩ := hstep
    exact .closes r hstopping

/-- The operations resolve one after another. -/
theorem run_resolves {n : ℕ} (hrunning : s.rejection = none) (hn : n ≤ s.left.length) :
    (machine p h).run s (List.replicate n .resolves) = some
      { s with
        left := s.left.drop n
        opened := s.opened ++ (s.left.take n).flatMap Operation.acquires } := by
  -- Induction on the number of operations, from every state.
  induction n generalizing s with
  | zero => simp
  | succ n ih =>
    obtain ⟨op, left, hleft⟩ := List.exists_cons_of_length_pos (Nat.lt_of_lt_of_le n.succ_pos hn)
    have hlength : n ≤ left.length := by
      rw [hleft, List.length_cons] at hn
      exact Nat.le_of_succ_le_succ hn
    apply Machine.run_cons.mpr
    refine ⟨{ s with left, opened := s.opened ++ op.acquires }, ?_, ?_⟩
    · simp only [machine, hrunning, hleft]
    · have hrest := ih (s := { s with left, opened := s.opened ++ op.acquires }) hrunning hlength
      simpa [hleft] using hrest

/-- The `catch` reports what `main` rejected with, and does nothing else but set the exit code. -/
theorem step_catches {text : JsString} (hrejected : s.rejection = some error)
    (huncaught : s.exitCode = none) (hreport : p.report h error = .ok text) :
    (machine p h).step s .catches =
      some { s with stderr := s.stderr ++ [text], exitCode := some 1 } := by
  simp only [machine, hrejected, huncaught, hreport]

/-- **A failed boot**: the operations before one that may reject resolve, it rejects, and the
`catch` runs. -/
theorem run_failed {n : ℕ} {op : Operation} {text : JsString}
    (hop : (p.operations env)[n]? = some op) (hmay : op.mayReject = true)
    (hreport : p.report h error = .ok text) :
    (machine p h).run (start p env) (List.replicate n .resolves ++ [.rejects error, .catches]) =
      some
        { left := (p.operations env).drop n
          opened := ((p.operations env).take n).flatMap Operation.acquires
          closed := []
          taken := []
          rejection := some error
          stderr := [text]
          exitCode := some 1
          stopping := false } := by
  obtain ⟨hn, hget⟩ := List.getElem?_eq_some_iff.mp hop
  have hnext : (p.operations env).drop n = op :: (p.operations env).drop (n + 1) := by
    rw [List.drop_eq_getElem_cons hn, hget]
  have hboot := run_resolves (p := p) (h := h) (s := start p env) rfl (Nat.le_of_lt hn)
  have hrejects : (machine p h).step
      { start p env with
        left := (p.operations env).drop n
        opened := [] ++ ((p.operations env).take n).flatMap Operation.acquires } (.rejects error) =
      some
        { start p env with
          left := (p.operations env).drop n
          opened := ((p.operations env).take n).flatMap Operation.acquires
          rejection := some error } := by
    simp only [machine, start, hnext, hmay, if_true, List.nil_append]
  apply Machine.run_append_cons.mpr
  refine ⟨_, _, hboot, hrejects, ?_⟩
  exact Machine.run_cons.mpr ⟨_, step_catches rfl rfl hreport, rfl⟩

/-! ## What is open -/

/-- What holds in every state of a boot: what is open is what the finished operations have acquired,
the exit code is the work of the `catch`, and nothing is closed but by a shutdown, for which the
handlers have to be there. -/
structure Booted (p : Entrypoint) (env : BootEnv) (s : State) : Prop where
  progress : ∃ done, p.operations env = done ++ s.left ∧
    s.opened = done.flatMap Operation.acquires
  uncaught : s.rejection = none → s.exitCode = none
  handlers : s.stopping = true → .signalHandlers ∈ s.opened
  kept : s.stopping = false → s.closed = []

theorem booted_start : Booted p env (start p env) where
  progress := ⟨[], rfl, rfl⟩
  uncaught _ := rfl
  handlers hstopping := by cases hstopping
  kept _ := rfl

theorem booted_step (hs : Booted p env s) (hstep : (machine p h).step s e = some t) :
    Booted p env t := by
  cases step_cases hstep with
  | resolves op left hrunning hnext =>
    obtain ⟨done, hops, hopened⟩ := hs.progress
    refine ⟨⟨done ++ [op], ?_, ?_⟩, hs.uncaught, fun hstopping => ?_, hs.kept⟩
    · -- the operation moves from what is left to what is done
      rw [hops, hnext, List.append_assoc, List.singleton_append]
    · rw [List.flatMap_append, List.flatMap_singleton, hopened]
    · exact List.mem_append_left _ (hs.handlers hstopping)
  | rejects error => exact ⟨hs.progress, nofun, hs.handlers, hs.kept⟩
  | catches error text hrejected =>
    -- the `catch` runs after a rejection only
    refine ⟨hs.progress, fun hnone => ?_, hs.handlers, hs.kept⟩
    cases hrejected.symm.trans hnone
  | takesJob => exact ⟨hs.progress, hs.uncaught, hs.handlers, hs.kept⟩
  | signal hhandlers => exact ⟨hs.progress, hs.uncaught, fun _ => hhandlers, nofun⟩
  | closes r hstopping =>
    -- what is closed is closed by a shutdown
    refine ⟨hs.progress, hs.uncaught, hs.handlers, fun hfalse => ?_⟩
    cases hstopping.symm.trans hfalse

/-- **The open resources of a boot** are those that the finished operations have acquired. -/
theorem booted_of_run (hrun : (machine p h).run (start p env) es = some s) : Booted p env s :=
  Machine.run_invariant (fun _ _ _ hs _ hstep => booted_step hs hstep) booted_start
    Machine.stepsMeet_true hrun

/-- An entry that a list holds once is still to come exactly when the part that is done ends
before it. -/
theorem mem_left_iff {α : Type} {x : α} {done left before after : List α}
    (heq : done ++ left = before ++ x :: after) (hbefore : x ∉ before) (hafter : x ∉ after) :
    x ∈ left ↔ done <+: before := by
  constructor
  · intro hmem
    rcases List.append_eq_append_iff.mp heq with ⟨rest, rfl, -⟩ | ⟨rest, rfl, hrest⟩
    · exact List.prefix_append done rest
    · cases rest with
      | nil => simp
      | cons y rest =>
        -- The part that is done goes past the entry, which would have to come once more.
        obtain ⟨rfl, rfl⟩ := List.cons.inj hrest
        exact absurd (List.mem_append_right rest hmem) hafter
  · rintro ⟨rest, rfl⟩
    rw [List.append_assoc] at heq
    rw [List.append_cancel_left heq]
    apply List.mem_append_right
    exact List.mem_cons_self

/-- The Redis client is the first thing that either process acquires, and it is created once. -/
theorem connection_first (p : Entrypoint) (env : BootEnv) : ∃ before after,
    p.operations env = before ++ .createRedisConnection :: after ∧
      before.flatMap Operation.acquires = [] ∧ .createRedisConnection ∉ before ∧
      .createRedisConnection ∉ after := by
  cases p with
  | worker =>
    refine ⟨[.loadEnv, .createLoggerFromEnv, .createMetrics, .createJobRegistry],
      (workerOperations env).drop 5, rfl, rfl, by decide, ?_⟩
    obtain ⟨_ | _, _ | _, _ | _⟩ := env <;> decide
  | api =>
    exact ⟨[.loadEnv, .createLoggerFromEnv, .createMetrics], apiOperations.drop 4, rfl, rfl,
      by decide, by decide⟩

/-- Nothing is open before the Redis client. -/
theorem opened_eq_nil (hs : Booted p env s) (hleft : .createRedisConnection ∈ s.left) :
    s.opened = [] := by
  obtain ⟨before, after, hops, hnone, hbefore, hafter⟩ := connection_first p env
  obtain ⟨done, hdone, hopened⟩ := hs.progress
  -- The client is still to come, so what is done comes before it and acquires nothing.
  obtain ⟨rest, rfl⟩ := (mem_left_iff (hdone.symm.trans hops) hbefore hafter).mp hleft
  rw [List.flatMap_append] at hnone
  rw [hopened]
  exact (List.append_eq_nil_iff.mp hnone).1

/-- Once it has been created, the Redis client is among what was opened. -/
theorem redisClient_opened (hs : Booted p env s) (hleft : .createRedisConnection ∉ s.left) :
    .redisClient ∈ s.opened := by
  obtain ⟨before, after, hops, -⟩ := connection_first p env
  obtain ⟨done, hdone, hopened⟩ := hs.progress
  -- The operation is among those of `main`, and no more among those that are left.
  have hmem : .createRedisConnection ∈ done ++ s.left := by
    rw [← hdone, hops]
    exact List.mem_append_right _ List.mem_cons_self
  have hfinished : .createRedisConnection ∈ done :=
    (List.mem_append.mp hmem).resolve_right hleft
  rw [hopened]
  exact List.mem_flatMap.mpr ⟨_, hfinished, List.mem_singleton_self _⟩

/-- As long as no shutdown has begun, everything is closed only where nothing was opened. -/
theorem released_iff (hs : Booted p env s) (hquiet : s.stopping = false) :
    s.Released ↔ .createRedisConnection ∈ s.left := by
  constructor
  · intro hreleased
    by_contra hleft
    -- the client is open, and nothing has been closed
    have hclosed : .redisClient ∈ s.closed := hreleased _ (redisClient_opened hs hleft) rfl
    rw [hs.kept hquiet] at hclosed
    exact List.not_mem_nil hclosed
  · intro hleft r hr
    rw [opened_eq_nil hs hleft] at hr
    exact absurd hr List.not_mem_nil

/-- The handlers are the last thing that the worker sets up. -/
theorem handlers_last (env : BootEnv) :
    ∃ body, workerOperations env = body ++ [.installSignalHandlers] ∧
      .installSignalHandlers ∉ body := by
  refine ⟨(workerOperations env).dropLast, ?_, ?_⟩
  · obtain ⟨_ | _, _ | _, _ | _⟩ := env <;> rfl
  · obtain ⟨_ | _, _ | _, _ | _⟩ := env <;> decide

theorem eq_installSignalHandlers {op : Operation} (hop : .signalHandlers ∈ op.acquires) :
    op = .installSignalHandlers := by
  cases op with
  | installSignalHandlers => rfl
  | _ => simp [Operation.acquires] at hop

/-- No shutdown can begin in a worker that has not come to the end of `main`. -/
theorem worker_not_stopping (hs : Booted .worker env s) (hleft : s.left ≠ []) :
    s.stopping = false := by
  obtain ⟨body, hbody, hnew⟩ := handlers_last env
  obtain ⟨done, hdone, hopened⟩ := hs.progress
  have hops : done ++ s.left = body ++ [.installSignalHandlers] := hdone.symm.trans hbody
  obtain ⟨left, last, hlast⟩ := List.eq_nil_or_concat s.left |>.resolve_left hleft
  -- Something is left, and with it the last operation.
  have hcome : .installSignalHandlers ∈ s.left := by
    rw [hlast, List.concat_eq_append, ← List.append_assoc] at hops
    have heq : [last] = [Operation.installSignalHandlers] := (List.append_inj' hops rfl).2
    rw [hlast, List.concat_eq_append, heq]
    exact List.mem_append_right _ (List.mem_singleton_self _)
  have hearlier : done <+: body := (mem_left_iff hops hnew List.not_mem_nil).mp hcome
  by_contra hstopping
  -- A shutdown needs handlers, which only that operation installs.
  have hhandlers := hs.handlers (eq_true_of_ne_false hstopping)
  rw [hopened] at hhandlers
  obtain ⟨op, hop, hacquires⟩ := List.mem_flatMap.mp hhandlers
  rw [eq_installSignalHandlers hacquires] at hop
  exact hnew (hearlier.subset hop)

/-! ## After the rejection -/

/-- What has been released stays so: a `main` that has rejected opens nothing any more. -/
theorem released_step (hs : s.rejection.isSome ∧ s.Released)
    (hstep : (machine p h).step s e = some t) : t.rejection.isSome ∧ t.Released := by
  obtain ⟨hrejected, hreleased⟩ := hs
  cases step_cases hstep with
  | resolves op left hrunning => rw [hrunning] at hrejected; cases hrejected
  | rejects error op left hrunning => rw [hrunning] at hrejected; cases hrejected
  | catches => exact ⟨hrejected, hreleased⟩
  | takesJob => exact ⟨hrejected, hreleased⟩
  | signal => exact ⟨hrejected, hreleased⟩
  | closes r =>
    refine ⟨hrejected, fun r' hopened hclosable => ?_⟩
    exact List.mem_append_left _ (hreleased r' hopened hclosable)

/-- The exit code of the `catch` stays. -/
theorem exitCode_step (hs : s.exitCode = some 1) (hstep : (machine p h).step s e = some t) :
    t.exitCode = some 1 := by
  cases step_cases hstep with
  | catches => rfl
  | _ => exact hs

theorem exitCode_of_caught (hrun : (machine p h).run s es = some t) (hcaught : .catches ∈ es) :
    t.exitCode = some 1 := by
  -- The code is set where the `catch` runs, and kept from there on.
  obtain ⟨pre, post, rfl⟩ := List.append_of_mem hcaught
  obtain ⟨u, v, -, hstep, hpost⟩ := Machine.run_append_cons.mp hrun
  have hv : v.exitCode = some 1 := by
    cases step_cases hstep with
    | catches => rfl
  exact Machine.run_invariant (I := fun s => s.exitCode = some 1)
    (fun _ _ _ hs _ hstep => exitCode_step hs hstep) hv Machine.stepsMeet_true hpost

theorem leavesNothing_of_released (hreleased : s.Released) (hcode : s.exitCode = some 1) :
    s.LeavesNothing where
  idle := by
    rintro name ⟨hopened, hclosed⟩
    exact hclosed (hreleased _ hopened rfl)
  released := hreleased
  ends := by rw [State.endsWith, if_pos hreleased, hcode]

/-- **The `catch` closes nothing**: what a failed boot leaves behind is decided when it fails. -/
theorem leavesNothing_iff_released (hs : Booted p env s) {text : JsString}
    (hstep : (machine p h).step s (.rejects error) = some t)
    (hreport : p.report h error = .ok text) :
    (∀ es u, (machine p h).run t es = some u → .catches ∈ es → u.LeavesNothing) ↔ s.Released := by
  cases step_cases hstep with
  | rejects _ op left hrunning =>
    constructor
    · intro hall
      -- The `catch` itself, and nothing after it.
      have hcatch : (machine p h).step { s with rejection := some error } .catches = some
          { s with rejection := some error, stderr := s.stderr ++ [text], exitCode := some 1 } :=
        step_catches rfl (hs.uncaught hrunning) hreport
      have hrun := Machine.run_cons.mpr ⟨_, hcatch, Machine.run_nil _⟩
      exact (hall [.catches] _ hrun List.mem_cons_self).released
    · intro hreleased es u hrun hcaught
      -- whatever comes after the rejection opens nothing
      have hu : u.rejection.isSome ∧ u.Released :=
        Machine.run_invariant (I := fun s => s.rejection.isSome ∧ s.Released)
          (fun _ _ _ hs _ hstep => released_step hs hstep) ⟨rfl, hreleased⟩ Machine.stepsMeet_true
          hrun
      exact leavesNothing_of_released hu.2 (exitCode_of_caught hrun hcaught)

/-- As long as no shutdown begins, a process with a Redis client never releases what it has
opened. -/
theorem not_released_of_quiet (hs : Booted p env s) (hquiet : s.stopping = false)
    (hleft : .createRedisConnection ∉ s.left) (hsignal : ∀ e ∈ es, e ≠ .signal)
    (hrun : (machine p h).run s es = some t) : ¬ t.Released := by
  have ht : Booted p env t ∧ t.stopping = false ∧ .createRedisConnection ∉ t.left := by
    refine Machine.run_invariant (G := fun _ e => e ≠ .signal)
      (I := fun s => Booted p env s ∧ s.stopping = false ∧ .createRedisConnection ∉ s.left) ?_
      ⟨hs, hquiet, hleft⟩ (Machine.stepsMeet_of_forall hsignal) hrun
    rintro s e t ⟨hs, hquiet, hleft⟩ hnot hstep
    refine ⟨booted_step hs hstep, ?_⟩
    cases step_cases hstep with
    | resolves op left _ hnext =>
      rw [hnext] at hleft
      exact ⟨hquiet, fun hmem => hleft (List.mem_cons_of_mem op hmem)⟩
    | signal => exact absurd rfl hnot
    | _ => exact ⟨hquiet, hleft⟩
  intro hreleased
  exact ht.2.2 ((released_iff ht.1 ht.2.1).mp hreleased)

/-- A failed boot of the worker leaves nothing behind exactly when it fails before the Redis client
is created: no shutdown can release anything in its place. -/
theorem worker_leavesNothing_iff (hs : Booted .worker env s) {text : JsString}
    (hstep : (machine .worker h).step s (.rejects error) = some t)
    (hreport : Entrypoint.worker.report h error = .ok text) :
    (∀ es u, (machine .worker h).run t es = some u → .catches ∈ es → u.LeavesNothing) ↔
      .createRedisConnection ∈ s.left := by
  rw [leavesNothing_iff_released hs hstep hreport]
  apply released_iff hs
  apply worker_not_stopping hs
  cases step_cases hstep with
  | rejects _ op left hrunning hnext =>
    rw [hnext]
    exact List.cons_ne_nil op left

/-- **When a failed boot leaves nothing behind.** Whatever operation of `main` rejects, with
whatever error, after the `catch` no worker consumes jobs, everything that was opened has been
closed and the process ends with the exit code of a failure, if and only if the Redis client had not
been created when it rejected, or a shutdown had by then closed everything. -/
theorem failedBoot_leavesNothing_iff {text : JsString}
    (hrun : (machine p h).run (start p env) es = some s)
    (hstep : (machine p h).step s (.rejects error) = some t)
    (hreport : p.report h error = .ok text) :
    (∀ after u, (machine p h).run t after = some u → .catches ∈ after → u.LeavesNothing) ↔
      .createRedisConnection ∈ s.left ∨ s.stopping = true ∧ s.Released := by
  have hs : Booted p env s := booted_of_run hrun
  rw [leavesNothing_iff_released hs hstep hreport]
  constructor
  · intro hreleased
    -- without a shutdown, what is released was never opened
    cases hstopping : s.stopping with
    | false => exact .inl ((released_iff hs hstopping).mp hreleased)
    | true => exact .inr ⟨rfl, hreleased⟩
  · rintro (hleft | ⟨-, hreleased⟩)
    · intro r hr
      rw [opened_eq_nil hs hleft] at hr
      exact absurd hr List.not_mem_nil
    · exact hreleased

/-- A worker whose configuration is refused. -/
theorem failedBoot_leavesNothing_iff_config : ∃ u,
    (machine .worker fun _ => portInUse).run (start .worker ⟨true, true, true⟩)
        [.rejects (.config [js "REDIS_URL must not be empty"]), .catches] = some u ∧
      u.stderr = [js "Invalid environment configuration:\n  - REDIS_URL must not be empty\n"] ∧
      u.LeavesNothing := by
  obtain ⟨t, u, hrejects, hcatches, hstderr⟩ : ∃ t u,
      (machine .worker fun _ => portInUse).step (start .worker ⟨true, true, true⟩)
          (.rejects (.config [js "REDIS_URL must not be empty"])) = some t ∧
        (machine .worker fun _ => portInUse).run t [.catches] = some u ∧
        u.stderr = [js "Invalid environment configuration:\n  - REDIS_URL must not be empty\n"] :=
    ⟨_, _, rfl, rfl, by decide⟩
  refine ⟨u, Machine.run_cons.mpr ⟨t, hrejects, hcatches⟩, hstderr, ?_⟩
  have hiff := failedBoot_leavesNothing_iff (Machine.run_nil (start .worker ⟨true, true, true⟩))
    hrejects rfl
  exact hiff.mpr (Or.inl (by decide)) [.catches] u hcatches List.mem_cons_self

/-- **The port of the metrics server is in use**: the workers have been created by then, and take
jobs after the `catch` has run. -/
theorem failed_worker_keeps_consuming : ∃ u,
    (machine .worker fun _ => portInUse).run (start .worker ⟨true, true, true⟩)
        ((List.replicate 18 .resolves ++ [.rejects (.other (.object 0)), .catches]) ++
          [.takesJob .email]) = some u ∧
      u.exitCode = some 1 ∧ u.taken = [.email] ∧ ¬ u.LeavesNothing := by
  have hop : (Entrypoint.worker.operations ⟨true, true, true⟩)[18]? =
      some .startWorkerMetricsServer := rfl
  have hboot := run_failed hop rfl report_portInUse
  refine ⟨_, Machine.run_append.mpr ⟨_, hboot, rfl⟩, rfl, rfl, fun hleaves => ?_⟩
  exact hleaves.idle .email (by decide)

end Bootstrap

end QueueWorkerKit
