import QueueWorkerKit.Api.Health
import QueueWorkerKit.Errors.Errors
import QueueWorkerKit.Library.LoopParts

/-!
# Readiness probes and their promises

The readiness route of `api/routes/health.routes.ts` and the `pingRedis` of `queue/connection.ts`,
await by await. Any number of probes overlap. What the driver does with a `PING` is left open: it
may throw, answer at once, answer at any later moment, or never. A timer fires when no microtask is
left.

## Main definitions

* `Promise`, `Reaction`, `Probes`: the promises of a probe, their continuations, and the process
* `Probes.pingRedis`, `Probes.ready`: the bounded ping, and the route
* `Probes.machine`: the probes, their timers and the draining step in any order
* `Race`: what comes first for a probe, and what it has to be answered

## Main results

* `step_cases`: what a step does
-/

namespace QueueWorkerKit

open Ecma EventDriven

namespace HealthRoutes

/-- How long a readiness check waits on Redis. -/
def READINESS_TIMEOUT_MS : ℕ := 1000

/-- The promises of a probe: of `client.ping()`, of the timeout, of the race of both, and of
`pingRedis`. -/
inductive Promise (ι : Type)
  | ping (i : ι)
  | timeout (i : ι)
  | race (i : ι)
  | pingRedis (i : ι)
  deriving DecidableEq

/-- The continuations of a probe: the two entries of the race, the await in `pingRedis`, and the
await in the route. -/
inductive Reaction (ι : Type)
  | racePing (i : ι)
  | raceTimeout (i : ι)
  | pingResume (i : ι)
  | routeResume (i : ι)
  deriving DecidableEq

/-- What a promise is fulfilled with: the reply to a `PING`, which nobody reads, or whether Redis
has replied. -/
inductive Value
  | reply (text : JsString)
  | ok (redisOk : Bool)
  deriving DecidableEq

/-- How a promise of a probe is settled. -/
abbrev Settled := Settlement Value Thrown

/-- What `client.ping()` does when it is called: it throws, or it returns a promise that may be
settled already. -/
inductive PingCall
  | throws (error : Thrown)
  | returns (settled : Option Settled)

/-- A probe that has not arrived, that waits for its ping, that has been answered, while the process
was `draining` or not, or whose route has rejected. -/
inductive Probe
  | absent
  | waiting
  | answered (reply : ReadyReply) (draining : Bool)
  | failed (error : Thrown)

/-- The flag of the process, the promises, the pings that have a promise, the timers that are
armed, and the probes. -/
structure Probes (ι : Type) where
  shuttingDown : Bool
  loop : Loop (Promise ι) (Reaction ι) Value Thrown
  pinged : ι → Bool
  timer : ι → Option ℕ
  probe : ι → Probe

/-- A probe arrives, its ping settles, its timer fires, a microtask runs, or the draining step
runs. -/
inductive Event (ι : Type)
  | request (i : ι) (ping : PingCall)
  | ping (i : ι) (r : Settled)
  | timer (i : ι)
  | microtask
  | drain

/-- The error of a ping that takes too long. -/
def timedOut (timeoutMs : ℕ) : Thrown :=
  .kit (.plain (js "Redis ping timed out after " ++ decimal timeoutMs ++ js "ms"))

/-- What the route takes a value for, in a condition. -/
def Value.truthy : Value → Bool
  | .reply text => text ≠ []
  | .ok redisOk => redisOk

namespace Probes

variable {ι : Type} [DecidableEq ι]

def start : Probes ι := ⟨false, .start, fun _ => false, fun _ => none, fun _ => .absent⟩

def setTimeout (s : Probes ι) (i : ι) (timeoutMs : ℕ) : Probes ι :=
  { s with timer := Function.update s.timer i (some timeoutMs) }

def clearTimeout (s : Probes ι) (i : ι) : Probes ι :=
  { s with timer := Function.update s.timer i none }

def settle (s : Probes ι) (p : Promise ι) (r : Settled) : Probes ι :=
  { s with loop := s.loop.settle p r }

def subscribe (s : Probes ι) (p : Promise ι) (k : Reaction ι) : Probes ι :=
  { s with loop := s.loop.subscribe p k }

/-- A probe comes to where it stands. -/
def move (s : Probes ι) (i : ι) (probe : Probe) : Probes ι :=
  { s with probe := Function.update s.probe i probe }

/-- The route sends a reply. -/
def send (s : Probes ι) (i : ι) (reply : ReadyReply) : Probes ι :=
  s.move i (.answered reply s.shuttingDown)

/-- The `finally` of `pingRedis`, and its result. -/
def finish (s : Probes ι) (i : ι) (redisOk : Bool) : Probes ι :=
  (s.clearTimeout i).settle (.pingRedis i) (.fulfilled (.ok redisOk))

/-- The promise of `client.ping()`. -/
def returned (s : Probes ι) (i : ι) (settled : Option Settled) : Probes ι :=
  let t := { s with pinged := Function.update s.pinged i true }
  match settled with
  | none => t
  | some r => t.settle (.ping i) r

/-- The race of the ping with the timeout, and the await on it. -/
def race (s : Probes ι) (i : ι) : Probes ι :=
  ((s.subscribe (.ping i) (.racePing i)).subscribe (.timeout i) (.raceTimeout i)).subscribe
    (.race i) (.pingResume i)

/-- `PING` with a hard deadline. -/
def pingRedis (s : Probes ι) (i : ι) (timeoutMs : ℕ) (ping : PingCall) : Probes ι :=
  match ping with
  | .throws _ => (s.setTimeout i timeoutMs).finish i false
  | .returns settled => ((s.setTimeout i timeoutMs).returned i settled).race i

/-- The route `/health/ready`, up to its await. -/
def ready (s : Probes ι) (i : ι) (ping : PingCall) : Probes ι :=
  if s.shuttingDown then s.send i .notReady
  else ((s.pingRedis i READINESS_TIMEOUT_MS ping).move i .waiting).subscribe (.pingRedis i)
    (.routeResume i)

/-- The callback of a timer, which is no longer armed when it runs. -/
def fire (s : Probes ι) (i : ι) (timeoutMs : ℕ) : Probes ι :=
  (s.clearTimeout i).settle (.timeout i) (.rejected (timedOut timeoutMs))

/-- A continuation. -/
def resume (s : Probes ι) : Reaction ι × Settled → Probes ι
  | (.racePing i, r) => s.settle (.race i) r
  | (.raceTimeout i, r) => s.settle (.race i) r
  | (.pingResume i, .fulfilled _) => s.finish i true
  | (.pingResume i, .rejected _) => s.finish i false
  | (.routeResume i, .fulfilled redisOk) =>
    if !redisOk.truthy then s.send i .notReady else s.send i .ready
  -- the route has no catch of its own
  | (.routeResume i, .rejected error) => s.move i (.failed error)

/-- The runs of overlapping probes, their timers and the draining step. -/
def machine : Machine (Probes ι) (Event ι) where
  step s
    | .request i ping =>
      match s.probe i with
      | .absent => some (s.ready i ping)
      | _ => none
    | .ping i r => if s.pinged i then some (s.settle (.ping i) r) else none
    | .timer i =>
      match s.timer i, s.loop.queue with
      | some timeoutMs, [] => some (s.fire i timeoutMs)
      | _, _ => none
    | .microtask => s.loop.pop.map fun job => { s with loop := job.2 }.resume job.1
    | .drain => some { s with shuttingDown := true }

end Probes

/-! ## What a probe is for -/

/-- Where a probe stands: what comes first of its ping and its timer decides it, unless it finds the
process draining. -/
inductive Stage
  | absent
  | refused
  | waiting
  | decided (redisOk : Bool)
  deriving DecidableEq

/-- What a settled ping says. -/
def Settled.redisOk : Settled → Bool
  | .fulfilled _ => true
  | .rejected _ => false

/-- What a call of the ping decides. -/
def PingCall.stage : PingCall → Stage
  | .throws _ => .decided false
  | .returns none => .waiting
  | .returns (some r) => .decided r.redisOk

/-- The race of a probe: whether the process is draining, and where the probe stands. -/
structure Race where
  draining : Bool
  stage : Stage

def Race.start : Race := ⟨false, .absent⟩

/-- What first happens decides. -/
def Stage.decide (redisOk : Bool) : Stage → Stage
  | .waiting => .decided redisOk
  | stage => stage

/-- Where the probe stands after an event. -/
def Race.next {ι : Type} [DecidableEq ι] (i : ι) (c : Race) : Event ι → Race
  | .request j ping =>
    if j = i then { c with stage := if c.draining then .refused else ping.stage } else c
  | .ping j r => if j = i then { c with stage := c.stage.decide r.redisOk } else c
  | .timer j => if j = i then { c with stage := c.stage.decide false } else c
  | .microtask => c
  | .drain => { c with draining := true }

/-- The race of a probe after some events. -/
def Race.after {ι : Type} [DecidableEq ι] (i : ι) (es : List (Event ι)) : Race :=
  es.foldl (Race.next i) .start

/-- The reply of a ping that has said something. -/
def replyOf (redisOk : Bool) : ReadyReply := if redisOk then .ready else .notReady

/-- What a probe has to be answered. -/
def Stage.reply : Stage → Option ReadyReply
  | .absent => none
  | .refused => some .notReady
  | .waiting => none
  | .decided redisOk => some (replyOf redisOk)

variable {ι : Type} [DecidableEq ι] {s t : Probes ι} {e : Event ι} {es : List (Event ι)} {i j : ι}

/-! ## Steps -/

/-- What each event does where it can happen. -/
inductive Step (s : Probes ι) : Event ι → Probes ι → Prop
  | refused (i : ι) (ping : PingCall) (absent : s.probe i = .absent)
      (draining : s.shuttingDown = true) : Step s (.request i ping) (s.send i .notReady)
  | request (i : ι) (ping : PingCall) (absent : s.probe i = .absent)
      (serving : s.shuttingDown = false) : Step s (.request i ping)
        (((s.pingRedis i READINESS_TIMEOUT_MS ping).move i .waiting).subscribe (.pingRedis i)
          (.routeResume i))
  | ping (i : ι) (r : Settled) (pinged : s.pinged i = true) :
      Step s (.ping i r) (s.settle (.ping i) r)
  | timer (i : ι) (timeoutMs : ℕ) (armed : s.timer i = some timeoutMs) (idle : s.loop.queue = []) :
      Step s (.timer i) (s.fire i timeoutMs)
  | microtask (job : Reaction ι × Settled) (L : Loop (Promise ι) (Reaction ι) Value Thrown)
      (taken : s.loop.pop = some (job, L)) : Step s .microtask ({ s with loop := L }.resume job)
  | drain : Step s .drain { s with shuttingDown := true }

/-- **What a step does**, one case for each thing that can happen. -/
theorem step_cases (hstep : Probes.machine.step s e = some t) : Step s e t := by
  cases e with
  | request i ping =>
    simp only [Probes.machine] at hstep
    split at hstep
    · next habsent =>
      obtain rfl := Option.some.inj hstep
      unfold Probes.ready
      split_ifs with hdraining
      · exact .refused i ping habsent hdraining
      · exact .request i ping habsent (by simpa using hdraining)
    · cases hstep
  | ping i r =>
    simp only [Probes.machine] at hstep
    split_ifs at hstep with hpinged
    obtain rfl := Option.some.inj hstep
    exact .ping i r hpinged
  | timer i =>
    simp only [Probes.machine] at hstep
    split at hstep
    · next timeoutMs harmed hidle =>
      obtain rfl := Option.some.inj hstep
      exact .timer i timeoutMs harmed hidle
    · cases hstep
  | microtask =>
    obtain ⟨⟨job, L⟩, htaken, rfl⟩ := Option.map_eq_some_iff.mp hstep
    exact .microtask job L htaken
  | drain =>
    obtain rfl := Option.some.inj hstep
    exact .drain

end HealthRoutes

end QueueWorkerKit
