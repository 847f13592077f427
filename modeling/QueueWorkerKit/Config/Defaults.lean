import QueueWorkerKit.Library.Text

/-!
# Operational constants

The constants of `config/defaults.ts` that the modelled functions read.

## Main definitions

* `QueueName`, `allQueueNames`, `workerQueueNames`: the queues, and those a worker consumes
-/

namespace QueueWorkerKit

open Ecma (JsString js)

/-- The canonical queues. -/
inductive QueueName
  | email
  | reports
  | maintenance
  | deadLetter
  deriving DecidableEq

/-- The name of a queue. -/
def QueueName.text : QueueName → JsString
  | email => js "email"
  | reports => js "reports"
  | maintenance => js "maintenance"
  | deadLetter => js "dead-letter"

def allQueueNames : List QueueName := [.email, .reports, .maintenance, .deadLetter]

/-- The queues a worker process consumes. The dead-letter queue is absent. -/
def workerQueueNames : List QueueName := [.email, .reports, .maintenance]

theorem QueueName.text_injective : Function.Injective QueueName.text := by
  intro a b h
  cases a <;> cases b <;> first | rfl | exact absurd h (by decide)

/-- Stack traces are truncated before they reach logs or dead-letter records. -/
def errorStackMaxLines : ℕ := 12

/-- Upper bound on a serialized error message stored in a dead-letter record. -/
def deadLetterReasonMaxChars : ℕ := 2000

/-- Depth limit when walking `error.cause` chains. -/
def errorCauseMaxDepth : ℕ := 3

/-- Deterministic id of the recurring maintenance schedule. -/
def maintenanceSchedulerId : JsString := js "maintenance-cleanup"

/-- How far back `maintenance.cleanup` sweeps on each scheduled run. -/
def maintenanceCleanupLookbackMs : ℕ := 30 * 24 * 60 * 60 * 1000

/-- The time to live of an idempotency key when the caller does not set one: 24 hours. -/
def defaultIdempotencyTtlMs : ℕ := 24 * 60 * 60 * 1000

/-- Largest accepted `delay` on an enqueue request: 7 days. -/
def maxEnqueueDelayMs : ℕ := 7 * 24 * 60 * 60 * 1000

/-- Largest accepted request body. Enqueue payloads are small by design. -/
def httpBodyLimitBytes : ℕ := 64 * 1024

/-- Rejects oversized job payloads at `Queue.add` time rather than in Redis. -/
def jobPayloadSizeLimitBytes : ℕ := 16 * 1024

end QueueWorkerKit
