import QueueWorkerKit.Config.Defaults
import QueueWorkerKit.Library.Heap

/-!
# Queue-wide defaults

The options of `queue/defaults.ts` that every queue of the kit is created with, how the options of
one add are laid over them, and which data a queue accepts.

## Main definitions

* `Env`: the settings that the modelled functions read
* `JobsOptions`, `JobsOptions.overriding`: the options of an add, laid over those of the queue
* `buildDefaultJobOptions`: the options of every queue
* `FitsSizeLimit`: data within the size limit in force

## Main results

* `fitsSizeLimit_over_defaults`: options without a size limit of their own inherit that of the queue
-/

namespace QueueWorkerKit

open Ecma

structure Env where
  jobAttempts : ℕ
  jobBackoffDelayMs : ℕ
  jobRemoveOnCompleteCount : ℕ
  jobRemoveOnFailCount : ℕ
  jobTimeoutMs : ℕ

/-- The settings of an environment that sets none of these variables. -/
def Env.default : Env := ⟨5, 2000, 1000, 5000, 30000⟩

structure BackoffOptions where
  kind : JsString
  delay : ℕ

/-- Which finished jobs are removed: none, or all but the latest. -/
inductive RemoveOption
  | never
  | keep (count : ℕ)

structure Deduplication where
  id : JsString
  ttl : JsNumber

/-- The options of an add, each of which may be absent. -/
structure JobsOptions where
  jobId : Option JsString
  attempts : Option JsNumber
  backoff : Option BackoffOptions
  delay : Option JsNumber
  priority : Option JsNumber
  removeOnComplete : Option RemoveOption
  removeOnFail : Option RemoveOption
  sizeLimit : Option ℕ
  deduplication : Option Deduplication

namespace JobsOptions

def empty : JobsOptions := ⟨none, none, none, none, none, none, none, none, none⟩

/-- The options of `base`, overridden by those that are present: `{ ...base, ...options }`. -/
def overriding (options base : JobsOptions) : JobsOptions where
  jobId := options.jobId <|> base.jobId
  attempts := options.attempts <|> base.attempts
  backoff := options.backoff <|> base.backoff
  delay := options.delay <|> base.delay
  priority := options.priority <|> base.priority
  removeOnComplete := options.removeOnComplete <|> base.removeOnComplete
  removeOnFail := options.removeOnFail <|> base.removeOnFail
  sizeLimit := options.sizeLimit <|> base.sizeLimit
  deduplication := options.deduplication <|> base.deduplication

end JobsOptions

def buildDefaultJobOptions (env : Env) : JobsOptions :=
  { JobsOptions.empty with
    attempts := some (.ofNat env.jobAttempts)
    backoff := some ⟨js "exponential", env.jobBackoffDelayMs⟩
    removeOnComplete := some (.keep env.jobRemoveOnCompleteCount)
    removeOnFail := some (.keep env.jobRemoveOnFailCount)
    sizeLimit := some jobPayloadSizeLimitBytes }

/-- Data whose encoding is within the size limit in force. -/
def FitsSizeLimit (options : JobsOptions) (data : Json) : Prop :=
  ∀ limit, options.sizeLimit = some limit → data.byteLength ≤ limit

/-- Options without a size limit of their own inherit that of the queue. -/
theorem fitsSizeLimit_over_defaults {options : JobsOptions} (h : options.sizeLimit = none)
    (env : Env) (data : Json) :
    FitsSizeLimit (options.overriding (buildDefaultJobOptions env)) data ↔
      data.byteLength ≤ jobPayloadSizeLimitBytes := by
  simp [FitsSizeLimit, JobsOptions.overriding, buildDefaultJobOptions, h]

end QueueWorkerKit
