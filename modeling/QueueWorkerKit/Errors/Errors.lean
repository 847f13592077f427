import QueueWorkerKit.Library.Heap
import QueueWorkerKit.Config.Defaults

/-!
# Errors and their classification

The error classes of `errors/errors.ts`, and the question whether BullMQ will refuse to retry an
error. A thrown value is an error the kit created, or any value a handler threw.

## Main definitions

* `ErrorClass`, `ErrorClass.ancestors`: the classes and their hierarchy
* `KitError`, `Thrown`: errors the kit creates, and thrown values
* `isNonRetryableError`, `classifyError`: the kit's classification
-/

namespace QueueWorkerKit

open Ecma

/-- The error classes that class tests name. -/
inductive ErrorClass
  | error
  | unrecoverableError
  | nonRetryableError
  | payloadValidationError
  | unknownJobError
  | transientError
  | jobTimeoutError
  | jobCancelledError
  deriving DecidableEq

/-- The classes an instance of a class is an instance of. -/
def ErrorClass.ancestors : ErrorClass → List ErrorClass
  | error => [error]
  | unrecoverableError => [unrecoverableError, error]
  | nonRetryableError => [nonRetryableError, unrecoverableError, error]
  | payloadValidationError =>
    [payloadValidationError, nonRetryableError, unrecoverableError, error]
  | unknownJobError => [unknownJobError, nonRetryableError, unrecoverableError, error]
  | transientError => [transientError, error]
  | jobTimeoutError => [jobTimeoutError, error]
  | jobCancelledError => [jobCancelledError, error]

/-- An error created by the kit's own constructors. -/
inductive KitError
  | nonRetryable (message : JsString)
  | payloadValidation (message : JsString) (issues : List JsString)
  | unknownJob (jobName : JsString)
  | transient (message : JsString)
  | jobTimeout (timeoutMs : ℕ)
  | jobCancelled (reason : JsString)
  | plain (message : JsString)
  deriving DecidableEq

namespace KitError

def errorClass : KitError → ErrorClass
  | nonRetryable _ => .nonRetryableError
  | payloadValidation _ _ => .payloadValidationError
  | unknownJob _ => .unknownJobError
  | transient _ => .transientError
  | jobTimeout _ => .jobTimeoutError
  | jobCancelled _ => .jobCancelledError
  | plain _ => .error

/-- The `name` each constructor sets. -/
def name : KitError → JsString
  | nonRetryable _ => js "NonRetryableError"
  | payloadValidation _ _ => js "PayloadValidationError"
  | unknownJob _ => js "UnknownJobError"
  | transient _ => js "TransientError"
  | jobTimeout _ => js "JobTimeoutError"
  | jobCancelled _ => js "JobCancelledError"
  | plain _ => js "Error"

/-- The `message` each constructor passes on. -/
def message : KitError → JsString
  | nonRetryable message => message
  | payloadValidation message _ => message
  | unknownJob jobName => js "No job definition registered for \"" ++ jobName ++ js "\""
  | transient message => message
  | jobTimeout timeoutMs => js "Job exceeded its " ++ decimal timeoutMs ++ js "ms timeout"
  | jobCancelled reason => js "Job cancelled: " ++ reason
  | plain message => message

end KitError

/-- A thrown value: an error of the kit as its constructor left it, or any other value. -/
inductive Thrown
  | kit (e : KitError)
  | value (v : JsValue)

namespace Thrown

/-- `thrown instanceof c`. -/
def instanceOf (h : Heap ErrorClass) : Thrown → ErrorClass → Answer Bool
  | kit e, c => .ok (c ∈ e.errorClass.ancestors)
  | value v, c => v.instanceOf h c

/-- `thrown.name`. -/
def name (h : Heap ErrorClass) : Thrown → Answer JsValue
  | kit e => .ok (.string e.name)
  | value v => v.property h "name"

end Thrown

/-- A value that is one of some strings. -/
def isOneOf (names : List JsString) : JsValue → Bool
  | .string s => s ∈ names
  | _ => false

/-- The names the kit's own permanent errors carry. -/
def kitPermanentNames : List JsString :=
  [js "NonRetryableError", js "PayloadValidationError", js "UnknownJobError"]

/-- True when BullMQ will refuse to retry this error. -/
def isNonRetryableError (h : Heap ErrorClass) (error : Thrown) : Answer Bool := do
  if ← error.instanceOf h .unrecoverableError then
    return true
  if !(← error.instanceOf h .error) then
    return false
  return isOneOf (js "UnrecoverableError" :: kitPermanentNames) (← error.name h)

inductive ErrorClassification
  | nonRetryable
  | retryable
  deriving DecidableEq

def classifyError (h : Heap ErrorClass) (error : Thrown) : Answer ErrorClassification := do
  return if ← isNonRetryableError h error then .nonRetryable else .retryable

/-- What the kit throws for a permanent failure is non-retryable, and only that. -/
theorem isNonRetryableError_kit (h : Heap ErrorClass) (e : KitError) :
    isNonRetryableError h (.kit e) = .ok (decide (.nonRetryableError ∈ e.errorClass.ancestors)) := by
  cases e <;> rfl

end QueueWorkerKit
