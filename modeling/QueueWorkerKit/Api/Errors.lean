import QueueWorkerKit.Errors.Errors
import QueueWorkerKit.Library.Schema

/-!
# The errors of the API

The one error shape of `api/errors.ts` and the mapping from what a request can fail with onto a
status and a body. Errors of the kit are told apart by their class, those of the HTTP library by
the code and the status they carry.

## Main definitions

* `ApiErrorCode`, `ApiErrorBody`, `ErrorResponse`: the error shape
* `ApiError`, `toValidationError`: what the error handler is given
* `buildErrorResponse`: the mapping

## Main results

* `isClientError_validation`, `isClientError_library`, `isClientError_kit`: which errors are put
  down to the caller
-/

namespace QueueWorkerKit

open Ecma

inductive ApiErrorCode
  | validationError
  | notFound
  | unknownJob
  | unauthorized
  | payloadTooLarge
  | rateLimited
  | serviceUnavailable
  | internalError
  deriving DecidableEq

structure ApiErrorBody where
  code : ApiErrorCode
  message : JsString
  details : Option (List JsString)

structure ErrorResponse where
  statusCode : ℤ
  body : ApiErrorBody

/-- What the error handler is given: an `HttpError`, an error of the kit, a `ZodError`, an error
that carries the issues of a validation as `instancePath` and `message`, or an error of a library,
with what it carries as `code` and `statusCode`. -/
inductive ApiError
  | http (statusCode : ℤ) (code : ApiErrorCode) (message : JsString)
    (details : Option (List JsString))
  | kit (e : KitError)
  | zod (issues : List Issue)
  | validation (issues : List (JsString × JsString))
  | library (name message : JsString) (code : Option JsString) (statusCode : Option JsNumber)

def notFound (message : JsString) : ApiError := .http 404 .notFound message none

/-- Formats issues as `path: message`, with no input values. -/
def formatZodIssues (issues : List Issue) : List JsString :=
  issues.map fun issue =>
    let path := join (js ".") issue.path
    if path.length > 0 then path ++ js ": " ++ issue.message else issue.message

def toValidationError (issues : List Issue) : ApiError :=
  .validation (issues.map fun issue => (js "/" ++ join (js "/") issue.path, issue.message))

/-- The details of a validation error. -/
def validationDetail (issue : JsString × JsString) : JsString :=
  if issue.1.length > 1 then
    ((issue.1.drop 1).map fun u => if u == 0x2F then 0x2E else u) ++ js ": " ++ issue.2
  else issue.2

/-- A status that is an integer. -/
def readStatusCode : Option JsNumber → Option ℤ
  | some (.finite value _) => if value.den = 1 then some value.num else none
  | _ => none

def codeForStatus (status : ℤ) : ApiErrorCode :=
  if status = 401 ∨ status = 403 then .unauthorized
  else if status = 404 then .notFound
  else if status = 413 then .payloadTooLarge
  else if status = 429 then .rateLimited
  else .validationError

def messageForStatus (status : ℤ) : JsString :=
  if status = 401 ∨ status = 403 then js "Authentication required"
  else if status = 404 then js "Resource not found"
  else if status = 413 then js "Request body is too large"
  else if status = 429 then js "Too many requests"
  else js "The request could not be processed"

/-- An unexpected failure: the message is withheld unless internals are exposed. -/
def internalError (exposeInternals : Bool) (name message : JsString) : ErrorResponse :=
  ⟨500, .internalError,
    if exposeInternals then name ++ js ": " ++ message else js "An unexpected error occurred", none⟩

/-- Maps every error the API can produce onto a status code and a body. -/
def buildErrorResponse (exposeInternals : Bool) : ApiError → ErrorResponse
  | .http statusCode code message details => ⟨statusCode, code, message, details⟩
  | .kit (.payloadValidation _ issues) =>
    ⟨400, .validationError, js "Invalid job payload", some issues⟩
  | .kit (.unknownJob jobName) => ⟨400, .unknownJob, (KitError.unknownJob jobName).message, none⟩
  | .zod issues => ⟨400, .validationError, js "Invalid request body", some (formatZodIssues issues)⟩
  | .validation issues =>
    ⟨400, .validationError, js "Invalid request", some (issues.map validationDetail)⟩
  | .kit (.nonRetryable message) => ⟨400, .validationError, message, none⟩
  -- the other errors of the kit carry neither a code nor a status
  | .kit e => internalError exposeInternals e.name e.message
  | .library name message code statusCode =>
    if code = some (js "FST_ERR_CTP_BODY_TOO_LARGE") then
      ⟨413, .payloadTooLarge, js "Request body is too large", none⟩
    else
      match readStatusCode statusCode with
      | some status =>
        -- the status is honoured, the message is not
        if 400 ≤ status ∧ status < 500 then ⟨status, codeForStatus status, messageForStatus status, none⟩
        else internalError exposeInternals name message
      | none => internalError exposeInternals name message

/-- A status that puts the failure down to the caller. -/
def ErrorResponse.IsClientError (r : ErrorResponse) : Prop := 400 ≤ r.statusCode ∧ r.statusCode < 500

/-- An error of the HTTP library that says itself that the caller is at fault. -/
def ApiError.BlamesCaller : ApiError → Prop
  | .library _ _ code statusCode => code = some (js "FST_ERR_CTP_BODY_TOO_LARGE") ∨
    ∃ status, readStatusCode statusCode = some status ∧ 400 ≤ status ∧ status < 500
  | _ => False

variable {exposeInternals : Bool}

theorem ErrorResponse.isClientError_of_eq {r : ErrorResponse} (h : r.statusCode = 400) :
    r.IsClientError := by
  rw [IsClientError, h]
  decide

theorem not_isClientError_internalError (exposeInternals : Bool) (name message : JsString) :
    ¬ (internalError exposeInternals name message).IsClientError := by
  rintro ⟨-, hlt⟩
  exact Int.lt_irrefl 500 hlt

/-- A refused body is put down to the caller. -/
theorem isClientError_validation (issues : List Issue) :
    (buildErrorResponse exposeInternals (toValidationError issues)).IsClientError :=
  ErrorResponse.isClientError_of_eq rfl

/-- **The status of a library's error is honoured** when it blames the caller. -/
theorem isClientError_library {e : ApiError} (h : e.BlamesCaller) :
    (buildErrorResponse exposeInternals e).IsClientError := by
  cases e with
  | library name message code statusCode =>
    simp only [buildErrorResponse]
    split_ifs with hcode
    · show (400 : ℤ) ≤ 413 ∧ (413 : ℤ) < 500
      decide
    · rcases h with htooLarge | ⟨status, hstatus, hrange⟩
      · exact absurd htooLarge hcode
      · rw [hstatus]
        simp only [hrange, and_self, if_true]
        exact hrange
  | _ => exact absurd h id

/-- **Which errors of the kit are put down to the caller**: those that are permanent. -/
theorem isClientError_kit (e : KitError) :
    (buildErrorResponse exposeInternals (.kit e)).IsClientError ↔
      .nonRetryableError ∈ e.errorClass.ancestors := by
  have hcaller : ∀ r : ErrorResponse, r.statusCode = 400 → r.IsClientError :=
    fun _ => ErrorResponse.isClientError_of_eq
  have hinternal : ∀ name message, ¬ (internalError exposeInternals name message).IsClientError :=
    not_isClientError_internalError exposeInternals
  cases e with
  | nonRetryable message =>
    exact iff_of_true (hcaller _ rfl) (by simp [KitError.errorClass, ErrorClass.ancestors])
  | payloadValidation message issues =>
    exact iff_of_true (hcaller _ rfl) (by simp [KitError.errorClass, ErrorClass.ancestors])
  | unknownJob jobName =>
    exact iff_of_true (hcaller _ rfl) (by simp [KitError.errorClass, ErrorClass.ancestors])
  | _ => exact iff_of_false (hinternal _ _) (by simp [KitError.errorClass, ErrorClass.ancestors])

end QueueWorkerKit
