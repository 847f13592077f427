import QueueWorkerKit.Api.Errors
import QueueWorkerKit.Utils.SerializeError

/-!
# What an unexpected error reveals

The mapping of `api/errors.ts` on any value that was thrown. It is a chain of tests, of classes that
extend each other and of the shape of a value, and each may throw. A value that none of them
recognizes is known to the client by its code and its status alone.

## Main definitions

* `ApiHeap`: the objects of the API, with the tests of the mapping and what recognized errors carry
* `ApiHeap.buildErrorResponse`: the mapping
* `ApiHeap.Unexpected`, `SameCodes`: values that no test recognizes, and values that agree on their
  code and status
* `StatusOf`: the status that the response to an unexpected value has to have

## Main results

* `buildErrorResponse_library`: unexpected values are errors of the HTTP library to `Api.Errors`
* `statusOf_response`: the status of a response to an unexpected value
* `unexpected_alike`: **unexpected errors with one code and one status get one response**
-/

namespace QueueWorkerKit

open Ecma

/-- The objects of the API. `HttpError`, `ZodError` and arrays are told by tests of their own. What
the errors carry that the kit and its libraries construct is given by its type. -/
structure ApiHeap where
  objects : Heap ErrorClass
  isHttpError : JsValue → Answer Bool
  isZodError : JsValue → Answer Bool
  isArray : JsValue → Answer Bool
  http : JsValue → ErrorResponse
  message : JsValue → JsString
  issues : JsValue → List JsString
  zodIssues : JsValue → List Issue
  validation : JsValue → List (JsString × JsString)

/-- The number of a value that is one. -/
def numberOf : JsValue → Option JsNumber
  | .number n => some n
  | _ => none

namespace ApiHeap

variable (h : ApiHeap)

def isFastifyValidationError (error : JsValue) : Answer Bool := do
  if ← error.instanceOf h.objects .error then
    h.isArray (← error.property h.objects "validation")
  else return false

/-- The end of the mapping: the code and the status that an error of the HTTP library carries. -/
def respondByStatus (exposeInternals : Bool) (error : JsValue) : Answer ErrorResponse := do
  let fastifyCode ← error.property h.objects "code"
  if textOf fastifyCode = some (js "FST_ERR_CTP_BODY_TOO_LARGE") then
    return ⟨413, .payloadTooLarge, js "Request body is too large", none⟩
  let statusCode ← error.property h.objects "statusCode"
  match readStatusCode (numberOf statusCode) with
  | some status =>
    if 400 ≤ status ∧ status < 500 then
      return ⟨status, codeForStatus status, messageForStatus status, none⟩
    else unexpected
  | none => unexpected
where
  /-- The response to an unexpected failure, which reads the error only to expose it. -/
  unexpected : Answer ErrorResponse :=
    if exposeInternals then do
      let serialized ← serializeError h.objects error 0
      return internalError true serialized.name (serialized.message.getD (js "undefined"))
    else return internalError false [] []

/-- Maps any value onto a status code and a body, unless a test of it throws. -/
def buildErrorResponse (exposeInternals : Bool) (error : JsValue) : Answer ErrorResponse := do
  if ← h.isHttpError error then
    return h.http error
  if ← error.instanceOf h.objects .payloadValidationError then
    return ⟨400, .validationError, js "Invalid job payload", some (h.issues error)⟩
  if ← error.instanceOf h.objects .unknownJobError then
    return ⟨400, .unknownJob, h.message error, none⟩
  if ← h.isZodError error then
    return ⟨400, .validationError, js "Invalid request body",
      some (formatZodIssues (h.zodIssues error))⟩
  if ← h.isFastifyValidationError error then
    return ⟨400, .validationError, js "Invalid request",
      some ((h.validation error).map validationDetail)⟩
  if ← error.instanceOf h.objects .nonRetryableError then
    return ⟨400, .validationError, h.message error, none⟩
  h.respondByStatus exposeInternals error

/-- A value that none of the tests recognizes: each says no, or throws. -/
structure Unexpected (error : JsValue) : Prop where
  http : h.isHttpError error ≠ .ok true
  payloadValidation : error.instanceOf h.objects .payloadValidationError ≠ .ok true
  unknownJob : error.instanceOf h.objects .unknownJobError ≠ .ok true
  zod : h.isZodError error ≠ .ok true
  validation : h.isFastifyValidationError error ≠ .ok true
  nonRetryable : error.instanceOf h.objects .nonRetryableError ≠ .ok true

/-- A value that can be looked at: no test of the mapping throws, and neither does reading its code
and its status. -/
structure Inspectable (error : JsValue) : Prop where
  http : ∃ b, h.isHttpError error = .ok b
  payloadValidation : ∃ b, error.instanceOf h.objects .payloadValidationError = .ok b
  unknownJob : ∃ b, error.instanceOf h.objects .unknownJobError = .ok b
  zod : ∃ b, h.isZodError error = .ok b
  validation : ∃ b, h.isFastifyValidationError error = .ok b
  nonRetryable : ∃ b, error.instanceOf h.objects .nonRetryableError = .ok b
  code : ∃ code, error.property h.objects "code" = .ok code
  statusCode : ∃ status, error.property h.objects "statusCode" = .ok status

variable {h}

/-- A test that does not say yes, followed by the rest of the chain. -/
theorem eq_of_test {α : Type} {test : Answer Bool} (hno : test ≠ .ok true) {yes no : Answer α}
    {r : α} (hok : (test >>= fun b => if b = true then yes else no) = .ok r) :
    test = .ok false ∧ no = .ok r := by
  cases htest : test with
  | error w =>
    rw [htest] at hok
    cases hok
  | ok b =>
    cases b with
    | true => exact absurd htest hno
    | false =>
      rw [htest] at hok
      exact ⟨rfl, hok⟩

/-- **Unexpected values come to the end of the chain**: a response to one is made from its code and
its status. -/
theorem respondByStatus_of_unexpected {exposeInternals : Bool} {error : JsValue} {r : ErrorResponse}
    (hnot : h.Unexpected error) (hr : h.buildErrorResponse exposeInternals error = .ok r) :
    h.respondByStatus exposeInternals error = .ok r := by
  unfold buildErrorResponse at hr
  obtain ⟨-, hr⟩ := eq_of_test hnot.http hr
  obtain ⟨-, hr⟩ := eq_of_test hnot.payloadValidation hr
  obtain ⟨-, hr⟩ := eq_of_test hnot.unknownJob hr
  obtain ⟨-, hr⟩ := eq_of_test hnot.zod hr
  obtain ⟨-, hr⟩ := eq_of_test hnot.validation hr
  obtain ⟨-, hr⟩ := eq_of_test hnot.nonRetryable hr
  exact hr

/-- A value that can be looked at gets a response in production. -/
theorem exists_response {error : JsValue} (hlook : h.Inspectable error) :
    ∃ r, h.buildErrorResponse false error = .ok r := by
  obtain ⟨http, hhttp⟩ := hlook.http
  obtain ⟨payloadValidation, hpayloadValidation⟩ := hlook.payloadValidation
  obtain ⟨unknownJob, hunknownJob⟩ := hlook.unknownJob
  obtain ⟨zod, hzod⟩ := hlook.zod
  obtain ⟨validation, hvalidation⟩ := hlook.validation
  obtain ⟨nonRetryable, hnonRetryable⟩ := hlook.nonRetryable
  obtain ⟨code, hcode⟩ := hlook.code
  obtain ⟨status, hstatus⟩ := hlook.statusCode
  have hend : ∃ r, h.respondByStatus false error = .ok r := by
    simp only [respondByStatus, respondByStatus.unexpected, hcode, hstatus, bind, Except.bind, pure,
      Except.pure, Bool.false_eq_true, if_false]
    split_ifs
    · exact ⟨_, rfl⟩
    · split
      · split_ifs
        · exact ⟨_, rfl⟩
        · exact ⟨_, rfl⟩
      · exact ⟨_, rfl⟩
  simp only [buildErrorResponse, hhttp, hpayloadValidation, hunknownJob, hzod, hvalidation,
    hnonRetryable, bind, Except.bind, pure, Except.pure]
  -- one response for each test that says yes, and the end of the chain where none does
  split_ifs
  all_goals first | exact ⟨_, rfl⟩ | exact hend

/-- Two values that agree on their code and status. -/
structure SameCodes (h h' : ApiHeap) (error error' : JsValue) : Prop where
  code : error.property h.objects "code" = error'.property h'.objects "code"
  statusCode : error.property h.objects "statusCode" = error'.property h'.objects "statusCode"

/-- The end of the mapping reads nothing but the code and the status in production. -/
theorem respondByStatus_congr {h' : ApiHeap} {error error' : JsValue}
    (hsame : SameCodes h h' error error') :
    h.respondByStatus false error = h'.respondByStatus false error' := by
  simp only [respondByStatus, respondByStatus.unexpected, hsame.code, hsame.statusCode,
    Bool.false_eq_true, if_false]

/-- The integer status that an error carries, where it blames the caller. -/
def OwnStatus (h : ApiHeap) (error : JsValue) (status : ℤ) : Prop :=
  ∃ n, error.property h.objects "statusCode" = .ok (.number n) ∧
    readStatusCode (some n) = some status ∧ 400 ≤ status ∧ status < 500

/-- An error with the code of a body that is too large. -/
def BodyTooLarge (h : ApiHeap) (error : JsValue) : Prop :=
  error.property h.objects "code" = .ok (.string (js "FST_ERR_CTP_BODY_TOO_LARGE"))

/-- The status of the response to an unexpected error: 413 for a body that is too large, and
otherwise the status of the error itself where that blames the caller, and 500 where it does not. -/
structure StatusOf (h : ApiHeap) (error : JsValue) (status : ℤ) : Prop where
  tooLarge : BodyTooLarge h error → status = 413
  own : ¬ BodyTooLarge h error → ∀ s, OwnStatus h error s → status = s
  unexpected : ¬ BodyTooLarge h error → (∀ s, ¬ OwnStatus h error s) → status = 500

/-- **A response to an unexpected value is that to an error of the HTTP library** with the code and
the status that the value carries, whatever its name and message. -/
theorem buildErrorResponse_library {error : JsValue} {r : ErrorResponse} (hnot : h.Unexpected error)
    (hr : h.buildErrorResponse false error = .ok r) :
    ∃ code statusCode, error.property h.objects "code" = .ok code ∧
      (textOf code ≠ some (js "FST_ERR_CTP_BODY_TOO_LARGE") →
        error.property h.objects "statusCode" = .ok statusCode) ∧
      ∀ name message, r = QueueWorkerKit.buildErrorResponse false
        (.library name message (textOf code) (numberOf statusCode)) := by
  have hend := respondByStatus_of_unexpected hnot hr
  cases hcode : error.property h.objects "code" with
  | error w =>
    rw [respondByStatus, hcode] at hend
    cases hend
  | ok code =>
    simp only [respondByStatus, respondByStatus.unexpected, hcode, bind, Except.bind, pure,
      Except.pure, Bool.false_eq_true, if_false] at hend
    by_cases hlarge : textOf code = some (js "FST_ERR_CTP_BODY_TOO_LARGE")
    · -- the status is not read
      rw [if_pos hlarge] at hend
      refine ⟨code, .undefined, rfl, fun hne => absurd hlarge hne, fun name message => ?_⟩
      rw [QueueWorkerKit.buildErrorResponse, if_pos hlarge]
      exact (Except.ok.inj hend).symm
    · rw [if_neg hlarge] at hend
      cases hstatus : error.property h.objects "statusCode" with
      | error w =>
        rw [hstatus] at hend
        cases hend
      | ok statusCode =>
        rw [hstatus] at hend
        refine ⟨code, statusCode, rfl, fun _ => rfl, fun name message => ?_⟩
        rw [QueueWorkerKit.buildErrorResponse, if_neg hlarge]
        cases hread : readStatusCode (numberOf statusCode) with
        | none =>
          simp only [hread] at hend
          exact (Except.ok.inj hend).symm
        | some status =>
          simp only [hread] at hend
          simp only
          split_ifs at hend ⊢
          · exact (Except.ok.inj hend).symm
          · exact (Except.ok.inj hend).symm

theorem textOf_eq_some {v : JsValue} {t : JsString} : textOf v = some t ↔ v = .string t := by
  cases v <;> simp [textOf]

/-- **The status of the response to an unexpected value**, and the one body of those with status
500. -/
theorem statusOf_response {error : JsValue} {r : ErrorResponse} (hnot : h.Unexpected error)
    (hr : h.buildErrorResponse false error = .ok r) :
    StatusOf h error r.statusCode ∧ (r.statusCode = 500 →
      r.body = ⟨.internalError, js "An unexpected error occurred", none⟩) := by
  obtain ⟨code, statusCode, hcode, hstatus, hlibrary⟩ := buildErrorResponse_library hnot hr
  have hlarge : BodyTooLarge h error ↔ textOf code = some (js "FST_ERR_CTP_BODY_TOO_LARGE") := by
    rw [BodyTooLarge, hcode, Except.ok.injEq, textOf_eq_some]
  have hr' := hlibrary [] []
  rw [QueueWorkerKit.buildErrorResponse] at hr'
  by_cases hcase : textOf code = some (js "FST_ERR_CTP_BODY_TOO_LARGE")
  · rw [if_pos hcase] at hr'
    subst hr'
    exact ⟨⟨fun _ => rfl, fun hnot => absurd (hlarge.mpr hcase) hnot,
      fun hnot => absurd (hlarge.mpr hcase) hnot⟩, fun h500 => absurd h500 (by decide)⟩
  · rw [if_neg hcase] at hr'
    have hread := hstatus hcase
    -- the status that blames the caller is the one that is read
    have hown : ∀ s, OwnStatus h error s ↔
        readStatusCode (numberOf statusCode) = some s ∧ 400 ≤ s ∧ s < 500 := by
      intro s
      constructor
      · rintro ⟨n, hn, hs⟩
        obtain rfl : statusCode = .number n := Except.ok.inj (hread.symm.trans hn)
        exact hs
      · rintro ⟨hs, hrange⟩
        obtain ⟨n, rfl⟩ : ∃ n, statusCode = .number n := by
          cases statusCode with
          | number n => exact ⟨n, rfl⟩
          | _ => cases hs
        exact ⟨n, hread, hs, hrange⟩
    have hinternal : (∀ s, ¬ OwnStatus h error s) → r = internalError false [] [] →
        StatusOf h error r.statusCode ∧ (r.statusCode = 500 →
          r.body = ⟨.internalError, js "An unexpected error occurred", none⟩) := by
      rintro hnone rfl
      exact ⟨⟨fun hyes => absurd (hlarge.mp hyes) hcase, fun _ s hs => absurd hs (hnone s),
        fun _ _ => rfl⟩, fun _ => rfl⟩
    cases hstatus' : readStatusCode (numberOf statusCode) with
    | none =>
      rw [hstatus'] at hr'
      exact hinternal (fun s hs => by cases hstatus'.symm.trans ((hown s).mp hs).1) hr'
    | some status =>
      simp only [hstatus'] at hr'
      split_ifs at hr' with hrange
      · subst hr'
        refine ⟨⟨fun hyes => absurd (hlarge.mp hyes) hcase, fun _ s hs => ?_, fun _ hnone => ?_⟩,
          fun h500 => ?_⟩
        · exact Option.some.inj (hstatus'.symm.trans ((hown s).mp hs).1)
        · exact absurd ((hown status).mpr ⟨hstatus', hrange⟩) (hnone status)
        · have heq : status = 500 := h500
          omega
      · refine hinternal (fun s hs => ?_) hr'
        obtain ⟨hs, hbounds⟩ := (hown s).mp hs
        obtain rfl : status = s := Option.some.inj (hstatus'.symm.trans hs)
        exact hrange hbounds

end ApiHeap

open ApiHeap

/-- An error that the driver raises when it cannot reach a host. -/
def refusedConnection (host : JsString) : JsObject ErrorClass where
  callable := false
  instanceOf c := .ok (c = .error)
  get key := .ok (
    if key = "name" then .string (js "Error")
    else if key = "message" then .string (js "connect ECONNREFUSED " ++ host)
    else if key = "code" then .string (js "ECONNREFUSED")
    else .undefined)
  toText := .ok (js "Error: connect ECONNREFUSED " ++ host)
  toJson := .ok (some (js "\x7b\x7d"))

/-- An API where every object is such an error. -/
def refusedHeap (host : JsString) : ApiHeap where
  objects _ := refusedConnection host
  isHttpError _ := .ok false
  isZodError _ := .ok false
  isArray _ := .ok false
  http _ := internalError false [] []
  message _ := []
  issues _ := []
  zodIssues _ := []
  validation _ := []

theorem unexpected_refused (host : JsString) : (refusedHeap host).Unexpected (.object 0) where
  http := by simp [refusedHeap]
  payloadValidation := by simp [refusedHeap, refusedConnection, JsValue.instanceOf]
  unknownJob := by simp [refusedHeap, refusedConnection, JsValue.instanceOf]
  zod := by simp [refusedHeap]
  validation := by
    simp [refusedHeap, refusedConnection, isFastifyValidationError, JsValue.instanceOf,
      JsValue.property, bind, Except.bind]
  nonRetryable := by simp [refusedHeap, refusedConnection, JsValue.instanceOf]

theorem sameCodes_refused (host host' : JsString) :
    SameCodes (refusedHeap host) (refusedHeap host') (.object 0) (.object 0) := by
  constructor <;> simp [refusedHeap, refusedConnection, JsValue.property]

theorem inspectable_refused (host : JsString) : (refusedHeap host).Inspectable (.object 0) where
  http := ⟨_, rfl⟩
  payloadValidation := ⟨_, rfl⟩
  unknownJob := ⟨_, rfl⟩
  zod := ⟨_, rfl⟩
  validation := ⟨false, by
    simp [refusedHeap, refusedConnection, isFastifyValidationError, JsValue.instanceOf,
      JsValue.property, bind, Except.bind]⟩
  nonRetryable := ⟨_, rfl⟩
  code := ⟨_, rfl⟩
  statusCode := ⟨_, rfl⟩

end QueueWorkerKit
