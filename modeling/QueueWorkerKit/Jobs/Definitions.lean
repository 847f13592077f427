import QueueWorkerKit.Jobs.Types

/-!
# The job definitions

The three definitions under `jobs/definitions`: the name, the queue, the payload schema and the
pinned options of each.

## Main definitions

* `sendEmailJob`, `generateReportJob`, `cleanupJob`: the definitions
* `jobDefinitions`, `isJobName`, `getJobDefinition`: the closed set of jobs

## Main results

* `stable_schema`: what a payload schema accepts survives serialization and is accepted again
-/

namespace QueueWorkerKit

open Ecma

/-- A lower-case letter or a digit. -/
def isSlugUnit (u : CodeUnit) : Bool := (0x61 ≤ u && u ≤ 0x7A) || isDigit u

/-- The pattern `^[a-z0-9][a-z0-9-]*$`. -/
def isSlug : JsString → Bool
  | [] => false
  | u :: rest => isSlugUnit u && rest.all fun u => isSlugUnit u || u == 0x2D

def sendEmailPayloadSchema (fmt : Formats) : Schema :=
  .object [
    (js "to", .format fmt.email (js "must be a valid email address")),
    (js "template", .string [.min 1, .max 64, .text isSlug (js "must be a lowercase slug")]),
    (js "userId", .string [.min 1, .max 64])]

def sendEmailJob (fmt : Formats) : JobDefinition where
  name := js "email.send"
  queue := .email
  schema := sendEmailPayloadSchema fmt
  defaultJobOptions := ⟨none⟩
  timeoutMs := none

def generateReportPayloadSchema : Schema :=
  .object [
    (js "reportId", .string [.min 1, .max 64]),
    (js "requestedBy", .string [.min 1, .max 128]),
    (js "format", .enum [js "csv", js "json"])]

def generateReportJob : JobDefinition where
  name := js "report.generate"
  queue := .reports
  schema := generateReportPayloadSchema
  defaultJobOptions := ⟨some 3⟩
  timeoutMs := none

def cleanupPayloadSchema (fmt : Formats) : Schema :=
  .object [
    (js "before", .format fmt.isoDatetime (js "must be an ISO-8601 date-time string")),
    (js "dryRun", .boolean)]

def cleanupJob (fmt : Formats) : JobDefinition where
  name := js "maintenance.cleanup"
  queue := .maintenance
  schema := cleanupPayloadSchema fmt
  defaultJobOptions := ⟨some 2⟩
  timeoutMs := none

/-- The closed set of jobs this application knows how to run. -/
def jobDefinitions (fmt : Formats) : List JobDefinition :=
  [sendEmailJob fmt, generateReportJob, cleanupJob fmt]

def isJobName (fmt : Formats) (name : JsString) : Bool :=
  (jobDefinitions fmt).any fun definition => definition.name = name

/-- The definition of a name, when it is one of a job. -/
def getJobDefinition (fmt : Formats) (name : JsString) : Option JobDefinition :=
  (jobDefinitions fmt).find? fun definition => definition.name = name

theorem stable_sendEmailPayloadSchema (fmt : Formats) : (sendEmailPayloadSchema fmt).Stable := by
  apply Schema.stable_object
  · show [js "to", js "template", js "userId"].Nodup
    decide
  · intro f hf
    simp only [List.mem_cons, List.not_mem_nil, or_false] at hf
    rcases hf with rfl | rfl | rfl
    · exact Schema.stable_format _ _
    · exact Schema.stable_string _
    · exact Schema.stable_string _

theorem stable_generateReportPayloadSchema : generateReportPayloadSchema.Stable := by
  apply Schema.stable_object
  · show [js "reportId", js "requestedBy", js "format"].Nodup
    decide
  · intro f hf
    simp only [List.mem_cons, List.not_mem_nil, or_false] at hf
    rcases hf with rfl | rfl | rfl
    · exact Schema.stable_string _
    · exact Schema.stable_string _
    · exact Schema.stable_enum _

theorem stable_cleanupPayloadSchema (fmt : Formats) : (cleanupPayloadSchema fmt).Stable := by
  apply Schema.stable_object
  · show [js "before", js "dryRun"].Nodup
    decide
  · intro f hf
    simp only [List.mem_cons, List.not_mem_nil, or_false] at hf
    rcases hf with rfl | rfl
    · exact Schema.stable_format _ _
    · exact Schema.stable_boolean

/-- **Payload schemas are stable**: what one accepts survives serialization unchanged and is
accepted again, so a payload checked by the producer passes the same check of the worker. -/
theorem stable_schema {fmt : Formats} {definition : JobDefinition}
    (h : definition ∈ jobDefinitions fmt) : definition.schema.Stable := by
  simp only [jobDefinitions, List.mem_cons, List.not_mem_nil, or_false] at h
  rcases h with rfl | rfl | rfl
  · exact stable_sendEmailPayloadSchema fmt
  · exact stable_generateReportPayloadSchema
  · exact stable_cleanupPayloadSchema fmt

theorem mem_of_getJobDefinition {fmt : Formats} {name : JsString} {definition : JobDefinition}
    (h : getJobDefinition fmt name = some definition) :
    definition ∈ jobDefinitions fmt ∧ definition.name = name := by
  refine ⟨List.mem_of_find?_eq_some h, ?_⟩
  simpa using List.find?_some h

/-- A name is that of a job exactly when it has a definition. -/
theorem isJobName_iff {fmt : Formats} {name : JsString} :
    isJobName fmt name = true ↔ ∃ definition, getJobDefinition fmt name = some definition := by
  rw [isJobName, getJobDefinition, ← Option.isSome_iff_exists, List.find?_isSome, List.any_eq_true]

theorem isJobName_iff_mem {fmt : Formats} {name : JsString} :
    isJobName fmt name = true ↔ name ∈ (jobDefinitions fmt).map JobDefinition.name := by
  simp [isJobName, List.any_eq_true, List.mem_map]

end QueueWorkerKit
