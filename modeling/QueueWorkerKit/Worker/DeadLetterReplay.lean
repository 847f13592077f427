import QueueWorkerKit.Worker.DeadLetterSize
import QueueWorkerKit.Worker.ErrorReporting
import QueueWorkerKit.Worker.MetricLabels

/-!
# Replaying dead-letter records

The listener of `failed` hands a job that has failed for good to the writer, and the guide of
operations enqueues the payload of its record again, under its name and with its correlation id. The
record holds the data of the job as it was stored, and its own correlation id is read off that data
by a parser of its own.

## Main definitions

* `onFailed`: what the listener of `failed` hands to the writer
* `deadLetterRecordSchema`: the schema of a record
* `replay`: a record is enqueued again
* `Replays`: a record that is well formed, and whose replay is the job again

## Main results

* `deadLetterRecordSchema_toJson`: a record satisfies its schema
* `correlationIdOf_of_validate`: the id that a record carries is the one of the job
* `replays_of_validate`: **the record of a valid job replays to it**
-/

namespace QueueWorkerKit

open Ecma

/-! ## Records and their schema -/

/-- A number of attempts, as far as the language counts them exactly. -/
structure AttemptCount where
  value : ℕ
  exact : value ≤ Schema.maxSafeInteger

/-- The listener of `failed`: a job that has failed for good goes to the writer. -/
def onFailed (fmt : Formats) (queueName : JsString) (job : FailedJob) (error : JsValue)
    (attemptsMade : AttemptCount) : Option DeadLetterInput :=
  if job.finishedOn.isSome then
    some {
      sourceQueue := queueName
      job
      error
      correlationId := correlationIdOf fmt job.data
      attemptsMade := attemptsMade.value }
  else none

/-- The schema of the error of a record. -/
def storedErrorSchema : Schema :=
  .object [
    (js "name", .string []),
    (js "message", .string []),
    (js "stack", .optional (.string [])),
    (js "code", .optional (.string []))]

def recordFields (fmt : Formats) : List (JsString × Schema) := [
  (js "sourceQueue", .string []),
  (js "sourceJobId", .string []),
  (js "sourceJobName", .string []),
  (js "payload", .unknown),
  (js "failedReason", .string []),
  (js "error", storedErrorSchema),
  (js "attemptsMade", .int),
  (js "correlationId", .string []),
  (js "failedAt", .formatDefault fmt.isoDatetime (js "Invalid ISO datetime"))]

def deadLetterRecordSchema (fmt : Formats) : Schema := .object (recordFields fmt)

variable {fmt : Formats} {h : Heap ErrorClass} {context : EnqueueContext}
  {definition : JobDefinition} {v : Validated}

theorem storedErrorSchema_toJson (e : StoredError) :
    storedErrorSchema (Data.ofJson e.toJson) = .ok (Data.ofJson e.toJson) := by
  obtain ⟨name, message, stack, code⟩ := e
  cases stack <;> cases code <;> rfl

/-- **A record satisfies its schema**, which parses it to itself, when its time is in ISO format and
its number of attempts a safe integer. -/
theorem deadLetterRecordSchema_toJson (record : DeadLetterRecord)
    (htime : fmt.isoDatetime record.failedAt = true)
    (hattempts : record.attemptsMade ≤ Schema.maxSafeInteger) :
    deadLetterRecordSchema fmt (Data.ofJson record.toJson) = .ok (Data.ofJson record.toJson) := by
  obtain ⟨ds, hds, hfields⟩ : ∃ ds, Data.ofJson record.toJson = .obj ds ∧
      Schema.FieldsAccepted (Data.ofJson record.toJson) (recordFields fmt) ds := by
    refine ⟨_, rfl, .cons ⟨rfl, rfl⟩ (.cons ⟨rfl, rfl⟩ (.cons ⟨rfl, rfl⟩ (.cons ⟨rfl, rfl⟩
      (.cons ⟨rfl, rfl⟩ (.cons ⟨rfl, ?_⟩ (.cons ⟨rfl, ?_⟩ (.cons ⟨rfl, rfl⟩
      (.cons ⟨rfl, ?_⟩ .nil))))))))⟩
    · exact storedErrorSchema_toJson record.error
    · exact Schema.int_natCast hattempts
    · exact Schema.formatDefault_ok.mpr ⟨htime, rfl⟩
  -- What is parsed from a text is not absent, so every field is kept.
  have hdefined : ∀ d ∈ ds, d.2.isUndefined = false := by
    obtain rfl := Data.obj.inj hds
    exact Data.isUndefined_of_mem_ofFields
  rw [hds] at hfields ⊢
  exact Schema.object_ok.mpr ⟨ds, Schema.parseFields_of_fieldsAccepted hfields fun d hd =>
    ⟨hdefined d hd, Schema.has_of_mem hd⟩, rfl⟩

/-! ## The correlation id -/

/-- What validation makes of the data of a job: the payload is parsed from that of the data, and the
metadata from its metadata. -/
theorem validate_parts {data : Data} (hdata : validate fmt definition data = .ok v) :
    definition.schema (data.get (js "payload")) = .ok v.payload ∧
      jobMetaSchema fmt (data.get (js "meta")) = .ok v.jobMeta := by
  obtain ⟨shape, payload, hshape, hpayload, rfl⟩ := validate_ok.mp hdata
  cases data with
  | obj props =>
    obtain ⟨ds, hparse, rfl⟩ := Schema.object_ok.mp hshape
    have hget := Schema.get_of_parseFields (by
      show [js "payload", js "meta"].Nodup
      decide) hparse
    have hraw : (Data.obj props).get (js "payload") = (Data.obj ds).get (js "payload") :=
      Except.ok.inj (hget (js "payload", .unknown) (List.mem_cons_self ..))
    refine ⟨hraw ▸ hpayload, ?_⟩
    exact hget (js "meta", jobMetaSchema fmt) (by simp)
  | _ => cases hshape

/-- The correlation id of parsed metadata is a text within the bounds. -/
theorem correlationId_of_jobMetaSchema {jobMeta parsed : Data}
    (hmeta : jobMetaSchema fmt jobMeta = .ok parsed) :
    ∃ id, IdLength id ∧ parsed.get (js "correlationId") = .str id := by
  cases jobMeta with
  | obj props =>
    obtain ⟨ds, hparse, rfl⟩ := Schema.object_ok.mp hmeta
    have hget := Schema.get_of_parseFields (by
      show [js "correlationId", js "enqueuedAt", js "idempotencyKey"].Nodup
      decide) hparse (js "correlationId", .string [.min 1, .max 200]) (List.mem_cons_self ..)
    generalize (Data.obj props).get (js "correlationId") = raw at hget
    cases raw with
    | str id =>
      obtain ⟨hlength, hid⟩ := string_idLength.mp hget
      exact ⟨id, hlength, hid⟩
    | _ => cases hget
  | _ => cases hmeta

/-- **The id that a record carries** is the one that the processor of the job is handed. -/
theorem correlationIdOf_of_validate {data : Json}
    (hdata : validate fmt definition (Data.ofJson data) = .ok v) :
    IdLength (correlationIdOf fmt data) ∧ v.correlationId = .str (correlationIdOf fmt data) := by
  obtain ⟨-, hmeta⟩ := validate_parts hdata
  obtain ⟨id, hlength, hid⟩ := correlationId_of_jobMetaSchema hmeta
  have hof : correlationIdOf fmt data = id := by
    simp only [correlationIdOf, hmeta, hid]
    rfl
  rw [hof]
  exact ⟨hlength, hid⟩

/-! ## The replay -/

/-- The options of a replay: the correlation id of the record, and perhaps a key. -/
def replayOptions (correlationId : JsString) (key : Option JsString) : EnqueueOptions :=
  ⟨none, none, none, some correlationId, key, none⟩

/-- The queue of a definition is none that a record would be refused for. -/
theorem queue_ne_deadLetter (hmem : definition ∈ jobDefinitions fmt) :
    definition.queue.text ≠ QueueName.deadLetter.text := by
  apply QueueName.text_injective.ne
  simp only [jobDefinitions, List.mem_cons, List.not_mem_nil, or_false] at hmem
  rcases hmem with rfl | rfl | rfl <;> intro h <;> cases h

/-- A record is enqueued again, as the guide of operations prescribes: its payload under its name,
with its correlation id, and perhaps under a key. -/
def replay (fmt : Formats) (context : EnqueueContext) (answer : AddCall → QueueAnswer)
    (key : Option JsString) (entry : Data) : Option EnqueueRun :=
  match entry.get (js "sourceJobName"), entry.get (js "correlationId") with
  | .str name, .str correlationId =>
    some (enqueue fmt context answer name ((entry.get (js "payload")).get (js "payload"))
      (replayOptions correlationId key))
  | _, _ => none

/-- An add is for a job with the name, the queue, the parsed payload and the correlation id of
another one; and a worker that takes it hands its processor that payload and that id. -/
structure SameJob (fmt : Formats) (context : EnqueueContext) (definition : JobDefinition)
    (v : Validated) (key : Option JsString) (call : AddCall) : Prop where
  name : call.name = definition.name
  queue : call.queue = definition.queue
  payload : call.data.get (js "payload") = v.payload
  correlationId : (call.data.get (js "meta")).get (js "correlationId") = v.correlationId
  accepted : fmt.isoDatetime (toISOString context.now) = true →
    (∀ id, key = some id → IdLength id) →
    ∃ stored v', call.data.roundTrip = some stored ∧ validate fmt definition stored = .ok v' ∧
      v'.payload = v.payload ∧ v'.correlationId = v.correlationId

/-- A record satisfies its schema, carries the correlation id of the job, and its replay passes the
checks of `enqueue` and leads to one add, which is for the same job. -/
structure Replays (fmt : Formats) (context : EnqueueContext) (answer : AddCall → QueueAnswer)
    (definition : JobDefinition) (v : Validated) (key : Option JsString)
    (record : DeadLetterRecord) : Prop where
  wellFormed : ∃ d, deadLetterRecordSchema fmt (Data.ofJson record.toJson) = .ok d
  correlationId : v.correlationId = .str record.correlationId
  again : ∃ run call, replay fmt context answer key (Data.ofJson record.toJson) = some run ∧
    run.adds = [call] ∧ SameJob fmt context definition v key call

theorem replay_toJson (context : EnqueueContext) (answer : AddCall → QueueAnswer)
    (key : Option JsString) (record : DeadLetterRecord) :
    replay fmt context answer key (Data.ofJson record.toJson) =
      some (enqueue fmt context answer record.sourceJobName
        ((Data.ofJson record.payload).get (js "payload"))
        (replayOptions record.correlationId key)) := rfl

/-- **The replay of a valid payload** passes the checks, and leads to an add for the same job. -/
theorem sameJob_of_validate {data : Json} {name : JsString} {key : Option JsString}
    (hdef : getJobDefinition fmt name = some definition)
    (hdata : validate fmt definition (Data.ofJson data) = .ok v)
    (hqueue : definition.queue ∈ context.queues) :
    ∃ call, prepareAdd fmt context name ((Data.ofJson data).get (js "payload"))
        (replayOptions (correlationIdOf fmt data) key) = .ok call ∧
      SameJob fmt context definition v key call := by
  obtain ⟨hpayload, -⟩ := validate_parts hdata
  obtain ⟨hlength, hid⟩ := correlationIdOf_of_validate hdata
  obtain ⟨hmem, -⟩ := mem_of_getJobDefinition hdef
  obtain ⟨hround, hagain⟩ := stable_schema hmem _ _ hpayload
  have hdefined := Schema.isUndefined_of_roundTrip hround
  generalize hoptions : replayOptions (correlationIdOf fmt data) key = options
  have hdelay : options.delay = none := by rw [← hoptions]; rfl
  have hstamped : (stampMeta context options).correlationId = correlationIdOf fmt data := by
    rw [← hoptions]
    rfl
  have hkey : (stampMeta context options).idempotencyKey = key := by
    rw [← hoptions]
    rfl
  -- The delay is not given, and the queue is registered.
  refine ⟨⟨definition.queue, definition.name, envelope v.payload (stampMeta context options),
    jobOptions definition options⟩, ?_, rfl, rfl, rfl, ?_, fun htime hbounds => ?_⟩
  · simp [prepareAdd, hdef, hpayload, hdelay, hqueue]
  · show Data.str (stampMeta context options).correlationId = _
    rw [hstamped, hid]
  · -- what the producer parsed is accepted again, and the id is within the bounds
    have hvalidate := validate_envelope fmt (stampMeta context options) hagain hdefined htime
    rw [hstamped, hkey] at hvalidate
    refine ⟨_, _, roundTrip_envelope hround (stampMeta context options),
      (hvalidate _).mpr ⟨⟨hlength, hbounds⟩, rfl⟩, rfl, ?_⟩
    show Data.str (stampMeta context options).correlationId = _
    rw [hstamped, hid]

/-- An error with a text for its message, without a cause or with one that is such an error, as far
as causes are followed. -/
def PlainError (h : Heap ErrorClass) : ℕ → JsValue → Prop
  | 0, v => v.instanceOf h .error = .ok true ∧ ∃ s, readProperty h v "message" = .string s
  | n + 1, v => (v.instanceOf h .error = .ok true ∧ ∃ s, readProperty h v "message" = .string s) ∧
      (readProperty h v "cause" = .undefined ∨ PlainError h n (readProperty h v "cause"))

theorem PlainError.reportable {n : ℕ} {error : JsValue} (herror : PlainError h n error) :
    Reportable h n error := by
  induction n generalizing error with
  | zero =>
    obtain ⟨hclass, s, hs⟩ := herror
    refine Or.inl ⟨hclass, ?_⟩
    rw [hs]
    trivial
  | succ n ih =>
    obtain ⟨⟨hclass, s, hs⟩, hcause⟩ := herror
    refine ⟨Or.inl ⟨hclass, ?_⟩, fun _ hne => ih (hcause.resolve_left hne)⟩
    rw [hs]
    trivial

/-- **A dead-letter record replays to the job that failed.** A job of the queue of its definition,
whose data passes the validation of the worker, fails for good. The listener hands it to the writer,
which builds a record of it where the error can be reported; and any record that it builds satisfies
its schema, carries the correlation id of the job, and its replay leads to one add, for the same
job. -/
theorem replays_of_validate (fmt : Formats) (h : Heap ErrorClass) (now finishedOn : TimeValue)
    (context : EnqueueContext) (answer : AddCall → QueueAnswer) (key : Option JsString)
    {definition : JobDefinition} {job : FailedJob} (error : JsValue) (attempts : AttemptCount)
    {v : Validated} (hdef : getJobDefinition fmt job.name = some definition)
    (hdata : validate fmt definition (Data.ofJson job.data) = .ok v)
    (hfinal : job.finishedOn = some finishedOn)
    (htime : fmt.isoDatetime (toISOString finishedOn) = true)
    (hqueue : definition.queue ∈ context.queues) :
    ∃ input, onFailed fmt definition.queue.text job error attempts = some input ∧
      input.sourceQueue ≠ QueueName.deadLetter.text ∧
      (Reportable h errorCauseMaxDepth error → ∃ record, buildRecord h now input = .ok record) ∧
      ∀ record, buildRecord h now input = .ok record →
        Replays fmt context answer definition v key record := by
  have hinput : onFailed fmt definition.queue.text job error attempts = some {
      sourceQueue := definition.queue.text
      job
      error
      correlationId := correlationIdOf fmt job.data
      attemptsMade := attempts.value } := by
    rw [onFailed, hfinal]
    rfl
  refine ⟨_, hinput, queue_ne_deadLetter (mem_of_getJobDefinition hdef).1, fun herror => ?_,
    fun record hrecord => ?_⟩
  · obtain ⟨serialized, hserialized, hcomplete⟩ := complete_iff_reportable.mpr herror
    obtain ⟨message, hmessage⟩ := message_of_complete hcomplete
    exact ⟨_, buildRecord_eq_ok.mpr ⟨serialized, message, hserialized, hmessage, rfl⟩⟩
  · obtain ⟨serialized, message, -, -, rfl⟩ := buildRecord_eq_ok.mp hrecord
    obtain ⟨call, hcall, hsame⟩ := sameJob_of_validate hdef hdata hqueue
    refine ⟨⟨_, deadLetterRecordSchema_toJson _ ?_ attempts.exact⟩,
      (correlationIdOf_of_validate hdata).2,
      ⟨_, call, replay_toJson context answer key _, adds_of_ok hcall, hsame⟩⟩
    show fmt.isoDatetime (toISOString (job.finishedOn.getD now)) = true
    rw [hfinal]
    exact htime

/-! ### An e-mail job -/

/-- An error that a socket was closed. -/
def socketError : JsObject ErrorClass where
  callable := false
  instanceOf c := .ok (c = .error)
  get key := .ok (if key = "message" then .string (js "socket closed") else .undefined)
  toText := .ok (js "Error: socket closed")
  toJson := .ok none

/-- An e-mail job that has failed for good in March 2026, with a key in its metadata. -/
def failedEmail : FailedJob where
  id := some (js "42")
  name := js "email.send"
  data := .obj [
    (js "payload", .obj [(js "to", .str (js "user@example.com")),
      (js "template", .str (js "welcome")), (js "userId", .str (js "user-1"))]),
    (js "meta", .obj [(js "correlationId", .str (js "request-7")),
      (js "enqueuedAt", .str (js "2026-03-03T12:03:04.567Z")),
      (js "idempotencyKey", .str (js "order-7"))])]
  finishedOn := some plainContext.now

theorem replays_of_validate_email : ∃ input record v,
    onFailed featureFormats (js "email") failedEmail (.object 0) ⟨5, by decide⟩ = some input ∧
      buildRecord (fun _ => socketError) .epoch input = .ok record ∧
      Replays featureFormats plainContext (fun _ => .job (some (js "43")))
        (sendEmailJob featureFormats) v (some (js "replay:42")) record := by
  have hdef : getJobDefinition featureFormats failedEmail.name =
      some (sendEmailJob featureFormats) := rfl
  have hfinal : failedEmail.finishedOn = some plainContext.now := rfl
  obtain ⟨v, hdata⟩ : ∃ v, validate featureFormats (sendEmailJob featureFormats)
      (Data.ofJson failedEmail.data) = .ok v := ⟨_, rfl⟩
  obtain ⟨input, hinput, -, hbuilds, hreplays⟩ := replays_of_validate featureFormats
    (fun _ => socketError) .epoch plainContext.now plainContext
    (fun _ => .job (some (js "43"))) (some (js "replay:42")) (.object 0) ⟨5, by decide⟩ hdef hdata
    hfinal (by decide) (by decide)
  have herror : PlainError (fun _ => socketError) errorCauseMaxDepth (.object 0) :=
    ⟨⟨rfl, _, rfl⟩, Or.inl rfl⟩
  obtain ⟨record, hrecord⟩ := hbuilds herror.reportable
  exact ⟨input, record, v, hinput, hrecord, hreplays record hrecord⟩

end QueueWorkerKit
