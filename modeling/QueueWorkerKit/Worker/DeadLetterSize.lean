import QueueWorkerKit.Queue.Enqueue
import QueueWorkerKit.Worker.DeadLetterRecord

/-!
# The size of dead-letter records

The record of a failure is added to a queue that was created like any other, so it inherits the
size limit that the data of the failed job was checked against. It holds that data whole, and the
texts of the error beside it, of which the stack is cut by lines and the message by code units,
none of them by bytes.

## Main definitions

* `DeadLetterRecord.toJson`, `deadLetterAddOptions`: the data and the options of the add
* `Recordable`: the record of a failure can be built and is within the limit
* `recordOverhead`: the bytes that a record takes beside the data of the job

## Main results

* `byteLength_toJson`: the bytes of a record
* `recordable_iff`: **which failures can be recorded**
-/

namespace QueueWorkerKit

open Ecma

/-- The error of a record as JSON, without the keys of absent texts. -/
def StoredError.toJson (e : StoredError) : Json :=
  .obj ([(js "name", .str e.name), (js "message", .str e.message)] ++
    (e.stack.map fun stack => (js "stack", Json.str stack)).toList ++
    (e.code.map fun code => (js "code", Json.str code)).toList)

/-- A record as JSON, with its keys in the order `write` builds them. -/
def DeadLetterRecord.toJson (record : DeadLetterRecord) : Json :=
  .obj [
    (js "sourceQueue", .str record.sourceQueue),
    (js "sourceJobId", .str record.sourceJobId),
    (js "sourceJobName", .str record.sourceJobName),
    (js "payload", record.payload),
    (js "failedReason", .str record.failedReason),
    (js "error", record.error.toJson),
    (js "attemptsMade", .num record.attemptsMade (decimal record.attemptsMade)),
    (js "correlationId", .str record.correlationId),
    (js "failedAt", .str record.failedAt)]

/-- The options of the add of a record. They set no size limit. -/
def deadLetterAddOptions (f : TerminalFailure) : JobsOptions :=
  { JobsOptions.empty with
    jobId := some (deadLetterJobId f)
    attempts := some (.ofNat 1)
    removeOnComplete := some .never
    removeOnFail := some .never }

/-- The record of a failure can be built, and the dead-letter queue accepts its size. -/
def Recordable (env : Env) (h : Heap ErrorClass) (now : TimeValue) (input : DeadLetterInput) :
    Prop :=
  ∃ record, buildRecord h now input = .ok record ∧
    FitsSizeLimit ((deadLetterAddOptions input.failure).overriding (buildDefaultJobOptions env))
      record.toJson

/-! ## The bytes of a record -/

/-- The bytes of a text between its quotation marks. -/
def textBytes (s : JsString) : ℕ := (encodeUnits s).length

/-- The bytes of an optional text under a key, with the quotation marks and the comma. -/
def optionalBytes (key : JsString) (s : Option JsString) : ℕ :=
  (s.map fun s => textBytes key + 6 + textBytes s).getD 0

/-- The bytes of a record beside those of the job's data: its keys and punctuation, and its texts
as far as they are kept. -/
def recordOverhead (now : TimeValue) (input : DeadLetterInput) (serialized : SerializedError)
    (message : JsString) : ℕ :=
  165 + textBytes input.sourceQueue + textBytes input.sourceJobId + textBytes input.job.name +
    textBytes (summary serialized.name message deadLetterReasonMaxChars) +
    textBytes serialized.name + textBytes (message.take deadLetterReasonMaxChars) +
    optionalBytes (js "stack") serialized.stack + optionalBytes (js "code") serialized.code +
    (decimal input.attemptsMade).length + textBytes input.correlationId +
    textBytes (toISOString (input.job.finishedOn.getD now))

theorem byteLength_str_eq (s : JsString) : (Json.str s).byteLength = textBytes s + 2 :=
  Json.byteLength_str s

/-- The bytes of the error of a record. -/
theorem StoredError.byteLength_toJson (e : StoredError) :
    e.toJson.byteLength = 24 + textBytes e.name + textBytes e.message +
      optionalBytes (js "stack") e.stack + optionalBytes (js "code") e.code := by
  obtain ⟨name, message, stack, code⟩ := e
  have hname : (encodeUnits (js "name")).length = 4 := by decide
  have hmessage : (encodeUnits (js "message")).length = 7 := by decide
  have hstack : (encodeUnits (js "stack")).length = 5 := by decide
  have hcode : (encodeUnits (js "code")).length = 4 := by decide
  cases stack <;> cases code <;>
    simp only [toJson, optionalBytes, textBytes, Option.map_some, Option.map_none,
      Option.toList_some, Option.toList_none, Option.getD_some, Option.getD_none, List.append_nil,
      List.cons_append, List.nil_append, Json.byteLength_obj, Json.fieldsLength_cons_cons,
      Json.fieldsLength_singleton, Json.byteLength_str, hname, hmessage, hstack, hcode] <;>
    omega

/-- **The bytes of a record.** It takes those of the job's data, and those of its texts. -/
theorem byteLength_toJson {h : Heap ErrorClass} {now : TimeValue} {input : DeadLetterInput}
    {record : DeadLetterRecord} {serialized : SerializedError} {message : JsString}
    (hrecord : buildRecord h now input = .ok record)
    (hserialized : serializeError h input.error 0 = .ok serialized)
    (hmessage : serialized.message = some message) :
    record.toJson.byteLength =
      input.job.data.byteLength + recordOverhead now input serialized message := by
  obtain ⟨_, _, hserialized', hmessage', rfl⟩ := buildRecord_eq_ok.mp hrecord
  obtain rfl := Except.ok.inj (hserialized.symm.trans hserialized')
  obtain rfl := Option.some.inj (hmessage.symm.trans hmessage')
  have h1 : (encodeUnits (js "sourceQueue")).length = 11 := by decide
  have h2 : (encodeUnits (js "sourceJobId")).length = 11 := by decide
  have h3 : (encodeUnits (js "sourceJobName")).length = 13 := by decide
  have h4 : (encodeUnits (js "payload")).length = 7 := by decide
  have h5 : (encodeUnits (js "failedReason")).length = 12 := by decide
  have h6 : (encodeUnits (js "error")).length = 5 := by decide
  have h7 : (encodeUnits (js "attemptsMade")).length = 12 := by decide
  have h8 : (encodeUnits (js "correlationId")).length = 13 := by decide
  have h9 : (encodeUnits (js "failedAt")).length = 8 := by decide
  simp only [DeadLetterRecord.toJson, Json.byteLength_obj, Json.fieldsLength_cons_cons,
    Json.fieldsLength_singleton, byteLength_str_eq, Json.byteLength_num,
    StoredError.byteLength_toJson, h1, h2, h3, h4, h5, h6, h7, h8, h9, recordOverhead]
  omega

/-- **Which failures can be recorded.** The projection of the error has a message, and the data of
the job leaves as many bytes of the limit as the record takes beside it. -/
theorem recordable_iff (env : Env) (h : Heap ErrorClass) (now : TimeValue)
    (input : DeadLetterInput) :
    Recordable env h now input ↔
      ∃ serialized message, serializeError h input.error 0 = .ok serialized ∧
        serialized.message = some message ∧
        input.job.data.byteLength + recordOverhead now input serialized message ≤
          jobPayloadSizeLimitBytes := by
  have hlimit : ∀ record : DeadLetterRecord,
      FitsSizeLimit ((deadLetterAddOptions input.failure).overriding (buildDefaultJobOptions env))
          record.toJson ↔ record.toJson.byteLength ≤ jobPayloadSizeLimitBytes :=
    fun record => fitsSizeLimit_over_defaults rfl env record.toJson
  constructor
  · rintro ⟨record, hrecord, hfits⟩
    obtain ⟨serialized, message, hserialized, hmessage, -⟩ := buildRecord_eq_ok.mp hrecord
    refine ⟨serialized, message, hserialized, hmessage, ?_⟩
    rw [← byteLength_toJson hrecord hserialized hmessage]
    exact (hlimit record).mp hfits
  · rintro ⟨serialized, message, hserialized, hmessage, hle⟩
    obtain ⟨record, hrecord⟩ : ∃ record, buildRecord h now input = .ok record :=
      ⟨_, buildRecord_eq_ok.mpr ⟨serialized, message, hserialized, hmessage, rfl⟩⟩
    refine ⟨record, hrecord, (hlimit record).mpr ?_⟩
    rw [byteLength_toJson hrecord hserialized hmessage]
    exact hle

/-- Data that leaves fewer bytes than the keys and the punctuation of a record take cannot be
recorded, whatever the job failed with. -/
theorem not_recordable_of_data {env : Env} {h : Heap ErrorClass} {now : TimeValue}
    {input : DeadLetterInput} (hdata : jobPayloadSizeLimitBytes < input.job.data.byteLength + 165) :
    ¬ Recordable env h now input := by
  rw [recordable_iff]
  rintro ⟨serialized, message, -, -, hle⟩
  unfold recordOverhead at hle
  omega

/-! ### An error with a long message -/

/-- An ordinary error: an instance of `Error` alone, with a message and a stack. -/
def plainError (message stack : JsString) : JsObject ErrorClass where
  callable := false
  instanceOf c := .ok (c = .error)
  get key := .ok <|
    if key = "name" then .string (js "Error")
    else if key = "message" then .string message
    else if key = "stack" then .string stack
    else .undefined
  toText := .ok (js "Error: " ++ message)
  toJson := .ok (some (js "\x7b\x7d"))

/-- The stack of an error created in a function of a file: its message, and one frame. -/
def stackOf (message : JsString) : JsString :=
  js "Error: " ++ message ++ 0x0A :: js "    at send (handler.js:7:11)"

theorem serializeError_plainError (message : JsString) :
    serializeError (fun _ => plainError message (stackOf message)) (.object 0) 0 =
      .ok (.mk (js "Error") (some message) (some (truncateStack (stackOf message))) none none) := by
  have hname : 0 < (js "Error").length := by decide
  have hstack : 0 < (stackOf message).length := by
    rw [stackOf, List.length_append, List.length_cons]
    omega
  simp [serializeError, serializeErrorFrom, plainError, JsValue.instanceOf, readProperty,
    JsValue.property, errorName, errorMessage, errorStack, readCode, hname, hstack, bind,
    Except.bind, pure, Except.pure, errorCauseMaxDepth]

/-- A message without a line break leaves its stack as it is, however long it is. -/
theorem truncateStack_stackOf {message : JsString} (h : (0x0A : CodeUnit) ∉ message) :
    truncateStack (stackOf message) = stackOf message := by
  have hfirst : (0x0A : CodeUnit) ∉ js "Error: " ++ message := by
    rw [List.mem_append, not_or]
    exact ⟨by decide, h⟩
  have hframe : (0x0A : CodeUnit) ∉ js "    at send (handler.js:7:11)" := by decide
  have hlines : (Ecma.lines (stackOf message)).length = 2 := by
    rw [stackOf, lines_append_cons hfirst, lines_of_notMem hframe]
    rfl
  rw [truncateStack, hlines]
  rfl

/-- The e-mail job after its last attempt, failed with the object under the first reference. -/
def emailFailure (data : Json) : DeadLetterInput where
  sourceQueue := js "email"
  job := ⟨some (js "7"), js "email.send", data, none⟩
  error := .object 0
  correlationId := js "request-7"
  attemptsMade := 5

/-- A message as long as the limit, without a line break, cannot be recorded. -/
theorem not_recordable_of_length_message {env : Env} {now : TimeValue} {data : Json}
    {message : JsString} (hline : (0x0A : CodeUnit) ∉ message)
    (hlength : jobPayloadSizeLimitBytes ≤ message.length) :
    ¬ Recordable env (fun _ => plainError message (stackOf message)) now (emailFailure data) := by
  rw [recordable_iff]
  rintro ⟨serialized, text, hserialized, -, hle⟩
  have hser := serializeError_plainError message
  rw [truncateStack_stackOf hline] at hser
  obtain rfl := Except.ok.inj (hser.symm.trans hserialized)
  -- the stack repeats the message, and takes a byte for each of its code units
  have hstack : message.length ≤ textBytes (stackOf message) := by
    have hbytes := length_le_length_encodeUnits (stackOf message)
    have hlonger : message.length ≤ (stackOf message).length := by
      simp only [stackOf, List.length_append]
      omega
    exact Nat.le_trans hlonger hbytes
  simp only [recordOverhead, SerializedError.stack, optionalBytes, Option.map_some,
    Option.getD_some] at hle
  omega

/-- **A small job that fails with a long message cannot be recorded.** -/
theorem long_message_not_recordable :
    ∃ call data message, prepareAdd featureFormats plainContext (js "email.send") emailPayload
          (withCorrelationId (js "request-7")) = .ok call ∧ call.data.toJson = some data ∧
        FitsSizeLimit (call.options.overriding (buildDefaultJobOptions .default)) data ∧
        ¬ Recordable .default (fun _ => plainError message (stackOf message)) plainContext.now
          (emailFailure data) := by
  obtain ⟨call, data, hcall, hdata, hoptions, hlength⟩ : ∃ call data,
      prepareAdd featureFormats plainContext (js "email.send") emailPayload
          (withCorrelationId (js "request-7")) = .ok call ∧ call.data.toJson = some data ∧
        call.options.sizeLimit = none ∧ data.byteLength ≤ jobPayloadSizeLimitBytes :=
    ⟨_, _, rfl, rfl, rfl, by decide +kernel⟩
  refine ⟨call, data, List.replicate jobPayloadSizeLimitBytes 0x61, hcall, hdata,
    (fitsSizeLimit_over_defaults hoptions .default data).mpr hlength,
    not_recordable_of_length_message ?_ (Nat.le_of_eq List.length_replicate.symm)⟩
  intro hmem
  exact absurd (List.eq_of_mem_replicate hmem) (by decide)

end QueueWorkerKit
