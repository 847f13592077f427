import QueueWorkerKit.Api.Errors
import QueueWorkerKit.Api.JobsRoutes

/-!
# The answer to an enqueue request

What `api/app.ts` makes of a request to one of the POST routes: the correlation id is echoed, the
body is parsed by the HTTP library and checked against the route's schema, the handler enqueues, and
whatever fails on the way is answered by the error handler. The queue is healthy: it refuses an add
only when the encoded data is beyond the size limit in force, with an ordinary error.

## Main definitions

* `queueAdd`, `JobRoute.submit`: an add on a healthy queue, and what the handler comes to on it
* `postJob`: the answer to a request
* `envelopeBytes`, `EnvelopeFits`: the bytes of an envelope, and the body whose envelope is small
  enough

## Main results

* `byteLength_envelope`: the bytes of an envelope
* `notServerError_of_accepted`: how a request with an accepted body is answered
* `caller_blamed_iff`: **which requests are not answered with a server error**
-/

namespace QueueWorkerKit

open Ecma

/-! ## The pipeline -/

/-- A code unit that a header's value may contain. -/
def isHeaderUnit (u : CodeUnit) : Bool :=
  u == 0x09 || (0x20 ≤ u && u ≤ 0x7E) || (0x80 ≤ u && u ≤ 0xFF)

/-- The echo of the correlation id, which a malformed value would turn into a server error. -/
def echoCorrelationId (id : JsString) : Except ApiError Unit :=
  if id.all isHeaderUnit then .ok ()
  else
    .error (.library (js "TypeError")
      (js "Invalid character in header content [\"x-correlation-id\"]") (some (js "ERR_INVALID_CHAR"))
      none)

/-- An add on a healthy queue, which gives jobs their ids. -/
def queueAdd (env : Env) (newId : AddCall → JsString) (call : AddCall) : Except KitError JsString :=
  match (call.options.overriding (buildDefaultJobOptions env)).sizeLimit, call.data.toJson with
  | some limit, some json =>
    if limit < json.byteLength then
      .error (.plain (js "The size of job " ++ call.name ++ js " exceeds the limit " ++
        decimal limit ++ js " bytes"))
    else .ok (newId call)
  | _, _ => .ok (newId call)

/-- The answer of a healthy queue. -/
def queueAnswer (env : Env) (newId : AddCall → JsString) (call : AddCall) : QueueAnswer :=
  match queueAdd env newId call with
  | .ok id => .job (some id)
  | .error e => .rejected (.kit e)

/-- What the handler of a route comes to on a healthy queue. -/
def JobRoute.submit (fmt : Formats) (env : Env) (newId : AddCall → JsString) (route : JobRoute)
    (request : RequestContext) (body : Data) : Except KitError EnqueueResult :=
  match prepareAdd fmt request.enqueueContext route.jobName (splitEnqueueOptions body).2
      (splitEnqueueOptions body).1 with
  | .error e => .error e
  | .ok call =>
    match queueAdd env newId call with
    | .error e => .error e
    | .ok id => .ok ⟨id, call.name, call.queue, (splitEnqueueOptions body).1.idempotencyKey⟩

/-- A request as it arrives: its headers and the bytes of its body. -/
structure RawRequest where
  headers : List (JsString × HeaderValue)
  body : List UInt8

/-- An answer: accepted, with the result of the call, or an error. -/
inductive Reply
  | accepted (data : EnqueueResult)
  | failed (response : ErrorResponse)

def Reply.statusCode : Reply → ℤ
  | accepted _ => 202
  | failed response => response.statusCode

/-- The answer to a request. The HTTP library parses the body, which may be absent. -/
def postJob (fmt : Formats) (env : Env) (exposeInternals : Bool) (newId : AddCall → JsString)
    (parse : RawRequest → Except ApiError (Option Json)) (route : JobRoute)
    (request : RequestContext) (raw : RawRequest) : Reply :=
  match echoCorrelationId (requestCorrelationId request.incoming request.requestId) with
  | .error e => .failed (buildErrorResponse exposeInternals e)
  | .ok () =>
    match parse raw with
    | .error e => .failed (buildErrorResponse exposeInternals e)
    | .ok json =>
      match route.bodySchema ((json.map Data.ofJson).getD .undefined) with
      | .error issues => .failed (buildErrorResponse exposeInternals (toValidationError issues))
      | .ok body =>
        match route.submit fmt env newId request body with
        | .error e => .failed (buildErrorResponse exposeInternals (.kit e))
        | .ok result => .accepted result

/-- The request was accepted, or the failure is put down to the caller. -/
def Reply.NotServerError (r : Reply) : Prop :=
  r.statusCode = 202 ∨ 400 ≤ r.statusCode ∧ r.statusCode < 500

/-- The bytes of an envelope: those of its payload and of its texts, with keys and punctuation. -/
def envelopeBytes (payload : Json) (m : JobMeta) : ℕ :=
  payload.byteLength + (Json.str m.correlationId).byteLength + (Json.str m.enqueuedAt).byteLength +
    52 + (m.idempotencyKey.map fun key => 18 + (Json.str key).byteLength).getD 0

/-- The envelope of a body is within the size limit of the queues. -/
def EnvelopeFits (request : RequestContext) (body : Data) : Prop :=
  ∀ payload, (splitEnqueueOptions body).2.toJson = some payload →
    envelopeBytes payload (stampMeta request.enqueueContext (splitEnqueueOptions body).1) ≤
      jobPayloadSizeLimitBytes

variable {fmt : Formats} {env : Env} {exposeInternals : Bool} {newId : AddCall → JsString}
  {parse : RawRequest → Except ApiError (Option Json)} {route : JobRoute} {request : RequestContext}
  {raw : RawRequest} {json : Json} {body : Data} {call : AddCall}

/-- The handler's result, on a healthy queue, is that of `enqueue`. -/
theorem result_handle : (route.handle fmt request (queueAnswer env newId) body).result =
    (route.submit fmt env newId request body).mapError Thrown.kit := by
  unfold JobRoute.handle JobRoute.submit enqueue
  cases hprepare : prepareAdd fmt request.enqueueContext route.jobName
      (splitEnqueueOptions body).2 (splitEnqueueOptions body).1 with
  | error e => rfl
  | ok call =>
    simp only [queueAnswer]
    cases queueAdd env newId call <;> rfl

/-! ## The bytes of an envelope -/

/-- **The bytes of an envelope.** -/
theorem byteLength_envelope {payload : Data} (h : payload.toJson = some json) (m : JobMeta) :
    ∃ encoded, (envelope payload m).toJson = some encoded ∧
      encoded.byteLength = envelopeBytes json m := by
  have h1 : (encodeUnits (js "payload")).length = 7 := by decide
  have h2 : (encodeUnits (js "meta")).length = 4 := by decide
  have h3 : (encodeUnits (js "correlationId")).length = 13 := by decide
  have h4 : (encodeUnits (js "enqueuedAt")).length = 10 := by decide
  have h5 : (encodeUnits (js "idempotencyKey")).length = 14 := by decide
  obtain ⟨correlationId, enqueuedAt, key⟩ := m
  cases key with
  | none =>
    refine ⟨.obj [(js "payload", json), (js "meta", .obj [(js "correlationId", .str correlationId),
      (js "enqueuedAt", .str enqueuedAt)])], ?_, ?_⟩
    · simp [envelope, JobMeta.toData, Data.toJson, Data.fieldsToJson, h]
    · simp only [envelopeBytes, Json.byteLength_obj, Json.fieldsLength_cons_cons,
        Json.fieldsLength_singleton, h1, h2, h3, h4, Option.map_none, Option.getD_none]
      omega
  | some key =>
    refine ⟨.obj [(js "payload", json), (js "meta", .obj [(js "correlationId", .str correlationId),
      (js "enqueuedAt", .str enqueuedAt), (js "idempotencyKey", .str key)])], ?_, ?_⟩
    · simp [envelope, JobMeta.toData, Data.toJson, Data.fieldsToJson, h]
    · simp only [envelopeBytes, Json.byteLength_obj, Json.fieldsLength_cons_cons,
        Json.fieldsLength_singleton, h1, h2, h3, h4, h5, Option.map_some, Option.getD_some]
      omega

/-- A healthy queue refuses data beyond the limit of every queue, and no other. -/
theorem queueAdd_cases (hlimit : call.options.sizeLimit = none) (hdata : call.data.toJson = some json) :
    (json.byteLength ≤ jobPayloadSizeLimitBytes ∧ queueAdd env newId call = .ok (newId call)) ∨
      (jobPayloadSizeLimitBytes < json.byteLength ∧
        ∃ message, queueAdd env newId call = .error (.plain message)) := by
  have hinherit : (call.options.overriding (buildDefaultJobOptions env)).sizeLimit =
      some jobPayloadSizeLimitBytes := by
    simp [JobsOptions.overriding, buildDefaultJobOptions, hlimit]
  unfold queueAdd
  rw [hinherit, hdata]
  by_cases h : jobPayloadSizeLimitBytes < json.byteLength
  · exact Or.inr ⟨h, _, if_pos h⟩
  · exact Or.inl ⟨by omega, if_neg h⟩

/-! ## Requests and their answers -/

/-- **A request with an accepted body** is accepted when its envelope is small enough, and is
answered with a server error otherwise. -/
theorem submit_cases (hroute : route ∈ postRoutes fmt)
    (hbody : route.bodySchema (Data.ofJson json) = .ok body) :
    (EnvelopeFits request body ∧ ∃ result, route.submit fmt env newId request body = .ok result) ∨
      (¬ EnvelopeFits request body ∧
        ∃ message, route.submit fmt env newId request body = .error (.plain message)) := by
  obtain ⟨definition, xs, o, hdefinition, ho, hxs, rfl, hagain⟩ := bodySchema_ok hroute hbody
  have hsplit := splitEnqueueOptions_append ho hxs
  have hcall := prepareAdd_eq_ok request hdefinition hagain ho
  obtain ⟨payload, hpayload⟩ : ∃ payload, (Data.obj xs).toJson = some payload := ⟨_, rfl⟩
  obtain ⟨encoded, hencoded, hbytes⟩ := byteLength_envelope hpayload
    (stampMeta request.enqueueContext o)
  have hfits : EnvelopeFits request (.obj (xs ++ o.fields)) ↔
      encoded.byteLength ≤ jobPayloadSizeLimitBytes := by
    rw [EnvelopeFits, hsplit, hbytes, hpayload]
    simp
  -- the options of the add leave the limit to the queue
  obtain ⟨call, hprepare, hlimit, hdata⟩ : ∃ call,
      prepareAdd fmt request.enqueueContext route.jobName (Data.obj xs) o = .ok call ∧
        call.options.sizeLimit = none ∧ call.data.toJson = some encoded := ⟨_, hcall, rfl, hencoded⟩
  rw [hfits]
  unfold JobRoute.submit
  rw [hsplit]
  simp only [hprepare]
  rcases queueAdd_cases hlimit hdata with ⟨hle, hadd⟩ | ⟨hlt, message, hadd⟩
  · exact Or.inl ⟨hle, _, by rw [hadd]⟩
  · exact Or.inr ⟨by omega, message, by rw [hadd]⟩

/-- A body that is absent is refused. -/
theorem bodySchema_undefined (hroute : route ∈ postRoutes fmt) :
    route.bodySchema .undefined ≠ .ok body := by
  obtain ⟨shape, definition, hschema, -⟩ := definition_of_route hroute
  rw [hschema]
  intro h
  obtain ⟨props, ds, hprops, -⟩ := Schema.strictObject_ok h
  cases hprops

/-- Echoing the correlation id never fails. -/
theorem echoCorrelationId_ok (request : RequestContext) :
    echoCorrelationId (requestCorrelationId request.incoming request.requestId) = .ok () := by
  have hsafe := isSafe_requestCorrelationId request.incoming request.requestId
  simp only [isSafeCorrelationId, Bool.and_eq_true, List.all_eq_true] at hsafe
  have hheader : ∀ u, isSafeUnit u = true → isHeaderUnit u = true := by
    intro u hu
    simp only [isSafeUnit, isDigit, isHeaderUnit, Bool.or_eq_true, Bool.and_eq_true,
      decide_eq_true_eq, beq_iff_eq, UInt16.le_iff_toNat_le, ← UInt16.toNat_inj] at hu ⊢
    simp only [UInt16.reduceToNat] at hu ⊢
    omega
  unfold echoCorrelationId
  rw [if_pos (List.all_eq_true.mpr fun u hu => hheader u (hsafe.2 u hu))]

/-- The answer to a request with an accepted body. -/
theorem postJob_of_accepted (hparse : parse raw = .ok (some json))
    (hbody : route.bodySchema (Data.ofJson json) = .ok body) :
    postJob fmt env exposeInternals newId parse route request raw =
      match route.submit fmt env newId request body with
      | .error e => .failed (buildErrorResponse exposeInternals (.kit e))
      | .ok result => .accepted result := by
  unfold postJob
  rw [echoCorrelationId_ok]
  simp only [hparse, Option.map_some, Option.getD_some, hbody]

/-- **How a request with an accepted body is answered**: it is no server error exactly when its
envelope is small enough. -/
theorem notServerError_of_accepted (hroute : route ∈ postRoutes fmt)
    (hparse : parse raw = .ok (some json))
    (hbody : route.bodySchema (Data.ofJson json) = .ok body) :
    (postJob fmt env exposeInternals newId parse route request raw).NotServerError ↔
      EnvelopeFits request body := by
  rw [postJob_of_accepted hparse hbody]
  rcases submit_cases hroute hbody with ⟨hfits, result, hresult⟩ | ⟨hnot, message, herror⟩
  · rw [hresult]
    exact iff_of_true (Or.inl rfl) hfits
  · -- the queue's error is an ordinary one, so it is answered as an internal error
    rw [herror]
    refine iff_of_false ?_ hnot
    rintro (hstatus | hstatus)
    · cases hstatus
    · exact not_isClientError_internalError exposeInternals _ _ hstatus

/-- **Which requests are not answered with a server error.** For every route, every request and
every way the HTTP library parses bodies whose errors blame the caller: a request is accepted or its
failure put down to the caller exactly when its body fails to parse, is refused by the schema, or
has an envelope within the size limit of the queues. -/
theorem caller_blamed_iff (hroute : route ∈ postRoutes fmt)
    (hparse : ∀ raw e, parse raw = .error e → e.BlamesCaller) :
    (postJob fmt env exposeInternals newId parse route request raw).NotServerError ↔
      ∀ json body, parse raw = .ok (some json) → route.bodySchema (Data.ofJson json) = .ok body →
        EnvelopeFits request body := by
  -- The body fails to parse, is refused by the schema, or goes to the queue.
  cases hparsed : parse raw with
  | error e =>
    have hanswer : postJob fmt env exposeInternals newId parse route request raw =
        .failed (buildErrorResponse exposeInternals e) := by
      unfold postJob
      rw [echoCorrelationId_ok]
      simp only [hparsed]
    rw [hanswer]
    refine iff_of_true (Or.inr (isClientError_library (hparse raw e hparsed))) ?_
    intro json body h
    cases h
  | ok parsed =>
    cases hschema : route.bodySchema ((parsed.map Data.ofJson).getD .undefined) with
    | error issues =>
      have hanswer : postJob fmt env exposeInternals newId parse route request raw =
          .failed (buildErrorResponse exposeInternals (toValidationError issues)) := by
        unfold postJob
        rw [echoCorrelationId_ok]
        simp only [hparsed, hschema]
      rw [hanswer]
      refine iff_of_true (Or.inr (isClientError_validation issues)) ?_
      rintro json body ⟨⟩ hbody
      cases hschema.symm.trans hbody
    | ok body =>
      -- no schema accepts an absent body
      cases parsed with
      | none => exact absurd hschema (bodySchema_undefined hroute)
      | some json =>
        rw [notServerError_of_accepted hroute hparsed hschema]
        constructor
        · rintro hfits json' body' ⟨⟩ hbody'
          rwa [← Except.ok.inj (hschema.symm.trans hbody')]
        · exact fun h => h json body rfl hschema

/-! ### An e-mail request -/

/-- An e-mail request to an address. -/
def emailRequest (address : JsString) : Json :=
  .obj [(js "to", .str address), (js "template", .str (js "welcome")), (js "userId", .str (js "user-1"))]

/-- A request whose body is the text of some JSON. -/
def rawJson (json : Json) : RawRequest where
  headers := [(js "content-type", .text (js "application/json"))]
  body := json.encode

/-- Parsing that knows one body, and refuses the others as malformed. -/
def parseOnly (json : Json) (raw : RawRequest) : Except ApiError (Option Json) :=
  if raw.body = json.encode then .ok (some json)
  else
    .error (.library (js "SyntaxError")
      (js "Body is not valid JSON but content-type is set to 'application/json'")
      (some (js "FST_ERR_CTP_INVALID_JSON_BODY")) (some (.ofNat 400)))

theorem parseOnly_blamesCaller (json : Json) (raw : RawRequest) (e : ApiError)
    (h : parseOnly json raw = .error e) : e.BlamesCaller := by
  unfold parseOnly at h
  split_ifs at h
  obtain rfl := Except.error.inj h
  exact Or.inr ⟨400, rfl, by decide, by decide⟩

/-- The schema of the e-mail route accepts every address that its format accepts. -/
theorem bodySchema_emailRequest {address : JsString} (h : fmt.email address = true) :
    (emailRoute fmt).bodySchema (Data.ofJson (emailRequest address)) =
      .ok (Data.ofJson (emailRequest address)) := by
  have hparse : Schema.parseFields (Data.ofJson (emailRequest address))
      (sendEmailPayloadShape fmt ++ enqueueOptionsShape) = .ok [(js "to", .str address),
        (js "template", .str (js "welcome")), (js "userId", .str (js "user-1"))] := by
    exact Schema.parseFields_cons_ok.mpr
      ⟨.str address, _, Schema.format_ok.mpr ⟨h, rfl⟩, Or.inl rfl, rfl, rfl⟩
  have hkeys : [js "to", js "template", js "userId"] ⊆
      [js "to", js "template", js "userId", js "correlationId", js "delay", js "idempotencyKey"] := by
    decide
  exact Schema.strictObject_eq_ok hparse hkeys

/-- An address of 17012 code units. -/
def longAddress : JsString := List.replicate 17000 0x61 ++ js "@example.com"

/-- The bytes of an e-mail request. -/
theorem byteLength_emailRequest (address : JsString) :
    (emailRequest address).byteLength = (encodeUnits address).length + 48 := by
  have h1 : (encodeUnits (js "to")).length = 2 := by decide
  have h2 : (encodeUnits (js "template")).length = 8 := by decide
  have h3 : (encodeUnits (js "userId")).length = 6 := by decide
  have h4 : (encodeUnits (js "welcome")).length = 7 := by decide
  have h5 : (encodeUnits (js "user-1")).length = 6 := by decide
  simp only [emailRequest, Json.byteLength_obj, Json.fieldsLength_cons_cons,
    Json.fieldsLength_singleton, Json.byteLength_str, h1, h2, h3, h4, h5]
  omega

/-- An e-mail request is payload throughout. -/
theorem payload_emailRequest (address : JsString) :
    (splitEnqueueOptions (Data.ofJson (emailRequest address))).2.toJson =
      some (emailRequest address) := rfl

/-- A payload that is beyond the limit leaves no room for its envelope. -/
theorem not_envelopeFits_of_payload {address : JsString}
    (h : jobPayloadSizeLimitBytes < (emailRequest address).byteLength) :
    ¬ EnvelopeFits request (Data.ofJson (emailRequest address)) := by
  intro hfits
  have hle := hfits _ (payload_emailRequest address)
  unfold envelopeBytes at hle
  omega

theorem length_encodeUnits_longAddress : (encodeUnits longAddress).length = 17012 := by
  have h1 : (encodeUnit 0x61).length = 1 := by decide
  have h2 : (encodeUnits (js "@example.com")).length = 12 := by decide
  rw [longAddress, length_encodeUnits_replicate_append (by decide), h1, h2]

theorem email_featureFormats {s : JsString} (h : (0x40 : CodeUnit) ∈ s) :
    featureFormats.email s = true := decide_eq_true h

theorem mem_longAddress : (0x40 : CodeUnit) ∈ longAddress := by
  unfold longAddress
  exact List.mem_append_right _ (by decide)

/-- The route, the library and a short address: the request is accepted. -/
theorem caller_blamed_iff_short :
    (postJob featureFormats .default false (fun _ => js "1")
        (parseOnly (emailRequest (js "user@example.com"))) (emailRoute featureFormats) tracedRequest
        (rawJson (emailRequest (js "user@example.com")))).NotServerError ∧
      ∀ json body, parseOnly (emailRequest (js "user@example.com"))
          (rawJson (emailRequest (js "user@example.com"))) = .ok (some json) →
        (emailRoute featureFormats).bodySchema (Data.ofJson json) = .ok body →
          EnvelopeFits tracedRequest body := by
  have haccepted : (postJob featureFormats .default false (fun _ => js "1")
      (parseOnly (emailRequest (js "user@example.com"))) (emailRoute featureFormats) tracedRequest
      (rawJson (emailRequest (js "user@example.com")))).NotServerError := Or.inl (by decide +kernel)
  exact ⟨haccepted, (caller_blamed_iff (by simp [postRoutes]) (parseOnly_blamesCaller _)).mp haccepted⟩

/-- **A long address is a server error**: a body within the limit of the HTTP server, which the
schema of the route accepts, is not put down to the caller. -/
theorem long_address_is_server_error :
    (rawJson (emailRequest longAddress)).body.length ≤ httpBodyLimitBytes ∧
      ¬ (postJob featureFormats .default false (fun _ => js "1") (parseOnly (emailRequest longAddress))
        (emailRoute featureFormats) tracedRequest
          (rawJson (emailRequest longAddress))).NotServerError := by
  have hbytes : (emailRequest longAddress).byteLength = 17060 := by
    rw [byteLength_emailRequest, length_encodeUnits_longAddress]
  have hemail : featureFormats.email longAddress = true := email_featureFormats mem_longAddress
  have hbody := bodySchema_emailRequest hemail
  have hparse : parseOnly (emailRequest longAddress) (rawJson (emailRequest longAddress)) =
      .ok (some (emailRequest longAddress)) := if_pos rfl
  constructor
  · show (emailRequest longAddress).byteLength ≤ _
    rw [hbytes]
    decide
  · rw [notServerError_of_accepted (by simp [postRoutes]) hparse hbody]
    apply not_envelopeFits_of_payload
    rw [hbytes]
    decide

end QueueWorkerKit
