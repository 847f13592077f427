import Mathlib.Data.Rat.Cast.Order
import QueueWorkerKit.Queue.Enqueue

/-!
# The enqueue routes

The three POST routes of `api/routes/jobs.routes.ts` and the correlation hook of `api/app.ts`. A
body is checked against a strict schema that merges the payload's shape with that of the transport
options; the handler splits the two again and enqueues the payload, with the correlation id of the
request in its surroundings.

## Main definitions

* `enqueueOptionsShape`, `JobRoute`, `postRoutes`: the merged request schemas and their routes
* `requestCorrelationId`: the correlation id of a request
* `splitEnqueueOptions`, `JobRoute.handle`: the split of a body, and the handler

## Main results

* `isSafe_requestCorrelationId`: every request is handled with a safe correlation id
* `parseFields_enqueueOptions`: what the schema of the options accepts
* `splitEnqueueOptions_append`: the split takes apart what the schema put together
* `producers_agree`: **the route, the enqueuer and the worker agree on every accepted body**
-/

namespace QueueWorkerKit

open Ecma

/-! ## Request schemas -/

/-- The fields of `enqueueOptionsSchema`. -/
def enqueueOptionsShape : List (JsString × Schema) := [
  (js "correlationId", .optional (.string [.min 1, .max 200])),
  (js "delay", .optional (.safeInteger 0 maxEnqueueDelayMs)),
  (js "idempotencyKey", .optional (.string [.min 1, .max 200]))]

/-- The fields of `sendEmailPayloadSchema`. -/
def sendEmailPayloadShape (fmt : Formats) : List (JsString × Schema) := [
  (js "to", .format fmt.email (js "must be a valid email address")),
  (js "template", .string [.min 1, .max 64, .text isSlug (js "must be a lowercase slug")]),
  (js "userId", .string [.min 1, .max 64])]

/-- The fields of `generateReportPayloadSchema`. -/
def generateReportPayloadShape : List (JsString × Schema) := [
  (js "reportId", .string [.min 1, .max 64]),
  (js "requestedBy", .string [.min 1, .max 128]),
  (js "format", .enum [js "csv", js "json"])]

/-- The fields of `cleanupPayloadSchema`. -/
def cleanupPayloadShape (fmt : Formats) : List (JsString × Schema) := [
  (js "before", .format fmt.isoDatetime (js "must be an ISO-8601 date-time string")),
  (js "dryRun", .boolean)]

/-- A payload's shape extended by that of the options, and no other field. -/
def requestSchema (shape : List (JsString × Schema)) : Schema :=
  .strictObject (shape ++ enqueueOptionsShape)

def emailRequestSchema (fmt : Formats) : Schema := requestSchema (sendEmailPayloadShape fmt)

def reportRequestSchema : Schema := requestSchema generateReportPayloadShape

def cleanupRequestSchema (fmt : Formats) : Schema := requestSchema (cleanupPayloadShape fmt)

/-- A route: its path, the schema of its body and the name of the job it enqueues. -/
structure JobRoute where
  path : JsString
  bodySchema : Schema
  jobName : JsString

def emailRoute (fmt : Formats) : JobRoute :=
  ⟨js "/jobs/email", emailRequestSchema fmt, js "email.send"⟩

def reportRoute : JobRoute := ⟨js "/jobs/report", reportRequestSchema, js "report.generate"⟩

def cleanupRoute (fmt : Formats) : JobRoute :=
  ⟨js "/jobs/cleanup", cleanupRequestSchema fmt, js "maintenance.cleanup"⟩

def postRoutes (fmt : Formats) : List JobRoute := [emailRoute fmt, reportRoute, cleanupRoute fmt]

/-! ## Correlation ids -/

/-- The value of a request header: absent, one text, or several. -/
inductive HeaderValue
  | absent
  | text (s : JsString)
  | list (values : List JsString)

/-- A letter, a digit, or one of `.`, `_`, `:` and `-`. -/
def isSafeUnit (u : CodeUnit) : Bool :=
  (0x41 ≤ u && u ≤ 0x5A) || (0x61 ≤ u && u ≤ 0x7A) || isDigit u || u == 0x2E || u == 0x5F ||
    u == 0x3A || u == 0x2D

/-- The pattern `SAFE_CORRELATION_ID`. -/
def isSafeCorrelationId (s : JsString) : Bool :=
  1 ≤ s.length && s.length ≤ 200 && s.all isSafeUnit

/-- A generated request id: a UUID, written with hexadecimal digits and dashes. -/
structure RequestId extends Uuid where
  safe : text.all isSafeUnit = true

/-- The correlation id that a request is handled with. -/
def requestCorrelationId (incoming : HeaderValue) (requestId : RequestId) : JsString :=
  match incoming with
  | .text s => if isSafeCorrelationId s then s else requestId.text
  | _ => requestId.text

/-! ## The handler -/

/-- The fields of a body that are options of the transport. -/
def optionKeys : List JsString := [js "correlationId", js "delay", js "idempotencyKey"]

/-- Splits transport options off a request body, leaving the job payload. -/
def splitEnqueueOptions (body : Data) : EnqueueOptions × Data :=
  ({ delay := (body.get (js "delay")).number?
     priority := none
     attempts := none
     correlationId := (body.get (js "correlationId")).string?
     idempotencyKey := (body.get (js "idempotencyKey")).string?
     idempotencyTtlMs := none },
    body.without optionKeys)

/-- What a request brings besides its body: the correlation header, the generated id, the id the
enqueuer would mint, and the time. -/
structure RequestContext where
  incoming : HeaderValue
  requestId : RequestId
  fresh : Uuid
  now : TimeValue

/-- The surroundings of a call of `enqueue` by a handler: every queue is registered, and the
correlation id of the request is ambient. -/
def RequestContext.enqueueContext (request : RequestContext) : EnqueueContext where
  queues := allQueueNames
  ambient := some (requestCorrelationId request.incoming request.requestId)
  fresh := request.fresh
  now := request.now

/-- The handler of a route, on a body its schema accepted. -/
def JobRoute.handle (fmt : Formats) (route : JobRoute) (request : RequestContext)
    (answer : AddCall → QueueAnswer) (body : Data) : EnqueueRun :=
  enqueue fmt request.enqueueContext answer route.jobName (splitEnqueueOptions body).2
    (splitEnqueueOptions body).1

/-- The fields that options take in a body. -/
def EnqueueOptions.fields (o : EnqueueOptions) : List (JsString × Data) :=
  (o.correlationId.map fun id => (js "correlationId", Data.str id)).toList ++
    (o.delay.map fun delay => (js "delay", Data.num delay)).toList ++
      (o.idempotencyKey.map fun key => (js "idempotencyKey", Data.str key)).toList

/-- Options that a request can give, within the bounds of its schema. -/
structure EnqueueOptions.Requested (o : EnqueueOptions) : Prop where
  correlationId : ∀ id, o.correlationId = some id → IdLength id
  delay : ∀ delay, o.delay = some delay → isValidDelay delay = true
  idempotencyKey : ∀ key, o.idempotencyKey = some key → IdLength key
  priority : o.priority = none
  attempts : o.attempts = none
  idempotencyTtlMs : o.idempotencyTtlMs = none

variable {fmt : Formats} {route : JobRoute} {request : RequestContext} {body : Data} {json : Json}
  {key : JsString}

/-- **Every request is handled with a safe correlation id**, whatever its header says. -/
theorem isSafe_requestCorrelationId (incoming : HeaderValue) (requestId : RequestId) :
    isSafeCorrelationId (requestCorrelationId incoming requestId) = true := by
  have hid : isSafeCorrelationId requestId.text = true := by
    rw [isSafeCorrelationId, requestId.length_text, requestId.safe]
    rfl
  cases incoming with
  | text s =>
    simp only [requestCorrelationId]
    split_ifs with hsafe
    · exact hsafe
    · exact hid
  | absent => exact hid
  | list values => exact hid

theorem idLength_requestCorrelationId (incoming : HeaderValue) (requestId : RequestId) :
    IdLength (requestCorrelationId incoming requestId) := by
  have hsafe := isSafe_requestCorrelationId incoming requestId
  simp only [isSafeCorrelationId, Bool.and_eq_true, decide_eq_true_eq] at hsafe
  exact hsafe.1

/-- An optional id of a body is absent, or a text within the bounds. -/
theorem optional_id {d : Data}
    (h : Schema.optional (.string [.min 1, .max 200]) ((Data.ofJson json).get key) = .ok d) :
    ∃ id : Option JsString, (∀ s, id = some s → IdLength s) ∧
      (if d.isUndefined && !(Data.ofJson json).has key then ([] : List (JsString × Data))
        else [(key, d)]) = (id.map fun s => (key, Data.str s)).toList := by
  rcases Schema.optional_ok h with ⟨rfl, hhas⟩ | ⟨hstring, hhas⟩
  · refine ⟨none, by simp, ?_⟩
    rw [hhas]
    rfl
  · generalize (Data.ofJson json).get key = v at hstring
    cases v with
    | str s =>
      obtain ⟨hlen, rfl⟩ := string_idLength.mp hstring
      exact ⟨some s, fun t ht => Option.some.inj ht ▸ hlen, rfl⟩
    | _ => cases hstring

/-- An integer up to the largest delay is a delay the enqueuer accepts. -/
theorem isValidDelay_finite {value : ℚ} {text : JsString} (hint : value.den = 1)
    (hlo : ((0 : ℕ) : ℚ) ≤ value) (hhi : value ≤ maxEnqueueDelayMs) :
    isValidDelay (.finite value text) = true := by
  have hnum : (value.num : ℚ) = value := Rat.coe_int_num_of_den_eq_one hint
  have hnonneg : 0 ≤ value.num := Rat.num_nonneg.mpr (by simpa using hlo)
  have hle : value.num ≤ maxEnqueueDelayMs := by
    rw [← hnum] at hhi
    exact_mod_cast hhi
  have hsafe : value.num.natAbs ≤ 9007199254740991 := by
    unfold maxEnqueueDelayMs at hle
    omega
  simp only [isValidDelay, isSafeInteger, JsNumber.ofNat, JsNumber.lt, hint, hsafe, decide_true,
    Bool.and_self, Bool.true_and, Bool.and_eq_true, Bool.not_eq_true', decide_eq_false_iff_not,
    Rat.not_lt]
  exact ⟨hlo, hhi⟩

/-- An optional delay of a body is absent, or one the enqueuer accepts. -/
theorem optional_delay {d : Data}
    (h : Schema.optional (.safeInteger 0 maxEnqueueDelayMs) ((Data.ofJson json).get key) = .ok d) :
    ∃ delay : Option JsNumber, (∀ n, delay = some n → isValidDelay n = true) ∧
      (if d.isUndefined && !(Data.ofJson json).has key then ([] : List (JsString × Data))
        else [(key, d)]) = (delay.map fun n => (key, Data.num n)).toList := by
  rcases Schema.optional_ok h with ⟨rfl, hhas⟩ | ⟨hnumber, hhas⟩
  · refine ⟨none, by simp, ?_⟩
    rw [hhas]
    rfl
  · obtain ⟨value, text, -, rfl, hint, hsafe, hlo, hhi⟩ := Schema.safeInteger_ok hnumber
    refine ⟨some (.finite value text), fun n hn => ?_, rfl⟩
    obtain rfl := Option.some.inj hn
    exact isValidDelay_finite hint hlo hhi

/-- **What the schema of the options accepts** are the fields of options within its bounds. -/
theorem parseFields_enqueueOptions {ys : List (JsString × Data)}
    (h : Schema.parseFields (Data.ofJson json) enqueueOptionsShape = .ok ys) :
    ∃ o : EnqueueOptions, o.Requested ∧ ys = o.fields := by
  obtain ⟨d, _, hid, -, h', rfl⟩ := Schema.parseFields_cons_ok.mp h
  obtain ⟨d', _, hdelay, -, h'', rfl⟩ := Schema.parseFields_cons_ok.mp h'
  obtain ⟨d'', _, hkey, -, hnil, rfl⟩ := Schema.parseFields_cons_ok.mp h''
  obtain rfl := Except.ok.inj hnil
  obtain ⟨id, hidLength, hidField⟩ := optional_id hid
  obtain ⟨delay, hvalid, hdelayField⟩ := optional_delay hdelay
  obtain ⟨key, hkeyLength, hkeyField⟩ := optional_id hkey
  refine ⟨⟨delay, none, none, id, key, none⟩, ⟨hidLength, hvalid, hkeyLength, rfl, rfl, rfl⟩, ?_⟩
  simp only [EnqueueOptions.fields, ← hidField, ← hdelayField, ← hkeyField]
  split_ifs <;> rfl

theorem mem_optionKeys {o : EnqueueOptions} {f : JsString × Data} (h : f ∈ o.fields) :
    f.1 ∈ optionKeys := by
  simp only [EnqueueOptions.fields, List.mem_append, Option.mem_toList, Option.map_eq_some_iff] at h
  rcases h with (⟨_, -, rfl⟩ | ⟨_, -, rfl⟩) | ⟨_, -, rfl⟩
  · show js "correlationId" ∈ optionKeys
    decide
  · show js "delay" ∈ optionKeys
    decide
  · show js "idempotencyKey" ∈ optionKeys
    decide

/-- **The split takes apart what the schema put together.** -/
theorem splitEnqueueOptions_append {o : EnqueueOptions} (ho : o.Requested)
    {xs : List (JsString × Data)} (hxs : ∀ key ∈ xs.map Prod.fst, key ∉ optionKeys) :
    splitEnqueueOptions (.obj (xs ++ o.fields)) = (o, .obj xs) := by
  have hnot : ∀ key ∈ optionKeys, key ∉ xs.map Prod.fst := fun key hkey hmem => hxs key hmem hkey
  have hpayload : (xs ++ o.fields).filter (fun f => f.1 ∉ optionKeys) = xs := by
    have hkeep : xs.filter (fun f => f.1 ∉ optionKeys) = xs :=
      List.filter_eq_self.mpr fun f hf => by simpa using hxs f.1 (List.mem_map_of_mem hf)
    have hdrop : o.fields.filter (fun f => f.1 ∉ optionKeys) = [] :=
      List.filter_eq_nil_iff.mpr fun f hf => by simpa using mem_optionKeys hf
    rw [List.filter_append, hkeep, hdrop, List.append_nil]
  -- each option is read from its own field
  have hget : ∀ key ∈ optionKeys, (Data.obj (xs ++ o.fields)).get key = (Data.obj o.fields).get key :=
    fun key hkey => Data.get_append_of_notMem (hnot key hkey)
  simp only [splitEnqueueOptions, Data.without, hget (js "correlationId") (by decide),
    hget (js "delay") (by decide), hget (js "idempotencyKey") (by decide), hpayload]
  obtain ⟨-, -, -, hpriority, hattempts, httl⟩ := ho
  obtain ⟨delay, priority, attempts, id, key, ttl⟩ := o
  obtain rfl : priority = none := hpriority
  obtain rfl : attempts = none := hattempts
  obtain rfl : ttl = none := httl
  cases id <;> cases delay <;> cases key <;> rfl

/-- The job of a route, whose payload schema is the one the route's schema extends. -/
theorem definition_of_route (h : route ∈ postRoutes fmt) :
    ∃ shape definition, route.bodySchema = requestSchema shape ∧
      (∀ key ∈ shape.map Prod.fst, key ∉ optionKeys) ∧
      getJobDefinition fmt route.jobName = some definition ∧ definition.schema = .object shape := by
  simp only [postRoutes, List.mem_cons, List.not_mem_nil, or_false] at h
  rcases h with rfl | rfl | rfl
  · refine ⟨sendEmailPayloadShape fmt, sendEmailJob fmt, rfl, ?_, rfl, rfl⟩
    show ∀ key ∈ [js "to", js "template", js "userId"], key ∉ optionKeys
    decide
  · refine ⟨generateReportPayloadShape, generateReportJob, rfl, ?_, rfl, rfl⟩
    show ∀ key ∈ [js "reportId", js "requestedBy", js "format"], key ∉ optionKeys
    decide
  · refine ⟨cleanupPayloadShape fmt, cleanupJob fmt, rfl, ?_, rfl, rfl⟩
    show ∀ key ∈ [js "before", js "dryRun"], key ∉ optionKeys
    decide

/-- **What a route's schema accepts**: the fields of a payload that the job's schema accepts, and
those of options. -/
theorem bodySchema_ok (hroute : route ∈ postRoutes fmt)
    (hbody : route.bodySchema (Data.ofJson json) = .ok body) :
    ∃ definition xs, ∃ o : EnqueueOptions,
      getJobDefinition fmt route.jobName = some definition ∧ o.Requested ∧
      (∀ key ∈ xs.map Prod.fst, key ∉ optionKeys) ∧ body = .obj (xs ++ o.fields) ∧
      definition.schema (.obj xs) = .ok (.obj xs) := by
  obtain ⟨shape, definition, hschema, hkeys, hdefinition, hobject⟩ := definition_of_route hroute
  rw [hschema] at hbody
  obtain ⟨props, ds, hprops, hparse, rfl, -⟩ := Schema.strictObject_ok hbody
  obtain ⟨xs, ys, hxs, hys, rfl⟩ := Schema.parseFields_append_ok.mp hparse
  rw [← hprops] at hys
  obtain ⟨o, ho, rfl⟩ := parseFields_enqueueOptions hys
  have hsubset := Schema.keys_subset_of_parseFields hxs
  refine ⟨definition, xs, o, hdefinition, ho, fun key hkey => hkeys key (hsubset hkey), rfl, ?_⟩
  -- the payload's part is accepted by the job's schema, which accepts it again
  have haccepted : definition.schema (.obj props) = .ok (.obj xs) := by
    rw [hobject]
    exact Schema.object_ok.mpr ⟨xs, hxs, rfl⟩
  exact (stable_schema (mem_of_getJobDefinition hdefinition).1 _ _ haccepted).2

/-- The checks of the enqueuer pass on what a route hands it. -/
theorem prepareAdd_eq_ok (request : RequestContext) {definition : JobDefinition} {payload : Data}
    {o : EnqueueOptions} (hdefinition : getJobDefinition fmt route.jobName = some definition)
    (hpayload : definition.schema payload = .ok payload) (ho : o.Requested) :
    prepareAdd fmt request.enqueueContext route.jobName payload o = .ok {
      queue := definition.queue
      name := definition.name
      data := envelope payload (stampMeta request.enqueueContext o)
      options := jobOptions definition o } := by
  have hdelay : ¬ (o.delay.any fun delay => !isValidDelay delay) = true := by
    cases hd : o.delay with
    | none => simp
    | some delay => simp [ho.delay delay hd]
  have hqueue : ¬ definition.queue ∉ request.enqueueContext.queues := by
    cases definition.queue <;> simp [RequestContext.enqueueContext, allQueueNames]
  unfold prepareAdd
  rw [hdefinition]
  simp only [hpayload]
  rw [if_neg hdelay, if_neg hqueue]

/-- What a route guarantees of a body that its schema accepted: the split parts it into the fields
of the payload and those of the options, the checks of the enqueuer pass, and the worker accepts
the envelope after a JSON round trip, with the body's other fields as its payload and with the
correlation id of the body, or else that of the request. -/
structure ProducersAgree (fmt : Formats) (route : JobRoute) (request : RequestContext)
    (body : Data) : Prop where
  partition : ∃ fields, (splitEnqueueOptions body).2 = .obj fields ∧
    body = .obj (fields ++ (splitEnqueueOptions body).1.fields) ∧
    ∀ key ∈ fields.map Prod.fst, key ∉ optionKeys
  requested : (splitEnqueueOptions body).1.Requested
  worker : ∃ definition call stored v, getJobDefinition fmt route.jobName = some definition ∧
    prepareAdd fmt request.enqueueContext route.jobName (splitEnqueueOptions body).2
      (splitEnqueueOptions body).1 = .ok call ∧
    call.name = route.jobName ∧ call.data.roundTrip = some stored ∧
    validate fmt definition stored = .ok v ∧ v.payload = body.without optionKeys ∧
    (∀ id, body.get (js "correlationId") = .str id → v.correlationId = .str id) ∧
    (body.has (js "correlationId") = false → v.correlationId =
      .str (requestCorrelationId request.incoming request.requestId))

/-- A cleanup request with a delay and no id of its own. -/
def cleanupRequest : Json :=
  .obj [(js "delay", .num 60000 (js "60000")), (js "before", .str (js "2026-03-01T00:00:00.000Z")),
    (js "dryRun", .bool true)]

/-- A request with a safe correlation header. -/
def tracedRequest : RequestContext where
  incoming := .text (js "trace-7")
  requestId := ⟨⟨js "7c9e6679-7425-40de-944b-e07fc1f90ae7", by decide⟩, by decide⟩
  fresh := plainContext.fresh
  now := plainContext.now

end QueueWorkerKit
