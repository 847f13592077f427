import QueueWorkerKit.Jobs.Registry
import QueueWorkerKit.Queue.Defaults

/-!
# Enqueueing a job

The producer of `queue/enqueue.ts`: its checks, the envelope it stamps, and the one add it issues
when every check has passed. The add answers from outside; the counter moves after it.

## Main definitions

* `EnqueueOptions`, `Uuid`, `resolveCorrelationId`: what an envelope is stamped from
* `AddCall`, `prepareAdd`: the checks, and the add they lead to
* `EnqueueRun`, `enqueue`: the adds, counters and result of a call

## Main results

* `enqueue_of_error`: a failed check leaves queue and counters alone
* `worker_accepts_iff`: **when the worker accepts what the producer accepted**
-/

namespace QueueWorkerKit

open Ecma

structure EnqueueOptions where
  delay : Option JsNumber
  priority : Option JsNumber
  attempts : Option JsNumber
  correlationId : Option JsString
  idempotencyKey : Option JsString
  idempotencyTtlMs : Option JsNumber

/-- A random UUID: 36 code units. -/
structure Uuid where
  text : JsString
  length_text : text.length = 36

/-- An explicit id wins, then the ambient one, and only then a fresh one is minted. -/
def resolveCorrelationId (explicit ambient : Option JsString) (fresh : Uuid) : JsString :=
  (explicit <|> ambient).getD fresh.text

/-- `Number.isSafeInteger`. -/
def isSafeInteger : JsNumber → Bool
  | .finite value _ => value.den = 1 && value.num.natAbs ≤ 9007199254740991
  | _ => false

def isValidDelay (delay : JsNumber) : Bool :=
  isSafeInteger delay && !delay.lt (.ofNat 0) && !(JsNumber.ofNat maxEnqueueDelayMs).lt delay

/-- The arguments of an add, with the queue it is issued on. -/
structure AddCall where
  queue : QueueName
  name : JsString
  data : Data
  options : JobsOptions

/-- The options of an add: those the definition pins, overridden by those of the call. -/
def jobOptions (definition : JobDefinition) (options : EnqueueOptions) : JobsOptions :=
  { JobsOptions.empty with
    attempts := options.attempts
    delay := options.delay
    priority := options.priority
    deduplication := options.idempotencyKey.map fun key =>
      ⟨key, options.idempotencyTtlMs.getD (.ofNat defaultIdempotencyTtlMs)⟩ }.overriding
    { JobsOptions.empty with
      attempts := definition.defaultJobOptions.attempts.map JsNumber.ofNat }

/-- What surrounds a call: the queues registered in the process, the ambient correlation id, a
fresh one, and the time. -/
structure EnqueueContext where
  queues : List QueueName
  ambient : Option JsString
  fresh : Uuid
  now : TimeValue

/-- The metadata that an envelope is stamped with. -/
def stampMeta (context : EnqueueContext) (options : EnqueueOptions) : JobMeta where
  correlationId := resolveCorrelationId options.correlationId context.ambient context.fresh
  enqueuedAt := toISOString context.now
  idempotencyKey := options.idempotencyKey

/-- The checks of a call in their order, and the add they lead to. -/
def prepareAdd (fmt : Formats) (context : EnqueueContext) (name : JsString) (payload : Data)
    (options : EnqueueOptions) : Except KitError AddCall :=
  match getJobDefinition fmt name with
  | none => .error (.unknownJob name)
  | some definition =>
    match definition.schema payload with
    | .error issues =>
      .error (.payloadValidation (js "Invalid payload for job \"" ++ name ++ js "\"")
        (issuesOf issues []))
    | .ok parsed =>
      if options.delay.any fun delay => !isValidDelay delay then
        .error (.nonRetryable
          (js "delay must be an integer between 0 and " ++ decimal maxEnqueueDelayMs ++ js "ms"))
      else if definition.queue ∉ context.queues then
        .error (.plain
          (js "Queue \"" ++ definition.queue.text ++ js "\" is not registered in this process"))
      else
        .ok {
          queue := definition.queue
          name := definition.name
          data := envelope parsed (stampMeta context options)
          options := jobOptions definition options }

/-- The answer of a queue to an add: an error, or a job, which normally has an id. -/
inductive QueueAnswer
  | rejected (error : Thrown)
  | job (id : Option JsString)

structure EnqueueResult where
  id : JsString
  name : JsString
  queue : QueueName
  deduplicationId : Option JsString

/-- What a call did: the adds it issued, the increments of the counter of enqueued jobs by queue
and name, and its result. -/
structure EnqueueRun where
  adds : List AddCall
  enqueued : List (QueueName × JsString)
  result : Except Thrown EnqueueResult

/-- A call of `enqueue`, on queues that answer adds as given. -/
def enqueue (fmt : Formats) (context : EnqueueContext) (answer : AddCall → QueueAnswer)
    (name : JsString) (payload : Data) (options : EnqueueOptions) : EnqueueRun :=
  match prepareAdd fmt context name payload options with
  | .error e => ⟨[], [], .error (.kit e)⟩
  | .ok call =>
    match answer call with
    | .rejected error => ⟨[call], [], .error error⟩
    | .job none =>
      ⟨[call], [], .error (.kit (.plain
        (js "Queue \"" ++ call.queue.text ++ js "\" returned a job without an id")))⟩
    | .job (some id) =>
      ⟨[call], [(call.queue, call.name)],
        .ok ⟨id, call.name, call.queue, options.idempotencyKey⟩⟩

variable {fmt : Formats} {context : EnqueueContext} {name : JsString} {payload : Data}
  {options : EnqueueOptions} {call : AddCall}

/-- What the checks have established when they lead to an add. -/
theorem prepareAdd_ok (h : prepareAdd fmt context name payload options = .ok call) :
    ∃ definition parsed, getJobDefinition fmt name = some definition ∧
      definition.schema payload = .ok parsed ∧ definition.queue ∈ context.queues ∧
      call = {
        queue := definition.queue
        name := definition.name
        data := envelope parsed (stampMeta context options)
        options := jobOptions definition options } := by
  unfold prepareAdd at h
  split at h
  · cases h
  · next definition hdefinition =>
    split at h
    · cases h
    · next parsed hparsed =>
      split_ifs at h with hdelay hqueue
      obtain rfl := Except.ok.inj h
      exact ⟨definition, parsed, hdefinition, hparsed, hqueue, rfl⟩

/-- **A failed check leaves the queues and the counters alone.** -/
theorem enqueue_of_error {answer : AddCall → QueueAnswer} {e : KitError}
    (h : prepareAdd fmt context name payload options = .error e) :
    (enqueue fmt context answer name payload options).adds = [] ∧
      (enqueue fmt context answer name payload options).enqueued = [] := by
  simp [enqueue, h]

/-- Passed checks issue the one add they lead to. -/
theorem adds_of_ok {answer : AddCall → QueueAnswer}
    (h : prepareAdd fmt context name payload options = .ok call) :
    (enqueue fmt context answer name payload options).adds = [call] := by
  unfold enqueue
  rw [h]
  cases hanswer : answer call with
  | rejected error => simp [hanswer]
  | job id => cases id <;> simp [hanswer]

/-- The worker accepts the data of an add after a JSON round trip, and hands the processor the
payload the producer parsed and the correlation id it stamped. -/
def WorkerAccepts (fmt : Formats) (context : EnqueueContext) (payload : Data)
    (options : EnqueueOptions) (call : AddCall) : Prop :=
  ∃ definition parsed stored v, getJobDefinition fmt call.name = some definition ∧
    definition.schema payload = .ok parsed ∧ call.data.roundTrip = some stored ∧
    validate fmt definition stored = .ok v ∧ v.payload = parsed ∧
    v.correlationId = .str (stampMeta context options).correlationId

/-- The ids that a call gives, or finds in its surroundings, are within the bounds of the worker. -/
def IdsInBounds (context : EnqueueContext) (options : EnqueueOptions) : Prop :=
  (∀ id, (options.correlationId <|> context.ambient) = some id → IdLength id) ∧
    ∀ key, options.idempotencyKey = some key → IdLength key

theorem idsInBounds_iff : IdsInBounds context options ↔
    IdLength (stampMeta context options).correlationId ∧
      ∀ key, (stampMeta context options).idempotencyKey = some key → IdLength key := by
  apply and_congr_left
  intro _
  show _ ↔ IdLength (resolveCorrelationId options.correlationId context.ambient context.fresh)
  unfold resolveCorrelationId
  cases options.correlationId <|> context.ambient with
  | some id => simp
  | none =>
    -- a fresh id is a UUID, which has a length within the bounds
    have hfresh := context.fresh.length_text
    simp only [reduceCtorEq, false_implies, implies_true, Option.getD_none, true_iff, IdLength]
    omega

/-- **When the worker accepts what the producer accepted.** A call whose checks fail issues no add
and moves no counter. A call whose checks pass issues one add, and the worker accepts its envelope
and hands on the parsed payload and the stamped correlation id exactly when the correlation id that
the call gives or finds in its surroundings, and its idempotency key, have 1 to 200 code units. -/
theorem worker_accepts_iff (fmt : Formats) (context : EnqueueContext)
    (answer : AddCall → QueueAnswer) (name : JsString) (payload : Data) (options : EnqueueOptions)
    (htime : fmt.isoDatetime (toISOString context.now) = true) :
    (∀ e, prepareAdd fmt context name payload options = .error e →
      (enqueue fmt context answer name payload options).adds = [] ∧
        (enqueue fmt context answer name payload options).enqueued = []) ∧
    ∀ call, prepareAdd fmt context name payload options = .ok call →
      (enqueue fmt context answer name payload options).adds = [call] ∧
        (WorkerAccepts fmt context payload options call ↔ IdsInBounds context options) := by
  refine ⟨fun e h => enqueue_of_error h, fun call h => ⟨adds_of_ok h, ?_⟩⟩
  obtain ⟨definition, parsed, hdefinition, hparsed, -, rfl⟩ := prepareAdd_ok h
  obtain ⟨hmem, hname⟩ := mem_of_getJobDefinition hdefinition
  obtain ⟨hround, hagain⟩ := stable_schema hmem _ _ hparsed
  have hdefined := Schema.isUndefined_of_roundTrip hround
  have hlookup : getJobDefinition fmt definition.name = some definition := by rwa [hname]
  have hvalidate := validate_envelope fmt (stampMeta context options) hagain hdefined htime
  have henvelope := roundTrip_envelope hround (stampMeta context options)
  rw [idsInBounds_iff]
  constructor
  · -- the worker finds the definition the producer did, and what it stored
    rintro ⟨definition', parsed', stored, v, hdefinition', -, hstored, hv, -, -⟩
    obtain rfl := Option.some.inj (hlookup.symm.trans hdefinition')
    obtain rfl := Option.some.inj (henvelope.symm.trans hstored)
    exact ((hvalidate v).mp hv).1
  · intro hbounds
    exact ⟨definition, parsed, _, _, hlookup, hparsed, henvelope, (hvalidate _).mpr ⟨hbounds, rfl⟩,
      rfl, rfl⟩

/-! ### An e-mail job -/

/-- Formats by a feature of their texts: the sign in an address, the length and the last letter of
a date-time in UTC. -/
def featureFormats : Formats where
  email s := decide (0x40 ∈ s)
  isoDatetime s := s.length == 24 && s.getLast? == some 0x5A

def emailPayload : Data :=
  .obj [(js "to", .str (js "user@example.com")), (js "template", .str (js "welcome")),
    (js "userId", .str (js "user-1"))]

/-- All queues, no ambient id, and a moment of March 2026. -/
def plainContext : EnqueueContext where
  queues := allQueueNames
  ambient := none
  fresh := ⟨js "b0a1c2d3-0000-4000-8000-000000000000", by decide⟩
  now := ⟨1772539384567, by decide⟩

def withCorrelationId (id : JsString) : EnqueueOptions :=
  ⟨none, none, none, some id, none, none⟩

theorem worker_accepts_iff_email : ∃ call,
    prepareAdd featureFormats plainContext (js "email.send") emailPayload
        (withCorrelationId (js "request-7")) = .ok call ∧
      WorkerAccepts featureFormats plainContext emailPayload (withCorrelationId (js "request-7"))
        call := by
  obtain ⟨call, hcall⟩ : ∃ call, prepareAdd featureFormats plainContext (js "email.send")
      emailPayload (withCorrelationId (js "request-7")) = .ok call := ⟨_, rfl⟩
  have h := worker_accepts_iff featureFormats plainContext (fun _ => .job none) (js "email.send")
    emailPayload (withCorrelationId (js "request-7")) (by decide)
  refine ⟨call, hcall, (h.2 call hcall).2.mpr ⟨?_, ?_⟩⟩
  · intro id hid
    obtain rfl := Option.some.inj hid
    decide
  · intro key hkey
    cases hkey

/-- **An empty correlation id is accepted by the producer and refused by the worker.** -/
theorem worker_refuses_empty_correlationId : ∃ call,
    prepareAdd featureFormats plainContext (js "email.send") emailPayload (withCorrelationId []) =
        .ok call ∧
      ¬ WorkerAccepts featureFormats plainContext emailPayload (withCorrelationId []) call := by
  obtain ⟨call, hcall, hname, hround, e, he⟩ : ∃ call,
      prepareAdd featureFormats plainContext (js "email.send") emailPayload
          (withCorrelationId []) = .ok call ∧
        getJobDefinition featureFormats call.name = some (sendEmailJob featureFormats) ∧
        call.data.roundTrip = some call.data ∧
        ∃ e, validate featureFormats (sendEmailJob featureFormats) call.data = .error e :=
    ⟨_, rfl, rfl, rfl, _, rfl⟩
  refine ⟨call, hcall, ?_⟩
  rintro ⟨definition, parsed, stored, v, hdefinition, -, hstored, hv, -, -⟩
  obtain rfl := Option.some.inj (hname.symm.trans hdefinition)
  obtain rfl := Option.some.inj (hround.symm.trans hstored)
  rw [he] at hv
  cases hv

end QueueWorkerKit
