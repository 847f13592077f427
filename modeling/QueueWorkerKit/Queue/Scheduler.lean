import QueueWorkerKit.Queue.Enqueue

/-!
# Recurring jobs

The job schedulers of `queue/scheduler.ts`. A schedule is stored as a template once per upsert, and
the queue produces a job from it at each iteration, with the options of the queue under those of
the template. The template is put together by hand: it reads neither the options nor the queue nor
the schema of the definition it names.

## Main definitions

* `ScheduleSpec`, `buildDefaultSchedules`: what to schedule
* `JobScheduler`, `upsertSchedules`: the stored templates, and the loop that stores them
* `JobScheduler.produce`: the job of an iteration
* `AsEnqueued`: a job as `enqueue` would have produced it

## Main results

* `upsertSchedules_stored`: what is stored comes from the spec at its place
* `validate_storedEnvelope`: which stored envelopes the worker accepts
* `scheduled_as_enqueued_iff`: **when scheduled jobs are produced like enqueued ones**
-/

namespace QueueWorkerKit

open Ecma

/-- A schedule. What `buildPayload` returns is given by its JSON, `none` for a value without. -/
structure ScheduleSpec where
  id : JsString
  queue : JsString
  jobName : JsString
  pattern : JsString
  tz : Option JsString
  buildPayload : Except Thrown (Option Json)

/-- The cutoff of a clean-up, by a clock that is past the epoch. -/
def cleanupCutoff (now : TimeValue) (h : 0 ≤ now.ms) : TimeValue where
  ms := now.ms - maintenanceCleanupLookbackMs
  range := by
    have hrange := now.range
    simp only [maintenanceCleanupLookbackMs]
    omega

/-- The schedules of the kit, whose payload is built at a given time. -/
def buildDefaultSchedules (maintenanceCleanupCron : JsString) (now : TimeValue) (h : 0 ≤ now.ms) :
    List ScheduleSpec :=
  [{ id := maintenanceSchedulerId
     queue := QueueName.maintenance.text
     jobName := js "maintenance.cleanup"
     pattern := maintenanceCleanupCron
     tz := none
     buildPayload := .ok (Data.toJson (.obj [
       (js "before", .str (toISOString (cleanupCutoff now h))), (js "dryRun", .bool false)])) }]

/-- A stored scheduler: when it produces jobs, and the template of these. -/
structure JobScheduler where
  queue : QueueName
  id : JsString
  pattern : JsString
  tz : Option JsString
  name : JsString
  data : Data
  options : JobsOptions

/-- The metadata of a template, which all iterations share. -/
def scheduleMeta (id : JsString) (now : TimeValue) : JobMeta where
  correlationId := js "scheduler:" ++ id
  enqueuedAt := toISOString now
  idempotencyKey := none

/-- An envelope as it is stored: without the payload when that has no JSON. -/
def storedEnvelope (payload : Option Json) (m : JobMeta) : Data :=
  .obj ((payload.map fun json => (js "payload", Data.ofJson json)).toList ++
    [(js "meta", m.toData)])

/-- `getOrThrow` of the queues registered in the process. -/
def getOrThrow (queues : List QueueName) (name : JsString) : Except Thrown QueueName :=
  match queues.find? fun queue => queue.text = name with
  | none => .error (.kit (.plain
      (js "Queue \"" ++ name ++ js "\" is not registered in this process")))
  | some queue => .ok queue

/-- What surrounds an upsert: the time, and the error of the queue when it refuses. -/
structure UpsertContext where
  now : TimeValue
  rejected : Option Thrown

/-- The body of the loop, for one schedule. -/
def upsertSchedule (queues : List QueueName) (spec : ScheduleSpec) (context : UpsertContext) :
    Except Thrown JobScheduler := do
  let queue ← getOrThrow queues spec.queue
  let payload ← spec.buildPayload
  let scheduler : JobScheduler := {
    queue
    id := spec.id
    pattern := spec.pattern
    tz := spec.tz
    name := spec.jobName
    data := storedEnvelope payload (scheduleMeta spec.id context.now)
    options := JobsOptions.empty }
  context.rejected.elim (.ok scheduler) .error

/-- The schedulers a call stored, and the error it ended with. -/
structure UpsertRun where
  stored : List JobScheduler
  failure : Option Thrown

/-- A call of `upsertSchedules`, which ends at the first schedule that fails. -/
def upsertSchedules (queues : List QueueName) : List (ScheduleSpec × UpsertContext) → UpsertRun
  | [] => ⟨[], none⟩
  | (spec, context) :: rest =>
    match upsertSchedule queues spec context with
    | .error e => ⟨[], some e⟩
    | .ok scheduler =>
      ⟨scheduler :: (upsertSchedules queues rest).stored, (upsertSchedules queues rest).failure⟩

/-- A job as a queue holds it, with its effective options. -/
structure ProducedJob where
  queue : QueueName
  name : JsString
  data : Data
  options : JobsOptions

/-- The job of an iteration: the options of the template over those of the queue, with the id and
the delay that the scheduler computes. -/
def JobScheduler.produce (scheduler : JobScheduler) (env : Env) (jobId : JsString)
    (delay : JsNumber) : ProducedJob where
  queue := scheduler.queue
  name := scheduler.name
  data := scheduler.data
  options := { scheduler.options.overriding (buildDefaultJobOptions env) with
    jobId := some jobId
    delay := some delay }

/-- The options of a job but those that are chosen for each add. -/
def JobsOptions.policy (options : JobsOptions) : JobsOptions :=
  { options with jobId := none, delay := none }

/-- A call of `enqueue` without options. -/
def EnqueueOptions.absent : EnqueueOptions := ⟨none, none, none, none, none, none⟩

/-- The options that a definition and the defaults of its queue give a job. -/
def definitionPolicy (env : Env) (definition : JobDefinition) : JobsOptions :=
  ((jobOptions definition .absent).overriding (buildDefaultJobOptions env)).policy

/-- A job as `enqueue` would have produced it: with the options and on the queue of its definition,
and with an envelope that the worker accepts. -/
structure AsEnqueued (fmt : Formats) (env : Env) (definition : JobDefinition)
    (job : ProducedJob) : Prop where
  options : job.options.policy = definitionPolicy env definition
  queue : job.queue = definition.queue
  accepted : ∃ v, validate fmt definition job.data = .ok v

variable {fmt : Formats} {queues : List QueueName} {spec : ScheduleSpec} {context : UpsertContext}
  {scheduler : JobScheduler} {definition : JobDefinition}

theorem text_of_getOrThrow {name : JsString} {queue : QueueName}
    (h : getOrThrow queues name = .ok queue) : queue.text = name := by
  unfold getOrThrow at h
  split at h
  · cases h
  · next found hfound =>
    obtain rfl := Except.ok.inj h
    simpa using List.find?_some hfound

/-- What an upsert stores. -/
theorem upsertSchedule_ok (h : upsertSchedule queues spec context = .ok scheduler) :
    ∃ queue payload, queue.text = spec.queue ∧ spec.buildPayload = .ok payload ∧
      scheduler = {
        queue
        id := spec.id
        pattern := spec.pattern
        tz := spec.tz
        name := spec.jobName
        data := storedEnvelope payload (scheduleMeta spec.id context.now)
        options := JobsOptions.empty } := by
  unfold upsertSchedule at h
  -- The queue is known, the payload can be built, and the queue does not reject.
  cases hqueue : getOrThrow queues spec.queue with
  | error e =>
    rw [hqueue] at h
    cases h
  | ok queue =>
    cases hpayload : spec.buildPayload with
    | error e =>
      rw [hqueue, hpayload] at h
      cases h
    | ok payload =>
      rw [hqueue, hpayload] at h
      cases hrejected : context.rejected with
      | some e =>
        rw [hrejected] at h
        cases h
      | none =>
        rw [hrejected] at h
        exact ⟨queue, payload, text_of_getOrThrow hqueue, rfl, (Except.ok.inj h).symm⟩

/-- **What is stored comes from the spec at its place**: the loop stores in order, and ends at the
first failure. -/
theorem upsertSchedules_stored {specs : List (ScheduleSpec × UpsertContext)} {i : ℕ}
    (h : (upsertSchedules queues specs).stored[i]? = some scheduler) :
    ∃ spec context, specs[i]? = some (spec, context) ∧
      upsertSchedule queues spec context = .ok scheduler := by
  -- Induction on the schedules: a place is that of the first one, or a place in the rest.
  induction specs generalizing i with
  | nil => simp [upsertSchedules] at h
  | cons first rest ih =>
    obtain ⟨spec, context⟩ := first
    cases hfirst : upsertSchedule queues spec context with
    | error e => simp [upsertSchedules, hfirst] at h
    | ok scheduler' =>
      simp only [upsertSchedules, hfirst] at h
      cases i with
      | zero =>
        obtain rfl := Option.some.inj h
        exact ⟨spec, context, rfl, hfirst⟩
      | succ i => exact ih h

/-- A stored envelope is what serialization leaves of the envelope. -/
theorem roundTrip_envelope_eq (payload : Data) (m : JobMeta) :
    (envelope payload m).roundTrip = some (storedEnvelope payload.toJson m) := by
  obtain ⟨json, hjson, hdata⟩ := Option.map_eq_some_iff.mp (roundTrip_toData m)
  cases hpayload : payload.toJson with
  | none =>
    simp [Data.roundTrip, envelope, storedEnvelope, Data.toJson, Data.fieldsToJson, hpayload, hjson,
      Data.ofJson, Data.ofFields, hdata]
  | some value =>
    simp [Data.roundTrip, envelope, storedEnvelope, Data.toJson, Data.fieldsToJson, hpayload, hjson,
      Data.ofJson, Data.ofFields, hdata]

/-- A stored envelope without a payload is refused, whatever its metadata. -/
theorem validate_storedEnvelope_none (m : JobMeta) (v : Validated) :
    validate fmt definition (storedEnvelope none m) ≠ .ok v := by
  intro hv
  obtain ⟨shape, parsed, hshape, -, -⟩ := validate_ok.mp hv
  obtain ⟨ds, hds, rfl⟩ := Schema.object_ok.mp hshape
  -- the shape of an envelope has a payload
  obtain ⟨d, ds', -, hpresent, -, rfl⟩ := Schema.parseFields_cons_ok.mp hds
  rcases hpresent with hhas | hoptional
  · have hkey : (js "meta" == js "payload") = false := by decide
    simp [Data.has, hkey] at hhas
  · cases hoptional

/-- **Which stored envelopes the worker accepts**: those with ids of 1 to 200 code units and a
payload that, as it was stored, passes the schema of the job. -/
theorem validate_storedEnvelope (payload : Option Json) (m : JobMeta)
    (htime : fmt.isoDatetime m.enqueuedAt = true) :
    (∃ v, validate fmt definition (storedEnvelope payload m) = .ok v) ↔
      (IdLength m.correlationId ∧ ∀ key, m.idempotencyKey = some key → IdLength key) ∧
        ∃ json parsed, payload = some json ∧
          definition.schema (Data.ofJson json) = .ok parsed := by
  cases payload with
  | none =>
    constructor
    · rintro ⟨v, hv⟩
      exact absurd hv (validate_storedEnvelope_none m v)
    · rintro ⟨-, json, parsed, hnone, -⟩
      cases hnone
  | some json =>
    -- a stored payload is the envelope of what it reads as
    have hshape := envelopeShapeSchema_envelope fmt m (Data.isUndefined_ofJson json) htime
    have hget : (envelope (Data.ofJson json) m).get (js "payload") = Data.ofJson json := rfl
    show (∃ v, validate fmt definition (envelope (Data.ofJson json) m) = .ok v) ↔ _
    constructor
    · rintro ⟨v, hv⟩
      obtain ⟨shape, parsed, hs, hparsed, -⟩ := validate_ok.mp hv
      obtain ⟨hlen, rfl⟩ := (hshape shape).mp hs
      rw [hget] at hparsed
      exact ⟨hlen, json, parsed, rfl, hparsed⟩
    · rintro ⟨hlen, json', parsed, hjson, hparsed⟩
      obtain rfl := Option.some.inj hjson
      exact ⟨_, validate_ok.mpr ⟨_, parsed, (hshape _).mpr ⟨hlen, rfl⟩, hparsed, rfl⟩⟩

/-- The correlation id of a schedule is within the bounds exactly when its id leaves room for the
prefix. -/
theorem idLength_scheduleMeta (id : JsString) (now : TimeValue) :
    IdLength (scheduleMeta id now).correlationId ↔ id.length ≤ 190 := by
  have hprefix : (js "scheduler:").length = 10 := by decide
  unfold IdLength scheduleMeta
  rw [List.length_append, hprefix]
  omega

/-- The policy of a definition is that of its queue exactly when it pins no other number of
attempts. -/
theorem definitionPolicy_eq_defaults (env : Env) (definition : JobDefinition) :
    (buildDefaultJobOptions env).policy = definitionPolicy env definition ↔
      ∀ attempts, definition.defaultJobOptions.attempts = some attempts →
        attempts = env.jobAttempts := by
  unfold definitionPolicy jobOptions buildDefaultJobOptions JobsOptions.overriding
    JobsOptions.policy
  cases definition.defaultJobOptions.attempts with
  | none => simp [EnqueueOptions.absent, JobsOptions.empty]
  | some attempts =>
    -- the two agree on everything but, perhaps, the number of attempts
    simp [EnqueueOptions.absent, JobsOptions.empty, JsNumber.ofNat_inj, eq_comm]

/-- An enqueue without options has the options and the queue of its definition. -/
theorem prepareAdd_policy {enqueueContext : EnqueueContext} {name : JsString} {payload : Data}
    {call : AddCall} (hname : getJobDefinition fmt name = some definition)
    (h : prepareAdd fmt enqueueContext name payload .absent = .ok call) (env : Env) :
    (call.options.overriding (buildDefaultJobOptions env)).policy =
        definitionPolicy env definition ∧ call.queue = definition.queue := by
  obtain ⟨definition', parsed, hdefinition, -, -, rfl⟩ := prepareAdd_ok h
  obtain rfl := Option.some.inj (hname.symm.trans hdefinition)
  exact ⟨rfl, rfl⟩

/-- **When scheduled jobs are produced like enqueued ones.** Every enqueue of a name without options
has the options and the queue of its definition. A job that a stored template for that name
produces has them too, and an envelope that the worker accepts, exactly when the definition pins no
other number of attempts than the queues have, the spec names the queue of the definition, its
payload passes the schema as it was stored, and its id has at most 190 code units. -/
theorem scheduled_as_enqueued_iff (fmt : Formats) (env : Env) (queues : List QueueName)
    (specs : List (ScheduleSpec × UpsertContext)) (i : ℕ) (spec : ScheduleSpec)
    (context : UpsertContext) (scheduler : JobScheduler) (definition : JobDefinition)
    (hspec : specs[i]? = some (spec, context))
    (hstored : (upsertSchedules queues specs).stored[i]? = some scheduler)
    (hname : getJobDefinition fmt spec.jobName = some definition)
    (htime : fmt.isoDatetime (toISOString context.now) = true) :
    (∀ enqueueContext payload call,
      prepareAdd fmt enqueueContext spec.jobName payload .absent = .ok call →
      (call.options.overriding (buildDefaultJobOptions env)).policy =
        definitionPolicy env definition ∧ call.queue = definition.queue) ∧
    ((∀ jobId delay, AsEnqueued fmt env definition (scheduler.produce env jobId delay)) ↔
      (∀ attempts, definition.defaultJobOptions.attempts = some attempts →
        attempts = env.jobAttempts) ∧
      spec.queue = definition.queue.text ∧
      (∃ json parsed, spec.buildPayload = .ok (some json) ∧
        definition.schema (Data.ofJson json) = .ok parsed) ∧
      spec.id.length ≤ 190) := by
  refine ⟨fun _ _ _ h => prepareAdd_policy hname h env, ?_⟩
  -- What is stored at the place of the spec was upserted from it.
  obtain ⟨spec', context', hspec', hupsert⟩ := upsertSchedules_stored hstored
  obtain ⟨rfl, rfl⟩ := Prod.mk.inj (Option.some.inj (hspec.symm.trans hspec'))
  obtain ⟨queue, payload, hqueue, hpayload, rfl⟩ := upsertSchedule_ok hupsert
  have haccepted := @validate_storedEnvelope fmt definition payload
    (scheduleMeta spec.id context.now) htime
  rw [idLength_scheduleMeta] at haccepted
  rw [hpayload, ← hqueue]
  constructor
  · intro h
    -- neither the id nor the delay of the job matters
    have hjob := h [] .nan
    obtain ⟨⟨hid, -⟩, json, parsed, rfl, hparsed⟩ := haccepted.mp hjob.accepted
    have hpolicy := (definitionPolicy_eq_defaults env definition).mp hjob.options
    exact ⟨hpolicy, congrArg QueueName.text hjob.queue, ⟨json, parsed, rfl, hparsed⟩, hid⟩
  · rintro ⟨hpolicy, htext, ⟨json, parsed, hjson, hparsed⟩, hid⟩ jobId delay
    obtain rfl := Except.ok.inj hjson
    constructor
    · exact (definitionPolicy_eq_defaults env definition).mpr hpolicy
    · exact QueueName.text_injective htext
    · apply haccepted.mpr
      -- a schedule has no idempotency key
      refine ⟨⟨hid, ?_⟩, json, parsed, rfl, hparsed⟩
      intro key hkey
      cases hkey

/-! ### The schedule of the kit -/

def plainUpsertContext : UpsertContext := ⟨plainContext.now, none⟩

/-- The default schedule, every hour. -/
def hourlyCleanup : List (ScheduleSpec × UpsertContext) :=
  (buildDefaultSchedules (js "0 * * * *") plainContext.now (by decide)).map (·, plainUpsertContext)

theorem scheduled_as_enqueued_iff_twoAttempts : ∃ scheduler,
    (upsertSchedules allQueueNames hourlyCleanup).stored = [scheduler] ∧
      ∀ jobId delay, AsEnqueued featureFormats { Env.default with jobAttempts := 2 }
        (cleanupJob featureFormats)
        (scheduler.produce { Env.default with jobAttempts := 2 } jobId delay) := by
  refine ⟨_, rfl, ?_⟩
  apply (scheduled_as_enqueued_iff featureFormats { Env.default with jobAttempts := 2 }
    allQueueNames hourlyCleanup 0 _ plainUpsertContext _ (cleanupJob featureFormats) rfl rfl rfl
    (by decide)).2.mpr
  refine ⟨?_, rfl, ⟨_, _, rfl, rfl⟩, by decide⟩
  intro attempts hattempts
  exact (Option.some.inj hattempts).symm

/-- **The kit's own schedule is retried as its definition forbids**: with the default settings, the
jobs of the clean-up schedule have five attempts, where the definition pins two. -/
theorem scheduled_cleanup_has_queue_attempts : ∃ scheduler,
    (upsertSchedules allQueueNames hourlyCleanup).stored = [scheduler] ∧
      (∀ jobId delay, (scheduler.produce Env.default jobId delay).options.attempts =
        some (.ofNat 5)) ∧
      (cleanupJob featureFormats).defaultJobOptions.attempts = some 2 ∧
      ∀ jobId delay, ¬ AsEnqueued featureFormats Env.default (cleanupJob featureFormats)
        (scheduler.produce Env.default jobId delay) := by
  refine ⟨_, rfl, fun _ _ => rfl, rfl, ?_⟩
  intro jobId delay h
  have hpolicy := (definitionPolicy_eq_defaults _ _).mp h.options 2 rfl
  exact absurd hpolicy (by decide)

end QueueWorkerKit
