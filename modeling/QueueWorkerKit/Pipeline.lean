import QueueWorkerKit.Api.App
import QueueWorkerKit.Worker.DeadLetterReplay
import QueueWorkerKit.Worker.JobLife

/-!
# From a request to the end of its job

An accepted request leaves a job in its queue: the envelope as JSON, and the options of the add over
those of the queue. Workers of the same build attempt the job until it returns a value or the queue
gives it up, and the listener of `failed` hands what is given up to the writer of dead-letter
records.

## Main definitions

* `AddCall.storedJob`: the job that a worker finds
* `JobAccount`: what has become of a job
* `Served`: what an accepted request has led to

## Main results

* `tally_started`: an attempt on valid data has started the handler
* `account_run`: the account of a job with valid data
* `request_account`: **what becomes of an accepted request**
-/

namespace QueueWorkerKit

open Ecma EventDriven Attempt

/-- The job that an add leaves in its queue, with its data as JSON. -/
def AddCall.storedJob (env : Env) (call : AddCall) (data : Json) : Attempt.StoredJob where
  name := call.name
  data := .ofJson data
  attempts := (call.options.overriding (buildDefaultJobOptions env)).attempts

/-- The number of attempts that a job of a definition is allowed where its add asks for none. -/
def JobDefinition.attempts (env : Env) (definition : JobDefinition) : ℕ :=
  definition.defaultJobOptions.attempts.getD env.jobAttempts

/-- What has become of a job that is allowed a number of attempts: each has started the handler and
is counted once, and the failure that has ended it, if one has, is the only one recorded. -/
structure JobAccount (allowed : ℕ) (l : Life) : Prop where
  started : tally .started l.increments = l.attemptsMade + l.values
  failed : tally .failed l.increments = l.attemptsMade
  completed : tally .completed l.increments = l.values
  bounded : l.attemptsMade ≤ max 1 allowed
  recorded : ∀ n error,
    (n, error) ∈ l.recorded ↔ n = l.attemptsMade ∧ l.outcome = some (.rejected error)
  once : l.recorded.length ≤ 1

/-- What an accepted request has led to: a job within the limit of its queue, whose data give the
processor the payload of the request and the correlation id that it was stamped with, in any life;
and the dead-letter record of its last failure would name its queue, its id and that correlation
id. -/
structure Served (fmt : Formats) (env : Env) (context : EnqueueContext) (options : EnqueueOptions)
    (payload : Data) (definition : JobDefinition) (call : AddCall) (result : EnqueueResult)
    (data : Json) : Prop where
  named : result.name = definition.name ∧ result.queue = definition.queue
  stored : call.data.toJson = some data
  fits : data.byteLength ≤ jobPayloadSizeLimitBytes
  handed : ∃ v, validate fmt definition (.ofJson data) = .ok v ∧ v.payload = payload ∧
    v.correlationId = .str (stampMeta context options).correlationId
  lives : ∀ (o : ProcessorOptions) ds l, o.fmt = fmt →
    (Life.machine o (call.storedJob env data)).run Life.start ds = some l →
      JobAccount (definition.attempts env) l
  record : ∀ error count finishedOn, ∃ input,
    onFailed fmt definition.queue.text ⟨some result.id, definition.name, data, some finishedOn⟩
        error count = some input ∧
      input.failure = ⟨definition.queue.text, result.id, count.value⟩ ∧ input.failure.Consumed ∧
      input.correlationId = (stampMeta context options).correlationId

variable {fmt : Formats} {env : Env} {o : ProcessorOptions} {c : Call} {s : State} {r : Settled}
  {es : List Attempt.Event} {j : Attempt.StoredJob} {l m : Life} {ds : List Attempt.Delivery}
  {definition : JobDefinition} {v : Validated}

/-! ## Attempts on valid data -/

/-- **An attempt on valid data has started the handler** by the time it settles. -/
theorem tally_started (hdef : c.definition o = some definition)
    (hvalid : validate o.fmt definition c.job.data = .ok v)
    (hrun : (Attempt.machine o c).run (Attempt.start o c) es = some s)
    (hsettled : s.loop.settled .attempt = some r) : tally .started s.increments = 1 := by
  have hinv : CallInv o c s := Machine.run_invariant (G := fun _ _ => True)
    (fun _ _ _ h _ hstep => callInv_step h hstep) (callInv_start o c) Machine.stepsMeet_true hrun
  cases hinv with
  | unknown unregistered refused => exact absurd (hdef.symm.trans unregistered) (by simp)
  | registered definition' known inv tracked started =>
    obtain rfl := Option.some.inj (hdef.symm.trans known)
    obtain ⟨-, hcounts⟩ := tracked.done (by simp [hsettled])
    rw [started.mpr ⟨v, hvalid⟩] at hcounts
    show s.counters.count .started = 1
    generalize s.counters = counters at hcounts
    cases hcounts with
    | completed => rfl
    | failed _ retrying => cases retrying <;> rfl

/-- Every attempt at a job with valid data starts the handler. -/
theorem started_run (hdef : getJobDefinition o.fmt j.name = some definition)
    (hvalid : validate o.fmt definition j.data = .ok v)
    (hrun : (Life.machine o j).run Life.start ds = some l) :
    tally .started l.increments = l.attemptsMade + l.values := by
  refine Machine.run_invariant (G := fun _ _ => True)
    (I := fun l : Life => tally .started l.increments = l.attemptsMade + l.values)
    (fun l d m h _ hstep => ?_) rfl Machine.stepsMeet_true hrun
  have hone : ∀ s r, l.attempt o j d = some s → s.loop.settled .attempt = some r →
      tally .started s.increments = 1 := fun s r hattempt hsettled =>
    tally_started (c := l.call j d) hdef hvalid hattempt hsettled
  have hzero : l.outcome = none → l.values = 0 := by
    intro hopened
    rw [Life.values, hopened]
    rfl
  cases Life.step_cases hstep with
  | completed s value opened attempt settled verdict =>
    show tally .started (l.increments ++ s.increments) = l.attemptsMade + 1
    rw [tally_append, h, hzero opened, hone s _ attempt settled]
  | failed s error opened attempt settled verdict =>
    have hvalues : (l.fail s error (bullmqRetries o.heap (l.call j d).job error)).values = 0 := by
      show Life.valueCount (if _ then none else some (.rejected error)) = 0
      split_ifs <;> rfl
    rw [hvalues]
    show tally .started (l.increments ++ s.increments) = l.attemptsMade + 1
    rw [tally_append, h, hzero opened, hone s _ attempt settled]

/-- **The account of a job with valid data**, over any life. -/
theorem account_run {allowed : ℕ} (hdef : getJobDefinition o.fmt j.name = some definition)
    (hvalid : validate o.fmt definition j.data = .ok v)
    (hallowed : j.attempts = some (.ofNat allowed))
    (hrun : (Life.machine o j).run Life.start ds = some l) : JobAccount allowed l := by
  have hledger : Life.Ledger j l := Machine.run_invariant (G := fun _ _ => True)
    (fun _ _ _ h _ hstep => Life.ledger_step h hstep) Life.ledger_start Machine.stepsMeet_true hrun
  refine ⟨started_run hdef hvalid hrun, hledger.failed, hledger.completed,
    hledger.bounded allowed hallowed, fun n error => ?_, ?_⟩
  · cases hledger.stands with
    | going outcome retried recorded =>
      rw [recorded]
      exact iff_of_false List.not_mem_nil fun h => outcome error h.2
    | failed error' outcome retried recorded =>
      rw [recorded, outcome, List.mem_singleton, Prod.mk.injEq]
      simp [eq_comm]
  · cases hledger.stands with
    | going outcome retried recorded => simp [recorded]
    | failed error outcome retried recorded => simp [recorded]

/-! ## Requests -/

variable {exposeInternals : Bool} {newId : AddCall → JsString}
  {parse : RawRequest → Except ApiError (Option Json)} {route : JobRoute} {request : RequestContext}
  {raw : RawRequest} {result : EnqueueResult} {json : Json} {body : Data}

/-- What a request that is accepted has passed. -/
theorem submit_of_accepted (hroute : route ∈ postRoutes fmt)
    (h : postJob fmt env exposeInternals newId parse route request raw = .accepted result) :
    ∃ json body, parse raw = .ok (some json) ∧ route.bodySchema (.ofJson json) = .ok body ∧
      route.submit fmt env newId request body = .ok result := by
  unfold postJob at h
  rw [echoCorrelationId_ok] at h
  cases hparse : parse raw with
  | error e => simp [hparse] at h
  | ok parsed =>
    cases hbody : route.bodySchema ((parsed.map Data.ofJson).getD .undefined) with
    | error issues => simp [hparse, hbody] at h
    | ok body =>
      cases hsubmit : route.submit fmt env newId request body with
      | error e => simp [hparse, hbody, hsubmit] at h
      | ok result' =>
        obtain rfl : result' = result := by simpa [hparse, hbody, hsubmit] using h
        -- no schema accepts an absent body
        cases parsed with
        | none => exact absurd hbody (bodySchema_undefined hroute)
        | some json => exact ⟨json, body, rfl, hbody, hsubmit⟩

/-- The ids that a request stamps are within the bounds of the worker. -/
theorem idsInBounds_of_requested {options : EnqueueOptions} (h : options.Requested) :
    IdsInBounds request.enqueueContext options := by
  refine ⟨fun id hid => ?_, h.idempotencyKey⟩
  cases hown : options.correlationId with
  | some own =>
    rw [hown] at hid
    exact h.correlationId id (hown.trans hid)
  | none =>
    rw [hown] at hid
    obtain rfl := Option.some.inj hid
    exact idLength_requestCorrelationId _ _

/-- The attempts that a request's job is allowed are those of its definition or of the queue. -/
theorem attempts_storedJob {options : EnqueueOptions} (h : options.Requested) (queue : QueueName)
    (name : JsString) (envelope : Data) (data : Json) :
    (AddCall.storedJob env ⟨queue, name, envelope, jobOptions definition options⟩ data).attempts =
      some (.ofNat (definition.attempts env)) := by
  show ((options.attempts <|> definition.defaultJobOptions.attempts.map JsNumber.ofNat) <|>
    some (JsNumber.ofNat env.jobAttempts)) = _
  rw [h.attempts, JobDefinition.attempts]
  cases definition.defaultJobOptions.attempts <;> rfl

/-- A queue that the jobs of a definition are added to has a worker. -/
theorem consumed_of_mem (hmem : definition ∈ jobDefinitions fmt) (id : JsString) (attempts : ℕ) :
    TerminalFailure.Consumed ⟨definition.queue.text, id, attempts⟩ := by
  refine List.mem_map_of_mem ?_
  simp only [jobDefinitions, List.mem_cons, List.not_mem_nil, or_false] at hmem
  rcases hmem with rfl | rfl | rfl
  · exact List.mem_cons_self ..
  · exact List.mem_cons_of_mem _ (List.mem_cons_self ..)
  · exact List.mem_cons_of_mem _ (List.mem_cons_of_mem _ (List.mem_cons_self ..))

/-- What a handler has done that has succeeded. -/
theorem add_of_submit (h : route.submit fmt env newId request body = .ok result) :
    ∃ call, prepareAdd fmt request.enqueueContext route.jobName (splitEnqueueOptions body).2
        (splitEnqueueOptions body).1 = .ok call ∧
      queueAdd env newId call = .ok result.id ∧
      result = ⟨result.id, call.name, call.queue, (splitEnqueueOptions body).1.idempotencyKey⟩ := by
  unfold JobRoute.submit at h
  split at h
  · cases h
  · next call hcall =>
    split at h
    · cases h
    · next id hadd =>
      obtain rfl := Except.ok.inj h
      exact ⟨call, hcall, hadd, rfl⟩

/-- **What an add of a request has led to**, on a queue that has accepted it. -/
theorem exists_served {options : EnqueueOptions} {payload : Data} {call : AddCall}
    (htime : fmt.isoDatetime (toISOString request.now) = true)
    (hdefinition : getJobDefinition fmt route.jobName = some definition)
    (hpayload : definition.schema payload = .ok payload) (hrequested : options.Requested)
    (hcall : prepareAdd fmt request.enqueueContext route.jobName payload options = .ok call)
    (hadd : queueAdd env newId call = .ok result.id)
    (hresult : result.name = call.name ∧ result.queue = call.queue) :
    result.id = newId call ∧ ∃ data,
      Served fmt env request.enqueueContext options payload definition call result data := by
  obtain ⟨hmem, hname⟩ := mem_of_getJobDefinition hdefinition
  have hround := (stable_schema hmem _ _ hpayload).1
  have hadded := Except.ok.inj
    (hcall.symm.trans (prepareAdd_eq_ok request hdefinition hpayload hrequested))
  -- the envelope is stored as JSON, and comes back as it was
  obtain ⟨data, hstored, hback⟩ := Option.map_eq_some_iff.mp
    (roundTrip_envelope hround (stampMeta request.enqueueContext options))
  have hdata : call.data.toJson = some data := by
    rw [hadded]
    exact hstored
  have hlimit : call.options.sizeLimit = none := by
    rw [hadded]
    rfl
  have hvalid := (validate_envelope fmt (stampMeta request.enqueueContext options) hpayload
    (Schema.isUndefined_of_roundTrip hround) htime _).mpr
      ⟨idsInBounds_iff.mp (idsInBounds_of_requested hrequested), rfl⟩
  rw [← hback] at hvalid
  obtain ⟨-, hid⟩ := correlationIdOf_of_validate hvalid
  have hlookup : getJobDefinition fmt definition.name = some definition := by rwa [hname]
  rcases queueAdd_cases hlimit hdata with ⟨hfits, haccepted⟩ | ⟨-, message, hrefused⟩
  · refine ⟨Except.ok.inj (hadd.symm.trans haccepted), data, ?_, hdata, hfits,
      ⟨_, hvalid, rfl, rfl⟩, fun o ds l hfmt hrun => ?_, fun error count finishedOn => ?_⟩
    · rw [hresult.1, hresult.2, hadded]
      exact ⟨rfl, rfl⟩
    · subst hfmt
      rw [hadded] at hrun
      exact account_run hlookup hvalid (attempts_storedJob hrequested _ _ _ _) hrun
    · exact ⟨_, rfl, rfl, consumed_of_mem hmem _ _, (Data.str.inj hid).symm⟩
  · cases hadd.symm.trans hrefused

/-- **What becomes of an accepted request.** The answer names a job that the queue holds and that
the checks of the enqueuer have passed. Whatever its handlers, timeouts and aborts are, each attempt
at it starts the handler with the payload of the request and the correlation id that was stamped; it
is attempted no more often than its definition or the queue allows; and it is recorded exactly when
it fails for good, once, under an id that names its queue, its id and its attempts, with that
correlation id. -/
theorem request_account (hroute : route ∈ postRoutes fmt)
    (htime : fmt.isoDatetime (toISOString request.now) = true)
    (haccepted : postJob fmt env exposeInternals newId parse route request raw =
      .accepted result) :
    ∃ json body definition call data, parse raw = .ok (some json) ∧
      route.bodySchema (.ofJson json) = .ok body ∧
      getJobDefinition fmt route.jobName = some definition ∧
      prepareAdd fmt request.enqueueContext route.jobName (splitEnqueueOptions body).2
        (splitEnqueueOptions body).1 = .ok call ∧
      result.id = newId call ∧
      Served fmt env request.enqueueContext (splitEnqueueOptions body).1
        (splitEnqueueOptions body).2 definition call result data := by
  obtain ⟨json, body, hparse, hbody, hsubmit⟩ := submit_of_accepted hroute haccepted
  obtain ⟨call, hcall, hadd, hresult⟩ := add_of_submit hsubmit
  obtain ⟨definition, xs, options, hdefinition, hrequested, hxs, rfl, hagain⟩ :=
    bodySchema_ok hroute hbody
  have hsplit := splitEnqueueOptions_append hrequested hxs
  rw [hsplit] at hcall
  obtain ⟨hid, data, hserved⟩ := exists_served htime hdefinition hagain hrequested hcall hadd
    ⟨congrArg EnqueueResult.name hresult, congrArg EnqueueResult.queue hresult⟩
  refine ⟨json, _, definition, call, data, hparse, hbody, hdefinition, ?_, hid, ?_⟩
  · rw [hsplit]
    exact hcall
  · rw [hsplit]
    exact hserved

set_option maxRecDepth 4000 in
/-- A cleanup request leaves a job with its correlation header. -/
theorem request_account_cleanup : ∃ result options payload definition call data,
    postJob featureFormats .default false (fun _ => js "job-1") (parseOnly cleanupRequest)
        (cleanupRoute featureFormats) tracedRequest (rawJson cleanupRequest) = .accepted result ∧
      result.id = js "job-1" ∧
      Served featureFormats .default tracedRequest.enqueueContext options payload definition call
        result data := by
  obtain ⟨result, haccepted⟩ : ∃ result,
      postJob featureFormats .default false (fun _ => js "job-1") (parseOnly cleanupRequest)
        (cleanupRoute featureFormats) tracedRequest (rawJson cleanupRequest) = .accepted result :=
    ⟨_, rfl⟩
  obtain ⟨-, body, definition, call, data, -, -, -, -, hid, hserved⟩ :=
    request_account (by simp [postRoutes]) (by decide) haccepted
  exact ⟨result, _, _, definition, call, data, haccepted, hid, hserved⟩

end QueueWorkerKit
