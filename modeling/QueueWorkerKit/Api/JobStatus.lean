import QueueWorkerKit.Api.Errors
import QueueWorkerKit.Config.Defaults
import QueueWorkerKit.Library.Machine

/-!
# The status of a job

The route `GET /jobs/:queue/:id` of `api/routes/jobs.routes.ts`. The record and the state of a job
are read in two round trips, and the record again when the state is final and the record is not;
between the reads the job goes on through its lifecycle in Redis.

## Main definitions

* `StoredJob`, `lifecycle`: a job in Redis, and what can happen to it
* `JobRecord`, `getJob`, `getState`: what the reads return
* `JobStatusResponse`, `getJobStatus`: the projection of three reads
* `Coherent`: a response that agrees with the run its state is about
* `NotReopened`, `ReadsAgree`: what must not happen between the reads, and what it must not lead to

## Main results

* `run_of_finished`: only a manual retry or a removal changes a finished job
* `coherent_iff_agrees`: a response is coherent when the record used agrees with the state
* `coherent_of_notReopened`: it is when the job is not reopened between the reads that matter
* `coherent_iff_readsAgree`: **when the response is coherent**
-/

namespace QueueWorkerKit

open Ecma EventDriven

/-- Where a job waits to be run. -/
inductive Pending
  | waiting
  | prioritized
  | delayed
  deriving DecidableEq

/-- Where a job is in its life. A finished job has its outcome and the time it was reached: both are
written with the transition. -/
inductive JobPhase
  | pending (place : Pending)
  | active
  | completed (finishedOn : TimeValue) (value : Json)
  | failed (finishedOn : TimeValue) (reason : JsString)

/-- A job in Redis. The reason of an earlier failure stays through the retries it leads to. -/
structure StoredJob where
  id : Option JsString
  name : JsString
  data : Data
  progress : Json
  attemptsMade : ℕ
  timestamp : TimeValue
  processedOn : Option TimeValue
  earlierReason : Option JsString
  phase : JobPhase

/-- What can happen to a job. -/
inductive JobEvent
  | promote (place : Pending)
  | start (now : TimeValue)
  | complete (now : TimeValue) (value : Json)
  | failForGood (now : TimeValue) (reason : JsString)
  /-- A failed attempt with attempts left, after which the job waits again. -/
  | retryLater (reason : JsString) (place : Pending)
  /-- The manual retry of a finished job. -/
  | retryFinished (place : Pending)
  /-- The removal of a finished job by retention. -/
  | remove

/-- What an event makes of a job, `none` when it is removed; refused where it cannot happen. -/
def StoredJob.after (job : StoredJob) (e : JobEvent) : Option (Option StoredJob) :=
  match job.phase, e with
  | .pending .delayed, .promote place => some (some { job with phase := .pending place })
  | .pending .waiting, .start now =>
    some (some { job with phase := .active, processedOn := some now })
  | .pending .prioritized, .start now =>
    some (some { job with phase := .active, processedOn := some now })
  | .active, .complete now value =>
    some (some { job with phase := .completed now value, attemptsMade := job.attemptsMade + 1 })
  | .active, .failForGood now reason =>
    some (some { job with phase := .failed now reason, attemptsMade := job.attemptsMade + 1 })
  | .active, .retryLater reason place =>
    some (some { job with
      phase := .pending place
      earlierReason := some reason
      attemptsMade := job.attemptsMade + 1 })
  | .completed _ _, .retryFinished place =>
    some (some { job with phase := .pending place, processedOn := none })
  | .failed _ _, .retryFinished place =>
    some (some { job with phase := .pending place, processedOn := none, earlierReason := none })
  | .completed _ _, .remove => some none
  | .failed _ _, .remove => some none
  | _, _ => none

/-- The life of a job in Redis; a removed job stays removed. -/
def lifecycle : Machine (Option StoredJob) JobEvent where
  step job e := job.bind fun job => job.after e

/-- The fields of a job that are read. -/
structure JobRecord where
  id : Option JsString
  name : JsString
  data : Data
  progress : Json
  attemptsMade : ℕ
  timestamp : TimeValue
  processedOn : Option TimeValue
  finishedOn : Option TimeValue
  failedReason : Option JsString
  returnvalue : Json

def StoredJob.record (job : StoredJob) : JobRecord where
  id := job.id
  name := job.name
  data := job.data
  progress := job.progress
  attemptsMade := job.attemptsMade
  timestamp := job.timestamp
  processedOn := job.processedOn
  finishedOn :=
    match job.phase with
    | .completed finishedOn _ => some finishedOn
    | .failed finishedOn _ => some finishedOn
    | _ => none
  failedReason :=
    match job.phase with
    | .failed _ reason => some reason
    | _ => job.earlierReason
  -- a job without a return value reads as `null`
  returnvalue :=
    match job.phase with
    | .completed _ value => value
    | _ => .null

/-- The states that `getState` tells apart here. -/
inductive JobState
  | pending (place : Pending)
  | active
  | completed
  | failed
  | unknown
  deriving DecidableEq

def JobState.text : JobState → JsString
  | pending .waiting => js "waiting"
  | pending .prioritized => js "prioritized"
  | pending .delayed => js "delayed"
  | active => js "active"
  | completed => js "completed"
  | failed => js "failed"
  | unknown => js "unknown"

def getJob (job : Option StoredJob) : Option JobRecord := job.map StoredJob.record

def getState : Option StoredJob → JobState
  | none => .unknown
  | some job =>
    match job.phase with
    | .pending place => .pending place
    | .active => .active
    | .completed _ _ => .completed
    | .failed _ _ => .failed

/-- Job state as the API reports it. -/
structure JobStatusResponse where
  id : JsString
  name : JsString
  queue : JsString
  state : JobState
  progress : Json
  attemptsMade : ℕ
  correlationId : Option JsString
  createdAt : Option JsString
  processedAt : Option JsString
  finishedAt : Option JsString
  failedReason : Option JsString
  result : Json

/-- The record the response is built from: read again, if it is still there, when the state is final
and the first record is not. -/
def recordUsed (first : JobRecord) (state : JobState) (again : Option JobRecord) : JobRecord :=
  if (state = .completed ∨ state = .failed) ∧ first.finishedOn = none then again.getD first
  else first

/-- The projection of a record and a state. -/
def projectJob (queueName id : JsString) (job : JobRecord) (state : JobState) :
    JobStatusResponse where
  id := job.id.getD id
  name := job.name
  queue := queueName
  state := state
  progress := job.progress
  attemptsMade := job.attemptsMade
  correlationId := ((job.data.get (js "meta")).get (js "correlationId")).string?
  createdAt := if job.timestamp.ms > 0 then some (toISOString job.timestamp) else none
  processedAt := job.processedOn.map toISOString
  finishedAt := job.finishedOn.map toISOString
  failedReason := if state = .failed then job.failedReason else none
  result := if state = .completed then job.returnvalue else .null

/-- The route, on the three reads of a request. -/
def getJobStatus (readable queues : List QueueName) (queueName id : JsString)
    (first : Option JobRecord) (state : JobState) (again : Option JobRecord) :
    Except ApiError JobStatusResponse :=
  if queueName ∉ readable.map QueueName.text ∨ queueName ∉ queues.map QueueName.text then
    .error (notFound (js "Unknown queue \"" ++ queueName ++ js "\""))
  else
    match first with
    | none =>
      .error (notFound (js "Job \"" ++ id ++ js "\" was not found in queue \"" ++ queueName ++
        js "\""))
    | some job => .ok (projectJob queueName id (recordUsed job state again) state)

/-- A response that agrees with the run its state is about: the run that had completed, or failed,
when the state was read. -/
structure Coherent (observed : Option StoredJob) (response : JobStatusResponse) : Prop where
  completed : response.state = .completed → response.finishedAt ≠ none ∧
    ∃ job finishedOn, observed = some job ∧ job.phase = .completed finishedOn response.result
  failed : response.state = .failed → response.finishedAt ≠ none ∧ response.failedReason ≠ none

def StoredJob.Finished (job : StoredJob) : Prop :=
  match job.phase with
  | .completed _ _ => True
  | .failed _ _ => True
  | _ => False

/-- A record with the outcome of a finished job: its return value, or some reason of failure. -/
def JobRecord.HasOutcomeOf (r : JobRecord) (observed : StoredJob) : Prop :=
  match observed.phase with
  | .completed _ value => r.returnvalue = value
  | .failed _ _ => r.failedReason ≠ none
  | _ => True

/-- An event that takes a finished job out of its final state. -/
def JobEvent.Reopens : JobEvent → Prop
  | retryFinished _ => True
  | remove => True
  | _ => False

/-- What must not happen between the reads. The response uses the first record when that is of a
finished job, and then the job must not be reopened before its state is read; otherwise it uses the
second one, and then the job must not be reopened in between. -/
def NotReopened (first : StoredJob) (between later : List JobEvent) : Prop :=
  (first.Finished → ∀ e ∈ between, ¬ e.Reopens) ∧
    (¬ first.Finished → ∀ e ∈ later, ¬ e.Reopens)

/-- The job is not reopened between the reads that matter, or has by the second of them finished
again with the same outcome. -/
def ReadsAgree (first : StoredJob) (between : List JobEvent) (observed : Option StoredJob)
    (later : List JobEvent) (last : Option StoredJob) : Prop :=
  ∀ job, observed = some job → job.Finished →
    (first.Finished → (∀ e ∈ between, ¬ e.Reopens) ∨ first.record.HasOutcomeOf job) ∧
    (¬ first.Finished → (∀ e ∈ later, ¬ e.Reopens) ∨
      ∃ again, last = some again ∧ again.Finished ∧ again.record.HasOutcomeOf job)

variable {job first : StoredJob} {observed last : Option StoredJob} {between later : List JobEvent}

theorem finishedOn_record : job.record.finishedOn ≠ none ↔ job.Finished := by
  unfold StoredJob.record StoredJob.Finished
  cases job.phase <;> simp

/-- A job has its own outcome on record. -/
theorem hasOutcomeOf_self : job.record.HasOutcomeOf job := by
  unfold StoredJob.record JobRecord.HasOutcomeOf
  cases hphase : job.phase with
  | failed finishedOn reason => simp
  | _ => trivial

/-- **Only reopening changes a finished job.** -/
theorem run_of_finished (h : job.Finished) (hevents : ∀ e ∈ between, ¬ e.Reopens)
    (hrun : lifecycle.run (some job) between = some last) : last = some job := by
  cases between with
  | nil => exact (Option.some.inj hrun).symm
  | cons e rest =>
    obtain ⟨next, hnext, -⟩ := Machine.run_cons.mp hrun
    -- a finished job takes no event but those that reopen it
    have hreopens : e.Reopens := by
      change job.after e = some next at hnext
      unfold StoredJob.after at hnext
      unfold StoredJob.Finished at h
      cases hphase : job.phase with
      | pending place => simp [hphase] at h
      | active => simp [hphase] at h
      | completed finishedOn value =>
        cases e <;> simp [hphase] at hnext <;> trivial
      | failed finishedOn reason =>
        cases e <;> simp [hphase] at hnext <;> trivial
    exact absurd hreopens (hevents e (List.mem_cons_self ..))

/-- What a response that is not an error was projected from. -/
theorem getJobStatus_ok {readable queues : List QueueName} {queueName id : JsString}
    {record again : Option JobRecord} {state : JobState} {response : JobStatusResponse}
    (h : getJobStatus readable queues queueName id record state again = .ok response) :
    ∃ r, record = some r ∧ response = projectJob queueName id (recordUsed r state again) state := by
  unfold getJobStatus at h
  split_ifs at h
  cases record with
  | none => cases h
  | some r => exact ⟨r, rfl, (Except.ok.inj h).symm⟩

theorem getState_final : (getState (some job) = .completed ∨ getState (some job) = .failed) ↔
    job.Finished := by
  unfold StoredJob.Finished
  cases hphase : job.phase <;> simp [getState, hphase]

/-- A response whose state is not final claims nothing. -/
theorem coherent_of_state {response : JobStatusResponse} (hcompleted : response.state ≠ .completed)
    (hfailed : response.state ≠ .failed) : Coherent observed response where
  completed h := absurd h hcompleted
  failed h := absurd h hfailed

/-- A response about a completed job has its time and its return value from the record. -/
theorem coherent_completed {finishedOn : TimeValue} {value : Json}
    (hphase : job.phase = .completed finishedOn value) (queueName id : JsString) (r : JobRecord) :
    Coherent (some job) (projectJob queueName id r .completed) ↔
      r.finishedOn ≠ none ∧ r.returnvalue = value := by
  have hat : (projectJob queueName id r .completed).finishedAt ≠ none ↔ r.finishedOn ≠ none := by
    simp [projectJob]
  constructor
  · rintro ⟨hcompleted, -⟩
    obtain ⟨hfinished, job', finishedOn', hjob, hresult⟩ := hcompleted rfl
    obtain rfl := Option.some.inj hjob
    obtain ⟨-, hvalue⟩ := JobPhase.completed.inj (hphase.symm.trans hresult)
    exact ⟨hat.mp hfinished, hvalue.symm⟩
  · rintro ⟨hfinished, rfl⟩
    refine ⟨fun _ => ⟨hat.mpr hfinished, job, finishedOn, rfl, hphase⟩, ?_⟩
    intro hstate
    cases hstate

/-- A response about a failed job has its time and the reason from the record. -/
theorem coherent_failed (queueName id : JsString) (r : JobRecord) :
    Coherent observed (projectJob queueName id r .failed) ↔
      r.finishedOn ≠ none ∧ r.failedReason ≠ none := by
  have hat : (projectJob queueName id r .failed).finishedAt ≠ none ↔ r.finishedOn ≠ none := by
    simp [projectJob]
  constructor
  · rintro ⟨-, hfailed⟩
    obtain ⟨hfinished, hreason⟩ := hfailed rfl
    exact ⟨hat.mp hfinished, hreason⟩
  · rintro ⟨hfinished, hreason⟩
    refine ⟨?_, fun _ => ⟨hat.mpr hfinished, hreason⟩⟩
    intro hstate
    cases hstate

/-- **A response is coherent when the record used agrees with the state**: if that is final, the
record is of a finished job with the outcome the state is about. -/
theorem coherent_iff_agrees (queueName id : JsString) (r : JobRecord) :
    Coherent observed (projectJob queueName id r (getState observed)) ↔
      ∀ job, observed = some job → job.Finished → r.finishedOn ≠ none ∧ r.HasOutcomeOf job := by
  cases observed with
  | none =>
    refine iff_of_true (coherent_of_state nofun nofun) ?_
    intro job h
    cases h
  | some job =>
    simp only [Option.some.injEq, forall_eq']
    -- One case for each phase: in the first two the state is not final.
    cases hphase : job.phase with
    | pending place =>
      have hstate : getState (some job) = .pending place := by simp [getState, hphase]
      rw [hstate]
      refine iff_of_true (coherent_of_state nofun nofun) ?_
      simp [StoredJob.Finished, hphase]
    | active =>
      have hstate : getState (some job) = .active := by simp [getState, hphase]
      rw [hstate]
      refine iff_of_true (coherent_of_state nofun nofun) ?_
      simp [StoredJob.Finished, hphase]
    | completed finishedOn value =>
      have hstate : getState (some job) = .completed := by simp [getState, hphase]
      rw [hstate, coherent_completed hphase]
      simp [StoredJob.Finished, JobRecord.HasOutcomeOf, hphase]
    | failed finishedOn reason =>
      have hstate : getState (some job) = .failed := by simp [getState, hphase]
      rw [hstate, coherent_failed]
      simp [StoredJob.Finished, JobRecord.HasOutcomeOf, hphase]

/-- The projection of the record that the route uses, against what happens between its reads. -/
theorem coherent_projectJob_iff (queueName id : JsString)
    (hbetween : lifecycle.run (some first) between = some observed)
    (hlater : lifecycle.run observed later = some last) :
    Coherent observed (projectJob queueName id
        (recordUsed first.record (getState observed) (getJob last)) (getState observed)) ↔
      ReadsAgree first between observed later last := by
  rw [coherent_iff_agrees]
  apply forall_congr'
  intro job
  apply imp_congr_right
  rintro rfl
  apply imp_congr_right
  intro hjob
  have hfinal := getState_final.mpr hjob
  by_cases hfirst : first.Finished
  · -- the first record is final, and is used
    have hused : recordUsed first.record (getState (some job)) (getJob last) = first.record :=
      if_neg fun h => finishedOn_record.mpr hfirst h.2
    rw [hused]
    constructor
    · rintro ⟨-, houtcome⟩
      exact ⟨fun _ => Or.inr houtcome, fun hnot => absurd hfirst hnot⟩
    · rintro ⟨hagree, -⟩
      refine ⟨finishedOn_record.mpr hfirst, ?_⟩
      rcases hagree hfirst with hkept | houtcome
      · obtain rfl := Option.some.inj (run_of_finished hfirst hkept hbetween)
        exact hasOutcomeOf_self
      · exact houtcome
  · -- the first record is not final, and the second one is used where there is one
    have hnone : first.record.finishedOn = none := by
      by_contra h
      exact hfirst (finishedOn_record.mp h)
    have hused : recordUsed first.record (getState (some job)) (getJob last) =
        (getJob last).getD first.record := if_pos ⟨hfinal, hnone⟩
    rw [hused]
    constructor
    · rintro ⟨hat, houtcome⟩
      refine ⟨fun h => absurd h hfirst, fun _ => Or.inr ?_⟩
      cases last with
      | none => exact absurd hnone hat
      | some again => exact ⟨again, rfl, finishedOn_record.mp hat, houtcome⟩
    · rintro ⟨-, hagree⟩
      rcases hagree hfirst with hkept | ⟨again, rfl, hagain, houtcome⟩
      · obtain rfl := run_of_finished hjob hkept hlater
        exact ⟨finishedOn_record.mpr hjob, hasOutcomeOf_self⟩
      · exact ⟨finishedOn_record.mpr hagain, houtcome⟩

/-- **A job that is not reopened is reported coherently.** Whatever else happens to it between the
reads, the response agrees with the run its state is about. -/
theorem coherent_of_notReopened {readable queues : List QueueName} {queueName id : JsString}
    {response : JobStatusResponse} (hkept : NotReopened first between later)
    (hbetween : lifecycle.run (some first) between = some observed)
    (hlater : lifecycle.run observed later = some last)
    (hresponse : getJobStatus readable queues queueName id (getJob (some first))
      (getState observed) (getJob last) = .ok response) : Coherent observed response := by
  obtain ⟨r, hr, rfl⟩ := getJobStatus_ok hresponse
  obtain rfl := Option.some.inj hr
  refine (coherent_projectJob_iff queueName id hbetween hlater).mpr fun job _ _ => ?_
  exact ⟨fun h => Or.inl (hkept.1 h), fun h => Or.inl (hkept.2 h)⟩

/-- **When the response is coherent.** Whatever happens to the job between the reads, a response is
coherent exactly when the job was not taken out of its final state between its state and the record
the response uses, or has by then finished again with the same outcome. -/
theorem coherent_iff_readsAgree (readable queues : List QueueName) (queueName id : JsString)
    (first : StoredJob) (between later : List JobEvent) (observed last : Option StoredJob)
    (response : JobStatusResponse)
    (hbetween : lifecycle.run (some first) between = some observed)
    (hlater : lifecycle.run observed later = some last)
    (hresponse : getJobStatus readable queues queueName id (getJob (some first))
      (getState observed) (getJob last) = .ok response) :
    Coherent observed response ↔ ReadsAgree first between observed later last := by
  obtain ⟨r, hr, rfl⟩ := getJobStatus_ok hresponse
  obtain rfl := Option.some.inj hr
  exact coherent_projectJob_iff queueName id hbetween hlater

/-! ### A clean-up job -/

def waitingCleanup : StoredJob where
  id := some (js "1")
  name := js "maintenance.cleanup"
  data := .obj []
  progress := .num 0 (js "0")
  attemptsMade := 0
  timestamp := ⟨1772539200000, by decide⟩
  processedOn := none
  earlierReason := none
  phase := .pending .waiting

def failedCleanup : StoredJob :=
  { waitingCleanup with phase := .failed .epoch (js "connection lost"), attemptsMade := 2 }

theorem coherent_iff_readsAgree_settling : ∃ observed response,
    lifecycle.run (some waitingCleanup) [.start .epoch, .complete .epoch (.bool true)] =
        some observed ∧
      getJobStatus allQueueNames allQueueNames (js "maintenance") (js "1")
        (getJob (some waitingCleanup)) (getState observed) (getJob observed) = .ok response ∧
      Coherent observed response := by
  refine ⟨_, _, rfl, rfl, ?_⟩
  apply (coherent_iff_readsAgree allQueueNames allQueueNames (js "maintenance") (js "1")
    waitingCleanup [.start .epoch, .complete .epoch (.bool true)] [] _ _ _ rfl rfl rfl).mpr
  intro job hjob _
  obtain rfl := Option.some.inj hjob
  refine ⟨fun h => absurd h id, fun _ => Or.inl ?_⟩
  intro e he
  exact absurd he List.not_mem_nil

/-- **A snapshot that is stale although it is final.** A failed job is retried by hand and completes
between the two reads: the response says that it completed, with the result `null` of the failed
record. A job that is removed before it is read again is reported as completed at no time. -/
theorem reopened_job_reads_incoherent :
    (∃ observed response,
      lifecycle.run (some failedCleanup)
          [.retryFinished .waiting, .start .epoch, .complete .epoch (.bool true)] =
          some observed ∧
        getJobStatus allQueueNames allQueueNames (js "maintenance") (js "1")
          (getJob (some failedCleanup)) (getState observed) (getJob observed) = .ok response ∧
        response.state = .completed ∧ response.result = .null ∧ ¬ Coherent observed response) ∧
    ∃ observed response,
      lifecycle.run (some waitingCleanup) [.start .epoch, .complete .epoch (.bool true)] =
          some observed ∧
        lifecycle.run observed [.remove] = some none ∧
        getJobStatus allQueueNames allQueueNames (js "maintenance") (js "1")
          (getJob (some waitingCleanup)) (getState observed) (getJob none) = .ok response ∧
        response.state = .completed ∧ response.finishedAt = none ∧
        ¬ Coherent observed response := by
  constructor
  · refine ⟨_, _, rfl, rfl, rfl, rfl, ?_⟩
    rintro ⟨hcompleted, -⟩
    obtain ⟨-, job, finishedOn, hjob, hphase⟩ := hcompleted rfl
    obtain rfl := Option.some.inj hjob
    -- the run that completed returned `true`
    cases hphase
  · refine ⟨_, _, rfl, rfl, rfl, rfl, rfl, ?_⟩
    rintro ⟨hcompleted, -⟩
    exact (hcompleted rfl).1 rfl

end QueueWorkerKit
