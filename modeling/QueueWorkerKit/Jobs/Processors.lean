import QueueWorkerKit.Jobs.Cleanup
import QueueWorkerKit.Library.AsyncBody
import QueueWorkerKit.Utils.Sleep
import Mathlib.Data.Nat.Digits.Defs

/-!
# The processors

The processors of the three jobs, as asynchronous functions. They await sleeps on the signal of
their job and, the longest of them, updates of its progress. In between the signal may be aborted,
other code may add and remove listeners of its own on it, and the clock goes on. An asynchronous
function that is awaited is a part of the one that awaits it.

## Main definitions

* `Operation`, `Surroundings`, `environment`: what a processor awaits, and what surrounds it
* `throwIfAborted`, `sleep`, `updateProgress`: what a processor does
* `createGenerateReportProcessor`, `createDemoEmailProvider`, `createSendEmailProcessor`,
  `createCleanupProcessor`: the processors
* `abortSignal`: what an abort of the signal means for them

## Main results

* `settled_of_sleep`: a promise of a sleep that has settled stays as it is
* `follows_sleeps`: the sleeps of a processor are sleeps on its signal
-/

namespace QueueWorkerKit

open Ecma EventDriven

inductive ReportStage
  | query
  | transform
  | serialize
  | done
  deriving DecidableEq

structure ReportProgress where
  percent : ℕ
  stage : ReportStage
  deriving DecidableEq

inductive ReportFormat
  | csv
  | json
  deriving DecidableEq

structure GenerateReportPayload where
  reportId : JsString
  requestedBy : JsString
  format : ReportFormat

structure GenerateReportResult where
  reportId : JsString
  format : ReportFormat
  generatedRows : ℕ
  bytes : ℕ

structure SendEmailPayload where
  recipient : JsString
  template : JsString
  userId : JsString

structure SendEmailResult where
  delivered : Bool
  providerMessageId : JsString
  template : JsString

/-- A digit in base 36: `0` to `9`, and `a` to `z` after them. -/
def radix36Digit (d : ℕ) : UInt16 := (if d < 10 then 0x30 + d else 0x57 + d).toUInt16

/-- A number in base 36, as `toString(36)` writes it. -/
def radix36 (value : ℤ) : JsString :=
  let digits :=
    if value = 0 then [radix36Digit 0] else (Nat.digits 36 value.natAbs).reverse.map radix36Digit
  if value < 0 then js "-" ++ digits else digits

example : radix36 1772539384567 = js "mmak6mev" := by decide

namespace Processors

/-! ## What surrounds a processor -/

/-- An operation that a processor awaits. -/
inductive Operation
  | sleep (ms : ℕ)
  | updateProgress (progress : ReportProgress)
  deriving DecidableEq

/-- The signal of a job with the sleeps that were called on it, the updates of its progress that
were called with their settlements, and the clock. -/
structure Surroundings (κ : Type) where
  sleeps : SleepState ℕ κ
  updates : ℕ → Option (Option (Settlement Unit Thrown))
  clock : TimeValue

/-- A processor calls an operation, a timer fires, the signal is aborted, other code adds or removes
a listener of its own, an update settles, or time passes. -/
inductive Event (κ : Type)
  | sleep (n ms : ℕ)
  | updateProgress (n : ℕ) (progress : ReportProgress)
  | timer (n : ℕ)
  | abort (reason : JsValue)
  | listen (k : κ) (once : Bool)
  | unlisten (k : κ)
  | updateSettles (n : ℕ) (settled : Settlement Unit Thrown)
  | tick (now : TimeValue)

variable {κ : Type}

/-- What happens to the signal and the sleeps on it. -/
def sleepEvents : Event κ → List (SleepEvent ℕ κ)
  | .sleep n ms => [.sleep n (.ofNat ms) true]
  | .timer n => [.timer n]
  | .abort reason => [.abort reason]
  | .listen k once => [.listen k once]
  | .unlisten k => [.unlisten k]
  | _ => []

section Machine

variable [DecidableEq κ]

/-- An event of the signal or of a sleep on it. -/
def Surroundings.onSignal (h : Heap ErrorClass) (s : Surroundings κ) (e : SleepEvent ℕ κ) :
    Option (Surroundings κ) :=
  ((SleepState.machine h).step s.sleeps e).map fun sleeps => { s with sleeps }

def machine (h : Heap ErrorClass) : Machine (Surroundings κ) (Event κ) where
  step s
    | .sleep n ms => s.onSignal h (.sleep n (.ofNat ms) true)
    | .updateProgress n _ =>
      match s.updates n with
      | none => some { s with updates := Function.update s.updates n (some none) }
      | some _ => none
    | .timer n => s.onSignal h (.timer n)
    | .abort reason => s.onSignal h (.abort reason)
    | .listen k once => s.onSignal h (.listen k once)
    | .unlisten k => s.onSignal h (.unlisten k)
    | .updateSettles n r =>
      match s.updates n with
      | some none => some { s with updates := Function.update s.updates n (some (some r)) }
      | _ => none
    | .tick now => some { s with clock := now }

/-- The promise of an operation of a number. -/
def promise (s : Surroundings κ) (n : ℕ) : Operation → Option (Settlement Unit Thrown)
  | .sleep _ => (s.sleeps.sleeps.promise n).bind List.head?
  | .updateProgress _ => (s.updates n).join

variable {h : Heap ErrorClass} {s t : Surroundings κ} {e : Event κ} {n : ℕ}
  {r : Settlement Unit Thrown}

/-- What each event does where it can happen. -/
inductive Step (h : Heap ErrorClass) (s : Surroundings κ) : Event κ → Surroundings κ → Prop
  | signal (e : Event κ) (f : SleepEvent ℕ κ) (sleeps : SleepState ℕ κ)
      (events : sleepEvents e = [f])
      (step : (SleepState.machine h).step s.sleeps f = some sleeps) : Step h s e { s with sleeps }
  | update (n : ℕ) (progress : ReportProgress) (fresh : s.updates n = none) :
      Step h s (.updateProgress n progress)
        { s with updates := Function.update s.updates n (some none) }
  | settles (n : ℕ) (r : Settlement Unit Thrown) (pending : s.updates n = some none) :
      Step h s (.updateSettles n r)
        { s with updates := Function.update s.updates n (some (some r)) }
  | tick (now : TimeValue) : Step h s (.tick now) { s with clock := now }

theorem step_of_onSignal {f : SleepEvent ℕ κ} (hevents : sleepEvents e = [f])
    (hstep : s.onSignal h f = some t) : Step h s e t := by
  obtain ⟨sleeps, hsleeps, rfl⟩ := Option.map_eq_some_iff.mp hstep
  exact .signal e f sleeps hevents hsleeps

/-- **What a step does**: one case for the signal, and one for each other event. -/
theorem step_cases (hstep : (machine h).step s e = some t) : Step h s e t := by
  cases e with
  | sleep n ms => exact step_of_onSignal rfl hstep
  | timer n => exact step_of_onSignal rfl hstep
  | abort reason => exact step_of_onSignal rfl hstep
  | listen k once => exact step_of_onSignal rfl hstep
  | unlisten k => exact step_of_onSignal rfl hstep
  | tick now =>
    obtain rfl := Option.some.inj hstep
    exact .tick now
  | updateProgress n progress =>
    simp only [machine] at hstep
    split at hstep
    · next hfresh =>
      obtain rfl := Option.some.inj hstep
      exact .update n progress hfresh
    · cases hstep
  | updateSettles n r =>
    simp only [machine] at hstep
    split at hstep
    · next hpending =>
      obtain rfl := Option.some.inj hstep
      exact .settles n r hpending
    · cases hstep

/-- **The sleeps of a processor** are sleeps on its signal. -/
theorem follows_sleeps : (machine (κ := κ) h).Follows (SleepState.machine h) Surroundings.sleeps
    fun _ => sleepEvents := by
  intro s e t hstep
  cases step_cases hstep with
  | signal e f sleeps events step =>
    show (SleepState.machine h).run s.sleeps (sleepEvents e) = some sleeps
    rw [events]
    exact Machine.run_cons.mpr ⟨sleeps, step, rfl⟩
  | update n progress fresh => rfl
  | settles n r pending => rfl
  | tick now => rfl

/-- The promise of a sleep that has settled stays as it is. -/
theorem settled_of_sleep {u v : SleepState ℕ κ} {f : SleepEvent ℕ κ}
    (hstep : (SleepState.machine h).step u f = some v)
    (hr : (u.sleeps.promise n).bind List.head? = some r) :
    (v.sleeps.promise n).bind List.head? = some r := by
  obtain ⟨received, hreceived, hhead⟩ := Option.bind_eq_some_iff.mp hr
  -- a sleep that was called before is called no more, and only receives more
  have hkeep : v.sleeps.promise n = some received ∨
      ∃ more, v.sleeps.promise n = some (received ++ more) := by
    cases SleepState.step_cases hstep with
    | refused i ms signal reason fresh found =>
      have hne : n ≠ i := by
        rintro rfl
        cases fresh.symm.trans hreceived
      left
      show ((u.sleeps.create i).settle i _).promise n = some received
      rw [SleepState.promise_settle, if_neg hne, SleepState.promise_create, if_neg hne, hreceived]
    | waits i ms signal fresh found =>
      have hne : n ≠ i := by
        rintro rfl
        cases fresh.symm.trans hreceived
      left
      rw [SleepState.sleeps_sleep found, SleepState.promise_setTimeout, SleepState.promise_create,
        if_neg hne, hreceived]
    | fires i timer armed =>
      rw [SleepState.promise_fire]
      split_ifs with hni
      · right
        rw [← hni, hreceived]
        exact ⟨_, rfl⟩
      · exact Or.inl hreceived
    | abort reason fresh =>
      rw [SleepState.abort_of_fresh fresh]
      simp only [SleepState.promise_foldl_notified u.target.nodup_callbacks]
      split_ifs
      · right
        rw [hreceived]
        exact ⟨_, rfl⟩
      · exact Or.inl hreceived
    | again reason aborted => exact Or.inl hreceived
    | listen k once => exact Or.inl hreceived
    | unlisten k => exact Or.inl hreceived
  rcases hkeep with hkeep | ⟨more, hkeep⟩
  · rw [hkeep]
    exact hhead
  · rw [hkeep]
    show (received ++ more).head? = some r
    rw [List.head?_append, hhead, Option.some_or]

theorem promise_of_step {op : Operation} (hstep : (machine h).step s e = some t)
    (hr : promise s n op = some r) : promise t n op = some r := by
  cases op with
  | sleep ms =>
    cases step_cases hstep with
    | signal e f sleeps events step => exact settled_of_sleep step hr
    | update i progress fresh => exact hr
    | settles i r' pending => exact hr
    | tick now => exact hr
  | updateProgress progress =>
    have hupdate : s.updates n = some (some r) := Option.join_eq_some_iff.mp hr
    cases step_cases hstep with
    | signal e f sleeps events step => exact hr
    | update i progress' fresh =>
      have hne : n ≠ i := by
        rintro rfl
        cases fresh.symm.trans hupdate
      show (Function.update s.updates i _ n).join = some r
      rwa [Function.update_of_ne hne]
    | settles i r' pending =>
      have hne : n ≠ i := by
        rintro rfl
        cases pending.symm.trans hupdate
      show (Function.update s.updates i _ n).join = some r
      rwa [Function.update_of_ne hne]
    | tick now => exact hr

/-- The surroundings of a processor. -/
def environment (h : Heap ErrorClass) :
    AsyncEnvironment (Surroundings κ) (Event κ) Operation Unit Thrown where
  machine := machine h
  call
    | n, .sleep ms => .sleep n ms
    | n, .updateProgress progress => .updateProgress n progress
  isCall
    | .sleep _ _ => true
    | .updateProgress _ _ => true
    | _ => false
  promise := promise
  promise_of_step := promise_of_step

theorem reason_of_step {u v : SleepState ℕ κ} {f : SleepEvent ℕ κ} {reason : JsValue}
    (hstep : (SleepState.machine h).step u f = some v) (hreason : u.reason = some reason) :
    v.reason = some reason := by
  cases SleepState.step_cases hstep with
  | refused i ms signal reason' fresh found => exact hreason
  | waits i ms signal fresh found => rw [SleepState.reason_sleep found, hreason]
  | fires i timer armed => rw [SleepState.reason_fire, hreason]
  | abort reason' fresh => cases fresh.symm.trans hreason
  | again reason' aborted => exact hreason
  | listen k once => exact hreason
  | unlisten k => exact hreason

/-- A sleep on an aborted signal is rejected at once. -/
theorem rejected_of_sleep {u v : SleepState ℕ κ} {ms : JsNumber} (haborted : u.reason ≠ none)
    (hstep : (SleepState.machine h).step u (.sleep n ms true) = some v) :
    ∃ error, (v.sleeps.promise n).bind List.head? = some (.rejected error) := by
  cases SleepState.step_cases hstep with
  | refused i ms signal reason fresh found =>
    refine ⟨SleepState.refusal h reason, ?_⟩
    show (((u.sleeps.create n).settle n _).promise n).bind List.head? = _
    rw [SleepState.promise_settle, if_pos rfl, SleepState.promise_create, if_pos rfl]
    rfl
  | waits i ms signal fresh found => exact absurd found haborted

/-- What an abort of the signal means for a processor: the sleeps that it calls are rejected. -/
def abortSignal (h : Heap ErrorClass) : AbortSignal (environment (κ := κ) h) where
  aborted s := s.sleeps.reason ≠ none
  refuses
    | .sleep _ => true
    | .updateProgress _ => false
  aborted_of_step := by
    intro s e t hstep haborted
    obtain ⟨reason, hreason⟩ := Option.ne_none_iff_exists'.mp haborted
    cases step_cases hstep with
    | signal e f sleeps events step =>
      show sleeps.reason ≠ none
      rw [reason_of_step step hreason]
      exact Option.some_ne_none reason
    | update n progress fresh => exact haborted
    | settles n r pending => exact haborted
    | tick now => exact haborted
  lost_of_refuses := by
    intro s n op t haborted hrefuses hstep
    cases op with
    | sleep ms =>
      obtain ⟨sleeps, hsleeps, rfl⟩ := Option.map_eq_some_iff.mp hstep
      obtain ⟨error, herror⟩ := rejected_of_sleep haborted hsleeps
      exact AsyncEnvironment.lost_of_rejected herror
    | updateProgress progress => cases hrefuses

end Machine

/-! ## The processors -/

/-- The body of an asynchronous function of a processor. -/
abbrev Body (κ A : Type) := AsyncBody (Surroundings κ) Operation Unit Thrown A

def sleep (ms : ℕ) : Body κ Unit := .awaits (.sleep ms) .returns

def updateProgress (progress : ReportProgress) : Body κ Unit :=
  .awaits (.updateProgress progress) .returns

/-- The time of the clock. -/
def dateNow : Body κ TimeValue := .reads fun s => .returns s.clock

/-- Throws if the job has been cancelled. -/
def throwIfAborted (h : Heap ErrorClass) : Body κ Unit :=
  .reads fun s =>
    match s.sleeps.reason with
    | some reason => .throws (SleepState.refusal h reason)
    | none => .returns ()

structure Stage where
  stage : ReportStage
  percent : ℕ
  workMs : ℕ

def stages : List Stage :=
  [⟨.query, 10, 40⟩, ⟨.transform, 40, 40⟩, ⟨.serialize, 70, 40⟩, ⟨.done, 100, 0⟩]

def rowsPerReport : ℕ := 2500

/-- The body of the loop over the stages. -/
def runStage (h : Heap ErrorClass) (stage : Stage) : Body κ Unit := do
  throwIfAborted h
  if stage.workMs > 0 then
    sleep stage.workMs
  updateProgress ⟨stage.percent, stage.stage⟩

def reportResult (data : GenerateReportPayload) : GenerateReportResult where
  reportId := data.reportId
  format := data.format
  generatedRows := rowsPerReport
  bytes := if data.format = .csv then rowsPerReport * 42 else rowsPerReport * 96

def createGenerateReportProcessor (h : Heap ErrorClass) (data : GenerateReportPayload) :
    Body κ GenerateReportResult := do
  stages.forM (runStage h)
  return reportResult data

/-- What a provider is asked to send. -/
structure EmailMessage where
  recipient : JsString
  template : JsString
  userId : JsString
  correlationId : JsString

/-- A provider sends a message, and answers with its id. -/
abbrev EmailProvider (κ : Type) := EmailMessage → Body κ JsString

/-- The templates that the demo provider knows about. -/
def knownTemplates : List JsString :=
  [js "welcome", js "password-reset", js "receipt", js "invite"]

/-- An address that the demo provider rejects for now. -/
def isRejectedAddress (recipient : JsString) : Bool :=
  (js "@example.invalid").isSuffixOf recipient

def createDemoEmailProvider (latencyMs : Option ℕ) : EmailProvider κ := fun message => do
  if message.template ∉ knownTemplates then
    .throws (.kit (.nonRetryable
      (js "Unknown email template \"" ++ message.template ++ js "\"")))
  sleep (latencyMs.getD 25)
  if isRejectedAddress message.recipient then
    .throws (.kit (.transient (js "Email provider temporarily rejected the request")))
  let now ← dateNow
  return js "demo_" ++ message.userId ++ js "_" ++ radix36 now.ms

def createSendEmailProcessor (provider : EmailProvider κ) (correlationId : JsString)
    (data : SendEmailPayload) : Body κ SendEmailResult := do
  let providerMessageId ←
    provider ⟨data.recipient, data.template, data.userId, correlationId⟩
  return { delivered := true, providerMessageId, template := data.template }

def createCleanupProcessor (data : CleanupPayload) : Body κ CleanupResult := do
  let now ← dateNow
  let scanned := countStaleRecords now (dateParse data.before)
  sleep 20
  let removed := if data.dryRun then JsNumber.ofNat 0 else scanned
  return { before := data.before, dryRun := data.dryRun, scanned, removed }

end Processors

end QueueWorkerKit
