import QueueWorkerKit.Worker.ConcurrentAttempts
import QueueWorkerKit.Worker.DeadLetter
import Mathlib.Data.Finset.Prod

/-!
# The labels of the job metrics

The workers of a process, which hand the jobs they are delivered to the processors and the terminal
failures to the dead-letter writer, and the label values that these two record. A job is recorded
under the name it was stored with, whether or not a build knows that name.

## Main definitions

* `Delivery`, `Workers`: a job as a worker is handed it, and the workers of a process
* `Workers.machine`: the processors and the writer, which run at the same time
* `WorkersState.jobLabels`, `WorkersState.queueLabels`: the label values recorded so far
* `WithinCodeBase`: label values that the code base fixes

## Main results

* `labels_within_iff`: **when the label sets stay within the code base**
-/

namespace QueueWorkerKit

open Ecma EventDriven Attempt

/-- A job that a worker is handed, what happens to the attempt at it, and its terminal failure, if
it gets one. -/
structure Delivery where
  queue : QueueName
  consumed : queue ∈ workerQueueNames
  id : Option JsString
  name : JsString
  data : Json
  attemptsMade : ℕ
  attempts : Option JsNumber
  handler : HandlerRun
  aborted : Option JsValue
  error : JsValue
  attemptsAtFailure : ℕ
  finishedOn : TimeValue

/-- Reads the correlation id back off the data of a job. -/
def correlationIdOf (fmt : Formats) (data : Json) : JsString :=
  match jobMetaSchema fmt ((Data.ofJson data).get (js "meta")) with
  | .ok jobMeta => (jobMeta.get (js "correlationId")).string?.getD (js "unknown")
  | .error _ => js "unknown"

/-- The workers of a process and the jobs they are handed. -/
structure Workers (ι : Type) where
  env : Env
  fmt : Formats
  heap : Heap ErrorClass
  maxEntries : ℕ
  delivery : ι → Delivery

/-- The attempts of a process and its dead-letter writer. -/
structure WorkersState (ι : Type) where
  calls : Calls ι
  writer : WriterState ι

inductive WorkersEvent (ι : Type)
  | processor (e : CallEvent ι)
  | deadLetter (e : WriterEvent ι)

/-- The labels of a counter that has both. -/
def DeadLetterCounter.jobLabels : DeadLetterCounter → Option Labels
  | jobsDeadLettered queue jobName => some ⟨queue, jobName⟩
  | deadLetterWriteFailures _ => none

def DeadLetterCounter.queue : DeadLetterCounter → JsString
  | jobsDeadLettered queue _ => queue
  | deadLetterWriteFailures queue => queue

variable {ι : Type}

/-- The pairs of labels recorded by the processors and by the writer. -/
def WorkersState.jobLabels (s : WorkersState ι) : List Labels :=
  s.calls.metrics.map Prod.snd ++ s.writer.metrics.filterMap fun m => m.2.jobLabels

/-- The queue labels recorded by the processors and by the writer. -/
def WorkersState.queueLabels (s : WorkersState ι) : List JsString :=
  s.calls.metrics.map (fun m => m.2.queue) ++ s.writer.metrics.map fun m => m.2.queue

/-- The time series of a counter with both labels. -/
def WorkersState.series (s : WorkersState ι) : Finset (JsString × JsString) :=
  (s.jobLabels.map fun labels => (labels.queue, labels.jobName)).toFinset

/-- Label values that the code base fixes: the names of the definitions, and of the consumed
queues. -/
structure WithinCodeBase (fmt : Formats) (s : WorkersState ι) : Prop where
  jobNames : ∀ labels ∈ s.jobLabels, isJobName fmt labels.jobName = true
  queues : ∀ queue ∈ s.queueLabels, queue ∈ workerQueueNames.map QueueName.text

namespace Workers

variable (w : Workers ι)

/-- The processor of the queue that a job came from. -/
def options (i : ι) : ProcessorOptions :=
  ⟨(w.delivery i).queue.text, w.env, w.fmt, w.heap⟩

/-- The call of the processor for a job. -/
def call (i : ι) : Call where
  job := ⟨(w.delivery i).name, Data.ofJson (w.delivery i).data, (w.delivery i).attemptsMade,
    (w.delivery i).attempts⟩
  handler := (w.delivery i).handler
  aborted := (w.delivery i).aborted

/-- The writer, which is handed a job by the `failed` handler of its worker. -/
def writers : Writers ι where
  heap := w.heap
  input i := {
    sourceQueue := (w.delivery i).queue.text
    job := ⟨(w.delivery i).id, (w.delivery i).name, (w.delivery i).data,
      some (w.delivery i).finishedOn⟩
    error := (w.delivery i).error
    correlationId := correlationIdOf w.fmt (w.delivery i).data
    attemptsMade := (w.delivery i).attemptsAtFailure }
  maxEntries := w.maxEntries

/-- The job has the name of a definition. -/
def Registered (i : ι) : Prop := isJobName w.fmt (w.delivery i).name = true

/-- A job that is processed, or whose record is accepted, has the name of a definition. -/
def EventRegistered : WorkersEvent ι → Prop
  | .processor (.call i) => w.Registered i
  | .deadLetter (.add i .accepted) => w.Registered i
  | _ => True

variable [DecidableEq ι]

/-- The processors and the writer of a process, which run at the same time. -/
def machine : Machine (WorkersState ι) (WorkersEvent ι) where
  step s
    | .processor e =>
      ((Attempt.calls w.options w.call).step s.calls e).map fun calls => { s with calls }
    | .deadLetter e => (w.writers.machine.step s.writer e).map fun writer => { s with writer }

/-- The process before it is handed anything, with what the dead-letter queue holds. -/
def start (queue : Retention.KeyedLog JsString DeadLetterRecord) : WorkersState ι :=
  ⟨Calls.idle ι, .start queue⟩

variable {w} {s t : WorkersState ι} {e : WorkersEvent ι} {i : ι}

omit [DecidableEq ι] in
/-- A job is recorded under the name it was stored with, known or not. -/
theorem labels_call : (w.call i).labels (w.options i) =
    ⟨(w.delivery i).queue.text, (w.delivery i).name⟩ := by
  unfold Call.labels Call.definition
  cases hdef : getJobDefinition (w.options i).fmt (w.call i).job.name with
  | none => rfl
  | some definition =>
    obtain ⟨-, hname⟩ := mem_of_getJobDefinition hdef
    simp only [Option.map_some, Option.getD_some, hname]
    rfl

omit [DecidableEq ι] in
theorem queue_mem (i : ι) :
    (w.delivery i).queue.text ∈ workerQueueNames.map QueueName.text :=
  List.mem_map_of_mem (w.delivery i).consumed

/-! ## What a step records -/

/-- The labels that a job is recorded under. -/
def labels (w : Workers ι) (i : ι) : Labels := ⟨(w.delivery i).queue.text, (w.delivery i).name⟩

omit [DecidableEq ι] in
theorem mem_jobLabels {l : Labels} : l ∈ s.jobLabels ↔
    (∃ m ∈ s.calls.metrics, m.2 = l) ∨ ∃ m ∈ s.writer.metrics, m.2.jobLabels = some l := by
  simp [WorkersState.jobLabels]

omit [DecidableEq ι] in
theorem mem_queueLabels {queue : JsString} : queue ∈ s.queueLabels ↔
    (∃ m ∈ s.calls.metrics, m.2.queue = queue) ∨ ∃ m ∈ s.writer.metrics, m.2.queue = queue := by
  simp [WorkersState.queueLabels]

/-- What a step records comes after what was recorded before, with the labels of one job: one that
is called already, one that is called now, or one whose record is accepted. -/
structure Records (w : Workers ι) (s : WorkersState ι) (e : WorkersEvent ι) (t : WorkersState ι) :
    Prop where
  kept : s.jobLabels ⊆ t.jobLabels
  jobLabels : ∀ l ∈ t.jobLabels, l ∈ s.jobLabels ∨ ∃ i, l = w.labels i ∧
    ((∃ a, s.calls.attempts i = some a) ∨ e = .processor (.call i) ∨
      e = .deadLetter (.add i .accepted))
  queueLabels : ∀ queue ∈ t.queueLabels, queue ∈ s.queueLabels ∨ ∃ i, queue = (w.labels i).queue

/-- What the processors record. -/
theorem records_processor (heach : ∀ i a, s.calls.attempts i = some a →
    CallInv (w.options i) (w.call i) a) {e : CallEvent ι}
    (hstep : w.machine.step s (.processor e) = some t) : Records w s (.processor e) t := by
  obtain ⟨c, hc, rfl⟩ := Option.map_eq_some_iff.mp hstep
  have heach' := each_step heach hc
  obtain ⟨i, counted, a, rfl, hi⟩ := calls_step_cases hc
  -- What is new was counted by the call that has moved, under its own labels.
  have hnew : ∀ m ∈ (s.calls.advance i counted a).metrics, m ∈ s.calls.metrics ∨
      m.2 = w.labels i := by
    intro m hm
    rcases List.mem_append.mp hm with hm | hm
    · exact Or.inl hm
    · have hlabels := (heach' i a attempts_advance_self).labels m (List.mem_of_mem_drop hm)
      exact Or.inr (hlabels.trans labels_call)
  constructor
  · intro l hl
    rcases mem_jobLabels.mp hl with ⟨m, hm, rfl⟩ | hwriter
    · exact mem_jobLabels.mpr (Or.inl ⟨m, List.mem_append_left _ hm, rfl⟩)
    · exact mem_jobLabels.mpr (Or.inr hwriter)
  · intro l hl
    rcases mem_jobLabels.mp hl with ⟨m, hm, rfl⟩ | hwriter
    · rcases hnew m hm with hm | hm
      · exact Or.inl (mem_jobLabels.mpr (Or.inl ⟨m, hm, rfl⟩))
      · refine Or.inr ⟨i, hm, ?_⟩
        rcases hi with ⟨rfl, -, -, -⟩ | ⟨b, -, -, hb, -, -⟩
        · exact Or.inr (Or.inl rfl)
        · exact Or.inl ⟨b, hb⟩
    · exact Or.inl (mem_jobLabels.mpr (Or.inr hwriter))
  · intro queue hqueue
    rcases mem_queueLabels.mp hqueue with ⟨m, hm, rfl⟩ | hwriter
    · rcases hnew m hm with hm | hm
      · exact Or.inl (mem_queueLabels.mpr (Or.inl ⟨m, hm, rfl⟩))
      · exact Or.inr ⟨i, by rw [hm]⟩
    · exact Or.inl (mem_queueLabels.mpr (Or.inr hwriter))

omit [DecidableEq ι] in
/-- The counters of a record call carry the labels of its job, and name it only where its add is
accepted. -/
theorem moves_labels {s : WriterState ι} {e : WriterEvent ι} {p q : CallPhase}
    {counters : List DeadLetterCounter} (h : Writers.Moves w.writers s e p q counters) :
    ∀ counter ∈ counters, counter.queue = (w.labels e.call).queue ∧
      ∀ l, counter.jobLabels = some l → l = w.labels e.call ∧ e = .add e.call .accepted := by
  intro counter hcounter
  cases h with
  | accept =>
    obtain rfl := List.mem_singleton.mp hcounter
    refine ⟨rfl, fun l hl => ⟨(Option.some.inj hl).symm, rfl⟩⟩
  | buildFails | reject | countFails | fetchFails =>
    obtain rfl := List.mem_singleton.mp hcounter
    exact ⟨rfl, fun l hl => by cases hl⟩
  | _ => exact absurd hcounter List.not_mem_nil

/-- What the writer records. -/
theorem records_deadLetter {e : WriterEvent ι}
    (hstep : w.machine.step s (.deadLetter e) = some t) : Records w s (.deadLetter e) t := by
  obtain ⟨writer, hwriter, rfl⟩ := Option.map_eq_some_iff.mp hstep
  obtain ⟨counters, hmoves, hmetrics⟩ := (Writers.steps_of_step hwriter).moves
  have hlabels := moves_labels hmoves
  constructor
  · intro l hl
    rcases mem_jobLabels.mp hl with hcalls | ⟨m, hm, hml⟩
    · exact mem_jobLabels.mpr (Or.inl hcalls)
    · refine mem_jobLabels.mpr (Or.inr ⟨m, ?_, hml⟩)
      rw [hmetrics]
      exact List.mem_append_left _ hm
  · intro l hl
    rcases mem_jobLabels.mp hl with hcalls | ⟨m, hm, hml⟩
    · exact Or.inl (mem_jobLabels.mpr (Or.inl hcalls))
    · rw [hmetrics] at hm
      rcases List.mem_append.mp hm with hm | hm
      · exact Or.inl (mem_jobLabels.mpr (Or.inr ⟨m, hm, hml⟩))
      · obtain ⟨counter, hcounter, rfl⟩ := List.mem_map.mp hm
        obtain ⟨rfl, haccepted⟩ := (hlabels counter hcounter).2 l hml
        exact Or.inr ⟨e.call, rfl, Or.inr (Or.inr (by rw [← haccepted]))⟩
  · intro queue hqueue
    rcases mem_queueLabels.mp hqueue with hcalls | ⟨m, hm, hmq⟩
    · exact Or.inl (mem_queueLabels.mpr (Or.inl hcalls))
    · rw [hmetrics] at hm
      rcases List.mem_append.mp hm with hm | hm
      · exact Or.inl (mem_queueLabels.mpr (Or.inr ⟨m, hm, hmq⟩))
      · obtain ⟨counter, hcounter, rfl⟩ := List.mem_map.mp hm
        exact Or.inr ⟨e.call, hmq.symm.trans (hlabels counter hcounter).1⟩

/-- A job that is called under an unknown name, or whose record is accepted under one, is recorded
under it. -/
theorem recorded_of_not_registered (hnot : ¬ w.EventRegistered e)
    (hstep : w.machine.step s e = some t) : ∃ i, w.labels i ∈ t.jobLabels ∧ ¬ w.Registered i := by
  -- Two events name a job: a call, and the accepted add of its record.
  unfold EventRegistered at hnot
  split at hnot
  · next i =>
    obtain ⟨c, hc, rfl⟩ := Option.map_eq_some_iff.mp hstep
    refine ⟨i, ?_, hnot⟩
    have hdef : (w.call i).definition (w.options i) = none := by
      cases hdef : (w.call i).definition (w.options i) with
      | none => rfl
      | some definition => exact absurd (isJobName_iff.mpr ⟨definition, hdef⟩) hnot
    obtain ⟨j, counted, a, rfl, hj⟩ := calls_step_cases hc
    rcases hj with ⟨hij, -, rfl, rfl⟩ | ⟨b, e', hij, -⟩
    · obtain rfl := CallEvent.call.inj hij
      -- the call was refused, and has counted that it failed
      cases callInv_start (w.options i) (w.call i) with
      | registered definition known _ _ _ =>
        rw [hdef] at known
        cases known
      | unknown _ refused =>
        refine mem_jobLabels.mpr (Or.inl ⟨(.failed, (w.call i).labels (w.options i)), ?_,
          labels_call⟩)
        refine List.mem_append_right _ ?_
        rw [refused.increments, List.drop_zero]
        exact List.mem_singleton_self _
    · cases hij
  · next i =>
    obtain ⟨writer, hwriter, rfl⟩ := Option.map_eq_some_iff.mp hstep
    refine ⟨i, ?_, hnot⟩
    -- the accepted add is counted under the name of its job
    cases Writers.steps_of_step hwriter with
    | add hphase =>
      refine mem_jobLabels.mpr (Or.inr ⟨(i, .jobsDeadLettered (w.labels i).queue
        (w.labels i).jobName), ?_, rfl⟩)
      exact List.mem_append_right _ (List.mem_singleton_self _)
  · exact absurd trivial hnot

/-! ## Runs -/

/-- The invariant of a run that has met registered names only. -/
structure LabelsInv (w : Workers ι) (s : WorkersState ι) : Prop where
  each : ∀ i a, s.calls.attempts i = some a → CallInv (w.options i) (w.call i) a
  registered : ∀ i a, s.calls.attempts i = some a → w.Registered i
  within : WithinCodeBase w.fmt s

/-- What is left of a run that has recorded another name. -/
structure Foreign (w : Workers ι) (s : WorkersState ι) : Prop where
  each : ∀ i a, s.calls.attempts i = some a → CallInv (w.options i) (w.call i) a
  recorded : ∃ l ∈ s.jobLabels, ¬ isJobName w.fmt l.jobName = true

theorem each_machine_step (heach : ∀ i a, s.calls.attempts i = some a →
    CallInv (w.options i) (w.call i) a) (hstep : w.machine.step s e = some t) :
    ∀ i a, t.calls.attempts i = some a → CallInv (w.options i) (w.call i) a := by
  cases e with
  | processor e =>
    obtain ⟨c, hc, rfl⟩ := Option.map_eq_some_iff.mp hstep
    exact each_step heach hc
  | deadLetter e =>
    obtain ⟨writer, -, rfl⟩ := Option.map_eq_some_iff.mp hstep
    exact heach

theorem records_step (heach : ∀ i a, s.calls.attempts i = some a →
    CallInv (w.options i) (w.call i) a) (hstep : w.machine.step s e = some t) :
    Records w s e t := by
  cases e with
  | processor e => exact records_processor heach hstep
  | deadLetter e => exact records_deadLetter hstep

/-- A call that has been made is one that was made before, or in this step. -/
theorem called_step (hstep : w.machine.step s e = some t) {a : State}
    (ha : t.calls.attempts i = some a) :
    (∃ b, s.calls.attempts i = some b) ∨ e = .processor (.call i) := by
  cases e with
  | deadLetter e =>
    obtain ⟨writer, -, rfl⟩ := Option.map_eq_some_iff.mp hstep
    exact Or.inl ⟨a, ha⟩
  | processor e =>
    obtain ⟨c, hc, rfl⟩ := Option.map_eq_some_iff.mp hstep
    obtain ⟨j, counted, b, rfl, hj⟩ := calls_step_cases hc
    by_cases hij : i = j
    · subst hij
      rcases hj with ⟨rfl, -, -, -⟩ | ⟨b, -, -, hb, -, -⟩
      · exact Or.inr rfl
      · exact Or.inl ⟨b, hb⟩
    · exact Or.inl ⟨a, (attempts_advance_of_ne hij).symm.trans ha⟩

/-- A step that meets registered names only keeps the invariant. -/
theorem labelsInv_step (h : LabelsInv w s) (hmeets : w.EventRegistered e)
    (hstep : w.machine.step s e = some t) : LabelsInv w t := by
  have hrecords := records_step h.each hstep
  refine ⟨each_machine_step h.each hstep, fun i a ha => ?_, fun l hl => ?_, fun queue hqueue => ?_⟩
  · -- a call is made before, or in this step, which meets the guard
    rcases called_step hstep ha with ⟨b, hb⟩ | rfl
    · exact h.registered i b hb
    · exact hmeets
  · rcases hrecords.jobLabels l hl with hl | ⟨i, rfl, ⟨a, ha⟩ | rfl | rfl⟩
    · exact h.within.jobNames l hl
    · exact h.registered i a ha
    · exact hmeets
    · exact hmeets
  · rcases hrecords.queueLabels queue hqueue with hqueue | ⟨i, rfl⟩
    · exact h.within.queues queue hqueue
    · exact queue_mem i

omit [DecidableEq ι] in
theorem labelsInv_start (queue : Retention.KeyedLog JsString DeadLetterRecord) :
    LabelsInv w (start queue) := by
  refine ⟨fun i a ha => ?_, fun i a ha => ?_, fun l hl => ?_, fun q hq => ?_⟩
  · cases ha
  · cases ha
  · exact absurd hl List.not_mem_nil
  · exact absurd hq List.not_mem_nil

omit [DecidableEq ι] in
/-- Within the code base there are as many time series as queues and definitions allow. -/
theorem WithinCodeBase.card_series_le (h : WithinCodeBase w.fmt s) :
    s.series.card ≤ workerQueueNames.length * (jobDefinitions w.fmt).length := by
  -- The series are pairs of a consumed queue and the name of a definition.
  have hsubset : s.series ⊆ (workerQueueNames.map QueueName.text).toFinset ×ˢ
      ((jobDefinitions w.fmt).map JobDefinition.name).toFinset := by
    intro p hp
    obtain ⟨l, hl, rfl⟩ := List.mem_map.mp (List.mem_toFinset.mp hp)
    refine Finset.mem_product.mpr ⟨List.mem_toFinset.mpr ?_, List.mem_toFinset.mpr ?_⟩
    · apply h.queues
      rcases mem_jobLabels.mp hl with ⟨m, hm, rfl⟩ | ⟨m, hm, hml⟩
      · exact mem_queueLabels.mpr (Or.inl ⟨m, hm, rfl⟩)
      · refine mem_queueLabels.mpr (Or.inr ⟨m, hm, ?_⟩)
        -- a counter that has both labels has the queue among them
        cases hcounter : m.2 with
        | jobsDeadLettered queue jobName =>
          rw [hcounter] at hml
          exact congrArg Labels.queue (Option.some.inj hml)
        | deadLetterWriteFailures queue =>
          rw [hcounter] at hml
          cases hml
    · exact isJobName_iff_mem.mp (h.jobNames l hl)
  have hqueues := List.toFinset_card_le (workerQueueNames.map QueueName.text)
  have hnames := List.toFinset_card_le ((jobDefinitions w.fmt).map JobDefinition.name)
  calc s.series.card
      ≤ ((workerQueueNames.map QueueName.text).toFinset ×ˢ
          ((jobDefinitions w.fmt).map JobDefinition.name).toFinset).card :=
        Finset.card_le_card hsubset
    _ ≤ workerQueueNames.length * (jobDefinitions w.fmt).length := by
        rw [Finset.card_product]
        rw [List.length_map] at hqueues hnames
        exact Nat.mul_le_mul hqueues hnames

/-- **When the label sets stay within the code base.** In every run of the workers of a process,
with any jobs and anything that happens to them, every job name that is recorded is that of a
definition and every queue is one that is consumed, exactly when every job that is processed, and
every one whose dead-letter record is accepted, has the name of a definition; and then there are at
most as many time series as there are pairs of a consumed queue and a definition. -/
theorem labels_within_iff (w : Workers ι) (queue : Retention.KeyedLog JsString DeadLetterRecord)
    (es : List (WorkersEvent ι)) (s : WorkersState ι)
    (hrun : w.machine.run (start queue) es = some s) :
    (WithinCodeBase w.fmt s ↔ ∀ e ∈ es, w.EventRegistered e) ∧
      (WithinCodeBase w.fmt s →
        s.series.card ≤ workerQueueNames.length * (jobDefinitions w.fmt).length) := by
  refine ⟨?_, WithinCodeBase.card_series_le⟩
  rw [← Machine.stepsMeet_iff_forall hrun]
  apply Machine.run_iff (I := LabelsInv w) (D := Foreign w) _ _ _ _ _ (labelsInv_start queue) hrun
  · exact fun s e t h hmeets hstep => labelsInv_step h hmeets hstep
  · -- the first event that misses the guard records a foreign name
    intro s e t h hnot hstep
    obtain ⟨i, hi, hforeign⟩ := recorded_of_not_registered hnot hstep
    exact ⟨each_machine_step h.each hstep, _, hi, hforeign⟩
  · -- which stays among the labels
    rintro s e t ⟨heach, l, hl, hforeign⟩ hstep
    exact ⟨each_machine_step heach hstep, l, (records_step heach hstep).kept hl, hforeign⟩
  · exact fun s h => h.within
  · rintro s ⟨-, l, hl, hforeign⟩ hwithin
    exact hforeign (hwithin.jobNames l hl)

/-! ### A job of an earlier build -/

/-- One job on the e-mail queue, under a given name. -/
def oneDelivery (name : JsString) : Workers Unit where
  env := .default
  fmt := featureFormats
  heap _ := ⟨false, fun _ => .ok false, fun _ => .ok .undefined, .ok [], .ok none⟩
  maxEntries := 1000
  delivery _ := {
    queue := .email
    consumed := by decide
    id := some (js "7")
    name := name
    data := .null
    attemptsMade := 0
    attempts := none
    handler := .returns none
    aborted := none
    error := .string (js "smtp")
    attemptsAtFailure := 1
    finishedOn := .epoch }

/-- The job is processed, fails, and is dead-lettered. -/
def failsForGood : List (WorkersEvent Unit) :=
  [.processor (.call ()), .deadLetter (.record () .epoch), .deadLetter (.add () .accepted)]

theorem labels_within_iff_email : ∃ s,
    (oneDelivery (js "email.send")).machine.run (start Retention.KeyedLog.empty) failsForGood =
        some s ∧
      WithinCodeBase featureFormats s ∧ s.series.card ≤ 9 := by
  obtain ⟨s, hrun⟩ : ∃ s, (oneDelivery (js "email.send")).machine.run
      (start Retention.KeyedLog.empty) failsForGood = some s := ⟨_, rfl⟩
  have h := labels_within_iff (oneDelivery (js "email.send")) Retention.KeyedLog.empty failsForGood
    s hrun
  have hwithin : WithinCodeBase featureFormats s := by
    apply h.1.mpr
    intro e he
    simp only [failsForGood, List.mem_cons, List.not_mem_nil, or_false] at he
    rcases he with rfl | rfl | rfl
    · show isJobName featureFormats (js "email.send") = true
      decide
    · trivial
    · show isJobName featureFormats (js "email.send") = true
      decide
  exact ⟨s, hrun, hwithin, h.2 hwithin⟩

/-- **An unknown name becomes a label.** A job that was stored under a name of an earlier build is
counted as failed, and as dead-lettered, under that name. -/
theorem unknown_name_is_recorded : ∃ s,
    (oneDelivery (js "email.retired")).machine.run (start Retention.KeyedLog.empty) failsForGood =
        some s ∧
      s.jobLabels = [⟨js "email", js "email.retired"⟩, ⟨js "email", js "email.retired"⟩] ∧
      ¬ WithinCodeBase featureFormats s := by
  obtain ⟨s, hrun, hlabels⟩ : ∃ s, (oneDelivery (js "email.retired")).machine.run
      (start Retention.KeyedLog.empty) failsForGood = some s ∧
      s.jobLabels = [⟨js "email", js "email.retired"⟩, ⟨js "email", js "email.retired"⟩] :=
    ⟨_, rfl, rfl⟩
  refine ⟨s, hrun, hlabels, fun h => ?_⟩
  have hname := h.jobNames ⟨js "email", js "email.retired"⟩ (by simp [hlabels])
  have hunknown : isJobName featureFormats (js "email.retired") = false := by decide
  rw [hunknown] at hname
  cases hname

end Workers

end QueueWorkerKit
