import QueueWorkerKit.Worker.DeadLetterUniqueness
import QueueWorkerKit.Worker.JobLife
import QueueWorkerKit.Worker.MetricLabels

/-!
# The dead letters of many jobs

Jobs in any of the queues with workers, each on its way through its attempts, and the dead-letter
queue in which the failures are recorded after which a job is not run again. Attempts at different
jobs and the round trips of the writers come in any order; adds may be rejected, also after they
have landed, and records may be evicted.

## Main definitions

* `Fleet`, `Fleet.machine`: the jobs of a deployment, and their runs
* `Fleet.RecordOf`: an entry that is the record of a job
* `FleetAccount`: what the dead-letter queue says of the jobs

## Main results

* `faithful_step`: an entry is the record of a call that has started
* `inv_step`: the calls of a run are those of one writer, and each job lives as if it were alone
* `fleet_account`: **the dead-letter queue holds the jobs that were given up**, and nothing else
-/

namespace QueueWorkerKit

open Ecma EventDriven Retention

/-! ## Entries and calls -/

namespace Writers

variable {ι : Type} {W W' : Writers ι} {s t : WriterState ι} {e : WriterEvent ι} {c d : ι}
  {entry : JsString × DeadLetterRecord} [DecidableEq ι]

/-- Records to be added, and all entries, were built from the inputs of calls that have started. -/
structure Faithful (W : Writers ι) (s : WriterState ι) : Prop where
  adding : ∀ c record, s.phase c = .adding record →
    ∃ now, buildRecord W.heap now (W.input c) = .ok record
  entry : ∀ entry ∈ s.queue.entries, ∃ c now, s.phase c ≠ .unstarted ∧ entry.1 = W.jobId c ∧
    buildRecord W.heap now (W.input c) = .ok entry.2

/-- A step of a call depends on the input of that call only. -/
theorem step_congr (hheap : W'.heap = W.heap) (hmax : W'.maxEntries = W.maxEntries)
    (hinput : W'.input e.call = W.input e.call) : W'.machine.step s e = W.machine.step s e := by
  cases e with
  | record c now =>
    have hc : W'.input c = W.input c := hinput
    simp only [machine, startWrite, fail, hc, hheap]
  | add c answer =>
    have hc : W'.input c = W.input c := hinput
    have hanswer : ∀ record, W'.answerAdd s c record answer = W.answerAdd s c record answer := by
      intro record
      match answer with
      | .accepted => simp only [answerAdd, jobId, hc]
      | .rejected true => simp only [answerAdd, fail, jobId, hc]
      | .rejected false => simp only [answerAdd, fail, hc]
    simp only [machine, hanswer]
  | getWaitingCount c answered =>
    have hc : W'.input c = W.input c := hinput
    simp only [machine, answerCount, fail, hc, hmax]
  | getWaiting c answered =>
    have hc : W'.input c = W.input c := hinput
    simp only [machine, answerFetch, fail, hc, hmax]
  | remove c id removed => rfl

omit [DecidableEq ι] in
/-- An event takes its call to a phase of a call that has started. -/
theorem Moves.started {p q : CallPhase} {counters : List DeadLetterCounter}
    (h : Moves W s e p q counters) : q ≠ .unstarted := by
  have hends : ∀ ids, CallPhase.evictingOrDone ids ≠ .unstarted := by
    intro ids
    cases ids <;> exact nofun
  cases h with
  | fetch | remove => exact hends _
  | _ => exact nofun

/-- A call that has started does not go back. -/
theorem Steps.started_of_started (h : Steps W s e t) (hs : s.phase d ≠ .unstarted) :
    t.phase d ≠ .unstarted := by
  rcases h.moves_or_eq d with ⟨-, counters, hmoves⟩ | hsame
  · exact hmoves.started
  · rwa [hsame]

/-- An entry is new only where the add of a call has landed. -/
theorem Steps.entry_cases (h : Steps W s e t) (hentry : entry ∈ t.queue.entries) :
    entry ∈ s.queue.entries ∨
      ∃ c record, s.phase c = .adding record ∧ entry = (W.jobId c, record) := by
  cases h with
  | @add c record answer hphase =>
    have hadd : entry ∈ (s.queue.add (W.jobId c) record).entries →
        entry ∈ s.queue.entries ∨
          ∃ c record, s.phase c = .adding record ∧ entry = (W.jobId c, record) := by
      intro hmem
      rcases KeyedLog.mem_entries_add.mp hmem with ⟨rfl, -⟩ | hold
      · exact .inr ⟨c, record, hphase, rfl⟩
      · exact .inl hold
    match answer with
    | .accepted => exact hadd hentry
    | .rejected true => exact hadd hentry
    | .rejected false => exact .inl hentry
  | record =>
    rw [queue_startWrite] at hentry
    exact .inl hentry
  | count =>
    rw [queue_answerCount] at hentry
    exact .inl hentry
  | countFails | fetch | fetchFails => exact .inl hentry
  | @remove c oldest id removed =>
    cases removed with
    | true => exact .inl (List.mem_of_mem_filter hentry)
    | false => exact .inl hentry

/-- **An entry is the record of a call that has started.** -/
theorem faithful_step (h : W.Faithful s) (hstep : Steps W s e t) : W.Faithful t := by
  refine ⟨fun c record hphase => ?_, fun entry hentry => ?_⟩
  · rcases hstep.moves_or_eq c with ⟨rfl, counters, hmoves⟩ | hsame
    · generalize s.phase e.call = p, t.phase e.call = q at hmoves hphase
      cases hmoves with
      | build hbuild =>
        obtain rfl := CallPhase.adding.inj hphase
        exact ⟨_, hbuild⟩
      | fetch | remove => exact absurd hphase (CallPhase.evictingOrDone_ne_adding _ _)
      | _ => cases hphase
    · exact h.adding c record (hsame ▸ hphase)
  · rcases hstep.entry_cases hentry with hold | ⟨c, record, hphase, rfl⟩
    · obtain ⟨c, now, hstarted, hkey, hbuild⟩ := h.entry entry hold
      exact ⟨c, now, hstep.started_of_started hstarted, hkey, hbuild⟩
    · obtain ⟨now, hbuild⟩ := h.adding c record hphase
      exact ⟨c, now, hstep.started_of_started (by rw [hphase]; exact nofun), rfl, hbuild⟩

theorem faithful_run {es : List (WriterEvent ι)}
    (hrun : W.machine.run (.start .empty) es = some s) : W.Faithful s :=
  Machine.run_invariant (G := fun _ _ => True) (I := W.Faithful)
    (fun _ _ _ h _ hstep => faithful_step h (steps_of_step hstep))
    ⟨fun _ _ hphase => (by cases hphase), fun _ h => absurd h List.not_mem_nil⟩
    Machine.stepsMeet_true hrun

end Writers

/-! ## Jobs and their dead letters -/

/-- Jobs under distinct ids, in queues with workers, and what the workers share. An error of the kit
is an object when it is handed on. -/
structure Fleet (ι : Type) where
  env : Env
  fmt : Formats
  heap : Heap ErrorClass
  object : KitError → JsValue
  maxEntries : ℕ
  queue : ι → QueueName
  id : ι → JsString
  name : ι → JsString
  data : ι → Json
  attempts : ι → Option JsNumber
  finishedOn : ι → TimeValue
  consumed : ∀ i, queue i ∈ workerQueueNames
  distinct : ∀ i j, queue i = queue j → id i = id j → i = j

/-- The lives of the jobs, and the dead-letter queue with the calls that write to it. -/
structure FleetState (ι : Type) where
  lives : ι → Attempt.Life
  writer : WriterState ι

/-- An attempt at a job that has come to its end, or a round trip of the record call of a job. -/
inductive FleetEvent (ι : Type)
  | attempt (i : ι) (d : Attempt.Delivery)
  | deadLetter (e : WriterEvent ι)

/-- The attempt that an event is, if it is one at the job. -/
def FleetEvent.attemptAt {ι : Type} [DecidableEq ι] (i : ι) :
    FleetEvent ι → Option Attempt.Delivery
  | .attempt j d => if j = i then some d else none
  | .deadLetter _ => none

def FleetEvent.writerEvent {ι : Type} : FleetEvent ι → Option (WriterEvent ι)
  | .attempt _ _ => none
  | .deadLetter e => some e

namespace Fleet

variable {ι : Type} (F : Fleet ι)

/-- The processor of the queue of a job. -/
def options (i : ι) : Attempt.ProcessorOptions := ⟨(F.queue i).text, F.env, F.fmt, F.heap⟩

def job (i : ι) : Attempt.StoredJob := ⟨F.name i, .ofJson (F.data i), F.attempts i⟩

/-- The value that is handed on for what was thrown. -/
def value : Thrown → JsValue
  | .kit e => F.object e
  | .value v => v

/-- What the listener of `failed` hands to the writer for a job that is not run again. -/
def input (i : ι) (attemptsMade : ℕ) (error : Thrown) : DeadLetterInput where
  sourceQueue := (F.queue i).text
  job := ⟨some (F.id i), F.name i, F.data i, some (F.finishedOn i)⟩
  error := F.value error
  correlationId := correlationIdOf F.fmt (F.data i)
  attemptsMade := attemptsMade

/-- The input of the record call of a job, which is that of the failure that its life has recorded;
there is no call before that. -/
def recordInput (i : ι) (l : Attempt.Life) : DeadLetterInput :=
  match l.recorded with
  | [] => F.input i 0 (.value .undefined)
  | (attemptsMade, error) :: _ => F.input i attemptsMade error

/-- The writers, with a call for each job. -/
def writers (lives : ι → Attempt.Life) : Writers ι where
  heap := F.heap
  input i := F.recordInput i (lives i)
  maxEntries := F.maxEntries

def start : FleetState ι := ⟨fun _ => .start, .start .empty⟩

variable [DecidableEq ι]

/-- The attempts and the writers. A job is recorded when its life has recorded a failure. -/
def machine : Machine (FleetState ι) (FleetEvent ι) where
  step s
    | .attempt i d =>
      ((Attempt.Life.machine (F.options i) (F.job i)).step (s.lives i) d).map fun l =>
        { s with lives := Function.update s.lives i l }
    | .deadLetter e =>
      if (s.lives e.call).recorded.isEmpty then none
      else ((F.writers s.lives).machine.step s.writer e).map fun writer => { s with writer }

/-- The failure that a job has ended with. -/
def failure (s : FleetState ι) (i : ι) : TerminalFailure :=
  ⟨(F.queue i).text, F.id i, (s.lives i).attemptsMade⟩

/-- An entry that is the record of a job: the job has failed and is not run again, and the record is
built from it, the number of its attempts and its last error. -/
def RecordOf (s : FleetState ι) (i : ι) (entry : JsString × DeadLetterRecord) : Prop :=
  ∃ error now, (s.lives i).outcome = some (.rejected error) ∧
    entry.1 = deadLetterJobId (F.failure s i) ∧
    buildRecord F.heap now (F.input i (s.lives i).attemptsMade error) = .ok entry.2

/-- The add of a job was accepted. -/
def Accepted (es : List (FleetEvent ι)) (i : ι) : Prop := .deadLetter (.add i .accepted) ∈ es

/-- What the dead-letter queue says of the jobs after a run. Every entry is the record of one job,
which was given up, and a job has one entry at most. When adds are accepted and nothing is evicted,
every job whose add was accepted has its record exactly when the flattened ids of these jobs tell
them apart. Meanwhile each job lives as if it were alone. -/
structure FleetAccount (es : List (FleetEvent ι)) (s : FleetState ι) : Prop where
  alone : ∀ i, (Attempt.Life.machine (F.options i) (F.job i)).run .start
    (es.filterMap (FleetEvent.attemptAt i)) = some (s.lives i)
  called : ∀ i, s.writer.phase i ≠ .unstarted →
    ∃ error, (s.lives i).outcome = some (.rejected error)
  sound : ∀ entry ∈ s.writer.queue.entries, ∃! i, F.RecordOf s i entry
  single : ∀ i, ∀ entry ∈ s.writer.queue.entries, ∀ entry' ∈ s.writer.queue.entries,
    F.RecordOf s i entry → F.RecordOf s i entry' → entry = entry'
  complete : (∀ e ∈ es.filterMap FleetEvent.writerEvent, e.KeepsRecords) →
    ((∀ i, Accepted es i → ∃ entry ∈ s.writer.queue.entries, F.RecordOf s i entry) ↔
      ∀ i j, Accepted es i → Accepted es j →
        TokensDetermineIds (F.failure s i) (F.failure s j))

variable {F} {s t : FleetState ι} {e : FleetEvent ι} {es : List (FleetEvent ι)} {i j : ι}
  {W : Writers ι} {l m : Attempt.Life}

/-! ### What a step does -/

/-- What each event does where it can happen. -/
inductive Step (F : Fleet ι) (s : FleetState ι) : FleetEvent ι → FleetState ι → Prop
  | attempts (i : ι) (d : Attempt.Delivery) (l : Attempt.Life)
      (life : (Attempt.Life.machine (F.options i) (F.job i)).step (s.lives i) d = some l) :
      Step F s (.attempt i d) ⟨Function.update s.lives i l, s.writer⟩
  | writes (e : WriterEvent ι) (writer : WriterState ι) (recorded : (s.lives e.call).recorded ≠ [])
      (step : (F.writers s.lives).machine.step s.writer e = some writer) :
      Step F s (.deadLetter e) ⟨s.lives, writer⟩

/-- **What a step does**: an attempt at one job, or a round trip of the call of a job that was given
up. -/
theorem step_cases (hstep : F.machine.step s e = some t) : Step F s e t := by
  cases e with
  | attempt i d =>
    obtain ⟨l, hlife, rfl⟩ := Option.map_eq_some_iff.mp hstep
    exact .attempts i d l hlife
  | deadLetter e =>
    simp only [machine] at hstep
    split_ifs at hstep with hrecorded
    obtain ⟨writer, hwriter, rfl⟩ := Option.map_eq_some_iff.mp hstep
    exact .writes e writer (by simpa using hrecorded) hwriter

omit [DecidableEq ι] in
/-- The ledger of a job over its attempts. -/
theorem ledger_run {ds : List Attempt.Delivery}
    (hrun : (Attempt.Life.machine (F.options i) (F.job i)).run .start ds = some l) :
    Attempt.Life.Ledger (F.job i) l :=
  Machine.run_invariant (G := fun _ _ => True) (I := Attempt.Life.Ledger (F.job i))
    (fun _ _ _ h _ hstep => Attempt.Life.ledger_step h hstep) Attempt.Life.ledger_start
    Machine.stepsMeet_true hrun

omit [DecidableEq ι] in
/-- A job that is attempted has recorded nothing. -/
theorem recorded_of_attempt {d : Attempt.Delivery} (hledger : Attempt.Life.Ledger (F.job i) l)
    (hstep : (Attempt.Life.machine (F.options i) (F.job i)).step l d = some m) :
    l.recorded = [] := by
  cases Attempt.Life.step_cases hstep with
  | completed s value opened => exact (hledger.stands.of_open opened).2
  | failed s error opened => exact (hledger.stands.of_open opened).2

/-- Writers that have the inputs of the jobs that were given up. -/
structure Agrees (F : Fleet ι) (s : FleetState ι) (W : Writers ι) : Prop where
  heap : W.heap = F.heap
  maxEntries : W.maxEntries = F.maxEntries
  input : ∀ i, (s.lives i).recorded ≠ [] → W.input i = F.recordInput i (s.lives i)

/-- What holds of a run: each job lives as if it were alone, a call that has started is that of a
job that was given up, and the round trips are a run of any writers with the inputs of these. -/
structure Inv (F : Fleet ι) (es : List (FleetEvent ι)) (s : FleetState ι) : Prop where
  alone : ∀ i, (Attempt.Life.machine (F.options i) (F.job i)).run .start
    (es.filterMap (FleetEvent.attemptAt i)) = some (s.lives i)
  started : ∀ i, s.writer.phase i ≠ .unstarted → (s.lives i).recorded ≠ []
  answered : ∀ e, .deadLetter e ∈ es → (s.lives e.call).recorded ≠ []
  writes : ∀ W, Agrees F s W →
    W.machine.run (.start .empty) (es.filterMap FleetEvent.writerEvent) = some s.writer

theorem inv_start : Inv F [] start where
  alone _ := rfl
  started _ h := absurd rfl h
  answered _ h := absurd h List.not_mem_nil
  writes _ _ := rfl

/-- **What a step preserves.** -/
theorem inv_step (h : Inv F es s) (hstep : F.machine.step s e = some t) : Inv F (es ++ [e]) t := by
  cases step_cases hstep with
  | attempts i d l life =>
    -- an attempt changes the life of its job, and nothing of the writers
    have hnone := recorded_of_attempt (ledger_run (h.alone i)) life
    -- a job that was given up is not the one that is attempted
    have hkept : ∀ j, (s.lives j).recorded ≠ [] → Function.update s.lives i l j = s.lives j := by
      intro j hj
      refine Function.update_of_ne ?_ _ _
      rintro rfl
      exact hj hnone
    refine ⟨fun j => ?_, fun j hj => ?_, fun e he => ?_, fun W hW => ?_⟩
    · rw [List.filterMap_append]
      by_cases hij : i = j
      · subst hij
        have hlast : [FleetEvent.attempt i d].filterMap (FleetEvent.attemptAt i) = [d] := by
          simp [FleetEvent.attemptAt]
        rw [hlast]
        show _ = some (Function.update s.lives i l i)
        rw [Function.update_self]
        exact Machine.run_append.mpr ⟨_, h.alone i, Machine.run_cons.mpr ⟨l, life, rfl⟩⟩
      · have hlast : [FleetEvent.attempt i d].filterMap (FleetEvent.attemptAt j) = [] := by
          simp [FleetEvent.attemptAt, hij]
        rw [hlast, List.append_nil, h.alone j]
        exact congrArg some (Function.update_of_ne (Ne.symm hij) _ _).symm
    · show (Function.update s.lives i l j).recorded ≠ []
      rw [hkept j (h.started j hj)]
      exact h.started j hj
    · have hbefore : FleetEvent.deadLetter e ∈ es := by simpa using he
      show (Function.update s.lives i l e.call).recorded ≠ []
      rw [hkept _ (h.answered e hbefore)]
      exact h.answered e hbefore
    · rw [List.filterMap_append]
      refine (congrArg (W.machine.run _) (List.append_nil _)).trans (h.writes W ?_)
      refine ⟨hW.heap, hW.maxEntries, fun j hj => ?_⟩
      have hinput : W.input j = F.recordInput j (Function.update s.lives i l j) := by
        apply hW.input j
        show (Function.update s.lives i l j).recorded ≠ []
        rwa [hkept j hj]
      rwa [hkept j hj] at hinput
  | writes e writer recorded step =>
    -- a round trip is that of any writers that agree on the input of its call
    have hsteps := Writers.steps_of_step step
    refine ⟨fun j => ?_, fun j hj => ?_, fun f hf => ?_, fun W hW => ?_⟩
    · rw [List.filterMap_append]
      exact (congrArg _ (List.append_nil _)).trans (h.alone j)
    · by_cases hcall : j = e.call
      · rw [hcall]
        exact recorded
      · refine h.started j ?_
        rwa [← hsteps.phase_of_ne hcall]
    · rcases List.mem_append.mp hf with hold | hlast
      · exact h.answered f hold
      · obtain rfl := FleetEvent.deadLetter.inj (List.mem_singleton.mp hlast)
        exact recorded
    · rw [List.filterMap_append]
      have hbefore := h.writes W ⟨hW.heap, hW.maxEntries, hW.input⟩
      refine Machine.run_append.mpr ⟨_, hbefore, Machine.run_cons.mpr ⟨writer, ?_, rfl⟩⟩
      rw [← step]
      exact Writers.step_congr hW.heap hW.maxEntries (hW.input _ recorded)

theorem inv_run (hrun : F.machine.run start es = some s) : Inv F es s := by
  have hinv : Inv F ([] ++ es) s := Machine.run_history (G := fun _ _ => True)
    (fun _ _ _ _ h _ hstep => inv_step h hstep) inv_start Machine.stepsMeet_true hrun
  exact hinv

/-! ### What the dead-letter queue says -/

omit [DecidableEq ι] in
/-- A life that has recorded a failure has ended with it, and the input of the call is its own. -/
theorem recordInput_of_recorded (hledger : Attempt.Life.Ledger (F.job i) l)
    (hrecorded : l.recorded ≠ []) : ∃ error, l.outcome = some (.rejected error) ∧
      F.recordInput i l = F.input i l.attemptsMade error := by
  cases hledger.stands with
  | going outcome retried recorded => exact absurd recorded hrecorded
  | failed error outcome retried recorded =>
    refine ⟨error, outcome, ?_⟩
    unfold recordInput
    rw [recorded]

omit [DecidableEq ι] in
theorem RecordOf.key {entry : JsString × DeadLetterRecord} (h : F.RecordOf s i entry) :
    entry.1 = deadLetterJobId (F.failure s i) := by
  obtain ⟨error, now, -, hkey, -⟩ := h
  exact hkey

omit [DecidableEq ι] in
/-- The record of a job has the components of its failure. -/
theorem RecordOf.failure {entry : JsString × DeadLetterRecord} (h : F.RecordOf s i entry) :
    entry.2.failure = F.failure s i := by
  obtain ⟨error, now, -, -, hbuild⟩ := h
  exact failure_of_buildRecord hbuild

omit [DecidableEq ι] in
/-- No two jobs end with one failure. -/
theorem failure_injective (h : F.failure s i = F.failure s j) : i = j := by
  have hqueue : (F.queue i).text = (F.queue j).text := congrArg TerminalFailure.sourceQueue h
  exact F.distinct i j (QueueName.text_injective hqueue)
    (congrArg TerminalFailure.sourceJobId h)

omit [DecidableEq ι] in
theorem consumed_failure (i : ι) : (F.failure s i).Consumed :=
  List.mem_map_of_mem (F.consumed i)

/-- The record call of a job that was given up writes under the id of its failure. -/
theorem Inv.given_up (h : Inv F es s) (hrecorded : (s.lives i).recorded ≠ []) :
    ∃ error, (s.lives i).outcome = some (.rejected error) ∧
      (F.writers s.lives).input i = F.input i (s.lives i).attemptsMade error ∧
      (F.writers s.lives).jobId i = deadLetterJobId (F.failure s i) := by
  obtain ⟨error, houtcome, hinput⟩ := recordInput_of_recorded (ledger_run (h.alone i)) hrecorded
  exact ⟨error, houtcome, hinput, congrArg
    (fun input : DeadLetterInput => deadLetterJobId input.failure) hinput⟩

/-- **Every entry is the record of a job that was given up.** -/
theorem Inv.sound (h : Inv F es s) {entry : JsString × DeadLetterRecord}
    (hentry : entry ∈ s.writer.queue.entries) : ∃ i, F.RecordOf s i entry := by
  have hfaithful := Writers.faithful_run (h.writes (F.writers s.lives) ⟨rfl, rfl, fun _ _ => rfl⟩)
  obtain ⟨i, now, hstarted, hkey, hbuild⟩ := hfaithful.entry entry hentry
  obtain ⟨error, houtcome, hinput, hid⟩ := h.given_up (h.started i hstarted)
  exact ⟨i, error, now, houtcome, hkey.trans hid, hinput ▸ hbuild⟩

/-- **No record is lost that was accepted**, as far as the flattened ids tell the jobs apart. -/
theorem Inv.complete (h : Inv F es s)
    (hkeep : ∀ e ∈ es.filterMap FleetEvent.writerEvent, e.KeepsRecords) :
    (∀ i, Accepted es i → ∃ entry ∈ s.writer.queue.entries, F.RecordOf s i entry) ↔
      ∀ i j, Accepted es i → Accepted es j →
        TokensDetermineIds (F.failure s i) (F.failure s j) := by
  have hrecorded := Writers.recorded_of_run
    (h.writes (F.writers s.lives) ⟨rfl, rfl, fun _ _ => rfl⟩) hkeep
  constructor
  · intro hall i j hi hj
    -- two jobs under one id have one entry between them
    rw [← deadLetterJobId_inj (consumed_failure i) (consumed_failure j)]
    intro hid
    obtain ⟨entry, hentry, hown⟩ := hall i hi
    obtain ⟨entry', hentry', hown'⟩ := hall j hj
    obtain rfl := KeyedLog.eq_of_fst_eq hentry hentry' (hown.key.trans (hid.trans hown'.key.symm))
    exact hown.failure.symm.trans hown'.failure
  · intro htokens i hi
    have hmem : WriterEvent.add i .accepted ∈ es.filterMap FleetEvent.writerEvent :=
      List.mem_filterMap.mpr ⟨_, hi, rfl⟩
    -- the entry under the id of the job is that of a job that was accepted, and of no other
    obtain ⟨entry, hentry, hkey⟩ := List.mem_map.mp (hrecorded.present i hmem)
    obtain ⟨c, hc, -, hfailure⟩ := hrecorded.entry entry hentry
    obtain ⟨j, hj⟩ := h.sound hentry
    obtain ⟨event, hevent, hwrites⟩ := List.mem_filterMap.mp hc
    have haccepted : Accepted es c := by
      cases event with
      | attempt i d => cases hwrites
      | deadLetter e =>
        obtain rfl := Option.some.inj hwrites
        exact hevent
    obtain ⟨_, -, hinput, -⟩ := h.given_up (h.answered _ haccepted)
    obtain rfl : c = j := failure_injective (s := s) (F := F)
      (((congrArg DeadLetterInput.failure hinput).symm.trans hfailure.symm).trans hj.failure)
    obtain ⟨_, -, -, hid⟩ := h.given_up (h.answered _ hi)
    have hsame : F.failure s i = F.failure s c :=
      (deadLetterJobId_inj (consumed_failure i) (consumed_failure c)).mpr (htokens i c hi haccepted)
        (hid.symm.trans (hkey.symm.trans hj.key))
    obtain rfl := failure_injective hsame
    exact ⟨entry, hentry, hj⟩

/-- **The dead-letter queue holds the jobs that were given up**, and nothing else. In every run of
any number of jobs, with attempts and round trips in any order, adds that are rejected or land all
the same, and evictions: every record is that of one job, which has failed and is not run again,
with its last error and the number of its attempts, and no job has two. -/
theorem fleet_account (hrun : F.machine.run start es = some s) : FleetAccount F es s := by
  have hinv := inv_run hrun
  refine ⟨hinv.alone, fun i hi => ?_, fun entry hentry => ?_,
    fun i entry hentry entry' hentry' h h' => ?_, hinv.complete⟩
  · obtain ⟨error, houtcome, -⟩ := hinv.given_up (hinv.started i hi)
    exact ⟨error, houtcome⟩
  · obtain ⟨i, hi⟩ := hinv.sound hentry
    exact ⟨i, hi, fun j hj => failure_injective (hj.failure.symm.trans hi.failure)⟩
  · exact KeyedLog.eq_of_fst_eq hentry hentry' (h.key.trans h'.key.symm)

/-- An error of the kit that is not retried, as an object. -/
def permanentObject : JsObject ErrorClass where
  callable := false
  instanceOf c := .ok (c ∈ ErrorClass.ancestors .nonRetryableError)
  get key := .ok <|
    if key = "name" then .string (js "NonRetryableError")
    else if key = "message" then .string (js "gone")
    else .undefined
  toText := .ok (js "NonRetryableError: gone")
  toJson := .ok (some (js "\x7b\x7d"))

/-- Two e-mail jobs that may be attempted three times. -/
def twoEmails : Fleet Bool where
  env := .default
  fmt := featureFormats
  heap _ := permanentObject
  object _ := .object 0
  maxEntries := 5
  queue _ := .email
  id i := if i then js "7" else js "8"
  name _ := js "email.send"
  data _ := .obj [
    (js "payload", .obj [(js "to", .str (js "user@example.com")),
      (js "template", .str (js "welcome")), (js "userId", .str (js "user-1"))]),
    (js "meta", .obj [(js "correlationId", .str (js "request-7")),
      (js "enqueuedAt", .str (js "2026-03-03T12:03:04.567Z"))])]
  attempts _ := some (.ofNat 3)
  finishedOn _ := .epoch
  consumed _ := by decide
  distinct := by decide

/-- An error after which the first job is given up. -/
def goneForGood : Thrown := .kit (.nonRetryable (js "gone"))

/-- Writers that are handed the failure of the first job. -/
def goneWriters : Writers Bool :=
  ⟨twoEmails.heap, fun _ => twoEmails.input true 1 goneForGood, twoEmails.maxEntries⟩

/-- The first job fails for good and is recorded, while the second one fails and goes on. -/
def oneGivenUp : List (FleetEvent Bool) :=
  [.attempt true (Attempt.Life.throwing (.nonRetryable (js "gone"))),
    .deadLetter (.record true .epoch),
    .attempt false (Attempt.Life.throwing (.transient (js "busy"))),
    .deadLetter (.add true .accepted), .deadLetter (.getWaitingCount true true)]

theorem fleet_account_oneGivenUp : ∃ s, twoEmails.machine.run start oneGivenUp = some s ∧
    s.writer.queue.keys = [js "dlq-email-7-1"] ∧ (s.lives false).attemptsMade = 1 ∧
      FleetAccount twoEmails oneGivenUp s := by
  obtain ⟨l, hl, hrecorded⟩ : ∃ l,
      (Attempt.Life.machine (twoEmails.options true) (twoEmails.job true)).step .start
          (Attempt.Life.throwing (.nonRetryable (js "gone"))) = some l ∧
        l.recorded = [(1, goneForGood)] := ⟨_, rfl, rfl⟩
  obtain ⟨m, hm, hmade⟩ : ∃ m,
      (Attempt.Life.machine (twoEmails.options false) (twoEmails.job false)).step .start
          (Attempt.Life.throwing (.transient (js "busy"))) = some m ∧
        m.attemptsMade = 1 := ⟨_, rfl, rfl⟩
  obtain ⟨u, v, w, hu, hv, hw, hkeys⟩ : ∃ u v w,
      goneWriters.machine.step (.start .empty) (.record true .epoch) = some u ∧
        goneWriters.machine.step u (.add true .accepted) = some v ∧
        goneWriters.machine.step v (.getWaitingCount true true) = some w ∧
        w.queue.keys = [js "dlq-email-7-1"] := ⟨_, _, _, rfl, rfl, rfl, rfl⟩
  -- once the first job was given up, its round trips are those of these writers
  have hstep : ∀ (s : FleetState Bool) e x, s.lives true = l → e.call = true →
      goneWriters.machine.step s.writer e = some x →
        twoEmails.machine.step s (.deadLetter e) = some ⟨s.lives, x⟩ := by
    intro s e x hlife hcall hx
    have hinput : goneWriters.input e.call = (twoEmails.writers s.lives).input e.call := by
      show _ = twoEmails.recordInput e.call (s.lives e.call)
      rw [hcall, hlife, recordInput, hrecorded]
      rfl
    have hcongr : goneWriters.machine.step s.writer e =
        (twoEmails.writers s.lives).machine.step s.writer e := Writers.step_congr rfl rfl hinput
    rw [hcongr] at hx
    simp only [machine, hcall, hlife, hrecorded, hx]
    rfl
  have hrun : twoEmails.machine.run start oneGivenUp = some
      ⟨Function.update (Function.update start.lives true l) false m, w⟩ := by
    refine Machine.run_cons.mpr ⟨⟨Function.update start.lives true l, start.writer⟩, ?_, ?_⟩
    · simp only [machine, start, hl, Option.map_some]
    refine Machine.run_cons.mpr ⟨⟨Function.update start.lives true l, u⟩, hstep _ _ _ ?_ rfl hu, ?_⟩
    · rfl
    refine Machine.run_cons.mpr ⟨⟨Function.update (Function.update start.lives true l) false m, u⟩,
      ?_, ?_⟩
    · have hfresh : Function.update start.lives true l false = Attempt.Life.start := rfl
      simp only [machine, hfresh, hm, Option.map_some]
    refine Machine.run_cons.mpr ⟨_, hstep _ _ _ ?_ rfl hv, ?_⟩
    · rfl
    refine Machine.run_cons.mpr ⟨_, hstep _ _ _ ?_ rfl hw, rfl⟩
    rfl
  exact ⟨_, hrun, hkeys, hmade, fleet_account hrun⟩

end Fleet

end QueueWorkerKit
