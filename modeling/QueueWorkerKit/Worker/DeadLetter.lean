import QueueWorkerKit.Library.KeyedLog
import QueueWorkerKit.Library.Machine
import QueueWorkerKit.Worker.DeadLetterRecord

/-!
# The dead-letter writers

Any number of `record` calls, of one writer or of several, that share a dead-letter queue and its
bound. Each call goes through the round trips of `write` and `trim` one at a time, and the events
of the machine are these round trips with their answers, in any order between the calls.

## Main definitions

* `CallPhase`: where a record call stands
* `WriterEvent`: a call that starts, and the answers of the queue
* `Writers`, `Writers.machine`: the inputs of the calls, and the machine they run on
* `WriterEvent.Succeeds`: the queue answered without an error
* `Moves`: the phases an event takes its call from and to

## Main results

* `steps_of_step`: what each event does, and in which phase of its call
* `Steps.phase_of_ne`: an event changes the phase of its own call only
* `Steps.moves`: how it changes that phase, and the counters it increments
* `Steps.moves_or_eq`: what it does to the phase of any call
* `Steps.queue_cases`: how it changes the queue
-/

namespace QueueWorkerKit

open Ecma EventDriven Retention

/-- A counter that a record call increments, with its labels. -/
inductive DeadLetterCounter
  | jobsDeadLettered (queue jobName : JsString)
  | deadLetterWriteFailures (queue : JsString)
  deriving DecidableEq

/-- Where a record call stands: the round trip it waits for, or how it ended. -/
inductive CallPhase
  | unstarted
  | adding (record : DeadLetterRecord)
  | counting
  | fetching (waiting : ℕ)
  | evicting (oldest : List JsString)
  | done
  | refused
  | failed

/-- The answer to an add. An add that is rejected may have landed all the same. -/
inductive AddAnswer
  | accepted
  | rejected (landed : Bool)
  deriving DecidableEq

inductive WriterEvent (ι : Type)
  | record (call : ι) (now : TimeValue)
  | add (call : ι) (answer : AddAnswer)
  | getWaitingCount (call : ι) (answered : Bool)
  | getWaiting (call : ι) (answered : Bool)
  | remove (call : ι) (id : JsString) (removed : Bool)

/-- The dead-letter queue, where each call stands, and the increments so far. -/
structure WriterState (ι : Type) where
  queue : KeyedLog JsString DeadLetterRecord
  phase : ι → CallPhase
  metrics : List (ι × DeadLetterCounter)

/-- The inputs of the record calls and the bound their writers share. -/
structure Writers (ι : Type) where
  heap : Heap ErrorClass
  input : ι → DeadLetterInput
  maxEntries : ℕ

variable {ι : Type}

def WriterEvent.call : WriterEvent ι → ι
  | record c _ | add c _ | getWaitingCount c _ | getWaiting c _ | remove c _ _ => c

/-- The queue answered without an error. -/
def WriterEvent.Succeeds : WriterEvent ι → Prop
  | record _ _ => True
  | add _ answer => answer = .accepted
  | getWaitingCount _ answered => answered = true
  | getWaiting _ answered => answered = true
  | remove _ _ removed => removed = true

instance (e : WriterEvent ι) : Decidable e.Succeeds :=
  match e with
  | .record _ _ => isTrue trivial
  | .add _ answer => inferInstanceAs (Decidable (answer = .accepted))
  | .getWaitingCount _ answered => inferInstanceAs (Decidable (answered = true))
  | .getWaiting _ answered => inferInstanceAs (Decidable (answered = true))
  | .remove _ _ removed => inferInstanceAs (Decidable (removed = true))

/-- A call whose record was accepted and whose trim has not failed. -/
def CallPhase.Added : CallPhase → Prop
  | counting | fetching _ | evicting _ | done => True
  | unstarted | adding _ | refused | failed => False

/-- A call that started and has not ended. -/
def CallPhase.InFlight : CallPhase → Prop
  | adding _ | counting | fetching _ | evicting _ => True
  | unstarted | done | refused | failed => False

/-- The phase of a call with removals outstanding, which ends when there are none. -/
def CallPhase.evictingOrDone : List JsString → CallPhase
  | [] => done
  | id :: rest => evicting (id :: rest)

theorem CallPhase.added_evictingOrDone (ids : List JsString) : (evictingOrDone ids).Added := by
  cases ids <;> trivial

theorem CallPhase.evictingOrDone_ne_adding (ids : List JsString) (record : DeadLetterRecord) :
    evictingOrDone ids ≠ adding record := by
  cases ids <;> exact nofun

theorem CallPhase.eq_of_evictingOrDone_eq {ids oldest : List JsString}
    (h : evictingOrDone ids = evicting oldest) : ids = oldest := by
  cases ids with
  | nil => cases h
  | cons id rest => exact evicting.inj h

namespace WriterState

variable [DecidableEq ι]

/-- No call has started. -/
def start (queue : KeyedLog JsString DeadLetterRecord) : WriterState ι :=
  ⟨queue, fun _ => .unstarted, []⟩

def enter (s : WriterState ι) (c : ι) (phase : CallPhase) : WriterState ι :=
  { s with phase := Function.update s.phase c phase }

def inc (s : WriterState ι) (c : ι) (counter : DeadLetterCounter) : WriterState ι :=
  { s with metrics := s.metrics ++ [(c, counter)] }

def withQueue (s : WriterState ι) (queue : KeyedLog JsString DeadLetterRecord) : WriterState ι :=
  { s with queue := queue }

variable {s : WriterState ι} {c d : ι} {p : CallPhase} {k : DeadLetterCounter}
  {q : KeyedLog JsString DeadLetterRecord}

omit [DecidableEq ι] in
@[simp] theorem metrics_start : (start q : WriterState ι).metrics = [] := rfl

@[simp] theorem queue_enter : (s.enter c p).queue = s.queue := rfl

@[simp] theorem metrics_enter : (s.enter c p).metrics = s.metrics := rfl

@[simp] theorem phase_enter : (s.enter c p).phase = Function.update s.phase c p := rfl

omit [DecidableEq ι] in
@[simp] theorem queue_inc : (s.inc c k).queue = s.queue := rfl

omit [DecidableEq ι] in
@[simp] theorem phase_inc : (s.inc c k).phase = s.phase := rfl

omit [DecidableEq ι] in
@[simp] theorem metrics_inc : (s.inc c k).metrics = s.metrics ++ [(c, k)] := rfl

omit [DecidableEq ι] in
@[simp] theorem queue_withQueue : (s.withQueue q).queue = q := rfl

omit [DecidableEq ι] in
@[simp] theorem metrics_withQueue : (s.withQueue q).metrics = s.metrics := rfl

end WriterState

namespace Writers

variable [DecidableEq ι] (W : Writers ι)

/-- The id a call stores its record under. -/
def jobId (c : ι) : JsString := deadLetterJobId (W.input c).failure

/-- The catch of `record`: the failure is counted and the call resolves. -/
def fail (s : WriterState ι) (c : ι) : WriterState ι :=
  (s.enter c .failed).inc c (.deadLetterWriteFailures (W.input c).sourceQueue)

/-- `write` up to its add: refused for the dead-letter queue itself, else with its record. -/
def startWrite (s : WriterState ι) (c : ι) (now : TimeValue) : WriterState ι :=
  if (W.input c).sourceQueue = QueueName.deadLetter.text then s.enter c .refused
  else
    match buildRecord W.heap now (W.input c) with
    | .ok record => s.enter c (.adding record)
    | .error _ => W.fail s c

/-- The answer to the add: counted as dead-lettered, or thrown to the catch of `record`. -/
def answerAdd (s : WriterState ι) (c : ι) (record : DeadLetterRecord) :
    AddAnswer → WriterState ι
  | .accepted =>
    ((s.withQueue (s.queue.add (W.jobId c) record)).enter c .counting).inc c
      (.jobsDeadLettered (W.input c).sourceQueue (W.input c).job.name)
  | .rejected true => W.fail (s.withQueue (s.queue.add (W.jobId c) record)) c
  | .rejected false => W.fail s c

/-- `trim` up to its fetch: nothing to do for a queue within the bound. -/
def answerCount (s : WriterState ι) (c : ι) : WriterState ι :=
  if s.queue.size ≤ W.maxEntries then s.enter c .done else s.enter c (.fetching s.queue.size)

/-- The fetch of the oldest entries, as many as the count exceeded the bound. -/
def answerFetch (s : WriterState ι) (c : ι) (waiting : ℕ) : WriterState ι :=
  let excess := waiting - W.maxEntries
  s.enter c (.evictingOrDone (s.queue.oldest excess))

/-- One removal of the fetched entries. One that fails is logged and nothing more. -/
def answerRemove (s : WriterState ι) (c : ι) (oldest : List JsString) (id : JsString)
    (removed : Bool) : WriterState ι :=
  (s.withQueue (if removed then s.queue.remove id else s.queue)).enter c
    (.evictingOrDone (oldest.erase id))

/-- The record calls and the queue they share. -/
def machine : Machine (WriterState ι) (WriterEvent ι) where
  step s
    | .record c now =>
      match s.phase c with
      | .unstarted => some (W.startWrite s c now)
      | _ => none
    | .add c answer =>
      match s.phase c with
      | .adding record => some (W.answerAdd s c record answer)
      | _ => none
    | .getWaitingCount c answered =>
      match s.phase c with
      | .counting => some (if answered then W.answerCount s c else W.fail s c)
      | _ => none
    | .getWaiting c answered =>
      match s.phase c with
      | .fetching waiting => some (if answered then W.answerFetch s c waiting else W.fail s c)
      | _ => none
    | .remove c id removed =>
      match s.phase c with
      | .evicting oldest =>
        if id ∈ oldest then some (answerRemove s c oldest id removed) else none
      | _ => none

variable {W} {s t : WriterState ι} {e : WriterEvent ι} {c d : ι}

/-- What an event does to a state in which its call waits for it. -/
inductive Steps (W : Writers ι) (s : WriterState ι) : WriterEvent ι → WriterState ι → Prop
  | record {c : ι} {now : TimeValue} (h : s.phase c = .unstarted) :
    Steps W s (.record c now) (W.startWrite s c now)
  | add {c : ι} {record : DeadLetterRecord} {answer : AddAnswer} (h : s.phase c = .adding record) :
    Steps W s (.add c answer) (W.answerAdd s c record answer)
  | count {c : ι} (h : s.phase c = .counting) :
    Steps W s (.getWaitingCount c true) (W.answerCount s c)
  | countFails {c : ι} (h : s.phase c = .counting) :
    Steps W s (.getWaitingCount c false) (W.fail s c)
  | fetch {c : ι} {waiting : ℕ} (h : s.phase c = .fetching waiting) :
    Steps W s (.getWaiting c true) (W.answerFetch s c waiting)
  | fetchFails {c : ι} {waiting : ℕ} (h : s.phase c = .fetching waiting) :
    Steps W s (.getWaiting c false) (W.fail s c)
  | remove {c : ι} {oldest : List JsString} {id : JsString} {removed : Bool}
    (h : s.phase c = .evicting oldest) (hid : id ∈ oldest) :
    Steps W s (.remove c id removed) (answerRemove s c oldest id removed)

/-- Every step is one of the seven. -/
theorem steps_of_step (h : W.machine.step s e = some t) : Steps W s e t := by
  cases e with
  | record c now =>
    simp only [machine] at h
    split at h
    · next hp =>
      obtain rfl := Option.some.inj h
      exact .record hp
    · cases h
  | add c answer =>
    simp only [machine] at h
    split at h
    · next hp =>
      obtain rfl := Option.some.inj h
      exact .add hp
    · cases h
  | getWaitingCount c answered =>
    simp only [machine] at h
    split at h
    · next hp =>
      obtain rfl := Option.some.inj h
      cases answered with
      | true => exact .count hp
      | false => exact .countFails hp
    · cases h
  | getWaiting c answered =>
    simp only [machine] at h
    split at h
    · next hp =>
      obtain rfl := Option.some.inj h
      cases answered with
      | true => exact .fetch hp
      | false => exact .fetchFails hp
    · cases h
  | remove c id removed =>
    simp only [machine] at h
    split at h
    · next hp =>
      split_ifs at h with hid
      obtain rfl := Option.some.inj h
      exact .remove hp hid
    · cases h

@[simp] theorem queue_fail : (W.fail s c).queue = s.queue := rfl

@[simp] theorem phase_fail : (W.fail s c).phase = Function.update s.phase c .failed := rfl

@[simp] theorem metrics_fail : (W.fail s c).metrics =
    s.metrics ++ [(c, .deadLetterWriteFailures (W.input c).sourceQueue)] := rfl

@[simp] theorem queue_startWrite {now : TimeValue} : (W.startWrite s c now).queue = s.queue := by
  unfold startWrite
  split_ifs
  · rfl
  · split <;> rfl

theorem phase_startWrite_of_ne {now : TimeValue} (hd : d ≠ c) :
    (W.startWrite s c now).phase d = s.phase d := by
  unfold startWrite
  split_ifs
  · exact Function.update_of_ne hd _ _
  · split <;> exact Function.update_of_ne hd _ _

@[simp] theorem queue_answerCount : (W.answerCount s c).queue = s.queue := by
  unfold answerCount
  split_ifs <;> rfl

theorem phase_answerAdd_of_ne {record : DeadLetterRecord} {answer : AddAnswer} (hd : d ≠ c) :
    (W.answerAdd s c record answer).phase d = s.phase d := by
  match answer with
  | .accepted => exact Function.update_of_ne hd _ _
  | .rejected true => exact Function.update_of_ne hd _ _
  | .rejected false => exact Function.update_of_ne hd _ _

/-- An event changes the phase of its own call only. -/
theorem Steps.phase_of_ne (h : Steps W s e t) (hd : d ≠ e.call) : t.phase d = s.phase d := by
  cases h with
  | record h => exact phase_startWrite_of_ne hd
  | add h => exact phase_answerAdd_of_ne hd
  | count h =>
    unfold answerCount
    split_ifs <;> exact Function.update_of_ne hd _ _
  | countFails h => exact Function.update_of_ne hd _ _
  | fetch h => exact Function.update_of_ne hd _ _
  | fetchFails h => exact Function.update_of_ne hd _ _
  | remove h hid => exact Function.update_of_ne hd _ _

/-- From which phase to which an event moves its call, and the counters that it increments. -/
inductive Moves (W : Writers ι) (s : WriterState ι) :
    WriterEvent ι → CallPhase → CallPhase → List DeadLetterCounter → Prop
  | refuse {c : ι} {now : TimeValue} : Moves W s (.record c now) .unstarted .refused []
  | build {c : ι} {now : TimeValue} {record : DeadLetterRecord}
    (h : buildRecord W.heap now (W.input c) = .ok record) :
    Moves W s (.record c now) .unstarted (.adding record) []
  | buildFails {c : ι} {now : TimeValue} :
    Moves W s (.record c now) .unstarted .failed
      [.deadLetterWriteFailures (W.input c).sourceQueue]
  | accept {c : ι} {record : DeadLetterRecord} :
    Moves W s (.add c .accepted) (.adding record) .counting
      [.jobsDeadLettered (W.input c).sourceQueue (W.input c).job.name]
  | reject {c : ι} {record : DeadLetterRecord} {landed : Bool} :
    Moves W s (.add c (.rejected landed)) (.adding record) .failed
      [.deadLetterWriteFailures (W.input c).sourceQueue]
  | within {c : ι} : Moves W s (.getWaitingCount c true) .counting .done []
  | exceed {c : ι} :
    Moves W s (.getWaitingCount c true) .counting (.fetching s.queue.size) []
  | countFails {c : ι} :
    Moves W s (.getWaitingCount c false) .counting .failed
      [.deadLetterWriteFailures (W.input c).sourceQueue]
  | fetch {c : ι} {waiting : ℕ} :
    Moves W s (.getWaiting c true) (.fetching waiting)
      (.evictingOrDone (s.queue.oldest (waiting - W.maxEntries))) []
  | fetchFails {c : ι} {waiting : ℕ} :
    Moves W s (.getWaiting c false) (.fetching waiting) .failed
      [.deadLetterWriteFailures (W.input c).sourceQueue]
  | remove {c : ι} {oldest : List JsString} {id : JsString} {removed : Bool} :
    Moves W s (.remove c id removed) (.evicting oldest) (.evictingOrDone (oldest.erase id)) []

/-- **What an event does to its own call**: it moves the call and increments its counters. -/
theorem Steps.moves (h : Steps W s e t) :
    ∃ counters, Moves W s e (s.phase e.call) (t.phase e.call) counters ∧
      t.metrics = s.metrics ++ counters.map (e.call, ·) := by
  cases h with
  | @record c now h =>
    show ∃ counters, Moves W s _ (s.phase c) ((W.startWrite s c now).phase c) counters ∧
      (W.startWrite s c now).metrics = s.metrics ++ counters.map (c, ·)
    rw [h]
    unfold startWrite
    split_ifs
    · rw [WriterState.phase_enter, Function.update_self]
      exact ⟨[], .refuse, (List.append_nil _).symm⟩
    · split
      · next record hbuild =>
        rw [WriterState.phase_enter, Function.update_self]
        exact ⟨[], .build hbuild, (List.append_nil _).symm⟩
      · rw [phase_fail, Function.update_self]
        exact ⟨_, .buildFails, rfl⟩
  | @add c record answer h =>
    show ∃ counters, Moves W s _ (s.phase c) ((W.answerAdd s c record answer).phase c) counters ∧
      (W.answerAdd s c record answer).metrics = s.metrics ++ counters.map (c, ·)
    rw [h]
    -- a rejection moves the call and counts the same way whether or not the add landed
    match answer with
    | .accepted =>
      refine ⟨[_], ?_, rfl⟩
      simp only [answerAdd, WriterState.phase_inc, WriterState.phase_enter, Function.update_self]
      exact .accept
    | .rejected true =>
      refine ⟨[_], ?_, rfl⟩
      simp only [answerAdd, phase_fail, Function.update_self]
      exact .reject
    | .rejected false =>
      refine ⟨[_], ?_, rfl⟩
      simp only [answerAdd, phase_fail, Function.update_self]
      exact .reject
  | @count c h =>
    show ∃ counters, Moves W s _ (s.phase c) ((W.answerCount s c).phase c) counters ∧
      (W.answerCount s c).metrics = s.metrics ++ counters.map (c, ·)
    rw [h]
    unfold answerCount
    split_ifs
    · rw [WriterState.phase_enter, Function.update_self]
      exact ⟨[], .within, (List.append_nil _).symm⟩
    · rw [WriterState.phase_enter, Function.update_self]
      exact ⟨[], .exceed, (List.append_nil _).symm⟩
  | @countFails c h =>
    show ∃ counters, Moves W s _ (s.phase c) ((W.fail s c).phase c) counters ∧ _
    rw [h, phase_fail, Function.update_self]
    exact ⟨_, .countFails, rfl⟩
  | @fetch c waiting h =>
    show ∃ counters, Moves W s _ (s.phase c) ((W.answerFetch s c waiting).phase c) counters ∧ _
    rw [h, answerFetch, WriterState.phase_enter, Function.update_self]
    exact ⟨[], .fetch, (List.append_nil _).symm⟩
  | @fetchFails c waiting h =>
    show ∃ counters, Moves W s _ (s.phase c) ((W.fail s c).phase c) counters ∧ _
    rw [h, phase_fail, Function.update_self]
    exact ⟨_, .fetchFails, rfl⟩
  | @remove c oldest id removed h hid =>
    show ∃ counters, Moves W s _ (s.phase c)
      ((answerRemove s c oldest id removed).phase c) counters ∧ _
    rw [h, answerRemove, WriterState.phase_enter, Function.update_self]
    exact ⟨[], .remove, (List.append_nil _).symm⟩

/-- A call moves by an event of its own, or it is where it was. -/
theorem Steps.moves_or_eq (h : Steps W s e t) (d : ι) :
    (d = e.call ∧ ∃ counters, Moves W s e (s.phase d) (t.phase d) counters) ∨
      t.phase d = s.phase d := by
  by_cases hd : d = e.call
  · subst hd
    obtain ⟨counters, hmoves, -⟩ := h.moves
    exact Or.inl ⟨rfl, counters, hmoves⟩
  · exact Or.inr (h.phase_of_ne hd)

/-- **What an event does to the queue**: nothing, unless it is an add that lands or a removal. -/
theorem Steps.queue_cases (h : Steps W s e t) :
    t.queue = s.queue ∨
      (∃ c answer record, e = .add c answer ∧ t.queue = s.queue.add (W.jobId c) record) ∨
      ∃ c oldest id, e = .remove c id true ∧ s.phase c = .evicting oldest ∧ id ∈ oldest ∧
        t.queue = s.queue.remove id := by
  cases h with
  | record h => exact Or.inl queue_startWrite
  | @add c record answer h =>
    match answer with
    | .accepted => exact Or.inr (Or.inl ⟨c, _, record, rfl, rfl⟩)
    | .rejected true => exact Or.inr (Or.inl ⟨c, _, record, rfl, rfl⟩)
    | .rejected false => exact Or.inl rfl
  | count h => exact Or.inl queue_answerCount
  | countFails h => exact Or.inl rfl
  | fetch h => exact Or.inl rfl
  | fetchFails h => exact Or.inl rfl
  | @remove c oldest id removed h hid =>
    cases removed with
    | true => exact Or.inr (Or.inr ⟨c, oldest, id, rfl, h, hid, rfl⟩)
    | false => exact Or.inl rfl

/-- Calls for jobs of the e-mail queue with given ids that failed once, each with a thrown text,
and writers with a given bound. -/
def ofIds (ids : ι → String) (maxEntries : ℕ) : Writers ι where
  heap _ := ⟨false, fun _ => .ok false, fun _ => .ok .undefined, .ok [], .ok none⟩
  input c := ⟨QueueName.email.text, ⟨some (js (ids c)), js "email.send", .null, none⟩,
    .string (js "smtp"), js "corr", 1⟩
  maxEntries := maxEntries

/-- The events of a call that is accepted and finds the queue within its bound. -/
def quietCall (c : ι) : List (WriterEvent ι) :=
  [.record c .epoch, .add c .accepted, .getWaitingCount c true]

end Writers

end QueueWorkerKit
