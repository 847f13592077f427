import QueueWorkerKit.Worker.ConcurrentAttempts
import QueueWorkerKit.Worker.RetryVerdict

/-!
# The life of a job

A job that a worker keeps its lock on goes through attempts until one of them returns a value or the
queue gives up: after each failure the queue runs it again or not, by the rule that the repository
states, and the listener of `failed` records the failure after which it does not. Each attempt is a
whole run of `processJob`, with any handler, timeout and abort.

## Main definitions

* `Life`, `Delivery`: a job between its attempts, and an attempt
* `Life.machine`: the lives of a job
* `Life.Ledger`: the counters, the records and the decisions of a life
* `Life.Judged`: an attempt fails with a value that the kit and the queue judge alike

## Main results

* `verdict_run`: what an attempt counts is told by what it settles with
* `life_account`: **the ledger of a life**
-/

namespace QueueWorkerKit

open Ecma EventDriven

namespace Attempt

variable {o : ProcessorOptions} {c : Call} {s t : State} {e : Event} {es : List Event}
  {p : Promise} {r : Settled}

/-! ## What an attempt settles with -/

/-- What an attempt has counted by the time it settles, and what it has announced: a value counts as
completed; a rejection is what the catch path makes of the value it has caught, or the error of a
name that no build has. -/
inductive Verdict (o : ProcessorOptions) (c : Call) (s : State) : Settled → Prop
  | completed (value : JsValue) (counters : s.counters = [.started, .duration, .completed]) :
      Verdict o c s (.fulfilled value)
  | caught (error : Thrown) (first : List Counter)
      (timed : first = [] ∨ first = [.started, .duration])
      (raced : s.loop.settled .raced = some (.rejected error))
      (counters : s.counters = first ++
        if (catchRun o.heap c.job error).willRetry then [.failed, .retrying] else [.failed]) :
      Verdict o c s (.rejected (catchRun o.heap c.job error).rejection)
  | unknown (unregistered : c.definition o = none) (counters : s.counters = [.failed]) :
      Verdict o c s (.rejected (.kit (.unknownJob c.job.name)))

/-- An attempt that has settled has its verdict. -/
def Ruled (o : ProcessorOptions) (c : Call) (s : State) : Prop :=
  ∀ r, s.loop.settled .attempt = some r → Verdict o c s r

theorem Verdict.keep (h : Verdict o c s r) (hincrements : t.increments = s.increments)
    (hraced : ∀ r', s.loop.settled .raced = some r' → t.loop.settled .raced = some r') :
    Verdict o c t r := by
  have hcounters : t.counters = s.counters := congrArg (List.map Prod.fst) hincrements
  cases h with
  | completed value counters => exact .completed value (hcounters.trans counters)
  | caught error first timed raced counters =>
    exact .caught error first timed (hraced _ raced) (hcounters.trans counters)
  | unknown unregistered counters => exact .unknown unregistered (hcounters.trans counters)

theorem pending_handlerListener {listener : Option Settled} (hp : p ≠ .handler)
    (h : s.loop.settled p = none) : (s.handlerListener c listener).loop.settled p = none := by
  unfold State.handlerListener
  split
  · split_ifs
    · exact (Loop.settled_settle_of_ne hp).trans h
    · exact h
  · exact h

theorem pending_abort {reason : JsValue} {listener : Option Settled}
    (h : s.loop.settled .attempt = none) :
    (s.abort o c reason listener).loop.settled .attempt = none := by
  unfold State.abort State.onAbort
  split
  · exact h
  · have hlistener : (({ s with reason := some reason } : State).handlerListener c
        listener).loop.settled .attempt = none := pending_handlerListener (by simp) h
    split_ifs
    · split
      · exact (Loop.settled_settle_of_ne (by simp)).trans hlistener
      · exact hlistener
    · exact hlistener

/-- Only the continuation of `processJob` settles an attempt. -/
theorem jobResume_of_settled (hnone : s.loop.settled .attempt = none)
    (hstep : (machine o c).step s e = some t) (hsome : t.loop.settled .attempt ≠ none) :
    ∃ r loop, s.loop.pop = some ((.jobResume, r), loop) ∧
      t = resume o c (s.popped loop) .jobResume r := by
  cases step_cases hstep with
  | handlerSettles r =>
    exact absurd ((Loop.settled_settle_of_ne (by simp)).trans hnone) hsome
  | timerFires listener =>
    exact absurd (pending_abort (s := { s.clearTimer with timedOut := true }) hnone) hsome
  | workerAborts reason listener => exact absurd (pending_abort hnone) hsome
  | microtask k r loop hpop =>
    have hpopped : loop.settled .attempt = none := by rw [Loop.settled_pop hpop, hnone]
    cases k with
    | jobResume => exact ⟨r, loop, hpop, rfl⟩
    | callerResume => exact absurd hpopped hsome
    | raceResume =>
      refine absurd ((Loop.settled_settle_of_ne (by simp)).trans ?_) hsome
      rw [loop_subscribe, Loop.settled_subscribe]
      exact hpopped
    | _ => exact absurd ((Loop.settled_settle_of_ne (by simp)).trans hpopped) hsome

/-- What the continuation of `processJob` counts and settles. -/
theorem ruled_jobResume {loop : Loop Promise Reaction JsValue Thrown} (h : CallInv o c s)
    (hnone : s.loop.settled .attempt = none) (hpop : s.loop.pop = some ((.jobResume, r), loop)) :
    Ruled o c (resume o c (s.popped loop) .jobResume r) := by
  cases h with
  | unknown unregistered refused => exact absurd hnone refused.settled
  | registered definition known inv tracked started =>
    have hwf := inv.subscriptions.wellFormed
    have hraced : s.loop.settled .raced = some r := hwf.settled_of_pop hpop
    have hpopped : loop.settled = s.loop.settled := Loop.settled_pop hpop
    have hcounters : (s.popped loop).counters = if s.started then [.started] else [] :=
      (tracked.pending hnone).2
    intro r' hr'
    cases r with
    | fulfilled value =>
      obtain rfl : .fulfilled value = r' := by
        refine Option.some.inj (Eq.trans ?_ hr')
        refine (Loop.settled_settle_self.trans ?_).symm
        exact congrArg (fun earlier : Option Settled => some (earlier.getD (.fulfilled value)))
          ((congrFun hpopped _).trans hnone)
      -- a value is that of the handler, which was started
      have hvalid := inv.outcome.valid_of_value (tracked.raced value hraced)
      refine .completed value ?_
      show ((s.popped loop).count (c.labels o) [.duration, .completed]).counters = _
      rw [counters_count, hcounters, started.mpr hvalid]
      rfl
    | rejected error =>
      let u := (s.popped loop).observe (c.labels o)
      have hloop : u.loop = loop := (kept_observe (s.popped loop) (c.labels o)).1
      have hobserved : u.counters = if s.started then [.started, .duration] else [] := by
        show State.counters (State.observe _ _) = _
        unfold State.observe
        show State.counters (if s.started then _ else _) = _
        cases hs : s.started <;> simp [counters_count, hcounters, hs]
      obtain rfl : .rejected (catchRun o.heap c.job error).rejection = r' := by
        refine Option.some.inj (Eq.trans ?_ hr')
        refine (Loop.settled_settle_self.trans ?_).symm
        have hpending : u.loop.settled .attempt = none := by rw [hloop, hpopped, hnone]
        exact congrArg (fun earlier : Option Settled => some (earlier.getD
          (.rejected (catchRun o.heap c.job error).rejection))) hpending
      refine .caught error u.counters ?_ ?_ (counters_count ..)
      · rw [hobserved]
        split_ifs <;> simp
      · refine (Loop.settled_settle_of_ne (by simp)).trans ?_
        show u.loop.settled .raced = _
        rw [hloop, hpopped, hraced]

theorem ruled_step (hinv : CallInv o c s) (h : Ruled o c s)
    (hstep : (machine o c).step s e = some t) : Ruled o c t := by
  cases hattempt : s.loop.settled .attempt with
  | some r =>
    intro r' hr'
    obtain rfl := Option.some.inj (hr'.symm.trans (settled_step hattempt hstep))
    have hincrements := increments_of_settled hinv (by simp [hattempt]) hstep
    exact (h _ hattempt).keep hincrements fun _ hraced => settled_step hraced hstep
  | none =>
    intro r' hr'
    obtain ⟨r, loop, hpop, rfl⟩ := jobResume_of_settled hattempt hstep (by simp [hr'])
    exact ruled_jobResume hinv hattempt hpop r' hr'

theorem ruled_start (o : ProcessorOptions) (c : Call) : Ruled o c (start o c) := by
  intro r hr
  cases hdef : c.definition o with
  | none =>
    have hsettled : (start o c).loop.settled .attempt =
        some (.rejected (.kit (.unknownJob c.job.name))) := by
      simp [start, hdef, loop_subscribe, loop_settle, State.count, Loop.start]
    obtain rfl := Option.some.inj (hsettled.symm.trans hr)
    refine .unknown hdef ?_
    simp [start, hdef, State.subscribe, State.settle, State.count, State.counters]
  | some definition =>
    -- the attempt of a registered job is still to be resumed
    have hpending : (start o c).loop.settled .attempt = none := by
      rw [start_of_definition hdef, settled_awaitRace]
      unfold State.raceWithAbort
      split
      · rw [loop_settle, Loop.settled_settle_of_ne (by simp)]
        exact invoked_invoke.pending .attempt (by simp) (by simp)
      · simp only [loop_subscribe, Loop.settled_subscribe]
        exact invoked_invoke.pending .attempt (by simp) (by simp)
    rw [hpending] at hr
    cases hr

/-- **The verdict of an attempt**: what it counts is told by what it settles with. -/
theorem verdict_run (hrun : (machine o c).run (start o c) es = some s) : Ruled o c s := by
  have hinv : CallInv o c s ∧ Ruled o c s :=
    Machine.run_invariant (M := machine o c) (G := fun _ _ => True)
      (I := fun s => CallInv o c s ∧ Ruled o c s)
      (fun _ _ _ h _ hstep => ⟨callInv_step h.1 hstep, ruled_step h.1 h.2 hstep⟩)
      ⟨callInv_start o c, ruled_start o c⟩ Machine.stepsMeet_true hrun
  exact hinv.2

/-! ## The rule of the queue -/

/-- `attemptsMade + 1 < opts.attempts`, and neither the class nor the name of BullMQ's permanent
error. -/
def bullmqRetries (h : Heap ErrorClass) (job : ActiveJob) (error : Thrown) : Bool :=
  let attemptsLeft :=
    match job.attempts with
    | some attempts => (JsNumber.ofNat (job.attemptsMade + 1)).lt attempts
    | none => false
  let isClass :=
    match error.instanceOf h .unrecoverableError with
    | .ok isClass => isClass
    | .error _ => false
  let isName :=
    match error.name h with
    | .ok name => isOneOf [js "UnrecoverableError"] name
    | .error _ => false
  attemptsLeft && !isClass && !isName

theorem bullmqRetries_iff {h : Heap ErrorClass} {job : ActiveJob} {error : Thrown} :
    bullmqRetries h job error = true ↔ BullmqRetries h job error := by
  have hleft : (match job.attempts with
      | some attempts => (JsNumber.ofNat (job.attemptsMade + 1)).lt attempts
      | none => false) = true ↔ AttemptsLeft job := by
    unfold AttemptsLeft
    cases job.attempts <;> simp
  have hclass : (match error.instanceOf h .unrecoverableError with
      | .ok isClass => isClass
      | .error _ => false) = true ↔ error.instanceOf h .unrecoverableError = .ok true := by
    cases error.instanceOf h .unrecoverableError <;> simp
  have hname : (match error.name h with
      | .ok name => isOneOf [js "UnrecoverableError"] name
      | .error _ => false) = true ↔ error.name h = .ok (.string (js "UnrecoverableError")) := by
    cases error.name h <;> simp [isOneOf_iff]
  rw [BullmqRetries, Unrecoverable, not_or, ← hleft, ← hclass, ← hname, bullmqRetries]
  simp only [Bool.and_eq_true, Bool.not_eq_true', and_assoc, Bool.not_eq_true]

/-- What is judged alike is announced as the queue decides. -/
theorem willRetry_of_judgedAlike {h : Heap ErrorClass} {job : ActiveJob} {error : Thrown}
    (halike : AttemptsLeft job → JudgedAlike h error) :
    (catchRun h job error).willRetry = bullmqRetries h job (catchRun h job error).rejection := by
  rw [Bool.eq_iff_iff, bullmqRetries_iff]
  by_cases hleft : AttemptsLeft job
  · have hremain := attemptsRemain_iff.mpr hleft
    rcases @classifyError_eq h error with ⟨v, hthrows, hclassify⟩ | ⟨hlook, hverdict⟩
    · -- the queue sees what a test threw
      simp [catchRun, hclassify, BullmqRetries, (halike hleft).tests v hthrows]
    · have hretry : ∃ classification, classifyError h error = .ok classification ∧
          (classification = .retryable ↔ ¬ KitPermanent h error) := by
        rcases hverdict with ⟨hpermanent, hclassify⟩ | ⟨hpermanent, hclassify⟩
        · exact ⟨_, hclassify, by simp [hpermanent]⟩
        · exact ⟨_, hclassify, by simp [hpermanent]⟩
      obtain ⟨classification, hclassify, hretryable⟩ := hretry
      cases hlog : logError h error with
      | error v =>
        have hiff := (halike hleft).log hlook v hlog
        simp [catchRun, hclassify, hlog, BullmqRetries, hleft, hremain, hretryable, hiff]
      | ok _ =>
        have hiff := (judgedAlike_of_logged hlook hlog).mp (halike hleft)
        simp [catchRun, hclassify, hlog, BullmqRetries, hleft, hremain, hretryable, hiff]
  · simp [willRetry_of_not_attemptsLeft hleft, BullmqRetries, hleft]

/-! ## Lives -/

/-- A job as it is stored: its name, its data and the attempts it is allowed. -/
structure StoredJob where
  name : JsString
  data : Data
  attempts : Option JsNumber

/-- An attempt: what the handler does, the signal that the worker passes, and what happens while the
attempt runs. -/
structure Delivery where
  handler : HandlerRun
  aborted : Option JsValue
  events : List Event

/-- A job between its attempts: how many have failed, how it has ended if it has, what the attempts
have counted, what the listener of `failed` has recorded, and for each failure whether a retry was
announced and whether the queue ran the job again. -/
structure Life where
  attemptsMade : ℕ
  outcome : Option Settled
  increments : List (Counter × Labels)
  recorded : List (ℕ × Thrown)
  announced : List Bool
  retried : List Bool

namespace Life

def start : Life := ⟨0, none, [], [], [], []⟩

/-- The call of `processJob` for the next attempt. -/
def call (l : Life) (j : StoredJob) (d : Delivery) : Call :=
  ⟨⟨j.name, j.data, l.attemptsMade, j.attempts⟩, d.handler, d.aborted⟩

/-- The next attempt, up to what happens last while it runs. -/
def attempt (o : ProcessorOptions) (j : StoredJob) (l : Life) (d : Delivery) : Option State :=
  (Attempt.machine o (l.call j d)).run (Attempt.start o (l.call j d)) d.events

def complete (l : Life) (s : State) (value : JsValue) : Life :=
  { l with
    outcome := some (.fulfilled value)
    increments := l.increments ++ s.increments }

/-- The queue marks a failed job as finished where it does not run it again, which is what the
listener of `failed` looks at. -/
def fail (l : Life) (s : State) (error : Thrown) (retry : Bool) : Life where
  attemptsMade := l.attemptsMade + 1
  outcome := if retry then none else some (.rejected error)
  increments := l.increments ++ s.increments
  recorded := l.recorded ++ if retry then [] else [(l.attemptsMade + 1, error)]
  announced := l.announced ++ [s.counters.contains .retrying]
  retried := l.retried ++ [retry]

/-- The lives of a job: attempts that settle, one after another. -/
def machine (o : ProcessorOptions) (j : StoredJob) : Machine Life Delivery where
  step l d :=
    match l.outcome with
    | some _ => none
    | none =>
      (l.attempt o j d).bind fun s =>
        (s.loop.settled .attempt).map fun
          | .fulfilled value => l.complete s value
          | .rejected error => l.fail s error (bullmqRetries o.heap (l.call j d).job error)

/-- The value that the attempt has caught is judged alike, if attempts are left. -/
def Judged (o : ProcessorOptions) (j : StoredJob) (l : Life) (d : Delivery) : Prop :=
  ∀ s error, l.attempt o j d = some s → s.loop.settled .raced = some (.rejected error) →
    AttemptsLeft (l.call j d).job → JudgedAlike o.heap error

/-- How a life stands: it goes on or has returned a value, and the queue has run the job again after
every failure; or the last failure is recorded, with its number and its error. -/
inductive Stands (l : Life) : Prop
  | going (outcome : ∀ error, l.outcome ≠ some (.rejected error))
      (retried : l.retried = List.replicate l.attemptsMade true) (recorded : l.recorded = [])
  | failed (error : Thrown) (outcome : l.outcome = some (.rejected error))
      (retried : ∃ n, l.attemptsMade = n + 1 ∧ l.retried = List.replicate n true ++ [false])
      (recorded : l.recorded = [(l.attemptsMade, error)])

/-- The number of values among how something has ended, if it has. -/
def valueCount : Option Settled → ℕ
  | some (.fulfilled _) => 1
  | _ => 0

/-- The number of values that a life has come to. -/
def values (l : Life) : ℕ := valueCount l.outcome

/-- The ledger of a life. -/
structure Ledger (j : StoredJob) (l : Life) : Prop where
  failed : tally .failed l.increments = l.attemptsMade
  completed : tally .completed l.increments = l.values
  timed : tally .started l.increments = tally .duration l.increments
  started : tally .started l.increments ≤ l.attemptsMade + l.values
  retrying : tally .retrying l.increments = l.announced.count true
  announced : l.announced.length = l.attemptsMade
  stands : l.Stands
  left : (∀ error, l.outcome ≠ some (.rejected error)) → l.attemptsMade = 0 ∨
    ∃ attempts, j.attempts = some attempts ∧ (JsNumber.ofNat l.attemptsMade).lt attempts = true
  bounded : ∀ n, j.attempts = some (.ofNat n) → l.attemptsMade ≤ max 1 n

variable {j : StoredJob} {l m : Life} {d : Delivery} {ds : List Delivery}

theorem lt_ofNat {a b : ℕ} : (JsNumber.ofNat a).lt (.ofNat b) = true ↔ a < b := by
  simp only [JsNumber.ofNat, JsNumber.lt, decide_eq_true_eq]
  norm_cast

/-- What an attempt does to the life: it returns a value, or it fails and is run again or not. -/
inductive Step (o : ProcessorOptions) (j : StoredJob) (l : Life) (d : Delivery) : Life → Prop
  | completed (s : State) (value : JsValue) (opened : l.outcome = none)
      (attempt : l.attempt o j d = some s)
      (settled : s.loop.settled .attempt = some (.fulfilled value))
      (verdict : Verdict o (l.call j d) s (.fulfilled value)) :
      Step o j l d (l.complete s value)
  | failed (s : State) (error : Thrown) (opened : l.outcome = none)
      (attempt : l.attempt o j d = some s)
      (settled : s.loop.settled .attempt = some (.rejected error))
      (verdict : Verdict o (l.call j d) s (.rejected error)) :
      Step o j l d (l.fail s error (bullmqRetries o.heap (l.call j d).job error))

/-- **What a step of a life does.** -/
theorem step_cases (hstep : (machine o j).step l d = some m) : Step o j l d m := by
  simp only [machine] at hstep
  split at hstep
  · cases hstep
  · next hopened =>
    obtain ⟨s, hattempt, hsettles⟩ := Option.bind_eq_some_iff.mp hstep
    obtain ⟨r, hr, rfl⟩ := Option.map_eq_some_iff.mp hsettles
    have hverdict := verdict_run hattempt r hr
    cases r with
    | fulfilled value => exact .completed s value hopened hattempt hr hverdict
    | rejected error => exact .failed s error hopened hattempt hr hverdict

/-- What a verdict counts. -/
theorem tally_of_verdict (h : Verdict o c s r) :
    tally .failed s.increments + valueCount (some r) = 1 ∧
      tally .completed s.increments = valueCount (some r) ∧
      tally .started s.increments = tally .duration s.increments ∧
      tally .started s.increments ≤ 1 ∧
      tally .retrying s.increments = [s.counters.contains .retrying].count true := by
  have htally : ∀ counter, tally counter s.increments = s.counters.count counter := fun _ => rfl
  simp only [htally]
  cases h with
  | completed value counters =>
    rw [counters]
    simp [valueCount]
  | caught error first timed raced counters =>
    rw [counters]
    rcases timed with rfl | rfl <;> split_ifs <;> simp [valueCount]
  | unknown unregistered counters =>
    rw [counters]
    simp [valueCount]

/-- A life that goes on has recorded nothing, and the queue has run the job again each time. -/
theorem Stands.of_open (h : l.Stands) (hopened : l.outcome = none) :
    l.retried = List.replicate l.attemptsMade true ∧ l.recorded = [] := by
  cases h with
  | going outcome retried recorded => exact ⟨retried, recorded⟩
  | failed error outcome => exact absurd (hopened.symm.trans outcome) (by simp)

/-- An attempt that the queue runs again was not the last. -/
theorem attemptsLeft_of_bullmqRetries {h : Heap ErrorClass} {job : ActiveJob} {error : Thrown}
    (hretry : bullmqRetries h job error = true) : ∃ attempts, job.attempts = some attempts ∧
      (JsNumber.ofNat (job.attemptsMade + 1)).lt attempts = true :=
  (bullmqRetries_iff.mp hretry).1

theorem ledger_start : Ledger j start where
  failed := rfl
  completed := rfl
  timed := rfl
  started := Nat.le_refl _
  retrying := rfl
  announced := rfl
  stands := .going (fun _ h => by cases h) rfl rfl
  left _ := Or.inl rfl
  bounded _ _ := Nat.zero_le _

/-- An attempt that returns a value ends the life. -/
theorem Ledger.complete {value : JsValue} (h : Ledger j l) (hopened : l.outcome = none)
    (hverdict : Verdict o c s (.fulfilled value)) : Ledger j (l.complete s value) := by
  obtain ⟨hfailed, hcompleted, htimed, hstarted, hretrying⟩ := tally_of_verdict hverdict
  have hzero : l.values = 0 := by
    rw [values, hopened]
    rfl
  obtain ⟨hretried, hrecorded⟩ := h.stands.of_open hopened
  have hnone : s.counters.contains .retrying = false := by
    cases hverdict with
    | completed value counters =>
      rw [counters]
      rfl
  have htally : ∀ counter, tally counter (l.complete s value).increments =
      tally counter l.increments + tally counter s.increments := fun _ => tally_append
  refine ⟨?_, ?_, ?_, ?_, ?_, h.announced, .going (fun _ heq => ?_) hretried hrecorded,
    fun _ => h.left fun error heq => ?_, h.bounded⟩
  · have hnothing : tally .failed s.increments = 0 := Nat.succ.inj hfailed
    rw [htally, hnothing, h.failed]
    rfl
  · rw [htally, hcompleted, h.completed, hzero]
    rfl
  · rw [htally, htally, h.timed, htimed]
  · have hle := h.started
    rw [htally]
    show _ ≤ l.attemptsMade + 1
    omega
  · rw [htally, hretrying, h.retrying, hnone]
    rfl
  · cases heq
  · exact absurd (hopened.symm.trans heq) (by simp)

/-- An attempt that fails is run again, or is the last, and recorded. -/
theorem Ledger.fail {error : Thrown} (h : Ledger j l) (hopened : l.outcome = none)
    (hverdict : Verdict o (l.call j d) s (.rejected error)) :
    Ledger j (l.fail s error (bullmqRetries o.heap (l.call j d).job error)) := by
  obtain ⟨hfailed, hcompleted, htimed, hstarted, hretrying⟩ := tally_of_verdict hverdict
  have hzero : l.values = 0 := by
    rw [values, hopened]
    rfl
  obtain ⟨hretried, hrecorded⟩ := h.stands.of_open hopened
  have hleft := h.left fun error heq => absurd (hopened.symm.trans heq) (by simp)
  have hretry : bullmqRetries o.heap (l.call j d).job error = true → ∃ attempts,
      j.attempts = some attempts ∧ (JsNumber.ofNat (l.attemptsMade + 1)).lt attempts = true :=
    attemptsLeft_of_bullmqRetries
  generalize bullmqRetries o.heap (l.call j d).job error = retry at hretry
  have htally : ∀ counter, tally counter (l.fail s error retry).increments =
      tally counter l.increments + tally counter s.increments := fun _ => tally_append
  have hvalues : (l.fail s error retry).values = 0 := by
    unfold values
    cases retry <;> rfl
  refine ⟨?_, ?_, ?_, ?_, ?_, ?_, ?_, fun hgoing => ?_, fun n hn => ?_⟩
  · rw [htally, show tally .failed s.increments = 1 from hfailed, h.failed]
    rfl
  · rw [htally, hcompleted, h.completed, hzero, hvalues]
    rfl
  · rw [htally, htally, h.timed, htimed]
  · have hle := h.started
    rw [htally, hvalues]
    show _ ≤ l.attemptsMade + 1 + 0
    omega
  · rw [htally, hretrying, h.retrying]
    exact List.count_append.symm
  · show (l.announced ++ [_]).length = l.attemptsMade + 1
    rw [List.length_append, h.announced, List.length_singleton]
  · cases retry with
    | true =>
      refine .going (fun _ heq => by cases heq) ?_ ?_
      · show l.retried ++ [true] = List.replicate (l.attemptsMade + 1) true
        rw [hretried, List.replicate_succ']
      · show l.recorded ++ [] = []
        rw [hrecorded, List.append_nil]
    | false =>
      refine .failed error rfl ⟨l.attemptsMade, rfl, ?_⟩ ?_
      · show l.retried ++ [false] = _
        rw [hretried]
      · show l.recorded ++ [(l.attemptsMade + 1, error)] = [(l.attemptsMade + 1, error)]
        rw [hrecorded, List.nil_append]
  · cases retry with
    | true => exact Or.inr (hretry rfl)
    | false => exact absurd rfl (hgoing error)
  · show l.attemptsMade + 1 ≤ max 1 n
    rcases hleft with hfirst | ⟨attempts, hattempts, hlt⟩
    · omega
    · obtain rfl := Option.some.inj (hattempts.symm.trans hn)
      have hless := lt_ofNat.mp hlt
      omega

theorem ledger_step (h : Ledger j l) (hstep : (machine o j).step l d = some m) : Ledger j m := by
  cases step_cases hstep with
  | completed s value opened attempt settled verdict => exact h.complete opened verdict
  | failed s error opened attempt settled verdict => exact h.fail opened verdict

/-- **What is judged alike is announced right.** -/
theorem announced_step (h : l.announced = l.retried) (hjudged : Judged o j l d)
    (hstep : (machine o j).step l d = some m) : m.announced = m.retried := by
  cases step_cases hstep with
  | completed s value opened attempt settled verdict => exact h
  | failed s error opened attempt settled verdict =>
    have hright : s.counters.contains .retrying =
        bullmqRetries o.heap (l.call j d).job error := by
      cases verdict with
      | caught thrown first timed raced counters =>
        have hverdict := willRetry_of_judgedAlike (hjudged s thrown attempt raced)
        rw [← hverdict, counters]
        rcases timed with rfl | rfl <;>
          cases (catchRun o.heap (l.call j d).job thrown).willRetry <;> rfl
      | unknown unregistered counters =>
        -- the error of an unknown name is permanent for both
        have hpermanent : bullmqRetries o.heap (l.call j d).job
            (.kit (.unknownJob (l.call j d).job.name)) = false := by
          rw [Bool.eq_false_iff, Ne, bullmqRetries_iff]
          rintro ⟨-, hnot⟩
          exact hnot (Or.inl rfl)
        rw [hpermanent, counters]
        rfl
    show l.announced ++ [_] = l.retried ++ [_]
    rw [h, hright]

/-- **The ledger of a life**, whatever the handlers, the timeouts and the aborts. Every attempt is
counted once, as failed or as completed; the job is run no more often than it may; the queue runs it
again after each failure but, perhaps, the last, and exactly that one is recorded, with its number
and its error. The retries that were announced are those that took place, where each value that an
attempt has caught is judged alike. -/
theorem life_account (hrun : (machine o j).run start ds = some l) :
    Ledger j l ∧ ((machine o j).StepsMeet (Judged o j) start ds → l.announced = l.retried) := by
  constructor
  · exact Machine.run_invariant (M := machine o j) (G := fun _ _ => True) (I := Ledger j)
      (fun _ _ _ h _ hstep => ledger_step h hstep) ledger_start Machine.stepsMeet_true hrun
  · intro hjudged
    exact Machine.run_invariant (M := machine o j) (I := fun l => l.announced = l.retried)
      (fun _ _ _ h hG hstep => announced_step h hG hstep) rfl hjudged hrun

/-- An e-mail job that may be attempted three times. -/
def threeAttempts : StoredJob :=
  ⟨(emailCall none).job.name, (emailCall none).job.data, some (.ofNat 3)⟩

/-- An attempt whose handler throws an error of the kit. -/
def throwing (error : KitError) : Delivery :=
  ⟨.throws (.kit error), none, List.replicate 5 .microtask⟩

/-- A failure that may pass, and one that is permanent: the second ends the life and is recorded,
though an attempt is left. -/
theorem life_account_permanent : ∃ l,
    (machine emailProcessor threeAttempts).run start
        [throwing (.transient (js "busy")), throwing (.nonRetryable (js "gone"))] = some l ∧
      l.recorded = [(2, .kit (.nonRetryable (js "gone")))] ∧ Ledger threeAttempts l ∧
      l.announced = l.retried := by
  obtain ⟨m, l, s, t, hfirst, hsecond, hrecorded, hs, hraced, ht, hraced'⟩ : ∃ m l s t,
      (machine emailProcessor threeAttempts).step start (throwing (.transient (js "busy"))) =
          some m ∧
        (machine emailProcessor threeAttempts).step m (throwing (.nonRetryable (js "gone"))) =
          some l ∧
        l.recorded = [(2, .kit (.nonRetryable (js "gone")))] ∧
        attempt emailProcessor threeAttempts start (throwing (.transient (js "busy"))) = some s ∧
        s.loop.settled .raced = some (.rejected (.kit (.transient (js "busy")))) ∧
        attempt emailProcessor threeAttempts m (throwing (.nonRetryable (js "gone"))) = some t ∧
        t.loop.settled .raced = some (.rejected (.kit (.nonRetryable (js "gone")))) :=
    ⟨_, _, _, _, rfl, rfl, rfl, rfl, rfl, rfl, rfl⟩
  have hrun : (machine emailProcessor threeAttempts).run start
      [throwing (.transient (js "busy")), throwing (.nonRetryable (js "gone"))] = some l :=
    Machine.run_cons.mpr ⟨m, hfirst, Machine.run_cons.mpr ⟨l, hsecond, rfl⟩⟩
  obtain ⟨hledger, hannounced⟩ := life_account hrun
  refine ⟨l, hrun, hrecorded, hledger, hannounced ⟨?_, fun m' hm' => ⟨?_, fun _ _ => trivial⟩⟩⟩
  · intro s' error hs' herror _
    obtain rfl := Option.some.inj (hs.symm.trans hs')
    obtain rfl := Settlement.rejected.inj (Option.some.inj (hraced.symm.trans herror))
    exact judgedAlike_kit _ _
  · obtain rfl := Option.some.inj (hfirst.symm.trans hm')
    intro t' error ht' herror _
    obtain rfl := Option.some.inj (ht.symm.trans ht')
    obtain rfl := Settlement.rejected.inj (Option.some.inj (hraced'.symm.trans herror))
    exact judgedAlike_kit _ _

end Life

end Attempt

end QueueWorkerKit
