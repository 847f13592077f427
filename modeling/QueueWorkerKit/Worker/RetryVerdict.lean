import QueueWorkerKit.Worker.Processor

/-!
# The retry verdict and the rule of the queue

The catch path of the processor decides whether a job will be retried, to count it; the queue
decides again, from what the processor rejected with, to run it. The kit tests the class of BullMQ's
permanent error, and, for instances of `Error`, four names; the queue tests that class, and one of
these names, on any value.

## Main definitions

* `Unrecoverable`, `BullmqRetries`: the rule of the queue
* `KitPermanent`: the values that the kit calls permanent
* `JudgedAlike`: the values on which the two agree

## Main results

* `classifyError_eq`: the kit's classification in one place
* `judgedAlike_kit`: the kit's own errors are judged alike
* `willRetry_iff`: **when the verdict is that of the queue**
-/

namespace QueueWorkerKit

open Ecma

namespace Attempt

/-- An instance of BullMQ's permanent error, or a value that carries its name. -/
def Unrecoverable (h : Heap ErrorClass) (error : Thrown) : Prop :=
  error.instanceOf h .unrecoverableError = .ok true ∨
    error.name h = .ok (.string (js "UnrecoverableError"))

/-- `attemptsMade + 1 < opts.attempts`. -/
def AttemptsLeft (job : ActiveJob) : Prop :=
  ∃ attempts, job.attempts = some attempts ∧
    (JsNumber.ofNat (job.attemptsMade + 1)).lt attempts = true

/-- The queue runs a failed job again. -/
def BullmqRetries (h : Heap ErrorClass) (job : ActiveJob) (error : Thrown) : Prop :=
  AttemptsLeft job ∧ ¬ Unrecoverable h error

/-- An instance of `Error`, not of BullMQ's class, that carries one of some names. -/
def NamedError (h : Heap ErrorClass) (error : Thrown) (names : List JsString) : Prop :=
  error.instanceOf h .unrecoverableError = .ok false ∧ error.instanceOf h .error = .ok true ∧
    ∃ name ∈ names, error.name h = .ok (.string name)

/-- A value that is no `Error` and carries the name of BullMQ's class. -/
def NamedValue (h : Heap ErrorClass) (error : Thrown) : Prop :=
  error.instanceOf h .unrecoverableError = .ok false ∧ error.instanceOf h .error = .ok false ∧
    error.name h = .ok (.string (js "UnrecoverableError"))

/-- A value that the kit calls permanent. -/
def KitPermanent (h : Heap ErrorClass) (error : Thrown) : Prop :=
  error.instanceOf h .unrecoverableError = .ok true ∨
    NamedError h error (js "UnrecoverableError" :: kitPermanentNames)

/-- One of the tests on a value throws, in their order. -/
inductive TestThrows (h : Heap ErrorClass) (error : Thrown) (v : JsValue) : Prop
  | unrecoverableError (throws : error.instanceOf h .unrecoverableError = .error v)
  | error (answer : error.instanceOf h .unrecoverableError = .ok false)
      (throws : error.instanceOf h .error = .error v)
  | name (answer : error.instanceOf h .unrecoverableError = .ok false)
      (answer' : error.instanceOf h .error = .ok true) (throws : error.name h = .error v)

/-- The values on which the kit and the queue agree. One that can be looked at is neither an error
with a name of the kit alone, nor a value with the name of BullMQ's class that is no error. Where a
test throws in place of the value, the queue must find the new value permanent, and where the log
does, the two verdicts are about different values. -/
structure JudgedAlike (h : Heap ErrorClass) (error : Thrown) : Prop where
  tests : ∀ v, TestThrows h error v → Unrecoverable h (.value v)
  log : (∀ v, ¬ TestThrows h error v) → ∀ v, logError h error = .error v →
    (KitPermanent h error ↔ Unrecoverable h (.value v))
  plain : (∀ v, ¬ TestThrows h error v) → logError h error = .ok () →
    ¬ NamedError h error kitPermanentNames ∧ ¬ NamedValue h error

variable {h : Heap ErrorClass} {job : ActiveJob} {error : Thrown}

/-- The attempts that the kit counts on are those that the queue allows. -/
theorem attemptsRemain_iff : attemptsRemain job = true ↔ AttemptsLeft job := by
  unfold attemptsRemain AttemptsLeft
  cases hattempts : job.attempts with
  | some attempts => simp
  | none =>
    -- `attempt` is 1 at least, so the default of 1 leaves none
    have hlt : (JsNumber.ofNat (job.attemptsMade + 1)).lt (.ofNat 1) = false := by
      simp only [JsNumber.ofNat, JsNumber.lt, decide_eq_false_iff_not]
      exact_mod_cast Nat.not_lt.mpr (Nat.le_add_left 1 job.attemptsMade)
    simp [hlt]

theorem isOneOf_iff {names : List JsString} {v : JsValue} :
    isOneOf names v = true ↔ ∃ name ∈ names, v = .string name := by
  cases v <;> simp [isOneOf]

/-- A test that throws makes the classification throw. -/
theorem TestThrows.classifyError {v : JsValue} (hthrows : TestThrows h error v) :
    classifyError h error = .error v := by
  rcases hthrows with hv | ⟨hanswer, hv⟩ | ⟨hanswer, herror, hv⟩
  all_goals simp_all [QueueWorkerKit.classifyError, isNonRetryableError, bind, Except.bind]

/-- **The kit's classification**: a test throws, or the value is permanent, or it is not. -/
theorem classifyError_eq : (∃ v, TestThrows h error v ∧ classifyError h error = .error v) ∨
    (∀ v, ¬ TestThrows h error v) ∧
      (KitPermanent h error ∧ classifyError h error = .ok .nonRetryable ∨
        ¬ KitPermanent h error ∧ classifyError h error = .ok .retryable) := by
  cases hclass : error.instanceOf h .unrecoverableError with
  | error v =>
    exact Or.inl ⟨v, .unrecoverableError hclass, by
      simp [classifyError, isNonRetryableError, hclass, bind, Except.bind]⟩
  | ok isClass =>
    cases isClass with
    | true =>
      refine Or.inr ⟨?_, Or.inl ⟨Or.inl hclass, ?_⟩⟩
      · rintro v (hthrows | ⟨hanswer, -⟩ | ⟨hanswer, -, -⟩) <;> simp_all
      · simp [classifyError, isNonRetryableError, hclass, bind, Except.bind, pure, Except.pure]
    | false =>
      cases herror : error.instanceOf h .error with
      | error v =>
        exact Or.inl ⟨v, .error hclass herror, by
          simp [classifyError, isNonRetryableError, hclass, herror, bind, Except.bind]⟩
      | ok isError =>
        cases isError with
        | false =>
          refine Or.inr ⟨?_, Or.inr ⟨?_, ?_⟩⟩
          · rintro v (hthrows | ⟨-, hthrows⟩ | ⟨-, hanswer, -⟩) <;> simp_all
          · rintro (hanswer | ⟨-, hanswer, -⟩) <;> simp_all
          · simp [classifyError, isNonRetryableError, hclass, herror, bind, Except.bind, pure,
              Except.pure]
        | true =>
          cases hname : error.name h with
          | error v =>
            exact Or.inl ⟨v, .name hclass herror hname, by
              simp [classifyError, isNonRetryableError, hclass, herror, hname, bind, Except.bind]⟩
          | ok name =>
            have hpermanent : KitPermanent h error ↔
                isOneOf (js "UnrecoverableError" :: kitPermanentNames) name = true := by
              simp [KitPermanent, NamedError, hclass, herror, hname, isOneOf_iff]
            refine Or.inr ⟨?_, ?_⟩
            · rintro v (hthrows | ⟨-, hthrows⟩ | ⟨-, -, hthrows⟩) <;> simp_all
            · rw [hpermanent]
              have hclassify : classifyError h error =
                  .ok (if isOneOf (js "UnrecoverableError" :: kitPermanentNames) name then
                    .nonRetryable else .retryable) := by
                simp [classifyError, isNonRetryableError, hclass, herror, hname, bind, Except.bind,
                  pure, Except.pure]
              rw [hclassify]
              cases isOneOf (js "UnrecoverableError" :: kitPermanentNames) name <;> simp

/-- A value that answers every test is permanent for the kit and for the queue alike, unless it is
of one of the two kinds that only one of them knows. -/
theorem kitPermanent_iff_unrecoverable (hlook : ∀ v, ¬ TestThrows h error v) :
    (KitPermanent h error ↔ Unrecoverable h error) ↔
      ¬ NamedError h error kitPermanentNames ∧ ¬ NamedValue h error := by
  have hclass : js "UnrecoverableError" ∉ kitPermanentNames := by decide
  constructor
  · intro hiff
    constructor
    · rintro ⟨hanswer, herror, name, hmem, hname⟩
      have hkit : KitPermanent h error :=
        Or.inr ⟨hanswer, herror, name, List.mem_cons_of_mem _ hmem, hname⟩
      rcases hiff.mp hkit with hanswer' | hname'
      · rw [hanswer] at hanswer'
        cases hanswer'
      · rw [hname] at hname'
        obtain rfl := JsValue.string.inj (Except.ok.inj hname')
        exact hclass hmem
    · rintro ⟨hanswer, herror, hname⟩
      rcases hiff.mpr (Or.inr hname) with hanswer' | ⟨-, herror', -⟩
      · rw [hanswer] at hanswer'
        cases hanswer'
      · rw [herror] at herror'
        cases herror'
  · rintro ⟨hnamed, hvalue⟩
    constructor
    · rintro (hanswer | ⟨hanswer, herror, name, hmem, hname⟩)
      · exact Or.inl hanswer
      · rcases List.mem_cons.mp hmem with rfl | hmem
        · exact Or.inr hname
        · exact absurd ⟨hanswer, herror, name, hmem, hname⟩ hnamed
    · rintro (hanswer | hname)
      · exact Or.inl hanswer
      -- the value carries the name: what is left to see is which classes it is an instance of
      · cases hanswer : error.instanceOf h .unrecoverableError with
        | error v => exact absurd (.unrecoverableError hanswer) (hlook v)
        | ok isClass =>
          cases isClass with
          | true => exact Or.inl hanswer
          | false =>
            cases herror : error.instanceOf h .error with
            | error v => exact absurd (.error hanswer herror) (hlook v)
            | ok isError =>
              cases isError with
              | true => exact Or.inr ⟨hanswer, herror, _, List.mem_cons_self .., hname⟩
              | false => exact absurd ⟨hanswer, herror, hname⟩ hvalue

/-- An error of the kit is of BullMQ's class, or has a name that nobody calls permanent. -/
theorem unrecoverable_or_name (e : KitError) :
    ErrorClass.unrecoverableError ∈ e.errorClass.ancestors ∨
      e.name ∉ js "UnrecoverableError" :: kitPermanentNames := by
  cases e with
  | nonRetryable _ => exact Or.inl (by simp [KitError.errorClass, ErrorClass.ancestors])
  | payloadValidation _ _ => exact Or.inl (by simp [KitError.errorClass, ErrorClass.ancestors])
  | unknownJob _ => exact Or.inl (by simp [KitError.errorClass, ErrorClass.ancestors])
  | _ =>
    apply Or.inr
    simp only [KitError.name]
    decide

/-- The errors that the kit itself creates are judged alike. -/
theorem judgedAlike_kit (h : Heap ErrorClass) (e : KitError) : JudgedAlike h (.kit e) := by
  have hlook : ∀ v, ¬ TestThrows h (.kit e) v := by
    rintro v (hv | ⟨-, hv⟩ | ⟨-, -, hv⟩) <;> cases hv
  refine ⟨fun v hv => absurd hv (hlook v), fun _ v hv => ?_, fun _ _ => ?_⟩
  · cases hv
  · rcases unrecoverable_or_name e with hclass | hname
    · have hanswer : (Thrown.kit e).instanceOf h .unrecoverableError = .ok true := by
        simp [Thrown.instanceOf, hclass]
      constructor <;> rintro ⟨hnot, -⟩ <;> cases hanswer.symm.trans hnot
    · have hread : ∀ name, (Thrown.kit e).name h = .ok (.string name) → e.name = name :=
        fun _ heq => JsValue.string.inj (Except.ok.inj heq)
      constructor
      · rintro ⟨-, -, name, hmem, heq⟩
        exact hname (hread name heq ▸ List.mem_cons_of_mem _ hmem)
      · rintro ⟨-, -, heq⟩
        exact hname (hread _ heq ▸ List.mem_cons_self ..)

/-- Where a test throws, only the value that it throws counts. -/
theorem judgedAlike_of_throws {v : JsValue} (hthrows : TestThrows h error v) :
    JudgedAlike h error ↔ Unrecoverable h (.value v) := by
  constructor
  · intro halike
    exact halike.tests v hthrows
  · intro hun
    refine ⟨fun w hw => ?_, fun hlook => absurd hthrows (hlook v),
      fun hlook => absurd hthrows (hlook v)⟩
    obtain rfl := Except.error.inj (hw.classifyError.symm.trans hthrows.classifyError)
    exact hun

/-- Where the log throws, the verdicts are about different values. -/
theorem judgedAlike_of_logError {v : JsValue} (hlook : ∀ v, ¬ TestThrows h error v)
    (hlog : logError h error = .error v) :
    JudgedAlike h error ↔ (KitPermanent h error ↔ Unrecoverable h (.value v)) := by
  constructor
  · intro halike
    exact halike.log hlook v hlog
  · intro hiff
    refine ⟨fun w hw => absurd hw (hlook w), fun _ w hw => ?_, fun _ hok => ?_⟩
    · obtain rfl := Except.error.inj (hlog.symm.trans hw)
      exact hiff
    · rw [hlog] at hok
      cases hok

/-- Where nothing throws, the verdicts are about the thrown value. -/
theorem judgedAlike_of_logged (hlook : ∀ v, ¬ TestThrows h error v)
    (hlog : logError h error = .ok ()) :
    JudgedAlike h error ↔ (KitPermanent h error ↔ Unrecoverable h error) := by
  rw [kitPermanent_iff_unrecoverable hlook]
  constructor
  · intro halike
    exact halike.plain hlook hlog
  · intro hplain
    refine ⟨fun w hw => absurd hw (hlook w), fun _ w hw => ?_, fun _ _ => hplain⟩
    rw [hlog] at hw
    cases hw

/-- Without attempts left nothing is announced. -/
theorem willRetry_of_not_attemptsLeft (hleft : ¬ AttemptsLeft job) :
    (catchRun h job error).willRetry = false := by
  have hremain : attemptsRemain job = false := by
    rw [Bool.eq_false_iff]
    exact fun hremain => hleft (attemptsRemain_iff.mp hremain)
  unfold catchRun
  split
  · rfl
  · split <;> simp [hremain]

/-- **When the verdict is that of the queue.** The catch path announces a retry exactly when the
queue runs the job again on what the processor rejected with, if and only if no attempts are left
or the thrown value is one that both judge alike. -/
theorem willRetry_iff (h : Heap ErrorClass) (job : ActiveJob) (error : Thrown) :
    ((catchRun h job error).willRetry = true ↔
        BullmqRetries h job (catchRun h job error).rejection) ↔
      (AttemptsLeft job → JudgedAlike h error) := by
  by_cases hleft : AttemptsLeft job
  · rcases @classifyError_eq h error with ⟨v, hthrows, hclassify⟩ | ⟨hlook, hverdict⟩
    · -- the classification throws: nothing is announced, and the queue sees what it threw
      simp [catchRun, hclassify, BullmqRetries, hleft, judgedAlike_of_throws hthrows]
    · have hretry : ∃ classification, classifyError h error = .ok classification ∧
          (classification = .retryable ↔ ¬ KitPermanent h error) := by
        rcases hverdict with ⟨hpermanent, hclassify⟩ | ⟨hpermanent, hclassify⟩
        · exact ⟨_, hclassify, by simp [hpermanent]⟩
        · exact ⟨_, hclassify, by simp [hpermanent]⟩
      obtain ⟨classification, hclassify, hretryable⟩ := hretry
      have hremain := attemptsRemain_iff.mpr hleft
      cases hlog : logError h error with
      | error v =>
        -- the log throws after the verdict, and the queue sees what it threw
        rw [judgedAlike_of_logError hlook hlog]
        simp only [catchRun, hclassify, hlog, BullmqRetries, hleft, hremain, Bool.and_true,
          decide_eq_true_eq, hretryable, true_and, not_iff_not, forall_const]
      | ok _ =>
        -- the queue sees the thrown value itself
        rw [judgedAlike_of_logged hlook hlog]
        simp only [catchRun, hclassify, hlog, BullmqRetries, hleft, hremain, Bool.and_true,
          decide_eq_true_eq, hretryable, true_and, not_iff_not, forall_const]
  · simp [willRetry_of_not_attemptsLeft hleft, BullmqRetries, hleft]

/-! ### An error from another module instance -/

/-- An error whose class is another copy of the kit's: an instance of `Error` alone, with the name
of the kit's validation error. -/
def foreignError : JsObject ErrorClass where
  callable := false
  instanceOf c := .ok (c = .error)
  get key := .ok <|
    if key = "name" then .string (js "PayloadValidationError")
    else if key = "message" then .string (js "Invalid payload")
    else .undefined
  toText := .ok (js "PayloadValidationError: Invalid payload")
  toJson := .ok none

/-- The first of five attempts. -/
def firstAttempt : ActiveJob := ⟨js "email.send", .null, 0, some (.ofNat 5)⟩

/-- **A foreign error with a name of the kit's is announced as final and retried.** -/
theorem foreign_error_is_retried :
    (catchRun (fun _ => foreignError) firstAttempt (.value (.object 0))).willRetry = false ∧
      BullmqRetries (fun _ => foreignError) firstAttempt
        (catchRun (fun _ => foreignError) firstAttempt (.value (.object 0))).rejection := by
  obtain ⟨hretry, hrejection⟩ :
      (catchRun (fun _ => foreignError) firstAttempt (.value (.object 0))).willRetry = false ∧
        (catchRun (fun _ => foreignError) firstAttempt (.value (.object 0))).rejection =
          .value (.object 0) := ⟨rfl, rfl⟩
  refine ⟨hretry, ⟨_, rfl, rfl⟩, ?_⟩
  rw [hrejection]
  rintro (hanswer | hname)
  · cases hanswer
  · have hne : js "PayloadValidationError" ≠ js "UnrecoverableError" := by decide
    exact hne (JsValue.string.inj (Except.ok.inj hname))

end Attempt

end QueueWorkerKit
