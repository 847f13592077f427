import QueueWorkerKit.Worker.AttemptDecision

/-!
# The outcome of an attempt

An attempt has to settle with the error of its name or of its data, and otherwise with whichever
comes first of the result of its handler, the timer and the abort by the worker: a reason that is an
error as it is, any other wrapped. Nothing is due for a reason that throws when it is tested for
its class, and no attempt that such an abort comes first to meets that.

## Main definitions

* `Due.Met`, `AsExpected`: a settlement is the one that is due, and the attempt stands so
* `overtakes`, `overtaken`: the abort that overtakes a result
* `Decisive`: the histories in which nothing but what comes first is taken

## Main results

* `taken_cases`: what the race takes came first, overtakes, or follows an abort that is not heard
* `expected_of_stuck`: what leaves an attempt stuck
* `outcome_iff`: **when an attempt settles with what it has to**
-/

namespace QueueWorkerKit

open Ecma EventDriven

namespace Attempt

variable {o : ProcessorOptions} {c : Call} {definition : JobDefinition} {s : State}
  {r r' : Settled} {settled : Option Settled} {es : List Event} {error : Thrown} {reason : JsValue}
  {due : Due}

/-! ## What is due -/

/-- The error for the reason of the worker is the reason itself when it is an instance of `Error`,
and an error of the kit when it is not. -/
def IsCancellation (h : Heap ErrorClass) (reason : JsValue) (error : Thrown) : Prop :=
  (reason.instanceOf h .error = .ok true ∧ error = .value reason) ∨
    (reason.instanceOf h .error = .ok false ∧
      error = .kit (.jobCancelled (cancelledMessage reason)))

/-- A settlement is the one an attempt has to settle with. -/
def Due.Met (o : ProcessorOptions) (c : Call) : Due → Settled → Prop
  | .settlement r, r' => r' = r
  | .deadline, r' => r' = .rejected (.kit (.jobTimeout (c.timeoutMs o)))
  | .abort reason, r' => ∃ error, r' = .rejected error ∧ IsCancellation o.heap reason error

/-- An attempt stands as it has to: pending while nothing has come, and settled with what came. -/
def AsExpected (o : ProcessorOptions) (c : Call) (es : List Event) (s : State) : Prop :=
  match expected o c es with
  | none => s.loop.settled .attempt = none
  | some due => ∃ r, s.loop.settled .attempt = some r ∧ due.Met o c r

/-- The error of the abort by the worker that overtakes the result of the handler: it comes after
the promise has settled, and before the microtask that brings the result to `invoke`. -/
def overtakes (h : Heap ErrorClass) : Option Settled → List Event → Option Thrown
  | _, [] => none
  | settled, .handlerSettles r :: es => overtakes h (some (settled.getD r)) es
  | some _, .workerAborts reason _ :: _ => (cancellation h reason).toOption
  | none, .microtask :: es => overtakes h none es
  | _, _ :: _ => none

/-- The error of the abort by the worker that overtakes the result of a handler that is waited
for. -/
def overtaken (o : ProcessorOptions) (c : Call) (es : List Event) : Option Thrown :=
  match c.definition o with
  | none => none
  | some definition =>
    match validate o.fmt definition c.job.data, c.aborted, c.handler with
    | .ok _, none, .returns settled => overtakes o.heap settled es
    | _, _, _ => none

/-- Nothing but what comes first is taken: the signal of a job with invalid data is not aborted
before its race is entered; the reason of an abort that comes first answers the class test; no abort
overtakes a result, unless it comes to the same; and to look at the error that comes first throws
nothing else. -/
structure Decisive (o : ProcessorOptions) (c : Call) (es : List Event) : Prop where
  checked : ∀ definition e, c.definition o = some definition →
    validate o.fmt definition c.job.data = .error e → c.aborted = none
  answered : ∀ reason, expected o c es = some (.abort reason) → AnswersTest o.heap reason
  inTime : ∀ error, overtaken o c es = some error →
    expected o c es = some (.settlement (.rejected (rethrown o.heap error)))
  unharmed : overtaken o c es = none → ∀ due error, expected o c es = some due →
    due.Met o c (.rejected error) → rethrown o.heap error = error

/-! ## What is due, and what is taken -/

theorem cancellation_eq_ok {h : Heap ErrorClass} :
    cancellation h reason = .ok error ↔ IsCancellation h reason error := by
  unfold cancellation IsCancellation
  cases reason.instanceOf h .error with
  | error v => simp [Except.map]
  | ok isError => cases isError <;> simp [Except.map, eq_comm]

/-- No settlement but one is due. -/
theorem Due.Met.unique (h : due.Met o c r) (h' : due.Met o c r') : r = r' := by
  cases due with
  | settlement r'' => exact Eq.trans h (Eq.symm h')
  | deadline => exact Eq.trans h (Eq.symm h')
  | abort reason =>
    obtain ⟨error, rfl, herror⟩ := h
    obtain ⟨error', rfl, herror'⟩ := h'
    have hsame := (cancellation_eq_ok.mpr herror).symm.trans (cancellation_eq_ok.mpr herror')
    rw [Except.ok.inj hsame]

/-- Nothing is due for a reason that does not answer the class test. -/
theorem Due.Met.answers (h : (Due.abort reason).Met o c r) : AnswersTest o.heap reason := by
  obtain ⟨error, -, herror⟩ := h
  exact exists_cancellation_iff.mp ⟨error, cancellation_eq_ok.mpr herror⟩

/-- What overtakes a result does not come first. -/
theorem first_of_overtakes {h : Heap ErrorClass} (hover : overtakes h settled es = some error) :
    ∃ r, first settled es = some (.settlement r) := by
  induction es generalizing settled with
  | nil => cases settled <;> cases hover
  | cons e es ih =>
    cases settled with
    | some r => exact ⟨r, rfl⟩
    | none =>
      cases e with
      | handlerSettles r => exact ⟨r, rfl⟩
      | timerFires listener => cases hover
      | workerAborts reason listener => cases hover
      | microtask => exact ih hover

/-- After an abort that is not heard the race takes the result of the handler. -/
theorem eq_of_taken_unheard {h : Heap ErrorClass} {timeoutMs : ℕ}
    (htaken : taken h timeoutMs true (some r) es = some r') : r' = r := by
  induction es with
  | nil => cases htaken
  | cons e es ih =>
    cases e with
    | handlerSettles _ => exact ih htaken
    | timerFires _ => exact (Option.some.inj htaken).symm
    | workerAborts _ _ => exact ih htaken
    | microtask => exact (Option.some.inj htaken).symm

/-- **What the race takes** came first, or is the error of an abort that overtakes, or is taken in
place of an abort that came first and was not heard. -/
theorem taken_cases (htaken : taken o.heap (c.timeoutMs o) false settled es = some r) :
    (∃ error, overtakes o.heap settled es = some error ∧ r = .rejected error) ∨
      overtakes o.heap settled es = none ∧ ∃ due, first settled es = some due ∧
        (due.Met o c r ∨ ∃ reason, due = .abort reason ∧ ¬ AnswersTest o.heap reason) := by
  -- Induction on the events, for every settlement the handler's promise has by then.
  induction es generalizing settled with
  | nil => cases settled <;> cases htaken
  | cons e es ih =>
    cases e with
    | handlerSettles r₀ =>
      have hfirst : first settled (.handlerSettles r₀ :: es) =
          first (some (settled.getD r₀)) es := by
        cases settled <;> simp [first]
      rw [hfirst]
      exact ih htaken
    | timerFires listener =>
      cases settled with
      | none => exact Or.inr ⟨rfl, _, rfl, Or.inl (Option.some.inj htaken).symm⟩
      | some r₀ => exact Or.inr ⟨rfl, _, rfl, Or.inl (Option.some.inj htaken).symm⟩
    | workerAborts reason listener =>
      simp only [taken] at htaken
      cases herror : cancellation o.heap reason with
      | ok error =>
        rw [herror] at htaken
        have hr : r = .rejected error := (Option.some.inj htaken).symm
        cases settled with
        | none =>
          exact Or.inr ⟨rfl, _, rfl, Or.inl ⟨error, hr, cancellation_eq_ok.mp herror⟩⟩
        | some r₀ =>
          refine Or.inl ⟨error, ?_, hr⟩
          simp only [overtakes, herror, Except.toOption]
      | error v =>
        rw [herror] at htaken
        cases settled with
        | none =>
          -- the abort came first, and nothing is due for it
          refine Or.inr ⟨rfl, _, rfl, Or.inr ⟨reason, rfl, fun hanswers => ?_⟩⟩
          obtain ⟨error, hmade⟩ := exists_cancellation_iff.mpr hanswers
          cases hmade.symm.trans herror
        | some r₀ =>
          refine Or.inr ⟨?_, _, rfl, Or.inl (eq_of_taken_unheard htaken)⟩
          simp only [overtakes, herror, Except.toOption]
    | microtask =>
      cases settled with
      | none => exact ih htaken
      | some r₀ => exact Or.inr ⟨rfl, _, rfl, Or.inl (Option.some.inj htaken).symm⟩

/-! ## What an attempt settles with -/

/-- An error of the kit can be looked at. -/
@[simp] theorem rethrown_kit (h : Heap ErrorClass) (e : KitError) :
    rethrown h (.kit e) = .kit e := by
  unfold rethrown classifyError
  rw [isNonRetryableError_kit]
  rfl

theorem rethrown_value (h : Heap ErrorClass) (v : JsValue) :
    ∃ w, rethrown h (.value v) = .value w := by
  unfold rethrown
  cases classifyError h (.value v) with
  | error w => exact ⟨w, rfl⟩
  | ok classification =>
    cases logError h (.value v) with
    | error w => exact ⟨w, rfl⟩
    | ok _ => exact ⟨v, rfl⟩

theorem caught_eq_iff {h : Heap ErrorClass} :
    caught h r = r ↔ ∀ error, r = .rejected error → rethrown h error = error := by
  cases r with
  | fulfilled value => simp [caught]
  | rejected error => simp [caught]

/-- What fails a validation is permanent. -/
theorem validate_error {fmt : Formats} {e : KitError} {data : Data}
    (hinvalid : validate fmt definition data = .error e) :
    ∃ message issues, e = .payloadValidation message issues := by
  unfold validate at hinvalid
  split at hinvalid
  · exact ⟨_, _, (Except.error.inj hinvalid).symm⟩
  · split at hinvalid
    · exact ⟨_, _, (Except.error.inj hinvalid).symm⟩
    · cases hinvalid

/-- What is thrown for an abort is no error of a validation, also when it is looked at. -/
theorem rethrown_cancellation_ne (h : Heap ErrorClass) (reason : JsValue) (message : JsString)
    (issues : List JsString) : rethrown h (thrown (cancellation h reason)) ≠
      .kit (.payloadValidation message issues) := by
  have hvalue : ∀ v : JsValue,
      rethrown h (.value v) ≠ .kit (.payloadValidation message issues) := by
    intro v
    obtain ⟨w, hw⟩ := rethrown_value h v
    simp [hw]
  cases hmade : cancellation h reason with
  | error v => exact hvalue v
  | ok error =>
    rcases cancellation_eq_ok.mp hmade with ⟨-, rfl⟩ | ⟨-, rfl⟩
    · exact hvalue reason
    · simp [thrown]

/-- An attempt under a name that is not registered settles with its error when it is called. -/
theorem settled_unknown (hdef : c.definition o = none)
    (hrun : (machine o c).run (start o c) es = some s) :
    s.loop.settled .attempt = some (.rejected (.kit (.unknownJob c.job.name))) := by
  have hstart : (start o c).loop.settled .attempt =
      some (.rejected (.kit (.unknownJob c.job.name))) := by
    simp only [start, hdef, loop_subscribe, Loop.settled_subscribe, loop_settle]
    rfl
  exact Machine.run_invariant
    (I := fun s => s.loop.settled .attempt = some (.rejected (.kit (.unknownJob c.job.name))))
    (fun _ _ _ h _ hstep => settled_step h hstep) hstart Machine.stepsMeet_true hrun

theorem asExpected_of_none (hexpected : expected o c es = none) :
    AsExpected o c es s ↔ s.loop.settled .attempt = none := by
  simp only [AsExpected, hexpected]

theorem asExpected_of_some (hexpected : expected o c es = some due) :
    AsExpected o c es s ↔ ∃ r, s.loop.settled .attempt = some r ∧ due.Met o c r := by
  simp only [AsExpected, hexpected]

/-- Where what comes first is taken, an attempt settles with it when it can be looked at. -/
theorem asExpected_iff_of_met (hchecked : ∀ definition e, c.definition o = some definition →
      validate o.fmt definition c.job.data = .error e → c.aborted = none)
    (hover : overtaken o c es = none) (hexpected : expected o c es = some due)
    (hmet : due.Met o c r) (hsettled : s.loop.settled .attempt = some (caught o.heap r)) :
    AsExpected o c es s ↔ Decisive o c es := by
  have hasExpected : AsExpected o c es s ↔ caught o.heap r = r := by
    rw [asExpected_of_some hexpected, hsettled]
    constructor
    · rintro ⟨r', hr', hmet'⟩
      rw [Option.some.inj hr']
      exact hmet'.unique hmet
    · intro hcaught
      exact ⟨r, by rw [hcaught], hmet⟩
  rw [hasExpected, caught_eq_iff]
  constructor
  · intro hunharmed
    refine ⟨hchecked, fun reason hreason => ?_, by simp [hover], fun _ due' error hdue' hmet' => ?_⟩
    · obtain rfl : due = .abort reason := Option.some.inj (hexpected.symm.trans hreason)
      exact hmet.answers
    · obtain rfl : due = due' := Option.some.inj (hexpected.symm.trans hdue')
      exact hunharmed error (hmet.unique hmet')
  · rintro hdecisive error rfl
    exact hdecisive.unharmed hover due error hexpected hmet

/-- Where an abort comes first whose reason does not answer the class test, no attempt settles with
what it has to. -/
theorem asExpected_iff_of_unanswered (hexpected : expected o c es = some (.abort reason))
    (htest : ¬ AnswersTest o.heap reason) : AsExpected o c es s ↔ Decisive o c es := by
  apply iff_of_false
  · intro hasExpected
    obtain ⟨r, -, hmet⟩ := (asExpected_of_some hexpected).mp hasExpected
    exact htest hmet.answers
  · intro hdecisive
    exact htest (hdecisive.answered reason hexpected)

/-- A job whose data is invalid: an abort before the race is entered is taken in place of its
error. -/
theorem asExpected_iff_invalid (hdef : c.definition o = some definition) {e : KitError}
    (hdata : validate o.fmt definition c.job.data = .error e)
    (hsettled : s.loop.settled .attempt = (decision o c definition es).map (caught o.heap)) :
    AsExpected o c es s ↔ Decisive o c es := by
  have hexpected : expected o c es = some (.settlement (.rejected (.kit e))) := by
    simp only [expected, hdef, hdata]
  cases haborted : c.aborted with
  | none =>
    have hover : overtaken o c es = none := by simp only [overtaken, hdef, hdata]
    refine asExpected_iff_of_met (r := .rejected (.kit e)) (fun _ _ _ _ => haborted) hover hexpected
      rfl ?_
    rw [hsettled]
    simp only [decision, haborted, hdata, Option.map_some]
  | some reason =>
    obtain ⟨message, issues, rfl⟩ := validate_error hdata
    apply iff_of_false
    · intro hasExpected
      obtain ⟨r, hr, hmet⟩ := (asExpected_of_some hexpected).mp hasExpected
      rw [hsettled] at hr
      simp only [decision, haborted, Option.map_some, caught] at hr
      have hrejected : Settlement.rejected (rethrown o.heap (thrown (cancellation o.heap reason))) =
          .rejected (.kit (.payloadValidation message issues)) := (Option.some.inj hr).trans hmet
      exact rethrown_cancellation_ne o.heap reason message issues
        (Settlement.rejected.inj hrejected)
    · intro hdecisive
      cases haborted.symm.trans (hdecisive.checked definition _ hdef hdata)

/-- A job whose handler is waited for. -/
theorem asExpected_iff_waiting (hdef : c.definition o = some definition) {v : Validated}
    (hdata : validate o.fmt definition c.job.data = .ok v) (haborted : c.aborted = none)
    (hhandler : c.handler = .returns settled)
    (hchecked : ∀ definition e, c.definition o = some definition →
      validate o.fmt definition c.job.data = .error e → c.aborted = none)
    (hrun : (machine o c).run (start o c) es = some s)
    (hdone : s.loop.queue = [] ∨ s.loop.settled .attempt ≠ none) :
    AsExpected o c es s ↔ Decisive o c es := by
  have hdecision : decision o c definition es = taken o.heap (c.timeoutMs o) false settled es := by
    simp only [decision, haborted, hdata, hhandler]
  have hsettled := settled_of_done hdef hrun hdone
  rw [hdecision] at hsettled
  have hexpected : expected o c es = first settled es := by
    simp only [expected, hdef, hdata, haborted, hhandler]
  have hover : overtaken o c es = overtakes o.heap settled es := by
    simp only [overtaken, hdef, hdata, haborted, hhandler]
  cases htaken : taken o.heap (c.timeoutMs o) false settled es with
  | none =>
    rw [htaken, Option.map_none] at hsettled
    rcases expected_of_done hdef hrun hdone (hdecision.trans htaken) with
      hnone | ⟨reason, htest, hdue⟩
    · -- nothing has come yet
      rw [asExpected_of_none hnone]
      refine iff_of_true hsettled ⟨hchecked, ?_, fun error herror => ?_, ?_⟩
      · simp [hnone]
      · obtain ⟨r, hr⟩ := first_of_overtakes (hover.symm.trans herror)
        cases hnone.symm.trans (hexpected.trans hr)
      · simp [hnone]
    · exact asExpected_iff_of_unanswered hdue htest
  | some r =>
    rw [htaken, Option.map_some] at hsettled
    rcases taken_cases htaken with ⟨error, hovertakes, rfl⟩ | ⟨hnone, due, hfirst, hmet | hunheard⟩
    · -- the worker's abort overtakes the result
      obtain ⟨r', hfirst⟩ := first_of_overtakes hovertakes
      have hdue := hexpected.trans hfirst
      rw [asExpected_of_some hdue, hsettled]
      constructor
      · rintro ⟨r'', hr'', hmet⟩
        obtain rfl : r'' = r' := hmet
        rw [← Option.some.inj hr''] at hdue
        refine ⟨hchecked, ?_, fun error' herror' => ?_, ?_⟩
        · simp [hdue]
        · obtain rfl : error = error' :=
            Option.some.inj (hovertakes.symm.trans (hover.symm.trans herror'))
          exact hdue
        · simp [hover, hovertakes]
      · intro hdecisive
        have hcaught := hdecisive.inTime error (hover.trans hovertakes)
        obtain rfl : r' = .rejected (rethrown o.heap error) := by
          simpa using hdue.symm.trans hcaught
        exact ⟨_, rfl, rfl⟩
    · exact asExpected_iff_of_met hchecked (hover.trans hnone) (hexpected.trans hfirst) hmet
        hsettled
    · obtain ⟨reason, rfl, htest⟩ := hunheard
      exact asExpected_iff_of_unanswered (hexpected.trans hfirst) htest

/-- **When an attempt settles with what comes first.** -/
theorem asExpected_iff (hrun : (machine o c).run (start o c) es = some s)
    (hdone : s.loop.queue = [] ∨ s.loop.settled .attempt ≠ none) :
    AsExpected o c es s ↔ Decisive o c es := by
  cases hdef : c.definition o with
  | none =>
    have hexpected : expected o c es =
        some (.settlement (.rejected (.kit (.unknownJob c.job.name)))) := by
      rw [expected, hdef]
    refine asExpected_iff_of_met (by simp [hdef]) ?_ hexpected rfl ?_
    · rw [overtaken, hdef]
    · rw [settled_unknown hdef hrun]
      simp [caught]
  | some definition =>
    have hsettled := settled_of_done hdef hrun hdone
    cases hdata : validate o.fmt definition c.job.data with
    | error e => exact asExpected_iff_invalid hdef hdata hsettled
    | ok v =>
      have hchecked : ∀ definition e, c.definition o = some definition →
          validate o.fmt definition c.job.data = .error e → c.aborted = none := by
        intro definition' e hdef' herror
        obtain rfl : definition = definition' := Option.some.inj (hdef.symm.trans hdef')
        cases hdata.symm.trans herror
      cases haborted : c.aborted with
      | some reason =>
        have hexpected : expected o c es = some (.abort reason) := by
          simp only [expected, hdef, hdata, haborted]
        have hover : overtaken o c es = none := by
          simp only [overtaken, hdef, hdata, haborted]
        simp only [decision, haborted, Option.map_some] at hsettled
        cases hmade : cancellation o.heap reason with
        | ok error =>
          rw [hmade] at hsettled
          exact asExpected_iff_of_met hchecked hover hexpected
            ⟨error, rfl, cancellation_eq_ok.mp hmade⟩ hsettled
        | error w =>
          refine asExpected_iff_of_unanswered hexpected fun hanswers => ?_
          obtain ⟨error, hok⟩ := exists_cancellation_iff.mpr hanswers
          cases hok.symm.trans hmade
      | none =>
        cases hhandler : c.handler with
        | throws error =>
          have hexpected : expected o c es = some (.settlement (.rejected error)) := by
            simp only [expected, hdef, hdata, haborted, hhandler]
          refine asExpected_iff_of_met hchecked ?_ hexpected rfl ?_
          · simp only [overtaken, hdef, hdata, haborted, hhandler]
          · rw [hsettled]
            simp only [decision, haborted, hdata, hhandler, Option.map_some]
        | returns settled =>
          exact asExpected_iff_waiting hdef hdata haborted hhandler hchecked hrun hdone

/-- **An attempt gets stuck only by an abort that comes first**, and whose reason does not answer
the class test. -/
theorem expected_of_stuck (hrun : (machine o c).run (start o c) es = some s) (hstuck : Stuck s) :
    ∃ reason, ¬ AnswersTest o.heap reason ∧ expected o c es = some (.abort reason) := by
  have hattempt : s.loop.settled .attempt = none := hstuck.pending .attempt (by simp)
  cases hdef : c.definition o with
  | none => cases hattempt.symm.trans (settled_unknown hdef hrun)
  | some definition =>
    rcases decision_run hdef hrun with ⟨r, -, hdec⟩ | ⟨unheard, settled, hundec, -, hfirst⟩
    · exact absurd hstuck (hdec.not_stuck (wellFormed_of_run hdef hrun))
    · have hpending : settled = none :=
        hundec.race.handler.symm.trans (hstuck.pending .handler (by simp))
      rcases hfirst hpending with ⟨hheard, -⟩ | hunanswered
      · cases hstuck.deaf.symm.trans (hundec.listening hheard)
      · exact hunanswered

/-- **When the outcome of an attempt is decided by what happens first.** In every run of an attempt
it has settled, once no microtask is left, with the error of its name or of its data, or otherwise
with the first of the result of its handler, the timer and the worker's abort, if and only if the
run is decisive. Unless the reason of an abort that comes first throws when it is tested, every
state can be run until the attempt has settled, by its microtasks and its timer; and the error of a
validation is permanent. -/
theorem outcome_iff (o : ProcessorOptions) (c : Call) {es : List Event} {s : State}
    (hrun : (machine o c).run (start o c) es = some s) :
    (s.loop.queue = [] ∨ s.loop.settled .attempt ≠ none →
        (AsExpected o c es s ↔ Decisive o c es)) ∧
      ((∀ reason, expected o c es = some (.abort reason) → AnswersTest o.heap reason) →
        ∃ fs t, (∀ e ∈ fs, e = .microtask ∨ e = .timerFires none) ∧
          (machine o c).run s fs = some t ∧ t.loop.settled .attempt ≠ none) ∧
      ∀ definition e, c.definition o = some definition →
        validate o.fmt definition c.job.data = .error e → ∃ message issues,
          e = .payloadValidation message issues ∧
            classifyError o.heap (.kit e) = .ok .nonRetryable := by
  refine ⟨asExpected_iff hrun, fun hanswered => ?_, fun definition e _ hdata => ?_⟩
  · have hinv : CallInv o c s :=
      Machine.run_invariant (fun _ _ _ h _ hstep => callInv_step h hstep) (callInv_start o c)
        Machine.stepsMeet_true hrun
    refine exists_run_settled hinv fun hstuck => ?_
    obtain ⟨reason, htest, hexpected⟩ := expected_of_stuck hrun hstuck
    exact htest (hanswered reason hexpected)
  · obtain ⟨message, issues, rfl⟩ := validate_error hdata
    exact ⟨message, issues, rfl, rfl⟩

/-- The timer fires, a listener of the handler rejects its promise, and every microtask is run. -/
def timesOutThenRuns (r : Settled) : List Event :=
  .timerFires (some r) :: List.replicate 7 .microtask

/-- **A handler that rejects because of the deadline** leaves the attempt with the error of the
deadline. -/
theorem outcome_iff_cooperative : ∃ s,
    (machine emailProcessor (emailCall none)).run (start emailProcessor (emailCall none))
        (timesOutThenRuns (.rejected (.kit (.transient (js "aborted"))))) = some s ∧
      s.loop.queue = [] ∧
      s.loop.settled .attempt = some (.rejected (.kit (.jobTimeout 30000))) ∧
      Decisive emailProcessor (emailCall none)
        (timesOutThenRuns (.rejected (.kit (.transient (js "aborted"))))) := by
  obtain ⟨s, hrun, hattempt, hq⟩ : ∃ s,
      (machine emailProcessor (emailCall none)).run (start emailProcessor (emailCall none))
          (timesOutThenRuns (.rejected (.kit (.transient (js "aborted"))))) = some s ∧
        s.loop.settled .attempt = some (.rejected (.kit (.jobTimeout 30000))) ∧
        s.loop.queue = [] :=
    ⟨_, rfl, rfl, rfl⟩
  refine ⟨s, hrun, hq, hattempt, ((outcome_iff emailProcessor (emailCall none) hrun).1
    (Or.inl hq)).mp ⟨_, hattempt, rfl⟩⟩

/-- An attempt at a job with an empty object for its data, whose signal is aborted when it is
called. -/
def emptyCall : Call where
  job := ⟨js "email.send", .obj [], 0, some (.ofNat 5)⟩
  handler := .returns none
  aborted := some (.string (js "shutting down"))

/-- **A job with invalid data that is cancelled before it starts** is rejected with an error that is
retried. -/
theorem cancelled_entry_hides_validation : ∃ definition e es s,
    emptyCall.definition emailProcessor = some definition ∧
      validate emailProcessor.fmt definition emptyCall.job.data = .error e ∧
      (machine emailProcessor emptyCall).run (start emailProcessor emptyCall) es = some s ∧
      s.loop.queue = [] ∧
      s.loop.settled .attempt = some (.rejected (.kit (.jobCancelled (js "shutting down")))) ∧
      classifyError emailProcessor.heap (.kit (.jobCancelled (js "shutting down"))) =
        .ok .retryable ∧
      ¬ AsExpected emailProcessor emptyCall es s := by
  have hdef : emptyCall.definition emailProcessor = some (sendEmailJob featureFormats) := rfl
  obtain ⟨e, hdata⟩ : ∃ e, validate emailProcessor.fmt (sendEmailJob featureFormats)
      emptyCall.job.data = .error e := ⟨_, rfl⟩
  obtain ⟨s, hrun, hq, hattempt⟩ : ∃ s,
      (machine emailProcessor emptyCall).run (start emailProcessor emptyCall)
          [.microtask, .microtask] = some s ∧
        s.loop.queue = [] ∧
        s.loop.settled .attempt = some (.rejected (.kit (.jobCancelled (js "shutting down")))) :=
    ⟨_, rfl, rfl, rfl⟩
  refine ⟨_, e, _, s, hdef, hdata, hrun, hq, hattempt, rfl, fun hasExpected => ?_⟩
  obtain ⟨message, issues, rfl⟩ := validate_error hdata
  have hexpected : expected emailProcessor emptyCall [.microtask, .microtask] =
      some (.settlement (.rejected (.kit (.payloadValidation message issues)))) := by
    simp only [expected, hdef, hdata]
  obtain ⟨r, hr, hmet⟩ := (asExpected_of_some hexpected).mp hasExpected
  obtain rfl : r = .rejected (.kit (.payloadValidation message issues)) := hmet
  cases hattempt.symm.trans hr

end Attempt

end QueueWorkerKit
