import QueueWorkerKit.Jobs.Processors
import QueueWorkerKit.Utils.SleepOnce

/-!
# Runs of the processors

A processor that is called on a signal, which may be aborted already, with any of the listeners of
other code on it.

## Main definitions

* `Fresh`: the surroundings that a processor is called in
* `reportOperations`, `ReportAccount`: the operations of a report, and what a call of it has done
* `EmailAccount`: what a call of the e-mail processor has done
* `signalEvents`: what other code does to the signal in a run

## Main results

* `report_account`: **what a call of the report processor has done**
* `email_account`, `cleanup_account`: the same of the processors that pause once
* `updates_after_abort`: **what the report processor still does after an abort**
* `leaves_nothing`: **what a processor that has settled leaves on its signal**
-/

namespace QueueWorkerKit

open Ecma EventDriven

namespace Processors

variable {κ : Type} [DecidableEq κ] {A : Type}

/-- The surroundings that a processor is called in: no sleep and no update was called yet. -/
structure Fresh (h : Heap ErrorClass) (s : Surroundings κ) : Prop where
  signal : ∃ before, (∀ e ∈ before, SleepEvent.ofSignal e = true) ∧
    (SleepState.machine h).run .start before = some s.sleeps
  updates : ∀ n, s.updates n = none

abbrev Call (κ A : Type) := AsyncCall (Surroundings κ) Operation Unit Thrown A

variable {h : Heap ErrorClass} {s t : Surroundings κ} {body : Body κ A} {c d d' : Call κ A}
  {es fs : List (AsyncEvent (Event κ))} {n : ℕ}

/-! ## The sleeps of a call -/

/-- The sleeps that a call comes to are those of a run of sleeps on its signal. -/
theorem exists_sleeps_run (hs : Fresh h s) (hreaches : (environment h).Reaches s t) :
    ∃ fs, (SleepState.machine h).run .start fs = some t.sleeps := by
  obtain ⟨before, -, hbefore⟩ := hs.signal
  obtain ⟨es, hes⟩ := hreaches
  obtain ⟨after, hafter⟩ := follows_sleeps.run hes
  exact ⟨before ++ after, Machine.run_append.mpr ⟨_, hbefore, hafter⟩⟩

/-- The error of an aborted signal. -/
def AbortError (h : Heap ErrorClass) (s : SleepState ℕ κ) (error : Thrown) : Prop :=
  ∃ reason, s.reason = some reason ∧ error = SleepState.refusal h reason

/-- What interrupts a sleep rejects it with the error of the signal. -/
theorem refusal_of_settlements {reason : JsValue} {error : Thrown}
    (herror : (SleepState.settlements h (.interrupted reason)).head? = some (.rejected error)) :
    error = SleepState.refusal h reason := by
  cases hreason : abortReason h reason with
  | ok error' => simpa [SleepState.settlements, SleepState.refusal, hreason] using herror.symm
  | error v => simp [SleepState.settlements, hreason] at herror

omit [DecidableEq κ] in
/-- The abort that has ended a sleep is the one of its signal. -/
theorem reason_of_endedBy {es : List (SleepEvent ℕ κ)} {reason : JsValue}
    (hended : (SleepRace.after n es).stage.endedBy = some reason) :
    (SleepRace.after n es).reason = some reason := by
  -- Induction on the events, the last one first.
  induction es using List.reverseRecOn generalizing reason with
  | nil => cases hended
  | append_singleton es e ih =>
    rw [SleepRace.after_concat] at hended ⊢
    generalize SleepRace.after n es = R at hended ih ⊢
    cases e with
    | sleep i ms signal =>
      by_cases hi : i = n
      · subst hi
        rw [SleepRace.next_sleep_self] at hended ⊢
        cases hreason : R.reason with
        | none => cases signal <;> simp [SleepStage.called, hreason, SleepStage.endedBy] at hended
        | some first =>
          cases signal <;> simp [SleepStage.called, hreason, SleepStage.endedBy] at hended ⊢
          exact hended
      · rw [SleepRace.next_sleep_of_ne hi] at hended ⊢
        exact ih hended
    | timer i =>
      by_cases hi : i = n
      · subst hi
        rw [SleepRace.next_timer_self] at hended
        cases hended
      · rw [SleepRace.next_timer_of_ne hi] at hended ⊢
        exact ih hended
    | abort first =>
      by_cases hfresh : R.reason = none
      · rw [SleepRace.next_abort_of_none hfresh] at hended ⊢
        -- a sleep that had ended by an abort would have had its reason
        cases hstage : R.stage with
        | waiting signal =>
          rw [hstage] at hended
          cases signal with
          | false => cases hended
          | true => exact hended
        | uncalled =>
          rw [hstage] at hended
          cases hended
        | ended finish =>
          rw [hstage] at hended
          have hreason := ih (by rw [hstage]; exact hended)
          cases hfresh.symm.trans hreason
      · rw [SleepRace.next_abort_of_some hfresh] at hended ⊢
        exact ih hended
    | listen k once => exact ih hended
    | unlisten k => exact ih hended

/-- **A sleep is rejected only with the error of its signal.** -/
theorem abortError_of_rejected {u : SleepState ℕ κ} {es : List (SleepEvent ℕ κ)}
    (hrun : (SleepState.machine h).run .start es = some u) {error : Thrown}
    (herror : (u.sleeps.promise n).bind List.head? = some (.rejected error)) :
    AbortError h u error := by
  have hagrees := SleepState.agrees_run hrun
  have hreason : ∀ reason, (SleepRace.after n es).stage.endedBy = some reason →
      u.reason = some reason := fun reason hended =>
    (hagrees.reason n).symm.trans (reason_of_endedBy hended)
  have hstands := hagrees.stands n
  generalize (SleepRace.after n es).stage = stage at hreason hstands
  cases hstands with
  | uncalled promise => simp [promise] at herror
  | waiting ms signal promise => simp [promise] at herror
  | ended finish promise =>
    rw [promise, Option.bind_some] at herror
    cases finish with
    | timer => cases herror
    | interrupted reason => exact ⟨reason, hreason reason rfl, refusal_of_settlements herror⟩
    | refused reason =>
      refine ⟨reason, hreason reason rfl, ?_⟩
      simpa [SleepState.settlements] using herror.symm

/-! ## Reports -/

/-- The operations of a stage. -/
def stageOperations (stage : Stage) : List Operation :=
  (if stage.workMs > 0 then [.sleep stage.workMs] else []) ++
    [.updateProgress ⟨stage.percent, stage.stage⟩]

/-- The operations of a report. -/
def reportOperations : List Operation := stages.flatMap stageOperations

example : reportOperations =
    [.sleep 40, .updateProgress ⟨10, .query⟩, .sleep 40, .updateProgress ⟨40, .transform⟩,
      .sleep 40, .updateProgress ⟨70, .serialize⟩, .updateProgress ⟨100, .done⟩] := by
  rfl

omit [DecidableEq κ] in
/-- A stage, and what comes after it. -/
theorem runStage_bind (stage : Stage) (next : Unit → Body κ A) :
    (runStage h stage).bind next = .reads fun s =>
      match s.sleeps.reason with
      | some reason => .throws (SleepState.refusal h reason)
      | none =>
        if stage.workMs > 0 then
          .awaits (.sleep stage.workMs) fun _ =>
            .awaits (.updateProgress ⟨stage.percent, stage.stage⟩) next
        else .awaits (.updateProgress ⟨stage.percent, stage.stage⟩) next := by
  refine congrArg AsyncBody.reads (funext fun s => ?_)
  cases hreason : s.sleeps.reason with
  | some reason =>
    simp only [hreason]
    rfl
  | none =>
    simp only [hreason]
    by_cases hwork : stage.workMs > 0
    · simp only [hwork, if_true]
      rfl
    · simp only [hwork, if_false]
      rfl

omit [DecidableEq κ] in
/-- The loop over the stages starts with the first of them. -/
theorem forM_stages_cons (stage : Stage) (rest : List Stage) (next : Unit → Body κ A) :
    ((stage :: rest).forM (runStage h)).bind next =
      (runStage h stage).bind fun _ => (rest.forM (runStage h)).bind next := by
  rw [← AsyncBody.bind_assoc]
  rfl

/-- What the loop over some stages has done, up to where it stands. -/
structure LoopAccount (h : Heap ErrorClass) (P : Surroundings κ → Prop) (rest : List Stage)
    (result : A) (w : List (Operation × Unit)) (body : Body κ A) : Prop where
  ordered : w.map Prod.fst ++ body.pending <+: rest.flatMap stageOperations
  returned : ∀ value, body = .returns value →
    value = result ∧ w.map Prod.fst = rest.flatMap stageOperations
  threw : ∀ error, body = .throws error → ∃ s, P s ∧ AbortError h s.sleeps error

omit [DecidableEq κ] in
/-- The loop goes on after the operations of a stage. -/
theorem LoopAccount.cons {P : Surroundings κ → Prop} {stage : Stage} {rest : List Stage}
    {result : A} {w v : List (Operation × Unit)} (ha : LoopAccount h P rest result w body)
    (hv : v.map Prod.fst = stageOperations stage) :
    LoopAccount h P (stage :: rest) result (v ++ w) body where
  ordered := by
    rw [List.map_append, hv, List.append_assoc, List.flatMap_cons]
    exact List.prefix_append_right_inj _ |>.mpr ha.ordered
  returned value hvalue := by
    obtain ⟨rfl, hw⟩ := ha.returned value hvalue
    exact ⟨rfl, by rw [List.map_append, hv, hw, List.flatMap_cons]⟩
  threw := ha.threw

omit [DecidableEq κ] in
/-- The loop stands within a stage. -/
theorem loopAccount_within {P : Surroundings κ → Prop} {stage : Stage} {rest : List Stage}
    {result : A} {w : List (Operation × Unit)}
    (hordered : w.map Prod.fst ++ body.pending <+: stageOperations stage)
    (hreturns : ∀ value, body ≠ .returns value)
    (hthrows : ∀ error, body = .throws error → ∃ s, P s ∧ AbortError h s.sleeps error) :
    LoopAccount h P (stage :: rest) result w body where
  ordered := by
    rw [List.flatMap_cons]
    exact hordered.trans (List.prefix_append _ _)
  returned value hvalue := absurd hvalue (hreturns value)
  threw := hthrows

omit [DecidableEq κ] in
/-- **What the loop over some stages has done**, wherever it stands. -/
theorem loopAccount_of_performs {P : Surroundings κ → Prop} {rest : List Stage} {result : A}
    {w : List (Operation × Unit)} (hperforms :
      ((rest.forM (runStage h)).bind fun _ => .returns result).Performs P w body) :
    LoopAccount h P rest result w body := by
  -- Induction on the stages to come.
  induction rest generalizing w with
  | nil =>
    obtain ⟨rfl, rfl⟩ := AsyncBody.performs_returns hperforms
    refine ⟨List.nil_prefix, fun value hvalue => ?_, fun error herror => by cases herror⟩
    obtain rfl := AsyncBody.returns.inj hvalue
    exact ⟨rfl, rfl⟩
  | cons stage rest ih =>
    rw [forM_stages_cons, runStage_bind] at hperforms
    rcases AsyncBody.performs_reads hperforms with ⟨rfl, rfl⟩ | ⟨s, hs, hperforms⟩
    · exact loopAccount_within List.nil_prefix (fun _ h => by cases h) fun _ h => by cases h
    cases hreason : s.sleeps.reason with
    | some reason =>
      -- the check of the stage throws
      simp only [hreason] at hperforms
      obtain ⟨rfl, rfl⟩ := AsyncBody.performs_throws hperforms
      refine loopAccount_within List.nil_prefix (fun _ h => by cases h) fun error herror => ?_
      obtain rfl := AsyncBody.throws.inj herror
      exact ⟨s, hs, reason, hreason, rfl⟩
    | none =>
      simp only [hreason] at hperforms
      split_ifs at hperforms with hwork
      · have hops : stageOperations stage =
            [.sleep stage.workMs, .updateProgress ⟨stage.percent, stage.stage⟩] := by
          simp [stageOperations, hwork]
        rcases AsyncBody.performs_awaits hperforms with ⟨rfl, rfl⟩ | ⟨_, w, rfl, hupdate⟩
        · exact loopAccount_within (hops ▸ ⟨_, rfl⟩) (fun _ h => by cases h) fun _ h => by cases h
        rcases AsyncBody.performs_awaits hupdate with ⟨rfl, rfl⟩ | ⟨_, w, rfl, hnext⟩
        · exact loopAccount_within (hops ▸ ⟨[], rfl⟩) (fun _ h => by cases h) fun _ h => by cases h
        exact (ih hnext).cons (v := [_, _]) hops.symm
      · have hops : stageOperations stage =
            [.updateProgress ⟨stage.percent, stage.stage⟩] := by
          simp [stageOperations, hwork]
        rcases AsyncBody.performs_awaits hperforms with ⟨rfl, rfl⟩ | ⟨_, w, rfl, hnext⟩
        · exact loopAccount_within (hops ▸ ⟨[], rfl⟩) (fun _ h => by cases h) fun _ h => by cases h
        exact (ih hnext).cons (v := [_]) hops.symm

/-- What a call of the report processor has done. -/
structure ReportAccount (h : Heap ErrorClass) (data : GenerateReportPayload)
    (c : Call κ GenerateReportResult) : Prop where
  /-- The operations are called in the order of the stages, each of them once. -/
  ordered : c.calls <+: reportOperations
  /-- A result is the one of the payload, after every operation was fulfilled. -/
  returned : ∀ result, c.phase = .settled (.fulfilled result) →
    result = reportResult data ∧ c.calls = reportOperations ∧
      ∀ n op, c.calls[n]? = some op → (environment h).Fulfilled c.environment n op
  /-- A failure is the error of the signal, or that of the last update that was called. -/
  rejected : ∀ error, c.phase = .settled (.rejected error) →
    AbortError h c.environment.sleeps error ∨ ∃ before progress,
      c.calls = before ++ [.updateProgress progress] ∧
      promise c.environment before.length (.updateProgress progress) = some (.rejected error)

theorem abortError_of_reaches {error : Thrown} (herror : AbortError h s.sleeps error)
    (hreaches : (environment h).Reaches s t) : AbortError h t.sleeps error := by
  obtain ⟨reason, hreason, rfl⟩ := herror
  obtain ⟨es, hes⟩ := hreaches
  obtain ⟨fs, hfs⟩ := follows_sleeps.run hes
  refine ⟨reason, ?_, rfl⟩
  exact Machine.run_invariant (M := SleepState.machine h) (G := fun _ _ => True)
    (I := fun u => u.reason = some reason) (fun _ _ _ hu _ hstep => reason_of_step hstep hu) hreason
    Machine.stepsMeet_true hfs

/-- **What a call of the report processor has done**, in every run. -/
theorem report_account (data : GenerateReportPayload) {c d : Call κ GenerateReportResult}
    (hs : Fresh h s)
    (hstart : (environment h).start s (createGenerateReportProcessor h data) = some c)
    (hrun : (environment h).asyncMachine.run c es = some d) : ReportAccount h data d := by
  obtain ⟨fs, hfs⟩ := exists_sleeps_run hs (AsyncEnvironment.reaches_run hstart hrun)
  cases AsyncEnvironment.performed_run hstart hrun with
  | awaiting w op k phase calls performs answers =>
    have haccount := loopAccount_of_performs performs
    refine ⟨?_, fun result hresult => ?_, fun error herror => ?_⟩
    · rw [calls]
      exact haccount.ordered
    · cases phase.symm.trans hresult
    · cases phase.symm.trans herror
  | returned w value phase calls performs answers =>
    have haccount := loopAccount_of_performs performs
    refine ⟨?_, fun result hresult => ?_, fun error herror => ?_⟩
    · have hordered := haccount.ordered
      rw [AsyncBody.pending_returns, List.append_nil, ← calls] at hordered
      exact hordered
    · obtain rfl : value = result := by simpa [phase] using hresult
      obtain ⟨hresult, hcalls⟩ := haccount.returned value rfl
      exact ⟨hresult, calls.trans hcalls, fun n op hop => answers.fulfilled (calls ▸ hop)⟩
    · cases phase.symm.trans herror
  | threw w error phase calls performs answers =>
    have haccount := loopAccount_of_performs performs
    refine ⟨?_, fun result hresult => ?_, fun error' herror => Or.inl ?_⟩
    · have hordered := haccount.ordered
      rw [AsyncBody.pending_throws, List.append_nil, ← calls] at hordered
      exact hordered
    · cases phase.symm.trans hresult
    · obtain rfl : error = error' := by simpa [phase] using herror
      obtain ⟨u, hbetween, habort⟩ := haccount.threw error rfl
      exact abortError_of_reaches habort hbetween.2
  | rejected w op k error phase calls performs answers hpromise =>
    have haccount := loopAccount_of_performs performs
    refine ⟨?_, fun result hresult => ?_, fun error' herror => ?_⟩
    · rw [calls]
      exact haccount.ordered
    · cases phase.symm.trans hresult
    · obtain rfl : error = error' := by simpa [phase] using herror
      cases op with
      | sleep ms => exact Or.inl (abortError_of_rejected hfs hpromise)
      | updateProgress progress =>
        exact Or.inr ⟨w.map Prod.fst, progress, calls, by rwa [List.length_map]⟩

/-- A report in CSV. -/
def csvReport : GenerateReportPayload := ⟨js "report-7", js "user-7", .csv⟩

/-- A signal that nothing has happened to. -/
def untouched : Surroundings ℕ := ⟨.start, fun _ => none, plainContext.now⟩

theorem fresh_untouched : Fresh h untouched :=
  ⟨⟨[], fun e he => (by cases he), rfl⟩, fun _ => rfl⟩

/-- The second update fails: the report has called four operations. -/
theorem report_account_csv : ∃ c d : Call ℕ GenerateReportResult,
    (environment fun _ => SleepState.revokedProxy).start untouched
      (createGenerateReportProcessor (fun _ => SleepState.revokedProxy) csvReport) = some c ∧
    (environment fun _ => SleepState.revokedProxy).asyncMachine.run c
      [.environment (.timer 0), .resume, .environment (.updateSettles 1 (.fulfilled ())), .resume,
        .environment (.timer 2), .resume,
        .environment (.updateSettles 3 (.rejected (.value (.string (js "closed"))))), .resume] =
        some d ∧
    d.calls = reportOperations.take 4 ∧
      ReportAccount (fun _ => SleepState.revokedProxy) csvReport d := by
  obtain ⟨c, d, hstart, hrun, hcalls⟩ : ∃ c d : Call ℕ GenerateReportResult,
      (environment fun _ => SleepState.revokedProxy).start untouched
        (createGenerateReportProcessor (fun _ => SleepState.revokedProxy) csvReport) = some c ∧
      (environment fun _ => SleepState.revokedProxy).asyncMachine.run c
        [.environment (.timer 0), .resume, .environment (.updateSettles 1 (.fulfilled ())), .resume,
          .environment (.timer 2), .resume,
          .environment (.updateSettles 3 (.rejected (.value (.string (js "closed"))))), .resume] =
          some d ∧
      d.calls = reportOperations.take 4 := ⟨_, _, rfl, rfl, rfl⟩
  exact ⟨c, d, hstart, hrun, hcalls, report_account csvReport fresh_untouched hstart hrun⟩

/-! ## E-mails and clean-ups -/

/-- The error for a template that the demo provider does not know. -/
def unknownTemplate (template : JsString) : Thrown :=
  .kit (.nonRetryable (js "Unknown email template \"" ++ template ++ js "\""))

/-- The error for an address that the demo provider rejects for now. -/
def temporarilyRejected : Thrown :=
  .kit (.transient (js "Email provider temporarily rejected the request"))

def emailResult (data : SendEmailPayload) (now : TimeValue) : SendEmailResult where
  delivered := true
  providerMessageId := js "demo_" ++ data.userId ++ js "_" ++ radix36 now.ms
  template := data.template

/-- What an e-mail does after its pause. -/
def deliver (data : SendEmailPayload) : Body κ SendEmailResult :=
  if isRejectedAddress data.recipient then .throws temporarilyRejected
  else .reads fun s => .returns (emailResult data s.clock)

omit [DecidableEq κ] in
theorem sendEmail_eq (latencyMs : Option ℕ) (correlationId : JsString) (data : SendEmailPayload) :
    (createSendEmailProcessor (createDemoEmailProvider latencyMs) correlationId data : Body κ _) =
      if data.template ∈ knownTemplates then
        .awaits (.sleep (latencyMs.getD 25)) fun _ => deliver data
      else .throws (unknownTemplate data.template) := by
  by_cases hknown : data.template ∈ knownTemplates
  · by_cases hrejected : isRejectedAddress data.recipient = true
    · simp only [createSendEmailProcessor, createDemoEmailProvider, deliver, hknown, hrejected,
        not_true, if_true, if_false]
      rfl
    · simp only [createSendEmailProcessor, createDemoEmailProvider, deliver, hknown, hrejected,
        not_true, if_true, if_false]
      rfl
  · simp only [createSendEmailProcessor, createDemoEmailProvider, hknown, not_false_iff, if_true,
      if_false]
    rfl

/-- What a call of the e-mail processor has done, with the demo provider. -/
structure EmailAccount (h : Heap ErrorClass) (ms : ℕ) (data : SendEmailPayload)
    (s : Surroundings κ) (c : Call κ SendEmailResult) : Prop where
  /-- A template that is not known is refused for good, before anything is awaited. -/
  unknown : data.template ∉ knownTemplates →
    c.calls = [] ∧ c.phase = .settled (.rejected (unknownTemplate data.template))
  /-- Otherwise there is one pause. -/
  known : data.template ∈ knownTemplates → c.calls = [.sleep ms]
  /-- An e-mail is delivered after its pause, to an address that is not rejected. Its id has a time
  of the call. -/
  returned : ∀ result, c.phase = .settled (.fulfilled result) → data.template ∈ knownTemplates ∧
    isRejectedAddress data.recipient = false ∧
    (environment h).Fulfilled c.environment 0 (.sleep ms) ∧
    ∃ t, (environment h).Between s c.environment t ∧ result = emailResult data t.clock
  /-- A failure is the error of the signal, or it may be retried if the address is at fault. -/
  rejected : ∀ error, c.phase = .settled (.rejected error) → data.template ∈ knownTemplates →
    AbortError h c.environment.sleeps error ∨ error = temporarilyRejected ∧
      isRejectedAddress data.recipient = true ∧
      (environment h).Fulfilled c.environment 0 (.sleep ms)

omit [DecidableEq κ] in
/-- What is left of an e-mail after its pause. -/
theorem deliver_performs {P : Surroundings κ → Prop} {data : SendEmailPayload}
    {w : List (Operation × Unit)} {rest : Body κ SendEmailResult}
    (hperforms : (deliver data).Performs P w rest) : w = [] ∧
      (isRejectedAddress data.recipient = true ∧ rest = .throws temporarilyRejected ∨
        isRejectedAddress data.recipient = false ∧
          ((∃ k, rest = .reads k) ∨ ∃ t, P t ∧ rest = .returns (emailResult data t.clock))) := by
  cases hrejected : isRejectedAddress data.recipient with
  | true =>
    rw [deliver, if_pos hrejected] at hperforms
    obtain ⟨rfl, rfl⟩ := AsyncBody.performs_throws hperforms
    exact ⟨rfl, Or.inl ⟨rfl, rfl⟩⟩
  | false =>
    rw [deliver, if_neg (by simp [hrejected])] at hperforms
    rcases AsyncBody.performs_reads hperforms with ⟨rfl, rfl⟩ | ⟨t, ht, hreturns⟩
    · exact ⟨rfl, Or.inr ⟨rfl, Or.inl ⟨_, rfl⟩⟩⟩
    · obtain ⟨rfl, rfl⟩ := AsyncBody.performs_returns hreturns
      exact ⟨rfl, Or.inr ⟨rfl, Or.inr ⟨t, ht, rfl⟩⟩⟩

omit [DecidableEq κ] in
/-- What is left of a pause and what comes after it. -/
theorem pause_performs {P : Surroundings κ → Prop} {ms : ℕ} {next rest : Body κ A}
    {w : List (Operation × Unit)}
    (hperforms : (AsyncBody.awaits (.sleep ms) fun _ => next).Performs P w rest) :
    w = [] ∧ rest = .awaits (.sleep ms) (fun _ => next) ∨
      ∃ w', w = (.sleep ms, ()) :: w' ∧ next.Performs P w' rest := by
  rcases AsyncBody.performs_awaits hperforms with hfirst | ⟨_, w', rfl, hnext⟩
  · exact Or.inl hfirst
  · exact Or.inr ⟨w', rfl, hnext⟩

/-- **What a call of the e-mail processor has done**, in every run. -/
theorem email_account (latencyMs : Option ℕ) (correlationId : JsString) (data : SendEmailPayload)
    {c d : Call κ SendEmailResult} (hs : Fresh h s)
    (hstart : (environment h).start s
      (createSendEmailProcessor (createDemoEmailProvider latencyMs) correlationId data) = some c)
    (hrun : (environment h).asyncMachine.run c es = some d) :
    EmailAccount h (latencyMs.getD 25) data s d := by
  obtain ⟨fs, hfs⟩ := exists_sleeps_run hs (AsyncEnvironment.reaches_run hstart hrun)
  have hperformed := AsyncEnvironment.performed_run hstart hrun
  rw [sendEmail_eq] at hperformed
  split_ifs at hperformed with hknown
  · cases hperformed with
    | awaiting w op k phase calls performs answers =>
      rcases pause_performs performs with ⟨rfl, hpause⟩ | ⟨w', rfl, hdeliver⟩
      · obtain ⟨rfl, -⟩ := AsyncBody.awaits.inj hpause
        exact ⟨fun hunknown => absurd hknown hunknown, fun _ => calls,
          fun result hresult => (by cases phase.symm.trans hresult),
          fun error herror => by cases phase.symm.trans herror⟩
      · obtain ⟨-, ⟨-, hrest⟩ | ⟨-, ⟨_, hrest⟩ | ⟨_, -, hrest⟩⟩⟩ := deliver_performs hdeliver <;>
          cases hrest
    | rejected w op k error phase calls performs answers promise =>
      rcases pause_performs performs with ⟨rfl, hpause⟩ | ⟨w', rfl, hdeliver⟩
      · obtain ⟨rfl, -⟩ := AsyncBody.awaits.inj hpause
        refine ⟨fun hunknown => absurd hknown hunknown, fun _ => calls,
          fun result hresult => (by cases phase.symm.trans hresult), fun error' herror _ => ?_⟩
        obtain rfl : error = error' := by simpa [phase] using herror
        exact Or.inl (abortError_of_rejected hfs promise)
      · obtain ⟨-, ⟨-, hrest⟩ | ⟨-, ⟨_, hrest⟩ | ⟨_, -, hrest⟩⟩⟩ := deliver_performs hdeliver <;>
          cases hrest
    | returned w value phase calls performs answers =>
      rcases pause_performs performs with ⟨rfl, hpause⟩ | ⟨w', rfl, hdeliver⟩
      · cases hpause
      obtain ⟨rfl, ⟨-, hrest⟩ | ⟨hrejected, ⟨_, hrest⟩ | ⟨t, ht, hrest⟩⟩⟩ :=
        deliver_performs hdeliver
      · cases hrest
      · cases hrest
      · obtain rfl := AsyncBody.returns.inj hrest
        refine ⟨fun hunknown => absurd hknown hunknown, fun _ => calls, fun result hresult => ?_,
          fun error herror => (by cases phase.symm.trans herror)⟩
        obtain rfl : emailResult data t.clock = result := by simpa [phase] using hresult
        exact ⟨hknown, hrejected, ⟨(), answers 0 _ () rfl⟩, t, ht, rfl⟩
    | threw w error phase calls performs answers =>
      rcases pause_performs performs with ⟨rfl, hpause⟩ | ⟨w', rfl, hdeliver⟩
      · cases hpause
      obtain ⟨rfl, ⟨hrejected, hrest⟩ | ⟨-, ⟨_, hrest⟩ | ⟨_, -, hrest⟩⟩⟩ :=
        deliver_performs hdeliver
      · obtain rfl := AsyncBody.throws.inj hrest
        refine ⟨fun hunknown => absurd hknown hunknown, fun _ => calls,
          fun result hresult => (by cases phase.symm.trans hresult), fun error herror _ => ?_⟩
        obtain rfl : temporarilyRejected = error := by simpa [phase] using herror
        exact Or.inr ⟨rfl, hrejected, (), answers 0 _ () rfl⟩
      · cases hrest
      · cases hrest
  · -- nothing but the error is left from the start
    cases hperformed with
    | awaiting w op k phase calls performs => cases (AsyncBody.performs_throws performs).2
    | rejected w op k error phase calls performs => cases (AsyncBody.performs_throws performs).2
    | returned w value phase calls performs => cases (AsyncBody.performs_throws performs).2
    | threw w error phase calls performs answers =>
      obtain ⟨rfl, herror⟩ := AsyncBody.performs_throws performs
      obtain rfl := AsyncBody.throws.inj herror
      exact ⟨fun _ => ⟨calls, phase⟩, fun h => absurd h hknown,
        fun result hresult => (by cases phase.symm.trans hresult), fun _ _ h => absurd h hknown⟩

/-- An address that is rejected: the call has waited, and may be retried. -/
theorem email_account_rejected : ∃ c d : Call ℕ SendEmailResult,
    (environment fun _ => SleepState.revokedProxy).asyncMachine.run c
      [.environment (.timer 0), .resume] = some d ∧
    d.phase = .settled (.rejected temporarilyRejected) ∧
      EmailAccount (fun _ => SleepState.revokedProxy) 25
        ⟨js "user@example.invalid", js "welcome", js "user-7"⟩ untouched d := by
  obtain ⟨c, d, hstart, hrun, hrejected⟩ : ∃ c d : Call ℕ SendEmailResult,
      (environment fun _ => SleepState.revokedProxy).start untouched
        (createSendEmailProcessor (createDemoEmailProvider none) (js "request-7")
          ⟨js "user@example.invalid", js "welcome", js "user-7"⟩) = some c ∧
      (environment fun _ => SleepState.revokedProxy).asyncMachine.run c
        [.environment (.timer 0), .resume] = some d ∧
      d.phase = .settled (.rejected temporarilyRejected) := ⟨_, _, rfl, rfl, rfl⟩
  exact ⟨c, d, hrun, hrejected, email_account none _ _ fresh_untouched hstart hrun⟩

/-- A settlement, of a function that returns or throws. -/
def settlementOf : Except Thrown A → Settlement A Thrown
  | .ok value => .fulfilled value
  | .error error => .rejected error

/-- **A clean-up counts at the time it is called at**, however long its pause takes. -/
theorem cleanup_account (data : CleanupPayload) {c d : Call κ CleanupResult}
    (hstart : (environment h).start s (createCleanupProcessor data) = some c)
    (hrun : (environment h).asyncMachine.run c es = some d)
    {outcome : Settlement CleanupResult Thrown}
    (hsettled : d.phase = .settled outcome) : ∃ pause : Except Thrown Unit,
      promise d.environment 0 (.sleep 20) = some (settlementOf pause) ∧
        outcome = settlementOf (QueueWorkerKit.createCleanupProcessor s.clock pause data) := by
  rw [← AsyncEnvironment.start_front] at hstart
  cases AsyncEnvironment.performed_run hstart hrun with
  | awaiting w op k phase => cases hsettled.symm.trans phase
  | returned w value phase calls performs answers =>
    rcases pause_performs performs with ⟨rfl, hpause⟩ | ⟨w', rfl, hnext⟩
    · cases hpause
    obtain ⟨rfl, hvalue⟩ := AsyncBody.performs_returns hnext
    obtain rfl := AsyncBody.returns.inj hvalue
    rw [hsettled] at phase
    exact ⟨.ok (), answers 0 _ () rfl, (AsyncPhase.settled.inj phase)⟩
  | threw w error phase calls performs =>
    rcases pause_performs performs with ⟨rfl, hpause⟩ | ⟨w', rfl, hnext⟩
    · cases hpause
    · cases (AsyncBody.performs_returns hnext).2
  | rejected w op k error phase calls performs answers promise =>
    rcases pause_performs performs with ⟨rfl, hpause⟩ | ⟨w', rfl, hnext⟩
    · obtain ⟨rfl, -⟩ := AsyncBody.awaits.inj hpause
      rw [hsettled] at phase
      exact ⟨.error error, promise, AsyncPhase.settled.inj phase⟩
    · cases (AsyncBody.performs_returns hnext).2

/-! ## What is left after an abort -/

/-- Which sleeps a step has called. -/
theorem called_of_sleep_step {u v : SleepState ℕ κ} {f : SleepEvent ℕ κ}
    (hstep : (SleepState.machine h).step u f = some v) : v.sleeps.promise n = none ↔
      u.sleeps.promise n = none ∧ ∀ ms signal, f ≠ .sleep n ms signal := by
  cases SleepState.step_cases hstep with
  | refused i ms signal reason fresh found =>
    show ((u.sleeps.create i).settle i _).promise n = none ↔ _
    rw [SleepState.promise_settle, SleepState.promise_create, SleepState.promise_create]
    by_cases hni : n = i
    · simp [hni]
    · simp [hni, Ne.symm hni]
  | waits i ms signal fresh found =>
    rw [SleepState.sleeps_sleep found, SleepState.promise_setTimeout, SleepState.promise_create]
    by_cases hni : n = i
    · simp [hni]
    · simp [hni, Ne.symm hni]
  | fires i timer armed =>
    rw [SleepState.promise_fire]
    by_cases hni : n = i
    · simp [hni]
    · simp [hni]
  | abort reason fresh =>
    rw [SleepState.abort_of_fresh fresh]
    simp only [SleepState.promise_foldl_notified u.target.nodup_callbacks]
    split_ifs <;> simp
  | again reason aborted => simp
  | listen k once => exact ⟨fun hn => ⟨hn, fun _ _ hf => (by cases hf)⟩, And.left⟩
  | unlisten k => exact ⟨fun hn => ⟨hn, fun _ _ hf => (by cases hf)⟩, And.left⟩

/-- The timers of a step are those before it and that of a sleep it calls. -/
theorem timer_of_sleep_step {u v : SleepState ℕ κ} {f : SleepEvent ℕ κ} {timer : SleepTimer}
    (hstep : (SleepState.machine h).step u f = some v) (htimer : v.sleeps.timer n = some timer) :
    u.sleeps.timer n = some timer ∨ f = .sleep n timer.ms timer.signal := by
  cases SleepState.step_cases hstep with
  | refused i ms signal reason fresh found => exact Or.inl htimer
  | waits i ms signal fresh found =>
    rw [SleepState.sleeps_sleep found, SleepState.timer_setTimeout] at htimer
    split_ifs at htimer with hni
    · obtain rfl := Option.some.inj htimer
      exact Or.inr (by rw [hni])
    · exact Or.inl htimer
  | fires i timer' armed =>
    rw [SleepState.timer_fire] at htimer
    split_ifs at htimer with hni
    exact Or.inl htimer
  | abort reason fresh =>
    rw [SleepState.abort_of_fresh fresh] at htimer
    simp only [SleepState.timer_foldl_notified] at htimer
    split_ifs at htimer with hmem
    exact Or.inl htimer
  | again reason aborted => exact Or.inl htimer
  | listen k once => exact Or.inl htimer
  | unlisten k => exact Or.inl htimer

/-- The sleeps and the updates that were called are those of a list of calls, by number, and every
timer that is armed has the signal. -/
structure Numbered (calls : List Operation) (s : Surroundings κ) : Prop where
  sleeps : ∀ n, s.sleeps.sleeps.promise n ≠ none ↔ ∃ ms, calls[n]? = some (.sleep ms)
  updates : ∀ n, s.updates n ≠ none ↔ ∃ progress, calls[n]? = some (.updateProgress progress)
  timers : ∀ n timer, s.sleeps.sleeps.timer n = some timer → timer.signal = true

theorem getElem?_concat {calls : List Operation} {op o : Operation} :
    (calls ++ [op])[n]? = some o ↔ calls[n]? = some o ∨ n = calls.length ∧ o = op := by
  rw [List.getElem?_append]
  split_ifs with hn
  · simp [Nat.ne_of_lt hn]
  · have hnone : calls[n]? = none := List.getElem?_eq_none (Nat.le_of_not_lt hn)
    rw [hnone]
    rcases Nat.eq_or_lt_of_le (Nat.le_of_not_lt hn) with heq | hlt
    · simp [← heq, eq_comm]
    · have hpos : n - calls.length ≠ 0 := by omega
      simp [hpos, Nat.ne_of_gt hlt]

/-- An operation that is called has the next number. -/
theorem Numbered.of_call {calls : List Operation} {op : Operation} (hs : Numbered calls s)
    (hstep : (machine h).step s ((environment h).call calls.length op) = some t) :
    Numbered (calls ++ [op]) t := by
  cases op with
  | sleep ms =>
    obtain ⟨sleeps, hsleeps, rfl⟩ := Option.map_eq_some_iff.mp hstep
    refine ⟨fun n => ?_, fun n => ?_, fun n timer htimer => ?_⟩
    · have hiff := called_of_sleep_step (n := n) hsleeps
      simp only [getElem?_concat, exists_or, Operation.sleep.injEq, exists_and_left, exists_eq,
        and_true, ← hs.sleeps]
      rw [ne_eq, hiff, not_and_or]
      refine or_congr_right ⟨fun hnot => ?_, ?_⟩
      · by_contra hne
        exact hnot fun ms' signal heq => hne (SleepEvent.sleep.inj heq).1.symm
      · rintro rfl hall
        exact hall _ _ rfl
    · simp only [getElem?_concat, reduceCtorEq, and_false, or_false]
      exact hs.updates n
    · rcases timer_of_sleep_step hsleeps htimer with hbefore | hcalled
      · exact hs.timers n timer hbefore
      · exact (SleepEvent.sleep.inj hcalled).2.2.symm
  | updateProgress progress =>
    cases step_cases hstep with
    | signal e f sleeps events step => cases events
    | update n' progress' fresh =>
      refine ⟨fun n => ?_, fun n => ?_, hs.timers⟩
      · simp only [getElem?_concat, reduceCtorEq, and_false, or_false]
        exact hs.sleeps n
      · simp only [getElem?_concat, exists_or, Operation.updateProgress.injEq, exists_and_left,
          exists_eq, and_true, ← hs.updates]
        show Function.update s.updates calls.length _ n ≠ none ↔ _
        rw [Function.update_apply]
        split_ifs with hn
        · simp [hn]
        · simp [hn]

/-- What other code does has no part in the calls. -/
theorem Numbered.of_foreign {calls : List Operation} {e : Event κ} (hs : Numbered calls s)
    (hforeign : (environment (κ := κ) h).isCall e = false) (hstep : (machine h).step s e = some t) :
    Numbered calls t := by
  cases step_cases hstep with
  | signal e f sleeps events step =>
    have hcall : ∀ n ms signal, f ≠ .sleep n ms signal := by
      rintro n ms signal rfl
      cases e with
      | sleep n' ms' => cases hforeign
      | _ => cases events
    refine ⟨fun n => ?_, hs.updates, fun n timer htimer => ?_⟩
    · rw [← hs.sleeps, ne_eq, called_of_sleep_step step]
      simp [hcall]
    · rcases timer_of_sleep_step step htimer with hbefore | hcalled
      · exact hs.timers n timer hbefore
      · exact absurd hcalled (hcall _ _ _)
  | update n progress fresh => cases hforeign
  | settles n r pending =>
    refine ⟨hs.sleeps, fun i => ?_, hs.timers⟩
    rw [← hs.updates]
    show Function.update s.updates n _ i ≠ none ↔ _
    rw [Function.update_apply]
    split_ifs with hi
    · simp [hi, pending]
    · rfl
  | tick now => exact ⟨hs.sleeps, hs.updates, hs.timers⟩

/-- In fresh surroundings nothing was called. -/
theorem numbered_fresh (hs : Fresh h s) : Numbered [] s := by
  obtain ⟨before, hbefore, hrun⟩ := hs.signal
  have hnone : ∀ n, s.sleeps.sleeps.promise n = none ∧ s.sleeps.sleeps.timer n = none := by
    refine Machine.run_invariant (M := SleepState.machine h) (G := fun _ e => e.ofSignal = true)
      (I := fun u => ∀ n, u.sleeps.promise n = none ∧ u.sleeps.timer n = none)
      (fun u e v hu he hstep n => ?_) (fun _ => ⟨rfl, rfl⟩) (Machine.stepsMeet_of_forall hbefore)
      hrun
    have hcall : ∀ ms signal, e ≠ .sleep n ms signal := by
      rintro ms signal rfl
      cases he
    refine ⟨(called_of_sleep_step hstep).mpr ⟨(hu n).1, hcall⟩, ?_⟩
    cases htimer : v.sleeps.timer n with
    | none => rfl
    | some timer =>
      rcases timer_of_sleep_step hstep htimer with hbefore | hcalled
      · cases (hu n).2.symm.trans hbefore
      · exact absurd hcalled (hcall _ _)
  refine ⟨fun n => ?_, fun n => ?_, fun n timer htimer => ?_⟩
  · simp [(hnone n).1]
  · simp [hs.updates n]
  · cases (hnone n).2.symm.trans htimer

theorem numbered_of_advances {calls : List Operation} (hs : Numbered calls s)
    (hadvances : AsyncEnvironment.Advances (environment h) s calls body c) :
    Numbered c.calls c.environment := by
  cases hadvances with
  | returned value front => exact hs
  | threw error front => exact hs
  | called op k t front step => exact hs.of_call step

/-- **Operations are numbered by the calls**, in every run. -/
theorem numbered_run (hs : Fresh h s) (hstart : (environment h).start s body = some c)
    (hrun : (environment h).asyncMachine.run c es = some d) : Numbered d.calls d.environment := by
  have hc : Numbered c.calls c.environment :=
    numbered_of_advances (numbered_fresh hs) (AsyncEnvironment.advances_of_advance hstart)
  refine Machine.run_invariant (G := fun _ _ => True)
    (I := fun c : Call κ A => Numbered c.calls c.environment) (fun c e d hc _ hstep => ?_) hc
    Machine.stepsMeet_true hrun
  cases AsyncEnvironment.step_cases hstep with
  | environment e t foreign step => exact hc.of_foreign foreign step
  | fulfilled n op k v d phase promise advances => exact numbered_of_advances hc advances
  | rejected n op k error phase promise => exact hc

/-- An update of the progress. -/
def Operation.isUpdate : Operation → Bool
  | .sleep _ => false
  | .updateProgress _ => true

/-- What a report may still do after the operation that it awaits: an update after a pause that has
ended, and nothing after an update. -/
def updatesAfter : Operation → ℕ
  | .sleep _ => 1
  | .updateProgress _ => 0

/-- **The loop over the stages cooperates with an abort**: it calls nothing when it is met by one
between two stages, and at most an update within one. -/
theorem stages_cooperate (rest : List Stage) (result : A) :
    ((rest.forM (runStage h)).bind fun _ => (.returns result : Body κ A)).AtMost (abortSignal h)
        Operation.isUpdate 0 ∧
      ((rest.forM (runStage h)).bind fun _ => (.returns result : Body κ A)).Within (abortSignal h)
        Operation.isUpdate updatesAfter := by
  -- Induction on the stages to come.
  induction rest with
  | nil => exact ⟨trivial, trivial⟩
  | cons stage rest ih =>
    obtain ⟨hzero, hwithin⟩ := ih
    have hupdate : ∀ progress, (AsyncBody.awaits (.updateProgress progress) fun _ =>
        (rest.forM (runStage h)).bind fun _ => (.returns result : Body κ A)).Within (abortSignal h)
          Operation.isUpdate updatesAfter := fun _ _ => ⟨hzero, hwithin⟩
    rw [forM_stages_cons, runStage_bind]
    constructor
    · intro s hs
      obtain ⟨reason, hreason⟩ := Option.ne_none_iff_exists'.mp hs
      simp only [hreason]
      trivial
    · intro s
      cases hreason : s.sleeps.reason with
      | some reason =>
        simp only [hreason]
        trivial
      | none =>
        simp only [hreason]
        split_ifs with hwork
        · exact fun _ => ⟨⟨le_refl 1, fun _ _ => hzero⟩, hupdate _⟩
        · exact hupdate _

/-- A sleep that an abort has left pending: its timer was cleared. -/
structure Stuck (n : ℕ) (u : SleepState ℕ κ) : Prop where
  aborted : u.reason ≠ none
  timer : u.sleeps.timer n = none
  promise : u.sleeps.promise n = some []

theorem stuck_step {u v : SleepState ℕ κ} {f : SleepEvent ℕ κ} (hu : Stuck n u)
    (hstep : (SleepState.machine h).step u f = some v) : Stuck n v := by
  obtain ⟨haborted, htimer, hpromise⟩ := hu
  obtain ⟨reason, hreason⟩ := Option.ne_none_iff_exists'.mp haborted
  have haborted' : v.reason ≠ none := by
    rw [reason_of_step hstep hreason]
    exact Option.some_ne_none reason
  cases SleepState.step_cases hstep with
  | refused i ms signal reason fresh found =>
    have hne : n ≠ i := by
      rintro rfl
      cases fresh.symm.trans hpromise
    refine ⟨haborted', htimer, ?_⟩
    show ((u.sleeps.create i).settle i _).promise n = some []
    rw [SleepState.promise_settle, if_neg hne, SleepState.promise_create, if_neg hne, hpromise]
  | waits i ms signal fresh found =>
    have hne : n ≠ i := by
      rintro rfl
      cases fresh.symm.trans hpromise
    refine ⟨haborted', ?_, ?_⟩
    · rw [SleepState.sleeps_sleep found, SleepState.timer_setTimeout, if_neg hne,
        SleepState.timer_create, htimer]
    · rw [SleepState.sleeps_sleep found, SleepState.promise_setTimeout, SleepState.promise_create,
        if_neg hne, hpromise]
  | fires i timer armed =>
    have hne : n ≠ i := by
      rintro rfl
      cases htimer.symm.trans armed
    refine ⟨haborted', ?_, ?_⟩
    · rw [SleepState.timer_fire, if_neg hne, htimer]
    · rw [SleepState.promise_fire, if_neg hne, hpromise]
  | abort reason' fresh => exact absurd fresh haborted
  | again reason' aborted => exact ⟨haborted', htimer, hpromise⟩
  | listen k once => exact ⟨haborted', htimer, hpromise⟩
  | unlisten k => exact ⟨haborted', htimer, hpromise⟩

/-- A sleep that an abort has left pending is never fulfilled. -/
theorem lost_of_pending {fs : List (SleepEvent ℕ κ)} {calls : List Operation} {ms : ℕ}
    (hrun : (SleepState.machine h).run .start fs = some s.sleeps) (hs : Numbered calls s)
    (haborted : s.sleeps.reason ≠ none) (hpending : s.sleeps.sleeps.promise n = some []) :
    (environment h).Lost s n (.sleep ms) := by
  have htimer : s.sleeps.sleeps.timer n = none := by
    have hstands := (SleepState.agrees_run hrun).stands n
    generalize (SleepRace.after n fs).stage = stage at hstands
    cases hstands with
    | uncalled promise timer => exact timer
    | waiting ms signal promise timer listens live =>
      exact absurd (live (hs.timers n _ timer)) haborted
    | ended finish promise timer => exact timer
  rintro t ⟨es, hes⟩ ⟨v, hv⟩
  obtain ⟨fs', hfs'⟩ := follows_sleeps.run hes
  have hstuck : Stuck n t.sleeps :=
    Machine.run_invariant (M := SleepState.machine h) (G := fun _ _ => True)
      (fun _ _ _ hu _ hstep => stuck_step hu hstep) ⟨haborted, htimer, hpending⟩
      Machine.stepsMeet_true hfs'
  have hnone : promise t n (.sleep ms) = none := by
    show (t.sleeps.sleeps.promise n).bind List.head? = none
    rw [hstuck.promise]
    rfl
  cases hnone.symm.trans hv

/-- The call awaits a pause that has ended by itself. -/
def PauseEnded (c : Call κ A) : Prop :=
  ∃ n ms k, c.phase = .awaiting n (.sleep ms) k ∧
    promise c.environment n (.sleep ms) = some (.fulfilled ())

/-- The number of updates among some calls. -/
def updates (calls : List Operation) : ℕ := effects Operation.isUpdate calls

/-- **What the report processor still does after an abort**: whenever that comes, the processor
updates its progress at most once more, and not at all unless it awaits a pause that has already
ended by itself. -/
theorem updates_after_abort (data : GenerateReportPayload) {c d d' : Call κ GenerateReportResult}
    (hs : Fresh h s)
    (hstart : (environment h).start s (createGenerateReportProcessor h data) = some c)
    (hrun : (environment h).asyncMachine.run c es = some d)
    (haborted : d.environment.sleeps.reason ≠ none)
    (hrun' : (environment h).asyncMachine.run d fs = some d') :
    updates d'.calls ≤ updates d.calls + 1 ∧
      (¬ PauseEnded d → updates d'.calls = updates d.calls) := by
  have hwithin : (createGenerateReportProcessor h data : Body κ _).Within (abortSignal h)
      Operation.isUpdate updatesAfter := (stages_cooperate stages (reportResult data)).2
  have hbound : ∀ op, updatesAfter op ≤ 1 := by
    intro op
    cases op <;> simp [updatesAfter]
  have habort : (abortSignal h).aborted d.environment := haborted
  have hafter : ∀ n, (∀ i op k, d.phase = .awaiting i op k →
      (environment h).Lost d.environment i op ∨ updatesAfter op ≤ n) →
        updates d'.calls ≤ updates d.calls + n := fun n hn =>
    AsyncEnvironment.effects_after_abort hstart hwithin hrun habort hn hrun'
  refine ⟨hafter 1 fun _ op _ _ => Or.inr (hbound op), fun hpause => ?_⟩
  obtain ⟨fs', hfs'⟩ := exists_sleeps_run hs (AsyncEnvironment.reaches_run hstart hrun)
  have hnumbered := numbered_run hs hstart hrun
  have hle : updates d'.calls ≤ updates d.calls + 0 := by
    refine hafter 0 fun i op k hphase => ?_
    cases op with
    | updateProgress progress => exact Or.inr (le_refl 0)
    | sleep ms =>
      left
      have hcalled := (AsyncEnvironment.performed_run hstart hrun).called hphase
      obtain ⟨received, hreceived⟩ :=
        Option.ne_none_iff_exists'.mp ((hnumbered.sleeps i).mpr ⟨ms, hcalled⟩)
      cases received with
      | nil => exact lost_of_pending hfs' hnumbered haborted hreceived
      | cons r received =>
        have hpromise : promise d.environment i (.sleep ms) = some r := by
          show (d.environment.sleeps.sleeps.promise i).bind List.head? = some r
          rw [hreceived]
          rfl
        cases r with
        | fulfilled value => exact absurd ⟨i, ms, k, hphase, hpromise⟩ hpause
        | rejected error => exact AsyncEnvironment.lost_of_rejected hpromise
  obtain ⟨more, hmore⟩ := AsyncEnvironment.calls_run hrun'
  have hge : updates d.calls ≤ updates d'.calls := by
    rw [← hmore, updates, updates, effects, effects, List.countP_append]
    exact Nat.le_add_right _ _
  omega

/-- An abort after the first pause has ended, and before the call goes on: it does make the first
update, and no other. -/
theorem updates_after_abort_csv : ∃ c d d' : Call ℕ GenerateReportResult,
    (environment fun _ => SleepState.revokedProxy).asyncMachine.run c
      [.environment (.timer 0), .environment (.abort (.string (js "job timeout")))] = some d ∧
    (environment fun _ => SleepState.revokedProxy).asyncMachine.run d
      [.resume, .environment (.updateSettles 1 (.fulfilled ())), .resume] = some d' ∧
    updates d'.calls = 1 ∧ updates d'.calls ≤ updates d.calls + 1 := by
  obtain ⟨c, d, d', hstart, hrun, haborted, hrun', hone⟩ :
      ∃ c d d' : Call ℕ GenerateReportResult,
        (environment fun _ => SleepState.revokedProxy).start untouched
          (createGenerateReportProcessor (fun _ => SleepState.revokedProxy) csvReport) = some c ∧
        (environment fun _ => SleepState.revokedProxy).asyncMachine.run c
          [.environment (.timer 0), .environment (.abort (.string (js "job timeout")))] = some d ∧
        d.environment.sleeps.reason = some (.string (js "job timeout")) ∧
        (environment fun _ => SleepState.revokedProxy).asyncMachine.run d
          [.resume, .environment (.updateSettles 1 (.fulfilled ())), .resume] = some d' ∧
        updates d'.calls = 1 := ⟨_, _, _, rfl, rfl, rfl, rfl, rfl⟩
  refine ⟨c, d, d', hrun, hrun', hone,
    (updates_after_abort csvReport fresh_untouched hstart hrun ?_ hrun').1⟩
  rw [haborted]
  exact Option.some_ne_none _

/-! ## What is left behind -/

/-- What other code does to the signal in a run of a call. -/
def signalEvents (es : List (AsyncEvent (Event κ))) : List (SleepEvent ℕ κ) :=
  es.flatMap fun
    | .environment e => (sleepEvents e).filter SleepEvent.ofSignal
    | .resume => []

/-- The sleeps of a call since it began, among which the events of the signal are those of other
code. -/
def SignalHistory (h : Heap ErrorClass) (s : Surroundings κ) (es : List (AsyncEvent (Event κ)))
    (c : Call κ A) : Prop :=
  ∃ fs, (SleepState.machine h).run s.sleeps fs = some c.environment.sleeps ∧
    fs.filter SleepEvent.ofSignal = signalEvents es

theorem SignalHistory.of_advances {calls : List Operation}
    (hs : SignalHistory h s es (⟨t, calls, c.phase⟩ : Call κ A))
    (hadvances : AsyncEnvironment.Advances (environment h) t calls body d) :
    SignalHistory h s es d := by
  obtain ⟨fs, hfs, hfilter⟩ := hs
  cases hadvances with
  | returned value front => exact ⟨fs, hfs, hfilter⟩
  | threw error front => exact ⟨fs, hfs, hfilter⟩
  | called op k u front step =>
    -- a call of a sleep is no event of the signal
    have hu := follows_sleeps _ _ _ step
    refine ⟨fs ++ sleepEvents ((environment h).call calls.length op),
      Machine.run_append.mpr ⟨_, hfs, hu⟩, ?_⟩
    rw [List.filter_append, hfilter]
    cases op with
    | sleep ms => exact List.append_nil _
    | updateProgress progress => exact List.append_nil _

omit [DecidableEq κ] in
/-- A call that is resumed does nothing to the signal. -/
theorem signalEvents_resume : signalEvents (es ++ [.resume]) = signalEvents es := by
  rw [signalEvents, List.flatMap_append]
  exact List.append_nil _

theorem signalHistory_step {e : AsyncEvent (Event κ)} (hc : SignalHistory h s es c)
    (hstep : (environment h).asyncMachine.step c e = some d) :
    SignalHistory h s (es ++ [e]) d := by
  obtain ⟨fs, hfs, hfilter⟩ := hc
  cases AsyncEnvironment.step_cases hstep with
  | environment e t foreign step =>
    refine ⟨fs ++ sleepEvents e, Machine.run_append.mpr ⟨_, hfs, follows_sleeps _ _ _ step⟩, ?_⟩
    rw [List.filter_append, hfilter]
    simp [signalEvents]
  | fulfilled n op k v d phase promise advances =>
    exact SignalHistory.of_advances (c := c) ⟨fs, hfs, hfilter.trans signalEvents_resume.symm⟩
      advances
  | rejected n op k error phase promise =>
    exact ⟨fs, hfs, hfilter.trans signalEvents_resume.symm⟩

theorem signalHistory_run (hstart : (environment h).start s body = some c)
    (hrun : (environment h).asyncMachine.run c es = some d) : SignalHistory h s es d := by
  have hc : SignalHistory h s [] c :=
    SignalHistory.of_advances (c := c) ⟨[], rfl, rfl⟩ (AsyncEnvironment.advances_of_advance hstart)
  simpa using Machine.run_history (G := fun _ _ => True)
    (fun _ _ _ _ hc _ hstep => signalHistory_step hc hstep) hc Machine.stepsMeet_true hrun

/-- **What a processor that has settled leaves on its signal**: no timer is armed, and the signal
has the listeners that it would have had without the processor. The processor may be any that waits
for nothing but sleeps on the signal and updates of its progress. -/
theorem leaves_nothing (body : Body κ A) (hs : Fresh h s)
    (hstart : (environment h).start s body = some c)
    (hrun : (environment h).asyncMachine.run c es = some d) {outcome : Settlement A Thrown}
    (hsettled : d.phase = .settled outcome) :
    (∀ n, d.environment.sleeps.sleeps.timer n = none) ∧
      ∃ u, (SleepState.machine h).run s.sleeps (signalEvents es) = some u ∧
        d.environment.sleeps.target = u.target := by
  obtain ⟨fs, hfs, hfilter⟩ := signalHistory_run hstart hrun
  obtain ⟨before, hbefore, hs'⟩ := hs.signal
  have hall : (SleepState.machine h).run .start (before ++ fs) = some d.environment.sleeps :=
    Machine.run_append.mpr ⟨_, hs', hfs⟩
  have hnumbered := numbered_run hs hstart hrun
  have hperformed := AsyncEnvironment.performed_run hstart hrun
  -- every sleep was awaited, and has settled
  have hclean : ∀ n, d.environment.sleeps.sleeps.timer n = none ∧
      .onAbort n ∉ d.environment.sleeps.target.callbacks := by
    intro n
    refine ((SleepState.agrees_run hall).stands n).clean fun hpending => ?_
    obtain ⟨ms, hcalled⟩ := (hnumbered.sleeps n).mp (by simp [hpending])
    refine hperformed.settled hsettled hcalled ?_
    show (d.environment.sleeps.sleeps.promise n).bind List.head? = none
    rw [hpending]
    rfl
  refine ⟨fun n => (hclean n).1, ?_⟩
  obtain ⟨u, hu, -, htarget⟩ := SleepState.bystanders_run hall
  rw [List.filter_append, hfilter, List.filter_eq_self.mpr hbefore] at hu
  obtain ⟨v, hv, hu⟩ := Machine.run_append.mp hu
  obtain rfl := Option.some.inj (hv.symm.trans hs')
  refine ⟨u, hu, ?_⟩
  rw [htarget, EventTarget.only_eq_self]
  intro callback hcallback
  cases callback with
  | onAbort n => exact absurd hcallback (hclean n).2
  | other k => rfl

/-- Other code listens while the first pause is cut short. -/
theorem leaves_nothing_csv : ∃ c d : Call ℕ GenerateReportResult,
    (environment fun _ => SleepState.revokedProxy).asyncMachine.run c
      [.environment (.listen 3 false), .environment (.abort (.string (js "job timeout"))),
        .resume] = some d ∧
    (∀ n, d.environment.sleeps.sleeps.timer n = none) ∧
      ∃ u, (SleepState.machine fun _ => SleepState.revokedProxy).run untouched.sleeps
        (signalEvents [.environment (.listen 3 false),
          .environment (.abort (.string (js "job timeout"))), .resume]) = some u ∧
        d.environment.sleeps.target = u.target := by
  obtain ⟨c, d, hstart, hrun, hsettled⟩ : ∃ c d : Call ℕ GenerateReportResult,
      (environment fun _ => SleepState.revokedProxy).start untouched
        (createGenerateReportProcessor (fun _ => SleepState.revokedProxy) csvReport) = some c ∧
      (environment fun _ => SleepState.revokedProxy).asyncMachine.run c
        [.environment (.listen 3 false), .environment (.abort (.string (js "job timeout"))),
          .resume] = some d ∧
      d.phase = .settled (.rejected (.kit (.jobCancelled (js "job timeout")))) :=
    ⟨_, _, rfl, rfl, rfl⟩
  exact ⟨c, d, hrun, leaves_nothing _ fresh_untouched hstart hrun hsettled⟩

end Processors

end QueueWorkerKit
