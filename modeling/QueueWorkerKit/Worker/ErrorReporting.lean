import QueueWorkerKit.Worker.RetryVerdict

/-!
# Which values can be reported

The catch paths of the worker report whatever was thrown, through `serializeError`, and the writer
of dead-letter records through `formatErrorReason` as well. Property reads are guarded there. The
class test is not, nor is the conversion of a function to text, and the serialization of an object
may give no text.

## Main definitions

* `SerializedError.Complete`: a projection with the texts that its type announces
* `HasText`, `Reportable`: values with a text, and values with a complete projection
* `CatchPath.report`: what the catch paths do with the value they report
* `ReportedTotally`: a value that every report gets through

## Main results

* `complete_iff_reportable`: the values with a complete projection
* `reportedTotally_iff`: **which values every report gets through**
-/

namespace QueueWorkerKit

open Ecma
open Attempt (logError TestThrows classifyError_eq)

/-- A projection whose name is not empty and whose message is a text, and so for its causes. -/
def SerializedError.Complete : SerializedError → Prop
  | mk name message _ _ none => name ≠ [] ∧ message.isSome
  | mk name message _ _ (some cause) => (name ≠ [] ∧ message.isSome) ∧ cause.Complete

/-- A value with a text. Converting a function does not throw; serializing another object gives a
text, unless it throws. -/
def HasText (h : Heap ErrorClass) : JsValue → Prop
  | .object ref =>
    if (h ref).callable then ∃ text, (h ref).toText = .ok text else (h ref).toJson ≠ .ok none
  | _ => True

/-- An object with a text where its message is read. -/
def OwnMessage (h : Heap ErrorClass) : JsValue → Prop
  | .object ref => (h ref).callable = false ∧ ∃ s, (h ref).get "message" = .ok (.string s)
  | _ => False

/-- One level of a projection is complete: the class test gives an answer, and there is a text for
the message. -/
def LevelReportable (h : Heap ErrorClass) (v : JsValue) : Prop :=
  (v.instanceOf h .error = .ok true ∧ HasText h (readProperty h v "message")) ∨
    (v.instanceOf h .error = .ok false ∧ (OwnMessage h v ∨ HasText h v))

/-- A value whose projection is complete, with that of its causes as far as they are followed. -/
def Reportable (h : Heap ErrorClass) : ℕ → JsValue → Prop
  | 0, v => LevelReportable h v
  | remaining + 1, v => LevelReportable h v ∧
      (v.instanceOf h .error = .ok true → readProperty h v "cause" ≠ .undefined →
        Reportable h remaining (readProperty h v "cause"))

/-- The catch paths that report a value: that of `record`, that of a shutdown step, and that of the
processor. -/
inductive CatchPath
  | deadLetter
  | shutdownStep
  | processor

/-- What a catch path does with the value, which may throw: the processor classifies it first. -/
def CatchPath.report (h : Heap ErrorClass) (v : JsValue) : CatchPath → Answer Unit
  | deadLetter => logError h (.value v)
  | shutdownStep => logError h (.value v)
  | processor => do
    let _ ← classifyError h (.value v)
    logError h (.value v)

/-- A value that every report gets through: it has a complete projection at every depth, and a
summary of every length, and no catch path throws because of it. -/
structure ReportedTotally (h : Heap ErrorClass) (v : JsValue) : Prop where
  serialized : ∀ depth, ∃ s, serializeError h v depth = .ok s ∧ s.Complete
  formatted : ∀ maxChars, ∃ reason, formatErrorReason h v maxChars = .ok reason
  caught : ∀ path : CatchPath, path.report h v = .ok ()

variable {h : Heap ErrorClass} {v : JsValue} {remaining : ℕ}

theorem errorName_ne_nil (v : JsValue) : errorName v ≠ [] := by
  have hdefault : js "Error" ≠ [] := by decide
  unfold errorName
  split
  · split_ifs with hlen
    · exact List.length_pos_iff.mp hlen
    · exact hdefault
  · exact hdefault

/-- **The values with a text** are those whose text is found. -/
theorem hasText_iff : HasText h v ↔ ∃ text, safeStringify h v = .ok (some text) := by
  cases v with
  | object ref =>
    simp only [HasText, safeStringify]
    split_ifs
    · cases (h ref).toText <;> simp [Except.map]
    · cases hjson : (h ref).toJson with
      | error w => simp
      | ok text => cases text <;> simp
  | _ => simp [HasText, safeStringify]

/-- A message is found when it is a text, or what stands for it has one. -/
theorem errorMessage_iff {message fallback : JsValue} :
    (∃ text, errorMessage h message fallback = .ok (some text)) ↔
      (∃ s, message = .string s) ∨ HasText h fallback := by
  rw [hasText_iff]
  cases message <;> simp [errorMessage]

/-- The message of an error stands for itself. -/
theorem errorMessage_self_iff {message : JsValue} :
    (∃ text, errorMessage h message message = .ok (some text)) ↔ HasText h message := by
  rw [errorMessage_iff, or_iff_right_of_imp]
  rintro ⟨s, rfl⟩
  trivial

/-- A value that is no error has a complete projection when a text is found for its message. -/
theorem complete_serializeNonError :
    (∃ s, serializeNonError h v = .ok s ∧ s.Complete) ↔ OwnMessage h v ∨ HasText h v := by
  have hdefault : js "Error" ≠ [] := by decide
  cases v with
  | object ref =>
    by_cases hcallable : (h ref).callable = true
    · -- a function is converted to text
      have hnot : ¬ OwnMessage h (.object ref) := fun hown => by simp [OwnMessage, hcallable] at hown
      rw [or_iff_right hnot, hasText_iff]
      simp only [serializeNonError, hcallable, if_true]
      cases safeStringify h (.object ref) with
      | error w => simp [bind, Except.bind]
      | ok text =>
        cases text <;>
          simp [bind, Except.bind, pure, Except.pure, SerializedError.Complete, hdefault]
    · have hread : (∃ s, readProperty h (.object ref) "message" = .string s) ↔
          OwnMessage h (.object ref) := by
        simp only [readProperty, JsValue.property, OwnMessage, Bool.eq_false_iff.mpr hcallable,
          true_and]
        cases (h ref).get "message" <;> simp
      rw [← hread, ← errorMessage_iff]
      simp only [serializeNonError, hcallable, Bool.false_eq_true, if_false]
      cases errorMessage h (readProperty h (.object ref) "message") (.object ref) with
      | error w => simp [bind, Except.bind]
      | ok text =>
        cases text <;>
          simp [bind, Except.bind, pure, Except.pure, SerializedError.Complete, errorName_ne_nil]
  | _ =>
    simp [serializeNonError, safeStringify, bind, Except.bind, pure, Except.pure,
      SerializedError.Complete, hdefault, HasText]

/-- A value has a complete projection whose chain ends with it when it has a text. -/
theorem complete_last (herror : v.instanceOf h .error = .ok true)
    (hlast : remaining = 0 ∨ readProperty h v "cause" = .undefined) :
    (∃ s, serializeErrorFrom h remaining v = .ok s ∧ s.Complete) ↔ LevelReportable h v := by
  rw [serializeErrorFrom_last herror hlast, LevelReportable, herror, ← errorMessage_self_iff]
  cases errorMessage h (readProperty h v "message") (readProperty h v "message") with
  | error w => simp [Except.map]
  | ok text => cases text <;> simp [Except.map, SerializedError.Complete, errorName_ne_nil]

/-- An error with a cause has a complete projection when it has a text and its cause has one. -/
theorem complete_cause (herror : v.instanceOf h .error = .ok true)
    (hcause : readProperty h v "cause" ≠ .undefined) :
    (∃ s, serializeErrorFrom h (remaining + 1) v = .ok s ∧ s.Complete) ↔
      LevelReportable h v ∧
        ∃ cause, serializeErrorFrom h remaining (readProperty h v "cause") = .ok cause ∧
          cause.Complete := by
  rw [serializeErrorFrom_cause herror hcause, LevelReportable, herror, ← errorMessage_self_iff]
  cases errorMessage h (readProperty h v "message") (readProperty h v "message") with
  | error w => simp [Except.bind]
  | ok text =>
    cases serializeErrorFrom h remaining (readProperty h v "cause") with
    | error w => simp [Except.bind, Except.map]
    | ok cause =>
      cases text <;> simp [Except.bind, Except.map, SerializedError.Complete, errorName_ne_nil]

/-- A value that is no `Error` is projected without its causes. -/
theorem complete_nonError (hnot : v.instanceOf h .error ≠ .ok true) :
    (∃ s, serializeErrorFrom h remaining v = .ok s ∧ s.Complete) ↔ LevelReportable h v := by
  cases herror : v.instanceOf h .error with
  | error w => simp [serializeErrorFrom_throws herror, LevelReportable, herror]
  | ok isError =>
    cases isError with
    | true => exact absurd herror hnot
    | false =>
      rw [serializeErrorFrom_nonError herror, complete_serializeNonError]
      simp [LevelReportable, herror]

/-- **The values with a complete projection.** -/
theorem complete_iff_reportable :
    (∃ s, serializeErrorFrom h remaining v = .ok s ∧ s.Complete) ↔ Reportable h remaining v := by
  -- Induction on the causes that are still followed, for every value.
  induction remaining generalizing v with
  | zero =>
    rw [Reportable]
    by_cases herror : v.instanceOf h .error = .ok true
    · exact complete_last herror (Or.inl rfl)
    · exact complete_nonError herror
  | succ remaining ih =>
    rw [Reportable]
    by_cases herror : v.instanceOf h .error = .ok true
    · by_cases hcause : readProperty h v "cause" = .undefined
      · rw [complete_last herror (Or.inr hcause)]
        simp [hcause]
      · rw [complete_cause herror hcause, ih]
        simp [herror, hcause]
    · rw [complete_nonError herror]
      simp [herror]

/-- Following fewer causes leaves a value reportable. -/
theorem Reportable.mono {m n : ℕ} (hv : Reportable h n v) (hle : m ≤ n) : Reportable h m v := by
  induction n generalizing m v with
  | zero =>
    obtain rfl := Nat.le_zero.mp hle
    exact hv
  | succ n ih =>
    cases m with
    | zero => exact hv.1
    | succ m =>
      exact ⟨hv.1, fun herror hcause => ih (hv.2 herror hcause) (Nat.le_of_succ_le_succ hle)⟩

theorem message_of_complete {s : SerializedError} (hs : s.Complete) :
    ∃ message, s.message = some message := by
  obtain ⟨name, message, stack, code, cause⟩ := s
  cases cause with
  | none => exact Option.isSome_iff_exists.mp hs.2
  | some cause => exact Option.isSome_iff_exists.mp hs.1.2

/-- The log gets a projection of a reportable value. -/
theorem logError_of_reportable (hv : Reportable h errorCauseMaxDepth v) :
    logError h (.value v) = .ok () := by
  obtain ⟨s, hs, -⟩ := complete_iff_reportable.mpr hv
  show (serializeErrorFrom h errorCauseMaxDepth v).map (fun _ => ()) = _
  rw [hs]
  rfl

/-- **Which values every report gets through**: those with a text at every level of their
projection, whose tests by the classification throw nothing. -/
theorem reportedTotally_iff (h : Heap ErrorClass) (v : JsValue) :
    ReportedTotally h v ↔
      Reportable h errorCauseMaxDepth v ∧ ∀ w, ¬ TestThrows h (.value v) w := by
  constructor
  · intro htotal
    refine ⟨complete_iff_reportable.mp (htotal.serialized 0), fun w hthrows => ?_⟩
    have hcaught := htotal.caught .processor
    rw [CatchPath.report, hthrows.classifyError] at hcaught
    cases hcaught
  · rintro ⟨hv, htests⟩
    have hlog := logError_of_reportable hv
    refine ⟨fun depth => ?_, fun maxChars => ?_, fun path => ?_⟩
    · exact complete_iff_reportable.mpr (hv.mono (Nat.sub_le errorCauseMaxDepth depth))
    · obtain ⟨s, hs, hcomplete⟩ := complete_iff_reportable.mpr hv
      obtain ⟨message, hmessage⟩ := message_of_complete hcomplete
      have hser : serializeError h v 0 = .ok s := hs
      exact ⟨summary s.name message maxChars, by simp only [formatErrorReason, hser, hmessage]⟩
    · cases path with
      | deadLetter => exact hlog
      | shutdownStep => exact hlog
      | processor =>
        rw [CatchPath.report]
        rcases @classifyError_eq h (.value v) with ⟨w, hthrows, -⟩ |
          ⟨-, ⟨-, hclass⟩ | ⟨-, hclass⟩⟩
        · exact absurd hthrows (htests w)
        · rw [hclass]
          exact hlog
        · rw [hclass]
          exact hlog

/-- An object whose `toJSON` returns nothing. -/
def silentObject : JsObject ErrorClass where
  callable := false
  instanceOf _ := .ok false
  get _ := .ok .undefined
  toText := .ok (js "[object Object]")
  toJson := .ok none

/-- **A thrown object whose `toJSON` returns nothing** has a projection without a message, and no
summary. -/
theorem silent_object_not_reported : ∃ (h : Heap ErrorClass) (v : JsValue),
    (∃ s, serializeError h v 0 = .ok s ∧ s.message = none) ∧
      formatErrorReason h v deadLetterReasonMaxChars = .error .typeError ∧
      ¬ ReportedTotally h v := by
  have hsummary : formatErrorReason (fun _ => silentObject) (.object 0) deadLetterReasonMaxChars =
      .error .typeError := rfl
  refine ⟨fun _ => silentObject, .object 0, ⟨_, rfl, rfl⟩, hsummary, fun htotal => ?_⟩
  obtain ⟨reason, hreason⟩ := htotal.formatted deadLetterReasonMaxChars
  rw [hsummary] at hreason
  cases hreason

end QueueWorkerKit
