import QueueWorkerKit.Errors.Errors

/-!
# Serialized errors

The projection of a thrown value that is logged and stored, after `utils/serialize-error.ts`. Any
value can be thrown: property reads are guarded, class tests and conversions to text are not, and
serialization may produce no text at all.

## Main definitions

* `SerializedError`: the projection, with the chain of causes
* `serializeError`: the projection of a value, with a bounded chain of causes
* `formatErrorReason`: the one-line summary

## Main results

* `length_summary_le`, `length_formatErrorReason_le`: a summary keeps to its bound
-/

namespace QueueWorkerKit

open Ecma

/-- The projection of a thrown value. The message is absent where serialization of what stands
for it produced no text. -/
inductive SerializedError
  | mk (name : JsString) (message : Option JsString) (stack code : Option JsString)
      (cause : Option SerializedError)

namespace SerializedError

def name : SerializedError → JsString
  | mk name _ _ _ _ => name

def message : SerializedError → Option JsString
  | mk _ message _ _ _ => message

def stack : SerializedError → Option JsString
  | mk _ _ stack _ _ => stack

def code : SerializedError → Option JsString
  | mk _ _ _ code _ => code

/-- A field of an object in JSON. -/
def jsonField (key : String) (value : JsString) : JsString := quoteText (js key) ++ js ":" ++ value

/-- The fields that are texts, without the absent ones. -/
def textFields (name : JsString) (message stack code : Option JsString) : List JsString :=
  [("name", some name), ("message", message), ("stack", stack), ("code", code)].filterMap
    fun (key, value) => value.map fun text => jsonField key (quoteText text)

/-- The text that `JSON.stringify` gives a projection. -/
def jsonText : SerializedError → JsString
  | mk name message stack code none =>
    js "\x7b" ++ join (js ",") (textFields name message stack code) ++ js "\x7d"
  | mk name message stack code (some cause) =>
    let fields := textFields name message stack code ++ [jsonField "cause" cause.jsonText]
    js "\x7b" ++ join (js ",") fields ++ js "\x7d"

end SerializedError

def truncateStack (stack : JsString) : JsString :=
  let lines := Ecma.lines stack
  if lines.length ≤ errorStackMaxLines then stack
  else join [0x0A] (lines.take errorStackMaxLines ++ [js "    ... stack truncated"])

/-- The text of a value that is a string. -/
def textOf : JsValue → Option JsString
  | .string s => some s
  | _ => none

/-- A property read that cannot throw. -/
def readProperty (h : Heap ErrorClass) (v : JsValue) (key : String) : JsValue :=
  match v.property h key with
  | .ok value => value
  | .error _ => .undefined

def readCode (h : Heap ErrorClass) (v : JsValue) : Option JsString :=
  match readProperty h v "code" with
  | .string code => some code
  | .number code => some code.toText
  | _ => none

/-- The text of a value, `none` where `JSON.stringify` returns `undefined`. -/
def safeStringify (h : Heap ErrorClass) : JsValue → Answer (Option JsString)
  | .undefined => .ok (some (js "undefined"))
  | .symbol text => .ok (some text)
  | .bigint text => .ok (some text)
  | .null => .ok (some (js "null"))
  | .boolean b => .ok (some (if b then js "true" else js "false"))
  | .number n => .ok (some n.jsonText)
  | .string s => .ok (some (quoteText s))
  | .object ref =>
    if (h ref).callable then (h ref).toText.map some
    else
      match (h ref).toJson with
      | .ok text => .ok text
      | .error _ => .ok (some (js "[unserializable value]"))

/-- The `name` of a projection: a non-empty text, or the default. -/
def errorName : JsValue → JsString
  | .string name => if name.length > 0 then name else js "Error"
  | _ => js "Error"

/-- The `stack` of a projection: a non-empty text, truncated. -/
def errorStack : JsValue → Option JsString
  | .string stack => if stack.length > 0 then some (truncateStack stack) else none
  | _ => none

/-- The `message` of a projection: a text, or the text of what stands for it. -/
def errorMessage (h : Heap ErrorClass) (message fallback : JsValue) : Answer (Option JsString) :=
  match message with
  | .string message => .ok (some message)
  | _ => safeStringify h fallback

/-- The projection of a value that is not an error. -/
def serializeNonError (h : Heap ErrorClass) (value : JsValue) : Answer SerializedError :=
  match value with
  | .string s => .ok (.mk (js "Error") (some s) none none none)
  | .null => .ok (.mk (js "Error") (some (js "null")) none none none)
  | .undefined => .ok (.mk (js "Error") (some (js "undefined")) none none none)
  | .object ref =>
    if (h ref).callable then do
      return .mk (js "Error") (← safeStringify h value) none none none
    else do
      let message ← errorMessage h (readProperty h value "message") value
      return .mk (errorName (readProperty h value "name")) message none (readCode h value) none
  | _ => do return .mk (js "Error") (← safeStringify h value) none none none

/-- The projection of a value, following at most `remaining` further causes: `remaining` is what
`depth` leaves of `errorCauseMaxDepth`. -/
def serializeErrorFrom (h : Heap ErrorClass) (remaining : ℕ) (value : JsValue) :
    Answer SerializedError := do
  if ← value.instanceOf h .error then
    let name := errorName (readProperty h value "name")
    let read := readProperty h value "message"
    let message ← errorMessage h read read
    let stack := errorStack (readProperty h value "stack")
    let code := readCode h value
    -- a chain of causes can be circular, so it is cut where the depth is used up
    let cause ← match remaining, readProperty h value "cause" with
      | _, .undefined => pure none
      | 0, _ => pure none
      | remaining + 1, cause => some <$> serializeErrorFrom h remaining cause
    return .mk name message stack code cause
  else
    serializeNonError h value
termination_by structural remaining

/-- The projection of a value at a depth of a chain of causes. -/
def serializeError (h : Heap ErrorClass) (value : JsValue) (depth : ℕ) : Answer SerializedError :=
  serializeErrorFrom h (errorCauseMaxDepth - depth) value

variable {h : Heap ErrorClass} {v : JsValue} {remaining : ℕ}

/-- The projection of an error where its chain ends or the depth is used up. -/
theorem serializeErrorFrom_last (herror : v.instanceOf h .error = .ok true)
    (hlast : remaining = 0 ∨ readProperty h v "cause" = .undefined) :
    serializeErrorFrom h remaining v =
      (errorMessage h (readProperty h v "message") (readProperty h v "message")).map fun message =>
        .mk (errorName (readProperty h v "name")) message (errorStack (readProperty h v "stack"))
          (readCode h v) none := by
  cases hmessage : errorMessage h (readProperty h v "message") (readProperty h v "message") with
  | error w =>
    cases remaining <;> simp [serializeErrorFrom, herror, hmessage, bind, Except.bind, Except.map]
  | ok message =>
    rcases hlast with rfl | hcause
    · cases hcause : readProperty h v "cause" <;>
        simp [serializeErrorFrom, herror, hmessage, hcause, bind, Except.bind, Except.map, pure,
          Except.pure]
    · cases remaining <;>
        simp [serializeErrorFrom, herror, hmessage, hcause, bind, Except.bind, Except.map, pure,
          Except.pure]

/-- The projection of an error with a cause. -/
theorem serializeErrorFrom_cause (herror : v.instanceOf h .error = .ok true)
    (hcause : readProperty h v "cause" ≠ .undefined) :
    serializeErrorFrom h (remaining + 1) v =
      (errorMessage h (readProperty h v "message") (readProperty h v "message")).bind fun message =>
        (serializeErrorFrom h remaining (readProperty h v "cause")).map fun cause =>
          .mk (errorName (readProperty h v "name")) message (errorStack (readProperty h v "stack"))
            (readCode h v) (some cause) := by
  cases hmessage : errorMessage h (readProperty h v "message") (readProperty h v "message") with
  | error w =>
    rw [serializeErrorFrom]
    simp [herror, hmessage, bind, Except.bind]
  | ok message =>
    cases hread : readProperty h v "cause" with
    | undefined => exact absurd hread hcause
    | _ =>
      rw [serializeErrorFrom]
      simp only [herror, hmessage, hread, bind, Except.bind, if_true]
      cases serializeErrorFrom h remaining _ <;> rfl

/-- The projection of a value that is no error. -/
theorem serializeErrorFrom_nonError (herror : v.instanceOf h .error = .ok false) :
    serializeErrorFrom h remaining v = serializeNonError h v := by
  cases remaining <;> rw [serializeErrorFrom, herror] <;> rfl

/-- A class test that throws is not guarded. -/
theorem serializeErrorFrom_throws {w : JsValue} (herror : v.instanceOf h .error = .error w) :
    serializeErrorFrom h remaining v = .error w := by
  cases remaining <;> rw [serializeErrorFrom, herror] <;> rfl

/-- The summary of a projection whose message is text. -/
def summary (name message : JsString) (maxChars : ℕ) : JsString :=
  let reason := if message.length > 0 then name ++ js ": " ++ message else name
  if reason.length > maxChars then reason.take (maxChars - 3) ++ js "..." else reason

/-- The one-line summary of a value. It reads the length of the message, which throws when there
is no message. -/
def formatErrorReason (h : Heap ErrorClass) (value : JsValue) (maxChars : ℕ) :
    Except Failure JsString :=
  match serializeError h value 0 with
  | .error v => .error (.thrown v)
  | .ok serialized =>
    match serialized.message with
    | none => .error .typeError
    | some message => .ok (summary serialized.name message maxChars)

/-- **A summary keeps to its bound**, once that leaves room for the dots of a cut. -/
theorem length_summary_le (name message : JsString) {maxChars : ℕ} (h : 3 ≤ maxChars) :
    (summary name message maxChars).length ≤ maxChars := by
  have hdots : (js "...").length = 3 := by decide
  simp only [summary]
  split_ifs
  all_goals first | (rw [List.length_append, List.length_take, hdots]; omega) | omega

/-- The summary stored as the reason of a failure keeps to the bound of a reason. -/
theorem length_formatErrorReason_le {h : Heap ErrorClass} {value : JsValue} {reason : JsString}
    (hreason : formatErrorReason h value deadLetterReasonMaxChars = .ok reason) :
    reason.length ≤ deadLetterReasonMaxChars := by
  simp only [formatErrorReason] at hreason
  split at hreason
  · cases hreason
  · split at hreason
    · cases hreason
    · obtain rfl := Except.ok.inj hreason
      exact length_summary_le _ _ (by decide)

end QueueWorkerKit
