import QueueWorkerKit.Errors.Errors
import QueueWorkerKit.Library.EventLoop
import QueueWorkerKit.Library.EventTarget
import QueueWorkerKit.Library.Machine

/-!
# Sleeps that honour an abort signal

The `sleep` of `utils/sleep.ts`, called any number of times with or without one long-lived signal.
Any timer that is armed may fire next, whatever its delay; the signal may be aborted with any reason
at any moment; other listeners come and go.

## Main definitions

* `abortReason`: the error of an aborted signal, unless the class test throws
* `Sleeps`, `SleepState`: the timers and promises of the sleeps, and these with the signal
* `SleepState.machine`: the calls, the timers and the signal in any order
* `SleepRace`: what comes first for a sleep, and what it has to settle with
* `SleepState.SettlesOnce`, `SleepState.Answerable`: what `sleep` promises, and when the class test
  of a reason that meets a sleep does not throw

## Main results

* `abort_of_fresh`: the first abort calls every listener once and leaves those that last
* `step_cases`: what a step does
-/

namespace QueueWorkerKit

open Ecma EventDriven

/-- The text of the error for a reason that is no error. -/
def cancelMessage : JsValue → JsString
  | .string s => s
  | _ => js "aborted"

/-- The error of an aborted signal. The class test may throw. -/
def abortReason (h : Heap ErrorClass) (reason : JsValue) : Answer Thrown := do
  if ← reason.instanceOf h .error then
    return .value reason
  return .kit (.jobCancelled (cancelMessage reason))

/-- A callback for the abort of the signal: that of a sleep, or one of other code. -/
inductive AbortCallback (ι κ : Type*)
  | onAbort (i : ι)
  | other (k : κ)
  deriving DecidableEq

/-- A timer: its delay, and whether its callback has a signal to remove a listener from. -/
structure SleepTimer where
  ms : JsNumber
  signal : Bool

/-- The timers that are armed, and for each sleep that was called the calls of `resolve` and
`reject` that its promise has received. -/
structure Sleeps (ι : Type*) where
  timer : ι → Option SleepTimer
  promise : ι → Option (List (Settlement Unit Thrown))

namespace Sleeps

variable {ι κ : Type*} [DecidableEq ι]

def setTimeout (p : Sleeps ι) (i : ι) (timer : SleepTimer) : Sleeps ι :=
  { p with timer := Function.update p.timer i (some timer) }

def clearTimeout (p : Sleeps ι) (i : ι) : Sleeps ι :=
  { p with timer := Function.update p.timer i none }

/-- The promise of a sleep that is called. -/
def create (p : Sleeps ι) (i : ι) : Sleeps ι :=
  { p with promise := Function.update p.promise i (some []) }

/-- A call of `resolve` or `reject`. -/
def settle (p : Sleeps ι) (i : ι) (r : Settlement Unit Thrown) : Sleeps ι :=
  { p with promise := Function.update p.promise i ((p.promise i).map (· ++ [r])) }

/-- The abort listener of a sleep. -/
def onAbort (h : Heap ErrorClass) (reason : JsValue) (p : Sleeps ι) (i : ι) : Sleeps ι :=
  match abortReason h reason with
  | .ok error => (p.clearTimeout i).settle i (.rejected error)
  -- the listener throws, which is reported to the host and settles nothing
  | .error _ => p.clearTimeout i

/-- What a callback does to the sleeps. -/
def notified (h : Heap ErrorClass) (reason : JsValue) (p : Sleeps ι) :
    AbortCallback ι κ → Sleeps ι
  | .onAbort i => p.onAbort h reason i
  | .other _ => p

end Sleeps

/-- The signal, with the reason it is aborted with and its listeners, and the sleeps. -/
structure SleepState (ι κ : Type*) where
  reason : Option JsValue
  target : EventTarget (AbortCallback ι κ)
  sleeps : Sleeps ι

/-- A sleep is called, a timer fires, the signal is aborted, or other code adds or removes a
listener of its own. A bare `abort()` gives the signal an `AbortError` as its reason. -/
inductive SleepEvent (ι κ : Type*)
  | sleep (i : ι) (ms : JsNumber) (signal : Bool)
  | timer (i : ι)
  | abort (reason : JsValue)
  | listen (k : κ) (once : Bool)
  | unlisten (k : κ)

namespace SleepState

variable {ι κ : Type*} [DecidableEq ι] [DecidableEq κ]

def start : SleepState ι κ := ⟨none, .start, fun _ => none, fun _ => none⟩

def addEventListener (s : SleepState ι κ) (c : AbortCallback ι κ) (once : Bool) :
    SleepState ι κ :=
  { s with target := s.target.addEventListener c once }

def removeEventListener (s : SleepState ι κ) (c : AbortCallback ι κ) : SleepState ι κ :=
  { s with target := s.target.removeEventListener c }

/-- The reason that a call finds its signal aborted with, if it has one and that is aborted. -/
def found (s : SleepState ι κ) (signal : Bool) : Option JsValue :=
  if signal then s.reason else none

/-- What the promise is rejected with when the signal is aborted already. The constructor of a
promise catches what its executor throws. -/
def refusal (h : Heap ErrorClass) (reason : JsValue) : Thrown :=
  match abortReason h reason with
  | .ok error => error
  | .error v => .value v

/-- A call of `sleep`. -/
def sleep (h : Heap ErrorClass) (s : SleepState ι κ) (i : ι) (ms : JsNumber) (signal : Bool) :
    SleepState ι κ :=
  match s.found signal with
  | some reason => { s with sleeps := (s.sleeps.create i).settle i (.rejected (refusal h reason)) }
  | none =>
    let t := { s with sleeps := (s.sleeps.create i).setTimeout i ⟨ms, signal⟩ }
    if signal then t.addEventListener (.onAbort i) true else t

/-- A timer fires, and is no longer armed when its callback runs. -/
def fire (s : SleepState ι κ) (i : ι) (timer : SleepTimer) : SleepState ι κ :=
  let t := if timer.signal then s.removeEventListener (.onAbort i) else s
  { t with sleeps := (t.sleeps.clearTimeout i).settle i (.fulfilled ()) }

/-- The signal is aborted, for the first time or once more. -/
def abort (h : Heap ErrorClass) (s : SleepState ι κ) (reason : JsValue) : SleepState ι κ :=
  match s.reason with
  | some _ => s
  | none =>
    let notified := s.target.dispatch (Sleeps.notified h reason) s.sleeps
    ⟨some reason, notified.1, notified.2⟩

/-- The sleeps, their timers and the signal. -/
def machine (h : Heap ErrorClass) : Machine (SleepState ι κ) (SleepEvent ι κ) where
  step s
    | .sleep i ms signal =>
      match s.sleeps.promise i with
      | none => some (s.sleep h i ms signal)
      | some _ => none
    | .timer i => (s.sleeps.timer i).map fun timer => s.fire i timer
    | .abort reason => some (s.abort h reason)
    | .listen k once => some (s.addEventListener (.other k) once)
    | .unlisten k => some (s.removeEventListener (.other k))

end SleepState

/-! ## What a sleep is for -/

/-- What ends a sleep: its timer, the abort of its signal, or the abort it finds when it is
called. -/
inductive SleepFinish
  | timer
  | interrupted (reason : JsValue)
  | refused (reason : JsValue)

inductive SleepStage
  | uncalled
  | waiting (signal : Bool)
  | ended (finish : SleepFinish)

/-- The race of a sleep: the reason its signal is aborted with, and where the sleep stands. -/
structure SleepRace where
  reason : Option JsValue
  stage : SleepStage

/-- Where a sleep stands that is called. -/
def SleepStage.called : Option JsValue → Bool → SleepStage
  | some reason, true => .ended (.refused reason)
  | _, signal => .waiting signal

/-- The first abort ends a sleep that waits with the signal. -/
def SleepStage.interrupt (reason : JsValue) : SleepStage → SleepStage
  | .waiting true => .ended (.interrupted reason)
  | stage => stage

/-- The abort that has ended a sleep. -/
def SleepStage.endedBy : SleepStage → Option JsValue
  | .ended (.interrupted reason) => some reason
  | .ended (.refused reason) => some reason
  | _ => none

namespace SleepRace

variable {ι κ : Type*} [DecidableEq ι]

/-- What an event does in the race of a sleep: whatever comes first ends it. -/
def next (i : ι) (R : SleepRace) : SleepEvent ι κ → SleepRace
  | .sleep j _ signal => if j = i then { R with stage := .called R.reason signal } else R
  | .timer j => if j = i then { R with stage := .ended .timer } else R
  | .abort reason =>
    match R.reason with
    | some _ => R
    | none => ⟨some reason, R.stage.interrupt reason⟩
  | .listen _ _ => R
  | .unlisten _ => R

/-- The race of a sleep after some events. -/
def after (i : ι) (es : List (SleepEvent ι κ)) : SleepRace := es.foldl (next i) ⟨none, .uncalled⟩

variable {R : SleepRace} {i j : ι} {ms : JsNumber} {signal : Bool} {reason : JsValue}
  {e : SleepEvent ι κ} {es : List (SleepEvent ι κ)}

theorem after_concat : after i (es ++ [e]) = (after i es).next i e := by
  rw [after, List.foldl_append]
  rfl

theorem next_sleep_self : R.next i (.sleep i ms signal : SleepEvent ι κ) =
    { R with stage := .called R.reason signal } := if_pos rfl

theorem next_sleep_of_ne (h : i ≠ j) : R.next j (.sleep i ms signal : SleepEvent ι κ) = R :=
  if_neg h

theorem next_timer_self :
    R.next i (.timer i : SleepEvent ι κ) = { R with stage := .ended .timer } := if_pos rfl

theorem next_timer_of_ne (h : i ≠ j) : R.next j (.timer i : SleepEvent ι κ) = R := if_neg h

theorem next_abort_of_none (h : R.reason = none) :
    R.next i (.abort reason : SleepEvent ι κ) = ⟨some reason, R.stage.interrupt reason⟩ := by
  simp only [next, h]

theorem next_abort_of_some (h : R.reason ≠ none) :
    R.next i (.abort reason : SleepEvent ι κ) = R := by
  obtain ⟨first, hfirst⟩ := Option.ne_none_iff_exists'.mp h
  simp only [next, hfirst]

end SleepRace

/-- The sleep that an event is about. -/
def SleepEvent.sleeper {ι κ : Type*} : SleepEvent ι κ → Option ι
  | .sleep i _ _ => some i
  | .timer i => some i
  | _ => none

/-- An event of the signal alone. -/
def SleepEvent.ofSignal {ι κ : Type*} (e : SleepEvent ι κ) : Bool := e.sleeper.isNone

/-- A callback of other code. -/
def AbortCallback.isOther {ι κ : Type*} : AbortCallback ι κ → Bool
  | .onAbort _ => false
  | .other _ => true

/-- The error a sleep has to reject with: the reason itself when it is an instance of `Error`, and
an error of the kit when it is not. -/
def IsAbortError (h : Heap ErrorClass) (reason : JsValue) (error : Thrown) : Prop :=
  (reason.instanceOf h .error = .ok true ∧ error = .value reason) ∨
    (reason.instanceOf h .error = .ok false ∧
      error = .kit (.jobCancelled (cancelMessage reason)))

/-- The class test of a reason does not throw. -/
def AnswersTest (h : Heap ErrorClass) (reason : JsValue) : Prop :=
  ∃ isError, reason.instanceOf h .error = .ok isError

/-- The settlements that the promise of a sleep has to have received. -/
def SleepStage.Settles (h : Heap ErrorClass) :
    SleepStage → Option (List (Settlement Unit Thrown)) → Prop
  | .uncalled, received => received = none
  | .waiting _, received => received = some []
  | .ended .timer, received => received = some [.fulfilled ()]
  | .ended (.interrupted reason), received =>
    ∃ error, received = some [.rejected error] ∧ IsAbortError h reason error
  | .ended (.refused reason), received =>
    ∃ error, received = some [.rejected error] ∧ IsAbortError h reason error

namespace SleepState

variable {ι κ : Type*} [DecidableEq ι] [DecidableEq κ]

/-- Every sleep that was called has settled. -/
def AllSettled (s : SleepState ι κ) : Prop := ∀ i, s.sleeps.promise i ≠ some []

/-- Each sleep settles exactly once, and as its race ends; until then its timer is armed, and
letting the armed timers fire settles all of them. Once all have settled no timer is armed, and the
signal has the listeners it would have without any sleep. -/
structure SettlesOnce (h : Heap ErrorClass) (es : List (SleepEvent ι κ)) (t : SleepState ι κ) :
    Prop where
  settles : ∀ i, (SleepRace.after i es).stage.Settles h (t.sleeps.promise i)
  waits : ∀ i, t.sleeps.promise i = some [] ↔ t.sleeps.timer i ≠ none
  ends : ∃ fires u, (∀ e ∈ fires, ∃ i, e = .timer i) ∧ (machine h).run t fires = some u ∧
    u.AllSettled
  clean : t.AllSettled → (∀ i, t.sleeps.timer i = none) ∧
    ∃ u, (machine h).run start (es.filter SleepEvent.ofSignal) = some u ∧ t.target = u.target

/-- The reason of an abort that meets a sleep answers the class test. -/
def Answerable (h : Heap ErrorClass) (s : SleepState ι κ) : SleepEvent ι κ → Prop
  | .sleep _ _ signal => ∀ reason, s.found signal = some reason → AnswersTest h reason
  | .abort reason =>
    s.reason = none → (∃ i, AbortCallback.onAbort i ∈ s.target.callbacks) → AnswersTest h reason
  | _ => True

variable {h : Heap ErrorClass} {s t : SleepState ι κ} {i j : ι} {signal : Bool} {ms : JsNumber}
  {reason : JsValue} {timer : SleepTimer} {e : SleepEvent ι κ} {c : AbortCallback ι κ}
  {stage : SleepStage} {finish : SleepFinish}

/-! ## The error of an abort -/

theorem abortReason_eq_ok {error : Thrown} :
    abortReason h reason = .ok error ↔ IsAbortError h reason error := by
  unfold abortReason IsAbortError
  cases reason.instanceOf h .error with
  | error v => simp [bind, Except.bind]
  | ok isError => cases isError <;> simp [bind, Except.bind, pure, Except.pure, eq_comm]

theorem answersTest_iff : AnswersTest h reason ↔ ∃ error, IsAbortError h reason error := by
  unfold AnswersTest IsAbortError
  constructor
  · rintro ⟨isError, hisError⟩
    cases isError with
    | true => exact ⟨_, Or.inl ⟨hisError, rfl⟩⟩
    | false => exact ⟨_, Or.inr ⟨hisError, rfl⟩⟩
  · rintro ⟨error, ⟨hisError, -⟩ | ⟨hisError, -⟩⟩
    · exact ⟨true, hisError⟩
    · exact ⟨false, hisError⟩

/-- The settlements that the promise of a sleep receives when it ends. -/
def settlements (h : Heap ErrorClass) : SleepFinish → List (Settlement Unit Thrown)
  | .timer => [.fulfilled ()]
  | .interrupted reason =>
    match abortReason h reason with
    | .ok error => [.rejected error]
    | .error _ => []
  | .refused reason => [.rejected (refusal h reason)]

/-- A sleep that has ended settles as it has to if the test of its reason does not throw. -/
theorem settles_settlements
    (hanswers : ∀ reason, (SleepStage.ended finish).endedBy = some reason → AnswersTest h reason) :
    (SleepStage.ended finish).Settles h (some (settlements h finish)) := by
  cases finish with
  | timer => exact rfl
  | interrupted reason =>
    obtain ⟨error, herror⟩ := answersTest_iff.mp (hanswers reason rfl)
    exact ⟨error, by rw [settlements, abortReason_eq_ok.mpr herror], herror⟩
  | refused reason =>
    obtain ⟨error, herror⟩ := answersTest_iff.mp (hanswers reason rfl)
    exact ⟨error, by rw [settlements, refusal, abortReason_eq_ok.mpr herror], herror⟩

theorem answersTest_of_settles {received : Option (List (Settlement Unit Thrown))}
    (hsettles : stage.Settles h received) (hended : stage.endedBy = some reason) :
    AnswersTest h reason := by
  cases stage with
  | uncalled => cases hended
  | waiting signal => cases hended
  | ended finish =>
    cases finish with
    | timer => cases hended
    | interrupted first =>
      obtain rfl := Option.some.inj hended
      obtain ⟨error, -, herror⟩ := hsettles
      exact answersTest_iff.mpr ⟨error, herror⟩
    | refused first =>
      obtain rfl := Option.some.inj hended
      obtain ⟨error, -, herror⟩ := hsettles
      exact answersTest_iff.mpr ⟨error, herror⟩

/-! ## Timers and promises -/

section Sleeps

variable {p : Sleeps ι} {r : Settlement Unit Thrown}

@[simp] theorem timer_create : (p.create i).timer = p.timer := rfl

theorem promise_create :
    (p.create i).promise j = if j = i then some [] else p.promise j := Function.update_apply ..

@[simp] theorem timer_settle : (p.settle i r).timer = p.timer := rfl

theorem promise_settle : (p.settle i r).promise j =
    if j = i then (p.promise i).map (· ++ [r]) else p.promise j := Function.update_apply ..

theorem timer_setTimeout : (p.setTimeout i timer).timer j =
    if j = i then some timer else p.timer j := Function.update_apply ..

@[simp] theorem promise_setTimeout : (p.setTimeout i timer).promise = p.promise := rfl

theorem timer_clearTimeout :
    (p.clearTimeout i).timer j = if j = i then none else p.timer j := Function.update_apply ..

@[simp] theorem promise_clearTimeout : (p.clearTimeout i).promise = p.promise := rfl

theorem timer_onAbort :
    (p.onAbort h reason i).timer j = if j = i then none else p.timer j := by
  unfold Sleeps.onAbort
  split
  · rw [timer_settle, timer_clearTimeout]
  · exact timer_clearTimeout

theorem promise_onAbort : (p.onAbort h reason i).promise j =
    if j = i then (p.promise i).map (· ++ settlements h (.interrupted reason))
    else p.promise j := by
  cases hreason : abortReason h reason with
  | ok error =>
    simp only [Sleeps.onAbort, settlements, hreason, promise_settle, promise_clearTimeout]
  | error v =>
    simp only [Sleeps.onAbort, settlements, hreason, promise_clearTimeout, List.append_nil,
      Option.map_id_fun', id]
    split_ifs with hji
    · rw [hji]
    · rfl

theorem timer_notified : (p.notified h reason c).timer i =
    if c = .onAbort i then none else p.timer i := by
  cases c with
  | onAbort j => simp only [Sleeps.notified, timer_onAbort, AbortCallback.onAbort.injEq, eq_comm]
  | other k => rfl

theorem promise_notified : (p.notified h reason c).promise i =
    if c = .onAbort i then (p.promise i).map (· ++ settlements h (.interrupted reason))
    else p.promise i := by
  cases c with
  | onAbort j =>
    simp only [Sleeps.notified, promise_onAbort, AbortCallback.onAbort.injEq]
    by_cases hij : i = j
    · rw [if_pos hij, if_pos hij.symm, hij]
    · rw [if_neg hij, if_neg (Ne.symm hij)]
  | other k => rfl

/-- A sleep whose callback is among those called has its timer cleared. -/
theorem timer_foldl_notified (cs : List (AbortCallback ι κ)) :
    (cs.foldl (Sleeps.notified h reason) p).timer i =
      if .onAbort i ∈ cs then none else p.timer i := by
  induction cs generalizing p with
  | nil => rfl
  | cons c cs ih =>
    rw [List.foldl_cons, ih, timer_notified]
    by_cases hc : c = .onAbort i
    · simp [hc]
    · simp [hc, Ne.symm hc]

/-- A sleep whose callback is among those called is rejected once. -/
theorem promise_foldl_notified {cs : List (AbortCallback ι κ)} (hcs : cs.Nodup) :
    (cs.foldl (Sleeps.notified h reason) p).promise i =
      if .onAbort i ∈ cs then (p.promise i).map (· ++ settlements h (.interrupted reason))
      else p.promise i := by
  induction cs generalizing p with
  | nil => rfl
  | cons c cs ih =>
    obtain ⟨hnot, hcs⟩ := List.nodup_cons.mp hcs
    rw [List.foldl_cons, ih hcs, promise_notified]
    by_cases hc : c = .onAbort i
    · rw [hc] at hnot ⊢
      simp [hnot]
    · simp [hc, Ne.symm hc]

end Sleeps

/-! ## What a step does -/

omit [DecidableEq ι] [DecidableEq κ] in
theorem called_of_found (hfound : s.found signal = some reason) :
    SleepStage.called s.reason signal = .ended (.refused reason) := by
  cases signal with
  | false => cases hfound
  | true =>
    have hreason : s.reason = some reason := hfound
    rw [hreason]
    rfl

omit [DecidableEq ι] [DecidableEq κ] in
theorem called_of_not_found (hfound : s.found signal = none) :
    SleepStage.called s.reason signal = .waiting signal := by
  cases signal with
  | false => cases s.reason <;> rfl
  | true =>
    have hreason : s.reason = none := hfound
    rw [hreason]
    rfl

theorem sleep_of_found (hfound : s.found signal = some reason) : s.sleep h i ms signal =
    { s with sleeps := (s.sleeps.create i).settle i (.rejected (refusal h reason)) } := by
  simp only [sleep, hfound]

theorem sleeps_sleep (hfound : s.found signal = none) :
    (s.sleep h i ms signal).sleeps = (s.sleeps.create i).setTimeout i ⟨ms, signal⟩ := by
  cases signal <;> simp only [sleep, hfound] <;> rfl

theorem reason_sleep (hfound : s.found signal = none) :
    (s.sleep h i ms signal).reason = s.reason := by
  cases signal <;> simp only [sleep, hfound] <;> rfl

theorem target_sleep (hfound : s.found signal = none) : (s.sleep h i ms signal).target =
    if signal then s.target.addEventListener (.onAbort i) true else s.target := by
  cases signal <;> simp only [sleep, hfound] <;> rfl

theorem sleeps_fire : (s.fire i timer).sleeps =
    (s.sleeps.clearTimeout i).settle i (.fulfilled ()) := by
  unfold fire
  split_ifs <;> rfl

theorem promise_fire : (s.fire i timer).sleeps.promise j =
    if j = i then (s.sleeps.promise i).map (· ++ [.fulfilled ()]) else s.sleeps.promise j := by
  rw [sleeps_fire, promise_settle, promise_clearTimeout]

theorem timer_fire : (s.fire i timer).sleeps.timer j =
    if j = i then none else s.sleeps.timer j := by
  rw [sleeps_fire, timer_settle, timer_clearTimeout]

theorem reason_fire : (s.fire i timer).reason = s.reason := by
  unfold fire
  split_ifs <;> rfl

theorem target_fire : (s.fire i timer).target =
    if timer.signal then s.target.removeEventListener (.onAbort i) else s.target := by
  unfold fire
  split_ifs <;> rfl

theorem abort_of_aborted (haborted : s.reason ≠ none) : s.abort h reason = s := by
  obtain ⟨first, hfirst⟩ := Option.ne_none_iff_exists'.mp haborted
  simp only [abort, hfirst]

/-- **The first abort** calls every listener once, and leaves those that last. -/
theorem abort_of_fresh (hfresh : s.reason = none) : s.abort h reason =
    ⟨some reason, s.target.lasting,
      s.target.callbacks.foldl (Sleeps.notified h reason) s.sleeps⟩ := by
  simp only [abort, hfresh, EventTarget.dispatch_eq]

/-- What each event does where it can happen. -/
inductive Step (h : Heap ErrorClass) (s : SleepState ι κ) :
    SleepEvent ι κ → SleepState ι κ → Prop
  | refused (i : ι) (ms : JsNumber) (signal : Bool) (reason : JsValue)
      (fresh : s.sleeps.promise i = none) (found : s.found signal = some reason) :
      Step h s (.sleep i ms signal)
        { s with sleeps := (s.sleeps.create i).settle i (.rejected (refusal h reason)) }
  | waits (i : ι) (ms : JsNumber) (signal : Bool) (fresh : s.sleeps.promise i = none)
      (found : s.found signal = none) : Step h s (.sleep i ms signal) (s.sleep h i ms signal)
  | fires (i : ι) (timer : SleepTimer) (armed : s.sleeps.timer i = some timer) :
      Step h s (.timer i) (s.fire i timer)
  | abort (reason : JsValue) (fresh : s.reason = none) :
      Step h s (.abort reason) (s.abort h reason)
  | again (reason : JsValue) (aborted : s.reason ≠ none) : Step h s (.abort reason) s
  | listen (k : κ) (once : Bool) :
      Step h s (.listen k once) (s.addEventListener (.other k) once)
  | unlisten (k : κ) : Step h s (.unlisten k) (s.removeEventListener (.other k))

/-- **What a step does**: one case for each branch of `sleep`, of its callbacks and of the
signal. -/
theorem step_cases (hstep : (machine h).step s e = some t) : Step h s e t := by
  cases e with
  | sleep i ms signal =>
    simp only [machine] at hstep
    split at hstep
    · next hfresh =>
      obtain rfl := Option.some.inj hstep
      cases hfound : s.found signal with
      | none => exact .waits i ms signal hfresh hfound
      | some reason =>
        rw [sleep_of_found hfound]
        exact .refused i ms signal reason hfresh hfound
    · cases hstep
  | timer i =>
    obtain ⟨timer, harmed, rfl⟩ := Option.map_eq_some_iff.mp hstep
    exact .fires i timer harmed
  | abort reason =>
    obtain rfl := Option.some.inj hstep
    by_cases hfresh : s.reason = none
    · exact .abort reason hfresh
    · rw [abort_of_aborted hfresh]
      exact .again reason hfresh
  | listen k once =>
    obtain rfl := Option.some.inj hstep
    exact .listen k once
  | unlisten k =>
    obtain rfl := Option.some.inj hstep
    exact .unlisten k

end SleepState

end QueueWorkerKit
