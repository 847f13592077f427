import QueueWorkerKit.Library.Machine
import QueueWorkerKit.Queue.Enqueue

/-!
# The counter of enqueued jobs

Calls of `enqueue` on queues that deduplicate: an add whose key is live on its queue creates no job
and returns the id of the one that exists. A key goes live with the job that is created under it and
ceases to be live at any moment, which covers every time to live and every clock. An add may be
accepted, rejected before or after the job was created, or answered with a job without an id.

## Main definitions

* `AddOutcome`, `Store`, `Store.write`: how adds go, and the queues with the live keys
* `Store.machine`: the runs of calls
* `Store.Exact`, `Store.Clean`: the counter counts what was created, and the step that keeps it so

## Main results

* `exact_step_iff`: what a step does to the counter
* `enqueued_exact_iff`: **when the counter counts the jobs that were created**
-/

namespace QueueWorkerKit

open Ecma EventDriven

/-- How an add goes: accepted, with the id of the job if that is new; answered with a job without an
id; or rejected, after a job was created under an id or before. -/
inductive AddOutcome
  | accepted (newId : JsString)
  | withoutId (newId : JsString)
  | rejected (error : Thrown) (landed : Option JsString)

/-- The add is acknowledged with a job that has an id. -/
def AddOutcome.acknowledged : AddOutcome → Bool
  | .accepted _ => true
  | _ => false

/-- The add reaches the queue. -/
def AddOutcome.lands : AddOutcome → Bool
  | .rejected _ none => false
  | _ => true

/-- The job that is live under a key of a queue, the jobs created so far, and the increments of the
counter, by queue and name. -/
structure Store where
  live : QueueName × JsString → Option JsString
  created : List (QueueName × JsString)
  enqueued : List (QueueName × JsString)

/-- A call of `enqueue`, in its surroundings, and how its add goes. -/
structure EnqueueCall where
  context : EnqueueContext
  name : JsString
  payload : Data
  options : EnqueueOptions
  outcome : AddOutcome

/-- A call, or the end of the life of a key. -/
inductive StoreEvent
  | enqueue (c : EnqueueCall)
  | keyExpires (queue : QueueName) (key : JsString)

namespace Store

/-- The queues when the calls begin, with some keys live already. -/
def start (live : QueueName × JsString → Option JsString) : Store := ⟨live, [], []⟩

/-- The job that an add would be collapsed onto. -/
def existing (s : Store) (call : AddCall) : Option JsString :=
  call.options.deduplication.bind fun d => s.live (call.queue, d.id)

/-- An add that reaches the queue: the id it comes to, and the queues after it. -/
def write (s : Store) (call : AddCall) (newId : JsString) : JsString × Store :=
  match s.existing call with
  | some id => (id, s)
  | none =>
    (newId, { s with
      live := match call.options.deduplication with
        | some d => Function.update s.live (call.queue, d.id) (some newId)
        | none => s.live
      created := s.created ++ [(call.queue, call.name)] })

/-- The answer to an add. -/
def answer (s : Store) (outcome : AddOutcome) (call : AddCall) : QueueAnswer :=
  match outcome with
  | .accepted newId => .job (some (s.write call newId).1)
  | .withoutId _ => .job none
  | .rejected error _ => .rejected error

/-- The queues after an add. -/
def afterAdd (s : Store) (outcome : AddOutcome) (call : AddCall) : Store :=
  match outcome with
  | .accepted newId => (s.write call newId).2
  | .withoutId newId => (s.write call newId).2
  | .rejected _ (some newId) => (s.write call newId).2
  | .rejected _ none => s

/-- The runs of calls. -/
def machine (fmt : Formats) : Machine Store StoreEvent where
  step s
    | .enqueue c =>
      let run := enqueue fmt c.context (s.answer c.outcome) c.name c.payload c.options
      let t := run.adds.foldl (fun s call => s.afterAdd c.outcome call) s
      some { t with enqueued := t.enqueued ++ run.enqueued }
    | .keyExpires queue key => some { s with live := Function.update s.live (queue, key) none }

/-- The counter has increased, for each queue and name, by the number of jobs created. -/
def Exact (s : Store) : Prop := ∀ labels, s.enqueued.count labels = s.created.count labels

/-- A call that leaves the counter right: if its checks pass, an accepted add meets no live key, and
an add that is answered without an id or rejected creates no job. -/
def Clean (fmt : Formats) (s : Store) : StoreEvent → Prop
  | .keyExpires _ _ => True
  | .enqueue c =>
    ∀ call, prepareAdd fmt c.context c.name c.payload c.options = .ok call →
      match c.outcome with
      | .accepted _ => s.existing call = none
      | .withoutId _ => s.existing call ≠ none
      | .rejected _ landed => landed = none ∨ s.existing call ≠ none

end Store

variable {fmt : Formats} {s t : Store} {e : StoreEvent} {es : List StoreEvent} {call : AddCall}

namespace Store

theorem created_write (newId : JsString) : (s.write call newId).2.created = s.created ++
    if s.existing call = none then [(call.queue, call.name)] else [] := by
  unfold write
  cases s.existing call with
  | none => rfl
  | some id => simp

theorem enqueued_write (newId : JsString) : (s.write call newId).2.enqueued = s.enqueued := by
  unfold write
  split <;> rfl

theorem enqueued_afterAdd (outcome : AddOutcome) :
    (s.afterAdd outcome call).enqueued = s.enqueued := by
  cases outcome with
  | accepted newId => exact enqueued_write newId
  | withoutId newId => exact enqueued_write newId
  | rejected error landed =>
    cases landed with
    | none => rfl
    | some newId => exact enqueued_write newId

/-- The jobs that an add creates. -/
theorem created_afterAdd (outcome : AddOutcome) : (s.afterAdd outcome call).created = s.created ++
    if outcome.lands = true ∧ s.existing call = none then [(call.queue, call.name)] else [] := by
  cases outcome with
  | accepted newId => simpa [afterAdd, AddOutcome.lands] using created_write newId
  | withoutId newId => simpa [afterAdd, AddOutcome.lands] using created_write newId
  | rejected error landed =>
    cases landed with
    | none => simp [afterAdd, AddOutcome.lands]
    | some newId => simpa [afterAdd, AddOutcome.lands] using created_write newId

/-- **What a call does** when its checks pass: its add reaches the queue, and the counter moves if
the add was accepted. -/
theorem step_enqueue_ok {c : EnqueueCall}
    (hprepare : prepareAdd fmt c.context c.name c.payload c.options = .ok call)
    (hstep : (machine fmt).step s (.enqueue c) = some t) :
    t.created = (s.afterAdd c.outcome call).created ∧
      t.enqueued = s.enqueued ++
        if c.outcome.acknowledged = true then [(call.queue, call.name)] else [] := by
  obtain rfl := Option.some.inj hstep
  have hadds : (enqueue fmt c.context (s.answer c.outcome) c.name c.payload c.options).adds = [call] :=
    adds_of_ok hprepare
  simp only [hadds, List.foldl_cons, List.foldl_nil, enqueued_afterAdd]
  refine ⟨trivial, congrArg _ ?_⟩
  unfold enqueue
  rw [hprepare]
  cases c.outcome <;> rfl

/-- A call whose checks fail changes nothing. -/
theorem step_enqueue_error {c : EnqueueCall} {error : KitError}
    (hprepare : prepareAdd fmt c.context c.name c.payload c.options = .error error)
    (hstep : (machine fmt).step s (.enqueue c) = some t) : t = s := by
  obtain rfl := Option.some.inj hstep
  have hrun : (enqueue fmt c.context (s.answer c.outcome) c.name c.payload c.options).adds = [] ∧
      (enqueue fmt c.context (s.answer c.outcome) c.name c.payload c.options).enqueued = [] :=
    enqueue_of_error hprepare
  simp only [hrun, List.foldl_nil, List.append_nil]

/-- An element appended to one of two lists with equal counts keeps the counts equal exactly if it
is appended to the other as well. -/
theorem exact_append_iff (h : s.Exact) {labels : QueueName × JsString} {p q : Prop} [Decidable p]
    [Decidable q] (hcreated : t.created = s.created ++ if p then [labels] else [])
    (henqueued : t.enqueued = s.enqueued ++ if q then [labels] else []) : t.Exact ↔ (q ↔ p) := by
  have hcount : ∀ x, (t.enqueued.count x = t.created.count x ↔
      (if q then [labels] else []).count x = (if p then [labels] else []).count x) := by
    intro x
    rw [henqueued, hcreated, List.count_append, List.count_append, h x]
    exact Nat.add_left_cancel_iff
  constructor
  · intro ht
    have hlabels := (hcount labels).mp (ht labels)
    by_cases hp : p <;> by_cases hq : q <;> simp [hp, hq] at hlabels ⊢
  · intro hiff x
    rw [hcount]
    by_cases hp : p
    · simp [hp, hiff.mpr hp]
    · simp [hp, mt hiff.mp hp]

/-- **What a step does to the counter**: it stays right exactly if the step is clean. -/
theorem exact_step_iff (h : s.Exact) (hstep : (machine fmt).step s e = some t) :
    t.Exact ↔ Clean fmt s e := by
  cases e with
  | keyExpires queue key =>
    obtain rfl := Option.some.inj hstep
    exact iff_of_true h trivial
  | enqueue c =>
    cases hprepare : prepareAdd fmt c.context c.name c.payload c.options with
    | error error =>
      -- a failed check leaves the queues and the counter alone
      obtain rfl := step_enqueue_error hprepare hstep
      refine iff_of_true h fun call hcall => ?_
      rw [hprepare] at hcall
      cases hcall
    | ok call =>
      obtain ⟨hcreated, henqueued⟩ := step_enqueue_ok hprepare hstep
      rw [created_afterAdd] at hcreated
      rw [exact_append_iff h hcreated henqueued]
      have hclean : Clean fmt s (.enqueue c) ↔
          match c.outcome with
          | .accepted _ => s.existing call = none
          | .withoutId _ => s.existing call ≠ none
          | .rejected _ landed => landed = none ∨ s.existing call ≠ none := by
        constructor
        · exact fun hall => hall call hprepare
        · intro hmatch call' hcall'
          obtain rfl := Except.ok.inj (hprepare.symm.trans hcall')
          exact hmatch
      rw [hclean]
      cases c.outcome with
      | accepted newId => simp [AddOutcome.acknowledged, AddOutcome.lands]
      | withoutId newId => simp [AddOutcome.acknowledged, AddOutcome.lands]
      | rejected error landed =>
        cases landed <;> simp [AddOutcome.acknowledged, AddOutcome.lands]

end Store

/-- **When the counter counts the jobs that were created.** Whatever keys are live when the calls
begin, and for every sequence of calls, of any names, payloads and options, at any times, on queues
that answer in any way: in every state of the run the counter has increased, for each queue and
name, by the number of jobs created there, exactly when no accepted add meets a live key and no add
that is rejected or answered without an id creates a job. -/
theorem enqueued_exact_iff {live : QueueName × JsString → Option JsString}
    (hrun : (Store.machine fmt).run (.start live) es = some t) :
    (Store.machine fmt).Always Store.Exact (.start live) es ↔
      (Store.machine fmt).StepsMeet (Store.Clean fmt) (.start live) es :=
  Machine.always_iff (fun _ _ _ h hstep => Store.exact_step_iff h hstep) (fun _ => rfl) hrun

/-! ### Two calls with one key -/

/-- A call with an idempotency key that is accepted. -/
def keyedCall (newId : JsString) : StoreEvent :=
  .enqueue {
    context := plainContext
    name := js "email.send"
    payload := emailPayload
    options := ⟨none, none, none, none, some (js "order-7"), none⟩
    outcome := .accepted newId }

/-- No key is live. -/
def noKeys : QueueName × JsString → Option JsString := fun _ => none

/-- A key that is reused after its time. -/
def reusedKey : List StoreEvent :=
  [keyedCall (js "1"), .keyExpires .email (js "order-7"), keyedCall (js "2")]

theorem enqueued_exact_iff_reusedKey : ∃ t,
    (Store.machine featureFormats).run (.start noKeys) reusedKey = some t ∧
      t.enqueued = [(.email, js "email.send"), (.email, js "email.send")] ∧
      ((Store.machine featureFormats).Always Store.Exact (.start noKeys) reusedKey ↔
        (Store.machine featureFormats).StepsMeet (Store.Clean featureFormats) (.start noKeys)
          reusedKey) := by
  obtain ⟨t, hrun, henqueued⟩ : ∃ t,
      (Store.machine featureFormats).run (.start noKeys) reusedKey = some t ∧
        t.enqueued = [(.email, js "email.send"), (.email, js "email.send")] := ⟨_, rfl, rfl⟩
  exact ⟨t, hrun, henqueued, enqueued_exact_iff hrun⟩

/-- **A repeated call is counted though it creates nothing.** -/
theorem repeated_call_is_counted : ∃ t,
    (Store.machine featureFormats).run (.start noKeys) [keyedCall (js "1"), keyedCall (js "2")] =
        some t ∧
      t.enqueued.count (.email, js "email.send") = 2 ∧
      t.created.count (.email, js "email.send") = 1 ∧ ¬ t.Exact := by
  obtain ⟨t, hrun, henqueued, hcreated⟩ : ∃ t,
      (Store.machine featureFormats).run (.start noKeys) [keyedCall (js "1"), keyedCall (js "2")] =
          some t ∧
        t.enqueued.count (.email, js "email.send") = 2 ∧
        t.created.count (.email, js "email.send") = 1 := ⟨_, rfl, by decide, by decide⟩
  refine ⟨t, hrun, henqueued, hcreated, fun hexact => ?_⟩
  have hequal := hexact (.email, js "email.send")
  omega

end QueueWorkerKit
