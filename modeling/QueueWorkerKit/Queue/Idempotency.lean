import QueueWorkerKit.Queue.EnqueuedCounter

/-!
# Idempotency keys

Calls of `enqueue` with keys, from any number of producers, on queues that deduplicate. A caller
that has no answer, or an error where the job was created all the same, submits again under its key.

## Main definitions

* `Submission`: a call that has reached its queue, with the job it has created
* `Submissions.machine`: the runs of calls, with what each has come to
* `FromCalls`: what has reached a queue under the key of its call
* `Idempotent`: what the calls under a key have come to

## Main results

* `key_of_prepareAdd`: an add is deduplicated by the idempotency key of its call
* `step_cases`: what a call does
* `submission_run`: what has reached a queue are calls of the run, under their own keys
* `idempotent_run`: **the calls under a key come to one job** as long as the key is live
-/

namespace QueueWorkerKit

open Ecma EventDriven

/-- The queue and the key that an add is deduplicated by. -/
def AddCall.key (call : AddCall) : Option (QueueName × JsString) :=
  call.options.deduplication.map fun d => (call.queue, d.id)

/-- The job that an add which reaches the queue creates, unless it is collapsed onto another. -/
def AddOutcome.landed : AddOutcome → Option JsString
  | .accepted newId => some newId
  | .withoutId newId => some newId
  | .rejected _ landed => landed

/-- A call whose checks have passed: its add, the job that the add has created, if it has, and what
the call has come to. -/
structure Submission where
  call : AddCall
  created : Option JsString
  result : Except Thrown EnqueueResult

/-- The queues, and the calls that have reached them. -/
structure Submissions where
  store : Store
  log : List Submission

namespace Submissions

def start (live : QueueName × JsString → Option JsString) : Submissions := ⟨.start live, []⟩

/-- The job that an add creates. -/
def creates (s : Store) (outcome : AddOutcome) (call : AddCall) : Option JsString :=
  match s.existing call with
  | some _ => none
  | none => outcome.landed

/-- What a call adds to the log. -/
def logged (fmt : Formats) (s : Store) : StoreEvent → List Submission
  | .enqueue c =>
    let run := enqueue fmt c.context (s.answer c.outcome) c.name c.payload c.options
    run.adds.map fun call => ⟨call, creates s c.outcome call, run.result⟩
  | .keyExpires _ _ => []

/-- The runs of calls, which are those of the queues. -/
def machine (fmt : Formats) : Machine Submissions StoreEvent where
  step s e := ((Store.machine fmt).step s.store e).map fun store =>
    ⟨store, s.log ++ logged fmt s.store e⟩

/-- The jobs that calls under a key have created. -/
def jobs (s : Submissions) (k : QueueName × JsString) : List JsString :=
  s.log.filterMap fun sub => if sub.call.key = some k then sub.created else none

/-- A call under a key has returned an id. -/
def Returned (s : Submissions) (k : QueueName × JsString) (id : JsString) : Prop :=
  ∃ sub ∈ s.log, ∃ r, sub.call.key = some k ∧ sub.result = .ok r ∧ r.id = id

/-- What has reached a queue are calls among some events, each under the idempotency key that it
gives. -/
def FromCalls (fmt : Formats) (es : List StoreEvent) (s : Submissions) : Prop :=
  ∀ sub ∈ s.log, ∃ c, .enqueue c ∈ es ∧
    prepareAdd fmt c.context c.name c.payload c.options = .ok sub.call ∧
    sub.call.key = c.options.idempotencyKey.map fun key => (sub.call.queue, key)

/-- What the calls under a key have come to, which was live or not when they began: one job at most,
and that is the one which every call has returned that was accepted. -/
structure Idempotent (live : Option JsString) (s : Submissions) (k : QueueName × JsString) :
    Prop where
  once : (s.jobs k).length ≤ 1
  created : live = none → ∀ id, s.Returned k id → s.jobs k = [id]
  existing : ∀ id, live = some id → s.jobs k = [] ∧ ∀ id', s.Returned k id' → id' = id

variable {fmt : Formats} {s t : Submissions} {store : Store} {call : AddCall} {outcome : AddOutcome}
  {e : StoreEvent} {es : List StoreEvent} {k : QueueName × JsString} {id : JsString}
  {live : QueueName × JsString → Option JsString}

/-! ## What a call does -/

/-- **An add is deduplicated by the idempotency key of its call**, on the queue it goes to. -/
theorem key_of_prepareAdd {context : EnqueueContext} {name : JsString} {payload : Data}
    {options : EnqueueOptions} (h : prepareAdd fmt context name payload options = .ok call) :
    call.key = options.idempotencyKey.map fun key => (call.queue, key) := by
  obtain ⟨definition, parsed, -, -, -, rfl⟩ := prepareAdd_ok h
  unfold AddCall.key jobOptions JobsOptions.overriding
  cases options.idempotencyKey <;> rfl

theorem existing_of_key (h : call.key = some k) : store.existing call = store.live k := by
  obtain ⟨d, hd, rfl⟩ := Option.map_eq_some_iff.mp h
  rw [Store.existing, hd]
  rfl

theorem live_write (newId : JsString) : (store.write call newId).2.live k =
    if call.key = some k ∧ store.live k = none then some newId else store.live k := by
  cases hexisting : store.existing call with
  | some id =>
    have hnot : ¬ (call.key = some k ∧ store.live k = none) := by
      rintro ⟨hkey, hnone⟩
      rw [existing_of_key hkey, hnone] at hexisting
      cases hexisting
    simp only [Store.write, hexisting, if_neg hnot]
  | none =>
    cases hdeduplication : call.options.deduplication with
    | none =>
      have hnot : ¬ (call.key = some k ∧ store.live k = none) := by
        simp [AddCall.key, hdeduplication]
      simp only [Store.write, hexisting, hdeduplication, if_neg hnot]
    | some d =>
      have hkey : call.key = some (call.queue, d.id) := by simp [AddCall.key, hdeduplication]
      simp only [Store.write, hexisting, hdeduplication, Function.update_apply, hkey,
        Option.some.injEq]
      by_cases hk : (call.queue, d.id) = k
      · rw [← hk, ← existing_of_key hkey, hexisting]
        simp
      · simp [hk, Ne.symm hk]

/-- **What an add does to the live keys**: one that reaches the queue makes its key live, if it is
not. -/
theorem live_afterAdd : (store.afterAdd outcome call).live k =
    if call.key = some k ∧ store.live k = none then outcome.landed else store.live k := by
  cases outcome with
  | accepted newId => exact live_write newId
  | withoutId newId => exact live_write newId
  | rejected error landed =>
    cases landed with
    | some newId => exact live_write newId
    | none =>
      show store.live k = ite _ none _
      split_ifs with h
      · exact h.2
      · rfl

/-- The jobs that an add creates under its key, which is what its key is live for then. -/
theorem creates_of_key (h : call.key = some k) :
    creates store outcome call = if store.live k = none then outcome.landed else none := by
  rw [creates, existing_of_key h]
  cases store.live k <;> rfl

/-- What a call that is accepted returns: the job that its key is live for, or the new one. -/
theorem id_of_ok {c : EnqueueCall} {r : EnqueueResult}
    (hprepare : prepareAdd fmt c.context c.name c.payload c.options = .ok call)
    (hresult : (enqueue fmt c.context (store.answer c.outcome) c.name c.payload c.options).result =
      .ok r) :
    ∃ newId, c.outcome = .accepted newId ∧ r.id = (store.existing call).getD newId := by
  unfold enqueue at hresult
  rw [hprepare] at hresult
  cases houtcome : c.outcome with
  | accepted newId =>
    rw [houtcome] at hresult
    obtain rfl := Except.ok.inj hresult
    refine ⟨newId, rfl, ?_⟩
    show (store.write call newId).1 = _
    unfold Store.write
    cases store.existing call <;> rfl
  | withoutId newId =>
    rw [houtcome] at hresult
    cases hresult
  | rejected error landed =>
    rw [houtcome] at hresult
    cases hresult

/-- What happens in a step. -/
inductive Step (fmt : Formats) (s : Submissions) : StoreEvent → Submissions → Prop
  | refused (c : EnqueueCall) : Step fmt s (.enqueue c) s
  | added (c : EnqueueCall) (call : AddCall) (store : Store) (result : Except Thrown EnqueueResult)
      (prepare : prepareAdd fmt c.context c.name c.payload c.options = .ok call)
      (live : store.live = (s.store.afterAdd c.outcome call).live)
      (ok : ∀ r, result = .ok r →
        ∃ newId, c.outcome = .accepted newId ∧ r.id = (s.store.existing call).getD newId) :
      Step fmt s (.enqueue c) ⟨store, s.log ++ [⟨call, creates s.store c.outcome call, result⟩]⟩
  | expires (queue : QueueName) (key : JsString) (store : Store)
      (live : store.live = Function.update s.store.live (queue, key) none) :
      Step fmt s (.keyExpires queue key) ⟨store, s.log⟩

/-- **What a step does.** -/
theorem step_cases (hstep : (machine fmt).step s e = some t) : Step fmt s e t := by
  obtain ⟨store, hstore, rfl⟩ := Option.map_eq_some_iff.mp hstep
  cases e with
  | keyExpires queue key =>
    obtain rfl := Option.some.inj hstore
    simp only [logged, List.append_nil]
    exact .expires queue key _ rfl
  | enqueue c =>
    cases hprepare : prepareAdd fmt c.context c.name c.payload c.options with
    | error error =>
      -- a failed check reaches no queue
      obtain rfl := Store.step_enqueue_error hprepare hstore
      have hadds : (enqueue fmt c.context (s.store.answer c.outcome) c.name c.payload
          c.options).adds = [] := (enqueue_of_error hprepare).1
      simp only [logged, hadds, List.map_nil, List.append_nil]
      exact .refused c
    | ok call =>
      have hadds : (enqueue fmt c.context (s.store.answer c.outcome) c.name c.payload
          c.options).adds = [call] := adds_of_ok hprepare
      obtain rfl := Option.some.inj hstore
      simp only [logged, hadds, List.map_cons, List.map_nil, List.foldl_cons, List.foldl_nil]
      exact .added c call _ _ hprepare rfl fun r hr => id_of_ok hprepare hr

/-- **What has reached a queue are calls of the run**, under their own keys. -/
theorem submission_run (hrun : (machine fmt).run (start live) es = some s) :
    FromCalls fmt es s := by
  have hstart : FromCalls fmt [] (start live) := fun sub hsub => absurd hsub List.not_mem_nil
  have h := Machine.run_history (G := fun _ _ => True) (fun hist s e t h _ hstep => ?_) hstart
    Machine.stepsMeet_true hrun
  · rwa [List.nil_append] at h
  have hkept : FromCalls fmt (hist ++ [e]) s := by
    intro sub hsub
    obtain ⟨c, hc, hsub⟩ := h sub hsub
    exact ⟨c, List.mem_append_left _ hc, hsub⟩
  cases step_cases hstep with
  | refused c => exact hkept
  | expires queue key store live => exact hkept
  | added c call store result prepare live ok =>
    intro sub hsub
    rcases List.mem_append.mp hsub with hsub | hsub
    · exact hkept sub hsub
    · obtain rfl := List.mem_singleton.mp hsub
      exact ⟨c, List.mem_append_right _ (List.mem_singleton_self _), prepare,
        key_of_prepareAdd prepare⟩

/-! ## The calls under a key -/

theorem jobs_concat {sub : Submission} : (⟨store, s.log ++ [sub]⟩ : Submissions).jobs k =
    s.jobs k ++ (if sub.call.key = some k then sub.created else none).toList := by
  show (s.log ++ [sub]).filterMap _ = _
  rw [List.filterMap_append, List.filterMap_cons, List.filterMap_nil]
  cases h : if sub.call.key = some k then sub.created else none <;> rfl

theorem returned_concat {sub : Submission} :
    (⟨store, s.log ++ [sub]⟩ : Submissions).Returned k id ↔ s.Returned k id ∨
      ∃ r, sub.call.key = some k ∧ sub.result = .ok r ∧ r.id = id := by
  simp only [Returned, List.mem_append, List.mem_singleton, or_and_right, exists_or,
    exists_eq_left]

/-- Where the calls under a key stand that does not expire: none of them has reached the queue, or
the key is live for the job that they have come to. -/
inductive Stands (live : Option JsString) (s : Submissions) (k : QueueName × JsString) : Prop
  | untouched (first : live = none) (absent : s.store.live k = none) (jobs : s.jobs k = [])
      (returned : ∀ id, ¬ s.Returned k id)
  | settled (id : JsString) (held : s.store.live k = some id)
      (first : ∀ id', live = some id' → id' = id)
      (jobs : s.jobs k = if live = none then [id] else [])
      (returned : ∀ id', s.Returned k id' → id' = id)

/-- A call under another key, or under none, leaves the calls under a key where they stand. -/
theorem Stands.frame {sub : Submission} {first : Option JsString} (h : Stands first s k)
    (hkey : sub.call.key ≠ some k) (hlive : store.live k = s.store.live k) :
    Stands first ⟨store, s.log ++ [sub]⟩ k := by
  have hjobs : (⟨store, s.log ++ [sub]⟩ : Submissions).jobs k = s.jobs k := by
    rw [jobs_concat, if_neg hkey, Option.toList_none, List.append_nil]
  have hreturned : ∀ id, (⟨store, s.log ++ [sub]⟩ : Submissions).Returned k id ↔
      s.Returned k id := by
    intro id
    rw [returned_concat]
    exact or_iff_left fun ⟨_, h, _⟩ => hkey h
  cases h with
  | untouched first absent jobs returned =>
    exact .untouched first (hlive.trans absent) (hjobs.trans jobs) fun id =>
      mt (hreturned id).mp (returned id)
  | settled id held first jobs returned =>
    exact .settled id (hlive.trans held) first (hjobs.trans jobs) fun id' h =>
      returned id' ((hreturned id').mp h)

/-- A call under a key that is live comes to the job that it is live for. -/
theorem Stands.again {sub : Submission} {first : Option JsString}
    (hfirst : ∀ id', first = some id' → id' = id)
    (jobs : s.jobs k = if first = none then [id] else [])
    (returned : ∀ id', s.Returned k id' → id' = id) (hlive : store.live k = some id)
    (hcreated : sub.created = none) (hresult : ∀ r, sub.result = .ok r → r.id = id) :
    Stands first ⟨store, s.log ++ [sub]⟩ k := by
  refine .settled id hlive hfirst ?_ fun id' hid => ?_
  · rw [jobs_concat, hcreated, ite_self, Option.toList_none, List.append_nil, jobs]
  · rcases returned_concat.mp hid with hid | ⟨r, -, hr, rfl⟩
    · exact returned id' hid
    · exact hresult r hr

theorem stands_step {first : Option JsString} (h : Stands first s k)
    (he : e ≠ .keyExpires k.1 k.2) (hstep : (machine fmt).step s e = some t) :
    Stands first t k := by
  cases step_cases hstep with
  | refused c => exact h
  | expires queue key store live =>
    have hne : k ≠ (queue, key) := by
      rintro rfl
      exact he rfl
    have hlive : store.live k = s.store.live k := by rw [live, Function.update_of_ne hne]
    cases h with
    | untouched first absent jobs returned =>
      exact .untouched first (hlive.trans absent) jobs returned
    | settled id held first jobs returned =>
      exact .settled id (hlive.trans held) first jobs returned
  | added c call store result prepare live ok =>
    have hlive : store.live k = _ := (congrFun live k).trans live_afterAdd
    by_cases hkey : call.key = some k
    · have hcreates := @creates_of_key s.store call c.outcome k hkey
      cases h with
      | untouched hfirst absent jobs returned =>
        rw [if_pos ⟨hkey, absent⟩] at hlive
        rw [if_pos absent] at hcreates
        have hresult : ∀ r, result = .ok r → c.outcome.landed = some r.id := by
          intro r hr
          obtain ⟨newId, houtcome, hid⟩ := ok r hr
          rw [existing_of_key hkey, absent] at hid
          rw [houtcome, hid]
          rfl
        cases hlanded : c.outcome.landed with
        | none =>
          refine .untouched hfirst (hlive.trans hlanded) ?_ fun id hid => ?_
          · rw [jobs_concat, hcreates, hlanded, ite_self, Option.toList_none, List.append_nil, jobs]
          · rcases returned_concat.mp hid with hid | ⟨r, -, hr, -⟩
            · exact returned id hid
            · exact absurd ((hresult r hr).symm.trans hlanded) (by simp)
        | some newId =>
          refine .settled newId (hlive.trans hlanded) ?_ ?_ fun id hid => ?_
          · rw [hfirst]
            rintro _ ⟨⟩
          · rw [jobs_concat, hcreates, hlanded, if_pos hkey, jobs, if_pos hfirst]
            rfl
          · rcases returned_concat.mp hid with hid | ⟨r, -, hr, rfl⟩
            · exact absurd hid (returned id)
            · exact Option.some.inj ((hresult r hr).symm.trans hlanded)
      | settled id held hfirst jobs returned =>
        have hne : s.store.live k ≠ none := by simp [held]
        rw [if_neg fun h => hne h.2] at hlive
        rw [if_neg hne] at hcreates
        refine .again hfirst jobs returned (hlive.trans held) hcreates fun r hr => ?_
        obtain ⟨newId, -, hid⟩ := ok r hr
        rw [hid, existing_of_key hkey, held]
        rfl
    · refine h.frame hkey ?_
      rw [hlive, if_neg fun h => hkey h.1]

/-- **The calls under a key come to one job** as long as the key is live, whatever the other calls
do and whichever answers are lost: at most one job is created under it, and every call that is
accepted returns that job, or the one that the key was live for when the calls began. -/
theorem idempotent_run (hkept : .keyExpires k.1 k.2 ∉ es)
    (hrun : (machine fmt).run (start live) es = some s) : Idempotent (live k) s k := by
  have hstart : Stands (live k) (start live) k := by
    cases hlive : live k with
    | none => exact .untouched rfl hlive rfl fun _ ⟨_, hmem, _⟩ => absurd hmem List.not_mem_nil
    | some id =>
      exact .settled id hlive (fun _ h => (Option.some.inj h).symm) rfl fun _ ⟨_, hmem, _⟩ =>
        absurd hmem List.not_mem_nil
  have hstands : Stands (live k) s k :=
    Machine.run_invariant (I := fun s => Stands (live k) s k)
      (fun _ _ _ h he hstep => stands_step h he hstep) hstart
      (Machine.stepsMeet_of_forall fun e he heq => hkept (heq ▸ he)) hrun
  cases hstands with
  | untouched first absent jobs returned =>
    refine ⟨by simp [jobs], fun _ id hid => absurd hid (returned id), fun id hid => ?_⟩
    exact absurd (first.symm.trans hid) (by simp)
  | settled id held first jobs returned =>
    refine ⟨?_, fun hnone id' hid => ?_, fun id' hid => ⟨?_, fun id'' hid' => ?_⟩⟩
    · rw [jobs]
      split_ifs <;> simp
    · rw [jobs, if_pos hnone, returned id' hid]
    · rw [jobs, if_neg (by simp [hid])]
    · rw [returned id'' hid', first id' hid]

/-- A call under a key whose add goes in some way. -/
def orderCall (outcome : AddOutcome) : StoreEvent :=
  .enqueue {
    context := plainContext
    name := js "email.send"
    payload := emailPayload
    options := ⟨none, none, none, none, some (js "order-7"), none⟩
    outcome }

/-- A caller whose first answer is lost, and who submits twice again. -/
def lostAnswer : List StoreEvent := [
  orderCall (.rejected (.value .null) (some (js "1"))),
  .keyExpires .reports (js "order-7"),
  orderCall (.accepted (js "2")),
  orderCall (.accepted (js "3"))]

theorem idempotent_run_lostAnswer : ∃ s,
    (machine featureFormats).run (start noKeys) lostAnswer = some s ∧
      s.log.length = 3 ∧ s.jobs (.email, js "order-7") = [js "1"] ∧
      Idempotent none s (.email, js "order-7") := by
  obtain ⟨s, hrun, hlog, hjobs⟩ : ∃ s,
      (machine featureFormats).run (start noKeys) lostAnswer = some s ∧
        s.log.length = 3 ∧ s.jobs (.email, js "order-7") = [js "1"] := ⟨_, rfl, rfl, rfl⟩
  refine ⟨s, hrun, hlog, hjobs, idempotent_run ?_ hrun⟩
  simp [lostAnswer, orderCall]

end Submissions

end QueueWorkerKit
