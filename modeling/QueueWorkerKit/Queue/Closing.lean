import QueueWorkerKit.Library.CloseOnce
import QueueWorkerKit.Library.EventEmitter
import QueueWorkerKit.Library.Text
import QueueWorkerKit.Utils.SerializeError

/-!
# Handles of queues, of their events and of the connection

What a process closes of its queues: the registry of `queue/registry.ts`, the listeners of
`queue/events.ts`, and the connection of `queue/connection.ts`. Each keeps the promise of its first
`close`. The queues, the instances of `QueueEvents` and the client are those of the driver, which
may take any time to close, fail to, or never end. Logging does not throw.

## Main definitions

* `QueueRegistry.createQueues`: the map of a registry, and its look-ups
* `QueueRegistry.closing`, `QueueEventsHandle.closing`, `RedisConnection.closing`: the handles
* `QueueEventsHandle.machine`: the instances, which emit events while and after they are closed
* `RegistryAccount`, `HandleAccount`, `QuitAccount`: what holds of a handle after a run

## Main results

* `QueueRegistry.get_eq_some_iff`: a look-up finds the queue that was created last under a name
* `QueueRegistry.getOrThrow_eq_error_iff`: it throws exactly for the names that were not given
* `registry_account`: **a registry closes what can be looked up**, and every queue it created
  exactly when no name is given twice
* `handle_account`: **nothing is logged once the listeners are closed**
* `quit_account`: **the client is disconnected only when it has failed to quit**
-/

namespace QueueWorkerKit

open Ecma EventDriven

/-- The error of a command for which the connection is gone. -/
def connectionClosed : JsObject ErrorClass where
  callable := false
  instanceOf c := .ok (c = .error)
  get key := .ok <|
    if key = "name" then .string (js "Error")
    else if key = "message" then .string (js "Connection is closed.")
    else .undefined
  toText := .ok (js "Error: Connection is closed.")
  toJson := .ok (some (js "\x7b\x7d"))

/-! ## The queue registry -/

namespace QueueRegistry

/-- `set` of a map: the entry of a key keeps its place. -/
def set (queues : List (JsString × ℕ)) (name : JsString) (k : ℕ) : List (JsString × ℕ) :=
  if name ∈ queues.map Prod.fst then queues.map fun p => if p.1 = name then (name, k) else p
  else queues ++ [(name, k)]

/-- The map of `createQueueRegistry`: each name is given the queue that is created for it. -/
def createQueues (names : List JsString) : List (JsString × ℕ) :=
  names.zipIdx.foldl (fun queues p => set queues p.1 p.2) []

def get (names : List JsString) (name : JsString) : Option ℕ :=
  ((createQueues names).find? fun p => p.1 = name).map Prod.snd

def getOrThrow (names : List JsString) (name : JsString) : Except JsString ℕ :=
  match get names name with
  | none => .error (js "Queue \"" ++ name ++ js "\" is not registered in this process")
  | some k => .ok k

/-- `close` of the registry: every queue of the map is closed. -/
def closing (names : List JsString) : Closing ℕ (Answer Unit) ℕ JsValue where
  parts := (createQueues names).map Prod.snd
  begins k := [k]
  ends _ closed := ([], closed)

/-- What holds of a registry after a run. The queues that can be looked up are closed by the first
call, each of them once; these are all that were created exactly when no name is given twice. The
promise is rejected with the first failure, and fulfilled when every queue has closed. -/
structure RegistryAccount (names : List JsString) (es : List (ClosingEvent ℕ (Answer Unit)))
    (s : ClosingState ℕ ℕ JsValue) : Prop where
  once : s.actions.Nodup
  closes : ∀ k, k ∈ s.actions ↔ s.calls ≠ 0 ∧ ∃ name, get names name = some k
  every : s.calls ≠ 0 → ((∀ k < names.length, k ∈ s.actions) ↔ names.Nodup)
  result : s.calls ≠ 0 → s.result = (closing names).result (es.filterMap ClosingEvent.settled)

variable {names : List JsString} {queues : List (JsString × ℕ)} {name name' : JsString} {k k' : ℕ}
  {es : List (ClosingEvent ℕ (Answer Unit))} {s : ClosingState ℕ ℕ JsValue}

/-- Setting an entry leaves those of other keys. -/
theorem mem_set : (name', k') ∈ set queues name k ↔
    name' = name ∧ k' = k ∨ name' ≠ name ∧ (name', k') ∈ queues := by
  unfold set
  split_ifs with hname
  -- the entry of the key is replaced, or there was none
  · obtain ⟨⟨_, old⟩, hold, rfl⟩ := List.mem_map.mp hname
    rw [List.mem_map]
    constructor
    · rintro ⟨⟨first, second⟩, hmem, heq⟩
      split_ifs at heq with hfirst
      · exact .inl (by simpa [eq_comm] using heq)
      · obtain ⟨rfl, rfl⟩ := Prod.mk.inj heq
        exact .inr ⟨hfirst, hmem⟩
    · rintro (⟨rfl, rfl⟩ | ⟨hne, hmem⟩)
      · exact ⟨_, hold, if_pos rfl⟩
      · exact ⟨_, hmem, if_neg hne⟩
  · rw [List.mem_append, List.mem_singleton, Prod.mk.injEq]
    constructor
    · rintro (hmem | heq)
      · refine .inr ⟨?_, hmem⟩
        rintro rfl
        exact hname (List.mem_map_of_mem hmem)
      · exact .inl heq
    · rintro (heq | ⟨-, hmem⟩)
      · exact .inr heq
      · exact .inl hmem

/-- A map has one entry for a key. -/
theorem nodup_keys_set (h : (queues.map Prod.fst).Nodup) :
    ((set queues name k).map Prod.fst).Nodup := by
  unfold set
  split_ifs with hname
  · have hkeys : (queues.map fun p => if p.1 = name then (name, k) else p).map Prod.fst =
        queues.map Prod.fst := by
      rw [List.map_map]
      refine List.map_congr_left fun p _ => ?_
      by_cases hp : p.1 = name <;> simp [hp]
    rw [hkeys]
    exact h
  · rw [List.map_append]
    refine List.nodup_append.mpr ⟨h, List.nodup_singleton _, ?_⟩
    rintro a ha b hb rfl
    rw [List.mem_singleton.mp hb] at ha
    exact hname ha

theorem createQueues_concat (names : List JsString) (name : JsString) :
    createQueues (names ++ [name]) = set (createQueues names) name names.length := by
  rw [createQueues, List.zipIdx_append, List.foldl_append]
  simp [createQueues]

theorem nodup_keys_createQueues (names : List JsString) :
    ((createQueues names).map Prod.fst).Nodup := by
  -- Induction on the names, from the one that was given last.
  induction names using List.reverseRecOn with
  | nil => exact List.nodup_nil
  | append_singleton names name ih =>
    rw [createQueues_concat]
    exact nodup_keys_set ih

/-- **The map holds the queue that was created last** under each name. -/
theorem mem_createQueues : (name, k) ∈ createQueues names ↔
    names[k]? = some name ∧ name ∉ names.drop (k + 1) := by
  -- Induction on the names, from the one that was given last.
  induction names using List.reverseRecOn generalizing k with
  | nil => simp [createQueues]
  | append_singleton names last ih =>
    rw [createQueues_concat, mem_set, ih]
    -- a queue that was there, the new one, and none
    rcases Nat.lt_trichotomy k names.length with hlt | rfl | hgt
    · rw [List.getElem?_append_left hlt, List.drop_append_of_le_length hlt, List.mem_append,
        List.mem_singleton]
      have hne : k ≠ names.length := by omega
      tauto
    · simp [eq_comm]
    · have hnone : (names ++ [last])[k]? = none := by
        rw [List.getElem?_eq_none_iff, List.length_append, List.length_singleton]
        exact hgt
      have hnone' : names[k]? = none := List.getElem?_eq_none_iff.mpr (Nat.le_of_lt hgt)
      have hne : k ≠ names.length := by omega
      simp [hnone, hnone', hne]

/-- **A look-up finds the queue that was created last** under the name. -/
theorem get_eq_some_iff : get names name = some k ↔
    names[k]? = some name ∧ name ∉ names.drop (k + 1) := by
  rw [← mem_createQueues]
  have hnodup := nodup_keys_createQueues names
  unfold get
  rw [Option.map_eq_some_iff]
  constructor
  · rintro ⟨⟨found, _⟩, hfind, rfl⟩
    obtain rfl : found = name := by simpa using List.find?_some hfind
    exact List.mem_of_find?_eq_some hfind
  · intro hmem
    cases hfind : (createQueues names).find? fun p => p.1 = name with
    | none =>
      have hnot := List.find?_eq_none.mp hfind _ hmem
      simp at hnot
    | some p =>
      have hp := List.mem_of_find?_eq_some hfind
      have hkey : p.1 = name := by simpa using List.find?_some hfind
      exact ⟨p, rfl, congrArg Prod.snd (List.inj_on_of_nodup_map hnodup hp hmem hkey)⟩

/-- A name that was given has a queue. -/
theorem exists_get (hmem : name ∈ names) : ∃ k, get names name = some k := by
  -- Induction on the names, from the one that was given last.
  induction names using List.reverseRecOn with
  | nil => cases hmem
  | append_singleton names last ih =>
    by_cases hlast : last = name
    · subst hlast
      exact ⟨names.length, get_eq_some_iff.mpr (by simp)⟩
    · have hold : name ∈ names := by simpa [Ne.symm hlast] using hmem
      obtain ⟨k, hk⟩ := ih hold
      refine ⟨k, get_eq_some_iff.mpr (mem_createQueues.mp ?_)⟩
      rw [createQueues_concat, mem_set]
      exact .inr ⟨Ne.symm hlast, mem_createQueues.mpr (get_eq_some_iff.mp hk)⟩

/-- **A look-up throws exactly for the names that were not given.** -/
theorem getOrThrow_eq_error_iff : (∃ text, getOrThrow names name = .error text) ↔ name ∉ names := by
  unfold getOrThrow
  constructor
  · rintro ⟨text, herror⟩ hmem
    obtain ⟨k, hk⟩ := exists_get hmem
    rw [hk] at herror
    cases herror
  · intro hnot
    cases hget : get names name with
    | none => exact ⟨_, rfl⟩
    | some k => exact absurd (List.mem_of_getElem? (get_eq_some_iff.mp hget).1) hnot

/-- A list has no element twice when none occurs again after its place. -/
theorem nodup_iff_not_mem_drop : names.Nodup ↔
    ∀ k < names.length, ∃ name, names[k]? = some name ∧ name ∉ names.drop (k + 1) := by
  -- Induction on the names.
  induction names with
  | nil => simp
  | cons name names ih =>
    rw [List.nodup_cons, ih]
    constructor
    · rintro ⟨hfirst, hrest⟩ k hk
      cases k with
      | zero => exact ⟨name, rfl, hfirst⟩
      | succ k => exact hrest k (Nat.lt_of_succ_lt_succ hk)
    · intro h
      refine ⟨?_, fun k hk => h (k + 1) (Nat.succ_lt_succ hk)⟩
      obtain ⟨_, hname, hnot⟩ := h 0 (Nat.succ_pos _)
      obtain rfl := Option.some.inj hname
      exact hnot

theorem mem_parts : k ∈ (closing names).parts ↔ ∃ name, get names name = some k := by
  simp only [closing, List.mem_map, get_eq_some_iff, ← mem_createQueues, Prod.exists]
  exact ⟨fun ⟨name, _, hmem, heq⟩ => ⟨name, heq ▸ hmem⟩, fun ⟨name, hmem⟩ => ⟨name, k, hmem, rfl⟩⟩

/-- A queue is held under one name. -/
theorem nodup_parts (names : List JsString) : (closing names).parts.Nodup := by
  refine List.Nodup.map_on ?_ (List.Nodup.of_map Prod.fst (nodup_keys_createQueues names))
  rintro ⟨name, k⟩ hmem ⟨name', k'⟩ hmem' heq
  obtain rfl : k = k' := heq
  have hname := (mem_createQueues.mp hmem).1.symm.trans (mem_createQueues.mp hmem').1
  rw [Option.some.inj hname]

/-- **A registry closes what can be looked up in it**, once, whatever the number of calls. -/
theorem registry_account (hrun : (closing names).machine.run Closing.start es = some s) :
    RegistryAccount names es s := by
  have haccount := Closing.close_account hrun
  have hactions : s.calls ≠ 0 → s.actions = (closing names).parts := by
    intro hcalls
    rw [haccount.actions hcalls]
    simp [closing]
  have hcloses : ∀ k, k ∈ s.actions ↔ s.calls ≠ 0 ∧ ∃ name, get names name = some k := by
    intro k
    by_cases hcalls : s.calls = 0
    · simp [(haccount.uncalled hcalls).2.1, hcalls]
    · rw [hactions hcalls, mem_parts]
      exact (and_iff_right hcalls).symm
  refine ⟨?_, hcloses, fun hcalls => ?_, haccount.result⟩
  · by_cases hcalls : s.calls = 0
    · rw [(haccount.uncalled hcalls).2.1]
      exact List.nodup_nil
    · rw [hactions hcalls]
      exact nodup_parts names
  · rw [nodup_iff_not_mem_drop]
    refine forall_congr' fun k => imp_congr_right fun _ => ?_
    rw [hcloses, and_iff_right hcalls]
    exact exists_congr fun _ => get_eq_some_iff

/-- Two calls on a registry that was given a name twice, one of whose queues fails to close. -/
def closesTwice : List (ClosingEvent ℕ (Answer Unit)) :=
  [.close, .settles 2 (.ok ()), .close, .settles 1 (.error (.object 0))]

/-- A name that is given twice. -/
def emailTwice : List JsString := [js "email", js "reports", js "email"]

theorem registry_account_closesTwice : ∃ s,
    (closing emailTwice).machine.run Closing.start closesTwice = some s ∧ s.actions = [2, 1] ∧
      s.result = some (.error (.object 0)) ∧
      RegistryAccount emailTwice closesTwice s := by
  obtain ⟨s, hrun, hstate⟩ : ∃ s, (closing emailTwice).machine.run Closing.start closesTwice =
      some s ∧ s.actions = [2, 1] ∧ s.result = some (.error (.object 0)) := ⟨_, rfl, rfl, rfl⟩
  exact ⟨s, hrun, hstate.1, hstate.2, registry_account hrun⟩

end QueueRegistry

/-! ## Listeners of queue events -/

/-- An event of `QueueEvents` that the kit listens to. -/
inductive QueueEvent
  | completed (jobId : JsString)
  | failed (jobId failedReason : JsString)
  | stalled (jobId : JsString)
  | error (value : JsValue)

inductive QueueEventName
  | completed
  | failed
  | stalled
  | error
  deriving DecidableEq

inductive EventLevel
  | debug
  | info
  | warn

/-- A line that is logged for an event, with the fields it has. -/
structure EventLine where
  level : EventLevel
  queue : JsString
  jobId : Option JsString
  failedReason : Option JsString
  err : Option SerializedError
  message : JsString

/-- What an event comes to for the driver: it was logged, a listener has thrown, or it is an error
that has found no listener, which an emitter throws. -/
inductive Emission
  | logged (lines : List EventLine)
  | throws (value : JsValue)
  | unheard (value : JsValue)

def QueueEvent.name : QueueEvent → QueueEventName
  | completed _ => .completed
  | failed _ _ => .failed
  | stalled _ => .stalled
  | error _ => .error

/-- What the listener of an event does. -/
def QueueEvent.log (h : Heap ErrorClass) (queue : JsString) : QueueEvent → Answer EventLine
  | completed jobId =>
    .ok ⟨.debug, queue, some jobId, none, none, js "queue event: completed"⟩
  | failed jobId failedReason =>
    .ok ⟨.debug, queue, some jobId, some failedReason, none, js "queue event: failed"⟩
  | stalled jobId => .ok ⟨.info, queue, some jobId, none, none, js "queue event: stalled"⟩
  | error value => do
    return ⟨.warn, queue, none, none, some (← serializeError h value 0), js "queue events error"⟩

namespace QueueEventsHandle

inductive Action
  | removeAllListeners (i : ℕ)
  | close (i : ℕ)
  deriving DecidableEq

/-- The calls of `close`, what was done to the instances, and what their events came to. -/
structure State where
  closing : ClosingState ℕ Action JsValue
  emissions : List (ℕ × Emission)

/-- A call of `close`, an instance that has closed or failed to, or one that emits an event. -/
inductive Event
  | closing (e : ClosingEvent ℕ (Answer Unit))
  | emits (i : ℕ) (e : QueueEvent)

/-- The listeners that an instance is given. -/
def listeners : List (QueueEventName × Unit) :=
  [(.completed, ()), (.failed, ()), (.stalled, ()), (.error, ())]

/-- What an action does to the listeners of an instance. -/
def Action.apply (i : ℕ) (E : EventEmitter QueueEventName Unit) :
    Action → EventEmitter QueueEventName Unit
  | removeAllListeners j => if j = i then .start else E
  | close _ => E

/-- The listeners of an instance after some actions. -/
def emitter (actions : List Action) (i : ℕ) : EventEmitter QueueEventName Unit :=
  actions.foldl (Action.apply i) (EventEmitter.start.onAll listeners)

/-- An instance of a queue emits an event. -/
def emit (h : Heap ErrorClass) (queue : JsString) (E : EventEmitter QueueEventName Unit)
    (e : QueueEvent) : Emission :=
  match E.listeners e.name, e with
  | [], .error value => .unheard value
  | listeners, e =>
    match listeners.mapM fun _ => e.log h queue with
    | .ok lines => .logged lines
    | .error value => .throws value

/-- `close` of the handle: every instance loses its listeners before it is closed. -/
def closing (queueNames : List JsString) : Closing ℕ (Answer Unit) Action JsValue where
  parts := List.range queueNames.length
  begins i := [.removeAllListeners i, .close i]
  ends _ closed := ([], closed)

def start : State := ⟨Closing.start, []⟩

/-- The instances of `createQueueEventsListeners`, one for each name, and the handle. -/
def machine (h : Heap ErrorClass) (queueNames : List JsString) : Machine State Event where
  step s
    | .closing e =>
      ((closing queueNames).machine.step s.closing e).map fun closing => { s with closing }
    | .emits i e => queueNames[i]?.map fun queue =>
      { s with emissions := s.emissions ++ [(i, emit h queue (emitter s.closing.actions i) e)] }

/-! ### What the events come to -/

/-- The part of an event that concerns the handle. -/
def Event.toClosing : Event → Option (ClosingEvent ℕ (Answer Unit))
  | .closing e => some e
  | .emits _ _ => none

def Event.isClose : Event → Bool
  | .closing .close => true
  | _ => false

/-- An event that is listened to: the line it is logged with. -/
def heard (h : Heap ErrorClass) (queue : JsString) (e : QueueEvent) : Emission :=
  match e.log h queue with
  | .ok line => .logged [line]
  | .error value => .throws value

/-- An event that nobody listens to. -/
def unheard (_queue : JsString) : QueueEvent → Emission
  | .error value => .unheard value
  | _ => .logged []

/-- What an event of the driver comes to. -/
def Event.emission (queueNames : List JsString) (outcome : JsString → QueueEvent → Emission) :
    Event → Option (ℕ × Emission)
  | .closing _ => none
  | .emits i e => queueNames[i]?.map fun queue => (i, outcome queue e)

/-- The events before the first call are heard, and those after it are not. -/
def outcomes (h : Heap ErrorClass) (queueNames : List JsString) (es : List Event) :
    List (ℕ × Emission) :=
  (es.takeWhile fun e => !e.isClose).filterMap (Event.emission queueNames (heard h)) ++
    (es.dropWhile fun e => !e.isClose).filterMap (Event.emission queueNames unheard)

/-- What holds of the handle after a run. It is closed once. The events that are emitted before the
first call are logged once each, and none is logged after it; an error then finds no listener. -/
structure HandleAccount (h : Heap ErrorClass) (queueNames : List JsString) (es : List Event)
    (s : State) : Prop where
  closed : Closing.CloseAccount (closing queueNames) (es.filterMap Event.toClosing) s.closing
  emissions : s.emissions = outcomes h queueNames es

variable {h : Heap ErrorClass} {queueNames : List JsString} {queue : JsString} {s t : State}
  {e : Event} {es : List Event} {actions : List Action} {i : ℕ}

theorem listeners_createQueueEvents (name : QueueEventName) :
    (emitter [] i).listeners name = [()] := by
  cases name <;> rfl

/-- An instance that was given its listeners logs each event. -/
theorem emit_nil (e : QueueEvent) : emit h queue (emitter [] i) e = heard h queue e := by
  unfold emit heard
  rw [listeners_createQueueEvents]
  cases e with
  | error value =>
    simp only [QueueEvent.log, List.mapM_cons, List.mapM_nil]
    cases serializeError h value 0 <;> rfl
  | _ => rfl

/-- An instance that has lost its listeners has none. -/
theorem emitter_of_removed (hmem : .removeAllListeners i ∈ actions) :
    emitter actions i = .start := by
  -- Induction on the actions, from the last one.
  induction actions using List.reverseRecOn with
  | nil => cases hmem
  | append_singleton actions action ih =>
    rw [emitter, List.foldl_append]
    show Action.apply i (emitter actions i) action = _
    cases action with
    | close j =>
      exact ih (by simpa using hmem)
    | removeAllListeners j =>
      show (if j = i then _ else _) = _
      split_ifs with hj
      · rfl
      · exact ih (by simpa [Ne.symm hj] using hmem)

theorem emit_start (e : QueueEvent) : emit h queue .start e = unheard queue e := by
  cases e <;> rfl

/-- The first call takes the listeners of every instance. -/
theorem removed_of_account {cs : List (ClosingEvent ℕ (Answer Unit))}
    {c : ClosingState ℕ Action JsValue} (haccount : Closing.CloseAccount (closing queueNames) cs c)
    (hcalls : c.calls ≠ 0) (hi : i < queueNames.length) :
    .removeAllListeners i ∈ c.actions := by
  rw [haccount.actions hcalls]
  refine List.mem_append_left _ (List.mem_flatMap.mpr ⟨i, List.mem_range.mpr hi, ?_⟩)
  exact List.mem_cons_self ..

/-- The handle was called when `close` is among the events. -/
theorem countP_toClosing : (es.filterMap Event.toClosing).countP ClosingEvent.isClose =
    es.countP Event.isClose := by
  rw [List.countP_filterMap]
  refine List.countP_congr fun e _ => ?_
  cases e with
  | emits i e => simp [Event.toClosing, Event.isClose]
  | closing e => cases e <;> simp [Event.toClosing, Event.isClose, ClosingEvent.isClose]

/-- One more event is heard when no call was made before. -/
theorem outcomes_concat : outcomes h queueNames (es ++ [e]) = outcomes h queueNames es ++
    (e.emission queueNames (if es.countP Event.isClose = 0 then heard h else unheard)).toList := by
  unfold outcomes
  have hsingle : ∀ outcome, [e].filterMap (Event.emission queueNames outcome) =
      (e.emission queueNames outcome).toList := by
    intro outcome
    rw [List.filterMap_cons, List.filterMap_nil]
    cases e.emission queueNames outcome <;> rfl
  split_ifs with hnone
  · have hall : ∀ a ∈ es, (!a.isClose) = true := by
      intro a ha
      simpa using List.countP_eq_zero.mp hnone a ha
    rw [List.takeWhile_append_of_pos hall, List.dropWhile_append_of_pos hall,
      List.takeWhile_eq_self_iff.mpr hall, List.dropWhile_eq_nil_iff.mpr hall,
      List.filterMap_append, List.filterMap_nil, List.append_nil, List.append_assoc]
    cases hclose : e.isClose with
    | false =>
      rw [List.takeWhile_cons_of_pos (by simp [hclose]), List.dropWhile_cons_of_pos
        (by simp [hclose]), List.takeWhile_nil, List.dropWhile_nil, hsingle, List.filterMap_nil,
        List.append_nil]
    | true =>
      -- the call itself is no event of the driver
      have hboth : ∀ outcome, e.emission queueNames outcome = none := by
        cases e with
        | closing e => exact fun _ => rfl
        | emits i e => cases hclose
      rw [List.takeWhile_cons_of_neg (by simp [hclose]), List.dropWhile_cons_of_neg
        (by simp [hclose]), List.filterMap_nil, List.nil_append, hsingle, hboth, hboth]
  · -- what comes after a call stays after it
    obtain ⟨a, ha, hclose⟩ := List.countP_pos_iff.mp (Nat.pos_of_ne_zero hnone)
    have hrest : es.dropWhile (fun e => !e.isClose) ≠ [] := by
      intro hnil
      have hno := List.dropWhile_eq_nil_iff.mp hnil a ha
      simp [hclose] at hno
    rw [List.dropWhile_append, if_neg (by simpa using hrest), List.takeWhile_append,
      if_neg ?_, List.filterMap_append, hsingle, List.append_assoc]
    intro hlength
    have hsum := congrArg List.length (List.takeWhile_append_dropWhile
      (p := fun e : Event => !e.isClose) (l := es))
    rw [List.length_append, hlength] at hsum
    exact hrest (List.length_eq_zero_iff.mp (by omega))

/-- The account, with where the instances stand. -/
structure Inv (h : Heap ErrorClass) (queueNames : List JsString) (es : List Event) (s : State) :
    Prop where
  closing : Closing.Inv (closing queueNames) (es.filterMap Event.toClosing) s.closing
  emissions : s.emissions = outcomes h queueNames es

/-- An instance hears an event exactly before the first call. -/
theorem Inv.emit_eq (hinv : Inv h queueNames es s) (hi : queueNames[i]? = some queue)
    (e : QueueEvent) : emit h queue (emitter s.closing.actions i) e =
      (if es.countP Event.isClose = 0 then heard h else unheard) queue e := by
  rw [← countP_toClosing, ← hinv.closing.calls]
  split_ifs with hcalls
  · rw [(hinv.closing.uncalled hcalls).2.1, emit_nil]
  · have hlt : i < queueNames.length := (List.getElem?_eq_some_iff.mp hi).1
    rw [emitter_of_removed (removed_of_account hinv.closing.toCloseAccount hcalls hlt), emit_start]

theorem inv_step (hinv : Inv h queueNames es s) (hstep : (machine h queueNames).step s e = some t) :
    Inv h queueNames (es ++ [e]) t := by
  cases e with
  | closing e =>
    obtain ⟨closing, hclosing, rfl⟩ := Option.map_eq_some_iff.mp hstep
    refine ⟨?_, ?_⟩
    · rw [List.filterMap_append]
      exact Closing.inv_step hinv.closing hclosing
    · rw [outcomes_concat, ← hinv.emissions]
      exact (List.append_nil _).symm
  | emits i e =>
    obtain ⟨queue, hqueue, rfl⟩ := Option.map_eq_some_iff.mp hstep
    refine ⟨?_, ?_⟩
    · rw [List.filterMap_append]
      exact (List.append_nil (es.filterMap Event.toClosing)).symm ▸ hinv.closing
    · show s.emissions ++ _ = _
      rw [outcomes_concat, ← hinv.emissions, hinv.emit_eq hqueue, Event.emission, hqueue]
      rfl

/-- **The handle is closed once, and nothing is logged after that**, whatever the number of calls,
and however the instances close and emit events meanwhile. -/
theorem handle_account (hrun : (machine h queueNames).run start es = some s) :
    HandleAccount h queueNames es s := by
  have hinv : Inv h queueNames ([] ++ es) s := Machine.run_history (G := fun _ _ => True)
    (fun _ _ _ _ h _ hstep => inv_step h hstep) ⟨Closing.inv_start, rfl⟩
    Machine.stepsMeet_true hrun
  exact ⟨hinv.closing.toCloseAccount, hinv.emissions⟩

/-- A job of the first queue is completed, and the instances are closed, the second of which is lost
before it has ended. -/
def lostWhileClosing : List Event :=
  [.emits 0 (.completed (js "7")), .closing .close, .emits 0 (.stalled (js "8")),
    .emits 1 (.error (.object 0)), .closing (.settles 0 (.ok ())),
    .closing .close, .closing (.settles 1 (.ok ()))]

theorem handle_account_lostWhileClosing : ∃ s,
    (machine (fun _ => connectionClosed) [js "email", js "reports"]).run start lostWhileClosing =
        some s ∧
      s.closing.actions = [.removeAllListeners 0, .close 0, .removeAllListeners 1, .close 1] ∧
      s.emissions = [(0, .logged [⟨.debug, js "email", some (js "7"), none, none,
        js "queue event: completed"⟩]), (0, .logged []), (1, .unheard (.object 0))] ∧
      HandleAccount (fun _ => connectionClosed) [js "email", js "reports"] lostWhileClosing s := by
  obtain ⟨s, hrun, hactions, hemissions⟩ : ∃ s,
      (machine (fun _ => connectionClosed) [js "email", js "reports"]).run start lostWhileClosing =
          some s ∧
        s.closing.actions = [.removeAllListeners 0, .close 0, .removeAllListeners 1, .close 1] ∧
        s.emissions = [(0, .logged [⟨.debug, js "email", some (js "7"), none, none,
          js "queue event: completed"⟩]), (0, .logged []), (1, .unheard (.object 0))] :=
    ⟨_, rfl, rfl, rfl⟩
  exact ⟨s, hrun, hactions, hemissions, handle_account hrun⟩

end QueueEventsHandle

/-! ## The connection -/

namespace RedisConnection

inductive Action
  | quit
  | logsQuitFailed (err : SerializedError)
  | disconnect

/-- `close` of the connection: the client is disconnected when it has failed to quit. The projection
of what it has failed with may throw. -/
def closing (h : Heap ErrorClass) : Closing Unit (Answer Unit) Action JsValue where
  parts := [()]
  begins _ := [.quit]
  ends _
    | .ok () => ([], .ok ())
    | .error error =>
      match serializeError h error 0 with
      | .ok err => ([.logsQuitFailed err, .disconnect], .ok ())
      | .error thrown => ([], .error thrown)

/-- What holds of a connection after a run. The client quits once, at the first call, and the
promise is open as long as it has not; the client is disconnected when it has failed to quit with an
error that is projected, and only then. -/
structure QuitAccount (h : Heap ErrorClass) (es : List (ClosingEvent Unit (Answer Unit)))
    (s : ClosingState Unit Action JsValue) : Prop where
  uncalled : s.calls = 0 → s.actions = [] ∧ s.result = none
  hangs : s.calls ≠ 0 → es.filterMap ClosingEvent.settled = [] →
    s.actions = [.quit] ∧ s.result = none
  settled : ∀ answer, ((), answer) ∈ es.filterMap ClosingEvent.settled →
    s.actions = .quit :: ((closing h).ends () answer).1 ∧
      s.result = some ((closing h).ends () answer).2
  disconnects : .disconnect ∈ s.actions ↔ ∃ error err,
    ((), .error error) ∈ es.filterMap ClosingEvent.settled ∧ serializeError h error 0 = .ok err

variable {h : Heap ErrorClass} {es : List (ClosingEvent Unit (Answer Unit))}
  {s : ClosingState Unit Action JsValue} {answer : Answer Unit}

/-- The promise comes to what has come of the client. -/
theorem result_singleton :
    (closing h).result [((), answer)] = some ((closing h).ends () answer).2 := by
  unfold Closing.result
  cases hends : ((closing h).ends () answer).2 with
  | ok u =>
    rw [List.findSome?_cons, Closing.failure_of_ok hends, List.findSome?_nil]
    exact if_pos fun i _ => List.mem_cons_self ..
  | error e =>
    rw [List.findSome?_cons, Closing.failure_of_error hends]

/-- The client is disconnected for the errors that are projected. -/
theorem disconnect_mem_ends : .disconnect ∈ ((closing h).ends () answer).1 ↔
    ∃ error err, answer = .error error ∧ serializeError h error 0 = .ok err := by
  cases answer with
  | ok u => simp [closing]
  | error error => cases hserialized : serializeError h error 0 <;> simp [closing, hserialized]

/-- A client has settled at most once. -/
theorem settled_eq (haccount : Closing.CloseAccount (closing h) es s) :
    es.filterMap ClosingEvent.settled = [] ∨
      ∃ answer, es.filterMap ClosingEvent.settled = [((), answer)] := by
  have honce := haccount.once
  cases hsettled : es.filterMap ClosingEvent.settled with
  | nil => exact .inl rfl
  | cons p rest =>
    obtain ⟨_, answer⟩ := p
    rw [hsettled, List.map_cons, List.nodup_cons] at honce
    cases rest with
    | nil => exact .inr ⟨answer, rfl⟩
    | cons q rest => exact absurd (List.mem_cons_self ..) honce.1

/-- **The client is disconnected only when it has failed to quit**, in every run with any number of
calls: a client that hangs is left as it is, and keeps the promise open. -/
theorem quit_account (hrun : (closing h).machine.run Closing.start es = some s) :
    QuitAccount h es s := by
  have haccount := Closing.close_account hrun
  have hactions : s.calls ≠ 0 → s.actions = .quit ::
      (es.filterMap ClosingEvent.settled).flatMap fun p => ((closing h).ends p.1 p.2).1 :=
    haccount.actions
  have hsettles : s.calls = 0 → es.filterMap ClosingEvent.settled = [] :=
    fun hcalls => (haccount.uncalled hcalls).1
  refine ⟨fun hcalls => (haccount.uncalled hcalls).2, fun hcalls hnone => ?_, fun answer hmem => ?_,
    ?_⟩
  · refine ⟨by rw [hactions hcalls, hnone, List.flatMap_nil], ?_⟩
    rw [haccount.result hcalls, hnone]
    simp [Closing.result, closing]
  · have hcalls : s.calls ≠ 0 := by
      intro hzero
      rw [hsettles hzero] at hmem
      cases hmem
    obtain hnone | ⟨found, hfound⟩ := settled_eq haccount
    · rw [hnone] at hmem
      cases hmem
    · rw [hfound, List.mem_singleton] at hmem
      obtain rfl := (Prod.mk.inj hmem).2
      rw [hactions hcalls, haccount.result hcalls, hfound, result_singleton,
        List.flatMap_singleton]
      exact ⟨rfl, rfl⟩
  · by_cases hcalls : s.calls = 0
    · rw [(haccount.uncalled hcalls).2.1, hsettles hcalls]
      simp
    · rw [hactions hcalls]
      obtain hnone | ⟨answer, hfound⟩ := settled_eq haccount
      · simp [hnone]
      · rw [hfound, List.flatMap_singleton, List.mem_cons, or_iff_right (by simp),
          disconnect_mem_ends]
        simp [eq_comm]

/-- Two calls of `close` on a client whose connection is gone. -/
def quitFails : List (ClosingEvent Unit (Answer Unit)) :=
  [.close, .close, .settles () (.error (.object 0))]

theorem quit_account_quitFails : ∃ s,
    (closing fun _ => connectionClosed).machine.run Closing.start quitFails = some s ∧
      s.actions = [.quit, .logsQuitFailed
        (.mk (js "Error") (some (js "Connection is closed.")) none none none), .disconnect] ∧
      s.result = some (.ok ()) ∧ QuitAccount (fun _ => connectionClosed) quitFails s := by
  obtain ⟨s, hrun, hactions, hresult⟩ : ∃ s,
      (closing fun _ => connectionClosed).machine.run Closing.start quitFails = some s ∧
        s.actions = [.quit, .logsQuitFailed
          (.mk (js "Error") (some (js "Connection is closed.")) none none none), .disconnect] ∧
        s.result = some (.ok ()) := ⟨_, rfl, rfl, rfl⟩
  exact ⟨s, hrun, hactions, hresult, quit_account hrun⟩

end RedisConnection

end QueueWorkerKit
