import QueueWorkerKit.Library.EventEmitter
import QueueWorkerKit.Library.Machine
import QueueWorkerKit.Library.Text

/-!
# Redis connections

The client of `createRedisConnection` in `queue/connection.ts` with the listeners that log its
events, and any number of calls of `waitUntilRedisReady` on it. The driver changes the status of the
client and emits its events at any moment, a timer that is armed may fire next, and listeners of
other code come and go. Logging does not throw.

## Main definitions

* `ClientEvent`, `ClientListener`: the events of the client, and who listens
* `Client`, `Client.waitUntilRedisReady`: the client with the waits on it, and a new wait
* `Client.machine`: the driver, the waits and their timers in any order
* `ReadyRace`: what comes first for a wait
* `ReadyAccount`: what holds of the client after a run

## Main results

* `step_cases`: what a step does
* `ready_account`: **a wait is answered by what comes first**, and leaves nothing behind
-/

namespace QueueWorkerKit

open Ecma EventDriven

/-- The events of the client that the connection logs. -/
inductive ClientEvent
  | error
  | ready
  | reconnecting
  | close
  | ended
  deriving DecidableEq

/-- A listener: the one that logs, that of a wait, or one of other code. -/
inductive ClientListener (ι κ : Type*)
  | log
  | onReady (i : ι)
  | other (k : κ) (once : Bool)
  deriving DecidableEq

namespace ClientListener

variable {ι κ : Type*}

/-- The listener was added for one event. -/
def once : ClientListener ι κ → Bool
  | .log => false
  | .onReady _ => true
  | .other _ once => once

/-- The listener is not that of a wait. -/
def bystands : ClientListener ι κ → Bool
  | .onReady _ => false
  | _ => true

end ClientListener

/-- A call that waits, or has ended: whether its timer is armed, whether it is settled, and the
calls of `resolve`. -/
structure ReadyWait where
  timer : Bool
  settled : Bool
  resolved : List Bool

/-- The waits, and the events that were logged. -/
structure ClientCalls (ι : Type*) where
  waits : ι → Option ReadyWait
  logged : List ClientEvent

/-- The client: its status, its listeners, and the calls on it. -/
structure Client (ι κ : Type*) where
  status : JsString
  emitter : EventEmitter ClientEvent (ClientListener ι κ)
  calls : ClientCalls ι

/-- A wait is called, its timer fires, the driver changes the status or emits an event, or other
code adds or removes a listener. -/
inductive ConnectionEvent (ι κ : Type*)
  | wait (i : ι)
  | timer (i : ι)
  | status (status : JsString)
  | emits (name : ClientEvent)
  | listen (name : ClientEvent) (k : κ) (once : Bool)
  | unlisten (name : ClientEvent) (k : κ) (once : Bool)

namespace Client

variable {ι κ : Type*} [DecidableEq ι] [DecidableEq κ]

/-- The events that the connection logs. -/
def logs : List (ClientEvent × ClientListener ι κ) :=
  [(.error, .log), (.ready, .log), (.reconnecting, .log), (.close, .log), (.ended, .log)]

/-- The client of a new connection. -/
def createRedisConnection (status : JsString) : Client ι κ :=
  ⟨status, EventEmitter.start.onAll logs, fun _ => none, []⟩

/-- `finish` of a wait: the first call settles it. -/
def finish (p : EventEmitter ClientEvent (ClientListener ι κ) × ClientCalls ι) (i : ι)
    (ready : Bool) : EventEmitter ClientEvent (ClientListener ι κ) × ClientCalls ι :=
  match p.2.waits i with
  | some w =>
    if w.settled then p
    else (p.1.off .ready (.onReady i), { p.2 with
      waits := Function.update p.2.waits i (some ⟨false, true, w.resolved ++ [ready]⟩) })
  | none => p

/-- What a listener does that is called for an event. -/
def call (name : ClientEvent) (p : EventEmitter ClientEvent (ClientListener ι κ) × ClientCalls ι) :
    ClientListener ι κ → EventEmitter ClientEvent (ClientListener ι κ) × ClientCalls ι
  | .log => (p.1, { p.2 with logged := p.2.logged ++ [name] })
  | .onReady i => finish p i true
  | .other _ _ => p

/-- A call of `waitUntilRedisReady`. -/
def waitUntilRedisReady (s : Client ι κ) (i : ι) : Client ι κ :=
  if s.status = js "ready" then
    { s with calls := { s.calls with
      waits := Function.update s.calls.waits i (some ⟨false, true, [true]⟩) } }
  else
    { s with
      emitter := s.emitter.on .ready (.onReady i)
      calls := { s.calls with
        waits := Function.update s.calls.waits i (some ⟨true, false, []⟩) } }

/-- The timer of a wait fires, and is no longer armed when its callback runs. -/
def fire (s : Client ι κ) (i : ι) (w : ReadyWait) : Client ι κ :=
  let disarmed := { s.calls with
    waits := Function.update s.calls.waits i (some { w with timer := false }) }
  let finished := finish (s.emitter, disarmed) i false
  { s with emitter := finished.1, calls := finished.2 }

/-- An event of the driver. -/
def emits (s : Client ι κ) (name : ClientEvent) : Client ι κ :=
  let emitted := s.emitter.emit ClientListener.once (call name) name s.calls
  { s with emitter := emitted.1, calls := emitted.2 }

/-- The driver, the waits and their timers. -/
def machine : Machine (Client ι κ) (ConnectionEvent ι κ) where
  step s
    | .wait i =>
      match s.calls.waits i with
      | none => some (s.waitUntilRedisReady i)
      | some _ => none
    | .timer i =>
      match s.calls.waits i with
      | some w => if w.timer then some (s.fire i w) else none
      | none => none
    | .status status => some { s with status }
    | .emits name => some (s.emits name)
    | .listen name k once => some { s with emitter := s.emitter.on name (.other k once) }
    | .unlisten name k once => some { s with emitter := s.emitter.off name (.other k once) }

end Client

/-! ## What a wait is for -/

inductive ReadyStage
  | uncalled
  | waiting
  | answered (ready : Bool)

/-- The race of a wait: the status of the client, and where the wait stands. -/
structure ReadyRace where
  status : JsString
  stage : ReadyStage

/-- An event `ready` answers a wait. -/
def ReadyStage.ready : ReadyStage → ReadyStage
  | .waiting => .answered true
  | stage => stage

/-- What a wait has to have come to. -/
def ReadyStage.expected : ReadyStage → Option ReadyWait
  | .uncalled => none
  | .waiting => some ⟨true, false, []⟩
  | .answered ready => some ⟨false, true, [ready]⟩

/-- The listeners that a wait has to have. -/
def ReadyStage.listeners : ReadyStage → ℕ
  | .waiting => 1
  | _ => 0

namespace ReadyRace

variable {ι κ : Type*} [DecidableEq ι]

/-- What an event does in the race of a wait: whatever comes first ends it. -/
def next (i : ι) (R : ReadyRace) : ConnectionEvent ι κ → ReadyRace
  | .wait j =>
    if j = i then { R with stage := if R.status = js "ready" then .answered true else .waiting }
    else R
  | .timer j => if j = i then { R with stage := .answered false } else R
  | .status status => { R with status }
  | .emits name => if name = .ready then { R with stage := R.stage.ready } else R
  | _ => R

/-- The race of a wait after some events. -/
def after (status : JsString) (i : ι) (es : List (ConnectionEvent ι κ)) : ReadyRace :=
  es.foldl (next i) ⟨status, .uncalled⟩

variable {R : ReadyRace} {status : JsString} {i j : ι} {e : ConnectionEvent ι κ}
  {es : List (ConnectionEvent ι κ)}

theorem after_concat : after status i (es ++ [e]) = (after status i es).next i e := by
  rw [after, List.foldl_append]
  rfl

theorem next_wait_self : R.next i (.wait i : ConnectionEvent ι κ) =
    { R with stage := if R.status = js "ready" then .answered true else .waiting } := if_pos rfl

theorem next_wait_of_ne (h : j ≠ i) : R.next i (.wait j : ConnectionEvent ι κ) = R := if_neg h

theorem next_timer_self :
    R.next i (.timer i : ConnectionEvent ι κ) = { R with stage := .answered false } := if_pos rfl

theorem next_timer_of_ne (h : j ≠ i) : R.next i (.timer j : ConnectionEvent ι κ) = R := if_neg h

theorem next_ready :
    R.next i (.emits .ready : ConnectionEvent ι κ) = { R with stage := R.stage.ready } := rfl

theorem next_emits_of_ne {name : ClientEvent} (h : name ≠ .ready) :
    R.next i (.emits name : ConnectionEvent ι κ) = R := if_neg h

end ReadyRace

theorem ReadyStage.eq_uncalled {stage : ReadyStage} (h : stage.expected = none) :
    stage = .uncalled := by
  cases stage with
  | uncalled => rfl
  | _ => cases h

theorem ReadyStage.eq_waiting {stage : ReadyStage} {w : ReadyWait} (h : stage.expected = some w)
    (harmed : w.timer = true) : stage = .waiting ∧ w = ⟨true, false, []⟩ := by
  cases stage with
  | uncalled => cases h
  | waiting => exact ⟨rfl, (Option.some.inj h).symm⟩
  | answered ready =>
    obtain rfl := Option.some.inj h
    cases harmed

/-- The event that the driver has emitted. -/
def ConnectionEvent.emitted {ι κ : Type*} : ConnectionEvent ι κ → Option ClientEvent
  | .emits name => some name
  | _ => none

/-- An event that is about no wait. -/
def ConnectionEvent.bystands {ι κ : Type*} : ConnectionEvent ι κ → Bool
  | .wait _ => false
  | .timer _ => false
  | _ => true

namespace Client

variable {ι κ : Type*} [DecidableEq ι] [DecidableEq κ]

/-- A client has the listeners of another one but those of the waits. -/
def Shows (s u : Client ι κ) : Prop :=
  ∀ name, u.emitter.listeners name = (s.emitter.listeners name).filter ClientListener.bystands

/-- What holds of the client after a run. A wait has resolved to what has come first, once, and
waits with its timer armed and one listener until then, when nothing of it is left. Every event of
the driver was logged, and the listeners of other code are what they would be without any wait. -/
structure ReadyAccount (status : JsString) (es : List (ConnectionEvent ι κ)) (s : Client ι κ) :
    Prop where
  answers : ∀ i, s.calls.waits i = (ReadyRace.after status i es).stage.expected
  listening : ∀ i name, (s.emitter.listeners name).count (.onReady i) =
    if name = .ready then (ReadyRace.after status i es).stage.listeners else 0
  logged : s.calls.logged = es.filterMap ConnectionEvent.emitted
  others : ∃ u, machine.run (createRedisConnection status) (es.filter ConnectionEvent.bystands) =
    some u ∧ Shows s u

variable {s t : Client ι κ} {i j : ι} {e : ConnectionEvent ι κ} {es : List (ConnectionEvent ι κ)}
  {name name' : ClientEvent} {w : ReadyWait} {status : JsString} {ready : Bool}
  {x : ClientCalls ι} {l : List (ClientListener ι κ)}
  {p : EventEmitter ClientEvent (ClientListener ι κ) × ClientCalls ι}

/-! ## What an event calls -/

/-- What `finish` makes of a wait. -/
def finished (ready : Bool) (w : ReadyWait) : ReadyWait :=
  if w.settled then w else ⟨false, true, w.resolved ++ [ready]⟩

theorem finished_finished (w : ReadyWait) : finished true (finished true w) = finished true w := by
  unfold finished
  cases h : w.settled <;> simp [h]

/-- What a listener does to the calls. -/
def notified (name : ClientEvent) (x : ClientCalls ι) : ClientListener ι κ → ClientCalls ι
  | .log => { x with logged := x.logged ++ [name] }
  | .onReady i => { x with
      waits := Function.update x.waits i ((x.waits i).map (finished true)) }
  | .other _ _ => x

theorem finish_snd : (finish p i ready).2 =
    { p.2 with waits := Function.update p.2.waits i ((p.2.waits i).map (finished ready)) } := by
  unfold finish finished
  cases hw : p.2.waits i with
  | none =>
    simp only [Option.map_none]
    rw [← hw, Function.update_eq_self]
  | some w =>
    cases hsettled : w.settled
    · simp [hsettled]
    · simp only [hsettled, if_true, Option.map_some]
      rw [← hw, Function.update_eq_self]

theorem trims_finish :
    EventEmitter.Trims ClientListener.once .ready p.1 (finish p i ready).1 := by
  unfold finish
  cases p.2.waits i with
  | none => exact .refl _
  | some w =>
    dsimp only
    split_ifs
    · exact .refl _
    · exact EventEmitter.trims_off rfl

theorem call_snd (c : ClientListener ι κ) : (call name p c).2 = notified name p.2 c := by
  cases c with
  | onReady i => exact finish_snd
  | _ => rfl

/-- The wait of a listener that is called is settled. -/
theorem waits_foldl_notified : (l.foldl (notified name) x).waits i =
    if .onReady i ∈ l then (x.waits i).map (finished true) else x.waits i := by
  -- Induction on the listeners.
  induction l generalizing x with
  | nil => rfl
  | cons c l ih =>
    rw [List.foldl_cons, ih]
    have hwaits : (notified name x c).waits i =
        if c = .onReady i then (x.waits i).map (finished true) else x.waits i := by
      cases c with
      | onReady j =>
        show Function.update x.waits j _ i = _
        rw [Function.update_apply]
        by_cases hji : i = j
        · rw [if_pos hji, if_pos (by rw [hji]), hji]
        · rw [if_neg hji, if_neg (by simpa using Ne.symm hji)]
      | log => rfl
      | other k once => rfl
    rw [hwaits]
    by_cases hc : c = .onReady i
    · subst hc
      simp only [if_true, List.mem_cons, true_or, Option.map_map]
      split_ifs
      · congr 1
        exact funext finished_finished
      · rfl
    · simp [hc, Ne.symm hc]

/-- The listener that logs writes a line each time it is called. -/
theorem logged_foldl_notified : (l.foldl (notified name) x).logged =
    x.logged ++ List.replicate (l.count .log) name := by
  -- Induction on the listeners.
  induction l generalizing x with
  | nil => simp
  | cons c l ih =>
    rw [List.foldl_cons, ih]
    cases c with
    | log =>
      show (x.logged ++ [name]) ++ _ = _
      rw [List.count_cons_self, List.replicate_succ, List.append_assoc, List.singleton_append]
    | _ => rw [List.count_cons_of_ne (by simp)]; rfl

/-! ## What a step does -/

/-- What each event does where it can happen. -/
inductive Step (s : Client ι κ) : ConnectionEvent ι κ → Client ι κ → Prop
  | finds (i : ι) (fresh : s.calls.waits i = none) (ready : s.status = js "ready") :
      Step s (.wait i) ⟨s.status, s.emitter, ⟨Function.update s.calls.waits i
        (some ⟨false, true, [true]⟩), s.calls.logged⟩⟩
  | waits (i : ι) (fresh : s.calls.waits i = none) (unready : s.status ≠ js "ready") :
      Step s (.wait i) ⟨s.status, s.emitter.on .ready (.onReady i),
        ⟨Function.update s.calls.waits i (some ⟨true, false, []⟩), s.calls.logged⟩⟩
  | fires (i : ι) (w : ReadyWait) (wait : s.calls.waits i = some w) (armed : w.timer = true) :
      Step s (.timer i) (s.fire i w)
  | status (status : JsString) : Step s (.status status) ⟨status, s.emitter, s.calls⟩
  | emits (name : ClientEvent) : Step s (.emits name) (s.emits name)
  | listen (name : ClientEvent) (k : κ) (once : Bool) :
      Step s (.listen name k once) ⟨s.status, s.emitter.on name (.other k once), s.calls⟩
  | unlisten (name : ClientEvent) (k : κ) (once : Bool) :
      Step s (.unlisten name k once) ⟨s.status, s.emitter.off name (.other k once), s.calls⟩

/-- **What a step does**: one case for each branch of the wait, of its callbacks and of the
driver. -/
theorem step_cases (hstep : machine.step s e = some t) : Step s e t := by
  cases e with
  | wait i =>
    cases hfresh : s.calls.waits i with
    | some w => simp [machine, hfresh] at hstep
    | none =>
      obtain rfl : s.waitUntilRedisReady i = t := by simpa [machine, hfresh] using hstep
      unfold waitUntilRedisReady
      split_ifs with hready
      · exact .finds i hfresh hready
      · exact .waits i hfresh hready
  | timer i =>
    cases hwait : s.calls.waits i with
    | none => simp [machine, hwait] at hstep
    | some w =>
      obtain ⟨harmed, rfl⟩ : w.timer = true ∧ s.fire i w = t := by
        simpa [machine, hwait] using hstep
      exact .fires i w hwait harmed
  | status status =>
    obtain rfl := Option.some.inj hstep
    exact .status status
  | emits name =>
    obtain rfl := Option.some.inj hstep
    exact .emits name
  | listen name k once =>
    obtain rfl := Option.some.inj hstep
    exact .listen name k once
  | unlisten name k once =>
    obtain rfl := Option.some.inj hstep
    exact .unlisten name k once

theorem calls_emits : (s.emits name).calls =
    (s.emitter.listeners name).foldl (notified name) s.calls :=
  EventEmitter.emit_snd fun _ _ => call_snd _

/-- An event leaves the listeners that last, if the waits listen to `ready` alone. -/
theorem listeners_emits (h : ∀ i, name ≠ .ready → .onReady i ∉ s.emitter.listeners name) :
    (s.emits name).emitter.listeners name' =
      if name' = name then (s.emitter.listeners name).filter fun c => !c.once
      else s.emitter.listeners name' := by
  refine EventEmitter.listeners_emit fun c hc p => ?_
  cases c with
  | log => exact .refl _
  | other k once => exact .refl _
  | onReady i =>
    -- a wait listens to `ready`
    obtain rfl : name = .ready := Classical.byContradiction fun hne => h i hne hc
    exact trims_finish

/-- The timer of a wait that is not settled takes its listener out and answers it. -/
theorem fire_eq (hw : w.settled = false) : s.fire i w =
    ⟨s.status, s.emitter.off .ready (.onReady i),
      ⟨Function.update s.calls.waits i (some ⟨false, true, w.resolved ++ [false]⟩),
        s.calls.logged⟩⟩ := by
  simp [fire, finish, hw]

/-! ## The invariant -/

/-- The account, with the status that the races know and the one listener that logs each event. -/
structure Inv (status : JsString) (es : List (ConnectionEvent ι κ)) (s : Client ι κ) : Prop
    extends ReadyAccount status es s where
  status : ∀ i : ι, s.status = (ReadyRace.after status i es).status
  logging : ∀ name, (s.emitter.listeners name).count .log = 1

theorem Inv.notMem (h : Inv status es s) (i : ι) (hname : name ≠ .ready) :
    .onReady i ∉ s.emitter.listeners name := by
  have hzero := h.listening i name
  rw [if_neg hname] at hzero
  exact List.count_eq_zero.mp hzero

theorem Inv.mem_iff (h : Inv status es s) : .onReady i ∈ s.emitter.listeners .ready ↔
    (ReadyRace.after status i es).stage = .waiting := by
  have hcount := h.listening i .ready
  rw [if_pos rfl] at hcount
  rw [← List.count_pos_iff, hcount]
  cases (ReadyRace.after status i es).stage <;> simp [ReadyStage.listeners]

theorem Inv.waiting (h : Inv status es s) (hwait : s.calls.waits i = some w)
    (harmed : w.timer = true) :
    (ReadyRace.after status i es).stage = .waiting ∧ w = ⟨true, false, []⟩ :=
  ReadyStage.eq_waiting ((h.answers i).symm.trans hwait) harmed

/-- **What a step answers.** -/
theorem answers_step (h : Inv status es s) (hstep : machine.step s e = some t) (i : ι) :
    t.calls.waits i = ((ReadyRace.after status i es).next i e).stage.expected := by
  have hanswers := h.answers i
  cases step_cases hstep with
  | finds j fresh hready =>
    show Function.update s.calls.waits j _ i = _
    by_cases hj : j = i
    · subst hj
      rw [Function.update_self, ReadyRace.next_wait_self, if_pos ((h.status j).symm.trans hready)]
      rfl
    · rw [Function.update_of_ne (Ne.symm hj), ReadyRace.next_wait_of_ne hj, hanswers]
  | waits j fresh unready =>
    show Function.update s.calls.waits j _ i = _
    by_cases hj : j = i
    · subst hj
      rw [Function.update_self, ReadyRace.next_wait_self,
        if_neg fun hready => unready ((h.status j).trans hready)]
      rfl
    · rw [Function.update_of_ne (Ne.symm hj), ReadyRace.next_wait_of_ne hj, hanswers]
  | fires j w wait armed =>
    obtain ⟨-, rfl⟩ := h.waiting wait armed
    rw [fire_eq rfl]
    show Function.update s.calls.waits j _ i = _
    by_cases hj : j = i
    · subst hj
      rw [Function.update_self, ReadyRace.next_timer_self]
      rfl
    · rw [Function.update_of_ne (Ne.symm hj), ReadyRace.next_timer_of_ne hj, hanswers]
  | emits name =>
    rw [calls_emits, waits_foldl_notified]
    by_cases hname : name = .ready
    · subst hname
      rw [ReadyRace.next_ready, hanswers]
      have hmem := h.mem_iff (i := i)
      -- only a wait that waits has a listener to be called
      cases hstage : (ReadyRace.after status i es).stage with
      | waiting =>
        rw [if_pos (hmem.mpr hstage)]
        rfl
      | _ =>
        rw [if_neg fun hin => absurd ((hmem.mp hin).symm.trans hstage) (by simp)]
        rfl
    · rw [if_neg (h.notMem i hname), ReadyRace.next_emits_of_ne hname, hanswers]
  | status status => exact hanswers
  | listen name k once => exact hanswers
  | unlisten name k once => exact hanswers

/-- **Who listens after a step.** -/
theorem listening_step (h : Inv status es s) (hstep : machine.step s e = some t) (i : ι)
    (name : ClientEvent) : (t.emitter.listeners name).count (.onReady i) =
      if name = .ready then ((ReadyRace.after status i es).next i e).stage.listeners else 0 := by
  have hlistening := h.listening i name
  have hanswers := h.answers i
  cases step_cases hstep with
  | finds j fresh hready =>
    by_cases hj : j = i
    · subst hj
      have hstage := ReadyStage.eq_uncalled (hanswers.symm.trans fresh)
      rw [hlistening, hstage, ReadyRace.next_wait_self, if_pos ((h.status j).symm.trans hready)]
      rfl
    · rw [hlistening, ReadyRace.next_wait_of_ne hj]
  | waits j fresh unready =>
    rw [EventEmitter.count_on, hlistening]
    by_cases hj : j = i
    · subst hj
      have hstage := ReadyStage.eq_uncalled (hanswers.symm.trans fresh)
      rw [hstage, ReadyRace.next_wait_self,
        if_neg fun hready => unready ((h.status j).trans hready)]
      by_cases hname : name = .ready
      · simp [hname, ReadyStage.listeners]
      · simp [hname, Ne.symm hname]
    · rw [ReadyRace.next_wait_of_ne hj]
      simp [hj]
  | fires j w wait armed =>
    obtain ⟨hstage, rfl⟩ := h.waiting wait armed
    rw [fire_eq rfl]
    show ((s.emitter.off .ready (.onReady j)).listeners name).count _ = _
    rw [EventEmitter.count_off, hlistening]
    by_cases hj : j = i
    · subst hj
      rw [hstage, ReadyRace.next_timer_self]
      by_cases hname : name = .ready
      · simp [hname, ReadyStage.listeners]
      · simp [hname]
    · rw [ReadyRace.next_timer_of_ne hj]
      simp [hj]
  | emits event =>
    rw [listeners_emits fun i hne => h.notMem i hne]
    by_cases hname : name = event
    · subst hname
      have hnone : ((s.emitter.listeners name).filter fun c => !c.once).count (.onReady i) = 0 :=
        List.count_eq_zero.mpr (by simp [ClientListener.once])
      rw [if_pos rfl, hnone]
      by_cases hready : name = .ready
      · subst hready
        rw [if_pos rfl, ReadyRace.next_ready]
        cases (ReadyRace.after status i es).stage <;> rfl
      · rw [if_neg hready]
    · rw [if_neg hname, hlistening]
      by_cases hevent : event = .ready
      · rw [if_neg (hevent ▸ hname), if_neg (hevent ▸ hname)]
      · rw [ReadyRace.next_emits_of_ne hevent]
  | status status => exact hlistening
  | listen event k once =>
    rw [EventEmitter.count_on, if_neg (by simp), Nat.add_zero, hlistening]
    rfl
  | unlisten event k once =>
    rw [EventEmitter.count_off, if_neg (by simp), Nat.sub_zero, hlistening]
    rfl

/-- Each event keeps the one listener that logs it. -/
theorem logging_step (h : Inv status es s) (hstep : machine.step s e = some t)
    (name : ClientEvent) : (t.emitter.listeners name).count .log = 1 := by
  have hlogging := h.logging name
  cases step_cases hstep with
  | finds j fresh ready => exact hlogging
  | waits j fresh unready =>
    rw [EventEmitter.count_on, if_neg (by simp), Nat.add_zero, hlogging]
  | fires j w wait armed =>
    obtain ⟨-, rfl⟩ := h.waiting wait armed
    rw [fire_eq rfl]
    show ((s.emitter.off .ready (.onReady j)).listeners name).count _ = _
    rw [EventEmitter.count_off, if_neg (by simp), Nat.sub_zero, hlogging]
  | emits event =>
    rw [listeners_emits fun i hne => h.notMem i hne]
    split_ifs with hname
    · rw [List.count_filter (by rfl), ← hname, hlogging]
    · exact hlogging
  | status status => exact hlogging
  | listen event k once =>
    rw [EventEmitter.count_on, if_neg (by simp), Nat.add_zero, hlogging]
  | unlisten event k once =>
    rw [EventEmitter.count_off, if_neg (by simp), Nat.sub_zero, hlogging]

/-- The driver's events are logged. -/
theorem logged_step (h : Inv status es s) (hstep : machine.step s e = some t) :
    t.calls.logged = s.calls.logged ++ e.emitted.toList := by
  cases step_cases hstep with
  | emits name =>
    rw [calls_emits, logged_foldl_notified, h.logging name]
    rfl
  | fires j w wait armed =>
    obtain ⟨-, rfl⟩ := h.waiting wait armed
    rw [fire_eq rfl]
    exact (List.append_nil _).symm
  | _ => exact (List.append_nil _).symm

/-! ## Other code -/

variable {u : Client ι κ}

/-- What is about a wait happens to its listener alone. -/
theorem shows_of_wait (hinv : Inv status es s) (h : Shows s u)
    (hstep : machine.step s e = some t) (he : e.bystands = false) : Shows t u := by
  intro name
  rw [h name]
  cases step_cases hstep with
  | finds j fresh ready => rfl
  | waits j fresh unready =>
    rw [EventEmitter.listeners_on, List.filter_append]
    split_ifs <;> exact (List.append_nil _).symm
  | fires j w wait armed =>
    obtain ⟨-, rfl⟩ := hinv.waiting wait armed
    rw [fire_eq rfl]
    show _ = ((s.emitter.off .ready (.onReady j)).listeners name).filter _
    rw [EventEmitter.listeners_off]
    split_ifs with hname
    · have hnot : .onReady j ∉ (s.emitter.listeners .ready).filter ClientListener.bystands := by
        simp [ClientListener.bystands]
      rw [EventEmitter.filter_eraseLast, EventEmitter.eraseLast_of_not_mem hnot, hname]
    · rfl
  | _ => cases he

/-- What is about no wait happens without waits as well. -/
theorem shows_of_other (hinv : Inv status es s) (h : Shows s u)
    (hstep : machine.step s e = some t) (he : e.bystands = true) :
    ∃ v, machine.step u e = some v ∧ Shows t v := by
  cases step_cases hstep with
  | status status => exact ⟨_, rfl, h⟩
  | emits event =>
    refine ⟨_, rfl, fun name => ?_⟩
    have hnone : ∀ i, event ≠ .ready → .onReady i ∉ u.emitter.listeners event := by
      intro i _
      simp [h event, ClientListener.bystands]
    rw [listeners_emits hnone, listeners_emits fun i hne => hinv.notMem i hne]
    split_ifs
    · rw [h event, List.filter_filter, List.filter_filter]
      exact List.filter_congr fun c _ => Bool.and_comm ..
    · exact h name
  | listen event k once =>
    refine ⟨_, rfl, fun name => ?_⟩
    show (u.emitter.on event (.other k once)).listeners name =
      ((s.emitter.on event (.other k once)).listeners name).filter _
    rw [EventEmitter.listeners_on, EventEmitter.listeners_on, List.filter_append, h name]
    split_ifs <;> rfl
  | unlisten event k once =>
    refine ⟨_, rfl, fun name => ?_⟩
    show (u.emitter.off event (.other k once)).listeners name =
      ((s.emitter.off event (.other k once)).listeners name).filter _
    rw [EventEmitter.listeners_off, EventEmitter.listeners_off]
    split_ifs
    · rw [EventEmitter.filter_eraseLast, h event]
    · exact h name
  | _ => cases he

/-! ## Runs -/

theorem status_step (h : Inv status es s) (hstep : machine.step s e = some t) (i : ι) :
    t.status = ((ReadyRace.after status i es).next i e).status := by
  have hstatus := h.status i
  cases step_cases hstep with
  | finds j fresh ready =>
    simp only [ReadyRace.next]
    split_ifs <;> exact hstatus
  | waits j fresh unready =>
    simp only [ReadyRace.next]
    split_ifs <;> exact hstatus
  | fires j w wait armed =>
    simp only [ReadyRace.next]
    split_ifs <;> exact hstatus
  | emits name =>
    simp only [ReadyRace.next]
    split_ifs <;> exact hstatus
  | status status => rfl
  | listen name k once => exact hstatus
  | unlisten name k once => exact hstatus

/-- **What a step keeps.** -/
theorem inv_step (h : Inv status es s) (hstep : machine.step s e = some t) :
    Inv status (es ++ [e]) t where
  answers i := by rw [ReadyRace.after_concat, answers_step h hstep]
  listening i name := by rw [ReadyRace.after_concat, listening_step h hstep]
  logged := by
    rw [logged_step h hstep, h.logged, List.filterMap_append]
    cases e <;> rfl
  others := by
    obtain ⟨u, hrun, hshows⟩ := h.others
    rw [List.filter_append]
    cases he : e.bystands with
    | false =>
      rw [List.filter_cons_of_neg (by simp [he]), List.filter_nil, List.append_nil]
      exact ⟨u, hrun, shows_of_wait h hshows hstep he⟩
    | true =>
      obtain ⟨v, hv, hshows'⟩ := shows_of_other h hshows hstep he
      rw [List.filter_cons_of_pos he, List.filter_nil]
      exact ⟨v, Machine.run_append.mpr ⟨u, hrun, Machine.run_cons.mpr ⟨v, hv, rfl⟩⟩, hshows'⟩
  status i := by rw [ReadyRace.after_concat, status_step h hstep]
  logging := logging_step h hstep

omit [DecidableEq ι] [DecidableEq κ] in
theorem listeners_createRedisConnection (status : JsString) (name : ClientEvent) :
    (createRedisConnection status : Client ι κ).emitter.listeners name = [.log] := by
  cases name <;> rfl

theorem inv_start (status : JsString) :
    Inv status [] (createRedisConnection status : Client ι κ) where
  answers _ := rfl
  listening i name := by
    rw [listeners_createRedisConnection, List.count_eq_zero.mpr (by simp)]
    split_ifs <;> rfl
  logged := rfl
  others := ⟨_, rfl, fun name => by rw [listeners_createRedisConnection]; rfl⟩
  status _ := rfl
  logging name := by rw [listeners_createRedisConnection, List.count_singleton_self]

/-- **A wait is answered by what comes first**, in every run with any number of waits. It resolves
once: to true when the client is ready where it is called, or emits `ready` before the timer of the
wait fires, and to false when its timer fires first. Until then its timer is armed, so that it ends;
and once it has ended nothing of it is left. -/
theorem ready_account (status : JsString)
    (hrun : machine.run (createRedisConnection status) es = some s) : ReadyAccount status es s := by
  have hinv : Inv status ([] ++ es) s := Machine.run_history (G := fun _ _ => True)
    (fun _ _ _ _ h _ hstep => inv_step h hstep) (inv_start status) Machine.stepsMeet_true hrun
  exact hinv.toReadyAccount

/-- Two waits on a client that becomes ready after the timer of the first, and one when it is. -/
def threeWaits : List (ConnectionEvent ℕ Unit) :=
  [.wait 0, .wait 1, .timer 0, .status (js "ready"), .emits .ready, .wait 2]

theorem ready_account_threeWaits : ∃ s,
    machine.run (createRedisConnection (js "connecting")) threeWaits = some s ∧
      [0, 1, 2].map s.calls.waits =
        [some ⟨false, true, [false]⟩, some ⟨false, true, [true]⟩, some ⟨false, true, [true]⟩] ∧
      ReadyAccount (js "connecting") threeWaits s := by
  obtain ⟨s, hrun, hwaits⟩ : ∃ s,
      machine.run (createRedisConnection (js "connecting")) threeWaits = some s ∧
        [0, 1, 2].map s.calls.waits = [some ⟨false, true, [false]⟩, some ⟨false, true, [true]⟩,
          some ⟨false, true, [true]⟩] := ⟨_, rfl, rfl⟩
  exact ⟨s, hrun, hwaits, ready_account _ hrun⟩

end Client

end QueueWorkerKit
