import QueueWorkerKit.Library.EventEmitter
import QueueWorkerKit.Utils.SerializeError
import QueueWorkerKit.Utils.SleepOnce
import QueueWorkerKit.Worker.ShutdownCalls

/-!
# Signal handlers

`installSignalHandlers` of `worker/graceful-shutdown.ts`, called any number of times for any
controllers, with the functions it returns, next to listeners of other code. An event of the process
calls the listeners that it finds one after another, each of them when no run of a step is
executing. A handler reports the error it is given before it calls `shutdown`; an error that cannot
be reported ends the event, and `shutdown` is not called.

## Main definitions

* `Installation`, `Installation.names`, `Handler`: what a call of `installSignalHandlers` adds
* `State`, `Event`, `machine`: the runs of a process with its controllers
* `Registered`: which listeners the process has
* `Controlled`: what the controllers guarantee when the handlers alone call them

## Main results

* `registered_run`: **the listeners of an installation are there until it is removed**, and removing
  it leaves all others
* `controlled_run`: **a controller shuts down once, after the first handler that reaches it**
-/

namespace QueueWorkerKit

open Ecma EventDriven

namespace SignalHandlers

open Shutdown (Controller ControllerEvent Idempotent)

inductive Signal
  | sigterm
  | sigint
  deriving DecidableEq

def defaultSignals : List Signal := [.sigterm, .sigint]

/-- The events of the process that handlers are added for. -/
inductive ProcessEvent
  | signal (signal : Signal)
  | unhandledRejection
  | uncaughtException
  deriving DecidableEq

/-- A call of `installSignalHandlers`: its controller, its signals, and whether the function that it
returned was called. -/
structure Installation where
  controller : ℕ
  signals : List Signal
  removed : Bool

/-- The events that an installation adds handlers for, in order. -/
def Installation.names (installation : Installation) : List ProcessEvent :=
  installation.signals.map .signal ++ [.unhandledRejection, .uncaughtException]

/-- The handler of an installation for one of its events, or a listener of other code. -/
inductive Handler (κ : Type)
  | installed (installation i : ℕ)
  | other (k : κ)
  deriving DecidableEq

/-- The handler belongs to the installation. -/
def Handler.ownedBy {κ : Type} (n : ℕ) : Handler κ → Bool
  | installed m _ => m = n
  | other _ => false

def Handler.isOther {κ : Type} : Handler κ → Bool
  | installed _ _ => false
  | other _ => true

/-- The entries of an installation of a number: one handler for each of its events. -/
def entries (κ : Type) (n : ℕ) (names : List ProcessEvent) : List (ProcessEvent × Handler κ) :=
  names.zipIdx.map fun p => (p.1, .installed n p.2)

/-- The listeners of the process, the installations, the controllers, the listeners that the event
which is being emitted has still to call, with its name and value, and the calls of `shutdown` with
their reasons. -/
structure State (κ : Type) where
  emitter : EventEmitter ProcessEvent (Handler κ)
  installations : List Installation
  controllers : ℕ → Controller
  pending : List (Handler κ × ProcessEvent × JsValue)
  shutdowns : List (ℕ × ProcessEvent)

/-- What happens in the process: `installSignalHandlers` or a function that it has returned is
called, other code adds or removes a listener, an event is emitted, the next listener of it is
called, or a controller goes on. -/
inductive Event (κ : Type)
  | install (controller : ℕ) (signals : List Signal)
  | remove (n : ℕ)
  | on (name : ProcessEvent) (k : κ)
  | off (name : ProcessEvent) (k : κ)
  | emit (name : ProcessEvent) (value : JsValue)
  | notify
  | controller (k : ℕ) (e : ControllerEvent)

variable {κ : Type}

def start : State κ := ⟨.start, [], fun _ => .start, [], []⟩

/-- What a handler does before it calls `shutdown`. -/
def report (h : Heap ErrorClass) : ProcessEvent → JsValue → Answer Unit
  | .signal _, _ => .ok ()
  | _, value => (serializeError h value 0).map fun _ => ()

/-- A call of a function of a controller. -/
def isCall : ControllerEvent → Bool
  | .shutdown | .isShuttingDown => true
  | _ => false

/-- No run of a step of an installed controller is executing. -/
def State.Quiet (s : State κ) : Prop :=
  ∀ installation ∈ s.installations, (s.controllers installation.controller).stack = []

/-- A handler is called. -/
def State.call (h : Heap ErrorClass) (steps : ℕ → ℕ) (s : State κ) (name : ProcessEvent)
    (value : JsValue) : Handler κ → State κ
  | .other _ => s
  | .installed n _ =>
    match s.installations[n]?, report h name value with
    | none, _ => s
    -- the error is thrown on, and the event calls no other listener
    | some _, .error _ => { s with pending := [] }
    | some installation, .ok _ =>
      let k := installation.controller
      { s with
        controllers := Function.update s.controllers k ((s.controllers k).shutdown (steps k))
        shutdowns := s.shutdowns ++ [(k, name)] }

section Machine

variable [DecidableEq κ]

def State.install (s : State κ) (controller : ℕ) (signals : List Signal) : State κ :=
  let installation : Installation := ⟨controller, signals, false⟩
  { s with
    emitter := s.emitter.onAll (entries κ s.installations.length installation.names)
    installations := s.installations ++ [installation] }

/-- The function that an installation has returned. -/
def State.remove (s : State κ) (n : ℕ) (installation : Installation) : State κ :=
  { s with
    emitter := s.emitter.offAll (entries κ n installation.names)
    installations := s.installations.set n { installation with removed := true } }

instance (s : State κ) : Decidable s.Quiet :=
  decidable_of_iff (∀ installation ∈ s.installations,
    (s.controllers installation.controller).stack.isEmpty = true) (by simp [State.Quiet])

/-- The runs of a process whose controllers have some numbers of steps. -/
def machine (h : Heap ErrorClass) (steps : ℕ → ℕ) : Machine (State κ) (Event κ) where
  step s
    | .install controller signals => some (s.install controller signals)
    | .remove n => (s.installations[n]?).map (s.remove n)
    | .on name k => some { s with emitter := s.emitter.on name (.other k) }
    | .off name k => some { s with emitter := s.emitter.off name (.other k) }
    | .emit name value =>
      if s.pending = [] ∧ s.Quiet then
        some { s with pending := (s.emitter.listeners name).map fun c => (c, name, value) }
      else none
    | .notify =>
      match s.pending with
      | [] => none
      | (c, name, value) :: rest =>
        if s.Quiet then some ({ s with pending := rest }.call h steps name value c) else none
    | .controller k e =>
      if isCall e then none
      else ((Controller.machine (steps k)).step (s.controllers k) e).map fun c =>
        { s with controllers := Function.update s.controllers k c }

variable {h : Heap ErrorClass} {steps : ℕ → ℕ} {s t : State κ} {e : Event κ} {es : List (Event κ)}
  {n m k : ℕ} {name : ProcessEvent} {value : JsValue} {c : Handler κ}

/-- What each event does where it can happen, with what it finds there. -/
inductive Step (h : Heap ErrorClass) (steps : ℕ → ℕ) (s : State κ) : Event κ → State κ → Prop
  | install (controller : ℕ) (signals : List Signal) :
      Step h steps s (.install controller signals) (s.install controller signals)
  | remove (n : ℕ) (installation : Installation)
      (mem : s.installations[n]? = some installation) :
      Step h steps s (.remove n) (s.remove n installation)
  | on (name : ProcessEvent) (k : κ) :
      Step h steps s (.on name k) { s with emitter := s.emitter.on name (.other k) }
  | off (name : ProcessEvent) (k : κ) :
      Step h steps s (.off name k) { s with emitter := s.emitter.off name (.other k) }
  | emit (name : ProcessEvent) (value : JsValue) : Step h steps s (.emit name value)
      { s with pending := (s.emitter.listeners name).map fun c => (c, name, value) }
  | notify (c : Handler κ) (name : ProcessEvent) (value : JsValue)
      (rest : List (Handler κ × ProcessEvent × JsValue)) (quiet : s.Quiet) :
      Step h steps s .notify ({ s with pending := rest }.call h steps name value c)
  | controller (k : ℕ) (e : ControllerEvent) (c : Controller) (own : isCall e = false)
      (step : (Controller.machine (steps k)).step (s.controllers k) e = some c) :
      Step h steps s (.controller k e)
        { s with controllers := Function.update s.controllers k c }

/-- **What a step does**: one case for each event. -/
theorem step_cases (hstep : (machine h steps).step s e = some t) : Step h steps s e t := by
  cases e with
  | install controller signals =>
    obtain rfl := Option.some.inj hstep
    exact .install controller signals
  | remove n =>
    obtain ⟨installation, hmem, rfl⟩ := Option.map_eq_some_iff.mp hstep
    exact .remove n installation hmem
  | on name k =>
    obtain rfl := Option.some.inj hstep
    exact .on name k
  | off name k =>
    obtain rfl := Option.some.inj hstep
    exact .off name k
  | emit name value =>
    simp only [machine, Option.ite_none_right_eq_some] at hstep
    obtain ⟨-, ⟨⟩⟩ := hstep
    exact .emit name value
  | notify =>
    simp only [machine] at hstep
    split at hstep
    · cases hstep
    · next c name value rest hpending =>
      simp only [Option.ite_none_right_eq_some] at hstep
      obtain ⟨hquiet, ⟨⟩⟩ := hstep
      exact .notify c name value rest hquiet
  | controller k e =>
    simp only [machine] at hstep
    split_ifs at hstep with hcall
    obtain ⟨c, hc, rfl⟩ := Option.map_eq_some_iff.mp hstep
    exact .controller k e c (by simpa using hcall) hc

/-! ## Listeners -/

omit [DecidableEq κ] in
/-- What a listener does: nothing here, end the event, or call `shutdown`. -/
theorem call_cases (h : Heap ErrorClass) (steps : ℕ → ℕ) (s : State κ) (name : ProcessEvent)
    (value : JsValue) (c : Handler κ) : s.call h steps name value c = s ∨
    s.call h steps name value c = { s with pending := [] } ∨
    ∃ installation ∈ s.installations, s.call h steps name value c =
      { s with
        controllers := Function.update s.controllers installation.controller
          ((s.controllers installation.controller).shutdown (steps installation.controller))
        shutdowns := s.shutdowns ++ [(installation.controller, name)] } := by
  cases c with
  | other k => exact Or.inl rfl
  | installed n i =>
    simp only [State.call]
    split
    · exact Or.inl rfl
    · exact Or.inr (Or.inl rfl)
    · next installation _ hmem _ =>
      exact Or.inr (Or.inr ⟨installation, List.mem_of_getElem? hmem, rfl⟩)

omit [DecidableEq κ] in
/-- Calling a listener leaves the listeners and the installations. -/
theorem listeners_call (h : Heap ErrorClass) (steps : ℕ → ℕ) (s : State κ) (name : ProcessEvent)
    (value : JsValue) (c : Handler κ) : (s.call h steps name value c).emitter = s.emitter ∧
      (s.call h steps name value c).installations = s.installations := by
  rcases call_cases h steps s name value c with hcall | hcall | ⟨installation, -, hcall⟩ <;>
    rw [hcall] <;> exact ⟨rfl, rfl⟩

/-- The handlers of an installation for an event, while it is not removed. -/
def handlers (installations : List Installation) (n : ℕ) (name : ProcessEvent) :
    List (Handler κ) :=
  match installations[n]? with
  | none => []
  | some installation =>
    if installation.removed then []
    else ((entries κ n installation.names).filter fun p => p.1 = name).map Prod.snd

/-- The listeners that other code adds and removes, without any others. -/
def others (es : List (Event κ)) : EventEmitter ProcessEvent (Handler κ) :=
  es.foldl (fun E e => match e with
    | .on name k => E.on name (.other k)
    | .off name k => E.off name (.other k)
    | _ => E) .start

/-- Which listeners the process has after some events. -/
structure Registered (es : List (Event κ)) (s : State κ) : Prop where
  /-- Those of an installation are one for each of its events, until it is removed. -/
  own : ∀ n name, (s.emitter.listeners name).filter (Handler.ownedBy n) =
    handlers s.installations n name
  /-- Those of other code are what they would be without any installation. -/
  other : ∀ name, (s.emitter.listeners name).filter Handler.isOther = (others es).listeners name

omit [DecidableEq κ] in
theorem mem_entries {names : List ProcessEvent} :
    (name, c) ∈ entries κ n names ↔ ∃ i, names[i]? = some name ∧ c = .installed n i := by
  simp only [entries, List.mem_map, Prod.exists, Prod.mk.injEq, List.mem_zipIdx_iff_getElem?]
  constructor
  · rintro ⟨name', i, hi, rfl, rfl⟩
    exact ⟨i, hi, rfl⟩
  · rintro ⟨i, hi, rfl⟩
    exact ⟨name, i, hi, rfl, rfl⟩

omit [DecidableEq κ] in
/-- The handlers of an installation are different from each other. -/
theorem nodup_entries {names : List ProcessEvent} :
    ((entries κ n names).map Prod.snd).Nodup := by
  have hmap : (entries κ n names).map Prod.snd =
      (names.zipIdx.map Prod.snd).map (Handler.installed n) := by
    rw [entries, List.map_map, List.map_map]
    rfl
  rw [hmap, List.zipIdx_map_snd]
  exact List.Nodup.map (fun i j hij => (Handler.installed.inj hij).2) (List.nodup_range' ..)

omit [DecidableEq κ] in
theorem ownedBy_of_mem_handlers {installations : List Installation}
    (hc : c ∈ (handlers installations n name : List (Handler κ))) : ∃ installation,
      installations[n]? = some installation ∧ (name, c) ∈ entries κ n installation.names := by
  unfold handlers at hc
  split at hc
  · cases hc
  · next installation hmem =>
    split_ifs at hc with hremoved
    · cases hc
    · obtain ⟨⟨name', c'⟩, hp, rfl⟩ := List.mem_map.mp hc
      obtain ⟨hentry, hname⟩ := List.mem_filter.mp hp
      obtain rfl : name' = name := by simpa using hname
      exact ⟨installation, hmem, hentry⟩

omit [DecidableEq κ] in
/-- A handler occurs at most once among those of its installation. -/
theorem count_handlers_le [DecidableEq κ] (installations : List Installation) (n : ℕ)
    (name : ProcessEvent) (c : Handler κ) : (handlers installations n name).count c ≤ 1 := by
  refine List.nodup_iff_count_le_one.mp ?_ c
  unfold handlers
  split
  · exact List.nodup_nil
  · next installation hmem =>
    split_ifs
    · exact List.nodup_nil
    · exact nodup_entries.sublist (List.filter_sublist.map _)

omit [DecidableEq κ] in
theorem ownedBy_of_mem_entries {names : List ProcessEvent} (hc : (name, c) ∈ entries κ n names) :
    c.ownedBy m = decide (n = m) ∧ c.isOther = false := by
  obtain ⟨i, -, rfl⟩ := mem_entries.mp hc
  exact ⟨rfl, rfl⟩

omit [DecidableEq κ] in
/-- The entries of an installation for an event belong to it. -/
theorem filter_entries {names : List ProcessEvent} {P : Handler κ → Bool} {b : Bool}
    (hP : ∀ i, P (.installed n i) = b) :
    (((entries κ n names).filter fun p => p.1 = name).map Prod.snd).filter P =
      if b then ((entries κ n names).filter fun p => p.1 = name).map Prod.snd else [] := by
  have hmem : ∀ c ∈ ((entries κ n names).filter fun p => p.1 = name).map Prod.snd, P c = b := by
    intro c hc
    obtain ⟨⟨name', c'⟩, hp, rfl⟩ := List.mem_map.mp hc
    obtain ⟨i, -, rfl⟩ := mem_entries.mp (List.mem_filter.mp hp).1
    exact hP i
  cases b with
  | true => exact List.filter_eq_self.mpr hmem
  | false =>
    rw [if_neg Bool.false_ne_true, List.filter_eq_nil_iff]
    intro c hc
    simp [hmem c hc]

omit [DecidableEq κ] in
theorem handlers_append {installations : List Installation} {installation : Installation}
    (hlive : installation.removed = false) :
    (handlers (installations ++ [installation]) n name : List (Handler κ)) =
      handlers installations n name ++
        if n = installations.length then
          ((entries κ n installation.names).filter fun p => p.1 = name).map Prod.snd
        else [] := by
  unfold handlers
  rcases Nat.lt_trichotomy n installations.length with hlt | heq | hgt
  · rw [List.getElem?_append_left hlt, if_neg (Nat.ne_of_lt hlt), List.append_nil]
  · subst heq
    simp [hlive]
  · rw [List.getElem?_eq_none (by simp; omega), List.getElem?_eq_none (by omega),
      if_neg (Nat.ne_of_gt hgt)]
    rfl

omit [DecidableEq κ] in
theorem handlers_set {installations : List Installation} {installation : Installation}
    (hmem : installations[m]? = some installation) :
    (handlers (installations.set m { installation with removed := true }) n name :
      List (Handler κ)) = if n = m then [] else handlers installations n name := by
  unfold handlers
  by_cases hnm : n = m
  · subst hnm
    rw [List.getElem?_set_self (List.getElem?_eq_some_iff.mp hmem).1, if_pos rfl]
    simp
  · rw [List.getElem?_set_ne (Ne.symm hnm), if_neg hnm]

/-! ### Steps -/

theorem registered_start : Registered [] (start : State κ) := ⟨fun _ _ => rfl, fun _ => rfl⟩

theorem others_concat : others (es ++ [e]) = match e with
    | .on name k => (others es).on name (.other k)
    | .off name k => (others es).off name (.other k)
    | _ => others es := by
  rw [others, List.foldl_append]
  cases e <;> rfl

/-- What leaves the listeners and the installations keeps what is registered. -/
theorem Registered.congr (hs : Registered es s) (hemitter : t.emitter = s.emitter)
    (hinstallations : t.installations = s.installations)
    (hothers : others (es ++ [e]) = others es) : Registered (es ++ [e]) t := by
  refine ⟨fun n name => ?_, fun name => ?_⟩
  · rw [hemitter, hinstallations]
    exact hs.own n name
  · rw [hemitter, hothers]
    exact hs.other name

/-- **Installing** adds one handler for each event. -/
theorem Registered.install (hs : Registered es s) (controller : ℕ) (signals : List Signal) :
    Registered (es ++ [.install controller signals]) (s.install controller signals) := by
  refine ⟨fun n name => ?_, fun name => ?_⟩
  · have hown : ∀ i, Handler.ownedBy n (.installed s.installations.length i : Handler κ) =
        decide (s.installations.length = n) := fun i => rfl
    show ((s.emitter.onAll _).listeners name).filter _ = handlers (s.installations ++ [_]) n name
    rw [EventEmitter.listeners_onAll, List.filter_append, hs.own, filter_entries hown,
      handlers_append rfl]
    congr 1
    by_cases hn : n = s.installations.length
    · simp [hn]
    · simp [hn, Ne.symm hn]
  · show ((s.emitter.onAll _).listeners name).filter _ = _
    rw [EventEmitter.listeners_onAll, List.filter_append, hs.other, others_concat,
      filter_entries (b := false) fun i => rfl]
    simp

/-- **Removing** an installation takes out its handlers and no other listener. -/
theorem Registered.remove (hs : Registered es s) {installation : Installation}
    (hmem : s.installations[n]? = some installation) :
    Registered (es ++ [.remove n]) (s.remove n installation) := by
  have hcount : ∀ p ∈ entries κ n installation.names, (s.emitter.listeners p.1).count p.2 ≤ 1 := by
    rintro ⟨name, c⟩ hc
    have hown := (ownedBy_of_mem_entries (m := n) hc).1
    rw [decide_eq_true rfl] at hown
    rw [← List.count_filter hown, hs.own]
    exact count_handlers_le s.installations n name c
  have hlisteners : ∀ name, (s.remove n installation).emitter.listeners name =
      (s.emitter.listeners name).filter fun c => (name, c) ∉ entries κ n installation.names :=
    fun name => EventEmitter.listeners_offAll hcount
  refine ⟨fun m name => ?_, fun name => ?_⟩
  · show _ = handlers (s.installations.set n _) m name
    rw [hlisteners, handlers_set hmem, List.filter_comm, hs.own]
    split_ifs with hmn
    · -- each of its handlers is one of its entries
      subst hmn
      rw [List.filter_eq_nil_iff]
      intro c hc
      obtain ⟨installation', hmem', hentry⟩ := ownedBy_of_mem_handlers hc
      obtain rfl := Option.some.inj (hmem.symm.trans hmem')
      simpa using hentry
    · rw [List.filter_eq_self]
      intro c hc
      obtain ⟨installation', -, hentry⟩ := ownedBy_of_mem_handlers hc
      rw [decide_eq_true_iff]
      intro hentry'
      have hown := (ownedBy_of_mem_entries (m := m) hentry).1
      have hown' := (ownedBy_of_mem_entries (m := m) hentry').1
      rw [hown, decide_eq_decide] at hown'
      exact hmn (hown'.mp rfl).symm
  · rw [hlisteners, List.filter_comm, hs.other, others_concat, List.filter_eq_self]
    intro c hc
    rw [← hs.other] at hc
    rw [decide_eq_true_iff]
    intro hentry
    have hother := (List.mem_filter.mp hc).2
    rw [(ownedBy_of_mem_entries (m := n) hentry).2] at hother
    cases hother

/-- A listener of other code that is added or removed belongs to no installation. -/
theorem filter_owned_other (l : List (Handler κ)) (k : κ) :
    (l ++ [Handler.other k]).filter (Handler.ownedBy n) = l.filter (Handler.ownedBy n) ∧
      (EventEmitter.eraseLast (Handler.other k) l).filter (Handler.ownedBy n) =
        l.filter (Handler.ownedBy n) := by
  constructor
  · rw [List.filter_append]
    simp [Handler.ownedBy]
  · rw [EventEmitter.filter_eraseLast, EventEmitter.eraseLast_of_not_mem]
    intro hmem
    cases (List.mem_filter.mp hmem).2

theorem registered_step (hs : Registered es s) (hstep : (machine h steps).step s e = some t) :
    Registered (es ++ [e]) t := by
  cases step_cases hstep with
  | install controller signals => exact hs.install controller signals
  | remove n installation mem => exact hs.remove mem
  | on name k =>
    refine ⟨fun n name' => ?_, fun name' => ?_⟩
    · rw [EventEmitter.listeners_on]
      split_ifs
      · rw [(filter_owned_other _ k).1]
        exact hs.own n name'
      · rw [List.append_nil]
        exact hs.own n name'
    · rw [EventEmitter.listeners_on, List.filter_append, hs.other, others_concat,
        EventEmitter.listeners_on]
      split_ifs <;> rfl
  | off name k =>
    refine ⟨fun n name' => ?_, fun name' => ?_⟩
    · rw [EventEmitter.listeners_off]
      split_ifs with hname
      · rw [(filter_owned_other _ k).2, hname]
        exact hs.own n name
      · exact hs.own n name'
    · rw [EventEmitter.listeners_off, others_concat, EventEmitter.listeners_off]
      split_ifs with hname
      · rw [EventEmitter.filter_eraseLast, hs.other]
      · exact hs.other name'
  | emit name value => exact hs.congr (t := { s with pending := _ }) rfl rfl others_concat
  | notify c name value rest quiet =>
    obtain ⟨hemitter, hinstallations⟩ :=
      listeners_call h steps { s with pending := rest } name value c
    exact hs.congr hemitter hinstallations others_concat
  | controller k e c own step =>
    exact hs.congr (t := { s with controllers := _ }) rfl rfl others_concat

/-- **The listeners of an installation are there until it is removed**, and removing it leaves all
others: in every run of the process. -/
theorem registered_run (h : Heap ErrorClass) (steps : ℕ → ℕ) {es : List (Event κ)} {s : State κ}
    (hrun : (machine h steps).run start es = some s) : Registered es s := by
  have hall := Machine.run_history (G := fun _ _ => True) (I := Registered)
    (fun _ _ _ _ hs _ hstep => registered_step hs hstep) registered_start Machine.stepsMeet_true
    hrun
  rwa [List.nil_append] at hall

/-- Two installations, the first of which is removed twice, next to a listener of other code. -/
theorem registered_run_two : ∃ s,
    (machine (fun _ => SleepState.revokedProxy) fun _ => 2).run (start : State ℕ)
      [.install 0 defaultSignals, .on (.signal .sigterm) 7, .install 0 defaultSignals, .remove 0,
        .remove 0] = some s ∧
      s.emitter.listeners (.signal .sigterm) = [.other 7, .installed 1 0] ∧
      Registered [.install 0 defaultSignals, .on (.signal .sigterm) 7, .install 0 defaultSignals,
        .remove 0, .remove 0] s := by
  obtain ⟨s, hrun, hlisteners⟩ : ∃ s,
      (machine (fun _ => SleepState.revokedProxy) fun _ => 2).run (start : State ℕ)
        [.install 0 defaultSignals, .on (.signal .sigterm) 7, .install 0 defaultSignals, .remove 0,
          .remove 0] = some s ∧
        s.emitter.listeners (.signal .sigterm) = [.other 7, .installed 1 0] := ⟨_, rfl, rfl⟩
  exact ⟨s, hrun, hlisteners, registered_run _ _ hrun⟩

/-! ## Controllers -/

section Sequences

variable {n m i : ℕ} {c d : Controller} {e : ControllerEvent} {starting : Bool}

theorem length_sequences_modify {f : Shutdown.State → Shutdown.State} :
    (c.modify m f).sequences.length = c.sequences.length := List.length_modify ..

theorem length_sequences_leave :
    (c.leave m starting).sequences.length = c.sequences.length := by
  cases starting with
  | true => exact length_sequences_modify
  | false => rfl

theorem length_sequences_enter :
    (c.enter n m i starting).sequences.length = c.sequences.length := by
  unfold Controller.enter
  split_ifs
  · exact length_sequences_modify
  · rw [length_sequences_leave, length_sequences_modify]

/-- Only a call of `shutdown` starts a sequence. -/
theorem length_sequences_of_step (hown : isCall e = false)
    (hstep : (Controller.machine n).step c e = some d) :
    d.sequences.length = c.sequences.length := by
  cases Controller.step_cases hstep with
  | shutdown => cases hown
  | isShuttingDown => cases hown
  | runThrows error f rest => exact length_sequences_enter
  | runReturns settled f rest =>
    rw [length_sequences_leave, Controller.await, length_sequences_modify]
  | runSettles m i settled s => exact length_sequences_modify
  | deadlineFires m s => exact length_sequences_modify
  | microtask m s k r loop =>
    have hresume : ((c.modify m fun s => s.popped loop).resume n m k r).sequences.length =
        (c.modify m fun s => s.popped loop).sequences.length := by
      cases k with
      | stepResume i => exact length_sequences_enter
      | _ => exact length_sequences_modify
    rw [hresume, length_sequences_modify]

/-- After a call of `shutdown` there is a sequence. -/
theorem sequences_shutdown_ne_nil (hgood : c.Good n) : (c.shutdown n).sequences ≠ [] := by
  unfold Controller.shutdown
  split
  · next m hrunning =>
    rcases hgood.sequences with ⟨-, -, hnone, -⟩ | ⟨s, starting, hsingle⟩
    · cases hnone.symm.trans hrunning
    · show c.sequences ≠ []
      rw [hsingle.sequences]
      exact List.cons_ne_nil _ _
  · rw [← List.length_pos_iff_ne_nil, length_sequences_enter]
    simp

end Sequences

/-- What a controller guarantees when the handlers alone call it. -/
structure Controlled (s : State κ) (k : ℕ) : Prop where
  /-- However often its handlers are called, it shuts down once. -/
  idempotent : Idempotent (s.controllers k)
  /-- It does so when a handler has reached it. -/
  started : (s.controllers k).sequences ≠ [] ↔ ∃ name, (k, name) ∈ s.shutdowns

/-- The controllers of a process. -/
structure ControllersInv (steps : ℕ → ℕ) (s : State κ) : Prop where
  good : ∀ k, (s.controllers k).Good (steps k)
  started : ∀ k, (s.controllers k).sequences ≠ [] ↔ ∃ name, (k, name) ∈ s.shutdowns

omit [DecidableEq κ] in
theorem controllersInv_start : ControllersInv steps (start : State κ) :=
  ⟨fun _ => ⟨Or.inl ⟨rfl, rfl, rfl, rfl, rfl⟩, fun _ hread => (by cases hread)⟩,
    fun _ => ⟨fun hne => absurd rfl hne, fun ⟨_, hname⟩ => by cases hname⟩⟩

omit [DecidableEq κ] in
/-- **A handler that is called** finds no run of its controller executing. -/
theorem ControllersInv.call (hs : ControllersInv steps s) (hquiet : s.Quiet) :
    ControllersInv steps (s.call h steps name value c) := by
  rcases call_cases h steps s name value c with hcall | hcall | ⟨installation, hmem, hcall⟩
  · rw [hcall]
    exact hs
  · rw [hcall]
    exact ⟨hs.good, hs.started⟩
  · rw [hcall]
    have hclear : (s.controllers installation.controller).Clear .shutdown := by
      intro f hf
      rw [hquiet installation hmem] at hf
      cases hf
    have hgood := hs.good installation.controller
    refine ⟨fun k => ?_, fun k => ?_⟩
    · by_cases hk : k = installation.controller
      · subst hk
        simp only [Function.update_self]
        exact hgood.shutdown hclear
      · simp only [Function.update_of_ne hk]
        exact hs.good k
    · by_cases hk : k = installation.controller
      · subst hk
        simp only [Function.update_self]
        exact iff_of_true (sequences_shutdown_ne_nil hgood) ⟨name, by simp⟩
      · simp only [Function.update_of_ne hk, List.mem_append, List.mem_singleton, Prod.mk.injEq, hk,
          false_and, or_false]
        exact hs.started k

theorem controllersInv_step (hs : ControllersInv steps s)
    (hstep : (machine h steps).step s e = some t) : ControllersInv steps t := by
  cases step_cases hstep with
  | install controller signals => exact ⟨hs.good, hs.started⟩
  | remove n installation mem => exact ⟨hs.good, hs.started⟩
  | on name k => exact ⟨hs.good, hs.started⟩
  | off name k => exact ⟨hs.good, hs.started⟩
  | emit name value => exact ⟨hs.good, hs.started⟩
  | notify c name value rest quiet =>
    have hrest : ControllersInv steps { s with pending := rest } := ⟨hs.good, hs.started⟩
    exact hrest.call quiet
  | controller k e c own step =>
    have hclear : (s.controllers k).Clear e := by
      cases e with
      | shutdown => cases own
      | isShuttingDown => cases own
      | _ => trivial
    refine ⟨fun k' => ?_, fun k' => ?_⟩
    · by_cases hk : k' = k
      · subst hk
        simp only [Function.update_self]
        exact Controller.good_step (hs.good k') hclear step
      · simp only [Function.update_of_ne hk]
        exact hs.good k'
    · by_cases hk : k' = k
      · subst hk
        simp only [Function.update_self]
        rw [← hs.started k', ← List.length_pos_iff_ne_nil, ← List.length_pos_iff_ne_nil,
          length_sequences_of_step own step]
      · simp only [Function.update_of_ne hk]
        exact hs.started k'

/-- **A controller shuts down once, after the first handler that reaches it**: in every run of a
process in which the handlers alone call the controllers. -/
theorem controlled_run (h : Heap ErrorClass) (steps : ℕ → ℕ) {es : List (Event κ)} {s : State κ}
    (hrun : (machine h steps).run start es = some s) (k : ℕ) : Controlled s k := by
  have hinv : ControllersInv steps s :=
    Machine.run_invariant (G := fun _ _ => True)
      (fun _ _ _ hs _ hstep => controllersInv_step hs hstep) controllersInv_start
      Machine.stepsMeet_true hrun
  exact ⟨(hinv.good k).idempotent, hinv.started k⟩

/-- A rejection that cannot be reported, and then both signals: the second of them finds the
shutdown that the first has started. -/
theorem controlled_run_twoSignals : ∃ s,
    (machine (fun _ => SleepState.revokedProxy) fun _ => 2).run (start : State ℕ)
      [.install 0 defaultSignals, .emit .unhandledRejection (.object 0), .notify,
        .emit (.signal .sigterm) .undefined, .notify, .controller 0 (.runReturns none),
        .emit (.signal .sigint) .undefined, .notify] = some s ∧
      s.shutdowns = [(0, .signal .sigterm), (0, .signal .sigint)] ∧
      (s.controllers 0).calls = [0] ∧ Controlled s 0 := by
  obtain ⟨s, hrun, hshutdowns, hcalls⟩ : ∃ s,
      (machine (fun _ => SleepState.revokedProxy) fun _ => 2).run (start : State ℕ)
        [.install 0 defaultSignals, .emit .unhandledRejection (.object 0), .notify,
          .emit (.signal .sigterm) .undefined, .notify, .controller 0 (.runReturns none),
          .emit (.signal .sigint) .undefined, .notify] = some s ∧
        s.shutdowns = [(0, .signal .sigterm), (0, .signal .sigint)] ∧
        (s.controllers 0).calls = [0] := ⟨_, rfl, rfl, rfl⟩
  exact ⟨s, hrun, hshutdowns, hcalls, controlled_run _ _ hrun 0⟩

end Machine

end SignalHandlers

end QueueWorkerKit
