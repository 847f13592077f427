import QueueWorkerKit.Config.Defaults
import QueueWorkerKit.Worker.ShutdownGates

/-!
# The API process

The process that `main` of `api/server.ts` sets up, from the call of `shutdown` on: the requests
that its routes are handling, the queues these use, and the declared steps, which the shutdown
controller runs. Requests are accepted until the server is closed, also while the load balancer is
given time to notice the readiness probe.

The server answers its `close` by resolving once no request is in flight, or by rejecting at any
time; it accepts no request after that call. The queues are closed together, and that step waits
for them with `Promise.all`. The connection swallows a failed `quit`; its step fails only where the
error of that cannot be projected for the log.

## Main definitions

* `StepName`, `steps`: the declared steps
* `State`, `Event`, `machine`: the runs of the process
* `Settled`: the promise of a step has settled
* `OrderlyDrain`: what the shutdown of the process guarantees

## Main results

* `machine_follows`: the process runs the shutdown controller
* `serverGate`, `queuesGate`: the conditions under which two of its steps are over
* `orderly_drain`: **every run of the process drains in order**
-/

namespace QueueWorkerKit

open Ecma EventDriven

namespace ApiServer

open Shutdown (StepRun)

inductive StepName
  | drainReadiness
  | httpServer
  | queues
  | redis
  deriving DecidableEq

def stepNames : List StepName := [.drainReadiness, .httpServer, .queues, .redis]

/-- The `run` of each step returns a promise that is pending. -/
def steps : List StepRun := stepNames.map fun _ => .returns none

def stepIndex (name : StepName) : ℕ := stepNames.idxOf name

/-- The controller, the requests in flight with the number of the next one, the settled answers of
the server and of the queues to `close` with the first rejection of a queue, and the uses of queues
that come after their `close`. -/
structure State (Q : Type) where
  shutdown : Shutdown.State
  inFlight : List ℕ
  nextRequest : ℕ
  serverClose : Option (Except JsValue Unit)
  closes : Q → Option (Except JsValue Unit)
  firstRejection : Option JsValue
  late : List (ℕ × Q)

/-- What happens in the process: to requests, to the promises that the steps wait for, and in the
event loop. -/
inductive Event (Q : Type)
  | requestAccepted
  | requestUses (request : ℕ) (q : Q)
  | requestAnswered (request : ℕ)
  | drainTimer
  | serverCloses
  | serverRejects (error : JsValue)
  | queueCloses (q : Q)
  | queueRejects (q : Q) (error : JsValue)
  | queuesSettle
  | redisCloses
  | redisRejects (error : JsValue)
  | deadlineFires
  | microtask

variable {Q : Type}

/-- The `run` of a step was called. -/
def State.Called (s : State Q) (name : StepName) : Prop := stepIndex name ∈ s.shutdown.called

instance (s : State Q) (name : StepName) : Decidable (s.Called name) :=
  inferInstanceAs (Decidable (_ ∈ _))

/-- A queue has closed. -/
def State.closed (s : State Q) (q : Q) : Bool :=
  match s.closes q with
  | some (.ok _) => true
  | _ => false

/-- The events of the controller that an event of the process amounts to. -/
def forwarded (s : State Q) : Event Q → List Shutdown.Event
  | .drainTimer => [.runSettles (stepIndex .drainReadiness) (.fulfilled .undefined)]
  | .serverCloses => [.runSettles (stepIndex .httpServer) (.fulfilled .undefined)]
  | .serverRejects error => [.runSettles (stepIndex .httpServer) (.rejected error)]
  | .queuesSettle =>
    [.runSettles (stepIndex .queues) (match s.firstRejection with
      | some error => .rejected error
      | none => .fulfilled .undefined)]
  | .redisCloses => [.runSettles (stepIndex .redis) (.fulfilled .undefined)]
  | .redisRejects error => [.runSettles (stepIndex .redis) (.rejected error)]
  | .deadlineFires => [.deadlineFires]
  | .microtask => [.microtask]
  | _ => []

/-- A step of the controller. -/
def State.control (s : State Q) (e : Event Q) : Option (State Q) :=
  ((Shutdown.machine steps).run s.shutdown (forwarded s e)).map fun shutdown => { s with shutdown }

/-- The call of `shutdown`, with some requests in flight. -/
def start (requests : ℕ) : State Q :=
  ⟨Shutdown.start steps, List.range requests, requests, none, fun _ => none, none, []⟩

variable [DecidableEq Q]

/-- The runs of the process with these queues. -/
def machine (queues : List Q) : Machine (State Q) (Event Q) where
  step s
    | .requestAccepted =>
      if ¬ s.Called .httpServer then
        some { s with
          inFlight := s.inFlight ++ [s.nextRequest]
          nextRequest := s.nextRequest + 1 }
      else none
    | .requestUses request q =>
      if request ∈ s.inFlight ∧ q ∈ queues then
        some { s with late := s.late ++ if s.Called .queues then [(request, q)] else [] }
      else none
    | .requestAnswered request =>
      if request ∈ s.inFlight then some { s with inFlight := s.inFlight.erase request } else none
    | .drainTimer => s.control .drainTimer
    | .serverCloses =>
      if s.Called .httpServer ∧ s.serverClose.isNone ∧ s.inFlight = [] then
        { s with serverClose := some (.ok ()) }.control .serverCloses
      else none
    | .serverRejects error =>
      if s.Called .httpServer ∧ s.serverClose.isNone then
        { s with serverClose := some (.error error) }.control (.serverRejects error)
      else none
    | .queueCloses q =>
      if q ∈ queues ∧ s.Called .queues ∧ (s.closes q).isNone then
        some { s with closes := Function.update s.closes q (some (.ok ())) }
      else none
    | .queueRejects q error =>
      if q ∈ queues ∧ s.Called .queues ∧ (s.closes q).isNone then
        some { s with
          closes := Function.update s.closes q (some (.error error))
          firstRejection := s.firstRejection <|> some error }
      else none
    | .queuesSettle =>
      if s.Called .queues ∧ (s.firstRejection.isSome ∨ ∀ q ∈ queues, s.closed q) then
        s.control .queuesSettle
      else none
    | .redisCloses => s.control .redisCloses
    | .redisRejects error => s.control (.redisRejects error)
    | .deadlineFires => s.control .deadlineFires
    | .microtask => s.control .microtask

variable {queues : List Q} {s t : State Q} {e : Event Q} {es : List (Event Q)} {requests : ℕ}

/-- What each event does where it can happen, with what it finds there. -/
inductive Step (queues : List Q) (s : State Q) : Event Q → State Q → Prop
  | requestAccepted (accepting : ¬ s.Called .httpServer) :
      Step queues s .requestAccepted
        { s with
          inFlight := s.inFlight ++ [s.nextRequest]
          nextRequest := s.nextRequest + 1 }
  | requestUses (request : ℕ) (q : Q) (inFlight : request ∈ s.inFlight) :
      Step queues s (.requestUses request q)
        { s with late := s.late ++ if s.Called .queues then [(request, q)] else [] }
  | requestAnswered (request : ℕ) :
      Step queues s (.requestAnswered request) { s with inFlight := s.inFlight.erase request }
  | serverCloses (called : s.Called .httpServer) (pending : s.serverClose = none)
      (idle : s.inFlight = []) (shutdown : Shutdown.State)
      (run : (Shutdown.machine steps).run s.shutdown (forwarded s .serverCloses) =
        some shutdown) :
      Step queues s .serverCloses { s with serverClose := some (.ok ()), shutdown }
  | serverRejects (error : JsValue) (called : s.Called .httpServer) (pending : s.serverClose = none)
      (shutdown : Shutdown.State)
      (run : (Shutdown.machine steps).run s.shutdown (forwarded s (.serverRejects error)) =
        some shutdown) :
      Step queues s (.serverRejects error) { s with serverClose := some (.error error), shutdown }
  | queueCloses (q : Q) (called : s.Called .queues) (pending : s.closes q = none) :
      Step queues s (.queueCloses q)
        { s with closes := Function.update s.closes q (some (.ok ())) }
  | queueRejects (q : Q) (error : JsValue) (called : s.Called .queues)
      (pending : s.closes q = none) :
      Step queues s (.queueRejects q error)
        { s with
          closes := Function.update s.closes q (some (.error error))
          firstRejection := s.firstRejection <|> some error }
  | queuesSettle (answers : s.firstRejection.isSome ∨ ∀ q ∈ queues, s.closed q)
      (shutdown : Shutdown.State)
      (run : (Shutdown.machine steps).run s.shutdown (forwarded s .queuesSettle) =
        some shutdown) : Step queues s .queuesSettle { s with shutdown }
  | control (e : Event Q) (other : e = .drainTimer ∨ e = .redisCloses ∨
      (∃ error, e = .redisRejects error) ∨ e = .deadlineFires ∨ e = .microtask)
      (shutdown : Shutdown.State)
      (run : (Shutdown.machine steps).run s.shutdown (forwarded s e) = some shutdown) :
      Step queues s e { s with shutdown }

omit [DecidableEq Q] in
/-- A step of the process that is one of the controller. -/
theorem control_eq_some : s.control e = some t ↔
    ∃ shutdown, (Shutdown.machine steps).run s.shutdown (forwarded s e) = some shutdown ∧
      t = { s with shutdown } := by
  rw [State.control, Option.map_eq_some_iff]
  constructor
  · rintro ⟨shutdown, hrun, rfl⟩
    exact ⟨shutdown, hrun, rfl⟩
  · rintro ⟨shutdown, hrun, rfl⟩
    exact ⟨shutdown, hrun, rfl⟩

/-- **What a step does**: one case for each event of a request or of a `close`, and one for the
controller. -/
theorem step_cases (hstep : (machine queues).step s e = some t) : Step queues s e t := by
  cases e with
  | requestAccepted =>
    simp only [machine, Option.ite_none_right_eq_some] at hstep
    obtain ⟨haccepting, ⟨⟩⟩ := hstep
    exact .requestAccepted haccepting
  | requestUses request q =>
    simp only [machine, Option.ite_none_right_eq_some] at hstep
    obtain ⟨⟨hinFlight, -⟩, ⟨⟩⟩ := hstep
    exact .requestUses request q hinFlight
  | requestAnswered request =>
    simp only [machine, Option.ite_none_right_eq_some] at hstep
    obtain ⟨-, ⟨⟩⟩ := hstep
    exact .requestAnswered request
  | drainTimer =>
    obtain ⟨shutdown, hrun, rfl⟩ := control_eq_some.mp hstep
    exact .control _ (Or.inl rfl) shutdown hrun
  | serverCloses =>
    simp only [machine, Option.ite_none_right_eq_some] at hstep
    obtain ⟨⟨hcalled, hpending, hidle⟩, hcontrol⟩ := hstep
    obtain ⟨shutdown, hrun, rfl⟩ := control_eq_some.mp hcontrol
    exact .serverCloses hcalled (Option.isNone_iff_eq_none.mp hpending) hidle shutdown hrun
  | serverRejects error =>
    simp only [machine, Option.ite_none_right_eq_some] at hstep
    obtain ⟨⟨hcalled, hpending⟩, hcontrol⟩ := hstep
    obtain ⟨shutdown, hrun, rfl⟩ := control_eq_some.mp hcontrol
    exact .serverRejects error hcalled (Option.isNone_iff_eq_none.mp hpending) shutdown hrun
  | queueCloses q =>
    simp only [machine, Option.ite_none_right_eq_some] at hstep
    obtain ⟨⟨-, hcalled, hpending⟩, ⟨⟩⟩ := hstep
    exact .queueCloses q hcalled (Option.isNone_iff_eq_none.mp hpending)
  | queueRejects q error =>
    simp only [machine, Option.ite_none_right_eq_some] at hstep
    obtain ⟨⟨-, hcalled, hpending⟩, ⟨⟩⟩ := hstep
    exact .queueRejects q error hcalled (Option.isNone_iff_eq_none.mp hpending)
  | queuesSettle =>
    simp only [machine, Option.ite_none_right_eq_some] at hstep
    obtain ⟨⟨-, hanswers⟩, hcontrol⟩ := hstep
    obtain ⟨shutdown, hrun, rfl⟩ := control_eq_some.mp hcontrol
    exact .queuesSettle hanswers shutdown hrun
  | redisCloses =>
    obtain ⟨shutdown, hrun, rfl⟩ := control_eq_some.mp hstep
    exact .control _ (Or.inr (Or.inl rfl)) shutdown hrun
  | redisRejects error =>
    obtain ⟨shutdown, hrun, rfl⟩ := control_eq_some.mp hstep
    exact .control _ (Or.inr (Or.inr (Or.inl ⟨error, rfl⟩))) shutdown hrun
  | deadlineFires =>
    obtain ⟨shutdown, hrun, rfl⟩ := control_eq_some.mp hstep
    exact .control _ (Or.inr (Or.inr (Or.inr (Or.inl rfl)))) shutdown hrun
  | microtask =>
    obtain ⟨shutdown, hrun, rfl⟩ := control_eq_some.mp hstep
    exact .control _ (Or.inr (Or.inr (Or.inr (Or.inr rfl)))) shutdown hrun

/-- **The process runs the shutdown controller.** -/
theorem machine_follows :
    (machine queues).Follows (Shutdown.machine steps) State.shutdown forwarded := by
  intro s e t hstep
  cases step_cases hstep with
  | serverCloses _ _ _ shutdown hrun => exact hrun
  | serverRejects error _ _ shutdown hrun => exact hrun
  | queuesSettle _ shutdown hrun => exact hrun
  | control e _ shutdown hrun => exact hrun
  | _ => rfl

/-! ## The gates -/

/-- The `close` of the server has rejected. -/
def State.ServerFailed (s : State Q) : Prop := ∃ error, s.serverClose = some (.error error)

/-- The server was closed, and no request is in flight unless its `close` has rejected. -/
def ServerClosed (s : State Q) : Prop := s.ServerFailed ∨ s.inFlight = []

/-- Every queue has closed, or one of them has failed to. -/
def QueuesClosed (queues : List Q) (s : State Q) : Prop :=
  s.firstRejection ≠ none ∨ ∀ q ∈ queues, s.closed q = true

/-- The `close` of the server settles once. -/
theorem serverFailed_of_step (hfailed : s.ServerFailed)
    (hstep : (machine queues).step s e = some t) : t.ServerFailed := by
  cases step_cases hstep with
  | serverCloses called pending =>
    obtain ⟨error, herror⟩ := hfailed
    cases pending.symm.trans herror
  | serverRejects error => exact ⟨error, rfl⟩
  | _ => exact hfailed

theorem firstRejection_of_step (hne : s.firstRejection ≠ none)
    (hstep : (machine queues).step s e = some t) : t.firstRejection ≠ none := by
  cases step_cases hstep with
  | queueRejects q error =>
    obtain ⟨first, hfirst⟩ := Option.ne_none_iff_exists'.mp hne
    show (s.firstRejection <|> some error) ≠ none
    rw [hfirst]
    exact Option.some_ne_none first
  | _ => exact hne

theorem closed_of_step {q : Q} (hclosed : s.closed q = true)
    (hstep : (machine queues).step s e = some t) : t.closed q = true := by
  have hupdate : ∀ q' answer, s.closes q' = none →
      Function.update s.closes q' answer q = s.closes q := by
    intro q' answer hpending
    refine Function.update_of_ne ?_ _ _
    rintro rfl
    simp [State.closed, hpending] at hclosed
  cases step_cases hstep with
  | queueCloses q' called pending =>
    simp only [State.closed, hupdate q' _ pending]
    exact hclosed
  | queueRejects q' error called pending =>
    simp only [State.closed, hupdate q' _ pending]
    exact hclosed
  | _ => exact hclosed

/-- **The server is closed once its step is over.** -/
theorem serverGate : Shutdown.Gate (machine queues) steps State.shutdown forwarded
    (stepIndex .httpServer) ServerClosed where
  returns := rfl
  settles s e t r hstep hmem := by
    cases step_cases hstep with
    | serverCloses _ _ idle => exact Or.inr idle
    | serverRejects error => exact Or.inl ⟨error, rfl⟩
    | queuesSettle => cases List.mem_singleton.mp hmem
    | control e other =>
      rcases other with rfl | rfl | ⟨error, rfl⟩ | rfl | rfl <;> cases List.mem_singleton.mp hmem
    | _ => cases hmem
  keeps s e t hstep hcalled hclosed := by
    rcases hclosed with hfailed | hidle
    · exact Or.inl (serverFailed_of_step hfailed hstep)
    right
    cases step_cases hstep with
    | requestAccepted accepting => exact absurd hcalled accepting
    | requestAnswered request =>
      show s.inFlight.erase request = []
      rw [hidle]
      rfl
    | _ => exact hidle

/-- **The queues are closed once their step is over.** -/
theorem queuesGate : Shutdown.Gate (machine queues) steps State.shutdown forwarded
    (stepIndex .queues) (QueuesClosed queues) where
  returns := rfl
  settles s e t r hstep hmem := by
    cases step_cases hstep with
    | serverCloses => cases List.mem_singleton.mp hmem
    | serverRejects error => cases List.mem_singleton.mp hmem
    | queuesSettle answers => exact answers.imp_left Option.isSome_iff_ne_none.mp
    | control e other =>
      rcases other with rfl | rfl | ⟨error, rfl⟩ | rfl | rfl <;> cases List.mem_singleton.mp hmem
    | _ => cases hmem
  keeps s e t hstep _ hclosed := by
    rcases hclosed with hrejected | hall
    · exact Or.inl (firstRejection_of_step hrejected hstep)
    · exact Or.inr fun q hq => closed_of_step (hall q hq) hstep

/-! ## The drain -/

/-- The promise that the `run` of a step returns has settled. -/
def Settled (es : List (Event Q)) : StepName → Prop
  | .drainReadiness => .drainTimer ∈ es
  | .httpServer => .serverCloses ∈ es ∨ ∃ error, .serverRejects error ∈ es
  | .queues => .queuesSettle ∈ es
  | .redis => .redisCloses ∈ es ∨ ∃ error, .redisRejects error ∈ es

/-- What the shutdown of the process guarantees. -/
structure OrderlyDrain (queues : List Q) (es : List (Event Q)) (s : State Q) : Prop where
  /-- The queues are closed after the server: no request is in flight then, unless the `close` of
  the server has rejected. -/
  server : s.Called .queues → s.ServerFailed ∨ s.inFlight = []
  /-- No request uses a queue after its `close`, with the same exception. -/
  uses : s.ServerFailed ∨ s.late = []
  /-- The connection is closed after the queues, unless one of them has failed to close. -/
  redis : s.Called .redis → s.firstRejection ≠ none ∨ ∀ q ∈ queues, s.closed q = true
  /-- The process exits with code 0 only when all of that is over: the pause, the server, the queues
  and the connection. -/
  exit : 0 ∈ s.shutdown.exits → (∀ name, Settled es name) ∧ (s.ServerFailed ∨ s.inFlight = []) ∧
    (s.firstRejection ≠ none ∨ ∀ q ∈ queues, s.closed q = true)

theorem closed_of_called_queues (hrun : (machine queues).run (start requests) es = some s)
    (hcalled : s.Called .queues) : ServerClosed s :=
  serverGate.closed_of_next machine_follows rfl hrun hcalled

/-- A use of a queue after its `close` finds its request in flight after the server was closed. -/
theorem uses_run (hrun : (machine queues).run (start requests) es = some s) :
    s.ServerFailed ∨ s.late = [] := by
  -- Induction on the events, the last one first.
  induction es using List.reverseRecOn generalizing s with
  | nil =>
    obtain rfl : start requests = s := Option.some.inj hrun
    exact Or.inr rfl
  | append_singleton es e ih =>
    obtain ⟨t, ht, hlast⟩ := Machine.run_append.mp hrun
    obtain ⟨_, hstep, hnil⟩ := Machine.run_cons.mp hlast
    obtain rfl := Option.some.inj hnil
    rcases ih ht with hfailed | hlate
    · exact Or.inl (serverFailed_of_step hfailed hstep)
    cases step_cases hstep with
    | requestUses request q inFlight =>
      by_cases hcalled : t.Called .queues
      · rcases closed_of_called_queues ht hcalled with hfailed | hidle
        · exact Or.inl hfailed
        · rw [hidle] at inFlight
          cases inFlight
      · exact Or.inr (by simp [hlate, hcalled])
    | _ => exact Or.inr hlate

omit [DecidableEq Q] in
/-- The settlement of a step is passed on for the events of that step only. -/
theorem settled_of_forwarded {name : StepName} {r : Shutdown.Settled} (he : e ∈ es)
    (hmem : .runSettles (stepIndex name) r ∈ forwarded s e) : Settled es name := by
  have hname : ∀ {other r'}, Shutdown.Event.runSettles (stepIndex name) r ∈
      [.runSettles (stepIndex other) r'] → other = name := by
    intro other r' hmem
    have hall : ∀ name : StepName, name ∈ stepNames := fun name => by cases name <;> decide
    have hindex := (Shutdown.Event.runSettles.inj (List.mem_singleton.mp hmem)).1
    exact (List.idxOf_inj (hall _)).mp hindex.symm
  cases e with
  | drainTimer | queuesSettle =>
    obtain rfl := hname hmem
    exact he
  | serverCloses | redisCloses =>
    obtain rfl := hname hmem
    exact Or.inl he
  | serverRejects error | redisRejects error =>
    obtain rfl := hname hmem
    exact Or.inr ⟨error, he⟩
  | deadlineFires | microtask => cases List.mem_singleton.mp hmem
  | _ => cases hmem

/-- A process that exits with code 0 has waited for the promises of all of its steps. -/
theorem settled_of_exit (hrun : (machine queues).run (start requests) es = some s)
    (hexit : 0 ∈ s.shutdown.exits) (name : StepName) : Settled es name := by
  have hreturns : steps[stepIndex name]? = some (.returns none) := by cases name <;> rfl
  obtain ⟨e, he, u, r, hmem⟩ :=
    Shutdown.exists_settlement_of_exit machine_follows hreturns rfl hrun hexit
  exact settled_of_forwarded he hmem

/-- **Every run of the process drains in order.** -/
theorem orderly_drain (queues : List Q) (requests : ℕ) {es : List (Event Q)} {s : State Q}
    (hrun : (machine queues).run (start requests) es = some s) : OrderlyDrain queues es s where
  server := closed_of_called_queues hrun
  uses := uses_run hrun
  redis hcalled := queuesGate.closed_of_next machine_follows rfl hrun hcalled
  exit hexit := ⟨settled_of_exit hrun hexit,
    serverGate.closed_of_exit machine_follows rfl hrun hexit,
    queuesGate.closed_of_exit machine_follows rfl hrun hexit⟩

/-- One request is in flight, and uses a queue while the load balancer is given time. -/
theorem orderly_drain_oneRequest : ∃ s,
    (machine [QueueName.email]).run (start 1)
      [.requestUses 0 .email, .drainTimer, .microtask, .requestAnswered 0, .serverCloses,
        .microtask, .queueCloses .email, .queuesSettle, .microtask, .redisCloses, .microtask,
        .microtask, .microtask, .microtask] = some s ∧
      s.shutdown.exits = [0] ∧ OrderlyDrain [QueueName.email]
        [.requestUses 0 .email, .drainTimer, .microtask, .requestAnswered 0, .serverCloses,
          .microtask, .queueCloses .email, .queuesSettle, .microtask, .redisCloses, .microtask,
          .microtask, .microtask, .microtask] s := by
  obtain ⟨s, hrun, hexits⟩ : ∃ s, (machine [QueueName.email]).run (start 1)
      [.requestUses 0 .email, .drainTimer, .microtask, .requestAnswered 0, .serverCloses,
        .microtask, .queueCloses .email, .queuesSettle, .microtask, .redisCloses, .microtask,
        .microtask, .microtask, .microtask] = some s ∧ s.shutdown.exits = [0] := ⟨_, rfl, rfl⟩
  exact ⟨s, hrun, hexits, orderly_drain _ _ hrun⟩

/-- **A server whose `close` rejects does not hold the queues back**: a request that is still in
flight uses one after its `close`. -/
theorem failed_server_uses_late : ∃ s,
    (machine [QueueName.email]).run (start 1)
      [.drainTimer, .microtask, .serverRejects .undefined, .microtask, .requestUses 0 .email] =
        some s ∧ s.late = [(0, .email)] := ⟨_, rfl, rfl⟩

end ApiServer

end QueueWorkerKit
