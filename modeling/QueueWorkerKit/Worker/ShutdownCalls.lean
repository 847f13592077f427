import Mathlib.Algebra.GroupWithZero.Nat
import Mathlib.Data.List.Range
import QueueWorkerKit.Worker.GracefulShutdownOrder

/-!
# Repeated calls of `shutdown`

`createShutdownController` with its guard. A call that finds `running` unset executes an async
function up to its first await and only then assigns the promise to `running`; the runs that are
called on the way execute before the assignment, and what they call finds the guard open. Calls of
`shutdown` and `isShuttingDown` come at any moment, from outside or from a run that is executing.

The sequences that calls have started keep a queue of microtasks each, and any of them may be
taken next: this only adds runs to those of one common queue.

## Main definitions

* `Frame`, `Controller`: a run that is executing, and the state of a controller
* `Controller.enter`, `Controller.leave`: the loop over the steps between two awaits
* `Controller.machine`: the runs of a controller
* `Idempotent`, `Controller.Clear`: what repeat calls should see, and when a step is no obstacle

## Main results

* `Controller.good_step`: what a step that is no obstacle preserves
* `idempotent_iff`: **repeat calls are idempotent exactly when none is made while the first call
  executes**
-/

namespace QueueWorkerKit

open Ecma EventDriven

namespace Shutdown

/-- A run of a step that is executing: the sequence that called it, the step, and whether the call
of `shutdown` which started the sequence has not returned yet. -/
structure Frame where
  sequence : ℕ
  step : ℕ
  starting : Bool

/-- The sequences started so far, the runs that are executing, innermost first, the sequence whose
promise `running` holds, the sequences whose promises calls have returned, the steps whose runs were
called, and the answers of `isShuttingDown` with the number of runs called before. -/
structure Controller where
  sequences : List State
  stack : List Frame
  running : Option ℕ
  returned : List ℕ
  calls : List ℕ
  reads : List (ℕ × Bool)

/-- What happens to a controller: a call of one of its functions, the end of the run that is
executing, the settlement of a promise that is awaited, the deadline of a sequence, a microtask. -/
inductive ControllerEvent
  | shutdown
  | isShuttingDown
  | runThrows (error : JsValue)
  | runReturns (settled : Option Settled)
  | runSettles (m i : ℕ) (settled : Settled)
  | deadlineFires (m : ℕ)
  | microtask (m : ℕ)

namespace Controller

def start : Controller := ⟨[], [], none, [], [], []⟩

def isShuttingDown (c : Controller) : Bool := c.running.isSome

def modify (c : Controller) (m : ℕ) (f : State → State) : Controller :=
  { c with sequences := c.sequences.modify m f }

/-- The end of a stretch of the loop over the steps. In a call of `shutdown` the race is awaited,
and the promise is assigned to `running` and returned. -/
def leave (c : Controller) (m : ℕ) (starting : Bool) : Controller :=
  if starting then
    { c.modify m State.awaitRace with running := some m, returned := c.returned ++ [m] }
  else c

/-- The loop of `runSteps` from the step `i` of `n`: it calls the run, or comes to the end. -/
def enter (n : ℕ) (c : Controller) (m i : ℕ) (starting : Bool) : Controller :=
  if i < n then
    { c.modify m fun s => s.call i with
      stack := ⟨m, i, starting⟩ :: c.stack
      calls := c.calls ++ [i] }
  else (c.modify m fun s => s.settle .steps (.fulfilled .undefined)).leave m starting

/-- A call of `shutdown`. -/
def shutdown (n : ℕ) (c : Controller) : Controller :=
  match c.running with
  | some m => { c with returned := c.returned ++ [m] }
  | none =>
    enter n { c with sequences := c.sequences ++ [⟨.start, [], true, []⟩] } c.sequences.length 0 true

/-- The run of the step `i` has returned a promise, which is awaited. -/
def await (c : Controller) (m i : ℕ) (settled : Option Settled) : Controller :=
  c.modify m fun s => (settled.elim s (s.settle (.run i))).subscribe (.stepResume i)

/-- What a continuation of a sequence does: only that of an awaited step calls runs. -/
def resume (n : ℕ) (c : Controller) (m : ℕ) : Reaction → Settled → Controller
  | .stepResume i, _ => c.enter n m (i + 1) false
  | k, r => c.modify m fun s => Shutdown.resume [] s k r

/-- The runs of a controller with `n` steps. -/
def machine (n : ℕ) : Machine Controller ControllerEvent where
  step c
    | .shutdown => some (c.shutdown n)
    | .isShuttingDown => some { c with reads := c.reads ++ [(c.calls.length, c.isShuttingDown)] }
    | .runThrows _ =>
      match c.stack with
      | [] => none
      -- the catch logs the error, and the loop goes on
      | f :: rest => some (enter n { c with stack := rest } f.sequence (f.step + 1) f.starting)
    | .runReturns settled =>
      match c.stack with
      | [] => none
      | f :: rest =>
        some ((await { c with stack := rest } f.sequence f.step settled).leave f.sequence f.starting)
    | .runSettles m i settled =>
      match c.sequences[m]? with
      | none => none
      | some s =>
        if s.loop.handled (.run i) then some (c.modify m fun s => s.settle (.run i) settled) else none
    | .deadlineFires m =>
      match c.sequences[m]? with
      | none => none
      | some s =>
        if s.timerArmed ∧ c.stack = [] ∧ ∀ s ∈ c.sequences, s.loop.queue = [] then
          some (c.modify m State.fireDeadline)
        else none
    | .microtask m =>
      match c.sequences[m]? with
      | none => none
      | some s =>
        if c.stack = [] then
          s.loop.pop.map fun job => (c.modify m fun s => s.popped job.2).resume n m job.1.1 job.1.2
        else none

/-- The step is no obstacle: no call of the controller comes while a call of `shutdown` executes a
run. -/
def Clear (c : Controller) : ControllerEvent → Prop
  | .shutdown | .isShuttingDown => ∀ f ∈ c.stack, f.starting = false
  | _ => True

end Controller

/-- What repeat calls should see: one promise, each run called once, one exit at most, and
`isShuttingDown` true once a run was called. -/
structure Idempotent (c : Controller) : Prop where
  same_promise : ∀ p ∈ c.returned, ∀ q ∈ c.returned, p = q
  once : c.calls.Nodup
  one_exit : (c.sequences.map fun s => s.exits.length).sum ≤ 1
  shutting_down : ∀ read ∈ c.reads, 0 < read.1 → read.2 = true

variable {n i m : ℕ} {c d : Controller} {s t : State} {k : Reaction} {r : Settled} {starting : Bool}
  {e : ControllerEvent} {es : List ControllerEvent}

/-! ## The exits of one sequence -/

/-- An exit is still to be scheduled by the continuation of the race, or one was scheduled. -/
def ExitsOnce (s : State) : Prop :=
  s.loop.Live src .raceResume ∧ s.exits = [] ∨ ¬ s.loop.Live src .raceResume ∧ s.exits.length ≤ 1

theorem ExitsOnce.length_le (h : ExitsOnce s) : s.exits.length ≤ 1 := by
  rcases h with ⟨-, hnil⟩ | ⟨-, hle⟩
  · rw [hnil]
    exact Nat.zero_le _
  · exact hle

theorem ExitsOnce.congr (h : ExitsOnce s)
    (hlive : t.loop.Live src .raceResume ↔ s.loop.Live src .raceResume) (hexits : t.exits = s.exits) :
    ExitsOnce t := by
  rw [ExitsOnce, hlive, hexits]
  exact h

theorem ExitsOnce.settle (h : ExitsOnce s) (hwf : s.loop.WellFormed src) (p : Promise) :
    ExitsOnce (s.settle p r) :=
  h.congr (Loop.live_settle hwf) rfl

/-- A continuation other than that of the race leaves the exits as they are. -/
theorem ExitsOnce.popped (h : ExitsOnce s) (hwf : s.loop.WellFormed src)
    {loop : Loop Promise Reaction Value JsValue} (hpop : s.loop.pop = some ((k, r), loop))
    (hk : k ≠ .raceResume) : ExitsOnce (s.popped loop) := by
  refine h.congr ?_ rfl
  rw [State.popped, Loop.live_pop hwf hpop]
  exact and_iff_right hk.symm

/-- The continuation of the race was waited for, so no exit was scheduled before. -/
theorem ExitsOnce.raceResume (h : ExitsOnce s) (hwf : s.loop.WellFormed src)
    {loop : Loop Promise Reaction Value JsValue} (hpop : s.loop.pop = some ((.raceResume, r), loop)) :
    ExitsOnce (Shutdown.resume [] (s.popped loop) .raceResume r) := by
  have hnil : s.exits = [] := by
    rcases h with ⟨-, hnil⟩ | ⟨hnot, -⟩
    · exact hnil
    · exact absurd (Loop.live_of_pop hpop) hnot
  have hidle : ∀ r', ¬ ((s.popped loop).settle .shutdown r').loop.Live src .raceResume := by
    intro r'
    have hwf' : (s.popped loop).loop.WellFormed src := hwf.pop hpop
    rw [loop_settle, Loop.live_settle hwf', State.popped, Loop.live_pop hwf hpop]
    exact fun hlive => hlive.1 rfl
  cases r with
  | fulfilled outcome => exact Or.inr ⟨hidle _, by simp [Shutdown.resume, State.popped, hnil]⟩
  | rejected error => exact Or.inr ⟨hidle _, by simp [Shutdown.resume, State.popped, hnil]⟩

/-- A continuation other than that of a step keeps the loop over the steps and the exits. -/
theorem resume_race (hwf : s.loop.WellFormed src) (hexits : ExitsOnce s)
    {loop : Loop Promise Reaction Value JsValue} (hpop : s.loop.pop = some ((k, r), loop))
    (hk : ∀ i, k ≠ .stepResume i) :
    (Shutdown.resume [] (s.popped loop) k r).loop.WellFormed src ∧
      ExitsOnce (Shutdown.resume [] (s.popped loop) k r) ∧
      (Shutdown.resume [] (s.popped loop) k r).called = s.called ∧
      ∀ i, (Shutdown.resume [] (s.popped loop) k r).loop.Live src (.stepResume i) ↔
        s.loop.Live src (.stepResume i) := by
  have hwf' : (s.popped loop).loop.WellFormed src := hwf.pop hpop
  have hlive : ∀ p r' i, ((s.popped loop).settle p r').loop.Live src (.stepResume i) ↔
      s.loop.Live src (.stepResume i) := by
    intro p r' i
    rw [loop_settle, Loop.live_settle hwf', State.popped, Loop.live_pop hwf hpop]
    exact and_iff_right (hk i).symm
  -- each of them settles one promise
  cases k with
  | stepResume i => exact absurd rfl (hk i)
  | toComplete =>
    have hexits' := hexits.popped hwf hpop (by simp)
    cases r <;> exact ⟨hwf'.settle, hexits'.settle hwf' _, rfl, hlive _ _⟩
  | raceComplete => exact ⟨hwf'.settle, (hexits.popped hwf hpop (by simp)).settle hwf' _, rfl, hlive _ _⟩
  | raceDeadline => exact ⟨hwf'.settle, (hexits.popped hwf hpop (by simp)).settle hwf' _, rfl, hlive _ _⟩
  | raceResume =>
    have hexits' := hexits.raceResume hwf hpop
    cases r <;> exact ⟨hwf'.settle, hexits', rfl, hlive _ _⟩

namespace Controller

/-! ## A controller with one sequence -/

/-- What the call that started the sequence has done: it still executes a run and nothing else is
set up, or it has returned and `running` holds its promise. -/
def RaceStands (c : Controller) (s : State) (starting : Bool) : Prop :=
  if starting then
    c.running = none ∧ c.returned = [] ∧ s.exits = [] ∧
      ∀ k, (∀ i, k ≠ .stepResume i) → ¬ s.loop.Live src k
  else c.running = some 0 ∧ (∀ p ∈ c.returned, p = 0) ∧ ExitsOnce s

/-- Where the loop over the steps stands: it executes a run, awaits one or has come to the end. -/
inductive LoopStands (n : ℕ) (s : State) : List Frame → List ℕ → Bool → Prop
  | executing (i : ℕ) (starting : Bool) (hi : i < n)
    (hidle : ∀ j, ¬ s.loop.Live src (.stepResume j)) :
    LoopStands n s [⟨0, i, starting⟩] (List.range (i + 1)) starting
  | awaiting (i : ℕ) (hi : i < n) (hlive : ∀ j, s.loop.Live src (.stepResume j) ↔ j = i) :
    LoopStands n s [] (List.range (i + 1)) false
  | finished (hidle : ∀ j, ¬ s.loop.Live src (.stepResume j)) : LoopStands n s [] (List.range n) false

theorem LoopStands.congr {stack : List Frame} {calls : List ℕ} (h : LoopStands n s stack calls starting)
    (hlive : ∀ j, t.loop.Live src (.stepResume j) ↔ s.loop.Live src (.stepResume j)) :
    LoopStands n t stack calls starting := by
  cases h with
  | executing i starting hi hidle => exact .executing i starting hi fun j => by rw [hlive]; exact hidle j
  | awaiting i hi hlive' => exact .awaiting i hi fun j => by rw [hlive]; exact hlive' j
  | finished hidle => exact .finished fun j => by rw [hlive]; exact hidle j

/-- The controller has one sequence. -/
structure Single (n : ℕ) (c : Controller) (s : State) (starting : Bool) : Prop where
  sequences : c.sequences = [s]
  wellFormed : s.loop.WellFormed src
  race : c.RaceStands s starting
  loop : LoopStands n s c.stack c.calls starting

/-- The loop of the one sequence is about to call the run `i`, or at the end. -/
structure About (n : ℕ) (c : Controller) (s : State) (i : ℕ) (starting : Bool) : Prop where
  sequences : c.sequences = [s]
  wellFormed : s.loop.WellFormed src
  race : c.RaceStands s starting
  stack : c.stack = []
  calls : c.calls = List.range i
  le : i ≤ n
  idle : ∀ j, ¬ s.loop.Live src (.stepResume j)

/-- No call was made, or one has started the only sequence; and what was read is right. -/
structure Good (n : ℕ) (c : Controller) : Prop where
  sequences : (c.sequences = [] ∧ c.stack = [] ∧ c.running = none ∧ c.returned = [] ∧ c.calls = []) ∨
    ∃ s starting, c.Single n s starting
  reads : ∀ read ∈ c.reads, 0 < read.1 → read.2 = true

@[simp] theorem stack_modify {f : State → State} : (c.modify m f).stack = c.stack := rfl

@[simp] theorem calls_modify {f : State → State} : (c.modify m f).calls = c.calls := rfl

@[simp] theorem reads_modify {f : State → State} : (c.modify m f).reads = c.reads := rfl

theorem sequences_modify {f : State → State} (h : c.sequences = [s]) :
    (c.modify 0 f).sequences = [f s] := by
  rw [modify, h]
  rfl

@[simp] theorem reads_leave : (c.leave m starting).reads = c.reads := by
  cases starting <;> rfl

@[simp] theorem calls_leave : (c.leave m starting).calls = c.calls := by
  cases starting <;> rfl

@[simp] theorem stack_leave : (c.leave m starting).stack = c.stack := by
  cases starting <;> rfl

@[simp] theorem reads_enter : (c.enter n m i starting).reads = c.reads := by
  unfold enter
  split_ifs
  · rfl
  · rw [reads_leave, reads_modify]

/-- What keeps the promises of the race and the exits keeps where the race stands. -/
theorem RaceStands.congr (h : c.RaceStands s starting) (hrunning : d.running = c.running)
    (hreturned : d.returned = c.returned) (hexits : t.exits = s.exits)
    (hlive : ∀ k, (∀ i, k ≠ .stepResume i) → (t.loop.Live src k ↔ s.loop.Live src k)) :
    d.RaceStands t starting := by
  cases starting with
  | true =>
    obtain ⟨hnone, hnil, hexit, hidle⟩ := h
    refine ⟨hrunning.trans hnone, hreturned.trans hnil, hexits.trans hexit, fun k hk => ?_⟩
    rw [hlive k hk]
    exact hidle k hk
  | false =>
    obtain ⟨hsome, hzero, hexit⟩ := h
    refine ⟨hrunning.trans hsome, ?_, hexit.congr (hlive _ (by simp)) hexits⟩
    rwa [hreturned]

/-- The first await of a call: the race is set up, and the promise is assigned and returned. -/
theorem RaceStands.leave (h : c.RaceStands s starting) (hseq : c.sequences = [s])
    (hwf : s.loop.WellFormed src) :
    ∃ t, (c.leave 0 starting).sequences = [t] ∧ t.loop.WellFormed src ∧
      (c.leave 0 starting).RaceStands t false ∧
      ∀ j, t.loop.Live src (.stepResume j) ↔ s.loop.Live src (.stepResume j) := by
  cases starting with
  | true =>
    obtain ⟨-, hnil, hexit, hidle⟩ := h
    refine ⟨s.awaitRace, sequences_modify hseq, wellFormed_awaitRace hwf hidle,
      ⟨rfl, ?_, Or.inl ⟨?_, hexit⟩⟩, fun j => ?_⟩
    · intro p hp
      rw [Controller.leave, if_pos rfl, hnil] at hp
      exact List.mem_singleton.mp hp
    · rw [live_awaitRace]
      exact Or.inl rfl
    · rw [live_awaitRace]
      simp
  | false => exact ⟨s, hseq, hwf, h, fun _ => Iff.rfl⟩

/-- **The loop over the steps** calls the next run, or comes to the end. -/
theorem About.enter (h : About n c s i starting) :
    ∃ t starting', (c.enter n 0 i starting).Single n t starting' := by
  unfold Controller.enter
  split_ifs with hi
  · refine ⟨s.call i, starting, sequences_modify h.sequences, h.wellFormed,
      h.race.congr rfl rfl rfl fun _ _ => Iff.rfl, ?_⟩
    show LoopStands n (s.call i) (_ :: c.stack) (c.calls ++ [i]) starting
    rw [h.stack, h.calls, ← List.range_succ]
    exact .executing i starting hi h.idle
  · have hend : i = n := le_antisymm h.le (not_lt.mp hi)
    have hrace : (c.modify 0 fun s => s.settle .steps (.fulfilled .undefined)).RaceStands
        (s.settle .steps (.fulfilled .undefined)) starting :=
      h.race.congr rfl rfl rfl fun _ _ => Loop.live_settle h.wellFormed
    obtain ⟨t, hseq, hwf, hrace', hlive⟩ :=
      hrace.leave (sequences_modify h.sequences) h.wellFormed.settle
    refine ⟨t, false, hseq, hwf, hrace', ?_⟩
    rw [stack_leave, stack_modify, calls_leave, calls_modify, h.stack, h.calls, hend]
    apply LoopStands.finished
    intro j
    rw [hlive, loop_settle, Loop.live_settle h.wellFormed]
    exact h.idle j

/-- A run that returns a promise leaves the loop awaiting it. -/
theorem About.await (h : About n c s (i + 1) starting) (settled : Option Settled) :
    ∃ t, ((c.await 0 i settled).leave 0 starting).Single n t false := by
  have hwf : (settled.elim s (s.settle (.run i))).loop.WellFormed src := by
    cases settled with
    | none => exact h.wellFormed
    | some r => exact h.wellFormed.settle
  have hsettle : ∀ k, (settled.elim s (s.settle (.run i))).loop.Live src k ↔ s.loop.Live src k := by
    intro k
    cases settled with
    | none => exact Iff.rfl
    | some r => exact Loop.live_settle h.wellFormed
  have hexits : (settled.elim s (s.settle (.run i))).exits = s.exits := by
    cases settled <;> rfl
  have hlive : ∀ k, ((settled.elim s (s.settle (.run i))).subscribe (.stepResume i)).loop.Live src k ↔
      k = .stepResume i ∨ s.loop.Live src k := by
    intro k
    rw [loop_subscribe, Loop.live_subscribe rfl, hsettle]
  have hidle : ¬ (settled.elim s (s.settle (.run i))).loop.Live src (.stepResume i) := by
    rw [hsettle]
    exact h.idle i
  have hrace : (c.await 0 i settled).RaceStands
      ((settled.elim s (s.settle (.run i))).subscribe (.stepResume i)) starting := by
    refine h.race.congr rfl rfl hexits fun k hk => ?_
    rw [hlive]
    exact or_iff_right (hk i)
  obtain ⟨t, hseq, hwf', hrace', hlive'⟩ :=
    hrace.leave (sequences_modify h.sequences) (hwf.subscribe rfl hidle)
  refine ⟨t, hseq, hwf', hrace', ?_⟩
  rw [stack_leave, calls_leave, Controller.await, stack_modify, calls_modify, h.stack, h.calls]
  apply LoopStands.awaiting i h.le
  intro j
  rw [hlive', hlive, Reaction.stepResume.injEq]
  exact or_iff_left (h.idle j)

/-- The end of a run that executes finds the loop about to call the next one. -/
theorem Single.pop_frame {f : Frame} {rest : List Frame} (h : c.Single n s starting)
    (hstack : c.stack = f :: rest) :
    f.sequence = 0 ∧ About n { c with stack := rest } s (f.step + 1) f.starting := by
  obtain ⟨hseq, hwf, hrace, hloop⟩ := h
  rw [hstack] at hloop
  generalize c.calls = calls at hloop ⊢
  cases hloop with
  | executing i starting hi hidle =>
    exact ⟨rfl, hseq, hwf, hrace.congr rfl rfl rfl fun _ _ => Iff.rfl, rfl, rfl, hi, hidle⟩

/-- What changes neither the loop over the steps nor the race keeps the single sequence. -/
theorem Single.modify {f : State → State} (h : c.Single n s starting)
    (hwf : (f s).loop.WellFormed src) (hrace : (c.modify 0 f).RaceStands (f s) starting)
    (hlive : ∀ j, (f s).loop.Live src (.stepResume j) ↔ s.loop.Live src (.stepResume j)) :
    (c.modify 0 f).Single n (f s) starting := by
  exact ⟨sequences_modify h.sequences, hwf, hrace, h.loop.congr hlive⟩

/-- Settling a promise keeps the single sequence. -/
theorem Single.settle (h : c.Single n s starting) (p : Promise) (r : Settled) :
    (c.modify 0 fun s => s.settle p r).Single n (s.settle p r) starting :=
  h.modify h.wellFormed.settle (h.race.congr rfl rfl rfl fun _ _ => Loop.live_settle h.wellFormed)
    fun _ => Loop.live_settle h.wellFormed

/-- The deadline keeps the single sequence. -/
theorem Single.fireDeadline (h : c.Single n s starting) :
    (c.modify 0 State.fireDeadline).Single n s.fireDeadline starting :=
  h.modify h.wellFormed.settle (h.race.congr rfl rfl rfl fun _ _ => Loop.live_settle h.wellFormed)
    fun _ => Loop.live_settle h.wellFormed

/-- With no starting call on the stack, the call that started the sequence has returned. -/
theorem Single.returned_of_clear (h : c.Single n s starting)
    (hclear : ∀ f ∈ c.stack, f.starting = false) : starting = false := by
  have hloop := h.loop
  generalize c.stack = stack at hloop hclear
  generalize c.calls = calls at hloop
  cases hloop with
  | executing i starting hi hidle => exact hclear _ (List.mem_singleton.mpr rfl)
  | awaiting i hi hlive => rfl
  | finished hidle => rfl

/-- A call of `shutdown` after the first one has returned returns the same promise. -/
theorem Single.shutdown (h : c.Single n s false) : (c.shutdown n).Single n s false := by
  obtain ⟨hrunning, hzero, hexits⟩ := h.race
  have hcall : c.shutdown n = { c with returned := c.returned ++ [0] } := by
    rw [Controller.shutdown, hrunning]
  rw [hcall]
  refine ⟨h.sequences, h.wellFormed, ⟨hrunning, fun p hp => ?_, hexits⟩, h.loop⟩
  rcases List.mem_append.mp hp with hp | hp
  · exact hzero p hp
  · exact List.mem_singleton.mp hp

/-- The first call of `shutdown` starts the single sequence. -/
theorem about_first (hseq : c.sequences = []) (hstack : c.stack = []) (hrunning : c.running = none)
    (hreturned : c.returned = []) (hcalls : c.calls = []) :
    About n { c with sequences := c.sequences ++ [⟨.start, [], true, []⟩] } ⟨.start, [], true, []⟩ 0
      true where
  sequences := by
    rw [hseq]
    rfl
  wellFormed := Loop.wellFormed_start
  race := ⟨hrunning, hreturned, rfl, fun _ _ => Loop.not_live_start⟩
  stack := hstack
  calls := hcalls
  le := Nat.zero_le _
  idle _ := Loop.not_live_start

/-- With no run executing, the continuation of an awaited step finds the loop about to call the next
one. -/
theorem Single.pop_stepResume (h : c.Single n s starting) (hstack : c.stack = [])
    {loop : Loop Promise Reaction Value JsValue}
    (hpop : s.loop.pop = some ((.stepResume i, r), loop)) :
    About n (c.modify 0 fun s => s.popped loop) (s.popped loop) (i + 1) false := by
  have hlive : s.loop.Live src (.stepResume i) := Loop.live_of_pop hpop
  obtain ⟨hseq, hwf, hrace, hloop⟩ := h
  rw [hstack] at hloop
  generalize hcalls : c.calls = calls at hloop
  cases hloop with
  | awaiting k hk hlive' =>
    -- only the run it awaits can be the one that is over
    obtain rfl := (hlive' i).mp hlive
    obtain ⟨hrunning, hzero, hexits⟩ := hrace
    refine ⟨sequences_modify hseq, hwf.pop hpop,
      ⟨hrunning, hzero, hexits.popped hwf hpop (by simp)⟩, hstack, hcalls, hk, fun j => ?_⟩
    rw [State.popped, Loop.live_pop hwf hpop, hlive']
    rintro ⟨hne, rfl⟩
    exact hne rfl
  | finished hidle => exact absurd hlive (hidle i)

theorem Single.index {s' : State} (h : c.Single n s starting) (hm : c.sequences[m]? = some s') :
    m = 0 ∧ s' = s := by
  rw [h.sequences] at hm
  cases m with
  | zero => exact ⟨rfl, (Option.some.inj hm).symm⟩
  | succ m => cases hm

/-- **What a microtask preserves.** -/
theorem Single.microtask (h : c.Single n s starting) (hstack : c.stack = [])
    {loop : Loop Promise Reaction Value JsValue} (hpop : s.loop.pop = some ((k, r), loop)) :
    ∃ t starting', ((c.modify 0 fun s => s.popped loop).resume n 0 k r).Single n t starting' := by
  by_cases hk : ∃ i, k = .stepResume i
  · obtain ⟨i, rfl⟩ := hk
    exact (h.pop_stepResume hstack hpop).enter
  · -- the other continuations call no run
    obtain rfl := h.returned_of_clear (by simp [hstack])
    obtain ⟨hrunning, hzero, hexits⟩ := h.race
    have hne : ∀ i, k ≠ .stepResume i := fun i hi => hk ⟨i, hi⟩
    obtain ⟨hwf, hexits', -, hlive⟩ := resume_race h.wellFormed hexits hpop hne
    have hresume : (c.modify 0 fun s => s.popped loop).resume n 0 k r =
        c.modify 0 fun s => Shutdown.resume [] (s.popped loop) k r := by
      have hmodify : ∀ f g : State → State, (c.modify 0 f).modify 0 g = c.modify 0 (g ∘ f) := by
        intro f g
        simp only [Controller.modify, h.sequences]
        rfl
      cases k with
      | stepResume i => exact absurd rfl (hne i)
      | _ => exact hmodify _ _
    rw [hresume]
    exact ⟨_, false, h.modify hwf ⟨hrunning, hzero, hexits'⟩ hlive⟩

/-- The loop over the steps only adds to the calls. -/
theorem calls_prefix_enter {calls : List ℕ} (hcalls : c.calls = calls) :
    calls <+: (c.enter n m i starting).calls := by
  subst hcalls
  unfold enter
  split_ifs
  · exact List.prefix_append ..
  · rw [calls_leave, calls_modify]

/-- What each event does where it can happen, with what it finds there. -/
inductive Step (n : ℕ) (c : Controller) : ControllerEvent → Controller → Prop
  | shutdown : Step n c .shutdown (c.shutdown n)
  | isShuttingDown : Step n c .isShuttingDown
      { c with reads := c.reads ++ [(c.calls.length, c.isShuttingDown)] }
  | runThrows (error : JsValue) (f : Frame) (rest : List Frame) (executing : c.stack = f :: rest) :
      Step n c (.runThrows error)
        (enter n { c with stack := rest } f.sequence (f.step + 1) f.starting)
  | runReturns (settled : Option Settled) (f : Frame) (rest : List Frame)
      (executing : c.stack = f :: rest) : Step n c (.runReturns settled)
        ((await { c with stack := rest } f.sequence f.step settled).leave f.sequence f.starting)
  | runSettles (m i : ℕ) (settled : Settled) (s : State) (mem : c.sequences[m]? = some s) :
      Step n c (.runSettles m i settled) (c.modify m fun s => s.settle (.run i) settled)
  | deadlineFires (m : ℕ) (s : State) (mem : c.sequences[m]? = some s) :
      Step n c (.deadlineFires m) (c.modify m State.fireDeadline)
  | microtask (m : ℕ) (s : State) (k : Reaction) (r : Settled)
      (loop : Loop Promise Reaction Value JsValue) (mem : c.sequences[m]? = some s)
      (quiet : c.stack = []) (pop : s.loop.pop = some ((k, r), loop)) :
      Step n c (.microtask m) ((c.modify m fun s => s.popped loop).resume n m k r)

/-- **What a step does**: one case for each event. -/
theorem step_cases (hstep : (machine n).step c e = some d) : Step n c e d := by
  cases e with
  | shutdown =>
    obtain rfl := Option.some.inj hstep
    exact .shutdown
  | isShuttingDown =>
    obtain rfl := Option.some.inj hstep
    exact .isShuttingDown
  | runThrows error =>
    simp only [machine] at hstep
    split at hstep
    · cases hstep
    · next f rest hstack =>
      obtain rfl := Option.some.inj hstep
      exact .runThrows error f rest hstack
  | runReturns settled =>
    simp only [machine] at hstep
    split at hstep
    · cases hstep
    · next f rest hstack =>
      obtain rfl := Option.some.inj hstep
      exact .runReturns settled f rest hstack
  | runSettles m i settled =>
    simp only [machine] at hstep
    split at hstep
    · cases hstep
    · next s hm =>
      split_ifs at hstep
      obtain rfl := Option.some.inj hstep
      exact .runSettles m i settled s hm
  | deadlineFires m =>
    simp only [machine] at hstep
    split at hstep
    · cases hstep
    · next s hm =>
      split_ifs at hstep
      obtain rfl := Option.some.inj hstep
      exact .deadlineFires m s hm
  | microtask m =>
    simp only [machine] at hstep
    split at hstep
    · cases hstep
    · next s hm =>
      split_ifs at hstep with hstack
      obtain ⟨⟨⟨k, r⟩, loop⟩, hpop, rfl⟩ := Option.map_eq_some_iff.mp hstep
      exact .microtask m s k r loop hm hstack hpop

/-- A continuation calls runs of the loop over the steps, or none. -/
theorem recorded_resume (k : Reaction) (r : Settled) :
    c.calls <+: (c.resume n m k r).calls ∧ (c.resume n m k r).reads = c.reads := by
  cases k with
  | stepResume i => exact ⟨calls_prefix_enter rfl, reads_enter⟩
  | _ => exact ⟨List.prefix_rfl, rfl⟩

/-- A step only adds to what is recorded. -/
theorem recorded_of_step (hstep : (machine n).step c e = some d) :
    c.calls <+: d.calls ∧ c.reads <+: d.reads := by
  cases step_cases hstep with
  | shutdown =>
    unfold Controller.shutdown
    split
    · exact ⟨List.prefix_rfl, List.prefix_rfl⟩
    · rw [reads_enter]
      exact ⟨calls_prefix_enter rfl, List.prefix_rfl⟩
  | isShuttingDown => exact ⟨List.prefix_rfl, List.prefix_append ..⟩
  | runThrows error f rest =>
    -- the catch goes on with the loop over the steps
    rw [reads_enter]
    exact ⟨calls_prefix_enter rfl, List.prefix_rfl⟩
  | runReturns settled f rest =>
    -- the returned promise is awaited, and no run is called
    rw [reads_leave, calls_leave]
    exact ⟨List.prefix_rfl, List.prefix_rfl⟩
  | runSettles m i settled s => exact ⟨List.prefix_rfl, List.prefix_rfl⟩
  | deadlineFires m s => exact ⟨List.prefix_rfl, List.prefix_rfl⟩
  | microtask m s k r loop =>
    obtain ⟨hcalls, hreads⟩ := recorded_resume (c := c.modify m fun s => s.popped loop) k r
    rw [hreads]
    exact ⟨hcalls, List.prefix_rfl⟩

/-- A call of `shutdown` starts the single sequence or returns its promise. -/
theorem Good.shutdown (h : c.Good n) (hclear : c.Clear .shutdown) : (c.shutdown n).Good n := by
  obtain ⟨hseq, hreads⟩ := h
  rcases hseq with ⟨hseq, hstack, hrunning, hreturned, hcalls⟩ | ⟨s, starting, hsingle⟩
  · -- the first call
    have henter := (about_first hseq hstack hrunning hreturned hcalls).enter (n := n)
    have hcall : c.shutdown n =
        enter n { c with sequences := c.sequences ++ [⟨.start, [], true, []⟩] } 0 0 true := by
      rw [Controller.shutdown, hrunning, hseq]
      rfl
    rw [hcall]
    refine ⟨Or.inr henter, ?_⟩
    rwa [reads_enter]
  · -- a later call finds `running` assigned
    obtain rfl := hsingle.returned_of_clear hclear
    have hcall : (c.shutdown n).reads = c.reads := by
      rw [Controller.shutdown, hsingle.race.1]
    refine ⟨Or.inr ⟨s, false, hsingle.shutdown⟩, ?_⟩
    rwa [hcall]

/-- Once a run was called, `isShuttingDown` answers truthfully: `running` is assigned. -/
theorem Good.isShuttingDown (h : c.Good n) (hclear : c.Clear .isShuttingDown) :
    Good n { c with reads := c.reads ++ [(c.calls.length, c.isShuttingDown)] } := by
  obtain ⟨hseq, hreads⟩ := h
  refine ⟨?_, fun read hread hpos => ?_⟩
  · rcases hseq with hnone | ⟨s, starting, hsingle⟩
    · exact Or.inl hnone
    · exact Or.inr ⟨s, starting, hsingle.sequences, hsingle.wellFormed,
        hsingle.race.congr rfl rfl rfl fun _ _ => Iff.rfl, hsingle.loop⟩
  · rcases List.mem_append.mp hread with hread | hread
    · exact hreads read hread hpos
    · obtain rfl := List.mem_singleton.mp hread
      rcases hseq with ⟨-, -, -, -, hcalls⟩ | ⟨s, starting, hsingle⟩
      · rw [hcalls] at hpos
        cases hpos
      · obtain rfl := hsingle.returned_of_clear hclear
        show c.running.isSome = true
        rw [hsingle.race.1]
        rfl

/-- A controller with a run that executes has started its sequence. -/
theorem Good.single_of_stack {f : Frame} {rest : List Frame} (h : c.Good n)
    (hstack : c.stack = f :: rest) : ∃ s starting, c.Single n s starting := by
  rcases h.sequences with ⟨-, hnil, -⟩ | hsingle
  · rw [hnil] at hstack
    cases hstack
  · exact hsingle

/-- What is found among the sequences of a controller is the one that it has started. -/
theorem Good.single_of_mem {s : State} (h : c.Good n) (hm : c.sequences[m]? = some s) :
    m = 0 ∧ ∃ starting, c.Single n s starting := by
  rcases h.sequences with ⟨hnil, -⟩ | ⟨t, starting, hsingle⟩
  · rw [hnil] at hm
    cases hm
  · obtain ⟨rfl, rfl⟩ := hsingle.index hm
    exact ⟨rfl, starting, hsingle⟩

/-- **What a step that is no obstacle preserves.** -/
theorem good_step (h : c.Good n) (hclear : c.Clear e) (hstep : (machine n).step c e = some d) :
    d.Good n := by
  have hreads := h.reads
  cases step_cases hstep with
  | shutdown => exact h.shutdown hclear
  | isShuttingDown => exact h.isShuttingDown hclear
  | runThrows error f rest hstack =>
    -- the loop over the steps goes on to the next run
    obtain ⟨s, starting, hsingle⟩ := h.single_of_stack hstack
    obtain ⟨hzero, habout⟩ := hsingle.pop_frame hstack
    rw [hzero]
    refine ⟨Or.inr habout.enter, ?_⟩
    rwa [reads_enter]
  | runReturns settled f rest hstack =>
    -- the loop awaits the run, so the call that started the sequence has returned
    obtain ⟨s, starting, hsingle⟩ := h.single_of_stack hstack
    obtain ⟨hzero, habout⟩ := hsingle.pop_frame hstack
    obtain ⟨t, ht⟩ := habout.await settled
    rw [hzero]
    refine ⟨Or.inr ⟨t, false, ht⟩, ?_⟩
    rwa [reads_leave]
  | runSettles m i settled s hm =>
    obtain ⟨rfl, starting, hsingle⟩ := h.single_of_mem hm
    exact ⟨Or.inr ⟨_, starting, hsingle.settle _ _⟩, hreads⟩
  | deadlineFires m s hm =>
    obtain ⟨rfl, starting, hsingle⟩ := h.single_of_mem hm
    exact ⟨Or.inr ⟨_, starting, hsingle.fireDeadline⟩, hreads⟩
  | microtask m s k r loop hm hstack hpop =>
    obtain ⟨rfl, starting, hsingle⟩ := h.single_of_mem hm
    refine ⟨Or.inr (hsingle.microtask hstack hpop), ?_⟩
    rw [(recorded_resume k r).2]
    exact hreads

/-! ## Calls while the first call executes -/

/-- A run was called twice, or `isShuttingDown` has denied a shutdown that had called a run. -/
def Broken (c : Controller) : Prop :=
  ¬ c.calls.Nodup ∨ ∃ read ∈ c.reads, 0 < read.1 ∧ read.2 = false

/-- **A call while the first call executes breaks the controller.** -/
theorem broken_of_not_clear (h : c.Good n) (hclear : ¬ c.Clear e)
    (hstep : (machine n).step c e = some d) : d.Broken := by
  -- a run is executing, called by the first call, and `running` is not assigned
  have hexecuting : ∀ f ∈ c.stack, f.starting = true →
      ∃ i < n, c.calls = List.range (i + 1) ∧ c.running = none := by
    intro f hf hstarting
    rcases h.sequences with ⟨-, hnil, -⟩ | ⟨s, starting, hsingle⟩
    · rw [hnil] at hf
      cases hf
    · obtain ⟨-, -, hrace, hloop⟩ := hsingle
      generalize c.stack = stack at hloop hf
      generalize hcalls : c.calls = calls at hloop
      cases hloop with
      | executing i starting hi hidle =>
        rw [List.mem_singleton.mp hf] at hstarting
        obtain rfl : starting = true := hstarting
        exact ⟨i, hi, rfl, hrace.1⟩
      | awaiting i hi hlive => cases hf
      | finished hidle => cases hf
  cases e with
  | shutdown =>
    obtain rfl := Option.some.inj hstep
    obtain ⟨f, hf, hstarting⟩ : ∃ f ∈ c.stack, f.starting = true := by simpa [Clear] using hclear
    obtain ⟨i, hi, hcalls, hrunning⟩ := hexecuting f hf hstarting
    -- the guard is open, so the call starts a sequence that calls the first step again
    have hagain : (c.shutdown n).calls = List.range (i + 1) ++ [0] := by
      rw [Controller.shutdown, hrunning, ← hcalls]
      unfold enter
      rw [if_pos (by omega)]
    refine Or.inl fun hnodup => ?_
    rw [hagain] at hnodup
    exact (List.nodup_append.mp hnodup).2.2 0 (by simp) 0 (by simp) rfl
  | isShuttingDown =>
    obtain rfl := Option.some.inj hstep
    obtain ⟨f, hf, hstarting⟩ : ∃ f ∈ c.stack, f.starting = true := by simpa [Clear] using hclear
    obtain ⟨i, hi, hcalls, hrunning⟩ := hexecuting f hf hstarting
    refine Or.inr ⟨_, List.mem_append_right _ (List.mem_singleton.mpr rfl), ?_, ?_⟩
    · rw [hcalls]
      simp
    · show c.running.isSome = false
      rw [hrunning]
      rfl
  | _ => exact absurd trivial hclear

theorem Broken.step (h : c.Broken) (hstep : (machine n).step c e = some d) : d.Broken := by
  obtain ⟨hcalls, hreads⟩ := recorded_of_step hstep
  rcases h with hdup | ⟨read, hread, hfalse⟩
  · exact Or.inl fun hnodup => hdup (hnodup.sublist hcalls.sublist)
  · exact Or.inr ⟨read, hreads.subset hread, hfalse⟩

theorem Broken.not_idempotent (h : c.Broken) : ¬ Idempotent c := by
  rintro ⟨-, hnodup, -, hreads⟩
  rcases h with hdup | ⟨read, hread, hpos, hfalse⟩
  · exact hdup hnodup
  · have htrue := hreads read hread hpos
    rw [hfalse] at htrue
    cases htrue

theorem Good.idempotent (h : c.Good n) : Idempotent c := by
  obtain ⟨hseq, hreads⟩ := h
  rcases hseq with ⟨hseq, -, -, hreturned, hcalls⟩ | ⟨s, starting, hseq, -, hrace, hloop⟩
  · refine ⟨by simp [hreturned], by simp [hcalls], by simp [hseq], hreads⟩
  · have hzero : (∀ p ∈ c.returned, p = 0) ∧ s.exits.length ≤ 1 := by
      cases starting with
      | true => exact ⟨by simp [hrace.2.1], by simp [hrace.2.2.1]⟩
      | false => exact ⟨hrace.2.1, hrace.2.2.length_le⟩
    refine ⟨fun p hp q hq => ?_, ?_, by simpa [hseq] using hzero.2, hreads⟩
    · rw [hzero.1 p hp, hzero.1 q hq]
    · generalize c.stack = stack at hloop
      generalize c.calls = calls at hloop
      cases hloop <;> exact List.nodup_range

theorem good_start : start.Good n :=
  ⟨Or.inl ⟨rfl, rfl, rfl, rfl, rfl⟩, fun _ hread => absurd hread List.not_mem_nil⟩

end Controller

/-- **Repeat calls are idempotent exactly when none is made while the first call executes**: for
every number of steps and every run, whatever the runs of the steps do and whenever they settle and
the deadline fires. -/
theorem idempotent_iff (hrun : (Controller.machine n).run .start es = some c) :
    Idempotent c ↔ (Controller.machine n).StepsMeet Controller.Clear .start es :=
  Machine.run_iff (fun _ _ _ hI hG hstep => Controller.good_step hI hG hstep)
    (fun _ _ _ hI hG hstep => Controller.broken_of_not_clear hI hG hstep)
    (fun _ _ _ hD hstep => hD.step hstep) (fun _ => Controller.Good.idempotent)
    (fun _ => Controller.Broken.not_idempotent) Controller.good_start hrun

/-- A signal, the first step's promise, a second signal and a read, and the end of the shutdown. -/
def twoSignals : List ControllerEvent :=
  [.shutdown, .runReturns none, .shutdown, .isShuttingDown, .runSettles 0 0 (.fulfilled .undefined),
    .microtask 0, .microtask 0, .microtask 0, .microtask 0, .shutdown]

/-- Calls after the first one has returned are repeats of it. -/
theorem idempotent_iff_twoSignals : ∃ c, (Controller.machine 1).run .start twoSignals = some c ∧
    c.returned = [0, 0, 0] ∧
    (Idempotent c ↔ (Controller.machine 1).StepsMeet Controller.Clear .start twoSignals) := by
  obtain ⟨c, hrun, hreturned⟩ : ∃ c,
      (Controller.machine 1).run .start twoSignals = some c ∧ c.returned = [0, 0, 0] := ⟨_, rfl, rfl⟩
  exact ⟨c, hrun, hreturned, idempotent_iff hrun⟩

/-- The first step's run calls `shutdown` and reads `isShuttingDown`: its own run is called again,
the two calls return different promises, and the shutdown it is part of is denied. -/
theorem reentrant_shutdown_runs_twice : ∃ c,
    (Controller.machine 1).run .start
        [.shutdown, .isShuttingDown, .shutdown, .runReturns none, .runReturns none] = some c ∧
      c.calls = [0, 0] ∧ c.returned = [1, 0] ∧ c.reads = [(1, false)] ∧ ¬ Idempotent c := by
  refine ⟨_, rfl, rfl, rfl, rfl, fun h => ?_⟩
  exact absurd h.once (by decide)

end Shutdown

end QueueWorkerKit
