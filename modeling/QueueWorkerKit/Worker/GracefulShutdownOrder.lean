import QueueWorkerKit.Worker.GracefulShutdown

/-!
# Ordered shutdown within a deadline

The two halves of a shutdown have an invariant each. The loop over the steps has called a first
part of the list and awaits the last run it called, or has come to the end. The race is undecided
with both of its entries waiting, or was decided for the one that came first; a deadline that fires
finds the queue empty, so its entry is taken before whatever the loop does afterwards.

## Main definitions

* `StepsInv`, `RaceInv`: the invariants of the two halves
* `OrderlyShutdown`: what a shutdown guarantees after a run

## Main results

* `AboutToCall.runFrom`: what the loop over the steps does up to its next await
* `inv_step`: what a step preserves
* `exists_drained`: microtasks run out
* `orderly_shutdown`: **every run of a shutdown is orderly**
-/

namespace QueueWorkerKit

open Ecma EventDriven

namespace Shutdown

variable {steps : List StepRun} {s t u : State} {i j : ℕ} {p q : Promise} {k : Reaction}
  {r : Settled} {e : Event} {hist : List Event} {fired fired' : Prop}

/-! ## The loop over the steps -/

/-- The loop is about to call the run `i`: it has called the ones before, which are over. -/
structure AboutToCall (steps : List StepRun) (s : State) (i : ℕ) : Prop where
  wellFormed : s.loop.WellFormed src
  called : s.called = List.range i
  before : ∀ j < i, StepSettled steps s j
  uncalled : ∀ j, i ≤ j → s.loop.settled (.run j) = none
  pending : s.loop.settled .steps = none
  idle : ∀ j, ¬ s.loop.Live src (.stepResume j)

/-- The loop awaits the run `k`, the last one it has called. -/
structure Awaiting (steps : List StepRun) (s : State) (k : ℕ) : Prop where
  called : s.called = List.range (k + 1)
  returned : ∃ r, steps[k]? = some (.returns r)
  pending : s.loop.settled .steps = none
  live : ∀ j, s.loop.Live src (.stepResume j) ↔ j = k

/-- The loop has come to the end of the list. -/
structure Finished (steps : List StepRun) (s : State) : Prop where
  called : s.called = List.range steps.length
  all : ∀ j < steps.length, StepSettled steps s j
  settled : s.loop.settled .steps = some (.fulfilled .undefined)
  idle : ∀ j, ¬ s.loop.Live src (.stepResume j)

/-- What holds of the loop over the steps between two continuations. -/
structure StepsInv (steps : List StepRun) (s : State) : Prop where
  wellFormed : s.loop.WellFormed src
  before : ∀ j, j + 1 ∈ s.called → StepSettled steps s j
  uncalled : ∀ j, j ∉ s.called → s.loop.settled (.run j) = none
  phase : (∃ k, Awaiting steps s k) ∨ Finished steps s

theorem StepSettled.frame (h : KeepsSteps s t) (hs : StepSettled steps s i) :
    StepSettled steps t i := by
  obtain ⟨hcalled, hover⟩ := hs
  exact ⟨by rwa [h.called], hover.imp_right fun hne => by rwa [h.run]⟩

/-- What leaves the loop over the steps alone keeps its invariant. -/
theorem StepsInv.frame (h : KeepsSteps s t) (hwf : t.loop.WellFormed src)
    (hs : StepsInv steps s) : StepsInv steps t where
  wellFormed := hwf
  before j hj := (hs.before j (by rwa [h.called] at hj)).frame h
  uncalled j hj := by
    rw [h.run]
    exact hs.uncalled j (by rwa [h.called] at hj)
  phase := by
    rcases hs.phase with ⟨k, hk⟩ | hfin
    · refine Or.inl ⟨k, by rw [h.called, hk.called], hk.returned, by rw [h.steps, hk.pending], ?_⟩
      intro j
      rw [h.live, hk.live]
    · refine Or.inr ⟨by rw [h.called, hfin.called], fun j hj => (hfin.all j hj).frame h,
        by rw [h.steps, hfin.settled], ?_⟩
      intro j
      rw [h.live]
      exact hfin.idle j

/-- A call of the run `i` that throws leaves the loop about to call the next one. -/
theorem AboutToCall.throws (h : AboutToCall steps s i) {error : JsValue}
    (hi : steps[i]? = some (.throws error)) : AboutToCall steps (s.call i) (i + 1) where
  wellFormed := h.wellFormed
  called := by rw [called_call, h.called, List.range_succ]
  before j hj := by
    rcases Nat.lt_succ_iff_lt_or_eq.mp hj with hj | rfl
    · obtain ⟨hcalled, hover⟩ := h.before j hj
      exact ⟨List.mem_append_left _ hcalled, hover⟩
    · exact ⟨by simp, Or.inl ⟨error, hi⟩⟩
  uncalled j hj := h.uncalled j (by omega)
  pending := h.pending
  idle := h.idle

/-- A call of the run `i` that returns a promise, settled or not, leaves the loop awaiting it. -/
theorem AboutToCall.returns (h : AboutToCall steps s i) {r : Option Settled}
    (hi : steps[i]? = some (.returns r)) (hwf : t.loop.WellFormed src)
    (hkeep : ∀ q, q ≠ .run i → t.loop.settled q = s.loop.settled q)
    (hlive : ∀ k, t.loop.Live src k ↔ s.loop.Live src k) (hcalled : t.called = s.called ++ [i]) :
    StepsInv steps (t.subscribe (.stepResume i)) := by
  have hcalled' : t.called = List.range (i + 1) := by rw [hcalled, h.called, List.range_succ]
  have hidle : ¬ t.loop.Live src (.stepResume i) := by
    rw [hlive]
    exact h.idle i
  refine ⟨hwf.subscribe rfl hidle, ?_, ?_, Or.inl ⟨i, ?_⟩⟩
  · intro j hj
    rw [called_subscribe, hcalled', List.mem_range] at hj
    obtain ⟨hmem, hover⟩ := h.before j (by omega)
    refine ⟨by rw [called_subscribe, hcalled]; exact List.mem_append_left _ hmem, ?_⟩
    rw [loop_subscribe, Loop.settled_subscribe, hkeep _ (by simp only [ne_eq, Promise.run.injEq]; omega)]
    exact hover
  · intro j hj
    rw [called_subscribe, hcalled', List.mem_range] at hj
    rw [loop_subscribe, Loop.settled_subscribe, hkeep _ (by simp only [ne_eq, Promise.run.injEq]; omega)]
    exact h.uncalled j (by omega)
  · refine ⟨hcalled', ⟨r, hi⟩, ?_, fun j => ?_⟩
    · rw [loop_subscribe, Loop.settled_subscribe, hkeep _ (by simp)]
      exact h.pending
    · rw [loop_subscribe, Loop.live_subscribe rfl, hlive, Reaction.stepResume.injEq]
      exact or_iff_left (h.idle j)

/-- The end of the list finishes the loop. -/
theorem AboutToCall.finish (h : AboutToCall steps s steps.length) :
    StepsInv steps (s.settle .steps (.fulfilled .undefined)) := by
  have hover : ∀ j < steps.length, StepSettled steps (s.settle .steps (.fulfilled .undefined)) j := by
    intro j hj
    obtain ⟨hcalled, hover⟩ := h.before j hj
    exact ⟨hcalled, by rwa [loop_settle, Loop.settled_settle_of_ne (by simp)]⟩
  refine ⟨h.wellFormed.settle, ?_, ?_, Or.inr ⟨h.called, hover, ?_, ?_⟩⟩
  · intro j hj
    rw [called_settle, h.called, List.mem_range] at hj
    exact hover j (by omega)
  · intro j hj
    rw [called_settle, h.called, List.mem_range] at hj
    rw [loop_settle, Loop.settled_settle_of_ne (by simp)]
    exact h.uncalled j (by omega)
  · rw [loop_settle, Loop.settled_settle_self, h.pending, Option.getD_none]
  · intro j
    rw [loop_settle, Loop.live_settle h.wellFormed]
    exact h.idle j

/-- **The loop over the steps**, from a run it is about to call: it keeps the race, and ends up
awaiting a run or at the end of the list. -/
theorem AboutToCall.runFrom {rest : List StepRun} (h : AboutToCall steps s i)
    (hrest : steps.drop i = rest) (hi : i ≤ steps.length) :
    StepsInv steps (runFrom s i rest) ∧ KeepsRace s (runFrom s i rest) := by
  -- Induction on the steps left: only a call that throws goes on to the next one at once.
  induction rest generalizing s i with
  | nil =>
    have hend : i = steps.length := le_antisymm hi (List.drop_eq_nil_iff.mp hrest)
    subst hend
    exact ⟨h.finish, keepsRace_settle h.wellFormed (Or.inr rfl)⟩
  | cons run rest ih =>
    obtain ⟨hget, hlt, hrest'⟩ := drop_cons hrest
    match run with
    | .throws error =>
      -- the catch logs the error, and the loop goes on
      obtain ⟨hinv, hkeep⟩ := ih (h.throws hget) hrest' hlt
      exact ⟨hinv, keepsRace_call.trans hkeep⟩
    | .returns none =>
      -- a pending promise is awaited
      refine ⟨h.returns (t := s.call i) hget h.wellFormed (fun _ _ => rfl) (fun _ => Iff.rfl) rfl, ?_⟩
      exact keepsRace_call.trans keepsRace_subscribe
    | .returns (some r) =>
      -- a settled promise is awaited all the same, for one microtask
      have hwf : (s.call i).loop.WellFormed src := h.wellFormed
      refine ⟨h.returns (t := (s.call i).settle (.run i) r) hget hwf.settle
        (fun q hq => Loop.settled_settle_of_ne hq) (fun k => Loop.live_settle h.wellFormed) rfl, ?_⟩
      exact keepsRace_call.trans
        ((keepsRace_settle hwf (Or.inl ⟨i, rfl⟩)).trans keepsRace_subscribe)

/-! ## The race -/

/-- The deadline's entry of the race is the next microtask. -/
def DeadlineNext (s : State) : Prop :=
  ∃ rest, s.loop.queue = (.raceDeadline, .fulfilled .timeout) :: rest

/-- What holds of the race when the deadline has `fired` or not. -/
structure RaceInv (fired : Prop) (s : State) : Prop where
  toComplete : s.loop.Live src .toComplete ↔ s.loop.settled .complete = none
  complete : s.loop.settled .complete = none ∨
    s.loop.settled .complete = some (.fulfilled .complete) ∧ s.loop.settled .steps ≠ none
  deadline : ¬ fired ∧ s.loop.settled .deadline = none ∨
    fired ∧ s.loop.settled .deadline = some (.fulfilled .timeout)
  entries : s.loop.settled .race = none →
    s.loop.Live src .raceComplete ∧ s.loop.Live src .raceDeadline
  race : s.loop.settled .race = none ∧ (fired → DeadlineNext s) ∨
    s.loop.settled .race = some (.fulfilled .complete) ∧ ¬ fired ∧
      s.loop.settled .complete ≠ none ∨
    s.loop.settled .race = some (.fulfilled .timeout) ∧ fired
  raceResume : s.loop.Live src .raceResume ↔ s.loop.settled .shutdown = none
  shutdown : s.loop.settled .shutdown = none ∧ s.exits = [] ∨
    s.loop.settled .shutdown = some (.fulfilled .undefined) ∧ s.loop.settled .race ≠ none ∧
      (fired ∧ s.exits = [1] ∨ ¬ fired ∧ s.exits = [0])
  timer : s.timerArmed = true ↔ ¬ fired ∧ s.loop.settled .shutdown = none

theorem DeadlineNext.append (h : DeadlineNext s) {jobs : List (Reaction × Settled)}
    (ht : t.loop.queue = s.loop.queue ++ jobs) : DeadlineNext t := by
  obtain ⟨rest, hrest⟩ := h
  exact ⟨rest ++ jobs, by rw [ht, hrest, List.cons_append]⟩

/-- No exit is scheduled before the shutdown is over. -/
theorem RaceInv.exits_eq_nil (hs : RaceInv fired s) (hpending : s.loop.settled .shutdown = none) :
    s.exits = [] := by
  rcases hs.shutdown with ⟨-, hexits⟩ | ⟨hdone, -⟩
  · exact hexits
  · rw [hpending] at hdone
    cases hdone

/-- What leaves the race alone keeps its invariant. -/
theorem RaceInv.frame (h : KeepsRace s t) (hs : RaceInv fired s) : RaceInv fired t := by
  obtain ⟨jobs, hjobs⟩ := h.queue
  have hcomplete := h.settled .complete (by simp) (by simp)
  have hdeadline := h.settled .deadline (by simp) (by simp)
  have hrace := h.settled .race (by simp) (by simp)
  have hshutdown := h.settled .shutdown (by simp) (by simp)
  constructor
  · rw [h.live _ (by simp), hcomplete]
    exact hs.toComplete
  · rw [hcomplete]
    exact hs.complete.imp_right fun hc => ⟨hc.1, h.steps hc.2⟩
  · rw [hdeadline]
    exact hs.deadline
  · rw [hrace, h.live _ (by simp), h.live _ (by simp)]
    exact hs.entries
  · rw [hrace, hcomplete]
    exact hs.race.imp_left fun hr => ⟨hr.1, fun hf => (hr.2 hf).append hjobs⟩
  · rw [h.live _ (by simp), hshutdown]
    exact hs.raceResume
  · rw [hshutdown, hrace, h.exits]
    exact hs.shutdown
  · rw [hshutdown, h.timerArmed]
    exact hs.timer

/-- The state after a microtask was taken from the queue. -/
def State.popped (s : State) (loop : Loop Promise Reaction Value JsValue) : State := { s with loop }

/-- A microtask that is not the deadline's entry is taken when the race is not waiting for that. -/
theorem RaceInv.not_deadlineNext (hs : RaceInv fired s)
    {loop : Loop Promise Reaction Value JsValue} (hpop : s.loop.pop = some ((k, r), loop))
    (hk : k ≠ .raceDeadline) (hrace : s.loop.settled .race = none) : ¬ fired := by
  intro hfired
  obtain ⟨rest, hq, -⟩ := Loop.pop_eq_some.mp hpop
  rcases hs.race with ⟨-, hnext⟩ | ⟨hr, -⟩ | ⟨hr, -⟩
  · -- an undecided race after the deadline would have had its entry taken instead
    obtain ⟨rest', hrest'⟩ := hnext hfired
    rw [hq] at hrest'
    cases hrest'
    exact hk rfl
  · rw [hrace] at hr
    cases hr
  · rw [hrace] at hr
    cases hr

/-- Taking the continuation of a step from the queue keeps the race. -/
theorem RaceInv.pop_stepResume (hs : RaceInv fired s) (hwf : s.loop.WellFormed src)
    {loop : Loop Promise Reaction Value JsValue}
    (hpop : s.loop.pop = some ((.stepResume i, r), loop)) : RaceInv fired (s.popped loop) := by
  have hsettled : (s.popped loop).loop.settled = s.loop.settled := Loop.settled_pop hpop
  have hlive : ∀ k, (∀ i, k ≠ .stepResume i) →
      ((s.popped loop).loop.Live src k ↔ s.loop.Live src k) := by
    intro k hk
    rw [State.popped, Loop.live_pop hwf hpop]
    exact and_iff_right (hk i)
  constructor
  · rw [hlive _ (by simp), hsettled]
    exact hs.toComplete
  · rw [hsettled]
    exact hs.complete
  · rw [hsettled]
    exact hs.deadline
  · rw [hsettled, hlive _ (by simp), hlive _ (by simp)]
    exact hs.entries
  · rw [hsettled]
    rcases hs.race with ⟨hnone, -⟩ | hdecided
    · exact Or.inl ⟨hnone, fun hf => absurd hf (hs.not_deadlineNext hpop (by simp) hnone)⟩
    · exact Or.inr hdecided
  · rw [hlive _ (by simp), hsettled]
    exact hs.raceResume
  · rw [hsettled]
    exact hs.shutdown
  · rw [hsettled]
    exact hs.timer

/-- The promises and the live continuations after a continuation of the race has settled a
promise. -/
theorem popped_settle {loop : Loop Promise Reaction Value JsValue} (hwf : s.loop.WellFormed src)
    (hpop : s.loop.pop = some ((k, r), loop)) (p : Promise) (r' : Settled) :
    ((s.popped loop).settle p r').loop.WellFormed src ∧
      (∀ q, q ≠ p → ((s.popped loop).settle p r').loop.settled q = s.loop.settled q) ∧
      ((s.popped loop).settle p r').loop.settled p = some ((s.loop.settled p).getD r') ∧
      ∀ k', ((s.popped loop).settle p r').loop.Live src k' ↔ k' ≠ k ∧ s.loop.Live src k' := by
  have hwf' : (s.popped loop).loop.WellFormed src := hwf.pop hpop
  have hsettled : (s.popped loop).loop.settled = s.loop.settled := Loop.settled_pop hpop
  refine ⟨hwf'.settle, fun q hq => ?_, ?_, fun k' => ?_⟩
  · rw [loop_settle, Loop.settled_settle_of_ne hq, hsettled]
  · rw [loop_settle, Loop.settled_settle_self, hsettled]
  · rw [loop_settle, Loop.live_settle hwf']
    exact Loop.live_pop hwf hpop

/-- The `then` on the loop over the steps keeps the race. -/
theorem RaceInv.toComplete_step (hs : RaceInv fired s) (hwf : s.loop.WellFormed src)
    {loop : Loop Promise Reaction Value JsValue} (hpop : s.loop.pop = some ((.toComplete, r), loop)) :
    RaceInv fired ((s.popped loop).settle .complete (.fulfilled .complete)) := by
  obtain ⟨-, hother, hself, hlive⟩ := popped_settle hwf hpop .complete (.fulfilled .complete)
  have hpending : s.loop.settled .complete = none := hs.toComplete.mp (Loop.live_of_pop hpop)
  have hsteps : s.loop.settled .steps = some r := hwf.settled_of_pop hpop
  rw [hpending, Option.getD_none] at hself
  constructor
  · rw [hlive, hself]
    simp
  · exact Or.inr ⟨hself, by rw [hother _ (by simp), hsteps]; simp⟩
  · rw [hother _ (by simp)]
    exact hs.deadline
  · rw [hother _ (by simp), hlive, hlive]
    intro hrace
    exact ⟨⟨by simp, (hs.entries hrace).1⟩, by simp, (hs.entries hrace).2⟩
  · rw [hother _ (by simp), hself]
    rcases hs.race with ⟨hnone, -⟩ | ⟨hrace, hfired, -⟩ | hrace
    · exact Or.inl ⟨hnone, fun hf => absurd hf (hs.not_deadlineNext hpop (by simp) hnone)⟩
    · exact Or.inr (Or.inl ⟨hrace, hfired, by simp⟩)
    · exact Or.inr (Or.inr hrace)
  · rw [hlive, hother _ (by simp), ← hs.raceResume]
    simp
  · rw [hother _ (by simp), hother _ (by simp)]
    exact hs.shutdown
  · rw [hother _ (by simp)]
    exact hs.timer

/-- An entry of the race decides it when it is the first. -/
theorem RaceInv.entry_step (hs : RaceInv fired s) (hwf : s.loop.WellFormed src)
    {loop : Loop Promise Reaction Value JsValue} (hpop : s.loop.pop = some ((k, r), loop))
    (hk : k = .raceComplete ∨ k = .raceDeadline)
    (hdecide : s.loop.settled .race = none →
      r = .fulfilled .complete ∧ ¬ fired ∧ s.loop.settled .complete ≠ none ∨
        r = .fulfilled .timeout ∧ fired) :
    RaceInv fired ((s.popped loop).settle .race r) := by
  obtain ⟨-, hother, hself, hlive⟩ := popped_settle hwf hpop .race r
  have hne : ∀ k', k' ≠ .raceComplete → k' ≠ .raceDeadline → k' ≠ k := by
    rintro k' h1 h2 rfl
    exact hk.elim h1 h2
  constructor
  · rw [hlive, hother _ (by simp), ← hs.toComplete]
    exact and_iff_right (hne _ (by simp) (by simp))
  · rw [hother _ (by simp), hother _ (by simp)]
    exact hs.complete
  · rw [hother _ (by simp)]
    exact hs.deadline
  · rw [hself]
    intro h
    cases h
  · rw [hself, hother _ (by simp)]
    rcases hs.race with ⟨hnone, -⟩ | ⟨hrace, hrest⟩ | ⟨hrace, hfired⟩
    · rw [hnone, Option.getD_none]
      rcases hdecide hnone with ⟨rfl, hrest⟩ | ⟨rfl, hfired⟩
      · exact Or.inr (Or.inl ⟨rfl, hrest⟩)
      · exact Or.inr (Or.inr ⟨rfl, hfired⟩)
    · rw [hrace]
      exact Or.inr (Or.inl ⟨rfl, hrest⟩)
    · rw [hrace]
      exact Or.inr (Or.inr ⟨rfl, hfired⟩)
  · rw [hlive, hother _ (by simp), ← hs.raceResume]
    exact and_iff_right (hne _ (by simp) (by simp))
  · rw [hself, hother _ (by simp)]
    exact hs.shutdown.imp_right fun h => ⟨h.1, by simp, h.2.2⟩
  · rw [hother _ (by simp)]
    exact hs.timer

/-- The continuation after the race schedules the exit and fulfills the promise of the shutdown. -/
theorem RaceInv.raceResume_step (hs : RaceInv fired s) (hwf : s.loop.WellFormed src)
    {loop : Loop Promise Reaction Value JsValue} (hpop : s.loop.pop = some ((.raceResume, r), loop)) :
    RaceInv fired (resume steps (s.popped loop) .raceResume r) := by
  have hpending : s.loop.settled .shutdown = none := hs.raceResume.mp (Loop.live_of_pop hpop)
  have hrace : s.loop.settled .race = some r := hwf.settled_of_pop hpop
  have hexits := hs.exits_eq_nil hpending
  -- the race was decided for the entry of the deadline exactly when that has fired
  obtain ⟨outcome, rfl, hcode⟩ : ∃ outcome, r = .fulfilled outcome ∧
      (fired ∧ outcome = Value.timeout ∨ ¬ fired ∧ outcome = Value.complete) := by
    rcases hs.race with ⟨hnone, -⟩ | ⟨hcomplete, hfired, -⟩ | ⟨htimeout, hfired⟩
    · rw [hrace] at hnone
      cases hnone
    · rw [hrace, Option.some.injEq] at hcomplete
      exact ⟨_, hcomplete, Or.inr ⟨hfired, rfl⟩⟩
    · rw [hrace, Option.some.injEq] at htimeout
      exact ⟨_, htimeout, Or.inl ⟨hfired, rfl⟩⟩
  obtain ⟨-, hother, hself, hlive⟩ := popped_settle hwf hpop .shutdown (.fulfilled .undefined)
  rw [hpending, Option.getD_none] at hself
  -- the exit and the timer are outside of the event loop
  have hloop : (resume steps (s.popped loop) .raceResume (.fulfilled outcome)).loop =
      ((s.popped loop).settle .shutdown (.fulfilled .undefined)).loop := rfl
  constructor
  · rw [hloop, hlive, hother _ (by simp), ← hs.toComplete]
    simp
  · rw [hloop, hother _ (by simp), hother _ (by simp)]
    exact hs.complete
  · rw [hloop, hother _ (by simp)]
    exact hs.deadline
  · rw [hloop, hother _ (by simp), hrace]
    intro h
    cases h
  · rw [hloop, hother _ (by simp), hother _ (by simp)]
    rcases hs.race with ⟨hnone, -⟩ | hdecided
    · rw [hrace] at hnone
      cases hnone
    · exact Or.inr hdecided
  · rw [hloop, hlive, hself]
    simp
  · refine Or.inr ⟨by rw [hloop, hself], by rw [hloop, hother _ (by simp), hrace]; simp, ?_⟩
    show fired ∧ s.exits ++ _ = _ ∨ ¬ fired ∧ s.exits ++ _ = _
    rw [hexits, List.nil_append]
    rcases hcode with ⟨hfired, rfl⟩ | ⟨hfired, rfl⟩
    · exact Or.inl ⟨hfired, rfl⟩
    · exact Or.inr ⟨hfired, rfl⟩
  · rw [hloop, hself]
    simp [resume]

/-- A deadline that fires finds the race undecided, and its entry becomes the next microtask. -/
theorem RaceInv.deadline_step (hs : RaceInv fired s) (hwf : s.loop.WellFormed src)
    (htimer : s.timerArmed = true) (hq : s.loop.queue = []) (hfired : fired') :
    s.loop.settled .race = none ∧
      RaceInv fired' s.fireDeadline := by
  obtain ⟨hnot, hshutdown⟩ := hs.timer.mp htimer
  have hrace : s.loop.settled .race = none := hwf.pending_of_live hq (hs.raceResume.mpr hshutdown)
  have hpending : s.loop.settled .deadline = none := by
    rcases hs.deadline with ⟨-, hnone⟩ | ⟨hf, -⟩
    · exact hnone
    · exact absurd hf hnot
  have hexits := hs.exits_eq_nil hshutdown
  have hother : ∀ q, q ≠ .deadline → (s.loop.settle .deadline (.fulfilled .timeout)).settled q =
      s.loop.settled q := fun q hq => Loop.settled_settle_of_ne hq
  -- nothing but the race subscribes to the deadline
  have hnext : ∃ rest, (s.loop.settle .deadline (.fulfilled .timeout)).queue =
      (.raceDeadline, .fulfilled .timeout) :: rest := by
    have hmem : Reaction.raceDeadline ∈ s.loop.reactions .deadline := by
      rcases (hs.entries hrace).2 with hmem | hmem
      · exact hmem
      · rw [hq] at hmem
        exact absurd hmem List.not_mem_nil
    obtain ⟨k, rest, hreactions⟩ := List.exists_cons_of_ne_nil (List.ne_nil_of_mem hmem)
    have hk : src k = .deadline := hwf.registered _ _ (by rw [hreactions]; exact List.mem_cons_self ..)
    have hk' : k = .raceDeadline := by
      cases k with
      | raceDeadline => rfl
      | _ => cases hk
    rw [Loop.settle_of_pending hpending, hq, hreactions, hk', List.nil_append, List.map_cons]
    exact ⟨_, rfl⟩
  refine ⟨hrace, ?_⟩
  constructor
  · rw [loop_fireDeadline, Loop.live_settle hwf, hother _ (by simp)]
    exact hs.toComplete
  · rw [loop_fireDeadline, hother _ (by simp), hother _ (by simp)]
    exact hs.complete
  · refine Or.inr ⟨hfired, ?_⟩
    rw [loop_fireDeadline, Loop.settled_settle_self, hpending, Option.getD_none]
  · rw [loop_fireDeadline, hother _ (by simp), Loop.live_settle hwf, Loop.live_settle hwf]
    exact hs.entries
  · refine Or.inl ⟨?_, fun _ => hnext⟩
    rw [loop_fireDeadline, hother _ (by simp)]
    exact hrace
  · rw [loop_fireDeadline, Loop.live_settle hwf, hother _ (by simp)]
    exact hs.raceResume
  · refine Or.inl ⟨?_, hexits⟩
    rw [loop_fireDeadline, hother _ (by simp)]
    exact hshutdown
  · simp [hfired, State.fireDeadline]

/-! ## Steps and runs -/

theorem StepSettled.settle (hs : StepSettled steps s j) : StepSettled steps (s.settle p r) j := by
  refine ⟨hs.1, hs.2.imp_right fun hne => ?_⟩
  exact Loop.settled_settle_ne_none hne

/-- A run that settles keeps the loop over the steps. -/
theorem StepsInv.settle_run (hs : StepsInv steps s) (hi : i ∈ s.called) :
    StepsInv steps (s.settle (.run i) r) where
  wellFormed := hs.wellFormed.settle
  before j hj := (hs.before j hj).settle
  uncalled j hj := by
    have hne : Promise.run j ≠ .run i := by
      intro h
      cases h
      exact hj hi
    rw [loop_settle, Loop.settled_settle_of_ne hne]
    exact hs.uncalled j hj
  phase := by
    rcases hs.phase with ⟨k, hk⟩ | hfin
    · refine Or.inl ⟨k, hk.called, hk.returned, ?_, fun j => ?_⟩
      · rw [loop_settle, Loop.settled_settle_of_ne (by simp)]
        exact hk.pending
      · rw [loop_settle, Loop.live_settle hs.wellFormed]
        exact hk.live j
    · refine Or.inr ⟨hfin.called, fun j hj => (hfin.all j hj).settle, ?_, fun j => ?_⟩
      · rw [loop_settle, Loop.settled_settle_of_ne (by simp)]
        exact hfin.settled
      · rw [loop_settle, Loop.live_settle hs.wellFormed]
        exact hfin.idle j

/-- The continuation of an awaited run finds the loop about to call the next one. -/
theorem StepsInv.aboutToCall (hs : StepsInv steps s)
    {loop : Loop Promise Reaction Value JsValue}
    (hpop : s.loop.pop = some ((.stepResume i, r), loop)) :
    i + 1 ≤ steps.length ∧ AboutToCall steps (s.popped loop) (i + 1) := by
  have hlive : s.loop.Live src (.stepResume i) := Loop.live_of_pop hpop
  have hsettled : (s.popped loop).loop.settled = s.loop.settled := Loop.settled_pop hpop
  rcases hs.phase with ⟨k, hk⟩ | hfin
  · obtain rfl := (hk.live i).mp hlive
    obtain ⟨r', hr'⟩ := hk.returned
    refine ⟨(List.getElem?_eq_some_iff.mp hr').1, hs.wellFormed.pop hpop, hk.called, ?_, ?_, ?_, ?_⟩
    · intro j hj
      rcases Nat.lt_succ_iff_lt_or_eq.mp hj with hj | rfl
      · obtain ⟨hcalled, hover⟩ := hs.before j (by rw [hk.called, List.mem_range]; omega)
        exact ⟨hcalled, by rwa [hsettled]⟩
      · refine ⟨by show j ∈ s.called; rw [hk.called]; simp, Or.inr ?_⟩
        have hrun : s.loop.settled (.run j) = some r := hs.wellFormed.settled_of_pop hpop
        rw [hsettled, hrun]
        exact Option.some_ne_none _
    · intro j hj
      rw [hsettled]
      exact hs.uncalled j (by rw [hk.called, List.mem_range]; omega)
    · rw [hsettled]
      exact hk.pending
    · intro j
      rw [State.popped, Loop.live_pop hs.wellFormed hpop, hk.live]
      rintro ⟨hne, rfl⟩
      exact hne rfl
  · exact absurd hlive (hfin.idle i)

/-- A continuation of the race keeps the loop over the steps. -/
theorem StepsInv.pop_settle (hs : StepsInv steps s) {loop : Loop Promise Reaction Value JsValue}
    (hpop : s.loop.pop = some ((k, r), loop)) (hk : ∀ i, k ≠ .stepResume i)
    (hrun : ∀ i, p ≠ .run i) (hsteps : p ≠ .steps) {r' : Settled}
    (ht : t.loop = ((s.popped loop).settle p r').loop) (hcalled : t.called = s.called) :
    StepsInv steps t := by
  obtain ⟨hwf, hother, -, hlive⟩ := popped_settle hs.wellFormed hpop p r'
  refine hs.frame ⟨hcalled, fun i => ?_, ?_, fun i => ?_⟩ (by rwa [ht])
  · rw [ht, hother _ (hrun i).symm]
  · rw [ht, hother _ hsteps.symm]
  · rw [ht, hlive]
    exact and_iff_right (hk i).symm

/-- What holds after a history of events. -/
def Inv (steps : List StepRun) (hist : List Event) (s : State) : Prop :=
  StepsInv steps s ∧ RaceInv (.deadlineFires ∈ hist) s

theorem RaceInv.congr (hs : RaceInv fired s) (h : fired ↔ fired') : RaceInv fired' s := by
  rwa [← propext h]

theorem settled_awaitRace : s.awaitRace.loop.settled = s.loop.settled := by
  simp only [State.awaitRace, loop_subscribe, Loop.settled_subscribe]

theorem live_awaitRace : s.awaitRace.loop.Live src k ↔
    k = .raceResume ∨ k = .raceDeadline ∨ k = .raceComplete ∨ k = .toComplete ∨
      s.loop.Live src k := by
  simp only [State.awaitRace, loop_subscribe, Loop.live_subscribe]

theorem keepsSteps_awaitRace : KeepsSteps s s.awaitRace where
  called := rfl
  run i := by rw [settled_awaitRace]
  steps := by rw [settled_awaitRace]
  live i := by
    rw [live_awaitRace]
    simp

theorem wellFormed_awaitRace (hwf : s.loop.WellFormed src)
    (hnot : ∀ k, (∀ i, k ≠ .stepResume i) → ¬ s.loop.Live src k) :
    s.awaitRace.loop.WellFormed src := by
  refine (((hwf.subscribe rfl ?_).subscribe rfl ?_).subscribe rfl ?_).subscribe rfl ?_
  · exact hnot _ (by simp)
  all_goals
    simp only [Loop.live_subscribe]
    simp [hnot]

theorem inv_start (steps : List StepRun) : Inv steps [] (start steps) := by
  have habout : AboutToCall steps ⟨.start, [], true, []⟩ 0 :=
    ⟨Loop.wellFormed_start, rfl, fun _ hj => absurd hj (Nat.not_lt_zero _), fun _ _ => rfl, rfl,
      fun _ => Loop.not_live_start⟩
  obtain ⟨hinv, hkeep⟩ := habout.runFrom List.drop_zero (Nat.zero_le _)
  have hnot : ∀ k, (∀ i, k ≠ .stepResume i) →
      ¬ (runFrom ⟨.start, [], true, []⟩ 0 steps).loop.Live src k := by
    intro k hk
    rw [hkeep.live k hk]
    exact Loop.not_live_start
  have hnone : ∀ q, (∀ i, q ≠ .run i) → q ≠ .steps →
      (start steps).loop.settled q = none := by
    intro q hrun hsteps
    rw [start, settled_awaitRace, hkeep.settled q hrun hsteps]
    rfl
  have hfired : ¬ Event.deadlineFires ∈ ([] : List Event) := List.not_mem_nil
  constructor
  · exact hinv.frame keepsSteps_awaitRace (wellFormed_awaitRace hinv.wellFormed hnot)
  · constructor
    · rw [hnone _ (by simp) (by simp), start, live_awaitRace]
      simp
    · exact Or.inl (hnone _ (by simp) (by simp))
    · exact Or.inl ⟨hfired, hnone _ (by simp) (by simp)⟩
    · rw [start, live_awaitRace, live_awaitRace]
      simp
    · exact Or.inl ⟨hnone _ (by simp) (by simp), fun hf => absurd hf hfired⟩
    · rw [hnone _ (by simp) (by simp), start, live_awaitRace]
      simp
    · exact Or.inl ⟨hnone _ (by simp) (by simp), hkeep.exits⟩
    · rw [hnone _ (by simp) (by simp)]
      exact ⟨fun _ => ⟨hfired, rfl⟩, fun _ => hkeep.timerArmed⟩

/-- **What a continuation preserves.** -/
theorem inv_resume (hs : StepsInv steps s ∧ RaceInv fired s)
    {loop : Loop Promise Reaction Value JsValue} (hpop : s.loop.pop = some ((k, r), loop)) :
    StepsInv steps (resume steps (s.popped loop) k r) ∧
      RaceInv fired (resume steps (s.popped loop) k r) := by
  obtain ⟨hsteps, hrace⟩ := hs
  have hwf := hsteps.wellFormed
  have hsrc : s.loop.settled (src k) = some r := hwf.settled_of_pop hpop
  match k with
  | .stepResume i =>
    -- the await of a run: the loop goes on, which keeps the race
    obtain ⟨hle, habout⟩ := hsteps.aboutToCall hpop
    obtain ⟨hinv, hkeep⟩ := habout.runFrom rfl hle
    exact ⟨hinv, (hrace.pop_stepResume hwf hpop).frame hkeep⟩
  | .toComplete =>
    -- the loop over the steps never rejects
    have hr : r = .fulfilled .undefined := by
      rcases hsteps.phase with ⟨k, hk⟩ | hfin
      · rw [src, hk.pending] at hsrc
        cases hsrc
      · rw [src, hfin.settled] at hsrc
        exact (Option.some.inj hsrc).symm
    subst hr
    exact ⟨hsteps.pop_settle hpop (by simp) (by simp) (by simp) rfl rfl, hrace.toComplete_step hwf hpop⟩
  | .raceComplete =>
    -- the entry of the steps is first only while that of the deadline is not queued
    have hcomplete : r = .fulfilled .complete ∧ s.loop.settled .complete ≠ none := by
      rw [src] at hsrc
      refine ⟨?_, by rw [hsrc]; exact Option.some_ne_none _⟩
      rcases hrace.complete with hnone | ⟨hsome, -⟩
      · rw [hsrc] at hnone
        cases hnone
      · rw [hsrc] at hsome
        exact Option.some.inj hsome
    refine ⟨hsteps.pop_settle hpop (by simp) (by simp) (by simp) rfl rfl,
      hrace.entry_step hwf hpop (Or.inl rfl) fun hnone => Or.inl ⟨hcomplete.1, ?_, hcomplete.2⟩⟩
    exact hrace.not_deadlineNext hpop (by simp) hnone
  | .raceDeadline =>
    -- the entry of the deadline: it has fired
    have hdeadline : r = .fulfilled .timeout ∧ fired := by
      rw [src] at hsrc
      rcases hrace.deadline with ⟨-, hnone⟩ | ⟨hfired, hsome⟩
      · rw [hsrc] at hnone
        cases hnone
      · rw [hsrc] at hsome
        exact ⟨Option.some.inj hsome, hfired⟩
    exact ⟨hsteps.pop_settle hpop (by simp) (by simp) (by simp) rfl rfl,
      hrace.entry_step hwf hpop (Or.inr rfl) fun _ => Or.inr hdeadline⟩
  | .raceResume =>
    refine ⟨?_, hrace.raceResume_step hwf hpop⟩
    match r with
    | .fulfilled outcome =>
      exact hsteps.pop_settle hpop (by simp) (p := .shutdown) (by simp) (by simp) rfl rfl
    | .rejected error =>
      exact hsteps.pop_settle hpop (by simp) (p := .shutdown) (by simp) (by simp) rfl rfl

/-- **What a step preserves.** -/
theorem inv_step (hs : Inv steps hist s)
    (hstep : (machine steps).step s e = some t) : Inv steps (hist ++ [e]) t := by
  obtain ⟨hsteps, hrace⟩ := hs
  have hmem : e ≠ .deadlineFires → (Event.deadlineFires ∈ hist ↔ .deadlineFires ∈ hist ++ [e]) := by
    intro hne
    simp [hne.symm]
  cases step_cases hstep with
  | runSettles i r hi =>
    refine ⟨hsteps.settle_run hi, RaceInv.congr ?_ (hmem (by simp))⟩
    exact hrace.frame (keepsRace_settle hsteps.wellFormed (Or.inl ⟨i, rfl⟩))
  | deadlineFires harmed hquiet =>
    exact ⟨hsteps.frame (keepsSteps_fireDeadline hsteps.wellFormed) hsteps.wellFormed.settle,
      (hrace.deadline_step hsteps.wellFormed harmed hquiet (by simp)).2⟩
  | microtask k r loop hpop =>
    obtain ⟨hsteps', hrace'⟩ := inv_resume ⟨hsteps, hrace⟩ hpop
    exact ⟨hsteps', hrace'.congr (hmem (by simp))⟩

theorem inv_of_run {es : List Event} (hrun : (machine steps).run (start steps) es = some s) :
    Inv steps es s := by
  have h := Machine.run_history (I := Inv steps) (G := fun _ _ => True)
    (fun hist s e t hI _ hstep => inv_step hI hstep) (inv_start steps) Machine.stepsMeet_true hrun
  rwa [List.nil_append] at h

/-! ## What a shutdown guarantees -/

theorem StepsInv.called_eq (hs : StepsInv steps s) :
    s.called = List.range s.called.length ∧ s.called.length ≤ steps.length := by
  rcases hs.phase with ⟨k, hk⟩ | hfin
  · obtain ⟨r, hr⟩ := hk.returned
    have hlt : k < steps.length := (List.getElem?_eq_some_iff.mp hr).1
    rw [hk.called, List.length_range]
    exact ⟨rfl, hlt⟩
  · rw [hfin.called, List.length_range]
    exact ⟨rfl, le_rfl⟩

/-- Once the queue is empty, a loop whose last run is over has come to the end. -/
theorem StepsInv.finished (hs : StepsInv steps s) (hq : s.loop.queue = [])
    (hlast : ∀ k, Awaiting steps s k → StepSettled steps s k) : Finished steps s := by
  rcases hs.phase with ⟨k, hk⟩ | hfin
  · -- an awaited run whose continuation is not queued is pending, so it is not over
    have hpending : s.loop.settled (.run k) = none :=
      hs.wellFormed.pending_of_live hq ((hk.live k).mpr rfl)
    obtain ⟨r, hr⟩ := hk.returned
    rcases (hlast k hk).2 with ⟨error, herror⟩ | hne
    · rw [hr] at herror
      cases herror
    · exact absurd hpending hne
  · exact hfin

theorem StepsInv.finished_of_lastSettled (hs : StepsInv steps s) (hq : s.loop.queue = [])
    (hlast : LastSettled steps s) : Finished steps s := by
  apply hs.finished hq
  intro k hk
  obtain ⟨r, hr⟩ := hk.returned
  have hlt : k < steps.length := (List.getElem?_eq_some_iff.mp hr).1
  -- the last run of the list has been called, so it is the one that is awaited
  have hmem := (hlast (steps.length - 1) (by omega)).1
  rw [hk.called, List.mem_range] at hmem
  have hk' : k = steps.length - 1 := by omega
  subst hk'
  exact hlast _ (by omega)

theorem Finished.lastSettled (h : Finished steps s) : LastSettled steps s :=
  fun i hi => h.all i (by omega)

/-- Once the queue is empty, the shutdown is over when the loop has come to the end. -/
theorem resolved_of_finished (hs : Inv steps hist s) (hq : s.loop.queue = [])
    (hfin : Finished steps s) : s.loop.settled .shutdown ≠ none := by
  obtain ⟨hsteps, hrace⟩ := hs
  have hwf := hsteps.wellFormed
  -- with no microtask left a pending promise keeps everything before it pending
  intro hshutdown
  have hundecided : s.loop.settled .race = none :=
    hwf.pending_of_live hq (hrace.raceResume.mpr hshutdown)
  have hcomplete : s.loop.settled .complete = none :=
    hwf.pending_of_live hq (hrace.entries hundecided).1
  have hpending : s.loop.settled .steps = none :=
    hwf.pending_of_live hq (hrace.toComplete.mpr hcomplete)
  rw [hfin.settled] at hpending
  cases hpending

/-- A shutdown that is over was ended by its deadline, or by the end of the list. -/
theorem fired_or_finished (hs : Inv steps hist s) (hresolved : s.loop.settled .shutdown ≠ none) :
    .deadlineFires ∈ hist ∨ Finished steps s := by
  obtain ⟨hsteps, hrace⟩ := hs
  rcases hrace.shutdown with ⟨hnone, -⟩ | ⟨-, hdecided, -⟩
  · exact absurd hnone hresolved
  · rcases hrace.race with ⟨hnone, -⟩ | ⟨-, -, hcomplete⟩ | ⟨-, hfired⟩
    · exact absurd hnone hdecided
    · rcases hrace.complete with hnone | ⟨-, hne⟩
      · exact absurd hnone hcomplete
      · rcases hsteps.phase with ⟨k, hk⟩ | hfin
        · exact absurd hk.pending hne
        · exact Or.inr hfin
    · exact Or.inl hfired

/-- Once the queue is empty, the shutdown is over when its deadline has fired. -/
theorem resolved_of_fired (hs : Inv steps hist s) (hq : s.loop.queue = [])
    (hfired : .deadlineFires ∈ hist) : s.loop.settled .shutdown ≠ none := by
  obtain ⟨hsteps, hrace⟩ := hs
  intro hshutdown
  have hundecided : s.loop.settled .race = none :=
    hsteps.wellFormed.pending_of_live hq (hrace.raceResume.mpr hshutdown)
  have hdeadline : s.loop.settled .deadline = none :=
    hsteps.wellFormed.pending_of_live hq (hrace.entries hundecided).2
  rcases hrace.deadline with ⟨hnot, -⟩ | ⟨-, hsome⟩
  · exact hnot hfired
  · rw [hdeadline] at hsome
    cases hsome

/-- A deadline that fires finds the last run unsettled and the shutdown going on. -/
theorem unsettled_of_fires (hs : Inv steps hist s)
    (hstep : (machine steps).step s .deadlineFires = some t) :
    ¬ LastSettled steps s ∧ s.loop.settled .shutdown = none := by
  obtain ⟨harmed, hquiet⟩ : s.timerArmed = true ∧ s.loop.queue = [] := by
    cases step_cases hstep with
    | deadlineFires harmed hquiet => exact ⟨harmed, hquiet⟩
  have hshutdown := (hs.2.timer.mp harmed).2
  refine ⟨fun hlast => ?_, hshutdown⟩
  exact resolved_of_finished hs hquiet (hs.1.finished_of_lastSettled hquiet hlast) hshutdown

/-! ### Microtasks run out -/

/-- The continuations of a shutdown. -/
def reactions (steps : List StepRun) : Finset Reaction :=
  {.toComplete, .raceComplete, .raceDeadline, .raceResume} ∪
    (Finset.range steps.length).image .stepResume

/-- The continuations that are live, and the runs that are still to be called. -/
def remaining (steps : List StepRun) (s : State) : ℕ :=
  s.loop.liveCount src (reactions steps) + (steps.length - s.called.length)

theorem mem_reactions_of_live (hs : StepsInv steps s) (hk : s.loop.Live src k) :
    k ∈ reactions steps := by
  cases k with
  | stepResume i =>
    rcases hs.phase with ⟨k, hawait⟩ | hfin
    · obtain rfl := (hawait.live i).mp hk
      obtain ⟨r, hr⟩ := hawait.returned
      have hlt : i < steps.length := (List.getElem?_eq_some_iff.mp hr).1
      simp [reactions, hlt]
    · exact absurd hk (hfin.idle i)
  | _ => simp [reactions]

/-- The loop over the steps adds no more continuations than it calls runs. -/
theorem AboutToCall.remaining_runFrom_le {rest : List StepRun} (h : AboutToCall steps s i)
    (hrest : steps.drop i = rest) (hi : i ≤ steps.length) :
    remaining steps (Shutdown.runFrom s i rest) ≤ remaining steps s := by
  -- Induction on the steps left: a call takes one run off what remains, its await adds one back.
  induction rest generalizing s i with
  | nil =>
    show Loop.liveCount src _ (s.loop.settle _ _) + _ ≤ _
    rw [Loop.liveCount_settle h.wellFormed]
    exact le_rfl
  | cons run rest ih =>
    obtain ⟨hget, hlt, hrest'⟩ := drop_cons hrest
    have hlen : s.called.length = i := by rw [h.called, List.length_range]
    have hcall : (s.called ++ [i]).length = i + 1 := by simp [hlen]
    match run with
    | .throws error =>
      apply (ih (h.throws hget) hrest' hlt).trans
      simp only [remaining, called_call, loop_call, hcall, hlen]
      omega
    | .returns none =>
      have hle : (s.loop.subscribe (.run i) (.stepResume i)).liveCount src (reactions steps) ≤
          s.loop.liveCount src (reactions steps) + 1 := Loop.liveCount_subscribe_le rfl
      simp only [remaining, Shutdown.runFrom, called_subscribe, called_call, loop_subscribe,
        loop_call, hcall, hlen]
      simp only [src]
      omega
    | .returns (some r) =>
      have hle : ((s.loop.settle (.run i) r).subscribe (.run i) (.stepResume i)).liveCount src
          (reactions steps) ≤ (s.loop.settle (.run i) r).liveCount src (reactions steps) + 1 :=
        Loop.liveCount_subscribe_le rfl
      rw [Loop.liveCount_settle h.wellFormed] at hle
      simp only [remaining, Shutdown.runFrom, called_subscribe, called_call, called_settle,
        loop_subscribe, loop_settle, loop_call, hcall, hlen]
      simp only [src]
      omega

/-- A microtask leaves fewer continuations and runs. -/
theorem remaining_resume_lt (hs : StepsInv steps s) {loop : Loop Promise Reaction Value JsValue}
    (hpop : s.loop.pop = some ((k, r), loop)) :
    remaining steps (resume steps (s.popped loop) k r) < remaining steps s := by
  have hwf : (s.popped loop).loop.WellFormed src := hs.wellFormed.pop hpop
  have hpopped : remaining steps (s.popped loop) < remaining steps s :=
    Nat.add_lt_add_right (Loop.liveCount_pop_lt hs.wellFormed hpop
      (mem_reactions_of_live hs (Loop.live_of_pop hpop))) _
  refine lt_of_le_of_lt ?_ hpopped
  have hsettle : ∀ p r', Loop.liveCount src (reactions steps) ((s.popped loop).loop.settle p r') =
      (s.popped loop).loop.liveCount src (reactions steps) :=
    fun p r' => Loop.liveCount_settle hwf
  match k, r with
  | .stepResume i, r =>
    obtain ⟨hle, habout⟩ := hs.aboutToCall hpop
    exact habout.remaining_runFrom_le rfl hle
  | .toComplete, .fulfilled _ => exact (congrArg (· + _) (hsettle _ _)).le
  | .toComplete, .rejected _ => exact (congrArg (· + _) (hsettle _ _)).le
  | .raceComplete, _ => exact (congrArg (· + _) (hsettle _ _)).le
  | .raceDeadline, _ => exact (congrArg (· + _) (hsettle _ _)).le
  | .raceResume, .fulfilled _ => exact (congrArg (· + _) (hsettle _ _)).le
  | .raceResume, .rejected _ => exact (congrArg (· + _) (hsettle _ _)).le

/-- The microtasks of a shutdown run out. -/
theorem exists_drained (hs : Inv steps hist s) :
    ∃ m t, (machine steps).run s (List.replicate m .microtask) = some t ∧ t.loop.queue = [] := by
  have hstep : ∀ s, StepsInv steps s ∧ RaceInv (Event.deadlineFires ∈ hist) s →
      ¬ s.loop.queue = [] → ∃ t, (machine steps).step s .microtask = some t ∧
        (StepsInv steps t ∧ RaceInv (Event.deadlineFires ∈ hist) t) ∧
          remaining steps t < remaining steps s := by
    intro s hs hne
    obtain ⟨⟨⟨k, r⟩, loop⟩, hpop⟩ := Option.ne_none_iff_exists'.mp (mt Loop.pop_eq_none.mp hne)
    refine ⟨resume steps (s.popped loop) k r, ?_, inv_resume hs hpop, remaining_resume_lt hs.1 hpop⟩
    simp only [machine, hpop, Option.map_some]
    rfl
  obtain ⟨m, t, hrun, -, hq⟩ := Machine.exists_run_replicate (remaining steps) hstep hs
  exact ⟨m, t, hrun, hq⟩

/-! ### The guarantee -/

/-- What a shutdown guarantees after the events `es`: the runs are called in the order of the list,
each once, the next one after the last one is over; a run that is over never keeps the next one
from being called; the returned promise never rejects, and once no microtask is left it is resolved
exactly when the last run is over or the deadline has fired; one exit is scheduled when it resolves,
with the code 1 when the deadline has fired and 0 otherwise; a deadline fires only while the last
run is not over, and its timer is armed until it has fired or the promise is resolved; and
microtasks run out. -/
structure OrderlyShutdown (steps : List StepRun) (es : List Event) (s : State) : Prop where
  in_order : s.called = List.range s.called.length ∧ s.called.length ≤ steps.length
  one_at_a_time : ∀ i, i + 1 ∈ s.called → StepSettled steps s i
  continues : s.loop.queue = [] → (∀ i ∈ s.called, StepSettled steps s i) →
    s.called.length = steps.length
  not_rejected : ¬ s.loop.Rejected .shutdown
  resolved : s.loop.queue = [] →
    (s.loop.settled .shutdown ≠ none ↔ LastSettled steps s ∨ .deadlineFires ∈ es)
  exits : s.loop.settled .shutdown = none ∧ s.exits = [] ∨
    s.loop.settled .shutdown ≠ none ∧
      (.deadlineFires ∈ es ∧ s.exits = [1] ∨
        .deadlineFires ∉ es ∧ LastSettled steps s ∧ s.exits = [0])
  deadline : ∀ pre post, es = pre ++ .deadlineFires :: post →
    ∃ u, (machine steps).run (start steps) pre = some u ∧ ¬ LastSettled steps u ∧
      u.loop.settled .shutdown = none
  armed : s.timerArmed = true ↔ .deadlineFires ∉ es ∧ s.loop.settled .shutdown = none
  drains : ∃ m t, (machine steps).run s (List.replicate m .microtask) = some t ∧
    t.loop.queue = []

/-- **Every run of a shutdown is orderly**, for every list of steps, whatever their runs do and in
whatever order they settle and the deadline fires. -/
theorem orderly_shutdown (steps : List StepRun) (es : List Event)
    (hrun : (machine steps).run (start steps) es = some s) : OrderlyShutdown steps es s := by
  have hinv := inv_of_run hrun
  obtain ⟨hsteps, hrace⟩ := hinv
  refine ⟨hsteps.called_eq, hsteps.before, fun hq hover => ?_, ?_, fun hq => ⟨?_, ?_⟩, ?_, ?_,
    hrace.timer, exists_drained ⟨hsteps, hrace⟩⟩
  · have hfin := hsteps.finished hq fun k hk => hover k (by rw [hk.called]; simp)
    rw [hfin.called, List.length_range]
  · rintro ⟨error, herror⟩
    rcases hrace.shutdown with ⟨hnone, -⟩ | ⟨hdone, -⟩
    · rw [hnone] at herror
      cases herror
    · rw [hdone] at herror
      cases herror
  · intro hresolved
    exact (fired_or_finished ⟨hsteps, hrace⟩ hresolved).symm.imp_left Finished.lastSettled
  · rintro (hlast | hfired)
    · exact resolved_of_finished ⟨hsteps, hrace⟩ hq (hsteps.finished_of_lastSettled hq hlast)
    · exact resolved_of_fired ⟨hsteps, hrace⟩ hq hfired
  · rcases hrace.shutdown with hpending | ⟨hdone, -, hcode⟩
    · exact Or.inl hpending
    · have hresolved : s.loop.settled .shutdown ≠ none := by
        rw [hdone]
        exact Option.some_ne_none _
      refine Or.inr ⟨hresolved, hcode.imp_right fun hnot => ⟨hnot.1, ?_, hnot.2⟩⟩
      rcases fired_or_finished ⟨hsteps, hrace⟩ hresolved with hfired | hfin
      · exact absurd hfired hnot.1
      · exact hfin.lastSettled
  · rintro pre post rfl
    obtain ⟨u, v, hpre, hfires, -⟩ := Machine.run_append_cons.mp hrun
    exact ⟨u, hpre, unsettled_of_fires (inv_of_run hpre) hfires⟩

/-- A step that throws, and one whose run rejects before the deadline. -/
theorem orderly_shutdown_failing : ∃ s,
    (machine [.throws .undefined, .returns none]).run (start [.throws .undefined, .returns none])
        (.runSettles 1 (.rejected .undefined) :: List.replicate 4 .microtask) = some s ∧
      s.exits = [0] ∧
      OrderlyShutdown [.throws .undefined, .returns none]
        (.runSettles 1 (.rejected .undefined) :: List.replicate 4 .microtask) s := by
  obtain ⟨s, hrun, hexits⟩ : ∃ s,
      (machine [.throws .undefined, .returns none]).run (start [.throws .undefined, .returns none])
          (.runSettles 1 (.rejected .undefined) :: List.replicate 4 .microtask) = some s ∧
        s.exits = [0] := ⟨_, rfl, rfl⟩
  exact ⟨s, hrun, hexits, orderly_shutdown _ _ hrun⟩

end Shutdown

end QueueWorkerKit
