import QueueWorkerKit.Worker.ProcessorContainment

/-!
# What an attempt counts

An attempt counts its start when its handler is called, and everything else when its race is over:
once, in the continuation of `processJob`, which is the last thing to run before the attempt
settles. Work that was abandoned runs on, and no continuation of it counts anything.

## Main definitions

* `AttemptCounts`: what an attempt has counted by the time it settles
* `Tracked`: the invariant of a registered attempt, from its race to its counters
* `CallInv`: the invariant of a call, under a registered name or not

## Main results

* `tracked_start`, `tracked_step`: the call establishes the invariant, every step keeps it
* `callInv_start`, `callInv_step`: the same for any call
* `increments_of_settled`, `settled_step`: a call that has settled stays so and counts nothing more
-/

namespace QueueWorkerKit

open Ecma EventDriven

namespace Attempt

variable {o : ProcessorOptions} {c : Call} {definition : JobDefinition} {s t u : State}
  {p : Promise} {k : Reaction} {r : Settled} {e : Event}
  {loop : Loop Promise Reaction JsValue Thrown}

@[simp] theorem increments_settle : (s.settle p r).increments = s.increments := rfl

@[simp] theorem reason_settle : (s.settle p r).reason = s.reason := rfl

@[simp] theorem increments_subscribe : (s.subscribe k).increments = s.increments := rfl

@[simp] theorem reason_subscribe : (s.subscribe k).reason = s.reason := rfl

/-- The counters an attempt has moved, in their order. -/
def State.counters (s : State) : List Counter := s.increments.map Prod.fst

/-- What has been counted by the time an attempt settles: its start and its duration when it was
started, and its outcome. -/
inductive AttemptCounts : Bool → List Counter → Prop
  | completed : AttemptCounts true [.started, .duration, .completed]
  | failed (started retrying : Bool) : AttemptCounts started
      ((if started then [.started, .duration] else []) ++
        if retrying then [.failed, .retrying] else [.failed])

/-! ## The invariant of a registered attempt -/

/-- From the race to the counters. A race is settled by one of its entries, and won by a value only
when the work is; an open race goes on until its promise settles, and an attempt until its own does;
the timer is armed until the signal is aborted or the attempt settles. Until then only the start is
counted. -/
structure Tracked (o : ProcessorOptions) (c : Call) (s : State) : Prop where
  aborted : ∀ v, s.loop.settled .aborted ≠ some (.fulfilled v)
  race : ∀ v, s.loop.settled .race = some (.fulfilled v) → s.loop.settled .work = some (.fulfilled v)
  raced : ∀ v, s.loop.settled .raced = some (.fulfilled v) →
    s.loop.settled .work = some (.fulfilled v)
  timer : s.timerArmed = false → s.reason ≠ none ∨ s.loop.settled .attempt ≠ none
  reason : s.reason ≠ none → s.listening = false
  listening : s.loop.settled .aborted ≠ none → s.listening = false
  entry : s.loop.settled .race ≠ none →
    s.loop.settled .work ≠ none ∨ s.loop.settled .aborted ≠ none
  raceWork : s.loop.Live src .raceWork ∨ s.loop.settled .race ≠ none ∨
    s.loop.settled .raced ≠ none
  raceAborted : s.loop.Live src .raceAborted ∨ s.loop.settled .race ≠ none ∨
    s.loop.settled .raced ≠ none
  raceResume : s.loop.Live src .raceResume ∨ s.loop.settled .raced ≠ none
  pending : s.loop.settled .attempt = none → s.loop.Live src .jobResume ∧
    s.counters = if s.started then [.started] else []
  done : s.loop.settled .attempt ≠ none → ¬ s.loop.Live src .jobResume ∧
    AttemptCounts s.started s.counters
  labels : ∀ increment ∈ s.increments, increment.2 = c.labels o

/-- A state that differs in nothing that is tracked but, perhaps, the signals and the continuation
that is running. -/
structure Running (k : Reaction) (s u : State) : Prop where
  settled : u.loop.settled = s.loop.settled
  wellFormed : u.loop.WellFormed src
  live : ∀ k', k' ≠ k → k' ≠ .catchNoop → (u.loop.Live src k' ↔ s.loop.Live src k')
  started : u.started = s.started
  increments : u.increments = s.increments

theorem Running.of_loop (hwf : s.loop.WellFormed src) (hloop : u.loop = s.loop)
    (hstarted : u.started = s.started) (hincrements : u.increments = s.increments) :
    Running .callerResume s u := by
  refine ⟨congrArg Loop.settled hloop, ?_, fun k' _ _ => ?_, hstarted, hincrements⟩
  · rwa [hloop]
  · rw [hloop]

theorem Running.pop (hwf : s.loop.WellFormed src) (hpop : s.loop.pop = some ((k, r), loop)) :
    Running k s (s.popped loop) := by
  refine ⟨Loop.settled_pop hpop, hwf.pop hpop, fun k' hk' _ => ?_, rfl, rfl⟩
  rw [State.popped, Loop.live_pop hwf hpop]
  exact and_iff_right hk'

/-- Without settling anything: the continuation that is running is none that is waited for. -/
theorem Tracked.frame (h : Tracked o c s) (hu : Running k s u)
    (hk : k ≠ .raceWork ∧ k ≠ .raceAborted ∧ k ≠ .raceResume ∧ k ≠ .jobResume)
    (htimer : u.timerArmed = false → u.reason ≠ none ∨ s.loop.settled .attempt ≠ none)
    (hreason : u.reason ≠ none → u.listening = false)
    (hlistening : s.listening = false → u.listening = false) : Tracked o c u := by
  obtain ⟨hk₁, hk₂, hk₃, hk₄⟩ := hk
  have hraceWork := hu.live .raceWork hk₁.symm (by simp)
  have hraceAborted := hu.live .raceAborted hk₂.symm (by simp)
  have hraceResume := hu.live .raceResume hk₃.symm (by simp)
  have hjobResume := hu.live .jobResume hk₄.symm (by simp)
  refine ⟨?_, ?_, ?_, ?_, hreason, ?_, ?_, ?_, ?_, ?_, ?_, ?_, ?_⟩
  all_goals simp only [State.counters, hu.settled, hu.started, hu.increments, hraceWork,
    hraceAborted, hraceResume, hjobResume]
  · exact h.aborted
  · exact h.race
  · exact h.raced
  · exact htimer
  · exact fun haborted => hlistening (h.listening haborted)
  · exact h.entry
  · exact h.raceWork
  · exact h.raceAborted
  · exact h.raceResume
  · exact h.pending
  · exact h.done
  · exact h.labels

/-- Settling a promise before the attempt: a value wins only as the value of the work, and a
continuation that is waited for settles the promise it is waited for. -/
theorem Tracked.settle (h : Tracked o c s) (hu : Running k s u) (hp : p ≠ .attempt)
    (hjob : k ≠ .jobResume) (haborted : p = .aborted → ∀ v, r ≠ .fulfilled v)
    (hwins : p = .race ∨ p = .raced → ∀ v, r = .fulfilled v →
      s.loop.settled .work = some (.fulfilled v))
    (htimer : u.timerArmed = false → u.reason ≠ none ∨ s.loop.settled .attempt ≠ none)
    (hreason : u.reason ≠ none → u.listening = false)
    (hlistening : s.listening = false ∨ p = .aborted → u.listening = false)
    (hentry : p = .race → s.loop.settled .work ≠ none ∨ s.loop.settled .aborted ≠ none)
    (hrace : k = .raceWork ∨ k = .raceAborted → p = .race)
    (hraceResume : k = .raceResume → p = .raced) :
    Tracked o c (u.settle p r) := by
  have hkeep : ∀ q, s.loop.settled q ≠ none → (u.settle p r).loop.settled q ≠ none := by
    intro q hq
    apply Loop.settled_settle_ne_none
    rwa [hu.settled]
  have hself : (u.settle p r).loop.settled p ≠ none := by
    rw [loop_settle, Loop.settled_settle_self]
    exact Option.some_ne_none _
  have hlive : ∀ k', (u.settle p r).loop.Live src k' ↔ u.loop.Live src k' :=
    fun _ => Loop.live_settle hu.wellFormed
  -- The attempt itself, and the await of its end, are not touched.
  have hattempt : (u.settle p r).loop.settled .attempt = s.loop.settled .attempt := by
    rw [loop_settle, Loop.settled_settle_of_ne hp.symm, hu.settled]
  have hjobLive : (u.settle p r).loop.Live src .jobResume ↔ s.loop.Live src .jobResume :=
    (hlive _).trans (hu.live _ hjob.symm (by simp))
  -- a race that has a value has the value of the work
  have hvalue : ∀ q, q = .race ∨ q = .raced →
      (∀ v, s.loop.settled q = some (.fulfilled v) → s.loop.settled .work = some (.fulfilled v)) →
      ∀ v, (u.settle p r).loop.settled q = some (.fulfilled v) →
        (u.settle p r).loop.settled .work = some (.fulfilled v) := by
    intro q hq hs v hv
    apply Loop.settled_settle_of_settled
    rw [hu.settled]
    rcases Loop.settled_of_settled_settle hv with hbefore | ⟨rfl, hr⟩
    · rw [hu.settled] at hbefore
      exact hs v hbefore
    · exact hwins hq v hr
  constructor
  · intro v hv
    rcases Loop.settled_of_settled_settle hv with hbefore | ⟨hp, hr⟩
    · rw [hu.settled] at hbefore
      exact h.aborted v hbefore
    · exact haborted hp.symm v hr
  · exact hvalue .race (Or.inl rfl) h.race
  · exact hvalue .raced (Or.inr rfl) h.raced
  · exact fun hunarmed => (htimer hunarmed).imp_right (hkeep _)
  · exact hreason
  · -- the listener was removed before, or with the promise that settles now
    intro hne
    apply hlistening
    by_cases hp : p = .aborted
    · exact Or.inr hp
    · rw [loop_settle, Loop.settled_settle_of_ne (Ne.symm hp), hu.settled] at hne
      exact Or.inl (h.listening hne)
  · intro hne
    by_cases hp : p = .race
    · exact (hentry hp).imp (hkeep _) (hkeep _)
    · rw [loop_settle, Loop.settled_settle_of_ne (Ne.symm hp), hu.settled] at hne
      exact (h.entry hne).imp (hkeep _) (hkeep _)
  · by_cases hk : k = .raceWork
    · obtain rfl := hrace (Or.inl hk)
      exact Or.inr (Or.inl hself)
    · rw [hlive, hu.live _ (Ne.symm hk) (by simp)]
      exact h.raceWork.imp_right (Or.imp (hkeep _) (hkeep _))
  · by_cases hk : k = .raceAborted
    · obtain rfl := hrace (Or.inr hk)
      exact Or.inr (Or.inl hself)
    · rw [hlive, hu.live _ (Ne.symm hk) (by simp)]
      exact h.raceAborted.imp_right (Or.imp (hkeep _) (hkeep _))
  · by_cases hk : k = .raceResume
    · obtain rfl := hraceResume hk
      exact Or.inr hself
    · rw [hlive, hu.live _ (Ne.symm hk) (by simp)]
      exact h.raceResume.imp_right (hkeep _)
  · rw [hattempt, hjobLive]
    simp only [State.counters, increments_settle, hu.increments, started_settle, hu.started]
    exact h.pending
  · rw [hattempt, hjobLive]
    simp only [State.counters, increments_settle, hu.increments, started_settle, hu.started]
    exact h.done
  · rw [increments_settle, hu.increments]
    exact h.labels

/-- The handler's promise settles. -/
theorem Tracked.settle_handler (h : Tracked o c s) (hwf : s.loop.WellFormed src) :
    Tracked o c (s.settle .handler r) :=
  h.settle (.of_loop hwf rfl rfl rfl) (by simp) (by simp) (by simp) (by simp) h.timer h.reason
    (by simp) (by simp) (by simp) (by simp)

/-! ## Aborts -/

/-- What differs from a state in its signals and its timer alone. -/
structure SameWork (s u : State) : Prop where
  loop : u.loop = s.loop
  listening : u.listening = s.listening
  started : u.started = s.started
  increments : u.increments = s.increments

theorem SameWork.handlerListener (h : SameWork s u) (listener : Option Settled) :
    SameWork (s.handlerListener c listener) (u.handlerListener c listener) := by
  unfold State.handlerListener
  split
  · next r _ =>
    rw [h.started]
    split_ifs
    · exact ⟨by rw [loop_settle, loop_settle, h.loop], h.listening, h.started, h.increments⟩
    · exact h
  · exact h

theorem Tracked.handlerListener (h : Tracked o c s) (hwf : s.loop.WellFormed src)
    (listener : Option Settled) : Tracked o c (s.handlerListener c listener) := by
  unfold State.handlerListener
  split
  · -- the listener settles the promise of a handler that has started
    split_ifs
    · exact h.settle_handler hwf
    · exact h
  · exact h

/-- The listener of the race, on a signal that is aborted by now. -/
theorem Tracked.onAbort (h : Tracked o c s) (hwf : s.loop.WellFormed src) (hu : SameWork s u)
    (hreason : u.reason ≠ none) (reason : JsValue) : Tracked o c (u.onAbort o c reason) := by
  unfold State.onAbort
  split_ifs with hlistening
  · have hremoved : Running .callerResume s u.removeListener :=
      .of_loop hwf hu.loop hu.started hu.increments
    split
    · exact h.settle hremoved (by simp) (by simp) (fun _ _ => by simp) (by simp)
        (fun _ => Or.inl hreason) (fun _ => rfl) (fun _ => rfl) (by simp) (by simp) (by simp)
    · exact h.frame hremoved (by simp) (fun _ => Or.inl hreason) (fun _ => rfl) fun _ => rfl
  · rw [Bool.not_eq_true] at hlistening
    exact h.frame (.of_loop hwf hu.loop hu.started hu.increments) (by simp)
      (fun _ => Or.inl hreason) (fun _ => hlistening) fun _ => hlistening

/-- An abort of the signal, by the worker or by the timer. -/
theorem Tracked.abort (h : Tracked o c s) (hinv : AttemptInv o c definition s) (hu : SameWork s u)
    (hreason : u.reason = s.reason) (reason : JsValue) (listener : Option Settled) :
    Tracked o c (u.abort o c reason listener) := by
  have hwf := hinv.subscriptions.wellFormed
  unfold State.abort
  cases hcase : u.reason with
  | some earlier =>
    -- a signal that is aborted already calls no listener
    have hne : u.reason ≠ none := by simp [hcase]
    have hdeaf : u.listening = false := hu.listening.trans (h.reason (hreason ▸ hne))
    exact h.frame (.of_loop hwf hu.loop hu.started hu.increments) (by simp) (fun _ => Or.inl hne)
      (fun _ => hdeaf) fun _ => hdeaf
  | none =>
    -- the handler's listener runs first, and knows nothing of the reason
    have hsame : SameWork s { u with reason := some reason } :=
      ⟨hu.loop, hu.listening, hu.started, hu.increments⟩
    have hwf' : (s.handlerListener c listener).loop.WellFormed src :=
      (hinv.handlerListener listener).subscriptions.wellFormed
    apply (h.handlerListener hwf listener).onAbort hwf' (hsame.handlerListener listener)
    unfold State.handlerListener
    split
    · split_ifs <;> simp
    · simp

/-! ## Continuations -/

theorem counters_count (labels : Labels) (counters : List Counter) :
    (s.count labels counters).counters = s.counters ++ counters := by
  simp [State.counters, State.count, Function.comp_def]

/-- The continuation of `processJob`: whatever it has counted by then is all the attempt counts. -/
theorem Tracked.finish (h : Tracked o c s) (hwf : s.loop.WellFormed src)
    (hpop : s.loop.pop = some ((.jobResume, r), loop)) (hloop : u.loop = loop)
    (hlistening : u.listening = s.listening) (hreason : u.reason = s.reason)
    (hcounts : AttemptCounts u.started u.counters)
    (hlabels : ∀ increment ∈ u.increments, increment.2 = c.labels o) (r' : Settled) :
    Tracked o c (u.clearTimer.settle .attempt r') := by
  -- Of the promises only that of the attempt changes, of the continuations only the one taken.
  have hset : ∀ q, q ≠ .attempt →
      (u.clearTimer.settle .attempt r').loop.settled q = s.loop.settled q := by
    intro q hq
    show (u.loop.settle .attempt r').settled q = _
    rw [Loop.settled_settle_of_ne hq, hloop, Loop.settled_pop hpop]
  have hlive : ∀ k', (u.clearTimer.settle .attempt r').loop.Live src k' ↔
      k' ≠ .jobResume ∧ s.loop.Live src k' := by
    intro k'
    show (u.loop.settle .attempt r').Live src k' ↔ _
    rw [hloop, Loop.live_settle (hwf.pop hpop), Loop.live_pop hwf hpop]
  have hattempt : (u.clearTimer.settle .attempt r').loop.settled .attempt ≠ none := by
    rw [loop_settle, Loop.settled_settle_self]
    exact Option.some_ne_none _
  constructor
  · rw [hset _ (by simp)]
    exact h.aborted
  · rw [hset _ (by simp), hset _ (by simp)]
    exact h.race
  · rw [hset _ (by simp), hset _ (by simp)]
    exact h.raced
  · exact fun _ => Or.inr hattempt
  · intro hne
    show u.listening = false
    rw [hlistening]
    exact h.reason (hreason ▸ hne)
  · intro hne
    rw [hset _ (by simp)] at hne
    exact hlistening.trans (h.listening hne)
  · rw [hset _ (by simp), hset _ (by simp), hset _ (by simp)]
    exact h.entry
  · rw [hset _ (by simp), hset _ (by simp), hlive]
    simpa using h.raceWork
  · rw [hset _ (by simp), hset _ (by simp), hlive]
    simpa using h.raceAborted
  · rw [hset _ (by simp), hlive]
    simpa using h.raceResume
  · exact fun hnone => absurd hnone hattempt
  · refine fun _ => ⟨?_, hcounts⟩
    rw [hlive]
    exact fun hlive => hlive.1 rfl
  · exact hlabels

/-- Work that has a value was started. -/
theorem Outcome.valid_of_value {v : JsValue} (h : Outcome o c definition s)
    (hwork : s.loop.settled .work = some (.fulfilled v)) :
    ∃ v, validate o.fmt definition c.job.data = .ok v := by
  cases h with
  | invalid _ _ _ _ work =>
    rw [hwork] at work
    cases work
  | threw _ _ _ work =>
    rw [hwork] at work
    cases work
  | awaiting _ _ _ _ work =>
    rw [hwork] at work
    cases work
  | settled _ data _ _ _ _ => exact data

theorem labels_count {labels : Labels} {counters : List Counter}
    (h : ∀ increment ∈ s.increments, increment.2 = labels) :
    ∀ increment ∈ (s.count labels counters).increments, increment.2 = labels := by
  intro increment hmem
  rcases List.mem_append.mp hmem with hmem | hmem
  · exact h increment hmem
  · obtain ⟨counter, -, rfl⟩ := List.mem_map.mp hmem
    rfl

/-- An observation of the duration moves its counter, and nothing else. -/
theorem kept_observe (s : State) (labels : Labels) : (s.observe labels).loop = s.loop ∧
    (s.observe labels).listening = s.listening ∧ (s.observe labels).reason = s.reason ∧
    (s.observe labels).started = s.started := by
  unfold State.observe
  split_ifs <;> exact ⟨rfl, rfl, rfl, rfl⟩

theorem prefix_observe (s : State) (labels : Labels) :
    s.increments <+: (s.observe labels).increments := by
  unfold State.observe
  split_ifs
  · exact List.prefix_append _ _
  · exact List.prefix_rfl

/-- What the continuation of `processJob` counts, on a value and on an error. -/
theorem Tracked.jobResume (h : Tracked o c s) (hinv : AttemptInv o c definition s)
    (hstarted : s.started = true ↔ ∃ v, validate o.fmt definition c.job.data = .ok v)
    (hpop : s.loop.pop = some ((.jobResume, r), loop)) :
    Tracked o c (resume o c (s.popped loop) .jobResume r) := by
  have hwf := hinv.subscriptions.wellFormed
  have hraced : s.loop.settled .raced = some r := hwf.settled_of_pop hpop
  have hnone : s.loop.settled .attempt = none := by
    by_contra hne
    exact (h.done hne).1 (Loop.live_of_pop hpop)
  have hcounters : (s.popped loop).counters = if s.started then [.started] else [] :=
    (h.pending hnone).2
  cases r with
  | fulfilled value =>
    -- the value is that of the handler, which was started
    have hvalid := hinv.outcome.valid_of_value (h.raced value hraced)
    apply h.finish (u := (s.popped loop).count (c.labels o) [.duration, .completed]) hwf hpop rfl
      rfl rfl
    · show AttemptCounts s.started _
      rw [counters_count, hcounters, hstarted.mpr hvalid]
      exact .completed
    · exact labels_count h.labels
  | rejected error =>
    -- the duration is observed if the clock was started, whatever was rejected
    have hobserve : ((s.popped loop).observe (c.labels o)).counters =
        if s.started then [.started, .duration] else [] := by
      unfold State.observe
      show State.counters (if s.started then _ else _) = _
      cases hs : s.started <;> simp [counters_count, hcounters, hs]
    have hlabels : ∀ increment ∈ ((s.popped loop).observe (c.labels o)).increments,
        increment.2 = c.labels o := by
      unfold State.observe
      split_ifs
      · exact labels_count h.labels
      · exact h.labels
    obtain ⟨hloop, hlistening, hreason, hstart⟩ := kept_observe (s.popped loop) (c.labels o)
    apply h.finish (u := ((s.popped loop).observe (c.labels o)).count (c.labels o)
      (if (catchRun o.heap c.job error).willRetry then [.failed, .retrying] else [.failed])) hwf
      hpop hloop hlistening hreason
    · rw [counters_count, hobserve]
      show AttemptCounts ((s.popped loop).observe (c.labels o)).started _
      rw [hstart]
      show AttemptCounts s.started _
      exact .failed s.started (catchRun o.heap c.job error).willRetry
    · exact labels_count hlabels

/-- The continuation of the race's await. -/
theorem Tracked.raceResume_step (h : Tracked o c s) (hinv : AttemptInv o c definition s)
    (hpop : s.loop.pop = some ((.raceResume, r), loop)) :
    Tracked o c (((s.popped loop).removeListener.subscribe .catchNoop).settle .raced r) := by
  have hwf := hinv.subscriptions.wellFormed
  have hpopped := Running.pop hwf hpop
  have hcatch : ¬ (s.popped loop).loop.Live src .catchNoop := fun hl =>
    hinv.subscriptions.once (Loop.live_of_pop hpop) ((Loop.live_pop hwf hpop).mp hl).2
  have hrunning : Running .raceResume s ((s.popped loop).removeListener.subscribe .catchNoop) := by
    refine ⟨?_, hpopped.wellFormed.subscribe rfl hcatch, fun k' hk' hne => ?_, rfl, rfl⟩
    · rw [loop_subscribe, Loop.settled_subscribe]
      exact hpopped.settled
    · rw [live_subscribe, or_iff_right hne]
      exact hpopped.live k' hk' hne
  refine h.settle hrunning (by simp) (by simp) (by simp) (fun _ v hv => ?_) h.timer
    (fun _ => rfl) (fun _ => rfl) (by simp) (by simp) (by simp)
  exact h.race v (hv ▸ hwf.settled_of_pop hpop)

/-- Every continuation keeps the invariant: one case for each. -/
theorem tracked_resume (h : Tracked o c s) (hinv : AttemptInv o c definition s)
    (hstarted : s.started = true ↔ ∃ v, validate o.fmt definition c.job.data = .ok v)
    (hpop : s.loop.pop = some ((k, r), loop)) :
    Tracked o c (resume o c (s.popped loop) k r) := by
  have hwf := hinv.subscriptions.wellFormed
  have hpopped := Running.pop hwf hpop
  have hset := hwf.settled_of_pop hpop
  have hlistening : ∀ q : Promise, q ≠ .aborted → s.listening = false ∨ q = .aborted →
      (s.popped loop).listening = false :=
    fun q hq hor => hor.resolve_right hq
  cases k with
  | invokeResume =>
    exact h.settle hpopped (by simp) (by simp) (by simp) (by simp) h.timer h.reason
      (hlistening _ (by simp)) (by simp) (by simp) (by simp)
  | raceWork =>
    have hwork : s.loop.settled .work = some r := hset
    exact h.settle hpopped (by simp) (by simp) (by simp) (fun _ v hv => hv ▸ hset) h.timer h.reason
      (hlistening _ (by simp)) (fun _ => Or.inl (by simp [hwork])) (by simp) (by simp)
  | raceAborted =>
    -- the promise of an abort has no value
    have haborted : s.loop.settled .aborted = some r := hset
    exact h.settle hpopped (by simp) (by simp) (by simp)
      (fun _ v hv => absurd (hv ▸ hset) (h.aborted v)) h.timer h.reason (hlistening _ (by simp))
      (fun _ => Or.inr (by simp [haborted])) (by simp) (by simp)
  | raceResume => exact h.raceResume_step hinv hpop
  | catchNoop =>
    exact h.settle hpopped (by simp) (by simp) (by simp) (by simp) h.timer h.reason
      (hlistening _ (by simp)) (by simp) (by simp) (by simp)
  | jobResume => exact h.jobResume hinv hstarted hpop
  | callerResume => exact h.frame hpopped (by simp) h.timer h.reason id

/-- **Every step keeps the invariant.** -/
theorem tracked_step (h : Tracked o c s) (hinv : AttemptInv o c definition s)
    (hstarted : s.started = true ↔ ∃ v, validate o.fmt definition c.job.data = .ok v)
    (hstep : (machine o c).step s e = some t) : Tracked o c t := by
  cases step_cases hstep with
  | handlerSettles r => exact h.settle_handler hinv.subscriptions.wellFormed
  | timerFires listener =>
    exact h.abort (u := { s.clearTimer with timedOut := true }) hinv ⟨rfl, rfl, rfl, rfl⟩ rfl _
      listener
  | workerAborts reason listener => exact h.abort hinv ⟨rfl, rfl, rfl, rfl⟩ rfl reason listener
  | microtask k r loop hpop => exact tracked_resume h hinv hstarted hpop

/-! ## The call -/

/-- What the start of `invoke` leaves tracked. -/
theorem invoke_counts : (State.called.invoke o c definition).timerArmed = true ∧
    (State.called.invoke o c definition).reason = none ∧
    ((State.called.invoke o c definition).started = true ↔
      ∃ v, validate o.fmt definition c.job.data = .ok v) ∧
    (State.called.invoke o c definition).increments =
      if (State.called.invoke o c definition).started then [(.started, c.labels o)] else [] := by
  unfold State.invoke
  cases validate o.fmt definition c.job.data with
  | error e => simp [State.called]
  | ok v =>
    cases c.handler with
    | throws error => simp [State.called, State.count]
    | returns settled => cases settled <;> simp [State.called, State.count]

theorem start_of_definition (hdef : c.definition o = some definition) :
    start o c = ((State.called.invoke o c definition).raceWithAbort o c).awaitRace := by
  rw [start, hdef]
  rfl

/-- The race keeps the clock, the counters and the timer as they are. -/
theorem kept_raceWithAbort : (s.raceWithAbort o c).awaitRace.started = s.started ∧
    (s.raceWithAbort o c).awaitRace.increments = s.increments ∧
    (s.raceWithAbort o c).awaitRace.timerArmed = s.timerArmed := by
  unfold State.raceWithAbort
  split <;> exact ⟨rfl, rfl, rfl⟩

theorem started_start (hdef : c.definition o = some definition) :
    (start o c).started = true ↔ ∃ v, validate o.fmt definition c.job.data = .ok v := by
  rw [start_of_definition hdef, kept_raceWithAbort.1]
  exact invoke_counts.2.2.1

/-- Entering the race, or finding it closed, establishes the invariant. -/
theorem Invoked.tracked (hinvoked : Invoked o c definition s) (harmed : s.timerArmed = true)
    (hreason : s.reason = none)
    (hincrements : s.increments = if s.started then [(.started, c.labels o)] else []) :
    Tracked o c (s.raceWithAbort o c).awaitRace := by
  obtain ⟨hstarted, hkept, htimer⟩ := @kept_raceWithAbort o c s
  have hpending : ∀ p, p ≠ .handler → p ≠ .work → p ≠ .raced →
      (s.raceWithAbort o c).awaitRace.loop.settled p = none := by
    intro p hh hw hr
    rw [settled_awaitRace]
    unfold State.raceWithAbort
    split
    · rw [loop_settle, Loop.settled_settle_of_ne hr]
      exact hinvoked.pending p hh hw
    · simp only [loop_subscribe, Loop.settled_subscribe]
      exact hinvoked.pending p hh hw
  -- The continuation of `processJob` is there in both cases.
  have hjob : (s.raceWithAbort o c).awaitRace.loop.Live src .jobResume :=
    live_awaitRace.mpr (Or.inr (Or.inl rfl))
  -- a refused race has settled, an open one is subscribed to
  have hrace : (∃ error, (s.raceWithAbort o c).awaitRace.loop.settled .raced =
        some (.rejected error)) ∧ (s.raceWithAbort o c).awaitRace.listening = false ∨
      (s.raceWithAbort o c).awaitRace.loop.settled .raced = none ∧
        (s.raceWithAbort o c).awaitRace.listening = true ∧
        (s.raceWithAbort o c).awaitRace.reason = none ∧
        (s.raceWithAbort o c).awaitRace.loop.Live src .raceWork ∧
        (s.raceWithAbort o c).awaitRace.loop.Live src .raceAborted ∧
        (s.raceWithAbort o c).awaitRace.loop.Live src .raceResume := by
    rw [settled_awaitRace, live_awaitRace, live_awaitRace, live_awaitRace]
    unfold State.raceWithAbort
    split
    · next reason _ =>
      refine Or.inl ⟨⟨thrown (abortError o.heap s.timedOut reason (c.timeoutMs o)), ?_⟩,
        hinvoked.listening⟩
      rw [loop_settle, Loop.settled_settle_self]
      show some ((s.loop.settled .raced).getD _) = _
      rw [hinvoked.pending _ (by simp) (by simp), Option.getD_none]
    · refine Or.inr ⟨?_, rfl, hreason, ?_, ?_, ?_⟩
      · simp only [loop_subscribe, Loop.settled_subscribe]
        exact hinvoked.pending _ (by simp) (by simp)
      · have hwork : ({ s with listening := true }.subscribe .raceWork).loop.Live src .raceWork :=
          live_subscribe.mpr (Or.inl rfl)
        exact Or.inr (Or.inr hwork.subscribe.subscribe)
      · exact Or.inr (Or.inr (live_subscribe.mpr (Or.inr (live_subscribe.mpr (Or.inl rfl)))))
      · exact Or.inr (Or.inr (live_subscribe.mpr (Or.inl rfl)))
  constructor
  · rw [hpending _ (by simp) (by simp) (by simp)]
    simp
  · rw [hpending _ (by simp) (by simp) (by simp)]
    simp
  · rcases hrace with ⟨⟨error, herror⟩, -⟩ | ⟨hnone, -⟩
    · simp [herror]
    · simp [hnone]
  · rw [htimer, harmed]
    simp
  · rcases hrace with ⟨-, hlistening⟩ | ⟨-, -, hnone, -⟩
    · exact fun _ => hlistening
    · exact fun hne => absurd hnone hne
  · exact fun hne => absurd (hpending _ (by simp) (by simp) (by simp)) hne
  · exact fun hne => absurd (hpending _ (by simp) (by simp) (by simp)) hne
  · rcases hrace with ⟨⟨error, herror⟩, -⟩ | ⟨-, -, -, hlive, -, -⟩
    · exact Or.inr (Or.inr (by simp [herror]))
    · exact Or.inl hlive
  · rcases hrace with ⟨⟨error, herror⟩, -⟩ | ⟨-, -, -, -, hlive, -⟩
    · exact Or.inr (Or.inr (by simp [herror]))
    · exact Or.inl hlive
  · rcases hrace with ⟨⟨error, herror⟩, -⟩ | ⟨-, -, -, -, -, hlive⟩
    · exact Or.inr (by simp [herror])
    · exact Or.inl hlive
  · refine fun _ => ⟨hjob, ?_⟩
    rw [State.counters, hkept, hincrements, hstarted]
    split_ifs <;> rfl
  · intro hne
    exact absurd (hpending _ (by simp) (by simp) (by simp)) hne
  · rw [hkept, hincrements]
    split_ifs
    · simp
    · simp

/-- **The call of a registered job** establishes the invariant. -/
theorem tracked_start (hdef : c.definition o = some definition) : Tracked o c (start o c) := by
  rw [start_of_definition hdef]
  obtain ⟨harmed, hreason, -, hincrements⟩ := @invoke_counts o c definition
  exact invoked_invoke.tracked harmed hreason hincrements

/-! ## Any call -/

/-- The state of a call under an unknown name: it has settled when it was called. -/
structure Refused (o : ProcessorOptions) (c : Call) (s : State) : Prop where
  wellFormed : s.loop.WellFormed src
  live : ∀ k, s.loop.Live src k → k = .callerResume
  settled : s.loop.settled .attempt ≠ none
  timerArmed : s.timerArmed = false
  listening : s.listening = false
  started : s.started = false
  increments : s.increments = [(.failed, c.labels o)]

/-- The invariant of a call, under a registered name or not. -/
inductive CallInv (o : ProcessorOptions) (c : Call) (s : State) : Prop
  | registered (definition : JobDefinition) (known : c.definition o = some definition)
      (inv : AttemptInv o c definition s) (tracked : Tracked o c s)
      (started : s.started = true ↔ ∃ v, validate o.fmt definition c.job.data = .ok v)
  | unknown (unregistered : c.definition o = none) (refused : Refused o c s)

/-- Everything a call counts carries its labels. -/
theorem CallInv.labels (h : CallInv o c s) : ∀ increment ∈ s.increments, increment.2 = c.labels o := by
  cases h with
  | registered _ _ _ tracked _ => exact tracked.labels
  | unknown _ refused =>
    intro increment hmem
    rw [refused.increments, List.mem_singleton] at hmem
    rw [hmem]

theorem kept_handlerListener (listener : Option Settled) :
    (s.handlerListener c listener).started = s.started ∧
      (s.handlerListener c listener).increments = s.increments := by
  unfold State.handlerListener
  split
  · split_ifs <;> exact ⟨rfl, rfl⟩
  · exact ⟨rfl, rfl⟩

theorem kept_abort (reason : JsValue) (listener : Option Settled) :
    (s.abort o c reason listener).started = s.started ∧
      (s.abort o c reason listener).increments = s.increments := by
  unfold State.abort State.onAbort
  split
  · exact ⟨rfl, rfl⟩
  · have hkept := kept_handlerListener (c := c) (s := { s with reason := some reason })
      listener
    split_ifs
    · split <;> exact hkept
    · exact hkept

/-- **What a step counts**: nothing, or what the continuation of `processJob` counts. -/
theorem increments_step (hstep : (machine o c).step s e = some t) : t.started = s.started ∧
    (t.increments = s.increments ∨
      s.loop.Live src .jobResume ∧ s.increments <+: t.increments) := by
  cases step_cases hstep with
  | handlerSettles r => exact ⟨rfl, Or.inl rfl⟩
  | timerFires listener =>
    obtain ⟨hstarted, hincrements⟩ := @kept_abort o c { s.clearTimer with timedOut := true }
      (.string (js "job timeout")) listener
    exact ⟨hstarted, Or.inl hincrements⟩
  | workerAborts reason listener =>
    exact ⟨(kept_abort reason listener).1, Or.inl (kept_abort reason listener).2⟩
  | microtask k r loop hpop =>
    have hlive : s.loop.Live src k := Loop.live_of_pop hpop
    -- Only the continuation of `processJob` counts.
    cases k with
    | jobResume =>
      cases r with
      | fulfilled value => exact ⟨rfl, Or.inr ⟨hlive, List.prefix_append _ _⟩⟩
      | rejected error =>
        have hobserve := prefix_observe (s.popped loop) (c.labels o)
        refine ⟨(kept_observe (s.popped loop) (c.labels o)).2.2.2, Or.inr ⟨hlive, ?_⟩⟩
        exact hobserve.trans (List.prefix_append _ _)
    | _ => exact ⟨rfl, Or.inl rfl⟩

theorem Refused.step (h : Refused o c s) (hstep : (machine o c).step s e = some t) :
    Refused o c t := by
  cases step_cases hstep with
  | handlerSettles r returned hhandler hstarted => cases h.started.symm.trans hstarted
  | timerFires listener harmed => cases h.timerArmed.symm.trans harmed
  | workerAborts reason listener =>
    unfold State.abort
    split
    · exact h
    · -- nobody listens to the signal of a call that was refused
      have hquiet : ({ s with reason := some reason } : State).handlerListener c listener =
          { s with reason := some reason } := by
        unfold State.handlerListener
        split
        · rw [h.started]
          rfl
        · rfl
      have hnobody : ({ s with reason := some reason } : State).onAbort o c reason =
          { s with reason := some reason } := if_neg (by simp [h.listening])
      rw [hquiet, hnobody]
      exact ⟨h.wellFormed, h.live, h.settled, h.timerArmed, h.listening, h.started, h.increments⟩
  | microtask k r loop hpop =>
    obtain rfl := h.live k (Loop.live_of_pop hpop)
    refine ⟨h.wellFormed.pop hpop, fun k' hk' => ?_, ?_, h.timerArmed, h.listening, h.started,
      h.increments⟩
    · exact h.live k' ((Loop.live_pop h.wellFormed hpop).mp hk').2
    · show loop.settled .attempt ≠ none
      rw [Loop.settled_pop hpop]
      exact h.settled

theorem callInv_start (o : ProcessorOptions) (c : Call) : CallInv o c (start o c) := by
  cases hdef : c.definition o with
  | some definition =>
    exact .registered definition hdef (attemptInv_start hdef) (tracked_start hdef)
      (started_start hdef)
  | none =>
    apply CallInv.unknown hdef
    have hstart : start o c = ((State.settle ⟨.start, false, false, none, false, false,
        [(.failed, c.labels o)]⟩ .attempt (.rejected (.kit (.unknownJob c.job.name)))).subscribe
          .callerResume) := by
      rw [start, hdef]
      rfl
    have hwf : (Loop.start : Loop Promise Reaction JsValue Thrown).WellFormed src :=
      Loop.wellFormed_start
    rw [hstart]
    -- Nothing but the caller's own await was subscribed.
    constructor
    · have hidle : ∀ r', ¬ (Loop.start.settle .attempt r').Live src .callerResume :=
        fun _ hl => Loop.not_live_start ((Loop.live_settle hwf).mp hl)
      exact hwf.settle.subscribe rfl (hidle _)
    · intro k hk
      rcases live_subscribe.mp hk with hk | hl
      · exact hk
      · exact absurd ((Loop.live_settle hwf).mp hl) Loop.not_live_start
    · rw [loop_subscribe, Loop.settled_subscribe, loop_settle, Loop.settled_settle_self]
      exact Option.some_ne_none _
    all_goals rfl

/-- **Every step of a call keeps its invariant.** -/
theorem callInv_step (h : CallInv o c s) (hstep : (machine o c).step s e = some t) :
    CallInv o c t := by
  cases h with
  | registered definition known inv tracked started =>
    refine .registered definition known (attemptInv_step inv hstep)
      (tracked_step tracked inv started hstep) ?_
    rw [(increments_step hstep).1]
    exact started
  | unknown unregistered refused => exact .unknown unregistered (refused.step hstep)

/-- A call that has settled counts nothing more. -/
theorem increments_of_settled (h : CallInv o c s) (hsettled : s.loop.settled .attempt ≠ none)
    (hstep : (machine o c).step s e = some t) : t.increments = s.increments := by
  rcases (increments_step hstep).2 with hkept | ⟨hlive, -⟩
  · exact hkept
  · cases h with
    | registered _ _ _ tracked _ => exact absurd hlive (tracked.done hsettled).1
    | unknown _ refused => exact absurd (refused.live _ hlive) (by simp)

/-! ## What is settled stays settled -/

theorem settled_handlerListener {listener : Option Settled} (h : s.loop.settled p = some r) :
    (s.handlerListener c listener).loop.settled p = some r := by
  unfold State.handlerListener
  split
  · split_ifs
    · exact Loop.settled_settle_of_settled h
    · exact h
  · exact h

theorem settled_abort {reason : JsValue} {listener : Option Settled}
    (h : s.loop.settled p = some r) :
    (s.abort o c reason listener).loop.settled p = some r := by
  unfold State.abort State.onAbort
  split
  · exact h
  · have hlistener : (({ s with reason := some reason } : State).handlerListener c
        listener).loop.settled p = some r := settled_handlerListener h
    split_ifs
    · split
      · exact Loop.settled_settle_of_settled hlistener
      · exact hlistener
    · exact hlistener

/-- A promise that has settled stays as it is settled. -/
theorem settled_step (h : s.loop.settled p = some r) (hstep : (machine o c).step s e = some t) :
    t.loop.settled p = some r := by
  cases step_cases hstep with
  | handlerSettles r => exact Loop.settled_settle_of_settled h
  | timerFires listener => exact settled_abort (s := { s.clearTimer with timedOut := true }) h
  | workerAborts reason listener => exact settled_abort h
  | microtask k r' loop hpop =>
    have hpopped : loop.settled p = some r := by rw [Loop.settled_pop hpop, h]
    cases k with
    | raceResume =>
      apply Loop.settled_settle_of_settled
      rw [loop_subscribe, Loop.settled_subscribe]
      exact hpopped
    | jobResume =>
      cases r' with
      | fulfilled value => exact Loop.settled_settle_of_settled hpopped
      | rejected error =>
        apply Loop.settled_settle_of_settled
        show ((s.popped loop).observe (c.labels o)).loop.settled p = some r
        rw [(kept_observe _ _).1]
        exact hpopped
    | callerResume => exact hpopped
    | _ => exact Loop.settled_settle_of_settled hpopped

end Attempt

end QueueWorkerKit
