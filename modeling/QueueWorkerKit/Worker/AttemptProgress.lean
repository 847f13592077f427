import QueueWorkerKit.Utils.Sleep
import QueueWorkerKit.Worker.AttemptAccounting

/-!
# How an attempt gets to its end

The microtasks and the timer of an attempt settle it, whatever its handler does. There is one way to
prevent that: an abort by the worker whose reason throws when it is tested for its class. The
listener of the race is gone with it, and the signal is not aborted again at the deadline; the
attempt is stuck until the promise of its handler settles.

## Main definitions

* `Heard`: the reason of an abort that meets a waiting race answers the class test
* `Stuck`: nothing but the handler can settle the attempt
* `remaining`: what is left to run of an attempt

## Main results

* `exists_loop_abort`: what an abort does that a race listens for
* `not_stuck_step`, `stuck_of_unheard`: **an attempt gets stuck by an abort that is not heard**, and
  by nothing else
* `exists_run_settled`: an attempt that is not stuck can be run until it has settled
-/

namespace QueueWorkerKit

open Ecma EventDriven

namespace Attempt

variable {o : ProcessorOptions} {c : Call} {definition : JobDefinition} {s t u : State}
  {k : Reaction} {r : Settled} {e : Event} {es : List Event}
  {loop : Loop Promise Reaction JsValue Thrown} {reason : JsValue} {listener : Option Settled}

/-! ## Attempts that are stuck -/

/-- The race listens for an abort, and the promise of the handler it waits for is pending. -/
structure State.Waits (c : Call) (s : State) : Prop where
  listening : s.listening = true
  inTime : s.timedOut = false
  started : s.started = true
  returned : ∃ r, c.handler = .returns r
  handler : s.loop.settled .handler = none

/-- The reason of an abort by the worker that meets a race answers the class test, where no listener
of the handler settles its promise. -/
def Heard (o : ProcessorOptions) (c : Call) (s : State) : Event → Prop
  | .workerAborts reason none => s.Waits c → AnswersTest o.heap reason
  | _ => True

/-- Nothing but the handler can settle an attempt that is stuck: its race has lost its listener, and
none of its promises has settled. -/
structure Stuck (s : State) : Prop where
  deaf : s.listening = false
  pending : ∀ p, p ≠ .silenced → s.loop.settled p = none

/-- The error for the reason of an abort can be made exactly when the reason answers the class
test. -/
theorem exists_cancellation_iff {h : Heap ErrorClass} :
    (∃ error, cancellation h reason = .ok error) ↔ AnswersTest h reason := by
  constructor
  · rintro ⟨error, herror⟩
    cases htest : reason.instanceOf h .error with
    | ok isError => exact ⟨isError, htest⟩
    | error v =>
      rw [cancellation, htest] at herror
      cases herror
  · rintro ⟨isError, hisError⟩
    rw [cancellation, hisError]
    exact ⟨_, rfl⟩

theorem handlerListener_none : s.handlerListener c none = s := by
  unfold State.handlerListener
  cases c.handler <;> rfl

/-- A listener of a handler that was called settles its promise. -/
theorem handlerListener_some (hreturned : ∃ settled, c.handler = .returns settled)
    (hstarted : s.started = true) : s.handlerListener c (some r) = s.settle .handler r := by
  obtain ⟨settled, hreturned⟩ := hreturned
  simp only [State.handlerListener, hreturned, hstarted, if_true]

/-- The listener of the handler settles its promise, if anything. -/
theorem handlerListener_cases (s : State) (listener : Option Settled) :
    ∃ loop, s.handlerListener c listener = { s with loop } ∧
      (loop = s.loop ∨ ∃ r, loop = s.loop.settle .handler r) := by
  unfold State.handlerListener
  split
  · split_ifs
    · exact ⟨_, rfl, Or.inr ⟨_, rfl⟩⟩
    · exact ⟨_, rfl, Or.inl rfl⟩
  · exact ⟨_, rfl, Or.inl rfl⟩

/-- An abort that a race listens for: the listener of the handler runs, and then that of the race,
which rejects with the error if that can be made. -/
theorem exists_loop_abort (o : ProcessorOptions) (c : Call) (hreason : s.reason = none)
    (hlistening : s.listening = true) (reason : JsValue) (listener : Option Settled) :
    ∃ loop, s.handlerListener c listener = { s with loop } ∧
      (loop = s.loop ∨ ∃ r, loop = s.loop.settle .handler r) ∧
      (∀ error, abortError o.heap s.timedOut reason (c.timeoutMs o) = .ok error →
        s.abort o c reason listener = State.settle
          { s with reason := some reason, listening := false, loop } .aborted (.rejected error)) ∧
      ∀ v, abortError o.heap s.timedOut reason (c.timeoutMs o) = .error v →
        s.abort o c reason listener =
          { s with reason := some reason, listening := false, loop } := by
  obtain ⟨loop, hlistener, hloop⟩ := handlerListener_cases (c := c) s listener
  have hreasoned : ({ s with reason := some reason } : State).handlerListener c listener =
      { s with reason := some reason, loop } := by
    have hkept : ({ s with reason := some reason } : State).handlerListener c listener =
        { s.handlerListener c listener with reason := some reason } := by
      unfold State.handlerListener
      split
      · split_ifs <;> rfl
      · rfl
    rw [hkept, hlistener]
  have habort : s.abort o c reason listener =
      State.onAbort o c { s with reason := some reason, loop } reason := by
    unfold State.abort
    rw [hreason, ← hreasoned]
  refine ⟨loop, hlistener, hloop, fun error herror => ?_, fun v hthrows => ?_⟩
  · rw [habort, State.onAbort, if_pos hlistening]
    simp only [herror]
    rfl
  · rw [habort, State.onAbort, if_pos hlistening]
    simp only [hthrows]
    rfl

/-- No continuation of a stuck attempt is queued. -/
theorem Stuck.pop_eq_none (h : Stuck s) (hwf : s.loop.WellFormed src) : s.loop.pop = none := by
  by_contra hne
  obtain ⟨⟨⟨k, r⟩, loop⟩, hpop⟩ := Option.ne_none_iff_exists'.mp hne
  cases (h.pending (src k) (by cases k <;> simp [src])).symm.trans (hwf.settled_of_pop hpop)

/-- An abort that meets an attempt which does not listen settles nothing. -/
theorem loop_abort_deaf (o : ProcessorOptions) (c : Call) (hdeaf : s.listening = false)
    (reason : JsValue) :
    (s.abort o c reason none).loop = s.loop ∧ (s.abort o c reason none).listening = false := by
  unfold State.abort
  split
  · exact ⟨rfl, hdeaf⟩
  · rw [handlerListener_none, State.onAbort, if_neg (by simp [hdeaf])]
    exact ⟨rfl, hdeaf⟩

/-- Microtasks and the timer leave a stuck attempt stuck. -/
theorem stuck_step (h : Stuck s) (hwf : s.loop.WellFormed src)
    (he : e = .microtask ∨ e = .timerFires none) (hstep : (machine o c).step s e = some t) :
    Stuck t := by
  cases step_cases hstep with
  | handlerSettles r => simp at he
  | workerAborts reason listener => simp at he
  | timerFires listener harmed =>
    obtain rfl : listener = none := by simpa using he
    have hdeaf : ({ s.clearTimer with timedOut := true } : State).listening = false := h.deaf
    obtain ⟨hloop, hlistening⟩ := loop_abort_deaf o c hdeaf (.string (js "job timeout"))
    refine ⟨hlistening, fun p hp => ?_⟩
    rw [hloop]
    exact h.pending p hp
  | microtask k r loop hpop => cases (h.pop_eq_none hwf).symm.trans hpop

theorem CallInv.wellFormed (h : CallInv o c s) : s.loop.WellFormed src := by
  cases h with
  | registered _ _ inv _ _ => exact inv.subscriptions.wellFormed
  | unknown _ refused => exact refused.wellFormed

theorem stuck_run (h : Stuck s) (hinv : CallInv o c s)
    (hes : ∀ e ∈ es, e = .microtask ∨ e = .timerFires none)
    (hrun : (machine o c).run s es = some t) : Stuck t := by
  have hstep : ∀ s e t, Stuck s ∧ CallInv o c s → (e = .microtask ∨ e = .timerFires none) →
      (machine o c).step s e = some t → Stuck t ∧ CallInv o c t :=
    fun s e t h he hstep => ⟨stuck_step h.1 h.2.wellFormed he hstep, callInv_step h.2 hstep⟩
  exact (Machine.run_invariant hstep ⟨h, hinv⟩ (Machine.stepsMeet_of_forall hes) hrun).1

/-- An attempt that listens while nothing has settled waits for its handler. -/
theorem waits_of_pending (h : AttemptInv o c definition s)
    (hstarted : s.started = true ↔ ∃ v, validate o.fmt definition c.job.data = .ok v)
    (hpending : ∀ p, p ≠ .silenced → s.loop.settled p = none) (hlistening : s.listening = true)
    (hinTime : s.timedOut = false) : s.Waits c := by
  cases h.outcome with
  | awaiting run data _ _ _ =>
    exact ⟨hlistening, hinTime, hstarted.mpr data, run, hpending .handler (by simp)⟩
  | invalid _ _ _ _ work => cases (hpending .work (by simp)).symm.trans work
  | threw _ _ _ work => cases (hpending .work (by simp)).symm.trans work
  | settled _ _ _ _ handler _ => cases (hpending .handler (by simp)).symm.trans handler

/-- **Only an abort that is not heard leaves an attempt stuck.** -/
theorem not_stuck_step (h : CallInv o c s) (hfree : ¬ Stuck s) (hheard : Heard o c s e)
    (hstep : (machine o c).step s e = some t) : ¬ Stuck t := by
  intro ht
  -- what is pending after the step was pending before
  have hpending : ∀ p, p ≠ .silenced → s.loop.settled p = none := by
    intro p hp
    cases hsettled : s.loop.settled p with
    | none => rfl
    | some r => cases (ht.pending p hp).symm.trans (settled_step hsettled hstep)
  have hlistening : s.listening = true := by
    by_contra hdeaf
    exact hfree ⟨Bool.eq_false_of_not_eq_true hdeaf, hpending⟩
  cases h with
  | unknown _ refused => exact refused.settled (hpending .attempt (by simp))
  | registered definition _ inv tracked started =>
    have hreason : s.reason = none := by
      by_contra hne
      cases hlistening.symm.trans (tracked.reason hne)
    have haborted : ∀ u : State, ∀ error, (u.settle .aborted (.rejected error)).loop.settled
        .aborted ≠ none := by
      intro u error
      rw [loop_settle, Loop.settled_settle_self]
      exact Option.some_ne_none _
    cases step_cases hstep with
    | handlerSettles r =>
      have hhandler := ht.pending .handler (by simp)
      rw [loop_settle, Loop.settled_settle_self] at hhandler
      cases hhandler
    | timerFires listener =>
      -- the deadline makes its error
      have hunset : ({ s.clearTimer with timedOut := true } : State).reason = none := hreason
      obtain ⟨loop, -, -, hok, -⟩ :=
        exists_loop_abort o c hunset hlistening (.string (js "job timeout")) listener
      rw [hok _ rfl] at ht
      exact haborted _ _ (ht.pending .aborted (by simp))
    | workerAborts reason listener =>
      obtain ⟨loop, hlistener, -, hok, hthrows⟩ :=
        exists_loop_abort o c hreason hlistening reason listener
      cases herror : abortError o.heap s.timedOut reason (c.timeoutMs o) with
      | ok error =>
        rw [hok error herror] at ht
        exact haborted _ _ (ht.pending .aborted (by simp))
      | error v =>
        -- the class test throws, so a listener of the handler has settled its promise
        rw [hthrows v herror] at ht
        have hwaits : s.Waits c := by
          refine waits_of_pending inv started hpending hlistening ?_
          by_contra hlate
          rw [Bool.not_eq_false] at hlate
          rw [abortError, if_pos hlate] at herror
          cases herror
        rw [abortError, hwaits.inTime] at herror
        cases listener with
        | none =>
          obtain ⟨error, hmade⟩ := exists_cancellation_iff.mpr (hheard hwaits)
          cases hmade.symm.trans herror
        | some r =>
          rw [handlerListener_some hwaits.returned hwaits.started] at hlistener
          have hloop : s.loop.settle .handler r = loop := congrArg State.loop hlistener
          have hhandler : loop.settled .handler = none := ht.pending .handler (by simp)
          rw [← hloop, Loop.settled_settle_self] at hhandler
          cases hhandler
    | microtask k r loop hpop =>
      have hset := inv.subscriptions.wellFormed.settled_of_pop hpop
      cases (hpending (src k) (by cases k <;> simp [src])).symm.trans hset

/-- Nothing has settled of an attempt that waits for its handler. -/
theorem pending_of_waits (h : AttemptInv o c definition s) (htracked : Tracked o c s)
    (hwaits : s.Waits c) : ∀ p, p ≠ .silenced → s.loop.settled p = none := by
  have hraced : s.loop.settled .raced = none := by
    by_contra hne
    cases hwaits.listening.symm.trans (h.subscriptions.listener hne)
  have haborted : s.loop.settled .aborted = none := by
    by_contra hne
    cases hwaits.listening.symm.trans (htracked.listening hne)
  have hwork : s.loop.settled .work = none := by
    obtain ⟨returned, hreturned⟩ := hwaits.returned
    cases h.outcome with
    | awaiting _ _ _ _ work => exact work
    | invalid _ _ unstarted _ _ => cases hwaits.started.symm.trans unstarted
    | threw _ run _ _ => cases hreturned.symm.trans run
    | settled _ _ _ _ handler _ => cases hwaits.handler.symm.trans handler
  intro p hp
  cases p with
  | handler => exact hwaits.handler
  | work => exact hwork
  | aborted => exact haborted
  | race =>
    by_contra hne
    rcases htracked.entry hne with hentry | hentry
    · exact hentry hwork
    · exact hentry haborted
  | raced => exact hraced
  | attempt =>
    by_contra hne
    exact (h.subscriptions.timer hne).2 hraced
  | silenced => exact absurd rfl hp

/-- **An abort that is not heard** leaves the attempt stuck. -/
theorem stuck_of_unheard (h : CallInv o c s) (hnot : ¬ Heard o c s e)
    (hstep : (machine o c).step s e = some t) : Stuck t := by
  cases e with
  | handlerSettles r => exact absurd trivial hnot
  | timerFires listener => exact absurd trivial hnot
  | microtask => exact absurd trivial hnot
  | workerAborts reason listener =>
    cases listener with
    | some r => exact absurd trivial hnot
    | none =>
      obtain ⟨hwaits, htest⟩ : s.Waits c ∧ ¬ AnswersTest o.heap reason :=
        Classical.not_imp.mp hnot
      cases h with
      | unknown _ refused => cases hwaits.listening.symm.trans refused.listening
      | registered definition _ inv tracked _ =>
        have hreason : s.reason = none := by
          by_contra hne
          cases hwaits.listening.symm.trans (tracked.reason hne)
        obtain ⟨loop, hlistener, -, -, hthrows⟩ :=
          exists_loop_abort o c hreason hwaits.listening reason none
        rw [handlerListener_none] at hlistener
        have hloop : s.loop = loop := congrArg State.loop hlistener
        obtain rfl : s.abort o c reason none = t := Option.some.inj hstep
        cases hmade : cancellation o.heap reason with
        | ok error => exact absurd (exists_cancellation_iff.mp ⟨error, hmade⟩) htest
        | error v =>
          rw [hthrows v (by rw [abortError, hwaits.inTime]; exact hmade)]
          refine ⟨rfl, fun p hp => ?_⟩
          show loop.settled p = none
          rw [← hloop]
          exact pending_of_waits inv tracked hwaits p hp

/-- A call is not stuck when it is made. -/
theorem not_stuck_start (o : ProcessorOptions) (c : Call) : ¬ Stuck (start o c) := by
  intro h
  cases hdef : c.definition o with
  | none =>
    have hsettled : (start o c).loop.settled .attempt ≠ none := by
      rw [start, hdef]
      simp [Loop.settle, Loop.start, State.count]
    exact hsettled (h.pending .attempt (by simp))
  | some definition =>
    have hdeaf := h.deaf
    have hraced := h.pending .raced (by simp)
    rw [start_of_definition hdef] at hdeaf hraced
    cases haborted : c.aborted with
    | none =>
      simp only [State.raceWithAbort, haborted] at hdeaf
      cases hdeaf
    | some reason =>
      simp only [settled_awaitRace, State.raceWithAbort, haborted, loop_settle,
        Loop.settled_settle_self] at hraced
      cases hraced

/-! ## Attempts that settle -/

/-- The continuations of an attempt. -/
def reactions : Finset Reaction :=
  {.invokeResume, .raceWork, .raceAborted, .raceResume, .catchNoop, .jobResume, .callerResume}

theorem mem_reactions (k : Reaction) : k ∈ reactions := by
  cases k <;> simp [reactions]

/-- What is left to run: the continuations that are live, the one that the race adds when it is
over, and the timer. -/
def remaining (s : State) : ℕ :=
  s.loop.liveCount src reactions + (if s.loop.Live src .raceResume then 1 else 0) +
    if s.timerArmed then 1 else 0

/-- What runs leaves less to run when it takes one off the continuations and adds nothing. -/
theorem remaining_lt (hcount : t.loop.liveCount src reactions < s.loop.liveCount src reactions)
    (hrace : t.loop.Live src .raceResume → s.loop.Live src .raceResume)
    (htimer : t.timerArmed = true → s.timerArmed = true) : remaining t < remaining s := by
  have hrace' : (if t.loop.Live src .raceResume then 1 else 0) ≤
      if s.loop.Live src .raceResume then 1 else 0 := by
    split_ifs with ht hs
    · exact le_rfl
    · exact absurd (hrace ht) hs
    · exact Nat.zero_le _
    · exact le_rfl
  have htimer' : (if t.timerArmed then 1 else 0) ≤ if s.timerArmed then 1 else 0 := by
    split_ifs with ht hs
    · exact le_rfl
    · exact absurd (htimer ht) hs
    · exact Nat.zero_le _
    · exact le_rfl
  unfold remaining
  omega

/-- Settling a promise after a microtask was taken leaves less to run. -/
theorem remaining_settle_lt {p : Promise} {r' : Settled} (hwf : s.loop.WellFormed src)
    (hpop : s.loop.pop = some ((k, r), loop)) (hloop : u.loop = loop)
    (htimer : u.timerArmed = true → s.timerArmed = true) :
    remaining (u.settle p r') < remaining s := by
  have hwf' : u.loop.WellFormed src := by
    rw [hloop]
    exact hwf.pop hpop
  apply remaining_lt
  · rw [loop_settle, Loop.liveCount_settle hwf', hloop]
    exact Loop.liveCount_pop_lt hwf hpop (mem_reactions k)
  · rw [loop_settle, Loop.live_settle hwf', hloop]
    exact fun hlive => ((Loop.live_pop hwf hpop).mp hlive).2
  · exact htimer

/-- The await of the race gives way to the `catch` on the work, which is one continuation for
one. -/
theorem remaining_raceResume_lt (h : AttemptInv o c definition s)
    (hpop : s.loop.pop = some ((.raceResume, r), loop)) :
    remaining (((s.popped loop).removeListener.subscribe .catchNoop).settle .raced r) <
      remaining s := by
  have hwf := h.subscriptions.wellFormed
  have hlive : s.loop.Live src .raceResume := Loop.live_of_pop hpop
  have hcatch : ¬ loop.Live src .catchNoop :=
    fun hl => h.subscriptions.once hlive ((Loop.live_pop hwf hpop).mp hl).2
  have hwf' : ((s.popped loop).removeListener.subscribe .catchNoop).loop.WellFormed src :=
    (hwf.pop hpop).subscribe rfl hcatch
  have hcount : loop.liveCount src reactions < s.loop.liveCount src reactions :=
    Loop.liveCount_pop_lt hwf hpop (mem_reactions _)
  have hadded : ((s.popped loop).removeListener.subscribe .catchNoop).loop.liveCount src reactions ≤
      loop.liveCount src reactions + 1 := Loop.liveCount_subscribe_le rfl
  -- The await is over, which makes up for the continuation that is added.
  have hover : ¬ (((s.popped loop).removeListener.subscribe .catchNoop).settle .raced r).loop.Live
      src .raceResume := by
    rw [loop_settle, Loop.live_settle hwf', live_subscribe]
    rintro (hk | hl)
    · cases hk
    · exact ((Loop.live_pop hwf hpop).mp hl).1 rfl
  unfold remaining
  rw [if_neg hover, if_pos hlive, loop_settle, Loop.liveCount_settle hwf']
  show _ + 0 + (if s.timerArmed then 1 else 0) < _
  omega

/-- **A microtask leaves less to run**: one case for each continuation. -/
theorem remaining_resume_lt (h : AttemptInv o c definition s)
    (hpop : s.loop.pop = some ((k, r), loop)) :
    remaining (resume o c (s.popped loop) k r) < remaining s := by
  have hwf := h.subscriptions.wellFormed
  have hsettle : ∀ p r', remaining ((s.popped loop).settle p r') < remaining s :=
    fun p r' => remaining_settle_lt hwf hpop rfl id
  cases k with
  | raceResume => exact remaining_raceResume_lt h hpop
  | jobResume =>
    cases r with
    | fulfilled value =>
      exact remaining_settle_lt (u := ((s.popped loop).count (c.labels o)
        [.duration, .completed]).clearTimer) hwf hpop rfl (by simp [State.clearTimer])
    | rejected error =>
      refine remaining_settle_lt hwf hpop ?_ (by simp [State.clearTimer])
      exact (kept_observe (s.popped loop) (c.labels o)).1
  | callerResume =>
    exact remaining_lt (Loop.liveCount_pop_lt hwf hpop (mem_reactions _))
      (fun hl => ((Loop.live_pop hwf hpop).mp hl).2) id
  | _ => exact hsettle _ _

/-- An attempt that waits for nothing that is queued has its timer armed, unless it is stuck: one
step of the race after the other would have been taken. -/
theorem Tracked.armed (h : Tracked o c s) (hinv : AttemptInv o c definition s)
    (hfree : ¬ Stuck s) (hq : s.loop.queue = []) (hpending : s.loop.settled .attempt = none) :
    s.timerArmed = true := by
  have hwf := hinv.subscriptions.wellFormed
  -- Nothing is queued, so what a continuation waits for is pending.
  have hraced : s.loop.settled .raced = none := hwf.pending_of_live hq (h.pending hpending).1
  have hrace : s.loop.settled .race = none := by
    rcases h.raceResume with hlive | hne
    · exact hwf.pending_of_live hq hlive
    · exact absurd hraced hne
  have haborted : s.loop.settled .aborted = none := by
    rcases h.raceAborted with hlive | hne | hne
    · exact hwf.pending_of_live hq hlive
    · exact absurd hrace hne
    · exact absurd hraced hne
  have hwork : s.loop.settled .work = none := by
    rcases h.raceWork with hlive | hne | hne
    · exact hwf.pending_of_live hq hlive
    · exact absurd hrace hne
    · exact absurd hraced hne
  have hhandler : s.loop.settled .handler = none := by
    cases hinv.outcome with
    | awaiting _ _ _ live _ => exact hwf.pending_of_live hq live
    | invalid _ _ _ uncalled _ => exact uncalled
    | threw _ _ uncalled _ => exact uncalled
    | settled _ _ _ _ _ work => cases hwork.symm.trans work
  by_contra harmed
  rw [Bool.not_eq_true] at harmed
  -- Without a timer the signal was aborted, and the listener of the race is gone.
  rcases h.timer harmed with hreason | hne
  · refine hfree ⟨h.reason hreason, fun p hp => ?_⟩
    cases p with
    | handler => exact hhandler
    | work => exact hwork
    | aborted => exact haborted
    | race => exact hrace
    | raced => exact hraced
    | attempt => exact hpending
    | silenced => exact absurd rfl hp
  · exact hne hpending

/-- An abort that no listener of the handler answers settles one promise at most. -/
theorem loop_abort_none (u : State) (reason : JsValue) :
    ((u.abort o c reason none).loop = u.loop ∨
      ∃ p r, (u.abort o c reason none).loop = u.loop.settle p r) ∧
      (u.abort o c reason none).timerArmed = u.timerArmed := by
  unfold State.abort
  split
  · exact ⟨Or.inl rfl, rfl⟩
  · -- only the listener of the race is left
    rw [handlerListener_none]
    unfold State.onAbort
    split_ifs
    · split
      · exact ⟨Or.inr ⟨_, _, rfl⟩, rfl⟩
      · exact ⟨Or.inl rfl, rfl⟩
    · exact ⟨Or.inl rfl, rfl⟩

/-- The timer fires, and leaves less to run. -/
theorem exists_timerFires (hwf : s.loop.WellFormed src) (hq : s.loop.queue = [])
    (harmed : s.timerArmed = true) :
    ∃ t, (machine o c).step s (.timerFires none) = some t ∧ remaining t < remaining s := by
  refine ⟨_, if_pos ⟨harmed, hq⟩, ?_⟩
  obtain ⟨hloop, htimer⟩ := @loop_abort_none o c { s.clearTimer with timedOut := true }
    (.string (js "job timeout"))
  generalize State.abort o c _ _ none = t at hloop htimer
  have hunarmed : t.timerArmed = false := htimer
  have hcount : t.loop.liveCount src reactions = s.loop.liveCount src reactions := by
    rcases hloop with hloop | ⟨p, r, hloop⟩
    · exact congrArg (Loop.liveCount src reactions) hloop
    · rw [hloop]
      exact Loop.liveCount_settle hwf
  have hlive : t.loop.Live src .raceResume ↔ s.loop.Live src .raceResume := by
    rcases hloop with hloop | ⟨p, r, hloop⟩
    · rw [hloop]
      exact Iff.rfl
    · rw [hloop]
      exact Loop.live_settle hwf
  -- The timer is what there is less of.
  unfold remaining
  simp only [hcount, hlive, hunarmed, harmed, if_true, Bool.false_eq_true, if_false]
  omega

/-- **An attempt that is not stuck can be run until it has settled**: by its microtasks and its
timer, whatever its handler does. -/
theorem exists_run_settled (h : CallInv o c s) (hfree : ¬ Stuck s) : ∃ es t,
    (∀ e ∈ es, e = .microtask ∨ e = .timerFires none) ∧ (machine o c).run s es = some t ∧
      t.loop.settled .attempt ≠ none := by
  -- Strong induction on what is left to run.
  induction hn : remaining s using Nat.strongRecOn generalizing s with
  | ind n ih =>
    by_cases hpending : s.loop.settled .attempt = none
    · -- a microtask if one is queued, and the timer otherwise
      obtain ⟨e, t, he, hstep, hlt⟩ : ∃ e t, (e = .microtask ∨ e = .timerFires none) ∧
          (machine o c).step s e = some t ∧ remaining t < remaining s := by
        cases h with
        | unknown _ refused => exact absurd hpending refused.settled
        | registered definition _ inv tracked _ =>
          have hwf := inv.subscriptions.wellFormed
          by_cases hq : s.loop.queue = []
          · obtain ⟨t, hstep, hlt⟩ :=
              exists_timerFires hwf hq (tracked.armed inv hfree hq hpending)
            exact ⟨_, t, Or.inr rfl, hstep, hlt⟩
          · obtain ⟨⟨⟨k, r⟩, loop⟩, hpop⟩ :=
              Option.ne_none_iff_exists'.mp (mt Loop.pop_eq_none.mp hq)
            refine ⟨.microtask, resume o c (s.popped loop) k r, Or.inl rfl, ?_,
              remaining_resume_lt inv hpop⟩
            simp only [machine, hpop, Option.map_some]
            rfl
      have hheard : Heard o c s e := by rcases he with rfl | rfl <;> trivial
      obtain ⟨es, u, hes, hrun, hsettled⟩ := ih (remaining t) (hn ▸ hlt) (callInv_step h hstep)
        (not_stuck_step h hfree hheard hstep) rfl
      refine ⟨e :: es, u, ?_, Machine.run_cons.mpr ⟨t, hstep, hrun⟩, hsettled⟩
      intro e' he'
      rcases List.mem_cons.mp he' with rfl | he'
      · exact he
      · exact hes e' he'
    · exact ⟨[], s, by simp, rfl, hpending⟩

end Attempt

end QueueWorkerKit
