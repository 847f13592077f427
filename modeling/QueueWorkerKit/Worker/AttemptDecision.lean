import QueueWorkerKit.Worker.AttemptProgress

/-!
# What decides an attempt

Until something decides it, an attempt waits for its handler and for an abort. What the race takes
first settles the race, then `raceWithAbort`, then the attempt: what comes after it is too late. Two
things are taken that did not come first: a signal that is aborted before the race is entered, also
where the stored data is invalid; and an abort by the worker after the promise of the handler has
settled, as long as the await in `invoke` does not have it. One thing is not taken that came first:
an abort whose reason throws when it is tested for its class.

## Main definitions

* `Due`, `first`, `expected`: what comes first in a history, for a handler and for an attempt
* `taken`, `decision`: what the race takes, and what decides an attempt
* `OpenRace`, `Undecided`, `Decided`: an attempt before and after the race has taken something

## Main results

* `undecided_step`, `decided_step`: what a step decides, and that nothing changes a decision
* `decision_run`: **a run of an attempt decides what it is decided by**
* `settled_of_done`: what an attempt settles with
-/

namespace QueueWorkerKit

open Ecma EventDriven

namespace Attempt

variable {o : ProcessorOptions} {c : Call} {definition : JobDefinition} {s t u : State}
  {p : Promise} {k : Reaction} {r r' : Settled} {settled : Option Settled} {e : Event}
  {es : List Event} {error : Thrown} {reason : JsValue}
  {L loop : Loop Promise Reaction JsValue Thrown}

/-! ## What comes first -/

/-- What an attempt has to settle with: with a settlement as it is, with the error of its deadline,
or with the error for the reason of an abort. -/
inductive Due
  | settlement (r : Settled)
  | deadline
  | abort (reason : JsValue)

/-- What comes first, for a handler whose promise has settled already or not: the settlement of that
promise, the timer, or an abort by the worker. -/
def first : Option Settled → List Event → Option Due
  | some r, _ => some (.settlement r)
  | none, [] => none
  | none, .handlerSettles r :: _ => some (.settlement r)
  | none, .timerFires _ :: _ => some .deadline
  | none, .workerAborts reason _ :: _ => some (.abort reason)
  | none, .microtask :: es => first none es

/-- What the race takes. The timer waits for the microtasks, so it overtakes nothing. After an abort
that is not heard nothing is left but the handler, whose listener that abort has called. -/
def taken (h : Heap ErrorClass) (timeoutMs : ℕ) :
    Bool → Option Settled → List Event → Option Settled
  | _, _, [] => none
  | unheard, settled, .handlerSettles r :: es =>
    taken h timeoutMs unheard (some (settled.getD r)) es
  | false, settled, .workerAborts reason listener :: es =>
    match cancellation h reason with
    | .ok error => some (.rejected error)
    | .error _ => taken h timeoutMs true (settled.or listener) es
  | true, settled, .workerAborts _ _ :: es => taken h timeoutMs true settled es
  | _, some r, _ :: _ => some r
  | false, none, .timerFires _ :: _ => some (.rejected (.kit (.jobTimeout timeoutMs)))
  | true, none, .timerFires _ :: es => taken h timeoutMs true none es
  | unheard, none, .microtask :: es => taken h timeoutMs unheard none es

/-- What an attempt has to settle with: the error of a name that is not registered, or of data that
fails its validation, and otherwise with whichever comes first, which may be an abort before the
race is entered. It is `none` while nothing has come yet. -/
def expected (o : ProcessorOptions) (c : Call) (es : List Event) : Option Due :=
  match c.definition o with
  | none => some (.settlement (.rejected (.kit (.unknownJob c.job.name))))
  | some definition =>
    match validate o.fmt definition c.job.data, c.aborted, c.handler with
    | .error e, _, _ => some (.settlement (.rejected (.kit e)))
    | .ok _, some reason, _ => some (.abort reason)
    | .ok _, none, .throws error => some (.settlement (.rejected error))
    | .ok _, none, .returns settled => first settled es

/-- What decides the attempt at a registered job: the abort of a signal before the race is entered,
work that has failed by then, or what the race takes. -/
def decision (o : ProcessorOptions) (c : Call) (definition : JobDefinition) (es : List Event) :
    Option Settled :=
  match c.aborted, validate o.fmt definition c.job.data, c.handler with
  | some reason, _, _ => some (.rejected (thrown (cancellation o.heap reason)))
  | none, .error e, _ => some (.rejected (.kit e))
  | none, .ok _, .throws error => some (.rejected error)
  | none, .ok _, .returns settled => taken o.heap (c.timeoutMs o) false settled es

/-- What is thrown when an error is looked at: the error again, unless its classification or its
projection throws another value. -/
def rethrown (h : Heap ErrorClass) (error : Thrown) : Thrown :=
  match classifyError h error, logError h error with
  | .error v, _ => .value v
  | .ok _, .error v => .value v
  | .ok _, .ok () => error

/-- What the catch path makes of a settlement. -/
def caught (h : Heap ErrorClass) : Settled → Settled
  | .fulfilled value => .fulfilled value
  | .rejected error => .rejected (rethrown h error)

theorem rejection_catchRun (h : Heap ErrorClass) (job : ActiveJob) (error : Thrown) :
    (catchRun h job error).rejection = rethrown h error := by
  unfold catchRun rethrown
  cases classifyError h error with
  | error v => rfl
  | ok classification =>
    cases logError h error <;> rfl

/-! ## Once it is decided -/

/-- An attempt is decided: an entry of the race is the next to settle it, behind continuations of
`invoke` at most; or the race has settled, or `raceWithAbort` has, or the attempt itself. -/
inductive Decided (o : ProcessorOptions) (r : Settled)
    (L : Loop Promise Reaction JsValue Thrown) : Prop
  | racing (earlier later : List (Reaction × Settled)) (entry : Reaction)
      (queue : L.queue = earlier ++ (entry, r) :: later)
      (isEntry : entry = .raceWork ∨ entry = .raceAborted)
      (invoke : ∀ job ∈ earlier, job.1 = .invokeResume)
      (race : L.settled .race = none) (raced : L.settled .raced = none)
      (attempt : L.settled .attempt = none) (resume : L.Live src .raceResume)
      (job : L.Live src .jobResume)
  | resuming (race : L.settled .race = some r) (raced : L.settled .raced = none)
      (attempt : L.settled .attempt = none) (resume : L.Live src .raceResume)
      (job : L.Live src .jobResume)
  | finishing (raced : L.settled .raced = some r) (attempt : L.settled .attempt = none)
      (job : L.Live src .jobResume)
  | settled (attempt : L.settled .attempt = some (caught o.heap r))

/-- Whatever settles besides the race and what waits for it comes too late. -/
theorem Decided.settle (h : Decided o r L) (hrace : p ≠ .race) (hraced : p ≠ .raced)
    (hattempt : p ≠ .attempt) : Decided o r (L.settle p r') := by
  have hkeeps : ∀ q, q ≠ p → (L.settle p r').settled q = L.settled q :=
    fun q hq => Loop.settled_settle_of_ne hq
  cases h with
  | racing earlier later entry queue isEntry invoke race raced attempt resume job =>
    obtain ⟨jobs, hjobs⟩ := Loop.exists_queue_settle (L := L) (p := p) (r := r')
    refine .racing earlier (later ++ jobs) entry ?_ isEntry invoke ?_ ?_ ?_ ?_ ?_
    · rw [hjobs, queue, List.append_assoc, List.cons_append]
    · rw [hkeeps _ hrace.symm, race]
    · rw [hkeeps _ hraced.symm, raced]
    · rw [hkeeps _ hattempt.symm, attempt]
    · exact resume.settle
    · exact job.settle
  | resuming race raced attempt resume job =>
    refine .resuming ?_ ?_ ?_ resume.settle job.settle
    · rw [hkeeps _ hrace.symm, race]
    · rw [hkeeps _ hraced.symm, raced]
    · rw [hkeeps _ hattempt.symm, attempt]
  | finishing raced attempt job =>
    refine .finishing ?_ ?_ job.settle
    · rw [hkeeps _ hraced.symm, raced]
    · rw [hkeeps _ hattempt.symm, attempt]
  | settled attempt =>
    refine .settled ?_
    rw [hkeeps _ hattempt.symm, attempt]

theorem Decided.onAbort (h : Decided o r s.loop) (reason : JsValue) :
    Decided o r (s.onAbort o c reason).loop := by
  unfold State.onAbort
  split_ifs
  · split
    · exact h.settle (by simp) (by simp) (by simp)
    · exact h
  · exact h

/-- The listeners on the signal come too late. -/
theorem Decided.abort (h : Decided o r s.loop) (reason : JsValue)
    (listener : Option Settled) : Decided o r (s.abort o c reason listener).loop := by
  unfold State.abort
  split
  · exact h
  · -- the handler's listener, and then that of the race
    apply Decided.onAbort
    obtain ⟨loop, heq, rfl | ⟨r', rfl⟩⟩ :=
      handlerListener_cases (c := c) { s with reason := some reason } listener
    · rw [heq]
      exact h
    · rw [heq]
      exact h.settle (by simp) (by simp) (by simp)

theorem Decided.pop (h : Decided o r L) (hL : L.WellFormed src)
    (hpop : L.pop = some ((k, r'), loop)) (hk : k ≠ .raceWork ∧ k ≠ .raceAborted)
    (hresume : k ≠ .raceResume) (hjob : k ≠ .jobResume) : Decided o r loop := by
  have hsettled : loop.settled = L.settled := Loop.settled_pop hpop
  have hlive : ∀ k', k' ≠ k → (loop.Live src k' ↔ L.Live src k') := fun k' hne =>
    (Loop.live_pop hL hpop).trans (and_iff_right hne)
  cases h with
  | racing earlier later entry queue isEntry invoke race raced attempt resume job =>
    obtain ⟨rest, hqueue, rfl⟩ := Loop.pop_eq_some.mp hpop
    cases earlier with
    | nil =>
      -- the next one is an entry of the race
      rw [queue, List.nil_append] at hqueue
      obtain ⟨heq, -⟩ := List.cons.inj hqueue
      obtain ⟨rfl, -⟩ := Prod.mk.inj heq
      rcases isEntry with rfl | rfl
      · exact absurd rfl hk.1
      · exact absurd rfl hk.2
    | cons first earlier =>
      rw [queue, List.cons_append] at hqueue
      obtain ⟨-, rfl⟩ := List.cons.inj hqueue
      exact .racing earlier later entry rfl isEntry
        (fun job hjob => invoke job (List.mem_cons_of_mem _ hjob)) race raced attempt
        ((hlive _ hresume.symm).mpr resume) ((hlive _ hjob.symm).mpr job)
  | resuming race raced attempt resume job =>
    rw [← hsettled] at race raced attempt
    exact .resuming race raced attempt ((hlive _ hresume.symm).mpr resume)
      ((hlive _ hjob.symm).mpr job)
  | finishing raced attempt job =>
    rw [← hsettled] at raced attempt
    exact .finishing raced attempt ((hlive _ hjob.symm).mpr job)
  | settled attempt =>
    rw [← hsettled] at attempt
    exact .settled attempt

/-- An entry of the race settles it with the decision, unless it has settled. -/
theorem Decided.raceEntry (h : Decided o r L) (hL : L.WellFormed src)
    (hpop : L.pop = some ((k, r'), loop)) (hk : k = .raceWork ∨ k = .raceAborted) :
    Decided o r (loop.settle .race r') := by
  have hsettled : loop.settled = L.settled := Loop.settled_pop hpop
  have hlive : ∀ k', k' ≠ k → L.Live src k' → (loop.settle .race r').Live src k' :=
    fun k' hne hk' => Loop.Live.settle ((Loop.live_pop hL hpop).mpr ⟨hne, hk'⟩)
  have hresume : Reaction.raceResume ≠ k := by rcases hk with rfl | rfl <;> simp
  have hjob : Reaction.jobResume ≠ k := by rcases hk with rfl | rfl <;> simp
  cases h with
  | racing earlier later entry queue isEntry invoke race raced attempt resume job =>
    obtain ⟨rest, hqueue, rfl⟩ := Loop.pop_eq_some.mp hpop
    cases earlier with
    | nil =>
      -- this is the entry that decides
      rw [queue, List.nil_append] at hqueue
      obtain ⟨heq, -⟩ := List.cons.inj hqueue
      obtain ⟨rfl, rfl⟩ := Prod.mk.inj heq
      refine .resuming ?_ ?_ ?_ (hlive _ hresume resume) (hlive _ hjob job)
      · rw [Loop.settled_settle_self]
        show some ((L.settled .race).getD r) = some r
        rw [race, Option.getD_none]
      · rw [Loop.settled_settle_of_ne (by simp)]
        exact raced
      · rw [Loop.settled_settle_of_ne (by simp)]
        exact attempt
    | cons job' earlier =>
      -- only a continuation of `invoke` stands before it
      rw [queue, List.cons_append] at hqueue
      obtain ⟨rfl, -⟩ := List.cons.inj hqueue
      obtain rfl : k = .invokeResume := invoke _ List.mem_cons_self
      rcases hk with hk | hk <;> cases hk
  | resuming race raced attempt resume job =>
    rw [← hsettled] at race raced attempt
    refine .resuming (Loop.settled_settle_of_settled race) ?_ ?_ (hlive _ hresume resume)
      (hlive _ hjob job)
    · rw [Loop.settled_settle_of_ne (by simp), raced]
    · rw [Loop.settled_settle_of_ne (by simp), attempt]
  | finishing raced attempt job =>
    rw [← hsettled] at raced attempt
    refine .finishing (Loop.settled_settle_of_settled raced) ?_ (hlive _ hjob job)
    rw [Loop.settled_settle_of_ne (by simp), attempt]
  | settled attempt =>
    rw [← hsettled] at attempt
    exact .settled (Loop.settled_settle_of_settled attempt)

/-- The await of the race ends with the decision. -/
theorem Decided.raceResume (h : Decided o r L) (hL : L.WellFormed src)
    (hpop : L.pop = some ((.raceResume, r'), loop)) :
    Decided o r ((loop.subscribe .work .catchNoop).settle .raced r') := by
  have hset : L.settled .race = some r' := hL.settled_of_pop hpop
  have hsettled : (loop.subscribe .work .catchNoop).settled = L.settled := by
    rw [Loop.settled_subscribe, Loop.settled_pop hpop]
  cases h with
  | racing earlier later entry queue isEntry invoke race raced attempt resume job =>
    cases race.symm.trans hset
  | resuming race raced attempt resume job =>
    obtain rfl : r = r' := Option.some.inj (race.symm.trans hset)
    refine .finishing ?_ ?_ ?_
    · rw [Loop.settled_settle_self, hsettled, raced, Option.getD_none]
    · rw [Loop.settled_settle_of_ne (by simp), hsettled, attempt]
    · have hlive : loop.Live src .jobResume := (Loop.live_pop hL hpop).mpr ⟨by simp, job⟩
      exact hlive.subscribe.settle
  | finishing raced attempt job =>
    rw [← hsettled] at raced attempt
    refine .finishing (Loop.settled_settle_of_settled raced) ?_ ?_
    · rw [Loop.settled_settle_of_ne (by simp), attempt]
    · have hlive : loop.Live src .jobResume := (Loop.live_pop hL hpop).mpr ⟨by simp, job⟩
      exact hlive.subscribe.settle
  | settled attempt =>
    rw [← hsettled] at attempt
    exact .settled (Loop.settled_settle_of_settled attempt)

/-- The continuation of `processJob` settles the attempt with what is made of the decision. -/
theorem Decided.jobResume (h : Decided o r s.loop) (hwf : s.loop.WellFormed src)
    (hpop : s.loop.pop = some ((.jobResume, r'), loop)) :
    Decided o r (resume o c (s.popped loop) .jobResume r').loop := by
  have hset : s.loop.settled .raced = some r' := hwf.settled_of_pop hpop
  have hloop : (Attempt.resume o c (s.popped loop) .jobResume r').loop =
      loop.settle .attempt (caught o.heap r') := by
    cases r' with
    | fulfilled value => rfl
    | rejected error =>
      show ((s.popped loop).observe (c.labels o)).loop.settle .attempt
        (.rejected (catchRun o.heap c.job error).rejection) = _
      rw [(kept_observe (s.popped loop) (c.labels o)).1, rejection_catchRun]
      rfl
  have hsettled : loop.settled = s.loop.settled := Loop.settled_pop hpop
  rw [hloop]
  cases h with
  | racing earlier later entry queue isEntry invoke race raced attempt resume job =>
    cases raced.symm.trans hset
  | resuming race raced attempt resume job => cases raced.symm.trans hset
  | finishing raced attempt job =>
    obtain rfl : r = r' := Option.some.inj (raced.symm.trans hset)
    refine .settled ?_
    rw [Loop.settled_settle_self, hsettled, attempt, Option.getD_none]
  | settled attempt =>
    rw [← hsettled] at attempt
    exact .settled (Loop.settled_settle_of_settled attempt)

/-- A continuation of a decided attempt carries the decision on. -/
theorem Decided.resume (h : Decided o r s.loop) (hwf : s.loop.WellFormed src)
    (hpop : s.loop.pop = some ((k, r'), loop)) :
    Decided o r (resume o c (s.popped loop) k r').loop := by
  cases k with
  | invokeResume =>
    exact (h.pop hwf hpop (by simp) (by simp) (by simp)).settle (by simp) (by simp) (by simp)
  | raceWork => exact h.raceEntry hwf hpop (Or.inl rfl)
  | raceAborted => exact h.raceEntry hwf hpop (Or.inr rfl)
  | raceResume => exact h.raceResume hwf hpop
  | catchNoop =>
    exact (h.pop hwf hpop (by simp) (by simp) (by simp)).settle (by simp) (by simp) (by simp)
  | jobResume => exact h.jobResume hwf hpop
  | callerResume => exact h.pop hwf hpop (by simp) (by simp) (by simp)

/-- **Nothing changes a decision.** -/
theorem decided_step (h : Decided o r s.loop) (hwf : s.loop.WellFormed src)
    (hstep : (machine o c).step s e = some t) : Decided o r t.loop := by
  cases step_cases hstep with
  | handlerSettles r' => exact h.settle (by simp) (by simp) (by simp)
  | timerFires listener =>
    exact Decided.abort (s := { s.clearTimer with timedOut := true }) h _ listener
  | workerAborts reason listener => exact h.abort reason listener
  | microtask k r' loop hpop => exact h.resume hwf hpop

/-! ## Until it is decided -/

/-- The race is open: the handler's promise is pending, or its settlement is on the way to `invoke`,
and everything else is pending and waited for. -/
structure OpenRace (c : Call) (settled : Option Settled) (s : State) : Prop where
  queue : s.loop.queue = (settled.map fun r => (Reaction.invokeResume, r)).toList
  handler : s.loop.settled .handler = settled
  pending : ∀ p, p ≠ .handler → s.loop.settled p = none
  invoke : settled = none → s.loop.reactions .handler = [.invokeResume]
  work : s.loop.reactions .work = [.raceWork]
  aborted : s.loop.reactions .aborted = [.raceAborted]
  raceResume : s.loop.Live src .raceResume
  jobResume : s.loop.Live src .jobResume
  returned : ∃ returned, c.handler = .returns returned
  started : s.started = true

/-- Nothing is decided: the race is open, and listens for an abort unless one has come that was not
heard. -/
structure Undecided (c : Call) (unheard : Bool) (settled : Option Settled) (s : State) : Prop where
  race : OpenRace c settled s
  listening : unheard = false → s.listening = true
  reason : s.reason = none ↔ unheard = false
  timedOut : unheard = false → s.timedOut = false

variable {unheard : Bool}

/-- What leaves the promises alone leaves the race open. -/
theorem OpenRace.frame (h : OpenRace c settled s) (hloop : t.loop = s.loop)
    (hstarted : t.started = s.started) : OpenRace c settled t := by
  refine ⟨?_, ?_, ?_, ?_, ?_, ?_, ?_, ?_, h.returned, hstarted.trans h.started⟩
  all_goals rw [hloop]
  · exact h.queue
  · exact h.handler
  · exact h.pending
  · exact h.invoke
  · exact h.work
  · exact h.aborted
  · exact h.raceResume
  · exact h.jobResume

/-- The handler's promise settles, unless it has settled before. -/
theorem OpenRace.settle_handler (h : OpenRace c settled s) (r : Settled) :
    OpenRace c (some (settled.getD r)) (s.settle .handler r) := by
  have hreactions : ∀ p, p ≠ .handler →
      (s.loop.settle .handler r).reactions p = s.loop.reactions p :=
    fun p hp => Loop.reactions_settle_of_ne hp
  refine ⟨?_, ?_, ?_, by simp, ?_, ?_, h.raceResume.settle, h.jobResume.settle, h.returned,
    h.started⟩
  · cases hsettled : settled with
    | some r' =>
      rw [loop_settle, Loop.settle_of_settled (by simp [h.handler, hsettled]), h.queue, hsettled]
      rfl
    | none =>
      rw [loop_settle, Loop.settle_of_pending (h.handler.trans hsettled), h.invoke hsettled,
        h.queue, hsettled]
      rfl
  · rw [loop_settle, Loop.settled_settle_self, h.handler]
  · intro p hp
    rw [loop_settle, Loop.settled_settle_of_ne hp]
    exact h.pending p hp
  · rw [loop_settle, hreactions _ (by simp), h.work]
  · rw [loop_settle, hreactions _ (by simp), h.aborted]

/-- What the listener of the handler does leaves the race open. -/
theorem OpenRace.handlerListener (h : OpenRace c settled s) (listener : Option Settled) :
    OpenRace c (settled.or listener) (s.handlerListener c listener) := by
  cases listener with
  | none => rwa [handlerListener_none, Option.or_none]
  | some r =>
    have hor : settled.or (some r) = some (settled.getD r) := by cases settled <;> rfl
    rw [handlerListener_some h.returned h.started, hor]
    exact h.settle_handler r

/-- **An abort that is heard decides**, whether it is the worker's or the timer's, and whatever the
listener of the handler does: that of the race is called after it in the same step, and before any
microtask. One that is not heard leaves it to the handler. -/
theorem OpenRace.abort (h : OpenRace c settled s) (hreason : s.reason = none)
    (hlistening : s.listening = true) (reason : JsValue) (listener : Option Settled) :
    (∀ error, abortError o.heap s.timedOut reason (c.timeoutMs o) = .ok error →
        Decided o (.rejected error) (s.abort o c reason listener).loop) ∧
      ∀ v, abortError o.heap s.timedOut reason (c.timeoutMs o) = .error v →
        Undecided c true (settled.or listener) (s.abort o c reason listener) := by
  obtain ⟨loop, hlistener, -, hok, hthrows⟩ :=
    exists_loop_abort o c hreason hlistening reason listener
  have hloop := h.handlerListener listener
  rw [hlistener] at hloop
  constructor
  · intro error herror
    rw [hok error herror, loop_settle]
    show Decided o _ (loop.settle .aborted _)
    -- The entry of the abort is queued behind the await of `invoke` at most.
    refine .racing loop.queue [] .raceAborted ?_ (Or.inr rfl) ?_ ?_ ?_ ?_ ?_ ?_
    · rw [Loop.settle_of_pending (hloop.pending .aborted (by simp))]
      show loop.queue ++ (loop.reactions .aborted).map _ = _
      rw [show loop.reactions .aborted = _ from hloop.aborted]
      rfl
    · intro job hjob
      rw [show loop.queue = _ from hloop.queue] at hjob
      obtain ⟨r, -, rfl⟩ := Option.map_eq_some_iff.mp (Option.mem_toList.mp hjob)
      rfl
    · rw [Loop.settled_settle_of_ne (by simp)]
      exact hloop.pending .race (by simp)
    · rw [Loop.settled_settle_of_ne (by simp)]
      exact hloop.pending .raced (by simp)
    · rw [Loop.settled_settle_of_ne (by simp)]
      exact hloop.pending .attempt (by simp)
    · exact hloop.raceResume.settle
    · exact hloop.jobResume.settle
  · intro v hv
    rw [hthrows v hv]
    exact ⟨hloop.frame rfl rfl, by simp, by simp, by simp⟩

/-- The microtask that brings the result of the handler to `invoke` decides. -/
theorem OpenRace.microtask (h : OpenRace c settled s) (hwf : s.loop.WellFormed src)
    (hpop : s.loop.pop = some ((k, r), loop)) :
    settled = some r ∧ Decided o r (Attempt.resume o c (s.popped loop) k r).loop := by
  obtain ⟨rest, hqueue, hloop⟩ := Loop.pop_eq_some.mp hpop
  rw [h.queue] at hqueue
  cases hsettled : settled with
  | none =>
    rw [hsettled] at hqueue
    cases hqueue
  | some r' =>
    rw [hsettled] at hqueue
    obtain ⟨heq, rfl⟩ := List.cons.inj hqueue
    obtain ⟨rfl, rfl⟩ := Prod.mk.inj heq
    -- the work settles, and its entry is all that is queued
    have hpending : ∀ p, p ≠ .handler → loop.settled p = none := by
      intro p hp
      rw [Loop.settled_pop hpop]
      exact h.pending p hp
    have hlive : ∀ k, k ≠ .invokeResume → s.loop.Live src k →
        (loop.settle .work r').Live src k :=
      fun k hk hlive => Loop.Live.settle ((Loop.live_pop hwf hpop).mpr ⟨hk, hlive⟩)
    refine ⟨rfl, .racing [] [] .raceWork ?_ (Or.inl rfl) (by simp) ?_ ?_ ?_ ?_ ?_⟩
    · show (loop.settle .work r').queue = _
      rw [Loop.settle_of_pending (hpending .work (by simp)), hloop]
      show [] ++ (s.loop.reactions .work).map _ = _
      rw [h.work]
      rfl
    · exact (Loop.settled_settle_of_ne (by simp)).trans (hpending .race (by simp))
    · exact (Loop.settled_settle_of_ne (by simp)).trans (hpending .raced (by simp))
    · exact (Loop.settled_settle_of_ne (by simp)).trans (hpending .attempt (by simp))
    · exact hlive _ (by simp) h.raceResume
    · exact hlive _ (by simp) h.jobResume

/-- The timer waits for the microtasks. -/
theorem queue_of_timerFires {listener : Option Settled}
    (hstep : (machine o c).step s (.timerFires listener) = some t) : s.loop.queue = [] := by
  simp only [machine] at hstep
  split_ifs at hstep with hfires
  exact hfires.2

/-- The timer fires while the handler's promise is pending. -/
theorem OpenRace.pending_of_timerFires {listener : Option Settled} (h : OpenRace c settled s)
    (hstep : (machine o c).step s (.timerFires listener) = some t) : settled = none := by
  have hq := queue_of_timerFires hstep
  rw [h.queue] at hq
  cases settled with
  | none => rfl
  | some r => cases hq

/-- **What a step decides**: nothing, or what the race takes from the events so far; or it is an
abort that is not heard, and comes first unless the handler's promise has settled. -/
theorem undecided_step (h : Undecided c false settled s) (hwf : s.loop.WellFormed src)
    (hstep : (machine o c).step s e = some t) :
    (∃ r, Decided o r t.loop ∧
        ∀ es, taken o.heap (c.timeoutMs o) false settled (e :: es) = some r) ∨
      (∃ settled', Undecided c false settled' t ∧
        ∀ es, taken o.heap (c.timeoutMs o) false settled (e :: es) =
            taken o.heap (c.timeoutMs o) false settled' es ∧
          first settled (e :: es) = first settled' es) ∨
      ∃ settled', Undecided c true settled' t ∧
        (settled' = none → ∃ reason, ¬ AnswersTest o.heap reason ∧
          ∀ es, first settled (e :: es) = some (.abort reason)) ∧
        ∀ es, taken o.heap (c.timeoutMs o) false settled (e :: es) =
          taken o.heap (c.timeoutMs o) true settled' es := by
  cases step_cases hstep with
  | handlerSettles r =>
    refine Or.inr (Or.inl ⟨_, ⟨h.race.settle_handler r, h.listening, h.reason, h.timedOut⟩,
      fun es => ⟨rfl, ?_⟩⟩)
    cases settled <;> simp [first]
  | timerFires listener =>
    -- nothing is queued, so the handler's promise is pending
    obtain rfl := h.race.pending_of_timerFires hstep
    have hfired : OpenRace c none { s.clearTimer with timedOut := true } := h.race.frame rfl rfl
    have habort := hfired.abort (o := o) (h.reason.mpr rfl) (h.listening rfl)
      (.string (js "job timeout")) listener
    exact Or.inl ⟨_, habort.1 _ rfl, fun es => rfl⟩
  | workerAborts reason listener =>
    have habort := h.race.abort (o := o) (h.reason.mpr rfl) (h.listening rfl) reason listener
    rw [h.timedOut rfl] at habort
    cases herror : cancellation o.heap reason with
    | ok error =>
      refine Or.inl ⟨_, habort.1 error herror, fun es => ?_⟩
      simp only [taken, herror]
    | error v =>
      refine Or.inr (Or.inr ⟨_, habort.2 v herror, fun hnone => ⟨reason, ?_, fun es => ?_⟩,
        fun es => ?_⟩)
      · intro hanswers
        obtain ⟨error, hmade⟩ := exists_cancellation_iff.mpr hanswers
        cases hmade.symm.trans herror
      · rw [(Option.or_eq_none_iff.mp hnone).1]
        rfl
      · simp only [taken, herror]
  | microtask k r loop hpop =>
    obtain ⟨rfl, hdecided⟩ := h.race.microtask (o := o) hwf hpop
    exact Or.inl ⟨r, hdecided, fun es => rfl⟩

/-- After an abort that is not heard only the handler decides. -/
theorem unheard_step (h : Undecided c true settled s) (hwf : s.loop.WellFormed src)
    (hstep : (machine o c).step s e = some t) :
    (∃ r, Decided o r t.loop ∧
        ∀ es, taken o.heap (c.timeoutMs o) true settled (e :: es) = some r) ∨
      ∃ settled', Undecided c true settled' t ∧ (settled' = none → settled = none) ∧
        ∀ es, taken o.heap (c.timeoutMs o) true settled (e :: es) =
          taken o.heap (c.timeoutMs o) true settled' es := by
  obtain ⟨first, hfirst⟩ : ∃ first, s.reason = some first :=
    Option.ne_none_iff_exists'.mp (mt h.reason.mp (by simp))
  cases step_cases hstep with
  | handlerSettles r =>
    exact Or.inr ⟨_, ⟨h.race.settle_handler r, h.listening, h.reason, h.timedOut⟩, by simp,
      fun es => rfl⟩
  | timerFires listener =>
    obtain rfl := h.race.pending_of_timerFires hstep
    refine Or.inr ⟨none, ?_, id, fun es => rfl⟩
    -- the signal is aborted already, and no listener is called
    have hsame : State.abort o c { s.clearTimer with timedOut := true }
        (.string (js "job timeout")) listener = { s.clearTimer with timedOut := true } := by
      simp only [State.abort, State.clearTimer, hfirst]
    rw [hsame]
    exact ⟨h.race.frame rfl rfl, by simp, h.reason, by simp⟩
  | workerAborts reason listener =>
    have hsame : s.abort o c reason listener = s := by
      simp only [State.abort, hfirst]
    rw [hsame]
    exact Or.inr ⟨settled, h, id, fun es => rfl⟩
  | microtask k r loop hpop =>
    obtain ⟨rfl, hdecided⟩ := h.race.microtask (o := o) hwf hpop
    exact Or.inl ⟨r, hdecided, fun es => rfl⟩

/-! ## The call -/

/-- Work that has failed by the time the race is entered takes it. -/
theorem decided_of_work (haborted : c.aborted = none)
    (hloop : s.loop = Loop.start.settle .work (.rejected error)) :
    Decided o (.rejected error) (s.raceWithAbort o c).awaitRace.loop := by
  have hopen : (s.raceWithAbort o c).awaitRace.loop =
      ((((s.loop.subscribe .work .raceWork).subscribe .aborted .raceAborted).subscribe .race
        .raceResume).subscribe .raced .jobResume).subscribe .attempt .callerResume := by
    unfold State.raceWithAbort
    rw [haborted]
    rfl
  rw [hopen, hloop]
  refine .racing [] [] .raceWork ?_ (Or.inl rfl) (by simp) ?_ ?_ ?_ ?_ ?_
  · simp [Loop.subscribe, Loop.settle, Loop.start]
  · simp
  · simp
  · simp
  · exact Loop.Live.subscribe (Loop.Live.subscribe (Loop.live_subscribe_self rfl))
  · exact Loop.Live.subscribe (Loop.live_subscribe_self rfl)

/-- A signal that is aborted when the race is entered decides, whatever became of the work. -/
theorem decided_of_aborted {reason : JsValue} (haborted : c.aborted = some reason)
    (hinvoked : Invoked o c definition s) (htimer : s.timedOut = false) :
    Decided o (.rejected (thrown (cancellation o.heap reason)))
      (s.raceWithAbort o c).awaitRace.loop := by
  have hrefused : (s.raceWithAbort o c).awaitRace.loop =
      ((s.loop.settle .raced (.rejected (thrown (cancellation o.heap reason)))).subscribe .raced
        .jobResume).subscribe .attempt .callerResume := by
    simp only [State.raceWithAbort, haborted, htimer]
    rfl
  rw [hrefused]
  refine .finishing ?_ ?_ (Loop.Live.subscribe (Loop.live_subscribe_self rfl))
  · rw [Loop.settled_subscribe, Loop.settled_subscribe, Loop.settled_settle_self,
      hinvoked.pending .raced (by simp) (by simp), Option.getD_none]
  · rw [Loop.settled_subscribe, Loop.settled_subscribe, Loop.settled_settle_of_ne (by simp)]
    exact hinvoked.pending .attempt (by simp) (by simp)

theorem timedOut_invoke : (State.called.invoke o c definition).timedOut = false := by
  unfold State.invoke
  cases validate o.fmt definition c.job.data with
  | error e => rfl
  | ok v =>
    cases c.handler with
    | throws error => rfl
    | returns settled => cases settled <;> rfl

/-- A handler that is running is waited for. -/
theorem undecided_start (hdef : c.definition o = some definition) (haborted : c.aborted = none)
    {v : Validated} (hvalid : validate o.fmt definition c.job.data = .ok v)
    (hhandler : c.handler = .returns settled) : Undecided c false settled (start o c) := by
  have hrace : OpenRace c settled (start o c) := by
    rw [start_of_definition hdef]
    cases settled with
    | none =>
      constructor <;> simp [State.called, State.invoke, hvalid, hhandler, State.raceWithAbort,
        haborted, State.awaitRace, State.subscribe, Loop.subscribe, src, Loop.start, State.count,
        Loop.Live]
    | some r =>
      have hpending : ∀ p, p ≠ .handler →
          Function.update (fun _ : Promise => (none : Option Settled)) .handler (some r) p = none :=
        fun p hp => Function.update_of_ne hp _ _
      constructor <;> simp [State.called, State.invoke, hvalid, hhandler, State.raceWithAbort,
        haborted, State.awaitRace, State.subscribe, State.settle, Loop.settle, Loop.subscribe, src,
        Loop.start, State.count, Loop.Live]
      exact hpending
  refine ⟨hrace, ?_, ?_, ?_⟩
  all_goals
    rw [start_of_definition hdef]
    cases settled <;> simp [State.called, State.invoke, hvalid, hhandler, State.raceWithAbort,
      haborted, State.awaitRace, State.subscribe, State.settle, State.count]

/-! ## Runs -/

/-- What is decided stays so in every run. -/
theorem decided_run (h : Decided o r s.loop) (hinv : AttemptInv o c definition s)
    (hrun : (machine o c).run s es = some t) : Decided o r t.loop := by
  have hstep : ∀ s e t, Decided o r s.loop ∧ AttemptInv o c definition s → True →
      (machine o c).step s e = some t → Decided o r t.loop ∧ AttemptInv o c definition t :=
    fun s e t h _ hstep =>
      ⟨decided_step h.1 h.2.subscriptions.wellFormed hstep, attemptInv_step h.2 hstep⟩
  exact (Machine.run_invariant hstep ⟨h, hinv⟩ Machine.stepsMeet_true hrun).1

/-- After an abort that is not heard a run decides what its race takes, which is the result of the
handler. -/
theorem unheard_run (h : Undecided c true settled s) (hinv : AttemptInv o c definition s)
    (hrun : (machine o c).run s es = some t) :
    (∃ r, Decided o r t.loop ∧ taken o.heap (c.timeoutMs o) true settled es = some r) ∨
      ∃ settled', Undecided c true settled' t ∧ (settled' = none → settled = none) ∧
        taken o.heap (c.timeoutMs o) true settled es = none := by
  -- Induction on the events.
  induction es generalizing settled s with
  | nil =>
    obtain rfl : s = t := Option.some.inj hrun
    refine Or.inr ⟨settled, h, id, ?_⟩
    cases settled <;> rfl
  | cons e es ih =>
    obtain ⟨u, hstep, hrun⟩ := Machine.run_cons.mp hrun
    have hinv' := attemptInv_step hinv hstep
    rcases unheard_step h hinv.subscriptions.wellFormed hstep with
      ⟨r, hdecided, htaken⟩ | ⟨settled', hundecided, hnone, htaken⟩
    · exact Or.inl ⟨r, decided_run hdecided hinv' hrun, htaken es⟩
    · rw [htaken es]
      rcases ih hundecided hinv' hrun with hdec | ⟨settled'', hundec, hnone', hpending⟩
      · exact Or.inl hdec
      · exact Or.inr ⟨settled'', hundec, fun heq => hnone (hnone' heq), hpending⟩

/-- **A run decides what its race takes**. Until then nothing has come first but what is on its way
to `invoke`, or an abort that is not heard. -/
theorem undecided_run (h : Undecided c false settled s) (hinv : AttemptInv o c definition s)
    (hrun : (machine o c).run s es = some t) :
    (∃ r, Decided o r t.loop ∧ taken o.heap (c.timeoutMs o) false settled es = some r) ∨
      ∃ unheard settled', Undecided c unheard settled' t ∧
        taken o.heap (c.timeoutMs o) false settled es = none ∧
        (settled' = none → (unheard = false ∧ first settled es = none) ∨
          ∃ reason, ¬ AnswersTest o.heap reason ∧ first settled es = some (.abort reason)) := by
  -- Induction on the events, from any state in which nothing is decided.
  induction es generalizing settled s with
  | nil =>
    obtain rfl : s = t := Option.some.inj hrun
    refine Or.inr ⟨false, settled, h, ?_, ?_⟩
    · cases settled <;> rfl
    · rintro rfl
      exact Or.inl ⟨rfl, rfl⟩
  | cons e es ih =>
    obtain ⟨u, hstep, hrun⟩ := Machine.run_cons.mp hrun
    have hinv' := attemptInv_step hinv hstep
    rcases undecided_step h hinv.subscriptions.wellFormed hstep with
      ⟨r, hdecided, htaken⟩ | ⟨settled', hundecided, hsame⟩ | ⟨settled', hunheard, hfirst, htaken⟩
    · exact Or.inl ⟨r, decided_run hdecided hinv' hrun, htaken es⟩
    · rw [(hsame es).1, (hsame es).2]
      exact ih hundecided hinv' hrun
    · -- only the handler is left
      rw [htaken es]
      rcases unheard_run hunheard hinv' hrun with hdec | ⟨settled'', hundec, hnone, hpending⟩
      · exact Or.inl hdec
      · refine Or.inr ⟨true, settled'', hundec, hpending, fun heq => Or.inr ?_⟩
        obtain ⟨reason, htest, hcomes⟩ := hfirst (hnone heq)
        exact ⟨reason, htest, hcomes es⟩

/-- A decided attempt has settled once nothing is queued. -/
theorem Decided.settled_of_done (h : Decided o r L) (hwf : L.WellFormed src)
    (hdone : L.queue = [] ∨ L.settled .attempt ≠ none) :
    L.settled .attempt = some (caught o.heap r) := by
  have hpending : ∀ k, L.settled .attempt = none → L.Live src k → L.settled (src k) = none :=
    fun k hnone hlive => hwf.pending_of_live (hdone.resolve_right (not_not.mpr hnone)) hlive
  cases h with
  | racing earlier later entry queue isEntry invoke race raced attempt resume job =>
    rw [hdone.resolve_right (not_not.mpr attempt)] at queue
    exact absurd queue.symm (by simp)
  | resuming race raced attempt resume job =>
    cases race.symm.trans (hpending .raceResume attempt resume)
  | finishing raced attempt job => cases raced.symm.trans (hpending .jobResume attempt job)
  | settled attempt => exact attempt

/-- **A run of an attempt at a registered job** decides what it is decided by. Until then nothing
has come first but what is on its way to `invoke`, or an abort that is not heard. -/
theorem decision_run (hdef : c.definition o = some definition)
    (hrun : (machine o c).run (start o c) es = some s) :
    (∃ r, decision o c definition es = some r ∧ Decided o r s.loop) ∨
      ∃ unheard settled, Undecided c unheard settled s ∧ decision o c definition es = none ∧
        (settled = none → (unheard = false ∧ expected o c es = none) ∨
          ∃ reason, ¬ AnswersTest o.heap reason ∧ expected o c es = some (.abort reason)) := by
  have hinv := attemptInv_start hdef
  have hdecided : ∀ r, decision o c definition es = some r → Decided o r (start o c).loop →
      ∃ r, decision o c definition es = some r ∧ Decided o r s.loop :=
    fun r hr h => ⟨r, hr, decided_run h hinv hrun⟩
  have hstart := start_of_definition hdef
  cases haborted : c.aborted with
  | some reason =>
    refine Or.inl (hdecided (.rejected (thrown (cancellation o.heap reason))) ?_ ?_)
    · simp only [decision, haborted]
    · rw [hstart]
      exact decided_of_aborted haborted invoked_invoke timedOut_invoke
  | none =>
    cases hvalid : validate o.fmt definition c.job.data with
    | error e =>
      refine Or.inl (hdecided (.rejected (.kit e)) ?_ ?_)
      · simp only [decision, haborted, hvalid]
      · rw [hstart]
        apply decided_of_work haborted
        simp only [State.invoke, hvalid]
        rfl
    | ok v =>
      cases hhandler : c.handler with
      | throws error =>
        refine Or.inl (hdecided (.rejected error) ?_ ?_)
        · simp only [decision, haborted, hvalid, hhandler]
        · rw [hstart]
          apply decided_of_work haborted
          simp only [State.invoke, hvalid, hhandler]
          rfl
      | returns settled =>
        have hdecision : decision o c definition es =
            taken o.heap (c.timeoutMs o) false settled es := by
          simp only [decision, haborted, hvalid, hhandler]
        have hexpected : expected o c es = first settled es := by
          simp only [expected, hdef, hvalid, haborted, hhandler]
        rw [hdecision, hexpected]
        rcases undecided_run (undecided_start hdef haborted hvalid hhandler) hinv hrun with
          ⟨r, hdec, htaken⟩ | ⟨unheard, settled', hundec⟩
        · exact Or.inl ⟨r, htaken, hdec⟩
        · exact Or.inr ⟨unheard, settled', hundec⟩

theorem wellFormed_of_run (hdef : c.definition o = some definition)
    (hrun : (machine o c).run (start o c) es = some s) : s.loop.WellFormed src :=
  (Machine.run_invariant (I := AttemptInv o c definition) (fun _ _ _ h _ => attemptInv_step h)
    (attemptInv_start hdef) Machine.stepsMeet_true hrun).subscriptions.wellFormed

/-- **What the attempt at a registered job settles with**: what the catch path makes of the
decision. -/
theorem settled_of_done (hdef : c.definition o = some definition)
    (hrun : (machine o c).run (start o c) es = some s)
    (hdone : s.loop.queue = [] ∨ s.loop.settled .attempt ≠ none) :
    s.loop.settled .attempt = (decision o c definition es).map (caught o.heap) := by
  rcases decision_run hdef hrun with ⟨r, hr, hdec⟩ | ⟨unheard, settled, hundec, hnone, -⟩
  · rw [hr, hdec.settled_of_done (wellFormed_of_run hdef hrun) hdone, Option.map_some]
  · -- nothing is decided, so the attempt is pending
    rw [hnone, hundec.race.pending .attempt (by simp), Option.map_none]

/-- Where nothing is decided and nothing is queued, nothing has come first, unless it is an abort
that is not heard. -/
theorem expected_of_done (hdef : c.definition o = some definition)
    (hrun : (machine o c).run (start o c) es = some s)
    (hdone : s.loop.queue = [] ∨ s.loop.settled .attempt ≠ none)
    (hnone : decision o c definition es = none) :
    expected o c es = none ∨
      ∃ reason, ¬ AnswersTest o.heap reason ∧ expected o c es = some (.abort reason) := by
  rcases decision_run hdef hrun with ⟨r, hr, -⟩ | ⟨unheard, settled, hundec, -, hfirst⟩
  · cases hnone.symm.trans hr
  · have hq := hdone.resolve_right (not_not.mpr (hundec.race.pending .attempt (by simp)))
    have hpending : settled = none := by
      cases settled with
      | none => rfl
      | some r =>
        rw [hundec.race.queue] at hq
        cases hq
    exact (hfirst hpending).imp_left And.right

/-- An attempt that is decided is not stuck. -/
theorem Decided.not_stuck (h : Decided o r s.loop) (hwf : s.loop.WellFormed src) : ¬ Stuck s := by
  intro hstuck
  cases h with
  | racing earlier later entry queue isEntry invoke race raced attempt resume job =>
    -- the entry is queued, so its promise has settled
    have hset : s.loop.settled (src entry) = some r :=
      hwf.queued entry r (by rw [queue]; simp)
    cases (hstuck.pending (src entry) (by rcases isEntry with rfl | rfl <;> simp [src])).symm.trans
      hset
  | resuming race raced attempt resume job =>
    cases (hstuck.pending .race (by simp)).symm.trans race
  | finishing raced attempt job => cases (hstuck.pending .raced (by simp)).symm.trans raced
  | settled attempt => cases (hstuck.pending .attempt (by simp)).symm.trans attempt

end Attempt

end QueueWorkerKit
