import QueueWorkerKit.Queue.Enqueue
import QueueWorkerKit.Worker.Processor

/-!
# What an attempt leaves behind

An attempt that races its work subscribes to every promise it makes before any of them can be
reported. An attempt that finds its signal aborted throws before the race, and never subscribes to
the work it has started: a rejection of that is reported as unhandled. Either way the timer and the
listener are gone once the attempt has settled.

## Main definitions

* `Subscriptions`, `Outcome`: the invariant of the promises, and where the work stands
* `WorkFails`: the ways in which the work of an attempt is rejected
* `Contained`: no unhandled rejection, and nothing left of the timer and the listener

## Main results

* `attemptInv_start`, `attemptInv_step`: the call establishes the invariant, every step keeps it
* `contained_iff`: **when an attempt leaves nothing behind**
-/

namespace QueueWorkerKit

open Ecma EventDriven

namespace Attempt

variable {o : ProcessorOptions} {c : Call} {definition : JobDefinition} {s t : State}
  {p q : Promise} {k : Reaction} {r : Settled} {e : Event}
  {loop : Loop Promise Reaction JsValue Thrown}

@[simp] theorem loop_settle : (s.settle p r).loop = s.loop.settle p r := rfl

@[simp] theorem timerArmed_settle : (s.settle p r).timerArmed = s.timerArmed := rfl

@[simp] theorem started_settle : (s.settle p r).started = s.started := rfl

@[simp] theorem loop_subscribe : (s.subscribe k).loop = s.loop.subscribe (src k) k := rfl

@[simp] theorem timerArmed_subscribe : (s.subscribe k).timerArmed = s.timerArmed := rfl

@[simp] theorem started_subscribe : (s.subscribe k).started = s.started := rfl

theorem live_subscribe {k' : Reaction} :
    (s.subscribe k).loop.Live src k' ↔ k' = k ∨ s.loop.Live src k' := Loop.live_subscribe rfl

theorem handled_subscribe : (s.subscribe k).loop.handled p =
    if p = src k then true else s.loop.handled p := by
  rw [loop_subscribe, Loop.handled_subscribe, Function.update_apply]

/-- The state after a microtask was taken from the queue. -/
def State.popped (s : State) (loop : Loop Promise Reaction JsValue Thrown) : State :=
  { s with loop }

/-! ## Subscriptions -/

/-- What is subscribed to, and what has been cleaned up. An open race is subscribed to its entries;
an attempt whose signal was aborted on entry has none, and its work stays unhandled. -/
structure Subscriptions (c : Call) (s : State) : Prop where
  wellFormed : s.loop.WellFormed src
  own : ∀ p, p ≠ .work → p ≠ .silenced → s.loop.settled p ≠ none → s.loop.handled p = true
  silenced : ¬ s.loop.Rejected .silenced
  raced : s.loop.handled .raced = true
  attempt : s.loop.handled .attempt = true
  entered : c.aborted = none → ∀ p, p = .work ∨ p = .aborted ∨ p = .race → s.loop.handled p = true
  refused : c.aborted ≠ none → s.loop.handled .work = false ∧ s.listening = false ∧
    ∀ k, k = .raceWork ∨ k = .raceAborted ∨ k = .raceResume → ¬ s.loop.Live src k
  once : s.loop.Live src .raceResume → ¬ s.loop.Live src .catchNoop
  listener : s.loop.settled .raced ≠ none → s.listening = false
  timer : s.loop.settled .attempt ≠ none → s.timerArmed = false ∧ s.loop.settled .raced ≠ none

/-- Whatever changes neither the promises nor arms the timer or the listener keeps the
subscriptions. -/
theorem Subscriptions.frame (h : Subscriptions c s) (hloop : t.loop = s.loop)
    (htimer : t.timerArmed = true → s.timerArmed = true)
    (hlistening : t.listening = true → s.listening = true) : Subscriptions c t := by
  have htimer' : s.timerArmed = false → t.timerArmed = false := by
    intro hs
    by_contra ht
    rw [Bool.not_eq_false] at ht
    rw [htimer ht] at hs
    cases hs
  have hlistening' : s.listening = false → t.listening = false := by
    intro hs
    by_contra ht
    rw [Bool.not_eq_false] at ht
    rw [hlistening ht] at hs
    cases hs
  refine ⟨?_, ?_, ?_, ?_, ?_, ?_, fun hc => ?_, ?_, fun hr => ?_, fun ha => ?_⟩
  all_goals rw [hloop] at *
  · exact h.wellFormed
  · exact h.own
  · exact h.silenced
  · exact h.raced
  · exact h.attempt
  · exact h.entered
  · obtain ⟨hwork, hlisten, hdead⟩ := h.refused hc
    exact ⟨hwork, hlistening' hlisten, hdead⟩
  · exact h.once
  · exact hlistening' (h.listener hr)
  · obtain ⟨harmed, hraced⟩ := h.timer ha
    exact ⟨htimer' harmed, hraced⟩

/-- Taking a microtask keeps the subscriptions. -/
theorem Subscriptions.pop (h : Subscriptions c s) (hpop : s.loop.pop = some ((k, r), loop)) :
    Subscriptions c (s.popped loop) := by
  have hsettled : (s.popped loop).loop.settled = s.loop.settled := Loop.settled_pop hpop
  have hhandled : (s.popped loop).loop.handled = s.loop.handled := Loop.handled_pop hpop
  have hlive : ∀ k', (s.popped loop).loop.Live src k' → s.loop.Live src k' :=
    fun k' hk' => ((Loop.live_pop h.wellFormed hpop).mp hk').2
  refine ⟨h.wellFormed.pop hpop, ?_, ?_, ?_, ?_, ?_, fun hc => ?_, fun hr hn => ?_, ?_, ?_⟩
  · rw [hsettled, hhandled]
    exact h.own
  · rw [Loop.Rejected, hsettled]
    exact h.silenced
  · rw [hhandled]
    exact h.raced
  · rw [hhandled]
    exact h.attempt
  · rw [hhandled]
    exact h.entered
  · obtain ⟨hwork, hlisten, hdead⟩ := h.refused hc
    rw [hhandled]
    exact ⟨hwork, hlisten, fun k' hk' hl => hdead k' hk' (hlive k' hl)⟩
  · exact h.once (hlive _ hr) (hlive _ hn)
  · rw [hsettled]
    exact h.listener
  · rw [hsettled]
    exact h.timer

/-- Settling a promise keeps the subscriptions, where the promise is subscribed to, or the work, or
fulfilled for good measure; and where what has to be gone by then is gone. -/
theorem Subscriptions.settle (h : Subscriptions c s)
    (hhandled : p ≠ .work → p ≠ .silenced → s.loop.handled p = true)
    (hsilenced : p = .silenced → ∃ v, r = .fulfilled v)
    (hraced : p = .raced → s.listening = false)
    (hattempt : p = .attempt → s.timerArmed = false ∧ s.loop.settled .raced ≠ none) :
    Subscriptions c (s.settle p r) := by
  have hkeep : ∀ q, s.loop.settled q ≠ none → (s.settle p r).loop.settled q ≠ none := by
    intro q hq
    exact Loop.settled_settle_ne_none hq
  refine ⟨h.wellFormed.settle, fun q hw hs hq => ?_, ?_, ?_, ?_, ?_, fun hc => ?_, ?_, ?_, ?_⟩
  · rw [loop_settle, Loop.handled_settle]
    by_cases hqp : q = p
    · subst hqp
      exact hhandled hw hs
    · rw [loop_settle, Loop.settled_settle_of_ne hqp] at hq
      exact h.own q hw hs hq
  · rintro ⟨error, herror⟩
    by_cases hp : Promise.silenced = p
    · obtain ⟨v, rfl⟩ := hsilenced hp.symm
      rw [hp, loop_settle, Loop.settled_settle_self] at herror
      cases hset : s.loop.settled p with
      | none =>
        rw [hset] at herror
        cases herror
      | some r' =>
        rw [hset, Option.getD_some] at herror
        exact h.silenced ⟨error, by rw [hp, hset, herror]⟩
    · rw [loop_settle, Loop.settled_settle_of_ne hp] at herror
      exact h.silenced ⟨error, herror⟩
  · rw [loop_settle, Loop.handled_settle]
    exact h.raced
  · rw [loop_settle, Loop.handled_settle]
    exact h.attempt
  · rw [loop_settle, Loop.handled_settle]
    exact h.entered
  · obtain ⟨hwork, hlisten, hdead⟩ := h.refused hc
    rw [loop_settle, Loop.handled_settle]
    refine ⟨hwork, hlisten, fun k hk => ?_⟩
    rw [Loop.live_settle h.wellFormed]
    exact hdead k hk
  · rw [loop_settle, Loop.live_settle h.wellFormed, Loop.live_settle h.wellFormed]
    exact h.once
  · intro hr
    by_cases hp : Promise.raced = p
    · exact hraced hp.symm
    · rw [loop_settle, Loop.settled_settle_of_ne hp] at hr
      exact h.listener hr
  · intro ha
    by_cases hp : Promise.attempt = p
    · obtain ⟨harmed, hne⟩ := hattempt hp.symm
      exact ⟨harmed, hkeep _ hne⟩
    · rw [loop_settle, Loop.settled_settle_of_ne hp] at ha
      obtain ⟨harmed, hne⟩ := h.timer ha
      exact ⟨harmed, hkeep _ hne⟩

/-- The `catch` on the work keeps the subscriptions of an open race that is over. -/
theorem Subscriptions.subscribe_catchNoop (h : Subscriptions c s) (hc : c.aborted = none)
    (hresume : ¬ s.loop.Live src .raceResume) (hcatch : ¬ s.loop.Live src .catchNoop) :
    Subscriptions c (s.subscribe .catchNoop) := by
  have hhandled : ∀ p, s.loop.handled p = true → (s.subscribe .catchNoop).loop.handled p = true := by
    intro p hp
    rw [loop_subscribe, Loop.handled_subscribe, Function.update_apply]
    split_ifs
    · rfl
    · exact hp
  refine ⟨h.wellFormed.subscribe rfl hcatch, ?_, ?_, hhandled _ h.raced, hhandled _ h.attempt,
    fun hc p hp => hhandled p (h.entered hc p hp), fun hne => absurd hc hne, ?_, ?_, ?_⟩
  · intro p hw hs hp
    rw [loop_subscribe, Loop.settled_subscribe] at hp
    exact hhandled p (h.own p hw hs hp)
  · rw [Loop.Rejected, loop_subscribe, Loop.settled_subscribe]
    exact h.silenced
  · rw [loop_subscribe, Loop.live_subscribe rfl]
    rintro (hk | hlive)
    · cases hk
    · exact absurd hlive hresume
  · rw [loop_subscribe, Loop.settled_subscribe]
    exact h.listener
  · rw [loop_subscribe, Loop.settled_subscribe]
    exact h.timer

/-! ## The work -/

/-- Where the work of an attempt stands: it was rejected when it was started, or awaits the
handler's promise, or has settled as that did. -/
inductive Outcome (o : ProcessorOptions) (c : Call) (definition : JobDefinition) (s : State) : Prop
  | invalid (error : KitError) (data : validate o.fmt definition c.job.data = .error error)
      (unstarted : s.started = false) (uncalled : s.loop.settled .handler = none)
      (work : s.loop.settled .work = some (.rejected (.kit error)))
  | threw (error : Thrown) (run : c.handler = .throws error)
      (uncalled : s.loop.settled .handler = none)
      (work : s.loop.settled .work = some (.rejected error))
  | awaiting (run : ∃ r, c.handler = .returns r)
      (data : ∃ v, validate o.fmt definition c.job.data = .ok v)
      (handled : s.loop.handled .handler = true) (live : s.loop.Live src .invokeResume)
      (work : s.loop.settled .work = none)
  | settled (run : ∃ r, c.handler = .returns r)
      (data : ∃ v, validate o.fmt definition c.job.data = .ok v)
      (handled : s.loop.handled .handler = true) (r : Settled)
      (handler : s.loop.settled .handler = some r) (work : s.loop.settled .work = some r)

/-- What leaves the handler's promise and the work alone keeps the outcome. -/
theorem Outcome.frame (h : Outcome o c definition s)
    (hsettled : ∀ p, p = .handler ∨ p = .work → t.loop.settled p = s.loop.settled p)
    (hhandled : s.loop.handled .handler = true → t.loop.handled .handler = true)
    (hlive : s.loop.Live src .invokeResume → t.loop.Live src .invokeResume)
    (hstarted : t.started = s.started) : Outcome o c definition t := by
  have hhandler := hsettled .handler (Or.inl rfl)
  have hwork := hsettled .work (Or.inr rfl)
  cases h with
  | invalid error data unstarted uncalled work =>
    exact .invalid error data (hstarted.trans unstarted) (hhandler.trans uncalled)
      (hwork.trans work)
  | threw error run uncalled work =>
    exact .threw error run (hhandler.trans uncalled) (hwork.trans work)
  | awaiting run data handled live work =>
    exact .awaiting run data (hhandled handled) (hlive live) (hwork.trans work)
  | settled run data handled r handler work =>
    exact .settled run data (hhandled handled) r (hhandler.trans handler) (hwork.trans work)

/-- The promise of a handler that was called is awaited. -/
theorem Outcome.handled (h : Outcome o c definition s) (hrun : ∃ r, c.handler = .returns r)
    (hstarted : s.started = true) : s.loop.handled .handler = true := by
  obtain ⟨r, hrun⟩ := hrun
  cases h with
  | invalid _ _ unstarted _ _ =>
    rw [hstarted] at unstarted
    cases unstarted
  | threw _ run _ _ =>
    rw [hrun] at run
    cases run
  | awaiting _ _ handled _ _ => exact handled
  | settled _ _ handled _ _ _ => exact handled

/-- A handler's promise that settles is awaited still, or was settled before. -/
theorem Outcome.settle_handler (h : Outcome o c definition s)
    (hrun : ∃ r, c.handler = .returns r) (hstarted : s.started = true) (r : Settled) :
    Outcome o c definition (s.settle .handler r) := by
  have hwork : (s.settle .handler r).loop.settled .work = s.loop.settled .work :=
    Loop.settled_settle_of_ne (by simp)
  have hhandled : (s.settle .handler r).loop.handled .handler = true := by
    rw [loop_settle, Loop.handled_settle]
    exact h.handled hrun hstarted
  cases h with
  | invalid _ _ unstarted _ _ =>
    rw [hstarted] at unstarted
    cases unstarted
  | threw _ run _ _ =>
    obtain ⟨r, hrun⟩ := hrun
    rw [hrun] at run
    cases run
  | awaiting run data _ live work =>
    exact .awaiting run data hhandled live.settle (hwork.trans work)
  | settled run data _ r' handler work =>
    refine .settled run data hhandled r' ?_ (hwork.trans work)
    rw [loop_settle, Loop.settled_settle_self, handler, Option.getD_some]

/-- The continuation of `invoke` settles the work as the handler's promise was. -/
theorem Outcome.invokeResume (h : Outcome o c definition s) (hwf : s.loop.WellFormed src)
    (hpop : s.loop.pop = some ((.invokeResume, r), loop)) :
    Outcome o c definition ((s.popped loop).settle .work r) := by
  have hhandler : s.loop.settled .handler = some r := hwf.settled_of_pop hpop
  have hsettled : (s.popped loop).loop.settled = s.loop.settled := Loop.settled_pop hpop
  have hwork : ((s.popped loop).settle .work r).loop.settled .work =
      some ((s.loop.settled .work).getD r) := by
    rw [loop_settle, Loop.settled_settle_self, hsettled]
  have hhandler' : ((s.popped loop).settle .work r).loop.settled .handler = some r := by
    rw [loop_settle, Loop.settled_settle_of_ne (by simp), hsettled, hhandler]
  have hhandled' : ((s.popped loop).settle .work r).loop.handled = s.loop.handled := by
    rw [loop_settle, Loop.handled_settle]
    exact Loop.handled_pop hpop
  cases h with
  | invalid _ _ _ uncalled _ =>
    rw [hhandler] at uncalled
    cases uncalled
  | threw _ _ uncalled _ =>
    rw [hhandler] at uncalled
    cases uncalled
  | awaiting run data handled _ work =>
    rw [work, Option.getD_none] at hwork
    exact .settled run data (by rw [hhandled', handled]) r hhandler' hwork
  | settled run data handled r' handler work =>
    obtain rfl := Option.some.inj (hhandler.symm.trans handler)
    rw [work, Option.getD_some] at hwork
    exact .settled run data (by rw [hhandled', handled]) r hhandler' hwork

/-! ## Steps -/

/-- The invariant of an attempt at a registered job. -/
structure AttemptInv (o : ProcessorOptions) (c : Call) (definition : JobDefinition) (s : State) :
    Prop where
  subscriptions : Subscriptions c s
  outcome : Outcome o c definition s

/-- Settling a promise after the work keeps the invariant as it keeps the subscriptions. -/
theorem AttemptInv.settle (h : AttemptInv o c definition s) (hhandler : p ≠ .handler)
    (hwork : p ≠ .work) (hsub : Subscriptions c (s.settle p r)) :
    AttemptInv o c definition (s.settle p r) := by
  refine ⟨hsub, h.outcome.frame ?_ ?_ ?_ rfl⟩
  · rintro q (rfl | rfl)
    · exact Loop.settled_settle_of_ne hhandler.symm
    · exact Loop.settled_settle_of_ne hwork.symm
  · intro hh
    rwa [loop_settle, Loop.handled_settle]
  · exact Loop.Live.settle

/-- Whatever leaves the promises alone and arms nothing keeps the invariant. -/
theorem AttemptInv.frame (h : AttemptInv o c definition s) (hloop : t.loop = s.loop)
    (htimer : t.timerArmed = true → s.timerArmed = true)
    (hlistening : t.listening = true → s.listening = true) (hstarted : t.started = s.started) :
    AttemptInv o c definition t := by
  refine ⟨h.subscriptions.frame hloop htimer hlistening, h.outcome.frame ?_ ?_ ?_ hstarted⟩
  · intro p _
    rw [hloop]
  · rw [hloop]
    exact id
  · rw [hloop]
    exact id

/-- Taking a microtask other than the continuation of `invoke` keeps the invariant. -/
theorem AttemptInv.pop (h : AttemptInv o c definition s)
    (hpop : s.loop.pop = some ((k, r), loop)) (hk : k ≠ .invokeResume) :
    AttemptInv o c definition (s.popped loop) := by
  refine ⟨h.subscriptions.pop hpop, h.outcome.frame ?_ ?_ ?_ rfl⟩
  · intro p _
    exact congrFun (Loop.settled_pop hpop) p
  · intro hh
    rw [← hh]
    exact congrFun (Loop.handled_pop hpop) _
  · intro hl
    exact (Loop.live_pop h.subscriptions.wellFormed hpop).mpr ⟨hk.symm, hl⟩

/-- The handler's promise settles. -/
theorem AttemptInv.settle_handler (h : AttemptInv o c definition s)
    (hrun : ∃ r, c.handler = .returns r) (hstarted : s.started = true) (r : Settled) :
    AttemptInv o c definition (s.settle .handler r) :=
  ⟨h.subscriptions.settle (fun _ _ => h.outcome.handled hrun hstarted) (by simp) (by simp)
      (by simp),
    h.outcome.settle_handler hrun hstarted r⟩

/-- The listeners on the signal keep the invariant. -/
theorem AttemptInv.handlerListener (h : AttemptInv o c definition s) (listener : Option Settled) :
    AttemptInv o c definition (s.handlerListener c listener) := by
  unfold State.handlerListener
  split
  · next r r' hrun =>
    split_ifs with hstarted
    · exact h.settle_handler ⟨r, hrun⟩ hstarted r'
    · exact h
  · exact h

theorem AttemptInv.onAbort (h : AttemptInv o c definition s) (reason : JsValue) :
    AttemptInv o c definition (s.onAbort o c reason) := by
  unfold State.onAbort
  split_ifs with hlistening
  · have hremoved : AttemptInv o c definition s.removeListener :=
      h.frame rfl id (by simp [State.removeListener]) rfl
    -- a listener is there only in an open race, which is subscribed to the promise it rejects
    have hopen : c.aborted = none := by
      by_contra hc
      rw [(h.subscriptions.refused hc).2.1] at hlistening
      cases hlistening
    have hhandled := h.subscriptions.entered hopen .aborted (Or.inr (Or.inl rfl))
    split
    · exact hremoved.settle (by simp) (by simp)
        (hremoved.subscriptions.settle (fun _ _ => hhandled) (by simp) (by simp) (by simp))
    · -- the class test throws, and the promise stays pending
      exact hremoved
  · exact h

/-- An abort of the signal keeps the invariant. -/
theorem AttemptInv.abort (h : AttemptInv o c definition s) (reason : JsValue)
    (listener : Option Settled) : AttemptInv o c definition (s.abort o c reason listener) := by
  unfold State.abort
  split
  · exact h
  · have hreason : AttemptInv o c definition { s with reason := some reason } :=
      h.frame rfl id id rfl
    exact (hreason.handlerListener listener).onAbort reason

/-- The continuation of the race's await: the listener goes, the work is silenced, and the promise
of `raceWithAbort` settles. -/
theorem AttemptInv.raceResume (h : AttemptInv o c definition s)
    (hpop : s.loop.pop = some ((.raceResume, r), loop)) :
    AttemptInv o c definition
      (((s.popped loop).removeListener.subscribe .catchNoop).settle .raced r) := by
  have hwf := h.subscriptions.wellFormed
  have hopen : c.aborted = none := by
    by_contra hc
    exact (h.subscriptions.refused hc).2.2 _ (Or.inr (Or.inr rfl)) (Loop.live_of_pop hpop)
  have hpopped : AttemptInv o c definition (s.popped loop).removeListener :=
    (h.pop hpop (by simp)).frame rfl id (by simp [State.removeListener]) rfl
  have hresume : ¬ (s.popped loop).removeListener.loop.Live src .raceResume :=
    fun hl => ((Loop.live_pop hwf hpop).mp hl).1 rfl
  have hcatch : ¬ (s.popped loop).removeListener.loop.Live src .catchNoop :=
    fun hl => h.subscriptions.once (Loop.live_of_pop hpop) ((Loop.live_pop hwf hpop).mp hl).2
  have hsub := hpopped.subscriptions.subscribe_catchNoop hopen hresume hcatch
  have hsubscribed : AttemptInv o c definition
      ((s.popped loop).removeListener.subscribe .catchNoop) := by
    refine ⟨hsub, hpopped.outcome.frame ?_ ?_ ?_ rfl⟩
    · intro p _
      rw [loop_subscribe, Loop.settled_subscribe]
    · intro hh
      rw [loop_subscribe, Loop.handled_subscribe, Function.update_of_ne (by simp [src])]
      exact hh
    · exact Loop.Live.subscribe
  exact hsubscribed.settle (by simp) (by simp)
    (hsub.settle (fun _ _ => hsub.raced) (by simp) (fun _ => rfl) (by simp))

/-- An entry of the race settles it, if it is the first. -/
theorem AttemptInv.raceEntry (h : AttemptInv o c definition s)
    (hpop : s.loop.pop = some ((k, r), loop)) (hk : k = .raceWork ∨ k = .raceAborted) :
    AttemptInv o c definition ((s.popped loop).settle .race r) := by
  have hopen : c.aborted = none := by
    by_contra hc
    refine (h.subscriptions.refused hc).2.2 k ?_ (Loop.live_of_pop hpop)
    rcases hk with rfl | rfl <;> simp
  have hpopped := h.pop hpop (by rcases hk with rfl | rfl <;> simp)
  have hhandled := hpopped.subscriptions.entered hopen .race (Or.inr (Or.inr rfl))
  exact hpopped.settle (by simp) (by simp)
    (hpopped.subscriptions.settle (fun _ _ => hhandled) (by simp) (by simp) (by simp))

/-- The continuation of `processJob`, whatever it counts: the timer is cleared, and the attempt
settles. -/
theorem AttemptInv.jobResume (h : AttemptInv o c definition s)
    (hpop : s.loop.pop = some ((.jobResume, r), loop)) (hloop : t.loop = loop)
    (hlistening : t.listening = s.listening) (hstarted : t.started = s.started) (r' : Settled) :
    AttemptInv o c definition (t.clearTimer.settle .attempt r') := by
  have hraced : s.loop.settled .raced = some r := h.subscriptions.wellFormed.settled_of_pop hpop
  have hcleared : AttemptInv o c definition t.clearTimer := by
    refine (h.pop hpop (by simp)).frame hloop (by simp [State.clearTimer]) ?_ hstarted
    intro hl
    rw [← hl]
    exact hlistening.symm
  have hne : t.clearTimer.loop.settled .raced ≠ none := by
    show t.loop.settled .raced ≠ none
    rw [hloop, Loop.settled_pop hpop, hraced]
    exact Option.some_ne_none r
  exact hcleared.settle (by simp) (by simp)
    (hcleared.subscriptions.settle (fun _ _ => hcleared.subscriptions.attempt) (by simp) (by simp)
      fun _ => ⟨rfl, hne⟩)

/-- What a continuation does keeps the invariant: one case for each. -/
theorem attemptInv_resume (h : AttemptInv o c definition s)
    (hpop : s.loop.pop = some ((k, r), loop)) :
    AttemptInv o c definition (resume o c (s.popped loop) k r) := by
  cases k with
  | invokeResume =>
    -- the work settles as the handler's promise has, and needs no subscription for that
    have hwf := h.subscriptions.wellFormed
    exact ⟨(h.subscriptions.pop hpop).settle (by simp) (by simp) (by simp) (by simp),
      h.outcome.invokeResume hwf hpop⟩
  | raceWork => exact h.raceEntry hpop (Or.inl rfl)
  | raceAborted => exact h.raceEntry hpop (Or.inr rfl)
  | raceResume => exact h.raceResume hpop
  | catchNoop =>
    -- the promise of the `catch` is never subscribed to, and never rejected
    have hpopped := h.pop hpop (by simp)
    exact hpopped.settle (by simp) (by simp)
      (hpopped.subscriptions.settle (by simp) (fun _ => ⟨_, rfl⟩) (by simp) (by simp))
  | jobResume =>
    cases r with
    | fulfilled value =>
      exact h.jobResume (t := (s.popped loop).count (c.labels o) [.duration, .completed]) hpop rfl
        rfl rfl _
    | rejected error =>
      refine h.jobResume hpop ?_ ?_ ?_ _
      all_goals
        simp only [State.count, State.observe]
        split_ifs <;> rfl
  | callerResume => exact h.pop hpop (by simp)

/-- What each event does where it can happen, with what it finds there. -/
inductive Step (o : ProcessorOptions) (c : Call) (s : State) : Event → State → Prop
  | handlerSettles (r : Settled) (returned : Option Settled)
      (handler : c.handler = .returns returned) (started : s.started = true) :
      Step o c s (.handlerSettles r) (s.settle .handler r)
  | timerFires (listener : Option Settled) (armed : s.timerArmed = true) :
      Step o c s (.timerFires listener)
        ({ s.clearTimer with timedOut := true }.abort o c (.string (js "job timeout")) listener)
  | workerAborts (reason : JsValue) (listener : Option Settled) :
      Step o c s (.workerAborts reason listener) (s.abort o c reason listener)
  | microtask (k : Reaction) (r : Settled) (loop : Loop Promise Reaction JsValue Thrown)
      (pop : s.loop.pop = some ((k, r), loop)) :
      Step o c s .microtask (resume o c (s.popped loop) k r)

/-- **What a step does**: one case for each event. -/
theorem step_cases (hstep : (machine o c).step s e = some t) : Step o c s e t := by
  cases e with
  | handlerSettles r =>
    simp only [machine] at hstep
    split at hstep
    · next returned hhandler =>
      split_ifs at hstep with hstarted
      obtain rfl := Option.some.inj hstep
      exact .handlerSettles r returned hhandler hstarted
    · cases hstep
  | timerFires listener =>
    simp only [machine] at hstep
    split_ifs at hstep with hfires
    obtain rfl := Option.some.inj hstep
    exact .timerFires listener hfires.1
  | workerAborts reason listener =>
    obtain rfl := Option.some.inj hstep
    exact .workerAborts reason listener
  | microtask =>
    obtain ⟨⟨⟨k, r⟩, loop⟩, hpop, rfl⟩ := Option.map_eq_some_iff.mp hstep
    exact .microtask k r loop hpop

/-- **Every step keeps the invariant.** -/
theorem attemptInv_step (h : AttemptInv o c definition s)
    (hstep : (machine o c).step s e = some t) : AttemptInv o c definition t := by
  cases step_cases hstep with
  | handlerSettles r returned hhandler hstarted =>
    exact h.settle_handler ⟨returned, hhandler⟩ hstarted r
  | timerFires listener =>
    have hfired : AttemptInv o c definition { s.clearTimer with timedOut := true } :=
      h.frame rfl (by simp [State.clearTimer]) id rfl
    exact hfired.abort _ listener
  | workerAborts reason listener => exact h.abort reason listener
  | microtask k r loop hpop => exact attemptInv_resume h hpop

/-! ## The call -/

/-- After the start of `invoke`: at most the handler's promise is subscribed to, and at most that
and the work are settled. -/
structure Invoked (o : ProcessorOptions) (c : Call) (definition : JobDefinition) (s : State) :
    Prop where
  wellFormed : s.loop.WellFormed src
  live : ∀ k, s.loop.Live src k → k = .invokeResume
  handled : ∀ p, p ≠ .handler → s.loop.handled p = false
  pending : ∀ p, p ≠ .handler → p ≠ .work → s.loop.settled p = none
  own : s.loop.settled .handler ≠ none → s.loop.handled .handler = true
  outcome : Outcome o c definition s
  listening : s.listening = false

/-- The state in which `processJob` calls `invoke`. -/
def State.called : State := ⟨.start, true, false, none, false, false, []⟩

/-- Work that is rejected at once is all there is. -/
theorem invoked_rejected {error : Thrown} (hloop : s.loop = .start) (hlistening : s.listening = false)
    (houtcome : Outcome o c definition (s.settle .work (.rejected error))) :
    Invoked o c definition (s.settle .work (.rejected error)) := by
  have hwf : (Loop.start : Loop Promise Reaction JsValue Thrown).WellFormed src :=
    Loop.wellFormed_start
  refine ⟨?_, fun k hk => ?_, fun p _ => ?_, fun p _ hp => ?_, fun hne => ?_, houtcome, hlistening⟩
  all_goals rw [loop_settle, hloop] at *
  · exact hwf.settle
  · exact absurd ((Loop.live_settle hwf).mp hk) Loop.not_live_start
  · rw [Loop.handled_settle, Loop.handled_start]
  · rw [Loop.settled_settle_of_ne hp, Loop.settled_start]
  · rw [Loop.settled_settle_of_ne (by simp), Loop.settled_start] at hne
    exact absurd rfl hne

/-- A handler's promise is awaited. -/
theorem invoked_awaiting (hwf : s.loop.WellFormed src) (hidle : ∀ k, ¬ s.loop.Live src k)
    (hunhandled : ∀ p, s.loop.handled p = false)
    (hpending : ∀ p, p ≠ .handler → s.loop.settled p = none) (hlistening : s.listening = false)
    (hrun : ∃ r, c.handler = .returns r) (hdata : ∃ v, validate o.fmt definition c.job.data = .ok v) :
    Invoked o c definition (s.subscribe .invokeResume) := by
  have hhandled : (s.subscribe .invokeResume).loop.handled .handler = true := by
    rw [handled_subscribe]
    rfl
  have hsettled : (s.subscribe .invokeResume).loop.settled = s.loop.settled := by
    rw [loop_subscribe, Loop.settled_subscribe]
  refine ⟨hwf.subscribe rfl (hidle _), fun k hk => ?_, fun p hp => ?_, fun p hp _ => ?_,
    fun _ => hhandled, .awaiting hrun hdata hhandled (live_subscribe.mpr (Or.inl rfl)) ?_,
    hlistening⟩
  · exact (live_subscribe.mp hk).resolve_right (hidle k)
  · have hp' : p ≠ src .invokeResume := hp
    rw [handled_subscribe, if_neg hp', hunhandled]
  · rw [hsettled, hpending p hp]
  · rw [hsettled, hpending _ (by simp)]

/-- The start of `invoke` subscribes to nothing but the handler's promise. -/
theorem invoked_invoke : Invoked o c definition (State.called.invoke o c definition) := by
  have hwf : (Loop.start : Loop Promise Reaction JsValue Thrown).WellFormed src :=
    Loop.wellFormed_start
  unfold State.invoke
  split
  · -- the stored data is invalid: the handler is never called
    next error hdata => exact invoked_rejected rfl rfl (.invalid error hdata rfl rfl rfl)
  · next v hdata =>
    split
    · next error hrun => exact invoked_rejected rfl rfl (.threw error hrun rfl rfl)
    · next hrun =>
      exact invoked_awaiting hwf (fun _ => Loop.not_live_start) (fun _ => rfl) (fun _ _ => rfl) rfl
        ⟨_, hrun⟩ ⟨v, hdata⟩
    · next r hrun =>
      refine invoked_awaiting hwf.settle (fun k hk => ?_) (fun p => ?_) (fun p hp => ?_) rfl
        ⟨_, hrun⟩ ⟨v, hdata⟩
      · exact absurd ((Loop.live_settle hwf).mp hk) Loop.not_live_start
      · rw [loop_settle, Loop.handled_settle]
        rfl
      · rw [loop_settle, Loop.settled_settle_of_ne hp]
        rfl

/-- The awaits after the race, from a state that neither of them is subscribed in. -/
theorem live_awaitRace : s.awaitRace.loop.Live src k ↔
    k = .callerResume ∨ k = .jobResume ∨ s.loop.Live src k := by
  rw [State.awaitRace, live_subscribe, live_subscribe]

theorem handled_awaitRace : s.awaitRace.loop.handled p =
    if p = .attempt ∨ p = .raced then true else s.loop.handled p := by
  rw [State.awaitRace, handled_subscribe, handled_subscribe]
  cases p <;> rfl

@[simp] theorem settled_awaitRace : s.awaitRace.loop.settled = s.loop.settled := by
  rw [State.awaitRace, loop_subscribe, Loop.settled_subscribe, loop_subscribe,
    Loop.settled_subscribe]

theorem wellFormed_awaitRace (hwf : s.loop.WellFormed src) (hjob : ¬ s.loop.Live src .jobResume)
    (hcaller : ¬ s.loop.Live src .callerResume) : s.awaitRace.loop.WellFormed src := by
  have hwf' : (s.subscribe .jobResume).loop.WellFormed src := hwf.subscribe rfl hjob
  apply hwf'.subscribe rfl
  rw [live_subscribe]
  rintro (hk | hlive)
  · cases hk
  · exact hcaller hlive

/-- The awaits after the race complete the subscriptions: what is settled by then, apart from the
work and a refused race, is subscribed to. -/
theorem subscriptions_awaitRace (hwf : s.loop.WellFormed src) (hjob : ¬ s.loop.Live src .jobResume)
    (hcaller : ¬ s.loop.Live src .callerResume) (hcatch : ¬ s.loop.Live src .catchNoop)
    (hpending : ∀ p, p ≠ .handler → p ≠ .work → p ≠ .raced → s.loop.settled p = none)
    (hown : s.loop.settled .handler ≠ none → s.loop.handled .handler = true)
    (hlistening : s.loop.settled .raced ≠ none → s.listening = false)
    (hentered : c.aborted = none →
      ∀ p, p = .work ∨ p = .aborted ∨ p = .race → s.loop.handled p = true)
    (hrefused : c.aborted ≠ none → s.loop.handled .work = false ∧ s.listening = false ∧
      ∀ k, k = .raceWork ∨ k = .raceAborted ∨ k = .raceResume → ¬ s.loop.Live src k) :
    Subscriptions c s.awaitRace := by
  have hkept : ∀ p, s.loop.handled p = true → s.awaitRace.loop.handled p = true := by
    intro p hp
    rw [handled_awaitRace, hp, ite_self]
  have hraced : s.awaitRace.loop.handled .raced = true := by
    rw [handled_awaitRace, if_pos (Or.inr rfl)]
  have hattempt : s.awaitRace.loop.handled .attempt = true := by
    rw [handled_awaitRace, if_pos (Or.inl rfl)]
  refine ⟨wellFormed_awaitRace hwf hjob hcaller, fun p hw _ hp => ?_, ?_, hraced, hattempt,
    fun hc p hp => hkept p (hentered hc p hp), fun hc => ?_, fun _ hn => ?_, ?_, fun hp => ?_⟩
  · rw [settled_awaitRace] at hp
    by_cases hr : p = .raced
    · subst hr
      exact hraced
    · by_cases hh : p = .handler
      · subst hh
        exact hkept _ (hown hp)
      · exact absurd (hpending p hh hw hr) hp
  · rw [Loop.Rejected, settled_awaitRace, hpending _ (by simp) (by simp) (by simp)]
    rintro ⟨_, ⟨⟩⟩
  · obtain ⟨hwork, hlisten, hdead⟩ := hrefused hc
    refine ⟨?_, hlisten, fun k hk => ?_⟩
    · rw [handled_awaitRace, hwork]
      simp
    · rw [live_awaitRace]
      have hdead' := hdead k hk
      rcases hk with rfl | rfl | rfl <;> simpa using hdead'
  · rw [live_awaitRace] at hn
    exact hcatch (by simpa using hn)
  · rw [settled_awaitRace]
    exact hlistening
  · rw [settled_awaitRace, hpending _ (by simp) (by simp) (by simp)] at hp
    exact absurd rfl hp

/-- The awaits after the race keep the outcome. -/
theorem Outcome.awaitRace (h : Outcome o c definition s) : Outcome o c definition s.awaitRace := by
  refine h.frame (fun p _ => by rw [settled_awaitRace]) ?_ ?_ rfl
  · intro hh
    rw [handled_awaitRace, hh]
    simp
  · exact fun hl => live_awaitRace.mpr (Or.inr (Or.inr hl))

/-- A signal that was aborted on entry closes the race before it is entered. -/
theorem Invoked.refused (h : Invoked o c definition s) {reason : JsValue}
    (hc : c.aborted = some reason) :
    AttemptInv o c definition (s.raceWithAbort o c).awaitRace := by
  obtain ⟨error, hloop, hlistening, hstarted⟩ : ∃ error,
      (s.raceWithAbort o c).loop = s.loop.settle .raced (.rejected error) ∧
        (s.raceWithAbort o c).listening = s.listening ∧
        (s.raceWithAbort o c).started = s.started := by
    rw [State.raceWithAbort, hc]
    exact ⟨_, rfl, rfl, rfl⟩
  have hlive : ∀ k, (s.raceWithAbort o c).loop.Live src k ↔ s.loop.Live src k := by
    intro k
    rw [hloop, Loop.live_settle h.wellFormed]
  have hsettled : ∀ p, p ≠ .raced →
      (s.raceWithAbort o c).loop.settled p = s.loop.settled p := by
    intro p hp
    rw [hloop, Loop.settled_settle_of_ne hp]
  have hhandled : (s.raceWithAbort o c).loop.handled = s.loop.handled := by
    rw [hloop, Loop.handled_settle]
  have hidle : ∀ k, k ≠ .invokeResume → ¬ s.loop.Live src k := fun k hk hl => hk (h.live k hl)
  have hwf : (s.raceWithAbort o c).loop.WellFormed src := by
    rw [hloop]
    exact h.wellFormed.settle
  have hdead : ∀ k, k ≠ .invokeResume → ¬ (s.raceWithAbort o c).loop.Live src k := by
    intro k hk
    rw [hlive]
    exact hidle k hk
  have hclosed : (s.raceWithAbort o c).listening = false := hlistening.trans h.listening
  constructor
  · -- nothing of the race is subscribed to, and its promise is the only one that is settled here
    apply subscriptions_awaitRace hwf (hdead _ (by simp)) (hdead _ (by simp)) (hdead _ (by simp))
    · intro p hh hw hr
      rw [hsettled p hr, h.pending p hh hw]
    · rw [hsettled _ (by simp), hhandled]
      exact h.own
    · exact fun _ => hclosed
    · intro hnone
      rw [hc] at hnone
      cases hnone
    · intro _
      rw [hhandled, h.handled _ (by simp)]
      refine ⟨rfl, hclosed, fun k hk => hdead k ?_⟩
      rcases hk with rfl | rfl | rfl <;> simp
  · refine (h.outcome.frame ?_ ?_ ?_ hstarted).awaitRace
    · rintro p (rfl | rfl)
      · exact hsettled _ (by simp)
      · exact hsettled _ (by simp)
    · rw [hhandled]
      exact id
    · exact (hlive _).mpr

/-- An open race subscribes to its entries. -/
theorem Invoked.entered (h : Invoked o c definition s) (hc : c.aborted = none) :
    AttemptInv o c definition (s.raceWithAbort o c).awaitRace := by
  obtain ⟨t, hrace, hloop, hstarted⟩ : ∃ t : State, s.raceWithAbort o c =
      ((t.subscribe .raceWork).subscribe .raceAborted).subscribe .raceResume ∧
        t.loop = s.loop ∧ t.started = s.started := by
    rw [State.raceWithAbort, hc]
    exact ⟨_, rfl, rfl, rfl⟩
  have hlive : ∀ k, (s.raceWithAbort o c).loop.Live src k ↔
      k = .raceResume ∨ k = .raceAborted ∨ k = .raceWork ∨ s.loop.Live src k := by
    intro k
    rw [hrace, live_subscribe, live_subscribe, live_subscribe, hloop]
  have hsettled : (s.raceWithAbort o c).loop.settled = s.loop.settled := by
    rw [hrace]
    simp only [loop_subscribe, Loop.settled_subscribe, hloop]
  have hhandled : ∀ p, (s.raceWithAbort o c).loop.handled p =
      if p = .race then true else if p = .aborted then true else if p = .work then true
        else s.loop.handled p := by
    intro p
    rw [hrace, handled_subscribe, handled_subscribe, handled_subscribe, hloop]
    rfl
  have hidle : ∀ k, k ≠ .invokeResume → ¬ s.loop.Live src k := fun k hk hl => hk (h.live k hl)
  have hwf : (s.raceWithAbort o c).loop.WellFormed src := by
    rw [hrace]
    have hwf : t.loop.WellFormed src := hloop ▸ h.wellFormed
    have hidle' : ∀ k, k ≠ .invokeResume → ¬ t.loop.Live src k := by
      rw [hloop]
      exact hidle
    have hwork : (t.subscribe .raceWork).loop.WellFormed src :=
      hwf.subscribe rfl (hidle' _ (by simp))
    have haborted : ((t.subscribe .raceWork).subscribe .raceAborted).loop.WellFormed src := by
      apply hwork.subscribe rfl
      rw [live_subscribe]
      simpa using hidle' .raceAborted (by simp)
    apply haborted.subscribe rfl
    rw [live_subscribe, live_subscribe]
    simpa using hidle' .raceResume (by simp)
  have hother : ∀ k, k ≠ .raceResume → k ≠ .raceAborted → k ≠ .raceWork → k ≠ .invokeResume →
      ¬ (s.raceWithAbort o c).loop.Live src k := by
    intro k h1 h2 h3 h4
    rw [hlive]
    simpa [h1, h2, h3] using hidle k h4
  constructor
  · -- the race subscribes to the work, to the promise of the abort, and to itself
    apply subscriptions_awaitRace hwf
    · exact hother _ (by simp) (by simp) (by simp) (by simp)
    · exact hother _ (by simp) (by simp) (by simp) (by simp)
    · exact hother _ (by simp) (by simp) (by simp) (by simp)
    · intro p hh hw _
      rw [hsettled, h.pending p hh hw]
    · intro hp
      rw [hsettled] at hp
      rw [hhandled, h.own hp]
      simp
    · intro hp
      rw [hsettled, h.pending _ (by simp) (by simp)] at hp
      exact absurd rfl hp
    · rintro _ p (rfl | rfl | rfl)
      all_goals
        rw [hhandled]
        simp
    · exact fun hne => absurd hc hne
  · refine (h.outcome.frame ?_ ?_ ?_ ?_).awaitRace
    · intro p _
      rw [hsettled]
    · intro hh
      rw [hhandled, hh]
      simp
    · intro hl
      exact (hlive _).mpr (Or.inr (Or.inr (Or.inr hl)))
    · rw [hrace]
      exact hstarted

/-- **The call of a registered job** establishes the invariant. -/
theorem attemptInv_start (hdef : c.definition o = some definition) :
    AttemptInv o c definition (start o c) := by
  have hstart : start o c =
      ((State.called.invoke o c definition).raceWithAbort o c).awaitRace := by
    rw [start, hdef]
    rfl
  rw [hstart]
  cases hc : c.aborted with
  | none => exact invoked_invoke.entered hc
  | some reason => exact invoked_invoke.refused hc

/-! ## What an attempt leaves behind -/

/-- The work of an attempt is rejected: the stored data is invalid, or the handler throws when it is
called, or its promise has been rejected. -/
def WorkFails (o : ProcessorOptions) (c : Call) (definition : JobDefinition) (s : State) : Prop :=
  (∃ error, validate o.fmt definition c.job.data = .error error) ∨
    (∃ error, c.handler = .throws error) ∨ s.loop.Rejected .handler

/-- Once no microtask is left, no rejected promise is unhandled; and once the attempt has settled,
its timer is cleared and its listener removed. -/
def Contained (s : State) : Prop :=
  (s.loop.queue = [] → ∀ p, ¬ s.loop.Unhandled p) ∧
    (s.loop.settled .attempt ≠ none → s.timerArmed = false ∧ s.listening = false)

/-- Once no microtask is left, the work is rejected exactly when it fails. -/
theorem Outcome.rejected_work_iff (h : Outcome o c definition s) (hwf : s.loop.WellFormed src)
    (hq : s.loop.queue = []) : s.loop.Rejected .work ↔ WorkFails o c definition s := by
  cases h with
  | invalid error data _ _ work =>
    exact iff_of_true ⟨_, work⟩ (Or.inl ⟨error, data⟩)
  | threw error run _ work =>
    exact iff_of_true ⟨_, work⟩ (Or.inr (Or.inl ⟨error, run⟩))
  | awaiting run data _ live work =>
    obtain ⟨r, run⟩ := run
    obtain ⟨v, data⟩ := data
    have hpending : s.loop.settled .handler = none := hwf.pending_of_live hq live
    simp [WorkFails, Loop.Rejected, run, data, work, hpending]
  | settled run data _ r handler work =>
    obtain ⟨r', run⟩ := run
    obtain ⟨v, data⟩ := data
    simp [WorkFails, Loop.Rejected, run, data, work, handler]

theorem AttemptInv.unhandled_iff (h : AttemptInv o c definition s) (hq : s.loop.queue = []) :
    (∃ p, s.loop.Unhandled p) ↔ c.aborted ≠ none ∧ WorkFails o c definition s := by
  rw [← h.outcome.rejected_work_iff h.subscriptions.wellFormed hq]
  constructor
  · rintro ⟨p, hrejected, hunhandled⟩
    obtain ⟨error, herror⟩ := hrejected
    -- only the work can be unhandled, and only when the race was never entered
    by_cases hp : p = .work
    · subst hp
      refine ⟨fun hc => ?_, error, herror⟩
      rw [h.subscriptions.entered hc .work (Or.inl rfl)] at hunhandled
      cases hunhandled
    · by_cases hs : p = .silenced
      · subst hs
        exact absurd ⟨error, herror⟩ h.subscriptions.silenced
      · rw [h.subscriptions.own p hp hs (by simp [herror])] at hunhandled
        cases hunhandled
  · rintro ⟨hc, hrejected⟩
    exact ⟨.work, hrejected, (h.subscriptions.refused hc).1⟩

/-- **When an attempt leaves nothing behind.** In every run of an attempt at a registered job, with
aborts for any reasons, also ones on which the class test throws: the timer and the listener are
gone once the attempt has settled; and where no microtask is left, no rejection is unhandled, if and
only if the worker's signal was not aborted before the race against it was entered, or the work does
not fail. -/
theorem contained_iff (o : ProcessorOptions) (c : Call) {definition : JobDefinition}
    (hdef : c.definition o = some definition) {es : List Event} {s : State}
    (hrun : (machine o c).run (start o c) es = some s) :
    (s.loop.settled .attempt ≠ none → s.timerArmed = false ∧ s.listening = false) ∧
      (s.loop.queue = [] →
        (Contained s ↔ ¬ (c.aborted ≠ none ∧ WorkFails o c definition s))) := by
  have hstep : ∀ s e t, AttemptInv o c definition s → True → (machine o c).step s e = some t →
      AttemptInv o c definition t := fun s e t h _ hstep => attemptInv_step h hstep
  have hinv := Machine.run_invariant hstep (attemptInv_start hdef) Machine.stepsMeet_true hrun
  have hclean : s.loop.settled .attempt ≠ none → s.timerArmed = false ∧ s.listening = false := by
    intro hsettled
    obtain ⟨harmed, hraced⟩ := hinv.subscriptions.timer hsettled
    exact ⟨harmed, hinv.subscriptions.listener hraced⟩
  refine ⟨hclean, fun hq => ?_⟩
  rw [← hinv.unhandled_iff hq, not_exists]
  constructor
  · intro hcontained
    exact hcontained.1 hq
  · intro hnone
    exact ⟨fun _ => hnone, hclean⟩

/-! ### An e-mail job -/

/-- The processor of the e-mail queue, in a program without objects that answer anything. -/
def emailProcessor : ProcessorOptions where
  queueName := js "email"
  env := .default
  fmt := featureFormats
  heap _ := ⟨false, fun _ => .ok false, fun _ => .ok .undefined, .ok [], .ok none⟩

/-- The first of five attempts at a valid e-mail job, whose handler returns a pending promise. -/
def emailCall (aborted : Option JsValue) : Call where
  job := ⟨js "email.send", envelope emailPayload (stampMeta plainContext (withCorrelationId (js "r-7"))),
    0, some (.ofNat 5)⟩
  handler := .returns none
  aborted := aborted

/-- The handler's promise settles, and every microtask is run. -/
def settlesThenRuns (r : Settled) : List Event :=
  .handlerSettles r :: List.replicate 6 .microtask

theorem contained_iff_email : ∃ s,
    (machine emailProcessor (emailCall none)).run (start emailProcessor (emailCall none))
        (settlesThenRuns (.fulfilled .null)) = some s ∧
      s.loop.settled .attempt = some (.fulfilled .null) ∧ s.loop.queue = [] ∧ Contained s := by
  obtain ⟨s, hrun, hattempt, hq⟩ : ∃ s,
      (machine emailProcessor (emailCall none)).run (start emailProcessor (emailCall none))
          (settlesThenRuns (.fulfilled .null)) = some s ∧
        s.loop.settled .attempt = some (.fulfilled .null) ∧ s.loop.queue = [] :=
    ⟨_, rfl, rfl, rfl⟩
  have hdef : (emailCall none).definition emailProcessor = some (sendEmailJob featureFormats) := rfl
  have hcontained := (contained_iff emailProcessor (emailCall none) hdef hrun).2 hq
  exact ⟨s, hrun, hattempt, hq, hcontained.mpr fun h => h.1 rfl⟩

/-- **A job that was cancelled before it started brings its rejection to the process.** The handler
of a job whose signal is aborted on entry rejects after the attempt is over, and nothing subscribed
to the work. -/
theorem aborted_entry_unhandled : ∃ definition es s,
    (emailCall (some (.string (js "shutting down")))).definition emailProcessor = some definition ∧
      (machine emailProcessor (emailCall (some (.string (js "shutting down"))))).run
        (start emailProcessor (emailCall (some (.string (js "shutting down"))))) es = some s ∧
      s.loop.queue = [] ∧ s.loop.settled .attempt ≠ none ∧ s.loop.Unhandled .work := by
  refine ⟨sendEmailJob featureFormats,
    [.microtask, .microtask, .handlerSettles (.rejected (.kit (.transient (js "socket closed")))),
      .microtask], ?_⟩
  obtain ⟨s, hrun, hq, hattempt, hrejected, hunhandled⟩ : ∃ s,
      (machine emailProcessor (emailCall (some (.string (js "shutting down"))))).run
          (start emailProcessor (emailCall (some (.string (js "shutting down")))))
          [.microtask, .microtask,
            .handlerSettles (.rejected (.kit (.transient (js "socket closed")))), .microtask] =
            some s ∧
        s.loop.queue = [] ∧
        s.loop.settled .attempt = some (.rejected (.kit (.jobCancelled (js "shutting down")))) ∧
        s.loop.settled .work = some (.rejected (.kit (.transient (js "socket closed")))) ∧
        s.loop.handled .work = false :=
    ⟨_, rfl, rfl, rfl, rfl, rfl⟩
  refine ⟨s, rfl, hrun, hq, ?_, ⟨_, hrejected⟩, hunhandled⟩
  rw [hattempt]
  exact Option.some_ne_none _

end Attempt

end QueueWorkerKit
