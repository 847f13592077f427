import QueueWorkerKit.Utils.SleepOnce
import QueueWorkerKit.Worker.AttemptProgress
import Mathlib.Algebra.BigOperators.Group.Finset.Piecewise
import Mathlib.Algebra.Order.BigOperators.Group.Finset
import Mathlib.Data.Fintype.Basic

/-!
# Concurrent attempts and their counters

Any number of calls of `processJob`, of any processors, that run at the same time and share the
counters of the process. A call that settles is counted exactly once, and it settles by its timer
and its microtasks, if by nothing else, unless an abort has left it stuck.

## Main definitions

* `Calls`, `calls`: the calls of a process, and their runs
* `CountedOnce`, `Accounts`: what a call adds to the counters, and what all of them add
* `HeardBy`: the aborts by the worker are heard by the race of their call

## Main results

* `callsInv_step`: every step of any call keeps the invariant
* `noneStuck_step`: a step leaves no call stuck exactly when its abort is heard
* `accounting_iff`: **in which runs each call is counted exactly once**
-/

namespace QueueWorkerKit

open Ecma EventDriven

namespace Attempt

variable {o : ProcessorOptions} {c : Call} {definition : JobDefinition} {s t u : State}
  {k : Reaction} {r : Settled} {e : Event} {es : List Event}
  {loop : Loop Promise Reaction JsValue Thrown} {reason : JsValue} {listener : Option Settled}

/-! ## The calls of a process -/

/-- The calls that were made, and the counters they share. -/
structure Calls (ι : Type) where
  attempts : ι → Option State
  metrics : List (Counter × Labels)

/-- A call is made, or something happens to one. -/
inductive CallEvent (ι : Type)
  | call (i : ι)
  | attempt (i : ι) (e : Event)

/-- The process before any call. -/
def Calls.idle (ι : Type) : Calls ι := ⟨fun _ => none, []⟩

variable {ι : Type} [DecidableEq ι]

/-- A call takes a state, in which it has moved further counters. -/
def Calls.advance (s : Calls ι) (i : ι) (counted : ℕ) (a : State) : Calls ι where
  attempts := Function.update s.attempts i (some a)
  metrics := s.metrics ++ a.increments.drop counted

/-- The runs of a process: each call of a processor is made once, and all of them run at the same
time. -/
def calls (o : ι → ProcessorOptions) (c : ι → Call) : Machine (Calls ι) (CallEvent ι) where
  step s
    | .call i =>
      match s.attempts i with
      | none => some (s.advance i 0 (start (o i) (c i)))
      | some _ => none
    | .attempt i e =>
      match s.attempts i with
      | none => none
      | some a => ((machine (o i) (c i)).step a e).map (s.advance i a.increments.length)

/-- How often a counter was moved. -/
def tally (counter : Counter) (increments : List (Counter × Labels)) : ℕ :=
  (increments.map Prod.fst).count counter

/-- What a call has added to a counter. -/
def added (counter : Counter) : Option State → ℕ
  | none => 0
  | some a => tally counter a.increments

/-- What a call adds to the counters, by the time it has settled. -/
structure CountedOnce (o : ProcessorOptions) (c : Call) (a : State) : Prop where
  outcome : added .completed (some a) + added .failed (some a) = 1
  started : added .started (some a) ≤ 1
  duration : added .duration (some a) = added .started (some a)
  retrying : added .retrying (some a) ≤ added .failed (some a)
  refused : (∀ definition, c.definition o = some definition →
      ∃ error, validate o.fmt definition c.job.data = .error error) →
    added .failed (some a) = 1 ∧ added .started (some a) = 0 ∧ added .completed (some a) = 0 ∧
      added .duration (some a) = 0

/-- The calls that failed before their handler was called. -/
def failedBeforeStart [Fintype ι] (s : Calls ι) : ℕ :=
  (Finset.univ.filter fun i => added .failed (s.attempts i) = 1 ∧
    added .started (s.attempts i) = 0).card

/-- What the calls of a process add to the counters: each one adds once, and nothing after it has
settled; each one settles; and the counters of the process are what the calls have added. -/
structure Accounts [Fintype ι] (o : ι → ProcessorOptions) (c : ι → Call) (s : Calls ι) : Prop where
  once : ∀ i a, s.attempts i = some a → a.loop.settled .attempt ≠ none →
    CountedOnce (o i) (c i) a
  final : ∀ i a es t, s.attempts i = some a → a.loop.settled .attempt ≠ none →
    (calls o c).run s es = some t → ∃ b, t.attempts i = some b ∧ b.increments = a.increments
  settles : ∀ i a, s.attempts i = some a → ∃ (es : List Event) (t : Calls ι) (b : State),
    (∀ e ∈ es, e = .microtask ∨ e = .timerFires none) ∧
      (calls o c).run s (es.map (.attempt i)) = some t ∧ t.attempts i = some b ∧
      b.loop.settled .attempt ≠ none
  shared : ∀ counter, tally counter s.metrics = ∑ i, added counter (s.attempts i)
  totals : (∀ i a, s.attempts i = some a → a.loop.settled .attempt ≠ none) →
    tally .started s.metrics = tally .duration s.metrics ∧
      tally .duration s.metrics =
        tally .completed s.metrics + (tally .failed s.metrics - failedBeforeStart s)

/-- An abort by the worker of a call is heard by its race. -/
def HeardBy (o : ι → ProcessorOptions) (c : ι → Call) (s : Calls ι) : CallEvent ι → Prop
  | .call _ => True
  | .attempt i e => ∀ a, s.attempts i = some a → Heard (o i) (c i) a e

/-- No call is stuck. -/
def NoneStuck (s : Calls ι) : Prop := ∀ i a, s.attempts i = some a → ¬ Stuck a

/-! ## Counting -/

variable {counter : Counter} {xs ys : List (Counter × Labels)}

theorem tally_append : tally counter (xs ++ ys) = tally counter xs + tally counter ys := by
  simp [tally]

/-- What is added to a counter is counted in what comes after a prefix. -/
theorem tally_of_prefix (h : xs <+: ys) :
    tally counter ys = tally counter xs + tally counter (ys.drop xs.length) := by
  obtain ⟨new, rfl⟩ := h
  rw [tally_append, List.drop_left]

/-- How often each counter is moved by an attempt that settles. -/
theorem AttemptCounts.counts {started : Bool} {counters : List Counter}
    (h : AttemptCounts started counters) :
    counters.count .started = (if started then 1 else 0) ∧
      counters.count .duration = (if started then 1 else 0) ∧
      counters.count .completed + counters.count .failed = 1 ∧
      counters.count .retrying ≤ counters.count .failed ∧
      counters.count .completed ≤ if started then 1 else 0 := by
  cases h with
  | completed => decide
  | failed started retrying => cases started <;> cases retrying <;> decide

/-- An attempt that has settled is counted so, under a registered name or not. -/
theorem CallInv.counts (h : CallInv o c s) (hsettled : s.loop.settled .attempt ≠ none) :
    AttemptCounts s.started s.counters := by
  cases h with
  | registered _ _ _ tracked _ => exact (tracked.done hsettled).2
  | unknown _ refused =>
    rw [refused.started, State.counters, refused.increments]
    exact .failed false false

/-- **A call that has settled is counted once.** -/
theorem CallInv.countedOnce (h : CallInv o c s) (hsettled : s.loop.settled .attempt ≠ none) :
    CountedOnce o c s := by
  obtain ⟨hstarted, hduration, houtcome, hretrying, hcompleted⟩ := (h.counts hsettled).counts
  refine ⟨houtcome, ?_, hduration.trans hstarted.symm, hretrying, fun hrefused => ?_⟩
  · show s.counters.count .started ≤ 1
    rw [hstarted]
    split_ifs <;> simp
  · -- a call that is refused is never started
    have hnot : s.started = false := by
      cases h with
      | registered definition known _ _ started =>
        obtain ⟨error, herror⟩ := hrefused definition known
        rw [Bool.eq_false_iff]
        intro hs
        obtain ⟨v, hv⟩ := started.mp hs
        rw [herror] at hv
        cases hv
      | unknown _ refused => exact refused.started
    rw [hnot] at hstarted hduration hcompleted
    have hzero : s.counters.count .completed = 0 := Nat.le_zero.mp hcompleted
    refine ⟨?_, hstarted, hzero, hduration⟩
    show s.counters.count .failed = 1
    omega

/-- The balance of a call that has settled. -/
theorem CallInv.balance (h : CallInv o c s) (hsettled : s.loop.settled .attempt ≠ none) :
    added .duration (some s) +
        (if added .failed (some s) = 1 ∧ added .started (some s) = 0 then 1 else 0) =
      added .completed (some s) + added .failed (some s) := by
  obtain ⟨hstarted, hduration, houtcome, -, hcompleted⟩ := (h.counts hsettled).counts
  show s.counters.count .duration + (if s.counters.count .failed = 1 ∧
    s.counters.count .started = 0 then 1 else 0) = s.counters.count .completed +
    s.counters.count .failed
  rw [houtcome, hduration, hstarted]
  cases hs : s.started with
  | true => simp
  | false =>
    rw [hs] at hcompleted
    have hfailed : s.counters.count .failed = 1 := by
      simp only [Bool.false_eq_true, if_false] at hcompleted
      omega
    simp [hfailed]

/-! ## Runs of a process -/

section Runs

variable {o : ι → ProcessorOptions} {c : ι → Call} {s t : Calls ι} {e : CallEvent ι}
  {es : List (CallEvent ι)} {i : ι}

/-- The invariant of the calls of a process. -/
structure CallsInv [Fintype ι] (o : ι → ProcessorOptions) (c : ι → Call) (s : Calls ι) : Prop where
  each : ∀ i a, s.attempts i = some a → CallInv (o i) (c i) a
  shared : ∀ counter, tally counter s.metrics = ∑ i, added counter (s.attempts i)

/-- **What a step does**: one call takes another state, its first one or the next one. -/
theorem calls_step_cases (hstep : (calls o c).step s e = some t) : ∃ i counted a,
    t = s.advance i counted a ∧
      (e = .call i ∧ s.attempts i = none ∧ counted = 0 ∧ a = start (o i) (c i) ∨
        ∃ b e', e = .attempt i e' ∧ s.attempts i = some b ∧ counted = b.increments.length ∧
          (machine (o i) (c i)).step b e' = some a) := by
  cases e with
  | call i =>
    cases hi : s.attempts i with
    | none =>
      simp only [calls, hi] at hstep
      exact ⟨i, 0, _, (Option.some.inj hstep).symm, Or.inl ⟨rfl, hi, rfl, rfl⟩⟩
    | some b =>
      simp only [calls, hi] at hstep
      cases hstep
  | attempt i e' =>
    cases hi : s.attempts i with
    | none =>
      simp only [calls, hi] at hstep
      cases hstep
    | some b =>
      simp only [calls, hi] at hstep
      obtain ⟨a, ha, rfl⟩ := Option.map_eq_some_iff.mp hstep
      exact ⟨i, _, a, rfl, Or.inr ⟨b, e', rfl, hi, rfl, ha⟩⟩

theorem attempts_advance_self {counted : ℕ} {a : State} :
    (s.advance i counted a).attempts i = some a := Function.update_self ..

theorem attempts_advance_of_ne {counted : ℕ} {a : State} {j : ι} (h : j ≠ i) :
    (s.advance i counted a).attempts j = s.attempts j := Function.update_of_ne h ..

/-- A call that adds to a counter adds as much to the sum of all calls. -/
theorem sum_added_advance [Fintype ι] {counted n : ℕ} {a : State} {counter : Counter}
    (h : added counter (some a) = added counter (s.attempts i) + n) :
    ∑ j, added counter ((s.advance i counted a).attempts j) =
      ∑ j, added counter (s.attempts j) + n := by
  -- Only the summand of the call changes.
  rw [← Finset.add_sum_erase _ _ (Finset.mem_univ i),
    ← Finset.add_sum_erase _ (fun j => added counter (s.attempts j)) (Finset.mem_univ i)]
  have hothers : ∑ j ∈ Finset.univ.erase i, added counter ((s.advance i counted a).attempts j) =
      ∑ j ∈ Finset.univ.erase i, added counter (s.attempts j) := by
    apply Finset.sum_congr rfl
    intro j hj
    rw [attempts_advance_of_ne (Finset.ne_of_mem_erase hj)]
  rw [hothers, attempts_advance_self, h]
  omega

omit [DecidableEq ι] in
theorem callsInv_idle [Fintype ι] : CallsInv o c (Calls.idle ι) := by
  constructor
  · intro i a ha
    cases ha
  · intro counter
    exact (Finset.sum_const_zero).symm

/-- **Every step of any call keeps the invariants of the calls.** -/
theorem each_step (h : ∀ i a, s.attempts i = some a → CallInv (o i) (c i) a)
    (hstep : (calls o c).step s e = some t) :
    ∀ i a, t.attempts i = some a → CallInv (o i) (c i) a := by
  obtain ⟨i, counted, a, rfl, hi⟩ := calls_step_cases hstep
  intro j b hb
  by_cases hj : j = i
  · subst hj
    rw [attempts_advance_self] at hb
    obtain rfl := Option.some.inj hb
    rcases hi with ⟨-, -, -, rfl⟩ | ⟨b, e', -, hb, -, hbstep⟩
    · exact callInv_start _ _
    · exact callInv_step (h j b hb) hbstep
  · rw [attempts_advance_of_ne hj] at hb
    exact h j b hb

theorem callsInv_step [Fintype ι] (h : CallsInv o c s) (hstep : (calls o c).step s e = some t) :
    CallsInv o c t := by
  refine ⟨each_step h.each hstep, fun counter => ?_⟩
  obtain ⟨i, counted, a, rfl, hi⟩ := calls_step_cases hstep
  have hadded : added counter (some a) =
      added counter (s.attempts i) + tally counter (a.increments.drop counted) := by
    rcases hi with ⟨-, hnone, rfl, -⟩ | ⟨b, e', -, hb, rfl, hbstep⟩
    · -- a call that is made had added nothing
      rw [hnone, List.drop_zero]
      exact (Nat.zero_add _).symm
    · rw [hb]
      apply tally_of_prefix
      rcases (increments_step hbstep).2 with hkept | ⟨-, hprefix⟩
      · rw [hkept]
      · exact hprefix
  rw [sum_added_advance hadded, ← h.shared counter]
  exact tally_append

theorem callsInv_run [Fintype ι] (h : CallsInv o c s) (hrun : (calls o c).run s es = some t) :
    CallsInv o c t :=
  Machine.run_invariant (G := fun _ _ => True) (fun _ _ _ h _ hstep => callsInv_step h hstep) h
    Machine.stepsMeet_true hrun

/-- A call that has settled counts nothing more, whatever the others do. -/
theorem final_step [Fintype ι] (h : CallsInv o c s) {a : State} (hi : s.attempts i = some a)
    (hsettled : a.loop.settled .attempt ≠ none) (hstep : (calls o c).step s e = some t) :
    ∃ b, t.attempts i = some b ∧ b.loop.settled .attempt ≠ none ∧ b.increments = a.increments := by
  obtain ⟨j, counted, a', rfl, hj⟩ := calls_step_cases hstep
  by_cases hij : i = j
  · subst hij
    rcases hj with ⟨-, hnone, -, -⟩ | ⟨b, e', -, hb, -, hbstep⟩
    · rw [hi] at hnone
      cases hnone
    · obtain rfl := Option.some.inj (hi.symm.trans hb)
      obtain ⟨r, hr⟩ := Option.ne_none_iff_exists'.mp hsettled
      refine ⟨a', attempts_advance_self, ?_,
        increments_of_settled (h.each i _ hi) hsettled hbstep⟩
      rw [settled_step hr hbstep]
      exact Option.some_ne_none r
  · refine ⟨a, ?_, hsettled, rfl⟩
    rw [attempts_advance_of_ne hij]
    exact hi

theorem final_run [Fintype ι] (h : CallsInv o c s) {a : State} (hi : s.attempts i = some a)
    (hsettled : a.loop.settled .attempt ≠ none) (hrun : (calls o c).run s es = some t) :
    ∃ b, t.attempts i = some b ∧ b.increments = a.increments := by
  -- Induction on the run: the call stays settled, with the same increments.
  induction es generalizing s a with
  | nil =>
    obtain rfl : s = t := Option.some.inj hrun
    exact ⟨a, hi, rfl⟩
  | cons e es ih =>
    obtain ⟨u, hstep, hrun⟩ := Machine.run_cons.mp hrun
    obtain ⟨b, hb, hbsettled, hkept⟩ := final_step h hi hsettled hstep
    obtain ⟨d, hd, hdkept⟩ := ih (callsInv_step h hstep) hb hbsettled hrun
    exact ⟨d, hd, hdkept.trans hkept⟩

/-- A run of one call is a run of the process. -/
theorem exists_run_calls {a b : State} {events : List Event} (hi : s.attempts i = some a)
    (hrun : (machine (o i) (c i)).run a events = some b) :
    ∃ t, (calls o c).run s (events.map (.attempt i)) = some t ∧ t.attempts i = some b := by
  -- Induction on the events of the call.
  induction events generalizing s a with
  | nil =>
    obtain rfl : a = b := Option.some.inj hrun
    exact ⟨s, rfl, hi⟩
  | cons e events ih =>
    obtain ⟨a', hstep, hrun⟩ := Machine.run_cons.mp hrun
    obtain ⟨t, ht, hb⟩ := ih (s := s.advance i a.increments.length a') attempts_advance_self hrun
    refine ⟨t, Machine.run_cons.mpr ⟨_, ?_, ht⟩, hb⟩
    simp only [calls, hi, hstep, Option.map_some]

/-- A run of the process in which only one call takes steps is a run of that call. -/
theorem run_of_run_calls {a : State} {events : List Event} (hi : s.attempts i = some a)
    (hrun : (calls o c).run s (events.map (.attempt i)) = some t) :
    ∃ b, (machine (o i) (c i)).run a events = some b ∧ t.attempts i = some b := by
  -- Induction on the events of the call.
  induction events generalizing s a with
  | nil =>
    obtain rfl : s = t := Option.some.inj hrun
    exact ⟨a, rfl, hi⟩
  | cons e events ih =>
    obtain ⟨u, hstep, hrun⟩ := Machine.run_cons.mp hrun
    simp only [calls, hi] at hstep
    obtain ⟨a', ha', rfl⟩ := Option.map_eq_some_iff.mp hstep
    obtain ⟨b, hb, htb⟩ := ih attempts_advance_self hrun
    exact ⟨b, Machine.run_cons.mpr ⟨a', ha', hb⟩, htb⟩

/-- **A step leaves no call stuck** exactly when an abort that it brings is heard. -/
theorem noneStuck_step (h : ∀ i a, s.attempts i = some a → CallInv (o i) (c i) a)
    (hfree : NoneStuck s) (hstep : (calls o c).step s e = some t) :
    NoneStuck t ↔ HeardBy o c s e := by
  obtain ⟨i, counted, a, rfl, hi⟩ := calls_step_cases hstep
  -- Only the call that takes a step can be stuck after it.
  have hone : NoneStuck (s.advance i counted a) ↔ ¬ Stuck a := by
    refine ⟨fun hnone => hnone i a attempts_advance_self, fun hnot j b hb => ?_⟩
    by_cases hj : j = i
    · subst hj
      rw [attempts_advance_self] at hb
      obtain rfl := Option.some.inj hb
      exact hnot
    · rw [attempts_advance_of_ne hj] at hb
      exact hfree j b hb
  rw [hone]
  rcases hi with ⟨rfl, -, -, rfl⟩ | ⟨b, e', rfl, hb, -, hbstep⟩
  · exact iff_of_true (not_stuck_start _ _) trivial
  · constructor
    · intro hnot b' hb'
      obtain rfl := Option.some.inj (hb.symm.trans hb')
      by_contra hunheard
      exact hnot (stuck_of_unheard (h i b hb) hunheard hbstep)
    · exact fun hheard => not_stuck_step (h i b hb) (hfree i b hb) (hheard b hb) hbstep

omit [DecidableEq ι] in
/-- Once every call has settled, the counters balance. -/
theorem CallsInv.totals [Fintype ι] (h : CallsInv o c s)
    (hsettled : ∀ i a, s.attempts i = some a → a.loop.settled .attempt ≠ none) :
    tally .started s.metrics = tally .duration s.metrics ∧
      tally .duration s.metrics =
        tally .completed s.metrics + (tally .failed s.metrics - failedBeforeStart s) := by
  have hduration : ∀ i, added .duration (s.attempts i) = added .started (s.attempts i) := by
    intro i
    cases hi : s.attempts i with
    | none => rfl
    | some a => exact ((h.each i a hi).countedOnce (hsettled i a hi)).duration
  have hbalance : ∀ i, added .duration (s.attempts i) + (if added .failed (s.attempts i) = 1 ∧
      added .started (s.attempts i) = 0 then 1 else 0) =
      added .completed (s.attempts i) + added .failed (s.attempts i) := by
    intro i
    cases hi : s.attempts i with
    | none => rfl
    | some a => exact (h.each i a hi).balance (hsettled i a hi)
  -- What failed before its start is part of what failed.
  have hbefore : ∀ i, (if added .failed (s.attempts i) = 1 ∧ added .started (s.attempts i) = 0 then
      1 else 0) ≤ added .failed (s.attempts i) := by
    intro i
    split_ifs with hif
    · exact hif.1.ge
    · exact Nat.zero_le _
  -- The balance of the process is the sum of the balances of its calls.
  have hsum := Finset.sum_congr (rfl : (Finset.univ : Finset ι) = Finset.univ)
    fun i _ => hbalance i
  have hle := Finset.sum_le_sum fun i (_ : i ∈ (Finset.univ : Finset ι)) => hbefore i
  rw [Finset.sum_add_distrib, Finset.sum_add_distrib] at hsum
  simp only [h.shared]
  refine ⟨Finset.sum_congr rfl fun i _ => (hduration i).symm, ?_⟩
  rw [failedBeforeStart, Finset.card_filter]
  omega

/-- It is enough that every reason the worker aborts with answers the class test. -/
theorem heardBy_of_answers (hanswers : ∀ i reason listener,
    .attempt i (.workerAborts reason listener) ∈ es → AnswersTest (o i).heap reason) :
    (calls o c).StepsMeet (HeardBy o c) s es := by
  -- Induction on the events.
  induction es generalizing s with
  | nil => trivial
  | cons e es ih =>
    refine ⟨?_, fun t _ => ih fun i reason listener hmem =>
      hanswers i reason listener (List.mem_cons_of_mem _ hmem)⟩
    cases e with
    | call i => trivial
    | attempt i e =>
      intro a _
      cases e with
      | workerAborts reason listener =>
        cases listener with
        | none => exact fun _ => hanswers i reason none List.mem_cons_self
        | some r => trivial
      | _ => trivial

/-- The accounts of a process are in order exactly when no call is stuck. -/
theorem accounts_iff [Fintype ι] (h : CallsInv o c s) : Accounts o c s ↔ NoneStuck s := by
  constructor
  · intro haccounts i a hi hstuck
    obtain ⟨events, t, b, hevents, hrun, hb, hsettled⟩ := haccounts.settles i a hi
    obtain ⟨b', hb', htb'⟩ := run_of_run_calls hi hrun
    obtain rfl := Option.some.inj (hb.symm.trans htb')
    exact hsettled ((stuck_run hstuck (h.each i a hi) hevents hb').pending .attempt (by simp))
  · intro hfree
    constructor
    · intro i a hi hsettled
      exact (h.each i a hi).countedOnce hsettled
    · intro i a es t hi hsettled hrun
      exact final_run h hi hsettled hrun
    · intro i a hi
      obtain ⟨events, b, hevents, hb, hsettled⟩ := exists_run_settled (h.each i a hi) (hfree i a hi)
      obtain ⟨t, ht, htb⟩ := exists_run_calls hi hb
      exact ⟨events, t, b, hevents, ht, htb, hsettled⟩
    · exact h.shared
    · exact h.totals

end Runs

/-- **In which runs each call is counted exactly once.** A call that has settled has added one to
the completed and the failed together, at most one to the started, a duration for each start, and at
most one to the retried, with the failed; one that was refused, for its name or its data, has added
one to the failed and nothing else. It adds nothing more after that; and its timer and its
microtasks settle it if nothing else does. The counters of the process are the sums of what the
calls added: where all have settled, as many were started as were timed, and as many as completed or
failed after they were started. All of this holds in every state that a run comes through, of any
number of calls, of any jobs at any processors, if and only if each abort by the worker is heard by
the race of its call. -/
theorem accounting_iff [Fintype ι] (o : ι → ProcessorOptions) (c : ι → Call)
    (es : List (CallEvent ι)) (s : Calls ι) (hrun : (calls o c).run (Calls.idle ι) es = some s) :
    (calls o c).Always (Accounts o c) (Calls.idle ι) es ↔
      (calls o c).StepsMeet (HeardBy o c) (Calls.idle ι) es := by
  have hstep : ∀ s e t, CallsInv o c s ∧ NoneStuck s → (calls o c).step s e = some t →
      (CallsInv o c t ∧ NoneStuck t ↔ HeardBy o c s e) := by
    rintro s e t ⟨hinv, hfree⟩ hstep
    rw [← noneStuck_step hinv.each hfree hstep]
    exact and_iff_right (callsInv_step hinv hstep)
  have hidle : CallsInv o c (Calls.idle ι) ∧ NoneStuck (Calls.idle ι) := by
    refine ⟨callsInv_idle, fun i a ha => ?_⟩
    cases ha
  rw [← Machine.always_iff hstep hidle hrun]
  constructor
  · intro halways pre post t hes ht
    have hinv : CallsInv o c t := callsInv_run callsInv_idle ht
    exact ⟨hinv, (accounts_iff hinv).mp (halways pre post t hes ht)⟩
  · intro halways pre post t hes ht
    obtain ⟨hinv, hfree⟩ := halways pre post t hes ht
    exact (accounts_iff hinv).mpr hfree

/-! ### Two calls -/

/-- An e-mail job whose handler is called, and a job under a name that no build has. -/
def twoCalls : Fin 2 → Call
  | 0 => emailCall none
  | 1 => { emailCall none with job := ⟨js "email.retired", .null, 0, none⟩ }

/-- The processor of the e-mail queue, in a program whose objects are proxies that were revoked. -/
def revokedProcessor : ProcessorOptions :=
  { emailProcessor with heap := fun _ => SleepState.revokedProxy }

/-- The worker aborts the first of two calls with a text, and every microtask is run. -/
theorem accounting_iff_twoCalls : ∃ es s,
    (calls (fun _ => revokedProcessor) twoCalls).run (Calls.idle (Fin 2)) es = some s ∧
      .attempt 0 (.workerAborts (.string (js "shutting down")) none) ∈ es ∧
      tally .started s.metrics = 1 ∧ tally .completed s.metrics = 0 ∧ tally .failed s.metrics = 2 ∧
      (calls (fun _ => revokedProcessor) twoCalls).Always (Accounts (fun _ => revokedProcessor)
        twoCalls) (Calls.idle (Fin 2)) es := by
  obtain ⟨s, hrun, hstarted, hcompleted, hfailed⟩ : ∃ s,
      (calls (fun _ => revokedProcessor) twoCalls).run (Calls.idle (Fin 2))
          (.call 0 :: .call 1 :: .attempt 0 (.workerAborts (.string (js "shutting down")) none) ::
            List.replicate 4 (.attempt 0 .microtask)) = some s ∧
        tally .started s.metrics = 1 ∧ tally .completed s.metrics = 0 ∧
        tally .failed s.metrics = 2 :=
    ⟨_, rfl, rfl, rfl, rfl⟩
  refine ⟨_, s, hrun, by simp, hstarted, hcompleted, hfailed,
    (accounting_iff (fun _ => revokedProcessor) twoCalls _ s hrun).mpr ?_⟩
  refine heardBy_of_answers fun i reason listener hmem => ?_
  -- the only reason is a text, which is an instance of nothing
  obtain rfl : reason = .string (js "shutting down") := by
    simp only [List.mem_cons, List.mem_replicate, reduceCtorEq, CallEvent.attempt.injEq,
      Event.workerAborts.injEq, and_false, or_false, false_or] at hmem
    exact hmem.2.1
  exact ⟨false, rfl⟩

/-- **A call whose abort is not heard is never counted**: its reason throws at the class test, the
handler's promise is pending, and the deadline that passes changes nothing. Until the handler
settles it, the attempt stays as it is. -/
theorem unheard_abort_uncounted : ∃ s a,
    (calls (fun _ => revokedProcessor) twoCalls).run (Calls.idle (Fin 2))
        [.call 0, .attempt 0 (.workerAborts (.object 0) none), .attempt 0 (.timerFires none)] =
          some s ∧
      s.attempts 0 = some a ∧ a.loop.settled .attempt = none ∧ a.counters = [.started] ∧
      (∀ fs b, (∀ r, .handlerSettles r ∉ fs) →
        (machine revokedProcessor (twoCalls 0)).run a fs = some b → b = a) ∧
      ¬ Accounts (fun _ => revokedProcessor) twoCalls s := by
  obtain ⟨s, a, hrun, ha, hq, htimer, hcounters, hreason, hdeaf, hsettled⟩ : ∃ s a,
      (calls (fun _ => revokedProcessor) twoCalls).run (Calls.idle (Fin 2))
          [.call 0, .attempt 0 (.workerAborts (.object 0) none), .attempt 0 (.timerFires none)] =
            some s ∧
        s.attempts 0 = some a ∧ a.loop.queue = [] ∧ a.timerArmed = false ∧
        a.counters = [.started] ∧ a.reason = some (.object 0) ∧ a.listening = false ∧
        a.loop.settled = fun _ => none :=
    ⟨_, _, rfl, rfl, rfl, rfl, rfl, rfl, rfl, rfl⟩
  have hstuck : Stuck a := ⟨hdeaf, fun p _ => by rw [hsettled]⟩
  have hinv : CallsInv (fun _ => revokedProcessor) twoCalls s := callsInv_run callsInv_idle hrun
  refine ⟨s, a, hrun, ha, by rw [hsettled], hcounters, fun fs b hfs hb => ?_, fun haccounts => ?_⟩
  · -- nothing is queued, the timer is not armed, and the signal is aborted already
    have hstep : ∀ b e b', b = a → (∀ r, e ≠ .handlerSettles r) →
        (machine revokedProcessor (twoCalls 0)).step b e = some b' → b' = a := by
      rintro b e b' rfl he hstep
      cases e with
      | handlerSettles r => exact absurd rfl (he r)
      | timerFires listener => simp [machine, htimer] at hstep
      | workerAborts reason listener =>
        simp only [machine, State.abort, hreason] at hstep
        exact (Option.some.inj hstep).symm
      | microtask => simp [machine, Loop.pop_eq_none.mpr hq] at hstep
    have hmeets : ∀ e ∈ fs, ∀ r, e ≠ .handlerSettles r := by
      rintro e he r rfl
      exact hfs r he
    exact Machine.run_invariant (I := fun u => u = a) hstep rfl
      (Machine.stepsMeet_of_forall hmeets) hb
  · exact (accounts_iff hinv).mp haccounts 0 a ha hstuck

end Attempt

end QueueWorkerKit
