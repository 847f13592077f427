import QueueWorkerKit.Worker.DeadLetter

/-!
# What the dead-letter counters say

A call counts its record as dead-lettered once the queue has accepted the add, whether or not the
record was new, and counts a write failure for whatever is thrown after it started, a failed trim
included. The counters say what was stored exactly for the calls whose id was absent and whose
round trips all agree with the fate of the add.

## Main definitions

* `Counted`: the call has incremented the counter
* `TrimFails`: the count or the fetch of a call was answered with an error
* `Truthful`: what the counters of a call should say about its add

## Main results

* `Steps.counted_iff`: what one step does to the counters of a call after its add
* `truthful_iff`: **when the counters of a call tell the truth**
-/

namespace QueueWorkerKit

open Ecma EventDriven Retention

variable {ι : Type} {W : Writers ι} {s s' t : WriterState ι} {e : WriterEvent ι} {c d : ι}
  {k : DeadLetterCounter}

/-- The call has incremented the counter. -/
def WriterState.Counted (s : WriterState ι) (c : ι) (k : DeadLetterCounter) : Prop :=
  (c, k) ∈ s.metrics

/-- A call that has not been answered its add. -/
def CallPhase.BeforeAnswer : CallPhase → Prop
  | unstarted | adding _ => True
  | counting | fetching _ | evicting _ | done | refused | failed => False

theorem CallPhase.not_beforeAnswer_evictingOrDone (ids : List JsString) :
    ¬ (evictingOrDone ids).BeforeAnswer := by
  cases ids <;> exact id

/-- The count or the fetch of a call was answered with an error. -/
def WriterEvent.TrimFails (e : WriterEvent ι) (c : ι) : Prop :=
  e = .getWaitingCount c false ∨ e = .getWaiting c false

namespace Writers

/-- The counter of records moved to the dead-letter queue, with the labels of a call. -/
def deadLettered (W : Writers ι) (c : ι) : DeadLetterCounter :=
  .jobsDeadLettered (W.input c).sourceQueue (W.input c).job.name

/-- The counter of failed writes, with the labels of a call. -/
def writeFailure (W : Writers ι) (c : ι) : DeadLetterCounter :=
  .deadLetterWriteFailures (W.input c).sourceQueue

/-- What the counters of a call should say at the end, when `s` and `s'` are the states around its
add: a failure where no record is stored under its id, a dead-lettered record where the add
created one, and never both. -/
structure Truthful (W : Writers ι) (c : ι) (s s' t : WriterState ι) : Prop where
  failure : t.Counted c (W.writeFailure c) ↔ W.jobId c ∉ s'.queue.keys
  deadLettered : t.Counted c (W.deadLettered c) ↔
    W.jobId c ∉ s.queue.keys ∧ W.jobId c ∈ s'.queue.keys
  exclusive : ¬ (t.Counted c (W.writeFailure c) ∧ t.Counted c (W.deadLettered c))

theorem deadLettered_ne_writeFailure : W.deadLettered c ≠ W.writeFailure c := by
  intro h
  cases h

variable [DecidableEq ι]

/-- A step leaves the counters of the other calls alone. -/
theorem Steps.counted_of_ne (h : Steps W s e t) (hc : c ≠ e.call) :
    t.Counted c k ↔ s.Counted c k := by
  obtain ⟨counters, -, hmetrics⟩ := h.moves
  rw [WriterState.Counted, hmetrics, List.mem_append, ← WriterState.Counted]
  simp [hc.symm]

/-- A call whose add has not been answered has incremented nothing. -/
theorem not_counted_step (h : Steps W s e t)
    (hs : (s.phase c).BeforeAnswer → ∀ k, ¬ s.Counted c k) (ht : (t.phase c).BeforeAnswer) :
    ∀ k, ¬ t.Counted c k := by
  by_cases hc : c = e.call
  · subst hc
    obtain ⟨counters, hmoves, hmetrics⟩ := h.moves
    simp only [WriterState.Counted, hmetrics] at hs ⊢
    generalize s.phase e.call = p, t.phase e.call = q at hmoves hs ht
    cases hmoves with
    -- only a call that has just built its record is still before the answer to its add
    | build _ =>
      rw [List.map_nil, List.append_nil]
      exact hs trivial
    | refuse | buildFails | accept | reject | within | exceed | countFails | fetchFails =>
      exact ht.elim
    | fetch | remove => exact absurd ht (CallPhase.not_beforeAnswer_evictingOrDone _)
  · intro k
    rw [h.counted_of_ne hc]
    rw [h.phase_of_ne hc] at ht
    exact hs ht k

theorem not_counted_of_run {queue : KeyedLog JsString DeadLetterRecord} {es : List (WriterEvent ι)}
    (hrun : W.machine.run (.start queue) es = some s) (hc : (s.phase c).BeforeAnswer) :
    ∀ k, ¬ s.Counted c k := by
  refine Machine.run_invariant (G := fun _ _ => True)
    (I := fun s => (s.phase c).BeforeAnswer → ∀ k, ¬ s.Counted c k) ?_ ?_
    Machine.stepsMeet_true hrun hc
  · intro s e t hs _ hstep
    exact not_counted_step (steps_of_step hstep) hs
  · intro _ k
    simp [WriterState.Counted]

/-- **What one step does to the counters of a call after its add**: a trim that fails counts as a
failed write, and nothing else counts. -/
theorem Steps.counted_iff (h : Steps W s e t) (hs : ¬ (s.phase c).BeforeAnswer) :
    (t.Counted c k ↔ s.Counted c k ∨ k = W.writeFailure c ∧ e.TrimFails c) ∧
      ¬ (t.phase c).BeforeAnswer := by
  by_cases hc : c = e.call
  · subst hc
    obtain ⟨counters, hmoves, hmetrics⟩ := h.moves
    simp only [WriterState.Counted, hmetrics, List.mem_append, List.mem_map, Prod.mk.injEq,
      true_and, exists_eq_right]
    generalize s.phase e.call = p, t.phase e.call = q at hmoves hs
    cases hmoves with
    | refuse | build _ | buildFails | accept | reject => exact absurd trivial hs
    | within | exceed => simp [WriterEvent.TrimFails, CallPhase.BeforeAnswer]
    | countFails | fetchFails =>
      simp [WriterEvent.TrimFails, CallPhase.BeforeAnswer, writeFailure, WriterEvent.call]
    | fetch | remove =>
      simp [WriterEvent.TrimFails, CallPhase.not_beforeAnswer_evictingOrDone]
  · have htrim : ¬ e.TrimFails c := by
      rintro (rfl | rfl) <;> exact hc rfl
    rw [h.counted_of_ne hc, h.phase_of_ne hc]
    simp [htrim, hs]

/-- What a run does to the counters of a call after its add. -/
theorem counted_iff_of_run {es : List (WriterEvent ι)} (hrun : W.machine.run s es = some t)
    (hs : ¬ (s.phase c).BeforeAnswer) (k : DeadLetterCounter) :
    t.Counted c k ↔ s.Counted c k ∨ k = W.writeFailure c ∧ ∃ e ∈ es, e.TrimFails c := by
  -- Induction on the events to come, from any state after the add.
  induction es generalizing s with
  | nil =>
    obtain rfl : s = t := Option.some.inj hrun
    simp
  | cons e es ih =>
    obtain ⟨u, hstep, hrun⟩ := Machine.run_cons.mp hrun
    obtain ⟨hcounted, hu⟩ := (steps_of_step hstep).counted_iff hs
    rw [ih hrun hu, hcounted]
    simp only [List.mem_cons, exists_eq_or_imp]
    rw [or_assoc, ← and_or_left]

/-- What an add does to the counters of its call and to its id. -/
theorem counted_answerAdd (record : DeadLetterRecord) (answer : AddAnswer)
    (hs : ∀ k, ¬ s.Counted c k) :
    ((W.answerAdd s c record answer).Counted c (W.writeFailure c) ↔ answer ≠ .accepted) ∧
      ((W.answerAdd s c record answer).Counted c (W.deadLettered c) ↔ answer = .accepted) ∧
      (W.jobId c ∈ (W.answerAdd s c record answer).queue.keys ↔
        W.jobId c ∈ s.queue.keys ∨ answer ≠ .rejected false) := by
  have hnone : ∀ k, (c, k) ∉ s.metrics := hs
  match answer with
  | .accepted =>
    simp [answerAdd, WriterState.Counted, hnone, writeFailure, deadLettered]
  | .rejected true =>
    simp [answerAdd, WriterState.Counted, hnone, writeFailure, deadLettered]
  | .rejected false =>
    simp [answerAdd, WriterState.Counted, hnone, writeFailure, deadLettered]

theorem not_beforeAnswer_answerAdd (record : DeadLetterRecord) (answer : AddAnswer) :
    ¬ ((W.answerAdd s c record answer).phase c).BeforeAnswer := by
  match answer with
  | .accepted => simp [answerAdd, CallPhase.BeforeAnswer]
  | .rejected true => simp [answerAdd, CallPhase.BeforeAnswer]
  | .rejected false => simp [answerAdd, CallPhase.BeforeAnswer]

/-- **When the counters of a call tell the truth**, in every run of any calls and every pattern of
answers: exactly when no record was stored under its id before its add, and the add either was
rejected without landing, or was accepted by a queue that then answered the count and the fetch of
the call without an error. -/
theorem truthful_iff (queue : KeyedLog JsString DeadLetterRecord) (pre post : List (WriterEvent ι))
    (answer : AddAnswer) (hpre : W.machine.run (.start queue) pre = some s)
    (hadd : W.machine.step s (.add c answer) = some s')
    (hpost : W.machine.run s' post = some t) :
    W.Truthful c s s' t ↔
      W.jobId c ∉ s.queue.keys ∧
        (answer = .rejected false ∨ answer = .accepted ∧ ∀ e ∈ post, ¬ e.TrimFails c) := by
  cases steps_of_step hadd with
  | @add c record answer hphase =>
    have hbefore := not_counted_of_run (c := c) hpre (by rw [hphase]; trivial)
    obtain ⟨hfailure, hdead, hkeys⟩ := counted_answerAdd record answer hbefore
    have hrun := counted_iff_of_run hpost (not_beforeAnswer_answerAdd record answer)
    have hnone : (∀ e ∈ post, ¬ e.TrimFails c) ↔ ¬ ∃ e ∈ post, e.TrimFails c := by
      simp only [not_exists, not_and]
    -- the two counters at the end, and what is stored, in terms of the answers alone
    have hends : W.Truthful c s (W.answerAdd s c record answer) t ↔
        ((answer ≠ .accepted ∨ ∃ e ∈ post, e.TrimFails c) ↔
          ¬ (W.jobId c ∈ s.queue.keys ∨ answer ≠ .rejected false)) ∧
        (answer = .accepted ↔ W.jobId c ∉ s.queue.keys ∧
          (W.jobId c ∈ s.queue.keys ∨ answer ≠ .rejected false)) ∧
        ¬ ((answer ≠ .accepted ∨ ∃ e ∈ post, e.TrimFails c) ∧ answer = .accepted) := by
      have hf := hrun (W.writeFailure c)
      have hd := hrun (W.deadLettered c)
      simp only [true_and, deadLettered_ne_writeFailure, false_and, or_false] at hf hd
      rw [hfailure] at hf
      rw [hdead] at hd
      constructor
      · rintro ⟨h1, h2, h3⟩
        rw [hf, hkeys] at h1
        rw [hd, hkeys] at h2
        rw [hf, hd] at h3
        exact ⟨h1, h2, h3⟩
      · rintro ⟨h1, h2, h3⟩
        exact ⟨by rw [hf, hkeys, h1], by rw [hd, hkeys, h2], by rwa [hf, hd]⟩
    rw [hends, hnone]
    -- an accepted add, one that is rejected and landed all the same, and one that did not land
    cases answer with
    | accepted =>
      simp only [ne_eq, not_true_eq_false, false_or, reduceCtorEq, not_false_eq_true, or_true,
        true_iff, and_true, true_and]
      constructor
      · rintro ⟨-, hends⟩
        exact hends
      · rintro ⟨hfresh, hno⟩
        exact ⟨iff_false_intro hno, hfresh, hno⟩
    | rejected landed => cases landed <;> simp

/-- One call with room for five records. -/
def oneWriter : Writers Unit := ofIds (fun _ => "1") 5

/-- The counters of a call that stores the first record of a queue tell the truth. -/
theorem truthful_iff_first : ∃ s s' t,
    oneWriter.machine.run (.start .empty) [.record () ⟨0, by decide⟩] =
        some s ∧
      oneWriter.machine.step s (.add () .accepted) = some s' ∧
      oneWriter.machine.run s' [.getWaitingCount () true] = some t ∧
      oneWriter.Truthful () s s' t := by
  obtain ⟨s, s', t, hpre, hadd, hpost, hkeys⟩ : ∃ s s' t,
      oneWriter.machine.run (.start .empty) [.record () ⟨0, by decide⟩] =
          some s ∧
        oneWriter.machine.step s (.add () .accepted) = some s' ∧
        oneWriter.machine.run s' [.getWaitingCount () true] = some t ∧
        s.queue.keys = [] := ⟨_, _, _, rfl, rfl, rfl, rfl⟩
  refine ⟨s, s', t, hpre, hadd, hpost, (truthful_iff .empty _ _ _ hpre hadd hpost).mpr ⟨?_, ?_⟩⟩
  · rw [hkeys]
    exact List.not_mem_nil
  · simp [WriterEvent.TrimFails]

/-- **A failed trim is counted as a failed write** of a record that was stored and counted. -/
theorem failed_trim_counts_both : ∃ s s' t,
    oneWriter.machine.run (.start .empty) [.record () ⟨0, by decide⟩] =
        some s ∧
      oneWriter.machine.step s (.add () .accepted) = some s' ∧
      oneWriter.machine.run s' [.getWaitingCount () false] = some t ∧
      s'.queue.keys = [oneWriter.jobId ()] ∧
      t.Counted () (oneWriter.writeFailure ()) ∧
      t.Counted () (oneWriter.deadLettered ()) ∧
      ¬ oneWriter.Truthful () s s' t := by
  obtain ⟨s, s', t, hpre, hadd, hpost, hkeys, hmetrics⟩ : ∃ s s' t,
      oneWriter.machine.run (.start .empty) [.record () ⟨0, by decide⟩] =
          some s ∧
        oneWriter.machine.step s (.add () .accepted) = some s' ∧
        oneWriter.machine.run s' [.getWaitingCount () false] = some t ∧
        s'.queue.keys = [oneWriter.jobId ()] ∧
        t.metrics = [((), oneWriter.deadLettered ()),
          ((), oneWriter.writeFailure ())] :=
    ⟨_, _, _, rfl, rfl, rfl, rfl, rfl⟩
  have hfailure : t.Counted () (oneWriter.writeFailure ()) := by
    simp [WriterState.Counted, hmetrics]
  have hdead : t.Counted () (oneWriter.deadLettered ()) := by
    simp [WriterState.Counted, hmetrics]
  exact ⟨s, s', t, hpre, hadd, hpost, hkeys, hfailure, hdead,
    fun h => h.exclusive ⟨hfailure, hdead⟩⟩

end Writers

end QueueWorkerKit
