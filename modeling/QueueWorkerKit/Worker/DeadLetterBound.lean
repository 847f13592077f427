import QueueWorkerKit.Worker.DeadLetter

/-!
# The dead-letter queue is bounded at rest

Calls act on counts that other calls have made stale, and the queue exceeds its bound while they
are in flight. What carries the bound is the last call that added a record: until it has trimmed,
the entries it has not decided to remove are at most as many as the bound, or it has yet to count
them. No later step of any call adds an entry, and every removal only helps.

## Main definitions

* `Bounds`: a call that will bring the queue within its bound, if no call adds a record before
* `Settling`: the queue is within its bound, or some call will bring it there

## Main results

* `settling_step`: every step keeps the queue settling once a record was added
* `size_le_of_atRest`: **the queue is bounded at rest**
-/

namespace QueueWorkerKit

open Ecma EventDriven Retention

variable {ι : Type} {W : Writers ι} {s t : WriterState ι} {e : WriterEvent ι} {c d : ι}

/-- No call is in flight. -/
def WriterState.AtRest (s : WriterState ι) : Prop := ∀ c, ¬ (s.phase c).InFlight

namespace Writers

/-- The call will bring the queue within its bound, if no call adds a record before. -/
def Bounds (W : Writers ι) (s : WriterState ι) (c : ι) : Prop :=
  match s.phase c with
  | .counting => True
  | .fetching waiting => s.queue.size ≤ waiting
  | .evicting oldest => (s.queue.keys.filter (· ∉ oldest)).length ≤ W.maxEntries
  | _ => False

/-- The queue is within its bound, or some call will bring it there. -/
def Settling (W : Writers ι) (s : WriterState ι) : Prop :=
  s.queue.size ≤ W.maxEntries ∨ ∃ c, W.Bounds s c

/-- A call that bounds the queue keeps doing so while others only remove entries. -/
theorem Bounds.frame (h : W.Bounds s c) (hphase : t.phase c = s.phase c)
    (hsub : t.queue.keys.Sublist s.queue.keys) : W.Bounds t c := by
  have hlen := hsub.length_le
  simp only [KeyedLog.length_keys] at hlen
  unfold Bounds at h ⊢
  rw [hphase]
  split at h
  · trivial
  · exact hlen.trans h
  · exact (hsub.filter _).length_le.trans h
  · exact h

/-- A call left with the removals of some keys bounds the queue when the others are few. -/
theorem settling_of_evictingOrDone {ids : List JsString}
    (hphase : t.phase c = CallPhase.evictingOrDone ids)
    (hlen : (t.queue.keys.filter (· ∉ ids)).length ≤ W.maxEntries) : W.Settling t := by
  cases ids with
  | nil =>
    apply Or.inl
    simpa using hlen
  | cons id rest =>
    refine Or.inr ⟨c, ?_⟩
    simp only [Bounds, hphase, CallPhase.evictingOrDone]
    exact hlen

theorem inFlight_of_bounds (h : W.Bounds s c) : (s.phase c).InFlight := by
  unfold Bounds at h
  split at h
  · next hp => rw [hp]; trivial
  · next hp => rw [hp]; trivial
  · next hp => rw [hp]; trivial
  · exact h.elim

variable [DecidableEq ι]

/-- A step that does not add only removes entries. -/
theorem Steps.queue_sublist (h : Steps W s e t) (hadd : ∀ c answer, e ≠ .add c answer) :
    t.queue.keys.Sublist s.queue.keys := by
  rcases h.queue_cases with hqueue | ⟨c, answer, record, rfl, -⟩ | ⟨c, oldest, id, -, -, -, hqueue⟩
  · rw [hqueue]
  · exact absurd rfl (hadd c answer)
  · rw [hqueue, KeyedLog.keys_remove]
    exact List.filter_sublist

/-- A call that has added a record after a step that is not an add had done so before. -/
theorem Steps.added_of_added (h : Steps W s e t) (hadd : ∀ c answer, e ≠ .add c answer)
    (hd : (t.phase d).Added) : (s.phase d).Added := by
  rcases h.moves_or_eq d with ⟨-, counters, hmoves⟩ | hsame
  · generalize s.phase d = p, t.phase d = q at hmoves hd ⊢
    cases hmoves with
    -- a call that starts has not added its record
    | refuse | build _ | buildFails => exact hd.elim
    | accept | reject => exact absurd rfl (hadd _ _)
    -- the trim of a call follows its add
    | within | exceed | countFails | fetch | fetchFails | remove => trivial
  · rwa [hsame] at hd

/-- A removal of one of the keys a call is to remove leaves it no more of the others. -/
theorem length_filter_remove_le {oldest : List JsString} {id : JsString}
    {q : KeyedLog JsString DeadLetterRecord} :
    ((q.remove id).keys.filter (· ∉ oldest.erase id)).length ≤
      (q.keys.filter (· ∉ oldest)).length := by
  rw [KeyedLog.keys_remove, List.filter_filter]
  refine (List.monotone_filter_right q.keys fun x hx => ?_).length_le
  simp only [Bool.and_eq_true, decide_eq_true_eq, ne_eq] at hx ⊢
  intro hmem
  exact hx.1 ((List.mem_erase_of_ne hx.2).mpr hmem)

/-- Until the queue is within its bound, the step of a call that bounds it keeps it settling. -/
theorem Steps.settling_of_bounds (h : Steps W s e t) (hok : e.Succeeds)
    (hc : W.Bounds s e.call) : W.Settling t := by
  cases h with
  | @record c now h =>
    change W.Bounds s c at hc
    simp [Bounds, h] at hc
  | @add c record answer h =>
    change W.Bounds s c at hc
    simp [Bounds, h] at hc
  | @count c h =>
    by_cases hsize : s.queue.size ≤ W.maxEntries
    · apply Or.inl
      rwa [queue_answerCount]
    · refine Or.inr ⟨c, ?_⟩
      simp [Bounds, answerCount, hsize]
  | @countFails c h => cases hok
  | @fetch c waiting h =>
    change W.Bounds s c at hc
    simp only [Bounds, h] at hc
    apply settling_of_evictingOrDone (c := c) (Function.update_self ..)
    -- of the entries at the fetch, all but the excess over the bound are kept
    have hkept := length_filter_notMem_take_le s.queue.keys (waiting - W.maxEntries)
    rw [KeyedLog.length_keys] at hkept
    have hrest : s.queue.size - (waiting - W.maxEntries) ≤ W.maxEntries := by omega
    exact hkept.trans hrest
  | @fetchFails c waiting h => cases hok
  | @remove c oldest id removed h hid =>
    obtain rfl : removed = true := hok
    change W.Bounds s c at hc
    simp only [Bounds, h] at hc
    exact settling_of_evictingOrDone (c := c) (Function.update_self ..)
      (length_filter_remove_le.trans hc)

/-- **What a step preserves**: once a record was added, the queue is settling. An add makes its
own call the one that will bound the queue; every other step keeps the call that did. -/
theorem settling_step (h : Steps W s e t) (hok : e.Succeeds)
    (hs : (∃ c, (s.phase c).Added) → W.Settling s) (ht : ∃ c, (t.phase c).Added) :
    W.Settling t := by
  by_cases hadd : ∃ c answer, e = .add c answer
  · -- the call that has added has yet to count
    obtain ⟨c, answer, rfl⟩ := hadd
    obtain rfl : answer = .accepted := hok
    cases h with
    | add h =>
      refine Or.inr ⟨c, ?_⟩
      simp [Bounds, answerAdd]
  · have hadd' : ∀ c answer, e ≠ .add c answer := by
      intro c answer he
      exact hadd ⟨c, answer, he⟩
    obtain ⟨d, hd⟩ := ht
    rcases hs ⟨d, h.added_of_added hadd' hd⟩ with hsize | ⟨c, hc⟩
    · have hlen := (h.queue_sublist hadd').length_le
      simp only [KeyedLog.length_keys] at hlen
      exact Or.inl (hlen.trans hsize)
    · -- the call that bounds the queue takes a step itself, or others only remove entries
      by_cases hce : c = e.call
      · exact h.settling_of_bounds hok (hce ▸ hc)
      · exact Or.inr ⟨c, hc.frame (h.phase_of_ne hce) (h.queue_sublist hadd')⟩

/-- After every run in which the queue answers without errors, the queue is settling once a
record was added. -/
theorem settling_of_run {queue : KeyedLog JsString DeadLetterRecord} {es : List (WriterEvent ι)}
    (hrun : W.machine.run (.start queue) es = some s) (hok : ∀ e ∈ es, e.Succeeds)
    (hadded : ∃ c, (s.phase c).Added) : W.Settling s := by
  refine Machine.run_invariant (G := fun _ e => e.Succeeds)
    (I := fun s => (∃ c, (s.phase c).Added) → W.Settling s) ?_ ?_
    (Machine.stepsMeet_of_forall hok) hrun hadded
  · intro s e t hs hok hstep ht
    exact settling_step (steps_of_step hstep) hok hs ht
  · rintro ⟨c, hc⟩
    exact hc.elim

omit [DecidableEq ι] in
/-- A settling queue at rest is within its bound. -/
theorem Settling.size_le (h : W.Settling s) (hrest : s.AtRest) : s.queue.size ≤ W.maxEntries := by
  rcases h with hsize | ⟨c, hc⟩
  · exact hsize
  · exact absurd (inFlight_of_bounds hc) (hrest c)

/-- **The queue is bounded at rest.** After every run of the calls of any number of writers, from
any queue, in which the queue answers without errors, the queue is within the bound whenever no
call is in flight and one has completed. -/
theorem size_le_of_atRest (queue : KeyedLog JsString DeadLetterRecord)
    (es : List (WriterEvent ι)) (hrun : W.machine.run (.start queue) es = some s)
    (hok : ∀ e ∈ es, e.Succeeds) (hrest : s.AtRest) (hdone : ∃ c, s.phase c = .done) :
    s.queue.size ≤ W.maxEntries := by
  obtain ⟨c, hc⟩ := hdone
  have hadded : ∃ c, (s.phase c).Added := ⟨c, by rw [hc]; trivial⟩
  exact (settling_of_run hrun hok hadded).size_le hrest

/-- A second call that finds the queue full evicts the oldest record. -/
theorem size_le_of_atRest_full : ∃ s,
    (ofIds (fun c : Bool => if c then "1" else "2") 1).machine.run (.start .empty)
      (quietCall true ++ quietCall false ++
        [.getWaiting false true, .remove false (js "dlq-email-1-1") true]) = some s ∧
      s.queue.size ≤ 1 := by
  obtain ⟨s, hrun, hphase⟩ : ∃ s,
      (ofIds (fun c : Bool => if c then "1" else "2") 1).machine.run (.start .empty)
        (quietCall true ++ quietCall false ++
          [.getWaiting false true, .remove false (js "dlq-email-1-1") true]) = some s ∧
        ∀ c, s.phase c = .done := by
    refine ⟨_, rfl, fun c => ?_⟩
    cases c <;> rfl
  refine ⟨s, hrun, size_le_of_atRest .empty _ hrun (by decide) (fun c => ?_) ⟨true, hphase true⟩⟩
  rw [hphase c]
  exact id

end Writers

end QueueWorkerKit
