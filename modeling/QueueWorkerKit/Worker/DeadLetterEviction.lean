import QueueWorkerKit.Worker.DeadLetterBound

/-!
# Which dead-letter records eviction keeps

Oldest records are to be evicted first. A call evicts as many of the oldest entries as its count
exceeded the bound; where the queue has shrunk between its count and its fetch, these reach into
the newest records. As long as no call fetches from a queue shorter than it counted, the newest
records are never removed, and at rest the queue holds exactly these.

## Main definitions

* `arrivals`: the ids of the records that were added, in order
* `UpToDate`: a fetch from a queue at least as long as its call counted
* `Newest`: the invariant of such runs

## Main results

* `newest_step`: what a step whose fetch is up to date preserves
* `keeps_newest`: **runs whose fetches are up to date keep the newest records**
-/

namespace QueueWorkerKit

open Ecma EventDriven Retention

variable {ι : Type} {W : Writers ι} {s t : WriterState ι} {e : WriterEvent ι} {c d : ι}
  {queue : KeyedLog JsString DeadLetterRecord} {hist : List (WriterEvent ι)}

namespace Writers

/-- The ids of the records that were added, in order. -/
def arrivals (W : Writers ι) (es : List (WriterEvent ι)) : List JsString :=
  es.filterMap fun
    | .add c .accepted => some (W.jobId c)
    | _ => none

/-- A fetch finds the queue at least as long as its call counted. -/
def UpToDate (s : WriterState ι) : WriterEvent ι → Prop
  | .getWaiting c _ =>
    match s.phase c with
    | .fetching waiting => waiting ≤ s.queue.size
    | _ => True
  | _ => True

instance (s : WriterState ι) (e : WriterEvent ι) : Decidable (UpToDate s e) := by
  unfold UpToDate
  split
  · split <;> infer_instance
  · infer_instance

/-- The ids of the records that the queue started with or was given, oldest first. -/
def history (W : Writers ι) (queue : KeyedLog JsString DeadLetterRecord)
    (es : List (WriterEvent ι)) : List JsString :=
  queue.keys ++ W.arrivals es

/-- What holds after a history of events in which every fetch was up to date: the queue retains
the newest records, every arrival was that of a call that has added its record, and what calls
have decided to remove is not among the newest. -/
structure Newest (W : Writers ι) (queue : KeyedLog JsString DeadLetterRecord)
    (hist : List (WriterEvent ι)) (s : WriterState ι) : Prop where
  retains : Retains W.maxEntries (W.history queue hist) s.queue.keys
  arrived : ∀ k ∈ W.arrivals hist, ∃ c, W.jobId c = k ∧ (s.phase c).Added
  doomed : ∀ c oldest, s.phase c = .evicting oldest → ∀ k ∈ oldest,
    k ∈ W.history queue hist ∧ k ∉ (W.history queue hist).rtake W.maxEntries

theorem arrivals_concat_of_ne (hadd : ∀ c answer, e ≠ .add c answer) :
    W.arrivals (hist ++ [e]) = W.arrivals hist := by
  rw [arrivals, List.filterMap_append, ← arrivals, List.append_right_eq_self]
  cases e with
  | add c answer => exact absurd rfl (hadd c answer)
  | _ => rfl

theorem history_concat_of_ne (hadd : ∀ c answer, e ≠ .add c answer) :
    W.history queue (hist ++ [e]) = W.history queue hist := by
  rw [history, arrivals_concat_of_ne hadd, ← history]

theorem arrivals_concat_add :
    W.arrivals (hist ++ [.add c .accepted]) = W.arrivals hist ++ [W.jobId c] := by
  simp [arrivals]

theorem history_concat_add :
    W.history queue (hist ++ [.add c .accepted]) = W.history queue hist ++ [W.jobId c] := by
  rw [history, arrivals_concat_add, ← List.append_assoc, ← history]

theorem newest_start (queue : KeyedLog JsString DeadLetterRecord) :
    W.Newest queue [] (.start queue) where
  retains := by
    rw [history, arrivals, List.filterMap_nil, List.append_nil]
    exact Retains.refl queue.keys_nodup
  arrived _ h := absurd h List.not_mem_nil
  doomed _ _ h := by cases h

variable [DecidableEq ι]

/-- A call that had added a record still has, unless the queue answers with an error. -/
theorem Steps.added (h : Steps W s e t) (hok : e.Succeeds) (hd : (s.phase d).Added) :
    (t.phase d).Added := by
  rcases h.moves_or_eq d with ⟨-, counters, hmoves⟩ | hsame
  · generalize s.phase d = p, t.phase d = q at hmoves hd ⊢
    cases hmoves with
    | refuse | build _ | buildFails | accept | reject => exact hd.elim
    | countFails | fetchFails => cases hok
    | within | exceed => trivial
    | fetch | remove => exact CallPhase.added_evictingOrDone _
  · rwa [hsame]

/-- The keys that a call is to remove after a step that is not its fetch it was to remove before. -/
theorem Steps.evicting_of_evicting (h : Steps W s e t)
    (hfetch : ∀ c answered, e ≠ .getWaiting c answered) {oldest : List JsString}
    (hd : t.phase d = .evicting oldest) :
    ∃ oldest', s.phase d = .evicting oldest' ∧ oldest ⊆ oldest' := by
  rcases h.moves_or_eq d with ⟨-, counters, hmoves⟩ | hsame
  · generalize s.phase d = p, t.phase d = q at hmoves hd ⊢
    cases hmoves with
    -- only a fetch and a removal leave their call with keys to remove
    | refuse | build _ | buildFails | accept | reject | within | exceed | countFails
    | fetchFails => cases hd
    | fetch => exact absurd rfl (hfetch _ _)
    | @remove c oldest' id removed =>
      refine ⟨oldest', rfl, ?_⟩
      rw [← CallPhase.eq_of_evictingOrDone_eq hd]
      exact List.erase_subset
  · exact ⟨oldest, by rwa [hsame] at hd, List.Subset.refl _⟩

omit [DecidableEq ι] in
/-- The call that adds a record has the id of no earlier arrival. -/
theorem Newest.jobId_notMem (h : W.Newest queue hist s) (hinj : Function.Injective W.jobId)
    (hfresh : W.jobId c ∉ queue.keys) (hc : ¬ (s.phase c).Added) :
    W.jobId c ∉ W.history queue hist := by
  intro hmem
  rcases List.mem_append.mp hmem with hmem | hmem
  · exact hfresh hmem
  · obtain ⟨d, hd, hadded⟩ := h.arrived _ hmem
    rw [hinj hd] at hadded
    exact hc hadded

/-- An arrival keeps the newest retained, and what is doomed stays so. -/
theorem Newest.add (h : W.Newest queue hist s) (hinj : Function.Injective W.jobId)
    (hfresh : W.jobId c ∉ queue.keys) {record : DeadLetterRecord}
    (hc : s.phase c = .adding record) :
    W.Newest queue (hist ++ [.add c .accepted]) (W.answerAdd s c record .accepted) := by
  have hnotAdded : ¬ (s.phase c).Added := by
    rw [hc]
    exact id
  have hnew := h.jobId_notMem hinj hfresh hnotAdded
  have hqueue : W.jobId c ∉ s.queue.keys := fun hk => hnew (h.retains.sublist.subset hk)
  constructor
  · rw [history_concat_add]
    show Retains _ _ (s.queue.add (W.jobId c) record).keys
    rw [KeyedLog.keys_add_of_notMem hqueue]
    exact h.retains.add hnew
  · intro k hk
    rw [arrivals_concat_add, List.mem_append, List.mem_singleton] at hk
    rcases hk with hk | rfl
    · obtain ⟨d, hd, hadded⟩ := h.arrived k hk
      have hdc : d ≠ c := by
        rintro rfl
        exact hnotAdded hadded
      exact ⟨d, hd, by rwa [phase_answerAdd_of_ne hdc]⟩
    · exact ⟨c, rfl, by simp [answerAdd, CallPhase.Added]⟩
  · intro d oldest hd k hk
    have hdc : d ≠ c := by
      rintro rfl
      simp [answerAdd] at hd
    rw [phase_answerAdd_of_ne hdc] at hd
    obtain ⟨hmem, hnot⟩ := h.doomed d oldest hd k hk
    rw [history_concat_add]
    refine ⟨List.mem_append_left _ hmem, fun hnewest => ?_⟩
    rcases mem_rtake_concat hnewest with rfl | hnewest
    · exact hnew hmem
    · exact hnot hnewest

/-- The queue after a step that is not an add still retains the newest. -/
theorem Newest.retains_step (h : W.Newest queue hist s) (hstep : Steps W s e t)
    (hadd : ∀ c answer, e ≠ .add c answer) :
    Retains W.maxEntries (W.history queue hist) t.queue.keys := by
  rcases hstep.queue_cases with
    hqueue | ⟨c, answer, record, rfl, -⟩ | ⟨c, oldest, id, -, hp, hid, hqueue⟩
  · rw [hqueue]
    exact h.retains
  · exact absurd rfl (hadd c answer)
  · -- what is removed was doomed, so it is not among the newest
    rw [hqueue, KeyedLog.keys_remove]
    exact h.retains.remove (h.doomed c oldest hp id hid).2

/-- What calls have decided to remove after a step that is not an add is not among the newest. An
up-to-date fetch leaves at least as many later entries in the queue as the bound allows. -/
theorem Newest.doomed_step (h : W.Newest queue hist s) (hstep : Steps W s e t)
    (hfetch : UpToDate s e) {oldest : List JsString} (hd : t.phase d = .evicting oldest)
    {k : JsString} (hk : k ∈ oldest) :
    k ∈ W.history queue hist ∧ k ∉ (W.history queue hist).rtake W.maxEntries := by
  by_cases hcase : ∃ answered, e = .getWaiting d answered
  · obtain ⟨answered, rfl⟩ := hcase
    cases hstep with
    | @fetch c waiting hp =>
      change (W.answerFetch s d waiting).phase d = _ at hd
      rw [answerFetch, WriterState.phase_enter, Function.update_self] at hd
      have hold := CallPhase.eq_of_evictingOrDone_eq hd
      rw [← hold, KeyedLog.oldest] at hk
      refine ⟨h.retains.sublist.subset (List.mem_of_mem_take hk), ?_⟩
      by_cases hexcess : W.maxEntries ≤ waiting
      · -- the entries fetched are followed by as many as the bound allows
        have hsize : waiting ≤ s.queue.size := by simpa only [UpToDate, hp] using hfetch
        apply h.retains.notMem_newest_of_mem_oldest _ hk
        rw [KeyedLog.length_keys]
        omega
      · rw [Nat.sub_eq_zero_of_le (by omega), List.take_zero] at hk
        exact absurd hk List.not_mem_nil
    | @fetchFails c waiting hp =>
      change (W.fail s d).phase d = _ at hd
      simp at hd
  · by_cases hde : d = e.call
    · have hfetch' : ∀ c answered, e ≠ .getWaiting c answered := by
        rintro c answered rfl
        exact hcase ⟨answered, by rw [hde]; rfl⟩
      obtain ⟨oldest', hd', hsub⟩ := hstep.evicting_of_evicting hfetch' hd
      exact h.doomed d oldest' hd' k (hsub hk)
    · rw [hstep.phase_of_ne hde] at hd
      exact h.doomed d oldest hd k hk

/-- **What a step preserves** whose fetch is up to date. -/
theorem newest_step (hinj : Function.Injective W.jobId) (hfresh : ∀ c, W.jobId c ∉ queue.keys)
    (h : W.Newest queue hist s) (hstep : Steps W s e t) (hok : e.Succeeds)
    (hfetch : UpToDate s e) : W.Newest queue (hist ++ [e]) t := by
  by_cases hadd : ∃ c answer, e = .add c answer
  · obtain ⟨c, answer, rfl⟩ := hadd
    obtain rfl : answer = .accepted := hok
    cases hstep with
    | add hp => exact h.add hinj (hfresh c) hp
  · have hadd' : ∀ c answer, e ≠ .add c answer := by
      intro c answer he
      exact hadd ⟨c, answer, he⟩
    constructor
    · rw [history_concat_of_ne hadd']
      exact h.retains_step hstep hadd'
    · intro k hk
      rw [arrivals_concat_of_ne hadd'] at hk
      obtain ⟨c, hc, hadded⟩ := h.arrived k hk
      exact ⟨c, hc, hstep.added hok hadded⟩
    · intro d oldest hd k hk
      rw [history_concat_of_ne hadd']
      exact h.doomed_step hstep hfetch hd hk

/-- After every run whose fetches are up to date, the queue retains the newest records. -/
theorem newest_of_run (hinj : Function.Injective W.jobId) (hfresh : ∀ c, W.jobId c ∉ queue.keys)
    {es : List (WriterEvent ι)} (hrun : W.machine.run (.start queue) es = some s)
    (hok : ∀ e ∈ es, e.Succeeds)
    (hfetch : W.machine.StepsMeet (fun s e => UpToDate s e) (.start queue) es) :
    W.Newest queue es s := by
  have hG := (Machine.stepsMeet_of_forall (M := W.machine) (s := .start queue) hok).and hfetch
  have h := Machine.run_history (I := W.Newest queue)
    (fun hist s e t hI hG hstep =>
      newest_step hinj hfresh hI (steps_of_step hstep) hG.1 hG.2)
    (newest_start queue) hG hrun
  rwa [List.nil_append] at h

/-- **Eviction keeps the newest records as long as no fetch is stale.** In every run, from a queue
within the bound, of calls with distinct fresh ids, in which the queue answers without errors and
every fetch finds the queue at least as long as its call counted it, the newest records are always
held, and whenever no call is in flight the queue holds exactly these. -/
theorem keeps_newest (queue : KeyedLog JsString DeadLetterRecord)
    (hsize : queue.size ≤ W.maxEntries) (hinj : Function.Injective W.jobId)
    (hfresh : ∀ c, W.jobId c ∉ queue.keys) (es : List (WriterEvent ι))
    (hrun : W.machine.run (.start queue) es = some s) (hok : ∀ e ∈ es, e.Succeeds)
    (hfetch : W.machine.StepsMeet (fun s e => UpToDate s e) (.start queue) es) :
    (∀ k ∈ (W.history queue es).rtake W.maxEntries, k ∈ s.queue.keys) ∧
      (s.AtRest → s.queue.keys = (W.history queue es).rtake W.maxEntries) := by
  have hnewest := newest_of_run hinj hfresh hrun hok hfetch
  refine ⟨hnewest.retains.newest, fun hrest => hnewest.retains.eq_newest ?_⟩
  rw [KeyedLog.length_keys]
  by_cases hadded : ∃ c, (s.phase c).Added
  · exact (settling_of_run hrun hok hadded).size_le hrest
  · -- without arrivals the queue is a part of the one it started from
    have hnone : W.arrivals es = [] := by
      apply List.eq_nil_iff_forall_not_mem.mpr
      intro k hk
      obtain ⟨c, -, hc⟩ := hnewest.arrived k hk
      exact hadded ⟨c, hc⟩
    have hlen := hnewest.retains.sublist.length_le
    rw [history, hnone, List.append_nil, KeyedLog.length_keys, KeyedLog.length_keys] at hlen
    exact hlen.trans hsize

/-- Three calls with a bound of one record. -/
def threeWriters : Writers (Fin 3) :=
  ofIds (fun c => if c = 0 then "0" else if c = 1 then "1" else "2") 1

theorem threeWriters_injective : Function.Injective threeWriters.jobId := by
  have h : ∀ c d, threeWriters.jobId c = threeWriters.jobId d → c = d := by decide
  exact fun c d => h c d

/-- Two calls one after another: the second one evicts the record of the first. -/
theorem keeps_newest_two : ∃ s,
    threeWriters.machine.run (.start .empty)
      (quietCall 0 ++ quietCall 1 ++
        [.getWaiting 1 true, .remove 1 (js "dlq-email-0-1") true]) = some s ∧
      s.queue.keys = [js "dlq-email-1-1"] := by
  obtain ⟨s, hrun, hrest⟩ : ∃ s,
      threeWriters.machine.run (.start .empty)
        (quietCall 0 ++ quietCall 1 ++
          [.getWaiting 1 true, .remove 1 (js "dlq-email-0-1") true]) = some s ∧ s.AtRest := by
    refine ⟨_, rfl, fun c => ?_⟩
    match c with
    | 0 => exact id
    | 1 => exact id
    | 2 => exact id
  exact ⟨s, hrun, (keeps_newest .empty (by decide) threeWriters_injective (by decide) _ hrun
    (by decide) (by decide)).2 hrest⟩

/-- Two calls that count three records each, one after the other evict two: the second one fetches
from the queue the first one has left, and removes the newest record. -/
def staleFetches : List (WriterEvent (Fin 3)) :=
  quietCall 0 ++
    [.record 1 .epoch, .record 2 .epoch, .add 1 .accepted, .add 2 .accepted,
      .getWaitingCount 1 true, .getWaitingCount 2 true, .getWaiting 1 true,
      .remove 1 (js "dlq-email-0-1") true, .remove 1 (js "dlq-email-1-1") true,
      .getWaiting 2 true, .remove 2 (js "dlq-email-2-1") true]

/-- **Stale fetches lose the newest record**: at rest the queue is empty. -/
theorem staleFetches_lose_newest :
    ∃ s, threeWriters.machine.run (.start .empty) staleFetches = some s ∧
      (∀ e ∈ staleFetches, e.Succeeds) ∧ Function.Injective threeWriters.jobId ∧ s.AtRest ∧
      s.queue.keys = [] ∧
      (threeWriters.history .empty staleFetches).rtake threeWriters.maxEntries =
        [js "dlq-email-2-1"] := by
  refine ⟨_, rfl, by decide, threeWriters_injective, fun c => ?_, by decide, by decide⟩
  match c with
  | 0 => exact id
  | 1 => exact id
  | 2 => exact id

end Writers

end QueueWorkerKit
