import QueueWorkerKit.Worker.DeadLetter

/-!
# One dead-letter record per terminal failure

The id of a record is computed from the failure by flattening the job id, and an add under an id
already present is ignored. Without evictions the queue therefore holds exactly one record for
each failure when no two failures are flattened to the same id, and loses one otherwise.

## Main definitions

* `WriterEvent.KeepsRecords`: adds are accepted and nothing is evicted
* `Recorded`: every record is that of a call under its id, and every call has one under its id

## Main results

* `recorded_step`: what a step without evictions preserves
* `one_record_iff`: **when ids and records tell failures apart**
-/

namespace QueueWorkerKit

open Ecma EventDriven Retention

variable {ι : Type} {W : Writers ι} {s t : WriterState ι} {e : WriterEvent ι} {c d : ι}
  {hist : List (WriterEvent ι)}

/-- Adds are accepted, and nothing is evicted. -/
def WriterEvent.KeepsRecords : WriterEvent ι → Prop
  | add _ answer => answer = .accepted
  | remove _ _ _ => False
  | record _ _ | getWaitingCount _ _ | getWaiting _ _ => True

instance (e : WriterEvent ι) : Decidable e.KeepsRecords :=
  match e with
  | .add _ answer => inferInstanceAs (Decidable (answer = .accepted))
  | .remove _ _ _ => isFalse id
  | .record _ _ | .getWaitingCount _ _ | .getWaiting _ _ => isTrue trivial

namespace Writers

/-- The terminal failure that a call records. -/
def failure (W : Writers ι) (c : ι) : TerminalFailure := (W.input c).failure

/-- The queue holds exactly one record of the failure of a call. -/
def HasOneRecord (W : Writers ι) (s : WriterState ι) (c : ι) : Prop :=
  ∃! entry, entry ∈ s.queue.entries ∧ entry.2.failure = W.failure c

/-- What holds after a history of events that evicted nothing: records to be added are those of
their calls, every entry is the record of a call under its id, and the id of every call whose
record was added is present. -/
structure Recorded (W : Writers ι) (hist : List (WriterEvent ι)) (s : WriterState ι) : Prop where
  adding : ∀ c record, s.phase c = .adding record → record.failure = W.failure c
  entry : ∀ entry ∈ s.queue.entries, ∃ c, .add c .accepted ∈ hist ∧ entry.1 = W.jobId c ∧
    entry.2.failure = W.failure c
  present : ∀ c, .add c .accepted ∈ hist → W.jobId c ∈ s.queue.keys

theorem recorded_start : W.Recorded [] (.start .empty) where
  adding _ _ h := by cases h
  entry _ h := absurd h List.not_mem_nil
  present _ h := absurd h List.not_mem_nil

/-- An entry determines its key by its failure. -/
theorem Recorded.fst_eq (h : W.Recorded hist s) {entry : JsString × DeadLetterRecord}
    (hentry : entry ∈ s.queue.entries) : entry.1 = deadLetterJobId entry.2.failure := by
  obtain ⟨c, -, hkey, hfailure⟩ := h.entry entry hentry
  rw [hkey, hfailure]
  rfl

variable [DecidableEq ι]

/-- The record that a call waits to have added is that of its failure. -/
theorem Steps.failure_of_adding (h : Steps W s e t)
    (hs : ∀ c record, s.phase c = .adding record → record.failure = W.failure c)
    {record : DeadLetterRecord} (ht : t.phase c = .adding record) :
    record.failure = W.failure c := by
  rcases h.moves_or_eq c with ⟨rfl, counters, hmoves⟩ | hsame
  · generalize s.phase e.call = p, t.phase e.call = q at hmoves ht
    cases hmoves with
    | build hbuild =>
      obtain rfl := CallPhase.adding.inj ht
      exact failure_of_buildRecord hbuild
    | refuse | buildFails | accept | reject | within | exceed | countFails | fetchFails => cases ht
    | fetch | remove => exact absurd ht (CallPhase.evictingOrDone_ne_adding _ _)
  · rw [hsame] at ht
    exact hs c record ht

/-- A step that is not an add and evicts nothing leaves the queue as it is. -/
theorem Steps.queue_eq (h : Steps W s e t) (hkeep : e.KeepsRecords)
    (hadd : ∀ c answer, e ≠ .add c answer) : t.queue = s.queue := by
  rcases h.queue_cases with hqueue | ⟨c, answer, record, rfl, -⟩ | ⟨c, oldest, id, rfl, -, -, -⟩
  · exact hqueue
  · exact absurd rfl (hadd c answer)
  · exact hkeep.elim

/-- **What a step without evictions preserves.** -/
theorem recorded_step (h : W.Recorded hist s) (hstep : Steps W s e t) (hkeep : e.KeepsRecords) :
    W.Recorded (hist ++ [e]) t := by
  by_cases hadd : ∃ c answer, e = .add c answer
  · obtain ⟨c, answer, rfl⟩ := hadd
    obtain rfl : answer = .accepted := hkeep
    refine ⟨fun d record => hstep.failure_of_adding h.adding, ?_, ?_⟩
    · cases hstep with
      | @add _ record _ hphase =>
        intro entry hentry
        rcases KeyedLog.mem_entries_add.mp hentry with ⟨rfl, -⟩ | hentry
        · exact ⟨c, by simp, rfl, h.adding c record hphase⟩
        · obtain ⟨d, hd, hkey⟩ := h.entry entry hentry
          exact ⟨d, List.mem_append_left _ hd, hkey⟩
    · cases hstep with
      | @add _ record _ hphase =>
        intro d hd
        show W.jobId d ∈ (s.queue.add (W.jobId c) record).keys
        rw [KeyedLog.mem_keys_add]
        rcases List.mem_append.mp hd with hd | hd
        · exact Or.inr (h.present d hd)
        · cases List.mem_singleton.mp hd
          exact Or.inl rfl
  · have hadd' : ∀ c answer, e ≠ .add c answer := by
      intro c answer he
      exact hadd ⟨c, answer, he⟩
    have hqueue := hstep.queue_eq hkeep hadd'
    refine ⟨fun d record => hstep.failure_of_adding h.adding, fun entry hentry => ?_, fun d hd => ?_⟩
    · rw [hqueue] at hentry
      obtain ⟨d, hd, hkey⟩ := h.entry entry hentry
      exact ⟨d, List.mem_append_left _ hd, hkey⟩
    · rw [hqueue]
      rcases List.mem_append.mp hd with hd | hd
      · exact h.present d hd
      · exact absurd (List.mem_singleton.mp hd).symm (hadd' d .accepted)

theorem recorded_of_run {es : List (WriterEvent ι)}
    (hrun : W.machine.run (.start .empty) es = some s) (hkeep : ∀ e ∈ es, e.KeepsRecords) :
    W.Recorded es s := by
  have h := Machine.run_history (I := W.Recorded) (G := fun _ e => e.KeepsRecords)
    (fun hist s e t hI hkeep hstep => recorded_step hI (steps_of_step hstep) hkeep)
    recorded_start (Machine.stepsMeet_of_forall hkeep) hrun
  rwa [List.nil_append] at h

omit [DecidableEq ι] in
/-- The failure of a call has exactly one record when the record under its id is its own. -/
theorem Recorded.hasOneRecord_iff (h : W.Recorded hist s) (hc : .add c .accepted ∈ hist) :
    W.HasOneRecord s c ↔
      ∀ entry ∈ s.queue.entries, entry.1 = W.jobId c → entry.2.failure = W.failure c := by
  obtain ⟨own, hown, hkey⟩ := List.mem_map.mp (h.present c hc)
  constructor
  · rintro ⟨entry, ⟨hentry, hfailure⟩, -⟩ other hother hother_key
    have hentry_key : entry.1 = W.jobId c := by
      rw [h.fst_eq hentry, hfailure]
      rfl
    rw [KeyedLog.eq_of_fst_eq hother hentry (hother_key.trans hentry_key.symm), hfailure]
  · intro hall
    refine ⟨own, ⟨hown, hall own hown hkey⟩, ?_⟩
    rintro other ⟨hother, hfailure⟩
    apply KeyedLog.eq_of_fst_eq hother hown
    rw [h.fst_eq hother, h.fst_eq hown, hfailure, hall own hown hkey]

/-- **When ids and records tell failures apart.** The ids of two failures of consumed queues agree
exactly for equal components, when their flattened job ids tell them apart. After every run of
record calls, in any order and with any repetitions, in which adds are accepted and nothing is
evicted, the queue holds exactly one record for each failure exactly when the flattened job ids of
the recorded failures tell them apart. -/
theorem one_record_iff (hconsumed : ∀ c, (W.failure c).Consumed) (es : List (WriterEvent ι))
    (hrun : W.machine.run (.start .empty) es = some s) (hkeep : ∀ e ∈ es, e.KeepsRecords) :
    (∀ f g : TerminalFailure, f.Consumed → g.Consumed →
      ((deadLetterJobId f = deadLetterJobId g ↔ f = g) ↔ TokensDetermineIds f g)) ∧
    ((∀ c, .add c .accepted ∈ es → W.HasOneRecord s c) ↔
      ∀ c d, .add c .accepted ∈ es → .add d .accepted ∈ es →
        TokensDetermineIds (W.failure c) (W.failure d)) := by
  constructor
  · intro f g hf hg
    rw [← deadLetterJobId_inj hf hg]
    exact ⟨Iff.mp, fun h => ⟨h, congrArg deadLetterJobId⟩⟩
  have h := recorded_of_run hrun hkeep
  constructor
  · -- two calls with one id have one entry between them
    intro hone c d hc hd
    rw [← deadLetterJobId_inj (hconsumed c) (hconsumed d)]
    intro hid
    obtain ⟨entry, hentry, hkey⟩ := List.mem_map.mp (h.present c hc)
    have hfc := (h.hasOneRecord_iff hc).mp (hone c hc) entry hentry hkey
    have hfd := (h.hasOneRecord_iff hd).mp (hone d hd) entry hentry (hkey.trans hid)
    exact hfc.symm.trans hfd
  · intro hall c hc
    apply (h.hasOneRecord_iff hc).mpr
    intro entry hentry hkey
    obtain ⟨d, hd, hkey', hfailure⟩ := h.entry entry hentry
    rw [hfailure]
    exact (deadLetterJobId_inj (hconsumed d) (hconsumed c)).mpr (hall d c hd hc)
      (hkey'.symm.trans hkey)

/-- Two runs of a scheduler whose ids differ in digits have a record each. -/
theorem one_record_iff_scheduler : ∃ s,
    (ofIds (fun c : Bool => if c then "repeat:daily:0" else "repeat:daily:9") 5).machine.run
        (.start .empty) (quietCall true ++ quietCall false) = some s ∧
      ∀ c : Bool,
        (ofIds (fun c : Bool => if c then "repeat:daily:0" else "repeat:daily:9") 5).HasOneRecord
          s c := by
  obtain ⟨s, hrun⟩ : ∃ s,
      (ofIds (fun c : Bool => if c then "repeat:daily:0" else "repeat:daily:9") 5).machine.run
        (.start .empty) (quietCall true ++ quietCall false) = some s := ⟨_, rfl⟩
  have hdetermine : ∀ c d : Bool, TokensDetermineIds
      ((ofIds (fun c : Bool => if c then "repeat:daily:0" else "repeat:daily:9") 5).failure c)
      ((ofIds (fun c : Bool => if c then "repeat:daily:0" else "repeat:daily:9") 5).failure d) := by
    decide
  refine ⟨s, hrun, fun c => (one_record_iff (by decide) _ hrun (by decide)).2.mpr
    (fun c d _ _ => hdetermine c d) c ?_⟩
  cases c <;> simp [quietCall]

/-- Two schedulers whose ids differ in punctuation. -/
def punctuation : Writers Bool :=
  ofIds (fun c => if c then "repeat:daily:report:0" else "repeat:daily.report:0") 5

/-- **Ids that differ in punctuation collide**, and the second failure has no record. -/
theorem punctuation_collides :
    (∀ c, (punctuation.failure c).Consumed) ∧ punctuation.failure true ≠ punctuation.failure false ∧
      deadLetterJobId (punctuation.failure true) = deadLetterJobId (punctuation.failure false) ∧
      ∃ s, punctuation.machine.run (.start .empty) (quietCall true ++ quietCall false) = some s ∧
        ¬ punctuation.HasOneRecord s false := by
  refine ⟨by decide, by decide, by decide, ?_⟩
  obtain ⟨s, hrun, hfailures⟩ : ∃ s,
      punctuation.machine.run (.start .empty) (quietCall true ++ quietCall false) = some s ∧
        s.queue.entries.map (fun entry => entry.2.failure) = [punctuation.failure true] :=
    ⟨_, rfl, rfl⟩
  refine ⟨s, hrun, ?_⟩
  rintro ⟨entry, ⟨hentry, hfailure⟩, -⟩
  have hmem : entry.2.failure ∈ s.queue.entries.map fun entry => entry.2.failure :=
    List.mem_map_of_mem hentry
  rw [hfailures, hfailure, List.mem_singleton] at hmem
  exact absurd hmem (by decide)

end Writers

end QueueWorkerKit
