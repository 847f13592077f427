import QueueWorkerKit.Queue.Scheduler
import QueueWorkerKit.Library.Machine
import Mathlib.Data.List.Nodup

/-!
# Schedules upserted by many replicas

Every worker replica runs `upsertSchedules` when it boots, on the same list of schedules, and may
stop anywhere in it. An upsert sets the entry under its queue and id in one step. The upserts of the
runs interleave in any way, over whatever an older deployment has left behind.

## Main definitions

* `SchedulerTable`, `ScheduleSpec.key`: the stored entries by queue and id, and the key of a
  schedule
* `Replicas`, `UpsertState`, `UpsertEvent`: the list and the replicas, and their interleaved runs
* `Converged`: the table has one entry for each schedule, and is otherwise as it was

## Main results

* `convergesInv_step`: what one upsert, failure or crash preserves
* `schedules_converge`: **one complete run is enough for the table to converge**
-/

namespace QueueWorkerKit

open Ecma EventDriven

/-- The stored entries, by the name of their queue and their id. -/
abbrev SchedulerTable := JsString × JsString → Option JobScheduler

/-- Where the entry of a schedule is stored. -/
def ScheduleSpec.key (spec : ScheduleSpec) : JsString × JsString := (spec.queue, spec.id)

/-- The entry of a schedule is stored, with its pattern, its time zone and its job. -/
def Scheduled (table : SchedulerTable) (spec : ScheduleSpec) : Prop :=
  ∃ entry, table spec.key = some entry ∧ entry.pattern = spec.pattern ∧ entry.tz = spec.tz ∧
    entry.name = spec.jobName

/-- The schedules that every replica upserts, and the queues that each has registered. -/
structure Replicas (ρ : Type*) where
  specs : List ScheduleSpec
  queues : ρ → List QueueName

/-- The stored entries, the schedules that each running replica has yet to upsert, and the replicas
whose runs came to their end. -/
structure UpsertState (ρ : Type*) where
  table : SchedulerTable
  running : ρ → Option (List ScheduleSpec)
  completed : List ρ

/-- A replica calls `upsertSchedules`; it goes through the body of the loop, with what
`buildPayload` returns there; its upsert is stored but the answer is lost; it crashes. -/
inductive UpsertEvent (ρ : Type*)
  | call (r : ρ)
  | iterate (r : ρ) (payload : Except Thrown (Option Json)) (context : UpsertContext)
  | lost (r : ρ) (payload : Except Thrown (Option Json)) (now : TimeValue)
  | crash (r : ρ)

namespace UpsertState

variable {ρ : Type*} [DecidableEq ρ]

def start (table : SchedulerTable) : UpsertState ρ := ⟨table, fun _ => none, []⟩

/-- `upsertJobScheduler` sets the entry under its queue and id. -/
def store (s : UpsertState ρ) (entry : JobScheduler) : UpsertState ρ :=
  { s with table := Function.update s.table (entry.queue.text, entry.id) (some entry) }

/-- The run of a replica ends early. -/
def stop (s : UpsertState ρ) (r : ρ) : UpsertState ρ :=
  { s with running := Function.update s.running r none }

/-- The run of a replica goes on with the schedules that are left, and is complete when none is. -/
def advance (s : UpsertState ρ) (r : ρ) : List ScheduleSpec → UpsertState ρ
  | [] => { s.stop r with completed := s.completed ++ [r] }
  | spec :: rest => { s with running := Function.update s.running r (some (spec :: rest)) }

variable {s : UpsertState ρ} {r r' : ρ} {spec : ScheduleSpec} {rest : List ScheduleSpec}
  {entry : JobScheduler}

theorem running_stop_self : (s.stop r).running r = none := Function.update_self ..

theorem running_stop_of_ne (h : r' ≠ r) : (s.stop r).running r' = s.running r' :=
  Function.update_of_ne h ..

theorem running_advance_self : (s.advance r (spec :: rest)).running r = some (spec :: rest) :=
  Function.update_self ..

theorem running_advance_of_ne (h : r' ≠ r) : (s.advance r (spec :: rest)).running r' = s.running r' :=
  Function.update_of_ne h ..

omit [DecidableEq ρ] in
theorem table_store : (s.store entry).table =
    Function.update s.table (entry.queue.text, entry.id) (some entry) := rfl

end UpsertState

namespace Replicas

variable {ρ : Type*} [DecidableEq ρ] (W : Replicas ρ)

/-- The interleaved runs of the replicas. -/
def machine : Machine (UpsertState ρ) (UpsertEvent ρ) where
  step s
    | .call r =>
      match s.running r with
      | none => some (s.advance r W.specs)
      | some _ => none
    | .iterate r payload context =>
      match s.running r with
      | some (spec :: rest) =>
        match upsertSchedule (W.queues r) { spec with buildPayload := payload } context with
        | .ok entry => some ((s.store entry).advance r rest)
        | .error _ => some (s.stop r)
      | _ => none
    | .lost r payload now =>
      match s.running r with
      | some (spec :: _) =>
        match upsertSchedule (W.queues r) { spec with buildPayload := payload } ⟨now, none⟩ with
        | .ok entry => some ((s.store entry).stop r)
        | .error _ => none
      | _ => none
    | .crash r =>
      match s.running r with
      | some _ => some (s.stop r)
      | none => none

/-- No two schedules have the same queue and id. -/
def Distinct : Prop := (W.specs.map ScheduleSpec.key).Nodup

/-- Every schedule has its entry, and every other entry is as it was. -/
structure Converged (initial table : SchedulerTable) : Prop where
  scheduled : ∀ spec ∈ W.specs, Scheduled table spec
  unchanged : ∀ key, key ∉ W.specs.map ScheduleSpec.key → table key = initial key

variable {W} {s t : UpsertState ρ} {e : UpsertEvent ρ} {es : List (UpsertEvent ρ)}

/-- What each event does where it can happen. -/
inductive Step (W : Replicas ρ) (s : UpsertState ρ) : UpsertEvent ρ → UpsertState ρ → Prop
  | call (r : ρ) (idle : s.running r = none) : Step W s (.call r) (s.advance r W.specs)
  | upsert (r : ρ) (payload : Except Thrown (Option Json)) (context : UpsertContext)
      (spec : ScheduleSpec) (rest : List ScheduleSpec) (entry : JobScheduler)
      (running : s.running r = some (spec :: rest))
      (ok : upsertSchedule (W.queues r) { spec with buildPayload := payload } context = .ok entry) :
      Step W s (.iterate r payload context) ((s.store entry).advance r rest)
  | failed (r : ρ) (payload : Except Thrown (Option Json)) (context : UpsertContext) :
      Step W s (.iterate r payload context) (s.stop r)
  | lost (r : ρ) (payload : Except Thrown (Option Json)) (now : TimeValue) (spec : ScheduleSpec)
      (rest : List ScheduleSpec) (entry : JobScheduler)
      (running : s.running r = some (spec :: rest))
      (ok : upsertSchedule (W.queues r) { spec with buildPayload := payload } ⟨now, none⟩ =
        .ok entry) :
      Step W s (.lost r payload now) ((s.store entry).stop r)
  | crash (r : ρ) : Step W s (.crash r) (s.stop r)

/-- **What a step does**: one case for each way an iteration ends. -/
theorem step_cases (hstep : W.machine.step s e = some t) : Step W s e t := by
  cases e with
  | call r =>
    simp only [machine] at hstep
    split at hstep
    · next hidle =>
      obtain rfl := Option.some.inj hstep
      exact .call r hidle
    · cases hstep
  | iterate r payload context =>
    simp only [machine] at hstep
    split at hstep
    · next spec rest hrunning =>
      split at hstep
      · next entry hok =>
        obtain rfl := Option.some.inj hstep
        exact .upsert r payload context spec rest entry hrunning hok
      · obtain rfl := Option.some.inj hstep
        exact .failed r payload context
    · cases hstep
  | lost r payload now =>
    simp only [machine] at hstep
    split at hstep
    · next spec rest hrunning =>
      split at hstep
      · next entry hok =>
        obtain rfl := Option.some.inj hstep
        exact .lost r payload now spec rest entry hrunning hok
      · cases hstep
    · cases hstep
  | crash r =>
    simp only [machine] at hstep
    split at hstep
    · obtain rfl := Option.some.inj hstep
      exact .crash r
    · cases hstep

/-! ## What the replicas have stored -/

/-- What has been stored is the entry of a schedule, whatever a replica has got through is stored,
and a run that came to its end has got through the list. -/
structure ConvergesInv (W : Replicas ρ) (initial : SchedulerTable) (s : UpsertState ρ) : Prop where
  unchanged : ∀ key, key ∉ W.specs.map ScheduleSpec.key → s.table key = initial key
  suffix : ∀ r rest, s.running r = some rest →
    ∃ before, W.specs = before ++ rest ∧ ∀ spec ∈ before, Scheduled s.table spec
  completed : s.completed ≠ [] → ∀ spec ∈ W.specs, Scheduled s.table spec

variable {initial : SchedulerTable} {r : ρ} {spec : ScheduleSpec} {rest : List ScheduleSpec}
  {entry : JobScheduler}

omit [DecidableEq ρ] in
theorem convergesInv_start : ConvergesInv W initial (UpsertState.start initial : UpsertState ρ) where
  unchanged _ _ := rfl
  suffix _ _ hrunning := by cases hrunning
  completed hne := absurd rfl hne

theorem ConvergesInv.stop (h : ConvergesInv W initial s) : ConvergesInv W initial (s.stop r) where
  unchanged := h.unchanged
  suffix r' rest' hrunning := by
    by_cases hr : r' = r
    · subst hr
      cases UpsertState.running_stop_self.symm.trans hrunning
    · rw [UpsertState.running_stop_of_ne hr] at hrunning
      exact h.suffix r' rest' hrunning
  completed := h.completed

/-- A run goes on with the rest of the list once what is before it is stored. -/
theorem ConvergesInv.advance (h : ConvergesInv W initial s) {before : List ScheduleSpec}
    (hspecs : W.specs = before ++ rest) (hbefore : ∀ spec ∈ before, Scheduled s.table spec) :
    ConvergesInv W initial (s.advance r rest) := by
  cases rest with
  | nil =>
    refine ⟨h.unchanged, h.stop.suffix, fun _ spec hspec => hbefore spec ?_⟩
    rwa [hspecs, List.append_nil] at hspec
  | cons spec rest =>
    refine ⟨h.unchanged, fun r' rest' hrunning => ?_, h.completed⟩
    by_cases hr : r' = r
    · subst hr
      obtain rfl := Option.some.inj (UpsertState.running_advance_self.symm.trans hrunning)
      exact ⟨before, hspecs, hbefore⟩
    · rw [UpsertState.running_advance_of_ne hr] at hrunning
      exact h.suffix r' rest' hrunning

/-- What an upsert stores is the entry of its schedule. -/
theorem entry_of_upsert {queues : List QueueName} {payload : Except Thrown (Option Json)}
    {context : UpsertContext}
    (hok : upsertSchedule queues { spec with buildPayload := payload } context = .ok entry) :
    (entry.queue.text, entry.id) = spec.key ∧ entry.pattern = spec.pattern ∧ entry.tz = spec.tz ∧
      entry.name = spec.jobName := by
  obtain ⟨queue, json, hqueue, -, rfl⟩ := upsertSchedule_ok hok
  refine ⟨?_, rfl, rfl, rfl⟩
  show (queue.text, spec.id) = (spec.queue, spec.id)
  rw [hqueue]

omit [DecidableEq ρ] in
/-- **An upsert sets the entry of its schedule and leaves the others alone.** -/
theorem scheduled_store (hdistinct : W.Distinct) (hspec : spec ∈ W.specs)
    (hkey : (entry.queue.text, entry.id) = spec.key) (hpattern : entry.pattern = spec.pattern)
    (htz : entry.tz = spec.tz) (hname : entry.name = spec.jobName) {other : ScheduleSpec}
    (hother : other ∈ W.specs) (h : other = spec ∨ Scheduled s.table other) :
    Scheduled (s.store entry).table other := by
  rw [Scheduled, UpsertState.table_store, hkey]
  by_cases heq : other.key = spec.key
  · -- the keys are distinct, so the entry is that of the same schedule
    obtain rfl := List.inj_on_of_nodup_map hdistinct hother hspec heq
    exact ⟨entry, by simp, hpattern, htz, hname⟩
  · rw [Function.update_of_ne heq]
    refine h.resolve_left ?_
    rintro rfl
    exact heq rfl

omit [DecidableEq ρ] in
/-- Storing the entry of a schedule. -/
theorem ConvergesInv.store (h : ConvergesInv W initial s) (hdistinct : W.Distinct)
    (hspec : spec ∈ W.specs) (hkey : (entry.queue.text, entry.id) = spec.key)
    (hpattern : entry.pattern = spec.pattern) (htz : entry.tz = spec.tz)
    (hname : entry.name = spec.jobName) : ConvergesInv W initial (s.store entry) where
  unchanged key hnot := by
    have hne : key ≠ spec.key := by
      rintro rfl
      exact hnot (List.mem_map_of_mem hspec)
    rw [UpsertState.table_store, hkey, Function.update_of_ne hne]
    exact h.unchanged key hnot
  suffix r rest hrunning := by
    obtain ⟨before, hspecs, hbefore⟩ := h.suffix r rest hrunning
    refine ⟨before, hspecs, fun other hother => ?_⟩
    exact scheduled_store hdistinct hspec hkey hpattern htz hname
      (hspecs ▸ List.mem_append_left rest hother) (Or.inr (hbefore other hother))
  completed hne other hother :=
    scheduled_store hdistinct hspec hkey hpattern htz hname hother
      (Or.inr (h.completed hne other hother))

/-- **What each event preserves**: an upsert, a failure or a crash of any replica. -/
theorem convergesInv_step (hdistinct : W.Distinct) (h : ConvergesInv W initial s)
    (hstep : W.machine.step s e = some t) : ConvergesInv W initial t := by
  cases step_cases hstep with
  | call r hidle =>
    exact h.advance (List.nil_append _).symm fun spec hspec => absurd hspec List.not_mem_nil
  | upsert r payload context spec rest entry hrunning hok =>
    obtain ⟨before, hspecs, hbefore⟩ := h.suffix r _ hrunning
    have hmem : spec ∈ W.specs := hspecs ▸ List.mem_append_right before (List.mem_cons_self ..)
    obtain ⟨hkey, hpattern, htz, hname⟩ := entry_of_upsert hok
    have hstored := h.store hdistinct hmem hkey hpattern htz hname
    have hspecs' : W.specs = (before ++ [spec]) ++ rest := by simp [hspecs]
    apply hstored.advance hspecs'
    -- the schedules before the one that was upserted were stored, and it is now
    intro other hother
    have hmem' : other ∈ W.specs := hspecs' ▸ List.mem_append_left rest hother
    apply scheduled_store hdistinct hmem hkey hpattern htz hname hmem'
    rcases List.mem_append.mp hother with hother | hother
    · exact Or.inr (hbefore other hother)
    · exact Or.inl (List.mem_singleton.mp hother)
  | failed r => exact h.stop
  | lost r payload now spec rest entry hrunning hok =>
    obtain ⟨before, hspecs, -⟩ := h.suffix r _ hrunning
    have hmem : spec ∈ W.specs := hspecs ▸ List.mem_append_right before (List.mem_cons_self ..)
    obtain ⟨hkey, hpattern, htz, hname⟩ := entry_of_upsert hok
    exact (h.store hdistinct hmem hkey hpattern htz hname).stop
  | crash r => exact h.stop

/-- **One complete run is enough for the table to converge.** After any interleaving of any number
of runs, each of which may stop anywhere, once one of them has come to its end the table has the
entry of every schedule, and every other entry is as it was. -/
theorem schedules_converge (hdistinct : W.Distinct)
    (hrun : W.machine.run (UpsertState.start initial) es = some t) (hcompleted : t.completed ≠ []) :
    W.Converged initial t.table := by
  have hinv : ConvergesInv W initial t :=
    Machine.run_invariant (G := fun _ _ => True) (I := ConvergesInv W initial)
      (fun s e t h _ hstep => convergesInv_step hdistinct h hstep) convergesInv_start
      Machine.stepsMeet_true hrun
  exact ⟨hinv.completed hcompleted, hinv.unchanged⟩

end Replicas

theorem plainContext_now_nonneg : 0 ≤ plainContext.now.ms := by decide

/-- A report every morning, next to the default schedule. -/
def morningReport : ScheduleSpec where
  id := js "morning-report"
  queue := QueueName.reports.text
  jobName := js "report.generate"
  pattern := js "0 6 * * *"
  tz := some (js "Europe/Zurich")
  buildPayload := .ok (some .null)

/-- Two replicas of the kit, with two schedules. -/
def twoReplicas : Replicas Bool where
  specs := buildDefaultSchedules (js "0 * * * *") plainContext.now plainContext_now_nonneg ++
    [morningReport]
  queues _ := allQueueNames

/-- What an older deployment has stored: the clean-up every two hours, and a schedule that is no
longer there. -/
def olderTable : SchedulerTable :=
  Function.update
    (Function.update (fun _ => none) (QueueName.maintenance.text, maintenanceSchedulerId)
      (some ⟨.maintenance, maintenanceSchedulerId, js "0 */2 * * *", none,
        js "maintenance.cleanup", .undefined, .empty⟩))
    (QueueName.email.text, js "digest")
    (some ⟨.email, js "digest", js "0 7 * * *", none, js "email.send", .undefined, .empty⟩)

/-- The upserts of two replicas interleave. One loses the answer to its second and crashes in a run
that it starts again, while the other comes to the end of its run. -/
theorem schedules_converge_crash : ∃ t,
    twoReplicas.machine.run (UpsertState.start olderTable)
        [.call true, .call false, .iterate true (.ok (some .null)) plainUpsertContext,
          .iterate false (.ok (some .null)) plainUpsertContext,
          .lost true (.ok (some .null)) plainContext.now,
          .iterate false (.ok (some .null)) plainUpsertContext, .call true, .crash true] = some t ∧
      twoReplicas.Converged olderTable t.table := by
  obtain ⟨t, hrun, hcompleted⟩ : ∃ t, twoReplicas.machine.run (UpsertState.start olderTable)
      [.call true, .call false, .iterate true (.ok (some .null)) plainUpsertContext,
        .iterate false (.ok (some .null)) plainUpsertContext,
        .lost true (.ok (some .null)) plainContext.now,
        .iterate false (.ok (some .null)) plainUpsertContext, .call true, .crash true] = some t ∧
      t.completed = [false] := ⟨_, rfl, rfl⟩
  have hdistinct : twoReplicas.Distinct := by
    show [(QueueName.maintenance.text, maintenanceSchedulerId),
      (QueueName.reports.text, js "morning-report")].Nodup
    decide
  refine ⟨t, hrun, Replicas.schedules_converge hdistinct hrun ?_⟩
  rw [hcompleted]
  exact List.cons_ne_nil _ _

end QueueWorkerKit
