import QueueWorkerKit.Utils.Sleep

/-!
# Sleeps settle once

The timer of a sleep and its abort listener disarm each other. As long as a sleep waits its timer is
armed, and its listener is on the signal if it has one; whatever ends the sleep takes both along.
The listener settles the sleep only if the class test of the reason does not throw.

## Main definitions

* `Stands`, `Agrees`: the timer, the promise and the listener of a sleep by its race, and all sleeps
* `Bystanders`: the other listeners, as they would be without any sleep
* `Answered`: the reasons that have ended a sleep answer the class test

## Main results

* `agrees_step`, `bystanders_step`: what a step keeps
* `exists_fires`: letting the armed timers fire settles the sleeps that wait
* `settlesOnce_iff`: **which runs settle every sleep exactly once and leave nothing behind**
-/

namespace QueueWorkerKit

open Ecma EventDriven

namespace SleepState

variable {ι κ : Type*} [DecidableEq ι] [DecidableEq κ]

variable {h : Heap ErrorClass} {s t : SleepState ι κ} {i : ι} {signal : Bool} {ms : JsNumber}
  {reason : JsValue} {timer : SleepTimer} {e : SleepEvent ι κ} {es : List (SleepEvent ι κ)}
  {stage : SleepStage}

/-! ## Where a sleep stands -/

/-- The timer, the promise and the listener of a sleep, by where it stands. -/
inductive Stands (h : Heap ErrorClass) (s : SleepState ι κ) (i : ι) : SleepStage → Prop
  | uncalled (promise : s.sleeps.promise i = none) (timer : s.sleeps.timer i = none)
      (deaf : .onAbort i ∉ s.target.callbacks) : Stands h s i .uncalled
  | waiting (ms : JsNumber) (signal : Bool) (promise : s.sleeps.promise i = some [])
      (timer : s.sleeps.timer i = some ⟨ms, signal⟩)
      (listens : .onAbort i ∈ s.target.callbacks ↔ signal = true)
      (live : signal = true → s.reason = none) : Stands h s i (.waiting signal)
  | ended (finish : SleepFinish) (promise : s.sleeps.promise i = some (settlements h finish))
      (timer : s.sleeps.timer i = none) (deaf : .onAbort i ∉ s.target.callbacks) :
      Stands h s i (.ended finish)

section Standing

omit [DecidableEq ι] [DecidableEq κ]

/-- A sleep stands where it stood if nothing of it changes, and its signal is aborted only if it
does not wait with it. -/
theorem Stands.congr (hs : Stands h s i stage)
    (hpromise : t.sleeps.promise i = s.sleeps.promise i)
    (htimer : t.sleeps.timer i = s.sleeps.timer i)
    (hlistens : .onAbort i ∈ t.target.callbacks ↔ .onAbort i ∈ s.target.callbacks)
    (hreason : .onAbort i ∈ s.target.callbacks → t.reason = s.reason) : Stands h t i stage := by
  cases hs with
  | uncalled promise timer deaf =>
    exact .uncalled (hpromise.trans promise) (htimer.trans timer) (mt hlistens.mp deaf)
  | waiting ms signal promise timer listens live =>
    refine .waiting ms signal (hpromise.trans promise) (htimer.trans timer)
      (hlistens.trans listens) fun hsignal => ?_
    exact (hreason (listens.mpr hsignal)).trans (live hsignal)
  | ended finish promise timer deaf =>
    exact .ended finish (hpromise.trans promise) (htimer.trans timer) (mt hlistens.mp deaf)

/-- A sleep that was not called has no timer and no listener. -/
theorem Stands.of_fresh (hs : Stands h s i stage) (hfresh : s.sleeps.promise i = none) :
    stage = .uncalled ∧ s.sleeps.timer i = none ∧ .onAbort i ∉ s.target.callbacks := by
  cases hs with
  | uncalled promise timer deaf => exact ⟨rfl, timer, deaf⟩
  | waiting ms signal promise => cases hfresh.symm.trans promise
  | ended finish promise => cases hfresh.symm.trans promise

/-- A sleep whose timer is armed waits. -/
theorem Stands.of_armed (hs : Stands h s i stage) (harmed : s.sleeps.timer i = some timer) :
    stage = .waiting timer.signal ∧ s.sleeps.promise i = some [] ∧
      (.onAbort i ∈ s.target.callbacks ↔ timer.signal = true) := by
  cases hs with
  | uncalled promise timer' => cases harmed.symm.trans timer'
  | waiting ms signal promise timer' listens =>
    obtain rfl := Option.some.inj (harmed.symm.trans timer')
    exact ⟨rfl, promise, listens⟩
  | ended finish promise timer' => cases harmed.symm.trans timer'

/-- A sleep whose listener is on the signal waits with it. -/
theorem Stands.of_listens (hs : Stands h s i stage)
    (hlistens : .onAbort i ∈ s.target.callbacks) :
    stage = .waiting true ∧ s.sleeps.promise i = some [] := by
  cases hs with
  | uncalled promise timer deaf => exact absurd hlistens deaf
  | waiting ms signal promise timer listens =>
    rw [listens.mp hlistens]
    exact ⟨rfl, promise⟩
  | ended finish promise timer deaf => exact absurd hlistens deaf

/-- An abort leaves a sleep alone whose listener is not on the signal. -/
theorem Stands.interrupt_of_deaf (hs : Stands h s i stage)
    (hdeaf : .onAbort i ∉ s.target.callbacks) : stage.interrupt reason = stage := by
  cases hs with
  | uncalled => rfl
  | waiting ms signal promise timer listens =>
    cases signal with
    | false => rfl
    | true => exact absurd (listens.mpr rfl) hdeaf
  | ended => rfl

end Standing

/-- The state agrees with the race of every sleep: the signal has the reason of the races, each
sleep stands where its race is, and its listener is for one event. -/
structure Agrees (h : Heap ErrorClass) (es : List (SleepEvent ι κ)) (s : SleepState ι κ) :
    Prop where
  reason : ∀ i, (SleepRace.after i es).reason = s.reason
  stands : ∀ i, Stands h s i (SleepRace.after i es).stage
  once : ∀ l ∈ s.target.listeners, ∀ i, l.callback = .onAbort i → l.once = true

omit [DecidableEq κ] in
theorem agrees_start : Agrees h [] (start : SleepState ι κ) where
  reason _ := rfl
  stands _ := .uncalled rfl rfl List.not_mem_nil
  once _ hl := absurd hl List.not_mem_nil

omit [DecidableEq κ] in
/-- A step of one sleep: its race goes on, and the others stay where they are. -/
theorem Agrees.of_sleep (hs : Agrees h es s) (hreason : t.reason = s.reason)
    (hother : ∀ j, i ≠ j → (SleepRace.after j es).next j e = SleepRace.after j es ∧
      t.sleeps.promise j = s.sleeps.promise j ∧ t.sleeps.timer j = s.sleeps.timer j ∧
      (.onAbort j ∈ t.target.callbacks ↔ .onAbort j ∈ s.target.callbacks))
    (hself : (SleepRace.after i es).next i e = ⟨s.reason, stage⟩) (hstands : Stands h t i stage)
    (honce : ∀ l ∈ t.target.listeners, ∀ i, l.callback = .onAbort i → l.once = true) :
    Agrees h (es ++ [e]) t := by
  refine ⟨fun j => ?_, fun j => ?_, honce⟩
  · rw [SleepRace.after_concat, hreason]
    by_cases hij : i = j
    · rw [← hij, hself]
    · rw [(hother j hij).1, hs.reason j]
  · rw [SleepRace.after_concat]
    by_cases hij : i = j
    · rw [← hij, hself]
      exact hstands
    · obtain ⟨hrace, hpromise, htimer, hlistens⟩ := hother j hij
      rw [hrace]
      exact (hs.stands j).congr hpromise htimer hlistens fun _ => hreason

omit [DecidableEq κ] in
/-- A sleep that is refused. -/
theorem Agrees.refused (hs : Agrees h es s) (hfresh : s.sleeps.promise i = none)
    (hfound : s.found signal = some reason) : Agrees h (es ++ [.sleep i ms signal])
      { s with sleeps := (s.sleeps.create i).settle i (.rejected (refusal h reason)) } := by
  obtain ⟨-, htimer, hdeaf⟩ := (hs.stands i).of_fresh hfresh
  refine hs.of_sleep rfl (fun j hij => ⟨SleepRace.next_sleep_of_ne hij, ?_, rfl, Iff.rfl⟩) ?_
    (.ended (.refused reason) ?_ htimer hdeaf) hs.once
  · show ((s.sleeps.create i).settle i _).promise j = _
    rw [promise_settle, if_neg (Ne.symm hij), promise_create, if_neg (Ne.symm hij)]
  · rw [SleepRace.next_sleep_self, hs.reason i, called_of_found hfound]
  · show ((s.sleeps.create i).settle i _).promise i = _
    rw [promise_settle, if_pos rfl, promise_create, if_pos rfl]
    rfl

/-- A sleep that waits. -/
theorem Agrees.waits (hs : Agrees h es s) (hfresh : s.sleeps.promise i = none)
    (hfound : s.found signal = none) :
    Agrees h (es ++ [.sleep i ms signal]) (s.sleep h i ms signal) := by
  obtain ⟨-, htimer, hdeaf⟩ := (hs.stands i).of_fresh hfresh
  have hpromise : ∀ j, (s.sleep h i ms signal).sleeps.promise j =
      if j = i then some [] else s.sleeps.promise j := by
    intro j
    rw [sleeps_sleep hfound, promise_setTimeout, promise_create]
  have hclock : ∀ j, (s.sleep h i ms signal).sleeps.timer j =
      if j = i then some ⟨ms, signal⟩ else s.sleeps.timer j := by
    intro j
    rw [sleeps_sleep hfound, timer_setTimeout, timer_create]
  have hlistens : ∀ c, c ∈ (s.sleep h i ms signal).target.callbacks ↔
      (signal = true ∧ c = .onAbort i) ∨ c ∈ s.target.callbacks := by
    intro c
    rw [target_sleep hfound]
    cases signal with
    | false => simp
    | true => simp [EventTarget.mem_addEventListener]
  have hstands : Stands h (s.sleep h i ms signal) i (.waiting signal) := by
    refine .waiting ms signal ?_ ?_ ?_ ?_
    · rw [hpromise, if_pos rfl]
    · rw [hclock, if_pos rfl]
    · simp [hlistens, hdeaf]
    · rintro rfl
      rw [reason_sleep hfound]
      exact hfound
  refine hs.of_sleep (reason_sleep hfound)
    (fun j hij => ⟨SleepRace.next_sleep_of_ne hij, ?_, ?_, ?_⟩) ?_ hstands ?_
  · rw [hpromise, if_neg (Ne.symm hij)]
  · rw [hclock, if_neg (Ne.symm hij)]
  · simp [hlistens, Ne.symm hij]
  · rw [SleepRace.next_sleep_self, hs.reason i, called_of_not_found hfound]
  · intro l hl
    rw [target_sleep hfound] at hl
    cases signal with
    | false => exact hs.once l hl
    | true =>
      rcases EventTarget.listeners_addEventListener_subset hl with hl | rfl
      · exact hs.once l hl
      · exact fun _ _ => rfl

/-- A timer that fires takes the listener of its sleep along. -/
theorem Agrees.fires (hs : Agrees h es s) (harmed : s.sleeps.timer i = some timer) :
    Agrees h (es ++ [.timer i]) (s.fire i timer) := by
  obtain ⟨hstage, hwaiting, hlistens⟩ := (hs.stands i).of_armed harmed
  have hcallbacks : ∀ c, c ∈ (s.fire i timer).target.callbacks ↔
      (timer.signal = true → c ≠ .onAbort i) ∧ c ∈ s.target.callbacks := by
    intro c
    rw [target_fire]
    cases timer.signal with
    | false => simp
    | true => simp [EventTarget.mem_removeEventListener]
  have hstands : Stands h (s.fire i timer) i (.ended .timer) := by
    refine .ended .timer ?_ ?_ ?_
    · rw [promise_fire, if_pos rfl, hwaiting]
      rfl
    · rw [timer_fire, if_pos rfl]
    · rw [hcallbacks]
      rintro ⟨hremoved, hmem⟩
      exact hremoved (hlistens.mp hmem) rfl
  refine hs.of_sleep reason_fire
    (fun j hij => ⟨SleepRace.next_timer_of_ne hij, ?_, ?_, ?_⟩) ?_ hstands ?_
  · rw [promise_fire, if_neg (Ne.symm hij)]
  · rw [timer_fire, if_neg (Ne.symm hij)]
  · simp [hcallbacks, Ne.symm hij]
  · rw [SleepRace.next_timer_self, hs.reason i]
  · intro l hl
    rw [target_fire] at hl
    split_ifs at hl
    · exact hs.once l (EventTarget.listeners_keep_subset hl)
    · exact hs.once l hl

/-- **The abort** clears the timers of the sleeps that wait with the signal, and no listener of a
sleep lasts. -/
theorem Agrees.abort (hs : Agrees h es s) (hfresh : s.reason = none) :
    Agrees h (es ++ [.abort reason]) (s.abort h reason) := by
  have hdeaf : ∀ i, AbortCallback.onAbort i ∉ s.target.lasting.callbacks := fun i =>
    EventTarget.notMem_lasting fun l hl hcallback => hs.once l hl i hcallback
  rw [abort_of_fresh hfresh]
  refine ⟨fun i => ?_, fun i => ?_, fun l hl => hs.once l (EventTarget.listeners_keep_subset hl)⟩
  · rw [SleepRace.after_concat, SleepRace.next_abort_of_none ((hs.reason i).trans hfresh)]
  · rw [SleepRace.after_concat, SleepRace.next_abort_of_none ((hs.reason i).trans hfresh)]
    by_cases hlistens : AbortCallback.onAbort i ∈ s.target.callbacks
    · obtain ⟨hstage, hwaiting⟩ := (hs.stands i).of_listens hlistens
      rw [hstage]
      refine .ended (.interrupted reason) ?_ ?_ (hdeaf i)
      · show (s.target.callbacks.foldl _ s.sleeps).promise i = _
        rw [promise_foldl_notified s.target.nodup_callbacks, if_pos hlistens, hwaiting]
        rfl
      · show (s.target.callbacks.foldl _ s.sleeps).timer i = _
        rw [timer_foldl_notified, if_pos hlistens]
    · rw [(hs.stands i).interrupt_of_deaf hlistens]
      refine (hs.stands i).congr ?_ ?_ (iff_of_false (hdeaf i) hlistens)
        fun hmem => absurd hmem hlistens
      · show (s.target.callbacks.foldl _ s.sleeps).promise i = _
        rw [promise_foldl_notified s.target.nodup_callbacks, if_neg hlistens]
      · show (s.target.callbacks.foldl _ s.sleeps).timer i = _
        rw [timer_foldl_notified, if_neg hlistens]

omit [DecidableEq κ] in
/-- What leaves the sleeps and their listeners alone. -/
theorem Agrees.of_same (hs : Agrees h es s) (hrace : ∀ i, (SleepRace.after i es).next i e =
      SleepRace.after i es) (hreason : t.reason = s.reason) (hsleeps : t.sleeps = s.sleeps)
    (hlistens : ∀ i, .onAbort i ∈ t.target.callbacks ↔ .onAbort i ∈ s.target.callbacks)
    (honce : ∀ l ∈ t.target.listeners, ∀ i, l.callback = .onAbort i → l.once = true) :
    Agrees h (es ++ [e]) t := by
  refine ⟨fun i => ?_, fun i => ?_, honce⟩
  · rw [SleepRace.after_concat, hrace i, hs.reason i, hreason]
  · rw [SleepRace.after_concat, hrace i]
    exact (hs.stands i).congr (by rw [hsleeps]) (by rw [hsleeps]) (hlistens i) fun _ => hreason

theorem agrees_step (hs : Agrees h es s) (hstep : (machine h).step s e = some t) :
    Agrees h (es ++ [e]) t := by
  cases step_cases hstep with
  | refused i ms signal reason fresh found => exact hs.refused fresh found
  | waits i ms signal fresh found => exact hs.waits fresh found
  | fires i timer armed => exact hs.fires armed
  | abort reason fresh => exact hs.abort fresh
  | again reason aborted =>
    refine hs.of_same (fun i => ?_) rfl rfl (fun _ => Iff.rfl) hs.once
    exact SleepRace.next_abort_of_some (by rwa [hs.reason i])
  | listen k once =>
    refine hs.of_same (fun _ => rfl) rfl rfl (fun i => ?_) fun l hl => ?_
    · simp [addEventListener, EventTarget.mem_addEventListener]
    · rcases EventTarget.listeners_addEventListener_subset hl with hl | rfl
      · exact hs.once l hl
      · exact fun _ hcallback => absurd hcallback (by simp)
  | unlisten k =>
    refine hs.of_same (fun _ => rfl) rfl rfl (fun i => ?_) fun l hl => ?_
    · simp [removeEventListener, EventTarget.mem_removeEventListener]
    · exact hs.once l (EventTarget.listeners_keep_subset hl)

/-- **After every run** the state agrees with the races of the sleeps. -/
theorem agrees_run (hrun : (machine h).run (start : SleepState ι κ) es = some t) :
    Agrees h es t :=
  Machine.run_history (G := fun _ _ => True) (fun _ _ _ _ hs _ hstep => agrees_step hs hstep)
    agrees_start Machine.stepsMeet_true hrun

/-! ## The signal without sleeps -/

/-- The other listeners are those of a run of the signal alone. -/
def Bystanders (h : Heap ErrorClass) (es : List (SleepEvent ι κ)) (s : SleepState ι κ) : Prop :=
  ∃ u, (machine h).run start (es.filter SleepEvent.ofSignal) = some u ∧ u.reason = s.reason ∧
    u.target = s.target.only AbortCallback.isOther

/-- An event of a sleep leaves the other listeners alone. -/
theorem Bystanders.of_sleep (hs : Bystanders h es s) (he : e.ofSignal = false)
    (hreason : t.reason = s.reason)
    (htarget : t.target.only AbortCallback.isOther = s.target.only AbortCallback.isOther) :
    Bystanders h (es ++ [e]) t := by
  obtain ⟨u, hu, hureason, hutarget⟩ := hs
  refine ⟨u, ?_, hureason.trans hreason.symm, hutarget.trans htarget.symm⟩
  rw [List.filter_append, List.filter_singleton, he, cond_false, List.append_nil]
  exact hu

/-- An event of the signal goes as it would without sleeps. -/
theorem Bystanders.of_signal (hs : Bystanders h es s) (he : e.ofSignal = true)
    (hstep : ∀ u : SleepState ι κ, u.reason = s.reason →
      u.target = s.target.only AbortCallback.isOther → ∃ v, (machine h).step u e = some v ∧
        v.reason = t.reason ∧ v.target = t.target.only AbortCallback.isOther) :
    Bystanders h (es ++ [e]) t := by
  obtain ⟨u, hu, hureason, hutarget⟩ := hs
  obtain ⟨v, hv, hvreason, hvtarget⟩ := hstep u hureason hutarget
  refine ⟨v, ?_, hvreason, hvtarget⟩
  rw [List.filter_append, List.filter_singleton, he, cond_true]
  exact Machine.run_append.mpr ⟨u, hu, Machine.run_cons.mpr ⟨v, hv, rfl⟩⟩

theorem bystanders_step (hs : Bystanders h es s) (hstep : (machine h).step s e = some t) :
    Bystanders h (es ++ [e]) t := by
  cases step_cases hstep with
  | refused i ms signal reason fresh found => exact hs.of_sleep rfl rfl rfl
  | waits i ms signal fresh found =>
    refine hs.of_sleep rfl (reason_sleep found) ?_
    rw [target_sleep found]
    split_ifs
    · exact EventTarget.only_addEventListener_of_false rfl
    · rfl
  | fires i timer armed =>
    refine hs.of_sleep rfl reason_fire ?_
    rw [target_fire]
    split_ifs
    · exact EventTarget.only_removeEventListener_of_false rfl
    · rfl
  | abort reason fresh =>
    refine hs.of_signal rfl fun u hreason htarget => ⟨u.abort h reason, rfl, ?_⟩
    rw [abort_of_fresh fresh, abort_of_fresh (hreason.trans fresh)]
    exact ⟨rfl, by rw [htarget, EventTarget.only_lasting]⟩
  | again reason aborted =>
    refine hs.of_signal rfl fun u hreason htarget => ⟨u.abort h reason, rfl, ?_⟩
    rw [abort_of_aborted (by rwa [hreason])]
    exact ⟨hreason, htarget⟩
  | listen k once =>
    refine hs.of_signal rfl fun u hreason htarget => ⟨_, rfl, hreason, ?_⟩
    simp only [addEventListener, htarget]
    exact (EventTarget.only_addEventListener_of_true rfl).symm
  | unlisten k =>
    refine hs.of_signal rfl fun u hreason htarget => ⟨_, rfl, hreason, ?_⟩
    simp only [removeEventListener, htarget]
    exact EventTarget.only_removeEventListener.symm

theorem bystanders_run (hrun : (machine h).run (start : SleepState ι κ) es = some t) :
    Bystanders h es t := by
  have hstart : Bystanders h [] (start : SleepState ι κ) := ⟨start, rfl, rfl, rfl⟩
  exact Machine.run_history (G := fun _ _ => True)
    (fun _ _ _ _ hs _ hstep => bystanders_step hs hstep) hstart Machine.stepsMeet_true hrun

/-! ## Letting the timers fire -/

omit [DecidableEq κ] in
/-- A sleep that no event is about was not called. -/
theorem stage_of_notMem (hnot : i ∉ es.filterMap SleepEvent.sleeper) :
    (SleepRace.after i es).stage = .uncalled := by
  induction es using List.reverseRecOn with
  | nil => rfl
  | append_singleton es e ih =>
    rw [List.filterMap_append, List.mem_append, not_or] at hnot
    have hstage := ih hnot.1
    rw [SleepRace.after_concat]
    cases e with
    | sleep j ms signal =>
      have hji : j ≠ i := fun hji => hnot.2 (by simp [SleepEvent.sleeper, hji])
      rw [SleepRace.next_sleep_of_ne hji, hstage]
    | timer j =>
      have hji : j ≠ i := fun hji => hnot.2 (by simp [SleepEvent.sleeper, hji])
      rw [SleepRace.next_timer_of_ne hji, hstage]
    | abort reason =>
      by_cases hreason : (SleepRace.after i es).reason = none
      · rw [SleepRace.next_abort_of_none hreason, hstage]
        rfl
      · rw [SleepRace.next_abort_of_some hreason, hstage]
    | listen k once => exact hstage
    | unlisten k => exact hstage

/-- **The armed timers settle the sleeps that wait.** -/
theorem exists_fires (sleepers : List ι)
    (hs : ∀ i, s.sleeps.promise i = some [] → i ∈ sleepers ∧ s.sleeps.timer i ≠ none) :
    ∃ fires u, (∀ e ∈ fires, ∃ i, e = .timer i) ∧ (machine h).run s fires = some u ∧
      u.AllSettled := by
  -- Induction on the sleeps that may wait.
  induction sleepers generalizing s with
  | nil =>
    refine ⟨[], s, fun e he => absurd he List.not_mem_nil, rfl, fun i hi => ?_⟩
    exact absurd (hs i hi).1 List.not_mem_nil
  | cons i sleepers ih =>
    by_cases hi : s.sleeps.promise i = some []
    · obtain ⟨timer, htimer⟩ := Option.ne_none_iff_exists'.mp (hs i hi).2
      have hstep : (machine h).step s (.timer i) = some (s.fire i timer) := by
        simp only [machine, htimer, Option.map_some]
      have hfired : ∀ j, (s.fire i timer).sleeps.promise j = some [] →
          j ∈ sleepers ∧ (s.fire i timer).sleeps.timer j ≠ none := by
        intro j hj
        have hji : j ≠ i := by
          rintro rfl
          rw [promise_fire, if_pos rfl, hi] at hj
          cases hj
        rw [promise_fire, if_neg hji] at hj
        rw [timer_fire, if_neg hji]
        exact ⟨(List.mem_cons.mp (hs j hj).1).resolve_left hji, (hs j hj).2⟩
      obtain ⟨fires, u, hfires, hrun, hsettled⟩ := ih hfired
      refine ⟨.timer i :: fires, u, fun e he => ?_, Machine.run_cons.mpr ⟨_, hstep, hrun⟩, hsettled⟩
      rcases List.mem_cons.mp he with rfl | he
      · exact ⟨i, rfl⟩
      · exact hfires e he
    · refine ih fun j hj => ⟨(List.mem_cons.mp (hs j hj).1).resolve_left ?_, (hs j hj).2⟩
      rintro rfl
      exact hi hj

/-! ## Which runs settle every sleep once -/

/-- The reasons that have ended a sleep answer the class test. -/
def Answered (h : Heap ErrorClass) (es : List (SleepEvent ι κ)) : Prop :=
  ∀ i reason, (SleepRace.after i es).stage.endedBy = some reason → AnswersTest h reason

omit [DecidableEq κ] in
/-- An event of a sleep that no abort has ended. -/
theorem answered_of_sleep
    (hother : ∀ j, i ≠ j → (SleepRace.after j es).next j e = SleepRace.after j es)
    (hself : ((SleepRace.after i es).next i e).stage = stage)
    (hopen : (SleepRace.after i es).stage.endedBy = none) : Answered h (es ++ [e]) ↔
      Answered h es ∧ ∀ reason, stage.endedBy = some reason → AnswersTest h reason := by
  simp only [Answered, SleepRace.after_concat]
  constructor
  · refine fun hanswered => ⟨fun j reason hj => ?_, fun reason hreason => ?_⟩
    · by_cases hij : i = j
      · rw [← hij, hopen] at hj
        cases hj
      · exact hanswered j reason (by rwa [hother j hij])
    · exact hanswered i reason (by rwa [hself])
  · rintro ⟨hanswered, hnew⟩ j reason hj
    by_cases hij : i = j
    · rw [← hij, hself] at hj
      exact hnew reason hj
    · rw [hother j hij] at hj
      exact hanswered j reason hj

omit [DecidableEq κ] in
/-- An event that ends no sleep. -/
theorem answered_of_same (hrace : ∀ i, (SleepRace.after i es).next i e = SleepRace.after i es) :
    Answered h (es ++ [e]) ↔ Answered h es := by
  simp only [Answered, SleepRace.after_concat, hrace]

/-- The first abort ends the sleeps that wait with the signal. -/
theorem answered_abort (hs : Agrees h es s) (hfresh : s.reason = none) :
    Answered h (es ++ [.abort reason]) ↔ Answered h es ∧
      ((∃ i, AbortCallback.onAbort i ∈ s.target.callbacks) → AnswersTest h reason) := by
  have hnext : ∀ i, (SleepRace.after i es).next i (.abort reason : SleepEvent ι κ) =
      ⟨some reason, (SleepRace.after i es).stage.interrupt reason⟩ := fun i =>
    SleepRace.next_abort_of_none ((hs.reason i).trans hfresh)
  simp only [Answered, SleepRace.after_concat, hnext]
  constructor
  · refine fun hanswered => ⟨fun i first hi => hanswered i first ?_, ?_⟩
    · -- a sleep that has ended stays as it is
      cases hstage : (SleepRace.after i es).stage with
      | uncalled => rw [hstage] at hi; cases hi
      | waiting signal => rw [hstage] at hi; cases hi
      | ended finish => rwa [hstage] at hi
    · rintro ⟨i, hlistens⟩
      refine hanswered i reason ?_
      rw [((hs.stands i).of_listens hlistens).1]
      rfl
  · rintro ⟨hanswered, hnew⟩ i first hi
    by_cases hlistens : AbortCallback.onAbort i ∈ s.target.callbacks
    · rw [((hs.stands i).of_listens hlistens).1] at hi
      obtain rfl := Option.some.inj hi
      exact hnew ⟨i, hlistens⟩
    · rw [(hs.stands i).interrupt_of_deaf hlistens] at hi
      exact hanswered i first hi

/-- **The reasons stay answered** exactly if the step meets the condition. -/
theorem answered_step (hs : Agrees h es s) (hstep : (machine h).step s e = some t) :
    Answered h (es ++ [e]) ↔ Answered h es ∧ Answerable h s e := by
  cases step_cases hstep with
  | refused i ms signal reason fresh found =>
    obtain ⟨hstage, -⟩ := (hs.stands i).of_fresh fresh
    rw [answered_of_sleep (fun j hij => SleepRace.next_sleep_of_ne hij)
      (congrArg SleepRace.stage SleepRace.next_sleep_self) (by rw [hstage]; rfl),
      hs.reason i, called_of_found found]
    refine and_congr_right fun _ => forall_congr' fun first => ?_
    rw [found]
    exact Iff.rfl
  | waits i ms signal fresh found =>
    obtain ⟨hstage, -⟩ := (hs.stands i).of_fresh fresh
    rw [answered_of_sleep (fun j hij => SleepRace.next_sleep_of_ne hij)
      (congrArg SleepRace.stage SleepRace.next_sleep_self) (by rw [hstage]; rfl),
      hs.reason i, called_of_not_found found]
    refine and_congr_right fun _ => forall_congr' fun first => ?_
    rw [found]
    exact Iff.rfl
  | fires i timer armed =>
    obtain ⟨hstage, -⟩ := (hs.stands i).of_armed armed
    rw [answered_of_sleep (fun j hij => SleepRace.next_timer_of_ne hij)
      (congrArg SleepRace.stage SleepRace.next_timer_self) (by rw [hstage]; rfl)]
    exact and_congr_right fun _ => iff_of_true (fun _ hended => by cases hended) trivial
  | abort reason fresh =>
    rw [answered_abort hs fresh]
    exact and_congr_right fun _ => ⟨fun hmeets _ => hmeets, fun hmeets => hmeets fresh⟩
  | again reason aborted =>
    rw [answered_of_same fun i => SleepRace.next_abort_of_some (by rwa [hs.reason i])]
    exact (and_iff_left fun fresh => absurd fresh aborted).symm
  | listen k once =>
    rw [answered_of_same fun _ => rfl]
    exact (and_iff_left trivial).symm
  | unlisten k =>
    rw [answered_of_same fun _ => rfl]
    exact (and_iff_left trivial).symm

theorem answered_iff (hrun : (machine h).run (start : SleepState ι κ) es = some t) :
    Answered h es ↔ (machine h).StepsMeet (Answerable h) start es := by
  have hstart : Answered h ([] : List (SleepEvent ι κ)) := fun _ _ hended => by cases hended
  have hiff := Machine.history_iff (P := Answered h)
    (fun _ _ _ _ hs hstep => agrees_step hs hstep)
    (fun _ _ _ _ hs hstep => answered_step hs hstep) agrees_start hrun
  exact hiff.trans (and_iff_right hstart)

omit [DecidableEq κ] in
/-- A sleep is ended by a reason that its signal was aborted with. -/
theorem abort_mem : ((SleepRace.after i es).reason = some reason → .abort reason ∈ es) ∧
    ((SleepRace.after i es).stage.endedBy = some reason → .abort reason ∈ es) := by
  induction es using List.reverseRecOn with
  | nil => exact ⟨fun hreason => (by cases hreason), fun hended => (by cases hended)⟩
  | append_singleton es e ih =>
    obtain ⟨ihreason, ihended⟩ := ih
    simp only [SleepRace.after_concat, List.mem_append, List.mem_singleton]
    have hkept : ((SleepRace.after i es).reason = some reason →
          .abort reason ∈ es ∨ .abort reason = e) ∧
        ((SleepRace.after i es).stage.endedBy = some reason →
          .abort reason ∈ es ∨ .abort reason = e) :=
      ⟨fun hreason => Or.inl (ihreason hreason), fun hended => Or.inl (ihended hended)⟩
    cases e with
    | sleep j ms signal =>
      by_cases hji : j = i
      · subst hji
        rw [SleepRace.next_sleep_self]
        refine ⟨hkept.1, fun hended => Or.inl (ihreason ?_)⟩
        -- a sleep that is refused is ended by the reason of its signal
        cases hreason : (SleepRace.after j es).reason with
        | none => rw [hreason] at hended; cases hended
        | some first =>
          rw [hreason] at hended
          cases signal with
          | false => cases hended
          | true => exact hended
      · rw [SleepRace.next_sleep_of_ne hji]
        exact hkept
    | timer j =>
      by_cases hji : j = i
      · subst hji
        rw [SleepRace.next_timer_self]
        exact ⟨hkept.1, fun hended => by cases hended⟩
      · rw [SleepRace.next_timer_of_ne hji]
        exact hkept
    | abort first =>
      by_cases hfresh : (SleepRace.after i es).reason = none
      · rw [SleepRace.next_abort_of_none hfresh]
        refine ⟨fun hreason => Or.inr (by rw [Option.some.inj hreason]), fun hended => ?_⟩
        -- the abort ends a sleep that waits with the signal
        cases hstage : (SleepRace.after i es).stage with
        | uncalled => rw [hstage] at hended; cases hended
        | ended finish =>
          rw [hstage] at hended ihended
          exact Or.inl (ihended hended)
        | waiting signal =>
          rw [hstage] at hended
          cases signal with
          | false => cases hended
          | true => exact Or.inr (by rw [Option.some.inj hended])
      · rw [SleepRace.next_abort_of_some hfresh]
        exact hkept
    | listen k once => exact hkept
    | unlisten k => exact hkept

/-- It is enough that every reason the signal is aborted with answers the class test. -/
theorem answerable_of_answers (hrun : (machine h).run (start : SleepState ι κ) es = some t)
    (hanswers : ∀ reason, .abort reason ∈ es → AnswersTest h reason) :
    (machine h).StepsMeet (Answerable h) start es :=
  (answered_iff hrun).mp fun _ reason hended => hanswers reason (abort_mem.2 hended)

section Standing

omit [DecidableEq ι] [DecidableEq κ]

/-- Where the reasons answer the class test, a sleep that has not settled has its timer armed. -/
theorem Stands.waits_iff (hs : Stands h s i stage)
    (hanswers : ∀ reason, stage.endedBy = some reason → AnswersTest h reason) :
    s.sleeps.promise i = some [] ↔ s.sleeps.timer i ≠ none := by
  cases hs with
  | uncalled promise timer => simp [promise, timer]
  | waiting ms signal promise timer => simp [promise, timer]
  | ended finish promise timer =>
    refine iff_of_false (fun hpending => ?_) (not_not.mpr timer)
    have hsettles := settles_settlements hanswers
    rw [← promise, hpending] at hsettles
    cases finish with
    | timer => cases hsettles
    | interrupted reason =>
      obtain ⟨error, herror, -⟩ := hsettles
      cases herror
    | refused reason =>
      obtain ⟨error, herror, -⟩ := hsettles
      cases herror

theorem Stands.settles (hs : Stands h s i stage)
    (hanswers : ∀ reason, stage.endedBy = some reason → AnswersTest h reason) :
    stage.Settles h (s.sleeps.promise i) := by
  cases hs with
  | uncalled promise => exact promise
  | waiting ms signal promise => exact promise
  | ended finish promise =>
    rw [promise]
    exact settles_settlements hanswers

/-- Where all sleeps have settled, nothing of them is left. -/
theorem Stands.clean (hs : Stands h s i stage) (hsettled : s.sleeps.promise i ≠ some []) :
    s.sleeps.timer i = none ∧ .onAbort i ∉ s.target.callbacks := by
  cases hs with
  | uncalled promise timer deaf => exact ⟨timer, deaf⟩
  | waiting ms signal promise => exact absurd promise hsettled
  | ended finish promise timer deaf => exact ⟨timer, deaf⟩

end Standing

/-- **Which runs settle every sleep exactly once and leave nothing behind**: those in which every
reason of an abort that meets a sleep answers the class test. -/
theorem settlesOnce_iff (hrun : (machine h).run (start : SleepState ι κ) es = some t) :
    SettlesOnce h es t ↔ (machine h).StepsMeet (Answerable h) start es := by
  have hagrees := agrees_run hrun
  rw [← answered_iff hrun]
  constructor
  · intro honce i reason hended
    exact answersTest_of_settles (honce.settles i) hended
  · intro hanswered
    have hwaits : ∀ i, t.sleeps.promise i = some [] ↔ t.sleeps.timer i ≠ none := fun i =>
      (hagrees.stands i).waits_iff (hanswered i)
    refine ⟨fun i => (hagrees.stands i).settles (hanswered i), hwaits, ?_, fun hsettled => ?_⟩
    · refine exists_fires (es.filterMap SleepEvent.sleeper) fun i hi => ⟨?_, (hwaits i).mp hi⟩
      by_contra hnot
      have hstands := hagrees.stands i
      rw [stage_of_notMem hnot] at hstands
      cases hstands with
      | uncalled promise => cases hi.symm.trans promise
    · have hclean : ∀ i, t.sleeps.timer i = none ∧ .onAbort i ∉ t.target.callbacks := fun i =>
        (hagrees.stands i).clean (hsettled i)
      obtain ⟨u, hu, -, htarget⟩ := bystanders_run hrun
      refine ⟨fun i => (hclean i).1, u, hu, ?_⟩
      rw [htarget, EventTarget.only_eq_self]
      intro c hc
      cases c with
      | onAbort i => exact absurd hc (hclean i).2
      | other k => rfl

/-- A proxy that has been revoked: whatever looks at it throws. -/
def revokedProxy : JsObject ErrorClass where
  callable := false
  instanceOf _ := .error (.string (js "TypeError"))
  get _ := .error (.string (js "TypeError"))
  toText := .error (.string (js "TypeError"))
  toJson := .error (.string (js "TypeError"))

theorem settlesOnce_iff_overlapping : ∃ es t,
    (machine fun _ => revokedProxy).run (start : SleepState ℕ ℕ) es = some t ∧
      t.sleeps.promise 0 = some [.fulfilled ()] ∧
      t.sleeps.promise 1 = some [.rejected (.kit (.jobCancelled (js "job timeout")))] ∧
      SettlesOnce (fun _ => revokedProxy) es t := by
  obtain ⟨t, hrun, hfirst, hsecond⟩ : ∃ t, (machine fun _ => revokedProxy).run
      (start : SleepState ℕ ℕ) [.listen 0 false, .sleep 0 (.ofNat 5) true,
        .sleep 1 (.ofNat 1000) true, .timer 0, .abort (.string (js "job timeout"))] = some t ∧
      t.sleeps.promise 0 = some [.fulfilled ()] ∧
      t.sleeps.promise 1 = some [.rejected (.kit (.jobCancelled (js "job timeout")))] :=
    ⟨_, rfl, rfl, rfl⟩
  refine ⟨_, t, hrun, hfirst, hsecond, (settlesOnce_iff hrun).mpr ?_⟩
  refine answerable_of_answers hrun fun reason hreason => ?_
  -- the only reason is a text, which is an instance of nothing
  obtain rfl : reason = .string (js "job timeout") := by simpa using hreason
  exact ⟨false, rfl⟩

/-- **A reason whose class test throws leaves the sleep it interrupts pending**, with no timer to
settle it. -/
theorem revoked_reason_never_settles : ∃ t,
    (machine fun _ => revokedProxy).run (start : SleepState ℕ ℕ)
        [.sleep 0 (.ofNat 1000) true, .abort (.object 0)] = some t ∧
      t.sleeps.promise 0 = some [] ∧ t.sleeps.timer 0 = none ∧
      ¬ SettlesOnce (fun _ => revokedProxy)
        [.sleep 0 (.ofNat 1000) true, .abort (.object 0)] t := by
  obtain ⟨t, hrun, hpending, htimer⟩ : ∃ t, (machine fun _ => revokedProxy).run
      (start : SleepState ℕ ℕ) [.sleep 0 (.ofNat 1000) true, .abort (.object 0)] = some t ∧
      t.sleeps.promise 0 = some [] ∧ t.sleeps.timer 0 = none := ⟨_, rfl, rfl, rfl⟩
  refine ⟨t, hrun, hpending, htimer, fun honce => ?_⟩
  obtain ⟨error, hrejected, -⟩ := honce.settles 0
  rw [hpending] at hrejected
  cases hrejected

end SleepState

end QueueWorkerKit
