import Mathlib.Data.List.Induction
import QueueWorkerKit.Config.Defaults
import QueueWorkerKit.Library.Machine

/-!
# The queue depth gauge under overlapping scrapes

The `collect` hook of `observability/metrics.ts` with the collector of `api/server.ts`. A scrape
resets the one gauge, asks every queue for its counts, sets a sample for each state as the answers
come, and reads what the gauge holds once all of them are there. Scrapes overlap in any way.

## Main definitions

* `ScrapePhase`, `Gauge`: where a scrape stands, and the gauge with its scrapes
* `Gauge.machine`: the runs of scrapes
* `Gauge.Complete`, `Undisturbed`: an exposition with every sample its scrape reported, and a
  schedule that loses none

## Main results

* `gauge_of_run`: the gauge holds what was set since the last reset
* `complete_iff`: **which schedules of scrapes lose no sample**
-/

namespace QueueWorkerKit

open Ecma EventDriven

/-- The labels of a sample: a queue and a state of jobs. -/
abbrev DepthLabels := QueueName × JsString

/-- A scrape that has not begun, that waits for the counts of some queues and has reported some
labels, or that has returned an exposition. -/
inductive ScrapePhase
  | idle
  | collecting (pending : List QueueName) (reported : List DepthLabels)
  | done (reported : List DepthLabels) (exposition : DepthLabels → Option ℕ)

/-- The stored values of the gauge, and the scrapes. -/
structure Gauge (ι : Type*) where
  values : DepthLabels → Option ℕ
  phase : ι → ScrapePhase

/-- A scrape begins, one of its queues answers with counts by state or fails to, or it reads the
gauge. -/
inductive ScrapeEvent (ι : Type*)
  | begin (i : ι)
  | counted (i : ι) (queue : QueueName) (counts : List (JsString × ℕ))
  | uncounted (i : ι) (queue : QueueName)
  | read (i : ι)

namespace Gauge

variable {ι : Type*} [DecidableEq ι]

def start : Gauge ι := ⟨fun _ => none, fun _ => .idle⟩

/-- The samples of a queue's counts, set one after another. -/
def report (values : DepthLabels → Option ℕ) (queue : QueueName) (counts : List (JsString × ℕ)) :
    DepthLabels → Option ℕ :=
  counts.foldl (fun values c => Function.update values (queue, c.1) (some c.2)) values

/-- The runs of overlapping scrapes. -/
def machine : Machine (Gauge ι) (ScrapeEvent ι) where
  step s
    | .begin i =>
      match s.phase i with
      | .idle =>
        some ⟨fun _ => none, Function.update s.phase i (.collecting allQueueNames [])⟩
      | _ => none
    | .counted i queue counts =>
      match s.phase i with
      | .collecting pending reported =>
        if queue ∈ pending then
          some ⟨report s.values queue counts, Function.update s.phase i
            (.collecting (pending.erase queue) (reported ++ counts.map fun c => (queue, c.1)))⟩
        else none
      | _ => none
    | .uncounted i queue =>
      match s.phase i with
      | .collecting pending reported =>
        -- the failure is logged, and the queue reports no samples
        if queue ∈ pending then
          some ⟨s.values, Function.update s.phase i (.collecting (pending.erase queue) reported)⟩
        else none
      | _ => none
    | .read i =>
      match s.phase i with
      | .collecting [] reported =>
        some ⟨s.values, Function.update s.phase i (.done reported s.values)⟩
      | _ => none

/-- The exposition of a scrape, once it is there, has every sample that the scrape reported. -/
def Complete (s : Gauge ι) (i : ι) : Prop :=
  ∀ reported exposition, s.phase i = .done reported exposition →
    ∀ labels ∈ reported, exposition labels ≠ none

end Gauge

variable {ι : Type*}

/-- A scrape reports labels in the course of some events. -/
def Reports (i : ι) (labels : DepthLabels) (es : List (ScrapeEvent ι)) : Prop :=
  ∃ counts, .counted i labels.1 counts ∈ es ∧ labels.2 ∈ counts.map Prod.fst

/-- What a scrape has reported is reported again, by any scrape, after every scrape that begins
later. -/
def Undisturbed (i : ι) (es : List (ScrapeEvent ι)) : Prop :=
  ∀ labels pre j post, es = pre ++ .begin j :: post → Reports i labels pre →
    ∃ k, Reports k labels post

/-- Labels were reported since the last scrape began. -/
def Held (labels : DepthLabels) (es : List (ScrapeEvent ι)) : Prop :=
  ∃ pre post, es = pre ++ post ∧ (∀ j, .begin j ∉ post) ∧ ∃ k, Reports k labels post

variable {i j : ι} {labels : DepthLabels} {es fs hist : List (ScrapeEvent ι)} {e : ScrapeEvent ι}

/-! ## Schedules -/

theorem reports_append : Reports i labels (es ++ fs) ↔ Reports i labels es ∨ Reports i labels fs := by
  simp only [Reports, List.mem_append, or_and_right, exists_or]

theorem reports_singleton_counted {queue : QueueName} {counts : List (JsString × ℕ)} :
    Reports i labels [.counted j queue counts] ↔
      i = j ∧ labels.1 = queue ∧ labels.2 ∈ counts.map Prod.fst := by
  simp only [Reports, List.mem_singleton, ScrapeEvent.counted.injEq]
  constructor
  · rintro ⟨counts', ⟨rfl, rfl, rfl⟩, hmem⟩
    exact ⟨rfl, rfl, hmem⟩
  · rintro ⟨rfl, rfl, hmem⟩
    exact ⟨counts, ⟨rfl, rfl, rfl⟩, hmem⟩

/-- An event that is no answer of a queue reports nothing. -/
theorem not_reports_singleton (he : ∀ j queue counts, e ≠ .counted j queue counts) :
    ¬ Reports i labels [e] := by
  rintro ⟨counts, hmem, -⟩
  exact he _ _ _ (List.mem_singleton.mp hmem).symm

/-- Labels are held once they are reported, and as long as no scrape begins. -/
theorem held_concat : Held labels (hist ++ [e]) ↔
    (∃ k, Reports k labels [e]) ∨ Held labels hist ∧ ∀ j, e ≠ .begin j := by
  constructor
  · rintro ⟨pre, post, hes, hbegin, k, hk⟩
    rcases List.eq_nil_or_concat post with rfl | ⟨post, x, rfl⟩
    · obtain ⟨counts, hmem, -⟩ := hk
      exact absurd hmem List.not_mem_nil
    · rw [List.concat_eq_append, ← List.append_assoc] at hes
      obtain ⟨rfl, hx⟩ := List.append_inj' hes rfl
      obtain rfl : e = x := List.singleton_inj.mp hx
      rw [List.concat_eq_append] at hbegin hk
      rcases reports_append.mp hk with hk | hk
      · refine Or.inr ⟨⟨pre, post, rfl, fun j hj => hbegin j (List.mem_append_left _ hj), k, hk⟩, ?_⟩
        rintro j rfl
        exact hbegin j (by simp)
      · exact Or.inl ⟨k, hk⟩
  · rintro (⟨k, hk⟩ | ⟨⟨pre, post, rfl, hbegin, k, hk⟩, hne⟩)
    · refine ⟨hist, [e], rfl, fun j hj => ?_, k, hk⟩
      -- what reports is no beginning
      obtain rfl := List.mem_singleton.mp hj
      exact not_reports_singleton (by simp) hk
    · refine ⟨pre, post ++ [e], by rw [List.append_assoc], fun j hj => ?_, k,
        reports_append.mpr (Or.inl hk)⟩
      rcases List.mem_append.mp hj with hj | hj
      · exact hbegin j hj
      · exact hne j (List.mem_singleton.mp hj).symm

/-- The last scrape that began, if one did. -/
theorem exists_last_begin (es : List (ScrapeEvent ι)) : (∀ j, .begin j ∉ es) ∨
    ∃ pre j post, es = pre ++ .begin j :: post ∧ ∀ k, .begin k ∉ post := by
  -- Induction on the events, the latest one last.
  induction es using List.reverseRecOn with
  | nil => exact Or.inl fun _ => List.not_mem_nil
  | append_singleton es e ih =>
    by_cases he : ∃ j, e = .begin j
    · obtain ⟨j, rfl⟩ := he
      exact Or.inr ⟨es, j, [], rfl, fun _ => List.not_mem_nil⟩
    · have hne : ∀ j, .begin j ∉ [e] := fun j hj => he ⟨j, (List.mem_singleton.mp hj).symm⟩
      rcases ih with hnone | ⟨pre, j, post, rfl, hpost⟩
      · refine Or.inl fun j hj => ?_
        rcases List.mem_append.mp hj with hj | hj
        · exact hnone j hj
        · exact hne j hj
      · refine Or.inr ⟨pre, j, post ++ [e], by simp, fun k hk => ?_⟩
        rcases List.mem_append.mp hk with hk | hk
        · exact hpost k hk
        · exact hne k hk

/-- **A schedule leaves a scrape undisturbed** exactly if everything it reported is held at the
end. -/
theorem undisturbed_iff : Undisturbed i es ↔ ∀ labels, Reports i labels es → Held labels es := by
  constructor
  · intro h labels hreports
    rcases exists_last_begin es with hnone | ⟨pre, j, post, rfl, hpost⟩
    · exact ⟨[], es, rfl, hnone, i, hreports⟩
    · -- what counts is whether the report came before the last reset
      refine ⟨pre ++ [.begin j], post, by simp, hpost, ?_⟩
      rcases reports_append.mp hreports with hpre | hrest
      · exact h labels pre j post rfl hpre
      · rcases reports_append.mp (show Reports i labels ([.begin j] ++ post) from hrest) with hj | hrest
        · exact absurd hj (not_reports_singleton (by simp))
        · exact ⟨i, hrest⟩
  · intro h labels pre j post hes hpre
    obtain ⟨pre', post', hsplit, hbegin, k, hk⟩ :=
      h labels (by rw [hes]; exact reports_append.mpr (Or.inl hpre))
    rw [hes] at hsplit
    rcases List.append_eq_append_iff.mp hsplit with ⟨mid, rfl, hrest⟩ | ⟨mid, rfl, rfl⟩
    · cases mid with
      | nil =>
        obtain rfl : .begin j :: post = post' := hrest
        exact absurd (List.mem_cons_self ..) (hbegin j)
      | cons x mid =>
        obtain ⟨-, rfl⟩ := List.cons.inj hrest
        exact ⟨k, reports_append.mpr (Or.inr hk)⟩
    · exact absurd (List.mem_append_right _ (List.mem_cons_self ..)) (hbegin j)

namespace Gauge

variable [DecidableEq ι] {s t u : Gauge ι}

/-! ## The gauge -/

/-- What each event does where it can happen, with what it finds there. -/
inductive Step (s : Gauge ι) : ScrapeEvent ι → Gauge ι → Prop
  | begin (i : ι) (idle : s.phase i = .idle) : Step s (.begin i)
      ⟨fun _ => none, Function.update s.phase i (.collecting allQueueNames [])⟩
  | counted (i : ι) (queue : QueueName) (counts : List (JsString × ℕ)) (pending : List QueueName)
      (reported : List DepthLabels) (collecting : s.phase i = .collecting pending reported) :
      Step s (.counted i queue counts) ⟨report s.values queue counts, Function.update s.phase i
        (.collecting (pending.erase queue) (reported ++ counts.map fun c => (queue, c.1)))⟩
  | uncounted (i : ι) (queue : QueueName) (pending : List QueueName) (reported : List DepthLabels)
      (collecting : s.phase i = .collecting pending reported) : Step s (.uncounted i queue)
        ⟨s.values, Function.update s.phase i (.collecting (pending.erase queue) reported)⟩
  | read (i : ι) (reported : List DepthLabels) (collected : s.phase i = .collecting [] reported) :
      Step s (.read i) ⟨s.values, Function.update s.phase i (.done reported s.values)⟩

/-- **What a step does**: one case for each event. -/
theorem step_cases (hstep : machine.step s e = some t) : Step s e t := by
  cases e with
  | begin i =>
    simp only [machine] at hstep
    split at hstep
    · next hidle =>
      obtain rfl := Option.some.inj hstep
      exact .begin i hidle
    · cases hstep
  | counted i queue counts =>
    simp only [machine] at hstep
    split at hstep
    · next pending reported hcollecting =>
      split_ifs at hstep
      obtain rfl := Option.some.inj hstep
      exact .counted i queue counts pending reported hcollecting
    · cases hstep
  | uncounted i queue =>
    simp only [machine] at hstep
    split at hstep
    · next pending reported hcollecting =>
      split_ifs at hstep
      obtain rfl := Option.some.inj hstep
      exact .uncounted i queue pending reported hcollecting
    · cases hstep
  | read i =>
    simp only [machine] at hstep
    split at hstep
    · next reported hcollected =>
      obtain rfl := Option.some.inj hstep
      exact .read i reported hcollected
    · cases hstep

/-- What a queue's counts set, and what they leave. -/
theorem report_ne_none {values : DepthLabels → Option ℕ} {queue : QueueName}
    {counts : List (JsString × ℕ)} : report values queue counts labels ≠ none ↔
      (labels.1 = queue ∧ labels.2 ∈ counts.map Prod.fst) ∨ values labels ≠ none := by
  unfold report
  -- Induction on the counts, for every gauge they are set on.
  induction counts generalizing values with
  | nil => simp
  | cons c counts ih =>
    rw [List.foldl_cons, ih]
    by_cases h : labels = (queue, c.1)
    · subst h
      simp
    · have hne : ¬ (labels.1 = queue ∧ labels.2 = c.1) := fun hc => h (Prod.ext hc.1 hc.2)
      rw [Function.update_of_ne h, List.map_cons, List.mem_cons]
      tauto

/-- What is known of a scrape after a history: it has reported what the history says, and an
exposition is what the gauge held when it was read. -/
def PhaseInv (hist : List (ScrapeEvent ι)) (i : ι) : ScrapePhase → Prop
  | .idle => ∀ labels, ¬ Reports i labels hist
  | .collecting _ reported => ∀ labels, labels ∈ reported ↔ Reports i labels hist
  | .done reported exposition => ∃ pre post, hist = pre ++ .read i :: post ∧
      (∀ labels, labels ∈ reported ↔ Reports i labels pre) ∧
      ∀ labels, exposition labels ≠ none ↔ Held labels pre

/-- What is known of the gauge and its scrapes after a history. -/
structure GaugeInv (hist : List (ScrapeEvent ι)) (s : Gauge ι) : Prop where
  held : ∀ labels, s.values labels ≠ none ↔ Held labels hist
  phase : ∀ i, PhaseInv hist i (s.phase i)

omit [DecidableEq ι] in
/-- An event that reports nothing for a scrape leaves what is known of it. -/
theorem PhaseInv.concat {p : ScrapePhase} (h : PhaseInv hist i p)
    (he : ∀ labels, ¬ Reports i labels [e]) : PhaseInv (hist ++ [e]) i p := by
  have hreports : ∀ labels, Reports i labels (hist ++ [e]) ↔ Reports i labels hist :=
    fun labels => reports_append.trans (or_iff_left (he labels))
  cases p with
  | idle =>
    intro labels
    rw [hreports]
    exact h labels
  | collecting pending reported =>
    intro labels
    rw [hreports]
    exact h labels
  | done reported exposition =>
    obtain ⟨pre, post, rfl, hrest⟩ := h
    exact ⟨pre, post ++ [e], by simp, hrest⟩

/-- An event of one scrape leaves what is known of the others. -/
theorem phaseInv_update {p : ScrapePhase} (h : ∀ j, PhaseInv hist j (s.phase j))
    (hi : PhaseInv (hist ++ [e]) i p) (he : ∀ j, j ≠ i → ∀ labels, ¬ Reports j labels [e]) (j : ι) :
    PhaseInv (hist ++ [e]) j (Function.update s.phase i p j) := by
  by_cases hj : j = i
  · subst hj
    rwa [Function.update_self]
  · rw [Function.update_of_ne hj]
    exact (h j).concat (he j hj)

omit [DecidableEq ι] in
/-- The counts of a queue are what a scrape reports with them. -/
theorem phaseInv_counted {pending : List QueueName} {reported : List DepthLabels}
    {queue : QueueName} {counts : List (JsString × ℕ)}
    (hi : PhaseInv hist i (.collecting pending reported)) :
    PhaseInv (hist ++ [.counted i queue counts]) i
      (.collecting (pending.erase queue) (reported ++ counts.map fun c => (queue, c.1))) := by
  intro labels
  rw [List.mem_append, hi labels, reports_append, reports_singleton_counted]
  simp only [List.mem_map, Prod.ext_iff, true_and]
  constructor
  · rintro (hold | ⟨c, hc, hqueue, hstate⟩)
    · exact Or.inl hold
    · exact Or.inr ⟨hqueue.symm, c, hc, hstate⟩
  · rintro (hold | ⟨hqueue, c, hc, hstate⟩)
    · exact Or.inl hold
    · exact Or.inr ⟨c, hc, hqueue.symm, hstate⟩

/-- **What a step does to the gauge and its scrapes.** -/
theorem gaugeInv_step (h : GaugeInv hist s) (hstep : machine.step s e = some t) :
    GaugeInv (hist ++ [e]) t := by
  cases step_cases hstep with
  | begin i hidle =>
    have hquiet : ∀ j labels, ¬ Reports j labels [ScrapeEvent.begin i] :=
      fun _ _ => not_reports_singleton (by simp)
    have hi : PhaseInv hist i .idle := hidle ▸ h.phase i
    refine ⟨fun labels => ?_, phaseInv_update h.phase (fun labels => ?_) fun _ _ => hquiet _⟩
    · -- the reset drops every sample
      rw [held_concat]
      simp [hquiet]
    · rw [reports_append]
      simp [hi labels, hquiet]
  | counted i queue counts pending reported hcollecting =>
    have hi : PhaseInv hist i (.collecting pending reported) := hcollecting ▸ h.phase i
    refine ⟨fun labels => ?_, phaseInv_update h.phase (phaseInv_counted hi) fun j hj labels hr => ?_⟩
    · -- the counts are held from now on, next to what was held before
      rw [report_ne_none, held_concat, h.held]
      simp only [reports_singleton_counted, exists_eq_left, ne_eq, reduceCtorEq, not_false_eq_true,
        implies_true, and_true]
    · -- the answer is to no other scrape
      exact hj (reports_singleton_counted.mp hr).1
  | uncounted i queue pending reported hcollecting =>
    have hquiet : ∀ j labels, ¬ Reports j labels [ScrapeEvent.uncounted i queue] :=
      fun _ _ => not_reports_singleton (by simp)
    have hi : PhaseInv hist i (.collecting pending reported) := hcollecting ▸ h.phase i
    refine ⟨fun labels => ?_, phaseInv_update h.phase (fun labels => ?_) fun _ _ => hquiet _⟩
    · rw [held_concat, h.held]
      simp [hquiet]
    · rw [hi labels, reports_append]
      simp [hquiet]
  | read i reported hcollected =>
    have hquiet : ∀ j labels, ¬ Reports j labels [ScrapeEvent.read i] :=
      fun _ _ => not_reports_singleton (by simp)
    have hi : PhaseInv hist i (.collecting [] reported) := hcollected ▸ h.phase i
    refine ⟨fun labels => ?_, phaseInv_update h.phase ?_ fun _ _ => hquiet _⟩
    · rw [held_concat, h.held]
      simp [hquiet]
    · -- the exposition is what the gauge holds now
      exact ⟨hist, [], rfl, hi, h.held⟩

theorem gaugeInv_of_run (hrun : machine.run start es = some t) : GaugeInv es t := by
  have hstart : GaugeInv ([] : List (ScrapeEvent ι)) start := by
    refine ⟨fun labels => iff_of_false (fun h => h rfl) ?_, fun i labels => ?_⟩
    · rintro ⟨pre, post, hes, -, k, counts, hmem, -⟩
      rw [(List.append_eq_nil_iff.mp hes.symm).2] at hmem
      exact absurd hmem List.not_mem_nil
    · rintro ⟨counts, hmem, -⟩
      exact absurd hmem List.not_mem_nil
  have h := Machine.run_history (I := GaugeInv) (G := fun _ _ => True)
    (fun hist s e t hI _ hstep => gaugeInv_step hI hstep) hstart Machine.stepsMeet_true hrun
  rwa [List.nil_append] at h

/-! ## Expositions -/

/-- A step moves one scrape, which was not read before. -/
theorem phase_of_step (hstep : machine.step s e = some t) :
    ∃ k p, t.phase = Function.update s.phase k p ∧
      ∀ reported exposition, s.phase k ≠ .done reported exposition := by
  cases step_cases hstep with
  | begin k hidle => exact ⟨k, _, rfl, by simp [hidle]⟩
  | counted k queue counts pending reported hcollecting =>
    exact ⟨k, _, rfl, by simp [hcollecting]⟩
  | uncounted k queue pending reported hcollecting => exact ⟨k, _, rfl, by simp [hcollecting]⟩
  | read k reported hcollected => exact ⟨k, _, rfl, by simp [hcollected]⟩

/-- A scrape that has been read stays read. -/
theorem done_of_run {reported : List DepthLabels} {exposition : DepthLabels → Option ℕ}
    (hs : s.phase i = .done reported exposition) (hrun : machine.run s es = some t) :
    t.phase i = .done reported exposition := by
  refine Machine.run_invariant (I := fun s => s.phase i = .done reported exposition)
    (G := fun _ _ => True) (fun s e t hs _ hstep => ?_) hs Machine.stepsMeet_true hrun
  obtain ⟨k, p, hphase, hnot⟩ := phase_of_step hstep
  have hik : i ≠ k := by
    rintro rfl
    exact hnot _ _ hs
  rw [hphase, Function.update_of_ne hik, hs]

end Gauge

/-- **Which schedules of scrapes lose no sample.** For any number of scrapes and every way their
beginnings, the answers of their queues and their reads interleave: every exposition has all the
samples that its scrape reported exactly when, up to each read, whatever the scrape has reported is
reported again after every scrape that begins later. -/
theorem complete_iff [DecidableEq ι] {t : Gauge ι} (hrun : Gauge.machine.run .start es = some t) :
    (∀ i, t.Complete i) ↔ ∀ pre i post, es = pre ++ .read i :: post → Undisturbed i pre := by
  constructor
  · rintro h pre i post rfl
    obtain ⟨u, v, hpre, hread, hpost⟩ := Machine.run_append_cons.mp hrun
    have hinv := Gauge.gaugeInv_of_run hpre
    -- what is read is what the gauge held, and stays as it was read
    obtain ⟨reported, hcollecting, hdone⟩ : ∃ reported, u.phase i = .collecting [] reported ∧
        v.phase i = .done reported u.values := by
      cases Gauge.step_cases hread with
      | read _ reported hcollected => exact ⟨reported, hcollected, Function.update_self ..⟩
    have hcomplete := h i reported u.values (Gauge.done_of_run hdone hpost)
    have hreported : Gauge.PhaseInv pre i (.collecting [] reported) := hcollecting ▸ hinv.phase i
    apply undisturbed_iff.mpr
    intro labels hreports
    exact (hinv.held labels).mp (hcomplete labels ((hreported labels).mpr hreports))
  · intro h i reported exposition hdone labels hmem
    -- The exposition is what the gauge held when it was read.
    have hphase : Gauge.PhaseInv es i (.done reported exposition) :=
      hdone ▸ (Gauge.gaugeInv_of_run hrun).phase i
    obtain ⟨pre, post, hes, hreported, hheld⟩ := hphase
    apply (hheld labels).mpr
    exact undisturbed_iff.mp (h pre i post hes) labels ((hreported labels).mp hmem)

/-! ### Two scrapes -/

/-- Two scrapes that overlap. The second begins when one queue has answered the first, and has its
own answer of that queue before the first is read. -/
def twoScrapes : List (ScrapeEvent Bool) :=
  [.begin false, .counted false .email [(js "waiting", 7)], .begin true,
    .counted false .reports [(js "waiting", 1)], .counted true .email [(js "waiting", 6)],
    .counted true .reports [(js "waiting", 2)], .counted false .maintenance [(js "active", 1)],
    .counted false .deadLetter [(js "waiting", 3)], .read false,
    .counted true .maintenance [(js "active", 1)], .counted true .deadLetter [(js "waiting", 3)],
    .read true]

/-- What each of the two reports. -/
def twoScrapesLabels : List DepthLabels :=
  [(.email, js "waiting"), (.reports, js "waiting"), (.maintenance, js "active"),
    (.deadLetter, js "waiting")]

theorem complete_iff_twoScrapes : ∃ t, Gauge.machine.run .start twoScrapes = some t ∧
    (∀ i, t.Complete i) ∧
      ∀ pre i post, twoScrapes = pre ++ .read i :: post → Undisturbed i pre := by
  obtain ⟨t, first, second, hrun, hfirst, hsecond, hheld, hheld'⟩ : ∃ t first second,
      Gauge.machine.run .start twoScrapes = some t ∧
        t.phase false = .done twoScrapesLabels first ∧
        t.phase true = .done twoScrapesLabels second ∧
        (∀ labels ∈ twoScrapesLabels, first labels ≠ none) ∧
        ∀ labels ∈ twoScrapesLabels, second labels ≠ none :=
    ⟨_, _, _, rfl, rfl, rfl, by decide, by decide⟩
  have hcomplete : ∀ i, t.Complete i := by
    intro i reported exposition hdone
    cases i with
    | false =>
      obtain ⟨rfl, rfl⟩ := ScrapePhase.done.inj (hfirst.symm.trans hdone)
      exact hheld
    | true =>
      obtain ⟨rfl, rfl⟩ := ScrapePhase.done.inj (hsecond.symm.trans hdone)
      exact hheld'
  exact ⟨t, hrun, hcomplete, (complete_iff hrun).mp hcomplete⟩

/-- A second scrape that begins before the last queue has answered the first. -/
def overlappingScrapes : List (ScrapeEvent ℕ) :=
  [.begin 0, .counted 0 .email [(js "waiting", 7)], .counted 0 .reports [(js "waiting", 1)],
    .counted 0 .maintenance [(js "waiting", 1)], .begin 1, .counted 0 .deadLetter [(js "waiting", 1)],
    .read 0]

/-- **A second scrape drops the samples of the first**, which has read the counts of every queue. -/
theorem second_scrape_drops_samples : ∃ t,
    Gauge.machine.run .start overlappingScrapes = some t ∧ ¬ t.Complete 0 := by
  obtain ⟨t, reported, exposition, hrun, hdone, hmem, hnone⟩ : ∃ t reported exposition,
      Gauge.machine.run .start overlappingScrapes = some t ∧ t.phase 0 = .done reported exposition ∧
        (.email, js "waiting") ∈ reported ∧ exposition (.email, js "waiting") = none :=
    ⟨_, _, _, rfl, rfl, by decide, rfl⟩
  exact ⟨t, hrun, fun h => h reported exposition hdone _ hmem hnone⟩

end QueueWorkerKit
