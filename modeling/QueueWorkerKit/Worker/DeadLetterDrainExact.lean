import QueueWorkerKit.Worker.DeadLetterDrain
import Mathlib.Data.Set.Finite.Lattice

/-!
# What draining the dead-letter writer waits for

Each call of `record` and each call of `drain` has its own invariant, and a third one ties them: the
race waits for the calls that were in flight, each of which is subscribed to its write before the
race is. A microtask of a call leaves the others as they are.

## Main definitions

* `Drain.RecordInv`: where a call of `record` waits
* `Drain.DrainInv`: where a call of `drain` waits
* `Drain.Snapshot`: what a race waits for
* `Drain.InFlight`: the calls of `record` a drain finds unsettled

## Main results

* `inv_step`: what a step preserves, one case for each event and continuation
* `Inv.exists_quiet`: the microtasks run until none is left
* `drain_exact`: **drain waits for what was in flight, or for its deadline**
-/

namespace QueueWorkerKit

open Ecma EventDriven

namespace Drain

variable {ι δ : Type} [DecidableEq ι] [DecidableEq δ] {s t : State ι δ} {i j : ι} {d d' : δ}
  {k k' : Reaction ι δ} {p q : Promise ι δ} {r : Settled}
  {loop : Loop (Promise ι δ) (Reaction ι δ) Unit Thrown}

/-! ## One call of `record` -/

/-- A call of `record` waits where its continuations are. -/
structure RecordInv (s : State ι δ) (i : ι) : Prop where
  fresh : i ∉ s.started → ¬ s.Live (.recordCatch i) ∧ ¬ s.Live (.recordResume i) ∧
    s.Pending (.guarded i) ∧ s.Pending (.record i)
  guarded : i ∈ s.started → (s.Pending (.guarded i) ↔ s.Live (.recordCatch i))
  record : i ∈ s.started → (s.Pending (.record i) ↔ s.Live (.recordResume i))
  write : s.Pending (.write i) → s.Pending (.guarded i)
  settles : s.Pending (.guarded i) → s.Pending (.record i)

omit [DecidableEq ι] [DecidableEq δ] in
theorem RecordInv.congr (h : RecordInv s i) (hstarted : i ∈ t.started ↔ i ∈ s.started)
    (hcatch : t.Live (.recordCatch i) ↔ s.Live (.recordCatch i))
    (hresume : t.Live (.recordResume i) ↔ s.Live (.recordResume i))
    (hwrite : t.Pending (.write i) → s.Pending (.write i))
    (hguarded : t.Pending (.guarded i) ↔ s.Pending (.guarded i))
    (hrecord : t.Pending (.record i) ↔ s.Pending (.record i)) : RecordInv t i where
  fresh := by
    rw [hstarted, hcatch, hresume, hguarded, hrecord]
    exact h.fresh
  guarded := by
    rw [hstarted, hcatch, hguarded]
    exact h.guarded
  record := by
    rw [hstarted, hresume, hrecord]
    exact h.record
  write hw := hguarded.mpr (h.write (hwrite hw))
  settles := by
    rw [hguarded, hrecord]
    exact h.settles

/-- **What a microtask does to a call of `record`.** -/
theorem RecordInv.resumed (h : RecordInv s i) (hstep : Resumed s k t) : RecordInv t i := by
  have hwrite : t.Pending (.write i) ↔ s.Pending (.write i) :=
    hstep.keeps (.write i) (by cases k <;> simp [target])
  by_cases hcatch : k = .recordCatch i
  · -- the promise with its rejection caught settles
    subst hcatch
    have hrecord : t.Pending (.record i) ↔ s.Pending (.record i) := hstep.keeps _ (by simp [target])
    have htarget : ¬ t.Pending (.guarded i) := hstep.settles (by simp)
    have hstarted : i ∈ s.started := by
      by_contra hnot
      exact (h.fresh hnot).1 hstep.was
    constructor
    · simp [hstep.started, hstarted]
    · simp [hstep.live, htarget]
    · simp [hstep.started, hstep.live, hrecord, h.record hstarted]
    · intro hpending
      exact absurd (hwrite.mp hpending) hstep.source
    · intro hpending
      exact absurd hpending htarget
  · by_cases hresume : k = .recordResume i
    · -- the call is over
      subst hresume
      have hguarded : t.Pending (.guarded i) ↔ s.Pending (.guarded i) :=
        hstep.keeps _ (by simp [target])
      have htarget : ¬ t.Pending (.record i) := hstep.settles (by simp)
      have hstarted : i ∈ s.started := by
        by_contra hnot
        exact (h.fresh hnot).2.1 hstep.was
      constructor
      · simp [hstep.started, hstarted]
      · simp [hstep.started, hstep.live, hguarded, h.guarded hstarted]
      · simp [hstep.live, htarget]
      · intro hpending
        exact hguarded.mpr (h.write (hwrite.mp hpending))
      · intro hpending
        exact absurd (hguarded.mp hpending) hstep.source
    · -- another continuation leaves the call as it is
      have hguarded : Promise.guarded i ≠ target k := by
        cases k <;> simp_all [target, eq_comm]
      have hrecord : Promise.record i ≠ target k := by
        cases k <;> simp_all [target, eq_comm]
      refine h.congr (by rw [hstep.started]) ?_ ?_ hwrite.mp (hstep.keeps _ hguarded)
        (hstep.keeps _ hrecord)
      · rw [hstep.live]
        exact and_iff_right (Ne.symm hcatch)
      · rw [hstep.live]
        exact and_iff_right (Ne.symm hresume)

/-! ## One call of `drain` -/

/-- Nothing of a call of `drain` is under way. -/
structure Idle (s : State ι δ) (d : δ) : Prop where
  live : ∀ k : Reaction ι δ, k.IsOf d → ¬ s.Live k
  pending : ∀ p : Promise ι δ, p.IsOf d → p ≠ .drain d → s.Pending p
  remaining : s.remaining d = []
  timer : s.timer d = false
  fired : s.fired d = false

/-- A call of `drain` waits for the race of what was in flight with its deadline. -/
structure Racing (s : State ι δ) (d : δ) : Prop where
  element : ∀ i, s.Live (.allElement d i) ↔ i ∈ s.remaining d
  all : s.Pending (.all d) ↔ s.remaining d ≠ []
  allDone : s.Pending (.allDone d) ↔ s.Live (.allThen d)
  order : s.Pending (.all d) → s.Pending (.allDone d)
  raceAll : s.Live (.raceAll d) ∨ ¬ s.Pending (.race d)
  raceDeadline : s.Live (.raceDeadline d) ∨ ¬ s.Pending (.race d)
  race : ¬ s.Pending (.race d) → ¬ s.Pending (.allDone d) ∨ s.fired d = true
  drain : s.Pending (.drain d) ↔ s.Live (.drainResume d)
  awaits : s.Pending (.race d) → s.Pending (.drain d)
  deadline : s.Pending (.deadline d) ↔ s.fired d = false
  timer : s.timer d = true ↔ s.Pending (.drain d) ∧ s.fired d = false

/-- A call of `drain` has not been made, was over at once, or waits for its race. -/
structure DrainInv (s : State ι δ) (d : δ) : Prop where
  uncalled : s.call d = none → Idle s d ∧ s.Pending (.drain d)
  empty : ∀ c, s.call d = some c → c.pending = [] → Idle s d ∧ ¬ s.Pending (.drain d)
  racing : ∀ c, s.call d = some c → c.pending ≠ [] → Racing s d

/-- A call of `drain` stands in both states at the same place. -/
structure SameDrain (s t : State ι δ) (d : δ) : Prop where
  live : ∀ k : Reaction ι δ, k.IsOf d → (t.Live k ↔ s.Live k)
  pending : ∀ p : Promise ι δ, p.IsOf d → (t.Pending p ↔ s.Pending p)
  call : t.call d = s.call d
  remaining : t.remaining d = s.remaining d
  timer : t.timer d = s.timer d
  fired : t.fired d = s.fired d

omit [DecidableEq ι] [DecidableEq δ] in
theorem Idle.congr (h : Idle s d) (hsame : SameDrain s t d) : Idle t d where
  live k hk := by
    rw [hsame.live k hk]
    exact h.live k hk
  pending p hp hne := (hsame.pending p hp).mpr (h.pending p hp hne)
  remaining := hsame.remaining.trans h.remaining
  timer := hsame.timer.trans h.timer
  fired := hsame.fired.trans h.fired

omit [DecidableEq ι] [DecidableEq δ] in
theorem Racing.congr (h : Racing s d) (hsame : SameDrain s t d) : Racing t d := by
  have hall := hsame.pending (.all d) rfl
  have hdone := hsame.pending (.allDone d) rfl
  have hrace := hsame.pending (.race d) rfl
  have hdrain := hsame.pending (.drain d) rfl
  constructor
  · intro i
    rw [hsame.live (.allElement d i) rfl, hsame.remaining]
    exact h.element i
  · rw [hall, hsame.remaining]
    exact h.all
  · rw [hdone, hsame.live (.allThen d) rfl]
    exact h.allDone
  · rw [hall, hdone]
    exact h.order
  · rw [hrace, hsame.live (.raceAll d) rfl]
    exact h.raceAll
  · rw [hrace, hsame.live (.raceDeadline d) rfl]
    exact h.raceDeadline
  · rw [hrace, hdone, hsame.fired]
    exact h.race
  · rw [hdrain, hsame.live (.drainResume d) rfl]
    exact h.drain
  · rw [hrace, hdrain]
    exact h.awaits
  · rw [hsame.pending (.deadline d) rfl, hsame.fired]
    exact h.deadline
  · rw [hsame.timer, hdrain, hsame.fired]
    exact h.timer

omit [DecidableEq ι] [DecidableEq δ] in
theorem DrainInv.congr (h : DrainInv s d) (hsame : SameDrain s t d) : DrainInv t d where
  uncalled hcall := by
    rw [hsame.call] at hcall
    rw [hsame.pending (.drain d) rfl]
    exact ⟨(h.uncalled hcall).1.congr hsame, (h.uncalled hcall).2⟩
  empty c hcall hempty := by
    rw [hsame.call] at hcall
    rw [hsame.pending (.drain d) rfl]
    exact ⟨(h.empty c hcall hempty).1.congr hsame, (h.empty c hcall hempty).2⟩
  racing c hcall hne := by
    rw [hsame.call] at hcall
    exact (h.racing c hcall hne).congr hsame

omit [DecidableEq ι] [DecidableEq δ] in
/-- A call of `drain` with a live continuation waits for its race. -/
theorem DrainInv.racing_of_live (h : DrainInv s d) (hk : k.IsOf d) (hlive : s.Live k) :
    Racing s d ∧ ∃ c, s.call d = some c ∧ c.pending ≠ [] := by
  cases hcall : s.call d with
  | none => exact absurd hlive ((h.uncalled hcall).1.live k hk)
  | some c =>
    by_cases hempty : c.pending = []
    · exact absurd hlive ((h.empty c hcall hempty).1.live k hk)
    · exact ⟨h.racing c hcall hempty, c, rfl, hempty⟩

/-- A continuation that is not of a call of `drain` leaves the call as it is. -/
theorem Resumed.sameDrain (hstep : Resumed s k t) (hk : ¬ k.IsOf d) : SameDrain s t d where
  live k' hk' := by
    rw [hstep.live]
    refine and_iff_right ?_
    rintro rfl
    exact hk hk'
  pending p hp := by
    apply hstep.keeps
    rintro rfl
    cases k <;> exact hk hp
  call := by rw [hstep.call]
  remaining := by
    rw [hstep.remaining, List.filter_eq_self]
    rintro i -
    rw [decide_eq_true_iff]
    rintro rfl
    exact hk rfl
  timer := by
    rw [hstep.timer, if_neg]
    rintro rfl
    exact hk rfl
  fired := by rw [hstep.fired]

/-- An element is taken off those that are waited for. -/
theorem Racing.resumed_allElement (h : Racing s d) (hstep : Resumed s (.allElement d i) t) :
    Racing t d := by
  have hmem : i ∈ s.remaining d := (h.element i).mp hstep.was
  have hwaits : s.Pending (.all d) := h.all.mpr (List.ne_nil_of_mem hmem)
  have hkeeps : ∀ p, p ≠ .all d → (t.Pending p ↔ s.Pending p) := hstep.keeps
  have hdone := hkeeps (.allDone d) (by simp)
  have hrace := hkeeps (.race d) (by simp)
  have hdrain := hkeeps (.drain d) (by simp)
  constructor
  · intro j
    rw [hstep.live, hstep.remaining, List.mem_filter, decide_eq_true_iff, h.element j, and_comm,
      ne_comm]
  · rw [hstep.all d i rfl]
    exact and_iff_right hwaits
  · simp [hdone, hstep.live, h.allDone]
  · exact fun _ => hdone.mpr (h.order hwaits)
  · simpa [hrace, hstep.live] using h.raceAll
  · simpa [hrace, hstep.live] using h.raceDeadline
  · rw [hrace, hdone, hstep.fired]
    exact h.race
  · simp [hdrain, hstep.live, h.drain]
  · rw [hrace, hdrain]
    exact h.awaits
  · rw [hkeeps (.deadline d) (by simp), hstep.fired]
    exact h.deadline
  · simp [hstep.timer, hdrain, hstep.fired, h.timer]

/-- Everything in flight is over. -/
theorem Racing.resumed_allThen (h : Racing s d) (hstep : Resumed s (.allThen d) t) :
    Racing t d := by
  have hsource : ¬ s.Pending (.all d) := hstep.source
  have hover : ¬ t.Pending (.allDone d) := hstep.settles (by simp)
  have hkeeps : ∀ p, p ≠ .allDone d → (t.Pending p ↔ s.Pending p) := hstep.keeps
  have hall := hkeeps (.all d) (by simp)
  have hrace := hkeeps (.race d) (by simp)
  have hdrain := hkeeps (.drain d) (by simp)
  have hremaining : t.remaining d = s.remaining d := by simp [hstep.remaining]
  constructor
  · intro j
    simp [hstep.live, hremaining, h.element]
  · rw [hall, hremaining]
    exact h.all
  · simp [hover, hstep.live]
  · exact fun hpending => absurd (hall.mp hpending) hsource
  · simpa [hrace, hstep.live] using h.raceAll
  · simpa [hrace, hstep.live] using h.raceDeadline
  · exact fun _ => Or.inl hover
  · simp [hdrain, hstep.live, h.drain]
  · rw [hrace, hdrain]
    exact h.awaits
  · rw [hkeeps (.deadline d) (by simp), hstep.fired]
    exact h.deadline
  · simp [hstep.timer, hdrain, hstep.fired, h.timer]

/-- An entry of the race is over, and so is the race. -/
theorem Racing.resumed_race (h : Racing s d) (hstep : Resumed s k t)
    (hk : k = .raceAll d ∨ k = .raceDeadline d) : Racing t d := by
  have htarget : target k = .race d := by rcases hk with rfl | rfl <;> rfl
  have hover : ¬ t.Pending (.race d) := by
    rw [← htarget]
    apply hstep.settles
    rcases hk with rfl | rfl <;> simp
  have hkeeps : ∀ p, p ≠ .race d → (t.Pending p ↔ s.Pending p) := htarget ▸ hstep.keeps
  have hcause : ¬ s.Pending (.allDone d) ∨ s.fired d = true := by
    rcases hk with rfl | rfl
    · exact Or.inl hstep.source
    · refine Or.inr ?_
      simpa using mt h.deadline.mpr hstep.source
  have hall := hkeeps (.all d) (by simp)
  have hdone := hkeeps (.allDone d) (by simp)
  have hdrain := hkeeps (.drain d) (by simp)
  have hremaining : t.remaining d = s.remaining d := by
    rcases hk with rfl | rfl <;> simp [hstep.remaining]
  have hlive : ∀ k', k' ≠ .raceAll d → k' ≠ .raceDeadline d → (t.Live k' ↔ s.Live k') := by
    intro k' hne hne'
    rw [hstep.live]
    refine and_iff_right ?_
    rcases hk with rfl | rfl
    · exact hne
    · exact hne'
  constructor
  · intro j
    rw [hlive _ (by simp) (by simp), hremaining]
    exact h.element j
  · rw [hall, hremaining]
    exact h.all
  · rw [hdone, hlive _ (by simp) (by simp)]
    exact h.allDone
  · rw [hall, hdone]
    exact h.order
  · exact Or.inr hover
  · exact Or.inr hover
  · rw [hdone, hstep.fired]
    exact fun _ => hcause
  · rw [hdrain, hlive _ (by simp) (by simp)]
    exact h.drain
  · exact fun hpending => absurd hpending hover
  · rw [hkeeps (.deadline d) (by simp), hstep.fired]
    exact h.deadline
  · rw [hstep.timer, if_neg (by rcases hk with rfl | rfl <;> simp), hdrain, hstep.fired]
    exact h.timer

/-- The call is over, and its timer disarmed. -/
theorem Racing.resumed_drainResume (h : Racing s d) (hstep : Resumed s (.drainResume d) t) :
    Racing t d := by
  have hsource : ¬ s.Pending (.race d) := hstep.source
  have hover : ¬ t.Pending (.drain d) := hstep.settles (by simp)
  have hkeeps : ∀ p, p ≠ .drain d → (t.Pending p ↔ s.Pending p) := hstep.keeps
  have hall := hkeeps (.all d) (by simp)
  have hdone := hkeeps (.allDone d) (by simp)
  have hrace := hkeeps (.race d) (by simp)
  have hremaining : t.remaining d = s.remaining d := by simp [hstep.remaining]
  constructor
  · intro j
    simp [hstep.live, hremaining, h.element]
  · rw [hall, hremaining]
    exact h.all
  · simp [hdone, hstep.live, h.allDone]
  · rw [hall, hdone]
    exact h.order
  · exact Or.inr (hrace.not.mpr hsource)
  · exact Or.inr (hrace.not.mpr hsource)
  · rw [hrace, hdone, hstep.fired]
    exact h.race
  · simp [hover, hstep.live]
  · exact fun hpending => absurd (hrace.mp hpending) hsource
  · rw [hkeeps (.deadline d) (by simp), hstep.fired]
    exact h.deadline
  · simp [hstep.timer, hover]

/-- **What a microtask of a race does to it**: one case for each continuation. -/
theorem Racing.resumed (h : Racing s d) (hstep : Resumed s k t) (hk : k.IsOf d) : Racing t d := by
  cases k with
  | recordCatch i => exact absurd hk id
  | recordResume i => exact absurd hk id
  | allElement d' i =>
    obtain rfl : d' = d := hk
    exact h.resumed_allElement hstep
  | allThen d' =>
    obtain rfl : d' = d := hk
    exact h.resumed_allThen hstep
  | raceAll d' =>
    obtain rfl : d' = d := hk
    exact h.resumed_race hstep (Or.inl rfl)
  | raceDeadline d' =>
    obtain rfl : d' = d := hk
    exact h.resumed_race hstep (Or.inr rfl)
  | drainResume d' =>
    obtain rfl : d' = d := hk
    exact h.resumed_drainResume hstep

/-- A microtask leaves every call of `drain` where it can be. -/
theorem DrainInv.resumed (h : DrainInv s d) (hstep : Resumed s k t) : DrainInv t d := by
  by_cases hk : k.IsOf d
  · obtain ⟨hracing, c, hcall, hne⟩ := h.racing_of_live hk hstep.was
    have hcall' : t.call d = some c := by rw [hstep.call, hcall]
    refine ⟨fun hnone => ?_, fun c' hc' hempty => ?_, fun _ _ _ => hracing.resumed hstep hk⟩
    · rw [hcall'] at hnone
      cases hnone
    · obtain rfl : c = c' := Option.some.inj (hcall'.symm.trans hc')
      exact absurd hempty hne
  · exact h.congr (hstep.sameDrain hk)

/-! ## The other events -/

/-- What the start of a race of what is in flight with a deadline does. -/
structure Called (s : State ι δ) (d : δ) (timeoutMs : JsNumber) (t : State ι δ) : Prop where
  live : ∀ k, t.Live k ↔ k = .drainResume d ∨ k = .raceDeadline d ∨ k = .raceAll d ∨
    k = .allThen d ∨ (∃ i ∈ s.inFlight, k = .allElement d i) ∨ s.Live k
  settled : t.loop.settled = s.loop.settled
  started : t.started = s.started
  inFlight : t.inFlight = s.inFlight
  call : t.call = Function.update s.call d (some ⟨timeoutMs, s.inFlight, s.started⟩)
  remaining : t.remaining = Function.update s.remaining d s.inFlight
  timer : t.timer = Function.update s.timer d true
  fired : t.fired = s.fired
  wellFormed : t.loop.WellFormed src
  precedes : ∀ p i k, src k = p → s.loop.Precedes p (.recordResume i) k →
    t.loop.Precedes p (.recordResume i) k

omit [DecidableEq ι] in
theorem Called.pending {timeoutMs : JsNumber} (h : Called s d timeoutMs t) :
    t.Pending p ↔ s.Pending p := by
  rw [State.Pending, State.Pending, h.settled]

/-- A call of `drain` with writes in flight starts its race. -/
theorem called_startDrain {timeoutMs : JsNumber} (hwf : s.loop.WellFormed src) (hidle : Idle s d)
    (hnodup : s.inFlight.Nodup) (hne : s.inFlight ≠ []) :
    Called s d timeoutMs (s.startDrain d timeoutMs) := by
  simp only [State.startDrain, if_neg hne]
  obtain ⟨loop, hloop⟩ := State.exists_startRace { s with
    call := Function.update s.call d (some ⟨timeoutMs, s.inFlight, s.started⟩)
    timer := Function.update s.timer d true
    remaining := Function.update s.remaining d s.inFlight } d
  refine ⟨fun k => State.live_startRace, State.settled_startRace, ?_, ?_, ?_, ?_, ?_, ?_,
    State.wellFormed_startRace hwf hnodup hidle.live,
    fun p i k hk h => State.precedes_startRace h hk⟩
  all_goals rw [hloop]

omit [DecidableEq ι] in
/-- The race waits for everything in flight, and for the deadline. -/
theorem Called.racing {timeoutMs : JsNumber} (h : Called s d timeoutMs t) (hidle : Idle s d)
    (hdrain : s.Pending (.drain d)) (hne : s.inFlight ≠ []) : Racing t d := by
  have hpending := fun p hp hne => h.pending.mpr (hidle.pending p hp hne)
  have hremaining : t.remaining d = s.inFlight := by rw [h.remaining, Function.update_self]
  have hfired : t.fired d = false := by rw [h.fired, hidle.fired]
  have htimer : t.timer d = true := by rw [h.timer, Function.update_self]
  constructor
  · intro i
    rw [h.live, hremaining]
    simp [hidle.live (.allElement d i) rfl]
  · exact iff_of_true (hpending (.all d) rfl (by simp)) (by rwa [hremaining])
  · exact iff_of_true (hpending (.allDone d) rfl (by simp)) ((h.live _).mpr (by simp))
  · exact fun _ => hpending (.allDone d) rfl (by simp)
  · exact Or.inl ((h.live _).mpr (by simp))
  · exact Or.inl ((h.live _).mpr (by simp))
  · exact fun hnot => absurd (hpending (.race d) rfl (by simp)) hnot
  · exact iff_of_true (h.pending.mpr hdrain) ((h.live _).mpr (by simp))
  · exact fun _ => h.pending.mpr hdrain
  · exact iff_of_true (hpending (.deadline d) rfl (by simp)) hfired
  · exact iff_of_true htimer ⟨h.pending.mpr hdrain, hfired⟩

omit [DecidableEq ι] in
theorem Called.sameDrain {timeoutMs : JsNumber} (h : Called s d timeoutMs t) (hd : d' ≠ d) :
    SameDrain s t d' where
  live k hk := by
    rw [h.live]
    cases k with
    | recordCatch i => exact absurd hk id
    | recordResume i => exact absurd hk id
    | _ =>
      obtain rfl := hk
      simp [hd]
  pending p _ := h.pending
  call := by rw [h.call, Function.update_of_ne hd]
  remaining := by rw [h.remaining, Function.update_of_ne hd]
  timer := by rw [h.timer, Function.update_of_ne hd]
  fired := by rw [h.fired]

/-- A call of `drain` with nothing in flight is over at once. -/
theorem idle_startDrain {timeoutMs : JsNumber} (hwf : s.loop.WellFormed src) (hidle : Idle s d)
    (hempty : s.inFlight = []) : Idle (s.startDrain d timeoutMs) d := by
  simp only [State.startDrain, if_pos hempty]
  refine ⟨fun k hk hlive => ?_, fun p hp hne => ?_, hidle.remaining, hidle.timer, hidle.fired⟩
  · exact hidle.live k hk ((State.live_settle hwf).mp hlive)
  · exact State.pending_settle.mpr ⟨hne, hidle.pending p hp hne⟩

/-- The deadline of a race. -/
theorem Racing.fire (h : Racing s d) (hwf : s.loop.WellFormed src) : Racing (s.fire d) d := by
  have hlive : ∀ k, (s.fire d).Live k ↔ s.Live k := fun k => Loop.live_settle hwf
  have hremaining : (s.fire d).remaining = s.remaining := rfl
  have hpending : ∀ p, (s.fire d).Pending p ↔ p ≠ .deadline d ∧ s.Pending p :=
    fun p => State.pending_settle
  have hfired : (s.fire d).fired d = true := Function.update_self ..
  have htimer : (s.fire d).timer d = false := Function.update_self ..
  constructor
  · intro i
    exact (hlive _).trans (h.element i)
  · rw [hpending, hremaining]
    simpa using h.all
  · rw [hpending, hlive]
    simpa using h.allDone
  · rw [hpending, hpending]
    simpa using h.order
  · rw [hpending, hlive]
    simpa using h.raceAll
  · rw [hpending, hlive]
    simpa using h.raceDeadline
  · exact fun _ => Or.inr hfired
  · rw [hpending, hlive]
    simpa using h.drain
  · rw [hpending, hpending]
    simpa using h.awaits
  · simp [hpending, hfired]
  · simp [htimer, hfired]

/-! ## What a race waits for -/

/-- A call of `drain` waits for what was in flight then. Each such call of `record` is subscribed to
the write before the race is, so it is over by the time the race has seen the write settle. -/
structure Snapshot (s : State ι δ) (d : δ) (c : DrainCall ι) : Prop where
  started : ∀ i ∈ c.started, i ∈ s.started
  pending : ∀ i ∈ c.pending, i ∈ c.started
  waits : ∀ i ∈ c.pending, i ∈ s.remaining d ∨ ¬ s.Live (.recordResume i)
  remaining : ∀ i ∈ s.remaining d, i ∈ c.pending
  inFlight : ∀ i ∈ s.inFlight, i ∈ c.started → i ∈ c.pending
  order : ∀ i ∈ c.pending, s.loop.Precedes (.guarded i) (.recordResume i) (.allElement d i)

variable {c : DrainCall ι}

omit [DecidableEq ι] [DecidableEq δ] in
theorem Snapshot.congr (h : Snapshot s d c) (hstarted : ∀ i ∈ s.started, i ∈ t.started)
    (hremaining : t.remaining d = s.remaining d)
    (hlive : ∀ i ∈ s.started, t.Live (.recordResume i) → s.Live (.recordResume i))
    (hinFlight : ∀ i ∈ s.started, i ∈ t.inFlight → i ∈ s.inFlight)
    (horder : ∀ i ∈ s.started, s.loop.Precedes (.guarded i) (.recordResume i) (.allElement d i) →
      t.loop.Precedes (.guarded i) (.recordResume i) (.allElement d i)) : Snapshot t d c where
  started i hi := hstarted i (h.started i hi)
  pending := h.pending
  waits i hi := by
    rw [hremaining]
    exact (h.waits i hi).imp_right fun hnot hlive' =>
      hnot (hlive i (h.started i (h.pending i hi)) hlive')
  remaining := by
    rw [hremaining]
    exact h.remaining
  inFlight i hi hmem := h.inFlight i (hinFlight i (h.started i hmem) hi) hmem
  order i hi := horder i (h.started i (h.pending i hi)) (h.order i hi)

omit [DecidableEq ι] in
theorem Called.snapshot {timeoutMs : JsNumber} (h : Called s d timeoutMs t) (hidle : Idle s d)
    (hsub : ∀ i ∈ s.inFlight, i ∈ s.started) :
    Snapshot t d ⟨timeoutMs, s.inFlight, s.started⟩ where
  started i hi := by rwa [h.started]
  pending := hsub
  waits i hi := by
    rw [h.remaining, Function.update_self]
    exact Or.inl hi
  remaining i hi := by rwa [h.remaining, Function.update_self] at hi
  inFlight i hi _ := by rwa [h.inFlight] at hi
  order i _ := by
    apply h.precedes _ _ _ rfl
    exact Loop.precedes_of_not_live rfl (hidle.live (.allElement d i) rfl)

/-- **What a microtask does to what a race waits for**: an element is taken off once the call of
`record` is over. -/
theorem Snapshot.resumed (h : Snapshot s d c) (hstep : Resumed s k t)
    (horder : ∀ i ∈ c.pending, t.loop.Precedes (.guarded i) (.recordResume i) (.allElement d i))
    (hfirst : ∀ i ∈ c.pending, k = .allElement d i → ¬ s.Live (.recordResume i)) :
    Snapshot t d c where
  started i hi := by
    rw [hstep.started]
    exact h.started i hi
  pending := h.pending
  waits i hi := by
    by_cases hk : k = .allElement d i
    · refine Or.inr fun hlive => hfirst i hi hk ((hstep.live _).mp hlive).2
    · rw [hstep.remaining, List.mem_filter, decide_eq_true_iff, hstep.live]
      exact (h.waits i hi).imp (fun hmem => ⟨hmem, hk⟩) fun hnot hlive => hnot hlive.2
  remaining i hi := by
    rw [hstep.remaining] at hi
    exact h.remaining i (List.mem_of_mem_filter hi)
  inFlight i hi := by
    rw [hstep.inFlight] at hi
    exact h.inFlight i (List.mem_of_mem_filter hi)
  order := horder

/-! ## What a step preserves -/

theorem fulfills_settle (h : Fulfills s) (hr : (∀ i, p ≠ .write i) → r = .fulfilled ()) :
    Fulfills (s.settle p r) := by
  intro q r' hq hset
  rcases Loop.settled_of_settled_settle hset with hset | ⟨rfl, rfl⟩
  · exact h q r' hq hset
  · exact hr hq

omit [DecidableEq ι] [DecidableEq δ] in
theorem Fulfills.congr (h : Fulfills s) (hsettled : t.loop.settled = s.loop.settled) :
    Fulfills t := by
  intro q r' hq hset
  rw [hsettled] at hset
  exact h q r' hq hset

/-- What holds in every state of a run. -/
structure Inv (s : State ι δ) : Prop where
  wellFormed : s.loop.WellFormed src
  fulfills : Fulfills s
  nodup : s.started.Nodup
  inFlight : s.inFlight = s.started.filter fun i => (s.loop.settled (.record i)).isNone
  record : ∀ i, RecordInv s i
  drain : ∀ d, DrainInv s d
  snapshot : ∀ d c, s.call d = some c → Snapshot s d c
  finite : {k | s.Live k}.Finite

omit [DecidableEq ι] [DecidableEq δ] in
theorem inv_start : Inv (State.start : State ι δ) where
  wellFormed := Loop.wellFormed_start
  fulfills _ _ _ hset := by cases hset
  nodup := List.nodup_nil
  inFlight := rfl
  record i :=
    { fresh := fun _ => ⟨Loop.not_live_start, Loop.not_live_start, rfl, rfl⟩
      guarded := fun hi => absurd hi List.not_mem_nil
      record := fun hi => absurd hi List.not_mem_nil
      write := fun _ => rfl
      settles := fun _ => rfl }
  drain d :=
    { uncalled := fun _ => ⟨⟨fun _ _ => Loop.not_live_start, fun _ _ _ => rfl, rfl, rfl, rfl⟩, rfl⟩
      empty := fun _ hcall => by cases hcall
      racing := fun _ hcall => by cases hcall }
  snapshot _ _ hcall := by cases hcall
  finite := by
    have hnone : {k | (State.start : State ι δ).Live k} = ∅ :=
      Set.eq_empty_of_forall_notMem fun _ => Loop.not_live_start
    rw [hnone]
    exact Set.finite_empty

theorem Inv.startRecord (h : Inv s) (hfresh : i ∉ s.started) : Inv (s.startRecord i) := by
  obtain ⟨hcatch, hresume, hguarded, hrecord⟩ := (h.record i).fresh hfresh
  have hlive : ∀ k, (s.startRecord i).Live k ↔ _ := fun k => State.live_startRecord
  have hsettled : (s.startRecord i).loop.settled = s.loop.settled := State.settled_startRecord
  have hpending : ∀ p, (s.startRecord i).Pending p ↔ s.Pending p := fun p => by
    rw [State.Pending, State.Pending, hsettled]
  have hstarted : (s.startRecord i).started = s.started ++ [i] := rfl
  constructor
  · exact State.wellFormed_startRecord h.wellFormed hcatch hresume
  · exact h.fulfills.congr hsettled
  · rw [hstarted]
    exact List.nodup_append.mpr ⟨h.nodup, List.nodup_singleton i, fun j hj _ hi hji =>
      hfresh (List.mem_singleton.mp hi ▸ hji ▸ hj)⟩
  · have hnone : (s.loop.settled (.record i)).isNone = true := by
      rw [Option.isNone_iff_eq_none]
      exact hrecord
    rw [hsettled, hstarted, List.filter_append, ← h.inFlight, List.filter_singleton, hnone]
    rfl
  · intro j
    by_cases hj : j = i
    · -- the call that starts
      subst hj
      constructor
      · simp [hstarted]
      · simp [hpending, hlive, hguarded]
      · simp [hpending, hlive, hrecord]
      · rw [hpending, hpending]
        exact (h.record j).write
      · rw [hpending, hpending]
        exact (h.record j).settles
    · apply (h.record j).congr
      · simp [hstarted, hj]
      · simp [hlive, hj]
      · simp [hlive, hj]
      · exact (hpending _).mp
      · exact hpending _
      · exact hpending _
  · intro d
    refine (h.drain d).congr ⟨fun k hk => ?_, fun p _ => hpending p, rfl, rfl, rfl, rfl⟩
    cases k with
    | recordCatch j => exact absurd hk id
    | recordResume j => exact absurd hk id
    | _ => simp [hlive]
  · intro d c hcall
    apply (h.snapshot d c hcall).congr
    · intro j hj
      rw [hstarted]
      exact List.mem_append_left _ hj
    · rfl
    · intro j hj
      have hne : j ≠ i := fun hji => hfresh (hji ▸ hj)
      simp [hlive, hne]
    · intro j hj hmem
      have hne : j ≠ i := fun hji => hfresh (hji ▸ hj)
      simpa [State.startRecord, hne] using hmem
    · intro j hj horder
      exact State.precedes_startRecord horder rfl fun hij => hfresh (hij ▸ hj)
  · apply ((h.finite.insert (.recordCatch i)).insert (.recordResume i)).subset
    intro k hk
    simpa [hlive] using hk

section Settles

variable (hloop : t.loop = s.loop.settle p r)

include hloop

theorem live_of_settles (hwf : s.loop.WellFormed src) : t.Live k ↔ s.Live k := by
  rw [State.Live, hloop]
  exact Loop.live_settle hwf

theorem pending_of_settles : t.Pending q ↔ q ≠ p ∧ s.Pending q := by
  rw [State.Pending, hloop]
  exact State.pending_settle

theorem sameDrain_of_settles (hwf : s.loop.WellFormed src) (hp : ¬ p.IsOf d)
    (hcall : t.call d = s.call d) (hremaining : t.remaining d = s.remaining d)
    (htimer : t.timer d = s.timer d) (hfired : t.fired d = s.fired d) : SameDrain s t d := by
  refine ⟨fun k _ => live_of_settles hloop hwf, fun q hq => ?_, hcall, hremaining, htimer, hfired⟩
  rw [pending_of_settles hloop]
  refine and_iff_right ?_
  rintro rfl
  exact hp hq

theorem Snapshot.settles (h : Snapshot s d c) (hwf : s.loop.WellFormed src)
    (hstarted : t.started = s.started) (hinFlight : t.inFlight = s.inFlight)
    (hremaining : t.remaining d = s.remaining d) : Snapshot t d c := by
  apply h.congr
  · rw [hstarted]
    exact fun _ => id
  · exact hremaining
  · exact fun i _ => (live_of_settles hloop hwf).mp
  · rw [hinFlight]
    exact fun _ _ => id
  · intro i _ horder
    rw [hloop]
    exact horder.settle hwf rfl rfl

/-- A promise of a write or of a call of `drain` settles. -/
theorem Inv.settles (h : Inv s) (hr : (∀ i, p ≠ .write i) → r = .fulfilled ())
    (hguarded : ∀ i, p ≠ .guarded i) (hrecord : ∀ i, p ≠ .record i)
    (hstarted : t.started = s.started) (hinFlight : t.inFlight = s.inFlight)
    (hdrain : ∀ d, DrainInv t d) (hsnapshot : ∀ d c, t.call d = some c → Snapshot t d c) :
    Inv t := by
  constructor
  · rw [hloop]
    exact h.wellFormed.settle
  · exact (fulfills_settle h.fulfills hr).congr (congrArg _ hloop)
  · rw [hstarted]
    exact h.nodup
  · have hsettled : ∀ i, t.loop.settled (.record i) = s.loop.settled (.record i) := fun i => by
      rw [hloop, Loop.settled_settle_of_ne (hrecord i).symm]
    simp only [hsettled, hstarted, hinFlight]
    exact h.inFlight
  · intro i
    apply (h.record i).congr
    · rw [hstarted]
    · exact live_of_settles hloop h.wellFormed
    · exact live_of_settles hloop h.wellFormed
    · exact fun hw => ((pending_of_settles hloop).mp hw).2
    · exact (pending_of_settles hloop).trans (and_iff_right (hguarded i).symm)
    · exact (pending_of_settles hloop).trans (and_iff_right (hrecord i).symm)
  · exact hdrain
  · exact hsnapshot
  · simp only [live_of_settles hloop h.wellFormed]
    exact h.finite

end Settles

theorem Inv.write (h : Inv s) : Inv (s.settle (.write i) r) := by
  have hloop : (s.settle (.write i) r).loop = s.loop.settle (.write i) r := rfl
  apply h.settles hloop (fun hnot => absurd rfl (hnot i)) (by simp) (by simp) rfl rfl
  · intro d
    exact (h.drain d).congr (sameDrain_of_settles hloop h.wellFormed id rfl rfl rfl rfl)
  · intro d c hcall
    exact (h.snapshot d c hcall).settles hloop h.wellFormed rfl rfl rfl

/-- The timer that fires is the one of a race. -/
theorem Inv.fire (h : Inv s) (harmed : s.timer d = true) : Inv (s.fire d) := by
  have hloop : (s.fire d).loop = s.loop.settle (.deadline d) (.fulfilled ()) := rfl
  apply h.settles hloop (fun _ => rfl) (by simp) (by simp) rfl rfl
  · intro d'
    by_cases hd : d' = d
    · subst hd
      have harmed' : ¬ Idle s d' := fun hidle => by
        rw [hidle.timer] at harmed
        cases harmed
      refine ⟨fun hnone => ?_, fun c hcall hempty => ?_, fun c hcall hne => ?_⟩
      · exact absurd ((h.drain d').uncalled hnone).1 harmed'
      · exact absurd ((h.drain d').empty c hcall hempty).1 harmed'
      · exact ((h.drain d').racing c hcall hne).fire h.wellFormed
    · exact (h.drain d').congr (sameDrain_of_settles hloop h.wellFormed (Ne.symm hd) rfl rfl
        (Function.update_of_ne hd ..) (Function.update_of_ne hd ..))
  · intro d' c hcall
    exact (h.snapshot d' c hcall).settles hloop h.wellFormed rfl rfl rfl

omit [DecidableEq ι] [DecidableEq δ] in
/-- The calls in flight are among those that were made. -/
theorem Inv.mem_started (h : Inv s) (hi : i ∈ s.inFlight) : i ∈ s.started := by
  rw [h.inFlight] at hi
  exact List.mem_of_mem_filter hi

theorem Inv.startDrain {timeoutMs : JsNumber} (h : Inv s) (hfresh : s.call d = none) :
    Inv (s.startDrain d timeoutMs) := by
  obtain ⟨hidle, hdrain⟩ := (h.drain d).uncalled hfresh
  by_cases hempty : s.inFlight = []
  · -- nothing is in flight, so the call is over
    have hidle' : Idle (s.startDrain d timeoutMs) d := idle_startDrain h.wellFormed hidle hempty
    obtain ⟨hloop, hcall, hstarted, hinFlight, hremaining, htimer, hfired⟩ :
        (s.startDrain d timeoutMs).loop = s.loop.settle (.drain d) (.fulfilled ()) ∧
        (s.startDrain d timeoutMs).call =
          Function.update s.call d (some ⟨timeoutMs, s.inFlight, s.started⟩) ∧
        (s.startDrain d timeoutMs).started = s.started ∧
        (s.startDrain d timeoutMs).inFlight = s.inFlight ∧
        (s.startDrain d timeoutMs).remaining = s.remaining ∧
        (s.startDrain d timeoutMs).timer = s.timer ∧
        (s.startDrain d timeoutMs).fired = s.fired := by
      simp only [State.startDrain, if_pos hempty]
      exact ⟨rfl, rfl, rfl, rfl, rfl, rfl, rfl⟩
    generalize s.startDrain d timeoutMs = t at *
    apply h.settles hloop (fun _ => rfl) (by simp) (by simp) hstarted hinFlight
    · intro d'
      by_cases hd : d' = d
      · subst hd
        have hover : ¬ t.Pending (.drain d') := fun hp => ((pending_of_settles hloop).mp hp).1 rfl
        refine ⟨fun hnone => ?_, fun _ _ _ => ⟨hidle', hover⟩, fun c hc hne => ?_⟩
        · rw [hcall, Function.update_self] at hnone
          cases hnone
        · rw [hcall, Function.update_self] at hc
          obtain rfl := Option.some.inj hc
          exact absurd hempty hne
      · exact (h.drain d').congr (sameDrain_of_settles hloop h.wellFormed (Ne.symm hd)
          (by rw [hcall, Function.update_of_ne hd]) (by rw [hremaining]) (by rw [htimer])
          (by rw [hfired]))
    · intro d' c hc
      rw [hcall] at hc
      by_cases hd : d' = d
      · subst hd
        rw [Function.update_self] at hc
        obtain rfl := Option.some.inj hc
        constructor
        · rw [hstarted]
          exact fun _ => id
        · exact fun i => h.mem_started
        · simp [hempty]
        · simp [hidle'.remaining]
        · rw [hinFlight]
          exact fun i hi _ => hi
        · simp [hempty]
      · rw [Function.update_of_ne hd] at hc
        exact (h.snapshot d' c hc).settles hloop h.wellFormed hstarted hinFlight
          (by rw [hremaining])
  · have hcalled : Called s d timeoutMs (s.startDrain d timeoutMs) :=
      called_startDrain h.wellFormed hidle (h.inFlight ▸ h.nodup.filter _) hempty
    generalize s.startDrain d timeoutMs = t at hcalled
    constructor
    · exact hcalled.wellFormed
    · exact h.fulfills.congr hcalled.settled
    · rw [hcalled.started]
      exact h.nodup
    · rw [hcalled.settled, hcalled.started, hcalled.inFlight]
      exact h.inFlight
    · intro i
      apply (h.record i).congr
      · rw [hcalled.started]
      · simp [hcalled.live]
      · simp [hcalled.live]
      · exact hcalled.pending.mp
      · exact hcalled.pending
      · exact hcalled.pending
    · intro d'
      by_cases hd : d' = d
      · subst hd
        have hcall : t.call d' = some ⟨timeoutMs, s.inFlight, s.started⟩ := by
          rw [hcalled.call, Function.update_self]
        have hracing : Racing t d' := hcalled.racing hidle hdrain hempty
        refine ⟨fun hnone => ?_, fun c hc hnil => ?_, fun _ _ _ => hracing⟩
        · rw [hcall] at hnone
          cases hnone
        · rw [hcall] at hc
          obtain rfl := Option.some.inj hc
          exact absurd hnil hempty
      · exact (h.drain d').congr (hcalled.sameDrain hd)
    · intro d' c hcall
      rw [hcalled.call] at hcall
      by_cases hd : d' = d
      · subst hd
        rw [Function.update_self] at hcall
        obtain rfl := Option.some.inj hcall
        exact hcalled.snapshot hidle fun i => h.mem_started
      · rw [Function.update_of_ne hd] at hcall
        have hsame := hcalled.sameDrain hd
        apply (h.snapshot d' c hcall).congr
        · rw [hcalled.started]
          exact fun _ => id
        · exact hsame.remaining
        · simp [hcalled.live]
        · rw [hcalled.inFlight]
          exact fun _ _ => id
        · exact fun i _ horder => hcalled.precedes _ _ _ rfl horder
    · have hfinite : ((fun i => Reaction.allElement d i) '' {i | i ∈ s.inFlight}).Finite :=
        (List.finite_toSet s.inFlight).image _
      apply ((((hfinite.union h.finite).insert (.allThen d)).insert (.raceAll d)).insert
        (.raceDeadline d) |>.insert (.drainResume d)).subset
      intro k hk
      have := (hcalled.live k).mp hk
      simpa [eq_comm] using this

omit [DecidableEq ι] [DecidableEq δ] in
/-- Only the continuation of a write sees a rejection. -/
theorem Inv.fulfilled_of_pop (h : Inv s) (hpop : s.loop.pop = some ((k, r), loop))
    (hk : ∀ i, k ≠ .recordCatch i) : r = .fulfilled () := by
  apply h.fulfills (src k) r _ (h.wellFormed.settled_of_pop hpop)
  cases k with
  | recordCatch i => exact absurd rfl (hk i)
  | _ => simp [src]

theorem Inv.resume (h : Inv s) (hpop : s.loop.pop = some ((k, r), loop)) :
    Inv (resume { s with loop } k r) := by
  have hr : (∀ i, k ≠ .recordCatch i) → r = .fulfilled () := h.fulfilled_of_pop hpop
  have hstep := resumed_of_pop h.wellFormed hr hpop
  have hloop := loop_resume (s := { s with loop }) hr
  have hwf : loop.WellFormed src := h.wellFormed.pop hpop
  have hsettled : loop.settled = s.loop.settled := Loop.settled_pop hpop
  generalize Drain.resume { s with loop } k r = t at hstep hloop
  constructor
  · rcases hloop with hloop | hloop
    · rw [hloop]
      exact hwf
    · rw [hloop]
      exact hwf.settle
  · have hfulfills : Fulfills { s with loop } := h.fulfills.congr hsettled
    rcases hloop with hloop | hloop
    · exact hfulfills.congr (congrArg _ hloop)
    · exact (fulfills_settle hfulfills fun _ => rfl).congr (congrArg _ hloop)
  · rw [hstep.started]
    exact h.nodup
  · -- the call of `record` that is over is taken off, and settles
    rw [hstep.started, hstep.inFlight, h.inFlight, List.filter_filter]
    apply List.filter_congr
    intro i _
    rw [Bool.eq_iff_iff, Bool.and_eq_true, decide_eq_true_iff, Option.isNone_iff_eq_none,
      Option.isNone_iff_eq_none]
    by_cases hk : k = .recordResume i
    · subst hk
      exact iff_of_false (fun hboth => hboth.1 rfl) (hstep.settles (by simp))
    · have hkeeps : t.Pending (.record i) ↔ s.Pending (.record i) :=
        hstep.keeps _ (by cases k <;> simp_all [target, eq_comm])
      exact (and_iff_right hk).trans hkeeps.symm
  · exact fun i => (h.record i).resumed hstep
  · exact fun d => (h.drain d).resumed hstep
  · intro d c hcall
    rw [hstep.call] at hcall
    have hsnapshot := h.snapshot d c hcall
    apply hsnapshot.resumed hstep
    · intro i hi
      have horder := (hsnapshot.order i hi).pop hpop
      rcases hloop with hloop | hloop
      · rwa [hloop]
      · rw [hloop]
        exact horder.settle hwf rfl rfl
    · rintro i hi rfl
      exact (hsnapshot.order i hi).not_live_of_pop h.wellFormed rfl rfl (by simp) hpop
  · apply h.finite.subset
    intro k' hk'
    exact ((hstep.live k').mp hk').2

/-- **What a step preserves**: one case for each event. -/
theorem inv_step {e : Event ι δ} (h : Inv s) (hstep : machine.step s e = some t) : Inv t := by
  cases step_cases hstep with
  | record i hfresh => exact h.startRecord hfresh
  | write i r _ => exact h.write
  | drain d timeoutMs hfresh => exact h.startDrain hfresh
  | timer d harmed => exact h.fire harmed
  | microtask k r loop hpop => exact h.resume hpop

/-- **What holds in every state of a run.** -/
theorem inv_run {es : List (Event ι δ)} (hs : Inv s) (hrun : machine.run s es = some t) : Inv t :=
  Machine.run_invariant (G := fun _ _ => True) (fun _ _ _ h _ => inv_step h) hs
    Machine.stepsMeet_true hrun

/-- A call of `drain` is never forgotten. -/
theorem call_run {es : List (Event ι δ)} (hs : s.call d = some c)
    (hrun : machine.run s es = some t) : t.call d = some c := by
  apply Machine.run_invariant (G := fun _ _ => True) (I := fun s : State ι δ => s.call d = some c) _
    hs Machine.stepsMeet_true hrun
  intro s e t hcall _ hstep
  cases step_cases hstep with
  | record i _ => exact hcall
  | write i r _ => exact hcall
  | drain d' timeoutMs hfresh =>
    have hd : d ≠ d' := by
      rintro rfl
      rw [hfresh] at hcall
      cases hcall
    rw [State.call_startDrain, Function.update_of_ne hd, hcall]
  | timer d _ => exact hcall
  | microtask k r loop _ => rw [frame_resume.2.1, hcall]

/-- The calls of `record` are those of the events. -/
theorem started_run {es : List (Event ι δ)} (hrun : machine.run s es = some t) :
    t.started = s.started ++ es.filterMap Event.recorded := by
  -- Induction on the events.
  induction es generalizing s with
  | nil =>
    obtain rfl : s = t := Option.some.inj hrun
    exact (List.append_nil _).symm
  | cons e es ih =>
    obtain ⟨u, hstep, hrun⟩ := Machine.run_cons.mp hrun
    rw [ih hrun]
    cases step_cases hstep with
    | record i _ => exact (List.append_assoc ..).trans rfl
    | write i r _ => rfl
    | drain d timeoutMs _ => rw [State.started_startDrain]; rfl
    | timer d _ => rfl
    | microtask k r loop _ => rw [frame_resume.1]; rfl

/-- The deadlines that have fired are those of the events. -/
theorem fired_run {es : List (Event ι δ)} (hrun : machine.run s es = some t) :
    t.fired d = true ↔ s.fired d = true ∨ Event.timer d ∈ es := by
  -- Induction on the events.
  induction es generalizing s with
  | nil =>
    obtain rfl : s = t := Option.some.inj hrun
    simp
  | cons e es ih =>
    obtain ⟨u, hstep, hrun⟩ := Machine.run_cons.mp hrun
    rw [ih hrun, List.mem_cons]
    cases step_cases hstep with
    | record i _ => simp [State.startRecord, State.subscribe]
    | write i r _ => simp [State.settle]
    | drain d' timeoutMs _ => simp
    | timer d' _ =>
      by_cases hd : d = d'
      · subst hd
        simp [State.fire, State.settle]
      · simp [State.fire, State.settle, hd]
    | microtask k r loop _ => simp [frame_resume.2.2]

/-! ## What `drain` waits for -/

omit [DecidableEq ι] [DecidableEq δ] in
/-- The calls that a call of `drain` waited for are over when it is, before the deadline. -/
theorem Inv.not_pending_record (h : Inv t) (hcall : t.call d = some c)
    (hover : ¬ t.Pending (.drain d)) (hfired : t.fired d = false) (hi : i ∈ c.pending) :
    ¬ t.Pending (.record i) := by
  have hracing := (h.drain d).racing c hcall (List.ne_nil_of_mem hi)
  have hsnapshot := h.snapshot d c hcall
  have hrace : ¬ t.Pending (.race d) := mt hracing.awaits hover
  have hdone : ¬ t.Pending (.allDone d) := (hracing.race hrace).resolve_right (by simp [hfired])
  have hall : ¬ t.Pending (.all d) := mt hracing.order hdone
  have hremaining : t.remaining d = [] := by
    by_contra hne
    exact hall (hracing.all.mpr hne)
  have hnot : ¬ t.Live (.recordResume i) :=
    (hsnapshot.waits i hi).resolve_left (by simp [hremaining])
  exact mt ((h.record i).record (hsnapshot.started i (hsnapshot.pending i hi))).mp hnot

omit [DecidableEq ι] [DecidableEq δ] in
/-- Once no microtask is left, a call of `drain` is over where its deadline is, or every write that
it waits for has settled. -/
theorem Inv.not_pending_drain (h : Inv t) (hcall : t.call d = some c) (hqueue : t.loop.queue = [])
    (hover : t.fired d = true ∨ ∀ i ∈ c.pending, ¬ t.Pending (.write i)) :
    ¬ t.Pending (.drain d) := by
  by_cases hempty : c.pending = []
  · exact ((h.drain d).empty c hcall hempty).2
  · intro hdrain
    have hracing := (h.drain d).racing c hcall hempty
    have hsnapshot := h.snapshot d c hcall
    have hwaits : ∀ k, t.Live k → t.Pending (src k) :=
      fun k => h.wellFormed.pending_of_live hqueue
    -- the call waits for the race, and the race for all and for the deadline
    have hrace : t.Pending (.race d) := hwaits _ (hracing.drain.mp hdrain)
    have hraceAll := hracing.raceAll.resolve_right (not_not.mpr hrace)
    have hdone : t.Pending (.allDone d) := hwaits _ hraceAll
    have hall : t.Pending (.all d) := hwaits _ (hracing.allDone.mp hdone)
    have hraceDeadline := hracing.raceDeadline.resolve_right (not_not.mpr hrace)
    have hfired : t.fired d = false := hracing.deadline.mp (hwaits _ hraceDeadline)
    -- so it waits for an element, and that for its write
    obtain ⟨i, hi⟩ := List.exists_mem_of_ne_nil _ (hracing.all.mp hall)
    have hmem : i ∈ c.pending := hsnapshot.remaining i hi
    have hguarded : t.Pending (.guarded i) := hwaits _ ((hracing.element i).mpr hi)
    have hstarted : i ∈ t.started := hsnapshot.started i (hsnapshot.pending i hmem)
    have hwrite : t.Pending (.write i) := hwaits _ (((h.record i).guarded hstarted).mp hguarded)
    rcases hover with hfired' | hover
    · rw [hfired] at hfired'
      cases hfired'
    · exact hover i hmem hwrite

omit [DecidableEq ι] [DecidableEq δ] in
/-- No timer outlives its call of `drain`. -/
theorem Inv.timer_eq_false (h : Inv t) (hcall : t.call d = some c)
    (hover : ¬ t.Pending (.drain d)) : t.timer d = false := by
  by_cases hempty : c.pending = []
  · exact ((h.drain d).empty c hcall hempty).1.timer
  · have hracing := (h.drain d).racing c hcall hempty
    by_contra htimer
    rw [Bool.not_eq_false] at htimer
    exact hover (hracing.timer.mp htimer).1

omit [DecidableEq ι] [DecidableEq δ] in
/-- A call of `drain` that is pending has its timer armed until that fires. -/
theorem Inv.timer_eq_true (h : Inv t) (hcall : t.call d = some c) (hpending : t.Pending (.drain d))
    (hfired : t.fired d = false) : t.timer d = true := by
  by_cases hempty : c.pending = []
  · exact absurd hpending ((h.drain d).empty c hcall hempty).2
  · exact ((h.drain d).racing c hcall hempty).timer.mpr ⟨hpending, hfired⟩

/-- A microtask leaves fewer continuations that are live. -/
theorem Inv.exists_microtask (h : Inv s) {ks : Finset (Reaction ι δ)} (hks : ∀ k, s.Live k → k ∈ ks)
    (hqueue : s.loop.queue ≠ []) : ∃ t, machine.step s .microtask = some t ∧
      (Inv t ∧ ∀ k, t.Live k → k ∈ ks) ∧ t.loop.liveCount src ks < s.loop.liveCount src ks := by
  obtain ⟨⟨k, r⟩, rest, hrest⟩ := List.exists_cons_of_ne_nil hqueue
  have hpop : s.loop.pop = some ((k, r), { s.loop with queue := rest }) :=
    Loop.pop_eq_some.mpr ⟨rest, hrest, rfl⟩
  generalize { s.loop with queue := rest } = loop at hpop
  have hstep : machine.step s .microtask = some (Drain.resume { s with loop } k r) := by
    simp only [machine, hpop, Option.map_some]
  have hr : (∀ i, k ≠ .recordCatch i) → r = .fulfilled () := h.fulfilled_of_pop hpop
  have hresumed := resumed_of_pop h.wellFormed hr hpop
  have hlt : loop.liveCount src ks < s.loop.liveCount src ks :=
    Loop.liveCount_pop_lt h.wellFormed hpop (hks k (Loop.live_of_pop hpop))
  refine ⟨_, hstep, ⟨h.resume hpop, fun k' hk' => hks k' ((hresumed.live k').mp hk').2⟩, ?_⟩
  rcases loop_resume (s := { s with loop }) hr with hloop | hloop
  · rwa [hloop]
  · rwa [hloop, Loop.liveCount_settle (h.wellFormed.pop hpop)]

/-- The microtasks of a state run until none is left. -/
theorem Inv.exists_quiet (h : Inv t) :
    ∃ n u, machine.run t (List.replicate n .microtask) = some u ∧ u.loop.queue = [] := by
  have hlive : ∀ k, t.Live k → k ∈ h.finite.toFinset := fun k hk => by simpa using hk
  have hstep : ∀ u : State ι δ, (Inv u ∧ ∀ k, u.Live k → k ∈ h.finite.toFinset) →
      ¬ u.loop.queue = [] → ∃ v, machine.step u .microtask = some v ∧
        (Inv v ∧ ∀ k, v.Live k → k ∈ h.finite.toFinset) ∧
          v.loop.liveCount src h.finite.toFinset < u.loop.liveCount src h.finite.toFinset :=
    fun u hu hqueue => hu.1.exists_microtask hu.2 hqueue
  obtain ⟨n, u, hrun, -, hqueue⟩ := Machine.exists_run_replicate _ hstep ⟨h, hlive⟩
  exact ⟨n, u, hrun, hqueue⟩

/-- A call of `record` is in flight: it was made, and has not settled. -/
def InFlight (es : List (Event ι δ)) (s : State ι δ) (i : ι) : Prop :=
  .record i ∈ es ∧ s.Pending (.record i)

/-- What `drain` takes for in flight is. -/
theorem mem_inFlight_iff {es : List (Event ι δ)} (hrun : machine.run State.start es = some t)
    {i : ι} : i ∈ t.inFlight ↔ InFlight es t i := by
  have h : Inv t := inv_run inv_start hrun
  have hall : t.started = es.filterMap Event.recorded := (started_run hrun).trans rfl
  rw [h.inFlight, hall, List.mem_filter, List.mem_filterMap]
  refine and_congr ⟨?_, fun hi => ⟨_, hi, rfl⟩⟩ (by simp [State.Pending])
  rintro ⟨e, he, hrecorded⟩
  cases e with
  | record j =>
    obtain rfl := Option.some.inj hrecorded
    exact he
  | _ => cases hrecorded

/-- **Drain waits for what was in flight, or for its deadline.** After every run, `pending()` is the
number of calls of `record` that have not settled. A call of `drain` never rejects. It settles only
once the writes in flight at the call have settled or its timer has fired, and where either has
happened it has settled by the time the microtasks have run. Where the timer has not fired and no
further call of `record` was made, nothing is pending then. Until it settles its timer is armed,
unless that has fired, and afterwards no timer is left. -/
theorem drain_exact {es : List (Event ι δ)} (hrun : machine.run State.start es = some t) :
    t.pending = ((es.filterMap Event.recorded).filter fun i =>
      (t.loop.settled (.record i)).isNone).length ∧
    (∃ n u, machine.run t (List.replicate n .microtask) = some u ∧ u.loop.queue = []) ∧
    ∀ pre d timeoutMs post s, es = pre ++ .drain d timeoutMs :: post →
      machine.run State.start pre = some s →
      ¬ t.loop.Rejected (.drain d) ∧
      (¬ t.Pending (.drain d) →
        .timer d ∈ post ∨ ∀ i, InFlight pre s i → ¬ t.Pending (.write i)) ∧
      (t.loop.queue = [] → (.timer d ∈ post ∨ ∀ i, InFlight pre s i → ¬ t.Pending (.write i)) →
        ¬ t.Pending (.drain d)) ∧
      (¬ t.Pending (.drain d) → .timer d ∉ post → (∀ i, Event.record i ∉ post) →
        t.pending = 0) ∧
      (t.Pending (.drain d) → .timer d ∉ post → t.timer d = true) ∧
      (¬ t.Pending (.drain d) → t.timer d = false) := by
  have h : Inv t := inv_run inv_start hrun
  have hall : t.started = es.filterMap Event.recorded := (started_run hrun).trans rfl
  refine ⟨by rw [State.pending, h.inFlight, hall], h.exists_quiet, ?_⟩
  rintro pre d timeoutMs post s rfl hpre
  -- the call of `drain` is the one of the event
  obtain ⟨s', u, hs, hdrain, hpost⟩ := Machine.run_append_cons.mp hrun
  obtain rfl : s' = s := Option.some.inj (hs.symm.trans hpre)
  have hu : u.call d = some ⟨timeoutMs, s'.inFlight, s'.started⟩ ∧ u.started = s'.started ∧
      u.fired d = false := by
    cases step_cases hdrain with
    | drain d timeoutMs hfresh =>
      rw [State.call_startDrain, Function.update_self]
      refine ⟨rfl, State.started_startDrain, ?_⟩
      rw [State.fired_startDrain]
      exact (((inv_run inv_start hs).drain d).uncalled hfresh).1.fired
  have hcall : t.call d = some ⟨timeoutMs, s'.inFlight, s'.started⟩ := call_run hu.1 hpost
  have hfired : t.fired d = true ↔ .timer d ∈ post := by
    rw [fired_run hpost, hu.2.2]
    simp
  have hunfired : t.fired d = false ↔ .timer d ∉ post := by
    rw [← hfired, Bool.not_eq_true]
  refine ⟨?_, ?_, ?_, ?_, ?_, h.timer_eq_false hcall⟩
  · rintro ⟨error, hrejected⟩
    cases h.fulfills _ _ (by simp) hrejected
  · intro hover
    by_cases htimer : .timer d ∈ post
    · exact Or.inl htimer
    · refine Or.inr fun i hi hwrite => ?_
      have hrecord := h.not_pending_record hcall hover (hunfired.mpr htimer)
        ((mem_inFlight_iff hs).mpr hi)
      exact hrecord ((h.record i).settles ((h.record i).write hwrite))
  · intro hqueue hover
    exact h.not_pending_drain hcall hqueue
      (hover.imp hfired.mpr fun hsettled i hi => hsettled i ((mem_inFlight_iff hs).mp hi))
  · intro hover htimer hnone
    have hrecorded : post.filterMap Event.recorded = [] := by
      refine List.filterMap_eq_nil_iff.mpr fun e he => ?_
      cases e with
      | record i => exact absurd he (hnone i)
      | _ => rfl
    have hstarted : t.started = s'.started := by
      rw [started_run hpost, hrecorded, List.append_nil, hu.2.1]
    rw [State.pending, List.length_eq_zero_iff, List.eq_nil_iff_forall_not_mem]
    intro i hi
    have hmem : i ∈ s'.inFlight := by
      apply (h.snapshot d _ hcall).inFlight i hi
      rw [← hstarted]
      exact h.mem_started hi
    have hpending : t.Pending (.record i) := by
      rw [h.inFlight] at hi
      simpa [State.Pending] using (List.mem_filter.mp hi).2
    exact h.not_pending_record hcall hover (hunfired.mpr htimer) hmem hpending
  · intro hpending htimer
    exact h.timer_eq_true hcall hpending (hunfired.mpr htimer)

/-- One write is in flight when `drain` is called, and settles before the deadline. -/
def oneWrite (timeoutMs : JsNumber) : List (Event ℕ ℕ) :=
  [.record 0] ++ .drain 0 timeoutMs :: .write 0 (.fulfilled ()) :: List.replicate 6 .microtask

theorem drain_exact_oneWrite :
    ∃ t : State ℕ ℕ, machine.run .start (oneWrite (.ofNat 10000)) = some t ∧
      ¬ t.Pending (.drain 0) ∧ t.pending = 0 ∧ t.timer 0 = false := by
  have hrun : ((machine.run (State.start : State ℕ ℕ) (oneWrite (.ofNat 10000))).map fun t =>
      (t.loop.settled (.drain 0)).isSome) = some true := rfl
  obtain ⟨t, ht, hsome⟩ := Option.map_eq_some_iff.mp hrun
  have hsettled : ¬ t.Pending (.drain 0) := Option.isSome_iff_ne_none.mp hsome
  obtain ⟨-, -, h⟩ := drain_exact ht
  obtain ⟨-, -, -, hnone, -, htimer⟩ := h [.record 0] 0 (.ofNat 10000) _ _ rfl rfl
  exact ⟨t, ht, hsettled, hnone hsettled (by simp) (by simp), htimer hsettled⟩

end Drain

end QueueWorkerKit
