import QueueWorkerKit.Errors.Errors
import QueueWorkerKit.Library.EventLoop
import QueueWorkerKit.Library.Machine

/-!
# Draining the dead-letter writer

The `record`, `pending` and `drain` of `worker/dead-letter.ts`, as far as their promises go. A call
of `record` catches the rejection of its write, adds the promise to the ones in flight, and takes it
off once its await is over. `drain` races all that are in flight at the call with a deadline. Each
continuation is a microtask of its own, run in the order in which the promises they wait for
settled.

## Main definitions

* `Drain.Promise`, `Drain.Reaction`: the promises of both functions, and their continuations
* `Drain.State`, `Drain.machine`: the writer, and its runs
* `Drain.DrainCall`: what was in flight, and had been recorded, when `drain` was called
* `Drain.Resumed`: what a microtask does

## Main results

* `step_cases`: what each event does where it can happen
* `resumed_of_pop`: what a microtask does
* `State.live_startRace`, `State.wellFormed_startRace`: what the start of a race subscribes to
-/

namespace QueueWorkerKit

open Ecma EventDriven

namespace Drain

/-- The promises: of `write`, with its rejection caught, and of `record`, for each call of `record`;
of `Promise.all`, of the `then` on it, of the deadline, of the race, and of `drain`, for each call
of `drain`. -/
inductive Promise (ι δ : Type)
  | write (i : ι)
  | guarded (i : ι)
  | record (i : ι)
  | all (d : δ)
  | allDone (d : δ)
  | deadline (d : δ)
  | race (d : δ)
  | drain (d : δ)
  deriving DecidableEq

/-- The continuations: of the `catch` on the write and of the await in `record`; of the elements of
`Promise.all`, of the `then` on it, of the two entries of the race, and of the await in `drain`. -/
inductive Reaction (ι δ : Type)
  | recordCatch (i : ι)
  | recordResume (i : ι)
  | allElement (d : δ) (i : ι)
  | allThen (d : δ)
  | raceAll (d : δ)
  | raceDeadline (d : δ)
  | drainResume (d : δ)
  deriving DecidableEq

/-- How a promise of the writer is settled. -/
abbrev Settled := Settlement Unit Thrown

variable {ι δ : Type}

/-- The promise a continuation is subscribed to. -/
def src : Reaction ι δ → Promise ι δ
  | .recordCatch i => .write i
  | .recordResume i => .guarded i
  | .allElement _ i => .guarded i
  | .allThen d => .all d
  | .raceAll d => .allDone d
  | .raceDeadline d => .deadline d
  | .drainResume d => .race d

/-- The promise a continuation settles. -/
def target : Reaction ι δ → Promise ι δ
  | .recordCatch i => .guarded i
  | .recordResume i => .record i
  | .allElement d _ => .all d
  | .allThen d => .allDone d
  | .raceAll d => .race d
  | .raceDeadline d => .race d
  | .drainResume d => .drain d

/-- A call of `drain`: its timeout, the writes in flight at that moment, and the calls of `record`
that had been made by then. -/
structure DrainCall (ι : Type) where
  timeoutMs : JsNumber
  pending : List ι
  started : List ι

/-- The promises, the calls of `record` so far, the writes in flight, the calls of `drain`, the
elements that each `Promise.all` waits for, and the deadline timers that are armed and that have
fired. -/
structure State (ι δ : Type) where
  loop : Loop (Promise ι δ) (Reaction ι δ) Unit Thrown
  started : List ι
  inFlight : List ι
  call : δ → Option (DrainCall ι)
  remaining : δ → List ι
  timer : δ → Bool
  fired : δ → Bool

/-- `record` is called, a write settles, `drain` is called, its timer fires, or a microtask runs. -/
inductive Event (ι δ : Type)
  | record (i : ι)
  | write (i : ι) (r : Settled)
  | drain (d : δ) (timeoutMs : JsNumber)
  | timer (d : δ)
  | microtask

/-- The call of `record` that an event makes. -/
def Event.recorded : Event ι δ → Option ι
  | .record i => some i
  | _ => none

namespace State

def start : State ι δ where
  loop := .start
  started := []
  inFlight := []
  call _ := none
  remaining _ := []
  timer _ := false
  fired _ := false

/-- `pending()`. -/
def pending (s : State ι δ) : ℕ := s.inFlight.length

/-- A continuation is registered or queued. -/
def Live (s : State ι δ) (k : Reaction ι δ) : Prop := s.loop.Live src k

/-- A promise is pending. -/
def Pending (s : State ι δ) (p : Promise ι δ) : Prop := s.loop.settled p = none

variable [DecidableEq ι] [DecidableEq δ]

def settle (s : State ι δ) (p : Promise ι δ) (r : Settled) : State ι δ :=
  { s with loop := s.loop.settle p r }

def subscribe (s : State ι δ) (k : Reaction ι δ) : State ι δ :=
  { s with loop := s.loop.subscribe (src k) k }

/-- `record` up to its await: the promise of the write is caught and added. -/
def startRecord (s : State ι δ) (i : ι) : State ι δ :=
  let s := s.subscribe (.recordCatch i)
  { s with started := s.started ++ [i], inFlight := s.inFlight ++ [i] }.subscribe (.recordResume i)

/-- `Promise.all` subscribes to each of its elements. -/
def subscribeAll (s : State ι δ) (d : δ) (elements : List ι) : State ι δ :=
  elements.foldl (fun s i => s.subscribe (.allElement d i)) s

/-- `Promise.race` subscribes to everything in flight and to the deadline, and `drain` to the
race. -/
def startRace (s : State ι δ) (d : δ) : State ι δ :=
  let s := (s.subscribeAll d s.inFlight).subscribe (.allThen d)
  ((s.subscribe (.raceAll d)).subscribe (.raceDeadline d)).subscribe (.drainResume d)

/-- `drain` up to its await: it is over where nothing is in flight, else the deadline is armed and
raced with everything that is. -/
def startDrain (s : State ι δ) (d : δ) (timeoutMs : JsNumber) : State ι δ :=
  let s := { s with call := Function.update s.call d (some ⟨timeoutMs, s.inFlight, s.started⟩) }
  if s.inFlight = [] then s.settle (.drain d) (.fulfilled ())
  else
    { s with
      timer := Function.update s.timer d true
      remaining := Function.update s.remaining d s.inFlight }.startRace d

/-- The deadline timer fires. -/
def fire (s : State ι δ) (d : δ) : State ι δ :=
  { s with
    timer := Function.update s.timer d false
    fired := Function.update s.fired d true }.settle (.deadline d) (.fulfilled ())

end State

variable [DecidableEq ι] [DecidableEq δ]

/-- What a continuation does with the settlement of its promise. -/
def resume (s : State ι δ) : Reaction ι δ → Settled → State ι δ
  -- a rejection is counted and logged
  | .recordCatch i, _ => s.settle (.guarded i) (.fulfilled ())
  | .recordResume i, r =>
    { s with inFlight := s.inFlight.filter (· ≠ i) }.settle (.record i) r
  | .allElement d i, .fulfilled _ =>
    let s := { s with remaining := Function.update s.remaining d ((s.remaining d).filter (· ≠ i)) }
    if s.remaining d = [] then s.settle (.all d) (.fulfilled ()) else s
  | .allElement d _, .rejected error => s.settle (.all d) (.rejected error)
  | .allThen d, .fulfilled _ => s.settle (.allDone d) (.fulfilled ())
  | .allThen d, .rejected error => s.settle (.allDone d) (.rejected error)
  | .raceAll d, r => s.settle (.race d) r
  | .raceDeadline d, r => s.settle (.race d) r
  | .drainResume d, r =>
    { s with timer := Function.update s.timer d false }.settle (.drain d) r

/-- The runs of a writer. -/
def machine : Machine (State ι δ) (Event ι δ) where
  step s
    | .record i => if i ∈ s.started then none else some (s.startRecord i)
    | .write i r => if i ∈ s.started then some (s.settle (.write i) r) else none
    | .drain d timeoutMs => if (s.call d).isSome then none else some (s.startDrain d timeoutMs)
    | .timer d => if s.timer d ∧ s.loop.queue = [] then some (s.fire d) else none
    | .microtask => s.loop.pop.map fun job => resume { s with loop := job.2 } job.1.1 job.1.2

variable {s t : State ι δ} {i j : ι} {d d' : δ} {k k' : Reaction ι δ} {p q : Promise ι δ}
  {r : Settled} {loop : Loop (Promise ι δ) (Reaction ι δ) Unit Thrown}

/-- A promise of a call of `drain`. -/
def Promise.IsOf (d : δ) : Promise ι δ → Prop
  | all d' | allDone d' | deadline d' | race d' | drain d' => d' = d
  | _ => False

/-- A continuation of a call of `drain`. -/
def Reaction.IsOf (d : δ) : Reaction ι δ → Prop
  | allElement d' _ | allThen d' | raceAll d' | raceDeadline d' | drainResume d' => d' = d
  | _ => False

/-- What each event does where it can happen. -/
inductive Step (s : State ι δ) : Event ι δ → State ι δ → Prop
  | record (i : ι) (fresh : i ∉ s.started) : Step s (.record i) (s.startRecord i)
  | write (i : ι) (r : Settled) (started : i ∈ s.started) :
      Step s (.write i r) (s.settle (.write i) r)
  | drain (d : δ) (timeoutMs : JsNumber) (fresh : s.call d = none) :
      Step s (.drain d timeoutMs) (s.startDrain d timeoutMs)
  | timer (d : δ) (armed : s.timer d = true) : Step s (.timer d) (s.fire d)
  | microtask (k : Reaction ι δ) (r : Settled)
      (loop : Loop (Promise ι δ) (Reaction ι δ) Unit Thrown)
      (pop : s.loop.pop = some ((k, r), loop)) : Step s .microtask (resume { s with loop } k r)

/-- **What a step does**: one case for each event. -/
theorem step_cases {e : Event ι δ} (hstep : machine.step s e = some t) : Step s e t := by
  cases e with
  | record i =>
    simp only [machine] at hstep
    split_ifs at hstep with hi
    obtain rfl := Option.some.inj hstep
    exact .record i hi
  | write i r =>
    simp only [machine] at hstep
    split_ifs at hstep with hi
    obtain rfl := Option.some.inj hstep
    exact .write i r hi
  | drain d timeoutMs =>
    simp only [machine] at hstep
    split_ifs at hstep with hd
    obtain rfl := Option.some.inj hstep
    exact .drain d timeoutMs (by simpa using hd)
  | timer d =>
    simp only [machine] at hstep
    split_ifs at hstep with hd
    obtain rfl := Option.some.inj hstep
    exact .timer d hd.1
  | microtask =>
    obtain ⟨⟨⟨k, r⟩, loop⟩, hpop, rfl⟩ := Option.map_eq_some_iff.mp hstep
    exact .microtask k r loop hpop

/-! ## Settling and subscribing change the promises alone -/

namespace State

@[simp] theorem inFlight_settle : (s.settle p r).inFlight = s.inFlight := rfl

@[simp] theorem remaining_settle : (s.settle p r).remaining = s.remaining := rfl

@[simp] theorem timer_settle : (s.settle p r).timer = s.timer := rfl

@[simp] theorem inFlight_subscribe : (s.subscribe k).inFlight = s.inFlight := rfl

theorem live_settle (hwf : s.loop.WellFormed src) : (s.settle p r).Live k ↔ s.Live k :=
  Loop.live_settle hwf

@[simp] theorem live_subscribe : (s.subscribe k).Live k' ↔ k' = k ∨ s.Live k' :=
  Loop.live_subscribe rfl

@[simp] theorem pending_settle : (s.settle p r).Pending q ↔ q ≠ p ∧ s.Pending q := by
  rw [Pending, Pending, settle, Loop.settled_settle]
  split_ifs with hq
  · simp [hq]
  · simp [hq]

@[simp] theorem settled_subscribe : (s.subscribe k).loop.settled = s.loop.settled :=
  Loop.settled_subscribe

theorem wellFormed_subscribe (hwf : s.loop.WellFormed src) (hk : ¬ s.Live k) :
    (s.subscribe k).loop.WellFormed src := hwf.subscribe rfl hk

/-! ### The start of `record` -/

theorem live_startRecord : (s.startRecord i).Live k ↔
    k = .recordResume i ∨ k = .recordCatch i ∨ s.Live k := by
  rw [startRecord, live_subscribe]
  exact or_congr_right live_subscribe

theorem settled_startRecord : (s.startRecord i).loop.settled = s.loop.settled :=
  Loop.settled_subscribe.trans Loop.settled_subscribe

theorem wellFormed_startRecord (hwf : s.loop.WellFormed src) (hcatch : ¬ s.Live (.recordCatch i))
    (hresume : ¬ s.Live (.recordResume i)) : (s.startRecord i).loop.WellFormed src := by
  apply Loop.WellFormed.subscribe _ rfl
  · intro hlive
    rcases (live_subscribe (s := s)).mp hlive with heq | hlive
    · cases heq
    · exact hresume hlive
  · exact hwf.subscribe rfl hcatch

theorem precedes_startRecord (h : s.loop.Precedes p (.recordResume j) k) (hk : src k = p)
    (hne : i ≠ j) : (s.startRecord i).loop.Precedes p (.recordResume j) k := by
  have hcatch : (s.subscribe (.recordCatch i)).loop.Precedes p (.recordResume j) k :=
    h.subscribe hk (by simp)
  exact hcatch.subscribe hk fun heq => absurd (Reaction.recordResume.inj heq) hne

/-! ### The start of `drain` -/

/-- `Promise.all` changes the promises alone. -/
theorem exists_subscribeAll (s : State ι δ) (d : δ) (elements : List ι) :
    ∃ loop, s.subscribeAll d elements = { s with loop } := by
  induction elements generalizing s with
  | nil => exact ⟨s.loop, rfl⟩
  | cons i elements ih =>
    obtain ⟨loop, hloop⟩ := ih (s.subscribe (.allElement d i))
    exact ⟨loop, hloop⟩

theorem live_subscribeAll {elements : List ι} : (s.subscribeAll d elements).Live k ↔
    (∃ i ∈ elements, k = .allElement d i) ∨ s.Live k := by
  induction elements generalizing s with
  | nil => simp [subscribeAll]
  | cons i elements ih =>
    rw [subscribeAll, List.foldl_cons, ← subscribeAll, ih, live_subscribe]
    simp only [List.mem_cons, exists_eq_or_imp]
    rw [← or_assoc]
    exact or_congr_left or_comm

theorem settled_subscribeAll {elements : List ι} :
    (s.subscribeAll d elements).loop.settled = s.loop.settled := by
  induction elements generalizing s with
  | nil => rfl
  | cons i elements ih => exact ih.trans Loop.settled_subscribe

theorem wellFormed_subscribeAll {elements : List ι} (hwf : s.loop.WellFormed src)
    (hnodup : elements.Nodup) (hnot : ∀ i ∈ elements, ¬ s.Live (.allElement d i)) :
    (s.subscribeAll d elements).loop.WellFormed src := by
  induction elements generalizing s with
  | nil => exact hwf
  | cons i elements ih =>
    obtain ⟨hi, hnodup⟩ := List.nodup_cons.mp hnodup
    apply ih (hwf.subscribe rfl (hnot i (List.mem_cons_self ..))) hnodup
    intro j hj hlive
    rcases live_subscribe.mp hlive with heq | hlive
    · obtain ⟨-, rfl⟩ := Reaction.allElement.inj heq
      exact hi hj
    · exact hnot j (List.mem_cons_of_mem _ hj) hlive

theorem precedes_subscribeAll {elements : List ι} (h : s.loop.Precedes p (.recordResume i) k)
    (hk : src k = p) : (s.subscribeAll d elements).loop.Precedes p (.recordResume i) k := by
  induction elements generalizing s with
  | nil => exact h
  | cons j elements ih => exact ih (h.subscribe hk (by simp))

theorem exists_startRace (s : State ι δ) (d : δ) : ∃ loop, s.startRace d = { s with loop } := by
  obtain ⟨loop, hloop⟩ := exists_subscribeAll s d s.inFlight
  rw [startRace, hloop]
  exact ⟨_, rfl⟩

@[simp] theorem call_startDrain {timeoutMs : JsNumber} : (s.startDrain d timeoutMs).call =
    Function.update s.call d (some ⟨timeoutMs, s.inFlight, s.started⟩) := by
  simp only [startDrain]
  split_ifs
  · rfl
  · rw [(exists_startRace _ d).choose_spec]

@[simp] theorem started_startDrain {timeoutMs : JsNumber} :
    (s.startDrain d timeoutMs).started = s.started := by
  simp only [startDrain]
  split_ifs
  · rfl
  · rw [(exists_startRace _ d).choose_spec]

@[simp] theorem fired_startDrain {timeoutMs : JsNumber} :
    (s.startDrain d timeoutMs).fired = s.fired := by
  simp only [startDrain]
  split_ifs
  · rfl
  · rw [(exists_startRace _ d).choose_spec]

theorem live_startRace : (s.startRace d).Live k ↔
    k = .drainResume d ∨ k = .raceDeadline d ∨ k = .raceAll d ∨ k = .allThen d ∨
      (∃ i ∈ s.inFlight, k = .allElement d i) ∨ s.Live k := by
  simp only [startRace, live_subscribe, live_subscribeAll]

theorem settled_startRace : (s.startRace d).loop.settled = s.loop.settled := by
  simp only [startRace, settled_subscribe, settled_subscribeAll]

theorem wellFormed_startRace (hwf : s.loop.WellFormed src) (hnodup : s.inFlight.Nodup)
    (hidle : ∀ k : Reaction ι δ, k.IsOf d → ¬ s.Live k) :
    (s.startRace d).loop.WellFormed src := by
  -- one continuation after the other, none of which is live yet
  have hall := wellFormed_subscribeAll (d := d) hwf hnodup fun i _ => hidle (.allElement d i) rfl
  have hthen := wellFormed_subscribe (k := .allThen d) hall
    (by simp [live_subscribeAll, hidle (.allThen d) rfl])
  have hraceAll := wellFormed_subscribe (k := .raceAll d) hthen
    (by simp [live_subscribeAll, hidle (.raceAll d) rfl])
  have hdeadline := wellFormed_subscribe (k := .raceDeadline d) hraceAll
    (by simp [live_subscribeAll, hidle (.raceDeadline d) rfl])
  exact wellFormed_subscribe hdeadline (by simp [live_subscribeAll, hidle (.drainResume d) rfl])

theorem precedes_startRace (h : s.loop.Precedes p (.recordResume i) k) (hk : src k = p) :
    (s.startRace d).loop.Precedes p (.recordResume i) k := by
  have hall : (s.subscribeAll d s.inFlight).loop.Precedes p (.recordResume i) k :=
    precedes_subscribeAll h hk
  apply Loop.Precedes.subscribe _ hk (by simp)
  apply Loop.Precedes.subscribe _ hk (by simp)
  apply Loop.Precedes.subscribe _ hk (by simp)
  exact hall.subscribe hk (by simp)

end State

/-! ## What a microtask does -/

/-- What a microtask with the continuation `k` does: the continuation is live no more, and its
promise is settled, but for an element of `Promise.all`, which settles it as the last one. -/
structure Resumed (s : State ι δ) (k : Reaction ι δ) (t : State ι δ) : Prop where
  was : s.Live k
  source : ¬ s.Pending (src k)
  live : ∀ k', t.Live k' ↔ k' ≠ k ∧ s.Live k'
  keeps : ∀ p, p ≠ target k → (t.Pending p ↔ s.Pending p)
  settles : (∀ d i, k ≠ .allElement d i) → ¬ t.Pending (target k)
  all : ∀ d i, k = .allElement d i →
    (t.Pending (.all d) ↔ s.Pending (.all d) ∧ t.remaining d ≠ [])
  started : t.started = s.started
  call : t.call = s.call
  fired : t.fired = s.fired
  inFlight : t.inFlight = s.inFlight.filter fun i => k ≠ .recordResume i
  remaining : ∀ d, t.remaining d = (s.remaining d).filter fun i => k ≠ .allElement d i
  timer : ∀ d, t.timer d = if k = .drainResume d then false else s.timer d

/-- No promise is rejected, but for those of the writes. -/
def Fulfills (s : State ι δ) : Prop :=
  ∀ p r, (∀ i, p ≠ .write i) → s.loop.settled p = some r → r = .fulfilled ()

/-- A continuation settles its target, if anything. -/
theorem loop_resume (hr : (∀ i, k ≠ .recordCatch i) → r = .fulfilled ()) :
    (resume s k r).loop = s.loop ∨
      (resume s k r).loop = s.loop.settle (target k) (.fulfilled ()) := by
  cases k with
  | recordCatch i => exact Or.inr rfl
  | allElement d i =>
    obtain rfl := hr (by simp)
    simp only [resume]
    split_ifs
    · exact Or.inr rfl
    · exact Or.inl rfl
  | _ =>
    obtain rfl := hr (by simp)
    exact Or.inr rfl

theorem not_pending_settle : ¬ (s.settle p r).Pending p :=
  fun hpending => (State.pending_settle.mp hpending).1 rfl

theorem frame_resume : (resume s k r).started = s.started ∧ (resume s k r).call = s.call ∧
    (resume s k r).fired = s.fired := by
  cases k with
  | allElement d i =>
    cases r with
    | fulfilled value =>
      simp only [resume]
      split_ifs <;> exact ⟨rfl, rfl, rfl⟩
    | rejected error => exact ⟨rfl, rfl, rfl⟩
  | allThen d => cases r <;> exact ⟨rfl, rfl, rfl⟩
  | _ => exact ⟨rfl, rfl, rfl⟩

theorem inFlight_resume :
    (resume s k r).inFlight = s.inFlight.filter fun i => k ≠ .recordResume i := by
  cases k with
  | recordResume i =>
    simp only [ne_eq, Reaction.recordResume.injEq, eq_comm (a := i)]
    rfl
  | allElement d i =>
    cases r with
    | fulfilled value =>
      simp only [resume]
      split_ifs <;> simp
    | rejected error => simp [resume]
  | allThen d => cases r <;> simp [resume]
  | _ => simp [resume]

theorem timer_resume :
    (resume s k r).timer d = if k = .drainResume d then false else s.timer d := by
  cases k with
  | drainResume d' =>
    by_cases hd : d' = d
    · subst hd
      simp [resume]
    · simp [resume, hd, Ne.symm hd]
  | allElement d i =>
    rw [if_neg (by simp)]
    cases r with
    | fulfilled value =>
      simp only [resume]
      split_ifs <;> rfl
    | rejected error => rfl
  | allThen d => cases r <;> rfl
  | _ => rfl

theorem remaining_resume (hr : (∀ i, k ≠ .recordCatch i) → r = .fulfilled ()) :
    (resume s k r).remaining d = (s.remaining d).filter fun i => k ≠ .allElement d i := by
  cases k with
  | allElement d' i =>
    obtain rfl := hr (by simp)
    have hremaining : (resume s (.allElement d' i) (.fulfilled ())).remaining =
        Function.update s.remaining d' ((s.remaining d').filter (· ≠ i)) := by
      simp only [resume]
      split_ifs <;> rfl
    rw [hremaining]
    by_cases hd : d = d'
    · subst hd
      simp [eq_comm]
    · simp [hd, Ne.symm hd]
  | allThen d => cases r <;> simp [resume]
  | _ => simp [resume]

/-- **What a microtask does**: its continuation, and nothing else. -/
theorem resumed_of_pop (hwf : s.loop.WellFormed src)
    (hr : (∀ i, k ≠ .recordCatch i) → r = .fulfilled ())
    (hpop : s.loop.pop = some ((k, r), loop)) : Resumed s k (resume { s with loop } k r) := by
  have hwf' : loop.WellFormed src := hwf.pop hpop
  have hsettled : loop.settled = s.loop.settled := Loop.settled_pop hpop
  obtain ⟨hstarted, hcall, hfired⟩ := frame_resume (s := { s with loop }) (k := k) (r := r)
  refine ⟨Loop.live_of_pop hpop, ?_, ?_, ?_, ?_, ?_, hstarted, hcall, hfired, inFlight_resume,
    fun d => remaining_resume hr, fun d => timer_resume⟩
  · rw [State.Pending, hwf.settled_of_pop hpop]
    exact Option.some_ne_none r
  · intro k'
    have hlive : loop.Live src k' ↔ k' ≠ k ∧ s.loop.Live src k' := Loop.live_pop hwf hpop
    rw [State.Live, State.Live, ← hlive]
    rcases loop_resume (s := { s with loop }) hr with hloop | hloop
    · rw [hloop]
    · rw [hloop]
      exact Loop.live_settle hwf'
  · intro p hp
    rw [State.Pending, State.Pending, ← hsettled]
    rcases loop_resume (s := { s with loop }) hr with hloop | hloop
    · rw [hloop]
    · rw [hloop, Loop.settled_settle_of_ne hp]
  · intro hk
    cases k with
    | recordCatch i => exact not_pending_settle
    | allElement d i => exact absurd rfl (hk d i)
    | allThen d => cases r <;> exact not_pending_settle
    | _ => exact not_pending_settle
  · rintro d i rfl
    obtain rfl := hr (by simp)
    rw [State.Pending, State.Pending, ← hsettled]
    simp only [resume]
    split_ifs with hlast
    · refine iff_of_false not_pending_settle fun h => h.2 ?_
      exact hlast
    · exact (and_iff_left hlast).symm

end Drain

end QueueWorkerKit
