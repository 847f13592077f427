import QueueWorkerKit.Api.HealthRoutes
import Mathlib.Algebra.Order.Ring.Nat

/-!
# Every readiness probe is answered by its deadline

Whatever Redis does with a `PING`, a probe waits only as long as its timer is armed. It is answered
`200` if its ping was fulfilled before the timer fired and `503` otherwise, it leaves no timer
behind, and no promise of it is ever rejected without a handler.

## Main definitions

* `Fresh`, `Waiting`, `Common`, `Decided`: a probe at each stage of its race
* `ProbeAccount`: what holds of a probe after a run

## Main results

* `inv_run`: **where a probe stands after a run** is where its race stands
* `exists_idle`: no chain of microtasks goes on for ever
* `probe_account`: **every probe is answered by its deadline**
-/

namespace QueueWorkerKit

open Ecma EventDriven

namespace HealthRoutes

/-- The probe of a promise. -/
def Promise.probe {ι : Type} : Promise ι → ι
  | .ping i => i
  | .timeout i => i
  | .race i => i
  | .pingRedis i => i

/-- The probe of a continuation. -/
def Reaction.probe {ι : Type} : Reaction ι → ι
  | .racePing i => i
  | .raceTimeout i => i
  | .pingResume i => i
  | .routeResume i => i

variable {ι : Type} [DecidableEq ι]

/-- The microtasks of a probe. -/
def Probes.own (s : Probes ι) (i : ι) : List (Reaction ι × Settled) :=
  s.loop.partQueue Reaction.probe i

/-- Reactions are registered at the promises of their probe. -/
abbrev Probes.Parted (s : Probes ι) : Prop := s.loop.Parted Promise.probe Reaction.probe

/-! ## A probe at each stage -/

/-- Entries of the race. -/
def Entrants (i : ι) (jobs : List (Reaction ι × Settled)) : Prop :=
  ∀ job ∈ jobs, job.1 = .racePing i ∨ job.1 = .raceTimeout i

/-- Nothing has happened for the probe. -/
structure Fresh (s : Probes ι) (i : ι) : Prop where
  pinged : s.pinged i = false
  timer : s.timer i = none
  settled : ∀ p : Promise ι, p.probe = i → s.loop.settled p = none
  reactions : ∀ p : Promise ι, p.probe = i → s.loop.reactions p = []
  queue : s.own i = []

/-- The promises of a probe are pending, its timer is armed, and each continuation is registered. -/
structure Waiting (s : Probes ι) (i : ι) : Prop where
  probe : s.probe i = .waiting
  pinged : s.pinged i = true
  timer : s.timer i = some READINESS_TIMEOUT_MS
  settled : ∀ p : Promise ι, p.probe = i → s.loop.settled p = none
  handled : ∀ p : Promise ι, p.probe = i → s.loop.handled p = true
  ping : s.loop.reactions (.ping i) = [.racePing i]
  timeout : s.loop.reactions (.timeout i) = [.raceTimeout i]
  race : s.loop.reactions (.race i) = [.pingResume i]
  pingRedis : s.loop.reactions (.pingRedis i) = [.routeResume i]
  queue : s.own i = []

/-- What holds of a probe from its ping on. -/
structure Common (s : Probes ι) (i : ι) : Prop where
  ping : ∀ k ∈ s.loop.reactions (.ping i), k = .racePing i
  handled : s.pinged i = true → ∀ p : Promise ι, p.probe = i → s.loop.handled p = true
  unpinged : s.pinged i = false → ∀ p : Promise ι, p.probe = i → p ≠ .pingRedis i →
    s.loop.settled p = none
  entered : s.pinged i = false → ∀ job ∈ s.own i, job.1 = .routeResume i

/-- A probe whose race is decided: the entry that wins has yet to settle the race; or `pingRedis` is
to resume; or the route is; or the probe has been answered. Entries that lose may be left over. -/
inductive Decided (s : Probes ι) (i : ι) (redisOk : Bool) : Prop
  | racing (winner : Reaction ι × Settled) (others : List (Reaction ι × Settled))
      (probe : s.probe i = .waiting) (queue : s.own i = winner :: others)
      (entrants : Entrants i (winner :: others)) (wins : winner.2.redisOk = redisOk)
      (pending : s.loop.settled (.race i) = none)
      (race : s.loop.reactions (.race i) = [.pingResume i])
      (unfinished : s.loop.settled (.pingRedis i) = none)
      (pingRedis : s.loop.reactions (.pingRedis i) = [.routeResume i])
  | raced (before : List (Reaction ι × Settled)) (r : Settled)
      (after : List (Reaction ι × Settled)) (probe : s.probe i = .waiting)
      (queue : s.own i = before ++ (.pingResume i, r) :: after)
      (first : Entrants i before) (last : Entrants i after) (wins : r.redisOk = redisOk)
      (decided : s.loop.settled (.race i) = some r) (race : s.loop.reactions (.race i) = [])
      (unfinished : s.loop.settled (.pingRedis i) = none)
      (pingRedis : s.loop.reactions (.pingRedis i) = [.routeResume i])
  | finished (before after : List (Reaction ι × Settled)) (probe : s.probe i = .waiting)
      (queue : s.own i = before ++ (.routeResume i, .fulfilled (.ok redisOk)) :: after)
      (first : Entrants i before) (last : Entrants i after)
      (race : s.loop.reactions (.race i) = []) (timer : s.timer i = none)
      (settled : s.loop.settled (.pingRedis i) = some (.fulfilled (.ok redisOk)))
  | answered (draining : Bool) (probe : s.probe i = .answered (replyOf redisOk) draining)
      (queue : Entrants i (s.own i)) (race : s.loop.reactions (.race i) = [])
      (timer : s.timer i = none)
      (settled : s.loop.settled (.pingRedis i) = some (.fulfilled (.ok redisOk)))

/-- A probe stands where its race stands. -/
def At (s : Probes ι) (i : ι) : Stage → Prop
  | .absent => Fresh s i ∧ s.probe i = .absent
  | .refused => Fresh s i ∧ s.probe i = .answered .notReady true
  | .waiting => Waiting s i
  | .decided redisOk => Common s i ∧ Decided s i redisOk

variable {s t : Probes ι} {e : Event ι} {es : List (Event ι)} {i j : ι} {r : Settled}
  {redisOk : Bool} {stage : Stage} {ping : PingCall}

/-! ## The frame -/

/-- A probe is as it was. -/
structure SameProbe (i : ι) (s t : Probes ι) : Prop where
  loop : Loop.SamePart Promise.probe Reaction.probe i s.loop t.loop
  pinged : t.pinged i = s.pinged i
  timer : t.timer i = s.timer i
  probe : t.probe i = s.probe i

namespace SameProbe

theorem own (h : SameProbe i s t) : t.own i = s.own i := h.loop.queue

theorem settled (h : SameProbe i s t) (p : Promise ι) (hp : p.probe = i) :
    t.loop.settled p = s.loop.settled p := h.loop.settled p hp

theorem reactions (h : SameProbe i s t) (p : Promise ι) (hp : p.probe = i) :
    t.loop.reactions p = s.loop.reactions p := h.loop.reactions p hp

theorem fresh (h : SameProbe i s t) (hs : Fresh s i) : Fresh t i where
  pinged := h.pinged.trans hs.pinged
  timer := h.timer.trans hs.timer
  settled p hp := (h.settled p hp).trans (hs.settled p hp)
  reactions p hp := (h.reactions p hp).trans (hs.reactions p hp)
  queue := h.own.trans hs.queue

theorem waiting (h : SameProbe i s t) (hs : Waiting s i) : Waiting t i where
  probe := h.probe.trans hs.probe
  pinged := h.pinged.trans hs.pinged
  timer := h.timer.trans hs.timer
  settled p hp := (h.settled p hp).trans (hs.settled p hp)
  handled p hp := (h.loop.handled p hp).trans (hs.handled p hp)
  ping := (h.reactions _ rfl).trans hs.ping
  timeout := (h.reactions _ rfl).trans hs.timeout
  race := (h.reactions _ rfl).trans hs.race
  pingRedis := (h.reactions _ rfl).trans hs.pingRedis
  queue := h.own.trans hs.queue

theorem common (h : SameProbe i s t) (hs : Common s i) : Common t i where
  ping := h.reactions (.ping i) rfl ▸ hs.ping
  handled hpinged p hp := (h.loop.handled p hp).trans (hs.handled (h.pinged ▸ hpinged) p hp)
  unpinged hpinged p hp hne := (h.settled p hp).trans (hs.unpinged (h.pinged ▸ hpinged) p hp hne)
  entered hpinged := h.own ▸ hs.entered (h.pinged ▸ hpinged)

theorem decided (h : SameProbe i s t) (hs : Decided s i redisOk) : Decided t i redisOk := by
  have hrace := h.reactions (.race i) rfl
  have hpingRedis := h.reactions (.pingRedis i) rfl
  have hsettled := h.settled (.pingRedis i) rfl
  cases hs with
  | racing winner others probe queue entrants wins pending race unfinished pingRedis =>
    exact .racing winner others (h.probe.trans probe) (h.own.trans queue) entrants wins
      ((h.settled (.race i) rfl).trans pending) (hrace.trans race) (hsettled.trans unfinished)
      (hpingRedis.trans pingRedis)
  | raced before r after probe queue first last wins decided race unfinished pingRedis =>
    exact .raced before r after (h.probe.trans probe) (h.own.trans queue) first last wins
      ((h.settled (.race i) rfl).trans decided) (hrace.trans race) (hsettled.trans unfinished)
      (hpingRedis.trans pingRedis)
  | finished before after probe queue first last race timer settled =>
    exact .finished before after (h.probe.trans probe) (h.own.trans queue) first last
      (hrace.trans race) (h.timer.trans timer) (hsettled.trans settled)
  | answered draining probe queue race timer settled =>
    exact .answered draining (h.probe.trans probe) (h.own.symm ▸ queue) (hrace.trans race)
      (h.timer.trans timer) (hsettled.trans settled)

/-- **The frame**: a probe that is as it was stands where it stood. -/
theorem stands (h : SameProbe i s t) (hs : At s i stage) : At t i stage := by
  cases stage with
  | absent => exact ⟨h.fresh hs.1, h.probe.trans hs.2⟩
  | refused => exact ⟨h.fresh hs.1, h.probe.trans hs.2⟩
  | waiting => exact h.waiting hs
  | decided redisOk => exact ⟨h.common hs.1, h.decided hs.2⟩

theorem trans {u : Probes ι} (h : SameProbe i s t) (h' : SameProbe i t u) : SameProbe i s u :=
  ⟨h.loop.trans h'.loop, h'.pinged.trans h.pinged, h'.timer.trans h.timer,
    h'.probe.trans h.probe⟩

end SameProbe

theorem sameProbe_settle {p : Promise ι} (hs : s.Parted) (hp : p.probe ≠ j) :
    SameProbe j s (s.settle p r) := ⟨Loop.samePart_settle hs hp, rfl, rfl, rfl⟩

theorem sameProbe_subscribe {p : Promise ι} {k : Reaction ι} (hk : k.probe = p.probe)
    (hp : p.probe ≠ j) : SameProbe j s (s.subscribe p k) :=
  ⟨Loop.samePart_subscribe hk hp, rfl, rfl, rfl⟩

theorem sameProbe_setTimeout {timeoutMs : ℕ} (hi : i ≠ j) :
    SameProbe j s (s.setTimeout i timeoutMs) :=
  ⟨.refl, rfl, Function.update_of_ne hi.symm _ _, rfl⟩

theorem sameProbe_clearTimeout (hi : i ≠ j) : SameProbe j s (s.clearTimeout i) :=
  ⟨.refl, rfl, Function.update_of_ne hi.symm _ _, rfl⟩

theorem sameProbe_move {probe : Probe} (hi : i ≠ j) : SameProbe j s (s.move i probe) :=
  ⟨.refl, rfl, rfl, Function.update_of_ne hi.symm _ _⟩

theorem sameProbe_finish (hs : s.Parted) (hi : i ≠ j) : SameProbe j s (s.finish i redisOk) := by
  have hclear : (s.clearTimeout i).Parted := hs
  exact (sameProbe_clearTimeout hi).trans (sameProbe_settle hclear hi)

theorem sameProbe_returned {settled : Option Settled} (hs : s.Parted) (hi : i ≠ j) :
    SameProbe j s (s.returned i settled) := by
  have hpinged : SameProbe j s { s with pinged := Function.update s.pinged i true } :=
    ⟨.refl, Function.update_of_ne hi.symm _ _, rfl, rfl⟩
  cases settled with
  | none => exact hpinged
  | some r => exact hpinged.trans (sameProbe_settle hs hi)

theorem sameProbe_race (hi : i ≠ j) : SameProbe j s (s.race i) := by
  have hping : SameProbe j s (s.subscribe (.ping i) (.racePing i)) := sameProbe_subscribe rfl hi
  refine (hping.trans ?_).trans (sameProbe_subscribe rfl hi)
  exact sameProbe_subscribe rfl hi

theorem sameProbe_pingRedis {timeoutMs : ℕ} (hs : s.Parted) (hi : i ≠ j) :
    SameProbe j s (s.pingRedis i timeoutMs ping) := by
  have harmed : (s.setTimeout i timeoutMs).Parted := hs
  have hset : SameProbe j s (s.setTimeout i timeoutMs) := sameProbe_setTimeout hi
  cases ping with
  | throws error => exact hset.trans (sameProbe_finish harmed hi)
  | returns settled =>
    exact (hset.trans (sameProbe_returned harmed hi)).trans (sameProbe_race hi)

theorem sameProbe_resume {job : Reaction ι × Settled} (hs : s.Parted) (hi : job.1.probe ≠ j) :
    SameProbe j s (s.resume job) := by
  unfold Probes.resume
  split
  · exact sameProbe_settle hs hi
  · exact sameProbe_settle hs hi
  · exact sameProbe_finish hs hi
  · exact sameProbe_finish hs hi
  · split_ifs
    · exact sameProbe_move hi
    · exact sameProbe_move hi
  · exact sameProbe_move hi

/-! ## Where continuations are registered -/

theorem parted_returned {settled : Option Settled} (hs : s.Parted) :
    (s.returned i settled).Parted := by
  cases settled with
  | none => exact hs
  | some r => exact Loop.Parted.settle hs

theorem parted_race (hs : s.Parted) : (s.race i).Parted :=
  ((Loop.Parted.subscribe hs rfl).subscribe rfl).subscribe rfl

theorem parted_pingRedis {timeoutMs : ℕ} (hs : s.Parted) :
    (s.pingRedis i timeoutMs ping).Parted := by
  cases ping with
  | throws error => exact Loop.Parted.settle hs
  | returns settled =>
    have harmed : (s.setTimeout i timeoutMs).Parted := hs
    exact parted_race (parted_returned harmed)

theorem parted_resume {job : Reaction ι × Settled} (hs : s.Parted) : (s.resume job).Parted := by
  unfold Probes.resume
  split
  · exact Loop.Parted.settle hs
  · exact Loop.Parted.settle hs
  · exact Loop.Parted.settle hs
  · exact Loop.Parted.settle hs
  · split_ifs
    · exact hs
    · exact hs
  · exact hs

theorem parted_step (hs : s.Parted) (hstep : Step s e t) : t.Parted := by
  cases hstep with
  | refused => exact hs
  | request i ping =>
    have hready : (s.pingRedis i READINESS_TIMEOUT_MS ping).Parted := parted_pingRedis hs
    exact Loop.Parted.subscribe hready rfl
  | ping i r => exact Loop.Parted.settle hs
  | timer i timeoutMs => exact Loop.Parted.settle hs
  | microtask job L taken =>
    have htaken : ({ s with loop := L } : Probes ι).Parted := Loop.Parted.pop hs taken
    exact parted_resume htaken
  | drain => exact hs

/-! ## The call -/

/-- The route after the call of `pingRedis`. -/
abbrev awaited (s : Probes ι) (i : ι) (ping : PingCall) : Probes ι :=
  ((s.pingRedis i READINESS_TIMEOUT_MS ping).move i .waiting).subscribe (.pingRedis i)
    (.routeResume i)

/-- A ping that throws: `pingRedis` is settled before the route awaits it. -/
theorem stands_throws {error : Thrown} (h : Fresh s i) :
    At (awaited s i (.throws error)) i (.decided false) := by
  have hpending : s.loop.settled (.pingRedis i) = none := h.settled _ rfl
  have hunwatched : s.loop.reactions (.pingRedis i) = [] := h.reactions _ rfl
  let L := s.loop.settle (.pingRedis i) (.fulfilled (.ok false))
  have hsettled : L.settled (.pingRedis i) = some (.fulfilled (.ok false)) := by
    rw [Loop.settled_settle_self, hpending, Option.getD_none]
  have hother : ∀ p : Promise ι, p ≠ .pingRedis i → L.settled p = s.loop.settled p :=
    fun p hp => Loop.settled_settle_of_ne hp
  have hqueue : (awaited s i (.throws error)).own i =
      [(.routeResume i, .fulfilled (.ok false))] := by
    refine (Loop.partQueue_subscribe_settled (i := i) hsettled rfl).trans ?_
    rw [Loop.partQueue, Loop.queue_settle_unwatched hunwatched]
    exact congrArg (· ++ _) h.queue
  have hreactions : (awaited s i (.throws error)).loop.reactions = s.loop.reactions :=
    (Loop.reactions_subscribe_settled hsettled).trans (Loop.reactions_settle_unwatched hunwatched)
  refine ⟨⟨fun k hk => ?_, fun hpinged => ?_, fun _ p hp hne => ?_, fun _ job hjob => ?_⟩, ?_⟩
  · rw [hreactions, h.reactions (.ping i) rfl] at hk
    exact absurd hk List.not_mem_nil
  · exact absurd (h.pinged.symm.trans hpinged) Bool.false_ne_true
  · exact (congrFun Loop.settled_subscribe p).trans ((hother p hne).trans (h.settled p hp))
  · rw [hqueue] at hjob
    rw [List.mem_singleton.mp hjob]
  · refine .finished [] [] (Function.update_self ..) hqueue ?_ ?_ ?_ ?_ ?_
    · exact fun _ hjob => absurd hjob List.not_mem_nil
    · exact fun _ hjob => absurd hjob List.not_mem_nil
    · exact (congrFun hreactions _).trans (h.reactions _ rfl)
    · exact Function.update_self ..
    · exact (congrFun Loop.settled_subscribe _).trans hsettled

/-- The loop of a probe once everybody awaits. -/
abbrev raced (L : Loop (Promise ι) (Reaction ι) Value Thrown) (i : ι) :
    Loop (Promise ι) (Reaction ι) Value Thrown :=
  (((L.subscribe (.ping i) (.racePing i)).subscribe (.timeout i) (.raceTimeout i)).subscribe
    (.race i) (.pingResume i)).subscribe (.pingRedis i) (.routeResume i)

theorem settled_raced {L : Loop (Promise ι) (Reaction ι) Value Thrown} :
    (raced L i).settled = L.settled := by
  simp only [raced, Loop.settled_subscribe]

theorem handled_raced {L : Loop (Promise ι) (Reaction ι) Value Thrown} {p : Promise ι}
    (hp : p.probe = i) : (raced L i).handled p = true := by
  subst hp
  cases p <;> simp [raced, Loop.handled_subscribe, Promise.probe]

/-- Where a probe is registered that waits for its timeout. -/
structure Raced (L : Loop (Promise ι) (Reaction ι) Value Thrown) (i : ι) : Prop where
  timeout : (raced L i).reactions (.timeout i) = [.raceTimeout i]
  race : (raced L i).reactions (.race i) = [.pingResume i]
  pingRedis : (raced L i).reactions (.pingRedis i) = [.routeResume i]
  ping : (raced L i).reactions (.ping i) =
    (L.subscribe (.ping i) (.racePing i)).reactions (.ping i)
  queue : (raced L i).partQueue Reaction.probe i =
    (L.subscribe (.ping i) (.racePing i)).partQueue Reaction.probe i

theorem raced_of_pending {L : Loop (Promise ι) (Reaction ι) Value Thrown}
    (hL : ∀ p : Promise ι, p.probe = i → L.reactions p = [])
    (hpending : ∀ p : Promise ι, p.probe = i → p ≠ .ping i → L.settled p = none) : Raced L i := by
  have htimeout : L.settled (.timeout i) = none := hpending _ rfl (by simp)
  have hrace : L.settled (.race i) = none := hpending _ rfl (by simp)
  have hpingRedis : L.settled (.pingRedis i) = none := hpending _ rfl (by simp)
  have hping : ∀ p : Promise ι, p.probe = i → p ≠ .ping i →
      (L.subscribe (.ping i) (.racePing i)).reactions p = [] := by
    intro p hp hne
    refine Eq.trans ?_ (hL p hp)
    unfold Loop.subscribe
    split
    · rfl
    · exact Function.update_of_ne hne _ _
  refine ⟨?_, ?_, ?_, ?_, ?_⟩
  · simp [raced, Loop.reactions_subscribe_pending, htimeout, hrace, hpingRedis,
      hping (.timeout i) rfl]
  · simp [raced, Loop.reactions_subscribe_pending, htimeout, hrace, hpingRedis, hping (.race i) rfl]
  · simp [raced, Loop.reactions_subscribe_pending, htimeout, hrace, hpingRedis,
      hping (.pingRedis i) rfl]
  · simp [raced, Loop.reactions_subscribe_pending, htimeout, hrace, hpingRedis]
  · simp [raced, Loop.partQueue_subscribe_pending, htimeout, hrace, hpingRedis]

/-- A ping that has yet to settle: everybody waits. -/
theorem stands_pending (h : Fresh s i) : At (awaited s i (.returns none)) i .waiting := by
  obtain ⟨htimeout, hrace, hpingRedis, hping, hqueue⟩ :=
    raced_of_pending h.reactions fun p hp _ => h.settled p hp
  have hpending : s.loop.settled (.ping i) = none := h.settled _ rfl
  refine ⟨Function.update_self .., Function.update_self .., Function.update_self ..,
    fun p hp => ?_, fun p hp => handled_raced hp, ?_, htimeout, hrace, hpingRedis, ?_⟩
  · exact (congrFun settled_raced p).trans (h.settled p hp)
  · refine hping.trans ?_
    rw [Loop.reactions_subscribe_pending hpending, Function.update_self, h.reactions _ rfl,
      List.nil_append]
  · exact (hqueue.trans (Loop.partQueue_subscribe_pending hpending)).trans h.queue

/-- A ping that is settled already has won the race. -/
theorem stands_settled (h : Fresh s i) :
    At (awaited s i (.returns (some r))) i (.decided r.redisOk) := by
  let L := s.loop.settle (.ping i) r
  have hunwatched : s.loop.reactions (.ping i) = [] := h.reactions _ rfl
  have hreactions : L.reactions = s.loop.reactions := Loop.reactions_settle_unwatched hunwatched
  have hother : ∀ p : Promise ι, p.probe = i → p ≠ .ping i → L.settled p = none :=
    fun p hp hne => (Loop.settled_settle_of_ne hne).trans (h.settled p hp)
  have hsettled : L.settled (.ping i) = some r := by
    rw [Loop.settled_settle_self, h.settled _ rfl, Option.getD_none]
  obtain ⟨-, hrace, hpingRedis, hping, hqueue⟩ :=
    raced_of_pending (fun p hp => (congrFun hreactions p).trans (h.reactions p hp)) hother
  have hown : (awaited s i (.returns (some r))).own i = [(.racePing i, r)] := by
    refine hqueue.trans ((Loop.partQueue_subscribe_settled (i := i) hsettled rfl).trans ?_)
    rw [Loop.partQueue, Loop.queue_settle_unwatched hunwatched]
    exact congrArg (· ++ _) h.queue
  have hentrants : Entrants i [(.racePing i, r)] := by
    intro job hjob
    rw [List.mem_singleton.mp hjob]
    exact Or.inl rfl
  have hpinged : (awaited s i (.returns (some r))).pinged i = true := Function.update_self ..
  refine ⟨⟨fun k hk => ?_, fun _ p hp => handled_raced hp, fun hnot => ?_, fun hnot => ?_⟩, ?_⟩
  · have hnone : (raced L i).reactions (.ping i) = [] := by
      rw [hping, Loop.reactions_subscribe_settled hsettled, hreactions, hunwatched]
    have hk' : k ∈ (raced L i).reactions (.ping i) := hk
    rw [hnone] at hk'
    exact absurd hk' List.not_mem_nil
  · exact absurd (hnot.symm.trans hpinged) Bool.false_ne_true
  · exact absurd (hnot.symm.trans hpinged) Bool.false_ne_true
  · refine .racing _ [] (Function.update_self ..) hown hentrants rfl ?_ hrace ?_ hpingRedis
    · exact (congrFun settled_raced _).trans (hother _ rfl (by simp))
    · exact (congrFun settled_raced _).trans (hother _ rfl (by simp))

/-- **The call of `pingRedis`** brings a probe to where the race stands. -/
theorem stands_request (h : Fresh s i) : At (awaited s i ping) i ping.stage := by
  cases ping with
  | throws error => exact stands_throws h
  | returns settled =>
    cases settled with
    | none => exact stands_pending h
    | some r => exact stands_settled h

/-! ## What decides the race -/

omit [DecidableEq ι] in
theorem entrants_singleton {k : Reaction ι} (hk : k = .racePing i ∨ k = .raceTimeout i) :
    Entrants i [(k, r)] := by
  intro job hjob
  rw [List.mem_singleton.mp hjob]
  exact hk

/-- The first of the two promises that settles wins. -/
theorem decided_of_waiting {p : Promise ι} {k : Reaction ι} (hs : s.Parted) (h : Waiting s i)
    (hp : p = .ping i ∧ k = .racePing i ∨ p = .timeout i ∧ k = .raceTimeout i)
    (hloop : t.loop = s.loop.settle p r) (hprobe : t.probe i = s.probe i)
    (hpinged : t.pinged i = s.pinged i) : Common t i ∧ Decided t i r.redisOk := by
  have hi : p.probe = i := by
    rcases hp with ⟨rfl, -⟩ | ⟨rfl, -⟩ <;> rfl
  have hk : s.loop.reactions p = [k] := by
    rcases hp with ⟨rfl, rfl⟩ | ⟨rfl, rfl⟩
    · exact h.ping
    · exact h.timeout
  have hrace : Promise.race i ≠ p := by
    rcases hp with ⟨rfl, -⟩ | ⟨rfl, -⟩ <;> simp
  have hpingRedis : Promise.pingRedis i ≠ p := by
    rcases hp with ⟨rfl, -⟩ | ⟨rfl, -⟩ <;> simp
  have hpending : s.loop.settled p = none := h.settled p hi
  have hyes : t.pinged i = true := hpinged.trans h.pinged
  have hown : t.own i = [(k, r)] := by
    rw [Probes.own, hloop, Loop.partQueue_settle hs hpending hi, hk]
    exact congrArg (· ++ _) h.queue
  refine ⟨⟨fun k' hk' => ?_, fun _ q hq => ?_, fun hnot => ?_, fun hnot => ?_⟩, ?_⟩
  · rw [hloop] at hk'
    by_cases hne : Promise.ping i = p
    · rw [hne, Loop.reactions_settle_self hpending] at hk'
      exact absurd hk' List.not_mem_nil
    · rw [Loop.reactions_settle_of_ne hne, h.ping] at hk'
      exact List.mem_singleton.mp hk'
  · rw [hloop, Loop.handled_settle]
    exact h.handled q hq
  · exact absurd (hnot.symm.trans hyes) Bool.false_ne_true
  · exact absurd (hnot.symm.trans hyes) Bool.false_ne_true
  · refine .racing (k, r) [] (hprobe.trans h.probe) hown ?_ rfl ?_ ?_ ?_ ?_
    · exact entrants_singleton (hp.imp And.right And.right)
    · rw [hloop, Loop.settled_settle_of_ne hrace]
      exact h.settled _ rfl
    · rw [hloop, Loop.reactions_settle_of_ne hrace]
      exact h.race
    · rw [hloop, Loop.settled_settle_of_ne hpingRedis]
      exact h.settled _ rfl
    · rw [hloop, Loop.reactions_settle_of_ne hpingRedis]
      exact h.pingRedis

theorem common_settle {p : Promise ι} (h : Common s i) (hpinged : s.pinged i = true)
    (hp : p ≠ .ping i) : Common (s.settle p r) i where
  ping := (Loop.reactions_settle_of_ne (L := s.loop) (r := r) hp.symm).symm ▸ h.ping
  handled _ q hq := (congrFun Loop.handled_settle q).trans (h.handled hpinged q hq)
  unpinged hnot := absurd (hnot.symm.trans hpinged) Bool.false_ne_true
  entered hnot := absurd (hnot.symm.trans hpinged) Bool.false_ne_true

/-- A ping that settles after the race is decided leaves at most an entry that has lost. -/
theorem decided_settle_ping (hs : s.Parted) (hpinged : s.pinged i = true) (hc : Common s i)
    (h : Decided s i redisOk) :
    Common (s.settle (.ping i) r) i ∧ Decided (s.settle (.ping i) r) i redisOk := by
  have hrace : (s.settle (.ping i) r).loop.settled (.race i) = s.loop.settled (.race i) :=
    Loop.settled_settle_of_ne (by simp)
  have hrace' : (s.settle (.ping i) r).loop.reactions (.race i) = s.loop.reactions (.race i) :=
    Loop.reactions_settle_of_ne (by simp)
  have hresult : (s.settle (.ping i) r).loop.settled (.pingRedis i) =
      s.loop.settled (.pingRedis i) := Loop.settled_settle_of_ne (by simp)
  have hresult' : (s.settle (.ping i) r).loop.reactions (.pingRedis i) =
      s.loop.reactions (.pingRedis i) := Loop.reactions_settle_of_ne (by simp)
  obtain ⟨late, hown, hlate⟩ : ∃ late, (s.settle (.ping i) r).own i = s.own i ++ late ∧
      Entrants i late := by
    cases hset : s.loop.settled (.ping i) with
    | some r' =>
      refine ⟨[], ?_, fun _ hjob => absurd hjob List.not_mem_nil⟩
      rw [List.append_nil, Probes.settle, Loop.settle_of_settled (by simp [hset])]
    | none =>
      refine ⟨_, Loop.partQueue_settle (i := i) hs hset rfl, fun job hjob => ?_⟩
      obtain ⟨k, hk, rfl⟩ := List.mem_map.mp hjob
      exact Or.inl (hc.ping k hk)
  have happend : ∀ {jobs : List (Reaction ι × Settled)}, Entrants i jobs →
      Entrants i (jobs ++ late) :=
    fun hjobs job hjob => (List.mem_append.mp hjob).elim (hjobs job) (hlate job)
  refine ⟨⟨fun k hk => ?_, fun _ q hq => ?_, fun hnot => ?_, fun hnot => ?_⟩, ?_⟩
  · cases hset : s.loop.settled (.ping i) with
    | some r' =>
      rw [Probes.settle, Loop.settle_of_settled (by simp [hset])] at hk
      exact hc.ping k hk
    | none =>
      have hk' := hk
      rw [Probes.settle, Loop.reactions_settle_self hset] at hk'
      exact absurd hk' List.not_mem_nil
  · exact (congrFun Loop.handled_settle q).trans (hc.handled hpinged q hq)
  · exact absurd (hnot.symm.trans hpinged) Bool.false_ne_true
  · exact absurd (hnot.symm.trans hpinged) Bool.false_ne_true
  · cases h with
    | racing winner others probe queue entrants wins pending race unfinished pingRedis =>
      refine .racing winner (others ++ late) probe ?_ (happend entrants) wins
        (hrace.trans pending) (hrace'.trans race) (hresult.trans unfinished)
        (hresult'.trans pingRedis)
      rw [hown, queue, List.cons_append]
    | raced before r' after probe queue first last wins decided race unfinished pingRedis =>
      refine .raced before r' (after ++ late) probe ?_ first (happend last) wins
        (hrace.trans decided) (hrace'.trans race) (hresult.trans unfinished)
        (hresult'.trans pingRedis)
      rw [hown, queue, List.append_assoc, List.cons_append]
    | finished before after probe queue first last race timer settled =>
      refine .finished before (after ++ late) probe ?_ first (happend last) (hrace'.trans race)
        timer (hresult.trans settled)
      rw [hown, queue, List.append_assoc, List.cons_append]
    | answered draining probe queue race timer settled =>
      exact .answered draining probe (hown ▸ happend queue) (hrace'.trans race) timer
        (hresult.trans settled)

/-- **A ping that settles** decides the race that is open, and no other. -/
theorem stands_ping (hs : s.Parted) (hpinged : s.pinged i = true) (h : At s i stage) :
    At (s.settle (.ping i) r) i (stage.decide r.redisOk) := by
  cases stage with
  | absent => exact absurd (h.1.pinged.symm.trans hpinged) Bool.false_ne_true
  | refused => exact absurd (h.1.pinged.symm.trans hpinged) Bool.false_ne_true
  | waiting => exact decided_of_waiting hs h (Or.inl ⟨rfl, rfl⟩) rfl rfl rfl
  | decided redisOk => exact decided_settle_ping hs hpinged h.1 h.2

/-- A probe whose race is decided with no microtask left has no timer. -/
theorem decided_idle (h : Decided s i redisOk) (hidle : s.own i = []) :
    s.timer i = none ∧ ∃ draining, s.probe i = .answered (replyOf redisOk) draining := by
  cases h with
  | racing winner others probe queue => exact absurd (hidle.symm.trans queue) (by simp)
  | raced before r after probe queue => exact absurd (hidle.symm.trans queue) (by simp)
  | finished before after probe queue => exact absurd (hidle.symm.trans queue) (by simp)
  | answered draining probe queue race timer settled => exact ⟨timer, draining, probe⟩

/-- **A timer that fires** decides the race that is open. -/
theorem stands_timer {timeoutMs : ℕ} (hs : s.Parted) (harmed : s.timer i = some timeoutMs)
    (hidle : s.loop.queue = []) (h : At s i stage) :
    At (s.fire i timeoutMs) i (stage.decide false) := by
  cases stage with
  | absent => exact absurd (h.1.timer.symm.trans harmed) (by simp)
  | refused => exact absurd (h.1.timer.symm.trans harmed) (by simp)
  | waiting =>
    exact decided_of_waiting (t := s.fire i timeoutMs) (r := .rejected (timedOut timeoutMs)) hs h
      (Or.inr ⟨rfl, rfl⟩) rfl rfl rfl
  | decided redisOk =>
    have hnone := (decided_idle h.2 (Loop.partQueue_eq_nil hidle)).1
    exact absurd (hnone.symm.trans harmed) (by simp)

/-! ## Microtasks -/

/-- The process once its oldest microtask is taken. -/
abbrev Probes.taken (s : Probes ι) (L : Loop (Promise ι) (Reaction ι) Value Thrown) : Probes ι :=
  { s with loop := L }

variable {L : Loop (Promise ι) (Reaction ι) Value Thrown} {job : Reaction ι × Settled}

theorem resume_pingResume : s.resume (.pingResume i, r) = s.finish i r.redisOk := by
  cases r <;> rfl

theorem resume_routeResume :
    s.resume (.routeResume i, .fulfilled (.ok redisOk)) = s.send i (replyOf redisOk) := by
  cases redisOk <;> rfl

theorem resume_entrant (hjob : job.1 = .racePing i ∨ job.1 = .raceTimeout i) :
    s.resume job = s.settle (.race i) job.2 := by
  obtain ⟨k, r⟩ := job
  rcases hjob with rfl | rfl <;> rfl

theorem common_pop (h : Common s i) (htaken : s.loop.pop = some (job, L))
    (hi : job.1.probe = i) : Common (s.taken L) i := by
  have hown : s.own i = job :: (s.taken L).own i := Loop.partQueue_pop htaken hi
  obtain ⟨rest, -, rfl⟩ := Loop.pop_eq_some.mp htaken
  exact ⟨h.ping, h.handled, h.unpinged,
    fun hpinged job' hjob => h.entered hpinged job' (hown ▸ List.mem_cons_of_mem _ hjob)⟩

/-- An entry that has lost settles nothing. -/
theorem decided_late (hrace : s.loop.reactions (.race i) = []) (h : Decided s i redisOk) :
    Decided (s.settle (.race i) r) i redisOk := by
  have hown : (s.settle (.race i) r).own i = s.own i := by
    rw [Probes.own, Loop.partQueue, Probes.settle, Loop.queue_settle_unwatched hrace]
    rfl
  have hreactions : (s.settle (.race i) r).loop.reactions = s.loop.reactions :=
    Loop.reactions_settle_unwatched hrace
  have hresult : (s.settle (.race i) r).loop.settled (.pingRedis i) =
      s.loop.settled (.pingRedis i) := Loop.settled_settle_of_ne (by simp)
  cases h with
  | racing winner others probe queue entrants wins pending race =>
    exact absurd (hrace.symm.trans race) (by simp)
  | raced before r' after probe queue first last wins decided race unfinished pingRedis =>
    exact .raced before r' after probe (hown.trans queue) first last wins
      (Loop.settled_settle_of_settled decided) ((congrFun hreactions _).trans race)
      (hresult.trans unfinished) ((congrFun hreactions _).trans pingRedis)
  | finished before after probe queue first last race timer settled =>
    exact .finished before after probe (hown.trans queue) first last
      ((congrFun hreactions _).trans race) timer (hresult.trans settled)
  | answered draining probe queue race timer settled =>
    exact .answered draining probe (hown.symm ▸ queue) ((congrFun hreactions _).trans race) timer
      (hresult.trans settled)

/-- The winner settles the race, which is what `pingRedis` awaits. -/
theorem raced_of_winner (hs : s.Parted) (hprobe : s.probe i = .waiting)
    (hothers : Entrants i (s.own i)) (hpending : s.loop.settled (.race i) = none)
    (hrace : s.loop.reactions (.race i) = [.pingResume i])
    (hunfinished : s.loop.settled (.pingRedis i) = none)
    (hpingRedis : s.loop.reactions (.pingRedis i) = [.routeResume i]) :
    Decided (s.settle (.race i) r) i r.redisOk := by
  refine .raced (s.own i) r [] hprobe ?_ hothers (fun _ hjob => absurd hjob List.not_mem_nil) rfl
    ?_ (Loop.reactions_settle_self hpending) ?_ ?_
  · refine (Loop.partQueue_settle (i := i) hs hpending rfl).trans ?_
    rw [hrace]
    rfl
  · refine Loop.settled_settle_self.trans ?_
    rw [hpending, Option.getD_none]
  · exact (Loop.settled_settle_of_ne (by simp)).trans hunfinished
  · exact (Loop.reactions_settle_of_ne (by simp)).trans hpingRedis

/-- `pingRedis` resumes: it clears its timer, and the route is to resume. -/
theorem finished_of_raced (hs : s.Parted) (hprobe : s.probe i = .waiting)
    (hothers : Entrants i (s.own i)) (hrace : s.loop.reactions (.race i) = [])
    (hunfinished : s.loop.settled (.pingRedis i) = none)
    (hpingRedis : s.loop.reactions (.pingRedis i) = [.routeResume i]) :
    Decided (s.finish i redisOk) i redisOk := by
  refine .finished (s.own i) [] hprobe ?_ hothers (fun _ hjob => absurd hjob List.not_mem_nil) ?_
    (Function.update_self ..) ?_
  · refine (Loop.partQueue_settle (i := i) hs hunfinished rfl).trans ?_
    exact congrArg (fun ks => s.own i ++ ks.map fun k => (k, .fulfilled (.ok redisOk))) hpingRedis
  · exact (Loop.reactions_settle_of_ne (by simp)).trans hrace
  · refine Loop.settled_settle_self.trans ?_
    exact congrArg (fun earlier : Option Settled => some (earlier.getD _)) hunfinished

/-- **A microtask of a probe whose race is decided** keeps the decision. -/
theorem decided_microtask (hs : s.Parted) (hc : Common s i) (h : Decided s i redisOk)
    (htaken : s.loop.pop = some (job, L)) (hi : job.1.probe = i) :
    Common ((s.taken L).resume job) i ∧ Decided ((s.taken L).resume job) i redisOk := by
  have hown : s.own i = job :: (s.taken L).own i := Loop.partQueue_pop htaken hi
  have hcommon : Common (s.taken L) i := common_pop hc htaken hi
  have hparted : (s.taken L).Parted := Loop.Parted.pop hs htaken
  have hpinged : job.1 ≠ .routeResume i → (s.taken L).pinged i = true := by
    intro hne
    by_contra hnot
    exact hne (hc.entered (by simpa using hnot) job (hown ▸ List.mem_cons_self ..))
  have hsettled : (s.taken L).loop.settled = s.loop.settled := Loop.settled_pop htaken
  have hreactions : (s.taken L).loop.reactions = s.loop.reactions := by
    obtain ⟨rest, -, rfl⟩ := Loop.pop_eq_some.mp htaken
    rfl
  -- what an entry does that has lost
  have hlate : job.1 = .racePing i ∨ job.1 = .raceTimeout i →
      (s.taken L).loop.reactions (.race i) = [] → Decided (s.taken L) i redisOk →
      Common ((s.taken L).resume job) i ∧ Decided ((s.taken L).resume job) i redisOk := by
    intro hjob hrace hd
    have hne : job.1 ≠ .routeResume i := by
      rcases hjob with hjob | hjob <;> simp [hjob]
    rw [resume_entrant hjob]
    exact ⟨common_settle hcommon (hpinged hne) (by simp), decided_late hrace hd⟩
  cases h with
  | racing winner others probe queue entrants wins pending race unfinished pingRedis =>
    obtain ⟨rfl, hrest⟩ := List.cons.inj (hown.symm.trans queue)
    have hjob := entrants job (List.mem_cons_self ..)
    have hne : job.1 ≠ .routeResume i := by
      rcases hjob with hjob | hjob <;> simp [hjob]
    rw [resume_entrant hjob, ← wins]
    refine ⟨common_settle hcommon (hpinged hne) (by simp), raced_of_winner hparted probe ?_ ?_ ?_ ?_
      ?_⟩
    · rw [hrest]
      exact fun job' hjob' => entrants job' (List.mem_cons_of_mem _ hjob')
    · exact (congrFun hsettled _).trans pending
    · exact (congrFun hreactions _).trans race
    · exact (congrFun hsettled _).trans unfinished
    · exact (congrFun hreactions _).trans pingRedis
  | raced before r after probe queue first last wins decided race unfinished pingRedis =>
    have hrace := (congrFun hreactions _).trans race
    have hover := (congrFun hsettled _).trans decided
    have hunfinished := (congrFun hsettled _).trans unfinished
    have hpingRedis := (congrFun hreactions _).trans pingRedis
    cases before with
    | nil =>
      obtain ⟨rfl, hrest⟩ := List.cons.inj (hown.symm.trans queue)
      rw [resume_pingResume, wins]
      refine ⟨?_, finished_of_raced hparted probe (hrest ▸ last) hrace hunfinished hpingRedis⟩
      have hclear : Common ((s.taken L).clearTimeout i) i :=
        ⟨hcommon.ping, hcommon.handled, hcommon.unpinged, hcommon.entered⟩
      exact common_settle hclear (hpinged (by simp)) (by simp)
    | cons entry before =>
      obtain ⟨rfl, hrest⟩ := List.cons.inj (hown.symm.trans queue)
      refine hlate (first job (List.mem_cons_self ..)) hrace (.raced before r after probe hrest ?_
        last wins hover hrace hunfinished hpingRedis)
      exact fun job' hjob' => first job' (List.mem_cons_of_mem _ hjob')
  | finished before after probe queue first last race timer settled =>
    have hrace := (congrFun hreactions _).trans race
    have hset := (congrFun hsettled _).trans settled
    cases before with
    | nil =>
      obtain ⟨rfl, hrest⟩ := List.cons.inj (hown.symm.trans queue)
      rw [resume_routeResume]
      refine ⟨⟨hcommon.ping, hcommon.handled, hcommon.unpinged, hcommon.entered⟩, ?_⟩
      exact .answered s.shuttingDown (Function.update_self ..) (hrest ▸ last) hrace timer hset
    | cons entry before =>
      obtain ⟨rfl, hrest⟩ := List.cons.inj (hown.symm.trans queue)
      refine hlate (first job (List.mem_cons_self ..)) hrace (.finished before after probe hrest ?_
        last hrace timer hset)
      exact fun job' hjob' => first job' (List.mem_cons_of_mem _ hjob')
  | answered draining probe queue race timer settled =>
    have hrace := (congrFun hreactions _).trans race
    rw [hown] at queue
    refine hlate (queue job (List.mem_cons_self ..)) hrace (.answered draining probe ?_ hrace timer
      ((congrFun hsettled _).trans settled))
    exact fun job' hjob' => queue job' (List.mem_cons_of_mem _ hjob')

/-! ## Runs -/

theorem after_concat {hist : List (Event ι)} :
    Race.after i (hist ++ [e]) = (Race.after i hist).next i e := by
  rw [Race.after, Race.after, List.foldl_append]
  rfl

/-- A probe that has not arrived stands at the start. -/
theorem stage_of_absent (h : At s i stage) (habsent : s.probe i = .absent) :
    Fresh s i ∧ stage = .absent := by
  cases stage with
  | absent => exact ⟨h.1, rfl⟩
  | refused => exact absurd (habsent.symm.trans h.2) (by simp)
  | waiting => exact absurd (habsent.symm.trans h.probe) (by simp)
  | decided redisOk =>
    cases h.2 with
    | racing winner others probe => exact absurd (habsent.symm.trans probe) (by simp)
    | raced before r after probe => exact absurd (habsent.symm.trans probe) (by simp)
    | finished before after probe => exact absurd (habsent.symm.trans probe) (by simp)
    | answered draining probe => exact absurd (habsent.symm.trans probe) (by simp)

/-- A microtask leaves each probe where its race stands. -/
theorem stands_microtask (hs : s.Parted) (htaken : s.loop.pop = some (job, L))
    (h : At s i stage) : At ((s.taken L).resume job) i stage := by
  by_cases hi : job.1.probe = i
  · have hown : s.own i = job :: (s.taken L).own i := Loop.partQueue_pop htaken hi
    cases stage with
    | absent => exact absurd (h.1.queue.symm.trans hown) (by simp)
    | refused => exact absurd (h.1.queue.symm.trans hown) (by simp)
    | waiting => exact absurd (h.queue.symm.trans hown) (by simp)
    | decided redisOk => exact decided_microtask hs h.1 h.2 htaken hi
  · have hparted : (s.taken L).Parted := Loop.Parted.pop hs htaken
    have hsame : SameProbe i s (s.taken L) := ⟨Loop.samePart_pop htaken hi, rfl, rfl, rfl⟩
    exact (hsame.trans (sameProbe_resume hparted hi)).stands h

/-- What holds after every run: the flag is that of each race, and each probe stands where its race
stands. -/
structure Inv (hist : List (Event ι)) (s : Probes ι) : Prop where
  parted : s.Parted
  draining : ∀ i, (Race.after i hist).draining = s.shuttingDown
  stands : ∀ i, At s i (Race.after i hist).stage

theorem inv_start : Inv ([] : List (Event ι)) .start where
  parted := Loop.parted_start
  draining _ := rfl
  stands _ := ⟨⟨rfl, rfl, fun _ _ => rfl, fun _ _ => rfl, rfl⟩, rfl⟩

/-- An event of another probe, or none of a probe, leaves the race as it is. -/
theorem draining_next (c : Race) (h : e ≠ .drain) : (c.next i e).draining = c.draining := by
  cases e with
  | drain => exact absurd rfl h
  | microtask => rfl
  | _ =>
    simp only [Race.next]
    split_ifs <;> rfl

theorem stands_step {c : Race} (hs : s.Parted) (hdraining : c.draining = s.shuttingDown)
    (h : At s i c.stage) (hstep : Step s e t) : At t i (c.next i e).stage := by
  cases hstep with
  | refused j ping absent draining =>
    by_cases hi : j = i
    · subst hi
      obtain ⟨hfresh, -⟩ := stage_of_absent h absent
      have hstage : (c.next j (.request j ping)).stage = .refused := by
        simp [Race.next, hdraining, draining]
      rw [hstage]
      refine ⟨⟨hfresh.pinged, hfresh.timer, hfresh.settled, hfresh.reactions, hfresh.queue⟩, ?_⟩
      rw [← draining]
      exact Function.update_self ..
    · rw [Race.next, if_neg hi]
      exact (sameProbe_move hi).stands h
  | request j ping absent serving =>
    by_cases hi : j = i
    · subst hi
      have hstage : (c.next j (.request j ping)).stage = ping.stage := by
        simp [Race.next, hdraining, serving]
      rw [hstage]
      exact stands_request (stage_of_absent h absent).1
    · rw [Race.next, if_neg hi]
      refine SameProbe.stands ?_ h
      exact ((sameProbe_pingRedis hs hi).trans (sameProbe_move hi)).trans
        (sameProbe_subscribe rfl hi)
  | ping j r pinged =>
    by_cases hi : j = i
    · subst hi
      rw [Race.next, if_pos rfl]
      exact stands_ping hs pinged h
    · rw [Race.next, if_neg hi]
      exact (sameProbe_settle (p := .ping j) hs hi).stands h
  | timer j timeoutMs armed idle =>
    by_cases hi : j = i
    · subst hi
      rw [Race.next, if_pos rfl]
      exact stands_timer hs armed idle h
    · rw [Race.next, if_neg hi]
      have hclear : (s.clearTimeout j).Parted := hs
      refine SameProbe.stands ?_ h
      exact (sameProbe_clearTimeout hi).trans (sameProbe_settle (p := .timeout j) hclear hi)
  | microtask job L taken => exact stands_microtask hs taken h
  | drain =>
    refine SameProbe.stands ?_ h
    exact ⟨.refl, rfl, rfl, rfl⟩

theorem shuttingDown_step (hstep : Step s e t) (h : e ≠ .drain) :
    t.shuttingDown = s.shuttingDown := by
  cases hstep with
  | request i ping =>
    cases ping with
    | throws => rfl
    | returns settled => cases settled <;> rfl
  | microtask job L =>
    unfold Probes.resume
    split <;> try rfl
    split_ifs <;> rfl
  | drain => exact absurd rfl h
  | _ => rfl

theorem inv_step {hist : List (Event ι)} (h : Inv hist s)
    (hstep : Probes.machine.step s e = some t) : Inv (hist ++ [e]) t := by
  have hcases := step_cases hstep
  refine ⟨parted_step h.parted hcases, fun i => ?_, fun i => ?_⟩
  · rw [after_concat]
    by_cases he : e = .drain
    · subst he
      cases hcases
      rfl
    · rw [draining_next _ he, shuttingDown_step hcases he]
      exact h.draining i
  · rw [after_concat]
    exact stands_step h.parted (h.draining i) (h.stands i) hcases

/-- **Where a probe stands after a run** is where its race stands. -/
theorem inv_run (hrun : Probes.machine.run (.start : Probes ι) es = some t) : Inv es t :=
  Machine.run_history (M := Probes.machine) (G := fun _ _ => True) (I := Inv)
    (fun _ _ _ _ h _ hstep => inv_step h hstep) inv_start Machine.stepsMeet_true hrun

/-! ## Microtasks come to an end -/

/-- How many microtasks come of one, at most. -/
def Reaction.weight {ι : Type} : Reaction ι → ℕ
  | .racePing _ => 3
  | .raceTimeout _ => 3
  | .pingResume _ => 2
  | .routeResume _ => 1

/-- How many microtasks are to come, at most. -/
def Probes.work (s : Probes ι) : ℕ := (s.loop.queue.map fun job => job.1.weight).sum

/-- What waits for a pending promise. -/
def watch (s : Probes ι) (p : Promise ι) : ℕ := ((s.loop.reactions p).map Reaction.weight).sum

omit [DecidableEq ι] in
theorem watch_eq {p : Promise ι} {ks : List (Reaction ι)} (h : s.loop.reactions p = ks) :
    watch s p = (ks.map Reaction.weight).sum := by
  rw [watch, h]

/-- Only `pingRedis` awaits the race, and only the route awaits `pingRedis`. -/
theorem watch_le (h : At s i stage) : watch s (.race i) ≤ 2 ∧
    (s.loop.settled (.pingRedis i) = none → watch s (.pingRedis i) ≤ 1) := by
  have hfresh : Fresh s i → watch s (.race i) ≤ 2 ∧
      (s.loop.settled (.pingRedis i) = none → watch s (.pingRedis i) ≤ 1) := by
    intro hf
    rw [watch_eq (hf.reactions _ rfl), watch_eq (hf.reactions _ rfl)]
    exact ⟨by simp, fun _ => by simp⟩
  cases stage with
  | absent => exact hfresh h.1
  | refused => exact hfresh h.1
  | waiting =>
    rw [watch_eq h.race, watch_eq h.pingRedis]
    exact ⟨by simp [Reaction.weight], fun _ => by simp [Reaction.weight]⟩
  | decided redisOk =>
    cases h.2 with
    | racing winner others probe queue entrants wins pending race unfinished pingRedis =>
      rw [watch_eq race, watch_eq pingRedis]
      exact ⟨by simp [Reaction.weight], fun _ => by simp [Reaction.weight]⟩
    | raced before r after probe queue first last wins decided race unfinished pingRedis =>
      rw [watch_eq race, watch_eq pingRedis]
      exact ⟨by simp, fun _ => by simp [Reaction.weight]⟩
    | finished before after probe queue first last race timer settled =>
      rw [watch_eq race]
      exact ⟨by simp, fun hnone => absurd (settled.symm.trans hnone) (by simp)⟩
    | answered draining probe queue race timer settled =>
      rw [watch_eq race]
      exact ⟨by simp, fun hnone => absurd (settled.symm.trans hnone) (by simp)⟩

/-- A promise that settles starts what waits for it. -/
theorem work_settle {p : Promise ι} {n : ℕ} (h : s.loop.settled p = none → watch s p ≤ n) :
    (s.settle p r).work ≤ s.work + n := by
  cases hp : s.loop.settled p with
  | some r' =>
    rw [Probes.settle, Loop.settle_of_settled (by simp [hp])]
    exact Nat.le_add_right ..
  | none =>
    have hsum : (s.settle p r).work = s.work + watch s p := by
      rw [Probes.work, Probes.settle, Loop.settle_of_pending hp, List.map_append, List.map_map,
        List.sum_append]
      rfl
    rw [hsum]
    exact Nat.add_le_add_left (h hp) _

/-- **A microtask leaves less to do.** -/
theorem work_resume (h : ∀ i, ∃ stage, At s i stage) (htaken : s.loop.pop = some (job, L)) :
    ((s.taken L).resume job).work < s.work := by
  obtain ⟨k, r⟩ := job
  obtain ⟨rest, hqueue, rfl⟩ := Loop.pop_eq_some.mp htaken
  let u : Probes ι := s.taken { s.loop with queue := rest }
  have hwork : s.work = k.weight + u.work := by
    rw [Probes.work, hqueue, List.map_cons, List.sum_cons]
    rfl
  have hwatch : ∀ i, watch u (.race i) ≤ 2 ∧
      (u.loop.settled (.pingRedis i) = none → watch u (.pingRedis i) ≤ 1) := by
    intro i
    obtain ⟨stage, hi⟩ := h i
    have hle := watch_le hi
    exact hle
  have hrace : ∀ i, (u.settle (.race i) r).work ≤ u.work + 2 :=
    fun i => work_settle fun _ => (hwatch i).1
  have hfinish : ∀ i redisOk, (u.finish i redisOk).work ≤ u.work + 1 := by
    intro i redisOk
    exact work_settle (s := u.clearTimeout i) (hwatch i).2
  rw [hwork]
  cases k with
  | racePing i => exact (hrace i).trans_lt (by simp [Reaction.weight]; omega)
  | raceTimeout i => exact (hrace i).trans_lt (by simp [Reaction.weight]; omega)
  | pingResume i =>
    rw [resume_pingResume]
    exact (hfinish i _).trans_lt (by simp [Reaction.weight]; omega)
  | routeResume i =>
    have hsame : (u.resume (.routeResume i, r)).work = u.work := by
      cases r with
      | fulfilled value =>
        simp only [Probes.resume]
        split_ifs <;> rfl
      | rejected error => rfl
    exact (Nat.le_of_eq hsame).trans_lt (by simp [Reaction.weight])

/-- **No chain of microtasks goes on for ever**: after a number of them none is left. -/
theorem exists_idle {hist : List (Event ι)} (h : Inv hist s) :
    ∃ n t, Probes.machine.run s (List.replicate n .microtask) = some t ∧ t.loop.queue = [] := by
  have hstep : ∀ s : Probes ι, (∃ hist, Inv hist s) → ¬ s.loop.queue = [] →
      ∃ t, Probes.machine.step s .microtask = some t ∧ (∃ hist, Inv hist t) ∧ t.work < s.work := by
    rintro s ⟨hist, hs⟩ hbusy
    cases hpop : s.loop.pop with
    | none => exact absurd (Loop.pop_eq_none.mp hpop) hbusy
    | some taken =>
      obtain ⟨job, L⟩ := taken
      have hmicrotask : Probes.machine.step s .microtask = some ((s.taken L).resume job) := by
        simp [Probes.machine, hpop]
      exact ⟨_, hmicrotask, ⟨_, inv_step hs hmicrotask⟩,
        work_resume (fun i => ⟨_, hs.stands i⟩) hpop⟩
  obtain ⟨n, t, hrun, -, hidle⟩ := Machine.exists_run_replicate Probes.work hstep ⟨hist, h⟩
  exact ⟨n, t, hrun, hidle⟩

/-! ## The account of a probe -/

/-- What holds of a probe after a run. -/
structure ProbeAccount (es : List (Event ι)) (s : Probes ι) (i : ι) : Prop where
  /-- The reply is the one of what came first. -/
  answer : ∀ reply draining, s.probe i = .answered reply draining →
    (Race.after i es).stage.reply = some reply
  /-- The route never rejects. -/
  unfailed : ∀ error, s.probe i ≠ .failed error
  /-- A probe that waits when no microtask is left has its timer armed, and its ping is pending. -/
  bounded : s.loop.queue = [] → s.probe i = .waiting →
    s.timer i = some READINESS_TIMEOUT_MS ∧ (Race.after i es).stage = .waiting
  /-- No timer is armed once the probe is answered. -/
  released : ∀ reply draining, s.probe i = .answered reply draining → s.timer i = none
  /-- No promise is rejected without a handler. -/
  handled : ∀ p : Promise ι, p.probe = i → ¬ s.loop.Unhandled p

/-- A probe that stands where its race stands has no promise that is rejected without a handler. -/
theorem handled_of_stands (h : At s i stage) {p : Promise ι} (hp : p.probe = i) :
    ¬ s.loop.Unhandled p := by
  rintro ⟨⟨error, hrejected⟩, hunhandled⟩
  have hset : s.loop.settled p ≠ none := by simp [hrejected]
  cases stage with
  | absent => exact hset (h.1.settled p hp)
  | refused => exact hset (h.1.settled p hp)
  | waiting => exact hset (h.settled p hp)
  | decided redisOk =>
    obtain ⟨hcommon, hdecided⟩ := h
    -- `pingRedis` itself never rejects
    have hne : p ≠ .pingRedis i := by
      rintro rfl
      cases hdecided with
      | racing winner others probe queue entrants wins pending race unfinished =>
        exact hset unfinished
      | raced before r after probe queue first last wins decided race unfinished =>
        exact hset unfinished
      | finished before after probe queue first last race timer settled =>
        exact absurd (settled.symm.trans hrejected) (by simp)
      | answered draining probe queue race timer settled =>
        exact absurd (settled.symm.trans hrejected) (by simp)
    cases hpinged : s.pinged i with
    | false => exact hset (hcommon.unpinged hpinged p hp hne)
    | true =>
      exact absurd (hunhandled.symm.trans (hcommon.handled hpinged p hp)) Bool.false_ne_true

/-- A probe whose race is decided has the reply of the decision, if it has one. -/
theorem account_of_decided (h : Decided s i redisOk) :
    (∀ reply draining, s.probe i = .answered reply draining →
      reply = replyOf redisOk ∧ s.timer i = none) ∧ ∀ error, s.probe i ≠ .failed error := by
  have hwaiting : s.probe i = .waiting → (∀ reply draining, s.probe i = .answered reply draining →
      reply = replyOf redisOk ∧ s.timer i = none) ∧ ∀ error, s.probe i ≠ .failed error := by
    intro hprobe
    rw [hprobe]
    exact ⟨fun _ _ h => absurd h (by simp), fun _ => by simp⟩
  cases h with
  | racing winner others probe => exact hwaiting probe
  | raced before r after probe => exact hwaiting probe
  | finished before after probe => exact hwaiting probe
  | answered draining probe queue race timer settled =>
    rw [probe]
    exact ⟨fun _ _ h => ⟨(Probe.answered.inj h).1.symm, timer⟩, fun _ => by simp⟩

/-- **Every readiness probe is answered by its deadline**, whatever Redis does: its answer says what
came first, its ping or its timer; while it waits its timer is armed, and no chain of microtasks
goes on for ever; once it is answered nothing of it is left. -/
theorem probe_account (hrun : Probes.machine.run (.start : Probes ι) es = some s) :
    (∀ i, ProbeAccount es s i) ∧
      ∃ n t, Probes.machine.run s (List.replicate n .microtask) = some t ∧ t.loop.queue = [] := by
  have hinv := inv_run hrun
  refine ⟨fun i => ?_, exists_idle hinv⟩
  have hstands := hinv.stands i
  have hhandled : ∀ p : Promise ι, p.probe = i → ¬ s.loop.Unhandled p :=
    fun p hp => handled_of_stands hstands hp
  cases hstage : (Race.after i es).stage with
  | absent =>
    rw [hstage] at hstands
    obtain ⟨hfresh, hprobe⟩ := hstands
    exact ⟨fun _ _ h => by simp [hprobe] at h, fun _ h => by simp [hprobe] at h,
      fun _ h => by simp [hprobe] at h, fun _ _ _ => hfresh.timer, hhandled⟩
  | refused =>
    rw [hstage] at hstands
    obtain ⟨hfresh, hprobe⟩ := hstands
    refine ⟨fun reply draining h => ?_, fun _ h => by simp [hprobe] at h,
      fun _ h => by simp [hprobe] at h, fun _ _ _ => hfresh.timer, hhandled⟩
    rw [hprobe] at h
    rw [hstage, ← (Probe.answered.inj h).1]
    rfl
  | waiting =>
    rw [hstage] at hstands
    exact ⟨fun _ _ h => by simp [hstands.probe] at h, fun _ h => by simp [hstands.probe] at h,
      fun _ _ => ⟨hstands.timer, hstage⟩, fun _ _ h => by simp [hstands.probe] at h, hhandled⟩
  | decided redisOk =>
    rw [hstage] at hstands
    obtain ⟨hanswer, hunfailed⟩ := account_of_decided hstands.2
    refine ⟨fun reply draining h => ?_, hunfailed, fun hidle h => ?_,
      fun reply draining h => (hanswer reply draining h).2, hhandled⟩
    · rw [hstage, (hanswer reply draining h).1]
      rfl
    · obtain ⟨-, draining, hprobe⟩ := decided_idle hstands.2 (Loop.partQueue_eq_nil hidle)
      exact absurd (h.symm.trans hprobe) (by simp)

/-- A ping that fails after its timer has fired changes nothing any more. -/
theorem probe_account_late : ∃ s : Probes ℕ,
    Probes.machine.run .start [.request 0 (.returns none), .timer 0, .microtask, .microtask,
        .microtask, .ping 0 (.rejected (.value .undefined)), .microtask] = some s ∧
      s.probe 0 = .answered .notReady false ∧
      (∀ i, ProbeAccount [.request 0 (.returns none), .timer 0, .microtask, .microtask,
        .microtask, .ping 0 (.rejected (.value .undefined)), .microtask] s i) ∧
      ∃ n t, Probes.machine.run s (List.replicate n .microtask) = some t ∧ t.loop.queue = [] := by
  obtain ⟨s, hrun, hprobe⟩ : ∃ s : Probes ℕ,
      Probes.machine.run .start [.request 0 (.returns none), .timer 0, .microtask, .microtask,
          .microtask, .ping 0 (.rejected (.value .undefined)), .microtask] = some s ∧
        s.probe 0 = .answered .notReady false := ⟨_, rfl, rfl⟩
  exact ⟨s, hrun, hprobe, probe_account hrun⟩

end HealthRoutes

end QueueWorkerKit
