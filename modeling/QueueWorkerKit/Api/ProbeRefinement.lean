import QueueWorkerKit.Api.ProbeDeadlines

/-!
# Readiness probes, from promises to phases

The route with its promises does what the probes of `Api/Health.lean` do, whose pings settle in one
step: a ping is over when its race is, and the probe has its reply to send until the route resumes.
What is known of those probes therefore holds of the route.

## Main definitions

* `Probes.toReadiness`: the phases of the probes of a process

## Main results

* `exists_run_step`: a step is matched by a run of probes in phases
* `refines_readiness`: **every run of the route is a run of probes in phases**, with the same
  replies
-/

namespace QueueWorkerKit

open Ecma EventDriven

namespace HealthRoutes

variable {ι : Type} [DecidableEq ι]

/-- Whether the ping of a waiting probe is over: its `pingRedis` has a result, or its race has. -/
def pingOver (result race : Option Settled) : ProbePhase :=
  match result, race with
  | some (.fulfilled redisOk), _ => .pinged redisOk.truthy
  | some (.rejected _), _ => .pinging
  | none, some r => .pinged r.redisOk
  | none, none => .pinging

/-- The phase of a probe. -/
def Probes.phase (s : Probes ι) (i : ι) : ProbePhase :=
  match s.probe i with
  | .absent => .absent
  | .waiting => pingOver (s.loop.settled (.pingRedis i)) (s.loop.settled (.race i))
  | .answered reply draining => .answered reply draining
  | .failed _ => .absent

/-- The phases of the probes of a process. -/
def Probes.toReadiness (s : Probes ι) : Readiness ι := ⟨s.shuttingDown, s.phase⟩

/-- What settles the race of a ping. -/
def outcome : Reaction ι × Settled → PingOutcome
  | (_, .fulfilled _) => .pong
  | (.raceTimeout _, .rejected _) => .deadline
  | (_, .rejected _) => .rejected

variable {s t : Probes ι} {e : Event ι} {es : List (Event ι)} {i j : ι} {r : Settled}
  {redisOk : Bool} {p : ProbePhase} {stage : Stage} {ping : PingCall}
  {L : Loop (Promise ι) (Reaction ι) Value Thrown} {job : Reaction ι × Settled}

omit [DecidableEq ι] in
theorem pingRedis_outcome : pingRedis (outcome job) = job.2.redisOk := by
  obtain ⟨k, r⟩ := job
  cases r with
  | fulfilled value => rfl
  | rejected error => cases k <;> rfl

/-! ## Phases -/

omit [DecidableEq ι] in
theorem phase_of_waiting (hprobe : s.probe i = .waiting) :
    s.phase i = pingOver (s.loop.settled (.pingRedis i)) (s.loop.settled (.race i)) := by
  rw [Probes.phase, hprobe]

omit [DecidableEq ι] in
/-- The phase of a probe that does not wait depends on nothing else. -/
theorem phase_of_not_waiting (h : s.probe i ≠ .waiting) (hprobe : t.probe i = s.probe i) :
    t.phase i = s.phase i := by
  rw [Probes.phase, Probes.phase, hprobe]
  split
  · rfl
  · next hwaiting => exact absurd hwaiting h
  · rfl
  · rfl

omit [DecidableEq ι] in
/-- A ping that has a result is over, whatever the race says. -/
theorem pingOver_of_result {result : Settled} {race race' : Option Settled} :
    pingOver (some result) race = pingOver (some result) race' := by
  cases result <;> rfl

/-- A probe that is as it was is in the phase it was in. -/
theorem SameProbe.phase (h : SameProbe i s t) : t.phase i = s.phase i := by
  rw [Probes.phase, Probes.phase, h.probe, h.settled _ rfl, h.settled _ rfl]

/-- A process in which one probe has moved. -/
theorem toReadiness_move (hflag : t.shuttingDown = s.shuttingDown) (hi : t.phase i = p)
    (hframe : ∀ j, j ≠ i → t.phase j = s.phase j) : t.toReadiness = s.toReadiness.move i p := by
  refine congrArg₂ Readiness.mk hflag (funext fun j => ?_)
  by_cases hj : j = i
  · rw [hj, hi]
    exact (Readiness.phase_move_self (s := s.toReadiness)).symm
  · rw [hframe j hj]
    exact (Readiness.phase_move_of_ne (s := s.toReadiness) hj).symm

omit [DecidableEq ι] in
/-- A process in which no probe has moved. -/
theorem toReadiness_same (hflag : t.shuttingDown = s.shuttingDown)
    (hframe : ∀ j, t.phase j = s.phase j) : t.toReadiness = s.toReadiness :=
  congrArg₂ Readiness.mk hflag (funext hframe)

/-- A promise that a phase does not depend on. -/
theorem phase_settle {q : Promise ι} (hrace : Promise.race j ≠ q)
    (hpingRedis : Promise.pingRedis j ≠ q) : (s.settle q r).phase j = s.phase j := by
  have hsettled : ∀ p : Promise ι, p ≠ q → (s.settle q r).loop.settled p = s.loop.settled p :=
    fun p hp => Loop.settled_settle_of_ne hp
  rw [Probes.phase, Probes.phase, hsettled _ hrace, hsettled _ hpingRedis]
  rfl

theorem move_move {a : Readiness ι} {q : ProbePhase} : (a.move i p).move i q = a.move i q :=
  congrArg (Readiness.mk a.shuttingDown) (Function.update_idem ..)

/-! ## What a continuation finds -/

omit [DecidableEq ι] in
/-- An entry of the race is no other continuation. -/
theorem not_mem_of_entrants {jobs : List (Reaction ι × Settled)} (h : Entrants i jobs)
    (hping : job.1 ≠ .racePing i) (htimeout : job.1 ≠ .raceTimeout i) : job ∉ jobs :=
  fun hjob => (h job hjob).elim hping htimeout

/-- `pingRedis` resumes with the result of the race. -/
theorem raced_of_mem (h : Decided s i redisOk) (hmem : (Reaction.pingResume i, r) ∈ s.own i) :
    s.probe i = .waiting ∧ s.loop.settled (.race i) = some r ∧
      s.loop.settled (.pingRedis i) = none := by
  have hnot : ∀ jobs, Entrants i jobs → (Reaction.pingResume i, r) ∉ jobs :=
    fun jobs hjobs => not_mem_of_entrants hjobs (by simp) (by simp)
  cases h with
  | racing winner others probe queue entrants => exact absurd (queue ▸ hmem) (hnot _ entrants)
  | raced before r' after probe queue first last wins decided race unfinished pingRedis =>
    rw [queue, List.mem_append, List.mem_cons] at hmem
    rcases hmem with hmem | heq | hmem
    · exact absurd hmem (hnot _ first)
    · obtain rfl := (Prod.mk.inj heq).2
      exact ⟨probe, decided, unfinished⟩
    · exact absurd hmem (hnot _ last)
  | finished before after probe queue first last =>
    rw [queue, List.mem_append, List.mem_cons] at hmem
    rcases hmem with hmem | heq | hmem
    · exact absurd hmem (hnot _ first)
    · exact absurd (Prod.mk.inj heq).1 (by simp)
    · exact absurd hmem (hnot _ last)
  | answered draining probe queue => exact absurd hmem (hnot _ queue)

/-- The route resumes with what `pingRedis` returns. -/
theorem finished_of_mem (h : Decided s i redisOk) (hmem : (Reaction.routeResume i, r) ∈ s.own i) :
    s.probe i = .waiting ∧ r = .fulfilled (.ok redisOk) ∧
      s.loop.settled (.pingRedis i) = some (.fulfilled (.ok redisOk)) := by
  have hnot : ∀ jobs, Entrants i jobs → (Reaction.routeResume i, r) ∉ jobs :=
    fun jobs hjobs => not_mem_of_entrants hjobs (by simp) (by simp)
  cases h with
  | racing winner others probe queue entrants => exact absurd (queue ▸ hmem) (hnot _ entrants)
  | raced before r' after probe queue first last =>
    rw [queue, List.mem_append, List.mem_cons] at hmem
    rcases hmem with hmem | heq | hmem
    · exact absurd hmem (hnot _ first)
    · exact absurd (Prod.mk.inj heq).1 (by simp)
    · exact absurd hmem (hnot _ last)
  | finished before after probe queue first last race timer settled =>
    rw [queue, List.mem_append, List.mem_cons] at hmem
    rcases hmem with hmem | heq | hmem
    · exact absurd hmem (hnot _ first)
    · exact ⟨probe, (Prod.mk.inj heq).2, settled⟩
    · exact absurd hmem (hnot _ last)
  | answered draining probe queue => exact absurd hmem (hnot _ queue)

/-- A probe with a microtask has its race decided. -/
theorem decided_of_mem (h : At s i stage) (hmem : job ∈ s.own i) :
    ∃ redisOk, Decided s i redisOk := by
  have hempty : s.own i = [] → False := by
    intro hnil
    rw [hnil] at hmem
    exact absurd hmem List.not_mem_nil
  cases stage with
  | absent => exact (hempty h.1.queue).elim
  | refused => exact (hempty h.1.queue).elim
  | waiting => exact (hempty h.queue).elim
  | decided redisOk => exact ⟨redisOk, h.2⟩

/-! ## Each step is a run of probes in phases -/

/-- A request. -/
theorem exists_run_request (hs : s.Parted) (hfresh : Fresh s i) (habsent : s.probe i = .absent)
    (hserving : s.shuttingDown = false) (hstep : Step s (.request i ping) (awaited s i ping)) :
    ∃ as, Readiness.machine.run s.toReadiness as = some (awaited s i ping).toReadiness := by
  have hphase : s.toReadiness.phase i = .absent := by
    show s.phase i = _
    rw [Probes.phase, habsent]
  have hflag : s.toReadiness.shuttingDown = false := hserving
  have hprobe : Readiness.machine.step s.toReadiness (.probe i) =
      some (s.toReadiness.move i .pinging) := by
    simp [Readiness.machine, hphase, hflag]
  have hwaiting : (awaited s i ping).probe i = .waiting := Function.update_self ..
  have hframe : ∀ j, j ≠ i → (awaited s i ping).phase j = s.phase j := by
    intro j hj
    refine SameProbe.phase ?_
    exact ((sameProbe_pingRedis hs hj.symm).trans (sameProbe_move hj.symm)).trans
      (sameProbe_subscribe rfl hj.symm)
  have hsame := shuttingDown_step hstep (by simp)
  cases ping with
  | throws error =>
    have hover : (awaited s i (.throws error)).phase i = .pinged false := by
      have hresult : (awaited s i (.throws error)).loop.settled (.pingRedis i) =
          some (.fulfilled (.ok false)) := by
        refine (congrFun Loop.settled_subscribe _).trans (Loop.settled_settle_self.trans ?_)
        exact congrArg (fun earlier : Option Settled => some (earlier.getD _))
          (hfresh.settled _ rfl)
      rw [phase_of_waiting hwaiting, hresult]
      rfl
    have hping : Readiness.machine.step (s.toReadiness.move i .pinging) (.ping i .rejected) =
        some (s.toReadiness.move i (.pinged false)) := by
      simp only [Readiness.machine, Readiness.phase_move_self, move_move]
      rfl
    refine ⟨[.probe i, .ping i .rejected], Machine.run_cons.mpr ⟨_, hprobe, ?_⟩⟩
    rw [toReadiness_move hsame hover hframe]
    exact Machine.run_cons.mpr ⟨_, hping, rfl⟩
  | returns settled =>
    have hover : (awaited s i (.returns settled)).phase i = .pinging := by
      have hpending : ∀ p : Promise ι, p.probe = i → p ≠ .ping i →
          (awaited s i (.returns settled)).loop.settled p = none := by
        intro p hp hne
        refine (congrFun settled_raced p).trans ?_
        cases settled with
        | none => exact hfresh.settled p hp
        | some r => exact (Loop.settled_settle_of_ne hne).trans (hfresh.settled p hp)
      rw [phase_of_waiting hwaiting, hpending _ rfl (by simp), hpending _ rfl (by simp)]
      rfl
    refine ⟨[.probe i], Machine.run_cons.mpr ⟨_, hprobe, ?_⟩⟩
    rw [toReadiness_move hsame hover hframe]
    rfl

/-- A race that is closed settles nothing. -/
theorem phase_settle_closed (hclosed : s.probe i = .waiting →
      s.loop.settled (.pingRedis i) = none → s.loop.settled (.race i) ≠ none) :
    (s.settle (.race i) r).phase i = s.phase i := by
  have hresult : (s.settle (.race i) r).loop.settled (.pingRedis i) =
      s.loop.settled (.pingRedis i) := Loop.settled_settle_of_ne (by simp)
  by_cases hprobe : s.probe i = .waiting
  · have hprobe' : (s.settle (.race i) r).probe i = .waiting := hprobe
    rw [phase_of_waiting hprobe, phase_of_waiting hprobe', hresult]
    cases hnone : s.loop.settled (.pingRedis i) with
    | some result => exact pingOver_of_result
    | none =>
      obtain ⟨r', hrace⟩ := Option.ne_none_iff_exists'.mp (hclosed hprobe hnone)
      rw [Probes.settle, Loop.settle_of_settled (by simp [hrace])]
  · exact phase_of_not_waiting hprobe rfl

/-- An entry of the race settles the ping of a probe whose race is open, and nothing else. -/
theorem exists_run_entrant (hjob : job.1 = .racePing i ∨ job.1 = .raceTimeout i) :
    ∃ as, Readiness.machine.run s.toReadiness as = some (s.resume job).toReadiness := by
  rw [resume_entrant hjob]
  have hframe : ∀ j, j ≠ i → (s.settle (.race i) job.2).phase j = s.phase j :=
    fun j hj => phase_settle (by simpa using hj) (by simp)
  by_cases hopen : s.probe i = .waiting ∧ s.loop.settled (.pingRedis i) = none ∧
      s.loop.settled (.race i) = none
  · obtain ⟨hprobe, hnone, hpending⟩ := hopen
    have hphase : s.toReadiness.phase i = .pinging := by
      show s.phase i = _
      rw [phase_of_waiting hprobe, hnone, hpending]
      rfl
    have hover : (s.settle (.race i) job.2).phase i = .pinged (pingRedis (outcome job)) := by
      have hprobe' : (s.settle (.race i) job.2).probe i = .waiting := hprobe
      have hresult : (s.settle (.race i) job.2).loop.settled (.pingRedis i) = none :=
        (Loop.settled_settle_of_ne (by simp)).trans hnone
      have hrace : (s.settle (.race i) job.2).loop.settled (.race i) = some job.2 := by
        refine Loop.settled_settle_self.trans ?_
        rw [hpending, Option.getD_none]
      rw [phase_of_waiting hprobe', hresult, hrace, pingRedis_outcome]
      rfl
    refine ⟨[.ping i (outcome job)], Machine.run_cons.mpr ⟨_, ?_, rfl⟩⟩
    rw [toReadiness_move (s := s) (t := s.settle (.race i) job.2) rfl hover hframe]
    simp [Readiness.machine, hphase]
  · refine ⟨[], congrArg some (Eq.symm (toReadiness_same rfl fun j => ?_))⟩
    by_cases hj : j = i
    · subst hj
      exact phase_settle_closed fun hprobe hnone hpending => hopen ⟨hprobe, hnone, hpending⟩
    · exact hframe j hj

/-- `pingRedis` resumes, which the phases have seen coming. -/
theorem exists_run_pingResume (hprobe : s.probe i = .waiting)
    (hrace : s.loop.settled (.race i) = some r) (hnone : s.loop.settled (.pingRedis i) = none) :
    ∃ as, Readiness.machine.run s.toReadiness as =
      some (s.resume (.pingResume i, r)).toReadiness := by
  rw [resume_pingResume]
  refine ⟨[], congrArg some (Eq.symm (toReadiness_same rfl fun j => ?_))⟩
  by_cases hj : j = i
  · subst hj
    have hprobe' : (s.finish j (Settled.redisOk r)).probe j = .waiting := hprobe
    have hresult : (s.finish j (Settled.redisOk r)).loop.settled (.pingRedis j) =
        some (.fulfilled (.ok (Settled.redisOk r))) := by
      refine Loop.settled_settle_self.trans ?_
      exact congrArg (fun earlier : Option Settled => some (earlier.getD _)) hnone
    rw [phase_of_waiting hprobe', phase_of_waiting hprobe, hresult, hnone, hrace]
    rfl
  · exact phase_settle (s := s.clearTimeout i) (by simp) (by simpa using hj)

/-- The route resumes and replies. -/
theorem exists_run_routeResume (hprobe : s.probe i = .waiting)
    (hresult : s.loop.settled (.pingRedis i) = some (.fulfilled (.ok redisOk))) :
    ∃ as, Readiness.machine.run s.toReadiness as =
      some (s.resume (.routeResume i, .fulfilled (.ok redisOk))).toReadiness := by
  rw [resume_routeResume]
  have hphase : s.toReadiness.phase i = .pinged redisOk := by
    show s.phase i = _
    rw [phase_of_waiting hprobe, hresult]
    rfl
  have hanswered : (s.send i (replyOf redisOk)).phase i =
      .answered (replyOf redisOk) s.shuttingDown := by
    have hprobe' : (s.send i (replyOf redisOk)).probe i =
        .answered (replyOf redisOk) s.shuttingDown := Function.update_self ..
    rw [Probes.phase, hprobe']
  have hframe : ∀ j, j ≠ i → (s.send i (replyOf redisOk)).phase j = s.phase j :=
    fun j hj => (sameProbe_move hj.symm).phase
  refine ⟨[.reply i], Machine.run_cons.mpr ⟨_, ?_, rfl⟩⟩
  rw [toReadiness_move (s := s) (t := s.send i (replyOf redisOk)) rfl hanswered hframe]
  cases redisOk with
  | true =>
    simp only [Readiness.machine, hphase]
    rfl
  | false =>
    simp only [Readiness.machine, hphase]
    rfl

/-- **A microtask** is a run of probes in phases. -/
theorem exists_run_microtask (h : ∀ i, ∃ stage, At s i stage)
    (htaken : s.loop.pop = some (job, L)) :
    ∃ as, Readiness.machine.run s.toReadiness as = some ((s.taken L).resume job).toReadiness := by
  obtain ⟨k, r⟩ := job
  have hsettled : (s.taken L).loop.settled = s.loop.settled := Loop.settled_pop htaken
  have hsame : (s.taken L).toReadiness = s.toReadiness := by
    refine toReadiness_same rfl fun j => ?_
    rw [Probes.phase, Probes.phase, hsettled]
  have hmem : (k, r) ∈ s.own k.probe := by
    have hown : s.own k.probe = (k, r) :: (s.taken L).own k.probe := Loop.partQueue_pop htaken rfl
    rw [hown]
    exact List.mem_cons_self ..
  obtain ⟨stage, hstands⟩ := h k.probe
  obtain ⟨redisOk, hdecided⟩ := decided_of_mem hstands hmem
  rw [← hsame]
  cases k with
  | racePing i => exact exists_run_entrant (Or.inl rfl)
  | raceTimeout i => exact exists_run_entrant (Or.inr rfl)
  | pingResume i =>
    obtain ⟨hprobe, hrace, hnone⟩ := raced_of_mem hdecided hmem
    exact exists_run_pingResume hprobe ((congrFun hsettled _).trans hrace)
      ((congrFun hsettled _).trans hnone)
  | routeResume i =>
    obtain ⟨hprobe, rfl, hresult⟩ := finished_of_mem hdecided hmem
    exact exists_run_routeResume hprobe ((congrFun hsettled _).trans hresult)

/-- **Each step of the route is a run of probes in phases.** -/
theorem exists_run_step {hist : List (Event ι)} (h : Inv hist s)
    (hstep : Probes.machine.step s e = some t) :
    ∃ as, Readiness.machine.run s.toReadiness as = some t.toReadiness := by
  have hcases := step_cases hstep
  cases hcases with
  | refused i ping absent draining =>
    have hphase : s.toReadiness.phase i = .absent := by
      show s.phase i = _
      rw [Probes.phase, absent]
    have hflag : s.toReadiness.shuttingDown = true := draining
    have hprobe : (s.send i .notReady).probe i = .answered .notReady s.shuttingDown :=
      Function.update_self ..
    have hanswered : (s.send i .notReady).phase i = .answered .notReady s.shuttingDown := by
      rw [Probes.phase, hprobe]
    refine ⟨[.probe i], Machine.run_cons.mpr ⟨_, ?_, rfl⟩⟩
    rw [toReadiness_move (s := s) (t := s.send i .notReady) rfl hanswered
      fun j hj => (sameProbe_move hj.symm).phase]
    simp only [Readiness.machine, hphase, hflag]
    rfl
  | request i ping absent serving =>
    obtain ⟨hfresh, -⟩ := stage_of_absent (h.stands i) absent
    exact exists_run_request h.parted hfresh absent serving (step_cases hstep)
  | ping i r pinged =>
    refine ⟨[], congrArg some (Eq.symm (toReadiness_same rfl fun j => ?_))⟩
    exact phase_settle (by simp) (by simp)
  | timer i timeoutMs armed idle =>
    refine ⟨[], congrArg some (Eq.symm (toReadiness_same rfl fun j => ?_))⟩
    exact phase_settle (s := s.clearTimeout i) (by simp) (by simp)
  | microtask job L taken => exact exists_run_microtask (fun i => ⟨_, h.stands i⟩) taken
  | drain => exact ⟨[.drain], rfl⟩

omit [DecidableEq ι] in
/-- The replies of the probes are those of their phases. -/
theorem answered_toReadiness {reply : ReadyReply} {draining : Bool} :
    s.toReadiness.phase i = .answered reply draining ↔ s.probe i = .answered reply draining := by
  show s.phase i = _ ↔ _
  cases hprobe : s.probe i with
  | absent => simp [Probes.phase, hprobe]
  | waiting =>
    rw [phase_of_waiting hprobe]
    unfold pingOver
    split <;> simp
  | answered reply' draining' => simp [Probes.phase, hprobe]
  | failed error => simp [Probes.phase, hprobe]

/-- **Every run of the route is a run of probes in phases**: probes whose pings settle in one step
come to the same flag and to the same replies, each sent at the same side of the draining step. -/
theorem refines_readiness (hrun : Probes.machine.run (.start : Probes ι) es = some s) :
    ∃ as a, Readiness.machine.run (Readiness.start : Readiness ι) as = some a ∧
      a.shuttingDown = s.shuttingDown ∧ ∀ i reply draining,
        a.phase i = .answered reply draining ↔ s.probe i = .answered reply draining := by
  obtain ⟨as, has⟩ := Machine.exists_run_of_steps (M := Probes.machine) (N := Readiness.machine)
    (f := Probes.toReadiness) (I := Inv) (fun _ _ _ _ h hstep => inv_step h hstep)
    (fun _ _ _ _ h hstep => exists_run_step h hstep) inv_start hrun
  exact ⟨as, s.toReadiness, has, rfl, fun _ _ _ => answered_toReadiness⟩

/-- A ping that settles after draining has begun, and the reply that says ready all the same. -/
theorem refines_readiness_late : ∃ s : Probes ℕ,
    Probes.machine.run .start [.request 0 (.returns none), .drain,
        .ping 0 (.fulfilled (.reply (js "PONG"))), .microtask, .microtask, .microtask] = some s ∧
      s.probe 0 = .answered .ready true ∧
      ∃ as a, Readiness.machine.run (Readiness.start : Readiness ℕ) as = some a ∧
        a.shuttingDown = s.shuttingDown ∧ ∀ i reply draining,
          a.phase i = .answered reply draining ↔ s.probe i = .answered reply draining := by
  obtain ⟨s, hrun, hprobe⟩ : ∃ s : Probes ℕ,
      Probes.machine.run .start [.request 0 (.returns none), .drain,
          .ping 0 (.fulfilled (.reply (js "PONG"))), .microtask, .microtask, .microtask] =
          some s ∧
        s.probe 0 = .answered .ready true := ⟨_, rfl, rfl⟩
  exact ⟨s, hrun, hprobe, refines_readiness hrun⟩

end HealthRoutes

end QueueWorkerKit
