import QueueWorkerKit.Library.Machine
import QueueWorkerKit.Library.Text

/-!
# Readiness probes while draining

The readiness route of `api/routes/health.routes.ts` with the bounded ping of `queue/connection.ts`,
while the first step of the API's shutdown sets the flag it checks. A probe checks the flag when it
arrives, waits for the ping, and replies without another look at the flag. Probes overlap in any
way.

## Main definitions

* `ReadyReply`, `PingOutcome`, `pingRedis`: the replies, and the ping that is raced with its
  deadline
* `ProbePhase`, `Readiness`: where a probe stands, and the process with its probes
* `Readiness.machine`: the runs of probes and of the draining step
* `Readiness.NeverReady`, `Clear`: no late reply says ready, and the steps that lead to none

## Main results

* `refused_after_drain`: a probe that arrives while draining is refused
* `neverReady_iff`: **which runs say ready to nobody once draining has begun**
-/

namespace QueueWorkerKit

open Ecma EventDriven

/-- A reply of the route: its status code, its status and the check of Redis. -/
structure ReadyReply where
  statusCode : ℕ
  status : JsString
  redis : Bool

def ReadyReply.ready : ReadyReply := ⟨200, js "ok", true⟩

def ReadyReply.notReady : ReadyReply := ⟨503, js "not_ready", false⟩

/-- What settles the race of a ping with its deadline. -/
inductive PingOutcome
  | pong
  | rejected
  | deadline
  deriving DecidableEq

def pingRedis : PingOutcome → Bool
  | .pong => true
  | .rejected => false
  | .deadline => false

/-- A probe that has not arrived, that waits for its ping, whose ping is over, or that has sent its
reply, while the process was `draining` or not. -/
inductive ProbePhase
  | absent
  | pinging
  | pinged (redisOk : Bool)
  | answered (reply : ReadyReply) (draining : Bool)

/-- The flag of the process, and the probes. -/
structure Readiness (ι : Type*) where
  shuttingDown : Bool
  phase : ι → ProbePhase

/-- A probe arrives, its ping settles, it replies, or the draining step runs. -/
inductive ReadinessEvent (ι : Type*)
  | probe (i : ι)
  | ping (i : ι) (outcome : PingOutcome)
  | reply (i : ι)
  | drain

namespace Readiness

variable {ι : Type*} [DecidableEq ι]

def start : Readiness ι := ⟨false, fun _ => .absent⟩

/-- A probe comes to a phase. -/
def move (s : Readiness ι) (i : ι) (p : ProbePhase) : Readiness ι :=
  { s with phase := Function.update s.phase i p }

/-- A probe sends a reply. -/
def send (s : Readiness ι) (i : ι) (reply : ReadyReply) : Readiness ι :=
  s.move i (.answered reply s.shuttingDown)

/-- The runs of overlapping probes and of the draining step. -/
def machine : Machine (Readiness ι) (ReadinessEvent ι) where
  step s
    | .probe i =>
      match s.phase i with
      | .absent =>
        if s.shuttingDown then some (s.send i .notReady)
        else some (s.move i .pinging)
      | _ => none
    | .ping i outcome =>
      match s.phase i with
      | .absent => none
      | .pinging =>
        some (s.move i (.pinged (pingRedis outcome)))
      -- what settles a race that is over changes nothing
      | _ => some s
    | .reply i =>
      match s.phase i with
      | .pinged redisOk =>
        if !redisOk then some (s.send i .notReady) else some (s.send i .ready)
      | _ => none
    | .drain => some { s with shuttingDown := true }

/-- No reply that was sent while draining says ready. -/
def NeverReady (s : Readiness ι) : Prop :=
  ∀ i reply, s.phase i = .answered reply true → reply.statusCode ≠ 200

/-- Every probe that has arrived has been answered. -/
def AllAnswered (s : Readiness ι) : Prop :=
  ∀ i, s.phase i = .absent ∨ ∃ reply draining, s.phase i = .answered reply draining

/-- Draining does not begin while a probe with a successful ping has its reply to send, and no ping
succeeds once it has begun. -/
def Clear (s : Readiness ι) : ReadinessEvent ι → Prop
  | .drain => ∀ i, s.phase i ≠ .pinged true
  | .ping i outcome => s.phase i = .pinging → outcome = .pong → s.shuttingDown = false
  | _ => True

variable {s t : Readiness ι} {e : ReadinessEvent ι} {es : List (ReadinessEvent ι)}

/-- What each event does where it can happen. -/
inductive Step (s : Readiness ι) : ReadinessEvent ι → Readiness ι → Prop
  | refused (i : ι) (absent : s.phase i = .absent) (draining : s.shuttingDown = true) :
      Step s (.probe i) (s.send i .notReady)
  | probe (i : ι) (absent : s.phase i = .absent) (serving : s.shuttingDown = false) :
      Step s (.probe i) (s.move i .pinging)
  | ping (i : ι) (outcome : PingOutcome) (pinging : s.phase i = .pinging) :
      Step s (.ping i outcome) (s.move i (.pinged (pingRedis outcome)))
  | settled (i : ι) (outcome : PingOutcome) (settled : s.phase i ≠ .pinging) :
      Step s (.ping i outcome) s
  | notReady (i : ι) (pinged : s.phase i = .pinged false) :
      Step s (.reply i) (s.send i .notReady)
  | ready (i : ι) (pinged : s.phase i = .pinged true) : Step s (.reply i) (s.send i .ready)
  | drain : Step s .drain { s with shuttingDown := true }

/-- **What a step does**: one case for each branch of the route, and the draining step. -/
theorem step_cases (hstep : machine.step s e = some t) : Step s e t := by
  cases e with
  | probe i =>
    simp only [machine] at hstep
    split at hstep
    · next habsent =>
      split_ifs at hstep with hdraining
      · obtain rfl := Option.some.inj hstep
        exact .refused i habsent hdraining
      · obtain rfl := Option.some.inj hstep
        exact .probe i habsent (by simpa using hdraining)
    · cases hstep
  | ping i outcome =>
    simp only [machine] at hstep
    split at hstep
    · cases hstep
    · next hpinging =>
      obtain rfl := Option.some.inj hstep
      exact .ping i outcome hpinging
    · next hnot =>
      obtain rfl := Option.some.inj hstep
      exact .settled i outcome hnot
  | reply i =>
    simp only [machine] at hstep
    split at hstep
    · next redisOk hpinged =>
      cases redisOk with
      | true =>
        obtain rfl := Option.some.inj hstep
        exact .ready i hpinged
      | false =>
        obtain rfl := Option.some.inj hstep
        exact .notReady i hpinged
    · cases hstep
  | drain =>
    obtain rfl := Option.some.inj hstep
    exact .drain

theorem pingRedis_eq_true {outcome : PingOutcome} : pingRedis outcome = true ↔ outcome = .pong := by
  cases outcome <;> simp [pingRedis]

theorem notReady_ne_ready : ReadyReply.notReady ≠ .ready := by
  simp [ReadyReply.ready, ReadyReply.notReady]

/-! ## Where the probes stand -/

variable {i j : ι} {p : ProbePhase} {reply : ReadyReply}

@[simp] theorem shuttingDown_move : (s.move i p).shuttingDown = s.shuttingDown := rfl

@[simp] theorem phase_move_self : (s.move i p).phase i = p := Function.update_self ..

theorem phase_move_of_ne (h : j ≠ i) : (s.move i p).phase j = s.phase j := Function.update_of_ne h ..

/-- **A probe that arrives while draining is refused.** -/
theorem refused_after_drain (hdraining : s.shuttingDown = true)
    (hstep : machine.step s (.probe i) = some t) : t.phase i = .answered .notReady true := by
  cases step_cases hstep with
  | refused => rw [send, phase_move_self, hdraining]
  | probe i absent serving => exact absurd (serving.symm.trans hdraining) Bool.false_ne_true

/-- A reply of the route is one of two. -/
def RouteReplies (s : Readiness ι) : Prop :=
  ∀ i reply draining, s.phase i = .answered reply draining → reply = .ready ∨ reply = .notReady

theorem RouteReplies.move (h : RouteReplies s)
    (hp : ∀ reply draining, p = .answered reply draining → reply = .ready ∨ reply = .notReady) :
    RouteReplies (s.move i p) := by
  intro j reply draining hj
  by_cases hij : j = i
  · rw [hij, phase_move_self] at hj
    exact hp reply draining hj
  · rw [phase_move_of_ne hij] at hj
    exact h j reply draining hj

theorem RouteReplies.send (h : RouteReplies s) (hreply : reply = .ready ∨ reply = .notReady) :
    RouteReplies (s.send i reply) := by
  refine h.move fun reply' draining heq => ?_
  obtain rfl := (ProbePhase.answered.inj heq).1
  exact hreply

theorem routeReplies_step (h : RouteReplies s) (hstep : machine.step s e = some t) :
    RouteReplies t := by
  cases step_cases hstep with
  | refused => exact h.send (Or.inr rfl)
  | probe => exact h.move fun _ _ heq => by cases heq
  | ping => exact h.move fun _ _ heq => by cases heq
  | settled => exact h
  | notReady => exact h.send (Or.inr rfl)
  | ready => exact h.send (Or.inl rfl)
  | drain => exact h

/-! ## Late replies -/

/-- A probe that has said ready while draining, or is about to. -/
def Late (s : Readiness ι) (i : ι) : Prop :=
  (s.shuttingDown = true ∧ s.phase i = .pinged true) ∨ s.phase i = .answered .ready true

theorem late_move_self : (s.move i p).Late i ↔
    (s.shuttingDown = true ∧ p = .pinged true) ∨ p = .answered .ready true := by
  rw [Late, phase_move_self, shuttingDown_move]

theorem late_move_of_ne (h : j ≠ i) : (s.move i p).Late j ↔ s.Late j := by
  rw [Late, Late, phase_move_of_ne h, shuttingDown_move]

/-- A probe that moves to where it is not late makes none late. -/
theorem notLate_move (h : ∀ j, ¬ s.Late j)
    (hp : ¬ ((s.shuttingDown = true ∧ p = .pinged true) ∨ p = .answered .ready true)) (j : ι) :
    ¬ (s.move i p).Late j := by
  by_cases hij : j = i
  · rw [hij, late_move_self]
    exact hp
  · rw [late_move_of_ne hij]
    exact h j

/-- Another probe that moves leaves a late one late. -/
theorem late_move (h : s.Late j) (hi : ¬ s.Late i) : (s.move i p).Late j := by
  rw [late_move_of_ne]
  · exact h
  · rintro rfl
    exact hi h

/-- A step that is clear makes no probe late. -/
theorem notLate_step (h : ∀ i, ¬ s.Late i) (hclear : Clear s e)
    (hstep : machine.step s e = some t) (j : ι) : ¬ t.Late j := by
  cases step_cases hstep with
  | refused i absent draining => exact notLate_move h (by simp [notReady_ne_ready]) j
  | probe i absent serving => exact notLate_move h (by simp) j
  | ping i outcome pinging =>
    apply notLate_move h
    rintro (⟨hdraining, hpinged⟩ | hanswered)
    · -- no ping succeeds while draining
      have hpong := pingRedis_eq_true.mp (ProbePhase.pinged.inj hpinged)
      exact Bool.false_ne_true ((hclear pinging hpong).symm.trans hdraining)
    · cases hanswered
  | settled i outcome settled => exact h j
  | notReady i pinged => exact notLate_move h (by simp [notReady_ne_ready]) j
  | ready i pinged =>
    apply notLate_move h
    rintro (⟨-, hpinged⟩ | hanswered)
    · cases hpinged
    · -- the probe would have been about to say ready
      exact h i (Or.inl ⟨(ProbePhase.answered.inj hanswered).2, pinged⟩)
  | drain =>
    rintro (⟨-, hpinged⟩ | hanswered)
    · exact hclear j hpinged
    · exact h j (Or.inr hanswered)

/-- A step that is not clear makes a probe late. -/
theorem late_of_not_clear (hclear : ¬ Clear s e) (hstep : machine.step s e = some t) :
    ∃ i, t.Late i := by
  cases step_cases hstep with
  | drain =>
    simp only [Clear, not_forall, not_not] at hclear
    obtain ⟨i, hpinged⟩ := hclear
    exact ⟨i, Or.inl ⟨rfl, hpinged⟩⟩
  | ping i outcome pinging =>
    simp only [Clear, Classical.not_imp, Bool.not_eq_false] at hclear
    obtain ⟨-, rfl, hdraining⟩ := hclear
    exact ⟨i, late_move_self.mpr (Or.inl ⟨hdraining, rfl⟩)⟩
  | settled i outcome settled => exact absurd (fun hpinging => absurd hpinging settled) hclear
  | _ => exact absurd trivial hclear

/-- A probe stays late. -/
theorem late_step (h : s.Late j) (hstep : machine.step s e = some t) : t.Late j := by
  cases step_cases hstep with
  | refused i absent draining => exact late_move h (by simp [Late, absent])
  | probe i absent serving => exact late_move h (by simp [Late, absent])
  | ping i outcome pinging => exact late_move h (by simp [Late, pinging])
  | settled i outcome settled => exact h
  | notReady i pinged => exact late_move h (by simp [Late, pinged])
  | ready i pinged =>
    by_cases hij : j = i
    · subst hij
      rcases h with ⟨hdraining, -⟩ | hanswered
      · exact late_move_self.mpr (Or.inr (by rw [hdraining]))
      · cases pinged.symm.trans hanswered
    · exact (late_move_of_ne hij).mpr h
  | drain =>
    rcases h with ⟨-, hpinged⟩ | hanswered
    · exact Or.inl ⟨rfl, hpinged⟩
    · exact Or.inr hanswered

/-- **No probe is late exactly if every step was clear.** -/
theorem notLate_iff (hrun : machine.run (start : Readiness ι) es = some t) :
    (∀ i, ¬ t.Late i) ↔ machine.StepsMeet Clear start es := by
  refine Machine.run_iff (I := fun s => ∀ i, ¬ s.Late i) (D := fun s => ∃ i, s.Late i)
    (fun s e t h hclear hstep => notLate_step h hclear hstep)
    (fun s e t _ hclear hstep => late_of_not_clear hclear hstep)
    (fun s e t hlate hstep => ?_) (fun s h => h) (fun s hlate hnot => ?_) ?_ hrun
  · obtain ⟨i, hi⟩ := hlate
    exact ⟨i, late_step hi hstep⟩
  · obtain ⟨i, hi⟩ := hlate
    exact hnot i hi
  · rintro i (⟨hdraining, -⟩ | hanswered)
    · cases hdraining
    · cases hanswered

/-- **Which runs say ready to nobody once draining has begun**: those whose steps are clear, and,
where every probe has been answered, only those. -/
theorem neverReady_iff (hrun : machine.run (start : Readiness ι) es = some t) :
    (machine.StepsMeet Clear start es → NeverReady t) ∧
      (AllAnswered t → (NeverReady t ↔ machine.StepsMeet Clear start es)) := by
  have hreplies : RouteReplies t :=
    Machine.run_invariant (G := fun _ _ => True) (I := RouteReplies)
      (fun s e t h _ hstep => routeReplies_step h hstep) (fun i reply draining h => by cases h)
      Machine.stepsMeet_true hrun
  have hclear : machine.StepsMeet Clear start es → NeverReady t := by
    intro hsteps i reply hreply hok
    have hnot := (notLate_iff hrun).mpr hsteps i
    rcases hreplies i reply true hreply with rfl | rfl
    · exact hnot (Or.inr hreply)
    · exact absurd hok (by decide)
  refine ⟨hclear, fun hall => ⟨fun hnever => ?_, hclear⟩⟩
  apply (notLate_iff hrun).mp
  rintro i (⟨-, hpinged⟩ | hanswered)
  · -- every probe has been answered, so none is about to be
    rcases hall i with habsent | ⟨reply, draining, hanswered⟩
    · cases hpinged.symm.trans habsent
    · cases hpinged.symm.trans hanswered
  · exact hnever i .ready hanswered rfl

theorem neverReady_iff_timedOut : ∃ t,
    machine.run (start : Readiness ℕ) [.probe 0, .drain, .ping 0 .deadline, .reply 0] = some t ∧
      NeverReady t := by
  obtain ⟨s, t, hfirst, hrun⟩ : ∃ s t, machine.step (start : Readiness ℕ) (.probe 0) = some s ∧
      machine.run (start : Readiness ℕ) [.probe 0, .drain, .ping 0 .deadline, .reply 0] = some t :=
    ⟨_, _, rfl, rfl⟩
  refine ⟨t, hrun, (neverReady_iff hrun).1 ⟨trivial, ?_⟩⟩
  rintro _ hs
  obtain rfl := Option.some.inj (hfirst.symm.trans hs)
  have hpinged : ∀ i, s.phase i ≠ .pinged true := by
    intro i
    obtain rfl := Option.some.inj hfirst
    by_cases hi : i = 0
    · rw [hi, phase_move_self]
      simp
    · rw [phase_move_of_ne hi]
      simp [start]
  -- what comes after the draining step is a ping that fails, and the reply
  refine ⟨hpinged, fun _ _ => ⟨fun _ hpong => ?_, fun _ _ => ⟨trivial, fun _ _ => trivial⟩⟩⟩
  cases hpong

/-- **A probe that waits for its ping when draining begins says ready.** -/
theorem ready_while_draining : ∃ t,
    machine.run (start : Readiness ℕ) [.probe 0, .drain, .ping 0 .pong, .reply 0] = some t ∧
      ¬ NeverReady t := by
  obtain ⟨t, hrun, hphase⟩ : ∃ t,
      machine.run (start : Readiness ℕ) [.probe 0, .drain, .ping 0 .pong, .reply 0] = some t ∧
        t.phase 0 = .answered .ready true := ⟨_, rfl, rfl⟩
  exact ⟨t, hrun, fun hnever => hnever 0 .ready hphase rfl⟩

end Readiness

end QueueWorkerKit
