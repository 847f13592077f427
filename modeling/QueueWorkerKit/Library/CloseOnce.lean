import Mathlib.Data.List.Basic
import Mathlib.Data.List.Nodup
import Mathlib.Tactic.Common
import QueueWorkerKit.Library.Machine

/-!
# Handles that are closed once

A handle closes its parts when `close` is called for the first time, all of them at once, and keeps
the promise for later calls. The promise is fulfilled when every part has closed, and rejected with
the error of the first part that fails to.

## Main definitions

* `Closing`: the parts of a handle, and what closing each of them takes
* `Closing.machine`: the calls of `close`, and the parts that settle, in any order
* `Closing.result`: what the promise comes to
* `CloseAccount`: what holds of a handle after a run

## Main results

* `close_account`: **a handle is closed once**, whatever the number of calls
-/

namespace EventDriven

variable {ι R A E : Type*}

/-- How a handle is closed: its parts, what is done to close each of them, and for a part that has
settled what is done then, and whether it has closed. -/
structure Closing (ι R A E : Type*) where
  parts : List ι
  begins : ι → List A
  ends : ι → R → List A × Except E Unit

/-- Where a part stands. -/
inductive PartState
  | opened
  | closing
  | closed
  | failed
  deriving DecidableEq

/-- The calls of `close`, where the parts stand, what was done, and what the promise has come to. -/
structure ClosingState (ι A E : Type*) where
  calls : ℕ
  part : ι → PartState
  actions : List A
  result : Option (Except E Unit)

/-- A call of `close`, or a part that settles. -/
inductive ClosingEvent (ι R : Type*)
  | close
  | settles (i : ι) (r : R)

/-- The part that settles, and with what. -/
def ClosingEvent.settled : ClosingEvent ι R → Option (ι × R)
  | .close => none
  | .settles i r => some (i, r)

def ClosingEvent.isClose : ClosingEvent ι R → Bool
  | .close => true
  | .settles _ _ => false

namespace Closing

variable [DecidableEq ι] (C : Closing ι R A E)

def start : ClosingState ι A E := ⟨0, fun _ => .opened, [], none⟩

/-- The promise once the parts stand somewhere. -/
def fulfills (part : ι → PartState) : Option (Except E Unit) :=
  if ∀ i ∈ C.parts, part i = .closed then some (.ok ()) else none

/-- The first call of `close`. -/
def begin (s : ClosingState ι A E) : ClosingState ι A E :=
  let part := fun i => if i ∈ C.parts then .closing else s.part i
  ⟨s.calls + 1, part, s.actions ++ C.parts.flatMap C.begins, C.fulfills part⟩

/-- A part settles. -/
def settle (s : ClosingState ι A E) (i : ι) (r : R) : ClosingState ι A E :=
  let actions := s.actions ++ (C.ends i r).1
  match (C.ends i r).2 with
  | .ok () =>
    let part := Function.update s.part i .closed
    ⟨s.calls, part, actions, s.result <|> C.fulfills part⟩
  | .error e => ⟨s.calls, Function.update s.part i .failed, actions, s.result <|> some (.error e)⟩

/-- The calls of `close` and the parts. -/
def machine : Machine (ClosingState ι A E) (ClosingEvent ι R) where
  step s
    | .close => some (if s.calls = 0 then C.begin s else { s with calls := s.calls + 1 })
    | .settles i r => if s.part i = .closing then some (C.settle s i r) else none

/-- The error that a part fails with. -/
def failure (p : ι × R) : Option E :=
  match (C.ends p.1 p.2).2 with
  | .ok () => none
  | .error e => some e

/-- What the promise comes to when some parts have settled, in their order: the first failure, or a
value when all parts have closed. -/
def result (settled : List (ι × R)) : Option (Except E Unit) :=
  match settled.findSome? C.failure with
  | some e => some (.error e)
  | none => if ∀ i ∈ C.parts, i ∈ settled.map Prod.fst then some (.ok ()) else none

/-- What holds of a handle after a run: what closes its parts was done once, each part has settled
at most once and after that, and the promise has come to what the parts have. Later calls change
nothing. -/
structure CloseAccount (es : List (ClosingEvent ι R)) (s : ClosingState ι A E) : Prop where
  calls : s.calls = es.countP ClosingEvent.isClose
  once : ((es.filterMap ClosingEvent.settled).map Prod.fst).Nodup
  uncalled : s.calls = 0 → es.filterMap ClosingEvent.settled = [] ∧ s.actions = [] ∧
    s.result = none
  actions : s.calls ≠ 0 → s.actions = C.parts.flatMap C.begins ++
    (es.filterMap ClosingEvent.settled).flatMap fun p => (C.ends p.1 p.2).1
  result : s.calls ≠ 0 → s.result = C.result (es.filterMap ClosingEvent.settled)

variable {C} {s t : ClosingState ι A E} {e : ClosingEvent ι R} {es : List (ClosingEvent ι R)}
  {settled : List (ι × R)} {i j : ι} {r : R} {state : PartState}

/-! ## Where the parts stand -/

/-- Where a part stands when some have settled. -/
def Standing (C : Closing ι R A E) (settled : List (ι × R)) (i : ι) : PartState → Prop
  | .opened => i ∉ C.parts
  | .closing => i ∈ C.parts ∧ i ∉ settled.map Prod.fst
  | .closed => ∃ r, (i, r) ∈ settled ∧ C.failure (i, r) = none
  | .failed => ∃ r, (i, r) ∈ settled ∧ C.failure (i, r) ≠ none

omit [DecidableEq ι] in
theorem failure_of_ok {u : Unit} (h : (C.ends i r).2 = .ok u) : C.failure (i, r) = none := by
  simp only [failure, h]

omit [DecidableEq ι] in
theorem failure_of_error {e : E} (h : (C.ends i r).2 = .error e) :
    C.failure (i, r) = some e := by
  simp only [failure, h]

omit [DecidableEq ι] in
/-- The other parts stand where they did. -/
theorem Standing.concat (h : Standing C settled j state) (hne : j ≠ i) :
    Standing C (settled ++ [(i, r)]) j state := by
  cases state with
  | opened => exact h
  | closing => exact ⟨h.1, by simpa [hne] using h.2⟩
  | closed =>
    obtain ⟨r, hmem, hnone⟩ := h
    exact ⟨r, List.mem_append_left _ hmem, hnone⟩
  | failed =>
    obtain ⟨r, hmem, hsome⟩ := h
    exact ⟨r, List.mem_append_left _ hmem, hsome⟩

/-- When none has failed, the parts are closed that have settled. -/
theorem fulfills_eq {part : ι → PartState} (h : ∀ i, Standing C settled i (part i))
    (hnone : settled.findSome? C.failure = none) : C.fulfills part = C.result settled := by
  have hiff : (∀ i ∈ C.parts, part i = .closed) ↔ ∀ i ∈ C.parts, i ∈ settled.map Prod.fst := by
    refine forall_congr' fun i => imp_congr_right fun hi => ?_
    -- a part is closed exactly when it has settled, by where it stands
    have hstands := h i
    cases hpart : part i with
    | opened =>
      rw [hpart] at hstands
      exact absurd hi hstands
    | closing =>
      rw [hpart] at hstands
      exact iff_of_false (by simp) hstands.2
    | closed =>
      rw [hpart] at hstands
      obtain ⟨r, hmem, -⟩ := hstands
      exact iff_of_true rfl (List.mem_map_of_mem hmem)
    | failed =>
      rw [hpart] at hstands
      obtain ⟨r, hmem, hsome⟩ := hstands
      exact absurd (List.findSome?_eq_none_iff.mp hnone _ hmem) hsome
  unfold fulfills result
  rw [hnone]
  exact if_congr hiff rfl rfl

/-- A promise that some part has settled is open while another has not, or has the first failure. -/
theorem result_of_closing (hi : i ∈ C.parts) (hnot : i ∉ settled.map Prod.fst) :
    C.result settled = (settled.findSome? C.failure).map .error := by
  unfold result
  cases settled.findSome? C.failure with
  | some e => rfl
  | none => exact if_neg fun hall => hnot (hall i hi)

/-! ## Runs -/

/-- The account, with where the parts stand. -/
structure Inv (C : Closing ι R A E) (es : List (ClosingEvent ι R)) (s : ClosingState ι A E) : Prop
    extends CloseAccount C es s where
  idle : s.calls = 0 → ∀ i, s.part i = .opened
  stands : s.calls ≠ 0 → ∀ i, Standing C (es.filterMap ClosingEvent.settled) i (s.part i)

theorem inv_start : Inv C [] start where
  calls := rfl
  once := List.nodup_nil
  uncalled _ := ⟨rfl, rfl, rfl⟩
  actions h := absurd rfl h
  result h := absurd rfl h
  idle _ _ := rfl
  stands h := absurd rfl h

/-- The first call begins to close every part. -/
theorem Inv.begin (h : Inv C es s) (hzero : s.calls = 0) :
    Inv C (es ++ [.close]) (C.begin s) := by
  obtain ⟨hsettled, hactions, hresult⟩ := h.uncalled hzero
  have hnone : (es ++ [ClosingEvent.close]).filterMap ClosingEvent.settled = [] := by
    rw [List.filterMap_append, hsettled]
    rfl
  have hstands : ∀ i, Standing C ([] : List (ι × R)) i ((C.begin s).part i) := by
    intro i
    show Standing C [] i (if i ∈ C.parts then _ else s.part i)
    split_ifs with hi
    · exact ⟨hi, List.not_mem_nil⟩
    · rw [h.idle hzero i]
      exact hi
  refine ⟨⟨?_, ?_, fun hcalls => ?_, fun _ => ?_, fun _ => ?_⟩, fun hcalls => ?_, fun _ => ?_⟩
  · rw [List.countP_append, ← h.calls]
    rfl
  · rw [hnone]
    exact List.nodup_nil
  · exact absurd hcalls (Nat.succ_ne_zero _)
  · rw [hnone]
    show s.actions ++ _ = _
    rw [hactions, List.nil_append, List.flatMap_nil, List.append_nil]
  · rw [hnone]
    exact fulfills_eq hstands rfl
  · exact absurd hcalls (Nat.succ_ne_zero _)
  · rw [hnone]
    exact hstands

/-- A part that settles. -/
theorem Inv.settle (h : Inv C es s) (hclosing : s.part i = .closing) :
    Inv C (es ++ [.settles i r]) (C.settle s i r) := by
  have hcalls : s.calls ≠ 0 := by
    intro hzero
    rw [h.idle hzero i] at hclosing
    cases hclosing
  have hstands := h.stands hcalls
  obtain ⟨hi, hnot⟩ : i ∈ C.parts ∧ i ∉ (es.filterMap ClosingEvent.settled).map Prod.fst := by
    have hstanding := hstands i
    rwa [hclosing] at hstanding
  have hsettled : (es ++ [ClosingEvent.settles i r]).filterMap ClosingEvent.settled =
      es.filterMap ClosingEvent.settled ++ [(i, r)] := by
    rw [List.filterMap_append]
    rfl
  -- what the settlement of the part changes
  obtain ⟨state, hpart, hkept, hactions, hstanding, hresult⟩ : ∃ state,
      (C.settle s i r).part = Function.update s.part i state ∧ (C.settle s i r).calls = s.calls ∧
      (C.settle s i r).actions = s.actions ++ (C.ends i r).1 ∧
      Standing C (es.filterMap ClosingEvent.settled ++ [(i, r)]) i state ∧
      (C.settle s i r).result = (s.result <|> match C.failure (i, r) with
        | some e => some (.error e)
        | none => C.fulfills (Function.update s.part i state)) := by
    cases hends : (C.ends i r).2 with
    | ok u =>
      refine ⟨.closed, ?_, ?_, ?_, ⟨r, by simp, failure_of_ok hends⟩, ?_⟩ <;>
        simp [Closing.settle, hends, failure_of_ok hends]
    | error e =>
      refine ⟨.failed, ?_, ?_, ?_, ⟨r, by simp, by simp [failure_of_error hends]⟩, ?_⟩ <;>
        simp [Closing.settle, hends, failure_of_error hends]
  have hstands' : ∀ j, Standing C (es.filterMap ClosingEvent.settled ++ [(i, r)]) j
      (Function.update s.part i state j) := by
    intro j
    rw [Function.update_apply]
    split_ifs with hj
    · rw [hj]
      exact hstanding
    · exact (hstands j).concat hj
  refine ⟨⟨?_, ?_, fun hzero => ?_, fun _ => ?_, fun _ => ?_⟩, fun hzero => ?_, fun _ => ?_⟩
  · rw [hkept, h.calls, List.countP_append]
    rfl
  · rw [hsettled, List.map_append]
    exact List.nodup_append.mpr ⟨h.once, List.nodup_singleton _, by
      rintro a ha b hb rfl
      rw [List.mem_singleton.mp hb] at ha
      exact hnot ha⟩
  · exact absurd (hkept ▸ hzero) hcalls
  · rw [hactions, h.actions hcalls, hsettled, List.flatMap_append, List.append_assoc]
    simp
  · -- the promise keeps the first failure, or waits for the part that settles now
    rw [hresult, h.result hcalls, result_of_closing hi hnot, hsettled]
    cases hfirst : (es.filterMap ClosingEvent.settled).findSome? C.failure with
    | some e => simp [result, List.findSome?_append, hfirst]
    | none =>
      cases hfailure : C.failure (i, r) with
      | some e => simp [result, List.findSome?_append, hfirst, hfailure]
      | none =>
        have hnone :
            (es.filterMap ClosingEvent.settled ++ [(i, r)]).findSome? C.failure = none := by
          simp [List.findSome?_append, hfirst, hfailure]
        exact fulfills_eq hstands' hnone
  · exact absurd (hkept ▸ hzero) hcalls
  · rw [hpart, hsettled]
    exact hstands'

theorem inv_step (h : Inv C es s) (hstep : C.machine.step s e = some t) : Inv C (es ++ [e]) t := by
  cases e with
  | settles i r =>
    simp only [machine] at hstep
    split_ifs at hstep with hclosing
    obtain rfl := Option.some.inj hstep
    exact h.settle hclosing
  | close =>
    obtain rfl := Option.some.inj hstep
    split_ifs with hzero
    · exact h.begin hzero
    · have hsettled : (es ++ [(.close : ClosingEvent ι R)]).filterMap ClosingEvent.settled =
          es.filterMap ClosingEvent.settled := by simp [ClosingEvent.settled]
      refine ⟨⟨?_, ?_, fun hcalls => ?_, fun _ => ?_, fun _ => ?_⟩, fun hcalls => ?_, fun _ => ?_⟩
      · rw [List.countP_append, ← h.calls]
        rfl
      · rw [hsettled]
        exact h.once
      · exact absurd hcalls (Nat.succ_ne_zero _)
      · rw [hsettled]
        exact h.actions hzero
      · rw [hsettled]
        exact h.result hzero
      · exact absurd hcalls (Nat.succ_ne_zero _)
      · rw [hsettled]
        exact h.stands hzero

/-- **A handle is closed once**, whatever the number of calls and the order in which its parts
settle, if they do. -/
theorem close_account (hrun : C.machine.run start es = some s) : CloseAccount C es s := by
  have hinv : Inv C ([] ++ es) s := Machine.run_history (G := fun _ _ => True)
    (fun _ _ _ _ h _ hstep => inv_step h hstep) inv_start Machine.stepsMeet_true hrun
  exact hinv.toCloseAccount

end Closing

end EventDriven
