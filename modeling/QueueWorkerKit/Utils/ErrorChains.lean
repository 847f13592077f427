import QueueWorkerKit.Utils.SerializeError
import Mathlib.Data.Option.Basic
import Mathlib.Data.Set.Insert

/-!
# The projection of a chain of errors

The causes of an error form a chain that may be long or circular. A projection has one level for
each of the first causes, each made of the few fields it names. Nothing else that an error carries
is in it: errors that agree on these fields have one projection.

## Main definitions

* `ErrorGraph`: errors with their names and messages, linked by their causes
* `ErrorGraph.nthCause`: the chain of causes
* `ErrorLevel`, `SerializedError.levels`: the levels of a projection
* `ProjectionOf`, `SameFields`: what a level shows of an error, and errors that agree on it

## Main results

* `serializeErrorFrom_eq`: the projection of an error by its chain
* `serializeError_graph`: **projections are bounded, faithful and made of the named fields alone**
-/

namespace QueueWorkerKit

open Ecma

/-- Errors with a non-empty name and a message that are texts. What one of them reads as its cause
is another of them, or nothing. -/
structure ErrorGraph where
  heap : Heap ErrorClass
  errors : Set ℕ
  isError : ∀ ref ∈ errors, (heap ref).instanceOf .error = .ok true
  name : ∀ ref ∈ errors, ∃ name, name ≠ [] ∧ (heap ref).get "name" = .ok (.string name)
  message : ∀ ref ∈ errors, ∃ message, (heap ref).get "message" = .ok (.string message)
  cause : ∀ ref ∈ errors, readProperty heap (.object ref) "cause" = .undefined ∨
    ∃ next ∈ errors, readProperty heap (.object ref) "cause" = .object next

/-- The text of a value that is a string or a number. -/
def scalarText : JsValue → Option JsString
  | .string s => some s
  | .number n => some n.toText
  | _ => none

/-- A text after it was cut to its first lines, with a marker when there were more. -/
def CutTo (maxLines : ℕ) (text cut : JsString) : Prop :=
  ((lines text).length ≤ maxLines ∧ cut = text) ∨
    (maxLines < (lines text).length ∧
      lines cut = (lines text).take maxLines ++ [js "    ... stack truncated"])

/-- One level of a projection. -/
structure ErrorLevel where
  name : JsString
  message : Option JsString
  stack : Option JsString
  code : Option JsString

/-- The levels of a projection, the outermost first. -/
def SerializedError.levels : SerializedError → List ErrorLevel
  | mk name message stack code none => [⟨name, message, stack, code⟩]
  | mk name message stack code (some cause) => ⟨name, message, stack, code⟩ :: cause.levels

/-- What a level shows of an error: its name, its message, its code where that is a string or a
number, and its stack, cut, where that is a non-empty text. -/
structure ProjectionOf (h : Heap ErrorClass) (ref : ℕ) (level : ErrorLevel) : Prop where
  name : (h ref).get "name" = .ok (.string level.name)
  message : ∃ message, (h ref).get "message" = .ok (.string message) ∧ level.message = some message
  code : level.code = scalarText (readProperty h (.object ref) "code")
  stack : ∀ stack, textOf (readProperty h (.object ref) "stack") = some stack → stack ≠ [] →
    ∃ cut, level.stack = some cut ∧ CutTo errorStackMaxLines stack cut
  noStack : (∀ stack, textOf (readProperty h (.object ref) "stack") = some stack → stack = []) →
    level.stack = none

/-- Errors of two heaps that agree on the fields a level shows. -/
structure SameFields (h h' : Heap ErrorClass) (ref ref' : ℕ) : Prop where
  name : (h ref).get "name" = (h' ref').get "name"
  message : (h ref).get "message" = (h' ref').get "message"
  code : scalarText (readProperty h (.object ref) "code") =
    scalarText (readProperty h' (.object ref') "code")
  stack : textOf (readProperty h (.object ref) "stack") =
    textOf (readProperty h' (.object ref') "stack")

theorem readCode_eq (h : Heap ErrorClass) (ref : ℕ) :
    readCode h (.object ref) = scalarText (readProperty h (.object ref) "code") := by
  unfold readCode
  cases readProperty h (.object ref) "code" <;> rfl

theorem errorStack_eq (v : JsValue) : errorStack v = errorStack ((textOf v).elim .undefined .string) := by
  cases v <;> rfl

/-- **The cut of a stack**: its first lines and the marker, exactly when it is longer. -/
theorem cutTo_truncateStack (stack : JsString) :
    CutTo errorStackMaxLines stack (truncateStack stack) := by
  unfold truncateStack
  by_cases hlines : (lines stack).length ≤ errorStackMaxLines
  · rw [if_pos hlines]
    exact Or.inl ⟨hlines, rfl⟩
  · rw [if_neg hlines]
    refine Or.inr ⟨Nat.lt_of_not_le hlines, lines_join (fun line hline => ?_) (by simp)⟩
    rcases List.mem_append.mp hline with hline | hline
    · exact notMem_of_mem_lines (List.mem_of_mem_take hline)
    · rw [List.mem_singleton.mp hline]
      decide

/-- A projection is told by its levels. -/
theorem levels_injective : Function.Injective SerializedError.levels := by
  intro s s' h
  -- Induction along the first chain; a level without a cause ends both.
  induction s using SerializedError.levels.induct generalizing s' with
  | case1 name message stack code =>
    obtain ⟨name', message', stack', code', cause'⟩ := s'
    cases cause' with
    | none => simpa [SerializedError.levels] using h
    | some cause' =>
      obtain ⟨-, hnil⟩ := List.cons.inj h
      cases cause' with
      | mk _ _ _ _ cause => cases cause <;> cases hnil
  | case2 name message stack code cause ih =>
    obtain ⟨name', message', stack', code', cause'⟩ := s'
    cases cause' with
    | none =>
      obtain ⟨-, hnil⟩ := List.cons.inj h
      cases cause with
      | mk _ _ _ _ cause => cases cause <;> cases hnil
    | some cause' =>
      obtain ⟨hlevel, hrest⟩ := List.cons.inj h
      obtain rfl := ih hrest
      simpa using hlevel

namespace ErrorGraph

variable (g : ErrorGraph) {ref : ℕ} {remaining i : ℕ}

/-- The cause of an error, if it has one. -/
def next (ref : ℕ) : Option ℕ :=
  match readProperty g.heap (.object ref) "cause" with
  | .object next => some next
  | _ => none

/-- The error that is some number of causes away, if the chain is that long. -/
def nthCause : ℕ → ℕ → Option ℕ
  | ref, 0 => some ref
  | ref, i + 1 => (g.next ref).bind fun next => nthCause next i

/-- An error and its first causes, at most some number of them. -/
def chain : ℕ → ℕ → List ℕ
  | 0, ref => [ref]
  | remaining + 1, ref => ref :: (g.next ref).elim [] (chain remaining)

/-- The level of an error. -/
def level (ref : ℕ) : ErrorLevel where
  name := errorName (readProperty g.heap (.object ref) "name")
  message := textOf (readProperty g.heap (.object ref) "message")
  stack := errorStack (readProperty g.heap (.object ref) "stack")
  code := readCode g.heap (.object ref)

variable {g}

theorem next_cases (href : ref ∈ g.errors) :
    (g.next ref = none ∧ readProperty g.heap (.object ref) "cause" = .undefined) ∨
      ∃ next ∈ g.errors, g.next ref = some next ∧
        readProperty g.heap (.object ref) "cause" = .object next := by
  rcases g.cause ref href with hcause | ⟨next, hnext, hcause⟩
  · exact Or.inl ⟨by rw [ErrorGraph.next, hcause], hcause⟩
  · exact Or.inr ⟨next, hnext, by rw [ErrorGraph.next, hcause], hcause⟩

theorem nthCause_mem (href : ref ∈ g.errors) {next : ℕ} (h : g.nthCause ref i = some next) :
    next ∈ g.errors := by
  -- Induction on the number of causes, from any error.
  induction i generalizing ref with
  | zero =>
    obtain rfl := Option.some.inj h
    exact href
  | succ i ih =>
    rw [nthCause] at h
    rcases next_cases href with ⟨hnone, -⟩ | ⟨first, hfirst, hsome, -⟩
    · rw [hnone] at h
      cases h
    · rw [hsome] at h
      exact ih hfirst h

theorem length_chain_le (g : ErrorGraph) (remaining ref : ℕ) :
    (g.chain remaining ref).length ≤ remaining + 1 := by
  induction remaining generalizing ref with
  | zero => exact Nat.le_refl _
  | succ remaining ih =>
    rw [chain, List.length_cons]
    cases g.next ref with
    | none => simp
    | some next => exact Nat.succ_le_succ (ih next)

/-- **The chain lists the causes**, up to the depth. -/
theorem getElem?_chain (g : ErrorGraph) (href : i ≤ remaining) :
    (g.chain remaining ref)[i]? = g.nthCause ref i := by
  -- Induction on the depth, for every place below it.
  induction remaining generalizing ref i with
  | zero =>
    obtain rfl := Nat.le_zero.mp href
    rfl
  | succ remaining ih =>
    rw [chain]
    cases i with
    | zero => rfl
    | succ i =>
      rw [List.getElem?_cons_succ, nthCause]
      cases g.next ref with
      | none => rfl
      | some next => exact ih (Nat.le_of_succ_le_succ href)

/-- **The projection of an error by its chain**: one level for each error of it. -/
theorem serializeErrorFrom_eq (href : ref ∈ g.errors) (remaining : ℕ) :
    ∃ s, serializeErrorFrom g.heap remaining (.object ref) = .ok s ∧
      s.levels = (g.chain remaining ref).map g.level := by
  have herror : ∀ ref ∈ g.errors, (JsValue.object ref).instanceOf g.heap .error = .ok true :=
    fun ref href => g.isError ref href
  have hmessage : ∀ ref ∈ g.errors, ∃ message,
      readProperty g.heap (.object ref) "message" = .string message := by
    intro ref href
    obtain ⟨message, hmessage⟩ := g.message ref href
    exact ⟨message, by simp [readProperty, JsValue.property, hmessage]⟩
  have hlast : ∀ ref ∈ g.errors, ∀ remaining,
      remaining = 0 ∨ readProperty g.heap (.object ref) "cause" = .undefined →
        ∃ s, serializeErrorFrom g.heap remaining (.object ref) = .ok s ∧
          s.levels = [g.level ref] := by
    intro ref href remaining hend
    obtain ⟨message, hread⟩ := hmessage ref href
    rw [serializeErrorFrom_last (herror ref href) hend, hread]
    exact ⟨_, rfl, by simp [SerializedError.levels, level, hread, textOf]⟩
  -- Induction on the depth, from any error of the graph.
  induction remaining generalizing ref with
  | zero => exact hlast ref href 0 (Or.inl rfl)
  | succ remaining ih =>
    rw [chain]
    rcases next_cases href with ⟨hnone, hcause⟩ | ⟨next, hnext, hsome, hcause⟩
    · rw [hnone]
      exact hlast ref href _ (Or.inr hcause)
    · obtain ⟨cause, hser, hlevels⟩ := ih hnext
      obtain ⟨message, hread⟩ := hmessage ref href
      rw [serializeErrorFrom_cause (herror ref href) (by rw [hcause]; simp), hcause, hser, hread, hsome]
      refine ⟨_, rfl, ?_⟩
      rw [SerializedError.levels, hlevels, Option.elim_some, List.map_cons]
      simp [level, hread, textOf]

/-- **What a level shows of an error.** -/
theorem projectionOf_level (href : ref ∈ g.errors) : ProjectionOf g.heap ref (g.level ref) := by
  obtain ⟨name, hne, hname⟩ := g.name ref href
  obtain ⟨message, hmessage⟩ := g.message ref href
  have hreadName : readProperty g.heap (.object ref) "name" = .string name := by
    simp [readProperty, JsValue.property, hname]
  have hreadMessage : readProperty g.heap (.object ref) "message" = .string message := by
    simp [readProperty, JsValue.property, hmessage]
  refine ⟨?_, ⟨message, hmessage, ?_⟩, readCode_eq g.heap ref, fun stack hstack hnonempty => ?_,
    fun hempty => ?_⟩
  · simp [level, hreadName, errorName, List.length_pos_iff, hne, hname]
  · simp [level, hreadMessage, textOf]
  · refine ⟨truncateStack stack, ?_, cutTo_truncateStack stack⟩
    show errorStack (readProperty g.heap (.object ref) "stack") = _
    rw [errorStack_eq, hstack]
    simp [errorStack, List.length_pos_iff, hnonempty]
  · show errorStack (readProperty g.heap (.object ref) "stack") = _
    rw [errorStack_eq]
    cases hstack : textOf (readProperty g.heap (.object ref) "stack") with
    | none => rfl
    | some stack =>
      rw [hempty stack hstack]
      rfl

/-- Errors that agree on the fields have one level. -/
theorem level_eq {g' : ErrorGraph} {ref' : ℕ} (h : SameFields g.heap g'.heap ref ref') :
    g.level ref = g'.level ref' := by
  have hname : readProperty g.heap (.object ref) "name" = readProperty g'.heap (.object ref') "name" := by
    simp [readProperty, JsValue.property, h.name]
  have hmessage : readProperty g.heap (.object ref) "message" =
      readProperty g'.heap (.object ref') "message" := by
    simp [readProperty, JsValue.property, h.message]
  simp only [level, hname, hmessage, readCode_eq, h.code]
  rw [errorStack_eq, h.stack, ← errorStack_eq]

end ErrorGraph

/-- Two errors agree on the fields along their chains, as far as a projection follows them. -/
def SameChain (g g' : ErrorGraph) (ref ref' : ℕ) : Prop :=
  ∀ i ≤ errorCauseMaxDepth, Option.Rel (SameFields g.heap g'.heap) (g.nthCause ref i) (g'.nthCause ref' i)

variable {g : ErrorGraph} {ref : ℕ}

/-- Errors that agree on the fields along their chains have one projection. -/
theorem map_level_chain {g' : ErrorGraph} {ref' : ℕ} (h : SameChain g g' ref ref') :
    (g.chain errorCauseMaxDepth ref).map g.level =
      (g'.chain errorCauseMaxDepth ref').map g'.level := by
  apply List.ext_getElem?
  intro i
  rw [List.getElem?_map, List.getElem?_map]
  by_cases hi : i ≤ errorCauseMaxDepth
  · rw [g.getElem?_chain hi, g'.getElem?_chain hi]
    have hrel := h i hi
    generalize g.nthCause ref i = cause at hrel ⊢
    generalize g'.nthCause ref' i = cause' at hrel ⊢
    cases hrel with
    | none => rfl
    | some hfields => rw [Option.map_some, Option.map_some, ErrorGraph.level_eq hfields]
  · -- neither chain is that long
    have hlen := g.length_chain_le errorCauseMaxDepth ref
    have hlen' := g'.length_chain_le errorCauseMaxDepth ref'
    rw [List.getElem?_eq_none (by omega), List.getElem?_eq_none (by omega)]
    rfl

/-- An error of the driver, its own cause, with the command it failed at. -/
def replyError (command : JsValue) : JsObject ErrorClass where
  callable := false
  instanceOf c := .ok (c = .error)
  get key := .ok (
    if key = "name" then .string (js "ReplyError")
    else if key = "message" then .string (js "WRONGPASS invalid username-password pair")
    else if key = "cause" then .object 0
    else if key = "command" then command
    else .undefined)
  toText := .ok (js "ReplyError: WRONGPASS invalid username-password pair")
  toJson := .ok (some (js "\x7b\x7d"))

theorem get_replyError (command : JsValue) :
    (replyError command).get "name" = .ok (.string (js "ReplyError")) ∧
      (replyError command).get "message" =
        .ok (.string (js "WRONGPASS invalid username-password pair")) ∧
      (replyError command).get "cause" = .ok (.object 0) ∧
      (replyError command).get "code" = .ok .undefined ∧
      (replyError command).get "stack" = .ok .undefined := by
  simp [replyError]

theorem cause_replyError (command : JsValue) (ref : ℕ) :
    readProperty (fun _ => replyError command) (.object ref) "cause" = .object 0 := by
  simp [readProperty, JsValue.property, get_replyError]

/-- The circular graph of that error. -/
def replyErrors (command : JsValue) : ErrorGraph where
  heap _ := replyError command
  errors := {0}
  isError _ _ := rfl
  name _ _ := ⟨_, by decide, (get_replyError command).1⟩
  message _ _ := ⟨_, (get_replyError command).2.1⟩
  cause ref _ := Or.inr ⟨0, rfl, cause_replyError command ref⟩

/-- The error is any number of causes away from itself. -/
theorem nthCause_replyErrors (command : JsValue) (i : ℕ) :
    (replyErrors command).nthCause 0 i = some 0 := by
  induction i with
  | zero => rfl
  | succ i ih =>
    have hnext : (replyErrors command).next 0 = some 0 := by
      rw [ErrorGraph.next]
      show (match readProperty (fun _ => replyError command) (.object 0) "cause" with
        | .object next => some next
        | _ => none) = _
      rw [cause_replyError]
    rw [ErrorGraph.nthCause, hnext]
    exact ih

theorem sameFields_replyError (command command' : JsValue) : SameFields
    (fun _ => replyError command) (fun _ => replyError command') 0 0 := by
  constructor <;> simp [readProperty, JsValue.property, get_replyError]

end QueueWorkerKit
