import QueueWorkerKit.Library.Schema

/-!
# The reports of a schema

Which issues a schema may report at all. Where these are known before the value is, a report says
which checks the value has failed and nothing else about it.

## Main definitions

* `Schema.Reports`: on the values of a set, every report of a schema is made of a fixed list of
  issues, in its order
* `Schema.fieldReports`: the issues of the fields of an object

## Main results

* `reports_string`, `reports_oneOf`, `reports_withDefault`, `reports_optional`,
  `reports_preprocess`, `reports_superRefine`: the schema forms
* `reports_object`: **the reports of an object are those of its fields**, in their order
-/

namespace Ecma

namespace Schema

/-- On the values of a set, a schema reports issues of a list only, in the order of the list. -/
def Reports (P : Data → Prop) (S : Schema) (reports : List Issue) : Prop :=
  ∀ v, P v → (S.run v).issues.Sublist reports

/-- A text. -/
def IsText (v : Data) : Prop := ∃ s, v = .str s

/-- An absent value, or one of a set. -/
def OrAbsent (P : Data → Prop) (v : Data) : Prop := v = .undefined ∨ P v

variable {P Q : Data → Prop} {S : Schema} {reports : List Issue}

theorem reports_string (checks : List Check) :
    Reports IsText (string checks) (checks.map fun c => failed c.message) := by
  rintro v ⟨s, rfl⟩
  exact List.filter_sublist.map _

theorem reports_oneOf (options : List JsString) (message : JsString) :
    Reports P (oneOf options message) [⟨[], message, false⟩] := by
  intro v _
  cases v with
  | str s =>
    simp only [oneOf]
    split_ifs
    · exact List.nil_sublist _
    · exact List.Sublist.refl _
  | _ => exact List.Sublist.refl _

theorem reports_withDefault (value : Data) (h : Reports P S reports) :
    Reports (OrAbsent P) (withDefault value S) reports := by
  rintro v (rfl | hv)
  · exact List.nil_sublist _
  · cases v with
    | undefined => exact List.nil_sublist _
    | _ => exact h _ hv

theorem reports_optional (h : Reports P S reports) :
    Reports (OrAbsent P) (optional S) reports := by
  rintro v (rfl | hv)
  · exact List.nil_sublist _
  · cases v with
    | undefined => exact List.nil_sublist _
    | _ => exact h _ hv

theorem reports_preprocess {change : Data → Data} (h : Reports Q S reports)
    (hchange : ∀ v, P v → Q (change v)) : Reports P (preprocess change S) reports :=
  fun v hv => h (change v) (hchange v hv)

/-- A rule across a value reports after what it is a rule across. -/
theorem reports_superRefine {rule : Data → List Issue} {others : List Issue}
    (h : Reports P S reports) (hrule : ∀ v, (rule v).Sublist others) :
    Reports P (superRefine rule S) (reports ++ others) := by
  intro v hv
  simp only [superRefine]
  split_ifs
  · exact (h v hv).append (hrule _)
  · exact (h v hv).trans (List.sublist_append_left ..)

/-- The issues of the fields of an object, under their keys. -/
def fieldReports (fields : List (JsString × List Issue)) : List Issue :=
  fields.flatMap fun f => f.2.map (Issue.under f.1)

/-- The fields of a shape may be absent, and report issues of the lists next to them. -/
def FieldsReport (P : Data → Prop) (fields : List (JsString × Schema))
    (reports : List (JsString × List Issue)) : Prop :=
  List.Forall₂ (fun f r => f.1 = r.1 ∧ f.2.isOptional = true ∧ Reports P f.2 r.2) fields reports

theorem sublist_of_runFields {v : Data} {fields : List (JsString × Schema)}
    {reports : List (JsString × List Issue)} (hfields : FieldsReport P fields reports)
    (hv : ∀ key, P (v.get key)) : (runFields v fields).issues.Sublist (fieldReports reports) := by
  -- Induction on the fields.
  induction hfields with
  | nil => exact List.nil_sublist _
  | @cons f r fields reports hf _ ih =>
    obtain ⟨key, S⟩ := f
    obtain ⟨_, own⟩ := r
    obtain ⟨rfl, hoptional, hS⟩ := hf
    have hfield : runField S v key = S.run (v.get key) := by
      simp [runField, show S.isOptional = true from hoptional]
    show (List.map (Issue.under key) (runField S v key).issues ++ _).Sublist
      (own.map (Issue.under key) ++ fieldReports reports)
    rw [hfield]
    exact ((hS _ (hv key)).map _).append ih

/-- **The reports of an object are those of its fields**, in their order. -/
theorem reports_object {fields : List (JsString × Schema)}
    {reports : List (JsString × List Issue)} (hfields : FieldsReport P fields reports) :
    Reports (fun v => (∃ props, v = .obj props) ∧ ∀ key, P (v.get key)) (object fields)
      (fieldReports reports) := by
  rintro v ⟨⟨props, rfl⟩, hv⟩
  exact sublist_of_runFields hfields hv

end Schema

end Ecma
