import QueueWorkerKit.Library.Json
import Mathlib.Data.List.Forall2

/-!
# Schemas

A schema runs on a value: it makes a value of it, and reports issues, each with the path of the
field it is about. A value without issues is accepted. String schemas report every check that
fails, checks of the length also for other values that have one; object schemas run on their own
fields, report the issues of all of them, and drop every other field; strict ones report it. A field
that is absent is accepted only where its schema is optional. Most checks let later ones run on the
value all the same, such as a rule across the fields of an object; a value of the wrong type does
not.

A schema is stable when what it accepts survives serialization and is accepted again unchanged.

## Main definitions

* `Issue`, `Payload`, `Schema`: reports, what parsing makes of a value, and schemas
* `Schema.parse`: what a schema accepts, or the issues it reports
* `Schema.string`, `Schema.format`, `Schema.boolean`, `Schema.oneOf`, `Schema.enum`,
  `Schema.unknown`, `Schema.optional`, `Schema.withDefault`, `Schema.preprocess`,
  `Schema.safeInteger`, `Schema.int`, `Schema.object`, `Schema.strictObject`, `Schema.superRefine`:
  the schema forms
* `Schema.Stable`: accepted values are serializable fixed points

## Main results

* `stable_string`, `stable_format`, `stable_boolean`, `stable_enum`, `stable_object`: the forms
  that are stable
* `strictObject_ok`, `parseFields_append_ok`: what a strict object and a merged shape accept
* `get_of_parseFields`, `exists_parseFields`: an object is accepted field by field
* `superRefine_ok`: what a schema with a rule accepts
-/

namespace Ecma

/-- A report: the path of a field, what is wrong with it, and whether later checks still run. -/
structure Issue where
  path : List JsString
  message : JsString
  continues : Bool

/-- The report on a field. -/
def Issue.under (key : JsString) (i : Issue) : Issue := { i with path := key :: i.path }

/-- What parsing makes of a value, with its reports. -/
structure Payload (α : Type) where
  value : α
  issues : List Issue

/-- A value without issues, or the issues. -/
def Payload.result {α : Type} : Payload α → Except (List Issue) α
  | ⟨value, []⟩ => .ok value
  | ⟨_, i :: others⟩ => .error (i :: others)

theorem Payload.result_ok {α : Type} {p : Payload α} {a : α} :
    p.result = .ok a ↔ p.issues = [] ∧ p.value = a := by
  obtain ⟨value, _ | ⟨i, others⟩⟩ := p <;> simp [Payload.result]

theorem Payload.result_error {α : Type} {p : Payload α} {issues : List Issue} :
    p.result = .error issues ↔ p.issues = issues ∧ issues ≠ [] := by
  obtain ⟨value, _ | ⟨i, others⟩⟩ := p
  · simp [Payload.result, eq_comm]
  · simp only [Payload.result, Except.error.injEq]
    constructor
    · rintro rfl
      exact ⟨rfl, List.cons_ne_nil _ _⟩
    · exact And.left

/-- A schema: what it makes of a value, and whether a field of it may be absent. -/
structure Schema where
  run : Data → Payload Data
  isOptional : Bool

namespace Schema

/-- A schema parses a value, or reports issues. -/
def parse (S : Schema) (v : Data) : Except (List Issue) Data := (S.run v).result

/-- A schema applies like its parsing function. -/
instance : CoeFun Schema fun _ => Data → Except (List Issue) Data := ⟨parse⟩

variable {S : Schema} {v d : Data}

theorem parse_ok : S v = .ok d ↔ (S.run v).issues = [] ∧ (S.run v).value = d := Payload.result_ok

theorem parse_error {issues : List Issue} :
    S v = .error issues ↔ (S.run v).issues = issues ∧ issues ≠ [] := Payload.result_error

/-- What a value is called in a report. -/
def receivedType : Data → JsString
  | .undefined => js "undefined"
  | .null => js "null"
  | .bool _ => js "boolean"
  | .num .nan => js "NaN"
  | .num _ => js "number"
  | .str _ => js "string"
  | .other typeName => typeName
  | .arr _ => js "array"
  | .obj _ => js "object"

/-- The report on a value of the wrong type. -/
def invalidType (expected : JsString) (v : Data) : Issue :=
  ⟨[], js "Invalid input: expected " ++ expected ++ js ", received " ++ receivedType v, false⟩

/-- The report on a check that failed. -/
def failed (message : JsString) : Issue := ⟨[], message, true⟩

/-- The length that a value has which is no string: that of an array, or the number that an object
has under this name. -/
def lengthOf : Data → Option JsNumber
  | .arr items => some (.ofNat items.length)
  | v => (v.get (js "length")).number?

/-- What is reported of such a length, with its bound. -/
def sized (bound : JsString) : Data → JsString
  | .arr _ => js "expected array to have " ++ bound ++ js " items"
  | _ => js "expected unknown to be " ++ bound

/-- A check of a string, and the report when it fails. A check of the length is made of every value
that has one, also of those that are no string. -/
structure Check where
  holds : JsString → Bool
  message : JsString
  onOther : Data → Option JsString

/-- A check of the text. -/
def Check.text (holds : JsString → Bool) (message : JsString) : Check :=
  ⟨holds, message, fun _ => none⟩

/-- At least `n` code units. -/
def Check.min (n : ℕ) : Check where
  holds s := n ≤ s.length
  message := js "Too small: expected string to have >=" ++ decimal n ++ js " characters"
  onOther v := (lengthOf v).bind fun length =>
    if (JsNumber.ofNat n).le length then none
    else some (js "Too small: " ++ sized (js ">=" ++ decimal n) v)

/-- At most `n` code units. -/
def Check.max (n : ℕ) : Check where
  holds s := s.length ≤ n
  message := js "Too big: expected string to have <=" ++ decimal n ++ js " characters"
  onOther v := (lengthOf v).bind fun length =>
    if length.le (.ofNat n) then none
    else some (js "Too big: " ++ sized (js "<=" ++ decimal n) v)

/-- A check with a message of its own. -/
def Check.withMessage (message : JsString) (c : Check) : Check :=
  ⟨c.holds, message, fun v => (c.onOther v).map fun _ => message⟩

@[simp] theorem Check.holds_text (holds : JsString → Bool) (message : JsString) :
    (Check.text holds message).holds = holds := rfl

@[simp] theorem Check.holds_withMessage (message : JsString) (c : Check) :
    (c.withMessage message).holds = c.holds := rfl

/-- A string that passes every check. -/
def string (checks : List Check) : Schema where
  run
    | .str s => ⟨.str s, (checks.filter fun c => !c.holds s).map fun c => failed c.message⟩
    | v => ⟨v, invalidType (js "string") v :: (checks.filterMap fun c => c.onOther v).map failed⟩
  isOptional := false

/-- A string in a named format, with one message for everything that is not. -/
def format (holds : JsString → Bool) (message : JsString) : Schema where
  run
    | .str s => ⟨.str s, if holds s then [] else [failed message]⟩
    | v => ⟨v, [⟨[], message, false⟩]⟩
  isOptional := false

/-- A string in a named format, with the default messages. -/
def formatDefault (holds : JsString → Bool) (message : JsString) : Schema where
  run
    | .str s => ⟨.str s, if holds s then [] else [failed message]⟩
    | v => ⟨v, [invalidType (js "string") v]⟩
  isOptional := false

/-- A boolean. -/
def boolean : Schema where
  run
    | .bool b => ⟨.bool b, []⟩
    | v => ⟨v, [invalidType (js "boolean") v]⟩
  isOptional := false

/-- One of the strings of a list, with one message for everything that is not. -/
def oneOf (options : List JsString) (message : JsString) : Schema where
  run
    | .str s => ⟨.str s, if s ∈ options then [] else [⟨[], message, false⟩]⟩
    | v => ⟨v, [⟨[], message, false⟩]⟩
  isOptional := false

/-- One of the strings of a list. -/
def enum (options : List JsString) : Schema := oneOf options (message options)
where
  message (options : List JsString) : JsString :=
    js "Invalid option: expected one of " ++
      join (js "|") (options.map fun s => js "\"" ++ s ++ js "\"")

/-- Any value, as it is. -/
def unknown : Schema where
  run v := ⟨v, []⟩
  isOptional := false

/-- A field that may be absent. -/
def optional (S : Schema) : Schema where
  run
    | .undefined => ⟨.undefined, []⟩
    | v => S.run v
  isOptional := true

/-- A field that is read as a default where it is absent. -/
def withDefault (value : Data) (S : Schema) : Schema where
  run
    | .undefined => ⟨value, []⟩
    | v => S.run v
  isOptional := true

/-- A value is changed before it is parsed. -/
def preprocess (change : Data → Data) (S : Schema) : Schema where
  run v := S.run (change v)
  isOptional := S.isOptional

/-- The report on a field that is absent, though `undefined` would be accepted there. -/
def nonoptional : Issue :=
  ⟨[], js "Invalid input: expected nonoptional, received undefined", false⟩

/-- The schema of a field runs on the value there. Only an optional field may be absent. -/
def runField (S : Schema) (v : Data) (key : JsString) : Payload Data :=
  if (S.run (v.get key)).issues.isEmpty && !v.has key && !S.isOptional then
    ⟨v.get key, [nonoptional]⟩
  else S.run (v.get key)

/-- The fields of an object, with the issues of all of them. -/
def runFields (v : Data) : List (JsString × Schema) → Payload (List (JsString × Data))
  | [] => ⟨[], []⟩
  | (key, S) :: rest =>
    let field := runField S v key
    let others := runFields v rest
    -- an absent field that is accepted as absent stays absent, as does one that is refused
    { value :=
        if !v.has key && (field.value.isUndefined || !S.isOptional) then others.value
        else (key, field.value) :: others.value
      issues := field.issues.map (Issue.under key) ++ others.issues }

/-- The accepted fields of an object, or the issues of all its fields. -/
def parseFields (v : Data) (fields : List (JsString × Schema)) :
    Except (List Issue) (List (JsString × Data)) := (runFields v fields).result

/-- An object with the fields of a list; its other fields are dropped. -/
def object (fields : List (JsString × Schema)) : Schema where
  run
    | .obj props =>
      ⟨.obj (runFields (.obj props) fields).value, (runFields (.obj props) fields).issues⟩
    | v => ⟨v, [invalidType (js "object") v]⟩
  isOptional := false

/-- A rule across what a schema makes of a value, looked at unless an issue ends the checks. -/
def superRefine (rule : Data → List Issue) (S : Schema) : Schema where
  run v :=
    if (S.run v).issues.all Issue.continues then
      ⟨(S.run v).value, (S.run v).issues ++ rule (S.run v).value⟩
    else S.run v
  isOptional := S.isOptional

/-- The largest integer whose neighbours are told apart. -/
def maxSafeInteger : ℕ := 9007199254740991

/-- The reports on a number that is no integer, or beyond the safe ones. -/
def intIssues (value : ℚ) : List Issue :=
  if value.den ≠ 1 then [⟨[], js "Invalid input: expected int, received number", false⟩]
  else
    (if (maxSafeInteger : ℚ) < value then
      [failed (js "Too big: expected int to be <=" ++ decimal maxSafeInteger)] else []) ++
    if value < -(maxSafeInteger : ℚ) then
      [failed (js "Too small: expected int to be >=-" ++ decimal maxSafeInteger)] else []

/-- The reports on a number below `lo` or above `hi`. -/
def rangeIssues (lo hi : ℕ) (value : ℚ) : List Issue :=
  (if value < (lo : ℚ) then
    [failed (js "Too small: expected number to be >=" ++ decimal lo)] else []) ++
  if (hi : ℚ) < value then
    [failed (js "Too big: expected number to be <=" ++ decimal hi)] else []

/-- A safe integer. -/
def int : Schema where
  run
    | .num (.finite value text) => ⟨.num (.finite value text), intIssues value⟩
    | v => ⟨v, [invalidType (js "number") v]⟩
  isOptional := false

/-- A safe integer from `lo` to `hi`; the range is checked of an integer only. -/
def safeInteger (lo hi : ℕ) : Schema :=
  int.superRefine fun
    | .num (.finite value _) => rangeIssues lo hi value
    | _ => []

/-- The report on fields that a strict object does not know. -/
def unrecognizedKeys (keys : List JsString) : List Issue :=
  if keys = [] then []
  else
    [⟨[], (if keys.length > 1 then js "Unrecognized keys: " else js "Unrecognized key: ") ++
      join (js ", ") (keys.map fun key => js "\"" ++ key ++ js "\""), false⟩]

/-- An object with the fields of a list and no others. -/
def strictObject (fields : List (JsString × Schema)) : Schema where
  run
    | .obj props =>
      ⟨.obj (runFields (.obj props) fields).value, (runFields (.obj props) fields).issues ++
        unrecognizedKeys ((props.map Prod.fst).filter fun key => key ∉ fields.map Prod.fst)⟩
    | v => ⟨v, [invalidType (js "object") v]⟩
  isOptional := false

/-! ## The forms -/

theorem string_ok {checks : List Check} {s : JsString} {d : Data} :
    string checks (.str s) = .ok d ↔ checks.all (·.holds s) = true ∧ d = .str s := by
  rw [parse_ok, eq_comm (a := d)]
  simp [string, List.filter_eq_nil_iff]

theorem format_ok {holds : JsString → Bool} {message s : JsString} {d : Data} :
    format holds message (.str s) = .ok d ↔ holds s = true ∧ d = .str s := by
  rw [parse_ok, eq_comm (a := d)]
  simp [format]

theorem formatDefault_ok {holds : JsString → Bool} {message s : JsString} {d : Data} :
    formatDefault holds message (.str s) = .ok d ↔ holds s = true ∧ d = .str s := by
  rw [parse_ok, eq_comm (a := d)]
  simp [formatDefault]

theorem oneOf_ok {options : List JsString} {message s : JsString} {d : Data} :
    oneOf options message (.str s) = .ok d ↔ s ∈ options ∧ d = .str s := by
  rw [parse_ok, eq_comm (a := d)]
  simp [oneOf]

@[simp] theorem optional_undefined : optional S .undefined = .ok .undefined := rfl

@[simp] theorem optional_str (s : JsString) : optional S (.str s) = S (.str s) := rfl

@[simp] theorem withDefault_undefined (value : Data) :
    withDefault value S .undefined = .ok value := rfl

@[simp] theorem withDefault_str (value : Data) (s : JsString) :
    withDefault value S (.str s) = S (.str s) := rfl

@[simp] theorem preprocess_apply (change : Data → Data) :
    preprocess change S v = S (change v) := rfl

/-- A rule across a value is one more condition on it. -/
theorem superRefine_ok {rule : Data → List Issue} :
    superRefine rule S v = .ok d ↔ S v = .ok d ∧ rule d = [] := by
  simp only [parse_ok, superRefine]
  constructor
  · intro h
    split_ifs at h with hall
    · obtain ⟨hissues, rfl⟩ := h
      rw [List.append_eq_nil_iff] at hissues
      exact ⟨⟨hissues.1, rfl⟩, hissues.2⟩
    · -- a value that is accepted has no issue that ends the checks
      rw [h.1] at hall
      exact absurd rfl hall
  · rintro ⟨⟨hissues, rfl⟩, hrule⟩
    simp [hissues, hrule]

theorem runField_issues {key : JsString} : (runField S v key).issues = [] ↔
    (S.run (v.get key)).issues = [] ∧ (v.has key = true ∨ S.isOptional = true) := by
  unfold runField
  split_ifs with h
  · -- the field is absent, and not optional
    simp only [Bool.and_eq_true, Bool.not_eq_true'] at h
    simp [h.1.2, h.2]
  · simp only [Bool.and_eq_true, List.isEmpty_iff, Bool.not_eq_true', not_and,
      Bool.not_eq_false] at h
    constructor
    · intro hissues
      refine ⟨hissues, ?_⟩
      cases hhas : v.has key with
      | true => exact Or.inl rfl
      | false => exact Or.inr (h ⟨hissues, hhas⟩)
    · exact And.left

theorem runField_value {key : JsString} : (runField S v key).value = (S.run (v.get key)).value ∨
    v.has key = false ∧ S.isOptional = false := by
  unfold runField
  split_ifs with h
  · simp only [Bool.and_eq_true, Bool.not_eq_true'] at h
    exact Or.inr ⟨h.1.2, h.2⟩
  · exact Or.inl rfl

/-! ## Objects -/

theorem parseFields_ok {fields : List (JsString × Schema)} {ds : List (JsString × Data)} :
    parseFields v fields = .ok ds ↔ (runFields v fields).issues = [] ∧
      (runFields v fields).value = ds := Payload.result_ok

theorem parseFields_cons_ok {v : Data} {key : JsString} {S : Schema}
    {rest : List (JsString × Schema)} {ds : List (JsString × Data)} :
    parseFields v ((key, S) :: rest) = .ok ds ↔
      ∃ d ds', S (v.get key) = .ok d ∧ (v.has key = true ∨ S.isOptional = true) ∧
        parseFields v rest = .ok ds' ∧
        ds = if d.isUndefined && !v.has key then ds' else (key, d) :: ds' := by
  have hvalue : ∀ (d : Data) (ds' : List (JsString × Data)),
      (v.has key = true ∨ S.isOptional = true) →
      (if !v.has key && (d.isUndefined || !S.isOptional) then ds' else (key, d) :: ds') =
        if d.isUndefined && !v.has key then ds' else (key, d) :: ds' := by
    rintro d ds' (hhas | hoptional)
    · simp [hhas]
    · simp [hoptional, Bool.and_comm]
  simp only [parseFields_ok, parse_ok, runFields, List.append_eq_nil_iff, List.map_eq_nil_iff,
    runField_issues]
  constructor
  · rintro ⟨⟨⟨hissues, hpresent⟩, hrest⟩, rfl⟩
    refine ⟨_, _, ⟨hissues, rfl⟩, hpresent, ⟨hrest, rfl⟩, ?_⟩
    rw [hvalue _ _ hpresent, runField_value.resolve_right]
    rintro ⟨habsent, hnot⟩
    simp [habsent, hnot] at hpresent
  · rintro ⟨d, ds', ⟨hissues, rfl⟩, hpresent, ⟨hrest, rfl⟩, rfl⟩
    refine ⟨⟨⟨hissues, hpresent⟩, hrest⟩, ?_⟩
    rw [hvalue _ _ hpresent, runField_value.resolve_right]
    rintro ⟨habsent, hnot⟩
    simp [habsent, hnot] at hpresent

theorem object_ok {fields : List (JsString × Schema)} {props : List (JsString × Data)} {d : Data} :
    object fields (.obj props) = .ok d ↔
      ∃ ds, parseFields (.obj props) fields = .ok ds ∧ d = .obj ds := by
  simp only [parse_ok, parseFields_ok, object]
  constructor
  · rintro ⟨hissues, rfl⟩
    exact ⟨_, ⟨hissues, rfl⟩, rfl⟩
  · rintro ⟨_, ⟨hissues, rfl⟩, rfl⟩
    exact ⟨hissues, rfl⟩

/-- What a strict object accepts are its fields; nothing else was there. -/
theorem strictObject_ok {fields : List (JsString × Schema)} {v d : Data}
    (h : strictObject fields v = .ok d) :
    ∃ props ds, v = .obj props ∧ parseFields (.obj props) fields = .ok ds ∧ d = .obj ds ∧
      ∀ p ∈ props, p.1 ∈ fields.map Prod.fst := by
  cases v with
  | obj props =>
    obtain ⟨hissues, rfl⟩ := parse_ok.mp h
    obtain ⟨hfields, hunknown⟩ := List.append_eq_nil_iff.mp hissues
    refine ⟨props, _, rfl, parseFields_ok.mpr ⟨hfields, rfl⟩, rfl, fun p hp => ?_⟩
    by_contra hnot
    -- a field that the shape does not have would have been reported
    have hmem : p.1 ∈ (props.map Prod.fst).filter fun key => key ∉ fields.map Prod.fst :=
      List.mem_filter.mpr ⟨List.mem_map_of_mem hp, by simpa using hnot⟩
    unfold unrecognizedKeys at hunknown
    split_ifs at hunknown with hkeys
    rw [hkeys] at hmem
    exact absurd hmem List.not_mem_nil
  | _ => cases h

theorem strictObject_eq_ok {fields : List (JsString × Schema)} {props ds : List (JsString × Data)}
    (hparse : parseFields (.obj props) fields = .ok ds)
    (hkeys : props.map Prod.fst ⊆ fields.map Prod.fst) :
    strictObject fields (.obj props) = .ok (.obj ds) := by
  obtain ⟨hfields, rfl⟩ := parseFields_ok.mp hparse
  have hnone : (props.map Prod.fst).filter (fun key => key ∉ fields.map Prod.fst) = [] :=
    List.filter_eq_nil_iff.mpr fun key hkey => by simpa using List.mem_map.mp (hkeys hkey)
  refine parse_ok.mpr ⟨?_, rfl⟩
  simp only [strictObject, hfields, hnone, unrecognizedKeys, if_true, List.append_nil]

/-- A merged shape accepts what its two parts accept, one after the other. -/
theorem parseFields_append_ok {v : Data} {fs gs : List (JsString × Schema)}
    {ds : List (JsString × Data)} :
    parseFields v (fs ++ gs) = .ok ds ↔
      ∃ xs ys, parseFields v fs = .ok xs ∧ parseFields v gs = .ok ys ∧ ds = xs ++ ys := by
  -- Induction on the first part.
  induction fs generalizing ds with
  | nil =>
    constructor
    · intro h
      exact ⟨[], ds, rfl, h, rfl⟩
    · rintro ⟨xs, ys, hxs, hys, rfl⟩
      obtain rfl : [] = xs := Except.ok.inj hxs
      exact hys
  | cons f fs ih =>
    obtain ⟨key, S⟩ := f
    rw [List.cons_append, parseFields_cons_ok]
    constructor
    · rintro ⟨d, ds', hd, hpresent, hds', rfl⟩
      obtain ⟨xs, ys, hxs, hys, rfl⟩ := ih.mp hds'
      refine ⟨_, ys, parseFields_cons_ok.mpr ⟨d, xs, hd, hpresent, hxs, rfl⟩, hys, ?_⟩
      split_ifs <;> rfl
    · rintro ⟨xs, ys, hxs, hys, rfl⟩
      obtain ⟨d, xs', hd, hpresent, hxs', rfl⟩ := parseFields_cons_ok.mp hxs
      refine ⟨d, xs' ++ ys, hd, hpresent, ih.mpr ⟨xs', ys, hxs', hys, rfl⟩, ?_⟩
      split_ifs <;> rfl

/-- Accepted fields are fields of the shape. -/
theorem keys_subset_of_parseFields {v : Data} {fields : List (JsString × Schema)}
    {ds : List (JsString × Data)} (h : parseFields v fields = .ok ds) :
    ds.map Prod.fst ⊆ fields.map Prod.fst := by
  induction fields generalizing ds with
  | nil =>
    obtain rfl : [] = ds := Except.ok.inj h
    exact List.Subset.refl _
  | cons f fields ih =>
    obtain ⟨key, S⟩ := f
    obtain ⟨d, ds', -, -, hrest, rfl⟩ := parseFields_cons_ok.mp h
    split_ifs
    · exact List.Subset.trans (ih hrest) (List.subset_cons_self ..)
    · exact List.cons_subset_cons _ (ih hrest)

/-- A field of an accepted object is what the schema of the field made of it. -/
theorem get_of_parseFields {v : Data} {fields : List (JsString × Schema)}
    {ds : List (JsString × Data)} (hnodup : (fields.map Prod.fst).Nodup)
    (h : parseFields v fields = .ok ds) :
    ∀ f ∈ fields, f.2 (v.get f.1) = .ok ((Data.obj ds).get f.1) := by
  -- Induction on the fields: a later one has another key.
  induction fields generalizing ds with
  | nil => exact fun f hf => absurd hf List.not_mem_nil
  | cons g fields ih =>
    obtain ⟨key, S⟩ := g
    obtain ⟨d, ds', hd, -, hrest, rfl⟩ := parseFields_cons_ok.mp h
    rw [List.map_cons, List.nodup_cons] at hnodup
    intro f hf
    rcases List.mem_cons.mp hf with rfl | hf
    · refine hd.trans (congrArg Except.ok ?_)
      split_ifs with habsent
      · rw [Data.get_of_notMem fun hmem => hnodup.1 (keys_subset_of_parseFields hrest hmem)]
        cases d with
        | undefined => rfl
        | _ => simp [Data.isUndefined] at habsent
      · rw [Data.get_cons_self]
    · have hmem : f.1 ∈ fields.map Prod.fst := List.mem_map_of_mem hf
      have hne : key ≠ f.1 := fun hkey => hnodup.1 (hkey ▸ hmem)
      rw [ih hnodup.2 hrest f hf]
      split_ifs
      · rfl
      · rw [Data.get_cons_of_ne hne]

/-- An object is accepted when every field of it is, and none is absent that must not be. -/
theorem exists_parseFields {v : Data} {fields : List (JsString × Schema)}
    (h : ∀ f ∈ fields, ∃ d, f.2 (v.get f.1) = .ok d)
    (hpresent : ∀ f ∈ fields, v.has f.1 = true ∨ f.2.isOptional = true) :
    ∃ ds, parseFields v fields = .ok ds := by
  induction fields with
  | nil => exact ⟨[], rfl⟩
  | cons g fields ih =>
    obtain ⟨d, hd⟩ := h g (List.mem_cons_self ..)
    obtain ⟨ds, hds⟩ := ih (fun f hf => h f (List.mem_cons_of_mem _ hf)) fun f hf =>
      hpresent f (List.mem_cons_of_mem _ hf)
    have hg := hpresent g (List.mem_cons_self ..)
    exact ⟨_, parseFields_cons_ok.mpr ⟨d, ds, hd, hg, hds, rfl⟩⟩

/-- An optional field of parsed JSON is absent, or its schema accepts it. -/
theorem optional_ok {j : Json} {key : JsString} {S : Schema} {d : Data}
    (h : optional S ((Data.ofJson j).get key) = .ok d) :
    (d = .undefined ∧ (Data.ofJson j).has key = false) ∨
      S ((Data.ofJson j).get key) = .ok d ∧ (Data.ofJson j).has key = true := by
  have hiff := Data.isUndefined_get_ofJson j key
  generalize (Data.ofJson j).get key = v at h hiff ⊢
  cases v with
  | undefined => exact Or.inl ⟨(Except.ok.inj h).symm, by simpa [Data.isUndefined] using hiff⟩
  | _ => exact Or.inr ⟨h, by simpa [Data.isUndefined] using hiff⟩

/-- A safe integer is accepted as it is. -/
theorem int_ok (h : int v = .ok d) : ∃ value text, v = .num (.finite value text) ∧
    d = .num (.finite value text) ∧ value.den = 1 ∧ value ≤ maxSafeInteger := by
  cases v with
  | num n =>
    cases n with
    | finite value text =>
      obtain ⟨hissues, rfl⟩ := parse_ok.mp h
      simp only [int, intIssues] at hissues
      have hint : value.den = 1 := by
        by_contra hint
        rw [if_pos hint] at hissues
        cases hissues
      rw [if_neg (not_not.mpr hint), List.append_eq_nil_iff] at hissues
      refine ⟨value, text, rfl, rfl, hint, Rat.not_lt.mp fun hbig => ?_⟩
      rw [if_pos hbig] at hissues
      cases hissues.1
    | _ => cases h
  | _ => cases h

/-- A safe integer in a range is accepted as it is. -/
theorem safeInteger_ok {lo hi : ℕ} {v d : Data} (h : safeInteger lo hi v = .ok d) :
    ∃ value text, v = .num (.finite value text) ∧ d = .num (.finite value text) ∧ value.den = 1 ∧
      value ≤ maxSafeInteger ∧ (lo : ℚ) ≤ value ∧ value ≤ hi := by
  obtain ⟨hinteger, hrange⟩ := superRefine_ok.mp h
  obtain ⟨value, text, rfl, rfl, hint, hsafe⟩ := int_ok hinteger
  refine ⟨value, text, rfl, rfl, hint, hsafe, ?_⟩
  simpa only [rangeIssues, List.append_eq_nil_iff, ite_eq_right_iff, List.cons_ne_nil, imp_false,
    Rat.not_lt] using hrange

/-- A natural number is accepted as long as it is safe. -/
theorem int_natCast {n : ℕ} {text : JsString} (hn : n ≤ maxSafeInteger) :
    int (.num (.finite (n : ℚ) text)) = .ok (.num (.finite (n : ℚ) text)) := by
  have hle : (n : ℚ) ≤ maxSafeInteger := Rat.natCast_le_natCast.mpr hn
  have hlow : -(maxSafeInteger : ℚ) ≤ n := by
    rw [Rat.neg_le_iff]
    exact Rat.le_trans (Rat.neg_le_neg Rat.natCast_nonneg) Rat.natCast_nonneg
  refine parse_ok.mpr ⟨?_, rfl⟩
  simp only [int, intIssues]
  rw [if_neg (by simp), if_neg (Rat.not_lt.mpr hle), if_neg (Rat.not_lt.mpr hlow), List.append_nil]

/-- What a stable schema accepts survives serialization and is accepted again, unchanged. -/
def Stable (S : Schema) : Prop :=
  ∀ v d, S v = .ok d → d.roundTrip = some d ∧ S d = .ok d

theorem stable_string (checks : List Check) : Stable (string checks) := by
  intro v d h
  cases v with
  | str s =>
    obtain ⟨hs, rfl⟩ := string_ok.mp h
    exact ⟨rfl, string_ok.mpr ⟨hs, rfl⟩⟩
  | _ => cases h

theorem stable_format (holds : JsString → Bool) (message : JsString) :
    Stable (format holds message) := by
  intro v d h
  cases v with
  | str s =>
    obtain ⟨hs, rfl⟩ := format_ok.mp h
    exact ⟨rfl, format_ok.mpr ⟨hs, rfl⟩⟩
  | _ => cases h

theorem stable_boolean : Stable boolean := by
  intro v d h
  cases v with
  | bool b =>
    obtain rfl := Except.ok.inj h
    exact ⟨rfl, rfl⟩
  | _ => cases h

theorem stable_enum (options : List JsString) : Stable (enum options) := by
  intro v d h
  cases v with
  | str s =>
    obtain ⟨hs, rfl⟩ := oneOf_ok.mp h
    exact ⟨rfl, oneOf_ok.mpr ⟨hs, rfl⟩⟩
  | _ => cases h

theorem isUndefined_of_roundTrip {d : Data} (h : d.roundTrip = some d) : d.isUndefined = false := by
  cases d with
  | undefined => cases h
  | _ => rfl

/-- One accepted value for each field of a schema, in their order. -/
def FieldsAccepted (v : Data) (fields : List (JsString × Schema)) (ds : List (JsString × Data)) :
    Prop :=
  List.Forall₂ (fun f d => f.1 = d.1 ∧ f.2 (v.get f.1) = .ok d.2) fields ds

theorem fieldsAccepted_of_parseFields {v : Data} {fields : List (JsString × Schema)}
    (hS : ∀ f ∈ fields, Stable f.2) {ds : List (JsString × Data)}
    (h : parseFields v fields = .ok ds) :
    FieldsAccepted v fields ds := by
  -- Induction on the fields: a stable schema accepts no `undefined`, so each field is kept.
  induction fields generalizing ds with
  | nil =>
    obtain rfl := Except.ok.inj h
    exact List.Forall₂.nil
  | cons f rest ih =>
    obtain ⟨key, S⟩ := f
    obtain ⟨d, ds', hd, -, hrest, rfl⟩ := parseFields_cons_ok.mp h
    have hund := isUndefined_of_roundTrip (hS (key, S) (List.mem_cons_self ..) _ _ hd).1
    simp only [hund, Bool.false_and, Bool.false_eq_true, if_false]
    have hrest' := ih (fun f hf => hS f (List.mem_cons_of_mem _ hf)) hrest
    exact List.Forall₂.cons ⟨rfl, hd⟩ hrest'

theorem parseFields_of_fieldsAccepted {v : Data} {fields : List (JsString × Schema)}
    {ds : List (JsString × Data)} (h : FieldsAccepted v fields ds)
    (hds : ∀ d ∈ ds, d.2.isUndefined = false ∧ v.has d.1 = true) :
    parseFields v fields = .ok ds := by
  induction h with
  | nil => rfl
  | @cons f d fields ds hfd _ ih =>
    obtain ⟨key, S⟩ := f
    obtain ⟨_, value⟩ := d
    obtain ⟨rfl, hS⟩ := hfd
    have hrest := ih fun d hd => hds d (List.mem_cons_of_mem _ hd)
    obtain ⟨hund, hhas⟩ : value.isUndefined = false ∧ v.has key = true :=
      hds _ (List.mem_cons_self ..)
    refine parseFields_cons_ok.mpr ⟨value, ds, hS, Or.inl hhas, hrest, ?_⟩
    simp [hund]

theorem FieldsAccepted.keys {v : Data} {fields : List (JsString × Schema)}
    {ds : List (JsString × Data)} (h : FieldsAccepted v fields ds) :
    ds.map Prod.fst = fields.map Prod.fst := by
  induction h with
  | nil => rfl
  | cons hfd _ ih => simp [hfd.1, ih]

theorem FieldsAccepted.roundTrip {v : Data} {fields : List (JsString × Schema)}
    {ds : List (JsString × Data)} (h : FieldsAccepted v fields ds)
    (hS : ∀ f ∈ fields, Stable f.2) : ∀ d ∈ ds, d.2.roundTrip = some d.2 := by
  induction h with
  | nil => exact fun d hd => absurd hd List.not_mem_nil
  | @cons f d fields ds hfd _ ih =>
    intro e he
    rcases List.mem_cons.mp he with rfl | he
    · exact (hS f (List.mem_cons_self ..) _ _ hfd.2).1
    · exact ih (fun f hf => hS f (List.mem_cons_of_mem _ hf)) e he

/-- An object with distinct keys has its fields under them. -/
theorem get_of_mem {ds : List (JsString × Data)} (hnodup : (ds.map Prod.fst).Nodup)
    {f : JsString × Data} (hf : f ∈ ds) : (Data.obj ds).get f.1 = f.2 := by
  induction ds with
  | nil => exact absurd hf List.not_mem_nil
  | cons d rest ih =>
    obtain ⟨hd, hrest⟩ := List.nodup_cons.mp hnodup
    rcases List.mem_cons.mp hf with rfl | hf
    · simp [Data.get]
    · -- a later field has another key than the first one
      have hne : d.1 ≠ f.1 := fun he => hd (he ▸ List.mem_map_of_mem hf)
      rw [← ih hrest hf]
      simp [Data.get, hne]

/-- An object has the fields it is made of. -/
theorem has_of_mem {ds : List (JsString × Data)} {f : JsString × Data} (hf : f ∈ ds) :
    (Data.obj ds).has f.1 = true := by
  simp only [Data.has, List.any_eq_true]
  exact ⟨f, hf, beq_self_eq_true _⟩

/-- **An object schema with distinct keys and stable fields is stable.** -/
theorem stable_object {fields : List (JsString × Schema)} (hkeys : (fields.map Prod.fst).Nodup)
    (hS : ∀ f ∈ fields, Stable f.2) : Stable (object fields) := by
  intro v d h
  cases v with
  | obj props =>
    obtain ⟨ds, hparse, rfl⟩ := object_ok.mp h
    have hacc := fieldsAccepted_of_parseFields hS hparse
    have hnodup : (ds.map Prod.fst).Nodup := hacc.keys ▸ hkeys
    have hround := hacc.roundTrip hS
    -- each accepted value is found under its key again, and accepted as it is
    have hagain : FieldsAccepted (.obj ds) fields ds := by
      obtain ⟨hlen, hzip⟩ := List.forall₂_iff_zip.mp hacc
      refine List.forall₂_iff_zip.mpr ⟨hlen, fun {f e} hfe => ?_⟩
      obtain ⟨hkey, he⟩ := hzip hfe
      obtain ⟨hf, hemem⟩ := List.of_mem_zip hfe
      rw [hkey, get_of_mem hnodup hemem]
      exact ⟨rfl, (hS f hf _ _ he).2⟩
    refine ⟨Data.roundTrip_obj hround, object_ok.mpr ⟨ds, ?_, rfl⟩⟩
    exact parseFields_of_fieldsAccepted hagain fun e he =>
      ⟨isUndefined_of_roundTrip (hround e he), has_of_mem he⟩
  | _ => cases h

end Schema

end Ecma
