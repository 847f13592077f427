import QueueWorkerKit.Jobs.Registry

/-!
# Validation in two steps and in one

The registry checks a stored job in two steps, the envelope and then the payload in it, while the
`envelopeSchema` that `jobs/types.ts` exports describes both at once. Both accept the same jobs, and
what the registry reports is a part of what the schema would. Only where the envelope has no payload
at all do their words for it differ: the first step asks for some value there, the schema for the
payload of the job.

## Main definitions

* `envelopeSchema`: the envelope and the payload in one schema
* `lacksPayload`: an object without a payload
* `Rooted`: every issue of a schema is at its root or under a named field

## Main results

* `validate_agrees`: **the two steps and the one schema agree** on every stored value
-/

namespace QueueWorkerKit

open Ecma

/-- The schema of an envelope for a given payload schema. -/
def envelopeSchema (fmt : Formats) (payload : Schema) : Schema :=
  .object [(js "payload", payload), (js "meta", jobMetaSchema fmt)]

/-- An object without a payload. -/
def lacksPayload : Data → Bool
  | .obj props => !(Data.obj props).has (js "payload")
  | _ => false

variable {fmt : Formats} {payload : Schema} {definition : JobDefinition} {v d : Data}
  {issues : List Issue}

/-! ## Paths -/

/-- A schema reports on its value as a whole, or on a field that has a name. -/
def Rooted (S : Schema) : Prop :=
  ∀ v, ∀ i ∈ (S.run v).issues, i.path = [] ∨ ∃ key rest, i.path = key :: rest ∧ key ≠ []

theorem path_of_runFields {fields : List (JsString × Schema)} :
    ∀ i ∈ (Schema.runFields v fields).issues,
      ∃ key rest, i.path = key :: rest ∧ key ∈ fields.map Prod.fst := by
  -- Induction on the fields.
  induction fields with
  | nil => exact fun i hi => absurd hi List.not_mem_nil
  | cons f fields ih =>
    obtain ⟨key, S⟩ := f
    intro i hi
    rcases List.mem_append.mp hi with hown | hothers
    · obtain ⟨j, -, rfl⟩ := List.mem_map.mp hown
      exact ⟨key, j.path, rfl, List.mem_cons_self ..⟩
    · obtain ⟨key', rest, hpath, hmem⟩ := ih i hothers
      exact ⟨key', rest, hpath, List.mem_cons_of_mem _ hmem⟩

/-- An object whose fields have names is rooted. -/
theorem rooted_object {fields : List (JsString × Schema)} (h : ∀ f ∈ fields, f.1 ≠ []) :
    Rooted (.object fields) := by
  intro v i hi
  cases v with
  | obj props =>
    obtain ⟨key, rest, hpath, hmem⟩ := path_of_runFields i hi
    obtain ⟨f, hf, rfl⟩ := List.mem_map.mp hmem
    exact Or.inr ⟨f.1, rest, hpath, h f hf⟩
  | _ =>
    rw [List.mem_singleton.mp hi]
    exact Or.inl rfl

/-- The payload schemas of the jobs are rooted. -/
theorem rooted_schema (h : definition ∈ jobDefinitions fmt) : Rooted definition.schema := by
  simp only [jobDefinitions, List.mem_cons, List.not_mem_nil, or_false] at h
  rcases h with rfl | rfl | rfl
  · apply rooted_object
    intro f hf
    simp only [List.mem_cons, List.not_mem_nil, or_false] at hf
    rcases hf with rfl | rfl | rfl <;> exact List.cons_ne_nil _ _
  · apply rooted_object
    intro f hf
    simp only [List.mem_cons, List.not_mem_nil, or_false] at hf
    rcases hf with rfl | rfl | rfl <;> exact List.cons_ne_nil _ _
  · apply rooted_object
    intro f hf
    simp only [List.mem_cons, List.not_mem_nil, or_false] at hf
    rcases hf with rfl | rfl <;> exact List.cons_ne_nil _ _

theorem join_cons_cons {separator part next : JsString} {rest : List JsString} :
    join separator (part :: next :: rest) = part ++ separator ++ join separator (next :: rest) := by
  simp [join, List.intercalate]

theorem length_join_pos {separator part : JsString} {rest : List JsString} (h : part ≠ []) :
    0 < (join separator (part :: rest)).length := by
  have hpart : 0 < part.length := List.length_pos_iff.mpr h
  cases rest with
  | nil => simpa [join, List.intercalate] using hpart
  | cons next rest =>
    rw [join_cons_cons, List.length_append, List.length_append]
    omega

/-- **A path under a field** is told in the same words by the registry's prefix and by the schema of
the whole. -/
theorem issuesOf_under {key : JsString} (hkey : key ≠ [])
    (h : ∀ i ∈ issues, i.path = [] ∨ ∃ first rest, i.path = first :: rest ∧ first ≠ []) :
    issuesOf (issues.map (Issue.under key)) [] = issuesOf issues key := by
  rw [issuesOf, issuesOf, List.map_map]
  refine List.map_congr_left fun i hi => ?_
  have hlength : 0 < key.length := List.length_pos_iff.mpr hkey
  rcases h i hi with hpath | ⟨first, rest, hpath, hfirst⟩
  · simp [Issue.under, hpath, join, List.intercalate, hlength]
  · have hjoin : 0 < (join (js ".") (first :: rest)).length := length_join_pos hfirst
    simp [Issue.under, hpath, join_cons_cons, hlength, hjoin]

/-! ## The two fields of an envelope -/

/-- An envelope is accepted when its payload and its metadata are, with what they are read as. -/
theorem envelopeSchema_obj_ok {props : List (JsString × Data)}
    (h : envelopeSchema fmt payload (.obj props) = .ok d) :
    payload ((Data.obj props).get (js "payload")) = .ok (d.get (js "payload")) ∧
      ((Data.obj props).has (js "payload") = true ∨ payload.isOptional = true) ∧
      jobMetaSchema fmt ((Data.obj props).get (js "meta")) = .ok (d.get (js "meta")) := by
  obtain ⟨ds, hparse, rfl⟩ := Schema.object_ok.mp h
  obtain ⟨-, -, -, hpresent, -⟩ := Schema.parseFields_cons_ok.mp hparse
  have hnodup : ([(js "payload", payload), (js "meta", jobMetaSchema fmt)].map Prod.fst).Nodup := by
    show [js "payload", js "meta"].Nodup
    decide
  have hget := Schema.get_of_parseFields hnodup hparse
  exact ⟨hget _ (List.mem_cons_self ..), hpresent,
    hget _ (List.mem_cons_of_mem _ (List.mem_cons_self ..))⟩

/-- Metadata that is accepted is there. -/
theorem has_of_jobMetaSchema {m : Data}
    (hmeta : jobMetaSchema fmt (d.get (js "meta")) = .ok m) : d.has (js "meta") = true := by
  by_contra habsent
  rw [Data.get_of_has_eq_false (Bool.not_eq_true _ ▸ habsent)] at hmeta
  cases hmeta

/-- An envelope is accepted when its two fields are. -/
theorem exists_envelopeSchema_obj {props : List (JsString × Data)} {p m : Data}
    (hpayload : payload ((Data.obj props).get (js "payload")) = .ok p)
    (hpresent : (Data.obj props).has (js "payload") = true)
    (hmeta : jobMetaSchema fmt ((Data.obj props).get (js "meta")) = .ok m) :
    ∃ d, envelopeSchema fmt payload (.obj props) = .ok d :=
  ⟨_, Schema.object_ok.mpr ⟨_, Schema.parseFields_cons_ok.mpr
    ⟨p, _, hpayload, Or.inl hpresent, Schema.parseFields_cons_ok.mpr
      ⟨m, [], hmeta, Or.inl (has_of_jobMetaSchema hmeta), rfl, rfl⟩, rfl⟩, rfl⟩⟩

/-- The issues of an envelope: those of its payload, and then those of its metadata. -/
theorem envelopeSchema_obj_issues {props : List (JsString × Data)} :
    ((envelopeSchema fmt payload).run (.obj props)).issues =
      (Schema.runField payload (.obj props) (js "payload")).issues.map
          (Issue.under (js "payload")) ++
        (Schema.runField (jobMetaSchema fmt) (.obj props) (js "meta")).issues.map
          (Issue.under (js "meta")) := by
  show _ ++ (_ ++ []) = _
  rw [List.append_nil]

/-- The schema of a field that is there runs on its value. -/
theorem runField_of_has {S : Schema} {key : JsString} (h : v.has key = true) :
    Schema.runField S v key = S.run (v.get key) := by
  simp [Schema.runField, h]

/-! ## The two steps -/

theorem issuesOf_append {others : List Issue} {outer : JsString} :
    issuesOf (issues ++ others) outer = issuesOf issues outer ++ issuesOf others outer :=
  List.map_append

/-- A payload schema is not one of a field that may be absent, and reports that it is no object. -/
theorem schema_undefined (h : definition ∈ jobDefinitions fmt) :
    definition.schema.isOptional = false ∧
      (definition.schema.run .undefined).issues =
        [Schema.invalidType (js "object") .undefined] := by
  simp only [jobDefinitions, List.mem_cons, List.not_mem_nil, or_false] at h
  rcases h with rfl | rfl | rfl <;> exact ⟨rfl, rfl⟩

/-- What both steps accept, the one schema accepts as the same, and conversely. -/
theorem validate_ok_iff (h : definition ∈ jobDefinitions fmt) {v : Validated}
    {props : List (JsString × Data)} :
    validate fmt definition (.obj props) = .ok v ↔
      ∃ whole, envelopeSchema fmt definition.schema (.obj props) = .ok whole ∧
        v = ⟨whole.get (js "payload"), whole.get (js "meta")⟩ := by
  rw [validate_ok]
  constructor
  · rintro ⟨shape, p, hshape, hp, rfl⟩
    obtain ⟨hunknown, hpresent, hmeta⟩ := envelopeSchema_obj_ok hshape
    rw [← Except.ok.inj hunknown] at hp
    have hhas := hpresent.resolve_right Bool.false_ne_true
    obtain ⟨whole, hwhole⟩ := exists_envelopeSchema_obj hp hhas hmeta
    obtain ⟨hp', -, hmeta'⟩ := envelopeSchema_obj_ok hwhole
    refine ⟨whole, hwhole, ?_⟩
    rw [Except.ok.inj (hp.symm.trans hp'), Except.ok.inj (hmeta.symm.trans hmeta')]
  · rintro ⟨whole, hwhole, rfl⟩
    obtain ⟨hp, hpresent, hmeta⟩ := envelopeSchema_obj_ok hwhole
    have hhas := hpresent.resolve_right (by rw [(schema_undefined h).1]; exact Bool.false_ne_true)
    have hopaque : Schema.unknown ((Data.obj props).get (js "payload")) = .ok _ := rfl
    obtain ⟨shape, hshape⟩ := exists_envelopeSchema_obj hopaque hhas hmeta
    obtain ⟨hunknown, -, hmeta'⟩ := envelopeSchema_obj_ok hshape
    refine ⟨shape, whole.get (js "payload"), hshape, ?_, ?_⟩
    · rwa [← Except.ok.inj hunknown]
    · rw [Except.ok.inj (hmeta.symm.trans hmeta')]

/-- What the registry reports on an object with a payload is a part of what the one schema
reports. -/
theorem texts_sublist (h : definition ∈ jobDefinitions fmt) {props : List (JsString × Data)}
    (hhas : (Data.obj props).has (js "payload") = true) {e : KitError}
    (he : validate fmt definition (.obj props) = .error e) :
    ∃ message texts, e = .payloadValidation message texts ∧ texts.Sublist
      (issuesOf ((envelopeSchema fmt definition.schema).run (.obj props)).issues []) := by
  have hkey : js "payload" ≠ [] := List.cons_ne_nil _ _
  rw [envelopeSchema_obj_issues, runField_of_has hhas, issuesOf_append,
    issuesOf_under hkey (rooted_schema h _)]
  unfold validate at he
  split at he
  · next shapeIssues hshape =>
    -- any payload passes the first step, so it has reported on the metadata
    obtain ⟨hissues, -⟩ := Schema.parse_error.mp hshape
    have hshape' : shapeIssues = (Schema.runField (jobMetaSchema fmt) (.obj props)
        (js "meta")).issues.map (Issue.under (js "meta")) := by
      rw [← hissues]
      refine (@envelopeSchema_obj_issues fmt Schema.unknown props).trans ?_
      rw [runField_of_has hhas]
      rfl
    obtain rfl := Except.error.inj he
    exact ⟨_, _, rfl, hshape' ▸ List.sublist_append_right ..⟩
  · next shape hshape =>
    obtain ⟨hunknown, -⟩ := envelopeSchema_obj_ok hshape
    split at he
    · next payloadIssues hpayload =>
      obtain rfl := Except.error.inj he
      rw [← Except.ok.inj hunknown] at hpayload
      rw [← (Schema.parse_error.mp hpayload).1]
      exact ⟨_, _, rfl, List.sublist_append_left ..⟩
    · cases he

/-- An object without a payload is refused by both for that first, and then for the same. -/
theorem texts_of_lacksPayload (h : definition ∈ jobDefinitions fmt)
    {props : List (JsString × Data)} (hhas : (Data.obj props).has (js "payload") = false)
    {e : KitError} (he : validate fmt definition (.obj props) = .error e) :
    ∃ message texts others, e = .payloadValidation message texts ∧
      texts = js "payload: Invalid input: expected nonoptional, received undefined" :: others ∧
      issuesOf ((envelopeSchema fmt definition.schema).run (.obj props)).issues [] =
        js "payload: Invalid input: expected object, received undefined" :: others := by
  obtain ⟨hoptional, hundefined⟩ := schema_undefined h
  have hget := Data.get_of_has_eq_false hhas
  have hwhole : (Schema.runField definition.schema (.obj props) (js "payload")).issues =
      [Schema.invalidType (js "object") .undefined] := by
    simp [Schema.runField, hget, hundefined]
  have hunknown : (Schema.runField Schema.unknown (.obj props) (js "payload")).issues =
      [Schema.nonoptional] := by
    simp [Schema.runField, hget, hhas, Schema.unknown]
  rw [envelopeSchema_obj_issues, hwhole, issuesOf_append]
  unfold validate at he
  split at he
  · next shapeIssues hshape =>
    obtain ⟨hissues, -⟩ := Schema.parse_error.mp hshape
    obtain rfl := Except.error.inj he
    refine ⟨_, _, _, rfl, ?_, rfl⟩
    rw [← hissues]
    have hshape' := @envelopeSchema_obj_issues fmt Schema.unknown props
    refine (congrArg (issuesOf · []) hshape').trans ?_
    rw [hunknown, issuesOf_append]
    rfl
  · next shape hshape =>
    -- the first step has refused it
    obtain ⟨-, hpresent, -⟩ := envelopeSchema_obj_ok hshape
    rw [hhas] at hpresent
    rcases hpresent with hfalse | hfalse <;> cases hfalse

/-- **The two steps and the one schema agree** on every stored value: they accept the same, with the
same payload and the same metadata; and the errors of the registry are some of those of the schema,
in the same words. Where the envelope has no payload both report that first, each in its own words,
and all of the rest in the same. -/
theorem validate_agrees (h : definition ∈ jobDefinitions fmt) (data : Data) :
    (∀ v, validate fmt definition data = .ok v ↔
      ∃ whole, envelopeSchema fmt definition.schema data = .ok whole ∧
        v = ⟨whole.get (js "payload"), whole.get (js "meta")⟩) ∧
      ∀ e, validate fmt definition data = .error e →
        ∃ issues message texts, envelopeSchema fmt definition.schema data = .error issues ∧
          e = .payloadValidation message texts ∧
          (lacksPayload data = false → texts.Sublist (issuesOf issues [])) ∧
          (lacksPayload data = true → ∃ others,
            texts = js "payload: Invalid input: expected nonoptional, received undefined" ::
              others ∧
            issuesOf issues [] =
              js "payload: Invalid input: expected object, received undefined" :: others) := by
  cases data with
  | obj props =>
    refine ⟨fun v => validate_ok_iff h, fun e he => ?_⟩
    cases hwhole : envelopeSchema fmt definition.schema (.obj props) with
    | ok whole =>
      -- both steps would have accepted it
      rw [(@validate_ok_iff _ _ h ⟨_, _⟩ _).mpr ⟨whole, hwhole, rfl⟩] at he
      cases he
    | error issues =>
      obtain ⟨hissues, -⟩ := Schema.parse_error.mp hwhole
      cases hhas : (Data.obj props).has (js "payload") with
      | true =>
        obtain ⟨message, texts, rfl, htexts⟩ := texts_sublist h hhas he
        refine ⟨issues, message, texts, rfl, rfl, fun _ => hissues ▸ htexts, fun hlacks => ?_⟩
        rw [lacksPayload, hhas] at hlacks
        cases hlacks
      | false =>
        obtain ⟨message, texts, others, rfl, htexts, hothers⟩ := texts_of_lacksPayload h hhas he
        refine ⟨issues, message, texts, rfl, rfl, fun hlacks => ?_, fun _ =>
          ⟨others, htexts, hissues ▸ hothers⟩⟩
        rw [lacksPayload, hhas] at hlacks
        cases hlacks
  | _ =>
    -- what is no object is refused by both for that alone
    refine ⟨fun v => ⟨fun hv => ?_, ?_⟩, fun e he => ?_⟩
    · cases hv
    · rintro ⟨whole, hwhole, -⟩
      cases hwhole
    · obtain rfl := Except.error.inj he
      refine ⟨_, _, _, rfl, rfl, fun _ => List.Sublist.refl _, fun hlacks => ?_⟩
      cases hlacks

/-- Where both the payload and the metadata are empty, the registry reports the metadata alone;
where the payload is absent, it reports that too. -/
theorem validate_agrees_empty :
    (∃ issues message texts, envelopeSchema ⟨fun _ => true, fun _ => true⟩ generateReportJob.schema
          (.obj [(js "payload", .obj []), (js "meta", .obj [])]) = .error issues ∧
        validate ⟨fun _ => true, fun _ => true⟩ generateReportJob
          (.obj [(js "payload", .obj []), (js "meta", .obj [])]) =
            .error (.payloadValidation message texts) ∧
        texts.length = 2 ∧ texts.Sublist (issuesOf issues [])) ∧
      ∃ issues message texts others,
        envelopeSchema ⟨fun _ => true, fun _ => true⟩ generateReportJob.schema
          (.obj [(js "meta", .obj [])]) = .error issues ∧
        validate ⟨fun _ => true, fun _ => true⟩ generateReportJob (.obj [(js "meta", .obj [])]) =
          .error (.payloadValidation message texts) ∧
        texts.length = 3 ∧
        texts = js "payload: Invalid input: expected nonoptional, received undefined" :: others ∧
        issuesOf issues [] =
          js "payload: Invalid input: expected object, received undefined" :: others := by
  have hmem : generateReportJob ∈ jobDefinitions ⟨fun _ => true, fun _ => true⟩ := by
    simp [jobDefinitions]
  constructor
  · obtain ⟨message, texts, hvalidate, hlength⟩ : ∃ message texts,
        validate ⟨fun _ => true, fun _ => true⟩ generateReportJob
          (.obj [(js "payload", .obj []), (js "meta", .obj [])]) =
            .error (.payloadValidation message texts) ∧ texts.length = 2 := ⟨_, _, rfl, rfl⟩
    obtain ⟨issues, _, _, hissues, heq, hsublist, -⟩ := (validate_agrees hmem _).2 _ hvalidate
    obtain ⟨rfl, rfl⟩ := KitError.payloadValidation.inj heq
    exact ⟨issues, message, texts, hissues, hvalidate, hlength, hsublist rfl⟩
  · obtain ⟨message, texts, hvalidate, hlength⟩ : ∃ message texts,
        validate ⟨fun _ => true, fun _ => true⟩ generateReportJob (.obj [(js "meta", .obj [])]) =
          .error (.payloadValidation message texts) ∧ texts.length = 3 := ⟨_, _, rfl, rfl⟩
    obtain ⟨issues, _, _, hissues, heq, -, hlacks⟩ := (validate_agrees hmem _).2 _ hvalidate
    obtain ⟨rfl, rfl⟩ := KitError.payloadValidation.inj heq
    obtain ⟨others, htexts, hothers⟩ := hlacks rfl
    exact ⟨issues, message, texts, others, hissues, hvalidate, hlength, htexts, hothers⟩

end QueueWorkerKit
