import QueueWorkerKit.Errors.Errors
import QueueWorkerKit.Jobs.Definitions

/-!
# The job registry

What `jobs/registry.ts` does with a stored job before its processor runs: the envelope is checked,
then the payload in it, and each failure is reported with the paths of its issues.

## Main definitions

* `issuesOf`: the texts of issues under a path
* `Validated`, `validate`: the payload and metadata that a processor is handed

## Main results

* `roundTrip_envelope`: an accepted payload in its envelope survives serialization
* `validate_envelope`: **which envelopes of accepted payloads the worker accepts**
-/

namespace QueueWorkerKit

open Ecma

/-- The outer shape of a job envelope, with the payload left as it is. -/
def envelopeShapeSchema (fmt : Formats) : Schema :=
  .object [(js "payload", .unknown), (js "meta", jobMetaSchema fmt)]

/-- The texts of issues, each with the path of its field under the `outer` path. -/
def issuesOf (issues : List Issue) (outer : JsString) : List JsString :=
  issues.map fun issue =>
    let path := join (js ".") issue.path
    let full := if outer.length > 0 ∧ path.length > 0 then outer ++ js "." ++ path
      else outer ++ path
    (if full.length > 0 then full else js "(root)") ++ js ": " ++ issue.message

/-- A stored job that passed both checks. -/
structure Validated where
  payload : Data
  jobMeta : Data

/-- The correlation id that a processor is handed. -/
def Validated.correlationId (v : Validated) : Data := v.jobMeta.get (js "correlationId")

/-- The two checks of `invoke` on the data of a stored job. -/
def validate (fmt : Formats) (definition : JobDefinition) (data : Data) :
    Except KitError Validated :=
  match envelopeShapeSchema fmt data with
  | .error issues =>
    .error (.payloadValidation (js "Invalid job envelope for \"" ++ definition.name ++ js "\"")
      (issuesOf issues []))
  | .ok envelope =>
    match definition.schema (envelope.get (js "payload")) with
    | .error issues =>
      .error (.payloadValidation (js "Invalid payload for job \"" ++ definition.name ++ js "\"")
        (issuesOf issues (js "payload")))
    | .ok payload => .ok ⟨payload, envelope.get (js "meta")⟩

/-- What is handed on passed both checks. -/
theorem validate_ok {fmt : Formats} {definition : JobDefinition} {data : Data} {v : Validated} :
    validate fmt definition data = .ok v ↔
      ∃ shape payload, envelopeShapeSchema fmt data = .ok shape ∧
        definition.schema (shape.get (js "payload")) = .ok payload ∧
        v = ⟨payload, shape.get (js "meta")⟩ := by
  unfold validate
  cases envelopeShapeSchema fmt data with
  | error issues => simp
  | ok shape =>
    cases hpayload : definition.schema (shape.get (js "payload")) with
    | error issues => simp [hpayload]
    | ok payload => simp [hpayload, eq_comm]

/-- Everything that validation reports is permanent. -/
theorem validate_error_nonRetryable {fmt : Formats} {definition : JobDefinition} {data : Data}
    {e : KitError} (h : validate fmt definition data = .error e) :
    ErrorClass.nonRetryableError ∈ e.errorClass.ancestors := by
  unfold validate at h
  split at h
  · obtain rfl := Except.error.inj h
    simp [KitError.errorClass, ErrorClass.ancestors]
  · split at h
    · obtain rfl := Except.error.inj h
      simp [KitError.errorClass, ErrorClass.ancestors]
    · cases h

theorem roundTrip_toData (m : JobMeta) : m.toData.roundTrip = some m.toData := by
  apply Data.roundTrip_obj
  intro f hf
  -- every field is a text
  simp only [List.mem_append, List.mem_cons, List.not_mem_nil, or_false, Option.mem_toList,
    Option.map_eq_some_iff] at hf
  rcases hf with (rfl | rfl) | ⟨key, -, rfl⟩
  · exact Data.roundTrip_str _
  · exact Data.roundTrip_str _
  · exact Data.roundTrip_str _

/-- An envelope of a payload that survives serialization survives it. -/
theorem roundTrip_envelope {payload : Data} (h : payload.roundTrip = some payload) (m : JobMeta) :
    (envelope payload m).roundTrip = some (envelope payload m) := by
  apply Data.roundTrip_obj
  intro f hf
  rcases List.mem_cons.mp hf with rfl | hf
  · exact h
  · rw [List.mem_singleton.mp hf]
    exact roundTrip_toData m

/-- The shape of an envelope is checked through its metadata. -/
theorem envelopeShapeSchema_envelope (fmt : Formats) {payload : Data} (m : JobMeta)
    (hpayload : payload.isUndefined = false) (htime : fmt.isoDatetime m.enqueuedAt = true)
    (d : Data) :
    envelopeShapeSchema fmt (envelope payload m) = .ok d ↔
      (IdLength m.correlationId ∧ ∀ key, m.idempotencyKey = some key → IdLength key) ∧
        d = envelope payload m := by
  have hobject : envelopeShapeSchema fmt (envelope payload m) = .ok d ↔ _ := Schema.object_ok
  have hget : (envelope payload m).get (js "payload") = payload := rfl
  have hmeta : (envelope payload m).get (js "meta") = m.toData := rfl
  have hund : m.toData.isUndefined = false := rfl
  rw [hobject]
  show (∃ ds, Schema.parseFields (envelope payload m) _ = _ ∧ _) ↔ _
  simp only [Schema.parseFields_cons_ok, hget, hmeta, jobMetaSchema_toData fmt m htime]
  constructor
  · rintro ⟨_, ⟨_, _, hunknown, -, ⟨_, ds', ⟨hlen, rfl⟩, -, hnil, rfl⟩, rfl⟩, rfl⟩
    obtain rfl := Except.ok.inj hunknown
    obtain rfl : [] = ds' := Except.ok.inj hnil
    refine ⟨hlen, ?_⟩
    simp [hpayload, hund, envelope]
  · rintro ⟨hlen, rfl⟩
    refine ⟨_, ⟨payload, _, rfl, Or.inl rfl, ⟨m.toData, [], ⟨hlen, rfl⟩, Or.inl rfl, rfl, rfl⟩,
      rfl⟩, ?_⟩
    simp [hpayload, hund, envelope]

/-- **Which envelopes of accepted payloads the worker accepts**: those with ids of 1 to 200 code
units, and it hands the processor the payload and the metadata as they are. -/
theorem validate_envelope (fmt : Formats) {definition : JobDefinition} {payload : Data}
    (m : JobMeta) (hpayload : definition.schema payload = .ok payload)
    (hdefined : payload.isUndefined = false) (htime : fmt.isoDatetime m.enqueuedAt = true)
    (v : Validated) :
    validate fmt definition (envelope payload m) = .ok v ↔
      (IdLength m.correlationId ∧ ∀ key, m.idempotencyKey = some key → IdLength key) ∧
        v = ⟨payload, m.toData⟩ := by
  have hshape := envelopeShapeSchema_envelope fmt m hdefined htime
  have hget : (envelope payload m).get (js "payload") = payload := rfl
  have hmeta : (envelope payload m).get (js "meta") = m.toData := rfl
  unfold validate
  cases hcheck : envelopeShapeSchema fmt (envelope payload m) with
  | error issues =>
    -- the shape is checked first, and fails for its ids alone
    have hnot : ¬ (IdLength m.correlationId ∧
        ∀ key, m.idempotencyKey = some key → IdLength key) := by
      intro hlen
      rw [(hshape _).mpr ⟨hlen, rfl⟩] at hcheck
      cases hcheck
    constructor
    · intro h
      cases h
    · rintro ⟨hlen, -⟩
      exact absurd hlen hnot
  | ok d =>
    obtain ⟨hlen, rfl⟩ := (hshape d).mp hcheck
    simp only [hget, hmeta, hpayload, Except.ok.injEq]
    constructor
    · rintro rfl
      exact ⟨hlen, rfl⟩
    · rintro ⟨-, rfl⟩
      rfl

end QueueWorkerKit
