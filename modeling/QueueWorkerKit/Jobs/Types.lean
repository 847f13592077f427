import QueueWorkerKit.Config.Defaults
import QueueWorkerKit.Library.Schema

/-!
# Job definitions, envelopes and their metadata

The types of `jobs/types.ts`. What travels through Redis is an envelope: a payload, and metadata
that the producer stamps and the worker checks against `jobMetaSchema`.

## Main definitions

* `Formats`: the string formats that the schema library recognizes
* `JobDefinition`: the name, queue, schema and options of one kind of work
* `jobMetaSchema`, `JobMeta`: the schema of the metadata, and the metadata a producer stamps

## Main results

* `jobMetaSchema_toData`: which stamped metadata the schema accepts
-/

namespace QueueWorkerKit

open Ecma

/-- The string formats of the schema library: e-mail addresses and ISO 8601 date-times. -/
structure Formats where
  email : JsString → Bool
  isoDatetime : JsString → Bool

/-- The options a definition pins. -/
structure JobDefaultOptions where
  attempts : Option ℕ

structure JobDefinition where
  name : JsString
  queue : QueueName
  schema : Schema
  defaultJobOptions : JobDefaultOptions
  timeoutMs : Option ℕ

def jobMetaSchema (fmt : Formats) : Schema :=
  .object [
    (js "correlationId", .string [.min 1, .max 200]),
    (js "enqueuedAt", .formatDefault fmt.isoDatetime (js "Invalid ISO datetime")),
    (js "idempotencyKey", .optional (.string [.min 1, .max 200]))]

structure JobMeta where
  correlationId : JsString
  enqueuedAt : JsString
  idempotencyKey : Option JsString

/-- The metadata as an object, without the key when there is none. -/
def JobMeta.toData (m : JobMeta) : Data :=
  .obj ([(js "correlationId", .str m.correlationId), (js "enqueuedAt", .str m.enqueuedAt)] ++
    (m.idempotencyKey.map fun key => (js "idempotencyKey", Data.str key)).toList)

/-- The envelope of a payload. -/
def envelope (payload : Data) (m : JobMeta) : Data :=
  .obj [(js "payload", payload), (js "meta", m.toData)]

/-- A text within the bounds that ids are checked against. -/
def IdLength (s : JsString) : Prop := 1 ≤ s.length ∧ s.length ≤ 200

instance (s : JsString) : Decidable (IdLength s) := inferInstanceAs (Decidable (_ ∧ _))

theorem get_correlationId (m : JobMeta) :
    m.toData.get (js "correlationId") = .str m.correlationId := rfl

theorem get_enqueuedAt (m : JobMeta) : m.toData.get (js "enqueuedAt") = .str m.enqueuedAt := rfl

theorem get_idempotencyKey (m : JobMeta) :
    m.toData.get (js "idempotencyKey") = (m.idempotencyKey.map Data.str).getD .undefined := by
  obtain ⟨correlationId, enqueuedAt, key⟩ := m
  cases key <;> rfl

theorem has_idempotencyKey (m : JobMeta) :
    m.toData.has (js "idempotencyKey") = m.idempotencyKey.isSome := by
  obtain ⟨correlationId, enqueuedAt, key⟩ := m
  cases key <;> rfl

/-- The bounds on an id, as the schema checks them. -/
theorem string_idLength {s : JsString} {d : Data} :
    Schema.string [.min 1, .max 200] (.str s) = .ok d ↔ IdLength s ∧ d = .str s := by
  rw [Schema.string_ok]
  simp [Schema.Check.min, Schema.Check.max, IdLength]

/-- The key of some stamped metadata, as the schema checks it. -/
theorem optional_idempotencyKey (m : JobMeta) (d : Data) :
    Schema.optional (.string [.min 1, .max 200]) (m.toData.get (js "idempotencyKey")) = .ok d ↔
      (∀ key, m.idempotencyKey = some key → IdLength key) ∧
        d = (m.idempotencyKey.map Data.str).getD .undefined := by
  rw [get_idempotencyKey]
  cases m.idempotencyKey with
  | none => simp [eq_comm]
  | some key =>
    simp only [Option.map_some, Option.getD_some, Schema.optional_str, string_idLength,
      Option.some.injEq, forall_eq']

/-- The fields of stamped metadata, as the schema parses them. -/
theorem parseFields_toData (fmt : Formats) (m : JobMeta)
    (htime : fmt.isoDatetime m.enqueuedAt = true) (ds : List (JsString × Data)) :
    Schema.parseFields m.toData [
      (js "correlationId", .string [.min 1, .max 200]),
      (js "enqueuedAt", .formatDefault fmt.isoDatetime (js "Invalid ISO datetime")),
      (js "idempotencyKey", .optional (.string [.min 1, .max 200]))] = .ok ds ↔
      (IdLength m.correlationId ∧ ∀ key, m.idempotencyKey = some key → IdLength key) ∧
        .obj ds = m.toData := by
  simp only [Schema.parseFields_cons_ok, get_correlationId, get_enqueuedAt,
    optional_idempotencyKey, has_idempotencyKey, string_idLength, Schema.formatDefault_ok]
  constructor
  · rintro ⟨_, _, ⟨hid, rfl⟩, -, ⟨_, _, ⟨-, rfl⟩, -, ⟨_, ds', ⟨hkey, rfl⟩, -, hnil, rfl⟩, rfl⟩, rfl⟩
    obtain rfl : [] = ds' := Except.ok.inj hnil
    refine ⟨⟨hid, hkey⟩, ?_⟩
    obtain ⟨correlationId, enqueuedAt, key⟩ := m
    cases key <;> rfl
  · rintro ⟨⟨hid, hkey⟩, hds⟩
    refine ⟨_, _, ⟨hid, rfl⟩, Or.inl rfl, ⟨_, _, ⟨htime, rfl⟩, Or.inl rfl,
      ⟨_, [], ⟨hkey, rfl⟩, Or.inr rfl, rfl, rfl⟩, rfl⟩, ?_⟩
    obtain ⟨correlationId, enqueuedAt, key⟩ := m
    cases key <;> exact Data.obj.inj hds

/-- **Which stamped metadata the schema accepts**: ids of 1 to 200 code units, at a time in ISO
format; the accepted metadata is what was stamped. -/
theorem jobMetaSchema_toData (fmt : Formats) (m : JobMeta)
    (htime : fmt.isoDatetime m.enqueuedAt = true) (d : Data) :
    jobMetaSchema fmt m.toData = .ok d ↔
      (IdLength m.correlationId ∧ ∀ key, m.idempotencyKey = some key → IdLength key) ∧
        d = m.toData := by
  have hobject : jobMetaSchema fmt m.toData = .ok d ↔ _ := Schema.object_ok
  rw [hobject]
  constructor
  · rintro ⟨ds, hds, rfl⟩
    exact (parseFields_toData fmt m htime ds).mp hds
  · rintro ⟨hlen, rfl⟩
    exact ⟨_, (parseFields_toData fmt m htime _).mpr ⟨hlen, rfl⟩, rfl⟩

end QueueWorkerKit
