import QueueWorkerKit.Utils.SerializeError

/-!
# Dead-letter records and their ids

What `write` of `worker/dead-letter.ts` builds before it talks to the queue: the record of a
terminal failure, and the deterministic id it is stored under.

## Main definitions

* `FailedJob`, `DeadLetterInput`: what the `failed` event hands to the writer
* `DeadLetterRecord`, `buildRecord`: the record of a terminal failure
* `TerminalFailure`, `deadLetterJobId`: terminal failures, and the ids of their records
* `TokensDetermineIds`: failures whose flattened parts agree have the same job id

## Main results

* `deadLetterJobId_eq_iff`: an id determines the queue, the flattened job id and the attempts
-/

namespace QueueWorkerKit

open Ecma

structure FailedJob where
  id : Option JsString
  name : JsString
  data : Json
  finishedOn : Option TimeValue

structure DeadLetterInput where
  sourceQueue : JsString
  job : FailedJob
  error : JsValue
  correlationId : JsString
  attemptsMade : ℕ

structure StoredError where
  name : JsString
  message : JsString
  stack : Option JsString
  code : Option JsString
  deriving DecidableEq

structure DeadLetterRecord where
  sourceQueue : JsString
  sourceJobId : JsString
  sourceJobName : JsString
  payload : Json
  failedReason : JsString
  error : StoredError
  attemptsMade : ℕ
  correlationId : JsString
  failedAt : JsString

/-- The components a terminal failure is identified by. -/
structure TerminalFailure where
  sourceQueue : JsString
  sourceJobId : JsString
  attemptsMade : ℕ
  deriving DecidableEq

/-! ## Ids -/

/-- A code unit that `[A-Za-z0-9_-]` matches. -/
def isIdUnit (u : CodeUnit) : Bool :=
  (0x41 ≤ u && u ≤ 0x5A) || (0x61 ≤ u && u ≤ 0x7A) || isDigit u || u == 0x5F || u == 0x2D

def toIdToken (value : JsString) : JsString :=
  value.map fun u => if isIdUnit u then u else 0x5F

/-- Deterministic id for a terminal failure. -/
def deadLetterJobId (f : TerminalFailure) : JsString :=
  js "dlq-" ++ toIdToken f.sourceQueue ++ js "-" ++ toIdToken f.sourceJobId ++ js "-" ++
    decimal f.attemptsMade

def DeadLetterInput.sourceJobId (input : DeadLetterInput) : JsString :=
  input.job.id.getD (js "unknown")

def DeadLetterInput.failure (input : DeadLetterInput) : TerminalFailure :=
  ⟨input.sourceQueue, input.sourceJobId, input.attemptsMade⟩

def DeadLetterRecord.failure (record : DeadLetterRecord) : TerminalFailure :=
  ⟨record.sourceQueue, record.sourceJobId, record.attemptsMade⟩

/-- The failure came from a queue that a worker consumes. -/
def TerminalFailure.Consumed (f : TerminalFailure) : Prop :=
  f.sourceQueue ∈ workerQueueNames.map QueueName.text

/-- The job ids of two failures differ only if their flattened forms do, as far as queue and
attempts leave the two to be told apart by it. -/
def TokensDetermineIds (f g : TerminalFailure) : Prop :=
  f.sourceQueue = g.sourceQueue → f.attemptsMade = g.attemptsMade →
    toIdToken f.sourceJobId = toIdToken g.sourceJobId → f.sourceJobId = g.sourceJobId

instance (f : TerminalFailure) : Decidable f.Consumed :=
  inferInstanceAs (Decidable (f.sourceQueue ∈ workerQueueNames.map QueueName.text))

instance (f g : TerminalFailure) : Decidable (TokensDetermineIds f g) :=
  inferInstanceAs (Decidable (_ → _ → _ → _))

theorem notMem_decimal {n : ℕ} : (0x2D : CodeUnit) ∉ decimal n :=
  fun h => absurd (isDigit_of_mem_decimal h) (by decide)

theorem toIdToken_of_consumed {f : TerminalFailure} (h : f.Consumed) :
    toIdToken f.sourceQueue = f.sourceQueue ∧ (0x2D : CodeUnit) ∉ f.sourceQueue := by
  obtain ⟨q, hq, hname⟩ := List.mem_map.mp h
  rw [← hname]
  cases q with
  | deadLetter => exact absurd hq (by decide)
  | _ => decide

/-- **The parts of an id.** The queue is read up to the separator after it, the attempts after
the last separator, and what is left is the flattened job id. -/
theorem deadLetterJobId_eq_iff {f g : TerminalFailure} (hf : f.Consumed) (hg : g.Consumed) :
    deadLetterJobId f = deadLetterJobId g ↔
      f.sourceQueue = g.sourceQueue ∧ toIdToken f.sourceJobId = toIdToken g.sourceJobId ∧
        f.attemptsMade = g.attemptsMade := by
  obtain ⟨hfq, hfn⟩ := toIdToken_of_consumed hf
  obtain ⟨hgq, hgn⟩ := toIdToken_of_consumed hg
  have hdash : js "-" = [0x2D] := by decide
  simp only [deadLetterJobId, hfq, hgq, hdash, List.append_assoc,
    List.append_cancel_left_eq, List.cons_append, List.nil_append]
  rw [append_cons_inj_first hfn hgn, append_cons_inj_last notMem_decimal notMem_decimal,
    decimal_injective.eq_iff]

/-- Ids agree exactly when the components do, as far as the flattened ids tell them. -/
theorem deadLetterJobId_inj {f g : TerminalFailure} (hf : f.Consumed) (hg : g.Consumed) :
    (deadLetterJobId f = deadLetterJobId g → f = g) ↔ TokensDetermineIds f g := by
  rw [deadLetterJobId_eq_iff hf hg]
  constructor
  · intro h hqueue hattempts htoken
    exact congrArg TerminalFailure.sourceJobId (h ⟨hqueue, htoken, hattempts⟩)
  · rintro h ⟨hqueue, htoken, hattempts⟩
    have hid := h hqueue hattempts htoken
    cases f
    cases g
    simp_all

/-! ## Records -/

/-- The record of a terminal failure at the time `now`. Building it throws where the error cannot
be projected, or where its projection has no message to slice. -/
def buildRecord (h : Heap ErrorClass) (now : TimeValue) (input : DeadLetterInput) :
    Except Failure DeadLetterRecord := do
  let serialized ← (serializeError h input.error 0).mapError .thrown
  let failedReason ← formatErrorReason h input.error deadLetterReasonMaxChars
  match serialized.message with
  | none => throw .typeError
  | some message =>
    return {
      sourceQueue := input.sourceQueue
      sourceJobId := input.sourceJobId
      sourceJobName := input.job.name
      payload := input.job.data
      failedReason
      error := {
        name := serialized.name
        message := message.take deadLetterReasonMaxChars
        stack := serialized.stack
        code := serialized.code }
      attemptsMade := input.attemptsMade
      correlationId := input.correlationId
      failedAt := toISOString (input.job.finishedOn.getD now) }

/-- What a record is built from: an error whose projection has a message. -/
theorem buildRecord_eq_ok {h : Heap ErrorClass} {now : TimeValue} {input : DeadLetterInput}
    {record : DeadLetterRecord} :
    buildRecord h now input = .ok record ↔
      ∃ serialized message, serializeError h input.error 0 = .ok serialized ∧
        serialized.message = some message ∧
        record = {
          sourceQueue := input.sourceQueue
          sourceJobId := input.sourceJobId
          sourceJobName := input.job.name
          payload := input.job.data
          failedReason := summary serialized.name message deadLetterReasonMaxChars
          error := {
            name := serialized.name
            message := message.take deadLetterReasonMaxChars
            stack := serialized.stack
            code := serialized.code }
          attemptsMade := input.attemptsMade
          correlationId := input.correlationId
          failedAt := toISOString (input.job.finishedOn.getD now) } := by
  unfold buildRecord formatErrorReason
  cases hser : serializeError h input.error 0 with
  | error v => simp [Except.mapError, bind, Except.bind]
  | ok serialized =>
    cases hmsg : serialized.message with
    | none => simp [Except.mapError, bind, Except.bind, hmsg]
    | some message =>
      simp only [Except.mapError, bind, Except.bind, hmsg, pure, Except.pure, Except.ok.injEq]
      constructor
      · rintro rfl
        exact ⟨serialized, message, rfl, hmsg, rfl⟩
      · rintro ⟨_, _, rfl, hmsg', rfl⟩
        obtain rfl := Option.some.inj (hmsg.symm.trans hmsg')
        rfl

/-- A record keeps the components of its failure. -/
theorem failure_of_buildRecord {h : Heap ErrorClass} {now : TimeValue} {input : DeadLetterInput}
    {record : DeadLetterRecord} (hrecord : buildRecord h now input = .ok record) :
    record.failure = input.failure := by
  obtain ⟨_, _, -, -, rfl⟩ := buildRecord_eq_ok.mp hrecord
  rfl

end QueueWorkerKit
