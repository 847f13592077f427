import QueueWorkerKit.Queue.Enqueue

/-!
# The clean-up job

The processor of `maintenance.cleanup`. It counts the days from the cutoff to the clock, so its
result is one of the cutoff and of the time it runs at.

## Main definitions

* `CleanupPayload`, `CleanupResult`: what the processor is handed, and what it returns
* `countStaleRecords`, `createCleanupProcessor`: the count, and the processor
* `SameDay`: no whole number of days after a cutoff separates two times

## Main results

* `payload_of_validate`: what a processor of the job is handed
* `redelivery_iff`: **when two deliveries of one job return the same result**
-/

namespace QueueWorkerKit

open Ecma

structure CleanupPayload where
  before : JsString
  dryRun : Bool

def CleanupPayload.toData (p : CleanupPayload) : Data :=
  .obj [(js "before", .str p.before), (js "dryRun", .bool p.dryRun)]

structure CleanupResult where
  before : JsString
  dryRun : Bool
  scanned : JsNumber
  removed : JsNumber

/-- The milliseconds of a day. -/
def dayMs : ℕ := 86400000

/-- The count at a time of the clock. An invalid date has no number of days. -/
def countStaleRecords (now : TimeValue) (before : Option TimeValue) : JsNumber :=
  match before with
  | none => .nan
  | some before =>
    let days := (max 0 ((now.ms - before.ms) / dayMs)).toNat
    .ofNat (days * 17)

/-- The processor, started at a time of the clock; its pause ends or is cut short. -/
def createCleanupProcessor (now : TimeValue) (pause : Except Thrown Unit) (data : CleanupPayload) :
    Except Thrown CleanupResult := do
  let before := dateParse data.before
  let scanned := countStaleRecords now before
  pause
  let removed := if data.dryRun then JsNumber.ofNat 0 else scanned
  return { before := data.before, dryRun := data.dryRun, scanned, removed }

/-- No whole number of days after the cutoff lies between the two times. -/
def SameDay (cutoff first second : TimeValue) : Prop :=
  ∀ k : ℕ, 1 ≤ k →
    (first.ms < cutoff.ms + k * dayMs ↔ second.ms < cutoff.ms + k * dayMs)

variable {fmt : Formats} {first second : TimeValue}

/-- What the schema accepts is a payload. -/
theorem cleanupPayloadSchema_ok {d parsed : Data} (h : cleanupPayloadSchema fmt d = .ok parsed) :
    ∃ p : CleanupPayload, parsed = p.toData := by
  cases d with
  | obj props =>
    obtain ⟨ds, hds, rfl⟩ := Schema.object_ok.mp h
    obtain ⟨before, _, hbefore, -, hrest, rfl⟩ := Schema.parseFields_cons_ok.mp hds
    obtain ⟨dryRun, _, hdryRun, -, hnil, rfl⟩ := Schema.parseFields_cons_ok.mp hrest
    obtain rfl := Except.ok.inj hnil
    -- each field has one form that its schema accepts
    obtain ⟨s, rfl⟩ : ∃ s, before = .str s := by
      cases hget : (Data.obj props).get (js "before") with
      | str s =>
        rw [hget] at hbefore
        exact ⟨s, (Schema.format_ok.mp hbefore).2⟩
      | _ =>
        rw [hget] at hbefore
        cases hbefore
    obtain ⟨b, rfl⟩ : ∃ b, dryRun = .bool b := by
      cases hget : (Data.obj props).get (js "dryRun") with
      | bool b =>
        rw [hget] at hdryRun
        exact ⟨b, (Except.ok.inj hdryRun).symm⟩
      | _ =>
        rw [hget] at hdryRun
        cases hdryRun
    exact ⟨⟨s, b⟩, rfl⟩
  | _ => cases h

/-- **What a processor of the job is handed** is a payload. -/
theorem payload_of_validate {data : Data} {v : Validated}
    (h : validate fmt (cleanupJob fmt) data = .ok v) :
    ∃ p : CleanupPayload, v.payload = p.toData := by
  obtain ⟨shape, payload, -, hpayload, rfl⟩ := validate_ok.mp h
  exact cleanupPayloadSchema_ok hpayload

theorem toData_injective : Function.Injective CleanupPayload.toData := by
  rintro ⟨s, b⟩ ⟨s', b'⟩ h
  simpa [CleanupPayload.toData] using h

/-- A count of days below a bound is a time before that day. -/
theorem days_lt_iff (now cutoff : TimeValue) {k : ℕ} (hk : 1 ≤ k) :
    (max 0 ((now.ms - cutoff.ms) / dayMs)).toNat < k ↔ now.ms < cutoff.ms + k * dayMs := by
  have hday : (dayMs : ℤ) = 86400000 := rfl
  rw [hday]
  omega

/-- **When two counts are equal.** -/
theorem countStaleRecords_eq_iff (first second cutoff : TimeValue) :
    countStaleRecords first (some cutoff) = countStaleRecords second (some cutoff) ↔
      SameDay cutoff first second := by
  simp only [countStaleRecords, JsNumber.ofNat_inj]
  rw [Nat.mul_left_inj (by decide)]
  constructor
  · intro heq k hk
    rw [← days_lt_iff first cutoff hk, ← days_lt_iff second cutoff hk, heq]
  · intro hsame
    -- each count is below the successor of the other
    have hfirst := (days_lt_iff first cutoff (Nat.le_add_left 1 _)).mpr
      ((hsame _ (Nat.le_add_left 1 _)).mpr
        ((days_lt_iff second cutoff (Nat.le_add_left 1 _)).mp (Nat.lt_succ_self _)))
    have hsecond := (days_lt_iff second cutoff (Nat.le_add_left 1 _)).mpr
      ((hsame _ (Nat.le_add_left 1 _)).mp
        ((days_lt_iff first cutoff (Nat.le_add_left 1 _)).mp (Nat.lt_succ_self _)))
    omega

theorem createCleanupProcessor_ok (now : TimeValue) (p : CleanupPayload) :
    createCleanupProcessor now (.ok ()) p =
      .ok ⟨p.before, p.dryRun, countStaleRecords now (dateParse p.before),
        if p.dryRun then .ofNat 0 else countStaleRecords now (dateParse p.before)⟩ := rfl

/-- **When two deliveries of one job return the same result**: exactly when no whole number of days
after the cutoff lies between the times they run at. -/
theorem redelivery_iff {data : Data} {v : Validated}
    (h : validate fmt (cleanupJob fmt) data = .ok v) : ∃ p : CleanupPayload,
      v.payload = p.toData ∧ ∀ first second : TimeValue,
        (createCleanupProcessor first (.ok ()) p = createCleanupProcessor second (.ok ()) p ↔
          ∀ cutoff, dateParse p.before = some cutoff → SameDay cutoff first second) := by
  obtain ⟨p, hp⟩ := payload_of_validate h
  refine ⟨p, hp, fun first second => ?_⟩
  rw [createCleanupProcessor_ok, createCleanupProcessor_ok]
  -- the results are equal when the counts are
  have hcounts : ∀ a b : JsNumber, (Except.ok ⟨p.before, p.dryRun, a, if p.dryRun then .ofNat 0 else a⟩ :
      Except Thrown CleanupResult) = .ok ⟨p.before, p.dryRun, b, if p.dryRun then .ofNat 0 else b⟩ ↔
        a = b := by
    intro a b
    constructor
    · intro heq
      exact (CleanupResult.mk.inj (Except.ok.inj heq)).2.2.1
    · rintro rfl
      rfl
  rw [hcounts]
  cases hcutoff : dateParse p.before with
  | none => simp [countStaleRecords]
  | some cutoff => simp [countStaleRecords_eq_iff]

/-- A clean-up of everything before March 2026, in an envelope. -/
def cleanupData : Data :=
  envelope (CleanupPayload.toData ⟨js "2026-03-01T00:00:00.000Z", false⟩)
    (stampMeta plainContext (withCorrelationId (js "request-7")))

/-- A second later. -/
def nextSecond : TimeValue := ⟨plainContext.now.ms + 1000, by decide⟩

/-- The next day at the same time. -/
def nextDay : TimeValue := ⟨plainContext.now.ms + dayMs, by decide⟩

theorem redelivery_iff_march : ∃ v p,
    validate featureFormats (cleanupJob featureFormats) cleanupData = .ok v ∧
      v.payload = CleanupPayload.toData p ∧
      createCleanupProcessor plainContext.now (.ok ()) p =
        createCleanupProcessor nextSecond (.ok ()) p := by
  obtain ⟨v, hv, hpayload⟩ : ∃ v,
      validate featureFormats (cleanupJob featureFormats) cleanupData = .ok v ∧
        v.payload = CleanupPayload.toData ⟨js "2026-03-01T00:00:00.000Z", false⟩ :=
    ⟨_, rfl, rfl⟩
  obtain ⟨p, hp, hiff⟩ := redelivery_iff hv
  refine ⟨v, p, hv, hp, (hiff _ _).mpr fun cutoff hcutoff k hk => ?_⟩
  obtain rfl := toData_injective (hp.symm.trans hpayload)
  have hms : cutoff.ms = 1772323200000 := by
    have hdate : (dateParse (js "2026-03-01T00:00:00.000Z")).map TimeValue.ms =
        some 1772323200000 := by decide
    rw [hcutoff] at hdate
    exact Option.some.inj hdate
  have hnow : plainContext.now.ms = 1772539384567 := rfl
  have hlater : nextSecond.ms = 1772539385567 := rfl
  have hday : (dayMs : ℤ) = 86400000 := rfl
  rw [hms, hnow, hlater, hday]
  omega

/-- **A redelivery on the next day returns another count.** -/
theorem redelivery_differs : ∃ v p,
    validate featureFormats (cleanupJob featureFormats) cleanupData = .ok v ∧
      v.payload = CleanupPayload.toData p ∧
      createCleanupProcessor plainContext.now (.ok ()) p ≠
        createCleanupProcessor nextDay (.ok ()) p := by
  obtain ⟨v, hv, hpayload⟩ : ∃ v,
      validate featureFormats (cleanupJob featureFormats) cleanupData = .ok v ∧
        v.payload = CleanupPayload.toData ⟨js "2026-03-01T00:00:00.000Z", false⟩ :=
    ⟨_, rfl, rfl⟩
  refine ⟨v, _, hv, hpayload, fun heq => ?_⟩
  rw [createCleanupProcessor_ok, createCleanupProcessor_ok] at heq
  have hcounts := (CleanupResult.mk.inj (Except.ok.inj heq)).2.2.1
  obtain ⟨cutoff, hcutoff, hms⟩ : ∃ cutoff,
      dateParse (js "2026-03-01T00:00:00.000Z") = some cutoff ∧ cutoff.ms = 1772323200000 :=
    Option.map_eq_some_iff.mp (by decide)
  have hsame := (countStaleRecords_eq_iff _ _ cutoff).mp (hcutoff ▸ hcounts) 3 (by decide)
  have hnow : plainContext.now.ms = 1772539384567 := rfl
  have hnext : nextDay.ms = 1772625784567 := rfl
  have hday : (dayMs : ℤ) = 86400000 := rfl
  rw [hms, hnow, hnext, hday] at hsame
  omega

end QueueWorkerKit
